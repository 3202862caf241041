import AsciiSerialCom.SerialCom.Progress

/-!
# Receivers on a wire

What comes out of a sender is a sequence of frames, of which a receiver has seen
some front part.  Wherever that part ends, its valid frames are the first of the
messages, so a receiver never reports anything that was not sent, and reports
what was sent in order.
-/

namespace AsciiSerialCom

open Foundation
open Foundation.Run
open Foundation.StateError

/-!
## Frames cut off
-/

theorem framesOf_cons (m : Message) (ms : List Message) :
    framesOf (m :: ms) = m.frame ++ framesOf ms := by
  simp [framesOf]

theorem validFrames_framesOf_append {ms : List Message}
    (h : forall m, m ∈ ms -> m.Valid) (rest : List UInt8) :
    validFrames (framesOf ms ++ rest) = ms ++ validFrames rest := by
  induction ms with
  | nil => rfl
  | cons m ms ih =>
      have hms := ih fun m' hm' => h m' (List.mem_cons_of_mem _ hm')
      rw [framesOf_cons, List.append_assoc,
        validFrames_frame_append (h m (List.mem_cons_self ..)), hms,
        List.cons_append]

/-- A frame that has not ended is no frame. -/
theorem validFrames_of_unfinished {m : Message} (h : m.Valid)
    {front back : List UInt8} (hsplit : m.frame = front ++ back)
    (hne : back ≠ []) : validFrames front = [] := by
  apply StreamState.validFrames_of_endByte_not_mem
  have hback : endByte ∈ back := by
    refine @endByte_mem_of_framesOf [m] front back ?_ hne
    rw [framesOf_singleton, hsplit]
  have hcount := h.toSendable.count_endByte
  have hpos := List.count_pos_iff.mpr hback
  rw [hsplit, List.count_append] at hcount
  exact List.count_eq_zero.mp (by omega)

/-- **Wherever a sequence of frames is cut, the first messages are seen.** -/
theorem validFrames_firstPart {ms : List Message}
    (h : forall m, m ∈ ms -> m.Valid) {front : List UInt8}
    (hfront : front <+: framesOf ms) : validFrames front <+: ms := by
  induction ms generalizing front with
  | nil =>
      rw [framesOf_nil, List.prefix_nil] at hfront
      rw [hfront]
      exact List.nil_prefix
  | cons m ms ih =>
      have hm := h m (List.mem_cons_self ..)
      rcases hfront with ⟨back, hsplit⟩
      rw [framesOf_cons] at hsplit
      rcases List.append_eq_append_iff.mp hsplit with
        ⟨rest, hframe, -⟩ | ⟨later, hlater, hrest⟩
      · by_cases hended : rest = []
        · rw [hended, List.append_nil] at hframe
          have hone := validFrames_frame_append hm []
          rw [List.append_nil, hframe] at hone
          rw [hone]
          exact ⟨ms, rfl⟩
        · rw [validFrames_of_unfinished hm hframe hended]
          exact List.nil_prefix
      · have hms := ih (fun m' hm' => h m' (List.mem_cons_of_mem _ hm'))
          ⟨back, hrest.symm⟩
        rw [hlater, validFrames_frame_append hm]
        exact List.cons_prefix_cons.mpr ⟨rfl, hms⟩

/-!
## Receivers
-/

namespace StreamState

/-- A receiver that has been given the front part of a sequence of frames. -/
theorem reported_prefix {received : Received} {ops : List StreamOp}
    (hallowed : Allowed step Admits (init received) ops) {ms : List Message}
    (h : forall m, m ∈ ms -> m.Valid) (hwire : pushed ops <+: framesOf ms) :
    (run step (init received) ops).reported <+: ms ∧
      (pushed ops = framesOf ms ->
        endByte ∉ (run step (init received) ops).buffered ->
          (run step (init received) ops).reported = ms) := by
  have hexact := hallowed.invariant (fun _ _ => step_exact)
    (show (init received).Exact from start_exact rfl)
  have hframes := hexact.frames []
  rw [run_stream, List.append_nil, List.append_nil] at hframes
  have hstream : (init received).stream ++ pushed ops = pushed ops := rfl
  rw [hstream] at hframes
  refine ⟨?_, ?_⟩
  · refine List.IsPrefix.trans ?_ (validFrames_firstPart h hwire)
    rw [hframes]
    exact List.prefix_append _ _
  · intro hall hread
    have hms := validFrames_framesOf_append h []
    rw [List.append_nil, ← hall, hframes,
      validFrames_of_endByte_not_mem hread] at hms
    simpa [validFrames] using hms

end StreamState
end AsciiSerialCom
