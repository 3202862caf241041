import AsciiSerialCom.Device.Streaming

/-!
# Commands on their way to the device

Received bytes wait in the extra input buffer, move on to the device one by one,
and are received as messages.  The device handles the valid frames of what has
arrived, in order, and its switch stands where they put it.  Nothing is lost at
the full input buffer because a call comes between any two moves.
-/

namespace AsciiSerialCom

open Foundation
open Foundation.StateError

variable {width : RegWidth}

/-- The device has handled the first valid frames of what has arrived, and what
follows them still waits.  `ready` says that a call has followed the last
move. -/
structure Follows (s : Polling width) (arrived : List UInt8)
    (handled : List Message) (ready : Bool) : Prop where
  checks : s.Checks
  frames : forall t,
    validFrames (arrived ++ t) =
      handled ++
        validFrames (s.inBuf.contents ++ (s.extraInputBuffer.contents ++ t))
  spare : ready = true -> s.inBuf.contents.length = maxMessageLen ->
    forall t, validFrames (s.inBuf.contents.tail ++ t) =
      validFrames (s.inBuf.contents ++ t)
  switch_eq : s.streamingIsOn = switched false handled

namespace Follows

variable {s : Polling width} {arrived : List UInt8} {handled : List Message}
  {charSigned ready : Bool} {state : RegisterPointers width}

theorem setup {ascd : Device (World width)} {uartReady : Bool}
    (hoff : ascd.world.streamingIsOn = false) :
    Follows (Polling.setup ascd uartReady) [] [] true := by
  have hin : (Polling.setup ascd uartReady).inBuf.contents = [] := rfl
  refine ⟨rfl, fun t => rfl, ?_, hoff⟩
  intro _ hfull
  rw [hin] at hfull
  cases hfull

/-- The switch stands where the messages put it. -/
theorem streamingIsOn_eq (h : Follows s arrived handled ready) :
    validFrames arrived =
        handled ++
          validFrames (s.inBuf.contents ++ s.extraInputBuffer.contents) ∧
      s.streamingIsOn = switched false handled := by
  refine ⟨?_, h.switch_eq⟩
  have hframes := h.frames []
  rwa [List.append_nil, List.append_nil] at hframes

theorem arrive (h : Follows s arrived handled ready) (b : UInt8)
    (hroom : s.extraInputBuffer.contents.length < extraInputBufferSize) :
    Follows (s.arrive b) (arrived ++ [b]) handled ready := by
  refine ⟨h.checks, ?_, h.spare, h.switch_eq⟩
  intro t
  have hpush : (s.extraInputBuffer.pushBack b).contents =
      s.extraInputBuffer.contents ++ [b] :=
    RingBuffer.contents_pushBack_of_lt b hroom
  have hextra : (s.arrive b).extraInputBuffer.contents =
      s.extraInputBuffer.contents ++ [b] := hpush
  rw [hextra, List.append_assoc, List.append_assoc, h.frames]
  rfl

theorem uartTxFromCircBuf (h : Follows s arrived handled ready)
    {s' : Polling width} (hrun : Polling.uartTxFromCircBuf s = .ok () s') :
    Follows s' arrived handled ready := by
  rcases Polling.uartTxFromCircBuf_cases s with ⟨-, hrun'⟩ | ⟨b, out, -, hrun'⟩
  · cases hrun.symm.trans hrun'
    exact h
  · cases hrun.symm.trans hrun'
    exact ⟨h.checks, h.frames, h.spare, h.switch_eq⟩

/-- A byte may be moved if the device has been called since the last one. -/
theorem moveInput (h : Follows s arrived handled true) {s' : Polling width}
    (hrun : Polling.moveInput s = .ok () s') :
    Follows s' arrived handled false := by
  rcases Polling.moveInput_cases s with ⟨-, hrun'⟩ | ⟨b, extra, hextra, hrun'⟩
  · cases hrun.symm.trans hrun'
    exact ⟨h.checks, h.frames, fun hready => (by cases hready), h.switch_eq⟩
  · cases hrun.symm.trans hrun'
    refine ⟨h.checks, ?_, fun hready => (by cases hready), h.switch_eq⟩
    intro t
    have hpush := RingBuffer.contents_pushBack s.inBuf b
    have hin : (Polling.withInBuf (s.inBuf.pushBack b)
        { s with extraInputBuffer := extra }).inBuf.contents =
        (s.inBuf.pushBack b).contents := rfl
    have hrest : (Polling.withInBuf (s.inBuf.pushBack b)
        { s with extraInputBuffer := extra }).extraInputBuffer.contents =
        extra.contents := rfl
    rw [h.frames, hextra, hin, hpush, hrest]
    split
    · rename_i hfull
      rw [List.append_assoc, h.spare rfl hfull]
      rfl
    · rw [List.append_assoc]
      rfl

/-- A call handles the next valid frame, if it has arrived. -/
theorem receive (h : Follows s arrived handled ready)
    (hfits : Device.AnswerFits state s.ascd) :
    Follows (Result.state
        (Polling.receive (declaredConfig charSigned state) s)) arrived
      (handled ++ (decode s.inBuf.contents).1.reported) true := by
  have hhandled :=
    (Device.receive_handled charSigned h.checks hfits).right
  rw [Polling.receive_state]
  generalize Result.state (Device.receive (declaredConfig charSigned state)
    s.ascd) = after at hhandled
  have hin : ({ s with ascd := after } : Polling width).inBuf.contents =
      (decode s.inBuf.contents).2 := hhandled.inBuf_eq
  refine ⟨hhandled.checks, ?_, ?_, ?_⟩
  · intro t
    rw [hin, h.frames, validFrames_decode, List.append_assoc]
  · intro _ hfull t
    have hle := s.inBuf.length_contents_le
    rw [hin] at hfull ⊢
    exact validFrames_tail_of_full hle hfull t
  · rw [switched_append, ← h.switch_eq]
    exact hhandled.streamingIsOn_eq

theorem streamToHost (h : Follows s arrived handled ready)
    (hready : s.readyToStream = true) {data : Memory UInt8} {dataSize : Nat}
    (hlen : dataSize <= maxSPayloadLen)
    (hfree : forall b, b ∈ Memory.slice data 0 dataSize -> ¬ Reserved b)
    {s' : Polling width}
    (hrun : Polling.streamToHost data dataSize s = .ok () s') :
    Follows s' arrived handled ready := by
  rcases Polling.streamToHost_of_ready hready hlen hfree with ⟨out, -, hrun'⟩
  cases hrun.symm.trans hrun'
  exact ⟨h.checks, h.frames, h.spare, h.switch_eq⟩

end Follows
end AsciiSerialCom
