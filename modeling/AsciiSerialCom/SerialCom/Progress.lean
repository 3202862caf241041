import AsciiSerialCom.SerialCom.Stream

/-!
# Progress of the receiver

Most malformed frames are discarded by the call that finds them.  The exception
are frames whose first period comes too early or too late: the checksum
computation throws before anything is popped, so the frame stays at the front of
the buffer, and with it everything behind it.
-/

namespace AsciiSerialCom

open Foundation
open Foundation.StateError
open Foundation.Delimited

/-- What stands before the first period of a complete frame at the front. -/
def frontFields : List UInt8 -> Option (List UInt8)
  | [] => none
  | start :: rest =>
      match cutAt endByte rest with
      | (_, none) => none
      | (body, some _) =>
          if start = startByte ∧ startByte ∉ body then
            match cutAt periodByte body with
            | (_, none) => none
            | (fields, some _) => some fields
          else
            none

/-- The buffer starts with a complete frame whose first period is less than four
or more than fifty-eight bytes behind the start. -/
def Wedged (l : List UInt8) : Prop :=
  (frontFields l).any
    (fun fields => fields.length < 3 ∨ maxDataLen + 3 < fields.length) = true

instance (l : List UInt8) : Decidable (Wedged l) :=
  inferInstanceAs (Decidable (_ = true))

section Wedged

variable {fields tail later : List UInt8}

theorem wedged_of_split (hend : endByte ∉ fields ++ periodByte :: tail)
    (hstart : startByte ∉ fields ++ periodByte :: tail)
    (hperiod : periodByte ∉ fields)
    (hlength : fields.length < 3 ∨ maxDataLen + 3 < fields.length) :
    Wedged (startByte :: (fields ++ periodByte :: (tail ++ endByte :: later)))
      := by
  have hbody : fields ++ periodByte :: (tail ++ endByte :: later) =
      (fields ++ periodByte :: tail) ++ endByte :: later := by simp
  have hfront : frontFields
      (startByte :: (fields ++ periodByte :: (tail ++ endByte :: later))) =
      some fields := by
    rw [frontFields, hbody, cutAt_of_split hend]
    simp only
    rw [if_pos ⟨trivial, hstart⟩, cutAt_of_split hperiod]
  rw [Wedged, hfront, Option.any_some]
  exact decide_eq_true hlength

theorem exists_of_frontFields {l fields : List UInt8}
    (h : frontFields l = some fields) :
    exists tail later,
      l = startByte :: (fields ++ periodByte :: (tail ++ endByte :: later)) ∧
        endByte ∉ fields ++ periodByte :: tail ∧
        startByte ∉ fields ++ periodByte :: tail ∧ periodByte ∉ fields := by
  cases l with
  | nil => cases h
  | cons start rest =>
      rw [frontFields] at h
      rcases not_mem_or_split endByte rest with hend | ⟨body, later, rfl, hend⟩
      · rw [cutAt_of_not_mem hend] at h
        cases h
      · rw [cutAt_of_split hend] at h
        simp only at h
        split at h
        · rename_i hopen
          rcases hopen with ⟨rfl, hstart⟩
          rcases not_mem_or_split periodByte body with
            hperiod | ⟨a, tail, rfl, hperiod⟩
          · rw [cutAt_of_not_mem hperiod] at h
            cases h
          · rw [cutAt_of_split hperiod] at h
            injection h with h
            subst h
            exact ⟨tail, later, by simp, hend, hstart, hperiod⟩
        · cases h

theorem exists_of_wedged {l : List UInt8} (h : Wedged l) :
    exists fields tail later,
      l = startByte :: (fields ++ periodByte :: (tail ++ endByte :: later)) ∧
        endByte ∉ fields ++ periodByte :: tail ∧
        startByte ∉ fields ++ periodByte :: tail ∧ periodByte ∉ fields ∧
        (fields.length < 3 ∨ maxDataLen + 3 < fields.length) := by
  rw [Wedged, Option.any_eq_true] at h
  rcases h with ⟨fields, hfront, hlength⟩
  rcases exists_of_frontFields hfront with
    ⟨tail, later, hl, hend, hstart, hperiod⟩
  exact ⟨fields, tail, later, hl, hend, hstart, hperiod,
    of_decide_eq_true hlength⟩

theorem decode_of_wedged {l : List UInt8} (h : Wedged l) :
    (decode l).2 = l := by
  rcases exists_of_wedged h with
    ⟨fields, tail, later, rfl, hend, hstart, hperiod, hlength⟩
  have hbody : fields ++ periodByte :: (tail ++ endByte :: later) =
      (fields ++ periodByte :: tail) ++ endByte :: later := by simp
  have hopen : startByte ∉ (cutAt endByte
      (fields ++ periodByte :: (tail ++ endByte :: later))).1 := by
    rwa [hbody, cutAt_of_split hend]
  rw [decode, resync_of_open hopen]
  simp only
  rw [hbody, cutAt_of_split hend]
  simp only
  rw [cutAt_of_split hperiod]
  simp only
  split
  · rfl
  · rename_i hlong
    rw [Message.ofFields_of_short (by omega)]

end Wedged

theorem decode_suffix (l : List UInt8) :
    exists front, l = front ++ (decode l).2 := by
  rcases resync_suffix startByte endByte l with
    ⟨front, hfront⟩
  have hcase := decode_cases l
  generalize resync startByte endByte l = l' at hcase hfront
  generalize (decode l).1 = d at hcase
  generalize (decode l).2 = rest at hcase ⊢
  rw [hfront]
  cases hcase with
  | empty => exact ⟨front, rfl⟩
  | growing hend hstart => exact ⟨front, rfl⟩
  | @noPeriod body later hend hstart hperiod =>
      exact ⟨front ++ startByte :: (body ++ [endByte]), by simp⟩
  | overlong hend hstart hperiod hlong => exact ⟨front, rfl⟩
  | short hend hstart hperiod hshort => exact ⟨front, rfl⟩
  | @wrongLength m tail later hend hstart hperiod hlong hlength =>
      exact ⟨front ++ startByte :: (m.fields ++ [periodByte]), by simp⟩
  | @checked m tail later hend hstart hperiod hlong hlength =>
      refine ⟨front ++ startByte :: (m.fields ++ periodByte ::
        (tail ++ endByte :: later).take (nCharChecksum + 1)), ?_⟩
      simp only [List.append_assoc, List.cons_append, List.take_append_drop]

theorem decode_length_lt_iff {l : List UInt8} (h : endByte ∈ l) :
    (decode l).2.length < l.length <-> ¬ Wedged l := by
  constructor
  · intro hlt hwedged
    rw [decode_of_wedged hwedged] at hlt
    exact Nat.lt_irrefl _ hlt
  · intro hwedged
    rcases resync_suffix startByte endByte l with
      ⟨front, hfront⟩
    have hcase := decode_cases l
    generalize resync startByte endByte l = l' at hcase hfront
    generalize (decode l).1 = d at hcase
    generalize (decode l).2 = rest at hcase ⊢
    -- a call that pops nothing else has at least removed what was in front
    have hremoved : l' ≠ l -> l'.length < l.length := by
      intro hne
      cases front with
      | nil => exact absurd hfront.symm hne
      | cons x front =>
          rw [hfront]
          simp
    have hle : l'.length <= l.length := by
      rw [hfront, List.length_append]
      omega
    cases hcase with
    | empty =>
        apply hremoved
        rintro rfl
        cases h
    | growing hend hstart =>
        apply hremoved
        rintro rfl
        rcases List.mem_cons.mp h with heq | hmem
        · exact endByte_ne_startByte heq
        · exact hend hmem
    | noPeriod hend hstart hperiod =>
        refine Nat.lt_of_lt_of_le ?_ hle
        simp
        omega
    | overlong hend hstart hperiod hlong =>
        apply hremoved
        rintro rfl
        exact hwedged (wedged_of_split hend hstart hperiod (Or.inr hlong))
    | short hend hstart hperiod hshort =>
        apply hremoved
        rintro rfl
        exact hwedged (wedged_of_split hend hstart hperiod (Or.inl hshort))
    | wrongLength hend hstart hperiod hlong hlength =>
        refine Nat.lt_of_lt_of_le ?_ hle
        simp
        omega
    | checked hend hstart hperiod hlong hlength =>
        refine Nat.lt_of_lt_of_le ?_ hle
        simp
        omega

/-!
## Polling without new input
-/

namespace StreamState

variable {s : StreamState}

/-- Each call is on a buffer without an end, or on one that is not wedged. -/
def NeverWedged (s : StreamState) : Prop :=
  forall k, endByte ∈ (poll k s).buffered -> ¬ Wedged (poll k s).buffered

/-- All ends are eventually consumed, and all valid frames reported. -/
def Drains (s : StreamState) : Prop :=
  exists k, endByte ∉ (poll k s).buffered ∧
    (poll k s).reported = s.reported ++ validFrames s.buffered

theorem poll_length (h : s.Exact) (hnever : s.NeverWedged) (k : Nat)
    (hends : forall j, j < k -> endByte ∈ (poll j s).buffered) :
    (poll k s).buffered.length + k <= s.buffered.length := by
  induction k with
  | zero => exact Nat.le_refl _
  | succ k ih =>
      have hle := ih fun j hj => hends j (Nat.lt_succ_of_lt hj)
      have hend := hends k (Nat.lt_succ_self k)
      have hlt := (decode_length_lt_iff hend).mpr (hnever k hend)
      rw [← poll_buffered_succ h] at hlt
      omega

theorem endByte_not_mem_poll (h : s.Exact) {j k : Nat} (hjk : j <= k)
    (hend : endByte ∉ (poll j s).buffered) :
    endByte ∉ (poll k s).buffered := by
  induction k, hjk using Nat.le_induction with
  | base => exact hend
  | succ k hjk ih =>
      rw [poll_buffered_succ h]
      rcases decode_suffix (poll k s).buffered with ⟨front, hfront⟩
      intro hmem
      apply ih
      rw [hfront]
      exact List.mem_append_right _ hmem

theorem poll_of_wedged (h : s.Exact) {j k : Nat} (hjk : j <= k)
    (hwedged : Wedged (poll j s).buffered) :
    (poll k s).buffered = (poll j s).buffered := by
  induction k, hjk using Nat.le_induction with
  | base => rfl
  | succ k hjk ih =>
      rw [poll_buffered_succ h, ih, decode_of_wedged hwedged]

theorem validFrames_of_endByte_not_mem {l : List UInt8}
    (h : endByte ∉ l) : validFrames l = [] := by
  cases hframes : validFrames l with
  | nil => rfl
  | cons m ms =>
      have hmem : m ∈ validFrames l := by simp [hframes]
      rcases exists_of_mem_frames hmem with ⟨front, body, rest, rfl, -⟩
      simp at h

theorem drains_iff (h : s.Exact) : s.Drains <-> s.NeverWedged := by
  constructor
  · rintro ⟨k, hend, -⟩ j hmem hwedged
    rcases Nat.le_total j k with hjk | hkj
    · apply hend
      rwa [poll_of_wedged h hjk hwedged]
    · exact endByte_not_mem_poll h hkj hend hmem
  · intro hnever
    have hfinite : exists k, endByte ∉ (poll k s).buffered := by
      by_contra hall
      push Not at hall
      have hle := poll_length h hnever (s.buffered.length + 1)
        fun j _ => hall j
      omega
    rcases hfinite with ⟨k, hend⟩
    refine ⟨k, hend, ?_⟩
    have hframes := poll_frames h k
    rwa [validFrames_of_endByte_not_mem hend, List.append_nil] at hframes

/-- **Progress**: a call with an end in the buffer makes it shorter exactly when
the buffer is not wedged, and polling delivers everything behind malformed
frames exactly when no call meets a wedged buffer. -/
theorem progress_iff {r : Receiver} (hcrc : r.asc.ignoreCRCMismatch = false) :
    (endByte ∈ r.asc.inBuf.contents ->
      ((Result.state (Receiver.getMessage r)).asc.inBuf.contents.length <
          r.asc.inBuf.contents.length <->
        ¬ Wedged r.asc.inBuf.contents)) ∧
      ((start r).Drains <-> (start r).NeverWedged) := by
  refine ⟨?_, drains_iff (start_exact hcrc)⟩
  intro hend
  rcases getMessage_step hcrc with ⟨b, received, hstate, hb, -⟩
  have hlt := decode_length_lt_iff hend
  rw [← hb] at hlt
  rw [hstate]
  exact hlt

/-- A receiver with a stray byte and an end drains. -/
theorem progress_iff_of_stray_byte :
    let r := Receiver.holding [periodByte, endByte]
    (endByte ∈ r.asc.inBuf.contents ->
      ((Result.state (Receiver.getMessage r)).asc.inBuf.contents.length <
          r.asc.inBuf.contents.length <->
        ¬ Wedged r.asc.inBuf.contents)) ∧
      ((start r).Drains <-> (start r).NeverWedged) :=
  progress_iff rfl

/-- The three bytes of an empty frame with a period stay in the buffer. -/
theorem not_progress_of_short_frame :
    ¬ forall r : Receiver, r.asc.ignoreCRCMismatch = false ->
      endByte ∈ r.asc.inBuf.contents ->
      (Result.state (Receiver.getMessage r)).asc.inBuf.contents.length <
        r.asc.inBuf.contents.length := by
  intro h
  have hcontents := Receiver.holding_contents [startByte, periodByte, endByte]
    (by decide)
  have hlt := h (Receiver.holding [startByte, periodByte, endByte]) rfl
    (by rw [hcontents]; decide)
  rcases getMessage_step
    (r := Receiver.holding [startByte, periodByte, endByte]) rfl with
    ⟨b, received, hstate, hb, -⟩
  have hwedged : Wedged [startByte, periodByte, endByte] := by decide
  rw [hcontents, decode_of_wedged hwedged] at hb
  have hkeep : (Result.state (Receiver.getMessage
      (Receiver.holding [startByte, periodByte, endByte]))).asc.inBuf.contents =
      [startByte, periodByte, endByte] := by
    rw [hstate]
    exact hb
  rw [hkeep, hcontents] at hlt
  exact Nat.lt_irrefl _ hlt

end StreamState
end AsciiSerialCom
