import AsciiSerialCom.SerialCom.Output

/-!
# Failed sends

The sending functions push a frame up to its period before they compute the
checksum, and the computation can throw.  This module says for which messages
and backlogs it does, and so when a failed call leaves everything as it was.
-/

namespace AsciiSerialCom

open Foundation
open Foundation.StateError
open Foundation.Delimited
open Crc

namespace Asc

/-!
## When the checksum is refused
-/

/-- The checksum computation throws once the message's region is pushed: the
buffer is too full for the rest of the frame, or a byte right before the period
is taken for the start of the frame. -/
def ChecksumRefused (asc : Asc) (m : Message) : Prop :=
  maxMessageLen - nCharChecksum <=
      asc.outBuf.contents.length + m.region.length ∨
    startByte ∈ m.fields.drop m.data.length

instance (asc : Asc) (m : Message) : Decidable (asc.ChecksumRefused m) :=
  inferInstanceAs (Decidable (_ ∨ _))

/-- The buffer is full, and overwriting its front with the message's region
gives the same contents again. -/
def Echoes (asc : Asc) (m : Message) : Prop :=
  asc.outBuf.contents.length = maxMessageLen ∧
    asc.outBuf.contents <:+ asc.outBuf.contents ++ m.region

instance (asc : Asc) (m : Message) : Decidable (asc.Echoes m) :=
  inferInstanceAs (Decidable (_ ∧ _))

variable {asc : Asc} {m : Message}

theorem region_length_le (hlen : m.data.length <= maxDataLen) :
    m.region.length <= maxMessageLen := by
  have hmax : maxMessageLen = maxDataLen + 10 := rfl
  rw [m.region_length]
  omega

/-- The region overwrites the front of the backlog, if need be. -/
theorem beforeChecksum_contents (asc : Asc)
    (hlen : m.data.length <= maxDataLen) :
    (asc.beforeChecksum m).contents =
      asc.outBuf.contents.drop
        (asc.outBuf.contents.length + m.region.length - maxMessageLen) ++
      m.region := by
  have hregion := region_length_le hlen
  rw [beforeChecksum, RingBuffer.contents_pushBackBlock,
    BoundedDeque.pushBackAll_eq_drop (by decide) asc.outBuf.length_contents_le,
    List.drop_append_of_le_length (by omega)]

theorem beforeChecksum_contents_eq_iff (hlen : m.data.length <= maxDataLen) :
    (asc.beforeChecksum m).contents = asc.outBuf.contents <->
      asc.Echoes m := by
  have hle := asc.outBuf.length_contents_le
  have hregion := region_length_le hlen
  have hpos := m.region_length
  have hcontents := beforeChecksum_contents asc hlen
  constructor
  · intro heq
    have hfull : asc.outBuf.contents.length = maxMessageLen := by
      have hsize := congrArg List.length (hcontents.symm.trans heq)
      rw [List.length_append, List.length_drop] at hsize
      omega
    refine ⟨hfull, ?_⟩
    nth_rewrite 1 [← heq]
    rw [hcontents]
    rcases List.drop_suffix (asc.outBuf.contents.length + m.region.length -
      maxMessageLen) asc.outBuf.contents with ⟨front, hfront⟩
    exact ⟨front, by rw [← List.append_assoc, hfront]⟩
  · rintro ⟨hfull, hsuffix⟩
    have hdrop := List.suffix_iff_eq_drop.mp hsuffix
    rw [List.length_append, Nat.add_sub_cancel_left,
      List.drop_append_of_le_length (by omega)] at hdrop
    rw [hcontents, hfull, Nat.add_sub_cancel_left]
    exact hdrop.symm

/-- The last start byte of a region, and whether it stands too close to the
period. -/
theorem exists_last_start (m : Message) :
    exists a b, startByte :: m.fields = a ++ startByte :: b ∧ startByte ∉ b ∧
      (b.length < 3 <-> startByte ∈ m.fields.drop m.data.length) := by
  rcases not_mem_or_split_last startByte (startByte :: m.fields) with
    hnot | ⟨a, b, hsplit, hb⟩
  · exact absurd List.mem_cons_self hnot
  refine ⟨a, b, hsplit, hb, ?_⟩
  have hlength := congrArg List.length hsplit
  rw [List.length_cons, m.fields_length, List.length_append,
    List.length_cons] at hlength
  have hdrop : m.fields.drop m.data.length =
      (a ++ startByte :: b).drop (m.data.length + 1) := by
    rw [← hsplit, List.drop_succ_cons]
  rw [hdrop]
  constructor
  · intro hshort
    rw [List.drop_append_of_le_length (by omega)]
    simp
  · intro hmem
    by_contra hlong
    rw [List.append_cons, List.drop_append, List.mem_append,
      List.drop_of_length_le (by simp; omega)] at hmem
    cases hmem with
    | inl h => cases h
    | inr h => exact hb (List.mem_of_mem_drop h)

/-- What the checksum computation can come to, whatever is queued: it throws for
want of room or for the period's place, or it does not throw. -/
theorem computeChecksum_cases (asc : Asc) (hlen : m.data.length <= maxDataLen) :
    (asc.ChecksumRefused m ∧
      (computeChecksum true (asc.beforeChecksum m) =
          .error (.exception .checksumProblem) ∨
        computeChecksum true (asc.beforeChecksum m) =
          .error (.exception .invalidFramePeriod))) ∨
    (¬ asc.ChecksumRefused m ∧
      ((exists checksum,
          computeChecksum true (asc.beforeChecksum m) = .ok checksum) ∨
        computeChecksum true (asc.beforeChecksum m) = .error .outOfBounds)) := by
  have hmax : maxMessageLen = 64 := rfl
  have hregion := region_length_le hlen
  have hle := asc.outBuf.length_contents_le
  rcases exists_last_start m with ⟨a, b, hsplit, hb, hshort⟩
  have hlength := congrArg List.length hsplit
  rw [List.length_cons, m.fields_length, List.length_append,
    List.length_cons] at hlength
  rw [m.region_length] at hregion
  have hcontents := beforeChecksum_contents asc hlen
  generalize hkept : asc.outBuf.contents.drop
    (asc.outBuf.contents.length + m.region.length - maxMessageLen) = kept
    at hcontents
  have hkeptLength := congrArg List.length hkept
  rw [List.length_drop, m.region_length] at hkeptLength
  have hc : (asc.beforeChecksum m).contents =
      (kept ++ a) ++ startByte :: (b ++ [periodByte]) := by
    rw [hcontents, Message.region, ← List.cons_append, hsplit]
    simp
  have hblocks := checksumBlocks_last hc hb
  have hroom : maxMessageLen - nCharChecksum <=
      asc.outBuf.contents.length + m.region.length <->
      ¬ (kept ++ a).length + b.length + 1 < 59 := by
    have hchars : nCharChecksum = 4 := rfl
    rw [m.region_length, List.length_append]
    omega
  rw [ChecksumRefused, hroom, ← hshort]
  by_cases hfull : (kept ++ a).length + b.length + 1 < 59
  · rw [if_pos hfull] at hblocks
    by_cases hclose : b.length < 3
    · rw [if_pos hclose] at hblocks
      exact Or.inl ⟨Or.inr hclose, Or.inr (computeChecksum_of_error hblocks)⟩
    · have hheader := Nat.not_lt.mp hclose
      refine Or.inr ⟨fun h => h.elim (not_not_intro hfull) hclose, ?_⟩
      -- a region is read exactly, or from outside the memory
      by_cases hwrap : (asc.beforeChecksum m).raw.iStart + (kept ++ a).length <=
          maxMessageLen
      · exact Or.inl ⟨_, computeChecksum_out hc hb hheader hfull hwrap⟩
      · exact Or.inr (computeChecksum_out_of_wrapped hc hb hheader hfull
          (Nat.not_le.mp hwrap))
  · rw [if_neg hfull] at hblocks
    exact Or.inl ⟨Or.inl hfull, Or.inl (computeChecksum_of_error hblocks)⟩

/-- **When the checksum computation throws**, whatever is queued. -/
theorem computeChecksum_throws_iff (asc : Asc)
    (hlen : m.data.length <= maxDataLen) :
    (exists e, computeChecksum true (asc.beforeChecksum m) =
      .error (.exception e)) <-> asc.ChecksumRefused m := by
  rcases computeChecksum_cases asc hlen with
    ⟨hrefused, h | h⟩ | ⟨hnot, ⟨checksum, h⟩ | h⟩
  · exact iff_of_true ⟨_, h⟩ hrefused
  · exact iff_of_true ⟨_, h⟩ hrefused
  · simp [h, hnot]
  · simp [h, hnot]

end Asc

/-!
## When a failed call changes nothing
-/

namespace Put

/-- If the call throws, it leaves what is queued and the frame counter as they
were. -/
def Atomic (call : Put) (asc : Asc) : Prop :=
  forall e, Result.outcome (call.run asc) = .error (.exception e) ->
    (Result.state (call.run asc)).outBuf.contents = asc.outBuf.contents ∧
      (Result.state (call.run asc)).sendStreamFrameCounter =
        asc.sendStreamFrameCounter

/-- The call counts a frame. -/
def Streams : Put -> Prop
  | sMessage _ _ _ _ => True
  | message _ _ _ _ _ => False
  | error _ _ _ _ _ _ => False

theorem counted_eq_iff (call : Put) (asc : Asc) :
    call.counted asc = asc.sendStreamFrameCounter <-> ¬ call.Streams := by
  cases call with
  | message ascVersion appVersion command data dataLen =>
      exact iff_of_true rfl id
  | sMessage ascVersion appVersion data dataLen =>
      refine iff_of_false ?_ (not_not_intro trivial)
      intro h
      exact absurd (add_eq_left.mp h) (by decide)
  | error ascVersion appVersion command data dataLen errorCode =>
      exact iff_of_true rfl id

/-- The call gets too much data, or its checksum is not refused, or it counts no
frame and the buffer echoes what was overwritten. -/
def FailsClean (call : Put) (asc : Asc) : Prop :=
  call.TooLong ∨ ¬ asc.ChecksumRefused (call.framed asc) ∨
    (¬ call.Streams ∧ asc.Echoes (call.framed asc))

theorem run_tooLong {call : Put} (h : call.TooLong) (asc : Asc) :
    call.run asc = .error (.exception .dataTooLong) asc := by
  cases call with
  | message ascVersion appVersion command data dataLen =>
      exact Asc.putMessage_too_long h asc
  | sMessage ascVersion appVersion data dataLen =>
      exact Asc.putSMessage_too_long h asc
  | error ascVersion appVersion command data dataLen errorCode => cases h

/-- **A failed send changes nothing** exactly when it fails before it pushes, or
does not fail, or overwrites a full buffer with what was in it. -/
theorem atomic_iff_failsClean (call : Put) (asc : Asc) :
    call.Atomic asc <-> call.FailsClean asc := by
  by_cases hlong : call.TooLong
  · refine iff_of_true ?_ (Or.inl hlong)
    intro e _
    rw [run_tooLong hlong, Result.state_error]
    exact ⟨rfl, rfl⟩
  have hlen := (call.framed_length_le_iff asc).mpr hlong
  rcases run_eq hlong asc with
    ⟨asc₀, ascVersion, appVersion, command, data, dataLen, hout, hcounted, hm,
      hrun⟩
  have hlen₀ : dataLen <= maxDataLen := by
    rw [← Asc.messageOf_data_length hm]
    exact hlen
  have hbefore : asc₀.beforeChecksum (call.framed asc) =
      asc.beforeChecksum (call.framed asc) := by
    rw [Asc.beforeChecksum, hout, Asc.beforeChecksum]
  rw [Asc.putMessage_eq hm hlen₀, hbefore] at hrun
  have hthrows := Asc.computeChecksum_throws_iff asc hlen
  rw [FailsClean, or_iff_right hlong, ← hthrows]
  unfold Atomic
  rw [hrun]
  cases hchecksum : computeChecksum true
      (asc.beforeChecksum (call.framed asc)) with
  | ok checksum => simp
  | error e =>
      cases e with
      | outOfBounds => simp
      | exception e =>
          have hthrown : exists e', (Except.error (.exception e) :
              Except Failure (List UInt8)) = .error (.exception e') :=
            ⟨e, rfl⟩
          simp only [Result.outcome_error, Result.state_error]
          rw [Asc.beforeChecksum_contents_eq_iff hlen, hcounted,
            call.counted_eq_iff asc, or_iff_right (not_not_intro hthrown)]
          constructor
          · intro h
            exact (h e rfl).symm
          · intro h _ _
            exact h.symm

/-- A message whose command is taken for the start of its frame. -/
def startCommand : Put :=
  .message '0'.toUInt8 '0'.toUInt8 startByte (fun _ => 0) 0

/-- A frame without its checksum stays queued in an output buffer that was
empty. -/
theorem not_atomic_of_startCommand : ¬ startCommand.Atomic Asc.init := by
  intro h
  have hrun : Result.outcome (startCommand.run Asc.init) =
      .error (.exception .invalidFramePeriod) := rfl
  have hcontents : (Result.state (startCommand.run Asc.init)).outBuf.contents =
      (startCommand.framed Asc.init).region := rfl
  have hkept := hcontents.symm.trans (h _ hrun).left
  revert hkept
  decide

end Put
end AsciiSerialCom
