import AsciiSerialCom.Foundation.Runs
import AsciiSerialCom.SerialCom.Encode

/-!
# The output queue

Messages are put into the output buffer while a transmitter drains it byte by
byte.  Whether what the transmitter sees is the frames of the messages hinges on
one thing: where in the memory the backlog ends when the next message is put.
-/

namespace AsciiSerialCom

open Foundation
open Foundation.StateError
open Foundation.Run

/-!
## What the checksum computation reads
-/

/-- The offsets that the loop of `circular_buffer_find_last_uint8` reads from
`iElement` on. -/
def findLastReads (value : UInt8) (circBuf : CircularBufferUint8) :
    (iElement : Nat) -> List Nat
  | 0 => []
  | iElement + 1 =>
      let offset := (circBuf.iStart + iElement) &&& (circBuf.capacity - 1)
      match circBuf.getElement iElement with
      | .error _ => []
      | .ok iValue =>
          if iValue = value then
            [offset]
          else
            offset :: findLastReads value circBuf iElement

/-- The offsets that `ascii_serial_com_compute_checksum` reads from an output
buffer: in its two searches, and then in the blocks. -/
inductive ReadForChecksum (buf : RingBuffer maxMessageLen) : Nat -> Prop where
  | start {offset : Nat}
      (h : offset ∈ findLastReads startByte buf.raw buf.raw.size) :
      ReadForChecksum buf offset
  | stop {offset : Nat}
      (h : offset ∈ findLastReads periodByte buf.raw buf.raw.size) :
      ReadForChecksum buf offset
  | block {blocks : List (Nat × Nat)} {block : Nat × Nat} {i : Nat}
      (hblocks : checksumBlocks true buf = .ok blocks)
      (hblock : block ∈ blocks) (hi : i < block.2) :
      ReadForChecksum buf (block.1 + i)

section Reads

variable {circBuf : CircularBufferUint8} {front back : List UInt8} {v : UInt8}

/-- A search that finds its value stays behind it. -/
theorem exists_of_mem_findLastReads (h : circBuf.WellFormed)
    (hc : circBuf.contents = front ++ v :: back) {iElement offset : Nat}
    (hi : front.length < iElement)
    (hmem : offset ∈ findLastReads v circBuf iElement) :
    exists j, front.length <= j ∧ j < iElement ∧
      offset = (circBuf.iStart + j) % circBuf.capacity := by
  induction iElement with
  | zero => exact absurd hi (Nat.not_lt_zero _)
  | succ i ih =>
      have hhere : offset = (circBuf.iStart + i) &&& (circBuf.capacity - 1) ->
          exists j, front.length <= j ∧ j < i + 1 ∧
            offset = (circBuf.iStart + j) % circBuf.capacity := by
        intro heq
        refine ⟨i, Nat.le_of_lt_succ hi, Nat.lt_succ_self i, ?_⟩
        rw [heq, h.and_mask]
      simp only [findLastReads] at hmem
      rcases Nat.eq_or_lt_of_le (Nat.le_of_lt_succ hi) with heq | hlt
      · have hget : circBuf.getElement i = .ok v :=
          heq ▸ CircularBufferUint8.getElement_of_split h hc
        rw [hget] at hmem
        simp only [if_true, List.mem_singleton] at hmem
        exact hhere hmem
      · cases hget : circBuf.getElement i with
        | error e =>
            rw [hget] at hmem
            cases hmem
        | ok x =>
            rw [hget] at hmem
            simp only at hmem
            split at hmem
            · exact hhere (List.mem_singleton.mp hmem)
            · rcases List.mem_cons.mp hmem with heq | hrest
              · exact hhere heq
              · rcases ih hlt hrest with ⟨j, hle, hj, heq⟩
                exact ⟨j, hle, Nat.lt_succ_of_lt hj, heq⟩

/-- The blocks of a range that starts before the end of the memory cover cells
of the range only. -/
theorem exists_of_mem_getBlocks (h : circBuf.WellFormed)
    (hcap : circBuf.capacity <= 2 ^ 63) {s n : Nat}
    (hrange : s + n <= circBuf.size)
    (hstart : circBuf.iStart + s <= circBuf.capacity)
    {blocks : List (Nat × Nat)} {block : Nat × Nat} {i : Nat}
    (hblocks : circBuf.getBlocks s n = .ok blocks) (hblock : block ∈ blocks)
    (hi : i < block.2) :
    exists j, s <= j ∧ j < s + n ∧
      block.1 + i = (circBuf.iStart + j) % circBuf.capacity := by
  have hle := h.size_le
  have hlt := h.iStart_lt
  rw [CircularBufferUint8.getBlocks_of_le h hcap hrange hstart] at hblocks
  -- the cell `i` of a block that starts at element `s + k`
  have hcell (k : Nat) (hk : k + i < n)
      (hfit : circBuf.iStart + (s + (k + i)) < circBuf.capacity) :
      exists j, s <= j ∧ j < s + n ∧
        circBuf.iStart + (s + (k + i)) =
          (circBuf.iStart + j) % circBuf.capacity :=
    ⟨s + (k + i), by omega, by omega, (Nat.mod_eq_of_lt hfit).symm⟩
  split at hblocks
  · injection hblocks with hblocks
    subst hblocks
    rcases List.mem_cons.mp hblock with rfl | hblock
    · simp only at hi ⊢
      rcases hcell 0 (by omega) (by omega) with ⟨j, hj, hjn, heq⟩
      exact ⟨j, hj, hjn, by omega⟩
    · rw [List.mem_singleton.mp hblock] at hi ⊢
      simp only at hi ⊢
      -- the second block is behind the end of the memory
      refine ⟨circBuf.capacity - circBuf.iStart + i, by omega, by omega, ?_⟩
      rw [show circBuf.iStart + (circBuf.capacity - circBuf.iStart + i) =
        i + circBuf.capacity by omega, Nat.add_mod_right,
        Nat.mod_eq_of_lt (by omega), Nat.zero_add]
  · injection hblocks with hblocks
    subst hblocks
    rw [List.mem_singleton.mp hblock] at hi ⊢
    simp only at hi ⊢
    by_cases hend : circBuf.iStart + s + i < circBuf.capacity
    · rcases hcell 0 (by omega) (by omega) with ⟨j, hj, hjn, heq⟩
      exact ⟨j, hj, hjn, by omega⟩
    · omega

end Reads

namespace Asc

variable {asc : Asc} {m : Message}

/-- The offset belongs to a byte of the frame of `m` behind the backlog. -/
def FrameCell (asc : Asc) (m : Message) (offset : Nat) : Prop :=
  exists i, i < m.frame.length ∧
    offset = (asc.outBuf.raw.iStart + (asc.outBuf.contents.length + i)) %
      maxMessageLen

/-- **The checksum is computed from the new frame only**, as long as the backlog
does not wrap. -/
theorem frameCell_of_readForChecksum (hstart : startByte ∉ m.fields)
    (hroom : asc.HasRoom m.data.length) (hunwrapped : asc.Unwrapped)
    {offset : Nat} (h : ReadForChecksum (asc.beforeChecksum m) offset) :
    asc.FrameCell m offset := by
  have hmax : maxMessageLen = 64 := rfl
  rcases beforeChecksum_of_hasRoom hroom with ⟨hbefore, hfront⟩
  have hsize : (asc.beforeChecksum m).raw.size =
      asc.outBuf.contents.length + (m.fields.length + 2) := by
    have hlen : (asc.beforeChecksum m).contents.length =
        (asc.beforeChecksum m).raw.size :=
      (asc.beforeChecksum m).length_contents
    rw [← hlen, hbefore, List.length_append, m.region_length, m.fields_length]
  -- every cell of the region is one of the frame
  have hcell : (exists j, asc.outBuf.contents.length <= j ∧
      j < (asc.beforeChecksum m).raw.size ∧
      offset = ((asc.beforeChecksum m).raw.iStart + j) %
        (asc.beforeChecksum m).raw.capacity) -> asc.FrameCell m offset := by
    rintro ⟨j, hle, hlt, heq⟩
    refine ⟨j - asc.outBuf.contents.length, ?_, ?_⟩
    · rw [m.frame_length]
      rw [hsize, m.fields_length] at hlt
      omega
    · rw [heq, hfront, (asc.beforeChecksum m).capacity_eq,
        Nat.add_sub_cancel' hle]
  have hsplit : (asc.beforeChecksum m).contents =
      asc.outBuf.contents ++ startByte :: (m.fields ++ [periodByte]) := hbefore
  cases h with
  | start h =>
      exact hcell (exists_of_mem_findLastReads
        (asc.beforeChecksum m).wellFormed hsplit (by omega) h)
  | stop h =>
      have hperiod : (asc.beforeChecksum m).raw.contents =
          (asc.outBuf.contents ++ startByte :: m.fields) ++
            periodByte :: [] := by
        have hraw : (asc.beforeChecksum m).raw.contents = _ := hsplit
        rw [hraw]
        simp
      have hlength : (asc.outBuf.contents ++ startByte :: m.fields).length =
          asc.outBuf.contents.length + (m.fields.length + 1) := by
        rw [List.length_append, List.length_cons]
      rcases exists_of_mem_findLastReads (asc.beforeChecksum m).wellFormed
        hperiod (by rw [hlength]; omega) h with ⟨j, hle, hlt, heq⟩
      exact hcell ⟨j, by rw [hlength] at hle; omega, hlt, heq⟩
  | @block blocks block i hblocks hblock hi =>
      rw [HasRoom] at hroom
      have hfields := m.fields_length
      rw [checksumBlocks_out hsplit hstart (by omega),
        if_pos (by omega)] at hblocks
      rcases exists_of_mem_getBlocks (asc.beforeChecksum m).wellFormed
        (capacity_le_sizeModulus _)
        (Nat.le_of_eq hsize.symm)
        (by
          rw [hfront, (asc.beforeChecksum m).capacity_eq]
          exact hunwrapped)
        hblocks hblock hi with ⟨j, hle, hlt, heq⟩
      exact hcell ⟨j, hle, hsize ▸ hlt, heq⟩

end Asc

/-!
## Putting and draining
-/

/-- A call that puts a message in the output buffer. -/
inductive Put where
  /-- `ascii_serial_com_put_message_in_output_buffer` -/
  | message (ascVersion appVersion command : UInt8) (data : Memory UInt8)
      (dataLen : Nat)
  /-- `ascii_serial_com_put_s_message_in_output_buffer` -/
  | sMessage (ascVersion appVersion : UInt8) (data : Memory UInt8)
      (dataLen : Nat)
  /-- `ascii_serial_com_put_error_in_output_buffer` -/
  | error (ascVersion appVersion command : UInt8) (data : Memory UInt8)
      (dataLen : Nat) (errorCode : AscException)

namespace Put

/-- Run the call. -/
def run : Put -> AscM Unit
  | message ascVersion appVersion command data dataLen =>
      Asc.putMessage ascVersion appVersion command data dataLen
  | sMessage ascVersion appVersion data dataLen =>
      Asc.putSMessage ascVersion appVersion data dataLen
  | error ascVersion appVersion command data dataLen errorCode =>
      Asc.putError ascVersion appVersion command data dataLen errorCode

/-- The message the call is to frame. -/
def framed : Put -> Asc -> Message
  | message ascVersion appVersion command data dataLen, _ =>
      Asc.messageOf ascVersion appVersion command data dataLen
  | sMessage ascVersion appVersion data dataLen, asc =>
      Asc.streamMessage ascVersion appVersion asc.sendStreamFrameCounter
        (Memory.slice data 0 dataLen)
  | error ascVersion appVersion command data dataLen errorCode, _ =>
      Asc.errorMessage ascVersion appVersion command
        (Memory.slice data 0 dataLen) errorCode

/-- The call gets more data than its frame can take. -/
def TooLong : Put -> Prop
  | message _ _ _ _ dataLen => maxDataLen < dataLen
  | sMessage _ _ _ dataLen => maxSPayloadLen < dataLen
  | error _ _ _ _ _ _ => False

instance (call : Put) : Decidable call.TooLong :=
  match call with
  | message _ _ _ _ dataLen => inferInstanceAs (Decidable (maxDataLen < dataLen))
  | sMessage _ _ _ dataLen =>
      inferInstanceAs (Decidable (maxSPayloadLen < dataLen))
  | error _ _ _ _ _ _ => inferInstanceAs (Decidable False)

/-- The frame counter, once the call has counted its frame. -/
def counted : Put -> Asc -> UInt8
  | sMessage _ _ _ _, asc => asc.sendStreamFrameCounter + 1
  | message _ _ _ _ _, asc => asc.sendStreamFrameCounter
  | error _ _ _ _ _ _, asc => asc.sendStreamFrameCounter

theorem framed_length_le_iff (call : Put) (asc : Asc) :
    (call.framed asc).data.length <= maxDataLen <-> ¬ call.TooLong := by
  cases call with
  | message ascVersion appVersion command data dataLen =>
      simp [framed, TooLong, Asc.messageOf]
  | sMessage ascVersion appVersion data dataLen =>
      have hmax : maxDataLen = maxSPayloadLen + 3 := rfl
      simp [framed, TooLong, Asc.streamMessage, hmax]
      omega
  | error ascVersion appVersion command data dataLen errorCode =>
      have hmax : errorMessageMaxCopyDataLen + 5 <= maxDataLen := by decide
      simp [framed, TooLong, Asc.errorMessage]
      omega

/-- Unless it gets too much data, every call comes down to putting its
message. -/
theorem run_eq {call : Put} (h : ¬ call.TooLong) (asc : Asc) :
    exists asc₀ ascVersion appVersion command data dataLen,
      asc₀.outBuf = asc.outBuf ∧
        asc₀.sendStreamFrameCounter = call.counted asc ∧
        Asc.messageOf ascVersion appVersion command data dataLen =
          call.framed asc ∧
        call.run asc =
          Asc.putMessage ascVersion appVersion command data dataLen asc₀ := by
  cases call with
  | message ascVersion appVersion command data dataLen =>
      exact ⟨asc, ascVersion, appVersion, command, data, dataLen, rfl, rfl, rfl,
        rfl⟩
  | sMessage ascVersion appVersion data dataLen =>
      rcases Asc.putSMessage_eq ascVersion appVersion data (Nat.not_lt.mp h)
        asc with ⟨outData, hm, hrun⟩
      exact ⟨{ asc with
          sendStreamFrameCounter := asc.sendStreamFrameCounter + 1 },
        ascVersion, appVersion, _, outData, dataLen + 3, rfl, rfl, hm, hrun⟩
  | error ascVersion appVersion command data dataLen errorCode =>
      rcases Asc.putError_eq ascVersion appVersion command data dataLen
        errorCode asc with ⟨outData, copied, hm, hrun⟩
      exact ⟨asc, ascVersion, appVersion, _, outData, copied, rfl, rfl, hm,
        hrun⟩

theorem not_tooLong_of_hasRoom {call : Put} {asc : Asc}
    (hroom : asc.HasRoom (call.framed asc).data.length) : ¬ call.TooLong :=
  (call.framed_length_le_iff asc).mp (Asc.length_le_of_hasRoom hroom)

end Put

/-- One event at the output buffer. -/
inductive OutputOp where
  | put (call : Put)
  /-- `circular_buffer_pop_front_uint8` on the output buffer -/
  | pop

/-- An interface, the bytes drained and the messages put so far. -/
structure OutputState where
  asc : Asc
  popped : List UInt8
  messages : List Message

namespace OutputState

/-- After `ascii_serial_com_init`. -/
def start : OutputState :=
  { asc := Asc.init
    popped := []
    messages := [] }

def step (s : OutputState) : OutputOp -> OutputState
  | .put call =>
      { s with
        asc := Result.state (call.run s.asc)
        messages := s.messages ++ [call.framed s.asc] }
  | .pop =>
      match s.asc.outBuf.popFront with
      | .ok b buf =>
          { s with
            asc := { s.asc with outBuf := buf }
            popped := s.popped ++ [b] }
      | .error _ buf => { s with asc := { s.asc with outBuf := buf } }

/-- What the callers promise: room for the whole frame, and no byte in it that is
taken for a delimiter. -/
def Admits (s : OutputState) : OutputOp -> Prop
  | .put call =>
      s.asc.HasRoom (call.framed s.asc).data.length ∧
        forall b, b ∈ (call.framed s.asc).fields -> ¬ Reserved b
  | .pop => True

instance : (s : OutputState) -> (op : OutputOp) -> Decidable (s.Admits op)
  | _, .put _ => inferInstanceAs (Decidable (_ ∧ _))
  | _, .pop => inferInstanceAs (Decidable True)

/-- The call returns, and its checksum is computed from its own frame. -/
def Sound (s : OutputState) : OutputOp -> Prop
  | .put call =>
      (exists asc, call.run s.asc = .ok () asc) ∧
        forall offset,
          ReadForChecksum (s.asc.beforeChecksum (call.framed s.asc)) offset ->
            s.asc.FrameCell (call.framed s.asc) offset
  | .pop => True

/-- What was drained and what is queued is the frames of the messages. -/
def Delivered (s : OutputState) : Prop :=
  s.popped ++ s.asc.outBuf.contents = framesOf s.messages

/-- The step is sound and leaves the frames in order. -/
def Correct (s : OutputState) (op : OutputOp) : Prop :=
  s.Sound op ∧ (s.step op).Delivered

/-- A message is put behind a backlog that does not reach around the end of the
memory. -/
def BacklogUnwrapped (s : OutputState) : OutputOp -> Prop
  | .put _ => s.asc.Unwrapped
  | .pop => True

instance : (s : OutputState) -> (op : OutputOp) ->
    Decidable (s.BacklogUnwrapped op)
  | s, .put _ => inferInstanceAs (Decidable s.asc.Unwrapped)
  | _, .pop => inferInstanceAs (Decidable True)

variable {s : OutputState}

theorem delivered_pop (h : s.Delivered) : (s.step .pop).Delivered := by
  rw [Delivered] at h
  cases hc : s.asc.outBuf.contents with
  | nil =>
      rcases RingBuffer.popFront_of_nil hc with ⟨buf, hrun, hraw⟩
      rw [Delivered]
      simp only [step, hrun]
      rw [RingBuffer.contents, hraw]
      exact h
  | cons b rest =>
      rcases RingBuffer.popFront_of_cons hc with ⟨buf, hrun, hrest⟩
      rw [Delivered]
      simp only [step, hrun]
      rw [hrest, List.append_assoc, List.singleton_append, ← hc]
      exact h

theorem startByte_not_mem_of_admits {call : Put} (h : s.Admits (.put call)) :
    startByte ∉ (call.framed s.asc).fields :=
  fun hmem => h.right _ hmem (Or.inl rfl)

theorem correct_put_of_unwrapped {call : Put} (h : s.Delivered)
    (hadmits : s.Admits (.put call)) (hunwrapped : s.asc.Unwrapped) :
    s.Correct (.put call) := by
  have hstart := startByte_not_mem_of_admits hadmits
  rcases Put.run_eq (Put.not_tooLong_of_hasRoom hadmits.left) s.asc with
    ⟨asc₀, ascVersion, appVersion, command, data, dataLen, hout, -, hm, hrun⟩
  have hroom : asc₀.HasRoom dataLen := by
    rw [Asc.HasRoom, hout, ← Asc.messageOf_data_length hm]
    exact hadmits.left
  have hunwrapped₀ : asc₀.Unwrapped := by
    rw [Asc.Unwrapped, hout]
    exact hunwrapped
  rcases Asc.putMessage_of_unwrapped hm hstart hroom hunwrapped₀ with
    ⟨out, hput, hcontents, -⟩
  rw [← hrun] at hput
  refine ⟨⟨⟨_, hput⟩, fun offset =>
    Asc.frameCell_of_readForChecksum hstart hadmits.left hunwrapped⟩, ?_⟩
  rw [Delivered] at h ⊢
  simp only [step, hput, Result.state_ok, hcontents, hout]
  rw [← List.append_assoc, h, framesOf_append, framesOf_singleton]

/-- A call behind a wrapped backlog reads outside the memory. -/
theorem not_sound_of_wrapped {call : Put} (hadmits : s.Admits (.put call))
    (hwrapped : ¬ s.asc.Unwrapped) : ¬ s.Sound (.put call) := by
  have hstart := startByte_not_mem_of_admits hadmits
  rcases Put.run_eq (Put.not_tooLong_of_hasRoom hadmits.left) s.asc with
    ⟨asc₀, ascVersion, appVersion, command, data, dataLen, hout, -, hm, hrun⟩
  have hroom : asc₀.HasRoom dataLen := by
    rw [Asc.HasRoom, hout, ← Asc.messageOf_data_length hm]
    exact hadmits.left
  have hwrapped₀ : ¬ asc₀.Unwrapped := by
    rw [Asc.Unwrapped, hout]
    exact hwrapped
  rintro ⟨⟨asc, hok⟩, -⟩
  rw [hrun, Asc.putMessage_of_wrapped hm hstart hroom hwrapped₀] at hok
  cases hok

theorem correct_step_iff {op : OutputOp} (h : s.Delivered)
    (hadmits : s.Admits op) : s.Correct op <-> s.BacklogUnwrapped op := by
  cases op with
  | put call =>
      constructor
      · intro hcorrect
        by_contra hwrapped
        exact not_sound_of_wrapped hadmits hwrapped hcorrect.left
      · exact correct_put_of_unwrapped h hadmits
  | pop => exact iff_of_true ⟨trivial, delivered_pop h⟩ trivial

theorem allowed_correct_iff (h : s.Delivered) {ops : List OutputOp}
    (hadmits : Allowed step Admits s ops) :
    Allowed step Correct s ops <-> Allowed step BacklogUnwrapped s ops := by
  apply Allowed.congr _ _ hadmits h
  · intro s op h hadmitted
    exact correct_step_iff h hadmitted
  · intro s op h hadmitted hunwrapped
    exact ((correct_step_iff h hadmitted).mpr hunwrapped).right

theorem delivered_start : start.Delivered := rfl

/-- **The output queue is correct exactly when no message is put behind a wrapped
backlog.** -/
theorem correct_iff_backlogUnwrapped {ops : List OutputOp}
    (hadmits : Allowed step Admits start ops) :
    Allowed step Correct start ops <->
      Allowed step BacklogUnwrapped start ops :=
  allowed_correct_iff delivered_start hadmits

/-- One frame that fills the buffer, drained but for its last byte, and two short
frames behind it. -/
def wrappingOps : List OutputOp :=
  let put (dataLen : Nat) : OutputOp :=
    .put (.message '0'.toUInt8 '0'.toUInt8 'z'.toUInt8
      (fun _ => 'A'.toUInt8) dataLen)
  put 54 :: (List.replicate 63 .pop ++ [put 0, put 0])

/-- The first of the short frames is put behind a byte that waits. -/
theorem correct_iff_backlogUnwrapped_of_oneByte :
    Allowed step Correct start wrappingOps.dropLast <->
      Allowed step BacklogUnwrapped start wrappingOps.dropLast :=
  correct_iff_backlogUnwrapped (by decide +kernel)

/-- The second of the short frames is put behind a wrapped backlog. -/
theorem not_correct_of_wrappingOps :
    ¬ forall ops, Allowed step Admits start ops ->
      Allowed step Correct start ops := by
  intro h
  have hadmits : Allowed step Admits start wrappingOps := by decide +kernel
  have hwrapped : ¬ Allowed step BacklogUnwrapped start wrappingOps := by
    decide +kernel
  exact hwrapped
    ((allowed_correct_iff delivered_start hadmits).mp (h _ hadmits))

end OutputState
end AsciiSerialCom
