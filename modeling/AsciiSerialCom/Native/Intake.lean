import AsciiSerialCom.Native.FdLoop
import AsciiSerialCom.SerialCom.Stream

/-!
# Reading frames in blocks

A native program reads as many bytes at once as its input buffer has room for,
and takes one message out of it in each iteration.  At the full buffer a read
overwrites the front.  That does no harm if the buffer holds no end byte, since
what it holds is then needed by no valid frame.
-/

namespace AsciiSerialCom

open Foundation
open Foundation.Delimited

/-- What a call leaves in a full buffer without an end byte is needed by no valid
frame, so any part of it may be overwritten. -/
theorem validFrames_drop_of_full {l : List UInt8}
    (hle : l.length <= maxMessageLen)
    (hfull : (decode l).2.length = maxMessageLen)
    (hopen : endByte ∉ (decode l).2) (k : Nat) (t : List UInt8) :
    validFrames ((decode l).2.drop k ++ t) =
      validFrames ((decode l).2 ++ t) := by
  have hmax : maxMessageLen = maxDataLen + 8 + 2 := rfl
  have hlen := Nat.le_trans (length_resync_le l) hle
  have hcase := decode_cases l
  generalize resync startByte endByte l = l' at hcase hlen
  generalize (decode l).1 = d at hcase
  generalize (decode l).2 = rest at hcase hfull hopen ⊢
  cases hcase with
  | empty => simp
  | @growing rest hend hstart =>
      rw [List.length_cons] at hfull
      have hrest : validFrames (startByte :: rest ++ t) = validFrames t := by
        rw [← validFrames_append_of_not_mem t hstart]
        exact frames_of_overlong (fun _ _ => length_le_of_parseBody) hend
          (by omega)
      rw [hrest]
      cases k with
      | zero => exact hrest
      | succ k =>
          apply validFrames_append_of_not_mem
          exact fun hmem => hstart (List.mem_of_mem_drop hmem)
  | noPeriod hend hstart hperiod => simp at hlen; omega
  | overlong hend hstart hperiod hlong => simp at hopen
  | short hend hstart hperiod hshort => simp at hopen
  | wrongLength hend hstart hperiod hlong hlength => simp at hlen hfull; omega
  | checked hend hstart hperiod hlong hlength => simp at hlen hfull; omega

/-- Reading without limits keeps what fits, from the back. -/
theorem pushBackAll_eq_of_length {r : RingBuffer maxMessageLen}
    {bytes : List UInt8} (hlen : bytes.length <= r.raw.blockSizeAvailable) :
    BoundedDeque.pushBackAll maxMessageLen r.contents bytes =
      if r.contents.length = maxMessageLen then
        r.contents.drop bytes.length ++ bytes
      else
        r.contents ++ bytes := by
  have hle := r.length_contents_le
  split
  · rename_i hfull
    have hblock := r.blockSizeAvailable_le
    rw [BoundedDeque.pushBackAll_eq_drop (by decide) hle,
      show r.contents.length + bytes.length - maxMessageLen = bytes.length by
        omega, List.drop_append_of_le_length (by omega)]
  · rename_i hnot
    apply BoundedDeque.pushBackAll_of_le
    have hroom : r.raw.size < r.raw.capacity := by
      have hsize : r.contents.length = r.raw.size := r.length_contents
      have hcap := r.capacity_eq
      omega
    have hfree := Pipeline.blockSizeAvailable_le r.wellFormed hroom
    have hsize : r.contents.length = r.raw.size := r.length_contents
    have hcap := r.capacity_eq
    omega

/-- The first valid frames of what has been read have been taken out of the input
buffer; what follows them is still in it. -/
structure Takes (ready : Bool) (inBuf : RingBuffer maxMessageLen)
    (received : List UInt8) (taken : List Message) : Prop where
  frames : forall t, validFrames (received ++ t) =
    taken ++ validFrames (inBuf.contents ++ t)
  spare : ready = true -> inBuf.contents.length = maxMessageLen ->
    endByte ∉ inBuf.contents -> forall k t,
      validFrames (inBuf.contents.drop k ++ t) =
        validFrames (inBuf.contents ++ t)

/-- Nothing is read into a full buffer in which an end byte waits. -/
def ReadsAhead (inBuf : RingBuffer maxMessageLen) (bytes : List UInt8) : Prop :=
  inBuf.contents.length = maxMessageLen -> endByte ∈ inBuf.contents ->
    bytes = []

instance (inBuf : RingBuffer maxMessageLen) (bytes : List UInt8) :
    Decidable (ReadsAhead inBuf bytes) :=
  inferInstanceAs (Decidable (_ -> _ -> _))

namespace Takes

variable {ready : Bool} {inBuf b : RingBuffer maxMessageLen}
  {received bytes : List UInt8} {taken : List Message}

theorem start (hempty : inBuf.contents = []) : Takes ready inBuf [] [] := by
  refine ⟨?_, ?_⟩
  · intro t
    rw [hempty]
    rfl
  · intro _ hfull
    rw [hempty] at hfull
    cases hfull

theorem frames_eq (h : Takes ready inBuf received taken) :
    validFrames received = taken ++ validFrames inBuf.contents := by
  have hframes := h.frames []
  rwa [List.append_nil, List.append_nil] at hframes

theorem read (h : Takes true inBuf received taken)
    (hlen : bytes.length <= inBuf.raw.blockSizeAvailable)
    (hreads : ReadsAhead inBuf bytes)
    (hb : b.contents = BoundedDeque.pushBackAll maxMessageLen inBuf.contents
      bytes) : Takes false b (received ++ bytes) taken := by
  refine ⟨?_, fun hready => by cases hready⟩
  intro t
  rw [List.append_assoc, h.frames, hb, pushBackAll_eq_of_length hlen]
  congr 1
  split
  · rename_i hfull
    by_cases hend : endByte ∈ inBuf.contents
    · rw [hreads hfull hend, List.length_nil, List.drop_zero,
        List.append_nil, List.nil_append]
    · rw [List.append_assoc, h.spare rfl hfull hend]
  · rw [List.append_assoc]

/-- A call takes out the message that it reports, if any. -/
theorem decode (h : Takes ready inBuf received taken)
    (hb : b.contents = (decode inBuf.contents).2) :
    Takes true b received
      (taken ++ (AsciiSerialCom.decode inBuf.contents).1.reported) := by
  refine ⟨?_, ?_⟩
  · intro t
    rw [hb, h.frames, validFrames_decode, List.append_assoc]
  · intro _ hfull hend k t
    have hle := inBuf.length_contents_le
    rw [hb] at hfull hend ⊢
    exact validFrames_drop_of_full hle hfull hend k t

end Takes
end AsciiSerialCom
