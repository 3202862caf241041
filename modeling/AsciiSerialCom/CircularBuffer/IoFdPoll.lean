import AsciiSerialCom.CircularBuffer.Pipeline
import AsciiSerialCom.CircularBuffer.Ring

/-!
# Circular buffers on polled file descriptors

The functions of `circular_buffer_io_fd_poll.c`.  The kernel answers each system
call: it reads and writes no more than it is asked for, and reports that it is
ready for output only if asked for that.
-/

namespace AsciiSerialCom

open Foundation
open Foundation.StateError

/-!
## Initialized buffers on file descriptors
-/

namespace RingBuffer

variable {n : Nat}

theorem preserves_pushBackFromFd (readResult : Option (List UInt8)) :
    Preserves (IsRing n) fun buf =>
      CircularBufferUint8.pushBackFromFd
        (readResult.map (List.take buf.blockSizeAvailable)) buf := by
  intro buf ⟨hcap, hwf⟩
  cases readResult with
  | none => exact ⟨hcap, hwf⟩
  | some bytes =>
      have hfits : (bytes.take buf.blockSizeAvailable).length <=
          buf.blockSizeAvailable := List.length_take_le _ _
      simp only [Option.map_some]
      rw [CircularBufferUint8.pushBackFromFd_eq hwf hfits]
      refine ⟨?_, CircularBufferUint8.pushBackBlock_wellFormed hwf _⟩
      exact (CircularBufferUint8.pushBackBlock_capacity buf _).trans hcap

theorem preserves_popFrontToFd (writeResult : Option Nat) :
    Preserves (IsRing n) fun buf =>
      CircularBufferUint8.popFrontToFd
        (writeResult.map (min buf.firstBlockSize)) buf := by
  intro buf ⟨hcap, hwf⟩
  cases writeResult with
  | none => exact ⟨hcap, hwf⟩
  | some nWritten =>
      have hle : min buf.firstBlockSize nWritten <= buf.size :=
        Nat.le_trans (Nat.min_le_left _ _) buf.firstBlockSize_le
      simp only [Option.map_some, CircularBufferUint8.popFrontToFd,
        Result.state_ok]
      refine ⟨?_, CircularBufferUint8.dropFromFirstBlock_wellFormed hwf hle⟩
      rw [CircularBufferUint8.dropFromFirstBlock_capacity]
      exact hcap

/-- `circular_buffer_push_back_from_fd_uint8`, where the descriptor holds these
bytes, or the read fails -/
def pushBackFromFd (readResult : Option (List UInt8)) :
    EStateM Failure (RingBuffer n) Nat :=
  liftRaw _ (preserves_pushBackFromFd readResult)

/-- `circular_buffer_pop_front_to_fd_uint8`, where the descriptor has room for
this many bytes, or the write fails; the result is the bytes written. -/
def popFrontToFd (writeResult : Option Nat) :
    EStateM Failure (RingBuffer n) (List UInt8) :=
  liftRaw _ (preserves_popFrontToFd writeResult)

theorem blockSizeAvailable_le (r : RingBuffer n) :
    r.raw.blockSizeAvailable <= n := by
  have hcap := r.capacity_eq
  have hstart := r.wellFormed.iStart_lt
  unfold CircularBufferUint8.blockSizeAvailable
  split <;> omega

/-- What a read delivers. -/
def delivered (readResult : Option (List UInt8)) (r : RingBuffer n) :
    List UInt8 :=
  (readResult.getD []).take r.raw.blockSizeAvailable

theorem eq_of_raw_eq {r r' : RingBuffer n} (h : r'.raw = r.raw) : r' = r := by
  cases r
  cases r'
  cases h
  rfl

theorem pushBackFromFd_of_some (bytes : List UInt8) (r : RingBuffer n) :
    exists r', pushBackFromFd (some bytes) r =
        .ok (r.delivered (some bytes)).length r' ∧
      r'.contents =
        BoundedDeque.pushBackAll n r.contents (r.delivered (some bytes)) := by
  have hfits : (r.delivered (some bytes)).length <= r.raw.blockSizeAvailable :=
    List.length_take_le _ _
  have hraw : CircularBufferUint8.pushBackFromFd
      ((some bytes).map (List.take r.raw.blockSizeAvailable)) r.raw =
      .ok (r.delivered (some bytes)).length
        (r.raw.pushBackBlock (r.delivered (some bytes))) :=
    CircularBufferUint8.pushBackFromFd_eq r.wellFormed hfits
  have hlift : exists r', pushBackFromFd (some bytes) r =
      .ok (r.delivered (some bytes)).length r' ∧
        r'.raw = r.raw.pushBackBlock (r.delivered (some bytes)) :=
    liftRaw_of_ok hraw
  rcases hlift with ⟨r', hrun, hr'⟩
  refine ⟨r', hrun, ?_⟩
  rw [contents, hr', CircularBufferUint8.pushBackBlock_contents r.wellFormed,
    r.capacity_eq]
  rfl

theorem pushBackFromFd_of_none (r : RingBuffer n) :
    pushBackFromFd none r = .error (.exception .fileRead) r := by
  have hlift : exists r', pushBackFromFd none r =
      .error (.exception .fileRead) r' ∧ r'.raw = r.raw := liftRaw_of_error rfl
  rcases hlift with ⟨r', hrun, hraw⟩
  rw [hrun, eq_of_raw_eq hraw]

/-- A write takes bytes off the front. -/
theorem popFrontToFd_of_some (nWritten : Nat) (r : RingBuffer n) :
    exists (out : List UInt8) (r' : RingBuffer n),
      popFrontToFd (some nWritten) r = .ok out r' ∧
        r.contents = out ++ r'.contents ∧
        out.length = min r.raw.firstBlockSize nWritten := by
  have hblock := r.raw.firstBlockSize_le
  let k := min r.raw.firstBlockSize nWritten
  have hk : k <= r.raw.size := Nat.le_trans (Nat.min_le_left _ _) hblock
  have hlift : exists r', popFrontToFd (some nWritten) r =
      .ok (r.raw.getFirstBlock.take k) r' ∧
        r'.raw = r.raw.dropFromFirstBlock k := liftRaw_of_ok rfl
  rcases hlift with ⟨r', hrun, hraw⟩
  have htake : r.raw.getFirstBlock.take k = r.contents.take k := by
    rw [CircularBufferUint8.getFirstBlock_eq_take r.wellFormed, List.take_take,
      Nat.min_eq_left (Nat.min_le_left _ _)]
    rfl
  have hdrop : r'.contents = r.contents.drop k := by
    rw [contents, hraw,
      CircularBufferUint8.dropFromFirstBlock_contents r.wellFormed hk]
    rfl
  refine ⟨_, r', hrun, ?_, ?_⟩
  · rw [htake, hdrop, List.take_append_drop]
  · rw [htake, List.length_take, length_contents]
    exact Nat.min_eq_left hk

theorem popFrontToFd_of_none (r : RingBuffer n) :
    popFrontToFd none r = .error (.exception .fileWrite) r := by
  have hlift : exists r', popFrontToFd none r =
      .error (.exception .fileWrite) r' ∧ r'.raw = r.raw := liftRaw_of_error rfl
  rcases hlift with ⟨r', hrun, hraw⟩
  rw [hrun, eq_of_raw_eq hraw]

end RingBuffer

/-!
## Polling
-/

/-- The flags that `poll` returns for a descriptor. -/
structure Revents where
  pollin : Bool
  pollout : Bool
  pollerr : Bool
  pollhup : Bool
  pollnval : Bool
  deriving DecidableEq, Repr

namespace Revents

def clear : Revents :=
  { pollin := false
    pollout := false
    pollerr := false
    pollhup := false
    pollnval := false }

/-- The descriptor is in error, hung up or closed. -/
def gone (flags : Revents) : Bool :=
  flags.pollerr || flags.pollhup || flags.pollnval

end Revents

/-- What the kernel answers to the system calls of an iteration. -/
structure Kernel where
  /-- the flags of both descriptors, unless `poll` fails -/
  ready : Option (Revents × Revents)
  /-- the bytes that the input holds, unless `read` fails -/
  readResult : Option (List UInt8)
  /-- the number of bytes that the output has room for, unless `write` fails -/
  writeResult : Option Nat

/-- `circular_buffer_io_fd_poll`; its buffers belong to the program. -/
structure CircularBufferIoFdPoll where
  inflags : Revents
  outflags : Revents
  /-- `POLLOUT` is among the events asked for -/
  outsetPollout : Bool

namespace CircularBufferIoFdPoll

variable {n : Nat}

/-- `circular_buffer_io_fd_poll_init` -/
def init : CircularBufferIoFdPoll :=
  { inflags := .clear
    outflags := .clear
    outsetPollout := false }

/-- `circular_buffer_io_fd_poll_do_poll`: the status and what was polled. -/
def doPoll (inBuf outBuf : RingBuffer n) (ready : Option (Revents × Revents))
    (cbIo : CircularBufferIoFdPoll) : UInt8 × CircularBufferIoFdPoll :=
  let outsetPollout := !outBuf.isEmpty
  match ready with
  | none => (1, { cbIo with outsetPollout := outsetPollout })
  | some (inflags, outflags) =>
      let cbIo :=
        { inflags := inflags
          outflags :=
            { outflags with pollout := outflags.pollout && outsetPollout }
          outsetPollout := outsetPollout }
      if outBuf.isEmpty ∧ inBuf.isEmpty ∧ inflags.gone then
        (1, cbIo)
      else if outflags.gone then
        (1, cbIo)
      else
        (0, cbIo)

/-- `circular_buffer_io_fd_poll_do_input` -/
def doInput (readResult : Option (List UInt8))
    (cbIo : CircularBufferIoFdPoll) : EStateM Failure (RingBuffer n) Nat :=
  if ¬ cbIo.inflags.pollin then
    -- in fd not ready for reading
    pure 0
  else
    RingBuffer.pushBackFromFd readResult

/-- `circular_buffer_io_fd_poll_do_output`, with the bytes written. -/
def doOutput (writeResult : Option Nat) (cbIo : CircularBufferIoFdPoll) :
    EStateM Failure (RingBuffer n) (List UInt8) :=
  if ¬ cbIo.outflags.pollout then
    -- out fd not ready for writing
    pure []
  else
    RingBuffer.popFrontToFd writeResult

/-- What a call of `doInput` delivers. -/
def delivered (readResult : Option (List UInt8)) (r : RingBuffer n)
    (cbIo : CircularBufferIoFdPoll) : List UInt8 :=
  if cbIo.inflags.pollin then r.delivered readResult else []

theorem delivered_length_le (readResult : Option (List UInt8))
    (r : RingBuffer n) (cbIo : CircularBufferIoFdPoll) :
    (cbIo.delivered readResult r).length <= r.raw.blockSizeAvailable := by
  rw [delivered]
  split
  · exact List.length_take_le _ _
  · exact Nat.zero_le _

/-- The program is told to stop. -/
def Stops (inBuf outBuf : RingBuffer n) :
    Option (Revents × Revents) -> Prop
  | none => True
  | some (inflags, outflags) =>
      inBuf.contents = [] ∧ outBuf.contents = [] ∧ inflags.gone = true ∨
        outflags.gone = true

theorem doPoll_status_iff (inBuf outBuf : RingBuffer n)
    (ready : Option (Revents × Revents)) (cbIo : CircularBufferIoFdPoll) :
    (cbIo.doPoll inBuf outBuf ready).1 ≠ 0 <-> Stops inBuf outBuf ready := by
  have hone : (1 : UInt8) ≠ 0 := by decide
  cases ready with
  | none => exact iff_of_true hone trivial
  | some flags =>
      rcases flags with ⟨inflags, outflags⟩
      have hin := inBuf.isEmpty_iff
      have hout := outBuf.isEmpty_iff
      rw [doPoll, Stops, ← hin, ← hout]
      split
      · rename_i h
        exact iff_of_true hone (Or.inl ⟨h.right.left, h.left,
          h.right.right⟩)
      · rename_i h
        split
        · rename_i hgone
          exact iff_of_true hone (Or.inr hgone)
        · rename_i hgone
          refine iff_of_false (not_not_intro rfl) ?_
          rintro (⟨hinEmpty, houtEmpty, hinGone⟩ | houtGone)
          · exact h ⟨houtEmpty, hinEmpty, hinGone⟩
          · exact hgone houtGone

theorem doPoll_inflags (inBuf outBuf : RingBuffer n)
    (inflags outflags : Revents) (cbIo : CircularBufferIoFdPoll) :
    (cbIo.doPoll inBuf outBuf (some (inflags, outflags))).2.inflags =
      inflags := by
  rw [doPoll]
  split
  · rfl
  · split <;> rfl

/-- All that a call of `doInput` can do. -/
theorem doInput_cases (readResult : Option (List UInt8)) (r : RingBuffer n)
    (cbIo : CircularBufferIoFdPoll) :
    (exists k r', cbIo.doInput readResult r = .ok k r' ∧
        r'.contents = BoundedDeque.pushBackAll n r.contents
          (cbIo.delivered readResult r)) ∨
      readResult = none ∧
        cbIo.doInput readResult r = .error (.exception .fileRead) r := by
  by_cases hready : cbIo.inflags.pollin = true
  · rw [doInput, if_neg (not_not_intro hready), delivered, if_pos hready]
    cases readResult with
    | none => exact Or.inr ⟨rfl, RingBuffer.pushBackFromFd_of_none r⟩
    | some bytes =>
        rcases RingBuffer.pushBackFromFd_of_some bytes r with
          ⟨r', hrun, hcontents⟩
        exact Or.inl ⟨_, r', hrun, hcontents⟩
  · rw [doInput, if_pos hready, delivered, if_neg hready]
    exact Or.inl ⟨0, r, rfl, rfl⟩

/-- All that a call of `doOutput` can do. -/
theorem doOutput_cases (writeResult : Option Nat) (r : RingBuffer n)
    (cbIo : CircularBufferIoFdPoll) :
    (exists (out : List UInt8) (r' : RingBuffer n),
        cbIo.doOutput writeResult r = .ok out r' ∧
          r.contents = out ++ r'.contents) ∨
      writeResult = none ∧
        cbIo.doOutput writeResult r = .error (.exception .fileWrite) r := by
  by_cases hready : cbIo.outflags.pollout = true
  · rw [doOutput, if_neg (not_not_intro hready)]
    cases writeResult with
    | none => exact Or.inr ⟨rfl, RingBuffer.popFrontToFd_of_none r⟩
    | some nWritten =>
        rcases RingBuffer.popFrontToFd_of_some nWritten r with
          ⟨out, r', hrun, hcontents, -⟩
        exact Or.inl ⟨out, r', hrun, hcontents⟩
  · rw [doOutput, if_pos hready]
    exact Or.inl ⟨[], r, rfl, rfl⟩

end CircularBufferIoFdPoll
end AsciiSerialCom
