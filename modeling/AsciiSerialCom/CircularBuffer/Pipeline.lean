import AsciiSerialCom.CircularBuffer.DequeRefinement

/-!
# A circular buffer between two file descriptors

Bytes are read from one descriptor into the buffer and written from the buffer
to another, as the raw loopback of the native device does.  The room that a read
is offered is computed from the two indices, and these are the same for an empty
and for a full buffer.  So a full buffer is offered for reading from its front
element on.
-/

namespace AsciiSerialCom

open Foundation Run
open Foundation.StateError

/-- One call, with what its system call does: the bytes that `read` delivers or
the number of bytes that `write` accepts, if it does not fail. -/
inductive FdOp where
  | input (readResult : Option (List UInt8))
  | output (writeResult : Option Nat)

/-- A buffer with all bytes that were read into it and written from it. -/
structure Pipeline where
  buf : CircularBufferUint8
  received : List UInt8
  sent : List UInt8

namespace Pipeline

open CircularBufferUint8

/-- A buffer through which nothing has passed. -/
def start (buf : CircularBufferUint8) : Pipeline :=
  { buf := buf
    received := []
    sent := [] }

/-- What `circular_buffer_push_back_from_fd_uint8` has read. -/
def readBytes (readResult : Option (List UInt8)) : List UInt8 :=
  readResult.getD []

/-- What `circular_buffer_pop_front_to_fd_uint8` has written. -/
def writtenBytes (result : Except Failure (List UInt8)) : List UInt8 :=
  match result with
  | .ok bytes => bytes
  | .error _ => []

def step (p : Pipeline) : FdOp -> Pipeline
  | .input readResult =>
      { buf := Result.state (pushBackFromFd readResult p.buf)
        received := p.received ++ readBytes readResult
        sent := p.sent }
  | .output writeResult =>
      let result := popFrontToFd writeResult p.buf
      { buf := Result.state result
        received := p.received
        sent := p.sent ++ writtenBytes (Result.outcome result) }

/-- The system calls keep to the size they are offered. -/
def Fits (p : Pipeline) : FdOp -> Prop
  | .input none => True
  | .input (some bytes) => bytes.length <= p.buf.blockSizeAvailable
  | .output none => True
  | .output (some nWritten) => nWritten <= p.buf.firstBlockSize

instance (p : Pipeline) : (op : FdOp) -> Decidable (p.Fits op)
  | .input none => inferInstanceAs (Decidable True)
  | .input (some _) => inferInstanceAs (Decidable (_ <= _))
  | .output none => inferInstanceAs (Decidable True)
  | .output (some _) => inferInstanceAs (Decidable (_ <= _))

/-- What was written and what is still there is what was read. -/
def Lossless (p : Pipeline) : Prop := p.sent ++ p.buf.contents = p.received

instance (p : Pipeline) : Decidable p.Lossless :=
  inferInstanceAs (Decidable (_ = _))

/-- The call returns the number of bytes that it moved into the buffer or out of
it. -/
def Counted (p : Pipeline) : FdOp -> Prop
  | .input none =>
      Result.outcome (pushBackFromFd none p.buf) =
        .error (.exception .fileRead)
  | .input (some bytes) =>
      Result.outcome (pushBackFromFd (some bytes) p.buf) = .ok bytes.length ∧
        (p.step (.input (some bytes))).buf.contents = p.buf.contents ++ bytes
  | .output none =>
      Result.outcome (popFrontToFd none p.buf) =
        .error (.exception .fileWrite)
  | .output (some nWritten) =>
      exists out, Result.outcome (popFrontToFd (some nWritten) p.buf) =
          .ok out ∧ out.length = nWritten ∧
        p.buf.contents = out ++ (p.step (.output (some nWritten))).buf.contents

/-- A full buffer is not read into. -/
def ReadsIntoRoom (p : Pipeline) : FdOp -> Prop
  | .input (some bytes) => p.buf.isFull = false ∨ bytes = []
  | _ => True

instance (p : Pipeline) : (op : FdOp) -> Decidable (p.ReadsIntoRoom op)
  | .input none => inferInstanceAs (Decidable True)
  | .input (some _) => inferInstanceAs (Decidable (_ ∨ _))
  | .output _ => inferInstanceAs (Decidable True)

variable {p : Pipeline}

/-!
## One call
-/

/-- In a buffer that is not full, the room offered is free. -/
theorem blockSizeAvailable_le {buf : CircularBufferUint8} (h : buf.WellFormed)
    (hroom : buf.size < buf.capacity) :
    buf.size + buf.blockSizeAvailable <= buf.capacity := by
  have hstart := h.iStart_lt
  have hstop := h.iStop_eq
  unfold blockSizeAvailable
  rcases Nat.lt_or_ge (buf.iStart + buf.size) buf.capacity with hlt | hge
  · rw [Nat.mod_eq_of_lt hlt] at hstop
    rw [if_pos (by omega)]
    omega
  · rw [Nat.mod_eq_sub_mod hge, Nat.mod_eq_of_lt (by omega)] at hstop
    rw [if_neg (by omega)]
    omega

theorem isFull_eq_false_iff {buf : CircularBufferUint8} (h : buf.WellFormed) :
    buf.isFull = false <-> buf.size < buf.capacity := by
  have hle := h.size_le
  rw [isFull, beq_eq_false_iff_ne, getSize]
  omega

theorem step_input (h : p.buf.WellFormed) {bytes : List UInt8}
    (hfits : p.Fits (.input (some bytes))) :
    p.step (.input (some bytes)) =
      { buf := p.buf.pushBackBlock bytes
        received := p.received ++ bytes
        sent := p.sent } := by
  rw [step, pushBackFromFd_eq h hfits]
  rfl

theorem step_output (h : p.buf.WellFormed) {nWritten : Nat}
    (hfits : p.Fits (.output (some nWritten))) :
    p.step (.output (some nWritten)) =
      { buf := p.buf.dropFromFirstBlock nWritten
        received := p.received
        sent := p.sent ++ p.buf.contents.take nWritten } := by
  have hle : nWritten <= p.buf.firstBlockSize := hfits
  rw [step]
  simp only [popFrontToFd, getFirstBlock_eq_take h, List.take_take,
    Nat.min_eq_left hle, writtenBytes, Result.outcome_ok, Result.state_ok]

theorem step_wellFormed (h : p.buf.WellFormed) {op : FdOp}
    (hfits : p.Fits op) : (p.step op).buf.WellFormed := by
  cases op with
  | input readResult =>
      cases readResult with
      | none => exact h
      | some bytes =>
          rw [step_input h hfits]
          exact pushBackBlock_wellFormed h bytes
  | output writeResult =>
      cases writeResult with
      | none => exact h
      | some nWritten =>
          rw [step_output h hfits]
          exact dropFromFirstBlock_wellFormed h
            (Nat.le_trans hfits p.buf.firstBlockSize_le)

theorem contents_of_readsIntoRoom (h : p.buf.WellFormed) {bytes : List UInt8}
    (hfits : p.Fits (.input (some bytes)))
    (hroom : p.ReadsIntoRoom (.input (some bytes))) :
    (p.buf.pushBackBlock bytes).contents = p.buf.contents ++ bytes := by
  rw [pushBackBlock_contents h]
  rcases hroom with hroom | rfl
  · have hfree := blockSizeAvailable_le h ((isFull_eq_false_iff h).mp hroom)
    have hle : bytes.length <= p.buf.blockSizeAvailable := hfits
    apply BoundedDeque.pushBackAll_of_le
    rw [contents_length]
    omega
  · rw [List.append_nil]
    rfl

/-- A full buffer cannot keep what is read into it. -/
theorem readsIntoRoom_of_contents (h : p.buf.WellFormed) {bytes : List UInt8}
    (hcontents : (p.buf.pushBackBlock bytes).contents =
      p.buf.contents ++ bytes) : p.ReadsIntoRoom (.input (some bytes)) := by
  have hlen := congrArg List.length hcontents
  have hle := (pushBackBlock_wellFormed h bytes).size_le
  rw [List.length_append, contents_length, contents_length] at hlen
  rw [pushBackBlock_capacity] at hle
  cases bytes with
  | nil => exact Or.inr rfl
  | cons b bytes =>
      rw [List.length_cons] at hlen
      exact Or.inl ((isFull_eq_false_iff h).mpr (by omega))

/-- A call loses nothing and counts what it moves exactly if it reads into
room. -/
theorem exact_step_iff (h : p.buf.WellFormed) (hlossless : p.Lossless)
    {op : FdOp} (hfits : p.Fits op) :
    ((p.step op).Lossless ∧ p.Counted op) <-> p.ReadsIntoRoom op := by
  cases op with
  | input readResult =>
      cases readResult with
      | none =>
          refine ⟨fun _ => trivial, fun _ => ⟨?_, rfl⟩⟩
          change p.sent ++ p.buf.contents = p.received ++ []
          rw [List.append_nil]
          exact hlossless
      | some bytes =>
          have hcount : p.Counted (.input (some bytes)) <->
              (p.buf.pushBackBlock bytes).contents =
                p.buf.contents ++ bytes := by
            rw [Counted, step_input h hfits, pushBackFromFd_eq h hfits]
            exact and_iff_right rfl
          rw [hcount]
          constructor
          · intro hexact
            exact readsIntoRoom_of_contents h hexact.right
          · intro hroom
            have hcontents := contents_of_readsIntoRoom h hfits hroom
            refine ⟨?_, hcontents⟩
            rw [Lossless, step_input h hfits]
            simp only
            rw [hcontents, ← List.append_assoc, hlossless]
  | output writeResult =>
      cases writeResult with
      | none =>
          refine ⟨fun _ => trivial, fun _ => ⟨?_, rfl⟩⟩
          change (p.sent ++ []) ++ p.buf.contents = p.received
          rw [List.append_nil]
          exact hlossless
      | some nWritten =>
          have hblock : nWritten <= p.buf.firstBlockSize := hfits
          have hle := Nat.le_trans hblock p.buf.firstBlockSize_le
          have hdrop := dropFromFirstBlock_contents h hle
          refine ⟨fun _ => trivial, fun _ => ⟨?_, ?_⟩⟩
          · rw [Lossless, step_output h hfits]
            simp only
            rw [hdrop, List.append_assoc, List.take_append_drop, hlossless]
          · refine ⟨p.buf.contents.take nWritten, ?_, ?_, ?_⟩
            · simp only [popFrontToFd, getFirstBlock_eq_take h, List.take_take,
                Nat.min_eq_left hblock, Result.outcome_ok]
            · rw [List.length_take, contents_length, Nat.min_eq_left hle]
            · rw [step_output h hfits]
              simp only
              rw [hdrop, List.take_append_drop]

/-!
## Runs
-/

/-- **Nothing is lost between the descriptors exactly when no full buffer is
read into.** -/
theorem lossless_iff_readsIntoRoom {capacity : Nat} (memory : List UInt8)
    (hcap : capacity < sizeModulus) (hmem : memory.length = capacity)
    {buf : CircularBufferUint8} (hinit : init capacity memory = .ok buf)
    {ops : List FdOp} (hfits : Allowed step Fits (start buf) ops) :
    Allowed step (fun p op => (p.step op).Lossless ∧ p.Counted op)
        (start buf) ops <->
      Allowed step ReadsIntoRoom (start buf) ops := by
  rcases init_ok hcap hmem hinit with ⟨hwf, -, hempty⟩
  have hiff (p : Pipeline) (op : FdOp)
      (hp : p.buf.WellFormed ∧ p.Lossless) (hop : p.Fits op) :
      ((p.step op).Lossless ∧ p.Counted op) <-> p.ReadsIntoRoom op :=
    exact_step_iff hp.left hp.right hop
  refine hfits.congr hiff ?_ ⟨hwf, hempty⟩
  intro p op hp hop hroom
  exact ⟨step_wellFormed hp.left hop,
    ((hiff p op hp hop).mpr hroom).left⟩

/-- The buffer of two cells that initialization leaves. -/
def twoCells : CircularBufferUint8 :=
  { capacity := 2
    size := 0
    iStart := 0
    iStop := 0
    buffer := [0x40, 0x40] }

/-- Two bytes are read and written, in blocks of different lengths. -/
theorem lossless_iff_readsIntoRoom_two_cells :
    let ops := [.input (some [1]), .output (some 1), .input none,
      .input (some [2, 3]), .output (some 1), .output (some 1)]
    Allowed step (fun p op => (p.step op).Lossless ∧ p.Counted op)
        (start twoCells) ops <->
      Allowed step ReadsIntoRoom (start twoCells) ops :=
  lossless_iff_readsIntoRoom [0, 0] (by decide) rfl rfl (by decide)

/-- A third byte overwrites the first of two. -/
theorem not_lossless_of_full :
    ¬ forall ops, Allowed step Fits (start twoCells) ops ->
      Allowed step (fun p op => (p.step op).Lossless ∧ p.Counted op)
        (start twoCells) ops := by
  intro h
  have hrun := h [.input (some [1, 2]), .input (some [3])] (by decide)
  exact absurd hrun.right.left.left (by decide)

end Pipeline
end AsciiSerialCom
