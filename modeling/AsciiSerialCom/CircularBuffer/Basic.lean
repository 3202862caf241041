import AsciiSerialCom.Exception

/-!
# The circular buffer

The functions of `circular_buffer.c`, on the C structure as it is: nothing here
assumes that the indices fit together.  A pointer to the memory block is the
list of its cells, and a function that takes a `const` buffer is a function of
it rather than a state change.

Sizes and indices are natural numbers.  A `size_t` sum wraps only where a caller
can pass any index it likes, in `circular_buffer_get_blocks_uint8`; elsewhere
the operands are bounded by the length of a C object.
-/

namespace AsciiSerialCom

open Foundation
open Foundation.StateError

/-- One more than the largest `size_t` of the native build. -/
def sizeModulus : Nat := 2 ^ 64

/-- Sum of two `size_t` values. -/
def sizeAdd (a b : Nat) : Nat := (a + b) % sizeModulus

/-- Difference of two `size_t` values, wrapping below zero. -/
def sizeSub (a b : Nat) : Nat := (sizeModulus + a - b) % sizeModulus

/-- Bitwise complement of a `size_t` value. -/
def sizeNot (a : Nat) : Nat := sizeModulus - 1 - a

/-- `isPowerOfTwo(x)` -/
def isPowerOfTwo (x : Nat) : Bool :=
  x != 0 && (x &&& sizeAdd (sizeNot x) 1) == x

/-- `circular_buffer_uint8` -/
structure CircularBufferUint8 where
  /-- capacity of actual data buffer -/
  capacity : Nat
  /-- number of elements in the circular buffer -/
  size : Nat
  /-- front element of buffer -/
  iStart : Nat
  /-- one past the back element of buffer -/
  iStop : Nat
  /-- the cells the data pointer leads to -/
  buffer : List UInt8
  deriving DecidableEq, Repr

/-- Functions that change a circular buffer. -/
abbrev CircularBufferM := EStateM Failure CircularBufferUint8

namespace CircularBufferUint8

/-!
## Index helpers
-/

def incIStart (buf : CircularBufferUint8) : CircularBufferUint8 :=
  { buf with iStart := (buf.iStart + 1) &&& (buf.capacity - 1) }

def incIStop (buf : CircularBufferUint8) : CircularBufferUint8 :=
  { buf with iStop := (buf.iStop + 1) &&& (buf.capacity - 1) }

def decIStart (buf : CircularBufferUint8) : CircularBufferUint8 :=
  if buf.iStart = 0 then
    { buf with iStart := buf.capacity - 1 }
  else
    { buf with iStart := (buf.iStart - 1) &&& (buf.capacity - 1) }

def decIStop (buf : CircularBufferUint8) : CircularBufferUint8 :=
  if buf.iStop = 0 then
    { buf with iStop := buf.capacity - 1 }
  else
    { buf with iStop := (buf.iStop - 1) &&& (buf.capacity - 1) }

/-- The bytes in `n` consecutive cells from `offset` on. -/
def cells (buf : CircularBufferUint8) (offset n : Nat) : List UInt8 :=
  (buf.buffer.drop offset).take n

/-- Write bytes to consecutive cells from `offset` on. -/
def writeCells (buffer : List UInt8) (offset : Nat) : List UInt8 -> List UInt8
  | [] => buffer
  | byte :: rest => writeCells (buffer.set offset byte) (offset + 1) rest

/-!
## Initialization and observers
-/

/-- `circular_buffer_init_uint8`; `buffer` holds the memory before the call. -/
def init (capacity : Nat) (buffer : List UInt8) :
    Except Failure CircularBufferUint8 :=
  if !isPowerOfTwo capacity then
    .error (.exception .cbBadCapacity)
  else
    .ok
      { capacity := capacity
        size := 0
        iStart := 0
        iStop := 0
        buffer := writeCells buffer 0 (List.replicate capacity 0x40) }

def getSize (circBuf : CircularBufferUint8) : Nat := circBuf.size

def isFull (circBuf : CircularBufferUint8) : Bool :=
  circBuf.getSize == circBuf.capacity

def isEmpty (circBuf : CircularBufferUint8) : Bool :=
  circBuf.getSize == 0

/-- `circular_buffer_get_element_uint8` -/
def getElement (iElement : Nat) (circBuf : CircularBufferUint8) :
    Except Failure UInt8 :=
  if circBuf.getSize <= iElement then
    .error (.exception .cbOob)
  else
    let iResult := (circBuf.iStart + iElement) &&& (circBuf.capacity - 1)
    .ok (circBuf.buffer.getD iResult 0)

/-!
## Single elements
-/

/-- `circular_buffer_push_front_uint8` -/
def pushFront (element : UInt8) (circBuf : CircularBufferUint8) :
    CircularBufferUint8 :=
  let circBuf := circBuf.decIStart
  let circBuf :=
    { circBuf with buffer := circBuf.buffer.set circBuf.iStart element }
  if circBuf.size = circBuf.capacity then
    circBuf.decIStop
  else
    { circBuf with size := circBuf.size + 1 }

/-- `circular_buffer_push_back_uint8` -/
def pushBack (element : UInt8) (circBuf : CircularBufferUint8) :
    CircularBufferUint8 :=
  let circBuf :=
    { circBuf with buffer := circBuf.buffer.set circBuf.iStop element }
  let circBuf := circBuf.incIStop
  if circBuf.size = circBuf.capacity then
    circBuf.incIStart
  else
    { circBuf with size := circBuf.size + 1 }

/-- `circular_buffer_pop_front_uint8` -/
def popFront : CircularBufferM UInt8 := fun circBuf =>
  if circBuf.size = 0 then
    .error (.exception .cbPopEmpty) circBuf
  else
    let result := circBuf.buffer.getD circBuf.iStart 0
    let circBuf := circBuf.incIStart
    .ok result { circBuf with size := circBuf.size - 1 }

/-- `circular_buffer_pop_back_uint8` -/
def popBack : CircularBufferM UInt8 := fun circBuf =>
  if circBuf.size = 0 then
    .error (.exception .cbPopEmpty) circBuf
  else
    let circBuf := circBuf.decIStop
    let circBuf := { circBuf with size := circBuf.size - 1 }
    .ok (circBuf.buffer.getD circBuf.iStop 0) circBuf

/-- `for (size_t i = 0; i < n; i++) circular_buffer_pop_front_uint8(circ_buf)` -/
def popFrontN : Nat -> CircularBufferM Unit
  | 0 => pure ()
  | n + 1 => do
      let _ ← popFront
      popFrontN n

/-!
## Searching
-/

/-- The loop of `circular_buffer_find_first_uint8` with `remaining` iterations
to go. -/
def findFirstLoop (value : UInt8) (circBuf : CircularBufferUint8) :
    (remaining iElement : Nat) -> Except Failure Nat
  | 0, _ => .ok circBuf.size
  | remaining + 1, iElement => do
      let iValue ← circBuf.getElement iElement
      if iValue = value then
        .ok iElement
      else
        findFirstLoop value circBuf remaining (iElement + 1)

/-- `circular_buffer_find_first_uint8` -/
def findFirst (value : UInt8) (circBuf : CircularBufferUint8) :
    Except Failure Nat :=
  findFirstLoop value circBuf circBuf.size 0

/-- The loop of `circular_buffer_find_last_uint8` at `iElement`. -/
def findLastLoop (value : UInt8) (circBuf : CircularBufferUint8) :
    (iElement : Nat) -> Except Failure Nat
  | 0 => .ok circBuf.size
  | iElement + 1 => do
      let iValue ← circBuf.getElement iElement
      if iValue = value then
        .ok iElement
      else
        findLastLoop value circBuf iElement

/-- `circular_buffer_find_last_uint8` -/
def findLast (value : UInt8) (circBuf : CircularBufferUint8) :
    Except Failure Nat :=
  findLastLoop value circBuf circBuf.size

/-- The loop of `circular_buffer_remove_front_to_uint8`; every iteration pops
one element, so the size bounds their number. -/
def removeFrontToLoop (value : UInt8) (inclusive : Bool) :
    (bound : Nat) -> CircularBufferM Unit
  | 0 => pure ()
  | bound + 1 => do
      if (← get).size = 0 then
        pure ()
      else
        let iValue ← observe (getElement 0)
        if iValue = value then
          if inclusive then
            let _ ← popFront
            pure ()
          else
            pure ()
        else
          let _ ← popFront
          removeFrontToLoop value inclusive bound

/-- `circular_buffer_remove_front_to_uint8` -/
def removeFrontTo (value : UInt8) (inclusive : Bool) : CircularBufferM Unit :=
  fun circBuf => removeFrontToLoop value inclusive circBuf.size circBuf

/-- The loop of `circular_buffer_remove_back_to_uint8`. -/
def removeBackToLoop (value : UInt8) (inclusive : Bool) :
    (bound : Nat) -> CircularBufferM Unit
  | 0 => pure ()
  | bound + 1 => do
      let size := (← get).size
      if size = 0 then
        pure ()
      else
        let iValue ← observe (getElement (size - 1))
        if iValue = value then
          if inclusive then
            let _ ← popBack
            pure ()
          else
            pure ()
        else
          let _ ← popBack
          removeBackToLoop value inclusive bound

/-- `circular_buffer_remove_back_to_uint8` -/
def removeBackTo (value : UInt8) (inclusive : Bool) : CircularBufferM Unit :=
  fun circBuf => removeBackToLoop value inclusive circBuf.size circBuf

/-!
## Blocks and file descriptors
-/

/-- The length of the block that starts at the front element: up to the end of
the memory when the contents wrap, otherwise all of them. -/
def firstBlockSize (circBuf : CircularBufferUint8) : Nat :=
  if circBuf.capacity < circBuf.iStart + circBuf.size then
    circBuf.capacity - circBuf.iStart
  else
    circBuf.size

/-- `circular_buffer_get_first_block_uint8`: the bytes of the block. -/
def getFirstBlock (circBuf : CircularBufferUint8) : List UInt8 :=
  circBuf.cells circBuf.iStart circBuf.firstBlockSize

def clear (circBuf : CircularBufferUint8) : CircularBufferUint8 :=
  { circBuf with size := 0, iStart := 0, iStop := 0 }

/-- `circular_buffer_delete_first_block_uint8` -/
def deleteFirstBlock : CircularBufferM Nat := fun circBuf =>
  if circBuf.capacity < circBuf.iStart + circBuf.size then
    let toPop := circBuf.capacity - circBuf.iStart
    (do popFrontN toPop; pure toPop : CircularBufferM Nat) circBuf
  else
    .ok circBuf.size circBuf.clear

/-- `circular_buffer_push_back_block_uint8` -/
def pushBackBlock (source : List UInt8) (circBuf : CircularBufferUint8) :
    CircularBufferUint8 :=
  source.foldl (fun circBuf element => circBuf.pushBack element) circBuf

/-- Take `n` elements off the front of the first block, as
`circular_buffer_pop_front_block_uint8` and
`circular_buffer_pop_front_to_fd_uint8` do after copying them out. -/
def dropFromFirstBlock (n : Nat) (circBuf : CircularBufferUint8) :
    CircularBufferUint8 :=
  let circBuf := { circBuf with size := circBuf.size - n }
  if circBuf.size = 0 then
    { circBuf with iStart := 0, iStop := 0 }
  else
    { circBuf with
      iStart := (circBuf.iStart + n) &&& (circBuf.capacity - 1) }

/-- `circular_buffer_pop_front_block_uint8`: the result is the bytes written to
the destination, whose number the C function returns. -/
def popFrontBlock (destSize : Nat) : CircularBufferM (List UInt8) :=
  fun circBuf =>
    let outBlock := circBuf.getFirstBlock
    let nBlock := circBuf.firstBlockSize
    let nWritten := if destSize < nBlock then destSize else nBlock
    .ok (outBlock.take nWritten) (circBuf.dropFromFirstBlock nWritten)

/-- The number of bytes `circular_buffer_push_back_from_fd_uint8` asks
`read` for. -/
def blockSizeAvailable (circBuf : CircularBufferUint8) : Nat :=
  if circBuf.iStart <= circBuf.iStop then
    circBuf.capacity - circBuf.iStop
  else
    circBuf.iStart - circBuf.iStop

/-- `circular_buffer_push_back_from_fd_uint8`; `readResult` is what `read`
delivers, or nothing when it fails. -/
def pushBackFromFd (readResult : Option (List UInt8)) : CircularBufferM Nat :=
  fun circBuf =>
    match readResult with
    | none => .error (.exception .fileRead) circBuf
    | some bytes =>
        let nRead := bytes.length
        let circBuf :=
          { circBuf with
            buffer := writeCells circBuf.buffer circBuf.iStop bytes
            iStop := (circBuf.iStop + nRead) &&& (circBuf.capacity - 1)
            size := circBuf.size + nRead }
        let circBuf :=
          if circBuf.capacity <= circBuf.size then
            { circBuf with
              iStart :=
                (circBuf.iStart + circBuf.size - circBuf.capacity) &&&
                  (circBuf.capacity - 1)
              size := circBuf.capacity }
          else
            circBuf
        .ok nRead circBuf

/-- `circular_buffer_pop_front_to_fd_uint8`; `writeResult` is the number of
bytes `write` accepts, or nothing when it fails.  The result is the bytes
accepted, whose number the C function returns. -/
def popFrontToFd (writeResult : Option Nat) : CircularBufferM (List UInt8) :=
  fun circBuf =>
    match writeResult with
    | none => .error (.exception .fileWrite) circBuf
    | some nWritten =>
        .ok (circBuf.getFirstBlock.take nWritten)
          (circBuf.dropFromFirstBlock nWritten)

/-- `circular_buffer_get_blocks_uint8`: each block is an offset into the memory
and a length. -/
def getBlocks (iStart nElem : Nat) (circBuf : CircularBufferUint8) :
    Except Failure (List (Nat × Nat)) :=
  if circBuf.getSize < sizeAdd iStart nElem then
    .error (.exception .cbOob)
  else
    let wraps :=
      decide (circBuf.capacity < sizeAdd (sizeAdd circBuf.iStart iStart) nElem)
    let block0 := sizeAdd circBuf.iStart iStart
    if wraps then
      let size0 := sizeSub (sizeSub circBuf.capacity circBuf.iStart) iStart
      .ok [(block0, size0), (0, sizeSub nElem size0)]
    else
      .ok [(block0, nElem)]

/-- Read a block through its pointer. -/
def readBlock (block : Nat × Nat) (circBuf : CircularBufferUint8) :
    Except Failure (List UInt8) :=
  if block.1 + block.2 <= circBuf.buffer.length then
    .ok (circBuf.cells block.1 block.2)
  else
    .error .outOfBounds

/-!
## Resynchronization
-/

theorem popFront_size_lt {circBuf circBuf' : CircularBufferUint8} {b : UInt8}
    (h : popFront circBuf = .ok b circBuf') :
    circBuf'.size < circBuf.size := by
  unfold popFront at h
  split at h
  · cases h
  · injection h with _ hstate
    rw [← hstate]
    simp only [incIStart]
    omega

theorem popFrontN_size {n : Nat} {circBuf circBuf' : CircularBufferUint8}
    (h : popFrontN n circBuf = .ok () circBuf') :
    circBuf'.size + n <= circBuf.size := by
  induction n generalizing circBuf with
  | zero =>
      have hstate : circBuf = circBuf' := by injection h
      rw [hstate]
      omega
  | succ n ih =>
      rcases bind_eq_ok h with ⟨b, mid, hpop, hrest⟩
      have hlt := popFront_size_lt hpop
      have hle := ih hrest
      omega

/-- The backward scan for `startChar` from `iElement` down to the front. -/
def scanBack (startChar : UInt8) (circBuf : CircularBufferUint8) :
    (iElement : Nat) -> Except Failure (Option Nat)
  | 0 => do
      let iValue ← circBuf.getElement 0
      if iValue = startChar then .ok (some 0) else .ok none
  | iElement + 1 => do
      let iValue ← circBuf.getElement (iElement + 1)
      if iValue = startChar then
        .ok (some (iElement + 1))
      else
        scanBack startChar circBuf iElement

/-- `circular_buffer_remove_front_unfinished_frames_uint8`, for characters in
the ASCII range.  Each recursive call comes after at least one pop. -/
def removeFrontUnfinishedFrames (startChar endChar : UInt8)
    (circBuf : CircularBufferUint8) :
    EStateM.Result Failure CircularBufferUint8 Nat :=
  match circBuf.findFirst endChar with
  | .error e => .error e circBuf
  | .ok iEnd =>
      if circBuf.size <= iEnd then
        match circBuf.findLast startChar with
        | .error e => .error e circBuf
        | .ok iLastStart =>
            if circBuf.size <= iLastStart then
              .ok circBuf.size circBuf.clear
            else
              (do popFrontN iLastStart; pure iLastStart :
                CircularBufferM Nat) circBuf
      else if iEnd = 0 then
        match _hpop : popFront circBuf with
        | .error e circBuf' => .error e circBuf'
        | .ok _ circBuf' =>
            removeFrontUnfinishedFrames startChar endChar circBuf'
      else
        match scanBack startChar circBuf (iEnd - 1) with
        | .error e => .error e circBuf
        | .ok none =>
            -- no start before the end: drop the segment with its end
            match _hpop : popFrontN (iEnd + 1) circBuf with
            | .error e circBuf' => .error e circBuf'
            | .ok _ circBuf' =>
                match removeFrontUnfinishedFrames startChar endChar circBuf' with
                | .error e circBuf'' => .error e circBuf''
                | .ok n circBuf'' => .ok (iEnd + 1 + n) circBuf''
        | .ok (some iElement) =>
            (do popFrontN iElement; pure iElement :
              CircularBufferM Nat) circBuf
termination_by circBuf.size
decreasing_by
  · exact popFront_size_lt _hpop
  · have := popFrontN_size _hpop
    omega

end CircularBufferUint8
end AsciiSerialCom
