import AsciiSerialCom.CircularBuffer.Resync
import AsciiSerialCom.Foundation.BoundedDeque

/-!
# Initialized ring buffers

A circular buffer together with its capacity and its representation invariant.
The code above the circular buffer only ever holds initialized buffers, so its
model uses this type, and every statement about one covers all rotations and
all stale bytes.
-/

namespace AsciiSerialCom

open Foundation
open Foundation.StateError
open Foundation.Delimited

/-- A circular buffer initialized with capacity `n`. -/
structure RingBuffer (n : Nat) where
  raw : CircularBufferUint8
  capacity_eq : raw.capacity = n
  wellFormed : raw.WellFormed

/-- What `RingBuffer` says of its buffer. -/
def IsRing (n : Nat) (buf : CircularBufferUint8) : Prop :=
  buf.capacity = n ∧ buf.WellFormed

namespace RingBuffer

variable {n : Nat}

/-- The elements from front to back. -/
def contents (r : RingBuffer n) : List UInt8 := r.raw.contents

def getSize (r : RingBuffer n) : Nat := r.raw.getSize

def isFull (r : RingBuffer n) : Bool := r.raw.isFull

def isEmpty (r : RingBuffer n) : Bool := r.raw.isEmpty

def findFirst (value : UInt8) (r : RingBuffer n) : Except Failure Nat :=
  r.raw.findFirst value

def findLast (value : UInt8) (r : RingBuffer n) : Except Failure Nat :=
  r.raw.findLast value

def getElement (iElement : Nat) (r : RingBuffer n) : Except Failure UInt8 :=
  r.raw.getElement iElement

def pushBack (element : UInt8) (r : RingBuffer n) : RingBuffer n where
  raw := r.raw.pushBack element
  capacity_eq := by
    rw [CircularBufferUint8.pushBack_capacity, r.capacity_eq]
  wellFormed := CircularBufferUint8.pushBack_wellFormed r.wellFormed element

/-- Push several elements, one after the other. -/
def pushBackBlock (source : List UInt8) (r : RingBuffer n) : RingBuffer n :=
  source.foldl (fun r element => r.pushBack element) r

/-- The buffer an operation that keeps the invariant leaves behind. -/
def stateAfter (f : CircularBufferM α) (hf : Preserves (IsRing n) f)
    (r : RingBuffer n) : RingBuffer n where
  raw := Result.state (f r.raw)
  capacity_eq := (hf r.raw ⟨r.capacity_eq, r.wellFormed⟩).left
  wellFormed := (hf r.raw ⟨r.capacity_eq, r.wellFormed⟩).right

/-- Run an operation that keeps the invariant on every exit. -/
def liftRaw (f : CircularBufferM α) (hf : Preserves (IsRing n) f) :
    EStateM Failure (RingBuffer n) α := fun r =>
  match Result.outcome (f r.raw) with
  | .ok a => .ok a (r.stateAfter f hf)
  | .error e => .error e (r.stateAfter f hf)

theorem liftRaw_of_ok {f : CircularBufferM α} {hf : Preserves (IsRing n) f}
    {r : RingBuffer n} {a : α} {buf : CircularBufferUint8}
    (h : f r.raw = .ok a buf) :
    exists r' : RingBuffer n, liftRaw f hf r = .ok a r' ∧ r'.raw = buf := by
  refine ⟨r.stateAfter f hf, ?_, ?_⟩
  · simp [liftRaw, h]
  · simp [stateAfter, h]

theorem liftRaw_of_error {f : CircularBufferM α} {hf : Preserves (IsRing n) f}
    {r : RingBuffer n} {e : Failure} {buf : CircularBufferUint8}
    (h : f r.raw = .error e buf) :
    exists r' : RingBuffer n, liftRaw f hf r = .error e r' ∧ r'.raw = buf := by
  refine ⟨r.stateAfter f hf, ?_, ?_⟩
  · simp [liftRaw, h]
  · simp [stateAfter, h]

theorem preserves_popFront :
    Preserves (IsRing n) CircularBufferUint8.popFront := by
  intro buf ⟨hcap, hwf⟩
  cases hc : buf.contents with
  | nil =>
      rw [CircularBufferUint8.popFront_of_empty hc]
      exact ⟨hcap, hwf⟩
  | cons b rest =>
      have hpos : 0 < buf.size := by
        rw [← CircularBufferUint8.contents_length, hc]
        simp
      rw [CircularBufferUint8.popFront_of_contents hwf hc]
      exact ⟨hcap, CircularBufferUint8.dropFront_wellFormed hwf hpos⟩

theorem preserves_popFrontN (k : Nat) :
    Preserves (IsRing n) (CircularBufferUint8.popFrontN k) := by
  induction k with
  | zero => exact preserves_pure _ _
  | succ k ih => exact preserves_popFront.bind fun _ => ih

theorem preserves_removeFrontUnfinishedFrames {startChar endChar : UInt8}
    (hne : endChar ≠ startChar) :
    Preserves (IsRing n)
      (CircularBufferUint8.removeFrontUnfinishedFrames startChar endChar) := by
  intro buf ⟨hcap, hwf⟩
  rcases CircularBufferUint8.removeFrontUnfinishedFrames_leaves hne hwf with
    ⟨a, buf', hrun, hwf', hcap', _⟩
  rw [hrun]
  exact ⟨hcap'.trans hcap, hwf'⟩

def popFront : EStateM Failure (RingBuffer n) UInt8 :=
  liftRaw CircularBufferUint8.popFront preserves_popFront

def popFrontN (k : Nat) : EStateM Failure (RingBuffer n) Unit :=
  liftRaw (CircularBufferUint8.popFrontN k) (preserves_popFrontN k)

def removeFrontUnfinishedFrames (startChar endChar : UInt8)
    (hne : endChar ≠ startChar) : EStateM Failure (RingBuffer n) Nat :=
  liftRaw (CircularBufferUint8.removeFrontUnfinishedFrames startChar endChar)
    (preserves_removeFrontUnfinishedFrames hne)

/-!
## Initialization
-/

/-- The buffer that `circular_buffer_init_uint8` leaves behind when the capacity
is a power of two. -/
def fresh (k : Nat) : RingBuffer (2 ^ k) where
  raw :=
    { capacity := 2 ^ k
      size := 0
      iStart := 0
      iStop := 0
      buffer := List.replicate (2 ^ k) 0x40 }
  capacity_eq := rfl
  wellFormed :=
    { capacity_pow := ⟨k, rfl⟩
      size_le := Nat.zero_le _
      iStart_lt := Nat.two_pow_pos k
      iStop_eq := (Nat.zero_mod _).symm
      buffer_length := List.length_replicate }

@[simp] theorem contents_fresh (k : Nat) : (fresh k).contents = [] := rfl

theorem writeCells_append (front bytes : List UInt8) {memory : List UInt8}
    (h : memory.length = bytes.length) :
    CircularBufferUint8.writeCells (front ++ memory) front.length bytes =
      front ++ bytes := by
  induction bytes generalizing memory front with
  | nil =>
      rw [List.length_eq_zero_iff.mp h]
      rfl
  | cons b bytes ih =>
      cases memory with
      | nil => cases h
      | cons c memory =>
          have hset : (front ++ c :: memory).set front.length b =
              front ++ [b] ++ memory := by simp
          have hrest := ih (front ++ [b]) (by simpa using h)
          rw [List.length_append, List.length_singleton] at hrest
          rw [CircularBufferUint8.writeCells, hset, hrest]
          simp

theorem init_eq_fresh (k : Nat) (hpow : isPowerOfTwo (2 ^ k) = true)
    {memory : List UInt8} (h : memory.length = 2 ^ k) :
    CircularBufferUint8.init (2 ^ k) memory = .ok (fresh k).raw := by
  have hwrite := writeCells_append [] (List.replicate (2 ^ k) 0x40)
    (by rw [h, List.length_replicate])
  rw [List.nil_append, List.length_nil, List.nil_append] at hwrite
  rw [CircularBufferUint8.init, hwrite, hpow]
  rfl

/-!
## Effects on the contents
-/

@[simp] theorem length_contents (r : RingBuffer n) :
    r.contents.length = r.getSize :=
  CircularBufferUint8.contents_length r.raw

theorem getSize_le (r : RingBuffer n) : r.getSize <= n := by
  have hle := r.wellFormed.size_le
  rwa [r.capacity_eq] at hle

theorem length_contents_le (r : RingBuffer n) : r.contents.length <= n :=
  Nat.le_trans (Nat.le_of_eq r.length_contents) r.getSize_le

theorem isFull_iff (r : RingBuffer n) :
    r.isFull = true <-> r.contents.length = n := by
  simp [isFull, CircularBufferUint8.isFull, r.capacity_eq, getSize]

theorem isEmpty_iff (r : RingBuffer n) :
    r.isEmpty = true <-> r.contents = [] := by
  rw [← List.length_eq_zero_iff]
  simp [isEmpty, CircularBufferUint8.isEmpty, getSize]

theorem contents_pushBack (r : RingBuffer n) (x : UInt8) :
    (r.pushBack x).contents =
      if r.contents.length = n then
        r.contents.tail ++ [x]
      else
        r.contents ++ [x] := by
  have hpush := CircularBufferUint8.pushBack_contents r.wellFormed x
  rw [r.capacity_eq, ← CircularBufferUint8.contents_length] at hpush
  exact hpush

theorem contents_pushBack_of_lt {r : RingBuffer n} (x : UInt8)
    (h : r.contents.length < n) :
    (r.pushBack x).contents = r.contents ++ [x] := by
  rw [contents_pushBack, if_neg (Nat.ne_of_lt h)]

theorem pushBackBlock_cons (x : UInt8) (source : List UInt8)
    (r : RingBuffer n) :
    r.pushBackBlock (x :: source) = (r.pushBack x).pushBackBlock source := rfl

theorem pushBackBlock_append (first second : List UInt8) (r : RingBuffer n) :
    r.pushBackBlock (first ++ second) =
      (r.pushBackBlock first).pushBackBlock second :=
  List.foldl_append

theorem pushBack_iStart_of_lt {r : RingBuffer n} (x : UInt8)
    (h : r.contents.length < n) : (r.pushBack x).raw.iStart = r.raw.iStart := by
  have hne : r.raw.size ≠ r.raw.capacity := by
    rw [length_contents] at h
    rw [r.capacity_eq]
    exact Nat.ne_of_lt h
  simp [pushBack, CircularBufferUint8.pushBack, CircularBufferUint8.incIStop,
    hne]

theorem pushBackBlock_of_le {r : RingBuffer n} {source : List UInt8}
    (h : r.contents.length + source.length <= n) :
    (r.pushBackBlock source).contents = r.contents ++ source ∧
      (r.pushBackBlock source).raw.iStart = r.raw.iStart := by
  induction source generalizing r with
  | nil => exact ⟨(List.append_nil _).symm, rfl⟩
  | cons x source ih =>
      rw [List.length_cons] at h
      have hpush := contents_pushBack_of_lt x
        (show r.contents.length < n by omega)
      have hrest := @ih (r.pushBack x) (by
        rw [hpush, List.length_append, List.length_singleton]
        omega)
      rw [pushBackBlock_cons, hrest.left, hrest.right, hpush,
        pushBack_iStart_of_lt x (by omega), List.append_assoc]
      exact ⟨rfl, rfl⟩

theorem contents_pushBackBlock (source : List UInt8) (r : RingBuffer n) :
    (r.pushBackBlock source).contents =
      BoundedDeque.pushBackAll n r.contents source := by
  induction source generalizing r with
  | nil => rfl
  | cons x source ih =>
      rw [pushBackBlock_cons, ih, contents_pushBack,
        BoundedDeque.pushBackAll_cons, BoundedDeque.pushBack]

theorem popFront_of_cons {r : RingBuffer n} {b : UInt8} {rest : List UInt8}
    (h : r.contents = b :: rest) :
    exists r', popFront r = .ok b r' ∧ r'.contents = rest := by
  rcases liftRaw_of_ok 
    (CircularBufferUint8.popFront_of_contents r.wellFormed h) with
    ⟨r', hrun, hraw⟩
  refine ⟨r', hrun, ?_⟩
  rw [contents, hraw, CircularBufferUint8.dropFront_contents r.wellFormed]
  exact congrArg List.tail h

theorem popFront_of_nil {r : RingBuffer n} (h : r.contents = []) :
    exists r', popFront r = .error (.exception .cbPopEmpty) r' ∧
      r'.raw = r.raw :=
  liftRaw_of_error (CircularBufferUint8.popFront_of_empty h)

theorem popFrontN_of_le {r : RingBuffer n} {k : Nat}
    (h : k <= r.contents.length) :
    exists r', popFrontN k r = .ok () r' ∧
      r'.contents = r.contents.drop k := by
  have hk : k <= r.raw.size := by
    rw [length_contents] at h
    exact h
  rcases liftRaw_of_ok 
    (CircularBufferUint8.popFrontN_of_le r.wellFormed hk) with
    ⟨r', hrun, hraw⟩
  refine ⟨r', hrun, ?_⟩
  rw [contents, hraw, CircularBufferUint8.dropFrontN_contents r.wellFormed hk]
  rfl

theorem popFrontN_size {r r' : RingBuffer n} {k : Nat}
    (h : popFrontN k r = .ok () r') : r'.getSize + k <= r.getSize := by
  cases hrun : CircularBufferUint8.popFrontN k r.raw with
  | ok a buf =>
      have hlift : exists b : RingBuffer n, popFrontN k r = .ok a b ∧
          b.raw = buf := liftRaw_of_ok hrun
      rcases hlift with ⟨b, hb, rfl⟩
      have hok := hb.symm.trans h
      injection hok with ha hstate
      subst hstate
      exact CircularBufferUint8.popFrontN_size hrun
  | error e buf =>
      have hlift : exists b : RingBuffer n, popFrontN k r = .error e b ∧
          b.raw = buf := liftRaw_of_error hrun
      rcases hlift with ⟨b, hb, -⟩
      exact nomatch hb.symm.trans h

theorem removeFrontUnfinishedFrames_contents {startChar endChar : UInt8}
    (hne : endChar ≠ startChar) (r : RingBuffer n) :
    exists k r', removeFrontUnfinishedFrames startChar endChar hne r =
        .ok k r' ∧
      r'.contents = resync startChar endChar r.contents := by
  rcases CircularBufferUint8.removeFrontUnfinishedFrames_leaves hne
    r.wellFormed with ⟨k, buf, hrun, _, _, hcont⟩
  rcases liftRaw_of_ok  hrun
    with ⟨r', hlift, hraw⟩
  refine ⟨k, r', hlift, ?_⟩
  rw [contents, hraw, hcont]
  rfl

theorem findFirst_of_split {r : RingBuffer n} {v : UInt8} {a b : List UInt8}
    (hc : r.contents = a ++ v :: b) (ha : v ∉ a) :
    r.findFirst v = .ok a.length :=
  CircularBufferUint8.findFirst_of_split r.wellFormed hc ha

theorem findFirst_of_not_mem {r : RingBuffer n} {v : UInt8}
    (hv : v ∉ r.contents) : r.findFirst v = .ok r.getSize :=
  CircularBufferUint8.findFirst_of_not_mem r.wellFormed hv

theorem findLast_of_split {r : RingBuffer n} {v : UInt8} {a b : List UInt8}
    (hc : r.contents = a ++ v :: b) (hb : v ∉ b) :
    r.findLast v = .ok a.length :=
  CircularBufferUint8.findLast_of_split r.wellFormed hc hb

theorem findLast_of_not_mem {r : RingBuffer n} {v : UInt8}
    (hv : v ∉ r.contents) : r.findLast v = .ok r.getSize :=
  CircularBufferUint8.findLast_of_not_mem r.wellFormed hv

theorem getElement_of_split {r : RingBuffer n} {v : UInt8} {a b : List UInt8}
    (hc : r.contents = a ++ v :: b) : r.getElement a.length = .ok v :=
  CircularBufferUint8.getElement_of_split r.wellFormed hc

end RingBuffer
end AsciiSerialCom
