import AsciiSerialCom.CircularBuffer.Blocks
import AsciiSerialCom.CircularBuffer.Search
import AsciiSerialCom.Foundation.BoundedDeque
import AsciiSerialCom.Foundation.Runs

/-!
# The circular buffer refines a bounded deque

Any sequence of calls on an initialized circular buffer, whatever the file
descriptors deliver and accept, keeps the representation invariant, and its
contents and results are those of a deque of the same capacity.  Where the
C code transfers as much as fits in one piece of the memory, the deque transfers
some number of elements, and at least one if there is any.
-/

namespace AsciiSerialCom

open Foundation
open Foundation.StateError

/-- One call on a circular buffer.  For a file descriptor, what the system call
does is part of the operation: the bytes `read` delivers, or the number of bytes
`write` accepts, or a failure. -/
inductive BufferOp where
  | pushFront (element : UInt8)
  | pushBack (element : UInt8)
  | pushBackBlock (source : List UInt8)
  | pushBackFromFd (readResult : Option (List UInt8))
  | popFront
  | popBack
  | popFrontBlock (destSize : Nat)
  | popFrontToFd (writeResult : Option Nat)
  | deleteFirstBlock
  | removeFrontTo (value : UInt8) (inclusive : Bool)
  | removeBackTo (value : UInt8) (inclusive : Bool)
  | clear

/-- What a call gives back. -/
inductive Returned where
  | nothing
  | element (b : UInt8)
  | count (n : Nat)
  /-- bytes handed out, together with their number -/
  | block (bytes : List UInt8)
  deriving DecidableEq, Repr

namespace CircularBufferUint8

/-- Perform a call. -/
def perform : BufferOp -> CircularBufferM Returned
  | .pushFront element => do
      modify fun circBuf => circBuf.pushFront element
      return .nothing
  | .pushBack element => do
      modify fun circBuf => circBuf.pushBack element
      return .nothing
  | .pushBackBlock source => do
      modify fun circBuf => circBuf.pushBackBlock source
      return .nothing
  | .pushBackFromFd readResult => return .count (← pushBackFromFd readResult)
  | .popFront => return .element (← popFront)
  | .popBack => return .element (← popBack)
  | .popFrontBlock destSize => return .block (← popFrontBlock destSize)
  | .popFrontToFd writeResult => return .block (← popFrontToFd writeResult)
  | .deleteFirstBlock => return .count (← deleteFirstBlock)
  | .removeFrontTo value inclusive => do
      removeFrontTo value inclusive
      return .nothing
  | .removeBackTo value inclusive => do
      removeBackTo value inclusive
      return .nothing
  | .clear => do
      modify fun circBuf => circBuf.clear
      return .nothing

/-- The system calls keep to the size they are offered. -/
def SystemCallFits (circBuf : CircularBufferUint8) : BufferOp -> Prop
  | .pushBackFromFd (some bytes) => bytes.length <= circBuf.blockSizeAvailable
  | .popFrontToFd (some nWritten) => nWritten <= circBuf.firstBlockSize
  | _ => True

end CircularBufferUint8

/-!
## The deque
-/

/-- One call on a deque of capacity `n`, and what it gives back. -/
inductive DequeStep (n : Nat) :
    List UInt8 -> BufferOp -> Except Failure Returned -> List UInt8 -> Prop
  | pushFront (l : List UInt8) (b : UInt8) :
      DequeStep n l (.pushFront b) (.ok .nothing) (BoundedDeque.pushFront n l b)
  | pushBack (l : List UInt8) (b : UInt8) :
      DequeStep n l (.pushBack b) (.ok .nothing) (BoundedDeque.pushBack n l b)
  | pushBackBlock (l source : List UInt8) :
      DequeStep n l (.pushBackBlock source) (.ok .nothing)
        (BoundedDeque.pushBackAll n l source)
  | pushBackFromFd (l bytes : List UInt8) :
      DequeStep n l (.pushBackFromFd (some bytes)) (.ok (.count bytes.length))
        (BoundedDeque.pushBackAll n l bytes)
  | readFails (l : List UInt8) :
      DequeStep n l (.pushBackFromFd none)
        (.error (.exception .fileRead)) l
  | popFront (b : UInt8) (l : List UInt8) :
      DequeStep n (b :: l) .popFront (.ok (.element b)) l
  | popFrontEmpty :
      DequeStep n [] .popFront (.error (.exception .cbPopEmpty)) []
  | popBack (l : List UInt8) (b : UInt8) :
      DequeStep n (l ++ [b]) .popBack (.ok (.element b)) l
  | popBackEmpty :
      DequeStep n [] .popBack (.error (.exception .cbPopEmpty)) []
  | popFrontBlock {l out rest : List UInt8} {destSize k : Nat}
      (hpops : BoundedDeque.popFronts k l = some (out, rest))
      (hle : k <= destSize) (hpos : l ≠ [] -> 0 < destSize -> 0 < k) :
      DequeStep n l (.popFrontBlock destSize) (.ok (.block out)) rest
  | popFrontToFd {l out rest : List UInt8} {k : Nat}
      (hpops : BoundedDeque.popFronts k l = some (out, rest)) :
      DequeStep n l (.popFrontToFd (some k)) (.ok (.block out)) rest
  | writeFails (l : List UInt8) :
      DequeStep n l (.popFrontToFd none)
        (.error (.exception .fileWrite)) l
  | deleteFirstBlock {l out rest : List UInt8} {k : Nat}
      (hpops : BoundedDeque.popFronts k l = some (out, rest))
      (hpos : l ≠ [] -> 0 < k) :
      DequeStep n l .deleteFirstBlock (.ok (.count k)) rest
  | removeFrontTo (l : List UInt8) (v : UInt8) (inclusive : Bool) :
      DequeStep n l (.removeFrontTo v inclusive) (.ok .nothing)
        (BoundedDeque.removeFrontTo v inclusive l)
  | removeBackTo (l : List UInt8) (v : UInt8) (inclusive : Bool) :
      DequeStep n l (.removeBackTo v inclusive) (.ok .nothing)
        (BoundedDeque.removeBackTo v inclusive l)
  | clear (l : List UInt8) : DequeStep n l .clear (.ok .nothing) []

/-- The deque can go through the calls with the given results. -/
inductive DequeRun (n : Nat) :
    List (BufferOp × Except Failure Returned) -> List UInt8 -> Prop
  | start : DequeRun n [] []
  | step {history : List (BufferOp × Except Failure Returned)}
      {l l' : List UInt8} {op : BufferOp} {result : Except Failure Returned}
      (hrun : DequeRun n history l) (hstep : DequeStep n l op result l') :
      DequeRun n (history ++ [(op, result)]) l'

/-!
## Removing up to a value
-/

namespace CircularBufferUint8

theorem removeFrontToLoop_of_wellFormed (v : UInt8) (inclusive : Bool)
    (l : List UInt8) {buf : CircularBufferUint8} (h : buf.WellFormed)
    (hc : buf.contents = l) :
    exists buf', removeFrontToLoop v inclusive l.length buf = .ok () buf' ∧
      buf'.WellFormed ∧ buf'.capacity = buf.capacity ∧
      buf'.contents = BoundedDeque.removeFrontTo v inclusive l := by
  induction l generalizing buf with
  | nil => exact ⟨buf, rfl, h, rfl, hc⟩
  | cons x l ih =>
      have hpos : buf.size ≠ 0 := by
        rw [← contents_length, hc]
        simp
      have hfirst : buf.contents = [] ++ x :: l := hc
      have hget : observe (getElement 0) buf = .ok x buf :=
        observe_of_ok (getElement_of_split h hfirst)
      have hpop := popFront_of_contents h hc
      have hwf := dropFront_wellFormed h (by omega)
      have hrest : buf.dropFront.contents = l := by
        rw [dropFront_contents h, hc]
        rfl
      rw [List.length_cons, removeFrontToLoop, bind_of_ok (get_apply buf),
        if_neg hpos, bind_of_ok hget]
      by_cases hx : x = v
      · subst hx
        rw [if_pos rfl, BoundedDeque.removeFrontTo_cons_self]
        cases inclusive with
        | true =>
            rw [if_pos rfl, if_pos rfl, bind_of_ok hpop]
            exact ⟨_, rfl, hwf, rfl, hrest⟩
        | false => exact ⟨_, rfl, h, rfl, hc⟩
      · rw [if_neg hx, bind_of_ok hpop,
          BoundedDeque.removeFrontTo_cons_of_ne inclusive hx]
        exact ih hwf hrest

theorem removeBackToLoop_of_wellFormed (v : UInt8) (inclusive : Bool)
    (l : List UInt8) {buf : CircularBufferUint8} (h : buf.WellFormed)
    (hc : buf.contents = l) :
    exists buf', removeBackToLoop v inclusive l.length buf = .ok () buf' ∧
      buf'.WellFormed ∧ buf'.capacity = buf.capacity ∧
      buf'.contents = BoundedDeque.removeBackTo v inclusive l := by
  induction l using List.reverseRecOn generalizing buf with
  | nil => exact ⟨buf, rfl, h, rfl, hc⟩
  | append_singleton l x ih =>
      have hsize : buf.size = l.length + 1 := by
        rw [← contents_length, hc]
        simp
      have hget : observe (getElement l.length) buf = .ok x buf :=
        observe_of_ok (getElement_of_split h hc)
      have hpop := popBack_of_contents h hc
      have hwf := dropBack_wellFormed h (by omega)
      have hrest : buf.dropBack.contents = l := by
        rw [dropBack_contents, hc, List.dropLast_concat]
      rw [List.length_append, List.length_singleton, removeBackToLoop,
        bind_of_ok (get_apply buf), if_neg (by omega), hsize,
        Nat.add_sub_cancel, bind_of_ok hget]
      by_cases hx : x = v
      · subst hx
        rw [if_pos rfl, BoundedDeque.removeBackTo_snoc_self]
        cases inclusive with
        | true =>
            rw [if_pos rfl, if_pos rfl, bind_of_ok hpop]
            exact ⟨_, rfl, hwf, dropBack_capacity buf, hrest⟩
        | false => exact ⟨_, rfl, h, rfl, hc⟩
      · rw [if_neg hx, bind_of_ok hpop,
          BoundedDeque.removeBackTo_snoc_of_ne inclusive hx]
        rcases ih hwf hrest with ⟨buf', hrun, hwf', hcap, hcont⟩
        exact ⟨buf', hrun, hwf', hcap.trans (dropBack_capacity buf), hcont⟩

theorem removeFrontTo_of_wellFormed (v : UInt8) (inclusive : Bool)
    {buf : CircularBufferUint8} (h : buf.WellFormed) :
    exists buf', removeFrontTo v inclusive buf = .ok () buf' ∧
      buf'.WellFormed ∧ buf'.capacity = buf.capacity ∧
      buf'.contents =
        BoundedDeque.removeFrontTo v inclusive buf.contents := by
  have hloop := removeFrontToLoop_of_wellFormed v inclusive _ h rfl
  rwa [contents_length] at hloop

theorem removeBackTo_of_wellFormed (v : UInt8) (inclusive : Bool)
    {buf : CircularBufferUint8} (h : buf.WellFormed) :
    exists buf', removeBackTo v inclusive buf = .ok () buf' ∧
      buf'.WellFormed ∧ buf'.capacity = buf.capacity ∧
      buf'.contents =
        BoundedDeque.removeBackTo v inclusive buf.contents := by
  have hloop := removeBackToLoop_of_wellFormed v inclusive _ h rfl
  rwa [contents_length] at hloop

theorem pushBackBlock_contents {buf : CircularBufferUint8}
    (h : buf.WellFormed) (source : List UInt8) :
    (buf.pushBackBlock source).contents =
      BoundedDeque.pushBackAll buf.capacity buf.contents source := by
  induction source generalizing buf with
  | nil => rfl
  | cons x source ih =>
      rw [pushBackBlock_cons, ih (pushBack_wellFormed h x),
        BoundedDeque.pushBackAll_cons, pushBack_capacity,
        pushBack_contents h, BoundedDeque.pushBack, contents_length]

/-!
## One call
-/

/-- A call leaves a well-formed buffer of the same capacity, and the deque can
take the same step with the same result. -/
def Refines (buf : CircularBufferUint8) (op : BufferOp)
    (result : EStateM.Result Failure CircularBufferUint8 Returned) : Prop :=
  (Result.state result).WellFormed ∧
    (Result.state result).capacity = buf.capacity ∧
    DequeStep buf.capacity buf.contents op (Result.outcome result)
      (Result.state result).contents

variable {buf : CircularBufferUint8}

theorem popFrontBlock_refines (h : buf.WellFormed) (destSize : Nat) :
    Refines buf (.popFrontBlock destSize)
      (perform (.popFrontBlock destSize) buf) := by
  have hblock := buf.firstBlockSize_le
  let k := if destSize < buf.firstBlockSize then destSize
    else buf.firstBlockSize
  have hk : k <= buf.firstBlockSize ∧ k <= destSize := by
    simp only [k]
    split <;> omega
  have hrun : perform (.popFrontBlock destSize) buf =
      .ok (.block (buf.contents.take k)) (buf.dropFromFirstBlock k) := by
    have htake : buf.getFirstBlock.take k = buf.contents.take k := by
      rw [getFirstBlock_eq_take h, List.take_take, Nat.min_eq_left hk.left]
    rw [← htake]
    rfl
  rw [hrun]
  refine ⟨dropFromFirstBlock_wellFormed h (by omega),
    dropFromFirstBlock_capacity k buf, ?_⟩
  rw [Result.outcome_ok, Result.state_ok,
    dropFromFirstBlock_contents h (by omega)]
  refine .popFrontBlock
    (BoundedDeque.popFronts_of_le (by rw [contents_length]; omega))
    hk.right ?_
  intro hne hdest
  have hpos : 0 < buf.size := by
    rw [← contents_length]
    exact List.length_pos_iff.mpr hne
  have := firstBlockSize_pos h hpos
  simp only [k]
  split <;> omega

theorem popFrontToFd_refines (h : buf.WellFormed) {nWritten : Nat}
    (hfits : nWritten <= buf.firstBlockSize) :
    Refines buf (.popFrontToFd (some nWritten))
      (perform (.popFrontToFd (some nWritten)) buf) := by
  have hblock := buf.firstBlockSize_le
  have hrun : perform (.popFrontToFd (some nWritten)) buf =
      .ok (.block (buf.contents.take nWritten))
        (buf.dropFromFirstBlock nWritten) := by
    have htake : buf.getFirstBlock.take nWritten =
        buf.contents.take nWritten := by
      rw [getFirstBlock_eq_take h, List.take_take, Nat.min_eq_left hfits]
    rw [← htake]
    rfl
  rw [hrun]
  refine ⟨dropFromFirstBlock_wellFormed h (by omega),
    dropFromFirstBlock_capacity nWritten buf, ?_⟩
  rw [Result.outcome_ok, Result.state_ok,
    dropFromFirstBlock_contents h (by omega)]
  exact .popFrontToFd
    (BoundedDeque.popFronts_of_le (by rw [contents_length]; omega))

theorem deleteFirstBlock_refines (h : buf.WellFormed) :
    Refines buf .deleteFirstBlock (perform .deleteFirstBlock buf) := by
  rcases deleteFirstBlock_of_wellFormed h with ⟨buf', hrun, hwf, hcap, hcont⟩
  have hperform : perform .deleteFirstBlock buf =
      .ok (.count buf.firstBlockSize) buf' := bind_of_ok hrun
  rw [hperform]
  refine ⟨hwf, hcap, ?_⟩
  rw [Result.outcome_ok, Result.state_ok, hcont]
  refine .deleteFirstBlock (BoundedDeque.popFronts_of_le ?_) ?_
  · rw [contents_length]
    exact buf.firstBlockSize_le
  · intro hne
    apply firstBlockSize_pos h
    rw [← contents_length]
    exact List.length_pos_iff.mpr hne

theorem popFront_refines (h : buf.WellFormed) :
    Refines buf .popFront (perform .popFront buf) := by
  cases hc : buf.contents with
  | nil =>
      have hrun : perform .popFront buf =
          .error (.exception .cbPopEmpty) buf :=
        bind_of_error (popFront_of_empty hc)
      rw [hrun]
      refine ⟨h, rfl, ?_⟩
      rw [Result.state_error, Result.outcome_error, hc]
      exact .popFrontEmpty
  | cons b rest =>
      have hpos : 0 < buf.size := by
        rw [← contents_length, hc]
        simp
      have hrun : perform .popFront buf = .ok (.element b) buf.dropFront :=
        bind_of_ok (popFront_of_contents h hc)
      rw [hrun]
      refine ⟨dropFront_wellFormed h hpos, rfl, ?_⟩
      rw [Result.state_ok, Result.outcome_ok, dropFront_contents h, hc]
      exact .popFront b rest

theorem popBack_refines (h : buf.WellFormed) :
    Refines buf .popBack (perform .popBack buf) := by
  rcases List.eq_nil_or_concat buf.contents with hc | ⟨front, b, hc⟩
  · have hrun : perform .popBack buf = .error (.exception .cbPopEmpty) buf :=
      bind_of_error (popBack_of_empty hc)
    rw [hrun]
    refine ⟨h, rfl, ?_⟩
    rw [Result.state_error, Result.outcome_error, hc]
    exact .popBackEmpty
  · rw [List.concat_eq_append] at hc
    have hpos : 0 < buf.size := by
      rw [← contents_length, hc]
      simp
    have hrun : perform .popBack buf = .ok (.element b) buf.dropBack :=
      bind_of_ok (popBack_of_contents h hc)
    rw [hrun]
    refine ⟨dropBack_wellFormed h hpos, dropBack_capacity buf, ?_⟩
    rw [Result.state_ok, Result.outcome_ok, dropBack_contents, hc,
      List.dropLast_concat]
    exact .popBack front b

/-- **Every call refines a step of the deque.** -/
theorem perform_refines (h : buf.WellFormed) {op : BufferOp}
    (hfits : SystemCallFits buf op) : Refines buf op (perform op buf) := by
  cases op with
  | pushFront b =>
      refine ⟨pushFront_wellFormed h b, pushFront_capacity buf b, ?_⟩
      have hstep := DequeStep.pushFront (n := buf.capacity) buf.contents b
      rw [BoundedDeque.pushFront, contents_length, ← pushFront_contents h]
        at hstep
      exact hstep
  | pushBack b =>
      refine ⟨pushBack_wellFormed h b, pushBack_capacity buf b, ?_⟩
      have hstep := DequeStep.pushBack (n := buf.capacity) buf.contents b
      rw [BoundedDeque.pushBack, contents_length, ← pushBack_contents h]
        at hstep
      exact hstep
  | pushBackBlock source =>
      refine ⟨pushBackBlock_wellFormed h source,
        pushBackBlock_capacity buf source, ?_⟩
      have hstep :=
        DequeStep.pushBackBlock (n := buf.capacity) buf.contents source
      rw [← pushBackBlock_contents h] at hstep
      exact hstep
  | pushBackFromFd readResult =>
      cases readResult with
      | none => exact ⟨h, rfl, .readFails buf.contents⟩
      | some bytes =>
          have hrun : perform (.pushBackFromFd (some bytes)) buf =
              .ok (.count bytes.length) (buf.pushBackBlock bytes) :=
            bind_of_ok (pushBackFromFd_eq h hfits)
          rw [hrun]
          refine ⟨pushBackBlock_wellFormed h bytes,
            pushBackBlock_capacity buf bytes, ?_⟩
          have hstep :=
            DequeStep.pushBackFromFd (n := buf.capacity) buf.contents bytes
          rw [← pushBackBlock_contents h] at hstep
          exact hstep
  | popFront => exact popFront_refines h
  | popBack => exact popBack_refines h
  | popFrontBlock destSize => exact popFrontBlock_refines h destSize
  | popFrontToFd writeResult =>
      cases writeResult with
      | none => exact ⟨h, rfl, .writeFails buf.contents⟩
      | some nWritten => exact popFrontToFd_refines h hfits
  | deleteFirstBlock => exact deleteFirstBlock_refines h
  | removeFrontTo v inclusive =>
      rcases removeFrontTo_of_wellFormed v inclusive h with
        ⟨buf', hrun, hwf, hcap, hcont⟩
      have hperform : perform (.removeFrontTo v inclusive) buf =
          .ok .nothing buf' := bind_of_ok hrun
      rw [hperform]
      refine ⟨hwf, hcap, ?_⟩
      rw [Result.state_ok, Result.outcome_ok, hcont]
      exact .removeFrontTo buf.contents v inclusive
  | removeBackTo v inclusive =>
      rcases removeBackTo_of_wellFormed v inclusive h with
        ⟨buf', hrun, hwf, hcap, hcont⟩
      have hperform : perform (.removeBackTo v inclusive) buf =
          .ok .nothing buf' := bind_of_ok hrun
      rw [hperform]
      refine ⟨hwf, hcap, ?_⟩
      rw [Result.state_ok, Result.outcome_ok, hcont]
      exact .removeBackTo buf.contents v inclusive
  | clear => exact ⟨clear_wellFormed h, rfl, .clear buf.contents⟩

/-!
## Initialization
-/

theorem isPowerOfTwo_iff {x : Nat} (hx : x < sizeModulus) :
    isPowerOfTwo x = true <-> exists k, x = 2 ^ k := by
  rcases Nat.eq_zero_or_pos x with rfl | hpos
  · simp only [isPowerOfTwo, bne_self_eq_false, Bool.false_and,
      Bool.false_eq_true, false_iff, not_exists]
    intro k hk
    exact Nat.ne_of_lt (Nat.two_pow_pos k) hk
  · have hneg : sizeAdd (sizeNot x) 1 = 2 ^ 64 - (x - 1 + 1) := by
      simp only [sizeAdd, sizeNot, sizeModulus] at hx ⊢
      omega
    have hbits : x &&& sizeAdd (sizeNot x) 1 = x <-> x &&& (x - 1) = 0 := by
      rw [hneg]
      have hlt : x - 1 < 2 ^ 64 := by
        rw [sizeModulus] at hx
        omega
      have hsub : x < 2 ^ 64 := hx
      constructor
      · intro h
        apply Nat.eq_of_testBit_eq
        intro i
        have hi := congrArg (fun y => y.testBit i) h
        simp only [Nat.testBit_and, Nat.testBit_two_pow_sub_succ hlt] at hi
        rw [Nat.testBit_and, Nat.zero_testBit]
        cases hxi : x.testBit i <;> cases hyi : (x - 1).testBit i <;>
          simp_all
      · intro h
        apply Nat.eq_of_testBit_eq
        intro i
        have hi := congrArg (fun y => y.testBit i) h
        simp only [Nat.testBit_and, Nat.zero_testBit] at hi
        rw [Nat.testBit_and, Nat.testBit_two_pow_sub_succ hlt]
        cases hxi : x.testBit i with
        | false => rfl
        | true =>
            have hi64 : i < 64 := by
              by_contra hge
              rw [Nat.testBit_lt_two_pow (Nat.lt_of_lt_of_le hsub
                (Nat.pow_le_pow_right (by decide) (by omega)))] at hxi
              cases hxi
            rw [hxi, Bool.true_and] at hi
            simp [hi64, hi]
    have hne : x ≠ 0 := by omega
    rw [isPowerOfTwo, Bool.and_eq_true, bne_iff_ne, beq_iff_eq, hbits,
      Nat.and_sub_one_eq_zero_iff_isPowerOfTwo hne]
    exact ⟨fun h => h.right, fun h => ⟨hne, h⟩⟩

theorem writeCells_length (buffer : List UInt8) (offset : Nat)
    (bytes : List UInt8) :
    (writeCells buffer offset bytes).length = buffer.length := by
  induction bytes generalizing buffer offset with
  | nil => rfl
  | cons b bytes ih => rw [writeCells, ih, List.length_set]

theorem init_ok {capacity : Nat} {memory : List UInt8}
    (hcap : capacity < sizeModulus) (hmem : memory.length = capacity)
    {buf : CircularBufferUint8} (h : init capacity memory = .ok buf) :
    buf.WellFormed ∧ buf.capacity = capacity ∧ buf.contents = [] := by
  unfold init at h
  cases hpow : isPowerOfTwo capacity with
  | false =>
      rw [hpow] at h
      cases h
  | true =>
      rw [hpow] at h
      injection h with h
      have hpow' := (isPowerOfTwo_iff hcap).mp hpow
      rcases hpow' with ⟨k, hk⟩
      have hpos : 0 < capacity := hk ▸ Nat.two_pow_pos k
      subst h
      refine ⟨⟨⟨k, hk⟩, Nat.zero_le _, hpos, ?_, ?_⟩, rfl, rfl⟩
      · simp
      · rw [writeCells_length, hmem]

theorem init_isOk_iff {capacity : Nat} (hcap : capacity < sizeModulus)
    (memory : List UInt8) :
    (init capacity memory).isOk = true <-> exists k, capacity = 2 ^ k := by
  rw [← isPowerOfTwo_iff hcap, init]
  cases isPowerOfTwo capacity <;> simp [Except.isOk, Except.toBool]

/-!
## Runs
-/

/-- A buffer together with the calls made so far and their results. -/
structure Session where
  buf : CircularBufferUint8
  history : List (BufferOp × Except Failure Returned)

namespace Session

def step (s : Session) (op : BufferOp) : Session :=
  { buf := Result.state (perform op s.buf)
    history := s.history ++ [(op, Result.outcome (perform op s.buf))] }

/-- The calls a caller and the system can make next. -/
def Admits (s : Session) (op : BufferOp) : Prop := SystemCallFits s.buf op

/-- The buffer is well formed and the deque can account for it. -/
def Refined (n : Nat) (s : Session) : Prop :=
  s.buf.WellFormed ∧ s.buf.capacity = n ∧ DequeRun n s.history s.buf.contents

theorem step_refined {n : Nat} {s : Session} {op : BufferOp}
    (h : Refined n s) (hadmits : Admits s op) : Refined n (s.step op) := by
  rcases h with ⟨hwf, hcap, hrun⟩
  rcases perform_refines hwf hadmits with ⟨hwf', hcap', hstep⟩
  rw [hcap] at hcap' hstep
  exact ⟨hwf', hcap', .step hrun hstep⟩

theorem run_history (s : Session) (ops : List BufferOp) :
    (Run.run step s ops).history.map Prod.fst =
      s.history.map Prod.fst ++ ops := by
  induction ops generalizing s with
  | nil => simp
  | cons op ops ih =>
      rw [Run.run_cons, ih]
      simp [step]

end Session

/-- **Initialization accepts exactly the powers of two, and every run from
there refines a bounded deque of that capacity.** -/
theorem runs_refine_deque {capacity : Nat} (memory : List UInt8)
    (hcap : capacity < sizeModulus) (hmem : memory.length = capacity) :
    ((init capacity memory).isOk = true <-> exists k, capacity = 2 ^ k) ∧
      forall buf, init capacity memory = .ok buf ->
        forall ops,
          Run.Allowed Session.step Session.Admits
              { buf := buf, history := [] } ops ->
            let s := Run.run Session.step { buf := buf, history := [] } ops
            (s.buf.size <= capacity ∧ s.buf.iStart < capacity ∧
                s.buf.iStop < capacity ∧
                s.buf.iStop = (s.buf.iStart + s.buf.size) % capacity) ∧
              s.history.map Prod.fst = ops ∧
              DequeRun capacity s.history s.buf.contents := by
  refine ⟨init_isOk_iff hcap memory, ?_⟩
  intro buf hinit ops hallowed s
  rcases init_ok hcap hmem hinit with ⟨hwf, hcapacity, hempty⟩
  have hstart : Session.Refined capacity { buf := buf, history := [] } := by
    refine ⟨hwf, hcapacity, ?_⟩
    rw [hempty]
    exact .start
  rcases hallowed.invariant (fun _ _ => Session.step_refined) hstart with
    ⟨hwf', hcap', hrun⟩
  refine ⟨⟨?_, ?_, ?_, ?_⟩, Session.run_history _ ops, hrun⟩
  · exact hcap' ▸ hwf'.size_le
  · exact hcap' ▸ hwf'.iStart_lt
  · exact hcap' ▸ hwf'.iStop_lt
  · exact hcap' ▸ hwf'.iStop_eq

/-- Three pushes into two cells, and a read that fails. -/
theorem runs_refine_deque_two_cells :
    DequeRun 2
      [(.pushBack 1, .ok .nothing), (.pushBackBlock [2, 3], .ok .nothing),
        (.pushBackFromFd none, .error (.exception .fileRead)),
        (.popFront, .ok (.element 2))]
      [3] :=
  ((runs_refine_deque [0, 0] (by decide) rfl).right _ rfl
    [.pushBack 1, .pushBackBlock [2, 3], .pushBackFromFd none, .popFront]
    ⟨trivial, trivial, trivial, trivial, trivial⟩).right.right
end CircularBufferUint8
end AsciiSerialCom
