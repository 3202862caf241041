import AsciiSerialCom.CircularBuffer.DequeRefinement

/-!
# Block access

`circular_buffer_get_blocks_uint8` promises the memory of a range of elements,
in one block or two, and an exception for a range that is not in the buffer.  It
does not bring the start of the range back into the memory, and the sum by which
it judges the range may wrap.  What is said here is about all buffers that any
calls can lead to.
-/

namespace AsciiSerialCom
namespace CircularBufferUint8

open Foundation Run
open Foundation.StateError

/-- A buffer that calls lead to after initialization. -/
def Reachable (buf : CircularBufferUint8) : Prop :=
  exists (capacity : Nat) (memory : List UInt8) (first : CircularBufferUint8)
    (ops : List BufferOp),
    capacity < sizeModulus ∧ memory.length = capacity ∧
      init capacity memory = .ok first ∧
      Allowed Session.step Session.Admits { buf := first, history := [] } ops ∧
      (run Session.step { buf := first, history := [] } ops).buf = buf

variable {buf : CircularBufferUint8}

theorem Reachable.wellFormed (h : buf.Reachable) :
    buf.WellFormed ∧ buf.capacity <= 2 ^ 63 := by
  rcases h with ⟨capacity, memory, first, ops, hcap, hmem, hinit, hrun, rfl⟩
  rcases init_ok hcap hmem hinit with ⟨hwf, hcapacity, hempty⟩
  have hstart : Session.Refined capacity { buf := first, history := [] } := by
    refine ⟨hwf, hcapacity, ?_⟩
    rw [hempty]
    exact .start
  rcases hrun.invariant (fun _ _ => Session.step_refined) hstart with
    ⟨hwf', hcap', -⟩
  refine ⟨hwf', ?_⟩
  rcases hwf'.capacity_pow with ⟨k, hk⟩
  have hk64 : k < 64 := by
    rw [← hcap', hk] at hcap
    exact (Nat.pow_lt_pow_iff_right (by decide)).mp hcap
  rw [hk]
  exact Nat.pow_le_pow_right (by decide) (by omega)

/-- The blocks are those of the range: one or two, all of them in the memory,
with the elements of the range in order. -/
def BlocksOf (buf : CircularBufferUint8) (iStart nElem : Nat)
    (blocks : List (Nat × Nat)) : Prop :=
  (blocks.length = 1 ∨ blocks.length = 2) ∧
    (forall block, block ∈ blocks -> block.1 + block.2 <= buf.capacity) ∧
    (blocks.map Prod.snd).sum = nElem ∧
    exists bytes, buf.readBlocks blocks = .ok bytes ∧ bytes.length = nElem ∧
      forall i, i < nElem -> exists b, bytes[i]? = some b ∧
        buf.getElement (iStart + i) = .ok b

/-- A range in the buffer is accessed, any other is refused. -/
def AccessExact (buf : CircularBufferUint8) (iStart nElem : Nat) : Prop :=
  (iStart + nElem <= buf.size ->
    exists blocks, buf.getBlocks iStart nElem = .ok blocks ∧
      buf.BlocksOf iStart nElem blocks) ∧
    (buf.size < iStart + nElem ->
      buf.getBlocks iStart nElem = .error (.exception .cbOob))

/-- The range does not start behind the end of the memory, and if it is not in
the buffer, it is not so long that its end wraps back to there. -/
def RangeFits (buf : CircularBufferUint8) (iStart nElem : Nat) : Prop :=
  (iStart + nElem <= buf.size -> buf.iStart + iStart <= buf.capacity) ∧
    (buf.size < iStart + nElem ->
      iStart + nElem < sizeModulus ∨ buf.size + sizeModulus < iStart + nElem)

instance (buf : CircularBufferUint8) (iStart nElem : Nat) :
    Decidable (buf.RangeFits iStart nElem) :=
  inferInstanceAs (Decidable (_ ∧ _))

theorem blocksOf_of_le (hwf : buf.WellFormed) (hcap : buf.capacity <= 2 ^ 63)
    {s n : Nat} (h : s + n <= buf.size)
    (hstart : buf.iStart + s <= buf.capacity) :
    exists blocks, buf.getBlocks s n = .ok blocks ∧
      buf.BlocksOf s n blocks := by
  have hle := hwf.size_le
  rcases readBlocks_getBlocks hwf hcap h hstart with ⟨blocks, hblocks, hread⟩
  refine ⟨blocks, hblocks, ?_⟩
  have hbytes : exists bytes, buf.readBlocks blocks = .ok bytes ∧
      bytes.length = n ∧ forall i, i < n -> exists b, bytes[i]? = some b ∧
        buf.getElement (s + i) = .ok b := by
    refine ⟨_, hread, ?_, ?_⟩
    · rw [List.length_take, List.length_drop, contents_length]
      omega
    · intro i hi
      have hlt : s + i < buf.contents.length := by
        rw [contents_length]
        omega
      have hget : buf.contents[s + i]? = some buf.contents[s + i] :=
        List.getElem?_eq_getElem hlt
      refine ⟨_, ?_, getElement_of_getElem? hwf hget⟩
      rw [List.getElem?_take_of_lt hi, List.getElem?_drop, hget]
  rw [getBlocks_of_le hwf hcap h hstart] at hblocks
  by_cases hwrap : buf.capacity < buf.iStart + s + n
  · rw [if_pos hwrap] at hblocks
    cases hblocks
    refine ⟨Or.inr rfl, ?_, ?_, hbytes⟩
    · intro block hblock
      rcases List.mem_cons.mp hblock with rfl | hblock
      · simp only
        omega
      · rw [List.mem_singleton.mp hblock]
        simp only
        omega
    · simp only [List.map_cons, List.map_nil, List.sum_cons, List.sum_nil]
      omega
  · rw [if_neg hwrap] at hblocks
    cases hblocks
    refine ⟨Or.inl rfl, ?_, by simp, hbytes⟩
    intro block hblock
    rw [List.mem_singleton.mp hblock]
    simp only
    omega

/-- A range behind the end of the memory gets a block outside of it. -/
theorem not_blocksOf_of_lt (hwf : buf.WellFormed)
    (hcap : buf.capacity <= 2 ^ 63) {s n : Nat} (h : s + n <= buf.size)
    (hstart : buf.capacity < buf.iStart + s) :
    ¬ exists blocks, buf.getBlocks s n = .ok blocks ∧
      buf.BlocksOf s n blocks := by
  rintro ⟨blocks, hblocks, -, -, -, bytes, hread, -⟩
  rcases readBlocks_getBlocks_of_lt hwf hcap h hstart with
    ⟨blocks', hblocks', hread'⟩
  rw [hblocks] at hblocks'
  cases hblocks'
  rw [hread] at hread'
  cases hread'

theorem getBlocks_eq_error_iff {s n : Nat} :
    buf.getBlocks s n = .error (.exception .cbOob) <->
      buf.size < sizeAdd s n := by
  unfold getBlocks
  rw [getSize]
  split
  · rename_i hlt
    exact iff_of_true rfl hlt
  · rename_i hlt
    simp only
    split <;> simp [hlt]

/-- **Block access is exact for the ranges that fit, and for no others.** -/
theorem accessExact_iff_rangeFits (h : buf.Reachable) {iStart nElem : Nat}
    (hstart : iStart < sizeModulus) (helem : nElem < sizeModulus) :
    buf.AccessExact iStart nElem <-> buf.RangeFits iStart nElem := by
  rcases h.wellFormed with ⟨hwf, hcap⟩
  have hle := hwf.size_le
  rw [AccessExact, RangeFits, getBlocks_eq_error_iff]
  apply and_congr
  · apply forall_congr'
    intro hin
    constructor
    · intro hexact
      by_contra hlt
      exact not_blocksOf_of_lt hwf hcap hin (Nat.not_le.mp hlt) hexact
    · exact blocksOf_of_le hwf hcap hin
  · apply forall_congr'
    intro hout
    rw [sizeAdd]
    rw [sizeModulus] at hstart helem ⊢
    omega

/-- The buffer of four cells that initialization leaves. -/
def fourCells : CircularBufferUint8 :=
  { capacity := 4
    size := 0
    iStart := 0
    iStop := 0
    buffer := [0x40, 0x40, 0x40, 0x40] }

/-- Fill four cells, remove three elements, and fill them again. -/
def turningOps : List BufferOp :=
  [.pushBackBlock [1, 2, 3, 4], .popFront, .popFront, .popFront,
    .pushBackBlock [5, 6, 7]]

/-- The full buffer whose front is in its last cell. -/
def turnedCells : CircularBufferUint8 :=
  (run Session.step { buf := fourCells, history := [] } turningOps).buf

theorem reachable_turnedCells : turnedCells.Reachable :=
  ⟨4, [0, 0, 0, 0], fourCells, turningOps, by decide, rfl, rfl,
    ⟨trivial, trivial, trivial, trivial, trivial, trivial⟩, rfl⟩

/-- The first two elements lie on both sides of the end of the memory. -/
theorem accessExact_iff_rangeFits_of_two :
    turnedCells.AccessExact 0 2 <-> turnedCells.RangeFits 0 2 :=
  accessExact_iff_rangeFits reachable_turnedCells (by decide) (by decide)

/-- The third element lies behind it. -/
theorem not_accessExact_of_third :
    ¬ forall buf : CircularBufferUint8, buf.Reachable ->
      forall iStart nElem, iStart < sizeModulus -> nElem < sizeModulus ->
        buf.AccessExact iStart nElem := by
  intro h
  have hexact := h turnedCells reachable_turnedCells 2 1 (by decide) (by decide)
  rcases reachable_turnedCells.wellFormed with ⟨hwf, hcap⟩
  have hin : 2 + 1 <= turnedCells.size := by decide
  exact not_blocksOf_of_lt hwf hcap hin (by decide) (hexact.left hin)

end CircularBufferUint8
end AsciiSerialCom
