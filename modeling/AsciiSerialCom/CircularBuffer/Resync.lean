import AsciiSerialCom.CircularBuffer.Search
import AsciiSerialCom.Foundation.Delimited

/-!
# Resynchronization of a circular buffer

`circular_buffer_remove_front_unfinished_frames_uint8` looks only at the first
end character; by induction over the segments it discards, it keeps the suffix
that resynchronization of the contents keeps.
-/

namespace AsciiSerialCom
namespace CircularBufferUint8

open Foundation
open Foundation.StateError
open Foundation.Delimited

/-- A result that returns and leaves a well-formed buffer with the given
contents. -/
def Leaves (buf : CircularBufferUint8)
    (result : EStateM.Result Failure CircularBufferUint8 α)
    (l : List UInt8) : Prop :=
  exists a buf', result = .ok a buf' ∧ buf'.WellFormed ∧
    buf'.capacity = buf.capacity ∧ buf'.contents = l

/-- A result that leaves `l`, and returns the number of elements removed, but for
`missed` of them. -/
def Removes (buf : CircularBufferUint8)
    (result : EStateM.Result Failure CircularBufferUint8 Nat)
    (l : List UInt8) (missed : Nat) : Prop :=
  exists n buf', result = .ok n buf' ∧ buf'.WellFormed ∧
    buf'.capacity = buf.capacity ∧ buf'.contents = l ∧
      n + missed + buf'.size = buf.size

theorem Removes.leaves {buf : CircularBufferUint8}
    {result : EStateM.Result Failure CircularBufferUint8 Nat}
    {l : List UInt8} {missed : Nat} (h : Removes buf result l missed) :
    Leaves buf result l := by
  rcases h with ⟨n, buf', hrun, hwf, hcap, hcontents, -⟩
  exact ⟨n, buf', hrun, hwf, hcap, hcontents⟩

theorem removes_drop {buf : CircularBufferUint8} (h : buf.WellFormed)
    {n : Nat} (hn : n <= buf.size) :
    Removes buf ((do popFrontN n; pure n : CircularBufferM Nat) buf)
      (buf.contents.drop n) 0 := by
  have hcontents := dropFrontN_contents h hn
  refine ⟨n, dropFrontN n buf, ?_, dropFrontN_wellFormed h hn,
    dropFrontN_capacity n buf, hcontents, ?_⟩
  · rw [bind_of_ok (popFrontN_of_le h hn)]
    rfl
  · rw [← contents_length (dropFrontN n buf), hcontents, List.length_drop,
      contents_length]
    omega

/-- Removing what stands before an open frame is resynchronization. -/
theorem removes_drop_of_open {startChar endChar : UInt8}
    (hne : endChar ≠ startChar) {buf : CircularBufferUint8}
    (h : buf.WellFormed) {front rest : List UInt8}
    (hc : buf.contents = front ++ startChar :: rest) (hfront : endChar ∉ front)
    (hopen : startChar ∉ (cutAt endChar rest).1) :
    Removes buf
      ((do popFrontN front.length; pure front.length : CircularBufferM Nat) buf)
      (resync startChar endChar buf.contents)
      (bareStops startChar endChar endChar buf.contents) := by
  have hlt : front.length <= buf.size := by
    rw [← contents_length, hc]
    simp
  have hremoves := removes_drop h hlt
  rw [hc, List.drop_left' rfl] at hremoves
  rw [hc, resync_append_of_open hfront hopen hne, bareStops_of_start hfront]
  exact hremoves

/-- Without an end, the last start, if any, is where a frame may grow. -/
theorem removeFrontUnfinishedFrames_removes_of_no_end
    {startChar endChar : UInt8} (hne : endChar ≠ startChar)
    {buf : CircularBufferUint8} (h : buf.WellFormed)
    (hend : endChar ∉ buf.contents) :
    Removes buf (removeFrontUnfinishedFrames startChar endChar buf)
      (resync startChar endChar buf.contents)
      (bareStops startChar endChar endChar buf.contents) := by
  rw [removeFrontUnfinishedFrames, findFirst_of_not_mem h hend]
  simp only [Nat.le_refl, if_true]
  rcases not_mem_or_split_last startChar buf.contents with
    hstart | ⟨front, rest, hc, hrest⟩
  · rw [findLast_of_not_mem h hstart]
    simp only [Nat.le_refl, if_true]
    refine ⟨_, _, rfl, clear_wellFormed h, rfl, ?_, ?_⟩
    · have hnone : resync startChar endChar (buf.contents ++ []) =
          resync startChar endChar [] := resync_append_of_not_mem hstart
      rw [List.append_nil] at hnone
      rw [clear_contents, hnone, resync]
    · rw [bareStops_of_not_mem hend]
      rfl
  · have hlt : front.length < buf.size := by
      rw [← contents_length, hc]
      simp
    rw [findLast_of_split h hc hrest]
    simp only [Nat.not_le.mpr hlt, if_false]
    have hfront : endChar ∉ front := fun hmem => hend (by simp [hc, hmem])
    have hopen : startChar ∉ (cutAt endChar rest).1 :=
      fun hmem => hrest (cutAt_fst_subset _ _ _ hmem)
    exact removes_drop_of_open hne h hc hfront hopen

section Branches

variable {startChar endChar : UInt8} {buf : CircularBufferUint8}

/-- An end at the front belongs to no frame. -/
theorem removeFrontUnfinishedFrames_of_front_end (h : buf.WellFormed)
    {rest : List UInt8} (hc : buf.contents = endChar :: rest) :
    removeFrontUnfinishedFrames startChar endChar buf =
      removeFrontUnfinishedFrames startChar endChar buf.dropFront := by
  have hlen : buf.size = rest.length + 1 := by
    rw [← contents_length, hc, List.length_cons]
  have hpop := popFront_of_contents h hc
  rw [removeFrontUnfinishedFrames,
    findFirst_of_split h (a := []) hc List.not_mem_nil]
  have hnot : ¬ buf.size <= 0 := by omega
  simp only [List.length_nil, hnot, if_true, if_false]
  split
  · rename_i heq
    rw [hpop] at heq
    cases heq
  · rename_i heq
    rw [hpop] at heq
    cases heq
    rfl

section Segment

variable {a b rest : List UInt8}

/-- A segment without a start is dropped together with its end. -/
theorem removeFrontUnfinishedFrames_of_segment (h : buf.WellFormed)
    (hc : buf.contents = a ++ endChar :: b) (ha : endChar ∉ a) (hne : a ≠ [])
    (hstart : startChar ∉ a) {n : Nat} {buf' : CircularBufferUint8}
    (hrun : removeFrontUnfinishedFrames startChar endChar
      (dropFrontN (a.length + 1) buf) = .ok n buf') :
    removeFrontUnfinishedFrames startChar endChar buf =
      .ok (a.length + 1 + n) buf' := by
  have hlen : buf.size = a.length + (b.length + 1) := by
    rw [← contents_length, hc, List.length_append, List.length_cons]
  have hpos := List.length_pos_of_ne_nil hne
  have hpop := popFrontN_of_le h (n := a.length + 1) (by omega)
  rw [removeFrontUnfinishedFrames, findFirst_of_split h hc ha]
  simp only
  rw [if_neg (by omega), if_neg (by omega),
    scanBack_of_not_mem h hc hne hstart]
  simp only
  split
  · rename_i heq
    rw [hpop] at heq
    cases heq
  · rename_i heq
    rw [hpop] at heq
    cases heq
    rw [hrun]

/-- The last start before the end is where the first frame begins. -/
theorem removeFrontUnfinishedFrames_of_start (h : buf.WellFormed)
    (hc : buf.contents = a ++ startChar :: (b ++ endChar :: rest))
    (ha : endChar ∉ a ++ startChar :: b) (hb : startChar ∉ b) :
    removeFrontUnfinishedFrames startChar endChar buf =
      (do popFrontN a.length; pure a.length : CircularBufferM Nat) buf := by
  have hsplit : buf.contents = (a ++ startChar :: b) ++ endChar :: rest := by
    rw [hc, List.append_assoc, List.cons_append]
  have hlen : buf.size =
      (a ++ startChar :: b).length + (rest.length + 1) := by
    rw [← contents_length, hsplit, List.length_append, List.length_cons]
  have hpos : 0 < (a ++ startChar :: b).length := by simp
  rw [removeFrontUnfinishedFrames, findFirst_of_split h hsplit ha]
  simp only
  rw [if_neg (by omega), if_neg (by omega), scanBack_of_split h hsplit hb]

end Segment
end Branches

/-- What is removed is counted, but for the ends that are removed from the front
one by one. -/
theorem removeFrontUnfinishedFrames_removes {startChar endChar : UInt8}
    (hne : endChar ≠ startChar) {buf : CircularBufferUint8}
    (h : buf.WellFormed) :
    Removes buf (removeFrontUnfinishedFrames startChar endChar buf)
      (resync startChar endChar buf.contents)
      (bareStops startChar endChar endChar buf.contents) := by
  induction hsize : buf.size using Nat.strongRecOn generalizing buf with
  | ind size ih =>
  rcases not_mem_or_split endChar buf.contents with hend | ⟨a, b, hc, ha⟩
  · exact removeFrontUnfinishedFrames_removes_of_no_end hne h hend
  have hlen : buf.size = a.length + (b.length + 1) := by
    rw [← contents_length, hc, List.length_append, List.length_cons]
  by_cases hnil : a = []
  · -- the end at the front is not counted
    subst hnil
    have hcontents : buf.dropFront.contents = b := by
      rw [dropFront_contents h, hc]
      rfl
    rcases ih buf.dropFront.size (by rw [dropFront_size]; omega)
      (dropFront_wellFormed h (by omega)) rfl with
      ⟨n, buf', hrun, hwf, hcap, hcont, hcount⟩
    rw [hcontents] at hcont hcount
    rw [dropFront_size] at hcount
    rw [removeFrontUnfinishedFrames_of_front_end h hc, hc, List.nil_append,
      resync, if_neg (by simp [hne]), bareStops_stop hne]
    exact ⟨n, buf', hrun, hwf, hcap, hcont, by omega⟩
  rcases not_mem_or_split_last startChar a with
    hstart | ⟨front, body, rfl, hbody⟩
  · have hle : a.length + 1 <= buf.size := by omega
    have hcontents : (dropFrontN (a.length + 1) buf).contents = b := by
      rw [dropFrontN_contents h hle, hc, List.append_cons,
        List.drop_left' (by simp)]
    have hleft : (dropFrontN (a.length + 1) buf).size = b.length := by
      rw [← contents_length, hcontents]
    rcases ih (dropFrontN (a.length + 1) buf).size (by omega)
      (dropFrontN_wellFormed h hle) rfl with
      ⟨n, buf', hrun, hwf, hcap, hcont, hcount⟩
    rw [hcontents] at hcont
    rw [hcontents, hleft] at hcount
    rw [removeFrontUnfinishedFrames_of_segment h hc ha hnil hstart hrun, hc,
      List.append_cons, resync_append_of_not_mem (by simp [hstart, hne.symm]),
      ← List.append_cons, bareStops_of_segment hne hnil hstart ha]
    refine ⟨_, buf', rfl, hwf, ?_, hcont, by omega⟩
    rw [hcap, dropFrontN_capacity]
  · have hends : endChar ∉ front ∧ endChar ∉ body := by
      simp only [List.mem_append, List.mem_cons, not_or] at ha
      exact ⟨ha.left, ha.right.right⟩
    have hopen : startChar ∉ (cutAt endChar (body ++ endChar :: b)).1 := by
      rwa [cutAt_of_split hends.right]
    rw [List.append_assoc] at hc
    rw [removeFrontUnfinishedFrames_of_start h hc ha hbody]
    exact removes_drop_of_open hne h hc hends.left hopen

theorem removeFrontUnfinishedFrames_leaves {startChar endChar : UInt8}
    (hne : endChar ≠ startChar) {buf : CircularBufferUint8}
    (h : buf.WellFormed) :
    Leaves buf (removeFrontUnfinishedFrames startChar endChar buf)
      (resync startChar endChar buf.contents) :=
  (removeFrontUnfinishedFrames_removes hne h).leaves

/-- **Resynchronization of a buffer keeps exactly the right suffix**, with every
frame that is complete or may still grow, and a second time it keeps that. -/
theorem removeFrontUnfinishedFrames_resynchronizes {startChar endChar : UInt8}
    (hne : endChar ≠ startChar) {buf : CircularBufferUint8}
    (h : buf.WellFormed) :
    exists n buf',
      removeFrontUnfinishedFrames startChar endChar buf = .ok n buf' ∧
        Resynchronized startChar endChar buf.contents buf'.contents ∧
        (forall a b, buf.contents = a ++ b ->
          StartsFrame startChar endChar b ∨ GrowsFrame startChar endChar b ->
            exists c, buf'.contents = c ++ b) ∧
        exists m buf'',
          removeFrontUnfinishedFrames startChar endChar buf' = .ok m buf'' ∧
            buf''.contents = buf'.contents := by
  rcases removeFrontUnfinishedFrames_leaves hne h with
    ⟨n, buf', hrun, hwf, -, hcontents⟩
  rcases removeFrontUnfinishedFrames_leaves hne hwf with
    ⟨m, buf'', hagain, -, -, hcontents'⟩
  refine ⟨n, buf', hrun, ?_, ?_, m, buf'', hagain, ?_⟩
  · rw [hcontents]
    exact resynchronized_resync hne buf.contents
  · intro a b hsplit hframe
    rw [hcontents, hsplit]
    exact suffix_resync hframe
  · rw [hcontents', hcontents, resync_idem]

/-- Eight cells, the contents of which reach around their end. -/
def wrappedBuffer : CircularBufferUint8 :=
  { capacity := 8
    size := 7
    iStart := 5
    iStop := 4
    buffer := ['>', 'b', '\n', '>', '.', 'a', '\n', '>'].map Char.toUInt8 }

theorem wrappedBuffer_wellFormed : wrappedBuffer.WellFormed :=
  ⟨⟨3, rfl⟩, by decide, by decide, rfl, rfl⟩

/-- What stands before the complete frame is removed. -/
theorem removeFrontUnfinishedFrames_resynchronizes_wrapped :
    exists n buf', removeFrontUnfinishedFrames '>'.toUInt8 '\n'.toUInt8
        wrappedBuffer = .ok n buf' ∧
      Resynchronized '>'.toUInt8 '\n'.toUInt8 wrappedBuffer.contents
        buf'.contents := by
  have hne : '\n'.toUInt8 ≠ '>'.toUInt8 := by decide
  rcases removeFrontUnfinishedFrames_resynchronizes hne
    wrappedBuffer_wellFormed with
    ⟨n, buf', hrun, hkept, -, -⟩
  exact ⟨n, buf', hrun, hkept⟩

/-!
## The number of elements removed
-/

/-- The call returns the number of elements that it removes. -/
def ReportsRemoved (startChar endChar : UInt8)
    (buf : CircularBufferUint8) : Prop :=
  exists n buf', removeFrontUnfinishedFrames startChar endChar buf = .ok n buf' ∧
    n = buf.size - buf'.size

theorem reportsRemoved_iff_bareStops {startChar endChar : UInt8}
    (hne : endChar ≠ startChar) {buf : CircularBufferUint8}
    (h : buf.WellFormed) :
    ReportsRemoved startChar endChar buf <->
      bareStops startChar endChar endChar buf.contents = 0 := by
  rcases removeFrontUnfinishedFrames_removes hne h with
    ⟨n, buf', hrun, -, -, -, hcount⟩
  constructor
  · rintro ⟨n', buf'', hrun', hremoved⟩
    cases hrun.symm.trans hrun'
    omega
  · intro hzero
    refine ⟨n, buf', hrun, ?_⟩
    omega

/-- **The number returned is that of the elements removed** exactly when no end
before the first start stands at the front or directly behind another end. -/
theorem reportsRemoved_iff_segmentsFilled {startChar endChar : UInt8}
    (hne : endChar ≠ startChar) {buf : CircularBufferUint8}
    (h : buf.WellFormed) :
    ReportsRemoved startChar endChar buf <->
      SegmentsFilled startChar endChar buf.contents := by
  rw [reportsRemoved_iff_bareStops hne h, segmentsFilled_iff hne]

theorem reportsRemoved_iff_segmentsFilled_wrapped :
    ReportsRemoved '>'.toUInt8 '\n'.toUInt8 wrappedBuffer <->
      SegmentsFilled '>'.toUInt8 '\n'.toUInt8 wrappedBuffer.contents :=
  reportsRemoved_iff_segmentsFilled (by decide) wrappedBuffer_wellFormed

/-- A buffer that holds nothing but an end. -/
def endBuffer : CircularBufferUint8 :=
  { capacity := 1
    size := 1
    iStart := 0
    iStop := 0
    buffer := ['\n'.toUInt8] }

theorem endBuffer_wellFormed : endBuffer.WellFormed :=
  ⟨⟨0, rfl⟩, by decide, by decide, by decide, rfl⟩

/-- The end is removed, but not counted. -/
theorem not_reportsRemoved_of_end :
    ¬ forall buf : CircularBufferUint8, buf.WellFormed ->
      ReportsRemoved '>'.toUInt8 '\n'.toUInt8 buf := by
  intro h
  have hne : '\n'.toUInt8 ≠ '>'.toUInt8 := by decide
  have hzero := (reportsRemoved_iff_bareStops hne endBuffer_wellFormed).mp
    (h endBuffer endBuffer_wellFormed)
  revert hzero
  decide

end CircularBufferUint8
end AsciiSerialCom
