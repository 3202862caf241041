import AsciiSerialCom.CircularBuffer.Contents

/-!
# Searching and removing up to a value

The search loops return the position of the first or last occurrence, or the
size when there is none; the removal loops keep a suffix or a prefix.
-/

namespace AsciiSerialCom
namespace CircularBufferUint8

open Foundation
open Foundation.StateError

variable {buf : CircularBufferUint8}

theorem getElement_of_split (h : buf.WellFormed) {front back : List UInt8}
    {b : UInt8} (hc : buf.contents = front ++ b :: back) :
    buf.getElement front.length = .ok b := by
  apply getElement_of_getElem? h
  rw [hc]
  simp

/-!
## First occurrence
-/

theorem findFirstLoop_eq (h : buf.WellFormed) (v : UInt8)
    (front back : List UInt8) (hc : buf.contents = front ++ back) :
    findFirstLoop v buf back.length front.length =
      .ok (front.length + back.findIdx (fun b => b == v)) := by
  induction back generalizing front with
  | nil =>
      have hsize : buf.size = front.length := by
        rw [← contents_length, hc, List.append_nil]
      simp [findFirstLoop, hsize]
  | cons b rest ih =>
      have hget := getElement_of_split h hc
      have hnext := ih (front ++ [b]) (by simpa using hc)
      simp only [List.length_cons, findFirstLoop, hget]
      by_cases hb : b = v
      · simp [hb, List.findIdx_cons, bind, Except.bind]
      · simp only [List.length_append, List.length_singleton] at hnext
        simp only [bind, Except.bind, if_neg hb, hnext, List.findIdx_cons,
          beq_eq_false_iff_ne.mpr hb, cond_false]
        congr 1
        omega

theorem findFirst_eq (h : buf.WellFormed) (v : UInt8) :
    buf.findFirst v = .ok (buf.contents.findIdx (fun b => b == v)) := by
  have hloop := findFirstLoop_eq h v [] buf.contents rfl
  simpa [findFirst] using hloop

theorem findIdx_of_split {v : UInt8} {a b : List UInt8} (ha : v ∉ a) :
    (a ++ v :: b).findIdx (fun x => x == v) = a.length := by
  induction a with
  | nil => simp [List.findIdx_cons]
  | cons x a ih =>
      have hx : (x == v) = false :=
        beq_eq_false_iff_ne.mpr fun h => ha (by simp [h])
      simp [List.findIdx_cons, hx, ih (fun h => ha (List.mem_cons_of_mem _ h))]

theorem findFirst_of_split (h : buf.WellFormed) {v : UInt8}
    {a b : List UInt8} (hc : buf.contents = a ++ v :: b) (ha : v ∉ a) :
    buf.findFirst v = .ok a.length := by
  rw [findFirst_eq h, hc, findIdx_of_split ha]

theorem findFirst_of_not_mem (h : buf.WellFormed) {v : UInt8}
    (hv : v ∉ buf.contents) : buf.findFirst v = .ok buf.size := by
  have hidx : buf.contents.findIdx (fun x => x == v) = buf.contents.length := by
    rw [List.findIdx_eq_length]
    intro x hx
    exact beq_eq_false_iff_ne.mpr fun heq => hv (heq ▸ hx)
  rw [findFirst_eq h, hidx, contents_length]

/-!
## Last occurrence
-/

theorem findLastLoop_of_not_mem (h : buf.WellFormed) {v : UInt8}
    (front back : List UInt8) (hc : buf.contents = front ++ back)
    (hv : v ∉ front) :
    findLastLoop v buf front.length = .ok buf.size := by
  induction front using List.reverseRecOn generalizing back with
  | nil => rfl
  | append_singleton front x ih =>
      have hx : x ≠ v := fun heq => hv (by simp [heq])
      have hrest := ih (x :: back) (by simpa using hc)
        (fun hmem => hv (List.mem_append_left _ hmem))
      have hget : buf.getElement front.length = .ok x :=
        getElement_of_split h (by simpa using hc)
      rw [List.length_append, List.length_singleton, findLastLoop, hget]
      simp only [bind, Except.bind, if_neg hx, hrest]

theorem findLastLoop_of_split (h : buf.WellFormed) {v : UInt8}
    (a b back : List UInt8) (hc : buf.contents = a ++ v :: b ++ back)
    (hb : v ∉ b) :
    findLastLoop v buf (a ++ v :: b).length = .ok a.length := by
  induction b using List.reverseRecOn generalizing back with
  | nil =>
      have hget : buf.getElement a.length = .ok v :=
        getElement_of_split h (by simpa using hc)
      rw [List.length_append, List.length_singleton, findLastLoop, hget]
      simp [bind, Except.bind]
  | append_singleton b x ih =>
      have hx : x ≠ v := fun heq => hb (by simp [heq])
      have hrest := ih (x :: back) (by simpa using hc)
        (fun hmem => hb (List.mem_append_left _ hmem))
      have hget : buf.getElement (a ++ v :: b).length = .ok x :=
        getElement_of_split h (by simpa using hc)
      rw [show (a ++ v :: (b ++ [x])).length = (a ++ v :: b).length + 1 by
        simp; omega, findLastLoop, hget]
      simp only [bind, Except.bind, if_neg hx, hrest]

theorem findLast_of_not_mem (h : buf.WellFormed) {v : UInt8}
    (hv : v ∉ buf.contents) : buf.findLast v = .ok buf.size := by
  have hloop := findLastLoop_of_not_mem h buf.contents [] (by simp) hv
  rwa [contents_length] at hloop

theorem findLast_of_split (h : buf.WellFormed) {v : UInt8}
    {a b : List UInt8} (hc : buf.contents = a ++ v :: b) (hb : v ∉ b) :
    buf.findLast v = .ok a.length := by
  have hloop := findLastLoop_of_split h a b [] (by simpa using hc) hb
  rwa [← hc, contents_length] at hloop

/-- The backward scan is the last-occurrence loop with its own answer for a
miss. -/
theorem scanBack_eq (v : UInt8) {i : Nat}
    (hi : i < buf.size) :
    scanBack v buf i =
      (findLastLoop v buf (i + 1)).map fun j =>
        if j = buf.size then none else some j := by
  induction i with
  | zero =>
      rw [scanBack, findLastLoop, findLastLoop]
      rcases hget : buf.getElement 0 with e | b
      · rfl
      · by_cases hb : b = v
        · simp [hb, bind, Except.bind, Except.map]
          omega
        · simp [hb, bind, Except.bind, Except.map]
  | succ i ih =>
      rw [scanBack, findLastLoop]
      rcases hget : buf.getElement (i + 1) with e | b
      · rfl
      · by_cases hb : b = v
        · simp [hb, bind, Except.bind, Except.map]
          omega
        · simp only [bind, Except.bind, if_neg hb]
          exact ih (by omega)

theorem scanBack_of_not_mem (h : buf.WellFormed) {v x : UInt8}
    {front back : List UInt8} (hc : buf.contents = front ++ x :: back)
    (hne : front ≠ []) (hv : v ∉ front) :
    scanBack v buf (front.length - 1) = .ok none := by
  have hpos : 0 < front.length := List.length_pos_iff.mpr hne
  have hsize : buf.size = front.length + (back.length + 1) := by
    rw [← contents_length, hc, List.length_append, List.length_cons]
  rw [scanBack_eq v (by omega), Nat.sub_add_cancel hpos,
    findLastLoop_of_not_mem h front (x :: back) hc hv]
  simp [Except.map]

theorem scanBack_of_split (h : buf.WellFormed) {v x : UInt8}
    {a b back : List UInt8} (hc : buf.contents = a ++ v :: b ++ x :: back)
    (hb : v ∉ b) :
    scanBack v buf ((a ++ v :: b).length - 1) = .ok (some a.length) := by
  have hpos : 0 < (a ++ v :: b).length := by simp
  have hsize : buf.size = (a ++ v :: b).length + (back.length + 1) := by
    rw [← contents_length, hc, List.length_append, List.length_cons]
  have hlt : a.length < buf.size := by
    rw [hsize]
    simp
    omega
  rw [scanBack_eq v (by omega), Nat.sub_add_cancel hpos,
    findLastLoop_of_split h a b (x :: back) hc hb]
  simp only [Except.map]
  rw [if_neg (by omega)]

end CircularBufferUint8
end AsciiSerialCom
