import Mathlib

/-!
# Hexadecimal numerals

Big-endian numerals over ASCII bytes.  Both letter cases are read, and one of
them is chosen for writing.
-/

namespace Foundation
namespace Hexadecimal

/-- The value of a digit, if the byte is one. -/
def digitValue (c : UInt8) : Option Nat :=
  if 0x30 <= c.toNat ∧ c.toNat <= 0x39 then
    some (c.toNat - 0x30)
  else if 0x41 <= c.toNat ∧ c.toNat <= 0x46 then
    some (c.toNat - 0x41 + 10)
  else if 0x61 <= c.toNat ∧ c.toNat <= 0x66 then
    some (c.toNat - 0x61 + 10)
  else
    none

/-- The digit with a given value below sixteen. -/
def digit (caps : Bool) (v : Nat) : UInt8 :=
  if v < 10 then
    UInt8.ofNat (0x30 + v)
  else if caps then
    UInt8.ofNat (0x41 + v - 10)
  else
    UInt8.ofNat (0x61 + v - 10)

/-- The byte is one of `0` to `9`, `A` to `F` and `a` to `f`. -/
def IsDigit (c : UInt8) : Prop :=
  (0x30 <= c ∧ c <= 0x39) ∨ (0x41 <= c ∧ c <= 0x46) ∨ (0x61 <= c ∧ c <= 0x66)

/-- The byte is a digit that is written in the given case. -/
def IsDigitOf (caps : Bool) (c : UInt8) : Prop :=
  (0x30 <= c ∧ c <= 0x39) ∨
    if caps then 0x41 <= c ∧ c <= 0x46 else 0x61 <= c ∧ c <= 0x66

/-- The value of a numeral, if every byte is a digit. -/
def value (l : List UInt8) : Option Nat :=
  l.foldlM (fun v c => (digitValue c).map fun d => 16 * v + d) 0

/-- The numeral of `v` with `count` digits. -/
def digits (caps : Bool) : (count v : Nat) -> List UInt8
  | 0, _ => []
  | count + 1, v => digits caps count (v / 16) ++ [digit caps (v % 16)]

/-!
## Reading
-/

@[simp] theorem value_nil : value [] = some 0 := rfl

theorem value_snoc (l : List UInt8) (c : UInt8) :
    value (l ++ [c]) =
      (value l).bind fun v => (digitValue c).map fun d => 16 * v + d := by
  rw [value, List.foldlM_append]
  simp only [List.foldlM_cons, List.foldlM_nil, Option.bind_eq_bind,
    Option.pure_def, Option.bind_fun_some]
  rfl

theorem value_append (l r : List UInt8) :
    value (l ++ r) =
      (value l).bind fun v => (value r).map fun u => 16 ^ r.length * v + u := by
  induction r using List.reverseRecOn with
  | nil => cases h : value l <;> simp [h]
  | append_singleton r c ih =>
      rw [← List.append_assoc, value_snoc, ih, value_snoc]
      cases value l with
      | none => rfl
      | some v =>
          cases value r with
          | none => rfl
          | some u =>
              cases digitValue c with
              | none => rfl
              | some d =>
                  simp only [Option.bind_some, Option.map_some,
                    List.length_append, List.length_singleton, pow_succ]
                  congr 1
                  ring

theorem digitValue_lt {c : UInt8} {d : Nat} (h : digitValue c = some d) :
    d < 16 := by
  unfold digitValue at h
  split at h
  · injection h
    omega
  · split at h
    · injection h
      omega
    · split at h
      · injection h
        omega
      · cases h

theorem value_lt {l : List UInt8} {v : Nat} (h : value l = some v) :
    v < 16 ^ l.length := by
  induction l using List.reverseRecOn generalizing v with
  | nil =>
      simp at h
      simp [← h]
  | append_singleton l c ih =>
      rw [value_snoc] at h
      cases hl : value l with
      | none => simp [hl] at h
      | some u =>
          cases hc : digitValue c with
          | none => simp [hl, hc] at h
          | some d =>
              have hu := ih hl
              have hd := digitValue_lt hc
              simp only [hl, hc, Option.bind_some, Option.map_some,
                Option.some.injEq] at h
              rw [List.length_append, List.length_singleton, pow_succ]
              omega

theorem digitValue_isSome_iff (c : UInt8) :
    (digitValue c).isSome <-> IsDigit c := by
  unfold digitValue IsDigit
  simp only [UInt8.le_iff_toNat_le]
  change _ <-> (0x30 <= c.toNat ∧ c.toNat <= 0x39) ∨
    (0x41 <= c.toNat ∧ c.toNat <= 0x46) ∨ (0x61 <= c.toNat ∧ c.toNat <= 0x66)
  split
  · simp [*]
  · split
    · simp [*]
    · split <;> simp [*]

theorem value_isSome_iff (l : List UInt8) :
    (value l).isSome <-> forall c, c ∈ l -> (digitValue c).isSome := by
  induction l using List.reverseRecOn with
  | nil => simp
  | append_singleton l c ih =>
      rw [value_snoc]
      have hall : (forall x, x ∈ l ++ [c] -> (digitValue x).isSome) <->
          (value l).isSome ∧ (digitValue c).isSome := by
        rw [ih]
        simp only [List.mem_append, List.mem_singleton]
        constructor
        · intro h
          exact ⟨fun x hx => h x (Or.inl hx), h c (Or.inr rfl)⟩
        · rintro ⟨hl, hc⟩ x (hx | rfl)
          · exact hl x hx
          · exact hc
      rw [hall]
      cases value l <;> cases digitValue c <;> simp

/-!
## Writing
-/

@[simp] theorem digits_length (caps : Bool) (count v : Nat) :
    (digits caps count v).length = count := by
  induction count generalizing v with
  | zero => rfl
  | succ count ih => simp [digits, ih]

theorem digitValue_digit :
    forall (caps : Bool) (v : Fin 16),
      digitValue (digit caps v) = some v.val := by decide

theorem value_digits (caps : Bool) {count v : Nat} (h : v < 16 ^ count) :
    value (digits caps count v) = some v := by
  induction count generalizing v with
  | zero =>
      have hzero : v = 0 := by simpa using h
      rw [hzero]
      rfl
  | succ count ih =>
      have hlt : v % 16 < 16 := Nat.mod_lt _ (by decide)
      have hdiv : v / 16 < 16 ^ count := by
        rw [pow_succ] at h
        omega
      rw [digits, value_snoc, ih hdiv, digitValue_digit caps ⟨v % 16, hlt⟩]
      simp only [Option.bind_some, Option.map_some, Option.some.injEq]
      omega

theorem isDigit_of_isDigitOf {caps : Bool} {c : UInt8}
    (h : IsDigitOf caps c) : IsDigit c := by
  cases caps with
  | true => exact h.imp_right Or.inl
  | false => exact h.imp_right Or.inr

/-- A digit written in the given case is the one that is written for its
value. -/
theorem digit_digitValue {caps : Bool} {c : UInt8} (h : IsDigitOf caps c)
    {v : Nat} (hv : digitValue c = some v) : digit caps v = c := by
  have hsum (k : Nat) (hk : k <= c.toNat) :
      UInt8.ofNat (k + (c.toNat - k)) = c := by
    rw [Nat.add_sub_cancel' hk, UInt8.ofNat_toNat]
  have hletter (k : Nat) (hk : k <= c.toNat) :
      UInt8.ofNat (k + (c.toNat - k + 10) - 10) = c := by
    rw [← Nat.add_assoc, Nat.add_sub_cancel, hsum k hk]
  have hlt (k : Nat) : ¬ c.toNat - k + 10 < 10 := by omega
  unfold IsDigitOf at h
  simp only [UInt8.le_iff_toNat_le] at h
  change (0x30 <= c.toNat ∧ c.toNat <= 0x39) ∨
    if caps = true then 0x41 <= c.toNat ∧ c.toNat <= 0x46
    else 0x61 <= c.toNat ∧ c.toNat <= 0x66 at h
  unfold digitValue at hv
  unfold digit
  rcases h with h | h
  · rw [if_pos h] at hv
    cases hv
    rw [if_pos (by omega), hsum 0x30 h.left]
  · cases caps with
    | true =>
        rw [if_pos rfl] at h
        rw [if_neg (by omega), if_pos h] at hv
        cases hv
        rw [if_neg (hlt _), if_pos rfl, hletter 0x41 h.left]
    | false =>
        rw [if_neg (by decide)] at h
        rw [if_neg (by omega), if_neg (by omega), if_pos h] at hv
        cases hv
        rw [if_neg (hlt _), if_neg (by decide), hletter 0x61 h.left]

/-- Writing the value of a numeral gives the numeral back, unless its letters
are of the other case. -/
theorem digits_value {caps : Bool} {l : List UInt8} {v : Nat}
    (hcase : forall c, c ∈ l -> IsDigitOf caps c) (h : value l = some v) :
    digits caps l.length v = l := by
  induction l using List.reverseRecOn generalizing v with
  | nil => rfl
  | append_singleton l c ih =>
      rw [value_snoc] at h
      cases hl : value l with
      | none => simp [hl] at h
      | some u =>
          cases hc : digitValue c with
          | none => simp [hl, hc] at h
          | some d =>
              have hd := digitValue_lt hc
              simp only [hl, hc, Option.bind_some, Option.map_some,
                Option.some.injEq] at h
              have hdiv : v / 16 = u := by omega
              have hmod : v % 16 = d := by omega
              have hfront := ih (fun x hx => hcase x (by simp [hx])) hl
              have hlast := digit_digitValue (hcase c (by simp)) hc
              rw [List.length_append, List.length_singleton, digits, hdiv, hmod,
                hfront, hlast]

theorem digits_injective (caps : Bool) {count u v : Nat}
    (hu : u < 16 ^ count) (hv : v < 16 ^ count)
    (h : digits caps count u = digits caps count v) : u = v := by
  have hvalue := congrArg value h
  rw [value_digits caps hu, value_digits caps hv] at hvalue
  exact Option.some.inj hvalue

theorem exists_of_mem_digits {caps : Bool} {count v : Nat} {c : UInt8}
    (h : c ∈ digits caps count v) :
    exists d : Fin 16, c = digit caps d := by
  induction count generalizing v with
  | zero => cases h
  | succ count ih =>
      rw [digits, List.mem_append, List.mem_singleton] at h
      rcases h with h | h
      · exact ih h
      · exact ⟨⟨v % 16, Nat.mod_lt _ (by decide)⟩, h⟩

theorem isDigitOf_of_mem_digits {caps : Bool} {count v : Nat} {c : UInt8}
    (h : c ∈ digits caps count v) : IsDigitOf caps c := by
  have hdigit : forall (caps : Bool) (d : Fin 16),
      IsDigitOf caps (digit caps d) := by
    unfold IsDigitOf
    decide
  rcases exists_of_mem_digits h with ⟨d, rfl⟩
  exact hdigit caps d

theorem digits_append (caps : Bool) (m n v : Nat) :
    digits caps (m + n) v = digits caps m (v / 16 ^ n) ++ digits caps n v := by
  induction n generalizing v with
  | zero => simp [digits]
  | succ n ih =>
      rw [← Nat.add_assoc, digits, ih, digits, List.append_assoc,
        Nat.div_div_eq_div_mul, pow_succ, Nat.mul_comm (16 ^ n)]

theorem digits_mod (caps : Bool) (n v : Nat) :
    digits caps n (v % 16 ^ n) = digits caps n v := by
  induction n generalizing v with
  | zero => rfl
  | succ n ih =>
      have hdiv : v % 16 ^ (n + 1) / 16 = v / 16 % 16 ^ n := by
        rw [pow_succ, Nat.mul_comm, Nat.mod_mul_right_div_self]
      have hmod : v % 16 ^ (n + 1) % 16 = v % 16 := by
        rw [pow_succ, Nat.mod_mul_left_mod]
      rw [digits, digits, hdiv, hmod, ih]

end Hexadecimal
end Foundation
