import Mathlib

/-!
# Time on a clock that wraps around

A clock of `w` bits shows true time modulo `2 ^ w`.  Two readings say which came
first only as seen from a third that is less than one turn of the clock older
than both.  Seen from there, the order of the elapsed times is the order of the
true times; whoever compares the readings themselves has to know which of them
lie behind the turn.
-/

namespace Foundation
namespace ModularTime

variable {w : Nat}

/-- Seen from `origin`, the clock has reached `target`. -/
def Reached (origin target now : BitVec w) : Prop :=
  target - origin <= now - origin

instance (origin target now : BitVec w) :
    Decidable (Reached origin target now) :=
  inferInstanceAs (Decidable (target - origin <= now - origin))

/-!
## True time
-/

/-- Less than one turn of the clock later, the difference of the readings is
the time that has passed. -/
theorem toNat_ofNat_sub_ofNat {origin t : Nat} (h : origin <= t)
    (hturn : t < origin + 2 ^ w) :
    (BitVec.ofNat w t - BitVec.ofNat w origin).toNat = t - origin := by
  have hsum : BitVec.ofNat w t =
      BitVec.ofNat w (t - origin) + BitVec.ofNat w origin := by
    rw [← BitVec.ofNat_add, Nat.sub_add_cancel h]
  rw [hsum, BitVec.add_sub_cancel, BitVec.toNat_ofNat,
    Nat.mod_eq_of_lt (by omega)]

/-- Within a turn of the clock after `origin`, readings tell which time came
first. -/
theorem reached_ofNat {origin target now : Nat} (htarget : origin <= target)
    (htargetTurn : target < origin + 2 ^ w) (hnow : origin <= now)
    (hnowTurn : now < origin + 2 ^ w) :
    Reached (BitVec.ofNat w origin) (BitVec.ofNat w target)
      (BitVec.ofNat w now) <-> target <= now := by
  rw [Reached, BitVec.le_def, toNat_ofNat_sub_ofNat htarget htargetTurn,
    toNat_ofNat_sub_ofNat hnow hnowTurn]
  omega

/-!
## Comparing the readings themselves
-/

theorem toNat_sub_add (x origin : BitVec w) (h : origin <= x) :
    (x - origin).toNat + origin.toNat = x.toNat := by
  rw [BitVec.toNat_sub_of_le h]
  exact Nat.sub_add_cancel h

theorem toNat_sub_add_turn (x origin : BitVec w) (h : x < origin) :
    (x - origin).toNat + origin.toNat = x.toNat + 2 ^ w := by
  have horigin := origin.isLt
  have hlt : x.toNat < origin.toNat := h
  rw [BitVec.toNat_sub_of_lt h]
  omega

/-- Elapsed times compare as the readings do, once it is known on which side of
the turn each of them lies. -/
theorem reached_iff_readings (origin target now : BitVec w) :
    Reached origin target now <->
      target = origin ∨
        (origin < target ∧ (target <= now ∨ now < origin)) ∨
        (target < origin ∧ target <= now ∧ now < origin) := by
  have hnowTurn := now.isLt
  have htargetTurn := target.isLt
  rw [Reached, BitVec.le_def]
  simp only [BitVec.lt_def, BitVec.le_def, ← BitVec.toNat_inj]
  by_cases htarget : origin <= target
  · have hsub := toNat_sub_add target origin htarget
    by_cases hnow : origin <= now
    · have hsub' := toNat_sub_add now origin hnow
      rw [BitVec.le_def] at htarget hnow
      omega
    · have hsub' := toNat_sub_add_turn now origin (BitVec.not_le.mp hnow)
      rw [BitVec.le_def] at htarget hnow
      omega
  · have hsub := toNat_sub_add_turn target origin (BitVec.not_le.mp htarget)
    by_cases hnow : origin <= now
    · have hsub' := toNat_sub_add now origin hnow
      rw [BitVec.le_def] at htarget hnow
      omega
    · have hsub' := toNat_sub_add_turn now origin (BitVec.not_le.mp hnow)
      rw [BitVec.le_def] at htarget hnow
      omega

end ModularTime
end Foundation
