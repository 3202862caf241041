import Mathlib

/-!
# Feedback shift registers

The register of a reflected cyclic redundancy check: one step shifts right and,
when a one falls out, adds the polynomial.  A step is linear, and invertible as
soon as the polynomial has its top bit, so the register forgets nothing: two
runs that disagree anywhere in a burst no longer than the register end in
different states.  The width and the polynomial are arbitrary.
-/

namespace Foundation
namespace ShiftRegister

variable {w : Nat} (p : BitVec w)

/-- Shift one bit out. -/
def step (s : BitVec w) : BitVec w :=
  (s >>> 1) ^^^ (if s.getLsbD 0 then p else 0#w)

/-- Shift `n` bits out. -/
def steps : Nat -> BitVec w -> BitVec w
  | 0, s => s
  | n + 1, s => steps n (step p s)

/-- Add a block of `k` bits and shift it out. -/
def feed (k : Nat) (s block : BitVec w) : BitVec w :=
  steps p k (s ^^^ block)

/-!
## Linearity
-/

@[simp] theorem step_zero : step p 0#w = 0#w := by
  simp [step]

theorem step_xor (s t : BitVec w) :
    step p (s ^^^ t) = step p s ^^^ step p t := by
  have hfeedback : (if (s ^^^ t).getLsbD 0 then p else 0#w) =
      (if s.getLsbD 0 then p else 0#w) ^^^
        (if t.getLsbD 0 then p else 0#w) := by
    rw [BitVec.getLsbD_xor]
    cases s.getLsbD 0 <;> cases t.getLsbD 0 <;> simp
  unfold step
  rw [hfeedback, BitVec.ushiftRight_xor_distrib]
  ac_rfl

@[simp] theorem steps_zero_left (s : BitVec w) : steps p 0 s = s := rfl

theorem steps_succ (n : Nat) (s : BitVec w) :
    steps p (n + 1) s = steps p n (step p s) := rfl

theorem steps_xor (n : Nat) (s t : BitVec w) :
    steps p n (s ^^^ t) = steps p n s ^^^ steps p n t := by
  induction n generalizing s t with
  | zero => rfl
  | succ n ih => rw [steps_succ, step_xor, ih, steps_succ, steps_succ]

theorem steps_add (m n : Nat) (s : BitVec w) :
    steps p (m + n) s = steps p n (steps p m s) := by
  induction m generalizing s with
  | zero => rw [Nat.zero_add, steps_zero_left]
  | succ m ih => rw [Nat.succ_add, steps_succ, ih, steps_succ]

/-!
## Injectivity
-/

theorem xor_eq_zero_iff {s t : BitVec w} : s ^^^ t = 0#w <-> s = t := by
  constructor
  · intro h
    calc
      s = s ^^^ t ^^^ t := by
        rw [BitVec.xor_assoc, BitVec.xor_self, BitVec.xor_zero]
      _ = t := by rw [h, BitVec.zero_xor]
  · intro h
    rw [h, BitVec.xor_self]

/-- A one that falls out leaves its mark in the top bit. -/
theorem step_eq_zero_iff (hp : p.msb = true) (s : BitVec w) :
    step p s = 0#w <-> s = 0#w := by
  constructor
  · intro h
    unfold step at h
    by_cases hbit : s.getLsbD 0
    · rw [if_pos hbit, xor_eq_zero_iff] at h
      have hmsb := congrArg BitVec.msb h
      rw [hp, BitVec.msb_ushiftRight] at hmsb
      simp at hmsb
    · rw [if_neg hbit, BitVec.xor_zero] at h
      apply BitVec.eq_of_getLsbD_eq
      intro i _
      cases i with
      | zero => simpa using hbit
      | succ i =>
          have hi := congrArg (fun t : BitVec w => t.getLsbD i) h
          simpa [Nat.add_comm] using hi
  · intro h
    rw [h, step_zero]

theorem step_injective (hp : p.msb = true) :
    Function.Injective (step p) := by
  intro s t h
  have hzero : step p (s ^^^ t) = 0#w := by
    rw [step_xor, h, BitVec.xor_self]
  exact xor_eq_zero_iff.mp ((step_eq_zero_iff p hp _).mp hzero)

theorem steps_injective (hp : p.msb = true) (n : Nat) :
    Function.Injective (steps p n) := by
  induction n with
  | zero => exact fun _ _ h => h
  | succ n ih => exact fun _ _ h => step_injective p hp (ih h)

theorem feed_injective_state (hp : p.msb = true) (k : Nat)
    (block : BitVec w) :
    Function.Injective fun s => feed p k s block := by
  intro s t h
  have hxor := steps_injective p hp k h
  exact BitVec.xor_left_inj block |>.mp hxor

/-!
## Whole blocks at once
-/

/-- Zeros that fall out leave the register a plain shift. -/
theorem steps_of_low_zero (k : Nat) (s : BitVec w)
    (h : forall i, i < k -> s.getLsbD i = false) :
    steps p k s = s >>> k := by
  induction k generalizing s with
  | zero => simp
  | succ k ih =>
      have hstep : step p s = s >>> 1 := by
        rw [step, h 0 (by omega)]
        simp
      rw [steps_succ, hstep, ih, Nat.add_comm k 1, BitVec.shiftRight_add]
      intro i hi
      rw [BitVec.getLsbD_ushiftRight]
      exact h (1 + i) (by omega)

/-- A block that fits above `k` bits is what `k` steps bring down. -/
theorem steps_shiftLeft (k : Nat) (block : BitVec w)
    (h : (block <<< k) >>> k = block) :
    steps p k (block <<< k) = block := by
  rw [steps_of_low_zero, h]
  intro i hi
  simp [BitVec.getLsbD_shiftLeft, hi]

theorem feed_feed (j k : Nat) (s x y : BitVec w)
    (h : (y <<< k) >>> k = y) :
    feed p j (feed p k s x) y =
      steps p (k + j) (s ^^^ (x ^^^ y <<< k)) := by
  unfold feed
  rw [steps_add, ← BitVec.xor_assoc, steps_xor p k _ (y <<< k),
    steps_shiftLeft p k y h]

/-- Table lookup: the low `k` bits through the steps, the others shifted. -/
theorem steps_split (k : Nat) (s low : BitVec w)
    (hlow : forall i, i < k -> low.getLsbD i = s.getLsbD i)
    (hhigh : low >>> k = 0#w) :
    steps p k s = steps p k low ^^^ (s >>> k) := by
  have hrest : steps p k (s ^^^ low) = (s ^^^ low) >>> k := by
    apply steps_of_low_zero
    intro i hi
    rw [BitVec.getLsbD_xor, hlow i hi, Bool.xor_self]
  calc
    steps p k s = steps p k (low ^^^ (s ^^^ low)) := by
      rw [BitVec.xor_comm s low, ← BitVec.xor_assoc, BitVec.xor_self,
        BitVec.zero_xor]
    _ = steps p k low ^^^ (s >>> k) := by
      rw [steps_xor, hrest, BitVec.ushiftRight_xor_distrib, hhigh,
        BitVec.xor_zero]

/-!
## Bit by bit
-/

/-- A block whose only bit is the lowest. -/
def bit (b : Bool) : BitVec w := BitVec.ofNat w b.toNat

theorem getLsbD_bit (b : Bool) (i : Nat) :
    (bit b : BitVec w).getLsbD i = (decide (i < w) && (decide (i = 0) && b)) := by
  rw [bit, BitVec.getLsbD_ofNat]
  cases b with
  | false => simp
  | true =>
      congr 1
      simpa [eq_comm] using Nat.testBit_two_pow (n := 0) (m := i)

theorem setWidth_bit {u v : Nat} (hv : 0 < v) (b : Bool) :
    (bit b : BitVec v).setWidth u = bit b := by
  apply BitVec.eq_of_getLsbD_eq
  intro i hi
  rw [BitVec.getLsbD_setWidth, getLsbD_bit, getLsbD_bit]
  cases i with
  | zero => simp [hv]
  | succ i => simp

/-- The lowest bits of a block, lowest first. -/
def lowBits (k : Nat) (block : BitVec w) : List Bool :=
  (List.range k).map block.getLsbD

theorem lowBits_succ (k : Nat) (block : BitVec w) :
    lowBits (k + 1) block = block.getLsbD 0 :: lowBits k (block >>> 1) := by
  rw [lowBits, List.range_succ_eq_map, List.map_cons, List.map_map]
  congr 1
  apply List.map_congr_left
  intro i _
  rw [Function.comp_apply, BitVec.getLsbD_ushiftRight, Nat.add_comm]

/-- Feed bits one after the other. -/
def feedBits (s : BitVec w) (bits : List Bool) : BitVec w :=
  bits.foldl (fun s b => step p (s ^^^ bit b)) s

/-- Shift bits in at the other end of the register, while the bits that fall out
are fed back. -/
def shiftInBits (s : BitVec w) (bits : List Bool) : BitVec w :=
  bits.foldl (fun s b => step p s ^^^ bit b <<< (w - 1)) s

theorem feedBits_cons (s : BitVec w) (b : Bool) (bits : List Bool) :
    feedBits p s (b :: bits) = feedBits p (step p (s ^^^ bit b)) bits := rfl

theorem shiftInBits_cons (s : BitVec w) (b : Bool) (bits : List Bool) :
    shiftInBits p s (b :: bits) =
      shiftInBits p (step p s ^^^ bit b <<< (w - 1)) bits := rfl

/-- The lowest bit of a block may be fed first. -/
theorem feed_succ (k : Nat) (s block : BitVec w) :
    feed p (k + 1) s block =
      feed p k (step p (s ^^^ bit (block.getLsbD 0))) (block >>> 1) := by
  have hjoin : bit (block.getLsbD 0) ^^^ (block >>> 1) <<< 1 = block := by
    apply BitVec.eq_of_getLsbD_eq
    intro i hi
    rw [BitVec.getLsbD_xor, getLsbD_bit, BitVec.getLsbD_shiftLeft,
      BitVec.getLsbD_ushiftRight]
    cases i with
    | zero => simp [hi]
    | succ i => simp [hi, Nat.add_comm]
  have hfit : ((block >>> 1) <<< 1) >>> 1 = block >>> 1 := by
    apply BitVec.eq_of_getLsbD_eq
    intro i _
    simp only [BitVec.getLsbD_ushiftRight, BitVec.getLsbD_shiftLeft]
    by_cases hi : 1 + i < w
    · simp [hi]
    · simp [hi, BitVec.getLsbD_of_ge block _ (Nat.le_of_not_lt hi)]
  have hpair := feed_feed p k 1 s (bit (block.getLsbD 0)) (block >>> 1) hfit
  rw [hjoin, Nat.add_comm 1 k] at hpair
  exact hpair.symm

/-- Feeding a block is feeding its bits. -/
theorem feedBits_lowBits (k : Nat) (s block : BitVec w)
    (h : forall i, k <= i -> block.getLsbD i = false) :
    feedBits p s (lowBits k block) = feed p k s block := by
  induction k generalizing s block with
  | zero =>
      have hzero : block = 0#w := by
        apply BitVec.eq_of_getLsbD_eq
        intro i _
        rw [h i (Nat.zero_le i), BitVec.getLsbD_zero]
      rw [hzero, feed, BitVec.xor_zero]
      rfl
  | succ k ih =>
      rw [lowBits_succ, feedBits_cons, feed_succ, ih]
      intro i hi
      rw [BitVec.getLsbD_ushiftRight]
      exact h (1 + i) (by omega)

/-- Bits shifted in have been fed once as many zeros as the register is long
have followed them. -/
theorem steps_shiftInBits (hw : 0 < w) (s : BitVec w) (bits : List Bool) :
    steps p w (shiftInBits p s bits) = feedBits p (steps p w s) bits := by
  induction bits generalizing s with
  | nil => rfl
  | cons b bits ih =>
      have hfit : ((bit b : BitVec w) <<< (w - 1)) >>> (w - 1) = bit b := by
        apply BitVec.eq_of_getLsbD_eq
        intro i hi
        rw [BitVec.getLsbD_ushiftRight, BitVec.getLsbD_shiftLeft, getLsbD_bit,
          getLsbD_bit, Nat.add_sub_cancel_left]
        cases i with
        | zero => simp [hw]
        | succ i => simp
      have hin : steps p w ((bit b : BitVec w) <<< (w - 1)) =
          step p (bit b) := by
        calc
          steps p w ((bit b : BitVec w) <<< (w - 1)) =
              steps p (w - 1 + 1) ((bit b : BitVec w) <<< (w - 1)) := by
            rw [Nat.sub_add_cancel hw]
          _ = step p (bit b) := by
            rw [steps_add, steps_shiftLeft p _ _ hfit]
            rfl
      have hout : steps p w (step p s) = step p (steps p w s) := by
        rw [← steps_succ, steps_add]
        rfl
      rw [shiftInBits_cons, ih, feedBits_cons, steps_xor, hin, hout, step_xor]

theorem shiftInBits_append (s : BitVec w) (front back : List Bool) :
    shiftInBits p s (front ++ back) =
      shiftInBits p (shiftInBits p s front) back := List.foldl_append

theorem feedBits_append (s : BitVec w) (front back : List Bool) :
    feedBits p s (front ++ back) =
      feedBits p (feedBits p s front) back := List.foldl_append

/-!
## Registers that shift the other way
-/

/-- The low `w` bits of a register, in reversed order. -/
def mirror (w : Nat) {v : Nat} (r : BitVec v) : BitVec w :=
  (r.setWidth w).reverse

variable {v : Nat}

theorem getLsbD_mirror (r : BitVec v) (i : Nat) :
    (mirror w r).getLsbD i = (decide (i < w) && r.getLsbD (w - 1 - i)) := by
  rw [mirror, BitVec.getLsbD_reverse, BitVec.getMsbD_eq_getLsbD,
    BitVec.getLsbD_setWidth]
  by_cases hi : i < w
  · rw [decide_eq_true (show w - 1 - i < w by omega), Bool.true_and]
  · rw [decide_eq_false hi, Bool.false_and, Bool.false_and]

theorem mirror_setWidth {u : Nat} (hle : w <= u) (r : BitVec v) :
    mirror w (r.setWidth u) = mirror w r := by
  rw [mirror, BitVec.setWidth_setWidth_of_le r hle, mirror]

theorem mirror_xor (r t : BitVec v) :
    mirror w (r ^^^ t) = mirror w r ^^^ mirror w t := by
  apply BitVec.eq_of_getLsbD_eq
  intro i _
  simp only [getLsbD_mirror, BitVec.getLsbD_xor, Bool.and_xor_distrib_left]

/-- What is shifted in below comes out above. -/
theorem mirror_shiftLeft_or (hle : w <= v) (r : BitVec v) (b : Bool) :
    mirror w ((r <<< 1) ||| bit b) =
      (mirror w r >>> 1) ^^^ (bit b <<< (w - 1)) := by
  apply BitVec.eq_of_getLsbD_eq
  intro i hi
  simp only [getLsbD_mirror, BitVec.getLsbD_or, BitVec.getLsbD_xor,
    BitVec.getLsbD_shiftLeft, BitVec.getLsbD_ushiftRight, getLsbD_bit]
  by_cases htop : i = w - 1
  · have hw : 0 < w := by omega
    have hv : 0 < v := by omega
    have hout : ¬ 1 + (w - 1) < w := by omega
    subst htop
    simp [hi, hw, hv, hout]
  · have hlow : w - 1 - i ≠ 0 := by omega
    have hnext : w - 1 - i - 1 = w - 1 - (1 + i) := by omega
    simp [hi, hlow, hnext, show 1 + i < w by omega, show w - 1 - i < v by omega,
      show i < w - 1 by omega, show ¬ w - 1 - i < 1 by omega]

theorem mirror_shiftLeft (hle : w <= v) (r : BitVec v) :
    mirror w (r <<< 1) = mirror w r >>> 1 := by
  have hzero (n : Nat) : (bit false : BitVec n) = 0#n := rfl
  have hnone := mirror_shiftLeft_or hle r false
  rwa [hzero, hzero, BitVec.or_zero, BitVec.zero_shiftLeft,
    BitVec.xor_zero] at hnone

/-- A bit that is added where the lowest falls out only decides on the
feedback. -/
theorem step_xor_bit (s : BitVec w) (b : Bool) :
    step p (s ^^^ bit b) =
      (s >>> 1) ^^^ (if (s.getLsbD 0 ^^ b) = true then p else 0#w) := by
  have hshift : (bit b : BitVec w) >>> 1 = 0#w := by
    apply BitVec.eq_of_getLsbD_eq
    intro i _
    rw [BitVec.getLsbD_ushiftRight, getLsbD_bit]
    simp
  rw [step, BitVec.ushiftRight_xor_distrib, hshift, BitVec.xor_zero,
    BitVec.getLsbD_xor, getLsbD_bit]
  cases w with
  | zero => exact Subsingleton.elim _ _
  | succ w => simp

/-- A register that shifts left steps as its mirror image does. -/
theorem mirror_step (hle : w <= v) (hw : 0 < w) (q r : BitVec v) (b : Bool) :
    mirror w (if r.getLsbD (w - 1) then ((r <<< 1) ||| bit b) ^^^ q
      else (r <<< 1) ||| bit b) =
      step (mirror w q) (mirror w r) ^^^ (bit b <<< (w - 1)) := by
  have hbit : (mirror w r).getLsbD 0 = r.getLsbD (w - 1) := by
    rw [getLsbD_mirror, decide_eq_true hw, Bool.true_and, Nat.sub_zero]
  rw [step, hbit]
  split
  · rw [mirror_xor, mirror_shiftLeft_or hle]
    ac_rfl
  · rw [mirror_shiftLeft_or hle, BitVec.xor_zero]

end ShiftRegister
end Foundation
