import AsciiSerialCom.Crc.Dnp

/-!
# The bit-by-bit implementations

`crc_16_dnp_bbb.c` and `crc_16_dnp_bbf.c`.  Their registers shift to the left
and are wider than the checksum on most platforms; the checksum is in the low
sixteen bits, in reversed order.  The first implementation shifts the message
through the register and sixteen zeros behind it, the second adds each bit where
it falls out.
-/

namespace AsciiSerialCom
namespace Crc

open Foundation.ShiftRegister

/-- `uint_fast16_t`, which has sixteen bits or more. -/
abbrev UintFast16 (extra : Nat) := BitVec (16 + extra)

variable {extra : Nat}

/-!
## Reflection
-/

/-- The loop of the reflecting functions, with `n` iterations to go. -/
def reflectLoop :
    Nat -> UintFast16 extra -> UintFast16 extra -> UintFast16 extra
  | 0, _, ret => ret
  | n + 1, data, ret =>
      let data := data >>> 1
      reflectLoop n data ((ret <<< 1) ||| (data &&& 0x01))

/-- `crc_16_dnp_bbb_reflect` and `crc_16_dnp_bbf_reflect` -/
def reflect (data : UintFast16 extra) (dataLen : Nat) : UintFast16 extra :=
  reflectLoop (dataLen - 1) data (data &&& 0x01)

theorem and_one_eq_bit {w : Nat} (x : BitVec w) :
    x &&& 0x01 = bit (x.getLsbD 0) := by
  apply BitVec.eq_of_getLsbD_eq
  intro i hi
  have hone : (0x01 : BitVec w) = bit true := rfl
  rw [hone, BitVec.getLsbD_and, getLsbD_bit, getLsbD_bit]
  cases i with
  | zero => simp [hi]
  | succ i => simp

theorem getLsbD_reflectLoop (n : Nat) (data ret : UintFast16 extra) (i : Nat)
    (hi : i < 16) :
    (reflectLoop n data ret).getLsbD i =
      if i < n then data.getLsbD (n - i) else ret.getLsbD (i - n) := by
  induction n generalizing data ret with
  | zero => simp [reflectLoop]
  | succ n ih =>
      rw [reflectLoop, ih, and_one_eq_bit]
      by_cases hlow : i < n
      · rw [if_pos hlow, if_pos (by omega), BitVec.getLsbD_ushiftRight]
        congr 1
        omega
      · rw [if_neg hlow, BitVec.getLsbD_or, BitVec.getLsbD_shiftLeft,
          getLsbD_bit, BitVec.getLsbD_ushiftRight]
        by_cases htop : i = n
        · subst htop
          rw [if_pos (Nat.lt_succ_self i), Nat.sub_self, Nat.add_sub_cancel_left]
          simp
        · have hwidth : i - n < 16 + extra := by omega
          rw [if_neg (by omega), show i - n - 1 = i - (n + 1) by omega]
          simp [hwidth, show i - n ≠ 0 by omega]

/-- The lowest bits of a reflected register are those of the argument, from the
highest on. -/
theorem getLsbD_reflect (data : UintFast16 extra) (dataLen : Nat)
    (hlen : 0 < dataLen) (i : Nat) (hi : i < 16) (hle : i < dataLen) :
    (reflect data dataLen).getLsbD i = data.getLsbD (dataLen - 1 - i) := by
  rw [reflect, getLsbD_reflectLoop _ _ _ _ hi]
  by_cases hlow : i < dataLen - 1
  · rw [if_pos hlow]
  · have heq : i = dataLen - 1 := by omega
    rw [if_neg hlow, heq, Nat.sub_self, and_one_eq_bit, getLsbD_bit]
    simp

theorem setWidth_reflect (crc : UintFast16 extra) :
    (reflect crc 16).setWidth 16 = mirror 16 crc := by
  apply BitVec.eq_of_getLsbD_eq
  intro i hi
  rw [BitVec.getLsbD_setWidth, getLsbD_mirror,
    getLsbD_reflect _ _ (by decide) i hi hi]

/-!
## Bit by bit
-/

/-- One iteration over the bits in `crc_16_dnp_bbb_update`. -/
def bbbUpdateBit (c : BitVec 8) (crc : UintFast16 extra) (i : Nat) :
    UintFast16 extra :=
  let bit : Bool := crc &&& 0x8000 != 0
  let crc := (crc <<< 1) ||| ((c >>> (7 - i)) &&& 0x01).setWidth _
  if bit then crc ^^^ 0x3d65 else crc

/-- The body of the loop of `crc_16_dnp_bbb_update`. -/
def bbbUpdateByte (crc : UintFast16 extra) (d : UInt8) : UintFast16 extra :=
  let reflected : UintFast16 extra := reflect (d.toBitVec.setWidth _) 8
  let c : BitVec 8 := reflected.setWidth 8
  (List.range 8).foldl (bbbUpdateBit c) crc &&& 0xffff

/-- `crc_16_dnp_bbb_update` -/
def bbbUpdate (crc : UintFast16 extra) (data : List UInt8) :
    UintFast16 extra :=
  data.foldl bbbUpdateByte crc &&& 0xffff

/-- One iteration of the loop in `crc_16_dnp_bbb_finalize`. -/
def bbbFinalizeBit (crc : UintFast16 extra) : UintFast16 extra :=
  let bit : Bool := crc &&& 0x8000 != 0
  let crc := crc <<< 1
  if bit then crc ^^^ 0x3d65 else crc

/-- `crc_16_dnp_bbb_finalize` -/
def bbbFinalize (crc : UintFast16 extra) : UintFast16 extra :=
  (reflect (bbbFinalizeBit^[16] crc) 16 ^^^ 0xffff) &&& 0xffff

/-!
## Bit by bit, fast
-/

/-- One iteration over the bits in `crc_16_dnp_bbf_update`. -/
def bbfUpdateBit (c : BitVec 8) (crc : UintFast16 extra) (i : BitVec 8) :
    UintFast16 extra :=
  let bit : Bool := crc &&& 0x8000 != 0
  let bit := if c &&& i != 0 then !bit else bit
  let crc := crc <<< 1
  if bit then crc ^^^ 0x3d65 else crc

/-- The body of the loop of `crc_16_dnp_bbf_update`. -/
def bbfUpdateByte (crc : UintFast16 extra) (d : UInt8) : UintFast16 extra :=
  (List.range 8).foldl (fun crc k =>
    bbfUpdateBit d.toBitVec crc ((0x01 : BitVec 8) <<< k)) crc &&& 0xffff

/-- `crc_16_dnp_bbf_update` -/
def bbfUpdate (crc : UintFast16 extra) (data : List UInt8) :
    UintFast16 extra :=
  data.foldl bbfUpdateByte crc &&& 0xffff

/-- `crc_16_dnp_bbf_finalize` -/
def bbfFinalize (crc : UintFast16 extra) : UintFast16 extra :=
  reflect crc 16 ^^^ 0xffff

/-!
## The mirrored register
-/

theorem and_twoPow_ne_zero {w : Nat} (x : BitVec w) (i : Nat) :
    (x &&& BitVec.twoPow w i != 0) = x.getLsbD i := by
  rw [BitVec.and_twoPow]
  cases hbit : x.getLsbD i with
  | false => simp
  | true =>
      have hi : i < w := by
        apply Decidable.byContradiction
        intro hge
        rw [BitVec.getLsbD_of_ge x i (Nat.le_of_not_lt hge)] at hbit
        cases hbit
      have hne : BitVec.twoPow w i ≠ 0 := by
        intro h
        have hzero := congrArg (fun x => x.getLsbD i) h
        simp [hi] at hzero
      simpa using hne

theorem and_top_ne_zero (crc : UintFast16 extra) :
    (crc &&& 0x8000 != 0) = crc.getLsbD 15 := by
  have htop : (0x8000 : UintFast16 extra) = BitVec.twoPow _ 15 := by
    apply BitVec.eq_of_toNat_eq
    simp [BitVec.toNat_twoPow]
  rw [htop, and_twoPow_ne_zero]

variable (extra) in
theorem mirror_polynomial :
    mirror 16 (0x3d65 : UintFast16 extra) = dnpPolynomial := by
  have hnarrow : (0x3d65 : UintFast16 extra).setWidth 16 = 0x3d65 := by
    apply BitVec.eq_of_toNat_eq
    simp
  rw [mirror, hnarrow, dnpPolynomial]

theorem getLsbD_mask (i : Nat) (hi : i < 16) :
    (0xffff : UintFast16 extra).getLsbD i = true := by
  have hmask : (0xffff : UintFast16 extra) = BitVec.ofNat _ (2 ^ 16 - 1) := rfl
  rw [hmask, BitVec.getLsbD_ofNat, Nat.testBit_two_pow_sub_one]
  simp [hi]
  omega

theorem setWidth_and_mask (crc : UintFast16 extra) :
    (crc &&& 0xffff).setWidth 16 = crc.setWidth 16 := by
  apply BitVec.eq_of_getLsbD_eq
  intro i hi
  rw [BitVec.getLsbD_setWidth, BitVec.getLsbD_setWidth, BitVec.getLsbD_and,
    getLsbD_mask i hi, Bool.and_true]

theorem setWidth_xor_mask (crc : UintFast16 extra) :
    (crc ^^^ 0xffff).setWidth 16 = ~~~ (crc.setWidth 16) := by
  apply BitVec.eq_of_getLsbD_eq
  intro i hi
  rw [BitVec.getLsbD_setWidth, BitVec.getLsbD_xor, getLsbD_mask i hi,
    BitVec.getLsbD_not, BitVec.getLsbD_setWidth]
  simp [hi]

theorem mirror_and_mask (crc : UintFast16 extra) :
    mirror 16 (crc &&& 0xffff) = mirror 16 crc := by
  rw [mirror, setWidth_and_mask, mirror]

/-- The bits of a message, in the order in which they are fed. -/
def messageBits (data : List UInt8) : List Bool :=
  data.flatMap fun d => lowBits 8 (widen d)

theorem messageBits_cons (d : UInt8) (data : List UInt8) :
    messageBits (d :: data) = lowBits 8 (widen d) ++ messageBits data := rfl

theorem feedBits_messageBits (s : BitVec 16) (data : List UInt8) :
    feedBits dnpPolynomial s (messageBits data) = register s data := by
  induction data generalizing s with
  | nil => rfl
  | cons d data ih =>
      have hhigh (i : Nat) (hi : 8 <= i) : (widen d).getLsbD i = false := by
        simp [widen, BitVec.getLsbD_of_ge d.toBitVec i hi]
      rw [messageBits_cons, feedBits_append,
        feedBits_lowBits dnpPolynomial 8 s _ hhigh, register_cons, ih]

theorem mirror_bbbUpdateBit (c : BitVec 8) (crc : UintFast16 extra) (i : Nat) :
    mirror 16 (bbbUpdateBit c crc i) =
      step dnpPolynomial (mirror 16 crc) ^^^
        bit (c.getLsbD (7 - i)) <<< 15 := by
  have hbit : (c >>> (7 - i)).getLsbD 0 = c.getLsbD (7 - i) := by
    rw [BitVec.getLsbD_ushiftRight, Nat.add_zero]
  rw [bbbUpdateBit, and_top_ne_zero, and_one_eq_bit, hbit,
    setWidth_bit (by decide), ← mirror_polynomial extra]
  exact mirror_step (Nat.le_add_right 16 extra) (by decide) _ _ _

theorem mirror_bbbUpdateByte (crc : UintFast16 extra) (d : UInt8) :
    mirror 16 (bbbUpdateByte crc d) =
      shiftInBits dnpPolynomial (mirror 16 crc) (lowBits 8 (widen d)) := by
  let reflected : UintFast16 extra := reflect (d.toBitVec.setWidth _) 8
  have hbits : (List.range 8).map (fun i =>
      (reflected.setWidth 8).getLsbD (7 - i)) = lowBits 8 (widen d) := by
    apply List.map_congr_left
    intro i hi
    have hlt := List.mem_range.mp hi
    rw [BitVec.getLsbD_setWidth,
      getLsbD_reflect _ 8 (by decide) _ (by omega) (by omega),
      show 8 - 1 - (7 - i) = i by omega, BitVec.getLsbD_setWidth, widen,
      BitVec.getLsbD_setWidth]
    simp [show 7 - i < 8 by omega, show i < 16 + extra by omega,
      show i < 16 by omega]
  rw [bbbUpdateByte, mirror_and_mask, ← hbits, shiftInBits, List.foldl_map]
  exact (List.foldl_hom (mirror 16) fun crc i =>
    (mirror_bbbUpdateBit _ crc i).symm).symm

/-- The mirrored register has the message shifted in. -/
theorem mirror_bbbUpdate (crc : UintFast16 extra) (data : List UInt8) :
    mirror 16 (bbbUpdate crc data) =
      shiftInBits dnpPolynomial (mirror 16 crc) (messageBits data) := by
  rw [bbbUpdate, mirror_and_mask]
  induction data generalizing crc with
  | nil => rfl
  | cons d data ih =>
      rw [List.foldl_cons, ih, mirror_bbbUpdateByte, messageBits_cons,
        shiftInBits_append]

theorem mirror_bbbFinalizeBit (crc : UintFast16 extra) :
    mirror 16 (bbbFinalizeBit crc) = step dnpPolynomial (mirror 16 crc) := by
  have hbit : (mirror 16 crc).getLsbD 0 = crc.getLsbD 15 := by
    rw [getLsbD_mirror]
    rfl
  have hshift := mirror_shiftLeft (Nat.le_add_right 16 extra) crc
  rw [bbbFinalizeBit, and_top_ne_zero, step, hbit]
  cases crc.getLsbD 15 with
  | false => simpa using hshift
  | true =>
      rw [if_pos rfl, if_pos rfl, mirror_xor, hshift, mirror_polynomial]

theorem mirror_bbbFinalizeBits (n : Nat) (crc : UintFast16 extra) :
    mirror 16 (bbbFinalizeBit^[n] crc) =
      steps dnpPolynomial n (mirror 16 crc) := by
  induction n generalizing crc with
  | zero => rfl
  | succ n ih =>
      rw [Function.iterate_succ_apply, ih, mirror_bbbFinalizeBit, steps_succ]

/-- At last sixteen zeros follow the message. -/
theorem bbbFinalize_eq (crc : UintFast16 extra) :
    (bbbFinalize crc).setWidth 16 =
      ~~~ (steps dnpPolynomial 16 (mirror 16 crc)) := by
  rw [bbbFinalize, setWidth_and_mask, setWidth_xor_mask, setWidth_reflect,
    mirror_bbbFinalizeBits]

theorem mirror_bbfUpdateBit (c : BitVec 8) (crc : UintFast16 extra) (k : Nat) :
    mirror 16 (bbfUpdateBit c crc ((0x01 : BitVec 8) <<< k)) =
      step dnpPolynomial (mirror 16 crc ^^^ bit (c.getLsbD k)) := by
  have hbit : (mirror 16 crc).getLsbD 0 = crc.getLsbD 15 := by
    rw [getLsbD_mirror]
    rfl
  have hmask : (0x01 : BitVec 8) <<< k = BitVec.twoPow 8 k := rfl
  have hshift := mirror_shiftLeft (Nat.le_add_right 16 extra) crc
  rw [bbfUpdateBit, and_top_ne_zero, hmask, and_twoPow_ne_zero, step_xor_bit,
    hbit]
  -- feedback comes if exactly one of the two bits is set
  have hflip : (if c.getLsbD k = true then !crc.getLsbD 15
      else crc.getLsbD 15) = (crc.getLsbD 15 ^^ c.getLsbD k) := by
    cases crc.getLsbD 15 <;> cases c.getLsbD k <;> rfl
  rw [hflip]
  cases crc.getLsbD 15 ^^ c.getLsbD k with
  | false => simpa using hshift
  | true =>
      rw [if_pos rfl, if_pos rfl, mirror_xor, hshift, mirror_polynomial]

theorem mirror_bbfUpdateByte (crc : UintFast16 extra) (d : UInt8) :
    mirror 16 (bbfUpdateByte crc d) =
      feedBits dnpPolynomial (mirror 16 crc) (lowBits 8 (widen d)) := by
  have hbits : (List.range 8).map d.toBitVec.getLsbD = lowBits 8 (widen d) := by
    apply List.map_congr_left
    intro i hi
    have hlt := List.mem_range.mp hi
    rw [widen, BitVec.getLsbD_setWidth]
    simp [show i < 16 by omega]
  rw [bbfUpdateByte, mirror_and_mask, ← hbits, feedBits, List.foldl_map]
  exact (List.foldl_hom (mirror 16) fun crc k =>
    (mirror_bbfUpdateBit d.toBitVec crc k).symm).symm

/-- The mirrored register has the message fed. -/
theorem mirror_bbfUpdate (crc : UintFast16 extra) (data : List UInt8) :
    mirror 16 (bbfUpdate crc data) = register (mirror 16 crc) data := by
  rw [bbfUpdate, mirror_and_mask, ← feedBits_messageBits]
  induction data generalizing crc with
  | nil => rfl
  | cons d data ih =>
      rw [List.foldl_cons, ih, mirror_bbfUpdateByte, messageBits_cons,
        feedBits_append]

theorem bbfFinalize_eq (crc : UintFast16 extra) :
    (bbfFinalize crc).setWidth 16 = ~~~ (mirror 16 crc) := by
  rw [bbfFinalize, setWidth_xor_mask, setWidth_reflect]

end Crc
end AsciiSerialCom
