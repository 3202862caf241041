import AsciiSerialCom.Foundation.ShiftRegister

/-!
# CRC-16-DNP

The checksum of a frame as its name defines it: polynomial `0x3d65`, reflected
on input and output, started at zero and complemented at the end.  A byte is
fed as eight shifts of the register.

The polynomial has both end bits, so the register forgets nothing, and a change
confined to two adjacent bytes always shows in the checksum.
-/

namespace AsciiSerialCom
namespace Crc

open Foundation.ShiftRegister

/-- The polynomial, with the bit order of a reflected register. -/
def dnpPolynomial : BitVec 16 := (0x3d65 : BitVec 16).reverse

/-- A byte as it enters the register. -/
def widen (byte : UInt8) : BitVec 16 := byte.toBitVec.setWidth 16

/-- The register after the bytes, from a register `s`. -/
def register (s : BitVec 16) (bytes : List UInt8) : BitVec 16 :=
  bytes.foldl (fun s byte => feed dnpPolynomial 8 s (widen byte)) s

/-- The CRC-16-DNP of a byte string. -/
def crc16Dnp (bytes : List UInt8) : BitVec 16 := ~~~ register 0 bytes

-- the catalogued check value of the parameters, over `123456789`
example : crc16Dnp [0x31, 0x32, 0x33, 0x34, 0x35, 0x36, 0x37, 0x38, 0x39] =
    0xea82 := by decide +kernel

@[simp] theorem register_nil (s : BitVec 16) : register s [] = s := rfl

theorem register_cons (s : BitVec 16) (byte : UInt8) (rest : List UInt8) :
    register s (byte :: rest) =
      register (feed dnpPolynomial 8 s (widen byte)) rest := rfl

theorem register_append (s : BitVec 16) (front back : List UInt8) :
    register s (front ++ back) = register (register s front) back :=
  List.foldl_append

theorem widen_injective : Function.Injective widen := by
  intro a b h
  have hback : forall byte : UInt8, (widen byte).setWidth 8 = byte.toBitVec := by
    intro byte
    rw [widen, BitVec.setWidth_setWidth_of_le _ (by decide),
      BitVec.setWidth_eq]
  apply UInt8.toBitVec_inj.mp
  rw [← hback a, ← hback b, h]

/-!
## Detecting bursts
-/

theorem dnpPolynomial_msb : dnpPolynomial.msb = true := by decide

theorem register_injective_state (bytes : List UInt8) :
    Function.Injective fun s => register s bytes := by
  induction bytes with
  | nil => exact fun _ _ h => h
  | cons byte rest ih =>
      intro s t h
      exact feed_injective_state _ dnpPolynomial_msb 8 (widen byte) (ih h)

theorem feed_injective_block (s : BitVec 16) {b c : UInt8}
    (h : feed dnpPolynomial 8 s (widen b) =
      feed dnpPolynomial 8 s (widen c)) : b = c := by
  have hxor := steps_injective dnpPolynomial dnpPolynomial_msb 8 h
  exact widen_injective (BitVec.xor_right_inj s |>.mp hxor)

theorem widen_shiftLeft_shiftRight (byte : UInt8) :
    (widen byte <<< 8) >>> 8 = widen byte := by
  apply BitVec.eq_of_getLsbD_eq
  intro i hi
  simp only [BitVec.getLsbD_ushiftRight, BitVec.getLsbD_shiftLeft, widen,
    BitVec.getLsbD_setWidth]
  by_cases hbyte : i < 8
  · have h16 : 8 + i < 16 := by omega
    simp [h16, hi]
  · have hzero : byte.toBitVec.getLsbD i = false :=
      BitVec.getLsbD_of_ge _ _ (by omega)
    simp [hzero]

/-- The register determines the last two bytes fed into it. -/
theorem register_pair_injective (s : BitVec 16) {b c b' c' : UInt8}
    (h : register s [b, c] = register s [b', c']) : b = b' ∧ c = c' := by
  have hpair (x y : UInt8) :
      register s [x, y] =
        steps dnpPolynomial 16 (s ^^^ (widen x ^^^ widen y <<< 8)) :=
    feed_feed dnpPolynomial 8 8 s (widen x) (widen y)
      (widen_shiftLeft_shiftRight y)
  rw [hpair, hpair] at h
  have hxor := steps_injective dnpPolynomial dnpPolynomial_msb 16 h
  have hword : widen b ^^^ widen c <<< 8 = widen b' ^^^ widen c' <<< 8 :=
    BitVec.xor_right_inj s |>.mp hxor
  have hhigh (x y : UInt8) : (widen x ^^^ widen y <<< 8) >>> 8 = widen y := by
    have hx : widen x >>> 8 = 0#16 := by
      apply BitVec.eq_of_getLsbD_eq
      intro i _
      simp [widen, BitVec.getLsbD_ushiftRight]
    rw [BitVec.ushiftRight_xor_distrib, hx, widen_shiftLeft_shiftRight,
      BitVec.zero_xor]
  have hc : c = c' := by
    apply widen_injective
    rw [← hhigh b c, ← hhigh b' c', hword]
  refine ⟨?_, hc⟩
  rw [hc] at hword
  exact widen_injective (BitVec.xor_left_inj _ |>.mp hword)

theorem crc16Dnp_inj {x y : List UInt8} (h : crc16Dnp x = crc16Dnp y) :
    register 0 x = register 0 y := BitVec.not_inj.mp h

theorem crc16Dnp_ne_of_byte (front back : List UInt8) {b b' : UInt8}
    (h : b ≠ b') :
    crc16Dnp (front ++ b :: back) ≠ crc16Dnp (front ++ b' :: back) := by
  intro heq
  have hreg := crc16Dnp_inj heq
  rw [register_append, register_append, register_cons, register_cons] at hreg
  exact h (feed_injective_block _ (register_injective_state back hreg))

theorem crc16Dnp_ne_of_pair (front back : List UInt8) {b c b' c' : UInt8}
    (h : ¬ (b = b' ∧ c = c')) :
    crc16Dnp (front ++ b :: c :: back) ≠
      crc16Dnp (front ++ b' :: c' :: back) := by
  intro heq
  have hreg := crc16Dnp_inj heq
  rw [register_append, register_append] at hreg
  have hpair : register (register 0 front) [b, c] =
      register (register 0 front) [b', c'] :=
    register_injective_state back hreg
  exact h (register_pair_injective _ hpair)

end Crc
end AsciiSerialCom
