import AsciiSerialCom.Crc.Dnp

/-!
# The four-bit table implementation

`crc_16_dnp_tbl4bit.c`, which `ascii_serial_com.c` selects.  The register type
of the C code may be wider than sixteen bits, but no value it holds is.  Each
byte takes two table lookups, one for each nibble; together they are the eight
shifts of the definition.
-/

namespace AsciiSerialCom
namespace Crc

open Foundation.ShiftRegister

/-- `crc_table` -/
def crcTable : List (BitVec 16) :=
  [0x0000, 0xb26b, 0x29af, 0x9bc4, 0x535e, 0xe135, 0x7af1, 0xc89a,
    0xa6bc, 0x14d7, 0x8f13, 0x3d78, 0xf5e2, 0x4789, 0xdc4d, 0x6e26]

/-- `crc_table[tbl_idx & 0x0f]` -/
def crcTableAt (tblIdx : BitVec 16) : BitVec 16 :=
  crcTable.getD (tblIdx &&& 0x0f).toNat 0

/-- `crc_16_dnp_tbl4bit_init` -/
def crcInit : BitVec 16 := 0x0000

/-- The body of the loop of `crc_16_dnp_tbl4bit_update`. -/
def crcUpdateByte (crc : BitVec 16) (d : UInt8) : BitVec 16 :=
  let tblIdx := crc ^^^ d.toBitVec.setWidth 16
  let crc := crcTableAt tblIdx ^^^ (crc >>> 4)
  let tblIdx := crc ^^^ (d.toBitVec.setWidth 16 >>> 4)
  crcTableAt tblIdx ^^^ (crc >>> 4)

/-- `crc_16_dnp_tbl4bit_update` -/
def crcUpdate (crc : BitVec 16) (data : List UInt8) : BitVec 16 :=
  data.foldl crcUpdateByte crc

/-- `crc_16_dnp_tbl4bit_finalize` -/
def crcFinalize (crc : BitVec 16) : BitVec 16 := crc ^^^ 0xffff

/-- Every entry of the table is four shifts of its index. -/
theorem crcTable_eq_steps :
    forall i : Fin 16, crcTable.getD i 0 =
      steps dnpPolynomial 4 (BitVec.ofNat 16 i) := by decide

/-- The index that a lookup uses. -/
def lowNibble (x : BitVec 16) : BitVec 16 := x &&& 0x0f

theorem crcTableAt_eq_steps (x : BitVec 16) :
    crcTableAt x = steps dnpPolynomial 4 (lowNibble x) := by
  have hlt : (lowNibble x).toNat < 16 := by
    rw [lowNibble, BitVec.toNat_and]
    exact Nat.lt_of_le_of_lt Nat.and_le_right (by decide)
  have hentry := crcTable_eq_steps ⟨_, hlt⟩
  rwa [BitVec.ofNat_toNat, BitVec.setWidth_eq] at hentry

@[simp] theorem getLsbD_lowNibble (x : BitVec 16) (i : Nat) :
    (lowNibble x).getLsbD i = (decide (i < 4) && x.getLsbD i) := by
  have hmask : (0x0f : BitVec 16).getLsbD i = decide (i < 4) := by
    by_cases hi : i < 16
    · exact (by decide : forall i : Fin 16,
        (0x0f : BitVec 16).getLsbD i = decide (i.val < 4)) ⟨i, hi⟩
    · rw [BitVec.getLsbD_of_ge _ _ (by omega), eq_comm, decide_eq_false_iff_not]
      omega
  rw [lowNibble, BitVec.getLsbD_and, hmask, Bool.and_comm]

/-- One lookup is four shifts, with the next nibble added. -/
theorem lookup_eq_feed (s n : BitVec 16) :
    crcTableAt (s ^^^ n) ^^^ (s >>> 4) =
      feed dnpPolynomial 4 s (lowNibble n) := by
  rw [crcTableAt_eq_steps, feed,
    steps_split dnpPolynomial 4 (s ^^^ lowNibble n) (lowNibble (s ^^^ n))]
  · congr 1
    apply BitVec.eq_of_getLsbD_eq
    intro i _
    simp [BitVec.getLsbD_ushiftRight]
  · intro i hi
    simp [hi]
  · apply BitVec.eq_of_getLsbD_eq
    intro i _
    simp [BitVec.getLsbD_ushiftRight]

theorem crcUpdateByte_eq_feed (s : BitVec 16) (d : UInt8) :
    crcUpdateByte s d = feed dnpPolynomial 8 s (widen d) := by
  have hhigh : forall i, 8 <= i -> (widen d).getLsbD i = false := by
    intro i hi
    simp [widen, BitVec.getLsbD_of_ge d.toBitVec i hi]
  have hfit : (lowNibble (widen d >>> 4) <<< 4) >>> 4 =
      lowNibble (widen d >>> 4) := by
    apply BitVec.eq_of_getLsbD_eq
    intro i hi
    simp only [BitVec.getLsbD_ushiftRight, BitVec.getLsbD_shiftLeft,
      getLsbD_lowNibble]
    by_cases hlow : i < 4
    · simp [hlow, show 4 + i < 16 by omega]
    · simp [hlow]
  have hjoin : lowNibble (widen d) ^^^ lowNibble (widen d >>> 4) <<< 4 =
      widen d := by
    apply BitVec.eq_of_getLsbD_eq
    intro i hi
    simp only [BitVec.getLsbD_xor, BitVec.getLsbD_shiftLeft,
      getLsbD_lowNibble, BitVec.getLsbD_ushiftRight]
    by_cases hlow : i < 4
    · simp [hlow]
    · by_cases hbyte : i < 8
      · simp [hlow, hi, show i - 4 < 4 by omega, show 4 + (i - 4) = i by omega]
      · simp [hlow, hhigh i (by omega), show ¬ i - 4 < 4 by omega]
  calc
    crcUpdateByte s d =
        feed dnpPolynomial 4 (feed dnpPolynomial 4 s (lowNibble (widen d)))
          (lowNibble (widen d >>> 4)) := by
      rw [← lookup_eq_feed, ← lookup_eq_feed]
      rfl
    _ = feed dnpPolynomial 8 s (widen d) := by
      rw [feed_feed dnpPolynomial 4 4 _ _ _ hfit, hjoin]
      rfl

theorem crcUpdate_eq_register (s : BitVec 16) (data : List UInt8) :
    crcUpdate s data = register s data := by
  induction data generalizing s with
  | nil => rfl
  | cons d data ih =>
      rw [register_cons, ← crcUpdateByte_eq_feed, ← ih]
      rfl

theorem crcUpdate_append (s : BitVec 16) (front back : List UInt8) :
    crcUpdate (crcUpdate s front) back = crcUpdate s (front ++ back) :=
  List.foldl_append.symm

/-- The table implementation computes the CRC-16-DNP. -/
theorem crcFinalize_crcUpdate (data : List UInt8) :
    crcFinalize (crcUpdate crcInit data) = crc16Dnp data := by
  have hnot (x : BitVec 16) : crcFinalize x = ~~~ x := BitVec.xor_allOnes
  rw [hnot, crcUpdate_eq_register]
  rfl

end Crc
end AsciiSerialCom
