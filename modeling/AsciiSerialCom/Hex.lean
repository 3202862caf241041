import AsciiSerialCom.Exception
import AsciiSerialCom.Foundation.Hexadecimal
import AsciiSerialCom.Foundation.Memory

/-!
# Hexadecimal conversion

The conversions at the end of `ascii_serial_com.c`.  The comparisons there are
between a promoted `char` and an `int`, so whether `char` is signed is a
parameter; it turns out to make no difference.  A function that fills a `char`
array is a function to the list of bytes it writes.
-/

namespace AsciiSerialCom

open Foundation
open Foundation.Hexadecimal

/-!
## To hexadecimal
-/

/-- The character `convert_uint8_to_hex` writes for a nibble. -/
def hexChar (caps : Bool) (nibble : BitVec 8) : UInt8 :=
  if nibble < 10 then
    ⟨0x30 + nibble⟩
  else if caps then
    ⟨0x41 + nibble - 10⟩
  else
    ⟨0x61 + nibble - 10⟩

/-- `convert_uint8_to_hex` -/
def convertUint8ToHex (num : BitVec 8) (caps : Bool) : List UInt8 :=
  [hexChar caps ((num >>> 4) &&& 0xf), hexChar caps (num &&& 0xf)]

/-- The loop of the wider conversions: byte `i` goes `2 * i` characters before
the last two. -/
def convertBytesToHex (num : BitVec w) (caps : Bool) : Nat -> List UInt8
  | 0 => []
  | i + 1 =>
      convertUint8ToHex (((num >>> (8 * i)) &&& 0xff).setWidth 8) caps ++
        convertBytesToHex num caps i

/-- `convert_uint16_to_hex` -/
def convertUint16ToHex (num : BitVec 16) (caps : Bool) : List UInt8 :=
  convertBytesToHex num caps 2

/-- `convert_uint32_to_hex` -/
def convertUint32ToHex (num : BitVec 32) (caps : Bool) : List UInt8 :=
  convertBytesToHex num caps 4

/-!
## From hexadecimal
-/

/-- The value of a `char` after promotion to `int`. -/
def promote (charSigned : Bool) (c : UInt8) : Int :=
  if charSigned then c.toBitVec.toInt else c.toNat

/-- What one character adds to the result of `convert_hex_to_uint8`, before the
shift. -/
def hexNibble (charSigned : Bool) (thischar : UInt8) :
    Except Failure (BitVec 8) :=
  let value := promote charSigned thischar
  if 0x30 <= value ∧ value <= 0x39 then
    .ok (thischar.toBitVec - 0x30)
  else if 0x41 <= value ∧ value <= 0x46 then
    .ok (thischar.toBitVec - 0x41 + 10)
  else if 0x61 <= value ∧ value <= 0x66 then
    .ok (thischar.toBitVec - 0x61 + 10)
  else
    .error (.exception .notHexChar)

/-- `convert_hex_to_uint8` -/
def convertHexToUint8 (charSigned : Bool) (instr : Memory UInt8) :
    Except Failure (BitVec 8) := do
  let low ← hexNibble charSigned (instr 1)
  let high ← hexNibble charSigned (instr 0)
  return low ||| high <<< 4

/-- The loop of the wider conversions after `i` of `nBytes` iterations: the last
byte is read first. -/
def convertHexToBytes (charSigned : Bool) (w nBytes : Nat)
    (instr : Memory UInt8) : Nat -> Except Failure (BitVec w)
  | 0 => .ok 0
  | i + 1 => do
      let result ← convertHexToBytes charSigned w nBytes instr i
      let byte ← convertHexToUint8 charSigned
        fun k => instr ((nBytes - 1 - i) * 2 + k)
      return result ||| byte.setWidth w <<< (8 * i)

/-- `convert_hex_to_uint16` -/
def convertHexToUint16 (charSigned : Bool) (instr : Memory UInt8) :
    Except Failure (BitVec 16) :=
  convertHexToBytes charSigned 16 2 instr 2

/-- `convert_hex_to_uint32` -/
def convertHexToUint32 (charSigned : Bool) (instr : Memory UInt8) :
    Except Failure (BitVec 32) :=
  convertHexToBytes charSigned 32 4 instr 4

/-!
## Writing is writing numerals
-/

theorem hexChar_eq_digit :
    forall (caps : Bool) (v : Fin 16),
      hexChar caps (BitVec.ofNat 8 v) = digit caps v := by decide

theorem hexChar_of_lt {caps : Bool} {nibble : BitVec 8}
    (h : nibble.toNat < 16) : hexChar caps nibble = digit caps nibble.toNat := by
  have hdigit := hexChar_eq_digit caps ⟨nibble.toNat, h⟩
  rwa [BitVec.ofNat_toNat, BitVec.setWidth_eq] at hdigit

theorem convertUint8ToHex_eq_digits (num : BitVec 8) (caps : Bool) :
    convertUint8ToHex num caps = digits caps 2 num.toNat := by
  have hlow : (num &&& 0xf).toNat = num.toNat % 16 := by
    rw [BitVec.toNat_and]
    exact Nat.and_two_pow_sub_one_eq_mod num.toNat 4
  have hnum : num.toNat < 256 := num.isLt
  have hhigh : ((num >>> 4) &&& 0xf).toNat = num.toNat / 16 % 16 := by
    rw [BitVec.toNat_and, BitVec.toNat_ushiftRight, Nat.shiftRight_eq_div_pow]
    exact Nat.and_two_pow_sub_one_eq_mod (num.toNat / 2 ^ 4) 4
  rw [convertUint8ToHex, hexChar_of_lt (by omega), hexChar_of_lt (by omega),
    hlow, hhigh]
  rfl

theorem convertBytesToHex_eq_digits (num : BitVec w) (caps : Bool)
    {n : Nat} (hn : 8 * n <= w) :
    convertBytesToHex num caps n = digits caps (2 * n) num.toNat := by
  induction n with
  | zero => rfl
  | succ n ih =>
      have hmask : (0xff : BitVec w).toNat = 2 ^ 8 - 1 := by
        have hw : 2 ^ 8 <= 2 ^ w :=
          Nat.pow_le_pow_right (by decide) (by omega)
        exact Nat.mod_eq_of_lt (Nat.lt_of_lt_of_le (by decide) hw)
      have hbyte : ((((num >>> (8 * n)) &&& 0xff).setWidth 8).toNat) =
          num.toNat / 16 ^ (2 * n) % 16 ^ 2 := by
        rw [BitVec.toNat_setWidth, BitVec.toNat_and, BitVec.toNat_ushiftRight,
          hmask, Nat.and_two_pow_sub_one_eq_mod, Nat.mod_mod,
          Nat.shiftRight_eq_div_pow,
          show (2 : Nat) ^ (8 * n) = 16 ^ (2 * n) by
            rw [show (16 : Nat) = 2 ^ 4 by rfl, ← pow_mul]
            congr 1
            omega]
        rfl
      rw [convertBytesToHex, ih (by omega), convertUint8ToHex_eq_digits, hbyte,
        digits_mod, show 2 * (n + 1) = 2 + 2 * n by omega, digits_append]

theorem convertUint16ToHex_eq_digits (num : BitVec 16) (caps : Bool) :
    convertUint16ToHex num caps = digits caps 4 num.toNat :=
  convertBytesToHex_eq_digits num caps (by decide)

theorem convertUint32ToHex_eq_digits (num : BitVec 32) (caps : Bool) :
    convertUint32ToHex num caps = digits caps 8 num.toNat :=
  convertBytesToHex_eq_digits num caps (by decide)

/-!
## Reading is reading numerals
-/

/-- Bytes beyond the ASCII range are no digits under either promotion. -/
theorem promote_cases (charSigned : Bool) (c : UInt8) :
    promote charSigned c = c.toNat ∨
      promote charSigned c < 0 ∧ 0x80 <= c.toNat := by
  cases charSigned with
  | false => exact Or.inl rfl
  | true =>
      have hlt : c.toNat < 256 := c.toNat_lt
      have hint : c.toBitVec.toInt =
          if 2 * c.toNat < 256 then (c.toNat : Int) else c.toNat - 256 := by
        rw [BitVec.toInt_eq_toNat_cond]
        rfl
      simp only [promote, if_true, hint]
      split <;> omega

theorem hexNibble_eq (charSigned : Bool) (c : UInt8) :
    hexNibble charSigned c =
      match digitValue c with
      | some v => .ok (BitVec.ofNat 8 v)
      | none => .error (.exception .notHexChar) := by
  have hlt := c.toNat_lt
  have hsub (k : Nat) (hk : k <= c.toNat) :
      c.toBitVec - BitVec.ofNat 8 k = BitVec.ofNat 8 (c.toNat - k) := by
    have hc : c.toBitVec = BitVec.ofNat 8 c.toNat := by
      rw [← UInt8.toNat_toBitVec, BitVec.ofNat_toNat, BitVec.setWidth_eq]
    rw [hc, BitVec.ofNat_sub_ofNat_of_le _ _ (by omega) hk]
  have hletter (k : Nat) (hk : k <= c.toNat) :
      c.toBitVec - BitVec.ofNat 8 k + 10 =
        BitVec.ofNat 8 (c.toNat - k + 10) := by
    rw [hsub k hk, BitVec.ofNat_add]
    rfl
  unfold hexNibble digitValue
  rcases promote_cases charSigned c with heq | ⟨hneg, hhigh⟩
  · simp only [heq]
    norm_cast
    split
    · rename_i h
      exact congrArg Except.ok (hsub 0x30 h.left)
    · split
      · rename_i h
        exact congrArg Except.ok (hletter 0x41 h.left)
      · split
        · rename_i h
          exact congrArg Except.ok (hletter 0x61 h.left)
        · rfl
  · simp only
    rw [if_neg (by omega), if_neg (by omega), if_neg (by omega),
      if_neg (by omega), if_neg (by omega), if_neg (by omega)]

/-- The result of reading a numeral, as the conversions return it. -/
def numeral (w : Nat) (l : List UInt8) : Except Failure (BitVec w) :=
  match value l with
  | some v => .ok (BitVec.ofNat w v)
  | none => .error (.exception .notHexChar)

theorem or_nibbles :
    forall high low : Fin 16,
      BitVec.ofNat 8 low ||| BitVec.ofNat 8 high <<< 4 =
        BitVec.ofNat 8 (16 * high.val + low.val) := by decide

theorem value_pair (c d : UInt8) :
    value [c, d] =
      (digitValue c).bind fun u => (digitValue d).map fun v => 16 * u + v := by
  have hone : value [c] = digitValue c := by
    rw [show [c] = [] ++ [c] by rfl, value_snoc]
    cases digitValue c <;> simp
  rw [show [c, d] = [c] ++ [d] by rfl, value_snoc, hone]

theorem convertHexToUint8_eq_numeral (charSigned : Bool)
    (instr : Memory UInt8) :
    convertHexToUint8 charSigned instr = numeral 8 [instr 0, instr 1] := by
  rw [convertHexToUint8, hexNibble_eq, hexNibble_eq, numeral, value_pair]
  cases hlow : digitValue (instr 1) with
  | none => cases digitValue (instr 0) <;> rfl
  | some low =>
      cases hhigh : digitValue (instr 0) with
      | none => rfl
      | some high =>
          have hor := or_nibbles ⟨high, digitValue_lt hhigh⟩
            ⟨low, digitValue_lt hlow⟩
          simp only [bind, Except.bind, pure, Except.pure, Option.bind,
            Option.map_some, hor]

/-- Or-ing a byte above the bits in use adds it. -/
theorem ofNat_or_shiftLeft {w i u v : Nat} (hu : u < 256 ^ i) (hv : v < 256)
    (hw : 8 * (i + 1) <= w) :
    BitVec.ofNat w u ||| (BitVec.ofNat 8 v).setWidth w <<< (8 * i) =
      BitVec.ofNat w (256 ^ i * v + u) := by
  have hbase : (256 : Nat) ^ i = 2 ^ (8 * i) := by
    rw [pow_mul]
    rfl
  have hfit : 2 ^ (8 * i) * 2 ^ 8 <= 2 ^ w := by
    rw [← pow_add]
    exact Nat.pow_le_pow_right (by decide) (by omega)
  rw [hbase] at hu ⊢
  have hprod : 2 ^ (8 * i) * v + u < 2 ^ (8 * i) * 2 ^ 8 := by
    calc
      2 ^ (8 * i) * v + u < 2 ^ (8 * i) * v + 2 ^ (8 * i) := by omega
      _ = 2 ^ (8 * i) * (v + 1) := by ring
      _ <= 2 ^ (8 * i) * 2 ^ 8 := Nat.mul_le_mul_left _ (by omega)
  have hpos : 0 < 2 ^ (8 * i) := Nat.two_pow_pos _
  have hshift : v * 2 ^ (8 * i) <= 2 ^ (8 * i) * v + u := by
    rw [Nat.mul_comm]
    omega
  have hvw : v < 2 ^ w := by
    have : 1 * 2 ^ 8 <= 2 ^ (8 * i) * 2 ^ 8 := Nat.mul_le_mul_right _ hpos
    omega
  apply BitVec.eq_of_toNat_eq
  rw [BitVec.toNat_or, BitVec.toNat_shiftLeft, BitVec.toNat_setWidth,
    BitVec.toNat_ofNat, BitVec.toNat_ofNat, BitVec.toNat_ofNat,
    Nat.mod_eq_of_lt hv, Nat.mod_eq_of_lt hvw,
    Nat.mod_eq_of_lt (show u < 2 ^ w by omega), Nat.shiftLeft_eq,
    Nat.mod_eq_of_lt (show v * 2 ^ (8 * i) < 2 ^ w by omega),
    Nat.mod_eq_of_lt (show 2 ^ (8 * i) * v + u < 2 ^ w by omega),
    Nat.or_comm, ← Nat.shiftLeft_eq, ← Nat.shiftLeft_add_eq_or_of_lt hu,
    Nat.shiftLeft_eq, Nat.mul_comm]

theorem convertHexToBytes_eq_numeral (charSigned : Bool) {w nBytes i : Nat}
    (instr : Memory UInt8) (hi : i <= nBytes) (hw : 8 * nBytes <= w) :
    convertHexToBytes charSigned w nBytes instr i =
      numeral w (Memory.slice instr ((nBytes - i) * 2) (2 * i)) := by
  induction i with
  | zero => rfl
  | succ i ih =>
      have hslice :
          Memory.slice instr ((nBytes - (i + 1)) * 2) (2 * (i + 1)) =
            [instr ((nBytes - 1 - i) * 2), instr ((nBytes - 1 - i) * 2 + 1)] ++
              Memory.slice instr ((nBytes - i) * 2) (2 * i) := by
        rw [show 2 * (i + 1) = 2 * i + 1 + 1 by omega, Memory.slice_cons,
          Memory.slice_cons,
          show (nBytes - (i + 1)) * 2 + 1 + 1 = (nBytes - i) * 2 by omega,
          show nBytes - (i + 1) = nBytes - 1 - i by omega]
        rfl
      rw [convertHexToBytes, ih (by omega), convertHexToUint8_eq_numeral,
        hslice, numeral, numeral, numeral, value_append, Nat.add_zero]
      cases hrest : value (Memory.slice instr ((nBytes - i) * 2) (2 * i)) with
      | none =>
          cases value [instr ((nBytes - 1 - i) * 2),
            instr ((nBytes - 1 - i) * 2 + 1)] <;> rfl
      | some u =>
          cases hpair : value [instr ((nBytes - 1 - i) * 2),
              instr ((nBytes - 1 - i) * 2 + 1)] with
          | none => rfl
          | some v =>
              have hu := value_lt hrest
              have hv := value_lt hpair
              rw [Memory.slice_length, pow_mul] at hu
              have hor := ofNat_or_shiftLeft hu hv
                (show 8 * (i + 1) <= w by omega)
              simp only [bind, Except.bind, pure, Except.pure, Option.bind,
                Option.map_some, hor, Memory.slice_length, pow_mul]
              rfl

theorem convertHexToUint16_eq_numeral (charSigned : Bool)
    (instr : Memory UInt8) :
    convertHexToUint16 charSigned instr =
      numeral 16 (Memory.slice instr 0 4) :=
  convertHexToBytes_eq_numeral charSigned instr (Nat.le_refl _) (by decide)

theorem convertHexToUint32_eq_numeral (charSigned : Bool)
    (instr : Memory UInt8) :
    convertHexToUint32 charSigned instr =
      numeral 32 (Memory.slice instr 0 8) :=
  convertHexToBytes_eq_numeral charSigned instr (Nat.le_refl _) (by decide)

/-!
## The codec
-/

/-- Strings of `n` characters are read, and numbers of `w` bits are written, as
big-endian numerals, and each conversion undoes the other. -/
structure ExactCodec (w n : Nat) (toHex : BitVec w -> Bool -> List UInt8)
    (fromHex : Bool -> Memory UInt8 -> Except Failure (BitVec w)) : Prop where
  reads : forall charSigned instr,
    (forall c, c ∈ Memory.slice instr 0 n -> IsDigit c) ->
      exists num, fromHex charSigned instr = .ok num ∧
        value (Memory.slice instr 0 n) = some num.toNat
  refuses : forall charSigned instr,
    ¬ (forall c, c ∈ Memory.slice instr 0 n -> IsDigit c) ->
      fromHex charSigned instr = .error (.exception .notHexChar)
  reads_written : forall charSigned num caps outstr,
    fromHex charSigned (Memory.store outstr 0 (toHex num caps)) = .ok num
  writes_read : forall charSigned instr caps,
    (forall c, c ∈ Memory.slice instr 0 n -> IsDigitOf caps c) ->
      exists num, fromHex charSigned instr = .ok num ∧
        toHex num caps = Memory.slice instr 0 n

section Codec

variable {w n : Nat} {toHex : BitVec w -> Bool -> List UInt8}
  {fromHex : Bool -> Memory UInt8 -> Except Failure (BitVec w)}

theorem numeral_of_isDigit (hw : 16 ^ n = 2 ^ w) {l : List UInt8}
    (hlen : l.length = n) (h : forall c, c ∈ l -> IsDigit c) :
    exists num : BitVec w, numeral w l = .ok num ∧
      value l = some num.toNat := by
  have hsome : (value l).isSome := by
    rw [value_isSome_iff]
    intro c hc
    exact (digitValue_isSome_iff c).mpr (h c hc)
  rcases Option.isSome_iff_exists.mp hsome with ⟨v, hv⟩
  have hlt : v < 2 ^ w := by
    rw [← hw, ← hlen]
    exact value_lt hv
  refine ⟨BitVec.ofNat w v, by rw [numeral, hv], ?_⟩
  rw [hv, BitVec.toNat_ofNat, Nat.mod_eq_of_lt hlt]

theorem numeral_of_not_isDigit {l : List UInt8}
    (h : ¬ forall c, c ∈ l -> IsDigit c) :
    numeral w l = .error (.exception .notHexChar) := by
  cases hv : value l with
  | none => rw [numeral, hv]
  | some v =>
      have hsome : (value l).isSome := by
        rw [hv]
        rfl
      rw [value_isSome_iff] at hsome
      exact absurd (fun c hc => (digitValue_isSome_iff c).mp (hsome c hc)) h

theorem exactCodec_of_numeral (hw : 16 ^ n = 2 ^ w)
    (hto : forall num caps, toHex num caps = digits caps n num.toNat)
    (hfrom : forall charSigned instr,
      fromHex charSigned instr = numeral w (Memory.slice instr 0 n)) :
    ExactCodec w n toHex fromHex := by
  constructor
  · intro charSigned instr h
    rw [hfrom]
    exact numeral_of_isDigit hw (Memory.slice_length instr 0 n) h
  · intro charSigned instr h
    rw [hfrom]
    exact numeral_of_not_isDigit h
  · intro charSigned num caps outstr
    have hslice := Memory.slice_store_self outstr 0 (toHex num caps)
    rw [hto, digits_length] at hslice
    have hlt : num.toNat < 16 ^ n := hw ▸ num.isLt
    rw [hfrom, hto, hslice, numeral, value_digits caps hlt]
    simp
  · intro charSigned instr caps h
    rcases numeral_of_isDigit hw (Memory.slice_length instr 0 n)
      (fun c hc => isDigit_of_isDigitOf (h c hc)) with ⟨num, hnum, hvalue⟩
    have hdigits := digits_value h hvalue
    rw [Memory.slice_length] at hdigits
    refine ⟨num, (hfrom _ _).trans hnum, ?_⟩
    rw [hto, hdigits]

end Codec

/-- **The hex codec is exact at every width.** -/
theorem hex_codec_exact :
    ExactCodec 8 2 convertUint8ToHex convertHexToUint8 ∧
      ExactCodec 16 4 convertUint16ToHex convertHexToUint16 ∧
      ExactCodec 32 8 convertUint32ToHex convertHexToUint32 := by
  refine ⟨?_, ?_, ?_⟩
  · exact exactCodec_of_numeral (by decide) convertUint8ToHex_eq_digits
      convertHexToUint8_eq_numeral
  · exact exactCodec_of_numeral (by decide) convertUint16ToHex_eq_digits
      convertHexToUint16_eq_numeral
  · exact exactCodec_of_numeral (by decide) convertUint32ToHex_eq_digits
      convertHexToUint32_eq_numeral

end AsciiSerialCom
