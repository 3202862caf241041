import AsciiSerialCom.Crc.BitByBit
import AsciiSerialCom.Crc.Crcmod
import AsciiSerialCom.SerialCom.Decode

/-!
# The choice of a checksum implementation

`ascii_serial_com.c` is compiled with one of four implementations of its
checksum.  Each keeps the register of the definition in a form of its own.  The
form is read off by `register`, and that all four agree follows from what each
function does to it.
-/

namespace AsciiSerialCom

open Foundation
open Foundation.ShiftRegister
open Crc

/-- `crc_option` -/
inductive CrcOption where
  | bbb
  | bbf
  | tbl4bit
  | crcmod
deriving DecidableEq, Repr

namespace CrcOption

variable (extra : Nat)

/-- The value with which `ascii_serial_com_compute_checksum` starts: `crc_init`,
or all ones for `crc_crcmod`. -/
def start : CrcOption -> BitVec 16
  | .bbb => 0x0000
  | .bbf => 0x0000
  | .tbl4bit => crcInit
  | .crcmod => 0xFFFF

/-- `crc_update`, or `computeCRC_16_DNP`.  The value goes through a `uint16_t`
between two calls. -/
def update : CrcOption -> BitVec 16 -> List UInt8 -> BitVec 16
  | .bbb, crc, data =>
      (bbbUpdate (crc.setWidth (16 + extra)) data).setWidth 16
  | .bbf, crc, data =>
      (bbfUpdate (crc.setWidth (16 + extra)) data).setWidth 16
  | .tbl4bit, crc, data => crcUpdate crc data
  | .crcmod, crc, data => computeCRC16DNP data crc

/-- `crc_finalize`, where there is one. -/
def finalize : CrcOption -> BitVec 16 -> BitVec 16
  | .bbb, crc => (bbbFinalize (crc.setWidth (16 + extra))).setWidth 16
  | .bbf, crc => (bbfFinalize (crc.setWidth (16 + extra))).setWidth 16
  | .tbl4bit, crc => crcFinalize crc
  | .crcmod, crc => crc

/-- The checksum of blocks, one after the other. -/
def crcOfBlocks (option : CrcOption) (blocks : List (List UInt8)) :
    BitVec 16 :=
  option.finalize extra (blocks.foldl (option.update extra) option.start)

/-!
## The register behind the value
-/

/-- The register of the definition, as the value of an implementation tells. -/
def register : CrcOption -> BitVec 16 -> BitVec 16
  | .bbb, crc => steps dnpPolynomial 16 (mirror 16 crc)
  | .bbf, crc => mirror 16 crc
  | .tbl4bit, crc => crc
  | .crcmod, crc => ~~~ crc

theorem register_start (option : CrcOption) :
    option.register option.start = 0 := by
  cases option with
  | bbb => decide
  | bbf => decide
  | tbl4bit => rfl
  | crcmod => decide

theorem register_update (option : CrcOption) (crc : BitVec 16)
    (data : List UInt8) :
    option.register (option.update extra crc data) =
      Crc.register (option.register crc) data := by
  have hwide : 16 <= 16 + extra := Nat.le_add_right 16 extra
  cases option with
  | bbb =>
      rw [update, register, mirror_setWidth (Nat.le_refl 16), mirror_bbbUpdate,
        mirror_setWidth hwide, steps_shiftInBits _ (by decide),
        feedBits_messageBits]
      rfl
  | bbf =>
      rw [update, register, mirror_setWidth (Nat.le_refl 16), mirror_bbfUpdate,
        mirror_setWidth hwide]
      rfl
  | tbl4bit => exact crcUpdate_eq_register crc data
  | crcmod =>
      have hcrc := computeCRC16DNP_eq_register data (~~~ crc)
      rw [BitVec.not_not] at hcrc
      rw [update, register, hcrc, BitVec.not_not]
      rfl

theorem finalize_eq (option : CrcOption) (crc : BitVec 16) :
    option.finalize extra crc = ~~~ (option.register crc) := by
  have hwide : 16 <= 16 + extra := Nat.le_add_right 16 extra
  cases option with
  | bbb => rw [finalize, bbbFinalize_eq, mirror_setWidth hwide, register]
  | bbf => rw [finalize, bbfFinalize_eq, mirror_setWidth hwide, register]
  | tbl4bit => exact BitVec.xor_allOnes
  | crcmod => rw [finalize, register, BitVec.not_not]

theorem register_blocks (option : CrcOption) (crc : BitVec 16)
    (blocks : List (List UInt8)) :
    option.register (blocks.foldl (option.update extra) crc) =
      Crc.register (option.register crc) blocks.flatten := by
  induction blocks generalizing crc with
  | nil => rfl
  | cons block blocks ih =>
      rw [List.foldl_cons, ih, register_update, List.flatten_cons,
        register_append]

/-- Every implementation computes the checksum of the joined blocks. -/
theorem crcOfBlocks_eq (option : CrcOption) (blocks : List (List UInt8)) :
    option.crcOfBlocks extra blocks = crc16Dnp blocks.flatten := by
  rw [crcOfBlocks, finalize_eq, register_blocks, register_start]
  rfl

/-!
## The checksum of a received frame
-/

/-- The loop of `ascii_serial_com_compute_checksum` over the blocks. -/
def updateBlocks (option : CrcOption) (circBuf : CircularBufferUint8) :
    (crc : BitVec 16) -> List (Nat × Nat) -> Except Failure (BitVec 16)
  | crc, [] => .ok crc
  | crc, block :: rest => do
      let bytes ← circBuf.readBlock block
      option.updateBlocks circBuf (option.update extra crc bytes) rest

/-- `ascii_serial_com_compute_checksum`, compiled with an option. -/
def computeChecksum (option : CrcOption) (outputBuffer : Bool)
    (circBuf : RingBuffer maxMessageLen) : Except Failure (List UInt8) := do
  let blocks ← checksumBlocks outputBuffer circBuf
  let crc ← option.updateBlocks extra circBuf.raw option.start blocks
  return convertUint16ToHex (option.finalize extra crc) true

/-- The function as it stands is compiled with the table of nibbles. -/
theorem computeChecksum_tbl4bit :
    CrcOption.tbl4bit.computeChecksum extra =
      AsciiSerialCom.computeChecksum := by
  have hblocks (circBuf : CircularBufferUint8) (crc : BitVec 16)
      (blocks : List (Nat × Nat)) :
      CrcOption.tbl4bit.updateBlocks extra circBuf crc blocks =
        crcUpdateBlocks circBuf crc blocks := by
    induction blocks generalizing crc with
    | nil => rfl
    | cons block rest ih =>
        rw [updateBlocks, crcUpdateBlocks]
        cases circBuf.readBlock block with
        | error e => rfl
        | ok bytes => exact ih _
  funext outputBuffer circBuf
  rw [computeChecksum, AsciiSerialCom.computeChecksum]
  simp only [hblocks]
  rfl

theorem register_updateBlocks (option : CrcOption)
    {circBuf : CircularBufferUint8} {blocks : List (Nat × Nat)}
    {region : List UInt8} (hread : circBuf.readBlocks blocks = .ok region)
    (crc : BitVec 16) :
    exists crc', option.updateBlocks extra circBuf crc blocks = .ok crc' ∧
      option.register crc' = Crc.register (option.register crc) region := by
  induction blocks generalizing crc region with
  | nil =>
      cases hread
      exact ⟨crc, rfl, rfl⟩
  | cons block rest ih =>
      rw [CircularBufferUint8.readBlocks] at hread
      rw [updateBlocks]
      cases hblock : circBuf.readBlock block with
      | error e =>
          rw [hblock] at hread
          cases hread
      | ok bytes =>
          rw [hblock] at hread
          cases hrest : circBuf.readBlocks rest with
          | error e =>
              simp only [hrest, bind, Except.bind] at hread
              cases hread
          | ok others =>
              simp only [hrest, bind, Except.bind, pure, Except.pure] at hread
              cases hread
              rcases ih hrest (option.update extra crc bytes) with
                ⟨crc', hrun, hregister⟩
              refine ⟨crc', hrun, ?_⟩
              rw [hregister, register_update, register_append]

theorem exists_of_frontPeriod {l : List UInt8} {i : Nat}
    (hstart : l.head? = some startByte) (hperiod : l[i]? = some periodByte)
    (hfirst : periodByte ∉ l.take i) (hi : 0 < i) :
    exists fields rest, l = startByte :: (fields ++ periodByte :: rest) ∧
      periodByte ∉ fields ∧ i = fields.length + 1 := by
  cases l with
  | nil => cases hstart
  | cons x l =>
      injection hstart with hx
      subst hx
      cases i with
      | zero => exact absurd hi (Nat.lt_irrefl 0)
      | succ i =>
          rw [List.getElem?_cons_succ] at hperiod
          rcases split_of_getElem? hperiod with ⟨hsplit, hlen⟩
          refine ⟨l.take i, l.drop (i + 1), ?_, ?_, by rw [hlen]⟩
          · rw [← hsplit]
          · intro hmem
            exact hfirst (List.mem_cons_of_mem _ hmem)

/-- **The checksum of a received frame does not depend on the implementation**,
nor on where the buffer's memory ends. -/
theorem computeChecksum_eq (option : CrcOption)
    {circBuf : RingBuffer maxMessageLen} {i : Nat}
    (hstart : circBuf.contents.head? = some startByte)
    (hperiod : circBuf.contents[i]? = some periodByte)
    (hfirst : periodByte ∉ circBuf.contents.take i) (hi : 4 <= i ∧ i <= 58) :
    option.computeChecksum extra false circBuf =
        .ok (checksumOf (circBuf.contents.take (i + 1))) ∧
      forall front back, front ++ back = circBuf.contents.take (i + 1) ->
        option.crcOfBlocks extra [front, back] =
            option.crcOfBlocks extra [front ++ back] ∧
          option.crcOfBlocks extra [front, back] =
            crc16Dnp (circBuf.contents.take (i + 1)) := by
  constructor
  · rcases exists_of_frontPeriod hstart hperiod hfirst (by omega) with
      ⟨fields, rest, hc, hfields, rfl⟩
    have hmax : maxDataLen = 54 := rfl
    rcases readBlocks_checksumBlocks_in hc hfields (by omega) (by omega) with
      ⟨blocks, hblocks, hread⟩
    rcases option.register_updateBlocks extra hread option.start with
      ⟨crc, hrun, hregister⟩
    have hregion : circBuf.contents.take (fields.length + 1 + 1) =
        startByte :: (fields ++ [periodByte]) := by
      rw [hc, List.take_succ_cons, List.append_cons,
        List.take_left' (by simp)]
    rw [register_start] at hregister
    rw [computeChecksum, hblocks, hregion]
    simp only [bind, Except.bind, hrun, pure, Except.pure, finalize_eq,
      hregister, convertUint16ToHex_eq_digits]
    rfl
  · intro front back hregion
    rw [crcOfBlocks_eq, crcOfBlocks_eq, ← hregion]
    simp

/-- A message without data, up to its period. -/
def noDataRegion : List UInt8 :=
  [startByte, '0'.toUInt8, '0'.toUInt8, 'z'.toUInt8, periodByte]

/-- The message is checked bit by bit, in a register of thirty-two bits. -/
theorem computeChecksum_eq_of_bbb :
    CrcOption.bbb.computeChecksum 16 false
        (Receiver.holding noDataRegion).asc.inBuf =
      .ok (checksumOf noDataRegion) := by
  have hc := Receiver.holding_contents noDataRegion (by decide)
  have hperiod : noDataRegion[4]? = some periodByte := rfl
  rw [← hc] at hperiod
  have hchecksum := (computeChecksum_eq 16 .bbb (by rw [hc]; rfl) hperiod
    (by rw [hc]; decide) (by decide)).left
  rw [hc] at hchecksum
  exact hchecksum

end CrcOption
end AsciiSerialCom
