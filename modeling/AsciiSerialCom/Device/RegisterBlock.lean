import AsciiSerialCom.Device.RegisterPointers

/-!
# Register block

The handler of `ascii_serial_com_register_block.c`.  A block is a run of words,
so its handler decides like that of pointers to these words with masks that
protect nothing; only where that one answers with an error, this one throws.
-/

namespace AsciiSerialCom

open Foundation
open Foundation.Hexadecimal
open Foundation.StateError

variable {width : RegWidth}

/-- `ascii_serial_com_register_block`; the block is the address of its first
word. -/
structure RegisterBlock (width : RegWidth) where
  block : Nat
  /-- size of block -/
  nRegs : BitVec 16

namespace RegisterBlock

/-- The branch of the handler that reads. -/
def handleRead (register : Nat) (ascVersion appVersion command : UInt8) :
    HandlerM (World width) Unit := do
  let regVal := (← get).world.words register
  modify fun s =>
    { s with data := Memory.store s.data 4 [','.toUInt8] }
  modify fun s =>
    { s with data := Memory.store s.data 5 (putValIntoBytes width regVal) }
  HandlerState.putMessage ascVersion appVersion command (5 + width.bytes * 2)

/-- The branch of the handler that writes. -/
def handleWrite (charSigned : Bool) (register : Nat)
    (ascVersion appVersion command : UInt8) (dataLen : Nat) :
    HandlerM (World width) Unit :=
  if dataLen < 5 + width.bytes then
    raise .regvalLen
  else do
    let newRegVal ← observe fun s =>
      getValFromBytes charSigned width fun i => s.data (5 + i)
    modify fun s =>
      { s with
        world :=
          { s.world with
            words := Memory.store s.world.words register [newRegVal] } }
    HandlerState.putMessage ascVersion appVersion command 4

/-- `ascii_serial_com_register_block_handle_message` -/
def handleMessage (charSigned : Bool)
    (registerBlockState : Option (RegisterBlock width))
    (ascVersion appVersion command : UInt8) (dataLen : Nat) :
    HandlerM (World width) Unit :=
  match registerBlockState with
  | none => raise .regBlockNull
  | some registerBlockState =>
      if command ≠ 'r'.toUInt8 ∧ command ≠ 'w'.toUInt8 then
        raise .unexpectedCommand
      else if dataLen < 4 then
        -- need room for reg num
        raise .dataTooShort
      else do
        let regNum ← observe fun s => convertHexToUint16 charSigned s.data
        if registerBlockState.nRegs <= regNum then
          raise .regnumOob
        else
          let register := registerBlockState.block + regNum.toNat
          if command = 'r'.toUInt8 then
            handleRead register ascVersion appVersion command
          else
            handleWrite charSigned register ascVersion appVersion command
              dataLen

/-- The block as pointers to its words. -/
def toPointers (state : RegisterBlock width) : RegisterPointers width :=
  { pointers := fun regNum => some (state.block + regNum)
    writeMasks := fun _ => BitVec.allOnes width.bits
    nRegs := state.nRegs }

end RegisterBlock

/-- The response of a handler that throws its errors. -/
def Response.strict : Response width -> Response width
  | refused errorCode => thrown errorCode
  | replied data dataLen words => replied data dataLen words
  | thrown e => thrown e

/-- A mask of ones lets everything through. -/
theorem writeWord_allOnes (words : Memory width.Reg) (p : Nat)
    (v : width.Reg) :
    writeWord words p v (BitVec.allOnes width.bits) =
      Memory.store words p [v] := by
  simp [writeWord]

namespace RegisterBlock

variable {charSigned : Bool} {state : RegisterBlock width}
  {ascVersion appVersion command : UInt8} {dataLen register : Nat}

theorem handleRead_eq_pointers (s : HandlerState (World width)) :
    handleRead register ascVersion appVersion command s =
      RegisterPointers.handleRead (some register) ascVersion appVersion command
        s := rfl

/-- With a value of full length, a write differs by its mask only. -/
theorem handleWrite_eq_pointers (h : ¬ dataLen < 5 + width.bytes)
    (s : HandlerState (World width)) :
    handleWrite charSigned register ascVersion appVersion command dataLen s =
      RegisterPointers.handleWrite charSigned (some register)
        (BitVec.allOnes width.bits) ascVersion appVersion command dataLen
        s := by
  rw [handleWrite, RegisterPointers.handleWrite, if_neg h, if_neg h]
  simp only [writeWord_allOnes]

/-- **The handler reacts like that of pointers to its words**, but strictly. -/
theorem handleMessage_eq (s : HandlerState (World width)) :
    handleMessage charSigned (some state) ascVersion appVersion command dataLen
        s =
      (state.toPointers.respond command dataLen s.data s.world.words).strict.react
        ascVersion appVersion command dataLen s := by
  rw [handleMessage, RegisterPointers.respond]
  by_cases hcommand : command ≠ 'r'.toUInt8 ∧ command ≠ 'w'.toUInt8
  · rw [if_pos hcommand, if_pos hcommand]
    rfl
  rw [if_neg hcommand, if_neg hcommand]
  by_cases hshort : dataLen < 4
  · rw [if_pos hshort, if_pos hshort]
    rfl
  rw [if_neg hshort, if_neg hshort]
  cases hvalue : value (Memory.slice s.data 0 4) with
  | none => exact bind_of_error (observe_regNum_of_none hvalue)
  | some regNum =>
      rcases observe_regNum_of_some hvalue with ⟨hobserve, hnat⟩
      rw [bind_of_ok hobserve]
      simp only [BitVec.le_def, hnat]
      have hregs : state.toPointers.nRegs = state.nRegs := rfl
      have hpointer : state.toPointers.pointers regNum =
          some (state.block + regNum) := rfl
      have hmask : state.toPointers.writeMasks regNum =
          BitVec.allOnes width.bits := rfl
      rw [hregs, hpointer, hmask]
      by_cases hoob : state.nRegs.toNat <= regNum
      · rw [if_pos hoob, if_pos hoob]
        rfl
      rw [if_neg hoob, if_neg hoob]
      by_cases hread : command = 'r'.toUInt8
      · rw [if_pos hread, if_pos hread, handleRead_eq_pointers,
          RegisterPointers.handleRead_eq]
        rfl
      rw [if_neg hread, if_neg hread]
      by_cases hlen : dataLen < 5 + width.bytes
      · rw [if_pos hlen, handleWrite, if_pos hlen]
        rfl
      rw [if_neg hlen, handleWrite_eq_pointers hlen,
        RegisterPointers.handleWrite_eq, if_neg hlen]
      cases value (Memory.slice s.data 5 (2 * width.bytes)) <;> rfl

end RegisterBlock
end AsciiSerialCom
