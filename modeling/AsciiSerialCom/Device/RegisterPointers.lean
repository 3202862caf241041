import AsciiSerialCom.Device.Basic

/-!
# Register pointers

The handler of `ascii_serial_com_register_pointers.c`.  `respond` says what the
handler decides before it puts its answer; everything above goes through its
cases.
-/

namespace AsciiSerialCom

open Foundation
open Foundation.Hexadecimal
open Foundation.StateError

/-- `REGWIDTHBYTES` -/
inductive RegWidth where
  | one
  | two
  | four
  deriving DecidableEq, Repr

namespace RegWidth

def bytes : RegWidth -> Nat
  | one => 1
  | two => 2
  | four => 4

def bits (width : RegWidth) : Nat := 8 * width.bytes

/-- `REGTYPE` -/
abbrev Reg (width : RegWidth) := BitVec width.bits

theorem bytes_le (width : RegWidth) : width.bytes <= 4 := by
  cases width <;> decide

end RegWidth

/-- `put_val_into_bytes` -/
def putValIntoBytes : (width : RegWidth) -> width.Reg -> List UInt8
  | .one, x => convertUint8ToHex x true
  | .two, x => convertUint16ToHex x true
  | .four, x => convertUint32ToHex x true

/-- `get_val_from_bytes` -/
def getValFromBytes (charSigned : Bool) :
    (width : RegWidth) -> Memory UInt8 -> Except Failure width.Reg
  | .one, b => convertHexToUint8 charSigned b
  | .two, b => convertHexToUint16 charSigned b
  | .four, b => convertHexToUint32 charSigned b

theorem putValIntoBytes_eq_digits (width : RegWidth) (x : width.Reg) :
    putValIntoBytes width x = digits true (2 * width.bytes) x.toNat := by
  cases width with
  | one => exact convertUint8ToHex_eq_digits x true
  | two => exact convertUint16ToHex_eq_digits x true
  | four => exact convertUint32ToHex_eq_digits x true

theorem getValFromBytes_eq_numeral (charSigned : Bool) (width : RegWidth)
    (b : Memory UInt8) :
    getValFromBytes charSigned width b =
      numeral width.bits (Memory.slice b 0 (2 * width.bytes)) := by
  cases width with
  | one => exact convertHexToUint8_eq_numeral charSigned b
  | two => exact convertHexToUint16_eq_numeral charSigned b
  | four => exact convertHexToUint32_eq_numeral charSigned b

/-- `ascii_serial_com_register_pointers`; a register pointer is the address of a
word of the world, or nothing for `NULL`. -/
structure RegisterPointers (width : RegWidth) where
  pointers : Nat -> Option Nat
  writeMasks : Nat -> width.Reg
  /-- number of registers -/
  nRegs : BitVec 16

/-- What the handlers of a device with register pointers work on. -/
structure World (width : RegWidth) where
  /-- the memory that register pointers lead to -/
  words : Memory width.Reg
  /-- the flag of the streaming commands -/
  streamingIsOn : Bool

section Handler

variable {width : RegWidth}

/-- The assignment to the register behind a pointer. -/
def writeWord (words : Memory width.Reg) (pointer : Nat)
    (newRegVal mask : width.Reg) : Memory width.Reg :=
  Memory.store words pointer
    [(newRegVal &&& mask) ||| (words pointer &&& ~~~mask)]

namespace RegisterPointers

/-- The branch of the handler that reads. -/
def handleRead (pointer : Option Nat)
    (ascVersion appVersion command : UInt8) : HandlerM (World width) Unit := do
  let words := (← get).world.words
  let regVal : width.Reg :=
    match pointer with
    | none => 0
    | some p => words p
  modify fun s =>
    { s with data := Memory.store s.data 4 [','.toUInt8] }
  modify fun s =>
    { s with data := Memory.store s.data 5 (putValIntoBytes width regVal) }
  HandlerState.putMessage ascVersion appVersion command (5 + width.bytes * 2)

/-- The branch of the handler that writes. -/
def handleWrite (charSigned : Bool) (pointer : Option Nat)
    (mask : width.Reg) (ascVersion appVersion command : UInt8)
    (dataLen : Nat) : HandlerM (World width) Unit :=
  if dataLen < 5 + width.bytes then
    HandlerState.putError .regvalLen ascVersion appVersion command dataLen
  else
    match pointer with
    | none => HandlerState.putMessage ascVersion appVersion command 4
    | some p => do
        let newRegVal ← observe fun s =>
          getValFromBytes charSigned width fun i => s.data (5 + i)
        modify fun s =>
          { s with
            world :=
              { s.world with
                words := writeWord s.world.words p newRegVal mask } }
        HandlerState.putMessage ascVersion appVersion command 4

/-- `ascii_serial_com_register_pointers_handle_message` -/
def handleMessage (charSigned : Bool)
    (registerPointersState : Option (RegisterPointers width))
    (ascVersion appVersion command : UInt8) (dataLen : Nat) :
    HandlerM (World width) Unit :=
  match registerPointersState with
  | none =>
      HandlerState.putError .regBlockNull ascVersion appVersion command dataLen
  | some registerPointersState =>
      if command ≠ 'r'.toUInt8 ∧ command ≠ 'w'.toUInt8 then
        HandlerState.putError .unexpectedCommand ascVersion appVersion command
          dataLen
      else if dataLen < 4 then
        -- need room for reg num
        HandlerState.putError .dataTooShort ascVersion appVersion command
          dataLen
      else do
        let regNum ← observe fun s => convertHexToUint16 charSigned s.data
        if registerPointersState.nRegs <= regNum then
          HandlerState.putError .regnumOob ascVersion appVersion command
            dataLen
        else
          let pointer := registerPointersState.pointers regNum.toNat
          if command = 'r'.toUInt8 then
            handleRead pointer ascVersion appVersion command
          else
            handleWrite charSigned pointer
              (registerPointersState.writeMasks regNum.toNat) ascVersion
              appVersion command dataLen

end RegisterPointers

/-- `_handle_nf_messages` -/
def handleNfMessages (_ascVersion _appVersion command : UInt8)
    (_dataLen : Nat) : HandlerM (World width) Unit :=
  if command = 'n'.toUInt8 then
    modify fun s => { s with world := { s.world with streamingIsOn := true } }
  else if command = 'f'.toUInt8 then
    modify fun s => { s with world := { s.world with streamingIsOn := false } }
  else
    pure ()

/-!
## Responses
-/

/-- What the handler decides to do with a request. -/
inductive Response (width : RegWidth) where
  /-- put an error message -/
  | refused (errorCode : AscException)
  /-- put a message with these data, once the words are as given -/
  | replied (data : Memory UInt8) (dataLen : Nat) (words : Memory width.Reg)
  | thrown (e : AscException)

namespace Response

/-- The data buffer when the answer is put. -/
def dataAfter (data : Memory UInt8) : Response width -> Memory UInt8
  | refused _ => data
  | replied data _ _ => data
  | thrown _ => data

/-- The world when the answer is put. -/
def worldAfter (world : World width) : Response width -> World width
  | refused _ => world
  | replied _ _ words => { world with words := words }
  | thrown _ => world

/-- The state from which the answer is put. -/
def prepare (s : HandlerState (World width)) (response : Response width) :
    HandlerState (World width) :=
  { s with
    data := response.dataAfter s.data
    world := response.worldAfter s.world }

/-- Put the answer. -/
def put (ascVersion appVersion command : UInt8) (dataLen : Nat) :
    Response width -> HandlerM (World width) Unit
  | refused errorCode =>
      HandlerState.putError errorCode ascVersion appVersion command dataLen
  | replied _ dataLen _ =>
      HandlerState.putMessage ascVersion appVersion command dataLen
  | thrown e => raise e

/-- Prepare the state, then put the answer. -/
def react (ascVersion appVersion command : UInt8) (dataLen : Nat)
    (response : Response width) : HandlerM (World width) Unit := fun s =>
  response.put ascVersion appVersion command dataLen (response.prepare s)

/-- The message that is put in answer to a request, if any. -/
def answer (m : Message) : Response width -> Option Message
  | refused errorCode =>
      some (Asc.errorMessage m.ascVersion m.appVersion m.command m.data
        errorCode)
  | replied data dataLen _ =>
      some (Asc.messageOf m.ascVersion m.appVersion m.command data dataLen)
  | thrown _ => none

end Response

namespace RegisterPointers

/-- What a read of the word behind a pointer gives. -/
def readWord (words : Memory width.Reg) (pointer : Option Nat) : width.Reg :=
  (pointer.map words).getD 0

/-- The response to a request whose data are in `data`. -/
def respond (state : RegisterPointers width) (command : UInt8) (dataLen : Nat)
    (data : Memory UInt8) (words : Memory width.Reg) : Response width :=
  if command ≠ 'r'.toUInt8 ∧ command ≠ 'w'.toUInt8 then
    .refused .unexpectedCommand
  else if dataLen < 4 then
    .refused .dataTooShort
  else
    match value (Memory.slice data 0 4) with
    | none => .thrown .notHexChar
    | some regNum =>
        if state.nRegs.toNat <= regNum then
          .refused .regnumOob
        else if command = 'r'.toUInt8 then
          .replied
            (Memory.store data 4 (','.toUInt8 ::
              digits true (2 * width.bytes)
                (readWord words (state.pointers regNum)).toNat))
            (5 + 2 * width.bytes) words
        else if dataLen < 5 + width.bytes then
          .refused .regvalLen
        else
          match state.pointers regNum with
          | none => .replied data 4 words
          | some p =>
              match value (Memory.slice data 5 (2 * width.bytes)) with
              | none => .thrown .notHexChar
              | some v =>
                  .replied data 4
                    (writeWord words p (BitVec.ofNat width.bits v)
                      (state.writeMasks regNum))

variable {charSigned : Bool} {state : RegisterPointers width}
  {ascVersion appVersion command : UInt8} {dataLen : Nat}

theorem handleRead_eq (pointer : Option Nat) (s : HandlerState (World width)) :
    handleRead pointer ascVersion appVersion command s =
      HandlerState.putMessage ascVersion appVersion command
        (5 + 2 * width.bytes)
        { s with
          data := Memory.store s.data 4 (','.toUInt8 ::
            digits true (2 * width.bytes)
              (readWord s.world.words pointer).toNat) } := by
  rw [Memory.store_cons, ← putValIntoBytes_eq_digits, Nat.mul_comm 2]
  cases pointer <;> rfl

theorem handleWrite_eq (pointer : Option Nat) (mask : width.Reg)
    (s : HandlerState (World width)) :
    handleWrite charSigned pointer mask ascVersion appVersion command dataLen
        s =
      if dataLen < 5 + width.bytes then
        HandlerState.putError .regvalLen ascVersion appVersion command dataLen
          s
      else
        match pointer with
        | none => HandlerState.putMessage ascVersion appVersion command 4 s
        | some p =>
            match value (Memory.slice s.data 5 (2 * width.bytes)) with
            | none => .error (.exception .notHexChar) s
            | some v =>
                HandlerState.putMessage ascVersion appVersion command 4
                  { s with
                    world :=
                      { s.world with
                        words := writeWord s.world.words p
                          (BitVec.ofNat width.bits v) mask } } := by
  unfold handleWrite
  by_cases hlen : dataLen < 5 + width.bytes
  · rw [if_pos hlen, if_pos hlen]
  · rw [if_neg hlen, if_neg hlen]
    cases pointer with
    | none => rfl
    | some p =>
        have hslice : Memory.slice (fun i => s.data (5 + i)) 0
            (2 * width.bytes) = Memory.slice s.data 5 (2 * width.bytes) := by
          simp [Memory.slice]
        have hget := getValFromBytes_eq_numeral charSigned width
          fun i => s.data (5 + i)
        rw [hslice, numeral] at hget
        simp only
        cases hvalue : value (Memory.slice s.data 5 (2 * width.bytes)) with
        | none =>
            rw [hvalue] at hget
            have hobserve : observe (fun s : HandlerState (World width) =>
                getValFromBytes charSigned width fun i => s.data (5 + i)) s =
                .error (.exception .notHexChar) s := observe_of_error hget
            rw [bind_of_error hobserve]
        | some v =>
            rw [hvalue] at hget
            have hobserve : observe (fun s : HandlerState (World width) =>
                getValFromBytes charSigned width fun i => s.data (5 + i)) s =
                .ok (BitVec.ofNat width.bits v) s := observe_of_ok hget
            rw [bind_of_ok hobserve, bind_of_ok (modify_apply _ _)]

end RegisterPointers

theorem observe_regNum_of_none {charSigned : Bool}
    {s : HandlerState (World width)}
    (h : value (Memory.slice s.data 0 4) = none) :
    observe (fun s : HandlerState (World width) =>
      convertHexToUint16 charSigned s.data) s =
      .error (.exception .notHexChar) s := by
  have hnum := convertHexToUint16_eq_numeral charSigned s.data
  rw [numeral, h] at hnum
  exact observe_of_error hnum

theorem observe_regNum_of_some {charSigned : Bool}
    {s : HandlerState (World width)} {regNum : Nat}
    (h : value (Memory.slice s.data 0 4) = some regNum) :
    observe (fun s : HandlerState (World width) =>
      convertHexToUint16 charSigned s.data) s =
      .ok (BitVec.ofNat 16 regNum) s ∧
    (BitVec.ofNat 16 regNum).toNat = regNum := by
  have hnum := convertHexToUint16_eq_numeral charSigned s.data
  rw [numeral, h] at hnum
  have hlt := value_lt h
  rw [Memory.slice_length] at hlt
  exact ⟨observe_of_ok hnum, Nat.mod_eq_of_lt hlt⟩

namespace RegisterPointers

variable {charSigned : Bool} {state : RegisterPointers width}
  {ascVersion appVersion command : UInt8} {dataLen : Nat}

/-- **The handler reacts with its response.** -/
theorem handleMessage_eq (s : HandlerState (World width)) :
    handleMessage charSigned (some state) ascVersion appVersion command dataLen
        s =
      (state.respond command dataLen s.data s.world.words).react ascVersion
        appVersion command dataLen s := by
  rw [handleMessage, respond]
  by_cases hcommand : command ≠ 'r'.toUInt8 ∧ command ≠ 'w'.toUInt8
  · rw [if_pos hcommand, if_pos hcommand]
    rfl
  rw [if_neg hcommand, if_neg hcommand]
  by_cases hshort : dataLen < 4
  · rw [if_pos hshort, if_pos hshort]
    rfl
  rw [if_neg hshort, if_neg hshort]
  cases hvalue : value (Memory.slice s.data 0 4) with
  | none => exact bind_of_error (observe_regNum_of_none hvalue)
  | some regNum =>
      rcases observe_regNum_of_some hvalue with ⟨hobserve, hnat⟩
      rw [bind_of_ok hobserve]
      simp only [BitVec.le_def, hnat]
      by_cases hoob : state.nRegs.toNat <= regNum
      · rw [if_pos hoob, if_pos hoob]
        rfl
      rw [if_neg hoob, if_neg hoob]
      by_cases hread : command = 'r'.toUInt8
      · rw [if_pos hread, if_pos hread, handleRead_eq]
        rfl
      rw [if_neg hread, if_neg hread, handleWrite_eq]
      by_cases hlen : dataLen < 5 + width.bytes
      · rw [if_pos hlen, if_pos hlen]
        rfl
      rw [if_neg hlen, if_neg hlen]
      cases state.pointers regNum with
      | none => rfl
      | some p =>
          cases value (Memory.slice s.data 5 (2 * width.bytes)) <;> rfl

end RegisterPointers
end Handler
end AsciiSerialCom
