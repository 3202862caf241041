import AsciiSerialCom.Device.Receive

/-!
# Requests and their answers

A valid read or write request is answered with one frame, unless the handler has
to read hexadecimal digits that are not there.  The parsers then throw, and
nothing between them and the caller of the device catches the exception.
-/

namespace AsciiSerialCom

open Foundation
open Foundation.Hexadecimal
open Foundation.StateError

variable {width : RegWidth}

section Requests

variable (state : RegisterPointers width) (data : Memory UInt8) (m : Message)

/-- The handler finds digits wherever it reads some.  A value it reads from the
data buffer, also behind the end of the message. -/
def Readable : Prop :=
  m.data.length < 4 ∨
    exists regNum, value (m.data.take 4) = some regNum ∧
      (state.nRegs.toNat <= regNum ∨ m.command = 'r'.toUInt8 ∨
        m.data.length < 5 + width.bytes ∨ state.pointers regNum = none ∨
        (value (Memory.slice data 5 (2 * width.bytes))).isSome)

/-- Why a read or write request is refused. -/
inductive RefusedFor : AscException -> Prop where
  | tooShort (hlen : m.data.length < 4) : RefusedFor .dataTooShort
  | outOfRange {regNum : Nat} (hlen : 4 <= m.data.length)
      (hvalue : value (m.data.take 4) = some regNum)
      (hoob : state.nRegs.toNat <= regNum) : RefusedFor .regnumOob
  | noValue {regNum : Nat} (hcommand : m.command = 'w'.toUInt8)
      (haddress : Addresses state m regNum)
      (hlen : m.data.length < 5 + width.bytes) : RefusedFor .regvalLen

/-- The message answers the request: it has the same command, or it is an error
message that names the reason, and then the world is what it was. -/
structure AnswerTo (world world' : World width) (a : Message) : Prop where
  sendable : a.Sendable
  ascVersion_eq : a.ascVersion = m.ascVersion
  appVersion_eq : a.appVersion = m.appVersion
  same_or_refused : a.command = m.command ∨
    world' = world ∧
      exists reason, RefusedFor state m reason ∧
        a = Asc.errorMessage m.ascVersion m.appVersion m.command m.data reason

variable {state data m}

/-- **A request is answered if it is readable**, and throws otherwise. -/
theorem respond_answers (hdata : Holds data m) (hm : m.Sendable)
    (hcommand : m.command = 'r'.toUInt8 ∨ m.command = 'w'.toUInt8)
    (world : World width) :
    let response := state.respond m.command m.data.length data world.words
    (Readable state data m ∧
      exists a, response.answer m = some a ∧
        AnswerTo state m world (response.worldAfter world) a) ∨
      ¬ Readable state data m ∧ response = .thrown .notHexChar := by
  have hrw : 'w'.toUInt8 ≠ 'r'.toUInt8 := by decide
  have hsendable := fun a => @answer_sendable width state m data world.words
    hdata hm a
  have hcase := respond_cases state world.words hdata
  generalize state.respond m.command m.data.length data world.words = response
    at hcase hsendable ⊢
  have hrefused {e : AscException} (hreason : RefusedFor state m e)
      (hresponse : response = .refused e) :
      exists a, response.answer m = some a ∧
        AnswerTo state m world (response.worldAfter world) a := by
    subst hresponse
    exact ⟨_, rfl, (hsendable _ rfl).left, rfl, rfl,
      Or.inr ⟨rfl, e, hreason, rfl⟩⟩
  cases hcase with
  | unexpected hr hw => exact absurd hcommand (not_or.mpr ⟨hr, hw⟩)
  | tooShort hlen =>
      exact Or.inl ⟨Or.inl hlen, hrefused (.tooShort hlen) rfl⟩
  | badAddress hlen hvalue =>
      refine Or.inr ⟨?_, rfl⟩
      rintro (hshort | ⟨regNum, hsome, -⟩)
      · omega
      · rw [hvalue] at hsome
        cases hsome
  | @outOfRange regNum hlen hvalue hoob =>
      exact Or.inl ⟨Or.inr ⟨regNum, hvalue, Or.inl hoob⟩,
        hrefused (.outOfRange hlen hvalue hoob) rfl⟩
  | @read regNum hread haddress =>
      refine Or.inl ⟨Or.inr ⟨regNum, haddress.right.left,
        Or.inr (Or.inl hread)⟩, ?_⟩
      have hanswer := answer_read world.words hdata haddress
        (RegisterPointers.readWord world.words (state.pointers regNum))
      exact ⟨_, hanswer, (hsendable _ hanswer).left, rfl, rfl, Or.inl rfl⟩
  | @noValue regNum hwrite haddress hlen =>
      exact Or.inl ⟨Or.inr ⟨regNum, haddress.right.left,
        Or.inr (Or.inr (Or.inl hlen))⟩,
        hrefused (.noValue hwrite haddress hlen) rfl⟩
  | @unmapped regNum hwrite haddress hlen hpointer =>
      refine Or.inl ⟨Or.inr ⟨regNum, haddress.right.left,
        Or.inr (Or.inr (Or.inr (Or.inl hpointer)))⟩, ?_⟩
      have hanswer := answer_echo world.words hdata haddress
      exact ⟨_, hanswer, (hsendable _ hanswer).left, rfl, rfl, Or.inl rfl⟩
  | @badValue regNum p hwrite haddress hlen hpointer hvalue =>
      refine Or.inr ⟨?_, rfl⟩
      rintro (hshort | ⟨regNum', hsome, h | h | h | h | h⟩)
      · exact absurd haddress.left (by omega)
      · have heq := Option.some.inj (haddress.right.left.symm.trans hsome)
        exact absurd haddress.right.right (by omega)
      · exact hrw (hwrite ▸ h)
      · omega
      · have heq := Option.some.inj (haddress.right.left.symm.trans hsome)
        rw [← heq, hpointer] at h
        cases h
      · rw [hvalue] at h
        cases h
  | @write regNum p v hwrite haddress hlen hpointer hvalue =>
      refine Or.inl ⟨Or.inr ⟨regNum, haddress.right.left,
        Or.inr (Or.inr (Or.inr (Or.inr (by rw [hvalue]; rfl))))⟩, ?_⟩
      have hanswer := answer_echo (writeWord world.words p
        (BitVec.ofNat width.bits v) (state.writeMasks regNum)) hdata haddress
      exact ⟨_, hanswer, (hsendable _ hanswer).left, rfl, rfl, Or.inl rfl⟩

end Requests

namespace Device

/-- The output buffer holds one frame, and that is an answer to the request. -/
def Answered (state : RegisterPointers width) (m : Message)
    (ascd ascd' : Device (World width)) : Prop :=
  exists a, ascd'.receiver.asc.outBuf.contents = a.frame ∧
    AnswerTo state m ascd.world ascd'.world a

/-- **A valid request is answered exactly when it is readable.** -/
theorem answered_iff_readable {config : DeviceConfig (World width)}
    {charSigned : Bool} {state : RegisterPointers width}
    (hconfig : config.funcRw =
      some (RegisterPointers.handleMessage charSigned (some state)))
    {ascd : Device (World width)}
    (hcrc : ascd.receiver.asc.ignoreCRCMismatch = false)
    (hout : ascd.receiver.asc.outBuf.contents = [])
    {m : Message} (hm : m.Valid)
    (hcommand : m.command = 'r'.toUInt8 ∨ m.command = 'w'.toUInt8)
    {later : List UInt8}
    (hin : ascd.receiver.asc.inBuf.contents = m.frame ++ later) :
    (exists ascd', receive config ascd = .ok () ascd' ∧
        Answered state m ascd ascd') <->
      Readable state (Received.ofMessage ascd.receiver.received.data m).data
        m := by
  have hd : decode ascd.receiver.asc.inBuf.contents = (.message m, later) := by
    rw [hin]
    exact decode_frame hm later
  have hreacts := fun b => @reacts_of_request width config ascd m b charSigned
    state hconfig hcommand
  rcases respond_answers (holds_ofMessage ascd.receiver.received.data m)
    hm.toSendable hcommand ascd.world with
    ⟨hreadable, a, ha, hanswer⟩ | ⟨hreadable, hthrown⟩
  · refine iff_of_true ?_ hreadable
    rcases receive_of_answer hcrc hd hreacts ha hanswer.sendable
      (Asc.hasRoom_of_empty hout hanswer.sendable.length_le)
      (Asc.unwrapped_of_empty hout) with ⟨b, out, -, hcontents, hrun⟩
    rw [hout, List.nil_append] at hcontents
    exact ⟨_, hrun, a, hcontents, hanswer⟩
  · refine iff_of_false ?_ hreadable
    rintro ⟨ascd', hrun, -⟩
    rw [hthrown] at hreacts
    rcases receive_of_no_answer hcrc hd hreacts with ⟨b, -, herror⟩
    rw [herror] at hrun
    cases hrun

/-- One mapped register. -/
def oneRegister : RegisterPointers .four :=
  { pointers := fun _ => some 0
    writeMasks := fun _ => 0xff
    nRegs := 1 }

/-- A request from version `0` of both sides. -/
def requestOf (command : Char) (data : List Char) : Message :=
  { ascVersion := '0'.toUInt8
    appVersion := '0'.toUInt8
    command := command.toUInt8
    data := data.map Char.toUInt8 }

/-- A device whose input buffer holds a request. -/
def holding (m : Message) : Device (World .four) :=
  { receiver := Receiver.holding m.frame
    world :=
      { words := fun _ => 0
        streamingIsOn := false } }

/-- A device with one register and no other handlers. -/
def oneRegisterConfig : DeviceConfig (World .four) :=
  { funcRw := some (RegisterPointers.handleMessage false (some oneRegister))
    funcS := none
    funcNf := none }

/-- A read of the first register is answered. -/
theorem answered_iff_readable_of_read :
    (exists ascd', receive oneRegisterConfig
          (holding (requestOf 'r' ['0', '0', '0', '0'])) = .ok () ascd' ∧
        Answered oneRegister (requestOf 'r' ['0', '0', '0', '0'])
          (holding (requestOf 'r' ['0', '0', '0', '0'])) ascd') <->
      Readable oneRegister
        (Received.ofMessage (fun _ => 0)
          (requestOf 'r' ['0', '0', '0', '0'])).data
        (requestOf 'r' ['0', '0', '0', '0']) :=
  answered_iff_readable rfl rfl rfl (by decide +kernel) (Or.inl rfl)
    ((Receiver.holding_contents _ (by decide)).trans
      (List.append_nil _).symm)

/-- An address that is no number gets no answer. -/
theorem not_answered_of_bad_address :
    ¬ forall m : Message, m.Valid ->
      (m.command = 'r'.toUInt8 ∨ m.command = 'w'.toUInt8) ->
        exists ascd', receive oneRegisterConfig (holding m) = .ok () ascd' ∧
          Answered oneRegister m (holding m) ascd' := by
  intro h
  have hvalid : (requestOf 'r' ['Z', 'Z', 'Z', 'Z']).Valid := by
    decide +kernel
  rcases h (requestOf 'r' ['Z', 'Z', 'Z', 'Z']) hvalid (Or.inl rfl) with
    ⟨ascd', hrun, -⟩
  have hd : decode (holding
      (requestOf 'r' ['Z', 'Z', 'Z', 'Z'])).receiver.asc.inBuf.contents =
      (.message (requestOf 'r' ['Z', 'Z', 'Z', 'Z']), []) := by
    rw [holding, Receiver.holding_contents _ (by decide),
      ← decode_frame hvalid [], List.append_nil]
  have hconfig : oneRegisterConfig.funcRw =
      some (RegisterPointers.handleMessage false (some oneRegister)) := rfl
  rcases receive_of_no_answer rfl hd fun b =>
    reacts_of_request hconfig (Or.inl rfl) with
    ⟨b, -, herror⟩
  rw [herror] at hrun
  cases hrun

end Device
end AsciiSerialCom
