import AsciiSerialCom.Device.Backlog
import AsciiSerialCom.Device.RegisterFile

/-!
# Write protection

Whatever bytes a host sends, at whatever pace, and whatever becomes of the
answers: the bits that the write masks leave out never change, and a register
only changes in a call that decodes a write message for it.  A call that reads
outside its memory ends there, and the run goes on with what it left.
-/

namespace AsciiSerialCom

open Foundation
open Foundation.Delimited
open Foundation.Hexadecimal
open Foundation.StateError
open Foundation.Run

variable {width : RegWidth}

/-!
## What the calls keep
-/

namespace Asc

theorem preserves_putMessage {P : Asc -> Prop}
    (hout : forall asc out, P asc -> P { asc with outBuf := out })
    (ascVersion appVersion command : UInt8) (data : Memory UInt8)
    (dataLen : Nat) :
    Preserves P (putMessage ascVersion appVersion command data dataLen) := by
  have hpush (bytes : List UInt8) : Preserves P (pushOut bytes) :=
    preserves_modify fun asc h => hout asc _ h
  unfold putMessage
  split
  · exact preserves_throw P _
  · apply (hpush _).bind
    intro _
    apply (hpush _).bind
    intro _
    apply (hpush _).bind
    intro _
    apply (preserves_observe P _).bind
    intro checksum
    apply (hpush _).bind
    intro _
    exact hpush _

theorem preserves_putError {P : Asc -> Prop}
    (hout : forall asc out, P asc -> P { asc with outBuf := out })
    (ascVersion appVersion command : UInt8) (data : Memory UInt8)
    (dataLen : Nat) (errorCode : AscException) :
    Preserves P
      (putError ascVersion appVersion command data dataLen errorCode) :=
  preserves_putMessage hout _ _ _ _ _

end Asc

/-- A reaction does to the world what its response says, and leaves the mode of
the interface alone, whether its answer can be put or not. -/
theorem Response.react_keeps (response : Response width)
    (ascVersion appVersion command : UInt8) (dataLen : Nat)
    (s : HandlerState (World width)) :
    let after := Result.state
      (response.react ascVersion appVersion command dataLen s)
    after.world = response.worldAfter s.world ∧
      after.asc.ignoreCRCMismatch = s.asc.ignoreCRCMismatch := by
  have hmode (asc : Asc) (out : RingBuffer maxMessageLen)
      (h : asc.ignoreCRCMismatch = s.asc.ignoreCRCMismatch) :
      ({ asc with outBuf := out } : Asc).ignoreCRCMismatch =
        s.asc.ignoreCRCMismatch := h
  cases response with
  | refused errorCode =>
      have hrun : (Response.refused errorCode : Response width).react ascVersion
          appVersion command dataLen s =
            HandlerState.onAsc
              (Asc.putError ascVersion appVersion command s.data dataLen
                errorCode) s := rfl
      simp only [hrun, HandlerState.onAsc, zoom_state]
      exact ⟨rfl, Asc.preserves_putError hmode _ _ _ _ _ _ s.asc rfl⟩
  | replied data len words =>
      have hrun : (Response.replied data len words).react ascVersion appVersion
          command dataLen s =
            HandlerState.onAsc
              (Asc.putMessage ascVersion appVersion command data len)
              ((Response.replied data len words).prepare s) := rfl
      simp only [hrun, HandlerState.onAsc, zoom_state]
      exact ⟨rfl, Asc.preserves_putMessage hmode _ _ _ _ _ s.asc rfl⟩
  | thrown e => exact ⟨rfl, rfl⟩

/-- A handler that changes no register, and does not turn the checks of
checksums off. -/
def KeepsRegisters (handler : Handler (World width)) : Prop :=
  forall ascVersion appVersion command dataLen s,
    let after := Result.state
      (handler ascVersion appVersion command dataLen s)
    after.world.words = s.world.words ∧
      after.asc.ignoreCRCMismatch = s.asc.ignoreCRCMismatch

theorem keepsRegisters_notImplemented :
    KeepsRegisters (Device.notImplemented : Handler (World width)) := by
  intro ascVersion appVersion command dataLen s
  rcases (Response.refused .commandNotImplemented : Response width).react_keeps
    ascVersion appVersion command dataLen s with ⟨hworld, hmode⟩
  exact ⟨congrArg World.words hworld, hmode⟩

theorem keepsRegisters_getD {handler : Option (Handler (World width))}
    (h : forall f, handler = some f -> KeepsRegisters f) :
    KeepsRegisters (handler.getD Device.notImplemented) := by
  cases handler with
  | none => exact keepsRegisters_notImplemented
  | some f => exact h f rfl

theorem keepsRegisters_handleNfMessages :
    KeepsRegisters (handleNfMessages : Handler (World width)) := by
  intro ascVersion appVersion command dataLen s
  unfold handleNfMessages
  split
  · exact ⟨rfl, rfl⟩
  · split
    · exact ⟨rfl, rfl⟩
    · exact ⟨rfl, rfl⟩

/-- A device whose registers are changed by nothing but the handler of the
register pointers. -/
structure Guards (config : DeviceConfig (World width)) (charSigned : Bool)
    (state : RegisterPointers width) : Prop where
  funcRw : config.funcRw =
    some (RegisterPointers.handleMessage charSigned (some state))
  funcS : forall handler, config.funcS = some handler -> KeepsRegisters handler
  funcNf : forall handler, config.funcNf = some handler ->
    KeepsRegisters handler

/-!
## One call
-/

/-- The words are as before, but for one register, which has been written through
its mask at the request of a message. -/
def WordsAfter (state : RegisterPointers width) (m : Message)
    (words words' : Memory width.Reg) : Prop :=
  words' = words ∨ exists regNum p v,
    m.command = 'w'.toUInt8 ∧ Addresses state m regNum ∧
      state.pointers regNum = some p ∧
        words' = writeWord words p v (state.writeMasks regNum)

theorem wordsAfter_respond (state : RegisterPointers width) {m : Message}
    {data : Memory UInt8} (h : Holds data m) (world : World width) :
    WordsAfter state m world.words
      ((state.respond m.command m.data.length data world.words).worldAfter
        world).words := by
  have hcase := respond_cases state world.words h
  generalize state.respond m.command m.data.length data world.words = response
    at hcase ⊢
  cases hcase with
  | unexpected hr hw => exact Or.inl rfl
  | tooShort hlen => exact Or.inl rfl
  | badAddress hlen hvalue => exact Or.inl rfl
  | outOfRange hlen hvalue hoob => exact Or.inl rfl
  | read hcommand haddress => exact Or.inl rfl
  | noValue hcommand haddress hlen => exact Or.inl rfl
  | unmapped hcommand haddress hlen hpointer => exact Or.inl rfl
  | badValue hcommand haddress hlen hpointer hvalue => exact Or.inl rfl
  | write hcommand haddress hlen hpointer hvalue =>
      exact Or.inr ⟨_, _, _, hcommand, haddress, hpointer, rfl⟩

namespace Device

variable {config : DeviceConfig (World width)} {charSigned : Bool}
  {state : RegisterPointers width} {ascd : Device (World width)}

theorem call_state (handler : Handler (World width))
    (ascd : Device (World width)) :
    Result.state (call handler ascd) =
      withHandlerState
        (Result.state
          (handler ascd.receiver.received.ascVersion
            ascd.receiver.received.appVersion ascd.receiver.received.command
            ascd.receiver.received.dataLen ascd.handlerState)) ascd :=
  zoom_state _ _ _ _

theorem call_keeps {handler : Handler (World width)}
    (h : KeepsRegisters handler) (ascd : Device (World width)) :
    (Result.state (call handler ascd)).world.words = ascd.world.words ∧
      (Result.state (call handler ascd)).receiver.asc.ignoreCRCMismatch =
        ascd.receiver.asc.ignoreCRCMismatch := by
  rw [call_state]
  exact h _ _ _ _ ascd.handlerState

/-- What becomes of the registers when a message is handled. -/
theorem dispatch_keeps (hguards : Guards config charSigned state)
    (ascd : Device (World width)) (m : Message) (b : RingBuffer maxMessageLen) :
    let after := Result.state (dispatch config (ascd.gotMessage m b))
    WordsAfter state m ascd.world.words after.world.words ∧
      after.receiver.asc.ignoreCRCMismatch =
        ascd.receiver.asc.ignoreCRCMismatch := by
  by_cases hrw : m.command = 'r'.toUInt8 ∨ m.command = 'w'.toUInt8
  · have hreacts : Reacts config (ascd.gotMessage m b) m
        (state.respond m.command m.data.length
          (Received.ofMessage ascd.receiver.received.data m).data
          ascd.world.words) := reacts_of_request hguards.funcRw hrw
    rw [Reacts] at hreacts
    simp only [hreacts, zoom_state]
    rcases Response.react_keeps
      (state.respond m.command m.data.length
        (Received.ofMessage ascd.receiver.received.data m).data
        ascd.world.words) m.ascVersion m.appVersion m.command m.data.length
      (ascd.gotMessage m b).handlerState with ⟨hworld, hmode⟩
    refine ⟨?_, hmode⟩
    have hwords := congrArg World.words hworld
    simp only [withHandlerState]
    rw [hwords]
    exact wordsAfter_respond state (holds_ofMessage _ m) ascd.world
  rcases dispatch_cases config ascd m b with
    ⟨-, hrun⟩ | ⟨-, handler, hhandler, hrun⟩
  · rw [hrun]
    exact ⟨Or.inl rfl, rfl⟩
  · have hkeeps : KeepsRegisters handler := by
      cases hhandler with
      | rw h => exact absurd h hrw
      | s h hs => exact keepsRegisters_getD hguards.funcS
      | nf h hnf => exact keepsRegisters_getD hguards.funcNf
      | other h => exact keepsRegisters_notImplemented
    rw [hrun]
    rcases call_keeps hkeeps (ascd.gotMessage m b) with ⟨hwords, hmode⟩
    exact ⟨Or.inl hwords, hmode⟩

/-- The call takes a frame with the right checksum off the input buffer, and
reports its message. -/
def DecodesFrame (r : Receiver) (m : Message) : Prop :=
  exists r', Receiver.getMessage r = .ok () r' ∧
    r'.received = Received.ofMessage r.received.data m ∧
      resync startByte endByte r.asc.inBuf.contents =
        m.frame ++ r'.asc.inBuf.contents

/-- **One call**: the registers are as before, or one of them has been written at
the request of the message that the call decoded. -/
theorem receive_keeps (hguards : Guards config charSigned state)
    (hcrc : ascd.receiver.asc.ignoreCRCMismatch = false) :
    let after := step config ascd .receive
    after.receiver.asc.ignoreCRCMismatch = false ∧
      (after.world.words = ascd.world.words ∨
        exists m, DecodesFrame ascd.receiver m ∧
          WordsAfter state m ascd.world.words after.world.words) := by
  simp only [step]
  rcases hd : decode ascd.receiver.asc.inBuf.contents with ⟨d, rest⟩
  cases d with
  | nothing =>
      rcases receive_of_nothing config hcrc hd with ⟨b, received, -, hrun⟩
      rw [hrun]
      exact ⟨hcrc, Or.inl rfl⟩
  | thrown e =>
      rcases receive_of_thrown config hcrc hd with ⟨b, received, -, hrun⟩
      rw [hrun]
      exact ⟨hcrc, Or.inl rfl⟩
  | message m =>
      rcases receive_of_message config hcrc hd with ⟨b, hb, hrun⟩
      have hdecodes : DecodesFrame ascd.receiver m := by
        rcases Receiver.getMessage_of_message hcrc hd with ⟨b', hb', hget⟩
        refine ⟨_, hget, rfl, ?_⟩
        rw [(valid_of_decode (congrArg Prod.fst hd)).right, hd, ← hb']
        rfl
      rcases dispatch_keeps hguards ascd m b with ⟨hwords, hmode⟩
      rw [hrun]
      exact ⟨hmode.trans hcrc, Or.inr ⟨m, hdecodes, hwords⟩⟩

/-!
## Runs
-/

/-- The bits that the write masks leave out are as before. -/
def MaskedBitsKept (state : RegisterPointers width)
    (words words' : Memory width.Reg) : Prop :=
  forall i p, i < state.nRegs.toNat -> state.pointers i = some p ->
    words' p &&& ~~~state.writeMasks i = words p &&& ~~~state.writeMasks i

/-- A register changes only in a call that decodes a write message whose first
four data bytes are digits that denote it. -/
def ChangesByWrite (state : RegisterPointers width)
    (config : DeviceConfig (World width)) (ascd : Device (World width))
    (op : DeviceOp) : Prop :=
  forall i p, i < state.nRegs.toNat -> state.pointers i = some p ->
    (step config ascd op).world.words p ≠ ascd.world.words p ->
      op = .receive ∧ exists m, DecodesFrame ascd.receiver m ∧
        m.command = 'w'.toUInt8 ∧ 4 <= m.data.length ∧
          value (m.data.take 4) = some i

end Device

theorem masked_bits_of_write (v old mask : BitVec w) :
    ((v &&& mask) ||| (old &&& ~~~mask)) &&& ~~~mask = old &&& ~~~mask := by
  apply BitVec.eq_of_getLsbD_eq
  intro i hi
  simp only [BitVec.getLsbD_and, BitVec.getLsbD_or, BitVec.getLsbD_not, hi,
    decide_true, Bool.true_and]
  cases mask.getLsbD i <;> simp

theorem WordsAfter.maskedBitsKept {state : RegisterPointers width}
    (hdistinct : state.Distinct) {m : Message} {words words' : Memory width.Reg}
    (h : WordsAfter state m words words') :
    Device.MaskedBitsKept state words words' := by
  intro i p hi hpointer
  rcases h with rfl | ⟨regNum, q, v, -, haddress, hq, rfl⟩
  · rfl
  · by_cases hpq : p = q
    · subst hpq
      have hsame := hdistinct i regNum p hi haddress.right.right hpointer hq
      rw [RegisterPointers.writeWord_self, hsame, masked_bits_of_write]
    · rw [RegisterPointers.writeWord_of_ne hpq]

namespace Device

variable {config : DeviceConfig (World width)} {charSigned : Bool}
  {state : RegisterPointers width} {ascd : Device (World width)}

theorem step_protects (hguards : Guards config charSigned state)
    (hdistinct : state.Distinct)
    (hcrc : ascd.receiver.asc.ignoreCRCMismatch = false) (op : DeviceOp) :
    ChangesByWrite state config ascd op ∧
      (step config ascd op).receiver.asc.ignoreCRCMismatch = false ∧
        MaskedBitsKept state ascd.world.words
          (step config ascd op).world.words := by
  cases op with
  | arrive b =>
      exact ⟨fun _ _ _ _ hne => absurd rfl hne, hcrc, fun _ _ _ _ => rfl⟩
  | pop =>
      exact ⟨fun _ _ _ _ hne => absurd rfl hne, hcrc, fun _ _ _ _ => rfl⟩
  | receive =>
      rcases receive_keeps hguards hcrc with ⟨hmode, hsame | ⟨m, hm, hwords⟩⟩
      · refine ⟨?_, hmode, ?_⟩
        · intro i p _ _ hne
          exact absurd (congrFun hsame p) hne
        · intro i p _ _
          rw [hsame]
      · refine ⟨?_, hmode, hwords.maskedBitsKept hdistinct⟩
        intro i p hi hpointer hne
        refine ⟨rfl, m, hm, ?_⟩
        rcases hwords with hsame | ⟨regNum, q, v, hw, haddress, hq, hwritten⟩
        · exact absurd (congrFun hsame p) hne
        · have hpq : p = q := by
            by_contra hpq
            rw [hwritten, RegisterPointers.writeWord_of_ne hpq] at hne
            exact hne rfl
          subst hpq
          have hsame := hdistinct i regNum p hi haddress.right.right hpointer hq
          rw [hsame]
          exact ⟨hw, haddress.left, haddress.right.left⟩

/-- **Write protection**: in every run, masked bits keep their initial value,
and a register changes only when a write message for it is decoded. -/
theorem writeProtected_of_run (hguards : Guards config charSigned state)
    (hdistinct : state.Distinct)
    (hcrc : ascd.receiver.asc.ignoreCRCMismatch = false)
    (ops : List DeviceOp) :
    MaskedBitsKept state ascd.world.words
        (run (step config) ascd ops).world.words ∧
      Allowed (step config) (ChangesByWrite state config) ascd ops := by
  let Inv (s : Device (World width)) : Prop :=
    s.receiver.asc.ignoreCRCMismatch = false ∧
      MaskedBitsKept state ascd.world.words s.world.words
  have hstep (s : Device (World width)) (op : DeviceOp) (h : Inv s) :
      ChangesByWrite state config s op ∧ Inv (step config s op) := by
    rcases step_protects hguards hdistinct h.left op with
      ⟨hchanges, hmode, hkept⟩
    refine ⟨hchanges, hmode, ?_⟩
    intro i p hi hpointer
    exact (hkept i p hi hpointer).trans (h.right i p hi hpointer)
  have hstart : Inv ascd := ⟨hcrc, fun _ _ _ _ => rfl⟩
  have hallowed := allowed_of_invariant hstep hstart ops
  refine ⟨?_, hallowed⟩
  have hend := hallowed.invariant (fun s op hs _ => (hstep s op hs).right) hstart
  exact hend.right

/-- Three registers, of which only the lower halves can be written. -/
def halfProtected : RegisterPointers .one :=
  { pointers := fun i => if i = 1 then none else some i
    writeMasks := fun _ => 0x0f
    nRegs := 3 }

theorem distinct_halfProtected : halfProtected.Distinct := by
  intro i j p _ _ hi hj
  simp only [halfProtected] at hi hj
  split at hi
  · cases hi
  · split at hj
    · cases hj
    · injection hi with hi
      injection hj with hj
      exact hi.trans hj.symm

def halfProtectedConfig : DeviceConfig (World .one) :=
  { funcRw := some (RegisterPointers.handleMessage false (some halfProtected))
    funcS := none
    funcNf := some handleNfMessages }

theorem guards_halfProtected :
    Guards halfProtectedConfig false halfProtected where
  funcRw := rfl
  funcS := by
    intro handler h
    cases h
  funcNf := by
    intro handler h
    injection h with h
    rw [← h]
    exact keepsRegisters_handleNfMessages

/-- All bits of the registers are set to begin with. -/
def halfProtectedDevice : Device (World .one) :=
  { receiver :=
      { asc := Asc.init
        received := Received.blank }
    world :=
      { words := fun _ => 0xff
        streamingIsOn := false } }

/-- Junk, then a request to clear the third register. -/
def clearThird : List DeviceOp :=
  [.arrive 'x'.toUInt8, .arrive startByte, .receive] ++
    receiveWhole (requestOf 'w' "0002,00".toList)

theorem writeProtected_of_run_clearThird :
    MaskedBitsKept halfProtected halfProtectedDevice.world.words
        (run (step halfProtectedConfig) halfProtectedDevice
          clearThird).world.words ∧
      Allowed (step halfProtectedConfig)
        (ChangesByWrite halfProtected halfProtectedConfig) halfProtectedDevice
        clearThird :=
  writeProtected_of_run guards_halfProtected distinct_halfProtected rfl
    clearThird

end Device
end AsciiSerialCom
