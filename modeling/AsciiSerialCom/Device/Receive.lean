import AsciiSerialCom.Device.Response

/-!
# What the device makes of a message

The receiving function of a device takes a message from the input buffer and
reacts to it with a response.  What is left afterwards depends on the response,
and on whether its answer fits into the output buffer.
-/

namespace AsciiSerialCom

open Foundation
open Foundation.StateError

variable {width : RegWidth}

namespace Device

/-- The device reacts to a message with a response. -/
def Reacts (config : DeviceConfig (World width)) (ascd : Device (World width))
    (m : Message) (response : Response width) : Prop :=
  dispatch config ascd =
    zoom handlerState withHandlerState
      (response.react m.ascVersion m.appVersion m.command m.data.length) ascd

/-- The device has got a message. -/
def gotMessage (ascd : Device (World width)) (m : Message)
    (b : RingBuffer maxMessageLen) : Device (World width) :=
  ascd.withIn b (Received.ofMessage ascd.receiver.received.data m)

/-- The device after a response to a message. -/
def afterResponse (ascd : Device (World width)) (m : Message)
    (response : Response width) (b out : RingBuffer maxMessageLen) :
    Device (World width) :=
  let received := Received.ofMessage ascd.receiver.received.data m
  { receiver :=
      { asc := { ascd.receiver.asc with inBuf := b, outBuf := out }
        received := { received with data := response.dataAfter received.data } }
    world := response.worldAfter ascd.world }

section Reactions

variable {config : DeviceConfig (World width)} {ascd : Device (World width)}
  {m : Message} {b : RingBuffer maxMessageLen}

theorem reacts_of_handler {handler : Handler (World width)}
    {response : Response width}
    (hdispatch : dispatch config (ascd.gotMessage m b) =
      call handler (ascd.gotMessage m b))
    (hhandler : handler m.ascVersion m.appVersion m.command m.data.length
        (ascd.gotMessage m b).handlerState =
      response.react m.ascVersion m.appVersion m.command m.data.length
        (ascd.gotMessage m b).handlerState) :
    Reacts config (ascd.gotMessage m b) m response := by
  rw [Reacts, hdispatch]
  unfold zoom
  rw [← hhandler]
  rfl

/-- The handler that is called for a command. -/
inductive HandlerFor (config : DeviceConfig (World width)) (command : UInt8) :
    Handler (World width) -> Prop
  | rw (h : command = 'r'.toUInt8 ∨ command = 'w'.toUInt8) :
      HandlerFor config command (config.funcRw.getD notImplemented)
  | s (hrw : ¬ (command = 'r'.toUInt8 ∨ command = 'w'.toUInt8))
      (h : command = 's'.toUInt8) :
      HandlerFor config command (config.funcS.getD notImplemented)
  | nf (hrw : ¬ (command = 'r'.toUInt8 ∨ command = 'w'.toUInt8))
      (h : command = 'n'.toUInt8 ∨ command = 'f'.toUInt8) :
      HandlerFor config command (config.funcNf.getD notImplemented)
  | other (hrw : ¬ (command = 'r'.toUInt8 ∨ command = 'w'.toUInt8)) :
      HandlerFor config command notImplemented

/-- A message is ignored, or a handler is called. -/
theorem dispatch_cases (config : DeviceConfig (World width))
    (ascd : Device (World width)) (m : Message) (b : RingBuffer maxMessageLen) :
    (m.command = 0 ∨ m.command = 'z'.toUInt8) ∧
        dispatch config (ascd.gotMessage m b) =
          .ok () (ascd.gotMessage m b) ∨
      (m.command ≠ 0 ∧ m.command ≠ 'z'.toUInt8) ∧
        exists handler, HandlerFor config m.command handler ∧
          dispatch config (ascd.gotMessage m b) =
            call handler (ascd.gotMessage m b) := by
  have hgot : (ascd.gotMessage m b).receiver.received.command = m.command := rfl
  rw [dispatch, bind_of_ok (get_apply _), hgot]
  by_cases hzero : m.command = 0
  · rw [if_pos hzero]
    exact Or.inl ⟨Or.inl hzero, rfl⟩
  rw [if_neg hzero]
  by_cases hrw : m.command = 'r'.toUInt8 ∨ m.command = 'w'.toUInt8
  · rw [if_pos hrw]
    have hz : m.command ≠ 'z'.toUInt8 := by
      rcases hrw with h | h <;> rw [h] <;> decide
    exact Or.inr ⟨⟨hzero, hz⟩, _, .rw hrw, rfl⟩
  rw [if_neg hrw]
  by_cases hs : m.command = 's'.toUInt8
  · rw [if_pos hs]
    have hz : m.command ≠ 'z'.toUInt8 := by
      rw [hs]
      decide
    exact Or.inr ⟨⟨hzero, hz⟩, _, .s hrw hs, rfl⟩
  rw [if_neg hs]
  by_cases hnf : m.command = 'n'.toUInt8 ∨ m.command = 'f'.toUInt8
  · rw [if_pos hnf]
    have hz : m.command ≠ 'z'.toUInt8 := by
      rcases hnf with h | h <;> rw [h] <;> decide
    exact Or.inr ⟨⟨hzero, hz⟩, _, .nf hrw hnf, rfl⟩
  rw [if_neg hnf]
  by_cases hz : m.command = 'z'.toUInt8
  · rw [if_pos hz]
    exact Or.inl ⟨Or.inr hz, rfl⟩
  · rw [if_neg hz]
    exact Or.inr ⟨⟨hzero, hz⟩, _, .other hrw, rfl⟩

theorem dispatch_of_noop (h : m.command = 'z'.toUInt8) :
    dispatch config (ascd.gotMessage m b) = .ok () (ascd.gotMessage m b) := by
  rcases dispatch_cases config ascd m b with ⟨-, hrun⟩ | ⟨⟨-, hz⟩, -⟩
  · exact hrun
  · exact absurd h hz

theorem dispatch_of_request (h : m.command = 'r'.toUInt8 ∨
      m.command = 'w'.toUInt8) :
    dispatch config (ascd.gotMessage m b) =
      call (config.funcRw.getD notImplemented) (ascd.gotMessage m b) := by
  rcases dispatch_cases config ascd m b with
    ⟨hignored, -⟩ | ⟨-, handler, hhandler, hrun⟩
  · rcases h with h | h <;>
      exact absurd (h ▸ hignored) (by decide)
  · rw [hrun]
    cases hhandler with
    | rw hrw => rfl
    | s hrw hs => exact absurd h hrw
    | nf hrw hnf => exact absurd h hrw
    | other hrw => exact absurd h hrw

/-- A request is answered as the register pointers respond. -/
theorem reacts_of_request {charSigned : Bool} {state : RegisterPointers width}
    (hconfig : config.funcRw =
      some (RegisterPointers.handleMessage charSigned (some state)))
    (h : m.command = 'r'.toUInt8 ∨ m.command = 'w'.toUInt8) :
    Reacts config (ascd.gotMessage m b) m
      (state.respond m.command m.data.length
        (Received.ofMessage ascd.receiver.received.data m).data
        ascd.world.words) := by
  apply reacts_of_handler (dispatch_of_request h)
  rw [hconfig]
  exact RegisterPointers.handleMessage_eq _

end Reactions

/-!
## The receiving function
-/

section Receive

variable {config : DeviceConfig (World width)} {ascd : Device (World width)}
  {m a : Message} {rest : List UInt8} {response : Response width}

/-- An answer that fits behind an unwrapped backlog is queued. -/
theorem receive_of_answer
    (hcrc : ascd.receiver.asc.ignoreCRCMismatch = false)
    (hd : decode ascd.receiver.asc.inBuf.contents = (.message m, rest))
    (hreacts : forall b, Reacts config (ascd.gotMessage m b) m response)
    (ha : response.answer m = some a) (hsendable : a.Sendable)
    (hroom : ascd.receiver.asc.HasRoom a.data.length)
    (hunwrapped : ascd.receiver.asc.Unwrapped) :
    exists b out : RingBuffer maxMessageLen, b.contents = rest ∧
      out.contents = ascd.receiver.asc.outBuf.contents ++ a.frame ∧
      receive config ascd =
        .ok () (ascd.afterResponse m response b out) := by
  rcases receive_of_message config hcrc hd with ⟨b, hb, hrun⟩
  have hholds : Holds (ascd.gotMessage m b).handlerState.data m :=
    holds_ofMessage _ m
  rcases Response.react_of_room hholds ha hsendable.startByte_not_mem_fields
    hroom hunwrapped with ⟨out, hout, hreact⟩
  refine ⟨b, out, hb, hout, ?_⟩
  rw [hrun]
  exact (hreacts b).trans (zoom_of_ok hreact)

/-- An answer without room for its checksum leaves an unfinished frame. -/
theorem receive_of_no_room
    (hcrc : ascd.receiver.asc.ignoreCRCMismatch = false)
    (hd : decode ascd.receiver.asc.inBuf.contents = (.message m, rest))
    (hreacts : forall b, Reacts config (ascd.gotMessage m b) m response)
    (ha : response.answer m = some a) (hsendable : a.Sendable)
    (hfit : ascd.receiver.asc.outBuf.contents.length + a.region.length <=
      maxMessageLen)
    (hroom : ¬ ascd.receiver.asc.HasRoom a.data.length) :
    exists b out : RingBuffer maxMessageLen, b.contents = rest ∧
      out.contents = ascd.receiver.asc.outBuf.contents ++ a.region ∧
      receive config ascd =
        .error (.exception .checksumProblem)
          (ascd.afterResponse m response b out) := by
  rcases receive_of_message config hcrc hd with ⟨b, hb, hrun⟩
  have hholds : Holds (ascd.gotMessage m b).handlerState.data m :=
    holds_ofMessage _ m
  rcases Response.react_of_no_room hholds ha hsendable hfit hroom with
    ⟨out, hout, hreact⟩
  refine ⟨b, out, hb, hout, ?_⟩
  rw [hrun]
  exact (hreacts b).trans (zoom_of_error hreact)

theorem receive_of_no_answer
    (hcrc : ascd.receiver.asc.ignoreCRCMismatch = false)
    (hd : decode ascd.receiver.asc.inBuf.contents = (.message m, rest))
    {e : AscException}
    (hreacts : forall b,
      Reacts config (ascd.gotMessage m b) m (.thrown e : Response width)) :
    exists b : RingBuffer maxMessageLen, b.contents = rest ∧
      receive config ascd =
        .error (.exception e) (ascd.gotMessage m b) := by
  rcases receive_of_message config hcrc hd with ⟨b, hb, hrun⟩
  refine ⟨b, hb, ?_⟩
  rw [hrun]
  exact hreacts b

end Receive

end Device
end AsciiSerialCom
