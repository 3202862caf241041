import AsciiSerialCom.Device.Answered
import AsciiSerialCom.Foundation.Runs

/-!
# Answers behind unsent output

Host bytes arrive, messages are received and output is drained in any order.
Nobody looks at the output buffer before an answer is put, so whether the output
not sent yet survives depends on the room that the answer finds.
-/

namespace AsciiSerialCom

open Foundation
open Foundation.StateError
open Foundation.Run

variable {width : RegWidth}

namespace Device

/-- A device without handlers for streaming.  Read and write messages go to the
register pointers, with whatever state pointer, or to nobody. -/
def rwConfig (charSigned : Bool)
    (rw : Option (Option (RegisterPointers width))) :
    DeviceConfig (World width) :=
  { funcRw := rw.map (RegisterPointers.handleMessage charSigned)
    funcS := none
    funcNf := none }

/-- The response of such a device to a read or write message. -/
def respondRw (rw : Option (Option (RegisterPointers width))) (m : Message)
    (data : Memory UInt8) (words : Memory width.Reg) : Response width :=
  match rw with
  | none => .refused .commandNotImplemented
  | some none => .refused .regBlockNull
  | some (some state) => state.respond m.command m.data.length data words

/-- The response of such a device to a message, if it reacts at all. -/
def respondTo (rw : Option (Option (RegisterPointers width))) (m : Message)
    (data : Memory UInt8) (words : Memory width.Reg) :
    Option (Response width) :=
  if m.command = 'r'.toUInt8 ∨ m.command = 'w'.toUInt8 then
    some (respondRw rw m data words)
  else if m.command = 'z'.toUInt8 then
    none
  else
    some (.refused .commandNotImplemented)

section Reactions

variable {charSigned : Bool} {rw : Option (Option (RegisterPointers width))}
  {ascd : Device (World width)} {m : Message}

theorem reacts_of_notImplemented {b : RingBuffer maxMessageLen}
    {config : DeviceConfig (World width)}
    (h : dispatch config (ascd.gotMessage m b) =
      call notImplemented (ascd.gotMessage m b)) :
    Reacts config (ascd.gotMessage m b) m
      (.refused .commandNotImplemented) :=
  reacts_of_handler h rfl

theorem reacts_of_respondTo (hcommand : m.command ≠ 0)
    {response : Response width}
    (h : respondTo rw m (Received.ofMessage ascd.receiver.received.data m).data
      ascd.world.words = some response) (b : RingBuffer maxMessageLen) :
    Reacts (rwConfig charSigned rw) (ascd.gotMessage m b) m response := by
  rw [respondTo] at h
  by_cases hrw : m.command = 'r'.toUInt8 ∨ m.command = 'w'.toUInt8
  · rw [if_pos hrw] at h
    injection h with h
    subst h
    have hdispatch :=
      @dispatch_of_request width (rwConfig charSigned rw) ascd m b hrw
    match rw with
    | none => exact reacts_of_notImplemented hdispatch
    | some none => exact reacts_of_handler hdispatch rfl
    | some (some state) => exact reacts_of_request rfl hrw
  · rw [if_neg hrw] at h
    by_cases hz : m.command = 'z'.toUInt8
    · rw [if_pos hz] at h
      cases h
    · rw [if_neg hz] at h
      injection h with h
      subst h
      apply reacts_of_notImplemented
      rcases dispatch_cases (rwConfig charSigned rw) ascd m b with
        ⟨hzero | hnoop, -⟩ | ⟨-, handler, hhandler, hrun⟩
      · exact absurd hzero hcommand
      · exact absurd hnoop hz
      · rw [hrun]
        -- the device has no handlers but that for requests
        cases hhandler with
        | rw h => exact absurd h hrw
        | s h hs => rfl
        | nf h hnf => rfl
        | other h => rfl

theorem command_of_respondTo_none
    {data : Memory UInt8} {words : Memory width.Reg}
    (h : respondTo rw m data words = none) : m.command = 'z'.toUInt8 := by
  rw [respondTo] at h
  split at h
  · cases h
  · split at h
    · assumption
    · cases h

theorem sendable_of_respondTo {data : Memory UInt8}
    {words : Memory width.Reg} (hdata : Holds data m) (hm : m.Sendable)
    {response : Response width} (h : respondTo rw m data words = some response)
    {a : Message} (ha : response.answer m = some a) : a.Sendable := by
  have hrefused (e : AscException)
      (ha : (Response.refused e : Response width).answer m = some a) :
      a.Sendable := by
    injection ha with ha
    rw [← ha]
    exact errorMessage_sendable hm e
  rw [respondTo] at h
  split at h
  · injection h with h
    rw [← h] at ha
    match rw, ha with
    | none, ha => exact hrefused _ ha
    | some none, ha => exact hrefused _ ha
    | some (some state), ha => exact (answer_sendable hdata hm ha).left
  · split at h
    · cases h
    · injection h with h
      rw [← h] at ha
      exact hrefused _ ha

end Reactions

/-!
## Runs
-/

/-- One event at the device. -/
inductive DeviceOp where
  /-- the host's next byte is pushed into the input buffer -/
  | arrive (b : UInt8)
  | receive
  /-- a byte is popped from the output buffer -/
  | pop

def step (config : DeviceConfig (World width)) (ascd : Device (World width)) :
    DeviceOp -> Device (World width)
  | .arrive b =>
      let asc := ascd.receiver.asc
      { ascd with
        receiver :=
          { ascd.receiver with
            asc := { asc with inBuf := asc.inBuf.pushBack b } } }
  | .receive => Result.state (receive config ascd)
  | .pop =>
      let asc := ascd.receiver.asc
      let out := Result.state (RingBuffer.popFront asc.outBuf)
      { ascd with
        receiver := { ascd.receiver with asc := { asc with outBuf := out } } }

/-- The unsent output is a prefix of what the call leaves, and the call stays
within its memory. -/
def KeepsUnsent (config : DeviceConfig (World width))
    (ascd : Device (World width)) : DeviceOp -> Prop
  | .receive =>
      Result.outcome (receive config ascd) ≠ .error .outOfBounds ∧
        ascd.receiver.asc.outBuf.contents <+:
          (step config ascd .receive).receiver.asc.outBuf.contents
  | _ => True

/-- An answer of the given length leaves the unsent output alone: there is room
up to its period, and if there is room for all of it, the output does not reach
around the end of the memory. -/
def Spares (asc : Asc) (dataLen : Nat) : Prop :=
  asc.outBuf.contents.length + (dataLen + 5) <= maxMessageLen ∧
    (asc.HasRoom dataLen -> asc.Unwrapped)

instance (asc : Asc) (dataLen : Nat) : Decidable (Spares asc dataLen) :=
  inferInstanceAs (Decidable (_ ∧ (_ -> _)))

/-- The answer that the next call puts, if any. -/
def nextAnswer (rw : Option (Option (RegisterPointers width)))
    (ascd : Device (World width)) : Option Message :=
  match (decode ascd.receiver.asc.inBuf.contents).1 with
  | .message m =>
      (respondTo rw m
        (Received.ofMessage ascd.receiver.received.data m).data
        ascd.world.words).bind fun response => response.answer m
  | _ => none

/-- The answer to the message at the front of the input buffer, if there is one,
spares the unsent output. -/
def RoomForAnswer (rw : Option (Option (RegisterPointers width)))
    (ascd : Device (World width)) : DeviceOp -> Prop
  | .receive =>
      (nextAnswer rw ascd).all
        (fun a => Spares ascd.receiver.asc a.data.length) = true
  | _ => True

instance (rw : Option (Option (RegisterPointers width)))
    (ascd : Device (World width)) :
    (op : DeviceOp) -> Decidable (RoomForAnswer rw ascd op)
  | .receive => inferInstanceAs (Decidable (_ = true))
  | .arrive _ => inferInstanceAs (Decidable True)
  | .pop => inferInstanceAs (Decidable True)

section Runs

variable {charSigned : Bool} {rw : Option (Option (RegisterPointers width))}
  {ascd : Device (World width)}

/-- Calls that touch the output only by appending to it. -/
theorem keepsUnsent_of_result {config : DeviceConfig (World width)}
    {result : EStateM.Result Failure (Device (World width)) Unit}
    (hrun : receive config ascd = result)
    (hne : Result.outcome result ≠ .error .outOfBounds)
    {appended : List UInt8}
    (hout : (Result.state result).receiver.asc.outBuf.contents =
      ascd.receiver.asc.outBuf.contents ++ appended)
    (hcrc : (Result.state result).receiver.asc.ignoreCRCMismatch = false) :
    KeepsUnsent config ascd .receive ∧
      (step config ascd .receive).receiver.asc.ignoreCRCMismatch = false := by
  subst hrun
  exact ⟨⟨hne, appended, hout.symm⟩, hcrc⟩

theorem keepsUnsent_of_answer {m a : Message} {rest : List UInt8}
    {config : DeviceConfig (World width)} {response : Response width}
    (hcrc : ascd.receiver.asc.ignoreCRCMismatch = false)
    (hd : decode ascd.receiver.asc.inBuf.contents = (.message m, rest))
    (hreacts : forall b, Reacts config (ascd.gotMessage m b) m response)
    (ha : response.answer m = some a) (hsendable : a.Sendable)
    (hspares : Spares ascd.receiver.asc a.data.length) :
    KeepsUnsent config ascd .receive ∧
      (step config ascd .receive).receiver.asc.ignoreCRCMismatch = false := by
  by_cases hroom : ascd.receiver.asc.HasRoom a.data.length
  · rcases receive_of_answer hcrc hd hreacts ha hsendable hroom
      (hspares.right hroom) with ⟨b, out, -, hout, hrun⟩
    exact keepsUnsent_of_result hrun (by simp) hout hcrc
  · have hfit : ascd.receiver.asc.outBuf.contents.length + a.region.length <=
        maxMessageLen := by
      rw [a.region_length]
      exact hspares.left
    rcases receive_of_no_room hcrc hd hreacts ha hsendable hfit hroom with
      ⟨b, out, -, hout, hrun⟩
    exact keepsUnsent_of_result hrun (by simp) hout hcrc

/-- **One call**: an answer that finds its room spares the unsent output, and so
does a call without an answer. -/
theorem keepsUnsent_of_roomForAnswer
    (hcrc : ascd.receiver.asc.ignoreCRCMismatch = false)
    (hroom : RoomForAnswer rw ascd .receive) :
    KeepsUnsent (rwConfig charSigned rw) ascd .receive ∧
      (step (rwConfig charSigned rw) ascd
        .receive).receiver.asc.ignoreCRCMismatch = false := by
  have hkeep (b : RingBuffer maxMessageLen) (received : Received) :
      (ascd.withIn b received).receiver.asc.outBuf.contents =
        ascd.receiver.asc.outBuf.contents ++ [] :=
    (List.append_nil _).symm
  rcases hd : decode ascd.receiver.asc.inBuf.contents with ⟨d, rest⟩
  cases d with
  | nothing =>
      rcases receive_of_nothing (rwConfig charSigned rw) hcrc hd with
        ⟨b, received, -, hrun⟩
      exact keepsUnsent_of_result hrun (by simp) (hkeep b received) hcrc
  | thrown e =>
      rcases receive_of_thrown (rwConfig charSigned rw) hcrc hd with
        ⟨b, received, -, hrun⟩
      exact keepsUnsent_of_result hrun (by simp) (hkeep b received) hcrc
  | message m =>
      have hm : m.Valid := (valid_of_decode (congrArg Prod.fst hd)).left
      rw [RoomForAnswer, nextAnswer, hd] at hroom
      simp only at hroom
      cases hresponse : respondTo rw m
          (Received.ofMessage ascd.receiver.received.data m).data
          ascd.world.words with
      | none =>
          rcases receive_of_message (rwConfig charSigned rw) hcrc hd with
            ⟨b, -, hrun⟩
          have hnoop : receive (rwConfig charSigned rw) ascd =
              .ok () (ascd.gotMessage m b) :=
            hrun.trans
              (dispatch_of_noop (command_of_respondTo_none hresponse))
          exact keepsUnsent_of_result hnoop (by simp) (hkeep b _) hcrc
      | some response =>
          have hreacts := fun b =>
            @reacts_of_respondTo width charSigned rw ascd m hm.command_ne
              response hresponse b
          cases ha : response.answer m with
          | some a =>
              rw [hresponse, Option.bind_some, ha, Option.all_some] at hroom
              exact keepsUnsent_of_answer hcrc hd hreacts ha
                (sendable_of_respondTo (holds_ofMessage _ m) hm.toSendable
                  hresponse ha) (of_decide_eq_true hroom)
          | none =>
              cases response with
              | refused e => cases ha
              | replied data dataLen words => cases ha
              | thrown e =>
                  rcases receive_of_no_answer hcrc hd hreacts with
                    ⟨b, -, hrun⟩
                  exact keepsUnsent_of_result hrun (by simp) (hkeep b _) hcrc

variable (charSigned rw) in
/-- **Unsent output survives every run** in which answers find their room. -/
theorem keepsUnsent_of_run {ops : List DeviceOp}
    (h : Allowed (step (rwConfig charSigned rw)) (RoomForAnswer rw) ascd.init
      ops) :
    Allowed (step (rwConfig charSigned rw))
      (KeepsUnsent (rwConfig charSigned rw)) ascd.init ops := by
  have hstep (ascd : Device (World width)) (op : DeviceOp)
      (hcrc : ascd.receiver.asc.ignoreCRCMismatch = false)
      (hroom : RoomForAnswer rw ascd op) :
      KeepsUnsent (rwConfig charSigned rw) ascd op ∧
        (step (rwConfig charSigned rw)
          ascd op).receiver.asc.ignoreCRCMismatch = false := by
    cases op with
    | arrive b => exact ⟨trivial, hcrc⟩
    | receive => exact keepsUnsent_of_roomForAnswer hcrc hroom
    | pop => exact ⟨trivial, hcrc⟩
  exact h.imp hstep rfl

end Runs

/-- A device that has just been declared. -/
def blank : Device (World .four) :=
  { receiver :=
      { asc := Asc.init
        received := Received.blank }
    world :=
      { words := fun _ => 0
        streamingIsOn := false } }

/-- A message arrives as a whole, and is received. -/
def receiveWhole (m : Message) : List DeviceOp :=
  m.frame.map .arrive ++ [.receive]

/-- A message with a command that nobody handles. -/
def unhandled : Message := requestOf 'x' (List.replicate 9 'A')

/-- Two errors are queued, one byte is sent in between. -/
theorem keepsUnsent_of_run_two_errors :
    Allowed (step (rwConfig false none)) (KeepsUnsent (rwConfig false none))
      blank.init
      (receiveWhole unhandled ++ .pop :: receiveWhole unhandled) :=
  keepsUnsent_of_run false none (by decide +kernel)

/-- The third error overwrites the first. -/
theorem not_keepsUnsent_of_three_errors :
    ¬ forall ops,
      Allowed (step (rwConfig false none)) (KeepsUnsent (rwConfig false none))
        blank.init ops := by
  intro h
  let two := receiveWhole unhandled ++ receiveWhole unhandled ++
    unhandled.frame.map .arrive
  have hall := h (two ++ [.receive])
  rw [allowed_append] at hall
  have hkept := hall.right.left.right
  have hlost :
      ¬ (run (step (rwConfig false none)) blank.init
          two).receiver.asc.outBuf.contents <+:
        (step (rwConfig false none)
          (run (step (rwConfig false none)) blank.init two)
          .receive).receiver.asc.outBuf.contents := by
    decide +kernel
  exact hlost hkept

end Device
end AsciiSerialCom
