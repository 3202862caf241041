import AsciiSerialCom.SerialCom.RoundTrip
import AsciiSerialCom.SerialCom.Stream

/-!
# Sending messages back

The loopback programs receive a message and put it into the output buffer again.
What comes of an iteration depends on what the receiving function makes of the
input, in either mode of the receiver.
-/

namespace AsciiSerialCom

open Foundation
open Foundation.StateError

/-- Receive a message and send it back. -/
def loopbackMessage : ReceiverM Unit := do
  Receiver.getMessage
  let received := (← get).received
  if received.command ≠ 0 then
    zoom Receiver.asc (fun asc r => { r with asc := asc })
      (Asc.putMessage received.ascVersion received.appVersion received.command
        received.data received.dataLen)
  else
    pure ()

/-- What the loopback programs do to their input in an iteration. -/
def loopback : ReceiverM Unit := do
  if ¬ (← get).asc.inBuf.isEmpty then
    loopbackMessage
  else
    pure ()

/-- How a call ends that comes to this. -/
def Decoded.outcome : Decoded -> Except Failure Unit
  | .message _ => .ok ()
  | .nothing => .ok ()
  | .thrown e => .error (.exception e)

theorem Decoded.outcome_ne_outOfBounds (d : Decoded) :
    d.outcome ≠ .error .outOfBounds := by
  cases d <;> simp [Decoded.outcome]

/-- A receiver once messages have been taken out of its input and sent back. -/
structure LoopsBack (r after : Receiver) (rest : List UInt8)
    (messages : List Message) : Prop where
  inBuf_eq : after.asc.inBuf.contents = rest
  outBuf_eq : after.asc.outBuf.contents =
    r.asc.outBuf.contents ++ framesOf messages
  ignores_eq : after.asc.ignoreCRCMismatch = r.asc.ignoreCRCMismatch

/-- The messages of an outcome fit behind an unwrapped backlog. -/
def EchoFits (r : Receiver) (d : Decoded) : Prop :=
  d.reported.all (fun m =>
    r.asc.HasRoom m.data.length ∧ r.asc.Unwrapped) = true

instance (r : Receiver) (d : Decoded) : Decidable (EchoFits r d) :=
  inferInstanceAs (Decidable (_ = true))

section Calls

variable {r : Receiver} {d : Decoded} {rest : List UInt8} {m : Message}

theorem loopbackMessage_of_message
    (h : Receiver.AnswersWith Receiver.getMessage r (.message m) rest)
    (hm : m.Valid) (hfits : EchoFits r (.message m)) :
    exists after, loopbackMessage r = .ok () after ∧
      LoopsBack r after rest [m] := by
  rcases h with ⟨b, received, hb, hrun, hreceived⟩
  have hreceived : received = Received.ofMessage r.received.data m := hreceived
  subst hreceived
  have hroom := List.all_eq_true.mp hfits m (List.mem_singleton_self m)
  rw [decide_eq_true_eq] at hroom
  let received := Received.ofMessage r.received.data m
  let asc := (r.withIn b received).asc
  have hmessage : Asc.messageOf received.ascVersion received.appVersion
      received.command received.data received.dataLen = m :=
    Received.message_ofMessage r.received.data m
  have hput : exists out : RingBuffer maxMessageLen,
      Asc.putMessage received.ascVersion received.appVersion received.command
          received.data received.dataLen asc =
        .ok () { asc with outBuf := out } ∧
      out.contents = asc.outBuf.contents ++ m.frame ∧
        out.raw.iStart = asc.outBuf.raw.iStart :=
    Asc.putMessage_of_unwrapped hmessage
      hm.toSendable.startByte_not_mem_fields hroom.left hroom.right
  rcases hput with ⟨out, hput, hout, -⟩
  have hcommand : received.command ≠ 0 := hm.command_ne
  have hloop : loopbackMessage r =
      .ok ()
        { r.withIn b received with asc := { asc with outBuf := out } } := by
    rw [loopbackMessage, bind_of_ok hrun, bind_of_ok (get_apply _)]
    exact (congrFun (if_pos hcommand) _).trans (zoom_of_ok hput)
  refine ⟨_, hloop, hb, ?_, rfl⟩
  rw [framesOf_singleton]
  exact hout

/-- A call that receives nothing sends nothing. -/
theorem loopbackMessage_of_nothing
    (h : Receiver.AnswersWith Receiver.getMessage r .nothing rest) :
    exists after, loopbackMessage r = .ok () after ∧
      LoopsBack r after rest [] := by
  rcases h with ⟨b, received, hb, hrun, hcommand⟩
  have hloop : loopbackMessage r = .ok () (r.withIn b received) := by
    rw [loopbackMessage, bind_of_ok hrun, bind_of_ok (get_apply _)]
    exact congrFun (if_neg (not_not_intro hcommand)) _
  exact ⟨_, hloop, hb, (List.append_nil _).symm, rfl⟩

theorem loopbackMessage_of_thrown {e : AscException}
    (h : Receiver.AnswersWith Receiver.getMessage r (.thrown e) rest) :
    exists after, loopbackMessage r = .error (.exception e) after ∧
      LoopsBack r after rest [] := by
  rcases h with ⟨b, received, hb, hrun⟩
  exact ⟨_, bind_of_error hrun, hb, (List.append_nil _).symm, rfl⟩

theorem loopback_of_nonempty (hin : r.asc.inBuf.contents ≠ []) :
    loopback r = loopbackMessage r := by
  rw [loopback, bind_of_ok (get_apply r)]
  refine congrFun (if_pos ?_) r
  rw [r.asc.inBuf.isEmpty_iff]
  exact hin

theorem loopback_of_empty (hin : r.asc.inBuf.contents = []) :
    loopback r = .ok () r := by
  rw [loopback, bind_of_ok (get_apply r)]
  exact congrFun
    (if_neg (not_not_intro (r.asc.inBuf.isEmpty_iff.mpr hin))) r

/-- **An iteration sends back what the receiving function reports**, and throws
when it throws. -/
theorem loopback_of_answers
    (h : Receiver.AnswersWith Receiver.getMessage r d rest)
    (hempty : r.asc.inBuf.contents = [] -> d = .nothing ∧ rest = [])
    (hvalid : forall m, d = .message m -> m.Valid) (hfits : EchoFits r d) :
    LoopsBack r (Result.state (loopback r)) rest d.reported ∧
      Result.outcome (loopback r) = d.outcome := by
  by_cases hin : r.asc.inBuf.contents = []
  · rcases hempty hin with ⟨hd, hrest⟩
    subst hd
    rw [loopback_of_empty hin]
    exact ⟨⟨hin.trans hrest.symm, (List.append_nil _).symm, rfl⟩, rfl⟩
  · rw [loopback_of_nonempty hin]
    cases d with
    | message m =>
        rcases loopbackMessage_of_message h (hvalid m rfl) hfits with
          ⟨after, hrun, hback⟩
        rw [hrun]
        exact ⟨hback, rfl⟩
    | nothing =>
        rcases loopbackMessage_of_nothing h with ⟨after, hrun, hback⟩
        rw [hrun]
        exact ⟨hback, rfl⟩
    | thrown e =>
        rcases loopbackMessage_of_thrown h with ⟨after, hrun, hback⟩
        rw [hrun]
        exact ⟨hback, rfl⟩

end Calls
end AsciiSerialCom
