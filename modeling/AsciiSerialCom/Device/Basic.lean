import AsciiSerialCom.SerialCom.Decode

/-!
# The device

The functions of `ascii_serial_com_device.c`.  A handler is one of the functions
of a configuration together with its state pointer; what the state pointers lead
to is a world of which nothing is assumed here.
-/

namespace AsciiSerialCom

open Foundation
open Foundation.StateError

/-- What a handler works on: the interface, the data buffer of the device, and
the world. -/
structure HandlerState (ω : Type _) where
  asc : Asc
  data : Memory UInt8
  world : ω

abbrev HandlerM (ω : Type _) := EStateM Failure (HandlerState ω)

/-- A function of the configuration, applied to its state pointer. -/
abbrev Handler (ω : Type _) :=
  (ascVersion appVersion command : UInt8) -> (dataLen : Nat) -> HandlerM ω Unit

namespace HandlerState

variable {ω : Type _}

/-- Run an operation on the interface. -/
def onAsc (x : AscM α) : HandlerM ω α :=
  zoom HandlerState.asc (fun asc s => { s with asc := asc }) x

/-- `ascii_serial_com_put_message_in_output_buffer` on the data buffer -/
def putMessage (ascVersion appVersion command : UInt8) (dataLen : Nat) :
    HandlerM ω Unit := do
  let data := (← get).data
  onAsc (Asc.putMessage ascVersion appVersion command data dataLen)

/-- `ascii_serial_com_put_error_in_output_buffer` on the data buffer -/
def putError (errorCode : AscException) (ascVersion appVersion command : UInt8)
    (dataLen : Nat) : HandlerM ω Unit := do
  let data := (← get).data
  onAsc (Asc.putError ascVersion appVersion command data dataLen errorCode)

end HandlerState

/-- `ascii_serial_com_device_config` -/
structure DeviceConfig (ω : Type _) where
  /-- called for r or w messages -/
  funcRw : Option (Handler ω)
  /-- called for s messages -/
  funcS : Option (Handler ω)
  /-- called for n and f messages -/
  funcNf : Option (Handler ω)

/-- `ascii_serial_com_device`, together with the world of its handlers. -/
structure Device (ω : Type _) where
  receiver : Receiver
  world : ω

abbrev DeviceM (ω : Type _) := EStateM Failure (Device ω)

namespace Device

variable {ω : Type _}

/-- `ascii_serial_com_device_init` -/
def init (ascd : Device ω) : Device ω :=
  { ascd with receiver := { ascd.receiver with asc := Asc.init } }

def handlerState (ascd : Device ω) : HandlerState ω :=
  { asc := ascd.receiver.asc
    data := ascd.receiver.received.data
    world := ascd.world }

def withHandlerState (s : HandlerState ω) (ascd : Device ω) : Device ω :=
  { receiver :=
      { asc := s.asc
        received := { ascd.receiver.received with data := s.data } }
    world := s.world }

/-- Call a handler with the message last received. -/
def call (handler : Handler ω) : DeviceM ω Unit := fun ascd =>
  let received := ascd.receiver.received
  zoom handlerState withHandlerState
    (handler received.ascVersion received.appVersion received.command
      received.dataLen) ascd

/-- The answer to a command that has no handler. -/
def notImplemented : Handler ω :=
  HandlerState.putError .commandNotImplemented

/-- The part of `ascii_serial_com_device_receive` that handles the message last
received. -/
def dispatch (config : DeviceConfig ω) : DeviceM ω Unit := do
  let command := (← get).receiver.received.command
  if command = 0 then
    -- no message in input buffer
    pure ()
  else if command = 'r'.toUInt8 ∨ command = 'w'.toUInt8 then
    call (config.funcRw.getD notImplemented)
  else if command = 's'.toUInt8 then
    call (config.funcS.getD notImplemented)
  else if command = 'n'.toUInt8 ∨ command = 'f'.toUInt8 then
    call (config.funcNf.getD notImplemented)
  else if command = 'z'.toUInt8 then
    -- this is noop
    pure ()
  else
    call notImplemented

/-- `ascii_serial_com_device_receive` -/
def receive (config : DeviceConfig ω) : DeviceM ω Unit := do
  zoom Device.receiver (fun r ascd => { ascd with receiver := r })
    Receiver.getMessage
  dispatch config

/-!
## What a call comes to
-/

section Receive

variable {ascd : Device ω} (config : DeviceConfig ω)

/-- The device with another input buffer and other results of its receiver. -/
def withIn (ascd : Device ω) (b : RingBuffer maxMessageLen)
    (received : Received) : Device ω :=
  { ascd with receiver := ascd.receiver.withIn b received }

theorem receive_of_nothing (hcrc : ascd.receiver.asc.ignoreCRCMismatch = false)
    {rest : List UInt8}
    (hd : decode ascd.receiver.asc.inBuf.contents = (.nothing, rest)) :
    exists b received, b.contents = rest ∧
      receive config ascd = .ok () (ascd.withIn b received) := by
  rcases Receiver.getMessage_of_nothing hcrc hd with
    ⟨b, received, hb, hcommand, hrun⟩
  refine ⟨b, received, hb, ?_⟩
  rw [receive, bind_of_ok (zoom_of_ok hrun), dispatch,
    bind_of_ok (get_apply _)]
  exact if_pos hcommand ▸ rfl

theorem receive_of_thrown (hcrc : ascd.receiver.asc.ignoreCRCMismatch = false)
    {e : AscException} {rest : List UInt8}
    (hd : decode ascd.receiver.asc.inBuf.contents = (.thrown e, rest)) :
    exists b received, b.contents = rest ∧
      receive config ascd =
        .error (.exception e) (ascd.withIn b received) := by
  rcases Receiver.getMessage_of_thrown hcrc hd with ⟨b, received, hb, hrun⟩
  refine ⟨b, received, hb, ?_⟩
  rw [receive, bind_of_error (zoom_of_error hrun)]
  rfl

theorem receive_of_message (hcrc : ascd.receiver.asc.ignoreCRCMismatch = false)
    {m : Message} {rest : List UInt8}
    (hd : decode ascd.receiver.asc.inBuf.contents = (.message m, rest)) :
    exists b : RingBuffer maxMessageLen, b.contents = rest ∧
      receive config ascd =
        dispatch config
          (ascd.withIn b
            (Received.ofMessage ascd.receiver.received.data m)) := by
  rcases Receiver.getMessage_of_message hcrc hd with ⟨b, hb, hrun⟩
  refine ⟨b, hb, ?_⟩
  rw [receive, bind_of_ok (zoom_of_ok hrun)]
  rfl

end Receive

end Device
end AsciiSerialCom
