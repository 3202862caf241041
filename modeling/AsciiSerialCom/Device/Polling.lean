import AsciiSerialCom.Device.Receive

/-!
# The polling loop

The macros of `asc_helpers.h` that run a device with register pointers inside a
polling loop.  An interrupt pushes received bytes into the extra input buffer;
the transmitter takes a byte when it is ready, and is busy from then on until it
says otherwise.
-/

namespace AsciiSerialCom

open Foundation
open Foundation.StateError

variable {width : RegWidth}

/-- `_extraInputBuffer_size_` -/
def extraInputBufferSize : Nat := 64

/-- The configuration that `DECLARE_ASC_DEVICE_W_REGISTER_POINTERS` declares. -/
def declaredConfig (charSigned : Bool) (state : RegisterPointers width) :
    DeviceConfig (World width) :=
  { funcRw := some (RegisterPointers.handleMessage charSigned (some state))
    funcS := none
    funcNf := some handleNfMessages }

/-- The variables of the polling loop, with the transmitter. -/
structure Polling (width : RegWidth) where
  ascd : Device (World width)
  extraInputBuffer : RingBuffer extraInputBufferSize
  /-- the transmitter takes a byte -/
  uartReady : Bool
  /-- the bytes the transmitter has taken -/
  transmitted : List UInt8

abbrev PollingM (width : RegWidth) := EStateM Failure (Polling width)

namespace Polling

/-- `SETUP_ASC_DEVICE_W_REGISTER_POINTERS` -/
def setup (ascd : Device (World width)) (uartReady : Bool) : Polling width :=
  { ascd := ascd.init
    extraInputBuffer := RingBuffer.fresh 6
    uartReady := uartReady
    transmitted := [] }

def outBuf (s : Polling width) : RingBuffer maxMessageLen :=
  s.ascd.receiver.asc.outBuf

def inBuf (s : Polling width) : RingBuffer maxMessageLen :=
  s.ascd.receiver.asc.inBuf

def withOutBuf (out : RingBuffer maxMessageLen) (s : Polling width) :
    Polling width :=
  let r := s.ascd.receiver
  { s with
    ascd :=
      { s.ascd with receiver := { r with asc := { r.asc with outBuf := out } } } }

def withInBuf (b : RingBuffer maxMessageLen) (s : Polling width) :
    Polling width :=
  let r := s.ascd.receiver
  { s with
    ascd :=
      { s.ascd with receiver := { r with asc := { r.asc with inBuf := b } } } }

/-- `uart_tx_from_circ_buf` on the output buffer of the device -/
def uartTxFromCircBuf : PollingM width Unit := do
  let s ← get
  if s.uartReady ∧ ¬ s.outBuf.isEmpty then do
    let b ← zoom outBuf withOutBuf RingBuffer.popFront
    modify fun s =>
      { s with uartReady := false, transmitted := s.transmitted ++ [b] }
  else
    pure ()

/-- Move a byte from the extra input buffer to the device. -/
def moveInput : PollingM width Unit := do
  let s ← get
  if ¬ s.extraInputBuffer.isEmpty then do
    let tmpByte ← zoom extraInputBuffer
      (fun b s => { s with extraInputBuffer := b }) RingBuffer.popFront
    modify fun s => s.withInBuf (s.inBuf.pushBack tmpByte)
  else
    pure ()

/-- `ascii_serial_com_device_receive(&_ascd)` -/
def receive (config : DeviceConfig (World width)) : PollingM width Unit :=
  zoom ascd (fun ascd s => { s with ascd := ascd }) (Device.receive config)

/-- `HANDLE_ASC_COMM_IN_POLLING_LOOP` -/
def handleAscComm (config : DeviceConfig (World width)) :
    PollingM width Unit := do
  uartTxFromCircBuf
  moveInput
  receive config

/-- `uart_rx_to_circ_buf` on the extra input buffer, when a byte waits. -/
def arrive (b : UInt8) (s : Polling width) : Polling width :=
  { s with extraInputBuffer := s.extraInputBuffer.pushBack b }

end Polling

/-!
## The loop as it is seen from outside
-/

/-- The contents of the buffers, and what else of the loop matters. -/
structure LoopView (width : RegWidth) where
  inBuf : List UInt8
  extra : List UInt8
  out : List UInt8
  transmitted : List UInt8
  uartReady : Bool
  world : World width

namespace LoopView

/-- The transmitter takes a byte if there is one and it is ready. -/
def transmit (v : LoopView width) : LoopView width :=
  match v.uartReady, v.out with
  | true, b :: rest =>
      { v with
        out := rest
        uartReady := false
        transmitted := v.transmitted ++ [b] }
  | _, _ => v

/-- A byte moves on to the device if there is one. -/
def move (v : LoopView width) : LoopView width :=
  match v.extra with
  | b :: rest => { v with inBuf := v.inBuf ++ [b], extra := rest }
  | [] => v

end LoopView

namespace Polling

def view (s : Polling width) : LoopView width :=
  { inBuf := s.inBuf.contents
    extra := s.extraInputBuffer.contents
    out := s.outBuf.contents
    transmitted := s.transmitted
    uartReady := s.uartReady
    world := s.ascd.world }

/-- Checksums are checked. -/
def Checks (s : Polling width) : Prop :=
  s.ascd.receiver.asc.ignoreCRCMismatch = false

variable {s : Polling width}

theorem uartTxFromCircBuf_view (hchecks : s.Checks) :
    exists s', uartTxFromCircBuf s = .ok () s' ∧ s'.view = s.view.transmit ∧
      s'.Checks := by
  have hempty := s.outBuf.isEmpty_iff
  cases hout : s.outBuf.contents with
  | nil =>
      refine ⟨s, ?_, ?_, hchecks⟩
      · rw [uartTxFromCircBuf, bind_of_ok (get_apply s),
          if_neg (fun h => h.right (hempty.mpr hout))]
        rfl
      · have hview : s.view.out = [] := hout
        rw [LoopView.transmit, hview]
        split <;> simp_all
  | cons b rest =>
      have hne : ¬ s.outBuf.isEmpty := by
        rw [hempty, hout]
        exact List.cons_ne_nil b rest
      have hview : s.view.out = b :: rest := hout
      cases hready : s.uartReady with
      | false =>
          refine ⟨s, ?_, ?_, hchecks⟩
          · rw [uartTxFromCircBuf, bind_of_ok (get_apply s),
              if_neg (by simp [hready])]
            rfl
          · have hviewReady : s.view.uartReady = false := hready
            rw [LoopView.transmit, hviewReady]
      | true =>
          rcases RingBuffer.popFront_of_cons hout with ⟨out, hpop, hrest⟩
          have hzoom : zoom outBuf withOutBuf RingBuffer.popFront s =
              .ok b (s.withOutBuf out) := zoom_of_ok hpop
          refine ⟨{ s.withOutBuf out with
            uartReady := false
            transmitted := s.transmitted ++ [b] }, ?_, ?_, hchecks⟩
          · rw [uartTxFromCircBuf, bind_of_ok (get_apply s),
              if_pos ⟨hready, hne⟩, bind_of_ok hzoom]
            rfl
          · have hviewReady : s.view.uartReady = true := hready
            rw [LoopView.transmit, hviewReady, hview]
            simp only [view, withOutBuf, outBuf, inBuf, hrest]

theorem moveInput_view (hchecks : s.Checks)
    (hroom : s.view.extra ≠ [] -> s.view.inBuf.length < maxMessageLen) :
    exists s', moveInput s = .ok () s' ∧ s'.view = s.view.move ∧
      s'.Checks := by
  have hempty := s.extraInputBuffer.isEmpty_iff
  cases hextra : s.extraInputBuffer.contents with
  | nil =>
      have hview : s.view.extra = [] := hextra
      refine ⟨s, ?_, ?_, hchecks⟩
      · rw [moveInput, bind_of_ok (get_apply s),
          if_neg (fun h => h (hempty.mpr hextra))]
        rfl
      · rw [LoopView.move, hview]
  | cons b rest =>
      have hview : s.view.extra = b :: rest := hextra
      have hne : ¬ s.extraInputBuffer.isEmpty := by
        rw [hempty, hextra]
        exact List.cons_ne_nil b rest
      have hlt : s.inBuf.contents.length < maxMessageLen :=
        hroom (by rw [hview]; exact List.cons_ne_nil b rest)
      rcases RingBuffer.popFront_of_cons hextra with ⟨extra, hpop, hrest⟩
      have hpush := RingBuffer.contents_pushBack_of_lt b hlt
      have hzoom : zoom extraInputBuffer
          (fun b s => { s with extraInputBuffer := b }) RingBuffer.popFront s =
          .ok b { s with extraInputBuffer := extra } := zoom_of_ok hpop
      refine ⟨withInBuf (s.inBuf.pushBack b)
        { s with extraInputBuffer := extra }, ?_, ?_, hchecks⟩
      · rw [moveInput, bind_of_ok (get_apply s), if_pos hne, bind_of_ok hzoom]
        rfl
      · rw [LoopView.move, hview]
        simp only [view, withInBuf, inBuf, outBuf, hrest]
        congr 1

theorem arrive_view (b : UInt8)
    (hroom : s.view.extra.length < extraInputBufferSize) :
    (s.arrive b).view = { s.view with extra := s.view.extra ++ [b] } := by
  have hpush : (s.extraInputBuffer.pushBack b).contents =
      s.extraInputBuffer.contents ++ [b] :=
    RingBuffer.contents_pushBack_of_lt b hroom
  simp only [view, arrive, hpush]
  rfl

/-!
## The receiving function in the loop
-/

variable {config : DeviceConfig (World width)}

theorem receive_view_of_nothing (hchecks : s.Checks) {rest : List UInt8}
    (hd : decode s.view.inBuf = (.nothing, rest)) :
    exists s', receive config s = .ok () s' ∧
      s'.view = { s.view with inBuf := rest } ∧ s'.Checks := by
  rcases Device.receive_of_nothing config hchecks hd with
    ⟨b, received, hb, hrun⟩
  refine ⟨{ s with ascd := s.ascd.withIn b received }, zoom_of_ok hrun, ?_,
    hchecks⟩
  rw [← hb]
  rfl

/-- A message whose answer finds the output buffer empty. -/
theorem receive_view_of_answer (hchecks : s.Checks) {m a : Message}
    {rest : List UInt8} {response : Response width}
    (hd : decode s.view.inBuf = (.message m, rest)) (hout : s.view.out = [])
    (hreacts : forall b,
      Device.Reacts config (s.ascd.gotMessage m b) m response)
    (ha : response.answer m = some a) (hsendable : a.Sendable) :
    exists s', receive config s = .ok () s' ∧
      s'.view =
        { s.view with
          inBuf := rest
          out := a.frame
          world := response.worldAfter s.view.world } ∧
      s'.Checks := by
  have hempty : s.ascd.receiver.asc.outBuf.contents = [] := hout
  rcases Device.receive_of_answer hchecks hd hreacts ha hsendable
    (Asc.hasRoom_of_empty hempty hsendable.length_le)
    (Asc.unwrapped_of_empty hempty) with ⟨b, out, hb, hout', hrun⟩
  refine ⟨{ s with ascd := s.ascd.afterResponse m response b out },
    zoom_of_ok hrun, ?_, hchecks⟩
  rw [hempty, List.nil_append] at hout'
  rw [← hb, ← hout']
  rfl

end Polling
end AsciiSerialCom
