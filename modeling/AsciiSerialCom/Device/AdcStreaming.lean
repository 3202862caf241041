import AsciiSerialCom.Device.Streaming
import AsciiSerialCom.Foundation.Handoff
import AsciiSerialCom.Foundation.Simulation
import AsciiSerialCom.MillisecTimer

/-!
# A device that streams samples

The main loop of `arduino_uno_adc_streaming.c`.  While streaming is on, a
repeating timer starts conversions, and the result of a conversion is streamed
once the output is free.  Bytes arrive, the transmitter gets ready, the clock
ticks and conversions end between any two statements of the loop.

The loop reads the 32 bit clock byte by byte, outside an atomic block.  So the
timer may also interrupt such a reading, which then has bytes from before the tick
and bytes from after it.  An access to a single register is one step.
-/

namespace AsciiSerialCom

open Foundation
open Foundation.Hexadecimal
open Foundation.StateError
open Foundation.Run

/-!
## Variables behind registers
-/

/-- The 32 bit variable whose bytes, the lowest first, start at `p`. -/
def uint32At (words : Memory RegWidth.one.Reg) (p : Nat) : BitVec 32 :=
  BitVec.ofNat 32
    (Nat.ofDigits 256 ((Memory.slice words p 4).map BitVec.toNat))

/-- The bytes of a 32 bit variable. -/
def uint32Bytes (v : BitVec 32) : List RegWidth.one.Reg :=
  (List.range 4).map fun i =>
    BitVec.ofNat RegWidth.one.bits (v.toNat / 256 ^ i)

/-- Assign a 32 bit variable. -/
def storeUint32 (words : Memory RegWidth.one.Reg) (p : Nat) (v : BitVec 32) :
    Memory RegWidth.one.Reg :=
  Memory.store words p (uint32Bytes v)

theorem uint32At_storeUint32 (words : Memory RegWidth.one.Reg) (p : Nat)
    (v : BitVec 32) : uint32At (storeUint32 words p v) p = v := by
  have hslice : Memory.slice (storeUint32 words p v) p 4 = uint32Bytes v :=
    Memory.slice_store_self words p (uint32Bytes v)
  have hbytes : (uint32Bytes v).map BitVec.toNat =
      (List.range 4).map fun i => v.toNat / 256 ^ i % 256 := by
    rw [uint32Bytes, List.map_map]
    rfl
  have hlt := v.isLt
  rw [uint32At, hslice, hbytes]
  apply BitVec.eq_of_toNat_eq
  simp only [List.range_succ, List.range_zero, List.nil_append,
    List.map_cons, List.map_nil, List.cons_append, Nat.ofDigits_cons,
    Nat.ofDigits_nil, BitVec.toNat_ofNat]
  omega

theorem uint32At_congr {words words' : Memory RegWidth.one.Reg} {p : Nat}
    (h : forall i, i < 4 -> words' (p + i) = words (p + i)) :
    uint32At words' p = uint32At words p := by
  rw [uint32At, uint32At, Memory.slice_congr h]

/-- `register_map` with `register_write_masks`; the words of the world are
numbered like the registers that lead to them. -/
def registerMap : RegisterPointers .one :=
  { pointers := some
    writeMasks := fun i =>
      [0x20, 0x0F, 0xFF, 0xFF, 0xFF, 0xFF, 0, 0, 0, 0].getD i 0
    nRegs := 10 }

/-- Where the bytes of `adc_sample_period_ms` start. -/
def adcSamplePeriodMs : Nat := 2

/-- Where the bytes of `MILLISEC_TIMER_NOW` start. -/
def millisecTimerNow : Nat := 6

/-!
## The program
-/

namespace AdcStreaming

/-- The statements of the loop. -/
inductive Statement where
  /-- `stream_state_before_receiving` is set -/
  | saveStreamState
  /-- the first part of `HANDLE_ASC_COMM_IN_POLLING_LOOP` -/
  | transmit
  /-- its second part -/
  | moveInput
  /-- its last part -/
  | receive
  | setTimer
  | startConversion
  | stream
  deriving DecidableEq, Repr

namespace Statement

/-- The statement that follows, around the loop. -/
def next : Statement -> Statement
  | saveStreamState => transmit
  | transmit => moveInput
  | moveInput => receive
  | receive => setTimer
  | setTimer => startConversion
  | startConversion => stream
  | stream => saveStreamState

end Statement

/-- A time of streaming, from the setting of the timer on. -/
structure Session where
  /-- the true time at which the timer was set -/
  begun : Nat
  /-- the interval for which it was set -/
  period : MillisecTimerUnit
  /-- number of conversions started -/
  conversions : Nat

/-- What has happened so far. -/
structure History where
  /-- the true time in milliseconds -/
  ticks : Nat
  /-- the bytes received -/
  arrived : List UInt8
  /-- the latest session -/
  session : Option Session
  /-- number of conversions started -/
  started : Nat
  /-- the results of the conversions, in order -/
  results : List (BitVec 16)
  /-- the samples put into streaming messages -/
  samples : List (BitVec 16)

end AdcStreaming

/-- The variables of the program, with the hardware. -/
structure AdcStreaming where
  polling : Polling .one
  /-- the statement that is executed next -/
  statement : AdcStreaming.Statement
  streamStateBeforeReceiving : Bool
  adcTimer : MillisecTimer
  haveStartedAdcConversion : Bool
  /-- bit `ADSC` of `ADCSRA`: a conversion is running -/
  adsc : Bool
  /-- the data register of the converter -/
  adc : BitVec 16
  nExceptions : BitVec 16
  history : AdcStreaming.History

abbrev AdcStreamingM := EStateM Failure AdcStreaming

namespace AdcStreaming

def words (s : AdcStreaming) : Memory RegWidth.one.Reg :=
  s.polling.ascd.world.words

def streamingIsOn (s : AdcStreaming) : Bool := s.polling.streamingIsOn

/-- `MILLISEC_TIMER_NOW` -/
def now (s : AdcStreaming) : MillisecTimerUnit :=
  uint32At s.words millisecTimerNow

def onPolling (x : PollingM .one α) : AdcStreamingM α :=
  zoom AdcStreaming.polling (fun p s => { s with polling := p }) x

/-- Set the timer for a new session, at the time that has been read. -/
def setTimer (reading : MillisecTimerUnit) (s : AdcStreaming) : AdcStreaming :=
  let period := uint32At s.words adcSamplePeriodMs
  { s with
    adcTimer := MillisecTimer.setRel reading period
    history :=
      { s.history with
        session :=
          some
            { begun := s.history.ticks
              period := period
              conversions := 0 } } }

/-- Set the bit `ADSC`. -/
def startConversion (s : AdcStreaming) : AdcStreaming :=
  { s with
    adsc := true
    haveStartedAdcConversion := true
    history :=
      { s.history with
        started := s.history.started + 1
        session := s.history.session.map fun session =>
          { session with conversions := session.conversions + 1 } } }

/-- The last three digits of a result, as they are streamed. -/
def adcValBuffer (adcVal : BitVec 16) : Memory UInt8 :=
  fun i => Memory.store (fun _ => 0) 0 (convertUint16ToHex adcVal true) (1 + i)

/-- A result has been streamed. -/
def sampleStreamed (s : AdcStreaming) : AdcStreaming :=
  { s with
    haveStartedAdcConversion := false
    history := { s.history with samples := s.history.samples ++ [s.adc] } }

/-- The statements of the loop in `main`; the clock is read as `reading`. -/
def body (charSigned : Bool) (reading : MillisecTimerUnit) :
    Statement -> AdcStreamingM Unit
  | .saveStreamState =>
      modify fun s => { s with streamStateBeforeReceiving := s.streamingIsOn }
  | .transmit => onPolling Polling.uartTxFromCircBuf
  | .moveInput => onPolling Polling.moveInput
  | .receive =>
      onPolling (Polling.receive (declaredConfig charSigned registerMap))
  | .setTimer => do
      let s ← get
      -- just started streaming so start this timer
      if s.streamingIsOn ∧ ¬ s.streamStateBeforeReceiving then
        modify (setTimer reading)
      else
        pure ()
  | .startConversion => do
      let s ← get
      if s.streamingIsOn ∧ ¬ s.haveStartedAdcConversion then do
        let (expired, timer) := s.adcTimer.isExpiredRepeat reading
        modify fun s => { s with adcTimer := timer }
        if expired then
          modify startConversion
        else
          pure ()
      else
        pure ()
  | .stream => do
      let s ← get
      if s.haveStartedAdcConversion ∧ ¬ s.adsc ∧ s.polling.readyToStream then do
        onPolling (Polling.streamToHost (adcValBuffer s.adc) 3)
        modify sampleStreamed
      else
        pure ()

/-- Execute a statement; an exception ends the iteration and is counted. -/
def execute (charSigned : Bool) (reading : MillisecTimerUnit)
    (s : AdcStreaming) : AdcStreaming :=
  match body charSigned reading s.statement s with
  | .ok _ s' => { s' with statement := s.statement.next }
  | .error _ s' =>
      { s' with
        statement := .saveStreamState
        nExceptions := s'.nExceptions + 1 }

/-- What happens next. -/
inductive Event where
  /-- a received byte waits, and interrupts -/
  | arrive (b : UInt8)
  /-- the transmitter gets ready -/
  | ready
  /-- the timer interrupts -/
  | tick
  /-- the running conversion ends with this result, if there is one -/
  | converted (v : BitVec 16)
  /-- the next statement is executed -/
  | execute
  /-- the next statement is executed, and the timer interrupts it when it has read
  these bytes of the clock -/
  | interrupted (before : Nat -> Bool)

def Event.isExecute : Event -> Bool
  | .execute => true
  | .interrupted _ => true
  | _ => false

def withWords (words : Memory RegWidth.one.Reg) (s : AdcStreaming) :
    AdcStreaming :=
  let ascd := s.polling.ascd
  { s with
    polling :=
      { s.polling with
        ascd := { ascd with world := { ascd.world with words := words } } } }

/-- `MILLISEC_TIMER_AVR_TIMER0_ISR` -/
def tick (s : AdcStreaming) : AdcStreaming :=
  { s.withWords (storeUint32 s.words millisecTimerNow (s.now + 1)) with
    history := { s.history with ticks := s.history.ticks + 1 } }

/-- What is read of the clock when the timer interrupts the reading. -/
def tornReading (before : Nat -> Bool) (s : AdcStreaming) :
    MillisecTimerUnit :=
  uint32At
    (fun p => if before (p - millisecTimerNow) then s.words p
      else s.tick.words p)
    millisecTimerNow

/-- What is read of the clock in the course of an event. -/
def readingIn (s : AdcStreaming) : Event -> MillisecTimerUnit
  | .interrupted before => s.tornReading before
  | _ => s.now

/-- The hardware ends the conversion that is running. -/
def converted (v : BitVec 16) (s : AdcStreaming) : AdcStreaming :=
  if s.adsc then
    { s with
      adsc := false
      adc := v
      history := { s.history with results := s.history.results ++ [v] } }
  else
    s

def step (charSigned : Bool) (s : AdcStreaming) : Event -> AdcStreaming
  | .arrive b =>
      { s with
        polling := s.polling.arrive b
        history := { s.history with arrived := s.history.arrived ++ [b] } }
  | .ready => { s with polling := { s.polling with uartReady := true } }
  | .tick => s.tick
  | .converted v => s.converted v
  | .execute => s.execute charSigned s.now
  | .interrupted before =>
      (s.execute charSigned (s.tornReading before)).tick

/-- The words that the program starts with; the port is as it was. -/
def initialWords (portb : RegWidth.one.Reg) : Memory RegWidth.one.Reg :=
  storeUint32
    (storeUint32 (Memory.store (fun _ => 0) 0 [portb, 0x4F]) adcSamplePeriodMs
      1000)
    millisecTimerNow 0

/-- The program when it enters its loop. -/
def start (portb : RegWidth.one.Reg) (received : Received) (uartReady : Bool)
    (adc : BitVec 16) : AdcStreaming :=
  { polling :=
      Polling.setup
        { receiver :=
            { asc := Asc.init
              received := received }
          world :=
            { words := initialWords portb
              streamingIsOn := false } }
        uartReady
    statement := .saveStreamState
    streamStateBeforeReceiving := false
    adcTimer :=
      { enabled := false
        setTime := 0
        expireTime := 0 }
    haveStartedAdcConversion := false
    adsc := false
    adc := adc
    nExceptions := 0
    history :=
      { ticks := 0
        arrived := []
        session := none
        started := 0
        results := []
        samples := [] } }

end AdcStreaming
end AsciiSerialCom
