import AsciiSerialCom.Device.AdcStreaming

/-!
# A device that streams samples or a counter

The main loop of `stm32f091nucleo64_adc_streaming.c`.  An option flag tells
whether the results of conversions are streamed or a counter.  Conversions are
started whenever the timer says so, also when the result of the last one has not
been read; the converter keeps the older result, and marks the loss.  Another
option flag has the output converter switched off for half a second.

Each statement is one step, for the converter too: no conversion ends while a
result is read and the flags of its end are cleared.
-/

namespace AsciiSerialCom

open Foundation
open Foundation.Hexadecimal
open Foundation.StateError
open Foundation.Run

namespace StmStreaming

/-!
## Registers
-/

/-- `register_map` with `register_write_masks`; the words of the world are
numbered like the registers that lead to them. -/
def registerMap : RegisterPointers .four :=
  { pointers := some
    writeMasks := fun i =>
      [0, 0x20, 0xFFFFFFFF, 0xFFF, 0, 0, 0xFFFFFFFF, 0, 0xFFFF, 0xFC0].getD i 0
    nRegs := 10 }

/-- The word of `GPIOA_IDR`. -/
def gpioaIdr : Nat := 0

/-- The word of `optionFlags`. -/
def optionFlags : Nat := 2

/-- The word of `MILLISEC_TIMER_NOW`. -/
def millisecTimerNow : Nat := 5

/-- The word of `adc_sample_period_ms`. -/
def adcSamplePeriodMs : Nat := 6

/-- The word of `adc_n_overruns`. -/
def adcNOverruns : Nat := 7

/-- The word of `TIM_ARR(TIM6)`. -/
def timArr : Nat := 8

/-- The word of `DAC_CR(DAC1)`. -/
def dacCr : Nat := 9

/-- `DAC_RESET_TIME_MS` -/
def dacResetTimeMs : Nat := 500

/-- The bit of `DAC_CR` that enables channel 1. -/
def dacEnableBit : BitVec 32 := 1

/-- The option flag that has the counter streamed. -/
def counterFlag : BitVec 32 := 1

/-- The option flag that has the output converter reset. -/
def resetFlag : BitVec 32 := 2

/-!
## The program
-/

/-- The statements of the loop. -/
inductive Statement where
  /-- `stream_state_before_receiving` is set -/
  | saveStreamState
  /-- the first part of `HANDLE_ASC_COMM_IN_POLLING_LOOP` -/
  | transmit
  /-- its second part -/
  | moveInput
  /-- its last part -/
  | receive
  | setTimer
  | disableDac
  | enableDac
  | startConversion
  | stream
  deriving DecidableEq, Repr

/-- The statement that follows, around the loop. -/
def Statement.next : Statement -> Statement
  | saveStreamState => transmit
  | transmit => moveInput
  | moveInput => receive
  | receive => setTimer
  | setTimer => disableDac
  | disableDac => enableDac
  | enableDac => startConversion
  | startConversion => stream
  | stream => saveStreamState

/-- The converter, as its registers show it. -/
structure Converter where
  /-- a conversion is running -/
  adstart : Bool
  /-- a result has not been read -/
  eos : Bool
  /-- a result has been lost since the flag was cleared -/
  overrun : Bool
  /-- the result that has not been read, or any -/
  data : BitVec 16

/-- What is streamed. -/
inductive Streamed where
  | count (n : BitVec 32)
  | sample (v : BitVec 16)
  deriving DecidableEq, Repr

/-- What has happened so far. -/
structure History where
  /-- the true time in milliseconds -/
  ticks : Nat
  /-- what has been streamed, in order -/
  streamed : List Streamed
  /-- the results of the conversions, in order, without those lost -/
  results : List (BitVec 16)
  /-- number of results lost -/
  lost : Nat
  /-- number of times that a loss was found -/
  overruns : Nat
  /-- the true time at which the output converter was last switched off -/
  dacDisabled : Option Nat

end StmStreaming

/-- The variables of the program, with the hardware. -/
structure StmStreaming where
  polling : Polling .four
  /-- the statement that is executed next -/
  statement : StmStreaming.Statement
  streamStateBeforeReceiving : Bool
  adcTimer : MillisecTimer
  dacResetTimer : MillisecTimer
  counter : BitVec 32
  adc : StmStreaming.Converter
  nExceptions : BitVec 16
  history : StmStreaming.History

abbrev StmStreamingM := EStateM Failure StmStreaming

namespace StmStreaming

def words (s : StmStreaming) : Memory RegWidth.four.Reg :=
  s.polling.ascd.world.words

/-- A word that a register leads to. -/
def word (s : StmStreaming) (p : Nat) : BitVec 32 := s.words p

/-- `MILLISEC_TIMER_NOW` -/
def now (s : StmStreaming) : MillisecTimerUnit := s.word millisecTimerNow

def streamingIsOn (s : StmStreaming) : Bool := s.polling.streamingIsOn

/-- `optionFlags & 1` -/
def streamsCounter (s : StmStreaming) : Bool :=
  s.word optionFlags &&& counterFlag != 0

/-- `(optionFlags >> 1) & 1` -/
def wantsReset (s : StmStreaming) : Bool :=
  (s.word optionFlags >>> 1) &&& 1 != 0

/-- Assign a word that a register leads to. -/
def setWord (p : Nat) (v : BitVec 32) (s : StmStreaming) :
    StmStreaming :=
  let ascd := s.polling.ascd
  { s with
    polling :=
      { s.polling with
        ascd :=
          { ascd with
            world :=
              { ascd.world with
                words := Function.update ascd.world.words p v } } } }

theorem word_setWord (p q : Nat) (v : BitVec 32) (s : StmStreaming) :
    (s.setWord p v).word q = if q = p then v else s.word q :=
  Function.update_apply _ _ _ _

def onPolling (x : PollingM .four α) : StmStreamingM α :=
  zoom StmStreaming.polling (fun p s => { s with polling := p }) x

/-- `adc_start_conversion_regular` -/
def adcStartConversionRegular (s : StmStreaming) : StmStreaming :=
  { s with adc := { s.adc with adstart := true } }

/-- `dac_disable`, the flag is cleared, and the timer is set. -/
def disableDac (s : StmStreaming) : StmStreaming :=
  let off := s.setWord dacCr (s.word dacCr &&& ~~~dacEnableBit)
  let cleared := off.setWord optionFlags (s.word optionFlags &&& ~~~resetFlag)
  { cleared with
    dacResetTimer :=
      MillisecTimer.setRel s.now (BitVec.ofNat 32 dacResetTimeMs)
    history := { s.history with dacDisabled := some s.history.ticks } }

/-- `dac_enable` -/
def enableDac (s : StmStreaming) : StmStreaming :=
  s.setWord dacCr (s.word dacCr ||| dacEnableBit)

/-- `counter_buffer` once the counter has been converted -/
def counterBuffer (counter : BitVec 32) : Memory UInt8 :=
  Memory.store (fun _ => 0) 0 (convertUint32ToHex counter true)

/-- `counter++` -/
def count (s : StmStreaming) : StmStreaming :=
  { s with
    counter := s.counter + 1
    history :=
      { s.history with
        streamed := s.history.streamed ++ [.count s.counter] } }

/-- An overrun is counted and its flag cleared. -/
def countOverrun (s : StmStreaming) : StmStreaming :=
  let counted := s.setWord adcNOverruns (s.word adcNOverruns + 1)
  { counted with
    adc := { s.adc with overrun := false }
    history := { s.history with overruns := s.history.overruns + 1 } }

/-- The result is read, and the flags of its end are cleared. -/
def readResult (s : StmStreaming) : StmStreaming :=
  { s with
    adc := { s.adc with eos := false }
    history :=
      { s.history with
        streamed := s.history.streamed ++ [.sample s.adc.data] } }

/-- The statements of the loop in `main`. -/
def body (charSigned : Bool) : Statement -> StmStreamingM Unit
  | .saveStreamState =>
      modify fun s => { s with streamStateBeforeReceiving := s.streamingIsOn }
  | .transmit => onPolling Polling.uartTxFromCircBuf
  | .moveInput => onPolling Polling.moveInput
  | .receive =>
      onPolling (Polling.receive (declaredConfig charSigned registerMap))
  | .setTimer =>
      modify fun s =>
        -- just started streaming so start this timer
        if s.streamingIsOn ∧ ¬ s.streamStateBeforeReceiving then
          { s with
            adcTimer := MillisecTimer.setRel s.now (s.word adcSamplePeriodMs) }
        else
          s
  | .disableDac =>
      modify fun s => if s.wantsReset then s.disableDac else s
  | .enableDac =>
      modify fun s =>
        let (expired, timer) := s.dacResetTimer.isExpired s.now
        let polled := { s with dacResetTimer := timer }
        if expired then polled.enableDac else polled
  | .startConversion =>
      modify fun s =>
        if s.streamingIsOn ∧ ¬ s.streamsCounter then
          let (expired, timer) := s.adcTimer.isExpiredRepeat s.now
          let polled := { s with adcTimer := timer }
          if expired then polled.adcStartConversionRegular else polled
        else
          s
  | .stream => do
      let s ← get
      if s.polling.readyToStream then
        if s.streamsCounter then do
          onPolling (Polling.streamToHost (counterBuffer s.counter) 8)
          modify count
        else if s.adc.eos then do
          if s.adc.overrun then
            modify countOverrun
          else
            pure ()
          modify readResult
          onPolling
            (Polling.streamToHost (AdcStreaming.adcValBuffer s.adc.data) 3)
        else
          pure ()
      else
        pure ()

/-- Execute a statement; an exception ends the iteration and is counted. -/
def execute (charSigned : Bool) (s : StmStreaming) : StmStreaming :=
  match body charSigned s.statement s with
  | .ok _ s' => { s' with statement := s.statement.next }
  | .error _ s' =>
      { s' with
        statement := .saveStreamState
        nExceptions := s'.nExceptions + 1 }

/-- What happens next. -/
inductive Event where
  /-- a received byte waits, and interrupts -/
  | arrive (b : UInt8)
  /-- the transmitter gets ready -/
  | ready
  /-- the timer interrupts -/
  | tick
  /-- the running conversion ends with this result, if there is one -/
  | converted (v : BitVec 16)
  /-- the input pins change -/
  | pins (v : BitVec 32)
  /-- the next statement is executed -/
  | execute

/-- `MILLISEC_TIMER_SYSTICK_IT` -/
def tick (s : StmStreaming) : StmStreaming :=
  { s.setWord millisecTimerNow (s.now + 1) with
    history := { s.history with ticks := s.history.ticks + 1 } }

/-- The hardware ends the conversion that is running.  A result that has not been
read is not overwritten. -/
def converted (v : BitVec 16) (s : StmStreaming) : StmStreaming :=
  if s.adc.adstart then
    if s.adc.eos then
      { s with
        adc := { s.adc with adstart := false, overrun := true }
        history := { s.history with lost := s.history.lost + 1 } }
    else
      { s with
        adc := { s.adc with adstart := false, eos := true, data := v }
        history := { s.history with results := s.history.results ++ [v] } }
  else
    s

def step (charSigned : Bool) (s : StmStreaming) : Event -> StmStreaming
  | .arrive b => { s with polling := s.polling.arrive b }
  | .ready => { s with polling := { s.polling with uartReady := true } }
  | .tick => s.tick
  | .converted v => s.converted v
  | .pins v => s.setWord gpioaIdr v
  | .execute => s.execute charSigned

/-- The words that the loop starts with, `ticks` milliseconds after the timer;
what the program does not set is as the hardware has it. -/
def initialWords (hardware : Memory RegWidth.four.Reg) (ticks : Nat) :
    Memory RegWidth.four.Reg :=
  let dacControl : BitVec 32 := hardware dacCr
  fun p =>
    if p = optionFlags then 0
    else if p = millisecTimerNow then MillisecTimer.clock ticks
    else if p = adcSamplePeriodMs then 1000
    else if p = adcNOverruns then 0
    else if p = timArr then 100
    else if p = dacCr then dacControl ||| dacEnableBit
    else hardware p

/-- The program when it enters its loop. -/
def start (hardware : Memory RegWidth.four.Reg) (ticks : Nat)
    (received : Received) (uartReady : Bool) (data : BitVec 16) :
    StmStreaming :=
  { polling :=
      Polling.setup
        { receiver :=
            { asc := Asc.init
              received := received }
          world :=
            { words := initialWords hardware ticks
              streamingIsOn := false } }
        uartReady
    statement := .saveStreamState
    streamStateBeforeReceiving := false
    adcTimer :=
      { enabled := false
        setTime := 0
        expireTime := 0 }
    dacResetTimer :=
      { enabled := false
        setTime := 0
        expireTime := 0 }
    counter := 0
    adc :=
      { adstart := false
        eos := false
        overrun := false
        data := data }
    nExceptions := 0
    history :=
      { ticks := ticks
        streamed := []
        results := []
        lost := 0
        overruns := 0
        dacDisabled := none } }

/-- The bytes of a message arrive, and the loop goes round for each. -/
def arriving (command : Char) (data : List Char) : List Event :=
  let m : Message :=
    { ascVersion := '0'.toUInt8
      appVersion := '0'.toUInt8
      command := command.toUInt8
      data := data.map Char.toUInt8 }
  m.frame.flatMap fun b => .arrive b :: List.replicate 9 .execute

/-- The transmitter gets ready, and the loop goes round. -/
def laps (n : Nat) : List Event :=
  (List.replicate n (.ready :: List.replicate 9 .execute)).flatten

end StmStreaming
end AsciiSerialCom
