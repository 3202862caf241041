import AsciiSerialCom.Device.Commands
import AsciiSerialCom.SerialCom.Wire

/-!
# The test device

The main loop of `arduino_uno_test_device.c`.  While streaming is on and nothing
is queued, the program streams a counter of its own.  The frames are numbered by
the interface, so the host gets every count twice, and can check one against the
other.
-/

namespace AsciiSerialCom

open Foundation
open Foundation.Hexadecimal
open Foundation.StateError
open Foundation.Run

namespace TestDevice

/-- The statements of the loop. -/
inductive Statement where
  | moveInput
  | receive
  | stream
  | transmit
  deriving DecidableEq, Repr

/-- The statement that follows, around the loop. -/
def Statement.next : Statement -> Statement
  | moveInput => receive
  | receive => stream
  | stream => transmit
  | transmit => moveInput

/-- What has happened so far. -/
structure History where
  /-- the bytes received -/
  arrived : List UInt8
  /-- number of messages streamed -/
  streamed : Nat

end TestDevice

/-- The variables of the program. -/
structure TestDevice where
  polling : Polling .one
  /-- the statement that is executed next -/
  statement : TestDevice.Statement
  counter : UInt8
  nExceptions : BitVec 16
  history : TestDevice.History

abbrev TestDeviceM := EStateM Failure TestDevice

namespace TestDevice

/-- `regPtrs` with `masks`, that is, three ports; the words of the world are
numbered like the registers that lead to them. -/
def regPtrs : RegisterPointers .one :=
  { pointers := some
    writeMasks := fun i => [0x20, 0, 0].getD i 0
    nRegs := 3 }

def onPolling (x : PollingM .one α) : TestDeviceM α :=
  zoom TestDevice.polling (fun p s => { s with polling := p }) x

/-- `counter_buffer` once the counter has been converted -/
def counterBuffer (counter : UInt8) : Memory UInt8 :=
  Memory.store (fun _ => 0) 0 (convertUint8ToHex counter.toBitVec true)

/-- `counter++` -/
def count (s : TestDevice) : TestDevice :=
  { s with
    counter := s.counter + 1
    history := { s.history with streamed := s.history.streamed + 1 } }

/-- The statements of the loop in `main`. -/
def body (charSigned : Bool) : Statement -> TestDeviceM Unit
  | .moveInput => onPolling Polling.moveInput
  | .receive => onPolling (Polling.receive (declaredConfig charSigned regPtrs))
  | .stream => do
      let s ← get
      if s.polling.readyToStream then do
        onPolling (Polling.streamToHost (counterBuffer s.counter) 2)
        modify count
      else
        pure ()
  | .transmit => onPolling Polling.uartTxFromCircBuf

/-- Execute a statement; an exception ends the iteration and is counted. -/
def execute (charSigned : Bool) (s : TestDevice) : TestDevice :=
  match body charSigned s.statement s with
  | .ok _ s' => { s' with statement := s.statement.next }
  | .error _ s' =>
      { s' with
        statement := .moveInput
        nExceptions := s'.nExceptions + 1 }

/-- What happens next. -/
inductive Event where
  /-- a received byte waits, and interrupts -/
  | arrive (b : UInt8)
  /-- the transmitter gets ready -/
  | ready
  /-- the next statement is executed -/
  | execute

def step (charSigned : Bool) (s : TestDevice) : Event -> TestDevice
  | .arrive b =>
      { s with
        polling := s.polling.arrive b
        history := { s.history with arrived := s.history.arrived ++ [b] } }
  | .ready => { s with polling := { s.polling with uartReady := true } }
  | .execute => s.execute charSigned

/-- The program when it enters its loop; the ports are as they were. -/
def start (ports : Memory RegWidth.one.Reg) (received : Received)
    (uartReady : Bool) : TestDevice :=
  { polling :=
      Polling.setup
        { receiver :=
            { asc := Asc.init
              received := received }
          world :=
            { words := ports
              streamingIsOn := false } }
        uartReady
    statement := .moveInput
    counter := 0
    nExceptions := 0
    history :=
      { arrived := []
        streamed := 0 } }

variable {charSigned : Bool} {s : TestDevice}

/-!
## What a statement does
-/

/-- All that the execution of a statement can do. -/
inductive ExecuteCase (charSigned : Bool) (s : TestDevice) :
    TestDevice -> Prop where
  | moved {p : Polling .one} (h : s.statement = .moveInput)
      (hrun : Polling.moveInput s.polling = .ok () p) :
      ExecuteCase charSigned s { s with statement := .receive, polling := p }
  | received {p : Polling .one} (h : s.statement = .receive)
      (hrun : Polling.receive (declaredConfig charSigned regPtrs) s.polling =
        .ok () p) :
      ExecuteCase charSigned s { s with statement := .stream, polling := p }
  | threw {p : Polling .one} {e : Failure} (h : s.statement = .receive)
      (hrun : Polling.receive (declaredConfig charSigned regPtrs) s.polling =
        .error e p) :
      ExecuteCase charSigned s
        { s with
          statement := .moveInput
          polling := p
          nExceptions := s.nExceptions + 1 }
  | streamed {p : Polling .one} (h : s.statement = .stream)
      (hready : s.polling.readyToStream = true)
      (hrun : Polling.streamToHost (counterBuffer s.counter) 2 s.polling =
        .ok () p) :
      ExecuteCase charSigned s
        { count { s with polling := p } with statement := .transmit }
  | notStreamed (h : s.statement = .stream)
      (hskip : s.polling.readyToStream = false) :
      ExecuteCase charSigned s { s with statement := .transmit }
  | transmitted {p : Polling .one} (h : s.statement = .transmit)
      (hrun : Polling.uartTxFromCircBuf s.polling = .ok () p) :
      ExecuteCase charSigned s { s with statement := .moveInput, polling := p }

/-- The digits that are streamed for a count. -/
def countDigits (counter : UInt8) : List UInt8 := digits true 2 counter.toNat

theorem slice_counterBuffer (counter : UInt8) :
    Memory.slice (counterBuffer counter) 0 2 = countDigits counter := by
  have hdigits : convertUint8ToHex counter.toBitVec true =
      countDigits counter := convertUint8ToHex_eq_digits _ _
  rw [← hdigits]
  exact Memory.slice_store_self _ 0 (convertUint8ToHex counter.toBitVec true)

theorem not_reserved_of_mem_counterBuffer {counter b : UInt8}
    (hb : b ∈ Memory.slice (counterBuffer counter) 0 2) : ¬ Reserved b := by
  rw [slice_counterBuffer] at hb
  exact not_reserved_of_mem_digits hb

/-- **Every execution is one of the cases.** -/
theorem execute_cases (charSigned : Bool) (s : TestDevice) :
    ExecuteCase charSigned s (s.execute charSigned) := by
  have hcalls (x : PollingM .one Unit) (hbody : body charSigned s.statement =
      onPolling x) {p : Polling .one} (hrun : x s.polling = .ok () p) :
      s.execute charSigned =
        { s with statement := s.statement.next, polling := p } := by
    have hzoom : onPolling x s = .ok () { s with polling := p } :=
      zoom_of_ok hrun
    rw [execute, hbody, hzoom]
  cases h : s.statement with
  | moveInput =>
      rcases Polling.moveInput_cases s.polling with
        ⟨-, hrun⟩ | ⟨b, extra, -, hrun⟩
      · rw [hcalls _ (by rw [h]; rfl) hrun, h]
        exact .moved h hrun
      · rw [hcalls _ (by rw [h]; rfl) hrun, h]
        exact .moved h hrun
  | receive =>
      cases hrun : Polling.receive (declaredConfig charSigned regPtrs)
          s.polling with
      | ok u p =>
          rw [hcalls _ (by rw [h]; rfl) hrun, h]
          exact .received h hrun
      | error e p =>
          have hzoom : onPolling (Polling.receive
              (declaredConfig charSigned regPtrs)) s =
              .error e { s with polling := p } := zoom_of_error hrun
          rw [execute, h, body, hzoom]
          exact .threw h hrun
  | stream =>
      cases hready : s.polling.readyToStream with
      | true =>
          rcases Polling.streamToHost_of_ready hready (by decide)
            (fun b hb => @not_reserved_of_mem_counterBuffer s.counter b hb)
            with ⟨out, -, hrun⟩
          have hzoom : onPolling (Polling.streamToHost
              (counterBuffer s.counter) 2) s =
              .ok () { s with polling := s.polling.streamed out } :=
            zoom_of_ok hrun
          rw [execute, h, body, bind_of_ok (get_apply s), if_pos hready,
            bind_of_ok hzoom]
          exact .streamed h hready hrun
      | false =>
          rw [execute, h, body, bind_of_ok (get_apply s),
            if_neg (by simp [hready])]
          exact .notStreamed h hready
  | transmit =>
      rcases Polling.uartTxFromCircBuf_cases s.polling with
        ⟨-, hrun⟩ | ⟨b, out, -, hrun⟩
      · rw [hcalls _ (by rw [h]; rfl) hrun, h]
        exact .transmitted h hrun
      · rw [hcalls _ (by rw [h]; rfl) hrun, h]
        exact .transmitted h hrun

/-!
## What holds in every run
-/

/-- The payloads of the first messages streamed. -/
def payloads (n : Nat) : List (List UInt8) :=
  (List.range n).map fun i => countDigits (UInt8.ofNat i)

/-- The counter counts the messages streamed, what was transmitted and what is
queued is logged, and what has arrived is accounted for. -/
structure Inv (s : TestDevice) : Prop where
  counter_eq : s.counter = UInt8.ofNat s.history.streamed
  logged : exists log, Logs s.polling (payloads s.history.streamed) log
  obeys : exists handled, Follows s.polling s.history.arrived handled
    (s.statement ≠ .receive)

/-- Bytes arrive while there is room for them, and answers find their room. -/
def Admits (s : TestDevice) : Event -> Prop
  | .arrive _ =>
      s.polling.extraInputBuffer.contents.length < extraInputBufferSize
  | .ready => True
  | .execute => s.statement = .receive ->
      Device.AnswerFits regPtrs s.polling.ascd

instance (s : TestDevice) : (event : Event) -> Decidable (s.Admits event)
  | .arrive _ => inferInstanceAs (Decidable (_ < _))
  | .ready => inferInstanceAs (Decidable True)
  | .execute => inferInstanceAs (Decidable (_ -> _))

theorem inv_start (ports : Memory RegWidth.one.Reg) (received : Received)
    (uartReady : Bool) : (start ports received uartReady).Inv :=
  ⟨rfl, ⟨[], Logs.setup _ uartReady⟩, ⟨[], Follows.setup rfl⟩⟩

theorem payloads_succ (n : Nat) :
    payloads (n + 1) = payloads n ++ [countDigits (UInt8.ofNat n)] := by
  rw [payloads, List.range_succ, List.map_append]
  rfl

theorem inv_execute (h : s.Inv) (hadmits : s.Admits .execute) :
    (s.execute charSigned).Inv := by
  rcases h with ⟨hcounter, ⟨log, hlog⟩, ⟨handled, hobeys⟩⟩
  have hready (hstatement : s.statement ≠ .receive) :
      Follows s.polling s.history.arrived handled true := by
    simpa [hstatement] using hobeys
  have hcase := execute_cases charSigned s
  generalize s.execute charSigned = s' at hcase ⊢
  cases hcase with
  | moved hstatement hrun =>
      rcases hlog.moveInput with ⟨p', hrun', hlog', -⟩
      cases hrun.symm.trans hrun'
      exact ⟨hcounter, ⟨log, hlog'⟩,
        ⟨handled, (hready (by simp [hstatement])).moveInput hrun⟩⟩
  | received hstatement hrun =>
      have hfits := hadmits hstatement
      have hlog' := (@Logs.receive _ _ _ _ charSigned _ hlog hfits).right
      have hobeys' := @Follows.receive _ _ _ _ charSigned _ _ hobeys hfits
      rw [hrun] at hlog' hobeys'
      exact ⟨hcounter, ⟨_, hlog'⟩, ⟨_, hobeys'⟩⟩
  | threw hstatement hrun =>
      have hfits := hadmits hstatement
      have hlog' := (@Logs.receive _ _ _ _ charSigned _ hlog hfits).right
      have hobeys' := @Follows.receive _ _ _ _ charSigned _ _ hobeys hfits
      rw [hrun] at hlog' hobeys'
      exact ⟨hcounter, ⟨_, hlog'⟩, ⟨_, hobeys'⟩⟩
  | streamed hstatement hstream hrun =>
      have hfree := fun b hb =>
        @not_reserved_of_mem_counterBuffer s.counter b hb
      rcases hlog.streamToHost hstream (by decide) hfree with
        ⟨p', hrun', hlog', -⟩
      cases hrun.symm.trans hrun'
      have hobeys' := (hready (by simp [hstatement])).streamToHost hstream
        (by decide) hfree hrun
      rw [slice_counterBuffer, hcounter, ← payloads_succ] at hlog'
      refine ⟨?_, ⟨_, hlog'⟩, ⟨handled, hobeys'⟩⟩
      simp only [count]
      rw [hcounter, UInt8.ofNat_add]
      rfl
  | notStreamed hstatement hskip =>
      exact ⟨hcounter, ⟨log, hlog⟩, ⟨handled, hready (by simp [hstatement])⟩⟩
  | transmitted hstatement hrun =>
      rcases hlog.uartTxFromCircBuf with ⟨p', hrun', hlog', -⟩
      cases hrun.symm.trans hrun'
      exact ⟨hcounter, ⟨log, hlog'⟩,
        ⟨handled, (hready (by simp [hstatement])).uartTxFromCircBuf hrun⟩⟩

theorem inv_step (h : s.Inv) {event : Event} (hadmits : s.Admits event) :
    (s.step charSigned event).Inv := by
  cases event with
  | arrive b =>
      rcases h with ⟨hcounter, ⟨log, hlog⟩, ⟨handled, hobeys⟩⟩
      exact ⟨hcounter, ⟨log, { hlog with }⟩,
        ⟨handled, hobeys.arrive b hadmits⟩⟩
  | ready =>
      rcases h with ⟨hcounter, ⟨log, hlog⟩, ⟨handled, hobeys⟩⟩
      exact ⟨hcounter, ⟨log, { hlog with }⟩, ⟨handled, { hobeys with }⟩⟩
  | execute => exact inv_execute h hadmits

/-!
## Runs
-/

/-- The streaming message with number `n`, which carries that number once
more. -/
def countMessage (n : Nat) : Message :=
  Asc.streamMessage '0'.toUInt8 '0'.toUInt8 (UInt8.ofNat n)
    (countDigits (UInt8.ofNat n))

theorem streamOf_payloads (n : Nat) :
    streamOf (payloads n) = (List.range n).map countMessage := by
  induction n with
  | zero => rfl
  | succ n ih =>
      have hlength : (payloads n).length = n := by simp [payloads]
      rw [payloads_succ, streamOf_append, ih, hlength, List.range_succ,
        List.map_append]
      rfl

/-- The bytes that arrive. -/
def arrivedIn (events : List Event) : List UInt8 :=
  events.filterMap fun
    | .arrive b => some b
    | _ => none

theorem run_arrived (s : TestDevice) (events : List Event) :
    (run (step charSigned) s events).history.arrived =
      s.history.arrived ++ arrivedIn events := by
  induction events generalizing s with
  | nil => simp [arrivedIn]
  | cons event events ih =>
      rw [run_cons, ih]
      cases event with
      | arrive b => simp [step, arrivedIn]
      | ready => rfl
      | execute =>
          have hcase := execute_cases charSigned s
          rw [step]
          generalize s.execute charSigned = s' at hcase ⊢
          cases hcase <;> rfl

/-- Every statement stays within its memory, and only the receiving one
throws. -/
def Sound (charSigned : Bool) (s : TestDevice) : Event -> Prop
  | .execute =>
      Result.outcome (body charSigned s.statement s) ≠ .error .outOfBounds ∧
        (s.statement ≠ .receive ->
          Result.outcome (body charSigned s.statement s) = .ok ())
  | _ => True

theorem body_returns {statement : Statement} (h : statement ≠ .receive)
    (s : TestDevice) :
    Result.outcome (body charSigned statement s) = .ok () := by
  cases statement with
  | moveInput =>
      rw [body, onPolling, zoom_outcome]
      rcases Polling.moveInput_cases s.polling with
        ⟨-, hrun⟩ | ⟨b, extra, -, hrun⟩
      · rw [hrun, Result.outcome_ok]
      · rw [hrun, Result.outcome_ok]
  | receive => exact absurd rfl h
  | stream =>
      rw [body, bind_of_ok (get_apply s)]
      split
      · rename_i hready
        rcases Polling.streamToHost_of_ready hready (by decide)
          (fun b hb => @not_reserved_of_mem_counterBuffer s.counter b hb) with
          ⟨out, -, hrun⟩
        have hzoom : onPolling (Polling.streamToHost
            (counterBuffer s.counter) 2) s =
            .ok () { s with polling := s.polling.streamed out } :=
          zoom_of_ok hrun
        rw [bind_of_ok hzoom]
        rfl
      · rfl
  | transmit =>
      rw [body, onPolling, zoom_outcome]
      rcases Polling.uartTxFromCircBuf_cases s.polling with
        ⟨-, hrun⟩ | ⟨b, out, -, hrun⟩
      · rw [hrun, Result.outcome_ok]
      · rw [hrun, Result.outcome_ok]

theorem sound_step (h : s.Inv) {event : Event} (hadmits : s.Admits event) :
    s.Sound charSigned event := by
  cases event with
  | arrive b => trivial
  | ready => trivial
  | execute =>
      refine ⟨?_, fun hne => body_returns hne s⟩
      by_cases hreceive : s.statement = .receive
      · rcases h.logged with ⟨log, hlog⟩
        rw [hreceive, body, onPolling, zoom_outcome]
        exact (@Logs.receive _ _ _ _ charSigned _ hlog
          (hadmits hreceive)).left
      · rw [body_returns hreceive]
        simp

/-- The program has streamed `n` messages: its counter and the numbers of the
interface are in step, whatever else was sent.  A host that has read some of the
wire has the first of these messages. -/
structure Counts (n : Nat) (s : TestDevice) : Prop where
  counter_eq : s.counter = UInt8.ofNat n
  output : exists log : List Message, (forall m, m ∈ log -> m.Valid) ∧
    s.polling.transmitted ++ s.polling.outBuf.contents = framesOf log ∧
      streamPart log = (List.range n).map countMessage
  host : forall received ops,
    Allowed StreamState.step StreamState.Admits
        (StreamState.init received) ops ->
      StreamState.pushed ops <+: s.polling.transmitted ->
        streamPart (run StreamState.step (StreamState.init received)
          ops).reported <+: (List.range n).map countMessage

theorem Inv.counts (h : s.Inv) : s.Counts s.history.streamed := by
  rcases h.logged with ⟨log, hlog⟩
  have hstream : streamPart log =
      (List.range s.history.streamed).map countMessage :=
    hlog.stream_eq.trans (streamOf_payloads _)
  refine ⟨h.counter_eq, ⟨log, hlog.valid, hlog.output_eq, hstream⟩, ?_⟩
  intro received ops hops hwire
  rw [← hstream]
  refine List.IsPrefix.filter _ ?_
  exact (StreamState.reported_prefix hops hlog.valid
    (hwire.trans ⟨_, hlog.output_eq⟩)).left

/-- The host switches streaming on, and the transmitter keeps getting ready. -/
def twoCounts : List Event :=
  let m : Message :=
    { ascVersion := '0'.toUInt8
      appVersion := '0'.toUInt8
      command := 'n'.toUInt8
      data := [] }
  (m.frame.flatMap fun b => .arrive b :: List.replicate 4 .execute) ++
    (List.replicate 32 (.ready :: List.replicate 4 .execute)).flatten

end TestDevice
end AsciiSerialCom
