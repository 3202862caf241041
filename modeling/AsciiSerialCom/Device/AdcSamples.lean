import AsciiSerialCom.Device.AdcStreaming

/-!
# Samples on their way to the host

Every statement of the loop but the receiving one returns.  A conversion is
started only when the result of the one before has been streamed, so converter
and loop hand results over at one place: no result is lost, none is streamed
twice, and they leave in the order in which they were measured.
-/

namespace AsciiSerialCom

open Foundation
open Foundation.Hexadecimal
open Foundation.StateError
open Foundation.Run

namespace AdcStreaming

variable {charSigned : Bool} {s : AdcStreaming}

/-!
## What a statement does
-/

/-- All that the execution of a statement can do. -/
inductive ExecuteCase (charSigned : Bool) (reading : MillisecTimerUnit)
    (s : AdcStreaming) : AdcStreaming -> Prop where
  | saved (h : s.statement = .saveStreamState) :
      ExecuteCase charSigned reading s
        { s with
          statement := .transmit
          streamStateBeforeReceiving := s.streamingIsOn }
  | transmitted {p : Polling .one} (h : s.statement = .transmit)
      (hrun : Polling.uartTxFromCircBuf s.polling = .ok () p) :
      ExecuteCase charSigned reading s { s with statement := .moveInput, polling := p }
  | moved {p : Polling .one} (h : s.statement = .moveInput)
      (hrun : Polling.moveInput s.polling = .ok () p) :
      ExecuteCase charSigned reading s { s with statement := .receive, polling := p }
  | received {p : Polling .one} (h : s.statement = .receive)
      (hrun : Polling.receive (declaredConfig charSigned registerMap)
        s.polling = .ok () p) :
      ExecuteCase charSigned reading s { s with statement := .setTimer, polling := p }
  | threw {p : Polling .one} {e : Failure} (h : s.statement = .receive)
      (hrun : Polling.receive (declaredConfig charSigned registerMap)
        s.polling = .error e p) :
      ExecuteCase charSigned reading s
        { s with
          statement := .saveStreamState
          polling := p
          nExceptions := s.nExceptions + 1 }
  | timerSet (h : s.statement = .setTimer) (hon : s.streamingIsOn = true)
      (hoff : s.streamStateBeforeReceiving = false) :
      ExecuteCase charSigned reading s
        { s.setTimer reading with statement := .startConversion }
  | timerKept (h : s.statement = .setTimer)
      (hkept : ¬ (s.streamingIsOn = true ∧
        ¬ s.streamStateBeforeReceiving = true)) :
      ExecuteCase charSigned reading s { s with statement := .startConversion }
  | expired (h : s.statement = .startConversion)
      (hon : s.streamingIsOn = true)
      (hidle : s.haveStartedAdcConversion = false)
      (hpoll : (s.adcTimer.isExpiredRepeat reading).1 = true) :
      ExecuteCase charSigned reading s
        { startConversion
            { s with adcTimer := (s.adcTimer.isExpiredRepeat reading).2 } with
          statement := .stream }
  | notExpired (h : s.statement = .startConversion)
      (hon : s.streamingIsOn = true)
      (hidle : s.haveStartedAdcConversion = false)
      (hpoll : (s.adcTimer.isExpiredRepeat reading).1 = false) :
      ExecuteCase charSigned reading s
        { s with
          statement := .stream
          adcTimer := (s.adcTimer.isExpiredRepeat reading).2 }
  | notPolled (h : s.statement = .startConversion)
      (hskip : ¬ (s.streamingIsOn = true ∧
        ¬ s.haveStartedAdcConversion = true)) :
      ExecuteCase charSigned reading s { s with statement := .stream }
  | streamed {p : Polling .one} (h : s.statement = .stream)
      (hstarted : s.haveStartedAdcConversion = true) (hended : s.adsc = false)
      (hready : s.polling.readyToStream = true)
      (hrun : Polling.streamToHost (adcValBuffer s.adc) 3 s.polling =
        .ok () p) :
      ExecuteCase charSigned reading s
        { sampleStreamed { s with polling := p } with
          statement := .saveStreamState }
  | notStreamed (h : s.statement = .stream)
      (hskip : ¬ (s.haveStartedAdcConversion = true ∧ ¬ s.adsc = true ∧
        s.polling.readyToStream = true)) :
      ExecuteCase charSigned reading s { s with statement := .saveStreamState }

/-- The digits that are streamed for a result. -/
def sampleDigits (v : BitVec 16) : List UInt8 := digits true 3 v.toNat

theorem slice_adcValBuffer (v : BitVec 16) :
    Memory.slice (adcValBuffer v) 0 3 = sampleDigits v := by
  have hdigits : convertUint16ToHex v true =
      digits true 1 (v.toNat / 16 ^ 3) ++ sampleDigits v := by
    rw [convertUint16ToHex_eq_digits, sampleDigits, ← digits_append]
  have hslice : Memory.slice
      (Memory.store (fun _ => (0 : UInt8)) 0 (convertUint16ToHex v true)) 0
        (1 + 3) = convertUint16ToHex v true :=
    Memory.slice_store_self _ 0 (convertUint16ToHex v true)
  have hbuffer : Memory.slice (adcValBuffer v) 0 3 =
      (convertUint16ToHex v true).drop 1 := by
    rw [← hslice, Memory.drop_slice]
    simp [Memory.slice, adcValBuffer]
  rw [hbuffer, hdigits]
  exact List.drop_left' (digits_length _ _ _)

theorem not_reserved_of_mem_adcValBuffer {v : BitVec 16} {b : UInt8}
    (hb : b ∈ Memory.slice (adcValBuffer v) 0 3) : ¬ Reserved b := by
  rw [slice_adcValBuffer] at hb
  exact not_reserved_of_mem_digits hb

/-- A sample is streamed as soon as the loop is ready to stream. -/
theorem streamToHost_sample (p : Polling .one)
    (hready : p.readyToStream = true) (v : BitVec 16) :
    exists p', Polling.streamToHost (adcValBuffer v) 3 p = .ok () p' := by
  rcases @Polling.streamToHost_of_ready .one p hready (adcValBuffer v) 3
    (by decide) (fun b hb => not_reserved_of_mem_adcValBuffer hb) with
    ⟨out, -, hrun⟩
  exact ⟨_, hrun⟩

/-- **Every execution is one of the cases.** -/
theorem execute_cases (charSigned : Bool) (reading : MillisecTimerUnit)
    (s : AdcStreaming) :
    ExecuteCase charSigned reading s (s.execute charSigned reading) := by
  have hcalls (x : PollingM .one Unit)
      (hbody : body charSigned reading s.statement = onPolling x)
      {p : Polling .one} (hrun : x s.polling = .ok () p) :
      s.execute charSigned reading =
        { s with statement := s.statement.next, polling := p } := by
    have hzoom : onPolling x s = .ok () { s with polling := p } :=
      zoom_of_ok hrun
    rw [execute, hbody, hzoom]
  cases h : s.statement with
  | saveStreamState =>
      rw [execute, h]
      exact .saved h
  | transmit =>
      rcases Polling.uartTxFromCircBuf_cases s.polling with
        ⟨-, hrun⟩ | ⟨b, out, -, hrun⟩
      · rw [hcalls _ (by rw [h]; rfl) hrun, h]
        exact .transmitted h hrun
      · rw [hcalls _ (by rw [h]; rfl) hrun, h]
        exact .transmitted h hrun
  | moveInput =>
      rcases Polling.moveInput_cases s.polling with
        ⟨-, hrun⟩ | ⟨b, extra, -, hrun⟩
      · rw [hcalls _ (by rw [h]; rfl) hrun, h]
        exact .moved h hrun
      · rw [hcalls _ (by rw [h]; rfl) hrun, h]
        exact .moved h hrun
  | receive =>
      cases hrun : Polling.receive (declaredConfig charSigned registerMap)
          s.polling with
      | ok u p =>
          rw [hcalls _ (by rw [h]; rfl) hrun, h]
          exact .received h hrun
      | error e p =>
          have hzoom : onPolling (Polling.receive
              (declaredConfig charSigned registerMap)) s =
              .error e { s with polling := p } := zoom_of_error hrun
          rw [execute, h, body, hzoom]
          exact .threw h hrun
  | setTimer =>
      by_cases hset : s.streamingIsOn = true ∧
          ¬ s.streamStateBeforeReceiving = true
      · rw [execute, h, body, bind_of_ok (get_apply s), if_pos hset]
        exact .timerSet h hset.left (by simpa using hset.right)
      · rw [execute, h, body, bind_of_ok (get_apply s), if_neg hset]
        exact .timerKept h hset
  | startConversion =>
      by_cases hpolled : s.streamingIsOn = true ∧
          ¬ s.haveStartedAdcConversion = true
      · have hidle : s.haveStartedAdcConversion = false := by
          simpa using hpolled.right
        rw [execute, h, body, bind_of_ok (get_apply s), if_pos hpolled]
        cases hexpired : (s.adcTimer.isExpiredRepeat reading).1 with
        | true =>
            simp only [hexpired, if_true]
            exact .expired h hpolled.left hidle hexpired
        | false =>
            simp only [hexpired, Bool.false_eq_true, if_false]
            exact .notExpired h hpolled.left hidle hexpired
      · rw [execute, h, body, bind_of_ok (get_apply s), if_neg hpolled]
        exact .notPolled h hpolled
  | stream =>
      by_cases hready : s.haveStartedAdcConversion = true ∧ ¬ s.adsc = true ∧
          s.polling.readyToStream = true
      · rcases streamToHost_sample s.polling hready.right.right s.adc with
          ⟨p, hrun⟩
        have hzoom : onPolling (Polling.streamToHost (adcValBuffer s.adc) 3) s =
            .ok () { s with polling := p } := zoom_of_ok hrun
        rw [execute, h, body, bind_of_ok (get_apply s), if_pos hready,
          bind_of_ok hzoom]
        exact .streamed h hready.left (by simpa using hready.right.left)
          hready.right.right hrun
      · rw [execute, h, body, bind_of_ok (get_apply s), if_neg hready]
        exact .notStreamed h hready

/-!
## Between converter and loop
-/

/-- The flag, the bit `ADSC` and the data register are together a place where
results are handed over. -/
def handoff (s : AdcStreaming) : Handoff (BitVec 16) :=
  { place :=
      if s.haveStartedAdcConversion then
        if s.adsc then .busy else .done s.adc
      else
        .idle
    started := s.history.started
    results := s.history.results
    taken := s.history.samples }

/-- What was transmitted and what is queued is logged with the samples, and only
conversions that the loop knows of are running. -/
structure Inv (s : AdcStreaming) : Prop where
  logged : exists log, Logs s.polling (s.history.samples.map sampleDigits) log
  known : s.adsc = true -> s.haveStartedAdcConversion = true

/-- Answers find their room. -/
def Admits (s : AdcStreaming) (event : Event) : Prop :=
  event.isExecute = true -> s.statement = .receive ->
    Device.AnswerFits registerMap s.polling.ascd

instance (s : AdcStreaming) (event : Event) : Decidable (s.Admits event) :=
  inferInstanceAs (Decidable (_ -> _ -> _))

/-- Every statement stays within its memory, and only the receiving one
throws. -/
def Sound (charSigned : Bool) (s : AdcStreaming) (event : Event) : Prop :=
  event.isExecute = true ->
    let result := body charSigned (s.readingIn event) s.statement s
    Result.outcome result ≠ .error .outOfBounds ∧
      (s.statement ≠ .receive -> Result.outcome result = .ok ())

theorem inv_start (portb : RegWidth.one.Reg) (received : Received)
    (uartReady : Bool) (adc : BitVec 16) :
    (start portb received uartReady adc).Inv := by
  refine ⟨⟨[], Logs.setup _ uartReady⟩, ?_⟩
  intro h
  cases h

theorem inv_execute {reading : MillisecTimerUnit} (h : s.Inv)
    (hfits : s.statement = .receive ->
      Device.AnswerFits registerMap s.polling.ascd) :
    (s.execute charSigned reading).Inv := by
  rcases h with ⟨⟨log, hlog⟩, hknown⟩
  have hcase := execute_cases charSigned reading s
  generalize s.execute charSigned reading = s' at hcase ⊢
  cases hcase with
  | saved hstatement => exact ⟨⟨log, hlog⟩, hknown⟩
  | transmitted hstatement hrun =>
      rcases hlog.uartTxFromCircBuf with ⟨p', hrun', hlog', -⟩
      cases hrun.symm.trans hrun'
      exact ⟨⟨log, hlog'⟩, hknown⟩
  | moved hstatement hrun =>
      rcases hlog.moveInput with ⟨p', hrun', hlog', -⟩
      cases hrun.symm.trans hrun'
      exact ⟨⟨log, hlog'⟩, hknown⟩
  | received hstatement hrun =>
      have hlog' := (@Logs.receive _ _ _ _ charSigned _ hlog
        (hfits hstatement)).right
      rw [hrun] at hlog'
      exact ⟨⟨_, hlog'⟩, hknown⟩
  | threw hstatement hrun =>
      have hlog' := (@Logs.receive _ _ _ _ charSigned _ hlog
        (hfits hstatement)).right
      rw [hrun] at hlog'
      exact ⟨⟨_, hlog'⟩, hknown⟩
  | timerSet hstatement hon hoff => exact ⟨⟨log, hlog⟩, hknown⟩
  | timerKept hstatement hkept => exact ⟨⟨log, hlog⟩, hknown⟩
  | expired hstatement hon hidle hpoll => exact ⟨⟨log, hlog⟩, fun _ => rfl⟩
  | notExpired hstatement hon hidle hpoll => exact ⟨⟨log, hlog⟩, hknown⟩
  | notPolled hstatement hskip => exact ⟨⟨log, hlog⟩, hknown⟩
  | streamed hstatement hstarted hended hready hrun =>
      rcases hlog.streamToHost hready (by decide)
        (fun b hb => @not_reserved_of_mem_adcValBuffer s.adc b hb) with
        ⟨p', hrun', hlog', -⟩
      cases hrun.symm.trans hrun'
      rw [slice_adcValBuffer] at hlog'
      refine ⟨⟨log ++ [s.polling.nextStreamMessage (sampleDigits s.adc)], ?_⟩,
        ?_⟩
      · have hsamples : (s.history.samples ++ [s.adc]).map sampleDigits =
            s.history.samples.map sampleDigits ++ [sampleDigits s.adc] :=
          List.map_append
        rw [← hsamples] at hlog'
        exact hlog'
      · intro hadsc
        exact absurd (hended.symm.trans hadsc) Bool.false_ne_true
  | notStreamed hstatement hskip => exact ⟨⟨log, hlog⟩, hknown⟩

theorem inv_tick (h : s.Inv) : s.tick.Inv := by
  rcases h with ⟨⟨log, hlog⟩, hknown⟩
  exact ⟨⟨log, { hlog with }⟩, hknown⟩

theorem inv_step (h : s.Inv) {event : Event} (hadmits : s.Admits event) :
    (s.step charSigned event).Inv := by
  cases event with
  | arrive b =>
      rcases h with ⟨⟨log, hlog⟩, hknown⟩
      exact ⟨⟨log, { hlog with }⟩, hknown⟩
  | ready =>
      rcases h with ⟨⟨log, hlog⟩, hknown⟩
      exact ⟨⟨log, { hlog with }⟩, hknown⟩
  | tick => exact inv_tick h
  | converted v =>
      rw [step, converted]
      split
      · exact ⟨h.logged, fun h => absurd h Bool.false_ne_true⟩
      · exact h
  | execute => exact inv_execute h (hadmits rfl)
  | interrupted before => exact inv_tick (inv_execute h (hadmits rfl))

/-- A statement moves a result at most from one place to the next. -/
theorem handoff_execute (charSigned : Bool) (reading : MillisecTimerUnit)
    (s : AdcStreaming) :
    (s.execute charSigned reading).handoff = s.handoff ∨
      exists op, (s.execute charSigned reading).handoff =
        s.handoff.step op := by
  have hcase := execute_cases charSigned reading s
  generalize s.execute charSigned reading = s' at hcase ⊢
  cases hcase with
  | expired hstatement hon hidle hpoll =>
      exact Or.inr ⟨.start, by
        simp [handoff, startConversion, Handoff.step, hidle]⟩
  | streamed hstatement hstarted hended hready hrun =>
      exact Or.inr ⟨.take, by
        simp [handoff, sampleStreamed, Handoff.step, hstarted, hended]⟩
  | _ => exact Or.inl rfl

/-- **Converter and loop hand results over at one place.** -/
theorem simulates_handoff (charSigned : Bool) :
    Simulates (step charSigned) Admits Inv Handoff.step handoff := by
  refine ⟨fun s event h hadmits => inv_step h hadmits, ?_⟩
  intro s event h _
  cases event with
  | arrive b => exact Or.inl rfl
  | ready => exact Or.inl rfl
  | tick => exact Or.inl rfl
  | converted v =>
      rw [step, converted]
      split
      · rename_i hadsc
        have hstarted := h.known hadsc
        exact Or.inr ⟨.finish v, by
          simp [handoff, Handoff.step, hadsc, hstarted]⟩
      · exact Or.inl rfl
  | execute => exact handoff_execute charSigned s.now s
  | interrupted before => exact handoff_execute charSigned _ s

/-- No statement but the receiving one throws, whatever the state. -/
theorem body_returns {statement : Statement} (h : statement ≠ .receive)
    (reading : MillisecTimerUnit) (s : AdcStreaming) :
    Result.outcome (body charSigned reading statement s) = .ok () := by
  cases statement with
  | saveStreamState => rfl
  | transmit =>
      rw [body, onPolling, zoom_outcome]
      rcases Polling.uartTxFromCircBuf_cases s.polling with
        ⟨-, hrun⟩ | ⟨b, out, -, hrun⟩
      · rw [hrun, Result.outcome_ok]
      · rw [hrun, Result.outcome_ok]
  | moveInput =>
      rw [body, onPolling, zoom_outcome]
      rcases Polling.moveInput_cases s.polling with
        ⟨-, hrun⟩ | ⟨b, extra, -, hrun⟩
      · rw [hrun, Result.outcome_ok]
      · rw [hrun, Result.outcome_ok]
  | receive => exact absurd rfl h
  | setTimer =>
      rw [body, bind_of_ok (get_apply s)]
      split
      · rfl
      · rfl
  | startConversion =>
      rw [body, bind_of_ok (get_apply s)]
      split
      · cases hexpired : (s.adcTimer.isExpiredRepeat reading).1 with
        | true =>
            simp only [hexpired, if_true]
            rfl
        | false =>
            simp only [hexpired, Bool.false_eq_true, if_false]
            rfl
      · rfl
  | stream =>
      rw [body, bind_of_ok (get_apply s)]
      split
      · rename_i hready
        rcases streamToHost_sample s.polling hready.right.right s.adc with
          ⟨p, hrun⟩
        have hzoom : onPolling (Polling.streamToHost (adcValBuffer s.adc) 3) s =
            .ok () { s with polling := p } := zoom_of_ok hrun
        rw [bind_of_ok hzoom]
        rfl
      · rfl

theorem sound_step (h : s.Inv) {event : Event} (hadmits : s.Admits event) :
    s.Sound charSigned event := by
  intro hexecute
  refine ⟨?_, fun hne => body_returns hne _ s⟩
  by_cases hreceive : s.statement = .receive
  · rcases h.logged with ⟨log, hlog⟩
    rw [hreceive, body, onPolling, zoom_outcome]
    exact (@Logs.receive _ _ _ _ charSigned _ hlog
      (hadmits hexecute hreceive)).left
  · rw [body_returns hreceive]
    simp

/-!
## Runs
-/

/-- The results that wait to be streamed. -/
def waiting (s : AdcStreaming) : List (BitVec 16) :=
  if s.haveStartedAdcConversion ∧ ¬ s.adsc then [s.adc] else []

/-- What was transmitted and what is queued is a sequence of frames.  The
streaming messages among them are numbered from zero and carry the results of
the conversions, each once and in order, but for the one that waits. -/
structure Delivers (s : AdcStreaming) : Prop where
  output : exists log : List Message, (forall m, m ∈ log -> m.Valid) ∧
    s.polling.transmitted ++ s.polling.outBuf.contents = framesOf log ∧
      streamPart log = streamOf (s.history.samples.map sampleDigits)
  results_eq : s.history.samples ++ s.waiting = s.history.results
  started_eq : s.history.started =
    s.history.results.length + if s.adsc then 1 else 0

theorem delivers_of_accounted (h : s.Inv) (hacc : s.handoff.Accounted) :
    s.Delivers := by
  rcases h with ⟨⟨log, hlog⟩, hknown⟩
  rcases hacc with ⟨hresults, hstarted⟩
  refine ⟨⟨log, hlog.valid, hlog.output_eq, hlog.stream_eq⟩, ?_, ?_⟩
  · rw [waiting, ← show s.handoff.results = s.history.results from rfl,
      ← hresults]
    cases hflag : s.haveStartedAdcConversion with
    | false => simp [handoff, Handoff.waiting, hflag]
    | true =>
        cases hadsc : s.adsc with
        | false => simp [handoff, Handoff.waiting, hflag, hadsc]
        | true => simp [handoff, Handoff.waiting, hflag, hadsc]
  · rw [← show s.handoff.started = s.history.started from rfl, ← hstarted]
    cases hadsc : s.adsc with
    | false =>
        cases hflag : s.haveStartedAdcConversion with
        | false => simp [handoff, Handoff.running, hflag]
        | true => simp [handoff, Handoff.running, hflag, hadsc]
    | true => simp [handoff, Handoff.running, hknown hadsc, hadsc]

variable (charSigned) in
/-- **Every result is streamed once, in order**, under every interleaving of the
loop with the interrupts and the hardware. -/
theorem delivers_of_run (portb : RegWidth.one.Reg) (received : Received)
    (uartReady : Bool) (adc : BitVec 16) {events : List Event}
    (h : Allowed (step charSigned) Admits
      (start portb received uartReady adc) events) :
    Allowed (step charSigned) (Sound charSigned)
        (start portb received uartReady adc) events ∧
      (run (step charSigned) (start portb received uartReady adc)
        events).Delivers := by
  have hstart := inv_start portb received uartReady adc
  have hsimulates := simulates_handoff charSigned
  refine ⟨h.imp (fun s event hinv hadmits =>
    ⟨sound_step hinv hadmits, inv_step hinv hadmits⟩) hstart, ?_⟩
  have hinv := h.invariant hsimulates.invariant hstart
  rcases hsimulates.exists_run h hstart with ⟨ops, hops⟩
  refine delivers_of_accounted hinv ?_
  rw [hops]
  exact Handoff.accounted_of_run ops

/-- The host switches streaming on, and the loop goes round for every byte. -/
def switchingOn : List Event :=
  let m : Message :=
    { ascVersion := '0'.toUInt8
      appVersion := '0'.toUInt8
      command := 'n'.toUInt8
      data := [] }
  m.frame.flatMap fun b => .arrive b :: List.replicate 7 .execute

/-- The first sample period passes, and a conversion is started. -/
def firstPeriod : List Event :=
  switchingOn ++ List.replicate 1000 .tick ++ List.replicate 7 .execute

/-- The conversion ends. -/
def firstResult : List Event := firstPeriod ++ [.converted 0x3A5]

/-- The run in which streaming is switched on. -/
theorem delivers_of_run_switchingOn :
    Allowed (step false) (Sound false) (start 0 Received.blank true 0)
        switchingOn ∧
      (run (step false) (start 0 Received.blank true 0) switchingOn).Delivers :=
  delivers_of_run false 0 Received.blank true 0 (by decide +kernel)

end AdcStreaming
end AsciiSerialCom
