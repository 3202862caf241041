import AsciiSerialCom.Device.AdcSamples
import AsciiSerialCom.Device.StmStreaming
import AsciiSerialCom.Foundation.Overrun

/-!
# Two streams on one wire

Whenever the output is free, the loop streams the counter or a sample, as the
option flags say, so the streams share one numbering.  The counter never skips.
The converter is a place that can be overrun: every result that it has kept is
streamed once and in order, and a register tells whether others were lost.
-/

namespace AsciiSerialCom

open Foundation
open Foundation.Hexadecimal
open Foundation.StateError
open Foundation.Run

namespace StmStreaming

variable {charSigned : Bool} {s : StmStreaming}

/-!
## What a statement does
-/

/-- The digits that are streamed. -/
def Streamed.digits : Streamed -> List UInt8
  | .count n => Hexadecimal.digits true 8 n.toNat
  | .sample v => AdcStreaming.sampleDigits v

theorem slice_counterBuffer (n : BitVec 32) :
    Memory.slice (counterBuffer n) 0 8 = (Streamed.count n).digits := by
  have hdigits : convertUint32ToHex n true = (Streamed.count n).digits :=
    convertUint32ToHex_eq_digits _ _
  rw [← hdigits]
  exact Memory.slice_store_self _ 0 (convertUint32ToHex n true)

theorem not_reserved_of_mem_counterBuffer {n : BitVec 32} {b : UInt8}
    (hb : b ∈ Memory.slice (counterBuffer n) 0 8) : ¬ Reserved b := by
  rw [slice_counterBuffer] at hb
  exact not_reserved_of_mem_digits hb

/-- The program with a sample taken from the converter. -/
def sampleTaken (s : StmStreaming) : StmStreaming :=
  readResult (if s.adc.overrun then s.countOverrun else s)

/-- All that a statement can come to. -/
inductive BodyCase (charSigned : Bool) (s : StmStreaming) :
    EStateM.Result Failure StmStreaming Unit -> Prop where
  | saved (h : s.statement = .saveStreamState) :
      BodyCase charSigned s
        (.ok () { s with streamStateBeforeReceiving := s.streamingIsOn })
  | transmitted {p : Polling .four} (h : s.statement = .transmit)
      (hrun : Polling.uartTxFromCircBuf s.polling = .ok () p) :
      BodyCase charSigned s (.ok () { s with polling := p })
  | moved {p : Polling .four} (h : s.statement = .moveInput)
      (hrun : Polling.moveInput s.polling = .ok () p) :
      BodyCase charSigned s (.ok () { s with polling := p })
  | received {p : Polling .four} (h : s.statement = .receive)
      (hrun : Polling.receive (declaredConfig charSigned registerMap)
        s.polling = .ok () p) :
      BodyCase charSigned s (.ok () { s with polling := p })
  | threw {p : Polling .four} {e : Failure} (h : s.statement = .receive)
      (hrun : Polling.receive (declaredConfig charSigned registerMap)
        s.polling = .error e p) :
      BodyCase charSigned s (.error e { s with polling := p })
  | adcTimerSet {timer : MillisecTimer} (h : s.statement = .setTimer) :
      BodyCase charSigned s (.ok () { s with adcTimer := timer })
  | dacDisabled (h : s.statement = .disableDac) (hwants : s.wantsReset = true) :
      BodyCase charSigned s (.ok () s.disableDac)
  | dacKept (h : s.statement = .disableDac) (hwants : s.wantsReset = false) :
      BodyCase charSigned s (.ok () s)
  | dacEnabled (h : s.statement = .enableDac)
      (hexpired : (s.dacResetTimer.isExpired s.now).1 = true) :
      BodyCase charSigned s
        (.ok ()
          (enableDac
            { s with
              dacResetTimer := (s.dacResetTimer.isExpired s.now).2 }))
  | dacWaits (h : s.statement = .enableDac)
      (hexpired : (s.dacResetTimer.isExpired s.now).1 = false) :
      BodyCase charSigned s
        (.ok ()
          { s with dacResetTimer := (s.dacResetTimer.isExpired s.now).2 })
  | started {timer : MillisecTimer} (h : s.statement = .startConversion) :
      BodyCase charSigned s
        (.ok () (adcStartConversionRegular { s with adcTimer := timer }))
  | notStarted {timer : MillisecTimer} (h : s.statement = .startConversion) :
      BodyCase charSigned s (.ok () { s with adcTimer := timer })
  | counted {p : Polling .four} (h : s.statement = .stream)
      (hready : s.polling.readyToStream = true)
      (hrun : Polling.streamToHost (counterBuffer s.counter) 8 s.polling =
        .ok () p) :
      BodyCase charSigned s (.ok () (count { s with polling := p }))
  | sampled {p : Polling .four} (h : s.statement = .stream)
      (hready : s.polling.readyToStream = true) (heos : s.adc.eos = true)
      (hrun : Polling.streamToHost (AdcStreaming.adcValBuffer s.adc.data) 3
        s.sampleTaken.polling = .ok () p) :
      BodyCase charSigned s (.ok () { s.sampleTaken with polling := p })
  | notStreamed (h : s.statement = .stream) : BodyCase charSigned s (.ok () s)

/-- A result is streamed once it has been taken. -/
theorem body_stream_of_sample (hready : s.polling.readyToStream = true)
    (hcounter : s.streamsCounter = false) (heos : s.adc.eos = true) :
    body charSigned .stream s =
      onPolling (Polling.streamToHost (AdcStreaming.adcValBuffer s.adc.data) 3)
        s.sampleTaken := by
  rw [body, bind_of_ok (get_apply s), if_pos hready, if_neg (by simp [hcounter]),
    if_pos heos, sampleTaken]
  cases hoverrun : s.adc.overrun with
  | true =>
      rw [if_pos rfl, if_pos rfl, bind_of_ok (modify_apply _ s)]
      exact bind_of_ok (modify_apply readResult s.countOverrun)
  | false =>
      rw [if_neg Bool.false_ne_true, if_neg Bool.false_ne_true]
      exact bind_of_ok (modify_apply readResult s)

theorem readyToStream_sampleTaken (s : StmStreaming) :
    s.sampleTaken.polling.readyToStream = s.polling.readyToStream := by
  rw [sampleTaken]
  split
  · rfl
  · rfl

/-- **Every statement comes to one of the cases.** -/
theorem body_cases (charSigned : Bool) (s : StmStreaming) :
    BodyCase charSigned s (body charSigned s.statement s) := by
  have hcalls {x : PollingM .four Unit} {p : Polling .four}
      (hrun : x s.polling = .ok () p) :
      onPolling x s = .ok () { s with polling := p } := zoom_of_ok hrun
  cases h : s.statement with
  | saveStreamState => exact .saved h
  | transmit =>
      rcases Polling.uartTxFromCircBuf_cases s.polling with
        ⟨-, hrun⟩ | ⟨b, out, -, hrun⟩
      · rw [body, hcalls hrun]
        exact .transmitted h hrun
      · rw [body, hcalls hrun]
        exact .transmitted h hrun
  | moveInput =>
      rcases Polling.moveInput_cases s.polling with
        ⟨-, hrun⟩ | ⟨b, extra, -, hrun⟩
      · rw [body, hcalls hrun]
        exact .moved h hrun
      · rw [body, hcalls hrun]
        exact .moved h hrun
  | receive =>
      cases hrun : Polling.receive (declaredConfig charSigned registerMap)
          s.polling with
      | ok u p =>
          rw [body, hcalls hrun]
          exact .received h hrun
      | error e p =>
          have hzoom : onPolling (Polling.receive
              (declaredConfig charSigned registerMap)) s =
              .error e { s with polling := p } := zoom_of_error hrun
          rw [body, hzoom]
          exact .threw h hrun
  | setTimer =>
      rw [body, modify_apply]
      split
      · exact .adcTimerSet h
      · exact .adcTimerSet h
  | disableDac =>
      rw [body, modify_apply]
      cases hwants : s.wantsReset with
      | true => exact .dacDisabled h hwants
      | false => exact .dacKept h hwants
  | enableDac =>
      rw [body, modify_apply]
      cases hexpired : (s.dacResetTimer.isExpired s.now).1 with
      | true =>
          simp only [hexpired, if_true]
          exact .dacEnabled h hexpired
      | false =>
          simp only [hexpired, Bool.false_eq_true, if_false]
          exact .dacWaits h hexpired
  | startConversion =>
      rw [body, modify_apply]
      split
      · cases hexpired : (s.adcTimer.isExpiredRepeat s.now).1 with
        | true =>
            simp only [hexpired, if_true]
            exact .started h
        | false =>
            simp only [hexpired, Bool.false_eq_true, if_false]
            exact .notStarted h
      · exact .notStarted h
  | stream =>
      cases hready : s.polling.readyToStream with
      | false =>
          rw [body, bind_of_ok (get_apply s), if_neg (by simp [hready])]
          exact .notStreamed h
      | true =>
          cases hcounter : s.streamsCounter with
          | true =>
              rcases Polling.streamToHost_of_ready hready (by decide)
                (fun b hb => @not_reserved_of_mem_counterBuffer s.counter b hb)
                with ⟨out, -, hrun⟩
              rw [body, bind_of_ok (get_apply s), if_pos hready,
                if_pos hcounter, bind_of_ok (hcalls hrun)]
              exact .counted h hready hrun
          | false =>
              cases heos : s.adc.eos with
              | false =>
                  rw [body, bind_of_ok (get_apply s), if_pos hready,
                    if_neg (by simp [hcounter]), if_neg (by simp [heos])]
                  exact .notStreamed h
              | true =>
                  have htaken := s.readyToStream_sampleTaken.trans hready
                  rcases Polling.streamToHost_of_ready htaken (by decide)
                    (fun b hb => @AdcStreaming.not_reserved_of_mem_adcValBuffer
                      s.adc.data b hb) with ⟨out, -, hrun⟩
                  have hzoom : onPolling (Polling.streamToHost
                      (AdcStreaming.adcValBuffer s.adc.data) 3) s.sampleTaken =
                      .ok ()
                        { s.sampleTaken with
                          polling := s.sampleTaken.polling.streamed out } :=
                    zoom_of_ok hrun
                  rw [body_stream_of_sample hready hcounter heos, hzoom]
                  exact .sampled h hready heos hrun

/-!
## Between converter and loop
-/

/-- The counts among what is streamed. -/
def countsOf (l : List Streamed) : List (BitVec 32) :=
  l.filterMap fun
    | .count n => some n
    | .sample _ => none

/-- The samples among what is streamed. -/
def samplesOf (l : List Streamed) : List (BitVec 16) :=
  l.filterMap fun
    | .count _ => none
    | .sample v => some v

/-- The registers of the converter are a place that can be overrun. -/
def latch (s : StmStreaming) : Latch (BitVec 16) :=
  { place := if s.adc.eos then some s.adc.data else none
    overrun := s.adc.overrun
    kept := s.history.results
    taken := samplesOf s.history.streamed
    lost := s.history.lost
    overruns := s.history.overruns }

/-- What was transmitted and what is queued is logged with what was streamed, the
counter counts, and the register of the overruns shows how many were found. -/
structure Inv (s : StmStreaming) : Prop where
  logged : exists log,
    Logs s.polling (s.history.streamed.map Streamed.digits) log
  counted : exists n, s.counter = BitVec.ofNat 32 n ∧
    countsOf s.history.streamed = (List.range n).map (BitVec.ofNat 32)
  overruns_eq : s.word adcNOverruns = BitVec.ofNat 32 s.history.overruns

/-- Answers find their room. -/
def Admits (s : StmStreaming) : Event -> Prop
  | .execute => s.statement = .receive ->
      Device.AnswerFits registerMap s.polling.ascd
  | _ => True

instance (s : StmStreaming) : (event : Event) -> Decidable (s.Admits event)
  | .execute => inferInstanceAs (Decidable (_ -> _))
  | .arrive _ => inferInstanceAs (Decidable True)
  | .ready => inferInstanceAs (Decidable True)
  | .tick => inferInstanceAs (Decidable True)
  | .converted _ => inferInstanceAs (Decidable True)
  | .pins _ => inferInstanceAs (Decidable True)

theorem inv_start (hardware : Memory RegWidth.four.Reg) (ticks : Nat)
    (received : Received) (uartReady : Bool) (data : BitVec 16) :
    (start hardware ticks received uartReady data).Inv :=
  ⟨⟨[], Logs.setup _ uartReady⟩, ⟨0, rfl, rfl⟩, rfl⟩

theorem distinct_registerMap : registerMap.Distinct := by
  intro i j p _ _ hi hj
  exact Option.some.inj (hi.trans hj.symm)

/-- The host cannot write a register whose mask is zero. -/
theorem word_of_maskedBitsKept {words words' : Memory RegWidth.four.Reg}
    (h : Device.MaskedBitsKept registerMap words words') {p : Nat}
    (hp : p < registerMap.nRegs.toNat) (hmask : registerMap.writeMasks p = 0) :
    words' p = words p := by
  have hkept := h p p hp rfl
  rw [hmask] at hkept
  simpa using hkept

/-- Everything that is kept is as before, but for the interface. -/
theorem Inv.withPolling (h : s.Inv) {p : Polling .four} {log : List Message}
    (hlog : Logs p (s.history.streamed.map Streamed.digits) log)
    (hword : p.ascd.world.words adcNOverruns = s.words adcNOverruns) :
    Inv { s with polling := p } :=
  ⟨⟨log, hlog⟩, h.counted, hword.trans h.overruns_eq⟩

/-- A register changes that has nothing to do with the streams. -/
theorem Inv.setWord (h : s.Inv) (p : Nat) (hp : p ≠ adcNOverruns)
    (v : BitVec 32) : (s.setWord p v).Inv := by
  rcases h with ⟨⟨log, hlog⟩, hcounted, hoverruns⟩
  refine ⟨⟨log, { hlog with }⟩, hcounted, ?_⟩
  rw [word_setWord, if_neg hp.symm]
  exact hoverruns

theorem Inv.received (h : s.Inv) (hstatement : s.statement = .receive)
    (hadmits : s.Admits .execute) :
    Inv
      { s with
        polling :=
          Result.state (Polling.receive (declaredConfig charSigned registerMap)
            s.polling) } := by
  rcases h.logged with ⟨log, hlog⟩
  refine h.withPolling (@Logs.receive _ _ _ _ charSigned _ hlog
    (hadmits hstatement)).right ?_
  rw [Polling.receive_state]
  exact word_of_maskedBitsKept (Device.receive_maskedBitsKept charSigned
    distinct_registerMap hlog.checks) (by decide) (by decide)

/-- The counter is streamed. -/
theorem Inv.count (h : s.Inv) (hready : s.polling.readyToStream = true)
    {p : Polling .four}
    (hrun : Polling.streamToHost (counterBuffer s.counter) 8 s.polling =
      .ok () p) : Inv (StmStreaming.count { s with polling := p }) := by
  rcases h with ⟨⟨log, hlog⟩, ⟨n, hn, hcounts⟩, hoverruns⟩
  rcases hlog.streamToHost hready (by decide)
    (fun b hb => @not_reserved_of_mem_counterBuffer s.counter b hb) with
    ⟨p', hrun', hlog', hworld⟩
  cases hrun.symm.trans hrun'
  rw [slice_counterBuffer] at hlog'
  let count := Streamed.count s.counter
  refine ⟨⟨log ++ [s.polling.nextStreamMessage count.digits], ?_⟩,
    ⟨n + 1, ?_, ?_⟩, ?_⟩
  · have hstreamed : (s.history.streamed ++ [count]).map Streamed.digits =
        s.history.streamed.map Streamed.digits ++ [count.digits] :=
      List.map_append
    rw [← hstreamed] at hlog'
    exact hlog'
  · rw [BitVec.ofNat_add, ← hn]
    rfl
  · have hnext : countsOf (s.history.streamed ++ [count]) =
        countsOf s.history.streamed ++ [s.counter] := List.filterMap_append
    rw [List.range_succ, List.map_append, ← hcounts, List.map_singleton, ← hn]
    exact hnext
  · exact (congrArg (fun w => World.words w adcNOverruns) hworld).trans
      hoverruns

/-- A loss is counted. -/
theorem Inv.countOverrun (h : s.Inv) : s.countOverrun.Inv := by
  rcases h with ⟨⟨log, hlog⟩, hcounted, hoverruns⟩
  refine ⟨⟨log, { hlog with }⟩, hcounted, ?_⟩
  have hword : s.countOverrun.word adcNOverruns = s.word adcNOverruns + 1 :=
    word_setWord _ _ _ s
  rw [hword, hoverruns, StmStreaming.countOverrun, BitVec.ofNat_add]
  rfl

/-- A result is read and streamed. -/
theorem Inv.readResult (h : s.Inv) (hready : s.polling.readyToStream = true)
    {p : Polling .four}
    (hrun : Polling.streamToHost (AdcStreaming.adcValBuffer s.adc.data) 3
      s.polling = .ok () p) :
    Inv { StmStreaming.readResult s with polling := p } := by
  rcases h with ⟨⟨log, hlog⟩, ⟨n, hn, hcounts⟩, hoverruns⟩
  rcases hlog.streamToHost hready (by decide)
    (fun b hb => @AdcStreaming.not_reserved_of_mem_adcValBuffer s.adc.data b hb)
    with ⟨p', hrun', hlog', hworld⟩
  cases hrun.symm.trans hrun'
  rw [AdcStreaming.slice_adcValBuffer] at hlog'
  let sample := Streamed.sample s.adc.data
  refine ⟨⟨log ++ [s.polling.nextStreamMessage sample.digits], ?_⟩,
    ⟨n, hn, ?_⟩, ?_⟩
  · have hstreamed : (s.history.streamed ++ [sample]).map Streamed.digits =
        s.history.streamed.map Streamed.digits ++ [sample.digits] :=
      List.map_append
    have hlogs : Logs p ((s.history.streamed ++ [sample]).map Streamed.digits)
        (log ++ [s.polling.nextStreamMessage sample.digits]) := by
      rw [hstreamed]
      exact hlog'
    exact hlogs
  · have hnext : countsOf (s.history.streamed ++ [sample]) =
        countsOf s.history.streamed ++ [] := List.filterMap_append
    rw [← hcounts]
    exact hnext.trans (List.append_nil _)
  · exact (congrArg (fun w => World.words w adcNOverruns) hworld).trans
      hoverruns

theorem Inv.sampleTaken (h : s.Inv) (hready : s.polling.readyToStream = true)
    {p : Polling .four}
    (hrun : Polling.streamToHost (AdcStreaming.adcValBuffer s.adc.data) 3
      s.sampleTaken.polling = .ok () p) :
    Inv { s.sampleTaken with polling := p } := by
  rw [StmStreaming.sampleTaken] at hrun ⊢
  split at hrun
  · rename_i hoverrun
    rw [if_pos hoverrun]
    exact h.countOverrun.readResult hready hrun
  · rename_i hoverrun
    rw [if_neg hoverrun]
    exact h.readResult hready hrun

theorem inv_body (h : s.Inv) (hadmits : s.Admits .execute) :
    Inv (Result.state (body charSigned s.statement s)) := by
  rcases h.logged with ⟨log, hlog⟩
  have hcase := body_cases charSigned s
  generalize body charSigned s.statement s = result at hcase ⊢
  cases hcase with
  | saved hstatement => exact { h with }
  | transmitted hstatement hrun =>
      rcases hlog.uartTxFromCircBuf with ⟨p', hrun', hlog', hworld⟩
      cases hrun.symm.trans hrun'
      exact h.withPolling hlog' (congrFun (congrArg World.words hworld) _)
  | moved hstatement hrun =>
      rcases hlog.moveInput with ⟨p', hrun', hlog', hworld⟩
      cases hrun.symm.trans hrun'
      exact h.withPolling hlog' (congrFun (congrArg World.words hworld) _)
  | received hstatement hrun =>
      have hreceived := @Inv.received charSigned s h hstatement hadmits
      rw [hrun] at hreceived
      exact hreceived
  | threw hstatement hrun =>
      have hreceived := @Inv.received charSigned s h hstatement hadmits
      rw [hrun] at hreceived
      exact hreceived
  | adcTimerSet hstatement => exact { h with }
  | dacDisabled hstatement hwants =>
      have hoff := h.setWord dacCr (by decide) (s.word dacCr &&& ~~~dacEnableBit)
      have hset := hoff.setWord optionFlags (by decide)
        (s.word optionFlags &&& ~~~resetFlag)
      exact { hset with }
  | dacKept hstatement hwants => exact h
  | dacEnabled hstatement hexpired =>
      have hset := h.setWord dacCr (by decide) (s.word dacCr ||| dacEnableBit)
      exact { hset with }
  | dacWaits hstatement hexpired => exact { h with }
  | started hstatement => exact { h with }
  | notStarted hstatement => exact { h with }
  | counted hstatement hready hrun => exact h.count hready hrun
  | sampled hstatement hready heos hrun => exact h.sampleTaken hready hrun
  | notStreamed hstatement => exact h

theorem inv_execute (h : s.Inv) (hadmits : s.Admits .execute) :
    (s.execute charSigned).Inv := by
  have hbody := @inv_body charSigned s h hadmits
  rw [execute]
  cases hrun : body charSigned s.statement s with
  | ok u s' =>
      rw [hrun] at hbody
      exact { hbody with }
  | error e s' =>
      rw [hrun] at hbody
      exact { hbody with }

theorem inv_step (h : s.Inv) {event : Event} (hadmits : s.Admits event) :
    (s.step charSigned event).Inv := by
  cases event with
  | arrive b =>
      rcases h.logged with ⟨log, hlog⟩
      exact h.withPolling { hlog with } rfl
  | ready =>
      rcases h.logged with ⟨log, hlog⟩
      exact h.withPolling { hlog with } rfl
  | tick =>
      have hset := h.setWord millisecTimerNow (by decide) (s.now + 1)
      exact { hset with }
  | converted v =>
      rw [step, converted]
      split
      · split
        · exact { h with }
        · exact { h with }
      · exact h
  | pins v => exact h.setWord gpioaIdr (by decide) v
  | execute => exact inv_execute h hadmits

/-- A sample is taken from the place where it waits. -/
theorem latch_sampleTaken (heos : s.adc.eos = true) :
    s.sampleTaken.latch = s.latch.step .take := by
  have hsamples : samplesOf (s.history.streamed ++ [.sample s.adc.data]) =
      samplesOf s.history.streamed ++ [s.adc.data] := List.filterMap_append
  rw [sampleTaken]
  cases hoverrun : s.adc.overrun with
  | true =>
      simp [latch, Latch.step, readResult, countOverrun, setWord, heos,
        hoverrun, hsamples]
  | false =>
      simp [latch, Latch.step, readResult, heos, hoverrun, hsamples]

theorem latch_execute (charSigned : Bool) (s : StmStreaming) :
    (s.execute charSigned).latch =
      (Result.state (body charSigned s.statement s)).latch := by
  rw [execute]
  cases body charSigned s.statement s with
  | ok u s' => rfl
  | error e s' => rfl

/-- **The converter is a place that can be overrun.** -/
theorem simulates_latch (charSigned : Bool) :
    Simulates (step charSigned) Admits Inv Latch.step latch := by
  refine ⟨fun s event h hadmits => inv_step h hadmits, ?_⟩
  intro s event h _
  cases event with
  | arrive b => exact Or.inl rfl
  | ready => exact Or.inl rfl
  | tick => exact Or.inl rfl
  | pins v => exact Or.inl rfl
  | converted v =>
      rw [step, converted]
      cases hstart : s.adc.adstart with
      | false => exact Or.inl rfl
      | true =>
          cases heos : s.adc.eos with
          | true => exact Or.inr ⟨.put v, by simp [latch, Latch.step, heos]⟩
          | false => exact Or.inr ⟨.put v, by simp [latch, Latch.step, heos]⟩
  | execute =>
      have hcase := body_cases charSigned s
      rw [step, latch_execute]
      generalize body charSigned s.statement s = result at hcase ⊢
      cases hcase with
      | saved hstatement => exact Or.inl rfl
      | transmitted hstatement hrun => exact Or.inl rfl
      | moved hstatement hrun => exact Or.inl rfl
      | received hstatement hrun => exact Or.inl rfl
      | threw hstatement hrun => exact Or.inl rfl
      | adcTimerSet hstatement => exact Or.inl rfl
      | dacDisabled hstatement hwants => exact Or.inl rfl
      | dacKept hstatement hwants => exact Or.inl rfl
      | dacEnabled hstatement hexpired => exact Or.inl rfl
      | dacWaits hstatement hexpired => exact Or.inl rfl
      | started hstatement => exact Or.inl rfl
      | notStarted hstatement => exact Or.inl rfl
      | counted hstatement hready hrun =>
          have hsamples : samplesOf
              (s.history.streamed ++ [.count s.counter]) =
              samplesOf s.history.streamed ++ [] := List.filterMap_append
          rw [List.append_nil] at hsamples
          exact Or.inl
            (congrArg (fun samples => { s.latch with taken := samples }) hsamples)
      | sampled hstatement hready heos hrun =>
          exact Or.inr ⟨.take, latch_sampleTaken heos⟩
      | notStreamed hstatement => exact Or.inl rfl

/-- Every statement stays within its memory, and only the receiving one
throws. -/
def Sound (charSigned : Bool) (s : StmStreaming) : Event -> Prop
  | .execute =>
      Result.outcome (body charSigned s.statement s) ≠ .error .outOfBounds ∧
        (s.statement ≠ .receive ->
          Result.outcome (body charSigned s.statement s) = .ok ())
  | _ => True

theorem body_returns (h : s.statement ≠ .receive) :
    Result.outcome (body charSigned s.statement s) = .ok () := by
  have hcase := body_cases charSigned s
  generalize body charSigned s.statement s = result at hcase ⊢
  cases hcase with
  | threw hstatement hrun => exact absurd hstatement h
  | _ => rfl

theorem sound_step (h : s.Inv) {event : Event} (hadmits : s.Admits event) :
    s.Sound charSigned event := by
  cases event with
  | execute =>
      refine ⟨?_, body_returns⟩
      by_cases hreceive : s.statement = .receive
      · rcases h.logged with ⟨log, hlog⟩
        rw [hreceive, body, onPolling, zoom_outcome]
        exact (@Logs.receive _ _ _ _ charSigned _ hlog
          (hadmits hreceive)).left
      · rw [body_returns hreceive]
        simp
  | _ => trivial

/-!
## Runs
-/

/-- The result that waits to be read, if any. -/
def waiting (s : StmStreaming) : List (BitVec 16) :=
  if s.adc.eos then [s.adc.data] else []

/-- What was transmitted and what is queued is a sequence of frames.  The
streaming messages among them are numbered from zero, whatever they carry.  The
counts are those from zero on, the samples are the results of the conversions but
for the one that waits, and a register tells whether results have been lost. -/
structure Delivers (s : StmStreaming) : Prop where
  output : exists log : List Message, (forall m, m ∈ log -> m.Valid) ∧
    s.polling.transmitted ++ s.polling.outBuf.contents = framesOf log ∧
      streamPart log = streamOf (s.history.streamed.map Streamed.digits)
  counted : exists n, s.counter = BitVec.ofNat 32 n ∧
    countsOf s.history.streamed = (List.range n).map (BitVec.ofNat 32)
  results_eq : samplesOf s.history.streamed ++ s.waiting = s.history.results
  overruns_eq : s.word adcNOverruns = BitVec.ofNat 32 s.history.overruns
  overruns_le : s.history.overruns + s.adc.overrun.toNat <= s.history.lost
  lost_eq_zero : s.history.overruns = 0 -> s.adc.overrun = false ->
    s.history.lost = 0

theorem delivers_of_accounted (h : s.Inv) (hacc : s.latch.Accounted) :
    s.Delivers := by
  rcases h with ⟨⟨log, hlog⟩, hcounted, hoverruns⟩
  refine ⟨⟨log, hlog.valid, hlog.output_eq, hlog.stream_eq⟩, hcounted, ?_,
    hoverruns, hacc.overruns_le, ?_⟩
  · have hkept := hacc.kept_eq
    rw [waiting]
    cases heos : s.adc.eos with
    | true => simpa [latch, heos] using hkept
    | false => simpa [latch, heos] using hkept
  · intro hnone hmark
    apply hacc.lost_eq_zero
    simp [latch, hnone, hmark]

end StmStreaming
end AsciiSerialCom
