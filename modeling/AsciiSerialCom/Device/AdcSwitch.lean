import AsciiSerialCom.Device.AdcSamples
import AsciiSerialCom.Device.Commands

/-!
# How the host switches streaming

The program handles exactly the valid frames among the bytes that have arrived.
The last switching message among those decides whether it streams.
-/

namespace AsciiSerialCom

open Foundation
open Foundation.StateError
open Foundation.Run

namespace AdcStreaming

variable {charSigned : Bool} {s : AdcStreaming}

/-- Bytes arrive while there is room for them, and answers find their room. -/
def AdmitsArrivals (s : AdcStreaming) : Event -> Prop
  | .arrive _ =>
      s.polling.extraInputBuffer.contents.length < extraInputBufferSize
  | event => s.Admits event

instance (s : AdcStreaming) :
    (event : Event) -> Decidable (s.AdmitsArrivals event)
  | .arrive _ => inferInstanceAs (Decidable (_ < _))
  | .ready => inferInstanceAs (Decidable (s.Admits _))
  | .tick => inferInstanceAs (Decidable (s.Admits _))
  | .converted _ => inferInstanceAs (Decidable (s.Admits _))
  | .execute => inferInstanceAs (Decidable (s.Admits _))
  | .interrupted _ => inferInstanceAs (Decidable (s.Admits _))

/-- The bytes that arrive. -/
def arrivedIn (events : List Event) : List UInt8 :=
  events.filterMap fun
    | .arrive b => some b
    | _ => none

theorem history_execute (charSigned : Bool) (reading : MillisecTimerUnit)
    (s : AdcStreaming) :
    (s.execute charSigned reading).history.arrived = s.history.arrived := by
  have hcase := execute_cases charSigned reading s
  generalize s.execute charSigned reading = s' at hcase ⊢
  cases hcase <;> rfl

theorem run_arrived (s : AdcStreaming) (events : List Event) :
    (run (step charSigned) s events).history.arrived =
      s.history.arrived ++ arrivedIn events := by
  induction events generalizing s with
  | nil => simp [arrivedIn]
  | cons event events ih =>
      rw [run_cons, ih]
      cases event with
      | arrive b => simp [step, arrivedIn]
      | ready => rfl
      | tick => rfl
      | converted v =>
          rw [step, converted]
          split
          · rfl
          · rfl
      | execute =>
          rw [step, history_execute]
          rfl
      | interrupted before =>
          have hsame := history_execute charSigned (s.tornReading before) s
          exact congrArg (· ++ arrivedIn events) hsame

/-- What has arrived is accounted for; a call has followed the last move unless
it comes next. -/
def Obeys (s : AdcStreaming) : Prop :=
  exists handled, Follows s.polling s.history.arrived handled
    (s.statement ≠ .receive)

theorem obeys_start (portb : RegWidth.one.Reg) (received : Received)
    (uartReady : Bool) (adc : BitVec 16) :
    (start portb received uartReady adc).Obeys := by
  refine ⟨[], ?_⟩
  exact Follows.setup rfl

theorem obeys_execute {reading : MillisecTimerUnit} (h : s.Obeys)
    (hfits : s.statement = .receive ->
      Device.AnswerFits registerMap s.polling.ascd) :
    (s.execute charSigned reading).Obeys := by
  rcases h with ⟨handled, h⟩
  have hready (hstatement : s.statement ≠ .receive) :
      Follows s.polling s.history.arrived handled true := by
    simpa [hstatement] using h
  have hcase := execute_cases charSigned reading s
  generalize s.execute charSigned reading = s' at hcase ⊢
  cases hcase with
  | saved hstatement => exact ⟨handled, hready (by simp [hstatement])⟩
  | transmitted hstatement hrun =>
      exact ⟨handled,
        (hready (by simp [hstatement])).uartTxFromCircBuf hrun⟩
  | moved hstatement hrun =>
      exact ⟨handled, (hready (by simp [hstatement])).moveInput hrun⟩
  | received hstatement hrun =>
      have hreceived := @Follows.receive _ _ _ _ charSigned _ _ h
        (hfits hstatement)
      rw [hrun] at hreceived
      exact ⟨_, hreceived⟩
  | threw hstatement hrun =>
      have hreceived := @Follows.receive _ _ _ _ charSigned _ _ h
        (hfits hstatement)
      rw [hrun] at hreceived
      exact ⟨_, hreceived⟩
  | timerSet hstatement hon hoff =>
      exact ⟨handled, hready (by simp [hstatement])⟩
  | timerKept hstatement hkept =>
      exact ⟨handled, hready (by simp [hstatement])⟩
  | expired hstatement hon hidle hpoll =>
      exact ⟨handled, hready (by simp [hstatement])⟩
  | notExpired hstatement hon hidle hpoll =>
      exact ⟨handled, hready (by simp [hstatement])⟩
  | notPolled hstatement hskip =>
      exact ⟨handled, hready (by simp [hstatement])⟩
  | streamed hstatement hstarted hended hstream hrun =>
      exact ⟨handled, (hready (by simp [hstatement])).streamToHost hstream
        (by decide) (fun b hb => @not_reserved_of_mem_adcValBuffer s.adc b hb)
        hrun⟩
  | notStreamed hstatement hskip =>
      exact ⟨handled, hready (by simp [hstatement])⟩

theorem obeys_tick (h : s.Obeys) : s.tick.Obeys := by
  rcases h with ⟨handled, h⟩
  exact ⟨handled, { h with }⟩

theorem obeys_step (h : s.Obeys) {event : Event}
    (hadmits : s.AdmitsArrivals event) : (s.step charSigned event).Obeys := by
  cases event with
  | arrive b =>
      rcases h with ⟨handled, h⟩
      exact ⟨handled, h.arrive b hadmits⟩
  | ready =>
      rcases h with ⟨handled, h⟩
      exact ⟨handled, { h with }⟩
  | tick => exact obeys_tick h
  | converted v =>
      rw [step, converted]
      split
      · exact h
      · exact h
  | execute => exact obeys_execute h (hadmits rfl)
  | interrupted before => exact obeys_tick (obeys_execute h (hadmits rfl))

/-- Samples are streamed only while streaming is on. -/
def StreamsWhileOn (charSigned : Bool) (s : AdcStreaming) (event : Event) :
    Prop :=
  s.streamingIsOn = false ->
    (s.step charSigned event).history.samples = s.history.samples

theorem samples_execute_of_off (charSigned : Bool)
    (reading : MillisecTimerUnit) (hoff : s.streamingIsOn = false) :
    (s.execute charSigned reading).history.samples = s.history.samples := by
  have hcase := execute_cases charSigned reading s
  generalize s.execute charSigned reading = s' at hcase ⊢
  cases hcase with
  | streamed hstatement hstarted hended hready hrun =>
      rw [Polling.readyToStream, Bool.and_eq_true] at hready
      exact absurd (hoff.symm.trans hready.left) Bool.false_ne_true
  | _ => rfl

theorem streamsWhileOn (charSigned : Bool) (s : AdcStreaming)
    (event : Event) : s.StreamsWhileOn charSigned event := by
  intro hoff
  cases event with
  | arrive b => rfl
  | ready => rfl
  | tick => rfl
  | converted v =>
      rw [step, converted]
      split
      · rfl
      · rfl
  | execute => exact samples_execute_of_off charSigned s.now hoff
  | interrupted before => exact samples_execute_of_off charSigned _ hoff

end AdcStreaming
end AsciiSerialCom
