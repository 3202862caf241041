import AsciiSerialCom.Device.AdcSamples
import AsciiSerialCom.Foundation.Fairness
import AsciiSerialCom.SerialCom.Progress

/-!
# Samples get out

While the host is silent and streaming is on, a sample that waits is streamed
after finitely many laps: in each of them the transmitter gets ready once, and
the loop goes round.
-/

namespace AsciiSerialCom

open Foundation
open Foundation.Delimited
open Foundation.StateError
open Foundation.Run

/-- Without an end byte there is no message, and no error. -/
theorem decode_of_endByte_not_mem {l : List UInt8} (h : endByte ∉ l) :
    exists rest, decode l = (.nothing, rest) ∧ endByte ∉ rest := by
  rcases resync_suffix startByte endByte l with ⟨front, hfront⟩
  have hresync : endByte ∉ resync startByte endByte l := by
    intro hmem
    apply h
    rw [hfront]
    exact List.mem_append_right _ hmem
  have hcase := decode_cases l
  rcases hd : decode l with ⟨d, rest⟩
  rw [hd] at hcase
  generalize resync startByte endByte l = l' at hcase hresync
  cases hcase with
  | empty => exact ⟨[], rfl, List.not_mem_nil⟩
  | growing hend hstart => exact ⟨_, rfl, hresync⟩
  | noPeriod hend hstart hperiod => simp at hresync
  | overlong hend hstart hperiod hlong => simp at hresync
  | short hend hstart hperiod hshort => simp at hresync
  | wrongLength hend hstart hperiod hlong hlength => simp at hresync
  | checked hend hstart hperiod hlong hlength => simp at hresync

namespace AdcStreaming

variable {charSigned : Bool} {s : AdcStreaming}
  {before : List (BitVec 16)} {v : BitVec 16}

/-!
## Waiting
-/

/-- The sample `v` waits to be streamed next, streaming is on, and no message is
under way. -/
structure Waits (before : List (BitVec 16)) (v : BitVec 16)
    (s : AdcStreaming) : Prop where
  checks : s.polling.Checks
  extra_eq : s.polling.extraInputBuffer.contents = []
  open_in : endByte ∉ s.polling.inBuf.contents
  on : s.streamingIsOn = true
  started : s.haveStartedAdcConversion = true
  ended : s.adsc = false
  adc_eq : s.adc = v
  samples_eq : s.history.samples = before

/-- The sample has been streamed. -/
def Streamed (before : List (BitVec 16)) (v : BitVec 16)
    (s : AdcStreaming) : Prop :=
  before ++ [v] <+: s.history.samples

/-- Number of bytes queued. -/
def queued (s : AdcStreaming) : Nat := s.polling.outBuf.contents.length

/-- The host is silent. -/
def Event.Silent : Event -> Prop
  | .arrive _ => False
  | _ => True

instance : (event : Event) -> Decidable event.Silent
  | .arrive _ => inferInstanceAs (Decidable False)
  | .ready => inferInstanceAs (Decidable True)
  | .tick => inferInstanceAs (Decidable True)
  | .converted _ => inferInstanceAs (Decidable True)
  | .execute => inferInstanceAs (Decidable True)
  | .interrupted _ => inferInstanceAs (Decidable True)

/-- A call without a message leaves everything but the input alone. -/
theorem Waits.receive (h : s.Waits before v)
    {config : DeviceConfig (World .one)} :
    exists p, Polling.receive config s.polling = .ok () p ∧
      Waits before v { s with polling := p } ∧
        p.uartReady = s.polling.uartReady ∧
        p.outBuf.contents = s.polling.outBuf.contents := by
  rcases decode_of_endByte_not_mem h.open_in with ⟨rest, hd, hrest⟩
  rcases Device.receive_of_nothing config h.checks hd with
    ⟨b, received, hb, hrun⟩
  refine ⟨_, zoom_of_ok hrun, ?_, rfl, rfl⟩
  have hin : endByte ∉ b.contents := by
    rw [hb]
    exact hrest
  exact { h with open_in := hin }

/-- What an event does while a sample waits. -/
inductive WaitCase (before : List (BitVec 16)) (v : BitVec 16)
    (s : AdcStreaming) : (executed : Bool) -> AdcStreaming -> Prop where
  | idle {s' : AdcStreaming} (hwaits : s'.Waits before v)
      (hstatement : s'.statement = s.statement)
      (hready : s.polling.uartReady = true -> s'.polling.uartReady = true)
      (hqueued : s'.queued = s.queued) :
      WaitCase before v s false s'
  | goesOn {s' : AdcStreaming} (hwaits : s'.Waits before v)
      (hstatement : s'.statement = s.statement.next)
      (hready : s'.polling.uartReady = s.polling.uartReady)
      (hqueued : s'.queued = s.queued)
      (htransmit : s.statement = .transmit ->
        ¬ (s.polling.uartReady = true ∧ 0 < s.queued))
      (hstream : s.statement = .stream -> 0 < s.queued) :
      WaitCase before v s true s'
  | transmitted {s' : AdcStreaming} (hwaits : s'.Waits before v)
      (hstatement : s'.statement = .moveInput)
      (hqueued : s'.queued < s.queued) :
      WaitCase before v s true s'
  | streamed {s' : AdcStreaming} (hstreamed : s'.Streamed before v) :
      WaitCase before v s true s'

theorem waitCase_execute (charSigned : Bool) (reading : MillisecTimerUnit)
    (h : s.Waits before v) :
    WaitCase before v s true (s.execute charSigned reading) := by
  have hcase := execute_cases charSigned reading s
  generalize s.execute charSigned reading = s' at hcase ⊢
  have hgoes {statement : Statement} (hstatement : s.statement = statement)
      (htransmit : statement ≠ .transmit) (hstream : statement ≠ .stream)
      {s' : AdcStreaming} (hwaits : s'.Waits before v)
      (hnext : s'.statement = statement.next)
      (hready : s'.polling.uartReady = s.polling.uartReady)
      (hqueued : s'.polling.outBuf.contents = s.polling.outBuf.contents) :
      WaitCase before v s true s' := by
    subst hstatement
    exact .goesOn hwaits hnext hready (congrArg List.length hqueued)
      (fun h => absurd h htransmit) (fun h => absurd h hstream)
  cases hcase with
  | saved hstatement =>
      exact hgoes hstatement (by decide) (by decide) { h with } rfl rfl rfl
  | transmitted hstatement hrun =>
      rcases Polling.uartTxFromCircBuf_cases s.polling with
        ⟨hnone, hrun'⟩ | ⟨b, out, hout, hrun'⟩
      · cases hrun.symm.trans hrun'
        refine .goesOn { h with } (by rw [hstatement]; rfl) rfl rfl ?_ ?_
        · rintro - ⟨hready, hqueued⟩
          exact hnone ⟨hready, List.ne_nil_of_length_pos hqueued⟩
        · intro hstream
          cases hstatement.symm.trans hstream
      · cases hrun.symm.trans hrun'
        refine .transmitted { h with } rfl ?_
        rw [queued, queued, hout]
        exact Nat.lt_succ_self _
  | moved hstatement hrun =>
      rcases Polling.moveInput_cases s.polling with
        ⟨-, hrun'⟩ | ⟨b, extra, hextra, -⟩
      · cases hrun.symm.trans hrun'
        exact hgoes hstatement (by decide) (by decide) { h with } rfl rfl rfl
      · rw [h.extra_eq] at hextra
        cases hextra
  | received hstatement hrun =>
      rcases @Waits.receive s before v h
        (declaredConfig charSigned registerMap) with
        ⟨p', hrun', hwaits, hready, hqueued⟩
      cases hrun.symm.trans hrun'
      exact hgoes hstatement (by decide) (by decide) { hwaits with } rfl
        hready hqueued
  | threw hstatement hrun =>
      rcases @Waits.receive s before v h
        (declaredConfig charSigned registerMap) with ⟨p', hrun', -⟩
      cases hrun.symm.trans hrun'
  | timerSet hstatement hon hoff =>
      exact hgoes hstatement (by decide) (by decide) { h with } rfl rfl rfl
  | timerKept hstatement hkept =>
      exact hgoes hstatement (by decide) (by decide) { h with } rfl rfl rfl
  | expired hstatement hon hidle hpoll =>
      cases h.started.symm.trans hidle
  | notExpired hstatement hon hidle hpoll =>
      cases h.started.symm.trans hidle
  | notPolled hstatement hskip =>
      exact hgoes hstatement (by decide) (by decide) { h with } rfl rfl rfl
  | streamed hstatement hstarted hended hready hrun =>
      apply WaitCase.streamed
      rw [Streamed, ← h.samples_eq, ← h.adc_eq]
      exact List.prefix_refl _
  | notStreamed hstatement hskip =>
      refine .goesOn { h with } (by rw [hstatement]; rfl) rfl rfl ?_ ?_
      · intro htransmit
        cases hstatement.symm.trans htransmit
      · intro _
        by_contra hnone
        apply hskip
        refine ⟨h.started, by simp [h.ended], ?_⟩
        have hempty : s.polling.outBuf.getSize = 0 := by
          rw [← RingBuffer.length_contents]
          exact Nat.eq_zero_of_not_pos hnone
        rw [Polling.readyToStream, hempty, show s.polling.streamingIsOn = true
          from h.on]
        rfl

/-- The clock does not matter to it. -/
theorem WaitCase.tick {executed : Bool} {s' : AdcStreaming}
    (h : WaitCase before v s executed s') :
    WaitCase before v s executed s'.tick := by
  cases h with
  | idle hwaits hstatement hready hqueued =>
      exact .idle { hwaits with } hstatement hready hqueued
  | goesOn hwaits hstatement hready hqueued htransmit hstream =>
      exact .goesOn { hwaits with } hstatement hready hqueued htransmit hstream
  | transmitted hwaits hstatement hqueued =>
      exact .transmitted { hwaits with } hstatement hqueued
  | streamed hstreamed => exact .streamed hstreamed

theorem waitCase_step (charSigned : Bool) (h : s.Waits before v)
    {event : Event} (hsilent : event.Silent) :
    WaitCase before v s event.isExecute (s.step charSigned event) := by
  cases event with
  | arrive b => exact absurd hsilent id
  | ready => exact .idle { h with } rfl (fun _ => rfl) rfl
  | tick => exact .idle { h with } rfl id rfl
  | converted w =>
      have hsame : s.step charSigned (.converted w) = s := by
        rw [step, converted, if_neg (by simp [h.ended])]
      rw [hsame]
      exact .idle h rfl id rfl
  | execute => exact waitCase_execute charSigned s.now h
  | interrupted read => exact (waitCase_execute charSigned _ h).tick

/-!
## Laps
-/

/-- Number of statements before the transmitter is served. -/
def Statement.untilTransmit : Statement -> Nat
  | saveStreamState => 1
  | transmit => 0
  | moveInput => 6
  | receive => 5
  | setTimer => 4
  | startConversion => 3
  | stream => 2

/-- Number of statements before one may be streamed. -/
def Statement.untilStream : Statement -> Nat
  | saveStreamState => 6
  | transmit => 5
  | moveInput => 4
  | receive => 3
  | setTimer => 2
  | startConversion => 1
  | stream => 0

theorem samples_prefix_execute (charSigned : Bool)
    (reading : MillisecTimerUnit) (s : AdcStreaming) :
    s.history.samples <+: (s.execute charSigned reading).history.samples := by
  have hcase := execute_cases charSigned reading s
  generalize s.execute charSigned reading = s' at hcase ⊢
  cases hcase with
  | streamed hstatement hstarted hended hready hrun =>
      exact List.prefix_append _ _
  | _ => exact List.prefix_refl _

theorem samples_prefix_step (charSigned : Bool) (s : AdcStreaming)
    (event : Event) :
    s.history.samples <+: (s.step charSigned event).history.samples := by
  cases event with
  | arrive b => exact List.prefix_refl _
  | ready => exact List.prefix_refl _
  | tick => exact List.prefix_refl _
  | converted w =>
      rw [step, converted]
      split
      · exact List.prefix_refl _
      · exact List.prefix_refl _
  | execute => exact samples_prefix_execute charSigned s.now s
  | interrupted read => exact samples_prefix_execute charSigned _ s

theorem Streamed.step (h : s.Streamed before v) (event : Event) :
    (s.step charSigned event).Streamed before v :=
  h.trans (samples_prefix_step charSigned s event)

theorem Streamed.run (h : s.Streamed before v) (events : List Event) :
    (run (AdcStreaming.step charSigned) s events).Streamed before v := by
  induction events generalizing s with
  | nil => exact h
  | cons event events ih => exact ih (h.step event)

/-- While something is queued and the transmitter is ready, the loop comes to
the transmitter, and it takes a byte. -/
theorem approaches_transmit (charSigned : Bool) (n : Nat) :
    Approaches (step charSigned) Event.Silent Event.isExecute
      (fun s => s.Waits before v ∧ s.polling.uartReady = true ∧
        s.queued = n + 1)
      (fun s => s.Streamed before v ∨ s.Waits before v ∧ s.queued <= n)
      (fun s => s.statement.untilTransmit) := by
  constructor
  · rintro s event (hstreamed | ⟨hwaits, hle⟩) hsilent
    · exact Or.inl (hstreamed.step event)
    · have hcase := waitCase_step charSigned hwaits hsilent
      generalize s.step charSigned event = s' at hcase
      generalize event.isExecute = executed at hcase
      cases hcase with
      | idle hwaits' hstatement hready hqueued =>
          exact Or.inr ⟨hwaits', by omega⟩
      | goesOn hwaits' hstatement hready hqueued htransmit hstream =>
          exact Or.inr ⟨hwaits', by omega⟩
      | transmitted hwaits' hstatement hqueued =>
          exact Or.inr ⟨hwaits', by omega⟩
      | streamed hstreamed => exact Or.inl hstreamed
  · rintro s event ⟨hwaits, hready, hn⟩ hsilent
    have hcase := waitCase_step charSigned hwaits hsilent
    generalize s.step charSigned event = s' at hcase ⊢
    generalize event.isExecute = executed at hcase ⊢
    cases hcase with
    | idle hwaits' hstatement hready' hqueued =>
        refine Or.inr ⟨⟨hwaits', hready' hready, hqueued.trans hn⟩, ?_, ?_⟩
        · rw [hstatement]
        · intro hexecuted
          cases hexecuted
    | goesOn hwaits' hstatement hready' hqueued htransmit hstream =>
        have hne : s.statement ≠ .transmit := fun h =>
          htransmit h ⟨hready, by omega⟩
        have hnext : s.statement.next.untilTransmit <
            s.statement.untilTransmit := by
          cases hs : s.statement with
          | transmit => exact absurd hs hne
          | _ => decide
        refine Or.inr ⟨⟨hwaits', hready'.trans hready, hqueued.trans hn⟩, ?_,
          ?_⟩
        · rw [hstatement]
          exact Nat.le_of_lt hnext
        · intro _
          rw [hstatement]
          exact hnext
    | transmitted hwaits' hstatement hqueued =>
        exact Or.inl (Or.inr ⟨hwaits', by omega⟩)
    | streamed hstreamed => exact Or.inl (Or.inl hstreamed)

/-- Once nothing is queued, the loop comes to the sample. -/
theorem approaches_stream (charSigned : Bool) :
    Approaches (step charSigned) Event.Silent Event.isExecute
      (fun s => s.Waits before v ∧ s.queued = 0) (Streamed before v)
      (fun s => s.statement.untilStream) := by
  constructor
  · intro s event hstreamed _
    exact hstreamed.step event
  · rintro s event ⟨hwaits, hempty⟩ hsilent
    have hcase := waitCase_step charSigned hwaits hsilent
    generalize s.step charSigned event = s' at hcase ⊢
    generalize event.isExecute = executed at hcase ⊢
    cases hcase with
    | idle hwaits' hstatement hready' hqueued =>
        refine Or.inr ⟨⟨hwaits', hqueued.trans hempty⟩, ?_, ?_⟩
        · rw [hstatement]
        · intro hexecuted
          cases hexecuted
    | goesOn hwaits' hstatement hready' hqueued htransmit hstream =>
        have hne : s.statement ≠ .stream := fun h => by
          have := hstream h
          omega
        have hnext : s.statement.next.untilStream <
            s.statement.untilStream := by
          cases hs : s.statement with
          | stream => exact absurd hs hne
          | _ => decide
        refine Or.inr ⟨⟨hwaits', hqueued.trans hempty⟩, ?_, ?_⟩
        · rw [hstatement]
          exact Nat.le_of_lt hnext
        · intro _
          rw [hstatement]
          exact hnext
    | transmitted hwaits' hstatement hqueued => omega
    | streamed hstreamed => exact Or.inl hstreamed

/-- The transmitter gets ready, and the loop goes round, whatever else happens
except that bytes arrive. -/
def IsLap (lap : List Event) : Prop :=
  lap.head? = some .ready ∧ (forall event, event ∈ lap -> event.Silent) ∧
    7 <= lap.countP Event.isExecute

theorem untilTransmit_lt (statement : Statement) :
    statement.untilTransmit < 7 := by
  cases statement <;> decide

theorem untilStream_lt (statement : Statement) :
    statement.untilStream < 7 := by
  cases statement <;> decide

/-- A lap transmits a byte if one is queued, and streams the sample if none
is. -/
theorem lap_of_waits (charSigned : Bool) (h : s.Waits before v)
    {lap : List Event} (hlap : IsLap lap) :
    let s' := run (step charSigned) s lap
    s'.Streamed before v ∨ s'.Waits before v ∧ s'.queued < s.queued := by
  rcases hlap with ⟨hhead, hsilent, hcount⟩
  cases hqueued : s.queued with
  | zero =>
      exact Or.inl ((approaches_stream charSigned).goal_of_run hsilent
        ⟨h, hqueued⟩ (Nat.lt_of_lt_of_le (untilStream_lt _) hcount))
  | succ n =>
      rcases List.head?_eq_some_iff.mp hhead with ⟨rest, rfl⟩
      have hkeep : (s.step charSigned .ready).Waits before v := { h with }
      have hrest : 7 <= rest.countP Event.isExecute := by
        rwa [List.countP_cons_of_neg (by decide)] at hcount
      have hgoal := (@approaches_transmit before v charSigned n).goal_of_run
        (fun event hevent => hsilent event (List.mem_cons_of_mem _ hevent))
        ⟨hkeep, rfl, hqueued⟩ (Nat.lt_of_lt_of_le (untilTransmit_lt _) hrest)
      exact hgoal.imp_right fun ⟨hwaits, hle⟩ =>
        ⟨hwaits, Nat.lt_succ_of_le hle⟩

variable (charSigned) in
/-- **A sample that waits gets out**, in a number of laps that exceeds what is
queued. -/
theorem streamed_of_laps (h : s.Waits before v) {laps : List (List Event)}
    (hlaps : forall lap, lap ∈ laps -> IsLap lap)
    (hlength : s.queued < laps.length) :
    (run (step charSigned) s laps.flatten).Streamed before v := by
  induction laps generalizing s with
  | nil => cases hlength
  | cons lap laps ih =>
      have hrest := fun l hl => hlaps l (List.mem_cons_of_mem lap hl)
      rw [List.flatten_cons, run_append]
      rcases lap_of_waits charSigned h (hlaps lap (List.mem_cons_self ..)) with
        hstreamed | ⟨hwaits, hlt⟩
      · exact hstreamed.run _
      · apply ih hwaits hrest
        rw [List.length_cons] at hlength
        omega

/-- A second conversion ends while three bytes of the first sample are queued. -/
def secondResult : List Event :=
  let lap : List Event := .ready :: List.replicate 7 .execute
  firstResult ++ (List.replicate 13 lap).flatten ++
    List.replicate 1000 .tick ++ lap ++ [.converted 0x3A6]

/-- The second sample gets out in four laps. -/
theorem streamed_of_laps_secondResult :
    let s := run (step false) (start 0 Received.blank true 0) secondResult
    (run (step false) s (List.replicate 4
      (.ready :: List.replicate 7 .execute)).flatten).Streamed
        [0x3A5] 0x3A6 := by
  have hstate :
      let s := run (step false) (start 0 Received.blank true 0) secondResult
      s.polling.ascd.receiver.asc.ignoreCRCMismatch = false ∧
        s.polling.extraInputBuffer.contents = [] ∧
        endByte ∉ s.polling.inBuf.contents ∧ s.streamingIsOn = true ∧
        s.haveStartedAdcConversion = true ∧ s.adsc = false ∧
        s.adc = 0x3A6 ∧ s.history.samples = [0x3A5] ∧
        s.polling.outBuf.contents.length = 3 := by decide +kernel
  rcases hstate with ⟨hchecks, hextra, hin, hon, hstarted, hended, hadc,
    hsamples, hqueued⟩
  have hwaits : (run (step false) (start 0 Received.blank true 0)
      secondResult).Waits [0x3A5] 0x3A6 :=
    { checks := hchecks
      extra_eq := hextra
      open_in := hin
      on := hon
      started := hstarted
      ended := hended
      adc_eq := hadc
      samples_eq := hsamples }
  refine streamed_of_laps false hwaits ?_ ?_
  · intro lap hlap
    rw [List.eq_of_mem_replicate hlap]
    exact ⟨rfl, by decide, by decide⟩
  · rw [queued, hqueued]
    decide

end AdcStreaming
end AsciiSerialCom
