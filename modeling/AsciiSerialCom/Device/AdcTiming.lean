import AsciiSerialCom.Device.AdcSamples

/-!
# When conversions are started

Switching streaming on begins a session: the timer is set for the sample period
that the registers hold then.  From there on a poll starts conversion number `n`
of the session exactly if `n` periods are over, however often the clock turns.
Polls are left out while a conversion is under way, and made up for later.

This takes readings of the clock that the timer does not tear.  A torn reading can
be ahead of the time, and then a conversion starts early.
-/

namespace AsciiSerialCom

open Foundation
open Foundation.StateError
open Foundation.Run

/-!
## Polls of a timer with any interval
-/

namespace MillisecTimer
namespace Repeating

variable {b r : Nat} {p : Repeating}

theorem OnSchedule.later (h : OnSchedule b r p) {t : Nat} (ht : p.now <= t) :
    OnSchedule b r { p with now := t } :=
  { h with begun := Nat.le_trans h.begun ht }

/-- A timer without an interval has always expired. -/
theorem OnSchedule.poll_of_zero (h : OnSchedule b 0 p) :
    p.poll p.now = { p with expiries := p.expiries + 1 } ∧
      (p.timer.isExpiredRepeat (clock p.now)).1 = true := by
  have hsame : p.timer.expireTime = p.timer.setTime := by
    rw [h.expireTime, h.setTime, Nat.mul_zero, Nat.mul_zero]
  have hexpired : p.timer.isExpiredRepeat (clock p.now) = (true, p.timer) := by
    rw [isExpiredRepeat, if_pos h.enabled, if_pos hsame]
  rw [Repeating.poll, hexpired]
  exact ⟨rfl, rfl⟩

/-- A poll in time, at the time that is now. -/
theorem OnSchedule.poll_now (h : OnSchedule b r p) (hr : r < 2 ^ 32)
    (hturn : r = 0 ∨ p.now < b + p.expiries * r + 2 ^ 32) :
    OnSchedule b r (p.poll p.now) ∧
      ((p.timer.isExpiredRepeat (clock p.now)).1 = true <->
        b + (p.expiries + 1) * r <= p.now) := by
  rcases hturn with rfl | hturn
  · rcases h.poll_of_zero with ⟨hpoll, hexpired⟩
    have hbegun := h.begun
    rw [Nat.mul_zero] at hbegun
    rw [hpoll]
    refine ⟨⟨h.enabled, ?_, ?_, ?_⟩, iff_of_true hexpired ?_⟩
    · rw [h.setTime, Nat.mul_zero, Nat.mul_zero]
    · rw [h.expireTime, Nat.mul_zero, Nat.mul_zero]
    · rw [Nat.mul_zero]
      exact hbegun
    · rw [Nat.mul_zero]
      exact hbegun
  · have hin : InTime b r p p.now := ⟨Nat.le_refl _, hturn⟩
    refine ⟨h.poll hr hin, ?_⟩
    rw [← h.expired_iff hr hin, isExpiredRepeat_eq h.enabled]
    split
    · rename_i hexpired
      exact iff_of_true rfl hexpired
    · rename_i hexpired
      exact iff_of_false Bool.false_ne_true hexpired

end Repeating
end MillisecTimer

/-!
## The clock
-/

theorem distinct_registerMap : registerMap.Distinct := by
  intro i j p _ _ hi hj
  exact Option.some.inj (hi.trans hj.symm)

/-- The host cannot set the clock. -/
theorem now_of_maskedBitsKept {words words' : Memory RegWidth.one.Reg}
    (h : Device.MaskedBitsKept registerMap words words') :
    uint32At words' millisecTimerNow = uint32At words millisecTimerNow := by
  apply uint32At_congr
  intro i hi
  have hmask : registerMap.writeMasks (millisecTimerNow + i) = 0 := by
    have hall : forall i, i < 4 ->
        registerMap.writeMasks (millisecTimerNow + i) = 0 := by decide
    exact hall i hi
  have hkept := h (millisecTimerNow + i) (millisecTimerNow + i)
    (by
      have hsize : registerMap.nRegs.toNat = millisecTimerNow + 4 := rfl
      omega)
    rfl
  rw [hmask] at hkept
  simpa using hkept

namespace AdcStreaming

open MillisecTimer
open MillisecTimer.Repeating

variable {charSigned : Bool} {s : AdcStreaming}

/-!
## Sessions
-/

/-- The timer as the session uses it. -/
def repeating (s : AdcStreaming) (session : Session) : Repeating :=
  { timer := s.adcTimer
    expiries := session.conversions
    now := s.history.ticks }

/-- The loop is about to poll the timer. -/
def Polls (s : AdcStreaming) : Prop :=
  s.statement = .startConversion ∧ s.streamingIsOn = true ∧
    s.haveStartedAdcConversion = false

instance (s : AdcStreaming) : Decidable s.Polls :=
  inferInstanceAs (Decidable (_ ∧ _))

/-- Less than a whole turn of the clock has passed since the current period
began. -/
def Session.InTime (session : Session) (t : Nat) : Prop :=
  session.period = 0 ∨
    t < session.begun + session.conversions * session.period.toNat + 2 ^ 32

instance (session : Session) (t : Nat) : Decidable (session.InTime t) :=
  inferInstanceAs (Decidable (_ ∨ _))

/-- The loop is about to set the timer. -/
def SetsTimer (s : AdcStreaming) : Prop :=
  s.statement = .setTimer ∧ s.streamingIsOn = true ∧
    s.streamStateBeforeReceiving = false

instance (s : AdcStreaming) : Decidable s.SetsTimer :=
  inferInstanceAs (Decidable (_ ∧ _))

/-- Answers find their room, the polls come in time, and what is read of the clock
is the time. -/
def AdmitsInTime (s : AdcStreaming) (event : Event) : Prop :=
  s.Admits event ∧
    (event.isExecute = true ->
      (s.SetsTimer ∨ s.Polls -> s.readingIn event = s.now) ∧
        (s.Polls -> forall session, session ∈ s.history.session ->
          session.InTime s.history.ticks))

instance (s : AdcStreaming) (event : Event) :
    Decidable (s.AdmitsInTime event) :=
  inferInstanceAs (Decidable (_ ∧ (_ -> (_ -> _) ∧ (_ -> _))))

/-- A poll starts the next conversion of the session exactly if its period is
over. -/
def Punctual (charSigned : Bool) (s : AdcStreaming) (event : Event) : Prop :=
  event.isExecute = true -> s.Polls ->
    exists session, s.history.session = some session ∧
      ((s.step charSigned event).adsc = true <->
        session.begun + (session.conversions + 1) * session.period.toNat <=
          s.history.ticks)

/-- The statement comes after the switch has been saved and before a message can
change it. -/
def Statement.savedState (statement : Statement) : Prop :=
  statement = .transmit ∨ statement = .moveInput ∨ statement = .receive

/-- The clock shows true time, the timer is that of the latest session, and there
is one while streaming is on, or there is about to be one. -/
structure OnTime (s : AdcStreaming) : Prop where
  now_eq : s.now = clock s.history.ticks
  scheduled : forall session, s.history.session = some session ->
    OnSchedule session.begun session.period.toNat (s.repeating session)
  saved : s.statement.savedState ->
    s.streamStateBeforeReceiving = s.streamingIsOn
  begun : s.streamingIsOn = true -> s.history.session ≠ none ∨
    s.statement = .setTimer ∧ s.streamStateBeforeReceiving = false

theorem onTime_start (portb : RegWidth.one.Reg) (received : Received)
    (uartReady : Bool) (adc : BitVec 16) :
    (start portb received uartReady adc).OnTime := by
  refine ⟨uint32At_storeUint32 _ _ _, ?_, fun _ => rfl, ?_⟩
  · intro session h
    cases h
  · intro h
    cases h

/-- Everything that bears on the timing is as before, but for the statement. -/
theorem OnTime.goOn (h : s.OnTime) {p : Polling .one} {statement : Statement}
    (hworld : p.ascd.world = s.polling.ascd.world)
    (hsaved : statement.savedState -> s.statement.savedState)
    (htimer : s.statement ≠ .setTimer) :
    OnTime { s with polling := p, statement := statement } := by
  have hon : p.streamingIsOn = s.streamingIsOn :=
    congrArg World.streamingIsOn hworld
  refine ⟨?_, h.scheduled, ?_, ?_⟩
  · refine Eq.trans ?_ h.now_eq
    exact congrArg (fun w => uint32At (World.words w) millisecTimerNow) hworld
  · intro hstatement
    exact (h.saved (hsaved hstatement)).trans hon.symm
  · intro hstreaming
    rcases h.begun (hon.symm.trans hstreaming) with hsession | ⟨hset, -⟩
    · exact Or.inl hsession
    · exact absurd hset htimer

/-- While streaming is on, the timer is polled for a session. -/
theorem OnTime.exists_session (h : s.OnTime) (hpolls : s.Polls) :
    exists session, s.history.session = some session := by
  rcases h.begun hpolls.right.left with hsession | ⟨hset, -⟩
  · exact Option.ne_none_iff_exists'.mp hsession
  · cases hpolls.left.symm.trans hset

/-- The poll that the loop makes is one of the session. -/
theorem OnTime.repeating_poll (h : s.OnTime) (session : Session) :
    (s.repeating session).poll s.history.ticks =
      { timer := (s.adcTimer.isExpiredRepeat s.now).2
        expiries :=
          if (s.adcTimer.isExpiredRepeat s.now).1 then
            session.conversions + 1
          else
            session.conversions
        now := s.history.ticks } := by
  rw [Repeating.poll, repeating, ← h.now_eq]

/-- What a poll comes to. -/
theorem OnTime.poll (h : s.OnTime) {session : Session}
    (hsession : s.history.session = some session)
    (hturn : session.InTime s.history.ticks) :
    OnSchedule session.begun session.period.toNat
        ((s.repeating session).poll s.history.ticks) ∧
      ((s.adcTimer.isExpiredRepeat s.now).1 = true <->
        session.begun + (session.conversions + 1) * session.period.toNat <=
          s.history.ticks) := by
  rw [h.now_eq]
  exact (h.scheduled session hsession).poll_now session.period.isLt
    (hturn.imp_left fun hzero => by rw [hzero]; rfl)

/-- The receiving function leaves the clock alone. -/
theorem OnTime.received (h : s.OnTime) (hinv : s.Inv)
    (hfits : Device.AnswerFits registerMap s.polling.ascd) :
    let result := Polling.receive (declaredConfig charSigned registerMap)
      s.polling
    uint32At (Result.state result).ascd.world.words millisecTimerNow =
        clock s.history.ticks ∧
      (forall e p, result = .error e p ->
        p.streamingIsOn = s.streamingIsOn) := by
  rcases hinv.logged with ⟨log, hlog⟩
  intro result
  refine ⟨?_, ?_⟩
  · rw [Polling.receive_state]
    refine Eq.trans ?_ h.now_eq
    exact now_of_maskedBitsKept (Device.receive_maskedBitsKept charSigned
      distinct_registerMap hlog.checks)
  · intro e p hrun
    cases hdevice : Device.receive (declaredConfig charSigned registerMap)
        s.polling.ascd with
    | ok u after =>
        have hok : result = _ := zoom_of_ok hdevice
        cases hok.symm.trans hrun
    | error e' after =>
        have herror : result = _ := zoom_of_error hdevice
        cases herror.symm.trans hrun
        exact congrArg World.streamingIsOn
          (Device.world_of_error hlog.checks hfits hdevice)

theorem onTime_execute {reading : MillisecTimerUnit} (h : s.OnTime)
    (hinv : s.Inv)
    (hfits : s.statement = .receive ->
      Device.AnswerFits registerMap s.polling.ascd)
    (hreading : s.SetsTimer ∨ s.Polls -> reading = s.now)
    (hturn : s.Polls -> forall session, session ∈ s.history.session ->
      session.InTime s.history.ticks) :
    (s.execute charSigned reading).OnTime := by
  rcases hinv.logged with ⟨log, hlog⟩
  have hcase := execute_cases charSigned reading s
  generalize s.execute charSigned reading = s' at hcase ⊢
  cases hcase with
  | saved hstatement =>
      refine ⟨h.now_eq, h.scheduled, fun _ => rfl, ?_⟩
      intro hon
      rcases h.begun hon with hsession | ⟨hset, -⟩
      · exact Or.inl hsession
      · cases hstatement.symm.trans hset
  | transmitted hstatement hrun =>
      rcases hlog.uartTxFromCircBuf with ⟨p', hrun', -, hworld⟩
      cases hrun.symm.trans hrun'
      exact h.goOn hworld (fun _ => Or.inl hstatement)
        (by rw [hstatement]; decide)
  | moved hstatement hrun =>
      rcases hlog.moveInput with ⟨p', hrun', -, hworld⟩
      cases hrun.symm.trans hrun'
      exact h.goOn hworld (fun _ => Or.inr (Or.inl hstatement))
        (by rw [hstatement]; decide)
  | received hstatement hrun =>
      have hclock := (@OnTime.received charSigned s h hinv
        (hfits hstatement)).left
      rw [hrun] at hclock
      refine ⟨hclock, h.scheduled, ?_, ?_⟩
      · rintro (hsaved | hsaved | hsaved) <;> cases hsaved
      · intro _
        have hsaved := h.saved (Or.inr (Or.inr hstatement))
        cases hon : s.streamingIsOn with
        | false => exact Or.inr ⟨rfl, hsaved.trans hon⟩
        | true =>
            rcases h.begun hon with hsession | ⟨hset, -⟩
            · exact Or.inl hsession
            · cases hstatement.symm.trans hset
  | threw hstatement hrun =>
      rcases @OnTime.received charSigned s h hinv (hfits hstatement) with
        ⟨hclock, hsame⟩
      rw [hrun] at hclock
      refine ⟨hclock, h.scheduled, ?_, ?_⟩
      · rintro (hsaved | hsaved | hsaved) <;> cases hsaved
      · intro hon
        rcases h.begun ((hsame _ _ hrun).symm.trans hon) with
          hsession | ⟨hset, -⟩
        · exact Or.inl hsession
        · cases hstatement.symm.trans hset
  | timerSet hstatement hon hoff =>
      have hnow := hreading (Or.inl ⟨hstatement, hon, hoff⟩)
      refine ⟨h.now_eq, ?_, ?_, fun _ => Or.inl (Option.some_ne_none _)⟩
      · intro session hsession
        cases hsession
        have hstart := @onSchedule_start s.history.ticks
          (uint32At s.words adcSamplePeriodMs).toNat
        rw [Repeating.start, BitVec.ofNat_toNat, BitVec.setWidth_eq,
          ← h.now_eq, ← hnow] at hstart
        exact hstart
      · rintro (hsaved | hsaved | hsaved) <;> cases hsaved
  | timerKept hstatement hkept =>
      refine ⟨h.now_eq, h.scheduled, ?_, ?_⟩
      · rintro (hsaved | hsaved | hsaved) <;> cases hsaved
      · intro hon
        rcases h.begun hon with hsession | ⟨-, hoff⟩
        · exact Or.inl hsession
        · exact absurd ⟨hon, by rw [hoff]; exact Bool.false_ne_true⟩ hkept
  | expired hstatement hon hidle hpoll =>
      have hpolls : s.Polls := ⟨hstatement, hon, hidle⟩
      rcases h.exists_session hpolls with ⟨session, hsession⟩
      have hnext := (h.poll hsession (hturn hpolls session hsession)).left
      rw [h.repeating_poll, ← hreading (Or.inr hpolls), hpoll] at hnext
      refine ⟨h.now_eq, ?_, ?_, fun _ => Or.inl ?_⟩
      · intro session' hsession'
        simp only [startConversion, hsession, Option.map_some] at hsession'
        cases hsession'
        exact hnext
      · rintro (hsaved | hsaved | hsaved) <;> cases hsaved
      · simp [startConversion, hsession]
  | notExpired hstatement hon hidle hpoll =>
      have hpolls : s.Polls := ⟨hstatement, hon, hidle⟩
      rcases h.exists_session hpolls with ⟨session, hsession⟩
      have hnext := (h.poll hsession (hturn hpolls session hsession)).left
      rw [h.repeating_poll, ← hreading (Or.inr hpolls), hpoll] at hnext
      refine ⟨h.now_eq, ?_, ?_, fun _ => Or.inl ?_⟩
      · intro session' hsession'
        cases hsession.symm.trans hsession'
        exact hnext
      · rintro (hsaved | hsaved | hsaved) <;> cases hsaved
      · exact Option.ne_none_iff_exists'.mpr ⟨session, hsession⟩
  | notPolled hstatement hskip =>
      refine h.goOn rfl ?_ (by rw [hstatement]; decide)
      rintro (hsaved | hsaved | hsaved) <;> cases hsaved
  | streamed hstatement hstarted hended hready hrun =>
      rcases hlog.streamToHost hready (by decide)
        (fun b hb => @not_reserved_of_mem_adcValBuffer s.adc b hb) with
        ⟨p', hrun', -, hworld⟩
      cases hrun.symm.trans hrun'
      have hgo := @OnTime.goOn s h _ .saveStreamState hworld
        (by rintro (hsaved | hsaved | hsaved) <;> cases hsaved)
        (by rw [hstatement]; decide)
      exact { hgo with }
  | notStreamed hstatement hskip =>
      refine h.goOn rfl ?_ (by rw [hstatement]; decide)
      rintro (hsaved | hsaved | hsaved) <;> cases hsaved

theorem onTime_tick (h : s.OnTime) : s.tick.OnTime := by
  refine ⟨?_, ?_, h.saved, h.begun⟩
  · have hnext : clock (s.history.ticks + 1) =
        clock s.history.ticks + 1 := BitVec.ofNat_add _ _
    refine Eq.trans ?_ hnext.symm
    rw [← h.now_eq]
    exact uint32At_storeUint32 _ _ _
  · intro session hsession
    exact (h.scheduled session hsession).later (Nat.le_succ _)

theorem onTime_step (h : s.OnTime) (hinv : s.Inv) {event : Event}
    (hadmits : s.AdmitsInTime event) : (s.step charSigned event).OnTime := by
  cases event with
  | arrive b => exact { h with }
  | ready => exact { h with }
  | tick => exact onTime_tick h
  | converted v =>
      rw [step, converted]
      split
      · exact { h with }
      · exact h
  | execute =>
      rcases hadmits.right rfl with ⟨hreading, hturn⟩
      exact onTime_execute h hinv (hadmits.left rfl) hreading hturn
  | interrupted before =>
      rcases hadmits.right rfl with ⟨hreading, hturn⟩
      exact onTime_tick
        (onTime_execute h hinv (hadmits.left rfl) hreading hturn)

/-- A statement that is executed at an event starts a conversion if it does so on
its own. -/
theorem adsc_step {event : Event} (hexecute : event.isExecute = true) :
    (s.step charSigned event).adsc =
      (s.execute charSigned (s.readingIn event)).adsc := by
  cases event with
  | execute => rfl
  | interrupted before => rfl
  | arrive b => cases hexecute
  | ready => cases hexecute
  | tick => cases hexecute
  | converted v => cases hexecute

theorem punctual_step (h : s.OnTime) (hinv : s.Inv) {event : Event}
    (hadmits : s.AdmitsInTime event) : s.Punctual charSigned event := by
  intro hexecute hpolls
  rcases hadmits.right hexecute with ⟨hreading, hturn⟩
  rcases h.exists_session hpolls with ⟨session, hsession⟩
  refine ⟨session, hsession, ?_⟩
  rw [← (h.poll hsession (hturn hpolls session hsession)).right,
    adsc_step hexecute, hreading (Or.inr hpolls)]
  have hadsc : s.adsc = false := by
    by_contra hrunning
    have hknown := hinv.known (by simpa using hrunning)
    rw [hpolls.right.right] at hknown
    cases hknown
  have hcase := execute_cases charSigned s.now s
  generalize s.execute charSigned s.now = s' at hcase ⊢
  cases hcase with
  | expired hstatement hon hidle hpoll => exact iff_of_true rfl hpoll
  | notExpired hstatement hon hidle hpoll =>
      exact iff_of_false (by simp [hadsc]) (by simp [hpoll])
  | notPolled hstatement hskip =>
      refine absurd ⟨hpolls.right.left, ?_⟩ hskip
      simp [hpolls.right.right]
  | saved hstatement => cases hstatement.symm.trans hpolls.left
  | transmitted hstatement hrun => cases hstatement.symm.trans hpolls.left
  | moved hstatement hrun => cases hstatement.symm.trans hpolls.left
  | received hstatement hrun => cases hstatement.symm.trans hpolls.left
  | threw hstatement hrun => cases hstatement.symm.trans hpolls.left
  | timerSet hstatement hon hoff => cases hstatement.symm.trans hpolls.left
  | timerKept hstatement hkept => cases hstatement.symm.trans hpolls.left
  | streamed hstatement hstarted hended hready hrun =>
      cases hstatement.symm.trans hpolls.left
  | notStreamed hstatement hskip => cases hstatement.symm.trans hpolls.left

/-!
## Runs
-/

variable (charSigned) in
/-- **Conversions keep to the schedule of their session**: every poll starts one
exactly if the next period is over, so there are never more of them than periods
since streaming was switched on.  The clock shows the true time throughout, as the
host cannot set it. -/
theorem conversions_punctual_of_run (portb : RegWidth.one.Reg)
    (received : Received) (uartReady : Bool) (adc : BitVec 16)
    {events : List Event}
    (h : Allowed (step charSigned) AdmitsInTime
      (start portb received uartReady adc) events) :
    Allowed (step charSigned) (Punctual charSigned)
        (start portb received uartReady adc) events ∧
      let s := run (step charSigned) (start portb received uartReady adc) events
      s.now = clock s.history.ticks ∧
      (s.streamingIsOn = true -> s.statement ≠ .setTimer ->
        s.history.session ≠ none) ∧
      forall session, s.history.session = some session ->
        session.begun + session.conversions * session.period.toNat <=
          s.history.ticks := by
  have hstart := inv_start portb received uartReady adc
  have hontime := onTime_start portb received uartReady adc
  have hstep (s : AdcStreaming) (event : Event) (hs : s.Inv ∧ s.OnTime)
      (hadmits : s.AdmitsInTime event) :
      s.Punctual charSigned event ∧ (s.step charSigned event).Inv ∧
        (s.step charSigned event).OnTime :=
    ⟨punctual_step hs.right hs.left hadmits, inv_step hs.left hadmits.left,
      onTime_step hs.right hs.left hadmits⟩
  refine ⟨h.imp hstep ⟨hstart, hontime⟩, ?_⟩
  have hend := (h.invariant (fun s event hs hadmits =>
    (hstep s event hs hadmits).right) ⟨hstart, hontime⟩).right
  refine ⟨hend.now_eq, ?_, ?_⟩
  · intro hon hset
    rcases hend.begun hon with hsession | ⟨hset', -⟩
    · exact hsession
    · exact absurd hset' hset
  · intro session hsession
    exact (hend.scheduled session hsession).begun

/-- The first period of a session. -/
theorem conversions_punctual_of_run_firstPeriod :
    Allowed (step false) (Punctual false) (start 0 Received.blank true 0)
        firstPeriod ∧
      let s := run (step false) (start 0 Received.blank true 0) firstPeriod
      s.now = clock s.history.ticks ∧
      (s.streamingIsOn = true -> s.statement ≠ .setTimer ->
        s.history.session ≠ none) ∧
      forall session, s.history.session = some session ->
        session.begun + session.conversions * session.period.toNat <=
          s.history.ticks :=
  conversions_punctual_of_run false 0 Received.blank true 0 (by decide +kernel)

/-- The timer interrupts a poll after 767 milliseconds, when the lowest byte of
the clock has been read. -/
def tornPoll : List Event :=
  switchingOn ++ List.replicate 767 .tick ++ List.replicate 5 .execute ++
    [.interrupted fun i => i = 0]

/-- The torn reading is later than the period of 1000 milliseconds, and a
conversion starts early. -/
theorem not_punctual_of_tornPoll :
    ¬ forall events,
      Allowed (step false) Admits (start 0 Received.blank true 0) events ->
        forall session,
          session ∈ (run (step false) (start 0 Received.blank true 0)
            events).history.session ->
          session.begun + session.conversions * session.period.toNat <=
            (run (step false) (start 0 Received.blank true 0)
              events).history.ticks := by
  intro h
  have hadmits : Allowed (step false) Admits (start 0 Received.blank true 0)
      tornPoll := by decide +kernel
  have hearly : ¬ forall session,
      session ∈ (run (step false) (start 0 Received.blank true 0)
        tornPoll).history.session ->
      session.begun + session.conversions * session.period.toNat <=
        (run (step false) (start 0 Received.blank true 0)
          tornPoll).history.ticks := by decide +kernel
  exact hearly (h tornPoll hadmits)

end AdcStreaming
end AsciiSerialCom
