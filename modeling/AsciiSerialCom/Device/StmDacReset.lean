import AsciiSerialCom.Device.StmSamples

/-!
# Resets of the output converter

An option flag has the output converter switched off.  The loop clears the flag
at once, and switches the converter on again at the first poll that half a second
has passed for.  Nothing else switches it: the host can write other bits of its
control register, but not this one.
-/

namespace AsciiSerialCom

open Foundation
open Foundation.StateError
open Foundation.Run
open Foundation.ModularTime

namespace StmStreaming

open MillisecTimer

variable {charSigned : Bool} {s s' : StmStreaming}

/-!
## Two bits
-/

/-- The output converter is on. -/
def dacIsOn (s : StmStreaming) : Bool := (s.word dacCr).getLsbD 0

theorem wantsReset_eq (s : StmStreaming) :
    s.wantsReset = (s.word optionFlags).getLsbD 1 := by
  have hbit := @BitVec.and_one_eq_setWidth_ofBool_getLsbD 32
    (s.word optionFlags >>> 1)
  rw [BitVec.getLsbD_ushiftRight] at hbit
  change ((s.word optionFlags >>> 1) &&& 1#32 != 0) = _
  rw [hbit]
  cases (s.word optionFlags).getLsbD 1 <;> rfl

theorem dacIsOn_disableDac (s : StmStreaming) :
    s.disableDac.dacIsOn = false := by
  have hword : s.disableDac.word dacCr = s.word dacCr &&& ~~~dacEnableBit :=
    rfl
  rw [dacIsOn, hword, BitVec.getLsbD_and, BitVec.getLsbD_not]
  simp [dacEnableBit]

theorem wantsReset_disableDac (s : StmStreaming) :
    s.disableDac.wantsReset = false := by
  have hword : s.disableDac.word optionFlags =
      s.word optionFlags &&& ~~~resetFlag := rfl
  rw [wantsReset_eq, hword, BitVec.getLsbD_and, BitVec.getLsbD_not]
  simp [resetFlag]

theorem dacIsOn_enableDac (s : StmStreaming) :
    s.enableDac.dacIsOn = true := by
  have hword : s.enableDac.word dacCr = s.word dacCr ||| dacEnableBit := rfl
  rw [dacIsOn, hword, BitVec.getLsbD_or]
  simp [dacEnableBit]

/-- The host cannot write the bit that enables the converter. -/
theorem dacBit_of_maskedBitsKept {words words' : Memory RegWidth.four.Reg}
    (h : Device.MaskedBitsKept registerMap words words') :
    (words' dacCr).getLsbD 0 = (words dacCr).getLsbD 0 := by
  let v : BitVec 32 := words dacCr
  let v' : BitVec 32 := words' dacCr
  have hkept : v' &&& ~~~0xFC0#32 = v &&& ~~~0xFC0#32 :=
    h dacCr dacCr (by decide) rfl
  have hbit := congrArg (fun v => BitVec.getLsbD v 0) hkept
  change v'.getLsbD 0 = v.getLsbD 0
  simpa using hbit

/-!
## What a reset depends on
-/

/-- Everything that a reset depends on is the same, but for the option flags. -/
structure SameReset (s s' : StmStreaming) : Prop where
  dacIsOn_eq : s'.dacIsOn = s.dacIsOn
  now_eq : s'.now = s.now
  timer_eq : s'.dacResetTimer = s.dacResetTimer
  ticks_eq : s'.history.ticks = s.history.ticks
  dacDisabled_eq : s'.history.dacDisabled = s.history.dacDisabled

/-- The statements that come after a message may have set the flag, and before
the loop has looked at it. -/
def Statement.mayWantReset (statement : Statement) : Prop :=
  statement = .setTimer ∨ statement = .disableDac

instance (statement : Statement) : Decidable statement.mayWantReset :=
  inferInstanceAs (Decidable (_ ∨ _))

/-- Half a second has passed since the converter was switched off. -/
def ResetOver (s : StmStreaming) : Prop :=
  exists t, s.history.dacDisabled = some t ∧ t + dacResetTimeMs <= s.history.ticks

/-- The converter is off while the timer runs, which was set when the converter
was switched off. -/
structure Resetting (s : StmStreaming) : Prop where
  now_eq : s.now = clock s.history.ticks
  dacIsOn_eq : s.dacIsOn = !s.dacResetTimer.enabled
  running : s.dacIsOn = false -> exists t,
    s.history.dacDisabled = some t ∧ t <= s.history.ticks ∧
      s.dacResetTimer.setTime = clock t ∧
        s.dacResetTimer.expireTime = clock (t + dacResetTimeMs)

/-- A reset that has been asked for is under way before the next message is
looked for. -/
def Settled (s : StmStreaming) : Prop :=
  ¬ s.statement.mayWantReset -> s.wantsReset = false

theorem resetting_start (hardware : Memory RegWidth.four.Reg) (ticks : Nat)
    (received : Received) (uartReady : Bool) (data : BitVec 16) :
    (start hardware ticks received uartReady data).Resetting := by
  let s := start hardware ticks received uartReady data
  let control : BitVec 32 := hardware dacCr
  have hon : s.dacIsOn = true := by
    have hword : s.word dacCr = control ||| dacEnableBit := rfl
    rw [dacIsOn, hword, BitVec.getLsbD_or]
    simp [dacEnableBit]
  refine ⟨rfl, hon, ?_⟩
  intro hoff
  cases hon.symm.trans hoff

theorem settled_start (hardware : Memory RegWidth.four.Reg) (ticks : Nat)
    (received : Received) (uartReady : Bool) (data : BitVec 16) :
    (start hardware ticks received uartReady data).Settled := by
  intro _
  have hflags : (start hardware ticks received uartReady data).word
      optionFlags = 0 := rfl
  rw [wantsReset_eq, hflags]
  rfl

theorem SameReset.trans {s'' : StmStreaming} (h : SameReset s s')
    (h' : SameReset s' s'') : SameReset s s'' :=
  ⟨h'.dacIsOn_eq.trans h.dacIsOn_eq, h'.now_eq.trans h.now_eq,
    h'.timer_eq.trans h.timer_eq, h'.ticks_eq.trans h.ticks_eq,
    h'.dacDisabled_eq.trans h.dacDisabled_eq⟩

theorem Resetting.keep (h : s.Resetting) (hsame : SameReset s s') :
    s'.Resetting := by
  refine ⟨?_, ?_, ?_⟩
  · rw [hsame.now_eq, hsame.ticks_eq, h.now_eq]
  · rw [hsame.dacIsOn_eq, hsame.timer_eq, h.dacIsOn_eq]
  · rw [hsame.dacIsOn_eq, hsame.dacDisabled_eq, hsame.ticks_eq, hsame.timer_eq]
    exact h.running

/-- Answers find their room, and the timer is polled within a turn of the
clock. -/
def AdmitsInTime (s : StmStreaming) : Event -> Prop
  | .execute => s.Admits .execute ∧
      (s.statement = .enableDac -> s.dacIsOn = false ->
        forall t, t ∈ s.history.dacDisabled -> s.history.ticks < t + 2 ^ 32)
  | event => s.Admits event

instance (s : StmStreaming) :
    (event : Event) -> Decidable (s.AdmitsInTime event)
  | .execute => inferInstanceAs (Decidable (_ ∧ (_ -> _ -> _)))
  | .arrive _ => inferInstanceAs (Decidable True)
  | .ready => inferInstanceAs (Decidable True)
  | .tick => inferInstanceAs (Decidable True)
  | .converted _ => inferInstanceAs (Decidable True)
  | .pins _ => inferInstanceAs (Decidable True)

/-- **The timer expires when the reset is over**, and at no other time. -/
theorem Resetting.poll (h : s.Resetting) (hstatement : s.statement = .enableDac)
    (hadmits : s.AdmitsInTime .execute) :
    ((s.dacResetTimer.isExpired s.now).1 = true <->
        s.dacIsOn = false ∧ s.ResetOver) ∧
      (s.dacResetTimer.isExpired s.now).2 =
        { s.dacResetTimer with
          enabled :=
            s.dacResetTimer.enabled &&
              !(s.dacResetTimer.isExpired s.now).1 } := by
  cases hon : s.dacIsOn with
  | true =>
      have henabled : s.dacResetTimer.enabled = false := by
        simpa [hon] using h.dacIsOn_eq
      have hpoll : s.dacResetTimer.isExpired s.now =
          (false, s.dacResetTimer) := by
        rw [isExpired, if_neg (by simp [henabled])]
      rw [hpoll]
      refine ⟨by simp, ?_⟩
      cases htimer : s.dacResetTimer with
      | mk enabled setTime expireTime =>
          rw [htimer] at henabled
          simp only at henabled
          rw [henabled]
          rfl
  | false =>
      have henabled : s.dacResetTimer.enabled = true := by
        simpa [hon] using h.dacIsOn_eq
      rcases h.running hon with ⟨t, ht, hle, hset, hexpire⟩
      have hturn := hadmits.right hstatement hon t ht
      have hover : s.ResetOver <-> t + dacResetTimeMs <= s.history.ticks := by
        refine ⟨?_, fun hle => ⟨t, ht, hle⟩⟩
        rintro ⟨t', ht', hle'⟩
        cases ht.symm.trans ht'
        exact hle'
      have hexpired : s.dacResetTimer.Expired s.now <->
          t + dacResetTimeMs <= s.history.ticks := by
        rw [Expired, hset, hexpire, h.now_eq]
        exact reached_ofNat (Nat.le_add_right _ _)
          (Nat.add_lt_add_left (by decide) _) hle hturn
      rw [isExpired_eq henabled, hover, ← hexpired]
      by_cases hdue : s.dacResetTimer.Expired s.now
      · rw [if_pos hdue]
        exact ⟨by simp [hdue], by simp⟩
      · rw [if_neg hdue]
        refine ⟨by simp [hdue], ?_⟩
        simp

/-!
## What a statement does to a reset
-/

/-- The receiving function may set the option flags, if it returns. -/
theorem sameReset_received (hinv : s.Inv) {p : Polling .four}
    (hresult : Result.state (Polling.receive
      (declaredConfig charSigned registerMap) s.polling) = p) :
    SameReset s { s with polling := p } := by
  rcases hinv.logged with ⟨log, hlog⟩
  have hkept := @Device.receive_maskedBitsKept .four registerMap s.polling.ascd
    charSigned distinct_registerMap hlog.checks
  rw [Polling.receive_state] at hresult
  subst hresult
  exact ⟨dacBit_of_maskedBitsKept hkept,
    word_of_maskedBitsKept hkept (by decide) (by decide), rfl, rfl, rfl⟩

/-- If it does not return, it has not set them. -/
theorem optionFlags_of_threw (hinv : s.Inv)
    (hadmits : Device.AnswerFits registerMap s.polling.ascd)
    {p : Polling .four} {e : Failure}
    (hrun : Polling.receive (declaredConfig charSigned registerMap) s.polling =
      .error e p) :
    p.ascd.world.words optionFlags = s.words optionFlags := by
  rcases hinv.logged with ⟨log, hlog⟩
  cases hdevice : Device.receive (declaredConfig charSigned registerMap)
      s.polling.ascd with
  | ok u after =>
      have hok : Polling.receive (declaredConfig charSigned registerMap)
          s.polling = .ok () { s.polling with ascd := after } :=
        zoom_of_ok hdevice
      cases hok.symm.trans hrun
  | error e' after =>
      have herror : Polling.receive (declaredConfig charSigned registerMap)
          s.polling = .error e' { s.polling with ascd := after } :=
        zoom_of_error hdevice
      cases herror.symm.trans hrun
      exact congrArg (fun world => World.words world optionFlags)
        (Device.world_of_error hlog.checks hadmits hdevice)

/-- The words are as before. -/
theorem sameReset_of_world {p : Polling .four}
    (hworld : p.ascd.world = s.polling.ascd.world) :
    SameReset s { s with polling := p } ∧
      wantsReset { s with polling := p } = s.wantsReset := by
  have hword (q : Nat) : p.ascd.world.words q = s.words q :=
    congrArg (fun world => World.words world q) hworld
  refine ⟨⟨?_, hword _, rfl, rfl, rfl⟩, ?_⟩
  · exact congrArg (fun v : BitVec 32 => v.getLsbD 0) (hword dacCr)
  · rw [wantsReset_eq, wantsReset_eq]
    exact congrArg (fun v : BitVec 32 => v.getLsbD 1) (hword optionFlags)

theorem sameReset_sampleTaken (s : StmStreaming) :
    SameReset s s.sampleTaken ∧ s.sampleTaken.wantsReset = s.wantsReset := by
  rw [sampleTaken]
  split
  · exact ⟨⟨rfl, rfl, rfl, rfl, rfl⟩, rfl⟩
  · exact ⟨⟨rfl, rfl, rfl, rfl, rfl⟩, rfl⟩

/-- A sample is streamed, which leaves the words alone. -/
theorem sameReset_sampled (hready : s.polling.readyToStream = true)
    {p : Polling .four}
    (hrun : Polling.streamToHost (AdcStreaming.adcValBuffer s.adc.data) 3
      s.sampleTaken.polling = .ok () p) :
    SameReset s { s.sampleTaken with polling := p } ∧
      wantsReset { s.sampleTaken with polling := p } = s.wantsReset := by
  rcases Polling.streamToHost_of_ready
    (s.readyToStream_sampleTaken.trans hready) (by decide)
    (fun b hb => @AdcStreaming.not_reserved_of_mem_adcValBuffer s.adc.data b hb)
    with ⟨out, -, hrun'⟩
  cases hrun.symm.trans hrun'
  rcases s.sameReset_sampleTaken with ⟨hsame, hwants⟩
  rcases @sameReset_of_world s.sampleTaken (s.sampleTaken.polling.streamed out)
    rfl with ⟨hsame', hwants'⟩
  exact ⟨hsame.trans hsame', hwants'.trans hwants⟩

/-- The counter is streamed. -/
theorem sameReset_counted (hready : s.polling.readyToStream = true)
    {p : Polling .four}
    (hrun : Polling.streamToHost (counterBuffer s.counter) 8 s.polling =
      .ok () p) :
    SameReset s (count { s with polling := p }) ∧
      (count { s with polling := p }).wantsReset = s.wantsReset := by
  rcases Polling.streamToHost_of_ready hready (by decide)
    (fun b hb => @not_reserved_of_mem_counterBuffer s.counter b hb) with
    ⟨out, -, hrun'⟩
  cases hrun.symm.trans hrun'
  exact ⟨⟨rfl, rfl, rfl, rfl, rfl⟩, rfl⟩

/-- The output converter is on after the statement if it was on and is not
switched off, or if it is switched on again because half a second has passed. -/
def DacAfter (s : StmStreaming) : Prop :=
  s.dacIsOn = true ∧ ¬ (s.statement = .disableDac ∧ s.wantsReset = true) ∨
    s.statement = .enableDac ∧ s.ResetOver

/-- A statement that has nothing to do with resets. -/
theorem Resetting.idle (h : s.Resetting) (hsame : SameReset s s')
    (hdisable : s.statement ≠ .disableDac)
    (henable : s.statement ≠ .enableDac) :
    (s'.dacIsOn = true <-> s.DacAfter) ∧ s'.Resetting := by
  refine ⟨?_, h.keep hsame⟩
  rw [hsame.dacIsOn_eq, DacAfter]
  simp [hdisable, henable]

theorem resetting_body (h : s.Resetting) (hinv : s.Inv)
    (hadmits : s.AdmitsInTime .execute) :
    let s' := Result.state (body charSigned s.statement s)
    (s'.dacIsOn = true <-> s.DacAfter) ∧ s'.Resetting := by
  rcases hinv.logged with ⟨log, hlog⟩
  have hcase := body_cases charSigned s
  generalize body charSigned s.statement s = result at hcase ⊢
  cases hcase with
  | saved hstatement =>
      exact h.idle ⟨rfl, rfl, rfl, rfl, rfl⟩ (by simp [hstatement])
        (by simp [hstatement])
  | transmitted hstatement hrun =>
      rcases hlog.uartTxFromCircBuf with ⟨p', hrun', -, hworld⟩
      cases hrun.symm.trans hrun'
      exact h.idle (sameReset_of_world hworld).left (by simp [hstatement])
        (by simp [hstatement])
  | moved hstatement hrun =>
      rcases hlog.moveInput with ⟨p', hrun', -, hworld⟩
      cases hrun.symm.trans hrun'
      exact h.idle (sameReset_of_world hworld).left (by simp [hstatement])
        (by simp [hstatement])
  | received hstatement hrun =>
      exact h.idle (sameReset_received hinv (by rw [hrun, Result.state_ok]))
        (by simp [hstatement]) (by simp [hstatement])
  | threw hstatement hrun =>
      exact h.idle (sameReset_received hinv (by rw [hrun, Result.state_error]))
        (by simp [hstatement]) (by simp [hstatement])
  | adcTimerSet hstatement =>
      exact h.idle ⟨rfl, rfl, rfl, rfl, rfl⟩ (by simp [hstatement])
        (by simp [hstatement])
  | dacDisabled hstatement hwants =>
      refine ⟨?_, h.now_eq, s.dacIsOn_disableDac, ?_⟩
      · rw [DacAfter]
        simp [dacIsOn_disableDac, hstatement, hwants]
      · intro _
        refine ⟨s.history.ticks, rfl, Nat.le_refl _, h.now_eq, ?_⟩
        have hsum : clock (s.history.ticks + dacResetTimeMs) =
            clock s.history.ticks + BitVec.ofNat 32 dacResetTimeMs :=
          BitVec.ofNat_add _ _
        rw [hsum, ← h.now_eq]
        rfl
  | dacKept hstatement hwants =>
      refine ⟨?_, h⟩
      rw [DacAfter]
      simp [hstatement, hwants]
  | dacEnabled hstatement hexpired =>
      rcases h.poll hstatement hadmits with ⟨hover, htimer⟩
      have hon := dacIsOn_enableDac
        { s with dacResetTimer := (s.dacResetTimer.isExpired s.now).2 }
      refine ⟨?_, h.now_eq, ?_, ?_⟩
      · rw [DacAfter]
        exact iff_of_true hon (Or.inr ⟨hstatement, (hover.mp hexpired).right⟩)
      · refine hon.trans ?_
        change true = !(s.dacResetTimer.isExpired s.now).2.enabled
        rw [htimer, hexpired]
        simp
      · intro hoff
        cases hon.symm.trans hoff
  | dacWaits hstatement hexpired =>
      rcases h.poll hstatement hadmits with ⟨hover, htimer⟩
      have hsame : (s.dacResetTimer.isExpired s.now).2 = s.dacResetTimer := by
        rw [htimer, hexpired]
        simp
      have hnot := mt hover.mpr (by simp [hexpired])
      refine ⟨?_, h.keep ⟨rfl, rfl, hsame, rfl, rfl⟩⟩
      rw [DacAfter]
      change s.dacIsOn = true <-> _
      cases hon : s.dacIsOn with
      | true => simp [hstatement]
      | false =>
          rw [hon] at hnot
          simpa using fun _ hover => hnot ⟨rfl, hover⟩
  | started hstatement =>
      exact h.idle ⟨rfl, rfl, rfl, rfl, rfl⟩ (by simp [hstatement])
        (by simp [hstatement])
  | notStarted hstatement =>
      exact h.idle ⟨rfl, rfl, rfl, rfl, rfl⟩ (by simp [hstatement])
        (by simp [hstatement])
  | counted hstatement hready hrun =>
      exact h.idle (sameReset_counted hready hrun).left (by simp [hstatement])
        (by simp [hstatement])
  | sampled hstatement hready heos hrun =>
      exact h.idle (sameReset_sampled hready hrun).left (by simp [hstatement])
        (by simp [hstatement])
  | notStreamed hstatement =>
      exact h.idle ⟨rfl, rfl, rfl, rfl, rfl⟩ (by simp [hstatement])
        (by simp [hstatement])

/-- The statement that comes next has nothing to do with the words. -/
theorem sameReset_execute (charSigned : Bool) (s : StmStreaming) :
    SameReset (Result.state (body charSigned s.statement s))
      (s.execute charSigned) := by
  rw [execute]
  cases body charSigned s.statement s with
  | ok u s' => exact ⟨rfl, rfl, rfl, rfl, rfl⟩
  | error e s' => exact ⟨rfl, rfl, rfl, rfl, rfl⟩

theorem resetting_execute (h : s.Resetting) (hinv : s.Inv)
    (hadmits : s.AdmitsInTime .execute) :
    ((s.execute charSigned).dacIsOn = true <-> s.DacAfter) ∧
      (s.execute charSigned).Resetting := by
  rcases @resetting_body charSigned s h hinv hadmits with ⟨hdac, hresetting⟩
  have hsame := sameReset_execute charSigned s
  rw [hsame.dacIsOn_eq]
  exact ⟨hdac, hresetting.keep hsame⟩

/-- The flag of the state before, for a statement that does not touch it. -/
theorem Settled.keep (h : s.Settled) (hwants : s'.wantsReset = s.wantsReset)
    (hstatement : ¬ s.statement.mayWantReset) {statement : Statement} :
    Settled { s' with statement := statement } :=
  fun _ => hwants.trans (h hstatement)

theorem settled_execute (h : s.Settled) (hinv : s.Inv)
    (hadmits : s.Admits .execute) : (s.execute charSigned).Settled := by
  rcases hinv.logged with ⟨log, hlog⟩
  have hcase := body_cases charSigned s
  rw [execute]
  generalize body charSigned s.statement s = result at hcase ⊢
  have hother {statement : Statement} (hstatement : s.statement = statement)
      (hmay : ¬ statement.mayWantReset) : ¬ s.statement.mayWantReset := by
    rw [hstatement]
    exact hmay
  cases hcase with
  | saved hstatement => exact h.keep rfl (hother hstatement (by decide))
  | transmitted hstatement hrun =>
      rcases hlog.uartTxFromCircBuf with ⟨p', hrun', -, hworld⟩
      cases hrun.symm.trans hrun'
      exact h.keep (sameReset_of_world hworld).right
        (hother hstatement (by decide))
  | moved hstatement hrun =>
      rcases hlog.moveInput with ⟨p', hrun', -, hworld⟩
      cases hrun.symm.trans hrun'
      exact h.keep (sameReset_of_world hworld).right
        (hother hstatement (by decide))
  | received hstatement hrun =>
      intro hnot
      rw [hstatement] at hnot
      exact absurd (Or.inl rfl) hnot
  | @threw p e hstatement hrun =>
      have hflags := optionFlags_of_threw hinv (hadmits hstatement) hrun
      refine h.keep ?_ (hother hstatement (by decide))
      rw [wantsReset_eq, wantsReset_eq]
      exact congrArg (fun v : BitVec 32 => v.getLsbD 1) hflags
  | adcTimerSet hstatement =>
      intro hnot
      rw [hstatement] at hnot
      exact absurd (Or.inr rfl) hnot
  | dacDisabled hstatement hwants => exact fun _ => s.wantsReset_disableDac
  | dacKept hstatement hwants => exact fun _ => hwants
  | dacEnabled hstatement hexpired =>
      exact h.keep rfl (hother hstatement (by decide))
  | dacWaits hstatement hexpired =>
      exact h.keep rfl (hother hstatement (by decide))
  | started hstatement => exact h.keep rfl (hother hstatement (by decide))
  | notStarted hstatement => exact h.keep rfl (hother hstatement (by decide))
  | counted hstatement hready hrun =>
      exact h.keep (sameReset_counted hready hrun).right
        (hother hstatement (by decide))
  | sampled hstatement hready heos hrun =>
      exact h.keep (sameReset_sampled hready hrun).right
        (hother hstatement (by decide))
  | notStreamed hstatement => exact h.keep rfl (hother hstatement (by decide))

/-!
## Runs
-/

/-- The output converter is switched off and on as a reset has it, and by nothing
else. -/
def SwitchesDac (charSigned : Bool) (s : StmStreaming) : Event -> Prop
  | .execute => (s.execute charSigned).dacIsOn = true <-> s.DacAfter
  | event => (s.step charSigned event).dacIsOn = s.dacIsOn

theorem Resetting.tick (h : s.Resetting) : s.tick.Resetting := by
  have hdac : s.tick.dacIsOn = s.dacIsOn := rfl
  refine ⟨?_, ?_, ?_⟩
  · have hnext : clock (s.history.ticks + 1) =
        clock s.history.ticks + 1 := BitVec.ofNat_add _ _
    refine Eq.trans ?_ hnext.symm
    rw [← h.now_eq]
    exact word_setWord _ _ _ s
  · rw [hdac, h.dacIsOn_eq]
    rfl
  · rw [hdac]
    intro hoff
    rcases h.running hoff with ⟨t, ht, hle, htimer⟩
    exact ⟨t, ht, Nat.le_succ_of_le hle, htimer⟩

/-- What an event does to a reset. -/
theorem resets_step (h : s.Resetting ∧ s.Settled) (hinv : s.Inv)
    {event : Event} (hadmits : s.AdmitsInTime event) :
    s.SwitchesDac charSigned event ∧
      (s.step charSigned event).Resetting ∧
        (s.step charSigned event).Settled := by
  rcases h with ⟨hresetting, hsettled⟩
  cases event with
  | arrive b => exact ⟨rfl, { hresetting with }, hsettled⟩
  | ready => exact ⟨rfl, { hresetting with }, hsettled⟩
  | tick => exact ⟨rfl, hresetting.tick, hsettled⟩
  | converted v =>
      have hconverted : SameReset s (s.converted v) ∧
          (s.converted v).Settled := by
        rw [converted]
        split
        · split
          · exact ⟨⟨rfl, rfl, rfl, rfl, rfl⟩, hsettled⟩
          · exact ⟨⟨rfl, rfl, rfl, rfl, rfl⟩, hsettled⟩
        · exact ⟨⟨rfl, rfl, rfl, rfl, rfl⟩, hsettled⟩
      exact ⟨hconverted.left.dacIsOn_eq, hresetting.keep hconverted.left,
        hconverted.right⟩
  | pins v => exact ⟨rfl, { hresetting with }, hsettled⟩
  | execute =>
      rcases @resetting_execute charSigned s hresetting hinv hadmits with
        ⟨hdac, hnext⟩
      exact ⟨hdac, hnext, settled_execute hsettled hinv hadmits.left⟩

theorem AdmitsInTime.admits {event : Event} (h : s.AdmitsInTime event) :
    s.Admits event := by
  cases event with
  | execute => exact h.left
  | _ => trivial

/-- The host asks for a reset, half a second passes, and the loop goes round. -/
def oneReset : List Event :=
  arriving 'w' "0002,00000002".toList ++ List.replicate 500 .tick ++ laps 1

end StmStreaming
end AsciiSerialCom
