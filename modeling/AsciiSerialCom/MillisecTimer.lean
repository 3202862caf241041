import AsciiSerialCom.Foundation.ModularTime
import AsciiSerialCom.Foundation.Runs

/-!
# Millisecond timer

The timer of `millisec_timer.c`.  It keeps two readings of a 32 bit clock, the
time at which it was set and the time at which it expires, and is polled with a
third.  The one-shot timer is followed over any calls that set and poll it, the
repeating timer over any number of turns of the clock: its two readings remain
those of the current period.
-/

namespace AsciiSerialCom

open Foundation Run ModularTime

/-- A reading of the clock, as `millisec_timer_unit_t` stores it. -/
abbrev MillisecTimerUnit := BitVec 32

/-- `millisec_timer` -/
structure MillisecTimer where
  enabled : Bool
  setTime : MillisecTimerUnit
  expireTime : MillisecTimerUnit
deriving DecidableEq, Repr

namespace MillisecTimer

/-- `millisec_timer_set_rel`, which overwrites whatever the timer was. -/
def setRel (now rel : MillisecTimerUnit) : MillisecTimer :=
  { enabled := true
    setTime := now
    expireTime := now + rel }

/-- `millisec_timer_is_expired` -/
def isExpired (timer : MillisecTimer) (now : MillisecTimerUnit) :
    Bool × MillisecTimer :=
  if timer.enabled then
    if timer.expireTime = timer.setTime ∨
        (timer.expireTime > timer.setTime ∧
          (now >= timer.expireTime ∨ now < timer.setTime)) ∨
        (timer.expireTime < timer.setTime ∧ now >= timer.expireTime ∧
          now < timer.setTime) then
      (true, { timer with enabled := false })
    else
      (false, timer)
  else
    (false, timer)

/-- `millisec_timer_is_expired_repeat` -/
def isExpiredRepeat (timer : MillisecTimer) (now : MillisecTimerUnit) :
    Bool × MillisecTimer :=
  if timer.enabled then
    if timer.expireTime = timer.setTime then
      (true, timer)
    else if (timer.expireTime > timer.setTime ∧
          (now >= timer.expireTime ∨ now < timer.setTime)) ∨
        (timer.expireTime < timer.setTime ∧ now >= timer.expireTime ∧
          now < timer.setTime) then
      (true,
        { timer with
          expireTime := timer.expireTime + (timer.expireTime - timer.setTime)
          setTime := timer.expireTime })
    else
      (false, timer)
  else
    (false, timer)

/-!
## One poll

Both polls ask whether the expiry lies behind, as seen from the time of setting.
They differ in what they leave.
-/

variable {timer : MillisecTimer}

/-- The expiry time lies behind, as seen from the time of setting. -/
def Expired (timer : MillisecTimer) (now : MillisecTimerUnit) : Prop :=
  Reached timer.setTime timer.expireTime now

instance (timer : MillisecTimer) (now : MillisecTimerUnit) :
    Decidable (timer.Expired now) :=
  inferInstanceAs (Decidable (Reached _ _ _))

/-- The timer for the period after the current one. -/
def nextPeriod (timer : MillisecTimer) : MillisecTimer :=
  { timer with
    expireTime := timer.expireTime + (timer.expireTime - timer.setTime)
    setTime := timer.expireTime }

theorem isExpired_eq (h : timer.enabled = true) (now : MillisecTimerUnit) :
    timer.isExpired now =
      if timer.Expired now then (true, { timer with enabled := false })
      else (false, timer) := by
  rw [isExpired, if_pos h]
  exact if_congr (reached_iff_readings _ _ _).symm rfl rfl

/-- A period of length zero is over at once, and its successor is itself. -/
theorem nextPeriod_of_zero (h : timer.expireTime = timer.setTime) :
    timer.nextPeriod = timer := by
  cases timer with
  | mk enabled setTime expireTime =>
      change expireTime = setTime at h
      subst h
      simp [nextPeriod]

theorem isExpiredRepeat_eq (h : timer.enabled = true)
    (now : MillisecTimerUnit) :
    timer.isExpiredRepeat now =
      if timer.Expired now then (true, timer.nextPeriod)
      else (false, timer) := by
  have hreadings : timer.Expired now <-> _ := reached_iff_readings _ _ _
  rw [isExpiredRepeat, if_pos h]
  by_cases hzero : timer.expireTime = timer.setTime
  · rw [if_pos hzero, if_pos (hreadings.mpr (Or.inl hzero)),
      nextPeriod_of_zero hzero]
  · rw [if_neg hzero]
    refine if_congr ?_ rfl rfl
    rw [hreadings, or_iff_right hzero]

/-!
## Calls on a one-shot timer
-/

/-- A call on a one-shot timer. -/
inductive TimerOp where
  /-- `millisec_timer_set_rel` -/
  | setRel (now rel : MillisecTimerUnit)
  /-- `millisec_timer_is_expired` -/
  | isExpired (now : MillisecTimerUnit)
deriving DecidableEq, Repr

/-- A one-shot timer, with the time and the interval for which it was set last,
and whether a poll since then has returned true. -/
structure OneShot where
  timer : MillisecTimer
  setting : Option (MillisecTimerUnit × MillisecTimerUnit)
  fired : Bool

namespace OneShot

/-- Any timer, set or not. -/
def start (timer : MillisecTimer) : OneShot :=
  { timer := timer
    setting := none
    fired := false }

def step (p : OneShot) : TimerOp -> OneShot
  | .setRel now rel =>
      { timer := setRel now rel
        setting := some (now, rel)
        fired := false }
  | .isExpired now =>
      let (expired, timer) := p.timer.isExpired now
      { p with
        timer := timer
        fired := p.fired || expired }

/-- The readings are those of the latest setting, and the timer is enabled until
it fires. -/
def AsSet (p : OneShot) : Prop :=
  forall s r, p.setting = some (s, r) ->
    p.timer = { enabled := !p.fired, setTime := s, expireTime := s + r }

/-- What a poll at `now` comes to when the timer was set at `s` for `r`. -/
structure FiresOnce (p : OneShot) (s r now : MillisecTimerUnit) : Prop where
  fires : (p.timer.isExpired now).1 = true <->
    p.fired = false ∧ r <= now - s
  keeps : (p.timer.isExpired now).1 = false ->
    (p.timer.isExpired now).2 = p.timer
  silent : p.fired = true -> (p.timer.isExpired now).1 = false

/-- Every poll after a setting fires as it should. -/
def Exact (p : OneShot) : TimerOp -> Prop
  | .setRel _ _ => True
  | .isExpired now =>
      forall s r, p.setting = some (s, r) -> p.FiresOnce s r now

variable {p : OneShot} {s r : MillisecTimerUnit}

theorem AsSet.isExpired_eq (h : p.AsSet) (hsetting : p.setting = some (s, r))
    (now : MillisecTimerUnit) :
    p.timer.isExpired now =
      if p.fired = false ∧ r <= now - s then
        (true, { p.timer with enabled := false })
      else
        (false, p.timer) := by
  have htimer := h s r hsetting
  cases hfired : p.fired with
  | true =>
      have henabled : ¬ p.timer.enabled = true := by
        rw [htimer, hfired]
        exact Bool.false_ne_true
      rw [MillisecTimer.isExpired, if_neg henabled, if_neg (by simp)]
  | false =>
      have henabled : p.timer.enabled = true := by
        rw [htimer, hfired]
        rfl
      have hexpired : p.timer.Expired now <-> false = false ∧ r <= now - s := by
        rw [Expired, htimer, Reached, BitVec.add_comm, BitVec.add_sub_cancel]
        simp
      rw [MillisecTimer.isExpired_eq henabled]
      exact if_congr hexpired rfl rfl

theorem AsSet.firesOnce (h : p.AsSet) (hsetting : p.setting = some (s, r))
    (now : MillisecTimerUnit) : p.FiresOnce s r now := by
  have hpoll := h.isExpired_eq hsetting now
  by_cases hdue : p.fired = false ∧ r <= now - s
  · rw [if_pos hdue] at hpoll
    refine ⟨iff_of_true (by rw [hpoll]) hdue, ?_, ?_⟩
    · intro hfalse
      rw [hpoll] at hfalse
      cases hfalse
    · intro hfired
      rw [hdue.left] at hfired
      cases hfired
  · rw [if_neg hdue] at hpoll
    refine ⟨iff_of_false (by rw [hpoll]; exact Bool.false_ne_true) hdue, ?_, ?_⟩
    · intro _
      rw [hpoll]
    · intro _
      rw [hpoll]

theorem AsSet.step (h : p.AsSet) (op : TimerOp) : (p.step op).AsSet := by
  cases op with
  | setRel now rel =>
      intro s r hsetting
      cases hsetting
      rfl
  | isExpired now =>
      intro s r hsetting
      have hpoll := h.isExpired_eq hsetting now
      have htimer := h s r hsetting
      simp only [OneShot.step, hpoll]
      by_cases hdue : p.fired = false ∧ r <= now - s
      · rw [if_pos hdue]
        simp only [htimer, hdue.left]
        rfl
      · rw [if_neg hdue]
        simp only [Bool.or_false]
        exact htimer

theorem asSet_start (timer : MillisecTimer) : (start timer).AsSet := by
  intro s r hsetting
  cases hsetting

/-- **The one-shot timer fires exactly once**, at the first poll for which its
interval is over. -/
theorem exact_of_run (timer : MillisecTimer) (ops : List TimerOp) :
    Allowed step Exact (start timer) ops := by
  refine allowed_of_invariant ?_ (asSet_start timer) ops
  intro p op h
  refine ⟨?_, h.step op⟩
  cases op with
  | setRel now rel => trivial
  | isExpired now => exact fun s r hsetting => h.firesOnce hsetting now

end OneShot

/-!
## Polls of a repeating timer
-/

/-- The true time `t`, as the clock shows it. -/
def clock (t : Nat) : MillisecTimerUnit := BitVec.ofNat 32 t

/-- A repeating timer on its way, with the number of polls that returned true
and the true time of the last poll. -/
structure Repeating where
  timer : MillisecTimer
  expiries : Nat
  now : Nat

namespace Repeating

/-- A timer that has just been set at true time `s` for the interval `r`. -/
def start (s r : Nat) : Repeating :=
  { timer := setRel (clock s) (BitVec.ofNat 32 r)
    expiries := 0
    now := s }

/-- The timer is polled at true time `t`. -/
def poll (p : Repeating) (t : Nat) : Repeating :=
  let (expired, timer) := p.timer.isExpiredRepeat (clock t)
  { timer := timer
    expiries := if expired then p.expiries + 1 else p.expiries
    now := t }

variable (s r : Nat)

/-- The polls come in time: not before the last one, and not a whole turn of
the clock after the current period has begun. -/
def InTime (p : Repeating) (t : Nat) : Prop :=
  p.now <= t ∧ t < s + p.expiries * r + 2 ^ 32

instance (p : Repeating) (t : Nat) : Decidable (InTime s r p t) :=
  inferInstanceAs (Decidable (_ ∧ _))

/-- The timer is set for the period that follows the expiries so far. -/
structure OnSchedule (p : Repeating) : Prop where
  enabled : p.timer.enabled = true
  setTime : p.timer.setTime = clock (s + p.expiries * r)
  expireTime : p.timer.expireTime = clock (s + (p.expiries + 1) * r)
  begun : s + p.expiries * r <= p.now

variable {s r} {p : Repeating}

theorem onSchedule_start : OnSchedule s r (start s r) := by
  refine ⟨rfl, ?_, ?_, ?_⟩
  · simp [start, setRel]
  · simp [start, setRel, clock, BitVec.ofNat_add]
  · simp [start]

/-- In time, the poll sees that the period is over exactly if it is. -/
theorem OnSchedule.expired_iff (h : OnSchedule s r p) (hr : r < 2 ^ 32)
    {t : Nat} (ht : InTime s r p t) :
    p.timer.Expired (clock t) <-> s + (p.expiries + 1) * r <= t := by
  have hnext : s + (p.expiries + 1) * r = s + p.expiries * r + r := by
    rw [Nat.succ_mul, Nat.add_assoc]
  rw [Expired, h.setTime, h.expireTime]
  exact reached_ofNat (by omega) (by omega) (Nat.le_trans h.begun ht.left)
    ht.right

theorem OnSchedule.poll_eq (h : OnSchedule s r p) (hr : r < 2 ^ 32) {t : Nat}
    (ht : InTime s r p t) :
    p.poll t =
      if s + (p.expiries + 1) * r <= t then
        { timer := p.timer.nextPeriod
          expiries := p.expiries + 1
          now := t }
      else
        { p with now := t } := by
  rw [poll, isExpiredRepeat_eq h.enabled]
  by_cases hover : s + (p.expiries + 1) * r <= t
  · rw [if_pos hover, if_pos ((h.expired_iff hr ht).mpr hover)]
    rfl
  · rw [if_neg hover, if_neg (mt (h.expired_iff hr ht).mp hover)]
    rfl

theorem OnSchedule.poll (h : OnSchedule s r p) (hr : r < 2 ^ 32) {t : Nat}
    (ht : InTime s r p t) : OnSchedule s r (p.poll t) := by
  rw [h.poll_eq hr ht]
  split
  · rename_i hover
    refine ⟨h.enabled, h.expireTime, ?_, hover⟩
    -- the two readings differ by the interval, whatever turns lie between
    have hinterval : p.timer.expireTime - p.timer.setTime =
        BitVec.ofNat 32 r := by
      rw [h.expireTime, h.setTime, clock, clock, Nat.succ_mul, ← Nat.add_assoc,
        BitVec.ofNat_add _ r, BitVec.add_comm, BitVec.add_sub_cancel]
    change p.timer.expireTime + (p.timer.expireTime - p.timer.setTime) = _
    rw [hinterval, h.expireTime, clock, clock, ← BitVec.ofNat_add,
      Nat.succ_mul (p.expiries + 1), Nat.add_assoc]
  · exact ⟨h.enabled, h.setTime, h.expireTime, Nat.le_trans h.begun ht.left⟩

/-- A poll counts the next period that is over, and no other. -/
theorem OnSchedule.expiries_poll (h : OnSchedule s r p) (hpos : 0 < r)
    (hr : r < 2 ^ 32) {t : Nat} (ht : InTime s r p t) :
    (p.poll t).expiries = min (p.expiries + 1) ((t - s) / r) := by
  have hbegun : s + p.expiries * r <= t := Nat.le_trans h.begun ht.left
  have hle : p.expiries <= (t - s) / r :=
    (Nat.le_div_iff_mul_le hpos).mpr (by omega)
  rw [h.poll_eq hr ht]
  split
  · rename_i hover
    have hnext : p.expiries + 1 <= (t - s) / r :=
      (Nat.le_div_iff_mul_le hpos).mpr (by omega)
    exact (Nat.min_eq_left hnext).symm
  · rename_i hover
    have hnext : ¬ p.expiries + 1 <= (t - s) / r := by
      rw [Nat.le_div_iff_mul_le hpos]
      omega
    change p.expiries = _
    omega

/-- What holds when a repeating timer is polled at true time `t`: its readings
are those of the current period, it expires exactly if that period is over, and
it counts one period a poll until none is left. -/
structure Punctual (s r : Nat) (p : Repeating) (t : Nat) : Prop where
  setTime : p.timer.setTime = clock (s + p.expiries * r)
  expireTime : p.timer.expireTime = clock (s + (p.expiries + 1) * r)
  expires : (p.timer.isExpiredRepeat (clock t)).1 = true <->
    s + (p.expiries + 1) * r <= t
  expiries : (p.poll t).expiries = min (p.expiries + 1) ((t - s) / r)

theorem OnSchedule.punctual (h : OnSchedule s r p) (hpos : 0 < r)
    (hr : r < 2 ^ 32) {t : Nat} (ht : InTime s r p t) : Punctual s r p t := by
  refine ⟨h.setTime, h.expireTime, ?_, h.expiries_poll hpos hr ht⟩
  rw [← h.expired_iff hr ht, isExpiredRepeat_eq h.enabled]
  split <;> simp_all

/-- **The repeating timer never drifts**, however often the clock turns. -/
theorem punctual_of_run (hpos : 0 < r) (hr : r < 2 ^ 32) {ts : List Nat}
    (h : Allowed poll (InTime s r) (start s r) ts) :
    Allowed poll (Punctual s r) (start s r) ts ∧
      forall t, (run poll (start s r) ts).now <= t ->
        (run poll (start s r) ts).expiries <= (t - s) / r := by
  have hstep (p : Repeating) (t : Nat) (hp : OnSchedule s r p)
      (ht : InTime s r p t) :
      Punctual s r p t ∧ OnSchedule s r (p.poll t) :=
    ⟨hp.punctual hpos hr ht, hp.poll hr ht⟩
  refine ⟨h.imp hstep onSchedule_start, ?_⟩
  intro t ht
  have hbegun := (h.invariant (fun p t hp hin => (hstep p t hp hin).right)
    onSchedule_start).begun
  exact (Nat.le_div_iff_mul_le hpos).mpr (by omega)

/-- Two late polls, an interval of nearly one turn, and a clock that turns in
between. -/
theorem punctual_of_run_late :
    Allowed poll (Punctual 7 (2 ^ 32 - 2)) (start 7 (2 ^ 32 - 2))
      [8, 2 ^ 32 + 6, 2 * 2 ^ 32 + 4, 2 * 2 ^ 32 + 4] :=
  (punctual_of_run (by decide) (by decide) (by decide +kernel)).left

end Repeating
end MillisecTimer
end AsciiSerialCom
