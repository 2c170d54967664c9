-- What a blueprint becomes. The check of its settings names the first thing
-- that they lack, and settings that lack nothing always become a clock.
import Metronome.Blueprint

namespace Metronome

/-! ## The parts of a clock -/

/-- An amount that is not negative has its nanoseconds unless they are too many. -/
theorem TimeUnit.toNanos?_eq (u : TimeUnit) {amount : Int} (h : 0 ≤ amount) :
    u.toNanos? amount =
      if amount * u.nanos ≤ Unsigned.greatest then some (amount * u.nanos).toNat else none := by
  have hnat : (amount * u.nanos).toNat = amount.toNat * u.nanos := by
    rw [Int.toNat_mul h (Int.natCast_nonneg _), Int.toNat_natCast]
  have hfits : Unsigned.Fits (amount.toNat * u.nanos) ↔ amount * u.nanos ≤ Unsigned.greatest := by
    rw [← hnat]
    exact Int.toNat_le
  rw [toNanos?, if_neg (Int.not_lt.mpr h), hnat]
  simp only [hfits]

/-- Every mode but one has a stage to begin in. -/
theorem Stage.exists_initial {m : Mode} (h : m ≠ .stopped) :
    ∃ stage, initial? m = some stage ∧ stage.isInitial = true ∧ stage.mode = m := by
  cases m with
  | realTime => exact ⟨.initRealTime, rfl, rfl, rfl⟩
  | simulated => exact ⟨.initSimulated, rfl, rfl, rfl⟩
  | stopped => exact absurd rfl h

/-- What the check of the settings says of those of the scheduler. -/
theorem SchedulerSettings.mapError_check (s : SchedulerSettings) :
    s.check.mapError ClockError.settings =
      if s.awaitPollMillis = 0 then .error (.settings .noAwaitPoll)
      else if s.maxStamps < 2 then .error (.settings .tooFewStamps)
      else .ok () := by
  unfold check
  split
  · rfl
  · split <;> rfl

/-! ## Settings that lack nothing -/

namespace Settings

variable {s : Settings}

/-- All that a clock needs of its settings. -/
structure Valid (s : Settings) : Prop where
  tickLength : 1 ≤ s.tickLength
  mode : s.startingMode ≠ .stopped
  period : s.tickLength * s.unit.nanos ≤ Unsigned.greatest
  poll : 0 < s.scheduler.awaitPollMillis
  stamps : 2 ≤ s.scheduler.maxStamps

/-- What is looked for, one after the other, and what is said if it is not there. -/
def demands (s : Settings) : List (Bool × ClockError) :=
  [(1 ≤ s.tickLength, .invalidTickLength s.tickLength),
    (s.startingMode ≠ .stopped, .unsupportedStartMode s.startingMode),
    (s.tickLength * s.unit.nanos ≤ Unsigned.greatest,
      .settings (.tickTooLong s.tickLength s.unit)),
    (0 < s.scheduler.awaitPollMillis, .settings .noAwaitPoll),
    (2 ≤ s.scheduler.maxStamps, .settings .tooFewStamps)]

/-- The first demand that is not met. -/
def unmet? (s : Settings) : Option ClockError := (s.demands.find? (!·.1)).map (·.2)

/-- How long a tick is. -/
def period (s : Settings) : Duration := ⟨(s.tickLength * s.unit.nanos).toNat⟩

theorem valid_iff : s.Valid ↔ ∀ d ∈ s.demands, d.1 = true := by
  simp only [demands, List.forall_mem_cons, decide_eq_true_eq, List.not_mem_nil, false_implies,
    implies_true, and_true]
  exact ⟨fun h => ⟨h.tickLength, h.mode, h.period, h.poll, h.stamps⟩,
    fun ⟨hl, hm, hp, hw, hs⟩ => ⟨hl, hm, hp, hw, hs⟩⟩

instance (s : Settings) : Decidable s.Valid := decidable_of_iff _ valid_iff.symm

theorem unmet?_eq_none_iff : s.unmet? = none ↔ s.Valid := by
  simp [unmet?, valid_iff]

/-- The check ends with the first demand that is not met. -/
theorem check_eq (s : Settings) : s.check = s.unmet?.elim (.ok ()) .error := by
  unfold check unmet? demands
  by_cases hlength : 1 ≤ s.tickLength
  case neg => simp [hlength, show s.tickLength ≤ 0 by omega]
  rw [if_neg (Int.not_le.mpr hlength), TimeUnit.toNanos?_eq _ (by omega),
    SchedulerSettings.mapError_check]
  by_cases hmode : s.startingMode = .stopped
  case pos => simp [hlength, hmode]
  by_cases hperiod : s.tickLength * s.unit.nanos ≤ Unsigned.greatest
  case neg => simp [hlength, hmode, hperiod]
  by_cases hpoll : 0 < s.scheduler.awaitPollMillis
  case neg => simp [hlength, hmode, hperiod, Nat.eq_zero_of_not_pos hpoll]
  have hpoll' : s.scheduler.awaitPollMillis ≠ 0 := Nat.ne_of_gt hpoll
  by_cases hstamps : 2 ≤ s.scheduler.maxStamps
  · simp [hlength, hmode, hperiod, hpoll, hpoll', hstamps, Nat.not_lt.mpr hstamps]
  · simp [hlength, hmode, hperiod, hpoll, hpoll', hstamps, Nat.not_le.mp hstamps]

theorem check_eq_ok_iff : s.check = .ok () ↔ s.Valid := by
  rw [check_eq, ← unmet?_eq_none_iff]
  cases s.unmet? <;> simp

theorem check_eq_error_iff {e : ClockError} : s.check = .error e ↔ s.unmet? = some e := by
  rw [check_eq]
  cases s.unmet? <;> simp

theorem Valid.period_nanos (h : s.Valid) : (s.period.nanos : Int) = s.tickLength * s.unit.nanos :=
  Int.toNat_of_nonneg (Int.mul_nonneg (by have := h.tickLength; omega) (Int.natCast_nonneg _))

theorem Valid.tickDuration (h : s.Valid) : s.tickDuration? = some s.period := by
  have hlength := h.tickLength
  rw [tickDuration?, TimeUnit.toDuration?, TimeUnit.toNanos?_eq _ (by omega), if_pos h.period]
  rfl

end Settings

/-! ## Clocks -/

variable {b : Blueprint} {openLog : PauseSettings → Pause.Source} {watch : Nat → Reading}

/-- Settings that lack nothing have a stage to begin in and a period, and so no later check
fails. -/
theorem RealTimeClock.ofSettings_of_valid {s : Settings} (h : s.Valid) (pins : Pins)
    (pauses : Pause.Source) (watch : Nat → Reading) :
    ∃ stage : Stage, stage.isInitial = true ∧ stage.mode = s.startingMode ∧
      ofSettings s pins pauses watch = .ok (make s stage s.period pins pauses watch) := by
  obtain ⟨stage, hstage, hinitial, hmode⟩ := Stage.exists_initial h.mode
  refine ⟨stage, hinitial, hmode, ?_⟩
  simp [ofSettings, Settings.check_eq_ok_iff.mpr h, hstage, h.tickDuration, bind, Except.bind, pure,
    Except.pure]

namespace Blueprint

theorem buildSimulated_of_valid (h : b.settings.Valid) :
    b.buildSimulated = .ok (.make b.settings.tickLength b.settings.unit) := by
  rw [buildSimulated, Settings.check_eq_ok_iff.mpr h]
  rfl

theorem buildSimulated_of_error {e : ClockError} (h : b.settings.check = .error e) :
    b.buildSimulated = .error e := by
  rw [buildSimulated, h]
  rfl

/-- A blueprint becomes a real-time clock that begins in the mode of its settings. -/
theorem built_of_valid (h : b.settings.Valid) (openLog : PauseSettings → Pause.Source)
    (watch : Nat → Reading) :
    ∃ stage : Stage, stage.isInitial = true ∧ stage.mode = b.settings.startingMode ∧
      b.buildRealTime openLog watch =
        .ok (.make b.settings stage b.settings.period b.pins (b.source openLog) watch) := by
  obtain ⟨stage, hinitial, hmode, hmake⟩ :=
    RealTimeClock.ofSettings_of_valid h b.pins (b.source openLog) watch
  refine ⟨stage, hinitial, hmode, ?_⟩
  rw [buildRealTime, Settings.check_eq_ok_iff.mpr h]
  exact hmake

theorem buildRealTime_of_error {e : ClockError} (h : b.settings.check = .error e)
    (openLog : PauseSettings → Pause.Source) (watch : Nat → Reading) :
    b.buildRealTime openLog watch = .error e := by
  rw [buildRealTime, h]
  rfl

theorem valid_of_built {c : RealTimeClock} (h : b.buildRealTime openLog watch = .ok c) :
    b.settings.Valid := by
  rw [← Settings.check_eq_ok_iff]
  rcases hcheck : b.settings.check with e | u
  · rw [buildRealTime_of_error hcheck] at h
    cases h
  · rfl

end Blueprint

end Metronome
