-- Clocks that were built. A blueprint is built exactly if its settings lack
-- nothing, whatever becomes of the log of its pauses, and its real-time clock
-- always finds room for one more stamp.
import Metronome.Pause.Monitor
import Metronome.Proofs.Threads.Stamps

namespace Metronome

/-! ## Room for one more stamp -/

namespace RealTimeClock

/-- The stamp of the tick that is about to run. -/
def nextStamp (c : RealTimeClock) : Stamp :=
  let reading := c.pacing.watch c.pacing.readings
  ⟨c.pacing.counter, reading.wallMillis, reading.nanos⟩

/-- Stamps make room one by one, and then the new one comes in. -/
theorem stamp_stamps {c : RealTimeClock} {kept : List Stamp}
    (h : MakesRoom c.pacing.settings.maxStamps c.pacing.stamps kept) :
    c.stamp.pacing.stamps = kept ++ [c.nextStamp] := by
  obtain ⟨hpos, rfl⟩ := makesRoom_iff.mp h
  rw [← keepLast_concat, Nat.sub_add_cancel hpos]
  rfl

end RealTimeClock

/-! ## Every blueprint -/

namespace Blueprint

variable {σ : Type} {b : Blueprint} {openLog : PauseSettings → Pause.Source} {watch : Nat → Reading}

/-- What is built if a check passes, and fails as the check fails, is built exactly if it passes. -/
theorem fails_alike {α : Type} {built : Except ClockError α} {check : Except ClockError Unit}
    (hok : check = .ok () → ∃ c, built = .ok c)
    (herror : ∀ e, check = .error e → built = .error e) :
    ((∃ c, built = .ok c) ↔ check = .ok ()) ∧ ∀ e, built = .error e ↔ check = .error e := by
  rcases check with e | u
  · simp [herror e rfl]
  · obtain ⟨c, hc⟩ := hok rfl
    simp [hc]

theorem simulated_fails_alike (b : Blueprint) :
    ((∃ c, b.buildSimulated = .ok c) ↔ b.settings.check = .ok ()) ∧
      ∀ e, b.buildSimulated = .error e ↔ b.settings.check = .error e := by
  refine fails_alike (fun h => ?_) fun e h => buildSimulated_of_error h
  exact ⟨_, buildSimulated_of_valid (Settings.check_eq_ok_iff.mp h)⟩

theorem realTime_fails_alike (b : Blueprint) (openLog : PauseSettings → Pause.Source)
    (watch : Nat → Reading) :
    ((∃ c, b.buildRealTime openLog watch = .ok c) ↔ b.settings.check = .ok ()) ∧
      ∀ e, b.buildRealTime openLog watch = .error e ↔ b.settings.check = .error e := by
  refine fails_alike (fun h => ?_) fun e h => buildRealTime_of_error h openLog watch
  obtain ⟨stage, -, -, hbuilt⟩ :=
    built_of_valid (Settings.check_eq_ok_iff.mp h) openLog watch
  exact ⟨_, hbuilt⟩

/-- What was built has the period of its settings, and the source of its pauses. -/
theorem parts_of_built {c : RealTimeClock} (h : b.buildRealTime openLog watch = .ok c) :
    c.pacing.period = b.settings.period ∧ c.pacing.pauses = b.source openLog := by
  obtain ⟨stage, -, -, hbuilt⟩ := built_of_valid (valid_of_built h) openLog watch
  rw [hbuilt] at h
  cases h
  exact ⟨rfl, rfl⟩

/-- A log that cannot be followed is as good as none. -/
theorem source_of_problem {disk : String → Pause.Disk} {problem : Pause.MonitorError}
    (hnone : b.pauses = none) (h : Pause.Monitor.start b.settings.pauses disk = .error problem)
    (told : Pause.Monitor → Pause.Source) :
    b.source (fun p => (Pause.Monitor.ofSettings p disk).elim .silent told) = .silent := by
  simp only [source, hnone, Pause.Monitor.ofSettings, h, Except.toOption, Option.elim_none,
    ite_self]

/-- In all that may happen to a clock that was built, there is room for two stamps. -/
theorem room_of_built {c : RealTimeClock} (h : b.buildRealTime openLog watch = .ok c)
    {behave : Behaviour σ} (hb : behave.Public) {world : σ} {acts : List Act} {s : Scene σ}
    (hs : (Scene.opening c world).play behave acts = some s) :
    2 ≤ s.clock.pacing.settings.maxStamps := by
  have hrest := RealTimeClock.rested_of_built h
  have hsound := (Scene.sound_opening hrest world).play hb hrest.tickLength hs
  obtain ⟨m, hm, hbook⟩ := RealTimeClock.book_of_built h
  have hroom : c.pacing.settings.maxStamps = m := congrArg Book.room hbook
  rw [hsound.owned.settings, hroom]
  exact hm

/-- A blueprint becomes a clock of either kind exactly if its settings pass, and what it says
otherwise is what the check says, which is the first thing that they lack. A pause log that cannot
be followed only makes the clock hear of no pause. The checks behind the first one never fail, the
clock has the period of its settings, and whatever is asked of it, its stamps make room in the
end. -/
theorem a_blueprint_is_built_exactly_if_its_settings_pass (b : Blueprint)
    (openLog : PauseSettings → Pause.Source) (watch : Nat → Reading) :
    (b.settings.check = .ok () ↔ b.settings.Valid) ∧
      (∀ e, b.settings.check = .error e ↔ b.settings.unmet? = some e) ∧
      ((∃ c, b.buildSimulated = .ok c) ↔ b.settings.check = .ok ()) ∧
      (∀ e, b.buildSimulated = .error e ↔ b.settings.check = .error e) ∧
      ((∃ c, b.buildRealTime openLog watch = .ok c) ↔ b.settings.check = .ok ()) ∧
      (∀ e, b.buildRealTime openLog watch = .error e ↔ b.settings.check = .error e) ∧
      (b.settings.check = .ok () → ∀ pins pauses,
        ∃ c, RealTimeClock.ofSettings b.settings pins pauses watch = .ok c) ∧
      (∀ disk (told : Pause.Monitor → Pause.Source) problem, b.pauses = none →
        Pause.Monitor.start b.settings.pauses disk = .error problem →
        ∀ c, b.buildRealTime (fun p => (Pause.Monitor.ofSettings p disk).elim .silent told) watch =
          .ok c → c.pacing.pauses = .silent) ∧
      ∀ c, b.buildRealTime openLog watch = .ok c →
        c.pacing.period.nanos = b.settings.tickLength * b.settings.unit.nanos ∧
        ∀ {σ : Type} {behave : Behaviour σ} {world : σ} {acts : List Act} {s : Scene σ},
          behave.Public → (Scene.opening c world).play behave acts = some s →
          ∃ kept, MakesRoom s.clock.pacing.settings.maxStamps s.clock.pacing.stamps kept ∧
            s.clock.stamp.pacing.stamps = kept ++ [s.clock.nextStamp] := by
  obtain ⟨hsimulated, hsimulated'⟩ := b.simulated_fails_alike
  obtain ⟨hrealTime, hrealTime'⟩ := b.realTime_fails_alike openLog watch
  refine ⟨Settings.check_eq_ok_iff, fun e => Settings.check_eq_error_iff, hsimulated, hsimulated',
    hrealTime, hrealTime', ?later, ?pauses, fun c hc => ⟨?period, ?room⟩⟩
  case later =>
    intro h pins pauses
    obtain ⟨stage, -, -, hmake⟩ :=
      RealTimeClock.ofSettings_of_valid (Settings.check_eq_ok_iff.mp h) pins pauses watch
    exact ⟨_, hmake⟩
  case pauses =>
    intro disk told problem hnone hstart c hc
    rw [(parts_of_built hc).2, source_of_problem hnone hstart told]
  case period =>
    rw [(parts_of_built hc).1]
    exact (valid_of_built hc).period_nanos
  case room =>
    intro σ behave world acts s hb hs
    have hroom := room_of_built hc hb hs
    have hmade := makesRoom_keepLast (Nat.zero_lt_of_lt hroom) s.clock.pacing.stamps
    exact ⟨_, hmade, RealTimeClock.stamp_stamps hmade⟩

open Scene in
/-- A clock with room for three stamps, which has gone through a detour, has to lose one of them. -/
theorem a_blueprint_with_room_for_three_is_built :
    let b : Blueprint := { settings := { scheduler := { maxStamps := 3 } } }
    ∃ c s, b.buildRealTime (fun _ => .silent) (fun n => ⟨n, 10 * n⟩) = .ok c ∧
      c.pacing.period.nanos = (1000 * 1000000 : Int) ∧ undecided.Public ∧
      (opening c 0).play undecided (.call (.register "a") :: detour) = some s ∧
      s.clock.pacing.stamps = [⟨1, 1, 10⟩, ⟨0, 2, 20⟩, ⟨1, 3, 30⟩] ∧
      MakesRoom 3 s.clock.pacing.stamps [⟨0, 2, 20⟩, ⟨1, 3, 30⟩] := by
  have hbuilt : ({ settings := { scheduler := { maxStamps := 3 } } } : Blueprint).buildRealTime
      (fun _ => .silent) (fun n => ⟨n, 10 * n⟩) = .ok { forgetful with roster := {} } := rfl
  have hplay : (((opening { forgetful with roster := {} } 0).play undecided
      (.call (.register "a") :: detour)).map fun s =>
        (s.clock.pacing.settings.maxStamps, s.clock.pacing.stamps)) =
      some (3, [⟨1, 1, 10⟩, ⟨0, 2, 20⟩, ⟨1, 3, 30⟩]) := by decide +kernel
  obtain ⟨s, hs, hseen⟩ := Option.map_eq_some_iff.mp hplay
  obtain ⟨hroom, hstamps⟩ := Prod.mk.inj hseen
  obtain ⟨-, -, -, -, -, -, -, -, hclock⟩ :=
    a_blueprint_is_built_exactly_if_its_settings_pass _ _ _
  obtain ⟨hperiod, hmakes⟩ := hclock _ hbuilt
  obtain ⟨kept, hkept, -⟩ := hmakes undecided_public hs
  rw [hroom] at hkept
  obtain ⟨-, rfl⟩ := makesRoom_iff.mp hkept
  refine ⟨_, s, hbuilt, hperiod, undecided_public, hs, hstamps, ?_⟩
  rw [hstamps] at hkept ⊢
  exact hkept

end Blueprint

end Metronome
