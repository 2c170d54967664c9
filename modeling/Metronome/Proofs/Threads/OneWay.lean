-- What no step takes back. A clock that was started stays started, one that
-- ticks no more stays quiet, and one that is stopped stays so and gets no
-- other scheduler thread.
import Metronome.Proofs.Threads.Sound

namespace Metronome

namespace Scene

variable {σ : Type} {behave : Behaviour σ} {base : RealTimeClock} {s t u : Scene σ}

/-- The way from one scene of a clock that was started to a later one. -/
structure OneWay (s t : Scene σ) : Prop where
  begun : t.clock.pacing.stage.isInitial = false
  ticking : t.clock.ticking = true → s.clock.ticking = true
  stopped : s.clock.pacing.stage = .stopped → t.clock.pacing.stage = .stopped
  spawned : s.clock.pacing.stage = .stopped → t.spawned = s.spawned

namespace OneWay

theorem refl (hb : s.clock.pacing.stage.isInitial = false) : OneWay s s :=
  ⟨hb, id, id, fun _ => rfl⟩

theorem trans (hst : OneWay s t) (htu : OneWay t u) : OneWay s u where
  begun := htu.begun
  ticking h := hst.ticking (htu.ticking h)
  stopped h := htu.stopped (hst.stopped h)
  spawned h := (htu.spawned (hst.stopped h)).trans (hst.spawned h)

/-- A step that leaves the clock as it is. -/
theorem of_same (hb : s.clock.pacing.stage.isInitial = false) (hc : t.clock = s.clock)
    (hsp : t.spawned = s.spawned) : OneWay s t := by
  refine ⟨?_, ?_, ?_, fun _ => hsp⟩ <;> rw [hc]
  · exact hb
  · exact id
  · exact id

theorem of_light (hb : s.clock.pacing.stage.isInitial = false)
    (hc : RealTimeClock.Light s.clock t.clock) (hsp : t.spawned = s.spawned) : OneWay s t :=
  ⟨hc.initial.trans hb, hc.ticking, hc.stopped.mpr, fun _ => hsp⟩

theorem quiet (h : OneWay s t) (hq : s.clock.ticking = false) : t.clock.ticking = false := by
  cases ht : t.clock.ticking with
  | false => rfl
  | true => rw [h.ticking ht] at hq; cases hq

end OneWay

theorem stopStep_oneWay {i : Nat} {x : Stop} (hb : s.clock.pacing.stage.isInitial = false)
    (hs : s.stopStep i x = some t) : OneWay s t := by
  have same {t : Scene σ} (hc : t.clock = s.clock) (hsp : t.spawned = s.spawned) : OneWay s t :=
    .of_same hb hc hsp
  obtain ⟨own, since, phase⟩ := x
  cases phase with
  | entering =>
    simp only [stopStep, RealTimeClock.retire] at hs
    cases hon : s.clock.pacing.stage.on .stop with
    | error e =>
      rw [hon] at hs
      cases hs
      exact same rfl rfl
    | ok next =>
      rw [hon] at hs
      cases hs
      obtain rfl : next = .stopped := by
        cases hst : s.clock.pacing.stage <;> rw [hst] at hon <;> cases hon <;> rfl
      exact ⟨rfl, id, fun _ => rfl, fun _ => rfl⟩
  | quieting =>
    cases hs
    exact ⟨hb, fun h => (by cases h), id, fun _ => rfl⟩
  | takingTask =>
    simp only [stopStep] at hs
    split at hs <;> cases hs <;> exact same rfl rfl
  | takingScheduler =>
    simp only [stopStep] at hs
    split at hs <;> cases hs
    · exact ⟨hb, id, id, fun _ => rfl⟩
    · exact same rfl rfl
  | unpinning sch again =>
    cases hs
    have hstage : (s.clock.unpin sch).pacing.stage = s.clock.pacing.stage := by
      unfold RealTimeClock.unpin
      split <;> rfl
    have hticking : (s.clock.unpin sch).ticking = s.clock.ticking := by
      unfold RealTimeClock.unpin
      split <;> rfl
    exact ⟨hstage ▸ hb, fun h => hticking ▸ h, fun h => hstage.trans h, fun _ => rfl⟩
  | joining sch =>
    simp only [stopStep] at hs
    split at hs <;> cases hs
    exact same rfl rfl
  | done => cases hs
  | refused e => cases hs
  | _ =>
    cases hs
    exact same rfl rfl

namespace Sound

/-- A step of a tick. -/
theorem tick_oneWay (h : Sound base s) (hb : behave.Public) (hpos : 0 < base.tickLength)
    (hbegun : s.clock.pacing.stage.isInitial = false) {thread : Thread} {d : Dispatch σ}
    (hd : d.Fits s.clock) {r : Dispatch σ ⊕ Except ClockError TickEnd}
    (hs : s.dispatchStep behave thread d = some (t, r)) : OneWay s t := by
  obtain ⟨hticks, -⟩ :=
    dispatchStep_comes hb thread hbegun (h.traced.tickLength ▸ hpos) h.traced.time hd hs
  exact .of_light hbegun hticks.light hticks.spawned

theorem workerStep_oneWay (h : Sound base s) (hb : behave.Public) (hpos : 0 < base.tickLength)
    (hbegun : s.clock.pacing.stage.isInitial = false) {due : Bool}
    (hs : s.workerStep behave due = some t) : OneWay s t := by
  unfold Scene.workerStep at hs
  split at hs
  · unfold Scene.dutyStep at hs
    cases hd : s.duty with
    | ticking d =>
      rw [hd] at hs
      dsimp only at hs
      rcases hstep : s.dispatchStep behave .scheduler d with _ | ⟨u, r⟩ <;> rw [hstep] at hs
      · cases hs
      obtain ⟨begun, ticking, stopped, spawned⟩ :=
        h.tick_oneWay hb hpos hbegun (h.traced.duty d hd) hstep
      rcases r with d' | e | o | o <;> cases hs <;> exact ⟨begun, ticking, stopped, spawned⟩
    | glancing =>
      rw [hd] at hs
      dsimp only at hs
      split at hs <;> cases hs <;> exact ⟨hbegun, id, id, fun _ => rfl⟩
    | checking =>
      rw [hd] at hs
      dsimp only at hs
      split at hs <;> cases hs <;> exact ⟨hbegun, id, id, fun _ => rfl⟩
    | minding =>
      rw [hd] at hs
      dsimp only at hs
      split at hs <;> cases hs <;> exact ⟨hbegun, id, id, fun _ => rfl⟩
  · obtain ⟨w, -, rfl⟩ := Option.map_eq_some_iff.mp hs
    exact .of_same hbegun rfl rfl

theorem scheduleStep_oneWay (hbegun : s.clock.pacing.stage.isInitial = false) :
    OneWay s s.scheduleStep := by
  unfold Scene.scheduleStep
  by_cases hrt : s.clock.pacing.stage = .realTimeRunning
  · rw [if_pos hrt]
    have hstopped : s.clock.pacing.stage ≠ .stopped := by rw [hrt]; nofun
    rcases RealTimeClock.schedule_cases s.clock with ⟨sch, pins, he⟩ | ⟨f, he, -⟩
    · simp only [he]
      split
      · refine ⟨?_, ?_, fun hst => absurd hst hstopped, fun hst => absurd hst hstopped⟩ <;>
          dsimp only <;> rw [filled_clock]
        · exact hbegun
        · exact id
      · refine ⟨?_, ?_, fun hst => absurd hst hstopped, fun hst => absurd hst hstopped⟩ <;>
          dsimp only <;> rw [filled_clock]
        · exact hbegun
        · exact id
    · simp only [he]
      exact .of_same hbegun rfl rfl
  · rw [if_neg hrt]
    exact .of_same hbegun rfl rfl

theorem mainStep_oneWay (h : Sound base s) (hb : behave.Public) (hpos : 0 < base.tickLength)
    (hbegun : s.clock.pacing.stage.isInitial = false) {alarm : Bool}
    (hs : s.mainStep behave alarm = some t) : OneWay s t := by
  have same {t : Scene σ} (hc : t.clock = s.clock) (hsp : t.spawned = s.spawned) : OneWay s t :=
    .of_same hbegun hc hsp
  have hx := h.traced.main
  unfold Explains at hx
  unfold Scene.mainStep at hs
  cases hm : s.main <;> rw [hm] at hs hx <;> dsimp only at hs hx
  case outside =>
    obtain ⟨e, he⟩ := RealTimeClock.launch_begun hbegun
    rw [he] at hs
    cases hs
    exact same rfl rfl
  case scheduling =>
    cases hs
    exact scheduleStep_oneWay hbegun
  case awaiting task =>
    unfold Scene.awaitStep at hs
    split at hs
    · cases hs
      exact same rfl rfl
    · cases hs
      exact same rfl rfl
    · cases hs
      exact same rfl rfl
    · split at hs <;> cases hs
      exact same rfl rfl
  case ticking d =>
    rcases hstep : s.dispatchStep behave .caller d with _ | ⟨u, r⟩ <;> rw [hstep] at hs
    · cases hs
    obtain ⟨begun, ticking, stopped, spawned⟩ := h.tick_oneWay hb hpos hbegun hx hstep
    rcases r with d' | e | o | o <;> cases hs <;> exact ⟨begun, ticking, stopped, spawned⟩
  case applying =>
    obtain ⟨c, hc, hg⟩ := RealTimeClock.applyPending_ok s.clock
    rw [hc] at hs
    cases hs
    exact .of_light hbegun (.of_grants hbegun hg) rfl
  case closing e =>
    cases hs
    rw [RealTimeClock.close_eq hbegun]
    exact ⟨rfl, id, fun _ => rfl, fun _ => rfl⟩
  case choosing => split at hs <;> cases hs <;> exact same rfl rfl
  case clearing e => cases e <;> cases hs <;> exact same rfl rfl
  case wishing => split at hs <;> cases hs <;> exact same rfl rfl
  case leaving i e =>
    split at hs <;> cases hs
    exact ⟨hbegun, id, id, fun _ => rfl⟩
  case finished ending => cases hs
  all_goals cases hs; exact same rfl rfl

theorem oneWay (h : Sound base s) (hb : behave.Public) (hpos : 0 < base.tickLength)
    (hbegun : s.clock.pacing.stage.isInitial = false) {a : Act} (hs : s.step behave a = some t) :
    OneWay s t := by
  cases a with
  | main alarm => exact h.mainStep_oneWay hb hpos hbegun hs
  | worker due => exact h.workerStep_oneWay hb hpos hbegun hs
  | stop i =>
    obtain ⟨x, -, hs⟩ := Option.bind_eq_some_iff.mp hs
    exact stopStep_oneWay hbegun hs
  | issue =>
    cases hs
    exact .of_same hbegun rfl rfl
  | call c =>
    simp only [Scene.step] at hs
    split at hs <;> cases hs
    rename_i hc
    exact .of_light hbegun (RealTimeClock.serve_light hc.1 hc.2.1 hc.2.2).1 rfl

theorem play_oneWay (h : Sound base s) (hb : behave.Public) (hpos : 0 < base.tickLength)
    (hbegun : s.clock.pacing.stage.isInitial = false) {acts : List Act}
    (hs : s.play behave acts = some t) : OneWay s t := by
  have hboth : Sound base t ∧ OneWay s t := by
    apply play_keeps _ ⟨h, .refl hbegun⟩ hs
    rintro u a v ⟨hsound, hway⟩ hv
    exact ⟨hsound.step hb hpos hv, hway.trans (hsound.oneWay hb hpos hway.begun hv)⟩
  exact hboth.2

end Sound

end Scene

end Metronome
