-- Pacing never changes the simulation. A real-time clock and a simulated
-- clock with the same ticks and the same listeners call the same callbacks,
-- stop at the same time and end with the same result, whatever changes of
-- pace come on the way.
import Metronome.Proofs.Alike
import Metronome.Proofs.RealTime.Release

namespace Metronome

variable {σ : Type} {base c d : RealTimeClock} {s : SimulatedClock}

theorem Alike.ticksLeft (h : Alike c s) : s.ticksLeft = c.ticksLeft := by
  unfold Clock.ticksLeft
  rw [h.time, h.tickLength]

theorem Alike.grants (h : Alike c s) (g : RealTimeClock.Grants c d) : Alike d s :=
  h.of_eq (by rw [g.stage, RealTimeClock.grantedStage_isInitial, h.begun]) g.tickLength g.unit
    g.time g.ticking g.interrupted g.roster g.budget g.dispatching

namespace SimulatedClock

/-- A tick that is written down. -/
def chronicled (behave : Behaviour σ) : Ticker Unit (σ × Chronicle) :=
  Clock.chronicled serve behave .caller

/-- What a start tells, from its first tick to its last callback. -/
def chronicle (behave : Behaviour σ) (st : SimulatedClock × σ) : Chronicle :=
  (start (chronicled behave) (st.1, (st.2, []))).1.2.2

end SimulatedClock

namespace RealTimeClock

/-! ## Ticks of both clocks -/

/-- The ticks `T` of a real-time clock and the ticks `t` of a simulated clock do the same to
alike clocks. -/
structure Twins (base : RealTimeClock) (T : Tickers σ) (t : Ticker Unit σ) : Prop where
  tick : ∀ {c : RealTimeClock} {s : SimulatedClock}, Ready base c → Alike c s →
    ∀ (thread : Thread) (world : σ), ∃ d s' world' r,
      T thread (c, world) = ((d, world'), r) ∧ t (s, world) = ((s', world'), r) ∧
      Ready base d ∧ Alike d s' ∧
      ∀ o, r = .ok o → s'.ticksLeft + 1 = s.ticksLeft ∧ (o = .interrupted → s'.ticking = false)

variable {behave : Behaviour σ}

theorem twins_dispatch (hb : behave.Paceless) (hL : 0 < base.tickLength) :
    Twins base (dispatch behave) (SimulatedClock.dispatch behave) := by
  refine ⟨fun {c s} hready h thread world => ?_⟩
  obtain ⟨d, s', world', r, hd, hs', halike⟩ := h.tick hb thread world
  obtain ⟨hready', hok⟩ := hready.tick hb.isPublic hL thread world
  have hd' : dispatch behave thread (c, world) = ((d, world'), r) := hd
  rw [hd'] at hready' hok
  refine ⟨d, s', world', r, hd, hs', hready', halike, ?_⟩
  intro o ho
  obtain ⟨htime, hfit, hint⟩ := hok o ho
  have hlen := hready.steady.tickLength
  have hticks := Clock.ticksLeft_of_fits (hlen ▸ hL) (hready'.steady.tickLength.trans hlen.symm)
    (hlen ▸ htime) (htime ▸ hfit)
  rw [halike.ticksLeft, h.ticksLeft, halike.ticking]
  exact ⟨hticks, hint⟩

/-- Both clocks write down the same times. -/
theorem twins_chronicled (hb : behave.Paceless) (hL : 0 < base.tickLength) :
    Twins base (chronicled behave) (SimulatedClock.chronicled behave) := by
  refine ⟨fun {c s} hready h thread ⟨world, l⟩ => ?_⟩
  have htwins := (twins_dispatch hb.noted hL).tick hready h thread (world, l ++ [.asked c.time])
  obtain ⟨d, s', world', r, hd, hs', hrest⟩ := htwins
  refine ⟨d, s', world', r, hd, ?_, hrest⟩
  rw [← h.time] at hs'
  exact hs'

/-! ## Steps of both clocks -/

/-- What a step of a real-time run is for the simulated clock. -/
inductive Echo (base : RealTimeClock) (t : Ticker Unit σ) (s : SimulatedClock) (world : σ) :
    (RealTimeClock × σ) × (Leg ⊕ Ending) → Prop
  /-- Nothing at all. -/
  | silent {d : RealTimeClock} {leg : Leg} :
      Ready base d → Alike d s → Echo base t s world ((d, world), .inl leg)
  | ticked {d : RealTimeClock} {leg : Leg} {s' : SimulatedClock} {world' : σ} {o : TickEnd} :
      Ready base d → Alike d s' → s.ticking = true → t (s, world) = ((s', world'), .ok o) →
      s'.ticksLeft + 1 = s.ticksLeft → (o = .interrupted → s'.ticking = false) →
      Echo base t s world ((d, world'), .inl leg)
  | failed {d : RealTimeClock} {s' : SimulatedClock} {world' : σ} {e : ClockError} :
      Alike d s' → s.ticking = true → t (s, world) = ((s', world'), .error e) →
      Echo base t s world ((d, world'), .inr (.failed e))
  | finished {d : RealTimeClock} :
      Alike d s → s.ticking = false → Echo base t s world ((d, world), .inr .fine)
  | broken {st : RealTimeClock × σ} {f : Fault} : Echo base t s world (st, .inr (.broken f))

variable {T : Tickers σ} {t : Ticker Unit σ}

/-- A leg that does not fail goes on, or the run chooses the next one. -/
theorem follow_goes (leg : Leg) {p : Progress} (hp : p = .more ∨ p = .finished) (world : σ)
    (hready : Ready base d) (h : Alike d s) :
    ∃ e next, follow leg ((d, world), p) = ((e, world), .inl next) ∧ Ready base e ∧ Alike e s := by
  rcases hp with rfl | rfl
  · exact ⟨d, leg, rfl, hready, h⟩
  · obtain ⟨e, he, hg⟩ := applyPending_ok d
    exact ⟨e, .choosing, by simp only [follow, he],
      ⟨hready.steady.grants hg, hg.dispatching.trans hready.idle, hg.time.symm ▸ hready.time⟩,
      h.grants hg⟩

/-- A tick of a leg is a tick of the simulated clock. -/
theorem Twins.leg (tw : Twins base T t) (leg : Leg) (thread : Thread) (world : σ)
    (hready : Ready base c) (h : Alike c s) (ht : c.ticking = true) {p : Progress}
    (hp : p.Follows (T thread (c, world)).2) :
    Echo base t s world (follow leg ((T thread (c, world)).1, p)) := by
  obtain ⟨d, s', world', r, hd, hs', hready', h', hok⟩ := tw.tick hready h thread world
  rw [hd] at hp ⊢
  have hticking : s.ticking = true := h.ticking.trans ht
  rcases r with e | o
  · cases hp
    exact .failed h' hticking hs'
  · obtain ⟨e, next, he, hready'', h''⟩ := follow_goes leg hp world' hready' h'
    rw [he]
    obtain ⟨hticks, hint⟩ := hok o rfl
    exact .ticked hready'' h'' hticking hs' hticks hint

theorem Twins.step (tw : Twins base T t) (leg : Leg) (world : σ) (hready : Ready base c)
    (h : Alike c s) : Echo base t s world (step T leg (c, world)) := by
  have silent (leg : Leg) : Echo base t s world (follow leg ((c, world), .finished)) := by
    obtain ⟨e, next, he, hready', h'⟩ := follow_goes leg (.inr rfl) world hready h
    rw [he]
    exact .silent hready' h'
  cases leg with
  | realTime =>
    unfold RealTimeClock.step
    dsimp only
    rcases scheduledStep_cases T c world with hs | ⟨ht, p, hs, hp, -⟩ <;> rw [hs]
    · exact silent .realTime
    · have hstamp : Ready base c.stamp :=
        ⟨hready.steady.of_eq rfl rfl rfl id rfl rfl, hready.idle, hready.time⟩
      exact tw.leg .realTime .scheduler world hstamp
        (h.of_eq h.begun rfl rfl rfl rfl rfl rfl rfl rfl) ht hp
  | simulated =>
    unfold RealTimeClock.step
    dsimp only
    rcases freeStep_cases T c world with hs | ⟨ht, -, p, hs, hp⟩ <;> rw [hs]
    · exact silent .simulated
    · exact tw.leg .simulated .caller world hready h ht hp
  | choosing =>
    by_cases ht : c.ticking = true
    · simp only [RealTimeClock.step, ht, if_true]
      have hb := hready.steady.begun
      cases hs : c.pacing.stage with
      | realTimeRunning =>
        dsimp only
        rcases schedule_cases c with ⟨scheduler, pins, hsch⟩ | ⟨f, hsch, -⟩ <;> rw [hsch]
        · have hsteady := hready.steady.schedule (by rw [hs]; rfl) hsch
          exact .silent ⟨hsteady, hready.idle, hready.time⟩
            (h.of_eq h.begun rfl rfl rfl rfl rfl rfl rfl rfl)
        · exact .broken
      | simulatedRunning => exact .silent hready h
      | stopped =>
        obtain ⟨hti, -⟩ := hready.steady.halted hs
        rw [hti] at ht
        cases ht
      | _ => rw [hs] at hb; cases hb
    · simp only [RealTimeClock.step, if_neg ht]
      exact .finished h (by rw [h.ticking]; exact Bool.eq_false_iff.mpr ht)

/-! ## Runs of both clocks -/

/-- A simulated clock that does not tick is at the end of its run. -/
theorem run_halted {n : Nat} (hn : 0 < n) (h : s.ticking = false) (world : σ) :
    SimulatedClock.run t n (s, world) = ((s, world), some (.ok ())) := by
  cases n with
  | zero => omega
  | succ n => simp only [SimulatedClock.run, h]; rfl

/-- Where a real-time run comes to its end, the simulated run does too. -/
theorem Twins.steps (tw : Twins base T t) {m n : Nat} {leg : Leg} {world world' : σ}
    {ending : Ending} (hready : Ready base c) (h : Alike c s)
    (hrun : steps T m leg (c, world) = ((d, world'), .inr ending))
    (hend : ∀ f, ending ≠ .broken f) (hn : s.ticksLeft < n) :
    ∃ s' r, SimulatedClock.run t n (s, world) = ((s', world'), some r) ∧ s'.time = d.time ∧
      ending = .of (failure? r) := by
  induction m generalizing c s leg world n with
  | zero => cases hrun
  | succ m ih =>
    have hecho := tw.step leg world hready h
    unfold RealTimeClock.steps at hrun
    generalize RealTimeClock.step T leg (c, world) = x at hecho hrun
    cases hecho with
    | silent hready' h' => exact ih hready' h' hrun hn
    | broken => cases hrun; exact absurd rfl (hend _)
    | finished h' ht =>
      cases hrun
      exact ⟨s, .ok (), run_halted (by omega) ht _, h'.time, rfl⟩
    | failed h' ht hs =>
      cases hrun
      cases n with
      | zero => omega
      | succ n =>
        refine ⟨_, .error _, by simp only [SimulatedClock.run, ht, if_true, hs]; rfl, ?_, rfl⟩
        exact h'.time
    | @ticked e next s' w o hready' h' ht hs hticks hint =>
      cases n with
      | zero => omega
      | succ n =>
        obtain ⟨s'', r, hr, htime, hres⟩ := ih hready' h' hrun (n := n) (by omega)
        refine ⟨s'', r, ?_, htime, hres⟩
        simp only [SimulatedClock.run, ht, if_true, hs]
        cases o with
        | completed => exact hr
        | interrupted =>
          rw [run_halted (by omega) (hint rfl)] at hr
          cases hr
          rfl

/-! ## The beginning and the end of both runs -/

/-- A run and its counterpart begin alike. -/
theorem launch_alike (hl : c.launch = .ok d) (hb : d.pacing.stage.isInitial = false)
    (hc : c.ticking = false) (hs : s.ticking = false) (hL : s.tickLength = c.tickLength)
    (hu : s.unit = c.unit) (ht : s.time = c.time) (hr : s.roster = c.roster)
    (hbu : s.budget = c.budget) (hd : s.dispatching = c.dispatching) :
    ∃ e, SimulatedClock.launch s = .ok e ∧ Alike d e := by
  obtain ⟨pacing, rfl⟩ := launch_eq hl
  refine ⟨_, by simp only [SimulatedClock.launch, hs]; rfl, ?_⟩
  unfold Clock.beginTicking at hb ⊢
  rw [if_neg (by simp [hc])] at hb ⊢
  rw [if_neg (by simp [hs])]
  exact ⟨hb, hL, hu, ht, rfl, rfl, hr, hbu, hd⟩

/-- The simulated run has as many ticks as it needs. -/
theorem Twins.start (tw : Twins base T t) {m : Nat} {e : SimulatedClock} {world world' : σ}
    {ending : Ending} (hle : SimulatedClock.launch s = .ok e) (hready : Ready base c)
    (h : Alike c e)
    (hrun : RealTimeClock.steps T m .choosing (c, world) = ((d, world'), .inr ending))
    (hend : ∀ f, ending ≠ .broken f) :
    ∃ s' r, SimulatedClock.start t (s, world) = ((s', world'), r) ∧ s'.time = d.time ∧
      ending = .of (failure? r) := by
  obtain ⟨s', r, hr, htime, hres⟩ := tw.steps hready h hrun hend (Nat.lt_succ_self _)
  refine ⟨s'.conclude, r, ?_, htime, hres⟩
  simp only [SimulatedClock.start, hle]
  rw [hr]
  rfl

/-- However a run ends, the time stays where its last tick left it. -/
theorem Ending.leaves_time (h : Steady base c) (ending : Ending) :
    (ending.leaves c).time = c.time := by
  cases ending with
  | broken f => rfl
  | _ => simp only [Ending.leaves, conclude_eq h]; rfl

/-- The run of a clock at rest and that of a simulated clock which stands where it stands. -/
theorem Rested.same_ticks (h : Rested c) (hb : behave.Paceless) (hs : s.ticking = false)
    (hL : s.tickLength = c.tickLength) (hu : s.unit = c.unit) (ht : s.time = c.time)
    (hr : s.roster = c.roster) (hbu : s.budget = c.budget) (hd : s.dispatching = c.dispatching)
    (world : σ) (hend : ∀ f, (RealTimeClock.start (dispatch behave) (c, world)).2 ≠ .broken f) :
    let r := RealTimeClock.start (dispatch behave) (c, world)
    let q := SimulatedClock.start (SimulatedClock.dispatch behave) (s, world)
    chronicle behave (c, world) = SimulatedClock.chronicle behave (s, world) ∧
      r.1.2 = q.1.2 ∧ r.1.1.time = q.1.1.time ∧ r.2 = .of (failure? q.2) := by
  rcases h.launch with ⟨d, hl, hready, hpend, -⟩ | ⟨f, hf, -⟩
  · obtain ⟨e, he, halike⟩ :=
      launch_alike hl hready.steady.begun h.ticking hs hL hu ht hr hbu hd
    obtain ⟨d', world', ending, news, hrun, htold, hready', -⟩ :=
      hready.steps hb.isPublic h.tickLength (fun _ => hpend) (need_lt_enoughSteps d) world []
    rw [start_eq hl hrun] at hend
    obtain ⟨s', r, hq, htime, hres⟩ :=
      (twins_dispatch hb h.tickLength).start he hready halike hrun hend
    obtain ⟨_, _, hq', -⟩ :=
      (twins_chronicled hb h.tickLength).start he hready halike htold hend
    refine ⟨?_, ?_, ?_, ?_⟩
    · simp only [chronicle, SimulatedClock.chronicle, start_eq hl htold, hq']
    · simp only [start_eq hl hrun, hq]
    · simp only [start_eq hl hrun, hq, htime, ending.leaves_time hready'.steady]
    · simp only [start_eq hl hrun, hq, hres]
  · refine absurd ?_ (hend f)
    simp only [RealTimeClock.start, hf]

/-- Every run that ends is, for its listeners, the run of a simulated clock. -/
theorem pacing_never_changes_the_simulation {behave : Behaviour σ} (hb : behave.Paceless)
    {b b' : Blueprint} {openLog : PauseSettings → Pause.Source} {watch : Nat → Reading}
    {c : RealTimeClock} {s : SimulatedClock} (hc : b.buildRealTime openLog watch = .ok c)
    (hs : b'.buildSimulated = .ok s) (hL : b'.settings.tickLength = b.settings.tickLength)
    (hu : b'.settings.unit = b.settings.unit) (roster : Roster) (world : σ)
    (hend : ∀ f, (start (dispatch behave) ({ c with roster }, world)).2 ≠ .broken f) :
    let r := start (dispatch behave) ({ c with roster }, world)
    let q := SimulatedClock.start (SimulatedClock.dispatch behave) ({ s with roster }, world)
    chronicle behave ({ c with roster }, world) =
        SimulatedClock.chronicle behave ({ s with roster }, world) ∧
      r.1.2 = q.1.2 ∧ r.1.1.time = q.1.1.time ∧ r.2 = .of (failure? q.2) := by
  obtain ⟨stage, period, pauses, rfl, hinit, hlen⟩ := built_eq hc
  have hmake : s = .make b'.settings.tickLength b'.settings.unit := by
    unfold Blueprint.buildSimulated at hs
    rcases hcheck : b'.settings.check with e | u <;> rw [hcheck] at hs <;> cases hs
    rfl
  subst hmake
  have hrest : Rested { make b.settings stage period b.pins pauses watch with roster } :=
    ⟨hlen, rfl, rfl, rfl, hinit, rfl, rfl⟩
  exact hrest.same_ticks hb rfl hL hu rfl rfl (congrArg Budget.blank hu) rfl world hend

theorem restless_paceless : restless.Paceless where
  deaf v n := by
    unfold restless
    split
    · exact ⟨.inr ⟨rfl, fun _ _ => rfl⟩, fun _ => trivial⟩
    · exact ⟨.inr ⟨rfl, fun _ _ => rfl⟩, fun _ => trivial⟩
    · exact ⟨.inr ⟨rfl, fun _ _ => rfl⟩, fun _ => trivial⟩
    · trivial
  thread _ _ _ := rfl

/-- The third tick fails in both runs, one of which has changed its pace twice by then. -/
theorem pacing_never_changes_a_restless_run :
    let q := SimulatedClock.start (SimulatedClock.dispatch restless)
      ({ SimulatedClock.make 1000 .standard with roster := plain.roster }, 0)
    q.2 = .error (.listener 2000 "too late") ∧
      (start (dispatch restless) (plain, 0)).2 = .of (failure? q.2) ∧
      chronicle restless (plain, 0) = SimulatedClock.chronicle restless
        ({ SimulatedClock.make 1000 .standard with roster := plain.roster }, 0) := by
  have hc : ({} : Blueprint).buildRealTime (fun _ => .silent) (fun _ => ⟨0, 0⟩) =
      .ok { plain with roster := {} } := rfl
  have hs : ({} : Blueprint).buildSimulated = .ok (SimulatedClock.make 1000 .standard) := rfl
  have h := pacing_never_changes_the_simulation restless_paceless hc hs rfl rfl plain.roster 0
    (fun f hf => by cases hf)
  exact ⟨rfl, h.2.2.2, h.1⟩

end RealTimeClock

end Metronome
