-- Real-time clocks that differ in what is left over on them. They go through
-- the same legs, call the same listeners and answer every call in the same way.
import Metronome.Proofs.Leftovers
import Metronome.Proofs.RealTime.Calls

namespace Metronome

namespace RealTimeClock

variable {σ τ : Type} {view : τ → σ} {seen : Prop} {c d : RealTimeClock}

open Clock (ResembleBoth)

/-! ## What changes the pace -/

/-- The pacing of clocks that look alike changes in the same way. -/
theorem repace (h : c.Resembles seen d) (pacing : Pacing) :
    Clock.Resembles seen { c with pacing } { d with pacing } := by
  obtain ⟨_, _, rfl⟩ := h.same
  exact ⟨⟨_, _, rfl⟩, h.interrupted, h.unit, h.budget⟩

theorem stamp_resembles (h : c.Resembles seen d) : c.stamp.Resembles seen d.stamp := by
  unfold stamp
  rw [h.pacing]
  exact repace h _

theorem moveTo_resembles (h : c.Resembles seen d) (next : Stage) :
    (c.moveTo next).Resembles seen (d.moveTo next) := by
  have hmode : mode d = mode c := by rw [mode, mode, h.pacing]
  have hmoved :
      Clock.Resembles seen { c with pacing.stage := next } { d with pacing.stage := next } := by
    rw [h.pacing]
    exact repace h _
  unfold moveTo
  rw [hmode]
  split
  · exact hmoved
  · cases next.mode with
    | realTime => exact hmoved.publish .switchToRealTime
    | simulated => exact hmoved.publish .switchToSimTime
    | stopped => exact hmoved

theorem ensureScheduler_resembles (h : c.Resembles seen d) :
    ResembleBoth seen c.ensureScheduler d.ensureScheduler := by
  unfold ensureScheduler
  rw [h.pacing]
  cases c.pacing.scheduler with
  | some s => exact h
  | none =>
    dsimp only
    split
    · cases c.pacing.settings.targetCore? with
      | none => exact repace h _
      | some core => exact repace h _
    · exact rfl

theorem schedule_resembles (h : c.Resembles seen d) : ResembleBoth seen c.schedule d.schedule := by
  unfold schedule
  rcases (ensureScheduler_resembles h).cases with ⟨f, hc, hd⟩ | ⟨c', d', hc, hd, h'⟩
  · rw [hc, hd]
    exact rfl
  · simp only [hc, hd, Except.map, h'.pacing]
    exact repace h' _

theorem releaseScheduler_resembles (h : c.Resembles seen d) :
    c.releaseScheduler.Resembles seen d.releaseScheduler := by
  have hpinned : d.isPinned = c.isPinned := by rw [isPinned, isPinned, h.pacing]
  rw [releaseScheduler_eq, releaseScheduler_eq, hpinned, h.pacing]
  exact repace h _

theorem applyPending_resembles (h : c.Resembles seen d) :
    ResembleBoth seen c.applyPending d.applyPending := by
  unfold applyPending
  rw [h.pacing]
  cases boundaryTrigger? c.pacing.pending c.pacing.stage with
  | none => exact repace h _
  | some trigger =>
    dsimp only
    cases c.pacing.stage.on trigger with
    | error i => exact rfl
    | ok next =>
      refine moveTo_resembles ?_ next
      split
      · exact repace h _
      · exact repace h _

theorem switchToRealTime_resembles (h : c.Resembles seen d) :
    ResembleBoth seen c.switchToRealTime d.switchToRealTime := by
  unfold switchToRealTime
  rw [h.pacing]
  dsimp only
  split
  · exact h
  · cases c.pacing.stage.on .requestRealTime with
    | error i => exact rfl
    | ok next => exact moveTo_resembles (repace h _) next

theorem switchToSimulated_resembles (h : c.Resembles seen d) :
    ResembleBoth seen c.switchToSimulated d.switchToSimulated := by
  unfold switchToSimulated
  rw [h.pacing]
  dsimp only
  split
  · exact h
  · cases c.pacing.stage.on .requestSimulated with
    | error i => exact rfl
    | ok next => exact moveTo_resembles (repace h _) next

theorem stop_resembles (h : c.Resembles seen d) : ResembleBoth seen c.stop d.stop := by
  unfold stop retire
  rw [h.pacing]
  cases c.pacing.stage.on .stop with
  | error i => exact rfl
  | ok next => exact releaseScheduler_resembles (repace h _).endTicking

/-! ## Runs -/

section Ticks

variable {t : Tickers σ} {t' : Tickers τ}

theorem scheduledStep_inStep (ht : ∀ thread, InStep view seen (t thread) (t' thread)) :
    InStep view seen (scheduledStep t) (scheduledStep t') := by
  intro a b hab
  simp only [scheduledStep, hab.clock.ticking, hab.clock.pacing]
  by_cases hover : a.1.pacing.cancelled = true ∨ ¬ a.1.ticking = true
  · rw [if_pos hover, if_pos hover]
    exact ⟨hab, rfl⟩
  rw [if_neg hover, if_neg hover]
  have hstep := ht .scheduler (stamp a.1, a.2) (stamp b.1, b.2)
    ⟨stamp_resembles hab.clock, hab.world⟩
  rcases hr : t .scheduler (stamp a.1, a.2) with ⟨st, result⟩
  rcases hr' : t' .scheduler (stamp b.1, b.2) with ⟨st', result'⟩
  rw [hr, hr'] at hstep
  obtain ⟨hst, rfl⟩ := hstep
  rcases result' with e | _ | _
  · exact ⟨hst, rfl⟩
  · have hticking : st'.1.ticking = st.1.ticking := hst.clock.ticking
    have hpacing : st'.1.pacing = st.1.pacing := hst.clock.pacing
    dsimp only
    rw [hticking, hpacing]
    split
    · exact ⟨hst, rfl⟩
    · exact ⟨hst, rfl⟩
  · exact ⟨hst, rfl⟩

theorem freeStep_inStep (ht : ∀ thread, InStep view seen (t thread) (t' thread)) :
    InStep view seen (freeStep t) (freeStep t') := by
  intro a b hab
  simp only [freeStep, hab.clock.ticking, hab.clock.pacing]
  by_cases hon : a.1.ticking = true ∧ a.1.pacing.pending ≠ .toRealTime
  · rw [if_pos hon, if_pos hon]
    have hstep := ht .caller a b hab
    rcases hr : t .caller a with ⟨st, result⟩
    rcases hr' : t' .caller b with ⟨st', result'⟩
    rw [hr, hr'] at hstep
    obtain ⟨hst, rfl⟩ := hstep
    rcases result' with e | _ | _ <;> exact ⟨hst, rfl⟩
  · rw [if_neg hon, if_neg hon]
    exact ⟨hab, rfl⟩

/-- The same progress means the same for both runs. -/
theorem follow_inStep (leg : Leg) {r : (RealTimeClock × σ) × Progress}
    {r' : (RealTimeClock × τ) × Progress} (hst : InView view seen r.1 r'.1)
    (hprogress : r'.2 = r.2) :
    InView view seen (follow leg r).1 (follow leg r').1 ∧ (follow leg r').2 = (follow leg r).2 := by
  obtain ⟨⟨c, world⟩, _⟩ := r
  obtain ⟨⟨d, world'⟩, progress⟩ := r'
  obtain rfl := hprogress
  dsimp only at hst ⊢
  cases progress with
  | more => exact ⟨hst, rfl⟩
  | failed e => exact ⟨hst, rfl⟩
  | finished =>
    rcases (applyPending_resembles hst.clock).cases with ⟨e, hc, hd⟩ | ⟨c', d', hc, hd, h⟩
    · simp only [follow, hc, hd]
      exact ⟨hst, trivial⟩
    · simp only [follow, hc, hd]
      exact ⟨⟨h, hst.world⟩, trivial⟩

theorem step_inStep (ht : ∀ thread, InStep view seen (t thread) (t' thread)) (leg : Leg) :
    InStep view seen (step t leg) (step t' leg) := by
  intro a b hab
  cases leg with
  | realTime =>
    obtain ⟨hst, hprogress⟩ := scheduledStep_inStep ht a b hab
    exact follow_inStep .realTime hst hprogress
  | simulated =>
    obtain ⟨hst, hprogress⟩ := freeStep_inStep ht a b hab
    exact follow_inStep .simulated hst hprogress
  | choosing =>
    simp only [step, hab.clock.ticking, hab.clock.pacing]
    split
    · cases a.1.pacing.stage with
      | realTimeRunning =>
        rcases (schedule_resembles hab.clock).cases with ⟨f, hc, hd⟩ | ⟨c', d', hc, hd, h⟩
        · simp only [hc, hd]
          exact ⟨hab, trivial⟩
        · simp only [hc, hd]
          exact ⟨⟨h, hab.world⟩, trivial⟩
      | _ => exact ⟨hab, rfl⟩
    · exact ⟨hab, rfl⟩

theorem steps_inStep (ht : ∀ thread, InStep view seen (t thread) (t' thread)) (n : Nat)
    (leg : Leg) : InStep view seen (steps t n leg) (steps t' n leg) := by
  induction n generalizing leg with
  | zero => exact fun a b hab => ⟨hab, rfl⟩
  | succ n ih =>
    intro a b hab
    have hstep := step_inStep ht leg a b hab
    simp only [steps]
    rcases hr : step t leg a with ⟨st, next⟩
    rcases hr' : step t' leg b with ⟨st', next'⟩
    rw [hr, hr'] at hstep
    obtain ⟨hst, rfl⟩ := hstep
    rcases next' with leg' | ending
    · exact ih leg' st st' hst
    · exact ⟨hst, rfl⟩

theorem launch_resembles (h : c.Resembles seen d) : ResembleBoth seen c.launch d.launch := by
  unfold launch
  rw [h.pacing]
  split
  · exact rfl
  · cases c.pacing.stage.on .start with
    | error i => exact rfl
    | ok next =>
      by_cases hnext : next = .realTimeRunning
      · simp only [if_pos hnext]
        rcases (ensureScheduler_resembles h).cases with ⟨f, hc, hd⟩ | ⟨c', d', hc, hd, h'⟩
        · rw [hc, hd]
          exact rfl
        · simp only [hc, hd, Except.map, h'.pacing]
          exact (repace h' _).beginTicking.publish .started
      · simp only [if_neg hnext, h.pacing]
        exact (repace h _).beginTicking.publish .started

theorem conclude_resembles (h : c.Resembles seen d) : c.conclude.Resembles seen d.conclude := by
  have hclose : c.close.Resembles seen d.close := by
    unfold close
    rw [h.pacing]
    split
    · exact repace h _
    · exact h
  exact (releaseScheduler_resembles hclose.endTicking).publish .stopped

theorem start_inStep (ht : ∀ thread, InStep view seen (t thread) (t' thread)) :
    InStep view seen (start t) (start t') := by
  intro a b hab
  simp only [start, runLoop]
  rcases (launch_resembles hab.clock).cases with ⟨e, hc, hd⟩ | ⟨c, d, hc, hd, hlaunch⟩
  · simp only [hc, hd]
    exact ⟨hab, trivial⟩
  · have henough : enoughSteps d = enoughSteps c := by
      rw [enoughSteps, enoughSteps, hlaunch.ticksLeft]
    have hrun := steps_inStep ht (enoughSteps c) .choosing (c, a.2) (d, b.2) ⟨hlaunch, hab.world⟩
    simp only [hc, hd]
    rw [henough]
    rcases hr : steps t (enoughSteps c) .choosing (c, a.2) with ⟨st, last⟩
    rcases hr' : steps t' (enoughSteps c) .choosing (d, b.2) with ⟨st', last'⟩
    rw [hr, hr'] at hrun
    obtain ⟨hst, rfl⟩ := hrun
    rcases last' with leg | _ | e | f
    · exact ⟨⟨conclude_resembles hst.clock, hst.world⟩, rfl⟩
    · exact ⟨⟨conclude_resembles hst.clock, hst.world⟩, rfl⟩
    · exact ⟨⟨conclude_resembles hst.clock, hst.world⟩, rfl⟩
    · exact ⟨hst, rfl⟩

/-! ## Calls -/

theorem settle_inStep {a : RealTimeClock × σ} {b : RealTimeClock × τ} (hab : InView view seen a b)
    {r r' : Except ClockError RealTimeClock} (h : ResembleBoth seen r r') :
    InView view seen (settle a r).1 (settle b r').1 ∧ (settle b r').2 = (settle a r).2 := by
  rcases h.cases with ⟨e, rfl, rfl⟩ | ⟨c, d, rfl, rfl, hclock⟩
  · exact ⟨hab, rfl⟩
  · exact ⟨⟨hclock, hab.world⟩, rfl⟩

/-- Every public call is answered as if nothing had been left over. -/
theorem answer_inStep (ht : ∀ thread, InStep view seen (t thread) (t' thread)) {call : Call}
    (hp : call.isPublic = true) : InStep view seen (answer t call) (answer t' call) := by
  rintro ⟨c, _⟩ ⟨d, world⟩ ⟨h, rfl⟩
  dsimp only at h
  have hab : InView view seen (c, view world) (d, world) := ⟨h, rfl⟩
  cases call with
  | override o => cases hp
  | start =>
    obtain ⟨hstate, hresult⟩ := start_inStep ht _ _ hab
    exact ⟨hstate, congrArg Ending.answer hresult⟩
  | stop => exact settle_inStep hab (stop_resembles h)
  | switchToRealTime => exact settle_inStep hab (switchToRealTime_resembles h)
  | switchToSimulated => exact settle_inStep hab (switchToSimulated_resembles h)
  | register x => exact settle_inStep hab (h.register x)
  | unregister x =>
    obtain ⟨hstate, hthere⟩ := h.unregister x
    exact ⟨⟨hstate, rfl⟩, congrArg Answer.flag hthere⟩
  | interrupt =>
    obtain ⟨_, _, rfl⟩ := h.same
    exact ⟨⟨⟨⟨_, _, rfl⟩, fun _ => rfl, h.unit, h.budget⟩, rfl⟩, rfl⟩
  | jitter =>
    obtain ⟨_, _, rfl⟩ := h.same
    simp only [answer, jitter]
    split
    · exact ⟨hab, rfl⟩
    · exact ⟨⟨⟨⟨_, _, rfl⟩, h.interrupted, h.unit, h.budget⟩, rfl⟩, rfl⟩
  | _ =>
    obtain ⟨_, _, rfl⟩ := h.same
    exact ⟨⟨⟨⟨_, _, rfl⟩, h.interrupted, h.unit, h.budget⟩, rfl⟩, rfl⟩

end Ticks

theorem serve_overlooks : serve.Overlooks fun call => call.isPublic = true where
  ticking _ := rfl
  interrupt _ := rfl
  call {c d call} hp h := by
    have hreentrant (_ : Thread) :
        InStep (P := Pacing) (id : Unit → Unit) True Clock.reentrant Clock.reentrant :=
      fun a b hab => ⟨hab, rfl⟩
    obtain ⟨hstate, hanswer⟩ := answer_inStep hreentrant hp (c, ()) (d, ()) ⟨h, rfl⟩
    exact ⟨hstate.clock, hanswer⟩

/-- A public call from outside does what it would do if nothing had been left over, and if nothing
had been slipped into the callbacks. -/
theorem perform_inStep {behave : Behaviour σ} {behave' : Behaviour τ} (hb : behave.Public)
    (hn : behave.Nudged view behave') {call : Call} (hp : call.isPublic = true) :
    InStep view seen (perform behave call) (perform behave' call) :=
  answer_inStep (fun thread => Clock.tick_nudged serve_overlooks hb hn thread) hp

end RealTimeClock

end Metronome
