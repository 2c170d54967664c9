-- The course of a run, seen from the side. Ticks begin only where their thread
-- may tick and nobody wishes to leave, and what every tick and every boundary
-- keeps, a whole run keeps.
import Metronome.Proofs.RealTime.Run

namespace Metronome

/-- The stage in which the thread ticks. -/
def Thread.stage : Thread → Stage
  | .scheduler => .realTimeRunning
  | .caller => .simulatedRunning

namespace RealTimeClock

variable {σ : Type} {behave : Behaviour σ} {base c d : RealTimeClock}

/-! ## Where ticks begin -/

/-- Where a leg may find the clock. What a clock that ticks no more looks like does not matter. -/
def Suits : Leg → RealTimeClock → Prop
  | .choosing, c => c.pacing.pending = .none
  | .realTime, c => c.ticking = true →
      c.pacing.stage = .realTimeRunning ∧ c.pacing.pending ≠ .toSimulated
  | .simulated, c => c.ticking = true → c.pacing.stage = .simulatedRunning

/-- A tick of this thread is due, and a boundary here would change nothing. -/
structure Due (base : RealTimeClock) (thread : Thread) (c : RealTimeClock) : Prop where
  ready : Ready base c
  ticking : c.ticking = true
  stage : c.pacing.stage = thread.stage
  settled : grantedStage c.pacing.pending c.pacing.stage = c.pacing.stage

/-- Inside a tick, the stage stays what it was until someone stops the clock. -/
theorem serve_keeps_stage (s : Stage) :
    Service.Keeps serve (fun call => call.isPublic = true) fun c =>
      c.pacing.stage.isInitial = false ∧
        (c.pacing.stage = s ∨ c.pacing.stage = .stopped ∧ c.ticking = false) where
  budget _ _ h := h
  call c call hp h := by
    rcases serve_cases hp h.1 with ⟨-, he⟩ | hs
    · rw [he]
      exact ⟨rfl, .inr ⟨rfl, rfl⟩⟩
    · rw [hs.stage, hs.ticking]
      exact h

theorem lend_pacing {lent : RealTimeClock} (h : c.lend = .ok lent) :
    lent.pacing = c.pacing ∧ lent.ticking = c.ticking ∧ lent.feed = c.feed := by
  unfold Clock.lend at h
  split at h
  · cases h
  split at h
  · cases h
  split at h
  · cases h
  cases h
  exact ⟨rfl, rfl, rfl⟩

/-- A tick ends in the stage in which it began, unless someone stopped the clock. -/
theorem tick_keeps_stage (hb : behave.Public) (hbegun : c.pacing.stage.isInitial = false)
    (thread : Thread) (world : σ) :
    let d := (dispatch behave thread (c, world)).1.1
    d.pacing.stage = c.pacing.stage ∨ d.pacing.stage = .stopped ∧ d.ticking = false := by
  have hlent (lent : RealTimeClock) (hl : c.lend = .ok lent) :
      lent.pacing.stage.isInitial = false ∧ (lent.pacing.stage = c.pacing.stage ∨
        lent.pacing.stage = .stopped ∧ lent.ticking = false) := by
    rw [(lend_pacing hl).1]
    exact ⟨hbegun, .inl rfl⟩
  intro d
  rcases Clock.tick_cases (serve_keeps_stage c.pacing.stage) hb thread world hlent with
    ⟨e, -, he⟩ | ⟨lent, d', world', e, -, hI, he⟩ | ⟨lent, d', world', -, hI, he⟩
  · simp only [d, dispatch, he, true_or]
  · simp only [d, dispatch, he]
    exact hI.2
  · simp only [d, dispatch, he]
    have hmoved := d'.advance_moved
    rw [hmoved.pacing]
    rcases hI.2 with hs | ⟨hs, hoff⟩
    · exact .inl hs
    · refine .inr ⟨hs, Bool.eq_false_iff.mpr fun hon => ?_⟩
      rw [hmoved.ticking hon] at hoff
      cases hoff

/-- A clock that ticks on is in the stage that it was in. -/
theorem stage_of_ticking (hb : behave.Public) (hbegun : c.pacing.stage.isInitial = false)
    {thread : Thread} {world : σ} (h : (dispatch behave thread (c, world)).1.1.ticking = true) :
    (dispatch behave thread (c, world)).1.1.pacing.stage = c.pacing.stage := by
  rcases tick_keeps_stage hb hbegun thread world with hs | ⟨-, hoff⟩
  · exact hs
  · rw [h] at hoff
    cases hoff

/-! ## What a run keeps -/

/-- Ticks of which the world takes note as they begin. -/
def marked (mark : RealTimeClock → σ → σ) (behave : Behaviour σ) : Tickers σ :=
  fun thread st => dispatch behave thread (st.1, mark st.1 st.2)

/-- `J` goes along with the ticks and the boundaries of a run, and looks neither at the stamps nor
at the scheduler thread. -/
structure Course (base : RealTimeClock) (mark : RealTimeClock → σ → σ) (behave : Behaviour σ)
    (J : RealTimeClock × σ → Prop) : Prop where
  aside : ∀ (c : RealTimeClock) (pacing : Pacing) (world : σ), pacing.stage = c.pacing.stage →
    pacing.pending = c.pacing.pending → J (c, world) → J ({ c with pacing }, world)
  boundary : ∀ (c d : RealTimeClock) (world : σ), Ready base c → c.applyPending = .ok d →
    J (c, world) → J (d, world)
  tick : ∀ (thread : Thread) (c : RealTimeClock) (world : σ), Due base thread c →
    J (c, world) → J (dispatch behave thread (c, mark c world)).1

namespace Course

variable {mark : RealTimeClock → σ → σ} {J : RealTimeClock × σ → Prop}

/-- What a run keeps from step to step. -/
structure At (base : RealTimeClock) (J : RealTimeClock × σ → Prop) (leg : Leg)
    (st : RealTimeClock × σ) : Prop where
  ready : Ready base st.1
  suits : Suits leg st.1
  holds : J st

/-- What a step leaves behind, whether another one follows it or not. -/
structure Leaves (base : RealTimeClock) (J : RealTimeClock × σ → Prop)
    (r : (RealTimeClock × σ) × (Leg ⊕ Ending)) : Prop where
  ready : Ready base r.1.1
  holds : J r.1
  next : ∀ leg, r.2 = .inl leg → At base J leg r.1

theorem At.leaves {leg : Leg} {st : RealTimeClock × σ} (h : At base J leg st) :
    Leaves base J (st, .inl leg) := by
  refine ⟨h.ready, h.holds, fun next hn => ?_⟩
  cases hn
  exact h

theorem leaves_ending {st : RealTimeClock × σ} (hr : Ready base st.1) (hJ : J st)
    (ending : Ending) :
    Leaves base J (st, .inr ending) :=
  ⟨hr, hJ, fun _ hn => by cases hn⟩

/-- The leg ends at a boundary. -/
theorem boundary_leaves (k : Course base mark behave J) (leg : Leg) {world : σ} (hr : Ready base c)
    (hJ : J (c, world)) : Leaves base J (follow leg ((c, world), .finished)) := by
  obtain ⟨d, hd, hg⟩ := applyPending_ok c
  have hnext : At base J .choosing (d, world) :=
    ⟨⟨hr.steady.grants hg, hg.dispatching.trans hr.idle, hg.time.symm ▸ hr.time⟩, hg.pending,
      k.boundary c d world hr hd hJ⟩
  simp only [follow, hd]
  exact hnext.leaves

/-- The leg has ticked. -/
theorem ticked (k : Course base mark behave J) (hb : behave.Public) (hL : 0 < base.tickLength)
    (leg : Leg) {thread : Thread} {world : σ} (hdue : Due base thread c) (hJ : J (c, world))
    {p : Progress} (hp : p.Follows (marked mark behave thread (c, world)).2)
    (hmore : p = .more → Suits leg (marked mark behave thread (c, world)).1.1) :
    Leaves base J (follow leg ((marked mark behave thread (c, world)).1, p)) := by
  have hJ' := k.tick thread c world hdue hJ
  have hr := (hdue.ready.tick hb hL thread (mark c world)).1
  change Ready base (marked mark behave thread (c, world)).1.1 at hr
  change J (marked mark behave thread (c, world)).1 at hJ'
  rcases hx : marked mark behave thread (c, world) with ⟨⟨d, world'⟩, e | o⟩ <;>
    rw [hx] at hp hr hJ' hmore
  · cases hp
    exact leaves_ending hr hJ' _
  · rcases hp with rfl | rfl
    · exact At.leaves ⟨hr, hmore rfl, hJ'⟩
    · exact k.boundary_leaves leg hr hJ'

/-- A tick of the scheduler is due in real time only. -/
theorem realTime_leaves (k : Course base mark behave J) (hb : behave.Public)
    (hL : 0 < base.tickLength) {world : σ} (h : At base J .realTime (c, world)) :
    Leaves base J (RealTimeClock.step (marked mark behave) .realTime (c, world)) := by
  obtain ⟨hr, hs, hJ⟩ := h
  unfold RealTimeClock.step
  dsimp only
  rcases scheduledStep_cases (marked mark behave) c world with he | ⟨ht, p, he, hp, hpend⟩ <;>
    rw [he]
  · exact k.boundary_leaves .realTime hr hJ
  obtain ⟨hstage, hnone⟩ := hs ht
  have hdue : Due base .scheduler c.stamp :=
    ⟨⟨hr.steady.of_eq rfl rfl rfl id rfl rfl, hr.idle, hr.time⟩, ht, hstage, by
      change grantedStage c.pacing.pending c.pacing.stage = c.pacing.stage
      rw [hstage]
      cases hp : c.pacing.pending <;> first | rfl | exact absurd hp hnone⟩
  refine k.ticked hb hL .realTime hdue (k.aside c _ world rfl rfl hJ) hp fun hm ht' => ?_
  exact ⟨(stage_of_ticking hb hdue.ready.steady.begun ht').trans hstage, hpend hm⟩

theorem simulated_leaves (k : Course base mark behave J) (hb : behave.Public)
    (hL : 0 < base.tickLength) {world : σ} (h : At base J .simulated (c, world)) :
    Leaves base J (RealTimeClock.step (marked mark behave) .simulated (c, world)) := by
  obtain ⟨hr, hs, hJ⟩ := h
  unfold RealTimeClock.step
  dsimp only
  rcases freeStep_cases (marked mark behave) c world with he | ⟨ht, hpend, p, he, hp⟩ <;> rw [he]
  · exact k.boundary_leaves .simulated hr hJ
  have hstage := hs ht
  have hdue : Due base .caller c :=
    ⟨hr, ht, hstage, by
      rw [hstage]
      cases hp : c.pacing.pending <;> first | rfl | exact absurd hp hpend⟩
  refine k.ticked hb hL .simulated hdue hJ hp fun _ ht' => ?_
  exact (stage_of_ticking hb hr.steady.begun ht').trans hstage

/-- The choice of a leg is not heard of, though it may bring up the scheduler thread. -/
theorem choosing_leaves (k : Course base mark behave J) {world : σ}
    (h : At base J .choosing (c, world)) :
    Leaves base J (RealTimeClock.step (marked mark behave) .choosing (c, world)) := by
  obtain ⟨hr, hs, hJ⟩ := h
  by_cases ht : c.ticking = true
  · cases hst : c.pacing.stage with
    | realTimeRunning =>
      rcases schedule_cases c with ⟨scheduler, pins, hd⟩ | ⟨f, hf, -⟩
      · have hsteady := hr.steady.schedule (by rw [hst]; rfl) hd
        have hJ' := k.aside c
          { c.pacing with scheduler, pins, cancelled := false } world rfl rfl hJ
        have hnone : c.pacing.pending ≠ .toSimulated := by
          rw [show c.pacing.pending = .none from hs]
          exact Pending.noConfusion
        have he : RealTimeClock.step (marked mark behave) .choosing (c, world) =
            (({ c with pacing := { c.pacing with scheduler, pins, cancelled := false } }, world),
              .inl .realTime) := by
          simp only [RealTimeClock.step, if_pos ht, hst, hd]
        rw [he]
        exact At.leaves ⟨⟨hsteady, hr.idle, hr.time⟩, fun _ => ⟨hst, hnone⟩, hJ'⟩
      · simp only [RealTimeClock.step, if_pos ht, hst, hf]
        exact leaves_ending hr hJ _
    | simulatedRunning =>
      simp only [RealTimeClock.step, if_pos ht, hst]
      exact At.leaves ⟨hr, fun _ => hst, hJ⟩
    | _ =>
      simp only [RealTimeClock.step, if_pos ht, hst]
      exact leaves_ending hr hJ _
  · simp only [RealTimeClock.step, if_neg ht]
    exact leaves_ending hr hJ _

theorem step (k : Course base mark behave J) (hb : behave.Public) (hL : 0 < base.tickLength)
    {leg : Leg} {world : σ} (h : At base J leg (c, world)) :
    Leaves base J (RealTimeClock.step (marked mark behave) leg (c, world)) := by
  cases leg with
  | choosing => exact k.choosing_leaves h
  | realTime => exact k.realTime_leaves hb hL h
  | simulated => exact k.simulated_leaves hb hL h

/-- What every tick and every boundary keeps, a run keeps, however far it goes. -/
theorem steps (k : Course base mark behave J) (hb : behave.Public) (hL : 0 < base.tickLength)
    (n : Nat) (leg : Leg) (world : σ) (h : At base J leg (c, world)) :
    let r := RealTimeClock.steps (marked mark behave) n leg (c, world)
    Ready base r.1.1 ∧ J r.1 := by
  induction n generalizing c leg world with
  | zero => exact ⟨h.ready, h.holds⟩
  | succ n ih =>
    have hstep := k.step hb hL h
    unfold RealTimeClock.steps
    rcases hx : RealTimeClock.step (marked mark behave) leg (c, world)
      with ⟨⟨d, world'⟩, next | ending⟩ <;> rw [hx] at hstep
    · exact ih _ _ (hstep.next next rfl)
    · exact ⟨hstep.ready, hstep.holds⟩

end Course

end RealTimeClock

end Metronome
