-- A run of the real-time clock, step by step. Every step keeps the custody
-- of the scheduler thread, is told in the chronicle, and brings the run
-- nearer to its end, for the time has room for so many ticks only.
import Metronome.Proofs.RealTime.Custody

namespace Metronome

/-! ## Ticks left -/

namespace Clock

variable {P : Type}

/-- A tick that fits is one of those that were left. -/
theorem ticksLeft_of_fits {c d : Clock P} (hL : 0 < c.tickLength) (hl : d.tickLength = c.tickLength)
    (ht : d.time = c.time + c.tickLength) (hfit : d.time ≤ Signed.greatest) :
    d.ticksLeft + 1 = c.ticksLeft := by
  have hsplit : (Signed.greatest - d.time) / c.tickLength =
      (Signed.greatest - c.time) / c.tickLength + -1 := by
    rw [← Int.add_mul_ediv_right _ _ (Int.ne_of_gt hL), ht]
    congr 1
    omega
  have hpos : 0 ≤ (Signed.greatest - d.time) / c.tickLength :=
    Int.ediv_nonneg (by omega) (Int.le_of_lt hL)
  unfold ticksLeft
  rw [hl]
  omega

end Clock

namespace RealTimeClock

variable {σ : Type} {behave : Behaviour σ} {base c d : RealTimeClock}

/-! ## Between two ticks -/

/-- The invariant of a run between two of its ticks. -/
structure Ready (base c : RealTimeClock) : Prop where
  steady : Steady base c
  idle : c.dispatching = false
  time : 0 ≤ c.time

/-- The invariant inside a tick that began at `t`. -/
structure Lent (base : RealTimeClock) (t : Int) (d : RealTimeClock) : Prop where
  steady : Steady base d
  time : d.time = t
  start : d.budget.start = t

theorem Lent.keeps (base : RealTimeClock) (t : Int) :
    Service.Keeps serve (fun call => call.isPublic = true) (Lent base t) where
  budget _ _ h := ⟨h.steady.of_eq rfl rfl rfl id rfl rfl, h.time, h.start⟩
  call c call hp h := by
    rcases serve_cases hp h.steady.begun with ⟨-, he⟩ | hs
    · rw [he]
      exact ⟨h.steady.ended, h.time, h.start⟩
    · exact ⟨h.steady.spares hs, hs.time.trans h.time, by rw [hs.budget]; exact h.start⟩

theorem Ready.lent (h : Ready base c) (hL : 0 < base.tickLength) {lent : RealTimeClock}
    (hl : c.lend = .ok lent) : Lent base c.time lent := by
  rw [Clock.lend_eq h.idle (h.steady.tickLength ▸ hL) h.time] at hl
  split at hl
  · cases hl
    exact ⟨h.steady.of_eq rfl rfl rfl id rfl rfl, rfl, rfl⟩
  · cases hl

/-- The end of the last callback is the end of the tick. -/
theorem Lent.advance {t : Int} (h : Lent base t d) (ht : 0 ≤ t) (hL : 0 < base.tickLength) :
    Ready base d.advance.1 ∧ d.advance.1.time = t + base.tickLength ∧
      (d.advance.2 = .interrupted → d.advance.1.ticking = false) := by
  have hmoved := d.advance_moved
  have htime : d.advance.1.time = t + base.tickLength := by
    rw [hmoved.time, h.time, h.steady.tickLength]
  have hsteady : Steady base d.advance.1 := by
    apply h.steady.of_eq hmoved.tickLength _ _ hmoved.ticking <;> rw [hmoved.pacing]
  refine ⟨⟨hsteady, hmoved.dispatching, ?_⟩, htime, Clock.advance_interrupted⟩
  rw [htime]
  omega

/-- What a tick of a run leaves behind. -/
theorem Ready.tick (h : Ready base c) (hb : behave.Public) (hL : 0 < base.tickLength)
    (thread : Thread) (world : σ) :
    Ready base (dispatch behave thread (c, world)).1.1 ∧
      ∀ o, (dispatch behave thread (c, world)).2 = .ok o →
        (dispatch behave thread (c, world)).1.1.time = c.time + base.tickLength ∧
        c.time + base.tickLength ≤ Signed.greatest ∧
        (o = .interrupted → (dispatch behave thread (c, world)).1.1.ticking = false) := by
  have hlend := Clock.lend_eq h.idle (h.steady.tickLength ▸ hL) h.time
  rcases Clock.tick_cases (Lent.keeps base c.time) hb thread world fun _ hl => h.lent hL hl with
    ⟨e, -, he⟩ | ⟨lent, d, world', e, -, hd, he⟩ | ⟨lent, d, world', hl, hd, he⟩
  · rw [dispatch, he]
    exact ⟨h, fun o ho => by cases ho⟩
  · rw [dispatch, he]
    refine ⟨⟨hd.steady.of_eq rfl rfl rfl id rfl rfl, rfl, ?_⟩, fun o ho => by cases ho⟩
    exact hd.time ▸ h.time
  · rw [dispatch, he]
    obtain ⟨hready, htime, hint⟩ := hd.advance h.time hL
    refine ⟨hready, fun o ho => ⟨htime, ?_, ?_⟩⟩
    · rw [hlend, h.steady.tickLength] at hl
      split at hl
      · rename_i hfit
        exact hfit.2
      · cases hl
    · intro hi
      cases ho
      exact hint hi

/-- The ticks of a run that is written down. -/
def chronicled (behave : Behaviour σ) : Tickers (σ × Chronicle) :=
  fun thread => Clock.chronicled serve behave thread

theorem Ready.told (h : Ready base c) (hb : behave.Public) (hL : 0 < base.tickLength)
    (thread : Thread) (world : σ) (l : Chronicle) :
    ∃ news, chronicled behave thread (c, (world, l)) =
        withNews (dispatch behave thread (c, world)) (l ++ news) ∧
      Chronicle.Tells base.tickLength (failure? (dispatch behave thread (c, world)).2) news := by
  have hlen := h.steady.tickLength
  have ht := Clock.tick_told (Lent.keeps base c.time) hb thread world l h.idle (hlen ▸ hL) h.time
    (fun _ hl => h.lent hL hl) fun _ hd => hd.start
  rw [hlen] at ht
  exact ht

/-! ## One step of a leg -/

/-- How a leg may go on after its tick. -/
def Progress.Follows : Except ClockError TickEnd → Progress → Prop
  | .error e, p => p = .failed e
  | .ok _, p => p = .more ∨ p = .finished

/-- A step of a real-time leg that is a tick. The leg goes on only if nobody wishes to leave it. -/
theorem scheduledStep_tick (T : Tickers σ) (world : σ)
    (h : ¬ (c.pacing.cancelled = true ∨ ¬ c.ticking = true)) :
    ∃ p, scheduledStep T (c, world) = ((T .scheduler (c.stamp, world)).1, p) ∧
      p.Follows (T .scheduler (c.stamp, world)).2 ∧
      (p = .more → (T .scheduler (c.stamp, world)).1.1.pacing.pending ≠ .toSimulated) := by
  unfold RealTimeClock.scheduledStep
  rw [if_neg h]
  dsimp only
  rcases T .scheduler (c.stamp, world) with ⟨st, e | o | o⟩
  · exact ⟨_, rfl, rfl, fun hp => by cases hp⟩
  · by_cases hm : st.1.ticking = true ∧ st.1.pacing.pending ≠ .toSimulated
    · exact ⟨.more, by simp only [if_pos hm], .inl rfl, fun _ => hm.2⟩
    · exact ⟨.finished, by simp only [if_neg hm], .inr rfl, fun hp => by cases hp⟩
  · exact ⟨_, rfl, .inr rfl, fun hp => by cases hp⟩

/-- A step of a real-time leg is no tick, or it is one. -/
theorem scheduledStep_cases (T : Tickers σ) (c : RealTimeClock) (world : σ) :
    scheduledStep T (c, world) = ((c, world), .finished) ∨
      c.ticking = true ∧ ∃ p,
        scheduledStep T (c, world) = ((T .scheduler (c.stamp, world)).1, p) ∧
        p.Follows (T .scheduler (c.stamp, world)).2 ∧
        (p = .more → (T .scheduler (c.stamp, world)).1.1.pacing.pending ≠ .toSimulated) := by
  by_cases h : c.pacing.cancelled = true ∨ ¬ c.ticking = true
  · exact .inl (if_pos h)
  · exact .inr ⟨by simpa using fun ht => h (.inr ht), scheduledStep_tick T world h⟩

/-- A step of a simulated leg that is a tick. -/
theorem freeStep_tick (T : Tickers σ) (world : σ)
    (h : c.ticking = true ∧ c.pacing.pending ≠ .toRealTime) :
    ∃ p, freeStep T (c, world) = ((T .caller (c, world)).1, p) ∧
      p.Follows (T .caller (c, world)).2 := by
  unfold RealTimeClock.freeStep
  rw [if_pos h]
  rcases T .caller (c, world) with ⟨st, e | o | o⟩
  · exact ⟨_, rfl, rfl⟩
  · exact ⟨_, rfl, .inl rfl⟩
  · exact ⟨_, rfl, .inr rfl⟩

/-- A step of a simulated leg is no tick, or it is one. It is one only if nobody wishes to leave
the leg. -/
theorem freeStep_cases (T : Tickers σ) (c : RealTimeClock) (world : σ) :
    freeStep T (c, world) = ((c, world), .finished) ∨
      c.ticking = true ∧ c.pacing.pending ≠ .toRealTime ∧ ∃ p,
        freeStep T (c, world) = ((T .caller (c, world)).1, p) ∧
        p.Follows (T .caller (c, world)).2 := by
  by_cases h : c.ticking = true ∧ c.pacing.pending ≠ .toRealTime
  · exact .inr ⟨h.1, h.2, freeStep_tick T world h⟩
  · exact .inl (if_neg h)

/-- More steps than this a run does not take from here. A tick takes up four of them, for
between two ticks there are at most three. -/
def need (leg : Leg) (c : RealTimeClock) : Nat :=
  4 * c.ticksLeft +
    match leg with
    | .choosing => 2
    | .realTime => if c.pacing.cancelled ∨ ¬ c.ticking then 3 else 1
    | .simulated => if c.ticking ∧ c.pacing.pending ≠ .toRealTime then 1 else 3

theorem need_le (leg : Leg) (c : RealTimeClock) : need leg c ≤ 4 * c.ticksLeft + 3 := by
  unfold need
  cases leg <;> dsimp only <;> (try split) <;> omega

/-- The error that a leg ends with. -/
def Progress.error? : Progress → Option ClockError
  | .failed e => some e
  | _ => none

/-- A step of a leg brings the run nearer to its end. -/
def Nears (leg : Leg) (c d : RealTimeClock) : Progress → Prop
  | .more => need leg d < need leg c
  | .finished => need .choosing d < need leg c
  | .failed _ => True

/-- A leg whose next step is a tick is nearer to its end after it. -/
theorem need_of_tick {leg : Leg} (hL : 0 < c.tickLength) (hl : d.tickLength = c.tickLength)
    (ht : d.time = c.time + c.tickLength) (hfit : d.time ≤ Signed.greatest) (next : Leg) :
    need next d < need leg c := by
  have hticks := Clock.ticksLeft_of_fits hL hl ht hfit
  have hnext := need_le next d
  unfold need at *
  omega

/-- A tick of a run, told and untold, and what it brings the run nearer to its end. -/
theorem Ready.ticked (h : Ready base c) (hb : behave.Public) (hL : 0 < base.tickLength)
    (thread : Thread) (world : σ) (l : Chronicle) :
    ∃ d world' r news,
      dispatch behave thread (c, world) = ((d, world'), r) ∧
      chronicled behave thread (c, (world, l)) = ((d, (world', l ++ news)), r) ∧
      Ready base d ∧ Chronicle.Tells base.tickLength (failure? r) news ∧
      ∀ o, r = .ok o → ∀ leg next, need next d < need leg c := by
  obtain ⟨hready, hok⟩ := h.tick hb hL thread world
  obtain ⟨news, hnews, htells⟩ := h.told hb hL thread world l
  have hlen := h.steady.tickLength
  rcases hd : dispatch behave thread (c, world) with ⟨⟨d, world'⟩, r⟩
  rw [hd] at hready hok hnews htells
  refine ⟨d, world', r, news, rfl, hnews, hready, htells, ?_⟩
  intro o ho leg next
  obtain ⟨htime, hfit, -⟩ := hok o ho
  exact need_of_tick (hlen ▸ hL) (hready.steady.tickLength.trans hlen.symm) (hlen ▸ htime)
    (htime ▸ hfit) next

theorem Ready.scheduledStep (h : Ready base c) (hb : behave.Public) (hL : 0 < base.tickLength)
    (world : σ) (l : Chronicle) :
    ∃ d world' p news,
      scheduledStep (dispatch behave) (c, world) = ((d, world'), p) ∧
      RealTimeClock.scheduledStep (chronicled behave) (c, (world, l)) =
        ((d, (world', l ++ news)), p) ∧
      Ready base d ∧ Nears .realTime c d p ∧ Chronicle.Tells base.tickLength p.error? news := by
  by_cases hc : c.pacing.cancelled = true ∨ ¬ c.ticking = true
  · refine ⟨c, world, .finished, [], by simp only [RealTimeClock.scheduledStep, if_pos hc],
      by simp only [RealTimeClock.scheduledStep, if_pos hc, List.append_nil], h, ?_,
      Chronicle.Clear.nil⟩
    simp only [Nears, need, if_pos hc]
    omega
  · have hs : Ready base c.stamp := ⟨h.steady.of_eq rfl rfl rfl id rfl rfl, h.idle, h.time⟩
    obtain ⟨d, world', r, news, hd, hnews, hready, htells, hnear⟩ :=
      hs.ticked hb hL .scheduler world l
    rcases r with e | o | o
    · refine ⟨d, world', .failed e, news, ?_, ?_, hready, trivial, htells⟩ <;>
        simp only [RealTimeClock.scheduledStep, if_neg hc, hd, hnews]
    · by_cases hm : d.ticking = true ∧ d.pacing.pending ≠ .toSimulated
      · refine ⟨d, world', .more, news, ?_, ?_, hready, hnear _ rfl .realTime .realTime, htells⟩ <;>
          simp only [RealTimeClock.scheduledStep, if_neg hc, hd, hnews, if_pos hm]
      · refine ⟨d, world', .finished, news, ?_, ?_, hready, hnear _ rfl .realTime .choosing,
          htells⟩ <;>
          simp only [RealTimeClock.scheduledStep, if_neg hc, hd, hnews, if_neg hm]
    · refine ⟨d, world', .finished, news, ?_, ?_, hready, hnear _ rfl .realTime .choosing,
        htells⟩ <;>
        simp only [RealTimeClock.scheduledStep, if_neg hc, hd, hnews]

theorem Ready.freeStep (h : Ready base c) (hb : behave.Public) (hL : 0 < base.tickLength)
    (world : σ) (l : Chronicle) :
    ∃ d world' p news,
      freeStep (dispatch behave) (c, world) = ((d, world'), p) ∧
      RealTimeClock.freeStep (chronicled behave) (c, (world, l)) =
        ((d, (world', l ++ news)), p) ∧
      Ready base d ∧ Nears .simulated c d p ∧ Chronicle.Tells base.tickLength p.error? news := by
  by_cases hc : c.ticking = true ∧ c.pacing.pending ≠ .toRealTime
  · obtain ⟨d, world', r, news, hd, hnews, hready, htells, hnear⟩ :=
      h.ticked hb hL .caller world l
    rcases r with e | o | o
    · refine ⟨d, world', .failed e, news, ?_, ?_, hready, trivial, htells⟩ <;>
        simp only [RealTimeClock.freeStep, if_pos hc, hd, hnews]
    · refine ⟨d, world', .more, news, ?_, ?_, hready, hnear _ rfl .simulated .simulated, htells⟩ <;>
        simp only [RealTimeClock.freeStep, if_pos hc, hd, hnews]
    · refine ⟨d, world', .finished, news, ?_, ?_, hready, hnear _ rfl .simulated .choosing,
        htells⟩ <;>
        simp only [RealTimeClock.freeStep, if_pos hc, hd, hnews]
  · refine ⟨c, world, .finished, [], by simp only [RealTimeClock.freeStep, if_neg hc],
      by simp only [RealTimeClock.freeStep, if_neg hc, List.append_nil], h, ?_,
      Chronicle.Clear.nil⟩
    simp only [Nears, need, if_neg hc]
    omega

/-! ## Steps of a run -/

/-- The error that a run ends with. -/
def Ending.error? : Ending → Option ClockError
  | .failed e => some e
  | _ => none

/-- The ending of a run that met this error, or none. -/
def Ending.of : Option ClockError → Ending
  | none => .fine
  | some e => .failed e

theorem Ending.of_error? {ending : Ending} (h : ∀ f, ending ≠ .broken f) :
    .of ending.error? = ending := by
  cases ending with
  | broken f => exact absurd rfl (h f)
  | _ => rfl

/-- Where a run stands after a step: a new leg begins without a wish, or the run is over. A run
breaks off only for want of a scheduler thread. -/
def Stands (L : Int) (leg : Leg) (c d : RealTimeClock) (news : Chronicle) : Leg ⊕ Ending → Prop
  | .inl next => (next = .choosing → d.pacing.pending = .none) ∧ need next d < need leg c ∧
      Chronicle.Clear L news
  | .inr ending => Chronicle.Tells L ending.error? news ∧
      ∀ f, ending = .broken f → d.pacing.settings.threadCanStart = false

/-- What a leg's step means for the run, whether it is told or not. -/
theorem follow_stands {leg : Leg} (world' : σ) (l : Chronicle) {news : Chronicle} {p : Progress}
    (hleg : leg ≠ .choosing) (hd : Ready base d) (hn : Nears leg c d p)
    (ht : Chronicle.Tells base.tickLength p.error? news) :
    ∃ e next,
      follow leg ((d, world'), p) = ((e, world'), next) ∧
      follow leg ((d, (world', l)), p) = ((e, (world', l)), next) ∧
      Ready base e ∧ Stands base.tickLength leg c e news next := by
  cases p with
  | more => exact ⟨d, .inl leg, rfl, rfl, hd, fun h => absurd h hleg, hn, ht⟩
  | failed e => exact ⟨d, .inr (.failed e), rfl, rfl, hd, ht, fun f hf => by cases hf⟩
  | finished =>
    obtain ⟨e, he, hg⟩ := applyPending_ok d
    have hready : Ready base e :=
      ⟨hd.steady.grants hg, hg.dispatching.trans hd.idle, hg.time.symm ▸ hd.time⟩
    refine ⟨e, .inl .choosing, by simp only [follow, he], by simp only [follow, he], hready,
      fun _ => hg.pending, ?_, ht⟩
    have hticks : e.ticksLeft = d.ticksLeft := by
      unfold Clock.ticksLeft
      rw [hg.time, hg.tickLength]
    unfold Nears need at *
    rw [hticks]
    exact hn

/-- A scheduler thread that is not there yet can be had, unless its name forbids it. -/
theorem ensureScheduler_cases (c : RealTimeClock) :
    (∃ scheduler pins,
      c.ensureScheduler = .ok { c with pacing := { c.pacing with scheduler, pins } }) ∨
    ∃ f, c.ensureScheduler = .error f ∧ c.pacing.settings.threadCanStart = false := by
  unfold ensureScheduler
  rcases hs : c.pacing.scheduler with _ | s
  · by_cases h : c.pacing.settings.threadCanStart = true
    · left
      simp only [h, if_true]
      cases c.pacing.settings.targetCore? <;> exact ⟨_, _, rfl⟩
    · right
      exact ⟨.threadNameHasNul, by simp only [h]; rfl, Bool.eq_false_iff.mpr h⟩
  · exact .inl ⟨c.pacing.scheduler, c.pacing.pins, rfl⟩

/-- A leg in real time begins with a task that nobody has cancelled. -/
theorem schedule_cases (c : RealTimeClock) :
    (∃ scheduler pins, c.schedule =
      .ok { c with pacing := { c.pacing with scheduler, pins, cancelled := false } }) ∨
    ∃ f, c.schedule = .error f ∧ c.pacing.settings.threadCanStart = false := by
  unfold schedule
  rcases ensureScheduler_cases c with ⟨scheduler, pins, hd⟩ | ⟨f, hf, hthread⟩
  · exact .inl ⟨scheduler, pins, by rw [hd]; rfl⟩
  · exact .inr ⟨f, by rw [hf]; rfl, hthread⟩

/-- One step of a run, told and untold. -/
theorem Ready.step (h : Ready base c) (hb : behave.Public) (hL : 0 < base.tickLength) (leg : Leg)
    (hp : leg = .choosing → c.pacing.pending = .none) (world : σ) (l : Chronicle) :
    ∃ d world' next news,
      step (dispatch behave) leg (c, world) = ((d, world'), next) ∧
      RealTimeClock.step (chronicled behave) leg (c, (world, l)) =
        ((d, (world', l ++ news)), next) ∧
      Ready base d ∧ Stands base.tickLength leg c d news next := by
  cases leg with
  | realTime =>
    obtain ⟨d, world', p, news, hd, hnews, hready, hnear, htells⟩ := h.scheduledStep hb hL world l
    obtain ⟨e, next, h1, h2, h3, h4⟩ := follow_stands world' (l ++ news) (by simp)
      hready hnear htells
    exact ⟨e, world', next, news, by simp only [RealTimeClock.step, hd, h1],
      by simp only [RealTimeClock.step, hnews, h2], h3, h4⟩
  | simulated =>
    obtain ⟨d, world', p, news, hd, hnews, hready, hnear, htells⟩ := h.freeStep hb hL world l
    obtain ⟨e, next, h1, h2, h3, h4⟩ := follow_stands world' (l ++ news) (by simp)
      hready hnear htells
    exact ⟨e, world', next, news, by simp only [RealTimeClock.step, hd, h1],
      by simp only [RealTimeClock.step, hnews, h2], h3, h4⟩
  | choosing =>
    by_cases hc : c.ticking = true
    · cases hs : c.pacing.stage with
      | realTimeRunning =>
        rcases schedule_cases c with ⟨scheduler, pins, hd⟩ | ⟨f, hf, hthread⟩
        · have hready := h.steady.schedule (by rw [hs]; rfl) hd
          refine ⟨_, world, .inl .realTime, [], ?_, ?_, ⟨hready, h.idle, h.time⟩, by simp, ?_,
            Chronicle.Clear.nil⟩
          · simp only [RealTimeClock.step, if_pos hc, hs, hd]
          · simp only [RealTimeClock.step, if_pos hc, hs, hd, List.append_nil]
          · simp only [need, Clock.ticksLeft, hc]
            simp
        · refine ⟨c, world, .inr (.broken f), [], ?_, ?_, h, Chronicle.Clear.nil,
            fun _ _ => hthread⟩ <;>
            simp only [RealTimeClock.step, if_pos hc, hs, hf, List.append_nil]
      | simulatedRunning =>
        refine ⟨c, world, .inl .simulated, [], ?_, ?_, h, by simp, ?_, Chronicle.Clear.nil⟩
        · simp only [RealTimeClock.step, if_pos hc, hs]
        · simp only [RealTimeClock.step, if_pos hc, hs, List.append_nil]
        · simp only [need, hp rfl, hc]
          simp
      | _ =>
        refine ⟨c, world, .inr .fine, [], ?_, ?_, h, Chronicle.Clear.nil,
          fun _ hf => by cases hf⟩ <;>
          simp only [RealTimeClock.step, if_pos hc, hs, List.append_nil]
    · refine ⟨c, world, .inr .fine, [], ?_, ?_, h, Chronicle.Clear.nil, fun _ hf => by cases hf⟩ <;>
        simp only [RealTimeClock.step, if_neg hc, List.append_nil]

/-- A run with enough steps comes to its end, and the chronicle tells how. -/
theorem Ready.steps (h : Ready base c) (hb : behave.Public) (hL : 0 < base.tickLength)
    {n : Nat} {leg : Leg} (hp : leg = .choosing → c.pacing.pending = .none) (hn : need leg c < n)
    (world : σ) (l : Chronicle) :
    ∃ d world' ending news,
      steps (dispatch behave) n leg (c, world) = ((d, world'), .inr ending) ∧
      RealTimeClock.steps (chronicled behave) n leg (c, (world, l)) =
        ((d, (world', l ++ news)), .inr ending) ∧
      Ready base d ∧ Chronicle.Tells base.tickLength ending.error? news ∧
      ∀ f, ending = .broken f → d.pacing.settings.threadCanStart = false := by
  induction n generalizing c leg world l with
  | zero => omega
  | succ n ih =>
    obtain ⟨d, world', next, news, hd, hnews, hready, hst⟩ := h.step hb hL leg hp world l
    rcases next with next | ending
    · obtain ⟨hp', hnear, hclear⟩ := hst
      obtain ⟨e, world'', ending, more, he, hmore, hready', htells, hbroken⟩ :=
        ih hready hp' (by omega) world' (l ++ news)
      refine ⟨e, world'', ending, news ++ more, ?_, ?_, hready', hclear.tells_append htells,
        hbroken⟩
      · simp only [RealTimeClock.steps, hd, he]
      · simp only [RealTimeClock.steps, hnews, hmore, List.append_assoc]
    · refine ⟨d, world', ending, news, ?_, ?_, hready, hst⟩
      · simp only [RealTimeClock.steps, hd]
      · simp only [RealTimeClock.steps, hnews]

end RealTimeClock

end Metronome
