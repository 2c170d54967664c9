-- Two runs that part. Where one of them is interrupted, the other is stopped.
-- No tick follows in either, but the interrupted one still has a boundary
-- before it, where a wish may be granted that the stop would have made void.
import Metronome.Proofs.RealTime.Interrupts
import Metronome.Proofs.RealTime.Release
import Metronome.Proofs.Watchers

namespace Metronome

namespace RealTimeClock

variable {σ : Type} {c d e : RealTimeClock} {still : Prop} {T T' : Tickers σ}
  {behave behave' : Behaviour σ}

/-! ## Steps of both runs -/

/-- The ticks of two runs that may part in them. -/
structure Matched (still : Prop) (T T' : Tickers σ) : Prop where
  tick : ∀ {c : RealTimeClock}, c.pacing.stage.isInitial = false →
    (still → c.pacing.pending = .none) → ∀ (thread : Thread) (world : σ),
    Ticked still (T thread (c, world)) (T' thread (c, world))

theorem matched_dispatch (hb : behave.Partners still behave') :
    Matched still (dispatch behave) (dispatch behave') :=
  ⟨fun hbegun hstill thread world => tick_parts hb hbegun hstill thread world⟩

/-- What is written down of both is the same. -/
theorem matched_chronicled (hb : behave.Partners still behave') :
    Matched still (chronicled behave) (chronicled behave') :=
  ⟨fun {c} hbegun hstill thread ⟨world, l⟩ =>
    tick_parts hb.noted hbegun hstill thread (world, l ++ [Happening.asked c.time])⟩

/-- One step of both runs. -/
inductive Parts (still : Prop) : (RealTimeClock × σ) × (Leg ⊕ Ending) →
    (RealTimeClock × σ) × (Leg ⊕ Ending) → Prop
  | same {c : RealTimeClock} {world : σ} {next : Leg ⊕ Ending} :
      c.pacing.stage.isInitial = false → (still → c.pacing.pending = .none) →
      Parts still ((c, world), next) ((c, world), next)
  | failed {c d : RealTimeClock} {world : σ} {e : ClockError} :
      Parted c d → Parts still ((c, world), .inr (.failed e)) ((d, world), .inr (.failed e))
  | halted {c d : RealTimeClock} {world : σ} {leg : Leg} {p p' : Progress} :
      Parted c d → c.ticking = false → (still → c.pacing.pending = .none) → leg ≠ .choosing →
      p = .more ∨ p = .finished → p' = .more ∨ p' = .finished →
      Parts still (follow leg ((c, world), p)) (follow leg ((d, world), p'))

/-- The same progress of the same clock. -/
theorem Parts.followed (leg : Leg) (p : Progress) (world : σ)
    (hb : c.pacing.stage.isInitial = false) (hs : still → c.pacing.pending = .none) :
    Parts still (follow leg ((c, world), p)) (follow leg ((c, world), p)) := by
  cases p with
  | more => exact .same hb hs
  | failed e => exact .same hb hs
  | finished =>
    obtain ⟨d, hd, hg⟩ := applyPending_ok c
    simp only [follow, hd]
    refine .same ?_ fun _ => hg.pending
    rw [hg.stage, grantedStage_isInitial]
    exact hb

/-- What a leg makes of two ticks. -/
theorem Ticked.parts {r q : (RealTimeClock × σ) × Except ClockError TickEnd}
    (h : Ticked still r q) {leg : Leg} (hleg : leg ≠ .choosing) {p p' : Progress}
    (hp : p.Follows r.2) (hp' : p'.Follows q.2) (hsame : r = q → p = p') :
    Parts still (follow leg (r.1, p)) (follow leg (q.1, p')) := by
  obtain ⟨happ, hworld, hfail, hend⟩ := h
  rcases hend with rfl | ⟨hparted, hoff⟩
  · rw [← hsame rfl]
    exact .followed leg p r.1.2 happ.begun happ.still
  obtain ⟨⟨c, world⟩, o⟩ := r
  obtain ⟨⟨d, world'⟩, o'⟩ := q
  dsimp only at hworld hparted
  subst hworld
  rcases o with e | o <;> rcases o' with e' | o' <;> cases hfail
  · cases hp
    cases hp'
    exact .failed hparted
  · exact .halted hparted (hoff rfl) happ.still hleg hp hp'

theorem Matched.step (m : Matched still T T') (leg : Leg) (world : σ)
    (hb : c.pacing.stage.isInitial = false) (hs : still → c.pacing.pending = .none) :
    Parts still (RealTimeClock.step T leg (c, world)) (RealTimeClock.step T' leg (c, world)) := by
  cases leg with
  | realTime =>
    unfold RealTimeClock.step
    dsimp only
    by_cases h : c.pacing.cancelled = true ∨ ¬ c.ticking = true
    · simp only [scheduledStep, if_pos h]
      exact .followed .realTime .finished world hb hs
    · have htick := m.tick (c := c.stamp) hb hs .scheduler world
      obtain ⟨p, he, hp, -⟩ := scheduledStep_tick T world h
      obtain ⟨p', he', hp', -⟩ := scheduledStep_tick T' world h
      rw [he, he']
      refine htick.parts Leg.noConfusion hp hp' fun hsame => ?_
      have hstep : scheduledStep T (c, world) = scheduledStep T' (c, world) := by
        simp only [scheduledStep, if_neg h, hsame]
      rw [he, he'] at hstep
      exact congrArg Prod.snd hstep
  | simulated =>
    unfold RealTimeClock.step
    dsimp only
    by_cases h : c.ticking = true ∧ c.pacing.pending ≠ .toRealTime
    · have htick := m.tick hb hs .caller world
      obtain ⟨p, he, hp⟩ := freeStep_tick T world h
      obtain ⟨p', he', hp'⟩ := freeStep_tick T' world h
      rw [he, he']
      refine htick.parts Leg.noConfusion hp hp' fun hsame => ?_
      have hstep : freeStep T (c, world) = freeStep T' (c, world) := by
        simp only [freeStep, if_pos h, hsame]
      rw [he, he'] at hstep
      exact congrArg Prod.snd hstep
    · simp only [freeStep, if_neg h]
      exact .followed .simulated .finished world hb hs
  | choosing =>
    change Parts still (RealTimeClock.step T .choosing (c, world))
      (RealTimeClock.step T .choosing (c, world))
    by_cases ht : c.ticking = true
    · cases hst : c.pacing.stage with
      | realTimeRunning =>
        rcases schedule_cases c with ⟨scheduler, pins, hd⟩ | ⟨f, hf, -⟩
        · simp only [RealTimeClock.step, if_pos ht, hst, hd]
          exact .same rfl hs
        · simp only [RealTimeClock.step, if_pos ht, hst, hf]
          exact .same hb hs
      | _ =>
        simp only [RealTimeClock.step, if_pos ht, hst]
        exact .same hb hs
    · simp only [RealTimeClock.step, if_neg ht]
      exact .same hb hs

/-! ## The ends of both runs -/

/-- A clock that does not tick is at the end of its run. -/
theorem steps_choosing_halted {n : Nat} {world world' : σ} {ending : Ending}
    (ht : c.ticking = false)
    (h : steps T n .choosing (c, world) = ((e, world'), .inr ending)) :
    ending = .fine ∧ world' = world ∧ e = c := by
  cases n with
  | zero => cases h
  | succ n =>
    simp only [steps, RealTimeClock.step, ht] at h
    cases h
    exact ⟨rfl, rfl, rfl⟩

/-- Before that end, there is one boundary at most. -/
theorem steps_halted {n : Nat} {leg : Leg} (hleg : leg ≠ .choosing) {world world' : σ}
    {ending : Ending} (ht : c.ticking = false)
    (h : steps T n leg (c, world) = ((e, world'), .inr ending)) :
    ending = .fine ∧ world' = world ∧ c.applyPending = .ok e := by
  obtain ⟨d, hd, hg⟩ := applyPending_ok c
  have hstep : RealTimeClock.step T leg (c, world) = ((d, world), .inl .choosing) := by
    cases leg with
    | choosing => exact absurd rfl hleg
    | realTime => simp [RealTimeClock.step, scheduledStep, ht, follow, hd]
    | simulated => simp [RealTimeClock.step, freeStep, ht, follow, hd]
  cases n with
  | zero => cases h
  | succ n =>
    simp only [steps, hstep] at h
    obtain ⟨hend, hworld, rfl⟩ := steps_choosing_halted (hg.ticking.trans ht) h
    exact ⟨hend, hworld, hd⟩

/-- So it is right after the last tick, whether the leg is over yet or not. -/
theorem steps_of_followed {n : Nat} {leg : Leg} (hleg : leg ≠ .choosing) {p : Progress}
    (hp : p = .more ∨ p = .finished) {world world' : σ} {ending : Ending}
    (ht : c.ticking = false) {r : (RealTimeClock × σ) × (Leg ⊕ Ending)}
    (hr : follow leg ((c, world), p) = r)
    (h : (match r with
      | (st, .inl leg) => steps T n leg st
      | (st, .inr ending) => (st, .inr ending)) = ((e, world'), .inr ending)) :
    ending = .fine ∧ world' = world ∧ c.applyPending = .ok e := by
  subst hr
  rcases hp with rfl | rfl
  · exact steps_halted hleg ht h
  · obtain ⟨d, hd, hg⟩ := applyPending_ok c
    simp only [follow, hd] at h
    obtain ⟨hend, hworld, rfl⟩ := steps_choosing_halted (hg.ticking.trans ht) h
    exact ⟨hend, hworld, hd⟩

/-- The clocks went apart in the last tick, and a boundary may have come after it. -/
def Departed (still : Prop) (e e' : RealTimeClock) : Prop :=
  ∃ c d, Parted c d ∧ ((e = c ∧ e' = d) ∨
    (still → c.pacing.pending = .none) ∧ c.applyPending = .ok e ∧ d.applyPending = .ok e')

/-- Both runs come to the same end. -/
theorem Matched.steps (m : Matched still T T') {n n' : Nat} {leg : Leg} {world w w' : σ}
    {e' : RealTimeClock} {ending ending' : Ending} (hb : c.pacing.stage.isInitial = false)
    (hs : still → c.pacing.pending = .none)
    (h : RealTimeClock.steps T n leg (c, world) = ((e, w), .inr ending))
    (h' : RealTimeClock.steps T' n' leg (c, world) = ((e', w'), .inr ending')) :
    w = w' ∧ ending = ending' ∧
      (e = e' ∨ (∀ f, ending ≠ .broken f) ∧ Departed still e e') := by
  induction n generalizing c leg world n' with
  | zero => cases h
  | succ n ih =>
    cases n' with
    | zero => cases h'
    | succ n' =>
      have hparts := m.step leg world hb hs
      unfold RealTimeClock.steps at h h'
      generalize RealTimeClock.step T leg (c, world) = r at hparts h
      generalize RealTimeClock.step T' leg (c, world) = q at hparts h'
      cases hparts with
      | @same d world next hb' hs' =>
        rcases next with next | ending
        · exact ih hb' hs' h h'
        · cases h
          cases h'
          exact ⟨rfl, rfl, .inl rfl⟩
      | @failed d d' world f hparted =>
        cases h
        cases h'
        exact ⟨rfl, rfl, .inr ⟨fun _ => Ending.noConfusion, _, _, hparted, .inl ⟨rfl, rfl⟩⟩⟩
      | @halted d d' world leg p p' hparted hoff hs' hleg hp hp' =>
        have hoff' : d'.ticking = false := by
          obtain ⟨-, -, i, q, rfl⟩ := hparted
          rfl
        obtain ⟨rfl, hw, he⟩ := steps_of_followed hleg hp hoff rfl h
        obtain ⟨rfl, hw', he'⟩ := steps_of_followed hleg hp' hoff' rfl h'
        exact ⟨hw.trans hw'.symm, rfl,
          .inr ⟨fun _ => Ending.noConfusion, _, _, hparted, .inr ⟨hs', he, he'⟩⟩⟩

/-- The watchers of a run that was interrupted heard what those of the stopped run heard, or of one
change of pace besides, right before the end. -/
def Echoes (still : Prop) (c d : RealTimeClock) : Prop :=
  c.time = d.time ∧ c.pacing.stage = d.pacing.stage ∧ (c.feed = d.feed ∨
    ¬ still ∧ ∃ (feed : Feed) (m : Mode), m ≠ .stopped ∧ d.feed = feed.publish ⟨.stopped, d.time⟩ ∧
      c.feed = (feed.publish ⟨m.event, d.time⟩).publish ⟨.stopped, d.time⟩)

/-- Until their ends, both runs are heard alike but for that change. -/
theorem Departed.heard {e' : RealTimeClock} (h : Departed still e e') :
    e.time = e'.time ∧ (e.feed = e'.feed ∨
      ¬ still ∧ ∃ m : Mode, m ≠ .stopped ∧ e.feed = e'.feed.publish ⟨m.event, e'.time⟩) := by
  obtain ⟨c, d, ⟨-, -, i, p, rfl⟩, ⟨rfl, rfl⟩ | ⟨hstill, he, he'⟩⟩ := h
  · exact ⟨rfl, .inl rfl⟩
  obtain ⟨_, hd, hg⟩ := applyPending_ok c
  rw [he] at hd
  cases hd
  obtain ⟨_, hd', hg'⟩ := applyPending_ok (c.ceased i p)
  rw [he'] at hd'
  cases hd'
  have hquiet : mode e' = mode (c.ceased i p) := by
    unfold mode
    rw [hg'.stage]
    change (grantedStage p .stopped).mode = Stage.stopped.mode
    cases p <;> rfl
  have htime : e.time = e'.time := hg.time.trans hg'.time.symm
  have hfeed : e'.feed = c.feed := (applyPending_told he').feed hquiet
  refine ⟨htime, ?_⟩
  rcases applyPending_told he with ⟨-, hsame⟩ | ⟨hne, hgoes, hnews⟩
  · exact .inl (hsame.trans hfeed.symm)
  · refine .inr ⟨fun hs => hne ?_, e.mode, hgoes, ?_⟩
    · unfold mode
      rw [hg.stage, hstill hs]
      rfl
    · rw [hnews, hfeed, ← htime, hg.time]

theorem Departed.echoes {base e' : RealTimeClock} (h : Departed still e e') (he : Steady base e)
    (he' : Steady base e') : Echoes still e.conclude e'.conclude := by
  obtain ⟨htime, hfeed⟩ := h.heard
  rw [conclude_eq he, conclude_eq he']
  have hstop (c : RealTimeClock) :
      (c.ended.publish .stopped).feed = c.feed.publish ⟨.stopped, c.time⟩ := rfl
  refine ⟨htime, rfl, ?_⟩
  rw [hstop, hstop, htime]
  rcases hfeed with hfeed | ⟨hs, m, hm, hfeed⟩
  · exact .inl (by rw [hfeed])
  · exact .inr ⟨hs, e'.feed, m, hm, rfl, by rw [hfeed]; rfl⟩

/-- Both runs of a clock at rest. -/
theorem Rested.start_parts (h : Rested c) (hb : behave.Partners still behave')
    (hl : c.launch = .ok d) (world : σ) :
    let r := RealTimeClock.start (dispatch behave) (c, world)
    let q := RealTimeClock.start (dispatch behave') (c, world)
    chronicle behave (c, world) = chronicle behave' (c, world) ∧ r.1.2 = q.1.2 ∧ r.2 = q.2 ∧
      Echoes still r.1.1 q.1.1 := by
  obtain ⟨hready, hpend⟩ := h.launched hl
  have hneed := need_lt_enoughSteps d
  obtain ⟨e, w, ending, news, hrun, htold, hsteady, -⟩ :=
    hready.steps hb.isPublic h.tickLength (fun _ => hpend) hneed world []
  obtain ⟨e', w', ending', news', hrun', htold', hsteady', -⟩ :=
    hready.steps hb.isPublic' h.tickLength (fun _ => hpend) hneed world []
  obtain ⟨hw, hend, hrest⟩ :=
    (matched_dispatch hb).steps hready.steady.begun (fun _ => hpend) hrun hrun'
  obtain ⟨hnews, -, -⟩ :=
    (matched_chronicled hb).steps hready.steady.begun (fun _ => hpend) htold htold'
  subst hend
  refine ⟨?_, ?_, ?_, ?_⟩
  · simp only [chronicle, start_eq hl htold, start_eq hl htold']
    exact congrArg Prod.snd hnews
  · simp only [start_eq hl hrun, start_eq hl hrun', hw]
  · simp only [start_eq hl hrun, start_eq hl hrun']
  · simp only [start_eq hl hrun, start_eq hl hrun']
    rcases hrest with rfl | ⟨hfine, hdep⟩
    · exact ⟨rfl, rfl, .inl rfl⟩
    · have hechoes := hdep.echoes hsteady.steady hsteady'.steady
      cases ending with
      | broken f => exact absurd rfl (hfine f)
      | _ => exact hechoes

/-- A run in which interrupts are made stops is the same run, whatever the listeners do that do not
heed what the clock says of its own run. Only a change of pace that is still wished for when the
interrupted run ends is heard of, and then right before the end. -/
theorem an_interrupt_ends_a_run_like_a_stop {behave behave' : Behaviour σ} (hb : behave.Public)
    (hh : ∀ v world, (behave v world).Heedless)
    (hs : ∀ v world, (behave v world).Swaps (behave' v world))
    {st : RealTimeClock × σ} (hr : Reached behave st) :
    let r := start (dispatch behave) st
    let q := start (dispatch behave') st
    chronicle behave st = chronicle behave' st ∧ r.1.2 = q.1.2 ∧ r.2 = q.2 ∧
      r.1.1.time = q.1.1.time ∧ r.1.1.pacing.stage = q.1.1.pacing.stage ∧
      (r.1.1.feed = q.1.1.feed ∨ ¬ behave.Asks (fun call => call.isRequest = false) ∧
        ∃ (feed : Feed) (m : Mode), m ≠ .stopped ∧
          q.1.1.feed = feed.publish ⟨.stopped, q.1.1.time⟩ ∧
          r.1.1.feed = (feed.publish ⟨m.event, q.1.1.time⟩).publish ⟨.stopped, q.1.1.time⟩) := by
  obtain ⟨c, world⟩ := st
  have hpartners :
      behave.Partners (behave.Asks fun call => call.isRequest = false) behave' := by
    refine ⟨fun v w => ?_, hh, hs⟩
    by_cases hstill : behave.Asks fun call => call.isRequest = false
    · exact ((hb v w).and (hstill v w)).imp fun _ h => ⟨h.1, fun _ => h.2⟩
    · exact (hb v w).imp fun _ h => ⟨h, fun h' => absurd h' hstill⟩
  rcases hl : c.launch with e | d
  · simp only [chronicle, start, hl, and_self, true_or]
  · exact (hr.rested hb (launch_initial hl)).start_parts hpartners hl world

/-- A listener that asks for simulated time in its first tick, and leaves. -/
def leaving (way : Call) : Behaviour Nat := fun v n =>
  match v.phase, n with
  | .tick, 0 => .ask .switchToSimulated fun _ => .ask way fun _ => .finish 1 .fine
  | _, n => .finish n .fine

/-- A plain clock and someone who watches it. -/
def watched : RealTimeClock := { plain with feed := ((⟨[]⟩ : Feed).subscribe none).1 }

theorem watched_reached (behave : Behaviour σ) (world : σ) : Reached behave (watched, world) :=
  .called (.subscribe none) (plain_reached behave world) rfl

theorem leaving_public {way : Call} (h : way.isPublic = true) : (leaving way).Public := by
  intro v n
  unfold leaving
  split
  · exact ⟨rfl, fun _ => ⟨h, fun _ => trivial⟩⟩
  · trivial

theorem leaving_heedless (way : Call) (v : Visit) (n : Nat) : (leaving way v n).Heedless := by
  unfold leaving
  split
  · exact ⟨fun _ _ _ => rfl, fun _ => ⟨fun _ _ _ => rfl, fun _ => trivial⟩⟩
  · trivial

theorem leaving_swaps (v : Visit) (n : Nat) :
    (leaving .interrupt v n).Swaps (leaving .stop v n) := by
  unfold leaving
  split
  · exact .ask _ fun _ => .swap fun _ => .finish _ _
  · exact .finish _ _

theorem leaving_by_an_interrupt_is_leaving_by_a_stop :
    let r := start (dispatch (leaving .interrupt)) (watched, 0)
    let q := start (dispatch (leaving .stop)) (watched, 0)
    chronicle (leaving .interrupt) (watched, 0) = chronicle (leaving .stop) (watched, 0) ∧
      r.2 = .fine ∧ q.2 = .fine ∧ r.1.1.time = 1000 ∧ r.1.1.time = q.1.1.time := by
  obtain ⟨hchronicle, -, hend, htime, -⟩ := an_interrupt_ends_a_run_like_a_stop
    (leaving_public rfl) (leaving_heedless .interrupt) leaving_swaps
    (watched_reached (leaving .interrupt) 0)
  exact ⟨hchronicle, rfl, hend.symm, rfl, htime⟩

/-- But the watcher hears of a pace that the interrupted run takes up for no tick at all. -/
theorem an_interrupt_can_be_told_from_a_stop :
    ¬ ∀ (behave behave' : Behaviour Nat) (st : RealTimeClock × Nat), behave.Public →
      (∀ v world, (behave v world).Heedless) →
      (∀ v world, (behave v world).Swaps (behave' v world)) →
      Reached behave st →
      (start (dispatch behave) st).1.1.feed.queue 0 =
        (start (dispatch behave') st).1.1.feed.queue 0 := by
  intro h
  have hsame := h _ _ _ (leaving_public rfl) (leaving_heedless .interrupt) leaving_swaps
    (watched_reached (leaving .interrupt) 0)
  have hheard : (start (dispatch (leaving .interrupt)) (watched, 0)).1.1.feed.queue 0 =
      [⟨.started, 0⟩, ⟨.switchToSimTime, 1000⟩, ⟨.stopped, 1000⟩] := rfl
  have hheard' : (start (dispatch (leaving .stop)) (watched, 0)).1.1.feed.queue 0 =
      [⟨.started, 0⟩, ⟨.stopped, 1000⟩] := rfl
  rw [hheard, hheard'] at hsame
  cases hsame

end RealTimeClock

end Metronome
