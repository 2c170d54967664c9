-- Interrupts and stops, inside a tick. A listener that interrupts the clock
-- and one that stops it see the same clock from then on, unless they listen to
-- what it says of its own run.
import Metronome.Proofs.RealTime.Course

namespace Metronome

/-! ## Listeners that stop instead -/

namespace Call

/-- The answer may tell a clock that was stopped from one that was interrupted. -/
def reveals : Call → Bool
  | .start | .switchToRealTime | .switchToSimulated => true
  | .ticking | .mode | .stage | .pinned | .pins => true
  | _ => false

/-- A request for another pace. -/
def isRequest : Call → Bool
  | .switchToRealTime | .switchToSimulated => true
  | _ => false

/-- A public call, and no request if all is to stay `still`. -/
def Fair (still : Prop) (call : Call) : Prop :=
  call.isPublic = true ∧ (still → call.isRequest = false)

end Call

namespace Program

variable {σ : Type}

/-- The program goes on in the same way, whatever the clock says of its own run. -/
def Heedless : Program σ → Prop
  | .finish _ _ => True
  | .ask call next => (call.reveals = true → ∀ a b, next a = next b) ∧ ∀ a, (next a).Heedless

/-- The second program is the first one, but for some interrupts that are stops. -/
inductive Swaps : Program σ → Program σ → Prop
  | finish (world : σ) (verdict : Verdict) : Swaps (.finish world verdict) (.finish world verdict)
  | ask {next next' : Answer → Program σ} (call : Call) :
      (∀ a, Swaps (next a) (next' a)) → Swaps (.ask call next) (.ask call next')
  | swap {next next' : Answer → Program σ} :
      (∀ a, Swaps (next a) (next' a)) → Swaps (.ask .interrupt next) (.ask .stop next')

theorem Swaps.asks {p p' : Program σ} (h : p.Swaps p')
    (hp : p.Asks fun call => call.isPublic = true) : p'.Asks fun call => call.isPublic = true := by
  induction h with
  | finish world verdict => trivial
  | ask call _ ih => exact ⟨hp.1, fun a => ih a (hp.2 a)⟩
  | swap _ ih => exact ⟨rfl, fun a => ih a (hp.2 a)⟩

theorem Swaps.noting {p p' : Program σ} (h : p.Swaps p') (entry : Verdict → Happening)
    (l : Chronicle) : (p.noting entry l).Swaps (p'.noting entry l) := by
  induction h with
  | finish world verdict => exact .finish _ _
  | ask call _ ih => exact .ask call ih
  | swap _ ih => exact .swap ih

theorem Heedless.noting {p : Program σ} (h : p.Heedless) (entry : Verdict → Happening)
    (l : Chronicle) : (p.noting entry l).Heedless := by
  induction p with
  | finish world verdict => trivial
  | ask call next ih =>
    refine ⟨fun hr a b => ?_, fun a => ih a (h.2 a)⟩
    exact congrArg _ (h.1 hr a b)

end Program

/-- The second listeners stop the clock where the first ones interrupt it, here or there, and
neither heeds what the clock says of its own run. -/
structure Behaviour.Partners {σ : Type} (still : Prop) (behave behave' : Behaviour σ) : Prop where
  fair : behave.Asks (Call.Fair still)
  heedless : ∀ v world, (behave v world).Heedless
  swaps : ∀ v world, (behave v world).Swaps (behave' v world)

namespace Behaviour.Partners

variable {σ : Type} {still : Prop} {behave behave' : Behaviour σ}

theorem isPublic (h : behave.Partners still behave') : behave.Public := fun v world =>
  (h.fair v world).imp fun _ hc => hc.1

theorem isPublic' (h : behave.Partners still behave') : behave'.Public := fun v world =>
  (h.swaps v world).asks (h.isPublic v world)

theorem noted (h : behave.Partners still behave') :
    behave.noted.Partners still behave'.noted where
  fair := Behaviour.noted_asks h.fair
  heedless v world := (h.heedless v world.1).noting _ _
  swaps v world := (h.swaps v world.1).noting _ _

end Behaviour.Partners

namespace RealTimeClock

variable {σ : Type} {c d : RealTimeClock} {still : Prop}

/-! ## Clocks that went apart -/

/-- What a stop makes of the clock, with an interrupt and a wish that nobody will heed. -/
def ceased (c : RealTimeClock) (interrupted : Bool) (pending : Pending) : RealTimeClock :=
  { c.ended with interrupted, pacing := { c.ended.pacing with pending } }

section

variable (c : RealTimeClock) (interrupted : Bool) (pending : Pending)

@[simp] theorem ceased_roster : (c.ceased interrupted pending).roster = c.roster := rfl

@[simp] theorem ceased_budget : (c.ceased interrupted pending).budget = c.budget := rfl

@[simp] theorem ceased_stamps :
    (c.ceased interrupted pending).pacing.stamps = c.pacing.stamps := rfl

@[simp] theorem ceased_pauses :
    (c.ceased interrupted pending).pacing.pauses = c.pacing.pauses := rfl

@[simp] theorem ceased_begun :
    (c.ceased interrupted pending).pacing.stage.isInitial = false := rfl

/-- A second stop finds nothing left to end. -/
theorem ended_ceased : (c.ceased interrupted pending).ended = c.ceased interrupted pending := by
  simp [ended, ceased, isPinned]

theorem ceased_ended (i : Bool) (p : Pending) :
    (c.ceased i p).ceased interrupted pending = c.ceased interrupted pending := by
  simp [ended, ceased, isPinned]

end

/-- `c` was interrupted, or it was stopped later, where `d` was stopped. -/
structure Parted (c d : RealTimeClock) : Prop where
  begun : c.pacing.stage.isInitial = false
  ending : c.interrupted = true ∨ c.ticking = false
  ceased : ∃ interrupted pending, d = c.ceased interrupted pending

/-- The clocks went apart, or they are the same still. -/
structure Apart (still : Prop) (c d : RealTimeClock) : Prop where
  begun : c.pacing.stage.isInitial = false
  still : still → c.pacing.pending = .none
  apart : c = d ∨ Parted c d

theorem Parted.serve (h : Parted c d) {call : Call} (hp : call.isPublic = true) :
    Parted (serve c call).1 (serve d call).1 ∧
      (call.reveals = false → (serve c call).2 = (serve d call).2) := by
  obtain ⟨hb, he, i, p, rfl⟩ := h
  have same : Parted c (c.ceased i p) := ⟨hb, he, i, p, rfl⟩
  cases call with
  | override o => cases hp
  | start =>
    obtain ⟨e, hc⟩ := launch_begun hb
    obtain ⟨e', hd⟩ := launch_begun (c.ceased_begun i p)
    simp only [RealTimeClock.serve, answer, start, hc, hd]
    exact ⟨same, fun h => by cases h⟩
  | stop =>
    simp only [RealTimeClock.serve, answer, stop_eq hb, stop_eq (c.ceased_begun i p), settle]
    refine ⟨⟨rfl, .inr rfl, i, p, ?_⟩, fun _ => trivial⟩
    rw [ended_ceased]
    exact (c.ceased_ended i p c.interrupted c.pacing.pending).symm
  | switchToRealTime =>
    simp only [RealTimeClock.serve, answer, switchToRealTime_begun hb,
      switchToRealTime_begun (c.ceased_begun i p)]
    refine ⟨?_, fun h => by cases h⟩
    by_cases hr : c.pacing.stage.isRunning = true
    · rw [if_pos hr]
      exact ⟨hb, he, i, p, rfl⟩
    · rw [if_neg hr]
      exact same
  | switchToSimulated =>
    simp only [RealTimeClock.serve, answer, switchToSimulated_begun hb,
      switchToSimulated_begun (c.ceased_begun i p)]
    refine ⟨?_, fun h => by cases h⟩
    by_cases hr : c.pacing.stage.isRunning = true
    · rw [if_pos hr]
      exact ⟨hb, he, i, p, rfl⟩
    · rw [if_neg hr]
      exact same
  | interrupt => exact ⟨⟨hb, .inl rfl, true, p, rfl⟩, fun _ => rfl⟩
  | register x =>
    simp only [RealTimeClock.serve, answer, Clock.register, ceased_roster]
    cases c.roster.register? x with
    | none => exact ⟨same, fun _ => rfl⟩
    | some roster => exact ⟨⟨hb, he, i, p, rfl⟩, fun _ => rfl⟩
  | unregister x =>
    simp only [RealTimeClock.serve, answer, Clock.unregister, ceased_roster]
    cases c.roster.unregister? x with
    | none => exact ⟨same, fun _ => rfl⟩
    | some roster => exact ⟨⟨hb, he, i, p, rfl⟩, fun _ => rfl⟩
  | jitter =>
    simp only [RealTimeClock.serve, answer, jitter, ceased_stamps, ceased_pauses]
    cases span c.pacing.stamps with
    | error f => exact ⟨same, fun _ => rfl⟩
    | ok nanos => exact ⟨⟨hb, he, i, p, rfl⟩, fun _ => rfl⟩
  | pauseTime nanos => exact ⟨⟨hb, he, i, p, rfl⟩, fun _ => rfl⟩
  | subscribe wanted => exact ⟨⟨hb, he, i, p, rfl⟩, fun _ => rfl⟩
  | drain j => exact ⟨⟨hb, he, i, p, rfl⟩, fun _ => rfl⟩
  | letGo j => exact ⟨⟨hb, he, i, p, rfl⟩, fun _ => rfl⟩
  | ticking | mode | stage | pinned | pins => exact ⟨same, fun h => by cases h⟩
  | _ => exact ⟨same, fun _ => rfl⟩

/-- Who makes no request changes no wish. -/
theorem serve_pending (hb : c.pacing.stage.isInitial = false) {call : Call}
    (hp : call.isPublic = true) (hr : call.isRequest = false) :
    (serve c call).1.pacing.pending = c.pacing.pending := by
  by_cases ht : call.isTurning = true
  · cases call with
    | start =>
      obtain ⟨e, he⟩ := launch_begun hb
      simp only [serve, answer, start, he]
    | stop =>
      simp only [serve, answer, stop_eq hb]
      rfl
    | switchToRealTime => cases hr
    | switchToSimulated => cases hr
    | _ => cases ht
  · obtain ⟨_, _, _, _, he, -⟩ := serve_plain c hp (Bool.eq_false_iff.mpr ht)
    rw [he]

theorem Apart.serve (h : Apart still c d) {call : Call} (hf : call.Fair still) :
    Apart still (serve c call).1 (serve d call).1 ∧
      (call.reveals = false → (serve c call).2 = (serve d call).2) := by
  have hbegun : (RealTimeClock.serve c call).1.pacing.stage.isInitial = false := by
    rcases serve_cases hf.1 h.begun with ⟨-, he⟩ | hs
    · rw [he]
      rfl
    · rw [hs.stage]
      exact h.begun
  have hstill (hs : still) : (RealTimeClock.serve c call).1.pacing.pending = .none :=
    (serve_pending h.begun hf.1 (hf.2 hs)).trans (h.still hs)
  rcases h.apart with rfl | hparted
  · exact ⟨⟨hbegun, hstill, .inl rfl⟩, fun _ => rfl⟩
  · obtain ⟨hparted', hanswer⟩ := hparted.serve hf.1
    exact ⟨⟨hbegun, hstill, .inr hparted'⟩, hanswer⟩

/-- Here the ways part. -/
theorem Apart.swap (h : Apart still c d) :
    ∃ d', RealTimeClock.serve d .stop = (d', .done) ∧
      Apart still (RealTimeClock.serve c .interrupt).1 d' := by
  rcases h.apart with rfl | hparted
  · refine ⟨c.ended, by simp only [RealTimeClock.serve, answer, stop_eq h.begun, settle],
      h.begun, h.still, .inr ⟨h.begun, .inl rfl, c.interrupted, c.pacing.pending, rfl⟩⟩
  · obtain ⟨hb, -, i, p, rfl⟩ := hparted
    refine ⟨c.ceased i p, ?_, h.begun, h.still, .inr ⟨hb, .inl rfl, i, p, rfl⟩⟩
    simp only [RealTimeClock.serve, answer, stop_eq (c.ceased_begun i p), settle, ended_ceased]

theorem Apart.budget (h : Apart still c d) : d.budget = c.budget := by
  rcases h.apart with rfl | ⟨-, -, i, p, rfl⟩
  · rfl
  · exact ceased_budget c i p

/-- Both clocks lend out the same budget. -/
theorem Apart.withBudget (h : Apart still c d) (b : Budget) :
    Apart still { c with budget := b } { d with budget := b } := by
  refine ⟨h.begun, h.still, ?_⟩
  rcases h.apart with rfl | ⟨hb, he, i, p, rfl⟩
  · exact .inl rfl
  · exact .inr ⟨hb, he, i, p, rfl⟩

theorem Apart.reply (h : Apart still c d) (phase : Phase) {call : Call} (hf : call.Fair still) :
    Apart still (Program.reply RealTimeClock.serve phase c call).1
        (Program.reply RealTimeClock.serve phase d call).1 ∧
      (call.reveals = false → (Program.reply RealTimeClock.serve phase c call).2 =
        (Program.reply RealTimeClock.serve phase d call).2) := by
  have hserve := h.serve hf
  have hbudget := h.budget
  unfold Program.reply
  cases call with
  | consume amount =>
    cases phase with
    | after => exact ⟨h, fun _ => rfl⟩
    | tick =>
      simp only [Program.onBudget, hbudget]
      cases c.budget.consume amount with
      | error e => exact ⟨h, fun _ => rfl⟩
      | ok b => exact ⟨h.withBudget b, fun _ => rfl⟩
  | consumeAll =>
    cases phase with
    | after => exact ⟨h, fun _ => rfl⟩
    | tick =>
      simp only [Program.onBudget, hbudget]
      exact ⟨h.withBudget _, fun _ => rfl⟩
  | budget => exact ⟨h, fun _ => congrArg Answer.budget hbudget.symm⟩
  | _ => exact hserve

/-! ## Callbacks -/

/-- The callbacks end alike, in the same world. -/
theorem Apart.program (phase : Phase) {p p' : Program σ} (hs : p.Swaps p') (hh : p.Heedless)
    (hf : p.Asks (Call.Fair still)) (h : Apart still c d) :
    let r := Program.run RealTimeClock.serve phase p c
    let q := Program.run RealTimeClock.serve phase p' d
    Apart still r.1.1 q.1.1 ∧ r.1.2 = q.1.2 ∧ r.2 = q.2 := by
  induction hs generalizing c d with
  | finish world verdict => exact ⟨h, rfl, rfl⟩
  | @ask next next' call _ ih =>
    obtain ⟨happ, hanswer⟩ := h.reply phase hf.1
    have hnext : next (Program.reply RealTimeClock.serve phase c call).2 =
        next (Program.reply RealTimeClock.serve phase d call).2 := by
      by_cases hr : call.reveals = true
      · exact hh.1 hr _ _
      · rw [hanswer (Bool.eq_false_iff.mpr hr)]
    unfold Program.run
    dsimp only
    rw [hnext]
    exact ih _ (hh.2 _) (hf.2 _) happ
  | @swap next next' _ ih =>
    obtain ⟨d', hd', happ⟩ := h.swap
    have hstop : Program.reply RealTimeClock.serve phase d .stop = (d', .done) := hd'
    unfold Program.run
    dsimp only
    rw [hstop]
    exact ih _ (hh.2 _) (hf.2 _) happ

variable {behave behave' : Behaviour σ}

theorem Apart.visits (hb : behave.Partners still behave') (phase : Phase) (thread : Thread)
    (start : Int) (xs : List Listener) (h : Apart still c d) (world : σ) :
    let r := Clock.visitAll RealTimeClock.serve behave phase thread start xs (c, world)
    let q := Clock.visitAll RealTimeClock.serve behave' phase thread start xs (d, world)
    Apart still r.1.1 q.1.1 ∧ r.1.2 = q.1.2 ∧ r.2 = q.2 := by
  induction xs generalizing c d world with
  | nil => exact ⟨h, rfl, rfl⟩
  | cons x xs ih =>
    let v : Visit := ⟨x, phase, c.budget, thread⟩
    obtain ⟨happ, hworld, hverdict⟩ :=
      h.program phase (hb.swaps v world) (hb.heedless v world) (hb.fair v world)
    intro r q
    simp only [r, q, Clock.visitAll, h.budget]
    rcases hr : Program.run RealTimeClock.serve phase (behave v world) c with ⟨⟨c', world'⟩, o⟩
    rcases hq : Program.run RealTimeClock.serve phase (behave' v world) d with ⟨⟨d', world''⟩, o'⟩
    rw [hr, hq] at happ hworld hverdict
    dsimp only at happ hworld hverdict ⊢
    subst hworld hverdict
    cases o.error? start with
    | some e => exact ⟨happ, rfl, rfl⟩
    | none => exact ih happ world'

/-! ## Ticks -/

/-- How two ticks end that began alike: in the same world and with the same error, or none. The
first of two clocks that went apart ticks on no more than the second. -/
structure Ticked (still : Prop) (r q : (RealTimeClock × σ) × Except ClockError TickEnd) : Prop where
  apart : Apart still r.1.1 q.1.1
  world : r.1.2 = q.1.2
  failure : failure? r.2 = failure? q.2
  ending : r = q ∨ Parted r.1.1 q.1.1 ∧ (failure? r.2 = none → r.1.1.ticking = false)

/-- The dispatch is over, and nothing else has changed. -/
theorem Apart.undispatched (h : Apart still c d) :
    Apart still { c with dispatching := false } { d with dispatching := false } := by
  refine ⟨h.begun, h.still, ?_⟩
  rcases h.apart with rfl | ⟨hb, he, i, p, rfl⟩
  · exact .inl rfl
  · exact .inr ⟨hb, he, i, p, rfl⟩

/-- The end of a tick uses the interrupt up, and ends the ticking as the stop did. -/
theorem Parted.advance (h : Parted c d) :
    Parted c.advance.1 d.advance.1 ∧ c.advance.1.ticking = false := by
  obtain ⟨hb, he, i, p, rfl⟩ := h
  have hoff : c.advance.1.ticking = false := by
    unfold Clock.advance
    by_cases hi : c.interrupted = true
    · rw [if_pos hi]
    · rw [if_neg hi]
      exact he.resolve_left hi
  refine ⟨⟨?_, .inr hoff, false, p, ?_⟩, hoff⟩
  · unfold Clock.advance
    by_cases hi : c.interrupted = true
    · rw [if_pos hi]
      exact hb
    · rw [if_neg hi]
      exact hb
  · unfold Clock.advance
    by_cases hi : c.interrupted = true
    · rw [if_pos hi]
      cases i <;> rfl
    · rw [if_neg hi]
      cases i <;> rfl

theorem Apart.ticked (h : Apart still c d) {e : ClockError} {world : σ} :
    Ticked still (({ c with dispatching := false }, world), .error e)
      (({ d with dispatching := false }, world), .error e) := by
  have happ := h.undispatched
  refine ⟨happ, rfl, rfl, ?_⟩
  rcases happ.apart with heq | hparted
  · exact .inl (by rw [heq])
  · exact .inr ⟨hparted, fun hn => by cases hn⟩

theorem Apart.advanced (h : Apart still c d) (world : σ) :
    Ticked still ((c.advance.1, world), .ok c.advance.2)
      ((d.advance.1, world), .ok d.advance.2) := by
  have hpacing : c.advance.1.pacing = c.pacing := c.advance_moved.pacing
  refine ⟨⟨by rw [hpacing]; exact h.begun, fun hs => by rw [hpacing]; exact h.still hs, ?_⟩,
    rfl, rfl, ?_⟩
  · rcases h.apart with rfl | hparted
    · exact .inl rfl
    · exact .inr hparted.advance.1
  · rcases h.apart with rfl | hparted
    · exact .inl rfl
    · exact .inr ⟨hparted.advance.1, fun _ => hparted.advance.2⟩

/-- The same tick with either listeners. -/
theorem tick_parts (hb : behave.Partners still behave') (hbegun : c.pacing.stage.isInitial = false)
    (hstill : still → c.pacing.pending = .none) (thread : Thread) (world : σ) :
    Ticked still (dispatch behave thread (c, world)) (dispatch behave' thread (c, world)) := by
  unfold dispatch
  rcases hl : c.lend with e | lent
  · simp only [Clock.tick, hl]
    exact ⟨⟨hbegun, hstill, .inl rfl⟩, rfl, rfl, .inl rfl⟩
  have hlent : Apart still lent lent := by
    refine ⟨?_, ?_, .inl rfl⟩ <;> rw [(lend_pacing hl).1]
    · exact hbegun
    · exact hstill
  obtain ⟨happ, hworld, herror⟩ := hlent.visits hb .tick thread c.time c.roster.names world
  rcases hr : Clock.visitAll serve behave .tick thread c.time c.roster.names (lent, world)
    with ⟨⟨c', world'⟩, o⟩
  rcases hq : Clock.visitAll serve behave' .tick thread c.time c.roster.names (lent, world)
    with ⟨⟨d', world''⟩, o'⟩
  rw [hr, hq] at happ hworld herror
  dsimp only at happ hworld herror
  subst hworld herror
  cases o with
  | some e =>
    simp only [Clock.tick, hl, hr, hq]
    exact happ.ticked
  | none =>
    obtain ⟨happ', hworld', herror'⟩ := (happ.withBudget c'.budget.consumeAll).visits hb .after
      thread c.time c.roster.names world'
    rcases hr' : Clock.visitAll serve behave .after thread c.time c.roster.names
      ({ c' with budget := c'.budget.consumeAll }, world') with ⟨⟨c'', world''⟩, o⟩
    rcases hq' : Clock.visitAll serve behave' .after thread c.time c.roster.names
      ({ d' with budget := c'.budget.consumeAll }, world') with ⟨⟨d'', world'''⟩, o'⟩
    rw [hr', hq'] at happ' hworld' herror'
    dsimp only at happ' hworld' herror'
    subst hworld' herror'
    simp only [Clock.tick, hl, hr, hq, happ.budget, hr', hq']
    cases o with
    | some e => exact happ'.ticked
    | none => exact happ'.advanced world''

end RealTimeClock

end Metronome
