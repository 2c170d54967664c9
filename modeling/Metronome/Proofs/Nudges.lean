-- Interrupts that come when a clock does not tick. Someone outside raises them
-- between the calls, and a callback raises them once it has stopped the clock.
-- Nothing ever comes of them.
import Metronome.Proofs.Chronicle
import Metronome.Proofs.RealTime.Leftovers
import Metronome.Proofs.RealTime.Release
import Metronome.Proofs.Simulated.Leftovers

namespace Metronome

variable {P σ τ : Type} {view : τ → σ}

/-! ## Chronicles of nudged callbacks -/

theorem Program.noting_nudging (entry : Verdict → Happening) (l : Chronicle) (p : Program σ) :
    p.nudging.noting entry l = (p.noting entry l).nudging := by
  unfold nudging
  rw [noting]
  congr 1
  funext a
  cases a with
  | flag b => cases b <;> rfl
  | _ => rfl

/-- What is slipped into a callback does not show in its chronicle. -/
theorem Program.Nudged.noting {p : Program σ} {p' : Program τ} (h : Nudged view p p')
    (entry : Verdict → Happening) (l : Chronicle) :
    Nudged (Prod.map view id) (p.noting entry l) (p'.noting entry l) := by
  induction h with
  | finish world verdict => exact .finish (world, l ++ [entry verdict]) verdict
  | ask call _ ih => exact .ask call ih
  | nudge _ ih =>
    rw [noting_nudging]
    exact .nudge ih

theorem Behaviour.Nudged.noted {behave : Behaviour σ} {behave' : Behaviour τ}
    (h : behave.Nudged view behave') : behave.noted.Nudged (Prod.map view id) behave'.noted :=
  fun v world => (h v world.1).noting _ world.2

/-! ## The law -/

/-- Two stories of a clock: with the same answers and the same callbacks they lead to the same
world and the same clock, but for an interrupt. -/
structure Unheeded (view : τ → σ) (story : (Clock P × (σ × Chronicle)) × List Answer)
    (story' : (Clock P × (τ × Chronicle)) × List Answer) : Prop where
  answers : story'.2 = story.2
  callbacks : story'.1.2.2 = story.1.2.2
  world : story.1.2.1 = view story'.1.2.1
  clock : ∃ interrupted, story'.1.1 = { story.1.1 with interrupted }

theorem Unheeded.of_inView {story : (Clock P × (σ × Chronicle)) × List Answer}
    {story' : (Clock P × (τ × Chronicle)) × List Answer}
    (h : InView (Prod.map view id) True story.1 story'.1) (hanswers : story'.2 = story.2) :
    Unheeded view story story' where
  answers := hanswers
  callbacks := (congrArg Prod.snd h.world).symm
  world := congrArg Prod.fst h.world
  clock := by
    obtain ⟨interrupted, budget, hsame⟩ := h.clock.same
    have hbudget : budget = story.1.1.budget := by
      rw [← h.clock.budget trivial, hsame]
    refine ⟨interrupted, ?_⟩
    rw [hsame, hbudget]

/-- On both clocks, an interrupt that comes while the clock does not tick is as good as none. It may
come before a start, between single ticks, after a run, or in a callback that has stopped the clock,
and as often as anyone likes. -/
theorem an_interrupt_at_rest_is_forgotten {behave : Behaviour σ} {behave' : Behaviour τ}
    (hn : behave.Nudged view behave') (errands : List Errand) (world : τ) :
    let calls := errands.filterMap Errand.call?
    (∀ c : SimulatedClock, Unheeded view
      (askAll (SimulatedClock.perform behave.noted) calls (c, (view world, [])))
      (runErrands (SimulatedClock.perform behave'.noted) errands (c, (world, [])))) ∧
    (behave.Public → (∀ call ∈ calls, call.isPublic = true) → ∀ c : RealTimeClock, Unheeded view
      (askAll (RealTimeClock.perform behave.noted) calls (c, (view world, [])))
      (runErrands (RealTimeClock.perform behave'.noted) errands (c, (world, [])))) := by
  intro calls
  constructor
  · intro c
    have hsteps : InStep (Prod.map view id) True
        (askAll (SimulatedClock.perform behave.noted) calls)
        (runErrands (SimulatedClock.perform behave'.noted) errands) :=
      runErrands_inStep (fun _ => rfl) fun call _ => SimulatedClock.perform_inStep hn.noted call
    obtain ⟨hview, hanswers⟩ := hsteps (c, (view world, [])) (c, (world, [])) ⟨.refl c, rfl⟩
    exact .of_inView hview hanswers
  · intro hb hcalls c
    have hsteps : InStep (Prod.map view id) True
        (askAll (RealTimeClock.perform behave.noted) calls)
        (runErrands (RealTimeClock.perform behave'.noted) errands) :=
      runErrands_inStep (fun _ => rfl) fun call hc =>
        RealTimeClock.perform_inStep (Behaviour.noted_asks hb) hn.noted (hcalls call hc)
    obtain ⟨hview, hanswers⟩ := hsteps (c, (view world, [])) (c, (world, [])) ⟨.refl c, rfl⟩
    exact .of_inView hview hanswers

/-- A listener that stops the clock in every tick and then tries to start it again. -/
def quitting : Behaviour Unit := fun v _ =>
  match v.phase with
  | .tick => .ask .stop fun _ => .ask .start fun _ => .finish () .fine
  | .after => .finish () .fine

/-- It interrupts the clock wherever it has stopped. -/
def quittingLoudly : Behaviour Unit := fun v _ =>
  match v.phase with
  | .tick =>
    .ask .stop fun _ => .nudging (.ask .start fun _ => .nudging (.finish () .fine))
  | .after => .nudging (.finish () .fine)

theorem quitting_nudged : quitting.Nudged id quittingLoudly := by
  intro v _
  unfold quitting quittingLoudly
  cases v.phase with
  | tick => exact .ask _ fun _ => .nudge (.ask _ fun _ => .nudge (.finish () .fine))
  | after => exact .nudge (.finish () .fine)

theorem quitting_public : quitting.Public := by
  intro v _
  unfold quitting
  cases v.phase with
  | tick => exact ⟨rfl, fun _ => ⟨rfl, fun _ => trivial⟩⟩
  | after => trivial

/-- A tick, a run and a question, with interrupts before, between and after them. -/
def loudErrands : List Errand :=
  [.nudge, .ask .tick, .nudge, .nudge, .ask .start, .nudge, .ask .time, .nudge]

theorem an_interrupt_at_rest_is_forgotten_by_quitters :
    (runErrands (SimulatedClock.perform quittingLoudly.noted) loudErrands
      ({ SimulatedClock.make 10 .seconds with roster := ⟨["a"]⟩ }, ((), []))).2 =
        [.done, .done, .number 20] ∧
    Unheeded id
      (askAll (SimulatedClock.perform quitting.noted) [.tick, .start, .time]
        ({ SimulatedClock.make 10 .seconds with roster := ⟨["a"]⟩ }, ((), [])))
      (runErrands (SimulatedClock.perform quittingLoudly.noted) loudErrands
        ({ SimulatedClock.make 10 .seconds with roster := ⟨["a"]⟩ }, ((), []))) ∧
    Unheeded id
      (askAll (RealTimeClock.perform quitting.noted) [.tick, .start, .time]
        (RealTimeClock.plain, ((), [])))
      (runErrands (RealTimeClock.perform quittingLoudly.noted) loudErrands
        (RealTimeClock.plain, ((), []))) := by
  have h := an_interrupt_at_rest_is_forgotten quitting_nudged loudErrands ()
  exact ⟨by decide +kernel, h.1 _, h.2 quitting_public (by decide) _⟩

end Metronome
