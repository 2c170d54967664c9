-- Scribes. A scribe goes along with the listeners and writes down what they
-- ask a clock and what it answers. Nobody notices: the clock, the listeners
-- and all results are those of the same run without the scribe.
import Metronome.Clock.RealTime
import Metronome.Proofs.Worlds

namespace Metronome

variable {P σ τ R : Type}

/-! ## Listeners with a scribe -/

/-- The program itself. Its scribe notes every answer on the way. -/
def Program.scribed (write : Call → Answer → τ → τ) : τ → Program σ → Program (σ × τ)
  | notes, .finish world verdict => .finish (world, notes) verdict
  | notes, .ask call next => .ask call fun a => (next a).scribed write (write call a notes)

/-- The same listeners in a world that has notes. -/
def Behaviour.scribed (write : Call → Answer → τ → τ) (behave : Behaviour σ) :
    Behaviour (σ × τ) :=
  fun v world => (behave v world.1).scribed write world.2

theorem Behaviour.scribed_asks {allowed : Call → Prop} {write : Call → Answer → τ → τ}
    {behave : Behaviour σ} (h : behave.Asks allowed) : (behave.scribed write).Asks allowed := by
  intro v world
  unfold scribed
  have hp := h v world.1
  generalize world.2 = notes
  generalize behave v world.1 = p at hp
  induction p generalizing notes with
  | finish world verdict => trivial
  | ask call next ih => exact ⟨hp.1, fun a => ih a _ (hp.2 a)⟩

/-- A scribe keeps `K` of the clock and the notes, call by call. It has no eye for the budget. -/
structure Service.Notes (serve : Service P) (allowed : Call → Prop)
    (write : Call → Answer → τ → τ) (K : Clock P → τ → Prop) : Prop where
  budget : ∀ c left notes, K c notes → K { c with budget := { c.budget with left } } notes
  call : ∀ c call notes, allowed call → K c notes →
    K (serve c call).1 (write call (serve c call).2 notes)
  aside : ∀ phase (c : Clock P) call r notes, Program.onBudget phase c call = some r →
    write call r.2 notes = notes

namespace Service.Notes

variable {serve : Service P} {allowed : Call → Prop} {write : Call → Answer → τ → τ}
  {K : Clock P → τ → Prop}

theorem reply (k : serve.Notes allowed write K) (phase : Phase) {c : Clock P} {call : Call}
    {notes : τ} (ha : allowed call) (h : K c notes) :
    K (Program.reply serve phase c call).1
      (write call (Program.reply serve phase c call).2 notes) := by
  unfold Program.reply
  cases hb : Program.onBudget phase c call with
  | none => exact k.call c call notes ha h
  | some r =>
    obtain ⟨left, hr⟩ := Program.onBudget_cases hb
    simp only [Option.getD_some, k.aside phase c call r notes hb, hr]
    exact k.budget c left notes h

theorem program (k : serve.Notes allowed write K) (phase : Phase) {p : Program σ} {c : Clock P}
    {notes : τ} (ha : p.Asks allowed) (h : K c notes) :
    let r := Program.run serve phase (p.scribed write notes) c
    K r.1.1 r.1.2.2 := by
  induction p generalizing c notes with
  | finish world verdict => exact h
  | ask call next ih => exact ih _ (ha.2 _) (k.reply phase ha.1 h)

/-- What the scribe keeps of every call, the listeners keep. -/
theorem behaviour (k : serve.Notes allowed write K) {behave : Behaviour σ}
    (hb : behave.Asks allowed) :
    (behave.scribed write).Keeps serve fun st => K st.1 st.2.2 where
  budget c left world h := k.budget c left world.2 h
  callback v _ world h := k.program v.phase (hb v world.1) h

end Service.Notes

/-! ## Nobody notices -/

/-- A state and a result, with notes. -/
def withNotes (r : (Clock P × σ) × R) (notes : τ) : (Clock P × (σ × τ)) × R :=
  ((r.1.1, (r.1.2, notes)), r.2)

/-- Whatever the notes, the one function does what the other does without them. -/
def Unnoticed (F : Clock P × (σ × τ) → (Clock P × (σ × τ)) × R)
    (f : Clock P × σ → (Clock P × σ) × R) : Prop :=
  ∀ c world notes, ∃ notes', F (c, (world, notes)) = withNotes (f (c, world)) notes'

/-- Whoever does not see the notes sees the same listeners. -/
theorem Behaviour.scribed_sees (write : Call → Answer → τ → τ) (behave : Behaviour σ) :
    behave.Sees Prod.fst (behave.scribed write) := by
  have h (p : Program σ) (notes : τ) : p = (p.scribed write notes).map Prod.fst := by
    induction p generalizing notes with
    | finish world verdict => rfl
    | ask call next ih => exact congrArg _ (funext fun a => ih a _)
  exact fun v world => h _ _

theorem Clock.tick_scribed (serve : Service P) (write : Call → Answer → τ → τ)
    (behave : Behaviour σ) (thread : Thread) :
    Unnoticed (tick serve (behave.scribed write) thread) (tick serve behave thread) := by
  intro c world notes
  have hsame := tick_inWorld serve (behave.scribed_sees write) thread c (world, notes)
  exact ⟨_, by rw [hsame]; rfl⟩

namespace RealTimeClock

variable {T : Tickers (σ × τ)} {t : Tickers σ}

theorem scheduledStep_unnoticed (hT : ∀ thread, Unnoticed (T thread) (t thread)) :
    Unnoticed (scheduledStep T) (scheduledStep t) := by
  intro (c : RealTimeClock) world notes
  by_cases hc : c.pacing.cancelled = true ∨ ¬ c.ticking = true
  · exact ⟨notes, by simp only [scheduledStep, if_pos hc, withNotes]⟩
  obtain ⟨notes', h⟩ := hT .scheduler c.stamp world notes
  refine ⟨notes', ?_⟩
  simp only [scheduledStep, if_neg hc, h, withNotes]
  rcases t .scheduler (c.stamp, world) with ⟨⟨d, world'⟩, e | o | o⟩
  · rfl
  · dsimp only
    split <;> rfl
  · rfl

theorem freeStep_unnoticed (hT : ∀ thread, Unnoticed (T thread) (t thread)) :
    Unnoticed (freeStep T) (freeStep t) := by
  intro (c : RealTimeClock) world notes
  by_cases hc : c.ticking = true ∧ c.pacing.pending ≠ .toRealTime
  · obtain ⟨notes', h⟩ := hT .caller c world notes
    refine ⟨notes', ?_⟩
    simp only [freeStep, if_pos hc, h, withNotes]
    rcases t .caller (c, world) with ⟨⟨d, world'⟩, e | o | o⟩ <;> rfl
  · exact ⟨notes, by simp only [freeStep, if_neg hc, withNotes]⟩

theorem follow_unnoticed (leg : Leg) (r : (RealTimeClock × σ) × Progress) (notes : τ) :
    follow leg (withNotes r notes) = withNotes (follow leg r) notes := by
  rcases r with ⟨⟨c, world⟩, _ | _ | e⟩
  · rfl
  · simp only [follow, withNotes]
    cases c.applyPending <;> rfl
  · rfl

theorem step_unnoticed (hT : ∀ thread, Unnoticed (T thread) (t thread)) (leg : Leg) :
    Unnoticed (step T leg) (step t leg) := by
  intro (c : RealTimeClock) world notes
  cases leg with
  | realTime =>
    obtain ⟨notes', h⟩ := scheduledStep_unnoticed hT c world notes
    exact ⟨notes', by simp only [step, h, follow_unnoticed]⟩
  | simulated =>
    obtain ⟨notes', h⟩ := freeStep_unnoticed hT c world notes
    exact ⟨notes', by simp only [step, h, follow_unnoticed]⟩
  | choosing =>
    refine ⟨notes, ?_⟩
    by_cases ht : c.ticking = true
    · simp only [step, if_pos ht]
      cases c.pacing.stage with
      | realTimeRunning =>
        dsimp only
        cases c.schedule <;> rfl
      | _ => rfl
    · simp only [step, if_neg ht, withNotes]

theorem steps_unnoticed (hT : ∀ thread, Unnoticed (T thread) (t thread)) (n : Nat) (leg : Leg) :
    Unnoticed (steps T n leg) (steps t n leg) := by
  induction n generalizing leg with
  | zero => exact fun _ _ notes => ⟨notes, rfl⟩
  | succ n ih =>
    intro (c : RealTimeClock) world notes
    obtain ⟨notes', h⟩ := step_unnoticed hT leg c world notes
    simp only [steps, h, withNotes]
    rcases step t leg (c, world) with ⟨⟨d, world'⟩, leg' | ending⟩
    · exact ih leg' d world' notes'
    · exact ⟨notes', rfl⟩

theorem start_unnoticed (hT : ∀ thread, Unnoticed (T thread) (t thread)) :
    Unnoticed (start T) (start t) := by
  intro (c : RealTimeClock) world notes
  rcases hl : c.launch with e | d
  · exact ⟨notes, by simp only [start, hl, withNotes]⟩
  obtain ⟨notes', h⟩ := steps_unnoticed hT d.enoughSteps .choosing d world notes
  refine ⟨notes', ?_⟩
  simp only [start, hl, runLoop, h, withNotes]
  rcases steps t d.enoughSteps .choosing (d, world) with ⟨⟨d', world'⟩, leg | _ | _ | _⟩ <;> rfl

/-- A public call is answered as if there were no notes. -/
theorem answer_unnoticed (hT : ∀ thread, Unnoticed (T thread) (t thread)) {call : Call}
    (hp : call.isPublic = true) : Unnoticed (answer T call) (answer t call) := by
  intro (c : RealTimeClock) world notes
  cases call with
  | override o => cases hp
  | start =>
    obtain ⟨notes', h⟩ := start_unnoticed hT c world notes
    exact ⟨notes', by simp only [answer, h, withNotes]⟩
  | stop => exact ⟨notes, by simp only [answer, settle, withNotes]; cases c.stop <;> rfl⟩
  | switchToRealTime =>
    exact ⟨notes, by simp only [answer, settle, withNotes]; cases c.switchToRealTime <;> rfl⟩
  | switchToSimulated =>
    exact ⟨notes, by simp only [answer, settle, withNotes]; cases c.switchToSimulated <;> rfl⟩
  | register x =>
    exact ⟨notes, by simp only [answer, settle, withNotes]; cases c.register x <;> rfl⟩
  | _ => exact ⟨notes, rfl⟩

end RealTimeClock

end Metronome
