-- The world belongs to the callbacks. A clock carries it from one callback to
-- the next and never looks at it, so a tick in another world that shows the
-- same to the callbacks is the same tick.
import Metronome.Proofs.Callbacks

namespace Metronome

variable {P σ τ R : Type}

/-- The program in another world. -/
def Program.map (f : τ → σ) : Program τ → Program σ
  | .finish world verdict => .finish (f world) verdict
  | .ask call next => .ask call fun a => (next a).map f

/-- A state and a result, in another world. -/
def inWorld (f : τ → σ) (r : (Clock P × τ) × R) : (Clock P × σ) × R := ((r.1.1, f r.1.2), r.2)

/-- The callbacks do the same in the world that they see through `f`. -/
def Behaviour.Sees (f : τ → σ) (behave : Behaviour σ) (behave' : Behaviour τ) : Prop :=
  ∀ v world, behave v (f world) = (behave' v world).map f

variable {f : τ → σ}

theorem Program.run_map (serve : Service P) (phase : Phase) (p : Program τ) (c : Clock P) :
    run serve phase (p.map f) c = inWorld f (run serve phase p c) := by
  induction p generalizing c with
  | finish world verdict => rfl
  | ask call next ih => exact ih _ _

namespace Clock

variable {behave : Behaviour σ} {behave' : Behaviour τ}

theorem visitAll_inWorld (serve : Service P) (h : behave.Sees f behave') (phase : Phase)
    (thread : Thread) (start : Int) (xs : List Listener) (c : Clock P) (world : τ) :
    visitAll serve behave phase thread start xs (c, f world) =
      inWorld f (visitAll serve behave' phase thread start xs (c, world)) := by
  induction xs generalizing c world with
  | nil => rfl
  | cons x xs ih =>
    have hrun : Program.run serve phase (behave ⟨x, phase, c.budget, thread⟩ (f world)) c =
        inWorld f (Program.run serve phase (behave' ⟨x, phase, c.budget, thread⟩ world) c) := by
      rw [h, Program.run_map]
    simp only [visitAll, hrun, inWorld]
    cases (Program.run serve phase (behave' ⟨x, phase, c.budget, thread⟩ world) c).2.error?
      start with
    | some e => rfl
    | none => exact ih _ _

theorem tick_inWorld (serve : Service P) (h : behave.Sees f behave') (thread : Thread)
    (c : Clock P) (world : τ) :
    tick serve behave thread (c, f world) = inWorld f (tick serve behave' thread (c, world)) := by
  rcases hl : c.lend with e | lent
  · simp only [tick, hl, inWorld]
  have hv := visitAll_inWorld serve h .tick thread c.time c.roster.names lent world
  rcases hd : visitAll serve behave' .tick thread c.time c.roster.names (lent, world)
    with ⟨⟨d, world'⟩, _ | e⟩ <;> rw [hd] at hv
  · have hw := visitAll_inWorld serve h .after thread c.time c.roster.names
      { d with budget := d.budget.consumeAll } world'
    simp only [tick, hl, hv, hd, inWorld] at hw ⊢
    rw [hw]
    rcases visitAll serve behave' .after thread c.time c.roster.names
      ({ d with budget := d.budget.consumeAll }, world') with ⟨⟨d', world''⟩, _ | e⟩ <;> rfl
  · simp only [tick, hl, hv, hd, inWorld]

end Clock

end Metronome
