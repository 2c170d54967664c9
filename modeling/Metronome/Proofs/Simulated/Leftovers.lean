-- Simulated clocks that differ in what is left over on them. They run the same
-- ticks, call the same listeners and answer every call in the same way.
import Metronome.Clock.Simulated
import Metronome.Proofs.Leftovers

namespace Metronome

namespace SimulatedClock

variable {σ τ : Type} {view : τ → σ} {seen : Prop} {c d : SimulatedClock}

/-! ## Runs -/

section Ticks

variable {t : Ticker Unit σ} {t' : Ticker Unit τ}

theorem run_inStep (ht : InStep view seen t t') (n : Nat) :
    InStep view seen (run t n) (run t' n) := by
  induction n with
  | zero => exact fun a b hab => ⟨hab, rfl⟩
  | succ n ih =>
    intro a b hab
    simp only [run, hab.clock.ticking]
    by_cases hticking : a.1.ticking = true
    · obtain ⟨hstep, hend⟩ := ht a b hab
      rw [if_pos hticking, if_pos hticking]
      rcases ha : t a with ⟨⟨c, world⟩, result⟩
      rcases hb : t' b with ⟨⟨d, world'⟩, result'⟩
      rw [ha, hb] at hstep hend
      obtain rfl : result' = result := hend
      rcases result' with e | _ | _
      · exact ⟨⟨hstep.clock.endTicking, hstep.world⟩, rfl⟩
      · exact ih _ _ hstep
      · exact ⟨hstep, rfl⟩
    · rw [if_neg hticking, if_neg hticking]
      exact ⟨hab, rfl⟩

theorem launch_resembles (h : c.Resembles seen d) : Clock.ResembleBoth seen c.launch d.launch := by
  unfold launch
  rw [h.ticking]
  split
  · exact rfl
  · exact h.beginTicking.publish .started

theorem start_inStep (ht : InStep view seen t t') : InStep view seen (start t) (start t') := by
  intro a b hab
  unfold start
  rcases (launch_resembles hab.clock).cases with ⟨e, ha, hb⟩ | ⟨c, d, ha, hb, hlaunch⟩
  · rw [ha, hb]
    exact ⟨hab, rfl⟩
  · have hrun := run_inStep ht (c.ticksLeft + 1) (c, a.2) (d, b.2) ⟨hlaunch, hab.world⟩
    simp only [ha, hb, hlaunch.ticksLeft]
    exact ⟨⟨hrun.1.clock.publish .stopped, hrun.1.world⟩, by rw [hrun.2]⟩

theorem single_inStep (ht : InStep view seen t t') : InStep view seen (single t) (single t') := by
  intro a b hab
  simp only [single, hab.clock.ticking]
  split
  · exact ⟨hab, rfl⟩
  · obtain ⟨hstep, hend⟩ := ht (a.1.beginTicking, a.2) (b.1.beginTicking, b.2)
      ⟨hab.clock.beginTicking, hab.world⟩
    exact ⟨⟨hstep.clock.endTicking, hstep.world⟩, by rw [hend]⟩

/-! ## Calls -/

theorem stop_resembles (h : c.Resembles seen d) : Clock.ResembleBoth seen c.stop d.stop := by
  unfold stop
  rw [h.ticking]
  split
  · exact h.endTicking
  · exact rfl

/-- Every call is answered as if nothing had been left over. -/
theorem answer_inStep (ht : InStep view seen t t') (call : Call) :
    InStep view seen (answer t call) (answer t' call) := by
  rintro ⟨c, _⟩ ⟨d, world⟩ ⟨h, rfl⟩
  dsimp only at h
  cases call with
  | start =>
    obtain ⟨hstate, hresult⟩ := start_inStep ht (c, view world) (d, world) ⟨h, rfl⟩
    exact ⟨hstate, congrArg Answer.ofExcept hresult⟩
  | tick =>
    obtain ⟨hstate, hresult⟩ := single_inStep ht (c, view world) (d, world) ⟨h, rfl⟩
    exact ⟨hstate, congrArg Answer.ofExcept hresult⟩
  | stop =>
    rcases (stop_resembles h).cases with ⟨e, hc, hd⟩ | ⟨c', d', hc, hd, h'⟩
    · simp only [answer, hc, hd]
      exact ⟨⟨h, rfl⟩, trivial⟩
    · simp only [answer, hc, hd]
      exact ⟨⟨h', rfl⟩, trivial⟩
  | register x =>
    rcases (h.register x).cases with ⟨e, hc, hd⟩ | ⟨c', d', hc, hd, h'⟩
    · simp only [answer, hc, hd]
      exact ⟨⟨h, rfl⟩, trivial⟩
    · simp only [answer, hc, hd]
      exact ⟨⟨h', rfl⟩, trivial⟩
  | unregister x =>
    obtain ⟨hstate, hthere⟩ := h.unregister x
    exact ⟨⟨hstate, rfl⟩, congrArg Answer.flag hthere⟩
  | interrupt =>
    obtain ⟨_, _, rfl⟩ := h.same
    exact ⟨⟨⟨⟨_, _, rfl⟩, fun _ => rfl, h.unit, h.budget⟩, rfl⟩, rfl⟩
  | _ =>
    obtain ⟨_, _, rfl⟩ := h.same
    exact ⟨⟨⟨⟨_, _, rfl⟩, h.interrupted, h.unit, h.budget⟩, rfl⟩, rfl⟩

end Ticks

theorem serve_overlooks : serve.Overlooks fun _ => True where
  ticking _ := rfl
  interrupt _ := rfl
  call {c d call} _ h := by
    have hreentrant : InStep (P := Unit) (id : Unit → Unit) True Clock.reentrant Clock.reentrant :=
      fun a b hab => ⟨hab, rfl⟩
    obtain ⟨hstate, hanswer⟩ := answer_inStep hreentrant call (c, ()) (d, ()) ⟨h, rfl⟩
    exact ⟨hstate.clock, hanswer⟩

/-- A call from outside does what it would do if nothing had been left over, and if nothing had been
slipped into the callbacks. -/
theorem perform_inStep {behave : Behaviour σ} {behave' : Behaviour τ}
    (hn : behave.Nudged view behave') (call : Call) :
    InStep view seen (perform behave call) (perform behave' call) :=
  answer_inStep
    (Clock.tick_nudged serve_overlooks (fun v world => (behave v world).asks_any) hn _) call

end SimulatedClock

end Metronome
