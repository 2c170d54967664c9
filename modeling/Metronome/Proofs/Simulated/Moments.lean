-- The order of a simulated clock at every moment of its life, whatever its
-- callers ask one after another and whatever its callbacks ask in between.
import Metronome.Proofs.Simulated.Answers
import Metronome.Proofs.Simulated.Order

namespace Metronome

namespace SimulatedClock

namespace Machine

variable {σ : Type} {behave : Behaviour σ} {L : Int} {s : Machine σ}

/-! ## Calls from outside -/

/-- A clock that is called comes to rest again, with the answer that the call has in one go. -/
theorem InOrder.answered (h : InOrder L s) (hL : 0 < L) (hidle : s.doing = .idle) (call : Call) :
    ∃ t, Leads behave (s.call call) t ∧ t.doing = .idle ∧
      ((t.clock, t.world), t.answers) =
        ((perform behave call (s.clock, s.world)).1,
          s.answers ++ [(perform behave call (s.clock, s.world)).2]) := by
  have hplaced := h.placed
  rw [hidle] at hplaced
  obtain ⟨hstack, hfree⟩ := hplaced
  have hlength : 0 < s.clock.tickLength := by rw [h.timely.tickLength]; exact hL
  generalize hr : perform behave call (s.clock, s.world) = r
  have hperformed : Becomes behave ⟨s.clock, s.world, [], .asking call, s.answers⟩
      ⟨r.1.1, r.1.2, [], .answering r.2, s.answers⟩ := by
    rw [← hr]
    exact becomes_performed call hfree hlength (h.timely.time_nonneg hL)
  have hreplied : Becomes behave ⟨r.1.1, r.1.2, [], .answering r.2, s.answers⟩
      ⟨r.1.1, r.1.2, [], .idle, s.answers ++ [r.2]⟩ :=
    Becomes.one fun _ => ⟨_, rfl, rfl⟩
  have hcalled : (s.call call).view = ⟨s.clock, s.world, [], .asking call, s.answers⟩ := by
    rw [← hstack]
    rfl
  obtain ⟨t, hleads, hview⟩ := (hperformed.trans hreplied) (s.call call) hcalled
  have hclock : t.clock = r.1.1 := congrArg View.clock hview
  have hworld : t.world = r.1.2 := congrArg View.world hview
  have hanswers : t.answers = s.answers ++ [r.2] := congrArg View.answers hview
  exact ⟨t, hleads, congrArg View.doing hview, by rw [hclock, hworld, hanswers]⟩

/-! ## All moments -/

/-- At every moment the time is that of the completed ticks, and it stays in its range. No callback
begins inside another one. The clock ticks only while someone waits for its ticks, and its notices
are matching brackets, a pair for each start that was not refused. -/
theorem a_clock_keeps_its_order (hb : behave.Asks fun call => call ≠ .letGo 0) (hL : 0 < L)
    (unit : TimeUnit) (world : σ) (h : Reached behave (opening L unit world) s) :
    s.clock.time = L * s.ticks ∧ s.clock.time ≤ Signed.greatest ∧
    (s.doing = .knocking → Signed.greatest < s.clock.time + L →
      s.step behave = some { s with
        doing := .ticked (.error (.listenerPanicked Fault.sumTooLarge.message)) }) ∧
    s.callbacks ≤ 1 ∧
    ((∀ f ∈ s.stack, f.ticks = false) → s.clock.ticking = false) ∧
    nested s.signs = some (running s.stack) ∧
    (opened s.signs ++ s.refused).Perm (List.range s.starts) ∧
    s.taken ++ s.clock.feed.queue 0 = s.signs.map (·.notice) ∧
    (s.doing = .idle → s.stack = [] ∧ ∀ call,
      ∃ t, Leads behave (s.call call) t ∧ t.doing = .idle ∧
        ((t.clock, t.world), t.answers) =
          ((perform behave call (s.clock, s.world)).1,
            s.answers ++ [(perform behave call (s.clock, s.world)).2])) := by
  have horder := h.inOrder hL hb (inOrder_opening L unit world)
  refine ⟨horder.timely.time, horder.timely.inRange, ?_, horder.callbacks_le,
    horder.ticking_of_alone, horder.bracketed.pairs, horder.bracketed.each, horder.heard.queue, ?_⟩
  · intro hknocking hfull
    simp only [step, hknocking, horder.knock_of_full hL hfull]
  · intro hidle
    have hplaced := horder.placed
    rw [hidle] at hplaced
    exact ⟨hplaced.1, fun call => horder.answered hL hidle call⟩

/-! ## One clock among its own calls -/

/-- So many steps, as long as anything goes on. -/
def after (behave : Behaviour σ) : Nat → Machine σ → Machine σ
  | 0, s => s
  | n + 1, s => after behave n ((s.step behave).getD s)

theorem Reached.after {start : Machine σ} (n : Nat) (h : Reached behave start s) :
    Reached behave start (s.after behave n) := by
  induction n generalizing s with
  | zero => exact h
  | succ n ih =>
    unfold Machine.after
    cases hs : s.step behave with
    | none => exact ih h
    | some t => exact ih (h.stepped hs)

/-- A callback that asks its clock for all that it must not do at once. -/
def meddling : Behaviour Bool := fun v fresh =>
  if v.phase = .tick ∧ fresh then
    .ask .start fun _ => .ask .stop fun _ => .ask .start fun _ => .ask .tick fun _ =>
      .finish false .fine
  else .finish fresh .fine

theorem meddling_asks : meddling.Asks fun call => call ≠ .letGo 0 := by
  intro v fresh
  unfold meddling
  split
  · exact ⟨by simp, fun _ => ⟨by simp, fun _ => ⟨by simp, fun _ => ⟨by simp, fun _ => trivial⟩⟩⟩⟩
  · trivial

/-- The clock of a meddling callback, about to try a second tick that the time has no room for. -/
def meddled : Machine Bool :=
  let registered := ((opening 5000000000000000000 .milliseconds true).call (.register "a")).after
    meddling 2
  let ran := (registered.call .start).after meddling 40
  (ran.call .tick).after meddling 1

theorem meddled_reached :
    Reached meddling (opening 5000000000000000000 .milliseconds true) meddled := by
  unfold meddled
  refine Reached.after 1 (Reached.called ?_ rfl (by simp))
  refine Reached.after 40 (Reached.called ?_ rfl (by simp))
  exact Reached.after 2 (Reached.called .opening rfl (by simp))

/-- Of its three starts one is refused and one comes to nothing. -/
theorem a_meddling_callback_keeps_the_order :
    let s := meddled
    s.doing = .knocking ∧ s.refused = [1] ∧ s.signs.map (·.start) = [0, 2, 2, 0] ∧
    s.clock.time = 5000000000000000000 * s.ticks ∧
    s.step meddling = some { s with
      doing := .ticked (.error (.listenerPanicked Fault.sumTooLarge.message)) } ∧
    s.callbacks ≤ 1 ∧ nested s.signs = some [] ∧
    (opened s.signs ++ s.refused).Perm (List.range 3) := by
  have hknocking : meddled.doing = .knocking := rfl
  obtain ⟨htime, -, hfull, hone, -, hpairs, heach, -, -⟩ :=
    a_clock_keeps_its_order meddling_asks (by decide) .milliseconds true meddled_reached
  exact ⟨hknocking, rfl, rfl, htime, hfull hknocking (by decide), hone, hpairs, heach⟩

end Machine

end SimulatedClock

end Metronome
