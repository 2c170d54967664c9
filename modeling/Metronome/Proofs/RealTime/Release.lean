-- However a run ends, it leaves nothing behind: the clock is stopped, its
-- scheduler thread is gone, and every pin that worked was given back once.
-- The run fails exactly if something in it failed, with the first failure,
-- and that is the last thing that happens on the clock.
import Metronome.Proofs.RealTime.Life

namespace Metronome

namespace RealTimeClock

variable {σ : Type} {behave : Behaviour σ}

/-- What a start tells, from its first tick to its last callback. -/
def chronicle (behave : Behaviour σ) (st : RealTimeClock × σ) : Chronicle :=
  (start (chronicled behave) (st.1, (st.2, []))).1.2.2

/-- Calls from outside, one after another. -/
def answerAll (tick : Tickers σ) (calls : List Call) (st : RealTimeClock × σ) :
    RealTimeClock × σ :=
  calls.foldl (fun st call => (answer tick call st).1) st

/-- A clock that has begun its run brings no callbacks any more, whatever it is asked. -/
theorem answerAll_begun (tick : Tickers σ) {calls : List Call}
    (hp : ∀ call ∈ calls, call.isPublic = true) {c : RealTimeClock} (world : σ)
    (h : c.pacing.stage.isInitial = false) : (answerAll tick calls (c, world)).2 = world := by
  unfold answerAll
  induction calls generalizing c with
  | nil => rfl
  | cons call calls ih =>
    have hcall := hp call (by simp)
    rw [List.foldl_cons, answer_begun h hcall]
    exact ih (fun call' h' => hp call' (List.mem_cons_of_mem _ h')) (serve_begun h hcall)

/-- Every run that gets past its start ends like this, whatever its listeners do. -/
theorem a_run_leaves_nothing_behind {behave : Behaviour σ} (hb : behave.Public)
    {st : RealTimeClock × σ} (hr : Reached behave st)
    (hthread : st.1.pacing.settings.threadCanStart = true)
    {launched : RealTimeClock} (hl : launch st.1 = .ok launched) :
    let r := start (dispatch behave) st
    let told := chronicle behave st
    (r.1.1.pacing.stage = .stopped ∧ r.1.1.ticking = false ∧ r.1.1.isPinned = false) ∧
    (∃ asked : List Core, r.1.1.pacing.pins.cores = st.1.pacing.pins.cores ++ asked ∧
      asked.length ≤ 1 ∧
      r.1.1.pacing.pins.releases =
        st.1.pacing.pins.releases + if st.1.pacing.pins.refused then 0 else asked.length) ∧
    r.2 = .of (told.findSome? (Happening.error? st.1.tickLength)) ∧
    (∀ h ∈ told.dropLast, h.error? st.1.tickLength = none) ∧
    ∀ calls : List Call, (∀ call ∈ calls, call.isPublic = true) →
      (answerAll (chronicled behave) calls (r.1.1, (r.1.2, told))).2 = (r.1.2, told) := by
  obtain ⟨c, world⟩ := st
  obtain ⟨d, world', ending, news, hd, hnews, htells, hend⟩ :=
    (hr.rested hb (launch_initial hl)).start hb world []
  have htold : chronicle behave (c, world) = news := by
    unfold chronicle
    rw [hnews]
    rfl
  rcases hend with ⟨e, hsteady, rfl, hfine⟩ | ⟨hno, -⟩
  · rw [htold, hd]
    obtain ⟨asked, hcores, hone, -, hrel⟩ := hsteady.ended.pins
    refine ⟨⟨rfl, rfl, rfl⟩, ⟨asked, hcores, hone, hrel⟩, ?_, htells.dropLast, ?_⟩
    · rw [htells.findSome?, Ending.of_error? hfine]
    · intro calls hp
      exact answerAll_begun _ hp _ rfl
  · rw [hno] at hthread
    cases hthread

/-- A listener that changes the pace twice, and in its third tick stops the clock and fails. -/
def restless : Behaviour Nat := fun v n =>
  match v.phase, n with
  | .tick, 0 => .ask .switchToSimulated fun _ => .finish 1 .fine
  | .tick, 1 => .ask .switchToRealTime fun _ => .finish 2 .fine
  | .tick, n => .ask .stop fun _ => .finish n (.failed "too late")
  | .after, n => .finish n .fine

theorem restless_public : restless.Public := by
  intro v n
  unfold restless
  split
  · exact ⟨rfl, fun _ => trivial⟩
  · exact ⟨rfl, fun _ => trivial⟩
  · exact ⟨rfl, fun _ => trivial⟩
  · trivial

/-- The clock of a plain blueprint, with one listener. -/
def plain : RealTimeClock :=
  { make {} .initRealTime (.ofMillis 1000) {} .silent (fun _ => ⟨0, 0⟩) with roster := ⟨["a"]⟩ }

theorem plain_reached {σ : Type} (behave : Behaviour σ) (world : σ) :
    Reached behave (plain, world) := by
  have hbuilt : ({} : Blueprint).buildRealTime (fun _ => .silent) (fun _ => ⟨0, 0⟩) =
      .ok { plain with roster := {} } := rfl
  exact .called (.register "a") (.built world hbuilt) rfl

theorem a_restless_run_leaves_nothing_behind :
    let r := start (dispatch restless) (plain, 0)
    r.1.1.pacing.stage = .stopped ∧ r.1.1.pacing.pins = { cores := [.last], releases := 1 } ∧
      r.2 = .failed (.listener 2000 "too late") ∧
      ∀ calls : List Call, (∀ call ∈ calls, call.isPublic = true) →
        (answerAll (chronicled restless) calls (r.1.1, (r.1.2, chronicle restless (plain, 0)))).2 =
          (r.1.2, chronicle restless (plain, 0)) := by
  have h := a_run_leaves_nothing_behind restless_public (plain_reached restless 0) rfl rfl
  exact ⟨h.1.1, rfl, rfl, h.2.2.2.2⟩

end RealTimeClock

end Metronome
