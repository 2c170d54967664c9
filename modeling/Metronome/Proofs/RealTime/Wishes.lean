-- What becomes of the requests for another pace. Requests, stops and
-- boundaries come from any number of callers and in any order, and each is
-- taken under the lock of the stage, so a history is a list of them.
import Metronome.Proofs.RealTime.Release

namespace Metronome

namespace RealTimeClock

variable {σ : Type} {behave : Behaviour σ} {c d : RealTimeClock}

/-! ## Histories -/

/-- What is done to the stage and to the pending wish in one go. -/
inductive Move where
  /-- A request for real time. -/
  | realTime
  /-- A request for simulated time. -/
  | simulated
  | stop
  | boundary
  deriving DecidableEq, Repr

/-- The clock behind a move, unless the move is refused. -/
def Move.on (c : RealTimeClock) : Move → Except ClockError RealTimeClock
  | .realTime => c.switchToRealTime
  | .simulated => c.switchToSimulated
  | .stop => c.stop
  | .boundary => c.applyPending

/-- The requests accepted since the last boundary, oldest first, after one more move. -/
def Move.wishes (wishes : List Mode) : Move → List Mode
  | .realTime => wishes ++ [.realTime]
  | .simulated => wishes ++ [.simulated]
  | .stop => wishes
  | .boundary => []

/-- A clock and the requests that it accepted since the last boundary. -/
structure Heard where
  clock : RealTimeClock
  wishes : List Mode := []

/-- A move that is refused changes nothing and counts for nothing. -/
def Heard.after (h : Heard) (m : Move) : Heard :=
  match m.on h.clock with
  | .ok c => ⟨c, m.wishes h.wishes⟩
  | .error _ => h

/-- A clock behind a history. -/
def heard (c : RealTimeClock) (moves : List Move) : Heard := moves.foldl Heard.after { clock := c }

/-! ## What is pending -/

/-- What is pending in a stage, from the requests since the last boundary. In real time the last
one counts. In simulated time one for real time is enough. -/
def pendingFor (wishes : List Mode) : Stage → Pending
  | .realTimeRunning => if wishes.getLast? = some .simulated then .toSimulated else .none
  | .simulatedRunning => if .realTime ∈ wishes then .toRealTime else .none
  | _ => .none

/-- The invariant of a history. -/
structure Heard.Holds (h : Heard) : Prop where
  begun : h.clock.pacing.stage.isInitial = false
  pending : h.clock.pacing.stage.isRunning = true →
    h.clock.pacing.pending = pendingFor h.wishes h.clock.pacing.stage

namespace Heard.Holds

variable {h : Heard}

theorem realTime (hh : h.Holds) : (h.after .realTime).Holds := by
  obtain ⟨c, wishes⟩ := h
  obtain ⟨hb, hp⟩ := hh
  unfold after Move.on
  rw [switchToRealTime_begun hb]
  by_cases hr : c.pacing.stage.isRunning = true
  · rw [if_pos hr]
    refine ⟨hb, ?_⟩
    intro _
    have hwas := hp hr
    dsimp only at hwas ⊢
    cases hs : c.pacing.stage <;> rw [hs] at hr hwas <;> cases hr
    · simp only [hwas, pendingFor, Move.wishes, List.getLast?_concat]
      split <;> rfl
    · simp [wishRealTime, pendingFor, Move.wishes]
  · rw [if_neg hr]
    exact ⟨hb, hp⟩

theorem simulated (hh : h.Holds) : (h.after .simulated).Holds := by
  obtain ⟨c, wishes⟩ := h
  obtain ⟨hb, hp⟩ := hh
  unfold after Move.on
  rw [switchToSimulated_begun hb]
  by_cases hr : c.pacing.stage.isRunning = true
  · rw [if_pos hr]
    refine ⟨hb, fun _ => ?_⟩
    have hwas := hp hr
    dsimp only at hwas ⊢
    cases hs : c.pacing.stage <;> rw [hs] at hr hwas <;> cases hr
    · simp only [hwas, pendingFor, Move.wishes, List.getLast?_concat, if_true]
      split <;> rfl
    · simp [wishSimulated, pendingFor, Move.wishes, hwas]
  · rw [if_neg hr]
    exact ⟨hb, hp⟩

theorem stop (hh : h.Holds) : (h.after .stop).Holds := by
  unfold after Move.on
  rw [stop_eq hh.begun]
  exact ⟨rfl, fun hr => by cases hr⟩

theorem boundary (hh : h.Holds) : (h.after .boundary).Holds := by
  obtain ⟨d, hd, hg⟩ := applyPending_ok h.clock
  simp only [after, Move.on, hd]
  refine ⟨by rw [hg.stage, grantedStage_isInitial]; exact hh.begun, ?_⟩
  intro _
  rw [hg.pending]
  dsimp only
  cases d.pacing.stage <;> rfl

theorem move (hh : h.Holds) (m : Move) : (h.after m).Holds := by
  cases m with
  | realTime => exact hh.realTime
  | simulated => exact hh.simulated
  | stop => exact hh.stop
  | boundary => exact hh.boundary

theorem moves (hh : h.Holds) (moves : List Move) : (moves.foldl after h).Holds := by
  induction moves generalizing h with
  | nil => exact hh
  | cons m moves ih => exact ih (hh.move m)

end Heard.Holds

/-- A clock that begins its run without a wish. -/
theorem heard_holds (hb : c.pacing.stage.isInitial = false) (hp : c.pacing.pending = .none)
    (moves : List Move) : (heard c moves).Holds := by
  refine Heard.Holds.moves ⟨hb, ?_⟩ moves
  intro _
  dsimp only
  rw [hp]
  cases c.pacing.stage <;> rfl

/-! ## What a history makes of the stage -/

/-- A request changes no stage, whether it is accepted or refused. -/
theorem request_keeps_stage {h : Heard} (hb : h.clock.pacing.stage.isInitial = false) {m : Move}
    (hm : m = .realTime ∨ m = .simulated) :
    (h.after m).clock.pacing.stage = h.clock.pacing.stage := by
  unfold Heard.after Move.on
  rcases hm with rfl | rfl
  · dsimp only
    rw [switchToRealTime_begun hb]
    by_cases hr : h.clock.pacing.stage.isRunning = true
    · rw [if_pos hr]
    · rw [if_neg hr]
  · dsimp only
    rw [switchToSimulated_begun hb]
    by_cases hr : h.clock.pacing.stage.isRunning = true
    · rw [if_pos hr]
    · rw [if_neg hr]

/-- The last stage is left by no move. -/
theorem stopped_is_final {h : Heard} (hs : h.clock.pacing.stage = .stopped) (m : Move) :
    (h.after m).clock.pacing.stage = .stopped := by
  have hb : h.clock.pacing.stage.isInitial = false := by rw [hs]; rfl
  cases m with
  | realTime => rw [request_keeps_stage hb (.inl rfl), hs]
  | simulated => rw [request_keeps_stage hb (.inr rfl), hs]
  | stop =>
    unfold Heard.after Move.on
    rw [stop_eq hb]
    rfl
  | boundary =>
    obtain ⟨d, hd, hg⟩ := applyPending_ok h.clock
    simp only [Heard.after, Move.on, hd, hg.stage, hs]
    cases h.clock.pacing.pending <;> rfl

/-- At a boundary, a run in real time heeds the last request since the boundary before, and a run
in simulated time heeds any request for real time. Between two boundaries only a stop counts. -/
theorem a_boundary_heeds_the_requests_since_the_last {behave : Behaviour σ} (hb : behave.Public)
    {st : RealTimeClock × σ} (hr : Reached behave st) {launched : RealTimeClock}
    (hl : launch st.1 = .ok launched) (moves : List Move) :
    let h := heard launched moves
    let stage := h.clock.pacing.stage
    (∃ d, h.clock.applyPending = .ok d ∧
      (stage = .realTimeRunning → d.pacing.stage =
        if h.wishes.getLast? = some .simulated then .simulatedRunning else .realTimeRunning) ∧
      (stage = .simulatedRunning → d.pacing.stage =
        if .realTime ∈ h.wishes then .realTimeRunning else .simulatedRunning) ∧
      (stage.isRunning = false → d.pacing.stage = stage) ∧
      d.pacing.pending = .none ∧ ∃ e, d.applyPending = .ok e ∧ e.pacing.stage = d.pacing.stage) ∧
    (∀ m, m ≠ .stop → m ≠ .boundary → (h.after m).clock.pacing.stage = stage) ∧
    (stage = .stopped → ∀ m, (h.after m).clock.pacing.stage = .stopped) := by
  have hholds : (heard launched moves).Holds := by
    rcases (hr.rested hb (launch_initial hl)).launch with ⟨d, hd, hready, hpend, -⟩ | ⟨f, hf, -⟩
    · rw [hl] at hd
      cases hd
      exact heard_holds hready.steady.begun hpend moves
    · rw [hl] at hf
      cases hf
  generalize heard launched moves = h at hholds
  obtain ⟨d, hd, hg⟩ := applyPending_ok h.clock
  obtain ⟨e, he, hg'⟩ := applyPending_ok d
  refine ⟨⟨d, hd, ?_, ?_, ?_, hg.pending, e, he, ?_⟩, ?_, ?_⟩
  · intro hs
    rw [hg.stage, hholds.pending (by rw [hs]; rfl), hs]
    unfold pendingFor
    dsimp only
    split <;> rfl
  · intro hs
    rw [hg.stage, hholds.pending (by rw [hs]; rfl), hs]
    unfold pendingFor
    dsimp only
    split <;> rfl
  · intro hs
    rw [hg.stage]
    cases hst : h.clock.pacing.stage <;> rw [hst] at hs <;> cases hs
    all_goals cases h.clock.pacing.pending <;> rfl
  · rw [hg'.stage, hg.pending]
    rfl
  · intro m hstop hbound
    apply request_keeps_stage hholds.begun
    cases m <;> simp at hstop hbound ⊢
  · intro hs m
    exact stopped_is_final hs m

/-- Real time is left for the last of two requests, and taken up again for the first of two. -/
theorem a_boundary_heeds_the_first_of_two_requests :
    ∃ launched d, launch plain = .ok launched ∧
      (heard launched [.realTime, .simulated, .boundary, .realTime, .simulated]).clock.applyPending
        = .ok d ∧ d.pacing.stage = .realTimeRunning := by
  have hl : launch plain = .ok _ := rfl
  obtain ⟨⟨d, hd, -, hsim, -⟩, -⟩ := a_boundary_heeds_the_requests_since_the_last restless_public
    (plain_reached restless 0) hl [.realTime, .simulated, .boundary, .realTime, .simulated]
  exact ⟨_, d, rfl, hd, hsim rfl⟩

end RealTimeClock

end Metronome
