-- The boundary between two ticks, where a pending wish is granted or
-- forgotten. It always passes, and it changes the pace and nothing else.
import Metronome.Clock.Pacing

namespace Metronome

/-- What the watchers are told when a clock takes up this pace. -/
def Mode.event : Mode → Event
  | .realTime => .switchToRealTime
  | .simulated => .switchToSimTime
  | .stopped => .stopped

/-- A stage in which a clock runs has a pace. -/
theorem Stage.mode_of_running {s : Stage} (h : s.isRunning = true) : s.mode ≠ .stopped := by
  cases s <;> simp [Stage.mode, Stage.isRunning] at h ⊢

namespace RealTimeClock

/-- A change of stage changes nothing else, but the watchers may hear of it. -/
theorem moveTo_eq (c : RealTimeClock) (next : Stage) :
    ∃ feed, c.moveTo next = { c with pacing.stage := next, feed } := by
  unfold moveTo
  split
  · exact ⟨c.feed, rfl⟩
  · cases next.mode with
    | stopped => exact ⟨c.feed, rfl⟩
    | _ => exact ⟨_, rfl⟩

/-- The stage behind a boundary. A wish counts only in the stage that it wants to leave. -/
def grantedStage : Pending → Stage → Stage
  | .toSimulated, .realTimeRunning => .simulatedRunning
  | .toRealTime, .simulatedRunning => .realTimeRunning
  | _, stage => stage

theorem grantedStage_isRunning (p : Pending) (s : Stage) :
    (grantedStage p s).isRunning = s.isRunning := by
  cases p <;> cases s <;> rfl

theorem grantedStage_isInitial (p : Pending) (s : Stage) :
    (grantedStage p s).isInitial = s.isInitial := by
  cases p <;> cases s <;> rfl

/-- `d` is `c` behind a boundary. -/
structure Grants (c d : RealTimeClock) : Prop where
  stage : d.pacing.stage = grantedStage c.pacing.pending c.pacing.stage
  pending : d.pacing.pending = .none
  tickLength : d.tickLength = c.tickLength
  unit : d.unit = c.unit
  time : d.time = c.time
  ticking : d.ticking = c.ticking
  interrupted : d.interrupted = c.interrupted
  roster : d.roster = c.roster
  budget : d.budget = c.budget
  dispatching : d.dispatching = c.dispatching
  stamps : d.pacing.stamps = c.pacing.stamps
  scheduler : d.pacing.scheduler = c.pacing.scheduler
  cancelled : d.pacing.cancelled = c.pacing.cancelled
  settings : d.pacing.settings = c.pacing.settings
  pins : d.pacing.pins = c.pacing.pins

/-- A wish that a stage heeds is one that its transitions allow. -/
theorem boundaryTrigger?_on {p : Pending} {s : Stage} {t : Trigger}
    (h : boundaryTrigger? p s = some t) : s.on t = .ok (grantedStage p s) := by
  cases p <;> cases s <;> simp [boundaryTrigger?] at h <;> subst h <;> rfl

theorem grantedStage_of_none {p : Pending} {s : Stage} (h : boundaryTrigger? p s = none) :
    grantedStage p s = s := by
  cases p <;> cases s <;> simp [boundaryTrigger?, grantedStage] at h ⊢

/-- A boundary never fails. -/
theorem applyPending_ok (c : RealTimeClock) : ∃ d, c.applyPending = .ok d ∧ Grants c d := by
  unfold applyPending
  rcases ht : boundaryTrigger? c.pacing.pending c.pacing.stage with _ | t
  · exact ⟨_, rfl, by constructor <;> simp [grantedStage_of_none ht]⟩
  · simp only [boundaryTrigger?_on ht]
    obtain ⟨feed, hm⟩ := moveTo_eq
      (if t = .doRealTime then { c with pacing.pending := .none, pacing.counter := 0 }
        else { c with pacing.pending := .none })
      (grantedStage c.pacing.pending c.pacing.stage)
    refine ⟨_, congrArg _ hm, ?_⟩
    constructor <;> dsimp only <;> split <;> rfl

/-! ## What the watchers hear of it -/

/-- The watchers of `c` were told of the pace of `d` if it is another one. -/
def Told (c d : RealTimeClock) : Prop :=
  d.mode = c.mode ∧ d.feed = c.feed ∨
    d.mode ≠ c.mode ∧ d.mode ≠ .stopped ∧ d.feed = c.feed.publish ⟨d.mode.event, c.time⟩

theorem Told.feed {c d : RealTimeClock} (h : Told c d) (hm : d.mode = c.mode) :
    d.feed = c.feed := by
  rcases h with ⟨-, hf⟩ | ⟨hne, -⟩
  · exact hf
  · exact absurd hm hne

theorem moveTo_told (c : RealTimeClock) {next : Stage} (hn : next.mode ≠ .stopped) :
    Told c (c.moveTo next) := by
  unfold moveTo
  by_cases hm : next.mode = c.mode
  · rw [if_pos hm]
    exact .inl ⟨hm, rfl⟩
  · rw [if_neg hm]
    cases hnext : next.mode with
    | stopped => exact absurd hnext hn
    | realTime =>
      have hmode : mode (publishMode { c with pacing.stage := next } .realTime) = .realTime := hnext
      refine .inr ⟨?_, ?_, ?_⟩ <;> rw [hmode]
      · rwa [← hnext]
      · exact Mode.noConfusion
      · rfl
    | simulated =>
      have hmode : mode (publishMode { c with pacing.stage := next } .simulated) = .simulated :=
        hnext
      refine .inr ⟨?_, ?_, ?_⟩ <;> rw [hmode]
      · rwa [← hnext]
      · exact Mode.noConfusion
      · rfl

theorem applyPending_told {c d : RealTimeClock} (h : c.applyPending = .ok d) : Told c d := by
  unfold applyPending at h
  rcases ht : boundaryTrigger? c.pacing.pending c.pacing.stage with _ | t <;> rw [ht] at h
  · cases h
    exact .inl ⟨rfl, rfl⟩
  · have hrun : c.pacing.stage.isRunning = true := by
      cases hp : c.pacing.pending <;> cases hs : c.pacing.stage <;>
        simp [hp, hs, boundaryTrigger?] at ht <;> rfl
    have hnext := grantedStage_isRunning c.pacing.pending c.pacing.stage
    have hmove (e : RealTimeClock) :
        Told e (e.moveTo (grantedStage c.pacing.pending c.pacing.stage)) :=
      moveTo_told e (Stage.mode_of_running (hnext.trans hrun))
    simp only [boundaryTrigger?_on ht] at h
    cases h
    split
    · exact hmove { c with pacing := { c.pacing with pending := .none, counter := 0 } }
    · exact hmove { c with pacing := { c.pacing with pending := .none } }

end RealTimeClock

end Metronome
