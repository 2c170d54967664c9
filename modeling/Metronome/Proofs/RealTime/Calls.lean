-- What the calls of a callback can do to a real-time clock whose run has
-- begun. A stop ends the run at once. Every other call spares the stage, the
-- scheduler thread and the time.
import Metronome.Clock.RealTime
import Metronome.Proofs.Callbacks

namespace Metronome

namespace Call

/-- What goes to the feed. -/
def isWatching : Call → Bool
  | .subscribe _ | .drain _ | .letGo _ => true
  | _ => false

/-- What may begin a run, end it or change its pace. -/
def isTurning : Call → Bool
  | .start | .stop | .switchToRealTime | .switchToSimulated => true
  | _ => false

end Call

namespace RealTimeClock

/-! ## The scheduler thread goes -/

/-- What is left of a clock once its scheduler thread is gone. -/
theorem releaseScheduler_eq (c : RealTimeClock) :
    c.releaseScheduler = { c with pacing := { c.pacing with
      scheduler := none
      cancelled := c.pacing.cancelled || c.pacing.scheduler.isSome
      pins := if c.isPinned then c.pacing.pins.release else c.pacing.pins } } := by
  unfold releaseScheduler isPinned unpin
  rcases hs : c.pacing.scheduler with _ | s
  · simp only [Option.isSome_none, Bool.or_false, Bool.false_eq_true, if_false]
    rw [← hs]
  · cases hp : s.pinned <;> simp [hp]

/-- A clock that a stop has just ended. -/
def ended (c : RealTimeClock) : RealTimeClock :=
  { c with
    ticking := false
    pacing := { c.pacing with
      stage := .stopped
      scheduler := none
      cancelled := c.pacing.cancelled || c.pacing.scheduler.isSome
      pins := if c.isPinned then c.pacing.pins.release else c.pacing.pins } }

theorem stop_eq {c : RealTimeClock} (h : c.pacing.stage.isInitial = false) :
    c.stop = .ok c.ended := by
  have hon : c.pacing.stage.on .stop = .ok .stopped := by
    cases hs : c.pacing.stage <;> rw [hs] at h <;> first | rfl | cases h
  simp only [stop, retire, hon, Except.map, releaseScheduler_eq]
  rfl

theorem stop_initial {c : RealTimeClock} (h : c.pacing.stage.isInitial = true) :
    ∃ e, c.stop = .error e := by
  unfold stop retire
  cases hs : c.pacing.stage <;> simp [hs, Stage.isInitial, Stage.on, Except.map] at h ⊢

/-! ## What other calls spare -/

/-- All that a call leaves alone that ends nothing. -/
structure Spares (c d : RealTimeClock) : Prop where
  tickLength : d.tickLength = c.tickLength
  unit : d.unit = c.unit
  time : d.time = c.time
  ticking : d.ticking = c.ticking
  budget : d.budget = c.budget
  dispatching : d.dispatching = c.dispatching
  stage : d.pacing.stage = c.pacing.stage
  counter : d.pacing.counter = c.pacing.counter
  stamps : d.pacing.stamps = c.pacing.stamps
  readings : d.pacing.readings = c.pacing.readings
  watch : d.pacing.watch = c.pacing.watch
  scheduler : d.pacing.scheduler = c.pacing.scheduler
  cancelled : d.pacing.cancelled = c.pacing.cancelled
  settings : d.pacing.settings = c.pacing.settings
  period : d.pacing.period = c.pacing.period
  pins : d.pacing.pins = c.pacing.pins

namespace Spares

theorem refl (c : RealTimeClock) : Spares c c := by constructor <;> rfl

end Spares

/-- A clock that has begun to run, or has run, accepts no start. -/
theorem launch_begun {c : RealTimeClock} (h : c.pacing.stage.isInitial = false) :
    ∃ e, c.launch = .error (.failed e) := by
  unfold launch
  cases hs : c.pacing.stage <;> simp [hs, Stage.isInitial, Stage.isRunning, Stage.on] at h ⊢

theorem launch_initial {c d : RealTimeClock} (h : c.launch = .ok d) :
    c.pacing.stage.isInitial = true := by
  cases hi : c.pacing.stage.isInitial with
  | true => rfl
  | false =>
    obtain ⟨e, he⟩ := launch_begun hi
    rw [he] at h
    cases h

/-- A request leaves a clock alone that has begun to run, but for the wish that it notes. -/
theorem switchToRealTime_begun {c : RealTimeClock} (h : c.pacing.stage.isInitial = false) :
    c.switchToRealTime = if c.pacing.stage.isRunning then
        .ok { c with pacing.pending := wishRealTime c.pacing.stage c.pacing.pending }
      else .error (.illegalTransition ⟨c.pacing.stage, .requestRealTime⟩) := by
  unfold switchToRealTime
  cases hs : c.pacing.stage <;>
    simp [hs, Stage.isInitial, Stage.isRunning, Stage.on, moveTo, mode] at h ⊢

theorem switchToSimulated_begun {c : RealTimeClock} (h : c.pacing.stage.isInitial = false) :
    c.switchToSimulated = if c.pacing.stage.isRunning then
        .ok { c with pacing.pending := wishSimulated c.pacing.stage c.pacing.pending }
      else .error (.illegalTransition ⟨c.pacing.stage, .requestSimulated⟩) := by
  unfold switchToSimulated
  cases hs : c.pacing.stage <;>
    simp [hs, Stage.isInitial, Stage.isRunning, Stage.on, moveTo, mode] at h ⊢

/-- All that the other public calls change. Only a watcher's call changes the feed. -/
theorem serve_plain (c : RealTimeClock) {call : Call} (hp : call.isPublic = true)
    (ht : call.isTurning = false) :
    ∃ interrupted roster feed pauses,
      (serve c call).1 = { c with interrupted, roster, feed, pacing := { c.pacing with pauses } } ∧
        (call.isWatching = false → feed = c.feed) := by
  have same : ∃ interrupted roster feed pauses,
      c = { c with interrupted, roster, feed, pacing := { c.pacing with pauses } } ∧
        (call.isWatching = false → feed = c.feed) :=
    ⟨c.interrupted, c.roster, c.feed, c.pacing.pauses, rfl, fun _ => rfl⟩
  cases call with
  | override o => cases hp
  | start | stop | switchToRealTime | switchToSimulated => cases ht
  | subscribe wanted => exact ⟨_, _, _, _, rfl, fun h => by cases h⟩
  | drain i => exact ⟨_, _, _, _, rfl, fun h => by cases h⟩
  | letGo i => exact ⟨_, _, _, _, rfl, fun h => by cases h⟩
  | register x =>
    simp only [serve, answer, Clock.register]
    split
    · exact ⟨_, _, _, _, rfl, fun _ => rfl⟩
    · exact same
  | unregister x =>
    simp only [serve, answer, Clock.unregister]
    split
    · exact ⟨_, _, _, _, rfl, fun _ => rfl⟩
    · exact same
  | jitter =>
    simp only [serve, answer, jitter]
    split
    · exact same
    · exact ⟨_, _, _, _, rfl, fun _ => rfl⟩
  | interrupt => exact ⟨_, _, _, _, rfl, fun _ => rfl⟩
  | pauseTime nanos => exact ⟨_, _, _, _, rfl, fun _ => rfl⟩
  | _ => exact same

/-- A public call from a callback ends the run, or spares it. -/
theorem serve_cases {c : RealTimeClock} {call : Call} (hp : call.isPublic = true)
    (h : c.pacing.stage.isInitial = false) :
    (call = .stop ∧ serve c call = (c.ended, .done)) ∨ Spares c (serve c call).1 := by
  by_cases ht : call.isTurning = true
  · cases call with
    | stop => exact .inl ⟨rfl, by simp [serve, answer, stop_eq h, settle]⟩
    | start =>
      obtain ⟨e, he⟩ := launch_begun h
      right
      simp only [serve, answer, start, he]
      exact Spares.refl c
    | switchToRealTime =>
      right
      simp only [serve, answer, switchToRealTime_begun h]
      split
      · constructor <;> rfl
      · exact Spares.refl c
    | switchToSimulated =>
      right
      simp only [serve, answer, switchToSimulated_begun h]
      split
      · constructor <;> rfl
      · exact Spares.refl c
    | _ => cases ht
  · obtain ⟨_, _, _, _, he, -⟩ := serve_plain c hp (Bool.eq_false_iff.mpr ht)
    rw [he]
    right
    constructor <;> rfl

end RealTimeClock

end Metronome
