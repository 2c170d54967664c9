-- What a clock refuses, and what a refusal does, which is nothing. The errors
-- by which a clock refuses a call come from the checks of that call and from
-- nowhere else: no tick, no run and no boundary between two legs has them.
import Metronome.Proofs.Leftovers
import Metronome.Proofs.RealTime.Release
import Metronome.Proofs.Simulated.Calls

namespace Metronome

variable {P σ : Type}

/-- An error by which a clock refuses a call. The others tell of something that went wrong. -/
def ClockError.isRefusal : ClockError → Bool
  | .alreadyRunning | .notRunning | .listenerAlreadyRegistered => true
  | .illegalTransition _ | .singleStepUnsupported => true
  | _ => false

/-! ## What is refused -/

/-- Why a simulated clock refuses a call, if it does. -/
def SimulatedClock.refusal? (c : SimulatedClock) : Call → Option ClockError
  | .start | .tick => if c.ticking then some .alreadyRunning else none
  | .stop => if c.ticking then none else some .notRunning
  | .register x => if x ∈ c.roster.names then some .listenerAlreadyRegistered else none
  | _ => none

/-- Why a real-time clock refuses a call, if it does. A clock that was stopped is there to be looked
at, and one that was not started cannot be stopped. -/
def RealTimeClock.refusal? (c : RealTimeClock) : Call → Option ClockError
  | .start =>
    match c.pacing.stage with
    | .realTimeRunning | .simulatedRunning => some .alreadyRunning
    | .stopped => some (.illegalTransition ⟨.stopped, .start⟩)
    | _ => none
  | .stop =>
    if c.pacing.stage.isInitial then some (.illegalTransition ⟨c.pacing.stage, .stop⟩) else none
  | .tick => some .singleStepUnsupported
  | .switchToRealTime =>
    if c.pacing.stage = .stopped then some (.illegalTransition ⟨.stopped, .requestRealTime⟩)
    else none
  | .switchToSimulated =>
    if c.pacing.stage = .stopped then some (.illegalTransition ⟨.stopped, .requestSimulated⟩)
    else none
  | .register x => if x ∈ c.roster.names then some .listenerAlreadyRegistered else none
  | _ => none

/-- What it is for a call to be refused for this reason. From outside and from inside a tick alike,
nothing changes, and what comes after it is what would have come without it. -/
structure Refused (perform : Call → Clock P × σ → (Clock P × σ) × Answer) (serve : Service P)
    (c : Clock P) (world : σ) (call : Call) (e : ClockError) : Prop where
  outside : perform call (c, world) = ((c, world), .error e)
  later : ∀ calls, askAll perform (call :: calls) (c, world) =
    ((askAll perform calls (c, world)).1, .error e :: (askAll perform calls (c, world)).2)
  inside : serve c call = (c, .error e)
  onward : ∀ (phase : Phase) (next : Answer → Program σ),
    Program.run serve phase (.ask call next) c = Program.run serve phase (next (.error e)) c

/-- A call that leaves everything as it was is as good as none. -/
theorem Refused.of_same {perform : Call → Clock P × σ → (Clock P × σ) × Answer} {serve : Service P}
    {c : Clock P} {world : σ} {call : Call} {e : ClockError}
    (hbudget : ∀ phase (c : Clock P), Program.onBudget phase c call = none)
    (houtside : perform call (c, world) = ((c, world), .error e))
    (hinside : serve c call = (c, .error e)) : Refused perform serve c world call e where
  outside := houtside
  later calls := by simp only [askAll, houtside]
  inside := hinside
  onward phase next := by
    have hreply : Program.reply serve phase c call = (c, .error e) := by
      rw [Program.reply, hbudget, Option.getD_none, hinside]
    rw [Program.run, hreply]

/-! ## Ticks -/

/-- Whatever goes wrong in a tick is no refusal. -/
def NoRefusal {S R : Type} (f : S → S × Except ClockError R) : Prop :=
  ∀ st e, (f st).2 = .error e → e.isRefusal = false

namespace Clock

theorem register_eq (c : Clock P) (x : Listener) :
    c.register x = if x ∈ c.roster.names then .error .listenerAlreadyRegistered
      else .ok { c with roster := ⟨c.roster.names ++ [x]⟩ } := by
  unfold register Roster.register?
  by_cases hx : x ∈ c.roster.names
  · rw [if_pos hx, if_pos hx]
  · rw [if_neg hx, if_neg hx]

theorem reentrant_noRefusal : NoRefusal (reentrant : Ticker P σ) := by
  intro st e h
  cases h
  rfl

theorem visitAll_noRefusal (serve : Service P) (behave : Behaviour σ) (phase : Phase)
    (thread : Thread) (start : Int) (xs : List Listener) (st : Clock P × σ) (e : ClockError)
    (h : (visitAll serve behave phase thread start xs st).2 = some e) : e.isRefusal = false := by
  induction xs generalizing st with
  | nil => cases h
  | cons x xs ih =>
    unfold visitAll at h
    dsimp only at h
    split at h
    · rename_i e' he
      cases h
      cases hv : (Program.run serve phase (behave ⟨x, phase, st.1.budget, thread⟩ st.2) st.1).2 <;>
        rw [hv] at he <;> cases he <;> rfl
    · exact ih _ h

theorem lend_noRefusal {c : Clock P} {e : ClockError} (h : c.lend = .error e) :
    e.isRefusal = false := by
  unfold lend at h
  split at h
  · cases h
    rfl
  · split at h
    · cases h
      rfl
    · split at h <;> cases h
      rfl

theorem tick_noRefusal (serve : Service P) (behave : Behaviour σ) (thread : Thread) :
    NoRefusal (tick serve behave thread) := by
  rintro ⟨c, world⟩ e h
  rcases hl : c.lend with e' | lent
  · simp only [tick, hl] at h
    cases h
    exact lend_noRefusal hl
  · have hv := visitAll_noRefusal serve behave .tick thread c.time c.roster.names (lent, world)
    rcases hr : visitAll serve behave .tick thread c.time c.roster.names (lent, world)
      with ⟨⟨d, world'⟩, _ | e'⟩
    · have hw := visitAll_noRefusal serve behave .after thread c.time c.roster.names
        ({ d with budget := d.budget.consumeAll }, world')
      rcases hs : visitAll serve behave .after thread c.time c.roster.names
        ({ d with budget := d.budget.consumeAll }, world') with ⟨⟨d', world''⟩, _ | e'⟩ <;>
        simp only [tick, hl, hr, hs] at h <;> cases h
      exact hw e (by rw [hs])
    · simp only [tick, hl, hr] at h
      cases h
      exact hv e (by rw [hr])

end Clock

/-! ## Simulated clocks -/

namespace SimulatedClock

variable {t : Ticker Unit σ}

/-- A refused call comes back at once. -/
theorem answer_refused (t : Ticker Unit σ) {c : SimulatedClock} (world : σ) {call : Call}
    {e : ClockError} (h : refusal? c call = some e) :
    answer t call (c, world) = ((c, world), .error e) := by
  cases call with
  | start =>
    by_cases ht : c.ticking = true <;> simp [refusal?, ht] at h
    simp [answer, start, launch, ht, ← h, Answer.ofExcept]
  | tick =>
    by_cases ht : c.ticking = true <;> simp [refusal?, ht] at h
    simp [answer, single, ht, ← h, Answer.ofExcept]
  | stop =>
    by_cases ht : c.ticking = true <;> simp [refusal?, ht] at h
    simp [answer, stop, ht, ← h]
  | register x =>
    by_cases hx : x ∈ c.roster.names <;> simp [refusal?, hx] at h
    simp [answer, c.register_eq, hx, ← h]
  | _ => cases h

theorem run_noRefusal (ht : NoRefusal t) (n : Nat) (st : SimulatedClock × σ) (e : ClockError)
    (h : (run t n st).2 = some (.error e)) : e.isRefusal = false := by
  induction n generalizing st with
  | zero => cases h
  | succ n ih =>
    unfold run at h
    split at h
    · have htick := ht st
      rcases hr : t st with ⟨⟨c, world⟩, e' | _ | _⟩ <;> rw [hr] at h htick <;> dsimp only at h
      · cases h
        exact htick e rfl
      · exact ih _ h
      · cases h
    · cases h

/-- A clock that does not tick refuses no start and no tick, and neither ends with a refusal. -/
theorem start_noRefusal (ht : NoRefusal t) {c : SimulatedClock} (hc : c.ticking = false) (world : σ)
    {e : ClockError} (h : (start t (c, world)).2 = .error e) : e.isRefusal = false := by
  have hlaunch : launch c = .ok (c.beginTicking.publish .started) := by simp [launch, hc]
  simp only [start, hlaunch] at h
  generalize c.beginTicking.publish .started = d at h
  have hrun := run_noRefusal ht (d.ticksLeft + 1) (d, world)
  rcases hr : run t (d.ticksLeft + 1) (d, world) with ⟨st, _ | _ | _⟩ <;> rw [hr] at h hrun <;>
    cases h
  exact hrun e rfl

theorem single_noRefusal (ht : NoRefusal t) {c : SimulatedClock} (hc : c.ticking = false)
    (world : σ) {e : ClockError} (h : (single t (c, world)).2 = .error e) :
    e.isRefusal = false := by
  have htick := ht (c.beginTicking, world)
  simp only [single, hc, Bool.false_eq_true, if_false] at h
  rcases hr : t (c.beginTicking, world) with ⟨st, _ | _⟩ <;> rw [hr] at h htick <;> cases h
  exact htick e rfl

/-- The answer is a refusal only if the call is refused. -/
theorem refused_of_answer (ht : NoRefusal t) {c : SimulatedClock} {world : σ} {call : Call}
    {e : ClockError} (h : (answer t call (c, world)).2 = .error e) (he : e.isRefusal = true) :
    refusal? c call = some e := by
  cases hr : refusal? c call with
  | some e' =>
    rw [answer_refused t world hr] at h
    cases h
    rfl
  | none =>
    exfalso
    suffices hno : e.isRefusal = false by
      rw [hno] at he
      cases he
    cases call with
    | start =>
      have hc : c.ticking = false := by simpa [refusal?] using hr
      have hstart := start_noRefusal ht hc world (e := e)
      simp only [answer] at h
      rcases hs : (start t (c, world)).2 with e' | _ <;> rw [hs] at h hstart <;> cases h
      exact hstart rfl
    | tick =>
      have hc : c.ticking = false := by simpa [refusal?] using hr
      have hsingle := single_noRefusal ht hc world (e := e)
      simp only [answer] at h
      rcases hs : (single t (c, world)).2 with e' | _ <;> rw [hs] at h hsingle <;> cases h
      exact hsingle rfl
    | stop =>
      have hc : c.ticking = true := by simpa [refusal?] using hr
      simp [answer, stop, hc] at h
    | register x =>
      have hx : x ∉ c.roster.names := by simpa [refusal?] using hr
      simp [answer, c.register_eq, hx] at h
    | _ => cases h

end SimulatedClock

/-! ## Real-time clocks -/

namespace RealTimeClock

variable {t : Tickers σ}

/-- A call that its stage does not allow. -/
theorem answer_refused (t : Tickers σ) {c : RealTimeClock} (world : σ) {call : Call}
    {e : ClockError} (h : refusal? c call = some e) :
    answer t call (c, world) = ((c, world), .error e) := by
  cases call with
  | start =>
    cases hs : c.pacing.stage <;> simp [refusal?, hs] at h <;>
      simp [answer, start, launch, hs, ← h, Stage.isRunning, Stage.on, Ending.answer]
  | stop =>
    cases hs : c.pacing.stage <;> simp [refusal?, hs, Stage.isInitial] at h <;>
      simp [answer, stop, retire, hs, ← h, Stage.on, Except.map, settle]
  | tick =>
    cases h
    rfl
  | switchToRealTime =>
    cases hs : c.pacing.stage <;> simp [refusal?, hs] at h
    simp [answer, switchToRealTime, hs, ← h, Stage.on, settle]
  | switchToSimulated =>
    cases hs : c.pacing.stage <;> simp [refusal?, hs] at h
    simp [answer, switchToSimulated, hs, ← h, Stage.on, settle]
  | register x =>
    by_cases hx : x ∈ c.roster.names <;> simp [refusal?, hx] at h
    simp [answer, c.register_eq, hx, ← h, settle]
  | _ => cases h

/-- A leg that fails does so because of a tick. -/
theorem scheduledStep_noRefusal (ht : ∀ thread, NoRefusal (t thread)) (st : RealTimeClock × σ)
    (e : ClockError) (h : (scheduledStep t st).2 = .failed e) : e.isRefusal = false := by
  unfold scheduledStep at h
  split at h
  · cases h
  · have htick := ht .scheduler (stamp st.1, st.2)
    rcases hr : t .scheduler (stamp st.1, st.2) with ⟨st', _ | _ | _⟩ <;> rw [hr] at h htick <;>
      dsimp only at h
    · cases h
      exact htick e rfl
    · split at h <;> cases h
    · cases h

theorem freeStep_noRefusal (ht : ∀ thread, NoRefusal (t thread)) (st : RealTimeClock × σ)
    (e : ClockError) (h : (freeStep t st).2 = .failed e) : e.isRefusal = false := by
  unfold freeStep at h
  split at h
  · have htick := ht .caller st
    rcases hr : t .caller st with ⟨st', _ | _ | _⟩ <;> rw [hr] at h htick <;> cases h
    exact htick e rfl
  · cases h

/-- No boundary fails, so a run that fails does so because of a leg. -/
theorem follow_noRefusal (leg : Leg) {r : (RealTimeClock × σ) × Progress}
    (hr : ∀ e, r.2 = .failed e → e.isRefusal = false) (e : ClockError)
    (h : (follow leg r).2 = .inr (.failed e)) : e.isRefusal = false := by
  rcases r with ⟨⟨c, world⟩, _ | _ | e'⟩
  · cases h
  · obtain ⟨d, hd, -⟩ := applyPending_ok c
    simp only [follow, hd] at h
    cases h
  · cases h
    exact hr e rfl

theorem step_noRefusal (ht : ∀ thread, NoRefusal (t thread)) (leg : Leg) (st : RealTimeClock × σ)
    (e : ClockError) (h : (step t leg st).2 = .inr (.failed e)) : e.isRefusal = false := by
  cases leg with
  | choosing =>
    unfold step at h
    dsimp only at h
    split at h
    · split at h
      · split at h <;> cases h
      · cases h
      · cases h
    · cases h
  | realTime => exact follow_noRefusal _ (scheduledStep_noRefusal ht st) e h
  | simulated => exact follow_noRefusal _ (freeStep_noRefusal ht st) e h

theorem steps_noRefusal (ht : ∀ thread, NoRefusal (t thread)) (n : Nat) (leg : Leg)
    (st : RealTimeClock × σ) (e : ClockError) (h : (steps t n leg st).2 = .inr (.failed e)) :
    e.isRefusal = false := by
  induction n generalizing leg st with
  | zero => cases h
  | succ n ih =>
    have hstep := step_noRefusal ht leg st
    unfold steps at h
    rcases hr : step t leg st with ⟨st', leg' | ending⟩ <;> rw [hr] at h hstep <;> dsimp only at h
    · exact ih _ _ h
    · exact hstep e h

/-- A clock that has not begun its run refuses no start, and its run does not end with a refusal. -/
theorem start_noRefusal (ht : ∀ thread, NoRefusal (t thread)) {c : RealTimeClock}
    (hc : c.pacing.stage.isInitial = true) (world : σ) {e : ClockError}
    (h : (start t (c, world)).2 = .failed e) : e.isRefusal = false := by
  rcases hl : c.launch with ending | d
  · -- Only the scheduler thread can still be in the way.
    simp only [start, hl] at h
    subst h
    unfold launch at hl
    cases hs : c.pacing.stage <;> simp [hs, Stage.isInitial, Stage.isRunning, Stage.on] at hc hl
    rcases hensure : c.ensureScheduler with f | c' <;> rw [hensure] at hl <;> cases hl
  · have hrun := steps_noRefusal ht d.enoughSteps .choosing (d, world)
    simp only [start, hl, runLoop] at h
    rcases hr : steps t d.enoughSteps .choosing (d, world) with ⟨st, leg | _ | e' | f⟩ <;>
      rw [hr] at h hrun <;> cases h
    exact hrun e rfl

/-- The answer is a refusal only if the call is refused. -/
theorem refused_of_answer (ht : ∀ thread, NoRefusal (t thread)) {c : RealTimeClock} {world : σ}
    {call : Call} (hp : call.isPublic = true) {e : ClockError}
    (h : (answer t call (c, world)).2 = .error e) (he : e.isRefusal = true) :
    refusal? c call = some e := by
  cases hr : refusal? c call with
  | some e' =>
    rw [answer_refused t world hr] at h
    cases h
    rfl
  | none =>
    exfalso
    cases call with
    | override o => cases hp
    | start =>
      have hc : c.pacing.stage.isInitial = true := by
        cases hs : c.pacing.stage <;> simp [refusal?, hs, Stage.isInitial] at hr ⊢
      have hstart := start_noRefusal ht hc world (e := e)
      simp only [answer] at h
      rcases hs : (start t (c, world)).2 with _ | e' | f <;> rw [hs] at h hstart <;> cases h
      rw [hstart rfl] at he
      cases he
    | stop =>
      have hc : c.pacing.stage.isInitial = false := by simpa [refusal?] using hr
      simp only [answer, stop_eq hc, settle] at h
      cases h
    | tick => cases hr
    | switchToRealTime =>
      cases hs : c.pacing.stage <;> simp [refusal?, hs] at hr <;>
        simp [answer, switchToRealTime, hs, Stage.on, settle] at h
    | switchToSimulated =>
      cases hs : c.pacing.stage <;> simp [refusal?, hs] at hr <;>
        simp [answer, switchToSimulated, hs, Stage.on, settle] at h
    | register x =>
      have hx : x ∉ c.roster.names := by simpa [refusal?] using hr
      simp [answer, c.register_eq, hx, settle] at h
    | intervals =>
      simp only [answer] at h
      cases hi : Metronome.intervals c.pacing.stamps <;> rw [hi] at h <;> cases h
    | deviations =>
      simp only [answer] at h
      cases hi : Metronome.deviations c.pacing.stamps c.periodNanos <;> rw [hi] at h <;> cases h
    | jitter =>
      simp only [answer] at h
      cases hi : c.jitter.2 <;> rw [hi] at h <;> cases h
    | _ => cases h

end RealTimeClock

/-! ## The law -/

theorem SimulatedClock.refused {behave : Behaviour σ} {c : SimulatedClock} {call : Call}
    {e : ClockError} (h : c.refusal? call = some e) (world : σ) :
    Refused (perform behave) serve c world call e := by
  refine .of_same (fun phase d => ?_) (answer_refused _ world h) ?_
  · cases call <;> first | rfl | cases h
  · simp only [serve, answer_refused (Clock.reentrant : Ticker Unit Unit) () h]

theorem RealTimeClock.refused {behave : Behaviour σ} {c : RealTimeClock} {call : Call}
    {e : ClockError} (h : c.refusal? call = some e) (world : σ) :
    Refused (perform behave) serve c world call e := by
  refine .of_same (fun phase d => ?_) (answer_refused _ world h) ?_
  · cases call <;> first | rfl | cases h
  · simp only [serve, answer_refused (fun _ => Clock.reentrant : Tickers Unit) () h]

/-- On both clocks, at rest and inside a callback, a call is answered by a refusal exactly if its
own checks refuse it. Then nothing at all has changed, and everything goes on as if no one had
called. -/
theorem a_refusal_changes_nothing (behave : Behaviour σ) (world : σ) (call : Call) {e : ClockError}
    (he : e.isRefusal = true) :
    (∀ c : SimulatedClock,
      ((SimulatedClock.perform behave call (c, world)).2 = .error e ∨
        (SimulatedClock.serve c call).2 = .error e ↔ c.refusal? call = some e) ∧
      (c.refusal? call = some e →
        Refused (SimulatedClock.perform behave) SimulatedClock.serve c world call e)) ∧
    (call.isPublic = true → ∀ c : RealTimeClock,
      ((RealTimeClock.perform behave call (c, world)).2 = .error e ∨
        (RealTimeClock.serve c call).2 = .error e ↔ c.refusal? call = some e) ∧
      (c.refusal? call = some e →
        Refused (RealTimeClock.perform behave) RealTimeClock.serve c world call e)) := by
  constructor
  · intro c
    refine ⟨⟨?_, fun h => .inl (by rw [(c.refused h world).outside])⟩, fun h => c.refused h world⟩
    rintro (h | h)
    · exact SimulatedClock.refused_of_answer (Clock.tick_noRefusal _ behave _) h he
    · exact SimulatedClock.refused_of_answer Clock.reentrant_noRefusal h he
  · intro hp c
    refine ⟨⟨?_, fun h => .inl (by rw [(c.refused h world).outside])⟩, fun h => c.refused h world⟩
    rintro (h | h)
    · exact RealTimeClock.refused_of_answer (fun _ => Clock.tick_noRefusal _ behave _) hp h he
    · exact RealTimeClock.refused_of_answer (fun _ => Clock.reentrant_noRefusal) hp h he

/-- A real-time clock in the middle of a run, with a change of pace and an interrupt still to
come. -/
def midway : RealTimeClock :=
  { RealTimeClock.plain with
    ticking := true
    interrupted := true
    pacing := { RealTimeClock.plain.pacing with
      stage := .realTimeRunning, pending := .toSimulated } }

theorem a_refusal_changes_nothing_midway :
    Refused (SimulatedClock.perform RealTimeClock.restless) SimulatedClock.serve
      (SimulatedClock.make 10 .seconds) 0 .stop .notRunning ∧
    Refused (RealTimeClock.perform RealTimeClock.restless) RealTimeClock.serve midway 0 .start
      .alreadyRunning ∧
    Refused (RealTimeClock.perform RealTimeClock.restless) RealTimeClock.serve midway 0
      (.register "a") .listenerAlreadyRegistered := by
  have hstop := a_refusal_changes_nothing RealTimeClock.restless 0 .stop
    (e := .notRunning) rfl
  have hstart := a_refusal_changes_nothing RealTimeClock.restless 0 .start
    (e := .alreadyRunning) rfl
  have hregister := a_refusal_changes_nothing RealTimeClock.restless 0 (.register "a")
    (e := .listenerAlreadyRegistered) rfl
  exact ⟨(hstop.1 _).2 rfl, (hstart.2 rfl midway).2 rfl, (hregister.2 rfl midway).2 (by decide)⟩

end Metronome
