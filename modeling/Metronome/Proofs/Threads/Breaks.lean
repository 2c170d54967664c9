-- Runs that break off. The settings of a clock are checked before it is built,
-- but nobody looks at the name of its scheduler thread before the thread is
-- wanted. A name with a NUL character in it breaks the run then, and nothing
-- else ever breaks one.
import Metronome.Proofs.Threads.Release

namespace Metronome

theorem SchedulerSettings.threadCanStart_eq_false_iff {s : SchedulerSettings} :
    s.threadCanStart = false ↔ '\x00' ∈ s.threadName.toList := by
  unfold threadCanStart
  simp

namespace RealTimeClock

variable {σ : Type} {behave : Behaviour σ} {base c d : RealTimeClock} {f : Fault}

/-! ## A thread that cannot start -/

theorem ensureScheduler_error_iff :
    c.ensureScheduler = .error f ↔
      c.pacing.scheduler = none ∧ c.pacing.settings.threadCanStart = false ∧
        f = .threadNameHasNul := by
  unfold ensureScheduler
  cases c.pacing.scheduler with
  | some s => simp
  | none =>
    cases c.pacing.settings.threadCanStart with
    | false => simp [eq_comm]
    | true => cases c.pacing.settings.targetCore? <;> simp

theorem schedule_error_iff : c.schedule = .error f ↔ c.ensureScheduler = .error f := by
  unfold schedule
  cases c.ensureScheduler <;> simp [Except.map]

/-- A start breaks before anything has happened only in real time. -/
theorem launch_broken_iff :
    c.launch = .error (.broken f) ↔
      c.pacing.stage = .initRealTime ∧ c.ensureScheduler = .error f := by
  unfold launch
  cases hs : c.pacing.stage with
  | initRealTime =>
    cases c.ensureScheduler <;> simp [Stage.isRunning, Stage.on, Except.map]
  | _ => simp [Stage.isRunning, Stage.on]

/-! ## The step that breaks a run -/

/-- The run is about to enter real time, and there is no scheduler thread yet. -/
structure Wants (c : RealTimeClock) : Prop where
  ticking : c.ticking = true
  stage : c.pacing.stage = .realTimeRunning
  scheduler : c.pacing.scheduler = none

theorem follow_not_broken (leg : Leg) (r : (RealTimeClock × σ) × Progress) :
    (follow leg r).2 ≠ .inr (.broken f) := by
  obtain ⟨⟨c, world⟩, p⟩ := r
  cases p with
  | more => simp [follow]
  | failed e => simp [follow]
  | finished =>
    simp only [follow]
    cases c.applyPending <;> simp

/-- The step that breaks a run changes nothing. -/
theorem step_broken {T : Tickers σ} {leg : Leg} {st st' : RealTimeClock × σ}
    (h : step T leg st = (st', .inr (.broken f))) :
    leg = .choosing ∧ st' = st ∧ st.1.Wants ∧ st.1.ensureScheduler = .error f := by
  have hbroken : (step T leg st).2 = .inr (.broken f) := congrArg Prod.snd h
  cases leg with
  | realTime => exact (follow_not_broken _ _ hbroken).elim
  | simulated => exact (follow_not_broken _ _ hbroken).elim
  | choosing =>
    unfold step at h
    dsimp only at h
    split at h
    · rename_i hticking
      split at h
      · rename_i hstage
        cases hs : st.1.schedule <;> rw [hs] at h <;> cases h
        have hensure := schedule_error_iff.mp hs
        exact ⟨rfl, rfl, ⟨hticking, hstage, (ensureScheduler_error_iff.mp hensure).1⟩, hensure⟩
      · cases h
      · cases h
    · cases h

theorem step_of_wants {T : Tickers σ} {st : RealTimeClock × σ} (h : st.1.Wants)
    (hf : st.1.ensureScheduler = .error f) :
    step T .choosing st = (st, .inr (.broken f)) := by
  have hs := schedule_error_iff.mpr hf
  unfold step
  simp only [h.ticking, h.stage, hs, if_true]

/-! ## The way there -/

/-- A run that breaks was about to enter real time a step before. -/
theorem steps_broken {T : Tickers σ} {n : Nat} {leg : Leg} {st st' : RealTimeClock × σ}
    (h : steps T n leg st = (st', .inr (.broken f))) :
    (∃ m, steps T m leg st = (st', .inl .choosing)) ∧ st'.1.Wants ∧
      st'.1.ensureScheduler = .error f := by
  induction n generalizing leg st with
  | zero => cases h
  | succ n ih =>
    unfold steps at h
    rcases hs : step T leg st with ⟨st₁, next | ending⟩ <;> rw [hs] at h
    · obtain ⟨⟨m, hm⟩, hrest⟩ := ih h
      refine ⟨⟨m + 1, ?_⟩, hrest⟩
      unfold steps
      rw [hs]
      exact hm
    · cases h
      obtain ⟨rfl, rfl, hwants, hf⟩ := step_broken hs
      exact ⟨⟨0, rfl⟩, hwants, hf⟩

/-- A run that breaks after some steps does not end in another way. -/
theorem steps_of_wants {T : Tickers σ} {m n : Nat} {leg : Leg} {st st₁ st₂ : RealTimeClock × σ}
    {ending : Ending} (hm : steps T m leg st = (st₁, .inl .choosing)) (hwants : st₁.1.Wants)
    (hf : st₁.1.ensureScheduler = .error f) (hn : steps T n leg st = (st₂, .inr ending)) :
    st₂ = st₁ ∧ ending = .broken f := by
  induction m generalizing leg st n with
  | zero =>
    cases hm
    cases n with
    | zero => cases hn
    | succ n =>
      unfold steps at hn
      rw [step_of_wants hwants hf] at hn
      cases hn
      exact ⟨rfl, rfl⟩
  | succ m ih =>
    cases n with
    | zero => cases hn
    | succ n =>
      unfold steps at hm hn
      rcases hs : step T leg st with ⟨st₃, next | ending⟩ <;> rw [hs] at hm hn
      · exact ih hm hn
      · cases hm

/-- A run that is on its way has kept the invariant so far. -/
theorem Ready.partway (h : Ready base c) (hb : behave.Public) (hL : 0 < base.tickLength) {n : Nat}
    {leg next : Leg} (hp : leg = .choosing → c.pacing.pending = .none) {world world' : σ}
    (hs : RealTimeClock.steps (dispatch behave) n leg (c, world) = ((d, world'), .inl next)) :
    Ready base d := by
  induction n generalizing c leg world with
  | zero =>
    cases hs
    exact h
  | succ n ih =>
    obtain ⟨e, world₁, going, news, he, -, hready, hstands⟩ := h.step hb hL leg hp world []
    unfold RealTimeClock.steps at hs
    rw [he] at hs
    rcases going with going | ending
    · exact ih hready hstands.1 hs
    · cases hs

/-! ## Runs that want a thread -/

/-- A start of this clock comes to want a scheduler thread, at once or at the end of a tick. -/
def NeedsThread (behave : Behaviour σ) (st : RealTimeClock × σ) : Prop :=
  st.1.pacing.stage = .initRealTime ∨
    ∃ launched n d world, launch st.1 = .ok launched ∧
      steps (dispatch behave) n .choosing (launched, st.2) = ((d, world), .inl .choosing) ∧ d.Wants

/-- A start breaks exactly if it comes to want a thread that cannot start. It leaves the clock as
it was, or as one that still ticks. -/
theorem Rested.start_broken (h : Rested c) (hb : behave.Public) (world : σ) :
    let r := RealTimeClock.start (dispatch behave) (c, world)
    (∀ f, r.2 = .broken f ↔
      f = .threadNameHasNul ∧ c.pacing.settings.threadCanStart = false ∧
        NeedsThread behave (c, world)) ∧
    ∀ f, r.2 = .broken f → r.1 = (c, world) ∨ r.1.1.Wants := by
  have hforbidden {d : RealTimeClock} (hset : d.pacing.settings = c.pacing.settings)
      (hsch : d.pacing.scheduler = none) (hno : c.pacing.settings.threadCanStart = false) :
      d.ensureScheduler = .error .threadNameHasNul :=
    ensureScheduler_error_iff.mpr ⟨hsch, hset ▸ hno, rfl⟩
  rcases h.launch with ⟨launched, hl, hready, hpend, -⟩ | ⟨f, hf, -⟩
  · obtain ⟨d, world', ending, -, hrun, -, hready', -⟩ := hready.steps hb h.tickLength
      (fun _ => hpend) (need_lt_enoughSteps launched) world []
    rw [start_eq hl hrun]
    refine ⟨fun f => ⟨?_, ?_⟩, ?_⟩
    · rintro rfl
      obtain ⟨⟨m, hm⟩, hwants, hf⟩ := steps_broken hrun
      obtain ⟨-, hno, rfl⟩ := ensureScheduler_error_iff.mp hf
      exact ⟨rfl, hready'.steady.settings ▸ hno, .inr ⟨launched, m, d, world', hl, hm, hwants⟩⟩
    · rintro ⟨rfl, hno, hstage | ⟨launched', m, e, world₁, hl', hm, hwants⟩⟩
      · have hlaunch := launch_broken_iff.mpr ⟨hstage, hforbidden rfl h.scheduler hno⟩
        rw [hl] at hlaunch
        cases hlaunch
      · obtain rfl := Except.ok.inj (hl.symm.trans hl')
        have hset := (hready.partway hb h.tickLength (fun _ => hpend) hm).steady.settings
        exact (steps_of_wants hm hwants (hforbidden hset hwants.scheduler hno) hrun).2
    · rintro f rfl
      exact .inr (steps_broken hrun).2.1
  · have hstart : RealTimeClock.start (dispatch behave) (c, world) = ((c, world), .broken f) := by
      simp only [RealTimeClock.start, hf]
    obtain ⟨hstage, hensure⟩ := launch_broken_iff.mp hf
    obtain ⟨-, hno, rfl⟩ := ensureScheduler_error_iff.mp hensure
    rw [hstart]
    refine ⟨fun f => ⟨?_, ?_⟩, fun f _ => .inl rfl⟩
    · rintro ⟨⟩
      exact ⟨rfl, hno, .inl hstage⟩
    · rintro ⟨rfl, -, -⟩
      rfl

/-! ## Calls before the start -/

theorem start_begun (T : Tickers σ) (hi : c.pacing.stage.isInitial = false) (world : σ) :
    ∃ e, start T (c, world) = ((c, world), .failed e) := by
  obtain ⟨e, he⟩ := launch_begun hi
  exact ⟨e, by simp only [start, he]⟩

theorem not_needsThread_of_begun (hi : c.pacing.stage.isInitial = false) (world : σ) :
    ¬ NeedsThread behave (c, world) := by
  obtain ⟨e, he⟩ := launch_begun hi
  rintro (hstage | ⟨launched, _, _, _, hl, -⟩)
  · dsimp only at hstage
    rw [hstage] at hi
    cases hi
  · rw [he] at hl
    cases hl

/-- No call before the run changes the settings of the scheduler. -/
theorem serve_settings (hi : c.pacing.stage.isInitial = true) {call : Call}
    (hp : call.isPublic = true) (hs : call ≠ .start) :
    (serve c call).1.pacing.settings = c.pacing.settings := by
  have hmoved (s : Stage) : (c.moveTo s).pacing.settings = c.pacing.settings := by
    obtain ⟨feed, hm⟩ := moveTo_eq c s
    rw [hm]
  cases call with
  | start => exact absurd rfl hs
  | override o => cases hp
  | stop =>
    obtain ⟨e, he⟩ := stop_initial hi
    simp only [serve, answer, settle, he]
  | switchToRealTime =>
    simp only [serve, answer]
    rcases switchToRealTime_initial hi with he | he <;> rw [he]
    · rfl
    · exact hmoved .initRealTime
  | switchToSimulated =>
    simp only [serve, answer]
    rcases switchToSimulated_initial hi with he | he <;> rw [he]
    · rfl
    · exact hmoved .initSimulated
  | register x => simp only [serve, answer, Clock.register]; split <;> rfl
  | unregister x => simp only [serve, answer, Clock.unregister]; split <;> rfl
  | jitter => simp only [serve, answer, jitter]; split <;> rfl
  | _ => rfl

/-- The clock has not begun its run, and has the settings that it was built with. Or it has. -/
def Awaits (settings : SchedulerSettings) (c : RealTimeClock) : Prop :=
  c.pacing.stage.isInitial = true → Rested c ∧ c.pacing.settings = settings

theorem Awaits.answer {settings : SchedulerSettings} (h : Awaits settings c)
    (hb : behave.Public) {call : Call} (hp : call.isPublic = true) (world : σ) :
    Awaits settings (answer (dispatch behave) call (c, world)).1.1 := by
  cases hi : c.pacing.stage.isInitial with
  | false =>
    rw [answer_begun hi hp]
    intro hstill
    rw [serve_begun hi hp] at hstill
    cases hstill
  | true =>
    obtain ⟨hrest, hset⟩ := h hi
    by_cases hs : call = .start
    · subst hs
      obtain ⟨d, world', ending, -, hd, -, -, hend⟩ := hrest.start hb world []
      simp only [RealTimeClock.answer, hd]
      rcases hend with ⟨e, -, rfl, -⟩ | ⟨-, rfl | hsteady⟩
      · exact fun hstill => by cases hstill
      · exact h
      · intro hstill
        rw [hsteady.begun] at hstill
        cases hstill
    · rw [answer_eq_serve hp hs]
      exact fun _ => ⟨hrest.serve hp hs, (serve_settings hi hp hs).trans hset⟩

theorem Awaits.answerAll {settings : SchedulerSettings} (h : Awaits settings c)
    (hb : behave.Public) {calls : List Call} (hp : ∀ call ∈ calls, call.isPublic = true)
    (world : σ) : Awaits settings (answerAll (dispatch behave) calls (c, world)).1 := by
  unfold RealTimeClock.answerAll
  induction calls generalizing c world with
  | nil => exact h
  | cons call calls ih =>
    rw [List.foldl_cons]
    exact ih (h.answer hb (hp call (by simp)) world)
      (fun call' h' => hp call' (List.mem_cons_of_mem _ h')) _

end RealTimeClock

/-! ## Clocks with settings that pass -/

open RealTimeClock

variable {σ : Type}

theorem Scene.Sound.name_of_broken {base : RealTimeClock} {s : Scene σ} (h : Sound base s)
    {f : Fault} (hover : s.main = .finished (.broken f)) :
    base.pacing.settings.threadCanStart = false := by
  have hx := h.traced.main
  unfold Explains at hx
  rw [hover] at hx
  rw [← h.owned.settings]
  exact hx

/-- Settings that pass their check become a clock. Whatever it is asked before, and whatever its
listeners do, its start ends well or with an error, unless it comes to want a scheduler thread
whose name has a NUL character in it. Then, and only then, the start breaks, and leaves the clock
as it was or as one that still ticks. Stops and requests from other threads make no difference. -/
theorem only_a_name_with_a_nul_breaks_a_run {b : Blueprint} (hcheck : b.settings.check = .ok ())
    (openLog : PauseSettings → Pause.Source) (watch : Nat → Reading) {behave : Behaviour σ}
    (hb : behave.Public) {calls : List Call} (hcalls : ∀ call ∈ calls, call.isPublic = true)
    (world : σ) :
    ∃ c, b.buildRealTime openLog watch = .ok c ∧
      let st := answerAll (dispatch behave) calls (c, world)
      let r := start (dispatch behave) st
      let nul := '\x00' ∈ b.settings.scheduler.threadName.toList
      (∀ f, r.2 = .broken f ↔ f = .threadNameHasNul ∧ nul ∧ NeedsThread behave st) ∧
      (∀ f, r.2 = .broken f → r.1 = st ∨ r.1.1.Wants) ∧
      (st.1.pacing.stage.isInitial = true → ∀ acts s f,
        (Scene.opening st.1 st.2).play behave acts = some s →
        s.main = .finished (.broken f) → nul) := by
  have hvalid := Settings.check_eq_ok_iff.mp hcheck
  obtain ⟨stage, -, -, hbuilt⟩ := Blueprint.built_of_valid hvalid openLog watch
  refine ⟨_, hbuilt, ?_⟩
  intro st r nul
  have hnul : b.settings.scheduler.threadCanStart = false ↔ nul :=
    SchedulerSettings.threadCanStart_eq_false_iff
  have hawaits : Awaits b.settings.scheduler st.1 :=
    Awaits.answerAll (fun _ => ⟨rested_of_built hbuilt, rfl⟩) hb hcalls world
  cases hi : st.1.pacing.stage.isInitial with
  | false =>
    have hneeds : ¬ NeedsThread behave st := not_needsThread_of_begun hi st.2
    obtain ⟨e, hfailed⟩ := start_begun (dispatch behave) hi st.2
    have hr : r = (st, .failed e) := hfailed
    rw [hr]
    refine ⟨fun f => ⟨fun hf => (by cases hf), fun h => absurd h.2.2 hneeds⟩, ?_, ?_⟩
    · exact fun f hf => (by cases hf)
    · exact fun h => (by cases h)
  | true =>
    obtain ⟨hrest, hset⟩ := hawaits hi
    rw [← hset] at hnul
    obtain ⟨hbroken, hleft⟩ := hrest.start_broken hb st.2
    rw [hnul] at hbroken
    refine ⟨hbroken, hleft, ?_⟩
    intro _ acts s f hs hover
    have hsound := (Scene.sound_opening hrest st.2).play hb hrest.tickLength hs
    exact hnul.mp (hsound.name_of_broken hover)

namespace RealTimeClock

/-- Settings with a name that no thread can bear, for a clock that begins in simulated time. -/
def unnamed : Settings := { Scene.unnameable with startingMode := .simulated }

/-- A listener that asks for real time in its first tick. -/
def hasty : Behaviour Unit := fun v _ =>
  match v.phase with
  | .tick => .ask .switchToRealTime fun _ => .finish () .fine
  | .after => .finish () .fine

theorem hasty_public : hasty.Public := by
  intro v world
  unfold hasty
  split
  · exact ⟨rfl, fun _ => trivial⟩
  · trivial

end RealTimeClock

/-- A run in simulated time that is asked for real time comes to want the thread. -/
theorem a_name_with_a_nul_breaks_a_hasty_run :
    unnamed.check = .ok () ∧ hasty.Public ∧
    ∃ c, ({ settings := unnamed } : Blueprint).buildRealTime (fun _ => .silent) (fun _ => ⟨0, 0⟩) =
        .ok c ∧
      let st := answerAll (dispatch hasty) [.register "a"] (c, ())
      NeedsThread hasty st ∧ (start (dispatch hasty) st).2 = .broken .threadNameHasNul := by
  have hcheck : ({ settings := unnamed } : Blueprint).settings.check = .ok () := rfl
  have hcalls : ∀ call ∈ [Call.register "a"], call.isPublic = true := by simp [Call.isPublic]
  obtain ⟨c, hc, hbroken, -⟩ := only_a_name_with_a_nul_breaks_a_run hcheck
    (fun _ => .silent) (fun _ => ⟨0, 0⟩) hasty_public hcalls ()
  cases hc
  exact ⟨rfl, hasty_public, _, rfl, ((hbroken .threadNameHasNul).mp rfl).2.2, rfl⟩

/-- Nobody objects to the name when the settings are checked. In real time the start breaks at
once; in simulated time the run breaks in its middle, and nobody is told that it is over. -/
theorem checked_settings_can_break_a_run :
    Scene.unnameable.check = .ok () ∧ unnamed.check = .ok () ∧
    (∃ c, ({ settings := Scene.unnameable } : Blueprint).buildRealTime (fun _ => .silent)
        (fun _ => ⟨0, 0⟩) = .ok c ∧
      (start (dispatch hasty) (c, ())).2 = .broken .threadNameHasNul) ∧
    ∃ c, ({ settings := unnamed } : Blueprint).buildRealTime (fun _ => .silent) (fun _ => ⟨0, 0⟩) =
        .ok c ∧
      let r := start (dispatch hasty)
        (answerAll (dispatch hasty) [.subscribe none, .register "a"] (c, ()))
      r.2 = .broken .threadNameHasNul ∧ r.1.1.ticking = true ∧
        r.1.1.pacing.stage = .realTimeRunning ∧
        (r.1.1.feed.drain 0).2 = some [⟨.started, 0⟩, ⟨.switchToRealTime, 1000⟩] :=
  ⟨rfl, rfl, ⟨_, rfl, rfl⟩, _, rfl, rfl, rfl, rfl, rfl⟩

end Metronome
