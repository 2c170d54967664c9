-- The life of a real-time clock: it rests, it runs once, and it is stopped
-- for good. A clock that a blueprint built rests until its start, whatever
-- it is asked before.
import Metronome.Proofs.Blueprints
import Metronome.Proofs.RealTime.Run

namespace Metronome

namespace RealTimeClock

variable {σ : Type} {behave : Behaviour σ} {base c d : RealTimeClock}

/-! ## A clock at rest -/

/-- A clock before its only run. -/
structure Rested (c : RealTimeClock) : Prop where
  tickLength : 0 < c.tickLength
  time : c.time = 0
  ticking : c.ticking = false
  idle : c.dispatching = false
  initial : c.pacing.stage.isInitial = true
  pending : c.pacing.pending = .none
  scheduler : c.pacing.scheduler = none

/-- What a blueprint builds is a new clock with the settings of the blueprint. -/
theorem built_eq {b : Blueprint} {openLog : PauseSettings → Pause.Source} {watch : Nat → Reading}
    (h : b.buildRealTime openLog watch = .ok c) :
    ∃ stage period pauses, c = make b.settings stage period b.pins pauses watch ∧
      stage.isInitial = true ∧ 0 < b.settings.tickLength := by
  have hvalid := Blueprint.valid_of_built h
  obtain ⟨stage, hinitial, -, hmake⟩ := Blueprint.built_of_valid hvalid openLog watch
  rw [hmake] at h
  cases h
  exact ⟨stage, _, _, rfl, hinitial, hvalid.tickLength⟩

theorem rested_of_built {b : Blueprint} {openLog : PauseSettings → Pause.Source}
    {watch : Nat → Reading} (h : b.buildRealTime openLog watch = .ok c) : Rested c := by
  obtain ⟨stage, period, pauses, rfl, hinit, hL⟩ := built_eq h
  exact ⟨hL, rfl, rfl, rfl, hinit, rfl, rfl⟩

/-! ## The beginning and the end of a run -/

/-- The stage of a run that begins now. -/
def Stage.begun : Stage → Stage
  | .initRealTime => .realTimeRunning
  | .initSimulated => .simulatedRunning
  | s => s

theorem Rested.steady (h : Rested c) {s : Stage} (hs : s.isRunning = true) :
    Steady c { c with ticking := true, pacing.stage := s } where
  tickLength := rfl
  settings := rfl
  begun := by cases s <;> first | rfl | cases hs
  halted he := by
    dsimp only at he
    rw [he] at hs
    cases hs
  fresh _ _ := rfl
  pins := by
    refine ⟨[], by simp, Nat.zero_le _, rfl, ?_⟩
    simp [isPinned, h.scheduler]

/-- The scheduler thread is taken before the stage changes, but neither looks at the other. -/
theorem ensureScheduler_stage (c : RealTimeClock) (s : Stage) :
    ensureScheduler { c with ticking := true, pacing.stage := s } =
      c.ensureScheduler.map fun d => { d with ticking := true, pacing.stage := s } := by
  unfold ensureScheduler
  dsimp only
  split
  · rfl
  · split
    · split <;> rfl
    · rfl

/-- A clock at rest gets past its start, unless its scheduler thread cannot start. -/
theorem Rested.launch (h : Rested c) :
    (∃ d, c.launch = .ok d ∧ Ready c d ∧ d.pacing.pending = .none ∧ d.ticking = true ∧
      d.time = 0 ∧ d.pacing.stage = Stage.begun c.pacing.stage) ∨
    ∃ f, c.launch = .error (.broken f) ∧ c.pacing.settings.threadCanStart = false := by
  have hinit := h.initial
  cases hs : c.pacing.stage with
  | initSimulated =>
    left
    have hst := h.steady (s := .simulatedRunning) rfl
    refine ⟨_, by simp only [RealTimeClock.launch, hs, Stage.isRunning, Stage.on]; rfl, ?_⟩
    unfold Clock.beginTicking
    rw [if_neg (by simp only [h.ticking]; simp)]
    exact ⟨⟨hst.of_eq rfl rfl rfl id rfl rfl, h.idle, Int.le_of_eq h.time.symm⟩, h.pending, rfl,
      h.time, rfl⟩
  | initRealTime =>
    have hst := h.steady (s := .realTimeRunning) rfl
    have hstage := ensureScheduler_stage c .realTimeRunning
    rcases ensureScheduler_cases c with ⟨scheduler, pins, hd⟩ | ⟨f, hf, hthread⟩
    · left
      rw [hd] at hstage
      have hready := hst.ensure rfl hstage
      refine ⟨_, by simp only [RealTimeClock.launch, hs, Stage.isRunning, Stage.on, hd]; rfl, ?_⟩
      unfold Clock.beginTicking
      rw [if_neg (by simp only [h.ticking]; simp)]
      exact ⟨⟨hready.of_eq rfl rfl rfl id rfl rfl, h.idle, Int.le_of_eq h.time.symm⟩,
        h.pending, rfl, h.time, rfl⟩
    · right
      exact ⟨f, by simp only [RealTimeClock.launch, hs, Stage.isRunning, Stage.on, hf]; rfl,
        hthread⟩
  | _ => rw [hs] at hinit; cases hinit

/-- A run that has begun is ready for its first leg. -/
theorem Rested.launched (h : Rested c) (hl : c.launch = .ok d) :
    Ready c d ∧ d.pacing.pending = .none := by
  rcases h.launch with ⟨d', hd, hready, hpend, -⟩ | ⟨f, hf, -⟩
  · rw [hl] at hd
    cases hd
    exact ⟨hready, hpend⟩
  · rw [hl] at hf
    cases hf

/-- No run is cut short. -/
theorem need_lt_enoughSteps (c : RealTimeClock) : need .choosing c < c.enoughSteps := by
  simp only [need, enoughSteps]
  omega

/-- The beginning of a run changes the pacing, raises the one flag and takes the other down. -/
theorem launch_eq (h : c.launch = .ok d) :
    ∃ pacing : Pacing, d = ({ c with pacing }.beginTicking).publish .started := by
  unfold launch at h
  split at h
  · cases h
  split at h
  · cases h
  rename_i next _
  by_cases hn : next = .realTimeRunning
  · rw [if_pos hn] at h
    rcases ensureScheduler_cases c with ⟨scheduler, pins, he⟩ | ⟨f, he, -⟩ <;> rw [he] at h <;>
      cases h
    exact ⟨_, rfl⟩
  · rw [if_neg hn] at h
    cases h
    exact ⟨_, rfl⟩

/-- Whoever ends a run finds the clock in its last stage, or moves it there. -/
theorem close_eq (h : c.pacing.stage.isInitial = false) :
    c.close = { c with pacing.stage := .stopped } := by
  unfold close
  cases hs : c.pacing.stage <;> simp [hs, Stage.isRunning, Stage.isInitial] at h ⊢
  rw [← hs]

/-- The end of a run is that of a stop, and the watchers hear of it. -/
theorem conclude_eq (h : Steady base c) : c.conclude = c.ended.publish .stopped := by
  unfold conclude
  rw [close_eq h.begun, releaseScheduler_eq]
  rfl

/-- What a run that ended so leaves of the clock. Only a run that breaks off is not concluded. -/
def Ending.leaves (c : RealTimeClock) : Ending → RealTimeClock
  | .broken _ => c
  | _ => c.conclude

theorem start_eq {T : Tickers σ} {e : RealTimeClock} {world world' : σ} {ending : Ending}
    (hl : c.launch = .ok d)
    (hrun : steps T d.enoughSteps .choosing (d, world) = ((e, world'), .inr ending)) :
    start T (c, world) = ((ending.leaves e, world'), ending) := by
  have hloop : runLoop T (d, world) = ((e, world'), ending) := by
    unfold runLoop
    dsimp only
    rw [hrun]
    rfl
  cases ending <;> simp only [start, hl, hloop, Ending.leaves]

/-- A run of a clock at rest comes to its end, and the chronicle tells how. It leaves the clock
ended, unless it broke off for want of a scheduler thread. -/
theorem Rested.start (h : Rested c) (hb : behave.Public) (world : σ) (l : Chronicle) :
    ∃ d world' ending news,
      start (dispatch behave) (c, world) = ((d, world'), ending) ∧
      RealTimeClock.start (chronicled behave) (c, (world, l)) =
        ((d, (world', l ++ news)), ending) ∧
      Chronicle.Tells c.tickLength ending.error? news ∧
      ((∃ e, Steady c e ∧ d = e.ended.publish .stopped ∧ ∀ f, ending ≠ .broken f) ∨
        c.pacing.settings.threadCanStart = false ∧ (d = c ∨ Steady c d)) := by
  rcases h.launch with ⟨d, hd, hready, hpend, -⟩ | ⟨f, hf, hthread⟩
  · obtain ⟨e, world', ending, news, he, hnews, hready', htells, hbroken⟩ :=
      hready.steps hb h.tickLength (fun _ => hpend) (need_lt_enoughSteps d) world l
    have hend := conclude_eq hready'.steady
    refine ⟨_, world', ending, news, start_eq hd he, start_eq hd hnews, htells, ?_⟩
    cases ending with
    | broken f => exact .inr ⟨hready'.steady.settings ▸ hbroken f rfl, .inr hready'.steady⟩
    | _ => exact .inl ⟨e, hready'.steady, hend, fun _ hf => by cases hf⟩
  · refine ⟨c, world, .broken f, [], ?_, ?_, Chronicle.Clear.nil, .inr ⟨hthread, .inl rfl⟩⟩
    · simp only [RealTimeClock.start, hf]
    · simp only [RealTimeClock.start, hf, List.append_nil]

/-! ## Calls before and after the run -/

/-- Outside of a start, a call does what it does inside a tick. -/
theorem answer_eq_serve {call : Call} (hp : call.isPublic = true) (hs : call ≠ .start)
    (tick : Tickers σ) (world : σ) :
    answer tick call (c, world) = (((serve c call).1, world), (serve c call).2) := by
  cases call with
  | start => exact absurd rfl hs
  | override o => cases hp
  | stop => simp only [answer, serve, settle]; cases c.stop <;> rfl
  | switchToRealTime => simp only [answer, serve, settle]; cases c.switchToRealTime <;> rfl
  | switchToSimulated => simp only [answer, serve, settle]; cases c.switchToSimulated <;> rfl
  | register x => simp only [answer, serve, settle]; cases c.register x <;> rfl
  | _ => rfl

/-- A clock that has begun its run begins no other, so no call brings callbacks any more. -/
theorem answer_begun (h : c.pacing.stage.isInitial = false) {call : Call}
    (hp : call.isPublic = true) (tick : Tickers σ) (world : σ) :
    answer tick call (c, world) = (((serve c call).1, world), (serve c call).2) := by
  by_cases hs : call = .start
  · subst hs
    obtain ⟨e, he⟩ := launch_begun h
    simp only [answer, serve, RealTimeClock.start, he]
  · exact answer_eq_serve hp hs tick world

theorem serve_begun (h : c.pacing.stage.isInitial = false) {call : Call}
    (hp : call.isPublic = true) : (serve c call).1.pacing.stage.isInitial = false := by
  rcases serve_cases hp h with ⟨-, he⟩ | hs
  · rw [he]
    rfl
  · rw [hs.stage]
    exact h

/-- The parts that a clock at rest may change without waking. -/
theorem Rested.of_eq (h : Rested c) (hL : d.tickLength = c.tickLength) (ht : d.time = c.time)
    (hti : d.ticking = c.ticking) (hd : d.dispatching = c.dispatching)
    (hs : d.pacing.stage.isInitial = true) (hp : d.pacing.pending = c.pacing.pending)
    (hsch : d.pacing.scheduler = c.pacing.scheduler) : Rested d :=
  ⟨hL ▸ h.tickLength, ht.trans h.time, hti.trans h.ticking, hd.trans h.idle, hs,
    hp.trans h.pending, hsch.trans h.scheduler⟩

theorem Rested.moveTo (h : Rested c) {s : Stage} (hs : s.isInitial = true) :
    Rested (c.moveTo s) := by
  obtain ⟨feed, hm⟩ := moveTo_eq c s
  rw [hm]
  exact h.of_eq rfl rfl rfl rfl hs rfl rfl

/-- Before the run, a request is granted at once. -/
theorem switchToRealTime_initial (h : c.pacing.stage.isInitial = true) :
    c.switchToRealTime = .ok c ∨ c.switchToRealTime = .ok (c.moveTo .initRealTime) := by
  unfold switchToRealTime
  cases hs : c.pacing.stage with
  | initRealTime => exact .inl rfl
  | initSimulated => exact .inr rfl
  | _ => rw [hs] at h; cases h

theorem switchToSimulated_initial (h : c.pacing.stage.isInitial = true) :
    c.switchToSimulated = .ok c ∨ c.switchToSimulated = .ok (c.moveTo .initSimulated) := by
  unfold switchToSimulated
  cases hs : c.pacing.stage with
  | initSimulated => exact .inl rfl
  | initRealTime => exact .inr rfl
  | _ => rw [hs] at h; cases h

/-- Before the run, a call may change the listeners, the watchers and the pace to begin with. -/
theorem Rested.serve (h : Rested c) {call : Call} (hp : call.isPublic = true)
    (hs : call ≠ .start) : Rested (serve c call).1 := by
  cases call with
  | start => exact absurd rfl hs
  | override o => cases hp
  | stop =>
    obtain ⟨e, he⟩ := stop_initial h.initial
    simp only [RealTimeClock.serve, answer, settle, he]
    exact h
  | switchToRealTime =>
    simp only [RealTimeClock.serve, answer]
    rcases switchToRealTime_initial h.initial with he | he <;> rw [he]
    · exact h
    · exact h.moveTo rfl
  | switchToSimulated =>
    simp only [RealTimeClock.serve, answer]
    rcases switchToSimulated_initial h.initial with he | he <;> rw [he]
    · exact h
    · exact h.moveTo rfl
  | register x =>
    simp only [RealTimeClock.serve, answer, Clock.register]
    split
    · exact h.of_eq rfl rfl rfl rfl h.initial rfl rfl
    · exact h
  | unregister x =>
    simp only [RealTimeClock.serve, answer, Clock.unregister]
    split
    · exact h.of_eq rfl rfl rfl rfl h.initial rfl rfl
    · exact h
  | jitter =>
    simp only [RealTimeClock.serve, answer, jitter]
    split
    · exact h
    · exact h.of_eq rfl rfl rfl rfl h.initial rfl rfl
  | _ => exact h.of_eq rfl rfl rfl rfl h.initial rfl rfl

/-! ## Every clock that there is -/

/-- A clock that a blueprint built and that was asked public calls since, among them perhaps a
start, by listeners and by others. -/
inductive Reached (behave : Behaviour σ) : RealTimeClock × σ → Prop
  | built {b : Blueprint} {openLog : PauseSettings → Pause.Source} {watch : Nat → Reading}
      {c : RealTimeClock} (world : σ) :
      b.buildRealTime openLog watch = .ok c → Reached behave (c, world)
  | called {st : RealTimeClock × σ} (call : Call) :
      Reached behave st → call.isPublic = true → Reached behave (perform behave call st).1

/-- What a new clock has, and what no call before the run changes, a clock has until it begins its
run. And until then it is at rest. -/
theorem Reached.at_rest {P : RealTimeClock → Prop} {st : RealTimeClock × σ}
    (hr : Reached behave st) (hb : behave.Public)
    (hbuilt : ∀ {b : Blueprint} {openLog : PauseSettings → Pause.Source} {watch : Nat → Reading}
      {c : RealTimeClock}, b.buildRealTime openLog watch = .ok c → P c)
    (hserve : ∀ {c : RealTimeClock} {call : Call}, Rested c → call.isPublic = true →
      call ≠ .start → P c → P (serve c call).1)
    (hi : st.1.pacing.stage.isInitial = true) : Rested st.1 ∧ P st.1 := by
  induction hr with
  | built world h => exact ⟨rested_of_built h, hbuilt h⟩
  | @called st call _ hp ih =>
    obtain ⟨c, world⟩ := st
    cases hc : c.pacing.stage.isInitial with
    | false =>
      rw [perform, answer_begun hc hp] at hi
      rw [serve_begun hc hp] at hi
      cases hi
    | true =>
      obtain ⟨hrest, hP⟩ := ih hc
      by_cases hs : call = .start
      · subst hs
        obtain ⟨d, world', ending, -, hd, -, -, hend⟩ := hrest.start hb world []
        simp only [perform, answer, hd] at hi ⊢
        rcases hend with ⟨e, -, rfl, -⟩ | ⟨-, rfl | hsteady⟩
        · cases hi
        · exact ⟨hrest, hP⟩
        · rw [hsteady.begun] at hi
          cases hi
      · rw [perform, answer_eq_serve hp hs]
        exact ⟨hrest.serve hp hs, hserve hrest hp hs hP⟩

/-- A clock that has not begun its run is at rest, whatever it was asked. -/
theorem Reached.rested {st : RealTimeClock × σ} (hr : Reached behave st) (hb : behave.Public)
    (hi : st.1.pacing.stage.isInitial = true) : Rested st.1 :=
  (hr.at_rest (P := fun _ => True) hb (fun _ => trivial) (fun _ _ _ _ => trivial) hi).1

end RealTimeClock

end Metronome
