-- How many real-time ticks a run has. Each of them takes up the time of a
-- tick, but for the one that is under way and one that failed. A failure
-- ends the run, and the time is bounded, so no counter of ticks goes round.
import Metronome.Proofs.Threads.Marks

namespace Metronome

/-! ## A failure ends the run -/

namespace Worker

/-- What was told of the ends of all tasks. -/
def endings (w : Worker) : List (List Outcome) := w.tasks.map (·.outcomes)

/-- The task has failed, and nothing else was told of it. -/
def Failed (w : Worker) (task : Nat) : Prop := ∃ e, w.endings[task]? = some [.failed e]

variable {w v : Worker} {task : Nat}

theorem endings_raiseFlag (w : Worker) (i : Nat) : (w.raiseFlag i).1.endings = w.endings := by
  apply List.ext_getElem?
  intro j
  simp only [endings, raiseFlag, List.getElem?_map, getElem?_changeTask]
  cases w.tasks[j]? with
  | none => rfl
  | some t =>
    simp only [Option.map_some]
    split <;> rfl

theorem endings_send (w : Worker) (c : Command) : ((w.send? c).getD w).endings = w.endings := by
  unfold send?
  split <;> rfl

/-- A worker whose task has failed has nothing to do. -/
theorem Failed.free (hf : w.Failed task) (h : w.Owes task) : w.Free := by
  obtain ⟨e, he⟩ := hf
  obtain ⟨t, ht, -, ⟨hnone, -⟩ | ⟨-, hfree⟩⟩ := h
  · rw [endings, List.getElem?_map, ht, Option.map_some, hnone] at he
    cases he
  · exact hfree

/-- A worker that has nothing to do tells of no end. -/
theorem Free.endings_step? (h : w.Free) {due : Bool} (hs : w.step? due = some v) :
    v.endings = w.endings := by
  have hidle (hp : w.phase ≠ .exited) : w.phase.task? = none := by
    have hload := h hp
    unfold load at hload
    simpa using (List.append_eq_nil_iff.mp hload).1
  unfold step? at hs
  cases hp : w.phase with
  | idle =>
    rw [hp] at hs
    cases hq : w.queue with
    | nil => rw [hq] at hs; cases hs
    | cons c queue =>
      rw [hq] at hs
      cases hs
      cases c <;> rfl
  | exited => rw [hp] at hs; cases hs
  | checking i | resting i | running i =>
    rw [hp] at hidle
    cases hidle (by simp)

/-- Who awaits a task that failed hears of the failure. -/
theorem Failed.receive (hf : w.Failed task) (h : w.Owes task) :
    ∃ e v, w.receive task = (v, .outcome (.failed e)) := by
  obtain ⟨e, he⟩ := hf
  obtain ⟨t, ht, hrec, -⟩ := h
  rw [endings, List.getElem?_map, ht, Option.map_some] at he
  have hout : t.outcomes = [.failed e] := Option.some.inj he
  unfold Worker.receive
  simp only [ht, hrec, hout]
  exact ⟨e, _, rfl⟩

/-- A run that failed is the end of its task. -/
theorem Owes.failed_heed (h : w.Owes task) (hp : w.phase = .running task) (e : ClockError) :
    Failed ((w.changeTask task fun t => { t with runs := t.runs + 1 }).heed task (.failed e))
      task := by
  obtain ⟨t, ht, -, ⟨hnone, -⟩ | ⟨-, hfree⟩⟩ := h
  · refine ⟨e, ?_⟩
    simp only [heed, Report.outcome?, reduceCtorEq, if_false, endings, Worker.report,
      List.getElem?_map, getElem?_changeTask, ht, Option.map_some, if_true, hnone, List.nil_append]
  · have hload := hfree (by rw [hp]; simp)
    rw [load, hp] at hload
    cases hload

end Worker

/-- The error that the run will end with. -/
def Main.error? {σ : Type} : Main σ → Option ClockError
  | .clearing e | .closing e | .leaving _ e => e
  | .finished (.failed e) => some e
  | _ => none

theorem Main.error?_of_awaited {σ : Type} {m : Main σ} {task : Nat}
    (h : m.awaited? = some task) : m.error? = none := by
  cases m <;> first | rfl | cases h

namespace Scene

variable {σ : Type} {behave : Behaviour σ} {base : RealTimeClock} {s t : Scene σ}

/-- The run will end with an error, whether or not its thread knows of it. -/
def Doomed (s : Scene σ) : Prop :=
  s.main.error?.isSome = true ∨ ∃ task, s.main.awaited? = some task ∧ s.worker.Failed task

/-- In a doomed run the worker runs no task any more. -/
theorem Doomed.not_running (hd : s.Doomed) (h : Sound base s) (i : Nat) :
    s.worker.phase ≠ .running i := by
  intro hp
  have hm := h.running_awaited hp
  rcases hd with herr | ⟨task, htask, hf⟩
  · rw [Main.error?_of_awaited hm] at herr
    cases herr
  · have hserves := h.serves
    rw [htask] at hserves
    have hload := hf.free hserves (by rw [hp]; simp)
    rw [Worker.load, hp] at hload
    cases hload

/-- A step that tells of no end leaves a doomed run doomed. -/
theorem Doomed.of_eq (hd : s.Doomed) (hm : t.main = s.main)
    (hw : t.worker.endings = s.worker.endings) : t.Doomed := by
  unfold Doomed Worker.Failed at *
  rwa [hm, hw]

theorem stopStep_endings {i : Nat} {x : Stop} (hs : s.stopStep i x = some t) :
    t.worker.endings = s.worker.endings := by
  obtain ⟨own, since, phase⟩ := x
  cases phase with
  | entering | takingTask | takingScheduler | joining _ =>
    simp only [stopStep] at hs
    split at hs <;> cases hs <;> rfl
  | raising task => cases hs; exact s.worker.endings_raiseFlag task
  | waking => cases hs; exact s.worker.endings_send .wake
  | telling sch again => cases hs; exact s.worker.endings_send .shutDown
  | quieting | unpinning _ _ => cases hs; rfl
  | done | refused _ => cases hs

theorem Doomed.mainStep (hd : s.Doomed) (h : Sound base s) {alarm : Bool}
    (hs : s.mainStep behave alarm = some t) : t.Doomed := by
  unfold Scene.mainStep at hs
  have failed {task : Nat} (hm : s.main.awaited? = some task) : s.worker.Failed task := by
    rcases hd with herr | ⟨task', htask, hf⟩
    · rw [Main.error?_of_awaited hm] at herr
      cases herr
    · rw [hm] at htask
      cases htask
      exact hf
  have stays {task : Nat} {w : Worker} {m : Main σ} (hm : s.main.awaited? = some task)
      (hm' : m.awaited? = some task) (hw : w.endings = s.worker.endings) :
      Doomed { s with worker := w, main := m } := by
    obtain ⟨e, he⟩ := failed hm
    exact .inr ⟨task, hm', e, by rw [hw]; exact he⟩
  cases hm : s.main <;> rw [hm] at hs stays <;> dsimp only at hs
  case awaiting task =>
    obtain ⟨e, v, hrec⟩ := (failed (by rw [hm]; rfl)).receive (h.serves_at hm)
    simp only [awaitStep, hrec] at hs
    cases hs
    exact .inl rfl
  case polling task =>
    cases hs
    split
    · exact stays rfl rfl rfl
    · exact stays rfl rfl rfl
  case cancelling task =>
    cases hs
    have hflag := s.worker.endings_raiseFlag task
    split
    · exact stays rfl rfl hflag
    · exact stays rfl rfl hflag
  case waking task =>
    cases hs
    exact stays rfl rfl (s.worker.endings_send .wake)
  case clearing e =>
    cases e with
    | none => rcases hd with herr | ⟨_, ha, -⟩ <;> simp [hm, Main.error?, Main.awaited?] at *
    | some e =>
      cases hs
      exact .inl rfl
  case closing e =>
    cases hs
    cases e with
    | none => rcases hd with herr | ⟨_, ha, -⟩ <;> simp [hm, Main.error?, Main.awaited?] at *
    | some e => exact .inl rfl
  case leaving i e =>
    split at hs <;> cases hs
    cases e with
    | none => rcases hd with herr | ⟨_, ha, -⟩ <;> simp [hm, Main.error?, Main.awaited?] at *
    | some e => exact .inl rfl
  case finished ending => cases hs
  all_goals rcases hd with herr | ⟨_, ha, -⟩ <;> simp [hm, Main.error?, Main.awaited?] at *

theorem Doomed.step (hd : s.Doomed) (h : Sound base s) {a : Act} (hs : s.step behave a = some t) :
    t.Doomed := by
  cases a with
  | main alarm => exact hd.mainStep h hs
  | worker due =>
    simp only [Scene.step, workerStep] at hs
    split at hs
    · rename_i i hp
      exact absurd hp (hd.not_running h i)
    · obtain ⟨w, hw, rfl⟩ := Option.map_eq_some_iff.mp hs
      have hfree : s.worker.Free := by
        cases ha : s.main.awaited? with
        | none => exact h.free ha
        | some task =>
          rcases hd with herr | ⟨task', htask, hf⟩
          · rw [Main.error?_of_awaited ha] at herr
            cases herr
          · have hserves := h.serves
            rw [htask] at hserves
            exact hf.free hserves
      exact hd.of_eq rfl (hfree.endings_step? hw)
  | stop i =>
    obtain ⟨x, -, hs⟩ := Option.bind_eq_some_iff.mp hs
    exact hd.of_eq (Sound.stopStep_aside hs).main (stopStep_endings hs)
  | issue =>
    cases hs
    exact hd.of_eq rfl rfl
  | call c =>
    simp only [Scene.step] at hs
    split at hs <;> cases hs
    exact hd.of_eq rfl rfl

/-! ## The time of a tick -/

end Scene

/-- A tick that was lent its interval has room for it. -/
def Dispatch.Roomy {σ : Type} (stop : Int) : Dispatch σ → Prop
  | .knocking => True
  | _ => stop ≤ Signed.greatest

namespace Scene

variable {σ : Type} {behave : Behaviour σ} {base : RealTimeClock} {s t : Scene σ}

/-- What one step of a tick does to the time. -/
def Lasts (s t : Scene σ) : Dispatch σ ⊕ Except ClockError TickEnd → Prop
  | .inl d => t.clock.time = s.clock.time ∧ d.Roomy (s.clock.time + s.clock.tickLength)
  | .inr (.error _) => t.clock.time = s.clock.time
  | .inr (.ok _) =>
    t.clock.time = s.clock.time + s.clock.tickLength ∧ t.clock.time ≤ Signed.greatest

theorem dispatchStep_lasts (thread : Thread) {d : Dispatch σ}
    (hbegun : s.clock.pacing.stage.isInitial = false) (hL : 0 < s.clock.tickLength)
    (ht : 0 ≤ s.clock.time) (hd : d.Fits s.clock)
    (hroom : d.Roomy (s.clock.time + s.clock.tickLength))
    {r : Dispatch σ ⊕ Except ClockError TickEnd}
    (hs : s.dispatchStep behave thread d = some (t, r)) : Lasts s t r := by
  cases d with
  | knocking =>
    have hlend := Clock.lend_eq hd hL ht
    by_cases hf : Signed.Fits (s.clock.time + s.clock.tickLength)
    · rw [if_pos hf] at hlend
      simp only [dispatchStep, hlend] at hs
      cases hs
      exact ⟨rfl, hf.2⟩
    · rw [if_neg hf] at hlend
      simp only [dispatchStep, hlend] at hs
      cases hs
      exact rfl
  | calling r =>
    simp only [dispatchStep] at hs
    split at hs <;> cases hs <;> exact ⟨rfl, hroom⟩
  | inside r x b p =>
    cases p with
    | finish world verdict =>
      simp only [dispatchStep] at hs
      split at hs <;> cases hs
      · exact ⟨rfl, hroom⟩
      · exact rfl
    | ask call next =>
      simp only [dispatchStep] at hs
      split at hs <;> cases hs
      · exact ⟨rfl, hroom⟩
      · rename_i hc
        exact ⟨(RealTimeClock.reply_light r.phase hbegun hd.2.2.1 hc).2.2.1, hroom⟩
  | waiting r x b i next =>
    simp only [dispatchStep] at hs
    split at hs <;> cases hs <;> exact ⟨rfl, hroom⟩
  | settling =>
    cases hs
    have htime := s.clock.advance_moved.time
    exact ⟨htime, htime ▸ hroom⟩

/-- A step of the thread that starts the clock, apart from its ticks. -/
theorem mainStep_between (hm : ∀ d, s.main ≠ .ticking d) {alarm : Bool}
    (hs : s.mainStep behave alarm = some t) :
    t.clock.time = s.clock.time ∧ t.duty = s.duty ∧
      (t.main.ticksOn = false ∨ t.main = .ticking .knocking) := by
  unfold Scene.mainStep at hs
  cases hmain : s.main <;> rw [hmain] at hs <;> dsimp only at hs
  case outside =>
    split at hs <;> cases hs
    · exact ⟨rfl, rfl, .inl rfl⟩
    · rename_i c hl
      obtain ⟨pacing, hc⟩ := RealTimeClock.launch_eq hl
      refine ⟨?_, Sound.filled_duty s c, .inl rfl⟩
      change (s.filled c).clock.time = _
      rw [filled_clock, hc]
      unfold Clock.beginTicking
      split <;> rfl
  case scheduling =>
    cases hs
    unfold scheduleStep
    split
    · rcases RealTimeClock.schedule_cases s.clock with ⟨sch, pins, he⟩ | ⟨f, he, -⟩ <;>
        rw [he] <;> dsimp only
      · split <;> exact ⟨by dsimp only; rw [filled_clock], Sound.filled_duty s _, .inl rfl⟩
      · exact ⟨rfl, rfl, .inl rfl⟩
    · exact ⟨rfl, rfl, .inl rfl⟩
  case awaiting task =>
    unfold awaitStep at hs
    split at hs
    · cases hs; exact ⟨rfl, rfl, .inl rfl⟩
    · cases hs; exact ⟨rfl, rfl, .inl rfl⟩
    · cases hs; exact ⟨rfl, rfl, .inl rfl⟩
    · split at hs <;> cases hs; exact ⟨rfl, rfl, .inl rfl⟩
  case wishing =>
    split at hs <;> cases hs
    · exact ⟨rfl, rfl, .inl rfl⟩
    · exact ⟨rfl, rfl, .inr rfl⟩
  case ticking d => exact absurd hmain (hm d)
  case applying =>
    obtain ⟨c, hc, hg⟩ := RealTimeClock.applyPending_ok s.clock
    rw [hc] at hs
    cases hs
    exact ⟨hg.time, rfl, .inl rfl⟩
  case closing e =>
    cases hs
    refine ⟨?_, rfl, .inl rfl⟩
    change s.clock.close.time = _
    unfold RealTimeClock.close
    split <;> rfl
  case clearing e => cases e <;> cases hs <;> exact ⟨rfl, rfl, .inl rfl⟩
  case choosing => split at hs <;> cases hs <;> exact ⟨rfl, rfl, .inl rfl⟩
  case leaving i e => split at hs <;> cases hs; exact ⟨rfl, rfl, .inl rfl⟩
  case finished ending => cases hs
  case looking | polling | cancelling | free =>
    cases hs
    split <;> exact ⟨rfl, rfl, .inl rfl⟩
  case waking task => cases hs; exact ⟨rfl, rfl, .inl rfl⟩
  case lost => cases hs; exact ⟨rfl, rfl, .inl rfl⟩

/-! ## The number of ticks -/

/-- A tick has begun for which the time has not moved on, and will not or not yet. -/
def Spending (s : Scene σ) : Prop := s.Doomed ∨ ∃ d, s.duty = .ticking d

/-- The time that the real-time ticks have taken up, where a tick is `L` long. -/
structure Hours (L : Int) (l : List Mark) (s : Scene σ) : Prop where
  time : s.clock.time ≤ Signed.greatest
  main : ∀ d, s.main = .ticking d → d.Roomy (s.clock.time + L)
  duty : ∀ d, s.duty = .ticking d → d.Roomy (s.clock.time + L)
  past : l.count .tick * L ≤ s.clock.time ∨
    s.Spending ∧ l.count .tick * L ≤ s.clock.time + L

/-- The thread that starts the clock begins no real-time tick. -/
theorem mark?_main (s : Scene σ) (alarm : Bool) (t : Scene σ) :
    s.mark? (.main alarm) t ≠ some .tick := by
  unfold mark?
  dsimp only
  split
  · split <;> simp
  · split <;> simp
  · simp

namespace Hours

variable {L : Int} {l : List Mark}

/-- A step that leaves the time where it is and marks no tick. -/
theorem stay (h : Hours L l s) {m : Option Mark} (hmark : m ≠ some .tick)
    (ht : t.clock.time = s.clock.time)
    (hm : ∀ d, t.main = .ticking d → d.Roomy (s.clock.time + L))
    (hd : ∀ d, t.duty = .ticking d → d.Roomy (s.clock.time + L))
    (hspend : s.Spending → t.Spending) : Hours L (l ++ m.toList) t := by
  have hcount : (l ++ m.toList).count .tick = l.count .tick := by
    cases m with
    | none => simp
    | some m => cases m <;> simp at hmark ⊢
  refine ⟨ht ▸ h.time, ht ▸ hm, ht ▸ hd, ?_⟩
  rw [hcount, ht]
  exact h.past.imp id (And.imp_left hspend)

/-- A step of a simulated tick. The time moves on, and no real-time tick is under way. -/
theorem tickStep (h : Hours base.tickLength l s) (hsound : Sound base s) (hb : behave.Public)
    (hpos : 0 < base.tickLength) {d : Dispatch σ} (hm : s.main = .ticking d) {alarm : Bool}
    (hs : s.mainStep behave alarm = some t) : Hours base.tickLength l t := by
  have hlen := hsound.traced.tickLength
  have hduty : s.duty = .glancing := hsound.no_duty (by rw [hm]; rfl)
  have hpast : l.count .tick * base.tickLength ≤ s.clock.time := by
    rcases h.past with hp | ⟨(herr | ⟨_, ha, -⟩) | ⟨d', hd'⟩, -⟩
    · exact hp
    · rw [hm] at herr; cases herr
    · rw [hm] at ha; cases ha
    · rw [hduty] at hd'; cases hd'
  have hbegun := hsound.owned.of_inRun (by rw [hm]; rfl)
  have hfit := hsound.traced.fits hm
  unfold Scene.mainStep at hs
  rw [hm] at hs
  dsimp only at hs
  rcases hstep : s.dispatchStep behave .caller d with _ | ⟨u, r⟩ <;> rw [hstep] at hs
  · cases hs
  have hlasts := dispatchStep_lasts .caller hbegun (hlen ▸ hpos) hsound.traced.time hfit
    (hlen ▸ h.main d hm) hstep
  obtain ⟨hticks, -⟩ :=
    dispatchStep_comes hb .caller hbegun (hlen ▸ hpos) hsound.traced.time hfit hstep
  have hquiet := Duty.ne_ticking (x := u.duty) (by rw [hticks.duty, hduty]; rfl)
  rcases r with d' | e | o | o <;> cases hs
  · refine ⟨hlasts.1 ▸ h.time, ?_, fun x hx => absurd hx (hquiet x), .inl (hlasts.1 ▸ hpast)⟩
    intro x hx
    cases hx
    rw [hlasts.1, ← hlen]
    exact hlasts.2
  · exact ⟨hlasts ▸ h.time, fun _ hd => (by cases hd), fun x hx => absurd hx (hquiet x),
      .inl (hlasts ▸ hpast)⟩
  all_goals
    refine ⟨hlasts.2, fun _ hd => (by cases hd), fun x hx => absurd hx (hquiet x), .inl ?_⟩
    rw [hlasts.1, hlen]
    omega

theorem mainStep (h : Hours base.tickLength l s) (hsound : Sound base s) (hb : behave.Public)
    (hpos : 0 < base.tickLength) {alarm : Bool} (hs : s.mainStep behave alarm = some t) :
    Hours base.tickLength (l ++ (s.mark? (.main alarm) t).toList) t := by
  by_cases hticks : ∃ d, s.main = .ticking d
  · obtain ⟨d, hm⟩ := hticks
    have hmark : (s.mark? (.main alarm) t).toList = [] := by simp only [mark?, hm]; rfl
    rw [hmark, List.append_nil]
    exact h.tickStep hsound hb hpos hm hs
  · have hno : ∀ d, s.main ≠ .ticking d := fun d hd => hticks ⟨d, hd⟩
    obtain ⟨htime, hduty, hmain⟩ := mainStep_between hno hs
    refine h.stay (mark?_main s alarm t) htime ?_ (hduty ▸ h.duty) ?_
    · intro d hd
      rw [hd] at hmain
      rcases hmain with hm | hm <;> cases hm
      exact trivial
    · rintro (hdoom | ⟨d, hd⟩)
      · exact .inl (hdoom.mainStep hsound hs)
      · exact .inr ⟨d, hduty ▸ hd⟩

/-- While the run of a task dispatches no tick, the time has moved on for every tick that began. -/
theorem past_of_running (h : Hours base.tickLength l s) (hsound : Sound base s) {task : Nat}
    (hp : s.worker.phase = .running task) (hd : ∀ d, s.duty ≠ .ticking d) :
    l.count .tick * base.tickLength ≤ s.clock.time := by
  rcases h.past with hp | ⟨hdoom | ⟨d, hduty⟩, -⟩
  · exact hp
  · exact absurd hp (hdoom.not_running hsound task)
  · exact absurd hduty (hd d)

/-- A tick begins. The time moves on when it is over. -/
theorem beginTick (h : Hours base.tickLength l s) (hno : ∀ d, s.main ≠ .ticking d)
    (hpast : l.count .tick * base.tickLength ≤ s.clock.time) :
    Hours base.tickLength (l ++ [.tick])
      { s with clock := s.clock.stamp, duty := .ticking .knocking } := by
  refine ⟨h.time, fun d hd => absurd hd (hno d), ?_, .inr ⟨.inr ⟨_, rfl⟩, ?_⟩⟩
  · intro d hd
    cases hd
    exact trivial
  · have htime : s.clock.stamp.time = s.clock.time := rfl
    rw [List.count_append, List.count_singleton_self, Int.natCast_succ, Int.add_mul,
      Int.one_mul, htime]
    omega

/-- A step of a tick on the scheduler thread. If the tick fails, so will the run. -/
theorem dutyTick (h : Hours base.tickLength l s) (hsound : Sound base s) (hb : behave.Public)
    (hpos : 0 < base.tickLength) {task : Nat} (hp : s.worker.phase = .running task)
    {d : Dispatch σ} (hduty : s.duty = .ticking d) (hs : s.dutyStep behave task = some t) :
    Hours base.tickLength l t := by
  have hlen := hsound.traced.tickLength
  have hm := hsound.running_awaited hp
  have hbegun := hsound.owned.of_inRun (Sound.inRun_of_awaited hm)
  have hfit := hsound.traced.duty d hduty
  have hle : l.count .tick * base.tickLength ≤ s.clock.time + base.tickLength := by
    rcases h.past with hp | ⟨-, hp⟩ <;> omega
  unfold Scene.dutyStep at hs
  rw [hduty] at hs
  dsimp only at hs
  rcases hstep : s.dispatchStep behave .scheduler d with _ | ⟨u, r⟩ <;> rw [hstep] at hs
  · cases hs
  have hlasts := dispatchStep_lasts .scheduler hbegun (hlen ▸ hpos) hsound.traced.time hfit
    (hlen ▸ h.duty d hduty) hstep
  have hticks :=
    (dispatchStep_comes hb .scheduler hbegun (hlen ▸ hpos) hsound.traced.time hfit hstep).1
  have hno : ∀ x, u.main ≠ .ticking x :=
    fun x hx => Sound.no_tick_of_awaited hm x (hticks.main ▸ hx)
  rcases r with d' | e | o | o <;> cases hs
  · refine ⟨hlasts.1 ▸ h.time, fun x hx => absurd hx (hno x), ?_,
      .inr ⟨.inr ⟨d', rfl⟩, hlasts.1 ▸ hle⟩⟩
    intro x hx
    cases hx
    rw [hlasts.1, ← hlen]
    exact hlasts.2
  · have howes : u.worker.Owes task := by
      have hserves := hsound.serves
      rw [hm] at hserves
      rw [hticks.worker]
      exact hserves
    have hdoomed : (u.heed task (.failed e)).Doomed :=
      .inr ⟨task, (congrArg Main.awaited? hticks.main).trans hm,
        howes.failed_heed (hticks.worker ▸ hp) e⟩
    exact ⟨hlasts ▸ h.time, fun x hx => absurd hx (hno x), (fun _ hd => by cases hd),
      .inr ⟨.inl hdoomed, hlasts ▸ hle⟩⟩
  all_goals
    refine ⟨hlasts.2, fun x hx => absurd hx (hno x), (fun _ hd => by cases hd), .inl ?_⟩
    exact (hlasts.1.trans (by rw [hlen])) ▸ hle

theorem dutyStep (h : Hours base.tickLength l s) (hsound : Sound base s) (hb : behave.Public)
    (hpos : 0 < base.tickLength) {task : Nat} (hp : s.worker.phase = .running task) {due : Bool}
    (hs : s.dutyStep behave task = some t) :
    Hours base.tickLength (l ++ (s.mark? (.worker due) t).toList) t := by
  have hno := Sound.no_tick_of_awaited (hsound.running_awaited hp)
  -- a duty that begins no tick and is in none either
  have hrest {u : Scene σ} (htime : u.clock.time = s.clock.time) (hmain : u.main = s.main)
      (hduty : ∀ d, u.duty ≠ .ticking d) (hmark : s.mark? (.worker due) u = none)
      (hpast : l.count .tick * base.tickLength ≤ s.clock.time) :
      Hours base.tickLength (l ++ (s.mark? (.worker due) u).toList) u := by
    rw [hmark, Option.toList_none, List.append_nil]
    exact ⟨htime ▸ h.time, fun d hd => absurd (hmain ▸ hd) (hno d),
      fun d hd => absurd hd (hduty d), .inl (htime ▸ hpast)⟩
  cases hduty : s.duty with
  | ticking d =>
    have hmark : s.mark? (.worker due) t = none := by simp only [mark?, hduty]
    rw [hmark, Option.toList_none, List.append_nil]
    exact h.dutyTick hsound hb hpos hp hduty hs
  | glancing =>
    have hpast := h.past_of_running hsound hp (Duty.ne_ticking (by rw [hduty]; rfl))
    simp only [Scene.dutyStep, hduty] at hs
    split at hs <;> cases hs
    · simp only [mark?, hduty, Option.toList_some]
      exact h.beginTick hno hpast
    · exact hrest rfl rfl (Duty.ne_ticking rfl) (by simp only [mark?, hduty, heed]) hpast
  | checking | minding =>
    have hpast := h.past_of_running hsound hp (Duty.ne_ticking (by rw [hduty]; rfl))
    simp only [Scene.dutyStep, hduty] at hs
    split at hs <;> cases hs <;>
      exact hrest rfl rfl (Duty.ne_ticking rfl) (by simp only [mark?, hduty]) hpast

/-- The ticks take up the time, whoever takes the next step. -/
theorem step (h : Hours base.tickLength l s) (hsound : Sound base s) (hb : behave.Public)
    (hpos : 0 < base.tickLength) {a : Act} (hs : s.step behave a = some t) :
    Hours base.tickLength (l ++ (s.mark? a t).toList) t := by
  have aside (hmark : s.mark? a t ≠ some .tick) (ht : t.clock.time = s.clock.time)
      (hm : t.main = s.main) (hd : t.duty = s.duty) :
      Hours base.tickLength (l ++ (s.mark? a t).toList) t :=
    h.stay hmark ht (hm ▸ h.main) (hd ▸ h.duty) fun hsp =>
      hsp.imp (fun hdoom => hdoom.step hsound hs) (Exists.imp fun _ hduty => hd ▸ hduty)
  cases a with
  | main alarm => exact h.mainStep hsound hb hpos hs
  | worker due =>
    simp only [Scene.step, workerStep] at hs
    split at hs
    · rename_i task hp
      exact h.dutyStep hsound hb hpos hp hs
    · obtain ⟨w, -, rfl⟩ := Option.map_eq_some_iff.mp hs
      refine aside ?_ rfl rfl rfl
      cases hd : s.duty <;> simp only [mark?, hd] <;> simp
  | stop i =>
    obtain ⟨x, -, hx⟩ := Option.bind_eq_some_iff.mp hs
    have hside := Sound.stopStep_aside hx
    exact aside (by simp [mark?]) hside.calm.time hside.main hside.duty
  | issue =>
    cases hs
    exact aside (by simp [mark?]) rfl rfl rfl
  | call c =>
    simp only [Scene.step] at hs
    split at hs <;> cases hs
    rename_i hc
    exact aside (by simp [mark?]) (RealTimeClock.serve_light hc.1 hc.2.1 hc.2.2).2.time rfl rfl

/-- No run has so many ticks that a counter of them would go round. -/
theorem count_lt (h : Hours L l s) (hL : 0 < L) : l.count .tick < Unsigned.greatest := by
  have hle : l.count .tick * L ≤ s.clock.time + L := by
    rcases h.past with hp | ⟨-, hp⟩ <;> omega
  have htime := h.time
  unfold Signed.greatest at htime
  unfold Unsigned.greatest
  cases hn : l.count .tick with
  | zero => omega
  | succ n =>
    rw [hn, Int.natCast_succ, Int.add_mul, Int.one_mul] at hle
    have hone : (n : Int) * 1 ≤ n * L := Int.mul_le_mul_of_nonneg_left hL (Int.natCast_nonneg n)
    omega

theorem opening (c : RealTimeClock) (h : c.Rested) (world : σ) :
    Hours L [] (Scene.opening c world) where
  time := by
    rw [Scene.opening, h.time]
    decide
  main _ hd := by cases hd
  duty _ hd := by cases hd
  past := .inl (by simp [Scene.opening, h.time])

end Hours

end Scene

end Metronome
