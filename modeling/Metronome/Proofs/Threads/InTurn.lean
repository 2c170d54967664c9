-- A run in which the threads act in turn, leg by leg. The thread that starts
-- the clock and the scheduler thread wait for each other, and what comes of
-- it is what comes of the run of the clock in one go.
import Metronome.Proofs.Threads.Alone

namespace Metronome

/-! ## A task that nobody has cancelled -/

theorem Worker.Fresh.goOn {w : Worker} {task : Nat} (h : w.Fresh task) :
    ((w.changeTask task fun t => { t with runs := t.runs + 1 }).heed task .goOn).Fresh task := by
  obtain ⟨t, ht, hout, hrec⟩ := h
  refine ⟨{ t with runs := t.runs + 1 }, ?_, hout, hrec⟩
  simp [Worker.heed, Report.outcome?, getElem?_changeTask, ht]

theorem Worker.isCancelled_goOn (w : Worker) (task : Nat) :
    ((w.changeTask task fun t => { t with runs := t.runs + 1 }).heed task .goOn).isCancelled task =
      w.isCancelled task := by
  simp only [isCancelled, heed, Report.outcome?, getElem?_changeTask, if_true]
  cases w.tasks[task]? <;> rfl

/-- A task whose last run reports its end is received once. -/
theorem Worker.Fresh.heed {w : Worker} {task : Nat} (h : w.Fresh task) {r : Worker.Report}
    {o : Worker.Outcome} (ho : r.outcome? = some o) :
    ∃ v, ((w.changeTask task fun t => { t with runs := t.runs + 1 }).heed task r).receive task =
        (v, .outcome o) ∧ v.phase = .idle ∧ v.queue = w.queue := by
  obtain ⟨t, ht, hout, hrec⟩ := h
  have hrun : (w.changeTask task fun t => { t with runs := t.runs + 1 }).tasks[task]? =
      some { t with runs := t.runs + 1 } := by
    rw [getElem?_changeTask, ht]
    simp
  unfold Worker.heed
  rw [ho]
  dsimp only
  generalize hv : (w.changeTask task fun t => { t with runs := t.runs + 1 }) = u at hrun
  have hq : u.queue = w.queue := by
    rw [← hv]
    rfl
  obtain ⟨t', ht', hout', hrec', hq'⟩ :
      ∃ t', (if r = .cancel then u.flag task else u).tasks[task]? = some t' ∧
      t'.outcomes = [] ∧ t'.received = 0 ∧
      (if r = .cancel then u.flag task else u).queue = u.queue := by
    split
    · refine ⟨{ t with runs := t.runs + 1, cancelled := true }, ?_, hout, hrec, rfl⟩
      unfold flag Worker.raiseFlag
      rw [getElem?_changeTask, hrun]
      simp
    · exact ⟨_, hrun, hout, hrec, rfl⟩
  generalize (if r = .cancel then u.flag task else u) = x at ht' hq'
  have hlast : ({ x.report task o with phase := .idle }).tasks[task]? =
      some { t' with outcomes := t'.outcomes ++ [o] } := by
    unfold report
    simp only [getElem?_changeTask, ht']
    simp
  unfold receive
  rw [hlast]
  simp only [hout', hrec', List.nil_append, List.getElem?_cons_zero]
  exact ⟨_, rfl, rfl, hq'.trans hq⟩

namespace RealTimeClock

variable {σ : Type} {behave : Behaviour σ} {c : RealTimeClock}

/-- A clock in a real-time leg. As long as it ticks, it has its scheduler thread, and nobody told
the task to end. -/
structure Tended (c : RealTimeClock) : Prop where
  begun : c.pacing.stage.isInitial = false
  held : c.ticking = true → c.pacing.cancelled = false ∧ c.pacing.scheduler ≠ none

theorem Tended.keeps : Service.Keeps serve (fun call => call.isPublic = true) Tended where
  budget _ _ h := ⟨h.begun, h.held⟩
  call c call hp h := by
    rcases serve_cases hp h.begun with ⟨-, he⟩ | hs
    · rw [he]
      exact ⟨rfl, fun ht => by cases ht⟩
    · refine ⟨by rw [hs.stage]; exact h.begun, ?_⟩
      intro ht
      rw [hs.cancelled, hs.scheduler]
      exact h.held (hs.ticking ▸ ht)

theorem Tended.tick (h : Tended c) (hb : behave.Public) (thread : Thread) (world : σ)
    (l : Chronicle) : Tended (chronicled behave thread (c, (world, l))).1.1 := by
  unfold chronicled Clock.chronicled
  dsimp only
  rcases Clock.tick_cases Tended.keeps (Behaviour.noted_asks hb) thread
    (world, l ++ [Happening.asked c.time]) (c := c) (fun lent hl => by
      obtain ⟨budget, rfl⟩ := Clock.lend_ok hl
      exact ⟨h.begun, h.held⟩) with ⟨e, -, he⟩ | ⟨lent, d, world', e, -, hd, he⟩ |
      ⟨lent, d, world', hl, hd, he⟩
  · rw [he]
    exact h
  · rw [he]
    exact ⟨hd.begun, hd.held⟩
  · rw [he]
    unfold Clock.advance
    dsimp only
    split
    · exact ⟨hd.begun, fun ht => by cases ht⟩
    · exact ⟨hd.begun, hd.held⟩

end RealTimeClock

namespace Scene

variable {σ : Type} {behave : Behaviour σ} {base : RealTimeClock} {s t : Scene σ}

/-! ## Between two steps -/

/-- Where the threads stand between two steps of a run. -/
def Between (s : Scene σ) : RealTimeClock.Leg → Prop
  | .choosing => s.main = .looking ∧ s.Spare
  | .simulated => s.main = .free ∧ s.Spare
  | .realTime => s.duty = .glancing ∧ s.clock.ticking = true ∧ s.clock.Tended ∧
      ∃ task, s.Busy task ∧ s.worker.phase = .resting task

/-- Where they stand after a step of a leg. -/
def Stood (s : Scene σ) (leg : RealTimeClock.Leg) : RealTimeClock.Progress → Prop
  | .more => s.Between leg
  | .finished => s.main = .applying ∧ s.Spare
  | .failed e => s.main = .closing (some e) ∧ s.Spare

/-- Where they stand when the run has come to its end. -/
def Leaves (s : Scene σ) : RealTimeClock.Ending → Prop
  | .fine => s.main = .closing none ∧ s.Spare
  | .failed e => s.main = .closing (some e) ∧ s.Spare
  | .broken f => s.main = .finished (.broken f) ∧ s.Spare

/-- The spare thread does not look at what the other one is about to do. -/
theorem Spare.moved (h : s.Spare) {m : Main σ} : Spare { s with main := m } :=
  ⟨h.duty, h.active, h.worker, h.stops⟩

/-! ## A step of a leg -/

/-- The last run of the task is over, and the thread that awaits it hears of it. -/
theorem leads_heed (behave : Behaviour σ) {task : Nat} (h : s.Busy task) {r : Worker.Report}
    {o : Worker.Outcome} (ho : r.outcome? = some o) :
    ∃ t, Leads behave (s.heed task r) t ∧ t.Stood .realTime (match o with
        | .failed e => .failed e
        | _ => .finished) ∧ t.clock = s.clock ∧ t.world = s.world ∧ t.told = s.told := by
  obtain ⟨v, hrec, hp, hq⟩ := h.fresh.heed ho
  have hspare {m : Main σ} : Spare { s.heed task r with worker := v, active := none, main := m } :=
    ⟨rfl, rfl, fun hn => ⟨hp, hq.trans (h.alone hn).1⟩, h.stops⟩
  have hmain : (s.heed task r).main = .awaiting task := h.main
  cases o with
  | failed e =>
    have hheard : Leads behave (s.heed task r)
        { s.heed task r with worker := v, main := .clearing (some e) } := by
      apply Leads.step (a := .main false) rfl
      simp only [step, mainStep, hmain, awaitStep]
      dsimp only [heed] at hrec ⊢
      rw [hrec]
    exact ⟨_, hheard.trans (Leads.step (a := .main false) rfl rfl), ⟨rfl, hspare⟩, rfl, rfl, rfl⟩
  | _ =>
    have hheard : Leads behave (s.heed task r)
        { s.heed task r with worker := v, main := .clearing none } := by
      apply Leads.step (a := .main false) rfl
      simp only [step, mainStep, hmain, awaitStep]
      dsimp only [heed] at hrec ⊢
      rw [hrec]
    exact ⟨_, hheard.trans (Leads.step (a := .main false) rfl rfl), ⟨rfl, hspare⟩, rfl, rfl, rfl⟩

/-- The task goes on, and rests until its next run is due. -/
theorem leads_goOn (behave : Behaviour σ) {task : Nat} (h : s.Busy task)
    (hticks : s.clock.ticking = true) (ht : s.clock.Tended) :
    ∃ t, Leads behave (s.heed task .goOn) t ∧ t.Stood .realTime .more ∧ t.clock = s.clock ∧
      t.world = s.world ∧ t.told = s.told := by
  obtain ⟨-, hsch⟩ := ht.held hticks
  obtain ⟨hq, hflag, ha⟩ := h.alone hsch
  have hflag' := (s.worker.isCancelled_goOn task).trans hflag
  have hfresh := h.fresh.goOn
  generalize hw :
    (s.worker.changeTask task fun t => { t with runs := t.runs + 1 }).heed task .goOn = w
    at hflag' hfresh
  have hp : w.phase = .checking task := by rw [← hw]; rfl
  have hq' : w.queue = [] := by rw [← hw]; exact hq
  have hheed : s.heed task .goOn = { s with duty := .glancing, worker := w } := by
    unfold heed
    rw [hw]
  rw [hheed]
  refine ⟨{ s with duty := .glancing, worker := { w with phase := .resting task } },
    Leads.step (a := .worker true) rfl ?_, ?_, rfl, rfl, rfl⟩
  · simp [step, workerStep, hp, Worker.step?, hflag']
  · exact ⟨rfl, hticks, ht, task, ⟨h.main, hfresh, fun _ => ⟨hq', hflag', ha⟩, h.stops⟩, rfl⟩

/-- What the scheduler thread does with the result of a tick. -/
def ticked (s : Scene σ) (task : Nat) : Except ClockError TickEnd → Scene σ
  | .error e => s.heed task (.failed e)
  | .ok .interrupted => s.heed task .complete
  | .ok .completed => { s with duty := .checking }

theorem leads_ticked {task : Nat} (h : s.Rests task .scheduler) {d : Dispatch σ}
    {r : Except ClockError TickEnd}
    (hs : s.dispatchStep behave .scheduler d = some (t, .inr r)) :
    Leads behave (s.ticksAt .scheduler d) (t.ticked task r) := by
  have hstep := dispatchStep_ticksAt behave s .scheduler .scheduler d d
  rw [hs] at hstep
  apply Leads.step (a := .worker true) rfl
  have hp := h.2
  simp only [ticksAt] at hstep ⊢
  simp only [step, workerStep, hp, Scene.dutyStep, hstep, Option.map_some]
  rcases r with e | o | o <;> rfl

/-- A run of the task, and what the clock makes of it in one go. -/
theorem leads_scheduledStep (hb : behave.Public) (h : s.Between .realTime) {d : RealTimeClock}
    {world : σ} {told : Chronicle} {p : RealTimeClock.Progress}
    (hstep : RealTimeClock.scheduledStep (RealTimeClock.chronicled behave)
      (s.clock, (s.world, s.told)) = ((d, (world, told)), p)) :
    ∃ t, Leads behave s t ∧ t.Stood .realTime p ∧ t.clock = d ∧ t.world = world ∧
      t.told = told := by
  obtain ⟨hduty, hticks, htended, task, hbusy, hp⟩ := h
  obtain ⟨hcanc, hsch⟩ := htended.held hticks
  obtain ⟨hq, hflag, ha⟩ := hbusy.alone hsch
  unfold RealTimeClock.scheduledStep at hstep
  rw [if_neg (by rw [hcanc, hticks]; simp)] at hstep
  -- the run begins with a stamp
  have hrun : Leads behave s { s with worker := { s.worker with phase := .running task } } := by
    apply Leads.step (a := .worker true) rfl
    simp [step, workerStep, hp, Worker.step?, hq]
  have hstamp : Leads behave { s with worker := { s.worker with phase := .running task } }
      ({ s with
        clock := s.clock.stamp
        worker := { s.worker with phase := .running task } }.ticksAt .scheduler .knocking) := by
    apply Leads.step (a := .worker true) rfl
    simp [step, workerStep, Scene.dutyStep, hduty, hticks, ticksAt]
  have hrests : Rests { s with
      clock := s.clock.stamp
      worker := { s.worker with phase := .running task } } task .scheduler :=
    ⟨⟨hbusy.main, hbusy.fresh, hbusy.alone, hbusy.stops⟩, rfl⟩
  have htended' := RealTimeClock.Tended.tick (c := s.clock.stamp) ⟨htended.begun, htended.held⟩ hb
    .scheduler s.world s.told
  rcases hdisp : RealTimeClock.chronicled behave .scheduler (s.clock.stamp, (s.world, s.told))
    with ⟨⟨c, world', told'⟩, r⟩
  rw [hdisp] at hstep htended'
  obtain ⟨t, u, e, hlead, htr, hlast, ⟨hbusy', hp'⟩, rfl, rfl, rfl⟩ :=
    settles_tick hb hrests htended.begun hdisp
  have hend : Leads behave s (u.ticked task r) :=
    ((hrun.trans hstamp).trans hlead).trans (leads_ticked htr hlast)
  rcases r with e | o | o
  · cases hstep
    obtain ⟨v, hv, hrest⟩ := leads_heed behave hbusy' (r := .failed e) rfl
    exact ⟨v, hend.trans hv, hrest⟩
  · dsimp only at hstep
    by_cases hticks' : u.clock.ticking = true
    · have hmind : Leads behave { u with duty := .checking } { u with duty := .minding } := by
        apply Leads.step (a := .worker true) rfl
        simp [step, workerStep, hp', Scene.dutyStep, hticks']
      by_cases hwish : u.clock.pacing.pending = .toSimulated
      · rw [if_neg (by simp [hwish])] at hstep
        cases hstep
        have hheed : Leads behave { u with duty := .minding } (u.heed task .cancel) := by
          apply Leads.step (a := .worker true) rfl
          simp [step, workerStep, hp', Scene.dutyStep, hwish, heed]
        obtain ⟨v, hv, hrest⟩ := leads_heed behave hbusy' (r := .cancel) rfl
        exact ⟨v, ((hend.trans hmind).trans hheed).trans hv, hrest⟩
      · rw [if_pos ⟨hticks', hwish⟩] at hstep
        cases hstep
        have hheed : Leads behave { u with duty := .minding } (u.heed task .goOn) := by
          apply Leads.step (a := .worker true) rfl
          simp [step, workerStep, hp', Scene.dutyStep, hwish, heed]
        obtain ⟨v, hv, hrest⟩ := leads_goOn behave hbusy' hticks' htended'
        exact ⟨v, ((hend.trans hmind).trans hheed).trans hv, hrest⟩
    · rw [if_neg (fun hn => hticks' hn.1)] at hstep
      cases hstep
      have hheed : Leads behave { u with duty := .checking } (u.heed task .complete) := by
        apply Leads.step (a := .worker true) rfl
        simp [step, workerStep, hp', Scene.dutyStep, hticks', heed]
      obtain ⟨v, hv, hrest⟩ := leads_heed behave hbusy' (r := .complete) rfl
      exact ⟨v, (hend.trans hheed).trans hv, hrest⟩
  · cases hstep
    obtain ⟨v, hv, hrest⟩ := leads_heed behave hbusy' (r := .complete) rfl
    exact ⟨v, hend.trans hv, hrest⟩

/-- A tick on the thread that started the run, unless real time is asked for. -/
theorem leads_freeStep (hb : behave.Public) (hbegun : s.clock.pacing.stage.isInitial = false)
    (h : s.Between .simulated) {d : RealTimeClock} {world : σ} {told : Chronicle}
    {p : RealTimeClock.Progress}
    (hstep : RealTimeClock.freeStep (RealTimeClock.chronicled behave)
      (s.clock, (s.world, s.told)) = ((d, (world, told)), p)) :
    ∃ t, Leads behave s t ∧ t.Stood .simulated p ∧ t.clock = d ∧ t.world = world ∧
      t.told = told := by
  obtain ⟨hmain, hspare⟩ := h
  have hfree : Leads behave s { s with
      main := if s.clock.ticking then .wishing else .applying } := by
    apply Leads.step (a := .main false) rfl
    simp only [step, mainStep, hmain]
  unfold RealTimeClock.freeStep at hstep
  by_cases hticks : s.clock.ticking = true
  · rw [if_pos hticks] at hfree
    by_cases hwish : s.clock.pacing.pending = .toRealTime
    · rw [if_neg (fun hn => hn.2 hwish)] at hstep
      cases hstep
      refine ⟨{ s with main := .applying }, hfree.trans (Leads.step (a := .main false) rfl ?_),
        ⟨rfl, hspare.moved⟩, rfl, rfl, rfl⟩
      simp only [step, mainStep, hwish, if_true]
    · rw [if_pos ⟨hticks, hwish⟩] at hstep
      have hknock : Leads behave { s with main := .wishing } (s.ticksAt .caller .knocking) := by
        apply Leads.step (a := .main false) rfl
        simp only [step, mainStep, hwish, if_false, ticksAt]
      rcases hdisp : RealTimeClock.chronicled behave .caller (s.clock, (s.world, s.told))
        with ⟨⟨c, world', told'⟩, r⟩
      rw [hdisp] at hstep
      -- of the tasks, none is under way
      have hresting : s.Rests 0 .caller := hspare
      obtain ⟨t, u, e, hlead, -, hlast, hrests, rfl, rfl, rfl⟩ :=
        settles_tick hb hresting hbegun hdisp
      have hspare' : u.Spare := hrests
      have hticked := dispatchStep_ticksAt behave t .caller .caller e e
      rw [hlast] at hticked
      have hend {m : Main σ} (hm : (t.ticksAt .caller e).mainStep behave false =
          some { u with main := m }) : Leads behave s { u with main := m } :=
        ((hfree.trans hknock).trans hlead).trans (Leads.step (a := .main false) rfl hm)
      simp only [ticksAt] at hticked hend
      simp only [mainStep, hticked, Option.map_some] at hend
      rcases r with e | o | o <;> cases hstep
      · exact ⟨_, hend rfl, ⟨rfl, hspare'.moved⟩, rfl, rfl, rfl⟩
      · exact ⟨_, hend rfl, ⟨rfl, hspare'.moved⟩, rfl, rfl, rfl⟩
      · exact ⟨_, hend rfl, ⟨rfl, hspare'.moved⟩, rfl, rfl, rfl⟩
  · rw [if_neg (fun hn => hticks hn.1)] at hstep
    rw [if_neg hticks] at hfree
    cases hstep
    exact ⟨_, hfree, ⟨rfl, hspare.moved⟩, rfl, rfl, rfl⟩

/-! ## A step of a run -/

/-- Where the threads stand after a step of a run. -/
def After (s : Scene σ) : RealTimeClock.Leg ⊕ RealTimeClock.Ending → Prop
  | .inl leg => s.Between leg
  | .inr ending => s.Leaves ending

theorem leads_follow (behave : Behaviour σ) {leg : RealTimeClock.Leg} {p : RealTimeClock.Progress}
    (h : s.Stood leg p) {d : RealTimeClock} {world : σ} {told : Chronicle}
    {next : RealTimeClock.Leg ⊕ RealTimeClock.Ending}
    (hf : RealTimeClock.follow leg ((s.clock, (s.world, s.told)), p) =
      ((d, (world, told)), next)) :
    ∃ t, Leads behave s t ∧ t.After next ∧ t.clock = d ∧ t.world = world ∧ t.told = told := by
  cases p with
  | more =>
    cases hf
    exact ⟨s, .refl _ _, h, rfl, rfl, rfl⟩
  | failed e =>
    cases hf
    exact ⟨s, .refl _ _, h, rfl, rfl, rfl⟩
  | finished =>
    obtain ⟨hmain, hspare⟩ := h
    obtain ⟨c, hc, hgrants⟩ := RealTimeClock.applyPending_ok s.clock
    simp only [RealTimeClock.follow, hc] at hf
    cases hf
    refine ⟨{ s with clock := d, main := .looking }, Leads.step (a := .main false) rfl ?_,
      ⟨rfl, hspare.duty, hspare.active, fun hn => hspare.worker (hgrants.scheduler ▸ hn),
        hspare.stops⟩, rfl, rfl, rfl⟩
    simp only [step, mainStep, hmain, hc]

/-- The scheduler thread of a new leg waits for a task. -/
theorem Spare.filled (h : s.Spare) {c : RealTimeClock} (hc : c.pacing.scheduler ≠ none) :
    ∃ w n, s.filled c = { s with clock := c, spawned := n, worker := w } ∧ w.phase = .idle ∧
      w.queue = [] := by
  unfold Scene.filled
  split
  · exact ⟨_, _, rfl, rfl, rfl⟩
  · rename_i hn
    have hheld : s.clock.pacing.scheduler ≠ none := fun hnone =>
      hn ⟨by rw [hnone]; rfl, Option.isSome_iff_ne_none.mpr hc⟩
    exact ⟨_, _, rfl, (h.worker hheld).1, (h.worker hheld).2⟩

/-- A new task rests until its first run is due. -/
theorem leads_scheduling (behave : Behaviour σ) (h : s.Spare) (hmain : s.main = .scheduling)
    (hstage : s.clock.pacing.stage = .realTimeRunning) (hticks : s.clock.ticking = true)
    {c : RealTimeClock} (hc : s.clock.schedule = .ok c) :
    ∃ t, Leads behave s t ∧ t.Between .realTime ∧ t.clock = c ∧ t.world = s.world ∧
      t.told = s.told := by
  obtain ⟨hsch, hticks', hstage', hcanc⟩ : c.pacing.scheduler ≠ none ∧ c.ticking = true ∧
      c.pacing.stage = .realTimeRunning ∧ c.pacing.cancelled = false := by
    obtain ⟨e, he, rfl⟩ := RealTimeClock.schedule_ok hc
    rcases RealTimeClock.ensureScheduler_ok he with ⟨sch, hs, rfl⟩ | ⟨-, sch, pins, rfl, -⟩
    · exact ⟨by rw [hs]; nofun, hticks, hstage, rfl⟩
    · exact ⟨nofun, hticks, hstage, rfl⟩
  obtain ⟨w, n, hfilled, hp, hq⟩ := h.filled hsch
  let fresh : Worker.Task := { period := c.pacing.period, body := fun _ => .goOn }
  let tasks := w.tasks ++ [fresh]
  have hget : tasks[w.tasks.length]? = some fresh := by simp [tasks]
  let leg (v : Worker) : Scene σ :=
    { s with
      clock := c
      spawned := n
      worker := { v with tasks }
      active := some w.tasks.length
      main := .awaiting w.tasks.length }
  have hsent : Leads behave s (leg { w with queue := [.schedule w.tasks.length] }) := by
    apply Leads.step (a := .main false) rfl
    simp only [step, mainStep, hmain, scheduleStep, hstage, if_true, hc, hfilled]
    simp [Worker.schedule?, Worker.send?, hp, hq, leg, tasks, fresh]
  have hobeyed : Leads behave (leg { w with queue := [.schedule w.tasks.length] })
      (leg { w with queue := [], phase := .checking w.tasks.length }) := by
    apply Leads.step (a := .worker true) rfl
    simp [step, workerStep, leg, hp, Worker.step?, Worker.obeyIdle]
  have hchecked : Leads behave (leg { w with queue := [], phase := .checking w.tasks.length })
      (leg { w with queue := [], phase := .resting w.tasks.length }) := by
    apply Leads.step (a := .worker true) rfl
    simp [step, workerStep, leg, Worker.step?, Worker.isCancelled, hget, fresh]
  refine ⟨_, (hsent.trans hobeyed).trans hchecked,
    ⟨h.duty, hticks', ⟨?_, fun _ => ⟨hcanc, hsch⟩⟩, _,
    ⟨rfl, ⟨fresh, hget, rfl, rfl⟩, fun _ => ⟨rfl, ?_, rfl⟩, h.stops⟩, rfl⟩, rfl, rfl, rfl⟩
  · rw [hstage']
    rfl
  · simp [Worker.isCancelled, leg, hget, fresh]

theorem leads_step (hb : behave.Public) (hbegun : s.clock.pacing.stage.isInitial = false)
    {leg : RealTimeClock.Leg} (h : s.Between leg) {d : RealTimeClock} {world : σ}
    {told : Chronicle} {next : RealTimeClock.Leg ⊕ RealTimeClock.Ending}
    (hstep : RealTimeClock.step (RealTimeClock.chronicled behave) leg
      (s.clock, (s.world, s.told)) = ((d, (world, told)), next)) :
    ∃ t, Leads behave s t ∧ t.After next ∧ t.clock = d ∧ t.world = world ∧ t.told = told := by
  cases leg with
  | realTime =>
    rcases hrun : RealTimeClock.scheduledStep (RealTimeClock.chronicled behave)
      (s.clock, (s.world, s.told)) with ⟨⟨c, world', told'⟩, p⟩
    obtain ⟨t, ht, hstood, rfl, rfl, rfl⟩ := leads_scheduledStep hb h hrun
    rw [RealTimeClock.step, hrun] at hstep
    obtain ⟨u, hu, hrest⟩ := leads_follow behave hstood hstep
    exact ⟨u, ht.trans hu, hrest⟩
  | simulated =>
    rcases hrun : RealTimeClock.freeStep (RealTimeClock.chronicled behave)
      (s.clock, (s.world, s.told)) with ⟨⟨c, world', told'⟩, p⟩
    obtain ⟨t, ht, hstood, rfl, rfl, rfl⟩ := leads_freeStep hb hbegun h hrun
    rw [RealTimeClock.step, hrun] at hstep
    obtain ⟨u, hu, hrest⟩ := leads_follow behave hstood hstep
    exact ⟨u, ht.trans hu, hrest⟩
  | choosing =>
    obtain ⟨hmain, hspare⟩ := h
    have hlooked : Leads behave s { s with
        main := if s.clock.ticking then .choosing else .closing none } := by
      apply Leads.step (a := .main false) rfl
      simp only [step, mainStep, hmain]
    unfold RealTimeClock.step at hstep
    dsimp only at hstep
    by_cases hticks : s.clock.ticking = true
    · rw [if_pos hticks] at hstep hlooked
      have hchosen {m : Main σ} (hm : mainStep behave false { s with main := .choosing } =
          some { s with main := m }) : Leads behave s { s with main := m } :=
        hlooked.trans (Leads.step (a := .main false) rfl hm)
      simp only [mainStep] at hchosen
      cases hstage : s.clock.pacing.stage with
      | realTimeRunning =>
        rw [hstage] at hstep hchosen
        cases hsched : s.clock.schedule with
        | ok c =>
          rw [hsched] at hstep
          cases hstep
          obtain ⟨t, ht, hrest⟩ := leads_scheduling behave
            (s := { s with main := .scheduling }) hspare.moved rfl hstage hticks hsched
          exact ⟨t, (hchosen rfl).trans ht, hrest⟩
        | error f =>
          rw [hsched] at hstep
          cases hstep
          refine ⟨{ s with main := .finished (.broken f) },
            (hchosen rfl).trans (Leads.step (a := .main false) rfl ?_), ⟨rfl, hspare.moved⟩,
            rfl, rfl, rfl⟩
          simp only [step, mainStep, scheduleStep, hstage, if_true, hsched]
      | simulatedRunning =>
        rw [hstage] at hstep hchosen
        cases hstep
        exact ⟨_, hchosen rfl, ⟨rfl, hspare.moved⟩, rfl, rfl, rfl⟩
      | _ =>
        rw [hstage] at hstep hchosen
        cases hstep
        exact ⟨_, hchosen rfl, ⟨rfl, hspare.moved⟩, rfl, rfl, rfl⟩
    · rw [if_neg hticks] at hstep hlooked
      cases hstep
      exact ⟨_, hlooked, ⟨rfl, hspare.moved⟩, rfl, rfl, rfl⟩

/-- Leg by leg, until the run has come to its end. -/
theorem leads_steps (hb : behave.Public) (hL : 0 < base.tickLength) {n : Nat}
    {leg : RealTimeClock.Leg} (hready : RealTimeClock.Ready base s.clock)
    (hp : leg = .choosing → s.clock.pacing.pending = .none) (h : s.Between leg) {d : RealTimeClock}
    {world : σ} {told : Chronicle} {ending : RealTimeClock.Ending}
    (hsteps : RealTimeClock.steps (RealTimeClock.chronicled behave) n leg
      (s.clock, (s.world, s.told)) = ((d, (world, told)), .inr ending)) :
    ∃ t, Leads behave s t ∧ t.Leaves ending ∧ t.clock = d ∧ t.world = world ∧ t.told = told := by
  induction n generalizing s leg with
  | zero => cases hsteps
  | succ n ih =>
    obtain ⟨c, world', next, news, -, hstep, hready', hstands⟩ :=
      hready.step hb hL leg hp s.world s.told
    obtain ⟨t, ht, hafter, rfl, rfl, htold⟩ := leads_step hb hready.steady.begun h hstep
    rw [RealTimeClock.steps, hstep, ← htold] at hsteps
    cases next with
    | inl leg' =>
      obtain ⟨u, hu, hrest⟩ := ih hready' hstands.1 hafter hsteps
      exact ⟨u, ht.trans hu, hrest⟩
    | inr ending' =>
      cases hsteps
      exact ⟨t, ht, hafter, rfl, rfl, rfl⟩

/-! ## The end of a run -/

theorem leads_closing (behave : Behaviour σ) {e : Option ClockError} (hmain : s.main = .closing e)
    (h : s.Spare) :
    ∃ t, Leads behave s t ∧ t.Returned ∧ t.main = .finished (.of e) ∧
      t.clock = s.clock.conclude ∧ t.world = s.world ∧ t.told = s.told := by
  let y : Stop := ⟨false, s.clock.close.pacing.stage, .quieting⟩
  let xs := s.stops ++ [y]
  let closed : Scene σ := { s with clock := s.clock.close, main := .leaving s.stops.length e }
  have hi : s.stops.length < xs.length := by simp [xs]
  have hset (p : Halt) : xs.set s.stops.length { y with phase := p } =
      s.stops ++ [{ y with phase := p }] := by simp [xs]
  have hclosed : Leads behave s (closed.stopAt xs s.stops.length y .quieting) := by
    apply Leads.step (a := .main false) rfl
    simp only [step, mainStep, hmain, addStop, stopAt, hset, closed]
    rfl
  have hsch : s.clock.close.pacing.scheduler = s.clock.pacing.scheduler := by
    unfold RealTimeClock.close
    split <;> rfl
  obtain ⟨w, htaken, -, -, hsame⟩ :=
    leads_takingScheduler behave (s := closed) (x := y) hi
  obtain ⟨v, hdone, -⟩ := leads_done behave (x := y)
    (s := { closed with clock := closed.clock.endTicking, worker := w, active := none }) hi (by
      right
      intro hn
      rw [hsame h.active]
      exact h.worker (hsch ▸ hn))
  let last : Scene σ :=
    { closed with
      clock := RealTimeClock.releaseScheduler s.clock.close.endTicking
      worker := v
      active := none }
  have hleft : Leads behave (last.stopAt xs s.stops.length y .done)
      ({ last with
        clock := s.clock.conclude
        main := .finished (.of e) }.stopAt xs s.stops.length y .done) := by
    apply Leads.step (a := .main false) rfl
    simp [step, mainStep, stopAt, last, closed, List.getElem?_set_self hi, RealTimeClock.conclude]
  refine ⟨_, ((hclosed.trans htaken).trans hdone).trans hleft, ⟨⟨_, rfl⟩, ?_⟩, rfl, rfl, rfl, rfl⟩
  simp only [stopAt, hset]
  intro x hx
  rcases List.mem_append.mp hx with hx | hx
  · exact h.stops x hx
  · rw [List.mem_singleton.mp hx]
    rfl

/-- Whatever the listeners do, a run in one go is a run among threads that nobody disturbs. -/
theorem a_run_in_one_go_is_an_order_of_steps {behave : Behaviour σ} (hb : behave.Public)
    {st : RealTimeClock × σ} (hr : RealTimeClock.Reached behave st)
    (hi : st.1.pacing.stage.isInitial = true) :
    let r := RealTimeClock.start (RealTimeClock.dispatch behave) st
    ∃ s, Leads behave (opening st.1 st.2) s ∧ s.Returned ∧ s.main = .finished r.2 ∧
      s.clock = r.1.1 ∧ s.world = r.1.2 ∧ s.told = RealTimeClock.chronicle behave st := by
  obtain ⟨c, world⟩ := st
  have hrest := hr.rested hb hi
  rcases hrest.launch with ⟨d, hd, hready, hpend, -⟩ | ⟨f, hf, -⟩
  · have hneed : RealTimeClock.need .choosing d < d.enoughSteps := by
      simp only [RealTimeClock.need, RealTimeClock.enoughSteps]
      omega
    obtain ⟨e, world', ending, news, hsteps, hnews, -⟩ :=
      hready.steps hb hrest.tickLength (fun _ => hpend) hneed world []
    have hlaunch : Leads behave (opening c world)
        { (opening c world).filled d with main := .looking } := by
      apply Leads.step (a := .main false) rfl
      simp only [step, mainStep, opening, hd]
    obtain ⟨n, hfilled⟩ : ∃ n, (opening c world).filled d =
        { opening d world with spawned := n } := by
      unfold filled
      split <;> exact ⟨_, rfl⟩
    rw [hfilled] at hlaunch
    have hbegins : Between { opening d world with spawned := n, main := .looking } .choosing :=
      ⟨rfl, rfl, rfl, fun _ => ⟨rfl, rfl⟩, fun x hx => by cases hx⟩
    obtain ⟨t, ht, hleaves, rfl, rfl, htold⟩ :=
      leads_steps hb hrest.tickLength hready (fun _ => hpend) hbegins hnews
    simp only [RealTimeClock.chronicle, RealTimeClock.start_eq hd hsteps,
      RealTimeClock.start_eq hd hnews]
    rw [← htold]
    cases ending with
    | broken f =>
      exact ⟨t, hlaunch.trans ht, ⟨⟨_, hleaves.1⟩, hleaves.2.stops⟩, hleaves.1, rfl, rfl, rfl⟩
    | fine =>
      obtain ⟨u, hu, hrest⟩ := leads_closing behave hleaves.1 hleaves.2
      exact ⟨u, (hlaunch.trans ht).trans hu, hrest⟩
    | failed e =>
      obtain ⟨u, hu, hrest⟩ := leads_closing behave hleaves.1 hleaves.2
      exact ⟨u, (hlaunch.trans ht).trans hu, hrest⟩
  · refine ⟨{ opening c world with main := .finished (.broken f) },
      Leads.step (a := .main false) rfl ?_, ⟨⟨_, rfl⟩, fun x hx => by cases hx⟩, ?_⟩
    · simp only [step, mainStep, opening, hf]
    · simp only [RealTimeClock.chronicle, RealTimeClock.start, hf]
      exact ⟨trivial, rfl, rfl, rfl⟩

end Scene

end Metronome
