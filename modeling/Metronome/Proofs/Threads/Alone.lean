-- A run that nobody disturbs. When the threads act in turn, each until the
-- others wait for it, they do what the clock does in one go: so its run is
-- one of the orders of their steps.
import Metronome.Proofs.Threads.Release

namespace Metronome

/-- The task is there, and nobody was told of its end. -/
def Worker.Fresh (w : Worker) (task : Nat) : Prop :=
  ∃ t, w.tasks[task]? = some t ∧ t.outcomes = [] ∧ t.received = 0

theorem Worker.Fresh.raiseFlag {w : Worker} {task : Nat} (h : w.Fresh task) (i : Nat) :
    (w.raiseFlag i).1.Fresh task := by
  obtain ⟨t, ht, hout, hrec⟩ := h
  refine ⟨if i = task then { t with cancelled := true } else t, ?_, ?_, ?_⟩
  · unfold Worker.raiseFlag
    rw [getElem?_changeTask, ht]
    rfl
  · split <;> exact hout
  · split <;> exact hrec

theorem Worker.Fresh.send {w : Worker} {task : Nat} (h : w.Fresh task) (c : Command) :
    ((w.send? c).getD w).Fresh task := by
  unfold send?
  split <;> exact h

namespace Scene

variable {σ : Type} {behave : Behaviour σ} {s t : Scene σ}

/-! ## A stop that nobody disturbs -/

/-- The scene in which this one of the stops has come so far. -/
def stopAt (s : Scene σ) (xs : List Stop) (i : Nat) (x : Stop) (p : Halt) : Scene σ :=
  { s with stops := xs.set i { x with phase := p } }

section Stops

variable {xs : List Stop} {i : Nat} {x : Stop}

theorem leads_stopAt (hi : i < xs.length) {p p' : Halt}
    (hs : (s.stopAt xs i x p).stopStep i { x with phase := p } =
      some ((t.stopAt xs i x p).setStop i { x with phase := p } p')) :
    Leads behave (s.stopAt xs i x p) (t.stopAt xs i x p') := by
  apply Leads.step (a := .stop i) rfl
  have hget : (s.stopAt xs i x p).stops[i]? = some { x with phase := p } :=
    List.getElem?_set_self hi
  simp only [step, hget, Option.bind_some, hs]
  simp [stopAt, setStop]

/-- The task is told to end, if there is one. -/
theorem leads_takingScheduler (behave : Behaviour σ) (hi : i < xs.length) :
    ∃ w, Leads behave (s.stopAt xs i x .quieting)
        ({ s with clock := s.clock.endTicking, worker := w, active := none }.stopAt xs i x
          .takingScheduler) ∧
      w.phase = s.worker.phase ∧ (∀ task, s.worker.Fresh task → w.Fresh task) ∧
      (s.active = none → w = s.worker) := by
  have hquiet : Leads behave (s.stopAt xs i x .quieting)
      ({ s with clock := s.clock.endTicking }.stopAt xs i x .takingTask) :=
    leads_stopAt hi rfl
  cases ha : s.active with
  | none =>
    refine ⟨s.worker, hquiet.trans (leads_stopAt hi ?_), rfl, fun _ h => h, fun _ => rfl⟩
    simp only [stopStep, stopAt, setStop, ha]
  | some task =>
    have htaken : Leads behave ({ s with clock := s.clock.endTicking }.stopAt xs i x .takingTask)
        ({ s with clock := s.clock.endTicking, active := none }.stopAt xs i x (.raising task)) := by
      apply leads_stopAt hi
      simp only [stopStep, stopAt, setStop, ha]
    by_cases hflag : (s.worker.raiseFlag task).2 = true
    · have hraised : Leads behave
          ({ s with clock := s.clock.endTicking, active := none }.stopAt xs i x (.raising task))
          ({ s with
            clock := s.clock.endTicking
            worker := (s.worker.raiseFlag task).1
            active := none }.stopAt xs i x .waking) := by
        apply leads_stopAt hi
        simp only [stopStep, stopAt, setStop, hflag, if_true]
      exact ⟨(s.worker.raiseFlag task).1.wake,
        ((hquiet.trans htaken).trans hraised).trans (leads_stopAt hi rfl), Worker.phase_send _ _,
        fun _ h => (h.raiseFlag task).send _, fun hn => by cases hn⟩
    · refine ⟨(s.worker.raiseFlag task).1, (hquiet.trans htaken).trans (leads_stopAt hi ?_), rfl,
        fun _ h => h.raiseFlag task, fun hn => by cases hn⟩
      simp only [stopStep, stopAt, setStop, hflag, Bool.false_eq_true, if_false]

/-- The scheduler thread is shut down, if there is one. Only its own callbacks do not wait for it
to exit. -/
theorem leads_done (behave : Behaviour σ) (hi : i < xs.length) (hjoin : x.own = true ∨
      (s.clock.pacing.scheduler ≠ none → s.worker.phase = .idle ∧ s.worker.queue = [])) :
    ∃ w, Leads behave (s.stopAt xs i x .takingScheduler)
        ({ s with clock := s.clock.releaseScheduler, worker := w }.stopAt xs i x .done) ∧
      (x.own = true → w.phase = s.worker.phase) ∧ (∀ task, s.worker.Fresh task → w.Fresh task) := by
  unfold RealTimeClock.releaseScheduler
  cases hsch : s.clock.pacing.scheduler with
  | none =>
    refine ⟨s.worker, leads_stopAt hi ?_, fun _ => rfl, fun _ h => h⟩
    simp only [stopStep, stopAt, setStop, hsch]
  | some sch =>
    dsimp only
    generalize hc : RealTimeClock.unpin { s.clock with
      pacing := { s.clock.pacing with scheduler := none, cancelled := true } } sch = c
    -- until the worker was told once, and its pin given back
    have hfirst : Leads behave (s.stopAt xs i x .takingScheduler)
        ({ s with clock := c, worker := (s.worker.send? .shutDown).getD s.worker }.stopAt xs i x
          (.joining { sch with pinned := false })) := by
      refine Leads.trans (t := { s with clock.pacing := { s.clock.pacing with
        scheduler := none, cancelled := true } }.stopAt xs i x (.telling sch false))
        (leads_stopAt hi ?_) ?_
      · simp only [stopStep, stopAt, setStop, hsch]
      refine Leads.trans (t := { s with
          clock.pacing := { s.clock.pacing with scheduler := none, cancelled := true }
          worker := (s.worker.send? .shutDown).getD s.worker }.stopAt xs i x (.unpinning sch false))
        (leads_stopAt hi rfl) (leads_stopAt hi ?_)
      rw [← hc]
      rfl
    -- once the worker need not be waited for
    have hlast {w : Worker} (hw : x.own = true ∨ w.phase = .exited) :
        Leads behave ({ s with clock := c, worker := w }.stopAt xs i x
            (.joining { sch with pinned := false }))
          ({ s with clock := c, worker := (w.send? .shutDown).getD w }.stopAt xs i x .done) := by
      refine Leads.trans (t := { s with clock := c, worker := w }.stopAt xs i x
        (.telling { sch with pinned := false } true)) (leads_stopAt hi ?_) ?_
      · simp only [stopStep, stopAt, setStop]
        exact if_pos hw
      · exact Leads.trans (t := { s with
          clock := c
          worker := (w.send? .shutDown).getD w }.stopAt xs i x
            (.unpinning { sch with pinned := false } true))
          (leads_stopAt hi rfl) (leads_stopAt hi rfl)
    by_cases hown : x.own = true
    · refine ⟨_, hfirst.trans (hlast (.inl hown)), ?_, fun task h => (h.send _).send _⟩
      intro _
      rw [Worker.phase_send, Worker.phase_send]
    · obtain ⟨hp, hq⟩ := hjoin.resolve_left hown (by simp [hsch])
      have hsend : (s.worker.send? .shutDown).getD s.worker =
          { s.worker with queue := [.shutDown] } := by
        simp [Worker.send?, hp, hq]
      rw [hsend] at hfirst
      have hexit : Leads behave
          ({ s with clock := c, worker := { s.worker with queue := [.shutDown] } }.stopAt xs i x
            (.joining { sch with pinned := false }))
          ({ s with clock := c, worker := { s.worker with queue := [], phase := .exited } }.stopAt
            xs i x (.joining { sch with pinned := false })) := by
        apply Leads.step (a := .worker true) rfl
        simp [step, workerStep, stopAt, hp, Worker.step?, Worker.obeyIdle]
      exact ⟨_, (hfirst.trans hexit).trans (hlast (.inr rfl)), fun h => absurd h hown,
        fun task h => h⟩

/-- From its call to its return, a stop does what a stop in one go does. -/
theorem leads_stop (hi : i < xs.length) (hb : s.clock.pacing.stage.isInitial = false)
    (hjoin : x.own = true ∨ s.active = none ∧ (s.clock.pacing.scheduler ≠ none →
      s.worker.phase = .idle ∧ s.worker.queue = [])) :
    ∃ w, Leads behave (s.stopAt xs i x .entering)
        ({ s with clock := s.clock.ended, worker := w, active := none }.stopAt xs i x .done) ∧
      (x.own = true → w.phase = s.worker.phase) ∧ (∀ task, s.worker.Fresh task → w.Fresh task) := by
  have hstop := RealTimeClock.stop_eq hb
  unfold RealTimeClock.stop at hstop
  cases hret : s.clock.retire with
  | error e => rw [hret] at hstop; cases hstop
  | ok c =>
    rw [hret] at hstop
    have hended : RealTimeClock.releaseScheduler c.endTicking = s.clock.ended := by
      simpa [Except.map] using hstop
    have hsch : c.pacing.scheduler = s.clock.pacing.scheduler := by
      unfold RealTimeClock.retire at hret
      split at hret <;> cases hret
      rfl
    have henter : Leads behave (s.stopAt xs i x .entering)
        ({ s with clock := c }.stopAt xs i x .quieting) := by
      apply leads_stopAt hi
      simp only [stopStep, stopAt, setStop, hret]
    obtain ⟨w, htake, hphase, hfresh, hsame⟩ :=
      leads_takingScheduler behave (s := { s with clock := c }) (x := x) hi
    obtain ⟨v, hdone, hphase', hfresh'⟩ := leads_done behave (x := x)
      (s := { s with clock := c.endTicking, worker := w, active := none }) hi (by
        apply hjoin.imp_right
        intro hidle hn
        rw [hsame hidle.1]
        exact hidle.2 (hsch ▸ hn))
    rw [hended] at hdone
    exact ⟨v, (henter.trans htake).trans hdone, fun ho => (hphase' ho).trans hphase,
      fun task h => hfresh' task (hfresh task h)⟩

end Stops

/-! ## A tick that nobody disturbs -/

/-- The scene in which a thread dispatches a tick that stands here. -/
def ticksAt (s : Scene σ) (thread : Thread) (d : Dispatch σ) : Scene σ :=
  match thread with
  | .caller => { s with main := .ticking d }
  | .scheduler => { s with duty := .ticking d }

/-- A tick does not look at the thread that dispatches it. -/
theorem dispatchStep_ticksAt (behave : Behaviour σ) (s : Scene σ) (thread other : Thread)
    (d e : Dispatch σ) :
    (s.ticksAt thread e).dispatchStep behave other d =
      (s.dispatchStep behave other d).map fun r => (r.1.ticksAt thread e, r.2) := by
  cases thread <;> cases d with
  | knocking =>
    simp only [dispatchStep, ticksAt]
    split <;> rfl
  | calling r =>
    obtain ⟨phase, start, names, rest⟩ := r
    cases rest with
    | cons x rest => rfl
    | nil => cases phase <;> rfl
  | inside r x b p =>
    cases p with
    | finish world verdict =>
      simp only [dispatchStep, ticksAt]
      split <;> rfl
    | ask call next =>
      simp only [dispatchStep, ticksAt]
      split <;> rfl
  | waiting r x b i next =>
    simp only [dispatchStep, ticksAt]
    split <;> rfl
  | settling => rfl

/-- The scheduler thread is idle, if there is one, and dispatches no tick. -/
structure Spare (s : Scene σ) : Prop where
  duty : s.duty = .glancing
  active : s.active = none
  worker : s.clock.pacing.scheduler ≠ none → s.worker.phase = .idle ∧ s.worker.queue = []
  stops : ∀ x ∈ s.stops, x.phase.returned = true

/-- The task is awaited, and if nobody has stopped the clock, it is the only thing that the
worker knows of. -/
structure Busy (s : Scene σ) (task : Nat) : Prop where
  main : s.main = .awaiting task
  fresh : s.worker.Fresh task
  alone : s.clock.pacing.scheduler ≠ none →
    s.worker.queue = [] ∧ s.worker.isCancelled task = false ∧ s.active = some task
  stops : ∀ x ∈ s.stops, x.phase.returned = true

/-- What everyone else does while a thread dispatches a tick. On the scheduler thread, the tick
is part of a task. -/
def Rests (s : Scene σ) (task : Nat) : Thread → Prop
  | .caller => s.Spare
  | .scheduler => s.Busy task ∧ s.worker.phase = .running task

variable {task : Nat}

theorem Rests.of_same {thread : Thread} (h : s.Rests task thread)
    (hsch : t.clock.pacing.scheduler = s.clock.pacing.scheduler) (hm : t.main = s.main)
    (hw : t.worker = s.worker) (hd : t.duty = s.duty) (ha : t.active = s.active)
    (hst : t.stops = s.stops) : t.Rests task thread := by
  cases thread with
  | caller =>
    obtain ⟨duty, active, worker, stops⟩ := h
    exact ⟨hd.trans duty, ha.trans active, by rw [hsch, hw]; exact worker, hst ▸ stops⟩
  | scheduler =>
    obtain ⟨⟨main, fresh, alone, stops⟩, hp⟩ := h
    exact ⟨⟨hm.trans main, hw ▸ fresh, by rw [hsch, hw, ha]; exact alone, hst ▸ stops⟩,
      by rw [hw, hp]⟩

theorem leads_tick {thread : Thread} (h : s.Rests task thread) {d d' : Dispatch σ}
    (hs : s.dispatchStep behave thread d = some (t, .inl d')) :
    Leads behave (s.ticksAt thread d) (t.ticksAt thread d') := by
  have hstep := dispatchStep_ticksAt behave s thread thread d d
  rw [hs] at hstep
  cases thread with
  | caller =>
    apply Leads.step (a := .main false) rfl
    simp only [ticksAt] at hstep ⊢
    simp only [step, mainStep, hstep, Option.map_some]
  | scheduler =>
    have hp := h.2
    apply Leads.step (a := .worker true) rfl
    simp only [ticksAt] at hstep ⊢
    simp only [step, workerStep, hp, Scene.dutyStep, hstep, Option.map_some]

/-- A callback that calls a stop waits until the stop has returned. -/
theorem leads_stopping (behave : Behaviour σ) {thread : Thread} (h : s.Rests task thread)
    (hb : s.clock.pacing.stage.isInitial = false) (r : Round) (x : Listener) (b : Budget)
    (next : Answer → Program σ) :
    ∃ t : Scene σ, Leads behave (s.ticksAt thread (.inside r x b (.ask .stop next)))
        (t.ticksAt thread (.inside r x b (next .done))) ∧
      t.Rests task thread ∧ t.clock = s.clock.ended ∧ t.told = s.told := by
  let y : Stop := ⟨thread = .scheduler, s.clock.pacing.stage, .entering⟩
  let xs := s.stops ++ [y]
  have hi : s.stops.length < xs.length := by simp [xs]
  have hset (p : Halt) : xs.set s.stops.length { y with phase := p } =
      s.stops ++ [{ y with phase := p }] := by simp [xs]
  have hcall : Leads behave (s.ticksAt thread (.inside r x b (.ask .stop next)))
      ((s.stopAt xs s.stops.length y .entering).ticksAt thread
        (.waiting r x b s.stops.length next)) := by
    apply leads_tick h
    simp only [dispatchStep, if_true, addStop, stopAt, hset]
    rfl
  obtain ⟨w, hstop, hphase, hfresh⟩ : ∃ w, Leads behave
      ((s.stopAt xs s.stops.length y .entering).ticksAt thread
        (.waiting r x b s.stops.length next))
      (({ s with clock := s.clock.ended, worker := w, active := none }.stopAt xs s.stops.length y
        .done).ticksAt thread (.waiting r x b s.stops.length next)) ∧
      (y.own = true → w.phase = s.worker.phase) ∧
      ∀ task, s.worker.Fresh task → w.Fresh task := by
    cases thread with
    | caller =>
      exact leads_stop (s := { s with main := .ticking (.waiting r x b s.stops.length next) }) hi hb
        (.inr ⟨h.active, h.worker⟩)
    | scheduler =>
      exact leads_stop (s := { s with duty := .ticking (.waiting r x b s.stops.length next) }) hi hb
        (.inl rfl)
  have hreturned {zs : List Stop} (hzs : ∀ z ∈ zs, z.phase.returned = true) :
      ∀ z ∈ zs ++ [{ y with phase := .done }], z.phase.returned = true := by
    intro z hz
    rcases List.mem_append.mp hz with hz | hz
    · exact hzs z hz
    · rw [List.mem_singleton.mp hz]
      rfl
  have hrests : Rests ({ s with clock := s.clock.ended, worker := w, active := none }.stopAt xs
      s.stops.length y .done) task thread := by
    cases thread with
    | caller =>
      refine ⟨h.duty, rfl, fun hn => absurd rfl hn, ?_⟩
      simp only [stopAt, hset]
      exact hreturned h.stops
    | scheduler =>
      obtain ⟨hbusy, hp⟩ := h
      refine ⟨⟨hbusy.main, hfresh task hbusy.fresh, fun hn => absurd rfl hn, ?_⟩,
        (hphase rfl).trans hp⟩
      simp only [stopAt, hset]
      exact hreturned hbusy.stops
  refine ⟨_, (hcall.trans hstop).trans (leads_tick hrests ?_), hrests, rfl, rfl⟩
  simp only [dispatchStep, stopAt, List.getElem?_set_self hi]

theorem program (behave : Behaviour σ) {thread : Thread} (h : s.Rests task thread)
    (hb : s.clock.pacing.stage.isInitial = false) (r : Round) (x : Listener) (b : Budget)
    {p : Program σ} (hp : p.Asks fun call => call.isPublic = true) {d : RealTimeClock} {world : σ}
    {verdict : Verdict}
    (hr : Program.run RealTimeClock.serve r.phase p s.clock = ((d, world), verdict)) :
    ∃ t : Scene σ, Leads behave (s.ticksAt thread (.inside r x b p))
        (t.ticksAt thread (.inside r x b (.finish world verdict))) ∧
      t.Rests task thread ∧ t.clock = d ∧ t.told = s.told ∧
      t.clock.pacing.stage.isInitial = false := by
  induction p generalizing s with
  | finish world' verdict' =>
    cases hr
    exact ⟨s, .refl _ _, h, rfl, rfl, hb⟩
  | ask call next ih =>
    by_cases hc : call = .stop
    · subst hc
      obtain ⟨t, ht, htr, hclock, htold⟩ := leads_stopping behave h hb r x b next
      have hreply : Program.reply RealTimeClock.serve r.phase s.clock .stop =
          (s.clock.ended, .done) := by
        simp [Program.reply, Program.onBudget, RealTimeClock.serve, RealTimeClock.answer,
          RealTimeClock.stop_eq hb, RealTimeClock.settle]
      unfold Program.run at hr
      rw [hreply] at hr
      rw [← hclock] at hr
      obtain ⟨u, hu, hur, hd, hutold, hub⟩ := ih .done htr (by rw [hclock]; rfl) (hp.2 _) hr
      exact ⟨u, ht.trans hu, hur, hd, hutold.trans htold, hub⟩
    · have hstep : s.dispatchStep behave thread (.inside r x b (.ask call next)) =
          some ({ s with clock := (Program.reply RealTimeClock.serve r.phase s.clock call).1 },
            .inl (.inside r x b
              (next (Program.reply RealTimeClock.serve r.phase s.clock call).2))) := by
        simp only [dispatchStep, if_neg hc]
      obtain ⟨hlight, -⟩ := RealTimeClock.reply_light r.phase hb hp.1 hc
      have hrest : Rests { s with
          clock := (Program.reply RealTimeClock.serve r.phase s.clock call).1 } task thread :=
        h.of_same hlight.scheduler rfl rfl rfl rfl rfl
      obtain ⟨t, ht, hrests⟩ := ih _ hrest (hlight.initial.trans hb) (hp.2 _) hr
      exact ⟨t, (leads_tick h hstep).trans ht, hrests⟩

/-- A tick that stands here comes to this result, and leaves this clock and this world. That is
told. -/
def Settles (behave : Behaviour σ) (task : Nat) (thread : Thread) (s : Scene σ) (d : Dispatch σ)
    (r : Except ClockError TickEnd) (c : RealTimeClock) (world : σ) (told : Chronicle) : Prop :=
  ∃ (t u : Scene σ) (d' : Dispatch σ),
    Leads behave (s.ticksAt thread d) (t.ticksAt thread d') ∧ t.Rests task thread ∧
      t.dispatchStep behave thread d' = some (u, .inr r) ∧ u.Rests task thread ∧ u.clock = c ∧
      u.world = world ∧ u.told = told

theorem Settles.of_leads {thread : Thread} {d d' : Dispatch σ} {r : Except ClockError TickEnd}
    {c : RealTimeClock} {world : σ} {told : Chronicle}
    (h : Leads behave (s.ticksAt thread d) (t.ticksAt thread d'))
    (ht : Settles behave task thread t d' r c world told) :
    Settles behave task thread s d r c world told := by
  obtain ⟨u, v, e, hu, hrest⟩ := ht
  exact ⟨u, v, e, h.trans hu, hrest⟩

/-- The callbacks of one phase, until one of them fails. -/
theorem visits (hb : behave.Public) {thread : Thread} (h : s.Rests task thread)
    (hbegun : s.clock.pacing.stage.isInitial = false) (phase : Phase) (start : Int)
    (names rest : List Listener) {d : RealTimeClock} {world : σ} {told : Chronicle}
    {e : Option ClockError}
    (hv : Clock.visitAll RealTimeClock.serve behave.noted phase thread start rest
      (s.clock, (s.world, s.told)) = ((d, (world, told)), e)) :
    match e with
    | none => ∃ t : Scene σ, Leads behave (s.ticksAt thread (.calling ⟨phase, start, names, rest⟩))
        (t.ticksAt thread (.calling ⟨phase, start, names, []⟩)) ∧
      t.Rests task thread ∧ t.clock = d ∧ t.world = world ∧ t.told = told ∧
        d.pacing.stage.isInitial = false
    | some e => Settles behave task thread s (.calling ⟨phase, start, names, rest⟩) (.error e)
        { d with dispatching := false } world told := by
  induction rest generalizing s with
  | nil =>
    cases hv
    exact ⟨s, .refl _ _, h, rfl, rfl, rfl, hbegun⟩
  | cons x rest ih =>
    unfold Clock.visitAll Behaviour.noted at hv
    dsimp only at hv
    rcases hrun : Program.run RealTimeClock.serve phase
      (behave ⟨x, phase, s.clock.budget, thread⟩ s.world) s.clock with ⟨⟨c, world'⟩, verdict⟩
    rw [Program.run_noting, hrun] at hv
    dsimp only [withNews] at hv
    have hcall : Leads behave (s.ticksAt thread (.calling ⟨phase, start, names, x :: rest⟩))
        (s.ticksAt thread (.inside ⟨phase, start, names, rest⟩ x s.clock.budget
          (behave ⟨x, phase, s.clock.budget, thread⟩ s.world))) := leads_tick h rfl
    obtain ⟨t, ht, htr, rfl, htold, htb⟩ := program behave h hbegun
      ⟨phase, start, names, rest⟩ x s.clock.budget (hb _ _) hrun
    rw [← htold] at hv
    cases hver : verdict.error? start with
    | some e' =>
      simp only [hver] at hv
      cases hv
      refine ⟨t, { t with
          clock := { t.clock with dispatching := false }
          world
          told := t.told ++ [Happening.called x phase s.clock.budget verdict] }, _,
        hcall.trans ht, htr, ?_, htr.of_same rfl rfl rfl rfl rfl rfl, rfl, rfl, rfl⟩
      simp only [dispatchStep, hver]
    | none =>
      simp only [hver] at hv
      have hback : Leads behave
          (t.ticksAt thread (.inside ⟨phase, start, names, rest⟩ x s.clock.budget
            (.finish world' verdict)))
          ({ t with world := world', told := t.told ++ [Happening.called x phase s.clock.budget
            verdict] }.ticksAt thread (.calling ⟨phase, start, names, rest⟩)) := by
        apply leads_tick htr
        simp only [dispatchStep, hver]
      have hnext := ih (s := { t with
          world := world'
          told := t.told ++ [Happening.called x phase s.clock.budget verdict] })
        (htr.of_same rfl rfl rfl rfl rfl rfl) htb hv
      cases e with
      | none =>
        obtain ⟨u, hu, hrest⟩ := hnext
        exact ⟨u, ((hcall.trans ht).trans hback).trans hu, hrest⟩
      | some e => exact Settles.of_leads ((hcall.trans ht).trans hback) hnext

theorem settles_tick (hb : behave.Public) {thread : Thread} (h : s.Rests task thread)
    (hbegun : s.clock.pacing.stage.isInitial = false) {d : RealTimeClock} {world : σ}
    {told : Chronicle} {r : Except ClockError TickEnd}
    (ht : RealTimeClock.chronicled behave thread (s.clock, (s.world, s.told)) =
      ((d, (world, told)), r)) :
    Settles behave task thread s .knocking r d world told := by
  unfold RealTimeClock.chronicled Clock.chronicled Clock.tick at ht
  dsimp only at ht
  cases hl : s.clock.lend with
  | error e =>
    rw [hl] at ht
    cases ht
    refine ⟨s, { s with told := s.told ++ [Happening.asked s.clock.time] }, .knocking, .refl _ _, h,
      ?_, h.of_same rfl rfl rfl rfl rfl rfl, rfl, rfl, rfl⟩
    simp only [dispatchStep, hl]
  | ok lent =>
    obtain ⟨budget, rfl⟩ := Clock.lend_ok hl
    rw [hl] at ht
    dsimp only at ht
    let asked : Scene σ := { s with
      clock := { s.clock with budget, dispatching := true }
      told := s.told ++ [Happening.asked s.clock.time] }
    have hknock : Leads behave (s.ticksAt thread .knocking) (asked.ticksAt thread
        (.calling ⟨.tick, s.clock.time, s.clock.roster.names, s.clock.roster.names⟩)) := by
      apply leads_tick h
      simp only [dispatchStep, hl, asked]
    rcases hv : Clock.visitAll RealTimeClock.serve behave.noted .tick thread s.clock.time
      s.clock.roster.names (asked.clock, (asked.world, asked.told)) with ⟨⟨c, world', told'⟩, e⟩
    have hasked : asked.Rests task thread := h.of_same rfl rfl rfl rfl rfl rfl
    have hfirst := visits hb hasked hbegun .tick s.clock.time s.clock.roster.names
      s.clock.roster.names hv
    simp only [asked] at hv
    rw [hv] at ht
    cases e with
    | some e =>
      cases ht
      exact Settles.of_leads hknock hfirst
    | none =>
      obtain ⟨t, hlead, htr, rfl, rfl, rfl, htb⟩ := hfirst
      dsimp only at ht
      let spent : Scene σ := { t with clock.budget := t.clock.budget.consumeAll }
      have hturn : Leads behave
          (t.ticksAt thread (.calling ⟨.tick, s.clock.time, s.clock.roster.names, []⟩))
          (spent.ticksAt thread
            (.calling ⟨.after, s.clock.time, s.clock.roster.names, s.clock.roster.names⟩)) :=
        leads_tick htr rfl
      rcases hw : Clock.visitAll RealTimeClock.serve behave.noted .after thread s.clock.time
        s.clock.roster.names (spent.clock, (spent.world, spent.told)) with ⟨⟨c, world', told'⟩, e⟩
      have hspent : spent.Rests task thread := htr.of_same rfl rfl rfl rfl rfl rfl
      have hsecond := visits hb hspent htb .after s.clock.time s.clock.roster.names
        s.clock.roster.names hw
      simp only [spent] at hw
      rw [hw] at ht
      cases e with
      | some e =>
        cases ht
        exact Settles.of_leads ((hknock.trans hlead).trans hturn) hsecond
      | none =>
        obtain ⟨u, hlead', hur, rfl, rfl, rfl, -⟩ := hsecond
        cases ht
        have hsettle : Leads behave
            (u.ticksAt thread (.calling ⟨.after, s.clock.time, s.clock.roster.names, []⟩))
            (u.ticksAt thread .settling) := leads_tick hur rfl
        refine ⟨u, { u with clock := u.clock.advance.1 }, .settling,
          (((hknock.trans hlead).trans hturn).trans hlead').trans hsettle, hur, rfl, ?_, rfl, rfl,
          rfl⟩
        refine hur.of_same ?_ rfl rfl rfl rfl rfl
        unfold Clock.advance
        dsimp only
        split <;> rfl

end Scene

end Metronome
