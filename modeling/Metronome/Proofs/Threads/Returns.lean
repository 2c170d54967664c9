-- Everyone returns. Once the clock ticks no more, every step that a thread
-- takes by itself brings the scene nearer to its end, whatever the order, and
-- there is such a step until the run and all the stops are over.
import Metronome.Proofs.Threads.Waiting

namespace Metronome

/-! ## A tick ends -/

namespace Dispatch

variable {σ : Type} {r : Round}

theorem acc_settling : Acc Next (.settling : Dispatch σ) := ⟨_, fun _ h => by cases h⟩

theorem acc_waiting {x : Listener} {b : Budget} {next : Answer → Program σ}
    (h : ∀ a, Acc Next (.inside r x b (next a))) (i : Nat) : Acc Next (.waiting r x b i next) := by
  refine ⟨_, ?_⟩
  intro d hd
  cases hd
  exact h _

/-- A callback ends, whatever it is answered. -/
theorem acc_inside (hr : Acc Next (.calling r : Dispatch σ)) (x : Listener) (b : Budget)
    (p : Program σ) : Acc Next (.inside r x b p) := by
  induction p with
  | finish world verdict =>
    refine ⟨_, ?_⟩
    intro d hd
    cases hd
    exact hr
  | ask call next ih =>
    refine ⟨_, fun d hd => ?_⟩
    cases hd with
    | served => exact ih _
    | stopping => exact acc_waiting ih _

theorem acc_after (start : Int) (names rest : List Listener) :
    Acc Next (.calling ⟨.after, start, names, rest⟩ : Dispatch σ) := by
  induction rest with
  | nil =>
    refine ⟨_, fun d hd => ?_⟩
    cases hd
    exact acc_settling
  | cons x rest ih =>
    refine ⟨_, fun d hd => ?_⟩
    cases hd
    exact acc_inside ih _ _ _

theorem acc_calling (r : Round) : Acc Next (.calling r : Dispatch σ) := by
  obtain ⟨phase, start, names, rest⟩ := r
  cases phase with
  | after => exact acc_after start names rest
  | tick =>
    induction rest with
    | nil =>
      refine ⟨_, ?_⟩
      intro d hd
      cases hd
      exact acc_after start names names
    | cons x rest ih =>
      refine ⟨_, fun d hd => ?_⟩
      cases hd
      exact acc_inside ih _ _ _

theorem next_wf : WellFounded (Next (σ := σ)) := by
  constructor
  intro d
  cases d with
  | knocking =>
    refine ⟨_, fun d hd => ?_⟩
    cases hd
    exact acc_calling _
  | calling r => exact acc_calling r
  | inside r x b p => exact acc_inside (acc_calling r) x b p
  | waiting r x b i next => exact acc_waiting (fun a => acc_inside (acc_calling r) x b (next a)) i
  | settling => exact acc_settling

end Dispatch

/-! ## What is still to be done -/

/-- How far from its end a stop is. Whoever sends the worker a command pays for it. -/
def Halt.rank : Halt → Nat
  | .entering => 15
  | .quieting => 14
  | .takingTask => 13
  | .raising _ => 12
  | .waking => 11
  | .takingScheduler => 8
  | .telling _ false => 7
  | .unpinning _ false => 5
  | .joining _ => 4
  | .telling _ true => 3
  | .unpinning _ true => 1
  | .done => 0
  | .refused _ => 0

def Worker.Command.rank : Worker.Command → Nat
  | .schedule _ => 4
  | .wake => 2
  | .shutDown => 1

def Worker.Phase.rank : Worker.Phase → Nat
  | .checking _ => 3
  | .resting _ => 2
  | .running _ => 1
  | .idle => 0
  | .exited => 0

def Worker.rank (w : Worker) : Nat := w.phase.rank + total (·.rank) w.queue

def Duty.rank {σ : Type} : Duty σ → Nat
  | .ticking _ => 3
  | .checking => 2
  | .minding => 1
  | .glancing => 0

/-- How far from its end the run is, on a clock that ticks no more. -/
def Main.rank {σ : Type} : Main σ → Nat
  | .outside => 16
  | .choosing => 15
  | .scheduling => 14
  | .polling _ => 13
  | .cancelling _ => 12
  | .waking _ => 11
  | .awaiting _ => 10
  | .lost => 9
  | .wishing => 8
  | .ticking _ => 7
  | .free => 6
  | .clearing _ => 5
  | .applying => 4
  | .looking => 3
  | .closing _ => 2
  | .leaving _ _ => 1
  | .finished _ => 0

/-- A step that a thread takes by itself. Nobody calls anything, and who awaits an outcome waits
until it is there. -/
def Act.isInner : Act → Bool
  | .main alarm => !alarm
  | .worker _ | .stop _ => true
  | .issue | .call _ => false

namespace Scene

variable {σ : Type} {behave : Behaviour σ} {base : RealTimeClock} {s t : Scene σ}

/-- The rank of all stops together. -/
def stopsRank (stops : List Stop) : Nat := total (fun x => x.phase.rank) stops

/-- A step of the run may give the others anything to do, and so may a run of the task to the
worker and the stops. -/
def toDo (s : Scene σ) : (Nat × Dispatch σ) × (Nat × Dispatch σ) × Nat :=
  ((s.main.rank, s.main.tick), (s.duty.rank, s.duty.tick), s.worker.rank + stopsRank s.stops)

def Nearer (t s : Scene σ) : Prop :=
  Prod.Lex (Prod.Lex (· < ·) Dispatch.Next)
    (Prod.Lex (Prod.Lex (· < ·) Dispatch.Next) (· < ·)) t.toDo s.toDo

theorem nearer_wf : WellFounded (Nearer (σ := σ)) := by
  have hlt : WellFounded fun a b : Nat => a < b := Nat.lt_wfRel.wf
  let tick : WellFoundedRelation (Nat × Dispatch σ) := Prod.lex ⟨_, hlt⟩ ⟨_, Dispatch.next_wf⟩
  exact InvImage.wf toDo (Prod.lex tick (Prod.lex tick ⟨_, hlt⟩)).wf

theorem nearer_of_main (h : t.main.rank < s.main.rank) : Nearer t s :=
  .left _ _ (.left _ _ h)

theorem nearer_of_tick {d d' : Dispatch σ} (hs : s.main = .ticking d) (ht : t.main = .ticking d')
    (h : Dispatch.Next d' d) : Nearer t s := by
  unfold Nearer toDo
  rw [hs, ht]
  exact .left _ _ (.right _ h)

theorem nearer_of_duty (hm : t.main = s.main) (h : t.duty.rank < s.duty.rank) : Nearer t s := by
  unfold Nearer toDo
  rw [hm]
  exact .right _ (.left _ _ (.left _ _ h))

theorem nearer_of_duty_tick {d d' : Dispatch σ} (hm : t.main = s.main) (hs : s.duty = .ticking d)
    (ht : t.duty = .ticking d') (h : Dispatch.Next d' d) : Nearer t s := by
  unfold Nearer toDo
  rw [hm, hs, ht]
  exact .right _ (.left _ _ (.right _ h))

theorem nearer_of_rank (hm : t.main = s.main) (hd : t.duty = s.duty)
    (h : t.worker.rank + stopsRank t.stops < s.worker.rank + stopsRank s.stops) : Nearer t s := by
  unfold Nearer toDo
  rw [hm, hd]
  exact .right _ (.right _ h)

/-! ## Steps of the stops -/

theorem rank_send (w : Worker) (c : Worker.Command) :
    ((w.send? c).getD w).rank ≤ w.rank + c.rank := by
  unfold Worker.send?
  split
  · exact Nat.le_add_right _ _
  · simp only [Option.getD_some, Worker.rank, total_append, total_cons, total_nil]
    omega

theorem nearer_stopStep {i : Nat} {x : Stop} (hx : s.stops[i]? = some x)
    (hs : s.stopStep i x = some t) : Nearer t s := by
  -- what the worker is sent costs less than the stop gains by it
  have pay {c : RealTimeClock} {a : Option Nat} {w : Worker} {p : Halt}
      (hp : w.rank + p.rank < s.worker.rank + x.phase.rank) :
      Nearer ({ s with clock := c, active := a, worker := w }.setStop i x p) s := by
    have hset := total_set (fun y : Stop => y.phase.rank) hx { x with phase := p }
    refine nearer_of_rank rfl rfl ?_
    dsimp only [setStop, stopsRank] at hset ⊢
    omega
  have go {c : RealTimeClock} {a : Option Nat} {p : Halt} (hp : p.rank < x.phase.rank) :
      Nearer ({ s with clock := c, active := a }.setStop i x p) s :=
    pay (w := s.worker) (by omega)
  unfold Scene.stopStep at hs
  cases hp : x.phase <;> rw [hp] at hs go pay <;> dsimp only at hs
  case entering => split at hs <;> cases hs <;> exact go (by simp [Halt.rank])
  case quieting =>
    cases hs
    exact go (by decide)
  case takingTask => split at hs <;> cases hs <;> exact go (by simp [Halt.rank])
  case raising task =>
    cases hs
    apply pay
    have hw : (s.worker.raiseFlag task).1.rank = s.worker.rank := rfl
    rw [hw]
    split <;> simp [Halt.rank]
  case waking =>
    cases hs
    apply pay
    have hw := rank_send s.worker .wake
    simp only [Worker.Command.rank, Halt.rank, Worker.wake] at hw ⊢
    omega
  case takingScheduler => split at hs <;> cases hs <;> exact go (by simp [Halt.rank])
  case telling sch again =>
    cases hs
    apply pay
    have hw := rank_send s.worker .shutDown
    cases again <;> simp only [Worker.Command.rank, Halt.rank] at hw ⊢ <;> omega
  case unpinning sch again =>
    cases hs
    cases again <;> exact go (by simp [Halt.rank])
  case joining sch =>
    split at hs <;> cases hs
    exact go (by simp [Halt.rank])
  case done => cases hs
  case refused e => cases hs

/-! ## Steps of the worker -/

theorem rank_step? {w v : Worker} {due : Bool} (hs : w.step? due = some v)
    (hrun : ∀ i, w.phase ≠ .running i) : v.rank < w.rank := by
  unfold Worker.step? at hs
  split at hs
  · cases hs
  · cases hs
  · rename_i c queue hp hq
    cases hs
    cases c <;> simp [Worker.rank, Worker.obeyIdle, Worker.Phase.rank, Worker.Command.rank, hp, hq]
  · rename_i i hp
    split at hs <;> cases hs <;>
      simp [Worker.rank, Worker.report, Worker.changeTask, Worker.Phase.rank, hp]
  · rename_i i c queue hp hq
    cases hs
    cases c <;> simp [Worker.rank, Worker.obeyBetween, Worker.report, Worker.flag,
      Worker.raiseFlag, Worker.changeTask, Worker.Phase.rank, Worker.Command.rank, hp, hq] <;> omega
  · rename_i i hp hq
    split at hs <;> cases hs
    simp [Worker.rank, Worker.Phase.rank, hp]
  · rename_i hp
    exact absurd hp (hrun _)

/-- A run that finds the clock quiet ends its task. -/
theorem rank_heed {w : Worker} {task : Nat} {r : Worker.Report} {o : Worker.Outcome}
    (hp : w.phase = .running task) (ho : r.outcome? = some o) : (w.heed task r).rank < w.rank := by
  unfold Worker.heed
  rw [ho]
  have hq : (if r = .cancel then w.flag task else w).queue = w.queue := by split <;> rfl
  simp only [Worker.rank, Worker.report, Worker.changeTask, hq, hp, Worker.Phase.rank]
  omega

/-- A run of the task ends it, or leaves it to the next run. -/
theorem nearer_heed {u : Scene σ} {task : Nat} (hm : u.main = s.main) (hw : u.worker = s.worker)
    (hst : u.stops = s.stops) (hp : s.worker.phase = .running task) {r : Worker.Report}
    (h : 0 < s.duty.rank ∨ ∃ o, r.outcome? = some o) : Nearer (u.heed task r) s := by
  by_cases hd : 0 < s.duty.rank
  · exact nearer_of_duty hm hd
  · obtain ⟨o, ho⟩ := h.resolve_left hd
    have hglance : s.duty = .glancing := by
      cases hdu : s.duty <;> rw [hdu] at hd <;> first | rfl | exact absurd (by simp [Duty.rank]) hd
    refine nearer_of_rank hm hglance.symm ?_
    have hlt := rank_heed (w := u.worker.changeTask task fun t => { t with runs := t.runs + 1 })
      (hw ▸ hp) ho
    have hsame : (u.worker.changeTask task fun t => { t with runs := t.runs + 1 }).rank =
        s.worker.rank := by rw [← hw]; rfl
    dsimp only [heed]
    rw [hst]
    omega

theorem nearer_workerStep (h : Sound base s) (hb : behave.Public) (hpos : 0 < base.tickLength)
    (hq : s.clock.ticking = false) {due : Bool} (hs : s.workerStep behave due = some t) :
    Nearer t s := by
  unfold Scene.workerStep at hs
  split at hs
  · rename_i task hp
    have hbegun := h.owned.of_inRun (Sound.inRun_of_awaited (h.running_awaited hp))
    unfold Scene.dutyStep at hs
    cases hd : s.duty with
    | glancing =>
      rw [hd] at hs
      dsimp only at hs
      rw [hq] at hs
      cases hs
      exact nearer_heed rfl rfl rfl hp (.inr ⟨_, rfl⟩)
    | checking =>
      rw [hd] at hs
      dsimp only at hs
      rw [hq] at hs
      cases hs
      exact nearer_heed rfl rfl rfl hp (.inr ⟨_, rfl⟩)
    | minding =>
      rw [hd] at hs
      dsimp only at hs
      have hrank : 0 < s.duty.rank := by rw [hd]; simp [Duty.rank]
      split at hs <;> cases hs <;> exact nearer_heed rfl rfl rfl hp (.inl hrank)
    | ticking d =>
      rw [hd] at hs
      dsimp only at hs
      have hrank : s.duty.rank = 3 := by rw [hd]; rfl
      rcases hstep : s.dispatchStep behave .scheduler d with _ | ⟨u, r⟩ <;> rw [hstep] at hs
      · cases hs
      obtain ⟨hticks, -⟩ := dispatchStep_comes hb .scheduler hbegun
        (h.traced.tickLength ▸ hpos) h.traced.time (h.traced.duty d hd) hstep
      rcases r with d' | e | o | o <;> cases hs
      · exact nearer_of_duty_tick hticks.main hd rfl (dispatchStep_next hstep).1
      all_goals
        refine nearer_of_duty hticks.main ?_
        rw [hrank]
        simp [Duty.rank, heed]
  · rename_i hrun
    obtain ⟨w, hw, rfl⟩ := Option.map_eq_some_iff.mp hs
    have hlt := rank_step? hw hrun
    refine nearer_of_rank rfl rfl ?_
    dsimp only
    omega

/-! ## Steps of the thread that starts the clock -/

theorem nearer_mainStep (hstart : s.main ≠ .outside) (hq : s.clock.ticking = false)
    (hs : s.mainStep behave false = some t) : Nearer t s := by
  have go {t : Scene σ} {m : Main σ} (hm : s.main = m) (ht : t.main.rank < m.rank) : Nearer t s :=
    nearer_of_main (hm ▸ ht)
  unfold Scene.mainStep at hs
  cases hm : s.main <;> rw [hm] at hs <;> dsimp only at hs
  case outside => exact absurd hm hstart
  case looking =>
    cases hs
    exact go hm (by simp [hq, Main.rank])
  case choosing => split at hs <;> cases hs <;> exact go hm (by simp [Main.rank])
  case scheduling =>
    cases hs
    apply go hm
    unfold Scene.scheduleStep
    split
    · split
      · simp [Main.rank]
      · dsimp only
        split <;> simp [Main.rank]
    · simp [Main.rank]
  case awaiting task =>
    unfold Scene.awaitStep at hs
    split at hs <;> cases hs <;> exact go hm (by simp [Main.rank])
  case polling task =>
    cases hs
    exact go hm (by simp [hq, Main.rank])
  case cancelling task =>
    cases hs
    apply go hm
    dsimp only
    split <;> simp [Main.rank]
  case clearing e => cases e <;> cases hs <;> exact go hm (by simp [Main.rank])
  case free =>
    cases hs
    exact go hm (by simp [hq, Main.rank])
  case wishing => split at hs <;> cases hs <;> exact go hm (by simp [Main.rank])
  case ticking d =>
    rcases hstep : s.dispatchStep behave .caller d with _ | ⟨u, r⟩ <;> rw [hstep] at hs
    · cases hs
    rcases r with d' | e | o | o <;> cases hs
    · exact nearer_of_tick hm rfl (dispatchStep_next hstep).1
    all_goals exact go hm (by simp [Main.rank])
  case applying => split at hs <;> cases hs <;> exact go hm (by simp [Main.rank])
  case leaving i e =>
    split at hs <;> cases hs
    exact go hm (by simp [Main.rank])
  case finished ending => cases hs
  all_goals cases hs; exact go hm (by simp [Main.rank])

/-- On a clock that ticks no more, whoever goes on by himself brings the scene nearer to its end. -/
theorem Sound.nearer (h : Sound base s) (hb : behave.Public) (hpos : 0 < base.tickLength)
    (hstart : s.main ≠ .outside) (hq : s.clock.ticking = false) {a : Act} (ha : a.isInner = true)
    (hs : s.step behave a = some t) : Nearer t s := by
  cases a with
  | main alarm =>
    cases alarm with
    | false => exact nearer_mainStep hstart hq hs
    | true => cases ha
  | worker due => exact nearer_workerStep h hb hpos hq hs
  | stop i =>
    obtain ⟨x, hx, hs⟩ := Option.bind_eq_some_iff.mp hs
    exact nearer_stopStep hx hs
  | issue => cases ha
  | call c => cases ha

/-! ## Someone can go on -/

/-- The run is over, and so are all the stops. -/
def Returned (s : Scene σ) : Prop :=
  (∃ ending, s.main = .finished ending) ∧ ∀ x ∈ s.stops, x.phase.returned = true

/-- Someone goes on by himself. -/
def Goes (behave : Behaviour σ) (s : Scene σ) : Prop :=
  ∃ a t, a.isInner = true ∧ s.step behave a = some t

theorem goes_of_worker (hw : Waits s) (hstops : ∀ x ∈ s.stops, x.own = true →
      x.phase.returned = true) (hexit : s.worker.phase ≠ .exited)
    (hbusy : s.worker.phase = .idle → s.worker.queue ≠ []) : Goes behave s := by
  refine ⟨.worker true, ?_⟩
  simp only [step, workerStep, Act.isInner, true_and]
  by_cases hrun : ∃ i, s.worker.phase = .running i
  · obtain ⟨i, hp⟩ := hrun
    simp only [hp, Scene.dutyStep]
    cases hd : s.duty with
    | glancing =>
      dsimp only
      split <;> exact ⟨_, rfl⟩
    | checking =>
      dsimp only
      split <;> exact ⟨_, rfl⟩
    | minding =>
      dsimp only
      split <;> exact ⟨_, rfl⟩
    | ticking d =>
      have hready : ∀ j, d.awaits? = some j → ∃ x, s.stops[j]? = some x ∧
          x.phase.returned = true := by
        intro j hj
        obtain ⟨x, hx, hown⟩ := hw.duty j (by rw [hd]; exact hj)
        exact ⟨x, hx, hstops x (List.mem_of_getElem? hx) hown⟩
      obtain ⟨⟨u, r⟩, hr⟩ := dispatchStep_ready behave .scheduler hready
      simp only [hr]
      rcases r with d' | e | o | o <;> exact ⟨_, rfl⟩
  · have hrun' : ∀ i, s.worker.phase ≠ .running i := fun i hi => hrun ⟨i, hi⟩
    obtain ⟨v, hv⟩ := Worker.step?_of_busy hexit hbusy hrun'
    refine ⟨{ s with worker := v }, ?_⟩
    split
    · rename_i i hi
      exact absurd hi (hrun' i)
    · rw [hv]
      rfl

/-- A stop that cannot go on waits for the worker. -/
theorem stopStep_ready {i : Nat} {x : Stop} (hx : x.phase.returned = false)
    (hwait : ∀ sch, x.phase = .joining sch → x.own = true ∨ s.worker.phase = .exited) :
    ∃ t, s.stopStep i x = some t := by
  unfold Scene.stopStep
  cases hp : x.phase <;> rw [hp] at hx <;> dsimp only
  case entering => split <;> exact ⟨_, rfl⟩
  case takingTask => split <;> exact ⟨_, rfl⟩
  case takingScheduler => split <;> exact ⟨_, rfl⟩
  case joining sch =>
    rw [if_pos (hwait sch hp)]
    exact ⟨_, rfl⟩
  case done => cases hx
  case refused e => cases hx
  all_goals exact ⟨_, rfl⟩

theorem goes_of_stop {i : Nat} {x : Stop} (hx : s.stops[i]? = some x)
    (h : ∃ t, s.stopStep i x = some t) : Goes behave s := by
  obtain ⟨t, ht⟩ := h
  exact ⟨.stop i, t, rfl, by simp [step, hx, ht]⟩

/-- While a stop has not returned, someone can go on. -/
theorem goes_of_unreturned (hw : Waits s) {x : Stop} (hx : x ∈ s.stops)
    (hret : x.phase.returned = false) : Goes behave s := by
  obtain ⟨i, hi⟩ := List.mem_iff_getElem?.mp hx
  by_cases hown : ∃ y ∈ s.stops, y.own = true ∧ y.phase.returned = false
  · -- a stop on the scheduler thread waits for nobody
    obtain ⟨y, hy, hown, hyret⟩ := hown
    obtain ⟨j, hj⟩ := List.mem_iff_getElem?.mp hy
    exact goes_of_stop hj (stopStep_ready hyret fun _ _ => .inl hown)
  · by_cases hexit : s.worker.phase = .exited
    · exact goes_of_stop hi (stopStep_ready hret fun _ _ => .inr hexit)
    · by_cases hjoin : ∃ sch, x.phase = .joining sch
      · -- the worker was told to exit, so there is something in its queue
        obtain ⟨sch, hp⟩ := hjoin
        have hend := Worker.ending_iff.mp (hw.told x hx (by rw [hp]; rfl))
        have hmem := hend.resolve_left hexit
        refine goes_of_worker hw ?_ hexit ?_
        · intro y hy hyown
          cases hyret : y.phase.returned with
          | true => rfl
          | false => exact absurd ⟨y, hy, hyown, hyret⟩ hown
        · intro _ hq
          rw [hq] at hmem
          cases hmem
      · exact goes_of_stop hi (stopStep_ready hret fun sch hp => absurd ⟨sch, hp⟩ hjoin)

theorem goes_of_main (h : Sound base s) (hw : Waits s) (hstart : s.main ≠ .outside)
    (hstops : ∀ x ∈ s.stops, x.phase.returned = true) (hover : ¬ ∃ e, s.main = .finished e) :
    Goes behave s := by
  have main (hm : ∃ t, s.mainStep behave false = some t) : Goes behave s := by
    obtain ⟨t, ht⟩ := hm
    exact ⟨.main false, t, rfl, ht⟩
  by_cases hawait : ∃ task, s.main = .awaiting task ∧ (s.worker.receive task).2 = .nothingYet
  · obtain ⟨task, -, hrec⟩ := hawait
    obtain ⟨hexit, hbusy⟩ := Worker.busy_of_receive hrec
    exact goes_of_worker hw (fun x hx _ => hstops x hx) hexit hbusy
  · apply main
    have hstands := h.owned.stands
    unfold Stands at hstands
    unfold Scene.mainStep
    cases hm : s.main <;> rw [hm] at hstands <;> dsimp only at hstands ⊢
    case outside => exact absurd hm hstart
    case choosing => split <;> exact ⟨_, rfl⟩
    case awaiting task =>
      unfold Scene.awaitStep
      rcases hrec : s.worker.receive task with ⟨w, o | _ | _⟩
      · cases o <;> exact ⟨_, rfl⟩
      · exact absurd ⟨task, hm, by rw [hrec]⟩ hawait
      · exact ⟨_, rfl⟩
    case clearing e => cases e <;> exact ⟨_, rfl⟩
    case wishing => split <;> exact ⟨_, rfl⟩
    case ticking d =>
      have hready : ∀ j, d.awaits? = some j → ∃ x, s.stops[j]? = some x ∧
          x.phase.returned = true := by
        intro j hj
        obtain ⟨x, hx⟩ := hw.main j (by rw [hm]; exact hj)
        exact ⟨x, hx, hstops x (List.mem_of_getElem? hx)⟩
      obtain ⟨⟨u, r⟩, hr⟩ := dispatchStep_ready behave .caller hready
      simp only [hr]
      rcases r with d' | e | o | o <;> exact ⟨_, rfl⟩
    case applying => split <;> exact ⟨_, rfl⟩
    case leaving i e =>
      obtain ⟨x, hx, hbegun⟩ := hstands
      have hret := hstops x (List.mem_of_getElem? hx)
      have hdone := Halt.done_of_returned hbegun hret
      rw [hx, Option.map_some, hdone, if_pos rfl]
      exact ⟨_, rfl⟩
    case finished e => exact absurd ⟨e, hm⟩ hover
    all_goals exact ⟨_, rfl⟩

/-- Until everyone has returned, someone can go on. -/
theorem Sound.goes (h : Sound base s) (hw : Waits s) (hstart : s.main ≠ .outside)
    (hret : ¬ s.Returned) : Goes behave s := by
  by_cases hstops : ∀ x ∈ s.stops, x.phase.returned = true
  · exact goes_of_main h hw hstart hstops fun hover => hret ⟨hover, hstops⟩
  · obtain ⟨x, hx⟩ := Classical.not_forall.mp hstops
    obtain ⟨hx, hxret⟩ := Classical.not_imp.mp hx
    exact goes_of_unreturned hw hx (by simpa using hxret)

/-! ## Everyone returns -/

/-- Whoever goes on by himself, and in whatever order, in the end everyone has returned. -/
inductive Ends (behave : Behaviour σ) : Scene σ → Prop where
  | intro {s : Scene σ} (stuck : ¬ Goes behave s → s.Returned)
      (next : ∀ a t, a.isInner = true → s.step behave a = some t → Ends behave t) : Ends behave s

theorem Sound.ends (h : Sound base s) (hw : Waits s) (hb : behave.Public)
    (hpos : 0 < base.tickLength) (hbegun : s.clock.pacing.stage.isInitial = false)
    (hq : s.clock.ticking = false) : Ends behave s := by
  induction s using nearer_wf.induction with
  | _ s ih =>
    have hstart : s.main ≠ .outside := by
      intro hm
      have hstands := h.owned.stands
      unfold Stands at hstands
      rw [hm] at hstands
      exact absurd hstands (by simp [hbegun])
    constructor
    · intro hgo
      exact Classical.byContradiction fun hret => hgo (h.goes hw hstart hret)
    · intro a t ha hs
      have hway := h.oneWay hb hpos hbegun hs
      exact ih t (h.nearer hb hpos hstart hq ha hs) (h.step hb hpos hs) (hw.step h hb hpos hs)
        hway.begun (hway.quiet hq)

/-- Some threads go on by themselves, and that leads from `s` to `t`. -/
def Leads (behave : Behaviour σ) (s t : Scene σ) : Prop :=
  ∃ acts : List Act, acts.all Act.isInner = true ∧ s.play behave acts = some t

namespace Leads

variable {u : Scene σ}

theorem refl (behave : Behaviour σ) (s : Scene σ) : Leads behave s s := ⟨[], rfl, rfl⟩

theorem trans (hst : Leads behave s t) (htu : Leads behave t u) : Leads behave s u := by
  obtain ⟨acts, hacts, hs⟩ := hst
  obtain ⟨more, hmore, ht⟩ := htu
  refine ⟨acts ++ more, by rw [List.all_append, hacts, hmore]; rfl, ?_⟩
  unfold Scene.play at hs ht ⊢
  rw [List.foldlM_append, hs]
  exact ht

theorem step {a : Act} (ha : a.isInner = true) (hs : s.step behave a = some t) :
    Leads behave s t := by
  refine ⟨[a], by simp [ha], ?_⟩
  unfold Scene.play
  rw [List.foldlM_cons, hs]
  rfl

end Leads

/-- So there is a way on which they do. -/
theorem Ends.leads (h : Ends behave s) : ∃ t, Leads behave s t ∧ t.Returned := by
  induction h with
  | @intro s stuck next ih =>
    by_cases hgo : Goes behave s
    · obtain ⟨a, t, ha, hs⟩ := hgo
      obtain ⟨u, hu, hret⟩ := ih a t ha hs
      exact ⟨u, (Leads.step ha hs).trans hu, hret⟩
    · exact ⟨s, .refl behave s, stuck hgo⟩

end Scene

end Metronome
