-- What happens to a worker, and what the worker sees of it. Clients and the
-- worker take turns in any order. A course is such an order with everything
-- that the worker has seen on the way.
import Metronome.Proofs.Threads.Returns

namespace Metronome

namespace Worker

/-! ## Acts -/

/-- Something that a client does to a worker, or a step of the worker. Cancelling, telling a worker
to exit and dropping it are two acts each, and others may act in between. -/
inductive Act where
  | schedule (period : Duration) (body : Nat → Report)
  /-- A task that is sent when the worker has left its loop and its channel is still open. -/
  | late (period : Duration) (body : Nat → Report)
  | raise (task : Nat)
  | wake
  | tell
  | unpin
  | receive (task : Nat)
  | step (due : Bool)

def act (w : Worker) : Act → Worker
  | .schedule period body => (w.schedule? period body).getD w
  | .late period body =>
    if w.phase = .exited then
      { w with
        tasks := w.tasks ++ [{ period, body }]
        queue := w.queue ++ [.schedule w.tasks.length] }
    else w
  | .raise task => (w.raiseFlag task).1
  | .wake => w.wake
  | .tell => (w.send? .shutDown).getD w
  | .unpin => w.releasePin
  | .receive task => (w.receive task).1
  | .step due => (w.step? due).getD w

/-! ## Sights -/

/-- Something that the worker sees. -/
inductive Sight where
  | took (task : Nat)
  /-- A task that came while another one was under way. -/
  | rejected (task under : Nat)
  | ran (task : Nat) (r : Report)
  | sawFlag (task : Nat)
  /-- The worker was told to exit, with this task under way or none. -/
  | sawExit (under : Option Nat)
  deriving DecidableEq, Repr

def Sight.task? : Sight → Option Nat
  | .took task | .rejected task _ | .ran task _ | .sawFlag task => some task
  | .sawExit under => under

/-- What the worker sees in a step, if it takes one. -/
def sight? (w : Worker) : Option Sight :=
  match w.phase, w.queue with
  | .idle, .schedule task :: _ => some (.took task)
  | .idle, .shutDown :: _ => some (.sawExit none)
  | .checking task, _ => if w.isCancelled task then some (.sawFlag task) else none
  | .resting task, .schedule other :: _ => some (.rejected other task)
  | .resting task, .shutDown :: _ => some (.sawExit (some task))
  | .running task, _ => (w.tasks[task]?).map fun t => .ran task (t.body t.runs)
  | _, _ => none

def sights (w : Worker) : Act → List Sight
  | .step _ => w.sight?.toList
  | _ => []

/-! ## Courses -/

/-- A worker, everything that has happened to it, and everything that it has seen. -/
structure Course where
  worker : Worker
  acts : List Act := []
  seen : List Sight := []

namespace Course

def spawned (core : Option Core) (pins : Pins) : Course := { worker := spawn core pins }

def step (c : Course) (a : Act) : Course :=
  { worker := c.worker.act a, acts := c.acts ++ [a], seen := c.seen ++ c.worker.sights a }

def play (c : Course) (acts : List Act) : Course := acts.foldl step c

/-- What was seen of one task. -/
def story (c : Course) (task : Nat) : List Sight := c.seen.filter (·.task? = some task)

variable {c : Course}

@[simp] theorem play_nil : c.play [] = c := rfl

@[simp] theorem play_cons (a : Act) (acts : List Act) :
    c.play (a :: acts) = (c.step a).play acts := rfl

theorem play_acts (acts : List Act) : (c.play acts).acts = c.acts ++ acts := by
  induction acts generalizing c with
  | nil => simp
  | cons a acts ih => simp [ih, step]

/-- To cancel a task is to raise its flag and, the first time, to wake the worker. -/
theorem play_cancel (c : Course) (i : Nat) :
    (c.play (if c.worker.isCancelled i then [.raise i] else [.raise i, .wake])).worker =
      c.worker.cancel i := by
  cases h : c.worker.isCancelled i <;> simp [step, act, cancel, raiseFlag, h]

theorem play_exit (c : Course) : (c.play [.tell, .unpin]).worker = c.worker.tellToExit := rfl

/-- What every act keeps, every course keeps. -/
theorem play_keeps {I : Course → Prop} (hI : ∀ c a, I c → I (c.step a)) (acts : List Act)
    (h : I c) : I (c.play acts) := by
  induction acts generalizing c with
  | nil => exact h
  | cons a acts ih => exact ih (hI c a h)

end Course

/-! ## One act at a time -/

/-- The commands that an act sends to a worker that still receives any. -/
def sent (w : Worker) : Act → List Command
  | .schedule _ _ | .late _ _ => [.schedule w.tasks.length]
  | .wake => [.wake]
  | .tell => [.shutDown]
  | _ => []

theorem sent_tasks (w : Worker) (a : Act) : (w.sent a).filterMap Command.task? = [] ∨
    (w.sent a).filterMap Command.task? = [w.tasks.length] := by
  cases a <;> simp [sent, Command.task?]

theorem sent_cases (w : Worker) (a : Act) : w.sent a = [] ∨ ∃ c, w.sent a = [c] := by
  cases a <;> simp [sent]

theorem shutDown_mem_sent {w : Worker} {a : Act} (h : .shutDown ∈ w.sent a) : a = .tell := by
  cases a <;> simp [sent] at h ⊢

variable {w v : Worker} {a : Act} {i j : Nat}

/-- What an act that is no step of the worker leaves: the phase, the tasks as far as they have run
and ended, and the commands that were there. -/
structure Calm (a : Act) (w v : Worker) : Prop where
  phase : v.phase = w.phase
  tasks : ∀ (i : Nat) (t : Task), w.tasks[i]? = some t → ∃ t', v.tasks[i]? = some t' ∧
    t'.body = t.body ∧ t'.runs = t.runs ∧ t'.outcomes = t.outcomes ∧
    (t.cancelled = true → t'.cancelled = true) ∧
    (t'.cancelled = true → t.cancelled = true ∨ a = .raise i)
  fresh : ∀ (i : Nat) (t' : Task), v.tasks[i]? = some t' → w.tasks[i]? = none →
    t'.runs = 0 ∧ t'.outcomes = [] ∧ t'.cancelled = false
  queue : v.queue = w.queue ∨ v.queue = w.queue ++ w.sent a ∧
    ∀ i ∈ (w.sent a).filterMap Command.task?, i < v.tasks.length

/-- A change in which no task takes part. -/
theorem calm_of_tasks (hp : v.phase = w.phase) (ht : v.tasks = w.tasks)
    (hq : v.queue = w.queue ∨ v.queue = w.queue ++ w.sent a ∧
      (w.sent a).filterMap Command.task? = []) : Calm a w v where
  phase := hp
  tasks i t h := ⟨t, ht ▸ h, rfl, rfl, rfl, id, .inl⟩
  fresh i t' h hnone := by
    rw [ht, hnone] at h
    cases h
  queue := hq.imp_right fun h => ⟨h.1, by simp [h.2]⟩

theorem calm_changeTask (w : Worker) (i : Nat) {f : Task → Task}
    (hf : ∀ t, (f t).body = t.body ∧ (f t).runs = t.runs ∧ (f t).outcomes = t.outcomes ∧
      (t.cancelled = true → (f t).cancelled = true) ∧
      ((f t).cancelled = true → t.cancelled = true ∨ a = .raise i)) :
    Calm a w (w.changeTask i f) where
  phase := rfl
  tasks j t ht := by
    refine ⟨if i = j then f t else t, by rw [getElem?_changeTask, ht]; rfl, ?_⟩
    split
    · rename_i hij
      subst hij
      exact hf t
    · exact ⟨rfl, rfl, rfl, id, .inl⟩
  fresh j t' ht' hnone := by
    rw [getElem?_changeTask, hnone] at ht'
    cases ht'
  queue := .inl rfl

theorem calm_send (w : Worker) {c : Command} (ha : w.sent a = [c]) (hc : c.task? = none) :
    Calm a w ((w.send? c).getD w) := by
  unfold send?
  split
  · exact calm_of_tasks rfl rfl (.inl rfl)
  · exact calm_of_tasks rfl rfl (.inr ⟨by rw [ha]; rfl, by simp [ha, hc]⟩)

/-- A task that is new in the list and in the queue. -/
theorem calm_newTask (w : Worker) (period : Duration) (body : Nat → Report)
    (ha : w.sent a = [.schedule w.tasks.length]) :
    Calm a w { w with
      tasks := w.tasks ++ [{ period, body }]
      queue := w.queue ++ [.schedule w.tasks.length] } where
  phase := rfl
  tasks i t ht := ⟨t, (List.getElem?_append_left (List.getElem?_eq_some_iff.mp ht).1).trans ht,
    rfl, rfl, rfl, id, .inl⟩
  fresh i t' ht' hnone := by
    rw [List.getElem?_append_right (List.getElem?_eq_none_iff.mp hnone)] at ht'
    have hmem := List.mem_of_getElem? ht'
    rw [List.mem_singleton.mp hmem]
    exact ⟨rfl, rfl, rfl⟩
  queue := .inr ⟨by rw [ha], by simp [ha, Command.task?]⟩

/-- Every act is a step of the worker, or it is calm and the worker sees nothing. -/
theorem calm_act (w : Worker) (a : Act) :
    (∃ due, a = .step due) ∨ w.sights a = [] ∧ Calm a w (w.act a) := by
  have idle (a : Act) : Calm a w w := calm_of_tasks rfl rfl (.inl rfl)
  cases a with
  | step due => exact .inl ⟨due, rfl⟩
  | schedule period body =>
    refine .inr ⟨rfl, ?_⟩
    simp only [act, schedule?, send?]
    split
    · exact idle _
    · exact calm_newTask w period body rfl
  | late period body =>
    refine .inr ⟨rfl, ?_⟩
    simp only [act]
    split
    · exact calm_newTask w period body rfl
    · exact idle _
  | raise task =>
    exact .inr ⟨rfl, calm_changeTask w task fun _ =>
      ⟨rfl, rfl, rfl, fun _ => rfl, fun _ => .inr rfl⟩⟩
  | wake => exact .inr ⟨rfl, calm_send w rfl rfl⟩
  | tell => exact .inr ⟨rfl, calm_send w rfl rfl⟩
  | unpin =>
    refine .inr ⟨rfl, ?_⟩
    simp only [act, releasePin]
    split
    · exact calm_of_tasks rfl rfl (.inl rfl)
    · exact idle _
  | receive task =>
    refine .inr ⟨rfl, ?_⟩
    simp only [act, receive]
    split
    · exact idle _
    · split
      · exact calm_changeTask w task fun _ => ⟨rfl, rfl, rfl, id, .inl⟩
      · exact idle _

/-! ## One step at a time -/

/-- A step of a worker, with what the worker sees in it. -/
inductive Step (w : Worker) : Option Sight → Worker → Prop where
  | take {i : Nat} {q : List Command} (hp : w.phase = .idle) (hq : w.queue = .schedule i :: q) :
      Step w (some (.took i)) { w with queue := q, phase := .checking i }
  | stir {q : List Command} (hp : w.phase = .idle) (hq : w.queue = .wake :: q) :
      Step w none { w with queue := q, phase := .idle }
  | leave {q : List Command} (hp : w.phase = .idle) (hq : w.queue = .shutDown :: q) :
      Step w (some (.sawExit none)) { w with queue := q, phase := .exited }
  | heed {i : Nat} (hp : w.phase = .checking i) (hc : w.isCancelled i = true) :
      Step w (some (.sawFlag i)) { w.report i .cancelled with phase := .idle }
  | rest {i : Nat} (hp : w.phase = .checking i) (hc : w.isCancelled i = false) :
      Step w none { w with phase := .resting i }
  | reject {i j : Nat} {q : List Command} (hp : w.phase = .resting i)
      (hq : w.queue = .schedule j :: q) : Step w (some (.rejected j i))
        { report { w with queue := q } j (.failed .alreadyRunning) with phase := .checking i }
  | wakeUp {i : Nat} {q : List Command} (hp : w.phase = .resting i) (hq : w.queue = .wake :: q) :
      Step w none { w with queue := q, phase := .checking i }
  | quit {i : Nat} {q : List Command} (hp : w.phase = .resting i) (hq : w.queue = .shutDown :: q) :
      Step w (some (.sawExit (some i)))
        { report (flag { w with queue := q } i) i .cancelled with phase := .exited }
  | begin {i : Nat} (hp : w.phase = .resting i) (hq : w.queue = []) :
      Step w none { w with queue := [], phase := .running i }
  | again {i : Nat} {t : Task} (hp : w.phase = .running i) (ht : w.tasks[i]? = some t)
      (hr : t.body t.runs = .goOn) : Step w (some (.ran i .goOn))
        { w.changeTask i fun t => { t with runs := t.runs + 1 } with phase := .checking i }
  | finish {i : Nat} {t : Task} {o : Outcome} (hp : w.phase = .running i)
      (ht : w.tasks[i]? = some t) (ho : (t.body t.runs).outcome? = some o) (cancelled : Bool) :
      Step w (some (.ran i (t.body t.runs)))
        { w.changeTask i fun t => { t with
            runs := t.runs + 1
            cancelled := t.cancelled || cancelled
            outcomes := t.outcomes ++ [o] } with phase := .idle }
  | lost {i : Nat} (hp : w.phase = .running i) (ht : w.tasks[i]? = none) :
      Step w none { w with phase := .idle }

namespace Step

variable {s : Option Sight}

/-- Commands are obeyed in the order in which they came, and none comes in a step. -/
theorem queue_suffix (h : Step w s v) : v.queue <:+ w.queue := by
  cases h with
  | take hp hq | stir hp hq | leave hp hq | reject hp hq | wakeUp hp hq | quit hp hq =>
    rw [hq]
    exact List.suffix_cons _ _
  | begin => exact List.nil_suffix
  | _ => exact List.suffix_refl _

/-- No task comes in a step, and those that stay keep their order. -/
theorem load_sublist (h : Step w s v) : v.load.Sublist w.load := by
  cases h with
  | take hp hq =>
    simp only [load, hp, hq, Phase.task?, Option.toList_none, List.nil_append,
      List.filterMap_cons, Command.task?]
    exact .refl _
  | stir hp hq | leave hp hq | wakeUp hp hq =>
    simp only [load, hp, hq, Phase.task?, Option.toList_none, List.filterMap_cons, Command.task?]
    exact .refl _
  | heed hp | finish hp | lost hp =>
    simp only [load, hp]
    exact List.sublist_append_right _ _
  | quit hp hq =>
    simp only [load, hp, hq, List.filterMap_cons, Command.task?]
    exact List.sublist_append_right _ _
  | reject hp hq =>
    simp only [load, hp, hq, List.filterMap_cons, Command.task?]
    exact (List.sublist_cons_self _ _).append_left _
  | rest hp | again hp =>
    simp only [load, hp]
    exact .refl _
  | begin hp hq =>
    simp only [load, hp, hq]
    exact .refl _

theorem length_tasks (h : Step w s v) : v.tasks.length = w.tasks.length := by
  cases h with
  | heed | reject | finish | again => exact List.length_modify _ _ _
  | quit => simp [report, flag, raiseFlag, changeTask]
  | _ => rfl

end Step

theorem outcome?_eq_none {r : Report} : r.outcome? = none ↔ r = .goOn := by
  cases r <;> simp [Report.outcome?]

theorem changeTask_changeTask (w : Worker) (i : Nat) (f g : Task → Task) :
    (w.changeTask i f).changeTask i g = w.changeTask i (g ∘ f) := by
  simp only [changeTask]
  rw [List.modify_modify_eq]

theorem run_steps (hp : w.phase = .running i) : Step w w.sight? (w.run i) := by
  cases ht : w.tasks[i]? with
  | none =>
    have hs : w.sight? = none := by simp [sight?, hp, ht]
    rw [hs, run, ht]
    exact .lost hp ht
  | some t =>
    have hs : w.sight? = some (.ran i (t.body t.runs)) := by simp [sight?, hp, ht]
    rw [hs, run, ht]
    simp only [Worker.heed]
    cases ho : (t.body t.runs).outcome? with
    | none =>
      rw [outcome?_eq_none.mp ho]
      exact .again hp ht (outcome?_eq_none.mp ho)
    | some o =>
      have hfinish := Step.finish hp ht ho (decide (t.body t.runs = .cancel))
      by_cases hr : t.body t.runs = .cancel
      · simpa [hr, flag, raiseFlag, report, changeTask_changeTask, Function.comp_def] using hfinish
      · simpa [hr, report, changeTask_changeTask, Function.comp_def] using hfinish

/-- What the worker does and sees in a step. -/
theorem step?_steps {due : Bool} (hs : w.step? due = some v) : Step w w.sight? v := by
  cases hp : w.phase with
  | exited =>
    simp only [step?, hp] at hs
    cases hs
  | idle =>
    rcases hq : w.queue with _ | ⟨_ | _ | _, q⟩ <;> simp only [step?, hp, hq] at hs <;> cases hs <;>
      simp only [sight?, hp, hq]
    · exact .take hp hq
    · exact .stir hp hq
    · exact .leave hp hq
  | checking i =>
    cases hc : w.isCancelled i <;> simp only [step?, hp, hc] at hs <;> cases hs <;>
      simp only [sight?, hp, hc]
    · exact .rest hp hc
    · exact .heed hp hc
  | resting i =>
    rcases hq : w.queue with _ | ⟨_ | _ | _, q⟩ <;> simp only [step?, hp, hq] at hs
    · split at hs <;> cases hs
      simp only [sight?, hp, hq]
      exact .begin hp hq
    all_goals cases hs; simp only [sight?, hp, hq]
    · exact .reject hp hq
    · exact .wakeUp hp hq
    · exact .quit hp hq
  | running i =>
    simp only [step?, hp] at hs
    cases hs
    exact run_steps hp

/-- A worker that has to wait sees nothing. -/
theorem sight?_of_waiting {due : Bool} (hs : w.step? due = none) : w.sight? = none := by
  cases hp : w.phase with
  | exited => simp [sight?, hp]
  | idle => rcases hq : w.queue with _ | ⟨_ | _ | _, q⟩ <;> simp_all [step?, sight?]
  | checking i =>
    simp only [step?, hp] at hs
    split at hs <;> cases hs
  | resting i => rcases hq : w.queue with _ | ⟨_ | _ | _, q⟩ <;> simp_all [step?, sight?]
  | running i => simp [step?, hp] at hs

/-- Every act is calm or a step of the worker. -/
theorem act_cases (w : Worker) (a : Act) : w.sights a = [] ∧ Calm a w (w.act a) ∨
    ∃ due s, a = .step due ∧ w.sights a = s.toList ∧ w.step? due = some (w.act a) ∧
      Step w s (w.act a) := by
  rcases calm_act w a with ⟨due, rfl⟩ | h
  · cases hs : w.step? due with
    | none =>
      left
      simp only [sights, act, hs, sight?_of_waiting hs]
      exact ⟨rfl, calm_of_tasks rfl rfl (.inl rfl)⟩
    | some v =>
      right
      simp only [act, hs, Option.getD_some]
      exact ⟨due, w.sight?, rfl, rfl, hs, step?_steps hs⟩
  · exact .inl h

end Worker

end Metronome
