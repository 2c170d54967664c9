-- What a lone client can count on. None of its tasks is turned away, a task
-- that it cancels runs at most once more and then ends, and what is left of an
-- old cancelling does no harm to a new task.
import Metronome.Proofs.Worker.Session

namespace Metronome

namespace Worker

variable {w v : Worker} {a : Act} {i j : Nat}

/-! ## How soon a task ends -/

/-- The steps that are left for a cancelled task that is under way. -/
def Phase.delay : Phase → Nat
  | .checking _ => 1
  | .resting _ | .running _ => 2
  | .idle | .exited => 0

/-- The steps for all that is not behind a task in the queue, when no task is run any more. -/
def ahead (i : Nat) : List Command → Nat
  | [] => 0
  | .schedule j :: q => if j = i then 2 else 2 + ahead i q
  | _ :: q => 1 + ahead i q

/-- How many steps it takes until a cancelled task has ended. -/
def untilEnd (w : Worker) (i : Nat) : Nat :=
  if w.phase.task? = some i then w.phase.delay else w.phase.delay + ahead i w.queue

/-- The runs of a task that have begun. -/
def begun (w : Worker) (i : Nat) : Nat := w.runs i + if w.phase = .running i then 1 else 0

theorem ahead_append {q : List Command} (h : i ∈ q.filterMap Command.task?) (l : List Command) :
    ahead i (q ++ l) = ahead i q := by
  induction q with
  | nil => cases h
  | cons c q ih =>
    cases c with
    | schedule j =>
      simp only [List.cons_append, ahead]
      by_cases hj : j = i
      · rw [if_pos hj, if_pos hj]
      · rw [if_neg hj, if_neg hj, ih]
        simpa [Command.task?, Ne.symm hj] using h
    | wake => exact congrArg (1 + ·) (ih h)
    | shutDown => exact congrArg (1 + ·) (ih h)

theorem ahead_pos {q : List Command} (h : i ∈ q.filterMap Command.task?) : 0 < ahead i q := by
  cases q with
  | nil => cases h
  | cons c q =>
    cases c <;> simp only [ahead]
    · split <;> omega
    · omega
    · omega

theorem untilEnd_pos (h : i ∈ w.load) : 0 < w.untilEnd i := by
  unfold untilEnd
  split
  · rename_i hp
    cases hw : w.phase <;> rw [hw] at hp <;> cases hp <;> simp [Phase.delay]
  · rename_i hp
    refine Nat.add_pos_right _ (ahead_pos ?_)
    refine (List.mem_append.mp h).resolve_left fun hm => hp ?_
    simpa using hm

theorem Calm.untilEnd (h : Calm a w v) (hi : i ∈ w.load) : v.untilEnd i = w.untilEnd i := by
  unfold Worker.untilEnd
  rw [h.phase]
  by_cases hp : w.phase.task? = some i
  · rw [if_pos hp, if_pos hp]
  · have hq : i ∈ w.queue.filterMap Command.task? := by
      refine (List.mem_append.mp hi).resolve_left fun hm => hp ?_
      simpa using hm
    rw [if_neg hp, if_neg hp]
    rcases h.queue with he | ⟨he, -⟩ <;> rw [he]
    rw [ahead_append hq]

theorem Calm.begun (h : Calm a w v) (hi : i < w.tasks.length) : v.begun i = w.begun i := by
  obtain ⟨t', ht', -, hr, -⟩ := h.tasks i _ (List.getElem?_eq_getElem hi)
  simp [Worker.begun, runs, h.phase, ht', hr, List.getElem?_eq_getElem hi]

theorem runs_changeTask (w : Worker) (i j : Nat) {f : Task → Task} (hf : ∀ t, (f t).runs = t.runs) :
    (w.changeTask i f).runs j = w.runs j := by
  simp only [runs, getElem?_changeTask, Option.map_map]
  congr 2
  funext t
  show Task.runs (if i = j then f t else t) = t.runs
  split
  · exact hf t
  · rfl

/-- A run that ends was begun. -/
theorem runs_addRun (w : Worker) (i j : Nat) {f : Task → Task} (hf : ∀ t, (f t).runs = t.runs + 1) :
    (w.changeTask i f).runs j ≤ w.runs j + if i = j then 1 else 0 := by
  simp only [runs, getElem?_changeTask]
  cases w.tasks[j]? with
  | none => exact Nat.le_add_right _ _
  | some t =>
    by_cases hij : i = j
    · simp [if_pos hij, hf]
    · simp [if_neg hij]

/-- Unless a worker begins to run the task in a step, the runs that have begun stay as many. -/
theorem Step.begun_le {x : Option Sight} (h : Step w x v)
    (hno : w.phase = .resting i → w.queue ≠ []) : v.begun i ≤ w.begun i := by
  have still {p : Phase} (hp : v.phase = p) (hr : v.runs i = w.runs i) (hnot : p ≠ .running i) :
      v.begun i ≤ w.begun i := by
    unfold begun
    rw [hr, hp, if_neg hnot]
    exact Nat.le_add_right _ _
  have ended {j : Nat} (hp : w.phase = .running j) (hnot : v.phase ≠ .running i)
      (hr : v.runs i ≤ w.runs i + if j = i then 1 else 0) : v.begun i ≤ w.begun i := by
    unfold begun
    rw [if_neg hnot, hp]
    simpa using hr
  cases h with
  | heed => exact still rfl (runs_changeTask w _ _ (by simp)) (by simp)
  | reject => exact still rfl (runs_changeTask { w with queue := _ } _ _ (by simp)) (by simp)
  | @quit j q =>
    refine still rfl ?_ (by simp)
    exact (runs_changeTask _ _ _ (by simp)).trans
      (runs_changeTask { w with queue := q } j i (f := fun t => { t with cancelled := true })
        (by simp))
  | @begin j hp hq =>
    refine still rfl rfl ?_
    rintro ⟨rfl⟩
    exact hno hp hq
  | again hp => exact ended hp (by simp) (runs_addRun w _ _ (by simp))
  | finish hp => exact ended hp (by simp) (runs_addRun w _ _ (by simp))
  | _ => exact still rfl rfl (by simp)

/-! ## Sessions are courses -/

/-- What a move is for the worker. -/
def Move.act? : Move → Option Act
  | .schedule period body => some (.schedule period body)
  | .cancel task => some (.raise task)
  | .wake => some .wake
  | .receive task => some (.receive task)
  | .leave => some .tell
  | .unpin => some .unpin
  | .join => none
  | .work due => some (.step due)

def Move.isWork : Move → Bool
  | .work _ => true
  | _ => false

namespace Session

variable {s t : Session} {m : Move} {moves : List Move}

theorem move?_course (hs : s.move? m = some t) :
    t.course = s.course.play m.act?.toList ∧ ∀ i ∈ s.recalled, i ∈ t.recalled := by
  cases m <;> simp only [move?] at hs
  case cancel task =>
    split at hs <;> cases hs
    split
    · exact ⟨rfl, fun _ => List.mem_cons_of_mem _⟩
    · exact ⟨rfl, fun _ => id⟩
  case wake =>
    split at hs <;> cases hs
    exact ⟨rfl, fun _ => List.mem_cons_of_mem _⟩
  case receive task =>
    split at hs
    · split at hs <;> cases hs <;> exact ⟨rfl, fun _ => id⟩
    · cases hs
  case work due =>
    cases hs
    exact ⟨rfl, fun _ => id⟩
  all_goals split at hs <;> cases hs <;> exact ⟨rfl, fun _ => id⟩

theorem play_course (hs : s.play moves = some t) :
    t.course = s.course.play (moves.filterMap Move.act?) := by
  induction moves generalizing s with
  | nil =>
    cases hs
    rfl
  | cons m moves ih =>
    obtain ⟨u, hu, ht⟩ := Option.bind_eq_some_iff.mp hs
    rw [ih ht, (move?_course hu).1, List.filterMap_cons]
    cases m.act? <;> rfl

/-- A move is a step of the worker, or a calm one. -/
theorem move?_cases (hs : s.move? m = some t) :
    (∃ due, m = .work due ∧ t.worker = s.worker.act (.step due)) ∨
      m.isWork = false ∧ ∃ a, Calm a s.worker t.worker := by
  have hcourse := (move?_course hs).1
  have calm {a : Act} (hm : m.act? = some a) (ha : ∀ due, a ≠ .step due) :
      ∃ a, Calm a s.worker t.worker := by
    rw [hm] at hcourse
    have hw : t.worker = s.worker.act a := congrArg Course.worker hcourse
    rw [hw]
    exact ⟨a, ((calm_act s.worker a).resolve_left (not_exists.mpr ha)).2⟩
  cases m with
  | work due => exact .inl ⟨due, rfl, congrArg Course.worker hcourse⟩
  | join =>
    have hw : t.worker = s.worker := congrArg Course.worker hcourse
    rw [hw]
    exact .inr ⟨rfl, .unpin, calm_of_tasks rfl rfl (.inl rfl)⟩
  | _ => exact .inr ⟨rfl, calm rfl (by simp)⟩

namespace Orderly

theorem move (h : Orderly s) (hs : s.move? m = some t) : Orderly t := by
  cases m with
  | schedule => exact h.schedule hs
  | cancel => exact h.cancel hs
  | wake => exact h.wake hs
  | receive => exact h.receive hs
  | leave => exact h.leave hs
  | unpin => exact h.unpin hs
  | join => exact h.join hs
  | work => exact h.work hs

theorem play (h : Orderly s) (hs : s.play moves = some t) : Orderly t :=
  play_keeps (fun _ _ _ h hs => h.move hs) h hs

/-! ## Cancelled tasks -/

/-- A cancelled task is not run once more by a worker that rests over it. -/
theorem begun_le (h : Orderly s) (hi : i ∈ s.recalled) (hs : s.move? m = some t) :
    t.worker.begun i ≤ s.worker.begun i := by
  rcases move?_cases hs with ⟨due, -, hw⟩ | ⟨-, a, hcalm⟩
  · rw [hw, Worker.act]
    cases hstep : s.worker.step? due with
    | none => exact Nat.le_refl _
    | some v =>
      refine (step?_steps hstep).begun_le fun hp hq => ?_
      have hwoken := h.woken_of_recalled hp hi
      rw [hq] at hwoken
      cases hwoken
  · obtain ⟨x, hx, -⟩ := isCancelled_iff.mp (h.recalled i hi)
    exact Nat.le_of_eq (hcalm.begun (List.getElem?_eq_some_iff.mp hx).1)

theorem begun_le_play (h : Orderly s) (hi : i ∈ s.recalled) (hs : s.play moves = some t) :
    t.worker.begun i ≤ s.worker.begun i := by
  have hboth : Orderly t ∧ i ∈ t.recalled ∧ t.worker.begun i ≤ s.worker.begun i := by
    refine play_keeps (I := fun u => Orderly u ∧ i ∈ u.recalled ∧
      u.worker.begun i ≤ s.worker.begun i) ?_ ⟨h, hi, Nat.le_refl _⟩ hs
    rintro u m v ⟨hu, hui, hle⟩ hv
    exact ⟨hu.move hv, (move?_course hv).2 i hui, Nat.le_trans (hu.begun_le hui hv) hle⟩
  exact hboth.2.2

/-- All tasks up to a cancelled one are cancelled. -/
theorem recalled_of_current (h : Orderly s) (hi : i ∈ s.recalled) (hl : i ∈ s.worker.load)
    (hp : s.worker.phase.task? = some j) : j ∈ s.recalled := by
  have hload : s.worker.load = j :: s.worker.queue.filterMap Command.task? :=
    Course.Kept.load_eq hp
  have hsorted : s.worker.load.Pairwise (· < ·) := h.kept.sorted
  rw [hload] at hsorted
  have hmem : i ∈ j :: s.worker.queue.filterMap Command.task? := hload ▸ hl
  rcases List.mem_cons.mp hmem with rfl | hq
  · exact hi
  · refine h.recalled_of_lt ?_ hl ((List.pairwise_cons.mp hsorted).1 i hq)
    rw [hload]
    exact List.mem_cons_self

/-- A worker that has a cancelled task to see to does not wait, and comes nearer to its end. -/
theorem nears (h : Orderly s) (hi : i ∈ s.recalled) (hl : i ∈ s.worker.load) (due : Bool) :
    ∃ v, s.worker.step? due = some v ∧ (v.Told i ∨ v.untilEnd i < s.worker.untilEnd i) := by
  have told {v : Worker} {j : Nat} {f : Task → Task} (hv : v.tasks = s.worker.tasks.modify j f)
      (hf : ∀ t, (f t).outcomes ≠ []) (hij : j = i) : v.Told i := by
    obtain ⟨t, ht⟩ := h.kept.exists_task hl
    have ht : s.worker.tasks[i]? = some t := ht
    exact ⟨f t, by rw [hv, List.getElem?_modify, ht, hij]; simp, hf t⟩
  cases hp : s.worker.phase with
  | exited =>
    rw [load, hp, h.gone hp] at hl
    cases hl
  | idle =>
    have hq : i ∈ s.worker.queue.filterMap Command.task? := by
      simpa [load, hp, Phase.task?] using hl
    rcases hqueue : s.worker.queue with _ | ⟨_ | _ | _, q⟩
    · rw [hqueue] at hq
      cases hq
    · rename_i j
      refine ⟨_, by simp only [step?, hp, hqueue]; rfl, .inr ?_⟩
      by_cases hij : j = i
      · simp [untilEnd, obeyIdle, hp, hqueue, Phase.task?, Phase.delay, ahead, hij]
      · simp [untilEnd, obeyIdle, hp, hqueue, Phase.task?, Phase.delay, ahead, hij]
    · refine ⟨_, by simp only [step?, hp, hqueue]; rfl, .inr ?_⟩
      simp [untilEnd, obeyIdle, hp, hqueue, Phase.task?, Phase.delay, ahead]
    · have hnil := h.nil_of_shutDown hqueue
      rw [hqueue, hnil] at hq
      cases hq
  | checking j =>
    have hj := h.recalled j (h.recalled_of_current hi hl (by rw [hp]; rfl))
    refine ⟨_, by simp only [step?, hp, hj]; rfl, ?_⟩
    by_cases hij : j = i
    · exact .inl (told rfl (by simp) hij)
    · right
      simp [untilEnd, report, changeTask, hp, Phase.task?, Phase.delay, hij]
  | resting j =>
    have hwoken := h.woken_of_recalled hp (h.recalled_of_current hi hl (by rw [hp]; rfl))
    obtain ⟨q, hqueue⟩ := List.head?_eq_some_iff.mp hwoken
    refine ⟨_, by simp only [step?, hp, hqueue]; rfl, .inr ?_⟩
    by_cases hij : j = i
    · simp [untilEnd, obeyBetween, hp, Phase.task?, Phase.delay, hij]
    · simp [untilEnd, obeyBetween, hp, hqueue, Phase.task?, Phase.delay, ahead, hij]
  | running j =>
    refine ⟨s.worker.run j, by simp only [step?, hp], ?_⟩
    have hrun := run_steps hp
    generalize s.worker.run j = v at hrun
    generalize s.worker.sight? = x at hrun
    cases hrun with
    | again hp' =>
      right
      cases hp.symm.trans hp'
      by_cases hij : j = i
      · simp [untilEnd, hp, Phase.task?, Phase.delay, hij]
      · simp [untilEnd, changeTask, hp, Phase.task?, Phase.delay, hij]
    | finish hp' =>
      cases hp.symm.trans hp'
      by_cases hij : j = i
      · exact .inl (told rfl (by simp) hij)
      · right
        simp [untilEnd, changeTask, hp, Phase.task?, Phase.delay, hij]
    | lost hp' ht =>
      cases hp.symm.trans hp'
      obtain ⟨t, ht'⟩ := h.kept.exists_task (by
        rw [Course.Kept.load_eq (congrArg Phase.task? hp)]
        exact List.mem_cons_self)
      have ht' : s.worker.tasks[j]? = some t := ht'
      rw [ht] at ht'
      cases ht'
    | begin hp' | rest hp' | heed hp' | quit hp' | wakeUp hp' | reject hp' | take hp' | stir hp'
    | leave hp' => cases hp.symm.trans hp'

theorem told_play (h : s.worker.Told i) (hs : s.play moves = some t) : t.worker.Told i := by
  refine play_keeps (I := fun u => u.worker.Told i) ?_ h hs
  intro u m v hu hv
  have hcourse := (move?_course hv).1
  cases ha : m.act? with
  | none =>
    rw [ha] at hcourse
    exact show v.course.worker.Told i from hcourse ▸ hu
  | some a =>
    rw [ha] at hcourse
    exact show v.course.worker.Told i from hcourse ▸ hu.act a

/-- A cancelled task of whose end nothing was told is still to be seen to. -/
theorem load_of_recalled (h : Orderly s) (hi : i ∈ s.recalled) (hnot : ¬ s.worker.Told i) :
    i ∈ s.worker.load := by
  obtain ⟨x, hx, -⟩ := isCancelled_iff.mp (h.recalled i hi)
  exact h.pending i (List.getElem?_eq_some_iff.mp hx).1 hnot

/-- A cancelled task ends soon. -/
theorem ends_soon (h : Orderly s) (hi : i ∈ s.recalled) (hs : s.play moves = some t)
    (hsteps : s.worker.untilEnd i ≤ moves.countP Move.isWork) : t.worker.Told i := by
  induction moves generalizing s with
  | nil =>
    cases hs
    refine Classical.byContradiction fun hnot => ?_
    have hpos := untilEnd_pos (h.load_of_recalled hi hnot)
    simp only [List.countP_nil] at hsteps
    omega
  | cons m moves ih =>
    by_cases htold : s.worker.Told i
    · exact told_play htold hs
    obtain ⟨u, hu, ht⟩ := Option.bind_eq_some_iff.mp hs
    have hl := h.load_of_recalled hi htold
    have hiu := (move?_course hu).2 i hi
    rcases move?_cases hu with ⟨due, rfl, hw⟩ | ⟨hm, a, hcalm⟩
    · obtain ⟨v, hv, hend⟩ := h.nears hi hl due
      have hv : u.worker = v := by rw [hw]; simp [Worker.act, hv]
      rw [← hv] at hend
      rcases hend with hend | hend
      · exact told_play hend ht
      · refine ih (h.move hu) hiu ht ?_
        simp only [List.countP_cons, Move.isWork, if_true] at hsteps
        omega
    · refine ih (h.move hu) hiu ht ?_
      rw [hcalm.untilEnd hl]
      simpa only [List.countP_cons, hm, Bool.false_eq_true, if_false, Nat.add_zero] using hsteps

end Orderly

/-! ## How a task ends -/

/-- A task ends with its own last run, or because the client cancelled it or left. -/
theorem end_cases {core : Option Core} {pins : Pins} (hs : (opening core pins).play moves = some s)
    {x : Task} (hx : s.worker.tasks[i]? = some x) {o : Outcome} (ho : o ∈ x.outcomes) :
    (∃ n, x.runs = n + 1 ∧ (∀ k < n, x.body k = .goOn) ∧ (x.body n).outcome? = some o) ∨
      o = .cancelled ∧ (.cancel i ∈ moves ∨ .leave ∈ moves) := by
  have hcourse := play_course hs
  have hkept : s.course.Kept := hcourse ▸ (Course.Kept.spawned core pins).play _
  have hcaused : s.course.Caused :=
    hcourse ▸ (Course.Caused.spawned core pins).play (.spawned core pins) _
  have hacts : s.course.acts = moves.filterMap Move.act? := by
    rw [hcourse, Course.play_acts]
    rfl
  have hnever := ((Orderly.opening core pins).play hs).never
  have moved {a : Act} (ha : a ∈ s.course.acts) : ∃ m ∈ moves, m.act? = some a := by
    rw [hacts] at ha
    exact List.mem_filterMap.mp ha
  have seen {y : Sight} (hy : y ∈ s.course.story i) : y ∈ s.course.seen := (List.mem_filter.mp hy).1
  have htale := hkept.tales i x hx
  generalize s.course.story i = l at htale seen
  cases htale with
  | unheard _ _ hout =>
    rw [hout] at ho
    cases ho
  | rejected => exact absurd (seen List.mem_cons_self) (hnever i _)
  | underWay _ _ hout =>
    rw [hout] at ho
    cases ho
  | @told n last o' _ hgo hout hend =>
    rw [hout] at ho
    obtain rfl := List.mem_singleton.mp ho
    have hlast := seen (y := last) (by simp)
    cases hend with
    | ran hruns hbody => exact .inl ⟨n, hruns, hgo, hbody⟩
    | flag =>
      obtain ⟨m, hm, ha⟩ := moved (hcaused.sawFlag i hlast)
      cases m <;> cases ha
      exact .inr ⟨rfl, .inl hm⟩
    | exit =>
      obtain ⟨m, hm, ha⟩ := moved (hcaused.sawExit _ hlast)
      cases m <;> cases ha
      exact .inr ⟨rfl, .inr hm⟩

end Session

/-! ## A lone client -/

/-- A client that does one thing after another and sends a new task only when the one before has
ended or was cancelled: no task of it is turned away, a cancelled one runs at most once more and
then ends while the worker waits for nothing, and no task ends by the cancelling of another one. -/
theorem a_lone_client_is_served_in_order (core : Option Core) (pins : Pins) (moves : List Move)
    {s : Session} (h : (Session.opening core pins).play moves = some s) :
    (∀ i under, .rejected i under ∉ s.course.seen) ∧
    (∀ i ∈ s.recalled, ∀ later t, s.play later = some t →
      t.worker.runs i ≤ s.worker.runs i + (if s.worker.phase = .running i then 1 else 0) ∧
      (s.worker.untilEnd i ≤ later.countP Move.isWork →
        ∃ x o, t.worker.tasks[i]? = some x ∧ x.outcomes = [o])) ∧
    (∀ i ∈ s.recalled, (∀ x, s.worker.tasks[i]? = some x → x.outcomes = []) →
      ∀ due, ∃ w, s.worker.step? due = some w) ∧
    (∀ i x o, s.worker.tasks[i]? = some x → o ∈ x.outcomes →
      (∃ n, x.runs = n + 1 ∧ (∀ k < n, x.body k = .goOn) ∧ (x.body n).outcome? = some o) ∨
        o = .cancelled ∧ (.cancel i ∈ moves ∨ .leave ∈ moves)) := by
  have ho := (Session.Orderly.opening core pins).play h
  refine ⟨ho.never, ?_, ?_, fun i x o hx hout => Session.end_cases h hx hout⟩
  · intro i hi later t ht
    refine ⟨Nat.le_trans (Nat.le_add_right _ _) (ho.begun_le_play hi ht), fun hsteps => ?_⟩
    obtain ⟨x, hx, hne⟩ := ho.ends_soon hi ht hsteps
    have hlen := ((ho.play ht).kept.tales i x hx).length_outcomes
    obtain ⟨o, hout⟩ := List.length_eq_one_iff.mp
      (Nat.le_antisymm hlen (List.length_pos_iff.mpr hne))
    exact ⟨x, o, hx, hout⟩
  · intro i hi hnone due
    have huntold : ¬ s.worker.Told i := by
      rintro ⟨x, hx, hne⟩
      exact hne (hnone x hx)
    have hl := ho.load_of_recalled hi huntold
    obtain ⟨v, hv, -⟩ := ho.nears hi hl due
    exact ⟨v, hv⟩

/-- The first task completes. It is cancelled nevertheless when the second one is under way, which
completes too, and the third one is cancelled in the middle of a run. -/
def errands : List Move :=
  let task (body : Nat → Report) : Move := .schedule (.ofMillis 1) body
  [task fun _ => .complete] ++ List.replicate 4 (.work true) ++
    [.receive 0, task fun n => if n = 0 then .goOn else .complete, .work true, .work true,
      .cancel 0, .wake] ++ List.replicate 7 (.work true) ++
    [.receive 1, task fun _ => .goOn, .work true, .work true, .work true, .cancel 2, .wake,
      task fun _ => .complete]

theorem a_lone_client_is_served_in_order_on_its_errands :
    ∃ s, (Session.opening none {}).play errands = some s ∧ s.recalled = [2, 0] ∧
      s.worker.phase = .running 2 ∧ s.worker.queue = [.wake, .schedule 3] ∧
      (∀ i under, .rejected i under ∉ s.course.seen) ∧
      (∀ later t, s.play later = some t → t.worker.runs 2 ≤ 1) ∧
      (∃ t, s.play [.work false, .work false] = some t ∧
        ∃ x o, t.worker.tasks[2]? = some x ∧ x.outcomes = [o]) ∧
      (∃ w, s.worker.step? false = some w) ∧
      ∃ x n, s.worker.tasks[1]? = some x ∧ x.runs = n + 1 ∧
        (x.body n).outcome? = some .completed := by
  have hcomputed : ((Session.opening none {}).play errands).map (fun s =>
      (s.recalled, s.worker.phase, s.worker.queue, s.worker.runs 2, s.worker.untilEnd 2,
        (s.play [.work false, .work false]).isSome)) =
      some ([2, 0], .running 2, [.wake, .schedule 3], 0, 2, true) := by decide +kernel
  obtain ⟨s, hs, hfacts⟩ := Option.map_eq_some_iff.mp hcomputed
  simp only [Prod.mk.injEq] at hfacts
  obtain ⟨hrecalled, hphase, hqueue, hruns, hend, hgoes⟩ := hfacts
  have houtcomes : s.worker.tasks.map (·.outcomes) = [[.completed], [.completed], [], []] := by
    have hmapped : ((Session.opening none {}).play errands).map (·.worker.tasks.map (·.outcomes)) =
        some [[.completed], [.completed], [], []] := by decide +kernel
    rwa [hs, Option.map_some, Option.some.injEq] at hmapped
  have hmem : 2 ∈ s.recalled := by rw [hrecalled]; decide
  obtain ⟨hnever, hcancelled, hbusy, hends⟩ := a_lone_client_is_served_in_order none {} errands hs
  obtain ⟨t, ht⟩ := Option.isSome_iff_exists.mp hgoes
  have hx (i : Nat) (l : List Outcome) (hl : (s.worker.tasks.map (·.outcomes))[i]? = some l) :
      ∃ x, s.worker.tasks[i]? = some x ∧ x.outcomes = l := by
    rwa [List.getElem?_map, Option.map_eq_some_iff] at hl
  obtain ⟨x, hx1, hout⟩ := hx 1 [.completed] (by rw [houtcomes]; rfl)
  obtain ⟨y, hy, hnone⟩ := hx 2 [] (by rw [houtcomes]; rfl)
  refine ⟨s, hs, hrecalled, hphase, hqueue, hnever, ?_, ⟨t, ht, ?_⟩, ?_, x, ?_⟩
  · intro later u hu
    have hle := (hcancelled 2 hmem later u hu).1
    rwa [hphase, hruns] at hle
  · exact (hcancelled 2 hmem _ t ht).2 (by rw [hend]; decide)
  · exact hbusy 2 hmem (fun z hz => by rw [hy] at hz; cases hz; exact hnone) false
  · rcases hends 1 x .completed hx1 (by rw [hout]; decide) with ⟨n, hn, -, ho⟩ | ⟨hc, -⟩
    · exact ⟨n, hx1, hn, ho⟩
    · cases hc

end Worker

end Metronome
