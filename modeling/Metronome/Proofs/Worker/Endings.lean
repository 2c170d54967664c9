-- Why tasks end, and that the worker attends to them. A flag is seen because
-- someone raised it, and an exit because someone told the worker. While the
-- worker is not told to exit it takes the next task and runs it, whatever
-- became of the one before.
import Metronome.Proofs.Worker.Tales

namespace Metronome

namespace Worker

variable {w v : Worker} {a : Act} {i m : Nat} {s : Option Sight}

/-! ## Why a task ends -/

/-- A step raises no flag of a task that has not ended. -/
theorem Step.flags (h : Step w s v) {t' : Task} (ht' : v.tasks[i]? = some t')
    (ho : t'.outcomes = []) :
    ∃ t, w.tasks[i]? = some t ∧ t.outcomes = [] ∧ t'.cancelled = t.cancelled := by
  have change {j : Nat} {f : Task → Task} (hv : v.tasks = w.tasks.modify j f)
      (hf : ∀ t, (f t).outcomes = [] → t.outcomes = [] ∧ (f t).cancelled = t.cancelled) :
      ∃ t, w.tasks[i]? = some t ∧ t.outcomes = [] ∧ t'.cancelled = t.cancelled := by
    rw [hv, List.getElem?_modify] at ht'
    obtain ⟨t, ht, rfl⟩ := Option.map_eq_some_iff.mp ht'
    split at ho
    · rw [if_pos ‹_›]
      exact ⟨t, ht, hf t ho⟩
    · rw [if_neg ‹_›]
      exact ⟨t, ht, ho, rfl⟩
  cases h with
  | heed | reject | finish => exact change rfl (by simp)
  | quit => exact change (List.modify_modify_eq _ _ _ _) (by simp)
  | again => exact change rfl fun t h => ⟨h, rfl⟩
  | _ => exact ⟨t', ht', ho, rfl⟩

namespace Course

variable {c : Course}

/-- Flags are raised and the worker is told to exit by clients only. -/
structure Caused (c : Course) : Prop where
  flags : ∀ (i : Nat) (t : Task), c.worker.tasks[i]? = some t → t.outcomes = [] →
    t.cancelled = true → .raise i ∈ c.acts
  sawFlag : ∀ i, .sawFlag i ∈ c.seen → .raise i ∈ c.acts
  queue : .shutDown ∈ c.worker.queue → .tell ∈ c.acts
  sawExit : ∀ under, .sawExit under ∈ c.seen → .tell ∈ c.acts

namespace Caused

theorem spawned (core : Option Core) (pins : Pins) : Caused (.spawned core pins) := by
  have h : (spawn core pins).tasks = [] ∧ (spawn core pins).queue = [] := by
    cases core <;> exact ⟨rfl, rfl⟩
  refine ⟨?_, ?_, ?_, ?_⟩ <;> simp [Course.spawned, h.1, h.2]

theorem calm (h : Caused c) (hcalm : Calm a c.worker (c.worker.act a))
    (hsees : c.worker.sights a = []) : Caused (c.step a) := by
  have hseen : (c.step a).seen = c.seen := by simp [Course.step, hsees]
  exact
    { flags := by
        intro i t' ht' ho hc
        cases ht : c.worker.tasks[i]? with
        | none => rw [(hcalm.fresh i t' ht' ht).2.2] at hc; cases hc
        | some t =>
          obtain ⟨t'', ht'', -, -, hout, -, hflag⟩ := hcalm.tasks i t ht
          rw [show (c.step a).worker = c.worker.act a from rfl, ht''] at ht'
          cases ht'
          rcases hflag hc with hold | rfl
          · exact List.mem_append_left _ (h.flags i t ht (hout ▸ ho) hold)
          · exact List.mem_append_right _ (List.mem_singleton_self _)
      sawFlag := fun i hi => List.mem_append_left _ (h.sawFlag i (hseen ▸ hi))
      queue := by
        intro hq
        have hq : .shutDown ∈ (c.worker.act a).queue := hq
        rcases hcalm.queue with he | ⟨he, -⟩ <;> rw [he] at hq
        · exact List.mem_append_left _ (h.queue hq)
        · rcases List.mem_append.mp hq with hq | hq
          · exact List.mem_append_left _ (h.queue hq)
          · rw [shutDown_mem_sent hq]
            exact List.mem_append_right _ (List.mem_singleton_self _)
      sawExit := fun under hu => List.mem_append_left _ (h.sawExit under (hseen ▸ hu)) }

theorem step (h : Caused c) (hk : Kept c) (a : Act) : Caused (c.step a) := by
  rcases act_cases c.worker a with ⟨hsees, hcalm⟩ | ⟨due, s, rfl, hsees, -, hstep⟩
  · exact h.calm hcalm hsees
  have hseen : (c.step (.step due)).seen = c.seen ++ s.toList := by simp [Course.step, hsees]
  have old {b : Act} (hb : b ∈ c.acts) : b ∈ (c.step (.step due)).acts :=
    List.mem_append_left _ hb
  refine ⟨?_, ?_, fun hq => old (h.queue (hstep.queue_suffix.subset hq)), ?_⟩
  · intro i t' ht' ho hc
    obtain ⟨t, ht, hout, hflag⟩ := hstep.flags ht' ho
    exact old (h.flags i t ht hout (hflag ▸ hc))
  · intro i hi
    rw [hseen] at hi
    rcases List.mem_append.mp hi with hi | hi
    · exact old (h.sawFlag i hi)
    · -- the task whose flag is seen is under way, so it has not ended
      have hs : s = some (.sawFlag i) := by simpa using hi
      subst hs
      generalize c.worker.act (.step due) = v at hstep
      cases hstep with
      | heed hp hc =>
        obtain ⟨t, ht⟩ := hk.exists_task (by
          rw [Kept.load_eq (congrArg Phase.task? hp)]
          exact List.mem_cons_self)
        have htale := hk.tales i t ht
        rw [hp] at htale
        refine old (h.flags i t ht htale.of_current.2.2 ?_)
        simpa [isCancelled, ht] using hc
  · intro under hu
    rw [hseen] at hu
    rcases List.mem_append.mp hu with hu | hu
    · exact old (h.sawExit under hu)
    · have hs : s = some (.sawExit under) := by simpa using hu
      subst hs
      generalize c.worker.act (.step due) = v at hstep
      cases hstep with
      | leave hp hq | quit hp hq => exact old (h.queue (by rw [hq]; exact List.mem_cons_self))

theorem play (h : Caused c) (hk : Kept c) (acts : List Act) : Caused (c.play acts) := by
  have hboth : Kept (c.play acts) ∧ Caused (c.play acts) := by
    apply play_keeps (I := fun c => Kept c ∧ Caused c) _ acts ⟨hk, h⟩
    exact fun c a ⟨hk, h⟩ => ⟨hk.step a, h.step hk a⟩
  exact hboth.2

end Caused

end Course

/-! ## The next task -/

/-- The first task of a queue, if no one told the worker to exit before that. -/
def firstTask? : List Command → Option Nat
  | .schedule i :: _ => some i
  | .wake :: q => firstTask? q
  | _ => none

/-- The task that the worker attends to next: the one under way, or the first that waits. -/
def next? (w : Worker) : Option Nat :=
  match w.phase with
  | .idle => firstTask? w.queue
  | p => p.task?

/-- How many steps are enough for a task to have run `m` times or to have ended. -/
def distance (w : Worker) (i m : Nat) : Nat := w.rank + 4 * (m - w.runs i)

/-- How many steps of the worker an act may cost. -/
def Act.cost : Act → Nat
  | .schedule _ _ | .late _ _ => 4
  | .wake => 2
  | .tell => 1
  | _ => 0

/-- A step in which the worker does not wait for the time of a run. -/
def Act.isDue : Act → Bool
  | .step due => due
  | _ => false

/-- The task has run so often, or it has ended. -/
def Attended (w : Worker) (i m : Nat) : Prop :=
  ∃ t, w.tasks[i]? = some t ∧ (m ≤ t.runs ∨ t.outcomes ≠ [])

theorem firstTask?_append {q : List Command} (h : firstTask? q = some i) (l : List Command) :
    firstTask? (q ++ l) = some i := by
  induction q with
  | nil => cases h
  | cons c q ih =>
    cases c with
    | schedule j => exact h
    | wake => exact ih h
    | shutDown => cases h

theorem total_sent (w : Worker) (a : Act) : total (·.rank) (w.sent a) = a.cost := by
  cases a <;> rfl

/-- A task at a later time. -/
structure Task.Older (t t' : Task) : Prop where
  body : t'.body = t.body
  runs : t.runs ≤ t'.runs
  cancelled : t.cancelled = true → t'.cancelled = true
  outcomes : t.outcomes ≠ [] → t'.outcomes ≠ []

/-- What was run and told stays so. -/
theorem older_act (a : Act) {t : Task} (ht : w.tasks[i]? = some t) :
    ∃ t', (w.act a).tasks[i]? = some t' ∧ t.Older t' := by
  rcases act_cases w a with ⟨-, hcalm⟩ | ⟨due, s, -, -, -, hstep⟩
  · obtain ⟨t', ht', hb, hr, ho, hc, -⟩ := hcalm.tasks i t ht
    exact ⟨t', ht', hb, Nat.le_of_eq hr.symm, hc, fun h => ho ▸ h⟩
  · have change {j : Nat} {f : Task → Task} (hv : (w.act a).tasks = w.tasks.modify j f)
        (hf : t.Older (f t)) : ∃ t', (w.act a).tasks[i]? = some t' ∧ t.Older t' := by
      refine ⟨if j = i then f t else t, by rw [hv, List.getElem?_modify, ht]; rfl, ?_⟩
      split
      · exact hf
      · exact ⟨rfl, Nat.le_refl _, id, id⟩
    generalize w.act a = v at hstep change
    cases hstep with
    | heed | reject => exact change rfl ⟨rfl, Nat.le_refl _, id, by simp⟩
    | finish => exact change rfl ⟨rfl, Nat.le_succ _, fun h => by simp [h], by simp⟩
    | quit =>
      exact change (List.modify_modify_eq _ _ _ _) ⟨rfl, Nat.le_refl _, fun _ => rfl, by simp⟩
    | again => exact change rfl ⟨rfl, Nat.le_succ _, id, id⟩
    | _ => exact ⟨t, ht, rfl, Nat.le_refl _, id, id⟩

theorem Attended.act (h : w.Attended i m) (a : Act) : (w.act a).Attended i m := by
  obtain ⟨t, ht, hm⟩ := h
  obtain ⟨t', ht', hold⟩ := older_act a ht
  exact ⟨t', ht', hm.imp (fun h => Nat.le_trans h hold.runs) hold.outcomes⟩

/-- A calm act keeps the next task, and costs at most what it sends. -/
theorem Calm.attends (h : Calm a w v) (hn : w.next? = some i) (hi : ∃ t, w.tasks[i]? = some t) :
    v.next? = some i ∧ v.distance i m ≤ w.distance i m + a.cost := by
  obtain ⟨t, ht⟩ := hi
  obtain ⟨t', ht', -, hr, -⟩ := h.tasks i t ht
  have hruns : v.runs i = w.runs i := by simp [runs, ht, ht', hr]
  have hq : ∃ l, v.queue = w.queue ++ l ∧ total (·.rank) l ≤ a.cost := by
    rcases h.queue with hq | ⟨hq, -⟩
    · exact ⟨[], by rw [hq, List.append_nil], Nat.zero_le _⟩
    · exact ⟨_, hq, Nat.le_of_eq (total_sent w a)⟩
  obtain ⟨l, hq, hl⟩ := hq
  constructor
  · unfold next? at hn ⊢
    rw [h.phase]
    cases hp : w.phase <;> rw [hp] at hn <;> try exact hn
    rw [hq]
    exact firstTask?_append hn l
  · simp only [distance, rank, hruns, h.phase, hq, total_append]
    omega

/-- A worker that attends to a task can go on, if a run may begin. -/
theorem step?_of_next (hn : w.next? = some i) : ∃ v, w.step? true = some v := by
  unfold next? at hn
  unfold step?
  cases hp : w.phase with
  | idle =>
    rw [hp] at hn
    cases hq : w.queue with
    | nil => rw [hq] at hn; cases hn
    | cons c q => exact ⟨_, rfl⟩
  | checking j => dsimp only; split <;> exact ⟨_, rfl⟩
  | resting j => cases w.queue <;> exact ⟨_, rfl⟩
  | running j => exact ⟨_, rfl⟩
  | exited => rw [hp] at hn; cases hn

/-- A step brings the next task nearer to its next run, or to its end. -/
theorem Step.attends (h : Step w s v) (hn : w.next? = some i) (hi : ∃ t, w.tasks[i]? = some t)
    (hm : w.runs i < m) :
    v.Attended i m ∨ v.next? = some i ∧ v.distance i m < w.distance i m := by
  obtain ⟨t, ht⟩ := hi
  have same {q : List Command} {p : Phase} (hv : v = { w with queue := q, phase := p })
      (hnext : v.next? = some i) (hrank : p.rank + total (·.rank) q < w.rank) :
      v.Attended i m ∨ v.next? = some i ∧ v.distance i m < w.distance i m := by
    refine .inr ⟨hnext, ?_⟩
    rw [hv]
    exact Nat.add_lt_add_right hrank _
  have ended {j : Nat} {f : Task → Task} (hv : v.tasks = w.tasks.modify j f) (hj : j = i)
      (hf : (f t).outcomes ≠ []) : v.Attended i m :=
    ⟨f t, by rw [hv, List.getElem?_modify, ht, hj]; simp, .inr hf⟩
  unfold next? at hn
  cases h with
  | take hp hq =>
    rw [hp] at hn
    simp only [hq, firstTask?] at hn
    exact same rfl hn (by simp [rank, hp, hq, Phase.rank, Command.rank])
  | stir hp hq =>
    rw [hp] at hn
    simp only [hq, firstTask?] at hn
    exact same rfl hn (by simp [rank, hp, hq, Phase.rank, Command.rank])
  | leave hp hq =>
    rw [hp] at hn
    simp [hq, firstTask?] at hn
  | heed hp hc =>
    rw [hp] at hn
    exact .inl (ended rfl (Option.some.inj hn) (by simp))
  | rest hp hc =>
    rw [hp] at hn
    exact same rfl hn (by simp [rank, hp, Phase.rank])
  | reject hp hq =>
    rw [hp] at hn
    have hruns (j : Nat) (o : Outcome) : (w.report j o).runs i = w.runs i := by
      simp only [runs, report, getElem?_changeTask, ht, Option.map_some]
      split <;> rfl
    refine .inr ⟨hn, ?_⟩
    refine Nat.add_lt_add_of_lt_of_le ?_
      (Nat.le_of_eq (congrArg (fun n => 4 * (m - n)) (hruns _ _)))
    simp only [rank, report, changeTask, hp, hq, total_cons, Phase.rank, Command.rank]
    omega
  | wakeUp hp hq =>
    rw [hp] at hn
    exact same rfl hn (by simp [rank, hp, hq, Phase.rank, Command.rank]; omega)
  | quit hp hq =>
    rw [hp] at hn
    exact .inl (ended (List.modify_modify_eq _ _ _ _) (Option.some.inj hn) (by simp))
  | begin hp hq =>
    rw [hp] at hn
    exact same rfl hn (by simp [rank, hp, hq, Phase.rank])
  | again hp ht' hr =>
    rw [hp] at hn
    cases hn
    have hruns : w.runs i = t.runs := by simp [runs, ht]
    have hnext : (w.changeTask i fun t => { t with runs := t.runs + 1 }).runs i = t.runs + 1 := by
      simp [runs, getElem?_changeTask, ht]
    refine .inr ⟨rfl, ?_⟩
    have hrank : w.rank = 1 + total (·.rank) w.queue := by rw [rank, hp]; rfl
    -- the run that is over pays for the way to the next one
    change 3 + total (·.rank) w.queue +
      4 * (m - (w.changeTask i fun t => { t with runs := t.runs + 1 }).runs i) < _
    rw [hnext, distance, hrank, hruns]
    omega
  | finish hp ht' ho cancelled =>
    rw [hp] at hn
    exact .inl (ended rfl (Option.some.inj hn) (by simp))
  | lost hp ht' =>
    rw [hp] at hn
    cases hn
    rw [ht] at ht'
    cases ht'

namespace Course

variable {c : Course}

theorem Kept.exists_next (h : Kept c) (hn : c.worker.next? = some i) :
    ∃ t, c.worker.tasks[i]? = some t := by
  refine h.exists_task ?_
  unfold next? at hn
  cases hp : c.worker.phase <;> rw [hp] at hn
  case idle =>
    have hq : i ∈ c.worker.queue.filterMap Command.task? := by
      generalize c.worker.queue = q at hn
      induction q with
      | nil => cases hn
      | cons cmd q ih =>
        cases cmd with
        | schedule j => simp [Command.task?, Option.some.inj hn]
        | wake => exact ih hn
        | shutDown => cases hn
    exact List.mem_append_right _ hq
  case exited => cases hn
  all_goals
    rw [Kept.load_eq (by rw [hp]; exact hn)]
    exact List.mem_cons_self

/-- An act brings the next task nearer to its next run, or keeps it where it is. -/
theorem Kept.attends (h : Kept c) (hn : c.worker.next? = some i) (hm : c.worker.runs i < m)
    (a : Act) : (c.step a).worker.Attended i m ∨ (c.step a).worker.next? = some i ∧
      (c.step a).worker.distance i m + (if a.isDue then 1 else 0) ≤
        c.worker.distance i m + a.cost := by
  have hi := h.exists_next hn
  have hstep {s : Option Sight} (hs : Step c.worker s (c.step a).worker) :
      (c.step a).worker.Attended i m ∨ (c.step a).worker.next? = some i ∧
        (c.step a).worker.distance i m + 1 ≤ c.worker.distance i m := hs.attends hn hi hm
  cases hd : a.isDue with
  | true =>
    obtain ⟨due, rfl⟩ : ∃ due, a = .step due := by cases a <;> first | exact ⟨_, rfl⟩ | cases hd
    obtain rfl : due = true := hd
    obtain ⟨v, hv⟩ := step?_of_next hn
    have hw : (c.step (.step true)).worker = v := by simp [Course.step, act, hv]
    exact hstep (hw ▸ step?_steps hv)
  | false =>
    rcases act_cases c.worker a with ⟨-, hcalm⟩ | ⟨due, s, -, -, -, hs⟩
    · exact .inr (hcalm.attends hn hi)
    · exact (hstep hs).imp_right fun h => ⟨h.1, by simp only [Bool.false_eq_true, if_false]; omega⟩

/-- A worker that takes enough steps attends to the next task until it has run so often as one
likes, or has ended. -/
theorem Kept.attended (h : Kept c) (hn : c.worker.next? = some i) (later : List Act)
    (hsteps : c.worker.distance i m + total Act.cost later ≤ later.countP Act.isDue) :
    (c.play later).worker.Attended i m := by
  have keeps (c : Course) (acts : List Act) (hc : c.worker.Attended i m) :
      (c.play acts).worker.Attended i m :=
    play_keeps (I := fun c => c.worker.Attended i m) (fun _ a h => h.act a) acts hc
  induction later generalizing c with
  | nil =>
    obtain ⟨t, ht⟩ := h.exists_next hn
    have hruns : c.worker.runs i = t.runs := by simp [runs, ht]
    refine ⟨t, ht, .inl ?_⟩
    simp only [distance, total_nil, List.countP_nil, hruns] at hsteps
    omega
  | cons a later ih =>
    by_cases hm : c.worker.runs i < m
    · rcases h.attends hn hm a with hdone | ⟨hnext, hle⟩
      · exact keeps _ later hdone
      · refine ih (h.step a) hnext ?_
        simp only [total_cons, List.countP_cons] at hsteps
        omega
    · obtain ⟨t, ht⟩ := h.exists_next hn
      have hruns : c.worker.runs i = t.runs := by simp [runs, ht]
      exact keeps c (a :: later) ⟨t, ht, .inl (by omega)⟩

theorem body_play {t : Task} (ht : c.worker.tasks[i]? = some t) (later : List Act) :
    ∃ t', (c.play later).worker.tasks[i]? = some t' ∧ t'.body = t.body := by
  apply play_keeps (I := fun c => ∃ t', c.worker.tasks[i]? = some t' ∧ t'.body = t.body) _ later
    ⟨t, ht, rfl⟩
  rintro c a ⟨t', ht', hb⟩
  obtain ⟨t'', ht'', hold⟩ := older_act a ht'
  exact ⟨t'', ht'', hold.body.trans hb⟩

/-- The next task ends with its first run that does not ask to go on, if not sooner. -/
theorem Kept.ends (h : Kept c) (hn : c.worker.next? = some i) {t : Task}
    (ht : c.worker.tasks[i]? = some t) {n : Nat} (ho : (t.body n).outcome? ≠ none)
    (later : List Act)
    (hsteps : c.worker.distance i (n + 1) + total Act.cost later ≤ later.countP Act.isDue) :
    ∃ t' o, (c.play later).worker.tasks[i]? = some t' ∧ t'.outcomes = [o] := by
  obtain ⟨t', ht', hm⟩ := h.attended hn later hsteps
  obtain ⟨t'', ht'', hb⟩ := body_play ht later
  rw [ht'] at ht''
  cases ht''
  have htale := (h.play later).tales i t' ht'
  generalize (c.play later).story i = l at htale
  cases htale with
  | unheard _ hr hout =>
    have hle := hm.resolve_right (fun hne => hne hout)
    omega
  | rejected _ _ _ hout => exact ⟨t', _, ht', hout⟩
  | underWay _ hgo hout =>
    have hlt := hm.resolve_right (fun hne => hne hout)
    rw [← hb, hgo n hlt] at ho
    exact absurd rfl ho
  | told _ _ hout => exact ⟨t', _, ht', hout⟩

/-! ## The exit -/

/-- A worker that has exited sees nothing more. -/
theorem exited_step (hp : c.worker.phase = .exited) (a : Act) :
    (c.step a).worker.phase = .exited ∧ (c.step a).seen = c.seen := by
  have hs (due : Bool) : c.worker.step? due = none := by simp [step?, hp]
  rcases act_cases c.worker a with ⟨hsees, hcalm⟩ | ⟨due, s, rfl, -, hstep, -⟩
  · exact ⟨hcalm.phase.trans hp, by simp [Course.step, hsees]⟩
  · rw [hs due] at hstep
    cases hstep

theorem exited_play (hp : c.worker.phase = .exited) (later : List Act) :
    (c.play later).worker.phase = .exited ∧ (c.play later).seen = c.seen := by
  induction later generalizing c with
  | nil => exact ⟨hp, rfl⟩
  | cons a later ih =>
    obtain ⟨hp', hseen⟩ := exited_step hp a
    obtain ⟨hlast, hsame⟩ := ih hp'
    exact ⟨hlast, hsame.trans hseen⟩

/-- Who waits for a task that was not heard of learns that nothing will come. -/
theorem Kept.disconnected (h : Kept c) (hp : c.worker.phase = .exited) (hi : c.story i = []) :
    (c.worker.receive i).2 = .disconnected := by
  unfold receive
  cases ht : c.worker.tasks[i]? with
  | none => rfl
  | some t =>
    have htale := h.tales i t ht
    rw [hi] at htale
    simp [htale.of_nil.2.2, holds, hp]

end Course

/-! ## Every task has one end -/

/-- Whatever clients do to a worker and in whatever order it goes on, every task has the tale that
it should have. The clients that cancel a task or tell the worker to exit do so in two acts. -/
theorem every_task_has_one_tale (core : Option Core) (pins : Pins) (acts : List Act) :
    let c := (Course.spawned core pins).play acts
    (∀ (i : Nat) (t : Task), c.worker.tasks[i]? = some t →
      t.outcomes.length ≤ 1 ∧ Tale c.worker.phase.task? i t (c.story i)) ∧
    c.seen.foldlM Shift.next? .idle = some c.worker.phase.shift ∧
    (∀ i, .sawFlag i ∈ c.seen → .raise i ∈ acts) ∧
    (∀ under, .sawExit under ∈ c.seen → .tell ∈ acts) ∧
    (∀ i m later, c.worker.next? = some i →
      c.worker.distance i m + total Act.cost later ≤ later.countP Act.isDue →
      (c.play later).worker.Attended i m) ∧
    (∀ i t n later, c.worker.next? = some i → c.worker.tasks[i]? = some t →
      (t.body n).outcome? ≠ none →
      c.worker.distance i (n + 1) + total Act.cost later ≤ later.countP Act.isDue →
      ∃ t' o, (c.play later).worker.tasks[i]? = some t' ∧ t'.outcomes = [o]) ∧
    (c.worker.phase = .exited → ∀ later, (c.play later).seen = c.seen ∧
      ∀ i, c.story i = [] → ((c.play later).worker.receive i).2 = .disconnected) ∧
    (∀ i, (c.play (if c.worker.isCancelled i then [.raise i] else [.raise i, .wake])).worker =
      c.worker.cancel i) ∧
    (c.play [.tell, .unpin]).worker = c.worker.tellToExit := by
  intro c
  have hk : c.Kept := (Course.Kept.spawned core pins).play acts
  have hc : c.Caused := (Course.Caused.spawned core pins).play (.spawned core pins) acts
  have hacts : c.acts = acts := by rw [Course.play_acts]; rfl
  refine ⟨?_, hk.shift, ?_, ?_, fun i m later hn hs => hk.attended hn later hs,
    fun i t n later hn ht ho hs => hk.ends hn ht ho later hs, ?_, c.play_cancel, c.play_exit⟩
  · intro i t ht
    exact ⟨(hk.tales i t ht).length_outcomes, hk.tales i t ht⟩
  · exact fun i hi => hacts ▸ hc.sawFlag i hi
  · exact fun under hu => hacts ▸ hc.sawExit under hu
  · intro hp later
    obtain ⟨hlast, hseen⟩ := Course.exited_play hp later
    refine ⟨hseen, fun i hi => (hk.play later).disconnected hlast ?_⟩
    rw [Course.story, hseen]
    exact hi

/-- The first task panics in its second run, the second one comes while the first is under way, the
third one is cancelled before it has run, and two more are left waiting. -/
def busyDay : List Act :=
  let task (body : Nat → Report) : Act := .schedule (.ofMillis 1) body
  [task fun n => if n = 0 then .goOn else .panicked "out of memory"] ++ [.step true] ++
    [task fun _ => .complete] ++ List.replicate 8 (.step true) ++
    [task fun _ => .complete, .step true, .raise 2, .wake, .step false, .step false] ++
    [task fun n => if n = 1 then .complete else .goOn, task fun _ => .goOn]

/-- Someone tells the worker to exit, and someone else sends it one more task. -/
def busyEvening : List Act :=
  busyDay ++ [.tell, .schedule (.ofMillis 1) fun _ => .complete] ++ List.replicate 5 (.step true)

theorem every_task_has_one_tale_on_a_busy_day :
    let c := (Course.spawned none {}).play busyDay
    let d := (Course.spawned none {}).play busyEvening
    c.seen = [.took 0, .rejected 1 0, .ran 0 .goOn, .ran 0 (.panicked "out of memory"), .took 2,
      .sawFlag 2] ∧
    (∃ t, c.worker.tasks[0]? = some t ∧ t.outcomes = [.failed (.listenerPanicked "out of memory")] ∧
      Tale none 0 t (c.story 0)) ∧
    .raise 2 ∈ busyDay ∧
    (c.play (.replicate 12 (.step true))).worker.Attended 3 1 ∧
    (∃ t o, (c.play (.replicate 16 (.step true))).worker.tasks[3]? = some t ∧ t.outcomes = [o]) ∧
    d.seen = c.seen ++ [.took 3, .rejected 4 3, .sawExit (some 3)] ∧
    .tell ∈ busyEvening ∧
    ∀ later, (d.play later).seen = d.seen ∧
      ((d.play later).worker.receive 5).2 = .disconnected := by
  intro c d
  obtain ⟨htales, -, hflag, -, hnext, hends, -⟩ := every_task_has_one_tale none {} busyDay
  obtain ⟨-, -, -, hexit, -, -, hgone, -⟩ := every_task_has_one_tale none {} busyEvening
  refine ⟨by decide, ⟨_, rfl, rfl, (htales 0 _ rfl).2⟩, hflag 2 (by decide), ?_, ?_, by decide,
    hexit (some 3) (by decide), ?_⟩
  · exact hnext 3 1 _ rfl (by decide)
  · exact hends 3 _ 1 _ rfl rfl (by decide) (by decide)
  · exact fun later => ⟨(hgone rfl later).1, (hgone rfl later).2 5 (by decide)⟩

end Worker

end Metronome
