-- The tasks of a worker, seen by the client that awaits them. A worker owes
-- the one task that is awaited, until it has told of its end, and it is free
-- when none is awaited. So it never finds a second task in its queue.
import Metronome.Worker

namespace Metronome

namespace Worker

/-! ## What a worker has to do -/

def Command.task? : Command → Option Nat
  | .schedule task => some task
  | _ => none

/-- The tasks under way and in the queue. -/
def load (w : Worker) : List Nat := w.phase.task?.toList ++ w.queue.filterMap Command.task?

/-- The worker has no task, unless it has exited. -/
def Free (w : Worker) : Prop := w.phase ≠ .exited → w.load = []

/-- The end of the task is still to be told, or it was told and nothing else is to be done. -/
def Owes (w : Worker) (task : Nat) : Prop :=
  ∃ t, w.tasks[task]? = some t ∧ t.received = 0 ∧
    (t.outcomes = [] ∧ (w.phase ≠ .exited → w.load = [task]) ∨
      (∃ o, t.outcomes = [o]) ∧ w.Free)

/-- What a client expects of the worker that awaits this task, or none. -/
def Serves (w : Worker) : Option Nat → Prop
  | none => w.Free
  | some task => w.Owes task

/-- Some task has failed with this error. -/
def Fails (w : Worker) (e : ClockError) : Prop := ∃ t ∈ w.tasks, .failed e ∈ t.outcomes

variable {w v : Worker} {task : Nat} {awaited : Option Nat} {e : ClockError}

/-! ## What clients do to it -/

theorem getElem?_changeTask (w : Worker) (i j : Nat) (f : Task → Task) :
    (w.changeTask i f).tasks[j]? = (w.tasks[j]?).map fun t => if i = j then f t else t := by
  unfold changeTask
  rw [List.getElem?_modify]
  cases w.tasks[j]? <;> simp

/-- A change of a task that tells nobody of an end. -/
theorem Serves.changeTask (h : w.Serves awaited) (i : Nat) {f : Task → Task}
    (hr : ∀ t, (f t).received = t.received) (ho : ∀ t, (f t).outcomes = t.outcomes) :
    (w.changeTask i f).Serves awaited := by
  cases awaited with
  | none => exact h
  | some task =>
    obtain ⟨t, ht, hrec, hout⟩ := h
    refine ⟨if i = task then f t else t, ?_, ?_, ?_⟩
    · rw [getElem?_changeTask, ht]
      rfl
    · split
      · rw [hr, hrec]
      · exact hrec
    · have hsame : (if i = task then f t else t).outcomes = t.outcomes := by
        split
        · exact ho t
        · rfl
      rw [hsame]
      exact hout

theorem fails_changeTask {i : Nat} {f : Task → Task} (ho : ∀ t, (f t).outcomes = t.outcomes)
    (h : (w.changeTask i f).Fails e) : w.Fails e := by
  obtain ⟨t, ht, hout⟩ := h
  obtain ⟨j, hj⟩ := List.mem_iff_getElem?.mp ht
  rw [getElem?_changeTask] at hj
  obtain ⟨t', ht', rfl⟩ := Option.map_eq_some_iff.mp hj
  refine ⟨t', List.mem_of_getElem? ht', ?_⟩
  split at hout
  · rwa [ho] at hout
  · exact hout

theorem Serves.raiseFlag (h : w.Serves awaited) (i : Nat) : (w.raiseFlag i).1.Serves awaited :=
  h.changeTask i (fun _ => rfl) fun _ => rfl

theorem fails_raiseFlag {i : Nat} (h : (w.raiseFlag i).1.Fails e) : w.Fails e :=
  fails_changeTask (f := fun t => { t with cancelled := true }) (fun _ => rfl) h

theorem phase_send (w : Worker) (c : Command) : ((w.send? c).getD w).phase = w.phase := by
  unfold send?
  split <;> rfl

/-- A command that is no task. -/
theorem Serves.send (h : w.Serves awaited) {c : Command} (hc : c.task? = none) :
    ((w.send? c).getD w).Serves awaited := by
  unfold send?
  split
  · exact h
  · have hload : load { w with queue := w.queue ++ [c] } = w.load := by
      simp [load, hc]
    cases awaited with
    | none => exact fun hp => hload.trans (h hp)
    | some task =>
      obtain ⟨t, ht, hrec, hout⟩ := h
      refine ⟨t, ht, hrec, ?_⟩
      simp only [Free, Option.getD_some, hload]
      exact hout

theorem fails_send {c : Command} (h : ((w.send? c).getD w).Fails e) : w.Fails e := by
  unfold send? at h
  split at h <;> exact h

/-- A free worker owes the task that it is sent. -/
theorem Free.schedule? (h : w.Free) {period : Duration} {body : Nat → Report}
    (hs : w.schedule? period body = some v) : v.Owes w.tasks.length := by
  unfold Worker.schedule? send? at hs
  split at hs <;> cases hs
  rename_i hp
  refine ⟨⟨period, body, 0, false, [], 0⟩, List.getElem?_concat_length, rfl,
    .inl ⟨rfl, fun _ => ?_⟩⟩
  have hload := h hp
  unfold load at hload ⊢
  rw [List.append_eq_nil_iff] at hload
  simp [hload.1, hload.2, Command.task?]

theorem fails_schedule? {period : Duration} {body : Nat → Report}
    (hs : w.schedule? period body = some v) (h : v.Fails e) : w.Fails e := by
  unfold schedule? send? at hs
  split at hs <;> cases hs
  obtain ⟨t, ht, hout⟩ := h
  rcases List.mem_append.mp ht with ht | ht
  · exact ⟨t, ht, hout⟩
  · rw [List.mem_singleton.mp ht] at hout
    cases hout

/-- What a client hears that awaits a task. It hears of an end once, and is left alone only by a
worker that has exited. -/
theorem Owes.receive (h : w.Owes task) :
    (∃ o v, w.receive task = (v, .outcome o) ∧ v.phase = w.phase ∧ v.queue = w.queue ∧ v.Free ∧
      (∀ e, v.Fails e → w.Fails e) ∧ ∀ e, o = .failed e → w.Fails e) ∨
    w.receive task = (w, .nothingYet) ∨
    (w.receive task = (w, .disconnected) ∧ w.phase = .exited) := by
  obtain ⟨t, ht, hrec, hout⟩ := h
  unfold Worker.receive
  simp only [ht, hrec]
  rcases hout with ⟨hnone, hload⟩ | ⟨⟨o, ho⟩, hfree⟩
  · right
    simp only [hnone, List.getElem?_nil]
    by_cases hp : w.phase = .exited
    · right
      simp [holds, hp]
    · left
      have hmem : task ∈ w.load := by rw [hload hp]; simp
      have hholds : w.holds task = true := by
        unfold load at hmem
        rcases List.mem_append.mp hmem with hm | hm
        · have hph : w.phase.task? = some task := by simpa using hm
          simp [holds, hp, hph]
        · obtain ⟨c, hc, hct⟩ := List.mem_filterMap.mp hm
          cases c <;> cases hct
          simp [holds, hp, hc]
      rw [if_pos hholds]
  · left
    refine ⟨o, w.changeTask task fun t => { t with received := t.received + 1 },
      by simp only [ho, List.getElem?_cons_zero], rfl, rfl, hfree, fun e he => ?_, fun e he => ?_⟩
    · exact fails_changeTask (f := fun t => { t with received := t.received + 1 }) (fun _ => rfl) he
    · exact ⟨t, List.mem_of_getElem? ht, by simp [ho, he]⟩

/-! ## What the worker does -/

theorem fails_report {o : Outcome} (h : (w.report task o).Fails e) :
    w.Fails e ∨ o = .failed e := by
  obtain ⟨t, ht, hout⟩ := h
  obtain ⟨j, hj⟩ := List.mem_iff_getElem?.mp ht
  unfold report at hj
  rw [getElem?_changeTask] at hj
  obtain ⟨t', ht', rfl⟩ := Option.map_eq_some_iff.mp hj
  split at hout
  · rcases List.mem_append.mp hout with hout | hout
    · exact .inl ⟨t', List.mem_of_getElem? ht', hout⟩
    · exact .inr (List.mem_singleton.mp hout).symm
  · exact .inl ⟨t', List.mem_of_getElem? ht', hout⟩

/-- A worker that tells of the end of the only task it has is free. -/
theorem Owes.report (h : w.Owes task) (hp : w.phase.task? = some task) (o : Outcome)
    {next : Phase} (hn : next.task? = none) :
    Owes { w.report task o with phase := next } task := by
  obtain ⟨t, ht, hrec, hout⟩ := h
  have hbusy : w.phase ≠ .exited := by
    intro he
    rw [he] at hp
    cases hp
  rcases hout with ⟨hnone, hload⟩ | ⟨-, hfree⟩
  · refine ⟨{ t with outcomes := t.outcomes ++ [o] }, ?_, hrec, .inr ⟨⟨o, by simp [hnone]⟩, ?_⟩⟩
    · unfold Worker.report
      simp only [getElem?_changeTask, ht, if_true, Option.map_some]
    · intro _
      have hl := hload hbusy
      unfold load at hl ⊢
      rw [hp] at hl
      simp only [Option.toList_some, List.cons_append, List.nil_append, List.cons.injEq,
        true_and] at hl
      simp [hn, Worker.report, changeTask, hl]
  · have hl := hfree hbusy
    unfold load at hl
    rw [hp] at hl
    cases hl

/-- The task under way is the one that is awaited, and there is no other. -/
theorem Serves.under_way (h : w.Serves awaited) {i : Nat} (hp : w.phase.task? = some i) :
    awaited = some i ∧ w.queue.filterMap Command.task? = [] := by
  have hbusy : w.phase ≠ .exited := by
    intro he
    rw [he] at hp
    cases hp
  have hne : ¬ w.load = [] := by simp [load, hp]
  cases awaited with
  | none => exact absurd (h hbusy) hne
  | some task =>
    obtain ⟨t, -, -, ⟨-, hload⟩ | ⟨-, hfree⟩⟩ := h
    · have hl := hload hbusy
      unfold load at hl
      rw [hp] at hl
      simp only [Option.toList_some, List.cons_append, List.nil_append, List.cons.injEq] at hl
      exact ⟨congrArg some hl.1.symm, hl.2⟩
    · exact absurd (hfree hbusy) hne

/-- A worker that goes on to another phase with the same load. -/
theorem Serves.of_load (h : w.Serves awaited) (hp : w.phase ≠ .exited) (ht : v.tasks = w.tasks)
    (hl : v.phase ≠ .exited → v.load = w.load) : v.Serves awaited := by
  cases awaited with
  | none => exact fun hv => (hl hv).trans (h hp)
  | some task =>
    obtain ⟨t, htask, hrec, hout⟩ := h
    refine ⟨t, by rw [ht, htask], hrec, ?_⟩
    rcases hout with ⟨hnone, hload⟩ | ⟨ho, hfree⟩
    · exact .inl ⟨hnone, fun hv => (hl hv).trans (hload hp)⟩
    · exact .inr ⟨ho, fun hv => (hl hv).trans (hfree hp)⟩

theorem Serves.report (h : w.Serves awaited) {i : Nat} (hp : w.phase.task? = some i) (o : Outcome)
    {next : Phase} (hn : next.task? = none) :
    Serves { w.report i o with phase := next } awaited := by
  obtain ⟨rfl, -⟩ := h.under_way hp
  exact Owes.report h hp o hn

/-- A step of the worker that runs no task. -/
theorem Serves.step? (h : w.Serves awaited) {due : Bool} (hs : w.step? due = some v)
    (hrun : ∀ i, w.phase ≠ .running i) :
    v.Serves awaited ∧ ∀ e, v.Fails e → w.Fails e := by
  unfold Worker.step? at hs
  split at hs
  · cases hs
  · cases hs
  · rename_i c queue hp hq
    cases hs
    cases c with
    | schedule i =>
      refine ⟨h.of_load (by rw [hp]; nofun) rfl ?_, fun e he => he⟩
      intro _
      simp [load, obeyIdle, hp, hq, Phase.task?, Command.task?]
    | wake =>
      refine ⟨h.of_load (by rw [hp]; nofun) rfl fun _ => ?_, fun e he => he⟩
      simp [load, obeyIdle, hq, List.filterMap_cons, Command.task?]
    | shutDown =>
      exact ⟨h.of_load (by rw [hp]; nofun) rfl fun hv => absurd rfl hv, fun e he => he⟩
  · rename_i i hp
    split at hs <;> cases hs
    · refine ⟨h.report (by rw [hp]; rfl) .cancelled rfl, ?_⟩
      intro e he
      exact (fails_report he).resolve_right nofun
    · refine ⟨h.of_load (by rw [hp]; nofun) rfl ?_, fun e he => he⟩
      intro _
      simp [load, hp, Phase.task?]
  · rename_i i c queue hp hq
    cases hs
    cases c with
    | schedule j =>
      have hnone := (h.under_way (i := i) (by rw [hp]; rfl)).2
      rw [hq] at hnone
      cases hnone
    | wake =>
      refine ⟨h.of_load (by rw [hp]; nofun) rfl fun _ => ?_, fun e he => he⟩
      simp [load, obeyBetween, hp, hq, Phase.task?, List.filterMap_cons, Command.task?]
    | shutDown =>
      have hq' : Serves { w with queue } awaited := by
        refine h.of_load (by rw [hp]; nofun) rfl ?_
        intro _
        simp [load, hq, List.filterMap_cons, Command.task?]
      have hp' : ({ w with queue }.raiseFlag i).1.phase.task? = some i := congrArg Phase.task? hp
      refine ⟨(hq'.raiseFlag i).report hp' .cancelled rfl, ?_⟩
      intro e he
      exact fails_raiseFlag (w := { w with queue }) ((fails_report he).resolve_right nofun)
  · rename_i i hp hq
    split at hs <;> cases hs
    refine ⟨h.of_load (by rw [hp]; nofun) rfl ?_, fun e he => he⟩
    intro _
    simp [load, hp, Phase.task?]
  · rename_i hp
    exact absurd hp (hrun _)

/-- The end of a run. A failure that is told of is that of the run. -/
theorem Serves.heed (h : w.Serves awaited) (hp : w.phase = .running task) (r : Report) :
    Serves ((w.changeTask task fun t => { t with runs := t.runs + 1 }).heed task r) awaited ∧
      ∀ e, Fails ((w.changeTask task fun t => { t with runs := t.runs + 1 }).heed task r) e →
        w.Fails e ∨ r.outcome? = some (.failed e) := by
  have hrun : (w.changeTask task fun t => { t with runs := t.runs + 1 }).Serves awaited :=
    h.changeTask task (fun _ => rfl) fun _ => rfl
  have hfails {e : ClockError}
      (he : (w.changeTask task fun t => { t with runs := t.runs + 1 }).Fails e) : w.Fails e :=
    fails_changeTask (f := fun t => { t with runs := t.runs + 1 }) (fun _ => rfl) he
  generalize hv : (w.changeTask task fun t => { t with runs := t.runs + 1 }) = v at hrun hfails
  have hvp : v.phase = .running task := by
    rw [← hv]
    exact hp
  unfold Worker.heed
  cases ho : r.outcome? with
  | none =>
    refine ⟨hrun.of_load (by rw [hvp]; nofun) rfl ?_, fun e he => .inl (hfails he)⟩
    intro _
    simp [load, hvp, Phase.task?]
  | some o =>
    have hflag : (if r = .cancel then v.flag task else v).Serves awaited := by
      split
      · exact hrun.raiseFlag task
      · exact hrun
    have hphase : (if r = .cancel then v.flag task else v).phase.task? = some task := by
      split <;> exact congrArg Phase.task? hvp
    refine ⟨hflag.report hphase o rfl, ?_⟩
    intro e he
    rcases fails_report he with he | rfl
    · left
      split at he
      · exact hfails (fails_raiseFlag he)
      · exact hfails he
    · exact .inr rfl

end Worker

end Metronome
