-- What becomes of a task. A task is not heard of, or it is turned away, or it
-- runs as long as its runs ask to go on and then ends once. Everything that
-- the worker sees of it, in order, is its tale.
import Metronome.Proofs.Worker.Sights

namespace Metronome

namespace Worker

/-! ## Shifts -/

/-- What a worker is busy with, as far as one can tell from what it saw. -/
inductive Shift where
  | idle
  | busy (task : Nat)
  | gone
  deriving DecidableEq, Repr

def Phase.shift : Phase → Shift
  | .idle => .idle
  | .checking task | .resting task | .running task => .busy task
  | .exited => .gone

/-- A worker takes a task when it is idle, and turns others away until that task has ended. Once
told to exit it sees nothing more. -/
def Shift.next? : Shift → Sight → Option Shift
  | .idle, .took i => some (.busy i)
  | .idle, .sawExit none => some .gone
  | .busy i, .rejected j under => if under = i ∧ j ≠ i then some (.busy i) else none
  | .busy i, .ran j r => if j = i then some (if r = .goOn then .busy i else .idle) else none
  | .busy i, .sawFlag j => if j = i then some .idle else none
  | .busy i, .sawExit (some j) => if j = i then some .gone else none
  | _, _ => none

/-! ## Tales -/

/-- The sight that ends a task which has gone on for `n` runs, and the outcome that it is told. -/
inductive Ends (i : Nat) (t : Task) (n : Nat) : Sight → Outcome → Prop where
  | ran {o : Outcome} (hruns : t.runs = n + 1) (ho : (t.body n).outcome? = some o) :
      Ends i t n (.ran i (t.body n)) o
  | flag (hruns : t.runs = n) : Ends i t n (.sawFlag i) .cancelled
  | exit (hruns : t.runs = n) : Ends i t n (.sawExit (some i)) .cancelled

/-- What a worker sees of a task, when this one is under way or none is. -/
inductive Tale (current : Option Nat) (i : Nat) (t : Task) : List Sight → Prop where
  | unheard (hc : current ≠ some i) (hruns : t.runs = 0) (ho : t.outcomes = []) :
      Tale current i t []
  | rejected {under : Nat} (hc : current ≠ some i) (hu : under ≠ i) (hruns : t.runs = 0)
      (ho : t.outcomes = [.failed .alreadyRunning]) : Tale current i t [.rejected i under]
  | underWay (hc : current = some i) (hgo : ∀ k < t.runs, t.body k = .goOn)
      (ho : t.outcomes = []) : Tale current i t (.took i :: .replicate t.runs (.ran i .goOn))
  | told {n : Nat} {last : Sight} {o : Outcome} (hc : current ≠ some i)
      (hgo : ∀ k < n, t.body k = .goOn) (ho : t.outcomes = [o]) (hend : Ends i t n last o) :
      Tale current i t (.took i :: .replicate n (.ran i .goOn) ++ [last])

namespace Tale

variable {current next : Option Nat} {i : Nat} {t t' : Task} {l : List Sight}

/-- The tale of one task is that of the others too. -/
theorem elsewhere (h : Tale current i t l) (hc : current = some i ↔ next = some i) :
    Tale next i t l := by
  cases h with
  | unheard h1 h2 h3 => exact .unheard (fun hn => h1 (hc.mpr hn)) h2 h3
  | rejected h1 h2 h3 h4 => exact .rejected (fun hn => h1 (hc.mpr hn)) h2 h3 h4
  | underWay h1 h2 h3 => exact .underWay (hc.mp h1) h2 h3
  | told h1 h2 h3 h4 => exact .told (fun hn => h1 (hc.mpr hn)) h2 h3 h4

/-- Neither a flag nor a client who listens is part of the tale. -/
theorem same (h : Tale current i t l) (hb : t'.body = t.body) (hr : t'.runs = t.runs)
    (ho : t'.outcomes = t.outcomes) : Tale current i t' l := by
  cases h with
  | unheard h1 h2 h3 => exact .unheard h1 (hr.trans h2) (ho.trans h3)
  | rejected h1 h2 h3 h4 => exact .rejected h1 h2 (hr.trans h3) (ho.trans h4)
  | underWay h1 h2 h3 =>
    rw [← hr]
    exact .underWay h1 (by rwa [hr, hb]) (ho.trans h3)
  | told h1 h2 h3 h4 =>
    refine .told h1 (by rwa [hb]) (ho.trans h3) ?_
    cases h4 with
    | ran h h' => rw [← hb] at h' ⊢; exact .ran (hr.trans h) h'
    | flag h => exact .flag (hr.trans h)
    | exit h => exact .exit (hr.trans h)

/-- There is never more than one outcome. -/
theorem length_outcomes (h : Tale current i t l) : t.outcomes.length ≤ 1 := by
  cases h <;> simp_all

/-- A task that is under way. -/
theorem of_current (h : Tale (some i) i t l) : l = .took i :: .replicate t.runs (.ran i .goOn) ∧
    (∀ k < t.runs, t.body k = .goOn) ∧ t.outcomes = [] := by
  cases h with
  | unheard hc => exact absurd rfl hc
  | rejected hc => exact absurd rfl hc
  | underWay _ hgo ho => exact ⟨rfl, hgo, ho⟩
  | told hc => exact absurd rfl hc

theorem of_nil (h : Tale current i t []) : current ≠ some i ∧ t.runs = 0 ∧ t.outcomes = [] := by
  generalize hl : ([] : List Sight) = l at h
  cases h with
  | unheard hc hr ho => exact ⟨hc, hr, ho⟩
  | _ => simp at hl

/-- A task under way comes to its end. -/
theorem ended (h : Tale (some i) i t l) {last : Sight} {o : Outcome} (hc : next ≠ some i)
    (hb : t'.body = t.body) (ho : t'.outcomes = t.outcomes ++ [o])
    (hend : Ends i t' t.runs last o) : Tale next i t' (l ++ [last]) := by
  obtain ⟨rfl, hgo, hout⟩ := h.of_current
  exact .told hc (by rwa [hb]) (by rw [ho, hout]; rfl) hend

end Tale

/-! ## The invariant -/

namespace Course

/-- What every course keeps. The commands come in the order in which the tasks were numbered. -/
structure Kept (c : Course) : Prop where
  tales : ∀ (i : Nat) (t : Task), c.worker.tasks[i]? = some t →
    Tale c.worker.phase.task? i t (c.story i)
  shift : c.seen.foldlM Shift.next? .idle = some c.worker.phase.shift
  sorted : c.worker.load.Pairwise (· < ·)
  known : ∀ i ∈ c.worker.load, i < c.worker.tasks.length
  waiting : ∀ i ∈ c.worker.queue.filterMap Command.task?, c.story i = []
  told : ∀ i, c.story i ≠ [] → i < c.worker.tasks.length

namespace Kept

variable {c d : Course} {a : Act} {i : Nat}

theorem spawned (core : Option Core) (pins : Pins) : Kept (.spawned core pins) := by
  have h : (spawn core pins).tasks = [] ∧ (spawn core pins).queue = [] ∧
      (spawn core pins).phase = .idle := by
    cases core <;> exact ⟨rfl, rfl, rfl⟩
  obtain ⟨ht, hq, hp⟩ := h
  refine ⟨?_, ?_, ?_, ?_, ?_, ?_⟩ <;> simp [Course.spawned, ht, hq, hp, load, story, Phase.task?,
    Phase.shift]

/-- The task under way and those behind it. -/
theorem load_eq (hp : c.worker.phase.task? = some i) :
    c.worker.load = i :: c.worker.queue.filterMap Command.task? := by
  simp [load, hp]

theorem notMem_queue (h : Kept c) (hp : c.worker.phase.task? = some i) :
    i ∉ c.worker.queue.filterMap Command.task? := by
  have hs := h.sorted
  rw [load_eq hp] at hs
  exact fun hi => Nat.lt_irrefl i ((List.pairwise_cons.mp hs).1 i hi)

theorem exists_task (h : Kept c) (hi : i ∈ c.worker.load) : ∃ t, c.worker.tasks[i]? = some t :=
  ⟨_, List.getElem?_eq_getElem (h.known i hi)⟩

theorem story_of_length_le (h : Kept c) (hi : c.worker.tasks.length ≤ i) : c.story i = [] :=
  Classical.byContradiction fun hne => Nat.not_lt_of_le hi (h.told i hne)

theorem length_le (hcalm : Calm a c.worker d.worker) :
    c.worker.tasks.length ≤ d.worker.tasks.length := by
  refine Nat.le_of_not_lt fun hlt => ?_
  obtain ⟨t', ht', -⟩ := hcalm.tasks _ _ (List.getElem?_eq_getElem hlt)
  exact Nat.lt_irrefl _ (List.getElem?_eq_some_iff.mp ht').1

/-- Nothing is seen in a calm act. -/
theorem calm (h : Kept c) (hcalm : Calm a c.worker d.worker) (hseen : d.seen = c.seen) :
    Kept d := by
  have hstory (i : Nat) : d.story i = c.story i := by simp only [story, hseen]
  have hlen := length_le hcalm
  -- a task that has just come is behind all the others
  obtain ⟨new, hqueue, hnew⟩ : ∃ new, d.worker.queue.filterMap Command.task? =
      c.worker.queue.filterMap Command.task? ++ new ∧ (new = [] ∨
        new = [c.worker.tasks.length] ∧ c.worker.tasks.length < d.worker.tasks.length) := by
    rcases hcalm.queue with hq | ⟨hq, hlt⟩
    · exact ⟨[], by rw [hq, List.append_nil], .inl rfl⟩
    · refine ⟨_, by rw [hq, List.filterMap_append], (c.worker.sent_tasks a).imp_right fun hs => ?_⟩
      exact ⟨hs, hlt _ (by rw [hs]; exact List.mem_singleton_self _)⟩
  have hload : d.worker.load = c.worker.load ++ new := by
    unfold load
    rw [hcalm.phase, hqueue, List.append_assoc]
  exact
    { tales := by
        intro i t' ht'
        rw [hstory, hcalm.phase]
        cases ht : c.worker.tasks[i]? with
        | some t =>
          obtain ⟨t'', ht'', hb, hr, ho, -⟩ := hcalm.tasks i t ht
          rw [ht''] at ht'
          cases ht'
          exact (h.tales i t ht).same hb hr ho
        | none =>
          have hnone := List.getElem?_eq_none_iff.mp ht
          obtain ⟨hr, ho, -⟩ := hcalm.fresh i t' ht' ht
          rw [h.story_of_length_le hnone]
          refine .unheard ?_ hr ho
          intro hp
          have hi := h.known i (by rw [load_eq hp]; exact List.mem_cons_self)
          omega
      shift := by
        rw [hseen, hcalm.phase]
        exact h.shift
      sorted := by
        rw [hload]
        refine List.pairwise_append.mpr ⟨h.sorted, ?_, ?_⟩ <;> rcases hnew with rfl | ⟨rfl, -⟩
        · exact .nil
        · exact List.pairwise_singleton _ _
        · simp
        · intro i hi j hj
          rw [List.mem_singleton.mp hj]
          exact h.known i hi
      known := by
        intro i hi
        rw [hload] at hi
        rcases List.mem_append.mp hi with hi | hi
        · exact Nat.lt_of_lt_of_le (h.known i hi) hlen
        · rcases hnew with rfl | ⟨rfl, hlt⟩
          · cases hi
          · rwa [List.mem_singleton.mp hi]
      waiting := by
        intro i hi
        rw [hstory]
        rw [hqueue] at hi
        rcases List.mem_append.mp hi with hi | hi
        · exact h.waiting i hi
        · rcases hnew with rfl | ⟨rfl, -⟩
          · cases hi
          · exact h.story_of_length_le (Nat.le_of_eq (List.mem_singleton.mp hi).symm)
      told := by
        intro i hi
        rw [hstory] at hi
        exact Nat.lt_of_lt_of_le (h.told i hi) hlen }

/-- A step in which nothing is seen of any task. -/
theorem quiet (h : Kept c) {s : Option Sight} (hseen : d.seen = c.seen ++ s.toList)
    (hs : ∀ x ∈ s, x.task? = none) (htasks : d.worker.tasks = c.worker.tasks)
    (hphase : d.worker.phase.task? = c.worker.phase.task?)
    (hshift : s.toList.foldlM Shift.next? c.worker.phase.shift = some d.worker.phase.shift)
    (hqueue : (d.worker.queue.filterMap Command.task?).Sublist
      (c.worker.queue.filterMap Command.task?)) : Kept d := by
  have hstory (j : Nat) : d.story j = c.story j := by
    have hnil : s.toList.filter (fun x => x.task? = some j) = [] := by
      refine List.filter_eq_nil_iff.mpr fun x hx => ?_
      simp [hs x (by simpa using hx)]
    simp only [story, hseen, List.filter_append, hnil, List.append_nil]
  have hload : d.worker.load.Sublist c.worker.load := by
    unfold load
    rw [hphase]
    exact hqueue.append_left _
  exact
    { tales := by
        intro j t ht
        rw [hphase, hstory]
        exact h.tales j t (htasks ▸ ht)
      shift := by
        rw [hseen, List.foldlM_append, h.shift]
        exact hshift
      sorted := h.sorted.sublist hload
      known := fun j hj => htasks ▸ h.known j (hload.subset hj)
      waiting := fun j hj => (hstory j).trans (h.waiting j (hqueue.subset hj))
      told := fun j hj => htasks ▸ h.told j (hstory j ▸ hj) }

/-- A step in which something is seen of one task. -/
theorem deal (h : Kept c) {s : Sight} (hseen : d.seen = c.seen ++ [s]) {i : Nat}
    (hs : s.task? = some i) {f : Task → Task}
    (htasks : d.worker.tasks = c.worker.tasks.modify i f)
    (htale : ∀ t, c.worker.tasks[i]? = some t →
      Tale d.worker.phase.task? i (f t) (c.story i ++ [s]))
    (hcurrent : ∀ j ≠ i, c.worker.phase.task? = some j ↔ d.worker.phase.task? = some j)
    (hshift : Shift.next? c.worker.phase.shift s = some d.worker.phase.shift)
    (hload : d.worker.load.Sublist c.worker.load)
    (hqueue : (d.worker.queue.filterMap Command.task?).Sublist
      (c.worker.queue.filterMap Command.task?))
    (hmem : i ∈ c.worker.load) (hnot : i ∉ d.worker.queue.filterMap Command.task?) : Kept d := by
  have hlen : d.worker.tasks.length = c.worker.tasks.length := by rw [htasks, List.length_modify]
  have hstory : d.story i = c.story i ++ [s] := by
    simp [story, hseen, hs]
  have helse {j : Nat} (hj : i ≠ j) : d.story j = c.story j := by
    simp [story, hseen, hs, hj]
  exact
    { tales := by
        intro j t' ht'
        rw [htasks, List.getElem?_modify] at ht'
        obtain ⟨t, ht, rfl⟩ := Option.map_eq_some_iff.mp ht'
        by_cases hj : i = j
        · subst hj
          rw [if_pos rfl, hstory]
          exact htale t ht
        · rw [if_neg hj, helse hj]
          exact (h.tales j t ht).elsewhere (hcurrent j (Ne.symm hj))
      shift := by
        rw [hseen, List.foldlM_append, h.shift]
        simpa using hshift
      sorted := h.sorted.sublist hload
      known := fun j hj => hlen ▸ h.known j (hload.subset hj)
      waiting := by
        intro j hj
        rw [helse fun he => hnot (he ▸ hj)]
        exact h.waiting j (hqueue.subset hj)
      told := by
        intro j hj
        rw [hlen]
        by_cases hij : i = j
        · exact hij ▸ h.known i hmem
        · exact h.told j (helse hij ▸ hj) }

/-- A step after which the task under way is not under way any more. -/
theorem finish (h : Kept c) {s : Sight} {f : Task → Task} (o : Outcome)
    (hseen : d.seen = c.seen ++ [s]) (hs : s.task? = some i)
    (hp : c.worker.phase.task? = some i)
    (htasks : d.worker.tasks = c.worker.tasks.modify i f) (hnext : d.worker.phase.task? = none)
    (hf : ∀ t, c.worker.tasks[i]? = some t → (f t).body = t.body ∧
      (f t).outcomes = t.outcomes ++ [o] ∧ Ends i (f t) t.runs s o)
    (hshift : Shift.next? c.worker.phase.shift s = some d.worker.phase.shift)
    (hqueue : (d.worker.queue.filterMap Command.task?).Sublist
      (c.worker.queue.filterMap Command.task?)) : Kept d := by
  refine h.deal hseen hs htasks ?_ ?_ hshift ?_ hqueue ?_ ?_
  · intro t ht
    have htale := h.tales i t ht
    rw [hp] at htale
    obtain ⟨hb, ho, hend⟩ := hf t ht
    rw [hnext]
    exact htale.ended (by simp) hb ho hend
  · intro j hj
    rw [hp, hnext]
    exact ⟨fun he => absurd (Option.some.inj he).symm hj, by simp⟩
  · rw [load_eq hp]
    unfold load
    rw [hnext]
    exact hqueue.cons _
  · rw [load_eq hp]
    exact List.mem_cons_self
  · exact fun hmem => h.notMem_queue hp (hqueue.subset hmem)

/-- An idle worker takes the first task of its queue. -/
theorem take (h : Kept c) {q : List Command} (hp : c.worker.phase = .idle)
    (hq : c.worker.queue = .schedule i :: q) (hseen : d.seen = c.seen ++ [.took i])
    (hd : d.worker = { c.worker with queue := q, phase := .checking i }) : Kept d := by
  have hall : c.worker.load = i :: q.filterMap Command.task? := by
    simp [load, hp, hq, Phase.task?, Command.task?]
  have hload : d.worker.load = c.worker.load := by
    rw [hall, hd]
    rfl
  have hsorted := h.sorted
  rw [hall] at hsorted
  have hunheard : c.story i = [] := h.waiting i (by simp [hq, Command.task?])
  refine h.deal hseen rfl (by rw [hd]; exact (List.modify_id i _).symm) ?_ ?_ ?_
    (hload ▸ .refl _) ?_ ?_ ?_
  · intro t ht
    have htale := h.tales i t ht
    rw [hunheard] at htale ⊢
    obtain ⟨-, hruns, ho⟩ := htale.of_nil
    have hnew : Tale (some i) i t _ := .underWay rfl (by simp [hruns]) ho
    rw [hruns] at hnew
    rw [hd]
    exact hnew
  · intro j hj
    rw [hp, hd]
    exact ⟨by simp [Phase.task?], fun he => absurd (Option.some.inj he).symm hj⟩
  · simp [hp, hd, Phase.shift, Shift.next?]
  · simp [hq, hd, Command.task?]
  · rw [hall]
    exact List.mem_cons_self
  · rw [hd]
    exact fun hi => Nat.lt_irrefl i ((List.pairwise_cons.mp hsorted).1 i hi)

/-- A worker that rests over a task turns the next one away. -/
theorem reject (h : Kept c) {j : Nat} {q : List Command} (hp : c.worker.phase = .resting i)
    (hq : c.worker.queue = .schedule j :: q) (hseen : d.seen = c.seen ++ [.rejected j i])
    (hd : d.worker =
      { report { c.worker with queue := q } j (.failed .alreadyRunning) with
        phase := .checking i }) :
    Kept d := by
  have hall : c.worker.load = i :: j :: q.filterMap Command.task? := by
    simp [load, hp, hq, Phase.task?, Command.task?]
  have hload : d.worker.load = i :: q.filterMap Command.task? := by
    simp [hd, load, report, changeTask, Phase.task?]
  have hsorted := h.sorted
  rw [hall, List.pairwise_cons] at hsorted
  have hij : i < j := hsorted.1 j List.mem_cons_self
  refine h.deal hseen rfl (by rw [hd]; rfl) ?_ ?_ ?_ ?_ ?_ ?_ ?_
  · intro t ht
    have htale := h.tales j t ht
    rw [h.waiting j (by simp [hq, Command.task?])] at htale ⊢
    obtain ⟨hc, hruns, ho⟩ := htale.of_nil
    refine .rejected ?_ (Nat.ne_of_lt hij) hruns (by rw [ho]; rfl)
    rw [hp] at hc
    rwa [hd]
  · intro k _
    rw [hp, hd]
    rfl
  · simp [hp, hd, Phase.shift, Shift.next?, Nat.ne_of_gt hij]
  · rw [hload, hall]
    exact (List.sublist_cons_self _ _).cons_cons _
  · simp [hq, hd, report, changeTask, Command.task?]
  · rw [hall]
    simp
  · rw [hd]
    exact fun hj => Nat.lt_irrefl j ((List.pairwise_cons.mp hsorted.2).1 j hj)

/-- A run of the task under way asks to go on. -/
theorem again (h : Kept c) {t : Task} (hp : c.worker.phase = .running i)
    (ht : c.worker.tasks[i]? = some t) (hr : t.body t.runs = .goOn)
    (hseen : d.seen = c.seen ++ [.ran i .goOn])
    (hd : d.worker = { c.worker.changeTask i fun t => { t with runs := t.runs + 1 } with
      phase := .checking i }) : Kept d := by
  have hp' : c.worker.phase.task? = some i := congrArg Phase.task? hp
  have hload : d.worker.load = c.worker.load := by simp [hd, hp, load, changeTask, Phase.task?]
  have hqueue : d.worker.queue = c.worker.queue := by rw [hd]; rfl
  refine h.deal hseen rfl (by rw [hd]; rfl) ?_ ?_ ?_ (hload ▸ .refl _) (hqueue ▸ .refl _) ?_
    (hqueue ▸ h.notMem_queue hp')
  · intro t' ht'
    rw [ht] at ht'
    cases ht'
    have htale := h.tales i t ht
    rw [hp'] at htale
    obtain ⟨hstory, hgo, ho⟩ := htale.of_current
    rw [hstory, List.cons_append, ← List.replicate_succ', hd]
    refine .underWay rfl ?_ ho
    intro k hk
    rcases Nat.lt_succ_iff_lt_or_eq.mp hk with hk | rfl
    · exact hgo k hk
    · exact hr
  · intro j _
    rw [hp, hd]
    rfl
  · simp [hp, hd, Phase.shift, Shift.next?]
  · rw [load_eq hp']
    exact List.mem_cons_self

theorem step (h : Kept c) (a : Act) : Kept (c.step a) := by
  rcases act_cases c.worker a with ⟨hsees, hcalm⟩ | ⟨due, s, rfl, hsees, hs, hstep⟩
  · exact h.calm hcalm (by simp [Course.step, hsees])
  have hseen : (c.step (.step due)).seen = c.seen ++ s.toList := by simp [Course.step, hsees]
  generalize hd : c.step (.step due) = d at hseen
  have hw : c.worker.act (.step due) = d.worker := by rw [← hd]; rfl
  rw [hw] at hstep
  clear hs hsees hd hw
  obtain ⟨v, acts, seen⟩ := d
  dsimp only at hseen hstep
  have hqueue := hstep.queue_suffix.sublist.filterMap Command.task?
  cases hstep with
  | stir hp hq => exact h.quiet hseen (by simp) rfl (by rw [hp]) (by rw [hp]; rfl) hqueue
  | rest hp hc => exact h.quiet hseen (by simp) rfl (by rw [hp]; rfl) (by rw [hp]; rfl) hqueue
  | begin hp hq => exact h.quiet hseen (by simp) rfl (by rw [hp]; rfl) (by rw [hp]; rfl) hqueue
  | wakeUp hp hq => exact h.quiet hseen (by simp) rfl (by rw [hp]; rfl) (by rw [hp]; rfl) hqueue
  | leave hp hq =>
    exact h.quiet hseen (by simp [Sight.task?]) rfl (by rw [hp]; rfl) (by rw [hp]; rfl) hqueue
  | lost hp ht =>
    obtain ⟨t, ht'⟩ := h.exists_task (by
      rw [load_eq (congrArg Phase.task? hp)]
      exact List.mem_cons_self)
    rw [ht] at ht'
    cases ht'
  | heed hp hc =>
    refine h.finish .cancelled hseen rfl (congrArg Phase.task? hp) rfl rfl ?_ ?_ hqueue
    · exact fun t ht => ⟨rfl, rfl, .flag rfl⟩
    · simp [hp, Phase.shift, Shift.next?]
  | quit hp hq =>
    refine h.finish .cancelled hseen rfl (congrArg Phase.task? hp)
      (List.modify_modify_eq _ _ _ _) rfl ?_ ?_ hqueue
    · exact fun t ht => ⟨rfl, rfl, .exit rfl⟩
    · simp [hp, Phase.shift, Shift.next?]
  | @finish _ _ o hp ht ho cancelled =>
    refine h.finish o hseen rfl (congrArg Phase.task? hp) rfl rfl ?_ ?_ hqueue
    · intro t' ht'
      rw [ht] at ht'
      cases ht'
      exact ⟨rfl, rfl, .ran rfl ho⟩
    · have hne : ¬ _ := mt outcome?_eq_none.mpr (by rw [ho]; simp)
      simp [hp, Phase.shift, Shift.next?, hne]
  | take hp hq => exact h.take hp hq hseen rfl
  | reject hp hq => exact h.reject hp hq hseen rfl
  | again hp ht hr => exact h.again hp ht hr hseen rfl

theorem play (h : Kept c) (acts : List Act) : Kept (c.play acts) :=
  play_keeps (fun _ a h => h.step a) acts h

end Kept

end Course

end Worker

end Metronome
