-- One client and its worker. The client does one thing after another, and it
-- sends a new task only when it has heard of the end of the one before or has
-- cancelled that one. The worker goes on in between whenever it likes.
import Metronome.Proofs.Worker.Endings

namespace Metronome

namespace Worker

/-! ## Moves -/

/-- What the client is about to do. -/
inductive Hand where
  | free
  /-- It has raised the flag of a task for the first time, and has to wake the worker. -/
  | waking (task : Nat)
  /-- It has told the worker to exit, and has to release its pin. -/
  | unpinning
  /-- It waits for the worker to exit. -/
  | joining
  deriving DecidableEq, Repr

structure Session where
  course : Course
  hand : Hand := .free
  /-- The tasks for which a call to cancel them has returned. -/
  recalled : List Nat := []
  /-- The tasks of whose end the client has heard. -/
  heard : List Nat := []

inductive Move where
  | schedule (period : Duration) (body : Nat → Report)
  | cancel (task : Nat)
  | wake
  | receive (task : Nat)
  | leave
  | unpin
  | join
  | work (due : Bool)

namespace Session

def worker (s : Session) : Worker := s.course.worker

/-- The client knows that the newest task needs no more runs. -/
def settled (s : Session) : Bool :=
  match s.worker.tasks.length with
  | 0 => true
  | n + 1 => n ∈ s.recalled || n ∈ s.heard

/-- One move. The client makes no other one than those that its hand is free for. -/
def move? (s : Session) : Move → Option Session
  | .schedule period body =>
    if s.hand = .free ∧ s.settled = true then
      some { s with course := s.course.step (.schedule period body) }
    else none
  | .cancel task =>
    if s.hand = .free ∧ task < s.worker.tasks.length then
      let raised := { s with course := s.course.step (.raise task) }
      some (if s.worker.isCancelled task then { raised with recalled := task :: s.recalled }
        else { raised with hand := .waking task })
    else none
  | .wake =>
    match s.hand with
    | .waking task => some { s with
        course := s.course.step .wake
        hand := .free
        recalled := task :: s.recalled }
    | _ => none
  | .receive task =>
    if s.hand = .free then
      let asked := { s with course := s.course.step (.receive task) }
      match (s.worker.receive task).2 with
      | .outcome _ => some { asked with heard := task :: s.heard }
      | _ => some asked
    else none
  | .leave =>
    if s.hand = .free then some { s with course := s.course.step .tell, hand := .unpinning }
    else none
  | .unpin =>
    match s.hand with
    | .free => some { s with course := s.course.step .unpin }
    | .unpinning => some { s with course := s.course.step .unpin, hand := .joining }
    | _ => none
  | .join =>
    if s.hand = .joining ∧ s.worker.phase = .exited then some { s with hand := .free } else none
  | .work due => some { s with course := s.course.step (.step due) }

def play (s : Session) : List Move → Option Session
  | [] => some s
  | m :: moves => (s.move? m).bind (·.play moves)

def opening (core : Option Core) (pins : Pins) : Session := { course := .spawned core pins }

variable {s t : Session}

/-- What every move keeps, every session keeps. -/
theorem play_keeps {I : Session → Prop} (hI : ∀ s m t, I s → s.move? m = some t → I t)
    {moves : List Move} (h : I s) (hs : s.play moves = some t) : I t := by
  induction moves generalizing s with
  | nil =>
    cases hs
    exact h
  | cons m moves ih =>
    obtain ⟨u, hu, ht⟩ := Option.bind_eq_some_iff.mp hs
    exact ih (hI s m u h hu) ht

end Session

/-! ## Flags -/

variable {w v : Worker} {a : Act} {i j : Nat}

theorem isCancelled_iff : w.isCancelled i = true ↔
    ∃ t, w.tasks[i]? = some t ∧ t.cancelled = true := by
  simp only [isCancelled, Option.any_eq_true]

/-- No flag is ever lowered. -/
theorem isCancelled_act (h : w.isCancelled i = true) (a : Act) :
    (w.act a).isCancelled i = true := by
  obtain ⟨t, ht, hc⟩ := isCancelled_iff.mp h
  obtain ⟨t', ht', hold⟩ := older_act a ht
  exact isCancelled_iff.mpr ⟨t', ht', hold.cancelled hc⟩

/-- Nothing changes for a worker that has exited, or the commands come last in its queue. -/
theorem send_cases (w : Worker) (c : Command) : w.phase = .exited ∧ (w.send? c).getD w = w ∨
    w.phase ≠ .exited ∧ (w.send? c).getD w = { w with queue := w.queue ++ [c] } := by
  unfold send?
  split
  · exact .inl ⟨‹_›, rfl⟩
  · exact .inr ⟨‹_›, rfl⟩

/-- A task of which an end was told. -/
def Told (w : Worker) (i : Nat) : Prop := ∃ t, w.tasks[i]? = some t ∧ t.outcomes ≠ []

theorem Told.act (h : w.Told i) (a : Act) : (w.act a).Told i := by
  obtain ⟨t, ht, ho⟩ := h
  obtain ⟨t', ht', hold⟩ := older_act a ht
  exact ⟨t', ht', hold.outcomes ho⟩

theorem told_of_receive {o : Outcome} (h : (w.receive i).2 = .outcome o) : w.Told i := by
  unfold receive at h
  cases ht : w.tasks[i]? with
  | none => rw [ht] at h; cases h
  | some t =>
    refine ⟨t, ht, ?_⟩
    intro ho
    rw [ht] at h
    simp only [ho, List.getElem?_nil] at h
    split at h <;> cases h

/-- Nothing was told of a task under way or in the queue. -/
theorem Course.Kept.not_told {c : Course} (h : c.Kept) (hi : i ∈ c.worker.load) :
    ¬ c.worker.Told i := by
  rintro ⟨t, ht, ho⟩
  have htale := h.tales i t ht
  rcases List.mem_append.mp hi with hi | hi
  · have hp : c.worker.phase.task? = some i := by simpa using hi
    rw [hp] at htale
    exact ho htale.of_current.2.2
  · rw [h.waiting i hi] at htale
    exact ho htale.of_nil.2.2

/-! ## The invariant -/

namespace Session

/-- The order that a lone client keeps. Every task but the newest was cancelled, and a worker
that rests over a cancelled task is about to find that it was woken. -/
structure Orderly (s : Session) : Prop where
  kept : s.course.Kept
  recalled : ∀ i ∈ s.recalled, s.worker.isCancelled i = true
  raised : ∀ i, s.hand = .waking i → s.worker.isCancelled i = true ∧ i ∉ s.recalled
  heard : ∀ i ∈ s.heard, s.worker.Told i
  others : ∀ i ∈ s.worker.load, i + 1 ≠ s.worker.tasks.length → i ∈ s.recalled
  woken : ∀ i, s.worker.phase = .resting i → s.worker.isCancelled i = true →
    s.hand = .waking i ∨ s.worker.queue.head? = some .wake
  leaving : .shutDown ∈ s.worker.queue → s.hand = .unpinning ∨ s.hand = .joining
  last : .shutDown ∉ s.worker.queue.dropLast
  gone : s.worker.phase = .exited → s.worker.queue = []
  pending : ∀ i < s.worker.tasks.length, ¬ s.worker.Told i → i ∈ s.worker.load
  never : ∀ i under, .rejected i under ∉ s.course.seen

namespace Orderly

variable {s t : Session}

theorem opening (core : Option Core) (pins : Pins) : Orderly (.opening core pins) := by
  have h : (spawn core pins).tasks = [] ∧ (spawn core pins).queue = [] ∧
      (spawn core pins).phase = .idle := by
    cases core <;> exact ⟨rfl, rfl, rfl⟩
  obtain ⟨ht, hq, hp⟩ := h
  refine ⟨.spawned core pins, ?_, ?_, ?_, ?_, ?_, ?_, ?_, ?_, ?_, ?_⟩ <;>
    simp [Session.opening, Session.worker, Course.spawned, ht, hq, hp, load, Phase.task?]

/-- A task before the newest one was cancelled. -/
theorem recalled_of_lt (h : Orderly s) (hi : i ∈ s.worker.load) (hj : j ∈ s.worker.load)
    (hij : i < j) : i ∈ s.recalled := by
  have hlt := h.kept.known j hj
  refine h.others i hi ?_
  show i + 1 ≠ s.course.worker.tasks.length
  omega

/-- A worker that rests over a task whose cancelling has returned was woken. -/
theorem woken_of_recalled (h : Orderly s) (hp : s.worker.phase = .resting i)
    (hi : i ∈ s.recalled) : s.worker.queue.head? = some .wake :=
  (h.woken i hp (h.recalled i hi)).resolve_left fun hw => (h.raised i hw).2 hi

/-- A calm move in which no task is sent. -/
theorem calm (h : Orderly s) (hcourse : t.course = s.course.step a)
    (hsees : s.worker.sights a = []) (hcalm : Calm a s.worker (s.worker.act a))
    (htask : (s.worker.sent a).filterMap Command.task? = [])
    (hlen : (s.worker.act a).tasks.length = s.worker.tasks.length)
    (hqueue : (s.worker.act a).queue = s.worker.queue ∨ s.worker.phase ≠ .exited ∧
      .shutDown ∉ s.worker.queue ∧ (s.worker.act a).queue = s.worker.queue ++ s.worker.sent a)
    (hold : ∀ i ∈ s.recalled, i ∈ t.recalled)
    (hrecalled : ∀ i ∈ t.recalled, i ∈ s.recalled ∨ t.worker.isCancelled i = true)
    (hraised : ∀ i, t.hand = .waking i → t.worker.isCancelled i = true ∧ i ∉ t.recalled)
    (hheard : ∀ i ∈ t.heard, i ∈ s.heard ∨ s.worker.Told i)
    (hwoken : ∀ i, s.worker.phase = .resting i → t.worker.isCancelled i = true →
      t.hand = .waking i ∨ t.worker.queue.head? = some .wake)
    (hleaving : .shutDown ∈ t.worker.queue → t.hand = .unpinning ∨ t.hand = .joining) :
    Orderly t := by
  have hw : t.worker = s.worker.act a := congrArg Course.worker hcourse
  have hload : t.worker.load = s.worker.load := by
    unfold load
    rw [hw, hcalm.phase]
    rcases hqueue with hq | ⟨-, -, hq⟩ <;> rw [hq]
    rw [List.filterMap_append, htask, List.append_nil]
  have hseen : t.course.seen = s.course.seen := by
    rw [hcourse]
    show s.course.seen ++ s.worker.sights a = s.course.seen
    rw [hsees, List.append_nil]
  exact
    { kept := hcourse ▸ h.kept.step a
      recalled := by
        intro i hi
        rcases hrecalled i hi with hi | hi
        · rw [hw]
          exact isCancelled_act (h.recalled i hi) a
        · exact hi
      raised := hraised
      heard := by
        intro i hi
        rw [hw]
        exact ((hheard i hi).elim (h.heard i) id).act a
      others := by
        intro i hi hne
        rw [hload] at hi
        rw [hw, hlen] at hne
        exact hold i (h.others i hi hne)
      woken := by
        intro i hp hc
        rw [hw, hcalm.phase] at hp
        exact hwoken i hp hc
      leaving := hleaving
      last := by
        rw [hw]
        rcases hqueue with hq | ⟨-, hnot, hq⟩ <;> rw [hq]
        · exact h.last
        · rcases s.worker.sent_cases a with hs | ⟨c, hs⟩ <;> rw [hs]
          · rw [List.append_nil]
            exact h.last
          · rwa [List.dropLast_concat]
      gone := by
        intro hp
        rw [hw, hcalm.phase] at hp
        rcases hqueue with hq | ⟨hne, -, -⟩
        · rw [hw, hq]
          exact h.gone hp
        · exact absurd hp hne
      pending := by
        intro i hi hnot
        rw [hw, hlen] at hi
        rw [hload]
        refine h.pending i hi fun htold => hnot ?_
        rw [hw]
        exact htold.act a
      never := by
        rw [hseen]
        exact h.never }

/-- A head stays a head, whatever comes behind it. -/
theorem head?_append {q : List Command} {c : Command} (h : q.head? = some c) (l : List Command) :
    (q ++ l).head? = some c := by
  rw [List.head?_append, h]
  rfl

theorem cancel (h : Orderly s) (hs : s.move? (.cancel i) = some t) : Orderly t := by
  simp only [move?] at hs
  split at hs
  · rename_i hfree
    have hcalm : Calm (.raise i) s.worker (s.worker.act (.raise i)) :=
      (calm_act s.worker (.raise i)).resolve_left (by simp) |>.2
    have hflag : (s.worker.act (.raise i)).isCancelled i = true := by
      obtain ⟨x, hx⟩ : ∃ x, s.worker.tasks[i]? = some x := ⟨_, List.getElem?_eq_getElem hfree.2⟩
      refine isCancelled_iff.mpr ⟨{ x with cancelled := true }, ?_, rfl⟩
      simp only [Worker.act, raiseFlag, getElem?_changeTask, hx, if_true, Option.map_some]
    have hother {j : Nat} (hj : j ≠ i)
        (hc : (s.worker.act (.raise i)).isCancelled j = true) : s.worker.isCancelled j = true := by
      obtain ⟨x, hx, hcx⟩ := isCancelled_iff.mp hc
      simp only [Worker.act, raiseFlag, getElem?_changeTask, if_neg hj.symm, Option.map_id_fun',
        id] at hx
      exact isCancelled_iff.mpr ⟨x, hx, hcx⟩
    have hleaving : .shutDown ∈ s.worker.queue → False := by
      intro hq
      rcases h.leaving hq with hh | hh <;> rw [hfree.1] at hh <;> cases hh
    cases hc : s.worker.isCancelled i with
    | true =>
      rw [hc] at hs
      cases hs
      refine h.calm rfl rfl hcalm rfl (List.length_modify _ _ _) (.inl rfl)
        (fun j hj => List.mem_cons_of_mem _ hj) ?_ ?_ (fun _ => .inl) ?_
        fun hq => (hleaving hq).elim
      · intro j hj
        rcases List.mem_cons.mp hj with rfl | hj
        · exact .inr hflag
        · exact .inl hj
      · intro j hj
        rw [show s.hand = .free from hfree.1] at hj
        cases hj
      · intro j hp hcj
        have hold : s.worker.isCancelled j = true := by
          by_cases hj : j = i
          · rwa [hj]
          · exact hother hj hcj
        exact h.woken j hp hold
    | false =>
      rw [hc] at hs
      cases hs
      refine h.calm rfl rfl hcalm rfl (List.length_modify _ _ _) (.inl rfl) (fun _ => id)
        (fun _ => .inl) ?_ (fun _ => .inl) ?_ fun hq => (hleaving hq).elim
      · intro j hj
        cases hj
        refine ⟨hflag, fun hr => ?_⟩
        rw [h.recalled _ hr] at hc
        cases hc
      · intro j hp hcj
        by_cases hj : j = i
        · exact .inl (congrArg Hand.waking hj.symm)
        · right
          have hw := h.woken j hp (hother hj hcj)
          exact hw.resolve_left fun hh => by rw [hfree.1] at hh; cases hh
  · cases hs

/-- The head of a queue that holds stale wake-ups only, and one more. -/
theorem head?_of_wakes {q : List Command} (hq : q.filterMap Command.task? = [])
    (hs : .shutDown ∉ q) : (q ++ [Command.wake]).head? = some .wake := by
  rcases q with _ | ⟨_ | _ | _, q⟩
  · rfl
  · cases hq
  · rfl
  · exact absurd List.mem_cons_self hs

/-- A call of the client that sends a command, unless the worker has exited. -/
theorem send (h : Orderly s) {c : Command}
    (hact : s.worker.act a = (s.worker.send? c).getD s.worker)
    (hsent : s.worker.sent a = [c]) (hsees : s.worker.sights a = []) (hc : c.task? = none)
    (hcourse : t.course = s.course.step a)
    (hhand : s.hand ≠ .unpinning ∧ s.hand ≠ .joining)
    (hold : ∀ i ∈ s.recalled, i ∈ t.recalled)
    (hrecalled : ∀ i ∈ t.recalled, i ∈ s.recalled ∨ s.worker.isCancelled i = true)
    (hraised : ∀ i, t.hand ≠ .waking i) (hheard : t.heard = s.heard)
    (hwoken : ∀ i, s.worker.phase = .resting i → s.hand = .waking i →
      (s.worker.queue ++ [c]).head? = some .wake)
    (hleaving : c = .shutDown → t.hand = .unpinning) : Orderly t := by
  have hno : .shutDown ∉ s.worker.queue := fun hq =>
    (h.leaving hq).elim hhand.1 hhand.2
  have hw : t.worker = s.worker.act a := congrArg Course.worker hcourse
  have hcalm : Calm a s.worker (s.worker.act a) := by
    rw [hact]
    exact calm_send s.worker hsent hc
  have hcases := s.worker.send_cases c
  rw [← hact] at hcases
  have htasks : (s.worker.act a).tasks = s.worker.tasks := by
    rcases hcases with ⟨-, he⟩ | ⟨-, he⟩ <;> rw [he]
  have hflags (i : Nat) : t.worker.isCancelled i = s.worker.isCancelled i := by
    rw [hw, isCancelled, htasks]
    rfl
  refine h.calm hcourse hsees hcalm (by simp [hsent, hc]) (by rw [htasks]) ?_ hold ?_
    (fun i hi => absurd hi (hraised i)) (fun i hi => .inl (hheard ▸ hi)) ?_ ?_
  · rcases hcases with ⟨-, he⟩ | ⟨hne, he⟩
    · exact .inl (by rw [he])
    · exact .inr ⟨hne, hno, by rw [he, hsent]⟩
  · intro i hi
    rw [hflags]
    exact hrecalled i hi
  · intro i hp hi
    right
    rw [hflags] at hi
    have hq : (s.worker.act a).queue = s.worker.queue ++ [c] := by
      rcases hcases with ⟨he, -⟩ | ⟨-, he⟩
      · rw [hp] at he
        cases he
      · rw [he]
    rw [hw, hq]
    exact (h.woken i hp hi).elim (hwoken i hp) fun hh => head?_append hh _
  · intro hq
    rw [hw] at hq
    rcases hcases with ⟨-, he⟩ | ⟨-, he⟩ <;> rw [he] at hq
    · exact absurd hq hno
    · rcases List.mem_append.mp hq with hq | hq
      · exact absurd hq hno
      · exact .inl (hleaving (List.mem_singleton.mp hq).symm)

theorem wake (h : Orderly s) (hs : s.move? .wake = some t) : Orderly t := by
  simp only [move?] at hs
  split at hs
  · rename_i i hhand
    cases hs
    obtain ⟨hflag, hnot⟩ := h.raised i hhand
    have hleave : s.hand ≠ .unpinning ∧ s.hand ≠ .joining := by
      rw [hhand]
      exact ⟨by simp, by simp⟩
    refine h.send (c := .wake) rfl rfl rfl rfl rfl hleave
      (fun j hj => List.mem_cons_of_mem _ hj) ?_ (by simp) rfl ?_ (by simp)
    · intro j hj
      rcases List.mem_cons.mp hj with rfl | hj
      · exact .inr hflag
      · exact .inl hj
    · intro j hp hw
      obtain rfl : i = j := Hand.waking.inj (hhand.symm.trans hw)
      have hcurrent : s.worker.phase.task? = some i := by rw [hp]; rfl
      have hload : s.worker.load = _ := Course.Kept.load_eq hcurrent
      -- no task comes after the one that is being cancelled
      refine head?_of_wakes ?_ fun hq => (h.leaving hq).elim hleave.1 hleave.2
      refine List.eq_nil_iff_forall_not_mem.mpr fun k hk => hnot ?_
      have hsorted : s.worker.load.Pairwise (· < ·) := h.kept.sorted
      rw [hload] at hsorted
      refine h.recalled_of_lt ?_ ?_ ((List.pairwise_cons.mp hsorted).1 k hk) <;> rw [hload]
      · exact List.mem_cons_self
      · exact List.mem_cons_of_mem _ hk
  · cases hs

theorem leave (h : Orderly s) (hs : s.move? .leave = some t) : Orderly t := by
  simp only [move?] at hs
  split at hs <;> cases hs
  rename_i hfree
  refine h.send (c := .shutDown) rfl rfl rfl rfl rfl ?_ (fun _ => id) (fun _ => .inl) (by simp)
    rfl ?_
    fun _ => rfl
  · rw [hfree]
    exact ⟨by simp, by simp⟩
  · intro i _ hw
    rw [hfree] at hw
    cases hw

/-- A call that leaves the commands and the flags alone. -/
theorem still (h : Orderly s) (hcourse : t.course = s.course.step a)
    (hsees : s.worker.sights a = []) (hcalm : Calm a s.worker (s.worker.act a))
    (hsent : s.worker.sent a = []) (hq : (s.worker.act a).queue = s.worker.queue)
    (hlen : (s.worker.act a).tasks.length = s.worker.tasks.length)
    (hflags : ∀ i, (s.worker.act a).isCancelled i = s.worker.isCancelled i)
    (hrecalled : t.recalled = s.recalled) (hhand : ∀ i, s.hand ≠ .waking i ∧ t.hand ≠ .waking i)
    (hheard : ∀ i ∈ t.heard, i ∈ s.heard ∨ s.worker.Told i)
    (hleaving : .shutDown ∈ s.worker.queue → t.hand = .unpinning ∨ t.hand = .joining) :
    Orderly t := by
  have hw : t.worker = s.worker.act a := congrArg Course.worker hcourse
  refine h.calm hcourse hsees hcalm (by rw [hsent]; rfl) hlen (.inl hq) (fun i hi => hrecalled ▸ hi)
    (fun i hi => .inl (hrecalled ▸ hi)) (fun i hi => absurd hi (hhand i).2) hheard ?_ ?_
  · intro i hp hc
    rw [hw, hflags] at hc
    rw [hw, hq]
    exact .inr ((h.woken i hp hc).resolve_left (hhand i).1)
  · intro hmem
    rw [hw, hq] at hmem
    exact hleaving hmem

theorem receive (h : Orderly s) (hs : s.move? (.receive i) = some t) : Orderly t := by
  simp only [move?] at hs
  split at hs
  · rename_i hfree
    have hcalm : Calm (.receive i) s.worker (s.worker.act (.receive i)) :=
      (calm_act s.worker (.receive i)).resolve_left (by simp) |>.2
    have hact : s.worker.act (.receive i) = s.worker ∨ s.worker.act (.receive i) =
        s.worker.changeTask i fun t => { t with received := t.received + 1 } := by
      simp only [Worker.act, Worker.receive]
      split
      · exact .inl rfl
      · split
        · exact .inr rfl
        · exact .inl rfl
    have hflags (j : Nat) : (s.worker.act (.receive i)).isCancelled j = s.worker.isCancelled j := by
      rcases hact with he | he <;> rw [he]
      unfold isCancelled
      rw [getElem?_changeTask, Option.any_map]
      congr 1
      funext t
      show Task.cancelled (if i = j then _ else _) = _
      split <;> rfl
    have hhand (j : Nat) : s.hand ≠ .waking j := by rw [hfree]; simp
    have hleaving (hq : .shutDown ∈ s.worker.queue) : s.hand = .unpinning ∨ s.hand = .joining :=
      h.leaving hq
    have hqueue : (s.worker.act (.receive i)).queue = s.worker.queue := by
      rcases hact with he | he <;> rw [he]
      rfl
    have hlen : (s.worker.act (.receive i)).tasks.length = s.worker.tasks.length := by
      rcases hact with he | he <;> rw [he]
      exact List.length_modify _ _ _
    split at hs <;> cases hs
    · rename_i o ho
      refine h.still rfl rfl hcalm rfl hqueue hlen hflags rfl (fun j => ⟨hhand j, hhand j⟩) ?_
        hleaving
      intro j hj
      rcases List.mem_cons.mp hj with rfl | hj
      · exact .inr (told_of_receive ho)
      · exact .inl hj
    · exact h.still rfl rfl hcalm rfl hqueue hlen hflags rfl (fun j => ⟨hhand j, hhand j⟩)
        (fun _ => .inl) hleaving
  · cases hs

theorem unpin (h : Orderly s) (hs : s.move? .unpin = some t) : Orderly t := by
  have hcalm : Calm .unpin s.worker (s.worker.act .unpin) :=
    (calm_act s.worker .unpin).resolve_left (by simp) |>.2
  have hact : (s.worker.act .unpin).tasks = s.worker.tasks ∧
      (s.worker.act .unpin).queue = s.worker.queue := by
    simp only [Worker.act, releasePin]
    split <;> exact ⟨rfl, rfl⟩
  have hflags (i : Nat) : (s.worker.act .unpin).isCancelled i = s.worker.isCancelled i := by
    rw [isCancelled, hact.1]
    rfl
  simp only [move?] at hs
  split at hs <;> cases hs <;> rename_i hhand
  · refine h.still rfl rfl hcalm rfl hact.2 (by rw [hact.1]) hflags rfl ?_ (fun _ => .inl) h.leaving
    intro i
    rw [hhand]
    exact ⟨by simp, by simp⟩
  · refine h.still rfl rfl hcalm rfl hact.2 (by rw [hact.1]) hflags rfl ?_ (fun _ => .inl)
      fun _ => .inr rfl
    intro i
    rw [hhand]
    exact ⟨by simp, by simp⟩

theorem join (h : Orderly s) (hs : s.move? .join = some t) : Orderly t := by
  simp only [move?] at hs
  split at hs <;> cases hs
  rename_i hjoin
  have hq : s.worker.queue = [] := h.gone hjoin.2
  refine ⟨h.kept, h.recalled, (by simp), h.heard, h.others, ?_, ?_, h.last, h.gone, h.pending,
    h.never⟩
  · intro i hp
    have hp : s.worker.phase = .resting i := hp
    rw [hjoin.2] at hp
    cases hp
  · intro hmem
    have hmem : .shutDown ∈ s.worker.queue := hmem
    rw [hq] at hmem
    cases hmem

/-- A move that leaves the worker and the books of the client alone. -/
theorem same (h : Orderly s) (hk : t.course.Kept) (hw : t.worker = s.worker)
    (hseen : t.course.seen = s.course.seen) (hhand : t.hand = s.hand)
    (hrecalled : t.recalled = s.recalled) (hheard : t.heard = s.heard) : Orderly t := by
  refine ⟨hk, ?_, ?_, ?_, ?_, ?_, ?_, ?_, ?_, ?_, ?_⟩ <;>
    simp only [hw, hhand, hrecalled, hheard, hseen]
  · exact h.recalled
  · exact h.raised
  · exact h.heard
  · exact h.others
  · exact h.woken
  · exact h.leaving
  · exact h.last
  · exact h.gone
  · exact h.pending
  · exact h.never

theorem settled_of_load (h : Orderly s) (hs : s.settled = true) {i : Nat}
    (hi : i ∈ s.worker.load) (hlast : i + 1 = s.worker.tasks.length) : i ∈ s.recalled := by
  unfold settled at hs
  rw [← hlast] at hs
  simp only [Bool.or_eq_true, decide_eq_true_eq] at hs
  exact hs.resolve_right fun hh => h.kept.not_told hi (h.heard i hh)

/-- A new task comes last in the queue of a worker that has not exited. The newest one before it
has ended or was cancelled. -/
theorem newTask (h : Orderly s) {period : Duration} {body : Nat → Report} (hfree : s.hand = .free)
    (hsettled : s.settled = true) (hp : s.worker.phase ≠ .exited) (hkept : t.course.Kept)
    (hact : t.worker = s.worker.act (.schedule period body))
    (hw : t.worker = { s.worker with
      tasks := s.worker.tasks ++ [{ period, body }]
      queue := s.worker.queue ++ [.schedule s.worker.tasks.length] })
    (hseen : t.course.seen = s.course.seen) (hhand : t.hand = s.hand)
    (hrecalled : t.recalled = s.recalled) (hheard : t.heard = s.heard) : Orderly t := by
  have hnot (i : Nat) : s.hand ≠ .waking i := by rw [hfree]; simp
  have hno : .shutDown ∉ s.worker.queue := by
    intro hq
    rcases h.leaving hq with hh | hh <;> rw [hfree] at hh <;> cases hh
  have hload : t.worker.load = s.worker.load ++ [s.worker.tasks.length] := by
    rw [hw]
    simp [load, Command.task?]
  have hlen : t.worker.tasks.length = s.worker.tasks.length + 1 := by
    rw [hw]
    exact List.length_append
  have hphase : t.worker.phase = s.worker.phase := by rw [hw]
  have hqueue : t.worker.queue = s.worker.queue ++ [.schedule s.worker.tasks.length] := by rw [hw]
  have hold {i : Nat} (hi : i < s.worker.tasks.length) :
      t.worker.tasks[i]? = s.worker.tasks[i]? := by
    rw [hw]
    exact List.getElem?_append_left hi
  exact
    { kept := hkept
      recalled := by
        intro i hi
        rw [hact]
        exact isCancelled_act (h.recalled i (hrecalled ▸ hi)) _
      raised := fun i hi => absurd (hhand ▸ hi) (hnot i)
      heard := by
        intro i hi
        rw [hact]
        exact (h.heard i (hheard ▸ hi)).act _
      others := by
        intro i hi hne
        rw [hrecalled]
        rw [hload] at hi
        rw [hlen] at hne
        rcases List.mem_append.mp hi with hi | hi
        · by_cases hlast : i + 1 = s.worker.tasks.length
          · exact h.settled_of_load hsettled hi hlast
          · exact h.others i hi hlast
        · exact absurd (congrArg (· + 1) (List.mem_singleton.mp hi)) hne
      woken := by
        intro i hr hc
        rw [hphase] at hr
        right
        have hlt : i < s.worker.tasks.length := by
          refine h.kept.known i ?_
          rw [Course.Kept.load_eq (congrArg Phase.task? hr)]
          exact List.mem_cons_self
        have hcold : s.worker.isCancelled i = true := by
          unfold isCancelled at hc ⊢
          rwa [hold hlt] at hc
        rw [hqueue]
        exact head?_append ((h.woken i hr hcold).resolve_left (hnot i)) _
      leaving := by
        intro hq
        rw [hqueue] at hq
        rcases List.mem_append.mp hq with hq | hq
        · exact absurd hq hno
        · cases List.mem_singleton.mp hq
      last := by
        rw [hqueue, List.dropLast_concat]
        exact hno
      gone := by
        intro hx
        exact absurd (hphase ▸ hx) hp
      pending := by
        intro i hi htold
        rw [hload]
        by_cases hlt : i < s.worker.tasks.length
        · have hstill : s.worker.Told i → t.worker.Told i :=
            Exists.imp fun x => And.imp_left fun hx => (hold hlt).trans hx
          exact List.mem_append_left _ (h.pending i hlt (mt hstill htold))
        · refine List.mem_append_right _ (List.mem_singleton.mpr ?_)
          omega
      never := by
        rw [hseen]
        exact h.never }

theorem schedule (h : Orderly s) {period : Duration} {body : Nat → Report}
    (hs : s.move? (.schedule period body) = some t) : Orderly t := by
  simp only [move?] at hs
  split at hs
  · rename_i hfree
    have hkept : t.course.Kept := by
      cases hs
      exact h.kept.step _
    have hw : t.worker = s.worker.act (.schedule period body) := by cases hs; rfl
    have hseen : t.course.seen = s.course.seen := by
      cases hs
      exact List.append_nil _
    have hhand : t.hand = s.hand := by cases hs; rfl
    have hrecalled : t.recalled = s.recalled := by cases hs; rfl
    have hheard : t.heard = s.heard := by cases hs; rfl
    by_cases hp : s.worker.phase = .exited
    · have hact : s.worker.act (.schedule period body) = s.worker := by
        simp [Worker.act, schedule?, send?, hp]
      exact h.same hkept (hw.trans hact) hseen hhand hrecalled hheard
    · have hact : s.worker.act (.schedule period body) = { s.worker with
          tasks := s.worker.tasks ++ [{ period, body }]
          queue := s.worker.queue ++ [.schedule s.worker.tasks.length] } := by
        simp [Worker.act, schedule?, send?, hp]
      exact h.newTask hfree.1 hfree.2 hp hkept hw (hw.trans hact) hseen hhand hrecalled hheard
  · cases hs

/-- While a client keeps this order, the worker turns no task away. -/
theorem not_rejected (h : Orderly s) (hp : s.worker.phase = .resting i) {q : List Command} :
    s.worker.queue ≠ .schedule j :: q := by
  intro hq
  have hload : s.worker.load = i :: j :: q.filterMap Command.task? := by
    simp [load, hp, hq, Phase.task?, Command.task?]
  have hsorted : s.worker.load.Pairwise (· < ·) := h.kept.sorted
  rw [hload] at hsorted
  have hrecalled : i ∈ s.recalled := by
    refine h.recalled_of_lt ?_ ?_ ((List.pairwise_cons.mp hsorted).1 j List.mem_cons_self) <;>
      simp [hload]
  have hwoken := h.woken_of_recalled hp hrecalled
  rw [hq] at hwoken
  cases hwoken

/-- Behind the command to exit there is no other one. -/
theorem nil_of_shutDown (h : Orderly s) {q : List Command} (hq : s.worker.queue = .shutDown :: q) :
    q = [] := by
  have hlast := h.last
  rw [hq] at hlast
  cases q with
  | nil => rfl
  | cons c q => exact absurd List.mem_cons_self hlast

/-- A step takes a task out of the load only when it tells of its end. -/
theorem load_of_step (h : Orderly s) {x : Option Sight} (hs : Step s.worker x v)
    (hi : i ∈ s.worker.load) (hnot : ¬ v.Told i) : i ∈ v.load := by
  have told {j : Nat} {f : Task → Task} (hv : v.tasks = s.worker.tasks.modify j f)
      (hf : ∀ t, (f t).outcomes ≠ []) : i ≠ j := by
    rintro rfl
    obtain ⟨t, ht⟩ := h.kept.exists_task hi
    have ht : s.worker.tasks[i]? = some t := ht
    exact hnot ⟨f t, by rw [hv, List.getElem?_modify, ht]; simp, hf t⟩
  cases hs with
  | take hp hq | stir hp hq | wakeUp hp hq =>
    simpa [load, hp, hq, Phase.task?, Command.task?, List.filterMap_cons] using hi
  | leave hp hq =>
    have hnil := h.nil_of_shutDown hq
    simp [load, hp, hq, hnil, Phase.task?, Command.task?] at hi
  | heed hp hc | finish hp =>
    have hne := told rfl (by simp)
    simpa [load, hp, Phase.task?, report, changeTask, hne] using hi
  | rest hp => simpa [load, hp, Phase.task?] using hi
  | reject hp hq => exact absurd hq (h.not_rejected hp)
  | quit hp hq =>
    have hne := told (List.modify_modify_eq _ _ _ _) (by simp)
    have hnil := h.nil_of_shutDown hq
    simp [load, hp, hq, hnil, Phase.task?, Command.task?, hne] at hi
  | begin hp hq => simpa [load, hp, hq, Phase.task?] using hi
  | again hp => simpa [load, hp, Phase.task?, changeTask] using hi
  | lost hp ht =>
    obtain ⟨t, ht'⟩ := h.kept.exists_task (by
      rw [Course.Kept.load_eq (congrArg Phase.task? hp)]
      exact List.mem_cons_self)
    have ht' : s.worker.tasks[_]? = some t := ht'
    rw [ht] at ht'
    cases ht'

theorem work (h : Orderly s) {due : Bool} (hs : s.move? (.work due) = some t) : Orderly t := by
  have hw : t.worker = s.worker.act (.step due) := by cases hs; rfl
  have hkept : t.course.Kept := by
    cases hs
    exact h.kept.step _
  have hhand : t.hand = s.hand := by cases hs; rfl
  have hrecalled : t.recalled = s.recalled := by cases hs; rfl
  have hheard : t.heard = s.heard := by cases hs; rfl
  have hseen : t.course.seen = s.course.seen ++ s.worker.sights (.step due) := by cases hs; rfl
  cases hstep : s.worker.step? due with
  | none =>
    refine h.same hkept ?_ ?_ hhand hrecalled hheard
    · rw [hw]
      simp [Worker.act, hstep]
    · rw [hseen]
      simp [sights, sight?_of_waiting hstep]
  | some v =>
    have hv : t.worker = v := by rw [hw]; simp [Worker.act, hstep]
    have hsteps := step?_steps hstep
    have hlen : t.worker.tasks.length = s.worker.tasks.length := by rw [hv, hsteps.length_tasks]
    exact
      { kept := hkept
        recalled := by
          intro i hi
          rw [hw]
          exact isCancelled_act (h.recalled i (hrecalled ▸ hi)) _
        raised := by
          intro i hi
          obtain ⟨hflag, hnot⟩ := h.raised i (hhand ▸ hi)
          rw [hrecalled, hw]
          exact ⟨isCancelled_act hflag _, hnot⟩
        heard := by
          intro i hi
          rw [hw]
          exact (h.heard i (hheard ▸ hi)).act _
        others := by
          intro i hi hne
          rw [hrecalled]
          exact h.others i (hsteps.load_sublist.subset (hv ▸ hi)) (hlen ▸ hne)
        woken := by
          -- a worker begins to rest over a task when it has just seen that the flag is down
          intro i hp hc
          rw [hv] at hp hc
          exfalso
          generalize s.worker.sight? = x at hsteps
          cases hsteps with
          | rest hp' hc' =>
            cases hp
            rw [show Worker.isCancelled { s.worker with phase := .resting i } i = _ from hc'] at hc
            cases hc
          | _ => cases hp
        leaving := by
          intro hq
          rw [hhand]
          exact h.leaving (hsteps.queue_suffix.subset (hv ▸ hq))
        last := by
          rw [hv]
          obtain ⟨obeyed, hq⟩ := hsteps.queue_suffix
          have hlast := h.last
          rw [← hq] at hlast
          intro hmem
          refine hlast ?_
          rw [List.dropLast_append_of_ne_nil fun hnil => by rw [hnil] at hmem; cases hmem]
          exact List.mem_append_right _ hmem
        gone := by
          intro hp
          rw [hv] at hp ⊢
          generalize s.worker.sight? = x at hsteps
          cases hsteps with
          | leave hp' hq | quit hp' hq => exact h.nil_of_shutDown hq
          | _ => cases hp
        pending := by
          intro i hi hnot
          rw [hv] at hnot ⊢
          refine h.load_of_step hsteps (h.pending i (hlen ▸ hi) fun htold => hnot ?_) hnot
          rw [← hv, hw]
          exact htold.act _
        never := by
          intro i under hmem
          rw [hseen] at hmem
          rcases List.mem_append.mp hmem with hmem | hmem
          · exact h.never i under hmem
          · have hx : s.worker.sight? = some (.rejected i under) := by simpa [sights] using hmem
            rw [hx] at hsteps
            cases hsteps with
            | reject hp hq => exact h.not_rejected hp hq }

end Orderly

end Session

end Worker

end Metronome
