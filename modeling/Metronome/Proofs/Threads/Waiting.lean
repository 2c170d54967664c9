-- Whom the threads wait for. A callback waits for the stop that it called,
-- the end of the run for a stop of its own, and a stop for a worker that was
-- told to exit. So while someone has not returned, someone can go on.
import Metronome.Proofs.Threads.OneWay

namespace Metronome

/-! ## Who waits -/

/-- The stop is over. -/
def Halt.returned : Halt → Bool
  | .done | .refused _ => true
  | _ => false

/-- A stop that has moved the clock to its last stage is not refused any more. -/
theorem Halt.done_of_returned {p : Halt} (hb : p.begun = true) (hr : p.returned = true) :
    p = .done := by
  cases p with
  | done => rfl
  | refused e => cases hb
  | _ => cases hr

/-- It has told the worker to exit. -/
def Halt.told : Halt → Bool
  | .unpinning _ _ | .joining _ | .telling _ true => true
  | _ => false

/-- The stop that a tick waits for. -/
def Dispatch.awaits? {σ : Type} : Dispatch σ → Option Nat
  | .waiting _ _ _ i _ => some i
  | _ => none

/-- The tick that the thread dispatches. When there is none, one that is over. -/
def Main.tick {σ : Type} : Main σ → Dispatch σ
  | .ticking d => d
  | _ => .settling

def Duty.tick {σ : Type} : Duty σ → Dispatch σ
  | .ticking d => d
  | _ => .settling

/-- What a tick goes on with. -/
inductive Dispatch.Next {σ : Type} : Dispatch σ → Dispatch σ → Prop where
  | knocked (r : Round) : Next (.calling r) .knocking
  | called (phase : Phase) (start : Int) (names : List Listener) (x : Listener)
      (rest : List Listener) (b : Budget) (p : Program σ) :
      Next (.inside ⟨phase, start, names, rest⟩ x b p) (.calling ⟨phase, start, names, x :: rest⟩)
  | turned (start : Int) (names : List Listener) :
      Next (.calling ⟨.after, start, names, names⟩) (.calling ⟨.tick, start, names, []⟩)
  | settled (start : Int) (names : List Listener) :
      Next .settling (.calling ⟨.after, start, names, []⟩)
  | returned (r : Round) (x : Listener) (b : Budget) (world : σ) (verdict : Verdict) :
      Next (.calling r) (.inside r x b (.finish world verdict))
  | served (r : Round) (x : Listener) (b : Budget) (call : Call) (next : Answer → Program σ)
      (a : Answer) : Next (.inside r x b (next a)) (.inside r x b (.ask call next))
  | stopping (r : Round) (x : Listener) (b : Budget) (i : Nat) (call : Call)
      (next : Answer → Program σ) : Next (.waiting r x b i next) (.inside r x b (.ask call next))
  | stopped (r : Round) (x : Listener) (b : Budget) (i : Nat) (next : Answer → Program σ)
      (a : Answer) : Next (.inside r x b (next a)) (.waiting r x b i next)

/-! ## The worker is told -/

namespace Worker

variable {w v : Worker} {task : Nat}

theorem ending_send {c : Command} (h : w.ending = true) :
    ((w.send? c).getD w).ending = true := by
  unfold send?
  split
  · exact h
  · rw [ending_iff] at h ⊢
    rcases h with h | h
    · exact .inl h
    · exact .inr (List.mem_append_left _ h)

/-- A worker that was told to exit knows it. -/
theorem ending_send_shutDown (w : Worker) : ((w.send? .shutDown).getD w).ending = true := by
  unfold send?
  split
  · rename_i hp
    exact ending_iff.mpr (.inl hp)
  · exact ending_iff.mpr (.inr (by simp))

/-- It does not forget it. -/
theorem ending_of_step? {due : Bool} (hs : w.step? due = some v)
    (hrun : ∀ i, w.phase ≠ .running i) (h : w.ending = true) : v.ending = true := by
  rw [ending_iff] at h ⊢
  unfold step? at hs
  split at hs
  · cases hs
  · cases hs
  · rename_i c queue hp hq
    cases hs
    rw [hp, hq] at h
    cases c with
    | shutDown => exact .inl rfl
    | schedule i => exact .inr (by simpa [obeyIdle] using h)
    | wake => exact .inr (by simpa [obeyIdle] using h)
  · rename_i i hp
    rw [hp] at h
    have hq := h.resolve_left fun he => (by cases he)
    split at hs <;> cases hs
    · exact .inr hq
    · exact .inr hq
  · rename_i i c queue hp hq
    cases hs
    rw [hp, hq] at h
    cases c with
    | shutDown => exact .inl rfl
    | schedule j => exact .inr (by simpa [obeyBetween, report, changeTask] using h)
    | wake => exact .inr (by simpa [obeyBetween] using h)
  · rename_i i hp hq
    rw [hp, hq] at h
    simp at h
  · rename_i hp
    exact absurd hp (hrun _)

theorem ending_of_heed (hp : w.phase = .running task) (r : Report) (h : w.ending = true) :
    (w.heed task r).ending = true := by
  rw [ending_iff, hp] at h
  have hq := h.resolve_left fun he => (by cases he)
  rw [ending_iff]
  right
  unfold heed
  split
  · exact hq
  · simp only [report, changeTask]
    split <;> exact hq

theorem ending_receive (w : Worker) (task : Nat) : (w.receive task).1.ending = w.ending := by
  unfold receive
  split
  · rfl
  · split <;> rfl

/-- A worker that has something to do does it, if a run may begin. -/
theorem step?_of_busy (hexit : w.phase ≠ .exited)
    (h : w.phase = .idle → w.queue ≠ []) (hrun : ∀ i, w.phase ≠ .running i) :
    ∃ v, w.step? true = some v := by
  unfold step?
  cases hp : w.phase with
  | idle =>
    cases hq : w.queue with
    | nil => exact absurd hq (h hp)
    | cons c queue => exact ⟨_, rfl⟩
  | checking task =>
    dsimp only
    split <;> exact ⟨_, rfl⟩
  | resting task => cases w.queue <;> exact ⟨_, rfl⟩
  | running task => exact absurd hp (hrun task)
  | exited => exact absurd hp hexit

/-- As long as an outcome may come, the worker has something to do. -/
theorem busy_of_receive (h : (w.receive task).2 = .nothingYet) :
    w.phase ≠ .exited ∧ (w.phase = .idle → w.queue ≠ []) := by
  have hholds : w.holds task = true := by
    unfold receive at h
    split at h
    · cases h
    · split at h
      · cases h
      · cases hh : w.holds task with
        | true => rfl
        | false => simp [hh] at h
  unfold holds at hholds
  simp only [Bool.and_eq_true, decide_eq_true_eq, Bool.or_eq_true] at hholds
  refine ⟨hholds.1, ?_⟩
  intro hp hq
  simp [hp, hq, Phase.task?] at hholds

end Worker

namespace Scene

variable {σ : Type} {behave : Behaviour σ} {base : RealTimeClock} {s t : Scene σ}

/-! ## The invariant -/

structure Waits (s : Scene σ) : Prop where
  main : ∀ i, s.main.tick.awaits? = some i → ∃ x, s.stops[i]? = some x
  duty : ∀ i, s.duty.tick.awaits? = some i → ∃ x, s.stops[i]? = some x ∧ x.own = true
  told : ∀ x ∈ s.stops, x.phase.told = true → s.worker.ending = true

theorem waits_opening (c : RealTimeClock) (world : σ) : Waits (opening c world) :=
  ⟨nofun, nofun, nofun⟩

/-- Stops come, and none goes. -/
structure Grows (s t : Scene σ) : Prop where
  own : ∀ (i : Nat) (x : Stop), s.stops[i]? = some x → ∃ y, t.stops[i]? = some y ∧ y.own = x.own

theorem grows_of_eq (h : t.stops = s.stops) : Grows s t :=
  ⟨fun _ x hx => ⟨x, by rw [h, hx], rfl⟩⟩

theorem grows_append {x : Stop} (h : t.stops = s.stops ++ [x]) : Grows s t := by
  refine ⟨fun i x hx => ⟨x, ?_, rfl⟩⟩
  rw [h]
  exact (List.getElem?_append_left (List.getElem?_eq_some_iff.mp hx).1).trans hx

theorem grows_set {i : Nat} {x : Stop} {p : Halt} (hx : s.stops[i]? = some x)
    (h : t.stops = s.stops.set i { x with phase := p }) : Grows s t := by
  constructor
  intro j y hy
  rw [h]
  by_cases hij : i = j
  · subst hij
    rw [hx] at hy
    cases hy
    exact ⟨{ x with phase := p }, by rw [List.getElem?_set_self' , hx]; rfl, rfl⟩
  · exact ⟨y, by rw [List.getElem?_set_ne hij, hy], rfl⟩

namespace Waits

/-- A step that leaves the ticks alone. -/
theorem of_grows (h : Waits s) (hg : Grows s t) (hm : t.main.tick.awaits? = s.main.tick.awaits? ∨
      t.main.tick.awaits? = none)
    (hd : t.duty.tick.awaits? = s.duty.tick.awaits? ∨ t.duty.tick.awaits? = none)
    (ht : ∀ x ∈ t.stops, x.phase.told = true → t.worker.ending = true) : Waits t where
  main i hi := by
    rcases hm with hm | hm <;> rw [hm] at hi
    · obtain ⟨x, hx⟩ := h.main i hi
      obtain ⟨y, hy, -⟩ := hg.own i x hx
      exact ⟨y, hy⟩
    · cases hi
  duty i hi := by
    rcases hd with hd | hd <;> rw [hd] at hi
    · obtain ⟨x, hx, ho⟩ := h.duty i hi
      obtain ⟨y, hy, hyo⟩ := hg.own i x hx
      exact ⟨y, hy, hyo.trans ho⟩
    · cases hi
  told := ht

/-- A stop that someone has called. -/
theorem append (h : Waits s) {x : Stop} (hst : t.stops = s.stops ++ [x])
    (hx : x.phase.told = false)
    (hm : t.main.tick.awaits? = s.main.tick.awaits? ∨ t.main.tick.awaits? = none)
    (hd : t.duty = s.duty) (hw : t.worker = s.worker) : Waits t := by
  refine h.of_grows (grows_append hst) hm (.inl (by rw [hd])) ?_
  intro y hy hty
  rw [hst] at hy
  rw [hw]
  rcases List.mem_append.mp hy with hy | hy
  · exact h.told y hy hty
  · rw [List.mem_singleton.mp hy, hx] at hty
    cases hty

/-- A stop that moves on. -/
theorem set (h : Waits s) {i : Nat} {x : Stop} {p : Halt} (hx : s.stops[i]? = some x)
    (hst : t.stops = s.stops.set i { x with phase := p }) (hm : t.main = s.main)
    (hd : t.duty = s.duty) (hw : s.worker.ending = true → t.worker.ending = true)
    (hp : p.told = true → t.worker.ending = true) : Waits t := by
  refine h.of_grows (grows_set hx hst) (.inl (by rw [hm])) (.inl (by rw [hd])) ?_
  intro y hy hty
  rw [hst] at hy
  rcases List.mem_or_eq_of_mem_set hy with hy | rfl
  · exact hw (h.told y hy hty)
  · exact hp hty

theorem stopStep (h : Waits s) {i : Nat} {x : Stop} (hx : s.stops[i]? = some x)
    (hs : s.stopStep i x = some t) : Waits t := by
  have hold : x.phase.told = true → s.worker.ending = true := h.told x (List.mem_of_getElem? hx)
  obtain ⟨own, since, phase⟩ := x
  cases phase with
  | entering =>
    simp only [Scene.stopStep] at hs
    split at hs <;> cases hs <;> exact h.set hx rfl rfl rfl id fun hp => (by cases hp)
  | quieting =>
    cases hs
    exact h.set hx rfl rfl rfl id fun hp => (by cases hp)
  | takingTask =>
    simp only [Scene.stopStep] at hs
    split at hs <;> cases hs <;> exact h.set hx rfl rfl rfl id fun hp => (by cases hp)
  | raising task =>
    cases hs
    refine h.set hx rfl rfl rfl id ?_
    intro hp
    split at hp <;> cases hp
  | waking =>
    cases hs
    exact h.set hx rfl rfl rfl (fun hw => by simpa [setStop] using hw) fun hp => (by cases hp)
  | takingScheduler =>
    simp only [Scene.stopStep] at hs
    split at hs <;> cases hs <;> exact h.set hx rfl rfl rfl id fun hp => (by cases hp)
  | telling sch again =>
    cases hs
    exact h.set hx rfl rfl rfl Worker.ending_send fun _ => Worker.ending_send_shutDown _
  | unpinning sch again =>
    cases hs
    exact h.set hx rfl rfl rfl id fun _ => hold rfl
  | joining sch =>
    simp only [Scene.stopStep] at hs
    split at hs <;> cases hs
    exact h.set hx rfl rfl rfl id fun _ => hold rfl
  | done => cases hs
  | refused e => cases hs

end Waits

/-! ## Ticks -/

/-- A tick goes on. If it has to wait then, it is for a stop that its callback has just called. -/
theorem dispatchStep_next {thread : Thread} {d d' : Dispatch σ}
    (hs : s.dispatchStep behave thread d = some (t, .inl d')) :
    Dispatch.Next d' d ∧ (d'.awaits? = none ∨ d'.awaits? = some s.stops.length ∧
      t.stops = (s.addStop (thread = .scheduler) .entering).stops) := by
  cases d with
  | knocking =>
    simp only [dispatchStep] at hs
    split at hs <;> cases hs
    exact ⟨.knocked _, .inl rfl⟩
  | calling r =>
    obtain ⟨phase, start, names, rest⟩ := r
    cases rest with
    | cons x rest =>
      cases hs
      exact ⟨.called phase start names x rest _ _, .inl rfl⟩
    | nil =>
      cases phase <;> cases hs
      · exact ⟨.turned start names, .inl rfl⟩
      · exact ⟨.settled start names, .inl rfl⟩
  | inside r x b p =>
    cases p with
    | finish world verdict =>
      simp only [dispatchStep] at hs
      split at hs <;> cases hs
      exact ⟨.returned r x b world verdict, .inl rfl⟩
    | ask call next =>
      simp only [dispatchStep] at hs
      split at hs <;> cases hs
      · exact ⟨.stopping r x b _ call next, .inr ⟨rfl, rfl⟩⟩
      · exact ⟨.served r x b call next _, .inl rfl⟩
  | waiting r x b i next =>
    simp only [dispatchStep] at hs
    split at hs <;> cases hs
    · exact ⟨.stopped r x b i next _, .inl rfl⟩
    · exact ⟨.stopped r x b i next _, .inl rfl⟩
  | settling => cases hs

/-- A tick that waits for nobody, or for a stop that has returned, can go on. -/
theorem dispatchStep_ready (behave : Behaviour σ) (thread : Thread) {d : Dispatch σ}
    (h : ∀ i, d.awaits? = some i → ∃ x, s.stops[i]? = some x ∧ x.phase.returned = true) :
    ∃ r, s.dispatchStep behave thread d = some r := by
  cases d with
  | knocking =>
    simp only [dispatchStep]
    split <;> exact ⟨_, rfl⟩
  | calling r =>
    obtain ⟨phase, start, names, rest⟩ := r
    cases rest with
    | cons x rest => exact ⟨_, rfl⟩
    | nil => cases phase <;> exact ⟨_, rfl⟩
  | inside r x b p =>
    cases p with
    | finish world verdict =>
      simp only [dispatchStep]
      split <;> exact ⟨_, rfl⟩
    | ask call next =>
      simp only [dispatchStep]
      split <;> exact ⟨_, rfl⟩
  | waiting r x b i next =>
    obtain ⟨⟨own, since, phase⟩, hy, hret⟩ := h i rfl
    simp only [dispatchStep, hy]
    cases phase <;> first | exact ⟨_, rfl⟩ | cases hret
  | settling => exact ⟨_, rfl⟩

namespace Waits

/-- A step of a tick. Nothing changes for the other thread. -/
theorem ticks (h : Waits s) (ht : Ticks s t) : Waits t := by
  rcases ht.stops with hst | ⟨own, hst⟩
  · apply h.of_grows (grows_of_eq hst) (.inl (by rw [ht.main])) (.inl (by rw [ht.duty]))
    rw [hst, ht.worker]
    exact h.told
  · exact h.append hst rfl (.inl (by rw [ht.main])) ht.duty ht.worker

/-- A step that leaves the stops alone. -/
theorem goto (h : Waits s) {m : Main σ} {u : Duty σ} {w : Worker} {c : RealTimeClock}
    {a : Option Nat} (hm : ∀ i, m.tick.awaits? = some i → ∃ x, s.stops[i]? = some x)
    (hu : ∀ i, u.tick.awaits? = some i → ∃ x, s.stops[i]? = some x ∧ x.own = true)
    (hw : s.worker.ending = true → w.ending = true) :
    Waits { s with clock := c, main := m, duty := u, worker := w, active := a } :=
  ⟨hm, hu, fun x hx htx => hw (h.told x hx htx)⟩

theorem heed (h : Waits s) {task : Nat} (hp : s.worker.phase = .running task) (r : Worker.Report) :
    Waits (s.heed task r) :=
  h.goto h.main nofun fun hw => Worker.ending_of_heed (w := s.worker.changeTask task _) hp r hw

theorem dutyStep (h : Waits s) (ho : Sound base s) (hb : behave.Public) (hpos : 0 < base.tickLength)
    {task : Nat} (hp : s.worker.phase = .running task) (hs : s.dutyStep behave task = some t) :
    Waits t := by
  have hbegun := ho.owned.of_inRun (Sound.inRun_of_awaited (ho.running_awaited hp))
  unfold Scene.dutyStep at hs
  cases hd : s.duty with
  | glancing =>
    rw [hd] at hs
    dsimp only at hs
    split at hs <;> cases hs
    · exact h.goto h.main nofun id
    · exact h.heed hp .complete
  | checking =>
    rw [hd] at hs
    dsimp only at hs
    split at hs <;> cases hs
    · exact h.goto h.main nofun id
    · exact h.heed hp .complete
  | minding =>
    rw [hd] at hs
    dsimp only at hs
    split at hs <;> cases hs
    · exact h.heed hp .cancel
    · exact h.heed hp .goOn
  | ticking d =>
    rw [hd] at hs
    dsimp only at hs
    rcases hstep : s.dispatchStep behave .scheduler d with _ | ⟨u, r⟩ <;> rw [hstep] at hs
    · cases hs
    obtain ⟨hticks, -⟩ := dispatchStep_comes hb .scheduler hbegun
      (ho.traced.tickLength ▸ hpos) ho.traced.time (ho.traced.duty d hd) hstep
    have hu := h.ticks hticks
    have hup : u.worker.phase = .running task := by rw [hticks.worker, hp]
    rcases r with d' | e | o | o <;> cases hs
    · refine hu.goto hu.main ?_ id
      intro i hi
      obtain ⟨-, hnone | ⟨hsome, hst⟩⟩ := dispatchStep_next hstep
      · rw [Duty.tick, hnone] at hi
        cases hi
      · rw [Duty.tick, hsome] at hi
        cases hi
        exact ⟨_, by rw [hst]; exact List.getElem?_concat_length, rfl⟩
    · exact hu.heed hup (.failed e)
    · exact hu.goto hu.main nofun id
    · exact hu.heed hup .complete

theorem workerStep (h : Waits s) (ho : Sound base s) (hb : behave.Public)
    (hpos : 0 < base.tickLength) {due : Bool} (hs : s.workerStep behave due = some t) :
    Waits t := by
  unfold Scene.workerStep at hs
  split at hs
  · rename_i task hp
    exact h.dutyStep ho hb hpos hp hs
  · rename_i hrun
    obtain ⟨w, hw, rfl⟩ := Option.map_eq_some_iff.mp hs
    exact h.goto h.main h.duty (Worker.ending_of_step? hw hrun)

/-- While the clock is not stopped, no stop has told the worker anything. -/
theorem not_told (ho : Owned base s) (hst : s.clock.pacing.stage ≠ .stopped) :
    ∀ x ∈ s.stops, x.phase.told = false := by
  intro x hx
  have hb : x.phase.begun = false := by
    cases hb : x.phase.begun with
    | true => exact absurd ((ho.stops x hx).begun hb) hst
    | false => rfl
  cases hp : x.phase <;> rw [hp] at hb <;> first | rfl | cases hb

/-- A section that may start a scheduler thread. -/
theorem filled (h : Waits s) (ho : Owned base s) (hst : s.clock.pacing.stage ≠ .stopped)
    {c : RealTimeClock} {m : Main σ} {w : Worker} {a : Option Nat}
    (hm : m.tick.awaits? = none) :
    Waits { s.filled c with main := m, worker := w, active := a } := by
  refine h.of_grows (grows_of_eq (filled_stops s c)) (.inr hm)
    (.inl (by rw [← Sound.filled_duty s c])) ?_
  intro x hx htx
  rw [not_told ho hst x (by rw [← filled_stops s c]; exact hx)] at htx
  cases htx

/-- A step after which the thread that starts the clock waits for no stop. -/
theorem turn (h : Waits s) {m : Main σ} {c : RealTimeClock} {w : Worker} {a : Option Nat}
    (hm : m.tick.awaits? = none) (hw : s.worker.ending = true → w.ending = true) :
    Waits { s with clock := c, main := m, worker := w, active := a } :=
  h.goto (fun i hi => by rw [hm] at hi; cases hi) h.duty hw

theorem scheduleStep (h : Waits s) (ho : Owned base s) : Waits s.scheduleStep := by
  unfold Scene.scheduleStep
  by_cases hrt : s.clock.pacing.stage = .realTimeRunning
  · rw [if_pos hrt]
    have hne : s.clock.pacing.stage ≠ .stopped := by rw [hrt]; nofun
    split
    · exact h.turn rfl id
    · dsimp only
      split <;> exact h.filled ho hne rfl
  · rw [if_neg hrt]
    exact h.turn rfl id

theorem awaitStep (h : Waits s) {alarm : Bool} {task : Nat}
    (hs : s.awaitStep alarm task = some t) : Waits t := by
  have hend := Worker.ending_receive s.worker task
  unfold Scene.awaitStep at hs
  split at hs
  · rename_i w e hrec
    cases hs
    rw [hrec] at hend
    exact h.turn rfl fun hw => hend.trans hw
  · rename_i w o _ hrec
    cases hs
    rw [hrec] at hend
    exact h.turn rfl fun hw => hend.trans hw
  · cases hs
    exact h.turn rfl id
  · split at hs <;> cases hs
    exact h.turn rfl id

/-- A step of a tick on the thread that starts the clock. Only the stop that it has just called can
be what it waits for then. -/
theorem tickingStep (h : Waits s) (ho : Sound base s) (hb : behave.Public)
    (hpos : 0 < base.tickLength) {alarm : Bool} {d : Dispatch σ} (hm : s.main = .ticking d)
    (hs : s.mainStep behave alarm = some t) : Waits t := by
  unfold Scene.mainStep at hs
  rw [hm] at hs
  dsimp only at hs
  rcases hstep : s.dispatchStep behave .caller d with _ | ⟨u, r⟩ <;> rw [hstep] at hs
  · cases hs
  obtain ⟨hticks, -⟩ := dispatchStep_comes hb .caller (ho.owned.of_inRun (by rw [hm]; rfl))
    (ho.traced.tickLength ▸ hpos) ho.traced.time (ho.traced.fits hm) hstep
  have hu := h.ticks hticks
  rcases r with d' | e | o | o <;> cases hs
  · refine hu.goto ?_ hu.duty id
    intro i hi
    obtain ⟨-, hnone | ⟨hsome, hst⟩⟩ := dispatchStep_next hstep
    · rw [Main.tick, hnone] at hi
      cases hi
    · rw [Main.tick, hsome] at hi
      cases hi
      exact ⟨_, by rw [hst]; exact List.getElem?_concat_length⟩
  · exact hu.turn rfl id
  · exact hu.turn rfl id
  · exact hu.turn rfl id

theorem mainStep (h : Waits s) (ho : Sound base s) (hb : behave.Public)
    (hpos : 0 < base.tickLength) {alarm : Bool} (hs : s.mainStep behave alarm = some t) :
    Waits t := by
  have hstep := hs
  unfold Scene.mainStep at hs
  cases hm : s.main <;> rw [hm] at hs <;> dsimp only at hs
  case outside =>
    have hstands := ho.owned.stands
    unfold Stands at hstands
    rw [hm] at hstands
    have hne : s.clock.pacing.stage ≠ .stopped := by
      intro hst
      rw [hst] at hstands
      cases hstands
    split at hs <;> cases hs
    · exact h.turn rfl id
    · exact h.filled ho.owned hne rfl
  case scheduling =>
    cases hs
    exact h.scheduleStep ho.owned
  case awaiting task => exact h.awaitStep hs
  case ticking d => exact h.tickingStep ho hb hpos hm hstep
  case closing e =>
    cases hs
    exact h.append rfl rfl (.inr rfl) rfl rfl
  case waking task =>
    cases hs
    exact h.turn rfl fun hw => by simpa using hw
  case cancelling task =>
    cases hs
    refine h.turn ?_ id
    split <;> rfl
  case looking =>
    cases hs
    split <;> exact h.turn rfl id
  case choosing => split at hs <;> cases hs <;> exact h.turn rfl id
  case polling task =>
    cases hs
    split <;> exact h.turn rfl id
  case lost =>
    cases hs
    exact h.turn rfl id
  case clearing e => cases e <;> cases hs <;> exact h.turn rfl id
  case free =>
    cases hs
    split <;> exact h.turn rfl id
  case wishing => split at hs <;> cases hs <;> exact h.turn rfl id
  case applying => split at hs <;> cases hs <;> exact h.turn rfl id
  case leaving i e =>
    split at hs <;> cases hs
    exact h.turn rfl id
  case finished ending => cases hs

theorem step (h : Waits s) (ho : Sound base s) (hb : behave.Public) (hpos : 0 < base.tickLength)
    {a : Act} (hs : s.step behave a = some t) : Waits t := by
  cases a with
  | main alarm => exact h.mainStep ho hb hpos hs
  | worker due => exact h.workerStep ho hb hpos hs
  | stop i =>
    obtain ⟨x, hx, hs⟩ := Option.bind_eq_some_iff.mp hs
    exact h.stopStep hx hs
  | issue =>
    cases hs
    exact h.append rfl rfl (.inl rfl) rfl rfl
  | call c =>
    simp only [Scene.step] at hs
    split at hs <;> cases hs
    exact h.goto h.main h.duty id

theorem play (h : Waits s) (ho : Sound base s) (hb : behave.Public) (hpos : 0 < base.tickLength)
    {acts : List Act} (hs : s.play behave acts = some t) : Waits t := by
  have hboth : Sound base t ∧ Waits t := by
    apply play_keeps _ ⟨ho, h⟩ hs
    rintro u a v ⟨hsound, hwaits⟩ hv
    exact ⟨hsound.step hb hpos hv, hwaits.step hsound hb hpos hv⟩
  exact hboth.2

end Waits

end Scene

end Metronome
