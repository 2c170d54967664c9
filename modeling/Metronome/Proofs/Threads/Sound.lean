-- Every order of steps keeps the scene sound: the custody of the scheduler
-- thread is in order, the worker serves the one task that is awaited, and
-- every error in sight is in the chronicle.
import Metronome.Proofs.Threads.Failures

namespace Metronome

/-- The task that the thread awaits. -/
def Main.awaited? {σ : Type} : Main σ → Option Nat
  | .awaiting task | .polling task | .cancelling task | .waking task => some task
  | _ => none

/-- The thread is at work, but dispatches no tick. -/
def Main.between {σ : Type} : Main σ → Bool
  | .outside | .ticking _ | .leaving _ _ | .finished _ => false
  | _ => true

theorem Main.inRun_of_between {σ : Type} {m : Main σ} (h : m.between = true) : m.inRun = true := by
  cases m <;> first | rfl | cases h

theorem Main.ne_ticking_of_between {σ : Type} {m : Main σ} (h : m.between = true)
    (d : Dispatch σ) : m ≠ .ticking d :=
  ne_ticking (by cases m <;> first | rfl | cases h) d

namespace Scene

variable {σ : Type} {behave : Behaviour σ} {base : RealTimeClock} {s t : Scene σ}

structure Sound (base : RealTimeClock) (s : Scene σ) : Prop where
  owned : Owned base s
  traced : Traced base s
  serves : s.worker.Serves s.main.awaited?
  resting : (∀ i, s.worker.phase ≠ .running i) → s.duty = .glancing

theorem sound_opening {c : RealTimeClock} (h : c.Rested) (world : σ) :
    Sound c (opening c world) where
  owned := by
    have hp : c.isPinned = false := by simp [RealTimeClock.isPinned, h.scheduler]
    refine ⟨rfl, h.initial, fun _ => ⟨h, rfl⟩, fun x hx => (by cases hx), fun hw => (by cases hw),
      .inl ⟨rfl, rfl, h.scheduler⟩, ?_⟩
    simp only [opening, hp]
    exact .refl _
  traced := by
    refine ⟨rfl, ?_, trivial, fun d hd => (by cases hd), fun _ _ => h.idle, ?_⟩
    · exact Int.le_of_eq h.time.symm
    · intro e he
      obtain ⟨x, hx, -⟩ := he
      cases hx
  serves := fun _ => rfl
  resting _ := rfl

namespace Sound

theorem serves_at (h : Sound base s) {m : Main σ} (hm : s.main = m) :
    s.worker.Serves m.awaited? := hm ▸ h.serves

theorem free (h : Sound base s) (hm : s.main.awaited? = none) : s.worker.Free := by
  have hserves := h.serves
  rw [hm] at hserves
  exact hserves

/-! ## Steps aside -/

/-- A step that neither the thread that starts the clock nor the worker takes. -/
structure Aside (s t : Scene σ) : Prop where
  calm : RealTimeClock.Calm s.clock t.clock
  ticking : t.clock.ticking = true → s.clock.ticking = true
  main : t.main = s.main
  duty : t.duty = s.duty
  told : t.told = s.told
  phase : t.worker.phase = s.worker.phase
  serves : ∀ a, s.worker.Serves a → t.worker.Serves a
  fails : ∀ e, t.worker.Fails e → s.worker.Fails e

theorem aside (h : Sound base s) (ho : Owned base t) (ha : Aside s t) : Sound base t where
  owned := ho
  traced := h.traced.calm ha.calm ha.ticking ha.main ha.duty ha.told ha.fails
  serves := by
    rw [ha.main]
    exact ha.serves _ h.serves
  resting hr := by
    rw [ha.duty]
    exact h.resting (ha.phase ▸ hr)

theorem stopStep_aside {i : Nat} {x : Stop} (hs : s.stopStep i x = some t) : Aside s t := by
  obtain ⟨own, since, phase⟩ := x
  have same (c : RealTimeClock) (a : Option Nat) (hc : RealTimeClock.Calm s.clock c)
      (ht : c.ticking = true → s.clock.ticking = true) {stops : List Stop} :
      Aside s { s with clock := c, active := a, stops } :=
    ⟨hc, ht, rfl, rfl, rfl, rfl, fun _ h => h, fun _ h => h⟩
  have send (w : Worker) (hp : w.phase = s.worker.phase)
      (hw : ∀ a, s.worker.Serves a → w.Serves a) (hf : ∀ e, w.Fails e → s.worker.Fails e)
      {stops : List Stop} : Aside s { s with worker := w, stops } :=
    ⟨.refl _, id, rfl, rfl, rfl, hp, hw, hf⟩
  cases phase with
  | entering =>
    simp only [stopStep, RealTimeClock.retire] at hs
    cases hon : s.clock.pacing.stage.on .stop <;> rw [hon] at hs <;> cases hs
    · exact same _ _ (.refl _) id
    · rename_i next
      exact same { s.clock with pacing.stage := next } _ ⟨rfl, rfl, rfl, rfl, rfl⟩ id
  | quieting =>
    cases hs
    exact same s.clock.endTicking _ ⟨rfl, rfl, rfl, rfl, rfl⟩ fun h => (by cases h)
  | takingTask =>
    simp only [stopStep] at hs
    cases ha : s.active <;> rw [ha] at hs <;> cases hs
    · exact same _ _ (.refl _) id
    · exact same _ none (.refl _) id
  | raising task =>
    cases hs
    exact send (s.worker.raiseFlag task).1 rfl (fun _ h => h.raiseFlag task)
      fun _ h => Worker.fails_raiseFlag h
  | waking =>
    cases hs
    exact send _ (s.worker.phase_send .wake) (fun _ h => h.send rfl) fun _ h => Worker.fails_send h
  | takingScheduler =>
    simp only [stopStep] at hs
    cases hsch : s.clock.pacing.scheduler <;> rw [hsch] at hs <;> cases hs
    · exact same _ _ (.refl _) id
    · exact same { s.clock with
          pacing := { s.clock.pacing with scheduler := none, cancelled := true } } _
        ⟨rfl, rfl, rfl, rfl, rfl⟩ id
  | telling sch again =>
    cases hs
    exact send _ (s.worker.phase_send .shutDown) (fun _ h => h.send rfl)
      fun _ h => Worker.fails_send h
  | unpinning sch again =>
    cases hs
    refine same (s.clock.unpin sch) _ ?_ ?_ <;> unfold RealTimeClock.unpin <;> split
    · exact ⟨rfl, rfl, rfl, rfl, rfl⟩
    · exact .refl _
    · exact id
    · exact id
  | joining sch =>
    simp only [stopStep] at hs
    split at hs <;> cases hs
    exact same _ _ (.refl _) id
  | done => cases hs
  | refused e => cases hs

theorem stopStep (h : Sound base s) {i : Nat} {x : Stop} (hx : s.stops[i]? = some x)
    (hs : s.stopStep i x = some t) : Sound base t :=
  h.aside (h.owned.stopStep hx hs) (stopStep_aside hs)

theorem issue (h : Sound base s) : Sound base (s.addStop false .entering) :=
  h.aside (h.owned.light (.refl _) rfl id (.inr ⟨false, rfl⟩) (.inl rfl))
    ⟨.refl _, id, rfl, rfl, rfl, rfl, fun _ h => h, fun _ h => h⟩

theorem call (h : Sound base s) {c : Call} (hp : c.isPublic = true) (hstop : c ≠ .stop)
    (hstart : c ≠ .start) : Sound base { s with clock := (RealTimeClock.serve s.clock c).1 } := by
  obtain ⟨hlight, hcalm⟩ := RealTimeClock.serve_light (c := s.clock) hp hstop hstart
  exact h.aside (h.owned.light hlight rfl id (.inl rfl) (.inl rfl))
    ⟨hcalm, hlight.ticking, rfl, rfl, rfl, rfl, fun _ h => h, fun _ h => h⟩

/-! ## Steps of the worker -/

theorem inRun_of_awaited {task : Nat} (h : s.main.awaited? = some task) : s.main.inRun = true := by
  cases hm : s.main <;> rw [hm] at h <;> first | rfl | cases h

theorem explains_of_awaited {task : Nat} (h : s.main.awaited? = some task) : s.Explains := by
  unfold Explains
  cases hm : s.main <;> rw [hm] at h <;> trivial

theorem no_tick_of_awaited {task : Nat} (h : s.main.awaited? = some task) (d : Dispatch σ) :
    s.main ≠ .ticking d := by
  intro hm
  rw [hm] at h
  cases h

/-- A worker that runs a task runs the one that is awaited. -/
theorem running_awaited (h : Sound base s) {i : Nat} (hp : s.worker.phase = .running i) :
    s.main.awaited? = some i := (h.serves.under_way (by rw [hp]; rfl)).1

/-- A run of the task comes to its end. -/
theorem heed (h : Owned base s) {task : Nat} (hm : s.main.awaited? = some task)
    (hs : s.worker.Serves s.main.awaited?) (hp : s.worker.phase = .running task)
    (hL : s.clock.tickLength = base.tickLength) (ht : 0 ≤ s.clock.time)
    (hd : s.clock.dispatching = false)
    (hf : ∀ e, s.worker.Fails e → s.told.Knows s.clock.tickLength e) {r : Worker.Report}
    (hr : ∀ e, r.outcome? = some (.failed e) → s.told.Knows s.clock.tickLength e) :
    Sound base (s.heed task r) := by
  obtain ⟨hserves, hfails⟩ := hs.heed hp r
  refine ⟨h.light (.refl _) rfl
      (fun hw => Worker.ending_heed (w := s.worker.changeTask task _) hw) (.inl rfl) (.inl rfl),
    ⟨hL, ht, explains_of_awaited hm, fun d hd => (by cases hd), fun _ _ => hd, ?_⟩,
    hserves, fun _ => rfl⟩
  intro e he
  rcases hfails e he with he | he
  · exact hf e he
  · exact hr e he

/-- While the run of a task dispatches no tick, nothing is dispatched. -/
theorem idle_of_running (h : Sound base s) {task : Nat} (hp : s.worker.phase = .running task)
    (hd : ∀ d, s.duty ≠ .ticking d) : s.clock.dispatching = false :=
  h.traced.idle (no_tick_of_awaited (h.running_awaited hp)) hd

/-- A run of a task that ends without an error. -/
theorem heed_fine (h : Sound base s) {task : Nat} (hp : s.worker.phase = .running task)
    (hd : ∀ d, s.duty ≠ .ticking d) {r : Worker.Report}
    (hr : ∀ e, r.outcome? ≠ some (.failed e)) : Sound base (s.heed task r) :=
  heed h.owned (h.running_awaited hp) h.serves hp h.traced.tickLength h.traced.time
    (h.idle_of_running hp hd) h.traced.fails fun e he => absurd he (hr e)

/-- A run of a task that goes on, but not with a step of a tick. -/
theorem stay (h : Sound base s) {task : Nat} (hp : s.worker.phase = .running task)
    (hd : ∀ d, s.duty ≠ .ticking d) {c : RealTimeClock} {duty : Duty σ}
    (hc : RealTimeClock.Light s.clock c) (hcalm : RealTimeClock.Calm s.clock c)
    (hduty : duty = .ticking .knocking ∨ ∀ d, duty ≠ .ticking d) :
    Sound base { s with clock := c, duty } := by
  have hfree : c.dispatching = false := hcalm.dispatching.trans (h.idle_of_running hp hd)
  refine ⟨h.owned.light hc rfl id (.inl rfl) (.inl rfl),
    ⟨hcalm.tickLength.trans h.traced.tickLength, by rw [hcalm.time]; exact h.traced.time,
      explains_of_awaited (h.running_awaited hp), ?_, fun _ _ => hfree, ?_⟩, h.serves,
    fun hr => absurd hp (hr _)⟩
  · intro d hd'
    rcases hduty with hduty | hduty
    · rw [hduty] at hd'
      cases hd'
      exact hfree
    · exact absurd hd' (hduty d)
  · intro e he
    rw [hcalm.tickLength]
    exact h.traced.fails e he

/-- A step of a tick adds to what was told, and so what the worker has to tell stays known. -/
theorem fails_ticks (h : Sound base s) (ht : Ticks s t) :
    ∀ e, t.worker.Fails e → t.told.Knows t.clock.tickLength e := by
  intro e he
  obtain ⟨news, hnews⟩ := ht.told
  rw [ht.worker] at he
  rw [hnews, ht.tickLength]
  exact (h.traced.fails e he).append news

/-- A step of a tick on the scheduler thread. -/
theorem dutyTick (h : Sound base s) (hb : behave.Public) (hpos : 0 < base.tickLength) {task : Nat}
    (hp : s.worker.phase = .running task) {d : Dispatch σ} (hduty : s.duty = .ticking d)
    (hs : s.dutyStep behave task = some t) : Sound base t := by
  have hm := h.running_awaited hp
  have hL := h.traced.tickLength
  unfold Scene.dutyStep at hs
  rw [hduty] at hs
  dsimp only at hs
  rcases hstep : s.dispatchStep behave .scheduler d with _ | ⟨u, r⟩ <;> rw [hstep] at hs
  · cases hs
  obtain ⟨hticks, hcomes⟩ := dispatchStep_comes hb .scheduler
    (h.owned.of_inRun (inRun_of_awaited hm)) (hL ▸ hpos) h.traced.time (h.traced.duty d hduty) hstep
  have howned : Owned base u :=
    h.owned.light hticks.light hticks.spawned (fun hw => hticks.worker ▸ hw) hticks.stops
      (.inl hticks.main)
  have hm' : u.main.awaited? = some task := by rw [hticks.main, hm]
  have hserves : u.worker.Serves u.main.awaited? := by
    rw [hticks.worker, hticks.main]
    exact h.serves
  have hp' : u.worker.phase = .running task := by rw [hticks.worker, hp]
  have hL' : u.clock.tickLength = base.tickLength := hticks.tickLength.trans hL
  have ht' := hticks.time h.traced.time
  have hfails := h.fails_ticks hticks
  have hover (hfree : u.clock.dispatching = false) {r : Worker.Report}
      (hr : ∀ e, r.outcome? = some (.failed e) → u.told.Knows u.clock.tickLength e) :
      Sound base (u.heed task r) := heed howned hm' hserves hp' hL' ht' hfree hfails hr
  rcases r with d' | e | o | o <;> cases hs
  · refine ⟨howned.light (.refl _) rfl id (.inl rfl) (.inl rfl),
      ⟨hL', ht', explains_of_awaited hm', ?_, fun _ hd => absurd rfl (hd d'), hfails⟩,
      hserves, fun hr => absurd hp' (hr _)⟩
    intro d hd
    cases hd
    exact hcomes
  · apply hover hcomes.1
    intro e' he
    cases he
    rw [hticks.tickLength]
    exact hcomes.2 e rfl
  · exact ⟨howned.light (.refl _) rfl id (.inl rfl) (.inl rfl),
      ⟨hL', ht', explains_of_awaited hm', fun d hd => (by cases hd), fun _ _ => hcomes.1, hfails⟩,
      hserves, fun hr => absurd hp' (hr _)⟩
  · exact hover hcomes.1 (by simp [Worker.Report.outcome?])

theorem dutyStep (h : Sound base s) (hb : behave.Public) (hpos : 0 < base.tickLength) {task : Nat}
    (hp : s.worker.phase = .running task) (hs : s.dutyStep behave task = some t) :
    Sound base t := by
  have hbegun := h.owned.of_inRun (inRun_of_awaited (h.running_awaited hp))
  cases hduty : s.duty with
  | ticking d => exact h.dutyTick hb hpos hp hduty hs
  | glancing =>
    have hd := Duty.ne_ticking (x := s.duty) (by rw [hduty]; rfl)
    simp only [Scene.dutyStep, hduty] at hs
    split at hs <;> cases hs
    · exact h.stay hp hd (.of_begun hbegun rfl id rfl rfl rfl) ⟨rfl, rfl, rfl, rfl, rfl⟩ (.inl rfl)
    · exact h.heed_fine hp hd (by simp [Worker.Report.outcome?])
  | checking =>
    have hd := Duty.ne_ticking (x := s.duty) (by rw [hduty]; rfl)
    simp only [Scene.dutyStep, hduty] at hs
    split at hs <;> cases hs
    · exact h.stay hp hd (.refl _) (.refl _) (.inr (Duty.ne_ticking rfl))
    · exact h.heed_fine hp hd (by simp [Worker.Report.outcome?])
  | minding =>
    have hd := Duty.ne_ticking (x := s.duty) (by rw [hduty]; rfl)
    simp only [Scene.dutyStep, hduty] at hs
    split at hs <;> cases hs <;> exact h.heed_fine hp hd (by simp [Worker.Report.outcome?])

theorem workerStep (h : Sound base s) (hb : behave.Public) (hpos : 0 < base.tickLength) {due : Bool}
    (hs : s.workerStep behave due = some t) : Sound base t := by
  unfold Scene.workerStep at hs
  split at hs
  · rename_i task hp
    exact h.dutyStep hb hpos hp hs
  · rename_i hrun
    obtain ⟨w, hw, rfl⟩ := Option.map_eq_some_iff.mp hs
    obtain ⟨hserves, hfails⟩ := h.serves.step? hw hrun
    refine ⟨h.owned.light (.refl _) rfl (fun he => Worker.ending_step? hw hrun he) (.inl rfl)
      (.inl rfl), h.traced.calm (.refl _) id rfl rfl rfl hfails, hserves, fun _ => h.resting hrun⟩

/-! ## Steps of the thread that starts the clock -/

/-- While no task is awaited, the worker runs none. -/
theorem not_running (h : Sound base s) (hm : s.main.awaited? = none) (i : Nat) :
    s.worker.phase ≠ .running i := by
  intro hp
  have := h.running_awaited hp
  rw [hm] at this
  cases this

theorem no_duty (h : Sound base s) (hm : s.main.awaited? = none) : s.duty = .glancing :=
  h.resting (h.not_running hm)

/-- A step between two legs, or one that deals with the awaited task. -/
theorem turn (h : Sound base s) (hm : s.main.between = true) {c : RealTimeClock} {w : Worker}
    {a : Option Nat} {m : Main σ} (hm' : m.inRun = true)
    (hc : RealTimeClock.Light s.clock c) (hcalm : RealTimeClock.Calm s.clock c)
    (hw : w.ending = true → s.worker.ending = true) (hp : w.phase = s.worker.phase)
    (hf : ∀ e, w.Fails e → s.worker.Fails e) (hserves : w.Serves m.awaited?)
    (he : Explains { s with clock := c, worker := w, active := a, main := m }) :
    Sound base { s with clock := c, worker := w, active := a, main := m } where
  owned := h.owned.light hc rfl hw (.inl rfl) (.inr ⟨Main.inRun_of_between hm, hm'⟩)
  traced := h.traced.turn hcalm (Main.ne_ticking_of_between hm) rfl rfl hf he
  serves := hserves
  resting hr := h.resting (hp ▸ hr)

/-- A step that only changes what is to be done next. -/
theorem goto (h : Sound base s) (hm : s.main.between = true) (m : Main σ) (a : Option Nat)
    (hm' : m.inRun = true) (ha : m.awaited? = s.main.awaited?)
    (he : Explains { s with active := a, main := m }) :
    Sound base { s with active := a, main := m } :=
  h.turn hm hm' (.refl _) (.refl _) id rfl (fun _ => id) (ha ▸ h.serves) he

theorem filled_worker (s : Scene σ) (c : RealTimeClock) :
    (s.filled c).worker = {} ∨ (s.filled c).worker = s.worker := by
  unfold filled
  split
  · exact .inl rfl
  · exact .inr rfl

theorem filled_duty (s : Scene σ) (c : RealTimeClock) : (s.filled c).duty = s.duty := by
  unfold filled
  split <;> rfl

theorem filled_told (s : Scene σ) (c : RealTimeClock) : (s.filled c).told = s.told := by
  unfold filled
  split <;> rfl

theorem free_filled (h : Sound base s) (hm : s.main.awaited? = none) (c : RealTimeClock) :
    (s.filled c).worker.Free := by
  rcases filled_worker s c with hw | hw <;> rw [hw]
  · intro _
    rfl
  · exact h.free hm

theorem fails_filled {c : RealTimeClock} {e : ClockError} (h : (s.filled c).worker.Fails e) :
    s.worker.Fails e := by
  rcases filled_worker s c with hw | hw <;> rw [hw] at h
  · obtain ⟨x, hx, -⟩ := h
    cases hx
  · exact h

theorem launchStep (h : Sound base s) (hm : s.main = .outside) {c : RealTimeClock}
    (hl : s.clock.launch = .ok c) : Sound base { s.filled c with main := .looking } := by
  have ha : s.main.awaited? = none := by rw [hm]; rfl
  have howned := h.owned.launch hm hl
  have hset := howned.settings
  dsimp only at hset
  rw [filled_clock] at hset
  have hcalm : RealTimeClock.Calm s.clock c := by
    obtain ⟨pacing, hc⟩ := RealTimeClock.launch_eq hl
    refine ⟨?_, ?_, ?_, ?_, hset.trans h.owned.settings.symm⟩ <;> rw [hc] <;>
      unfold Clock.beginTicking <;> split <;> rfl
  refine ⟨howned, ?_, h.free_filled ha c, ?_⟩
  · refine h.traced.turn ?_ (Main.ne_ticking (by rw [hm]; rfl)) (filled_duty s c) (filled_told s c)
      (fun e he => fails_filled he) trivial
    dsimp only
    rwa [filled_clock]
  · intro _
    exact (filled_duty s c).trans (h.no_duty ha)

theorem scheduleStep (h : Sound base s) (hm : s.main = .scheduling) :
    Sound base s.scheduleStep := by
  have ha : s.main.awaited? = none := by rw [hm]; rfl
  have hn := Main.ne_ticking (m := s.main) (by rw [hm]; rfl)
  have howned := h.owned.scheduleStep hm
  unfold Scene.scheduleStep at howned ⊢
  by_cases hs : s.clock.pacing.stage = .realTimeRunning
  · rw [if_pos hs] at howned ⊢
    have hstopped : s.clock.pacing.stage ≠ .stopped := by rw [hs]; nofun
    rcases RealTimeClock.schedule_cases s.clock with ⟨sch, pins, he⟩ | ⟨f, he, hf⟩
    · have hend := h.owned.ending_filled
        (d := { s.clock with
          pacing := { s.clock.pacing with scheduler := sch, pins, cancelled := false } }) hstopped
      obtain ⟨v, hv⟩ := Worker.schedule?_of_not_ending hend
        (s.filled { s.clock with
          pacing := { s.clock.pacing with
            scheduler := sch, pins, cancelled := false } }).clock.pacing.period
        fun _ => .goOn
      simp only [he, hv] at howned ⊢
      refine ⟨howned, ?_, (h.free_filled ha _).schedule? hv, ?_⟩
      · refine h.traced.turn ?_ hn (filled_duty s _) (filled_told s _)
          (fun e he => fails_filled (Worker.fails_schedule? hv he)) trivial
        dsimp only
        rw [filled_clock]
        exact ⟨rfl, rfl, rfl, rfl, rfl⟩
      · intro _
        exact (filled_duty s _).trans (h.no_duty ha)
    · simp only [he] at howned ⊢
      exact ⟨howned, h.traced.turn (.refl _) hn rfl rfl (fun _ => id) hf, h.free ha, h.resting⟩
  · rw [if_neg hs]
    exact h.goto (by rw [hm]; rfl) .applying s.active rfl (by rw [ha]; rfl) trivial

theorem awaitStep (h : Sound base s) {alarm : Bool} {task : Nat} (hm : s.main = .awaiting task)
    (hs : s.awaitStep alarm task = some t) : Sound base t := by
  have hbetween : s.main.between = true := by rw [hm]; rfl
  have hserves := h.serves_at hm
  unfold Scene.awaitStep at hs
  rcases Worker.Owes.receive hserves with
    ⟨o, w, hrec, hp, hq, hfree, hfails, hknown⟩ | hrec | ⟨hrec, hexit⟩
  · have hend : w.ending = true → s.worker.ending = true := by
      unfold Worker.ending
      rw [hp, hq]
      exact id
    rw [hrec] at hs
    cases o with
    | failed e =>
      cases hs
      exact h.turn hbetween (c := s.clock) (w := w) (a := s.active) (m := .clearing (some e)) rfl
        (.refl _) (.refl _) hend hp hfails hfree (h.traced.fails e (hknown e rfl))
    | _ =>
      cases hs
      exact h.turn hbetween (c := s.clock) (w := w) (a := s.active) (m := .clearing none) rfl
        (.refl _) (.refl _) hend hp hfails hfree trivial
  · rw [hrec] at hs
    dsimp only at hs
    split at hs <;> cases hs
    exact h.goto hbetween (.polling task) s.active rfl (by rw [hm]; rfl) trivial
  · rw [hrec] at hs
    cases hs
    have hgone := h.owned.told (by simp [Worker.ending, hexit])
    exact h.turn hbetween (c := s.clock) (w := s.worker) (a := s.active) (m := .lost) rfl (.refl _)
      (.refl _) id rfl (fun _ => id) (fun hne => absurd hexit hne) hgone.quiet

/-- A step of a tick on the thread that starts the clock. -/
theorem tickStep (h : Sound base s) (hb : behave.Public) (hpos : 0 < base.tickLength)
    {d : Dispatch σ} (hm : s.main = .ticking d) {r : Dispatch σ ⊕ Except ClockError TickEnd}
    (hs : s.dispatchStep behave .caller d = some (t, r)) {m : Main σ} (hm' : m.inRun = true)
    (ha : m.awaited? = none)
    (he : Comes t.clock.tickLength t r → Explains { t with main := m } ∧
      ((∀ x, m ≠ .ticking x) → t.clock.dispatching = false)) :
    Sound base { t with main := m } := by
  have hrun : s.main.inRun = true := by rw [hm]; rfl
  have hnone : s.main.awaited? = none := by rw [hm]; rfl
  have hL := h.traced.tickLength
  have hfit := h.traced.fits hm
  obtain ⟨hticks, hcomes⟩ := dispatchStep_comes hb .caller (h.owned.of_inRun hrun) (hL ▸ hpos)
    h.traced.time hfit hs
  obtain ⟨hexplains, hidle⟩ := he (hticks.tickLength ▸ hcomes)
  have hduty : t.duty = .glancing := hticks.duty.trans (h.no_duty hnone)
  have hfails := h.fails_ticks hticks
  refine ⟨h.owned.light hticks.light hticks.spawned (fun hw => hticks.worker ▸ hw) hticks.stops
      (.inr ⟨hrun, hm'⟩), ⟨hticks.tickLength.trans hL, hticks.time h.traced.time, hexplains,
      ?_, fun hx _ => hidle hx, hfails⟩, ?_, fun _ => hduty⟩
  · intro x hx
    have hx' : t.duty = .ticking x := hx
    rw [hduty] at hx'
    cases hx'
  · dsimp only
    rw [ha, hticks.worker, ← hnone]
    exact h.serves

/-- A start that is refused, or that breaks before the run begins. -/
theorem refusedStep (h : Sound base s) (hm : s.main = .outside) {ending : RealTimeClock.Ending}
    (hl : s.clock.launch = .error ending) : Sound base { s with main := .finished ending } := by
  have hinit := h.owned.stands
  unfold Stands at hinit
  rw [hm] at hinit
  obtain ⟨hrest, -⟩ := h.owned.rest hinit
  rcases hrest.launch with ⟨c, hl', -⟩ | ⟨f, hl', hf⟩ <;> rw [hl] at hl' <;> cases hl'
  have hserves := h.serves_at hm
  exact ⟨⟨h.owned.settings, hrest.scheduler, h.owned.rest, h.owned.stops, h.owned.told,
      h.owned.taken, h.owned.pins⟩,
    h.traced.turn (.refl _) (Main.ne_ticking (by rw [hm]; rfl)) rfl rfl (fun _ => id) hf,
    hserves, h.resting⟩

/-- The flag of the awaited task is raised. -/
theorem cancellingStep (h : Sound base s) {task : Nat} (hm : s.main = .cancelling task)
    {m : Main σ} (hm' : m = .waking task ∨ m = .awaiting task) :
    Sound base { s with worker := (s.worker.raiseFlag task).1, main := m } := by
  have hflag := (h.serves_at hm).raiseFlag task
  have hbetween : s.main.between = true := by rw [hm]; rfl
  rcases hm' with rfl | rfl <;>
    exact h.turn (c := s.clock) (a := s.active) hbetween rfl (.refl _) (.refl _) id rfl
      (fun _ => Worker.fails_raiseFlag) hflag trivial

theorem wakingStep (h : Sound base s) {task : Nat} (hm : s.main = .waking task) :
    Sound base { s with worker := s.worker.wake, main := .awaiting task } :=
  h.turn (c := s.clock) (a := s.active) (m := .awaiting task) (by rw [hm]; rfl) rfl
    (.refl _) (.refl _) (fun hw => by simpa using hw) (s.worker.phase_send .wake)
    (fun _ => Worker.fails_send) ((h.serves_at hm).send rfl) trivial

/-- A tick of a simulated leg begins. -/
theorem knockingStep (h : Sound base s) (hm : s.main = .wishing) :
    Sound base { s with main := .ticking .knocking } := by
  have hnone : s.main.awaited? = none := by rw [hm]; rfl
  have hfree : s.clock.dispatching = false :=
    h.traced.idle (Main.ne_ticking (by rw [hm]; rfl))
      (Duty.ne_ticking (by rw [h.no_duty hnone]; rfl))
  exact h.goto (by rw [hm]; rfl) (.ticking .knocking) s.active rfl (by rw [hnone]; rfl) hfree

/-- A tick of a simulated leg goes on or ends. -/
theorem tickingStep (h : Sound base s) (hb : behave.Public) (hpos : 0 < base.tickLength)
    {alarm : Bool} {d : Dispatch σ} (hm : s.main = .ticking d)
    (hs : s.mainStep behave alarm = some t) : Sound base t := by
  unfold Scene.mainStep at hs
  rw [hm] at hs
  dsimp only at hs
  rcases hstep : s.dispatchStep behave .caller d with _ | ⟨u, r⟩ <;> rw [hstep] at hs
  · cases hs
  rcases r with d' | e | o | o <;> cases hs
  · exact h.tickStep hb hpos hm hstep rfl rfl fun hc => ⟨hc, fun hn => absurd rfl (hn d')⟩
  · exact h.tickStep hb hpos hm hstep rfl rfl fun hc => ⟨hc.2 e rfl, fun _ => hc.1⟩
  · exact h.tickStep hb hpos hm hstep rfl rfl fun hc => ⟨trivial, fun _ => hc.1⟩
  · exact h.tickStep hb hpos hm hstep rfl rfl fun hc => ⟨trivial, fun _ => hc.1⟩

theorem applyingStep (h : Sound base s) (hm : s.main = .applying) {c : RealTimeClock}
    (hc : s.clock.Grants c) : Sound base { s with clock := c, main := .looking } := by
  have hserves := h.serves_at hm
  have hbegun := h.owned.of_inRun (by rw [hm]; rfl)
  exact h.turn (w := s.worker) (a := s.active) (m := .looking) (by rw [hm]; rfl) rfl
    (.of_grants hbegun hc) (.of_grants hc) id rfl (fun _ => id) hserves trivial

/-- The run is over, and the end of it is a stop like any other. -/
theorem closingStep (h : Sound base s) {e : Option ClockError} (hm : s.main = .closing e) :
    Sound base { { s with clock := s.clock.close }.addStop false .quieting with
      main := .leaving s.stops.length e } := by
  have hx := h.traced.main
  unfold Explains at hx
  rw [hm] at hx
  have hcalm : RealTimeClock.Calm s.clock s.clock.close := by
    unfold RealTimeClock.close
    split
    · exact ⟨rfl, rfl, rfl, rfl, rfl⟩
    · exact .refl _
  have hserves := h.serves_at hm
  refine ⟨h.owned.closing hm, ?_, hserves, h.resting⟩
  refine h.traced.turn hcalm (Main.ne_ticking (by rw [hm]; rfl)) rfl rfl (fun _ => id) ?_
  cases e with
  | none => trivial
  | some e =>
    have hknows : s.told.Knows s.clock.close.tickLength e := by
      rw [hcalm.tickLength]
      exact hx
    exact hknows

theorem leavingStep (h : Sound base s) {i : Nat} {e : Option ClockError}
    (hm : s.main = .leaving i e) (hdone : (s.stops[i]?).map (·.phase) = some .done) :
    Sound base { s with clock := s.clock.publish .stopped, main := .finished (.of e) } := by
  have hx := h.traced.main
  unfold Explains at hx
  rw [hm] at hx
  have hserves := h.serves_at hm
  refine ⟨h.owned.leaving hdone _, ?_, hserves, h.resting⟩
  refine h.traced.turn ⟨rfl, rfl, rfl, rfl, rfl⟩ (Main.ne_ticking (by rw [hm]; rfl)) rfl rfl
    (fun _ => id) ?_
  cases e with
  | none => trivial
  | some e => exact hx

theorem mainStep (h : Sound base s) (hb : behave.Public) (hpos : 0 < base.tickLength) {alarm : Bool}
    (hs : s.mainStep behave alarm = some t) : Sound base t := by
  have hx := h.traced.main
  unfold Explains at hx
  have go (m : Main σ) (a : Option Nat) (hm : s.main.between = true) (hm' : m.inRun = true)
      (ha : m.awaited? = s.main.awaited?) (he : Explains { s with active := a, main := m }) :
      Sound base { s with active := a, main := m } := h.goto hm m a hm' ha he
  have hstep := hs
  unfold Scene.mainStep at hs
  cases hm : s.main <;> rw [hm] at hs hx go <;> dsimp only at hs hx
  case outside =>
    cases hl : s.clock.launch <;> rw [hl] at hs <;> cases hs
    · exact h.refusedStep hm hl
    · exact h.launchStep hm hl
  case looking =>
    cases hs
    split
    · exact go .choosing s.active rfl rfl rfl trivial
    · exact go (.closing none) s.active rfl rfl rfl trivial
  case choosing =>
    split at hs <;> cases hs
    · exact go .scheduling s.active rfl rfl rfl trivial
    · exact go .free s.active rfl rfl rfl trivial
    · exact go (.closing none) s.active rfl rfl rfl trivial
  case scheduling =>
    cases hs
    exact h.scheduleStep hm
  case awaiting task => exact h.awaitStep hm hs
  case polling task =>
    cases hs
    split
    · exact go (.awaiting task) s.active rfl rfl rfl trivial
    · exact go (.cancelling task) s.active rfl rfl rfl trivial
  case cancelling task =>
    cases hs
    split
    · exact h.cancellingStep hm (.inl rfl)
    · exact h.cancellingStep hm (.inr rfl)
  case waking task =>
    cases hs
    exact h.wakingStep hm
  case lost =>
    cases hs
    rw [hx]
    exact go (.clearing none) s.active rfl rfl rfl trivial
  case clearing e =>
    cases e <;> cases hs
    · exact go .applying none rfl rfl rfl trivial
    · exact go (.closing _) none rfl rfl rfl hx
  case free =>
    cases hs
    split
    · exact go .wishing s.active rfl rfl rfl trivial
    · exact go .applying s.active rfl rfl rfl trivial
  case wishing =>
    split at hs <;> cases hs
    · exact go .applying s.active rfl rfl rfl trivial
    · exact h.knockingStep hm
  case ticking d => exact h.tickingStep hb hpos hm hstep
  case applying =>
    obtain ⟨c, hc, hg⟩ := RealTimeClock.applyPending_ok s.clock
    rw [hc] at hs
    cases hs
    exact h.applyingStep hm hg
  case closing e =>
    cases hs
    exact h.closingStep hm
  case leaving i e =>
    split at hs <;> cases hs
    exact h.leavingStep hm ‹_›
  case finished ending => cases hs

/-! ## Every order of steps -/

theorem step (h : Sound base s) (hb : behave.Public) (hpos : 0 < base.tickLength) {a : Act}
    (hs : s.step behave a = some t) : Sound base t := by
  cases a with
  | main alarm => exact h.mainStep hb hpos hs
  | worker due => exact h.workerStep hb hpos hs
  | stop i =>
    obtain ⟨x, hx, hs⟩ := Option.bind_eq_some_iff.mp hs
    exact h.stopStep hx hs
  | issue =>
    cases hs
    exact h.issue
  | call c =>
    simp only [Scene.step] at hs
    split at hs <;> cases hs
    rename_i hc
    exact h.call hc.1 hc.2.1 hc.2.2

theorem play (h : Sound base s) (hb : behave.Public) (hpos : 0 < base.tickLength) {acts : List Act}
    (hs : s.play behave acts = some t) : Sound base t := by
  apply play_keeps _ h hs
  intro u a v hu hv
  exact hu.step hb hpos hv

end Sound

end Scene

end Metronome
