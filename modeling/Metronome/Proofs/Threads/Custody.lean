-- Who holds the scheduler thread while stops come from everywhere. A stop
-- looks at the stage first, and from then on no thread is started. It takes
-- the thread out of the clock, and only who took it gives back its pin.
import Metronome.Proofs.Threads.Onward
import Metronome.Proofs.Threads.Scene

namespace Metronome

/-! ## How far a stop has come -/

namespace Halt

/-- It has moved the clock to the last stage. -/
def begun : Halt → Bool
  | .entering | .refused _ => false
  | _ => true

/-- It has taken the flag down that keeps the clock ticking. -/
def quiet : Halt → Bool
  | .entering | .refused _ | .quieting => false
  | _ => true

/-- It has looked for the scheduler thread. -/
def cleared : Halt → Bool
  | .telling _ _ | .unpinning _ _ | .joining _ | .done => true
  | _ => false

/-- The pins that it still has to give back. -/
def lease : Halt → Nat
  | .telling s _ | .unpinning s _ | .joining s => s.pinned.toNat
  | _ => 0

theorem begun_of_quiet {p : Halt} (h : p.quiet = true) : p.begun = true := by
  cases p <;> first | rfl | cases h

theorem quiet_of_cleared {p : Halt} (h : p.cleared = true) : p.quiet = true := by
  cases p <;> first | rfl | cases h

theorem lease_of_not_begun {p : Halt} (h : p.begun = false) : p.lease = 0 := by
  cases p <;> first | rfl | cases h

end Halt

/-- Nothing of the run is left in the clock. -/
structure RealTimeClock.Gone (c : RealTimeClock) : Prop where
  stopped : c.pacing.stage = .stopped
  quiet : c.ticking = false
  cleared : c.pacing.scheduler = none

theorem RealTimeClock.Gone.onward {c d : RealTimeClock} (h : c.Gone)
    (hd : RealTimeClock.Onward c d) : d.Gone :=
  ⟨hd.stopped h.stopped, hd.quiet h.stopped h.quiet, hd.cleared h.stopped h.cleared⟩

/-- The clock holds what a stop has done to it so far, and a stop that is called in time is not
refused. -/
structure Stop.Fits (c : RealTimeClock) (x : Stop) : Prop where
  begun : x.phase.begun = true → c.pacing.stage = .stopped
  quiet : x.phase.quiet = true → c.ticking = false
  cleared : x.phase.cleared = true → c.pacing.scheduler = none
  heeded : x.since.isInitial = false →
    c.pacing.stage.isInitial = false ∧ ∀ e, x.phase ≠ .refused e

theorem Stop.Fits.onward {c d : RealTimeClock} {x : Stop} (h : x.Fits c)
    (hd : RealTimeClock.Onward c d) : x.Fits d where
  begun hx := hd.stopped (h.begun hx)
  quiet hx := hd.quiet (h.begun (Halt.begun_of_quiet hx)) (h.quiet hx)
  cleared hx :=
    hd.cleared (h.begun (Halt.begun_of_quiet (Halt.quiet_of_cleared hx))) (h.cleared hx)
  heeded hx := ⟨hd.begun (h.heeded hx).1, (h.heeded hx).2⟩

/-- A stop that goes on to a phase for which it has done all that it should. -/
theorem Stop.Fits.goOn {c : RealTimeClock} {x : Stop} (h : x.Fits c) {p : Halt}
    (hb : p.begun = true → x.phase.begun = true) (hq : p.quiet = true → x.phase.quiet = true)
    (hc : p.cleared = true → x.phase.cleared = true) (hr : ∀ e, p ≠ .refused e) :
    Stop.Fits c { x with phase := p } where
  begun hp := h.begun (hb hp)
  quiet hp := h.quiet (hq hp)
  cleared hp := h.cleared (hc hp)
  heeded hi := ⟨(h.heeded hi).1, hr⟩

/-- A stop of a clock of which nothing is left. -/
theorem Stop.Fits.of_gone {c : RealTimeClock} {x : Stop} (h : c.Gone)
    (hr : ∀ e, x.phase ≠ .refused e) : x.Fits c where
  begun _ := h.stopped
  quiet _ := h.quiet
  cleared _ := h.cleared
  heeded _ := ⟨by rw [h.stopped]; rfl, hr⟩

/-! ## The pins -/

theorem Pins.Settled.refl (p : Pins) : p.Settled p 0 := ⟨[], by simp, Nat.zero_le _, rfl, by simp⟩

/-- A pin that is given back was held before. -/
theorem Pins.Settled.move {before now next : Pins} {held held' : Nat}
    (h : before.Settled now held) (hc : next.cores = now.cores) (hr : next.refused = now.refused)
    (hrel : next.releases + held' = now.releases + held) : before.Settled next held' := by
  obtain ⟨asked, hcores, hone, href, hsum⟩ := h
  exact ⟨asked, hc.trans hcores, hone, hr.trans href, hrel.trans hsum⟩

/-- If nothing was asked for, nothing is held. -/
theorem Pins.Settled.held_eq_zero {p : Pins} {held : Nat} (h : p.Settled p held) : held = 0 := by
  obtain ⟨asked, hcores, -, -, hsum⟩ := h
  have hnone : asked = [] := List.self_eq_append_right.mp hcores
  rw [hnone] at hsum
  simp only [List.length_nil, ite_self] at hsum
  omega

/-- What the members of a list count together. -/
def total {α : Type} (f : α → Nat) : List α → Nat
  | [] => 0
  | x :: xs => f x + total f xs

section Total

variable {α : Type} {f : α → Nat} {xs : List α}

@[simp] theorem total_nil : total f [] = 0 := rfl

@[simp] theorem total_cons (x : α) : total f (x :: xs) = f x + total f xs := rfl

theorem total_append (ys : List α) : total f (xs ++ ys) = total f xs + total f ys := by
  induction xs with
  | nil => simp
  | cons x xs ih =>
    simp only [List.cons_append, total_cons]
    omega

/-- A member in the place of another. -/
theorem total_set (f : α → Nat) {i : Nat} {x : α} (h : xs[i]? = some x) (y : α) :
    total f (xs.set i y) + f x = total f xs + f y := by
  induction xs generalizing i with
  | nil => cases h
  | cons z xs ih =>
    cases i with
    | zero =>
      cases h
      simp only [List.set_cons_zero, total_cons]
      omega
    | succ i =>
      have hi := ih h
      simp only [List.set_cons_succ, total_cons]
      omega

theorem total_eq_zero (h : ∀ x ∈ xs, f x = 0) : total f xs = 0 := by
  induction xs with
  | nil => rfl
  | cons x xs ih =>
    have hx := h x (by simp)
    have hxs := ih fun y hy => h y (List.mem_cons_of_mem _ hy)
    rw [total_cons]
    omega

end Total

/-- The leases of a list of stops. -/
def leases (stops : List Stop) : Nat := total (fun x => x.phase.lease) stops

theorem leases_set {xs : List Stop} {i : Nat} {x : Stop} (h : xs[i]? = some x) (y : Stop) :
    leases (xs.set i y) + x.phase.lease = leases xs + y.phase.lease :=
  total_set (fun x => x.phase.lease) h y

/-! ## The invariant -/

/-- The worker was told to exit, or has exited. -/
def Worker.ending (w : Worker) : Bool := w.phase = .exited || w.queue.contains .shutDown

@[simp] theorem Worker.ending_wake (w : Worker) : w.wake.ending = w.ending := by
  unfold wake send?
  split
  · rfl
  · simp [ending]

theorem Worker.ending_schedule? {w w' : Worker} {period : Duration} {body : Nat → Worker.Report}
    (h : w.schedule? period body = some w') : w'.ending = w.ending := by
  unfold schedule? send? at h
  split at h <;> cases h
  simp [ending]

theorem Worker.schedule?_of_not_ending {w : Worker} (h : w.ending = false) (period : Duration)
    (body : Nat → Worker.Report) : ∃ v, w.schedule? period body = some v := by
  have hp : w.phase ≠ .exited := by
    intro hp
    simp [ending, hp] at h
  exact ⟨_, if_neg hp⟩

theorem Worker.ending_iff {w : Worker} :
    w.ending = true ↔ w.phase = .exited ∨ .shutDown ∈ w.queue := by simp [ending]

/-- A worker that runs no task exits only because it was told to. -/
theorem Worker.ending_step? {w v : Worker} {due : Bool} (hs : w.step? due = some v)
    (hrun : ∀ i, w.phase ≠ .running i) (hv : v.ending = true) : w.ending = true := by
  rw [ending_iff] at hv ⊢
  right
  unfold step? at hs
  split at hs
  · cases hs
  · cases hs
  · rename_i c queue hp hq
    cases hs
    rw [hq]
    cases c with
    | shutDown => simp
    | schedule i => simpa [obeyIdle] using hv
    | wake => simpa [obeyIdle, hp] using hv
  · rename_i i hp
    split at hs <;> cases hs
    · simpa [report, changeTask] using hv
    · simpa using hv
  · rename_i i c queue hp hq
    cases hs
    rw [hq]
    cases c with
    | shutDown => simp
    | schedule j => simpa [obeyBetween, report, changeTask] using hv
    | wake => simpa [obeyBetween] using hv
  · split at hs <;> cases hs
    simpa using hv
  · rename_i hp
    exact absurd hp (hrun _)

theorem Worker.ending_heed {w : Worker} {task : Nat} {r : Worker.Report}
    (hv : (w.heed task r).ending = true) : w.ending = true := by
  rw [ending_iff] at hv ⊢
  right
  unfold heed at hv
  split at hv
  · simpa using hv
  · simp only [report, changeTask, reduceCtorEq, false_or] at hv
    split at hv <;> exact hv

namespace Main

variable {σ : Type}

/-- The run goes on. -/
def inRun : Main σ → Bool
  | .outside | .leaving _ _ | .finished _ => false
  | _ => true

end Main

namespace Scene

variable {σ : Type} {base : RealTimeClock} {s t : Scene σ}

theorem filled_clock (s : Scene σ) (c : RealTimeClock) : (s.filled c).clock = c := by
  unfold filled
  split <;> rfl

theorem filled_stops (s : Scene σ) (c : RealTimeClock) : (s.filled c).stops = s.stops := by
  unfold filled
  split <;> rfl

/-- The stage of the clock, from what the thread that starts it is about to do. -/
def Stands (s : Scene σ) : Prop :=
  match s.main with
  | .outside => s.clock.pacing.stage.isInitial = true
  | .leaving i _ => ∃ x, s.stops[i]? = some x ∧ x.phase.begun = true
  | .finished _ => s.clock.pacing.scheduler = none
  | _ => s.clock.pacing.stage.isInitial = false

structure Owned (base : RealTimeClock) (s : Scene σ) : Prop where
  settings : s.clock.pacing.settings = base.pacing.settings
  stands : s.Stands
  rest : s.clock.pacing.stage.isInitial = true → RealTimeClock.Rested s.clock ∧ s.spawned = 0
  stops : ∀ x ∈ s.stops, x.Fits s.clock
  told : s.worker.ending = true → s.clock.Gone
  /-- No thread was started yet, or one was, and it is there or the clock is stopped. -/
  taken :
    (s.spawned = 0 ∧ s.clock.pacing.pins = base.pacing.pins ∧ s.clock.pacing.scheduler = none) ∨
    (s.spawned = 1 ∧ (s.clock.pacing.scheduler = none → s.clock.pacing.stage = .stopped))
  /-- The lease of the pin is in the clock or with one of the stops. -/
  pins : base.pacing.pins.Settled s.clock.pacing.pins (s.clock.isPinned.toNat + leases s.stops)

namespace Owned

theorem of_inRun (h : Owned base s) (hm : s.main.inRun = true) :
    s.clock.pacing.stage.isInitial = false := by
  have hs := h.stands
  unfold Stands at hs
  cases hmain : s.main <;> rw [hmain] at hm hs <;> first | exact hs | cases hm

/-- While the clock is not stopped, no stop has a pin to give back. -/
theorem no_leases (h : Owned base s) (hs : s.clock.pacing.stage ≠ .stopped) :
    leases s.stops = 0 := by
  apply total_eq_zero
  intro x hx
  cases hb : x.phase.begun with
  | true => exact absurd ((h.stops x hx).begun hb) hs
  | false => exact Halt.lease_of_not_begun hb

/-- While no thread was started, there is no pin to give back. -/
theorem unspawned (h : Owned base s) (h0 : s.spawned = 0) : leases s.stops = 0 := by
  have hp := h.pins
  rcases h.taken with ⟨-, hpins, -⟩ | ⟨h1, -⟩
  · rw [hpins] at hp
    have := hp.held_eq_zero
    omega
  · omega

theorem stands_of_inRun {s : Scene σ} (hm : s.main.inRun = true)
    (hs : s.clock.pacing.stage.isInitial = false) : s.Stands := by
  unfold Stands
  cases hmain : s.main <;> rw [hmain] at hm <;> first | exact hs | cases hm

/-! ### Steps that leave the thread where it is -/

/-- A light step keeps the custody, also one that calls a stop. -/
theorem light (h : Owned base s) (hc : RealTimeClock.Light s.clock t.clock)
    (hsp : t.spawned = s.spawned) (hw : t.worker.ending = true → s.worker.ending = true)
    (hst : t.stops = s.stops ∨ ∃ own, t.stops = (s.addStop own .entering).stops)
    (hm : t.main = s.main ∨ s.main.inRun = true ∧ t.main.inRun = true) : Owned base t where
  settings := hc.settings.trans h.settings
  stands := by
    rcases hm with hm | ⟨hm, hm'⟩
    · have hs := h.stands
      unfold Stands at hs ⊢
      rw [hm, hc.initial, hc.scheduler]
      cases hmain : s.main <;> rw [hmain] at hs <;> try exact hs
      obtain ⟨x, hx, hb⟩ := hs
      refine ⟨x, ?_, hb⟩
      rcases hst with hst | ⟨own, hst⟩ <;> rw [hst]
      · exact hx
      · exact (List.getElem?_append_left (List.getElem?_eq_some_iff.mp hx).1).trans hx
    · exact stands_of_inRun hm' (hc.initial.trans (h.of_inRun hm))
  rest hi := by
    obtain ⟨hr, hsp'⟩ := h.rest (hc.initial ▸ hi)
    exact ⟨hc.rested hr, hsp.trans hsp'⟩
  stops x hx := by
    have hold : ∀ x ∈ s.stops, x.Fits t.clock := fun x hx => (h.stops x hx).onward hc.onward
    rcases hst with hst | ⟨own, hst⟩ <;> rw [hst] at hx
    · exact hold x hx
    · rcases List.mem_append.mp hx with hx | hx
      · exact hold x hx
      · rw [List.mem_singleton.mp hx]
        exact ⟨by simp [Halt.begun], by simp [Halt.quiet], by simp [Halt.cleared],
          fun hi => ⟨hc.initial.trans hi, by simp⟩⟩
  told hw' := (h.told (hw hw')).onward hc.onward
  taken := by
    rw [hsp, hc.pins, hc.scheduler, hc.stopped]
    exact h.taken
  pins := by
    have hlease : leases t.stops = leases s.stops := by
      rcases hst with hst | ⟨own, hst⟩ <;> rw [hst]
      exact total_append _
    rw [hc.pins, hc.isPinned, hlease]
    exact h.pins

/-! ### Steps of a stop -/

/-- A stop that moves on keeps the custody if it gives back what it had. -/
theorem move (h : Owned base s) {i : Nat} {x y : Stop} (hx : s.stops[i]? = some x)
    (hst : t.stops = s.stops.set i y) (hm : t.main = s.main) (hsp : t.spawned = s.spawned)
    (hon : RealTimeClock.Onward s.clock t.clock)
    (hinit : s.clock.pacing.stage.isInitial = true → t.clock = s.clock)
    (hset : t.clock.pacing.settings = s.clock.pacing.settings) (hy : y.Fits t.clock)
    (hb : x.phase.begun = true → y.phase.begun = true)
    (hw : t.worker.ending = true → s.worker.ending = true ∨ t.clock.Gone)
    (hsch : t.clock.pacing.scheduler = s.clock.pacing.scheduler ∨
      t.clock.pacing.scheduler = none ∧ t.clock.pacing.stage = .stopped)
    (hcores : t.clock.pacing.pins.cores = s.clock.pacing.pins.cores)
    (href : t.clock.pacing.pins.refused = s.clock.pacing.pins.refused)
    (hrel : t.clock.pacing.pins.releases + t.clock.isPinned.toNat + y.phase.lease =
      s.clock.pacing.pins.releases + s.clock.isPinned.toNat + x.phase.lease)
    (hfresh : s.spawned = 0 → t.clock.pacing.pins = s.clock.pacing.pins) : Owned base t where
  settings := hset.trans h.settings
  stands := by
    have hs := h.stands
    unfold Stands at hs ⊢
    rw [hm]
    cases hmain : s.main <;> rw [hmain] at hs <;> try exact hon.begun hs
    · dsimp only at hs ⊢
      rw [hinit hs]
      exact hs
    · rename_i j _
      obtain ⟨z, hz, hzb⟩ := hs
      rw [hst]
      by_cases hij : i = j
      · subst hij
        rw [hx] at hz
        cases hz
        exact ⟨y, List.getElem?_set_self (List.getElem?_eq_some_iff.mp hx).1, hb hzb⟩
      · exact ⟨z, (List.getElem?_set_ne hij).trans hz, hzb⟩
    · rcases hsch with hsch | ⟨hsch, -⟩
      · exact hsch.trans hs
      · exact hsch
  rest hi := by
    cases hs : s.clock.pacing.stage.isInitial with
    | true =>
      obtain ⟨hr, hsp'⟩ := h.rest hs
      rw [hinit hs]
      exact ⟨hr, hsp.trans hsp'⟩
    | false =>
      rw [hon.begun hs] at hi
      cases hi
  stops z hz := by
    rw [hst] at hz
    rcases List.mem_or_eq_of_mem_set hz with hz | rfl
    · exact (h.stops z hz).onward hon
    · exact hy
  told hw' := by
    rcases hw hw' with hw' | hg
    · exact (h.told hw').onward hon
    · exact hg
  taken := by
    rcases h.taken with ⟨h0, hp, hn⟩ | ⟨h1, hn⟩
    · refine .inl ⟨hsp.trans h0, (hfresh h0).trans hp, ?_⟩
      rcases hsch with hsch | ⟨hsch, -⟩
      · exact hsch.trans hn
      · exact hsch
    · refine .inr ⟨hsp.trans h1, ?_⟩
      intro hnone
      rcases hsch with hsch | ⟨-, hs⟩
      · exact hon.stopped (hn (hsch ▸ hnone))
      · exact hs
  pins := by
    have hset := leases_set hx y
    rw [hst]
    exact h.pins.move hcores href (by omega)

/-- A stop that moves on and leaves the clock as it was. -/
theorem shift (h : Owned base s) {i : Nat} {x y : Stop} (hx : s.stops[i]? = some x)
    (hst : t.stops = s.stops.set i y) (hm : t.main = s.main) (hsp : t.spawned = s.spawned)
    (hc : t.clock = s.clock) (hy : y.Fits s.clock)
    (hb : x.phase.begun = true → y.phase.begun = true) (hl : y.phase.lease = x.phase.lease)
    (hw : t.worker.ending = true → s.worker.ending = true ∨ s.clock.Gone) : Owned base t :=
  h.move hx hst hm hsp (hc ▸ .refl _) (fun _ => hc) (hc ▸ rfl) (hc ▸ hy) hb (hc ▸ hw)
    (.inl (hc ▸ rfl)) (hc ▸ rfl) (hc ▸ rfl) (by rw [hc, hl]) fun _ => hc ▸ rfl

variable {i : Nat} {own : Bool} {since : Stage} {sch : Scheduler} {again : Bool}

/-- A stop moves the clock to its last stage, or it is refused because nothing has begun. -/
theorem entering (h : Owned base s) (hx : s.stops[i]? = some ⟨own, since, .entering⟩)
    (hs : s.stopStep i ⟨own, since, .entering⟩ = some t) : Owned base t := by
  have hfit := h.stops _ (List.mem_of_getElem? hx)
  simp only [Scene.stopStep, RealTimeClock.retire] at hs
  cases hi : s.clock.pacing.stage.isInitial with
  | true =>
    have hon : ∃ e, s.clock.pacing.stage.on .stop = .error e := by
      cases hst : s.clock.pacing.stage <;> rw [hst] at hi <;> first | exact ⟨_, rfl⟩ | cases hi
    obtain ⟨e, hon⟩ := hon
    rw [hon] at hs
    cases hs
    refine h.shift hx rfl rfl rfl rfl ?_ (by simp [Halt.begun]) rfl .inl
    exact ⟨by simp [Halt.begun], by simp [Halt.quiet], by simp [Halt.cleared],
      fun hsi => by rw [(hfit.heeded hsi).1] at hi; cases hi⟩
  | false =>
    have hon : s.clock.pacing.stage.on .stop = .ok .stopped := by
      cases hst : s.clock.pacing.stage <;> rw [hst] at hi <;> first | rfl | cases hi
    rw [hon] at hs
    cases hs
    refine h.move hx rfl rfl rfl ⟨fun _ => rfl, fun _ => rfl, fun _ => id, fun _ => id⟩
      (fun hi' => by rw [hi] at hi'; cases hi') rfl ?_ (by simp [Halt.begun]) .inl (.inl rfl)
      rfl rfl rfl fun _ => rfl
    exact ⟨fun _ => rfl, by simp [Halt.quiet], by simp [Halt.cleared], fun _ => ⟨rfl, by simp⟩⟩

/-- A stop takes the flag down that keeps the clock ticking. -/
theorem quieting (h : Owned base s) (hx : s.stops[i]? = some ⟨own, since, .quieting⟩)
    (hs : s.stopStep i ⟨own, since, .quieting⟩ = some t) : Owned base t := by
  have hfit := h.stops _ (List.mem_of_getElem? hx)
  have hstopped := hfit.begun rfl
  cases hs
  refine h.move hx rfl rfl rfl ⟨id, id, fun _ _ => rfl, fun _ => id⟩
    (fun hi => by rw [hstopped] at hi; cases hi) rfl ?_ (by simp [Halt.begun]) .inl (.inl rfl)
    rfl rfl rfl fun _ => rfl
  exact ⟨fun _ => hstopped, fun _ => rfl, by simp [Halt.cleared],
    fun hi => ⟨(hfit.heeded hi).1, by simp⟩⟩

/-- A stop takes the scheduler thread out of the clock, and its pin with it. -/
theorem takingScheduler (h : Owned base s)
    (hx : s.stops[i]? = some ⟨own, since, .takingScheduler⟩)
    (hs : s.stopStep i ⟨own, since, .takingScheduler⟩ = some t) : Owned base t := by
  have hfit := h.stops _ (List.mem_of_getElem? hx)
  have hstopped := hfit.begun rfl
  have hquiet := hfit.quiet rfl
  simp only [Scene.stopStep] at hs
  cases hsch : s.clock.pacing.scheduler with
  | none =>
    rw [hsch] at hs
    cases hs
    exact h.shift hx rfl rfl rfl rfl (.of_gone ⟨hstopped, hquiet, hsch⟩ (by simp))
      (by simp [Halt.begun]) rfl .inl
  | some sch =>
    rw [hsch] at hs
    cases hs
    refine h.move hx rfl rfl rfl ⟨id, id, fun _ => id, fun _ _ => rfl⟩
      (fun hi => by rw [hstopped] at hi; cases hi) rfl (.of_gone ⟨hstopped, hquiet, rfl⟩ (by simp))
      (by simp [Halt.begun]) .inl (.inr ⟨rfl, hstopped⟩) rfl rfl ?_ fun _ => rfl
    simp [setStop, RealTimeClock.isPinned, hsch, Halt.lease]

/-- A stop gives back the pin that it took. It had one only if a thread was started. -/
theorem unpinning (h : Owned base s)
    (hx : s.stops[i]? = some ⟨own, since, .unpinning sch again⟩)
    (hs : s.stopStep i ⟨own, since, .unpinning sch again⟩ = some t) : Owned base t := by
  have hfit := h.stops _ (List.mem_of_getElem? hx)
  have hgone : s.clock.Gone := ⟨hfit.begun rfl, hfit.quiet rfl, hfit.cleared rfl⟩
  have hfresh : s.spawned = 0 → sch.pinned = false := by
    intro h0
    have hzero := h.unspawned h0
    have hset := leases_set hx ⟨own, since, .done⟩
    simp only [Halt.lease] at hset
    cases hp : sch.pinned with
    | false => rfl
    | true =>
      rw [hp] at hset
      simp only [Bool.toNat_true] at hset
      omega
  cases hs
  refine h.move hx rfl rfl rfl ?_ (fun hi => by rw [hgone.stopped] at hi; cases hi) ?_ ?_ ?_ .inl
    ?_ ?_ ?_ ?_ fun h0 => ?_
  all_goals simp only [setStop, RealTimeClock.unpin]
  · split <;> exact ⟨id, id, fun _ => id, fun _ => id⟩
  · split <;> rfl
  · refine .of_gone ?_ ?_
    · split
      · exact ⟨hgone.stopped, hgone.quiet, hgone.cleared⟩
      · exact hgone
    · dsimp only
      split <;> simp
  · split <;> simp [Halt.begun]
  · exact .inl (by split <;> rfl)
  · split <;> rfl
  · split <;> rfl
  · cases hp : sch.pinned <;> cases again <;>
      simp [hp, Halt.lease, Pins.release, RealTimeClock.isPinned, hgone.cleared]
  · rw [hfresh h0]
    rfl

theorem stopStep (h : Owned base s) {x : Stop} (hx : s.stops[i]? = some x)
    (hs : s.stopStep i x = some t) : Owned base t := by
  have hfit := h.stops x (List.mem_of_getElem? hx)
  obtain ⟨own, since, phase⟩ := x
  cases phase with
  | entering => exact h.entering hx hs
  | quieting => exact h.quieting hx hs
  | takingTask =>
    simp only [Scene.stopStep] at hs
    split at hs <;> cases hs <;>
      exact h.shift hx rfl rfl rfl rfl (hfit.goOn id id nofun nofun) id rfl .inl
  | raising t =>
    cases hs
    refine h.shift hx rfl rfl rfl rfl (hfit.goOn (fun _ => rfl) (fun _ => rfl) ?_ ?_) (fun _ => ?_)
      ?_ .inl
    all_goals split <;> first | rfl | nofun
  | waking =>
    cases hs
    exact h.shift hx rfl rfl rfl rfl (hfit.goOn id id nofun nofun) id rfl
      fun hw => .inl (by simpa [setStop] using hw)
  | takingScheduler => exact h.takingScheduler hx hs
  | telling sch again =>
    cases hs
    have hgone : s.clock.Gone := ⟨hfit.begun rfl, hfit.quiet rfl, hfit.cleared rfl⟩
    exact h.shift hx rfl rfl rfl rfl (hfit.goOn id id id nofun) id rfl fun _ => .inr hgone
  | unpinning sch again => exact h.unpinning hx hs
  | joining sch =>
    simp only [Scene.stopStep] at hs
    split at hs <;> cases hs
    exact h.shift hx rfl rfl rfl rfl (hfit.goOn id id id nofun) id rfl .inl
  | done => cases hs
  | refused e => cases hs

/-! ### Steps of the thread that starts the clock -/

variable {d : RealTimeClock}

theorem ending_filled (h : Owned base s) (hs : s.clock.pacing.stage ≠ .stopped) :
    (s.filled d).worker.ending = false := by
  have hold : s.worker.ending = false := by
    cases hw : s.worker.ending with
    | false => rfl
    | true => exact absurd (h.told hw).stopped hs
  unfold filled
  split
  · rfl
  · exact hold

/-- A section that may start a scheduler thread finds the clock unstopped. If there is no thread
then, there never was one. -/
theorem fill (h : Owned base s) (hs : s.clock.pacing.stage ≠ .stopped)
    (hd : d.pacing.stage.isInitial = false)
    (hset : d.pacing.settings = s.clock.pacing.settings)
    (hold : ∀ x, s.clock.pacing.scheduler = some x →
      d.pacing.scheduler = some x ∧ d.pacing.pins = s.clock.pacing.pins)
    (hnew : s.clock.pacing.scheduler = none →
      s.clock.pacing.pins.Settled d.pacing.pins d.isPinned.toNat ∧
      (d.pacing.scheduler = none → d.pacing.pins = s.clock.pacing.pins))
    (hc : t.clock = d) (hst : t.stops = s.stops) (hsp : t.spawned = (s.filled d).spawned)
    (hm : t.main.inRun = true) (hw : t.worker.ending = false) : Owned base t := by
  have hon : RealTimeClock.Onward s.clock d :=
    ⟨fun _ => hd, fun h => absurd h hs, fun h => absurd h hs, fun h => absurd h hs⟩
  have hzero := h.no_leases hs
  exact
    { settings := by rw [hc, hset, h.settings]
      stands := stands_of_inRun hm (hc ▸ hd)
      rest := by
        intro hi
        rw [hc, hd] at hi
        cases hi
      stops := by
        intro x hx
        rw [hst] at hx
        rw [hc]
        exact (h.stops x hx).onward hon
      told := by
        intro hw'
        rw [hw] at hw'
        cases hw'
      taken := by
        rw [hc, hsp]
        unfold filled
        rcases h.taken with ⟨h0, hp, hn⟩ | ⟨h1, hn⟩
        · cases hsch : d.pacing.scheduler with
          | none =>
            left
            simp only [Option.isSome_none, Bool.false_eq_true, and_false, if_false]
            exact ⟨h0, ((hnew hn).2 hsch).trans hp, trivial⟩
          | some x =>
            right
            simp [hn, h0]
        · cases hsch : s.clock.pacing.scheduler with
          | none => exact absurd (hn hsch) hs
          | some x =>
            right
            simp [h1, (hold x hsch).1]
      pins := by
        rw [hc, hst, hzero]
        cases hsch : s.clock.pacing.scheduler with
        | none =>
          rcases h.taken with ⟨-, hp, -⟩ | ⟨-, hn⟩
          · rw [← hp]
            exact (hnew hsch).1
          · exact absurd (hn hsch) hs
        | some x =>
          obtain ⟨hx, hp⟩ := hold x hsch
          have hpinned : d.isPinned = s.clock.isPinned := by
            unfold RealTimeClock.isPinned
            rw [hx, hsch]
          have hpins := h.pins
          rw [hzero] at hpins
          rw [hp, hpinned]
          exact hpins }

theorem launch (h : Owned base s) (hm : s.main = .outside) (hl : s.clock.launch = .ok d) :
    Owned base { s.filled d with main := .looking } := by
  have hs := h.stands
  unfold Stands at hs
  rw [hm] at hs
  obtain ⟨hrest, -⟩ := h.rest hs
  have hstopped : s.clock.pacing.stage ≠ .stopped := by
    intro he
    rw [he] at hs
    cases hs
  rcases hrest.launch with ⟨d', hl', hready, -, -, -, hbegun⟩ | ⟨f, hl', -⟩
  · rw [hl] at hl'
    cases hl'
    have hrun : d.pacing.stage.isRunning = true := by
      rw [hbegun]
      cases hst : s.clock.pacing.stage <;> rw [hst] at hs <;> first | rfl | cases hs
    refine h.fill hstopped hready.steady.begun hready.steady.settings ?_
      (fun _ => ⟨hready.steady.pins, hready.steady.fresh hrun⟩) (filled_clock s d)
      (filled_stops s d) rfl rfl (h.ending_filled hstopped)
    intro x hx
    rw [hrest.scheduler] at hx
    cases hx
  · rw [hl] at hl'
    cases hl'

/-- The section that begins a real-time leg. -/
theorem ensure (h : Owned base s) (hs : s.clock.pacing.stage = .realTimeRunning)
    (he : s.clock.schedule = .ok d) (hc : t.clock = d) (hst : t.stops = s.stops)
    (hsp : t.spawned = (s.filled d).spawned) (hm : t.main.inRun = true)
    (hw : t.worker.ending = false) : Owned base t := by
  have hstopped : s.clock.pacing.stage ≠ .stopped := by rw [hs]; nofun
  obtain ⟨e, hen, hd⟩ := RealTimeClock.schedule_ok he
  rcases RealTimeClock.ensureScheduler_ok hen with ⟨x, hx, hse⟩ | ⟨hn, x, pins, hse, hpins⟩ <;>
    rw [hse] at hd
  · refine h.fill hstopped (by rw [hd, hs]; rfl) (by rw [hd])
      (fun y hy => by rw [hd]; exact ⟨hy, rfl⟩)
      ?_ hc hst hsp hm hw
    intro hn
    rw [hn] at hx
    cases hx
  · refine h.fill hstopped (by rw [hd, hs]; rfl) (by rw [hd]) ?_
      (fun _ => ⟨by rw [hd]; exact hpins, fun he => by rw [hd] at he; cases he⟩) hc hst hsp hm hw
    intro y hy
    rw [hn] at hy
    cases hy

theorem scheduleStep (h : Owned base s) (hm : s.main = .scheduling) :
    Owned base s.scheduleStep := by
  have hrun : s.main.inRun = true := by rw [hm]; rfl
  unfold Scene.scheduleStep
  by_cases hs : s.clock.pacing.stage = .realTimeRunning
  · rw [if_pos hs]
    have hstopped : s.clock.pacing.stage ≠ .stopped := by rw [hs]; nofun
    cases he : s.clock.schedule with
    | ok d =>
      have hend := h.ending_filled (d := d) hstopped
      dsimp only
      split
      · exact h.ensure hs he (filled_clock s d) (filled_stops s d) rfl rfl hend
      · rename_i worker hw
        refine h.ensure hs he (filled_clock s d) (filled_stops s d) rfl rfl ?_
        rwa [Worker.ending_schedule? hw]
    | error f =>
      refine ⟨h.settings, ?_, h.rest, h.stops, h.told, h.taken, h.pins⟩
      exact RealTimeClock.schedule_error he
  · rw [if_neg hs]
    exact h.light (.refl _) rfl id (.inl rfl) (.inr ⟨hrun, rfl⟩)

theorem closing (h : Owned base s) {e : Option ClockError} (hm : s.main = .closing e) :
    Owned base { { s with clock := s.clock.close }.addStop false .quieting with
      main := .leaving s.stops.length e } := by
  have hbegun := h.of_inRun (by rw [hm]; rfl)
  have hclose := RealTimeClock.close_eq hbegun
  have hon : RealTimeClock.Onward s.clock s.clock.close := by
    rw [hclose]
    exact ⟨fun _ => rfl, fun _ => rfl, fun _ => id, fun _ => id⟩
  exact
    { settings := by
        rw [← h.settings, hclose]
        rfl
      stands := ⟨_, List.getElem?_concat_length, rfl⟩
      rest := by
        intro hi
        rw [hclose] at hi
        cases hi
      stops := by
        intro x hx
        rcases List.mem_append.mp hx with hx | hx
        · exact (h.stops x hx).onward hon
        · rw [List.mem_singleton.mp hx, hclose]
          exact ⟨fun _ => rfl, by simp [Halt.quiet], by simp [Halt.cleared],
            fun _ => ⟨rfl, by simp⟩⟩
      told := by
        intro hw
        exact (h.told hw).onward hon
      taken := by
        rcases h.taken with ⟨h0, hp, hn⟩ | ⟨h1, -⟩
        · exact .inl ⟨h0, by rw [← hp, hclose]; rfl, by rw [← hn, hclose]; rfl⟩
        · exact .inr ⟨h1, fun _ => by rw [hclose]; rfl⟩
      pins := by
        have hsame : leases (s.stops ++ [⟨false, s.clock.close.pacing.stage, .quieting⟩]) =
            leases s.stops := total_append _
        have hpins := h.pins
        rw [← hsame] at hpins
        rw [hclose] at hpins ⊢
        exact hpins }

theorem leaving (h : Owned base s) {i : Nat}
    (hdone : (s.stops[i]?).map (·.phase) = some .done) (ending : RealTimeClock.Ending) :
    Owned base { s with clock := s.clock.publish .stopped, main := .finished ending } := by
  obtain ⟨x, hx, hp⟩ := Option.map_eq_some_iff.mp hdone
  have hfit := h.stops x (List.mem_of_getElem? hx)
  have hn := hfit.cleared (by rw [hp]; rfl)
  have hs := hfit.begun (by rw [hp]; rfl)
  have hon : RealTimeClock.Onward s.clock (s.clock.publish .stopped) :=
    ⟨id, id, fun _ => id, fun _ => id⟩
  refine ⟨h.settings, hn, ?_, fun y hy => (h.stops y hy).onward hon,
    fun hw => (h.told hw).onward hon, h.taken, h.pins⟩
  intro hi
  have hi' : s.clock.pacing.stage.isInitial = true := hi
  rw [hs] at hi'
  cases hi'

end Owned

end Scene

end Metronome
