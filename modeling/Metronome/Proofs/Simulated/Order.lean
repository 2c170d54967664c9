-- The order that a simulated clock keeps at every moment. At most one tick
-- holds the budget, so no callback begins inside another, and the time, the
-- flag and the notices are what the completed ticks and the starts make them.
import Metronome.Proofs.Simulated.Calls
import Metronome.Proofs.Simulated.Machine

namespace Metronome

namespace SimulatedClock

variable {σ : Type}

/-! ## Who may wait for whom -/

/-- The starts that wait, latest first. -/
def running (stack : List (Frame σ)) : List Nat := stack.filterMap Frame.start?

/-- Where a call may come from, and whether the budget is lent out then: from outside, or from a
callback of the one tick that holds the budget. -/
inductive Ground : List (Frame σ) → Bool → Prop
  | outside : Ground [] false
  | callback {r : Round} {next : Answer → Program σ} {f : Frame σ} :
      f.ticks = true → (∀ a, (next a).Asks fun call => call ≠ .letGo 0) →
      Ground [.callback r next, f] true

theorem Ground.callbacks_le {stack : List (Frame σ)} {lock : Bool} (h : Ground stack lock) :
    stack.countP (fun f => !f.ticks) ≤ 1 := by
  cases h with
  | outside => simp
  | callback hf _ =>
    rw [List.countP_cons, List.countP_singleton, hf]
    simp [Frame.ticks]

theorem not_alone {stack : List (Frame σ)} {f : Frame σ} (hf : f.ticks = true) (hmem : f ∈ stack) :
    ¬ ∀ f ∈ stack, f.ticks = false := by
  intro halone
  rw [halone f hmem] at hf
  cases hf

/-- A callback belongs to a tick that waits for it. -/
theorem Ground.eq_nil {stack : List (Frame σ)} {lock : Bool} (h : Ground stack lock)
    (halone : ∀ f ∈ stack, f.ticks = false) : stack = [] := by
  cases h with
  | outside => rfl
  | callback hf _ => exact absurd halone (not_alone hf (by simp))

/-- What may go on above which stack, and whether the budget is lent out then. -/
def Placed (stack : List (Frame σ)) (lock : Bool) : Doing σ → Prop
  | .idle => stack = [] ∧ lock = false
  | .asking call => Ground stack lock ∧ call ≠ .letGo 0
  | .answering _ => Ground stack lock
  | .looping => ∃ k below, stack = .run k :: below ∧ Ground below lock
  | .knocking | .ticked _ => ∃ f below, stack = f :: below ∧ f.ticks = true ∧ Ground below lock
  | .visiting _ => ∃ f, stack = [f] ∧ f.ticks = true ∧ lock = true
  | .inside _ p =>
    (∃ f, stack = [f] ∧ f.ticks = true ∧ lock = true) ∧ p.Asks fun call => call ≠ .letGo 0

namespace Placed

variable {stack : List (Frame σ)} {lock : Bool} {doing : Doing σ}

theorem callbacks_le (h : Placed stack lock doing) :
    stack.countP (fun f => !f.ticks) + doing.callbacks ≤ 1 := by
  cases doing with
  | idle => simp [h.1, Doing.callbacks]
  | asking call => exact h.1.callbacks_le
  | answering a => exact Ground.callbacks_le h
  | looping =>
    obtain ⟨k, below, rfl, hg⟩ := h
    simpa [Frame.ticks, Doing.callbacks] using hg.callbacks_le
  | knocking | ticked _ =>
    obtain ⟨f, below, rfl, hf, hg⟩ := h
    simpa [hf, Doing.callbacks] using hg.callbacks_le
  | visiting r =>
    obtain ⟨f, rfl, hf, _⟩ := h
    simp [hf, Doing.callbacks]
  | inside r p =>
    obtain ⟨⟨f, rfl, hf, _⟩, _⟩ := h
    simp [hf, Doing.callbacks]

/-- Whatever goes on, a start or a tick waits for it, or someone outside has just called. -/
theorem eq_nil (h : Placed stack lock doing) (halone : ∀ f ∈ stack, f.ticks = false) :
    stack = [] := by
  cases doing with
  | idle => exact h.1
  | asking call => exact h.1.eq_nil halone
  | answering a => exact Ground.eq_nil h halone
  | looping =>
    obtain ⟨k, below, rfl, _⟩ := h
    exact absurd halone (not_alone (f := .run k) rfl (by simp))
  | knocking | ticked _ =>
    obtain ⟨f, below, rfl, hf, _⟩ := h
    exact absurd halone (not_alone hf (by simp))
  | visiting r =>
    obtain ⟨f, rfl, hf, _⟩ := h
    exact absurd halone (not_alone hf (by simp))
  | inside r p =>
    obtain ⟨⟨f, rfl, hf, _⟩, _⟩ := h
    exact absurd halone (not_alone hf (by simp))

end Placed

/-! ## Times -/

/-- The time is that of the completed ticks, and a tick that holds the budget has room for its
end. -/
structure Timely (L : Int) (c : SimulatedClock) (ticks : Nat) : Prop where
  tickLength : c.tickLength = L
  time : c.time = L * ticks
  inRange : c.time ≤ Signed.greatest
  room : c.dispatching = true → c.time + L ≤ Signed.greatest

namespace Timely

variable {L : Int} {c d : SimulatedClock} {ticks : Nat}

theorem time_nonneg (h : Timely L c ticks) (hL : 0 < L) : 0 ≤ c.time := by
  rw [h.time]
  exact Int.mul_nonneg (Int.le_of_lt hL) (Int.natCast_nonneg _)

theorem spares (h : Timely L c ticks) (hs : Spares c d) : Timely L d ticks where
  tickLength := hs.tickLength.trans h.tickLength
  time := hs.time.trans h.time
  inRange := hs.time ▸ h.inRange
  room hd := hs.time ▸ h.room (hs.dispatching ▸ hd)

/-- A tick that ends well. -/
theorem advance (h : Timely L c ticks) (hd : c.dispatching = true) :
    Timely L c.advance.1 (ticks + 1) := by
  have hmoved := c.advance_moved
  have htime : c.advance.1.time = c.time + L := by rw [hmoved.time, h.tickLength]
  refine ⟨hmoved.tickLength.trans h.tickLength, ?_, ?_, fun hd' => ?_⟩
  · rw [htime, h.time, Int.natCast_add, Int.natCast_one, Int.mul_add, Int.mul_one]
  · rw [htime]
    exact h.room hd
  · rw [hmoved.dispatching] at hd'
    cases hd'

/-- A tick that finds the budget free, and no room for its end. -/
theorem lend_of_full (h : Timely L c ticks) (hL : 0 < L) (hfull : Signed.greatest < c.time + L) :
    c.lend = .error (.listenerPanicked Fault.sumTooLarge.message) := by
  have hfree : c.dispatching = false := by
    rw [Bool.eq_false_iff]
    intro hd
    have hroom := h.room hd
    omega
  have hlength : 0 < c.tickLength := by rw [h.tickLength]; exact hL
  have hfits : ¬ Signed.Fits (c.time + c.tickLength) := by
    rw [h.tickLength]
    unfold Signed.Fits
    omega
  rw [Clock.lend_eq hfree hlength (h.time_nonneg hL), if_neg hfits]

/-- Who lends out the budget has found it free, and room for the end of the tick. -/
theorem lend (h : Timely L c ticks) (hL : 0 < L) (hlend : c.lend = .ok d) :
    c.dispatching = false ∧ Timely L d ticks := by
  have hfree : c.dispatching = false := by
    rw [Bool.eq_false_iff]
    intro hd
    simp [Clock.lend, hd] at hlend
  have hroom : c.time + L ≤ Signed.greatest := by
    by_cases hfull : Signed.greatest < c.time + L
    · rw [h.lend_of_full hL hfull] at hlend
      cases hlend
    · omega
  obtain ⟨budget, rfl⟩ := Clock.lend_ok hlend
  exact ⟨hfree, h.tickLength, h.time, h.inRange, fun _ => hroom⟩

end Timely

/-! ## Order -/

namespace Machine

/-- All is in order. -/
structure InOrder (L : Int) (s : Machine σ) : Prop where
  timely : Timely L s.clock s.ticks
  placed : Placed s.stack s.clock.dispatching s.doing
  /-- Whoever ticks has called. -/
  off : s.stack = [] → s.clock.ticking = false
  interrupted : s.doing = .ticked (.ok .interrupted) → s.clock.ticking = false
  bracketed : Bracketed s.signs (running s.stack) s.refused s.starts
  heard : s.clock.feed.Sent 0 s.taken (s.signs.map (·.notice))

variable {L : Int} {behave : Behaviour σ} {s t : Machine σ}

theorem inOrder_opening (L : Int) (unit : TimeUnit) (world : σ) :
    InOrder L (opening L unit world) where
  timely := {
    tickLength := rfl
    time := by simp [opening, make]
    inRange := by simp [opening, make, Signed.greatest]
    room := fun h => by cases h }
  placed := ⟨rfl, rfl⟩
  off _ := rfl
  interrupted h := by cases h
  bracketed := .nil
  heard := Feed.sent_subscribe ⟨[]⟩

namespace InOrder

/-! ## Steps without news -/

/-- A step that publishes nothing, completes no tick and calls no start. -/
theorem quiet (h : InOrder L s) {c : SimulatedClock} {world : σ} {stack : List (Frame σ)}
    {doing : Doing σ} (htimely : Timely L c s.ticks) (hfeed : c.feed = s.clock.feed)
    (hplaced : Placed stack c.dispatching doing) (hrunning : running stack = running s.stack)
    (hoff : stack = [] → c.ticking = false)
    (hinterrupted : doing = .ticked (.ok .interrupted) → c.ticking = false) :
    InOrder L { s with clock := c, world, stack, doing } where
  timely := htimely
  placed := hplaced
  off := hoff
  interrupted := hinterrupted
  bracketed := hrunning ▸ h.bracketed
  heard := hfeed ▸ h.heard

/-- A step that leaves the clock alone. -/
theorem pass (h : InOrder L s) {world : σ} {stack : List (Frame σ)} {doing : Doing σ}
    (hplaced : Placed stack s.clock.dispatching doing) (hrunning : running stack = running s.stack)
    (hoff : stack = [] → s.clock.ticking = false)
    (hinterrupted : doing ≠ .ticked (.ok .interrupted)) :
    InOrder L { s with world, stack, doing } :=
  h.quiet h.timely rfl hplaced hrunning hoff fun hi => absurd hi hinterrupted

/-! ## Calls -/

theorem refuse (h : InOrder L s) (hg : Ground s.stack s.clock.dispatching) {a : Answer} :
    InOrder L { s with
      starts := s.starts + 1
      refused := s.refused ++ [s.starts]
      doing := .answering a } where
  timely := h.timely
  placed := hg
  off := h.off
  interrupted h' := by cases h'
  bracketed := h.bracketed.refuse
  heard := h.heard

/-- A start that does not find the clock ticking opens a bracket. -/
theorem launch (h : InOrder L s) (hg : Ground s.stack s.clock.dispatching) :
    InOrder L (({ s with
      starts := s.starts + 1
      clock := s.clock.beginTicking
      stack := .run s.starts :: s.stack
      doing := .looping } : Machine σ).publish s.starts .started) where
  timely := h.timely.spares ((spares_beginTicking s.clock).trans ⟨rfl, rfl, rfl⟩)
  placed := ⟨s.starts, s.stack, rfl, (spares_beginTicking s.clock).dispatching ▸ hg⟩
  off h' := by cases h'
  interrupted h' := by cases h'
  bracketed := h.bracketed.start _
  heard := by
    simp only [Machine.publish, Clock.publish, beginTicking_feed, List.map_append, List.map_cons,
      List.map_nil]
    exact h.heard.publish _

theorem askStart (h : InOrder L s) (hg : Ground s.stack s.clock.dispatching) :
    InOrder L s.askStart := by
  unfold Machine.askStart
  dsimp only
  by_cases ht : s.clock.ticking = true
  · rw [if_pos ht]
    exact h.refuse hg
  · rw [if_neg ht]
    exact h.launch hg

theorem askTick (h : InOrder L s) (hg : Ground s.stack s.clock.dispatching) :
    InOrder L s.askTick := by
  unfold Machine.askTick
  by_cases ht : s.clock.ticking = true
  · rw [if_pos ht]
    exact h.pass hg rfl h.off (by simp)
  · rw [if_neg ht]
    have hspares := spares_beginTicking s.clock
    refine h.quiet (h.timely.spares hspares) (beginTicking_feed _) ?_ rfl
      (fun h' => by cases h') (fun h' => by cases h')
    rw [hspares.dispatching]
    exact ⟨.single, s.stack, rfl, rfl, hg⟩

theorem askPlain (h : InOrder L s) {call : Call} (hg : Ground s.stack s.clock.dispatching)
    (hs : call ≠ .start) (ht : call ≠ .tick) (hl : call ≠ .letGo 0) :
    InOrder L (s.askPlain call) := by
  obtain ⟨hspares, hticking, hsent⟩ := serve_plain s.clock hs ht
  exact {
    timely := h.timely.spares hspares
    placed := hspares.dispatching ▸ hg
    off := fun hstack => by
      rw [Bool.eq_false_iff]
      intro hon
      have hoff := h.off hstack
      rw [hticking hon] at hoff
      cases hoff
    interrupted := fun h' => by cases h'
    bracketed := h.bracketed
    heard := hsent 0 s.taken _ hl h.heard }

theorem ask (h : InOrder L s) {call : Call} (hg : Ground s.stack s.clock.dispatching)
    (hl : call ≠ .letGo 0) : InOrder L (s.ask call) := by
  by_cases hs : call = .start
  · subst hs
    exact h.askStart hg
  by_cases ht : call = .tick
  · subst ht
    exact h.askTick hg
  have he : s.ask call = s.askPlain call := by
    cases call with
    | start => exact absurd rfl hs
    | tick => exact absurd rfl ht
    | _ => rfl
  rw [he]
  exact h.askPlain hg hs ht hl

theorem reply (h : InOrder L s) {a : Answer} (hg : Ground s.stack s.clock.dispatching)
    (hs : s.reply a = some t) : InOrder L t := by
  unfold Machine.reply at hs
  generalize hstack : s.stack = stack at hs hg
  generalize hlock : s.clock.dispatching = lock at hg
  cases hg with
  | outside =>
    cases hs
    exact {
      timely := h.timely
      placed := ⟨rfl, hlock⟩
      off := fun _ => h.off hstack
      interrupted := fun h' => by cases h'
      bracketed := hstack ▸ h.bracketed
      heard := h.heard }
  | @callback r next f hf hnext =>
    cases hs
    refine h.pass ⟨⟨f, rfl, hf, hlock⟩, hnext a⟩ ?_ (by simp) (by simp)
    rw [hstack]
    simp only [running, List.filterMap_cons, Frame.start?]

/-! ## Runs -/

/-- The end of a run closes its bracket. -/
theorem conclude (h : InOrder L s) {k : Nat} {below : List (Frame σ)}
    {result : Except ClockError Unit} (hstack : s.stack = .run k :: below)
    (hg : Ground below s.clock.dispatching) (ht : s.clock.ticking = false) :
    InOrder L (s.conclude k below result) where
  timely := h.timely.spares ⟨rfl, rfl, rfl⟩
  placed := hg
  off _ := ht
  interrupted h' := by cases h'
  bracketed := by
    have hrunning : running s.stack = k :: running below := by
      rw [hstack]
      simp only [running, List.filterMap_cons, Frame.start?]
    have hbracketed := h.bracketed
    rw [hrunning] at hbracketed
    exact hbracketed.stop _
  heard := by
    simp only [Machine.conclude, Machine.publish, Machine.answer, List.map_append, List.map_cons,
      List.map_nil]
    exact h.heard.publish _

theorem loop (h : InOrder L s) {k : Nat} {below : List (Frame σ)}
    (hstack : s.stack = .run k :: below) (hg : Ground below s.clock.dispatching)
    (hs : s.loop = some t) : InOrder L t := by
  unfold Machine.loop at hs
  rw [hstack] at hs
  by_cases ht : s.clock.ticking = true
  · simp only [ht, if_true, Option.some.injEq] at hs
    subst hs
    refine h.pass ⟨.run k, below, rfl, rfl, hg⟩ ?_ (by simp) (by simp)
    rw [hstack]
  · simp only [ht, Bool.false_eq_true, if_false, Option.some.injEq] at hs
    subst hs
    exact h.conclude hstack hg (Bool.eq_false_iff.mpr ht)

/-! ## Ticks -/

/-- A tick that does not get the budget is over at once. -/
theorem knock (h : InOrder L s) (hL : 0 < L) {f : Frame σ} {below : List (Frame σ)}
    (hstack : s.stack = f :: below) (hf : f.ticks = true) (hg : Ground below s.clock.dispatching) :
    InOrder L s.knock := by
  unfold Machine.knock
  cases hlend : s.clock.lend with
  | error e =>
    refine h.pass ⟨f, below, hstack, hf, hg⟩ rfl h.off fun h' => ?_
    cases h'
  | ok lent =>
    obtain ⟨hfree, htimely⟩ := h.timely.lend hL hlend
    rw [hfree] at hg
    obtain rfl : below = [] := by
      cases hg
      rfl
    obtain ⟨budget, rfl⟩ := Clock.lend_ok hlend
    exact h.quiet htimely rfl ⟨f, hstack, hf, rfl⟩ rfl h.off fun h' => by cases h'

/-- A tick is completed. -/
theorem complete (h : InOrder L s) {f : Frame σ} (hstack : s.stack = [f]) (hf : f.ticks = true)
    (hlock : s.clock.dispatching = true) :
    InOrder L { s with
      clock := s.clock.advance.1
      ticks := s.ticks + 1
      doing := .ticked (.ok s.clock.advance.2) } where
  timely := h.timely.advance hlock
  placed := ⟨f, [], hstack, hf, s.clock.advance_moved.dispatching ▸ .outside⟩
  off hnil := by
    rw [hstack] at hnil
    cases hnil
  interrupted hi := by
    simp only [Doing.ticked.injEq, Except.ok.injEq] at hi
    exact Clock.advance_interrupted hi
  bracketed := h.bracketed
  heard := s.clock.advance_moved.feed ▸ h.heard

theorem visit (h : InOrder L s) (hb : behave.Asks fun call => call ≠ .letGo 0) {r : Round}
    {f : Frame σ} (hstack : s.stack = [f]) (hf : f.ticks = true)
    (hlock : s.clock.dispatching = true) : InOrder L (s.visit behave r) := by
  rcases r with ⟨phase, start, names, _ | ⟨x, rest⟩⟩
  · cases phase with
    | tick =>
      exact h.quiet ⟨h.timely.tickLength, h.timely.time, h.timely.inRange, h.timely.room⟩ rfl
        ⟨f, hstack, hf, hlock⟩ rfl h.off fun h' => by cases h'
    | after => exact h.complete hstack hf hlock
  · exact h.pass ⟨⟨f, hstack, hf, hlock⟩, hb _ _⟩ rfl h.off (by simp)

theorem goOn (h : InOrder L s) {r : Round} {p : Program σ} {f : Frame σ} (hstack : s.stack = [f])
    (hf : f.ticks = true) (hlock : s.clock.dispatching = true)
    (hp : p.Asks fun call => call ≠ .letGo 0) : InOrder L (s.goOn r p) := by
  have htimely := h.timely
  cases p with
  | finish world verdict =>
    simp only [Machine.goOn]
    cases verdict.error? r.start with
    | none => exact h.pass ⟨f, hstack, hf, hlock⟩ rfl h.off (by simp)
    | some e =>
      exact h.quiet ⟨htimely.tickLength, htimely.time, htimely.inRange, fun hd => by cases hd⟩ rfl
        ⟨f, [], hstack, hf, .outside⟩ rfl h.off fun h' => by cases h'
  | ask call next =>
    simp only [Machine.goOn]
    cases hc : Program.onBudget r.phase s.clock call with
    | none =>
      refine h.pass ⟨?_, hp.1⟩ rfl (by simp) (by simp)
      rw [hstack, hlock]
      exact .callback hf hp.2
    | some answered =>
      obtain ⟨left, hleft⟩ := Program.onBudget_cases hc
      obtain ⟨c, a⟩ := answered
      simp only at hleft
      subst hleft
      exact h.quiet ⟨htimely.tickLength, htimely.time, htimely.inRange, htimely.room⟩ rfl
        ⟨⟨f, hstack, hf, hlock⟩, hp.2 a⟩ rfl h.off fun h' => by cases h'

/-- A tick that is over ends the ticking, unless it is one of many that a run makes. -/
theorem settle (h : InOrder L s) {result : Except ClockError TickEnd} {f : Frame σ}
    {below : List (Frame σ)} (hdoing : s.doing = .ticked result) (hstack : s.stack = f :: below)
    (hg : Ground below s.clock.dispatching) (hs : s.settle result = some t) : InOrder L t := by
  have htimely : Timely L s.clock.endTicking s.ticks :=
    h.timely.spares ⟨rfl, rfl, rfl⟩
  have hended : InOrder L { s with clock := s.clock.endTicking } :=
    h.quiet htimely rfl h.placed rfl (fun _ => rfl) fun _ => rfl
  unfold Machine.settle at hs
  rw [hstack] at hs
  cases f with
  | run k =>
    rcases result with e | _ | _ <;> cases hs
    · exact hended.conclude hstack hg rfl
    · refine h.pass ⟨k, below, rfl, hg⟩ ?_ (by simp) (by simp)
      rw [hstack]
    · exact h.conclude hstack hg (h.interrupted hdoing)
  | single =>
    cases hs
    refine h.quiet htimely rfl hg ?_ (fun _ => rfl) (fun h' => by cases h')
    rw [hstack]
    simp only [running, List.filterMap_cons, Frame.start?]
  | callback r next => cases hs

/-! ## Any step -/

/-- Every step keeps the order. -/
theorem step (h : InOrder L s) (hL : 0 < L) (hb : behave.Asks fun call => call ≠ .letGo 0)
    (hs : s.step behave = some t) : InOrder L t := by
  have hplaced := h.placed
  unfold Machine.step at hs
  cases hdoing : s.doing with
  | idle =>
    rw [hdoing] at hs
    cases hs
  | asking call =>
    rw [hdoing] at hs hplaced
    cases hs
    exact h.ask hplaced.1 hplaced.2
  | answering a =>
    rw [hdoing] at hs hplaced
    exact h.reply hplaced hs
  | looping =>
    rw [hdoing] at hs hplaced
    obtain ⟨k, below, hstack, hg⟩ := hplaced
    exact h.loop hstack hg hs
  | knocking =>
    rw [hdoing] at hs hplaced
    cases hs
    obtain ⟨f, below, hstack, hf, hg⟩ := hplaced
    exact h.knock hL hstack hf hg
  | visiting r =>
    rw [hdoing] at hs hplaced
    cases hs
    obtain ⟨f, hstack, hf, hlock⟩ := hplaced
    exact h.visit hb hstack hf hlock
  | inside r p =>
    rw [hdoing] at hs hplaced
    cases hs
    obtain ⟨⟨f, hstack, hf, hlock⟩, hp⟩ := hplaced
    exact h.goOn hstack hf hlock hp
  | ticked result =>
    rw [hdoing] at hs hplaced
    obtain ⟨f, below, hstack, _, hg⟩ := hplaced
    exact h.settle hdoing hstack hg hs

/-- Whoever calls from outside may call whatever they like, once nobody waits any more. -/
theorem call (h : InOrder L s) {call : Call} (hdoing : s.doing = .idle) (hl : call ≠ .letGo 0) :
    InOrder L (s.call call) := by
  have hplaced := h.placed
  rw [hdoing] at hplaced
  obtain ⟨hstack, hlock⟩ := hplaced
  refine h.pass ⟨?_, hl⟩ rfl h.off (by simp)
  rw [hstack, hlock]
  exact .outside

/-! ## What is in order -/

/-- No callback begins inside another one. -/
theorem callbacks_le (h : InOrder L s) : s.callbacks ≤ 1 := h.placed.callbacks_le

/-- The clock ticks only while a start or a tick is in progress. -/
theorem ticking_of_alone (h : InOrder L s) (halone : ∀ f ∈ s.stack, f.ticks = false) :
    s.clock.ticking = false := h.off (h.placed.eq_nil halone)

/-- A tick without room for its end panics, and nothing else comes of it. -/
theorem knock_of_full (h : InOrder L s) (hL : 0 < L) (hfull : Signed.greatest < s.clock.time + L) :
    s.knock = { s with
      doing := .ticked (.error (.listenerPanicked Fault.sumTooLarge.message)) } := by
  unfold Machine.knock
  rw [h.timely.lend_of_full hL hfull]

end InOrder

/-- Every moment of a clock that is called from outside is in order. -/
theorem Reached.inOrder (hL : 0 < L) (hb : behave.Asks fun call => call ≠ .letGo 0)
    {start : Machine σ} (hstart : InOrder L start) (h : Reached behave start s) : InOrder L s := by
  induction h with
  | opening => exact hstart
  | called _ hdoing hl ih => exact ih.call hdoing hl
  | stepped _ hs ih => exact ih.step hL hb hs

end Machine

end SimulatedClock

end Metronome
