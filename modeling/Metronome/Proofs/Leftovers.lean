-- What may be left over on a clock: an interrupt that came when the clock did
-- not tick, and the budget of the last tick. Two clocks that differ in nothing
-- else cannot be told apart, by callbacks or by whoever calls them.
import Metronome.Proofs.Callbacks

namespace Metronome

variable {P σ τ R : Type}

/-! ## Clocks that look alike -/

namespace Clock

/-- `d` is `c` but for its interrupt and its budget. A clock that ticks will heed an interrupt, so
there it has to be the same. So has the budget if it is seen, as it is inside a tick. -/
structure Resembles (seen : Prop) (c d : Clock P) : Prop where
  same : ∃ interrupted budget, d = { c with interrupted, budget }
  interrupted : c.ticking = true → d.interrupted = c.interrupted
  unit : d.budget.unit = c.budget.unit
  budget : seen → d.budget = c.budget

namespace Resembles

variable {seen : Prop} {c d : Clock P}

theorem refl (c : Clock P) : c.Resembles seen c := ⟨⟨_, _, rfl⟩, fun _ => rfl, rfl, fun _ => rfl⟩

theorem weaken (h : c.Resembles True d) : c.Resembles seen d :=
  ⟨h.same, h.interrupted, h.unit, fun _ => h.budget trivial⟩

theorem ticking (h : c.Resembles seen d) : d.ticking = c.ticking := by
  obtain ⟨_, _, rfl⟩ := h.same
  rfl

theorem time (h : c.Resembles seen d) : d.time = c.time := by
  obtain ⟨_, _, rfl⟩ := h.same
  rfl

theorem roster (h : c.Resembles seen d) : d.roster = c.roster := by
  obtain ⟨_, _, rfl⟩ := h.same
  rfl

theorem pacing (h : c.Resembles seen d) : d.pacing = c.pacing := by
  obtain ⟨_, _, rfl⟩ := h.same
  rfl

theorem ticksLeft (h : c.Resembles seen d) : d.ticksLeft = c.ticksLeft := by
  obtain ⟨_, _, rfl⟩ := h.same
  rfl

/-- An interrupt is no difference on a clock that does not tick. -/
theorem interrupt_right (h : c.Resembles seen d) (ht : c.ticking = false) :
    c.Resembles seen d.interrupt := by
  obtain ⟨_, _, rfl⟩ := h.same
  refine ⟨⟨true, _, rfl⟩, fun h' => ?_, h.unit, h.budget⟩
  rw [ht] at h'
  cases h'

theorem beginTicking (h : c.Resembles seen d) : c.beginTicking.Resembles seen d.beginTicking := by
  unfold Clock.beginTicking
  rw [h.ticking]
  cases ht : c.ticking with
  | true => exact h
  | false =>
    have hunit := h.unit
    have hbudget := h.budget
    obtain ⟨_, budget, rfl⟩ := h.same
    exact ⟨⟨false, budget, rfl⟩, fun _ => rfl, hunit, hbudget⟩

theorem endTicking (h : c.Resembles seen d) : c.endTicking.Resembles seen d.endTicking := by
  obtain ⟨_, _, rfl⟩ := h.same
  exact ⟨⟨_, _, rfl⟩, fun ht => Bool.noConfusion ht, h.unit, h.budget⟩

theorem publish (h : c.Resembles seen d) (e : Event) :
    (c.publish e).Resembles seen (d.publish e) := by
  obtain ⟨_, _, rfl⟩ := h.same
  exact ⟨⟨_, _, rfl⟩, h.interrupted, h.unit, h.budget⟩

theorem withBudget (h : c.Resembles True d) (budget : Budget) :
    ({ c with budget } : Clock P).Resembles True { d with budget } := by
  obtain ⟨_, _, rfl⟩ := h.same
  exact ⟨⟨_, _, rfl⟩, h.interrupted, rfl, fun _ => rfl⟩

/-- The budget of a tick that failed is given back. -/
theorem giveBack (h : c.Resembles seen d) :
    ({ c with dispatching := false } : Clock P).Resembles seen { d with dispatching := false } := by
  obtain ⟨_, _, rfl⟩ := h.same
  exact ⟨⟨_, _, rfl⟩, h.interrupted, h.unit, h.budget⟩

end Resembles

/-- Both clocks are refused for one reason, or they become clocks that look alike. -/
def ResembleBoth (seen : Prop) {ε : Type} : Except ε (Clock P) → Except ε (Clock P) → Prop
  | .ok c, .ok d => c.Resembles seen d
  | .error e, .error e' => e' = e
  | _, _ => False

theorem ResembleBoth.cases {seen : Prop} {ε : Type} {x y : Except ε (Clock P)}
    (h : ResembleBoth seen x y) : (∃ e, x = .error e ∧ y = .error e) ∨
      ∃ c d, x = .ok c ∧ y = .ok d ∧ c.Resembles seen d := by
  rcases x with e | c <;> rcases y with e' | d
  · obtain rfl : e' = e := h
    exact .inl ⟨e', rfl, rfl⟩
  · cases h
  · cases h
  · exact .inr ⟨c, d, rfl, rfl, h⟩

theorem Resembles.register {seen : Prop} {c d : Clock P} (h : c.Resembles seen d) (x : Listener) :
    ResembleBoth seen (c.register x) (d.register x) := by
  obtain ⟨_, _, rfl⟩ := h.same
  unfold Clock.register
  cases c.roster.register? x with
  | none => exact rfl
  | some roster => exact ⟨⟨_, _, rfl⟩, h.interrupted, h.unit, h.budget⟩

theorem Resembles.unregister {seen : Prop} {c d : Clock P} (h : c.Resembles seen d) (x : Listener) :
    (c.unregister x).1.Resembles seen (d.unregister x).1 ∧
      (d.unregister x).2 = (c.unregister x).2 := by
  obtain ⟨_, _, rfl⟩ := h.same
  unfold Clock.unregister
  cases c.roster.unregister? x with
  | none => exact ⟨h, rfl⟩
  | some roster => exact ⟨⟨⟨_, _, rfl⟩, h.interrupted, h.unit, h.budget⟩, rfl⟩

end Clock

/-! ## Interrupts that are slipped in -/

/-- The program after an interrupt, if the clock does not tick. -/
def Program.nudging (p : Program σ) : Program σ :=
  .ask .ticking fun
    | .flag false => .ask .interrupt fun _ => p
    | _ => p

/-- The one program is the other one with interrupts slipped in, and it sees of its world what
`view` shows of it. -/
inductive Program.Nudged (view : τ → σ) : Program σ → Program τ → Prop
  | finish (world : τ) (verdict : Verdict) :
      Nudged view (.finish (view world) verdict) (.finish world verdict)
  | ask (call : Call) {next : Answer → Program σ} {next' : Answer → Program τ} :
      (∀ a, Nudged view (next a) (next' a)) → Nudged view (.ask call next) (.ask call next')
  | nudge {p : Program σ} {p' : Program τ} : Nudged view p p' → Nudged view p p'.nudging

/-- Every program is one in which nothing was slipped in. -/
theorem Program.nudged_refl (p : Program σ) : Nudged id p p := by
  induction p with
  | finish world verdict => exact .finish world verdict
  | ask call next ih => exact .ask call ih

/-- Interrupts are slipped into the callbacks of the one, and the other has none. -/
def Behaviour.Nudged (view : τ → σ) (behave : Behaviour σ) (behave' : Behaviour τ) : Prop :=
  ∀ v world, Program.Nudged view (behave v (view world)) (behave' v world)

theorem Behaviour.nudged_refl (behave : Behaviour σ) : behave.Nudged id behave :=
  fun v world => (behave v world).nudged_refl

/-- What a clock answers from inside a tick does not depend on what is left over. -/
structure Service.Overlooks (serve : Service P) (allowed : Call → Prop) : Prop where
  ticking : ∀ c, serve c .ticking = (c, .flag c.ticking)
  interrupt : ∀ c, serve c .interrupt = (c.interrupt, .done)
  call : ∀ {c d : Clock P} {call}, allowed call → c.Resembles True d →
    (serve c call).1.Resembles True (serve d call).1 ∧ (serve d call).2 = (serve c call).2

/-! ## One tick -/

/-- The states look alike, and the one world is what is seen of the other. -/
structure InView (view : τ → σ) (seen : Prop) (a : Clock P × σ) (b : Clock P × τ) : Prop where
  clock : a.1.Resembles seen b.1
  world : a.2 = view b.2

/-- From states that look alike the two functions come to states that look alike, with one
result. -/
def InStep (view : τ → σ) (seen : Prop) (f : Clock P × σ → (Clock P × σ) × R)
    (g : Clock P × τ → (Clock P × τ) × R) : Prop :=
  ∀ a b, InView view seen a b → InView view seen (f a).1 (g b).1 ∧ (g b).2 = (f a).2

section Tick

variable {serve : Service P} {allowed : Call → Prop} {view : τ → σ} {seen : Prop}

/-- A call on the budget is answered by the budget. -/
theorem Program.onBudget_resembles (phase : Phase) {c d : Clock P} (h : c.Resembles True d)
    (call : Call) :
    onBudget phase c call = none ∧ onBudget phase d call = none ∨
      ∃ r r', onBudget phase c call = some r ∧ onBudget phase d call = some r' ∧
        r.1.Resembles True r'.1 ∧ r'.2 = r.2 := by
  cases call with
  | consume amount =>
    right
    cases phase with
    | after => exact ⟨_, _, rfl, rfl, h, rfl⟩
    | tick =>
      simp only [onBudget, h.budget trivial]
      cases c.budget.consume amount with
      | ok budget => exact ⟨_, _, rfl, rfl, h.withBudget budget, rfl⟩
      | error e => exact ⟨_, _, rfl, rfl, h, rfl⟩
  | consumeAll =>
    right
    cases phase with
    | after => exact ⟨_, _, rfl, rfl, h, rfl⟩
    | tick =>
      simp only [onBudget, h.budget trivial]
      exact ⟨_, _, rfl, rfl, h.withBudget c.budget.consumeAll, rfl⟩
  | budget =>
    right
    simp only [onBudget, h.budget trivial]
    exact ⟨_, _, rfl, rfl, h, rfl⟩
  | _ => exact .inl ⟨rfl, rfl⟩

theorem Service.Overlooks.reply (k : serve.Overlooks allowed) (phase : Phase) {c d : Clock P}
    (h : c.Resembles True d) {call : Call} (ha : allowed call) :
    (Program.reply serve phase c call).1.Resembles True (Program.reply serve phase d call).1 ∧
      (Program.reply serve phase d call).2 = (Program.reply serve phase c call).2 := by
  unfold Program.reply
  rcases Program.onBudget_resembles phase h call with ⟨hc, hd⟩ | ⟨r, r', hc, hd, hr⟩
  · rw [hc, hd]
    exact k.call ha h
  · rw [hc, hd]
    exact hr

/-- A nudge is an interrupt if the clock does not tick, and nothing at all if it does. -/
theorem Service.Overlooks.run_nudging (k : serve.Overlooks allowed) (phase : Phase) (p : Program σ)
    (c : Clock P) : Program.run serve phase p.nudging c =
      Program.run serve phase p (if c.ticking then c else c.interrupt) := by
  have hticking : Program.reply serve phase c .ticking = (c, .flag c.ticking) := k.ticking c
  have hinterrupt : Program.reply serve phase c .interrupt = (c.interrupt, .done) := k.interrupt c
  unfold Program.nudging
  rw [Program.run, hticking]
  cases ht : c.ticking with
  | true => simp
  | false => simp [Program.run, hinterrupt]

/-- A callback does not notice what is left over, or what is slipped into it. -/
theorem Program.Nudged.run (k : serve.Overlooks allowed) (phase : Phase) {p : Program σ}
    {p' : Program τ} (hn : Nudged view p p') (ha : p.Asks allowed) {c d : Clock P}
    (h : c.Resembles True d) :
    let r := Program.run serve phase p c
    let r' := Program.run serve phase p' d
    r.1.1.Resembles True r'.1.1 ∧ r.1.2 = view r'.1.2 ∧ r'.2 = r.2 := by
  induction hn generalizing c d with
  | finish world verdict => exact ⟨h, rfl, rfl⟩
  | ask call _ ih =>
    obtain ⟨hreply, hanswer⟩ := k.reply phase h ha.1
    simp only [Program.run, hanswer]
    exact ih _ (ha.2 _) hreply
  | @nudge p p' _ ih =>
    rw [k.run_nudging phase p' d]
    refine ih ha ?_
    cases ht : d.ticking with
    | true => exact h
    | false => exact h.interrupt_right (h.ticking.symm.trans ht)

namespace Clock

variable {behave : Behaviour σ} {behave' : Behaviour τ}

theorem visitAll_nudged (k : serve.Overlooks allowed) (hb : behave.Asks allowed)
    (hn : behave.Nudged view behave') (phase : Phase) (thread : Thread) (start : Int)
    (xs : List Listener) {c d : Clock P} (h : c.Resembles True d) (world : τ) :
    let r := visitAll serve behave phase thread start xs (c, view world)
    let r' := visitAll serve behave' phase thread start xs (d, world)
    r.1.1.Resembles True r'.1.1 ∧ r.1.2 = view r'.1.2 ∧ r'.2 = r.2 := by
  induction xs generalizing c d world with
  | nil => exact ⟨h, rfl, rfl⟩
  | cons x xs ih =>
    obtain ⟨hclock, hworld, hverdict⟩ :=
      (hn ⟨x, phase, c.budget, thread⟩ world).run k phase (hb _ _) h
    simp only [visitAll, h.budget trivial, hverdict]
    cases (Program.run serve phase (behave ⟨x, phase, c.budget, thread⟩ (view world)) c).2.error?
      start with
    | some e => exact ⟨hclock, hworld, rfl⟩
    | none =>
      have hstate :
          (Program.run serve phase (behave ⟨x, phase, c.budget, thread⟩ (view world)) c).1 =
            (_, view _) := Prod.ext rfl hworld
      rw [hstate]
      exact ih hclock _

/-- The budget of a tick does not depend on the one before. -/
theorem Resembles.lend {c d : Clock P} (h : c.Resembles seen d) :
    (∃ e, c.lend = .error e ∧ d.lend = .error e) ∨
      ∃ lent lent', c.lend = .ok lent ∧ d.lend = .ok lent' ∧ lent.Resembles True lent' := by
  have hreset (stop : Int) : d.budget.reset c.time stop = c.budget.reset c.time stop := by
    unfold Budget.reset
    rw [h.unit]
  obtain ⟨interrupted, budget, rfl⟩ := h.same
  simp only [Clock.lend, hreset]
  split
  · exact .inl ⟨_, rfl, rfl⟩
  · cases Signed.add c.time c.tickLength with
    | error f => exact .inl ⟨_, rfl, rfl⟩
    | ok stop =>
      dsimp only
      cases c.budget.reset c.time stop with
      | error f => exact .inl ⟨_, rfl, rfl⟩
      | ok budget => exact .inr ⟨_, _, rfl, rfl, ⟨_, _, rfl⟩, h.interrupted, rfl, fun _ => rfl⟩

/-- An interrupt is used up at the end of the tick. If it is a difference, the clock did not tick
any more, and neither of them ends because of it. -/
theorem Resembles.advance {c d : Clock P} (h : c.Resembles seen d) :
    c.advance.1.Resembles seen d.advance.1 ∧ d.advance.2 = c.advance.2 := by
  have hinterrupted := h.interrupted
  have hunit := h.unit
  have hbudget := h.budget
  obtain ⟨interrupted, budget, rfl⟩ := h.same
  obtain ⟨L, unit, time, ticking, interrupted', roster, feed, budget', dispatching, pacing⟩ := c
  dsimp only at hinterrupted hunit hbudget
  cases ticking with
  | true =>
    obtain rfl := hinterrupted rfl
    cases interrupted <;> exact ⟨⟨⟨_, budget, rfl⟩, fun _ => rfl, hunit, hbudget⟩, rfl⟩
  | false =>
    cases interrupted <;> cases interrupted' <;>
      exact ⟨⟨⟨_, budget, rfl⟩, fun ht => Bool.noConfusion ht, hunit, hbudget⟩, rfl⟩

theorem tick_nudged (k : serve.Overlooks allowed) (hb : behave.Asks allowed)
    (hn : behave.Nudged view behave') (thread : Thread) :
    InStep view seen (tick serve behave thread) (tick serve behave' thread) := by
  rintro ⟨c, _⟩ ⟨d, world⟩ ⟨h, rfl⟩
  dsimp only at h ⊢
  rcases h.lend with ⟨e, hc, hd⟩ | ⟨lent, lent', hc, hd, hlent⟩
  · simp only [tick, hc, hd]
    exact ⟨⟨h, rfl⟩, trivial⟩
  have hv := visitAll_nudged k hb hn .tick thread c.time c.roster.names hlent world
  rcases hr : visitAll serve behave .tick thread c.time c.roster.names (lent, view world)
    with ⟨⟨e, _⟩, _⟩
  rcases hr' : visitAll serve behave' .tick thread c.time c.roster.names (lent', world)
    with ⟨⟨e', world'⟩, result⟩
  rw [hr, hr'] at hv
  obtain ⟨he, rfl, rfl⟩ := hv
  simp only [tick, hc, hd, h.time, h.roster, hr, hr']
  cases result with
  | some error => exact ⟨⟨he.giveBack.weaken, rfl⟩, rfl⟩
  | none =>
    have hspent : ({ e with budget := e.budget.consumeAll } : Clock P).Resembles True
        { e' with budget := e'.budget.consumeAll } := by
      rw [he.budget trivial]
      exact he.withBudget _
    have hw := visitAll_nudged k hb hn .after thread c.time c.roster.names hspent world'
    rcases hs : visitAll serve behave .after thread c.time c.roster.names
      ({ e with budget := e.budget.consumeAll }, view world') with ⟨⟨f, _⟩, _⟩
    rcases hs' : visitAll serve behave' .after thread c.time c.roster.names
      ({ e' with budget := e'.budget.consumeAll }, world') with ⟨⟨f', world''⟩, result⟩
    rw [hs, hs'] at hw
    obtain ⟨hf, rfl, rfl⟩ := hw
    dsimp only
    rw [hs, hs']
    cases result with
    | some error => exact ⟨⟨hf.giveBack.weaken, rfl⟩, rfl⟩
    | none =>
      obtain ⟨hadvance, hend⟩ := hf.advance
      exact ⟨⟨hadvance.weaken, rfl⟩, congrArg Except.ok hend⟩

end Clock

end Tick

/-! ## Calls from outside -/

/-- Calls one after another, and their answers. -/
def askAll {S : Type} (perform : Call → S → S × Answer) : List Call → S → S × List Answer
  | [], st => (st, [])
  | call :: calls, st =>
    let r := perform call st
    let rest := askAll perform calls r.1
    (rest.1, r.2 :: rest.2)

/-- What someone outside does. -/
inductive Errand where
  | ask (call : Call)
  /-- An interrupt, if the clock does not tick. -/
  | nudge
  deriving DecidableEq, Repr

def Errand.call? : Errand → Option Call
  | .ask call => some call
  | .nudge => none

/-- Errands one after another, and the answers to their calls. -/
def runErrands (perform : Call → Clock P × σ → (Clock P × σ) × Answer) :
    List Errand → Clock P × σ → (Clock P × σ) × List Answer
  | [], st => (st, [])
  | .ask call :: errands, st =>
    let r := perform call st
    let rest := runErrands perform errands r.1
    (rest.1, r.2 :: rest.2)
  | .nudge :: errands, st =>
    runErrands perform errands (if st.1.ticking then st else (perform .interrupt st).1)

variable {view : τ → σ} {seen : Prop} {perform : Call → Clock P × σ → (Clock P × σ) × Answer}
  {perform' : Call → Clock P × τ → (Clock P × τ) × Answer}

/-- What is slipped in between the calls changes none of the answers. -/
theorem runErrands_inStep (hinterrupt : ∀ st, (perform' .interrupt st).1 = (st.1.interrupt, st.2))
    {errands : List Errand} (h : ∀ call ∈ errands.filterMap Errand.call?,
      InStep view seen (perform call) (perform' call)) :
    InStep view seen (askAll perform (errands.filterMap Errand.call?))
      (runErrands perform' errands) := by
  induction errands with
  | nil => exact fun a b hab => ⟨hab, rfl⟩
  | cons errand errands ih =>
    intro a b hab
    cases errand with
    | ask call =>
      obtain ⟨hstep, hanswer⟩ := h call (by simp [Errand.call?]) a b hab
      obtain ⟨hrest, hanswers⟩ :=
        ih (fun call' hc => h call' (by simp [Errand.call?, hc])) _ _ hstep
      exact ⟨hrest, by simp [runErrands, askAll, Errand.call?, hanswer, hanswers]⟩
    | nudge =>
      refine ih (fun call' hc => h call' (by simpa [Errand.call?] using hc)) a _ ?_
      cases ht : b.1.ticking with
      | true => exact hab
      | false =>
        have hclock := hab.clock.interrupt_right (hab.clock.ticking.symm.trans ht)
        simp only [Bool.false_eq_true, if_false, hinterrupt]
        exact ⟨hclock, hab.world⟩

/-- Clocks that look alike answer all calls in the same way. -/
theorem askAll_inStep {calls : List Call}
    (h : ∀ call ∈ calls, InStep view seen (perform call) (perform' call)) :
    InStep view seen (askAll perform calls) (askAll perform' calls) := by
  induction calls with
  | nil => exact fun a b hab => ⟨hab, rfl⟩
  | cons call calls ih =>
    intro a b hab
    obtain ⟨hstep, hanswer⟩ := h call (by simp) a b hab
    obtain ⟨hrest, hanswers⟩ := ih (fun call' hc => h call' (by simp [hc])) _ _ hstep
    exact ⟨hrest, by simp [askAll, hanswer, hanswers]⟩

end Metronome
