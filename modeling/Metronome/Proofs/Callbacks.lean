-- What callbacks can do to a clock. A callback reaches the clock through its
-- calls alone, so what every call keeps, every callback and every tick keeps.
import Metronome.Clock.Tick

namespace Metronome

/-! ## The calls of a callback -/

namespace Call

/-- A call that everyone may make. The others take a run to pieces. -/
def isPublic : Call → Bool
  | .override _ => false
  | _ => true

end Call

namespace Program

variable {σ : Type}

/-- Every call of the program is allowed, whatever it was answered before. -/
def Asks (allowed : Call → Prop) : Program σ → Prop
  | .finish _ _ => True
  | .ask call next => allowed call ∧ ∀ a, (next a).Asks allowed

theorem Asks.imp {allowed allowed' : Call → Prop} (himp : ∀ call, allowed call → allowed' call)
    {p : Program σ} (h : p.Asks allowed) : p.Asks allowed' := by
  induction p with
  | finish world verdict => trivial
  | ask call next ih => exact ⟨himp call h.1, fun a => ih a (h.2 a)⟩

theorem Asks.and {allowed allowed' : Call → Prop} {p : Program σ} (h : p.Asks allowed)
    (h' : p.Asks allowed') : p.Asks fun call => allowed call ∧ allowed' call := by
  induction p with
  | finish world verdict => trivial
  | ask call next ih => exact ⟨⟨h.1, h'.1⟩, fun a => ih a (h.2 a) (h'.2 a)⟩

theorem asks_any (p : Program σ) : p.Asks fun _ => True := by
  induction p with
  | finish world verdict => trivial
  | ask call next ih => exact ⟨trivial, ih⟩

end Program

/-- Every callback makes allowed calls only. -/
def Behaviour.Asks {σ : Type} (allowed : Call → Prop) (behave : Behaviour σ) : Prop :=
  ∀ v world, (behave v world).Asks allowed

/-- The callbacks make public calls only. -/
abbrev Behaviour.Public {σ : Type} (behave : Behaviour σ) : Prop :=
  behave.Asks fun call => call.isPublic = true

/-! ## The callbacks of a tick -/

/-- The callbacks of a tick that are still to come. -/
structure Round where
  phase : Phase
  start : Int
  names : List Listener
  rest : List Listener
  deriving DecidableEq, Repr

/-! ## What calls keep -/

/-- Allowed calls keep `I`, and so does a change of what is left of the budget. -/
structure Service.Keeps {P : Type} (serve : Service P) (allowed : Call → Prop)
    (I : Clock P → Prop) : Prop where
  budget : ∀ c left, I c → I { c with budget := { c.budget with left } }
  call : ∀ c call, allowed call → I c → I (serve c call).1

/-- Whatever the listeners do keeps `J`, and so does a change of what is left of the budget. -/
structure Behaviour.Keeps {P σ : Type} (serve : Service P) (behave : Behaviour σ)
    (J : Clock P × σ → Prop) : Prop where
  budget : ∀ c left world, J (c, world) → J ({ c with budget := { c.budget with left } }, world)
  callback : ∀ v c world, J (c, world) → J (Program.run serve v.phase (behave v world) c).1

variable {P σ : Type} {serve : Service P} {allowed : Call → Prop} {I : Clock P → Prop}

/-- A call on the budget changes at most what is left. -/
theorem Program.onBudget_cases {phase : Phase} {c : Clock P} {call : Call} {r : Clock P × Answer}
    (h : onBudget phase c call = some r) :
    ∃ left, r.1 = { c with budget := { c.budget with left } } := by
  have same : ∃ left, c = { c with budget := { c.budget with left } } := ⟨c.budget.left, rfl⟩
  cases call <;> simp only [onBudget, reduceCtorEq] at h
  case consume amount =>
    cases phase with
    | after => cases h; exact same
    | tick =>
      dsimp only at h
      split at h
      · rename_i b hb
        cases h
        unfold Budget.consume at hb
        split at hb
        · cases hb
        · cases hb; exact ⟨_, rfl⟩
      · cases h; exact same
  case consumeAll =>
    cases phase with
    | after => cases h; exact same
    | tick => cases h; exact ⟨0, rfl⟩
  case budget => cases h; exact same

namespace Service.Keeps

theorem reply (k : serve.Keeps allowed I) {phase : Phase} {c : Clock P} {call : Call}
    (ha : allowed call) (h : I c) : I (Program.reply serve phase c call).1 := by
  unfold Program.reply
  cases hb : Program.onBudget phase c call with
  | none => exact k.call c call ha h
  | some r =>
    obtain ⟨left, hr⟩ := Program.onBudget_cases hb
    simp only [Option.getD_some, hr]
    exact k.budget c left h

theorem program (k : serve.Keeps allowed I) (phase : Phase) {p : Program σ} {c : Clock P}
    (ha : p.Asks allowed) (h : I c) : I (Program.run serve phase p c).1.1 := by
  induction p generalizing c with
  | finish world verdict => exact h
  | ask call next ih => exact ih _ (ha.2 _) (k.reply ha.1 h)

/-- What the calls keep of the clock, the callbacks keep in whatever world. -/
theorem behaviour (k : serve.Keeps allowed I) {behave : Behaviour σ} (hb : behave.Asks allowed) :
    behave.Keeps serve fun st => I st.1 where
  budget c left _ h := k.budget c left h
  callback v _ world h := k.program v.phase (hb v world) h

end Service.Keeps

/-! ## What a tick does -/

namespace Behaviour.Keeps

variable {behave : Behaviour σ} {J : Clock P × σ → Prop}

theorem visits (k : behave.Keeps serve J) (phase : Phase) (thread : Thread) (start : Int)
    (xs : List Listener) {st : Clock P × σ} (h : J st) :
    J (Clock.visitAll serve behave phase thread start xs st).1 := by
  induction xs generalizing st with
  | nil => exact h
  | cons x xs ih =>
    have hc := k.callback ⟨x, phase, st.1.budget, thread⟩ st.1 st.2 h
    unfold Clock.visitAll
    dsimp only
    split
    · exact hc
    · exact ih hc

/-- A tick is refused at once, or it fails in a callback, or it is completed. What the callbacks
keep of the lent clock holds of the clock at the end of the callbacks. -/
theorem tick_cases (k : behave.Keeps serve J) (thread : Thread) {c : Clock P} (world : σ)
    (hlent : ∀ lent, c.lend = .ok lent → J (lent, world)) :
    (∃ e, c.lend = .error e ∧ Clock.tick serve behave thread (c, world) = ((c, world), .error e)) ∨
    (∃ lent d world' e, c.lend = .ok lent ∧ J (d, world') ∧
      Clock.tick serve behave thread (c, world) =
        (({ d with dispatching := false }, world'), .error e)) ∨
    ∃ lent d world', c.lend = .ok lent ∧ J (d, world') ∧
      Clock.tick serve behave thread (c, world) = ((d.advance.1, world'), .ok d.advance.2) := by
  rcases hl : c.lend with e | lent
  · exact .inl ⟨e, rfl, by simp only [Clock.tick, hl]⟩
  right
  have hd := k.visits .tick thread c.time c.roster.names (hlent lent hl)
  rcases hv : Clock.visitAll serve behave .tick thread c.time c.roster.names (lent, world)
    with ⟨⟨d, world'⟩, _ | e⟩ <;> rw [hv] at hd
  · have hd' := k.visits .after thread c.time c.roster.names (k.budget d 0 world' hd)
    rcases hw : Clock.visitAll serve behave .after thread c.time c.roster.names
      ({ d with budget := d.budget.consumeAll }, world') with ⟨⟨d', world''⟩, _ | e⟩ <;>
      rw [← Budget.consumeAll, hw] at hd'
    · exact .inr ⟨lent, d', world'', rfl, hd', by simp only [Clock.tick, hl, hv, hw]⟩
    · exact .inl ⟨lent, d', world'', e, rfl, hd', by simp only [Clock.tick, hl, hv, hw]⟩
  · exact .inl ⟨lent, d, world', e, rfl, hd, by simp only [Clock.tick, hl, hv]⟩

end Behaviour.Keeps

theorem Service.Keeps.visits (k : serve.Keeps allowed I) {behave : Behaviour σ}
    (hb : behave.Asks allowed) (phase : Phase) (thread : Thread) (start : Int)
    (xs : List Listener) {c : Clock P} (world : σ) (h : I c) :
    I (Clock.visitAll serve behave phase thread start xs (c, world)).1.1 :=
  (k.behaviour hb).visits phase thread start xs h

namespace Clock

/-- The cases of a tick whose callbacks keep an invariant of the clock. -/
theorem tick_cases (k : serve.Keeps allowed I) {behave : Behaviour σ} (hb : behave.Asks allowed)
    (thread : Thread) {c : Clock P} (world : σ) (hlent : ∀ lent, c.lend = .ok lent → I lent) :
    (∃ e, c.lend = .error e ∧ tick serve behave thread (c, world) = ((c, world), .error e)) ∨
    (∃ lent d world' e, c.lend = .ok lent ∧ I d ∧
      tick serve behave thread (c, world) = (({ d with dispatching := false }, world'), .error e)) ∨
    ∃ lent d world', c.lend = .ok lent ∧ I d ∧
      tick serve behave thread (c, world) = ((d.advance.1, world'), .ok d.advance.2) :=
  (k.behaviour hb).tick_cases thread world hlent

/-! ## The beginning of a tick -/

/-- A clock that lends out its tick changes its budget, and nothing else. -/
theorem lend_ok {c lent : Clock P} (h : c.lend = .ok lent) :
    ∃ budget, lent = { c with budget, dispatching := true } := by
  unfold lend at h
  split at h
  · cases h
  · split at h
    · cases h
    · split at h <;> cases h
      exact ⟨_, rfl⟩

/-- A clock at rest lends out the whole of a tick that fits. -/
theorem lend_of_fits {c : Clock P} (hd : c.dispatching = false) (hL : 0 < c.tickLength)
    (hlen : Signed.Fits c.tickLength) (hf : Signed.Fits (c.time + c.tickLength)) :
    c.lend = .ok { c with
      budget := ⟨c.time, c.time + c.tickLength, c.tickLength, c.budget.unit⟩
      dispatching := true } := by
  have hsub : c.time + c.tickLength - c.time = c.tickLength := by omega
  simp only [lend, Signed.add, Signed.keep_of_fits hf, hd, Bool.false_eq_true, if_false,
    Budget.reset, Int.lt_add_of_pos_right, hL, if_true, Signed.sub, hsub, Signed.keep_of_fits hlen,
    Except.map]

/-- A clock at rest lends out the whole of the next tick, if the time has room for it. -/
theorem lend_eq {c : Clock P} (hd : c.dispatching = false) (hL : 0 < c.tickLength)
    (ht : 0 ≤ c.time) :
    c.lend =
      if Signed.Fits (c.time + c.tickLength) then
        .ok { c with
          budget := ⟨c.time, c.time + c.tickLength, c.tickLength, c.budget.unit⟩
          dispatching := true }
      else .error (.listenerPanicked Fault.sumTooLarge.message) := by
  by_cases hf : Signed.Fits (c.time + c.tickLength)
  · have hlen : Signed.Fits c.tickLength := by
      unfold Signed.Fits Signed.least Signed.greatest at *
      omega
    rw [if_pos hf, lend_of_fits hd hL hlen hf]
  · simp only [lend, Signed.add, Signed.keep, hd, Bool.false_eq_true, if_false, hf]

/-! ## The end of a tick -/

/-- What the end of a tick does, with or without an interrupt. -/
structure Moved (c d : Clock P) : Prop where
  tickLength : d.tickLength = c.tickLength
  time : d.time = c.time + c.tickLength
  dispatching : d.dispatching = false
  feed : d.feed = c.feed
  pacing : d.pacing = c.pacing
  ticking : d.ticking = true → c.ticking = true

theorem advance_moved (c : Clock P) : Moved c c.advance.1 := by
  unfold advance
  dsimp only
  split
  · exact ⟨rfl, rfl, rfl, rfl, rfl, fun h => by cases h⟩
  · exact ⟨rfl, rfl, rfl, rfl, rfl, id⟩

theorem advance_interrupted {c : Clock P} (h : c.advance.2 = .interrupted) :
    c.advance.1.ticking = false := by
  cases hi : c.interrupted with
  | true => simp [advance, hi]
  | false => simp [advance, hi] at h

end Clock

end Metronome
