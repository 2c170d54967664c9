-- The chronicle of a clock: the ticks that were asked for and the callbacks
-- that came of them, in order. Keeping it disturbs neither the clock nor its
-- listeners, and it tells of a failure exactly if there was one.
import Metronome.Proofs.Callbacks

namespace Metronome

/-! ## Chronicles -/

inductive Happening where
  /-- A tick was asked for at this time. -/
  | asked (time : Int)
  /-- A listener was called with this budget, and the callback ended so. -/
  | called (listener : Listener) (phase : Phase) (budget : Budget) (verdict : Verdict)
  deriving DecidableEq, Repr

/-- What happened, oldest first. -/
abbrev Chronicle := List Happening

/-- The error that a happening is. A tick whose end the time has no room for is one, and so is
a callback that failed or gave up. -/
def Happening.error? (tickLength : Int) : Happening → Option ClockError
  | .asked time =>
    if Signed.Fits (time + tickLength) then none
    else some (.listenerPanicked Fault.sumTooLarge.message)
  | .called _ _ budget verdict => verdict.error? budget.start

namespace Chronicle

/-- Nothing went wrong. -/
def Clear (tickLength : Int) (l : Chronicle) : Prop := ∀ h ∈ l, h.error? tickLength = none

/-- The chronicle tells of this error and of no other, and of nothing after it. -/
def Tells (tickLength : Int) (error : Option ClockError) (l : Chronicle) : Prop :=
  match error with
  | none => Clear tickLength l
  | some e => ∃ before last, l = before ++ [last] ∧ Clear tickLength before ∧
      last.error? tickLength = some e

variable {L : Int} {l l' : Chronicle} {error : Option ClockError}

theorem Clear.nil : Clear L [] := by simp [Clear]

theorem Clear.append (h : Clear L l) (h' : Clear L l') : Clear L (l ++ l') := by
  intro x hx
  rcases List.mem_append.mp hx with hx | hx
  · exact h x hx
  · exact h' x hx

theorem Clear.tells_append (h : Clear L l) (h' : Tells L error l') : Tells L error (l ++ l') := by
  cases error with
  | none => exact h.append h'
  | some e =>
    obtain ⟨before, last, rfl, hb, hl⟩ := h'
    exact ⟨l ++ before, last, by rw [List.append_assoc], h.append hb, hl⟩

/-- The first error of the chronicle is the one that it tells of. -/
theorem Tells.findSome? (h : Tells L error l) : l.findSome? (Happening.error? L) = error := by
  cases error with
  | none => exact List.findSome?_eq_none_iff.mpr h
  | some e =>
    obtain ⟨before, last, rfl, hb, hl⟩ := h
    rw [List.findSome?_append, List.findSome?_eq_none_iff.mpr hb]
    simp [hl]

theorem Tells.dropLast (h : Tells L error l) : Clear L l.dropLast := by
  cases error with
  | none => exact fun x hx => h x (List.dropLast_subset l hx)
  | some e =>
    obtain ⟨before, last, rfl, hb, _⟩ := h
    rwa [List.dropLast_concat]

end Chronicle

/-! ## Keeping a chronicle -/

/-- The program itself. At its end the chronicle is written. -/
def Program.noting {σ : Type} (entry : Verdict → Happening) (l : Chronicle) :
    Program σ → Program (σ × Chronicle)
  | .finish world verdict => .finish (world, l ++ [entry verdict]) verdict
  | .ask call next => .ask call fun a => (next a).noting entry l

/-- The same listeners in a world that has a chronicle. -/
def Behaviour.noted {σ : Type} (behave : Behaviour σ) : Behaviour (σ × Chronicle) :=
  fun v world => (behave v world.1).noting (.called v.listener v.phase v.budget) world.2

/-- A tick that is written down. -/
def Clock.chronicled {P σ : Type} (serve : Service P) (behave : Behaviour σ) (thread : Thread) :
    Ticker P (σ × Chronicle) :=
  fun (c, (world, l)) => tick serve behave.noted thread (c, (world, l ++ [.asked c.time]))

/-- The error of a result that is one. -/
def failure? {α : Type} : Except ClockError α → Option ClockError
  | .ok _ => none
  | .error e => some e

variable {P σ R : Type} {serve : Service P} {allowed : Call → Prop} {I : Clock P → Prop}

/-- A state and a result, with more written down. -/
def withNews (r : (Clock P × σ) × R) (l : Chronicle) : (Clock P × (σ × Chronicle)) × R :=
  ((r.1.1, (r.1.2, l)), r.2)

theorem Behaviour.noted_asks {behave : Behaviour σ} (h : behave.Asks allowed) :
    behave.noted.Asks allowed := by
  intro v world
  unfold noted
  have hp := h v world.1
  generalize behave v world.1 = p at hp
  induction p with
  | finish world verdict => trivial
  | ask call next ih => exact ⟨hp.1, fun a => ih a (hp.2 a)⟩

theorem Program.run_noting (serve : Service P) (phase : Phase) (entry : Verdict → Happening)
    (l : Chronicle) (p : Program σ) (c : Clock P) :
    run serve phase (p.noting entry l) c =
      withNews (run serve phase p c) (l ++ [entry (run serve phase p c).2]) := by
  induction p generalizing c with
  | finish world verdict => rfl
  | ask call next ih => exact ih _ _

namespace Clock

/-- Visits that are written down are the same visits, and the chronicle tells how they end. -/
theorem visits_told (k : serve.Keeps allowed I) {behave : Behaviour σ} (hb : behave.Asks allowed)
    {L start : Int} (hstart : ∀ c, I c → c.budget.start = start)
    (phase : Phase) (thread : Thread) (xs : List Listener) {c : Clock P} (world : σ)
    (l : Chronicle) (h : I c) :
    ∃ news,
      visitAll serve behave.noted phase thread start xs (c, (world, l)) =
        withNews (visitAll serve behave phase thread start xs (c, world)) (l ++ news) ∧
      Chronicle.Tells L (visitAll serve behave phase thread start xs (c, world)).2 news := by
  induction xs generalizing c world l with
  | nil => exact ⟨[], by simp [visitAll, withNews], Chronicle.Clear.nil⟩
  | cons x xs ih =>
    let v : Visit := ⟨x, phase, c.budget, thread⟩
    have hd := k.program phase (hb v world) h
    have hnote :=
      Program.run_noting serve phase (.called x phase c.budget) l (behave v world) c
    rcases hr : Program.run serve phase (behave v world) c with ⟨⟨d, world'⟩, verdict⟩
    rw [hr] at hd hnote
    have hentry : (Happening.called x phase c.budget verdict).error? L = verdict.error? start := by
      rw [Happening.error?, hstart c h]
    have hnoted : behave.noted ⟨x, phase, c.budget, thread⟩ (world, l) =
        (behave v world).noting (.called x phase c.budget) l := rfl
    cases he : verdict.error? start with
    | some e =>
      refine ⟨[.called x phase c.budget verdict], ?_, ?_⟩
      · simp only [visitAll, hnoted, hnote, hr, withNews, he, v]
      · simp only [visitAll, hr, he, v]
        exact ⟨[], _, rfl, Chronicle.Clear.nil, hentry.trans he⟩
    | none =>
      obtain ⟨news, hnews, htells⟩ := ih world' (l ++ [.called x phase c.budget verdict]) hd
      refine ⟨.called x phase c.budget verdict :: news, ?_, ?_⟩
      · simp only [visitAll, hnoted, hnote, hr, withNews, he, v]
        rw [hnews, List.append_assoc]
        rfl
      · simp only [visitAll, hr, he, v]
        have hone : Chronicle.Clear L [.called x phase c.budget verdict] := by
          intro y hy
          rw [List.mem_singleton.mp hy, hentry, he]
        exact hone.tells_append htells

/-- A tick that is written down is the same tick, and the chronicle tells how it ends. -/
theorem tick_told (k : serve.Keeps allowed I) {behave : Behaviour σ} (hb : behave.Asks allowed)
    (thread : Thread) {c : Clock P} (world : σ) (l : Chronicle)
    (hd : c.dispatching = false) (hL : 0 < c.tickLength) (ht : 0 ≤ c.time)
    (hlent : ∀ lent, c.lend = .ok lent → I lent) (hstart : ∀ d, I d → d.budget.start = c.time) :
    ∃ news,
      chronicled serve behave thread (c, (world, l)) =
        withNews (tick serve behave thread (c, world)) (l ++ news) ∧
      Chronicle.Tells c.tickLength (failure? (tick serve behave thread (c, world)).2) news := by
  have hlend := lend_eq hd hL ht
  by_cases hf : Signed.Fits (c.time + c.tickLength)
  · obtain ⟨lent, hlend⟩ : ∃ lent, c.lend = .ok lent := ⟨_, hlend.trans (if_pos hf)⟩
    have hasked : Chronicle.Clear c.tickLength [.asked c.time] := by
      intro y hy
      rw [List.mem_singleton.mp hy, Happening.error?, if_pos hf]
    obtain ⟨news, hnews, htells⟩ := visits_told (L := c.tickLength) k hb hstart .tick thread
      c.roster.names world (l ++ [.asked c.time]) (hlent lent hlend)
    have hI := k.visits hb .tick thread c.time c.roster.names world (hlent lent hlend)
    rcases hv : visitAll serve behave .tick thread c.time c.roster.names (lent, world)
      with ⟨⟨d, world'⟩, _ | e⟩ <;> rw [hv] at hnews htells hI
    · obtain ⟨more, hmore, htells'⟩ := visits_told (L := c.tickLength) k hb hstart .after thread
        c.roster.names world' (l ++ [.asked c.time] ++ news) (k.budget d 0 hI)
      rw [← Budget.consumeAll] at hmore htells'
      refine ⟨.asked c.time :: news ++ more, ?_, ?_⟩
      · simp only [chronicled, tick, hlend, hnews, withNews, hv, hmore]
        rcases visitAll serve behave .after thread c.time c.roster.names
          ({ d with budget := d.budget.consumeAll }, world') with ⟨⟨d', world''⟩, _ | e⟩ <;>
          simp
      · simp only [tick, hlend, hv]
        rcases hw : visitAll serve behave .after thread c.time c.roster.names
          ({ d with budget := d.budget.consumeAll }, world') with ⟨⟨d', world''⟩, _ | e⟩ <;>
          rw [hw] at htells' <;> exact (hasked.append htells).tells_append htells'
    · refine ⟨.asked c.time :: news, ?_, ?_⟩
      · simp only [chronicled, tick, hlend, hnews, withNews, hv]
        simp
      · simp only [tick, hlend, hv]
        exact hasked.tells_append htells
  · rw [if_neg hf] at hlend
    refine ⟨[.asked c.time], ?_, ?_⟩
    · simp only [chronicled, tick, hlend, withNews]
    · simp only [tick, hlend]
      exact ⟨[], _, rfl, Chronicle.Clear.nil, if_neg hf⟩

end Clock

end Metronome
