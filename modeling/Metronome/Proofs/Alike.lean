-- A real-time clock and a simulated clock that are alike: they differ in
-- their pacing and in what their watchers heard, and in nothing that a tick
-- looks at. Listeners that cannot tell the pace keep the two alike.
import Metronome.Clock.Simulated
import Metronome.Proofs.Chronicle
import Metronome.Proofs.RealTime.Calls

namespace Metronome

/-! ## Listeners that cannot tell the pace -/

namespace Call

/-- Both kinds of clocks have the call and answer it in the same way. -/
def isCommon : Call → Bool
  | .consume _ | .consumeAll | .budget => true
  | .register _ | .unregister _ | .interrupt => true
  | .time | .ticking | .info => true
  | _ => false

/-- A stop or a request, which the two kinds of clocks may answer in different ways. -/
def isSteering : Call → Bool
  | .stop | .switchToRealTime | .switchToSimulated => true
  | _ => false

end Call

namespace Program

variable {σ : Type}

/-- The program makes common calls, and steers without listening to the answers. -/
def Deaf : Program σ → Prop
  | .finish _ _ => True
  | .ask call next =>
    (call.isCommon = true ∨ call.isSteering = true ∧ ∀ a b, next a = next b) ∧
      ∀ a, (next a).Deaf

theorem Deaf.asks {p : Program σ} (h : p.Deaf) : p.Asks fun call => call.isPublic = true := by
  induction p with
  | finish world verdict => trivial
  | ask call next ih =>
    refine ⟨?_, fun a => ih a (h.2 a)⟩
    rcases h.1 with hc | ⟨hc, -⟩ <;> cases call <;> first | rfl | cases hc

theorem Deaf.noting {entry : Verdict → Happening} {l : Chronicle} {p : Program σ} (h : p.Deaf) :
    (p.noting entry l).Deaf := by
  induction p with
  | finish world verdict => trivial
  | ask call next ih =>
    refine ⟨h.1.imp_right fun ⟨hs, hn⟩ => ⟨hs, ?_⟩, fun a => ih a (h.2 a)⟩
    intro a b
    exact congrArg _ (hn a b)

end Program

/-- The listeners cannot tell how their clock is paced, and on which thread they are called. -/
structure Behaviour.Paceless {σ : Type} (behave : Behaviour σ) : Prop where
  deaf : ∀ v world, (behave v world).Deaf
  thread : ∀ v t world, behave { v with thread := t } world = behave v world

namespace Behaviour.Paceless

variable {σ : Type} {behave : Behaviour σ}

theorem isPublic (h : behave.Paceless) : behave.Public := fun v world => (h.deaf v world).asks

theorem noted (h : behave.Paceless) : behave.noted.Paceless where
  deaf v world := (h.deaf v world.1).noting
  thread v t world := by
    unfold Behaviour.noted
    rw [h.thread]

end Behaviour.Paceless

/-! ## Alike clocks -/

/-- The real-time clock `c` has begun its run, and the simulated clock `s` stands where it
stands. -/
structure Alike (c : RealTimeClock) (s : SimulatedClock) : Prop where
  begun : c.pacing.stage.isInitial = false
  tickLength : s.tickLength = c.tickLength
  unit : s.unit = c.unit
  time : s.time = c.time
  ticking : s.ticking = c.ticking
  interrupted : s.interrupted = c.interrupted
  roster : s.roster = c.roster
  budget : s.budget = c.budget
  dispatching : s.dispatching = c.dispatching

namespace Alike

variable {c d : RealTimeClock} {s : SimulatedClock}

/-- What the pacing alone changes leaves a clock alike. -/
theorem of_eq (h : Alike c s) (hb : d.pacing.stage.isInitial = false)
    (hL : d.tickLength = c.tickLength) (hu : d.unit = c.unit) (ht : d.time = c.time)
    (hti : d.ticking = c.ticking) (hi : d.interrupted = c.interrupted) (hr : d.roster = c.roster)
    (hbu : d.budget = c.budget) (hd : d.dispatching = c.dispatching) : Alike d s :=
  ⟨hb, hL ▸ h.tickLength, hu ▸ h.unit, ht ▸ h.time, hti ▸ h.ticking, hi ▸ h.interrupted,
    hr ▸ h.roster, hbu ▸ h.budget, hd ▸ h.dispatching⟩

/-! ### Calls -/

/-- A steering call does the same to both, for a change of pace is none of its business. -/
theorem steer (h : Alike c s) {call : Call} (hc : call.isSteering = true) :
    Alike (RealTimeClock.serve c call).1 (SimulatedClock.serve s call).1 := by
  cases call with
  | stop =>
    simp only [RealTimeClock.serve, RealTimeClock.answer, RealTimeClock.stop_eq h.begun,
      RealTimeClock.settle, SimulatedClock.serve, SimulatedClock.answer, SimulatedClock.stop]
    by_cases ht : s.ticking = true
    · rw [if_pos ht]
      exact ⟨rfl, h.tickLength, h.unit, h.time, rfl, h.interrupted, h.roster, h.budget,
        h.dispatching⟩
    · rw [if_neg ht]
      exact ⟨rfl, h.tickLength, h.unit, h.time, Bool.eq_false_iff.mpr ht, h.interrupted,
        h.roster, h.budget, h.dispatching⟩
  | switchToRealTime =>
    simp only [RealTimeClock.serve, RealTimeClock.answer,
      RealTimeClock.switchToRealTime_begun h.begun, SimulatedClock.serve, SimulatedClock.answer]
    split
    · exact h.of_eq h.begun rfl rfl rfl rfl rfl rfl rfl rfl
    · exact h
  | switchToSimulated =>
    simp only [RealTimeClock.serve, RealTimeClock.answer,
      RealTimeClock.switchToSimulated_begun h.begun, SimulatedClock.serve, SimulatedClock.answer]
    split
    · exact h.of_eq h.begun rfl rfl rfl rfl rfl rfl rfl rfl
    · exact h
  | _ => cases hc

/-- A common call does the same to both, and both answer the same. -/
theorem reply (h : Alike c s) (phase : Phase) {call : Call} (hc : call.isCommon = true) :
    Alike (Program.reply RealTimeClock.serve phase c call).1
        (Program.reply SimulatedClock.serve phase s call).1 ∧
      (Program.reply RealTimeClock.serve phase c call).2 =
        (Program.reply SimulatedClock.serve phase s call).2 := by
  obtain ⟨hb, hL, hu, ht, hti, hi, hr, hbu, hd⟩ := h
  have same : Alike c s := ⟨hb, hL, hu, ht, hti, hi, hr, hbu, hd⟩
  unfold Program.reply
  cases call with
  | consume amount =>
    cases phase with
    | after => exact ⟨same, rfl⟩
    | tick =>
      simp only [Program.onBudget, hbu]
      rcases c.budget.consume amount with e | b
      · exact ⟨same, rfl⟩
      · exact ⟨⟨hb, hL, hu, ht, hti, hi, hr, rfl, hd⟩, rfl⟩
  | consumeAll =>
    cases phase with
    | after => exact ⟨same, rfl⟩
    | tick => exact ⟨⟨hb, hL, hu, ht, hti, hi, hr, congrArg Budget.consumeAll hbu, hd⟩, rfl⟩
  | budget => exact ⟨same, congrArg Answer.budget hbu.symm⟩
  | register x =>
    simp only [Program.onBudget, Option.getD_none, RealTimeClock.serve, RealTimeClock.answer,
      SimulatedClock.serve, SimulatedClock.answer, Clock.register, hr]
    rcases c.roster.register? x with _ | roster
    · exact ⟨same, rfl⟩
    · exact ⟨⟨hb, hL, hu, ht, hti, hi, rfl, hbu, hd⟩, rfl⟩
  | unregister x =>
    simp only [Program.onBudget, Option.getD_none, RealTimeClock.serve, RealTimeClock.answer,
      SimulatedClock.serve, SimulatedClock.answer, Clock.unregister, hr]
    rcases c.roster.unregister? x with _ | roster
    · exact ⟨same, rfl⟩
    · exact ⟨⟨hb, hL, hu, ht, hti, hi, rfl, hbu, hd⟩, rfl⟩
  | interrupt => exact ⟨⟨hb, hL, hu, ht, hti, rfl, hr, hbu, hd⟩, rfl⟩
  | time => exact ⟨same, congrArg Answer.number ht.symm⟩
  | ticking => exact ⟨same, congrArg Answer.flag hti.symm⟩
  | info => exact ⟨same, congr (congrArg Answer.info hL.symm) hu.symm⟩
  | _ => cases hc

/-! ### Ticks -/

variable {σ : Type} {behave : Behaviour σ}

theorem program (phase : Phase) {p : Program σ} (h : Alike c s) (hp : p.Deaf) :
    ∃ d t world verdict,
      Program.run RealTimeClock.serve phase p c = ((d, world), verdict) ∧
      Program.run SimulatedClock.serve phase p s = ((t, world), verdict) ∧ Alike d t := by
  induction p generalizing c s with
  | finish world verdict => exact ⟨c, s, world, verdict, rfl, rfl, h⟩
  | ask call next ih =>
    obtain ⟨hc, hnext⟩ := hp
    rcases hc with hc | ⟨hc, hdeaf⟩
    · obtain ⟨hd, ha⟩ := h.reply phase hc
      obtain ⟨d, t, world, verdict, hr, hq, hdt⟩ := ih _ hd (hnext _)
      exact ⟨d, t, world, verdict, hr, by rw [ha] at hq; exact hq, hdt⟩
    · have hreply {P : Type} (serve : Service P) (e : Clock P) :
          Program.reply serve phase e call = serve e call := by
        cases call <;> first | rfl | cases hc
      have hd := h.steer hc
      rw [← hreply RealTimeClock.serve c, ← hreply SimulatedClock.serve s] at hd
      obtain ⟨d, t, world, verdict, hr, hq, hdt⟩ := ih
        (Program.reply RealTimeClock.serve phase c call).2 hd (hnext _)
      refine ⟨d, t, world, verdict, hr, ?_, hdt⟩
      rw [hdeaf _ (Program.reply SimulatedClock.serve phase s call).2] at hq
      exact hq

theorem visits (hb : behave.Paceless) (phase : Phase) (thread : Thread) (start : Int)
    (xs : List Listener) (h : Alike c s) (world : σ) :
    ∃ d t world' e,
      Clock.visitAll RealTimeClock.serve behave phase thread start xs (c, world) =
        ((d, world'), e) ∧
      Clock.visitAll SimulatedClock.serve behave phase .caller start xs (s, world) =
        ((t, world'), e) ∧ Alike d t := by
  induction xs generalizing c s world with
  | nil => exact ⟨c, s, world, none, rfl, rfl, h⟩
  | cons x xs ih =>
    obtain ⟨d, t, world', verdict, hr, hq, hdt⟩ :=
      h.program phase (hb.deaf ⟨x, phase, c.budget, thread⟩ world)
    rw [← hb.thread _ .caller, ← h.budget] at hq
    cases he : verdict.error? start with
    | some e =>
      refine ⟨d, t, world', some e, ?_, ?_, hdt⟩
      · simp only [Clock.visitAll, hr, he]
      · simp only [Clock.visitAll, hq, he]
    | none =>
      obtain ⟨d', t', world'', e, hr', hq', hdt'⟩ := ih hdt world'
      refine ⟨d', t', world'', e, ?_, ?_, hdt'⟩
      · simp only [Clock.visitAll, hr, he, hr']
      · simp only [Clock.visitAll, hq, he, hq']

theorem lend (h : Alike c s) :
    (∃ e, c.lend = .error e ∧ s.lend = .error e) ∨
      ∃ d t, c.lend = .ok d ∧ s.lend = .ok t ∧ Alike d t := by
  have hadd : Signed.add s.time s.tickLength = Signed.add c.time c.tickLength := by
    rw [h.time, h.tickLength]
  have hreset (stop : Int) : s.budget.reset s.time stop = c.budget.reset c.time stop := by
    rw [h.budget, h.time]
  unfold Clock.lend
  rw [h.dispatching, hadd]
  by_cases hd : c.dispatching = true
  · exact .inl ⟨.reentrantTick, if_pos hd, if_pos hd⟩
  rw [if_neg hd, if_neg hd]
  rcases Signed.add c.time c.tickLength with f | stop
  · exact .inl ⟨_, rfl, rfl⟩
  simp only [hreset]
  rcases c.budget.reset c.time stop with f | budget
  · exact .inl ⟨_, rfl, rfl⟩
  · exact .inr ⟨_, _, rfl, rfl, h.begun, h.tickLength, h.unit, h.time, h.ticking, h.interrupted,
      h.roster, rfl, rfl⟩

theorem advance (h : Alike c s) : Alike c.advance.1 s.advance.1 ∧ c.advance.2 = s.advance.2 := by
  have htime : s.time + s.tickLength = c.time + c.tickLength := by rw [h.time, h.tickLength]
  unfold Clock.advance
  by_cases hi : c.interrupted = true
  · have hi' : s.interrupted = true := h.interrupted.trans hi
    simp only [hi, hi', if_true]
    exact ⟨⟨h.begun, h.tickLength, h.unit, htime, rfl, rfl, h.roster, h.budget, rfl⟩,
      by rw [h.ticking]⟩
  · have hi' : ¬ s.interrupted = true := by rwa [h.interrupted]
    rw [if_neg hi, if_neg hi']
    exact ⟨⟨h.begun, h.tickLength, h.unit, htime, h.ticking, h.interrupted, h.roster, h.budget,
      rfl⟩, rfl⟩

/-- A tick does the same to both, on whatever thread. -/
theorem tick (hb : behave.Paceless) (thread : Thread) (h : Alike c s) (world : σ) :
    ∃ d t world' r,
      Clock.tick RealTimeClock.serve behave thread (c, world) = ((d, world'), r) ∧
      Clock.tick SimulatedClock.serve behave .caller (s, world) = ((t, world'), r) ∧
      Alike d t := by
  rcases h.lend with ⟨e, hc, hs⟩ | ⟨lent, lent', hc, hs, hl⟩
  · exact ⟨c, s, world, .error e, by simp only [Clock.tick, hc], by simp only [Clock.tick, hs], h⟩
  obtain ⟨d, t, world', e, hv, hv', hdt⟩ :=
    hl.visits hb .tick thread c.time c.roster.names world
  rcases e with _ | e
  · have hspent : Alike { d with budget := d.budget.consumeAll }
        { t with budget := t.budget.consumeAll } :=
      ⟨hdt.begun, hdt.tickLength, hdt.unit, hdt.time, hdt.ticking, hdt.interrupted, hdt.roster,
        congrArg Budget.consumeAll hdt.budget, hdt.dispatching⟩
    obtain ⟨d', t', world'', e, hw, hw', hdt'⟩ :=
      hspent.visits hb .after thread c.time c.roster.names world'
    rcases e with _ | e
    · obtain ⟨hadv, hend⟩ := hdt'.advance
      refine ⟨d'.advance.1, t'.advance.1, world'', .ok d'.advance.2, ?_, ?_, hadv⟩
      · simp only [Clock.tick, hc, hv, hw]
      · simp only [Clock.tick, hs, h.time, h.roster, hv', hw', hend]
    · refine ⟨{ d' with dispatching := false }, { t' with dispatching := false }, world'',
        .error e, ?_, ?_, ?_⟩
      · simp only [Clock.tick, hc, hv, hw]
      · simp only [Clock.tick, hs, h.time, h.roster, hv', hw']
      · exact ⟨hdt'.begun, hdt'.tickLength, hdt'.unit, hdt'.time, hdt'.ticking,
          hdt'.interrupted, hdt'.roster, hdt'.budget, rfl⟩
  · refine ⟨{ d with dispatching := false }, { t with dispatching := false }, world', .error e,
      ?_, ?_, ?_⟩
    · simp only [Clock.tick, hc, hv]
    · simp only [Clock.tick, hs, h.time, h.roster, hv']
    · exact ⟨hdt.begun, hdt.tickLength, hdt.unit, hdt.time, hdt.ticking, hdt.interrupted,
        hdt.roster, hdt.budget, rfl⟩

end Alike

end Metronome
