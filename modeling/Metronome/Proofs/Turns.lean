-- The turns of one tick. Every listener of the roster is called once with the
-- budget that the others left, and if no one failed once more without any. The
-- list of a tick is the roster at its beginning. Whom the callbacks put on the
-- roster or take off, the next tick is the first to heed.
import Metronome.Proofs.Deeds
import Metronome.Proofs.RealTime.Release
import Metronome.Proofs.Simulated.Calls

namespace Metronome

/-! ## The clocks mind their listeners -/

section Roster

variable {P : Type}

/-- A listener that is registered or refused. -/
theorem Clock.register_cases (c : Clock P) (x : Listener) :
    c.register x = .error .listenerAlreadyRegistered ∨
      c.register x = .ok { c with roster := ⟨c.roster.names ++ [x]⟩ } := by
  unfold Clock.register Roster.register?
  by_cases hx : x ∈ c.roster.names
  · simp [hx]
  · simp [hx]

theorem Clock.unregister_cases (c : Clock P) (x : Listener) :
    c.unregister x = (c, false) ∨
      c.unregister x = ({ c with roster := ⟨c.roster.names.erase x⟩ }, true) := by
  unfold Clock.unregister Roster.unregister?
  by_cases hx : x ∈ c.roster.names
  · simp [hx]
  · simp [hx]

end Roster

theorem SimulatedClock.serve_minds : Service.Minds serve fun _ => True := by
  have h (c : SimulatedClock) (call : Call) : (serve c call).1.budget = c.budget ∧
      (serve c call).1.roster.names = (call.change? (serve c call).2).toList.foldl
        Roster.Change.apply c.roster.names := by
    cases call with
    | start =>
      rw [serve_start]
      split
      · exact ⟨rfl, rfl⟩
      · unfold Clock.beginTicking
        split <;> exact ⟨rfl, rfl⟩
    | tick =>
      rw [serve_tick]
      split
      · exact ⟨rfl, rfl⟩
      · unfold Clock.beginTicking
        split <;> exact ⟨rfl, rfl⟩
    | stop =>
      simp only [serve, answer, stop]
      by_cases ht : c.ticking
      · rw [if_pos ht]
        exact ⟨rfl, rfl⟩
      · rw [if_neg ht]
        exact ⟨rfl, rfl⟩
    | register x =>
      simp only [serve, answer]
      rcases c.register_cases x with hx | hx <;> rw [hx] <;> exact ⟨rfl, rfl⟩
    | unregister x =>
      simp only [serve, answer]
      rcases c.unregister_cases x with hx | hx <;> rw [hx] <;> exact ⟨rfl, rfl⟩
    | _ => exact ⟨rfl, rfl⟩
  exact ⟨fun c call _ => (h c call).1, fun c call _ => (h c call).2⟩

namespace RealTimeClock

/-- The parts of a clock that a tick lends to its listeners. -/
structure SameHouse (c d : RealTimeClock) : Prop where
  budget : d.budget = c.budget
  roster : d.roster = c.roster

theorem SameHouse.refl (c : RealTimeClock) : SameHouse c c := ⟨rfl, rfl⟩

theorem SameHouse.trans {c d e : RealTimeClock} (h : SameHouse c d) (h' : SameHouse d e) :
    SameHouse c e := ⟨h'.budget.trans h.budget, h'.roster.trans h.roster⟩

theorem sameHouse_moveTo (c : RealTimeClock) (s : Stage) : SameHouse c (c.moveTo s) := by
  obtain ⟨feed, hm⟩ := moveTo_eq c s
  rw [hm]
  exact ⟨rfl, rfl⟩

theorem sameHouse_wish (c : RealTimeClock) (wish : Pending) (s : Stage) :
    SameHouse c (moveTo { c with pacing.pending := wish } s) := by
  have h := sameHouse_moveTo { c with pacing.pending := wish } s
  exact ⟨h.budget, h.roster⟩

/-- A run whose ticks are refused leaves the budget and the roster alone. -/
theorem sameHouse_step (leg : Leg) (c : RealTimeClock) :
    SameHouse c (step (σ := Unit) (fun _ => Clock.reentrant) leg (c, ())).1.1 := by
  have follows (leg : Leg) (r : (RealTimeClock × Unit) × Progress) (h : SameHouse c r.1.1) :
      SameHouse c (follow leg r).1.1 := by
    rcases r with ⟨⟨d, _⟩, _ | _ | e⟩
    · exact h
    · obtain ⟨e, he, hg⟩ := applyPending_ok d
      simp only [follow, he]
      exact h.trans ⟨hg.budget, hg.roster⟩
    · exact h
  cases leg with
  | choosing =>
    unfold step
    dsimp only
    split
    · split
      · rcases hs : c.schedule with f | d
        · exact .refl c
        · obtain ⟨e, he, rfl⟩ := schedule_ok hs
          rcases ensureScheduler_ok he with ⟨-, -, rfl⟩ | ⟨-, -, -, rfl, -⟩ <;> exact ⟨rfl, rfl⟩
      · exact .refl c
      · exact .refl c
    · exact .refl c
  | realTime =>
    apply follows
    unfold scheduledStep
    split
    · exact .refl c
    · exact ⟨rfl, rfl⟩
  | simulated =>
    apply follows
    unfold freeStep
    split <;> exact .refl c

theorem sameHouse_steps (n : Nat) (leg : Leg) (c : RealTimeClock) :
    SameHouse c (steps (σ := Unit) (fun _ => Clock.reentrant) n leg (c, ())).1.1 := by
  induction n generalizing leg c with
  | zero => exact .refl c
  | succ n ih =>
    have hstep := sameHouse_step leg c
    unfold steps
    rcases hs : step (σ := Unit) (fun _ => Clock.reentrant) leg (c, ()) with ⟨⟨d, _⟩, leg' | ending⟩
    · rw [hs] at hstep
      exact hstep.trans (ih leg' d)
    · rwa [hs] at hstep

theorem sameHouse_start (c : RealTimeClock) :
    SameHouse c (start (σ := Unit) (fun _ => Clock.reentrant) (c, ())).1.1 := by
  rcases hl : c.launch with e | d
  · simp only [start, hl]
    exact .refl c
  · have hd : SameHouse c d := by
      obtain ⟨pacing, rfl⟩ := launch_eq hl
      unfold Clock.beginTicking
      split <;> exact ⟨rfl, rfl⟩
    have hrun := hd.trans (sameHouse_steps d.enoughSteps .choosing d)
    have hclose (e : RealTimeClock) : SameHouse e e.conclude := by
      unfold conclude
      rw [releaseScheduler_eq]
      unfold close
      split <;> exact ⟨rfl, rfl⟩
    simp only [start, hl, runLoop]
    rcases hs : steps (σ := Unit) (fun _ => Clock.reentrant) d.enoughSteps .choosing (d, ())
      with ⟨⟨e, _⟩, leg | _ | _ | _⟩ <;> rw [hs] at hrun
    case inr.broken => exact hrun
    all_goals exact hrun.trans (hclose e)

theorem serve_minds : Service.Minds serve fun call => call.isPublic = true := by
  have h (c : RealTimeClock) (call : Call) (hp : call.isPublic = true) :
      (serve c call).1.budget = c.budget ∧
        (serve c call).1.roster.names = (call.change? (serve c call).2).toList.foldl
          Roster.Change.apply c.roster.names := by
    have same {d : RealTimeClock} {a : Answer} (hd : SameHouse c d)
        (ha : call.change? a = none) :
        d.budget = c.budget ∧
          d.roster.names = (call.change? a).toList.foldl Roster.Change.apply c.roster.names := by
      rw [ha, hd.roster]
      exact ⟨hd.budget, rfl⟩
    cases call with
    | override o => cases hp
    | start => exact same (sameHouse_start c) rfl
    | stop =>
      simp only [serve, answer]
      cases hi : c.pacing.stage.isInitial with
      | true =>
        obtain ⟨e, he⟩ := stop_initial hi
        rw [he]
        exact ⟨rfl, rfl⟩
      | false =>
        rw [stop_eq hi]
        exact ⟨rfl, rfl⟩
    | switchToRealTime =>
      simp only [serve, answer, switchToRealTime]
      split
      · exact ⟨rfl, rfl⟩
      · split
        · exact ⟨rfl, rfl⟩
        · exact same (sameHouse_wish c _ _) rfl
    | switchToSimulated =>
      simp only [serve, answer, switchToSimulated]
      split
      · exact ⟨rfl, rfl⟩
      · split
        · exact ⟨rfl, rfl⟩
        · exact same (sameHouse_wish c _ _) rfl
    | register x =>
      simp only [serve, answer]
      rcases c.register_cases x with hx | hx <;> rw [hx] <;> exact ⟨rfl, rfl⟩
    | unregister x =>
      simp only [serve, answer]
      rcases c.unregister_cases x with hx | hx <;> rw [hx] <;> exact ⟨rfl, rfl⟩
    | jitter =>
      simp only [serve, answer, jitter]
      split <;> exact same ⟨rfl, rfl⟩ rfl
    | _ => exact ⟨rfl, rfl⟩
  exact ⟨fun c call hp => (h c call hp).1, fun c call hp => (h c call hp).2⟩

end RealTimeClock

/-! ## The turns of a tick -/

/-- A clock at rest whose time has room for one more tick. -/
structure Clock.HasRoom {P : Type} (c : Clock P) : Prop where
  rest : c.dispatching = false
  pos : 0 < c.tickLength
  length : Signed.Fits c.tickLength
  stop : Signed.Fits (c.time + c.tickLength)

/-- The deeds of one tick of this length that began at this time on this roster. -/
structure Deed.Turns (thread : Thread) (start length : Int) (names : List Listener)
    (ticks afters : List Deed) : Prop where
  first : InTurn .tick names ticks
  again : (∀ d ∈ ticks, d.verdict = .fine) → InTurn .after names afters
  broken : (∃ d ∈ ticks, d.verdict ≠ .fine) → afters = []
  lapse : ∀ d ∈ ticks ++ afters,
    d.visit.thread = thread ∧ d.visit.budget.start = start ∧ d.visit.budget.stop = start + length
  shares : ∀ before d after, ticks = before ++ d :: after →
    d.visit.budget.left = length - spent before ∧
      0 ≤ d.visit.budget.left ∧ d.visit.budget.left ≤ length
  exhausted : ∀ d ∈ afters, d.visit.budget.left = 0
  taken : ∀ d ∈ ticks ++ afters, ∀ n ∈ d.taken, 0 ≤ n

section Tick

variable {P σ : Type} {serve : Service P} {allowed : Call → Prop} {behave : Behaviour σ}

/-- One tick with books is the same tick, and its books hold the turns of the roster. They tell
why the tick failed, if it did, and what it made of the roster. -/
structure Clock.TakesTurns (serve : Service P) (behave : Behaviour σ) (thread : Thread)
    (names : List Listener) (st : Clock P × σ) (ticks afters : List Deed) : Prop where
  recorded : tick serve behave.recorded thread (st.1, (st.2, [])) =
    withNotes (tick serve behave thread st) (ticks ++ afters)
  turns : Deed.Turns thread st.1.time st.1.tickLength names ticks afters
  failure : failure? (tick serve behave thread st).2 =
    (ticks ++ afters).findSome? fun d => d.verdict.error? st.1.time
  roster : (tick serve behave thread st).1.1.roster.names = Deed.changed names (ticks ++ afters)
  rest : (tick serve behave thread st).1.1.dispatching = false

namespace Deed

variable {thread : Thread} {c b e : Clock P} {ticks afters l : List Deed}

theorem spent_nonneg (h : ∀ d ∈ l, ∀ n ∈ d.taken, 0 ≤ n) : 0 ≤ spent l := by
  refine together_nonneg fun n hn => ?_
  obtain ⟨d, hd, hn⟩ := List.mem_flatMap.mp hn
  exact h d hd n hn

theorem findSome?_error?_eq_none {start : Int} :
    l.findSome? (fun d => d.verdict.error? start) = none ↔ ∀ d ∈ l, d.verdict = .fine := by
  rw [List.findSome?_eq_none_iff]
  refine forall₂_congr fun d _ => ?_
  cases d.verdict <;> simp [Verdict.error?]

/-- Where there is an error, someone failed. -/
theorem exists_of_findSome?_error? {start : Int} {e : ClockError}
    (h : l.findSome? (fun d => d.verdict.error? start) = some e) :
    ∃ d ∈ l, d.verdict ≠ .fine := by
  obtain ⟨d, hd, he⟩ := List.exists_of_findSome?_eq_some h
  refine ⟨d, hd, fun hfine => ?_⟩
  rw [hfine] at he
  cases he

/-- What every callback of a round finds. -/
theorem Leads.visit_mem {phase : Phase} (h : Leads phase thread c l e) {d : Deed} (hd : d ∈ l) :
    d.visit.thread = thread ∧ d.visit.budget.start = c.budget.start ∧
      d.visit.budget.stop = c.budget.stop := by
  obtain ⟨before, after, rfl⟩ := List.append_of_mem hd
  obtain ⟨hthread, hbudget, -⟩ := h.visit before d after rfl
  rw [hbudget]
  exact ⟨hthread, rfl, rfl⟩

/-- What callbacks find that took nothing. -/
theorem Leads.left_of_after (h : Leads .after thread c l e) {d : Deed} (hd : d ∈ l) :
    d.visit.budget.left = c.budget.left := by
  obtain ⟨before, after, rfl⟩ := List.append_of_mem hd
  have hnone : before.flatMap (·.taken) = [] := by
    refine List.flatMap_eq_nil_iff.mpr fun d' hd' => (h.taken d' ?_).2 rfl
    exact List.mem_append_left _ hd'
  have hspent : spent before = 0 := by rw [spent, hnone, together_nil]
  rw [(h.visit before d after rfl).2.1, hspent, Int.sub_zero]

/-- The shares of the first round. -/
theorem Leads.shares (h : Leads .tick thread c l e) {before after : List Deed} {d : Deed}
    (hl : l = before ++ d :: after) : d.visit.budget.left = c.budget.left - spent before ∧
      0 ≤ d.visit.budget.left ∧ d.visit.budget.left ≤ c.budget.left := by
  obtain ⟨-, hbudget, hleft⟩ := h.visit before d after hl
  have hspent : 0 ≤ spent before := by
    refine spent_nonneg fun d' hd' => (h.taken d' ?_).1
    rw [hl]
    exact List.mem_append_left _ hd'
  have hshare : d.visit.budget.left = c.budget.left - spent before := by rw [hbudget]
  exact ⟨hshare, hleft, by omega⟩

end Deed

namespace Clock

theorem advance_roster (c : Clock P) : c.advance.1.roster = c.roster := by
  unfold advance
  dsimp only
  split <;> rfl

/-- A clock that has room lends out the whole of its tick. -/
theorem HasRoom.lend {c : Clock P} (h : c.HasRoom) :
    ∃ lent : Clock P, c.lend = .ok lent ∧
      lent.budget = ⟨c.time, c.time + c.tickLength, c.tickLength, c.budget.unit⟩ ∧
      lent.roster = c.roster :=
  ⟨_, lend_of_fits h.rest h.pos h.length h.stop, rfl, rfl⟩

/-- A tick that fits takes its turns, on every clock that minds its listeners. -/
theorem takesTurns (hm : serve.Minds allowed) (hb : behave.Asks allowed) (thread : Thread)
    {c : Clock P} (h : c.HasRoom) (world : σ) :
    ∃ ticks afters, TakesTurns serve behave thread c.roster.names (c, world) ticks afters := by
  obtain ⟨lent, hl, hlent, hroster⟩ := h.lend
  have hnonneg : 0 ≤ lent.budget.left := by
    rw [hlent]
    exact Int.le_of_lt h.pos
  obtain ⟨ticks, hrec, hturn, herror, hleads⟩ :=
    visitAll_recorded hm hb .tick thread c.time c.roster.names [] world hnonneg
  have hshares {before after : List Deed} {d : Deed} (hl : ticks = before ++ d :: after) :
      d.visit.budget.left = c.tickLength - Deed.spent before ∧
        0 ≤ d.visit.budget.left ∧ d.visit.budget.left ≤ c.tickLength := by
    have hshare := hleads.shares hl
    rwa [hlent] at hshare
  have hlapse (d : Deed) (hd : d ∈ ticks) : d.visit.thread = thread ∧
      d.visit.budget.start = c.time ∧ d.visit.budget.stop = c.time + c.tickLength := by
    have hvisit := hleads.visit_mem hd
    rwa [hlent] at hvisit
  have hnames := hleads.names
  rw [hroster] at hnames
  rcases hv : visitAll serve behave .tick thread c.time c.roster.names (lent, world)
    with ⟨⟨d, world'⟩, _ | e⟩ <;>
    simp only [hv, withNotes, List.nil_append] at hrec herror hleads hnames
  case some =>
    have hbroken := Deed.exists_of_findSome?_error? herror.symm
    refine ⟨ticks, [], ?_, ⟨hturn, ?_, fun _ => rfl, ?_, fun _ _ _ => hshares, by simp, ?_⟩,
      ?_, ?_, ?_⟩
    · simp only [tick, hl, hrec, hv, withNotes, List.append_nil]
    · intro hfine
      obtain ⟨d', hd', hne⟩ := hbroken
      exact absurd (hfine d' hd') hne
    · simpa using hlapse
    · simpa using fun d' hd' => (hleads.taken d' hd').1
    · simpa only [tick, hl, hv, failure?, List.append_nil] using herror
    · simpa only [tick, hl, hv, List.append_nil] using hnames
    · simp only [tick, hl, hv]
  case none =>
    have hfine := Deed.findSome?_error?_eq_none.mp herror.symm
    let spent : Clock P := { d with budget := d.budget.consumeAll }
    have hbudget : spent.budget =
        ⟨c.time, c.time + c.tickLength, 0, c.budget.unit⟩ := by
      simp only [spent, Budget.consumeAll, hleads.budget, hlent]
    obtain ⟨afters, hrec', hturn', herror', hleads'⟩ :=
      visitAll_recorded hm hb .after thread c.time c.roster.names ticks world'
        (show 0 ≤ spent.budget.left from Int.le_of_eq (by rw [hbudget]))
    have hlapse' (d : Deed) (hd : d ∈ afters) : d.visit.thread = thread ∧
        d.visit.budget.start = c.time ∧ d.visit.budget.stop = c.time + c.tickLength := by
      have hvisit := hleads'.visit_mem hd
      rwa [hbudget] at hvisit
    have hnames' := hleads'.names
    rw [show spent.roster = d.roster from rfl, hnames, ← Deed.changed_append] at hnames'
    have hnone : ticks.findSome? (fun d => d.verdict.error? c.time) = none := herror.symm
    rcases hw : visitAll serve behave .after thread c.time c.roster.names (spent, world')
      with ⟨⟨d', world''⟩, r⟩
    simp only [spent] at hw
    simp only [spent, hw, withNotes] at hrec' herror' hnames'
    refine ⟨ticks, afters, ?_, ⟨hturn, fun _ => hturn', ?_, ?_, fun _ _ _ => hshares, ?_, ?_⟩,
      ?_, ?_, ?_⟩
    · cases r <;> simp only [tick, hl, hrec, hv, hrec', hw, withNotes]
    · rintro ⟨d', hd', hne⟩
      exact absurd (hfine d' hd') hne
    · simp only [List.mem_append]
      rintro d' (hd' | hd')
      · exact hlapse d' hd'
      · exact hlapse' d' hd'
    · intro d' hd'
      rw [hleads'.left_of_after hd', hbudget]
    · simp only [List.mem_append]
      rintro d' (hd' | hd')
      · exact (hleads.taken d' hd').1
      · exact (hleads'.taken d' hd').1
    · cases r <;>
        simp only [tick, hl, hv, hw, failure?, List.findSome?_append, hnone, Option.none_or,
          ← herror']
    · cases r <;> simp only [tick, hl, hv, hw, advance_roster, hnames']
    · cases r <;> simp only [tick, hl, hv, hw, (advance_moved _).dispatching]

end Clock

end Tick

/-! ## Everyone has a turn -/

/-- One tick, and another one right after it. -/
def Clock.TurnsTwice {P σ : Type} (serve : Service P) (behave : Behaviour σ) (thread : Thread)
    (st : Clock P × σ) (ticks afters : List Deed) : Prop :=
  TakesTurns serve behave thread st.1.roster.names st ticks afters ∧
    ((tick serve behave thread st).1.1.HasRoom → ∃ ticks' afters',
      TakesTurns serve behave thread (Deed.changed st.1.roster.names (ticks ++ afters))
        (tick serve behave thread st).1 ticks' afters')

theorem Clock.turnsTwice {P σ : Type} {serve : Service P} {allowed : Call → Prop}
    (hm : serve.Minds allowed) {behave : Behaviour σ} (hb : behave.Asks allowed) (thread : Thread)
    {c : Clock P} (h : c.HasRoom) (world : σ) :
    ∃ ticks afters, TurnsTwice serve behave thread (c, world) ticks afters := by
  obtain ⟨ticks, afters, hturns⟩ := takesTurns hm hb thread h world
  refine ⟨ticks, afters, hturns, fun hroom => ?_⟩
  obtain ⟨ticks', afters', hturns'⟩ := takesTurns hm hb thread hroom
    (tick serve behave thread (c, world)).1.2
  rw [hturns.roster] at hturns'
  exact ⟨ticks', afters', hturns'⟩

/-- On both clocks, a tick calls the listeners of its beginning in their order, up to the first
that fails. They share the budget, and they are called again if no one failed. What they change
in the roster is for the next tick. -/
theorem every_listener_has_its_turn {σ : Type} (behave : Behaviour σ) (world : σ) :
    (∀ c : SimulatedClock, c.HasRoom → ∃ ticks afters,
      Clock.TurnsTwice SimulatedClock.serve behave .caller (c, world) ticks afters) ∧
    (behave.Public → ∀ (thread : Thread) (c : RealTimeClock), c.HasRoom → ∃ ticks afters,
      Clock.TurnsTwice RealTimeClock.serve behave thread (c, world) ticks afters) :=
  ⟨fun _ h =>
      Clock.turnsTwice SimulatedClock.serve_minds (fun v w => (behave v w).asks_any) _ h world,
    fun hb thread _ h => Clock.turnsTwice RealTimeClock.serve_minds hb thread h world⟩

/-- A callback that makes these calls, whatever it is answered. -/
def Program.making (calls : List Call) (verdict : Verdict) : Program Unit :=
  calls.foldr (fun call p => .ask call fun _ => p) (.finish () verdict)

/-- One listener brings a friend and takes 3, the next one sends the third away and asks for too
much, and the third takes the rest and fails at its second call. -/
def bustle : Behaviour Unit := fun v _ =>
  match v.listener, v.phase with
  | "first", .tick => .making [.consume 3, .register "friend", .register "first"] .fine
  | "second", .tick => .making [.unregister "third", .consume 100, .interrupt] .fine
  | "third", .tick => .making [.consume 1, .consumeAll, .stop] .fine
  | "third", .after => .making [.consume 1, .start] (.failed "worn out")
  | _, _ => .making [] .fine

theorem bustle_public : bustle.Public := by
  intro v _
  unfold bustle
  split <;> simp [Program.making, Program.Asks, Call.isPublic]

/-- A clock with three listeners before its first tick, which is 10 long. -/
def bustling {P : Type} (pacing : P) : Clock P :=
  { tickLength := 10, unit := .seconds, ticking := true
    roster := ⟨["first", "second", "third"]⟩, pacing }

theorem bustling_hasRoom {P : Type} (pacing : P) : (bustling pacing).HasRoom where
  rest := rfl
  pos := show (0 : Int) < 10 by decide
  length := show Signed.Fits 10 by decide
  stop := show Signed.Fits (0 + 10) by decide

theorem every_listener_has_its_turn_in_a_bustle :
    (∃ ticks afters,
      Clock.TurnsTwice SimulatedClock.serve bustle .caller (bustling (), ()) ticks afters ∧
      (ticks ++ afters).map (fun d => (d.visit.listener, d.visit.phase, d.visit.budget.left)) =
        [("first", .tick, 10), ("second", .tick, 7), ("third", .tick, 7),
          ("first", .after, 0), ("second", .after, 0), ("third", .after, 0)] ∧
      Deed.changed ["first", "second", "third"] (ticks ++ afters) = ["first", "second", "friend"]) ∧
    ∃ ticks afters, Clock.TurnsTwice RealTimeClock.serve bustle .scheduler
      (bustling RealTimeClock.plain.pacing, ()) ticks afters := by
  constructor
  · obtain ⟨ticks, afters, h⟩ := (every_listener_has_its_turn bustle ()).1 _ (bustling_hasRoom ())
    have hbooks : (Clock.tick SimulatedClock.serve bustle.recorded .caller
        (bustling (), ((), []))).1.2.2 = ticks ++ afters := by rw [h.1.recorded]; rfl
    refine ⟨ticks, afters, h, ?_, ?_⟩ <;> rw [← hbooks] <;> decide +kernel
  · exact (every_listener_has_its_turn bustle ()).2 bustle_public .scheduler _ (bustling_hasRoom _)

end Metronome
