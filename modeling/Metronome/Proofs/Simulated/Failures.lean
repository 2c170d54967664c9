-- Ticks that fail. A callback may fail in either round, by an error or by
-- giving up, after others have taken what they wanted. Its tick is lost and
-- nothing else: the clock stands where the tick began, and whoever ticks it
-- next makes the same tick again, as if it had not been tried before.
import Metronome.Proofs.Simulated.Leftovers
import Metronome.Proofs.Turns
import Metronome.Proofs.Worlds

namespace Metronome

/-- A tick that is lent out had room. -/
theorem Clock.hasRoom_of_lend {P : Type} {c lent : Clock P} (h : c.lend = .ok lent) :
    c.HasRoom := by
  unfold lend at h
  cases hd : c.dispatching with
  | true => simp [hd] at h
  | false =>
    rw [hd, if_neg Bool.false_ne_true] at h
    rcases hstop : Signed.add c.time c.tickLength with f | stop <;> rw [hstop] at h <;>
      dsimp only at h
    · cases h
    obtain ⟨hfits, rfl⟩ := Signed.keep_eq_ok.mp hstop
    unfold Budget.reset at h
    by_cases hpos : c.time < c.time + c.tickLength
    · rw [if_pos hpos] at h
      rcases hsub : Signed.sub (c.time + c.tickLength) c.time with f | length <;> rw [hsub] at h
      · cases h
      obtain ⟨hlength, -⟩ := Signed.keep_eq_ok.mp hsub
      rw [show c.time + c.tickLength - c.time = c.tickLength by omega] at hlength
      exact ⟨hd, by omega, hlength, hfits⟩
    · rw [if_neg hpos] at h
      cases h

/-- A clock at rest has the room of any clock with the same time and the same tick. -/
theorem Clock.HasRoom.of_same {P : Type} {c d : Clock P} (h : c.HasRoom)
    (hrest : d.dispatching = false) (htime : d.time = c.time)
    (hlength : d.tickLength = c.tickLength) : d.HasRoom where
  rest := hrest
  pos := hlength ▸ h.pos
  length := hlength ▸ h.length
  stop := hlength ▸ htime ▸ h.stop

namespace SimulatedClock

variable {σ : Type}

/-! ## The record of a tick -/

/-- Books that go on with other books are the same books. -/
theorem recorded_sees (behave : Behaviour σ) (l : List Deed) :
    behave.recorded.Sees (Prod.map id (l ++ ·)) behave.recorded := by
  have h (p : Program σ) (k : List Deed) (d : Deed) :
      p.recorded (l ++ k) d = (p.recorded k d).map (Prod.map id (l ++ ·)) := by
    induction p generalizing d with
    | finish world verdict => simp [Program.recorded, Program.map]
    | ask call next ih =>
      simp only [Program.recorded, Program.map]
      congr 1
      funext a
      exact ih a _
  exact fun v world => h _ _ _

/-- The listeners take their turns in a tick that has room, and the record tells of them. -/
theorem dispatch_of_room (behave : Behaviour σ) {c : SimulatedClock} (h : c.HasRoom) (world : σ)
    (l : List Deed) :
    ∃ ticks afters, Clock.TakesTurns serve behave .caller c.roster.names (c, world) ticks afters ∧
      dispatch behave.recorded (c, (world, l)) =
        withNotes (dispatch behave (c, world)) (l ++ (ticks ++ afters)) := by
  obtain ⟨ticks, afters, hturns⟩ := Clock.takesTurns serve_minds
    (fun v w => (behave v w).asks_any) .caller h world
  have hsees := Clock.tick_inWorld serve (recorded_sees behave l) .caller c (world, [])
  simp only [Prod.map, id, List.append_nil, hturns.recorded] at hsees
  exact ⟨ticks, afters, hturns, hsees⟩

/-- One tick as the record tells it: it does not begin, or the listeners take their turns. -/
theorem dispatch_recorded (behave : Behaviour σ) (c : SimulatedClock) (world : σ) (l : List Deed) :
    (∃ e, dispatch behave (c, world) = ((c, world), .error e) ∧
      dispatch behave.recorded (c, (world, l)) = ((c, (world, l)), .error e)) ∨
    ∃ ticks afters, c.HasRoom ∧
      Clock.TakesTurns serve behave .caller c.roster.names (c, world) ticks afters ∧
      dispatch behave.recorded (c, (world, l)) =
        withNotes (dispatch behave (c, world)) (l ++ (ticks ++ afters)) := by
  rcases hl : c.lend with e | lent
  · exact .inl ⟨e, by simp only [dispatch, Clock.tick, hl], by simp only [dispatch, Clock.tick, hl]⟩
  · have hroom := Clock.hasRoom_of_lend hl
    obtain ⟨ticks, afters, hturns⟩ := dispatch_of_room behave hroom world l
    exact .inr ⟨ticks, afters, hroom, hturns⟩

/-- A tick that fails leaves the clock where the tick began. -/
theorem spares_of_failed {behave : Behaviour σ} {c d : SimulatedClock} {world world' : σ}
    {e : ClockError} (h : dispatch behave (c, world) = ((d, world'), .error e)) :
    d.time = c.time ∧ d.tickLength = c.tickLength := by
  have hlent : ∀ lent, c.lend = .ok lent →
      ∃ budget, lent = { c with budget, dispatching := true } := fun lent hl => Clock.lend_ok hl
  rcases hl : c.lend with e' | lent
  · simp only [dispatch, Clock.tick, hl] at h
    cases h
    exact ⟨rfl, rfl⟩
  obtain ⟨budget, rfl⟩ := hlent lent hl
  rcases Clock.tick_cases (Spares.keeps { c with budget, dispatching := true })
      (fun v w => (behave v w).asks_any) .caller world
      (fun lent' hl' => by rw [hl] at hl'; cases hl'; exact Spares.refl _) with
    ⟨e', he', -⟩ | ⟨_, d', world'', e', -, hspares, htick⟩ | ⟨_, d', world'', -, -, htick⟩
  · rw [hl] at he'
    cases he'
  · rw [dispatch, htick] at h
    cases h
    exact ⟨hspares.time, hspares.tickLength⟩
  · rw [dispatch, htick] at h
    cases h

/-! ## The record of a run -/

/-- The clock `d` behind a tick that failed with `e`: it is idle and stands where the tick began.
The listeners on the roster took these turns, up to the first that failed. -/
structure Setback (names : List Listener) (ticks afters : List Deed) (e : ClockError)
    (d : SimulatedClock) : Prop where
  turns : Deed.Turns .caller d.time d.tickLength names ticks afters
  error : (ticks ++ afters).findSome? (fun x => x.verdict.error? d.time) = some e
  idle : d.ticking = false
  room : d.HasRoom
  roster : d.roster.names = Deed.changed names (ticks ++ afters)

/-- What a call leaves behind: nobody failed, or the last tick did, and the result is its error. -/
def Recounts (d : SimulatedClock) (result : Except ClockError Unit) (deeds : List Deed) : Prop :=
  (∀ x ∈ deeds, x.verdict = .fine) ∨
    ∃ before names ticks afters e, deeds = before ++ (ticks ++ afters) ∧
      (∀ x ∈ before, x.verdict = .fine) ∧ result = .error e ∧ Setback names ticks afters e d

variable {d : SimulatedClock} {result : Except ClockError Unit} {deeds : List Deed}

theorem Recounts.nil (d : SimulatedClock) (result : Except ClockError Unit) :
    Recounts d result [] := .inl fun x hx => by cases hx

theorem Setback.recounts {names : List Listener} {ticks afters : List Deed} {e : ClockError}
    (h : Setback names ticks afters e d) : Recounts d (.error e) (ticks ++ afters) :=
  .inr ⟨[], names, ticks, afters, e, rfl, by simp, rfl, h⟩

theorem Recounts.fine_append {before : List Deed} (hb : ∀ x ∈ before, x.verdict = .fine)
    (h : Recounts d result deeds) : Recounts d result (before ++ deeds) := by
  rcases h with hfine | ⟨before', names, ticks, afters, e, rfl, hfine, hresult, hset⟩
  · refine .inl fun x hx => ?_
    rcases List.mem_append.mp hx with hx | hx
    · exact hb x hx
    · exact hfine x hx
  · refine .inr ⟨before ++ before', names, ticks, afters, e, ?_, fun x hx => ?_, hresult, hset⟩
    · rw [List.append_assoc]
    · rcases List.mem_append.mp hx with hx | hx
      · exact hb x hx
      · exact hfine x hx

/-- The record of a tick that fails. -/
theorem setback_of_failed {behave : Behaviour σ} {c : SimulatedClock} {world world' : σ}
    {ticks afters : List Deed} {e : ClockError} (hroom : c.HasRoom)
    (hturns : Clock.TakesTurns serve behave .caller c.roster.names (c, world) ticks afters)
    (h : dispatch behave (c, world) = ((d, world'), .error e)) :
    Setback c.roster.names ticks afters e d.endTicking := by
  obtain ⟨htime, hlength⟩ := spares_of_failed h
  obtain ⟨-, hturn, hfailure, hroster, hrest⟩ := hturns
  rw [show Clock.tick serve behave .caller (c, world) = ((d, world'), .error e) from h]
    at hfailure hroster hrest
  refine ⟨?_, ?_, rfl, hroom.of_same hrest htime hlength, hroster⟩
  · show Deed.Turns .caller d.time d.tickLength c.roster.names ticks afters
    rw [htime, hlength]
    exact hturn
  · show (ticks ++ afters).findSome? (fun x => x.verdict.error? d.time) = some e
    rw [htime]
    exact hfailure.symm

/-- A run with books is the same run, and its books tell how it ends. -/
theorem run_recorded (behave : Behaviour σ) (n : Nat) (c : SimulatedClock) (world : σ)
    (l : List Deed) :
    ∃ deeds, run (dispatch behave.recorded) n (c, (world, l)) =
        withNotes (run (dispatch behave) n (c, world)) (l ++ deeds) ∧
      Recounts (run (dispatch behave) n (c, world)).1.1
        ((run (dispatch behave) n (c, world)).2.getD (.ok ())) deeds := by
  induction n generalizing c world l with
  | zero => exact ⟨[], by simp [run, withNotes], .nil _ _⟩
  | succ n ih =>
    by_cases ht : c.ticking = true
    · rcases dispatch_recorded behave c world l with
        ⟨e, hd, hrec⟩ | ⟨ticks, afters, hroom, hturns, hrec⟩
      · exact ⟨[], by simp [run, ht, hd, hrec, withNotes], .nil _ _⟩
      · have hfailure : failure? (dispatch behave (c, world)).2 = _ := hturns.failure
        rcases hd : dispatch behave (c, world) with ⟨⟨d, world'⟩, e | r⟩ <;>
          rw [hd] at hrec hfailure
        · refine ⟨ticks ++ afters, by simp [run, ht, hd, hrec, withNotes], ?_⟩
          simp only [run, ht, if_true, hd]
          exact (setback_of_failed hroom hturns hd).recounts
        · have hfine := Deed.findSome?_error?_eq_none.mp hfailure.symm
          cases r with
          | interrupted =>
            exact ⟨ticks ++ afters, by simp [run, ht, hd, hrec, withNotes], .inl hfine⟩
          | completed =>
            obtain ⟨deeds, hrun, htold⟩ := ih d world' (l ++ (ticks ++ afters))
            refine ⟨ticks ++ afters ++ deeds, ?_, ?_⟩
            · simp only [run, ht, if_true, hd, hrec, withNotes] at hrun ⊢
              rw [hrun, List.append_assoc]
            · simp only [run, ht, if_true, hd]
              exact htold.fine_append hfine
    · exact ⟨[], by simp [run, ht, withNotes], .nil _ _⟩

/-! ## The record of a call -/

theorem start_recorded (behave : Behaviour σ) (c : SimulatedClock) (world : σ) :
    ∃ deeds, start (dispatch behave.recorded) (c, (world, [])) =
        withNotes (start (dispatch behave) (c, world)) deeds ∧
      Recounts (start (dispatch behave) (c, world)).1.1 (start (dispatch behave) (c, world)).2
        deeds := by
  cases hl : launch c with
  | error e => exact ⟨[], by simp [start, hl, withNotes], .nil _ _⟩
  | ok d =>
    obtain ⟨deeds, hrun, htold⟩ := run_recorded behave (d.ticksLeft + 1) d world []
    refine ⟨deeds, by simp only [start, hl, hrun, withNotes, List.nil_append], ?_⟩
    simp only [start, hl]
    -- The end of the run is published, which changes nothing that the record speaks of.
    rcases htold with hfine | ⟨before, names, ticks, afters, e, hdeeds, hfine, hresult, hset⟩
    · exact .inl hfine
    · exact .inr ⟨before, names, ticks, afters, e, hdeeds, hfine, hresult, hset.turns, hset.error,
        hset.idle, hset.room.of_same hset.room.rest rfl rfl, hset.roster⟩

theorem single_recorded (behave : Behaviour σ) (c : SimulatedClock) (world : σ) :
    ∃ deeds, single (dispatch behave.recorded) (c, (world, [])) =
        withNotes (single (dispatch behave) (c, world)) deeds ∧
      Recounts (single (dispatch behave) (c, world)).1.1 (single (dispatch behave) (c, world)).2
        deeds := by
  by_cases ht : c.ticking = true
  · exact ⟨[], by simp [single, ht, withNotes], .nil _ _⟩
  · rcases dispatch_recorded behave c.beginTicking world [] with
      ⟨e, hd, hrec⟩ | ⟨ticks, afters, hroom, hturns, hrec⟩
    · exact ⟨[], by simp [single, ht, hd, hrec, withNotes], .nil _ _⟩
    · have hfailure : failure? (dispatch behave (c.beginTicking, world)).2 = _ := hturns.failure
      refine ⟨ticks ++ afters, by simp [single, ht, hrec, withNotes], ?_⟩
      rcases hd : dispatch behave (c.beginTicking, world) with ⟨⟨d, world'⟩, e | r⟩ <;>
        rw [hd] at hfailure <;> simp only [single, ht, Bool.false_eq_true, if_false, hd]
      · exact (setback_of_failed hroom hturns hd).recounts
      · exact .inl (Deed.findSome?_error?_eq_none.mp hfailure.symm)

/-- What the callbacks of a call from outside saw and did. -/
def record (behave : Behaviour σ) (call : Call) (st : SimulatedClock × σ) : List Deed :=
  (perform behave.recorded call (st.1, (st.2, []))).1.2.2

/-- The calls that tick. -/
def Ticks (call : Call) : Prop := call = .start ∨ call = .tick

/-- A start or a tick with books is the same call, and its books tell how it ends. -/
theorem perform_recorded (behave : Behaviour σ) (c : SimulatedClock) (world : σ) {call : Call}
    (hcall : Ticks call) :
    perform behave.recorded call (c, (world, [])) =
        withNotes (perform behave call (c, world)) (record behave call (c, world)) ∧
      ∃ result, (perform behave call (c, world)).2 = .ofExcept result ∧
        Recounts (perform behave call (c, world)).1.1 result (record behave call (c, world)) := by
  unfold record
  rcases hcall with rfl | rfl
  · obtain ⟨deeds, hrec, htold⟩ := start_recorded behave c world
    simp only [perform, answer, hrec]
    exact ⟨rfl, _, rfl, htold⟩
  · obtain ⟨deeds, hrec, htold⟩ := single_recorded behave c world
    simp only [perform, answer, hrec]
    exact ⟨rfl, _, rfl, htold⟩

/-! ## The next tick -/

/-- The record of a run begins with the turns of its first tick. -/
theorem run_first_turns (behave : Behaviour σ) (n : Nat) {c : SimulatedClock} (hroom : c.HasRoom)
    (ht : c.ticking = true) (world : σ) :
    ∃ ticks afters later,
      (run (dispatch behave.recorded) (n + 1) (c, (world, []))).1.2.2 = ticks ++ afters ++ later ∧
        Deed.Turns .caller c.time c.tickLength c.roster.names ticks afters := by
  obtain ⟨ticks, afters, hturns, hrec⟩ := dispatch_of_room behave hroom world []
  rcases hd : dispatch behave (c, world) with ⟨⟨d, world'⟩, e | _ | _⟩ <;> rw [hd] at hrec
  · exact ⟨ticks, afters, [], by simp [run, ht, hrec, withNotes], hturns.turns⟩
  · obtain ⟨deeds, hrun, -⟩ := run_recorded behave n d world' (ticks ++ afters)
    exact ⟨ticks, afters, deeds, by simp [run, ht, hrec, withNotes, hrun], hturns.turns⟩
  · exact ⟨ticks, afters, [], by simp [run, ht, hrec, withNotes], hturns.turns⟩

/-- Whoever ticks an idle clock that has room finds the whole of its tick there. -/
theorem first_turns (behave : Behaviour σ) {d : SimulatedClock} (hroom : d.HasRoom)
    (hidle : d.ticking = false) (world : σ) {next : Call} (hnext : Ticks next) :
    ∃ ticks afters later, record behave next (d, world) = ticks ++ afters ++ later ∧
      Deed.Turns .caller d.time d.tickLength d.roster.names ticks afters := by
  have hbegin : d.beginTicking = { d with ticking := true, interrupted := false } := by
    simp [Clock.beginTicking, hidle]
  rcases hnext with rfl | rfl
  · have hlaunch : launch d =
        .ok (Clock.publish { d with ticking := true, interrupted := false } .started) := by
      simp [launch, hidle, hbegin]
    obtain ⟨ticks, afters, later, hrun, hturns⟩ := run_first_turns behave d.ticksLeft
      (c := Clock.publish { d with ticking := true, interrupted := false } .started)
      (hroom.of_same hroom.rest rfl rfl) rfl world
    refine ⟨ticks, afters, later, ?_, hturns⟩
    rw [← hrun]
    simp only [record, perform, answer, start, hlaunch]
    rfl
  · obtain ⟨ticks, afters, hturns, hrec⟩ := dispatch_of_room behave
      (c := { d with ticking := true, interrupted := false })
      (hroom.of_same hroom.rest rfl rfl) world []
    refine ⟨ticks, afters, [], ?_, hturns.turns⟩
    simp [record, perform, answer, single, hidle, hbegin, hrec, withNotes]

/-- What happens to an idle clock between two ticks moves neither its time nor its tick. -/
theorem askAll_between (behave : Behaviour σ) {between : List Call}
    (hcalls : ∀ call ∈ between, ¬ Ticks call) {d : SimulatedClock} (hidle : d.ticking = false)
    (world : σ) :
    let r := askAll (perform behave) between (d, world)
    Spares d r.1.1 ∧ r.1.1.ticking = false ∧ r.1.2 = world := by
  induction between generalizing d with
  | nil => exact ⟨.refl d, hidle, rfl⟩
  | cons call between ih =>
    obtain ⟨hno, hrest⟩ := List.forall_mem_cons.mp hcalls
    have hs : call ≠ .start := fun h => hno (.inl h)
    have ht : call ≠ .tick := fun h => hno (.inr h)
    have hserve :
        perform behave call (d, world) = (((serve d call).1, world), (serve d call).2) := by
      cases call with
      | start => exact absurd rfl hs
      | tick => exact absurd rfl ht
      | stop => simp only [perform, serve, answer]; cases stop d <;> rfl
      | register x => simp only [perform, serve, answer]; cases d.register x <;> rfl
      | _ => rfl
    obtain ⟨hspares, hticking, -⟩ := serve_plain d hs ht
    have hstill : (serve d call).1.ticking = false := by
      rw [Bool.eq_false_iff]
      intro h
      rw [hticking h] at hidle
      cases hidle
    simp only [askAll, hserve]
    obtain ⟨hspares', hidle', hworld⟩ := ih hrest hstill
    exact ⟨hspares.trans hspares', hidle', hworld⟩

/-! ## The law -/

/-- A tick that fails costs nothing but itself. It leaves the clock idle at the time at which it
began. If its callback ended with an error, the answer tells of that time, and if it gave up, of its
last words. The next tick or start makes the same tick again, with the whole of its budget and with
whoever is registered by then. And nothing that comes later is different from what it would be on a
clock on which that tick was never tried, whatever is left of its budget and of an interrupt. -/
theorem a_failed_tick_costs_nothing_but_itself (behave : Behaviour σ) (c : SimulatedClock)
    (world : σ) {call : Call} (hcall : Ticks call)
    (hfailed : ∃ deed ∈ record behave call (c, world), deed.verdict ≠ .fine) :
    ∃ (d : SimulatedClock) (world' : σ) (e : ClockError) (names : List Listener)
      (before ticks afters : List Deed),
      perform behave.recorded call (c, (world, [])) =
        ((d, (world', before ++ (ticks ++ afters))), .error e) ∧
      perform behave call (c, world) = ((d, world'), .error e) ∧
      (∀ deed ∈ before, deed.verdict = .fine) ∧
      Setback names ticks afters e d ∧
      (∀ between : List Call, (∀ k ∈ between, ¬ Ticks k) → ∀ next, Ticks next →
        let st := (askAll (perform behave) between (d, world')).1
        ∃ ticks' afters' later, record behave next st = ticks' ++ afters' ++ later ∧
          Deed.Turns .caller d.time d.tickLength st.1.roster.names ticks' afters') ∧
      ∀ interrupted budget, budget.unit = d.budget.unit → ∀ calls,
        let r := askAll (perform behave) calls (d, world')
        let r' := askAll (perform behave) calls ({ d with interrupted, budget }, world')
        r'.2 = r.2 ∧ r'.1.2 = r.1.2 ∧
          ∃ interrupted' budget', r'.1.1 = { r.1.1 with
            interrupted := interrupted', budget := budget' } := by
  obtain ⟨hrec, result, hanswer, htold⟩ := perform_recorded behave c world hcall
  rcases htold with hfine | ⟨before, names, ticks, afters, e, hdeeds, hbefore, rfl, hset⟩
  · obtain ⟨deed, hdeed, hverdict⟩ := hfailed
    exact absurd (hfine deed hdeed) hverdict
  rcases hp : perform behave call (c, world) with ⟨⟨d, world'⟩, a⟩
  rw [hp] at hrec hanswer hset
  obtain rfl : a = .error e := hanswer
  rw [hdeeds] at hrec
  refine ⟨d, world', e, names, before, ticks, afters, hrec, rfl, hbefore, hset, ?_, ?_⟩
  · intro between hbetween next hnext
    obtain ⟨hspares, hidle, -⟩ := askAll_between behave hbetween hset.idle world'
    rcases hst : (askAll (perform behave) between (d, world')).1 with ⟨d', world''⟩
    rw [hst] at hspares hidle
    have hroom := hset.room.of_same (hspares.dispatching.trans hset.room.rest) hspares.time
      hspares.tickLength
    have hturns := first_turns behave hroom hidle world'' hnext
    rwa [hspares.time, hspares.tickLength] at hturns
  · intro interrupted budget hunit calls
    have htwin : Clock.Resembles False d { d with interrupted, budget } := by
      refine ⟨⟨_, _, rfl⟩, fun ht => ?_, hunit, False.elim⟩
      rw [hset.idle] at ht
      cases ht
    obtain ⟨hview, hanswers⟩ := askAll_inStep
      (fun call (_ : call ∈ calls) => perform_inStep behave.nudged_refl call)
      (d, world') ({ d with interrupted, budget }, world') ⟨htwin, rfl⟩
    exact ⟨hanswers, hview.world.symm, hview.clock.same⟩

/-- A clock behind a tick without listeners. Three have come since. -/
def crowded : SimulatedClock :=
  (askAll (perform bustle)
    ([.tick] ++ ["first", "second", "third"].map .register) (make 10 .seconds, ())).1.1

/-- A clock at time 10, and the tick of a bustle that fails in its second round, after an interrupt,
a stop and a start. -/
theorem a_failed_bustle_costs_nothing_but_itself :
    ∃ d : SimulatedClock, perform bustle .tick (crowded, ()) =
        ((d, ()), .error (.listener 10 "worn out")) ∧
      d.time = 10 ∧ d.ticking = false ∧ d.roster.names = ["first", "second", "friend"] ∧
      ∀ calls, (askAll (perform bustle) calls (d, ())).2 =
        (askAll (perform bustle) calls
          ({ d with interrupted := false, budget := .blank .seconds }, ())).2 := by
  obtain ⟨d, _, e, _, _, _, _, -, hp, -, hset, -, hlater⟩ := a_failed_tick_costs_nothing_but_itself
    bustle crowded () (.inr rfl) (by decide +kernel)
  have htold : (perform bustle .tick (crowded, ())).2 = .error (.listener 10 "worn out") := by
    decide +kernel
  have htime : (perform bustle .tick (crowded, ())).1.1.time = 10 := by decide +kernel
  have hnames : (perform bustle .tick (crowded, ())).1.1.roster.names =
      ["first", "second", "friend"] := by decide +kernel
  have hunit : (perform bustle .tick (crowded, ())).1.1.budget.unit = .seconds := by
    decide +kernel
  rw [hp] at htold htime hnames hunit
  cases htold
  refine ⟨d, hp, htime, hset.idle, hnames, fun calls => ?_⟩
  exact (hlater false (.blank .seconds) hunit.symm calls).1.symm

/-- A listener that gives up as soon as it is called. -/
def breathless : Behaviour Unit := fun _ _ => .finish () (.panicked "out of breath")

/-- A tick in which a listener gave up is not reported as an error of a listener at its time. -/
theorem giving_up_is_told_without_its_time :
    ∃ c : SimulatedClock, (make 10 .seconds).register "runner" = .ok c ∧
      (∃ deed ∈ record breathless .tick (c, ()), deed.verdict ≠ .fine) ∧
      ∀ time source, (perform breathless .tick (c, ())).2 ≠ .error (.listener time source) := by
  refine ⟨_, rfl, by decide +kernel, fun time source => ?_⟩
  have htold : (perform breathless .tick
      ({ make 10 .seconds with roster := ⟨["runner"]⟩ }, ())).2 =
        .error (.listenerPanicked "out of breath") := by decide +kernel
  exact fun h => by cases htold.symm.trans h

end SimulatedClock

end Metronome
