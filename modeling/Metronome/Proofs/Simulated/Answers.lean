-- Step by step or in one go, a simulated clock gives the same answers. The
-- steps of a call from outside lead to where the call leaves the clock and the
-- world, at any depth of calls from inside.
import Metronome.Proofs.Simulated.Calls
import Metronome.Proofs.Simulated.Machine
import Metronome.Proofs.RealTime.Run

namespace Metronome

namespace SimulatedClock

namespace Machine

variable {σ : Type} {behave : Behaviour σ} {c : SimulatedClock} {world : σ}
  {stack : List (Frame σ)} {answers : List Answer}

/-! ## Machines without their books -/

/-- What the steps of a machine depend on, and the answers given so far. -/
structure View (σ : Type) where
  clock : SimulatedClock
  world : σ
  stack : List (Frame σ)
  doing : Doing σ
  answers : List Answer

def view (s : Machine σ) : View σ := ⟨s.clock, s.world, s.stack, s.doing, s.answers⟩

/-- A machine that looks like this and has the books of another. -/
def View.withBooks (v : View σ) (s : Machine σ) : Machine σ :=
  { s with
    clock := v.clock
    world := v.world
    stack := v.stack
    doing := v.doing
    answers := v.answers }

theorem withBooks_view (s : Machine σ) : s.view.withBooks s = s := rfl

/-- Whatever its books say, a machine that looks like the one comes to look like the other. -/
def Becomes (behave : Behaviour σ) (v w : View σ) : Prop :=
  ∀ s : Machine σ, s.view = v → ∃ t, Leads behave s t ∧ t.view = w

namespace Becomes

variable {u v w : View σ}

theorem refl (v : View σ) : Becomes behave v v := fun s hs => ⟨s, .refl, hs⟩

theorem trans (h : Becomes behave u v) (h' : Becomes behave v w) : Becomes behave u w := by
  intro s hs
  obtain ⟨t, hst, ht⟩ := h s hs
  obtain ⟨t', htt', ht'⟩ := h' t ht
  exact ⟨t', hst.trans htt', ht'⟩

theorem one (h : ∀ s : Machine σ, ∃ t, (v.withBooks s).step behave = some t ∧ t.view = w) :
    Becomes behave v w := by
  rintro s rfl
  obtain ⟨t, hst, ht⟩ := h s
  exact ⟨t, .single hst, ht⟩

end Becomes

/-! ## Starts and ticks -/

theorem becomes_refused (h : c.ticking = true) {call : Call}
    (hcall : call = .start ∨ call = .tick) :
    Becomes behave ⟨c, world, stack, .asking call, answers⟩
      ⟨c, world, stack, .answering (.error .alreadyRunning), answers⟩ := by
  apply Becomes.one
  intro s
  rcases hcall with rfl | rfl
  · exact ⟨_, rfl, by simp [ask, askStart, answer, view, View.withBooks, h]⟩
  · exact ⟨_, rfl, by simp [ask, askTick, answer, view, View.withBooks, h]⟩

/-- A run is made of whatever comes after its start, whichever number it has. -/
theorem becomes_started {w : View σ} (h : c.ticking = false)
    (hrun : ∀ k, Becomes behave
      ⟨c.beginTicking.publish .started, world, .run k :: stack, .looping, answers⟩ w) :
    Becomes behave ⟨c, world, stack, .asking .start, answers⟩ w := by
  intro s hs
  have hasked : ∃ t, s.step behave = some t ∧ t.view =
      ⟨c.beginTicking.publish .started, world, .run s.starts :: stack, .looping, answers⟩ := by
    rw [← withBooks_view s, hs]
    exact ⟨_, rfl, by simp [ask, askStart, publish, view, View.withBooks, h]⟩
  obtain ⟨t, hst, ht⟩ := hasked
  obtain ⟨t', htt', ht'⟩ := hrun s.starts t ht
  exact ⟨t', .head hst htt', ht'⟩

theorem becomes_single (h : c.ticking = false) :
    Becomes behave ⟨c, world, stack, .asking .tick, answers⟩
      ⟨c.beginTicking, world, .single :: stack, .knocking, answers⟩ := by
  apply Becomes.one
  intro s
  exact ⟨_, rfl, by simp [ask, askTick, view, View.withBooks, h]⟩

theorem becomes_singled (result : Except ClockError TickEnd) :
    Becomes behave ⟨c, world, .single :: stack, .ticked result, answers⟩
      ⟨c.endTicking, world, stack, .answering (.ofExcept (result.map fun _ => ())), answers⟩ := by
  apply Becomes.one
  intro s
  exact ⟨_, rfl, rfl⟩

theorem becomes_plain {call : Call} (hs : call ≠ .start) (ht : call ≠ .tick) :
    Becomes behave ⟨c, world, stack, .asking call, answers⟩
      ⟨(serve c call).1, world, stack, .answering (serve c call).2, answers⟩ := by
  apply Becomes.one
  intro s
  cases call with
  | start => exact absurd rfl hs
  | tick => exact absurd rfl ht
  | _ => exact ⟨_, rfl, rfl⟩

theorem becomes_knocking (h : c.ticking = true) (k : Nat) :
    Becomes behave ⟨c, world, .run k :: stack, .looping, answers⟩
      ⟨c, world, .run k :: stack, .knocking, answers⟩ :=
  Becomes.one fun _ => ⟨_, if_pos h, rfl⟩

theorem becomes_stopped (h : ¬ c.ticking = true) (k : Nat) :
    Becomes behave ⟨c, world, .run k :: stack, .looping, answers⟩
      ⟨c.publish .stopped, world, stack, .answering .done, answers⟩ :=
  Becomes.one fun _ => ⟨_, if_neg h, rfl⟩

/-- What a run does about a tick that is over. -/
theorem becomes_settled (k : Nat) (result : Except ClockError TickEnd) :
    Becomes behave ⟨c, world, .run k :: stack, .ticked result, answers⟩
      (match result with
      | .ok .completed => ⟨c, world, .run k :: stack, .looping, answers⟩
      | .ok .interrupted => ⟨c.publish .stopped, world, stack, .answering .done, answers⟩
      | .error e =>
        ⟨c.endTicking.publish .stopped, world, stack, .answering (.error e), answers⟩) := by
  apply Becomes.one
  intro s
  rcases result with e | _ | _ <;> exact ⟨_, rfl, rfl⟩

/-! ## Calls from inside a tick -/

/-- A tick that finds the budget lent out is over at once. -/
theorem becomes_reentrant (hd : c.dispatching = true) :
    Becomes behave ⟨c, world, stack, .knocking, answers⟩
      ⟨c, world, stack, .ticked (.error .reentrantTick), answers⟩ := by
  apply Becomes.one
  have hlend : c.lend = .error .reentrantTick := by simp [Clock.lend, hd]
  intro s
  exact ⟨_, rfl, by simp [knock, hlend, view, View.withBooks]⟩

/-- A callback that calls its clock gets the answer of the service, though its call tries to tick
like any other. -/
theorem becomes_served (call : Call) (hd : c.dispatching = true) :
    Becomes behave ⟨c, world, stack, .asking call, answers⟩
      ⟨(serve c call).1, world, stack, .answering (serve c call).2, answers⟩ := by
  have hbegun : c.beginTicking.dispatching = true := by
    rw [(spares_beginTicking c).dispatching]
    exact hd
  by_cases hs : call = .start
  · subst hs
    rw [serve_start]
    cases h : c.ticking with
    | true => exact becomes_refused h (.inl rfl)
    | false =>
      apply becomes_started h
      intro k
      have hon : (c.beginTicking.publish .started).ticking = true := beginTicking_ticking c
      have hlent : (c.beginTicking.publish .started).dispatching = true := hbegun
      exact (becomes_knocking hon k).trans ((becomes_reentrant hlent).trans (becomes_settled k _))
  by_cases ht : call = .tick
  · subst ht
    rw [serve_tick]
    cases h : c.ticking with
    | true => exact becomes_refused h (.inr rfl)
    | false =>
      exact (becomes_single h).trans ((becomes_reentrant hbegun).trans (becomes_singled _))
  exact becomes_plain hs ht

/-! ## Callbacks -/

/-- What comes of a tick after its callback, or after all of them: it goes on, or it is over. -/
def afterwards (st : SimulatedClock × σ) (failed : Option ClockError) (r : Round)
    (stack : List (Frame σ)) (answers : List Answer) : View σ :=
  match failed with
  | none => ⟨st.1, st.2, stack, .visiting r, answers⟩
  | some e => ⟨{ st.1 with dispatching := false }, st.2, stack, .ticked (.error e), answers⟩

theorem becomes_replied (r : Round) (next : Answer → Program σ) (a : Answer) :
    Becomes behave ⟨c, world, .callback r next :: stack, .answering a, answers⟩
      ⟨c, world, stack, .inside r (next a), answers⟩ := by
  apply Becomes.one
  intro s
  exact ⟨_, rfl, rfl⟩

/-- A callback runs to its end. -/
theorem becomes_run (r : Round) (p : Program σ) (hd : c.dispatching = true) :
    Becomes behave ⟨c, world, stack, .inside r p, answers⟩
      (afterwards (Program.run serve r.phase p c).1
        ((Program.run serve r.phase p c).2.error? r.start) r stack answers) := by
  induction p generalizing c with
  | finish world' verdict =>
    apply Becomes.one
    intro s
    cases hv : verdict.error? r.start <;>
      exact ⟨_, rfl, by simp [goOn, afterwards, Program.run, view, View.withBooks, hv]⟩
  | ask call next ih =>
    simp only [Program.run]
    have hasked : Becomes behave ⟨c, world, stack, .inside r (.ask call next), answers⟩
        ⟨(Program.reply serve r.phase c call).1, world, stack,
          .inside r (next (Program.reply serve r.phase c call).2), answers⟩ := by
      unfold Program.reply
      cases hc : Program.onBudget r.phase c call with
      | some answered =>
        apply Becomes.one
        intro s
        exact ⟨_, rfl, by simp [goOn, hc, view, View.withBooks]⟩
      | none =>
        have hcalled : Becomes behave ⟨c, world, stack, .inside r (.ask call next), answers⟩
            ⟨c, world, .callback r next :: stack, .asking call, answers⟩ := by
          apply Becomes.one
          intro s
          exact ⟨_, rfl, by simp [goOn, hc, view, View.withBooks]⟩
        exact hcalled.trans ((becomes_served call hd).trans (becomes_replied r next _))
    have hspares : Spares c (Program.reply serve r.phase c call).1 :=
      (Spares.keeps c).reply trivial ⟨rfl, rfl, rfl⟩
    exact hasked.trans (ih _ (hspares.dispatching.trans hd))

/-- The callbacks of one phase, one after another. -/
theorem becomes_visited (r : Round) (hd : c.dispatching = true) :
    Becomes behave ⟨c, world, stack, .visiting r, answers⟩
      (afterwards (Clock.visitAll serve behave r.phase .caller r.start r.rest (c, world)).1
        (Clock.visitAll serve behave r.phase .caller r.start r.rest (c, world)).2
        { r with rest := [] } stack answers) := by
  obtain ⟨phase, start, names, rest⟩ := r
  induction rest generalizing c world with
  | nil => exact .refl _
  | cons x rest ih =>
    have hbegun : Becomes behave
        ⟨c, world, stack, .visiting ⟨phase, start, names, x :: rest⟩, answers⟩
        ⟨c, world, stack, .inside ⟨phase, start, names, rest⟩
          (behave ⟨x, phase, c.budget, .caller⟩ world), answers⟩ :=
      Becomes.one fun _ => ⟨_, rfl, rfl⟩
    refine hbegun.trans ((becomes_run _ _ hd).trans ?_)
    simp only [Clock.visitAll]
    generalize behave ⟨x, phase, c.budget, .caller⟩ world = p
    have hspares := (Spares.keeps c).program phase p.asks_any ⟨rfl, rfl, rfl⟩
    generalize Program.run serve phase p c = result at hspares
    obtain ⟨⟨d, world'⟩, verdict⟩ := result
    cases hv : verdict.error? start with
    | none => exact ih (hspares.dispatching.trans hd)
    | some e => exact .refl _

/-! ## Ticks -/

/-- A tick that is over. -/
def ended (result : (SimulatedClock × σ) × Except ClockError TickEnd) (stack : List (Frame σ))
    (answers : List Answer) : View σ :=
  ⟨result.1.1, result.1.2, stack, .ticked result.2, answers⟩

/-- A tick is what its callbacks make of it, one after another. -/
theorem becomes_ended :
    Becomes behave ⟨c, world, stack, .knocking, answers⟩
      (ended (dispatch behave (c, world)) stack answers) := by
  cases hlend : c.lend with
  | error e =>
    have htick : dispatch behave (c, world) = ((c, world), .error e) := by
      simp only [dispatch, Clock.tick, hlend]
    rw [htick]
    exact Becomes.one fun _ => ⟨_, rfl, by simp [knock, hlend, view, View.withBooks, ended]⟩
  | ok lent =>
    have hlent : Becomes behave ⟨c, world, stack, .knocking, answers⟩
        ⟨lent, world, stack, .visiting ⟨.tick, c.time, c.roster.names, c.roster.names⟩, answers⟩ :=
      Becomes.one fun _ => ⟨_, rfl, by simp [knock, hlend, view, View.withBooks]⟩
    have hd : lent.dispatching = true := by
      obtain ⟨budget, rfl⟩ := Clock.lend_ok hlend
      rfl
    refine hlent.trans ((becomes_visited _ hd).trans ?_)
    have hspares := (Spares.keeps lent).visits (fun v world => (behave v world).asks_any) .tick
      .caller c.time c.roster.names world ⟨rfl, rfl, rfl⟩
    dsimp only
    rcases hvisit : Clock.visitAll serve behave .tick .caller c.time c.roster.names (lent, world)
      with ⟨⟨d, world'⟩, _ | e⟩ <;> rw [hvisit] at hspares
    · have hspent : Becomes behave
          ⟨d, world', stack, .visiting ⟨.tick, c.time, c.roster.names, []⟩, answers⟩
          ⟨{ d with budget := d.budget.consumeAll }, world', stack,
            .visiting ⟨.after, c.time, c.roster.names, c.roster.names⟩, answers⟩ :=
        Becomes.one fun _ => ⟨_, rfl, rfl⟩
      have hd' : { d with budget := d.budget.consumeAll }.dispatching = true :=
        hspares.dispatching.trans hd
      refine hspent.trans ((becomes_visited _ hd').trans ?_)
      dsimp only
      rcases hafter : Clock.visitAll serve behave .after .caller c.time c.roster.names
        ({ d with budget := d.budget.consumeAll }, world') with ⟨⟨d', world''⟩, _ | e⟩
      · have htick : dispatch behave (c, world) = ((d'.advance.1, world''), .ok d'.advance.2) := by
          simp only [dispatch, Clock.tick, hlend, hvisit, hafter]
        rw [htick]
        exact Becomes.one fun _ => ⟨_, rfl, rfl⟩
      · have htick : dispatch behave (c, world) =
            (({ d' with dispatching := false }, world''), .error e) := by
          simp only [dispatch, Clock.tick, hlend, hvisit, hafter]
        rw [htick]
        exact .refl _
    · have htick : dispatch behave (c, world) =
          (({ d with dispatching := false }, world'), .error e) := by
        simp only [dispatch, Clock.tick, hlend, hvisit]
      rw [htick]
      exact .refl _

/-! ## Runs -/

/-- A run is what its ticks make of it, one after another. -/
theorem becomes_concluded {n : Nat} (k : Nat) {d : SimulatedClock} {world' : σ}
    {result : Except ClockError Unit}
    (h : run (dispatch behave) n (c, world) = ((d, world'), some result)) :
    Becomes behave ⟨c, world, .run k :: stack, .looping, answers⟩
      ⟨d.publish .stopped, world', stack, .answering (.ofExcept result), answers⟩ := by
  induction n generalizing c world with
  | zero => cases h
  | succ n ih =>
    unfold run at h
    by_cases hon : c.ticking = true
    · rw [if_pos hon] at h
      refine (becomes_knocking hon k).trans (becomes_ended.trans ?_)
      rcases htick : dispatch behave (c, world) with ⟨⟨d', world''⟩, e | _ | _⟩ <;>
        rw [htick] at h <;> dsimp only at h
      · cases h
        exact becomes_settled k _
      · exact (becomes_settled k _).trans (ih h)
      · cases h
        exact becomes_settled k _
    · rw [if_neg hon] at h
      cases h
      exact becomes_stopped hon k

end Machine

/-! ## Ends of runs -/

variable {σ : Type} {behave : Behaviour σ} {c : SimulatedClock} {world : σ}

/-- A tick that comes to its end moves the time and leaves the budget free. -/
theorem dispatch_moved (hfree : c.dispatching = false) (hL : 0 < c.tickLength) (ht : 0 ≤ c.time)
    {d : SimulatedClock} {world' : σ} {o : TickEnd}
    (h : dispatch behave (c, world) = ((d, world'), .ok o)) :
    d.dispatching = false ∧ d.tickLength = c.tickLength ∧ d.time = c.time + c.tickLength ∧
      d.time ≤ Signed.greatest := by
  have hlent (lent : SimulatedClock) (hl : c.lend = .ok lent) :
      Spares { c with dispatching := true } lent := by
    obtain ⟨budget, rfl⟩ := Clock.lend_ok hl
    exact ⟨rfl, rfl, rfl⟩
  have hcases := Clock.tick_cases (Spares.keeps { c with dispatching := true })
    (fun v world => (behave v world).asks_any) .caller world hlent
  unfold dispatch at h
  rcases hcases with ⟨e, -, he⟩ | ⟨_, _, _, e, -, -, he⟩ | ⟨lent, d', _, hl, hspares, he⟩
  · rw [he] at h
    cases h
  · rw [he] at h
    cases h
  · rw [he] at h
    cases h
    have hmoved := d'.advance_moved
    have htime : d'.advance.1.time = c.time + c.tickLength := by
      rw [hmoved.time, hspares.time, hspares.tickLength]
    have hfits : Signed.Fits (c.time + c.tickLength) := by
      rw [Clock.lend_eq hfree hL ht] at hl
      split at hl
      · assumption
      · cases hl
    exact ⟨hmoved.dispatching, hmoved.tickLength.trans hspares.tickLength, htime, htime ▸ hfits.2⟩

/-- A run comes to its end before the time does. -/
theorem run_ends {n : Nat} (hn : c.ticksLeft < n) (hfree : c.dispatching = false)
    (hL : 0 < c.tickLength) (ht : 0 ≤ c.time) :
    ∃ result, (run (dispatch behave) n (c, world)).2 = some result := by
  induction n generalizing c world with
  | zero => omega
  | succ n ih =>
    unfold run
    by_cases hon : c.ticking = true
    · rw [if_pos hon]
      rcases htick : dispatch behave (c, world) with ⟨⟨d, world'⟩, e | _ | _⟩
      · exact ⟨_, rfl⟩
      · obtain ⟨hfree', hlength, htime, hfits⟩ := dispatch_moved hfree hL ht htick
        have hleft := Clock.ticksLeft_of_fits hL hlength htime hfits
        apply ih (by omega) hfree'
        · rw [hlength]
          exact hL
        · omega
      · exact ⟨_, rfl⟩
    · rw [if_neg hon]
      exact ⟨_, rfl⟩

/-! ## Calls from outside -/

theorem perform_plain {call : Call} (hs : call ≠ .start) (ht : call ≠ .tick) :
    perform behave call (c, world) = (((serve c call).1, world), (serve c call).2) := by
  cases call with
  | start => exact absurd rfl hs
  | tick => exact absurd rfl ht
  | stop =>
    simp only [perform, serve, answer]
    cases c.stop <;> rfl
  | register x =>
    simp only [perform, serve, answer]
    cases c.register x <;> rfl
  | _ => rfl

namespace Machine

/-- A start from outside ticks as long as the clock does. -/
theorem becomes_run_in_one_go (hfree : c.dispatching = false) (hL : 0 < c.tickLength)
    (ht : 0 ≤ c.time) {stack : List (Frame σ)} {answers : List Answer} :
    Becomes behave ⟨c, world, stack, .asking .start, answers⟩
      ⟨(perform behave .start (c, world)).1.1, (perform behave .start (c, world)).1.2, stack,
        .answering (perform behave .start (c, world)).2, answers⟩ := by
  cases hon : c.ticking with
  | true =>
    have he : perform behave .start (c, world) = ((c, world), .error .alreadyRunning) := by
      simp [perform, SimulatedClock.answer, start, launch, hon, Answer.ofExcept]
    rw [he]
    exact becomes_refused hon (.inl rfl)
  | false =>
    have hspares := spares_beginTicking c
    have hends : ∃ result, (run (dispatch behave) ((c.beginTicking.publish .started).ticksLeft + 1)
        (c.beginTicking.publish .started, world)).2 = some result :=
      run_ends (Nat.lt_succ_self _) (hspares.dispatching.trans hfree) (hspares.tickLength ▸ hL)
        (hspares.time ▸ ht)
    obtain ⟨result, hresult⟩ := hends
    rcases hrun : run (dispatch behave) ((c.beginTicking.publish .started).ticksLeft + 1)
      (c.beginTicking.publish .started, world) with ⟨⟨d, world'⟩, ended⟩
    rw [hrun] at hresult
    dsimp only at hresult
    subst hresult
    have he : perform behave .start (c, world) =
        ((d.publish .stopped, world'), .ofExcept result) := by
      simp [perform, SimulatedClock.answer, start, launch, hon, hrun, SimulatedClock.conclude]
    rw [he]
    exact becomes_started hon fun k => becomes_concluded k hrun

theorem becomes_tick_in_one_go {stack : List (Frame σ)} {answers : List Answer} :
    Becomes behave ⟨c, world, stack, .asking .tick, answers⟩
      ⟨(perform behave .tick (c, world)).1.1, (perform behave .tick (c, world)).1.2, stack,
        .answering (perform behave .tick (c, world)).2, answers⟩ := by
  cases hon : c.ticking with
  | true =>
    have he : perform behave .tick (c, world) = ((c, world), .error .alreadyRunning) := by
      simp [perform, SimulatedClock.answer, single, hon, Answer.ofExcept]
    rw [he]
    exact becomes_refused hon (.inr rfl)
  | false =>
    have he : perform behave .tick (c, world) =
        (((dispatch behave (c.beginTicking, world)).1.1.endTicking,
          (dispatch behave (c.beginTicking, world)).1.2),
          .ofExcept ((dispatch behave (c.beginTicking, world)).2.map fun _ => ())) := by
      simp [perform, SimulatedClock.answer, single, hon]
    rw [he]
    exact (becomes_single hon).trans (becomes_ended.trans (becomes_singled _))

/-- A call from outside is answered as it is in one go, and leaves the clock and the world so. -/
theorem becomes_performed (call : Call) (hfree : c.dispatching = false) (hL : 0 < c.tickLength)
    (ht : 0 ≤ c.time) {stack : List (Frame σ)} {answers : List Answer} :
    Becomes behave ⟨c, world, stack, .asking call, answers⟩
      ⟨(perform behave call (c, world)).1.1, (perform behave call (c, world)).1.2, stack,
        .answering (perform behave call (c, world)).2, answers⟩ := by
  by_cases hstart : call = .start
  · subst hstart
    exact becomes_run_in_one_go hfree hL ht
  by_cases htick : call = .tick
  · subst htick
    exact becomes_tick_in_one_go
  rw [perform_plain hstart htick]
  exact becomes_plain hstart htick

end Machine

end SimulatedClock

end Metronome
