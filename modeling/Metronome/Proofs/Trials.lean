-- Trials in simulated time. The load takes half of every budget, and the
-- driver stops the clock in the tick that is the last. So a trial is reported
-- with all its ticks, unless the time has no room for them.
import Metronome.CommandLine.Run
import Metronome.Proofs.Blueprints
import Metronome.Proofs.RealTime.Run
import Metronome.Proofs.Timing.Dispatches

namespace Metronome

/-! ## Callbacks that end well -/

theorem Clock.visitAll_cons {P σ : Type} {serve : Service P} {behave : Behaviour σ} {phase : Phase}
    {thread : Thread} {start : Int} {x : Listener} {xs : List Listener} {c : Clock P} {world : σ}
    {r : Clock P × σ}
    (h : Program.run serve phase (behave ⟨x, phase, c.budget, thread⟩ world) c = (r, .fine)) :
    visitAll serve behave phase thread start (x :: xs) (c, world) =
      visitAll serve behave phase thread start xs r := by
  simp only [visitAll, h, Verdict.error?]

namespace Trial

/-- Half of what is left can always be had. -/
theorem run_consumeHalf {P : Type} {c : Clock P} (h : 0 ≤ c.budget.left) (serve : Service P)
    (w : World) :
    (consumeHalf w).run serve .tick c =
      (({ c with budget := { c.budget with left := c.budget.left - c.budget.half } }, w),
        .fine) := by
  have hhalf : ¬ (c.budget.half < 0 ∨ c.budget.left < c.budget.half) := by
    rw [Budget.half, Int.tdiv_eq_ediv_of_nonneg h]
    omega
  simp [consumeHalf, Program.run, Program.reply, Program.onBudget, Budget.consume, hhalf, finish,
    Answer.errorText?]

/-- What is lent out is not less than nothing. -/
theorem left_of_lend {P : Type} {c lent : Clock P} (h : c.lend = .ok lent) :
    0 ≤ lent.budget.left := by
  unfold Clock.lend at h
  split at h
  · cases h
  split at h
  · cases h
  rename_i stop _
  unfold Budget.reset at h
  by_cases hlt : c.time < stop
  · rw [if_pos hlt] at h
    rcases hsub : Signed.sub stop c.time with f | n <;> rw [hsub] at h <;> cases h
    have hn : n = stop - c.time := (Signed.keep_eq_ok.mp hsub).2
    show 0 ≤ n
    omega
  · rw [if_neg hlt] at h
    cases h

/-- In the tick that is the last one, the driver stops the clock. -/
theorem run_drive {c : SimulatedClock} (h : c.ticking = true) (n : Nat) (phase : Phase)
    (w : World) :
    (drive { limit := some n } w).run SimulatedClock.serve phase c =
      (({ c with ticking := decide (n ≠ w.ticks + 1) }, { w with ticks := w.ticks + 1 }),
        .fine) := by
  by_cases hn : n = w.ticks + 1
  · simp [drive, hn, Program.run, Program.reply, Program.onBudget, SimulatedClock.serve,
      SimulatedClock.answer, SimulatedClock.stop, h, Answer.errorText?, changePace,
      Clock.endTicking]
  · simp [drive, hn, Program.run, changePace, ← h]

/-- The three callbacks of a tick. The log begins to time it. -/
theorem visit_tick {c : SimulatedClock} (hon : c.ticking = true) (hleft : 0 ≤ c.budget.left)
    (n : Nat) (start : Int) (w : World) :
    ∃ budget, Clock.visitAll SimulatedClock.serve (behave { limit := some n }) .tick .caller start
      listeners (c, w) =
        (({ c with budget, ticking := decide (n ≠ w.ticks + 1) },
          { w with log := w.log.begin, ticks := w.ticks + 1 }), none) := by
  let budget := { c.budget with left := c.budget.left - c.budget.half }
  let begun : World := { w with log := w.log.begin }
  refine ⟨budget, ?_⟩
  rw [listeners, Clock.visitAll_cons (r := (c, begun)) rfl,
    Clock.visitAll_cons (run_consumeHalf hleft _ begun),
    Clock.visitAll_cons (run_drive (c := { c with budget }) hon n .tick begun)]
  rfl

/-- The three callbacks behind a tick. The log has timed it. -/
theorem visit_after (c : SimulatedClock) (n : Nat) (start : Int) (w : World) :
    Clock.visitAll SimulatedClock.serve (behave { limit := some n }) .after .caller start
      listeners (c, w) = ((c, { w with log := w.log.finishNext w.durations }), none) := by
  let timed : World := { w with log := w.log.finishNext w.durations }
  rw [listeners, Clock.visitAll_cons (r := (c, timed)) rfl,
    Clock.visitAll_cons (r := (c, timed)) rfl, Clock.visitAll_cons (r := (c, timed)) rfl]
  rfl

/-- A tick that was lent out is completed, and the log has timed it. -/
theorem dispatch_eq {c : SimulatedClock} {lent : Budget} (hon : c.ticking = true)
    (hquiet : c.interrupted = false) (hnames : c.roster.names = listeners) (hleft : 0 ≤ lent.left)
    (hlend : c.lend = .ok { c with budget := lent, dispatching := true }) (n : Nat) (w : World) :
    ∃ budget, SimulatedClock.dispatch (behave { limit := some n }) (c, w) =
      (({ c with
          budget
          dispatching := false
          time := c.time + c.tickLength
          ticking := decide (n ≠ w.ticks + 1) },
        { w with log := w.log.begin.finishNext w.durations, ticks := w.ticks + 1 }),
        .ok .completed) := by
  obtain ⟨budget, hvisit⟩ :=
    visit_tick (c := { c with budget := lent, dispatching := true }) hon hleft n c.time w
  refine ⟨budget.consumeAll, ?_⟩
  simp only [SimulatedClock.dispatch, Clock.tick, hlend, hnames, hvisit, visit_after]
  simp [Clock.advance, hquiet]

/-! ## A tick of a trial -/

/-- How long the first `k` dispatches take. -/
def dispatches (durations : Nat → UInt64) (k : Nat) : List Nat :=
  (List.range k).map fun i => (durations i).toNat

theorem length_dispatches (durations : Nat → UInt64) (k : Nat) :
    (dispatches durations k).length = k := by
  simp [dispatches]

theorem dispatches_succ (durations : Nat → UInt64) (k : Nat) :
    dispatches durations (k + 1) = dispatches durations k ++ [(durations k).toNat] := by
  simp [dispatches, List.range_succ]

/-- The clock of a trial of `n` ticks and its world, when `k` of the ticks are over. -/
structure Stands (s : Settings) (durations : Nat → UInt64) (n k : Nat) (c : SimulatedClock)
    (w : World) : Prop where
  tickLength : c.tickLength = s.tickLength
  unit : c.unit = s.unit
  time : c.time = k * s.tickLength
  fits : k * s.tickLength ≤ Signed.greatest
  ticking : c.ticking = decide (n ≠ k)
  interrupted : c.interrupted = false
  free : c.dispatching = false
  names : c.roster.names = listeners
  feed : c.feed.subscriptions = [{ queue := [⟨.started, 0⟩] }]
  ticks : w.ticks = k
  timed : w.durations = durations
  log : TickLog.Keeps s.period .silent TickLog.standardCapacity w.log
    { since := dispatches durations k }

variable {s : Settings} {durations : Nat → UInt64} {n k : Nat} {c : SimulatedClock} {w : World}

namespace Stands

theorem time_add (h : Stands s durations n k c w) :
    c.time + c.tickLength = (k + 1 : Nat) * s.tickLength := by
  rw [h.time, h.tickLength, Int.natCast_add, Int.add_mul, Int.natCast_one, Int.one_mul]

/-- The time has room for the next tick, or it has none. -/
theorem lend (h : Stands s durations n k c w) (hL : 1 ≤ s.tickLength) :
    if (k + 1 : Nat) * s.tickLength ≤ Signed.greatest then
      ∃ budget : Budget, 0 ≤ budget.left ∧ c.lend = .ok { c with budget, dispatching := true }
    else c.lend = .error (.listenerPanicked Fault.sumTooLarge.message) := by
  have hpos : 0 < c.tickLength := h.tickLength ▸ hL
  have htime : 0 ≤ c.time := h.time ▸ Int.mul_nonneg (Int.natCast_nonneg k) (by omega)
  have hfits : Signed.Fits (c.time + c.tickLength) ↔
      (k + 1 : Nat) * s.tickLength ≤ Signed.greatest := by
    rw [← h.time_add]
    unfold Signed.Fits Signed.least
    omega
  have hlend := Clock.lend_eq h.free hpos htime
  by_cases hf : (k + 1 : Nat) * s.tickLength ≤ Signed.greatest
  · rw [if_pos (hfits.mpr hf)] at hlend
    rw [if_pos hf]
    exact ⟨_, Int.le_of_lt hpos, hlend⟩
  · rw [if_neg (mt hfits.mp hf)] at hlend
    rw [if_neg hf]
    exact hlend

/-- A tick that fits is one more of the ticks that are over. -/
theorem tick (h : Stands s durations n k c w) (hL : 1 ≤ s.tickLength) (hk : n ≠ k)
    (hfits : (k + 1 : Nat) * s.tickLength ≤ Signed.greatest) :
    ∃ d w', SimulatedClock.dispatch (behave { limit := some n }) (c, w) =
      ((d, w'), .ok .completed) ∧ Stands s durations n (k + 1) d w' := by
  have hlend := h.lend hL
  rw [if_pos hfits] at hlend
  obtain ⟨lent, hleft, hlend⟩ := hlend
  have hon : c.ticking = true := by simpa [h.ticking] using hk
  obtain ⟨budget, htick⟩ := dispatch_eq hon h.interrupted h.names hleft hlend n w
  refine ⟨_, _, htick, ?_⟩
  have hlog := (h.log.timing false).record (by decide) (durations k)
  have hnext : w.log.exported.ticks = k := by
    rw [h.log.exported]
    exact length_dispatches durations k
  exact
    { tickLength := h.tickLength
      unit := h.unit
      time := h.time_add
      fits := hfits
      ticking := by rw [h.ticks]
      interrupted := h.interrupted
      free := rfl
      names := h.names
      feed := h.feed
      ticks := by rw [h.ticks]
      timed := h.timed
      log := by
        show TickLog.Keeps _ _ _
          (TickLog.record { w.log with timing := false } (w.durations w.log.exported.ticks).toNat) _
        rw [h.timed, hnext, dispatches_succ]
        exact hlog }

/-- A run ends with its last tick, or where the time has no room for the next one. -/
theorem run (h : Stands s durations n k c w) (hL : 1 ≤ s.tickLength) (hk : k ≤ n) {fuel : Nat}
    (hfuel : c.ticksLeft < fuel) :
    let ended :=
      SimulatedClock.run (SimulatedClock.dispatch (behave { limit := some n })) fuel (c, w)
    if n * s.tickLength ≤ Signed.greatest then
      ∃ d w', ended = ((d, w'), some (.ok ())) ∧ Stands s durations n n d w'
    else ended.2 = some (.error (.listenerPanicked Fault.sumTooLarge.message)) := by
  induction fuel generalizing k c w with
  | zero => omega
  | succ fuel ih =>
    unfold SimulatedClock.run
    by_cases hlast : n = k
    · subst hlast
      have hoff : c.ticking = false := by simp [h.ticking]
      simp only [hoff, h.fits, if_true, Bool.false_eq_true, if_false]
      exact ⟨c, w, rfl, h⟩
    have hon : c.ticking = true := by simpa [h.ticking] using hlast
    simp only [hon, if_true]
    by_cases hfits : (k + 1 : Nat) * s.tickLength ≤ Signed.greatest
    · obtain ⟨d, w', htick, hd⟩ := h.tick hL hlast hfits
      have hleft : d.ticksLeft + 1 = c.ticksLeft :=
        Clock.ticksLeft_of_fits (h.tickLength ▸ hL) (hd.tickLength.trans h.tickLength.symm)
          (hd.time.trans h.time_add.symm) (hd.time ▸ hd.fits)
      simp only [htick]
      exact ih hd (by omega) (by omega)
    · have hle : (k + 1 : Nat) * s.tickLength ≤ n * s.tickLength :=
        Int.mul_le_mul_of_nonneg_right (by omega) (by omega)
      have hlend := h.lend hL
      rw [if_neg hfits] at hlend
      rw [if_neg (by omega)]
      simp only [SimulatedClock.dispatch, Clock.tick, hlend]

end Stands

/-! ## A trial from its beginning to its end -/

/-- The clock of a trial before its run. -/
def prepared (s : Settings) : SimulatedClock :=
  { SimulatedClock.make s.tickLength s.unit with roster := ⟨listeners⟩, feed := ⟨[{}]⟩ }

/-- The world of a trial before its run. -/
def unworn (s : Settings) (durations : Nat → UInt64) : World :=
  { log := .make s.period .silent TickLog.standardCapacity, durations }

theorem prepare_make (s : Settings) :
    prepare (SimulatedClock.make s.tickLength s.unit) = .ok (prepared s) := rfl

/-- The clock of a trial after its run. -/
structure Ended (s : Settings) (durations : Nat → UInt64) (n : Nat) (c : SimulatedClock)
    (w : World) : Prop where
  unit : c.unit = s.unit
  time : c.time = n * s.tickLength
  feed : c.feed.subscriptions =
    [{ queue := if n = 0 then [] else [⟨.started, 0⟩, ⟨.stopped, n * s.tickLength⟩] }]
  log : TickLog.Keeps s.period .silent TickLog.standardCapacity w.log
    { since := dispatches durations n }

theorem keeps_unworn (s : Settings) (durations : Nat → UInt64) :
    TickLog.Keeps s.period .silent TickLog.standardCapacity (unworn s durations).log
      { since := dispatches durations 0 } :=
  TickLog.keeps_make s.period .silent TickLog.standardCapacity

theorem ended_zero (s : Settings) (durations : Nat → UInt64) :
    Ended s durations 0 (prepared s) (unworn s durations) where
  unit := rfl
  time := (Int.zero_mul _).symm
  feed := rfl
  log := keeps_unworn s durations

theorem start (durations : Nat → UInt64) (hL : 1 ≤ s.tickLength) (hn : n ≠ 0) :
    let ended := SimulatedClock.start (SimulatedClock.dispatch (behave { limit := some n }))
      (prepared s, unworn s durations)
    if n * s.tickLength ≤ Signed.greatest then
      ∃ d w, ended = ((d, w), .ok ()) ∧ Ended s durations n d w
    else ended.2 = .error (.listenerPanicked Fault.sumTooLarge.message) := by
  let launched : SimulatedClock := (prepared s).beginTicking.publish .started
  have hbegun : Stands s durations n 0 launched (unworn s durations) :=
    { tickLength := rfl
      unit := rfl
      time := (Int.zero_mul _).symm
      fits := by
        rw [Int.natCast_zero, Int.zero_mul]
        decide
      ticking := (decide_eq_true hn).symm
      interrupted := rfl
      free := rfl
      names := rfl
      feed := rfl
      ticks := rfl
      timed := rfl
      log := keeps_unworn s durations }
  have hrun := hbegun.run hL (Nat.zero_le n) (Nat.lt_succ_self launched.ticksLeft)
  have hlaunch : SimulatedClock.launch (prepared s) = .ok launched := rfl
  unfold SimulatedClock.start
  simp only [hlaunch]
  by_cases hfits : n * s.tickLength ≤ Signed.greatest
  · simp only [hfits, if_true] at hrun ⊢
    obtain ⟨d, w, hd, hstands⟩ := hrun
    simp only [hd]
    refine ⟨_, _, rfl, ?_⟩
    exact
      { unit := hstands.unit
        time := hstands.time
        feed := by
          simp [SimulatedClock.conclude, Clock.publish, Feed.publish, hstands.feed,
            Subscription.deliver, Subscription.wants, hstands.time, hn]
        log := hstands.log }
  · simp only [hfits, if_false] at hrun ⊢
    simp only [hrun]
    rfl

/-! ## What is reported -/

/-- The report of a trial that went through all its ticks. Its log tells how long the dispatches
took. -/
structure Complete (s : Settings) (durations : Nat → UInt64) (n : Nat) (r : Report) : Prop where
  mode : r.mode = .simulated
  finalTime : r.finalTime = n * s.tickLength
  unit : r.unit = s.unit
  ticks : r.ticks = n
  logTicks : r.log.ticks = n
  log : TickLog.Page.stats s.period .silent TickLog.standardCapacity
    { since := dispatches durations n } = .ok r.log
  jitter : r.jitter = none
  events : r.events = if n = 0 then [] else [⟨.started, 0⟩, ⟨.stopped, n * s.tickLength⟩]

/-- The trials that go through all their ticks. -/
def Fits (s : Settings) (n : Nat) : Prop := n = 0 ∨ n * s.tickLength ≤ Signed.greatest

theorem Fits.le (h : Fits s n) (hL : 1 ≤ s.tickLength) : n ≤ Unsigned.greatest := by
  rcases h with rfl | h
  · exact Nat.zero_le _
  · have hle : (n : Int) * 1 ≤ n * s.tickLength :=
      Int.mul_le_mul_of_nonneg_left hL (Int.natCast_nonneg n)
    unfold Signed.greatest at h
    unfold Unsigned.greatest
    omega

/-- The dispatches that a log still keeps can be added up. -/
def DispatchesFit (durations : Nat → UInt64) (n : Nat) : Prop :=
  Unsigned.Fits (keepLast TickLog.standardCapacity (dispatches durations n)).sum

/-- The log of a trial counts its ticks, and it has figures if they can be added up. -/
theorem stats_of_keeps (h : TickLog.Keeps s.period .silent TickLog.standardCapacity w.log
    { since := dispatches durations n }) (hn : n ≤ Unsigned.greatest)
    (hsum : DispatchesFit durations n) : ∃ stats, w.log.stats = .ok stats ∧ stats.ticks = n := by
  have hcount : Unsigned.wrap n = n := Nat.mod_eq_of_lt (Nat.lt_succ_of_le hn)
  have hkept := keepLast_min_length TickLog.standardCapacity (dispatches durations n)
  rw [length_dispatches] at hkept
  rw [h.stats]
  unfold TickLog.Page.stats
  simp only [length_dispatches, hcount, hkept]
  exact ⟨_, if_pos hsum, rfl⟩

theorem report_of_ended (h : Ended s durations n c w) (hn : n ≤ Unsigned.greatest)
    (hsum : DispatchesFit durations n) :
    ∃ r, report .simulated n none c w = .ok r ∧ Complete s durations n r := by
  obtain ⟨stats, hstats, hticks⟩ := stats_of_keeps h.log hn hsum
  unfold report
  rw [hstats]
  refine ⟨_, rfl, ?_⟩
  exact
    { mode := rfl
      finalTime := h.time
      unit := h.unit
      ticks := rfl
      logTicks := hticks
      log := h.log.stats.symm.trans hstats
      jitter := rfl
      events := by simp [Feed.drain, h.feed] }

theorem simulated_eq (h : s.Valid) (n : Nat) (durations : Nat → UInt64) :
    simulated s n durations =
      if n = 0 then report .simulated n none (prepared s) (unworn s durations)
      else
        match SimulatedClock.start (SimulatedClock.dispatch (behave { limit := some n }))
          (prepared s, unworn s durations) with
        | (_, .error e) => .error (.clock e)
        | ((d, w), .ok ()) => report .simulated n none d w := by
  have hbuilt : ({ settings := s } : Blueprint).buildSimulated.bind prepare = .ok (prepared s) := by
    rw [Blueprint.buildSimulated_of_valid h]
    exact prepare_make s
  simp only [simulated, h.tickDuration, hbuilt]
  rfl

/-- Settings that pass are tried. The trial goes through all its ticks if they fit, and fails in the
first that does not. -/
theorem simulated_of_valid (h : s.Valid) (hsum : DispatchesFit durations n) :
    (Fits s n → ∃ r, simulated s n durations = .ok r ∧ Complete s durations n r) ∧
      (¬ Fits s n → simulated s n durations =
        .error (.clock (.listenerPanicked Fault.sumTooLarge.message))) := by
  rw [simulated_eq h]
  by_cases hn : n = 0
  · subst hn
    have hfits : Fits s 0 := .inl rfl
    rw [if_pos rfl]
    exact ⟨fun _ => report_of_ended (ended_zero s durations) (hfits.le h.tickLength) hsum,
      fun hnot => absurd hfits hnot⟩
  · have hstart := start durations h.tickLength hn
    rw [if_neg hn]
    by_cases hfits : n * s.tickLength ≤ Signed.greatest
    · rw [if_pos hfits] at hstart
      obtain ⟨d, w, hd, hended⟩ := hstart
      rw [hd]
      exact ⟨fun hf => report_of_ended hended (hf.le h.tickLength) hsum,
        fun hnot => absurd (.inr hfits) hnot⟩
    · rw [if_neg hfits] at hstart
      rcases hd : SimulatedClock.start (SimulatedClock.dispatch (behave { limit := some n }))
        (prepared s, unworn s durations) with ⟨st, r⟩
      rw [hd] at hstart
      dsimp only at hstart
      rw [hstart]
      exact ⟨fun hf => absurd hf (not_or.mpr ⟨hn, hfits⟩), fun _ => rfl⟩

/-- Settings that do not pass are not tried. -/
theorem simulated_of_error {e : ClockError} (h : s.check = .error e) (n : Nat)
    (durations : Nat → UInt64) :
    simulated s n durations =
      .error (if s.tickDuration? = none then .tickHasNoDuration else .clock e) := by
  unfold simulated
  rcases hperiod : s.tickDuration? with _ | period
  · rfl
  · rw [Blueprint.buildSimulated_of_error h]
    rfl

end Trial

/-! ## The command -/

namespace CommandLine

open Trial

theorem Common.settings_error {common : Common} {content? : String → Option Text.Bytes}
    {ending : Ending} (h : common.settings content? = .error ending) :
    ∃ message, ending = .failed message := by
  unfold settings at h
  split at h
  · cases h
  · cases hload : Settings.load (content? _) <;> rw [hload] at h <;> cases h
    exact ⟨_, rfl⟩

variable {words : List String} {common : Common} {r : SimulatedRun}
  {durations : Nat → UInt64}

theorem run_eq (h : Request.ofWords words = .run common (.simulated r))
    (content? : String → Option Text.Bytes) (durations : Nat → UInt64) :
    run words content? durations =
      match common.settings content? with
      | .error ending => ending
      | .ok loaded =>
        .ofTrial common.metrics (simulated (r.pace.over loaded) r.ticks durations) := by
  unfold run
  rw [h]
  rfl

theorem failed_of_error {s : Settings} {e : ClockError} (h : s.check = .error e) (n : Nat)
    (durations : Nat → UInt64) (metrics : Bool) :
    ∃ message, Ending.ofTrial metrics (simulated s n durations) = .failed message := by
  rw [simulated_of_error h]
  by_cases hperiod : s.tickDuration? = none
  · rw [if_pos hperiod]
    exact ⟨_, rfl⟩
  · rw [if_neg hperiod]
    exact ⟨_, rfl⟩

/-- A simulated run is reported, or it fails. If its settings pass, only the time can be what it
fails for. -/
theorem run_cases (h : Request.ofWords words = .run common (.simulated r))
    (hsum : DispatchesFit durations r.ticks) (content? : String → Option Text.Bytes) :
    (∃ loaded report lines, common.settings content? = .ok loaded ∧
      (r.pace.over loaded).check = .ok () ∧ Fits (r.pace.over loaded) r.ticks ∧
      run words content? durations = .reported report lines ∧
      Complete (r.pace.over loaded) durations r.ticks report) ∨
    ∃ message, run words content? durations = .failed message ∧
      ∀ loaded, common.settings content? = .ok loaded → (r.pace.over loaded).check = .ok () →
        ¬ Fits (r.pace.over loaded) r.ticks ∧
          message = (ClockError.listenerPanicked Fault.sumTooLarge.message).message := by
  rw [run_eq h]
  rcases hload : common.settings content? with ending | loaded
  · obtain ⟨message, rfl⟩ := Common.settings_error hload
    exact .inr ⟨message, rfl, fun _ hloaded => by cases hloaded⟩
  rcases hcheck : (r.pace.over loaded).check with e | u
  · obtain ⟨message, hmessage⟩ := failed_of_error hcheck r.ticks durations common.metrics
    refine .inr ⟨message, hmessage, ?_⟩
    rintro _ ⟨⟩ hok
    rw [hcheck] at hok
    cases hok
  obtain ⟨hfit, hlong⟩ := simulated_of_valid (Settings.check_eq_ok_iff.mp hcheck) hsum
  by_cases hf : Fits (r.pace.over loaded) r.ticks
  · obtain ⟨report, hreport, hcomplete⟩ := hfit hf
    simp only [hreport]
    exact .inl ⟨loaded, report, _, rfl, hcheck, hf, rfl, hcomplete⟩
  · simp only [hlong hf]
    refine .inr ⟨_, rfl, ?_⟩
    rintro _ ⟨⟩ -
    exact ⟨hf, rfl⟩

/-- A simulated run is reported exactly if its settings pass and all its ticks fit, and then it has
gone through all of them, from its start to the stop in the last tick. Otherwise it fails, and with
settings that pass it fails because the time has no room for a tick. The load never fails a tick,
however long the tick is. A dispatch may take as long as it likes. One follows the other, so those
that are kept can be added up unless the run goes on for more than five hundred years. -/
theorem a_simulated_run_is_reported_with_all_its_ticks
    (h : Request.ofWords words = .run common (.simulated r))
    (hsum : DispatchesFit durations r.ticks) (content? : String → Option Text.Bytes) :
    ((∃ report lines, run words content? durations = .reported report lines) ↔
      ∃ loaded, common.settings content? = .ok loaded ∧ (r.pace.over loaded).check = .ok () ∧
        (r.ticks = 0 ∨ r.ticks * (r.pace.over loaded).tickLength ≤ Signed.greatest)) ∧
    (∀ loaded report lines, common.settings content? = .ok loaded →
      run words content? durations = .reported report lines →
      Complete (r.pace.over loaded) durations r.ticks report) ∧
    ((¬ ∃ report lines, run words content? durations = .reported report lines) →
      ∃ message, run words content? durations = .failed message) ∧
    (∀ loaded, common.settings content? = .ok loaded → (r.pace.over loaded).check = .ok () →
      ¬ Fits (r.pace.over loaded) r.ticks → run words content? durations =
        .failed (ClockError.listenerPanicked Fault.sumTooLarge.message).message) ∧
    (∀ {P : Type} (serve : Service P) (c : Clock P) (w : World), 0 ≤ c.budget.left →
      ((consumeHalf w).run serve .tick c).2 = .fine) ∧
    ∀ {P : Type} (c lent : Clock P), c.lend = .ok lent → 0 ≤ lent.budget.left := by
  have hload : (∀ {P : Type} (serve : Service P) (c : Clock P) (w : World), 0 ≤ c.budget.left →
      ((consumeHalf w).run serve .tick c).2 = .fine) ∧
      ∀ {P : Type} (c lent : Clock P), c.lend = .ok lent → 0 ≤ lent.budget.left :=
    ⟨fun serve c w hleft => by rw [run_consumeHalf hleft], fun c lent hlend => left_of_lend hlend⟩
  rcases run_cases h hsum content? with
    ⟨loaded, report, lines, hloaded, hcheck, hfits, hrun, hcomplete⟩ | ⟨message, hrun, hwhy⟩
  · refine ⟨⟨fun _ => ⟨loaded, hloaded, hcheck, hfits⟩, fun _ => ⟨report, lines, hrun⟩⟩, ?_, ?_, ?_,
      hload⟩
    · intro loaded' report' lines' hloaded' hrun'
      rw [hloaded] at hloaded'
      rw [hrun] at hrun'
      cases hloaded'
      cases hrun'
      exact hcomplete
    · exact fun hnot => absurd ⟨report, lines, hrun⟩ hnot
    · intro loaded' hloaded' _ hlong
      rw [hloaded] at hloaded'
      cases hloaded'
      exact absurd hfits hlong
  · have hnot : ¬ ∃ report lines, run words content? durations = .reported report lines := by
      rintro ⟨report, lines, hreported⟩
      rw [hrun] at hreported
      cases hreported
    refine ⟨⟨fun hreported => absurd hreported hnot, ?_⟩, ?_, fun _ => ⟨message, hrun⟩, ?_, hload⟩
    · rintro ⟨loaded, hloaded, hcheck, hfits⟩
      exact absurd hfits (hwhy loaded hloaded hcheck).1
    · exact fun loaded report lines _ hreported => absurd ⟨report, lines, hreported⟩ hnot
    · intro loaded hloaded hcheck _
      rw [hrun, (hwhy loaded hloaded hcheck).2]

theorem three_ticks_of_ten_are_reported :
    let words := ["simulated", "-n", "3", "--tick-length=10"]
    let durations (i : Nat) : UInt64 := UInt64.ofNat (2000 + 500 * i)
    Request.ofWords words = .run {} (.simulated { pace := { tickLength := some 10 }, ticks := 3 }) ∧
      DispatchesFit durations 3 ∧
      ∃ report lines, run words (fun _ => none) durations = .reported report lines ∧
        report.log.ticks = 3 ∧ report.log.average = 2500 ∧ report.finalTime = 30 ∧
        report.events = [⟨.started, 0⟩, ⟨.stopped, 30⟩] := by
  intro words durations
  have hwords : Request.ofWords words =
      .run {} (.simulated { pace := { tickLength := some 10 }, ticks := 3 }) := by decide +kernel
  have hsum : DispatchesFit durations 3 := by
    show (_ : Nat) ≤ _
    decide +kernel
  obtain ⟨hreported, hcomplete, -⟩ :=
    a_simulated_run_is_reported_with_all_its_ticks hwords hsum fun _ => none
  obtain ⟨report, lines, hrun⟩ := hreported.mpr ⟨{}, rfl, rfl, .inr (by decide)⟩
  have h := hcomplete {} report lines rfl hrun
  have haverage : report.log.average = 2500 := by
    let stats := TickLog.Page.stats ({ tickLength := 10 } : Settings).period .silent
      TickLog.standardCapacity { since := dispatches durations 3 }
    have hlog : stats = .ok report.log := h.log
    have hfigures : stats.toOption.map (·.average) = some 2500 := by decide +kernel
    rw [hlog] at hfigures
    exact Option.some.inj hfigures
  exact ⟨hwords, hsum, report, lines, hrun, h.logTicks, haverage, h.finalTime, h.events⟩

end CommandLine

end Metronome
