-- One run, and stops and other calls from any number of threads, in any order
-- of their steps: at most one scheduler thread is started, its pin is given
-- back once, no stop that comes in time is refused, and everyone returns.
import Metronome.Proofs.RealTime.Release
import Metronome.Proofs.Threads.Returns

namespace Metronome

namespace Scene

variable {σ : Type} {behave : Behaviour σ} {base : RealTimeClock} {s t : Scene σ}

namespace Sound

/-! ## The scheduler thread and its pin -/

theorem spawned_le_one (h : Sound base s) : s.spawned ≤ 1 := by
  rcases h.owned.taken with ⟨h0, -⟩ | ⟨h1, -⟩ <;> omega

/-- When everyone has returned, nobody has a pin to give back. -/
theorem held_eq_zero (h : Sound base s) (hret : s.Returned) :
    s.clock.isPinned.toNat + leases s.stops = 0 := by
  obtain ⟨⟨ending, hover⟩, hstops⟩ := hret
  have hnone : s.clock.pacing.scheduler = none := by
    have hstands := h.owned.stands
    unfold Stands at hstands
    rw [hover] at hstands
    exact hstands
  have hpin : s.clock.isPinned = false := by simp [RealTimeClock.isPinned, hnone]
  have hleases : leases s.stops = 0 := total_eq_zero fun x hx => by
    have hx := hstops x hx
    cases hp : x.phase <;> rw [hp] at hx <;> first | rfl | cases hx
  rw [hpin, hleases]
  rfl

/-! ## Stops -/

theorem never_refused (h : Sound base s) {x : Stop} (hx : x ∈ s.stops)
    (hs : x.since.isInitial = false) (e : ClockError) : x.phase ≠ .refused e :=
  ((h.owned.stops x hx).heeded hs).2 e

/-- Once a stop has taken the flag down, all that follows is that everyone returns. -/
theorem ends_of_quiet (h : Sound base s) (hw : Waits s) (hb : behave.Public)
    (hpos : 0 < base.tickLength) {x : Stop} (hx : x ∈ s.stops) (hq : x.phase.quiet = true) :
    Ends behave s := by
  have hfits := h.owned.stops x hx
  have hstopped := hfits.begun (Halt.begun_of_quiet hq)
  exact h.ends hw hb hpos (by rw [hstopped]; rfl) (hfits.quiet hq)

/-- A stop that comes in time ends the run, if its thread goes on. -/
theorem returns (h : Sound base s) (hw : Waits s) (hb : behave.Public) (hpos : 0 < base.tickLength)
    {x : Stop} (hx : x ∈ s.stops) (hs : x.since.isInitial = false) :
    ∃ t, Leads behave s t ∧ t.Returned := by
  obtain ⟨i, hi⟩ := List.mem_iff_getElem?.mp hx
  have last {s : Scene σ} (h : Sound base s) (hw : Waits s) {x : Stop} (hi : s.stops[i]? = some x)
      (hp : x.phase = .quieting) : ∃ t, Leads behave s t ∧ t.Returned := by
    have hstep : s.step behave (.stop i) =
        some ({ s with clock := s.clock.endTicking }.setStop i x .takingTask) := by
      simp [Scene.step, Scene.stopStep, hi, hp]
    have hends := (h.step hb hpos hstep).ends_of_quiet (hw.step h hb hpos hstep) hb hpos
      (x := { x with phase := .takingTask })
      (List.mem_set (List.getElem?_eq_some_iff.mp hi).1 _) rfl
    obtain ⟨u, hu, hret⟩ := hends.leads
    exact ⟨u, (Leads.step rfl hstep).trans hu, hret⟩
  obtain ⟨hbegun, href⟩ := (h.owned.stops x hx).heeded hs
  cases hp : x.phase with
  | entering =>
    obtain ⟨c, hc⟩ : ∃ c, s.clock.retire = .ok c := by
      unfold RealTimeClock.retire
      cases hst : s.clock.pacing.stage <;> rw [hst] at hbegun <;>
        first | exact ⟨_, rfl⟩ | cases hbegun
    have hstep : s.step behave (.stop i) = some ({ s with clock := c }.setStop i x .quieting) := by
      simp [Scene.step, Scene.stopStep, hi, hp, hc]
    obtain ⟨u, hu, hret⟩ := last (h.step hb hpos hstep) (hw.step h hb hpos hstep)
      (x := { x with phase := .quieting })
      (List.getElem?_set_self (List.getElem?_eq_some_iff.mp hi).1) rfl
    exact ⟨u, (Leads.step rfl hstep).trans hu, hret⟩
  | quieting => exact last h hw hi hp
  | refused e => exact absurd hp (href e)
  | _ => exact (h.ends_of_quiet hw hb hpos hx (by rw [hp]; rfl)).leads

/-! ## The result of the run -/

/-- A run in which nothing goes wrong ends well. -/
theorem fine_of_clear (h : Sound base s) (hclear : s.told.Clear base.tickLength)
    (hthread : base.pacing.settings.threadCanStart = true) {ending : RealTimeClock.Ending}
    (hover : s.main = .finished ending) : ending = .fine := by
  have hx := h.traced.main
  unfold Explains at hx
  rw [hover] at hx
  cases ending with
  | fine => rfl
  | failed e =>
    obtain ⟨x, hx, he⟩ := hx
    rw [h.traced.tickLength, hclear x hx] at he
    cases he
  | broken f =>
    dsimp only at hx
    rw [h.owned.settings, hthread] at hx
    cases hx

end Sound

/-! ## Every order of steps -/

/-- Whatever the order: one scheduler thread at most, and none for a stopped clock. A pin is
never given back twice, and it was given back when everyone has returned. No stop that comes
in time is refused, and it can always bring everyone to an end; once it has taken the flag
down, there is no other way. And if nothing goes wrong, neither does the run. -/
theorem a_run_among_stops_starts_and_releases_one_thread {behave : Behaviour σ}
    (hb : behave.Public) {st : RealTimeClock × σ} (hr : RealTimeClock.Reached behave st)
    (hi : st.1.pacing.stage.isInitial = true) {acts : List Act} {s : Scene σ}
    (hs : (opening st.1 st.2).play behave acts = some s) :
    s.spawned ≤ 1 ∧
    (s.clock.pacing.stage = .stopped →
      ∀ later t, s.play behave later = some t → t.spawned = s.spawned) ∧
    (∃ asked : List Core, s.clock.pacing.pins.cores = st.1.pacing.pins.cores ++ asked ∧
      asked.length ≤ s.spawned ∧
      let pinned := if st.1.pacing.pins.refused then 0 else asked.length
      s.clock.pacing.pins.releases ≤ st.1.pacing.pins.releases + pinned ∧
      (s.Returned → s.clock.pacing.pins.releases = st.1.pacing.pins.releases + pinned)) ∧
    (∀ x ∈ s.stops, x.since.isInitial = false →
      (∀ e, x.phase ≠ .refused e) ∧
      ∃ t, Leads behave s t ∧ t.Returned) ∧
    (∀ x ∈ s.stops, x.phase.quiet = true → Ends behave s) ∧
    (st.1.pacing.settings.threadCanStart = true → s.told.Clear st.1.tickLength →
      ∀ ending, s.main = .finished ending → ending = .fine) := by
  have hrest := hr.rested hb hi
  have hpos := hrest.tickLength
  have hopen := sound_opening hrest st.2
  have h := hopen.play hb hpos hs
  have hw := (waits_opening st.1 st.2).play hopen hb hpos hs
  refine ⟨h.spawned_le_one, ?_, ?_, fun x hx hx' => ⟨h.never_refused hx hx',
    h.returns hw hb hpos hx hx'⟩, fun x hx hq => h.ends_of_quiet hw hb hpos hx hq,
    fun hthread hclear ending hover => h.fine_of_clear hclear hthread hover⟩
  · intro hst later t ht
    exact (h.play_oneWay hb hpos (by rw [hst]; rfl) ht).spawned hst
  · obtain ⟨asked, hcores, hone, -, hsum⟩ := h.owned.pins
    refine ⟨asked, hcores, ?_, ?_, ?_⟩
    · rcases h.owned.taken with ⟨-, hpins, -⟩ | ⟨h1, -⟩
      · rw [hpins] at hcores
        rw [List.self_eq_append_right.mp hcores]
        exact Nat.zero_le _
      · rw [h1]
        exact hone
    · exact Nat.le_trans (Nat.le_add_right _ _) (Nat.le_of_eq hsum)
    · intro hret
      rw [h.held_eq_zero hret] at hsum
      exact hsum

/-- The first tick of a run begins while two stops go to work. One of them takes the task, and the
other the scheduler thread. Then everyone comes home. -/
def race : List Act :=
  [.main false, .main false, .main false, .main false, .worker true, .worker true, .worker true,
    .issue, .issue, .worker true, .stop 0, .stop 1, .stop 1, .stop 0, .stop 0, .stop 1, .stop 1,
    .stop 0, .stop 0, .stop 1, .stop 1] ++
  List.replicate 12 (.worker true) ++
  [.stop 0, .stop 1, .stop 1, .stop 1, .main false, .main false, .main false, .main false,
    .main false, .stop 2, .stop 2, .stop 2, .main false]

theorem a_race_of_two_stops_starts_and_releases_one_thread :
    ∃ s, (opening RealTimeClock.plain 0).play RealTimeClock.restless race = some s ∧
      s.Returned ∧ s.spawned = 1 ∧ s.clock.pacing.pins = { cores := [.last], releases := 1 } ∧
      s.main = .finished .fine ∧
      ∀ later t, s.play RealTimeClock.restless later = some t → t.spawned = 1 := by
  have h := a_run_among_stops_starts_and_releases_one_thread RealTimeClock.restless_public
    (RealTimeClock.plain_reached RealTimeClock.restless 0) rfl
    (show (opening RealTimeClock.plain 0).play RealTimeClock.restless race = some _ from rfl)
  exact ⟨_, rfl, ⟨⟨_, rfl⟩, by decide⟩, rfl, rfl, rfl, h.2.1 rfl⟩

/-- Nobody listens and nobody stops the clock. -/
def alone : Behaviour Unit := fun _ _ => .finish () .fine

/-- The longest ticks that a clock can have, in simulated time. -/
def endless : Settings :=
  { tickLength := Signed.greatest, unit := .nanoseconds, startingMode := .simulated }

/-- A name that no thread can bear. -/
def unnameable : Settings := { scheduler := { threadName := "a\x00b" } }

/-- A run fails without a listener if a second tick would end behind the last moment there is, and
it breaks if the scheduler thread has a name with a NUL character in it. -/
theorem a_run_without_listeners_can_fail :
    (∃ c acts s,
      ({ settings := endless } : Blueprint).buildRealTime (fun _ => .silent) (fun _ => ⟨0, 0⟩) =
        .ok c ∧
      (opening c ()).play alone acts = some s ∧
      s.told = [.asked 0, .asked Signed.greatest] ∧ s.stops.length = 1 ∧
      s.main = .finished (.failed (.listenerPanicked Fault.sumTooLarge.message))) ∧
    (∃ c acts s,
      ({ settings := unnameable } : Blueprint).buildRealTime (fun _ => .silent)
        (fun _ => ⟨0, 0⟩) = .ok c ∧
      (opening c ()).play alone acts = some s ∧
      s.told = [] ∧ s.stops = [] ∧ s.main = .finished (.broken .threadNameHasNul)) := by
  constructor
  · exact ⟨_, List.replicate 13 (.main false) ++ [.stop 0, .stop 0, .stop 0, .main false], _,
      rfl, rfl, rfl, rfl, rfl⟩
  · exact ⟨_, [.main false], _, rfl, rfl, rfl, rfl, rfl⟩

end Scene

end Metronome
