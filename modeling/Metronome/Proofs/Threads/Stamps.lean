-- The stamps of a run. However its threads take turns and whatever is asked
-- of the clock, it keeps the last stamps of all real-time ticks, counted
-- segment by segment, and its intervals never reach from one to the next.
import Metronome.Proofs.Threads.Hours

namespace Metronome

/-! ## A clock that has stamped nothing -/

namespace RealTimeClock

variable {σ : Type} {behave : Behaviour σ} {c : RealTimeClock}

theorem book_of_built {b : Blueprint} {openLog : PauseSettings → Pause.Source}
    {watch : Nat → Reading} (h : b.buildRealTime openLog watch = .ok c) :
    ∃ m, 2 ≤ m ∧ c.pacing.book = .blank watch m := by
  obtain ⟨stage, period, pauses, rfl, -⟩ := built_eq h
  exact ⟨_, (Blueprint.valid_of_built h).stamps, rfl⟩

/-- Until its run begins, a clock has nothing in its book. -/
theorem Reached.blank {st : RealTimeClock × σ} (hr : Reached behave st) (hb : behave.Public)
    (hi : st.1.pacing.stage.isInitial = true) :
    2 ≤ st.1.pacing.settings.maxStamps ∧
      st.1.pacing.book = .blank st.1.pacing.watch st.1.pacing.settings.maxStamps := by
  have hserved {c : RealTimeClock} {call : Call} (hrest : Rested c) (hp : call.isPublic = true)
      (hstart : call ≠ .start)
      (hblank : ∃ watch m, 2 ≤ m ∧ c.pacing.book = .blank watch m) :
      ∃ watch m, 2 ≤ m ∧ (serve c call).1.pacing.book = .blank watch m := by
    obtain ⟨watch, m, hm, hbook⟩ := hblank
    refine ⟨watch, m, hm, ?_⟩
    by_cases hstop : call = .stop
    · obtain ⟨e, he⟩ := stop_initial hrest.initial
      simp only [hstop, serve, answer, settle, he]
      exact hbook
    · rw [serve_book hp hstop hstart]
      exact hbook
  obtain ⟨-, watch, m, hm, hbook⟩ := hr.at_rest
    (P := fun c => ∃ watch m, 2 ≤ m ∧ c.pacing.book = .blank watch m) hb
    (fun h => ⟨_, book_of_built h⟩) hserved hi
  have hwatch : st.1.pacing.watch = watch := congrArg Book.watch hbook
  have hroom : st.1.pacing.settings.maxStamps = m := congrArg Book.room hbook
  rw [hwatch, hroom]
  exact ⟨hm, hbook⟩

end RealTimeClock

namespace Scene

variable {σ : Type} {behave : Behaviour σ} {base : RealTimeClock} {s t : Scene σ}

/-! ## What the book tells -/

/-- All that is known of a run and its marks. -/
structure Stamped (base : RealTimeClock) (l : List Mark) (s : Scene σ) : Prop where
  sound : Sound base s
  hours : Hours base.tickLength l s
  book : s.clock.pacing.book.Tells base.pacing.watch base.pacing.settings.maxStamps l

namespace Stamped

variable {l : List Mark}

theorem step (h : Stamped base l s) (hb : behave.Public) (hpos : 0 < base.tickLength) {a : Act}
    (hs : s.step behave a = some t) : Stamped base (l ++ (s.mark? a t).toList) t := by
  have hhours := h.hours.step h.sound hb hpos hs
  refine ⟨h.sound.step hb hpos hs, hhours, ?_⟩
  have hbook := h.sound.step_book hs
  rcases hm : s.mark? a t with _ | m <;> rw [hm] at hbook
  · rw [Option.toList_none, List.append_nil, hbook]
    exact h.book
  · rw [hbook]
    cases m with
    | segment => exact h.book.segment
    | tick => exact h.book.tick (h.hours.count_lt hpos)

theorem play (h : Stamped base l s) (hb : behave.Public) (hpos : 0 < base.tickLength)
    {acts : List Act} (hs : s.play behave acts = some t) :
    Stamped base (l ++ s.marks behave acts) t :=
  play_marks (I := Stamped base) (fun _ _ _ _ hu hv => hu.step hb hpos hv) h hs

/-- The stamps that are kept are the last of the history. -/
theorem stamps (h : Stamped base l s) :
    s.clock.pacing.stamps =
      (keepLast base.pacing.settings.maxStamps (history base.pacing.watch l)).map (·.stamp) := by
  rw [map_keepLast]
  exact h.book.stamps

/-- The intervals of the stamps that are kept are those of the segments. -/
theorem intervals (h : Stamped base l s) (hpos : 0 < base.tickLength)
    (hn : s.clock.pacing.stamps.Pairwise fun a b => a.nanos ≤ b.nanos) :
    Metronome.intervals s.clock.pacing.stamps = .ok (Imprint.intervals
      (keepLast base.pacing.settings.maxStamps (history base.pacing.watch l))) := by
  rw [h.stamps] at hn ⊢
  apply intervals_of_follows _ _ hn
  · exact (history_follows base.pacing.watch l).drop _
  · intro x hx
    have hcount := tickCount_lt_of_mem (List.mem_of_mem_drop hx)
    have hfit := h.hours.count_lt hpos
    omega

end Stamped

/-! ## Every order of steps -/

/-- However the threads take turns: the clock keeps the last stamps of all real-time ticks that
have begun, as many as it has room for, and of no other ticks. Their counts go up from zero, and
begin again only with a segment. So if the clock that they were taken from never went back, there
is an interval for every two neighbours of one segment, and no other. -/
theorem the_stamps_are_the_last_of_all_real_time_ticks {behave : Behaviour σ}
    (hb : behave.Public) {st : RealTimeClock × σ} (hr : RealTimeClock.Reached behave st)
    (hi : st.1.pacing.stage.isInitial = true) {acts : List Act} {s : Scene σ}
    (hs : (opening st.1 st.2).play behave acts = some s) :
    let all := history st.1.pacing.watch ((opening st.1 st.2).marks behave acts)
    let kept := keepLast st.1.pacing.settings.maxStamps all
    2 ≤ st.1.pacing.settings.maxStamps ∧
    (∀ x, all.head? = some x → x.stamp.tickCount = 0) ∧ all.IsChain Imprint.Follows ∧
    (RealTimeClock.serve s.clock .stamps).2 = .stamps (kept.map (·.stamp)) ∧
    ((kept.map (·.stamp)).Pairwise (fun a b => a.nanos ≤ b.nanos) →
      (RealTimeClock.serve s.clock .intervals).2 = .intervals (Imprint.intervals kept)) := by
  intro all kept
  have hrest := hr.rested hb hi
  have hpos := hrest.tickLength
  obtain ⟨hroom, hblank⟩ := hr.blank hb hi
  have hopen : Stamped st.1 [] (opening st.1 st.2) :=
    ⟨sound_opening hrest st.2, .opening st.1 hrest st.2,
      by rw [opening, hblank]; exact Book.tells_blank _ _⟩
  have h := hopen.play hb hpos hs
  rw [List.nil_append] at h
  refine ⟨hroom, fun x => history_head, history_follows _ _, ?_, ?_⟩
  · exact congrArg Answer.stamps h.stamps
  · intro hn
    rw [← h.stamps] at hn
    exact congrArg (Answer.orFault .intervals) (h.intervals hpos hn)

/-- A clock with room for three stamps, and with clocks to read that go forward. -/
def forgetful : RealTimeClock :=
  { RealTimeClock.make { scheduler := { maxStamps := 3 } } .initRealTime (.ofMillis 1000) {} .silent
      (fun n => ⟨n, 10 * n⟩) with roster := ⟨["a"]⟩ }

theorem forgetful_reached {σ : Type} (behave : Behaviour σ) (world : σ) :
    RealTimeClock.Reached behave (forgetful, world) := by
  have hbuilt : ({ settings := { scheduler := { maxStamps := 3 } } } : Blueprint).buildRealTime
      (fun _ => .silent) (fun n => ⟨n, 10 * n⟩) = .ok { forgetful with roster := {} } := rfl
  exact .called (.register "a") (.built world hbuilt) rfl

/-- The listener asks for simulated time twice, then for real time, and at last it fails. -/
def undecided : Behaviour Nat := fun v n =>
  match v.phase, n with
  | .tick, 0 => .ask .switchToSimulated fun _ => .finish 1 .fine
  | .tick, 1 => .ask .switchToSimulated fun _ => .finish 2 .fine
  | .tick, 2 => .ask .switchToRealTime fun _ => .finish 3 .fine
  | .tick, 3 => .finish 4 .fine
  | .tick, n => .finish n (.failed "too late")
  | .after, n => .finish n .fine

theorem undecided_public : undecided.Public := by
  intro v n
  unfold undecided
  split <;> first | exact ⟨rfl, fun _ => trivial⟩ | trivial

/-- The first wish of the listener is withdrawn between the end of the task and the boundary. The
second one is granted, and so is the third after a tick in simulated time. -/
def detour : List Act :=
  List.flatten [.replicate 4 (.main false), .replicate 15 (.worker true), [.call .switchToRealTime],
    .replicate 6 (.main false), .replicate 15 (.worker true), .replicate 22 (.main false),
    .replicate 20 (.worker true), [.main false]]

theorem the_stamps_are_the_last_three_of_a_detour :
    ∃ s, (opening forgetful 0).play undecided detour = some s ∧
      s.main.error? = some (.listener 4000 "too late") ∧
      (RealTimeClock.serve s.clock .stamps).2 = .stamps [⟨1, 1, 10⟩, ⟨0, 2, 20⟩, ⟨1, 3, 30⟩] ∧
      (RealTimeClock.serve s.clock .intervals).2 = .intervals [⟨⟨0, 2, 20⟩, ⟨1, 3, 30⟩⟩] := by
  have hplay : (((opening forgetful 0).play undecided detour).map (·.main.error?)) =
      some (some (.listener 4000 "too late")) := by decide +kernel
  obtain ⟨s, hs, herr⟩ := Option.map_eq_some_iff.mp hplay
  have hmarks : (opening forgetful 0).marks undecided detour =
      [.segment, .tick, .tick, .segment, .tick, .tick] := by decide +kernel
  obtain ⟨-, -, -, hstamps, hintervals⟩ := the_stamps_are_the_last_of_all_real_time_ticks
    undecided_public (forgetful_reached undecided 0) rfl hs
  rw [hmarks] at hstamps hintervals
  exact ⟨s, hs, herr, hstamps, hintervals (by decide)⟩

end Scene

end Metronome
