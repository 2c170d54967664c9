-- The marks of a scene, and what its steps write into the book of the clock.
-- A segment begins with the start or with a switch to real time that is
-- granted, a tick begins on the scheduler thread, and nothing else is written.
import Metronome.Proofs.Imprints
import Metronome.Proofs.Threads.Sound

namespace Metronome

/-! ## What a clock writes down -/

namespace RealTimeClock

variable {c d : RealTimeClock}

theorem moveTo_book (c : RealTimeClock) (next : Stage) :
    (c.moveTo next).pacing.book = c.pacing.book := by
  obtain ⟨feed, hm⟩ := moveTo_eq c next
  rw [hm]
  rfl

theorem Spares.book (h : Spares c d) : d.pacing.book = c.pacing.book := by
  unfold Pacing.book
  rw [h.counter, h.readings, h.stamps, h.watch, h.settings]

/-- No request writes anything down. -/
theorem serve_book {call : Call} (hp : call.isPublic = true) (hstop : call ≠ .stop)
    (hstart : call ≠ .start) : (serve c call).1.pacing.book = c.pacing.book := by
  by_cases ht : call.isTurning = true
  · cases call with
    | start => exact absurd rfl hstart
    | stop => exact absurd rfl hstop
    | switchToRealTime =>
      simp only [serve, answer, switchToRealTime]
      split
      · rfl
      · split
        · rfl
        · exact moveTo_book _ _
    | switchToSimulated =>
      simp only [serve, answer, switchToSimulated]
      split
      · rfl
      · split
        · rfl
        · exact moveTo_book _ _
    | _ => cases ht
  · obtain ⟨_, _, _, _, he, -⟩ := serve_plain c hp (Bool.eq_false_iff.mpr ht)
    rw [he]
    rfl

/-- The answer to a callback writes nothing down. -/
theorem reply_book (phase : Phase) (hb : c.pacing.stage.isInitial = false) {call : Call}
    (hp : call.isPublic = true) (hstop : call ≠ .stop) :
    (Program.reply serve phase c call).1.pacing.book = c.pacing.book := by
  unfold Program.reply
  cases ho : Program.onBudget phase c call with
  | none =>
    rcases serve_cases hp hb with ⟨h, -⟩ | h
    · exact absurd h hstop
    · exact h.book
  | some a =>
    obtain ⟨left, ha⟩ := Program.onBudget_cases ho
    rw [Option.getD_some, ha]

/-- A segment of real time begins between `c` and `d`. -/
def Resumes (c d : RealTimeClock) : Prop :=
  c.pacing.stage ≠ .realTimeRunning ∧ d.pacing.stage = .realTimeRunning

instance (c d : RealTimeClock) : Decidable (Resumes c d) := inferInstanceAs (Decidable (_ ∧ _))

/-- A start counts from zero if it begins a segment. -/
theorem launch_book (h : c.launch = .ok d) :
    d.pacing.book = if c.Resumes d then c.pacing.book.after .segment else c.pacing.book := by
  have hbegin (e : RealTimeClock) :
      (e.beginTicking.publish .started).pacing.book = e.pacing.book ∧
        (e.beginTicking.publish .started).pacing.stage = e.pacing.stage := by
    unfold Clock.beginTicking
    split <;> exact ⟨rfl, rfl⟩
  have hinit := launch_initial h
  cases hs : c.pacing.stage with
  | initSimulated =>
    simp only [launch, hs, Stage.isRunning, Stage.on] at h
    cases h
    obtain ⟨hbook, hstage⟩ := hbegin { c with pacing.stage := .simulatedRunning }
    have hno : ¬ Resumes c (({ c with pacing.stage := .simulatedRunning } : RealTimeClock)
        |>.beginTicking.publish .started) := fun hr => by cases hstage.symm.trans hr.2
    rw [if_neg hno]
    exact hbook
  | initRealTime =>
    rcases ensureScheduler_cases c with ⟨scheduler, pins, he⟩ | ⟨f, he, -⟩
    · simp only [launch, hs, Stage.isRunning, Stage.on, he] at h
      cases h
      obtain ⟨hbook, hstage⟩ := hbegin { c with pacing := { c.pacing with
        scheduler, pins, counter := 0, stage := .realTimeRunning } }
      rw [if_pos ⟨by rw [hs]; simp, hstage⟩]
      exact hbook
    · simp only [launch, hs, Stage.isRunning, Stage.on, he] at h
      cases h
  | _ => rw [hs] at hinit; cases hinit

/-- A boundary counts from zero if it grants a switch to real time, and goes on counting if a
wish was withdrawn before it. -/
theorem applyPending_book (h : c.applyPending = .ok d) :
    d.pacing.book = if c.Resumes d then c.pacing.book.after .segment else c.pacing.book := by
  obtain ⟨d', hd', hg⟩ := applyPending_ok c
  rw [h] at hd'
  cases hd'
  have hstage := hg.stage
  unfold applyPending at h
  rcases ht : boundaryTrigger? c.pacing.pending c.pacing.stage with _ | trigger <;> rw [ht] at h
  · cases h
    rw [if_neg fun hr => hr.1 hr.2]
    rfl
  · have hiff : c.Resumes d ↔ trigger = .doRealTime := by
      unfold Resumes
      rw [hstage]
      cases hp : c.pacing.pending <;> cases hs : c.pacing.stage <;> rw [hp, hs] at ht <;>
        cases ht <;> simp [grantedStage]
    simp only [boundaryTrigger?_on ht] at h
    by_cases hreal : trigger = .doRealTime
    · rw [if_pos (hiff.mpr hreal)]
      rw [if_pos hreal] at h
      cases h
      exact moveTo_book _ _
    · rw [if_neg fun hr => hreal (hiff.mp hr)]
      rw [if_neg hreal] at h
      cases h
      exact moveTo_book _ _

end RealTimeClock

namespace Scene

variable {σ : Type} {behave : Behaviour σ} {base : RealTimeClock} {s t : Scene σ}

/-! ## Marks -/

/-- What the step from `s` to `t` marks. The thread that starts the clock begins a segment with the
start and with a switch to real time, and the scheduler thread begins a tick. -/
def mark? (s : Scene σ) (a : Act) (t : Scene σ) : Option Mark :=
  match a with
  | .main _ =>
    match s.main, t.main with
    | .outside, .looking | .applying, .looking =>
      if s.clock.Resumes t.clock then some .segment else none
    | _, _ => none
  | .worker _ =>
    match s.duty, t.duty with
    | .glancing, .ticking _ => some .tick
    | _, _ => none
  | _ => none

/-- All marks of the steps in this order. -/
def marks (behave : Behaviour σ) : Scene σ → List Act → List Mark
  | _, [] => []
  | s, a :: acts =>
    match s.step behave a with
    | none => []
    | some t => (s.mark? a t).toList ++ t.marks behave acts

/-- What every step keeps together with its marks, every order of steps keeps. -/
theorem play_marks {I : List Mark → Scene σ → Prop}
    (hstep : ∀ (l : List Mark) (s : Scene σ) (a : Act) (t : Scene σ), I l s →
      s.step behave a = some t → I (l ++ (s.mark? a t).toList) t)
    {acts : List Act} {l : List Mark} (h : I l s) (hs : s.play behave acts = some t) :
    I (l ++ s.marks behave acts) t := by
  unfold play at hs
  induction acts generalizing s l with
  | nil =>
    cases hs
    rw [marks, List.append_nil]
    exact h
  | cons a acts ih =>
    rw [List.foldlM_cons] at hs
    obtain ⟨u, hu, hs⟩ := Option.bind_eq_some_iff.mp hs
    rw [marks, hu, ← List.append_assoc]
    exact ih (hstep l s a u h hu) hs

/-! ## What a step writes down -/

theorem stopStep_book {i : Nat} {x : Stop} (hs : s.stopStep i x = some t) :
    t.clock.pacing.book = s.clock.pacing.book := by
  obtain ⟨own, since, phase⟩ := x
  cases phase with
  | entering =>
    simp only [stopStep, RealTimeClock.retire] at hs
    split at hs <;> rename_i he <;> split at he <;> cases he <;> cases hs <;> rfl
  | takingTask | takingScheduler | joining _ =>
    simp only [stopStep] at hs
    split at hs <;> cases hs <;> rfl
  | unpinning sch again =>
    cases hs
    change (s.clock.unpin sch).pacing.book = _
    unfold RealTimeClock.unpin
    split <;> rfl
  | quieting | raising _ | waking | telling _ _ => cases hs; rfl
  | done | refused _ => cases hs

theorem dispatchStep_book (thread : Thread) {d : Dispatch σ}
    (hbegun : s.clock.pacing.stage.isInitial = false) (hd : d.Fits s.clock)
    {r : Dispatch σ ⊕ Except ClockError TickEnd}
    (hs : s.dispatchStep behave thread d = some (t, r)) :
    t.clock.pacing.book = s.clock.pacing.book := by
  cases d with
  | knocking =>
    simp only [dispatchStep] at hs
    split at hs <;> cases hs
    · rfl
    · rename_i hl
      obtain ⟨budget, rfl⟩ := Clock.lend_ok hl
      rfl
  | calling r =>
    simp only [dispatchStep] at hs
    split at hs <;> cases hs <;> rfl
  | inside r x b p =>
    cases p with
    | finish world verdict =>
      simp only [dispatchStep] at hs
      split at hs <;> cases hs <;> rfl
    | ask call next =>
      simp only [dispatchStep] at hs
      split at hs <;> cases hs
      · rfl
      · rename_i hc
        exact RealTimeClock.reply_book r.phase hbegun hd.2.2.1 hc
  | waiting r x b i next =>
    simp only [dispatchStep] at hs
    split at hs <;> cases hs <;> rfl
  | settling =>
    cases hs
    exact congrArg Pacing.book s.clock.advance_moved.pacing

/-- A duty that begins a tick stamps it. -/
theorem Sound.dutyStep_book (h : Sound base s) {task : Nat} {due : Bool}
    (hp : s.worker.phase = .running task) (hs : s.dutyStep behave task = some t) :
    t.clock.pacing.book =
      (s.mark? (.worker due) t).toList.foldl Book.after s.clock.pacing.book := by
  have hm := h.running_awaited hp
  unfold Scene.dutyStep at hs
  cases hd : s.duty with
  | glancing =>
    rw [hd] at hs
    dsimp only at hs
    split at hs <;> cases hs <;> simp only [mark?, hd] <;> rfl
  | checking =>
    rw [hd] at hs
    dsimp only at hs
    split at hs <;> cases hs <;> simp only [mark?, hd] <;> rfl
  | minding =>
    rw [hd] at hs
    dsimp only at hs
    split at hs <;> cases hs <;> simp only [mark?, hd] <;> rfl
  | ticking d =>
    rw [hd] at hs
    dsimp only at hs
    rcases hstep : s.dispatchStep behave .scheduler d with _ | ⟨u, r⟩ <;> rw [hstep] at hs
    · cases hs
    have hbook := dispatchStep_book .scheduler (h.owned.of_inRun (inRun_of_awaited hm))
      (h.traced.duty d hd) hstep
    rcases r with d' | e | o | o <;> cases hs <;> simp only [mark?, hd] <;> exact hbook

theorem Sound.workerStep_book (h : Sound base s) {due : Bool}
    (hs : s.workerStep behave due = some t) :
    t.clock.pacing.book =
      (s.mark? (.worker due) t).toList.foldl Book.after s.clock.pacing.book := by
  unfold Scene.workerStep at hs
  split at hs
  · rename_i task hp
    exact h.dutyStep_book hp hs
  · obtain ⟨w, -, rfl⟩ := Option.map_eq_some_iff.mp hs
    cases hd : s.duty <;> simp only [mark?, hd] <;> rfl

theorem scheduleStep_book (s : Scene σ) :
    s.scheduleStep.clock.pacing.book = s.clock.pacing.book := by
  unfold scheduleStep
  split
  · rcases RealTimeClock.schedule_cases s.clock with ⟨sch, pins, he⟩ | ⟨f, he, -⟩
    · simp only [he]
      split <;> dsimp only <;> rw [filled_clock] <;> rfl
    · simp only [he]
  · rfl

theorem awaitStep_clock {alarm : Bool} {task : Nat} (hs : s.awaitStep alarm task = some t) :
    t.clock = s.clock := by
  unfold awaitStep at hs
  split at hs
  · cases hs; rfl
  · cases hs; rfl
  · cases hs; rfl
  · split at hs <;> cases hs; rfl

/-- The thread that starts the clock writes down where a segment begins. -/
theorem Sound.mainStep_book (h : Sound base s) {alarm : Bool}
    (hs : s.mainStep behave alarm = some t) :
    t.clock.pacing.book =
      (s.mark? (.main alarm) t).toList.foldl Book.after s.clock.pacing.book := by
  unfold Scene.mainStep at hs
  cases hm : s.main <;> rw [hm] at hs <;> dsimp only at hs <;> simp only [mark?, hm]
  case outside =>
    split at hs <;> cases hs
    · rfl
    · rename_i c hl
      simp only [filled_clock, RealTimeClock.launch_book hl]
      split <;> rfl
  case applying =>
    split at hs <;> cases hs
    · rename_i c ha
      simp only [RealTimeClock.applyPending_book ha]
      split <;> rfl
    · rfl
  case scheduling =>
    cases hs
    exact scheduleStep_book s
  case awaiting task => rw [awaitStep_clock hs]; rfl
  case ticking d =>
    rcases hstep : s.dispatchStep behave .caller d with _ | ⟨u, r⟩ <;> rw [hstep] at hs
    · cases hs
    have hbook :=
      dispatchStep_book .caller (h.owned.of_inRun (by rw [hm]; rfl)) (h.traced.fits hm) hstep
    rcases r with d' | e | o | o <;> cases hs <;> exact hbook
  case closing e =>
    cases hs
    change s.clock.close.pacing.book = _
    unfold RealTimeClock.close
    split <;> rfl
  case clearing e => cases e <;> cases hs <;> rfl
  case choosing => split at hs <;> cases hs <;> rfl
  case wishing => split at hs <;> cases hs <;> rfl
  case leaving i e => split at hs <;> cases hs; rfl
  case finished ending => cases hs
  all_goals cases hs; rfl

/-- A step changes the book as its mark says. -/
theorem Sound.step_book (h : Sound base s) {a : Act} (hs : s.step behave a = some t) :
    t.clock.pacing.book = (s.mark? a t).toList.foldl Book.after s.clock.pacing.book := by
  cases a with
  | main alarm => exact h.mainStep_book hs
  | worker due => exact h.workerStep_book hs
  | stop i =>
    obtain ⟨x, -, hs⟩ := Option.bind_eq_some_iff.mp hs
    exact stopStep_book hs
  | issue => cases hs; rfl
  | call c =>
    simp only [Scene.step] at hs
    split at hs <;> cases hs
    rename_i hc
    exact RealTimeClock.serve_book hc.1 hc.2.1 hc.2.2

end Scene

end Metronome
