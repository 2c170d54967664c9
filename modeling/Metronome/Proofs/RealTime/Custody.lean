-- Who holds the scheduler thread and its pin while a run goes on. The run
-- takes the thread at most once, a stop gives it back, and at every moment
-- the pins that worked are those that were released and the one still held.
import Metronome.Proofs.Chronicle
import Metronome.Proofs.RealTime.Boundary
import Metronome.Proofs.RealTime.Calls

namespace Metronome

/-- From `before` to `now` one pin at most was asked for, and what worked of it was released
or is held. -/
def Pins.Settled (before now : Pins) (held : Nat) : Prop :=
  ∃ asked : List Core, now.cores = before.cores ++ asked ∧ asked.length ≤ 1 ∧
    now.refused = before.refused ∧
    now.releases + held = before.releases + if before.refused then 0 else asked.length

namespace RealTimeClock

/-- The scheduler thread was there already, or it is new and has asked for its pin. -/
theorem ensureScheduler_ok {c d : RealTimeClock} (h : c.ensureScheduler = .ok d) :
    (∃ s, c.pacing.scheduler = some s ∧ d = c) ∨
    (c.pacing.scheduler = none ∧ ∃ s pins,
      d = { c with pacing := { c.pacing with scheduler := some s, pins } } ∧
      c.pacing.pins.Settled pins s.pinned.toNat) := by
  unfold ensureScheduler at h
  rcases hs : c.pacing.scheduler with _ | s <;> rw [hs] at h
  · right
    dsimp only at h
    split at h
    · split at h <;> cases h
      · exact ⟨rfl, ⟨false⟩, c.pacing.pins, rfl, [], by simp, Nat.zero_le _, rfl, by simp⟩
      · rename_i core _
        refine ⟨rfl, _, _, rfl, [core], rfl, Nat.le_refl _, rfl, ?_⟩
        simp only [Pins.attempt]
        cases c.pacing.pins.refused <;> rfl
    · cases h
  · cases h
    exact .inl ⟨s, rfl, rfl⟩

theorem ensureScheduler_error {c : RealTimeClock} {f : Fault} (h : c.ensureScheduler = .error f) :
    c.pacing.scheduler = none := by
  unfold ensureScheduler at h
  cases hs : c.pacing.scheduler with
  | none => rfl
  | some s => rw [hs] at h; cases h

theorem schedule_ok {c d : RealTimeClock} (h : c.schedule = .ok d) :
    ∃ e, c.ensureScheduler = .ok e ∧ d = { e with pacing.cancelled := false } := by
  unfold schedule at h
  cases he : c.ensureScheduler with
  | ok e =>
    rw [he] at h
    cases h
    exact ⟨e, rfl, rfl⟩
  | error f => rw [he] at h; cases h

theorem schedule_error {c : RealTimeClock} {f : Fault} (h : c.schedule = .error f) :
    c.pacing.scheduler = none := by
  unfold schedule at h
  cases he : c.ensureScheduler with
  | ok e => rw [he] at h; cases h
  | error f => exact ensureScheduler_error he

/-! ## The invariant of a run -/

/-- `c` is a clock whose run began from `base`, whatever callbacks did since. -/
structure Steady (base c : RealTimeClock) : Prop where
  tickLength : c.tickLength = base.tickLength
  settings : c.pacing.settings = base.pacing.settings
  begun : c.pacing.stage.isInitial = false
  /-- A clock that was stopped ticks no more, and its thread is gone. -/
  halted : c.pacing.stage = .stopped → c.ticking = false ∧ c.pacing.scheduler = none
  /-- A clock that runs has its thread, or never had one. -/
  fresh : c.pacing.stage.isRunning = true → c.pacing.scheduler = none →
    c.pacing.pins = base.pacing.pins
  pins : base.pacing.pins.Settled c.pacing.pins c.isPinned.toNat

namespace Steady

variable {base c d : RealTimeClock}

/-- The invariant looks at a part of the clock only. -/
theorem of_eq (h : Steady base c) (hL : d.tickLength = c.tickLength)
    (hset : d.pacing.settings = c.pacing.settings) (hst : d.pacing.stage = c.pacing.stage)
    (hti : d.ticking = true → c.ticking = true) (hsch : d.pacing.scheduler = c.pacing.scheduler)
    (hpins : d.pacing.pins = c.pacing.pins) : Steady base d where
  tickLength := hL.trans h.tickLength
  settings := hset.trans h.settings
  begun := hst ▸ h.begun
  halted hs := by
    obtain ⟨ht, hn⟩ := h.halted (hst ▸ hs)
    refine ⟨?_, hsch.trans hn⟩
    cases hd : d.ticking with
    | false => rfl
    | true => rw [hti hd] at ht; cases ht
  fresh hr hn := hpins.trans (h.fresh (hst ▸ hr) (hsch ▸ hn))
  pins := by
    have : d.isPinned = c.isPinned := by unfold isPinned; rw [hsch]
    rw [hpins, this]
    exact h.pins

theorem spares (h : Steady base c) (s : Spares c d) : Steady base d :=
  h.of_eq s.tickLength s.settings s.stage (fun ht => s.ticking ▸ ht) s.scheduler s.pins

theorem grants (h : Steady base c) (g : Grants c d) : Steady base d where
  tickLength := g.tickLength.trans h.tickLength
  settings := g.settings.trans h.settings
  begun := by rw [g.stage, grantedStage_isInitial]; exact h.begun
  halted hs := by
    rw [g.ticking, g.scheduler]
    apply h.halted
    have hr := grantedStage_isRunning c.pacing.pending c.pacing.stage
    rw [← g.stage, hs] at hr
    have hb := h.begun
    cases hc : c.pacing.stage <;> simp [hc, Stage.isRunning, Stage.isInitial] at hr hb ⊢
  fresh hr hn := by
    rw [g.stage, grantedStage_isRunning] at hr
    rw [g.pins]
    exact h.fresh hr (g.scheduler ▸ hn)
  pins := by
    have : d.isPinned = c.isPinned := by unfold isPinned; rw [g.scheduler]
    rw [g.pins, this]
    exact h.pins

/-- A stop keeps the invariant, and from then on the thread is gone. -/
theorem ended (h : Steady base c) : Steady base c.ended where
  tickLength := h.tickLength
  settings := h.settings
  begun := rfl
  halted _ := ⟨rfl, rfl⟩
  fresh hr := by cases hr
  pins := by
    obtain ⟨asked, hcores, hone, href, hrel⟩ := h.pins
    have hnow : c.ended.pacing.pins =
        if c.isPinned then c.pacing.pins.release else c.pacing.pins := rfl
    have hfree : c.ended.isPinned = false := rfl
    rw [hfree, hnow]
    cases hp : c.isPinned <;> rw [hp] at hrel
    · exact ⟨asked, hcores, hone, href, hrel⟩
    · exact ⟨asked, hcores, hone, href, hrel⟩

/-- A running clock that has no thread takes one, and pins it if it should and can. -/
theorem ensure (h : Steady base c) (hr : c.pacing.stage.isRunning = true)
    (hs : c.ensureScheduler = .ok d) : Steady base d := by
  rcases ensureScheduler_ok hs with ⟨-, -, rfl⟩ | ⟨hn, s, pins, rfl, hpins⟩
  · exact h
  · rw [h.fresh hr hn] at hpins
    refine ⟨h.tickLength, h.settings, h.begun, ?_, fun _ he => (by cases he),
      hpins⟩
    intro he
    dsimp only at he
    rw [he] at hr
    cases hr

theorem schedule (h : Steady base c) (hr : c.pacing.stage.isRunning = true)
    (hs : c.schedule = .ok d) : Steady base d := by
  obtain ⟨e, he, rfl⟩ := schedule_ok hs
  exact (h.ensure hr he).of_eq rfl rfl rfl id rfl rfl

end Steady

end RealTimeClock

end Metronome
