-- A clock only goes onward. What a stop did to it stays done, whoever takes
-- the next step, and most steps leave the scheduler thread and its pin alone.
import Metronome.Proofs.RealTime.Life

namespace Metronome

/-! ## A clock goes onward -/

namespace RealTimeClock

variable {c d : RealTimeClock}

/-- `d` is not further back than `c`. What a stop did to the clock stays done. -/
structure Onward (c d : RealTimeClock) : Prop where
  begun : c.pacing.stage.isInitial = false → d.pacing.stage.isInitial = false
  stopped : c.pacing.stage = .stopped → d.pacing.stage = .stopped
  quiet : c.pacing.stage = .stopped → c.ticking = false → d.ticking = false
  cleared : c.pacing.stage = .stopped → c.pacing.scheduler = none → d.pacing.scheduler = none

theorem Onward.refl (c : RealTimeClock) : Onward c c := ⟨id, id, fun _ => id, fun _ => id⟩

/-- What most steps do to the clock: they leave the scheduler thread and its pin alone, and they
neither begin nor end the run. -/
structure Light (c d : RealTimeClock) : Prop where
  initial : d.pacing.stage.isInitial = c.pacing.stage.isInitial
  stopped : d.pacing.stage = .stopped ↔ c.pacing.stage = .stopped
  ticking : d.ticking = true → c.ticking = true
  scheduler : d.pacing.scheduler = c.pacing.scheduler
  settings : d.pacing.settings = c.pacing.settings
  pins : d.pacing.pins = c.pacing.pins
  rested : Rested c → Rested d

namespace Light

theorem refl (c : RealTimeClock) : Light c c := ⟨rfl, Iff.rfl, id, rfl, rfl, rfl, id⟩

/-- In a run that has begun, nothing has to be said about a clock at rest. -/
theorem of_begun (h : c.pacing.stage.isInitial = false)
    (hs : d.pacing.stage = c.pacing.stage) (ht : d.ticking = true → c.ticking = true)
    (hsch : d.pacing.scheduler = c.pacing.scheduler)
    (hset : d.pacing.settings = c.pacing.settings) (hp : d.pacing.pins = c.pacing.pins) :
    Light c d :=
  ⟨by rw [hs], by rw [hs], ht, hsch, hset, hp, fun hr => by rw [hr.initial] at h; cases h⟩

theorem of_spares (h : c.pacing.stage.isInitial = false) (s : Spares c d) : Light c d :=
  of_begun h s.stage (fun ht => s.ticking ▸ ht) s.scheduler s.settings s.pins

theorem of_grants (h : c.pacing.stage.isInitial = false) (g : Grants c d) : Light c d where
  initial := by rw [g.stage, grantedStage_isInitial]
  stopped := by
    rw [g.stage]
    cases c.pacing.pending <;> cases c.pacing.stage <;> simp [grantedStage]
  ticking ht := g.ticking ▸ ht
  scheduler := g.scheduler
  settings := g.settings
  pins := g.pins
  rested hr := by rw [hr.initial] at h; cases h

theorem onward (h : Light c d) : Onward c d where
  begun hb := h.initial.trans hb
  stopped := h.stopped.mpr
  quiet _ ht := by
    cases hd : d.ticking with
    | false => rfl
    | true => rw [h.ticking hd] at ht; cases ht
  cleared _ hn := h.scheduler.trans hn

theorem isPinned (h : Light c d) : d.isPinned = c.isPinned := by
  unfold RealTimeClock.isPinned
  rw [h.scheduler]

end Light

/-- What a step leaves alone that is not part of a tick. -/
structure Calm (c d : RealTimeClock) : Prop where
  tickLength : d.tickLength = c.tickLength
  time : d.time = c.time
  budget : d.budget = c.budget
  dispatching : d.dispatching = c.dispatching
  settings : d.pacing.settings = c.pacing.settings

theorem Calm.refl (c : RealTimeClock) : Calm c c := ⟨rfl, rfl, rfl, rfl, rfl⟩

theorem Calm.of_grants (g : Grants c d) : Calm c d :=
  ⟨g.tickLength, g.time, g.budget, g.dispatching, g.settings⟩

/-- A call that neither starts nor stops the clock is light and calm. -/
theorem serve_light {call : Call} (hp : call.isPublic = true) (hstop : call ≠ .stop)
    (hstart : call ≠ .start) : Light c (serve c call).1 ∧ Calm c (serve c call).1 := by
  cases hi : c.pacing.stage.isInitial with
  | false =>
    rcases serve_cases hp hi with ⟨hs, -⟩ | hs
    · exact absurd hs hstop
    · exact ⟨.of_spares hi hs, hs.tickLength, hs.time, hs.budget, hs.dispatching, hs.settings⟩
  | true =>
    have hrested (h : Rested c) : Rested (serve c call).1 := h.serve hp hstart
    have hmove (s : Stage) (hs : s.isInitial = true) (hr : Rested c → Rested (c.moveTo s)) :
        Light c (c.moveTo s) ∧ Calm c (c.moveTo s) := by
      obtain ⟨feed, hm⟩ := moveTo_eq c s
      rw [hm] at hr ⊢
      refine ⟨⟨hs.trans hi.symm, ⟨?_, ?_⟩, id, rfl, rfl, rfl, hr⟩,
        rfl, rfl, rfl, rfl, rfl⟩
      · intro h
        rw [show s = .stopped from h] at hs
        cases hs
      · intro h
        rw [h] at hi
        cases hi
    cases call with
    | stop => exact absurd rfl hstop
    | start => exact absurd rfl hstart
    | override o => cases hp
    | switchToRealTime =>
      simp only [serve, answer] at hrested ⊢
      rcases switchToRealTime_initial hi with he | he <;> rw [he] at hrested ⊢
      · exact ⟨.refl c, .refl c⟩
      · exact hmove _ rfl hrested
    | switchToSimulated =>
      simp only [serve, answer] at hrested ⊢
      rcases switchToSimulated_initial hi with he | he <;> rw [he] at hrested ⊢
      · exact ⟨.refl c, .refl c⟩
      · exact hmove _ rfl hrested
    | register x =>
      simp only [serve, answer, Clock.register] at hrested ⊢
      split at hrested <;>
        exact ⟨⟨rfl, Iff.rfl, id, rfl, rfl, rfl, hrested⟩, rfl, rfl, rfl, rfl, rfl⟩
    | unregister x =>
      simp only [serve, answer, Clock.unregister] at hrested ⊢
      split at hrested <;>
        exact ⟨⟨rfl, Iff.rfl, id, rfl, rfl, rfl, hrested⟩, rfl, rfl, rfl, rfl, rfl⟩
    | jitter =>
      simp only [serve, answer, jitter] at hrested ⊢
      split at hrested <;>
        exact ⟨⟨rfl, Iff.rfl, id, rfl, rfl, rfl, hrested⟩, rfl, rfl, rfl, rfl, rfl⟩
    | _ => exact ⟨⟨rfl, Iff.rfl, id, rfl, rfl, rfl, hrested⟩, rfl, rfl, rfl, rfl, rfl⟩

/-- The answer to a callback leaves the tick where it is. -/
theorem reply_light (phase : Phase) (hb : c.pacing.stage.isInitial = false) {call : Call}
    (hp : call.isPublic = true) (hstop : call ≠ .stop) :
    Light c (Program.reply serve phase c call).1 ∧
      (Program.reply serve phase c call).1.tickLength = c.tickLength ∧
      (Program.reply serve phase c call).1.time = c.time ∧
      (Program.reply serve phase c call).1.budget.start = c.budget.start := by
  unfold Program.reply
  cases ho : Program.onBudget phase c call with
  | none =>
    rcases serve_cases hp hb with ⟨h, -⟩ | h
    · exact absurd h hstop
    · exact ⟨.of_spares hb h, h.tickLength, h.time, by rw [Option.getD_none, h.budget]⟩
  | some a =>
    obtain ⟨left, ha⟩ := Program.onBudget_cases ho
    rw [Option.getD_some, ha]
    exact ⟨.of_begun hb rfl id rfl rfl rfl, rfl, rfl, rfl⟩

end RealTimeClock

end Metronome
