-- Where an error comes from. A tick that is dispatched step by step writes
-- down what happens in it, and the error that it ends with is in the
-- chronicle, whatever other threads do to the clock meanwhile.
import Metronome.Proofs.Threads.Custody
import Metronome.Proofs.Threads.Tasks

namespace Metronome

/-- Something in the chronicle is this error. -/
def Chronicle.Knows (L : Int) (l : Chronicle) (e : ClockError) : Prop :=
  ∃ h ∈ l, h.error? L = some e

theorem Chronicle.Knows.append {L : Int} {l : Chronicle} {e : ClockError} (h : l.Knows L e)
    (news : Chronicle) : Chronicle.Knows L (l ++ news) e := by
  obtain ⟨x, hx, he⟩ := h
  exact ⟨x, List.mem_append_left _ hx, he⟩

theorem Chronicle.knows_last {L : Int} {l : Chronicle} {x : Happening} {e : ClockError}
    (h : x.error? L = some e) : Chronicle.Knows L (l ++ [x]) e :=
  ⟨x, by simp, h⟩

/-- A tick that stands here has the budget for itself, and its callback makes public calls. -/
def Dispatch.Fits {σ : Type} (c : RealTimeClock) : Dispatch σ → Prop
  | .knocking => c.dispatching = false
  | .calling r => c.budget.start = r.start
  | .inside r _ b p =>
    c.budget.start = r.start ∧ b.start = r.start ∧ p.Asks fun call => call.isPublic = true
  | .waiting r _ b _ next =>
    c.budget.start = r.start ∧ b.start = r.start ∧
      ∀ a, (next a).Asks fun call => call.isPublic = true
  | .settling => True

theorem Dispatch.Fits.calm {σ : Type} {c d : RealTimeClock} {x : Dispatch σ} (h : x.Fits c)
    (hd : RealTimeClock.Calm c d) : x.Fits d := by
  cases x <;> simp only [Fits, hd.budget, hd.dispatching] at h ⊢ <;> exact h

/-- The thread that starts the clock dispatches a tick. -/
def Main.ticksOn {σ : Type} : Main σ → Bool
  | .ticking _ => true
  | _ => false

theorem Main.ne_ticking {σ : Type} {m : Main σ} (h : m.ticksOn = false) (d : Dispatch σ) :
    m ≠ .ticking d := by
  intro hm
  rw [hm] at h
  cases h

/-- The scheduler thread dispatches a tick. -/
def Duty.ticksOn {σ : Type} : Duty σ → Bool
  | .ticking _ => true
  | _ => false

theorem Duty.ne_ticking {σ : Type} {x : Duty σ} (h : x.ticksOn = false) (d : Dispatch σ) :
    x ≠ .ticking d := by
  intro hx
  rw [hx] at h
  cases h

namespace Scene

variable {σ : Type} {behave : Behaviour σ} {base : RealTimeClock} {s t : Scene σ}

/-! ## One step of a tick -/

/-- What one step of a tick does to the threads around it. -/
structure Ticks (s t : Scene σ) : Prop where
  light : RealTimeClock.Light s.clock t.clock
  tickLength : t.clock.tickLength = s.clock.tickLength
  time : 0 ≤ s.clock.time → 0 ≤ t.clock.time
  main : t.main = s.main
  spawned : t.spawned = s.spawned
  worker : t.worker = s.worker
  duty : t.duty = s.duty
  stops : t.stops = s.stops ∨ ∃ own, t.stops = (s.addStop own .entering).stops
  told : ∃ news, t.told = s.told ++ news

/-- Where a tick stands after a step. If it is over, the budget is free again, and its error is in
the chronicle. -/
def Comes (L : Int) (t : Scene σ) : Dispatch σ ⊕ Except ClockError TickEnd → Prop
  | .inl d => d.Fits t.clock
  | .inr r => t.clock.dispatching = false ∧ ∀ e, r = .error e → t.told.Knows L e

variable {thread : Thread} {r : Dispatch σ ⊕ Except ClockError TickEnd}

/-- The budget of a tick is lent out, or the time has no room for it. -/
theorem knocking_comes (hbegun : s.clock.pacing.stage.isInitial = false)
    (hL : 0 < s.clock.tickLength) (ht : 0 ≤ s.clock.time) (hidle : s.clock.dispatching = false)
    (hs : s.dispatchStep behave thread .knocking = some (t, r)) :
    Ticks s t ∧ Comes s.clock.tickLength t r := by
  have hlend := Clock.lend_eq hidle hL ht
  by_cases hf : Signed.Fits (s.clock.time + s.clock.tickLength)
  · rw [if_pos hf] at hlend
    simp only [dispatchStep, hlend] at hs
    cases hs
    exact ⟨⟨.of_begun hbegun rfl id rfl rfl rfl, rfl, id, rfl, rfl, rfl, rfl, .inl rfl, _, rfl⟩,
      rfl⟩
  · rw [if_neg hf] at hlend
    simp only [dispatchStep, hlend] at hs
    cases hs
    refine ⟨⟨.refl _, rfl, id, rfl, rfl, rfl, rfl, .inl rfl, _, rfl⟩, hidle, ?_⟩
    intro e he
    cases he
    exact Chronicle.knows_last (if_neg hf)

/-- The next callback is called, or the next round begins. -/
theorem calling_comes (hb : behave.Public) (hbegun : s.clock.pacing.stage.isInitial = false)
    {round : Round} (hstart : s.clock.budget.start = round.start)
    (hs : s.dispatchStep behave thread (.calling round) = some (t, r)) :
    Ticks s t ∧ Comes s.clock.tickLength t r := by
  obtain ⟨phase, start, names, rest⟩ := round
  simp only [dispatchStep] at hs
  cases rest with
  | cons x rest =>
    cases hs
    exact ⟨⟨.refl _, rfl, id, rfl, rfl, rfl, rfl, .inl rfl, [], by simp⟩, hstart, hstart,
      hb ⟨x, phase, s.clock.budget, thread⟩ s.world⟩
  | nil =>
    cases phase <;> cases hs
    · exact ⟨⟨.of_begun hbegun rfl id rfl rfl rfl, rfl, id, rfl, rfl, rfl, rfl, .inl rfl,
        [], by simp⟩, hstart⟩
    · exact ⟨⟨.refl _, rfl, id, rfl, rfl, rfl, rfl, .inl rfl, [], by simp⟩, trivial⟩

/-- A callback comes to its end. If it fails, so does the tick. -/
theorem finishing_comes (hbegun : s.clock.pacing.stage.isInitial = false) {round : Round}
    {x : Listener} {b : Budget} {world : σ} {verdict : Verdict}
    (hstart : s.clock.budget.start = round.start) (hbudget : b.start = round.start)
    (hs : s.dispatchStep behave thread (.inside round x b (.finish world verdict)) = some (t, r)) :
    Ticks s t ∧ Comes s.clock.tickLength t r := by
  simp only [dispatchStep] at hs
  cases he : verdict.error? round.start with
  | none =>
    rw [he] at hs
    cases hs
    exact ⟨⟨.refl _, rfl, id, rfl, rfl, rfl, rfl, .inl rfl, _, rfl⟩, hstart⟩
  | some e =>
    rw [he] at hs
    cases hs
    refine ⟨⟨.of_begun hbegun rfl id rfl rfl rfl, rfl, id, rfl, rfl, rfl, rfl, .inl rfl,
      _, rfl⟩, rfl, ?_⟩
    intro e' he'
    cases he'
    apply Chronicle.knows_last
    rw [Happening.error?, hbudget, he]

/-- A callback makes a call. A stop is only issued here, and the callback waits for it. -/
theorem asking_comes (hbegun : s.clock.pacing.stage.isInitial = false) {round : Round}
    {x : Listener} {b : Budget} {call : Call} {next : Answer → Program σ}
    (hstart : s.clock.budget.start = round.start) (hbudget : b.start = round.start)
    (hp : (Program.ask call next).Asks fun call => call.isPublic = true)
    (hs : s.dispatchStep behave thread (.inside round x b (.ask call next)) = some (t, r)) :
    Ticks s t ∧ Comes s.clock.tickLength t r := by
  simp only [dispatchStep] at hs
  by_cases hc : call = .stop
  · rw [if_pos hc] at hs
    cases hs
    exact ⟨⟨.refl _, rfl, id, rfl, rfl, rfl, rfl, .inr ⟨_, rfl⟩, [], by simp [addStop]⟩,
      hstart, hbudget, hp.2⟩
  · rw [if_neg hc] at hs
    cases hs
    obtain ⟨hlight, hlen, htime, hsame⟩ := RealTimeClock.reply_light round.phase hbegun hp.1 hc
    exact ⟨⟨hlight, hlen, fun h => htime ▸ h, rfl, rfl, rfl, rfl, .inl rfl, [], by simp⟩,
      hsame.trans hstart, hbudget, hp.2 _⟩

/-- The time of the clock goes on by one tick. -/
theorem settling_comes (hbegun : s.clock.pacing.stage.isInitial = false)
    (hL : 0 < s.clock.tickLength)
    (hs : s.dispatchStep behave thread .settling = some (t, r)) :
    Ticks s t ∧ Comes s.clock.tickLength t r := by
  cases hs
  have htime : 0 ≤ s.clock.time → 0 ≤ s.clock.time + s.clock.tickLength := by omega
  unfold Clock.advance
  by_cases hi : s.clock.interrupted = true
  · rw [if_pos hi]
    exact ⟨⟨.of_begun hbegun rfl (fun h => by cases h) rfl rfl rfl, rfl, htime, rfl, rfl, rfl,
      rfl, .inl rfl, [], by simp⟩, rfl, fun e he => by cases he⟩
  · rw [if_neg hi]
    exact ⟨⟨.of_begun hbegun rfl id rfl rfl rfl, rfl, htime, rfl, rfl, rfl, rfl, .inl rfl, [],
      by simp⟩, rfl, fun e he => by cases he⟩

theorem dispatchStep_comes (hb : behave.Public) (thread : Thread) {d : Dispatch σ}
    (hbegun : s.clock.pacing.stage.isInitial = false) (hL : 0 < s.clock.tickLength)
    (ht : 0 ≤ s.clock.time) (hd : d.Fits s.clock)
    (hs : s.dispatchStep behave thread d = some (t, r)) :
    Ticks s t ∧ Comes s.clock.tickLength t r := by
  cases d with
  | knocking => exact knocking_comes hbegun hL ht hd hs
  | calling round => exact calling_comes hb hbegun hd hs
  | inside round x b p =>
    obtain ⟨hstart, hbudget, hp⟩ := hd
    cases p with
    | finish world verdict => exact finishing_comes hbegun hstart hbudget hs
    | ask call next => exact asking_comes hbegun hstart hbudget hp hs
  | waiting round x b i next =>
    obtain ⟨hstart, hbudget, hp⟩ := hd
    have hwaited (a : Answer) : Ticks s s ∧
        Comes s.clock.tickLength s (.inl (.inside round x b (next a))) :=
      ⟨⟨.refl _, rfl, id, rfl, rfl, rfl, rfl, .inl rfl, [], by simp⟩, hstart, hbudget, hp a⟩
    simp only [dispatchStep] at hs
    split at hs <;> cases hs
    · exact hwaited .done
    · exact hwaited _
  | settling => exact settling_comes hbegun hL hs

/-! ## The invariant -/

/-- What the thread that starts the clock holds on to. -/
def Explains (s : Scene σ) : Prop :=
  match s.main with
  | .ticking d => d.Fits s.clock
  | .clearing (some e) | .closing (some e) | .leaving _ (some e) | .finished (.failed e) =>
    s.told.Knows s.clock.tickLength e
  | .finished (.broken _) => s.clock.pacing.settings.threadCanStart = false
  | .lost => s.clock.ticking = false
  | _ => True

structure Traced (base : RealTimeClock) (s : Scene σ) : Prop where
  tickLength : s.clock.tickLength = base.tickLength
  time : 0 ≤ s.clock.time
  main : s.Explains
  duty : ∀ d, s.duty = .ticking d → d.Fits s.clock
  idle : (∀ d, s.main ≠ .ticking d) → (∀ d, s.duty ≠ .ticking d) → s.clock.dispatching = false
  fails : ∀ e, s.worker.Fails e → s.told.Knows s.clock.tickLength e

/-- A tick on the thread that starts the clock has the budget for itself. -/
theorem Traced.fits (h : Traced base s) {d : Dispatch σ} (hm : s.main = .ticking d) :
    d.Fits s.clock := by
  have hx := h.main
  unfold Explains at hx
  rwa [hm] at hx

/-- A step of another thread than the two that dispatch ticks. -/
theorem Traced.calm (h : Traced base s) (hc : RealTimeClock.Calm s.clock t.clock)
    (ht : t.clock.ticking = true → s.clock.ticking = true) (hm : t.main = s.main)
    (hd : t.duty = s.duty) (hold : t.told = s.told)
    (hf : ∀ e, t.worker.Fails e → s.worker.Fails e) : Traced base t where
  tickLength := hc.tickLength.trans h.tickLength
  time := by rw [hc.time]; exact h.time
  main := by
    have hs := h.main
    unfold Explains at hs ⊢
    rw [hm, hold, hc.tickLength, hc.settings]
    split at hs
    · exact hs.calm hc
    · exact hs
    · exact hs
    · exact hs
    · exact hs
    · exact hs
    · cases hq : t.clock.ticking with
      | false => rfl
      | true => rw [ht hq] at hs; cases hs
    · trivial
  duty d hd' := (h.duty d (hd ▸ hd')).calm hc
  idle hm' hd' := hc.dispatching.trans (h.idle (hm ▸ hm') (hd ▸ hd'))
  fails e he := by
    rw [hold, hc.tickLength]
    exact h.fails e (hf e he)

/-- A step of the thread that starts the clock, apart from its ticks. -/
theorem Traced.turn (h : Traced base s) (hc : RealTimeClock.Calm s.clock t.clock)
    (hm : ∀ d, s.main ≠ .ticking d) (hd : t.duty = s.duty) (hold : t.told = s.told)
    (hf : ∀ e, t.worker.Fails e → s.worker.Fails e) (he : t.Explains) : Traced base t where
  tickLength := hc.tickLength.trans h.tickLength
  time := by rw [hc.time]; exact h.time
  main := he
  duty d hd' := (h.duty d (hd ▸ hd')).calm hc
  idle _ hd' := hc.dispatching.trans (h.idle hm (hd ▸ hd'))
  fails e he := by
    rw [hold, hc.tickLength]
    exact h.fails e (hf e he)

end Scene

end Metronome
