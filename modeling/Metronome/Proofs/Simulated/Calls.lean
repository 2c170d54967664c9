-- What the calls of a callback do to a simulated clock. None of them moves the
-- time or frees the budget, and a start or a tick from inside a tick ends as
-- soon as it tries to tick.
import Metronome.Clock.Simulated
import Metronome.Proofs.Watchers

namespace Metronome

namespace SimulatedClock

/-! ## Calls that tick -/

/-- A start from inside a tick is heard of, but it does not tick. -/
theorem serve_start (c : SimulatedClock) :
    serve c .start =
      if c.ticking then (c, .error .alreadyRunning)
      else
        ((c.beginTicking.publish .started).endTicking.publish .stopped, .error .reentrantTick) := by
  cases ht : c.ticking with
  | true => simp [serve, answer, start, launch, ht, Answer.ofExcept]
  | false =>
    simp [serve, answer, start, launch, ht, run, Clock.beginTicking, Clock.publish,
      Clock.endTicking, Clock.reentrant, conclude, Answer.ofExcept]

theorem serve_tick (c : SimulatedClock) :
    serve c .tick =
      if c.ticking then (c, .error .alreadyRunning)
      else (c.beginTicking.endTicking, .error .reentrantTick) := by
  cases ht : c.ticking with
  | true => simp [serve, answer, single, ht, Answer.ofExcept]
  | false =>
    simp [serve, answer, single, ht, Clock.beginTicking, Clock.endTicking, Clock.reentrant,
      Answer.ofExcept, Except.map]

/-! ## What calls leave alone -/

/-- What no call changes that comes from inside a tick. -/
structure Spares (c d : SimulatedClock) : Prop where
  tickLength : d.tickLength = c.tickLength
  time : d.time = c.time
  dispatching : d.dispatching = c.dispatching

theorem Spares.refl (c : SimulatedClock) : Spares c c := ⟨rfl, rfl, rfl⟩

theorem Spares.trans {c d e : SimulatedClock} (h : Spares c d) (h' : Spares d e) : Spares c e :=
  ⟨h'.tickLength.trans h.tickLength, h'.time.trans h.time, h'.dispatching.trans h.dispatching⟩

theorem spares_beginTicking (c : SimulatedClock) : Spares c c.beginTicking := by
  unfold Clock.beginTicking
  split
  · exact .refl c
  · exact ⟨rfl, rfl, rfl⟩

theorem beginTicking_ticking (c : SimulatedClock) : c.beginTicking.ticking = true := by
  unfold Clock.beginTicking
  split
  · assumption
  · rfl

theorem beginTicking_feed (c : SimulatedClock) : c.beginTicking.feed = c.feed := by
  unfold Clock.beginTicking
  split <;> rfl

/-- A call that waits for nothing raises no flag, and what it takes of the notices is kept. -/
theorem serve_plain (c : SimulatedClock) {call : Call} (hs : call ≠ .start) (ht : call ≠ .tick) :
    Spares c (serve c call).1 ∧ ((serve c call).1.ticking = true → c.ticking = true) ∧
      ∀ (i : Nat) (taken all : List Notice), call ≠ .letGo i → c.feed.Sent i taken all →
        (serve c call).1.feed.Sent i (Feed.keep i call (serve c call).2 taken) all := by
  have quiet {d : SimulatedClock} {a : Answer} (hd : Spares c d)
      (hticking : d.ticking = true → c.ticking = true) (hf : d.feed = c.feed)
      (hk : ∀ j, call ≠ .drain j) :
      Spares c d ∧ (d.ticking = true → c.ticking = true) ∧
        ∀ (i : Nat) (taken all : List Notice), call ≠ .letGo i → c.feed.Sent i taken all →
          d.feed.Sent i (Feed.keep i call a taken) all := by
    refine ⟨hd, hticking, fun i taken all _ hsent => ?_⟩
    rw [hf, Feed.keep_of_ne hk]
    exact hsent
  cases call with
  | start => exact absurd rfl hs
  | tick => exact absurd rfl ht
  | stop =>
    simp only [serve, answer, stop]
    by_cases h : c.ticking = true
    · rw [if_pos h]
      exact quiet ⟨rfl, rfl, rfl⟩ (fun h' => by cases h') rfl (fun j hj => by cases hj)
    · rw [if_neg h]
      exact quiet (.refl c) id rfl (fun j hj => by cases hj)
  | register x =>
    simp only [serve, answer, Clock.register]
    cases c.roster.register? x with
    | none => exact quiet (.refl c) id rfl (fun j hj => by cases hj)
    | some roster => exact quiet ⟨rfl, rfl, rfl⟩ id rfl (fun j hj => by cases hj)
  | unregister x =>
    simp only [serve, answer, Clock.unregister]
    cases c.roster.unregister? x with
    | none => exact quiet (.refl c) id rfl (fun j hj => by cases hj)
    | some roster => exact quiet ⟨rfl, rfl, rfl⟩ id rfl (fun j hj => by cases hj)
  | interrupt => exact quiet ⟨rfl, rfl, rfl⟩ id rfl (fun j hj => by cases hj)
  | subscribe wanted =>
    refine ⟨⟨rfl, rfl, rfl⟩, id, fun i taken all _ hsent => ?_⟩
    rw [Feed.keep_of_ne (fun j hj => by cases hj)]
    exact hsent.subscribe wanted
  | drain j => exact ⟨⟨rfl, rfl, rfl⟩, id, fun i taken all _ hsent => hsent.drain j⟩
  | letGo j =>
    refine ⟨⟨rfl, rfl, rfl⟩, id, fun i taken all hl hsent => ?_⟩
    rw [Feed.keep_of_ne (fun j hj => by cases hj)]
    exact hsent.drop fun hj => hl (by rw [hj])
  | _ => exact quiet (.refl c) id rfl (fun j hj => by cases hj)

/-- Every call from inside a tick leaves the tick where it is. -/
theorem serve_spares (c : SimulatedClock) (call : Call) : Spares c (serve c call).1 := by
  by_cases hs : call = .start
  · rw [hs, serve_start]
    split
    · exact .refl c
    · exact (spares_beginTicking c).trans ⟨rfl, rfl, rfl⟩
  by_cases ht : call = .tick
  · rw [ht, serve_tick]
    split
    · exact .refl c
    · exact (spares_beginTicking c).trans ⟨rfl, rfl, rfl⟩
  exact (serve_plain c hs ht).1

/-- So do the callbacks. -/
theorem Spares.keeps (base : SimulatedClock) :
    Service.Keeps serve (fun _ => True) (Spares base) where
  budget _ _ h := ⟨h.tickLength, h.time, h.dispatching⟩
  call c call _ h := h.trans (serve_spares c call)

end SimulatedClock

end Metronome
