-- What a watcher is sent. Notices may be taken out of its queue at any time and
-- by anyone. What was taken and what still waits is all that was published
-- since the watcher came, in order.
import Metronome.Proofs.Feeds
import Metronome.Proofs.RealTime.Run
import Metronome.Proofs.Scribes

namespace Metronome

/-! ## Queues -/

/-- A public call that does not make watcher `i` let go. -/
def Call.LeavesHeld (i : Nat) (call : Call) : Prop := call.isPublic = true ∧ call ≠ .letGo i

namespace Feed

variable {f : Feed} {i j : Nat} {taken all : List Notice}

/-- What waits for watcher `i`. -/
def queue (f : Feed) (i : Nat) : List Notice := ((f.subscriptions[i]?).map (·.queue)).getD []

/-- Watcher `i` wants to hear everything, and this is all that it was sent: some of it was taken,
and the rest waits. -/
def Sent (f : Feed) (i : Nat) (taken all : List Notice) : Prop :=
  ∃ l, f.subscriptions[i]? = some { queue := l } ∧ taken ++ l = all

namespace Sent

theorem queue (h : f.Sent i taken all) : taken ++ f.queue i = all := by
  obtain ⟨l, hl, rfl⟩ := h
  simp [Feed.queue, hl]

theorem publish (h : f.Sent i taken all) (n : Notice) :
    (f.publish n).Sent i taken (all ++ [n]) := by
  obtain ⟨l, hl, rfl⟩ := h
  exact ⟨l ++ [n], Waits.publish hl n, (List.append_assoc _ _ _).symm⟩

theorem subscribe (h : f.Sent i taken all) (wanted : Option (List Event)) :
    (f.subscribe wanted).1.Sent i taken all := by
  obtain ⟨l, hl, rfl⟩ := h
  exact ⟨l, Waits.subscribe hl wanted, rfl⟩

theorem drop (h : f.Sent i taken all) (hj : j ≠ i) : (f.drop j).Sent i taken all := by
  obtain ⟨l, hl, rfl⟩ := h
  exact ⟨l, Waits.drop_of_ne hl hj, rfl⟩

end Sent

/-- The scribe of watcher `i` keeps what is taken out of its queue. -/
def keep (i : Nat) : Call → Answer → List Notice → List Notice
  | .drain j, .notices (some l), taken => if j = i then taken ++ l else taken
  | _, _, taken => taken

theorem keep_of_ne {call : Call} (h : ∀ j, call ≠ .drain j) (a : Answer) :
    keep i call a taken = taken := by
  cases call with
  | drain j => exact absurd rfl (h j)
  | _ => rfl

theorem Sent.drain (h : f.Sent i taken all) (j : Nat) :
    (f.drain j).1.Sent i (keep i (.drain j) (.notices (f.drain j).2) taken) all := by
  obtain ⟨l, hl, rfl⟩ := h
  by_cases hj : j = i
  · subst hj
    obtain ⟨hwaits, hqueue⟩ := Waits.drain hl
    rw [hqueue]
    exact ⟨[], hwaits, by simp [keep]⟩
  · have hkeep (a : Option (List Notice)) : keep i (.drain j) (.notices a) taken = taken := by
      cases a <;> simp [keep, hj]
    rw [hkeep]
    exact ⟨l, Waits.drain_of_ne hl hj, rfl⟩

/-- The newest watcher was sent nothing yet. -/
theorem sent_subscribe (f : Feed) :
    (f.subscribe none).1.Sent f.subscriptions.length [] [] :=
  ⟨[], waits_subscribe f none, rfl⟩

end Feed

/-! ## A watcher of a real-time clock -/

namespace RealTimeClock

variable {σ : Type} {base c : RealTimeClock} {i : Nat} {taken all : List Notice}

/-- Once the run has begun, no request is heard of before the end of the tick. Before the run,
only those calls are heard of that turn the clock to another stage. -/
theorem serve_feed {call : Call} (hp : call.isPublic = true) (hw : call.isWatching = false)
    (h : call.isTurning = true → c.pacing.stage.isInitial = false) :
    (serve c call).1.feed = c.feed := by
  by_cases ht : call.isTurning = true
  · have hbegun := h ht
    cases call with
    | start =>
      obtain ⟨e, he⟩ := launch_begun hbegun
      simp only [serve, answer, start, he]
    | stop =>
      simp only [serve, answer, stop_eq hbegun]
      rfl
    | switchToRealTime =>
      simp only [serve, answer, switchToRealTime_begun hbegun]
      split <;> rfl
    | switchToSimulated =>
      simp only [serve, answer, switchToSimulated_begun hbegun]
      split <;> rfl
    | _ => cases ht
  · obtain ⟨_, _, feed, _, he, hfeed⟩ := serve_plain c hp (Bool.eq_false_iff.mpr ht)
    rw [he]
    exact hfeed hw

/-- Calls that bring no news leave the watcher with what it was sent, and what they take out of
its queue is kept. -/
theorem serve_sent {call : Call} (hl : call.LeavesHeld i)
    (h : call.isTurning = true → c.pacing.stage.isInitial = false)
    (hs : c.feed.Sent i taken all) :
    (serve c call).1.feed.Sent i (Feed.keep i call (serve c call).2 taken) all := by
  obtain ⟨hp, hne⟩ := hl
  by_cases hw : call.isWatching = true
  · cases call with
    | subscribe wanted =>
      rw [Feed.keep_of_ne (fun j hj => by cases hj)]
      exact hs.subscribe wanted
    | drain j => exact hs.drain j
    | letGo j =>
      rw [Feed.keep_of_ne (fun j hj => by cases hj)]
      exact hs.drop fun hj => hne (by rw [hj])
    | _ => cases hw
  · rw [serve_feed hp (Bool.eq_false_iff.mpr hw) h, Feed.keep_of_ne]
    · exact hs
    · intro j hj
      rw [hj] at hw
      exact hw rfl

/-- Listeners whose watcher `i` keeps what is taken out of its queue. -/
abbrev keeping (i : Nat) (behave : Behaviour σ) : Behaviour (σ × List Notice) :=
  behave.scribed (Feed.keep i)

theorem keeping_public {behave : Behaviour σ} (hb : behave.Asks (Call.LeavesHeld i)) :
    (keeping i behave).Public := by
  have hkeeping : (keeping i behave).Asks (Call.LeavesHeld i) := Behaviour.scribed_asks hb
  exact fun v world => (hkeeping v world).imp fun _ h => h.1

/-- A watcher keeps what it takes, call by call. -/
theorem lent_notes (base : RealTimeClock) (t : Int) (i : Nat) (all : List Notice) :
    serve.Notes (Call.LeavesHeld i) (Feed.keep i)
      fun c taken => Lent base t c ∧ c.feed.Sent i taken all where
  budget c left _ h := ⟨(Lent.keeps base t).budget c left h.1, h.2⟩
  call c call _ hl h :=
    ⟨(Lent.keeps base t).call c call hl.1 h.1, serve_sent hl (fun _ => h.1.steady.begun) h.2⟩
  aside phase c call r taken h := by
    apply Feed.keep_of_ne
    intro j hj
    rw [hj] at h
    cases h

end RealTimeClock

end Metronome
