-- When a feed strikes off a watcher that has let go. Nobody tells the feed: it
-- finds an end let go of when it sends there, and it sends what is wanted. So it
-- still counts whoever left and has missed nothing that it wanted.
import Metronome.Proofs.Feeds
import Mathlib.Data.List.Forall2

namespace Metronome

namespace Feed

/-! ## The guest book -/

/-- A watcher as everyone can see it, and not the feed alone. -/
structure Guest where
  wanted : Option (List Event)
  /-- What was published since it let go. There is nothing to miss while it holds its end. -/
  missed : Option (List Notice) := none
  deriving DecidableEq, Repr

namespace Guest

/-- It has not let go. -/
def stays (g : Guest) : Bool := g.missed.isNone

/-- It has let go, and nothing that it wants was published since. -/
def lingers (g : Guest) : Bool := g.missed.any fun l => l.all fun n => !admits g.wanted n

def hear (n : Notice) (g : Guest) : Guest := { g with missed := g.missed.map (· ++ [n]) }

/-- Letting go twice is letting go once. -/
def leave (g : Guest) : Guest := { g with missed := some (g.missed.getD []) }

end Guest

/-- Every watcher ever, by its number, behind one more act. -/
def enter (book : List Guest) : Act → List Guest
  | .subscribe wanted => book ++ [{ wanted }]
  | .publish n => book.map (·.hear n)
  | .drain _ => book
  | .drop i => book.modify i Guest.leave

/-- The guest book of a history. -/
def guests (acts : List Act) : List Guest := acts.foldl enter []

/-! ## What the feed knows of a guest -/

/-- The subscription of a guest. -/
inductive Knows : Guest → Subscription → Prop
  | stays (wanted : Option (List Event)) (queue : List Notice) :
      Knows { wanted } { wanted, queue }
  | lingers (wanted : Option (List Event)) (queue : List Notice) {l : List Notice} :
      (∀ n ∈ l, admits wanted n = false) →
        Knows { wanted, missed := some l } { wanted, queue, held := false }
  | gone (wanted : Option (List Event)) (queue : List Notice) {l : List Notice} :
      (∃ n ∈ l, admits wanted n = true) →
        Knows { wanted, missed := some l } { wanted, queue, held := false, listed := false }

variable {g : Guest} {s : Subscription} {book : List Guest} {l : List Subscription} {f : Feed}

namespace Knows

theorem held (h : Knows g s) : s.held = g.stays := by cases h <;> rfl

theorem listed (h : Knows g s) : s.listed = (g.stays || g.lingers) := by
  cases h with
  | stays wanted queue => rfl
  | lingers wanted queue hmissed => simpa [Guest.stays, Guest.lingers] using hmissed
  | gone wanted queue hmissed => simpa [Guest.stays, Guest.lingers] using hmissed

/-- An event that is wanted is sent, or finds that nobody is there. Another one is not sent. -/
theorem deliver (h : Knows g s) (n : Notice) : Knows (g.hear n) (s.deliver n) := by
  cases h with
  | stays wanted queue =>
    rw [Subscription.deliver, wants_eq]
    cases admits wanted n <;> exact .stays wanted _
  | @lingers wanted queue missed hmissed =>
    have hwants :
        Subscription.wants { wanted, queue, held := false } n.event = admits wanted n := by
      cases wanted <;> rfl
    rw [Subscription.deliver, hwants]
    cases hn : admits wanted n with
    | true => exact .gone wanted queue ⟨n, by simp, hn⟩
    | false =>
      refine .lingers wanted queue fun m hm => ?_
      rcases List.mem_append.mp hm with hm | hm
      · exact hmissed m hm
      · rw [List.mem_singleton.mp hm, hn]
  | gone wanted queue hmissed =>
    obtain ⟨m, hm, hwanted⟩ := hmissed
    exact .gone wanted queue ⟨m, List.mem_append_left _ hm, hwanted⟩

theorem drain (h : Knows g s) : Knows g (if s.held then { s with queue := [] } else s) := by
  cases h with
  | stays wanted queue => exact .stays wanted []
  | lingers wanted queue hmissed => exact .lingers wanted queue hmissed
  | gone wanted queue hmissed => exact .gone wanted queue hmissed

theorem leave (h : Knows g s) : Knows g.leave { s with held := false, queue := [] } := by
  cases h with
  | stays wanted queue => exact .lingers wanted [] (by simp)
  | lingers wanted queue hmissed => exact .lingers wanted [] hmissed
  | gone wanted queue hmissed => exact .gone wanted [] hmissed

end Knows

/-! ## What the feed knows of them all -/

theorem drain_subscriptions (f : Feed) (i : Nat) :
    (f.drain i).1.subscriptions =
      f.subscriptions.modify i fun s => if s.held then { s with queue := [] } else s := by
  rw [List.modify_eq_set_getElem?]
  unfold Feed.drain
  rcases hs : f.subscriptions[i]? with _ | s
  · rfl
  · by_cases hheld : s.held = true
    · simp [hheld]
    · obtain ⟨hi, hget⟩ := List.getElem?_eq_some_iff.mp hs
      have hsame : f.subscriptions.set i s = f.subscriptions := by
        rw [← hget, List.set_getElem_self]
      simp [hheld, hsame]

theorem drop_subscriptions (f : Feed) (i : Nat) :
    (f.drop i).subscriptions =
      f.subscriptions.modify i fun s => { s with held := false, queue := [] } := by
  rw [List.modify_eq_set_getElem?]
  unfold Feed.drop
  rcases f.subscriptions[i]? with _ | s <;> rfl

/-- A guest and its subscription change together. -/
theorem modify_knows {leave : Guest → Guest} {change : Subscription → Subscription}
    (hone : ∀ g s, Knows g s → Knows (leave g) (change s)) (h : List.Forall₂ Knows book l)
    (i : Nat) :
    List.Forall₂ Knows (book.modify i leave) (l.modify i change) := by
  induction h generalizing i with
  | nil =>
    rw [List.modify_nil, List.modify_nil]
    exact .nil
  | cons hfirst hrest ih =>
    cases i with
    | zero => exact .cons (hone _ _ hfirst) hrest
    | succ i => exact .cons hfirst (ih i)

theorem knows_act (h : List.Forall₂ Knows book f.subscriptions) (a : Act) :
    List.Forall₂ Knows (enter book a) (f.act a).subscriptions := by
  cases a with
  | subscribe wanted => exact List.rel_append h (.cons (.stays wanted []) .nil)
  | publish n => exact List.rel_map (fun _ _ hone => hone.deliver n) h
  | drain i =>
    rw [Feed.act, drain_subscriptions, enter, ← List.modify_id i book]
    exact modify_knows (fun _ _ hone => hone.drain) h i
  | drop i =>
    rw [Feed.act, drop_subscriptions]
    exact modify_knows (fun _ _ hone => hone.leave) h i

theorem knows_after (h : List.Forall₂ Knows book f.subscriptions) (acts : List Act) :
    List.Forall₂ Knows (acts.foldl enter book) (f.after acts).subscriptions := by
  induction acts generalizing f book with
  | nil => exact h
  | cons a acts ih => exact ih (knows_act h a)

/-! ## Counting -/

theorem map_held (h : List.Forall₂ Knows book l) : l.map (·.held) = book.map Guest.stays := by
  induction h with
  | nil => rfl
  | cons hfirst _ ih => rw [List.map_cons, List.map_cons, hfirst.held, ih]

theorem map_listed (h : List.Forall₂ Knows book l) :
    l.map (·.listed) = book.map fun g => g.stays || g.lingers := by
  induction h with
  | nil => rfl
  | cons hfirst _ ih => rw [List.map_cons, List.map_cons, hfirst.listed, ih]

/-- Nobody stays and lingers. -/
theorem countP_stays_or_lingers (book : List Guest) :
    book.countP (fun g => g.stays || g.lingers) =
      book.countP Guest.stays + book.countP Guest.lingers := by
  induction book with
  | nil => rfl
  | cons g book ih =>
    have hone : g.stays = true → g.lingers = false := by
      cases hm : g.missed <;> simp [Guest.stays, Guest.lingers, hm]
    rw [List.countP_cons, List.countP_cons, List.countP_cons, ih]
    cases hs : g.stays with
    | true => simp [hone hs]; omega
    | false => simp; omega

/-- A guest that lingers behind a publication did not want it. -/
theorem not_admits_of_lingers {n : Notice} (hg : g ∈ enter book (.publish n))
    (hl : g.lingers = true) : admits g.wanted n = false := by
  obtain ⟨before, -, rfl⟩ := List.mem_map.mp hg
  cases hm : before.missed with
  | none => simp [Guest.lingers, Guest.hear, hm] at hl
  | some l =>
    simp only [Guest.lingers, Guest.hear, hm, Option.map_some, Option.any_some, List.all_append,
      List.all_cons, List.all_nil, Bool.and_true, Bool.and_eq_true] at hl
    simpa [Guest.hear] using hl.2

/-- Behind every publication the feed knows everyone who holds an end, and whoever let go and has
missed nothing since that it wants. So whoever let go and wants the event just published is struck
off, and the count is that of the ends that are held exactly if nobody lingers. -/
theorem a_feed_counts_who_stays_and_who_lingers (acts : List Act) (n : Notice) :
    let f := ({} : Feed).after (acts ++ [.publish n])
    let book := guests (acts ++ [.publish n])
    f.subscriptions.map (·.held) = book.map Guest.stays ∧
    f.subscriptions.map (·.listed) = (book.map fun g => g.stays || g.lingers) ∧
    f.size = f.subscriptions.countP (·.held) + book.countP Guest.lingers ∧
    (∀ g ∈ book, g.lingers = true → admits g.wanted n = false) ∧
    (f.size = f.subscriptions.countP (·.held) ↔ ∀ g ∈ book, g.lingers = false) := by
  intro f book
  have hknows : List.Forall₂ Knows book f.subscriptions :=
    knows_after (f := {}) .nil (acts ++ [Act.publish n])
  have hheld : f.subscriptions.countP (·.held) = book.countP Guest.stays := by
    have h := congrArg (List.countP id) (map_held hknows)
    rwa [List.countP_map, List.countP_map] at h
  have hlisted : f.size = book.countP fun g => g.stays || g.lingers := by
    have h := congrArg (List.countP id) (map_listed hknows)
    rwa [List.countP_map, List.countP_map] at h
  have hsize : f.size = f.subscriptions.countP (·.held) + book.countP Guest.lingers := by
    rw [hlisted, hheld, countP_stays_or_lingers]
  refine ⟨map_held hknows, map_listed hknows, hsize, fun g hg => ?_, ?_⟩
  · have hbook : book = enter (guests acts) (.publish n) := by simp [book, guests]
    rw [hbook] at hg
    exact not_admits_of_lingers hg
  · rw [hsize, Nat.add_eq_left, List.countP_eq_zero]
    simp only [Bool.not_eq_true]

/-- A watcher of the end lets go, and the beginning finds it counted still. -/
theorem a_watcher_that_left_can_still_be_counted :
    let f := ({} : Feed).after [.subscribe (some [.stopped]), .drop 0, .publish ⟨.started, 0⟩]
    f.size = 1 ∧ f.subscriptions.countP (·.held) = 0 := by
  decide

end Feed

end Metronome
