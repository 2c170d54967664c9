-- What a feed does for those who watch it. Watchers come and go, and each takes
-- what waits for it whenever it likes. One that stays is sent every event that
-- it wants, whatever the others do.
import Metronome.Feed

namespace Metronome

namespace Feed

/-! ## What is done to a feed -/

inductive Act where
  | subscribe (wanted : Option (List Event))
  | publish (n : Notice)
  | drain (i : Nat)
  | drop (i : Nat)
  deriving DecidableEq, Repr

def act (f : Feed) : Act → Feed
  | .subscribe wanted => (f.subscribe wanted).1
  | .publish n => f.publish n
  | .drain i => (f.drain i).1
  | .drop i => f.drop i

def after (f : Feed) (acts : List Act) : Feed := acts.foldl act f

/-- What an act hands to watcher `i`. Nobody is handed anything but by a drain of its own. -/
def handed (f : Feed) (i : Nat) : Act → List Notice
  | .drain j => if j = i then (f.drain j).2.getD [] else []
  | _ => []

/-- What watcher `i` is handed on the way, drain by drain. -/
def taken (f : Feed) (i : Nat) : List Act → List Notice
  | [] => []
  | a :: acts => f.handed i a ++ (f.act a).taken i acts

def Act.notice? : Act → Option Notice
  | .publish n => some n
  | _ => none

/-- All that is published on the way, in order. -/
def published (acts : List Act) : List Notice := acts.filterMap Act.notice?

/-- Who names no events wants them all. -/
def admits (wanted : Option (List Event)) (n : Notice) : Bool :=
  wanted.all fun events => events.contains n.event

/-! ## One watcher -/

/-- Watcher `i` holds its end, the feed knows it, and so much waits for it. -/
def Waits (f : Feed) (i : Nat) (wanted : Option (List Event)) (queue : List Notice) : Prop :=
  f.subscriptions[i]? = some { wanted := wanted, queue := queue }

variable {f : Feed} {i j : Nat} {wanted : Option (List Event)} {queue : List Notice} {a : Act}
  {acts : List Act}

/-- The newest watcher has nothing to wait for. -/
theorem waits_subscribe (f : Feed) (wanted : Option (List Event)) :
    (f.subscribe wanted).1.Waits (f.subscribe wanted).2 wanted [] := by
  simp [Waits, Feed.subscribe]

theorem wants_eq (wanted : Option (List Event)) (queue : List Notice) (n : Notice) :
    Subscription.wants { wanted := wanted, queue := queue } n.event = admits wanted n := by
  cases wanted <;> rfl

namespace Waits

theorem subscribe (h : f.Waits i wanted queue) (other : Option (List Event)) :
    (f.subscribe other).1.Waits i wanted queue := by
  have hi := (List.getElem?_eq_some_iff.mp h).1
  simp only [Waits, Feed.subscribe]
  rw [List.getElem?_append_left hi]
  exact h

theorem publish (h : f.Waits i wanted queue) (n : Notice) :
    (f.publish n).Waits i wanted (queue ++ [n].filter (admits wanted)) := by
  unfold Waits at h ⊢
  rw [Feed.publish, List.getElem?_map, h, Option.map_some, Subscription.deliver, wants_eq]
  cases hn : admits wanted n <;> simp [hn]

theorem drain (h : f.Waits i wanted queue) :
    (f.drain i).1.Waits i wanted [] ∧ (f.drain i).2 = some queue := by
  have hi := (List.getElem?_eq_some_iff.mp h).1
  have hdrain : f.drain i = (⟨f.subscriptions.set i { wanted := wanted }⟩, some queue) := by
    unfold Feed.drain
    rw [h]
    rfl
  rw [hdrain]
  exact ⟨by simp [Waits, hi], rfl⟩

theorem drain_of_ne (h : f.Waits i wanted queue) (hj : j ≠ i) :
    (f.drain j).1.Waits i wanted queue := by
  unfold Feed.drain
  cases f.subscriptions[j]? with
  | none => exact h
  | some s =>
    dsimp only
    split
    · exact (List.getElem?_set_ne hj).trans h
    · exact h

theorem drop_of_ne (h : f.Waits i wanted queue) (hj : j ≠ i) :
    (f.drop j).Waits i wanted queue := by
  unfold Feed.drop
  cases f.subscriptions[j]? with
  | none => exact h
  | some s => exact (List.getElem?_set_ne hj).trans h

/-- One act, by whomever it is. What is handed over and what waits then is what waited before and
what was published, if it is wanted. -/
theorem act (h : f.Waits i wanted queue) (ha : a ≠ .drop i) :
    ∃ queue', (f.act a).Waits i wanted queue' ∧
      f.handed i a ++ queue' = queue ++ a.notice?.toList.filter (admits wanted) := by
  cases a with
  | subscribe other => exact ⟨queue, h.subscribe other, by simp [handed, Act.notice?]⟩
  | publish n => exact ⟨_, h.publish n, rfl⟩
  | drain j =>
    by_cases hj : j = i
    · subst hj
      obtain ⟨hwaits, hqueue⟩ := h.drain
      exact ⟨[], hwaits, by simp [handed, Act.notice?, hqueue]⟩
    · exact ⟨queue, h.drain_of_ne hj, by simp [handed, Act.notice?, hj]⟩
  | drop j =>
    have hj : j ≠ i := fun hj => ha (by rw [hj])
    exact ⟨queue, h.drop_of_ne hj, by simp [handed, Act.notice?]⟩

/-- Any number of acts. -/
theorem after (h : f.Waits i wanted queue) (hheld : .drop i ∉ acts) :
    ∃ queue', (f.after acts).Waits i wanted queue' ∧
      f.taken i acts ++ queue' = queue ++ (published acts).filter (admits wanted) := by
  induction acts generalizing f queue with
  | nil => exact ⟨queue, h, by simp [taken, published]⟩
  | cons a acts ih =>
    rw [List.mem_cons, not_or] at hheld
    obtain ⟨ha, hacts⟩ := hheld
    obtain ⟨queue₁, hwaits₁, hqueue₁⟩ := h.act (Ne.symm ha)
    obtain ⟨queue₂, hwaits₂, hqueue₂⟩ := ih hwaits₁ hacts
    refine ⟨queue₂, hwaits₂, ?_⟩
    -- What is handed over by the first act comes before all that is handed over later.
    have hpublished : published (a :: acts) = a.notice?.toList ++ published acts := by
      cases a <;> rfl
    calc f.handed i a ++ (f.act a).taken i acts ++ queue₂
        = f.handed i a ++ queue₁ ++ (published acts).filter (admits wanted) := by
          rw [List.append_assoc, hqueue₂, List.append_assoc]
      _ = queue ++ (published (a :: acts)).filter (admits wanted) := by
          rw [hqueue₁, hpublished, List.filter_append, List.append_assoc]

end Waits

/-! ## All of them -/

/-- The feed knows everyone who holds its end. -/
def KnowsAll (f : Feed) : Prop := ∀ s ∈ f.subscriptions, s.held = true → s.listed = true

/-- Only who let go is struck off. -/
theorem deliver_listed {s : Subscription} (n : Notice) (hs : s.held = true → s.listed = true)
    (h : (s.deliver n).held = true) : (s.deliver n).listed = true := by
  unfold Subscription.deliver at h ⊢
  split at h <;> simp_all
  split at h <;> simp_all

theorem KnowsAll.set (h : f.KnowsAll) {s : Subscription} (hs : s.held = true → s.listed = true) :
    KnowsAll ⟨f.subscriptions.set i s⟩ := by
  intro t ht hheld
  rcases List.mem_or_eq_of_mem_set ht with ht | rfl
  · exact h t ht hheld
  · exact hs hheld

theorem KnowsAll.act (h : f.KnowsAll) (a : Act) : (f.act a).KnowsAll := by
  cases a with
  | subscribe wanted =>
    intro s hs hheld
    rcases List.mem_append.mp hs with hs | hs
    · exact h s hs hheld
    · rw [List.mem_singleton.mp hs]
  | publish n =>
    intro s hs hheld
    obtain ⟨t, ht, rfl⟩ := List.mem_map.mp hs
    exact deliver_listed n (h t ht) hheld
  | drain i =>
    simp only [Feed.act, Feed.drain]
    split
    · rename_i s hs
      split
      · exact h.set (h s (List.mem_of_getElem? hs))
      · exact h
    · exact h
  | drop i =>
    simp only [Feed.act, Feed.drop]
    split
    · exact h.set nofun
    · exact h

theorem KnowsAll.after (h : f.KnowsAll) (acts : List Act) : (f.after acts).KnowsAll := by
  induction acts generalizing f with
  | nil => exact h
  | cons a acts ih => exact ih (h.act a)

/-- Who subscribes and does not let go is sent every event that it wants, once and in the order in
which they were published, whatever was done before and is done by others. What it has not been
handed yet waits for it. And nobody who holds its end is ever struck off. -/
theorem a_watcher_is_sent_all_that_it_wants :
    (∀ (before acts : List Act) (wanted : Option (List Event)),
      let f := ({} : Feed).after before
      let i := (f.subscribe wanted).2
      let f' := (f.subscribe wanted).1
      .drop i ∉ acts →
      ∃ queue, ((f'.after acts).drain i).2 = some queue ∧
        f'.taken i acts ++ queue = (published acts).filter (admits wanted)) ∧
    ∀ acts : List Act, ∀ s ∈ (({} : Feed).after acts).subscriptions,
      s.held = true → s.listed = true := by
  constructor
  · intro before acts wanted f i f' hheld
    obtain ⟨queue, hwaits, hqueue⟩ := (waits_subscribe f wanted).after hheld
    exact ⟨queue, hwaits.drain.2, hqueue⟩
  · intro acts
    have hopened : ({} : Feed).KnowsAll := nofun
    exact hopened.after acts

theorem a_watcher_among_others_is_sent_both_switches :
    let before : List Act := [.subscribe none, .publish ⟨.started, 0⟩, .drop 0,
      .subscribe (some [.stopped])]
    let acts : List Act := [.publish ⟨.switchToSimTime, 100⟩, .drain 2, .drop 1,
      .publish ⟨.stopped, 200⟩, .subscribe none, .drain 2, .publish ⟨.switchToRealTime, 300⟩]
    let f := ((({} : Feed).after before).subscribe (some [.switchToRealTime, .switchToSimTime])).1
    ∃ queue, ((f.after acts).drain 2).2 = some queue ∧
      f.taken 2 acts ++ queue = [⟨.switchToSimTime, 100⟩, ⟨.switchToRealTime, 300⟩] := by
  intro before acts f
  exact a_watcher_is_sent_all_that_it_wants.1 before acts _ (by decide)

end Feed

end Metronome
