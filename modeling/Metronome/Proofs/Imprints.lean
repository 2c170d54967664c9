-- The stamps of real-time ticks, segment by segment. A run marks where a
-- segment of real time begins and where a tick begins. The marks alone say
-- which stamps there ever were, and the book of a clock keeps the last of them.
import Mathlib.Data.List.Chain
import Metronome.Proofs.Rows

namespace Metronome

/-! ## Marks -/

/-- What a run does that its stamps show. -/
inductive Mark where
  /-- A segment of real time begins. -/
  | segment
  /-- A tick of the present segment begins. -/
  | tick
  deriving DecidableEq, Repr

/-- The segments of all ticks in turn, where `n` segments have begun already. -/
def segments (n : Nat) : List Mark → List Nat
  | [] => []
  | .segment :: l => segments (n + 1) l
  | .tick :: l => n :: segments n l

theorem segments_append (n : Nat) (l k : List Mark) :
    segments n (l ++ k) = segments n l ++ segments (n + l.count .segment) k := by
  induction l generalizing n with
  | nil => rfl
  | cons m l ih =>
    cases m with
    | segment =>
      simp only [List.cons_append, segments, ih, List.count_cons_self]
      rw [Nat.add_right_comm, Nat.add_assoc]
    | tick => simp [segments, ih]

theorem length_segments (n : Nat) (l : List Mark) : (segments n l).length = l.count .tick := by
  induction l generalizing n with
  | nil => rfl
  | cons m l ih => cases m <;> simp [segments, ih]

theorem segments_bounds {n k : Nat} {l : List Mark} (h : k ∈ segments n l) :
    n ≤ k ∧ k ≤ n + l.count .segment := by
  induction l generalizing n with
  | nil => cases h
  | cons m l ih =>
    cases m with
    | segment =>
      have := ih h
      rw [List.count_cons_self]
      omega
    | tick =>
      simp only [List.count_cons, reduceCtorEq, beq_iff_eq, if_false, Nat.add_zero]
      rcases List.mem_cons.mp h with rfl | h
      · omega
      · exact ih h

/-- Segments follow one another, and none comes back. -/
theorem segments_ascend (n : Nat) (l : List Mark) : (segments n l).Pairwise (· ≤ ·) := by
  induction l generalizing n with
  | nil => exact .nil
  | cons m l ih =>
    cases m with
    | segment => exact ih (n + 1)
    | tick => exact .cons (fun k hk => (segments_bounds hk).1) (ih n)

/-! ## The history of all stamps -/

/-- A stamp and the segment that it belongs to. -/
structure Imprint where
  segment : Nat
  stamp : Stamp
  deriving DecidableEq, Repr

/-- The tick in this place of a list of ticks, each given by its segment. Its count is the number
of the ticks before it that belong to the same segment. -/
def imprint (watch : Nat → Reading) (ticks : List Nat) (i segment : Nat) : Imprint :=
  ⟨segment, (ticks.take i).count segment, (watch i).wallMillis, (watch i).nanos⟩

/-- The stamps of all ticks, oldest first. -/
def history (watch : Nat → Reading) (l : List Mark) : List Imprint :=
  (segments 0 l).mapIdx (imprint watch (segments 0 l))

/-- A segment that begins stamps nothing. -/
theorem history_segment (watch : Nat → Reading) (l : List Mark) :
    history watch (l ++ [.segment]) = history watch l := by
  simp [history, segments_append, segments]

/-- A tick that begins is the last of the present segment. -/
theorem history_tick (watch : Nat → Reading) (l : List Mark) :
    history watch (l ++ [.tick]) = history watch l ++
      [imprint watch (segments 0 l) (l.count .tick) (l.count .segment)] := by
  have hsame {i : Nat} (hi : i ≤ (segments 0 l).length) (k n : Nat) :
      imprint watch (segments 0 l ++ [k]) i n = imprint watch (segments 0 l) i n := by
    unfold imprint
    rw [List.take_append_of_le_length hi]
  unfold history
  rw [segments_append]
  simp only [segments, Nat.zero_add, List.mapIdx_concat]
  rw [hsame (Nat.le_refl _), length_segments]
  congr 1
  apply List.ext_getElem?
  intro i
  rw [List.getElem?_mapIdx, List.getElem?_mapIdx]
  cases hi : (segments 0 l)[i]? with
  | none => rfl
  | some n =>
    have hlt := (List.getElem?_eq_some_iff.mp hi).1
    rw [Option.map_some, Option.map_some, hsame (Nat.le_of_lt hlt)]

theorem length_history (watch : Nat → Reading) (l : List Mark) :
    (history watch l).length = l.count .tick := by
  rw [history, List.length_mapIdx, length_segments]

/-! ## Neighbours -/

namespace Imprint

/-- `b` comes right after `a`: it is the next tick of the segment, or the first of a later one. -/
def Follows (a b : Imprint) : Prop :=
  (a.segment = b.segment ∧ b.stamp.tickCount = a.stamp.tickCount + 1) ∨
    (a.segment < b.segment ∧ b.stamp.tickCount = 0)

/-- One interval for every two neighbours of one segment. -/
def intervals : List Imprint → List Interval
  | a :: b :: rest =>
    (if a.segment = b.segment then [⟨a.stamp, b.stamp⟩] else []) ++ intervals (b :: rest)
  | _ => []

end Imprint

/-- In all of the history the counts go up by one, and each new segment begins with zero. -/
theorem history_follows (watch : Nat → Reading) (l : List Mark) :
    (history watch l).IsChain Imprint.Follows := by
  rw [List.isChain_iff_getElem]
  intro i hi
  rw [length_history, ← length_segments 0] at hi
  have hle : (segments 0 l)[i] ≤ (segments 0 l)[i + 1] :=
    List.pairwise_iff_getElem.mp (segments_ascend 0 l) i (i + 1) (by omega) hi (Nat.lt_succ_self i)
  simp only [history, List.getElem_mapIdx, Imprint.Follows, imprint]
  rcases Nat.eq_or_lt_of_le hle with heq | hlt
  · refine .inl ⟨heq, ?_⟩
    rw [List.take_succ_eq_append_getElem (by omega), List.count_append, ← heq]
    simp
  · refine .inr ⟨hlt, List.count_eq_zero.mpr fun hmem => ?_⟩
    obtain ⟨j, hj, hget⟩ := List.mem_take_iff_getElem.mp hmem
    have := List.pairwise_iff_getElem.mp (segments_ascend 0 l) j i
    by_cases hji : j < i
    · have := this (by omega) (by omega) hji
      omega
    · have : j = i := by omega
      subst this
      omega

/-- The history begins with the count zero. -/
theorem history_head {watch : Nat → Reading} {l : List Mark} {x : Imprint}
    (h : (history watch l).head? = some x) : x.stamp.tickCount = 0 := by
  rw [List.head?_eq_getElem?, history, List.getElem?_mapIdx] at h
  obtain ⟨n, -, rfl⟩ := Option.map_eq_some_iff.mp h
  rfl

/-- No count is larger than the number of the ticks before it. -/
theorem tickCount_lt_of_mem {watch : Nat → Reading} {l : List Mark} {x : Imprint}
    (h : x ∈ history watch l) : x.stamp.tickCount < l.count .tick := by
  obtain ⟨i, hi⟩ := List.mem_iff_getElem?.mp h
  rw [history, List.getElem?_mapIdx] at hi
  obtain ⟨n, hn, rfl⟩ := Option.map_eq_some_iff.mp hi
  have hlt := (List.getElem?_eq_some_iff.mp hn).1
  have hcount := List.count_le_length (a := n) (l := (segments 0 l).take i)
  rw [List.length_take] at hcount
  rw [length_segments] at hlt
  simp only [imprint]
  omega

/-- The stamps alone tell which neighbours belong to one segment, if no counter went round and no
clock went back. -/
theorem intervals_of_follows {l : List Imprint} (hf : l.IsChain Imprint.Follows)
    (hfit : ∀ x ∈ l, x.stamp.tickCount < Unsigned.greatest)
    (hn : (l.map (·.stamp)).Pairwise fun a b => a.nanos ≤ b.nanos) :
    intervals (l.map (·.stamp)) = .ok (Imprint.intervals l) := by
  induction l with
  | nil => rfl
  | cons a l ih =>
    cases l with
    | nil => rfl
    | cons b rest =>
      obtain ⟨hab, hf⟩ := List.isChain_cons_cons.mp hf
      obtain ⟨hle, hn⟩ := List.pairwise_cons.mp hn
      have hrest := ih hf (fun x hx => hfit x (List.mem_cons_of_mem _ hx)) hn
      have hadd : Unsigned.add a.stamp.tickCount 1 = .ok (a.stamp.tickCount + 1) :=
        if_pos (hfit a (List.mem_cons_self ..))
      have hnanos := hle b.stamp (by simp)
      rw [List.map_cons] at hrest
      simp only [List.map_cons, intervals, Interval.between?, hadd, hrest, Except.map,
        Imprint.intervals]
      rcases hab with ⟨hseg, hcount⟩ | ⟨hseg, hcount⟩
      · rw [if_pos ⟨hcount, hnanos⟩, if_pos hseg]
        rfl
      · rw [if_neg (by omega), if_neg (by omega)]
        rfl

/-! ## The book of a clock -/

/-- What a clock writes down of its real-time ticks, and with what. -/
structure Book where
  counter : Nat
  readings : Nat
  stamps : List Stamp
  watch : Nat → Reading
  /-- How many stamps it has room for. -/
  room : Nat

def Pacing.book (p : Pacing) : Book :=
  ⟨p.counter, p.readings, p.stamps, p.watch, p.settings.maxStamps⟩

namespace Book

/-- Nothing was written yet. -/
def blank (watch : Nat → Reading) (room : Nat) : Book := ⟨0, 0, [], watch, room⟩

/-- What a mark does to the book. -/
def after (b : Book) : Mark → Book
  | .segment => { b with counter := 0 }
  | .tick =>
    let reading := b.watch b.readings
    { b with
      counter := Unsigned.wrap (b.counter + 1)
      readings := b.readings + 1
      stamps := keepLast b.room (b.stamps ++ [⟨b.counter, reading.wallMillis, reading.nanos⟩]) }

/-- The book tells the end of the history. -/
structure Tells (watch : Nat → Reading) (m : Nat) (b : Book) (l : List Mark) : Prop where
  clocks : b.watch = watch
  room : b.room = m
  counter : b.counter = (segments 0 l).count (l.count .segment)
  readings : b.readings = l.count .tick
  stamps : b.stamps = keepLast m ((history watch l).map (·.stamp))

variable {watch : Nat → Reading} {m : Nat} {b : Book} {l : List Mark}

theorem tells_blank (watch : Nat → Reading) (m : Nat) : Tells watch m (blank watch m) [] :=
  ⟨rfl, rfl, rfl, rfl, by simp [keepLast, history, segments, blank]⟩

/-- A new segment has no tick yet. -/
theorem Tells.segment (h : Tells watch m b l) :
    Tells watch m (b.after .segment) (l ++ [.segment]) where
  clocks := h.clocks
  room := h.room
  counter := by
    have hnone : l.count .segment + 1 ∉ segments 0 l := by
      intro hmem
      have := (segments_bounds hmem).2
      omega
    rw [segments_append]
    simpa [after, segments] using (List.count_eq_zero.mpr hnone).symm
  readings := by simpa [after] using h.readings
  stamps := by rw [history_segment]; exact h.stamps

/-- A tick is stamped with the count of the present segment, as long as the counter does not go
round. -/
theorem Tells.tick (h : Tells watch m b l) (hfit : l.count .tick < Unsigned.greatest) :
    Tells watch m (b.after .tick) (l ++ [.tick]) where
  clocks := h.clocks
  room := h.room
  counter := by
    have hle := List.count_le_length (a := l.count .segment) (l := segments 0 l)
    rw [length_segments, ← h.counter] at hle
    have hwrap : Unsigned.wrap (b.counter + 1) = b.counter + 1 := by
      apply Nat.mod_eq_of_lt
      unfold Unsigned.greatest at hfit
      omega
    rw [after, hwrap, h.counter, segments_append]
    simp [segments, List.count_append]
  readings := by simp [after, h.readings]
  stamps := by
    rw [history_tick, List.map_append, List.map_singleton, ← keepLast_keepLast, ← h.stamps]
    have htake : (segments 0 l).take (l.count .tick) = segments 0 l :=
      List.take_of_length_le (Nat.le_of_eq (length_segments 0 l))
    simp only [after, imprint, htake, h.clocks, h.readings, h.counter, h.room]

end Book

end Metronome
