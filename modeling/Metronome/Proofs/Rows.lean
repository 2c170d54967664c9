-- The end of a row. Of a row that may hold only so many, the last stay. It
-- makes room for a new one by losing its first, one after the other.
import Metronome.Clock.Pacing

namespace Metronome

variable {α : Type} {n room : Nat} {l kept : List α}

/-! ## The last of a row -/

theorem keepLast_of_le (h : l.length ≤ n) : keepLast n l = l := by
  rw [keepLast, Nat.sub_eq_zero_of_le h, List.drop_zero]

theorem keepLast_min_length (n : Nat) (l : List α) :
    keepLast (min l.length n) l = keepLast n l := by
  unfold keepLast
  congr 1
  omega

theorem map_keepLast {β : Type} (f : α → β) (n : Nat) (l : List α) :
    (keepLast n l).map f = keepLast n (l.map f) := by
  rw [keepLast, keepLast, List.map_drop, List.length_map]

/-- One more at the end of a row makes the end of the row longer by one. -/
theorem keepLast_concat (n : Nat) (l : List α) (x : α) :
    keepLast (n + 1) (l ++ [x]) = keepLast n l ++ [x] := by
  unfold keepLast
  rw [List.length_append, List.length_singleton, Nat.add_sub_add_right,
    List.drop_append_of_le_length (Nat.sub_le ..)]

/-- The end of a row that is shorter by one has lost its first. -/
theorem tail_keepLast (h : n + 1 ≤ l.length) : (keepLast (n + 1) l).tail = keepLast n l := by
  unfold keepLast
  rw [List.tail_drop]
  congr 1
  omega

/-- A row that has more than its end can lose its first. -/
theorem keepLast_tail (h : n < l.length) : keepLast n l.tail = keepLast n l := by
  unfold keepLast
  rw [← List.drop_one, List.drop_drop, List.length_drop]
  congr 1
  omega

/-- The last of what was the last already. -/
theorem keepLast_keepLast (n : Nat) (l : List α) (x : α) :
    keepLast n (keepLast n l ++ [x]) = keepLast n (l ++ [x]) := by
  unfold keepLast
  simp only [List.length_append, List.length_drop, List.length_singleton, List.drop_append,
    List.drop_drop]
  congr 2 <;> omega

/-! ## Room for one more -/

/-- A row makes room for one more. Its first leaves as long as there is none, and an empty row
stays as it is. -/
inductive MakesRoom (room : Nat) : List α → List α → Prop
  | enough {l : List α} (h : l.length < room) : MakesRoom room l l
  | leave {l kept : List α} (h : room ≤ l.length) (rest : MakesRoom room l.tail kept) :
    MakesRoom room l kept

/-- It comes to an end exactly if the row may hold anything at all, and then the last stay. -/
theorem makesRoom_iff : MakesRoom room l kept ↔ 0 < room ∧ kept = keepLast (room - 1) l := by
  constructor
  · intro h
    induction h with
    | enough h => exact ⟨Nat.zero_lt_of_lt h, (keepLast_of_le (Nat.le_sub_one_of_lt h)).symm⟩
    | leave h _ ih =>
      obtain ⟨hpos, rfl⟩ := ih
      exact ⟨hpos, keepLast_tail (by omega)⟩
  · rintro ⟨hpos, rfl⟩
    induction l with
    | nil =>
      rw [keepLast_of_le (Nat.zero_le _)]
      exact .enough hpos
    | cons x l ih =>
      by_cases h : room ≤ (x :: l).length
      · refine .leave h ?_
        rw [← keepLast_tail (by omega)]
        exact ih
      · rw [keepLast_of_le (by omega)]
        exact .enough (Nat.lt_of_not_le h)

theorem makesRoom_keepLast (h : 0 < room) (l : List α) :
    MakesRoom room l (keepLast (room - 1) l) :=
  makesRoom_iff.mpr ⟨h, rfl⟩

end Metronome
