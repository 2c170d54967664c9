-- What becomes of a budget. Listeners draw on it one after another, and what
-- they were granted is what it has lost. Nobody is granted more than is left,
-- and who is refused changes nothing. A reset makes the whole of it free again.
import Metronome.Clock.Program
import Mathlib.Algebra.Ring.Int.Defs

namespace Metronome

namespace Budget

/-! ## Draws -/

/-- What a listener asks of a budget: a part of it, or all that is left. -/
inductive Draw where
  | part (amount : Int)
  | rest
  deriving DecidableEq, Repr

def Draw.call : Draw → Call
  | .part amount => .consume amount
  | .rest => .consumeAll

/-- What a draw leaves, and how much it was granted. -/
def draw (b : Budget) : Draw → Budget × Except BudgetError Int
  | .part amount =>
    match b.consume amount with
    | .ok after => (after, .ok amount)
    | .error e => (b, .error e)
  | .rest => (b.consumeAll, .ok b.left)

/-- What a budget answers to a draw. -/
def answer : Except BudgetError Int → Answer
  | .ok _ => .done
  | .error e => .refused e

/-- What draws leave. -/
def behind (b : Budget) (draws : List Draw) : Budget := draws.foldl (fun b d => (b.draw d).1) b

/-- The amounts that were granted, in order. -/
def granted (b : Budget) : List Draw → List Int
  | [] => []
  | d :: draws =>
    match b.draw d with
    | (after, .ok amount) => amount :: after.granted draws
    | (after, .error _) => after.granted draws

variable {b full : Budget} {d : Draw} {n taken : Int}

/-- So every clock serves its listeners while they may draw. -/
theorem onBudget_draw {P : Type} (c : Clock P) (d : Draw) :
    Program.onBudget .tick c d.call =
      some ({ c with budget := (c.budget.draw d).1 }, answer (c.budget.draw d).2) := by
  cases d with
  | part amount =>
    simp only [Draw.call, Program.onBudget, draw]
    cases c.budget.consume amount <;> rfl
  | rest => rfl

/-! ## One draw -/

theorem consume_eq (b : Budget) (amount : Int) :
    b.consume amount =
      if 0 ≤ amount ∧ amount ≤ b.left then .ok { b with left := b.left - amount }
      else .error (.cannotConsume amount b.left) := by
  unfold consume
  by_cases h : 0 ≤ amount ∧ amount ≤ b.left
  · have hgranted : ¬ (amount < 0 ∨ b.left < amount) := by omega
    rw [if_pos h, if_neg hgranted]
  · have hrefused : amount < 0 ∨ b.left < amount := by omega
    rw [if_neg h, if_pos hrefused]

theorem draw_part (b : Budget) (amount : Int) :
    b.draw (.part amount) =
      if 0 ≤ amount ∧ amount ≤ b.left then ({ b with left := b.left - amount }, .ok amount)
      else (b, .error (.cannotConsume amount b.left)) := by
  rw [draw, consume_eq]
  by_cases h : 0 ≤ amount ∧ amount ≤ b.left
  · simp only [if_pos h]
  · simp only [if_neg h]

theorem draw_rest (b : Budget) :
    b.draw .rest = ({ b with left := b.left - b.left }, .ok b.left) := by
  rw [Int.sub_self]
  rfl

/-- A draw that is granted takes what it is granted, and no more than there is. -/
theorem draw_granted (hleft : 0 ≤ b.left) (h : (b.draw d).2 = .ok n) :
    (b.draw d).1 = { b with left := b.left - n } ∧ 0 ≤ n ∧ n ≤ b.left := by
  cases d with
  | part amount =>
    rw [draw_part] at h ⊢
    split at h <;> rename_i hfits
    · cases h
      rw [if_pos hfits]
      exact ⟨rfl, hfits⟩
    · cases h
  | rest =>
    rw [draw_rest] at h ⊢
    cases h
    exact ⟨rfl, hleft, Int.le_refl _⟩

theorem draw_refused {e : BudgetError} (h : (b.draw d).2 = .error e) : (b.draw d).1 = b := by
  cases d with
  | part amount =>
    rw [draw_part] at h ⊢
    split at h <;> rename_i hfits
    · cases h
    · rw [if_neg hfits]
  | rest => cases h

/-! ## Any number of draws -/

/-- A full budget of which so much has been taken. -/
structure Spent (full : Budget) (taken : Int) (b : Budget) : Prop where
  budget : b = { full with left := full.left - taken }
  nonneg : 0 ≤ taken
  enough : taken ≤ full.left

theorem Spent.left_nonneg (h : Spent full taken b) : 0 ≤ b.left := by
  rw [h.budget]
  exact Int.sub_nonneg_of_le h.enough

theorem Spent.draw (h : Spent full taken b) (hd : (b.draw d).2 = .ok n) :
    Spent full (taken + n) (b.draw d).1 := by
  obtain ⟨hdrawn, hn, hle⟩ := draw_granted h.left_nonneg hd
  have hleft : b.left = full.left - taken := by rw [h.budget]
  refine ⟨?_, Int.add_nonneg h.nonneg hn, by omega⟩
  rw [hdrawn, hleft, h.budget, Int.sub_sub]

theorem Spent.behind (h : Spent full taken b) (draws : List Draw) :
    Spent full (taken + (b.granted draws).sum) (b.behind draws) := by
  induction draws generalizing b taken with
  | nil => simpa [granted, Budget.behind] using h
  | cons d draws ih =>
    have hbehind : b.behind (d :: draws) = (b.draw d).1.behind draws := rfl
    rw [hbehind, granted]
    rcases hd : b.draw d with ⟨after, e | amount⟩
    · have hsame : after = b := by
        have := draw_refused (b := b) (d := d) (e := e) (by rw [hd])
        rwa [hd] at this
      rw [hsame]
      exact ih h
    · have hafter : Spent full (taken + amount) after := by
        have := h.draw (d := d) (n := amount) (by rw [hd])
        rwa [hd] at this
      rw [List.sum_cons, ← Int.add_assoc]
      exact ih hafter

/-! ## The law -/

/-- A reset frees the whole interval, whatever was left before. -/
theorem reset_eq {start stop : Int} (hlt : start < stop) (hfits : Signed.Fits (stop - start))
    (b : Budget) : b.reset start stop = .ok ⟨start, stop, stop - start, b.unit⟩ := by
  rw [reset, if_pos hlt, Signed.sub, Signed.keep_of_fits hfits]
  rfl

/-- What is always true of a budget of the interval from `start` to `stop`. -/
structure AddsUp (start stop : Int) (unit : TimeUnit) (granted : List Int) (b : Budget) : Prop where
  interval : b.start = start ∧ b.stop = stop ∧ b.unit = unit
  covers : ∀ t, b.covers t = true ↔ start ≤ t ∧ t < stop
  nonneg : 0 ≤ b.left
  le : b.left ≤ stop - start
  whole : b.left + granted.sum = stop - start
  /-- What was consumed can be told without leaving the range. -/
  length : Signed.sub b.stop b.start = .ok b.length
  consumed : Signed.sub b.length b.left = .ok b.consumed
  parts : b.consumed + b.left = stop - start

theorem Spent.addsUp {start stop : Int} {unit : TimeUnit} {l : List Int}
    (h : Spent ⟨start, stop, stop - start, unit⟩ l.sum b) (hfits : Signed.Fits (stop - start)) :
    AddsUp start stop unit l b := by
  obtain ⟨rfl, hnonneg, hle⟩ := h
  dsimp only at hle
  refine ⟨⟨rfl, rfl, rfl⟩, fun t => decide_eq_true_iff, ?_, ?_, ?_, Signed.keep_of_fits hfits,
    ?_, ?_⟩
  · exact Int.sub_nonneg_of_le hle
  · exact Int.sub_le_self _ hnonneg
  · exact Int.sub_add_cancel _ _
  · apply Signed.keep_of_fits
    unfold Signed.Fits Signed.least Signed.greatest at *
    dsimp only [length]
    omega
  · exact Int.sub_add_cancel _ _

/-- What a draw takes leaves a number in range. -/
theorem AddsUp.sub_granted {start stop : Int} {unit : TimeUnit} {l : List Int}
    (h : AddsUp start stop unit l b) (hfits : Signed.Fits (stop - start))
    (hd : (b.draw d).2 = .ok n) : Signed.sub b.left n = .ok (b.draw d).1.left := by
  obtain ⟨hdrawn, hn, hle⟩ := draw_granted h.nonneg hd
  have hall := h.le
  rw [hdrawn]
  apply Signed.keep_of_fits
  unfold Signed.Fits Signed.least Signed.greatest at *
  omega

/-- Behind any draws on a fresh budget, what was granted and what is left are the whole of its
interval. A draw is granted exactly if there is as much, and then it takes that much, without
leaving the range of numbers. One that is refused says how much is left, and takes nothing. So
every clock serves its listeners, and its next tick has the whole of its own interval again. -/
theorem a_budget_adds_up {start stop : Int} (hlt : start < stop)
    (hfits : Signed.Fits (stop - start)) (old : Budget) :
    ∃ full, old.reset start stop = .ok full ∧ full.left = stop - start ∧
      ∀ draws : List Draw,
        let b := full.behind draws
        AddsUp start stop old.unit (full.granted draws) b ∧
        (∀ amount, b.consume amount =
          if 0 ≤ amount ∧ amount ≤ b.left then .ok { b with left := b.left - amount }
          else .error (.cannotConsume amount b.left)) ∧
        b.draw .rest = ({ b with left := 0 }, .ok b.left) ∧
        (∀ d n, (b.draw d).2 = .ok n → Signed.sub b.left n = .ok (b.draw d).1.left) ∧
        (∀ d e, (b.draw d).2 = .error e → (b.draw d).1 = b) ∧
        (∀ (P : Type) (c : Clock P) d, c.budget = b → Program.onBudget .tick c d.call =
          some ({ c with budget := (b.draw d).1 }, answer (b.draw d).2)) ∧
        ∀ next last, next < last → Signed.Fits (last - next) →
          b.reset next last = .ok ⟨next, last, last - next, old.unit⟩ := by
  refine ⟨_, reset_eq hlt hfits old, rfl, fun draws => ?_⟩
  intro b
  have hfresh :
        Spent ⟨start, stop, stop - start, old.unit⟩ 0 ⟨start, stop, stop - start, old.unit⟩ :=
    ⟨by rw [Int.sub_zero], Int.le_refl 0, Int.sub_nonneg_of_le (Int.le_of_lt hlt)⟩
  have hspent := hfresh.behind draws
  rw [Int.zero_add] at hspent
  have hbooks := hspent.addsUp hfits
  refine ⟨hbooks, b.consume_eq, rfl, fun d n => hbooks.sub_granted hfits, fun d e => draw_refused,
    fun P c d hc => ?_, fun next last h hnext => ?_⟩
  · rw [← hc]
    exact onBudget_draw c d
  · rw [reset_eq h hnext, ← hbooks.interval.2.2]

/-- An interval as long as can be, with draws that go up to both ends of the range. -/
theorem a_budget_adds_up_for_the_longest_tick :
    let old : Budget := ⟨5, 9, 2, .hours⟩
    let full : Budget := ⟨-1, 9223372036854775806, 9223372036854775807, .hours⟩
    let draws : List Draw :=
      [.part (-9223372036854775808), .part 9223372036854775806, .part 2, .part 0, .rest, .part 1]
    old.reset (-1) 9223372036854775806 = .ok full ∧
      full.granted draws = [9223372036854775806, 0, 1] ∧
      AddsUp (-1) 9223372036854775806 .hours [9223372036854775806, 0, 1] (full.behind draws) ∧
      (full.behind draws).reset 3 10 = .ok ⟨3, 10, 7, .hours⟩ := by
  intro old full draws
  have hlt : (-1 : Int) < 9223372036854775806 := by decide
  obtain ⟨full', hreset, -, h⟩ := a_budget_adds_up hlt (by decide) old
  obtain rfl : full' = full := Except.ok.inj hreset.symm
  obtain ⟨hbooks, -, -, -, -, -, hnext⟩ := h draws
  exact ⟨hreset, by decide, hbooks, hnext 3 10 (by decide) (by decide)⟩

end Budget

end Metronome
