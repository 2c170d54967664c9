-- What a log of dispatches tells. It keeps them in a ring and counts as it
-- goes, and it never looks back. Still its figures are those of the last
-- dispatches since its reset, as if they had been written down in a row.
import Metronome.TickLog
import Metronome.Proofs.Rows
import Metronome.Proofs.Pause.Memory
import Metronome.Proofs.Timing.Percentiles
import Mathlib.Data.List.Rotate

namespace Metronome

/-- A counter that goes round may go round early. -/
theorem Unsigned.wrap_wrap_add (a b : Nat) : wrap (wrap a + b) = wrap (a + b) := Nat.mod_add_mod ..

/-! ## A ring and the end of a row -/

section Ring

variable {α : Type}

/-- A place parts a ring in what lies before it, what it holds and what lies behind it. -/
theorem exists_parts {ring : List α} {i : Nat} (h : i < ring.length) :
    ∃ front y back, ring = front ++ y :: back ∧ front.length = i ∧
      ∀ x, ring.set i x = front ++ x :: back := by
  refine ⟨ring.take i, ring[i], ring.drop (i + 1), ?_, ?_, fun x => ?_⟩
  · rw [List.cons_getElem_drop_succ, List.take_append_drop]
  · exact List.length_take_of_le (Nat.le_of_lt h)
  · rw [List.set_eq_take_append_cons_drop, if_pos h]

/-- While a ring has free places, a new dispatch takes the next one. -/
theorem rotate_set_of_lt {ring : List α} {t : Nat} (h : t < ring.length) (x : α) :
    ((ring.set (t % ring.length) x).take (t + 1)).rotate (t + 1) =
      (ring.take t).rotate t ++ [x] := by
  obtain ⟨front, y, back, hring, rfl, hset⟩ := exists_parts h
  have hnew : (ring.set front.length x).take (front.length + 1) = front ++ [x] := by
    rw [hset, List.take_length_add_append]
    rfl
  have hlength : front.length + 1 = (front ++ [x]).length := by simp
  rw [Nat.mod_eq_of_lt h, hnew, hlength, List.rotate_length, hring, List.take_left,
    List.rotate_length]

/-- In a full ring it takes the place of the oldest one. -/
theorem rotate_set_of_le {ring : List α} {t : Nat} (hpos : 0 < ring.length)
    (h : ring.length ≤ t) (x : α) :
    ((ring.set (t % ring.length) x).take (t + 1)).rotate (t + 1) =
      ((ring.take t).rotate t).tail ++ [x] := by
  obtain ⟨front, y, back, hring, hfront, hset⟩ := exists_parts (Nat.mod_lt t hpos)
  have hnew : (ring.set (t % ring.length) x).rotate t = x :: (back ++ front) := by
    rw [← List.rotate_mod, List.length_set, hset, ← hfront, List.rotate_append_length_eq]
    rfl
  have hold : ring.rotate t = y :: (back ++ front) := by
    rw [← List.rotate_mod, ← hfront, hring, List.rotate_append_length_eq]
    rfl
  have hfull : (ring.set (t % ring.length) x).length ≤ t + 1 := by
    rw [List.length_set]
    omega
  rw [List.take_of_length_le hfull, List.take_of_length_le h, ← List.rotate_rotate, hnew, hold,
    List.rotate_cons_succ, List.rotate_zero, List.tail_cons]

end Ring

/-! ## Questions and answers -/

namespace Pause.Source

/-- A source that was asked some more. -/
def behind (s : Source) (questions : List Nat) : Source :=
  { s with asked := s.asked ++ questions }

/-- What a source answers to questions in turn. -/
def answers (s : Source) : List Nat → List Nat
  | [] => []
  | n :: rest => (s.ask n).2 :: (s.ask n).1.answers rest

theorem behind_behind (s : Source) (l k : List Nat) :
    (s.behind l).behind k = s.behind (l ++ k) := by
  simp [behind]

theorem answers_append (s : Source) (l k : List Nat) :
    s.answers (l ++ k) = s.answers l ++ (s.behind l).answers k := by
  induction l generalizing s with
  | nil => simp [answers, behind]
  | cons n l ih =>
    rw [List.cons_append, answers, ih, answers, List.cons_append]
    simp [behind, ask]

end Pause.Source

namespace TickLog

/-! ## Entries -/

/-- What is done to a log. -/
inductive Entry where
  | record (nanos : UInt64)
  | reset

def enter (log : TickLog) : Entry → TickLog
  | .record nanos => log.record nanos.toNat
  | .reset => log.reset

/-- A log behind its entries. -/
def after (log : TickLog) (entries : List Entry) : TickLog := entries.foldl enter log

def Entry.nanos? : Entry → Option Nat
  | .record nanos => some nanos.toNat
  | .reset => none

/-- All dispatches ever. -/
def recorded (entries : List Entry) : List Nat := entries.filterMap Entry.nanos?

/-- All dispatches in a row, parted by the last reset. -/
structure Page where
  before : List Nat := []
  since : List Nat := []

def Page.enter (p : Page) : Entry → Page
  | .record nanos => { p with since := p.since ++ [nanos.toNat] }
  | .reset => { before := p.before ++ p.since }

/-- The page that entries make. -/
def page (entries : List Entry) : Page := entries.foldl Page.enter {}

theorem page_concat (entries : List Entry) (e : Entry) :
    page (entries ++ [e]) = (page entries).enter e := by
  simp [page]

/-- A page loses no dispatch. -/
theorem before_append_since (entries : List Entry) :
    (page entries).before ++ (page entries).since = recorded entries := by
  induction entries using List.reverseRecOn with
  | nil => rfl
  | append_singleton entries e ih =>
    rw [page_concat, recorded, List.filterMap_append, ← recorded, ← ih]
    cases e <;> simp [Page.enter, Entry.nanos?]

/-- Behind a reset a page is a new one, and the old one lies before it. -/
theorem page_reset (past rest : List Entry) :
    page (past ++ .reset :: rest) =
      { before := recorded past ++ (page rest).before, since := (page rest).since } := by
  induction rest using List.reverseRecOn with
  | nil =>
    rw [page_concat, Page.enter, before_append_since]
    simp [page]
  | append_singleton rest e ih =>
    rw [← List.cons_append, ← List.append_assoc, page_concat, page_concat, ih]
    cases e <;> simp [Page.enter]

/-- The dispatches that took longer than the nominal period. -/
def slow (nominal : Duration) (l : List Nat) : List Nat := l.filter fun n => nominal.nanos < n

theorem slow_append (nominal : Duration) (l k : List Nat) :
    slow nominal (l ++ k) = slow nominal l ++ slow nominal k := List.filter_append ..

/-- A log compares with the nominal period as far as it can count. No dispatch takes longer. -/
theorem clamped_lt_iff (nominal : Duration) (nanos : UInt64) :
    nominal.clamped < nanos.toNat ↔ nominal.nanos < nanos.toNat := by
  have hlt := nanos.toNat_lt
  unfold Duration.clamped Unsigned.clamp Unsigned.greatest
  omega

/-! ## What a log knows -/

/-- A log that has kept its books as the page says. -/
structure Keeps (nominal : Duration) (pauses : Pause.Source) (room : Nat) (log : TickLog)
    (p : Page) : Prop where
  period : log.nominal = nominal.clamped
  places : log.ring.length = room
  ring : (log.ring.take log.ticks).rotate log.ticks = keepLast (min log.ticks room) p.since
  ticks : log.ticks = Unsigned.wrap p.since.length
  slowTicks : log.slowTicks = Unsigned.wrap (slow nominal p.since).length
  last : log.last = p.since.getLast?.getD 0
  longest : log.longest = p.since.foldl max 0
  asked : log.pauses = pauses.behind (slow nominal (p.before ++ p.since))
  attributed : log.attributed =
    Unsigned.wrap ((pauses.behind (slow nominal p.before)).answers (slow nominal p.since)).sum
  exported : log.exported =
    { ticks := (p.before ++ p.since).length
      slowTicks := (slow nominal (p.before ++ p.since)).length
      samples := (p.before ++ p.since).reverse }

variable {nominal : Duration} {pauses : Pause.Source} {room : Nat} {log : TickLog} {p : Page}

theorem keeps_make (nominal : Duration) (pauses : Pause.Source) (capacity : Nat) :
    Keeps nominal pauses (max capacity 1) (make nominal pauses capacity) {} where
  period := rfl
  places := List.length_replicate
  ring := by simp [make, keepLast]
  ticks := rfl
  slowTicks := rfl
  last := rfl
  longest := rfl
  asked := by simp [make, slow, Pause.Source.behind]
  attributed := rfl
  exported := rfl

/-- The page does not say whether a tick is being timed. -/
theorem Keeps.timing (h : Keeps nominal pauses room log p) (timing : Bool) :
    Keeps nominal pauses room { log with timing } p :=
  ⟨h.period, h.places, h.ring, h.ticks, h.slowTicks, h.last, h.longest, h.asked, h.attributed,
    h.exported⟩

/-- A reset turns the page. What was exported and asked stays. -/
theorem Keeps.reset (h : Keeps nominal pauses room log p) :
    Keeps nominal pauses room log.reset { before := p.before ++ p.since } where
  period := h.period
  places := by simpa [TickLog.reset] using h.places
  ring := by simp [TickLog.reset, keepLast]
  ticks := rfl
  slowTicks := rfl
  last := rfl
  longest := rfl
  asked := by simpa [TickLog.reset] using h.asked
  attributed := rfl
  exported := by simpa [TickLog.reset] using h.exported

/-- What the ring holds in turn grows at its end, and at its beginning it loses what finds no
place. A counter that goes round begins with an empty ring. -/
theorem Keeps.ring_record (h : Keeps nominal pauses room log p) (hpos : 0 < room) (nanos : Nat) :
    let ring := log.ring.set (log.ticks % log.ring.length) nanos
    let ticks := Unsigned.wrap (log.ticks + 1)
    (ring.take ticks).rotate ticks = keepLast (min ticks room) (p.since ++ [nanos]) := by
  intro ring ticks
  have hle : log.ticks ≤ p.since.length := h.ticks ▸ Nat.mod_le ..
  have hplaces := h.places
  rcases Nat.lt_or_ge log.ticks Unsigned.greatest with hlt | hge
  · have hticks : ticks = log.ticks + 1 := by
      apply Nat.mod_eq_of_lt
      unfold Unsigned.greatest at hlt
      omega
    rw [hticks]
    rcases Nat.lt_or_ge log.ticks room with hfree | hfull
    · rw [rotate_set_of_lt (by omega), h.ring, Nat.min_eq_left (by omega),
        Nat.min_eq_left (by omega), keepLast_concat]
    · obtain ⟨m, rfl⟩ : ∃ m, room = m + 1 := ⟨room - 1, by omega⟩
      rw [rotate_set_of_le (by omega) (by omega), h.ring, Nat.min_eq_right hfull,
        Nat.min_eq_right (by omega), tail_keepLast (by omega), keepLast_concat]
  · have hticks : ticks = 0 := by
      have hbound : log.ticks < 18446744073709551616 := h.ticks ▸ Nat.mod_lt _ (by decide)
      unfold Unsigned.greatest at hge
      show (log.ticks + 1) % 18446744073709551616 = 0
      omega
    rw [hticks]
    simp [keepLast]

/-- A record in one piece. It asks once about a dispatch that was slow, and not about another. -/
theorem Keeps.record_eq (h : Keeps nominal pauses room log p) (nanos : UInt64) :
    let questions := slow nominal [nanos.toNat]
    log.record nanos.toNat =
      { log with
        ring := log.ring.set (log.ticks % log.ring.length) nanos.toNat
        ticks := Unsigned.wrap (log.ticks + 1)
        last := nanos.toNat
        longest := max log.longest nanos.toNat
        pauses := log.pauses.behind questions
        slowTicks := Unsigned.wrap (log.slowTicks + questions.length)
        attributed := Unsigned.wrap (log.attributed + (log.pauses.answers questions).sum)
        exported :=
          { ticks := log.exported.ticks + 1
            slowTicks := log.exported.slowTicks + questions.length
            samples := nanos.toNat :: log.exported.samples } } := by
  have hiff := clamped_lt_iff nominal nanos
  rw [← h.period] at hiff
  unfold TickLog.record
  by_cases hslow : nominal.nanos < nanos.toNat
  · have hone : slow nominal [nanos.toNat] = [nanos.toNat] := by simp [slow, hslow]
    rw [hone, if_pos (hiff.mpr hslow)]
    rfl
  · have hnone : slow nominal [nanos.toNat] = [] := by simp [slow, hslow]
    have hslowTicks : Unsigned.wrap log.slowTicks = log.slowTicks := by
      rw [h.slowTicks]
      exact Unsigned.wrap_wrap_add _ 0
    have hattributed : Unsigned.wrap log.attributed = log.attributed := by
      rw [h.attributed]
      exact Unsigned.wrap_wrap_add _ 0
    rw [hnone, if_neg (mt hiff.mp hslow)]
    simp only [List.length_nil, Pause.Source.answers, List.sum_nil, Nat.add_zero, hslowTicks,
      hattributed, Pause.Source.behind, List.append_nil]

theorem Keeps.record (h : Keeps nominal pauses room log p) (hpos : 0 < room) (nanos : UInt64) :
    Keeps nominal pauses room (log.record nanos.toNat) (p.enter (.record nanos)) := by
  have hring := h.ring_record hpos nanos.toNat
  rw [h.record_eq nanos]
  simp only [Page.enter]
  exact
    { period := h.period
      places := by rw [List.length_set, h.places]
      ring := hring
      ticks := by
        rw [h.ticks, Unsigned.wrap_wrap_add, List.length_append, List.length_singleton]
      slowTicks := by
        rw [h.slowTicks, Unsigned.wrap_wrap_add, slow_append, List.length_append]
      last := by rw [List.getLast?_concat, Option.getD_some]
      longest := by
        rw [h.longest, List.foldl_append]
        rfl
      asked := by
        rw [h.asked, Pause.Source.behind_behind, ← List.append_assoc, ← slow_append]
      attributed := by
        rw [h.attributed, Unsigned.wrap_wrap_add, slow_append, Pause.Source.answers_append,
          List.sum_append, Pause.Source.behind_behind, ← slow_append, h.asked]
      exported := by
        rw [h.exported, ← List.append_assoc, slow_append nominal (p.before ++ p.since)]
        simp only [List.length_append, List.length_singleton, List.reverse_append,
          List.reverse_singleton, List.singleton_append] }

theorem Keeps.enter (h : Keeps nominal pauses room log p) (hpos : 0 < room) (e : Entry) :
    Keeps nominal pauses room (log.enter e) (p.enter e) := by
  cases e with
  | record nanos => exact h.record hpos nanos
  | reset => exact h.reset

theorem Keeps.after (h : Keeps nominal pauses room log p) (hpos : 0 < room)
    (entries : List Entry) :
    Keeps nominal pauses room (log.after entries) (entries.foldl Page.enter p) := by
  induction entries generalizing log p with
  | nil => exact h
  | cons e entries ih => exact ih (h.enter hpos e)

/-! ## The figures -/

/-- The order in which numbers come does not matter once they are sorted. -/
theorem ascending_eq_of_perm {l k : List Nat} (h : l.Perm k) : ascending l = ascending k :=
  mergeSort_eq_of_perm h

theorem average_eq (l : List Nat) :
    average l = if Unsigned.Fits l.sum then .ok (l.sum / l.length) else .error .sumTooLarge := by
  unfold average
  by_cases hl : l = []
  · subst hl
    rfl
  · rw [if_neg hl, Unsigned.sum_eq]
    split <;> rfl

/-- The figures of a page, for a log with so much room. A counter of 64 bits shows a number that it
can hold, and goes round behind the greatest. -/
def Page.stats (nominal : Duration) (pauses : Pause.Source) (room : Nat) (p : Page) :
    Except Fault Stats :=
  let ticks := Unsigned.wrap p.since.length
  let kept := keepLast (min ticks room) p.since
  let questions := slow nominal p.since
  if Unsigned.Fits kept.sum then
    .ok
      { ticks
        slowTicks := Unsigned.wrap questions.length
        last := p.since.getLast?.getD 0
        average := kept.sum / kept.length
        longest := p.since.foldl max 0
        p95 := (percentile? (ascending kept) (thousandths 950)).getD 0
        p99 := (percentile? (ascending kept) (thousandths 990)).getD 0
        attributed :=
          Unsigned.wrap ((pauses.behind (slow nominal p.before)).answers questions).sum }
  else .error .sumTooLarge

theorem Keeps.stats (h : Keeps nominal pauses room log p) :
    log.stats = p.stats nominal pauses room := by
  have hkept : log.kept.Perm (keepLast (min log.ticks room) p.since) := by
    rw [← h.ring, kept, ← List.take_eq_take_min]
    exact (List.rotate_perm _ _).symm
  have hsorted := List.mergeSort_perm (keepLast (min log.ticks room) p.since)
    fun a b => decide (a ≤ b)
  unfold TickLog.stats Page.stats
  dsimp only
  rw [ascending_eq_of_perm hkept, average_eq, ascending, hsorted.sum_nat, hsorted.length_eq,
    ← h.ticks, ← h.slowTicks, ← h.last, ← h.longest, ← h.attributed]
  split <;> rfl

/-! ## The law -/

/-- Behind whatever entries, a log shows the figures of its page. They speak of the dispatches since
its reset, the average and the percentiles of the last of them, as many as it has room for, and it
shows none only when those cannot be added up. It asks about each slow dispatch once, in turn and
for as long as it took. What it exports speaks of all dispatches ever. And behind a reset it shows
what a new log would show. -/
theorem a_log_tells_of_the_dispatches_since_its_reset (nominal : Duration) (pauses : Pause.Source)
    (capacity : Nat) :
    let behind (entries : List Entry) := (make nominal pauses capacity).after entries
    (∀ entries,
      (behind entries).stats = (page entries).stats nominal pauses (max capacity 1) ∧
      (behind entries).pauses = pauses.behind (slow nominal (recorded entries)) ∧
      (behind entries).exported =
        { ticks := (recorded entries).length
          slowTicks := (slow nominal (recorded entries)).length
          samples := (recorded entries).reverse }) ∧
    ∀ past rest, (behind (past ++ .reset :: rest)).stats =
      ((make nominal (behind past).pauses capacity).after rest).stats := by
  intro behind
  have hroom : 0 < max capacity 1 := by omega
  have hkeeps (source : Pause.Source) (entries : List Entry) :
      Keeps nominal source (max capacity 1) ((make nominal source capacity).after entries)
        (page entries) := (keeps_make nominal source capacity).after hroom entries
  have hpauses (entries : List Entry) :
      (behind entries).pauses = pauses.behind (slow nominal (recorded entries)) := by
    rw [← before_append_since]
    exact (hkeeps pauses entries).asked
  refine ⟨fun entries => ⟨(hkeeps pauses entries).stats, hpauses entries, ?_⟩, fun past rest => ?_⟩
  · rw [← before_append_since]
    exact (hkeeps pauses entries).exported
  · rw [(hkeeps pauses _).stats, (hkeeps _ rest).stats, page_reset, hpauses]
    unfold Page.stats
    dsimp only
    rw [Pause.Source.behind_behind, slow_append]

/-- In a log with room for two, the third dispatch since the reset takes the first one's place. -/
example :
    let log := (make ⟨10⟩ (.prepared [7, 5]) 2).after
      [.record 50, .reset, .record 4, .record 30, .record 20]
    log.kept = [20, 30] ∧ log.ticks = 3 ∧ log.attributed = 10 ∧
      log.pauses.asked = [50, 30, 20] := by
  decide

end TickLog

end Metronome
