-- Questions to a monitor. Whatever it was told, and whatever its log told it,
-- the answer is how long the pauses in reach were together. Each of them is a
-- number of 64 bits. Their sum need not be one, and then there is no answer.
import Metronome.Pause.Monitor
import Metronome.Proofs.Pause.Ledger
import Mathlib.Algebra.Order.BigOperators.Group.List
import Mathlib.Algebra.Order.Group.Nat
import Mathlib.Data.List.Perm.Subperm

namespace Metronome

namespace Pause

open Window (Change behind change during ledger recorded span)

/-! ## Answers -/

/-- What an answer tells of the pauses in reach, which are some of all there were. It is how long
they were together, unless that is no number of 64 bits. That takes two pauses at least, and longer
ones than such a number can count. -/
structure Answers (answer : Except Fault Nat) (reached all : List PauseEvent) : Prop where
  part : reached.Subperm all
  sum : answer = if Unsigned.Fits (span reached) then .ok (span reached) else .error .sumTooLarge
  single : reached.length ≤ 1 → answer = .ok (span reached)
  few : Unsigned.Fits (span all) → answer = .ok (span reached)

namespace Window

/-- The pauses that a question reaches, after so many changes of a window. -/
def reached (horizon : Nat) (changes : List Change) (now length : Nat) : List PauseEvent :=
  during (now - min length horizon) now (ledger horizon changes)

variable {horizon now length : Nat} {changes : List Change}

theorem total_behind_eq (horizon : Nat) (changes : List Change) (now length : Nat) :
    (behind horizon changes).total now length =
      Unsigned.sum ((reached horizon changes now length).map (·.duration)) := by
  have hordered : Ordered (behind horizon changes).entries := by
    rw [behind_eq]
    exact ledger_ordered horizon changes
  have hsum (l : List PauseEvent) :
      (l.reverse.map (·.duration)).sum = (l.map (·.duration)).sum :=
    ((List.reverse_perm l).map (·.duration)).sum_nat
  rw [total_eq hordered, Unsigned.sum_eq, Unsigned.sum_eq, hsum, behind_eq]
  rfl

/-- Who prunes before asking loses nothing of the answer. -/
theorem reached_prune :
    reached horizon (changes ++ [.prune now]) now length = reached horizon changes now length := by
  unfold reached
  rw [ledger_concat]
  exact during_since _

/-- A ledger holds nothing but what was recorded. -/
theorem ledger_subperm (horizon : Nat) (changes : List Change) :
    (ledger horizon changes).Subperm (recorded changes) := by
  induction changes using List.reverseRecOn with
  | nil => exact List.Subperm.refl _
  | append_singleton changes c ih =>
    have hrecorded : recorded (changes ++ [c]) = recorded changes ++ c.pause?.toList := by
      cases c <;> simp [recorded, Change.pause?]
    rw [ledger_concat, hrecorded]
    cases c with
    | record e =>
      have hsplit := (ledger_ordered horizon changes).split e.occurredAt
      have hplaced : ((ledger horizon changes).filter (fun x => x.occurredAt ≤ e.occurredAt) ++
          e :: (ledger horizon changes).filter fun x => e.occurredAt < x.occurredAt).Perm
            (ledger horizon changes ++ [e]) := by
        refine List.perm_middle.trans ?_
        rw [hsplit]
        exact (List.perm_append_singleton e _).symm
      exact (List.filter_sublist.subperm.trans hplaced.subperm).trans
        (ih.append (List.Subperm.refl [e]))
    | prune now => exact List.filter_sublist.subperm.trans (by simpa [Change.pause?] using ih)
    | clear => exact List.nil_subperm

theorem reached_subperm : (reached horizon changes now length).Subperm (recorded changes) :=
  List.filter_sublist.subperm.trans (ledger_subperm horizon changes)

theorem span_le_of_subperm {l k : List PauseEvent} (h : l.Subperm k) : span l ≤ span k := by
  obtain ⟨l', hperm, hsub⟩ := h
  rw [span, ← (hperm.map (·.duration)).sum_nat]
  exact (hsub.map (·.duration)).sum_le_sum fun _ _ => Nat.zero_le _

/-- The answer of a window whose pauses are numbers of 64 bits. -/
theorem total_answers (horizon now length : Nat)
    (h : ∀ e ∈ recorded changes, Unsigned.Fits e.duration) :
    Answers ((behind horizon changes).total now length) (reached horizon changes now length)
      (recorded changes) := by
  have hsum : (behind horizon changes).total now length =
      if Unsigned.Fits (span (reached horizon changes now length)) then
        .ok (span (reached horizon changes now length)) else .error .sumTooLarge := by
    rw [total_behind_eq, Unsigned.sum_eq]
    rfl
  have hsub : (reached horizon changes now length).Subperm (recorded changes) := reached_subperm
  refine ⟨hsub, hsum, fun hsingle => ?_, fun hfew => ?_⟩
  · rw [hsum, if_pos]
    match hreached : reached horizon changes now length with
    | [] => exact Nat.zero_le _
    | [e] =>
      have he : e ∈ reached horizon changes now length := by simp [hreached]
      simpa [span] using h e (hsub.subset he)
    | e :: e' :: l => simp [hreached] at hsingle
  · rw [hsum, if_pos]
    exact (span_le_of_subperm hsub).trans hfew

end Window

/-! ## What is done to a monitor -/

namespace Monitor

inductive Use where
  /-- It is told of a pause. -/
  | record (now : Nat) (pause : Duration)
  /-- It reads its log. -/
  | poll (now : Nat) (disk : Disk)
  | ask (now length : Nat)
  | shutDown

def use (m : Monitor) : Use → Monitor
  | .record now pause => m.record now pause
  | .poll now d => m.poll now d
  | .ask now length => (m.totalWithin now length).1
  | .shutDown => m.shutDown

def used (m : Monitor) (uses : List Use) : Monitor := uses.foldl use m

/-- The pauses that a poll finds in the log. -/
def found (m : Monitor) (d : Disk) : List Duration :=
  match m.tailer with
  | none => []
  | some t => (t.read d).2.toOption.getD []

/-- What a use changes in the window. A pause is kept as a number of 64 bits. -/
def Use.changes (m : Monitor) : Use → List Change
  | .record now pause => [.record ⟨now, pause.clamped⟩]
  | .poll now d => (m.found d).map fun pause => .record ⟨now, pause.clamped⟩
  | .ask now _ => [.prune now]
  | .shutDown => []

def history (m : Monitor) : List Use → List Change
  | [] => []
  | u :: uses => u.changes m ++ history (m.use u) uses

/-- A monitor as it comes to be. -/
inductive Opened : Monitor → Prop where
  | withoutLog (horizon : Duration) : Opened (withoutLog horizon)
  | start {settings : PauseSettings} {disk : String → Disk} {m : Monitor}
      (started : start settings disk = .ok m) : Opened m

variable {m : Monitor}

theorem record_foldl_window (now : Nat) (pauses : List Duration) (m : Monitor) :
    (pauses.foldl (record now) m).window =
      (pauses.map fun pause => Change.record ⟨now, pause.clamped⟩).foldl change m.window := by
  induction pauses generalizing m with
  | nil => rfl
  | cons pause pauses ih => exact ih (m.record now pause)

theorem use_window (m : Monitor) (u : Use) :
    (m.use u).window = (u.changes m).foldl change m.window := by
  cases u with
  | record now pause => rfl
  | poll now d =>
    simp only [use, poll, Use.changes, found]
    cases m.tailer with
    | none => rfl
    | some t =>
      dsimp only
      rcases t.read d with ⟨t', problem | pauses⟩
      · cases problem <;> rfl
      · exact record_foldl_window now pauses _
  | ask now length => rfl
  | shutDown => rfl

theorem used_window (m : Monitor) (uses : List Use) :
    (m.used uses).window = (m.history uses).foldl change m.window := by
  induction uses generalizing m with
  | nil => rfl
  | cons u uses ih =>
    rw [history, List.foldl_append, ← use_window]
    exact ih (m.use u)

theorem Opened.window_eq (h : Opened m) : m.window = { horizon := m.window.horizon } := by
  cases h with
  | withoutLog horizon => rfl
  | @start settings disk m started =>
    unfold Monitor.start at started
    cases hcheck : settings.check with
    | error problem =>
      rw [hcheck] at started
      cases started
    | ok _ =>
      rw [hcheck] at started
      cases hpath : settings.logPath with
      | none =>
        rw [hpath] at started
        cases started
      | some path =>
        rw [hpath] at started
        cases htailer : (disk path).tailer? settings.readFromStart with
        | none =>
          simp only [Option.elim_some, bind, Except.bind, htailer] at started
          cases started
        | some t =>
          simp only [Option.elim_some, bind, Except.bind, htailer] at started
          cases started
          rfl

/-- A window of a monitor is behind all that its uses changed. -/
theorem Opened.used_window (h : Opened m) (uses : List Use) :
    (m.used uses).window = behind m.window.horizon (m.history uses) := by
  rw [Monitor.used_window, h.window_eq]
  rfl

/-- The pauses that were told of are numbers of 64 bits. -/
theorem fits_of_recorded (m : Monitor) (uses : List Use) :
    ∀ e ∈ recorded (m.history uses), Unsigned.Fits e.duration := by
  have hclamped (pause : Duration) : Unsigned.Fits pause.clamped := Nat.min_le_right _ _
  have hchanges (m : Monitor) (u : Use) :
      ∀ e ∈ recorded (u.changes m), Unsigned.Fits e.duration := by
    intro e he
    obtain ⟨c, hc, hce⟩ := List.mem_filterMap.mp he
    cases u with
    | record now pause =>
      obtain rfl := List.mem_singleton.mp hc
      obtain rfl := Option.some.inj hce
      exact hclamped pause
    | poll now d =>
      obtain ⟨pause, -, rfl⟩ := List.mem_map.mp hc
      obtain rfl := Option.some.inj hce
      exact hclamped pause
    | ask now length =>
      obtain rfl := List.mem_singleton.mp hc
      cases hce
    | shutDown => cases hc
  induction uses generalizing m with
  | nil =>
    intro e he
    cases he
  | cons u uses ih =>
    intro e he
    rw [history, recorded, List.filterMap_append] at he
    rcases List.mem_append.mp he with he | he
    · exact hchanges m u e he
    · exact ih (m.use u) e he

/-- The answer of a monitor to a question, whatever was done to it before. -/
theorem Opened.answers (h : Opened m) (uses : List Use) (now length : Nat) :
    Answers ((m.used uses).totalWithin now length).2
      (Window.reached m.window.horizon (m.history uses) now length)
      (recorded (m.history uses)) := by
  have hasked : ((m.used uses).totalWithin now length).2 =
      (behind m.window.horizon (m.history uses ++ [.prune now])).total now length := by
    rw [totalWithin, h.used_window, behind, behind, List.foldl_append]
    rfl
  have hrecorded : recorded (m.history uses ++ [.prune now]) = recorded (m.history uses) := by
    simp [recorded, Change.pause?]
  have hfits : ∀ e ∈ recorded (m.history uses ++ [.prune now]), Unsigned.Fits e.duration := by
    rw [hrecorded]
    exact fits_of_recorded m uses
  have hanswers := Window.total_answers m.window.horizon now length hfits
  rwa [← hasked, Window.reached_prune, hrecorded] at hanswers

end Monitor

/-! ## The law -/

/-- Whatever was done to a window or to a monitor, a question has an answer unless the pauses in
reach are together too long for a number of 64 bits. -/
theorem only_too_much_pause_has_no_answer (now length : Nat) :
    (∀ (horizon : Nat) (changes : List Change),
      (∀ e ∈ recorded changes, Unsigned.Fits e.duration) →
      Answers ((behind horizon changes).total now length)
        (Window.reached horizon changes now length) (recorded changes)) ∧
    ∀ m : Monitor, m.Opened → ∀ uses : List Monitor.Use,
      Answers ((m.used uses).totalWithin now length).2
        (Window.reached m.window.horizon (m.history uses) now length)
        (recorded (m.history uses)) := by
  refine ⟨fun horizon _ h => ?_, fun m h uses => ?_⟩
  · exact Window.total_answers horizon now length h
  · exact h.answers uses now length

/-- A pause beyond all numbers of 64 bits counts as the longest. With one more nanosecond there is
no answer, until the longest is out of reach. -/
theorem the_longest_pause_has_no_company :
    let m := Monitor.withoutLog (.ofMillis 1)
    let uses : List Monitor.Use := [.record 5 ⟨10 ^ 30⟩, .ask 6 9, .record 900000 ⟨1⟩]
    ((m.used uses).totalWithin 900001 1).2 = .ok 1 ∧
    ((m.used uses).totalWithin 900001 Unsigned.greatest).2 = .error .sumTooLarge ∧
    ((m.used (uses ++ [.ask 900001 Unsigned.greatest])).totalWithin 1000006 Unsigned.greatest).2 =
      .ok 1 ∧
    (behind 10 [.record ⟨3, Unsigned.greatest⟩, .prune 8]).total 9 9 = .ok Unsigned.greatest := by
  have hopened : (Monitor.withoutLog (.ofMillis 1)).Opened := .withoutLog _
  have hwindow (now length : Nat) := (only_too_much_pause_has_no_answer now length).1
  have hmonitor (now length : Nat) := (only_too_much_pause_has_no_answer now length).2
  refine ⟨?_, ?_, ?_, ?_⟩
  · exact (hmonitor 900001 1 _ hopened _).single (by decide)
  · exact (hmonitor 900001 Unsigned.greatest _ hopened _).sum
  · exact (hmonitor 1000006 Unsigned.greatest _ hopened _).single (by decide)
  · exact (hwindow 9 9 10 _ (by decide)).single (by decide)

/-- Two lines of a log are enough to leave a question without an answer. -/
theorem two_reported_pauses_can_be_too_much :
    let settings : PauseSettings := { logPath := some "gc.log", readFromStart := true }
    let disk := Disk.ofContent (Text.toBytes "GC Pause 1e14ms\nGC Pause 1e14ms\n")
    (Monitor.start settings fun _ => disk).toOption.map
        (fun m => ((m.poll 0 disk).totalWithin 1 Unsigned.greatest).2) =
      some (.error .sumTooLarge) := by decide +kernel

end Pause

end Metronome
