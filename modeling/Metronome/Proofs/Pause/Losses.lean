-- A log that only grows. Its bytes are served once and in order. A line that is
-- no text is lost, and it takes with it what its read had found by then. The
-- rest of the log is told, and all of it if no loss took anything along.
import Metronome.Proofs.Pause.Pursuit

namespace Metronome

namespace Pause

open Text (Bytes isText remainder newline toBytes)

/-! ## Losses that take nothing along -/

namespace Stretch

/-- A line that is lost has ended, no line was open before it, and its read had found nothing. -/
def harmless (open_ : Bytes) : List Stretch → Bool
  | [] => true
  | s :: rest =>
    (s.lost = [] ||
      remainder (open_ ++ s.kept) = [] && s.lost.getLast? = some newline &&
        tells (open_ ++ s.kept) = .ok []) &&
      harmless (remainder (open_ ++ s.kept)) rest

/-- A line that is no text tells of nothing. -/
theorem tells_lost {line : Bytes} (hline : isText line = false ∧ newline ∉ line.dropLast)
    (hlast : line.getLast? = some newline) (rest : Bytes) : tells (line ++ rest) = tells rest := by
  obtain ⟨hno, hopen⟩ := hline
  obtain ⟨a, rfl⟩ := List.getLast?_eq_some_iff.mp hlast
  rw [List.dropLast_concat] at hopen
  have hnone : pauseOf (a ++ [newline]) = .ok none := by
    have hbytes : Text.ofBytes? (a ++ [newline]) = none := by simpa [isText] using hno
    rw [pauseOf, hbytes]
  rw [List.append_assoc, List.singleton_append, tells_line hopen, hnone]
  cases tells rest <;> rfl

/-- If no loss takes anything along, the reads tell what the log tells. -/
theorem toldFrom_of_harmless {open_ : Bytes} {l : List Stretch}
    (hlost : ∀ s ∈ l, s.lost ≠ [] → isText s.lost = false ∧ newline ∉ s.lost.dropLast)
    (h : harmless open_ l = true) (hopen : newline ∉ open_) :
    toldFrom open_ l = tells (open_ ++ servedOf l) := by
  induction l generalizing open_ with
  | nil =>
    rw [show servedOf [] = [] from rfl, List.append_nil, tells_of_notMem hopen]
    rfl
  | cons s l ih =>
    obtain ⟨hs, hl⟩ := (Bool.and_eq_true _ _).mp h
    have hrest := ih (fun r hr => hlost r (List.mem_cons_of_mem _ hr)) hl (Text.notMem_remainder _)
    rw [servedOf_cons, toldFrom, hrest]
    by_cases hnone : s.lost = []
    · simp only [if_pos hnone]
      rw [hnone, List.append_nil, ← List.append_assoc, tells_append (open_ ++ s.kept)]
    · obtain ⟨⟨hended, hlast⟩, hfound⟩ : (remainder (open_ ++ s.kept) = [] ∧
          s.lost.getLast? = some newline) ∧ tells (open_ ++ s.kept) = .ok [] := by
        simpa [hnone] using hs
      have hall : tells (open_ ++ (s.kept ++ s.lost ++ servedOf l)) = tells (servedOf l) := by
        rw [List.append_assoc, ← List.append_assoc open_, tells_append, hended, hfound,
          List.nil_append, tells_lost (hlost s List.mem_cons_self hnone) hlast]
        cases tells (servedOf l) <;> rfl
      simp only [if_neg hnone]
      rw [hall, hended, hfound, List.nil_append]
      cases tells (servedOf l) <;> rfl

end Stretch

/-! ## Growth -/

/-- What a happening adds to the end of the log. -/
def Happening.added : Happening → Bytes
  | append bs => bs
  | _ => []

namespace Pursuit

variable {p : Pursuit} {told : List Duration} {written : Bytes}

/-- From the place where the reading began, the log holds what was written: first what was served,
and then, as long as the tailer reads, what is still ahead of it. -/
structure Growing (p : Pursuit) (written : Bytes) : Prop where
  past : p.past = []
  path : p.disk.atPath = some p.tailer.file
  placed : p.tailer.file < p.disk.files.length
  origin : p.epoch.origin ≤ p.log.length
  log : p.log.drop p.epoch.origin = written
  served : ∃ rest, written = Stretch.servedOf p.epoch.stretches ++ rest ∧
    ∀ told, p.epoch.told = .ok told → p.tailer.ahead p.log = rest

/-- A tailer that still reads has taken no more than there is. -/
theorem Growing.offset_le (h : p.Growing written) (hbooks : p.epoch.Kept p.tailer)
    (htold : p.epoch.told = .ok told) :
    p.tailer.offset ≤ p.log.length ∧ p.tailer.position ≤ p.log.length := by
  obtain ⟨rest, hwritten, hahead⟩ := h.served
  have hfollows := hbooks.follows told htold
  have hlog := congrArg List.length (h.log.trans hwritten)
  have hrest := congrArg List.length (hahead told htold)
  have horigin := h.origin
  have hserved := hfollows.served
  have hposition := hfollows.position
  have hbuffered := hfollows.sound.buffered
  have hkept := Stretch.length_servedOf p.epoch.stretches
  unfold Tailer.served at hserved
  unfold Tailer.ahead at hrest
  simp only [List.length_append, List.length_drop] at hlog hrest
  omega

theorem Growing.append (h : p.Growing written) (hbooks : p.epoch.Kept p.tailer) (bs : Bytes) :
    (p.step (.append bs)).Growing (written ++ bs) := by
  obtain ⟨hpath, hgrown⟩ := log_append h.path h.placed h.origin bs
  obtain ⟨rest, hwritten, hahead⟩ := h.served
  refine ⟨h.past, hpath, hgrown.placed, hgrown.within, ?_, rest ++ bs, ?_, ?_⟩
  · exact hgrown.drop.trans (congrArg (· ++ bs) h.log)
  · rw [hwritten, List.append_assoc]
    rfl
  · intro told htold
    have hoffset := (h.offset_le hbooks htold).1
    rw [hgrown.log, ← hahead told htold]
    unfold Tailer.ahead
    rw [List.append_assoc, ← List.drop_append_of_le_length hoffset]
    rfl

/-- A read goes on in the file that is open. -/
theorem Growing.log_read (h : p.Growing written) (hbooks : p.epoch.Kept p.tailer)
    (htold : p.epoch.told = .ok told) : p.read.log = p.log := by
  rw [read_of_le htold h.path (h.offset_le hbooks htold).2]
  exact congrArg p.disk.content (Tailer.readLines_file p.log _ p.tailer [])

theorem Growing.read (h : p.Growing written) (hbooks : p.epoch.Kept p.tailer) :
    p.read.Growing written := by
  cases htold : p.epoch.told with
  | error f => rwa [read_fault htold]
  | ok told =>
    obtain ⟨rest, hwritten, hahead⟩ := h.served
    obtain ⟨more, hmore, hleft⟩ := Tailer.readLines_leaves p.log (hbooks.follows told htold).sound
    have hfile := Tailer.readLines_file p.log (Text.lines (p.tailer.ahead p.log)) p.tailer []
    have hstep := read_of_le htold h.path (h.offset_le hbooks htold).2
    have hlog := h.log_read hbooks htold
    have horigin : p.read.epoch.origin = p.epoch.origin := by rw [hstep]
    refine ⟨?_, ?_, ?_, ?_, ?_, more, ?_, ?_⟩
    · rw [hstep]
      exact h.past
    · rw [hstep]
      exact h.path.trans (congrArg some hfile.symm)
    · rw [hstep]
      exact hfile.symm ▸ h.placed
    · rw [hlog, horigin]
      exact h.origin
    · rw [hlog, horigin]
      exact h.log
    · rw [hstep, Stretch.servedOf_append, hwritten, List.append_assoc, ← hahead told htold]
      exact congrArg _ (by simpa [Stretch.servedOf] using hmore)
    · intro told' htold'
      rw [hlog]
      rw [hstep] at htold' ⊢
      exact hleft told told' htold'

/-- The tailer has nothing ahead of it, or a fault has ended the reading. -/
def CaughtUp (p : Pursuit) : Prop := ∀ told, p.epoch.told = .ok told → p.tailer.ahead p.log = []

/-- A read leaves less ahead than it found. -/
theorem Growing.ahead_read (h : p.Growing written) (hbooks : p.epoch.Kept p.tailer)
    {before : List Duration} (hbefore : p.epoch.told = .ok before)
    (htold : p.read.epoch.told = .ok told) :
    (p.read.tailer.ahead p.read.log).length ≤ (p.tailer.ahead p.log).length - 1 := by
  obtain ⟨rest, hrest, hleft⟩ :=
    Tailer.readLines_leaves p.log (hbooks.follows before hbefore).sound
  have hlengths := congrArg List.length hrest
  simp only [List.length_append] at hlengths
  have hserved : p.tailer.ahead p.log ≠ [] → 0 < (stretch (p.tailer.ahead p.log)).length :=
    stretch_length_pos
  rw [← List.length_pos_iff, Stretch.length] at hserved
  rw [h.log_read hbooks hbefore]
  rw [read_of_le hbefore h.path (h.offset_le hbooks hbefore).2] at htold ⊢
  rw [hleft before told htold]
  omega

/-- Enough reads reach the end of the log. -/
theorem Growing.caughtUp (h : p.Growing written) (hbooks : p.epoch.Kept p.tailer) (n : Nat)
    (hn : ∀ told, p.epoch.told = .ok told → (p.tailer.ahead p.log).length ≤ n) :
    (p.after (List.replicate n .read)).CaughtUp := by
  induction n generalizing p with
  | zero => exact fun told htold => List.length_eq_zero_iff.mp (Nat.le_zero.mp (hn told htold))
  | succ n ih =>
    refine ih (h.read hbooks) (read_kept hbooks) fun told htold => ?_
    change p.read.epoch.told = .ok told at htold
    cases hbefore : p.epoch.told with
    | error f =>
      rw [read_fault hbefore, hbefore] at htold
      cases htold
    | ok before =>
      exact (h.ahead_read hbooks hbefore htold).trans (Nat.sub_le_of_le_add (hn before hbefore))

theorem opening_growing (content : Bytes) (fromStart : Bool) :
    (opening content fromStart).Growing (if fromStart then content else []) := by
  cases fromStart with
  | true => exact ⟨rfl, rfl, Nat.zero_lt_one, Nat.zero_le _, rfl, content, rfl, fun _ _ => rfl⟩
  | false =>
    exact ⟨rfl, rfl, Nat.zero_lt_one, Nat.le_refl _, List.drop_length, [], rfl,
      fun _ _ => List.drop_length⟩

/-- As long as it is appended to and read, a log grows. -/
theorem after_growing (h : p.Growing written) (hbooks : p.epoch.Kept p.tailer) (hs : List Happening)
    (hgrows : ∀ x ∈ hs, x.unsettles = false) :
    (p.after hs).Growing (written ++ (hs.map Happening.added).flatten) := by
  induction hs generalizing p written with
  | nil => exact (List.append_nil written).symm ▸ h
  | cons x hs ih =>
    have hstep : (p.step x).Growing (written ++ x.added) := by
      cases x with
      | append bs => exact h.append hbooks bs
      | read => exact (List.append_nil written).symm ▸ h.read hbooks
      | _ => exact absurd (hgrows _ List.mem_cons_self) (by simp [Happening.unsettles])
    have hrest := ih hstep (step_kept hbooks x) fun y hy => hgrows y (List.mem_cons_of_mem _ hy)
    rw [List.map_cons, List.flatten_cons, ← List.append_assoc]
    exact hrest

/-- Whatever is appended to a log, cut anywhere and read at any times, it is served once and in
order. What is lost are single lines that are no text. What is told are the pauses of what was kept,
but for those of a read that lost a line. If no loss takes anything along, these are the pauses of
all lines that are text. -/
theorem a_growing_log_is_told_but_for_its_losses (content : Bytes) (fromStart : Bool)
    (hs : List Happening) (hgrows : ∀ x ∈ hs, x.unsettles = false) :
    let p := (opening content fromStart).after hs
    let written := (if fromStart then content else []) ++ (hs.map Happening.added).flatten
    p.past = [] ∧
    (∃ rest, written = Stretch.servedOf p.epoch.stretches ++ rest ∧
      ∀ told, p.epoch.told = .ok told → p.tailer.ahead p.log = rest) ∧
    (∀ s ∈ p.epoch.stretches, isText s.kept = true ∧
      (s.lost ≠ [] → isText s.lost = false ∧ newline ∉ s.lost.dropLast)) ∧
    p.epoch.told = Stretch.toldFrom [] p.epoch.stretches ∧
    (Stretch.harmless [] p.epoch.stretches = true → p.CaughtUp → p.epoch.told = tells written) ∧
    ∀ n, (p.tailer.ahead p.log).length ≤ n → (p.after (List.replicate n .read)).CaughtUp := by
  have hbooks := after_kept (opening_kept content fromStart) hs
  have hgrowing := after_growing (opening_growing content fromStart)
    (opening_kept content fromStart) hs hgrows
  refine ⟨hgrowing.past, hgrowing.served, fun s hmem => ⟨hbooks.texts s hmem, hbooks.lost s hmem⟩,
    hbooks.told, ?_, fun n hn => hgrowing.caughtUp hbooks n fun _ _ => hn⟩
  intro hharmless hcaught
  obtain ⟨rest, hwritten, hahead⟩ := hgrowing.served
  have htold := hbooks.told.trans
    (Stretch.toldFrom_of_harmless hbooks.lost hharmless List.not_mem_nil)
  rw [List.nil_append] at htold
  cases hend : ((opening content fromStart).after hs).epoch.told with
  | ok told =>
    rw [hwritten, ← hahead told hend, hcaught told hend, List.append_nil, ← htold, hend]
  | error f =>
    rw [hwritten, tells_append, ← htold, hend]
    rfl

/-- A line that is no text is lost on its own, and the line behind it is read in two pieces. -/
theorem a_log_that_loses_a_line_of_its_own_is_told :
    let hs := [.append (toBytes "GC Pause 1ms\n"), .read, .append [255, 254, 10], .read,
      .append (toBytes "GC Pau"), .read, .append (toBytes "se 2ms\n"), .read]
    ((opening [] true).after hs).epoch.told = .ok [⟨1000000⟩, ⟨2000000⟩] ∧
      tells ((hs.map Happening.added).flatten) = .ok [⟨1000000⟩, ⟨2000000⟩] := by
  intro hs
  have hgrows : ∀ x ∈ hs, x.unsettles = false := by
    unfold hs
    decide
  have hharmless : Stretch.harmless [] ((opening [] true).after hs).epoch.stretches = true := by
    unfold hs
    decide +kernel
  have hcaught : ((opening [] true).after hs).CaughtUp := fun _ _ => by
    unfold hs
    decide +kernel
  have htells : tells ((hs.map Happening.added).flatten) = .ok [⟨1000000⟩, ⟨2000000⟩] := by
    unfold hs
    decide +kernel
  have h := a_growing_log_is_told_but_for_its_losses [] true hs hgrows
  exact ⟨(h.2.2.2.2.1 hharmless hcaught).trans htells, htells⟩

/-- A line that is no text comes behind one that tells of a pause, and one read meets both. The
pause is never told, however often the log is read. -/
theorem a_pause_before_a_lost_line_is_never_told :
    let log := toBytes "GC Pause 1ms\n" ++ [255, 10]
    let p := (opening [] true).after [.append log, .read, .read]
    p.log = log ∧ p.tailer.ahead p.log = [] ∧ p.tailer.read p.disk = (p.tailer, .ok []) ∧
    p.epoch.told = .ok [] ∧ tells log = .ok [⟨1000000⟩] := by
  decide +kernel

end Pursuit

end Pause

end Metronome
