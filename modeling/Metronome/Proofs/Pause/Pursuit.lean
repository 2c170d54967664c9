-- A log that is followed. Whatever is done to the log between the reads, books
-- tell for each file that the tailer opens what was served of it and what was
-- told, and the tailer stands where the books say.
import Metronome.Proofs.Pause.Reads

namespace Metronome

namespace Pause

open Text (Bytes isText remainder newline toBytes)

/-! ## Histories -/

/-- What happens to a log that is followed. -/
inductive Happening where
  | append (bs : Bytes)
  | write (bs : Bytes)
  | replace (bs : Bytes)
  | resize (size : Nat)
  | remove
  /-- The tailer reads what it can. -/
  | read
  deriving DecidableEq, Repr

namespace Happening

/-- The log behind it. A log that is missing is not resized or removed. -/
def on (d : Disk) : Happening → Disk
  | append bs => d.append bs
  | write bs => d.write bs
  | replace bs => d.replace bs
  | resize size => (d.resize? size).getD d
  | remove => d.remove?.getD d
  | read => d

/-- What the log held may be gone. -/
def unsettles : Happening → Bool
  | append _ | read => false
  | _ => true

end Happening

/-- What is known of the reads of one file, from its opening on. -/
structure Epoch where
  /-- How much of the file stood before the place where the reading began. -/
  origin : Nat := 0
  /-- What the file held from that place on, at the last read. -/
  exposed : Bytes := []
  /-- What was served, read by read. -/
  stretches : List Stretch := []
  /-- The pauses that the reads told of, one after another, or the fault that ended the reading. -/
  told : Except Fault (List Duration) := .ok []
  deriving DecidableEq, Repr

/-- All that was told behind one more answer. -/
def heard (told : List Duration) :
    Except ReadProblem (List Duration) → Except Fault (List Duration)
  | .ok pauses => .ok (told ++ pauses)
  | .error (.fault f) => .error f
  | .error _ => .ok told

/-- A log, the tailer that follows it, and the books about its reads. -/
structure Pursuit where
  disk : Disk
  tailer : Tailer
  epoch : Epoch
  /-- The epochs that are over, oldest first. -/
  past : List Epoch := []
  /-- What the log held may be gone, and no read has found the log since. -/
  changed : Bool := false
  deriving DecidableEq, Repr

namespace Pursuit

/-- What the file that the tailer has open holds. -/
def log (p : Pursuit) : Bytes := p.disk.content p.tailer.file

/-- The books when a read begins. A log that is shorter than what was served begins a new epoch. -/
def ready (p : Pursuit) (size : Nat) : Pursuit :=
  if size < p.tailer.position then { p with epoch := {}, past := p.past ++ [p.epoch] } else p

/-- A read, unless a fault has ended the reading. One that finds no log changes no books. -/
def read (p : Pursuit) : Pursuit :=
  match p.epoch.told, p.disk.atPath with
  | .error _, _ => p
  | .ok _, none => { p with tailer := (p.tailer.read p.disk).1 }
  | .ok _, some file =>
    let size := (p.disk.content file).length
    let t := p.tailer.reopen file size
    let content := p.disk.content t.file
    let epoch := (p.ready size).epoch
    let told := epoch.told.bind fun told => heard told (p.tailer.read p.disk).2
    { p.ready size with
      tailer := (p.tailer.read p.disk).1
      epoch :=
        { origin := epoch.origin
          exposed := content.drop epoch.origin
          stretches := epoch.stretches ++ [stretch (t.ahead content)]
          told }
      changed := false }

def step (p : Pursuit) : Happening → Pursuit
  | .read => p.read
  | h => { p with disk := h.on p.disk, changed := p.changed || h.unsettles }

def after (p : Pursuit) (hs : List Happening) : Pursuit := hs.foldl step p

/-- A log with some content is followed, from its start or from its end. -/
def opening (content : Bytes) (fromStart : Bool) : Pursuit where
  disk := Disk.ofContent content
  tailer := if fromStart then .fromStart 0 else .fromEnd 0 content.length
  epoch := { origin := if fromStart then 0 else content.length }

theorem opening_tailer (content : Bytes) (fromStart : Bool) :
    (opening content fromStart).disk.tailer? fromStart =
      some (opening content fromStart).tailer := by
  cases fromStart <;> rfl

end Pursuit

/-! ## What is told -/

namespace Stretch

/-- All that was kept, in one piece. -/
def keptOf (l : List Stretch) : Bytes := (l.map (·.kept)).flatten

/-- All that was served, in one piece. -/
def servedOf (l : List Stretch) : Bytes := (l.map fun s => s.kept ++ s.lost).flatten

/-- All that was lost, in one piece. -/
def lostOf (l : List Stretch) : Bytes := (l.map (·.lost)).flatten

/-- What is told of some stretches, read after read, behind what is still open. A read that lost a
line tells of nothing. -/
def toldFrom (open_ : Bytes) : List Stretch → Except Fault (List Duration)
  | [] => .ok []
  | s :: rest =>
    (tells (open_ ++ s.kept)).bind fun pauses =>
      (toldFrom (remainder (open_ ++ s.kept)) rest).map fun more =>
        (if s.lost = [] then pauses else []) ++ more

@[simp] theorem keptOf_nil : keptOf [] = [] := rfl

@[simp] theorem keptOf_append (l l' : List Stretch) : keptOf (l ++ l') = keptOf l ++ keptOf l' := by
  simp [keptOf]

@[simp] theorem keptOf_cons (s : Stretch) (l : List Stretch) :
    keptOf (s :: l) = s.kept ++ keptOf l := by
  simp [keptOf]

@[simp] theorem servedOf_append (l l' : List Stretch) :
    servedOf (l ++ l') = servedOf l ++ servedOf l' := by
  simp [servedOf]

@[simp] theorem servedOf_cons (s : Stretch) (l : List Stretch) :
    servedOf (s :: l) = s.kept ++ s.lost ++ servedOf l := by
  simp [servedOf]

theorem length_servedOf (l : List Stretch) :
    (servedOf l).length = (keptOf l).length + (lostOf l).length := by
  induction l with
  | nil => rfl
  | cons s l ih =>
    rw [servedOf_cons, keptOf_cons]
    simp only [lostOf, List.map_cons, List.flatten_cons, List.length_append] at ih ⊢
    rw [ih]
    omega

theorem toldFrom_append {open_ : Bytes} (h : newline ∉ open_) (l : List Stretch) (s : Stretch) :
    toldFrom open_ (l ++ [s]) =
      (toldFrom open_ l).bind fun told =>
        (tells (remainder (open_ ++ keptOf l) ++ s.kept)).map fun pauses =>
          told ++ if s.lost = [] then pauses else [] := by
  induction l generalizing open_ with
  | nil =>
    rw [keptOf_nil, List.append_nil, Text.remainder_of_notMem h]
    simp only [List.nil_append, toldFrom]
    cases tells (open_ ++ s.kept) with
    | error f => rfl
    | ok pauses => simp [Except.bind, Except.map]
  | cons r l ih =>
    simp only [List.cons_append, toldFrom, ih (Text.notMem_remainder _), keptOf_cons,
      ← List.append_assoc, ← Text.remainder_append]
    cases tells (open_ ++ r.kept) with
    | error f => rfl
    | ok found =>
      cases toldFrom (remainder (open_ ++ r.kept)) l with
      | error f => rfl
      | ok told =>
        cases tells (remainder (open_ ++ r.kept ++ keptOf l) ++ s.kept) with
        | error f => rfl
        | ok pauses => simp [Except.bind, Except.map]

end Stretch

/-- What a read served comes first of what was ahead, and unless it met a fault, the rest of it is
ahead now. -/
theorem Tailer.readLines_leaves {t : Tailer} (content : Bytes) (h : t.Sound) :
    let ahead := t.ahead content
    let answer := t.readLines content (Text.lines ahead) []
    ∃ rest, ahead = (stretch ahead).kept ++ (stretch ahead).lost ++ rest ∧
      ∀ before told, heard before answer.2 = .ok told → answer.1.ahead content = rest := by
  obtain ⟨rest, hrest, -⟩ := stretch_append_rest (t.ahead content)
  have hread := readLines_spec (rfl : t.ahead content = _) h []
  refine ⟨rest, hrest, fun before told htold => ?_⟩
  cases htells : tells (toBytes t.pending ++ (stretch (t.ahead content)).kept) with
  | error f =>
    rw [htells] at hread
    dsimp only at hread
    rw [hread] at htold
    cases htold
  | ok pauses =>
    rw [htells] at hread
    rw [hread.2.ahead, Stretch.length, ← List.length_append]
    exact (congrArg (List.drop _) hrest).trans List.drop_left

/-! ## Books in order -/

namespace Epoch

variable {e : Epoch} {t : Tailer} {content : Bytes} {told : List Duration}

/-- The tailer stands where the books say: it counts the bytes that were kept, and it holds the
line of them that has not ended. -/
structure Follows (e : Epoch) (t : Tailer) : Prop where
  sound : t.Sound
  position : t.position = e.origin + (Stretch.keptOf e.stretches).length
  served : t.served = e.origin + (Stretch.servedOf e.stretches).length
  pending : toBytes t.pending = remainder (Stretch.keptOf e.stretches)

/-- The books agree with the tailer, as long as it reads. -/
structure Kept (e : Epoch) (t : Tailer) : Prop where
  told : e.told = Stretch.toldFrom [] e.stretches
  follows : ∀ told, e.told = .ok told → e.Follows t
  texts : ∀ s ∈ e.stretches, isText s.kept = true
  lost : ∀ s ∈ e.stretches, s.lost ≠ [] → isText s.lost = false ∧ newline ∉ s.lost.dropLast

theorem kept_fromStart (file : Nat) : Kept {} (.fromStart file) where
  told := rfl
  follows := fun _ _ => ⟨Tailer.sound_fromStart file, rfl, rfl, Text.toBytes_empty⟩
  texts := fun _ hs => by cases hs
  lost := fun _ hs => by cases hs

theorem kept_fromEnd (file size : Nat) : Kept { origin := size } (.fromEnd file size) where
  told := rfl
  follows := fun _ _ => ⟨Tailer.sound_fromEnd file size, rfl, rfl, Text.toBytes_empty⟩
  texts := fun _ hs => by cases hs
  lost := fun _ hs => by cases hs

theorem Follows.serves (h : e.Follows t) {s : Stretch} {u : Tailer}
    (hserves : Tailer.Serves content t s u) (exposed : Bytes)
    (told : Except Fault (List Duration)) :
    Follows ⟨e.origin, exposed, e.stretches ++ [s], told⟩ u where
  sound := hserves.sound
  position := by
    rw [hserves.position, h.position]
    simp [Nat.add_assoc]
  served := by
    rw [hserves.served, h.served]
    simp [Stretch.length, Stretch.servedOf, Nat.add_assoc]
  pending := by
    rw [hserves.pending, h.pending]
    simp [← Text.remainder_append]

/-- A read keeps the books in order. -/
theorem Kept.read (h : e.Kept t) (htold : e.told = .ok told) (content exposed : Bytes) :
    Kept
      { origin := e.origin
        exposed
        stretches := e.stretches ++ [stretch (t.ahead content)]
        told := heard told (t.readLines content (Text.lines (t.ahead content)) []).2 }
      (t.readLines content (Text.lines (t.ahead content)) []).1 := by
  have hfollows := h.follows told htold
  have hread := Tailer.readLines_spec (rfl : t.ahead content = _) hfollows.sound []
  have hall : Stretch.toldFrom [] (e.stretches ++ [stretch (t.ahead content)]) =
      (tells (toBytes t.pending ++ (stretch (t.ahead content)).kept)).map fun pauses =>
        told ++ if (stretch (t.ahead content)).lost = [] then pauses else [] := by
    rw [Stretch.toldFrom_append List.not_mem_nil, ← h.told, htold, List.nil_append,
      ← hfollows.pending]
    rfl
  have htexts : ∀ s ∈ e.stretches ++ [stretch (t.ahead content)], isText s.kept = true := by
    intro s hs
    rcases List.mem_append.mp hs with hs | hs
    · exact h.texts s hs
    · rw [List.mem_singleton.mp hs]
      exact stretch_kept_isText _
  have hlost : ∀ s ∈ e.stretches ++ [stretch (t.ahead content)],
      s.lost ≠ [] → isText s.lost = false ∧ newline ∉ s.lost.dropLast := by
    intro s hs hne
    rcases List.mem_append.mp hs with hs | hs
    · exact h.lost s hs hne
    · rw [List.mem_singleton.mp hs] at hne ⊢
      obtain ⟨hmem, hno⟩ := stretch_lost _ hne
      exact ⟨hno, Text.notMem_dropLast_of_mem_lines hmem⟩
  cases htells : tells (toBytes t.pending ++ (stretch (t.ahead content)).kept) with
  | error f =>
    rw [htells] at hread hall
    dsimp only at hread
    refine ⟨?_, ?_, htexts, hlost⟩
    · rw [hall, hread]
      rfl
    · intro told' htold'
      rw [hread] at htold'
      cases htold'
  | ok pauses =>
    rw [htells] at hread hall
    obtain ⟨hanswer, hserves⟩ := hread
    refine ⟨?_, fun _ _ => hfollows.serves hserves _ _, htexts, hlost⟩
    rw [hall, hanswer]
    split <;> simp [heard, Except.map]

end Epoch

namespace Pursuit

variable {p : Pursuit} {told : List Duration} {file : Nat}

/-- What an append to the file that the tailer has open leaves, for a place in that file. -/
structure Grown (p q : Pursuit) (place : Nat) (bs : Bytes) : Prop where
  placed : q.tailer.file < q.disk.files.length
  log : q.log = p.log ++ bs
  within : place ≤ q.log.length
  drop : q.log.drop place = p.log.drop place ++ bs

theorem log_append (hpath : p.disk.atPath = some p.tailer.file)
    (hfile : p.tailer.file < p.disk.files.length) {place : Nat} (hplace : place ≤ p.log.length)
    (bs : Bytes) :
    (p.step (.append bs)).disk.atPath = some p.tailer.file ∧
      p.Grown (p.step (.append bs)) place bs := by
  have hdisk : (p.disk.append bs).atPath = some p.tailer.file ∧
      (p.disk.append bs).files.length = p.disk.files.length ∧
      (p.disk.append bs).content p.tailer.file = p.log ++ bs := by
    simp [Disk.append, Disk.change, Disk.content, log, hpath, hfile]
  obtain ⟨hkept, hfiles, hlog⟩ := hdisk
  have hlog : (p.step (.append bs)).log = p.log ++ bs := hlog
  refine ⟨hkept, hfiles ▸ hfile, hlog, ?_, ?_⟩
  · rw [hlog, List.length_append]
    exact Nat.le_add_right_of_le hplace
  · rw [hlog]
    exact List.drop_append_of_le_length hplace

theorem ready_of_lt {size : Nat} (h : size < p.tailer.position) :
    p.ready size = { p with epoch := {}, past := p.past ++ [p.epoch] } := if_pos h

theorem ready_of_le {size : Nat} (h : p.tailer.position ≤ size) : p.ready size = p :=
  if_neg (Nat.not_lt.mpr h)

theorem read_fault {f : Fault} (h : p.epoch.told = .error f) : p.read = p := by
  simp [read, h]

theorem read_missing (h : p.disk.atPath = none) : p.read = p := by
  cases htold : p.epoch.told with
  | error f => exact read_fault htold
  | ok told => simp [read, htold, h, Tailer.read_missing h]

/-- A read that goes on in the file that is open. -/
theorem read_of_le (htold : p.epoch.told = .ok told) (hpath : p.disk.atPath = some file)
    (hsize : p.tailer.position ≤ (p.disk.content file).length) :
    let answer := p.tailer.readLines p.log (Text.lines (p.tailer.ahead p.log)) []
    p.read =
      { p with
        tailer := answer.1
        epoch :=
          { origin := p.epoch.origin
            exposed := p.log.drop p.epoch.origin
            stretches := p.epoch.stretches ++ [stretch (p.tailer.ahead p.log)]
            told := heard told answer.2 }
        changed := false } := by
  simp only [read, htold, hpath, ready_of_le hsize, Tailer.read_eq hpath,
    Tailer.reopen_of_le hsize]
  rfl

/-- A read that begins anew. -/
theorem read_of_lt (htold : p.epoch.told = .ok told) (hpath : p.disk.atPath = some file)
    (hsize : (p.disk.content file).length < p.tailer.position) :
    let content := p.disk.content file
    let answer := (Tailer.fromStart file).readLines content (Text.lines content) []
    p.read =
      { p with
        tailer := answer.1
        epoch :=
          { exposed := content
            stretches := [stretch content]
            told := heard [] answer.2 }
        past := p.past ++ [p.epoch]
        changed := false } := by
  simp only [read, htold, hpath, ready_of_lt hsize, Tailer.read_eq hpath,
    Tailer.reopen_of_lt hsize]
  rfl

theorem read_kept (h : p.epoch.Kept p.tailer) : p.read.epoch.Kept p.read.tailer := by
  cases htold : p.epoch.told with
  | error f => rwa [read_fault htold]
  | ok told =>
    cases hpath : p.disk.atPath with
    | none => rwa [read_missing hpath]
    | some file =>
      by_cases hsize : (p.disk.content file).length < p.tailer.position
      · rw [read_of_lt htold hpath hsize]
        exact (Epoch.kept_fromStart file).read rfl _ _
      · rw [read_of_le htold hpath (Nat.not_lt.mp hsize)]
        exact h.read htold _ _

theorem step_kept (h : p.epoch.Kept p.tailer) (x : Happening) :
    (p.step x).epoch.Kept (p.step x).tailer := by
  cases x with
  | read => exact read_kept h
  | _ => exact h

theorem opening_kept (content : Bytes) (fromStart : Bool) :
    (opening content fromStart).epoch.Kept (opening content fromStart).tailer := by
  cases fromStart with
  | true => exact Epoch.kept_fromStart 0
  | false => exact Epoch.kept_fromEnd 0 content.length

/-- Whatever happens to a log, the books about it are in order. -/
theorem after_kept (h : p.epoch.Kept p.tailer) (hs : List Happening) :
    (p.after hs).epoch.Kept (p.after hs).tailer := by
  induction hs generalizing p with
  | nil => exact h
  | cons x hs ih => exact ih (step_kept h x)

end Pursuit

end Pause

end Metronome
