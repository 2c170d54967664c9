-- A log whose epochs can be told apart. Within an epoch text is appended, cut
-- anywhere between its characters. A log that is begun anew is read before it
-- has grown back. Then the reads of an epoch tell together what the text of
-- the epoch tells if it is read in one go.
import Metronome.Proofs.Pause.Pursuit

namespace Metronome

namespace Pause

open Text (Bytes isText ended remainder newline toBytes lines)

/-! ## The files -/

namespace Disk

variable {d d' : Disk} {file : Nat}

/-- The file at the path is one of those that there are. -/
def Placed (d : Disk) : Prop := ∀ file, d.atPath = some file → file < d.files.length

theorem placed_replace (d : Disk) (bs : Bytes) : (d.replace bs).Placed := by
  intro file h
  cases h
  simp [replace]

theorem Placed.change (h : d.Placed) (f : Bytes → Bytes) (h' : d'.Placed) :
    ((d.change f).getD d').Placed := by
  unfold Disk.change
  cases hpath : d.atPath with
  | none => exact h'
  | some file =>
    intro other hother
    simpa using h other (hpath.symm ▸ hother)

theorem Placed.on (h : d.Placed) (x : Happening) : (x.on d).Placed := by
  cases x with
  | append bs => exact h.change _ (placed_replace d bs)
  | write bs => exact h.change _ (placed_replace d bs)
  | replace bs => exact placed_replace d bs
  | resize size => exact h.change _ h
  | remove =>
    unfold Happening.on Disk.remove?
    cases hpath : d.atPath with
    | none => exact h
    | some file => exact fun _ hnone => by cases hnone
  | read => exact h

end Disk

/-! ## Reading a text -/

/-- If a text is ahead, all of it is served, and what is told is what it tells behind the line that
was pending. -/
theorem Tailer.readLines_of_isText {content : Bytes} {t : Tailer} (ht : t.Sound)
    (h : isText (t.ahead content) = true) (before : List Duration) :
    let answer := t.readLines content (lines (t.ahead content)) []
    heard before answer.2 =
        (tells (toBytes t.pending ++ t.ahead content)).map (fun pauses => before ++ pauses) ∧
      ∀ told, heard before answer.2 = .ok told →
        Serves content t ⟨t.ahead content, []⟩ answer.1 := by
  have hread := readLines_spec (rfl : t.ahead content = _) ht []
  rw [stretch_of_isText h] at hread
  cases htells : tells (toBytes t.pending ++ t.ahead content) with
  | error f =>
    rw [htells] at hread
    dsimp only at hread ⊢
    rw [hread]
    exact ⟨rfl, fun _ htold => by cases htold⟩
  | ok pauses =>
    rw [htells] at hread
    exact ⟨by rw [hread.1]; rfl, fun _ _ => hread.2⟩

namespace Epoch

variable {e : Epoch} {t : Tailer} {content more : Bytes}

/-- The tailer has served all that the epoch exposes, and it holds the line that has not ended. -/
structure Served (e : Epoch) (t : Tailer) : Prop where
  sound : t.Sound
  buffer : t.buffer = []
  offset : t.offset = t.position
  position : t.position = e.origin + e.exposed.length
  pending : toBytes t.pending = remainder e.exposed

/-- The epoch exposes a text, and what was told is what the text tells. -/
structure Told (e : Epoch) (t : Tailer) : Prop where
  text : isText e.exposed = true
  told : e.told = tells e.exposed
  served : ∀ told, e.told = .ok told → e.Served t

theorem told_fromStart (file : Nat) : Told {} (.fromStart file) where
  text := Text.isText_nil
  told := rfl
  served := fun _ _ => ⟨Tailer.sound_fromStart file, rfl, rfl, rfl, Text.toBytes_empty⟩

theorem told_fromEnd (file size : Nat) : Told { origin := size } (.fromEnd file size) where
  text := Text.isText_nil
  told := rfl
  served := fun _ _ => ⟨Tailer.sound_fromEnd file size, rfl, rfl, rfl, Text.toBytes_empty⟩

/-- A text that was added is told as a part of the whole. -/
theorem Told.read (h : e.Told t) {before : List Duration} (hbefore : e.told = .ok before)
    (hcontent : content.drop e.origin = e.exposed ++ more) (hmore : isText more = true)
    (stretches : List Stretch) :
    Told
      { origin := e.origin
        exposed := content.drop e.origin
        stretches
        told := heard before (t.readLines content (lines (t.ahead content)) []).2 }
      (t.readLines content (lines (t.ahead content)) []).1 := by
  obtain ⟨hsound, hbuffer, hoffset, hposition, hpending⟩ := h.served before hbefore
  have hahead : t.ahead content = more := by
    rw [Tailer.ahead, hbuffer, hoffset, hposition, ← List.drop_drop, hcontent, List.drop_left]
    rfl
  obtain ⟨htold, hserves⟩ := Tailer.readLines_of_isText hsound (hahead ▸ hmore) before
  rw [hahead] at htold hserves ⊢
  refine ⟨?_, ?_, ?_⟩
  · rw [hcontent]
    exact Text.isText_append h.text hmore
  · have hwhole := tells_append e.exposed more
    rw [← h.told, hbefore, ← hpending] at hwhole
    rw [htold, hcontent, hwhole]
    rfl
  · intro told hnow
    obtain ⟨hsound', hposition', hpending', hahead', hserved'⟩ := hserves told hnow
    have hnil := hahead'.trans (List.drop_eq_nil_of_le (by simp [Stretch.length, hahead]))
    obtain ⟨hbuffer', -⟩ := List.append_eq_nil_iff.mp hnil
    refine ⟨hsound', hbuffer', ?_, ?_, ?_⟩
    · simp only [Tailer.served, hbuffer, hbuffer', List.length_nil, Stretch.length, Nat.sub_zero,
        Nat.add_zero] at hserved'
      rw [hserved', hposition', hoffset]
    · rw [hposition', hposition, hcontent, List.length_append, Nat.add_assoc]
    · rw [hpending', hpending, hcontent, ← Text.remainder_append]

/-- The lines of a text are texts, and the pauses that it tells of are those of its lines. -/
theorem lines_of_isText {bs : Bytes} (h : isText bs = true) :
    ∃ texts : List String, ended bs = texts.map toBytes ∧ tells bs = texts.filterMapM ofLine := by
  have htexts : ∀ l ∈ ended bs, isText l = true :=
    fun l hl => Text.isText_of_mem_lines h (List.mem_of_mem_filter hl)
  unfold tells
  generalize ended bs = ls at htexts
  induction ls with
  | nil => exact ⟨[], rfl, rfl⟩
  | cons l ls ih =>
    obtain ⟨texts, rfl, htells⟩ := ih fun l hl => htexts l (List.mem_cons_of_mem _ hl)
    obtain ⟨text, rfl⟩ := Text.isText_iff.mp (htexts l List.mem_cons_self)
    refine ⟨text :: texts, rfl, ?_⟩
    rw [List.filterMapM_cons, List.filterMapM_cons, htells, pauseOf, Text.ofBytes?_toBytes]

end Epoch

/-! ## Epochs that can be told apart -/

namespace Pursuit

variable {p : Pursuit} {start : Nat}

/-- What may happen to a log whose epochs can be told apart. What is appended is text. When the
log was begun anew, it is text and shorter than the position when it is read for the first time. -/
def allows (p : Pursuit) : Happening → Bool
  | .append bs => p.changed || isText bs
  | .read =>
    !p.changed ||
      match p.disk.atPath with
      | some file =>
        (p.disk.content file).length < p.tailer.position && isText (p.disk.content file)
      | none => true
  | _ => true

def lawful (p : Pursuit) : List Happening → Bool
  | [] => true
  | x :: hs => p.allows x && (p.step x).lawful hs

/-- The log that a new epoch begins with. -/
theorem begun_anew {file : Nat} (hallows : p.allows .read = true) (hchanged : p.changed = true)
    (hpath : p.disk.atPath = some file) :
    (p.disk.content file).length < p.tailer.position ∧ isText (p.disk.content file) = true := by
  simpa [allows, hchanged, hpath] using hallows

/-- Behind what was exposed, the log holds a text that is still to be read. -/
structure Settled (p : Pursuit) : Prop where
  path : p.disk.atPath = some p.tailer.file
  origin : p.epoch.origin ≤ p.log.length
  text : ∃ more, isText more = true ∧ p.log.drop p.epoch.origin = p.epoch.exposed ++ more

/-- Where the epochs began. -/
def origins (p : Pursuit) : List Nat := (p.past ++ [p.epoch]).map (·.origin)

/-- Every epoch was told as a whole, and only the first may have begun in the midst of a file. -/
structure Faithful (p : Pursuit) (start : Nat) : Prop where
  placed : p.disk.Placed
  past : ∀ e ∈ p.past, isText e.exposed = true ∧ e.told = tells e.exposed
  now : p.epoch.Told p.tailer
  origins : p.origins = start :: List.replicate p.past.length 0
  settled : p.changed = false → p.Settled

theorem Settled.position_le (h : p.Settled) (hnow : p.epoch.Told p.tailer) {told : List Duration}
    (htold : p.epoch.told = .ok told) : p.tailer.position ≤ p.log.length := by
  obtain ⟨more, -, hmore⟩ := h.text
  have hlength := congrArg List.length hmore
  have horigin := h.origin
  have hposition := (hnow.served told htold).position
  simp only [List.length_append, List.length_drop] at hlength
  omega

theorem Settled.append (h : p.Settled) (hplaced : p.disk.Placed) {bs : Bytes}
    (hbs : isText bs = true) : (p.step (.append bs)).Settled := by
  obtain ⟨hpath, hgrown⟩ := log_append h.path (hplaced _ h.path) h.origin bs
  obtain ⟨more, htext, hmore⟩ := h.text
  refine ⟨hpath, hgrown.within, more ++ bs, Text.isText_append htext hbs, ?_⟩
  rw [← List.append_assoc]
  exact hgrown.drop.trans (congrArg (· ++ bs) hmore)

/-- A log that was begun anew is read as an epoch of its own. -/
theorem Faithful.renew (h : p.Faithful start) {file : Nat} {told : List Duration}
    (htold : p.epoch.told = .ok told) (hpath : p.disk.atPath = some file)
    (hsize : (p.disk.content file).length < p.tailer.position)
    (htext : isText (p.disk.content file) = true) : p.read.Faithful start := by
  have hfile := Tailer.readLines_file (p.disk.content file) (lines (p.disk.content file))
    (.fromStart file) []
  rw [read_of_lt htold hpath hsize]
  refine ⟨h.placed, ?_, (Epoch.told_fromStart file).read rfl rfl htext _, ?_, fun _ => ?_⟩
  · intro e he
    rcases List.mem_append.mp he with he | he
    · exact h.past e he
    · rw [List.mem_singleton.mp he]
      exact ⟨h.now.text, h.now.told⟩
  · have horigins := h.origins
    unfold Pursuit.origins at horigins ⊢
    rw [List.map_append, horigins]
    simp [List.replicate_succ']
  · refine ⟨hpath.trans (congrArg some hfile.symm), Nat.zero_le _, [], Text.isText_nil, ?_⟩
    rw [List.append_nil]
    exact congrArg p.disk.content hfile

/-- Else a read goes on with the epoch. -/
theorem Faithful.goOn (h : p.Faithful start) {told : List Duration}
    (htold : p.epoch.told = .ok told) (hsettled : p.Settled) : p.read.Faithful start := by
  have hfile := Tailer.readLines_file p.log (lines (p.tailer.ahead p.log)) p.tailer []
  obtain ⟨more, htext, hmore⟩ := hsettled.text
  rw [read_of_le htold hsettled.path (hsettled.position_le h.now htold)]
  refine ⟨h.placed, h.past, h.now.read htold hmore htext _, ?_, fun _ => ?_⟩
  · have horigins := h.origins
    unfold Pursuit.origins at horigins ⊢
    rw [List.map_append] at horigins ⊢
    exact horigins
  · refine ⟨hsettled.path.trans (congrArg some hfile.symm), ?_, [], Text.isText_nil, ?_⟩
    · exact hsettled.origin.trans_eq (congrArg (List.length ∘ p.disk.content) hfile.symm)
    · rw [List.append_nil]
      exact congrArg (List.drop p.epoch.origin ∘ p.disk.content) hfile

theorem Faithful.read (h : p.Faithful start) (hallows : p.allows .read = true) :
    p.read.Faithful start := by
  cases htold : p.epoch.told with
  | error f => rwa [read_fault htold]
  | ok told =>
    cases hpath : p.disk.atPath with
    | none => rwa [read_missing hpath]
    | some file =>
      cases hchanged : p.changed with
      | true =>
        obtain ⟨hsize, htext⟩ := begun_anew hallows hchanged hpath
        exact h.renew htold hpath hsize htext
      | false => exact h.goOn htold (h.settled hchanged)

theorem Faithful.step (h : p.Faithful start) {x : Happening} (hallows : p.allows x = true) :
    (p.step x).Faithful start := by
  cases x with
  | read => exact h.read hallows
  | append bs =>
    refine ⟨h.placed.on (.append bs), h.past, h.now, h.origins, fun hchanged => ?_⟩
    have hsame : p.changed = false := by simpa [Pursuit.step, Happening.unsettles] using hchanged
    exact (h.settled hsame).append h.placed (by simpa [allows, hsame] using hallows)
  | _ =>
    refine ⟨h.placed.on _, h.past, h.now, h.origins, fun hchanged => ?_⟩
    simp [Pursuit.step, Happening.unsettles] at hchanged

theorem Faithful.after (h : p.Faithful start) {hs : List Happening} (hlawful : p.lawful hs = true) :
    (p.after hs).Faithful start := by
  induction hs generalizing p with
  | nil => exact h
  | cons x hs ih =>
    obtain ⟨hallows, hrest⟩ := (Bool.and_eq_true _ _).mp hlawful
    exact ih (h.step hallows) hrest

theorem opening_faithful (content : Bytes) (fromStart : Bool)
    (hcontent : fromStart = true → isText content = true) :
    (opening content fromStart).Faithful (if fromStart then 0 else content.length) := by
  have hplaced : (Disk.ofContent content).Placed := Disk.placed_replace {} content
  cases fromStart with
  | true =>
    refine ⟨hplaced, fun _ he => (List.not_mem_nil he).elim, Epoch.told_fromStart 0, rfl,
      fun _ => ?_⟩
    exact ⟨rfl, Nat.zero_le _, content, hcontent rfl, rfl⟩
  | false =>
    refine ⟨hplaced, fun _ he => (List.not_mem_nil he).elim, Epoch.told_fromEnd 0 _, rfl,
      fun _ => ?_⟩
    exact ⟨rfl, Nat.le_refl _, [], Text.isText_nil, List.drop_length⟩

/-- A read that finds the log begins a new epoch if the log was begun anew, and else it goes on with
the last. What it exposes is all that the log holds from the origin of the epoch on. -/
theorem Faithful.past_read (h : p.Faithful start) (hallows : p.allows .read = true)
    {told : List Duration} (htold : p.epoch.told = .ok told) {file : Nat}
    (hpath : p.disk.atPath = some file) :
    p.read.past = (if p.changed then p.past ++ [p.epoch] else p.past) ∧
      p.read.epoch.exposed = (p.disk.content file).drop p.read.epoch.origin := by
  cases hchanged : p.changed with
  | true =>
    rw [read_of_lt htold hpath (begun_anew hallows hchanged hpath).1]
    exact ⟨rfl, rfl⟩
  | false =>
    have hsettled := h.settled hchanged
    have hfile : file = p.tailer.file := Option.some.inj (hpath.symm.trans hsettled.path)
    rw [read_of_le htold hsettled.path (hsettled.position_le h.now htold), hfile]
    exact ⟨rfl, rfl⟩

/-- A tailer opens a log and follows it. Whatever happens to a log whose epochs can be told apart,
what the reads of an epoch tell one after another is what the lines of its text tell. The position
and the line that is pending are those of all that was read of the epoch, and a read that finds no
log changes nothing. -/
theorem the_reads_of_an_epoch_tell_its_text (content : Bytes) (fromStart : Bool)
    (hs : List Happening) (hcontent : fromStart = true → isText content = true)
    (hlawful : (opening content fromStart).lawful hs = true) :
    let p := (opening content fromStart).after hs
    (opening content fromStart).disk.tailer? fromStart =
      some (opening content fromStart).tailer ∧
    p.origins = (if fromStart then 0 else content.length) :: List.replicate p.past.length 0 ∧
    (∀ e ∈ p.past ++ [p.epoch], ∃ texts : List String,
      ended e.exposed = texts.map toBytes ∧ e.told = texts.filterMapM ofLine) ∧
    (∀ told, p.epoch.told = .ok told →
      toBytes p.tailer.pending = remainder p.epoch.exposed ∧
      p.tailer.position = p.epoch.origin + p.epoch.exposed.length) ∧
    (p.allows .read = true → ∀ told, p.epoch.told = .ok told →
      ∀ file, p.disk.atPath = some file →
        p.read.past = (if p.changed then p.past ++ [p.epoch] else p.past) ∧
        p.read.epoch.exposed = (p.disk.content file).drop p.read.epoch.origin) ∧
    (p.disk.atPath = none →
      p.tailer.read p.disk = (p.tailer, .error .notFound) ∧ p.read = p) := by
  have h := (opening_faithful content fromStart hcontent).after hlawful
  have htexts (e : Epoch) (htext : isText e.exposed = true) (htold : e.told = tells e.exposed) :
      ∃ texts : List String, ended e.exposed = texts.map toBytes ∧
        e.told = texts.filterMapM ofLine := by
    rw [htold]
    exact Epoch.lines_of_isText htext
  refine ⟨opening_tailer content fromStart, h.origins, ?_, ?_, ?_, ?_⟩
  · intro e he
    rcases List.mem_append.mp he with he | he
    · exact htexts e (h.past e he).1 (h.past e he).2
    · rw [List.mem_singleton.mp he]
      exact htexts _ h.now.text h.now.told
  · intro told htold
    exact ⟨(h.now.served told htold).pending, (h.now.served told htold).position⟩
  · exact fun hallows told htold file hpath => h.past_read hallows htold hpath
  · exact fun hpath => ⟨Tailer.read_missing hpath _, read_missing hpath⟩

/-- A log is followed from its end. Lines are read in pieces that end in a number and before a line
feed. The log goes missing, comes back shorter, is cut, and grows again. -/
theorem a_restless_log_is_told_epoch_by_epoch :
    let hs := [.append (toBytes "GC Pause 1"), .read, .append (toBytes "2ms\r"), .read,
      .append (toBytes "\nGC Pause 3ms\nGC Pau"), .read, .remove, .read,
      .write (toBytes "é\nGC Pause 4m"), .read, .append (toBytes "s\n"), .read, .resize 3, .read,
      .append (toBytes "GC Pause 5ms\n"), .read]
    let p := (opening [255, 10] false).after hs
    p.origins = [2, 0, 0] ∧
    (p.past ++ [p.epoch]).map (·.told) =
      [.ok [⟨12000000⟩, ⟨3000000⟩], .ok [⟨4000000⟩], .ok [⟨5000000⟩]] ∧
    (∀ e ∈ p.past ++ [p.epoch], ∃ texts : List String,
      ended e.exposed = texts.map toBytes ∧ e.told = texts.filterMapM ofLine) ∧
    p.tailer.position = 16 := by
  intro hs
  have hlawful : (opening [255, 10] false).lawful hs = true := by
    unfold hs
    decide +kernel
  have htold : (((opening [255, 10] false).after hs).past ++
      [((opening [255, 10] false).after hs).epoch]).map (·.told) =
        [.ok [⟨12000000⟩, ⟨3000000⟩], .ok [⟨4000000⟩], .ok [⟨5000000⟩]] := by
    unfold hs
    decide +kernel
  obtain ⟨-, horigins, hepochs, -⟩ := the_reads_of_an_epoch_tell_its_text [255, 10] false hs
    (fun hstart => by cases hstart) hlawful
  exact ⟨horigins.trans (by unfold hs; decide +kernel), htold, hepochs,
    by unfold hs; decide +kernel⟩

end Pursuit

end Pause

end Metronome
