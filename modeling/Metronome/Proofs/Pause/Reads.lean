-- What one read of a tailer serves. It goes on where the last one ended and
-- serves lines as long as they are text. The first line that is no text ends
-- it: its bytes are lost, and nothing of that read is told.
import Metronome.Proofs.Pause.Lines

namespace Metronome

namespace Pause

open Text (Bytes lines isText remainder newline toBytes ofBytes?)

/-! ## Stretches -/

/-- What a read serves: lines that are text, and the line that is none, if it meets one. -/
structure Stretch where
  kept : Bytes
  lost : Bytes
  deriving DecidableEq, Repr

/-- What a read serves of the bytes that are ahead. -/
def stretch (ahead : Bytes) : Stretch where
  kept := ((lines ahead).takeWhile isText).flatten
  lost := ((lines ahead).dropWhile isText).head?.getD []

def Stretch.length (s : Stretch) : Nat := s.kept.length + s.lost.length

@[simp] theorem stretch_nil : stretch [] = ⟨[], []⟩ := rfl

theorem stretch_last {a : Bytes} (h : newline ∉ a) (ha : a ≠ []) :
    stretch a = if isText a then ⟨a, []⟩ else ⟨[], a⟩ := by
  unfold stretch
  rw [Text.lines_of_notMem h ha]
  cases ht : isText a <;> simp [ht]

theorem stretch_line {a : Bytes} (h : newline ∉ a) (rest : Bytes) :
    stretch (a ++ newline :: rest) =
      if isText (a ++ [newline]) then
        ⟨a ++ newline :: (stretch rest).kept, (stretch rest).lost⟩
      else ⟨[], a ++ [newline]⟩ := by
  unfold stretch
  rw [Text.lines_line h]
  cases ht : isText (a ++ [newline]) <;> simp [ht]

/-- A text is served as a whole. -/
theorem stretch_of_isText {bs : Bytes} (h : isText bs = true) : stretch bs = ⟨bs, []⟩ := by
  have hall : ∀ l ∈ lines bs, isText l = true := fun l hl => Text.isText_of_mem_lines h hl
  unfold stretch
  rw [List.takeWhile_eq_self_iff.mpr hall, List.dropWhile_eq_nil_iff.mpr hall, Text.lines_flatten]
  rfl

/-- What is lost is one line that is no text. -/
theorem stretch_lost (bs : Bytes) (h : (stretch bs).lost ≠ []) :
    (stretch bs).lost ∈ lines bs ∧ isText (stretch bs).lost = false := by
  unfold stretch at h ⊢
  dsimp only at h ⊢
  cases hd : (lines bs).dropWhile isText with
  | nil => simp [hd] at h
  | cons l rest =>
    have hmem : l ∈ lines bs := (List.dropWhile_suffix isText).subset (hd ▸ List.mem_cons_self)
    have hhead := List.head?_dropWhile_not isText (lines bs)
    simp only [hd, List.head?_cons] at hhead
    exact ⟨hmem, by simpa using hhead⟩

theorem stretch_kept_isText (bs : Bytes) : isText (stretch bs).kept = true := by
  induction bs using Text.lines_induction with
  | nil => exact Text.isText_nil
  | last a h ha =>
    rw [stretch_last h ha]
    split
    · assumption
    · exact Text.isText_nil
  | line a rest h ih =>
    rw [stretch_line h]
    split
    · rename_i ht
      have := Text.isText_append ht ih
      rwa [List.append_assoc, List.singleton_append] at this
    · exact Text.isText_nil

/-- What is served comes first, and without a loss it is all that there is. -/
theorem stretch_append_rest (bs : Bytes) :
    ∃ rest, bs = (stretch bs).kept ++ (stretch bs).lost ++ rest ∧
      ((stretch bs).lost = [] → rest = []) := by
  induction bs using Text.lines_induction with
  | nil => exact ⟨[], rfl, fun _ => rfl⟩
  | last a h ha =>
    refine ⟨[], ?_, fun _ => rfl⟩
    rw [stretch_last h ha]
    split <;> simp
  | line a rest h ih =>
    rw [stretch_line h]
    split
    · obtain ⟨more, hmore, hnone⟩ := ih
      refine ⟨more, ?_, hnone⟩
      simpa using hmore
    · exact ⟨rest, by simp, fun hl => by simp at hl⟩

/-- Where there is something to serve, something is served. -/
theorem stretch_length_pos {bs : Bytes} (h : bs ≠ []) : 0 < (stretch bs).length := by
  obtain ⟨rest, hrest, hnone⟩ := stretch_append_rest bs
  by_contra hlength
  obtain ⟨hkept, hlost⟩ : (stretch bs).kept = [] ∧ (stretch bs).lost = [] := by
    simpa [Stretch.length] using hlength
  exact h (by rw [hrest, hkept, hlost, hnone hlost]; rfl)

/-! ## Serving -/

namespace Tailer

variable {content : Bytes} {t t' : Tailer} {count : Nat}

/-- How far into its file the tailer is: all that it took but for what waits in its buffer. -/
def served (t : Tailer) : Nat := t.offset - t.buffer.length

/-- The buffer holds what was taken, and the line that is pending has not ended. -/
structure Sound (t : Tailer) : Prop where
  buffered : t.buffer.length ≤ t.offset
  pending : newline ∉ toBytes t.pending

theorem sound_fromStart (file : Nat) : (fromStart file).Sound :=
  ⟨Nat.le_refl _, by simp [fromStart]⟩

theorem sound_fromEnd (file size : Nat) : (fromEnd file size).Sound :=
  ⟨Nat.zero_le _, by simp [fromEnd]⟩

/-- The bytes that are served are taken: enough blocks of the file, or all that is left of it. -/
theorem serve_eq (content : Bytes) (count : Nat) (t : Tailer) :
    ∃ taken rest, content.drop t.offset = taken ++ rest ∧
      (count ≤ (t.ahead content).length → count ≤ (t.buffer ++ taken).length) ∧
      t.serve content count =
        { t with offset := t.offset + taken.length, buffer := (t.buffer ++ taken).drop count } := by
  generalize hn : (count - t.buffer.length + (blockSize - 1)) / blockSize * blockSize = n
  refine ⟨(content.drop t.offset).take n, (content.drop t.offset).drop n,
    (List.take_append_drop _ _).symm, ?_, ?_⟩
  · intro hcount
    have henough : count - t.buffer.length ≤ n := by
      rw [← hn]
      unfold blockSize
      omega
    unfold ahead at hcount
    simp only [List.length_append, List.length_take] at hcount ⊢
    omega
  · unfold serve
    dsimp only
    rw [hn]

variable (h : count ≤ (t.ahead content).length)

include h in
theorem ahead_serve : (t.serve content count).ahead content = (t.ahead content).drop count := by
  obtain ⟨taken, rest, hcontent, henough, hserve⟩ := serve_eq content count t
  have hrest : content.drop (t.offset + taken.length) = rest := by
    rw [← List.drop_drop, hcontent, List.drop_left]
  rw [hserve]
  unfold ahead
  dsimp only
  rw [hrest, hcontent, ← List.append_assoc, List.drop_append_of_le_length (henough h)]

include h in
theorem served_serve (hb : t.buffer.length ≤ t.offset) :
    (t.serve content count).buffer.length ≤ (t.serve content count).offset ∧
      (t.serve content count).served = t.served + count := by
  obtain ⟨taken, rest, -, henough, hserve⟩ := serve_eq content count t
  have hlength := henough h
  rw [hserve]
  unfold served
  simp only [List.length_append, List.length_drop] at hlength ⊢
  omega

@[simp] theorem serve_file : (t.serve content count).file = t.file := by
  unfold serve
  rfl

@[simp] theorem serve_position : (t.serve content count).position = t.position := by
  unfold serve
  rfl

@[simp] theorem serve_pending : (t.serve content count).pending = t.pending := by
  unfold serve
  rfl

/-! ## Reading -/

theorem file_with (t : Tailer) (position : Nat) (pending : String) :
    ({ t with position, pending } : Tailer).file = t.file := rfl

/-- A read stays with the file that is open. -/
theorem readLines_file (content : Bytes) (ls : List Bytes) (t : Tailer)
    (found : List Duration) : (readLines content ls t found).1.file = t.file := by
  induction ls generalizing t found with
  | nil => rfl
  | cons line rest ih =>
    unfold readLines
    dsimp only
    split
    · exact serve_file
    · split
      · split
        · exact (file_with _ _ _).trans serve_file
        · rw [ih]
          exact (file_with _ _ _).trans serve_file
      · exact (file_with _ _ _).trans serve_file

/-- The tailer behind a read that served such a stretch. -/
structure Serves (content : Bytes) (t : Tailer) (s : Stretch) (t' : Tailer) : Prop where
  sound : t'.Sound
  position : t'.position = t.position + s.kept.length
  pending : toBytes t'.pending = remainder (toBytes t.pending ++ s.kept)
  ahead : t'.ahead content = (t.ahead content).drop s.length
  served : t'.served = t.served + s.length

/-- A line is served, and it is lost if nothing else is done with it. -/
theorem serves_lost {line : Bytes} (ht : t.Sound) (h : line.length ≤ (t.ahead content).length) :
    Serves content t ⟨[], line⟩ (t.serve content line.length) where
  sound := ⟨(served_serve h ht.buffered).1, by rw [serve_pending]; exact ht.pending⟩
  position := serve_position
  pending := by rw [List.append_nil, Text.remainder_of_notMem ht.pending, serve_pending]
  ahead := by
    rw [ahead_serve h]
    simp [Stretch.length]
  served := by
    rw [(served_serve h ht.buffered).2]
    simp [Stretch.length]

/-- A line that was served joins what is pending. -/
theorem Serves.keep {line : Bytes} {pending : String} (h : Serves content t ⟨[], line⟩ t')
    (hpending : toBytes pending = remainder (toBytes t.pending ++ line)) :
    Serves content t ⟨line, []⟩ { t' with position := t.position + line.length, pending } where
  sound := by
    refine ⟨h.sound.buffered, ?_⟩
    rw [hpending]
    exact Text.notMem_remainder _
  position := rfl
  pending := hpending
  ahead := by
    have hahead := h.ahead
    rw [Stretch.length, Nat.add_comm] at hahead
    exact hahead
  served := by
    have hserved := h.served
    rw [Stretch.length, Nat.add_comm _ line.length] at hserved
    exact hserved

/-- A read goes on behind lines that it kept. -/
theorem Serves.trans {kept : Bytes} {s : Stretch} {u : Tailer}
    (h : Serves content t ⟨kept, []⟩ u) (h' : Serves content u s t') :
    Serves content t ⟨kept ++ s.kept, s.lost⟩ t' where
  sound := h'.sound
  position := by
    rw [h'.position, h.position, List.length_append, Nat.add_assoc]
  pending := by
    rw [h'.pending, h.pending, ← List.append_assoc, Text.remainder_append (_ ++ kept)]
  ahead := by
    rw [h'.ahead, h.ahead, List.drop_drop]
    simp [Stretch.length, Nat.add_assoc]
  served := by
    rw [h'.served, h.served]
    simp [Stretch.length, Nat.add_assoc]

/-- A line that has ended, behind what was pending, tells of its pause. -/
theorem pauseOf_pending {line : Bytes} {text : String} (h : ofBytes? line = some text)
    (pending : String) : pauseOf (toBytes pending ++ line) = ofLine (pending ++ text) := by
  rw [← Text.toBytes_of_ofBytes? h, ← Text.toBytes_append, pauseOf, Text.ofBytes?_toBytes]

/-- Lines are read up to the first that is no text. What they tell of is what was pending and the
lines that are kept tell of in one go. -/
theorem readLines_spec {bs : Bytes} (hbs : t.ahead content = bs) (ht : t.Sound)
    (found : List Duration) :
    match tells (toBytes t.pending ++ (stretch bs).kept) with
    | .error f => (readLines content (lines bs) t found).2 = .error (.fault f)
    | .ok pauses =>
      (readLines content (lines bs) t found).2 =
        (if (stretch bs).lost = [] then .ok (found ++ pauses) else .error .invalidData) ∧
      Serves content t (stretch bs) (readLines content (lines bs) t found).1 := by
  induction bs using Text.lines_induction generalizing t found with
  | nil =>
    have hserves : Serves content t ⟨[], []⟩ t := by
      refine ⟨ht, rfl, ?_, rfl, rfl⟩
      rw [List.append_nil, Text.remainder_of_notMem ht.pending]
    rw [stretch_nil, List.append_nil, tells_of_notMem ht.pending]
    exact ⟨by simp [readLines], hserves⟩
  | last a h ha =>
    have hfits : a.length ≤ (t.ahead content).length := by rw [hbs]
    rw [Text.lines_of_notMem h ha, stretch_last h ha]
    cases htext : ofBytes? a with
    | none =>
      have hlost : isText a = false := by simp [isText, htext]
      rw [hlost, if_neg Bool.false_ne_true, List.append_nil, tells_of_notMem ht.pending]
      simp only [readLines, htext]
      exact ⟨(if_neg ha).symm, serves_lost ht hfits⟩
    | some text =>
      have hkept : isText a = true := by simp [isText, htext]
      have hopen : newline ∉ toBytes t.pending ++ a :=
        fun hm => (List.mem_append.mp hm).elim ht.pending h
      have hlast : a.getLast? ≠ some newline := fun hl => h (List.mem_of_getLast? hl)
      rw [hkept, if_pos rfl, tells_of_notMem hopen]
      simp only [readLines, htext, if_neg hlast, serve_position, serve_pending]
      refine ⟨by simp, (serves_lost ht hfits).keep ?_⟩
      rw [Text.remainder_of_notMem hopen, Text.toBytes_append, Text.toBytes_of_ofBytes? htext]
  | line a rest h ih =>
    have hfits : (a ++ [newline]).length ≤ (t.ahead content).length := by
      rw [hbs]
      simp
    rw [Text.lines_line h, stretch_line h]
    cases htext : ofBytes? (a ++ [newline]) with
    | none =>
      have hlost : isText (a ++ [newline]) = false := by simp [isText, htext]
      rw [hlost, if_neg Bool.false_ne_true, List.append_nil, tells_of_notMem ht.pending]
      simp only [readLines, htext]
      exact ⟨by simp, serves_lost ht hfits⟩
    | some text =>
      have hkept : isText (a ++ [newline]) = true := by simp [isText, htext]
      have hopen : newline ∉ toBytes t.pending ++ a :=
        fun hm => (List.mem_append.mp hm).elim ht.pending h
      have hlast : (a ++ [newline]).getLast? = some newline := by simp
      have hnone : toBytes "" = remainder (toBytes t.pending ++ (a ++ [newline])) := by
        rw [← List.append_assoc, Text.remainder_line]
        simp
      have hserves := (serves_lost ht hfits).keep hnone
      rw [hkept, if_pos rfl, ← List.append_assoc, tells_line hopen, List.append_assoc,
        pauseOf_pending htext]
      simp only [readLines, htext, if_pos hlast, serve_position, serve_pending]
      cases hpause : ofLine (t.pending ++ text) with
      | error f => rfl
      | ok pause =>
        have hahead : Tailer.ahead content
            { t.serve content (a ++ [newline]).length with
              position := t.position + (a ++ [newline]).length, pending := "" } = rest := by
          rw [hserves.ahead, hbs]
          simp [Stretch.length]
        have hrest := ih hahead hserves.sound (found ++ pause.toList)
        rw [Text.toBytes_empty, List.nil_append] at hrest
        cases htells : tells (stretch rest).kept with
        | error f =>
          rw [htells] at hrest
          exact hrest
        | ok pauses =>
          rw [htells] at hrest
          obtain ⟨hanswer, hmore⟩ := hrest
          rw [List.append_assoc] at hanswer
          have hall := hserves.trans hmore
          rw [List.append_assoc, List.singleton_append] at hall
          exact ⟨hanswer, hall⟩

/-! ## A whole read -/

theorem read_missing {d : Disk} (h : d.atPath = none) (t : Tailer) :
    t.read d = (t, .error .notFound) := by
  simp [read, h]

/-- The file that a tailer reads on in, and what that file holds. -/
theorem read_eq {d : Disk} {file : Nat} (h : d.atPath = some file) (t : Tailer) :
    let u := t.reopen file (d.content file).length
    t.read d = readLines (d.content u.file) (lines (u.ahead (d.content u.file))) u [] := by
  simp [read, h]

theorem reopen_of_lt {file size : Nat} (h : size < t.position) :
    t.reopen file size = fromStart file := if_pos h

theorem reopen_of_le {file size : Nat} (h : t.position ≤ size) : t.reopen file size = t :=
  if_neg (Nat.not_lt.mpr h)

end Tailer

end Pause

end Metronome
