-- Lines that come in pieces, and the pauses that they tell of. However the
-- bytes are cut, the lines that have ended and what stands behind them come
-- out the same. A newline is never part of another character, so the lines of
-- a text are texts.
import Metronome.Pause.Tailer
import Mathlib.Data.List.DropRight

namespace Metronome

instance decidableEqExcept {ε α : Type} [DecidableEq ε] [DecidableEq α] :
    DecidableEq (Except ε α)
  | .ok a, .ok b => decidable_of_iff (a = b) ⟨congrArg _, Except.ok.inj⟩
  | .error e, .error f => decidable_of_iff (e = f) ⟨congrArg _, Except.error.inj⟩
  | .ok _, .error _ => isFalse nofun
  | .error _, .ok _ => isFalse nofun

namespace Text

/-! ## Text as bytes -/

def isText (bs : Bytes) : Bool := (ofBytes? bs).isSome

theorem toBytes_of_ofBytes? {bs : Bytes} {s : String} (h : ofBytes? bs = some s) :
    toBytes s = bs := by
  unfold ofBytes? String.fromUTF8? at h
  split at h
  · cases h
    simp [toBytes, String.fromUTF8]
  · cases h

@[simp] theorem ofBytes?_toBytes (s : String) : ofBytes? (toBytes s) = some s := by
  have hvalid : (⟨(toBytes s).toArray⟩ : ByteArray) = s.toByteArray := by
    simp [toBytes]
  unfold ofBytes? String.fromUTF8?
  rw [dif_pos (hvalid ▸ s.isValidUTF8)]
  congr 1

@[simp] theorem toBytes_append (s t : String) : toBytes (s ++ t) = toBytes s ++ toBytes t := by
  simp [toBytes]

@[simp] theorem toBytes_empty : toBytes "" = [] := by
  simp [toBytes]

theorem isText_iff {bs : Bytes} : isText bs = true ↔ ∃ s, toBytes s = bs := by
  unfold isText
  constructor
  · intro h
    obtain ⟨s, hs⟩ := Option.isSome_iff_exists.mp h
    exact ⟨s, toBytes_of_ofBytes? hs⟩
  · rintro ⟨s, rfl⟩
    simp

@[simp] theorem isText_nil : isText [] = true := isText_iff.mpr ⟨"", toBytes_empty⟩

theorem isText_append {a b : Bytes} (ha : isText a = true) (hb : isText b = true) :
    isText (a ++ b) = true := by
  obtain ⟨s, rfl⟩ := isText_iff.mp ha
  obtain ⟨t, rfl⟩ := isText_iff.mp hb
  exact isText_iff.mpr ⟨s ++ t, toBytes_append s t⟩

/-! ## Lines -/

@[simp] theorem lines_nil : lines [] = [] := rfl

theorem lines_of_notMem {a : Bytes} (h : newline ∉ a) (ha : a ≠ []) : lines a = [a] := by
  induction a with
  | nil => exact absurd rfl ha
  | cons b a ih =>
    have hb : b ≠ newline := fun hb => h (by simp [hb])
    have hrest : newline ∉ a := fun hm => h (List.mem_cons_of_mem _ hm)
    rw [lines]
    by_cases hnil : a = []
    · rw [hnil]
      rfl
    · rw [ih hrest hnil, consLine, if_neg hb]

theorem lines_line {a : Bytes} (h : newline ∉ a) (rest : Bytes) :
    lines (a ++ newline :: rest) = (a ++ [newline]) :: lines rest := by
  induction a with
  | nil =>
    rw [List.nil_append, lines]
    cases lines rest <;> rfl
  | cons b a ih =>
    have hb : b ≠ newline := fun hb => h (by simp [hb])
    have hrest : newline ∉ a := fun hm => h (List.mem_cons_of_mem _ hm)
    rw [List.cons_append, lines, ih hrest, consLine, if_neg hb]
    rfl

/-- Induction on the lines: a last one without its end, or a first one before the others. -/
theorem lines_induction {motive : Bytes → Prop} (nil : motive [])
    (last : ∀ a, newline ∉ a → a ≠ [] → motive a)
    (line : ∀ a rest, newline ∉ a → motive rest → motive (a ++ newline :: rest)) (bs : Bytes) :
    motive bs := by
  by_cases h : newline ∈ bs
  · obtain ⟨a, rest, rfl, ha⟩ := List.eq_append_cons_of_mem h
    exact line a rest ha (lines_induction nil last line rest)
  · by_cases hnil : bs = []
    · exact hnil ▸ nil
    · exact last bs h hnil
termination_by bs.length
decreasing_by
  simp only [*, List.length_append, List.length_cons]
  omega

theorem lines_flatten (bs : Bytes) : (lines bs).flatten = bs := by
  induction bs using lines_induction with
  | nil => rfl
  | last a h ha => rw [lines_of_notMem h ha, List.flatten_singleton]
  | line a rest h ih => rw [lines_line h, List.flatten_cons, ih, List.append_assoc,
      List.singleton_append]

/-- No line goes on behind its newline. -/
theorem notMem_dropLast_of_mem_lines {bs l : Bytes} (h : l ∈ lines bs) : newline ∉ l.dropLast := by
  induction bs using lines_induction with
  | nil => cases h
  | last a ha hne =>
    rw [lines_of_notMem ha hne, List.mem_singleton] at h
    exact fun hm => ha (h ▸ (List.dropLast_sublist l).subset hm)
  | line a rest ha ih =>
    rw [lines_line ha] at h
    rcases List.mem_cons.mp h with rfl | h
    · rwa [List.dropLast_concat]
    · exact ih h

/-! ## What has ended -/

/-- The lines that have their newline. -/
def ended (bs : Bytes) : List Bytes := (lines bs).filter fun l => l.getLast? = some newline

/-- What stands behind the last newline. -/
def remainder (bs : Bytes) : Bytes := bs.rtakeWhile fun b => b ≠ newline

theorem notMem_remainder (bs : Bytes) : newline ∉ remainder bs := by
  intro h
  have := List.mem_rtakeWhile_imp h
  simp at this

@[simp] theorem ended_nil : ended [] = [] := rfl

theorem ended_of_notMem {a : Bytes} (h : newline ∉ a) : ended a = [] := by
  by_cases ha : a = []
  · rw [ha]
    rfl
  · have hlast : a.getLast? ≠ some newline := fun hl => h (List.mem_of_getLast? hl)
    rw [ended, lines_of_notMem h ha]
    simp [hlast]

theorem ended_line {a : Bytes} (h : newline ∉ a) (rest : Bytes) :
    ended (a ++ newline :: rest) = (a ++ [newline]) :: ended rest := by
  rw [ended, lines_line h, List.filter_cons_of_pos (by simp)]
  rfl

theorem remainder_of_notMem {a : Bytes} (h : newline ∉ a) : remainder a = a := by
  refine List.rtakeWhile_eq_self_iff.mpr fun b hb => ?_
  have hne : b ≠ newline := fun he => h (he ▸ hb)
  simp [hne]

@[simp] theorem remainder_nil : remainder [] = [] := rfl

theorem remainder_line (a rest : Bytes) : remainder (a ++ newline :: rest) = remainder rest := by
  induction rest using List.reverseRecOn with
  | nil => exact List.rtakeWhile_concat_neg _ _ _ (by simp)
  | append_singleton rest b ih =>
    have hassoc : a ++ newline :: (rest ++ [b]) = a ++ newline :: rest ++ [b] := by simp
    unfold remainder at ih ⊢
    rw [hassoc, List.rtakeWhile_concat, List.rtakeWhile_concat, ih]

/-- The lines of a whole, from those of its first piece and of the second one behind what the first
left open. -/
theorem ended_append (a b : Bytes) : ended (a ++ b) = ended a ++ ended (remainder a ++ b) := by
  induction a using lines_induction with
  | nil => simp
  | last a h _ => rw [ended_of_notMem h, remainder_of_notMem h, List.nil_append]
  | line a rest h ih =>
    rw [List.append_assoc, List.cons_append, ended_line h, ended_line h, remainder_line, ih,
      List.cons_append]

theorem remainder_append (a b : Bytes) : remainder (a ++ b) = remainder (remainder a ++ b) := by
  induction a using lines_induction with
  | nil => simp
  | last a h _ => rw [remainder_of_notMem h]
  | line a rest _ ih => rw [List.append_assoc, List.cons_append, remainder_line, remainder_line, ih]

/-! ## Lines of a text -/

/-- No byte of another character is a newline. -/
theorem newline_notMem_char {c : Char} (h : c ≠ '\n') : newline ∉ String.utf8EncodeChar c := by
  have hval : c.val.toNat ≠ 10 := fun hc => h (Char.ext (UInt32.toNat_inj.mp hc))
  have hten : newline.toNat = 10 := rfl
  unfold String.utf8EncodeChar
  dsimp only
  -- A byte of a longer character is 128 or more.
  split
  · simp only [List.mem_singleton, ← UInt8.toNat_inj, hten, UInt8.toNat_ofNat']
    omega
  · split
    · simp only [List.mem_cons, List.not_mem_nil, or_false, ← UInt8.toNat_inj, hten,
        UInt8.toNat_ofNat']
      omega
    · split <;>
      · simp only [List.mem_cons, List.not_mem_nil, or_false, ← UInt8.toNat_inj, hten,
          UInt8.toNat_ofNat']
        omega

theorem toBytes_ofList (cs : List Char) :
    toBytes (String.ofList cs) = cs.flatMap String.utf8EncodeChar := by
  simp [toBytes, List.utf8Encode]

/-- What stands before the first newline joins the first line. -/
theorem mem_lines_append {a bs l : Bytes} (h : newline ∉ a) (hl : l ∈ lines (a ++ bs)) :
    l ∈ lines bs ∨ l = a ∨ ∃ first ∈ lines bs, l = a ++ first := by
  by_cases ha : a = []
  · rw [ha, List.nil_append] at hl
    exact .inl hl
  induction bs using lines_induction with
  | nil =>
    rw [List.append_nil, lines_of_notMem h ha] at hl
    exact .inr (.inl (List.mem_singleton.mp hl))
  | last b hb hne =>
    have hab : newline ∉ a ++ b := fun hm => (List.mem_append.mp hm).elim h hb
    rw [lines_of_notMem hab (by simp [ha])] at hl
    rw [lines_of_notMem hb hne]
    exact .inr (.inr ⟨b, List.mem_singleton.mpr rfl, List.mem_singleton.mp hl⟩)
  | line b rest hb _ =>
    have hab : newline ∉ a ++ b := fun hm => (List.mem_append.mp hm).elim h hb
    rw [← List.append_assoc, lines_line hab] at hl
    rw [lines_line hb]
    rcases List.mem_cons.mp hl with rfl | hl
    · exact .inr (.inr ⟨b ++ [newline], List.mem_cons_self, List.append_assoc a b [newline]⟩)
    · exact .inl (List.mem_cons_of_mem _ hl)

/-- The lines of a text are texts. -/
theorem isText_of_mem_lines {bs l : Bytes} (h : isText bs = true) (hl : l ∈ lines bs) :
    isText l = true := by
  obtain ⟨s, rfl⟩ := isText_iff.mp h
  obtain ⟨cs, rfl⟩ := s.exists_eq_ofList
  rw [toBytes_ofList] at hl
  have hchar (c : Char) : isText (String.utf8EncodeChar c) = true :=
    isText_iff.mpr ⟨String.ofList [c], by rw [toBytes_ofList, List.flatMap_singleton]⟩
  induction cs generalizing l with
  | nil => cases hl
  | cons c cs ih =>
    rw [List.flatMap_cons] at hl
    have hrest (l : Bytes) (hl : l ∈ lines (cs.flatMap String.utf8EncodeChar)) :
        isText l = true := ih (isText_iff.mpr ⟨_, rfl⟩) hl
    by_cases hc : c = '\n'
    · subst hc
      have hline : lines (String.utf8EncodeChar '\n' ++ cs.flatMap String.utf8EncodeChar) =
          [newline] :: lines (cs.flatMap String.utf8EncodeChar) :=
        lines_line (List.not_mem_nil) _
      rw [hline] at hl
      rcases List.mem_cons.mp hl with rfl | hl
      · exact hchar '\n'
      · exact hrest l hl
    · rcases mem_lines_append (newline_notMem_char hc) hl with hl | rfl | ⟨first, hfirst, rfl⟩
      · exact hrest l hl
      · exact hchar c
      · exact isText_append (hchar c) (hrest first hfirst)

end Text

/-! ## Pauses -/

namespace Pause

open Text (Bytes)

/-- The pause that a line tells of. A line that is no text tells of none. -/
def pauseOf (line : Bytes) : Except Fault (Option Duration) :=
  match Text.ofBytes? line with
  | some text => ofLine text
  | none => .ok none

/-- The pauses that the lines of a log tell of, if it is read in one go. What has not ended yet is
no line. -/
def tells (bs : Bytes) : Except Fault (List Duration) := (Text.ended bs).filterMapM pauseOf

/-- The pauses of some lines come before those of the lines behind them. -/
theorem tellAll_append (l l' : List Bytes) :
    (l ++ l').filterMapM pauseOf =
      (l.filterMapM pauseOf).bind fun x => (l'.filterMapM pauseOf).map fun y => x ++ y := by
  induction l with
  | nil =>
    rw [List.nil_append, List.filterMapM_nil]
    cases l'.filterMapM pauseOf <;> rfl
  | cons a l ih =>
    rw [List.cons_append, List.filterMapM_cons, List.filterMapM_cons, ih]
    cases pauseOf a with
    | error f => rfl
    | ok pause =>
      cases pause <;> cases l.filterMapM pauseOf <;> cases l'.filterMapM pauseOf <;> rfl

/-- A log tells of the pauses of its first piece, and then of those of the second one behind what
the first left open. -/
theorem tells_append (a b : Bytes) :
    tells (a ++ b) =
      (tells a).bind fun x => (tells (Text.remainder a ++ b)).map fun y => x ++ y := by
  unfold tells
  rw [Text.ended_append, tellAll_append]

@[simp] theorem tells_of_notMem {a : Bytes} (h : Text.newline ∉ a) : tells a = .ok [] := by
  rw [tells, Text.ended_of_notMem h]
  rfl

theorem tells_line {a : Bytes} (h : Text.newline ∉ a) (rest : Bytes) :
    tells (a ++ Text.newline :: rest) =
      (pauseOf (a ++ [Text.newline])).bind fun pause =>
        (tells rest).map fun pauses => pause.toList ++ pauses := by
  rw [tells, Text.ended_line h, List.filterMapM_cons]
  cases pauseOf (a ++ [Text.newline]) with
  | error f => rfl
  | ok pause => cases pause <;> cases hr : tells rest <;> rw [tells] at hr <;> simp [hr] <;> rfl

end Pause

end Metronome
