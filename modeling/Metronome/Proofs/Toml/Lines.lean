-- The lines of a settings file: a name with a value on one line, or the name of
-- a table between brackets. Each is read as the statement that was written.
import Metronome.Toml.Printer
import Metronome.Toml.Reader
import Metronome.Proofs.Toml.Strings

namespace Metronome.Toml

variable {c : Char} {cs more : List Char} {d : Data} {text : List Char}

theorem ne_of_apply {p : Char → Bool} {e : Char} (hc : p c = true) (he : p e = false) : c ≠ e := by
  rintro rfl
  rw [hc] at he
  cases he

/-! ## Words -/

/-- A value that is one word ends with the line. -/
theorem scalar?_word (hword : ∀ c ∈ cs, isWordChar c = true) (hd : ofWord? cs = some d)
    (hdate : isDate cs = false) (more : List Char) :
    scalar? (cs ++ '\n' :: more) = some (d, '\n' :: more) := by
  have hstops : Text.Stops isWordChar ('\n' :: more) := Text.stops_cons (by decide)
  rw [scalar?, Text.takeWhile_run hword hstops, Text.dropWhile_run hword hstops]
  simp [hd, hdate]

/-- No date without a minus behind its first character. -/
theorem date?_eq_none (h : '-' ∉ cs.tail) : date? cs = none := by
  unfold date?
  split
  · rename_i a b c d cs
    have hmark : mark? '-' cs = none := by
      cases cs with
      | nil => rfl
      | cons e cs =>
        have he : e ≠ '-' := by
          rintro rfl
          simp at h
        exact if_neg he
    simp [hmark]
  · rfl

/-! ## Whole numbers -/

theorem digits?_of_digits (hne : cs ≠ []) (h : ∀ c ∈ cs, c.isDigit = true) :
    digits? Char.isDigit cs = some cs := by
  induction cs with
  | nil => exact absurd rfl hne
  | cons c cs ih =>
    obtain ⟨hc, hcs⟩ := List.forall_mem_cons.mp h
    cases cs with
    | nil => rw [digits?, if_pos hc]
    | cons e cs =>
      have he : e ≠ '_' := by
        rintro rfl
        exact absurd (hcs '_' List.mem_cons_self) (by decide)
      rw [digits?, if_pos hc, ih (List.cons_ne_nil e cs) hcs]
      · rfl
      · exact nofun
      · rintro _ heq
        exact he (List.cons.inj heq).1

theorem wholeDigits?_magnitude (n : Int) :
    wholeDigits? (Text.Numeral.magnitude n) = some (Text.Numeral.magnitude n) := by
  obtain ⟨hne, hdigits⟩ := Text.Numeral.digits_magnitude n
  have hzero : ¬ ((Text.Numeral.magnitude n).head? = some '0' ∧
      Text.Numeral.magnitude n ≠ ['0']) := by
    rintro ⟨hhead, hlong⟩
    rw [Text.Numeral.head_magnitude hhead] at hlong
    exact hlong rfl
  rw [wholeDigits?, digits?_of_digits hne hdigits]
  simp only [Option.bind_eq_bind, Option.bind_some, if_neg hzero]

theorem minus_not_mem_tail (n : Int) : '-' ∉ (toString n).toList.tail := by
  have hno : '-' ∉ Text.Numeral.magnitude n := fun h =>
    absurd ((Text.Numeral.digits_magnitude n).2 '-' h) (by decide)
  rw [Text.Numeral.toList_toString]
  by_cases h : n < 0
  · rwa [if_pos h]
  · rw [if_neg h]
    exact fun hin => hno (List.mem_of_mem_tail hin)

theorem whole?_toString (n : Int) : whole? (toString n).toList = some n := by
  have hletter {c : Char} (h : c.isDigit = false) (hc : c ≠ '-') : c ∉ (toString n).toList :=
    fun hin => Text.Numeral.ne_of_number (Text.Numeral.mem_toString hin) h hc rfl
  have hsigned := Text.Numeral.signed_toString n
  have hvalue := Text.Numeral.natAbs_signed n
  generalize (toString n).toList = cs at hletter hsigned
  unfold whole?
  split
  · exact absurd (by simp) (hletter (c := 'x') (by decide) (by decide))
  · exact absurd (by simp) (hletter (c := 'o') (by decide) (by decide))
  · exact absurd (by simp) (hletter (c := 'b') (by decide) (by decide))
  · simp only [hsigned, wholeDigits?_magnitude, Option.map_some, Text.Numeral.ofDigits_magnitude,
      decide_eq_true_eq, hvalue]

theorem ofWord?_integer {n : Int} (h : Signed.Fits n) :
    ofWord? (toString n).toList = some (.integer n) := by
  obtain ⟨c, cs, hcs, hc⟩ := Text.Numeral.head_toString n
  have hname (word : String) (e : Char) (es : List Char) (hword : word.toList = e :: es)
      (he : e.isDigit = false) (hminus : e ≠ '-') : (toString n).toList ≠ word.toList := by
    rw [hcs, hword]
    exact fun heq => Text.Numeral.ne_of_number hc he hminus (List.cons.inj heq).1
  rw [ofWord?, if_neg (hname "true" 't' _ rfl (by decide) (by decide)),
    if_neg (hname "false" 'f' _ rfl (by decide) (by decide)), whole?_toString]
  exact if_pos h

theorem isWordChar_of_number (h : c.isDigit = true ∨ c = '-') : isWordChar c = true := by
  rcases h with h | rfl
  · simp [isWordChar, Char.isAlphanum, h]
  · decide

/-! ## Values -/

theorem value?_string (hc : c = '\x22' ∨ c = '\'') (n depth : Nat) (cs : List Char) :
    value? (n + 1) depth (c :: cs) = (string? (c :: cs)).map fun r => (.string r.1, r.2) := by
  rcases hc with rfl | rfl <;> rfl

theorem value?_word (hc : isWordChar c = true) (n depth : Nat) (cs : List Char) :
    value? (n + 1) depth (c :: cs) = scalar? (c :: cs) := by
  rw [value?, if_neg (not_or.mpr ⟨ne_of_apply hc rfl, ne_of_apply hc rfl⟩)]
  · exact ne_of_apply hc rfl
  · exact ne_of_apply hc rfl

theorem isBlank_of_isWordChar (hc : isWordChar c = true) : isBlank c = false := by
  have hspace : c ≠ ' ' := ne_of_apply hc (by decide)
  have htab : c ≠ '\t' := ne_of_apply hc (by decide)
  simp [isBlank, hspace, htab]

/-- What a value is written as begins neither with a blank nor with a line break. -/
theorem head_scalarText? (h : scalarText? d = some text) :
    ∃ c cs, text = c :: cs ∧ isBlank c = false := by
  unfold scalarText? at h
  split at h
  · obtain rfl := Option.some.inj h
    split
    · exact ⟨'t', _, rfl, by decide⟩
    · exact ⟨'f', _, rfl, by decide⟩
  · split at h
    · obtain rfl := Option.some.inj h
      obtain ⟨c, cs, hcs, hc⟩ := Text.Numeral.head_toString ‹Int›
      exact ⟨c, cs, hcs, isBlank_of_isWordChar (isWordChar_of_number hc)⟩
    · cases h
  · obtain rfl := Option.some.inj h
    obtain ⟨q, tail, hquote, hq⟩ := head_quote ‹String›
    exact ⟨q, tail, hquote, by rcases hq with rfl | rfl <;> decide⟩
  · cases h

/-- A value that is written on one line is read again. -/
theorem value?_scalarText? (h : scalarText? d = some text) (n depth : Nat) (more : List Char) :
    value? (n + 1) depth (text ++ '\n' :: more) = some (d, '\n' :: more) := by
  unfold scalarText? at h
  split at h
  · rename_i b
    obtain rfl := Option.some.inj h
    cases b <;> rfl
  · rename_i m
    split at h
    · rename_i hfits
      obtain rfl := Option.some.inj h
      obtain ⟨c, cs, hcs, hc⟩ := Text.Numeral.head_toString m
      have hword : ∀ c ∈ (toString m).toList, isWordChar c = true :=
        fun c hc => isWordChar_of_number (Text.Numeral.mem_toString hc)
      have hdate : isDate (toString m).toList = false := by
        rw [isDate, date?_eq_none (minus_not_mem_tail m)]
        rfl
      have hscalar := scalar?_word hword (ofWord?_integer hfits) hdate more
      rw [hcs] at hscalar ⊢
      exact (value?_word (isWordChar_of_number hc) n depth _).trans hscalar
    · cases h
  · rename_i s
    obtain rfl := Option.some.inj h
    obtain ⟨q, tail, hquote, hq⟩ := head_quote s
    have hparted {q : Char} (hq : '\n' ≠ q) : Parted q ('\n' :: more) :=
      fun heq => hq (Option.some.inj heq)
    have hstring := string?_quote s (hparted (q := '\x22') (by decide)) (hparted (by decide))
    rw [hquote] at hstring ⊢
    rw [List.cons_append, value?_string hq, ← List.cons_append, hstring]
    rfl
  · cases h

/-! ## Names -/

/-- A name that needs no quotes. -/
def Bare (name : String) : Prop := name.toList ≠ [] ∧ name.toList.all isKeyChar = true

instance (name : String) : Decidable (Bare name) := inferInstanceAs (Decidable (_ ∧ _))

variable {name : String}

theorem Bare.forall_mem (h : Bare name) : ∀ c ∈ name.toList, isKeyChar c = true :=
  List.all_eq_true.mp h.2

theorem Bare.head (h : Bare name) : ∃ c cs, name.toList = c :: cs ∧ isKeyChar c = true := by
  obtain ⟨c, cs, hcs⟩ := List.exists_cons_of_ne_nil h.1
  exact ⟨c, cs, hcs, h.forall_mem c (hcs ▸ List.mem_cons_self)⟩

theorem skipBlank_cons (h : isBlank c = false) (cs : List Char) :
    skipBlank (c :: cs) = c :: cs := by
  rw [skipBlank, List.dropWhile_cons_of_neg (by simp [h])]

theorem isBlank_of_isKeyChar (hc : isKeyChar c = true) : isBlank c = false := by
  have hspace : c ≠ ' ' := ne_of_apply hc (by decide)
  have htab : c ≠ '\t' := ne_of_apply hc (by decide)
  simp [isBlank, hspace, htab]

theorem key?_bare (h : Bare name) (more : List Char) (hstops : Text.Stops isKeyChar more)
    (hpoint : (skipBlank more).head? ≠ some '.') :
    key? (name.toList ++ more) = some (⟨[], name⟩, skipBlank more) := by
  obtain ⟨c, cs, hcs, hc⟩ := h.head
  have hskip : skipBlank (name.toList ++ more) = name.toList ++ more := by
    rw [hcs]
    exact skipBlank_cons (isBlank_of_isKeyChar hc) _
  have hquoted : quotedKey? (name.toList ++ more) = none := by
    rw [hcs, List.cons_append, quotedKey?]
    · rintro _ heq
      exact ne_of_apply hc (by decide) (List.cons.inj heq).1
    · rintro _ heq
      exact ne_of_apply hc (by decide) (List.cons.inj heq).1
  have hpart : part? (name.toList ++ more) = some (name, more) := by
    rw [part?, hquoted, Text.takeWhile_run h.forall_mem hstops,
      Text.dropWhile_run h.forall_mem hstops]
    simp [h.1]
  have hparts : parts? deepest (name.toList ++ more) = some ([name], skipBlank more) := by
    rw [deepest, parts?, hskip, hpart]
    simp only [Option.bind_eq_bind, Option.bind_some]
    split
    · rename_i heq
      rw [heq] at hpoint
      exact absurd rfl hpoint
    · rfl
  rw [key?, hparts]
  rfl

/-! ## Statements -/

/-- A value under a name, read up to the next line. -/
theorem assignment?_line (h : Bare name) (hd : scalarText? d = some text) (more : List Char) :
    assignment? (name.toList ++ " = ".toList ++ text ++ ['\n'] ++ more) =
      some (.value ⟨[], name⟩ d, more) := by
  obtain ⟨c, cs, hcs, hc⟩ := head_scalarText? hd
  have hkey := key?_bare h (" = ".toList ++ (text ++ '\n' :: more)) (Text.stops_cons (by decide))
    nofun
  have hskip : skipBlank (' ' :: (text ++ '\n' :: more)) = text ++ '\n' :: more := by
    rw [hcs]
    exact skipBlank_cons hc _
  have hequals : skipBlank (" = ".toList ++ (text ++ '\n' :: more)) =
      '=' :: ' ' :: (text ++ '\n' :: more) := rfl
  have hexpect (cs : List Char) : expect? '=' ('=' :: cs) = some cs := rfl
  have hnext : nextLine? ('\n' :: more) = some more := rfl
  simp only [List.append_assoc, List.singleton_append]
  rw [assignment?, hkey, hequals]
  simp only [Option.bind_eq_bind, Option.bind_some, hexpect, hskip,
    value?_scalarText? hd, hnext]

/-- The header of a table, read up to the next line. -/
theorem header?_table (h : Bare name) (more : List Char) :
    header? (name.toList ++ [']', '\n'] ++ more) = some (.header ⟨[], name⟩, more) := by
  obtain ⟨c, cs, hcs, hc⟩ := h.head
  have hkey := key?_bare h ([']', '\n'] ++ more) (Text.stops_cons (by decide)) nofun
  have hclosing : skipBlank ([']', '\n'] ++ more) = ']' :: '\n' :: more := rfl
  have hexpect (cs : List Char) : expect? ']' (']' :: cs) = some cs := rfl
  have hnext : nextLine? ('\n' :: more) = some more := rfl
  have hne : c ≠ '[' := ne_of_apply hc (by decide)
  rw [List.append_assoc, header?]
  · rw [hkey, hclosing]
    simp only [Option.bind_eq_bind, Option.bind_some, hexpect, hnext]
  · rintro _ heq
    rw [hcs] at heq
    exact hne (List.cons.inj heq).1

theorem skipGap_bare (hc : isKeyChar c = true) (cs : List Char) :
    skipGap false (c :: cs) = c :: cs := by
  have hline : c ≠ '\n' := ne_of_apply hc (by decide)
  have hhash : c ≠ '#' := ne_of_apply hc (by decide)
  simp [skipGap, hline, hhash, isBlank_of_isKeyChar hc]

theorem statements?_line (h : Bare name) (hd : scalarText? d = some text) (n : Nat)
    (more : List Char) :
    statements? (n + 1) (name.toList ++ " = ".toList ++ text ++ ['\n'] ++ more) =
      (statements? n more).map (.value ⟨[], name⟩ d :: ·) := by
  obtain ⟨c, cs, hcs, hc⟩ := h.head
  have hne : c ≠ '[' := ne_of_apply hc (by decide)
  have hline := assignment?_line h hd more
  rw [hcs] at hline ⊢
  rw [statements?]
  simp only [List.cons_append, skipGap_bare hc] at hline ⊢
  split
  · rename_i heq
    cases heq
  · rename_i heq
    exact absurd (List.cons.inj heq).1 hne
  · rw [hline]
    rfl

theorem statements?_header (h : Bare name) (n : Nat) (more : List Char) :
    statements? (n + 1) (['\n', '['] ++ name.toList ++ [']', '\n'] ++ more) =
      (statements? n more).map (.header ⟨[], name⟩ :: ·) := by
  have hheader := header?_table h more
  have hgap (cs : List Char) : skipGap false ('\n' :: '[' :: cs) = '[' :: cs := rfl
  simp only [List.append_assoc] at hheader ⊢
  simp only [List.cons_append, List.nil_append, statements?, hgap] at hheader ⊢
  simp only [hheader, Option.bind_eq_bind, Option.bind_some]

end Metronome.Toml
