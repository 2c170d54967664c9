-- JSON text that is printed and read again. The value comes back as it was, as
-- long as JSON has a form for all of it: a number that is given by its value,
-- a moment and a text that is not valid have none.
import Metronome.Proofs.Json.Strings

namespace Metronome

/-! ## Data with a form of its own -/

mutual

/-- Everything in the data can be told from its JSON text. -/
def Data.Plain : Data → Prop
  | .null | .bool _ | .integer _ | .fraction => True
  | .real _ | .moment => False
  | .text s => s.isSome
  | .list items => Data.PlainItems items
  | .record members => Data.PlainMembers members

def Data.PlainItems : List Data → Prop
  | [] => True
  | d :: ds => d.Plain ∧ Data.PlainItems ds

def Data.PlainMembers : List (Option String × Data) → Prop
  | [] => True
  | (name, d) :: ms => name.isSome ∧ d.Plain ∧ Data.PlainMembers ms

end

namespace Json

variable {c : Char} {cs rest : List Char} {n : Nat}

/-! ## Numbers -/

/-- A number ends here. -/
def Ends (rest : List Char) : Prop :=
  ∀ c ∈ rest.head?, c.isDigit = false ∧ c ≠ '.' ∧ c ≠ 'e' ∧ c ≠ 'E'

theorem ends_cons (h : c.isDigit = false ∧ c ≠ '.' ∧ c ≠ 'e' ∧ c ≠ 'E') : Ends (c :: rest) := by
  intro d hd
  obtain rfl := Option.some.inj hd
  exact h

theorem ends_nil : Ends [] := fun _ h => by cases h

theorem Ends.stops (h : Ends rest) : Text.Stops Char.isDigit rest := fun c hc => (h c hc).1

theorem skipTail_of_ends (h : Ends rest) : skipTail rest = some (false, rest) := by
  cases rest with
  | nil => rfl
  | cons c rest =>
    obtain ⟨-, hpoint, hsmall, hlarge⟩ := h c rfl
    simp [skipTail, hpoint, hsmall, hlarge]

theorem wholePart_magnitude (m : Int) (hrest : Ends rest) :
    wholePart (Text.Numeral.magnitude m ++ rest) = some (Text.Numeral.magnitude m, rest) := by
  obtain ⟨hne, hdigits⟩ := Text.Numeral.digits_magnitude m
  by_cases hzero : m = 0
  · subst hzero
    rfl
  · unfold wholePart
    split
    · rename_i r heq
      refine absurd (Text.Numeral.head_magnitude ?_) hzero
      rw [← List.head?_append_of_ne_nil _ hne, heq]
      rfl
    · simp only [Text.takeWhile_run hdigits hrest.stops, Text.dropWhile_run hdigits hrest.stops]
      rw [if_neg hne]

/-- The sign of a number and the text behind it. -/
def sign : List Char → Bool × List Char
  | '-' :: r => (true, r)
  | r => (false, r)

theorem number_eq (cs : List Char) :
    number cs = (wholePart (sign cs).2).bind fun w => (skipTail w.2).bind fun t =>
      if t.1 ∨ ((sign cs).1 ∧ Text.Numeral.ofDigits w.1 = 0) then some (.fraction, t.2)
      else some (.integer (if (sign cs).1 then -Text.Numeral.ofDigits w.1
        else Text.Numeral.ofDigits w.1), t.2) := rfl

theorem sign_of_digits (h : Text.Numeral.Digits cs) : sign (cs ++ rest) = (false, cs ++ rest) := by
  obtain ⟨c, cs, rfl⟩ := List.exists_cons_of_ne_nil h.1
  have hc : c ≠ '-' := by
    rintro rfl
    exact absurd (h.2 '-' List.mem_cons_self) (by decide)
  unfold sign
  split
  · rename_i heq
    exact absurd (List.cons.inj heq).1 hc
  · rfl

/-- A printed whole number is read again, unless a number goes on behind it. -/
theorem number_integer (m : Int) (hrest : Ends rest) :
    number ((toString m).toList ++ rest) = some (.integer m, rest) := by
  have hwhole := wholePart_magnitude m hrest
  have htail := skipTail_of_ends hrest
  have hvalue := Text.Numeral.natAbs_signed m
  have hsign : sign ((toString m).toList ++ rest) =
      (decide (m < 0), Text.Numeral.magnitude m ++ rest) := by
    rw [Text.Numeral.toList_toString, List.append_assoc]
    by_cases hneg : m < 0
    · simp [hneg, sign]
    · rw [if_neg hneg, List.nil_append, sign_of_digits (Text.Numeral.digits_magnitude m),
        decide_eq_false hneg]
  have hzero : ¬ (false = true ∨ (decide (m < 0) = true ∧ m.natAbs = 0)) := by
    rintro (h | ⟨hneg, hnone⟩)
    · cases h
    · have hneg := of_decide_eq_true hneg
      omega
  rw [number_eq, hsign, hwhole, Option.bind_some, htail, Option.bind_some,
    Text.Numeral.ofDigits_magnitude, if_neg hzero]
  simp only [decide_eq_true_eq, hvalue]

theorem number_fraction (hrest : Ends rest) :
    number ("0.0".toList ++ rest) = some (.fraction, rest) := by
  have htail : skipTail ('.' :: '0' :: rest) = some (true, rest) := by
    cases rest with
    | nil => rfl
    | cons c rest =>
      obtain ⟨hdigit, -, hsmall, hlarge⟩ := hrest c rfl
      have hdigits : (c :: rest).dropWhile Char.isDigit = c :: rest :=
        List.dropWhile_cons_of_neg (by simp [hdigit])
      simp [skipTail, skipDigits, hdigits, hsmall, hlarge]
  rw [number_eq]
  change (skipTail ('.' :: '0' :: rest)).bind _ = _
  rw [htail]
  rfl

/-! ## Printed values -/

/-- The text of some printed values, with commas between them. -/
def commaed (texts : List String) : List Char := [','].intercalate (texts.map String.toList)

theorem commaed_one (s : String) : commaed [s] = s.toList := by simp [commaed]

theorem commaed_more (s t : String) (texts : List String) :
    commaed (s :: t :: texts) = s.toList ++ ',' :: commaed (t :: texts) := by
  simp [commaed]

theorem toList_print_list (ds : List Data) :
    (print (.list ds)).toList = '[' :: (commaed (printItems ds) ++ [']']) := by
  rw [print, String.toList_append, String.toList_append, String.toList_intercalate]
  rfl

theorem toList_print_record (ms : List (Option String × Data)) :
    (print (.record ms)).toList = '\x7b' :: (commaed (printMembers ms) ++ ['\x7d']) := by
  rw [print, String.toList_append, String.toList_append, String.toList_intercalate]
  rfl

/-- A text that begins with a printed value begins as the value does. -/
theorem head_commaed {s : String} (h : s.toList = c :: cs) (texts : List String) :
    ∃ cs, commaed (s :: texts) = c :: cs := by
  cases texts with
  | nil => exact ⟨cs, (commaed_one s).trans h⟩
  | cons t texts =>
    rw [commaed_more, h]
    exact ⟨_, rfl⟩

theorem toList_print_text (s : String) :
    (print (.text (some s))).toList = '\x22' :: (s.toList.flatMap escape ++ ['\x22']) :=
  toList_quoted s

theorem toList_member (name : String) (d : Data) :
    (quotedText (some name) ++ ":" ++ print d).toList =
      '\x22' :: (name.toList.flatMap escape ++ '\x22' :: ':' :: (print d).toList) := by
  rw [String.toList_append, String.toList_append, quotedText, Option.getD_some, toList_quoted]
  simp

theorem isBlank_of_number (h : c.isDigit = true ∨ c = '-') : isBlank c = false := by
  have hne {d : Char} := Text.Numeral.ne_of_number (d := d) h
  simp [isBlank, hne (d := ' ') (by decide) (by decide), hne (d := '\n') (by decide) (by decide),
    hne (d := '\t') (by decide) (by decide), hne (d := '\r') (by decide) (by decide)]

theorem head_members {m : Option String × Data} {ms : List (Option String × Data)}
    (h : Data.PlainMembers (m :: ms)) : ∃ cs, commaed (printMembers (m :: ms)) = '\x22' :: cs := by
  obtain ⟨name, hname⟩ := Option.isSome_iff_exists.mp h.1
  obtain ⟨_, d⟩ := m
  subst hname
  exact head_commaed (toList_member name d) (printMembers ms)

/-- No printed value begins with white space or looks like the end of a list. -/
theorem head_print {d : Data} (h : d.Plain) :
    ∃ c cs, (print d).toList = c :: cs ∧ isBlank c = false ∧ c ≠ ']' := by
  cases d with
  | null => exact ⟨'n', _, rfl, by decide, by decide⟩
  | bool b => cases b <;> exact ⟨_, _, rfl, by decide, by decide⟩
  | integer m =>
    obtain ⟨c, cs, hcs, hc⟩ := Text.Numeral.head_toString m
    exact ⟨c, cs, hcs, isBlank_of_number hc,
      Text.Numeral.ne_of_number hc (by decide) (by decide)⟩
  | fraction => exact ⟨'0', _, rfl, by decide, by decide⟩
  | real x => cases h
  | moment => cases h
  | text s =>
    obtain ⟨s, rfl⟩ := Option.isSome_iff_exists.mp h
    exact ⟨_, _, toList_print_text s, by decide, by decide⟩
  | list ds => exact ⟨_, _, toList_print_list ds, by decide, by decide⟩
  | record ms => exact ⟨_, _, toList_print_record ms, by decide, by decide⟩

theorem skipBlank_cons (h : isBlank c = false) (cs : List Char) :
    skipBlank (c :: cs) = c :: cs := by
  rw [skipBlank, List.dropWhile_cons_of_neg (by simp [h])]

/-! ## Reading what was printed -/

/-- What begins with a digit or a minus is read as a number. -/
theorem value_number (h : c.isDigit = true ∨ c = '-') (n : Nat) (cs : List Char) :
    value (n + 1) (c :: cs) = number (c :: cs) := by
  rw [value, skipBlank_cons (isBlank_of_number h)]
  split
  case h_7 => rfl
  all_goals
    rename_i heq
    exact absurd (List.cons.inj heq).1 (Text.Numeral.ne_of_number h (by decide) (by decide))

theorem value_text (s : String) (n : Nat) (rest : List Char) :
    value (n + 1) ('\x22' :: (s.toList.flatMap escape ++ '\x22' :: rest)) =
      some (.text (some s), rest) := by
  change (string (s.toList.flatMap escape ++ '\x22' :: rest)).map _ = _
  rw [string_text]
  rfl

/-- A list with a first item is read item by item. -/
theorem value_list (hblank : isBlank c = false) (hc : c ≠ ']') (n : Nat) (cs : List Char) :
    value (n + 1) ('[' :: c :: cs) = (items n (c :: cs)).map fun l => (.list l.1, l.2) := by
  have hopen : skipBlank ('[' :: c :: cs) = '[' :: c :: cs := rfl
  have hskip := skipBlank_cons hblank cs
  simp only [value, hopen, hskip]
  split
  · rename_i heq
    exact absurd (List.cons.inj heq).1 hc
  · rfl

/-- A record with a first member is read member by member. -/
theorem value_record (n : Nat) (cs : List Char) :
    value (n + 1) ('\x7b' :: '\x22' :: cs) =
      (members n ('\x22' :: cs)).map fun l => (.record l.1, l.2) := rfl

/-- A member is read by its name and its value, and the closing brace ends the record. -/
theorem members_last {name : String} {d : Data} {more : List Char}
    (hvalue : value n rest = some (d, '\x7d' :: more)) :
    members (n + 1) ('\x22' :: (name.toList.flatMap escape ++ '\x22' :: ':' :: rest)) =
      some ([(some name, d)], more) := by
  have hquote (cs : List Char) : skipBlank ('\x22' :: cs) = '\x22' :: cs := rfl
  have hcolon (cs : List Char) : skipBlank (':' :: cs) = ':' :: cs := rfl
  have hbrace : skipBlank ('\x7d' :: more) = '\x7d' :: more := rfl
  simp only [members, hquote, string_text, hcolon, hvalue, hbrace]

/-- Behind a comma there are more. -/
theorem members_more {name : String} {d : Data} {more : List Char}
    (hvalue : value n rest = some (d, ',' :: more)) :
    members (n + 1) ('\x22' :: (name.toList.flatMap escape ++ '\x22' :: ':' :: rest)) =
      (members n more).map fun l => ((some name, d) :: l.1, l.2) := by
  have hquote (cs : List Char) : skipBlank ('\x22' :: cs) = '\x22' :: cs := rfl
  have hcolon (cs : List Char) : skipBlank (':' :: cs) = ':' :: cs := rfl
  have hcomma : skipBlank (',' :: more) = ',' :: more := rfl
  simp only [members, hquote, string_text, hcolon, hvalue, hcomma]

mutual

/-- A printed value is read again, unless a number goes on behind it. -/
theorem value_print (d : Data) (n : Nat) (rest : List Char) (h : d.Plain)
    (hn : (print d).toList.length < n) (hrest : Ends rest) :
    value n ((print d).toList ++ rest) = some (d, rest) := by
  obtain ⟨n, rfl⟩ := Nat.exists_eq_succ_of_ne_zero (Nat.ne_zero_of_lt hn)
  cases d with
  | null => rfl
  | bool b => cases b <;> rfl
  | integer m =>
    obtain ⟨c, cs, hcs, hc⟩ := Text.Numeral.head_toString m
    have hnumber := number_integer m hrest
    rw [print, hcs, List.cons_append, value_number hc, ← List.cons_append, ← hcs, hnumber]
  | fraction => exact (value_number (.inl rfl) n _).trans (number_fraction hrest)
  | real x => cases h
  | moment => cases h
  | text s =>
    obtain ⟨s, rfl⟩ := Option.isSome_iff_exists.mp h
    have htext := value_text s n rest
    rw [toList_print_text, List.cons_append, List.append_assoc]
    exact htext
  | list ds =>
    cases ds with
    | nil => rfl
    | cons d ds =>
      rw [toList_print_list] at hn ⊢
      simp only [List.length_cons, List.length_append, List.length_nil] at hn
      have hitems := items_print d ds n rest h (by omega)
      obtain ⟨c, cs, hcs, hblank, hc⟩ := head_print h.1
      obtain ⟨cs, htext⟩ := head_commaed hcs (printItems ds)
      rw [← printItems] at htext
      rw [htext] at hitems ⊢
      rw [List.cons_append, List.append_assoc, List.cons_append, value_list hblank hc]
      exact congrArg (Option.map _) hitems
  | record ms =>
    cases ms with
    | nil => rfl
    | cons m ms =>
      rw [toList_print_record] at hn ⊢
      simp only [List.length_cons, List.length_append, List.length_nil] at hn
      have hmembers := members_print m ms n rest h (by omega)
      obtain ⟨cs, htext⟩ := head_members h
      rw [htext] at hmembers ⊢
      rw [List.cons_append, List.append_assoc, List.cons_append, value_record]
      exact congrArg (Option.map _) hmembers
termination_by n

theorem items_print (d : Data) (ds : List Data) (n : Nat) (rest : List Char)
    (h : Data.PlainItems (d :: ds)) (hn : (commaed (printItems (d :: ds))).length + 1 < n) :
    items n (commaed (printItems (d :: ds)) ++ ']' :: rest) = some (d :: ds, rest) := by
  obtain ⟨n, rfl⟩ := Nat.exists_eq_succ_of_ne_zero (Nat.ne_zero_of_lt hn)
  cases ds with
  | nil =>
    rw [printItems, printItems, commaed_one] at hn ⊢
    have hvalue := value_print d n (']' :: rest) h.1 (by omega) (ends_cons (by decide))
    rw [items, hvalue]
    rfl
  | cons e ds =>
    rw [printItems, printItems, commaed_more, ← printItems] at hn ⊢
    rw [List.length_append, List.length_cons] at hn
    have hvalue := value_print d n (',' :: (commaed (printItems (e :: ds)) ++ ']' :: rest)) h.1
      (by omega) (ends_cons (by decide))
    have hitems := items_print e ds n rest h.2 (by omega)
    rw [List.append_assoc, List.cons_append, items, hvalue]
    change (items n _).map _ = _
    rw [hitems]
    rfl
termination_by n

theorem members_print (m : Option String × Data) (ms : List (Option String × Data)) (n : Nat)
    (rest : List Char) (h : Data.PlainMembers (m :: ms))
    (hn : (commaed (printMembers (m :: ms))).length + 1 < n) :
    members n (commaed (printMembers (m :: ms)) ++ '\x7d' :: rest) = some (m :: ms, rest) := by
  obtain ⟨n, rfl⟩ := Nat.exists_eq_succ_of_ne_zero (Nat.ne_zero_of_lt hn)
  obtain ⟨name, d⟩ := m
  obtain ⟨hname, hd, hms⟩ := h
  obtain ⟨name, rfl⟩ := Option.isSome_iff_exists.mp hname
  cases ms with
  | nil =>
    rw [printMembers, printMembers, commaed_one, toList_member] at hn ⊢
    simp only [List.length_cons, List.length_append] at hn
    have hvalue := value_print d n ('\x7d' :: rest) hd (by omega) (ends_cons (by decide))
    rw [List.cons_append, List.append_assoc, List.cons_append, List.cons_append,
      members_last hvalue]
  | cons m ms =>
    obtain ⟨key, e⟩ := m
    rw [printMembers, printMembers, commaed_more, ← printMembers, toList_member] at hn ⊢
    simp only [List.length_cons, List.length_append] at hn
    have hvalue := value_print d n
      (',' :: (commaed (printMembers ((key, e) :: ms)) ++ '\x7d' :: rest)) hd (by omega)
      (ends_cons (by decide))
    have hmembers := members_print (key, e) ms n rest hms (by omega)
    simp only [List.cons_append, List.append_assoc]
    rw [members_more hvalue, hmembers]
    rfl
termination_by n

end

/-- Data that is printed as a whole text is read again. -/
theorem read?_print {d : Data} (h : d.Plain) : read? (print d) = some d := by
  have hvalue := value_print d (2 * (print d).toList.length + 1) [] h (by omega) ends_nil
  rw [List.append_nil] at hvalue
  rw [read?]
  simp only [hvalue]
  rfl

end Json

end Metronome
