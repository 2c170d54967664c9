-- The grammar of numerals. A reader of numerals looks for one part after the
-- other. Here a numeral is a text that its parts make up, and what is read is
-- exactly that.
import Metronome.Text.Numeral
import Metronome.Proofs.Words
import Mathlib.Algebra.Group.Nat.Defs

namespace Metronome.Text

namespace Numeral

/-! ## The grammar -/

/-- A row of digits, at least one. -/
def Digits (cs : List Char) : Prop := cs ≠ [] ∧ ∀ c ∈ cs, c.isDigit = true

/-- An optional sign. -/
inductive Sign : List Char → Bool → Prop where
  | none : Sign [] false
  | plus : Sign ['+'] false
  | minus : Sign ['-'] true

/-- An optional exponent, with an optional sign of its own. -/
inductive Exponent : List Char → Int → Prop where
  | none : Exponent [] 0
  | power {letter : Char} {sign digits : List Char} {negative : Bool}
      (mark : letter = 'e' ∨ letter = 'E') (signed : Sign sign negative) (row : Digits digits) :
      Exponent (letter :: (sign ++ digits))
        (if negative then -(ofDigits digits : Int) else ofDigits digits)

/-- Digits with or without a point among them, what number they write without the point, and how
many of them stand behind it. -/
inductive Mantissa : List Char → Nat → Nat → Prop where
  | whole {digits : List Char} (row : Digits digits) : Mantissa digits (ofDigits digits) 0
  | point {before behind : List Char} (row : Digits (before ++ behind)) :
      Mantissa (before ++ '.' :: behind) (ofDigits (before ++ behind)) behind.length

/-- The names of what is infinite, in either case. -/
def NamesInfinity (word : List Char) : Prop :=
  word.map Char.toLower = "inf".toList ∨ word.map Char.toLower = "infinity".toList

/-- The name of what is no number, in either case. -/
def NamesNoNumber (word : List Char) : Prop := word.map Char.toLower = "nan".toList

instance (word : List Char) : Decidable (NamesInfinity word) := inferInstanceAs (Decidable (_ ∨ _))

instance (word : List Char) : Decidable (NamesNoNumber word) := inferInstanceAs (Decidable (_ = _))

/-- The texts that are numerals, and what they stand for. -/
inductive Literal : List Char → Numeral → Prop where
  | decimal {sign mantissa exponent : List Char} {negative : Bool} {digits places : Nat} {e : Int}
      (signed : Sign sign negative) (number : Mantissa mantissa digits places)
      (power : Exponent exponent e) :
      Literal (sign ++ mantissa ++ exponent) (.decimal negative digits (e - places))
  | infinite {sign word : List Char} {negative : Bool} (signed : Sign sign negative)
      (named : NamesInfinity word) : Literal (sign ++ word) (.infinite negative)
  | notANumber {sign word : List Char} {negative : Bool} (signed : Sign sign negative)
      (named : NamesNoNumber word) : Literal (sign ++ word) .notANumber

/-! ## Signs and exponents -/

variable {cs sign body digits mantissa exponent : List Char} {negative : Bool} {n places : Nat}
  {e : Int} {numeral : Numeral}

/-- The text does not begin with a sign. -/
def Signless (cs : List Char) : Prop := ∀ c ∈ cs.head?, c ≠ '+' ∧ c ≠ '-'

theorem signed_of_signless (h : Signless cs) : signed cs = (false, cs) := by
  unfold signed
  split
  · exact absurd rfl (h '-' rfl).2
  · exact absurd rfl (h '+' rfl).1
  · rfl

theorem Sign.signed_eq (h : Sign sign negative) (hbody : Signless body) :
    signed (sign ++ body) = (negative, body) := by
  cases h with
  | none => exact signed_of_signless hbody
  | plus => rfl
  | minus => rfl

theorem sign_of_signed (h : signed cs = (negative, body)) :
    ∃ sign, Sign sign negative ∧ cs = sign ++ body := by
  unfold signed at h
  split at h
  · obtain ⟨rfl, rfl⟩ := Prod.mk.inj h
    exact ⟨_, .minus, rfl⟩
  · obtain ⟨rfl, rfl⟩ := Prod.mk.inj h
    exact ⟨_, .plus, rfl⟩
  · obtain ⟨rfl, rfl⟩ := Prod.mk.inj h
    exact ⟨_, .none, rfl⟩

theorem signless_of_digit (h : ∀ c ∈ cs.head?, c.isDigit = true) : Signless cs := by
  intro c hc
  have hdigit := h c hc
  constructor <;> rintro rfl <;> exact absurd hdigit (by decide)

theorem Digits.signless (h : Digits cs) : Signless cs :=
  signless_of_digit fun c hc => h.2 c (List.mem_of_mem_head? hc)

theorem digits_iff : (cs ≠ [] ∧ cs.all Char.isDigit = true) ↔ Digits cs := by
  rw [List.all_eq_true, Digits]

theorem exponent?_eq_some_iff : exponent? cs = some e ↔ Exponent cs e := by
  constructor
  · intro h
    unfold exponent? at h
    split at h
    · obtain rfl := Option.some.inj h
      exact .none
    · rename_i letter rest
      rcases hsigned : signed rest with ⟨negative, digits⟩
      obtain ⟨sign, hsign, rfl⟩ := sign_of_signed hsigned
      rw [hsigned] at h
      dsimp only at h
      split at h
      · rename_i hletter
        split at h
        · rename_i hdigits
          obtain rfl := Option.some.inj h
          exact .power hletter hsign (digits_iff.mp hdigits)
        · cases h
      · cases h
  · rintro (_ | ⟨hletter, hsign, hdigits⟩)
    · rfl
    · rw [exponent?, if_pos hletter, hsign.signed_eq hdigits.signless]
      exact if_pos (digits_iff.mpr hdigits)

/-- No exponent begins with a digit or a point. -/
theorem Exponent.stops (h : Exponent exponent e) :
    Stops Char.isDigit exponent ∧ ∀ c ∈ exponent.head?, c ≠ '.' := by
  cases h with
  | none => exact ⟨stops_nil, fun c hc => by cases hc⟩
  | power mark _ _ =>
    refine ⟨stops_cons ?_, fun c hc => ?_⟩
    · rcases mark with rfl | rfl <;> decide
    · obtain rfl := Option.some.inj hc
      rcases mark with rfl | rfl <;> decide

/-! ## Digits and a point -/

/-- The digits behind a point, and what follows them. -/
def fraction : List Char → List Char × List Char
  | '.' :: r => (r.takeWhile Char.isDigit, r.dropWhile Char.isDigit)
  | r => ([], r)

theorem fraction_of_ne (h : ∀ c ∈ cs.head?, c ≠ '.') : fraction cs = ([], cs) := by
  unfold fraction
  split
  · exact absurd rfl (h '.' rfl)
  · rfl

theorem decimal?_split (negative : Bool) {whole rest : List Char}
    (h : ∀ c ∈ whole, c.isDigit = true) (hrest : Stops Char.isDigit rest) :
    decimal? negative (whole ++ rest) =
      if whole = [] ∧ (fraction rest).1 = [] then none
      else (exponent? (fraction rest).2).map fun e => .decimal negative
        (ofDigits (whole ++ (fraction rest).1)) (e - (fraction rest).1.length) := by
  unfold decimal?
  rw [takeWhile_run h hrest, dropWhile_run h hrest]
  rfl

theorem Mantissa.decimal?_eq (negative : Bool) (h : Mantissa mantissa n places)
    (hpower : Exponent exponent e) :
    decimal? negative (mantissa ++ exponent) = some (.decimal negative n (e - places)) := by
  obtain ⟨hstops, hpoint⟩ := hpower.stops
  have hexponent := exponent?_eq_some_iff.mpr hpower
  cases h with
  | whole row =>
    rw [decimal?_split negative row.2 hstops, fraction_of_ne hpoint,
      if_neg fun hnone => row.1 hnone.1, hexponent, List.append_nil]
    rfl
  | @point before behind row =>
    have hbefore : ∀ c ∈ before, c.isDigit = true :=
      fun c hc => row.2 c (List.mem_append_left _ hc)
    have hbehind : ∀ c ∈ behind, c.isDigit = true :=
      fun c hc => row.2 c (List.mem_append_right _ hc)
    have hfraction : fraction ('.' :: (behind ++ exponent)) = (behind, exponent) := by
      rw [fraction, takeWhile_run hbehind hstops, dropWhile_run hbehind hstops]
    rw [List.append_assoc, List.cons_append,
      decimal?_split negative hbefore (stops_cons (by decide)), hfraction,
      if_neg fun hnone => row.1 (List.append_eq_nil_iff.mpr hnone), hexponent]
    rfl

theorem mantissa_of_decimal? (h : decimal? negative cs = some numeral) :
    ∃ mantissa exponent n places e, cs = mantissa ++ exponent ∧ Mantissa mantissa n places ∧
      Exponent exponent e ∧ numeral = .decimal negative n (e - (places : Nat)) := by
  obtain ⟨whole, rest, rfl, hwhole, hrest⟩ : ∃ whole rest, cs = whole ++ rest ∧
      (∀ c ∈ whole, c.isDigit = true) ∧ Stops Char.isDigit rest :=
    ⟨_, _, List.takeWhile_append_dropWhile.symm, fun c => List.mem_takeWhile_imp,
      stops_dropWhile _ _⟩
  rw [decimal?_split negative hwhole hrest] at h
  split_ifs at h with hnone
  obtain ⟨e, he, rfl⟩ := Option.map_eq_some_iff.mp h
  have hpower := exponent?_eq_some_iff.mp he
  by_cases hpoint : rest.head? = some '.'
  · obtain ⟨r, rfl⟩ := List.head?_eq_some_iff.mp hpoint
    refine ⟨whole ++ '.' :: r.takeWhile Char.isDigit, r.dropWhile Char.isDigit, _, _, e, ?_,
      .point ⟨fun hnil => hnone (List.append_eq_nil_iff.mp hnil), fun c hc => ?_⟩, hpower, rfl⟩
    · rw [List.append_assoc, List.cons_append, List.takeWhile_append_dropWhile]
    · rcases List.mem_append.mp hc with hc | hc
      · exact hwhole c hc
      · exact List.mem_takeWhile_imp hc
  · rw [fraction_of_ne fun c hc hdot => hpoint (hdot ▸ hc)] at hnone hpower ⊢
    refine ⟨whole, rest, _, 0, e, rfl, .whole ⟨fun hnil => hnone ⟨hnil, rfl⟩, hwhole⟩, hpower, ?_⟩
    rw [List.append_nil]
    rfl

/-! ## Numerals -/

/-- A number begins with a digit or a point. -/
theorem Mantissa.head (h : Mantissa mantissa n places) :
    ∃ c rest, mantissa = c :: rest ∧ (c.isDigit = true ∨ c = '.') := by
  cases h with
  | whole row =>
    obtain ⟨c, rest, rfl⟩ := List.exists_cons_of_ne_nil row.1
    exact ⟨c, rest, rfl, .inl (row.2 c List.mem_cons_self)⟩
  | @point before behind row =>
    cases before with
    | nil => exact ⟨'.', behind, rfl, .inr rfl⟩
    | cons c before => exact ⟨c, _, rfl, .inl (row.2 c List.mem_cons_self)⟩

theorem read?_eq (h : signed cs = (negative, body)) :
    read? cs =
      if NamesInfinity body then some (.infinite negative)
      else if NamesNoNumber body then some .notANumber
      else decimal? negative body := by
  have hword (text : String) : String.ofList (body.map Char.toLower) = text ↔
      body.map Char.toLower = text.toList := by
    rw [String.ext_iff, String.toList_ofList]
  unfold read?
  rw [h]
  dsimp only
  simp only [hword]
  rfl

/-- A name begins with one of two letters. -/
theorem head_of_named (h : NamesInfinity body ∨ NamesNoNumber body) :
    ∃ c rest, body = c :: rest ∧ (c.toLower = 'i' ∨ c.toLower = 'n') := by
  cases body with
  | nil =>
    rcases h with (h | h) | h <;> cases h
  | cons c body =>
    refine ⟨c, body, rfl, ?_⟩
    rcases h with (h | h) | h
    · exact .inl (List.cons.inj h).1
    · exact .inl (List.cons.inj h).1
    · exact .inr (List.cons.inj h).1

theorem signless_of_named (h : NamesInfinity body ∨ NamesNoNumber body) : Signless body := by
  obtain ⟨c, rest, rfl, hc⟩ := head_of_named h
  intro d hd
  obtain rfl := Option.some.inj hd
  constructor <;> rintro rfl <;> rcases hc with hc | hc <;> exact absurd hc (by decide)

theorem toLower_of_digit {c : Char} (h : c.isDigit = true) : c.toLower = c := by
  have hle : c.val ≤ '9'.val := by
    simp only [Char.isDigit, Bool.and_eq_true, decide_eq_true_eq] at h
    exact h.2
  have hnot : ¬ (c.val ≥ 'A'.val ∧ c.val ≤ 'Z'.val) := fun hupper =>
    absurd (UInt32.le_trans hupper.1 hle) (by decide)
  exact dif_neg hnot

theorem Mantissa.not_named (h : Mantissa mantissa n places) :
    ¬ (NamesInfinity (mantissa ++ exponent) ∨ NamesNoNumber (mantissa ++ exponent)) := by
  intro hnamed
  obtain ⟨c, rest, rfl, hc⟩ := h.head
  obtain ⟨d, _, heq, hd⟩ := head_of_named hnamed
  obtain rfl := (List.cons.inj heq).1
  rcases hc with hdigit | rfl
  · rw [toLower_of_digit hdigit] at hd
    rcases hd with rfl | rfl <;> exact absurd hdigit (by decide)
  · rcases hd with hd | hd <;> exact absurd hd (by decide)

theorem Mantissa.signless (h : Mantissa mantissa n places) : Signless (mantissa ++ exponent) := by
  obtain ⟨c, rest, rfl, hc⟩ := h.head
  intro d hd
  obtain rfl := Option.some.inj hd
  constructor <;> rintro rfl <;> rcases hc with hc | hc <;> exact absurd hc (by decide)

/-- What is read is exactly what the grammar has. -/
theorem read?_eq_some_iff : read? cs = some numeral ↔ Literal cs numeral := by
  constructor
  · intro h
    rcases hsigned : signed cs with ⟨negative, body⟩
    obtain ⟨sign, hsign, rfl⟩ := sign_of_signed hsigned
    rw [read?_eq hsigned] at h
    split_ifs at h with hinfinity hnot
    · obtain rfl := Option.some.inj h
      exact .infinite hsign hinfinity
    · obtain rfl := Option.some.inj h
      exact .notANumber hsign hnot
    · obtain ⟨mantissa, exponent, n, places, e, rfl, hnumber, hpower, rfl⟩ := mantissa_of_decimal? h
      rw [← List.append_assoc]
      exact .decimal hsign hnumber hpower
  · intro h
    cases h with
    | decimal hsign hnumber hpower =>
      obtain ⟨hinfinity, hnot⟩ := not_or.mp hnumber.not_named
      rw [List.append_assoc, read?_eq (hsign.signed_eq hnumber.signless), if_neg hinfinity,
        if_neg hnot]
      exact hnumber.decimal?_eq _ hpower
    | infinite hsign hinfinity =>
      rw [read?_eq (hsign.signed_eq (signless_of_named (.inl hinfinity))), if_pos hinfinity]
    | notANumber hsign hnot =>
      have hinfinity (word : List Char) (h : NamesNoNumber word) : ¬ NamesInfinity word := by
        rintro (h' | h') <;> exact absurd (h.symm.trans h') (by decide)
      rw [read?_eq (hsign.signed_eq (signless_of_named (.inr hnot))), if_neg (hinfinity _ hnot),
        if_pos hnot]

/-! ## Printing -/

/-- So many units of 10^-places, with all places behind the point. -/
def fixed (places n : Nat) : List Char :=
  Nat.toDigits 10 (n / 10 ^ places) ++
    '.' :: (Nat.toDigits 10 (n % 10 ^ places)).leftpad places '0'

theorem isDigit_of_mem_toDigits {c : Char} (h : c ∈ Nat.toDigits 10 n) : c.isDigit = true :=
  Nat.isDigit_of_mem_toDigits (by decide) (by decide) h

theorem isDigit_of_mem_leftpad {c : Char} (h : c ∈ (Nat.toDigits 10 n).leftpad places '0') :
    c.isDigit = true := by
  rcases List.mem_append.mp h with h | h
  · obtain rfl := List.eq_of_mem_replicate h
    rfl
  · exact isDigit_of_mem_toDigits h

theorem ofDigits_append (cs more : List Char) :
    ofDigits (cs ++ more) = 10 ^ more.length * ofDigits cs + ofDigits more := by
  change Nat.ofDigitChars 10 (cs ++ more) 0 = _
  rw [Nat.ofDigitChars_append, Nat.ofDigitChars_eq_ofDigitChars_zero]
  rfl

theorem ofDigits_toDigits (n : Nat) : ofDigits (Nat.toDigits 10 n) = n :=
  Nat.ofDigitChars_toDigits (by decide) (by decide)

theorem ofDigits_leftpad (cs : List Char) : ofDigits (cs.leftpad places '0') = ofDigits cs := by
  have hzeros (k : Nat) : ofDigits (List.replicate k '0') = 0 := Nat.ofDigitChars_replicate_zero
  rw [List.leftpad, ofDigits_append, hzeros]
  omega

theorem length_leftpad_toDigits (hplaces : 0 < places) (hn : n < 10 ^ places) :
    ((Nat.toDigits 10 n).leftpad places '0').length = places := by
  rw [List.length_leftpad]
  exact max_eq_left ((Nat.length_toDigits_le_iff (by decide) hplaces).mpr hn)

/-- What is printed is a numeral of the same number. -/
theorem literal_fixed (hplaces : 0 < places) (n : Nat) :
    Literal (fixed places n) (.decimal false n (0 - places)) := by
  have hlt : n % 10 ^ places < 10 ^ places := Nat.mod_lt _ (Nat.pow_pos (by decide))
  have hlength := length_leftpad_toDigits hplaces hlt
  have hdigits : ofDigits (Nat.toDigits 10 (n / 10 ^ places) ++
      (Nat.toDigits 10 (n % 10 ^ places)).leftpad places '0') = n := by
    rw [ofDigits_append, ofDigits_leftpad, ofDigits_toDigits, ofDigits_toDigits, hlength]
    exact Nat.div_add_mod n _
  have hrow : Digits (Nat.toDigits 10 (n / 10 ^ places) ++
      (Nat.toDigits 10 (n % 10 ^ places)).leftpad places '0') := by
    refine ⟨by simp [Nat.toDigits_ne_nil], fun c hc => ?_⟩
    rcases List.mem_append.mp hc with hc | hc
    · exact isDigit_of_mem_toDigits hc
    · exact isDigit_of_mem_leftpad hc
  have hliteral := Literal.decimal .none (.point hrow) .none
  rw [hdigits, hlength, List.nil_append, List.append_nil] at hliteral
  exact hliteral

example : fixed 7 20000 = "0.0020000".toList := by decide

theorem mem_fixed {c : Char} (h : c ∈ fixed places n) : c.isDigit = true ∨ c = '.' := by
  rcases List.mem_append.mp h with h | h
  · exact .inl (isDigit_of_mem_toDigits h)
  · rcases List.mem_cons.mp h with rfl | h
    · exact .inr rfl
    · exact .inl (isDigit_of_mem_leftpad h)

theorem isBlank_of_isDigit {c : Char} (h : c.isDigit = true) : isBlank c = false := by
  have hrange : 48 ≤ c.toNat ∧ c.toNat ≤ 57 := Char.isDigit_iff_toNat.mp h
  simp [isBlank, blankRuns]
  omega

theorem solid_fixed : ∀ c ∈ fixed places n, isBlank c = false := by
  intro c hc
  rcases mem_fixed hc with hdigit | rfl
  · exact isBlank_of_isDigit hdigit
  · decide

end Numeral

end Metronome.Text
