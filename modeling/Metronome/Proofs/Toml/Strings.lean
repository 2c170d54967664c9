-- Strings of a settings file. A text is written in one of five ways, with one
-- quote or with three, between single quotes or between double ones. Whichever
-- is chosen, it is read as that text again.
import Metronome.Toml.Quoted
import Metronome.Proofs.Whole

namespace Metronome.Toml

variable {c : Char} {cs rest : List Char} {multi : Bool}

/-! ## One character between double quotes -/

theorem pieces_escaped {e : Char} (h : simpleEscape? e = some c) (cs : List Char) :
    pieces multi ('\\' :: e :: cs) = push (.escaped c) (pieces multi cs) := by
  have hsmall : e ≠ 'u' := by
    rintro rfl
    cases h
  have hlarge : e ≠ 'U' := by
    rintro rfl
    cases h
  rw [pieces, h]
  · intro _ _ _ _ _ hletter _
    exact hsmall hletter
  · intro _ _ _ _ _ _ _ _ _ hletter _
    exact hlarge hletter

theorem pieces_code (multi : Bool) {n : Nat} (h : n < 0x80) (cs : List Char) :
    pieces multi
        (['\\', 'u', '0', '0', Text.upperHexDigit (n / 16), Text.upperHexDigit (n % 16)] ++ cs) =
      push (.escaped (Char.ofNat n)) (pieces multi cs) := by
  have hcode := Text.hexNumber?_byte Text.hexValue?_upper (show n < 256 by omega)
  have hvalid : n.isValidChar := .inl (by omega)
  simp only [List.cons_append, List.nil_append, pieces, codeEscape?, hcode, Option.bind_eq_bind,
    Option.bind_some, if_pos hvalid]

theorem pieces_plain (hquote : c ≠ '\x22') (hslash : c ≠ '\\') (hstand : mayStand multi c = true)
    (cs : List Char) : pieces multi (c :: cs) = push (.plain c) (pieces multi cs) := by
  rw [pieces, if_neg hquote, if_pos ⟨hslash, hstand⟩]
  · intro _ _ _ _ _ heq
    exact absurd heq hslash
  · intro _ _ _ _ _ _ _ _ _ heq
    exact absurd heq hslash
  · intro _ _ heq
    exact absurd heq hslash

/-- However a character is written, one piece is read, and it stands for that character. -/
theorem pieces_escape (multi : Bool) (c : Char) (cs : List Char) :
    pieces multi (escape multi c ++ cs) = push (.plain c) (pieces multi cs) ∨
      pieces multi (escape multi c ++ cs) = push (.escaped c) (pieces multi cs) := by
  unfold escape
  split_ifs with hback htab hline hmulti hform hreturn hquote hslash hcontrol
  · subst hback
    exact .inr (pieces_escaped rfl cs)
  · subst htab
    exact .inr (pieces_escaped rfl cs)
  · subst hline hmulti
    exact .inl (pieces_plain (by decide) (by decide) rfl cs)
  · subst hline
    exact .inr (pieces_escaped rfl cs)
  · subst hform
    exact .inr (pieces_escaped rfl cs)
  · subst hreturn
    exact .inr (pieces_escaped rfl cs)
  · subst hquote
    exact .inr (pieces_escaped rfl cs)
  · subst hslash
    exact .inr (pieces_escaped rfl cs)
  · have hcode := pieces_code multi (show c.toNat < 0x80 by omega) cs
    rw [Char.ofNat_toNat] at hcode
    exact .inr hcode
  · have hstand : mayStand multi c = true := by
      have hplain : 0x20 ≤ c.toNat ∧ c.toNat ≠ 0x7F := by omega
      simp [mayStand, isPlain, hplain]
    exact .inl (pieces_plain hquote hslash hstand cs)

/-! ## A whole text between double quotes -/

/-- No quote follows. -/
def Parted (quote : Char) (rest : List Char) : Prop := rest.head? ≠ some quote

theorem Parted.takeWhile {quote : Char} (h : Parted quote rest) :
    rest.takeWhile (· = quote) = [] := by
  cases rest with
  | nil => rfl
  | cons c rest =>
    have hc : c ≠ quote := fun heq => h (congrArg some heq)
    exact List.takeWhile_cons_of_neg (by simpa using hc)

/-- Three quotes end a text, unless there is one more. -/
theorem ending?_three {quote : Char} (h : Parted quote rest) :
    ending? quote true (quote :: quote :: rest) = some ([], rest) := by
  have hquotes : (quote :: quote :: rest).takeWhile (· = quote) = [quote, quote] := by
    simp [h.takeWhile]
  simp [ending?, hquotes]

/-- The quotes that close a text between double quotes. -/
def closing (multi : Bool) (quote : Char) : List Char :=
  if multi then [quote, quote, quote] else [quote]

theorem pieces_closing (multi : Bool) (h : Parted '\x22' rest) :
    pieces multi (closing multi '\x22' ++ rest) = some ([], rest) := by
  cases multi with
  | false => rfl
  | true =>
    have hending := ending?_three h
    change pieces true ('\x22' :: '\x22' :: '\x22' :: rest) = _
    rw [pieces, if_pos rfl, hending]
    · rfl
    all_goals simp

/-- The pieces of a text that is written between double quotes make that text up. -/
theorem pieces_text (multi : Bool) (h : Parted '\x22' rest) (cs : List Char) :
    ∃ ps, pieces multi (cs.flatMap (escape multi) ++ (closing multi '\x22' ++ rest)) =
      some (ps, rest) ∧ join .none ps = some cs := by
  induction cs with
  | nil => exact ⟨[], pieces_closing multi h, rfl⟩
  | cons c cs ih =>
    obtain ⟨ps, hps, hjoin⟩ := ih
    rw [List.flatMap_cons, List.append_assoc]
    rcases pieces_escape multi c _ with hpiece | hpiece
    · refine ⟨.plain c :: ps, by rw [hpiece, hps]; rfl, ?_⟩
      rw [join, hjoin]
      rfl
    · refine ⟨.escaped c :: ps, by rw [hpiece, hps]; rfl, ?_⟩
      rw [join, hjoin]
      · rfl
      · exact nofun

theorem basic_text (multi : Bool) (h : Parted '\x22' rest) (s : String) :
    basic multi (s.toList.flatMap (escape multi) ++ (closing multi '\x22' ++ rest)) =
      some (s, rest) := by
  obtain ⟨ps, hps, hjoin⟩ := pieces_text multi h s.toList
  simp [basic, hps, hjoin]

/-! ## A whole text between single quotes -/

theorem literal_plain (hquote : c ≠ '\'') (hstand : mayStand multi c = true) (cs : List Char) :
    literal multi (c :: cs) = push c (literal multi cs) := by
  rw [literal, if_neg hquote, if_pos hstand]

/-- Between single quotes a text on one line has no quote of its own. -/
theorem literal_line (hstand : ∀ c ∈ cs, mayStand false c = true) (hquote : ∀ c ∈ cs, c ≠ '\'') :
    literal false (cs ++ '\'' :: rest) = some (cs, rest) := by
  induction cs with
  | nil => rfl
  | cons c cs ih =>
    obtain ⟨hc, hcs⟩ := List.forall_mem_cons.mp hstand
    obtain ⟨hne, hnot⟩ := List.forall_mem_cons.mp hquote
    rw [List.cons_append, literal_plain hne hc, ih hcs hnot]
    rfl

/-- A quote within a text that is no last one and not the first of three does not end it. -/
theorem ending?_within (hlast : ('\'' :: cs).getLast? ≠ some '\'')
    (hthree : ¬ threeSingle <:+: '\'' :: cs) (rest : List Char) :
    ending? '\'' true (cs ++ rest) = none := by
  have hfew (cs : List Char) (h : (cs.takeWhile (· = '\'')).length < 2) :
      ending? '\'' true cs = none := if_pos h
  -- Two quotes behind the first would be the first of three, or the last of the text.
  rcases cs with _ | ⟨d, _ | ⟨e, cs⟩⟩
  · exact absurd rfl hlast
  · have hd : d ≠ '\'' := by
      rintro rfl
      exact hlast rfl
    exact hfew _ (by simp [hd])
  · by_cases hd : d = '\''
    · subst hd
      have he : e ≠ '\'' := by
        rintro rfl
        exact hthree (List.prefix_append threeSingle cs).isInfix
      exact hfew _ (by simp [he])
    · exact hfew _ (by simp [hd])

theorem literal_lines (hstand : ∀ c ∈ cs, mayStand true c = true)
    (hlast : cs.getLast? ≠ some '\'') (hthree : ¬ threeSingle <:+: cs) (h : Parted '\'' rest) :
    literal true (cs ++ (threeSingle ++ rest)) = some (cs, rest) := by
  induction cs with
  | nil =>
    have hending := ending?_three h
    change literal true ('\'' :: '\'' :: '\'' :: rest) = _
    rw [literal, if_pos rfl, hending]
  | cons c cs ih =>
    obtain ⟨hc, hcs⟩ := List.forall_mem_cons.mp hstand
    have hrest : literal true (cs ++ (threeSingle ++ rest)) = some (cs, rest) := by
      refine ih hcs (fun heq => hlast ?_)
        fun hin => hthree (hin.trans (List.suffix_cons c cs).isInfix)
      rw [List.getLast?_cons, heq]
      rfl
    by_cases hquote : c = '\''
    · subst hquote
      rw [List.cons_append, literal, if_pos rfl, ending?_within hlast hthree, hrest]
      rfl
    · rw [List.cons_append, literal_plain hquote hc, hrest]
      rfl

theorem verbatim_line (hstand : ∀ c ∈ cs, mayStand false c = true) (hquote : ∀ c ∈ cs, c ≠ '\'') :
    verbatim false (cs ++ '\'' :: rest) = some (String.ofList cs, rest) := by
  rw [verbatim, literal_line hstand hquote]
  rfl

theorem verbatim_lines (hstand : ∀ c ∈ cs, mayStand true c = true)
    (hlast : cs.getLast? ≠ some '\'') (hthree : ¬ threeSingle <:+: cs) (h : Parted '\'' rest) :
    verbatim true (cs ++ (threeSingle ++ rest)) = some (String.ofList cs, rest) := by
  rw [verbatim, literal_lines hstand hlast hthree h]
  rfl

/-! ## A string with its quotes -/

/-- What single quotes can hold. -/
theorem prefersSingle_iff : prefersSingle cs = true ↔
    '\\' ∈ cs ∧ (∀ c ∈ cs, mayStand true c = true) ∧ ¬ threeSingle <:+: cs ∧
      cs.getLast? ≠ some '\'' := by
  unfold prefersSingle
  simp only [Bool.and_eq_true, List.contains_iff_mem, List.all_eq_true, Option.isNone_iff_eq_none,
    Text.after?_eq_none_iff, bne_iff_ne, and_assoc]

theorem mayStand_line (h : mayStand true c = true) (hc : c ≠ '\n') : mayStand false c = true := by
  simpa [mayStand, hc] using h

/-- A text that does not begin with a line break keeps its first line. -/
theorem skipBreak_of_ne (h : cs.head? ≠ some '\n') : skipBreak cs = cs := by
  unfold skipBreak
  split
  · exact absurd rfl h
  · rfl

theorem string?_double (h : ∀ tail, cs ≠ '\x22' :: '\x22' :: tail) :
    string? ('\x22' :: cs) = basic false cs := by
  rw [string?]
  exact h

theorem string?_single (h : Parted '\'' cs) : string? ('\'' :: cs) = verbatim false cs := by
  rw [string?]
  rintro _ rfl
  exact h rfl

/-- No character is written so that it begins with a quote. -/
theorem head_escape (multi : Bool) (c : Char) :
    ∃ d tail, escape multi c = d :: tail ∧ d ≠ '\x22' := by
  unfold escape
  split_ifs with _ _ _ _ _ _ hquote
  on_goal 10 => exact ⟨c, _, rfl, hquote⟩
  all_goals exact ⟨_, _, rfl, by decide⟩

/-- What is written on one line does not begin with three quotes. -/
theorem line_ne_three (cs : List Char) (h : Parted '\x22' rest) (tail : List Char) :
    cs.flatMap (escape false) ++ '\x22' :: rest ≠ '\x22' :: '\x22' :: tail := by
  cases cs with
  | nil =>
    rintro heq
    exact h (by rw [(List.cons.inj heq).2]; rfl)
  | cons c cs =>
    obtain ⟨d, more, hescape, hd⟩ := head_escape false c
    rw [List.flatMap_cons, hescape]
    exact fun heq => hd (List.cons.inj heq).1

/-- A written string is read again, unless a quote follows. -/
theorem string?_quote (s : String) (hdouble : Parted '\x22' rest) (hsingle : Parted '\'' rest) :
    string? (quote s ++ rest) = some (s, rest) := by
  have hbasic (multi : Bool) := basic_text multi hdouble s
  unfold quote
  dsimp only
  split_ifs with hprefers hmulti hquote hmulti
  · obtain ⟨-, hstand, hthree, hlast⟩ := prefersSingle_iff.mp hprefers
    have hlines := verbatim_lines hstand hlast hthree hsingle
    simp only [List.append_assoc]
    change verbatim true (s.toList ++ (threeSingle ++ rest)) = _
    rw [hlines, String.ofList_toList]
  · obtain ⟨-, hstand, hthree, hlast⟩ := prefersSingle_iff.mp hprefers
    have hlines := verbatim_lines hstand hlast hthree hsingle
    have hfirst : (s.toList ++ (threeSingle ++ rest)).head? ≠ some '\n' := by
      cases hs : s.toList with
      | nil => exact nofun
      | cons c cs =>
        rintro heq
        exact hmulti (List.contains_iff_mem.mpr (hs ▸ Option.some.inj heq ▸ List.mem_cons_self))
    simp only [List.append_assoc]
    change verbatim true (skipBreak (s.toList ++ (threeSingle ++ rest))) = _
    rw [skipBreak_of_ne hfirst, hlines, String.ofList_toList]
  · obtain ⟨hslash, hstand, -, -⟩ := prefersSingle_iff.mp hprefers
    have hno {c : Char} (h : ¬ s.toList.contains c = true) : ∀ d ∈ s.toList, d ≠ c :=
      fun d hd heq => h (List.contains_iff_mem.mpr (heq ▸ hd))
    have hline : verbatim false (s.toList ++ '\'' :: rest) = some (s, rest) := by
      rw [verbatim_line (fun c hc => mayStand_line (hstand c hc) (hno hmulti c hc)) (hno hquote),
        String.ofList_toList]
    have hfirst : Parted '\'' (s.toList ++ '\'' :: rest) := by
      obtain ⟨c, cs, hs⟩ := List.exists_cons_of_ne_nil (List.ne_nil_of_mem hslash)
      rw [hs]
      exact fun heq => hno hquote c (hs ▸ List.mem_cons_self) (Option.some.inj heq)
    simp only [List.append_assoc]
    exact (string?_single hfirst).trans hline
  · simp only [List.append_assoc]
    exact hbasic true
  · simp only [List.append_assoc]
    exact (string?_double (line_ne_three s.toList hdouble)).trans (hbasic false)

theorem head_quote (s : String) : ∃ q tail, quote s = q :: tail ∧ (q = '\x22' ∨ q = '\'') := by
  unfold quote
  dsimp only
  split_ifs
  · exact ⟨_, _, rfl, .inr rfl⟩
  · exact ⟨_, _, rfl, .inr rfl⟩
  · exact ⟨_, _, rfl, .inr rfl⟩
  · exact ⟨_, _, rfl, .inl rfl⟩
  · exact ⟨_, _, rfl, .inl rfl⟩

/-! ## Carriage returns -/

theorem return_not_mem_escape (multi : Bool) (c : Char) : '\r' ∉ escape multi c := by
  have hdigit {n : Nat} (h : n < 16) : Text.upperHexDigit n ≠ '\r' := by
    intro heq
    have hvalue := Text.hexValue?_upper n h
    rw [heq] at hvalue
    cases hvalue
  unfold escape
  split_ifs with _ _ _ _ _ hreturn _ _ hcontrol
  on_goal 10 => exact fun h => hreturn (List.mem_singleton.mp h).symm
  on_goal 9 =>
    have hhigh := hdigit (show c.toNat / 16 < 16 by omega)
    have hlow := hdigit (show c.toNat % 16 < 16 by omega)
    simp [Ne.symm hhigh, Ne.symm hlow]
  all_goals decide

/-- A written string holds no carriage return, whatever the text holds. -/
theorem return_not_mem_quote (s : String) : '\r' ∉ quote s := by
  have hescaped (multi : Bool) : '\r' ∉ s.toList.flatMap (escape multi) := fun h => by
    obtain ⟨c, -, hc⟩ := List.mem_flatMap.mp h
    exact return_not_mem_escape multi c hc
  have hsingle (h : prefersSingle s.toList = true) : '\r' ∉ s.toList := fun hr =>
    absurd ((prefersSingle_iff.mp h).2.1 '\r' hr) (by decide)
  unfold quote
  dsimp only
  split_ifs with hprefers
  · simpa [threeSingle] using hsingle hprefers
  · simpa [threeSingle] using hsingle hprefers
  · simpa using hsingle hprefers
  · simpa [threeDouble] using hescaped true
  · simpa using hescaped false

end Metronome.Toml
