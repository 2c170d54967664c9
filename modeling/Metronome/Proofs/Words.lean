-- The words of a line, and where a marker stands in it. What the functions on
-- text find is told here by where it stands: a first word has nothing but white
-- space before it, and before a first place there is no other.
import Metronome.Text.Blank
import Mathlib.Data.List.Infix
import Mathlib.Data.List.TakeWhile

namespace Metronome.Text

variable {p : Char → Bool} {cs front rest mark word line ending : List Char}

/-! ## Runs of characters -/

/-- A run of characters stops here: the text ends, or goes on with another one. -/
def Stops (p : Char → Bool) (rest : List Char) : Prop := ∀ c ∈ rest.head?, p c = false

theorem stops_nil : Stops p [] := fun _ h => by cases h

theorem stops_cons {c : Char} (h : p c = false) : Stops p (c :: cs) := by
  intro d hd
  obtain rfl := Option.some.inj hd
  exact h

theorem stops_dropWhile (p : Char → Bool) (cs : List Char) : Stops p (cs.dropWhile p) := by
  intro c hc
  have hnot := List.head?_dropWhile_not p cs
  rwa [Option.mem_def.mp hc] at hnot

theorem takeWhile_run (h : ∀ c ∈ cs, p c = true) (hrest : Stops p rest) :
    (cs ++ rest).takeWhile p = cs := by
  rw [List.takeWhile_append_of_pos h]
  cases rest with
  | nil => simp
  | cons c rest => rw [List.takeWhile_cons_of_neg (by simp [hrest c rfl]), List.append_nil]

theorem dropWhile_run (h : ∀ c ∈ cs, p c = true) (hrest : Stops p rest) :
    (cs ++ rest).dropWhile p = rest := by
  rw [List.dropWhile_append_of_pos h]
  cases rest with
  | nil => rfl
  | cons c rest => rw [List.dropWhile_cons_of_neg (by simp [hrest c rfl])]

theorem stops_of_forall (h : ∀ c ∈ cs, p c = false) : Stops p cs :=
  fun c hc => h c (List.mem_of_mem_head? hc)

theorem Stops.append (h : Stops p cs) (hne : cs ≠ []) : Stops p (cs ++ rest) := by
  cases cs with
  | nil => exact absurd rfl hne
  | cons c cs => exact stops_cons (h c rfl)

/-- Read backwards, a text begins with its last word. -/
theorem stops_reverse_append (front : List Char) (hne : word ≠ []) (h : ∀ c ∈ word, p c = false) :
    Stops p (front ++ word).reverse := by
  rw [List.reverse_append]
  have hword : ∀ c ∈ word.reverse, p c = false := fun c hc => h c (List.mem_reverse.mp hc)
  exact (stops_of_forall hword).append (by simpa using hne)

/-! ## Trimming -/

/-- `cs` is the line without the white space around it. -/
structure Trims (line cs : List Char) : Prop where
  around : ∃ front back, line = front ++ cs ++ back ∧
    (∀ c ∈ front, isBlank c = true) ∧ ∀ c ∈ back, isBlank c = true
  first : Stops isBlank cs
  last : Stops isBlank cs.reverse

theorem trims_trim (line : List Char) : Trims line (trim line) := by
  have hback : line.dropWhile isBlank =
      trim line ++ ((line.dropWhile isBlank).reverse.takeWhile isBlank).reverse := by
    rw [trim, ← List.reverse_append, List.takeWhile_append_dropWhile, List.reverse_reverse]
  refine ⟨⟨line.takeWhile isBlank, ((line.dropWhile isBlank).reverse.takeWhile isBlank).reverse,
    ?_, fun c => List.mem_takeWhile_imp, fun c hc => ?_⟩, ?_, ?_⟩
  · rw [List.append_assoc, ← hback, List.takeWhile_append_dropWhile]
  · exact List.mem_takeWhile_imp (List.mem_reverse.mp hc)
  · have hstops := stops_dropWhile isBlank line
    intro c hc
    refine hstops c ?_
    rw [hback, List.head?_append, Option.mem_def.mp hc]
    rfl
  · rw [trim, List.reverse_reverse]
    exact stops_dropWhile isBlank _

theorem Trims.trim_eq (h : Trims line cs) : trim line = cs := by
  obtain ⟨⟨front, back, rfl, hfront, hback⟩, hfirst, hlast⟩ := h
  have hback' : ∀ c ∈ back.reverse, isBlank c = true := fun c hc => hback c (List.mem_reverse.mp hc)
  unfold trim
  rw [List.append_assoc]
  by_cases hempty : cs = []
  · rw [hempty, List.nil_append, List.dropWhile_append_of_pos hfront,
      List.dropWhile_eq_nil_iff.mpr hback]
    rfl
  · rw [dropWhile_run hfront (hfirst.append hempty), List.reverse_append,
      dropWhile_run hback' hlast, List.reverse_reverse]

/-- White space in front of a text that does not begin with any. -/
theorem stops_dropWhile_append (cs : List Char) (h : Stops isBlank word) :
    Stops isBlank (cs.dropWhile isBlank ++ word) := by
  cases hcs : cs.dropWhile isBlank with
  | nil => exact h
  | cons c rest =>
    have hstops := stops_dropWhile isBlank cs
    rw [hcs] at hstops
    exact hstops.append (by simp)

/-- A text with solid ends keeps what stands around it, but for the white space at the ends of the
line. -/
theorem exists_trims_around (before after : List Char) (hne : word ≠ [])
    (hfirst : Stops isBlank word) (hlast : Stops isBlank word.reverse) :
    ∃ blanks kept behind more, before = blanks ++ kept ∧ after = behind ++ more ∧
      (∀ c ∈ blanks, isBlank c = true) ∧
      Trims (before ++ word ++ after) (kept ++ word ++ behind) := by
  have hbefore := List.takeWhile_append_dropWhile (p := isBlank) (l := before)
  have hafter : (after.reverse.dropWhile isBlank).reverse ++
      (after.reverse.takeWhile isBlank).reverse = after := by
    rw [← List.reverse_append, List.takeWhile_append_dropWhile, List.reverse_reverse]
  refine ⟨before.takeWhile isBlank, before.dropWhile isBlank,
    (after.reverse.dropWhile isBlank).reverse, (after.reverse.takeWhile isBlank).reverse,
    hbefore.symm, hafter.symm, fun c => List.mem_takeWhile_imp, ?_⟩
  refine ⟨⟨before.takeWhile isBlank, (after.reverse.takeWhile isBlank).reverse, ?_,
    fun c => List.mem_takeWhile_imp, fun c hc => ?_⟩, ?_, ?_⟩
  · simp only [List.append_assoc]
    rw [hafter, ← List.append_assoc (before.takeWhile isBlank), hbefore]
  · exact List.mem_takeWhile_imp (List.mem_reverse.mp hc)
  · exact (stops_dropWhile_append before hfirst).append (by simp [hne])
  · simp only [List.reverse_append, List.reverse_reverse, ← List.append_assoc]
    exact (stops_dropWhile_append after.reverse hlast).append (by simp [hne])

/-! ## Words -/

/-- The first word stands between white space and white space, or an end of the text. -/
structure IsFirstWord (cs word : List Char) : Prop where
  nonempty : word ≠ []
  solid : ∀ c ∈ word, isBlank c = false
  place : ∃ front rest, cs = front ++ word ++ rest ∧
    (∀ c ∈ front, isBlank c = true) ∧ ∀ c ∈ rest.head?, isBlank c = true

/-- The last word, seen from the end of the text. -/
structure IsLastWord (cs word : List Char) : Prop where
  nonempty : word ≠ []
  solid : ∀ c ∈ word, isBlank c = false
  place : ∃ front rest, cs = front ++ word ++ rest ∧
    (∀ c ∈ front.getLast?, isBlank c = true) ∧ ∀ c ∈ rest, isBlank c = true

theorem isFirstWord_firstWord (h : firstWord cs ≠ []) : IsFirstWord cs (firstWord cs) := by
  refine ⟨h, fun c hc => ?_, cs.takeWhile isBlank,
    (cs.dropWhile isBlank).dropWhile fun c => !isBlank c, ?_, fun c => List.mem_takeWhile_imp, ?_⟩
  · have hsolid := List.mem_takeWhile_imp hc
    rwa [Bool.not_eq_true'] at hsolid
  · rw [firstWord, List.append_assoc, List.takeWhile_append_dropWhile,
      List.takeWhile_append_dropWhile]
  · intro c hc
    have hstops := stops_dropWhile (fun c => !isBlank c) (cs.dropWhile isBlank) c hc
    rwa [Bool.not_eq_false'] at hstops

theorem IsFirstWord.firstWord_eq (h : IsFirstWord cs word) : firstWord cs = word := by
  obtain ⟨hne, hsolid, front, rest, rfl, hfront, hrest⟩ := h
  rw [firstWord, List.append_assoc, dropWhile_run hfront ((stops_of_forall hsolid).append hne)]
  exact takeWhile_run (fun c hc => by rw [hsolid c hc]; rfl)
    fun c hc => by rw [hrest c hc]; rfl

theorem firstWord_eq_iff (hne : word ≠ []) : firstWord cs = word ↔ IsFirstWord cs word :=
  ⟨fun h => h ▸ isFirstWord_firstWord (h ▸ hne), IsFirstWord.firstWord_eq⟩

/-- The last word is the first one of the text read backwards. -/
theorem isLastWord_iff : IsLastWord cs word ↔ IsFirstWord cs.reverse word.reverse := by
  constructor
  · rintro ⟨hne, hsolid, front, rest, rfl, hfront, hrest⟩
    refine ⟨by simpa using hne, by simpa using hsolid, rest.reverse, front.reverse, by simp,
      by simpa using hrest, by simpa using hfront⟩
  · rintro ⟨hne, hsolid, front, rest, hcs, hfront, hrest⟩
    refine ⟨by simpa using hne, by simpa using hsolid, rest.reverse, front.reverse, ?_,
      by simpa using hrest, by simpa using hfront⟩
    rw [← List.reverse_reverse cs, hcs]
    simp

theorem lastWord_eq_iff (hne : word ≠ []) : lastWord cs = word ↔ IsLastWord cs word := by
  rw [isLastWord_iff, ← firstWord_eq_iff (by simpa using hne), lastWord,
    List.reverse_eq_iff]

/-! ## Markers -/

/-- Between `front` and `rest` stands the mark, and nowhere before. -/
structure FirstAt (mark cs front rest : List Char) : Prop where
  place : cs = front ++ mark ++ rest
  first : ∀ front' rest', cs = front' ++ mark ++ rest' → front.length ≤ front'.length

theorem firstAt_nil (h : mark <+: cs) : FirstAt mark cs [] (cs.drop mark.length) :=
  ⟨(List.prefix_iff_eq_append.mp h).symm, fun _ _ _ => Nat.zero_le _⟩

theorem firstAt_cons {c : Char} (h : ¬ mark <+: c :: cs) (hfirst : FirstAt mark cs front rest) :
    FirstAt mark (c :: cs) (c :: front) rest := by
  refine ⟨by simp [hfirst.place], fun front' rest' hplace => ?_⟩
  cases front' with
  | nil => exact absurd ⟨rest', by simpa using hplace.symm⟩ h
  | cons d front' =>
    rw [List.cons_append, List.cons_append, List.cons.injEq] at hplace
    exact Nat.succ_le_succ (hfirst.first front' rest' hplace.2)

theorem after?_eq_none_iff : after? mark cs = none ↔ ¬ mark <:+: cs := by
  induction cs with
  | nil =>
    unfold after?
    split <;> simp_all
  | cons c cs ih =>
    rw [after?, List.infix_cons_iff, ← List.isPrefixOf_iff_prefix]
    split <;> simp_all

theorem firstAt_of_after? (h : after? mark cs = some rest) :
    ∃ front, FirstAt mark cs front rest := by
  induction cs with
  | nil =>
    unfold after? at h
    split at h
    · rename_i hmark
      obtain rfl := Option.some.inj h
      exact ⟨[], by simp [hmark], fun _ _ _ => Nat.zero_le _⟩
    · cases h
  | cons c cs ih =>
    rw [after?] at h
    split at h
    · rename_i hmark
      obtain rfl := Option.some.inj h
      exact ⟨[], firstAt_nil (List.isPrefixOf_iff_prefix.mp hmark)⟩
    · rename_i hmark
      obtain ⟨front, hfirst⟩ := ih h
      exact ⟨c :: front, firstAt_cons (fun hp => hmark (List.isPrefixOf_iff_prefix.mpr hp)) hfirst⟩

/-- There is one first place only. -/
theorem FirstAt.rest_unique {front' rest' : List Char} (h : FirstAt mark cs front rest)
    (h' : FirstAt mark cs front' rest') : rest = rest' := by
  have hlength := Nat.le_antisymm (h.first front' rest' h'.place) (h'.first front rest h.place)
  have hplace := h.place.symm.trans h'.place
  rw [List.append_assoc, List.append_assoc] at hplace
  exact List.append_cancel_left (List.append_inj hplace hlength).2

theorem after?_eq_some_iff : after? mark cs = some rest ↔ ∃ front, FirstAt mark cs front rest := by
  refine ⟨firstAt_of_after?, fun ⟨front, h⟩ => ?_⟩
  cases hafter : after? mark cs with
  | none => exact absurd ⟨front, rest, h.place.symm⟩ (after?_eq_none_iff.mp hafter)
  | some rest' =>
    obtain ⟨front', h'⟩ := firstAt_of_after? hafter
    rw [h.rest_unique h']

/-! ## Marks in a longer text -/

/-- No mark begins in white space. -/
theorem infix_of_blanks {c : Char} (hfront : ∀ d ∈ front, isBlank d = true)
    (hc : isBlank c = false) (h : c :: mark <:+: front ++ rest) : c :: mark <:+: rest := by
  induction front with
  | nil => exact h
  | cons d front ih =>
    rcases List.infix_cons_iff.mp h with hstart | hlater
    · obtain rfl := (List.cons_prefix_cons.mp hstart).1
      rw [hfront c List.mem_cons_self] at hc
      cases hc
    · exact ih (fun e he => hfront e (List.mem_cons_of_mem _ he)) hlater

/-- A mark ends with a character of its own. What has none of them makes no mark. -/
theorem not_infix_append {c : Char} {more : List Char} (hc : c ∉ more)
    (h : ¬ mark ++ [c] <:+: front) : ¬ mark ++ [c] <:+: front ++ more := by
  rintro ⟨before, rest, heq⟩
  rcases List.append_eq_append_iff.mp heq with ⟨gap, hfront, -⟩ | ⟨gap, hmark, hmore⟩
  · exact h ⟨before, gap, hfront.symm⟩
  · rcases List.eq_nil_or_concat' gap with rfl | ⟨gap, d, rfl⟩
    · exact h ⟨before, [], by simpa using hmark⟩
    · rw [← List.append_assoc, ← List.append_assoc] at hmark
      obtain rfl := List.singleton_inj.mp (List.append_inj_right' hmark rfl)
      exact hc (by simp [hmore])

/-- Where a text has no mark, the first one is the one that comes behind it. -/
theorem firstAt_append {c : Char} (hc : c ∉ mark) (h : ¬ mark ++ [c] <:+: front) :
    FirstAt (mark ++ [c]) (front ++ (mark ++ [c]) ++ rest) front rest := by
  refine ⟨rfl, fun before after hplace => ?_⟩
  by_contra hlt
  refine not_infix_append hc h ?_
  have hbefore : before ++ (mark ++ [c]) <+: front ++ mark ++ [c] ++ rest := by
    rw [List.append_assoc front, hplace]
    exact List.prefix_append _ _
  have hfront : front ++ mark <+: front ++ mark ++ [c] ++ rest := by
    rw [List.append_assoc]
    exact List.prefix_append _ _
  have hprefix := List.prefix_of_prefix_length_le hbefore hfront (by simp; omega)
  exact (List.suffix_append before _).isInfix.trans hprefix.isInfix

/-! ## Endings -/

theorem dropEnding?_eq_some_iff : dropEnding? ending cs = some word ↔ cs = word ++ ending := by
  unfold dropEnding?
  constructor
  · intro h
    split at h
    · rename_i hsuffix
      obtain ⟨front, rfl⟩ := List.isSuffixOf_iff_suffix.mp hsuffix
      rw [← Option.some.inj h]
      simp
    · cases h
  · rintro rfl
    simp

end Metronome.Text
