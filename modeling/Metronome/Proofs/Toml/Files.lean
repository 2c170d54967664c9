-- Settings files that are written and read again. What is read is the record
-- that was written, but for members that are null, and with its tables behind
-- its values.
import Metronome.Proofs.Retellings
import Metronome.Proofs.Toml.Drafts
import Metronome.Proofs.Toml.Lines

namespace Metronome.Toml

open Data (Retold Keeps)

variable {m : Option String × Data} {ms : List (Option String × Data)} {cs more lines : List Char}
  {ss rest : List Statement}

/-! ## Carriage returns -/

theorem return_not_mem_scalarText? {d : Data} {text : List Char} (h : scalarText? d = some text) :
    '\r' ∉ text := by
  unfold scalarText? at h
  split at h
  · rename_i b
    obtain rfl := Option.some.inj h
    cases b <;> decide
  · split at h
    · obtain rfl := Option.some.inj h
      exact fun hin => Text.Numeral.ne_of_number (Text.Numeral.mem_toString hin) (by decide)
        (by decide) rfl
    · cases h
  · obtain rfl := Option.some.inj h
    exact return_not_mem_quote _
  · cases h

theorem Bare.return_not_mem {name : String} (h : Bare name) : '\r' ∉ name.toList := fun hin =>
  absurd (h.forall_mem '\r' hin) (by decide)

/-! ## Texts and statements -/

/-- The text tells these statements, and holds no carriage return. -/
structure Tells (cs : List Char) (ss : List Statement) : Prop where
  read : ∀ n, cs.length < n → statements? n cs = some ss
  noReturn : '\r' ∉ cs

theorem tells_nil : Tells [] [] := by
  refine ⟨fun n hn => ?_, List.not_mem_nil⟩
  obtain ⟨n, rfl⟩ := Nat.exists_eq_succ_of_ne_zero (Nat.ne_zero_of_lt hn)
  rfl

theorem tells_line {name : String} {d : Data} {text : List Char} (hname : Bare name)
    (hd : scalarText? d = some text) (h : Tells more rest) :
    Tells (name.toList ++ " = ".toList ++ text ++ ['\n'] ++ more) (valueOf (name, d) :: rest) := by
  refine ⟨fun n hn => ?_, ?_⟩
  · obtain ⟨n, rfl⟩ := Nat.exists_eq_succ_of_ne_zero (Nat.ne_zero_of_lt hn)
    simp only [List.length_append, List.length_singleton] at hn
    rw [Nat.succ_eq_add_one, statements?_line hname hd, h.read n (by omega)]
    rfl
  · simp only [List.mem_append, not_or]
    exact ⟨⟨⟨⟨hname.return_not_mem, by decide⟩, return_not_mem_scalarText? hd⟩, by decide⟩,
      h.noReturn⟩

theorem tells_header {name : String} (hname : Bare name) (h : Tells more rest) :
    Tells (['\n', '['] ++ name.toList ++ [']', '\n'] ++ more)
      (.header ⟨[], name⟩ :: rest) := by
  refine ⟨fun n hn => ?_, ?_⟩
  · obtain ⟨n, rfl⟩ := Nat.exists_eq_succ_of_ne_zero (Nat.ne_zero_of_lt hn)
    simp only [List.length_append, List.length_cons] at hn
    rw [Nat.succ_eq_add_one, statements?_header hname, h.read n (by omega)]
    rfl
  · simp only [List.mem_append, not_or]
    exact ⟨⟨⟨by decide, hname.return_not_mem⟩, by decide⟩, h.noReturn⟩

/-! ## What has a written form -/

/-- The value that a member has a line for. -/
def lineOf? : Option String × Data → Option (String × Data)
  | (_, .null) => none
  | (_, .record _) => none
  | (some name, d) => some (name, d)
  | (none, _) => none

def valuesOf (ms : List (Option String × Data)) : List (String × Data) := ms.filterMap lineOf?

def tableOf? : Option String × Data → Option Table
  | (some name, .record inner) => some ⟨name, valuesOf inner⟩
  | _ => none

def tablesOf (ms : List (Option String × Data)) : List Table := ms.filterMap tableOf?

/-- The names are told apart, and none needs quotes. -/
structure Named (ms : List (Option String × Data)) : Prop where
  distinct : (ms.map Prod.fst).Nodup
  bare : ∀ m ∈ ms, ∀ name ∈ m.1, Bare name

/-- A member has no line of its own if it is null. Otherwise it has a name and a value that fits on
one line. -/
theorem memberLine?_cases (h : memberLine? m = some lines) :
    (m.2 = .null ∧ lineOf? m = none ∧ lines = []) ∨
      ∃ name d text, m = (some name, d) ∧ scalarText? d = some text ∧
        lineOf? m = some (name, d) ∧ lines = name.toList ++ " = ".toList ++ text ++ ['\n'] := by
  unfold memberLine? at h
  split at h
  · exact .inl ⟨rfl, rfl, (Option.some.inj h).symm⟩
  · rename_i name d _
    obtain ⟨text, htext, rfl⟩ := Option.map_eq_some_iff.mp h
    refine .inr ⟨name, d, text, rfl, htext, ?_, rfl⟩
    cases d <;> first | rfl | cases htext
  · cases h

theorem tableText?_cases (h : tableText? m = some lines) :
    ∃ name inner text, m = (some name, .record inner) ∧ memberLines? inner = some text ∧
      lines = ['\n', '['] ++ name.toList ++ [']', '\n'] ++ text := by
  unfold tableText? at h
  split at h
  · rename_i name inner
    obtain ⟨text, htext, rfl⟩ := Option.map_eq_some_iff.mp h
    exact ⟨name, inner, text, rfl, htext, rfl⟩
  · cases h

theorem mapM_cons_eq_some {α β : Type} {f : α → Option β} {a : α} {l : List α} {bs : List β}
    (h : (a :: l).mapM f = some bs) :
    ∃ b rest, f a = some b ∧ l.mapM f = some rest ∧ bs = b :: rest := by
  simp only [List.mapM_cons, Option.bind_eq_bind, Option.bind_eq_some_iff, Option.pure_def] at h
  obtain ⟨b, hb, rest, hrest, hbs⟩ := h
  exact ⟨b, rest, hb, hrest, (Option.some.inj hbs).symm⟩

theorem memberLines?_cons (h : memberLines? (m :: ms) = some lines) :
    ∃ line rest, memberLine? m = some line ∧ memberLines? ms = some rest ∧
      lines = line ++ rest := by
  obtain ⟨texts, htexts, rfl⟩ := Option.map_eq_some_iff.mp h
  obtain ⟨line, rest, hline, hrest, rfl⟩ := mapM_cons_eq_some htexts
  exact ⟨line, rest.flatten, hline, by rw [memberLines?, hrest]; rfl, List.flatten_cons ..⟩

/-! ## What a written text tells -/

theorem tells_lines (hnames : ∀ m ∈ ms, ∀ name ∈ m.1, Bare name)
    (h : memberLines? ms = some lines) (hmore : Tells more rest) :
    Tells (lines ++ more) ((valuesOf ms).map valueOf ++ rest) := by
  induction ms generalizing lines with
  | nil =>
    obtain rfl := Option.some.inj h
    exact hmore
  | cons m ms ih =>
    obtain ⟨hm, hms⟩ := List.forall_mem_cons.mp hnames
    obtain ⟨line, lines, hline, hlines, rfl⟩ := memberLines?_cons h
    have hrest := ih hms hlines
    rcases memberLine?_cases hline with ⟨-, hnone, rfl⟩ | ⟨name, d, text, rfl, htext, hvalue, rfl⟩
    · rw [valuesOf, List.filterMap_cons_none hnone]
      exact hrest
    · rw [valuesOf, List.filterMap_cons_some hvalue, List.append_assoc]
      exact tells_line (hm name rfl) htext hrest

theorem tells_tables {texts : List (List Char)} (hnames : ∀ m ∈ ms, ∀ name ∈ m.1, Bare name)
    (hinner : ∀ m ∈ ms, ∀ inner, m.2 = .record inner → ∀ m' ∈ inner, ∀ name ∈ m'.1, Bare name)
    (h : ms.mapM tableText? = some texts) (hmore : Tells more rest) :
    Tells (texts.flatten ++ more) ((tablesOf ms).flatMap Table.statements ++ rest) := by
  induction ms generalizing texts with
  | nil =>
    obtain rfl := Option.some.inj h
    exact hmore
  | cons m ms ih =>
    obtain ⟨hm, hms⟩ := List.forall_mem_cons.mp hnames
    obtain ⟨hfirst, hothers⟩ := List.forall_mem_cons.mp hinner
    obtain ⟨text, texts, htext, htexts, rfl⟩ := mapM_cons_eq_some h
    obtain ⟨name, inner, lines, rfl, hlines, rfl⟩ := tableText?_cases htext
    have hrest := ih hms hothers htexts
    have hvalues := tells_lines (hfirst inner rfl) hlines hrest
    have hheader := tells_header (hm name rfl) hvalues
    have htable : tablesOf ((some name, .record inner) :: ms) =
        ⟨name, valuesOf inner⟩ :: tablesOf ms := rfl
    rw [htable, List.flatMap_cons, Table.statements, List.flatten_cons]
    simpa using hheader

/-- The values of a record stand before its tables. -/
theorem print?_eq_some {text : String} (h : print? (.record ms) = some text) :
    ∃ lines texts, memberLines? (ms.filter fun m => !isTable m) = some lines ∧
      (ms.filter isTable).mapM tableText? = some texts ∧
      text = String.ofList (lines ++ texts.flatten) := by
  rw [print?] at h
  simp only [Option.bind_eq_bind, Option.bind_eq_some_iff] at h
  obtain ⟨lines, hlines, texts, htexts, htext⟩ := h
  exact ⟨lines, texts, hlines, htexts, (Option.some.inj htext).symm⟩

theorem valuesOf_filter (ms : List (Option String × Data)) :
    valuesOf (ms.filter fun m => !isTable m) = valuesOf ms := by
  rw [valuesOf, List.filterMap_filter]
  refine List.filterMap_congr fun m _ => ?_
  obtain ⟨name, d⟩ := m
  cases d <;> rfl

theorem tablesOf_filter (ms : List (Option String × Data)) :
    tablesOf (ms.filter isTable) = tablesOf ms := by
  rw [tablesOf, List.filterMap_filter]
  refine List.filterMap_congr fun m _ => ?_
  obtain ⟨name, d⟩ := m
  cases d <;> cases name <;> rfl

/-! ## Records that are written and read -/

/-- The names of a record are bare, and told apart in the record and in each of its tables. -/
structure Tidy (ms : List (Option String × Data)) : Prop where
  named : Named ms
  inner : ∀ m ∈ ms, ∀ inner, m.2 = .record inner → Named inner

/-- What a member is once it is written and read: nothing if it is null, and a table without what is
null in it. -/
theorem keeps_inner {inner : List (Option String × Data)} (h : memberLines? inner = some lines) :
    Keeps inner ((valuesOf inner).map fun m => (some m.1, m.2)) := by
  induction inner generalizing lines with
  | nil => exact .nil
  | cons m inner ih =>
    obtain ⟨line, lines, hline, hlines, rfl⟩ := memberLines?_cons h
    have hrest := ih hlines
    rcases memberLine?_cases hline with ⟨hnull, hnone, -⟩ | ⟨name, d, text, rfl, -, hvalue, -⟩
    · obtain ⟨name, d⟩ := m
      obtain rfl : d = .null := hnull
      rw [valuesOf, List.filterMap_cons_none hnone]
      exact .leftOut hrest
    · rw [valuesOf, List.filterMap_cons_some hvalue]
      exact .told (.same d) hrest

theorem lineOf?_of_table (h : isTable m = true) : lineOf? m = none := by
  obtain ⟨name, d⟩ := m
  cases d <;> first | rfl | cases h

theorem tableOf?_of_not_table (h : isTable m ≠ true) : tableOf? m = none := by
  obtain ⟨name, d⟩ := m
  cases d <;> first | exact absurd rfl h | cases name <;> rfl

/-- A member has a written form, as a line or as a table. -/
def Writable (m : Option String × Data) : Prop :=
  if isTable m then (tableText? m).isSome else (memberLine? m).isSome

/-- The values and the tables are what is kept of a record, in another order. -/
theorem keeps_sheet (h : ∀ m ∈ ms, Writable m) :
    ∃ kept, Keeps ms kept ∧
      ((valuesOf ms).map (fun m => (some m.1, m.2)) ++
        (tablesOf ms).map fun t => (some t.name, Data.object t.values)).Perm kept := by
  induction ms with
  | nil => exact ⟨[], .nil, .nil⟩
  | cons m ms ih =>
    obtain ⟨hm, hms⟩ := List.forall_mem_cons.mp h
    obtain ⟨kept, hkeeps, hperm⟩ := ih hms
    rw [valuesOf, tablesOf]
    by_cases htable : isTable m = true
    · rw [Writable, if_pos htable] at hm
      obtain ⟨text, htext⟩ := Option.isSome_iff_exists.mp hm
      obtain ⟨name, inner, lines, rfl, hlines, -⟩ := tableText?_cases htext
      have hinner : Retold (.record inner) (.object (valuesOf inner)) :=
        .record (keeps_inner hlines) (List.forall_mem_nil _) (by rw [List.append_nil])
      rw [List.filterMap_cons_none (lineOf?_of_table htable)]
      exact ⟨_, .told hinner hkeeps, List.perm_middle.trans (hperm.cons _)⟩
    · rw [Writable, if_neg htable] at hm
      obtain ⟨line, hline⟩ := Option.isSome_iff_exists.mp hm
      rw [List.filterMap_cons_none (tableOf?_of_not_table htable)]
      rcases memberLine?_cases hline with ⟨hnull, hnone, -⟩ | ⟨name, d, text, rfl, -, hvalue, -⟩
      · obtain ⟨name, d⟩ := m
        obtain rfl : d = .null := hnull
        rw [List.filterMap_cons_none hnone]
        exact ⟨kept, .leftOut hkeeps, hperm⟩
      · rw [List.filterMap_cons_some hvalue]
        exact ⟨_, .told (.same d) hkeeps, hperm.cons _⟩

/-- What the values and the tables tell is what the record told. -/
theorem retold_sheet (h : ∀ m ∈ ms, Writable m) :
    Retold (.record ms) (sheet (valuesOf ms) (tablesOf ms)) := by
  obtain ⟨kept, hkeeps, hperm⟩ := keeps_sheet h
  refine .record hkeeps (List.forall_mem_nil _) ?_
  rw [List.append_nil, List.map_append, List.map_map]
  exact hperm

/-! ## Line breaks and marks -/

theorem lineBreaks_of_no_return (h : '\r' ∉ cs) : lineBreaks cs = cs := by
  induction cs with
  | nil => rfl
  | cons c cs ih =>
    have hc : c ≠ '\r' := fun heq => h (heq ▸ List.mem_cons_self)
    rw [lineBreaks, ih fun hin => h (List.mem_cons_of_mem _ hin)]
    intro _ heq
    exact absurd heq hc

/-- No statement begins with a byte order mark. -/
theorem skipMark_of_tells (h : Tells cs ss) : skipMark cs = cs := by
  unfold skipMark
  split
  · rename_i cs
    have hnone : statements? (('\ufeff' :: cs).length + 1) ('\ufeff' :: cs) = none := rfl
    rw [h.read _ (Nat.lt_succ_self _)] at hnone
    cases hnone
  · rfl

/-! ## Names -/

theorem name_of_lineOf? {v : String × Data} (h : lineOf? m = some v) : m.1 = some v.1 := by
  unfold lineOf? at h
  split at h <;> cases h
  rfl

theorem name_of_tableOf? {t : Table} (h : tableOf? m = some t) :
    ∃ inner, m = (some t.name, .record inner) ∧ t.values = valuesOf inner := by
  unfold tableOf? at h
  split at h
  · obtain rfl := Option.some.inj h
    exact ⟨_, rfl, rfl⟩
  · cases h

theorem mem_names {name : String}
    (h : name ∈ (valuesOf ms).map Prod.fst ++ (tablesOf ms).map Table.name) :
    some name ∈ ms.map Prod.fst := by
  rcases List.mem_append.mp h with h | h
  · obtain ⟨v, hv, rfl⟩ := List.mem_map.mp h
    obtain ⟨m, hm, hline⟩ := List.mem_filterMap.mp hv
    exact name_of_lineOf? hline ▸ List.mem_map_of_mem hm
  · obtain ⟨t, ht, rfl⟩ := List.mem_map.mp h
    obtain ⟨m, hm, htable⟩ := List.mem_filterMap.mp ht
    obtain ⟨inner, rfl, -⟩ := name_of_tableOf? htable
    exact List.mem_map_of_mem hm

/-- Values and tables have names of their own if the members have. -/
theorem nodup_names (h : (ms.map Prod.fst).Nodup) :
    ((valuesOf ms).map Prod.fst ++ (tablesOf ms).map Table.name).Nodup := by
  induction ms with
  | nil => exact List.nodup_nil
  | cons m ms ih =>
    obtain ⟨hnew, hdistinct⟩ := List.nodup_cons.mp h
    have hrest := ih hdistinct
    rw [valuesOf, tablesOf]
    by_cases htable : isTable m = true
    · rw [List.filterMap_cons_none (lineOf?_of_table htable)]
      cases ht : tableOf? m with
      | none =>
        rw [List.filterMap_cons_none ht]
        exact hrest
      | some t =>
        obtain ⟨inner, rfl, -⟩ := name_of_tableOf? ht
        rw [List.filterMap_cons_some ht]
        exact List.nodup_middle.mpr (List.nodup_cons.mpr ⟨fun hin => hnew (mem_names hin), hrest⟩)
    · rw [List.filterMap_cons_none (tableOf?_of_not_table htable)]
      cases hv : lineOf? m with
      | none =>
        rw [List.filterMap_cons_none hv]
        exact hrest
      | some v =>
        have hname := name_of_lineOf? hv
        rw [List.filterMap_cons_some hv]
        exact List.nodup_cons.mpr ⟨fun hin => hnew (hname ▸ mem_names hin), hrest⟩

/-! ## The law of settings files -/

theorem mapM_isSome_iff {α β : Type} {f : α → Option β} {l : List α} :
    (l.mapM f).isSome ↔ ∀ a ∈ l, (f a).isSome := by
  induction l with
  | nil => simp
  | cons a l ih =>
    rw [List.forall_mem_cons, ← ih, List.mapM_cons]
    cases f a <;> cases l.mapM f <;> simp

/-- A record has a written form if each of its members has. -/
theorem print?_isSome_iff : (print? (.record ms)).isSome ↔ ∀ m ∈ ms, Writable m := by
  have hlines : (memberLines? (ms.filter fun m => !isTable m)).isSome ↔
      ∀ m ∈ ms, isTable m ≠ true → (memberLine? m).isSome := by
    rw [memberLines?, Option.isSome_map, mapM_isSome_iff]
    simp
  have htables : ((ms.filter isTable).mapM tableText?).isSome ↔
      ∀ m ∈ ms, isTable m = true → (tableText? m).isSome := by
    rw [mapM_isSome_iff]
    simp
  have hboth : (print? (.record ms)).isSome ↔
      (memberLines? (ms.filter fun m => !isTable m)).isSome ∧
        ((ms.filter isTable).mapM tableText?).isSome := by
    rw [print?]
    cases memberLines? (ms.filter fun m => !isTable m) <;>
      cases (ms.filter isTable).mapM tableText? <;> simp
  rw [hboth, hlines, htables, ← forall₂_and]
  refine forall₂_congr fun m _ => ?_
  unfold Writable
  by_cases h : isTable m = true <;> simp [h]

/-- A table has a written form if each of its members has a line, or needs none. -/
theorem writable_table {name : String} :
    Writable (some name, .record ms) ↔ ∀ m ∈ ms, (memberLine? m).isSome := by
  have htable : isTable (some name, .record ms) = true := rfl
  rw [Writable, if_pos htable, tableText?, Option.isSome_map, memberLines?, Option.isSome_map,
    mapM_isSome_iff]

/-- A record that is written is read as a record that tells the same. -/
theorem read?_print? {text : String} (htidy : Tidy ms) (h : print? (.record ms) = some text) :
    ∃ d, read? text = some d ∧ Retold (.record ms) d := by
  have hwritable := print?_isSome_iff.mp (Option.isSome_of_eq_some h)
  obtain ⟨lines, texts, hlines, htexts, rfl⟩ := print?_eq_some h
  have hbare {p : Option String × Data → Bool} : ∀ m ∈ ms.filter p, ∀ name ∈ m.1, Bare name :=
    fun m hm => htidy.named.bare m (List.mem_of_mem_filter hm)
  have hinner : ∀ m ∈ ms.filter isTable, ∀ inner, m.2 = .record inner →
      ∀ m' ∈ inner, ∀ name ∈ m'.1, Bare name :=
    fun m hm inner heq => (htidy.inner m (List.mem_of_mem_filter hm) inner heq).bare
  have htells := tells_lines hbare hlines (tells_tables hbare hinner htexts tells_nil)
  rw [valuesOf_filter, tablesOf_filter, List.append_nil, List.append_nil] at htells
  have hvalues : ∀ t ∈ tablesOf ms, (t.values.map Prod.fst).Nodup := fun t ht => by
    obtain ⟨m, hm, htable⟩ := List.mem_filterMap.mp ht
    obtain ⟨inner, rfl, heq⟩ := name_of_tableOf? htable
    rw [heq]
    exact (List.nodup_append.mp (nodup_names (htidy.inner _ hm inner rfl).distinct)).1
  have hsheet := ofStatements?_sheet (nodup_names htidy.named.distinct) hvalues
  refine ⟨_, ?_, retold_sheet hwritable⟩
  rw [read?, String.toList_ofList, skipMark_of_tells htells,
    lineBreaks_of_no_return htells.noReturn, htells.read _ (Nat.lt_succ_self _), Option.bind_some,
    hsheet]

end Metronome.Toml
