-- What the statements of a settings file build. A value comes last in the table
-- that is open, and a header opens a table behind all others, as long as each
-- name is new where it stands.
import Metronome.Toml.Table
import Mathlib.Data.List.Nodup

namespace Metronome.Toml

variable {key : String} {node next : Node} {ms inner : Members} {current : List String}

/-! ## New names -/

theorem get?_new (h : key ∉ ms.map Prod.fst) : ms.get? key = none := by
  refine List.lookup_eq_none_iff.mpr fun m hm => ?_
  have hne : key ≠ m.1 := fun heq => h (heq ▸ List.mem_map_of_mem hm)
  simpa using hne

theorem set_new (h : key ∉ ms.map Prod.fst) : ms.set key node = ms ++ [(key, node)] := by
  induction ms with
  | nil => rfl
  | cons m ms ih =>
    have hne : m.1 ≠ key := fun heq => h (heq ▸ List.mem_cons_self)
    rw [Members.set, if_neg hne, ih fun hin => h (List.mem_cons_of_mem _ hin)]
    rfl

theorem get?_last (h : key ∉ ms.map Prod.fst) :
    Members.get? key (ms ++ [(key, node)]) = some node := by
  have hnone : ms.lookup key = none := get?_new h
  rw [Members.get?, List.lookup_append, hnone]
  simp

theorem set_last (h : key ∉ ms.map Prod.fst) :
    Members.set key next (ms ++ [(key, node)]) = ms ++ [(key, next)] := by
  induction ms with
  | nil => simp [Members.set]
  | cons m ms ih =>
    have hne : m.1 ≠ key := fun heq => h (heq ▸ List.mem_cons_self)
    rw [List.cons_append, Members.set, if_neg hne, ih fun hin => h (List.mem_cons_of_mem _ hin)]
    rfl

/-! ## Values -/

/-- The statement of a value. -/
def valueOf (m : String × Data) : Statement := .value ⟨[], m.1⟩ m.2

/-- What becomes of it. -/
def nodeOf (m : String × Data) : String × Node := (m.1, .value m.2)

/-- The place of the open table among all members: a change of the table is a change there. -/
def IsPlace (current : List String) (place : Members → Members) : Prop :=
  ∀ f inner, Members.alter? f current (place inner) = (f inner).map place

theorem isPlace_root : IsPlace [] id := fun f inner => by
  rw [Members.alter?, Option.map_id]
  rfl

theorem isPlace_last (h : key ∉ ms.map Prod.fst) :
    IsPlace [key] fun inner => ms ++ [(key, .table .opened inner)] := by
  intro f inner
  rw [Members.alter?, get?_last h]
  simp only [Members.alter?, set_last h]

/-- Values under new names are added to the open table in their order. -/
theorem foldlM_values {place : Members → Members} (hplace : IsPlace current place)
    (inner : Members) (values : List (String × Data))
    (hnames : (inner.map Prod.fst ++ values.map Prod.fst).Nodup) :
    (values.map valueOf).foldlM Draft.after? ⟨place inner, current⟩ =
      some ⟨place (inner ++ values.map nodeOf), current⟩ := by
  induction values generalizing inner with
  | nil => rw [List.map_nil, List.map_nil, List.append_nil, List.foldlM_nil, Option.pure_def]
  | cons m values ih =>
    have hmiddle := List.nodup_middle.mp hnames
    have hnew : m.1 ∉ inner.map Prod.fst := fun hin =>
      (List.nodup_cons.mp hmiddle).1 (List.mem_append_left _ hin)
    have hput : Members.put? m.2 .opened [] m.1 inner = some (inner ++ [nodeOf m]) := by
      simp [Members.put?, Members.add?, get?_new hnew, set_new hnew, nodeOf]
    have hstep : Draft.after? ⟨place inner, current⟩ (valueOf m) =
        some ⟨place (inner ++ [nodeOf m]), current⟩ := by
      have halter := hplace (Members.put? m.2 .opened [] m.1) inner
      rw [hput] at halter
      simp only [Draft.after?, valueOf, halter, Option.map_some]
    have hrest := ih (inner ++ [nodeOf m]) (by simpa [nodeOf] using hnames)
    rw [List.map_cons, List.foldlM_cons, hstep]
    simpa using hrest

/-! ## Tables -/

/-- A table of values with its header. -/
structure Table where
  name : String
  values : List (String × Data)

namespace Table

def statements (t : Table) : List Statement := .header ⟨[], t.name⟩ :: t.values.map valueOf

def member (t : Table) : String × Data := (t.name, .object t.values)

def toNode (t : Table) : String × Node := (t.name, .table .opened (t.values.map nodeOf))

end Table

theorem foldlM_table {t : Table} (hnew : t.name ∉ ms.map Prod.fst)
    (hvalues : (t.values.map Prod.fst).Nodup) :
    t.statements.foldlM Draft.after? ⟨ms, current⟩ = some ⟨ms ++ [t.toNode], [t.name]⟩ := by
  have hheader : Draft.after? ⟨ms, current⟩ (.header ⟨[], t.name⟩) =
      some ⟨ms ++ [(t.name, .table .opened [])], [t.name]⟩ := by
    simp [Draft.after?, Members.alter?, Members.open?, get?_new hnew, set_new hnew]
  have hrest := foldlM_values (isPlace_last hnew) [] t.values (by simpa using hvalues)
  rw [Table.statements, List.foldlM_cons, hheader]
  exact hrest

theorem foldlM_tables (ms : Members) (current : List String) (tables : List Table)
    (hnames : (ms.map Prod.fst ++ tables.map Table.name).Nodup)
    (hvalues : ∀ t ∈ tables, (t.values.map Prod.fst).Nodup) :
    ∃ last, (tables.flatMap Table.statements).foldlM Draft.after? ⟨ms, current⟩ =
      some ⟨ms ++ tables.map Table.toNode, last⟩ := by
  induction tables generalizing ms current with
  | nil => exact ⟨current, by simp⟩
  | cons t tables ih =>
    obtain ⟨ht, htables⟩ := List.forall_mem_cons.mp hvalues
    have hmiddle := List.nodup_middle.mp hnames
    have hnew : t.name ∉ ms.map Prod.fst := fun hin =>
      (List.nodup_cons.mp hmiddle).1 (List.mem_append_left _ hin)
    obtain ⟨last, hrest⟩ := ih (ms ++ [t.toNode]) [t.name] (by simpa [Table.toNode] using hnames)
      htables
    refine ⟨last, ?_⟩
    rw [List.flatMap_cons, List.foldlM_append, foldlM_table hnew ht]
    simpa using hrest

/-! ## Files -/

/-- The record of values and tables. -/
def sheet (values : List (String × Data)) (tables : List Table) : Data :=
  .object (values ++ tables.map Table.member)

theorem membersToData_append (ms more : Members) :
    membersToData (ms ++ more) = membersToData ms ++ membersToData more := by
  induction ms with
  | nil => rfl
  | cons m ms ih => rw [List.cons_append, membersToData, ih, membersToData, List.cons_append]

theorem membersToData_values (values : List (String × Data)) :
    membersToData (values.map nodeOf) = values.map fun m => (some m.1, m.2) := by
  induction values with
  | nil => rfl
  | cons m values ih => rw [List.map_cons, nodeOf, membersToData, ih, Node.toData, List.map_cons]

theorem membersToData_tables (tables : List Table) :
    membersToData (tables.map Table.toNode) =
      tables.map fun t => (some t.name, .object t.values) := by
  induction tables with
  | nil => rfl
  | cons t tables ih =>
    rw [List.map_cons, Table.toNode, membersToData, ih, Node.toData, membersToData_values,
      List.map_cons]
    rfl

/-- Values and then tables, all under names of their own, are a file of just these. -/
theorem ofStatements?_sheet {values : List (String × Data)} {tables : List Table}
    (hnames : (values.map Prod.fst ++ tables.map Table.name).Nodup)
    (hvalues : ∀ t ∈ tables, (t.values.map Prod.fst).Nodup) :
    ofStatements? (values.map valueOf ++ tables.flatMap Table.statements) =
      some (sheet values tables) := by
  have hfirst := foldlM_values isPlace_root [] values
    (by simpa using (List.nodup_append.mp hnames).1)
  obtain ⟨last, hrest⟩ := foldlM_tables (values.map nodeOf) [] tables
    (by simpa [nodeOf, Function.comp_def] using hnames) hvalues
  have hwhole : (values.map valueOf ++ tables.flatMap Table.statements).foldlM Draft.after? {} =
      some ⟨values.map nodeOf ++ tables.map Table.toNode, last⟩ := by
    rw [List.foldlM_append]
    exact (congrArg (· >>= _) hfirst).trans hrest
  rw [ofStatements?, hwhole, Option.map_some, membersToData_append, membersToData_values,
    membersToData_tables, sheet, Data.object, List.map_append, List.map_map]
  rfl

end Metronome.Toml
