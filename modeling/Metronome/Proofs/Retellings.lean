-- Records that are told again. The members of a record may come in any order,
-- a member that is null may stay away, and members of other names may come in
-- between. What reads the one record reads the other as the same value.
import Metronome.Stored
import Mathlib.Data.List.Forall2
import Mathlib.Data.List.Nodup
import Mathlib.Data.List.Perm.Basic
import Mathlib.Data.Option.Basic

namespace Metronome.Data

variable {α : Type} {d d' : Data} {v : Option Data} {a : α} {read : Data → Option α}
  {name : String}

/-! ## Retellings -/

mutual

/-- The second tells the same as the first. -/
inductive Retold : Data → Data → Prop where
  | same (d : Data) : Retold d d
  | record {members kept added all : List (Option String × Data)} (keeps : Keeps members kept)
      (unknown : ∀ m ∈ added, m.1.isSome ∧ m.1 ∉ members.map Prod.fst)
      (order : all.Perm (kept ++ added)) : Retold (.record members) (.record all)

/-- Every member is told again under its name, or it is null and left out. -/
inductive Keeps : List (Option String × Data) → List (Option String × Data) → Prop where
  | nil : Keeps [] []
  | told {name : Option String} {d d' : Data} {ms kept : List (Option String × Data)}
      (value : Retold d d') (rest : Keeps ms kept) : Keeps ((name, d) :: ms) ((name, d') :: kept)
  | leftOut {name : Option String} {ms kept : List (Option String × Data)} (rest : Keeps ms kept) :
      Keeps ((name, .null) :: ms) kept

end

def isRecord : Data → Bool
  | .record _ => true
  | _ => false

/-- Only a record can be told in another way. -/
theorem Retold.eq_of_not_record (h : Retold d d') (hd : d.isRecord = false) : d' = d := by
  cases h with
  | same => rfl
  | record => cases hd

theorem Retold.ne_null (h : Retold d d') (hd : d ≠ .null) : d' ≠ .null := by
  cases h with
  | same => exact hd
  | record => exact nofun

theorem Keeps.refl (ms : List (Option String × Data)) : Keeps ms ms := by
  induction ms with
  | nil => exact .nil
  | cons m ms ih => exact .told (.same m.2) ih

theorem Keeps.names {ms kept : List (Option String × Data)} (h : Keeps ms kept) :
    ∀ m ∈ kept, m.1 ∈ ms.map Prod.fst := by
  induction ms generalizing kept with
  | nil =>
    cases h
    exact nofun
  | cons m ms ih =>
    cases h with
    | told _ rest =>
      intro m hm
      rcases List.mem_cons.mp hm with rfl | hm
      · exact List.mem_cons_self
      · exact List.mem_cons_of_mem _ (ih rest m hm)
    | leftOut rest => exact fun m hm => List.mem_cons_of_mem _ (ih rest m hm)

/-! ## Members by name -/

/-- What stands under the name of a member: its value, told again, or nothing for null. -/
inductive Found : Data → Option Data → Prop where
  | told {d d' : Data} (value : Retold d d') : Found d (some d')
  | leftOut : Found .null none

theorem Found.of_solid (h : Found d v) (hd : d ≠ .null) : ∃ d', v = some d' ∧ Retold d d' := by
  cases h with
  | told value => exact ⟨_, rfl, value⟩
  | leftOut => exact absurd rfl hd

/-- The members under a name. -/
def named (name : String) (ms : List (Option String × Data)) : List (Option String × Data) :=
  ms.filter fun m => m.1 == some name

theorem named_append (ms more : List (Option String × Data)) :
    named name (ms ++ more) = named name ms ++ named name more :=
  List.filter_append ..

theorem named_cons_same (d : Data) (ms : List (Option String × Data)) :
    named name ((some name, d) :: ms) = (some name, d) :: named name ms :=
  List.filter_cons_of_pos (beq_self_eq_true _)

theorem named_cons_other {key : Option String} (h : key ≠ some name) (d : Data)
    (ms : List (Option String × Data)) : named name ((key, d) :: ms) = named name ms :=
  List.filter_cons_of_neg (by simpa using h)

theorem named_eq_nil {ms : List (Option String × Data)} (h : ∀ m ∈ ms, m.1 ≠ some name) :
    named name ms = [] :=
  List.filter_eq_nil_iff.mpr fun m hm heq => h m hm (beq_iff_eq.mp heq)

theorem Keeps.named_eq {ms kept : List (Option String × Data)} (h : Keeps ms kept)
    (hnames : (ms.map Prod.fst).Nodup) (hm : (some name, d) ∈ ms) :
    ∃ v, Found d v ∧ named name kept = v.toList.map fun d' => (some name, d') := by
  induction ms generalizing kept with
  | nil => cases hm
  | cons m ms ih =>
    obtain ⟨hnew, hdistinct⟩ := List.nodup_cons.mp hnames
    rcases List.mem_cons.mp hm with rfl | htail
    · have hgone {rest : List (Option String × Data)} (hrest : Keeps ms rest) :
          named name rest = [] :=
        named_eq_nil fun m hm heq => hnew (heq ▸ hrest.names m hm)
      cases h with
      | told value rest => exact ⟨_, .told value, by rw [named_cons_same, hgone rest]; rfl⟩
      | leftOut rest => exact ⟨none, .leftOut, hgone rest⟩
    · have hother : m.1 ≠ some name := fun heq => hnew (List.mem_map.mpr ⟨_, htail, heq.symm⟩)
      cases h with
      | told value rest =>
        obtain ⟨v, hfound, hnamed⟩ := ih rest hdistinct htail
        exact ⟨v, hfound, by rw [named_cons_other hother, hnamed]⟩
      | leftOut rest => exact ih rest hdistinct htail

/-- Under the name of each member stands what it told. -/
theorem single?_retold {ms kept added all : List (Option String × Data)} (hkeeps : Keeps ms kept)
    (hnames : (ms.map Prod.fst).Nodup) (hunknown : ∀ m ∈ added, m.1 ∉ ms.map Prod.fst)
    (horder : all.Perm (kept ++ added)) (hm : (some name, d) ∈ ms) :
    ∃ v, single? all name = some v ∧ Found d v := by
  obtain ⟨v, hfound, hkept⟩ := hkeeps.named_eq hnames hm
  have hadded : named name added = [] :=
    named_eq_nil fun m hin heq => hunknown m hin (heq ▸ List.mem_map_of_mem hm)
  have hall : (named name all).Perm (v.toList.map fun d' => (some name, d')) := by
    have hperm : (named name all).Perm (named name (kept ++ added)) := horder.filter _
    rwa [named_append, hkept, hadded, List.append_nil] at hperm
  refine ⟨v, ?_, hfound⟩
  rw [single?, ← named]
  cases v with
  | none => rw [List.perm_nil.mp hall]
  | some d' => rw [List.perm_singleton.mp hall]

theorem mapM_single? {all : List (Option String × Data)} {ms : List (String × Data)}
    (h : ∀ m ∈ ms, ∃ v, single? all m.1 = some v ∧ Found m.2 v) :
    ∃ vs, (ms.map Prod.fst).mapM (single? all) = some vs ∧
      List.Forall₂ Found (ms.map Prod.snd) vs := by
  induction ms with
  | nil => exact ⟨[], rfl, .nil⟩
  | cons m ms ih =>
    obtain ⟨v, hv, hfound⟩ := h m List.mem_cons_self
    obtain ⟨vs, hvs, hrest⟩ := ih fun m hm => h m (List.mem_cons_of_mem _ hm)
    exact ⟨v :: vs, by simp [hv, hvs], .cons hfound hrest⟩

/-- A retelling of a record is a record of what was kept and what was added. -/
theorem Retold.of_record {ms : List (Option String × Data)} (h : Retold (.record ms) d) :
    ∃ kept added all, d = .record all ∧ Keeps ms kept ∧
      (∀ m ∈ added, m.1.isSome ∧ m.1 ∉ ms.map Prod.fst) ∧ all.Perm (kept ++ added) := by
  cases h with
  | same => exact ⟨ms, [], ms, rfl, .refl ms, nofun, by rw [List.append_nil]⟩
  | record hkeeps hunknown horder => exact ⟨_, _, _, rfl, hkeeps, hunknown, horder⟩

/-- What is asked of a record by its names is found in each retelling. -/
theorem members?_retold (f : Format) {ms : List (String × Data)}
    (hnames : (ms.map Prod.fst).Nodup) (h : Retold (.object ms) d) :
    ∃ vs, members? f (ms.map Prod.fst) d = some vs ∧ List.Forall₂ Found (ms.map Prod.snd) vs := by
  obtain ⟨kept, added, all, rfl, hkeeps, hunknown, horder⟩ := h.of_record
  have hdistinct : ((ms.map fun m => (some m.1, m.2)).map Prod.fst).Nodup := by
    rw [List.map_map]
    have hsome := List.Nodup.map (Option.some_injective String) hnames
    rwa [List.map_map] at hsome
  have hvalid : all.all fun m => m.1.isSome := by
    refine List.all_eq_true.mpr fun m hm => ?_
    rcases List.mem_append.mp (horder.mem_iff.mp hm) with hin | hin
    · obtain ⟨m', hm', heq⟩ := List.mem_map.mp (hkeeps.names m hin)
      obtain ⟨_, -, rfl⟩ := List.mem_map.mp hm'
      exact heq ▸ rfl
    · exact (hunknown m hin).1
  rw [members?, if_pos hvalid]
  refine mapM_single? fun m hm => ?_
  exact single?_retold hkeeps hdistinct (fun m hm => (hunknown m hm).2) horder
    (List.mem_map.mpr ⟨m, hm, rfl⟩)

/-! ## Reading again -/

/-- However the data is told, it is read as the value. -/
structure Reads (read : Data → Option α) (d : Data) (a : α) : Prop where
  solid : d ≠ .null
  retold : ∀ d', Retold d d' → read d' = some a

theorem Reads.required (h : Reads read d a) (hv : Found d v) : required? read v = some a := by
  obtain ⟨d', rfl, hvalue⟩ := hv.of_solid h.solid
  exact h.retold d' hvalue

theorem Reads.missing {o : Option α} {write : α → Data} (h : ∀ a ∈ o, Reads read (write a) a)
    (hv : Found (ofOption write o) v) : missing? read v = some o := by
  cases o with
  | none =>
    cases hv with
    | told value =>
      rw [value.eq_of_not_record rfl]
      rfl
    | leftOut => rfl
  | some a =>
    have hreads := h a rfl
    obtain ⟨d', rfl, hvalue⟩ := hv.of_solid hreads.solid
    have hread := hreads.retold _ hvalue
    have hnull := hvalue.ne_null hreads.solid
    rw [missing?, optional?, hread]
    · rfl
    · exact hnull

/-- What is no record is told in one way only. -/
theorem reads_of_not_record (hd : d.isRecord = false) (hnull : d ≠ .null) (h : read d = some a) :
    Reads read d a :=
  ⟨hnull, fun d' hd' => by rw [hd'.eq_of_not_record hd, h]⟩

theorem reads_bool (b : Bool) : Reads asBool? (.bool b) b := reads_of_not_record rfl nofun rfl

theorem reads_text (s : String) : Reads asText? (.string s) s := reads_of_not_record rfl nofun rfl

theorem reads_signed {n : Int} (h : Signed.Fits n) : Reads signed? (.integer n) n :=
  reads_of_not_record rfl nofun (if_pos h)

theorem reads_unsigned {n : Nat} (h : Unsigned.Fits n) : Reads unsigned? (ofNat n) n :=
  reads_of_not_record rfl nofun (if_pos ⟨Int.natCast_nonneg n, h⟩)

theorem reads_choice (f : Format) {ofName? : String → Option α} (h : ofName? name = some a) :
    Reads (choice? f ofName?) (.string name) a := reads_of_not_record rfl nofun h

/-- A record is read as a value if its members, however they are told, make that value up. -/
theorem reads_record (f : Format) (names : List String) (ds : List Data) (hnames : names.Nodup)
    (hlength : names.length = ds.length)
    (h : ∀ d vs, members? f names d = some vs → List.Forall₂ Found ds vs → read d = some a) :
    Reads read (.object (names.zip ds)) a := by
  refine ⟨nofun, fun d hd => ?_⟩
  have hfirst : (names.zip ds).map Prod.fst = names := List.map_fst_zip (by omega)
  have hsecond : (names.zip ds).map Prod.snd = ds := List.map_snd_zip (by omega)
  obtain ⟨vs, hvs, hfound⟩ := members?_retold f (by rwa [hfirst]) hd
  rw [hfirst] at hvs
  rw [hsecond] at hfound
  exact h d vs hvs hfound

end Metronome.Data
