-- Settings that are saved and loaded again. A settings file has no form for a
-- whole number above the signed range. All other settings come back as they
-- were, whatever texts they hold.
import Metronome.SettingsFile
import Metronome.Proofs.Pause.Lines
import Metronome.Proofs.Stored
import Metronome.Proofs.Toml.Files

namespace Metronome

open Data Toml

variable {s : Settings} {text : String}

/-! ## Names -/

theorem Toml.named_zip {names : List String} (ds : List Data) (hdistinct : names.Nodup)
    (hbare : ∀ name ∈ names, Bare name) (hlength : names.length = ds.length) :
    Named ((names.zip ds).map fun m => (some m.1, m.2)) := by
  have hnames : ((names.zip ds).map fun m => (some m.1, m.2)).map Prod.fst = names.map some := by
    rw [List.map_map]
    change (names.zip ds).map (some ∘ Prod.fst) = _
    rw [← List.map_map, List.map_fst_zip (by omega)]
  refine ⟨?_, fun m hm name hname => ?_⟩
  · rw [hnames]
    exact List.Nodup.map (Option.some_injective String) hdistinct
  · have hin : m.1 ∈ names.map some := hnames ▸ List.mem_map_of_mem hm
    obtain ⟨other, hother, heq⟩ := List.mem_map.mp hin
    rw [← heq] at hname
    exact Option.some.inj hname ▸ hbare other hother

theorem SchedulerSettings.named (s : SchedulerSettings) {ms : List (Option String × Data)}
    (h : s.toData = .record ms) : Named ms := by
  obtain rfl := Data.record.inj h
  exact named_zip _ (by decide) (by decide) rfl

theorem PauseSettings.named (s : PauseSettings) {ms : List (Option String × Data)}
    (h : s.toData = .record ms) : Named ms := by
  obtain rfl := Data.record.inj h
  exact named_zip _ (by decide) (by decide) rfl

/-- All names of the settings can be written as they are. -/
theorem Settings.tidy (s : Settings) {ms : List (Option String × Data)}
    (h : s.toData = .record ms) : Tidy ms := by
  obtain rfl := Data.record.inj h
  refine ⟨named_zip _ (by decide) (by decide) rfl, ?_⟩
  simp only [memberNames, List.zip_cons_cons, List.map_cons, List.forall_mem_cons]
  exact ⟨nofun, nofun, nofun, fun _ => s.scheduler.named, fun _ => s.pauses.named,
    List.forall_mem_nil _⟩

/-! ## Numbers -/

def SchedulerSettings.integers (s : SchedulerSettings) : List Int :=
  s.core.toList.map Int.ofNat ++ [(s.awaitPollMillis : Int), (s.maxStamps : Int)]

def PauseSettings.integers (s : PauseSettings) : List Int :=
  [(s.horizonMillis : Int), (s.pollMillis : Int)]

/-- Every whole number of the settings. -/
def Settings.integers (s : Settings) : List Int :=
  s.tickLength :: (s.scheduler.integers ++ s.pauses.integers)

variable {name : String}

theorem line_bool (b : Bool) : (memberLine? (some name, .bool b)).isSome := rfl

theorem line_string (s : String) : (memberLine? (some name, .string s)).isSome := rfl

theorem line_integer (n : Int) : (memberLine? (some name, .integer n)).isSome ↔ Signed.Fits n := by
  simp only [memberLine?, scalarText?, Option.isSome_map]
  split <;> simp [*]

theorem line_optional_integer (o : Option Nat) :
    (memberLine? (some name, ofOption ofNat o)).isSome ↔ ∀ n ∈ o.toList, Signed.Fits n := by
  cases o with
  | none => exact iff_of_true rfl (List.forall_mem_nil _)
  | some n => simpa [ofOption, ofNat] using line_integer (n : Int)

theorem line_optional_string (o : Option String) :
    (memberLine? (some name, ofOption string o)).isSome := by
  cases o <;> rfl

theorem SchedulerSettings.writable_iff (s : SchedulerSettings) :
    Writable (some name, s.toData) ↔ ∀ n ∈ s.integers, Signed.Fits n := by
  refine writable_table.trans ?_
  simp only [memberNames, List.zip_cons_cons, List.map_cons, List.forall_mem_cons, line_bool,
    line_optional_integer, ofNat, line_integer, line_string, integers, List.forall_mem_append,
    List.forall_mem_map]
  simp

theorem PauseSettings.writable_iff (s : PauseSettings) :
    Writable (some name, s.toData) ↔ ∀ n ∈ s.integers, Signed.Fits n := by
  refine writable_table.trans ?_
  simp only [memberNames, List.zip_cons_cons, List.map_cons, List.forall_mem_cons, line_bool,
    line_optional_string, ofNat, line_integer, integers]
  simp

/-- Settings have a written form if each of their numbers has one. -/
theorem Settings.toText?_isSome_iff (s : Settings) :
    s.toText?.isSome ↔ ∀ n ∈ s.integers, Signed.Fits n := by
  have hlength : Writable (some "tick_length", .integer s.tickLength) ↔ Signed.Fits s.tickLength :=
    line_integer s.tickLength
  have hunit : Writable (some "time_unit", s.unit.toData) := rfl
  have hmode : Writable (some "starting_mode", s.startingMode.toData) := rfl
  refine print?_isSome_iff.trans ?_
  simp only [memberNames, List.zip_cons_cons, List.map_cons, List.forall_mem_cons, hlength, hunit,
    hmode, SchedulerSettings.writable_iff, PauseSettings.writable_iff, integers,
    List.forall_mem_append]
  simp

/-! ## Saving and loading -/

theorem Settings.ofText?_toText? (h : s.Storable) (htext : s.toText? = some text) :
    Settings.ofText? text = some s := by
  obtain ⟨ms, hms⟩ : ∃ ms, s.toData = .record ms := ⟨_, rfl⟩
  rw [Settings.toText?, hms] at htext
  obtain ⟨d, hread, hretold⟩ := read?_print? (s.tidy hms) htext
  rw [Settings.ofText?, hread, Option.bind_some]
  exact (Settings.reads .toml h).retold d (hms ▸ hretold)

theorem Settings.least_le_of_mem_integers (h : s.Storable) :
    ∀ n ∈ s.integers, Signed.least ≤ n := by
  have hzero : Signed.least ≤ 0 := by decide
  have hnat (n : Nat) : Signed.least ≤ n := by omega
  refine List.forall_mem_cons.mpr ⟨h.tickLength.1, ?_⟩
  simp [SchedulerSettings.integers, PauseSettings.integers, or_imp, forall_and, hnat]

/-- Settings whose numbers have a signed form are saved, and come back when the file is loaded. If
one has none, nothing is written. -/
theorem saved_settings_come_back {s : Settings} (h : s.Storable) (content : Option Text.Bytes) :
    ((∀ n ∈ s.integers, n ≤ Signed.greatest) →
        ∃ written, s.save true content = (.ok (), some written) ∧
          Settings.load (some written) = .ok s) ∧
      ((∃ n ∈ s.integers, Signed.greatest < n) →
        ∀ writable, s.save writable content = (.error .unwritable, content)) := by
  have hleast := Settings.least_le_of_mem_integers h
  have htext := s.toText?_isSome_iff
  refine ⟨fun hsmall => ?_, fun ⟨n, hn, hlarge⟩ writable => ?_⟩
  · obtain ⟨text, hsome⟩ := Option.isSome_iff_exists.mp
      (htext.mpr fun n hn => ⟨hleast n hn, hsmall n hn⟩)
    refine ⟨Text.toBytes text, ?_, ?_⟩
    · rw [Settings.save, hsome]
      rfl
    · rw [Settings.load, Option.bind_some, Text.ofBytes?_toBytes]
      simp only [Settings.ofText?_toText? h hsome, Option.elim_some]
  · have hnone : s.toText? = none := by
      refine Option.not_isSome_iff_eq_none.mp fun hsome => ?_
      have hle := (htext.mp hsome n hn).2
      omega
    rw [Settings.save, hnone]

/-- Settings with quotes, a backslash, line breaks and a NUL in their texts. -/
def awkward : Settings where
  tickLength := Signed.least
  scheduler := { core := some 9223372036854775807, threadName := "''' \\ \x22" }
  pauses := { logPath := some "a\r\n\x00\x22\x22\x22b" }

/-- Settings with one number too many. -/
def boundless : Settings := { awkward with pauses := { pollMillis := 9223372036854775808 } }

theorem awkward_settings_come_back :
    (∃ written, awkward.save true none = (.ok (), some written) ∧
      Settings.load (some written) = .ok awkward) ∧
    boundless.save true (some [65]) = (.error .unwritable, some [65]) := by
  have hawkward : awkward.Storable :=
    ⟨by decide, ⟨by decide, by decide, by decide⟩, ⟨by decide, by decide⟩⟩
  have hboundless : boundless.Storable := ⟨hawkward.1, hawkward.2, ⟨by decide, by decide⟩⟩
  exact ⟨(saved_settings_come_back hawkward none).1 (by decide),
    (saved_settings_come_back hboundless (some [65])).2 (by decide) true⟩

end Metronome
