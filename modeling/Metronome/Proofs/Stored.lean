-- What is stored comes back. Every value that can be stored is read from its own
-- data, and from every record that tells the same: with its members in another
-- order, with others among them, and without those that are null.
import Metronome.Proofs.Retellings
import Metronome.Proofs.Json.Values

namespace Metronome

open Data

variable (f : Format)

/-! ## Names -/

theorem TimeUnit.reads (u : TimeUnit) : Reads (TimeUnit.ofData? f) u.toData u :=
  reads_choice f (TimeUnit.ofName?_name u)

theorem Mode.reads (m : Mode) : Reads (Mode.ofData? f) m.toData m :=
  reads_choice f (Mode.ofName?_name m)

theorem Event.reads (e : Event) : Reads (Event.ofData? f) e.toData e :=
  reads_choice f (Event.ofName?_name e)

/-! ## Measurements -/

/-- Each number of the stamp has its place in 64 bits. -/
structure Stamp.Storable (s : Stamp) : Prop where
  tickCount : Unsigned.Fits s.tickCount
  wallMillis : Signed.Fits s.wallMillis
  nanos : Signed.Fits s.nanos

theorem Stamp.reads {s : Stamp} (h : s.Storable) : Reads (Stamp.ofData? f) s.toData s := by
  refine reads_record f Stamp.memberNames
    [ofNat s.tickCount, .integer s.wallMillis, .integer s.nanos] (by decide) rfl ?_
  rintro d _ hd (_ | ⟨hcount, _ | ⟨hwall, _ | ⟨hnanos, _ | _⟩⟩⟩)
  have hcount := (reads_unsigned h.tickCount).required hcount
  have hwall := (reads_signed h.wallMillis).required hwall
  have hnanos := (reads_signed h.nanos).required hnanos
  simp [Stamp.ofData?, hd, hcount, hwall, hnanos]

structure Interval.Storable (i : Interval) : Prop where
  start : i.start.Storable
  stop : i.stop.Storable

theorem Interval.reads {i : Interval} (h : i.Storable) :
    Reads (Interval.ofData? f) i.toData i := by
  refine reads_record f ["start", "end"] [i.start.toData, i.stop.toData] (by decide) rfl ?_
  rintro d _ hd (_ | ⟨hstart, _ | ⟨hstop, _ | _⟩⟩)
  have hstart := (Stamp.reads f h.start).required hstart
  have hstop := (Stamp.reads f h.stop).required hstop
  simp [Interval.ofData?, hd, hstart, hstop]

structure Deviation.Storable (v : Deviation) : Prop where
  deviation : Signed.Fits v.deviation
  correction : Signed.Fits v.correction
  stamp : v.stamp.Storable

theorem Deviation.reads {v : Deviation} (h : v.Storable) :
    Reads (Deviation.ofData? f) v.toData v := by
  refine reads_record f ["deviation_ns", "correction_ns", "timestamp"]
    [.integer v.deviation, .integer v.correction, v.stamp.toData] (by decide) rfl ?_
  rintro d _ hd (_ | ⟨hdeviation, _ | ⟨hcorrection, _ | ⟨hstamp, _ | _⟩⟩⟩)
  have hdeviation := (reads_signed h.deviation).required hdeviation
  have hcorrection := (reads_signed h.correction).required hcorrection
  have hstamp := (Stamp.reads f h.stamp).required hstamp
  simp [Deviation.ofData?, hd, hdeviation, hcorrection, hstamp]

structure PauseEvent.Storable (e : PauseEvent) : Prop where
  occurredAt : Unsigned.Fits e.occurredAt
  duration : Unsigned.Fits e.duration

theorem PauseEvent.reads {e : PauseEvent} (h : e.Storable) :
    Reads (PauseEvent.ofData? f) e.toData e := by
  refine reads_record f ["occurred_at_ns", "duration_ns"] [ofNat e.occurredAt, ofNat e.duration]
    (by decide) rfl ?_
  rintro d _ hd (_ | ⟨hoccurred, _ | ⟨hduration, _ | _⟩⟩)
  have hoccurred := (reads_unsigned h.occurredAt).required hoccurred
  have hduration := (reads_unsigned h.duration).required hduration
  simp [PauseEvent.ofData?, hd, hoccurred, hduration]

/-- The numbers of the statistics, in the order in which they are stored. -/
def TickLog.Stats.numbers (s : TickLog.Stats) : List Nat :=
  [s.ticks, s.slowTicks, s.last, s.average, s.longest, s.p95, s.p99, s.attributed]

def TickLog.Stats.Storable (s : TickLog.Stats) : Prop := ∀ n ∈ s.numbers, Unsigned.Fits n

theorem mapM_unsigned? {ns : List Nat} {vs : List (Option Data)} (h : ∀ n ∈ ns, Unsigned.Fits n)
    (hfound : List.Forall₂ Found (ns.map ofNat) vs) :
    vs.mapM (required? unsigned?) = some ns := by
  induction ns generalizing vs with
  | nil =>
    cases hfound
    rfl
  | cons n ns ih =>
    obtain ⟨hn, hns⟩ := List.forall_mem_cons.mp h
    rcases hfound with _ | ⟨hv, hvs⟩
    have hfirst := (reads_unsigned hn).required hv
    have hrest := ih hns hvs
    simp [hfirst, hrest]

theorem TickLog.Stats.reads {s : TickLog.Stats} (h : s.Storable) :
    Reads (TickLog.Stats.ofData? f) s.toData s := by
  refine reads_record f TickLog.Stats.memberNames (s.numbers.map ofNat) (by decide) rfl ?_
  intro d vs hd hfound
  have hnumbers := mapM_unsigned? h hfound
  simp [TickLog.Stats.ofData?, hd, hnumbers, numbers]

/-! ## Settings -/

structure SchedulerSettings.Storable (s : SchedulerSettings) : Prop where
  core : ∀ n ∈ s.core, Unsigned.Fits n
  awaitPollMillis : Unsigned.Fits s.awaitPollMillis
  maxStamps : Unsigned.Fits s.maxStamps

theorem SchedulerSettings.reads {s : SchedulerSettings} (h : s.Storable) :
    Reads (SchedulerSettings.ofData? f) s.toData s := by
  refine reads_record f SchedulerSettings.memberNames
    [.bool s.pinned, ofOption ofNat s.core, ofNat s.awaitPollMillis, ofNat s.maxStamps,
      .string s.threadName] (by decide) rfl ?_
  rintro d _ hd (_ | ⟨hpinned, _ | ⟨hcore, _ | ⟨hpoll, _ | ⟨hstamps, _ | ⟨hname, _ | _⟩⟩⟩⟩⟩)
  have hpinned := (reads_bool s.pinned).required hpinned
  have hcore := Reads.missing (fun n hn => reads_unsigned (h.core n hn)) hcore
  have hpoll := (reads_unsigned h.awaitPollMillis).required hpoll
  have hstamps := (reads_unsigned h.maxStamps).required hstamps
  have hname := (reads_text s.threadName).required hname
  simp [SchedulerSettings.ofData?, hd, hpinned, hcore, hpoll, hstamps, hname]

structure PauseSettings.Storable (s : PauseSettings) : Prop where
  horizonMillis : Unsigned.Fits s.horizonMillis
  pollMillis : Unsigned.Fits s.pollMillis

theorem PauseSettings.reads {s : PauseSettings} (h : s.Storable) :
    Reads (PauseSettings.ofData? f) s.toData s := by
  refine reads_record f PauseSettings.memberNames
    [ofOption .string s.logPath, ofNat s.horizonMillis, ofNat s.pollMillis, .bool s.readFromStart]
    (by decide) rfl ?_
  rintro d _ hd (_ | ⟨hpath, _ | ⟨hhorizon, _ | ⟨hpoll, _ | ⟨hstart, _ | _⟩⟩⟩⟩)
  have hpath := Reads.missing (fun path _ => reads_text path) hpath
  have hhorizon := (reads_unsigned h.horizonMillis).required hhorizon
  have hpoll := (reads_unsigned h.pollMillis).required hpoll
  have hstart := (reads_bool s.readFromStart).required hstart
  simp [PauseSettings.ofData?, hd, hpath, hhorizon, hpoll, hstart]

structure Settings.Storable (s : Settings) : Prop where
  tickLength : Signed.Fits s.tickLength
  scheduler : s.scheduler.Storable
  pauses : s.pauses.Storable

theorem Settings.reads {s : Settings} (h : s.Storable) :
    Reads (Settings.ofData? f) s.toData s := by
  refine reads_record f Settings.memberNames
    [.integer s.tickLength, s.unit.toData, s.startingMode.toData, s.scheduler.toData,
      s.pauses.toData] (by decide) rfl ?_
  rintro d _ hd (_ | ⟨hlength, _ | ⟨hunit, _ | ⟨hmode, _ | ⟨hscheduler, _ | ⟨hpauses, _ | _⟩⟩⟩⟩⟩)
  have hlength := (reads_signed h.tickLength).required hlength
  have hunit := (TimeUnit.reads f s.unit).required hunit
  have hmode := (Mode.reads f s.startingMode).required hmode
  have hscheduler := (SchedulerSettings.reads f h.scheduler).required hscheduler
  have hpauses := (PauseSettings.reads f h.pauses).required hpauses
  simp [Settings.ofData?, hd, hlength, hunit, hmode, hscheduler, hpauses]

/-! ## Kinds of stored values -/

/-- How values of one type are stored. -/
structure Form (α : Type) where
  write : α → Data
  read : Format → Data → Option α
  /-- Every number of the value has its place in 64 bits. -/
  Storable : α → Prop

namespace Form

variable {α : Type} (form : Form α)

/-- The value as JSON text. -/
def text (a : α) : String := Json.print (form.write a)

/-- The value that a JSON text tells. -/
def ofText? (text : String) : Option α := (Json.read? text).bind (form.read .json)

end Form

/-- The types whose values are stored. -/
inductive Kind where
  | settings
  | schedulerSettings
  | pauseSettings
  | timeUnit
  | mode
  | event
  | stamp
  | interval
  | deviation
  | pauseEvent
  | statistics
  deriving DecidableEq, Repr

namespace Kind

def Value : Kind → Type
  | settings => Settings
  | schedulerSettings => SchedulerSettings
  | pauseSettings => PauseSettings
  | timeUnit => TimeUnit
  | mode => Mode
  | event => Event
  | stamp => Stamp
  | interval => Interval
  | deviation => Deviation
  | pauseEvent => PauseEvent
  | statistics => TickLog.Stats

def form : (k : Kind) → Form k.Value
  | settings => ⟨Settings.toData, Settings.ofData?, Settings.Storable⟩
  | schedulerSettings =>
    ⟨SchedulerSettings.toData, SchedulerSettings.ofData?, SchedulerSettings.Storable⟩
  | pauseSettings => ⟨PauseSettings.toData, PauseSettings.ofData?, PauseSettings.Storable⟩
  | timeUnit => ⟨TimeUnit.toData, TimeUnit.ofData?, fun _ => True⟩
  | mode => ⟨Mode.toData, Mode.ofData?, fun _ => True⟩
  | event => ⟨Event.toData, Event.ofData?, fun _ => True⟩
  | stamp => ⟨Stamp.toData, Stamp.ofData?, Stamp.Storable⟩
  | interval => ⟨Interval.toData, Interval.ofData?, Interval.Storable⟩
  | deviation => ⟨Deviation.toData, Deviation.ofData?, Deviation.Storable⟩
  | pauseEvent => ⟨PauseEvent.toData, PauseEvent.ofData?, PauseEvent.Storable⟩
  | statistics => ⟨TickLog.Stats.toData, TickLog.Stats.ofData?, TickLog.Stats.Storable⟩

theorem reads (k : Kind) {v : k.Value} (h : k.form.Storable v) :
    Reads (k.form.read f) (k.form.write v) v := by
  cases k with
  | settings => exact Settings.reads f h
  | schedulerSettings => exact SchedulerSettings.reads f h
  | pauseSettings => exact PauseSettings.reads f h
  | timeUnit => exact TimeUnit.reads f v
  | mode => exact Mode.reads f v
  | event => exact Event.reads f v
  | stamp => exact Stamp.reads f h
  | interval => exact Interval.reads f h
  | deviation => exact Deviation.reads f h
  | pauseEvent => exact PauseEvent.reads f h
  | statistics => exact TickLog.Stats.reads f h

end Kind

/-! ## Texts of stored values -/

/-- JSON has a form for all that is stored. -/
theorem Kind.plain (k : Kind) (v : k.Value) : (k.form.write v).Plain := by
  have hstamp (s : Stamp) : s.toData.Plain := ⟨rfl, trivial, rfl, trivial, rfl, trivial, trivial⟩
  have hcore (o : Option Nat) : (ofOption Data.ofNat o).Plain := by cases o <;> trivial
  have hpath (o : Option String) : (ofOption string o).Plain := by
    cases o with
    | none => trivial
    | some path => rfl
  have hscheduler (s : SchedulerSettings) : s.toData.Plain :=
    ⟨rfl, trivial, rfl, hcore s.core, rfl, trivial, rfl, trivial, rfl, rfl, trivial⟩
  have hpauses (s : PauseSettings) : s.toData.Plain :=
    ⟨rfl, hpath s.logPath, rfl, trivial, rfl, trivial, rfl, trivial, trivial⟩
  cases k with
  | settings => exact ⟨rfl, trivial, rfl, rfl, rfl, rfl, rfl, hscheduler _, rfl, hpauses _, trivial⟩
  | schedulerSettings => exact hscheduler v
  | pauseSettings => exact hpauses v
  | timeUnit => exact rfl
  | mode => exact rfl
  | event => exact rfl
  | stamp => exact hstamp v
  | interval => exact ⟨rfl, hstamp _, rfl, hstamp _, trivial⟩
  | deviation => exact ⟨rfl, trivial, rfl, trivial, rfl, hstamp _, trivial⟩
  | pauseEvent => exact ⟨rfl, trivial, rfl, trivial, trivial⟩
  | statistics =>
    exact ⟨rfl, trivial, rfl, trivial, rfl, trivial, rfl, trivial, rfl, trivial, rfl, trivial, rfl,
      trivial, rfl, trivial, trivial⟩

theorem Kind.ofText?_of_retold (k : Kind) {v : k.Value} {d : Data} {text : String}
    (h : k.form.Storable v) (hd : Retold (k.form.write v) d) (htext : Json.read? text = some d) :
    k.form.ofText? text = some v := by
  have hreads := k.reads .json h
  rw [Form.ofText?, htext, Option.bind_some, hreads.retold d hd]

theorem Kind.ofText?_text (k : Kind) {v : k.Value} (h : k.form.Storable v) :
    k.form.ofText? (k.form.text v) = some v :=
  k.ofText?_of_retold h (.same _) (Json.read?_print (k.plain v))

/-- A stored value comes back from its own text, and from each text that tells the same: the
members of its records may be in any order, others may stand among them, and those that are null may
be left out. Each such telling has a text, unless it adds what JSON cannot write. -/
theorem stored_values_come_back (k : Kind) {v : k.Value} (h : k.form.Storable v) :
    k.form.ofText? (k.form.text v) = some v ∧
      ∀ d, Retold (k.form.write v) d →
        (d.Plain → k.form.ofText? (Json.print d) = some v) ∧
          ∀ text, Json.read? text = some d → k.form.ofText? text = some v :=
  ⟨k.ofText?_text h, fun _ hd =>
    ⟨fun hplain => k.ofText?_of_retold h hd (Json.read?_print hplain),
      fun _ htext => k.ofText?_of_retold h hd htext⟩⟩

/-- Settings without a log come back from a record that does not speak of a log, begins with its
last member and has one more. -/
theorem pause_settings_come_back_out_of_order :
    let s : PauseSettings := { horizonMillis := Unsigned.greatest }
    let d : Data := .object [("read_from_start", .bool false),
      ("horizon_ms", .integer 18446744073709551615), ("poll_interval_ms", .integer 100),
      ("more", .list [.fraction])]
    s.Storable ∧ Retold s.toData d ∧ Kind.pauseSettings.form.ofText? (Json.print d) = some s := by
  intro s d
  have hs : s.Storable := ⟨by decide, by decide⟩
  have hmore : some "more" ∉ PauseSettings.memberNames.map some := by decide
  have hd : Retold s.toData d :=
    .record (.leftOut (.told (.same _) (.told (.same _) (.told (.same _) .nil))))
      (List.forall_mem_singleton.mpr ⟨rfl, hmore⟩)
      ((List.Perm.swap ..).trans ((List.Perm.swap ..).cons _))
  have hplain : d.Plain := by
    simp [d, object, Plain, PlainMembers, PlainItems]
  exact ⟨hs, hd, ((stored_values_come_back .pauseSettings hs).2 d hd).1 hplain⟩

end Metronome
