-- The stored form of settings and measurements: records with fixed names,
-- and choices by name. Names that a record does not know are passed over.
import Metronome.Data
import Metronome.Settings
import Metronome.Feed
import Metronome.Timing.Stamp
import Metronome.TickLog
import Metronome.Pause.Window

namespace Metronome

/-! ## Formats -/

/-- What the formats decide each for itself. -/
structure Format where
  /-- What stands beside the name of a choice that is written as a record. -/
  emptyPayload : Data → Bool
  /-- A list that is read as a record may hold more items than the record has members. -/
  spareItems : Bool

def Format.json : Format where
  emptyPayload
    | .null => true
    | _ => false
  spareItems := false

def Format.toml : Format where
  emptyPayload
    | .record [] => true
    | _ => false
  spareItems := true

/-! ## Reading -/

namespace Data

def signed? (d : Data) : Option Int :=
  d.asInteger?.bind fun n => if Signed.Fits n then some n else none

def unsigned? (d : Data) : Option Nat :=
  d.asInteger?.bind fun n => if 0 ≤ n ∧ Unsigned.Fits n.toNat then some n.toNat else none

/-- A value that may be null. -/
def optional? {α : Type} (read : Data → Option α) : Data → Option (Option α)
  | .null => some none
  | d => (read d).map some

/-- A choice is written by its name, alone or with an empty payload. -/
def choice? {α : Type} (f : Format) (ofName? : String → Option α) : Data → Option α
  | .text (some s) => ofName? s
  | .record [(some s, d)] => if f.emptyPayload d then ofName? s else none
  | _ => none

/-- The only value under a name, if there is any. No name may stand twice. -/
def single? (members : List (Option String × Data)) (name : String) : Option (Option Data) :=
  match members.filter fun m => m.1 == some name with
  | [] => some none
  | [m] => some (some m.2)
  | _ => none

/-- The values under the names, in their order. A record must have valid names
throughout, and a list stands for a record by the order of its items. -/
def members? (f : Format) (names : List String) : Data → Option (List (Option Data))
  | .record members =>
    if members.all fun m => m.1.isSome then names.mapM (single? members) else none
  | .list items =>
    if items.length = names.length ∨ (f.spareItems ∧ names.length ≤ items.length) then
      some ((items.take names.length).map some)
    else none
  | _ => none

/-- A member that must be there. -/
def required? {α : Type} (read : Data → Option α) (d : Option Data) : Option α := d.bind read

/-- A member that may be missing. -/
def missing? {α : Type} (read : Data → Option α) : Option Data → Option (Option α)
  | none => some none
  | some d => optional? read d

def ofOption {α : Type} (write : α → Data) : Option α → Data
  | none => .null
  | some a => write a

def ofNat (n : Nat) : Data := .integer n

end Data

open Data

def TimeUnit.toData (u : TimeUnit) : Data := .string u.name

def TimeUnit.ofData? (f : Format) : Data → Option TimeUnit := choice? f TimeUnit.ofName?

def Mode.toData (m : Mode) : Data := .string m.name

def Mode.ofData? (f : Format) : Data → Option Mode := choice? f Mode.ofName?

def Event.toData (e : Event) : Data := .string e.name

def Event.ofData? (f : Format) : Data → Option Event := choice? f Event.ofName?

/-! ## Measurements -/

def Stamp.memberNames : List String := ["tick_count", "wall_clock_millis", "monotonic_nanos"]

def Stamp.toData (s : Stamp) : Data :=
  .object [("tick_count", ofNat s.tickCount), ("wall_clock_millis", .integer s.wallMillis),
    ("monotonic_nanos", .integer s.nanos)]

def Stamp.ofData? (f : Format) (d : Data) : Option Stamp :=
  match members? f Stamp.memberNames d with
  | some [count, wall, nanos] => do
    some ⟨← required? unsigned? count, ← required? signed? wall, ← required? signed? nanos⟩
  | _ => none

def Interval.toData (i : Interval) : Data :=
  .object [("start", i.start.toData), ("end", i.stop.toData)]

/-- A stored interval is taken as it is. -/
def Interval.ofData? (f : Format) (d : Data) : Option Interval :=
  match members? f ["start", "end"] d with
  | some [start, stop] => do
    some ⟨← required? (Stamp.ofData? f) start, ← required? (Stamp.ofData? f) stop⟩
  | _ => none

def Deviation.toData (v : Deviation) : Data :=
  .object [("deviation_ns", .integer v.deviation), ("correction_ns", .integer v.correction),
    ("timestamp", v.stamp.toData)]

def Deviation.ofData? (f : Format) (d : Data) : Option Deviation :=
  match members? f ["deviation_ns", "correction_ns", "timestamp"] d with
  | some [deviation, correction, stamp] => do
    some ⟨← required? signed? deviation, ← required? signed? correction,
      ← required? (Stamp.ofData? f) stamp⟩
  | _ => none

def PauseEvent.toData (e : PauseEvent) : Data :=
  .object [("occurred_at_ns", ofNat e.occurredAt), ("duration_ns", ofNat e.duration)]

def PauseEvent.ofData? (f : Format) (d : Data) : Option PauseEvent :=
  match members? f ["occurred_at_ns", "duration_ns"] d with
  | some [occurredAt, duration] => do
    some ⟨← required? unsigned? occurredAt, ← required? unsigned? duration⟩
  | _ => none

def TickLog.Stats.memberNames : List String :=
  ["ticks", "slow_ticks", "last_dispatch_ns", "avg_dispatch_ns", "max_dispatch_ns",
    "p95_dispatch_ns", "p99_dispatch_ns", "attributed_pause_ns"]

def TickLog.Stats.toData (s : TickLog.Stats) : Data :=
  .object (TickLog.Stats.memberNames.zip
    ([s.ticks, s.slowTicks, s.last, s.average, s.longest, s.p95, s.p99, s.attributed].map ofNat))

def TickLog.Stats.ofData? (f : Format) (d : Data) : Option TickLog.Stats := do
  match ← (← members? f TickLog.Stats.memberNames d).mapM (required? unsigned?) with
  | [ticks, slow, last, average, longest, p95, p99, attributed] =>
    some ⟨ticks, slow, last, average, longest, p95, p99, attributed⟩
  | _ => none

/-! ## Settings -/

def SchedulerSettings.memberNames : List String :=
  ["enable_cpu_affinity", "pinned_core", "await_poll_interval_ms", "max_recorded_timestamps",
    "thread_name"]

def SchedulerSettings.toData (s : SchedulerSettings) : Data :=
  .object (SchedulerSettings.memberNames.zip
    [.bool s.pinned, ofOption ofNat s.core, ofNat s.awaitPollMillis, ofNat s.maxStamps,
      .string s.threadName])

def SchedulerSettings.ofData? (f : Format) (d : Data) : Option SchedulerSettings :=
  match members? f SchedulerSettings.memberNames d with
  | some [pinned, core, poll, stamps, name] => do
    some ⟨← required? asBool? pinned, ← missing? unsigned? core, ← required? unsigned? poll,
      ← required? unsigned? stamps, ← required? asText? name⟩
  | _ => none

def PauseSettings.memberNames : List String :=
  ["log_path", "horizon_ms", "poll_interval_ms", "read_from_start"]

def PauseSettings.toData (s : PauseSettings) : Data :=
  .object (PauseSettings.memberNames.zip
    [ofOption .string s.logPath, ofNat s.horizonMillis, ofNat s.pollMillis,
      .bool s.readFromStart])

def PauseSettings.ofData? (f : Format) (d : Data) : Option PauseSettings :=
  match members? f PauseSettings.memberNames d with
  | some [path, horizon, poll, fromStart] => do
    some ⟨← missing? asText? path, ← required? unsigned? horizon, ← required? unsigned? poll,
      ← required? asBool? fromStart⟩
  | _ => none

def Settings.memberNames : List String :=
  ["tick_length", "time_unit", "starting_mode", "scheduler", "pause_monitor"]

def Settings.toData (s : Settings) : Data :=
  .object (Settings.memberNames.zip
    [.integer s.tickLength, s.unit.toData, s.startingMode.toData, s.scheduler.toData,
      s.pauses.toData])

def Settings.ofData? (f : Format) (d : Data) : Option Settings :=
  match members? f Settings.memberNames d with
  | some [length, unit, mode, scheduler, pauses] => do
    some ⟨← required? signed? length, ← required? (TimeUnit.ofData? f) unit,
      ← required? (Mode.ofData? f) mode, ← required? (SchedulerSettings.ofData? f) scheduler,
      ← required? (PauseSettings.ofData? f) pauses⟩
  | _ => none

end Metronome
