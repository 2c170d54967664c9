-- The tables that a settings file builds up, statement by statement. No
-- statement may define anew what another one has defined.
import Metronome.Data

namespace Metronome.Toml

/-- How a table came to be. -/
inductive Origin where
  /-- It was named on the way to another table. -/
  | passed
  /-- A dotted key named it. -/
  | dotted
  /-- A header of its own opened it. -/
  | opened
  deriving DecidableEq, Repr

inductive Node where
  | value (d : Data)
  | table (origin : Origin) (members : List (String × Node))
  /-- Tables under one name, each opened by a header. -/
  | tables (items : List (List (String × Node)))

abbrev Members := List (String × Node)

namespace Members

def get? (key : String) (ms : Members) : Option Node := ms.lookup key

/-- Sets a member. A new one comes last. -/
def set (key : String) (node : Node) : Members → Members
  | [] => [(key, node)]
  | m :: ms => if m.1 = key then (key, node) :: ms else m :: set key node ms

/-- Adds a member that must be new. -/
def add? (key : String) (node : Node) (ms : Members) : Option Members :=
  if (ms.get? key).isSome then none else some (ms.set key node)

/-- Changes the last of some tables. -/
def changeLast (f : Members → Option Members) : List Members → Option (List Members)
  | [] => none
  | [ms] => (f ms).map fun ms => [ms]
  | ms :: rest => (changeLast f rest).map (ms :: ·)

/-- Changes the table at a path of headers. Tables that are missing on the way come to be. -/
def alter? (f : Members → Option Members) : List String → Members → Option Members
  | [], ms => f ms
  | key :: path, ms =>
    match ms.get? key with
    | none => (alter? f path []).map fun inner => ms.set key (.table .passed inner)
    | some (.table origin inner) =>
      (alter? f path inner).map fun inner => ms.set key (.table origin inner)
    | some (.tables items) =>
      (changeLast (alter? f path) items).map fun items => ms.set key (.tables items)
    | some (.value _) => none

/-- Sets a value under a dotted key. Its last table must be one that dotted keys made, and no
table on the way may have a header. -/
def put? (d : Data) (origin : Origin) : List String → String → Members → Option Members
  | [], key, ms => if origin = .passed then none else ms.add? key (.value d)
  | table :: path, key, ms =>
    match ms.get? table with
    | none => (put? d .dotted path key []).map fun inner => ms.set table (.table .dotted inner)
    | some (.table .opened _) => none
    | some (.table origin inner) =>
      (put? d origin path key inner).map fun inner => ms.set table (.table origin inner)
    | some (.tables items) =>
      (changeLast (put? d .passed path key) items).map fun items => ms.set table (.tables items)
    | some (.value _) => none

/-- Opens a table by its header. -/
def open? (key : String) (ms : Members) : Option Members :=
  match ms.get? key with
  | none => some (ms.set key (.table .opened []))
  | some (.table .passed inner) => some (ms.set key (.table .opened inner))
  | some _ => none

/-- Opens one more of the tables under a name. -/
def extend? (key : String) (ms : Members) : Option Members :=
  match ms.get? key with
  | none => some (ms.set key (.tables [[]]))
  | some (.tables items) => some (ms.set key (.tables (items ++ [[]])))
  | some _ => none

end Members

/-! ## Plain data -/

mutual

def Node.toData : Node → Data
  | .value d => d
  | .table _ ms => .record (membersToData ms)
  | .tables items => .list (tablesToData items)

def membersToData : List (String × Node) → List (Option String × Data)
  | [] => []
  | (key, node) :: ms => (some key, node.toData) :: membersToData ms

def tablesToData : List (List (String × Node)) → List Data
  | [] => []
  | ms :: items => .record (membersToData ms) :: tablesToData items

end

/-! ## Statements -/

/-- A name after a path of tables. -/
structure Key where
  path : List String
  name : String
  deriving DecidableEq, Repr

inductive Statement where
  | value (key : Key) (d : Data)
  | header (key : Key)
  | listHeader (key : Key)

/-- What the statements so far have built, and the path of the table they are in. -/
structure Draft where
  members : Members := []
  current : List String := []

namespace Draft

def after? (draft : Draft) : Statement → Option Draft
  | .value key d =>
    (Members.alter? (Members.put? d .opened key.path key.name) draft.current draft.members).map
      fun members => { draft with members }
  | .header key =>
    (Members.alter? (Members.open? key.name) key.path draft.members).map
      fun members => { members, current := key.path ++ [key.name] }
  | .listHeader key =>
    (Members.alter? (Members.extend? key.name) key.path draft.members).map
      fun members => { members, current := key.path ++ [key.name] }

end Draft

/-- The record that a whole file describes. -/
def ofStatements? (statements : List Statement) : Option Data :=
  (statements.foldlM Draft.after? {}).map fun draft => .record (membersToData draft.members)

/-- The record that the values of an inline table describe. -/
def ofValues? (values : List (Key × Data)) : Option Data :=
  ofStatements? (values.map fun v => .value v.1 v.2)

end Metronome.Toml
