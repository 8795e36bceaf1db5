import MarketAlerts.Toml.Basic

/-!
# Tables under construction

The statements of a TOML text build its tables bit by bit. A `Draft` remembers how each table
came about, because that decides what may still be added to it: a table named by a header is
closed to further headers and to dotted keys from outside, a table made by dotted keys is closed
to headers, and a value is closed altogether.
-/

namespace MarketAlerts.Toml

/-- How a table came about. -/
structure Origin where
  /-- It was only passed through, by a longer header or a dotted key. -/
  implicit : Bool
  /-- It was made by a dotted key. -/
  dotted : Bool
deriving DecidableEq

/-- Named by a header, or the table of the whole text. -/
def Origin.named : Origin := ⟨false, false⟩

/-- A value that may be under construction. -/
inductive Draft where
  /-- A finished value. -/
  | value (v : Toml)
  /-- A table. -/
  | table (origin : Origin) (entries : List (String × Draft))
  /-- An array of tables; further headers add to it. -/
  | tables (elements : List (List (String × Draft)))
deriving Inhabited

/-- A table under construction. -/
structure Draft.Table where
  /-- How it came about. -/
  origin : Origin
  /-- Its entries, sorted by key. -/
  entries : List (String × Draft)

namespace Draft

/-- The table of a text without statements. -/
def Table.empty : Table := ⟨.named, []⟩

/-- The entry with this key. -/
def find? (entries : List (String × Draft)) (key : String) : Option Draft :=
  (entries.find? fun (k, _) => k = key).map (·.2)

/-- Puts an entry in its place by key. -/
def put (key : String) (d : Draft) : List (String × Draft) → List (String × Draft)
  | [] => [(key, d)]
  | (k, e) :: rest =>
    if key < k then (key, d) :: (k, e) :: rest
    else if key = k then (key, d) :: rest
    else (k, e) :: put key d rest

/-- Changes the table at the end of a path, making the tables on the way that are missing. The way
leads through the last table of an array of tables. -/
def Table.modify? (t : Table) (path : List String) (dotted : Bool)
    (change : Table → Option Table) : Option Table :=
  match path with
  | [] => change t
  | key :: rest =>
    match find? t.entries key with
    | none => do
      let inner ← Table.modify? ⟨⟨true, dotted⟩, []⟩ rest dotted change
      return { t with entries := put key (.table inner.origin inner.entries) t.entries }
    | some (.table origin entries) => do
      -- Dotted keys add nothing to a table that has a header of its own, and close any other one to
      -- headers.
      if dotted && !origin.implicit then none
      let origin := { origin with dotted := origin.dotted || dotted }
      let inner ← Table.modify? ⟨origin, entries⟩ rest dotted change
      return { t with entries := put key (.table inner.origin inner.entries) t.entries }
    | some (.tables elements) => do
      let last ← elements.getLast?
      let inner ← Table.modify? ⟨.named, last⟩ rest dotted change
      let elements := elements.dropLast ++ [inner.entries]
      return { t with entries := put key (.tables elements) t.entries }
    | some (.value _) => none

/-- A path taken apart into the way and the last key. -/
def splitPath (path : List String) : List String × String :=
  (path.dropLast, path.getLast?.getD "")

/-- Opens the table that a header names. -/
def Table.open? (t : Table) (path : List String) : Option Table :=
  let (way, key) := splitPath path
  t.modify? way false fun parent =>
    match find? parent.entries key with
    | none => some { parent with entries := put key (.table .named []) parent.entries }
    | some (.table ⟨true, false⟩ entries) =>
      some { parent with entries := put key (.table .named entries) parent.entries }
    | some _ => none

/-- Adds a table to the array of tables that a header names. -/
def Table.openElement? (t : Table) (path : List String) : Option Table :=
  let (way, key) := splitPath path
  t.modify? way false fun parent =>
    match find? parent.entries key with
    | none => some { parent with entries := put key (.tables [[]]) parent.entries }
    | some (.tables elements) =>
      some { parent with entries := put key (.tables (elements ++ [[]])) parent.entries }
    | some _ => none

/-- Adds an entry below the table at `base`. -/
def Table.assign? (t : Table) (base path : List String) (v : Toml) : Option Table :=
  let (way, key) := splitPath path
  t.modify? base false fun current =>
    current.modify? way true fun parent =>
      -- A dotted key adds to tables of dotted keys only, a plain one to none of them.
      if parent.origin.dotted == way.isEmpty then none
      else if (find? parent.entries key).isSome then none
      else some { parent with entries := put key (.value v) parent.entries }

mutual

/-- The finished value. -/
def finish : Draft → Toml
  | .value v => v
  | .table _ es => .table (finishEntries es)
  | .tables els => .arr (finishElements els)

/-- The finished entries. -/
def finishEntries : List (String × Draft) → List (String × Toml)
  | [] => []
  | (k, d) :: es => (k, finish d) :: finishEntries es

/-- The finished tables of an array. -/
def finishElements : List (List (String × Draft)) → List Toml
  | [] => []
  | es :: els => .table (finishEntries es) :: finishElements els

end

end Draft

end MarketAlerts.Toml
