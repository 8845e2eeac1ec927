/-!
# TOML values

The values of a TOML document, and the tables of a document while it is read.  A table may be
written in several places; how it was first written decides whether another place may add to it:

* a table that only stands in the path of a header may get a header of its own later;
* a table that dotted keys made may get further dotted keys, and no header;
* a table with a header of its own, and an inline table, is complete.
-/

namespace CallPaths.Toml

/-- A value.  Of floats and dates only their kind is kept, since no setting has such a value. -/
inductive Value where
  | text (s : String)
  | integer (n : Int)
  | float
  | boolean (b : Bool)
  | date
  | array (items : List Value)
  | table (members : List (String × Value))
deriving Repr, Inhabited

/-- How a table came to be. -/
inductive Origin where
  /-- It stands in the path of a header. -/
  | path
  /-- It stands in a dotted key. -/
  | dottedKey
  /-- It has a header of its own, or is the whole document. -/
  | header
deriving DecidableEq, Repr, Inhabited

/-- An entry of a table while the document is read. -/
inductive Entry where
  | value (v : Value)
  | table (origin : Origin) (members : List (String × Entry))
  /-- Tables with headers in double brackets, the latest one first. -/
  | tables (latest : List (List (String × Entry)))
deriving Repr, Inhabited

/-- The members of a table while the document is read. -/
abbrev Members := List (String × Entry)

namespace Entry

mutual

/-- The finished value of an entry. -/
def finish : Entry → Value
  | value v => v
  | table _ members => .table (finishMembers members)
  | tables latest => .array (finishTables latest).reverse

/-- The finished members of a table. -/
def finishMembers : List (String × Entry) → List (String × Value)
  | [] => []
  | (k, e) :: rest => (k, finish e) :: finishMembers rest

/-- The finished tables of a list. -/
def finishTables : List (List (String × Entry)) → List Value
  | [] => []
  | members :: rest => .table (finishMembers members) :: finishTables rest

end

end Entry

namespace Members

/-- The entry of a key. -/
def entry? (m : Members) (k : String) : Option Entry :=
  (List.find? (·.1 = k) m).map (·.2)

/-- Puts an entry in place of the one with the same key, or at the end. -/
def put (k : String) (e : Entry) : Members → Members
  | [] => [(k, e)]
  | (l, old) :: rest => if l = k then (k, e) :: rest else (l, old) :: put k e rest

/-- Changes the table that a path leads to; tables that are missing on the way are made.  The change
is told how its table came to be.  None if something on the way is no table, if dotted keys lead
into a complete table, or if the change is not possible. -/
def change? (dotted : Bool) (f : Origin → Members → Option Members) :
    List String → Origin → Members → Option Members
  | [], origin, m => f origin m
  | k :: path, _, m =>
    match m.entry? k with
    | none =>
      let origin := if dotted then .dottedKey else .path
      (change? dotted f path origin []).map fun inner => m.put k (.table origin inner)
    | some (.value _) => none
    | some (.table origin inner) =>
      if dotted && origin = .header then none
      else (change? dotted f path origin inner).map fun inner => m.put k (.table origin inner)
    | some (.tables []) => none
    | some (.tables (last :: earlier)) =>
      (change? dotted f path .header last).map fun last => m.put k (.tables (last :: earlier))

/-- Adds a value under a key that is not there yet.  After a dotted path the table has to be one
that dotted keys made, and without one it must not be. -/
def add? (dotted : Bool) (k : String) (v : Value) (origin : Origin) (m : Members) :
    Option Members :=
  if (origin = .dottedKey) != dotted then none
  else
    match m.entry? k with
    | none => some (m.put k (.value v))
    | some _ => none

/-- Adds a value under a dotted key. -/
def addKey? (keys : List String) (v : Value) (origin : Origin) (m : Members) : Option Members :=
  match keys.reverse with
  | [] => none
  | last :: path => m.change? true (add? (!path.isEmpty) last v) path.reverse origin

/-- Gives a table a header. -/
def open? (k : String) (_ : Origin) (m : Members) : Option Members :=
  match m.entry? k with
  | none => some (m.put k (.table .header []))
  | some (.table .path inner) => some (m.put k (.table .header inner))
  | some _ => none

/-- Adds a table to a list of tables. -/
def openNext? (k : String) (_ : Origin) (m : Members) : Option Members :=
  match m.entry? k with
  | none => some (m.put k (.tables [[]]))
  | some (.tables latest) => some (m.put k (.tables ([] :: latest)))
  | some _ => none

end Members

end CallPaths.Toml
