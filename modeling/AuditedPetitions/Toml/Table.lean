/-! Tables of TOML documents and the rules by which headers and dotted keys may extend them. A table
is written out once under its header; tables that a longer header or a dotted key passed through
may be extended, each kind in its own way. Only texts and integers keep their value. -/

namespace AuditedPetitions.Toml

inductive Value
  | text (s : String)
  | integer (n : Int)
  /-- Any other value; nothing here uses it. -/
  | other
  deriving DecidableEq

/-- How a table came about. -/
inductive Origin
  /-- It has a header of its own. -/
  | header
  /-- A longer header passed through it. -/
  | passed
  /-- A dotted key made it. -/
  | dotted
  deriving DecidableEq

inductive Node
  | value (v : Value)
  | table (origin : Origin) (entries : List (String × Node))
  /-- An array of tables; only its last table can still change. -/
  | tables (last : List (String × Node))

abbrev Entries := List (String × Node)

def Entries.get? (key : String) (es : Entries) : Option Node :=
  (es.find? (·.1 == key)).map Prod.snd

/-- Replaces the entry of a key, or adds it at the end. -/
def Entries.set (key : String) (n : Node) : Entries → Entries
  | [] => [(key, n)]
  | (k, m) :: es => if k = key then (key, n) :: es else (k, m) :: set key n es

/-- Changes the table at the end of a path. Missing tables are made on the way; a dotted key does
not pass through a table that has its own header. -/
def Entries.descend (dotted : Bool) (change : Origin → Entries → Option Entries) :
    List String → Origin → Entries → Option Entries
  | [], origin, es => change origin es
  | key :: path, _, es =>
    match es.get? key with
    | none =>
      let origin := if dotted then .dotted else .passed
      (descend dotted change path origin []).map fun t => es.set key (.table origin t)
    | some (.value _) => none
    | some (.tables last) =>
      (descend dotted change path .header last).map fun t => es.set key (.tables t)
    | some (.table origin t) =>
      if dotted ∧ origin = .header then none
      else (descend dotted change path origin t).map fun t => es.set key (.table origin t)

/-- Adds a value under a dotted key. A key with dots ends in a table made by dots, one without
dots in any other. -/
def Entries.put (path : List String) (key : String) (v : Value) (origin : Origin) (es : Entries) :
    Option Entries :=
  es.descend true (fun origin es =>
    if (origin == .dotted) == path.isEmpty then none
    else if (es.get? key).isSome then none
    else some (es ++ [(key, .value v)])) path origin

/-- Opens the table of a header. -/
def Entries.openTable (path : List String) (key : String) (es : Entries) : Option Entries :=
  es.descend false (fun _ es =>
    match es.get? key with
    | none => some (es ++ [(key, .table .header [])])
    | some (.table .passed t) => some (es.set key (.table .header t))
    | some _ => none) path .header

/-- Appends a table to the array of a header. -/
def Entries.appendTable (path : List String) (key : String) (es : Entries) : Option Entries :=
  es.descend false (fun _ es =>
    match es.get? key with
    | none => some (es ++ [(key, .tables [])])
    | some (.tables _) => some (es.set key (.tables []))
    | some _ => none) path .header

/-- Adds a value inside the table that the last header opened. -/
def Entries.putUnder (current path : List String) (key : String) (v : Value) (es : Entries) :
    Option Entries :=
  es.descend false (fun origin es => es.put path key v origin) current .header

end AuditedPetitions.Toml
