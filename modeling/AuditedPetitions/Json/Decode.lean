import AuditedPetitions.Instant.Reader
import AuditedPetitions.Json.Document
import AuditedPetitions.Uuid

/-! Decoding of documents. A record is an object, or the array of its fields in declared order. In
an object, fields that nobody declared are ignored whatever they hold, and a declared field may
stand only once. Absence and null are different things: only an optional field may be null. -/

namespace AuditedPetitions.Json.Document

/-- How often an object has a member of this name. -/
def occurrences (name : String) (members : List (Option String × Document)) : Nat :=
  members.countP (·.1 == some name)

/-- Values of the declared fields of an object. -/
def namedFields? (names : List String) (members : List (Option String × Document)) :
    Option (List (Option Document)) :=
  if members.all (·.1.isSome) ∧ names.all (occurrences · members ≤ 1) then
    some (names.map fun n => (members.find? (·.1 == some n)).map Prod.snd)
  else none

/-- Values of the declared fields of a record. -/
def fields? (names : List String) : Document → Option (List (Option Document))
  | .object members => namedFields? names members
  | .array items => if items.length = names.length then some (items.map some) else none
  | _ => none

/-- Reads a field, or takes its default if it is missing. -/
def fieldOr {α β : Type} (default : β) (read : α → Option β) : Option α → Option β
  | none => some default
  | some d => read d

/-- Like `fields?`, but an array may end early. -/
def leadingFields? (names : List String) : Document → Option (List (Option Document))
  | .object members => namedFields? names members
  | .array items =>
    if items.length ≤ names.length then
      some (items.map some ++ List.replicate (names.length - items.length) none)
    else none
  | _ => none

def string? : Document → Option String
  | .string s => some s
  | _ => none

def wideInt? : Document → Option WideInt
  | .integer n => some n
  | _ => none

def nat? (limit : Nat) (d : Document) : Option Nat :=
  d.wideInt?.bind fun n => if 0 ≤ n.val ∧ n.val < limit then some n.val.toNat else none

def uint64? (d : Document) : Option UInt64 := (d.nat? UInt64.size).map UInt64.ofNat

def uint32? (d : Document) : Option UInt32 := (d.nat? UInt32.size).map UInt32.ofNat

def int64? (d : Document) : Option Int64 :=
  d.wideInt?.bind fun n => if n.val < 9223372036854775808 then some (Int64.ofInt n.val) else none

def bool? : Document → Option Bool
  | .bool b => some b
  | _ => none

def instant? (d : Document) : Option Instant := d.string?.bind Instant.ofText?

def uuid? (d : Document) : Option Uuid := d.string?.bind Uuid.ofText?

/-- Value or null. -/
def nullable? {α : Type} (read : Document → Option α) : Document → Option (Option α)
  | .null => some none
  | d => (read d).map some

/-- Name of a choice: a string, or an object with that one name and null. -/
def choice? : Document → Option String
  | .string s => some s
  | .object [(some s, .null)] => some s
  | _ => none

def array? : Document → Option (List Document)
  | .array items => some items
  | _ => none

/-- Reads every item of an array. -/
def list? {α : Type} (read : Document → Option α) (d : Document) : Option (List α) :=
  d.array?.bind (·.mapM read)

end AuditedPetitions.Json.Document
