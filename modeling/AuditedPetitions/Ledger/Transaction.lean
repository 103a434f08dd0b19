import AuditedPetitions.Instant.Printer
import AuditedPetitions.Json.Decode
import AuditedPetitions.Json.Writer

/-! Transactions: the tagged records that blocks carry, stamped with the time at which they are made
from their drafts. The exported form has the fields in declared order; the canonical form, which is
hashed, has every object sorted by name. -/

namespace AuditedPetitions.Ledger

inductive EventKind
  | genesis
  | petitionCreated
  | voteCast
  deriving DecidableEq, Repr

def EventKind.name : EventKind → String
  | .genesis => "genesis"
  | .petitionCreated => "petition_created"
  | .voteCast => "vote_cast"

def EventKind.ofName? (s : String) : Option EventKind :=
  if s = "genesis" then some .genesis
  else if s = "petition_created" then some .petitionCreated
  else if s = "vote_cast" then some .voteCast
  else none

theorem EventKind.ofName?_name (k : EventKind) : ofName? k.name = some k := by
  cases k <;> decide

structure Transaction where
  kind : EventKind
  payload : Payload
  timestamp : Instant
  description : String

/-- What a transaction will say, before the time is read for it. -/
structure Draft where
  kind : EventKind
  payload : Payload
  description : String

def Draft.stamp (d : Draft) (now : Instant) : Transaction :=
  ⟨d.kind, d.payload, now, d.description⟩

namespace Transaction

def fieldNames : List String := ["type", "payload", "timestamp", "description"]

def toJson (t : Transaction) : Json :=
  .object [("type", .string t.kind.name), ("payload", t.payload.value),
    ("timestamp", .string t.timestamp.shortText), ("description", .string t.description)]

/-- Same members, sorted by name. -/
def canonicalJson (t : Transaction) : Json :=
  .object [("description", .string t.description), ("payload", t.payload.value),
    ("timestamp", .string t.timestamp.shortText), ("type", .string t.kind.name)]

theorem canonicalJson_ordered (t : Transaction) : t.canonicalJson.Ordered := by
  refine ⟨?_, trivial, t.payload.ordered, trivial, trivial, trivial⟩
  show ["description", "payload", "timestamp", "type"].Pairwise (· < ·)
  decide

def canonicalChars (t : Transaction) : List Char := t.canonicalJson.compact

def canonicalText (t : Transaction) : String := String.ofList t.canonicalChars

/-- Reads a transaction inside of which arrays and objects may nest `room` deep. -/
def ofDocument? (room : Nat) (d : Json.Document) : Option Transaction :=
  match d.fields? fieldNames with
  | some [kind, payload, timestamp, description] => do
    let kind ← kind.bind (·.choice?) |>.bind EventKind.ofName?
    let payload ← payload.bind (·.toJson? room)
    let timestamp ← timestamp.bind (·.instant?)
    let description ← description.bind (·.string?)
    return ⟨kind, .ofJson payload, timestamp, description⟩
  | _ => none

end Transaction

end AuditedPetitions.Ledger
