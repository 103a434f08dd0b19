import AuditedPetitions.Json.Decode
import AuditedPetitions.Ledger.Error
import AuditedPetitions.Toml.Reader

/-! Configuration of a ledger, from a record, from environment variables or from a TOML file. What
is not given has a default; the difficulty is checked before the capacity. -/

namespace AuditedPetitions.Ledger

structure Config where
  difficulty : UInt32
  mailboxCapacity : UInt64
  genesisDescription : String
  deriving DecidableEq

namespace Config
open Json.Document (fieldOr)

def standard : Config := ⟨2, 1024, "Genesis block"⟩

def validate (c : Config) : Except Error Unit :=
  if maxDifficulty < c.difficulty then .error (.config (.difficultyTooLarge c.difficulty))
  else if c.mailboxCapacity = 0 then .error (.config .noCapacity)
  else .ok ()

def validated (c : Config) : Except Error Config := c.validate.map fun _ => c

def fieldNames : List String := ["difficulty", "mailbox_capacity", "genesis_description"]

def ofDocument? (d : Json.Document) : Option Config :=
  match d.leadingFields? fieldNames with
  | some [difficulty, capacity, description] => do
    let difficulty ← fieldOr standard.difficulty (·.uint32?) difficulty
    let capacity ← fieldOr standard.mailboxCapacity (·.uint64?) capacity
    let description ← fieldOr standard.genesisDescription (·.string?) description
    return ⟨difficulty, capacity, description⟩
  | _ => none

def toJson (c : Config) : Json :=
  .object [("difficulty", .ofUInt64 c.difficulty.toUInt64),
    ("mailbox_capacity", .ofUInt64 c.mailboxCapacity),
    ("genesis_description", .string c.genesisDescription)]

/-- Unsigned value of a variable, or the default if it is not set. -/
def setting (lookup : String → Option String) (name : String) (limit default : Nat) :
    Except Error Nat :=
  match lookup name with
  | none => .ok default
  | some s =>
    match Numeral.unsigned limit s.toList with
    | .ok n => .ok n
    | .error fault => .error (.config (.badVariable name fault))

def ofVariables (lookup : String → Option String) : Except Error Config := do
  let difficulty ← setting lookup "LEDGER_DIFFICULTY" UInt32.size standard.difficulty.toNat
  let capacity ← setting lookup "LEDGER_MAILBOX_CAPACITY" UInt64.size
    standard.mailboxCapacity.toNat
  validated ⟨.ofNat difficulty, .ofNat capacity, standard.genesisDescription⟩

def tomlNat? (limit : Nat) : Toml.Node → Option Nat
  | .value (.integer n) => if 0 ≤ n ∧ n < limit then some n.toNat else none
  | _ => none

def tomlText? : Toml.Node → Option String
  | .value (.text s) => some s
  | _ => none

def ofEntries? (es : Toml.Entries) : Option Config := do
  let difficulty ← fieldOr standard.difficulty
    (fun n => (tomlNat? UInt32.size n).map UInt32.ofNat) (es.get? "difficulty")
  let capacity ← fieldOr standard.mailboxCapacity
    (fun n => (tomlNat? UInt64.size n).map UInt64.ofNat) (es.get? "mailbox_capacity")
  let description ← fieldOr standard.genesisDescription tomlText? (es.get? "genesis_description")
  return ⟨difficulty, capacity, description⟩

/-- Configuration in the text of a file, if there is such a file. -/
def ofFile : Option String → Except Error Config
  | none => .error .unreadableFile
  | some s =>
    match (Toml.ofText? s).bind ofEntries? with
    | none => .error (.config .unparsable)
    | some c => c.validated

end Config

end AuditedPetitions.Ledger
