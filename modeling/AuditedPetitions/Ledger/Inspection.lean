import AuditedPetitions.Ledger.Error
import AuditedPetitions.Ledger.Snapshot

/-! Inspection of an exported chain: read it, verify it, and report how many blocks, petitions and
votes it holds. -/

namespace AuditedPetitions.Ledger

inductive Inspection
  | noPath
  | unreadable
  | undecodable
  | refused (error : Error)
  | verified (blocks petitions votes : Nat) (tail : String)

namespace Inspection

/-- Inspection of the text of a file, if there is such a file. -/
def ofFile : Option String → Inspection
  | none => .unreadable
  | some content =>
    match Snapshot.ofText? content with
    | none => .undecodable
    | some s =>
      match s.verify with
      | .error e => .refused e
      | .ok () =>
        .verified s.size (s.count .petitionCreated) (s.count .voteCast)
          (s.tail?.elim "" (·.hash))

/-- Line that is logged. -/
def log : Inspection → List String
  | .verified blocks petitions votes tail =>
    ["INFO ledger_inspect: Snapshot verified blocks=" ++ Numeral.text blocks ++ " petitions=" ++
      Numeral.text petitions ++ " votes=" ++ Numeral.text votes ++ " tail=" ++ tail]
  | _ => []

/-- First line of the complaint about the file at a path. -/
def complaint (path : String) : Inspection → Option String
  | .noPath => some "usage: ledger-inspect <snapshot.json>"
  | .unreadable => some ("reading " ++ path)
  | .undecodable => some ("parsing " ++ path)
  | .refused _ => some "snapshot failed verification"
  | .verified .. => none

def cause : Inspection → Option String
  | .refused e => some e.message
  | _ => none

def exitCode : Inspection → UInt32
  | .verified .. => 0
  | _ => 1

end Inspection

end AuditedPetitions.Ledger
