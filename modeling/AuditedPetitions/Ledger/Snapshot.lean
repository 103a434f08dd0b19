import AuditedPetitions.Ledger.Chain

/-! Copies of a chain at one point in time, and their exported form: a pretty-printed array of
blocks that can be read back and verified on its own. -/

namespace AuditedPetitions.Ledger

structure Snapshot where
  blocks : List Block

namespace Snapshot

def size (s : Snapshot) : Nat := s.blocks.length

def tail? (s : Snapshot) : Option Block := s.blocks.getLast?

def verify (s : Snapshot) : Except Error Unit := verifyChain s.blocks

def toJson (s : Snapshot) : Json := .array (s.blocks.map Block.toJson)

def exportText (s : Snapshot) : String := s.toJson.prettyText

def ofDocument? (room : Nat) (d : Json.Document) : Option Snapshot :=
  (d.list? (Block.ofDocument? (room - 1))).map .mk

/-- Reads an exported text; its arrays and objects may nest as deep as in any text. -/
def ofText? (s : String) : Option Snapshot :=
  (Json.Document.ofText? s).bind (ofDocument? (Json.Document.depthLimit - 1))

/-- Number of blocks of a kind. -/
def count (s : Snapshot) (kind : EventKind) : Nat :=
  s.blocks.countP (·.transaction.kind = kind)

def linkedFrom (prev : String) : List Block → Bool
  | [] => true
  | b :: bs => b.prevHash = prev && linkedFrom b.hash bs

/-- Every block names the hash of the block before. -/
def isLinked (s : Snapshot) : Bool := linkedFrom "" s.blocks

/-- Digests that were computed for the nonces of all blocks. -/
def attempts (s : Snapshot) : Nat := s.blocks.foldr (fun b n => b.nonce.toNat + 1 + n) 0

end Snapshot

def Chain.snapshot (c : Chain) : Snapshot := ⟨c.blocks⟩

end AuditedPetitions.Ledger
