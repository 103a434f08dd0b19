import AuditedPetitions.Ledger.Transaction
import AuditedPetitions.Sha256

/-! Blocks. The hash of a block is the digest of its fields written one after the other without
separators: index, digest form of the timestamp, canonical transaction, previous hash, nonce,
difficulty. A hash meets a difficulty when it begins with that many zeros. -/

namespace AuditedPetitions.Ledger

/-- Text hashed ahead of the nonce. -/
def headerText (index : UInt64) (timestamp : Instant) (canonical prevHash : String) : String :=
  Numeral.text index.toNat ++ timestamp.digestText ++ canonical ++ prevHash

/-- Text hashed behind the header. -/
def proofText (nonce : UInt64) (difficulty : UInt32) : String :=
  Numeral.text nonce.toNat ++ Numeral.text difficulty.toNat

/-- Everything that is hashed. -/
def hashedText (index : UInt64) (timestamp : Instant) (canonical prevHash : String)
    (nonce : UInt64) (difficulty : UInt32) : String :=
  headerText index timestamp canonical prevHash ++ proofText nonce difficulty

def blockDigest (index : UInt64) (timestamp : Instant) (canonical prevHash : String)
    (nonce : UInt64) (difficulty : UInt32) : String :=
  Sha256.hexDigest (Sha256.bytes (hashedText index timestamp canonical prevHash nonce difficulty))

def leadingZeros (hash : String) : Nat := (hash.toList.takeWhile (· == '0')).length

def meetsDifficulty (hash : String) (difficulty : UInt32) : Bool :=
  difficulty.toNat ≤ leadingZeros hash

structure Block where
  index : UInt64
  timestamp : Instant
  transaction : Transaction
  /-- Hash of the block before, empty for the first one. -/
  prevHash : String
  hash : String
  nonce : UInt64
  difficulty : UInt32

namespace Block

def hashedText (b : Block) : String :=
  Ledger.hashedText b.index b.timestamp b.transaction.canonicalText b.prevHash b.nonce b.difficulty

/-- Hash that the other fields determine. -/
def computeHash (b : Block) : String :=
  blockDigest b.index b.timestamp b.transaction.canonicalText b.prevHash b.nonce b.difficulty

def meetsDifficulty (b : Block) : Bool := Ledger.meetsDifficulty b.hash b.difficulty

/-- The stored hash is the computed one and meets the stored difficulty. -/
def isSealed (b : Block) : Bool := b.computeHash = b.hash && b.meetsDifficulty

def isGenesis (b : Block) : Bool := b.index = 0

def fieldNames : List String :=
  ["index", "timestamp", "transaction", "prevHash", "hash", "nonce", "difficulty"]

def toJson (b : Block) : Json :=
  .object [("index", .ofUInt64 b.index), ("timestamp", .string b.timestamp.shortText),
    ("transaction", b.transaction.toJson), ("prevHash", .string b.prevHash),
    ("hash", .string b.hash), ("nonce", .ofUInt64 b.nonce),
    ("difficulty", .ofUInt64 b.difficulty.toUInt64)]

/-- Reads a block inside of which arrays and objects may nest `room` deep. -/
def ofDocument? (room : Nat) (d : Json.Document) : Option Block :=
  match d.fields? fieldNames with
  | some [index, timestamp, transaction, prevHash, hash, nonce, difficulty] => do
    let index ← index.bind (·.uint64?)
    let timestamp ← timestamp.bind (·.instant?)
    let transaction ← transaction.bind (Transaction.ofDocument? (room - 1))
    let prevHash ← prevHash.bind (·.string?)
    let hash ← hash.bind (·.string?)
    let nonce ← nonce.bind (·.uint64?)
    let difficulty ← difficulty.bind (·.uint32?)
    return ⟨index, timestamp, transaction, prevHash, hash, nonce, difficulty⟩
  | _ => none

end Block

end AuditedPetitions.Ledger
