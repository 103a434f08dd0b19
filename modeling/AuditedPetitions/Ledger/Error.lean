import AuditedPetitions.Text.Numeral

/-! What can go wrong with a ledger, as causes; the wording is in one function. -/

namespace AuditedPetitions.Ledger

/-- Reasons for which a block or a chain is refused. -/
inductive IntegrityFault
  | emptyChain
  | outOfSequence (index : UInt64)
  | unlinked
  | hashMismatch
  | difficultyMissed (difficulty : UInt32)
  | notGenesis
  | unexpectedIndex (expected : Nat)
  | unlinkedToTail
  | unsealed
  deriving DecidableEq, Repr

def IntegrityFault.message : IntegrityFault → String
  | .emptyChain => "chain is empty"
  | .outOfSequence index => "index " ++ Numeral.text index.toNat ++ " out of sequence"
  | .unlinked => "previous hash does not link"
  | .hashMismatch => "stored hash does not match contents"
  | .difficultyMissed d => "hash does not meet difficulty " ++ Numeral.text d.toNat
  | .notGenesis => "not a genesis block"
  | .unexpectedIndex expected => "expected index " ++ Numeral.text expected
  | .unlinkedToTail => "previous hash does not link to tail"
  | .unsealed => "block is not properly sealed"

inductive SealingFault
  | nonceSpaceExhausted
  /-- The search was broken off from outside. -/
  | aborted
  deriving DecidableEq, Repr

def SealingFault.message : SealingFault → String
  | .nonceSpaceExhausted => "nonce space exhausted"
  | .aborted => "mining task aborted"

/-- How a request to the writer came to nothing. -/
inductive WriterFault
  | stopped
  | droppedReply
  deriving DecidableEq, Repr

def WriterFault.message : WriterFault → String
  | .stopped => "ledger writer has stopped"
  | .droppedReply => "ledger writer dropped the reply"

inductive ConfigFault
  | difficultyTooLarge (difficulty : UInt32)
  | noCapacity
  | badVariable (name : String) (fault : Numeral.Fault)
  | unparsable
  deriving DecidableEq, Repr

/-- Largest difficulty that a configuration may ask for. -/
def maxDifficulty : UInt32 := 6

def ConfigFault.message : ConfigFault → String
  | .difficultyTooLarge d =>
    "difficulty " ++ Numeral.text d.toNat ++ " exceeds maximum " ++
      Numeral.text maxDifficulty.toNat
  | .noCapacity => "mailbox_capacity must be positive"
  | .badVariable name fault => name ++ ": " ++ fault.message
  | .unparsable => "Failed to parse config"

inductive Error
  | sealing (fault : SealingFault)
  | integrity (index : Nat) (fault : IntegrityFault)
  | concurrency (fault : WriterFault)
  | config (fault : ConfigFault)
  | undecodable
  | unreadableFile
  deriving DecidableEq, Repr

def Error.message : Error → String
  | .sealing fault => "Sealing failure: " ++ fault.message
  | .integrity index fault =>
    "Integrity violation at block " ++ Numeral.text index ++ ": " ++ fault.message
  | .concurrency fault => "Concurrency error: " ++ fault.message
  | .config fault => "Configuration error: " ++ fault.message
  | .undecodable => "Serialization error"
  | .unreadableFile => "IO error"

end AuditedPetitions.Ledger
