import AuditedPetitions.Ledger.Template

/-! Chains. A list of blocks is verified by one walk that carries the position and the hash that the
next block has to link to; a live chain grows by one block at a time, checked against its tail. -/

namespace AuditedPetitions.Ledger

/-- First condition that a block fails at its position behind a hash. -/
def Block.fault? (b : Block) (position : Nat) (prev : String) : Option IntegrityFault :=
  if b.index.toNat ≠ position then some (.outOfSequence b.index)
  else if b.prevHash ≠ prev then some .unlinked
  else if b.computeHash ≠ b.hash then some .hashMismatch
  else if ¬ b.meetsDifficulty then some (.difficultyMissed b.difficulty)
  else none

def verifyFrom (position : Nat) (prev : String) : List Block → Except Error Unit
  | [] => .ok ()
  | b :: bs =>
    match b.fault? position prev with
    | some fault => .error (.integrity position fault)
    | none => verifyFrom (position + 1) b.hash bs

/-- Every block in its place, linked, with its own hash and enough work; at least one block. -/
def verifyChain : List Block → Except Error Unit
  | [] => .error (.integrity 0 .emptyChain)
  | bs => verifyFrom 0 "" bs

/-- A chain has a first block and the blocks behind it, in order. -/
structure Chain where
  genesis : Block
  later : List Block

namespace Chain

def blocks (c : Chain) : List Block := c.genesis :: c.later

def tail (c : Chain) : Block := c.later.getLastD c.genesis

def size (c : Chain) : Nat := c.later.length + 1

/-- Difficulty of the templates of this chain, fixed by its first block. -/
def difficulty (c : Chain) : UInt32 := c.genesis.difficulty

def verify (c : Chain) : Except Error Unit := verifyChain c.blocks

def ofGenesis (b : Block) : Except Error Chain :=
  if ¬ b.isGenesis ∨ b.prevHash ≠ "" then .error (.integrity b.index.toNat .notGenesis)
  else
    match verifyChain [b] with
    | .error e => .error e
    | .ok () => .ok ⟨b, []⟩

/-- Template of the next block on the tail. -/
def nextTemplate (c : Chain) (transaction : Transaction) (timestamp : Instant) : Template :=
  ⟨c.tail.index + 1, timestamp, transaction, c.tail.hash, c.difficulty⟩

/-- Reason for which a block does not go behind the tail. -/
def pushFault? (c : Chain) (b : Block) : Option IntegrityFault :=
  if b.index.toNat ≠ c.tail.index.toNat + 1 then some (.unexpectedIndex (c.tail.index.toNat + 1))
  else if b.prevHash ≠ c.tail.hash then some .unlinkedToTail
  else if ¬ b.isSealed then some .unsealed
  else none

def push (c : Chain) (b : Block) : Except Error Chain :=
  match c.pushFault? b with
  | some fault => .error (.integrity b.index.toNat fault)
  | none => .ok ⟨c.genesis, c.later ++ [b]⟩

@[simp] theorem blocks_ofGenesis {b : Block} {c : Chain} (h : ofGenesis b = .ok c) :
    c.blocks = [b] := by
  unfold ofGenesis at h
  split at h
  · cases h
  · split at h
    · cases h
    · cases h
      rfl

theorem blocks_push {c d : Chain} {b : Block} (h : c.push b = .ok d) :
    d.blocks = c.blocks ++ [b] := by
  unfold push at h
  split at h
  · cases h
  · cases h
    rfl

end Chain

end AuditedPetitions.Ledger
