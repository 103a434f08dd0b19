import AuditedPetitions.Ledger.Block
import AuditedPetitions.Ledger.Error

/-! Proof of work. A template is a block without nonce and hash; sealing finds the least nonce whose
digest meets the difficulty. The header is hashed once and every nonce goes on from there. -/

namespace AuditedPetitions.Ledger

structure Template where
  index : UInt64
  timestamp : Instant
  transaction : Transaction
  prevHash : String
  difficulty : UInt32

/-- Finished block, and the number of digests that it took. -/
structure Sealed where
  block : Block
  attempts : Nat

/-- Least number from `n` upward that is good, if one is. -/
def leastFrom (good : UInt64 → Bool) (n : UInt64) : Option UInt64 :=
  if good n then some n
  else if n = UInt64.ofNat (UInt64.size - 1) then none
  else leastFrom good (n + 1)
termination_by UInt64.size - n.toNat
decreasing_by
  have hlt := n.toNat_lt_size
  have hn : n.toNat ≠ UInt64.size - 1 := fun h => by
    rename_i hne
    exact hne (by rw [← h, UInt64.ofNat_toNat])
  have hstep : (n + 1).toNat = n.toNat + 1 := by
    rw [UInt64.toNat_add]
    exact Nat.mod_eq_of_lt (Nat.lt_of_le_of_lt (Nat.succ_le_of_lt (Nat.lt_of_le_of_ne
      (Nat.le_sub_one_of_lt hlt) hn)) (by decide))
  rw [hstep]
  exact Nat.sub_lt_sub_left hlt (Nat.lt_succ_self _)

namespace Template

/-- Template of the first block of a chain. -/
def genesis (difficulty : UInt32) (description : String) (timestamp eventTime : Instant) :
    Template :=
  ⟨0, timestamp, ⟨.genesis, .null, eventTime, description⟩, "", difficulty⟩

/-- Hasher that has taken everything ahead of the nonce. -/
def header (t : Template) : Sha256.Hasher :=
  Sha256.Hasher.empty.absorb
    (Sha256.bytes (headerText t.index t.timestamp t.transaction.canonicalText t.prevHash))

/-- Digest reached from a hashed header. -/
def digestFrom (header : Sha256.Hasher) (nonce : UInt64) (difficulty : UInt32) : String :=
  String.ofList (header.absorb (Sha256.bytes (proofText nonce difficulty))).finish.hex

theorem digestFrom_header (t : Template) (nonce : UInt64) :
    digestFrom t.header nonce t.difficulty =
      blockDigest t.index t.timestamp t.transaction.canonicalText t.prevHash nonce
        t.difficulty := by
  simp only [digestFrom, header, blockDigest, Sha256.hexDigest, hashedText, Sha256.bytes_append,
    Sha256.Hasher.absorb_append]

def withProof (t : Template) (nonce : UInt64) (hash : String) : Block :=
  ⟨t.index, t.timestamp, t.transaction, t.prevHash, hash, nonce, t.difficulty⟩

/-- Searches nonces from zero upward. -/
def findSeal (t : Template) : Except Error Sealed :=
  let header := t.header
  let good (nonce : UInt64) := meetsDifficulty (digestFrom header nonce t.difficulty) t.difficulty
  -- No digest has more than 64 zeros, so a greater difficulty is out of reach.
  if 64 < t.difficulty then .error (.sealing .nonceSpaceExhausted)
  else
    match leastFrom good 0 with
    | none => .error (.sealing .nonceSpaceExhausted)
    | some nonce =>
      .ok ⟨t.withProof nonce (digestFrom header nonce t.difficulty), nonce.toNat + 1⟩

end Template

end AuditedPetitions.Ledger
