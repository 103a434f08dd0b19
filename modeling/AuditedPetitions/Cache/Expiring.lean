import AuditedPetitions.Table

/-! Maps whose entries expire. An entry that has expired is seen by no reader; it stays until a
reader of its key removes it, the key is set again, or the key is deleted, and a deletion counts it.
Moments and lifetimes are in one unit, which is the caller's. -/

namespace AuditedPetitions.Cache

structure Entry where
  key : String
  text : String
  /-- First moment at which the entry is gone. -/
  expires : Nat
  deriving DecidableEq

def Entry.isLive (e : Entry) (now : Nat) : Bool := now < e.expires

abbrev ExpiringMap := Table Entry.key

namespace ExpiringMap

/-- Text under a key. An expired entry is removed on the way. -/
def get (m : ExpiringMap) (now : Nat) (key : String) : Option String × ExpiringMap :=
  match m.get? key with
  | none => (none, m)
  | some e => if e.isLive now then (some e.text, m) else (none, m.erase key)

def set (m : ExpiringMap) (now : Nat) (key text : String) (ttl : Nat) : ExpiringMap :=
  m.put ⟨key, text, now + ttl⟩

/-- Keys of the entries that have not expired, sorted. -/
def liveKeys (m : ExpiringMap) (now : Nat) : List String :=
  ((m.rows.filter (·.isLive now)).map Entry.key).mergeSort (· ≤ ·)

/-- Live keys that begin with a text. -/
def scan (m : ExpiringMap) (now : Nat) (start : String) : List String :=
  (m.liveKeys now).filter fun k => start.toList.isPrefixOf k.toList

/-- Removes entries, and counts those that were there, expired or not. -/
def delete (m : ExpiringMap) : List String → Nat × ExpiringMap
  | [] => (0, m)
  | k :: ks =>
    let (n, rest) := delete (m.erase k) ks
    (if m.contains k then n + 1 else n, rest)

end ExpiringMap

end AuditedPetitions.Cache
