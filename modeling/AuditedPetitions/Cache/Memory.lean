import AuditedPetitions.Cache.Basic
import AuditedPetitions.Cache.Expiring

/-! An expiring map as a backend. It can be switched off and can be slow: a call that takes longer
than its deadline has no effect, and one without a deadline is waited for. -/

namespace AuditedPetitions.Cache

/-- Nanoseconds, the unit of moments, in whole seconds. -/
def seconds (n : UInt64) : Nat := n.toNat * 1000000000

/-- First moment that the clock does not reach: it counts whole seconds in 64 bits with a sign, and
nanoseconds into the second. -/
def clockEnd : Nat := seconds 9223372036854775808

/-- Backend over an expiring map at a moment, in which the next calls fail with a given error. -/
def ExpiringMap.backend (now : Nat) (fault : Option Error) : Backend ExpiringMap where
  get key m := match fault with
    | some e => (.error e, m)
    | none => let (text, m) := m.get now key; (.ok text, m)
  set key text ttl m := match fault with
    | some e => (refuse e, m)
    | none =>
      if now + ttl < clockEnd then (.ok (), m.set now key text ttl)
      else (.error (.arithmetic .expiryOverflow), m)
  scan start m := match fault with
    | some e => (.error e, m)
    | none => (.ok (m.scan now start), m)
  delete keys m := match fault with
    | some e => (.error e, m)
    | none => let (n, m) := m.delete keys; (.ok n, m)

/-- Condition of a backend in memory. -/
structure Switches where
  unavailable : Bool
  latency : Duration

namespace Switches

def standard : Switches := ⟨false, ⟨0⟩⟩

/-- Failure of a call under a deadline. Slowness shows first. -/
def fault? (s : Switches) (deadline : Option Duration) : Option Error :=
  match deadline.filter (·.millis < s.latency.millis) with
  | some d => some (.timeout d)
  | none => if s.unavailable then some (.unavailable "memory cache switched off") else none

end Switches

end AuditedPetitions.Cache
