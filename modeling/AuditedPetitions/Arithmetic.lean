/-! Checked arithmetic. A number that leaves its range, or a division without a divisor, ends the
operation that asked for it: it is no refusal, and nothing more is recorded of the operation. -/

namespace AuditedPetitions

inductive ArithmeticFault
  | additionOverflow
  | zeroDivisor
  /-- A lifetime that ends after the last moment of the clock. -/
  | expiryOverflow
  /-- A mailbox with more places than can be counted. -/
  | capacityOverflow
  deriving DecidableEq, Repr

def ArithmeticFault.message : ArithmeticFault → String
  | .additionOverflow => "attempt to add with overflow"
  | .zeroDivisor => "attempt to calculate the remainder with a divisor of zero"
  | .expiryOverflow => "overflow when adding duration to instant"
  | .capacityOverflow =>
    "a semaphore may not have more than MAX_PERMITS permits (2305843009213693951)"

/-- How an operation can fail: with a refusal of its own, or for want of a number. -/
inductive Failure (ε : Type)
  | refused (error : ε)
  | arithmetic (fault : ArithmeticFault)
  deriving DecidableEq

abbrev Outcome (ε α : Type) := Except (Failure ε) α

def refuse {ε α : Type} (e : ε) : Outcome ε α := .error (.refused e)

/-- Same outcome with another kind of refusal. -/
def Outcome.mapRefusal {ε δ α : Type} (f : ε → δ) : Outcome ε α → Outcome δ α
  | .ok a => .ok a
  | .error (.refused e) => .error (.refused (f e))
  | .error (.arithmetic fault) => .error (.arithmetic fault)

theorem Outcome.bind_eq_ok {ε α β : Type} {x : Outcome ε α} {f : α → Outcome ε β} {b : β} :
    (x >>= f) = .ok b ↔ ∃ a, x = .ok a ∧ f a = .ok b := by
  cases x <;> simp [bind, Except.bind]

theorem Outcome.bind_eq_error {ε α β : Type} {x : Outcome ε α} {f : α → Outcome ε β}
    {e : Failure ε} :
    (x >>= f) = .error e ↔ x = .error e ∨ ∃ a, x = .ok a ∧ f a = .error e := by
  cases x <;> simp [bind, Except.bind]

def addInt64 {ε : Type} (a b : Int64) : Outcome ε Int64 :=
  let sum := a.toInt + b.toInt
  if -9223372036854775808 ≤ sum ∧ sum < 9223372036854775808 then .ok (Int64.ofInt sum)
  else .error (.arithmetic .additionOverflow)

def addUInt64 {ε : Type} (a b : UInt64) : Outcome ε UInt64 :=
  if a.toNat + b.toNat < UInt64.size then .ok (a + b)
  else .error (.arithmetic .additionOverflow)

def remInt64 {ε : Type} (a b : Int64) : Outcome ε Int64 :=
  if b = 0 then .error (.arithmetic .zeroDivisor) else .ok (a % b)

theorem addInt64_eq_ok {ε : Type} {a b : Int64}
    (lower : -9223372036854775808 ≤ a.toInt + b.toInt)
    (upper : a.toInt + b.toInt < 9223372036854775808) :
    addInt64 (ε := ε) a b = .ok (Int64.ofInt (a.toInt + b.toInt)) := if_pos ⟨lower, upper⟩

end AuditedPetitions
