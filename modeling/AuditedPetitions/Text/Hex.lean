/-! Hexadecimal digits: lower case on writing, either case on reading. -/

namespace AuditedPetitions.Hex

def digit (n : Nat) : Char := Nat.digitChar (n % 16)

def digit? (c : Char) : Option Nat :=
  if '0' ≤ c ∧ c ≤ '9' then some (c.toNat - '0'.toNat)
  else if 'a' ≤ c ∧ c ≤ 'f' then some (c.toNat - 'a'.toNat + 10)
  else if 'A' ≤ c ∧ c ≤ 'F' then some (c.toNat - 'A'.toNat + 10)
  else none

/-- The `width` lowest hexadecimal digits of a number, the highest first. -/
def fixed : Nat → Nat → List Char
  | 0, _ => []
  | width + 1, n => fixed width (n / 16) ++ [digit n]

@[simp] theorem length_fixed (width n : Nat) : (fixed width n).length = width := by
  induction width generalizing n with
  | zero => rfl
  | succ width ih => simp [fixed, ih]

/-- The sixteen digits that are written. -/
def lowerDigits : List Char := "0123456789abcdef".toList

theorem digit_mem (n : Nat) : digit n ∈ lowerDigits := by
  have key : ∀ k < 16, Nat.digitChar k ∈ lowerDigits := by decide
  exact key _ (Nat.mod_lt _ (by decide))

theorem mem_fixed {width n : Nat} {c : Char} (h : c ∈ fixed width n) : c ∈ lowerDigits := by
  induction width generalizing n with
  | zero => simp [fixed] at h
  | succ width ih =>
    simp only [fixed, List.mem_append, List.mem_singleton] at h
    rcases h with h | rfl
    · exact ih h
    · exact digit_mem n

/-- Shortest hexadecimal digits. -/
def digits (n : Nat) : List Char := Nat.toDigits 16 n

end AuditedPetitions.Hex
