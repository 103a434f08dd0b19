/-! Decimal numerals: the digits of a number, numerals filled up with zeros, and the reading of
unsigned numerals with the reason of each refusal. Radix ten only; signs of written numbers are
the writer's business, a leading `+` on reading is ours. -/

namespace AuditedPetitions.Numeral

/-- Shortest decimal digits. -/
def digits (n : Nat) : List Char := Nat.toDigits 10 n

/-- Number written by a list of digits. -/
def value (ds : List Char) : Nat := Nat.ofDigitChars 10 ds 0

theorem value_digits (n : Nat) : value (digits n) = n :=
  Nat.ofDigitChars_toDigits (by decide) (by decide)

theorem digits_ne_nil (n : Nat) : digits n ≠ [] := Nat.toDigits_ne_nil

theorem isDigit_of_mem_digits {n : Nat} {c : Char} (h : c ∈ digits n) : c.isDigit = true :=
  Nat.isDigit_of_mem_toDigits (by decide) (by decide) h

theorem digits_injective {m n : Nat} (h : digits m = digits n) : m = n := by
  rw [← value_digits m, h, value_digits]

/-- At least `width` digits, filled up with zeros in front. -/
def padded (width n : Nat) : List Char :=
  List.replicate (width - (digits n).length) '0' ++ digits n

def ofInt : Int → List Char
  | .ofNat n => digits n
  | .negSucc n => '-' :: digits (n + 1)

def text (n : Nat) : String := String.ofList (digits n)

def intText (n : Int) : String := String.ofList (ofInt n)

def digit? (c : Char) : Option Nat :=
  if c.isDigit then some (c.toNat - '0'.toNat) else none

inductive Fault
  | empty
  | invalidDigit
  | tooLarge
  deriving DecidableEq, Repr

def Fault.message : Fault → String
  | .empty => "cannot parse integer from empty string"
  | .invalidDigit => "invalid digit found in string"
  | .tooLarge => "number too large to fit in target type"

/-- Reads on from left to right; the first digit that leaves the range, or the first character
that is no digit, decides. -/
def accumulate (limit : Nat) : Nat → List Char → Except Fault Nat
  | acc, [] => .ok acc
  | acc, c :: cs =>
    match digit? c with
    | none => .error .invalidDigit
    | some d =>
      if limit ≤ acc * 10 + d then .error .tooLarge else accumulate limit (acc * 10 + d) cs

/-- Unsigned numeral below `limit`, with an optional `+`. A sign alone is an invalid digit. -/
def unsigned (limit : Nat) : List Char → Except Fault Nat
  | [] => .error .empty
  | ['+'] => .error .invalidDigit
  | '+' :: cs => accumulate limit 0 cs
  | cs => accumulate limit 0 cs

end AuditedPetitions.Numeral
