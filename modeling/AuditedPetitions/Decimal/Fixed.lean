import AuditedPetitions.Decimal.Shortest

/-! Other decimal texts of doubles: a fixed number of places, rounded to the nearest with ties to
the even neighbour, and whole doubles written out in full. -/

namespace AuditedPetitions.Decimal

/-- Nearest whole number of a fraction; a tie goes to the even neighbour. -/
def roundDiv (num den : Nat) : Nat :=
  let q := num / den
  let twice := 2 * (num % den)
  if den < twice ∨ (den = twice ∧ q % 2 = 1) then q + 1 else q

/-- Numerator and denominator of a non-negative finite double. -/
def fractionOf (x : Float) : Nat × Nat :=
  let (exponent, fraction) := fields x
  let i := Interval.ofFields exponent fraction
  (i.value, i.denominator)

/-- A non-negative double with six places. -/
def sixPlaces (x : Float) : List Char :=
  let (num, den) := fractionOf x
  let n := roundDiv (num * 1000000) den
  Numeral.digits (n / 1000000) ++ '.' :: Numeral.padded 6 (n % 1000000)

/-- A count as the double nearest to it, in its shortest digits and written out in full. -/
def countChars (n : UInt64) : List Char :=
  if n = 0 then ['0']
  else
    let (exponent, fraction) := fields n.toFloat
    let d := shortest exponent fraction
    Numeral.digits d.1 ++ List.replicate d.2.toNat '0'

end AuditedPetitions.Decimal
