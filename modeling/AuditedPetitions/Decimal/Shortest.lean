import AuditedPetitions.Text.Numeral

/-! Shortest decimals of binary fractions. A finite double is `m * 2 ^ q`; the reals nearer to it
than to its neighbours form an interval that includes its ends when `m` is even. The shortest
decimal is the one with the fewest significant digits inside the interval, the nearer of two, the
even one of two equally near. All arithmetic is on natural numbers. -/

namespace AuditedPetitions.Decimal

/-- Reals that round to one double, as three fractions over one denominator. -/
structure Interval where
  low : Nat
  value : Nat
  high : Nat
  denominator : Nat
  closed : Bool
  deriving DecidableEq

/-- Whether `n * 10 ^ p` lies in the interval. -/
def Interval.holds (i : Interval) (n : Nat) (p : Int) : Bool :=
  let a := n * Nat.pow 10 p.toNat * i.denominator
  let scale := Nat.pow 10 (-p).toNat
  if i.closed then i.low * scale ≤ a && a ≤ i.high * scale
  else i.low * scale < a && a < i.high * scale

/-- Exponent of the highest decimal digit. -/
def Interval.magnitude (i : Interval) : Int :=
  if i.denominator ≤ i.value then
    ((Numeral.digits (i.value / i.denominator)).length : Int) - 1
  else -((Numeral.digits ((i.denominator - 1) / i.value)).length : Int)

/-- Neighbours of the value on the grid of the multiples of `10 ^ p`; the nearer one that lies in
the interval. -/
def Interval.onGrid (i : Interval) (p : Int) : Option Nat :=
  let num := i.value * Nat.pow 10 (-p).toNat
  let den := i.denominator * Nat.pow 10 p.toNat
  let below := num / den
  let lowHit := i.holds below p
  let highHit := i.holds (below + 1) p
  let twice := 2 * (num % den)
  if lowHit && highHit then
    if twice < den || (twice == den && below % 2 == 0) then some below else some (below + 1)
  else if lowHit then some below
  else if highHit then some (below + 1)
  else none

/-- Tries one more digit at a time, `count` times at most. -/
def Interval.search (i : Interval) : Nat → Int → Nat × Int
  | 0, p => (i.value * Nat.pow 10 (-p).toNat / (i.denominator * Nat.pow 10 p.toNat), p)
  | count + 1, p =>
    match i.onGrid p with
    | some n => (n, p)
    | none => i.search count (p - 1)

/-- Seventeen digits always reach into the interval of a double. -/
def Interval.shortest (i : Interval) : Nat × Int := i.search 17 i.magnitude

/-- Number of values of a double's fraction field, two to the power 52. -/
def fractionSize : Nat := 0x10000000000000

/-- Exponent and fraction fields of a double. -/
def fields (x : Float) : Nat × Nat :=
  let bits := x.toBits.toNat
  (bits / fractionSize % 2048, bits % fractionSize)

/-- Interval of the positive double with the given exponent and fraction fields. -/
def Interval.ofFields (exponent fraction : Nat) : Interval :=
  let m := if exponent = 0 then fraction else fraction + fractionSize
  let q : Int := (if exponent = 0 then -1074 else (exponent : Int) - 1075) - 2
  let gap := if fraction = 0 ∧ 1 < exponent then 1 else 2
  let scale := Nat.pow 2 q.toNat
  ⟨(4 * m - gap) * scale, 4 * m * scale, (4 * m + 2) * scale, Nat.pow 2 (-q).toNat, m % 2 == 0⟩

/-- Drops zeros at the end, which move the point. -/
def trimZeros : Nat → Nat × Int → Nat × Int
  | 0, d => d
  | count + 1, (n, p) => if n % 10 = 0 then trimZeros count (n / 10, p + 1) else (n, p)

/-- Digits `n` and exponent `p` of the shortest decimal `n * 10 ^ p` of a positive double. -/
def shortest (exponent fraction : Nat) : Nat × Int :=
  trimZeros 20 (Interval.ofFields exponent fraction).shortest

end AuditedPetitions.Decimal
