import AuditedPetitions.Json.Value
import AuditedPetitions.Decimal.Shortest

/-! Numbers of JSON texts. A numeral without point and exponent is an integer if it fits in 64 bits;
every other numeral, and minus zero, is a double. A double is made from the digits that fit in 64
bits, scaled by powers of ten in binary arithmetic; one beyond the finite range is no number. Doubles
are written with their shortest digits. -/

namespace AuditedPetitions.Json
open Numeral

/-- Parts of a well-formed number. -/
structure Number where
  negative : Bool
  whole : List Char
  fraction : Option (List Char)
  /-- Whether the exponent is negative, and its digits. -/
  exponent : Option (Bool × List Char)
  deriving DecidableEq

namespace Number

def exponentPart? : List Char → Option (Bool × List Char)
  | '+' :: ds => if ds ≠ [] ∧ ds.all Char.isDigit then some (false, ds) else none
  | '-' :: ds => if ds ≠ [] ∧ ds.all Char.isDigit then some (true, ds) else none
  | ds => if ds ≠ [] ∧ ds.all Char.isDigit then some (false, ds) else none

/-- Exponent, if there is one, up to the end. -/
def tail? (negative : Bool) (whole : List Char) (fraction : Option (List Char)) :
    List Char → Option Number
  | [] => some ⟨negative, whole, fraction, none⟩
  | c :: cs =>
    if c = 'e' ∨ c = 'E' then
      (exponentPart? cs).map fun e => ⟨negative, whole, fraction, some e⟩
    else none

/-- A whole part has no superfluous zero in front; a point has digits on both sides. -/
def unsigned? (negative : Bool) (cs : List Char) : Option Number :=
  let whole := cs.takeWhile Char.isDigit
  let rest := cs.dropWhile Char.isDigit
  if whole = [] ∨ (whole.head? = some '0' ∧ whole ≠ ['0']) then none
  else
    match rest with
    | '.' :: rest =>
      let fraction := rest.takeWhile Char.isDigit
      if fraction = [] then none
      else tail? negative whole (some fraction) (rest.dropWhile Char.isDigit)
    | rest => tail? negative whole none rest

def ofChars? : List Char → Option Number
  | '-' :: cs => unsigned? true cs
  | cs => unsigned? false cs

/-- Takes digits while the number fits in 64 bits: the number, how many were taken, and how many
were left. -/
def take (significand : Nat) : List Char → Nat × Nat × Nat
  | [] => (significand, 0, 0)
  | c :: cs =>
    let next := significand * 10 + (c.toNat - '0'.toNat)
    if next < 18446744073709551616 then
      let r := take next cs
      (r.1, r.2.1 + 1, r.2.2)
    else (significand, 0, cs.length + 1)

/-- Significand and power of ten in front of the exponent. -/
def scaled (n : Number) : Nat × Int :=
  let w := take 0 n.whole
  let f := take w.1 (n.fraction.getD [])
  (f.1, (w.2.2 : Int) - f.2.1)

/-- Divides by tenth powers of at most 308 at a time. -/
def shrink (x : Float) (e : Nat) : Float :=
  if e ≤ 308 then x / Float.ofScientific 1 false e
  else if x == 0.0 then x
  else shrink (x / Float.ofScientific 1 false 308) (e - 308)
termination_by e

/-- `significand * 10 ^ e` in binary arithmetic, if it is finite. -/
def scale (significand : Nat) (e : Int) : Option Float :=
  let x := (UInt64.ofNat significand).toFloat
  if e < 0 then some (shrink x e.natAbs)
  else if e ≤ 308 then
    let y := x * Float.ofScientific 1 false e.natAbs
    if y.isInf then none else some y
  else if x == 0.0 then some x
  else none

/-- Largest exponent that is added up; a larger one overflows or vanishes at once. -/
def exponentLimit : Nat := 2147483647

/-- Magnitude of the numeral as a double. -/
def magnitude (n : Number) : Option Float :=
  let (significand, e) := n.scaled
  match n.exponent with
  | none => scale significand e
  | some (negative, ds) =>
    let d := value ds
    if exponentLimit < d then
      if significand ≠ 0 ∧ ¬ negative then none else some 0.0
    else scale significand (if negative then e - d else e + d)

def toFloat? (n : Number) : Option Float := n.magnitude.map fun x => if n.negative then -x else x

def isWhole (n : Number) : Bool := n.fraction.isNone && n.exponent.isNone

/-- Whole number of a numeral without point and exponent; minus zero is none. -/
def toInt? (n : Number) : Option WideInt :=
  let v := value n.whole
  if ¬ n.isWhole then none
  else if ¬ n.negative then WideInt.of? v
  else if v = 0 then none
  else WideInt.of? (-(v : Int))

/-- Value of a numeral, unless it lies beyond the finite doubles. -/
def toJson? (n : Number) : Option Json :=
  match n.toInt? with
  | some i => some (.integer i)
  | none => n.toFloat?.map .float

end Number

/-- Digits of a double, its point, and an exponent unless `0.00001 ≤ |x| < 10 ^ 16`. -/
def layout (digits : List Char) (e : Int) : List Char :=
  let point : Int := digits.length + e
  if 0 ≤ e ∧ point ≤ 16 then digits ++ List.replicate e.toNat '0' ++ ['.', '0']
  else if 0 < point ∧ point ≤ 16 then
    digits.take point.toNat ++ '.' :: digits.drop point.toNat
  else if -5 < point ∧ point ≤ 0 then
    '0' :: '.' :: (List.replicate (-point).toNat '0' ++ digits)
  else
    let mantissa := match digits with
      | [d] => [d]
      | d :: ds => d :: '.' :: ds
      | [] => []
    let e := point - 1
    mantissa ++ 'e' :: (if e < 0 then '-' :: Numeral.digits e.natAbs
      else '+' :: Numeral.digits e.natAbs)

def floatChars (x : Float) : List Char :=
  let (exponent, fraction) := Decimal.fields x
  let sign := if x.toBits < 0x8000000000000000 then [] else ['-']
  if exponent = 0 ∧ fraction = 0 then sign ++ ['0', '.', '0']
  else
    let d := Decimal.shortest exponent fraction
    sign ++ layout (Numeral.digits d.1) d.2

end AuditedPetitions.Json
