import AuditedPetitions.Instant.Basic
import AuditedPetitions.Text.Blank
import AuditedPetitions.Text.Numeral

/-! Reading of instants: a date, a separator, a time of day with an optional fraction, and the
offset of the local clock. The reader is lenient about leading zeros and about blanks before a
number, before a separating mark and before the offset; blanks next to the date's separator are
part of nothing and refused. -/

namespace AuditedPetitions.Instant
open Text Numeral

/-- At most `width` digits, at least one. -/
def number (width : Nat) (cs : List Char) : Option (Nat × List Char) :=
  let ds := (cs.take width).takeWhile Char.isDigit
  if ds.isEmpty then none else some (value ds, cs.drop ds.length)

/-- Blanks and then at most `width` digits. -/
def field (width : Nat) (cs : List Char) : Option (Nat × List Char) := number width (trimStart cs)

/-- Blanks and then the given mark. -/
def mark (c : Char) (cs : List Char) : Option (List Char) :=
  match trimStart cs with
  | [] => none
  | d :: rest => if d = c then some rest else none

/-- A year has at most four digits, or a sign and any number of them. -/
def yearField (cs : List Char) : Option (Int × List Char) :=
  match trimStart cs with
  | '-' :: rest => (number rest.length rest).map fun r => (-(r.1 : Int), r.2)
  | '+' :: rest => (number rest.length rest).map fun r => ((r.1 : Int), r.2)
  | rest => (number 4 rest).map fun r => ((r.1 : Int), r.2)

/-- Nanoseconds after a point; what follows the ninth digit is dropped. -/
def fractionField : List Char → Option (Nat × List Char)
  | '.' :: rest => do
    let (n, _) ← number 9 rest
    let width := ((rest.take 9).takeWhile Char.isDigit).length
    return (n * Nat.pow 10 (9 - width), rest.dropWhile Char.isDigit)
  | rest => some (0, rest)

def twoDigits : List Char → Option (Nat × List Char)
  | a :: b :: rest => do
    let x ← digit? a
    let y ← digit? b
    return (x * 10 + y, rest)
  | _ => none

/-- Offset in minutes after its sign: two digits of hours, colons or blanks, two of minutes. -/
def clockOffset (cs : List Char) : Option (Nat × List Char) := do
  let (hours, cs) ← twoDigits cs
  let (minutes, cs) ← twoDigits (cs.dropWhile fun c => c == ':' || isBlankChar c)
  if hours < 24 ∧ minutes < 60 then return (hours * 60 + minutes, cs) else none

/-- Offset of the local clock in minutes: `UTC` or `Z` in either case, or a signed clock time; the
sign may be U+2212. -/
def offsetField : List Char → Option (Int × List Char)
  | 'Z' :: rest => some (0, rest)
  | 'z' :: rest => some (0, rest)
  | '+' :: rest => (clockOffset rest).map fun r => ((r.1 : Int), r.2)
  | '-' :: rest => (clockOffset rest).map fun r => (-(r.1 : Int), r.2)
  | '\u2212' :: rest => (clockOffset rest).map fun r => (-(r.1 : Int), r.2)
  | a :: b :: c :: rest =>
    if a.toUpper = 'U' ∧ b.toUpper = 'T' ∧ c.toUpper = 'C' then some (0, rest) else none
  | _ => none

def dateField (cs : List Char) : Option (Date × List Char) := do
  let (year, cs) ← yearField cs
  let cs ← mark '-' cs
  let (month, cs) ← field 2 cs
  let cs ← mark '-' cs
  let (day, cs) ← field 2 cs
  let date ← Date.of? year month day
  return (date, cs)

def clockField (date : Date) (cs : List Char) : Option (Instant × List Char) := do
  let (hour, cs) ← field 2 cs
  let cs ← mark ':' cs
  let (minute, cs) ← field 2 cs
  let cs ← mark ':' cs
  let (second, cs) ← field 2 cs
  let (nano, cs) ← fractionField cs
  let t ← of? date hour minute second nano
  return (t, cs)

def separator : List Char → Option (List Char)
  | 'T' :: rest => some rest
  | 't' :: rest => some rest
  | ' ' :: rest => some rest
  | _ => none

def ofChars? (cs : List Char) : Option Instant := do
  let (date, cs) ← dateField cs
  let cs ← separator cs
  let (t, cs) ← clockField date cs
  let (offset, cs) ← offsetField (trimStart cs)
  if cs.all isBlankChar then t.behind? offset else none

def ofText? (s : String) : Option Instant := ofChars? s.toList

end AuditedPetitions.Instant
