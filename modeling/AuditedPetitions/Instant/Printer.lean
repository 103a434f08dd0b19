import AuditedPetitions.Instant.Basic
import AuditedPetitions.Text.Numeral

/-! The two written forms of an instant. Both have the date, `T`, the time of day and `Z`; the
digest form always has nine digits of fraction, the short form the fewest of 0, 3, 6 or 9 that lose
nothing. A leap second is written as the second after it, which is second 60 at the end of a minute;
elsewhere that number is an ordinary second's too. -/

namespace AuditedPetitions.Instant
open Numeral

/-- Four digits for the years 0 to 9999; any other year has a sign and at least four digits. -/
def yearChars (year : Int) : List Char :=
  if 0 ≤ year ∧ year ≤ 9999 then padded 4 year.toNat
  else if 0 ≤ year then '+' :: padded 4 year.toNat
  else '-' :: padded 4 (-year).toNat

def dateChars (d : Date) : List Char :=
  yearChars d.year ++ '-' :: padded 2 d.month ++ '-' :: padded 2 d.day

def hour (t : Instant) : Nat := t.second / 3600

def minute (t : Instant) : Nat := t.second / 60 % 60

/-- Second of the minute; within a leap second, the one after it. -/
def minuteSecond (t : Instant) : Nat := t.second % 60 + t.nano / 1000000000

/-- Nanoseconds since the second began. -/
def fraction (t : Instant) : Nat := t.nano % 1000000000

def clockChars (t : Instant) : List Char :=
  padded 2 t.hour ++ ':' :: padded 2 t.minute ++ ':' :: padded 2 t.minuteSecond

def wholeChars (t : Instant) : List Char := dateChars t.date ++ 'T' :: t.clockChars

def fractionChars (n : Nat) : List Char :=
  if n = 0 then []
  else if n % 1000000 = 0 then '.' :: padded 3 (n / 1000000)
  else if n % 1000 = 0 then '.' :: padded 6 (n / 1000)
  else '.' :: padded 9 n

def digestChars (t : Instant) : List Char := t.wholeChars ++ '.' :: padded 9 t.fraction ++ ['Z']

def shortChars (t : Instant) : List Char := t.wholeChars ++ fractionChars t.fraction ++ ['Z']

def digestText (t : Instant) : String := String.ofList t.digestChars

def shortText (t : Instant) : String := String.ofList t.shortChars

end AuditedPetitions.Instant
