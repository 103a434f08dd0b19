import AuditedPetitions.Text.Numeral

/-! Durations in whole milliseconds and their short text: none, milliseconds below one second, and
seconds with the fraction that is left, without zeros at its end. -/

namespace AuditedPetitions

structure Duration where
  millis : UInt64
  deriving DecidableEq

namespace Duration

def dropZeros (ds : List Char) : List Char := (ds.reverse.dropWhile (· == '0')).reverse

def chars (d : Duration) : List Char :=
  let n := d.millis.toNat
  if n = 0 then ['0', 'n', 's']
  else if n < 1000 then Numeral.digits n ++ ['m', 's']
  else
    let fraction := dropZeros (Numeral.padded 3 (n % 1000))
    Numeral.digits (n / 1000) ++ (if fraction = [] then [] else '.' :: fraction) ++ ['s']

def text (d : Duration) : String := String.ofList d.chars

end Duration

end AuditedPetitions
