import AuditedPetitions.Json.Number
import AuditedPetitions.Text.Hex

/-! Tokens of JSON texts. The scanner passes once over the characters and keeps what it is in the
middle of; it refuses raw control characters in a string, unknown escapes, and characters that
begin nothing. Words and numbers come out as bare runs, strings as their code points: escapes may
name halves of surrogate pairs, and a string with a half that stands alone is kept as unpaired. -/

namespace AuditedPetitions.Json

inductive Token
  | openArray
  | closeArray
  | openObject
  | closeObject
  | comma
  | colon
  /-- A string, or `none` if half a surrogate pair stands alone in it. -/
  | quoted (s : Option String)
  | bare (cs : List Char)
  deriving DecidableEq

def isHighHalf (n : Nat) : Bool := 0xD800 ≤ n && n < 0xDC00

def isLowHalf (n : Nat) : Bool := 0xDC00 ≤ n && n < 0xE000

/-- Characters of a list of code points in which two halves of a surrogate pair stand for one
character. -/
def pairHalves : List Nat → Option (List Char)
  | [] => some []
  | h :: l :: rest =>
    if isHighHalf h then
      if isLowHalf l then
        (pairHalves rest).map (Char.ofNat (0x10000 + (h - 0xD800) * 0x400 + (l - 0xDC00)) :: ·)
      else none
    else if isLowHalf h then none
    else (pairHalves (l :: rest)).map (Char.ofNat h :: ·)
  | [h] => if isHighHalf h || isLowHalf h then none else some [Char.ofNat h]

/-- What the scanner is in the middle of. Code points and characters are read backwards. -/
inductive Scan
  | between
  | bare (read : List Char)
  | quoted (read : List Nat)
  | escaped (read : List Nat)
  /-- In a hexadecimal escape: digits seen and their number. -/
  | hex (read : List Nat) (count value : Nat)
  deriving DecidableEq

def isBareChar (c : Char) : Bool :=
  c.isAlphanum || c == '-' || c == '+' || c == '.'

/-- Start of a token, or a blank. -/
def Scan.begin (c : Char) : Option (List Token × Scan) :=
  if c = ' ' ∨ c = '\n' ∨ c = '\t' ∨ c = '\r' then some ([], .between)
  else if c = '[' then some ([.openArray], .between)
  else if c = ']' then some ([.closeArray], .between)
  else if c = '{' then some ([.openObject], .between)
  else if c = '}' then some ([.closeObject], .between)
  else if c = ',' then some ([.comma], .between)
  else if c = ':' then some ([.colon], .between)
  else if c = '"' then some ([], .quoted [])
  else if isBareChar c then some ([], .bare [c])
  else none

/-- Character named by a one-letter escape. -/
def simpleEscape? (c : Char) : Option Char :=
  if c = '"' ∨ c = '\\' ∨ c = '/' then some c
  else if c = 'b' then some '\x08'
  else if c = 'f' then some '\x0c'
  else if c = 'n' then some '\n'
  else if c = 'r' then some '\r'
  else if c = 't' then some '\t'
  else none

/-- One character: the tokens that it completes, and what the scanner is in the middle of then. -/
def Scan.step : Scan → Char → Option (List Token × Scan)
  | .between, c => begin c
  | .bare read, c =>
    if isBareChar c then some ([], .bare (c :: read))
    else (begin c).map fun r => (.bare read.reverse :: r.1, r.2)
  | .quoted read, c =>
    if c = '"' then some ([.quoted ((pairHalves read.reverse).map String.ofList)], .between)
    else if c = '\\' then some ([], .escaped read)
    else if c.toNat < 0x20 then none
    else some ([], .quoted (c.toNat :: read))
  | .escaped read, c =>
    if c = 'u' then some ([], .hex read 0 0)
    else (simpleEscape? c).map fun e => ([], .quoted (e.toNat :: read))
  | .hex read count value, c =>
    (Hex.digit? c).map fun d =>
      if count = 3 then ([], .quoted ((value * 16 + d) :: read))
      else ([], .hex read (count + 1) (value * 16 + d))

/-- Tokens completed at the end of the text. -/
def Scan.finish : Scan → Option (List Token)
  | .between => some []
  | .bare read => some [.bare read.reverse]
  | _ => none

def scan : Scan → List Char → Option (List Token)
  | s, [] => s.finish
  | s, c :: cs =>
    match s.step c with
    | none => none
    | some (done, s) => (scan s cs).map (done ++ ·)

def tokens (cs : List Char) : Option (List Token) := scan .between cs

end AuditedPetitions.Json
