import AuditedPetitions.Json.Number
import AuditedPetitions.Text.Hex

/-! Written forms of JSON values: compact, without any blank, and pretty, with two spaces of indent.
Members are written in the order in which they stand. Strings escape the quote, the backslash and
the control characters below U+0020, and nothing else. -/

namespace AuditedPetitions.Json

def escape (c : Char) : List Char :=
  if c = '"' then ['\\', '"']
  else if c = '\\' then ['\\', '\\']
  else if c = '\n' then ['\\', 'n']
  else if c = '\r' then ['\\', 'r']
  else if c = '\t' then ['\\', 't']
  else if c = '\x08' then ['\\', 'b']
  else if c = '\x0c' then ['\\', 'f']
  else if c.toNat < 0x20 then '\\' :: 'u' :: Hex.fixed 4 c.toNat
  else [c]

def quote (s : String) : List Char := '"' :: s.toList.flatMap escape ++ ['"']

def word (b : Bool) : List Char := if b then ['t', 'r', 'u', 'e'] else ['f', 'a', 'l', 's', 'e']

def nullWord : List Char := ['n', 'u', 'l', 'l']

mutual

def compact : Json → List Char
  | .null => nullWord
  | .bool b => word b
  | .integer n => Numeral.ofInt n.val
  | .float x => floatChars x
  | .string s => quote s
  | .array [] => ['[', ']']
  | .array (item :: items) => '[' :: item.compact ++ compactItems items
  | .object [] => ['{', '}']
  | .object ((name, value) :: members) =>
    '{' :: quote name ++ ':' :: value.compact ++ compactMembers members

/-- Items after the first, up to the closing bracket. -/
def compactItems : List Json → List Char
  | [] => [']']
  | item :: items => ',' :: item.compact ++ compactItems items

def compactMembers : List (String × Json) → List Char
  | [] => ['}']
  | (name, value) :: members =>
    ',' :: quote name ++ ':' :: value.compact ++ compactMembers members

end

/-- Start of a line at a depth. -/
def newline (depth : Nat) : List Char := '\n' :: List.replicate (2 * depth) ' '

mutual

def pretty (depth : Nat) : Json → List Char
  | .null => nullWord
  | .bool b => word b
  | .integer n => Numeral.ofInt n.val
  | .float x => floatChars x
  | .string s => quote s
  | .array [] => ['[', ']']
  | .array (item :: items) =>
    '[' :: newline (depth + 1) ++ item.pretty (depth + 1) ++ prettyItems depth items
  | .object [] => ['{', '}']
  | .object ((name, value) :: members) =>
    '{' :: newline (depth + 1) ++ quote name ++ ':' :: ' ' :: value.pretty (depth + 1) ++
      prettyMembers depth members

def prettyItems (depth : Nat) : List Json → List Char
  | [] => newline depth ++ [']']
  | item :: items =>
    ',' :: newline (depth + 1) ++ item.pretty (depth + 1) ++ prettyItems depth items

def prettyMembers (depth : Nat) : List (String × Json) → List Char
  | [] => newline depth ++ ['}']
  | (name, value) :: members =>
    ',' :: newline (depth + 1) ++ quote name ++ ':' :: ' ' :: value.pretty (depth + 1) ++
      prettyMembers depth members

end

def compactText (j : Json) : String := String.ofList j.compact

def prettyText (j : Json) : String := String.ofList (j.pretty 0)

end AuditedPetitions.Json
