import AuditedPetitions.Text.Hex
import AuditedPetitions.Text.Printable

/-! Quoted texts in messages: printable characters as they are, quote and backslash behind a
backslash, some control characters by a letter, and every other one by its code in braces. -/

namespace AuditedPetitions.Text

def codeEscape (n : Nat) : List Char := '\\' :: 'u' :: '\x7b' :: (Hex.digits n ++ ['\x7d'])

def quoteChar (c : Char) : List Char :=
  if c = '\x00' then ['\\', '0']
  else if c = '\t' then ['\\', 't']
  else if c = '\r' then ['\\', 'r']
  else if c = '\n' then ['\\', 'n']
  else if c = '"' ∨ c = '\\' then ['\\', c]
  else if isShownByCode c then codeEscape c.toNat
  else [c]

def quoted (s : String) : String := String.ofList ('"' :: s.toList.flatMap quoteChar ++ ['"'])

end AuditedPetitions.Text
