import AuditedPetitions.Text.Hex

/-! Universally unique identifiers: 128 bits, written as 32 lower-case hexadecimal digits in five
groups. They are read in either case, with or without the hyphens, in braces, or after the URN
scheme, itself in either case; braces and scheme need the hyphens. -/

namespace AuditedPetitions

/-- Number of identifiers, two to the power 128. -/
def Uuid.size : Nat := 0x100000000000000000000000000000000

structure Uuid where
  val : Nat
  isLt : val < Uuid.size
  deriving DecidableEq

namespace Uuid

instance : Inhabited Uuid := ⟨0, by decide⟩

def ofNat (n : Nat) : Uuid := ⟨n % size, Nat.mod_lt _ (by decide)⟩

/-- Hyphens after the eighth, twelfth, sixteenth and twentieth digit. -/
def group (ds : List Char) : List Char :=
  ds.take 8 ++ '-' :: ((ds.drop 8).take 4 ++ '-' :: ((ds.drop 12).take 4 ++
    '-' :: ((ds.drop 16).take 4 ++ '-' :: ds.drop 20)))

def chars (u : Uuid) : List Char := group (Hex.fixed 32 u.val)

def text (u : Uuid) : String := String.ofList u.chars

/-- Number written by exactly 32 digits. -/
def ofDigits? (ds : List Char) : Option Uuid :=
  if ds.length = 32 then (ds.mapM Hex.digit?).map fun vs => ofNat (vs.foldl (· * 16 + ·) 0)
  else none

/-- Digits with hyphens in their places and nowhere else. -/
def ofGrouped? (cs : List Char) : Option Uuid :=
  let ds := cs.filter (· ≠ '-')
  if cs = group ds then ofDigits? ds else none

/-- What follows the scheme of a URN. -/
def dropScheme? (cs : List Char) : Option (List Char) :=
  if (cs.take 9).map Char.toLower = "urn:uuid:".toList then some (cs.drop 9) else none

def ofChars? (cs : List Char) : Option Uuid :=
  match cs, dropScheme? cs with
  | '{' :: cs, _ => if cs.getLast? = some '}' then ofGrouped? cs.dropLast else none
  | _, some cs => ofGrouped? cs
  | cs, none => if cs.length = 32 then ofDigits? cs else ofGrouped? cs

def ofText? (s : String) : Option Uuid := ofChars? s.toList

/-- Order of the identifiers, by their first differing digit. -/
instance : LT Uuid := ⟨fun a b => a.val < b.val⟩

instance : LE Uuid := ⟨fun a b => a.val ≤ b.val⟩

instance (a b : Uuid) : Decidable (a < b) := inferInstanceAs (Decidable (a.val < b.val))

instance (a b : Uuid) : Decidable (a ≤ b) := inferInstanceAs (Decidable (a.val ≤ b.val))

theorem ext_val {a b : Uuid} (h : a.val = b.val) : a = b := by
  obtain ⟨a, _⟩ := a
  obtain ⟨b, _⟩ := b
  subst h
  rfl

end Uuid

end AuditedPetitions
