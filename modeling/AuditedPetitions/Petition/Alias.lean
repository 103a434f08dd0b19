import AuditedPetitions.Text.Numeral
import AuditedPetitions.Uuid

/-! Aliases of identifiers. The members of a family of identifiers are numbered in their order, and
each goes by the name of the family and its number. Wherever a text shows the one, it can show the
other. A name that no member has stays as it is, and so does an identifier that is no member. -/

namespace AuditedPetitions

structure Alias where
  /-- What stands before the number. -/
  name : String
  /-- First half of every identifier of the family, which no other identifier begins with. -/
  stem : String
  members : List Uuid

namespace Alias

/-- First half of an identifier, with its hyphens. -/
def stemOf (id : Uuid) : String := String.ofList (id.chars.take 24)

/-- Replaces each occurrence of a text together with what follows it, up to the next. -/
def replaceEach (start : String) (f : List Char → String) (s : String) : String :=
  match s.splitOn start with
  | [] => s
  | part :: parts => part ++ String.join (parts.map fun p => f p.toList)

/-- Name of the member whose second half these characters are. -/
def name? (a : Alias) (cs : List Char) : Option String :=
  ((Uuid.ofText? (a.stem ++ String.ofList cs)).bind a.members.idxOf?).map fun n =>
    a.name ++ Numeral.text n

/-- Shows the members by their names. -/
def abbreviate (a : Alias) : String → String :=
  replaceEach a.stem fun cs =>
    match a.name? (cs.take 12) with
    | some name => name ++ String.ofList (cs.drop 12)
    | none => a.stem ++ String.ofList cs

/-- Member whose number is written so, without zeros in front. -/
def member? (a : Alias) (ds : List Char) : Option Uuid :=
  let n := Numeral.value ds
  if Numeral.digits n = ds then a.members[n]? else none

theorem member?_digits (a : Alias) (n : Nat) : a.member? (Numeral.digits n) = a.members[n]? := by
  simp [member?, Numeral.value_digits]

/-- Puts the members in place of their names. -/
def expand (a : Alias) : String → String :=
  replaceEach a.name fun cs =>
    match a.member? (cs.takeWhile Char.isDigit) with
    | some id => id.text ++ String.ofList (cs.dropWhile Char.isDigit)
    | none => a.name ++ String.ofList cs

/-- Shows the members of several families by their names. -/
def abbreviateAll (as : List Alias) (s : String) : String := as.foldl (fun s a => a.abbreviate s) s

/-- Puts the members of several families in place of their names. -/
def expandAll (as : List Alias) (s : String) : String := as.foldl (fun s a => a.expand s) s

end Alias

end AuditedPetitions
