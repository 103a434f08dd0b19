import AuditedPetitions.Json.Token

/-! Documents: what a JSON text says before any limit is applied. Numbers beyond the doubles and
strings with half a surrogate pair are unreadable, but part of the document all the same, and
nesting is unbounded; a value that somebody asks for must be readable and may nest only so deep. The
reader is a machine over tokens that keeps the containers it is inside of. -/

namespace AuditedPetitions.Json

inductive Document
  | null
  | bool (b : Bool)
  | integer (n : WideInt)
  | float (x : Float)
  | string (s : String)
  /-- A well-formed scalar that no value can hold. -/
  | unreadable
  | array (items : List Document)
  | object (members : List (Option String × Document))
  deriving Inhabited

/-- Container that is being read, and, for an object, the name that waits for its value. Items and
members are read backwards. -/
inductive Frame
  | array (items : List Document)
  | object (members : List (Option String × Document)) (name : Option String)

/-- What the reader waits for. -/
inductive Reading
  /-- A value, or the end of the array that was just opened. -/
  | beforeValue (opened : Bool) (outer : List Frame)
  /-- A name, or the end of the object that was just opened. -/
  | beforeName (opened : Bool) (members : List (Option String × Document)) (outer : List Frame)
  | beforeColon (name : Option String) (members : List (Option String × Document)) (outer : List Frame)
  /-- A comma or the end of an array. -/
  | afterItem (items : List Document) (outer : List Frame)
  /-- A comma or the end of an object. -/
  | afterMember (members : List (Option String × Document)) (outer : List Frame)
  | done (d : Document)

/-- Gives a finished value to the container around it. -/
def Reading.close (d : Document) : List Frame → Reading
  | [] => .done d
  | .array items :: outer => .afterItem (d :: items) outer
  | .object members name :: outer => .afterMember ((name, d) :: members) outer

/-- Word or number. -/
def Document.ofBare? (cs : List Char) : Option Document :=
  if cs = "null".toList then some .null
  else if cs = "true".toList then some (.bool true)
  else if cs = "false".toList then some (.bool false)
  else
    (Number.ofChars? cs).map fun n =>
      match n.toJson? with
      | some (.integer i) => .integer i
      | some (.float x) => .float x
      | _ => .unreadable

def Document.ofQuoted : Option String → Document
  | some s => .string s
  | none => .unreadable

def Reading.step : Reading → Token → Option Reading
  | .beforeValue _ outer, .openArray => some (.beforeValue true (.array [] :: outer))
  | .beforeValue _ outer, .openObject => some (.beforeName true [] outer)
  | .beforeValue _ outer, .quoted s => some (close (.ofQuoted s) outer)
  | .beforeValue _ outer, .bare cs => (Document.ofBare? cs).map (close · outer)
  | .beforeValue true (.array [] :: outer), .closeArray => some (close (.array []) outer)
  | .beforeName _ members outer, .quoted s => some (.beforeColon s members outer)
  | .beforeName true [] outer, .closeObject => some (close (.object []) outer)
  | .beforeColon name members outer, .colon => some (.beforeValue false (.object members name :: outer))
  | .afterItem items outer, .comma => some (.beforeValue false (.array items :: outer))
  | .afterItem items outer, .closeArray => some (close (.array items.reverse) outer)
  | .afterMember members outer, .comma => some (.beforeName false members outer)
  | .afterMember members outer, .closeObject => some (close (.object members.reverse) outer)
  | _, _ => none

def Reading.run : Reading → List Token → Option Document
  | .done d, [] => some d
  | _, [] => none
  | r, t :: ts =>
    match r.step t with
    | none => none
    | some r => r.run ts

namespace Document

def ofChars? (cs : List Char) : Option Document :=
  (tokens cs).bind (Reading.run (.beforeValue false []))

def ofText? (s : String) : Option Document := ofChars? s.toList

mutual

/-- Value of a document whose arrays and objects nest at most `room` deep. -/
def toJson? (room : Nat) : Document → Option Json
  | .null => some .null
  | .bool b => some (.bool b)
  | .integer n => some (.integer n)
  | .float x => some (.float x)
  | .string s => some (.string s)
  | .unreadable => none
  | .array items => if room = 0 then none else (itemsToJson? (room - 1) items).map .array
  | .object members => if room = 0 then none else (membersToJson? (room - 1) members).map .object

def itemsToJson? (room : Nat) : List Document → Option (List Json)
  | [] => some []
  | item :: items => do
    let j ← item.toJson? room
    let js ← itemsToJson? room items
    return j :: js

def membersToJson? (room : Nat) : List (Option String × Document) → Option (List (String × Json))
  | [] => some []
  | (none, _) :: _ => none
  | (some name, value) :: members => do
    let j ← value.toJson? room
    let js ← membersToJson? room members
    return (name, j) :: js

end

/-- Arrays and objects that a text may nest. -/
def depthLimit : Nat := 127

/-- Last value under a name in an object. -/
def member? (name : String) : Document → Option Document
  | .object members => (members.reverse.find? (·.1 == some name)).map Prod.snd
  | _ => none

end Document

end AuditedPetitions.Json
