import AuditedPetitions.Toml.Scalar

/-! Reading of TOML documents, line by line. Arrays and inline tables nest at most 79 deep, and a
dotted key has at most 79 parts. -/

namespace AuditedPetitions.Toml

def depthLimit : Nat := 80

def isKeyChar (c : Char) : Bool := c.isAlphanum || c == '-' || c == '_'

def simpleKey? (cs : List Char) : Option (String × List Char) :=
  match short? cs with
  | some (key, rest) => some (String.ofList key, rest)
  | none =>
    let key := cs.takeWhile isKeyChar
    if key.isEmpty then none else some (String.ofList key, cs.dropWhile isKeyChar)

/-- Parts of a dotted key, the last part apart; gaps may stand around the dots. -/
def key? : Nat → List Char → Option (List String × String × List Char)
  | 0, _ => none
  | steps + 1, cs => do
    let (key, rest) ← simpleKey? (skipGaps cs)
    match skipGaps rest with
    | '.' :: rest =>
      let (path, last, rest) ← key? steps rest
      return (key :: path, last, rest)
    | rest => return ([], key, rest)

/-- Behind a value or header: gaps, a comment, and the end of the line. -/
def comment? : List Char → Option (List Char)
  | [] => some []
  | '\n' :: rest => some ('\n' :: rest)
  | '\r' :: '\n' :: rest => some ('\r' :: '\n' :: rest)
  | c :: rest => if isPlain c then comment? rest else none

def lineRest? (cs : List Char) : Option (List Char) :=
  let cs := match skipGaps cs with
    | '#' :: rest => comment? rest
    | rest => some rest
  cs.bind fun
    | [] => some []
    | cs => newline? cs

/-- Skips gaps, comments and line ends inside an array. -/
def skipLines : Nat → List Char → Option (List Char)
  | 0, _ => none
  | steps + 1, cs =>
    match skipGaps cs with
    | '#' :: rest => (comment? rest).bind (skipLines steps)
    | rest =>
      match newline? rest with
      | some rest => skipLines steps rest
      | none => some rest

mutual

/-- Value at a depth; `steps` bounds the recursion. -/
def value? : Nat → Nat → List Char → Option (Value × List Char)
  | 0, _, _ => none
  | steps + 1, depth, cs =>
    match cs with
    | '[' :: rest => if depth + 1 < depthLimit then array? steps (depth + 1) rest else none
    | '\x7b' :: rest =>
      if depth + 1 < depthLimit then
        match skipGaps rest with
        | '\x7d' :: rest => some (.other, rest)
        | rest => inline? steps (depth + 1) [] rest
      else none
    | '"' :: _ => (string? cs).map fun r => (.text (String.ofList r.1), r.2)
    | '\x27' :: _ => (string? cs).map fun r => (.text (String.ofList r.1), r.2)
    | _ => bare? cs

/-- Items up to the closing bracket; a comma may stand in front of it. -/
def array? : Nat → Nat → List Char → Option (Value × List Char)
  | 0, _, _ => none
  | steps + 1, depth, cs => do
    match ← skipLines (cs.length + 1) cs with
    | ']' :: rest => some (.other, rest)
    | cs =>
      let (_, rest) ← value? steps depth cs
      match ← skipLines (rest.length + 1) rest with
      | ',' :: rest => array? steps depth rest
      | ']' :: rest => some (.other, rest)
      | _ => none

/-- Members of an inline table up to the closing brace. -/
def inline? : Nat → Nat → Entries → List Char → Option (Value × List Char)
  | 0, _, _, _ => none
  | steps + 1, depth, es, cs => do
    let (path, key, rest) ← key? (depthLimit - 1) cs
    let rest ← char? '=' rest
    let (v, rest) ← value? steps depth (skipGaps rest)
    let es ← es.put path key v .header
    match skipGaps rest with
    | ',' :: rest => inline? steps depth es rest
    | '\x7d' :: rest => some (.other, rest)
    | _ => none

end

/-- Adds the expressions of all further lines; `current` is the table that the last header
opened. -/
def lines? : Nat → List String → Entries → List Char → Option Entries
  | 0, _, _, _ => none
  | steps + 1, current, es, cs =>
    match skipGaps cs with
    | [] => some es
    | '#' :: rest => (lineRest? ('#' :: rest)).bind (lines? steps current es)
    | '[' :: '[' :: rest => do
      let (path, key, rest) ← key? (depthLimit - 1) rest
      let rest ← (char? ']' rest).bind (char? ']')
      let rest ← lineRest? rest
      let es ← es.appendTable path key
      lines? steps (path ++ [key]) es rest
    | '[' :: rest => do
      let (path, key, rest) ← key? (depthLimit - 1) rest
      let rest ← char? ']' rest
      let rest ← lineRest? rest
      let es ← es.openTable path key
      lines? steps (path ++ [key]) es rest
    | cs =>
      match newline? cs with
      | some rest => lines? steps current es rest
      | none => do
        let (path, key, rest) ← key? (depthLimit - 1) cs
        let rest ← char? '=' rest
        let (v, rest) ← value? (rest.length + 1) 0 (skipGaps rest)
        let rest ← lineRest? rest
        let es ← es.putUnder current path key v
        lines? steps current es rest

/-- Entries of the outermost table. A byte order mark in front is skipped. -/
def ofText? (s : String) : Option Entries :=
  let cs := match s.toList with
    | '\ufeff' :: cs => cs
    | cs => cs
  lines? (cs.length + 1) [] [] cs

end AuditedPetitions.Toml
