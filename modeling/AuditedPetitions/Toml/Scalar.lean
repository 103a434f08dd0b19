import AuditedPetitions.Instant.Calendar
import AuditedPetitions.Text.Hex
import AuditedPetitions.Text.Numeral
import AuditedPetitions.Toml.Table

/-! Scalars of TOML documents: the four kinds of strings, integers in four bases, floats, booleans,
and dates and times, of which only the validity matters. -/

namespace AuditedPetitions.Toml

def isGap (c : Char) : Bool := c == ' ' || c == '\t'

def skipGaps (cs : List Char) : List Char := cs.dropWhile isGap

/-- Characters that may stand in a comment or, quotes and backslashes apart, in a string. -/
def isPlain (c : Char) : Bool := c == '\t' || (0x20 ≤ c.toNat && c.toNat ≠ 0x7F)

def newline? : List Char → Option (List Char)
  | '\n' :: rest => some rest
  | '\r' :: '\n' :: rest => some rest
  | _ => none

/-- Character with a hexadecimal code, unless it is half a surrogate pair. -/
def scalar? (ds : List Char) : Option Char :=
  (ds.mapM Hex.digit?).bind fun vs =>
    let n := vs.foldl (· * 16 + ·) 0
    if h : n.isValidChar then some (Char.ofNatAux n h) else none

/-- Escape behind its backslash. -/
def escape? : List Char → Option (Char × List Char)
  | 'b' :: rest => some ('\x08', rest)
  | 't' :: rest => some ('\t', rest)
  | 'n' :: rest => some ('\n', rest)
  | 'f' :: rest => some ('\x0c', rest)
  | 'r' :: rest => some ('\r', rest)
  | '"' :: rest => some ('"', rest)
  | '\\' :: rest => some ('\\', rest)
  | 'u' :: rest =>
    if rest.length < 4 then none else (scalar? (rest.take 4)).map fun c => (c, rest.drop 4)
  | 'U' :: rest =>
    if rest.length < 8 then none else (scalar? (rest.take 8)).map fun c => (c, rest.drop 8)
  | _ => none

/-- What the reader of a long basic string is doing. -/
inductive Long
  | reading
  /-- A backslash at the end of a line was seen; the line must end. -/
  | lineEnd
  /-- Blanks and line ends behind such a backslash are dropped. -/
  | dropping

/-- String in double quotes behind its first quote; `steps` bounds the characters read. -/
def basic : Nat → List Char → List Char → Option (List Char × List Char)
  | 0, _, _ => none
  | steps + 1, read, cs =>
    match cs with
    | '"' :: rest => some (read.reverse, rest)
    | '\\' :: rest => (escape? rest).bind fun e => basic steps (e.1 :: read) e.2
    | c :: rest => if isPlain c then basic steps (c :: read) rest else none
    | [] => none

def literal : List Char → List Char → Option (List Char × List Char)
  | _, [] => none
  | read, '\x27' :: rest => some (read.reverse, rest)
  | read, c :: rest => if isPlain c then literal (c :: read) rest else none

/-- String in triple double quotes. Up to two quotes may stand in front of the closing three. -/
def longBasic : Nat → Long → List Char → List Char → Option (List Char × List Char)
  | 0, _, _, _ => none
  | steps + 1, .lineEnd, read, cs =>
    match newline? cs with
    | some rest => longBasic steps .dropping read rest
    | none =>
      match cs with
      | c :: rest => if isGap c then longBasic steps .lineEnd read rest else none
      | [] => none
  | steps + 1, .dropping, read, cs =>
    match newline? cs with
    | some rest => longBasic steps .dropping read rest
    | none =>
      match cs with
      | c :: rest =>
        if isGap c then longBasic steps .dropping read rest else longBasic steps .reading read cs
      | [] => none
  | steps + 1, .reading, read, cs =>
    match newline? cs with
    | some rest => longBasic steps .reading ('\n' :: read) rest
    | none =>
      match cs with
      | '"' :: '"' :: '"' :: '"' :: '"' :: rest => some (('"' :: '"' :: read).reverse, rest)
      | '"' :: '"' :: '"' :: '"' :: rest => some (('"' :: read).reverse, rest)
      | '"' :: '"' :: '"' :: rest => some (read.reverse, rest)
      | '\\' :: rest =>
        match escape? rest with
        | some (c, rest) => longBasic steps .reading (c :: read) rest
        | none => longBasic steps .lineEnd read rest
      | c :: rest => if isPlain c then longBasic steps .reading (c :: read) rest else none
      | [] => none

/-- String in triple single quotes. -/
def longLiteral : Nat → List Char → List Char → Option (List Char × List Char)
  | 0, _, _ => none
  | steps + 1, read, cs =>
    match newline? cs with
    | some rest => longLiteral steps ('\n' :: read) rest
    | none =>
      match cs with
      | '\x27' :: '\x27' :: '\x27' :: '\x27' :: '\x27' :: rest =>
        some (('\x27' :: '\x27' :: read).reverse, rest)
      | '\x27' :: '\x27' :: '\x27' :: '\x27' :: rest => some (('\x27' :: read).reverse, rest)
      | '\x27' :: '\x27' :: '\x27' :: rest => some (read.reverse, rest)
      | c :: rest => if isPlain c then longLiteral steps (c :: read) rest else none
      | [] => none

/-- A line end right behind the opening quotes does not count. -/
def skipNewline (cs : List Char) : List Char := (newline? cs).getD cs

def short? : List Char → Option (List Char × List Char)
  | '"' :: rest => basic (2 * rest.length + 1) [] rest
  | '\x27' :: rest => literal [] rest
  | _ => none

def string? : List Char → Option (List Char × List Char)
  | '"' :: '"' :: '"' :: rest => longBasic (2 * rest.length + 1) .reading [] (skipNewline rest)
  | '\x27' :: '\x27' :: '\x27' :: rest => longLiteral (rest.length + 1) [] (skipNewline rest)
  | cs => short? cs

/-- Digits of a base with single underscores between them, without the underscores. -/
def separated? (isDigit : Char → Bool) : List Char → Option (List Char)
  | [] => none
  | [c] => if isDigit c then some [c] else none
  | c :: '_' :: cs => if isDigit c then (separated? isDigit cs).map (c :: ·) else none
  | c :: cs => if isDigit c then (separated? isDigit cs).map (c :: ·) else none

def inBase? (base : Nat) (cs : List Char) : Option Int := do
  let ds ← separated? (fun c => (Hex.digit? c).any (· < base)) cs
  let vs ← ds.mapM Hex.digit?
  let n := vs.foldl (· * base + ·) 0
  if n < 9223372036854775808 then return n else none

def decimalDigits? (cs : List Char) : Option (List Char) :=
  match separated? Char.isDigit cs with
  | some ('0' :: _ :: _) => none
  | r => r

def integer? : List Char → Option Int
  | '0' :: 'x' :: cs => inBase? 16 cs
  | '0' :: 'o' :: cs => inBase? 8 cs
  | '0' :: 'b' :: cs => inBase? 2 cs
  | '-' :: cs => (decimalDigits? cs).bind fun ds =>
    let n := Numeral.value ds
    if n ≤ 9223372036854775808 then some (-(n : Int)) else none
  | '+' :: cs => positive? cs
  | cs => positive? cs
where
  positive? (cs : List Char) : Option Int := (decimalDigits? cs).bind fun ds =>
    let n := Numeral.value ds
    if n < 9223372036854775808 then some n else none

/-- Whether a decimal float is well formed; one beyond the doubles is not, unless it is negative. -/
def isFloat (cs : List Char) : Bool :=
  let (negative, cs) := match cs with
    | '-' :: cs => (true, cs)
    | '+' :: cs => (false, cs)
    | cs => (false, cs)
  if cs = "inf".toList ∨ cs = "nan".toList then true
  else
    let isMark (c : Char) := c == '.' || c == 'e' || c == 'E'
    let whole := decimalDigits? (cs.takeWhile (!isMark ·))
    let tail := cs.dropWhile (!isMark ·)
    let exponent (cs : List Char) : Option (Bool × Nat) :=
      let (down, cs) := match cs with
        | '-' :: cs => (true, cs)
        | '+' :: cs => (false, cs)
        | cs => (false, cs)
      (separated? Char.isDigit cs).map fun ds => (down, Numeral.value ds)
    let finite (digits : List Char) (places : Nat) (e : Bool × Nat) : Bool :=
      let top : Int := (if e.1 then -(e.2 : Int) else e.2) - places
      let n := Numeral.value digits
      if negative ∨ n = 0 ∨ top + digits.length ≤ 300 then true
      else if 310 < top then false
      else
        let x := if top < 0 then Float.ofScientific n true top.natAbs
          else Float.ofScientific n false top.natAbs
        ! x.isInf
    match whole, tail with
    | some w, '.' :: rest =>
      let frac := rest.takeWhile (!isMark ·)
      let more := rest.dropWhile (!isMark ·)
      match separated? Char.isDigit frac, more with
      | some f, [] => finite (w ++ f) f.length (false, 0)
      | some f, c :: more =>
        if c = '.' then false
        else ((exponent more).map (finite (w ++ f) f.length)).getD false
      | none, _ => false
    | some w, _ :: rest => ((exponent rest).map (finite w 0)).getD false
    | _, _ => false

/-- Exactly `count` digits. -/
def digits? (count : Nat) (cs : List Char) : Option (Nat × List Char) :=
  let ds := cs.take count
  if ds.length = count ∧ ds.all Char.isDigit then some (Numeral.value ds, cs.drop count) else none

def char? (c : Char) : List Char → Option (List Char)
  | d :: rest => if d = c then some rest else none
  | [] => none

def date? (cs : List Char) : Option (List Char) := do
  let (year, cs) ← digits? 4 cs
  let cs ← char? '-' cs
  let (month, cs) ← digits? 2 cs
  let cs ← char? '-' cs
  let (day, cs) ← digits? 2 cs
  if 1 ≤ month ∧ month ≤ 12 ∧ 1 ≤ day ∧ day ≤ monthLength year month then return cs else none

def time? (cs : List Char) : Option (List Char) := do
  let (hour, cs) ← digits? 2 cs
  let cs ← char? ':' cs
  let (minute, cs) ← digits? 2 cs
  let cs ← char? ':' cs
  let (second, cs) ← digits? 2 cs
  if hour < 24 ∧ minute < 60 ∧ second ≤ 60 then
    match cs with
    | '.' :: rest =>
      if (rest.takeWhile Char.isDigit).isEmpty then none else some (rest.dropWhile Char.isDigit)
    | cs => some cs
  else none

def offset? (cs : List Char) : Option (List Char) := do
  let (hour, cs) ← digits? 2 cs
  let cs ← char? ':' cs
  let (minute, cs) ← digits? 2 cs
  if hour < 24 ∧ minute < 60 then return cs else none

/-- Date, time, or both with an optional offset. -/
def moment? (cs : List Char) : Option (List Char) :=
  match date? cs with
  | none => time? cs
  | some cs =>
    let clock : Option (List Char) :=
      match cs with
      | c :: rest => if c = 'T' ∨ c = 't' ∨ c = ' ' then time? rest else none
      | [] => none
    match clock with
    | none => some cs
    | some ('Z' :: rest) => some rest
    | some ('z' :: rest) => some rest
    | some ('+' :: rest) => offset? rest
    | some ('-' :: rest) => offset? rest
    | some rest => some rest

def isBare (c : Char) : Bool :=
  c.isAlphanum || c == '+' || c == '-' || c == '.' || c == '_'

/-- Scalar that is not a string. -/
def bare? (cs : List Char) : Option (Value × List Char) :=
  match moment? cs with
  | some rest => some (.other, rest)
  | none =>
    let run := cs.takeWhile isBare
    let rest := cs.dropWhile isBare
    if run = "true".toList ∨ run = "false".toList then some (.other, rest)
    else
      match integer? run with
      | some n => some (.integer n, rest)
      | none => if isFloat run then some (.other, rest) else none

end AuditedPetitions.Toml
