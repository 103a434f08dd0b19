import AuditedPetitions.Text.Blank
import AuditedPetitions.Text.Hex

/-! The audit trail: entries of four levels, kept in order, and the line under which an entry shows
in the log. In a log line control characters that a terminal would obey are spelled out, and the
line is trimmed. -/

namespace AuditedPetitions

inductive AuditLevel
  | debug
  | info
  | warn
  | error
  deriving DecidableEq, Repr

namespace AuditLevel

def name : AuditLevel → String
  | .debug => "debug"
  | .info => "info"
  | .warn => "warn"
  | .error => "error"

def ofName? (s : String) : Option AuditLevel :=
  [debug, info, warn, error].find? (·.name = s)

/-- Name in capital letters. -/
def label : AuditLevel → String
  | .debug => "DEBUG"
  | .info => "INFO"
  | .warn => "WARN"
  | .error => "ERROR"

end AuditLevel

structure AuditEntry where
  level : AuditLevel
  message : String
  deriving DecidableEq, Repr

namespace AuditEntry

def text (e : AuditEntry) : String := e.level.name ++ ": " ++ e.message

/-- Spells a control character of terminals out. -/
def visible (c : Char) : List Char :=
  if c ∈ ['\x07', '\x08', '\x0c', '\x1b', '\x7f'] then '\\' :: 'x' :: Hex.fixed 2 c.toNat
  else if 0x80 ≤ c.toNat ∧ c.toNat < 0xa0 then
    '\\' :: 'u' :: '{' :: Hex.fixed 2 c.toNat ++ ['}']
  else [c]

/-- Line of the log, without the time. -/
def logLine (e : AuditEntry) : String :=
  String.ofList (Text.trim ((e.level.label ++ " audit: ").toList ++ e.message.toList.flatMap visible))

end AuditEntry

/-- Whether a text occurs in another. -/
def occursIn (needle : List Char) : List Char → Bool
  | [] => needle.isEmpty
  | c :: cs => needle.isPrefixOf (c :: cs) || occursIn needle cs

/-- Entries in the order of their arrival. -/
abbrev AuditTrail := List AuditEntry

namespace AuditTrail

/-- Some entry of this level contains the text. -/
def mentions (t : AuditTrail) (level : AuditLevel) (needle : String) : Bool :=
  t.any fun e => e.level = level && occursIn needle.toList e.message.toList

def tally (t : AuditTrail) (level : AuditLevel) : Nat := t.countP (·.level = level)

end AuditTrail

end AuditedPetitions
