import AuditedPetitions.Decimal.Fixed

/-! Text exposition of metrics: per family a line of help, a line with the kind, and the samples.
Label values escape the backslash, the quote and the line feed. -/

namespace AuditedPetitions

structure Sample where
  name : String
  labels : List (String × String)
  value : UInt64
  deriving DecidableEq

structure Family where
  name : String
  help : String
  kind : String
  samples : List Sample
  deriving DecidableEq

namespace Sample

def escape (c : Char) : List Char :=
  if c = '\\' then ['\\', '\\']
  else if c = '"' then ['\\', '"']
  else if c = '\n' then ['\\', 'n']
  else [c]

def labelText (l : String × String) : String :=
  l.1 ++ "=\"" ++ String.ofList (l.2.toList.flatMap escape) ++ "\""

def line (s : Sample) : String :=
  let labels := if s.labels.isEmpty then ""
    else "\x7b" ++ ",".intercalate (s.labels.map labelText) ++ "\x7d"
  s.name ++ labels ++ " " ++ String.ofList (Decimal.countChars s.value)

end Sample

def Family.lines (f : Family) : List String :=
  ("# HELP " ++ f.name ++ " " ++ f.help) :: ("# TYPE " ++ f.name ++ " " ++ f.kind) ::
    f.samples.map Sample.line

/-- Families without samples are left out. -/
def exposition (families : List Family) : List String :=
  (families.filter (!·.samples.isEmpty)).flatMap Family.lines

end AuditedPetitions
