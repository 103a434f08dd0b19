import AuditedPetitions.Ledger.Inspection

/-! The command that verifies an exported chain: one argument, the path of the file. -/

open AuditedPetitions.Ledger

/-- Text of a file, if it can be read. -/
def contents? (path : String) : IO (Option String) := do
  try return some (← IO.FS.readFile path) catch _ => return none

def main (args : List String) : IO UInt32 := do
  let (path, report) ← match args with
    | [] => pure ("", Inspection.noPath)
    | path :: _ => do pure (path, Inspection.ofFile (← contents? path))
  report.log.forM fun line => IO.println line
  if let some line := report.complaint path then
    IO.eprintln ("Error: " ++ line)
  if let some cause := report.cause then
    IO.eprintln ("\nCaused by:\n    " ++ cause)
  return report.exitCode
