import FieldWalk.Program.Launch
/-! The program: a run of the command line, its output printed and its log file written. -/

open FieldWalk.Program

/-- Writes lines to a file. -/
def FieldWalk.Program.writeLines (name : String) (lines : List String) : IO Unit :=
  IO.FS.writeFile name (String.join (lines.map (· ++ "\n")))

def main (words : List String) : IO UInt32 := do
  let run := launch programName words 0
  for line in run.output do
    IO.println line
  for file in run.book.files do
    writeLines file.1 file.2
  if run.complaint ≠ "" then
    IO.eprintln run.complaint
  return run.exit.toNat.toUInt32
