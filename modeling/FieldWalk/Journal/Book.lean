import FieldWalk.Journal.Record
import FieldWalk.Numeral.Scalar
/-!
Where records are written: to the console and, if asked for, to a file. A setup puts new outlets in
place of the old ones and empties the file it names; a record above the threshold is written once
to each outlet of the last setup. Nothing is written with a level that has too many digits for a name.
-/

namespace FieldWalk.Journal

/-- A destination of lines. -/
inductive Outlet where
  | console
  | file (name : String)
deriving Repr, DecidableEq

/-- The outlets with the threshold they share, and all lines written so far. -/
structure Book where
  level : Level := 0
  outlets : List Outlet := []
  console : List String := []
  files : List (String × List String) := []
deriving Repr, DecidableEq

/-- A book after a call. A call fails where a level is too long to be named. -/
structure Call where
  book : Book
  failed : Bool := false
deriving Repr, DecidableEq

/-- The threshold in force where none is set. -/
def inheritedLevel : Level := .warning

/-- The lines of a record: the time of day, the name of the level in at least seven places, the
source and the text. The time of day is left out of account. -/
def Record.lines (r : Record) : List String :=
  let name := Level.name r.level
  let pad := String.ofList (List.replicate (7 - name.length) ' ')
  ("T " ++ name ++ pad ++ " [" ++ r.source ++ "] " ++ r.text).splitOn "\n"

namespace Book

/-- The least level of a record that is written. -/
def threshold (b : Book) : Level :=
  if b.level = 0 then inheritedLevel else b.level

/-- A record is let through: it comes from the program and its level is positive and high enough. -/
def accepts (b : Book) (r : Record) : Bool :=
  r.source.isOwn && 0 < r.level && b.threshold ≤ r.level

/-- The lines of a file; none if there is no such file. -/
def file? (b : Book) (name : String) : Option (List String) :=
  b.files.lookup name

/-- Adds lines to a file. -/
def appendFile (name : String) (lines : List String) (b : Book) : Book :=
  { b with files := b.files.map fun f => if f.1 = name then (f.1, f.2 ++ lines) else f }

/-- An empty file in place of what had the name. -/
def emptyFile (name : String) (b : Book) : Book :=
  { b with files := b.files.filter (·.1 ≠ name) ++ [(name, [])] }

/-- Writes lines to an outlet. -/
def write (lines : List String) (b : Book) : Outlet → Book
  | .console => { b with console := b.console ++ lines }
  | .file name => b.appendFile name lines

/-- Writes a record to every outlet if it is accepted. -/
def log (b : Book) (r : Record) : Call :=
  if b.accepts r then
    if Numeral.overlong r.level then { book := b, failed := true }
    else { book := b.outlets.foldl (write r.lines) b }
  else { book := b }

/-- Writes records in order. -/
def logAll (b : Book) (rs : List Record) : Book :=
  rs.foldl (fun b r => (b.log r).book) b

/-- What a setup says of itself. -/
def setupText (level : Level) (file : Option String) : String :=
  "Logging to stdout" ++ (file.map (" and " ++ ·)).getD "" ++ " at " ++ Level.name level ++ "."

/-- Puts new outlets in place: the console, and a file unless its name is missing or empty. What it says
of itself names the level, whether that is written or not. -/
def setup (b : Book) (level : Level) (file : Option String) : Call :=
  let file := file.filter (· ≠ "")
  let cleared := match file with
    | some name => b.emptyFile name
    | none => b
  let placed := { cleared with level, outlets := .console :: (file.map Outlet.file).toList }
  if Numeral.overlong level then { book := placed, failed := true }
  else placed.log ⟨.root, .debug, setupText level file⟩

end Book

end FieldWalk.Journal
