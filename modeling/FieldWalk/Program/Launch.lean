import FieldWalk.Journal.Book
import FieldWalk.Program.CommandLine
import FieldWalk.Window.Action
/-!
A run of the program: the command line decides where the journal goes, then the window opens on an
untouched session. What the command line leaves over is handed on to the host of the windows.
-/

namespace FieldWalk.Program

open Journal (Book Level)
open Window (Conversions)

/-- What a run leaves behind. -/
structure Launch where
  exit : Int
  book : Book
  /-- The lines on the output. -/
  output : List String
  /-- The last line on the error output. -/
  complaint : String := ""
  /-- The words handed to the host of the windows with the name shown, if it was started. -/
  host : Option (List String × String) := none

/-- The threshold of the journal. -/
def Options.level (o : Options) : Level :=
  if o.debug then .debug else .info

/-- A run under a name with the words of the command line; the host of the windows returns a code
at its end. -/
def launch (name : String) (words : List String) (code : Int) : Launch :=
  match Options.ofWords words with
  | .error e => { exit := e.code, book := {}, output := e.output, complaint := e.complaint }
  | .ok o =>
    let w : Window Unit Float := .opened .standard .standard .new
    let book := (Book.setup {} o.level o.logFile).book.logAll w.panel.report.records
    { exit := code, book, output := book.console, host := some (name :: o.rest, shownName) }

end FieldWalk.Program
