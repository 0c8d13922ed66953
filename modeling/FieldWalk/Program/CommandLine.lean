import FieldWalk.Text.Digit
import FieldWalk.Text.Quoted
/-!
The options of the program. An option may be cut to any beginning that fits one option only, and
takes its value from behind an equals sign or from the next word. What is not understood is left
over, in order; from a lone `--` on nothing is an option.
-/

namespace FieldWalk.Program

open Text (isDigit quoted)

/-- An option. -/
inductive Switch where
  | help
  | debug
  | logFile
deriving Repr, DecidableEq

namespace Switch

/-- The ways to write an option. -/
def spellings : Switch → List String
  | help => ["-h", "--help"]
  | debug => ["--debug"]
  | logFile => ["--log-file"]

/-- Every spelling with its option. -/
def table : List (String × Switch) :=
  [help, debug, logFile].flatMap fun s => s.spellings.map (·, s)

end Switch

/-- Why a command line is refused. -/
inductive Refusal where
  | valueMissing (s : Switch)
  | valueIgnored (s : Switch) (value : String)
  | ambiguous (word : String) (fits : List String)
deriving Repr, DecidableEq

/-- The wording of a refusal. -/
def Refusal.message : Refusal → String
  | valueMissing s => "argument " ++ "/".intercalate s.spellings ++ ": expected one argument"
  | valueIgnored s v =>
    "argument " ++ "/".intercalate s.spellings ++ ": ignored explicit argument "
      ++ String.ofList (quoted v.toList)
  | ambiguous w fits => "ambiguous option: " ++ w ++ " could match " ++ ", ".intercalate fits

/-- How a word reads on its own. -/
inductive Word where
  /-- A value or a word of no meaning. -/
  | plain
  /-- The lone `--`. -/
  | divider
  /-- It begins like an option and is none. -/
  | unknown
  /-- An option in some spelling, with what is attached to it. -/
  | option (s : Switch) (spelling : String) (attached : Option String)
deriving Repr, DecidableEq

/-- The text is a minus sign with a whole or decimal number, perhaps at the end of a line. -/
def isNegativeNumber (w : List Char) : Bool :=
  match w with
  | '-' :: r =>
    let r := if r.getLast? = some '\n' then r.dropLast else r
    match r.dropWhile isDigit with
    | [] => !r.isEmpty
    | '.' :: fraction => !fraction.isEmpty && fraction.all isDigit
    | _ => false
  | _ => false

/-- A text cut at its first equals sign. -/
def splitValue (w : List Char) : List Char × Option (List Char) :=
  match w.dropWhile (· != '=') with
  | [] => (w, none)
  | _ :: v => (w.takeWhile (· != '='), some v)

/-- The options a word can stand for if it is no option in full: one whose spelling it begins, or a
letter with something attached. -/
def fitting (w : List Char) : List Word :=
  let text (cs : List Char) := String.ofList cs
  match w with
  | '-' :: '-' :: _ =>
    let (name, value) := splitValue w
    Switch.table.filterMap fun (spelling, s) =>
      if (text name).isPrefixOf spelling then some (.option s spelling (value.map text)) else none
  | _ =>
    Switch.table.filterMap fun (spelling, s) =>
      if spelling = text (w.take 2) then some (.option s spelling (some (text (w.drop 2))))
      else if (text w).isPrefixOf spelling then some (.option s spelling none)
      else none

/-- The spelling of a word that is an option. -/
def Word.spelling? : Word → Option String
  | option _ spelling _ => some spelling
  | _ => none

/-- A word that is an option in full, perhaps with a value behind an equals sign. -/
def inFull? (w : List Char) : Option Word :=
  let look (cs : List Char) (v : Option String) : Option Word :=
    let spelling := String.ofList cs
    (Switch.table.lookup spelling).map fun s => .option s spelling v
  match look w none with
  | some o => some o
  | none => match splitValue w with
    | (name, some v) => look name (some (String.ofList v))
    | _ => none

/-- Reads one word before any divider. -/
def readWord (w : String) : Except Refusal Word :=
  let cs := w.toList
  if cs.head? ≠ some '-' || cs.length = 1 then .ok .plain
  else if w = "--" then .ok .divider
  else match inFull? cs with
    | some o => .ok o
    | none => match fitting cs with
      | [o] => .ok o
      | [] => .ok (if isNegativeNumber cs || cs.contains ' ' then .plain else .unknown)
      | os => .error (.ambiguous w (os.filterMap Word.spelling?))

/-- Reads all words; behind the divider every word is plain. -/
def readWords : List String → Except Refusal (List (String × Word))
  | [] => .ok []
  | w :: r => do
    let k ← readWord w
    if k = .divider then pure ((w, k) :: r.map (·, .plain))
    else pure ((w, k) :: (← readWords r))

/-- The settings of a run. -/
structure Options where
  debug : Bool := false
  logFile : Option String := none
  /-- What was not understood. -/
  rest : List String := []
deriving Repr, DecidableEq

/-- Why a command line starts no run. -/
inductive Exit where
  | help
  | refused (why : Refusal)
deriving Repr, DecidableEq

/-- What the letters attached to `-h` come to: a run of the letter is the same option again. -/
def attachedHelp : List Char → Exit
  | [] => .help
  | 'h' :: r => attachedHelp r
  | v => .refused (.valueIgnored .help (String.ofList v))

/-- The options of words, taken in order. -/
def gather (o : Options) : List (String × Word) → Except Exit Options
  | [] => .ok o
  | (_, .option .help "-h" (some v)) :: _ =>
    .error (if v = "" then .refused (.valueIgnored .help v) else attachedHelp v.toList)
  | (_, .option .help _ none) :: _ => .error .help
  | (_, .option .debug _ none) :: r => gather { o with debug := true } r
  | (_, .option .logFile _ (some v)) :: r => gather { o with logFile := some v } r
  | (_, .option .logFile _ none) :: (v, .plain) :: r => gather { o with logFile := some v } r
  | (_, .option .logFile _ none) :: _ => .error (.refused (.valueMissing .logFile))
  | (_, .option s _ (some v)) :: _ => .error (.refused (.valueIgnored s v))
  | (w, _) :: r => gather { o with rest := o.rest ++ [w] } r

/-- The options of a command line. -/
def Options.ofWords (ws : List String) : Except Exit Options :=
  match readWords ws with
  | .error e => .error (.refused e)
  | .ok ks => gather {} ks

/-- The name of the program. -/
def programName : String := "gradientslide"

/-- The name of the program as shown. -/
def shownName : String := "Gradient Slide"

/-- The help text. -/
def helpText : List String := [
  "usage: gradientslide [-h] [--debug] [--log-file PATH]",
  "",
  shownName,
  "",
  "options:",
  "  -h, --help       show this help message and exit",
  "  --debug          log at DEBUG level",
  "  --log-file PATH  also write the log to PATH"]

namespace Exit

/-- The exit code. -/
def code : Exit → Int
  | help => 0
  | refused _ => 2

/-- The last line on the error output. -/
def complaint : Exit → String
  | help => ""
  | refused why => programName ++ ": error: " ++ why.message

/-- The lines on the output. -/
def output : Exit → List String
  | help => helpText
  | refused _ => []

end Exit

end FieldWalk.Program
