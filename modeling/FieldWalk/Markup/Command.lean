/-! The commands of the markup: words behind a backslash. -/

namespace FieldWalk.Markup

/-- What a command word stands for. -/
inductive Command where
  | fraction
  | root
  | operatorName
  /-- A sizing hint without output. -/
  | sizing
  /-- A name or operator of the flat notation. -/
  | plain (text : String)
  | unknown
deriving Repr, DecidableEq

/-- The words that stand for one name or operator. -/
def plainCommands : List (String × String) := [
  ("sin", "sin"), ("cos", "cos"), ("tan", "tan"),
  ("sinh", "sinh"), ("cosh", "cosh"), ("tanh", "tanh"),
  ("asin", "asin"), ("acos", "acos"), ("atan", "atan"),
  ("arcsin", "asin"), ("arccos", "acos"), ("arctan", "atan"),
  ("exp", "exp"), ("ln", "log"), ("log", "log"), ("abs", "abs"), ("pi", "pi"),
  ("cdot", "*"), ("times", "*")]

/-- The command of a word. -/
def Command.ofWord (word : String) : Command :=
  if word = "frac" || word = "dfrac" || word = "tfrac" then .fraction
  else if word = "sqrt" then .root
  else if word = "operatorname" then .operatorName
  else if word = "left" || word = "right" then .sizing
  else match plainCommands.lookup word with
    | some text => .plain text
    | none => .unknown

/-- Something odd in the markup that does not stop its translation. -/
inductive Warning where
  | unknownCommand (word : String)
  | noNumerator (word : String)
  | noDenominator (word : String)
  | noRadicand
deriving Repr, DecidableEq

/-- The text of a warning. -/
def Warning.message : Warning → String
  | unknownCommand word => "Unrecognized LaTeX command '\\" ++ word ++ "' passed through literally."
  | noNumerator word => "'\\" ++ word ++ "' without a numerator group, emitted literally."
  | noDenominator word => "'\\" ++ word ++ "' without a denominator group."
  | noRadicand => "'\\sqrt' without an argument group, emitted literally."

end FieldWalk.Markup
