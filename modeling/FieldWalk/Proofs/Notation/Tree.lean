import FieldWalk.Formula.Product
import FieldWalk.Proofs.Markup.Flat
/-!
# Expression trees in two notations

A tree is printed as markup and as flat text. Operands are put in parentheses unless they are numbers
or names. Where a product may do without its sign the tree says whether it does; the flat text then has
a given text at the joint: a star in the full flat text, nothing in the text that glues the factors.
-/

namespace FieldWalk.Notation

open Formula Markup

/-! ## Operands -/

/-- Decimal digits, one at least. -/
structure Digits where
  first : Fin 10
  others : List (Fin 10)

def Digits.text (n : Digits) : List Char :=
  (n.first :: n.others).map fun d : Fin 10 => Nat.digitChar d

/-- A number without sign: `42` or `4.2`. -/
inductive Literal where
  | whole (n : Digits)
  | decimal (n f : Digits)

def Literal.text : Literal → List Char
  | whole n => n.text
  | decimal n f => n.text ++ '.' :: f.text

/-- A variable or a constant. -/
inductive Name where
  | x
  | y
  | e
  | pi

def Name.text : Name → List Char
  | x => ['x']
  | y => ['y']
  | e => ['e']
  | pi => ['p', 'i']

def Name.markup : Name → List Char
  | pi => '\\' :: pi.text
  | n => n.text

/-- A command of the markup that stands for a function. -/
structure FunctionCommand where
  word : String
  name : String
  listed : (word, name) ∈ plainCommands
  isFunction : name.toList ∈ functionNames

/-! ## Trees -/

/-- An expression. Indexed roots occur in it only if `indexed` holds; the index of a root has none. -/
inductive Tree : (indexed : Bool) → Type where
  | literal {b} (n : Literal) : Tree b
  | name {b} (n : Name) : Tree b
  | neg {b} (t : Tree b) : Tree b
  | add {b} (s t : Tree b) : Tree b
  | sub {b} (s t : Tree b) : Tree b
  /-- A product; a tight one is printed without its sign where that is possible. -/
  | mul {b} (tight : Bool) (s t : Tree b) : Tree b
  | pow {b} (s t : Tree b) : Tree b
  | frac {b} (s t : Tree b) : Tree b
  | sqrt {b} (t : Tree b) : Tree b
  | root (n : Tree false) (t : Tree true) : Tree true
  | call {b} (f : FunctionCommand) (t : Tree b) : Tree b

namespace Tree

variable {b : Bool}

def isLiteral : Tree b → Bool
  | literal _ => true
  | _ => false

/-- A number or a name, which needs no parentheses. -/
def isAtom : Tree b → Bool
  | literal _ | name _ => true
  | _ => false

/-- The product is printed without its sign. -/
def glued (tight : Bool) (s t : Tree b) : Bool :=
  tight && (s.isLiteral || !s.isAtom) && !t.isLiteral

/-! ## Markup -/

/-- A word behind a backslash. -/
def command (word : String) : List Char :=
  '\\' :: word.toList

/-- Markup between `\left(` and `\right)`. -/
def sized (s : List Char) : List Char :=
  command "left" ++ '(' :: s ++ command "right" ++ [')']

/-- The markup of an operand, an atom or not. -/
def markupOperand (atom : Bool) (s : List Char) : List Char :=
  if atom then s else sized s

/-- The tree as markup. -/
def markup {b : Bool} : Tree b → List Char
  | literal n => n.text
  | name n => n.markup
  | neg t => '-' :: markupOperand t.isAtom t.markup
  | add s t => markupOperand s.isAtom s.markup ++ '+' :: markupOperand t.isAtom t.markup
  | sub s t => markupOperand s.isAtom s.markup ++ '-' :: markupOperand t.isAtom t.markup
  | mul tight s t => markupOperand s.isAtom s.markup ++
      (if glued tight s t then [] else command "cdot" ++ [' ']) ++ markupOperand t.isAtom t.markup
  | pow s t => markupOperand s.isAtom s.markup ++ '^' :: braced t.markup
  | frac s t => command "frac" ++ braced s.markup ++ braced t.markup
  | sqrt t => command "sqrt" ++ braced t.markup
  | root n t => command "sqrt" ++ bracketed [] n.markup ++ braced t.markup
  | call f t => command f.word ++ sized t.markup

/-! ## Flat text -/

/-- The flat text of an operand, an atom or not. -/
def flatOperand (atom : Bool) (s : List Char) : List Char :=
  if atom then s else paren s

/-- The tree as flat text, with a given text for the sign that a tight product omits. -/
def flat (joint : List Char) {b : Bool} : Tree b → List Char
  | literal n => n.text
  | name n => n.text
  | neg t => '-' :: flatOperand t.isAtom (t.flat joint)
  | add s t => flatOperand s.isAtom (s.flat joint) ++ '+' :: flatOperand t.isAtom (t.flat joint)
  | sub s t => flatOperand s.isAtom (s.flat joint) ++ '-' :: flatOperand t.isAtom (t.flat joint)
  | mul tight s t => flatOperand s.isAtom (s.flat joint) ++
      (if glued tight s t then joint else ['*']) ++ flatOperand t.isAtom (t.flat joint)
  | pow s t => flatOperand s.isAtom (s.flat joint) ++ '^' :: paren (t.flat joint)
  | frac s t => paren (s.flat joint) ++ '/' :: paren (t.flat joint)
  | sqrt t => "sqrt".toList ++ paren (paren (t.flat joint))
  | root n t => paren (t.flat joint) ++ '^' :: paren ('1' :: '/' :: paren (n.flat joint))
  | call f t => f.name.toList ++ paren (t.flat joint)

end Tree

end FieldWalk.Notation
