import FieldWalk.Markup.Command
import FieldWalk.Markup.Group
import FieldWalk.Text.Blank
import FieldWalk.Text.Letter
/-!
Flat text of typeset markup. Every construct of the markup becomes infix text: a fraction
`(a)/(b)`, a root `sqrt((a))` or `(a)^(1/(n))`, a group its content in parentheses, a command
its name. What is malformed degrades to literal text and a warning.
-/

namespace FieldWalk.Markup

open Text

/-- A flat text with the warnings met on the way, in order. -/
structure Flat where
  text : List Char
  warnings : List Warning
deriving Repr, DecidableEq

namespace Flat

/-- Nothing. -/
protected def empty : Flat := ⟨[], []⟩

/-- A literal text. -/
def lit (s : String) : Flat := ⟨s.toList, []⟩

/-- A literal character. -/
def char (c : Char) : Flat := ⟨[c], []⟩

/-- A warning without text. -/
def warn (w : Warning) : Flat := ⟨[], [w]⟩

instance : Append Flat := ⟨fun a b => ⟨a.text ++ b.text, a.warnings ++ b.warnings⟩⟩

@[simp] theorem append_text (a b : Flat) : (a ++ b).text = a.text ++ b.text := rfl
@[simp] theorem append_warnings (a b : Flat) : (a ++ b).warnings = a.warnings ++ b.warnings := rfl

/-- In parentheses. -/
def paren (a : Flat) : Flat := char '(' ++ a ++ char ')'

end Flat

/-- The next grouped argument, blanks before it ignored. -/
def argument? (s : List Char) : Option (List Char × List Char) :=
  group? (s.dropWhile isBlank)

/-- The index of a root: the text between `[` and the first `]`, blanks before it ignored. -/
def rootIndex? (s : List Char) : Option (List Char × List Char) :=
  match s.dropWhile isBlank with
  | '[' :: r => match r.dropWhile (· != ']') with
    | [] => none
    | _ :: rest => some (r.takeWhile (· != ']'), rest)
  | _ => none

theorem length_dropWhile_le (p : Char → Bool) (s : List Char) : (s.dropWhile p).length ≤ s.length :=
  (List.dropWhile_sublist p).length_le

theorem length_takeWhile_add (p : Char → Bool) (s : List Char) :
    (s.takeWhile p).length + (s.dropWhile p).length = s.length := by
  rw [← List.length_append, List.takeWhile_append_dropWhile]

theorem argument?_length {s content rest : List Char} (h : argument? s = some (content, rest)) :
    content.length + rest.length < s.length :=
  Nat.lt_of_lt_of_le (group?_length h) (length_dropWhile_le _ _)

theorem rootIndex?_length {s index rest : List Char} (h : rootIndex? s = some (index, rest)) :
    index.length + rest.length < s.length := by
  have hs := length_dropWhile_le isBlank s
  simp only [rootIndex?] at h
  split at h
  · rename_i r hr
    rw [hr] at hs
    have ht := length_takeWhile_add (· != ']') r
    split at h
    · simp at h
    · rename_i c rest' hd
      rw [hd] at ht
      simp only [Option.some.injEq, Prod.mk.injEq] at h
      obtain ⟨rfl, rfl⟩ := h
      simp only [List.length_cons] at *
      omega
  · simp at h

/-- What follows a command word at the front of a text. -/
inductive Construct where
  | fraction (numerator denominator rest : List Char)
  | halfFraction (numerator rest : List Char)
  | root (radicand rest : List Char)
  | indexedRoot (index radicand rest : List Char)
  | name (content rest : List Char)
  /-- No argument was needed or found. -/
  | bare

/-- Reads the arguments that a command asks for. -/
def Command.arguments (command : Command) (s : List Char) : Construct :=
  match command with
  | .fraction => match argument? s with
    | none => .bare
    | some (numerator, r) => match argument? r with
      | none => .halfFraction numerator r
      | some (denominator, rest) => .fraction numerator denominator rest
  | .root => match rootIndex? s with
    | none => match argument? s with
      | none => .bare
      | some (radicand, rest) => .root radicand rest
    | some (index, r) => match argument? r with
      | none => .bare
      | some (radicand, rest) => .indexedRoot index radicand rest
  | .operatorName => match argument? s with
    | none => .bare
    | some (content, rest) => .name content rest
  | _ => .bare

/-- The lengths of a construct's parts. -/
def Construct.Within (n : Nat) : Construct → Prop
  | fraction a b rest => a.length + b.length + rest.length < n
  | halfFraction a rest => a.length + rest.length < n
  | root a rest => a.length + rest.length < n
  | indexedRoot i a rest => i.length + a.length + rest.length < n
  | name a rest => a.length + rest.length < n
  | bare => True

theorem Command.arguments_within (command : Command) (s : List Char) :
    (command.arguments s).Within s.length := by
  unfold Command.arguments
  split
  · split
    · trivial
    · rename_i h; have := argument?_length h
      split
      · exact this
      · rename_i h'; have := argument?_length h'
        simp only [Construct.Within]; omega
  · split
    · split
      · trivial
      · rename_i h; exact argument?_length h
    · rename_i h; have := rootIndex?_length h
      split
      · trivial
      · rename_i h'; have := argument?_length h'
        simp only [Construct.Within]; omega
  · split
    · trivial
    · rename_i h; exact argument?_length h
  · trivial

/-- The output of a command that has found no argument, or takes none. -/
def Command.bareText (command : Command) (word : String) : Flat :=
  match command with
  | .fraction => Flat.warn (.noNumerator word) ++ Flat.lit "frac"
  | .root => Flat.warn .noRadicand ++ Flat.lit "sqrt"
  | .operatorName => Flat.lit "operatorname"
  | .sizing => Flat.empty
  | .plain text => Flat.lit text
  | .unknown => Flat.warn (.unknownCommand word) ++ Flat.lit word

/-- The flat text of a markup. -/
def flatten (s : List Char) : Flat :=
  match s with
  | [] => Flat.empty
  | '\\' :: cs =>
    let word := cs.takeWhile isLetter
    let rest := cs.dropWhile isLetter
    if word.isEmpty then
      match cs with
      | '{' :: r => Flat.char '(' ++ flatten r
      | '}' :: r => Flat.char ')' ++ flatten r
      | _ :: r => flatten r
      | [] => Flat.empty
    else
      let name := String.ofList word
      let command := Command.ofWord name
      match _h : command.arguments rest with
      | .fraction a b r =>
        (flatten a).paren ++ Flat.char '/' ++ (flatten b).paren ++ flatten r
      | .halfFraction a r =>
        Flat.warn (.noDenominator name) ++ (flatten a).paren ++ Flat.char '/' ++ flatten r
      | .root a r => Flat.lit "sqrt(" ++ (flatten a).paren ++ Flat.char ')' ++ flatten r
      | .indexedRoot i a r =>
        (flatten a).paren ++ Flat.lit "^(1/" ++ (flatten i).paren ++ Flat.char ')' ++ flatten r
      | .name a r => ⟨a.filter (!isBlank ·), []⟩ ++ flatten r
      | .bare => command.bareText name ++ flatten rest
  | c :: cs =>
    match _h : group? (c :: cs) with
    | some (content, r) => (flatten content).paren ++ flatten r
    | none => if isBlank c then flatten cs else Flat.char c ++ flatten cs
termination_by s.length
decreasing_by
  all_goals simp_wf
  all_goals try
    have hr := length_dropWhile_le isLetter cs
    have hw := Command.arguments_within (Command.ofWord (String.ofList (cs.takeWhile isLetter)))
      (cs.dropWhile isLetter)
    simp only [name, command, word, rest] at *
  all_goals try
    rw [_h] at hw
    simp only [Construct.Within] at hw
  all_goals try omega
  all_goals
    have hg := group?_length _h
    simp only [List.length_cons] at hg
    omega

/-- The flat text of a markup, with the warnings. -/
def translate (markup : String) : String × List Warning :=
  let r := flatten markup.toList
  (String.ofList r.text, r.warnings)

end FieldWalk.Markup
