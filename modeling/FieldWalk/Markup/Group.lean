/-!
Groups: text between an opening delimiter and the closing one of the same kind. Delimiters of the
other kind are ordinary text to a group.
-/

namespace FieldWalk.Markup

/-- The delimiter that closes a group of this opener. -/
def closerOf? : Char → Option Char
  | '{' => some '}'
  | '(' => some ')'
  | _ => none

/-- Splits the text behind an opener at the closer that brings `depth` open groups to an end:
content and rest, or all of it and nothing if there is no such closer. -/
def splitGroup (opener closer : Char) : Nat → List Char → List Char × List Char
  | _, [] => ([], [])
  | depth, c :: cs =>
    if c = opener then
      let r := splitGroup opener closer (depth + 1) cs
      (c :: r.1, r.2)
    else if c = closer then
      if depth ≤ 1 then ([], cs)
      else
        let r := splitGroup opener closer (depth - 1) cs
        (c :: r.1, r.2)
    else
      let r := splitGroup opener closer depth cs
      (c :: r.1, r.2)

theorem splitGroup_length (o k : Char) (depth : Nat) (cs : List Char) :
    (splitGroup o k depth cs).1.length + (splitGroup o k depth cs).2.length ≤ cs.length := by
  induction cs generalizing depth with
  | nil => simp [splitGroup]
  | cons c cs ih =>
    have h0 := ih depth
    have h1 := ih (depth + 1)
    have h2 := ih (depth - 1)
    simp only [splitGroup]
    split
    · simp only [List.length_cons]; omega
    · split
      · split
        · simp
        · simp only [List.length_cons]; omega
      · simp only [List.length_cons]; omega

/-- The group at the front of a text: its content and what follows it. -/
def group? : List Char → Option (List Char × List Char)
  | [] => none
  | c :: cs => (closerOf? c).map fun k => splitGroup c k 1 cs

theorem group?_length {s content rest : List Char} (h : group? s = some (content, rest)) :
    content.length + rest.length < s.length := by
  cases s with
  | nil => simp [group?] at h
  | cons c cs =>
    simp only [group?, Option.map_eq_some_iff] at h
    obtain ⟨k, _, h⟩ := h
    have := splitGroup_length c k 1 cs
    rw [h] at this
    simp only [List.length_cons] at *
    omega

/-- The group that opens at a position: its content and the position behind it. Where none opens,
no content and the position itself. -/
def groupAt (s : List Char) (index : Int) : List Char × Int :=
  if index < 0 then ([], index)
  else match group? (s.drop index.toNat) with
    | none => ([], index)
    | some (content, rest) => (content, s.length - rest.length)

end FieldWalk.Markup
