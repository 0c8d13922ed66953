import FieldWalk.Proofs.Notation.Block
/-!
# Markup around a construct

A context is markup with a hole, any number of groups, fractions and roots deep. What is put into the
hole is translated in its place: the flat text before and behind it does not depend on it.
-/

namespace FieldWalk.Notation

open Markup Text

/-- Markup with the flat text that it stands for. -/
structure Fragment where
  markup : List Char
  flat : List Char
  piece : Piece markup flat

/-- Characters that stand for themselves. -/
def Fragment.plain (s : List Char)
    (h : ∀ c ∈ s, c ∉ ['\\', '{', '}', '(', ')', '[', ']'] ∧ isBlank c = false) : Fragment where
  markup := s
  flat := s
  piece := ⟨balanced_of_free fun c hc => IsLiteral.free (h c hc), (closed_literals h).reads⟩

theorem Block.between {s t : List Char} (h : Block s t) (l r : Fragment) :
    Piece (l.markup ++ s ++ r.markup) (l.flat ++ t ++ r.flat) where
  balanced := balanced_append (balanced_append l.piece.balanced h.balanced) r.piece.balanced
  reads := (l.piece.reads.append_closed h.closed ⟨h.ne_nil, h.noLetter⟩).append_reads r.piece.reads

/-! ## Constructs with a hole -/

/-- A construct with a hole in one of its places. -/
inductive Nest where
  | group (e : Enclosure)
  | numerator (w : FractionWord) (e e' : Enclosure) (b : Fragment)
  | denominator (w : FractionWord) (e e' : Enclosure) (a : Fragment)
  | radicand (e : Enclosure)
  | indexedRadicand (g : List Char) (hg : ∀ c ∈ g, isBlank c = true) (n : Fragment)
      (hn : ']' ∉ n.markup) (e : Enclosure)
  | index (g : List Char) (hg : ∀ c ∈ g, isBlank c = true) (e : Enclosure) (a : Fragment)

namespace Nest

/-- The construct with markup in its hole. -/
def fill : Nest → List Char → List Char
  | group e, s => e.around s
  | numerator w e e' b, s => Tree.command w.word ++ e.around s ++ e'.around b.markup
  | denominator w e e' a, s => Tree.command w.word ++ e.around a.markup ++ e'.around s
  | radicand e, s => Tree.command "sqrt" ++ e.around s
  | indexedRadicand g _ n _ e, s => Tree.command "sqrt" ++ bracketed g n.markup ++ e.around s
  | index g _ e a, s => Tree.command "sqrt" ++ bracketed g s ++ e.around a.markup

/-- The flat text before the hole. -/
def left : Nest → List Char
  | group _ | numerator .. | indexedRadicand .. => ['(']
  | denominator _ _ _ a => paren a.flat ++ ['/', '(']
  | radicand _ => "sqrt((".toList
  | index _ _ _ a => paren a.flat ++ ['^', '(', '1', '/', '(']

/-- The flat text behind the hole. -/
def right : Nest → List Char
  | group _ | denominator .. => [')']
  | numerator _ _ _ b => ')' :: '/' :: paren b.flat
  | radicand _ | index .. => [')', ')']
  | indexedRadicand _ _ n _ _ => ')' :: '^' :: paren ('1' :: '/' :: paren n.flat)

/-- The markup can be put into the hole: an index ends at the first closing bracket. -/
def Admits : Nest → List Char → Prop
  | index .., s => ']' ∉ s
  | _, _ => True

/-- A construct is a block if there is a piece in its hole. -/
theorem block (n : Nest) {s t : List Char} (h : Piece s t) (ha : n.Admits s) :
    Block (n.fill s) (n.left ++ t ++ n.right) := by
  cases n with
  | group e => exact block_around e h
  | numerator w e e' b => simpa [fill, left, right, paren] using block_fraction w e e' h b.piece
  | denominator w e e' a => simpa [fill, left, right, paren] using block_fraction w e e' a.piece h
  | radicand e => simpa [fill, left, right, paren] using block_root e h
  | indexedRadicand g hg n hn e =>
    simpa [fill, left, right, paren] using block_indexedRoot hg e hn n.piece h
  | index g hg e a =>
    simpa [fill, left, right, paren] using block_indexedRoot hg e ha h a.piece

/-- A character of the filled construct stands in it or in what it is filled with. -/
theorem mem_fill {n : Nest} {x : Char} {s s' : List Char} (h : x ∈ s → x ∈ s') (hx : x ∈ n.fill s) :
    x ∈ n.fill s' := by
  have he : ∀ e : Enclosure, x ∈ e.around s → x ∈ e.around s' := by
    rintro ⟨gap, hgap, round⟩ hx
    cases round <;> simp only [Enclosure.around, Bool.false_eq_true, if_false, if_true] at hx ⊢ <;>
      grind
  have hb : ∀ g, x ∈ bracketed g s → x ∈ bracketed g s' := by
    intro g hx
    rw [bracketed] at hx ⊢
    grind
  cases n with
  | group e => exact he e hx
  | numerator w e e' b =>
    simp only [fill, List.mem_append] at hx ⊢
    exact hx.imp_left (Or.imp_right (he e))
  | denominator w e e' a =>
    simp only [fill, List.mem_append] at hx ⊢
    exact hx.imp_right (he e')
  | radicand e =>
    simp only [fill, List.mem_append] at hx ⊢
    exact hx.imp_right (he e)
  | indexedRadicand g hg n hn e =>
    simp only [fill, List.mem_append] at hx ⊢
    exact hx.imp_right (he e)
  | index g hg e a =>
    simp only [fill, List.mem_append] at hx ⊢
    exact hx.imp_left (Or.imp_right (hb g))

end Nest

/-! ## Contexts -/

/-- Markup with a hole. -/
inductive Context where
  | hole (l r : Fragment)
  | inside (l : Fragment) (n : Nest) (c : Context) (r : Fragment)

namespace Context

/-- The context with markup in its hole. -/
def fill : Context → List Char → List Char
  | hole l r, s => l.markup ++ s ++ r.markup
  | inside l n c r, s => l.markup ++ n.fill (c.fill s) ++ r.markup

/-- The flat text before the hole. -/
def left : Context → List Char
  | hole l _ => l.flat
  | inside l n c _ => l.flat ++ (n.left ++ c.left)

/-- The flat text behind the hole. -/
def right : Context → List Char
  | hole _ r => r.flat
  | inside _ n c r => c.right ++ n.right ++ r.flat

/-- The markup can be put into the hole. -/
def Admits : Context → List Char → Prop
  | hole .., _ => True
  | inside _ n c _, s => c.Admits s ∧ n.Admits (c.fill s)

/-- A block is translated in its place. -/
theorem piece (c : Context) {s t : List Char} (h : Block s t) (ha : c.Admits s) :
    Piece (c.fill s) (c.left ++ t ++ c.right) := by
  induction c with
  | hole l r => exact h.between l r
  | inside l n c r ih =>
    have := (n.block (ih ha.1) ha.2).between l r
    simpa [fill, left, right] using this

theorem mem_fill {c : Context} {x : Char} {s s' : List Char} (h : x ∈ s → x ∈ s')
    (hx : x ∈ c.fill s) : x ∈ c.fill s' := by
  induction c with
  | hole l r =>
    simp only [fill, List.mem_append] at hx ⊢
    exact hx.imp_left (Or.imp_right h)
  | inside l n c r ih =>
    simp only [fill, List.mem_append] at hx ⊢
    exact hx.imp_left (Or.imp_right (Nest.mem_fill ih))

/-- Parentheses hold no brackets. -/
theorem admits_sized {c : Context} {s : List Char} (h : c.Admits s) : c.Admits (Tree.sized s) := by
  induction c with
  | hole l r => trivial
  | inside l n c r ih =>
    refine ⟨ih h.1, ?_⟩
    cases n with
    | index g hg e a =>
      -- only an index is particular, and it ends at a bracket
      intro hx
      refine h.2 (mem_fill ?_ hx)
      simp [Tree.sized, Tree.command]
    | _ => trivial

end Context

end FieldWalk.Notation
