import FieldWalk.Proofs.Notation.Tree
/-!
# Constructs of the markup

A construct of the markup ends in a closing delimiter, so it stands for its flat text whatever is around
it. Fractions, roots and groups are such constructs, with any markup of their own in their places.
-/

namespace FieldWalk.Notation

open Markup Text

/-- Markup that stands for its flat text whatever is around it. -/
structure Block (s t : List Char) : Prop where
  balanced : Balanced s
  closed : Closed s t
  noLetter : NoLetter s
  ne_nil : s ≠ []

theorem Block.piece {s t : List Char} (h : Block s t) : Piece s t :=
  ⟨h.balanced, h.closed.reads⟩

/-! ## Groups -/

theorem block_around (e : Enclosure) {s t : List Char} (h : Piece s t) :
    Block (e.around s) (paren t) := by
  refine ⟨e.balanced h.balanced, e.closed h, ?_, e.ne_nil s⟩
  have := e.noLetter s []
  rwa [List.append_nil] at this

/-- A command word of letters holds no delimiters. -/
theorem balanced_command {word : String} (hw : ∀ c ∈ word.toList, c ∉ ['{', '}', '(', ')']) :
    Balanced (Tree.command word) :=
  balanced_cons (by decide) (balanced_of_free hw)

theorem noLetter_command (word : String) (s : List Char) : NoLetter (Tree.command word ++ s) :=
  noLetter_cons (by decide) _

theorem reads_left : Reads (Tree.command "left") [] :=
  reads_sizing (by decide) (by decide) (by decide)

theorem reads_right : Reads (Tree.command "right") [] :=
  reads_sizing (by decide) (by decide) (by decide)

theorem sized_eq (s : List Char) :
    Tree.sized s = Tree.command "left" ++ paren (s ++ Tree.command "right") := by
  simp [Tree.sized, paren]

/-- What stands before the closing parenthesis of a sized group. -/
theorem piece_right {s t : List Char} (h : Piece s t) : Piece (s ++ Tree.command "right") t := by
  have hr : Piece (Tree.command "right") [] := ⟨balanced_command (by decide), reads_right⟩
  have := h.append hr (noLetter_command "right" [])
  rwa [List.append_nil] at this

theorem block_sized {s t : List Char} (h : Piece s t) : Block (Tree.sized s) (paren t) := by
  rw [sized_eq]
  refine ⟨?_, ?_, noLetter_command "left" _, List.cons_ne_nil _ _⟩
  · exact balanced_append (balanced_command (by decide)) (balanced_parens (piece_right h).balanced)
  · exact reads_left.append_closed (closed_paren (piece_right h))
      ⟨List.cons_ne_nil _ _, noLetter_cons (by decide) _⟩

/-! ## Fractions -/

theorem letters_of_fraction {word : String} (h : Command.ofWord word = .fraction) :
    word.toList ≠ [] ∧ ∀ c ∈ word.toList, isLetter c = true ∧ c ∉ ['{', '}', '(', ')'] := by
  unfold Command.ofWord at h
  split at h
  · rename_i hw
    simp only [Bool.or_eq_true, decide_eq_true_eq] at hw
    clear h
    rcases hw with (rfl | rfl) | rfl <;> decide
  · repeat' split at h
    all_goals cases h

/-- A word that stands for a fraction. -/
structure FractionWord where
  word : String
  isFraction : Command.ofWord word = .fraction

theorem block_fraction (w : FractionWord) (e e' : Enclosure) {a b s t : List Char} (ha : Piece a s)
    (hb : Piece b t) :
    Block (Tree.command w.word ++ e.around a ++ e'.around b) (paren s ++ '/' :: paren t) := by
  obtain ⟨hn, hw⟩ := letters_of_fraction w.isFraction
  refine ⟨?_, ?_, noLetter_cons (by decide) _, List.cons_ne_nil _ _⟩
  · exact balanced_append (balanced_append (balanced_command fun c hc => (hw c hc).2)
      (e.balanced ha.balanced)) (e'.balanced hb.balanced)
  · exact closed_fraction hn (fun c hc => (hw c hc).1) (by rw [String.ofList_toList, w.isFraction])
      e e' ha hb

/-! ## Roots -/

theorem block_root (e : Enclosure) {a s : List Char} (ha : Piece a s) :
    Block (Tree.command "sqrt" ++ e.around a) ("sqrt".toList ++ paren (paren s)) := by
  refine ⟨?_, ?_, noLetter_cons (by decide) _, List.cons_ne_nil _ _⟩
  · exact balanced_append (balanced_command (by decide)) (e.balanced ha.balanced)
  · exact closed_root (w := "sqrt".toList) (by decide) (by decide) (by decide) e ha

theorem balanced_bracketed {g n : List Char} (hg : ∀ c ∈ g, isBlank c = true) (hn : Balanced n) :
    Balanced (bracketed g n) :=
  balanced_append (balanced_append (balanced_of_free (blank_free hg)) (balanced_cons (by decide) hn))
    (balanced_of_free (by decide))

theorem block_indexedRoot {g : List Char} (hg : ∀ c ∈ g, isBlank c = true) (e : Enclosure)
    {n a s t : List Char} (hi : ']' ∉ n) (hn : Piece n s) (ha : Piece a t) :
    Block (Tree.command "sqrt" ++ bracketed g n ++ e.around a)
      (paren t ++ '^' :: paren ('1' :: '/' :: paren s)) := by
  refine ⟨?_, ?_, noLetter_cons (by decide) _, List.cons_ne_nil _ _⟩
  · exact balanced_append (balanced_append (balanced_command (by decide))
      (balanced_bracketed hg hn.balanced)) (e.balanced ha.balanced)
  · exact closed_indexedRoot (w := "sqrt".toList) (by decide) (by decide) (by decide) hg e hi hn ha

end FieldWalk.Notation
