import FieldWalk.Proofs.Notation.Block
/-!
# The markup of a tree is read as its glued text

Every tree's markup is balanced and stands for the flat text in which a product that omits its sign
has nothing at the joint.
-/

namespace FieldWalk.Notation

open Formula Markup Text

/-! ## Characters of numbers -/

/-- The characters of a number. -/
def numerals : List Char :=
  ['0', '1', '2', '3', '4', '5', '6', '7', '8', '9', '.']

theorem Digits.text_numerals (n : Digits) : ∀ c ∈ n.text, c ∈ numerals := by
  have h : ∀ d : Fin 10, Nat.digitChar d ∈ numerals := by decide
  intro c hc
  obtain ⟨d, -, rfl⟩ := List.mem_map.1 hc
  exact h d

theorem Literal.text_numerals (n : Literal) : ∀ c ∈ n.text, c ∈ numerals := by
  cases n with
  | whole n => exact n.text_numerals
  | decimal n f =>
    intro c hc
    simp only [Literal.text, List.mem_append, List.mem_cons] at hc
    rcases hc with hc | rfl | hc
    · exact n.text_numerals c hc
    · decide
    · exact f.text_numerals c hc

theorem numeral_isLiteral {c : Char} (h : c ∈ numerals) : IsLiteral c := by
  have hall : ∀ c ∈ numerals, c ∉ ['\\', '{', '}', '(', ')', '[', ']'] ∧ isBlank c = false := by
    decide
  exact hall c h

/-! ## Atoms -/

theorem closed_literalText (n : Literal) : Closed n.text n.text :=
  closed_literals fun c hc => numeral_isLiteral (n.text_numerals c hc)

theorem piece_literal (n : Literal) : Piece n.text n.text :=
  ⟨balanced_of_free fun c hc => (numeral_isLiteral (n.text_numerals c hc)).free, (closed_literalText n).reads⟩

theorem closed_letter {n : Name} (h : n ≠ .pi) : Closed n.markup n.text := by
  have hletter : ∀ c ∈ ['x', 'y', 'e'], c ∉ ['\\', '{', '}', '(', ')', '[', ']'] ∧
      isBlank c = false := by decide
  cases n with
  | x => exact closed_literal (hletter 'x' (by decide))
  | y => exact closed_literal (hletter 'y' (by decide))
  | e => exact closed_literal (hletter 'e' (by decide))
  | pi => exact absurd rfl h

theorem piece_name (n : Name) : Piece n.markup n.text := by
  by_cases hn : n = .pi
  · subst hn
    have h : Reads ('\\' :: ['p', 'i']) "pi".toList :=
      reads_plain (by decide) (by decide) (by decide)
    exact ⟨balanced_of_free (by decide), h⟩
  · exact ⟨balanced_of_free (by cases n <;> decide), (closed_letter hn).reads⟩

/-! ## Constructs -/

theorem piece_operand (atom : Bool) {s t : List Char} (h : Piece s t) :
    Piece (Tree.markupOperand atom s) (Tree.flatOperand atom t) := by
  cases atom with
  | true => exact h
  | false => exact (block_sized h).piece

theorem Piece.cons {c : Char} (hc : IsLiteral c) {s t : List Char} (h : Piece s t) :
    Piece (c :: s) (c :: t) :=
  ⟨balanced_cons hc.free h.balanced, (closed_literal hc).append_reads h.reads⟩

theorem piece_braced {s t : List Char} (h : Piece s t) : Piece (braced s) (paren t) :=
  ⟨balanced_braces h.balanced, (closed_braced h).reads⟩

theorem isLiteral_operator {c : Char} (h : c ∈ ['+', '-', '^', '*', '/']) : IsLiteral c := by
  have hall : ∀ c ∈ ['+', '-', '^', '*', '/'],
      c ∉ ['\\', '{', '}', '(', ')', '[', ']'] ∧ isBlank c = false := by decide
  exact hall c h

/-- An operator between two operands. -/
theorem Piece.join {c : Char} (hc : c ∈ ['+', '-', '^', '*', '/']) {s s' t t' : List Char}
    (h : Piece s t) (h' : Piece s' t') : Piece (s ++ c :: s') (t ++ c :: t') := by
  have hl : NoLetter (c :: s') := by
    have hall : ∀ c ∈ ['+', '-', '^', '*', '/'], isLetter c = false := by decide
    exact noLetter_cons (hall c hc) s'
  exact h.append (Piece.cons (isLiteral_operator hc) h') hl

/-- The sign of a product and the blank behind it. -/
theorem closed_times : Closed (Tree.command "cdot" ++ [' ']) ['*'] := by
  have h : Reads (Tree.command "cdot") "*".toList :=
    reads_plain (by decide) (by decide) (by decide)
  exact h.append_closed (closed_blank (c := ' ') (by decide)) ⟨by simp, noLetter_cons (by decide) []⟩

theorem piece_times {s s' t t' : List Char} (h : Piece s t) (h' : Piece s' t') :
    Piece (s ++ (Tree.command "cdot" ++ [' ']) ++ s') (t ++ ['*'] ++ t') := by
  have hb : Balanced (Tree.command "cdot" ++ [' ']) := balanced_of_free (by decide)
  refine ⟨balanced_append (balanced_append h.balanced hb) h'.balanced, ?_⟩
  have hc : Closed (s ++ (Tree.command "cdot" ++ [' '])) (t ++ ['*']) :=
    h.reads.append_closed closed_times ⟨by simp, noLetter_command "cdot" _⟩
  exact hc.append_reads h'.reads

/-- A number and a group can stand directly before anything. -/
theorem closed_operand {b : Bool} {t : Tree b} (h : Piece t.markup (t.flat []))
    (hg : (t.isLiteral || !t.isAtom) = true) :
    Closed (Tree.markupOperand t.isAtom t.markup) (Tree.flatOperand t.isAtom (t.flat [])) := by
  cases t with
  | literal n => exact closed_literalText n
  | name n => cases hg
  | _ => exact (block_sized h).closed

theorem piece_product {b : Bool} (tight : Bool) {s t : Tree b} (hs : Piece s.markup (s.flat []))
    (ht : Piece t.markup (t.flat [])) :
    Piece (Tree.mul tight s t).markup ((Tree.mul tight s t).flat []) := by
  -- without its sign a product must not begin in a command that would take in the next factor
  have hs' := piece_operand s.isAtom hs
  have ht' := piece_operand t.isAtom ht
  by_cases hg : Tree.glued tight s t = true
  · have hl : (s.isLiteral || !s.isAtom) = true := by
      simp only [Tree.glued, Bool.and_eq_true] at hg
      exact hg.1.2
    rw [Tree.markup, Tree.flat, if_pos hg, if_pos hg, List.append_nil, List.append_nil]
    exact ⟨balanced_append hs'.balanced ht'.balanced, (closed_operand hs hl).append_reads ht'.reads⟩
  · rw [Tree.markup, Tree.flat, if_neg hg, if_neg hg]
    exact piece_times hs' ht'

theorem plain_word {word name : String} (h : (word, name) ∈ plainCommands) :
    word.toList ≠ [] ∧ (∀ c ∈ word.toList, isLetter c = true ∧ c ∉ ['{', '}', '(', ')']) ∧
      Command.ofWord word = .plain name := by
  have hall : ∀ p ∈ plainCommands, p.1.toList ≠ [] ∧
      (∀ c ∈ p.1.toList, isLetter c = true ∧ c ∉ ['{', '}', '(', ')']) ∧
        Command.ofWord p.1 = .plain p.2 := by
    decide
  exact hall _ h

theorem piece_word (f : FunctionCommand) : Piece (Tree.command f.word) f.name.toList := by
  obtain ⟨hn, hw, hc⟩ := plain_word f.listed
  have hr : Reads (Tree.command f.word) f.name.toList :=
    reads_plain hn (fun c hc => (hw c hc).1) (by rwa [String.ofList_toList])
  exact ⟨balanced_command fun c hc => (hw c hc).2, hr⟩

theorem piece_call (f : FunctionCommand) {s t : List Char} (h : Piece s t) :
    Piece (Tree.command f.word ++ Tree.sized s) (f.name.toList ++ paren t) :=
  (piece_word f).append (block_sized h).piece (block_sized h).noLetter

/-! ## Every tree -/

theorem bracket_notMem_operand (atom : Bool) {s : List Char} (h : ']' ∉ s) :
    ']' ∉ Tree.markupOperand atom s := by
  cases atom with
  | true => exact h
  | false => simp [Tree.markupOperand, Tree.sized, Tree.command, h]

theorem bracket_notMem_name (n : Name) : ']' ∉ n.markup := by
  cases n <;> decide

/-- A tree without indexed roots has no brackets in its markup, so it can be an index. -/
theorem bracket_notMem_markup {b : Bool} (t : Tree b) (hb : b = false) : ']' ∉ t.markup := by
  induction t with
  | literal n =>
    intro h
    exact absurd (n.text_numerals _ h) (by decide)
  | name n => exact bracket_notMem_name n
  | neg t ih => simp [Tree.markup, bracket_notMem_operand t.isAtom (ih hb)]
  | add s t ihs iht | sub s t ihs iht =>
    simp [Tree.markup, bracket_notMem_operand s.isAtom (ihs hb),
      bracket_notMem_operand t.isAtom (iht hb)]
  | mul tight s t ihs iht =>
    rw [Tree.markup]
    split <;> simp [Tree.command, bracket_notMem_operand s.isAtom (ihs hb),
      bracket_notMem_operand t.isAtom (iht hb)]
  | pow s t ihs iht => simp [Tree.markup, braced, bracket_notMem_operand s.isAtom (ihs hb), iht hb]
  | frac s t ihs iht => simp [Tree.markup, Tree.command, braced, ihs hb, iht hb]
  | sqrt t ih => simp [Tree.markup, Tree.command, braced, ih hb]
  | root n t => cases hb
  | call f t ih =>
    have hw : ']' ∉ f.word.toList := by
      intro h
      have := ((plain_word f.listed).2.1 _ h).1
      revert this
      decide
    simp [Tree.markup, Tree.sized, Tree.command, hw, ih hb]

/-- The markup of a tree is read as its glued text. -/
theorem piece_markup {b : Bool} (t : Tree b) : Piece t.markup (t.flat []) := by
  induction t with
  | literal n => exact piece_literal n
  | name n => exact piece_name n
  | neg t ih => exact Piece.cons (isLiteral_operator (by decide)) (piece_operand t.isAtom ih)
  | add s t ihs iht =>
    exact Piece.join (by decide) (piece_operand s.isAtom ihs) (piece_operand t.isAtom iht)
  | sub s t ihs iht =>
    exact Piece.join (by decide) (piece_operand s.isAtom ihs) (piece_operand t.isAtom iht)
  | mul tight s t ihs iht => exact piece_product tight ihs iht
  | pow s t ihs iht => exact Piece.join (by decide) (piece_operand s.isAtom ihs) (piece_braced iht)
  | frac s t ihs iht =>
    exact (block_fraction ⟨"frac", by decide⟩ .braces .braces ihs iht).piece
  | sqrt t ih => exact (block_root .braces ih).piece
  | root n t ihn iht =>
    exact (block_indexedRoot (g := []) (by decide) .braces (bracket_notMem_markup n rfl) ihn iht).piece
  | call f t ih => exact piece_call f ih

end FieldWalk.Notation
