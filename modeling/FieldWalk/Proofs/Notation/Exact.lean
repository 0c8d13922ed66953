import FieldWalk.Proofs.Notation.Tokens
import FieldWalk.Session.Engine
/-!
# The flat text of a tree's markup

The stars that are put into the glued tokens of a tree stand exactly where its products omit their
sign, and none of them is next to another one. So the markup of a tree becomes its flat text.
-/

namespace FieldWalk.Notation

open Formula Markup Formula.Token

open FieldWalk.Notation.Tree

/-! ## Stars between operands -/

theorem insertProducts_operand (atom : Bool) (ts : List Token) :
    insertProducts (operandTokens atom ts) = operandTokens atom (insertProducts ts) := by
  cases atom with
  | true => rfl
  | false => exact insertProducts_paren ts

/-- A function name is not multiplied with its argument. -/
theorem insertProducts_call {name : List Char} (h : name ∈ functionNames) (ts : List Token) :
    insertProducts (ident name :: parenTokens ts) = ident name :: parenTokens (insertProducts ts) := by
  have hl : linkHead (ident name) (parenTokens ts) = [] := by
    simp [linkHead, parenTokens, link, impliesProduct, isCall, h]
  rw [insertProducts_cons, hl, insertProducts_paren]
  rfl

theorem insertProducts_mark {c : Char} (hc : c ∈ ['+', '-', '*', '/', '^']) (ts us : List Token) :
    insertProducts (ts ++ symbol c :: us) = insertProducts ts ++ symbol c :: insertProducts us := by
  have hall : ∀ c ∈ ['+', '-', '*', '/', '^'], (symbol c).startsOperand = false ∧
      (symbol c).endsOperand = false := by
    decide
  exact insertProducts_operator (hall c hc).1 (hall c hc).2 ts us

/-- Behind a number or a group an operand is multiplied. -/
theorem linkHead_operand {a : Token} (ha : a.endsOperand = true) (hc : ∀ b, isCall a b = false)
    {b : Bool} (t : Tree b) : linkHead a (operandTokens t.isAtom (t.tokens [])) = [star] := by
  have hl : ∀ b : Token, b.startsOperand = true → link a b = [star] := by
    intro b hb
    simp [link, impliesProduct, ha, hb, hc b]
  cases t with
  | literal n => exact hl _ rfl
  | name n => exact hl _ rfl
  | _ => exact hl (symbol '(') rfl

theorem insertProducts_glued {b : Bool} {tight : Bool} {s t : Tree b} (hg : glued tight s t = true) :
    insertProducts (operandTokens s.isAtom (s.tokens []) ++ operandTokens t.isAtom (t.tokens [])) =
      operandTokens s.isAtom (insertProducts (s.tokens [])) ++
        star :: operandTokens t.isAtom (insertProducts (t.tokens [])) := by
  -- a name is never glued to what follows: with a parenthesis behind it, it could be a call
  have hl : (s.isLiteral || !s.isAtom) = true := by
    simp only [glued, Bool.and_eq_true] at hg
    exact hg.1.2
  rw [← insertProducts_operand t.isAtom]
  cases s with
  | literal n =>
    show insertProducts (number n.text :: operandTokens t.isAtom (t.tokens [])) = _
    rw [insertProducts_cons, linkHead_operand (a := number n.text) rfl (fun _ => rfl)]
    rfl
  | name n => cases hl
  | _ =>
    show insertProducts (parenTokens _ ++ operandTokens t.isAtom (t.tokens [])) = _
    rw [insertProducts_group, linkHead_operand (a := symbol ')') rfl (fun _ => rfl)]
    rfl

/-- The stars are put where a product omits its sign, and nowhere else. -/
theorem insertProducts_tokens {b : Bool} (t : Tree b) :
    insertProducts (t.tokens []) = t.tokens [star] := by
  induction t with
  | literal n => rfl
  | name n => rfl
  | neg t ih =>
    have := insertProducts_mark (c := '-') (by decide) [] (operandTokens t.isAtom (t.tokens []))
    rw [insertProducts_operand, ih] at this
    exact this
  | add s t ihs iht | sub s t ihs iht =>
    rw [tokens, insertProducts_mark (by decide), insertProducts_operand, insertProducts_operand,
      ihs, iht, tokens]
  | mul tight s t ihs iht =>
    by_cases hg : glued tight s t = true
    · rw [tokens, if_pos hg, List.append_nil, insertProducts_glued hg, ihs, iht, tokens, if_pos hg,
        List.append_assoc, List.singleton_append]
    · rw [tokens, if_neg hg, List.append_assoc, List.singleton_append, insertProducts_mark (by decide),
        insertProducts_operand, insertProducts_operand, ihs, iht, tokens, if_neg hg,
        List.append_assoc, List.singleton_append]
  | pow s t ihs iht =>
    rw [tokens, insertProducts_mark (by decide), insertProducts_operand, insertProducts_paren, ihs, iht,
      tokens]
  | frac s t ihs iht =>
    rw [tokens, insertProducts_mark (by decide), insertProducts_paren, insertProducts_paren, ihs, iht,
      tokens]
  | sqrt t ih =>
    rw [tokens, insertProducts_call (by decide), insertProducts_paren, ih, tokens]
  | root n t ihn iht =>
    have hindex := insertProducts_mark (c := '/') (by decide) [number ['1']] (parenTokens (n.tokens []))
    rw [insertProducts_paren, ihn] at hindex
    rw [tokens, insertProducts_mark (by decide), insertProducts_paren, insertProducts_paren, iht]
    exact congrArg (fun ts => _ ++ symbol '^' :: parenTokens ts) hindex
  | call f t ih => rw [tokens, insertProducts_call f.isFunction, ih, tokens]

/-! ## No star to drop -/

theorem solid_paren {ts : List Token} (h : Solid ts) : Solid (parenTokens ts) := by
  have ho : Solid [symbol '('] := solid_singleton (by decide)
  have hc : Solid [symbol ')'] := solid_singleton (by decide)
  exact (ho.append h).append hc

theorem solid_operand (atom : Bool) {ts : List Token} (h : Solid ts) :
    Solid (operandTokens atom ts) := by
  cases atom with
  | true => exact h
  | false => exact solid_paren h

theorem Solid.mark {c : Char} (hc : c ≠ '*') {ts us : List Token} (ht : Solid ts) (hu : Solid us) :
    Solid (ts ++ symbol c :: us) := by
  have hs : Solid [symbol c] := solid_singleton (by simpa using hc)
  exact ht.append (hs.append hu)

theorem solid_tokens {b : Bool} (t : Tree b) : Solid (t.tokens [star]) := by
  have hi : ∀ name : List Char, Solid [ident name] := fun name => solid_singleton (by simp)
  have hn : ∀ digits : List Char, Solid [number digits] := fun digits => solid_singleton (by simp)
  induction t with
  | literal n => exact hn n.text
  | name n => exact hi n.text
  | neg t ih =>
    have hm : Solid [symbol '-'] := solid_singleton (by decide)
    exact hm.append (solid_operand t.isAtom ih)
  | add s t ihs iht =>
    exact Solid.mark (by decide) (solid_operand s.isAtom ihs) (solid_operand t.isAtom iht)
  | sub s t ihs iht =>
    exact Solid.mark (by decide) (solid_operand s.isAtom ihs) (solid_operand t.isAtom iht)
  | mul tight s t ihs iht =>
    have := (solid_operand s.isAtom ihs).product (solid_operand t.isAtom iht)
    simpa [tokens] using this
  | pow s t ihs iht => exact Solid.mark (by decide) (solid_operand s.isAtom ihs) (solid_paren iht)
  | frac s t ihs iht => exact Solid.mark (by decide) (solid_paren ihs) (solid_paren iht)
  | sqrt t ih => exact (hi "sqrt".toList).append (solid_paren (solid_paren ih))
  | root n t ihn iht =>
    have hindex := Solid.mark (c := '/') (by decide) (hn ['1']) (solid_paren ihn)
    exact Solid.mark (by decide) (solid_paren iht) (solid_paren hindex)
  | call f t ih => exact (hi f.name.toList).append (solid_paren ih)

/-! ## The whole way -/

theorem normalize_flat {b : Bool} (t : Tree b) : Formula.normalize (t.flat []) = t.flat ['*'] := by
  rw [Formula.normalize, factors_flat, explicitProducts_eq, insertProducts_tokens, (solid_tokens t).tidy.collapse,
    joinTokens_tokens]
  rfl

theorem flatten_piece {s t : List Char} (h : Piece s t) :
    (Session.flatten (String.ofList s)).1 = String.ofList (Formula.normalize t) := by
  simp only [Session.flatten, Markup.translate]
  rw [← h.reads.flatten]
  simp

/-- The markup of every tree becomes its flat text: nothing is lost, and a star is put exactly where a
product omits its sign. -/
theorem flatten_markup {b : Bool} (t : Tree b) :
    (Session.flatten (String.ofList t.markup)).1 = String.ofList (t.flat ['*']) := by
  rw [flatten_piece (piece_markup t), normalize_flat]

/-- A number times a fraction in parentheses. -/
example :
    let t : Tree false := .mul true (.literal (.whole ⟨2, []⟩))
      (.frac (.name .x) (.literal (.whole ⟨3, []⟩)))
    t.markup = "2\\left(\\frac\x7bx\x7d\x7b3\x7d\\right)".toList ∧
      t.flat ['*'] = "2*((x)/(3))".toList := by
  decide

end FieldWalk.Notation
