import FieldWalk.Proofs.Notation.Splice
import FieldWalk.Proofs.Notation.Weight
/-!
# Fractions and indexed roots as operands

A fraction and an indexed root are translated without parentheses around them. This says exactly in
which contexts that does not matter: `interchangeable_unless_torn`.
-/

namespace FieldWalk.Notation

open Formula Markup Text Formula.Token Reader

/-! ## Arguments -/

/-- Markup that denotes an expression where it is all that stands in a group. -/
structure Argument extends Fragment where
  denotes : ∀ {K : Type} (A : Arithmetic K), ∃ v, Denotes A .sum (contentTokens flat) v

theorem contentTokens_flat {b : Bool} (t : Tree b) :
    contentTokens (t.flat []) = t.tokens [star] := by
  have hs : settle (t.tokens []) = t.tokens [star] := by
    rw [settle, insertProducts_tokens, mergeStars_of_apart (solid_tokens t).apart]
  rw [contentTokens, factors_flat, hs, joinTokens_tokens]
  exact tokenize_starred t

section
variable {K : Type} (A : Arithmetic K)

theorem denotes_atom {ts : List Token} {v : K} (h : Denotes A .operand ts v) :
    Denotes A .sum ts v :=
  .product (.factor (.operand h))

theorem denotes_operand {b : Bool} {t : Tree b} (h : ∃ v, Denotes A .sum (t.tokens [star]) v) :
    ∃ v, Denotes A .operand (Tree.operandTokens t.isAtom (t.tokens [star])) v := by
  cases t with
  | literal n => exact ⟨_, .number n.text⟩
  | name n =>
    have hn : n.text ∉ functionNames := by cases n <;> decide
    exact ⟨_, .name hn⟩
  | _ =>
    obtain ⟨v, h⟩ := h
    exact ⟨v, .group h⟩

/-- The tokens of every tree denote an expression. -/
theorem denotes_tokens {b : Bool} (t : Tree b) : ∃ v, Denotes A .sum (t.tokens [star]) v := by
  induction t with
  | literal n => exact ⟨_, denotes_atom A (.number n.text)⟩
  | name n =>
    have hn : n.text ∉ functionNames := by cases n <;> decide
    exact ⟨_, denotes_atom A (.name hn)⟩
  | neg t ih =>
    obtain ⟨v, h⟩ := denotes_operand A ih
    exact ⟨_, .product (.factor (.minus (.operand h)))⟩
  | add s t ihs iht =>
    obtain ⟨u, hu⟩ := denotes_operand A ihs
    obtain ⟨v, hv⟩ := denotes_operand A iht
    exact ⟨_, .add (denotes_atom A hu) (.factor (.operand hv))⟩
  | sub s t ihs iht =>
    obtain ⟨u, hu⟩ := denotes_operand A ihs
    obtain ⟨v, hv⟩ := denotes_operand A iht
    exact ⟨_, .sub (denotes_atom A hu) (.factor (.operand hv))⟩
  | mul tight s t ihs iht =>
    obtain ⟨u, hu⟩ := denotes_operand A ihs
    obtain ⟨v, hv⟩ := denotes_operand A iht
    have := Denotes.mul (.factor (.operand hu)) (.operand hv)
    refine ⟨A.mul u v, .product ?_⟩
    simpa [Tree.tokens] using this
  | pow s t ihs iht =>
    obtain ⟨u, hu⟩ := denotes_operand A ihs
    obtain ⟨v, hv⟩ := iht
    exact ⟨_, .product (.factor (.pow hu (.operand (.group hv))))⟩
  | frac s t ihs iht =>
    obtain ⟨u, hu⟩ := ihs
    obtain ⟨v, hv⟩ := iht
    exact ⟨_, denotes_quotient hu hv⟩
  | sqrt t ih =>
    obtain ⟨v, h⟩ := ih
    exact ⟨_, denotes_atom A (.call (by decide) (.sum (denotes_atom A (.group h))))⟩
  | root n t ihn iht =>
    obtain ⟨u, hu⟩ := ihn
    obtain ⟨v, hv⟩ := iht
    exact ⟨_, denotes_root hu hv⟩
  | call f t ih =>
    obtain ⟨v, h⟩ := ih
    exact ⟨_, denotes_atom A (.call f.isFunction (.sum h))⟩

end

/-- Every tree is an argument. -/
def Tree.argument {b : Bool} (t : Tree b) : Argument where
  markup := t.markup
  flat := t.flat []
  piece := piece_markup t
  denotes A := by
    rw [contentTokens_flat]
    exact denotes_tokens A t

/-! ## Operands -/

/-- A construct that is translated without parentheses around it. The index of a root ends at the first
bracket. -/
inductive Operand where
  | fraction (w : FractionWord) (e e' : Enclosure) (a b : Argument)
  | root (g : List Char) (hg : ∀ c ∈ g, isBlank c = true) (n : Argument) (hn : ']' ∉ n.markup)
      (e : Enclosure) (a : Argument)

namespace Operand

/-- The construct as markup. -/
def markup : Operand → List Char
  | fraction w e e' a b => Tree.command w.word ++ e.around a.markup ++ e'.around b.markup
  | root g _ n _ e a => Tree.command "sqrt" ++ bracketed g n.markup ++ e.around a.markup

/-- Its flat text. -/
def flat : Operand → List Char
  | fraction _ _ _ a b => paren a.flat ++ '/' :: paren b.flat
  | root _ _ n _ _ a => paren a.flat ++ '^' :: paren ('1' :: '/' :: paren n.flat)

/-- Its tokens. -/
def tokens : Operand → List Token
  | fraction _ _ _ a b => quotientTokens (contentTokens a.flat) (contentTokens b.flat)
  | root _ _ n _ _ a => rootTokens (contentTokens n.flat) (contentTokens a.flat)

theorem block (o : Operand) : Block o.markup o.flat := by
  cases o with
  | fraction w e e' a b => exact block_fraction w e e' a.piece b.piece
  | root g hg n hn e a => exact block_indexedRoot hg e hn n.piece a.piece

theorem tokenize_bare (o : Operand) (p q : List Char) :
    tokenize (Formula.normalize (p ++ o.flat ++ q)) = tokensBefore p ++ (o.tokens ++ tokensBehind q) := by
  cases o with
  | fraction w e e' a b => exact tokenize_joined (by decide) p q a.flat b.flat
  | root g hg n hn e a =>
    have := tokenize_joined (c := '^') (by decide) p q a.flat ('1' :: '/' :: paren n.flat)
    rwa [contentTokens_index] at this

theorem tokenize_wrapped (o : Operand) (p q : List Char) :
    tokenize (Formula.normalize (p ++ paren o.flat ++ q)) =
      tokensBefore p ++ (parenTokens o.tokens ++ tokensBehind q) := by
  cases o with
  | fraction w e e' a b => exact tokenize_enclosed (by decide) p q a.flat b.flat
  | root g hg n hn e a =>
    have := tokenize_enclosed (c := '^') (by decide) p q a.flat ('1' :: '/' :: paren n.flat)
    rwa [contentTokens_index] at this

/-- Between the tokens before and behind it the construct falls apart: a function name or a power sign
takes only a part of it. A quotient also falls apart behind a division or power sign. -/
def Torn (ps qs : List Token) : Operand → Prop
  | fraction .. => Calls ps ∨ Raises qs ∨ clings ps = true
  | root .. => Calls ps ∨ Raises qs

theorem read_same {K : Type} {A : Arithmetic K} (hA : A.Lawful) (o : Operand) {ps qs : List Token}
    (h : ¬ o.Torn ps qs) :
    start.read A (ps ++ (o.tokens ++ qs)) = start.read A (ps ++ (parenTokens o.tokens ++ qs)) := by
  cases o with
  | fraction w e e' a b =>
    simp only [Torn, not_or, Bool.not_eq_true] at h
    obtain ⟨u, hu⟩ := a.denotes A
    obtain ⟨v, hv⟩ := b.denotes A
    exact quotient_same hA hu hv h.2.2 h.1 h.2.1
  | root g hg n hn e a =>
    simp only [Torn, not_or] at h
    obtain ⟨u, hu⟩ := n.denotes A
    obtain ⟨v, hv⟩ := a.denotes A
    exact root_same hu hv h.1 h.2

theorem read_apart (o : Operand) {ps qs : List Token} (h : o.Torn ps qs) :
    ∃ c : Charge, ∀ x y, start.read c.arithmetic (ps ++ (o.tokens ++ qs)) = some x →
      start.read c.arithmetic (ps ++ (parenTokens o.tokens ++ qs)) = some y → x ≠ y := by
  cases o with
  | fraction w e e' a b =>
    exact quotient_apart (fun c => a.denotes c.arithmetic) (fun c => b.denotes c.arithmetic) h
  | root g hg n hn e a =>
    exact root_apart (fun c => n.denotes c.arithmetic) (fun c => a.denotes c.arithmetic) h

end Operand

/-! ## What markup denotes -/

/-- The flat text of the markup denotes the value. -/
def Means {K : Type} (A : Arithmetic K) (s : List Char) (v : K) : Prop :=
  Denotes A .sum (tokenize (Session.flatten (String.ofList s)).1.toList) v

/-- The markup denotes something in every arithmetic. -/
def Readable (s : List Char) : Prop :=
  ∀ (K : Type) (A : Arithmetic K), ∃ v, Means A s v

/-- The two markups denote the same in every lawful arithmetic. -/
def Interchangeable (s s' : List Char) : Prop :=
  ∀ (K : Type) (A : Arithmetic K), A.Lawful → ∀ v, Means A s v ↔ Means A s' v

theorem means_iff {K : Type} {A : Arithmetic K} {s t : List Char} (h : Piece s t) (v : K) :
    Means A s v ↔ start.read A (tokenize (Formula.normalize t)) = some v := by
  rw [Means, denotes_iff_read, flatten_piece h, String.toList_ofList]

/-- Parentheses around a fraction or an indexed root do not change what markup denotes unless the
construct falls apart without them, and then they do. -/
theorem interchangeable_unless_torn (c : Context) (o : Operand) (h : c.Admits o.markup) :
    (¬ o.Torn (tokensBefore c.left) (tokensBehind c.right) →
      Interchangeable (c.fill o.markup) (c.fill (Tree.sized o.markup))) ∧
    (o.Torn (tokensBefore c.left) (tokensBehind c.right) →
      Readable (c.fill (Tree.sized o.markup)) →
        ¬ Interchangeable (c.fill o.markup) (c.fill (Tree.sized o.markup))) := by
  have hbare := c.piece o.block h
  have hsized := c.piece (block_sized o.block.piece) (Context.admits_sized h)
  constructor
  · intro ht K A hA v
    rw [means_iff hbare, means_iff hsized, o.tokenize_bare, o.tokenize_wrapped, o.read_same hA ht]
  · intro ht hr hi
    -- weights tell the two readings apart, and the wrapped markup has a weight
    obtain ⟨k, hk⟩ := o.read_apart ht
    obtain ⟨v, hv⟩ := hr _ k.arithmetic
    have hv' := (hi _ k.arithmetic k.lawful v).2 hv
    rw [means_iff hbare, o.tokenize_bare] at hv'
    rw [means_iff hsized, o.tokenize_wrapped] at hv
    exact hk v v hv' hv rfl

/-- The fraction of a name and a digit. -/
def halved : Operand :=
  .fraction ⟨"frac", by decide⟩ .braces .braces (Tree.name (b := false) .x).argument
    (Tree.literal (b := false) (.whole ⟨2, []⟩)).argument

/-- A fraction needs no parentheses behind a sum sign. -/
theorem halved_added :
    Interchangeable "x+\\frac\x7bx\x7d\x7b2\x7d".toList
      "x+\\left(\\frac\x7bx\x7d\x7b2\x7d\\right)".toList := by
  let c : Context := .hole (.plain ['x', '+'] (by decide)) (.plain [] (by decide))
  have hbare : "x+\\frac\x7bx\x7d\x7b2\x7d".toList = c.fill halved.markup := by decide
  have hsized : "x+\\left(\\frac\x7bx\x7d\x7b2\x7d\\right)".toList =
      c.fill (Tree.sized halved.markup) := by decide
  have hx : Lexes ['x'] [ident ['x']] := lexes_letter (by decide) (by decide)
  have ht : tokenize ['x', '+'] = [ident ['x'], symbol '+'] :=
    (hx.join (c := '+') (by decide) lexes_nil).tokenize
  have hp : tokensBefore ['x', '+'] = [ident ['x'], symbol '+'] := by
    have hf : factors ['x', '+'] = [ident ['x'], symbol '+'] := by
      rw [factors_of_uncut, ht]
      rw [ht]
      simp [Uncut, splitIdentifier_letter]
    rw [tokensBefore, hf]
    exact ht
  rw [hbare, hsized]
  refine (interchangeable_unless_torn c halved trivial).1 ?_
  show ¬ halved.Torn (tokensBefore ['x', '+']) (tokensBehind [])
  have hq : tokensBehind [] = [] := by
    rw [tokensBehind, factors_nil]
    exact tokenize_nil
  rw [hp, hq]
  rintro (⟨n, -, hn⟩ | hr | hc)
  · cases hn
  · cases hr
  · cases hc

/-- In a fraction that is raised only the divisor is. -/
theorem halved_raised :
    (Session.flatten "\\frac\x7bx\x7d\x7b2\x7d^\x7b2\x7d").1 = "(x)/(2)^(2)" ∧
    (Session.flatten "\\left(\\frac\x7bx\x7d\x7b2\x7d\\right)^\x7b2\x7d").1 = "((x)/(2))^(2)" ∧
    ¬ Interchangeable "\\frac\x7bx\x7d\x7b2\x7d^\x7b2\x7d".toList
      "\\left(\\frac\x7bx\x7d\x7b2\x7d\\right)^\x7b2\x7d".toList := by
  let two : Tree false := .literal (.whole ⟨2, []⟩)
  let t : Tree false := .pow (.frac (.name .x) two) two
  let us : List Token := quotientTokens [ident ['x']] [number ['2']] ++
    symbol '^' :: parenTokens [number ['2']]
  have hpow : Piece (braced two.markup) (paren (two.flat [])) := piece_braced (piece_markup two)
  have hbare := Piece.join (c := '^') (by decide) halved.block.piece hpow
  have hx : Lexes ['x'] [ident ['x']] := lexes_letter (by decide) (by decide)
  have h2 : Lexes ['2'] [number ['2']] := lexes_number (by decide)
  have hus : tokenize "(x)/(2)^(2)".toList = us :=
    ((hx.paren.join (c := '/') (by decide) h2.paren).join (c := '^') (by decide) h2.paren).tokenize
  have hn : Formula.normalize "(x)/(2)^(2)".toList = "(x)/(2)^(2)".toList := by
    have hf : factors "(x)/(2)^(2)".toList = us := by
      rw [factors_of_uncut, hus]
      rw [hus]
      simp [us, quotientTokens, parenTokens, Uncut, splitIdentifier_letter]
    have he : explicitProducts us = us := by
      rw [explicitProducts_eq]
      decide
    rw [Formula.normalize, hf, he]
    decide
  have hb : "\\frac\x7bx\x7d\x7b2\x7d^\x7b2\x7d".toList =
      halved.markup ++ '^' :: braced two.markup := by decide
  have hw : "\\left(\\frac\x7bx\x7d\x7b2\x7d\\right)^\x7b2\x7d".toList = t.markup := by decide
  have hfb : Formula.normalize (halved.flat ++ '^' :: paren (two.flat [])) = "(x)/(2)^(2)".toList := hn
  have hfw : t.flat ['*'] = "((x)/(2))^(2)".toList := by decide
  refine ⟨?_, ?_, ?_⟩
  · rw [← String.ofList_toList (s := "\\frac\x7bx\x7d\x7b2\x7d^\x7b2\x7d"), hb, flatten_piece hbare, hfb,
      String.ofList_toList]
  · rw [← String.ofList_toList (s := "\\left(\\frac\x7bx\x7d\x7b2\x7d\\right)^\x7b2\x7d"), hw,
      flatten_piece (piece_markup t), normalize_flat, hfw, String.ofList_toList]
  · intro hi
    have hv := (hi _ _ Charge.ofBase.lawful ⟨2, 0⟩).1
    rw [hb, hw, means_iff hbare, means_iff (piece_markup t), hfb, hus, normalize_flat,
      tokenize_starred] at hv
    have := hv rfl
    cases this

end FieldWalk.Notation
