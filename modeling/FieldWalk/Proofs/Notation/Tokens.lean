import FieldWalk.Proofs.Formula.Products
import FieldWalk.Proofs.Notation.Reading
/-!
# The tokens of a tree

The glued text of a tree falls into the tree's own tokens: every boundary is found again, also where a
number or a group touches the next factor.
-/

namespace FieldWalk.Notation

open Formula Markup Text

namespace Tree

/-! ## Tokens -/

/-- The tokens of an operand, an atom or not. -/
def operandTokens (atom : Bool) (ts : List Token) : List Token :=
  if atom then ts else parenTokens ts

/-- The tokens of the flat text, with given ones for the sign that a tight product omits. -/
def tokens (joint : List Token) {b : Bool} : Tree b → List Token
  | literal n => [.number n.text]
  | name n => [.ident n.text]
  | neg t => .symbol '-' :: operandTokens t.isAtom (t.tokens joint)
  | add s t => operandTokens s.isAtom (s.tokens joint) ++
      .symbol '+' :: operandTokens t.isAtom (t.tokens joint)
  | sub s t => operandTokens s.isAtom (s.tokens joint) ++
      .symbol '-' :: operandTokens t.isAtom (t.tokens joint)
  | mul tight s t => operandTokens s.isAtom (s.tokens joint) ++
      (if glued tight s t then joint else [.star]) ++ operandTokens t.isAtom (t.tokens joint)
  | pow s t => operandTokens s.isAtom (s.tokens joint) ++ .symbol '^' :: parenTokens (t.tokens joint)
  | frac s t => parenTokens (s.tokens joint) ++ .symbol '/' :: parenTokens (t.tokens joint)
  | sqrt t => .ident "sqrt".toList :: parenTokens (parenTokens (t.tokens joint))
  | root n t => parenTokens (t.tokens joint) ++
      .symbol '^' :: parenTokens (.number ['1'] :: .symbol '/' :: parenTokens (n.tokens joint))
  | call f t => .ident f.name.toList :: parenTokens (t.tokens joint)

end Tree

open FieldWalk.Notation.Tree

/-! ## Their text -/

theorem joinTokens_paren (ts : List Token) : joinTokens (parenTokens ts) = paren (joinTokens ts) := by
  simp [joinTokens, parenTokens, paren, Token.text]

theorem joinTokens_operand (atom : Bool) (ts : List Token) :
    joinTokens (operandTokens atom ts) = flatOperand atom (joinTokens ts) := by
  cases atom with
  | true => rfl
  | false => exact joinTokens_paren ts

/-- The tokens of a tree have its flat text. -/
theorem joinTokens_tokens (joint : List Token) {b : Bool} (t : Tree b) :
    joinTokens (t.tokens joint) = t.flat (joinTokens joint) := by
  induction t with
  | literal n => exact List.append_nil _
  | name n => exact List.append_nil _
  | neg t ih => simp [tokens, flat, joinTokens_cons, joinTokens_operand, ih, Token.text]
  | add s t ihs iht | sub s t ihs iht =>
    simp [tokens, flat, joinTokens_cons, joinTokens_append, joinTokens_operand, ihs, iht, Token.text]
  | mul tight s t ihs iht =>
    have hstar : joinTokens [.star] = ['*'] := rfl
    rw [tokens, flat, joinTokens_append, joinTokens_append, joinTokens_operand, joinTokens_operand,
      ihs, iht, apply_ite joinTokens, hstar]
  | pow s t ihs iht =>
    simp [tokens, flat, joinTokens_cons, joinTokens_append, joinTokens_operand, joinTokens_paren,
      ihs, iht, Token.text]
  | frac s t ihs iht =>
    simp [tokens, flat, joinTokens_cons, joinTokens_append, joinTokens_paren, ihs, iht, Token.text]
  | sqrt t ih => simp [tokens, flat, joinTokens_cons, joinTokens_paren, ih, Token.text]
  | root n t ihn iht =>
    simp [tokens, flat, joinTokens_cons, joinTokens_append, joinTokens_paren, ihn, iht, Token.text]
  | call f t ih => simp [tokens, flat, joinTokens_cons, joinTokens_paren, ih, Token.text]

/-! ## Lexing -/

/-- The text falls into these tokens wherever a mark follows. -/
def Lexes (s : List Char) (ts : List Token) : Prop :=
  ∀ rest, MarkFirst rest → tokenize (s ++ rest) = ts ++ tokenize rest

theorem lexes_nil : Lexes [] [] :=
  fun _ _ => rfl

theorem Lexes.join {c : Char} (hc : c ∈ marks) {s s' : List Char} {ts ts' : List Token}
    (h : Lexes s ts) (h' : Lexes s' ts') : Lexes (s ++ c :: s') (ts ++ .symbol c :: ts') := by
  intro rest hr
  rw [List.append_assoc, List.cons_append, h _ (markFirst_cons (isMark_of_mem hc) _),
    tokenize_mark (isMark_of_mem hc), h' rest hr, List.append_assoc, List.cons_append]

theorem Lexes.cons {c : Char} (hc : c ∈ marks) {s : List Char} {ts : List Token} (h : Lexes s ts) :
    Lexes (c :: s) (.symbol c :: ts) :=
  lexes_nil.join hc h

/-- A group ends whatever follows it. -/
theorem tokenize_paren {s : List Char} {ts : List Token} (h : Lexes s ts) (rest : List Char) :
    tokenize (paren s ++ rest) = parenTokens ts ++ tokenize rest := by
  have ho : IsMark '(' := isMark_of_mem (by decide)
  have hc : IsMark ')' := isMark_of_mem (by decide)
  rw [paren, parenTokens, List.append_assoc, List.cons_append, tokenize_mark ho]
  rw [List.singleton_append, h _ (markFirst_cons hc rest), tokenize_mark hc]
  simp

theorem Lexes.paren {s : List Char} {ts : List Token} (h : Lexes s ts) :
    Lexes (paren s) (parenTokens ts) :=
  fun rest _ => tokenize_paren h rest

theorem Lexes.operand (atom : Bool) {s : List Char} {ts : List Token} (h : Lexes s ts) :
    Lexes (flatOperand atom s) (operandTokens atom ts) := by
  cases atom with
  | true => exact h
  | false => exact h.paren

theorem Digits.text_digits (n : Digits) : ∀ c ∈ n.text, isDigit c = true := by
  have h : ∀ d : Fin 10, isDigit (Nat.digitChar d) = true := by decide
  intro c hc
  obtain ⟨d, -, rfl⟩ := List.mem_map.1 hc
  exact h d

theorem number?_literal (n : Literal) {rest : List Char} (hr : NumberEnds rest) :
    number? (n.text ++ rest) = some (n.text, rest) := by
  cases n with
  | whole n => exact number?_digits ⟨List.cons_ne_nil _ _, n.text_digits⟩ hr
  | decimal n f =>
    exact number?_pointed ⟨n.text, f.text, rfl, List.cons_ne_nil _ _,
      List.forall_mem_append.2 ⟨n.text_digits, f.text_digits⟩⟩ hr.noDigit

theorem tokenize_literal (n : Literal) {rest : List Char} (hr : NumberEnds rest) :
    tokenize (n.text ++ rest) = .number n.text :: tokenize rest := by
  have hall : ∀ c ∈ numerals, isBlank c = false ∧ isNameStart c = false := by decide
  have h := number?_literal n hr
  obtain ⟨c, s, hs⟩ : ∃ c s, n.text = c :: s := by
    cases n <;> exact ⟨_, _, rfl⟩
  have hc := hall c (n.text_numerals c (by simp [hs]))
  rw [hs] at h ⊢
  exact tokenize_number hc.1 hc.2 h

theorem lexes_literal (n : Literal) : Lexes n.text [.number n.text] :=
  fun _ hr => tokenize_literal n hr.numberEnds

theorem lexes_known {c : Char} {w : List Char} (h : c :: w ∈ knownNames) :
    Lexes (c :: w) [.ident (c :: w)] := by
  have hall : ∀ w ∈ knownNames, ∀ c ∈ w, isBlank c = false ∧ isNameStart c = true ∧
      isWordChar c = true := by
    decide
  have hc := hall _ h c (by simp)
  intro rest hr
  exact tokenize_word hc.1 hc.2.1 (fun d hd => (hall _ h d (by simp [hd])).2.2) hr.noWord

theorem lexes_function {w : List Char} (h : w ∈ functionNames) : Lexes w [.ident w] := by
  have hk : w ∈ knownNames := List.mem_append_left _ h
  cases w with
  | nil => exact absurd h (by decide)
  | cons c w => exact lexes_known hk

theorem lexes_letter {c : Char} (hb : isBlank c = false) (hc : c.isAlpha = true) :
    Lexes [c] [.ident [c]] :=
  fun _ hr => tokenize_word hb (by simp [isNameStart, hc]) (by simp) hr.noWord

theorem lexes_name (n : Name) : Lexes n.text [.ident n.text] := by
  cases n with
  | x => exact lexes_letter (by decide) (by decide)
  | y => exact lexes_letter (by decide) (by decide)
  | e => exact lexes_letter (by decide) (by decide)
  | pi => exact lexes_known (by decide)

/-! ## Products without sign -/

theorem numberEnds_cons {c : Char} (h : isDigit c = false ∧ c ≠ '.') (s : List Char) :
    NumberEnds (c :: s) := by
  intro d hd
  cases hd
  exact h

/-- An operand that is no number ends a number before it. -/
theorem numberEnds_operand {b : Bool} {t : Tree b} (h : t.isLiteral = false) (rest : List Char) :
    NumberEnds (flatOperand t.isAtom (t.flat []) ++ rest) := by
  cases t with
  | literal n => cases h
  | name n => cases n <;> exact numberEnds_cons (by decide) _
  | _ => exact numberEnds_cons (by decide) _

theorem lexes_product {b : Bool} {tight : Bool} {s t : Tree b} (hg : glued tight s t = true)
    (hs : Lexes (s.flat []) (s.tokens [])) (ht : Lexes (t.flat []) (t.tokens [])) :
    Lexes (flatOperand s.isAtom (s.flat []) ++ flatOperand t.isAtom (t.flat []))
      (operandTokens s.isAtom (s.tokens []) ++ operandTokens t.isAtom (t.tokens [])) := by
  simp only [glued, Bool.and_eq_true, Bool.not_eq_true'] at hg
  obtain ⟨⟨-, hl⟩, hr⟩ := hg
  intro rest hrest
  have ht' := ht.operand t.isAtom rest hrest
  -- the next factor is no number, so a number before it ends where it should
  have hends := numberEnds_operand hr rest
  rw [List.append_assoc, List.append_assoc, ← ht']
  cases s with
  | literal n => exact tokenize_literal n hends
  | name n => cases hl
  | _ => exact tokenize_paren hs _

theorem lexes_number {c : Char} (h : c ∈ numerals.dropLast) : Lexes [c] [.number [c]] := by
  have hall : ∀ c ∈ numerals.dropLast, isDigit c = true ∧ isBlank c = false ∧
      isNameStart c = false := by
    decide
  obtain ⟨hd, hb, hn⟩ := hall c h
  intro rest hr
  have hdig : ∀ d ∈ [c], isDigit d = true := by
    intro d hd'
    rw [List.mem_singleton.1 hd']
    exact hd
  exact tokenize_number hb hn (number?_digits ⟨List.cons_ne_nil c [], hdig⟩ hr.numberEnds)

theorem Lexes.word {w s : List Char} {t : Token} {ts : List Token} (h : Lexes w [t])
    (h' : Lexes s ts) (hs : ∀ rest, MarkFirst (s ++ rest)) : Lexes (w ++ s) (t :: ts) := by
  intro rest hr
  rw [List.append_assoc, h _ (hs rest), h' rest hr]
  rfl

theorem markFirst_paren (s rest : List Char) : MarkFirst (paren s ++ rest) :=
  markFirst_cons (isMark_of_mem (by decide)) _

/-- The flat text of a tree falls into its tokens if its tight products do. -/
theorem lexes_of_product {joint : List Char} {signs : List Token}
    (hmul : ∀ {b : Bool} {s t : Tree b}, glued true s t = true →
      Lexes (s.flat joint) (s.tokens signs) → Lexes (t.flat joint) (t.tokens signs) →
      Lexes (flatOperand s.isAtom (s.flat joint) ++ joint ++ flatOperand t.isAtom (t.flat joint))
        (operandTokens s.isAtom (s.tokens signs) ++ signs ++
          operandTokens t.isAtom (t.tokens signs)))
    {b : Bool} (t : Tree b) : Lexes (t.flat joint) (t.tokens signs) := by
  induction t with
  | literal n => exact lexes_literal n
  | name n => exact lexes_name n
  | neg t ih => exact (ih.operand t.isAtom).cons (by decide)
  | add s t ihs iht => exact (ihs.operand s.isAtom).join (by decide) (iht.operand t.isAtom)
  | sub s t ihs iht => exact (ihs.operand s.isAtom).join (by decide) (iht.operand t.isAtom)
  | mul tight s t ihs iht =>
    rw [flat, tokens]
    by_cases hg : glued tight s t = true
    · have htight : tight = true := by
        simp only [glued, Bool.and_eq_true] at hg
        exact hg.1.1
      rw [if_pos hg, if_pos hg]
      exact hmul (htight ▸ hg) ihs iht
    · rw [if_neg hg, if_neg hg, List.append_assoc, List.append_assoc]
      exact (ihs.operand s.isAtom).join (by decide) (iht.operand t.isAtom)
  | pow s t ihs iht => exact (ihs.operand s.isAtom).join (by decide) iht.paren
  | frac s t ihs iht => exact ihs.paren.join (by decide) iht.paren
  | sqrt t ih => exact (lexes_function (by decide)).word ih.paren.paren (markFirst_paren _)
  | root n t ihn iht =>
    have hindex : Lexes ('1' :: '/' :: paren (n.flat joint)) _ :=
      (lexes_number (by decide)).join (c := '/') (by decide) ihn.paren
    exact iht.paren.join (by decide) hindex.paren
  | call f t ih => exact (lexes_function f.isFunction).word ih.paren (markFirst_paren _)

theorem Lexes.tokenize {s : List Char} {ts : List Token} (h : Lexes s ts) :
    Formula.tokenize s = ts := by
  have := h [] markFirst_nil
  rwa [List.append_nil, tokenize_nil, List.append_nil] at this

/-- The glued text of a tree falls into the tokens of the tree. -/
theorem tokenize_flat {b : Bool} (t : Tree b) : tokenize (t.flat []) = t.tokens [] := by
  refine (lexes_of_product (fun hg hs ht => ?_) t).tokenize
  rw [List.append_nil, List.append_nil]
  exact lexes_product hg hs ht

/-- The full flat text of a tree falls into the tokens of the tree and the stars. -/
theorem tokenize_starred {b : Bool} (t : Tree b) : tokenize (t.flat ['*']) = t.tokens [.star] := by
  refine (lexes_of_product (fun hg hs ht => ?_) t).tokenize
  rw [List.append_assoc, List.append_assoc]
  exact (hs.operand _).join (by decide) (ht.operand _)

/-! ## Names of trees -/

theorem uncut_paren {ts : List Token} (h : ∀ t ∈ ts, Uncut t) : ∀ t ∈ parenTokens ts, Uncut t := by
  simpa [parenTokens, or_imp, forall_and, Uncut] using h

theorem uncut_operand (atom : Bool) {ts : List Token} (h : ∀ t ∈ ts, Uncut t) :
    ∀ t ∈ operandTokens atom ts, Uncut t := by
  cases atom with
  | true => exact h
  | false => exact uncut_paren h

theorem uncut_join (c : Char) {ts us : List Token} (h : ∀ t ∈ ts, Uncut t) (h' : ∀ t ∈ us, Uncut t) :
    ∀ t ∈ ts ++ .symbol c :: us, Uncut t := by
  simpa [or_imp, forall_and, Uncut] using ⟨h, h'⟩

theorem uncut_call {w : List Char} (hw : w ∈ functionNames) {ts : List Token}
    (h : ∀ t ∈ ts, Uncut t) : ∀ t ∈ .ident w :: parenTokens ts, Uncut t := by
  have hf : Uncut (.ident w) := splitIdentifier_known (List.mem_append_left _ hw)
  simpa [hf] using uncut_paren h

/-- No name in a tree is cut. -/
theorem uncut_tokens {b : Bool} (t : Tree b) : ∀ u ∈ t.tokens [], Uncut u := by
  have hn : ∀ digits, ∀ u ∈ [Token.number digits], Uncut u := by
    intro digits u hu
    rw [List.mem_singleton.1 hu]
    trivial
  induction t with
  | literal n => exact hn n.text
  | name n =>
    intro u hu
    rw [List.mem_singleton.1 hu]
    cases n with
    | x => exact splitIdentifier_letter (by decide)
    | y => exact splitIdentifier_letter (by decide)
    | e => exact splitIdentifier_letter (by decide)
    | pi => exact splitIdentifier_known (by decide)
  | neg t ih =>
    have hnil : ∀ u ∈ ([] : List Token), Uncut u := nofun
    exact uncut_join '-' hnil (uncut_operand t.isAtom ih)
  | add s t ihs iht => exact uncut_join '+' (uncut_operand s.isAtom ihs) (uncut_operand t.isAtom iht)
  | sub s t ihs iht => exact uncut_join '-' (uncut_operand s.isAtom ihs) (uncut_operand t.isAtom iht)
  | mul tight s t ihs iht =>
    have hs := uncut_operand s.isAtom ihs
    have ht := uncut_operand t.isAtom iht
    rw [tokens]
    split
    · rw [List.append_nil]
      intro u hu
      exact (List.mem_append.1 hu).elim (hs u) (ht u)
    · rw [List.append_assoc]
      exact uncut_join '*' hs ht
  | pow s t ihs iht => exact uncut_join '^' (uncut_operand s.isAtom ihs) (uncut_paren iht)
  | frac s t ihs iht => exact uncut_join '/' (uncut_paren ihs) (uncut_paren iht)
  | sqrt t ih => exact uncut_call (by decide) (uncut_paren ih)
  | root n t ihn iht =>
    exact uncut_join '^' (uncut_paren iht) (uncut_paren (uncut_join '/' (hn ['1']) (uncut_paren ihn)))
  | call f t ih => exact uncut_call f.isFunction ih

theorem factors_flat {b : Bool} (t : Tree b) : factors (t.flat []) = t.tokens [] := by
  have h := tokenize_flat t
  rw [factors_of_uncut (h ▸ uncut_tokens t), h]

end FieldWalk.Notation
