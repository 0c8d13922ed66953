import FieldWalk.Proofs.Formula.Placement
/-!
# What a normalized text calls

Whoever evaluates a text takes a parenthesis right behind an operand for a call. Where an operand ends
that the passes know of, a name, a number or a closing parenthesis, only the functions are left without
a star, so only they are called. The passes do not see an operand that another character ends, such as a
closing bracket or a quote, nor one that comes about when the tokens are joined to a text: a point that
joins the number before it, a foreign letter that joins the name before it.
-/

namespace FieldWalk.Formula

open Text Token

/-! ## Texts around a mark -/

theorem symbol_notMem_tokenize {c : Char} {s : List Char} (h : c ∉ s) : symbol c ∉ tokenize s := by
  intro hmem
  have hjoin : c ∈ joinTokens (tokenize s) := List.mem_flatMap.2 ⟨_, hmem, List.mem_singleton_self c⟩
  rw [joinTokens_tokenize] at hjoin
  exact h (List.mem_of_mem_filter hjoin)

/-- A mark among the tokens of a text stands in the text, with the other tokens around it. -/
theorem tokenize_eq_append {c : Char} (hc : IsMark c) {s : List Char} {ps qs : List Token}
    (h : tokenize s = ps ++ symbol c :: qs) :
    ∃ u v, s = u ++ c :: v ∧ tokenize u = ps ∧ tokenize v = qs := by
  have hmem : c ∈ s := by
    by_contra hs
    exact symbol_notMem_tokenize hs (h ▸ by simp)
  -- the text falls apart at its first mark; the wanted one is this or stands behind it
  obtain ⟨u, v, rfl, hu⟩ := List.eq_append_cons_of_mem hmem
  have hsplit := h
  rw [tokenize_append_mark hc, List.append_eq_append_iff] at hsplit
  rcases hsplit with ⟨as, rfl, has⟩ | ⟨bs, hbs, hqs⟩
  · cases as with
    | nil =>
      cases has
      exact ⟨u, v, rfl, (List.append_nil _).symm, rfl⟩
    | cons b as =>
      obtain ⟨rfl, hv⟩ := List.cons.inj has
      obtain ⟨u', v', rfl, rfl, rfl⟩ := tokenize_eq_append hc hv
      exact ⟨u ++ c :: u', v', by simp, tokenize_append_mark hc u u', rfl⟩
  · cases bs with
    | nil =>
      cases hqs
      exact ⟨u, v, rfl, by simpa using hbs, rfl⟩
    | cons b bs =>
      obtain ⟨rfl, -⟩ := List.cons.inj hqs
      exact absurd (hbs ▸ by simp) (symbol_notMem_tokenize hu)
termination_by s.length
decreasing_by subst_vars; simp; omega

/-- A mark in the text of tokens is one of them. -/
theorem joinTokens_eq_append {c : Char} (hc : IsMark c) {ts : List Token} (hl : ∀ t ∈ ts, t.Lexeme)
    {u v : List Char} (h : joinTokens ts = u ++ c :: v) :
    ∃ ps qs, ts = ps ++ symbol c :: qs ∧ joinTokens ps = u ∧ joinTokens qs = v := by
  induction ts generalizing u with
  | nil => exact absurd h (by simp [joinTokens])
  | cons t ts ih =>
    obtain ⟨ht, hts⟩ := List.forall_mem_cons.1 hl
    rw [joinTokens_cons, List.append_eq_append_iff] at h
    rcases h with ⟨w, rfl, hw⟩ | ⟨w, hw, hv⟩
    · obtain ⟨ps, qs, rfl, hps, hqs⟩ := ih hts hw
      exact ⟨t :: ps, qs, rfl, by rw [joinTokens_cons, hps], hqs⟩
    · cases w with
      | nil =>
        rw [List.append_nil] at hw
        obtain ⟨ps, qs, rfl, hps, hqs⟩ := ih (u := []) hts hv.symm
        exact ⟨t :: ps, qs, rfl, by rw [joinTokens_cons, hps, hw, List.append_nil], hqs⟩
      | cons d w =>
        obtain ⟨rfl, hrest⟩ := List.cons.inj hv
        obtain rfl := ht.eq_symbol hc (hw ▸ by simp)
        -- the text of the mark is the mark alone
        obtain ⟨rfl, rfl⟩ : u = [] ∧ w = [] := by
          have := congrArg List.length hw
          simp only [text, List.length_append, List.length_cons, List.length_nil] at this
          exact ⟨List.eq_nil_of_length_eq_zero (by omega), List.eq_nil_of_length_eq_zero (by omega)⟩
        exact ⟨[], ts, rfl, rfl, hrest.symm⟩

/-! ## Texts that end in a name -/

theorem number?_name {c : Char} (hc : isNameStart c = true) (s w : List Char) :
    number? (s ++ c :: w) = (number? s).map fun r => (r.1, r.2 ++ c :: w) := by
  refine number?_stop ?_ ?_ s w
  · rw [Bool.eq_false_iff]
    intro hd
    rw [isNameStart_of_isDigit hd] at hc
    cases hc
  · rintro rfl
    cases hc

/-- A name is read as the end of a name. -/
theorem tokenize_append_name {n : List Char} (hn : (ident n).Lexeme) (s : List Char) :
    ∃ ts w, tokenize (s ++ n) = ts ++ [ident (w ++ n)] := by
  have hword := hn.word
  obtain ⟨c, w, rfl, hc, hw⟩ := hn
  fun_induction tokenize s with
  | case1 =>
    have hb := isBlank_of_isWordChar (isWordChar_of_isNameStart hc)
    have h := tokenize_word hb hc hw markFirst_nil.noWord
    rw [List.append_nil, tokenize_nil] at h
    exact ⟨[], [], h⟩
  | case2 d s hb ih =>
    obtain ⟨ts, v, h⟩ := ih
    exact ⟨ts, v, by rw [List.cons_append, tokenize, if_pos hb, h]⟩
  | case3 d s hb hd ih =>
    have hb' : isBlank d = false := by simpa using hb
    by_cases hs : s.dropWhile isWordChar = []
    · -- the name goes on with the word before it
      have hall : ∀ e ∈ s ++ c :: w, isWordChar e = true :=
        List.forall_mem_append.2 ⟨List.dropWhile_eq_nil_iff.1 hs, hword⟩
      have h := tokenize_word hb' hd hall markFirst_nil.noWord
      rw [List.append_nil, tokenize_nil] at h
      exact ⟨[], d :: s, h⟩
    · have hrest : NoWord (s.dropWhile isWordChar ++ c :: w) := by
        intro e he
        rw [List.head?_append_of_ne_nil _ hs] at he
        exact noWord_dropWhile s e he
      have hall : ∀ e ∈ s.takeWhile isWordChar, isWordChar e = true := fun _ => List.mem_takeWhile_imp
      have h := tokenize_word hb' hd hall hrest
      rw [List.cons_append, ← List.append_assoc, List.takeWhile_append_dropWhile] at h
      obtain ⟨ts, v, hts⟩ := ih
      exact ⟨_ :: ts, v, by rw [List.cons_append, h, hts, List.cons_append]⟩
  | case4 d s hb hd digits r h ih =>
    obtain ⟨ts, v, hts⟩ := ih
    have h' := number?_name hc (d :: s) w
    rw [h] at h'
    have hread := tokenize_number (by simpa using hb) (by simpa using hd) h'
    exact ⟨number digits :: ts, v, hread.trans (congrArg (number digits :: ·) hts)⟩
  | case5 d s hb hd h ih =>
    obtain ⟨ts, v, hts⟩ := ih
    have h' := number?_name hc (d :: s) w
    rw [h] at h'
    refine ⟨symbol d :: ts, v, ?_⟩
    rw [List.cons_append, tokenize, if_neg hb, if_neg hd]
    split
    · rename_i h''
      rw [← List.cons_append, h'] at h''
      cases h''
    · rw [hts, List.cons_append]

/-! ## What stands before a parenthesis -/

/-- What stands right before an opening parenthesis has the property. -/
def BeforeParens (P : Token → Prop) (ts : List Token) : Prop :=
  ts.IsChain fun a b => b = symbol '(' → P a

theorem beforeParens_iff {P : Token → Prop} {ts : List Token} :
    BeforeParens P ts ↔ ∀ a ps qs, ts = ps ++ a :: symbol '(' :: qs → P a := by
  rw [BeforeParens, List.isChain_iff_forall_rel_of_append_cons_cons]
  constructor
  · intro h a ps qs hts
    exact h hts rfl
  · rintro h a b ps qs hts rfl
    exact h a ps qs hts

/-- A character of names that begins none and is no digit: a letter that is not a basic Latin one, or
a numeral. -/
structure IsForeign (c : Char) : Prop where
  word : isWordChar c = true
  start : isNameStart c = false
  digit : isDigit c = false

namespace Token

variable (K : Char → Prop)

/-- An operand ends with the token, if one ends with each of the given characters. -/
def Ends : Token → Prop
  | ident _ | number _ => True
  | symbol c => c = ')' ∨ K c

/-- The token is one of the given characters, the closing parenthesis apart. -/
def Closer : Token → Prop
  | ident _ | number _ => False
  | symbol c => c ≠ ')' ∧ K c

/-- The token comes about where tokens are joined: a name with a foreign character, a number with the
point at its end. -/
def Joined : Token → Prop
  | ident name => ∃ c ∈ name, IsForeign c
  | number digits => digits.getLast? = some '.'
  | symbol _ => False

/-- The token is the name of a function. -/
def IsFunction (t : Token) : Prop :=
  ∃ name ∈ functionNames, t = ident name

end Token

/-- Where an operand ends with the given characters too, functions alone are called. -/
def OnlyFunctionsCalled (K : Char → Prop) (ts : List Token) : Prop :=
  BeforeParens (fun a => a.Ends K → a.IsFunction) ts

instance (P : Token → Prop) [DecidablePred P] (ts : List Token) : Decidable (BeforeParens P ts) :=
  inferInstanceAs (Decidable (ts.IsChain fun a b => b = symbol '(' → P a))

instance (K : Char → Prop) [DecidablePred K] : DecidablePred (Token.Ends K)
  | .ident _ | .number _ => inferInstanceAs (Decidable True)
  | .symbol c => inferInstanceAs (Decidable (c = ')' ∨ K c))

instance (K : Char → Prop) [DecidablePred K] : DecidablePred (Token.Closer K)
  | .ident _ | .number _ => inferInstanceAs (Decidable False)
  | .symbol c => inferInstanceAs (Decidable (c ≠ ')' ∧ K c))

instance : DecidablePred Token.IsFunction :=
  fun t => inferInstanceAs (Decidable (∃ name ∈ functionNames, t = ident name))

instance (K : Char → Prop) [DecidablePred K] (ts : List Token) :
    Decidable (OnlyFunctionsCalled K ts) :=
  inferInstanceAs (Decidable (BeforeParens (fun a => a.Ends K → a.IsFunction) ts))

section

variable {K : Char → Prop} {a : Token}

theorem function_letters : ∀ {w : List Char}, w ∈ functionNames → ∀ c ∈ w, isNameStart c = true := by
  decide

theorem Token.Closer.not_isFunction (h : a.Closer K) : ¬ a.IsFunction := by
  rintro ⟨name, -, rfl⟩
  exact h

theorem Token.Joined.not_isFunction (h : a.Joined) : ¬ a.IsFunction := by
  rintro ⟨name, hname, rfl⟩
  obtain ⟨c, hc, hforeign⟩ := h
  have := hforeign.start
  rw [function_letters hname c hc] at this
  cases this

theorem Token.Closer.ends (h : a.Closer K) : a.Ends K := by
  cases a with
  | ident | number => trivial
  | symbol c => exact .inr h.2

theorem Token.Joined.ends (h : a.Joined) : a.Ends K := by
  cases a with
  | ident | number => trivial
  | symbol c => exact h.elim

end

/-- An operand whose end the passes see is not followed by a parenthesis. -/
theorem symbol_of_before_paren {a : Token} (h : impliesProduct a (symbol '(') = false) :
    a.IsFunction ∨ ∃ c, a = symbol c ∧ c ≠ ')' := by
  cases a with
  | ident name =>
    have hname : functionNames.contains name = true := by
      simpa [impliesProduct, endsOperand, startsOperand, isCall] using h
    exact .inl ⟨name, by simpa using hname, rfl⟩
  | number digits => cases h
  | symbol c =>
    refine .inr ⟨c, rfl, ?_⟩
    rintro rfl
    cases h

/-- A foreign letter at the end of a text makes one name with a name behind it. -/
theorem foreign_of_joined {ts us : List Token} {n w : List Char} (hl : ∀ t ∈ us, t.Lexeme)
    (he : Explicit (us ++ [ident n])) (hw : ∀ c ∈ w, isWordChar c = true)
    (hjoin : joinTokens us = joinTokens ts ++ w) (hne : w ≠ []) : ∃ c ∈ w, IsForeign c := by
  rcases List.eq_nil_or_concat' us with rfl | ⟨vs, t, rfl⟩
  · exact absurd (List.append_eq_nil_iff.1 hjoin.symm).2 hne
  · have ht := hl t (by simp)
    have hlast : w.getLast? = t.text.getLast? := by
      rw [← getLast?_joinTokens_concat ht, hjoin, List.getLast?_append_of_ne_nil _ hne]
    have hproduct : impliesProduct t (ident n) = false := by
      rw [Explicit, List.append_assoc, List.singleton_append, List.isChain_split] at he
      exact (List.isChain_cons_cons.1 he.2).1
    rcases symbol_of_not_implied hproduct with ⟨c, rfl⟩ | ⟨c, hc⟩
    · have hmem : c ∈ w := List.mem_of_getLast? hlast
      exact ⟨c, hmem, hw c hmem, ht.2.1, ht.2.2⟩
    · cases hc

/-- What is read at the end of a text of tokens, where these leave no product to be written. -/
theorem last_read {ts ps : List Token} {a : Token} (hl : ∀ t ∈ ts, t.Lexeme)
    (he : Explicit (ts ++ [symbol '('])) (ha : tokenize (joinTokens ts) = ps ++ [a]) :
    a.IsFunction ∨ a.Joined ∨ ∃ c, a = symbol c ∧ c ≠ ')' := by
  have hblank : ∀ c ∈ joinTokens ts, isBlank c = false := by
    intro c hc
    obtain ⟨t, ht, hct⟩ := List.mem_flatMap.1 hc
    exact (hl t ht).not_blank c hct
  have hla : a.Lexeme := lexeme_tokenize (joinTokens ts) a (by rw [ha]; simp)
  have hjoin := joinTokens_of_unblank hblank
  rw [ha] at hjoin
  rcases List.eq_nil_or_concat' ts with rfl | ⟨us, t, rfl⟩
  · exact absurd ha (by simp [joinTokens, tokenize_nil])
  · have ht := hl t (by simp)
    have hus : ∀ t ∈ us, t.Lexeme := fun t ht => hl t (List.mem_append_left _ ht)
    rw [Explicit, List.append_assoc, List.singleton_append, List.isChain_split] at he
    rcases symbol_of_before_paren (List.isChain_cons_cons.1 he.2).1 with ⟨n, hn, rfl⟩ | ⟨c, rfl, hc⟩
    · obtain ⟨qs, w, hread⟩ := tokenize_append_name ht (joinTokens us)
      rw [joinTokens_concat] at ha hjoin
      obtain ⟨rfl, hlast⟩ := List.append_inj' (ha.symm.trans hread) rfl
      obtain rfl := List.singleton_inj.1 hlast
      rw [joinTokens_concat, text, text, ← List.append_assoc, List.append_left_inj] at hjoin
      by_cases hw : w = []
      · exact .inl ⟨n, hn, by rw [hw, List.nil_append]⟩
      · have hword : ∀ c ∈ w, isWordChar c = true :=
          fun c hc => hla.word c (List.mem_append_left n hc)
        obtain ⟨c, hc, hforeign⟩ := foreign_of_joined hus he.1 hword hjoin.symm hw
        exact .inr (.inl ⟨c, List.mem_append_left n hc, hforeign⟩)
    · -- the symbol is the last character of what is read
      have hlast := getLast?_joinTokens_concat ht us
      rw [← hjoin, getLast?_joinTokens_concat hla] at hlast
      have hmem : c ∈ a.text := List.mem_of_getLast? hlast
      cases a with
      | ident name => exact .inr (.inl ⟨c, hmem, hla.word c hmem, ht.2.1, ht.2.2⟩)
      | number digits =>
        rcases hla.digit_or_point c hmem with hd | rfl
        · rw [ht.2.2] at hd
          cases hd
        · exact .inr (.inl hlast)
      | symbol d => exact .inr (.inr ⟨d, rfl, List.mem_singleton.1 hmem ▸ hc⟩)

/-- A function, a token that came about by joining or a character whose operand the passes do not see:
nothing else stands right before a parenthesis in a normalized text. -/
theorem before_paren (s : List Char) :
    BeforeParens (fun a => a.IsFunction ∨ a.Joined ∨ ∃ c, a = symbol c ∧ c ≠ ')')
      (tokenize (normalize s)) := by
  have hparen : IsMark '(' := isMark_of_mem (by decide)
  have hl := lexeme_explicitProducts s
  have he := explicit_explicitProducts (factors s)
  rw [beforeParens_iff]
  intro a ps qs h
  rw [← List.singleton_append, ← List.append_assoc] at h
  obtain ⟨u, v, hs, hu, -⟩ := tokenize_eq_append hparen h
  obtain ⟨ts, us, hts, rfl, -⟩ := joinTokens_eq_append hparen hl hs
  rw [hts] at hl he
  exact last_read (fun t ht => hl t (List.mem_append_left _ ht)) (List.isChain_split.1 he).1 hu

/-! ## In a text of plain tokens -/

/-- What holds of every token and a star next to it holds where stars are put and merged. -/
theorem isChain_explicitProducts {R : Token → Token → Prop} (hs : ∀ a, R a star ∧ R star a)
    {ts : List Token} (h : ts.IsChain R) : (explicitProducts ts).IsChain R := by
  have hinsert : (insertProducts ts).IsChain R := by
    induction ts with
    | nil => exact List.isChain_nil
    | cons a ts ih =>
      obtain ⟨ha, hts⟩ := List.isChain_cons.1 h
      rw [insertProducts_cons, List.cons_append]
      rcases linkHead_cases a ts with ⟨hl, -⟩ | ⟨hl, -⟩
      · rw [hl, List.nil_append]
        exact List.isChain_cons.2 ⟨by rwa [head?_insertProducts], ih hts⟩
      · rw [hl, List.singleton_append]
        exact List.isChain_cons_cons.2 ⟨(hs a).1, List.isChain_cons.2 ⟨fun b _ => (hs b).2, ih hts⟩⟩
  rw [explicitProducts_eq]
  exact List.IsChain.infix (isChain_mergeStars hinsert) (trimStars_isInfix _)

/-- Writing the products neither separates a closer from the parenthesis behind it nor brings them
together. -/
theorem beforeParens_explicitProducts {K : Char → Prop} (hK : ¬ K '*') (ts : List Token) :
    BeforeParens (fun a => ¬ a.Closer K) (explicitProducts ts) ↔
      BeforeParens (fun a => ¬ a.Closer K) ts := by
  constructor
  · rw [beforeParens_iff, beforeParens_iff]
    rintro h a ps qs rfl hclose
    have ha : a ≠ star := by
      rintro rfl
      exact hK hclose.2
    have hmeet : ¬ Meet a (symbol '(') := by
      rintro ⟨⟨_, rfl⟩ | ⟨_, rfl⟩ | rfl, -, -⟩
      · exact hclose
      · exact hclose
      · exact hclose.1 rfl
    obtain ⟨ps', qs', he, -, -⟩ := explicitProducts_between ha (show symbol '(' ≠ star by decide)
      (show starless [] = [] from rfl) ps qs
    have hbetween : between [] a (symbol '(') = [] := if_neg (by simp [hmeet])
    rw [hbetween] at he
    exact h a ps' qs' he hclose
  · refine isChain_explicitProducts fun a => ⟨fun hc => ?_, fun _ hc => hK hc.2⟩
    cases hc

/-- The factors of a token. -/
def pieces : Token → List Token
  | ident name => splitIdentifier name
  | t => [t]

theorem factors_eq (s : List Char) : factors s = (tokenize s).flatMap pieces := by
  have hpieces : ∀ t : Token, (match t with | ident name => splitIdentifier name | t => [t]) = pieces t := by
    rintro (name | digits | c) <;> rfl
  exact congrArg (tokenize s).flatMap (funext hpieces)

theorem symbol_mem_pieces {t : Token} {c : Char} (h : symbol c ∈ pieces t) : t = symbol c := by
  cases t with
  | ident name => exact absurd rfl (not_symbol_of_mem_splitIdentifier h c)
  | number | symbol => exact (List.mem_singleton.1 h).symm

theorem pieces_ne_nil {t : Token} (ht : t.Lexeme) : pieces t ≠ [] := by
  cases t with
  | number | symbol => exact List.cons_ne_nil _ _
  | ident name =>
    -- the character that begins a name is kept
    obtain ⟨c, w, rfl, hc, -⟩ := ht
    intro hnil
    have hjoin := joinTokens_splitIdentifier (c :: w)
    rw [show splitIdentifier (c :: w) = [] from hnil, legible] at hjoin
    split at hjoin
    · cases hjoin
    · rename_i hu
      have hkept : isKept c = true := by
        have hne : c ≠ '_' := fun h => hu (h ▸ List.mem_cons_self)
        have halpha : c.isAlpha = true := by simpa [isNameStart, hne] using hc
        simp [isKept, halpha]
      rw [List.filter_cons_of_pos hkept] at hjoin
      cases hjoin

/-- Cutting the names does neither. -/
theorem beforeParens_factors (K : Char → Prop) (s : List Char) :
    BeforeParens (fun a => ¬ a.Closer K) (factors s) ↔
      BeforeParens (fun a => ¬ a.Closer K) (tokenize s) := by
  have hne : [] ∉ (tokenize s).map pieces := by
    rintro h
    obtain ⟨t, ht, hnil⟩ := List.mem_map.1 h
    exact pieces_ne_nil (lexeme_tokenize s t ht) hnil
  have hcloser : ∀ {x t : Token}, x ∈ pieces t → x.Closer K → t.Closer K := by
    rintro (_ | _ | c) t hx hclose
    · exact hclose.elim
    · exact hclose.elim
    · rwa [symbol_mem_pieces hx]
  have hmeet : ∀ a b : Token, (∀ x ∈ (pieces a).getLast?, ∀ y ∈ (pieces b).head?,
      y = symbol '(' → ¬ x.Closer K) ↔ (b = symbol '(' → ¬ a.Closer K) := by
    intro a b
    constructor
    · rintro h rfl hclose
      cases a with
      | ident | number => exact hclose
      | symbol c => exact h _ rfl _ rfl rfl hclose
    · rintro h x hx y hy rfl hclose
      exact h (symbol_mem_pieces (List.mem_of_mem_head? hy))
        (hcloser (List.mem_of_getLast? hx) hclose)
  have hinside : ∀ l ∈ (tokenize s).map pieces,
      l.IsChain fun a b => b = symbol '(' → ¬ a.Closer K := by
    rw [List.forall_mem_map]
    rintro (name | digits | c) -
    · refine (List.pairwise_of_forall_mem_list fun x _ y hy hparen => ?_).isChain
      exact absurd hparen (not_symbol_of_mem_splitIdentifier hy '(')
    · exact List.isChain_singleton _
    · exact List.isChain_singleton _
  rw [BeforeParens, factors_eq, List.flatMap_def, List.isChain_flatten hne, List.isChain_map]
  exact ⟨fun h => h.2.imp fun a b => (hmeet a b).1, fun h => ⟨hinside, h.imp fun a b => (hmeet a b).2⟩⟩

/-! ## Calls -/

theorem onlyFunctionsCalled_normalize_iff (K : Char → Prop) (s : List Char) :
    OnlyFunctionsCalled K (tokenize (normalize s)) ↔
      BeforeParens (fun a => ¬ a.Closer K ∧ ¬ a.Joined) (tokenize (normalize s)) := by
  have hbefore := before_paren s
  rw [beforeParens_iff] at hbefore
  rw [OnlyFunctionsCalled, beforeParens_iff, beforeParens_iff]
  constructor
  · intro h a ps qs hts
    exact ⟨fun hc => hc.not_isFunction (h a ps qs hts hc.ends),
      fun hj => hj.not_isFunction (h a ps qs hts hj.ends)⟩
  · intro h a ps qs hts hends
    obtain ⟨hclose, hjoined⟩ := h a ps qs hts
    rcases hbefore a ps qs hts with hf | hj | ⟨c, rfl, hc⟩
    · exact hf
    · exact absurd hj hjoined
    · exact absurd ⟨hc, hends.resolve_left hc⟩ hclose

/-- Where no product is left to be written nothing that was joined stands before a parenthesis. -/
theorem beforeParens_not_joined {ts : List Token} (he : Explicit ts) :
    BeforeParens (fun a => ¬ a.Joined) ts := by
  rw [beforeParens_iff]
  rintro a ps qs rfl hjoined
  have hproduct := (List.isChain_cons_cons.1 (List.isChain_split.1 he).2).1
  rcases symbol_of_before_paren hproduct with hf | ⟨c, rfl, -⟩
  · exact hjoined.not_isFunction hf
  · exact hjoined

/-- Functions alone are called in a normalized text exactly if no closing character that the passes do
not look for and no token that came about by joining stands before a parenthesis. If the tokens of the
text are plain, that is so exactly if no such character stands before one in the text itself. -/
theorem only_functions_called_iff (K : Char → Prop) (s : List Char) :
    (OnlyFunctionsCalled K (tokenize (normalize s)) ↔
      BeforeParens (fun a => ¬ a.Closer K ∧ ¬ a.Joined) (tokenize (normalize s))) ∧
    (¬ K '*' → (∀ t ∈ tokenize s, t.Plain) →
      (OnlyFunctionsCalled K (tokenize (normalize s)) ↔
        BeforeParens (fun a => ¬ a.Closer K) (tokenize s))) := by
  have hiff := onlyFunctionsCalled_normalize_iff K s
  refine ⟨hiff, fun hK hp => ?_⟩
  have he := explicit_explicitProducts (factors s)
  have hback : tokenize (normalize s) = explicitProducts (factors s) :=
    tokenize_of_explicit (lexeme_explicitProducts s) (plain_explicitProducts hp) he
  have hjoined := beforeParens_iff.1 (beforeParens_not_joined he)
  rw [hiff, ← beforeParens_factors, ← beforeParens_explicitProducts hK, hback, beforeParens_iff,
    beforeParens_iff]
  exact ⟨fun h a ps qs hts => (h a ps qs hts).1,
    fun h a ps qs hts => ⟨h a ps qs hts, hjoined a ps qs hts⟩⟩

/-- The brackets and quotes that close an operand beside the parenthesis. -/
def closers : List Char :=
  [']', '}', '\'', '"']

theorem group_behind_call_multiplied :
    normalize "[2x] sin(y)(x)".toList = "[2*x]sin(y)*(x)".toList ∧
      OnlyFunctionsCalled (· ∈ closers) (tokenize (normalize "[2x] sin(y)(x)".toList)) := by
  have hp : ∀ t ∈ tokenize "[2x] sin(y)(x)".toList, t.Plain := by decide +kernel
  have hclosers : BeforeParens (fun a => ¬ a.Closer (· ∈ closers)) (tokenize "[2x] sin(y)(x)".toList) := by
    decide +kernel
  exact ⟨by decide +kernel, ((only_functions_called_iff _ _).2 (by decide) hp).2 hclosers⟩

/-- A group behind a bracket keeps its place, so what is in the bracket is called. -/
theorem bracket_called :
    normalize "[x](y)".toList = "[x](y)".toList ∧
      ¬ OnlyFunctionsCalled (· ∈ closers) (tokenize (normalize "[x](y)".toList)) := by
  decide +kernel

end FieldWalk.Formula
