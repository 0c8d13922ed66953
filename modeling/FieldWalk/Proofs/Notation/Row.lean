import FieldWalk.Proofs.Formula.Fixed
import FieldWalk.Proofs.Notation.Exact
/-!
# Factors in a row

Factors are written one behind the other: names, and functions with an argument in parentheses that is
such a row again. The translator runs their names together, and the tokenizer takes the longest known
name from the left. It finds every factor again, except that `e`, `x` and `\pi` next to each other are
taken for `exp` and a letter `i`.
-/

namespace FieldWalk.Notation

open Formula Markup Text Formula.Token

/-- Factors one behind the other. -/
inductive Row where
  | nil
  | name (n : Name) (rest : Row)
  /-- A function and its argument, in sized parentheses or plain ones. -/
  | call (f : FunctionCommand) (sized : Bool) (argument rest : Row)

namespace Row

/-- The blank that keeps a command word apart from a letter behind it. -/
def gap : Name → Row → List Char
  | .pi, name .pi _ => []
  | .pi, name _ _ => [' ']
  | _, _ => []

/-- The row as markup. -/
def markup : Row → List Char
  | nil => []
  | name n r => n.markup ++ (gap n r ++ r.markup)
  | call f sized a r => Tree.command f.word ++
      (if sized then Tree.sized a.markup else paren a.markup) ++ r.markup

/-- The flat text of the row before the products are written. -/
def glued : Row → List Char
  | nil => []
  | name n r => n.text ++ r.glued
  | call f _ a r => f.name.toList ++ (paren a.glued ++ r.glued)

/-- The flat texts of the factors. -/
def parts : Row → List (List Char)
  | nil => []
  | name n r => n.text :: r.parts
  | call f _ a r => (f.name.toList ++ paren (['*'].intercalate a.parts)) :: r.parts

/-- The flat texts of the factors as the tokenizer finds them. -/
def shown : Row → List (List Char)
  | nil => []
  | name .e (name .x (name .pi r)) => "exp".toList :: ['i'] :: r.shown
  | name n r => n.text :: r.shown
  | call f _ a r => (f.name.toList ++ paren (['*'].intercalate a.shown)) :: r.shown

/-- The number of places where `e`, `x` and `\pi` stand next to each other in this order. -/
def fusions : Row → Nat
  | nil => 0
  | name .e (name .x (name .pi r)) => r.fusions + 1
  | name _ r => r.fusions
  | call _ _ a r => a.fusions + r.fusions

/-- The tokens of the glued text. -/
def tokens : Row → List Token
  | nil => []
  | name .e (name .x (name .pi r)) => ident "exp".toList :: ident ['i'] :: r.tokens
  | name n r => ident n.text :: r.tokens
  | call f _ a r => ident f.name.toList :: (parenTokens a.tokens ++ r.tokens)

end Row

/-! ## Translation -/

namespace Row

theorem gap_cases (n : Name) (r : Row) : gap n r = [] ∨ gap n r = [' '] := by
  unfold gap
  split
  · exact .inl rfl
  · exact .inr rfl
  · exact .inl rfl

theorem piece_gap {n : Name} {r : Row} (h : Piece r.markup r.glued) :
    Piece (gap n r ++ r.markup) r.glued := by
  rcases gap_cases n r with hg | hg
  · rwa [hg]
  · have hb : Closed [' '] [] := closed_blank (by decide)
    rw [hg]
    exact ⟨balanced_append (balanced_of_free (by decide)) h.balanced, hb.append_reads h.reads⟩

/-- No letter follows the command for the constant. -/
theorem noLetter_gap (r : Row) : NoLetter (gap .pi r ++ r.markup) := by
  cases r with
  | nil => exact noLetter_nil
  | name n r => cases n <;> exact noLetter_cons (by decide) _
  | call f sized a r =>
    rw [gap, markup, List.nil_append, List.append_assoc]
    · exact noLetter_command f.word _
    · nofun
    · nofun

/-- The argument of a function with its parentheses. -/
theorem block_argument (sized : Bool) {s t : List Char} (h : Piece s t) :
    Block (if sized then Tree.sized s else paren s) (paren t) := by
  cases sized with
  | true => exact block_sized h
  | false => exact block_around ⟨[], List.forall_mem_nil _, true⟩ h

/-- The translator runs the names of a row together. -/
theorem piece (row : Row) : Piece row.markup row.glued := by
  induction row with
  | nil => exact ⟨balanced_nil, closed_nil.reads⟩
  | name n r ih =>
    have hrest := piece_gap (n := n) ih
    by_cases hn : n = .pi
    · subst hn
      exact (piece_name .pi).append hrest (noLetter_gap r)
    · exact ⟨balanced_append (piece_name n).balanced hrest.balanced,
        (closed_letter hn).append_reads hrest.reads⟩
  | call f sized a r iha ihr =>
    have harg := block_argument sized iha
    have hcall := (piece_word f).reads.append_closed harg.closed ⟨harg.ne_nil, harg.noLetter⟩
    rw [markup, glued, ← List.append_assoc]
    exact ⟨balanced_append (balanced_append (piece_word f).balanced harg.balanced) ihr.balanced,
      hcall.append_reads ihr.reads⟩

/-! ## Factors -/

theorem letters_text (n : Name) : ∀ c ∈ n.text, c.isAlpha = true := by
  cases n <;> decide

theorem letters_function (f : FunctionCommand) : ∀ c ∈ f.name.toList, c.isAlpha = true :=
  known_letters (List.mem_append_left _ f.isFunction)

theorem markFirst_group (s t : List Char) : MarkFirst (paren s ++ t) :=
  markFirst_cons (isMark_of_mem (by decide)) _

theorem lettersFirst (row : Row) : LettersFirst row.glued := by
  induction row with
  | nil => exact ⟨[], [], rfl, List.forall_mem_nil _, markFirst_nil⟩
  | name n r ih => exact ih.append (letters_text n)
  | call f sized a r => exact ⟨_, _, rfl, letters_function f, markFirst_group _ _⟩

/-- What the known names begin with. -/
theorem known_head : ∀ w ∈ knownNames,
    w.head? ≠ some 'x' ∧ w.head? ≠ some 'y' ∧ w.head? ≠ some 'i' ∧
      (w.head? = some 'e' → w = "exp".toList) ∧ (w.head? = some 'p' → w = "pi".toList) := by
  decide

/-- No function begins like a variable or like the constant. -/
theorem function_head (f : FunctionCommand) (s : List Char) :
    (f.name.toList ++ s).head? ≠ some 'x' ∧ (f.name.toList ++ s).head? ≠ some 'p' := by
  have hall : ∀ w ∈ functionNames, w ≠ [] ∧ w.head? ≠ some 'x' ∧ w.head? ≠ some 'p' := by
    decide
  obtain ⟨hn, hx, hp⟩ := hall _ f.isFunction
  rw [List.head?_append_of_ne_nil _ hn]
  exact ⟨hx, hp⟩

theorem eq_x_of_head {r : Row} (h : r.glued.head? = some 'x') : ∃ s, r = name .x s := by
  cases r with
  | nil => cases h
  | name n s => cases n <;> first | exact ⟨s, rfl⟩ | cases h
  | call f sized a s => exact absurd h (function_head f _).1

theorem eq_pi_of_head {r : Row} (h : r.glued.head? = some 'p') : ∃ s, r = name .pi s := by
  cases r with
  | nil => cases h
  | name n s => cases n <;> first | exact ⟨s, rfl⟩ | cases h
  | call f sized a s => exact absurd h (function_head f _).2

/-- Only `x` and the constant behind `e` look like a function. -/
theorem eq_of_exp {r : Row} (h : "exp".toList <+: 'e' :: r.glued) :
    ∃ s, r = name .x (name .pi s) := by
  obtain ⟨t, ht⟩ := h
  have hr : r.glued = 'x' :: 'p' :: t := (List.cons.inj ht).2.symm
  obtain ⟨s, rfl⟩ := eq_x_of_head (by rw [hr]; rfl)
  have hs : s.glued = 'p' :: t := (List.cons.inj hr).2
  obtain ⟨u, rfl⟩ := eq_pi_of_head (by rw [hs]; rfl)
  exact ⟨u, rfl⟩

theorem head?_of_known {w s : List Char} {c : Char} (hw : w ∈ knownNames) (hp : w <+: c :: s) :
    w.head? = some c := by
  have hn : w ≠ [] := by
    rintro rfl
    exact absurd hw (by decide)
  obtain ⟨d, w, rfl⟩ := List.exists_cons_of_ne_nil hn
  rw [(List.cons_prefix_cons.1 hp).1]
  rfl

/-- A name of a row is found again, unless it is the `e` before an `x` and the constant. -/
theorem factors_name {n : Name} {r : Row} (h : ∀ s, n = .e → r ≠ name .x (name .pi s)) :
    factors (n.text ++ r.glued) = ident n.text :: factors r.glued := by
  refine factors_append_name ?_ (lettersFirst r) ?_
  · cases n with
    | pi => exact .inl (by decide)
    | x | y | e => exact .inr ⟨_, by decide, rfl⟩
  · intro w hw hp
    obtain ⟨hx, hy, -, he, hpi⟩ := known_head w hw
    cases n with
    | x => exact absurd (head?_of_known hw hp) hx
    | y => exact absurd (head?_of_known hw hp) hy
    | e =>
      rw [he (head?_of_known hw hp)] at hp
      obtain ⟨s, rfl⟩ := eq_of_exp hp
      exact absurd rfl (h s rfl)
    | pi => rw [hpi (head?_of_known hw hp)]; exact le_refl 2

/-- The letters of `e`, `x` and the constant are taken for the function and a letter. -/
theorem factors_fused (r : Row) :
    factors (name .e (name .x (name .pi r))).glued =
      ident "exp".toList :: ident ['i'] :: factors r.glued := by
  have hi : ∀ c ∈ ['i'], c.isAlpha = true := by decide
  have hletter : factors (['i'] ++ r.glued) = ident ['i'] :: factors r.glued := by
    refine factors_append_name (.inr ⟨'i', by decide, rfl⟩) (lettersFirst r) fun w hw hp => ?_
    exact absurd (head?_of_known hw hp) (known_head w hw).2.2.1
  have hexp : factors ("exp".toList ++ (['i'] ++ r.glued)) =
      ident "exp".toList :: factors (['i'] ++ r.glued) := by
    refine factors_append_name (.inl (by decide)) ((lettersFirst r).append hi) fun w hw hp => ?_
    rw [(known_head w hw).2.2.2.1 (head?_of_known hw hp)]
  rw [← hletter, ← hexp]
  rfl

theorem factors_group (s t : List Char) :
    factors (paren s ++ t) = parenTokens (factors s) ++ factors t := by
  have ho : IsMark '(' := isMark_of_mem (by decide)
  have hc : IsMark ')' := isMark_of_mem (by decide)
  have hopen := factors_append_mark ho [] (s ++ ')' :: t)
  rw [factors_nil, List.nil_append, List.nil_append, factors_append_mark hc] at hopen
  simpa [paren, parenTokens] using hopen

/-- A known name that begins a name and a parenthesis ends before the parenthesis. -/
theorem length_le_of_group {w n s : List Char} (hw : w ∈ knownNames) (hp : w <+: n ++ '(' :: s) :
    w.length ≤ n.length := by
  by_contra hlt
  have hq : n ++ ['('] <+: w := by
    refine List.prefix_of_prefix_length_le ?_ hp (by rw [List.length_append, List.length_singleton]; omega)
    exact ⟨s, by rw [List.append_assoc, List.singleton_append]⟩
  exact absurd (known_letters hw '(' (hq.subset (by simp))) (by decide)

theorem factors_call (f : FunctionCommand) (s t : List Char) :
    factors (f.name.toList ++ (paren s ++ t)) =
      ident f.name.toList :: (parenTokens (factors s) ++ factors t) := by
  rw [← factors_group]
  exact factors_append_name (.inl (List.mem_append_left _ f.isFunction))
    ⟨[], _, rfl, List.forall_mem_nil _, markFirst_group s t⟩ fun w hw hp => length_le_of_group hw hp

/-- The glued text falls into the row's own tokens. -/
theorem factors_glued (row : Row) : factors row.glued = row.tokens := by
  fun_induction tokens row with
  | case1 => exact factors_nil
  | case2 r ih => rw [factors_fused, ih]
  | case3 n r h ih => rw [glued, factors_name h, ih]
  | case4 f sized a r iha ihr => rw [glued, factors_call, iha, ihr]

/-! ## Products -/

/-- Tokens whose text with the products written is a list of parts. -/
structure Joined (ts : List Token) (ps : List (List Char)) : Prop where
  text : joinTokens (insertProducts ts) = ['*'].intercalate ps
  head : ts = [] ∧ ps = [] ∨ (∃ name us, ts = ident name :: us) ∧ ps ≠ []

theorem joined_nil : Joined [] [] :=
  ⟨rfl, .inl ⟨rfl, rfl⟩⟩

/-- Behind an operand a star comes before the next part. -/
theorem Joined.link {ts : List Token} {ps : List (List Char)} (h : Joined ts ps) {a : Token}
    (ha : a.endsOperand = true) (p : List Char) :
    p ++ joinTokens (linkHead a ts ++ insertProducts ts) = ['*'].intercalate (p :: ps) := by
  rw [joinTokens_append, h.text]
  rcases h.head with ⟨rfl, rfl⟩ | ⟨⟨name, us, rfl⟩, hp⟩
  · simp [linkHead, joinTokens]
  · obtain ⟨q, qs, rfl⟩ := List.exists_cons_of_ne_nil hp
    have hl : linkHead a (ident name :: us) = [star] := by
      cases a <;> simp_all [linkHead, Formula.link, impliesProduct, isCall, startsOperand]
    rw [hl, List.intercalate_cons_cons, List.append_assoc]
    rfl

theorem Joined.name {ts : List Token} {ps : List (List Char)} (h : Joined ts ps) (n : List Char) :
    Joined (ident n :: ts) (n :: ps) := by
  refine ⟨?_, .inr ⟨⟨n, ts, rfl⟩, List.cons_ne_nil n ps⟩⟩
  rw [insertProducts_cons, List.cons_append, joinTokens_cons]
  exact h.link rfl n

theorem Joined.call {ts us : List Token} {ps qs : List (List Char)} (h : Joined ts ps)
    (h' : Joined us qs) {f : List Char} (hf : f ∈ functionNames) :
    Joined (ident f :: (parenTokens us ++ ts)) ((f ++ paren (['*'].intercalate qs)) :: ps) := by
  refine ⟨?_, .inr ⟨⟨f, _, rfl⟩, List.cons_ne_nil _ ps⟩⟩
  have hl : linkHead (ident f) (parenTokens us ++ ts) = [] := by
    simp [linkHead, parenTokens, Formula.link, impliesProduct, isCall, hf]
  rw [insertProducts_cons, hl, insertProducts_group, List.singleton_append,
    joinTokens_cons, joinTokens_append, joinTokens_paren, h'.text, ← List.append_assoc]
  exact h.link rfl _

theorem joined (row : Row) : Joined row.tokens row.shown := by
  fun_induction tokens row with
  | case1 => exact joined_nil
  | case2 r ih => exact (ih.name ['i']).name "exp".toList
  | case3 n r h ih =>
    rw [shown]
    · exact ih.name n.text
    · exact h
  | case4 f sized a r iha ihr => exact ihr.call iha f.isFunction

theorem star_notMem (row : Row) : star ∉ row.tokens := by
  fun_induction tokens row with
  | case1 => exact List.not_mem_nil
  | case2 r ih => simp [ih]
  | case3 n r h ih => simp [ih]
  | case4 f sized a r iha ihr => simp [parenTokens, iha, ihr]

theorem normalize_glued (row : Row) : Formula.normalize row.glued = ['*'].intercalate row.shown := by
  rw [Formula.normalize, factors_glued, (tidy_of_notMem row.star_notMem).explicitProducts, row.joined.text]

/-! ## Fused names -/

/-- The characters of parts, one more for each of them. -/
def span : List (List Char) → Nat
  | [] => 0
  | p :: ps => p.length + 1 + span ps

theorem length_intercalate (ps : List (List Char)) :
    (['*'].intercalate ps).length = span ps - 1 := by
  induction ps with
  | nil => rfl
  | cons p ps ih =>
    cases ps with
    | nil => simp [span]
    | cons q qs =>
      rw [List.intercalate_cons_cons, List.length_append, List.length_append, ih]
      simp only [span, List.length_singleton]
      omega

/-- Each fusion makes the text shorter by one character. -/
theorem span_parts (row : Row) :
    span row.parts = span row.shown + row.fusions ∧ (row.fusions = 0 ∨ 0 < span row.shown) := by
  fun_induction shown row with
  | case1 => exact ⟨rfl, .inl rfl⟩
  | case2 r ih =>
    have hexp : "exp".toList.length = 3 := rfl
    simp only [parts, fusions, span, Name.text, List.length_cons, List.length_nil, hexp]
    omega
  | case3 n r h ih =>
    rw [parts, fusions]
    · simp only [span]
      omega
    · exact h
  | case4 f sized a r iha ihr =>
    simp only [parts, fusions, span, paren, List.length_append, List.length_cons, length_intercalate]
    omega

theorem parts_of_apart {row : Row} (h : row.fusions = 0) : row.parts = row.shown := by
  fun_induction shown row with
  | case1 => rfl
  | case2 r ih => cases h
  | case3 n r hn ih =>
    rw [fusions] at h
    · rw [parts, ih h]
    · exact hn
  | case4 f sized a r iha ihr =>
    rw [fusions, Nat.add_eq_zero_iff] at h
    rw [parts, iha h.1, ihr h.2]

theorem intercalate_shown_iff (row : Row) :
    ['*'].intercalate row.shown = ['*'].intercalate row.parts ↔ row.fusions = 0 := by
  refine ⟨fun h => ?_, fun h => by rw [parts_of_apart h]⟩
  have hlen := congrArg List.length h
  obtain ⟨hspan, hpos⟩ := row.span_parts
  rw [length_intercalate, length_intercalate] at hlen
  omega

/-- A row becomes the list of its factors' own texts with stars between them, except that `e`, `x` and
`\pi` next to each other become the function `exp` and a letter `i`. -/
theorem flatten_row (row : Row) :
    (Session.flatten (String.ofList row.markup)).1 = String.ofList (['*'].intercalate row.shown) ∧
      ((Session.flatten (String.ofList row.markup)).1 = String.ofList (['*'].intercalate row.parts) ↔
        row.fusions = 0) := by
  have hflat := flatten_piece row.piece
  rw [normalize_glued] at hflat
  refine ⟨hflat, ?_⟩
  rw [hflat, String.ofList_inj, intercalate_shown_iff]

/-- The letters of three factors are read as a function name. -/
theorem fused_product :
    let row : Row := name .e (name .x (name .pi nil))
    row.markup = "ex\\pi".toList ∧
      String.ofList (['*'].intercalate row.parts) = "e*x*pi" ∧
      (Session.flatten (String.ofList row.markup)).1 = "exp*i" ∧
      (Session.flatten (String.ofList row.markup)).1 ≠ String.ofList (['*'].intercalate row.parts) := by
  decide +kernel

end Row

end FieldWalk.Notation
