import FieldWalk.Proofs.Formula.Lexing
import Mathlib.Data.List.Chain
/-!
# Products are placed locally

Whether a star stands between two tokens depends on these two alone. Ending the exponents first
puts stars only where the insertion puts them anyway, so it changes nothing (`explicitProducts_eq`).
What remains splits at every token that is not a star, which gives the normalized text of a group in
any surroundings (`explicitProducts_group`).
-/

namespace FieldWalk.Formula

open Token

/-! ## Inserted stars -/

/-- The star between two tokens, if a product is implied there. -/
def link (a b : Token) : List Token :=
  if impliesProduct a b then [star] else []

/-- The star between the end of some tokens and a token. -/
def linkLast (ts : List Token) (b : Token) : List Token :=
  (ts.getLast?.map (link · b)).getD []

/-- The star between a token and the front of some tokens. -/
def linkHead (a : Token) (ts : List Token) : List Token :=
  (ts.head?.map (link a)).getD []

theorem insertProducts_cons (a : Token) (ts : List Token) :
    insertProducts (a :: ts) = a :: linkHead a ts ++ insertProducts ts := by
  cases ts with
  | nil => rfl
  | cons b ts =>
    by_cases h : impliesProduct a b = true <;> simp [insertProducts, linkHead, link, h]

theorem insertProducts_append (as : List Token) (b : Token) (bs : List Token) :
    insertProducts (as ++ b :: bs) = insertProducts as ++ linkLast as b ++ insertProducts (b :: bs) := by
  induction as with
  | nil => rfl
  | cons a as ih =>
    rw [List.cons_append, insertProducts_cons, ih, insertProducts_cons a as]
    cases as with
    | nil => simp [linkHead, linkLast, insertProducts]
    | cons a' as => simp [linkHead, linkLast, List.getLast?_cons]

theorem linkHead_of_not_ends {a : Token} (h : a.endsOperand = false) (ts : List Token) :
    linkHead a ts = [] := by
  cases ts <;> simp [linkHead, link, impliesProduct, h]

theorem linkLast_of_not_starts {b : Token} (h : b.startsOperand = false) (ts : List Token) :
    linkLast ts b = [] := by
  cases ht : ts.getLast? <;> simp [linkLast, link, impliesProduct, h, ht]

/-- An operator has no star on either side. -/
theorem insertProducts_operator {c : Token} (hs : c.startsOperand = false)
    (he : c.endsOperand = false) (as bs : List Token) :
    insertProducts (as ++ c :: bs) = insertProducts as ++ c :: insertProducts bs := by
  rw [insertProducts_append, linkLast_of_not_starts hs, insertProducts_cons,
    linkHead_of_not_ends he]
  simp

theorem insertProducts_open (as bs : List Token) :
    insertProducts (as ++ symbol '(' :: bs) =
      insertProducts as ++ linkLast as (symbol '(') ++ symbol '(' :: insertProducts bs := by
  rw [insertProducts_append, insertProducts_cons, linkHead_of_not_ends (by decide)]
  simp

theorem insertProducts_close (as bs : List Token) :
    insertProducts (as ++ symbol ')' :: bs) =
      insertProducts as ++ symbol ')' :: (linkHead (symbol ')') bs ++ insertProducts bs) := by
  rw [insertProducts_append, linkLast_of_not_starts (by decide), insertProducts_cons]
  simp

theorem insertProducts_group (ts us : List Token) :
    insertProducts (parenTokens ts ++ us) =
      parenTokens (insertProducts ts) ++ (linkHead (symbol ')') us ++ insertProducts us) := by
  have he : parenTokens ts ++ us = symbol '(' :: ts ++ symbol ')' :: us := by
    simp [parenTokens]
  rw [he, insertProducts_close, insertProducts_cons, linkHead_of_not_ends (by decide)]
  simp [parenTokens]

theorem insertProducts_paren (ts : List Token) :
    insertProducts (parenTokens ts) = parenTokens (insertProducts ts) := by
  simpa [linkHead, insertProducts] using insertProducts_group ts []

/-! ## Ended exponents -/

theorem splitBalanced_append (depth : Nat) (ts : List Token) :
    (splitBalanced depth ts).1 ++ (splitBalanced depth ts).2 = ts := by
  induction ts generalizing depth with
  | nil => rfl
  | cons t ts ih =>
    simp only [splitBalanced]
    split
    · simp [ih]
    · split
      · split <;> simp [ih]
      · simp [ih]

/-- What is split off ends in a closing parenthesis, unless nothing is left. -/
theorem splitBalanced_last (depth : Nat) (ts : List Token) (h : (splitBalanced depth ts).2 ≠ []) :
    (splitBalanced depth ts).1.getLast? = some (symbol ')') := by
  induction ts generalizing depth with
  | nil => exact absurd rfl h
  | cons t ts ih =>
    simp only [splitBalanced] at h ⊢
    split at h
    · rw [if_pos ‹_›, List.getLast?_cons, ih _ h]
      rfl
    · rw [if_neg ‹_›]
      split at h
      · rw [if_pos ‹_›]
        split at h
        · rename_i hd
          subst t
          rw [if_pos hd]
          rfl
        · rename_i hd
          rw [if_neg hd, List.getLast?_cons, ih _ h]
          rfl
      · rw [if_neg ‹_›, List.getLast?_cons, ih _ h]
        rfl

theorem exponent?_append {ts operand rest : List Token} (h : exponent? ts = some (operand, rest)) :
    operand ++ rest = ts := by
  have hd : ts.takeWhile isSign ++ ts.dropWhile isSign = ts := List.takeWhile_append_dropWhile
  unfold exponent? at h
  split at h
  · cases h
  · rename_i c r hr
    split at h
    · cases h
      rw [List.append_assoc, splitBalanced_append, ← hr, hd]
    · cases h
  · rename_i name r hr
    split at h
    · split at h
      · cases h
        rw [List.append_assoc, List.cons_append, splitBalanced_append, ← hr, hd]
      · cases h
        rw [List.append_assoc, List.singleton_append, ← hr, hd]
    · cases h
      rw [List.append_assoc, List.singleton_append, ← hr, hd]
  · rename_i digits r hr
    cases h
    rw [List.append_assoc, List.singleton_append, ← hr, hd]

/-- Where ending an exponent asks for a star, a product is implied. -/
theorem link_exponent {ts operand rest : List Token} (h : exponent? ts = some (operand, rest))
    (hn : needsStarBefore rest = true) {b : Token} (hb : rest.head? = some b) :
    ∃ a, operand.getLast? = some a ∧ impliesProduct a b = true := by
  have hs : b.startsOperand = true := by
    cases rest with
    | nil => cases hb
    | cons b rest =>
      cases hb
      cases b <;> simp_all [needsStarBefore, startsOperand]
  -- an exponent that is a group or a call and does not reach the end ends in its parenthesis
  have hclose : ∀ depth (us : List Token), (splitBalanced depth us).2 = rest →
      (splitBalanced depth us).1.getLast? = some (symbol ')') := by
    intro depth us he
    refine splitBalanced_last depth us ?_
    rintro h0
    rw [he] at h0
    simp [h0] at hb
  have hparen : impliesProduct (symbol ')') b = true := by
    simp [impliesProduct, endsOperand, isCall, hs]
  unfold exponent? at h
  split at h
  · cases h
  · rename_i c r _
    split at h
    · simp only [Option.some.injEq, Prod.mk.injEq] at h
      obtain ⟨rfl, h⟩ := h
      exact ⟨symbol ')', by simp [hclose _ _ h], hparen⟩
    · cases h
  · rename_i name r _
    split at h
    · rename_i c r
      split at h
      · simp only [Option.some.injEq, Prod.mk.injEq] at h
        obtain ⟨rfl, h⟩ := h
        exact ⟨symbol ')', by simp [List.getLast?_cons, hclose _ _ h], hparen⟩
      · rename_i hc
        cases h
        cases hb
        exact ⟨ident name, by simp, by simp [impliesProduct, endsOperand, hs, hc]⟩
    · cases h
      cases hb
  · rename_i digits r _
    cases h
    exact ⟨number digits, by simp, by simp [impliesProduct, endsOperand, isCall, hs]⟩

theorem closeExponents_head (ts : List Token) : (closeExponents ts).head? = ts.head? := by
  cases ts with
  | nil => rw [closeExponents]
  | cons t ts =>
    rw [closeExponents]
    split
    · split <;> simp
    · rfl

theorem linkHead_congr {us ts : List Token} (h : us.head? = ts.head?) (a : Token) :
    linkHead a us = linkHead a ts := by
  rw [linkHead, linkHead, h]

theorem insertProducts_append_congr {us ts : List Token} (hh : us.head? = ts.head?)
    (h : insertProducts us = insertProducts ts) (as : List Token) :
    insertProducts (as ++ us) = insertProducts (as ++ ts) := by
  cases us with
  | nil =>
    have ht : ts = [] := by simpa using hh.symm
    rw [ht]
  | cons b us =>
    obtain ⟨ts, rfl⟩ := List.head?_eq_some_iff.1 hh.symm
    rw [insertProducts_append, insertProducts_append, h]

/-- A star that is implied may be written. -/
theorem insertProducts_star {as bs : List Token} {a b : Token} (ha : as.getLast? = some a)
    (hb : bs.head? = some b) (h : impliesProduct a b = true) :
    insertProducts (as ++ star :: bs) = insertProducts (as ++ bs) := by
  obtain ⟨bs, rfl⟩ := List.head?_eq_some_iff.1 hb
  rw [insertProducts_operator (by decide) (by decide), insertProducts_append]
  simp [linkLast, link, ha, h]

theorem insertProducts_closeExponents (ts : List Token) :
    insertProducts (closeExponents ts) = insertProducts ts := by
  -- the star that ends an exponent stands where one is implied anyway
  fun_induction closeExponents ts with
  | case1 => rfl
  | case2 r h ih =>
    rw [insertProducts_cons, insertProducts_cons, ih, linkHead_congr (closeExponents_head r)]
  | case3 r operand rest h ih =>
    have hr := exponent?_append h
    have hc := insertProducts_append_congr (closeExponents_head rest) ih (symbol '^' :: operand)
    by_cases hn : needsStarBefore rest = true
    · cases hb : rest.head? with
      | none =>
        rw [List.head?_eq_none_iff] at hb
        simp [hb, needsStarBefore] at hn
      | some b =>
        rcases link_exponent h hn hb with ⟨a, ha, hab⟩
        have hlast : (symbol '^' :: operand).getLast? = some a := by
          simp [List.getLast?_cons, ha]
        have hhead : (closeExponents rest).head? = some b := by
          rw [closeExponents_head, hb]
        rw [if_pos hn, List.append_assoc, List.singleton_append,
          insertProducts_star hlast hhead hab, hc, List.cons_append, hr]
    · rw [if_neg hn, List.append_nil, hc, List.cons_append, hr]
  | case4 t r hne ih =>
    rw [insertProducts_cons, insertProducts_cons, ih, linkHead_congr (closeExponents_head r)]

/-- Ending the exponents first changes nothing. -/
theorem explicitProducts_eq (ts : List Token) :
    explicitProducts ts = collapseProducts (insertProducts ts) := by
  rw [explicitProducts, insertProducts_closeExponents]

/-! ## Collapsed stars -/

/-- The sign is not at an end and not next to another one. -/
structure Tidy {α : Type} (a : α) (l : List α) : Prop where
  head : l.head? ≠ some a
  last : l.getLast? ≠ some a
  apart : l.IsChain fun x y => x = a → y ≠ a

theorem tidy_of_notMem {α : Type} {a : α} {l : List α} (h : a ∉ l) : Tidy a l := by
  have hall : ∀ x ∈ l, ∀ y ∈ l, x = a → y ≠ a := fun x hx _ _ he => absurd (he ▸ hx) h
  exact ⟨fun ha => h (List.mem_of_mem_head? ha), fun ha => h (List.mem_of_getLast? ha),
    (List.pairwise_of_forall_mem_list hall).isChain⟩

/-- There is a token at either end, and no star is there or next to another one. -/
structure Solid (ts : List Token) : Prop where
  apart : ts.IsChain fun a b => a = star → b ≠ star
  head : ∃ a, ts.head? = some a ∧ a ≠ star
  last : ∃ a, ts.getLast? = some a ∧ a ≠ star

theorem mergeStars_of_apart {ts : List Token} (h : ts.IsChain fun a b => a = star → b ≠ star) :
    mergeStars ts = ts := by
  fun_induction mergeStars ts with
  | case1 a b r hs ih =>
    obtain ⟨hab, -⟩ := List.isChain_cons_cons.1 h
    exact absurd hs.2 (hab hs.1)
  | case2 a b r hs ih => rw [ih (List.isChain_cons_cons.1 h).2]
  | case3 ts _ => rfl

theorem dropWhile_star {ts : List Token} (h : ts.head? ≠ some star) :
    ts.dropWhile (· == star) = ts := by
  cases ts with
  | nil => rfl
  | cons a ts =>
    have ha : a ≠ star := fun ha => h (congrArg some ha)
    simp [ha]

theorem Tidy.collapse {ts : List Token} (h : Tidy star ts) : collapseProducts ts = ts := by
  have hr : ts.reverse.head? ≠ some star := by
    rw [List.head?_reverse]
    exact h.last
  rw [collapseProducts, mergeStars_of_apart h.apart, trimStars, dropWhile_star h.head,
    dropWhile_star hr, List.reverse_reverse]

theorem Solid.tidy {ts : List Token} (h : Solid ts) : Tidy star ts := by
  obtain ⟨a, ha, hna⟩ := h.head
  obtain ⟨b, hb, hnb⟩ := h.last
  exact ⟨by simpa [ha] using hna, by simpa [hb] using hnb, h.apart⟩

theorem solid_singleton {a : Token} (h : a ≠ star) : Solid [a] :=
  ⟨List.isChain_singleton a, ⟨a, rfl, h⟩, ⟨a, rfl, h⟩⟩

theorem Solid.append {ts us : List Token} (ht : Solid ts) (hu : Solid us) : Solid (ts ++ us) := by
  obtain ⟨a, ha, hna⟩ := ht.last
  obtain ⟨b, hb, hnb⟩ := hu.head
  refine ⟨ht.apart.append hu.apart ?_, ?_, ?_⟩
  · intro x _ y hy _
    rw [hb] at hy
    cases hy
    exact hnb
  · obtain ⟨c, hc, hnc⟩ := ht.head
    exact ⟨c, by simp [hc], hnc⟩
  · obtain ⟨c, hc, hnc⟩ := hu.last
    exact ⟨c, by simp [hc], hnc⟩

/-- Between two operands a star may stand. -/
theorem Solid.product {ts us : List Token} (ht : Solid ts) (hu : Solid us) :
    Solid (ts ++ star :: us) := by
  obtain ⟨a, ha, hna⟩ := ht.last
  obtain ⟨b, hb, hnb⟩ := hu.head
  obtain ⟨us, rfl⟩ := List.head?_eq_some_iff.1 hb
  refine ⟨ht.apart.append (List.isChain_cons_cons.2 ⟨fun _ => hnb, hu.apart⟩) ?_, ?_, ?_⟩
  · intro x hx y _ hxs
    rw [ha] at hx
    cases hx
    exact absurd hxs hna
  · obtain ⟨c, hc, hnc⟩ := ht.head
    exact ⟨c, by simp [hc], hnc⟩
  · obtain ⟨c, hc, hnc⟩ := hu.last
    exact ⟨c, by simp [List.getLast?_cons_cons, hc], hnc⟩

/-! ## Around a group -/

theorem mergeStars_append {c : Token} (hc : c ≠ star) (as bs : List Token) :
    mergeStars (as ++ c :: bs) = mergeStars as ++ c :: mergeStars bs := by
  -- no run of stars goes on beyond a token that is none
  fun_induction mergeStars as with
  | case1 a b r hs ih =>
    rw [List.cons_append, List.cons_append, mergeStars, if_pos hs, ← List.cons_append, ih]
  | case2 a b r hs ih =>
    rw [List.cons_append, List.cons_append, mergeStars, if_neg hs, ← List.cons_append, ih]
    rfl
  | case3 ts hts =>
    cases ts with
    | nil => cases bs <;> simp [mergeStars, hc]
    | cons a ts =>
      cases ts with
      | nil => cases bs <;> simp [mergeStars, hc]
      | cons b r => exact absurd rfl (hts a b r)

theorem dropWhile_star_append {c : Token} (hc : c ≠ star) (as bs : List Token) :
    (as ++ c :: bs).dropWhile (· == star) = as.dropWhile (· == star) ++ c :: bs := by
  have hp : (c == star) = false := by simpa using hc
  exact (takeWhile_stop (p := fun t => t == star) hp as bs).2

theorem trimStars_append {c : Token} (hc : c ≠ star) (as bs : List Token) :
    trimStars (as ++ c :: bs) =
      as.dropWhile (· == star) ++ c :: (bs.reverse.dropWhile (· == star)).reverse := by
  rw [trimStars, dropWhile_star_append hc, List.reverse_append, List.reverse_cons,
    List.append_assoc, List.singleton_append, dropWhile_star_append hc]
  simp

/-- The tokens of a group, every product written. -/
def settle (ts : List Token) : List Token :=
  mergeStars (insertProducts ts)

/-- The tokens before a group, every product written. -/
def settleBefore (ts : List Token) : List Token :=
  (mergeStars (insertProducts ts ++ linkLast ts (symbol '('))).dropWhile (· == star)

/-- The tokens behind a group, every product written. -/
def settleBehind (ts : List Token) : List Token :=
  ((mergeStars (linkHead (symbol ')') ts ++ insertProducts ts)).reverse.dropWhile (· == star)).reverse

/-- The products in a group, before it and behind it are written independently. -/
theorem explicitProducts_group (ps ms qs : List Token) :
    explicitProducts (ps ++ symbol '(' :: (ms ++ symbol ')' :: qs)) =
      settleBefore ps ++ symbol '(' :: (settle ms ++ symbol ')' :: settleBehind qs) := by
  have ho : symbol '(' ≠ star := by decide
  have hc : symbol ')' ≠ star := by decide
  rw [explicitProducts_eq, collapseProducts, insertProducts_open, insertProducts_close,
    mergeStars_append ho, mergeStars_append hc, trimStars_append ho, List.reverse_append,
    List.reverse_cons, List.append_assoc, List.singleton_append, dropWhile_star_append hc]
  simp [settleBefore, settle, settleBehind]

theorem settle_operator {c : Char} (hc : c ∈ ['+', '-', '/', '^']) (as bs : List Token) :
    settle (as ++ symbol c :: bs) = settle as ++ symbol c :: settle bs := by
  have hall : ∀ c ∈ ['+', '-', '/', '^'], (symbol c).startsOperand = false ∧
      (symbol c).endsOperand = false ∧ symbol c ≠ star := by
    decide
  obtain ⟨h1, h2, h3⟩ := hall c hc
  rw [settle, insertProducts_operator h1 h2, mergeStars_append h3]
  rfl

theorem settle_open (ts : List Token) : settle (symbol '(' :: ts) = symbol '(' :: settle ts := by
  rw [settle, insertProducts_cons, linkHead_of_not_ends (by decide)]
  exact mergeStars_append (by decide) [] (insertProducts ts)

theorem settle_close (ts : List Token) : settle (ts ++ [symbol ')']) = settle ts ++ [symbol ')'] := by
  rw [settle, insertProducts_close, mergeStars_append (by decide)]
  rfl

end FieldWalk.Formula
