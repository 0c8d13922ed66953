import FieldWalk.Proofs.Markup.Flat
import Mathlib.Data.List.Infix
import Mathlib.Order.Bounds.Basic
/-!
# How far a group reaches

The reader keeps a depth, which says how many groups are open. The text has no depths, only openers and
closers: a group ends at the first position up to which, its own opener included, there are as many of
the one as of the other. Where there is none the group takes the rest of the text. Delimiters of the
other kind are not counted.
-/

namespace FieldWalk.Markup

section
variable {o k : Char}

/-! ## Depths -/

/-- With so many groups open before it, the text closes at no point more than are open there. -/
def Unclosed (o k : Char) (depth : Nat) (s : List Char) : Prop :=
  ∀ p, p <+: s → p.count k ≤ p.count o + depth

theorem unclosed_nil (depth : Nat) : Unclosed o k depth [] := by
  intro p hp
  rw [List.prefix_nil.1 hp]
  exact Nat.zero_le _

/-- A character moves the depth by what it is. -/
theorem unclosed_cons {c : Char} {depth depth' : Nat}
    (hd : depth + [c].count o = depth' + [c].count k) {s : List Char} (h : Unclosed o k depth' s) :
    Unclosed o k depth (c :: s) := by
  intro p hp
  rcases List.prefix_cons_iff.1 hp with rfl | ⟨q, rfl, hq⟩
  · exact Nat.zero_le _
  · have := h q hq
    rw [← List.singleton_append, List.count_append, List.count_append]
    omega

/-- Reading with some groups open before the one that is read ends behind the closer that closes them
all, or takes a text that has no such closer. -/
inductive GroupOutcome (o k : Char) (depth : Nat) : List Char → Prop where
  | closed (content rest : List Char)
    (hread : splitGroup o k (depth + 1) (content ++ k :: rest) = (content, rest))
    (hcount : content.count k = content.count o + depth) (hopen : Unclosed o k depth content) :
    GroupOutcome o k depth (content ++ k :: rest)
  | unclosed {s : List Char} (hread : splitGroup o k (depth + 1) s = (s, []))
    (hopen : Unclosed o k depth s) : GroupOutcome o k depth s

/-- A character that is read over belongs to the content. -/
theorem GroupOutcome.cons {c : Char} {depth depth' : Nat}
    (hd : depth + [c].count o = depth' + [c].count k) {s : List Char}
    (hs : splitGroup o k (depth + 1) (c :: s) =
      (c :: (splitGroup o k (depth' + 1) s).1, (splitGroup o k (depth' + 1) s).2))
    (h : GroupOutcome o k depth' s) : GroupOutcome o k depth (c :: s) := by
  cases h with
  | closed content rest hread hcount hopen =>
    refine .closed (c :: content) rest (by rw [List.cons_append, hs, hread]) ?_
      (unclosed_cons hd hopen)
    rw [← List.singleton_append, List.count_append, List.count_append]
    omega
  | unclosed hread hopen => exact .unclosed (by rw [hs, hread]) (unclosed_cons hd hopen)

theorem splitGroup_outcome (hok : o ≠ k) (depth : Nat) (s : List Char) :
    GroupOutcome o k depth s := by
  induction s generalizing depth with
  | nil => exact .unclosed rfl (unclosed_nil depth)
  | cons c s ih =>
    by_cases ho : c = o
    · subst ho
      exact (ih (depth + 1)).cons (by simp [hok]) (by simp [splitGroup])
    · by_cases hk : c = k
      · subst hk
        cases depth with
        | zero => exact .closed [] s (by simp [splitGroup, ho]) rfl (unclosed_nil 0)
        | succ depth => exact (ih depth).cons (by simp [ho]) (by simp [splitGroup, ho])
      · exact (ih depth).cons (by simp [ho, hk]) (by simp [splitGroup, ho, hk])

/-! ## Positions -/

/-- The ends of the texts that begin at a position and hold as many openers as closers. -/
def balancedEnds (o k : Char) (s : List Char) (i : Nat) : Set Nat :=
  {e | i < e ∧ (s.extract i e).count o = (s.extract i e).count k}

instance (s : List Char) (i e : Nat) : Decidable (e ∈ balancedEnds o k s i) :=
  inferInstanceAs (Decidable (i < e ∧ (s.extract i e).count o = (s.extract i e).count k))

theorem extract_behind (u t : List Char) (n : Nat) :
    (u ++ o :: t).extract u.length (u.length + 1 + n) = o :: t.take n := by
  have hlen : u.length + 1 + n - u.length = n + 1 := by omega
  rw [List.extract_eq_take_drop, List.drop_left, hlen, List.take_succ_cons]

theorem drop_behind (u t : List Char) : (u ++ o :: t).drop (u.length + 1) = t := by
  rw [← List.drop_drop, List.drop_left, List.drop_one, List.tail_cons]

theorem extract_content (u content rest : List Char) :
    (u ++ o :: (content ++ k :: rest)).extract (u.length + 1) (u.length + 1 + content.length) =
      content := by
  rw [List.extract_eq_take_drop, drop_behind, Nat.add_sub_cancel_left, List.take_left]

theorem getElem?_closer (u content rest : List Char) :
    (u ++ o :: (content ++ k :: rest))[u.length + 1 + content.length]? = some k := by
  have htext : u ++ o :: (content ++ k :: rest) = (u ++ o :: content) ++ k :: rest := by simp
  have hlen : u.length + 1 + content.length = (u ++ o :: content).length := by simp; omega
  rw [htext, hlen, List.getElem?_append_right (Nat.le_refl _), Nat.sub_self, List.getElem?_cons_zero]

theorem mem_balancedEnds (hok : o ≠ k) {u t : List Char} {n : Nat} :
    u.length + 1 + n ∈ balancedEnds o k (u ++ o :: t) u.length ↔
      (t.take n).count k = (t.take n).count o + 1 := by
  have hlt : u.length < u.length + 1 + n := by omega
  rw [balancedEnds, Set.mem_ofPred_eq, extract_behind, List.count_cons_self, List.count_cons_of_ne hok,
    and_iff_right hlt, eq_comm]

/-- Every end stands some characters behind the opener. -/
theorem exists_of_mem_balancedEnds {s : List Char} {i e : Nat} (h : e ∈ balancedEnds o k s i) :
    ∃ n, e = i + 1 + n :=
  ⟨e - (i + 1), by have := h.1; omega⟩

theorem Unclosed.balancedEnds_eq_empty (hok : o ≠ k) {t : List Char} (h : Unclosed o k 0 t)
    (u : List Char) : balancedEnds o k (u ++ o :: t) u.length = ∅ := by
  rw [Set.eq_empty_iff_forall_notMem]
  intro e he
  obtain ⟨n, rfl⟩ := exists_of_mem_balancedEnds he
  have hcount := (mem_balancedEnds hok).1 he
  have := h _ (List.take_prefix n t)
  omega

/-- The closer behind a content with as many openers as closers is the first end. -/
theorem Unclosed.isLeast_balancedEnds (hok : o ≠ k) {content : List Char} (h : Unclosed o k 0 content)
    (hc : content.count k = content.count o) (u rest : List Char) :
    IsLeast (balancedEnds o k (u ++ o :: (content ++ k :: rest)) u.length)
      (u.length + 1 + content.length + 1) := by
  constructor
  · rw [Nat.add_assoc, mem_balancedEnds hok, List.take_length_add_append]
    simp [hc, hok.symm]
  · intro e he
    obtain ⟨n, rfl⟩ := exists_of_mem_balancedEnds he
    have hcount := (mem_balancedEnds hok).1 he
    by_contra hlt
    -- a shorter text is a beginning of the content
    rw [List.take_append_of_le_length (by omega)] at hcount
    have := h _ (List.take_prefix n content)
    omega

end

/-! ## Groups -/

theorem groupAt_of_not_opener {s : List Char} {index : Int}
    (h : ∀ i : Nat, index = i → s[i]? ≠ some '{' ∧ s[i]? ≠ some '(') :
    groupAt s index = ([], index) := by
  unfold groupAt
  split
  · rfl
  · rename_i hneg
    obtain ⟨i, rfl⟩ := Int.eq_ofNat_of_zero_le (by omega : 0 ≤ index)
    obtain ⟨h1, h2⟩ := h i rfl
    have hnone : group? (s.drop i) = none := by
      rw [← List.head?_drop] at h1 h2
      cases hs : s.drop i with
      | nil => rfl
      | cons c t =>
        rw [hs, List.head?_cons, Ne, Option.some.injEq] at h1 h2
        rw [group?, closerOf?_eq_none h1 h2, Option.map_none]
    rw [Int.toNat_natCast, hnone]

theorem groupAt_opener {o k : Char} (ho : closerOf? o = some k) (u t : List Char) :
    groupAt (u ++ o :: t) u.length =
      ((splitGroup o k 1 t).1, ((u ++ o :: t).length : Int) - (splitGroup o k 1 t).2.length) := by
  have hneg : ¬ (u.length : Int) < 0 := by omega
  have hg : group? ((u ++ o :: t).drop (u.length : Int).toNat) = some (splitGroup o k 1 t) := by
    rw [Int.toNat_natCast, List.drop_left, group?, ho, Option.map_some]
  rw [groupAt, if_neg hneg, hg]

/-- Where no group opens nothing is read. A group that opens reaches to the first position up to which,
its opener included, there are as many openers as closers: the closer stands right before it, and in
between each opener has its closer behind it. Without such a position it reaches to the end of the
text. -/
theorem shortest_balanced_group (s : List Char) (index : Int) :
    ((∀ i : Nat, index = i → s[i]? ≠ some '{' ∧ s[i]? ≠ some '(') → groupAt s index = ([], index)) ∧
    ∀ o k, (o, k) ∈ [('{', '}'), ('(', ')')] → ∀ i : Nat, index = i → s[i]? = some o →
      ((balancedEnds o k s i).Nonempty → ∃ e, IsLeast (balancedEnds o k s i) e ∧
        groupAt s index = (s.extract (i + 1) (e - 1), (e : Int)) ∧ s[e - 1]? = some k ∧
        (∀ p, p <+: s.extract (i + 1) (e - 1) → p.count k ≤ p.count o) ∧
        (s.extract (i + 1) (e - 1)).count o = (s.extract (i + 1) (e - 1)).count k) ∧
      (balancedEnds o k s i = ∅ → groupAt s index = (s.drop (i + 1), (s.length : Int))) := by
  refine ⟨groupAt_of_not_opener, ?_⟩
  rintro o k hpair i rfl ho
  obtain ⟨hclose, hok⟩ : closerOf? o = some k ∧ o ≠ k := by
    simp only [List.mem_cons, Prod.mk.injEq, List.not_mem_nil, or_false] at hpair
    rcases hpair with ⟨rfl, rfl⟩ | ⟨rfl, rfl⟩ <;> decide
  -- the text before the opener and behind it
  obtain ⟨u, t, rfl, rfl⟩ : ∃ u t, s = u ++ o :: t ∧ i = u.length := by
    obtain ⟨hi, rfl⟩ := List.getElem?_eq_some_iff.1 ho
    exact ⟨s.take i, s.drop (i + 1), by simp, (List.length_take_of_le hi.le).symm⟩
  have hread := groupAt_opener hclose u t
  cases splitGroup_outcome hok 0 t with
  | closed content rest hr hc hu =>
    have hleast := hu.isLeast_balancedEnds hok hc u rest
    refine ⟨fun _ => ⟨_, hleast, ?_⟩, fun hempty => ?_⟩
    · rw [Nat.add_sub_cancel, extract_content, getElem?_closer]
      refine ⟨?_, rfl, hu, hc.symm⟩
      rw [hread, hr, Prod.mk.injEq]
      refine ⟨rfl, ?_⟩
      simp only [List.length_append, List.length_cons]
      omega
    · rw [hempty] at hleast
      exact absurd hleast.1 (Set.notMem_empty _)
  | unclosed hr hu =>
    have hempty := hu.balancedEnds_eq_empty hok u
    refine ⟨fun h => absurd hempty h.ne_empty, fun _ => ?_⟩
    rw [hread, hr, drop_behind, List.length_nil, Int.natCast_zero, Int.sub_zero]

/-- A group in braces that holds a group of its own and a parenthesis; nothing closes the latter. -/
theorem crossed_groups_read :
    let s := "2\x7ba(b\x7bc\x7dd\x7de".toList
    IsLeast (balancedEnds '{' '}' s 1) 10 ∧ groupAt s 1 = ("a(b\x7bc\x7dd".toList, 10) ∧
      balancedEnds '(' ')' s 3 = ∅ ∧ groupAt s 3 = ("b\x7bc\x7dd\x7de".toList, 11) ∧
      groupAt s (-1) = ([], -1) := by
  intro s
  have hleast : IsLeast (balancedEnds '{' '}' s 1) 10 := by
    refine ⟨by decide, fun e he => ?_⟩
    have hnone : ∀ e < 10, e ∉ balancedEnds '{' '}' s 1 := by decide
    by_contra hlt
    exact hnone e (by omega) he
  have hempty : balancedEnds '(' ')' s 3 = ∅ := by
    have hfree : Unclosed '(' ')' 0 "b\x7bc\x7dd\x7de".toList := by
      intro p hp
      rw [List.count_eq_zero.2 fun hm => absurd (hp.subset hm) (by decide)]
      exact Nat.zero_le _
    exact hfree.balancedEnds_eq_empty (by decide) "2\x7ba".toList
  have hopen := shortest_balanced_group s
  obtain ⟨e, he, hgroup, -⟩ := ((hopen 1).2 '{' '}' (by decide) 1 rfl rfl).1 ⟨10, hleast.1⟩
  obtain rfl := he.unique hleast
  refine ⟨hleast, hgroup, hempty, ((hopen 3).2 '(' ')' (by decide) 3 rfl rfl).2 hempty, ?_⟩
  exact (hopen (-1)).1 fun i hi => absurd hi (by omega)

end FieldWalk.Markup
