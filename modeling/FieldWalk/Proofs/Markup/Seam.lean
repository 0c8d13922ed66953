import FieldWalk.Proofs.Formula.Lexing
import FieldWalk.Proofs.Markup.Flat
/-!
# Markup falls apart at an operator

Where delimiters nest in the markup before an operator, no command or group there reads beyond its
end, so the operator and everything behind it are translated as if nothing stood before
(`flatten_operator`). Nothing is asked of the markup behind the operator.
-/

namespace FieldWalk.Markup

open Text

/-! ## Groups that end in their text -/

/-- The delimiters of both kinds are well nested. -/
inductive Nested : List Char → Prop where
  | nil : Nested []
  | char {c : Char} {s : List Char} (hc : c ∉ ['{', '}', '(', ')']) (hs : Nested s) : Nested (c :: s)
  | group {o k : Char} {s t : List Char} (ho : closerOf? o = some k) (hs : Nested s) (ht : Nested t) :
    Nested (o :: s ++ k :: t)

/-- The text holds the end of every group that opens in it: with more text behind, a group is read
as without. -/
def Ends (s : List Char) : Prop :=
  ∀ u, u <:+ s → u ≠ [] → ∀ rest, group? (u ++ rest) = (group? u).map fun g => (g.1, g.2 ++ rest)

theorem closerOf?_cases {o k : Char} (h : closerOf? o = some k) :
    (o = '{' ∧ k = '}') ∨ (o = '(' ∧ k = ')') := by
  unfold closerOf? at h
  split at h
  · exact .inl ⟨rfl, (Option.some.inj h).symm⟩
  · exact .inr ⟨rfl, (Option.some.inj h).symm⟩
  · cases h

theorem Nested.balanced {s : List Char} (h : Nested s) : Balanced s := by
  induction h with
  | nil => exact balanced_nil
  | char hc _ ih => exact balanced_cons hc ih
  | @group o k s t ho _ _ ihs iht =>
    have he : o :: s ++ k :: t = (o :: s ++ [k]) ++ t := by simp
    rw [he]
    rcases closerOf?_cases ho with ⟨rfl, rfl⟩ | ⟨rfl, rfl⟩
    · exact balanced_append (balanced_braces ihs) iht
    · exact balanced_append (balanced_parens ihs) iht

theorem group?_balanced {o k : Char} (ho : closerOf? o = some k) {s : List Char} (hs : Balanced s)
    (t : List Char) : group? (o :: s ++ k :: t) = some (s, t) := by
  rcases closerOf?_cases ho with ⟨rfl, rfl⟩ | ⟨rfl, rfl⟩
  · exact group?_braces hs.braces t
  · exact group?_parens hs.parens t

theorem suffix_append_cases {α : Type} {u s t : List α} (h : u <:+ s ++ t) :
    u <:+ t ∨ ∃ s', s' <:+ s ∧ s' ≠ [] ∧ u = s' ++ t := by
  rcases List.suffix_or_suffix_of_suffix h (List.suffix_append s t) with h' | ⟨s', rfl⟩
  · exact .inl h'
  · cases s' with
    | nil => exact .inl (List.suffix_refl t)
    | cons a s' =>
      obtain ⟨p, hp⟩ := h
      rw [← List.append_assoc] at hp
      exact .inr ⟨a :: s', ⟨p, List.append_cancel_right hp⟩, List.cons_ne_nil a s', rfl⟩

theorem Nested.ends {s : List Char} (h : Nested s) : Ends s := by
  induction h with
  | nil =>
    intro u hu hne
    exact absurd (List.suffix_nil.1 hu) hne
  | @char c s hc _ ih =>
    intro u hu hne rest
    rcases List.suffix_cons_iff.1 hu with rfl | hu
    · have hn : closerOf? c = none := by
        simp only [List.mem_cons, List.not_mem_nil, or_false, not_or] at hc
        exact closerOf?_eq_none hc.1 hc.2.2.1
      rw [List.cons_append, group?_eq_none hn, group?_eq_none hn]
      rfl
    · exact ih u hu hne rest
  | @group o k s t ho hs _ ihs iht =>
    intro u hu hne rest
    rw [List.cons_append] at hu
    rcases List.suffix_cons_iff.1 hu with rfl | hu
    · -- the outer group itself
      have hg := group?_balanced ho hs.balanced
      have ha : o :: (s ++ k :: t) ++ rest = o :: s ++ k :: (t ++ rest) := by simp
      rw [ha, hg, ← List.cons_append, hg]
      rfl
    · rcases suffix_append_cases hu with hu | ⟨s', hs', hne', rfl⟩
      · rcases List.suffix_cons_iff.1 hu with rfl | hu
        · have hn : closerOf? k = none := by
            rcases closerOf?_cases ho with ⟨-, rfl⟩ | ⟨-, rfl⟩ <;> rfl
          rw [List.cons_append, group?_eq_none hn, group?_eq_none hn]
          rfl
        · exact iht u hu hne rest
      · rw [List.append_assoc, ihs s' hs' hne', ihs s' hs' hne', Option.map_map]
        simp only [Function.comp_def, List.append_assoc]

theorem splitGroup_suffix (o k : Char) (depth : Nat) (s : List Char) :
    (splitGroup o k depth s).2 <:+ s := by
  induction s generalizing depth with
  | nil => exact List.suffix_refl _
  | cons c s ih =>
    simp only [splitGroup]
    split
    · exact (ih _).trans (List.suffix_cons c s)
    · split
      · split
        · exact List.suffix_cons c s
        · exact (ih _).trans (List.suffix_cons c s)
      · exact (ih _).trans (List.suffix_cons c s)

theorem group?_suffix {s content rest : List Char} (h : group? s = some (content, rest)) :
    rest <:+ s := by
  cases s with
  | nil => cases h
  | cons c s =>
    obtain ⟨k, -, hk⟩ := Option.map_eq_some_iff.1 h
    have hs := splitGroup_suffix c k 1 s
    rw [hk] at hs
    exact hs.trans (List.suffix_cons c s)

theorem argument?_suffix {s content rest : List Char} (h : argument? s = some (content, rest)) :
    rest <:+ s :=
  (group?_suffix h).trans (List.dropWhile_suffix isBlank)

/-! ## Arguments that end in their text -/

/-- An operator that may stand between two pieces of markup. -/
def operators : List Char :=
  ['+', '-', '*', '/']

/-- No blank, letter, escape, bracket or opening delimiter: neither a command nor its arguments go
on with it. -/
theorem operator_stops {c : Char} (h : c ∈ operators) :
    isBlank c = false ∧ isLetter c = false ∧ c ≠ '\\' ∧ c ≠ '[' ∧ closerOf? c = none := by
  have hall : ∀ c ∈ operators, isBlank c = false ∧ isLetter c = false ∧ c ≠ '\\' ∧ c ≠ '[' ∧
      closerOf? c = none := by
    decide
  exact hall c h

/-- Markup that may stand before an operator. -/
structure Front (s : List Char) : Prop where
  ends : Ends s
  bracket : '[' ∉ s
  escape : s.getLast? ≠ some '\\'

theorem Front.suffix {s u : List Char} (h : Front s) (hu : u <:+ s) : Front u where
  ends v hv := h.ends v (hv.trans hu)
  bracket hb := h.bracket (hu.subset hb)
  escape he := by
    obtain ⟨p, rfl⟩ := hu
    exact h.escape (by rw [List.getLast?_append, he]; rfl)

theorem rootIndex?_eq_none {s : List Char} (h : (s.dropWhile isBlank).head? ≠ some '[') :
    rootIndex? s = none := by
  unfold rootIndex?
  split
  · rename_i r hr
    rw [hr] at h
    exact absurd rfl h
  · rfl

/-- The construct with more text behind it. -/
def Construct.extend (tail : List Char) : Construct → Construct
  | .fraction a b r => .fraction a b (r ++ tail)
  | .halfFraction a r => .halfFraction a (r ++ tail)
  | .root a r => .root a (r ++ tail)
  | .indexedRoot i a r => .indexedRoot i a (r ++ tail)
  | .name a r => .name a (r ++ tail)
  | .bare => .bare

section
variable {s : List Char} {c : Char} (hs : Front s) (hc : c ∈ operators) (rest : List Char)
include hs hc

theorem argument?_operator :
    argument? (s ++ c :: rest) = (argument? s).map fun g => (g.1, g.2 ++ c :: rest) := by
  obtain ⟨hb, -, -, -, ho⟩ := operator_stops hc
  have hd : (s ++ c :: rest).dropWhile isBlank = s.dropWhile isBlank ++ c :: rest :=
    (Formula.takeWhile_stop hb s rest).2
  rw [argument?, argument?, hd]
  by_cases hn : s.dropWhile isBlank = []
  · rw [hn, List.nil_append, group?_eq_none ho]
    rfl
  · exact hs.ends _ (List.dropWhile_suffix isBlank) hn _

theorem rootIndex?_operator : rootIndex? (s ++ c :: rest) = none ∧ rootIndex? s = none := by
  obtain ⟨hb, -, -, hc', -⟩ := operator_stops hc
  have hd : (s ++ c :: rest).dropWhile isBlank = s.dropWhile isBlank ++ c :: rest :=
    (Formula.takeWhile_stop hb s rest).2
  have hm : (s.dropWhile isBlank).head? ≠ some '[' := fun h =>
    hs.bracket ((List.dropWhile_suffix isBlank).subset (List.mem_of_mem_head? h))
  refine ⟨rootIndex?_eq_none ?_, rootIndex?_eq_none hm⟩
  rw [hd]
  cases hu : s.dropWhile isBlank with
  | nil => exact fun h => hc' (Option.some.inj h)
  | cons d u => rwa [hu] at hm

/-- A command reads the same arguments with an operator behind its text. -/
theorem arguments_operator (command : Command) :
    command.arguments (s ++ c :: rest) = (command.arguments s).extend (c :: rest) := by
  have ha := argument?_operator hs hc rest
  obtain ⟨hi, hi'⟩ := rootIndex?_operator hs hc rest
  cases command with
  | fraction =>
    simp only [Command.arguments, ha]
    cases h : argument? s with
    | none => rfl
    | some g =>
      have hg := argument?_operator (hs.suffix (argument?_suffix h)) hc rest
      simp only [Option.map_some, hg]
      cases argument? g.2 <;> rfl
  | root =>
    simp only [Command.arguments, ha, hi, hi']
    cases argument? s <;> rfl
  | operatorName =>
    simp only [Command.arguments, ha]
    cases argument? s <;> rfl
  | sizing | plain _ | unknown => rfl

end

/-! ## Translation -/

theorem Flat.append_assoc (a b c : Flat) : a ++ b ++ c = a ++ (b ++ c) := by
  show Flat.mk (a.text ++ b.text ++ c.text) (a.warnings ++ b.warnings ++ c.warnings) = _
  rw [List.append_assoc, List.append_assoc]
  rfl

/-- The text behind a construct: all of it if no argument was read. -/
def Construct.behind (rest : List Char) : Construct → List Char
  | .fraction _ _ r | .halfFraction _ r | .root _ r | .indexedRoot _ _ r | .name _ r => r
  | .bare => rest

theorem rootIndex?_suffix {s index rest : List Char} (h : rootIndex? s = some (index, rest)) :
    rest <:+ s := by
  unfold rootIndex? at h
  split at h
  · rename_i r hr
    have hs : r <:+ s := (List.suffix_cons '[' r).trans (hr ▸ List.dropWhile_suffix isBlank)
    split at h
    · cases h
    · rename_i d rest' hd
      cases h
      exact ((List.suffix_cons d _).trans (hd ▸ List.dropWhile_suffix _)).trans hs
  · cases h

/-- How a construct is read off the front of a text. -/
inductive Construct.Read (s : List Char) : Construct → Prop where
  | fraction {a b r rest : List Char} (ha : argument? s = some (a, r))
    (hb : argument? r = some (b, rest)) : Read s (.fraction a b rest)
  | halfFraction {a rest : List Char} (ha : argument? s = some (a, rest)) :
    Read s (.halfFraction a rest)
  | root {a rest : List Char} (ha : argument? s = some (a, rest)) : Read s (.root a rest)
  | indexedRoot {i a r rest : List Char} (hi : rootIndex? s = some (i, r))
    (ha : argument? r = some (a, rest)) : Read s (.indexedRoot i a rest)
  | name {a rest : List Char} (ha : argument? s = some (a, rest)) : Read s (.name a rest)
  | bare : Read s .bare

theorem arguments_read (command : Command) (s : List Char) : (command.arguments s).Read s := by
  cases command with
  | fraction =>
    simp only [Command.arguments]
    split
    · exact .bare
    · rename_i ha
      split
      · exact .halfFraction ha
      · rename_i hb
        exact .fraction ha hb
  | root =>
    simp only [Command.arguments]
    split
    · split
      · exact .bare
      · rename_i ha
        exact .root ha
    · rename_i hi
      split
      · exact .bare
      · rename_i ha
        exact .indexedRoot hi ha
  | operatorName =>
    simp only [Command.arguments]
    split
    · exact .bare
    · rename_i ha
      exact .name ha
  | sizing | plain _ | unknown => exact .bare

theorem Construct.Read.behind_suffix {x : Construct} {s : List Char} (h : x.Read s) :
    x.behind s <:+ s := by
  cases h with
  | fraction ha hb => exact (argument?_suffix hb).trans (argument?_suffix ha)
  | halfFraction ha | root ha | name ha => exact argument?_suffix ha
  | indexedRoot hi ha => exact (argument?_suffix ha).trans (rootIndex?_suffix hi)
  | bare => exact List.suffix_refl s

/-- What stands behind a construct comes last in its flat text. -/
theorem Construct.flat_extend (x : Construct) (command : Command) (name : String)
    {rest tail : List Char} {f : Flat}
    (h : flatten (x.behind rest ++ tail) = flatten (x.behind rest) ++ f) :
    (x.extend tail).flat command name (rest ++ tail) = x.flat command name rest ++ f := by
  cases x <;> simp only [behind] at h <;> simp only [extend, flat, h, Flat.append_assoc]

theorem flatten_escape {d : Char} (hd : isLetter d = false) (s : List Char) :
    flatten ('\\' :: d :: s) =
      (if d = '{' then Flat.char '(' else if d = '}' then Flat.char ')' else Flat.empty)
        ++ flatten s := by
  have hw : (d :: s).takeWhile isLetter = [] := by simp [hd]
  by_cases ho : d = '{'
  · subst ho
    rw [flatten]
    simp [hw]
  · by_cases hc : d = '}'
    · subst hc
      rw [flatten]
      simp [hw]
    · rw [flatten]
      · simp [hw, ho, hc]
        rfl
      · exact ho
      · exact hc

theorem noLetter_dropWhile (s : List Char) : NoLetter (s.dropWhile isLetter) := by
  induction s with
  | nil => exact noLetter_nil
  | cons d s ih =>
    by_cases hd : isLetter d = true
    · rwa [List.dropWhile_cons_of_pos hd]
    · rw [List.dropWhile_cons_of_neg hd]
      exact noLetter_cons (by simpa using hd) s

section
variable {s : List Char} {c : Char} (hc : c ∈ operators) (rest : List Char)
include hc

/-- An escape before an operator, if the text behind its command falls apart there. -/
theorem flatten_escape_operator (hs : Front ('\\' :: s))
    (ih : ∀ u, u <:+ s → flatten (u ++ c :: rest) = flatten u ++ (Flat.char c ++ flatten rest)) :
    flatten ('\\' :: s ++ c :: rest) = flatten ('\\' :: s) ++ (Flat.char c ++ flatten rest) := by
  have hsplit : s.takeWhile isLetter ++ s.dropWhile isLetter = s := List.takeWhile_append_dropWhile
  have hsuf : s.dropWhile isLetter <:+ s := List.dropWhile_suffix isLetter
  have hno := noLetter_dropWhile s
  generalize hw : s.takeWhile isLetter = w at hsplit
  generalize s.dropWhile isLetter = r at hsplit hsuf hno
  have hno' : NoLetter (r ++ c :: rest) := hno.append (noLetter_cons (operator_stops hc).2.1 rest)
  by_cases hne : w = []
  · -- an escaped symbol; the escape itself is not the last character
    subst hne
    rw [List.nil_append] at hsplit
    subst hsplit
    cases r with
    | nil => exact absurd rfl hs.escape
    | cons d r =>
      have hd : isLetter d = false := hno d rfl
      rw [List.cons_append, List.cons_append, flatten_escape hd, flatten_escape hd,
        ih r (List.suffix_cons d r), Flat.append_assoc]
  · have hletters : ∀ d ∈ w, isLetter d = true := fun d hd =>
      List.all_eq_true.1 List.all_takeWhile d (hw ▸ hd)
    have hr := hs.suffix (hsuf.trans (List.suffix_cons _ s))
    subst hsplit
    rw [← List.cons_append, List.append_assoc, flatten_command hne hletters hno' rfl,
      flatten_command hne hletters hno rfl, arguments_operator hr hc]
    exact Construct.flat_extend _ _ _ (ih _ ((arguments_read _ r).behind_suffix.trans hsuf))

/-- An operator divides markup: before it delimiters nest, no bracket stands and no escape comes
last, behind it anything may stand. -/
theorem flatten_operator (hs : Front s) :
    flatten (s ++ c :: rest) = flatten s ++ (Flat.char c ++ flatten rest) := by
  obtain ⟨hb, -, he, -, ho⟩ := operator_stops hc
  induction hn : s.length using Nat.strongRecOn generalizing s with
  | ind n ih =>
    -- a command, a group or a character leaves a shorter text behind to which the same applies
    have next : ∀ u, u <:+ s → u.length < s.length →
        flatten (u ++ c :: rest) = flatten u ++ (Flat.char c ++ flatten rest) :=
      fun u hu hlt => ih _ (hn ▸ hlt) (hs.suffix hu) rfl
    cases s with
    | nil =>
      rw [List.nil_append, flatten_char he ho, hb, flatten_nil]
      rfl
    | cons d s =>
      have hshort : ∀ u, u <:+ s → u <:+ d :: s ∧ u.length < (d :: s).length := fun u hu =>
        ⟨hu.trans (List.suffix_cons d s), Nat.lt_succ_of_le hu.length_le⟩
      by_cases hd : d = '\\'
      · subst hd
        exact flatten_escape_operator hc rest hs fun u hu => next u (hshort u hu).1 (hshort u hu).2
      · cases hg : group? (d :: s) with
        | some g =>
          have hg' := hs.ends _ (List.suffix_refl _) (List.cons_ne_nil d s) (c :: rest)
          have hlen := group?_length hg
          rw [hg] at hg'
          rw [List.cons_append] at hg' ⊢
          rw [flatten_group hg, flatten_group hg', next g.2 (group?_suffix hg) (by omega),
            Flat.append_assoc]
        | none =>
          have hn : closerOf? d = none := Option.map_eq_none_iff.1 hg
          have hs' := next s (hshort s (List.suffix_refl s)).1 (hshort s (List.suffix_refl s)).2
          rw [List.cons_append, flatten_char hd hn, flatten_char hd hn, hs']
          split
          · rfl
          · rw [Flat.append_assoc]

end

/-! ## No blanks in flat text -/

/-- A flat text without blanks. -/
def Unblank (f : Flat) : Prop :=
  ∀ c ∈ f.text, isBlank c = false

theorem Unblank.append {f g : Flat} (hf : Unblank f) (hg : Unblank g) : Unblank (f ++ g) :=
  fun c hc => (List.mem_append.1 hc).elim (hf c) (hg c)

theorem unblank_char {c : Char} (hc : isBlank c = false) : Unblank (Flat.char c) := by
  intro d hd
  rwa [List.mem_singleton.1 hd]

theorem Unblank.paren {f : Flat} (hf : Unblank f) : Unblank f.paren :=
  ((unblank_char (by decide)).append hf).append (unblank_char (by decide))

/-- What a command without arguments stands for. -/
theorem unblank_bareText {w : List Char} (hw : ∀ c ∈ w, isLetter c = true) :
    Unblank ((Command.ofWord (String.ofList w)).bareText (String.ofList w)) := by
  intro c hc
  rcases bareText_letters hw c hc with hl | rfl
  · rw [Bool.eq_false_iff]
    intro hb
    rw [isLetter_of_isBlank hb] at hl
    cases hl
  · decide

/-- Blanks are dropped wherever they stand. -/
theorem unblank_flatten (s : List Char) : Unblank (flatten s) := by
  have hslash : Unblank (Flat.char '/') := unblank_char (by decide)
  have hclose : Unblank (Flat.char ')') := unblank_char (by decide)
  fun_induction flatten s with
  | case1 => exact nofun
  | case2 r _ _ ih => exact (unblank_char (by decide)).append ih
  | case3 r _ _ ih => exact hclose.append ih
  | case4 d r _ _ _ _ ih => exact ih
  | case5 => exact nofun
  | case6 cs _ _ _ _ _ a b r _ iha ihb ihr =>
    exact ((iha.paren.append hslash).append ihb.paren).append ihr
  | case7 cs _ _ _ _ _ a r _ iha ihr =>
    have hwarn : Unblank (Flat.warn (.noDenominator (String.ofList (cs.takeWhile isLetter)))) := nofun
    exact ((hwarn.append iha.paren).append hslash).append ihr
  | case8 cs _ _ _ _ _ a r _ iha ihr =>
    have hroot : Unblank (Flat.lit "sqrt(") := show ∀ c ∈ "sqrt(".toList, _ by decide
    exact ((hroot.append iha.paren).append hclose).append ihr
  | case9 cs _ _ _ _ _ i a r _ iha ihi ihr =>
    have hpower : Unblank (Flat.lit "^(1/") := show ∀ c ∈ "^(1/".toList, _ by decide
    exact (((iha.paren.append hpower).append ihi.paren).append hclose).append ihr
  | case10 cs _ _ _ _ _ a r _ ihr =>
    have hname : Unblank ⟨a.filter (!isBlank ·), []⟩ := fun c hc => by
      simpa using (List.mem_filter.1 hc).2
    exact hname.append ihr
  | case11 cs _ _ _ _ _ _ ihr =>
    have hletters : ∀ c ∈ cs.takeWhile isLetter, isLetter c = true := fun c hc =>
      List.all_eq_true.1 List.all_takeWhile c hc
    exact (unblank_bareText hletters).append ihr
  | case12 c cs _ content r _ ih ihr => exact ih.paren.append ihr
  | case13 c cs _ _ _ ih => exact ih
  | case14 c cs _ _ hb ih => exact (unblank_char (by simpa using hb)).append ih

end FieldWalk.Markup
