import FieldWalk.Proofs.Markup.Seam
import Mathlib.Data.List.Basic
import Mathlib.Data.List.Induction
import Mathlib.Logic.Relation
/-!
# Blanks in markup

A blank is read in two places only: behind a backslash, which escapes it, and behind a command word,
which it keeps apart from a letter. Everywhere else it may be left out: in groups and in the index of a
root, between a command and its arguments, and where these are missing.
-/

namespace FieldWalk.Markup

open Text

/-! ## Where a blank is read -/

/-- What the end of a text belongs to. -/
inductive Place where
  | plain
  /-- A backslash that escapes what follows. -/
  | escape
  /-- A command word, which takes in the letters that follow. -/
  | word
deriving DecidableEq

namespace Place

/-- The place behind one more character. -/
def next (p : Place) (c : Char) : Place :=
  match p with
  | plain => if c = '\\' then escape else plain
  | escape => if isLetter c then word else plain
  | word => if isLetter c then word else if c = '\\' then escape else plain

theorem next_of_stop {c : Char} (hl : isLetter c = false) (he : c ≠ '\\') (p : Place) :
    p.next c = plain := by
  cases p <;> simp [next, hl, he]

theorem next_word {c : Char} (hl : isLetter c = false) : word.next c = plain.next c := by
  simp [next, hl]

theorem of_next_escape {p : Place} {c : Char} (h : p.next c = escape) : p ≠ escape ∧ c = '\\' := by
  cases p <;> grind [next]

theorem of_next_word {p : Place} {c : Char} (h : p.next c = word) : p ≠ plain ∧ isLetter c = true := by
  cases p <;> grind [next]

end Place

/-- The place at the end of a text. -/
def place (s : List Char) : Place :=
  s.foldl Place.next .plain

theorem place_cons {c : Char} (hc : c ≠ '\\') (s : List Char) : place (c :: s) = place s := by
  simp [place, Place.next, hc]

theorem place_behind {c : Char} (hl : isLetter c = false) (he : c ≠ '\\') (p s : List Char) :
    place (p ++ c :: s) = place s := by
  rw [place, List.foldl_append, List.foldl_cons, Place.next_of_stop hl he, place]

theorem place_escaped {d : Char} (hd : isLetter d = false) (s : List Char) :
    place ('\\' :: d :: s) = place s := by
  simp [place, Place.next, hd]

theorem place_command {w : List Char} (hn : w ≠ []) (hw : ∀ c ∈ w, isLetter c = true) :
    place ('\\' :: w) = .word := by
  have hword : ∀ u : List Char, (∀ c ∈ u, isLetter c = true) → u.foldl Place.next .word = .word := by
    intro u hu
    induction u with
    | nil => rfl
    | cons c u ih =>
      obtain ⟨hc, hu⟩ := List.forall_mem_cons.1 hu
      rw [List.foldl_cons, Place.next, if_pos hc, ih hu]
  obtain ⟨c, w, rfl⟩ := List.exists_cons_of_ne_nil hn
  obtain ⟨hc, hw⟩ := List.forall_mem_cons.1 hw
  simp [place, Place.next, hc, hword w hw]

theorem place_command_append {w r : List Char} (hn : w ≠ []) (hw : ∀ c ∈ w, isLetter c = true)
    (hr : NoLetter r) (hne : r ≠ []) : place ('\\' :: w ++ r) = place r := by
  obtain ⟨c, r, rfl⟩ := List.exists_cons_of_ne_nil hne
  have h := place_command hn hw
  rw [place] at h
  rw [place, List.foldl_append, h, List.foldl_cons, Place.next_word (hr c rfl), place, List.foldl_cons]

theorem place_snoc (s : List Char) (c : Char) : place (s ++ [c]) = (place s).next c := by
  rw [place, List.foldl_append, List.foldl_cons, List.foldl_nil, place]

/-- An escape at the end is a backslash that is not itself escaped. -/
theorem eq_of_place_escape {s : List Char} (h : place s = .escape) :
    ∃ p, place p ≠ .escape ∧ s = p ++ ['\\'] := by
  rcases List.eq_nil_or_concat' s with rfl | ⟨p, c, rfl⟩
  · cases h
  · rw [place_snoc] at h
    obtain ⟨hp, rfl⟩ := Place.of_next_escape h
    exact ⟨p, hp, rfl⟩

/-- A command word at the end is made of the letters behind an escape. -/
theorem eq_of_place_word {s : List Char} (h : place s = .word) :
    ∃ p w, place p ≠ .escape ∧ w ≠ [] ∧ (∀ c ∈ w, isLetter c = true) ∧ s = p ++ '\\' :: w := by
  induction s using List.reverseRecOn with
  | nil => cases h
  | append_singleton s c ih =>
    rw [place_snoc] at h
    obtain ⟨hplain, hc⟩ := Place.of_next_word h
    cases hs : place s with
    | plain => exact absurd hs hplain
    | escape =>
      obtain ⟨p, hp, rfl⟩ := eq_of_place_escape hs
      exact ⟨p, [c], hp, List.cons_ne_nil _ _, by simpa using hc, by simp⟩
    | word =>
      obtain ⟨p, w, hp, -, hw, rfl⟩ := ih hs
      have hwc : ∀ d ∈ w ++ [c], isLetter d = true := by
        simpa [or_imp, forall_and] using ⟨hw, hc⟩
      exact ⟨p, w ++ [c], hp, by simp, hwc, by simp⟩

/-- A blank between the texts is not read: the first does not end in an escape, nor in a command word
with a letter behind the blank. -/
structure Loose (s t : List Char) : Prop where
  escape : place s ≠ .escape
  word : place s = .word → NoLetter t

/-- Nothing is read into a blank that stands neither behind a backslash nor between a command word and
a letter. -/
theorem loose_of_apart {s t : List Char} (he : s.getLast? ≠ some '\\')
    (hw : ∀ p w, s = p ++ '\\' :: w → place p ≠ .escape → w ≠ [] →
      (∀ c ∈ w, isLetter c = true) → NoLetter t) : Loose s t where
  escape h := by
    obtain ⟨p, -, rfl⟩ := eq_of_place_escape h
    exact he (by simp)
  word h := by
    obtain ⟨p, w, hp, hn, hl, rfl⟩ := eq_of_place_word h
    exact hw p w rfl hp hn hl

theorem loose_nil (t : List Char) : Loose [] t :=
  ⟨nofun, nofun⟩

theorem Loose.congr {s s' t : List Char} (h : Loose s t) (hs : place s = place s') : Loose s' t :=
  ⟨hs ▸ h.escape, fun hw => h.word (hs.trans hw)⟩

theorem Loose.tail {s t : List Char} {c : Char} (h : Loose (c :: s) t) (he : c ≠ '\\') : Loose s t :=
  h.congr (place_cons he s)

theorem Loose.behind {p s t : List Char} {c : Char} (h : Loose (p ++ c :: s) t)
    (hl : isLetter c = false) (he : c ≠ '\\') : Loose s t :=
  h.congr (place_behind hl he p s)

theorem NoLetter.of_isPrefix {t u : List Char} (h : NoLetter t) (hu : u <+: t) : NoLetter u := by
  cases u with
  | nil => exact noLetter_nil
  | cons c u =>
    obtain ⟨v, rfl⟩ := hu
    exact noLetter_cons (h c rfl) u

theorem Loose.of_isPrefix {s t u : List Char} (h : Loose s t) (hu : u <+: t) : Loose s u :=
  ⟨h.escape, fun hw => (h.word hw).of_isPrefix hu⟩

/-- The text itself, or the text without one blank that is not read. -/
inductive Respaced : List Char → List Char → Prop where
  | refl (s : List Char) : Respaced s s
  | drop {s t : List Char} {b : Char} (hb : isBlank b = true) (h : Loose s t) :
    Respaced (s ++ b :: t) (s ++ t)

/-! ## Groups -/

/-- Texts with the same things read off their fronts, up to a blank. -/
inductive Alike : Option (List Char × List Char) → Option (List Char × List Char) → Prop where
  | none : Alike none none
  | some {a a' r r' : List Char} (ha : Respaced a a') (hr : Respaced r r') :
    Alike (some (a, r)) (some (a', r'))

theorem Alike.refl (g : Option (List Char × List Char)) : Alike g g := by
  cases g with
  | none => exact .none
  | some g => exact .some (.refl g.1) (.refl g.2)

section
variable (o k : Char)

/-- A group ends in a text or goes on behind it, whatever stands there. -/
theorem splitGroup_append (depth : Nat) (s : List Char) :
    (∃ u v, s = u ++ k :: v ∧ ∀ x, splitGroup o k depth (s ++ x) = (u, v ++ x)) ∨
      ∃ d, ∀ x, splitGroup o k depth (s ++ x) =
        (s ++ (splitGroup o k d x).1, (splitGroup o k d x).2) := by
  induction s generalizing depth with
  | nil => exact .inr ⟨depth, fun _ => rfl⟩
  | cons c s ih =>
    -- behind a character that is content
    have next : ∀ d, (∀ x, splitGroup o k depth (c :: s ++ x) =
          (c :: (splitGroup o k d (s ++ x)).1, (splitGroup o k d (s ++ x)).2)) →
        (∃ u v, c :: s = u ++ k :: v ∧ ∀ x, splitGroup o k depth (c :: s ++ x) = (u, v ++ x)) ∨
          ∃ d, ∀ x, splitGroup o k depth (c :: s ++ x) =
            (c :: s ++ (splitGroup o k d x).1, (splitGroup o k d x).2) := by
      intro d hd
      rcases ih d with ⟨u, v, rfl, h⟩ | ⟨d', h⟩
      · exact .inl ⟨c :: u, v, rfl, fun x => by rw [hd, h]⟩
      · exact .inr ⟨d', fun x => by rw [hd, h]; rfl⟩
    by_cases ho : c = o
    · exact next (depth + 1) fun x => by simp [splitGroup, ho]
    · by_cases hk : c = k
      · subst hk
        by_cases hd : depth ≤ 1
        · exact .inl ⟨[], s, rfl, fun x => by simp [splitGroup, ho, hd]⟩
        · exact next (depth - 1) fun x => by simp [splitGroup, ho, hd]
      · exact next depth fun x => by simp [splitGroup, ho, hk]

theorem splitGroup_isPrefix (depth : Nat) (s : List Char) : (splitGroup o k depth s).1 <+: s := by
  induction s generalizing depth with
  | nil => exact List.prefix_refl _
  | cons c s ih =>
    have next : ∀ d, c :: (splitGroup o k d s).1 <+: c :: s := fun d =>
      List.cons_prefix_cons.2 ⟨rfl, ih d⟩
    simp only [splitGroup]
    split
    · exact next _
    · split
      · split
        · exact List.nil_prefix
        · exact next _
      · exact next _

end

/-- The delimiters of a group are neither escapes nor blanks, nor is its closer a letter. -/
theorem delimiter_stops {o k : Char} (h : closerOf? o = some k) :
    (o ≠ '\\' ∧ isBlank o = false) ∧
      isLetter k = false ∧ k ≠ '\\' ∧ isBlank k = false := by
  rcases closerOf?_cases h with ⟨rfl, rfl⟩ | ⟨rfl, rfl⟩ <;> decide

section
variable {b : Char} (hb : isBlank b = true)
include hb

theorem group?_alike {c : Char} {s t : List Char} (h : Loose (c :: s) t) :
    Alike (group? (c :: (s ++ b :: t))) (group? (c :: (s ++ t))) := by
  simp only [group?]
  cases hk : closerOf? c with
  | none => exact .none
  | some k =>
    obtain ⟨⟨hce, hcb⟩, hkl, hke, hkb⟩ := delimiter_stops hk
    have hs : Loose s t := h.tail hce
    simp only [Option.map_some]
    rcases splitGroup_append c k 1 s with ⟨u, v, rfl, hsplit⟩ | ⟨d, hsplit⟩
    · -- the blank stands behind the group
      rw [hsplit, hsplit]
      exact .some (.refl u) (.drop hb (hs.behind hkl hke))
    · -- the group is still open at the blank, which belongs to its content
      rw [hsplit, hsplit, splitGroup, if_neg (ne_of_isBlank hb hcb), if_neg (ne_of_isBlank hb hkb)]
      exact .some (.drop hb (hs.of_isPrefix (splitGroup_isPrefix c k d t))) (.refl _)

/-! ## Arguments -/

/-- Without the blanks in front, the texts are the same or still differ by one blank behind a first
character. -/
theorem dropWhile_blanks {s t : List Char} (h : Loose s t) :
    (s ++ b :: t).dropWhile isBlank = (s ++ t).dropWhile isBlank ∨
      ∃ c u, Loose (c :: u) t ∧ ∀ x, (s ++ x).dropWhile isBlank = c :: (u ++ x) := by
  induction s with
  | nil => exact .inl (by simp [hb])
  | cons c s ih =>
    by_cases hc : isBlank c = true
    · have hs : Loose s t := h.tail (ne_of_isBlank hc (by decide))
      simpa [hc] using ih hs
    · exact .inr ⟨c, s, h, fun x => by simp [hc]⟩

end

theorem argument?_alike {x y : List Char} (h : Respaced x y) : Alike (argument? x) (argument? y) := by
  cases h with
  | refl => exact .refl _
  | drop hb h =>
    rw [argument?, argument?]
    rcases dropWhile_blanks hb h with he | ⟨c, u, hu, he⟩
    · rw [he]
      exact .refl _
    · rw [he, he]
      exact group?_alike hb hu

/-- What stands before the first closing bracket, and what behind it. -/
def toBracket? (s : List Char) : Option (List Char × List Char) :=
  match s.dropWhile (· != ']') with
  | [] => none
  | _ :: rest => some (s.takeWhile (· != ']'), rest)

theorem rootIndex?_bracket {s r : List Char} (h : s.dropWhile isBlank = '[' :: r) :
    rootIndex? s = toBracket? r := by
  rw [rootIndex?, h]
  rfl

theorem toBracket?_alike {b : Char} (hb : isBlank b = true) {s t : List Char} (h : Loose s t) :
    Alike (toBracket? (s ++ b :: t)) (toBracket? (s ++ t)) := by
  rw [toBracket?, toBracket?]
  by_cases hm : ']' ∈ s
  · -- the blank stands behind the index
    obtain ⟨u, v, rfl, hu⟩ := List.eq_append_cons_of_mem hm
    have hout : ∀ c ∈ u, (c != ']') = true := fun c hc => by
      simpa using ne_of_mem_of_not_mem hc hu
    have hstop := fun x => takeWhile_append_stop hout (bne_self_eq_false' ..) (v ++ x)
    simp only [List.append_assoc, List.cons_append, (hstop _).1, (hstop _).2]
    exact .some (.refl u) (.drop hb (h.behind (by decide) (by decide)))
  · -- the index is still open at the blank
    have hs : ∀ c ∈ s, (c != ']') = true := fun c hc => by
      simpa using ne_of_mem_of_not_mem hc hm
    have hne : b ≠ ']' := ne_of_isBlank hb (by decide)
    rw [List.takeWhile_append_of_pos hs, List.takeWhile_append_of_pos hs,
      List.dropWhile_append_of_pos hs, List.dropWhile_append_of_pos hs,
      List.takeWhile_cons_of_pos (p := (· != ']')) (bne_iff_ne.2 hne),
      List.dropWhile_cons_of_pos (p := (· != ']')) (bne_iff_ne.2 hne)]
    cases t.dropWhile (· != ']') with
    | nil => exact .none
    | cons d r =>
      have ht : t.takeWhile (· != ']') <+: t := List.takeWhile_prefix _
      exact .some (.drop hb (h.of_isPrefix ht)) (.refl r)

theorem rootIndex?_alike {x y : List Char} (h : Respaced x y) :
    Alike (rootIndex? x) (rootIndex? y) := by
  cases h with
  | refl => exact .refl _
  | drop hb h =>
    rcases dropWhile_blanks hb h with he | ⟨c, u, hu, he⟩
    · rw [rootIndex?, rootIndex?, he]
      exact .refl _
    · by_cases hc : c = '['
      · subst hc
        rw [rootIndex?_bracket (he _), rootIndex?_bracket (he _)]
        exact toBracket?_alike hb (hu.tail (by decide))
      · have hnone : ∀ x, (c :: x).head? ≠ some '[' := fun x h => hc (Option.some.inj h)
        rw [rootIndex?_eq_none (he _ ▸ hnone _), rootIndex?_eq_none (he _ ▸ hnone _)]
        exact .none

/-- The same construct with parts that differ by at most a blank each. -/
inductive Construct.Alike : Construct → Construct → Prop where
  | fraction {a a' b b' r r' : List Char} (ha : Respaced a a') (hb : Respaced b b')
    (hr : Respaced r r') : Alike (.fraction a b r) (.fraction a' b' r')
  | halfFraction {a a' r r' : List Char} (ha : Respaced a a') (hr : Respaced r r') :
    Alike (.halfFraction a r) (.halfFraction a' r')
  | root {a a' r r' : List Char} (ha : Respaced a a') (hr : Respaced r r') :
    Alike (.root a r) (.root a' r')
  | indexedRoot {i i' a a' r r' : List Char} (hi : Respaced i i') (ha : Respaced a a')
    (hr : Respaced r r') : Alike (.indexedRoot i a r) (.indexedRoot i' a' r')
  | name {a a' r r' : List Char} (ha : Respaced a a') (hr : Respaced r r') :
    Alike (.name a r) (.name a' r')
  | bare : Alike .bare .bare

/-- A command reads the same arguments with and without the blank. -/
theorem arguments_alike (command : Command) {x y : List Char} (h : Respaced x y) :
    (command.arguments x).Alike (command.arguments y) := by
  have harg := argument?_alike h
  have hindex := rootIndex?_alike h
  cases command with
  | fraction =>
    simp only [Command.arguments]
    generalize argument? x = g, argument? y = g' at harg
    cases harg with
    | none => exact .bare
    | @some a a' r r' ha hr =>
      have hden := argument?_alike hr
      simp only
      generalize argument? r = g, argument? r' = g' at hden
      cases hden with
      | none => exact .halfFraction ha hr
      | some hb hr => exact .fraction ha hb hr
  | root =>
    simp only [Command.arguments]
    generalize rootIndex? x = g, rootIndex? y = g' at hindex
    cases hindex with
    | none =>
      simp only
      generalize argument? x = g, argument? y = g' at harg
      cases harg with
      | none => exact .bare
      | some ha hr => exact .root ha hr
    | @some i i' r r' hi hr =>
      have hrad := argument?_alike hr
      simp only
      generalize argument? r = g, argument? r' = g' at hrad
      cases hrad with
      | none => exact .bare
      | some ha hr => exact .indexedRoot hi ha hr
  | operatorName =>
    simp only [Command.arguments]
    generalize argument? x = g, argument? y = g' at harg
    cases harg with
    | none => exact .bare
    | some ha hr => exact .name ha hr
  | sizing | plain _ | unknown => exact .bare

/-! ## Translation -/

theorem Respaced.nonblank {x y : List Char} (h : Respaced x y) :
    x.filter (!isBlank ·) = y.filter (!isBlank ·) := by
  cases h with
  | refl => rfl
  | drop hb _ => simp [hb]

/-- A construct has the same flat text with and without the blanks, if its parts do. -/
theorem Construct.Alike.flat {x y : Construct} (h : x.Alike y) {n : Nat} (hx : x.Within n)
    (ih : ∀ u v : List Char, u.length < n → Respaced u v → flatten u = flatten v)
    {rest rest' : List Char} (hr : flatten rest = flatten rest') (command : Command) (name : String) :
    x.flat command name rest = y.flat command name rest' := by
  cases h with
  | fraction ha hb hr =>
    simp only [Within] at hx
    simp only [Construct.flat]
    rw [ih _ _ (by omega) ha, ih _ _ (by omega) hb, ih _ _ (by omega) hr]
  | halfFraction ha hr =>
    simp only [Within] at hx
    simp only [Construct.flat]
    rw [ih _ _ (by omega) ha, ih _ _ (by omega) hr]
  | root ha hr =>
    simp only [Within] at hx
    simp only [Construct.flat]
    rw [ih _ _ (by omega) ha, ih _ _ (by omega) hr]
  | indexedRoot hi ha hr =>
    simp only [Within] at hx
    simp only [Construct.flat]
    rw [ih _ _ (by omega) hi, ih _ _ (by omega) ha, ih _ _ (by omega) hr]
  | name ha hr =>
    simp only [Within] at hx
    simp only [Construct.flat]
    rw [ha.nonblank, ih _ _ (by omega) hr]
  | bare => simp only [Construct.flat, hr]

/-- An escape with a blank behind it, if the blanks behind its command do not matter. -/
theorem flatten_escape_respaced {b : Char} (hb : isBlank b = true) {s t : List Char}
    (h : Loose ('\\' :: s) t)
    (ih : ∀ u v : List Char, u.length ≤ (s ++ b :: t).length → Respaced u v → flatten u = flatten v) :
    flatten ('\\' :: s ++ b :: t) = flatten ('\\' :: s ++ t) := by
  have hsplit : s.takeWhile isLetter ++ s.dropWhile isLetter = s := List.takeWhile_append_dropWhile
  have hletters : ∀ d ∈ s.takeWhile isLetter, isLetter d = true := fun d hd =>
    List.all_eq_true.1 List.all_takeWhile d hd
  have hno := noLetter_dropWhile s
  generalize s.takeWhile isLetter = w at hsplit hletters
  generalize s.dropWhile isLetter = r at hsplit hno
  subst hsplit
  by_cases hne : w = []
  · -- an escaped symbol; the escape itself is not the last character
    subst hne
    cases r with
    | nil => exact absurd rfl h.escape
    | cons d r =>
      have hd : isLetter d = false := hno d rfl
      have hr : Loose r t := h.congr (place_escaped hd r)
      simp only [List.nil_append, List.cons_append, List.length_cons] at ih ⊢
      rw [flatten_escape hd, flatten_escape hd, ih _ _ (Nat.le_succ _) (.drop hb hr)]
  · -- a command word, behind which the blank may be the first character
    have hr : Loose r t ∧ NoLetter (r ++ t) := by
      by_cases hnil : r = []
      · subst hnil
        rw [List.append_nil] at h
        exact ⟨loose_nil t, h.word (place_command hne hletters)⟩
      · obtain ⟨d, r, rfl⟩ := List.exists_cons_of_ne_nil hnil
        exact ⟨h.congr (place_command_append hne hletters hno hnil), noLetter_cons (hno d rfl) _⟩
    have hno' : NoLetter (r ++ b :: t) := hno.append (noLetter_cons (isLetter_of_isBlank hb) t)
    have hrest : Respaced (r ++ b :: t) (r ++ t) := .drop hb hr.1
    have hlen : (r ++ b :: t).length ≤ (w ++ r ++ b :: t).length := by simp
    rw [← List.cons_append, List.append_assoc, List.append_assoc,
      flatten_command hne hletters hno' rfl, flatten_command hne hletters hr.2 rfl]
    exact (arguments_alike _ hrest).flat (Command.arguments_within _ _)
      (fun u v hu => ih u v (Nat.le_trans (Nat.le_of_lt hu) hlen)) (ih _ _ hlen hrest) _ _

/-- A blank that is not read leaves no trace in the flat text, nor in the warnings. -/
theorem flatten_respaced {x y : List Char} (h : Respaced x y) : flatten x = flatten y := by
  induction hn : x.length using Nat.strongRecOn generalizing x y with
  | ind n ih =>
    subst hn
    cases h with
    | refl => rfl
    | @drop s t b hb h =>
      have shorter : ∀ u v : List Char, u.length < (s ++ b :: t).length → Respaced u v →
          flatten u = flatten v := fun u v hu huv => ih _ hu huv rfl
      cases s with
      | nil => exact flatten_blank hb t
      | cons d s =>
        by_cases hd : d = '\\'
        · subst hd
          exact flatten_escape_respaced hb h fun u v hu => shorter u v (Nat.lt_succ_of_le hu)
        · have hgroup := group?_alike hb h
          show flatten (d :: (s ++ b :: t)) = flatten (d :: (s ++ t))
          cases hg : group? (d :: (s ++ b :: t)) with
          | none =>
            have hk : closerOf? d = none := Option.map_eq_none_iff.1 hg
            have hrest : flatten (s ++ b :: t) = flatten (s ++ t) :=
              shorter _ _ (Nat.lt_succ_self _) (.drop hb (h.tail hd))
            rw [flatten_char hd hk, flatten_char hd hk, hrest]
          | some g =>
            obtain ⟨a, r⟩ := g
            have hlen := group?_length hg
            cases hg' : group? (d :: (s ++ t)) with
            | none => rw [hg, hg'] at hgroup; cases hgroup
            | some g' =>
              rw [hg, hg'] at hgroup
              cases hgroup with
              | some ha hr =>
                rw [flatten_group hg, flatten_group hg', shorter _ _ (by simp at hlen ⊢; omega) ha,
                  shorter _ _ (by simp at hlen ⊢; omega) hr]

/-- A markup, and the same without one blank that is not read. -/
inductive LeftOut : String → String → Prop where
  | blank {s t : List Char} {b : Char} (hb : isBlank b = true) (h : Loose s t) :
    LeftOut (String.ofList (s ++ b :: t)) (String.ofList (s ++ t))

theorem LeftOut.translate {m m' : String} (h : LeftOut m m') :
    Markup.translate m = Markup.translate m' := by
  obtain ⟨hb, h⟩ := h
  rw [Markup.translate, Markup.translate, String.toList_ofList, String.toList_ofList,
    flatten_respaced (.drop hb h)]

/-- A blank may be left out unless it stands behind a backslash, or between a command word and a letter.
Markups that differ in such blanks only have the same translation and the same warnings. -/
theorem blanks_left_out :
    (∀ (s t : List Char) (b : Char), isBlank b = true → s.getLast? ≠ some '\\' →
        (∀ p w, s = p ++ '\\' :: w → place p ≠ .escape → w ≠ [] →
          (∀ c ∈ w, isLetter c = true) → NoLetter t) →
        translate (String.ofList (s ++ b :: t)) = translate (String.ofList (s ++ t))) ∧
      ∀ m m', Relation.EqvGen LeftOut m m' → translate m = translate m' := by
  refine ⟨fun s t b hb he hw => (LeftOut.blank hb (loose_of_apart he hw)).translate, ?_⟩
  intro m m' h
  induction h with
  | rel m m' h => exact h.translate
  | refl m => rfl
  | symm m m' _ ih => exact ih.symm
  | trans m₁ m₂ m₃ _ _ ih ih' => exact ih.trans ih'

/-- A blank between a fraction and its numerator, and one that moves inside the index of a root. -/
theorem spaced_arguments :
    let fraction := "\\frac".toList
    let group := "\x7bx\x7d2".toList
    let before := String.ofList ("\\sqrt[".toList ++ ' ' :: "3]\x7bx\x7d".toList)
    let behind := String.ofList ("\\sqrt[3".toList ++ ' ' :: "]\x7bx\x7d".toList)
    (isBlank ' ' = true ∧ fraction.getLast? ≠ some '\\' ∧ NoLetter group) ∧
      translate (String.ofList (fraction ++ ' ' :: group)) =
        translate (String.ofList (fraction ++ group)) ∧
      Relation.EqvGen LeftOut before behind ∧ translate before = translate behind ∧
      translate before = ("(x)^(1/(3))", []) := by
  intro fraction group before behind
  obtain ⟨hone, hall⟩ := blanks_left_out
  have hb : isBlank ' ' = true := by decide
  have he : fraction.getLast? ≠ some '\\' := by decide
  have hn : NoLetter group := noLetter_cons (by decide) _
  have hbefore : LeftOut before "\\sqrt[3]\x7bx\x7d" :=
    .blank (s := "\\sqrt[".toList) hb ⟨by decide, fun h => absurd h (by decide)⟩
  have hbehind : LeftOut behind "\\sqrt[3]\x7bx\x7d" :=
    .blank (s := "\\sqrt[3".toList) hb ⟨by decide, fun h => absurd h (by decide)⟩
  have hmoved : Relation.EqvGen LeftOut before behind :=
    (Relation.EqvGen.rel _ _ hbefore).trans _ _ _ ((Relation.EqvGen.rel _ _ hbehind).symm _ _)
  exact ⟨⟨hb, he, hn⟩, hone _ _ ' ' hb he fun _ _ _ _ _ _ => hn, hmoved, hall _ _ hmoved,
    by decide +kernel⟩

/-- The two blanks that are read. -/
example : translate "\\sin x" ≠ translate "\\sinx" ∧ translate "\\ x" ≠ translate "\\x" := by
  decide +kernel

end FieldWalk.Markup
