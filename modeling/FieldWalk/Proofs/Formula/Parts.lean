import FieldWalk.Proofs.Formula.Lexemes
/-!
# The parts of a cut name

A name of letters and digits is cut twice: into runs of letters and runs of digits, and a run of letters
at the longest known name from the left, a single letter where none begins. Each part can be judged at
its place in the name, by what stands before it and behind it, and there is only one way to cut a name so
that every part is right.
-/

namespace FieldWalk.Formula

open Text Token

/-! ## The longest name at the front -/

/-- The name is the longest known one at the front of letters, or one letter where none is at the
front. -/
structure LongestName (name letters : List Char) : Prop where
  front : name <+: letters
  known_or_letter : name ∈ knownNames ∨
    (∃ c, c.isAlpha = true ∧ name = [c]) ∧ ∀ w ∈ knownNames, ¬ w <+: letters
  longest : ∀ w ∈ knownNames, w <+: letters → w.length ≤ name.length

theorem longestName_take {c : Char} {cs : List Char} (hc : c.isAlpha = true) :
    LongestName ((c :: cs).take (nameLength (c :: cs))) (c :: cs) := by
  have hlen : ((c :: cs).take (nameLength (c :: cs))).length = nameLength (c :: cs) := by
    rw [List.length_take, min_eq_left (nameLength_le (List.cons_ne_nil c cs))]
  refine ⟨List.take_prefix _ _, ?_, fun w hw hp => (length_le_nameLength hw hp).trans_eq hlen.symm⟩
  rcases take_nameLength (c :: cs) with h1 | hk
  · refine .inr ⟨⟨c, hc, by rw [h1, List.take_succ_cons, List.take_zero]⟩, fun w hw hp => ?_⟩
    -- a known name would be longer than the letter that is cut off
    have hshort := length_le_nameLength hw hp
    have := (known_length hw).1
    omega
  · exact .inl hk

theorem LongestName.ne_nil {n letters : List Char} (h : LongestName n letters) : n ≠ [] := by
  rcases h.known_or_letter with hn | ⟨⟨c, -, rfl⟩, -⟩
  · exact List.ne_nil_of_length_pos (by have := (known_length hn).1; omega)
  · exact List.cons_ne_nil c []

theorem LongestName.letters {n letters : List Char} (h : LongestName n letters) :
    ∀ c ∈ n, c.isAlpha = true := by
  rcases h.known_or_letter with hn | ⟨⟨c, hc, rfl⟩, -⟩
  · exact known_letters hn
  · simpa using hc

theorem LongestName.unique {m n letters : List Char} (hm : LongestName m letters)
    (hn : LongestName n letters) : m = n := by
  have hlen : m.length = n.length := by
    rcases hm.known_or_letter with hkm | ⟨⟨c, -, rfl⟩, hno⟩
    · rcases hn.known_or_letter with hkn | ⟨-, hno⟩
      · exact Nat.le_antisymm (hn.longest m hkm hm.front) (hm.longest n hkn hn.front)
      · exact absurd hm.front (hno m hkm)
    · rcases hn.known_or_letter with hkn | ⟨⟨d, -, rfl⟩, -⟩
      · exact absurd hn.front (hno n hkn)
      · rfl
  rw [List.prefix_iff_eq_take.1 hm.front, List.prefix_iff_eq_take.1 hn.front, hlen]

/-! ## Parts at their places -/

/-- The token is a right part between the text before it and the text behind it: a whole run of digits,
or of the run of letters that goes on here the longest name at its front. -/
def Token.FitsBetween (before after : List Char) : Token → Prop
  | ident name => LongestName name ((name ++ after).takeWhile Char.isAlpha)
  | number digits => Whole digits ∧ (∀ c ∈ before.getLast?, isDigit c = false) ∧ NoDigit after
  | symbol _ => False

/-- Every one of the tokens is a right part at its place, behind some text. -/
def Segmented (before : List Char) (ts : List Token) : Prop :=
  ∀ ps t qs, ts = ps ++ t :: qs → t.FitsBetween (before ++ joinTokens ps) (joinTokens qs)

theorem segmented_nil (before : List Char) : Segmented before [] := by
  intro ps t qs h
  exact absurd h.symm (List.append_ne_nil_of_right_ne_nil ps (List.cons_ne_nil t qs))

theorem segmented_cons_iff {before : List Char} {t : Token} {ts : List Token} :
    Segmented before (t :: ts) ↔
      t.FitsBetween before (joinTokens ts) ∧ Segmented (before ++ t.text) ts := by
  constructor
  · intro h
    refine ⟨by simpa [joinTokens] using h [] t ts rfl, fun ps u qs hts => ?_⟩
    have := h (t :: ps) u qs (by rw [hts, List.cons_append])
    rwa [joinTokens_cons, ← List.append_assoc] at this
  · rintro ⟨ht, hts⟩ ps u qs h
    cases ps with
    | nil =>
      obtain ⟨rfl, rfl⟩ := List.cons.inj h
      simpa [joinTokens] using ht
    | cons p ps =>
      obtain ⟨rfl, rfl⟩ := List.cons.inj h
      rw [joinTokens_cons, ← List.append_assoc]
      exact hts ps u qs rfl

/-! ## One way to cut -/

theorem Token.FitsBetween.text_ne_nil {before after : List Char} {t : Token}
    (h : t.FitsBetween before after) : t.text ≠ [] := by
  cases t with
  | ident name => exact LongestName.ne_nil h
  | number digits => exact h.1.1
  | symbol c => exact h.elim

theorem isDigit_of_isAlpha {c : Char} (h : c.isAlpha = true) : isDigit c = false := by
  rw [Bool.eq_false_iff]
  intro hd
  have hn := isNameStart_of_isDigit hd
  simp [isNameStart, h] at hn

theorem letters_ne_digits {name digits s t : List Char} (hne : name ≠ [])
    (hl : ∀ c ∈ name, c.isAlpha = true) (hd : Whole digits) : name ++ s ≠ digits ++ t := by
  obtain ⟨c, name, rfl⟩ := List.exists_cons_of_ne_nil hne
  obtain ⟨d, digits, rfl⟩ := List.exists_cons_of_ne_nil hd.1
  intro h
  obtain rfl : c = d := (List.cons.inj h).1
  have hdigit := hd.2 c List.mem_cons_self
  rw [isDigit_of_isAlpha (hl c List.mem_cons_self)] at hdigit
  cases hdigit

/-- The text decides which part is right at its front. -/
theorem Token.FitsBetween.unique {before after after' : List Char} {t u : Token}
    (ht : t.FitsBetween before after) (hu : u.FitsBetween before after')
    (h : t.text ++ after = u.text ++ after') : t = u := by
  cases t with
  | symbol c => exact ht.elim
  | ident name =>
    have hname : LongestName name ((name ++ after).takeWhile Char.isAlpha) := ht
    cases u with
    | symbol c => exact hu.elim
    | ident name' =>
      rw [show name ++ after = name' ++ after' from h] at hname
      exact congrArg ident (hname.unique hu)
    | number digits => exact absurd h (letters_ne_digits hname.ne_nil hname.letters hu.1)
  | number digits =>
    cases u with
    | symbol c => exact hu.elim
    | ident name =>
      have hname : LongestName name ((name ++ after').takeWhile Char.isAlpha) := hu
      exact absurd h.symm (letters_ne_digits hname.ne_nil hname.letters ht.1)
    | number digits' =>
      have hrun : digits ++ after = digits' ++ after' := h
      have hds := (takeWhile_digits ht.1.2 ht.2.2).1
      rw [hrun, (takeWhile_digits hu.1.2 hu.2.2).1] at hds
      rw [hds]

theorem Segmented.unique {before : List Char} {ts us : List Token} (ht : Segmented before ts)
    (hu : Segmented before us) (h : joinTokens ts = joinTokens us) : ts = us := by
  induction ts generalizing before us with
  | nil =>
    cases us with
    | nil => rfl
    | cons u us =>
      have hne := (segmented_cons_iff.1 hu).1.text_ne_nil
      rw [joinTokens_cons] at h
      exact absurd h.symm (List.append_ne_nil_of_left_ne_nil hne _)
  | cons t ts ih =>
    obtain ⟨ht, hts⟩ := segmented_cons_iff.1 ht
    cases us with
    | nil =>
      rw [joinTokens_cons] at h
      exact absurd h (List.append_ne_nil_of_left_ne_nil ht.text_ne_nil _)
    | cons u us =>
      obtain ⟨hu, hus⟩ := segmented_cons_iff.1 hu
      rw [joinTokens_cons, joinTokens_cons] at h
      obtain rfl := ht.unique hu h
      rw [ih hts hus (List.append_cancel_left h)]

/-! ## Cutting -/

/-- A known name is cut like any other run of letters: it is the longest name at its own front. -/
theorem splitIdentifier_kept {name : List Char} (h : ∀ c ∈ name, isKept c = true) :
    splitIdentifier name = splitPieces name := by
  by_cases hk : name ∈ knownNames
  · rw [splitIdentifier_letters (known_letters hk), splitPieces_letters (known_letters hk)]
  · have hu : '_' ∉ name := fun hm => absurd (h _ hm) (by decide)
    rw [splitIdentifier, if_neg (by simp [hk, hu])]

theorem joinTokens_splitPieces_kept {s : List Char} (h : ∀ c ∈ s, isKept c = true) :
    joinTokens (splitPieces s) = s := by
  rw [joinTokens_splitPieces, List.filter_eq_self.2 h]

/-- The names that letters are cut into stand before parts that begin with no letter. -/
theorem segmented_splitLetters {before letters : List Char} (hl : ∀ c ∈ letters, c.isAlpha = true)
    {ts : List Token} (hts : ∀ c ∈ (joinTokens ts).head?, c.isAlpha = false)
    (h : Segmented (before ++ letters) ts) : Segmented before (splitLetters letters ++ ts) := by
  fun_induction splitLetters letters generalizing before with
  | case1 => rwa [List.append_nil] at h
  | case2 c cs n =>
    rename_i ih
    have hrest : ∀ d ∈ (c :: cs).drop n, d.isAlpha = true := fun d hd => hl d (List.mem_of_mem_drop hd)
    rw [List.cons_append, segmented_cons_iff]
    refine ⟨?_, ih hrest ?_⟩
    · -- the letters that go on from here are the ones that are still to be cut
      have hrun : ((c :: cs).take n ++ joinTokens (splitLetters ((c :: cs).drop n) ++ ts)).takeWhile
          Char.isAlpha = c :: cs := by
        rw [joinTokens_append, joinTokens_splitLetters, ← List.append_assoc, List.take_append_drop,
          List.takeWhile_append_of_pos hl]
        cases hjoin : joinTokens ts with
        | nil => simp
        | cons d s =>
          rw [hjoin] at hts
          simp [hts d rfl]
      rw [FitsBetween, hrun]
      exact longestName_take (hl c List.mem_cons_self)
    · rwa [text, List.append_assoc, List.take_append_drop]

theorem segmented_splitPieces {before s : List Char} (hs : ∀ c ∈ s, isKept c = true)
    (hb : ∀ c ∈ s.head?, isDigit c = true → ∀ d ∈ before.getLast?, isDigit d = false) :
    Segmented before (splitPieces s) := by
  fun_induction splitPieces s generalizing before with
  | case1 => exact segmented_nil before
  | case2 c cs hc ih =>
    have hrest : ∀ d ∈ cs.dropWhile Char.isAlpha, isKept d = true :=
      fun d hd => hs d (List.mem_cons_of_mem c ((List.dropWhile_sublist _).subset hd))
    have hrun : ∀ d ∈ c :: cs.takeWhile Char.isAlpha, d.isAlpha = true :=
      List.forall_mem_cons.2 ⟨hc, fun _ => List.mem_takeWhile_imp⟩
    refine segmented_splitLetters hrun ?_ (ih hrest fun _ _ _ d hd => ?_)
    · rw [joinTokens_splitPieces_kept hrest]
      exact dropWhile_stops Char.isAlpha cs
    · rw [List.getLast?_append_of_ne_nil _ (List.cons_ne_nil _ _)] at hd
      exact isDigit_of_isAlpha (hrun d (List.mem_of_getLast? hd))
  | case3 c cs hc hd ih =>
    have hrest : ∀ d ∈ cs.dropWhile isDigit, isKept d = true :=
      fun d hd => hs d (List.mem_cons_of_mem c ((List.dropWhile_sublist _).subset hd))
    have hend := noDigit_dropWhile cs
    rw [segmented_cons_iff, joinTokens_splitPieces_kept hrest]
    refine ⟨⟨⟨List.cons_ne_nil _ _, ?_⟩, hb c rfl hd, hend⟩, ih hrest fun d hd hdigit => ?_⟩
    · exact List.forall_mem_cons.2 ⟨hd, digits_takeWhile cs⟩
    · rw [hend d hd] at hdigit
      cases hdigit
  | case4 c cs hc hd ih =>
    have hkept := hs c List.mem_cons_self
    simp [isKept, hc, hd] at hkept

/-- A name of Latin letters and decimal digits is cut into parts that make it up again. At its place in
the name each of them is a whole run of digits or the longest known name that begins there among the
letters, or one letter where none begins. No part is cut any further, and there is no other way to cut
the name into such parts. -/
theorem leftmost_longest_parts {name : List Char} (h : ∀ c ∈ name, isKept c = true) :
    joinTokens (splitIdentifier name) = name ∧
      (∀ ps t qs, splitIdentifier name = ps ++ t :: qs →
        t.FitsBetween (joinTokens ps) (joinTokens qs)) ∧
      (∀ n, ident n ∈ splitIdentifier name → splitIdentifier n = [ident n]) ∧
      ∀ ts, joinTokens ts = name →
        (∀ ps t qs, ts = ps ++ t :: qs → t.FitsBetween (joinTokens ps) (joinTokens qs)) →
        ts = splitIdentifier name := by
  have hjoin := joinTokens_splitPieces_kept h
  have hsegmented : Segmented [] (splitPieces name) :=
    segmented_splitPieces h fun _ _ _ d hd => by cases hd
  rw [splitIdentifier_kept h]
  refine ⟨hjoin, hsegmented, fun n hn => (part_splitPieces name _ hn).2, fun ts hts hfits => ?_⟩
  have hother : Segmented [] ts := hfits
  exact hother.unique hsegmented (hts.trans hjoin.symm)

/-- Names that begin, end and go on in each other, among numbers. -/
theorem overlapping_names_cut :
    let name := "asinhx2pix10sinsinhe".toList
    let parts := [ident "asin".toList, ident ['h'], ident ['x'], number ['2'], ident "pi".toList,
      ident ['x'], number "10".toList, ident "sin".toList, ident "sinh".toList, ident ['e']]
    (∀ c ∈ name, isKept c = true) ∧ splitIdentifier name = parts ∧ joinTokens parts = name ∧
      (number "10".toList).FitsBetween "asinhx2pix".toList "sinsinhe".toList ∧
      (ident "sinh".toList).FitsBetween "asinhx2pix10sin".toList ['e'] ∧
      splitIdentifier "sinh".toList = [ident "sinh".toList] := by
  intro name parts
  have hkept : ∀ c ∈ name, isKept c = true := by decide +kernel
  have hcut : splitIdentifier name = parts := by decide +kernel
  obtain ⟨hjoin, hfits, huncut, -⟩ := leftmost_longest_parts hkept
  rw [hcut] at hjoin hfits huncut
  refine ⟨hkept, hcut, hjoin, ?_, ?_, huncut _ (by decide)⟩
  · exact hfits (parts.take 6) (number "10".toList) (parts.drop 7) rfl
  · exact hfits (parts.take 8) (ident "sinh".toList) (parts.drop 9) rfl

end FieldWalk.Formula
