import FieldWalk.Markup.Flat
import FieldWalk.Proofs.Markup.Group
/-!
# Translation piece by piece

The flat text of markup is put together from the flat texts of its pieces. `Reads s t` says that the
translator turns `s` into `t` and goes on behind it, as long as no letter follows that a command at the
end of `s` would take in; `Closed s t` says so whatever follows. Each construct of the notation has one
lemma.
-/

namespace FieldWalk.Markup

open Text

/-! ## One character or group at the front -/

theorem flatten_nil : flatten [] = Flat.empty := by
  rw [flatten]

theorem flatten_group {c : Char} {cs content rest : List Char}
    (h : group? (c :: cs) = some (content, rest)) :
    flatten (c :: cs) = (flatten content).paren ++ flatten rest := by
  have hc : c ≠ '\\' := by
    rintro rfl
    simp [group?, closerOf?] at h
  rw [flatten]
  · split
    · rename_i h'
      rw [h] at h'
      cases h'
      rfl
    · rename_i h'
      rw [h] at h'
      cases h'
  · exact hc

/-- A character that stands for itself. -/
def IsLiteral (c : Char) : Prop :=
  c ∉ ['\\', '{', '}', '(', ')', '[', ']'] ∧ isBlank c = false

theorem IsLiteral.free {c : Char} (h : IsLiteral c) : c ∉ ['{', '}', '(', ')'] := by
  have := h.1
  simp only [List.mem_cons, List.not_mem_nil, or_false, not_or] at this ⊢
  exact ⟨this.2.1, this.2.2.1, this.2.2.2.1, this.2.2.2.2.1⟩

theorem group?_eq_none {c : Char} (hc : closerOf? c = none) (cs : List Char) :
    group? (c :: cs) = none := by
  simp [group?, hc]

theorem closerOf?_eq_none {c : Char} (h1 : c ≠ '{') (h2 : c ≠ '(') : closerOf? c = none := by
  unfold closerOf?
  split <;> simp_all

theorem flatten_char {c : Char} (h0 : c ≠ '\\') (hc : closerOf? c = none) (cs : List Char) :
    flatten (c :: cs) = if isBlank c then flatten cs else Flat.char c ++ flatten cs := by
  rw [flatten]
  · split
    · rename_i h'
      rw [group?_eq_none hc] at h'
      cases h'
    · rfl
  · exact h0

theorem ne_of_isBlank {b c : Char} (hb : isBlank b = true) (hc : isBlank c = false) : b ≠ c := by
  rintro rfl
  rw [hb] at hc
  cases hc

theorem flatten_blank {b : Char} (hb : isBlank b = true) (cs : List Char) :
    flatten (b :: cs) = flatten cs := by
  have hg : closerOf? b = none :=
    closerOf?_eq_none (ne_of_isBlank hb (by decide)) (ne_of_isBlank hb (by decide))
  rw [flatten_char (ne_of_isBlank hb (by decide)) hg, if_pos hb]

/-! ## Commands -/

/-- No letter comes first. -/
def NoLetter (s : List Char) : Prop :=
  ∀ c ∈ s.head?, isLetter c = false

theorem noLetter_nil : NoLetter [] :=
  nofun

theorem noLetter_cons {c : Char} (h : isLetter c = false) (s : List Char) : NoLetter (c :: s) := by
  simpa [NoLetter] using h

theorem takeWhile_letters {w rest : List Char} (hw : ∀ c ∈ w, isLetter c = true)
    (hr : NoLetter rest) : (w ++ rest).takeWhile isLetter = w := by
  rw [List.takeWhile_append_of_pos hw]
  cases rest with
  | nil => simp
  | cons c rest => simp [hr c rfl]

theorem dropWhile_letters {w rest : List Char} (hw : ∀ c ∈ w, isLetter c = true)
    (hr : NoLetter rest) : (w ++ rest).dropWhile isLetter = rest := by
  rw [List.dropWhile_append_of_pos hw]
  cases rest with
  | nil => rfl
  | cons c rest => simp [hr c rfl]

/-- The flat text of a command with what it has read, and of the text behind it. -/
def Construct.flat (command : Command) (name : String) (rest : List Char) : Construct → Flat
  | .fraction a b r => (flatten a).paren ++ Flat.char '/' ++ (flatten b).paren ++ flatten r
  | .halfFraction a r =>
    Flat.warn (.noDenominator name) ++ (flatten a).paren ++ Flat.char '/' ++ flatten r
  | .root a r => Flat.lit "sqrt(" ++ (flatten a).paren ++ Flat.char ')' ++ flatten r
  | .indexedRoot i a r =>
    (flatten a).paren ++ Flat.lit "^(1/" ++ (flatten i).paren ++ Flat.char ')' ++ flatten r
  | .name a r => ⟨a.filter (!isBlank ·), []⟩ ++ flatten r
  | .bare => command.bareText name ++ flatten rest

theorem flatten_command {w rest : List Char} (hn : w ≠ []) (hw : ∀ c ∈ w, isLetter c = true)
    (hr : NoLetter rest) {command : Command} (hc : Command.ofWord (String.ofList w) = command) :
    flatten ('\\' :: w ++ rest) =
      (command.arguments rest).flat command (String.ofList w) rest := by
  subst hc
  obtain ⟨d, w, rfl⟩ := List.exists_cons_of_ne_nil hn
  -- the two escapes of braces are no commands
  have hd : d ≠ '{' ∧ d ≠ '}' := by
    have := hw d (by simp)
    constructor <;> rintro rfl <;> revert this <;> decide
  have ht := takeWhile_letters hw hr
  have hs := dropWhile_letters hw hr
  rw [List.cons_append] at ht hs
  rw [List.cons_append, List.cons_append, flatten]
  · rw [ht, hs, if_neg (by simp)]
    dsimp only
    split <;> rename_i h <;> rw [h] <;> rfl
  · exact hd.1
  · exact hd.2

theorem plain_letters {word text : String} (h : Command.ofWord word = .plain text) :
    ∀ c ∈ text.toList, isLetter c = true ∨ c = '*' := by
  have hall : ∀ p ∈ plainCommands, ∀ c ∈ p.2.toList, isLetter c = true ∨ c = '*' := by decide
  unfold Command.ofWord at h
  split at h <;> try cases h
  split at h <;> try cases h
  split at h <;> try cases h
  split at h <;> try cases h
  split at h
  · rename_i hl
    cases h
    obtain ⟨l, m, hm, -⟩ := List.lookup_eq_some_iff.1 hl
    exact hall (word, text) (hm ▸ List.mem_append_right l (List.mem_cons_self ..))
  · cases h

/-- A command without arguments is named by letters or stands for a name or a product sign. -/
theorem bareText_letters {w : List Char} (hw : ∀ c ∈ w, isLetter c = true) :
    ∀ c ∈ ((Command.ofWord (String.ofList w)).bareText (String.ofList w)).text,
      isLetter c = true ∨ c = '*' := by
  cases h : Command.ofWord (String.ofList w) with
  | fraction => exact show ∀ c ∈ "frac".toList, _ by decide
  | root => exact show ∀ c ∈ "sqrt".toList, _ by decide
  | operatorName => exact show ∀ c ∈ "operatorname".toList, _ by decide
  | sizing => exact List.forall_mem_nil _
  | plain text => exact plain_letters h
  | unknown =>
    have htext : ((Command.unknown).bareText (String.ofList w)).text = w := String.toList_ofList
    rw [htext]
    exact fun c hc => .inl (hw c hc)

/-! ## Pieces -/

/-- The markup `s` stands for the flat text `t` wherever no letter follows. -/
def Reads (s t : List Char) : Prop :=
  ∀ rest, NoLetter rest → (flatten (s ++ rest)).text = t ++ (flatten rest).text

/-- The markup `s` stands for the flat text `t` whatever follows. -/
def Closed (s t : List Char) : Prop :=
  ∀ rest, (flatten (s ++ rest)).text = t ++ (flatten rest).text

theorem Closed.reads {s t : List Char} (h : Closed s t) : Reads s t :=
  fun rest _ => h rest

theorem Reads.flatten {s t : List Char} (h : Reads s t) : (flatten s).text = t := by
  have := h [] noLetter_nil
  rwa [List.append_nil, flatten_nil, Flat.empty, List.append_nil] at this

theorem closed_nil : Closed [] [] :=
  fun _ => rfl

theorem Closed.append {s s' t t' : List Char} (h : Closed s t) (h' : Closed s' t') :
    Closed (s ++ s') (t ++ t') := by
  intro rest
  rw [List.append_assoc, h, h', List.append_assoc]

theorem Closed.append_reads {s s' t t' : List Char} (h : Closed s t) (h' : Reads s' t') :
    Reads (s ++ s') (t ++ t') := by
  intro rest hr
  rw [List.append_assoc, h, h' rest hr, List.append_assoc]

theorem NoLetter.append {s rest : List Char} (hs : NoLetter s) (hr : NoLetter rest) :
    NoLetter (s ++ rest) := by
  cases s with
  | nil => exact hr
  | cons c s => exact noLetter_cons (hs c rfl) _

theorem Reads.append_closed {s s' t t' : List Char} (h : Reads s t) (h' : Closed s' t')
    (hn : s' ≠ [] ∧ NoLetter s') : Closed (s ++ s') (t ++ t') := by
  intro rest
  obtain ⟨c, s', rfl⟩ := List.exists_cons_of_ne_nil hn.1
  have hr : NoLetter (c :: s' ++ rest) := noLetter_cons (hn.2 c rfl) _
  rw [List.append_assoc, h _ hr, h', List.append_assoc]

theorem Reads.append {s s' t t' : List Char} (h : Reads s t) (h' : Reads s' t')
    (hn : NoLetter s') : Reads (s ++ s') (t ++ t') := by
  intro rest hr
  rw [List.append_assoc, h _ (hn.append hr), h' rest hr, List.append_assoc]

/-- Markup that stands for a flat text and may be put into any group. -/
structure Piece (s t : List Char) : Prop where
  balanced : Balanced s
  reads : Reads s t

theorem Piece.append {s s' t t' : List Char} (h : Piece s t) (h' : Piece s' t')
    (hn : NoLetter s') : Piece (s ++ s') (t ++ t') :=
  ⟨balanced_append h.balanced h'.balanced, h.reads.append h'.reads hn⟩

/-! ## Characters -/

theorem closed_literal {c : Char} (h : IsLiteral c) : Closed [c] [c] := by
  intro rest
  have hc := h.1
  simp only [List.mem_cons, List.not_mem_nil, or_false, not_or] at hc
  rw [List.singleton_append, flatten_char hc.1 (closerOf?_eq_none hc.2.1 hc.2.2.2.1), h.2]
  rfl

theorem closed_literals {s : List Char} (h : ∀ c ∈ s, IsLiteral c) : Closed s s := by
  induction s with
  | nil => exact closed_nil
  | cons c s ih =>
    exact (closed_literal (h c (by simp))).append (ih fun d hd => h d (by simp [hd]))

theorem closed_blank {c : Char} (hb : isBlank c = true) : Closed [c] [] := by
  intro rest
  rw [List.singleton_append, flatten_blank hb, List.nil_append]

theorem closed_blanks {g : List Char} (hg : ∀ c ∈ g, isBlank c = true) : Closed g [] := by
  induction g with
  | nil => exact closed_nil
  | cons c g ih =>
    exact (closed_blank (hg c (by simp))).append (ih fun d hd => hg d (by simp [hd]))

theorem isLetter_of_isBlank {c : Char} (h : isBlank c = true) : isLetter c = false := by
  -- letters are those of a table and the Latin ones, and the blanks are apart from both
  have hd : Ranges.disjoint blankRanges letterRanges = true := by decide +kernel
  have hl : letterRanges.contains c = false := Ranges.not_contains_of_disjoint hd h
  have hd' : Ranges.disjoint blankRanges Ranges.latin = true := by decide
  have ha : c.isAlpha = false := by
    rw [Ranges.isAlpha_eq]
    exact Ranges.not_contains_of_disjoint hd' h
  simp [isLetter, hl, ha]

/-! ## Groups -/

/-- In parentheses. -/
def paren (s : List Char) : List Char :=
  '(' :: s ++ [')']

/-- How a group is enclosed: in braces or in parentheses, with blanks before. -/
structure Enclosure where
  gap : List Char
  blank : ∀ c ∈ gap, isBlank c = true
  round : Bool

namespace Enclosure

/-- The group with the given content. -/
def around (e : Enclosure) (s : List Char) : List Char :=
  e.gap ++ if e.round then '(' :: s ++ [')'] else '{' :: s ++ ['}']

/-- Braces without blanks. -/
def braces : Enclosure :=
  ⟨[], nofun, false⟩

end Enclosure

/-- A group in braces. -/
def braced (s : List Char) : List Char :=
  '{' :: s ++ ['}']

theorem closed_braced {s t : List Char} (h : Piece s t) : Closed (braced s) (paren t) := by
  intro rest
  have hg := group?_braces h.balanced.braces rest
  rw [braced, List.append_assoc, List.singleton_append]
  rw [List.cons_append] at hg ⊢
  rw [flatten_group hg, Flat.append_text, ← h.reads.flatten]
  rfl

theorem closed_paren {s t : List Char} (h : Piece s t) : Closed (paren s) (paren t) := by
  intro rest
  have hg := group?_parens h.balanced.parens rest
  rw [paren, List.append_assoc, List.singleton_append]
  rw [List.cons_append] at hg ⊢
  rw [flatten_group hg, Flat.append_text, ← h.reads.flatten]
  rfl

theorem noLetter_blanks {g s : List Char} (hg : ∀ c ∈ g, isBlank c = true) (hs : NoLetter s) :
    NoLetter (g ++ s) := by
  cases g with
  | nil => exact hs
  | cons c g => exact noLetter_cons (isLetter_of_isBlank (hg c (by simp))) _

theorem blank_free {g : List Char} (hg : ∀ c ∈ g, isBlank c = true) :
    ∀ c ∈ g, c ∉ ['{', '}', '(', ')'] := by
  intro c hc hm
  have hall : ∀ c ∈ ['{', '}', '(', ')'], isBlank c = false := by decide
  have := hg c hc
  rw [hall c hm] at this
  cases this

namespace Enclosure

variable (e : Enclosure)

theorem noLetter (s rest : List Char) : NoLetter (e.around s ++ rest) := by
  rw [around, List.append_assoc]
  refine noLetter_blanks e.blank ?_
  split <;> exact noLetter_cons (by decide) _

theorem dropWhile (s rest : List Char) :
    (e.around s ++ rest).dropWhile isBlank =
      (if e.round then '(' :: s ++ [')'] else '{' :: s ++ ['}']) ++ rest := by
  have ho : isBlank '(' = false ∧ isBlank '{' = false := by decide
  rw [around, List.append_assoc, List.dropWhile_append_of_pos e.blank]
  split <;> simp [ho.1, ho.2]

theorem argument? {s : List Char} (hs : Balanced s) (rest : List Char) :
    Markup.argument? (e.around s ++ rest) = some (s, rest) := by
  rw [Markup.argument?, e.dropWhile]
  cases e.round with
  | true =>
    have := group?_parens hs.parens rest
    simpa using this
  | false =>
    have := group?_braces hs.braces rest
    simpa using this

theorem rootIndex? (s rest : List Char) : Markup.rootIndex? (e.around s ++ rest) = none := by
  rw [Markup.rootIndex?, e.dropWhile]
  cases e.round <;> rfl

theorem balanced {s : List Char} (hs : Balanced s) : Balanced (e.around s) := by
  refine balanced_append (balanced_of_free (blank_free e.blank)) ?_
  split
  · exact balanced_parens hs
  · exact balanced_braces hs

theorem closed {s t : List Char} (h : Piece s t) : Closed (e.around s) (paren t) := by
  have hgroup : Closed (if e.round then '(' :: s ++ [')'] else '{' :: s ++ ['}']) (paren t) := by
    split
    · exact closed_paren h
    · exact closed_braced h
  exact (closed_blanks e.blank).append hgroup

theorem ne_nil (s : List Char) : e.around s ≠ [] := by
  rw [around]
  split <;> simp

end Enclosure

/-! ## Commands with arguments -/

section
variable {w : List Char} (hn : w ≠ []) (hw : ∀ c ∈ w, isLetter c = true)
include hn hw

/-- A command that stands for a name or an operator. -/
theorem reads_plain {text : String} (hc : Command.ofWord (String.ofList w) = .plain text) :
    Reads ('\\' :: w) text.toList := by
  intro rest hr
  rw [flatten_command hn hw hr hc]
  rfl

/-- A sizing command. -/
theorem reads_sizing (hc : Command.ofWord (String.ofList w) = .sizing) : Reads ('\\' :: w) [] := by
  intro rest hr
  rw [flatten_command hn hw hr hc]
  rfl

theorem closed_fraction (hc : Command.ofWord (String.ofList w) = .fraction) (e e' : Enclosure)
    {a b s t : List Char} (ha : Piece a s) (hb : Piece b t) :
    Closed ('\\' :: w ++ e.around a ++ e'.around b) (paren s ++ '/' :: paren t) := by
  intro rest
  rw [List.append_assoc, List.append_assoc, flatten_command hn hw (e.noLetter a _) hc]
  simp only [Command.arguments, e.argument? ha.balanced, e'.argument? hb.balanced, Construct.flat]
  rw [← ha.reads.flatten, ← hb.reads.flatten]
  simp [Flat.paren, Flat.char, paren]

theorem closed_root (hc : Command.ofWord (String.ofList w) = .root) (e : Enclosure)
    {a s : List Char} (ha : Piece a s) :
    Closed ('\\' :: w ++ e.around a) ("sqrt".toList ++ paren (paren s)) := by
  intro rest
  rw [List.append_assoc, flatten_command hn hw (e.noLetter a _) hc]
  simp only [Command.arguments, e.rootIndex?, e.argument? ha.balanced, Construct.flat]
  rw [← ha.reads.flatten]
  simp [Flat.paren, Flat.char, Flat.lit, paren]

end

theorem takeWhile_append_stop {p : Char → Bool} {s : List Char} (hs : ∀ c ∈ s, p c = true) {c : Char}
    (hc : p c = false) (rest : List Char) :
    (s ++ c :: rest).takeWhile p = s ∧ (s ++ c :: rest).dropWhile p = c :: rest := by
  rw [List.takeWhile_append_of_pos hs, List.dropWhile_append_of_pos hs]
  simp [hc]

/-- The index of a root in brackets, with blanks before. -/
def bracketed (g n : List Char) : List Char :=
  g ++ '[' :: n ++ [']']

theorem rootIndex?_bracketed {g n : List Char} (hg : ∀ c ∈ g, isBlank c = true) (hn : ']' ∉ n)
    (rest : List Char) : rootIndex? (bracketed g n ++ rest) = some (n, rest) := by
  have hb : isBlank '[' = false := by decide
  obtain ⟨ht, hd⟩ := takeWhile_append_stop (p := (· != ']')) (s := n)
    (fun c hc => by simpa using fun h : c = ']' => hn (h ▸ hc)) (c := ']') (by decide) rest
  have he : bracketed g n ++ rest = g ++ '[' :: (n ++ ']' :: rest) := by
    simp [bracketed]
  rw [he, rootIndex?, List.dropWhile_append_of_pos hg]
  simp only [List.dropWhile_cons, hb, Bool.false_eq_true, if_false, ht, hd]

theorem closed_indexedRoot {w : List Char} (hw0 : w ≠ []) (hw : ∀ c ∈ w, isLetter c = true)
    (hc : Command.ofWord (String.ofList w) = .root) {g : List Char}
    (hg : ∀ c ∈ g, isBlank c = true) (e : Enclosure) {n a s t : List Char} (hi : ']' ∉ n)
    (hn : Piece n s) (ha : Piece a t) :
    Closed ('\\' :: w ++ bracketed g n ++ e.around a)
      (paren t ++ '^' :: paren ('1' :: '/' :: paren s)) := by
  intro rest
  have hr : NoLetter (bracketed g n ++ (e.around a ++ rest)) := by
    rw [bracketed, List.append_assoc, List.append_assoc]
    exact noLetter_blanks hg (noLetter_cons (by decide) _)
  rw [List.append_assoc, List.append_assoc, flatten_command hw0 hw hr hc]
  simp only [Command.arguments, rootIndex?_bracketed hg hi, e.argument? ha.balanced, Construct.flat]
  rw [← hn.reads.flatten, ← ha.reads.flatten]
  simp [Flat.paren, Flat.char, Flat.lit, paren]

end FieldWalk.Markup
