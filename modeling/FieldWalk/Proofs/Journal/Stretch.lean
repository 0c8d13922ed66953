import FieldWalk.Journal.Book
import Mathlib.Data.List.Induction
/-!
# Every record is written once

Setups divide what happens to a book into stretches. The records of a stretch that pass the level of
its setup are written once each, in order, to the console and to the file that the setup names, and
nowhere else. A level with too many digits for a name passes none. The file keeps them as they are until a setup names it again.
-/

namespace FieldWalk.Journal

open Numeral

/-! ## Files -/

theorem lookup_cons_if {β : Type} (m : String) (v : β) (fs : List (String × β)) (n : String) :
    ((m, v) :: fs).lookup n = if n = m then some v else fs.lookup n := by
  by_cases h : n = m
  · rw [if_pos h, h, List.lookup_cons_self]
  · have hb : (n == m) = false := beq_false_of_ne h
    rw [if_neg h, List.lookup_cons, hb]

namespace Book

/-- Lines go to the file of the name alone. -/
theorem file?_appendFile (b : Book) (name : String) (lines : List String) (n : String) :
    (b.appendFile name lines).file? n = (b.file? n).map (· ++ if n = name then lines else []) := by
  unfold file? appendFile
  induction b.files with
  | nil => rfl
  | cons f fs ih =>
    obtain ⟨m, ls⟩ := f
    have hmap : (if m = name then (m, ls ++ lines) else (m, ls)) =
        (m, ls ++ if m = name then lines else []) := by
      by_cases hm : m = name <;> simp [hm]
    rw [List.map_cons, hmap, lookup_cons_if, lookup_cons_if, ih]
    by_cases hn : n = m
    · rw [if_pos hn, if_pos hn, hn]
      rfl
    · rw [if_neg hn, if_neg hn]

theorem file?_emptyFile (b : Book) (name n : String) :
    (b.emptyFile name).file? n = if n = name then some [] else b.file? n := by
  unfold file? emptyFile
  induction b.files with
  | nil => exact lookup_cons_if name [] [] n
  | cons f fs ih =>
    obtain ⟨m, ls⟩ := f
    by_cases hm : m = name
    · rw [List.filter_cons_of_neg (by simpa using hm), ih, lookup_cons_if, ← hm]
      by_cases hn : n = m <;> simp [hn]
    · rw [List.filter_cons_of_pos (by simpa using hm), List.cons_append, lookup_cons_if, ih,
        lookup_cons_if]
      by_cases hn : n = m
      · rw [if_pos hn, if_pos hn, if_neg (hn ▸ hm)]
      · rw [if_neg hn, if_neg hn]

/-! ## Outlets -/

theorem write_outlets (lines : List String) (os : List Outlet) (b : Book) :
    (os.foldl (write lines) b).outlets = b.outlets ∧ (os.foldl (write lines) b).level = b.level := by
  induction os generalizing b with
  | nil => exact ⟨rfl, rfl⟩
  | cons o os ih =>
    rw [List.foldl_cons, (ih _).1, (ih _).2]
    cases o <;> exact ⟨rfl, rfl⟩

/-- The console gets lines once if it is among outlets that are all different. -/
theorem write_console (lines : List String) {os : List Outlet} (h : os.Nodup) (b : Book) :
    (os.foldl (write lines) b).console = b.console ++ if .console ∈ os then lines else [] := by
  induction os generalizing b with
  | nil => simp
  | cons o os ih =>
    obtain ⟨ho, hos⟩ := List.nodup_cons.1 h
    rw [List.foldl_cons, ih hos]
    cases o with
    | console => simp [write, ho]
    | file name => simp [write, appendFile]

/-- A file gets lines once if it is among outlets that are all different. -/
theorem write_file? (lines : List String) {os : List Outlet} (h : os.Nodup) (b : Book) (n : String) :
    (os.foldl (write lines) b).file? n =
      (b.file? n).map (· ++ if .file n ∈ os then lines else []) := by
  induction os generalizing b with
  | nil => simp
  | cons o os ih =>
    obtain ⟨ho, hos⟩ := List.nodup_cons.1 h
    rw [List.foldl_cons, ih hos]
    cases o with
    | console => simp [write, file?]
    | file name =>
      rw [write, file?_appendFile, Option.map_map]
      by_cases hn : n = name
      · subst hn
        simp [ho, Function.comp_def]
      · simp [hn, Function.comp_def]

end Book

/-! ## Records -/

theorem splitOnAux_ne_nil (s sep : String) (b i j : String.Pos.Raw) (r : List String) :
    s.splitOnAux sep b i j r ≠ [] := by
  fun_induction String.splitOnAux s sep b i j r <;> simp_all

/-- What is written of a record is never nothing. -/
theorem lines_ne_nil (r : Record) : r.lines ≠ [] := by
  unfold Record.lines String.splitOn
  simp only
  split
  · simp
  · exact splitOnAux_ne_nil _ _ _ _ _ _

/-- The least level that is written where `level` is asked for; level zero asks for none. -/
def effective (level : Level) : Level :=
  if level = 0 then .warning else level

/-- A record passes a level: it comes from the program, and its level is positive, not below the one in
effect, and not too long to be named. -/
def Passes (level : Level) (r : Record) : Prop :=
  r.source.isOwn = true ∧ 0 < r.level ∧ effective level ≤ r.level ∧ overlong r.level = false

instance (level : Level) : DecidablePred (Passes level) := fun r =>
  inferInstanceAs (Decidable
    (r.source.isOwn = true ∧ 0 < r.level ∧ effective level ≤ r.level ∧ overlong r.level = false))

/-- The lines of the records that pass a level. -/
def passed (level : Level) (rs : List Record) : List String :=
  (rs.filter (Passes level ·)).flatMap Record.lines

theorem passed_cons (level : Level) (r : Record) (rs : List Record) :
    passed level (r :: rs) = (if Passes level r then r.lines else []) ++ passed level rs := by
  by_cases h : Passes level r <;> simp [passed, h]

namespace Book

theorem passes_iff (b : Book) (r : Record) :
    Passes b.level r ↔ b.accepts r = true ∧ overlong r.level = false := by
  rw [accepts, Bool.and_eq_true, Bool.and_eq_true, decide_eq_true_iff, decide_eq_true_iff, and_assoc,
    and_assoc]
  exact Iff.rfl

/-- A record is written if it passes, and changes nothing if not. -/
theorem log_book (b : Book) (r : Record) :
    (b.log r).book = if Passes b.level r then b.outlets.foldl (write r.lines) b else b := by
  simp only [passes_iff, log]
  cases b.accepts r <;> cases overlong r.level <;> rfl

/-- What a record changes: lines are added at the outlets, all of them if the record passes. -/
theorem log_eq {b : Book} (h : b.outlets.Nodup) (r : Record) :
    let lines := if Passes b.level r then r.lines else []
    let b' := (b.log r).book
    b'.level = b.level ∧ b'.outlets = b.outlets ∧
    b'.console = b.console ++ (if .console ∈ b.outlets then lines else []) ∧
    ∀ n, b'.file? n = (b.file? n).map (· ++ if .file n ∈ b.outlets then lines else []) := by
  intro lines
  dsimp only
  rw [log_book]
  by_cases hp : Passes b.level r
  · rw [if_pos hp]
    obtain ⟨ho, hl⟩ := write_outlets r.lines b.outlets b
    simp only [lines, if_pos hp]
    exact ⟨hl, ho, write_console _ h b, write_file? _ h b⟩
  · rw [if_neg hp]
    simp [lines, hp]

/-- What records change between setups. -/
theorem logAll_eq {b : Book} (h : b.outlets.Nodup) (rs : List Record) :
    (b.logAll rs).level = b.level ∧ (b.logAll rs).outlets = b.outlets ∧
    (b.logAll rs).console = b.console ++ (if .console ∈ b.outlets then passed b.level rs else []) ∧
    ∀ n, (b.logAll rs).file? n =
      (b.file? n).map (· ++ if .file n ∈ b.outlets then passed b.level rs else []) := by
  induction rs generalizing b with
  | nil => simp [logAll, passed]
  | cons r rs ih =>
    obtain ⟨hl, ho, hc, hf⟩ := log_eq h r
    have he : b.logAll (r :: rs) = (b.log r).book.logAll rs := rfl
    obtain ⟨hl', ho', hc', hf'⟩ := ih (b := (b.log r).book) (by rwa [ho])
    rw [hl, ho] at hc' hf'
    refine ⟨by rw [he, hl', hl], by rw [he, ho', ho], ?_, fun n => ?_⟩
    · rw [he, hc', hc, List.append_assoc, passed_cons]
      by_cases hm : Outlet.console ∈ b.outlets <;> simp [hm]
    · rw [he, hf', hf, Option.map_map, passed_cons]
      by_cases hm : Outlet.file n ∈ b.outlets <;> simp [hm, Function.comp_def]

/-! ## Setups -/

/-- The file that a setup is given; an empty name is none. -/
def named (file : Option String) : Option String :=
  file.filter (· ≠ "")

/-- The outlets of a setup. -/
def outletsOf (file : Option String) : List Outlet :=
  .console :: ((named file).map Outlet.file).toList

/-- What a setup logs of itself; nothing if the level is too long to be named. -/
def announcement (level : Level) (file : Option String) : List Record :=
  if overlong level then [] else [⟨.root, .debug, setupText level (named file)⟩]

/-- A book with new outlets in place, before anything is written to them. -/
def placed (b : Book) (level : Level) (file : Option String) : Book :=
  { (match named file with
      | some name => b.emptyFile name
      | none => b) with level, outlets := outletsOf file }

theorem setup_eq (b : Book) (level : Level) (file : Option String) :
    (b.setup level file).book = (b.placed level file).logAll (announcement level file) := by
  unfold setup announcement
  cases overlong level <;> rfl

theorem mem_outletsOf (file : Option String) (name : String) :
    .file name ∈ outletsOf file ↔ name ∈ named file := by
  cases h : named file <;> simp [outletsOf, h, eq_comm]

theorem nodup_outletsOf (file : Option String) : (outletsOf file).Nodup := by
  cases h : named file <;> simp [outletsOf, h]

theorem placed_console (b : Book) (level : Level) (file : Option String) :
    (b.placed level file).console = b.console := by
  unfold placed
  split <;> rfl

theorem placed_file? (b : Book) (level : Level) (file : Option String) (n : String) :
    (b.placed level file).file? n = if n ∈ named file then some [] else b.file? n := by
  unfold placed
  cases h : named file with
  | none => rfl
  | some name =>
    show (b.emptyFile name).file? n = _
    rw [file?_emptyFile]
    simp only [Option.mem_some_iff, eq_comm]

/-- A setup leaves a file that it does not name as it is, and no outlet goes there. -/
theorem setup_of_not_named (b : Book) (level : Level) {file : Option String} {name : String}
    (h : name ∉ named file) :
    (b.setup level file).book.file? name = b.file? name ∧
      .file name ∉ (b.setup level file).book.outlets := by
  have hn : .file name ∉ (b.placed level file).outlets := mt (mem_outletsOf file name).1 h
  obtain ⟨-, ho, -, hf⟩ := logAll_eq (b := b.placed level file) (nodup_outletsOf file)
    (announcement level file)
  rw [setup_eq, ho, hf, if_neg hn, placed_file?, if_neg h]
  exact ⟨by simp, hn⟩

/-! ## Histories -/

end Book

/-- What is asked of a book. -/
inductive Entry where
  | setup (level : Level) (file : Option String)
  | log (r : Record)

/-- A setup names a file. -/
def Entry.Names (name : String) : Entry → Prop
  | setup _ file => name ∈ Book.named file
  | log _ => False

/-- A setup with the records behind it. -/
def stretch (level : Level) (file : Option String) (rs : List Record) : List Entry :=
  .setup level file :: rs.map .log

namespace Book

def perform (b : Book) : Entry → Book
  | .setup level file => (b.setup level file).book
  | .log r => (b.log r).book

/-- The book after some entries. -/
def after (es : List Entry) : Book :=
  es.foldl perform {}

theorem after_concat (es : List Entry) (e : Entry) : after (es ++ [e]) = (after es).perform e := by
  rw [after, List.foldl_append]
  rfl

theorem after_append_stretch (es : List Entry) (level : Level) (file : Option String)
    (rs : List Record) :
    after (es ++ stretch level file rs) =
      ((after es).placed level file).logAll (announcement level file ++ rs) := by
  rw [after, List.foldl_append, stretch, List.foldl_cons, List.foldl_map, perform, setup_eq, logAll,
    logAll, List.foldl_append]
  rfl

/-- The outlets of a book are all different. -/
theorem nodup_after (es : List Entry) : (after es).outlets.Nodup := by
  induction es using List.reverseRecOn with
  | nil => exact List.nodup_nil
  | append_singleton es e ih =>
    rw [after_concat]
    cases e with
    | setup level file =>
      have hnd : ((after es).placed level file).outlets.Nodup := nodup_outletsOf file
      rw [perform, setup_eq, (logAll_eq hnd _).2.1]
      exact hnd
    | log r => rwa [perform, (log_eq ih r).2.1]

/-- A file that no outlet goes to and no setup names stays as it is. -/
theorem file?_of_not_named {name : String} (es : List Entry) {rest : List Entry}
    (hout : .file name ∉ (after es).outlets) (hrest : ∀ e ∈ rest, ¬ e.Names name) :
    (after (es ++ rest)).file? name = (after es).file? name := by
  -- from the front: behind each entry still no outlet goes there
  induction rest generalizing es with
  | nil => rw [List.append_nil]
  | cons e rest ih =>
    obtain ⟨he, hrest⟩ := List.forall_mem_cons.1 hrest
    have hstep : (after (es ++ [e])).file? name = (after es).file? name ∧
        .file name ∉ (after (es ++ [e])).outlets := by
      rw [after_concat]
      cases e with
      | setup level file => exact setup_of_not_named (after es) level he
      | log r =>
        obtain ⟨-, ho, -, hf⟩ := log_eq (nodup_after es) r
        rw [perform, ho, hf, if_neg hout]
        exact ⟨by simp, hout⟩
    have hcons : es ++ e :: rest = es ++ [e] ++ rest := by simp
    rw [hcons, ih _ hstep.2 hrest, hstep.1]

/-- The book at the end of a stretch. -/
theorem after_stretch (es : List Entry) (level : Level) (file : Option String) (rs : List Record) :
    let b := after (es ++ stretch level file rs)
    let lines := passed level (announcement level file ++ rs)
    b.level = level ∧ b.outlets = outletsOf file ∧ b.console = (after es).console ++ lines ∧
    ∀ name, b.file? name = if name ∈ named file then some lines else (after es).file? name := by
  intro b lines
  have hb : b = ((after es).placed level file).logAll (announcement level file ++ rs) :=
    after_append_stretch es level file rs
  obtain ⟨hl, ho, hc, hf⟩ := logAll_eq (b := (after es).placed level file) (nodup_outletsOf file)
    (announcement level file ++ rs)
  rw [hb]
  refine ⟨hl, ho, ?_, fun name => ?_⟩
  · rw [hc, placed_console, if_pos (by simp [placed, outletsOf])]
    rfl
  · have hm : Outlet.file name ∈ ((after es).placed level file).outlets ↔ name ∈ named file :=
      mem_outletsOf file name
    rw [hf, placed_file?]
    by_cases hn : name ∈ named file
    · rw [if_pos hn, if_pos (hm.2 hn), if_pos hn]
      rfl
    · rw [if_neg hn, if_neg (mt hm.1 hn), if_neg hn]
      simp

/-- However often and with whatever levels and files a book was set up before, behind a setup it has
one outlet to the console and one to the file named, if any. The console then gets the records that
pass the level of the setup, its own included, once each and in order, and no other file changes. The
file named holds exactly these until a setup names it again, whatever is set up and logged between. A
file that is never named does not exist. -/
theorem written_once (es : List Entry) (level : Level) (file : Option String) (rs : List Record) :
    let b := after (es ++ stretch level file rs)
    let lines := passed level (announcement level file ++ rs)
    b.level = level ∧ b.outlets = .console :: ((named file).map Outlet.file).toList ∧
    b.console = (after es).console ++ lines ∧
    (∀ name ∉ named file, b.file? name = (after es).file? name) ∧
    (∀ name ∈ named file, ∀ rest : List Entry, (∀ r, rest.head? ≠ some (.log r)) →
      (∀ e ∈ rest, ¬ e.Names name) →
        (after (es ++ stretch level file rs ++ rest)).file? name = some lines) ∧
      ∀ name, (∀ e ∈ es, ¬ e.Names name) → (after es).file? name = none := by
  intro b lines
  obtain ⟨hl, ho, hc, hf⟩ := after_stretch es level file rs
  refine ⟨hl, ho, hc, fun name hn => by rw [hf, if_neg hn], ?_, fun name hn => ?_⟩
  · intro name hn rest hhead hrest
    have hb : b.file? name = some lines := by rw [hf, if_pos hn]
    cases rest with
    | nil => rwa [List.append_nil]
    | cons e rest =>
      obtain ⟨he, hlater⟩ := List.forall_mem_cons.1 hrest
      cases e with
      | log r => exact absurd rfl (hhead r)
      | setup l f =>
        -- the next setup takes the outlet away, and from then on nothing goes to the file
        obtain ⟨hs, hout⟩ := setup_of_not_named b l he
        rw [← perform, ← after_concat] at hs hout
        calc (after (es ++ stretch level file rs ++ .setup l f :: rest)).file? name
          _ = (after (es ++ stretch level file rs ++ [.setup l f] ++ rest)).file? name := by simp
          _ = some lines := by rw [file?_of_not_named _ hout hlater, hs, hb]
  · exact file?_of_not_named [] nofun hn

/-- A second file gets the weightier of two records, and a third setup ends that. -/
theorem second_file_written :
    let r := Record.info .root "kept"
    let d : Record := ⟨.root, .debug, "dropped"⟩
    let es : List Entry := [.setup .debug (some "a.log"), .log d]
    let rest : List Entry := [.setup .warning none, .log r]
    "b.log" ∈ named (some "b.log") ∧ (∀ x, rest.head? ≠ some (.log x)) ∧
      (∀ e ∈ rest, ¬ e.Names "b.log") ∧
      (after (es ++ stretch .info (some "b.log") [r, d] ++ rest)).file? "b.log" = some r.lines ∧
      "a.log" ∉ named (some "b.log") ∧
      (after (es ++ stretch .info (some "b.log") [r, d])).file? "a.log" = (after es).file? "a.log" ∧
      (∀ e ∈ es, ¬ e.Names "c.log") ∧ (after es).file? "c.log" = none := by
  intro r d es rest
  obtain ⟨-, -, -, hother, hfile, hnone⟩ := written_once es .info (some "b.log") [r, d]
  have hb : "b.log" ∈ named (some "b.log") := by decide
  have ha : "a.log" ∉ named (some "b.log") := by decide
  have hhead : ∀ x, rest.head? ≠ some (.log x) := nofun
  have hrest : ∀ e ∈ rest, ¬ e.Names "b.log" := by simp [rest, Entry.Names, named]
  have hes : ∀ e ∈ es, ¬ e.Names "c.log" := by
    have hc : "c.log" ∉ named (some "a.log") := by decide
    simpa [es, Entry.Names] using hc
  have hown : announcement .info (some "b.log") =
      [⟨.root, .debug, setupText .info (named (some "b.log"))⟩] := if_neg (by decide +kernel)
  have hlines : passed .info (announcement .info (some "b.log") ++ [r, d]) = r.lines := by
    rw [hown, List.singleton_append, passed_cons, if_neg (by decide), passed_cons,
      if_pos (by decide +kernel), passed_cons, if_neg (by decide)]
    simp [passed]
  exact ⟨hb, hhead, hrest, hlines ▸ hfile _ hb rest hhead hrest, ha, hother _ ha, hes, hnone _ hes⟩

/-- A threshold below zero lets no record of a level below zero through. One whose level is too long to be
named is not written either, however high it is. -/
theorem below_zero_unwritten :
    let es : List Entry := [.setup (-5) none]
    let r : Record := ⟨.root, -3, "a"⟩
    let s : Record := ⟨.root, leastOverlong, "a"⟩
    r.source.isOwn = true ∧ effective (-5) ≤ r.level ∧
      (after (es ++ [.log r])).console ≠ (after es).console ++ r.lines ∧
      effective (-5) ≤ s.level ∧
      (after (es ++ [.log s])).console ≠ (after es).console ++ s.lines := by
  intro es r s
  have hlost : ∀ r, ¬ Passes (after es).level r →
      (after (es ++ [.log r])).console ≠ (after es).console ++ r.lines := by
    intro r hr
    rw [after_concat, perform, log_book, if_neg hr, Ne, List.self_eq_append_right]
    exact lines_ne_nil r
  have hlong : ¬ Passes (after es).level s := by
    rintro ⟨-, -, -, h⟩
    rw [overlong_leastOverlong] at h
    cases h
  exact ⟨by decide, by decide, hlost r (by decide +kernel), by decide +kernel, hlost s hlong⟩

end Book

end FieldWalk.Journal
