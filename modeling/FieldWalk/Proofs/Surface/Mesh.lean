import FieldWalk.Proofs.Numeral.Ranged
import FieldWalk.Surface.Mesh
import Mathlib.Data.List.Perm.Basic
import Mathlib.Data.List.Nodup
/-!
# The drawn cells of a surface

Heights stand row by row, points are numbered column by column. What is drawn of a grid are exactly
its cells with four visible corners, and each corner stands where the grid has it, whether the whole
grid is drawn or a part is taken out of it.
-/

namespace FieldWalk.Surface

open Numeral

/-! ## Tables -/

section
variable {β γ : Type} {rows cols : ℕ} {t : List (List β)} {c : Crossing}

/-- A table with some rows of one length. -/
structure IsTable (rows cols : ℕ) (t : List (List β)) : Prop where
  length_eq : t.length = rows
  row_length : ∀ r ∈ t, r.length = cols

theorem isTable_map {f : γ → List β} (h : ∀ v, (f v).length = cols) (vs : List γ) :
    IsTable vs.length cols (vs.map f) where
  length_eq := List.length_map _
  row_length := by
    intro r hr
    obtain ⟨v, -, rfl⟩ := List.mem_map.1 hr
    exact h v

theorem IsTable.width (h : IsTable rows cols t) (hrows : 0 < rows) : (t.headD []).length = cols := by
  cases t with
  | nil =>
    rw [← h.length_eq] at hrows
    exact absurd hrows (Nat.lt_irrefl 0)
  | cons r t => exact h.row_length r List.mem_cons_self

/-- The entry of a table at a crossing. -/
def entryAt? (t : List (List β)) (c : Crossing) : Option β :=
  t[c.row]?.bind (·[c.col]?)

theorem IsTable.map (h : IsTable rows cols t) (f : β → γ) :
    IsTable rows cols (t.map (·.map f)) where
  length_eq := List.length_map _ |>.trans h.length_eq
  row_length := by
    intro s hs
    obtain ⟨r, hr, rfl⟩ := List.mem_map.1 hs
    rw [List.length_map, h.row_length r hr]

theorem entryAt?_map (t : List (List β)) (f : β → γ) (c : Crossing) :
    entryAt? (t.map (·.map f)) c = (entryAt? t c).map f := by
  unfold entryAt?
  rw [List.getElem?_map]
  cases t[c.row]? with
  | none => rfl
  | some r => exact List.getElem?_map

/-- A table has entries at its crossings, and nowhere else. -/
theorem IsTable.exists_entry_iff (h : IsTable rows cols t) :
    (∃ v, entryAt? t c = some v) ↔ c.row < rows ∧ c.col < cols := by
  unfold entryAt?
  constructor
  · rintro ⟨v, hv⟩
    obtain ⟨r, hr, hv⟩ := Option.bind_eq_some_iff.1 hv
    obtain ⟨hrow, rfl⟩ := List.getElem?_eq_some_iff.1 hr
    obtain ⟨hcol, -⟩ := List.getElem?_eq_some_iff.1 hv
    rw [h.row_length _ (List.getElem_mem _)] at hcol
    exact ⟨h.length_eq ▸ hrow, hcol⟩
  · rintro ⟨hrow, hcol⟩
    have hrow' : c.row < t.length := h.length_eq ▸ hrow
    have hcol' : c.col < t[c.row].length := by rwa [h.row_length _ (List.getElem_mem _)]
    exact ⟨t[c.row][c.col], by rw [List.getElem?_eq_getElem hrow', Option.bind_some,
      List.getElem?_eq_getElem hcol']⟩

/-- The columns of a table are as long as it has rows. -/
theorem IsTable.length_column (h : IsTable rows cols t) {j : ℕ} (hj : j < cols) :
    (t.filterMap (·[j]?)).length = rows := by
  rw [List.length_filterMap_eq_countP, ← h.length_eq, List.countP_eq_length]
  intro r hr
  rw [List.getElem?_eq_getElem (by rwa [h.row_length r hr])]
  rfl

theorem getElem?_column (t : List (List β)) {i j : ℕ} (h : ∀ r ∈ t, j < r.length) :
    (t.filterMap (·[j]?))[i]? = entryAt? t ⟨i, j⟩ := by
  unfold entryAt?
  induction t generalizing i with
  | nil => rfl
  | cons r t ih =>
    obtain ⟨hr, ht⟩ := List.forall_mem_cons.1 h
    rw [List.filterMap_cons, List.getElem?_eq_getElem hr]
    cases i with
    | zero => exact (List.getElem?_eq_getElem hr).symm
    | succ i => exact ih ht

theorem length_flatMap_range {f : ℕ → List β} (hf : ∀ j < cols, (f j).length = rows) :
    ((List.range cols).flatMap f).length = cols * rows := by
  rw [List.length_flatMap, List.map_congr_left fun j hj => hf j (List.mem_range.1 hj),
    List.map_const', List.sum_replicate_nat, List.length_range]

/-- The entry with a number among columns of one length. -/
theorem getElem?_flatMap_range {f : ℕ → List β} (hf : ∀ j < cols, (f j).length = rows) {i j : ℕ}
    (hi : i < rows) (hj : j < cols) :
    ((List.range cols).flatMap f)[j * rows + i]? = (f j)[i]? := by
  induction cols with
  | zero => exact absurd hj (Nat.not_lt_zero j)
  | succ n ih =>
    have hf' : ∀ j < n, (f j).length = rows := fun j hj => hf j (Nat.lt_succ_of_lt hj)
    have hlength := length_flatMap_range hf'
    rw [List.range_succ, List.flatMap_append, List.flatMap_singleton]
    rcases Nat.lt_succ_iff_lt_or_eq.1 hj with hj | rfl
    · have hbefore : j * rows + i < n * rows := by
        calc j * rows + i < j * rows + rows := Nat.add_lt_add_left hi _
          _ = (j + 1) * rows := (Nat.succ_mul j rows).symm
          _ ≤ n * rows := Nat.mul_le_mul_right rows hj
      rw [List.getElem?_append_left (by rwa [hlength]), ih hf' hj]
    · rw [List.getElem?_append_right (by rw [hlength]; exact Nat.le_add_right _ _), hlength,
        Nat.add_sub_cancel_left]

/-- Column by column, the entry at a crossing has the number of the crossing. -/
theorem IsTable.getElem?_byColumn (h : IsTable rows cols t) (hrow : c.row < rows)
    (hcol : c.col < cols) : (byColumn t)[c.number rows]? = entryAt? t c := by
  unfold byColumn Crossing.number
  rw [h.width (Nat.zero_lt_of_lt hrow), getElem?_flatMap_range (fun j hj => h.length_column hj) hrow hcol,
    getElem?_column t fun r hr => (h.row_length r hr).symm ▸ hcol]

end

/-! ## Crossings -/

theorem mem_crossings {rows cols : ℕ} {c : Crossing} :
    c ∈ crossings rows cols ↔ c.row < rows ∧ c.col < cols := by
  obtain ⟨i, j⟩ := c
  simp only [crossings, List.mem_flatMap, List.mem_map, List.mem_range, Crossing.mk.injEq]
  constructor
  · rintro ⟨j, hj, i, hi, rfl, rfl⟩
    exact ⟨hi, hj⟩
  · rintro ⟨hi, hj⟩
    exact ⟨j, hj, i, hi, rfl, rfl⟩

theorem nodup_crossings (rows cols : ℕ) : (crossings rows cols).Nodup := by
  refine List.nodup_flatMap.2 ⟨fun j _ => ?_, ?_⟩
  · exact List.nodup_range.map fun i i' h => congrArg Crossing.row h
  · refine List.nodup_range.imp fun {j j'} hne c hc hc' => hne ?_
    obtain ⟨i, -, rfl⟩ := List.mem_map.1 hc
    obtain ⟨i', -, h⟩ := List.mem_map.1 hc'
    exact (congrArg Crossing.col h).symm

/-! ## Flags -/

section
variable {n k : ℕ}

theorem mem_flagged {flags : List Bool} : k ∈ flagged flags ↔ flags[k]? = some true := by
  simp only [flagged, List.mem_map, List.mem_filter, Prod.exists, List.mk_mem_zipIdx_iff_getElem?]
  constructor
  · rintro ⟨b, i, ⟨h, rfl⟩, rfl⟩
    exact h
  · exact fun h => ⟨true, k, ⟨h, rfl⟩, rfl⟩

theorem getElem?_foldl_set (ks : List ℕ) (a : Array Bool) :
    (ks.foldl (fun a k => a.setIfInBounds k true) a)[k]? = a[k]?.map (· || decide (k ∈ ks)) := by
  induction ks generalizing a with
  | nil => simp
  | cons j ks ih =>
    rw [List.foldl_cons, ih, Array.getElem?_setIfInBounds]
    by_cases h : j = k
    · subst h
      by_cases hj : j < a.size <;> simp [hj]
    · simp [h, Ne.symm h]

/-- The flags of the listed numbers are set. -/
theorem getElem?_flagsOf (ks : List ℕ) (hk : k < n) : (flagsOf n ks)[k]? = some (decide (k ∈ ks)) := by
  unfold flagsOf
  rw [Array.getElem?_toList, getElem?_foldl_set, Array.getElem?_replicate, if_pos hk, Option.map_some,
    Bool.false_or]

/-- An entry whose flag is set comes after as many selected entries as flags are set before it. -/
theorem exists_rank {flags : List Bool} (h : flags[k]? = some true) (n : ℕ) :
    ∃ i, (ranks n flags)[k]? = some (n + i) ∧
      ∀ {β : Type} (vs : List β), (select flags vs)[i]? = vs[k]? := by
  induction flags generalizing k n with
  | nil => cases h
  | cons b flags ih =>
    cases k with
    | zero =>
      obtain rfl : b = true := by simpa using h
      refine ⟨0, rfl, fun vs => ?_⟩
      cases vs <;> rfl
    | succ k =>
      rw [List.getElem?_cons_succ] at h
      cases b with
      | true =>
        obtain ⟨i, hi, hs⟩ := ih h (n + 1)
        refine ⟨i + 1, ?_, fun vs => ?_⟩
        · show (ranks (n + 1) flags)[k]? = _
          rw [hi, Nat.add_right_comm, Nat.add_assoc]
        · cases vs with
          | nil => rfl
          | cons v vs => exact hs vs
      | false =>
        obtain ⟨i, hi, hs⟩ := ih h n
        refine ⟨i, hi, fun vs => ?_⟩
        cases vs with
        | nil => rfl
        | cons v vs => exact hs vs

end

/-! ## Meshes -/

section
variable {α : Type}

/-- The cells are between points. -/
def Mesh.Closed (m : Mesh α) : Prop :=
  ∀ ks ∈ m.cells, ∀ k ∈ ks, k < m.places.length

/-- The points with two numbers stand at one place and are coloured by one height. -/
structure Mesh.SamePoint (m m' : Mesh α) (k k' : ℕ) : Prop where
  place : m'.places[k']? = m.places[k]?
  height : m'.heights[k']? = m.heights[k]?

/-- What drawing relies on. Nothing is said of the order of cells, nor of points that no cell uses. -/
structure Mesher.Lawful (l : Mesher α) : Prop where
  /-- The points of a grid are numbered column by column. -/
  place : ∀ {rows cols : ℕ} {x y z : List (List α)}, IsTable rows cols x → IsTable rows cols y →
    IsTable rows cols z → ∀ {c : Crossing} {px py pz : α}, entryAt? x c = some px →
      entryAt? y c = some py → entryAt? z c = some pz →
        (l.grid x y z).places[c.number rows]? = some (px, py, pz)
  /-- The cells of a grid are between neighbouring points. -/
  cells : ∀ {rows cols : ℕ} {x y z : List (List α)}, IsTable rows cols x → IsTable rows cols y →
    IsTable rows cols z → 2 ≤ rows → 2 ≤ cols → (l.grid x y z).cells.Perm
      ((crossings (rows - 1) (cols - 1)).map fun c => c.corners.map (·.number rows))
  /-- The cells kept are the ones with all corners among the points asked for. -/
  extract : ∀ {m : Mesh α}, m.Closed → ∀ ks : List ℕ, ∃ kept : List (List ℕ),
    kept.Perm (m.cells.filter fun c => ∀ k ∈ c, k ∈ ks) ∧
      List.Forall₂ (List.Forall₂ (m.SamePoint (l.extract m ks))) kept (l.extract m ks).cells

theorem forall₂_extract {m : Mesh α} (hm : m.Closed) (ks : List ℕ) :
    List.Forall₂ (List.Forall₂ (m.SamePoint (m.extract ks)))
      (m.cells.filter fun c => ∀ k ∈ c, k ∈ ks) (m.extract ks).cells := by
  have hkept : (m.cells.filter fun c => ∀ k ∈ c, k ∈ ks) = m.cells.filter
      (·.all ((flagsOf m.places.length ks).toArray.getD · false)) := by
    refine List.filter_congr fun c hc => ?_
    rw [Bool.eq_iff_iff, decide_eq_true_iff, List.all_eq_true]
    refine forall₂_congr fun k hk => ?_
    rw [Array.getD_eq_getD_getElem?, List.getElem?_toArray, getElem?_flagsOf ks (hm c hc k hk),
      Option.getD_some, decide_eq_true_iff]
  unfold Mesh.extract
  dsimp only
  rw [← hkept]
  generalize hused : flagsOf m.places.length
    (m.cells.filter fun c => ∀ k ∈ c, k ∈ ks).flatten = used
  rw [List.forall₂_map_right_iff, List.forall₂_same]
  intro c hc
  rw [List.forall₂_map_right_iff, List.forall₂_same]
  intro k hk
  have hflag : used[k]? = some true := by
    rw [← hused, getElem?_flagsOf _ (hm c (List.mem_of_mem_filter hc) k hk), Option.some_inj,
      decide_eq_true_iff]
    exact List.mem_flatten.2 ⟨c, hc, hk⟩
  obtain ⟨i, hi, hselect⟩ := exists_rank hflag 0
  have hnumber : (ranks 0 used).toArray.getD k 0 = i := by
    rw [Array.getD_eq_getD_getElem?, List.getElem?_toArray, hi, Option.getD_some, Nat.zero_add]
  rw [hnumber]
  exact ⟨hselect m.places, hselect m.heights⟩

theorem Mesher.standard_lawful : (Mesher.standard : Mesher α).Lawful where
  place := by
    intro rows cols x y z hx hy hz c px py pz hpx hpy hpz
    obtain ⟨hrow, hcol⟩ := hx.exists_entry_iff.1 ⟨px, hpx⟩
    show ((byColumn x).zip ((byColumn y).zip (byColumn z)))[c.number rows]? = _
    rw [List.getElem?_zip_eq_some, List.getElem?_zip_eq_some]
    exact ⟨by rw [hx.getElem?_byColumn hrow hcol, hpx], by rw [hy.getElem?_byColumn hrow hcol, hpy],
      by rw [hz.getElem?_byColumn hrow hcol, hpz]⟩
  cells := by
    intro rows cols x y z hx _ _ hrows _
    show ((crossings (x.length - 1) ((x.headD []).length - 1)).map fun c =>
      c.corners.map (·.number x.length)).Perm _
    rw [hx.length_eq, hx.width (Nat.zero_lt_of_lt hrows)]
  extract hm ks := ⟨_, .rfl, forall₂_extract hm ks⟩

end

/-! ## The tables of a grid -/

section
variable {α : Type} {g : Grid α} {c : Crossing}

/-- The heights of a grid fit its axes. -/
def Grid.Rectangular (g : Grid α) : Prop :=
  IsTable g.ys.length g.xs.length g.z

theorem Grid.ofAxes_rectangular (height : α → α → α) (xs ys : List α) :
    (Grid.ofAxes height xs ys).Rectangular :=
  isTable_map (fun _ => List.length_map _) ys

theorem Grid.isTable_xTable (g : Grid α) : IsTable g.ys.length g.xs.length g.xTable :=
  isTable_map (fun _ => rfl) g.ys

theorem Grid.isTable_yTable (g : Grid α) : IsTable g.ys.length g.xs.length g.yTable :=
  isTable_map (fun _ => List.length_map _) g.ys

theorem Grid.entryAt?_xTable (h : c.row < g.ys.length) : entryAt? g.xTable c = g.xs[c.col]? := by
  rw [entryAt?, Grid.xTable, List.getElem?_map, List.getElem?_eq_getElem h]
  rfl

theorem Grid.entryAt?_yTable (h : c.col < g.xs.length) : entryAt? g.yTable c = g.ys[c.row]? := by
  rw [entryAt?, Grid.yTable, List.getElem?_map]
  cases g.ys[c.row]? with
  | none => rfl
  | some y => exact List.getElem?_map.trans (by rw [List.getElem?_eq_getElem h]; rfl)

end

/-! ## The drawn part -/

section
variable {α : Type} [Scalar α] {g : Grid α} {low high : Number α} {c : Crossing}

/-- The height at a crossing is finite and within a closed range. The bounds are scalars or integers
rounded to these. -/
def Grid.Shown (g : Grid α) (low high : Number α) (c : Crossing) : Prop :=
  ∃ v, entryAt? g.z c = some v ∧ Scalar.isFinite v = true ∧ Scalar.le low.toScalar v = true ∧
    Scalar.le v high.toScalar = true

/-- All corners of a cell are shown. -/
def Grid.ShownCell (g : Grid α) (low high : Number α) (c : Crossing) : Prop :=
  ∀ p ∈ c.corners, g.Shown low high p

/-- The point with a number stands where a grid has a crossing, and is coloured by the height there. -/
def Mesh.At (m : Mesh α) (g : Grid α) (p : Crossing) (k : ℕ) : Prop :=
  ∃ x y z, g.xs[p.col]? = some x ∧ g.ys[p.row]? = some y ∧ entryAt? g.z p = some z ∧
    m.places[k]? = some (x, y, z) ∧ m.heights[k]? = some z

/-- The cells of a mesh are the cells of a grid with all corners shown, each once, and with their
corners where the grid has them. -/
def Mesh.Draws (m : Mesh α) (g : Grid α) (low high : Number α) : Prop :=
  ∃ cells : List Crossing, cells.Nodup ∧ (∀ c, c ∈ cells ↔ g.ShownCell low high c) ∧
    List.Forall₂ (fun c ks => List.Forall₂ (m.At g) c.corners ks) cells m.cells

theorem Mesh.Draws.cells_eq_nil_iff {m : Mesh α} (h : m.Draws g low high) :
    m.cells = [] ↔ ∀ c, ¬ g.ShownCell low high c := by
  obtain ⟨cells, -, hmem, hcells⟩ := h
  have hnil : m.cells = [] ↔ cells = [] := by
    rw [← List.length_eq_zero_iff, ← hcells.length_eq, List.length_eq_zero_iff]
  rw [hnil, List.eq_nil_iff_forall_not_mem]
  exact forall_congr' fun c => not_congr (hmem c)

theorem shown_iff_mask : g.Shown low high c ↔ entryAt? (g.mask low high) c = some true := by
  rw [Grid.mask, entryAt?_map, Option.map_eq_some_iff]
  refine exists_congr fun v => and_congr_right fun _ => ?_
  rw [isShown, Bool.and_eq_true, Bool.and_eq_true, and_assoc]

/-- The corners of a cell lie between the axes if its lowest corner is not on the last row or column. -/
theorem corner_lt {rows cols : ℕ} (hc : c ∈ crossings (rows - 1) (cols - 1)) {p : Crossing}
    (hp : p ∈ c.corners) : p.row < rows ∧ p.col < cols := by
  obtain ⟨i, j⟩ := c
  obtain ⟨hrow, hcol⟩ := mem_crossings.1 hc
  simp only [Crossing.corners, List.mem_cons, List.not_mem_nil, or_false] at hp hrow hcol
  rcases hp with rfl | rfl | rfl | rfl <;> simp only <;> omega

section
variable (hg : g.Rectangular)
include hg

theorem Grid.Shown.lt (h : g.Shown low high c) : c.row < g.ys.length ∧ c.col < g.xs.length := by
  obtain ⟨v, hv, -⟩ := h
  exact hg.exists_entry_iff.1 ⟨v, hv⟩

theorem Grid.ShownCell.mem_crossings (h : g.ShownCell low high c) :
    c ∈ crossings (g.ys.length - 1) (g.xs.length - 1) := by
  have hfar := (h ⟨c.row + 1, c.col + 1⟩ (by simp [Crossing.corners])).lt hg
  exact Surface.mem_crossings.2 ⟨Nat.lt_sub_of_add_lt hfar.1, Nat.lt_sub_of_add_lt hfar.2⟩

theorem isTable_mask (low high : Number α) : IsTable g.ys.length g.xs.length (g.mask low high) :=
  hg.map _

/-- Every crossing is shown if everything is flagged. -/
theorem shown_of_all (hall : (g.mask low high).all (·.all id) = true) (hrow : c.row < g.ys.length)
    (hcol : c.col < g.xs.length) : g.Shown low high c := by
  obtain ⟨b, hb⟩ := (isTable_mask hg low high).exists_entry_iff.2 ⟨hrow, hcol⟩
  obtain ⟨r, hr, hbr⟩ := Option.bind_eq_some_iff.1 hb
  have htrue : b = true := List.all_eq_true.1
    (List.all_eq_true.1 hall r (List.mem_of_getElem? hr)) b (List.mem_of_getElem? hbr)
  rw [shown_iff_mask, hb, htrue]

theorem shownCell_of_all (hall : (g.mask low high).all (·.all id) = true)
    (hc : c ∈ crossings (g.ys.length - 1) (g.xs.length - 1)) : g.ShownCell low high c := by
  intro p hp
  obtain ⟨hrow, hcol⟩ := corner_lt hc hp
  exact shown_of_all hg hall hrow hcol

/-- The numbers of the crossings that are shown. -/
theorem number_mem_flagged (hrow : c.row < g.ys.length) (hcol : c.col < g.xs.length) :
    c.number g.ys.length ∈ flagged (byColumn (g.mask low high)) ↔ g.Shown low high c := by
  rw [mem_flagged, (isTable_mask hg low high).getElem?_byColumn hrow hcol, shown_iff_mask]

theorem not_shownCell_of_flagged (hnone : flagged (byColumn (g.mask low high)) = [])
    (c : Crossing) : ¬ g.ShownCell low high c := by
  intro hc
  have hshown := hc c List.mem_cons_self
  obtain ⟨hrow, hcol⟩ := hshown.lt hg
  have hmem := (number_mem_flagged hg hrow hcol).2 hshown
  rw [hnone] at hmem
  cases hmem

section
variable {l : Mesher α} (hl : l.Lawful)
include hl

/-- The points of the whole mesh. -/
theorem at_coloured (h : g.Shown low high c) : (l.coloured g).At g c (c.number g.ys.length) := by
  obtain ⟨hrow, hcol⟩ := h.lt hg
  obtain ⟨v, hv, hfinite, -⟩ := h
  have hfilled : entryAt? g.filled c = some v := by
    rw [Grid.filled, entryAt?_map, hv, Option.map_some, if_pos hfinite]
  have hx := List.getElem?_eq_getElem hcol
  have hy := List.getElem?_eq_getElem hrow
  refine ⟨_, _, v, hx, hy, hv, ?_, (hg.getElem?_byColumn hrow hcol).trans hv⟩
  exact hl.place g.isTable_xTable g.isTable_yTable (hg.map _)
    ((Grid.entryAt?_xTable hrow).trans hx) ((Grid.entryAt?_yTable hcol).trans hy) hfilled

variable (hrows : 2 ≤ g.ys.length) (hcols : 2 ≤ g.xs.length)
include hrows hcols

theorem cells_coloured : (l.coloured g).cells.Perm
    ((crossings (g.ys.length - 1) (g.xs.length - 1)).map fun c =>
      c.corners.map (·.number g.ys.length)) :=
  hl.cells g.isTable_xTable g.isTable_yTable (hg.map _) hrows hcols

theorem closed_coloured : (l.coloured g).Closed := by
  intro ks hks k hk
  obtain ⟨c, hc, rfl⟩ := List.mem_map.1 ((cells_coloured hg hl hrows hcols).mem_iff.1 hks)
  obtain ⟨p, hp, rfl⟩ := List.mem_map.1 hk
  obtain ⟨hrow, hcol⟩ := corner_lt hc hp
  obtain ⟨px, hx⟩ := g.isTable_xTable.exists_entry_iff.2 ⟨hrow, hcol⟩
  obtain ⟨py, hy⟩ := g.isTable_yTable.exists_entry_iff.2 ⟨hrow, hcol⟩
  have hfilled : IsTable g.ys.length g.xs.length g.filled := hg.map _
  obtain ⟨pz, hz⟩ := hfilled.exists_entry_iff.2 ⟨hrow, hcol⟩
  have hplace := hl.place g.isTable_xTable g.isTable_yTable hfilled hx hy hz
  exact (List.getElem?_eq_some_iff.1 hplace).1

/-- A mesh draws the shown cells if its cells are those of the whole mesh that a test keeps, and the
test keeps exactly the shown ones. -/
theorem draws_of_kept {m : Mesh α} {kept : List (List ℕ)} {test : List ℕ → Bool}
    (hkept : kept.Perm ((l.coloured g).cells.filter test))
    (htest : ∀ c ∈ crossings (g.ys.length - 1) (g.xs.length - 1),
      test (c.corners.map (·.number g.ys.length)) = true ↔ g.ShownCell low high c)
    (hm : List.Forall₂ (List.Forall₂ ((l.coloured g).SamePoint m)) kept m.cells) :
    m.Draws g low high := by
  have hperm := hkept.trans ((cells_coloured hg hl hrows hcols).filter test)
  rw [List.filter_map] at hperm
  -- the kept cells come from crossings, in some order
  obtain ⟨cells, rfl, hcells⟩ := (congrFun (congrFun (List.eq_map_comp_perm _) _) _).mpr hperm
  have hmem : ∀ c, c ∈ cells ↔ g.ShownCell low high c := by
    intro c
    rw [hcells.mem_iff, List.mem_filter]
    refine ⟨fun h => (htest c h.1).1 h.2, fun h => ?_⟩
    have hc := h.mem_crossings hg
    exact ⟨hc, (htest c hc).2 h⟩
  refine ⟨cells, hcells.nodup_iff.2 ((nodup_crossings _ _).filter _), hmem, ?_⟩
  rw [List.forall₂_map_left_iff] at hm
  refine ((List.forall₂_and_left _ _).2 ⟨fun c hc => (hmem c).1 hc, hm⟩).imp ?_
  rintro c ks ⟨hshown, hks⟩
  rw [List.forall₂_map_left_iff] at hks
  refine ((List.forall₂_and_left _ _).2 ⟨hshown, hks⟩).imp ?_
  rintro p k ⟨hp, hsame⟩
  obtain ⟨x, y, z, hx, hy, hz, hplace, hheight⟩ := at_coloured hg hl hp
  exact ⟨x, y, z, hx, hy, hz, hsame.place.trans hplace, hsame.height.trans hheight⟩

/-- The whole mesh draws the shown cells if every crossing is shown. -/
theorem coloured_draws (hall : (g.mask low high).all (·.all id) = true) :
    (l.coloured g).Draws g low high := by
  have hkept : (l.coloured g).cells.Perm ((l.coloured g).cells.filter fun _ => true) := by
    rw [List.filter_true]
  refine draws_of_kept hg hl hrows hcols hkept
    (fun c hc => iff_of_true rfl (shownCell_of_all hg hall hc)) ?_
  exact List.forall₂_same.2 fun ks _ => List.forall₂_same.2 fun k _ => ⟨rfl, rfl⟩

/-- The part taken out of the whole mesh draws the shown cells. -/
theorem extract_draws (low high : Number α) : (l.extract (l.coloured g)
    (flagged (byColumn (g.mask low high)))).Draws g low high := by
  obtain ⟨kept, hkept, hm⟩ := hl.extract (closed_coloured hg hl hrows hcols)
    (flagged (byColumn (g.mask low high)))
  refine draws_of_kept hg hl hrows hcols hkept (fun c hc => ?_) hm
  rw [decide_eq_true_iff, List.forall_mem_map]
  refine forall₂_congr fun p hp => ?_
  obtain ⟨hrow, hcol⟩ := corner_lt hc hp
  exact number_mem_flagged hg hrow hcol

end

end

/-- What is drawn of a grid are exactly its cells with four shown corners, nothing if there is none. -/
theorem drawn_cells_shown {l : Mesher α} (hl : l.Lawful) (hg : g.Rectangular)
    (hrows : 2 ≤ g.ys.length) (hcols : 2 ≤ g.xs.length) (low high : Number α) :
    (l.surface? g low high = none ↔ ∀ c, ¬ g.ShownCell low high c) ∧
      ∀ m, l.surface? g low high = some m → m.Draws g low high := by
  unfold Mesher.surface?
  dsimp only
  by_cases hall : (g.mask low high).all (·.all id) = true
  · have hfirst : (⟨0, 0⟩ : Crossing) ∈ crossings (g.ys.length - 1) (g.xs.length - 1) :=
      mem_crossings.2 ⟨Nat.sub_pos_of_lt hrows, Nat.sub_pos_of_lt hcols⟩
    rw [if_pos hall]
    refine ⟨iff_of_false nofun fun h => h _ (shownCell_of_all hg hall hfirst), ?_⟩
    rintro m ⟨⟩
    exact coloured_draws hg hl hrows hcols hall
  · rw [if_neg hall]
    have hdraws := extract_draws hg hl hrows hcols low high
    by_cases hempty : (flagged (byColumn (g.mask low high))).isEmpty = true
    · rw [if_pos hempty]
      exact ⟨iff_of_true rfl (not_shownCell_of_flagged hg (List.isEmpty_iff.1 hempty)), nofun⟩
    · rw [if_neg hempty]
      constructor
      · rw [← hdraws.cells_eq_nil_iff, ← List.isEmpty_iff]
        split
        · rename_i h
          exact iff_of_true rfl h
        · rename_i h
          exact iff_of_false nofun h
      · intro m hm
        split at hm
        · cases hm
        · cases hm
          exact hdraws

/-- The quotients of some small numbers. None is finite where the divisor is zero. -/
def quotients : Grid Ranged :=
  Grid.ofAxes (· / ·) ([0, 1, 2].map .ofRat) ([0, 1, 2, 3].map .ofRat)

/-- The quotients between zero and one have cells. -/
theorem quotients_drawn : 2 ≤ quotients.ys.length ∧ 2 ≤ quotients.xs.length ∧
    ∃ m, Mesh.ofGrid? quotients (.int 0) (.int 1) = some m ∧ m.Draws quotients (.int 0) (.int 1) := by
  have hrows : 2 ≤ quotients.ys.length := by decide
  have hcols : 2 ≤ quotients.xs.length := by decide
  obtain ⟨hnone, hsome⟩ := drawn_cells_shown Mesher.standard_lawful
    (Grid.ofAxes_rectangular _ _ _ : quotients.Rectangular) hrows hcols (.int 0) (.int 1)
  have hshown : ∀ p ∈ (⟨1, 0⟩ : Crossing).corners,
      entryAt? (quotients.mask (.int 0) (.int 1)) p = some true := by decide +kernel
  have hcell : quotients.ShownCell (.int 0) (.int 1) ⟨1, 0⟩ :=
    fun p hp => shown_iff_mask.2 (hshown p hp)
  obtain ⟨m, hm⟩ := Option.ne_none_iff_exists'.1 fun h => hnone.1 h _ hcell
  exact ⟨hrows, hcols, m, hm, hsome m hm⟩

/-- Of twelve quotients, eight are corners of a cell. -/
example : (Mesh.ofGrid? quotients (.int 0) (.int 1)).map (·.cells) =
    some [[0, 1, 4, 3], [1, 2, 5, 4], [4, 5, 7, 6]] := by
  decide +kernel

end

end FieldWalk.Surface
