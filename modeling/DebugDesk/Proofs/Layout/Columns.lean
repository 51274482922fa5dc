import Mathlib.Data.List.Chain
import Mathlib.Tactic.Linarith
import Mathlib.Tactic.Ring
import DebugDesk.Proofs.Layout.Parts
import DebugDesk.Proofs.Number.Exact

/-!
# Columns of a layout

Over exact coordinates the parts of a graph become columns. A column has the boxes of its part
where the engine put them, moved to the top and to the right of the columns before it, and the gap
between two columns is the node spacing.
-/
namespace DebugDesk

open Exact

def LayoutBox.left {α : Type} [Scalar α] (b : LayoutBox α) : α := b.x - b.width / 2.0

def LayoutBox.right {α : Type} [Scalar α] (b : LayoutBox α) : α := b.x + b.width / 2.0

namespace Layout

abbrev Column := List (Int × LayoutBox ℚ)

/-- Where the boxes of a column have one of their sides. -/
def Column.sides (side : LayoutBox ℚ → ℚ) (column : Column) : Set ℚ :=
  {y | ∃ entry ∈ column, side entry.2 = y}

def NonNegative (size : Size ℚ) : Prop := 0 ≤ size.width ∧ 0 ≤ size.height

/-- The boxes of a part as an engine answers for them, all moved by the same distance. -/
structure Follows (place : Int → Placement ℚ) (c : Component ℚ) (column : Column) : Prop where
  keys : column.map Prod.fst = c.vertices
  shape : ∀ entry ∈ column, (⟨entry.2.width, entry.2.height⟩ : Size ℚ) = c.sizeOf entry.1
  rank : ∀ entry ∈ column, entry.2.rank = (place entry.1).rank
  moved : ∃ dx dy, ∀ entry ∈ column,
    entry.2.x = (place entry.1).center.x + dx ∧ entry.2.y = (place entry.1).center.y + dy

/-- A column stands between two edges, with its top at zero. -/
structure Stands (left right height : ℚ) (column : Column) : Prop where
  left : IsLeast (column.sides LayoutBox.left) left
  right : IsGreatest (column.sides LayoutBox.right) right
  top : IsLeast (column.sides LayoutBox.top) 0
  bottom : IsGreatest (column.sides LayoutBox.bottom) height

section Sides

variable {vertices : List Int} (box : Int → LayoutBox ℚ) {side : LayoutBox ℚ → ℚ} {f : Int → ℚ}
  {d : ℚ}

theorem sides_map (side : LayoutBox ℚ → ℚ) :
    Column.sides side (vertices.map fun v => (v, box v)) =
      {y | ∃ v ∈ vertices, side (box v) = y} := by
  ext y
  simp [Column.sides]

theorem isLeast_sides (h : vertices ≠ []) (start : ℚ) (hside : ∀ v, side (box v) = f v + d) :
    IsLeast (Column.sides side (vertices.map fun v => (v, box v)))
      (Scalar.least start (vertices.map f) + d) := by
  have hne : vertices.map f ≠ [] := by simpa using h
  obtain ⟨hmem, hle⟩ := isLeast_least start hne
  obtain ⟨v, hv, hfv⟩ := List.mem_map.mp hmem
  rw [sides_map]
  refine ⟨⟨v, hv, by rw [hside, hfv]⟩, ?_⟩
  rintro y ⟨w, hw, rfl⟩
  rw [hside]
  exact add_le_add_left (hle (List.mem_map_of_mem hw)) d

theorem isGreatest_sides (h : vertices ≠ []) (start : ℚ) (hside : ∀ v, side (box v) = f v + d) :
    IsGreatest (Column.sides side (vertices.map fun v => (v, box v)))
      (Scalar.greatest start (vertices.map f) + d) := by
  have hne : vertices.map f ≠ [] := by simpa using h
  obtain ⟨hmem, hge⟩ := isGreatest_greatest start hne
  obtain ⟨v, hv, hfv⟩ := List.mem_map.mp hmem
  rw [sides_map]
  refine ⟨⟨v, hv, by rw [hside, hfv]⟩, ?_⟩
  rintro y ⟨w, hw, rfl⟩
  rw [hside]
  exact add_le_add_left (hge (List.mem_map_of_mem hw)) d

end Sides

/-- A part is placed as a column that begins at the offset of the row. -/
theorem push_eq (row : Row ℚ) {c : Component ℚ} (hc : c.vertices ≠ []) (place : Int → Placement ℚ) :
    ∃ column right height, Follows place c column ∧ Stands row.offset right height column ∧
      row.push c place =
        ⟨row.boxes ++ column, right + c.nodeSpacing, max row.height height⟩ := by
  let xs (side : ℚ → ℚ → ℚ) (v : Int) : ℚ := side (place v).center.x ((c.sizeOf v).width / 2.0)
  let ys (side : ℚ → ℚ → ℚ) (v : Int) : ℚ := side (place v).center.y ((c.sizeOf v).height / 2.0)
  let left := Scalar.least 0.0 (c.vertices.map (xs (· - ·)))
  let right := Scalar.greatest 0.0 (c.vertices.map (xs (· + ·)))
  let top := Scalar.least 0.0 (c.vertices.map (ys (· - ·)))
  let bottom := Scalar.greatest 0.0 (c.vertices.map (ys (· + ·)))
  let box (v : Int) : LayoutBox ℚ :=
    { x := (place v).center.x - left + row.offset
      y := (place v).center.y - top
      width := (c.sizeOf v).width
      height := (c.sizeOf v).height
      rank := (place v).rank }
  have hleft : IsLeast (Column.sides LayoutBox.left (c.vertices.map fun v => (v, box v)))
      (left + (row.offset - left)) := by
    refine isLeast_sides box hc _ fun v => ?_
    simp only [LayoutBox.left, box, xs, two]
    ring
  have hright : IsGreatest (Column.sides LayoutBox.right (c.vertices.map fun v => (v, box v)))
      (right + (row.offset - left)) := by
    refine isGreatest_sides box hc _ fun v => ?_
    simp only [LayoutBox.right, box, xs, two]
    ring
  have htop : IsLeast (Column.sides LayoutBox.top (c.vertices.map fun v => (v, box v)))
      (top + -top) := by
    refine isLeast_sides box hc _ fun v => ?_
    simp only [LayoutBox.top, box, ys, two]
    ring
  have hbottom : IsGreatest (Column.sides LayoutBox.bottom (c.vertices.map fun v => (v, box v)))
      (bottom + -top) := by
    refine isGreatest_sides box hc _ fun v => ?_
    simp only [LayoutBox.bottom, box, ys, two]
    ring
  rw [add_sub_cancel] at hleft
  rw [add_neg_cancel] at htop
  refine ⟨_, _, _, ⟨?_, ?_, ?_, row.offset - left, -top, ?_⟩, ⟨hleft, hright, htop, hbottom⟩, ?_⟩
  · simp [Function.comp_def]
  · simp [box]
  · simp [box]
  · intro entry hentry
    obtain ⟨v, -, rfl⟩ := List.mem_map.mp hentry
    constructor
    · simp only [box]
      ring
    · simp only [box]
      ring
  · rw [← greater_eq_max]
    simp only [Row.push, Row.mk.injEq]
    refine ⟨rfl, ?_, congrArg _ (sub_eq_add_neg _ _)⟩
    change row.offset + (right - left + c.nodeSpacing) = _
    ring

theorem Follows.nonNegative {place : Int → Placement ℚ} {c : Component ℚ} {column : Column}
    (h : Follows place c column) (hsize : ∀ v, NonNegative (c.sizeOf v)) :
    ∀ entry ∈ column, entry.2.left ≤ entry.2.right ∧ entry.2.top ≤ entry.2.bottom := by
  intro entry hentry
  obtain ⟨hwidth, hheight⟩ : NonNegative ⟨entry.2.width, entry.2.height⟩ :=
    h.shape entry hentry ▸ hsize entry.1
  simp only [LayoutBox.left, LayoutBox.right, LayoutBox.top, LayoutBox.bottom, two]
  constructor <;> linarith

theorem Stands.order {left right height : ℚ} {column : Column}
    (h : Stands left right height column)
    (hsize : ∀ entry ∈ column, entry.2.left ≤ entry.2.right ∧ entry.2.top ≤ entry.2.bottom) :
    left ≤ right ∧ 0 ≤ height := by
  obtain ⟨entry, hentry, hleft⟩ := h.left.1
  obtain ⟨hwidth, hheight⟩ := hsize entry hentry
  constructor
  · calc left = entry.2.left := hleft.symm
      _ ≤ entry.2.right := hwidth
      _ ≤ right := h.right.2 ⟨entry, hentry, rfl⟩
  · calc (0 : ℚ) ≤ entry.2.top := h.top.2 ⟨entry, hentry, rfl⟩
      _ ≤ entry.2.bottom := hheight
      _ ≤ height := h.bottom.2 ⟨entry, hentry, rfl⟩

/-- Columns that stand one after the other, with gaps in between. Before them and after them there
are the offset and the height of the row. -/
inductive Columns (engine : ComponentEngine ℚ) (gap : ℚ) :
    ℚ → ℚ → List (Component ℚ) → List Column → ℚ → ℚ → Prop
  | nil {x height : ℚ} : Columns engine gap x height [] [] x height
  | cons {x height right tall x' height' : ℚ} {c : Component ℚ} {cs : List (Component ℚ)}
      {place : Int → Placement ℚ} {column : Column} {columns : List Column}
      (answered : engine c = .ok place) (follows : Follows place c column)
      (stands : Stands x right tall column)
      (rest : Columns engine gap (right + gap) (max height tall) cs columns x' height') :
      Columns engine gap x height (c :: cs) (column :: columns) x' height'

theorem columns_of_placeAll {engine : ComponentEngine ℚ} {gap : ℚ} {cs : List (Component ℚ)}
    {row done : Row ℚ} (h : placeAll engine row cs = .ok done)
    (hcs : ∀ c ∈ cs, c.vertices ≠ [] ∧ c.nodeSpacing = gap) :
    ∃ columns, Columns engine gap row.offset row.height cs columns done.offset done.height ∧
      done.boxes = row.boxes ++ columns.flatten := by
  induction cs generalizing row with
  | nil =>
    obtain rfl : row = done := Except.ok.inj h
    exact ⟨[], .nil, (List.append_nil _).symm⟩
  | cons c cs ih =>
    obtain ⟨⟨hc, hgap⟩, hrest⟩ := List.forall_mem_cons.mp hcs
    unfold placeAll at h
    cases he : engine c with
    | error fault => simp [he] at h
    | ok place =>
      obtain ⟨column, right, tall, hfollows, hstands, hpush⟩ := push_eq row hc place
      rw [he] at h
      dsimp only at h
      rw [hpush, hgap] at h
      obtain ⟨columns, hcolumns, hboxes⟩ := ih h hrest
      refine ⟨column :: columns, .cons he hfollows hstands hcolumns, ?_⟩
      rw [hboxes, List.append_assoc, List.flatten_cons]

def Answers (engine : ComponentEngine ℚ) (c : Component ℚ) (column : Column) : Prop :=
  ∃ place, engine c = .ok place ∧ Follows place c column

namespace Columns

variable {engine : ComponentEngine ℚ} {gap x height x' height' : ℚ} {cs : List (Component ℚ)}
  {columns : List Column}

theorem answers (h : Columns engine gap x height cs columns x' height') :
    List.Forall₂ (Answers engine) cs columns := by
  induction h with
  | nil => exact .nil
  | cons answered follows stands rest ih => exact .cons ⟨_, answered, follows⟩ ih

theorem tops (h : Columns engine gap x height cs columns x' height') :
    ∀ column ∈ columns, IsLeast (column.sides LayoutBox.top) 0 := by
  induction h with
  | nil => simp
  | cons answered follows stands rest ih => exact List.forall_mem_cons.mpr ⟨stands.top, ih⟩

/-- The columns stand between the offsets before and after them, below zero and above the
height. -/
theorem within (h : Columns engine gap x height cs columns x' height') (hgap : 0 ≤ gap)
    (hsize : ∀ c ∈ cs, ∀ v, NonNegative (c.sizeOf v)) :
    x ≤ x' ∧ height ≤ height' ∧ ∀ entry ∈ columns.flatten,
      (x ≤ entry.2.left ∧ entry.2.left ≤ entry.2.right ∧ entry.2.right + gap ≤ x') ∧
        0 ≤ entry.2.top ∧ entry.2.top ≤ entry.2.bottom ∧ entry.2.bottom ≤ height' := by
  induction h with
  | nil => simp
  | @cons x height right tall x' height' c cs place column columns answered follows stands rest
      ih =>
    obtain ⟨hc, hcs⟩ := List.forall_mem_cons.mp hsize
    obtain ⟨hx, hheight, hrest⟩ := ih hcs
    have hcolumn := follows.nonNegative hc
    have hwide := (stands.order hcolumn).1
    have htall : tall ≤ height' := (le_max_right _ _).trans hheight
    refine ⟨by linarith, (le_max_left _ _).trans hheight, ?_⟩
    intro entry hentry
    rcases List.mem_append.mp hentry with h | h
    · have hleft := stands.left.2 ⟨entry, h, rfl⟩
      have hright := stands.right.2 ⟨entry, h, rfl⟩
      have htop := stands.top.2 ⟨entry, h, rfl⟩
      have hbottom := stands.bottom.2 ⟨entry, h, rfl⟩
      exact ⟨⟨hleft, (hcolumn entry h).1, by linarith⟩, htop, (hcolumn entry h).2,
        hbottom.trans htall⟩
    · obtain ⟨⟨hleft, hright⟩, hdown⟩ := hrest entry h
      exact ⟨⟨by linarith, hright⟩, hdown⟩

theorem leftmost (h : Columns engine gap x height cs columns x' height') (hne : columns ≠ []) :
    ∃ entry ∈ columns.flatten, entry.2.left = x := by
  cases h with
  | nil => exact absurd rfl hne
  | cons answered follows stands rest =>
    obtain ⟨entry, hentry, hleft⟩ := stands.left.1
    exact ⟨entry, List.mem_append_left _ hentry, hleft⟩

/-- The last column ends a gap before the offset after. -/
theorem rightmost (h : Columns engine gap x height cs columns x' height') (hne : columns ≠ []) :
    ∃ entry ∈ columns.flatten, entry.2.right + gap = x' := by
  induction h with
  | nil => exact absurd rfl hne
  | @cons x height right tall x' height' c cs place column columns answered follows stands rest
      ih =>
    by_cases hlast : columns = []
    · subst hlast
      cases rest
      obtain ⟨entry, hentry, hright⟩ := stands.right.1
      exact ⟨entry, List.mem_append_left _ hentry, by rw [hright]⟩
    · obtain ⟨entry, hentry, hright⟩ := ih hlast
      exact ⟨entry, List.mem_append_right _ hentry, hright⟩

/-- The height is that of the tallest column, unless it was greater before. -/
theorem lowest (h : Columns engine gap x height cs columns x' height') :
    height' = height ∨ ∃ entry ∈ columns.flatten, entry.2.bottom = height' := by
  induction h with
  | nil => exact .inl rfl
  | @cons x height right tall x' height' c cs place column columns answered follows stands rest
      ih =>
    obtain hmax | ⟨entry, hentry, hbottom⟩ := ih
    · rcases max_choice height tall with h | h
      · exact .inl (hmax.trans h)
      · obtain ⟨entry, hentry, hbottom⟩ := stands.bottom.1
        exact .inr ⟨entry, List.mem_append_left _ hentry, by rw [hbottom, hmax, h]⟩
    · exact .inr ⟨entry, List.mem_append_right _ hentry, hbottom⟩

theorem gaps (h : Columns engine gap x height cs columns x' height') :
    columns.IsChain fun a b => ∃ edge, IsGreatest (a.sides LayoutBox.right) edge ∧
      IsLeast (b.sides LayoutBox.left) (edge + gap) := by
  induction h with
  | nil => exact .nil
  | cons answered follows stands rest ih =>
    cases rest with
    | nil => exact .singleton _
    | cons _ _ next _ => exact .cons_cons ⟨_, stands.right, next.left⟩ ih

theorem apart (h : Columns engine gap x height cs columns x' height') (hgap : 0 ≤ gap)
    (hsize : ∀ c ∈ cs, ∀ v, NonNegative (c.sizeOf v)) :
    columns.Pairwise fun a b => ∀ e ∈ a, ∀ f ∈ b, e.2.right + gap ≤ f.2.left := by
  induction h with
  | nil => exact .nil
  | @cons x height right tall x' height' c cs place column columns answered follows stands rest
      ih =>
    obtain ⟨-, hcs⟩ := List.forall_mem_cons.mp hsize
    refine .cons (fun b hb e he f hf => ?_) (ih hcs)
    obtain ⟨-, -, hrest⟩ := rest.within hgap hcs
    have hright : e.2.right ≤ right := stands.right.2 ⟨e, he, rfl⟩
    have hleft : right + gap ≤ f.2.left := (hrest f (List.mem_flatten_of_mem hb hf)).1.1
    linarith

end Columns

section Laid

variable (group : Grouping) (engine : ComponentEngine ℚ) (g : Graph) (sizes : Sizes ℚ)
  (nodeSpacing rankSpacing : ℚ)

/-- What the layout of a graph is: one box for each identifier, of the size that is given for it;
all boxes in columns, one for each part, in the order of their least identifiers; the layout extends
from zero to the sides of its outermost boxes. -/
structure Laid (edges : List (Int × Int)) (columns : List Column) (l : Layout ℚ) : Prop where
  keys : (l.boxes.map Prod.fst).Nodup
  boxed : ∀ id, id ∈ l.boxes.map Prod.fst ↔ ∃ v ∈ g.vertices, v.id = id
  sized : ∀ entry ∈ l.boxes, sizes.lookup entry.1 = some ⟨entry.2.width, entry.2.height⟩
  boxes : l.boxes = columns.flatten
  parts : List.Forall₂ (Answers engine)
    (partsOf group g sizes nodeSpacing rankSpacing edges) columns
  order : (columns.map (List.map Prod.fst)).Pairwise Precedes
  within : ∀ entry ∈ l.boxes, (0 ≤ entry.2.left ∧ entry.2.right ≤ l.width) ∧
    0 ≤ entry.2.top ∧ entry.2.bottom ≤ l.height
  tops : ∀ column ∈ columns, IsLeast (column.sides LayoutBox.top) 0
  leftmost : l.boxes ≠ [] → ∃ entry ∈ l.boxes, entry.2.left = 0
  rightmost : l.boxes ≠ [] → ∃ entry ∈ l.boxes, entry.2.right = l.width
  lowest : l.boxes ≠ [] → ∃ entry ∈ l.boxes, entry.2.bottom = l.height
  bare : l.boxes = [] → l.width = 0 ∧ l.height = 0
  gaps : columns.IsChain fun a b => ∃ edge, IsGreatest (a.sides LayoutBox.right) edge ∧
    IsLeast (b.sides LayoutBox.left) (edge + nodeSpacing)
  apart : columns.Pairwise fun a b => ∀ e ∈ a, ∀ f ∈ b, e.2.right + nodeSpacing ≤ f.2.left

variable {group engine g sizes nodeSpacing rankSpacing}

theorem mem_of_lookup {β : Type} {entries : List (Int × β)} {id : Int} {value : β}
    (h : entries.lookup id = some value) : (id, value) ∈ entries := by
  obtain ⟨before, after, rfl, -⟩ := List.lookup_eq_some_iff.mp h
  simp

theorem nonNegative_sizeIn (h : ∀ entry ∈ sizes, NonNegative entry.2) (id : Int) :
    NonNegative (sizeIn sizes id) := by
  unfold sizeIn
  cases hs : sizes.lookup id with
  | none => simp [NonNegative, zero]
  | some size => exact h (id, size) (mem_of_lookup hs)

theorem map_partsOf (edges : List (Int × Int)) :
    (partsOf group g sizes nodeSpacing rankSpacing edges).map Component.vertices =
      components (group (g.vertices.map Vertex.id).eraseDups edges) :=
  map_parts _ _ _ _ _ _

theorem mem_partsOf (hgroup : Partitions group) {edges : List (Int × Int)} {c : Component ℚ}
    (h : c ∈ partsOf group g sizes nodeSpacing rankSpacing edges) :
    c.vertices ≠ [] ∧ c.nodeSpacing = nodeSpacing ∧ c.sizeOf = sizeIn sizes := by
  obtain ⟨vertices, hvertices, rfl⟩ := List.mem_map.mp h
  obtain ⟨set, hset, rfl⟩ := mem_components hvertices
  exact ⟨ascending_ne_nil (hgroup.inhabited (nodup_eraseDups _) _ set hset), rfl, rfl⟩

theorem map_keys {cs : List (Component ℚ)} {columns : List Column}
    (h : List.Forall₂ (Answers engine) cs columns) :
    columns.map (List.map Prod.fst) = cs.map Component.vertices := by
  induction h with
  | nil => rfl
  | cons answers _ ih =>
    obtain ⟨place, -, hfollows⟩ := answers
    rw [List.map_cons, List.map_cons, hfollows.keys, ih]

theorem shape_of_answers {cs : List (Component ℚ)} {columns : List Column}
    (h : List.Forall₂ (Answers engine) cs columns) :
    ∀ entry ∈ columns.flatten, ∃ c ∈ cs, entry.1 ∈ c.vertices ∧
      (⟨entry.2.width, entry.2.height⟩ : Size ℚ) = c.sizeOf entry.1 := by
  induction h with
  | nil => simp
  | @cons c column cs columns answers _ ih =>
    obtain ⟨place, -, hfollows⟩ := answers
    intro entry hentry
    rcases List.mem_append.mp hentry with h | h
    · refine ⟨c, List.mem_cons_self, ?_, hfollows.shape entry h⟩
      rw [← hfollows.keys]
      exact List.mem_map_of_mem h
    · obtain ⟨d, hd, hshape⟩ := ih entry h
      exact ⟨d, List.mem_cons_of_mem _ hd, hshape⟩

theorem mem_vertices_partsOf (hgroup : Partitions group) {edges : List (Int × Int)} {id : Int} :
    id ∈ (partsOf group g sizes nodeSpacing rankSpacing edges).flatMap Component.vertices ↔
      ∃ v ∈ g.vertices, v.id = id := by
  rw [(flatMap_partsOf hgroup g sizes nodeSpacing rankSpacing edges).mem_iff, List.mem_eraseDups,
    List.mem_map]

theorem laid_of_bare (hbare : g.vertices = []) (hgroup : Partitions group) :
    Laid group engine g sizes nodeSpacing rankSpacing [] [] ⟨[], 0.0, 0.0⟩ := by
  have hparts : partsOf group g sizes nodeSpacing rankSpacing [] = [] := by
    rw [List.eq_nil_iff_forall_not_mem]
    intro c hc
    obtain ⟨id, hid⟩ := List.exists_mem_of_ne_nil _ (mem_partsOf hgroup hc).1
    obtain ⟨v, hv, -⟩ := (mem_vertices_partsOf hgroup).mp (List.mem_flatMap.mpr ⟨c, hc, hid⟩)
    simp [hbare] at hv
  constructor <;> simp [hbare, hparts, zero]

theorem order_of_answers (hgroup : Partitions group) {edges : List (Int × Int)}
    {columns : List Column} (h : List.Forall₂ (Answers engine)
      (partsOf group g sizes nodeSpacing rankSpacing edges) columns) :
    (columns.map (List.map Prod.fst)).Pairwise Precedes := by
  have hd := nodup_eraseDups (g.vertices.map Vertex.id)
  rw [map_keys h, map_partsOf]
  exact components_pairwise (hgroup.inhabited hd edges)
    ((hgroup.perm hd edges).nodup_iff.mpr hd)

theorem sized_of_answers (hgroup : Partitions group) {edges : List (Int × Int)}
    {columns : List Column} (h : List.Forall₂ (Answers engine)
      (partsOf group g sizes nodeSpacing rankSpacing edges) columns)
    (sized : ∀ v ∈ g.vertices, sizes.lookup v.id ≠ none) :
    ∀ entry ∈ columns.flatten,
      sizes.lookup entry.1 = some ⟨entry.2.width, entry.2.height⟩ := by
  intro entry hentry
  obtain ⟨c, hc, hid, hshape⟩ := shape_of_answers h entry hentry
  obtain ⟨v, hv, hv'⟩ :=
    (mem_vertices_partsOf hgroup).mp (List.mem_flatMap.mpr ⟨c, hc, hid⟩)
  obtain ⟨size, hlookup⟩ := Option.ne_none_iff_exists'.mp (hv' ▸ sized v hv)
  rw [hshape, (mem_partsOf hgroup hc).2.2, sizeIn, hlookup, Option.getD_some]

/-- All boxes have the sizes that are given, whatever the gaps are. -/
theorem ofGraphBy_sized (hgroup : Partitions group) {l : Layout ℚ}
    (h : ofGraphBy group engine g sizes nodeSpacing rankSpacing = .ok l) :
    ∀ entry ∈ l.boxes, sizes.lookup entry.1 = some ⟨entry.2.width, entry.2.height⟩ := by
  have hends := ofGraphBy_ends group engine g sizes nodeSpacing rankSpacing
  rw [h] at hends
  cases hends with
  | bare => simp
  | placed _ _ sized _ laid =>
    obtain ⟨columns, hcolumns, hboxes⟩ := columns_of_placeAll laid
      fun c hc => ⟨(mem_partsOf hgroup hc).1, (mem_partsOf hgroup hc).2.1⟩
    dsimp only
    rw [hboxes, List.nil_append]
    exact sized_of_answers hgroup hcolumns.answers sized

theorem laid_of_placed (hgroup : Partitions group) (hsizes : ∀ entry ∈ sizes, NonNegative entry.2)
    (hspacing : 0 ≤ nodeSpacing) {edges : List (Int × Int)} {row : Row ℚ}
    (inhabited : g.vertices ≠ []) (sized : ∀ v ∈ g.vertices, sizes.lookup v.id ≠ none)
    (laid : placeAll engine ⟨[], 0.0, 0.0⟩
      (partsOf group g sizes nodeSpacing rankSpacing edges) = .ok row) :
    ∃ columns, Laid group engine g sizes nodeSpacing rankSpacing edges columns
      ⟨row.boxes, Scalar.greater (row.offset - nodeSpacing) 0.0, row.height⟩ := by
  obtain ⟨columns, hcolumns, hboxes⟩ := columns_of_placeAll laid
    fun c hc => ⟨(mem_partsOf hgroup hc).1, (mem_partsOf hgroup hc).2.1⟩
  simp only [List.nil_append, zero] at hboxes hcolumns
  have hsize : ∀ c ∈ partsOf group g sizes nodeSpacing rankSpacing edges, ∀ v,
      NonNegative (c.sizeOf v) := by
    intro c hc v
    rw [(mem_partsOf hgroup hc).2.2]
    exact nonNegative_sizeIn hsizes v
  have hkeys := keys_placeAll laid
  rw [List.map_nil, List.nil_append] at hkeys
  have hne : columns ≠ [] := by
    rintro rfl
    obtain ⟨v, hv⟩ := List.exists_mem_of_ne_nil _ inhabited
    have hid : v.id ∈ row.boxes.map Prod.fst := by
      rw [hkeys]
      exact (mem_vertices_partsOf hgroup).mpr ⟨v, hv, rfl⟩
    rw [hboxes] at hid
    cases hid
  obtain ⟨-, -, hwithin⟩ := hcolumns.within hspacing hsize
  obtain ⟨first, hfirst, hleft⟩ := hcolumns.leftmost hne
  obtain ⟨last, hlast, hright⟩ := hcolumns.rightmost hne
  have hwidth : Scalar.greater (row.offset - nodeSpacing) 0.0 = row.offset - nodeSpacing := by
    obtain ⟨⟨hzero, hlr, -⟩, -⟩ := hwithin last hlast
    rw [greater_eq_max, zero, max_eq_left]
    linarith
  refine ⟨columns, ⟨?_, fun id => ?_, ?_, hboxes, hcolumns.answers,
    order_of_answers hgroup hcolumns.answers, ?_, hcolumns.tops, ?_, ?_, ?_, ?_, hcolumns.gaps,
    hcolumns.apart hspacing hsize⟩⟩
  all_goals dsimp only
  · rw [hkeys]
    exact (flatMap_partsOf hgroup g sizes nodeSpacing rankSpacing edges).nodup_iff.mpr
      (nodup_eraseDups _)
  · rw [hkeys]
    exact mem_vertices_partsOf hgroup
  all_goals rw [hboxes]
  · exact sized_of_answers hgroup hcolumns.answers sized
  · intro entry hentry
    obtain ⟨⟨hzero, -, hend⟩, htop, -, hbottom⟩ := hwithin entry hentry
    rw [hwidth]
    exact ⟨⟨hzero, by linarith⟩, htop, hbottom⟩
  · exact fun _ => ⟨first, hfirst, hleft⟩
  · refine fun _ => ⟨last, hlast, ?_⟩
    rw [hwidth]
    linarith
  · obtain hheight | hlowest := hcolumns.lowest
    -- All boxes are as flat as the row was before the first of them.
    · obtain ⟨-, htop, htb, hbottom⟩ := hwithin first hfirst
      refine fun _ => ⟨first, hfirst, le_antisymm hbottom ?_⟩
      rw [hheight]
      exact htop.trans htb
    · exact fun _ => hlowest
  · intro hnil
    rw [hnil] at hfirst
    cases hfirst

/-- A graph is either refused, for a reason there is, or laid out in columns. -/
theorem ofGraphBy_laid (hgroup : Partitions group) (hsizes : ∀ entry ∈ sizes, NonNegative entry.2)
    (hspacing : 0 ≤ nodeSpacing) :
    (∀ fault, ofGraphBy group engine g sizes nodeSpacing rankSpacing = .error fault →
      Refused group engine g sizes nodeSpacing rankSpacing fault) ∧
    ((∃ fault, ofGraphBy group engine g sizes nodeSpacing rankSpacing = .error fault) ↔
      ∃ fault, Refused group engine g sizes nodeSpacing rankSpacing fault) ∧
    ∀ l, ofGraphBy group engine g sizes nodeSpacing rankSpacing = .ok l → ∃ edges columns,
      (g.vertices ≠ [] → plainEdges g g.edges [] = .ok edges) ∧
        Laid group engine g sizes nodeSpacing rankSpacing edges columns l := by
  have hends := ofGraphBy_ends group engine g sizes nodeSpacing rankSpacing
  refine ⟨fun fault h => ?_, ofGraphBy_error_iff group engine g sizes nodeSpacing rankSpacing,
    fun l h => ?_⟩
  · rw [h] at hends
    cases hends with
    | refused hrefused => exact hrefused
  · rw [h] at hends
    cases hends with
    | bare hbare => exact ⟨[], [], fun hne => absurd hbare hne, laid_of_bare hbare hgroup⟩
    | @placed edges row numbered inhabited sized plain laid =>
      obtain ⟨columns, hlaid⟩ := laid_of_placed hgroup hsizes hspacing inhabited sized laid
      exact ⟨edges, columns, fun _ => plain, hlaid⟩

/-- An engine that stacks a part that is a chain of boxes of height 50. -/
def stacking : ComponentEngine ℚ := fun c =>
  .ok fun id => ⟨⟨0, 25 + 110 * c.vertices.idxOf id⟩, c.vertices.idxOf id⟩

/-- A graph of two parts: a chain of two vertices, and a vertex alone. -/
def twoParts : Graph :=
  ⟨[⟨0, [], false⟩, ⟨1, [], false⟩, ⟨2, [], false⟩], [⟨.inside 0, .inside 1⟩], none, .nothing⟩

theorem twoParts_laid :
    ∃ l columns, ofGraphBy connected stacking twoParts
        [(0, ⟨100, 50⟩), (1, ⟨100, 50⟩), (2, ⟨100, 50⟩)] 40 60 = .ok l ∧
      Laid connected stacking twoParts [(0, ⟨100, 50⟩), (1, ⟨100, 50⟩), (2, ⟨100, 50⟩)] 40 60
        [(0, 1)] columns l := by
  obtain ⟨-, hrefused, hlaid⟩ := @ofGraphBy_laid connected stacking twoParts
    [(0, ⟨100, 50⟩), (1, ⟨100, 50⟩), (2, ⟨100, 50⟩)] 40 60 connected_partitions
    (by simp [NonNegative]) (by norm_num)
  cases hr : ofGraphBy connected stacking twoParts
      [(0, ⟨100, 50⟩), (1, ⟨100, 50⟩), (2, ⟨100, 50⟩)] 40 60 with
  | error fault =>
    obtain ⟨fault, hfault⟩ := hrefused.mp ⟨fault, hr⟩
    cases hfault with
    | unnumbered mem h =>
      simp only [twoParts, List.mem_cons, List.not_mem_nil, or_false] at mem
      obtain rfl | rfl | rfl := mem <;> cases h
    | unsized mem h =>
      simp only [twoParts, List.mem_cons, List.not_mem_nil, or_false] at mem
      obtain rfl | rfl | rfl := mem <;> simp at h
    | leaving _ mem h =>
      simp only [twoParts, List.mem_singleton] at mem
      simp [mem, Leaves] at h
    | failing _ _ _ h => cases h
  | ok l =>
    obtain ⟨edges, columns, hplain, hcolumns⟩ := hlaid l hr
    cases hplain (by simp [twoParts])
    exact ⟨l, columns, rfl, hcolumns⟩

end Laid

end Layout

end DebugDesk
