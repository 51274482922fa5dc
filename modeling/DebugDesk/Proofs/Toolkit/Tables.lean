import DebugDesk.Proofs.Toolkit.Displays

/-!
# Tables

What a table shows is what the cells of its rows were made with, in order of creation. New items go
where they are meant to because no item has or refers to an identifier that is still to be given.
-/
namespace DebugDesk.Toolkit

structure Cell where
  arguments : List Value
  options : Options

/-- A cell of a row has neither a tag nor another parent. -/
def Cell.Inside (c : Cell) : Prop :=
  c.options.lookup "tag" = none ∧ c.options.lookup "parent" = none

namespace Display

def cellsOf (s : Display) (row : String) : List Cell :=
  (s.childrenOf row).map fun x => ⟨x.arguments, x.options⟩

def rowsOf (s : Display) (table : String) : List (List Cell) :=
  ((s.childrenOf table).filter isRow).map fun x => s.cellsOf x.id

/-- No item has or refers to an identifier that is still to be given. -/
structure Fresh (s : Display) : Prop where
  known : s.Known
  parents : ∀ x ∈ s.items, ∀ p ∈ x.parent, s.issued p

/-- A table is on the screen and no row of itself. -/
structure HasTable (s : Display) (table : String) : Prop where
  fresh : s.Fresh
  there : (s.look table).isSome
  apart : ∀ x ∈ s.childrenOf table, x.id ≠ table

variable {s s' : Display} {id table : String} {x c : Shown} {done : List Cell}

theorem Fresh.childrenOf_not_issued (h : s.Fresh) (hid : ¬s.issued id) : s.childrenOf id = [] := by
  refine List.filter_eq_nil_iff.mpr fun x hx => ?_
  rw [decide_eq_true_eq]
  exact fun hparent => hid (h.parents x hx id hparent)

theorem Fresh.without (h : s.Fresh) (ids : List String) : (s.without ids).Fresh :=
  ⟨fun x hx => h.known x (mem_without.mp hx).1, fun x hx => h.parents x (mem_without.mp hx).1⟩

theorem Fresh.inside (h : s.Fresh) (containers : List String) :
    ({ s with containers } : Display).Fresh := ⟨h.known, h.parents⟩

theorem Fresh.adding (h : s.Fresh) (hparent : ∀ p ∈ x.parent, s.issued p) :
    (s.adding x).Fresh := by
  refine ⟨h.known.adding x, fun y hy p hp => .inl ?_⟩
  rcases List.mem_append.mp hy with hy | hy
  · exact h.parents y hy p hp
  · obtain rfl := List.mem_singleton.mp hy
    exact hparent p hp

theorem childrenOf_adding (s : Display) (x : Shown) (id : String) :
    (s.adding x).childrenOf id = s.childrenOf id ++ if x.parent = some id then [x] else [] := by
  rw [childrenOf, Display.adding, List.filter_append, childrenOf, List.filter_singleton,
    Bool.cond_decide]

theorem cellsOf_adding (s : Display) (x : Shown) (id : String) : (s.adding x).cellsOf id =
    s.cellsOf id ++ if x.parent = some id then [⟨x.arguments, x.options⟩] else [] := by
  rw [cellsOf, childrenOf_adding, List.map_append, cellsOf]
  split <;> rfl

theorem HasTable.given (h : s.HasTable table) : s.issued table := by
  obtain ⟨x, hx, rfl⟩ := look_isSome.mp h.there
  exact h.fresh.known x hx

theorem HasTable.inside (h : s.HasTable table) (containers : List String) :
    ({ s with containers } : Display).HasTable table :=
  ⟨h.fresh.inside containers, h.there, h.apart⟩

theorem HasTable.adding (h : s.HasTable table) (hx : ¬s.issued x.id)
    (hparent : ∀ p ∈ x.parent, s.issued p) : (s.adding x).HasTable table := by
  have hne : table ≠ x.id := fun he => hx (he ▸ h.given)
  refine ⟨h.fresh.adding hparent, ?_, fun y hy => ?_⟩
  · rw [look_adding h.fresh.known hx, if_neg hne]
    exact h.there
  · rw [childrenOf_adding, List.mem_append] at hy
    rcases hy with hy | hy
    · exact h.apart y hy
    · split at hy
      · obtain rfl := List.mem_singleton.mp hy
        exact hne.symm
      · cases hy

theorem Fresh.hasTable (h : s.Fresh) (hx : ¬s.issued x.id)
    (hparent : ∀ p ∈ x.parent, s.issued p) : (s.adding x).HasTable x.id := by
  refine ⟨h.adding hparent, by simp [look_adding h.known hx], fun y hy => ?_⟩
  have hno : x.parent ≠ some x.id := fun hself => hx (hparent _ hself)
  rw [childrenOf_adding, if_neg hno, h.childrenOf_not_issued hx] at hy
  cases hy

/-- Of a table without rows only the columns may be left. -/
theorem HasTable.withoutRows {gone : List String} (h : s.HasTable table) (htable : table ∉ gone)
    (hgone : ∀ x ∈ s.childrenOf table, isRow x → x.id ∈ gone) :
    (s.without gone).HasTable table ∧ (s.without gone).rowsOf table = [] := by
  have hchild {x : Shown} (hx : x ∈ (s.without gone).childrenOf table) :
      x ∈ s.childrenOf table ∧ x.id ∉ gone := by
    obtain ⟨hx, hparent⟩ := List.mem_filter.mp hx
    obtain ⟨hx, hkept⟩ := mem_without.mp hx
    exact ⟨List.mem_filter.mpr ⟨hx, hparent⟩, hkept⟩
  refine ⟨⟨h.fresh.without gone, ?_, fun x hx => h.apart x (hchild hx).1⟩, ?_⟩
  · rw [look_without, if_neg htable]
    exact h.there
  · rw [rowsOf, List.filter_eq_nil_iff.mpr fun x hx hrow => ?_, List.map_nil]
    exact (hchild hx).2 (hgone x (hchild hx).1 hrow)

/-- A new row `x` of a table has some cells so far, and new items go into it. -/
structure Filling (s : Display) (table : String) (x : Shown) (done : List Cell) (s' : Display) :
    Prop where
  hasTable : s'.HasTable table
  row : s'.issued x.id
  containers : s'.containers = x.id :: s.containers
  children : s'.childrenOf table = s.childrenOf table ++ [x]
  cells : ∀ id ≠ table, s'.cellsOf id = if id = x.id then done else s.cellsOf id

theorem HasTable.filling (h : s.HasTable table) (hx : ¬s.issued x.id)
    (hparent : x.parent = some table) :
    s.Filling table x [] { s.adding x with containers := x.id :: s.containers } := by
  refine ⟨(h.adding hx ?_).inside _, .inr rfl, rfl, ?_, fun id hid => ?_⟩
  · rw [hparent]
    rintro p ⟨rfl⟩
    exact h.given
  · refine (childrenOf_adding s x table).trans ?_
    rw [hparent, if_pos rfl]
  · refine (cellsOf_adding s x id).trans ?_
    rw [hparent, if_neg fun hsome => hid (Option.some.inj hsome).symm, List.append_nil]
    split
    next heq =>
      rw [cellsOf, heq, h.fresh.childrenOf_not_issued hx]
      rfl
    next => rfl

theorem Filling.adding (h : s.Filling table x done s') (ht : s.issued table) (hx : ¬s.issued x.id)
    (hc : ¬s'.issued c.id) (hparent : c.parent = some x.id) :
    s.Filling table x (done ++ [⟨c.arguments, c.options⟩]) (s'.adding c) := by
  have hne : x.id ≠ table := fun he => hx (he ▸ ht)
  refine ⟨h.hasTable.adding hc ?_, .inl h.row, h.containers, ?_, fun id hid => ?_⟩
  · rw [hparent]
    rintro p ⟨rfl⟩
    exact h.row
  · rw [childrenOf_adding, hparent, if_neg fun hsome => hne (Option.some.inj hsome),
      List.append_nil, h.children]
  · rw [cellsOf_adding, h.cells id hid, hparent]
    by_cases heq : id = x.id
    · simp [heq]
    · rw [if_neg heq, if_neg heq, if_neg fun hsome => heq (Option.some.inj hsome).symm,
        List.append_nil]

/-- A row that is filled comes last, and all others stay what they are. -/
theorem Filling.rowsOf (h : s.Filling table x done s') (hs : s.HasTable table)
    (hx : ¬s.issued x.id) (hrow : isRow x) : s'.rowsOf table = s.rowsOf table ++ [done] := by
  rw [Display.rowsOf, h.children, List.filter_append, List.filter_singleton, hrow, cond_true,
    List.map_append, Display.rowsOf]
  congr 1
  · refine List.map_congr_left fun y hy => ?_
    have hy := (List.mem_filter.mp hy).1
    have hold : y.id ≠ x.id := fun he => hx (he ▸ hs.fresh.known y (List.mem_filter.mp hy).1)
    rw [h.cells y.id (hs.apart y hy), if_neg hold]
  · have hne : x.id ≠ table := fun he => hx (he ▸ hs.given)
    rw [List.map_singleton, h.cells x.id hne, if_pos rfl]

end Display

variable {τ κ : Type} [Gui τ κ]

def addCell (t : τ) (c : Cell) : τ := (Gui.make t "add_text" c.arguments c.options none).2

def withRow (t : τ) (table : String) (cells : List Cell) : τ :=
  let row := Gui.make t "table_row" [] [("parent", .text table)] none
  Gui.leave (cells.foldl addCell (Gui.enter row.2 row.1))

variable [LawfulGui τ κ] {t t' : τ} {table : String} {cells done : List Cell}

/-- A valid toolkit shows a table. -/
structure HasTable (t : τ) (table : String) : Prop where
  valid : Valid t
  table : (display t).HasTable table

/-- Cells that are made one after the other. -/
theorem filling_addCells {s : Display} {x : Shown} (ht : s.issued table) (hx : ¬s.issued x.id)
    (hcells : ∀ c ∈ cells, c.Inside) (hvalid : Valid t)
    (h : s.Filling table x done (display t)) : Valid (cells.foldl addCell t) ∧
      s.Filling table x (done ++ cells) (display (cells.foldl addCell t)) := by
  induction cells generalizing done t with
  | nil => exact ⟨hvalid, by rwa [List.append_nil]⟩
  | cons c cells ih =>
    obtain ⟨⟨htag, hparent⟩, hcells⟩ := List.forall_mem_cons.mp hcells
    obtain ⟨hvalid', hnew, hdisplay⟩ := LawfulGui.make t "add_text" c.arguments c.options none
      hvalid h.hasTable.fresh.known (by decide) htag
    have hrow : (display t).parentOf c.options = some x.id := by
      simp only [Display.parentOf, hparent, h.containers, List.head?_cons]
    have hnext := h.adding (c := ⟨_, "add_text", c.arguments, c.options, _⟩) ht hx hnew hrow
    rw [List.append_cons]
    exact ih hcells hvalid' (hdisplay ▸ hnext)

/-- A new row comes last, and all others stay what they are. -/
theorem HasTable.withRow (h : HasTable t table) (hcells : ∀ c ∈ cells, c.Inside) :
    HasTable (withRow t table cells) table ∧
      (display (withRow t table cells)).rowsOf table = (display t).rowsOf table ++ [cells] := by
  obtain ⟨hvalid, hnew, hdisplay⟩ := LawfulGui.make t "table_row" [] [("parent", .text table)] none
    h.valid h.table.fresh.known (by decide) rfl
  obtain ⟨hvalid, hentered⟩ := LawfulGui.enter (Gui.make t "table_row" [] _ none).1 hvalid
  rw [hdisplay] at hentered
  obtain ⟨hvalid, hfilled⟩ := filling_addCells h.table.given hnew hcells hvalid
    (hentered ▸ h.table.filling hnew rfl)
  obtain ⟨hvalid, hleft⟩ := LawfulGui.leave hvalid
  refine ⟨⟨hvalid, ?_⟩, ?_⟩ <;> rw [Toolkit.withRow, hleft]
  · exact hfilled.hasTable.inside _
  · exact hfilled.rowsOf h.table hnew rfl

theorem HasTable.deleteRows (h : HasTable t table) :
    ∃ t', (Gui.deleteChildren (some table) .rows).outcome t = (.ok (), t') ∧ HasTable t' table ∧
      (display t').rowsOf table = [] := by
  obtain ⟨t', gone, hdelete, hvalid, htable, hgone, -, hdisplay⟩ :=
    LawfulGui.deleteRows h.valid h.table.there
  obtain ⟨htable, hrows⟩ := h.table.withoutRows htable fun x hx hrow =>
    hgone x hx hrow (h.table.apart x hx)
  exact ⟨t', hdelete, ⟨hvalid, hdisplay ▸ htable⟩, hdisplay ▸ hrows⟩

end DebugDesk.Toolkit
