import DebugDesk.Toolkit.Basic
import Mathlib.Data.List.Nodup
import Mathlib.Order.Defs.Unbundled

/-!
# Displays

What a toolkit displays are the items that exist, in order of creation, and windows that lie above
each other. A lawful toolkit does with them what its functions are for: a new item has an identifier
of its own, a new window comes up on top, only a window that is focused is raised otherwise, and an
item is deleted with what is below it and nothing else.
-/
namespace DebugDesk.Toolkit

def makers : List String :=
  ["window", "child_window", "group", "theme", "theme_component", "handler_registry", "table_row",
    "add_group", "add_child_window", "add_drawlist", "add_button", "add_text", "add_table",
    "add_table_column", "add_theme_style", "add_mouse_click_handler", "add_mouse_move_handler",
    "add_mouse_release_handler", "add_mouse_wheel_handler"]

/-- The functions that change how items look, and nothing else. -/
def passive : List String := ["bind_item_theme", "set_value", "set_y_scroll"]

structure Shown where
  id : String
  kind : String
  arguments : List Value
  options : Options
  parent : Option String

/-- What an item is, and what it is part of. -/
structure Outline where
  kind : String
  parent : Option String

@[ext]
structure Display where
  /-- The items that exist, in order of creation. -/
  items : List Shown
  /-- The items that new ones go into, innermost first. -/
  containers : List String
  /-- The identifiers that no new item is given any more. -/
  issued : String → Prop
  /-- The windows and the themes that were made, in order. -/
  windows : List String
  themes : List String
  /-- The windows from bottom to top, with those that were deleted since. -/
  stack : List String

namespace Display

def look (s : Display) (id : String) : Option Outline :=
  (s.items.find? fun x => x.id = id).map fun x => ⟨x.kind, x.parent⟩

def onScreen (s : Display) : List String := s.stack.filter fun id => (s.look id).isSome

def childrenOf (s : Display) (id : String) : List Shown :=
  s.items.filter fun x => x.parent = some id

def parentOf (s : Display) (options : Options) : Option String :=
  match options.lookup "parent" with
  | some (.text parent) => some parent
  | _ => s.containers.head?

def adding (s : Display) (x : Shown) : Display :=
  { s with
    items := s.items ++ [x]
    issued := fun id => s.issued id ∨ id = x.id
    windows := s.windows ++ if x.kind = "window" then [x.id] else []
    themes := s.themes ++ if x.kind = "theme" then [x.id] else []
    stack := s.stack ++ if x.kind = "window" then [x.id] else [] }

def without (s : Display) (ids : List String) : Display :=
  { s with items := s.items.filter fun x => x.id ∉ ids }

def changed (id : String) (f : Options → Options) (x : Shown) : Shown :=
  if x.id = id then { x with options := f x.options } else x

def changing (s : Display) (id : String) (f : Options → Options) : Display :=
  { s with items := s.items.map (changed id f) }

/-- An item and all that is below it. -/
inductive Below (s : Display) (top : String) : String → Prop where
  | self : s.Below top top
  | child {x y : Shown} (there : x ∈ s.items) (above : y ∈ s.items) (parent : x.parent = some y.id)
    (below : s.Below top y.id) : s.Below top x.id

/-- A window of the stack goes on top. -/
def raised (stack : List String) (id : String) : List String :=
  if id ∈ stack then stack.erase id ++ [id] else stack

/-- No item has an identifier that is still to be given. -/
def Known (s : Display) : Prop := ∀ x ∈ s.items, s.issued x.id

end Display

/-- The children of a table are its columns and its rows. -/
def isRow (x : Shown) : Bool := x.kind != "add_table_column"

end Toolkit

open Toolkit

/-- A toolkit whose functions do with its display what they are for, as long as it is valid. -/
class LawfulGui (τ : Type) (κ : outParam Type) [Gui τ κ] where
  display : τ → Display
  Valid : τ → Prop
  /-- In the beginning nothing is displayed. -/
  empty : Valid (Gui.empty : τ) ∧ ∃ issued, display (Gui.empty : τ) = ⟨[], [], issued, [], [], []⟩
  /-- A new item comes last, and has an identifier that no other one had. -/
  make (t : τ) (kind : String) (arguments : List Value) (options : Options) (callback : Option κ) :
    Valid t → (display t).Known → kind ∈ makers → options.lookup "tag" = none →
      let made := Gui.make t kind arguments options callback
      Valid made.2 ∧ ¬(display t).issued made.1 ∧ display made.2 =
        (display t).adding ⟨made.1, kind, arguments, options, (display t).parentOf options⟩
  enter {t : τ} (id : String) : Valid t → Valid (Gui.enter t id) ∧
    display (Gui.enter t id) = { display t with containers := id :: (display t).containers }
  leave {t : τ} : Valid t → Valid (Gui.leave t) ∧
    display (Gui.leave t) = { display t with containers := (display t).containers.tail }
  /-- What only changes how items look leaves them alone. -/
  call (t : τ) (function : String) (arguments : List Value) : Valid t → function ∈ passive →
    Valid (Gui.call t function arguments []) ∧
      display (Gui.call t function arguments []) = display t
  /-- A window that is focused goes on top. -/
  focus {t : τ} (id : String) : Valid t → Valid (Gui.call t "focus_item" [.text id] []) ∧
    display (Gui.call t "focus_item" [.text id] []) =
      { display t with stack := Display.raised (display t).stack id }
  /-- An item is deleted with items below it. -/
  delete {t : τ} (id : String) : Valid t → Valid (Gui.delete t (some id)).2 ∧
    ∃ gone, id ∈ gone ∧ (∀ j ∈ gone, (display t).Below id j) ∧
      display (Gui.delete t (some id)).2 = (display t).without gone
  /-- The rows of a table are deleted with items below them, but not the table. -/
  deleteRows {t : τ} {table : String} : Valid t → ((display t).look table).isSome →
    ∃ t' gone, (Gui.deleteChildren (some table) .rows).outcome t = (.ok (), t') ∧ Valid t' ∧
      table ∉ gone ∧
      (∀ x ∈ (display t).childrenOf table, isRow x → x.id ≠ table → x.id ∈ gone) ∧
      (∀ j ∈ gone, ∃ x ∈ (display t).childrenOf table, isRow x ∧ (display t).Below x.id j) ∧
      display t' = (display t).without gone
  /-- An item that exists gets other options. -/
  configure {t : τ} (id : String) (options : Options) : Valid t →
    let r := (Gui.configure id options).outcome t
    (((display t).look id).isSome → r.1 = .ok ()) ∧ Valid r.2 ∧
      ∃ f, display r.2 = (display t).changing id f
  setMouse {t : τ} (position : Point Float) : Valid t → Valid (Gui.setMouse t position) ∧
    display (Gui.setMouse t position) = display t

namespace Toolkit

export LawfulGui (display Valid)

namespace Display

theorem raised_of_mem {stack : List String} {id : String} (h : id ∈ stack) :
    raised stack id = stack.erase id ++ [id] := if_pos h

theorem perm_raised (stack : List String) (id : String) : (raised stack id).Perm stack := by
  unfold raised
  split
  next h => exact (List.perm_append_singleton id _).trans (List.perm_cons_erase h).symm
  next => exact .refl _

theorem perm_foldl_raised (stack ids : List String) : (ids.foldl raised stack).Perm stack := by
  induction ids generalizing stack with
  | nil => exact .refl _
  | cons id ids ih => exact (ih _).trans (perm_raised stack id)

/-- Windows that are raised one after the other end on top in that order. -/
theorem foldl_raised {stack ids : List String} (hs : stack.Nodup) (hi : ids.Nodup)
    (hsub : ids ⊆ stack) : ids.foldl raised stack = stack.filter (· ∉ ids) ++ ids := by
  induction ids generalizing stack with
  | nil => simp
  | cons id ids ih =>
    obtain ⟨hid, hsub⟩ := List.cons_subset.mp hsub
    obtain ⟨hnot, hi⟩ := List.nodup_cons.mp hi
    have hperm := perm_raised stack id
    rw [List.foldl_cons, ih (hperm.nodup_iff.mpr hs) hi fun j hj => hperm.mem_iff.mpr (hsub hj),
      raised_of_mem hid, List.filter_append, hs.erase_eq_filter, List.filter_filter,
      List.append_assoc]
    congr 1
    · refine List.filter_congr fun j _ => ?_
      simp only [List.mem_cons, not_or, Bool.decide_and, decide_not]
      rw [Bool.and_comm]
      rfl
    · simp [hnot]

def frameKinds : List String := ["window", "theme", "child_window"]

/-- The items fit together: each has its own identifier, windows and themes stand by themselves, and
the bodies are parts of windows. -/
structure Regular (s : Display) : Prop where
  distinct : (s.items.map Shown.id).Nodup
  known : s.Known
  roots : ∀ x ∈ s.items, x.kind = "window" ∨ x.kind = "theme" → x.parent = none
  bodies : ∀ x ∈ s.items, x.kind = "child_window" →
    ∃ p, x.parent = some p ∧ s.issued p ∧ ∀ y ∈ s.items, y.id = p → y.kind = "window"

variable {s s' : Display} {id j : String} {x : Shown} {o : Outline}

theorem look_congr (h : s'.items = s.items) : s'.look = s.look := by
  funext id
  rw [look, h, look]

theorem mem_of_look (h : s.look id = some o) :
    ∃ x ∈ s.items, x.id = id ∧ x.kind = o.kind ∧ x.parent = o.parent := by
  obtain ⟨x, hx, rfl⟩ := Option.map_eq_some_iff.mp h
  have hid : x.id = id := by simpa using List.find?_some hx
  exact ⟨x, List.mem_of_find?_eq_some hx, hid, rfl, rfl⟩

theorem look_isSome : (s.look id).isSome ↔ ∃ x ∈ s.items, x.id = id := by simp [look]

theorem look_of_not_issued (h : s.Known) (hid : ¬s.issued id) : s.look id = none := by
  rw [← Option.not_isSome_iff_eq_none, look_isSome]
  rintro ⟨x, hx, rfl⟩
  exact hid (h x hx)

theorem Known.issued_of_look (h : s.Known) (ho : s.look id = some o) : s.issued id := by
  obtain ⟨x, hx, rfl, -⟩ := mem_of_look ho
  exact h x hx

theorem Known.adding (h : s.Known) (x : Shown) : (s.adding x).Known := by
  intro y hy
  rcases List.mem_append.mp hy with hy | hy
  · exact .inl (h y hy)
  · exact .inr (congrArg Shown.id (List.mem_singleton.mp hy))

theorem look_adding (h : s.Known) (hx : ¬s.issued x.id) (j : String) :
    (s.adding x).look j = if j = x.id then some ⟨x.kind, x.parent⟩ else s.look j := by
  rw [look, adding, List.find?_append, List.find?_singleton]
  by_cases hj : j = x.id
  · subst hj
    have hnone := look_of_not_issued h hx
    rw [look, Option.map_eq_none_iff] at hnone
    simp [hnone]
  · simp [look, hj, Ne.symm hj]

/-- A new item fits in, a window or a theme by itself and a body as a part of a window. -/
theorem Regular.adding (h : s.Regular) (hx : ¬s.issued x.id)
    (hroot : x.kind = "window" ∨ x.kind = "theme" → x.parent = none)
    (hbody : x.kind = "child_window" →
      ∃ p o, x.parent = some p ∧ s.look p = some o ∧ o.kind = "window") : (s.adding x).Regular := by
  have hold {y : Shown} (hy : y ∈ (s.adding x).items) : y ∈ s.items ∨ y = x := by
    simpa [Display.adding] using hy
  have hne {p : String} (hp : s.issued p) : p ≠ x.id := fun he => hx (he ▸ hp)
  refine ⟨?_, h.known.adding x, fun y hy => ?_, fun y hy hk => ?_⟩
  · change ((s.items ++ [x]).map Shown.id).Nodup
    rw [List.map_append, List.nodup_append]
    refine ⟨h.distinct, by simp, fun a ha b hb => ?_⟩
    obtain ⟨y, hy, rfl⟩ := List.mem_map.mp ha
    obtain rfl := List.mem_singleton.mp hb
    exact hne (h.known y hy)
  · rcases hold hy with hy | rfl
    · exact h.roots y hy
    · exact hroot
  · rcases hold hy with hy | rfl
    · obtain ⟨p, hp, hpi, hall⟩ := h.bodies y hy hk
      refine ⟨p, hp, .inl hpi, fun z hz hzp => ?_⟩
      rcases hold hz with hz | rfl
      · exact hall z hz hzp
      · exact absurd hzp.symm (hne hpi)
    · obtain ⟨p, o, hp, ho, hok⟩ := hbody hk
      obtain ⟨z, hz, rfl, hzk, -⟩ := mem_of_look ho
      refine ⟨z.id, hp, .inl (h.known z hz), fun w hw hwz => ?_⟩
      rcases hold hw with hw | rfl
      · rw [List.inj_on_of_nodup_map h.distinct hw hz hwz]
        exact hzk.trans hok
      · exact absurd hwz.symm (hne (h.known z hz))

theorem mem_without {ids : List String} : x ∈ (s.without ids).items ↔ x ∈ s.items ∧ x.id ∉ ids := by
  simp [without]

theorem look_without (s : Display) (ids : List String) (j : String) :
    (s.without ids).look j = if j ∈ ids then none else s.look j := by
  rw [look, without, List.find?_filter]
  split
  next hj =>
    rw [Option.map_eq_none_iff, List.find?_eq_none]
    rintro x - hx
    simp only [decide_eq_true_eq] at hx
    exact hx.1 (hx.2 ▸ hj)
  next hj =>
    rw [look]
    congr 2
    funext x
    by_cases hx : x.id = j
    · simp [hx, hj]
    · simp [hx]

theorem Regular.without (h : s.Regular) (ids : List String) : (s.without ids).Regular := by
  refine ⟨h.distinct.sublist (List.filter_sublist.map _),
    fun x hx => h.known x (mem_without.mp hx).1,
    fun x hx => h.roots x (mem_without.mp hx).1, fun x hx hk => ?_⟩
  obtain ⟨p, hp, hpi, hall⟩ := h.bodies x (mem_without.mp hx).1 hk
  exact ⟨p, hp, hpi, fun y hy => hall y (mem_without.mp hy).1⟩

/-- A part of a frame is below nothing but windows. -/
theorem Regular.above (h : s.Regular) (hx : x ∈ s.items) (hk : x.kind ∈ frameKinds) {y : Shown}
    (hy : y ∈ s.items) (hp : x.parent = some y.id) : y.kind = "window" := by
  have hroot : ¬(x.kind = "window" ∨ x.kind = "theme") := fun hroot => by
    cases (h.roots x hx hroot).symm.trans hp
  have hbody : x.kind = "child_window" := by
    simp only [frameKinds, List.mem_cons, List.not_mem_nil, or_false] at hk
    simp only [not_or] at hroot
    exact (hk.resolve_left hroot.1).resolve_left hroot.2
  obtain ⟨q, hq, -, hwindow⟩ := h.bodies x hx hbody
  obtain rfl := Option.some.inj (hq.symm.trans hp)
  exact hwindow y hy rfl

/-- A part of a frame is below nothing but its window. -/
theorem Regular.below (h : s.Regular) (hj : s.Below id j) (ho : s.look j = some o)
    (hk : o.kind ∈ frameKinds) :
    j = id ∨ o.parent = some id ∧ ∃ w, s.look id = some w ∧ w.kind = "window" := by
  cases hj with
  | self => exact .inl rfl
  | @child x y hx hy hp hbelow =>
    obtain ⟨z, hz, hzx, hzk, hzp⟩ := mem_of_look ho
    obtain rfl := List.inj_on_of_nodup_map h.distinct hz hx hzx
    have hwindow := h.above hz (hzk ▸ hk) hy hp
    have hparent := hzp.symm.trans hp
    -- The window is below nothing.
    generalize hid : y.id = p at hbelow hparent
    cases hbelow with
    | self =>
      obtain ⟨w, hw⟩ := Option.isSome_iff_exists.mp (look_isSome.mpr ⟨y, hy, hid⟩)
      obtain ⟨v, hv, hvp, hvk, -⟩ := mem_of_look hw
      obtain rfl := List.inj_on_of_nodup_map h.distinct hv hy (hvp.trans hid.symm)
      exact .inr ⟨hparent, w, hw, hvk ▸ hwindow⟩
    | @child w v hw _ hwp _ =>
      obtain rfl := List.inj_on_of_nodup_map h.distinct hy hw hid
      cases (h.roots y hy (.inl hwindow)).symm.trans hwp

theorem id_changed (id : String) (f : Options → Options) (x : Shown) :
    (changed id f x).id = x.id := by
  unfold changed
  split <;> rfl

theorem kind_changed (id : String) (f : Options → Options) (x : Shown) :
    (changed id f x).kind = x.kind := by
  unfold changed
  split <;> rfl

theorem parent_changed (id : String) (f : Options → Options) (x : Shown) :
    (changed id f x).parent = x.parent := by
  unfold changed
  split <;> rfl

theorem look_changing (s : Display) (id : String) (f : Options → Options) :
    (s.changing id f).look = s.look := by
  funext j
  simp only [look, changing, List.find?_map, Option.map_map, Function.comp_def, id_changed,
    kind_changed, parent_changed]

theorem Regular.changing (h : s.Regular) (id : String) (f : Options → Options) :
    (s.changing id f).Regular := by
  have hof {x : Shown} (hx : x ∈ (s.changing id f).items) :
      ∃ y ∈ s.items, x.id = y.id ∧ x.kind = y.kind ∧ x.parent = y.parent := by
    obtain ⟨y, hy, rfl⟩ := List.mem_map.mp hx
    exact ⟨y, hy, id_changed id f y, kind_changed id f y, parent_changed id f y⟩
  refine ⟨?_, fun x hx => ?_, fun x hx => ?_, fun x hx hk => ?_⟩
  · have hids : (s.changing id f).items.map Shown.id = s.items.map Shown.id := by
      simp only [Display.changing, List.map_map, Function.comp_def, id_changed]
    rw [hids]
    exact h.distinct
  · obtain ⟨y, hy, hid, -⟩ := hof hx
    exact hid ▸ h.known y hy
  · obtain ⟨y, hy, -, hk, hp⟩ := hof hx
    rw [hk, hp]
    exact h.roots y hy
  · obtain ⟨y, hy, -, hky, hp⟩ := hof hx
    obtain ⟨p, hpp, hpi, hall⟩ := h.bodies y hy (hky ▸ hk)
    refine ⟨p, hp.trans hpp, hpi, fun z hz hzp => ?_⟩
    obtain ⟨z', hz', hzid, hzk, -⟩ := hof hz
    exact hzk.trans (hall z' hz' (hzid ▸ hzp))

end Display

end Toolkit

end DebugDesk
