import Mathlib.Data.Rat.Floor
import Mathlib.Tactic.Linarith
import DebugDesk.Proofs.Number.Exact
import DebugDesk.Proofs.Panel.Touches

/-!
# Drags on the grid

As long as a panel is moved, it is on the grid, as near as can be to where the pointer takes it from
where it was pressed. As long as it is resized, its size changes by steps of the grid, and not below
the least size. Either way it does not matter which way the pointer went, nor what else happened.
-/
namespace DebugDesk

namespace Exact

/-- A value on a grid, as near as can be to another. -/
structure OnGrid (grid v x : ℚ) : Prop where
  snap : Scalar.snap v grid = .ok x
  multiple : ∃ k : ℤ, x = k * grid
  near : |x - v| ≤ grid / 2

variable {grid v x y : ℚ}

theorem snap_eq (h : 0 < grid) (v : ℚ) :
    Scalar.snap v grid = .ok (⌊v / grid + 1 / 2⌋ * grid) := by
  have hpos : ¬ grid ≤ (@OfScientific.ofScientific ℚ Scalar.toOfScientific 0 true 1) := by
    rw [zero]
    exact not_le.mpr h
  have hhalf : @OfScientific.ofScientific ℚ Scalar.toOfScientific 5 true 1 = 1 / 2 := by
    rw [literal]
    norm_num
  simp only [Scalar.snap, hpos, if_false]
  rw [hhalf]
  rfl

theorem exists_onGrid (h : 0 < grid) (v : ℚ) : ∃ x, OnGrid grid v x := by
  refine ⟨_, snap_eq h v, ⟨_, rfl⟩, ?_⟩
  have hv : v / grid * grid = v := div_mul_cancel₀ v h.ne'
  have hlow := mul_le_mul_of_nonneg_right (Int.floor_le (v / grid + 1 / 2)) h.le
  have hhigh := mul_le_mul_of_nonneg_right (Int.lt_floor_add_one (v / grid + 1 / 2)).le h.le
  rw [add_mul, hv] at hlow hhigh
  rw [abs_le]
  constructor <;> linarith

theorem OnGrid.unique (hx : OnGrid grid v x) (hy : OnGrid grid v y) : x = y :=
  Except.ok.inj (hx.snap.symm.trans hy.snap)

end Exact

open Exact

/-- Where a gesture takes what was at `start` when it began, the pointer being pressed at one point
and now at another: what is moved goes to the grid; what is resized changes by steps of the grid,
but not below the least size. -/
inductive Gesture.Lands (grid : ℚ) (start least press pointer : Point ℚ) :
    Gesture → Point ℚ → Prop
  | move {x y : ℚ} (onX : OnGrid grid (start.x + pointer.x - press.x) x)
      (onY : OnGrid grid (start.y + pointer.y - press.y) y) :
      Lands grid start least press pointer .move ⟨x, y⟩
  | resize {right down : ℚ} (onRight : OnGrid grid (pointer.x - press.x) right)
      (onDown : OnGrid grid (pointer.y - press.y) down) :
      Lands grid start least press pointer .resize
        ⟨max (start.x + right) least.x, max (start.y + down) least.y⟩

namespace Gesture.Lands

variable {grid : ℚ} {start least press pointer now now' : Point ℚ} {g : Gesture}

theorem unique (h : Lands grid start least press pointer g now)
    (h' : Lands grid start least press pointer g now') : now = now' := by
  cases h with
  | move onX onY =>
    cases h' with
    | move onX' onY' => rw [onX.unique onX', onY.unique onY']
  | resize onRight onDown =>
    cases h' with
    | resize onRight' onDown' => rw [onRight.unique onRight', onDown.unique onDown']

theorem least_le (h : Lands grid start least press pointer .resize now) :
    least.x ≤ now.x ∧ least.y ≤ now.y := by
  cases h
  exact ⟨le_max_right _ _, le_max_right _ _⟩

end Gesture.Lands

namespace Panel

section Grips

variable {α β : Type}

def Grip.dragged (g : Grip α) : Gesture → Point α
  | .move => ⟨g.x, g.y⟩
  | .resize => ⟨g.width, g.height⟩

def Grip.least (g : Grip α) : Point α := ⟨g.minWidth, g.minHeight⟩

structure Hold (α : Type) where
  gesture : Option Gesture
  press : Point α
  start : Point α
  least : Point α

def Grip.hold (g : Grip α) : Hold α := ⟨g.gesture, g.press, g.start, g.least⟩

def Touch.Grabs : Touch α → Prop
  | .beginMove _ | .beginResize _ => True
  | _ => False

/-- Where a touch drags to, if it goes on with a gesture. -/
def Touch.pointer? (g : Gesture) : Touch α → Option (Point α)
  | .moveTo pointer => if g = .move then some pointer else none
  | .resizeTo pointer => if g = .resize then some pointer else none
  | _ => none

/-- Unless it is grabbed, a panel is in the same gesture or in none. -/
theorem Goes.gesture [Scalar α] {p : Panel α β} {touch : Option (Touch α)} {g : Grip α}
    {told : List (Notice α)} (h : p.Goes touch g told) (hfirm : ∀ t ∈ touch, ¬ t.Grabs) :
    g.gesture = p.gesture ∨ g.gesture = none := by
  cases h with
  | rests => exact .inl rfl
  | frees => exact .inr rfl
  | toggles => exact .inl rfl
  | lifts => exact absurd trivial (hfirm _ rfl)
  | moves => exact .inl rfl
  | grabs => exact absurd trivial (hfirm _ rfl)
  | resizes => exact .inl rfl

end Grips

variable {β : Type} {p q r : Panel ℚ β} {grid : ℚ} {g : Gesture}

structure Takes (p : Panel ℚ β) (grid : ℚ) (pointer : Point ℚ) (g : Gesture) (b : Bool)
    (q : Panel ℚ β) : Prop where
  answer : b = true ↔ q.grip.dragged g ≠ p.grip.dragged g
  hold : q.grip.hold = p.grip.hold
  manager : q.manager = p.manager
  lands : p.gesture = some g → g.Lands grid p.start p.grip.least p.press pointer (q.grip.dragged g)

theorem Takes.rests (h : p.gesture ≠ some g) (pointer : Point ℚ) :
    p.Takes grid pointer g false p where
  answer := by simp
  hold := rfl
  manager := rfl
  lands hg := absurd hg h

theorem moveTo_takes (hgrid : 0 < grid) (p : Panel ℚ β) (pointer : Point ℚ) :
    ∃ b q, p.moveTo grid pointer = .ok (b, q) ∧ p.Takes grid pointer .move b q := by
  by_cases hg : p.gesture = some .move
  · obtain ⟨x, hx⟩ := exists_onGrid hgrid (p.start.x + pointer.x - p.press.x)
    obtain ⟨y, hy⟩ := exists_onGrid hgrid (p.start.y + pointer.y - p.press.y)
    have hlands : Gesture.Lands grid p.start p.grip.least p.press pointer .move ⟨x, y⟩ :=
      .move hx hy
    unfold moveTo
    rw [if_neg (not_not.mpr hg), hx.snap, hy.snap]
    simp only [Effect.ok_bind]
    split
    next hsame =>
      -- The panel is where the pointer takes it already.
      obtain ⟨rfl, rfl⟩ : x = p.x ∧ y = p.y := by simpa using hsame
      exact ⟨false, p, rfl, by simp, rfl, rfl, fun _ => hlands⟩
    next hother =>
      refine ⟨true, _, rfl, ?_, rfl, rfl, fun _ => hlands⟩
      simpa [grip, Grip.dragged] using hother
  · exact ⟨false, p, by rw [moveTo, if_pos hg]; rfl, .rests hg pointer⟩

theorem resizeTo_takes (hgrid : 0 < grid) (p : Panel ℚ β) (pointer : Point ℚ) :
    ∃ b q, p.resizeTo grid pointer = .ok (b, q) ∧ p.Takes grid pointer .resize b q := by
  by_cases hg : p.gesture = some .resize
  · obtain ⟨right, hright⟩ := exists_onGrid hgrid (pointer.x - p.press.x)
    obtain ⟨down, hdown⟩ := exists_onGrid hgrid (pointer.y - p.press.y)
    have hlands : Gesture.Lands grid p.start p.grip.least p.press pointer .resize
        ⟨max (p.start.x + right) p.minWidth, max (p.start.y + down) p.minHeight⟩ :=
      .resize hright hdown
    unfold resizeTo
    rw [if_neg (not_not.mpr hg), hright.snap, hdown.snap]
    simp only [Effect.ok_bind, greater_eq_max]
    split
    next hsame =>
      simp only [Bool.and_eq_true, beq_iff_eq] at hsame
      rw [hsame.1, hsame.2] at hlands
      exact ⟨false, p, rfl, by simp, rfl, rfl, fun _ => hlands⟩
    next hother =>
      refine ⟨true, _, rfl, ?_, rfl, rfl, fun _ => hlands⟩
      simpa [grip, Grip.dragged] using hother
  · exact ⟨false, p, by rw [resizeTo, if_pos hg]; rfl, .rests hg pointer⟩

/-- A panel that has been in a gesture since it was as `p`, the pointer having been dragged to some
point last. -/
structure Trails (p : Panel ℚ β) (g : Gesture) (grid : ℚ) (press : Point ℚ)
    (last? : Option (Point ℚ)) (q : Panel ℚ β) : Prop where
  hold : q.grip.hold = ⟨some g, press, p.grip.dragged g, p.grip.least⟩
  manager : q.manager = p.manager
  rests : last? = none → q.grip.dragged g = p.grip.dragged g
  lands : ∀ last ∈ last?, g.Lands grid (p.grip.dragged g) p.grip.least press last (q.grip.dragged g)

variable {press pointer : Point ℚ} {last? : Option (Point ℚ)} {b : Bool}

theorem Trails.gesture (h : p.Trails g grid press last? q) : q.gesture = some g :=
  congrArg Hold.gesture h.hold

theorem Trails.takes (h : p.Trails g grid press last? q) (hr : q.Takes grid pointer g b r) :
    p.Trails g grid press (some pointer) r := by
  have hstart : q.start = p.grip.dragged g := congrArg Hold.start h.hold
  have hleast : q.grip.least = p.grip.least := congrArg Hold.least h.hold
  have hpress : q.press = press := congrArg Hold.press h.hold
  have hlands := hr.lands h.gesture
  rw [hstart, hleast, hpress] at hlands
  refine ⟨hr.hold.trans h.hold, hr.manager.trans h.manager, by simp, fun last hlast => ?_⟩
  exact Option.some.inj hlast ▸ hlands

/-- What is not dragged on stays where it is, in whatever gesture it stays. -/
theorem Trails.goes {touch : Option (Touch ℚ)} {told : List (Notice ℚ)}
    (h : p.Trails g grid press last? q) (hr : q.Goes touch r.grip told)
    (hfirm : ∀ t ∈ touch, ¬ t.Grabs) (hidle : touch.bind (Touch.pointer? g) = none)
    (hgesture : r.gesture = some g) (hmanager : r.manager = q.manager) :
    p.Trails g grid press last? r := by
  have hkept : r.grip.hold = q.grip.hold ∧ r.grip.dragged g = q.grip.dragged g := by
    have hnone : r.grip.gesture ≠ none := by
      have hsome : r.grip.gesture = some g := hgesture
      simp [hsome]
    generalize r.grip = grip at *
    cases hr with
    | rests => exact ⟨rfl, rfl⟩
    | frees => exact absurd rfl hnone
    | toggles => exact ⟨rfl, by cases g <;> rfl⟩
    | lifts => exact absurd trivial (hfirm _ rfl)
    | moves _ moving =>
      obtain rfl : g = .move := Option.some.inj (h.gesture.symm.trans moving)
      simp [Touch.pointer?] at hidle
    | grabs => exact absurd trivial (hfirm _ rfl)
    | resizes _ resizing =>
      obtain rfl : g = .resize := Option.some.inj (h.gesture.symm.trans resizing)
      simp [Touch.pointer?] at hidle
  refine ⟨hkept.1.trans h.hold, hmanager.trans h.manager, ?_, ?_⟩
  · rw [hkept.2]
    exact h.rests
  · rw [hkept.2]
    exact h.lands

end Panel

namespace PanelScript

section Actions

variable {α β : Type}

def Command.grab (i : Nat) (pointer : Point α) : Gesture → Command α β
  | .move => .beginMove i pointer
  | .resize => .beginResize i pointer

def Command.drag (i : Nat) (pointer : Point α) : Gesture → Command α β
  | .move => .moveTo i pointer
  | .resize => .resizeTo i pointer

/-- Where an action drags a panel to, if it goes on with a gesture of it. -/
def Action.pointer? (g : Gesture) (i : Nat) (x : Action α β) : Option (Point α) :=
  (x.touch? i).bind (Panel.Touch.pointer? g)

def pointers (g : Gesture) (i : Nat) (xs : List (Action α β)) : List (Point α) :=
  xs.filterMap (Action.pointer? g i)

def Action.Grabs (i : Nat) (x : Action α β) : Prop := ∃ touch ∈ x.touch? i, touch.Grabs

theorem Action.eq_drag {g : Gesture} {i : Nat} {x : Action α β} {pointer : Point α}
    (h : x.pointer? g i = some pointer) : x = .command (.drag i pointer g) := by
  obtain ⟨touch, htouch, hpointer⟩ := Option.bind_eq_some_iff.mp h
  cases x with
  | clear => cases htouch
  | command c =>
    cases c with
    | moveTo j _ =>
      obtain ⟨rfl, rfl⟩ := Stage.eq_of_touch? htouch
      cases g <;> cases hpointer
      rfl
    | resizeTo j _ =>
      obtain ⟨rfl, rfl⟩ := Stage.eq_of_touch? htouch
      cases g <;> cases hpointer
      rfl
    | toggle | beginMove | endMove | beginResize | endResize | cancelGesture =>
      obtain ⟨-, rfl⟩ := Stage.eq_of_touch? htouch
      cases hpointer
    | _ => cases htouch

theorem getLast?_pointers_concat (g : Gesture) (i : Nat) (xs : List (Action α β))
    (x : Action α β) :
    (pointers g i (xs ++ [x])).getLast? = (x.pointer? g i).or (pointers g i xs).getLast? := by
  rw [pointers, List.filterMap_append, List.getLast?_append, pointers]
  cases h : x.pointer? g i <;> simp [h]

end Actions

namespace Stage

open Workspace hiding bind

variable {α β : Type}

/-- A gesture of a panel lasts while actions are done, and no other begins. -/
structure Holds [Scalar α] (s : Stage α β) (g : Gesture) (i : Nat) (xs : List (Action α β)) :
    Prop where
  firm : ∀ x ∈ xs, ¬ x.Grabs i
  lasts : ∀ q, (s.acts xs).workspace.panel? i = some q → q.gesture = some g

/-- A panel that goes on with a gesture tells whether what is dragged changed. -/
def Tells [Scalar α] (s : Stage α β) (i : Nat) (pointer : Point α) (g : Gesture) : Prop :=
  ∃ b p q, (s.step (.drag i pointer g)).1 = .ok (.flag b) ∧ s.workspace.panel? i = some p ∧
    (s.step (.drag i pointer g)).2.workspace.panel? i = some q ∧
    (b = true ↔ q.grip.dragged g ≠ p.grip.dragged g)

theorem firm_of_not_grabs {x : Action α β} {i : Nat} (h : ¬ x.Grabs i) :
    ∀ touch ∈ x.touch? i, ¬ touch.Grabs :=
  fun touch htouch hgrabs => h ⟨touch, htouch, hgrabs⟩

theorem gesture_acts [Scalar α] {s : Stage α β} {p : Panel α β} {i : Nat}
    (hp : s.workspace.panel? i = some p) (xs : List (Action α β)) (hfirm : ∀ x ∈ xs, ¬ x.Grabs i) :
    ∃ q, (s.acts xs).workspace.panel? i = some q ∧ (q.gesture = p.gesture ∨ q.gesture = none) := by
  induction xs generalizing s p with
  | nil => exact ⟨p, hp, .inl rfl⟩
  | cons x xs ih =>
    obtain ⟨hx, hxs⟩ := List.forall_mem_cons.mp hfirm
    obtain ⟨-, q, _, hq, -, hgoes, -⟩ := goes s x hp
    have hgesture : q.gesture = p.gesture ∨ q.gesture = none := hgoes.gesture (firm_of_not_grabs hx)
    obtain ⟨r, hr, hlater⟩ := ih hq hxs
    refine ⟨r, hr, hlater.elim (fun h => ?_) .inr⟩
    rw [h]
    exact hgesture

/-- Whatever lasts lasted before. -/
theorem Holds.before [Scalar α] {s : Stage α β} {g : Gesture} {i : Nat} {xs ys : List (Action α β)}
    (h : s.Holds g i (xs ++ ys)) : s.Holds g i xs := by
  refine ⟨fun x hx => h.firm x (List.mem_append_left ys hx), fun q hq => ?_⟩
  obtain ⟨r, hr, hgesture⟩ := gesture_acts hq ys fun y hy => h.firm y (List.mem_append_right xs hy)
  have hlasts := h.lasts r (by rw [acts_append, hr])
  rcases hgesture with hsame | hnone
  · rw [← hsame, hlasts]
  · rw [hnone] at hlasts
    cases hlasts

variable {s : Stage ℚ β} {p q : Panel ℚ β} {m i : Nat} {grid : ℚ} {g : Gesture}
  {press pointer : Point ℚ} {last? : Option (Point ℚ)} {x : Action ℚ β} {xs : List (Action ℚ β)}

theorem gridOf_eq {w : Workspace ℚ β} (hm : p.manager = some m) (hgrid : w.grids[m]? = some grid) :
    w.gridOf p = grid := by
  obtain ⟨manager, hmanager, rfl⟩ := Option.map_eq_some_iff.mp (List.getElem?_map ▸ hgrid)
  simp only [gridOf, hm, Option.bind_some, hmanager]

theorem drag_takes (hp : s.workspace.panel? i = some p) (hgrid : 0 < s.workspace.gridOf p)
    (g : Gesture) (pointer : Point ℚ) :
    ∃ b q, (s.step (.drag i pointer g)).1 = .ok (.flag b) ∧
      (s.act (.command (.drag i pointer g))).workspace.panel? i = some q ∧
      p.Takes (s.workspace.gridOf p) pointer g b q := by
  have hreplace (w : Workspace ℚ β) (hw : w.panel? i = some p) (q : Panel ℚ β) :
      (w.modifyPanel i fun _ => q).panel? i = some q := by
    rw [panel?_modifyPanel, hw, Option.map_some, if_pos rfl]
  cases g with
  | move =>
    obtain ⟨b, q, hmove, htakes⟩ := p.moveTo_takes hgrid pointer
    have hw : s.workspace.moveTo i pointer = .ok (b, s.workspace.modifyPanel i fun _ => q) := by
      simp only [Workspace.moveTo, hp, hmove, Effect.ok_bind]
      rfl
    have hstep := outcome_asking s (·.moveTo i pointer)
    rw [hw] at hstep
    change s.step (.drag i pointer .move) = _ at hstep
    refine ⟨b, q, by rw [hstep], ?_, htakes⟩
    rw [act, hstep]
    exact hreplace _ hp q
  | resize =>
    obtain ⟨b, q, hresize, htakes⟩ := p.resizeTo_takes hgrid pointer
    have hw : ∃ w, s.workspace.resizeTo i pointer = .ok (b, w) ∧ w.panel? i = some q := by
      simp only [Workspace.resizeTo, hp, hresize, Effect.ok_bind]
      refine ⟨_, rfl, ?_⟩
      split
      · rw [panel?_tell, hreplace _ hp q]
      · exact hreplace _ hp q
    obtain ⟨w, hw, hq⟩ := hw
    have hstep := outcome_asking s (·.resizeTo i pointer)
    rw [hw] at hstep
    change s.step (.drag i pointer .resize) = _ at hstep
    exact ⟨b, q, by rw [hstep], by rw [act, hstep, hq], htakes⟩

/-- What is dragged, and by which manager's grid, goes on with an action while the gesture lasts. -/
theorem trails_act (hp : s.workspace.panel? i = some q) (hm : q.manager = some m)
    (hgrid : s.workspace.grids[m]? = some grid) (hpos : 0 < grid)
    (h : p.Trails g grid press last? q) (hfirm : ¬ x.Grabs i)
    (hlasts : ∀ r, (s.act x).workspace.panel? i = some r → r.gesture = some g) :
    ∃ r, (s.act x).workspace.panel? i = some r ∧
      p.Trails g grid press ((x.pointer? g i).or last?) r := by
  cases hx : x.pointer? g i with
  | some pointer =>
    obtain rfl := Action.eq_drag hx
    have hgridOf := gridOf_eq hm hgrid
    obtain ⟨b, r, -, hr, htakes⟩ := drag_takes hp (hgridOf ▸ hpos) g pointer
    rw [hgridOf] at htakes
    exact ⟨r, hr, h.takes htakes⟩
  | none =>
    obtain ⟨-, r, _, hr, -, hgoes, hmanager⟩ := goes s x hp
    have hgesture := hlasts r hr
    have hkept : r.manager = q.manager := by
      rw [hm]
      refine (hmanager m hm).resolve_right ?_
      simp [hgesture]
    exact ⟨r, hr, h.goes hgoes (firm_of_not_grabs hfirm) hx hgesture hkept⟩

theorem trails_acts (hp : s.workspace.panel? i = some q) (hm : p.manager = some m)
    (hgrid : s.workspace.grids[m]? = some grid) (hpos : 0 < grid)
    (h : p.Trails g grid press none q) (hxs : s.Holds g i xs) :
    (s.acts xs).workspace.grids = s.workspace.grids ∧
      ∃ r, (s.acts xs).workspace.panel? i = some r ∧
        p.Trails g grid press (pointers g i xs).getLast? r := by
  induction xs using List.reverseRecOn with
  | nil => exact ⟨rfl, q, hp, h⟩
  | append_singleton xs x ih =>
    obtain ⟨hgrids, r, hr, htrails⟩ := ih hxs.before
    have hfirm : ¬ x.Grabs i := hxs.firm x (by simp)
    have hlasts := hxs.lasts
    rw [acts_concat] at hlasts ⊢
    rw [getLast?_pointers_concat]
    exact ⟨(goes _ x hr).1.trans hgrids,
      trails_act hr (htrails.manager.trans hm) (hgrids ▸ hgrid) hpos htrails hfirm hlasts⟩

def grabbed (s : Stage ℚ β) (g : Gesture) (i : Nat) (press : Point ℚ) : Stage ℚ β :=
  s.act (.command (.grab i press g))

/-- A panel that is grabbed has not been dragged yet. -/
theorem trails_grab (hp : s.workspace.panel? i = some p) (hm : p.manager = some m)
    (hopen : p.closing = false) (hexpanded : g = .resize → p.expanded = true) (grid : ℚ)
    (press : Point ℚ) :
    (s.grabbed g i press).workspace.grids = s.workspace.grids ∧
      ∃ q, (s.grabbed g i press).workspace.panel? i = some q ∧
        p.Trails g grid press none q := by
  obtain ⟨hgrids, q, told, hq, -, hgoes, hmanager⟩ :=
    goes s (.command (.grab i press g) : Action ℚ β) hp
  refine ⟨hgrids, q, hq, ?_⟩
  have hgrip : q.grip.hold = ⟨some g, press, p.grip.dragged g, p.grip.least⟩ ∧
      q.grip.dragged g = p.grip.dragged g := by
    generalize q.grip = grip at hgoes
    cases g with
    | move =>
      have htouch : (Action.command (.grab i press .move) : Action ℚ β).touch? i =
          some (.beginMove press) := if_pos rfl
      rw [htouch] at hgoes
      cases hgoes with
      | rests _ idle => exact absurd hopen (idle _ rfl)
      | frees _ idle => exact absurd hopen (idle _ rfl)
      | lifts => exact ⟨rfl, rfl⟩
    | resize =>
      have htouch : (Action.command (.grab i press .resize) : Action ℚ β).touch? i =
          some (.beginResize press) := if_pos rfl
      rw [htouch] at hgoes
      cases hgoes with
      | rests _ idle => exact absurd ⟨hopen, hexpanded rfl⟩ (idle _ rfl)
      | frees _ idle => exact absurd ⟨hopen, hexpanded rfl⟩ (idle _ rfl)
      | grabs => exact ⟨rfl, rfl⟩
  have hgesture : q.gesture = some g := congrArg Panel.Hold.gesture hgrip.1
  have hkept : q.manager = some m := (hmanager m hm).resolve_right (by simp [hgesture])
  exact ⟨hgrip.1, hkept.trans hm.symm, fun _ => hgrip.2, by simp⟩

/-- A gesture lasts while the pointer is dragged. -/
theorem holds_drags (hp : s.workspace.panel? i = some p) (hm : p.manager = some m)
    (hgrid : s.workspace.grids[m]? = some grid) (hpos : 0 < grid) (hg : p.gesture = some g)
    (pointers : List (Point ℚ)) :
    s.Holds g i (pointers.map fun pointer => .command (.drag i pointer g)) := by
  refine ⟨fun x hx => ?_, ?_⟩
  · obtain ⟨pointer, -, rfl⟩ := List.mem_map.mp hx
    cases g <;> simp [Action.Grabs, Command.drag, Action.touch?, Panel.Touch.Grabs]
  · induction pointers generalizing s p with
    | nil =>
      intro q hq
      cases hp.symm.trans hq
      exact hg
    | cons pointer pointers ih =>
      obtain ⟨_, q, -, hq, htakes⟩ := drag_takes hp (gridOf_eq hm hgrid ▸ hpos) g pointer
      have hgrids := (goes s (.command (.drag i pointer g) : Action ℚ β) hp).1
      have hgesture : q.gesture = p.gesture := congrArg Panel.Hold.gesture htakes.hold
      exact ih hq (htakes.manager.trans hm) (hgrids ▸ hgrid) (hgesture.trans hg)

/-- A panel that is dragged for a manager with a positive grid is where the pointer takes it from
where it was pressed, on the grid if it is moved, and in size by steps of the grid and not below the
least one if it is resized. Where the pointer was before does not matter, nor what else is done, and
with each step the panel tells whether it changed. -/
theorem drags_on_grid {manager : PanelManager ℚ} (hp : s.workspace.panel? i = some p)
    (hm : p.manager = some m) (hmanager : s.workspace.managers[m]? = some manager)
    (hpos : 0 < manager.gridSize) (hopen : p.closing = false)
    (hexpanded : g = .resize → p.expanded = true) (press : Point ℚ) :
    (∀ pointers : List (Point ℚ), (s.grabbed g i press).Holds g i
      (pointers.map fun pointer => .command (.drag i pointer g))) ∧
    ∀ xs, (s.grabbed g i press).Holds g i xs →
      ∃ q, ((s.grabbed g i press).acts xs).workspace.panel? i = some q ∧
        (pointers g i xs = [] → q.grip.dragged g = p.grip.dragged g) ∧
        (∀ last ∈ (pointers g i xs).getLast?,
          g.Lands manager.gridSize (p.grip.dragged g) p.grip.least press last
            (q.grip.dragged g) ∧
          (g = .resize → p.minWidth ≤ q.width ∧ p.minHeight ≤ q.height)) ∧
        (∀ ys, (s.grabbed g i press).Holds g i ys →
          (pointers g i ys).getLast? = (pointers g i xs).getLast? →
          ∃ r, ((s.grabbed g i press).acts ys).workspace.panel? i = some r ∧
            r.grip.dragged g = q.grip.dragged g) ∧
        ∀ before pointer after, xs = before ++ .command (.drag i pointer g) :: after →
          ((s.grabbed g i press).acts before).Tells i pointer g := by
  have hgrid : s.workspace.grids[m]? = some manager.gridSize := by
    rw [grids, List.getElem?_map, hmanager, Option.map_some]
  obtain ⟨hgrids, r, hr, hgrabbed⟩ := trails_grab hp hm hopen hexpanded manager.gridSize press
  rw [← hgrids] at hgrid
  have hrun {ys : List (Action ℚ β)} (hys : (s.grabbed g i press).Holds g i ys) :=
    trails_acts hr hm hgrid hpos hgrabbed hys
  refine ⟨holds_drags hr (hgrabbed.manager.trans hm) hgrid hpos hgrabbed.gesture,
    fun xs hxs => ?_⟩
  obtain ⟨-, q, hq, htrails⟩ := hrun hxs
  refine ⟨q, hq, fun hnone => htrails.rests (by rw [hnone]; rfl), fun last hlast => ?_,
    fun ys hys hsame => ?_, fun before pointer after hsplit => ?_⟩
  · have hlands := htrails.lands last hlast
    refine ⟨hlands, ?_⟩
    rintro rfl
    exact hlands.least_le
  · obtain ⟨-, r, hr, htrails'⟩ := hrun hys
    refine ⟨r, hr, ?_⟩
    rw [hsame] at htrails'
    cases hlast : (pointers g i xs).getLast? with
    | none => rw [htrails'.rests hlast, htrails.rests hlast]
    | some last => exact (htrails'.lands last hlast).unique (htrails.lands last hlast)
  · subst hsplit
    obtain ⟨hgrids', r, hr, htrails'⟩ := hrun hxs.before
    have hgridOf := gridOf_eq (htrails'.manager.trans hm) (hgrids' ▸ hgrid)
    obtain ⟨b, r', hanswer, hr', htakes⟩ := drag_takes hr (hgridOf ▸ hpos) g pointer
    exact ⟨b, r, r', hanswer, hr, hr', htakes.answer⟩

def askew : Stage ℚ Unit :=
  (start [(20, 1 / 2)]).acts
    [.command (.create "plot" 7 3 105 90 true 20 80 60),
      .command (.create "log" 0 0 50 50 true 20 10 10), .command (.add 0 0), .command (.add 0 1)]

/-- The panel off the grid is resized there and back. Meanwhile it is collapsed and expanded, and
the other one is moved. -/
def wander : List (Action ℚ Unit) :=
  [.command (.resizeTo 0 ⟨90, 140⟩), .command (.beginMove 1 ⟨5, 5⟩), .command (.toggle 0),
    .command (.moveTo 1 ⟨35, 5⟩), .command (.toggle 0), .command (.endMove 0),
    .command (.resizeTo 0 ⟨31, 50⟩), .command (.moveTo 0 ⟨0, 0⟩)]

theorem askew_holds :
    (askew.grabbed .resize 0 ⟨100, 80⟩).Holds .resize 0 wander := by
  refine ⟨?_, fun q hq => ?_⟩
  · simp [wander, Action.Grabs, Action.touch?, Panel.Touch.Grabs]
  · have hgesture : (((askew.grabbed .resize 0 ⟨100, 80⟩).acts
        wander).workspace.panel? 0).map Panel.gesture = some (some .resize) := by decide +kernel
    rw [hq] at hgesture
    exact Option.some.inj hgesture

theorem wander_on_grid :
    ∃ q, ((askew.grabbed .resize 0 ⟨100, 80⟩).acts wander).workspace.panel? 0 =
        some q ∧
      Gesture.Lands 20 ⟨105, 90⟩ ⟨80, 60⟩ ⟨100, 80⟩ ⟨31, 50⟩ .resize ⟨q.width, q.height⟩ ∧
      80 ≤ q.width ∧ 60 ≤ q.height := by
  have hp : askew.workspace.panel? 0 = some _ := rfl
  have hmanager : askew.workspace.managers[0]? = some _ := rfl
  obtain ⟨-, hrun⟩ :=
    drags_on_grid hp rfl hmanager (by decide +kernel) rfl (fun _ => rfl) ⟨100, 80⟩
  obtain ⟨q, hq, -, hlands, -⟩ := hrun wander askew_holds
  obtain ⟨hlands, hleast⟩ := hlands ⟨31, 50⟩ rfl
  exact ⟨q, hq, hlands, hleast rfl⟩

end Stage

end PanelScript

end DebugDesk
