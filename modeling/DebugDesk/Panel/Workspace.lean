import DebugDesk.Panel.Basic

/-!
# Workspace

A workspace holds all panels that were made, by number, and the managers that stack them. The panels
of a manager have the stacking positions 1, 2, … from bottom to top, and the topmost one has the
focus. Signals to contents and bindings are collected in order; whoever drives the workspace passes
them on.
-/
namespace DebugDesk

structure PanelManager (α : Type) where
  /-- What panels snap to. -/
  gridSize : α
  /-- Seconds that each of the two stages of closing takes. -/
  stageDuration : α
  /-- The managed panels in the order in which they were added. -/
  panels : List Nat

namespace PanelManager

variable {α : Type} [Scalar α]

def standardGrid : α := 20.0

def standardStage : α := 0.5

def make (gridSize stageDuration : α) : PanelManager α := ⟨gridSize, stageDuration, []⟩

end PanelManager

/-- A panel that fades out, for a manager that removes it in the end. -/
structure Closing where
  panel : Nat
  manager : Nat
  /-- When it began, in nanoseconds. -/
  start : Int

structure Workspace (α β : Type) where
  panels : List (Panel α β)
  managers : List (PanelManager α)
  closings : List Closing
  /-- What is still to be told, and to which panel's content or bindings. -/
  signals : List (Nat × PanelSignal α β)

namespace Workspace

variable {α β : Type}

def make (managers : List (PanelManager α)) : Workspace α β := ⟨[], managers, [], []⟩

def panel? (w : Workspace α β) (i : Nat) : Option (Panel α β) := w.panels[i]?

/-- Adds a panel, under the number that is the count of panels before. -/
def push (w : Workspace α β) (p : Panel α β) : Workspace α β := { w with panels := w.panels ++ [p] }

def modifyPanel (w : Workspace α β) (i : Nat) (f : Panel α β → Panel α β) : Workspace α β :=
  { w with panels := w.panels.modify i f }

/-- The numbers of a manager's panels, in order of addition. -/
def members (w : Workspace α β) (m : Nat) : List Nat :=
  ((w.managers[m]?).map PanelManager.panels).getD []

def setMembers (w : Workspace α β) (m : Nat) (is : List Nat) : Workspace α β :=
  { w with managers := w.managers.modify m fun manager => { manager with panels := is } }

def managed (w : Workspace α β) (m : Nat) : List (Nat × Panel α β) :=
  (w.members m).filterMap fun i => (w.panel? i).map (i, ·)

def isManagedBy (w : Workspace α β) (m i : Nat) : Bool :=
  match w.panel? i with
  | some p => p.manager == some m
  | none => false

def tell (w : Workspace α β) (i : Nat) (signals : List (PanelSignal α β)) : Workspace α β :=
  { w with signals := w.signals ++ signals.map (i, ·) }

def signalling (w : Workspace α β) (i : Nat)
    (f : Panel α β → Panel α β × List (PanelSignal α β)) : Workspace α β :=
  match w.panel? i with
  | some p => (w.modifyPanel i fun _ => (f p).1).tell i (f p).2
  | none => w

def takeSignals (w : Workspace α β) : List (Nat × PanelSignal α β) × Workspace α β :=
  (w.signals, { w with signals := [] })

/-- Moves a managed panel to the top, where it has the focus; those above it go down by one. -/
def raise (w : Workspace α β) (m i : Nat) : Workspace α β :=
  match w.panel? i with
  | none => w
  | some p =>
    let lower (w : Workspace α β) (j : Nat) : Workspace α β :=
      if j = i then w
      else w.modifyPanel j fun q => { q with
        z := if p.z < q.z then q.z - 1 else q.z
        focused := false }
    ((w.members m).foldl lower w).modifyPanel i fun q => { q with
      z := (w.members m).length
      focused := true }

def focus (w : Workspace α β) (m i : Nat) : Except Fault (Workspace α β) :=
  if w.isManagedBy m i then .ok (w.raise m i) else .error .panelNotManaged

/-- Puts a panel at the top of a manager's panels, without the focus. -/
def attach (w : Workspace α β) (m i : Nat) : Workspace α β :=
  let members := w.members m ++ [i]
  (w.setMembers m members).modifyPanel i fun q => { q with
    manager := some m
    z := members.length }

def add (w : Workspace α β) (m i : Nat) : Except Fault (Workspace α β) :=
  match w.panel? i with
  | none => .error .unknownName
  | some p =>
    if p.manager.isSome then .error .panelManaged else .ok ((w.attach m i).raise m i)

/-- The managed panel with the greatest stacking position, the first of several. -/
def topmost (w : Workspace α β) (m : Nat) : Option Nat :=
  ((w.managed m).foldl (fun best (i, p) =>
    match best with
    | some (_, z) => if z < p.z then some (i, p.z) else best
    | none => some (i, p.z)) (none : Option (Nat × Nat))).map Prod.fst

/-- Takes a panel at position `z` out of a manager's panels; those above it go down by one. -/
def detach (w : Workspace α β) (m i z : Nat) : Workspace α β :=
  let w := w.setMembers m ((w.members m).erase i)
  let lower (w : Workspace α β) (j : Nat) : Workspace α β :=
    w.modifyPanel j fun q => { q with z := if z < q.z then q.z - 1 else q.z }
  ((w.members m).foldl lower w).modifyPanel i fun q => { q with
    manager := none
    focused := false
    closed := true }

/-- Gives the focus to the topmost panel of a manager, if it has any. -/
def raiseTopmost (w : Workspace α β) (m : Nat) : Workspace α β :=
  match w.topmost m with
  | some top => w.raise m top
  | none => w

/-- Takes a panel off the screen at once. Its content is told, its bindings end, and the topmost of
the others gets the focus. -/
def remove (w : Workspace α β) (m i : Nat) : Except Fault (Workspace α β) :=
  match w.panel? i with
  | none => .error .unknownName
  | some p =>
    if p.manager ≠ some m then .error .panelNotManaged
    else
      let w := (w.signalling i Panel.cancelGesture).detach m i p.z
      .ok (((w.tell i [.destroyed]).signalling i Panel.releaseBindings).raiseTopmost m)

/-- Marks a panel as closing, which then ignores input. Nothing happens if it is closing or closed
already. -/
def beginClose (w : Workspace α β) (i : Nat) : Bool × Workspace α β :=
  match w.panel? i with
  | none => (false, w)
  | some p =>
    if p.closing || p.closed then (false, w)
    else (true,
      (w.modifyPanel i fun q => { q with closing := true }).signalling i Panel.cancelGesture)

def focused (w : Workspace α β) (m : Nat) : Option Nat :=
  ((w.managed m).find? fun (_, p) => p.focused).map Prod.fst

/-- The managed panels from bottom to top as they are stacked on the screen. -/
def inStackingOrder (w : Workspace α β) (m : Nat) : List Nat :=
  ((w.managed m).mergeSort fun a b => a.2.displayZ ≤ b.2.displayZ).map Prod.fst

def find (w : Workspace α β) (m : Nat) (title : String) : Option Nat :=
  ((w.managed m).find? fun (_, p) => p.title == title).map Prod.fst

def dragging (w : Workspace α β) (m : Nat) : Option Nat :=
  ((w.managed m).find? fun (_, p) => p.isDragging).map Prod.fst

/-- The topmost panel at a point; none if that one is closing. -/
def panelAt [Scalar α] (w : Workspace α β) (m : Nat) (pointer : Point α) : Option Nat :=
  let hit := (w.inStackingOrder m).reverse.find? fun i =>
    match w.panel? i with
    | some p => p.contains pointer
    | none => false
  hit.bind fun i => (w.panel? i).bind fun p => if p.closing then none else some i

/-- What a panel snaps to: the grid of its manager, or whole units. -/
def gridOf [Scalar α] (w : Workspace α β) (p : Panel α β) : α :=
  match p.manager.bind fun m => w.managers[m]? with
  | some manager => manager.gridSize
  | none => 1.0

def raiseManaged (w : Workspace α β) (i : Nat) : Workspace α β :=
  match (w.panel? i).bind Panel.manager with
  | some m => w.raise m i
  | none => w

/-- Starts to move a panel, which gets the focus. A closing panel is not moved. -/
def beginMove (w : Workspace α β) (i : Nat) (pointer : Point α) : Workspace α β :=
  match w.panel? i with
  | none => w
  | some p =>
    if p.closing then w else (w.raiseManaged i).signalling i (Panel.beginMove · pointer)

/-- Starts to resize a panel, which gets the focus; tells whether it does. Closing and collapsed
panels are not resized. -/
def beginResize (w : Workspace α β) (i : Nat) (pointer : Point α) : Bool × Workspace α β :=
  match w.panel? i with
  | none => (false, w)
  | some p =>
    if p.closing || !p.expanded then (false, w)
    else (true, (w.raiseManaged i).signalling i (Panel.beginResize · pointer))

def endMove (w : Workspace α β) (i : Nat) : Workspace α β := w.signalling i Panel.endMove

def endResize (w : Workspace α β) (i : Nat) : Workspace α β := w.signalling i Panel.endResize

def cancelGesture (w : Workspace α β) (i : Nat) : Workspace α β :=
  w.signalling i Panel.cancelGesture

def releaseBindings (w : Workspace α β) (i : Nat) : Workspace α β :=
  w.signalling i Panel.releaseBindings

def bind (w : Workspace α β) (i : Nat) (binding : β) : Workspace α β :=
  w.modifyPanel i (Panel.bind · binding)

variable [Scalar α]

def toggleExpanded (w : Workspace α β) (i : Nat) : Bool × Workspace α β :=
  let w := w.signalling i Panel.toggleExpanded
  (((w.panel? i).map Panel.expanded).getD false, w)

/-- Moves a panel on; tells whether its position changed. -/
def moveTo (w : Workspace α β) (i : Nat) (pointer : Point α) :
    Except Fault (Bool × Workspace α β) :=
  match w.panel? i with
  | none => .error .unknownName
  | some p => do
    let (changed, p) ← p.moveTo (w.gridOf p) pointer
    return (changed, w.modifyPanel i fun _ => p)

/-- Resizes a panel on; tells whether its size changed. -/
def resizeTo (w : Workspace α β) (i : Nat) (pointer : Point α) :
    Except Fault (Bool × Workspace α β) :=
  match w.panel? i with
  | none => .error .unknownName
  | some p => do
    let (changed, p) ← p.resizeTo (w.gridOf p) pointer
    let w := w.modifyPanel i fun _ => p
    return (changed, if changed then w.tell i [.resized p.width p.bodyHeight] else w)

end Workspace

end DebugDesk
