import DebugDesk.Drawing.VertexBox
import DebugDesk.View.Basic

/-!
# Pointers over a view

A press that is released nearby is a click, which selects the vertex under it. A press that moves
further drags the camera; for a while after its release clicks do not count.
-/
namespace DebugDesk.View

variable {α : Type}

section Selection

variable [Scalar α]

def vertexAt (v : View α) (p : Point α) : Option Nat :=
  if v.error.isSome || !v.preprocessed then none
  else (hitTestScreen v.boxes.drawings v.camera p).map VertexDrawing.vertex

structure Clicked (α : Type) where
  view : View α
  graphs : GraphStore
  /-- The vertex that is selected by the click. -/
  vertex : Option Nat
  /-- Whether the selection changed; then whoever listens is told of the vertex. -/
  changed : Bool

/-- Selects the vertex at a screen point; empty space clears the selection. -/
def selectAt (v : View α) (gs : GraphStore) (p : Point α) : Clicked α :=
  match v.graph with
  | none => ⟨v, gs, none, false⟩
  | some ref =>
    let vertex := v.vertexAt p
    let (g, changed) := (gs.graph ref).select (vertex.map Endpoint.inside)
    ⟨{ v with needsRender := v.needsRender || changed }, gs.put ref g, vertex, changed⟩

def pointerDown (v : View α) (p : Point α) : Except Fault (View α) :=
  return { v with
    press := some p
    dragged := false
    camera := ← v.camera.pointerDown p }

/-- Ends a press at a time in seconds. -/
def pointerUp (v : View α) (gs : GraphStore) (p : Point α) (time : α) : Clicked α :=
  let released := { v with camera := v.camera.pointerUp, press := none }
  if v.press.isNone then ⟨released, gs, none, false⟩
  else if v.dragged || v.camera.state != .panning then
    ⟨{ released with dragged := false, suppressClicksUntil := time + v.clickSuppression }, gs, none,
      false⟩
  else if time < v.suppressClicksUntil then ⟨released, gs, none, false⟩
  else released.selectAt gs p

def wheel (v : View α) (delta : α) : View α := { v with camera := v.camera.wheel delta }

end Selection

variable [RootScalar α]

/-- Drags the camera, once the pointer is as far from the press as the threshold. -/
def pointerMove (v : View α) (p : Point α) : Except Fault (View α) :=
  match v.press with
  | none => .ok v
  | some start => do
    let far := v.dragThreshold ≤ RootScalar.hypotenuse (p.x - start.x) (p.y - start.y)
    let v := { v with dragged := v.dragged || far }
    if v.dragged then
      let (_, camera) ← v.camera.pointerMove p
      return { v with camera }
    else return v

end DebugDesk.View
