import DebugDesk.Drawing.Operation
import DebugDesk.Layout.Placed
import DebugDesk.View.Basic

/-!
# From graph to picture

`preprocess` brings layout and drawings up to date, `picture` tells what is painted, and `update`
does both once per frame as far as needed. A frame that fails leaves the view as it is by then.
-/
namespace DebugDesk.View

abbrev Frame (m : Type → Type) (α β : Type) := ExceptT Fault (StateT (View α) m) β

variable {α : Type} [Scalar α] {m : Type → Type} [Monad m]

/-- What measures texts on the way leaves the view alone. -/
def Frame.lift {β : Type} (x : m β) : Frame m α β := ExceptT.lift (StateT.lift x)

def integrityMessage : String :=
  "Graph integrity check failed: some vertices have no identifier."

/-- The sizes of all vertices by identifier; measurements are kept. -/
def measureAll (measure : Measure m α) (style : VertexStyle α) (g : Graph) (b : VertexBoxes α) :
    m (Layout.Sizes α × VertexBoxes α) :=
  g.vertices.zipIdx.foldlM (fun (sizes, b) (v, i) => do
    let (size, b) ← b.metrics measure style i v
    return ((v.id, ⟨size.width, size.height⟩) :: sizes, b)) ([], b)

def computeLayout (engine : LayoutEngine α) (measure : Measure m α) (style : ViewStyle α)
    (g : Graph) : StateT (VertexBoxes α) m (Except Fault (Layout α)) := fun b => do
  let (sizes, b) ← measureAll measure style.vertex g b
  return (Layout.ofGraph engine g sizes style.nodeSpacing style.rankSpacing, b)

/-- The vertices of a graph with their places in a layout, which has to have all of them. -/
def placements (g : Graph) (l : Layout α) : Except Fault (List (VertexBoxes.Placed α)) :=
  g.vertices.zipIdx.mapM fun (vertex, i) =>
    match l.box? vertex.id with
    | some box => .ok ⟨i, vertex, box.x, box.y⟩
    | none => .error .missing

def endOf (b : VertexBoxes α) : Endpoint → Except Fault (VertexDrawing α)
  | .inside i => (b.find? i).elim (.error .missing) .ok
  | .outside .. => .error .missing

def edgePlacements (g : Graph) (b : VertexBoxes α) : Except Fault (List (EdgePlacement α)) :=
  g.edges.zipIdx.mapM fun (e, k) => return ⟨k, ← endOf b e.source, ← endOf b e.target⟩

/-- The view with all drawings made, out of the error state. -/
def shown (v : View α) (edges : EdgeRoutes α) : View α :=
  { v with edges, error := none, failed := none, preprocessed := true, needsRender := true }

/-- Makes the drawings for a layout, and leaves the error state. -/
def draw (measure : Measure m α) (gs : GraphStore) (g : Graph) (l : Layout α) :
    Frame m α Unit := do
  modify ({ · with layout := some l })
  let placed ← MonadExcept.ofExcept (placements g l)
  let v ← get
  let boxes ← Frame.lift (v.boxes.placeAll measure v.style.vertex placed)
  set { v with boxes }
  let ends ← MonadExcept.ofExcept (edgePlacements g boxes)
  modify (·.shown (.ofPlacements ends))
  if v.recenterPending then
    modify ({ · with recenterPending := false })
    set (← MonadExcept.ofExcept ((← get).recenter gs))

/-- Whether layout and drawings are up to date, or the latest layout failed for the same graph. -/
def settled (v : View α) (ref count : Nat) : Bool :=
  (v.preprocessed && v.cache.validFor ref count) || v.failed == some (ref, count)

/-- Brings layout and drawings up to date; tells whether anything was to do. -/
def preprocess (engine : LayoutEngine α) (measure : Measure m α) (gs : GraphStore) :
    Frame m α Bool := do
  let v ← get
  match v.graph with
  | none => return false
  | some ref =>
    let g := gs.graph ref
    if v.settled ref g.size then return false
    let v := { v with preprocessed := false }
    if !g.verifyIntegrity then
      set (v.setError integrityMessage)
      return true
    let ((result, cache), boxes) ← Frame.lift
      ((v.cache.get ref g.size fun _ => computeLayout engine measure v.style g).run v.boxes)
    let v := { v with cache, boxes }
    match result with
    | .error fault =>
      set { v.setError s!"Layout failed: {fault.message}" with failed := some (ref, g.size) }
    | .ok l =>
      set v
      draw measure gs g l
    return true

/-- How the error message is painted: in the middle, but not beyond the left edge. -/
def errorPicture (measure : Measure m α) (v : View α) (message : String) :
    m (List (DrawOp α)) := do
  let style := v.style.vertex
  let size ← measure message style.font style.fontSize
  let x := Scalar.greater ((v.camera.width - size.width) / 2.0) 0.0
  let y := (v.camera.height - size.height) / 2.0 + size.ascent
  return [.text x y message v.style.errorColor style.font style.fontSize]

def selectedIn (g : Option Graph) (i : Nat) : Bool :=
  match g with
  | some g => (g.vertices[i]?.map Vertex.selected).getD false
  | none => false

/-- What is painted now: the background, and on it the error message, or the edges and then the
vertices. -/
def picture (measure : Measure m α) (v : View α) (gs : GraphStore) : m (List (DrawOp α)) := do
  let base : List (DrawOp α) := [.transform .one, .clear v.style.backgroundColor]
  match v.error with
  | some message => return base ++ (← errorPicture measure v message)
  | none =>
    if !v.preprocessed then return base
    let selected := selectedIn (v.shown? gs)
    return base ++ [.transform v.camera.matrix] ++
      EdgeRoutes.paint v.style.edge selected (v.edges.route v.style.edge).1 ++
      v.boxes.render v.style.vertex selected

/-- Paints; the routes of the edges are kept from the first time. -/
def render (measure : Measure m α) (v : View α) (gs : GraphStore) :
    m (List (DrawOp α) × View α) := do
  let ops ← v.picture measure gs
  if v.error.isNone && v.preprocessed then
    return (ops, { v with edges := (v.edges.route v.style.edge).2 })
  else return (ops, v)

/-- The first half of a frame: prepares, and tells whether to paint, because something changed and
redraw is not suppressed. -/
def prepare (engine : LayoutEngine α) (measure : Measure m α) (gs : GraphStore) :
    Frame m α Bool := do
  let _ ← preprocess engine measure gs
  let v ← get
  if v.suppressed then return false
  let (dirty, camera) := v.camera.consumeDirty
  set { v with camera }
  return v.needsRender || dirty

/-- What a frame does. The answer is what was painted. -/
def update (engine : LayoutEngine α) (measure : Measure m α) (gs : GraphStore) :
    Frame m α (Option (List (DrawOp α))) := do
  if !(← prepare engine measure gs) then return none
  let (ops, v) ← Frame.lift ((← get).render measure gs)
  set { v with needsRender := false }
  return some ops

end DebugDesk.View
