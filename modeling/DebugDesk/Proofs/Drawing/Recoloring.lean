import DebugDesk.Proofs.View.Repainting
import DebugDesk.Proofs.Drawing.Clicking

/-!
# Selections only recolor

What is selected decides on colors, and on nothing else. Whoever paints the same edges and drawings
twice makes the same calls one by one, and those that differ are the edges, the shadow and the
border of a vertex that is selected only once.
-/
namespace DebugDesk

/-- What a call paints: an edge by its source, or a part of the drawing of a vertex. -/
inductive Painted where
  | edge (source : Nat)
  | shadow (vertex : Nat)
  | border (vertex : Nat)
  | background (vertex : Nat)
  | text (vertex : Nat)

def VertexDrawing.parts {α : Type} (d : VertexDrawing α) : List Painted :=
  [.shadow d.vertex, .border d.vertex, .background d.vertex] ++
    d.runs.map fun _ => .text d.vertex

section

variable {α : Type} (selected selected' : Nat → Bool)

/-- Two calls that paint the same under two selections. Nothing but their colors may differ, and
those only where both selections make a difference. -/
inductive Recolored : Painted → Recorded α → Recorded α → Prop
  | edge {source : Nat} {points : List (Point α)} {thickness : α} {color color' : Ink}
    (same : selected source = selected' source → color' = color) :
    Recolored (.edge source) (.polyline points color thickness) (.polyline points color' thickness)
  | shadow {vertex : Nat} {x y width height : α} {color color' : Ink}
    (same : selected vertex = selected' vertex → color' = color) :
    Recolored (.shadow vertex) (.rect x y width height color) (.rect x y width height color')
  | border {vertex : Nat} {x y width height : α} {color color' : Ink}
    (same : selected vertex = selected' vertex → color' = color) :
    Recolored (.border vertex) (.rect x y width height color) (.rect x y width height color')
  | background {vertex : Nat} {x y width height : α} {color : Ink} :
    Recolored (.background vertex) (.rect x y width height color) (.rect x y width height color)
  | text {vertex : Nat} {x y : α} {text font : String} {size : α} {color : Ink} :
    Recolored (.text vertex) (.text x y text color font size) (.text x y text color font size)

/-- Calls that paint the same one by one. -/
inductive Recolors : List Painted → List (Recorded α) → List (Recorded α) → Prop
  | nil : Recolors [] [] []
  | cons {part : Painted} {call call' : Recorded α} {parts : List Painted}
    {calls calls' : List (Recorded α)} (first : Recolored selected selected' part call call')
    (rest : Recolors parts calls calls') :
    Recolors (part :: parts) (call :: calls) (call' :: calls')

end

namespace Recolors

variable {α : Type} {selected selected' : Nat → Bool} {parts parts' : List Painted}
  {calls calls' calls₁ calls₁' : List (Recorded α)}

theorem length (h : Recolors selected selected' parts calls calls') :
    calls.length = parts.length ∧ calls'.length = parts.length := by
  induction h with
  | nil => exact ⟨rfl, rfl⟩
  | cons _ _ ih => exact ⟨congrArg (· + 1) ih.1, congrArg (· + 1) ih.2⟩

theorem append (h : Recolors selected selected' parts calls calls')
    (h' : Recolors selected selected' parts' calls₁ calls₁') :
    Recolors selected selected' (parts ++ parts') (calls ++ calls₁) (calls' ++ calls₁') := by
  induction h with
  | nil => exact h'
  | cons first _ ih => exact .cons first ih

theorem map {β : Type} {part : β → Painted} {call call' : β → Recorded α} (xs : List β)
    (h : ∀ x, Recolored selected selected' (part x) (call x) (call' x)) :
    Recolors selected selected' (xs.map part) (xs.map call) (xs.map call') := by
  induction xs with
  | nil => exact .nil
  | cons x xs ih => exact .cons (h x) ih

theorem flatMap {β : Type} {parts : β → List Painted} {calls calls' : β → List (Recorded α)}
    (xs : List β) (h : ∀ x, Recolors selected selected' (parts x) (calls x) (calls' x)) :
    Recolors selected selected' (xs.flatMap parts) (xs.flatMap calls) (xs.flatMap calls') := by
  induction xs with
  | nil => exact .nil
  | cons x xs ih => exact (h x).append ih

end Recolors

section

variable {α : Type} [Scalar α] (selected selected' : Nat → Bool)

namespace EdgeRoutes

def stroke (m : Matrix3 α) (style : EdgeStyle α) (selected : Nat → Bool) (r : Route α) :
    Recorded α :=
  .polyline (r.points.map m.map) (colorOf style (selected r.source) r.kind)
    (style.lineWidth * m.first.x)

theorem record_paint (m : Matrix3 α) (style : EdgeStyle α) (routes : List (Route α)) :
    (paint style selected routes).filterMap (RecordingSurface.record m) =
      routes.map (stroke m style selected) := by
  rw [paint, List.filterMap_map]
  exact congrFun (List.filterMap_eq_map (f := stroke m style selected)) routes

omit [Scalar α] in
theorem isOver_of_mem_paint {style : EdgeStyle α} {selected : Nat → Bool}
    {routes : List (Route α)} {op : DrawOp α} (h : op ∈ paint style selected routes) :
    op.IsOver := by
  obtain ⟨route, -, rfl⟩ := List.mem_map.mp h
  exact trivial

theorem recolored_stroke (m : Matrix3 α) (style : EdgeStyle α) (r : Route α) :
    Recolored selected selected' (.edge r.source) (stroke m style selected r)
      (stroke m style selected' r) :=
  .edge fun same => by rw [same]

end EdgeRoutes

namespace VertexBoxes

/-- Of what is painted of a vertex only shadow and border have colors for selected vertices. -/
theorem recolors_layer (m : Matrix3 α) (style : VertexStyle α) (d : VertexDrawing α) :
    Recolors selected selected' d.parts (layer m style selected d)
      (layer m style selected' d) := by
  let text (r : PlacedRun α) : Recorded α :=
    .text (m.map ⟨r.x, r.y⟩).x (m.map ⟨r.x, r.y⟩).y r.run.text (r.run.color <|> style.textColor)
      (fontOf style r.run) (style.fontSize * m.first.x)
  have htexts : (d.runs.map fun r => DrawOp.text r.x r.y r.run.text
      (r.run.color <|> style.textColor) (fontOf style r.run) style.fontSize).filterMap
        (RecordingSurface.record m) = d.runs.map text := by
    rw [List.filterMap_map]
    exact congrFun (List.filterMap_eq_map (f := text)) d.runs
  unfold layer paint VertexDrawing.parts
  simp only [List.filterMap_append, htexts]
  refine .append ?_ (.map d.runs fun r => .text)
  exact .cons (.shadow fun same => by rw [same]) (.cons (.border fun same => by rw [same])
    (.cons .background .nil))

end VertexBoxes

/-- Two paintings of the same edges and vertices under the same transform, also when the routes are
kept from the first of them, record the same calls one by one, after those before. Calls differ in
their colors at most, and only those of edges that leave a vertex which is selected in one of them
only, and of the shadow and the border of such a vertex. -/
theorem RecordingSurface.recolors_picture (style : ViewStyle α) (e : EdgeRoutes α)
    (b : VertexBoxes α) (m : Matrix3 α) (s : RecordingSurface α) :
    let calls (e : EdgeRoutes α) (selected : Nat → Bool) : List (Recorded α) :=
      ((s.draw (.transform m)).drawAll
        (EdgeRoutes.paint style.edge selected (e.route style.edge).1 ++
          b.render style.vertex selected)).calls
    let parts := (e.route style.edge).1.map (fun r => Painted.edge r.source) ++
      b.drawings.flatMap VertexDrawing.parts
    ∃ painted painted', calls e selected = s.calls ++ painted ∧
      calls e selected' = s.calls ++ painted' ∧
      calls (e.route style.edge).2 selected' = calls e selected' ∧
      painted'.length = painted.length ∧
      Recolors selected selected' parts painted painted' := by
  intro calls parts
  have hcalls (selected : Nat → Bool) : calls e selected = s.calls ++
      ((e.route style.edge).1.map (EdgeRoutes.stroke m style.edge selected) ++
        b.drawings.flatMap (VertexBoxes.layer m style.vertex selected)) := by
    have hover : ∀ op ∈ EdgeRoutes.paint style.edge selected (e.route style.edge).1 ++
        b.render style.vertex selected, op.IsOver := by
      intro op hop
      rcases List.mem_append.mp hop with hop | hop
      · exact EdgeRoutes.isOver_of_mem_paint hop
      · exact VertexBoxes.isOver_of_mem_render hop
    change ((s.draw (.transform m)).drawAll _).calls = _
    rw [drawAll_over _ hover, List.filterMap_append, VertexBoxes.render, List.filterMap_flatMap]
    change s.calls ++ ((EdgeRoutes.paint style.edge selected (e.route style.edge).1).filterMap
      (record m) ++ _) = _
    rw [EdgeRoutes.record_paint]
    rfl
  have hrecolors : Recolors selected selected' parts _ _ :=
    (Recolors.map (e.route style.edge).1
      (EdgeRoutes.recolored_stroke selected selected' m style.edge)).append
      (.flatMap b.drawings (VertexBoxes.recolors_layer selected selected' m style.vertex))
  refine ⟨_, _, hcalls selected, hcalls selected', ?_,
    hrecolors.length.2.trans hrecolors.length.1.symm, hrecolors⟩
  change ((s.draw (.transform m)).drawAll _).calls = ((s.draw (.transform m)).drawAll _).calls
  rw [e.route_route]

end

end DebugDesk
