import DebugDesk.Proofs.View.Surfaces

/-!
# Counting layouts

A frame, with what lays out, draws and paints for it as parameters. When what lays out writes down
each time that it is called, the frame is what it was, and the record tells what it asked for.
-/
namespace DebugDesk.View

variable {α : Type} [Scalar α]

section

variable {m : Type → Type} [Monad m]

/-- `preprocess`, given what lays out a graph, with its number, and what draws. -/
def preprocessBy
    (layOut : ViewStyle α → Nat → Graph → StateT (VertexBoxes α) m (Except Fault (Layout α)))
    (draw : Graph → Layout α → Frame m α Unit) (gs : GraphStore) : Frame m α Bool := do
  let v ← get
  match v.graph with
  | none => return false
  | some ref =>
    let g := gs.graph ref
    if v.settled ref g.size then return false
    let v := { v with preprocessed := false }
    if !g.verifyIntegrity then
      set (v.setError integrityMessage)
      return true
    let ((result, cache), boxes) ← Frame.lift
      ((v.cache.get ref g.size fun _ => layOut v.style ref g).run v.boxes)
    let v := { v with cache, boxes }
    match result with
    | .error fault =>
      set { v.setError s!"Layout failed: {fault.message}" with failed := some (ref, g.size) }
    | .ok l =>
      set v
      draw g l
    return true

/-- `update`, given what prepares and what paints. -/
def updateBy (preprocess : Frame m α Bool) (render : View α → m (List (DrawOp α) × View α)) :
    Frame m α (Option (List (DrawOp α))) := do
  let _ ← preprocess
  let v ← get
  if v.suppressed then return none
  let (dirty, camera) := v.camera.consumeDirty
  set { v with camera }
  if !(v.needsRender || dirty) then return none
  let (ops, v) ← Frame.lift (render (← get))
  set { v with needsRender := false }
  return some ops

theorem update_eq [LawfulMonad m] (engine : LayoutEngine α) (measure : Measure m α)
    (gs : GraphStore) :
    update engine measure gs =
      updateBy (preprocess engine measure gs) (fun v => v.render measure gs) := by
  simp only [update, prepare, updateBy, bind_assoc]
  refine bind_congr fun _ => bind_congr fun v => ?_
  by_cases hs : v.suppressed = true
  · simp only [hs, ↓reduceIte, pure_bind]
    rfl
  · simp only [hs, Bool.false_eq_true, ↓reduceIte, bind_assoc, pure_bind]

end

structure Laying (α : Type) where
  period : Nat
  ref : Nat
  graph : Graph
  result : Except Fault (Layout α)

abbrev Count (α : Type) := StateM (List (Laying α))

namespace Frame

variable {β : Type}

def uncounted (x : Frame Id α β) : Frame (Count α) α β :=
  ExceptT.mk (StateT.mk fun v => pure (x.run.run v))

def counted (x : Frame (Count α) α β) (v : View α) (calls : List (Laying α)) :
    (Except Fault β × View α) × List (Laying α) := (x.run.run v).run calls

end Frame

def computeCounted (period : Nat) (engine : LayoutEngine α) (measure : Measure Id α)
    (style : ViewStyle α) (ref : Nat) (g : Graph) :
    StateT (VertexBoxes α) (Count α) (Except Fault (Layout α)) := fun b calls =>
  let (result, b) := (computeLayout (m := Id) engine measure style g).run b
  ((result, b), ⟨period, ref, g, result⟩ :: calls)

def preprocessCounted (period : Nat) (engine : LayoutEngine α) (measure : Measure Id α)
    (gs : GraphStore) : Frame (Count α) α Bool :=
  preprocessBy (computeCounted period engine measure) (fun g l => .uncounted (draw measure gs g l))
    gs

def updateCounted (period : Nat) (engine : LayoutEngine α) (measure : Measure Id α)
    (gs : GraphStore) : Frame (Count α) α (Option (List (DrawOp α))) :=
  updateBy (preprocessCounted period engine measure gs)
    fun v => pure (v.render (m := Id) measure gs)

/-- The layouts that a frame makes: none, or one. -/
def layings (period : Nat) (engine : LayoutEngine α) (measure : Measure Id α) (v : View α)
    (gs : GraphStore) : List (Laying α) :=
  match v.graph with
  | none => []
  | some ref =>
    let g := gs.graph ref
    if v.settled ref g.size || !g.verifyIntegrity || v.cache.validFor ref g.size then []
    else [⟨period, ref, g, (v.laidOut engine measure g).1⟩]

variable {v : View α} {gs : GraphStore} {ref : Nat} {engine : LayoutEngine α}
  {measure : Measure Id α} {calls : List (Laying α)} {β γ : Type}

namespace Frame

omit [Scalar α] in
theorem counted_bind (x : Frame (Count α) α β) (f : β → Frame (Count α) α γ) (v : View α)
    (calls : List (Laying α)) :
    (x >>= f).counted v calls =
      match x.counted v calls with
      | ((.ok b, w), calls) => (f b).counted w calls
      | ((.error fault, w), calls) => ((.error fault, w), calls) := by
  unfold counted
  rw [run_bind]
  rcases (x.run.run v).run calls with ⟨⟨fault | b, w⟩, calls⟩ <;> rfl

omit [Scalar α] in
@[simp] theorem counted_pure (b : β) :
    (pure b : Frame (Count α) α β).counted v calls = ((.ok b, v), calls) := rfl

omit [Scalar α] in
@[simp] theorem counted_get : (get : Frame (Count α) α (View α)).counted v calls =
    ((.ok v, v), calls) := rfl

omit [Scalar α] in
@[simp] theorem counted_set (w : View α) :
    (set w : Frame (Count α) α Unit).counted v calls = ((.ok (), w), calls) := rfl

omit [Scalar α] in
@[simp] theorem counted_lift (x : Count α β) :
    (Frame.lift x : Frame (Count α) α β).counted v calls =
      ((.ok (x.run calls).1, v), (x.run calls).2) := rfl

omit [Scalar α] in
@[simp] theorem counted_uncounted (x : Frame Id α β) :
    x.uncounted.counted v calls = (Effect.outcome x v, calls) := rfl

end Frame

theorem run_computeCounted (period : Nat) (engine : LayoutEngine α) (measure : Measure Id α)
    (v : View α) (ref : Nat) (g : Graph) (calls : List (Laying α)) :
    ((computeCounted period engine measure v.style ref g).run v.boxes).run calls =
      (v.laidOut engine measure g,
        ⟨period, ref, g, (v.laidOut engine measure g).1⟩ :: calls) := rfl

/-- A count changes nothing about a frame, and tells which layouts it makes. -/
theorem counted_preprocess (period : Nat) (engine : LayoutEngine α) (measure : Measure Id α)
    (gs : GraphStore) (v : View α) (calls : List (Laying α)) :
    (preprocessCounted period engine measure gs).counted v calls =
      (Effect.outcome (preprocess engine measure gs) v,
        layings period engine measure v gs ++ calls) := by
  rcases Option.eq_none_or_eq_some v.graph with hg | ⟨ref, hg⟩
  · simp only [preprocessCounted, preprocessBy, Frame.counted_bind, Frame.counted_get, hg,
      Frame.counted_pure, outcome_preprocess_of_none hg, layings, List.nil_append]
  rcases Bool.eq_false_or_eq_true (v.settled ref (gs.graph ref).size) with hs | hs
  · simp only [preprocessCounted, preprocessBy, Frame.counted_bind, Frame.counted_get, hg, hs,
      ↓reduceIte, Frame.counted_pure, outcome_preprocess_of_settled hg hs, layings, Bool.true_or,
      List.nil_append]
  rcases Bool.eq_false_or_eq_true (gs.graph ref).verifyIntegrity with hi | hi
  case inr =>
    simp only [preprocessCounted, preprocessBy, Frame.counted_bind, Frame.counted_get, hg, hs, hi,
      Bool.false_eq_true, ↓reduceIte, Bool.not_false, Frame.counted_set, Frame.counted_pure,
      outcome_preprocess_of_unnumbered hg hs hi, layings, Bool.or_true, Bool.true_or,
      List.nil_append]
  rcases hk : v.cache.lookup? ref (gs.graph ref).size with _ | l
  case some =>
    have hget : ((LayoutCache.get v.cache ref (gs.graph ref).size fun _ =>
        computeCounted period engine measure v.style ref (gs.graph ref)).run v.boxes).run calls =
          (((.ok l, v.cache), v.boxes), calls) := by
      simp only [LayoutCache.get, hk]
      rfl
    have hvalid : v.cache.validFor ref (gs.graph ref).size = true := by
      simp [LayoutCache.validFor, hk]
    simp only [preprocessCounted, preprocessBy, Frame.counted_bind, Frame.counted_get, hg, hs, hi,
      Bool.false_eq_true, ↓reduceIte, Bool.not_true, Frame.counted_lift, hget, Frame.counted_set,
      Frame.counted_uncounted, outcome_preprocess_of_known hg hs hi hk, layings, hvalid,
      Bool.or_true, List.nil_append, Frame.counted_pure]
    generalize Effect.outcome (draw measure gs (gs.graph ref) l) _ = o
    rcases o with ⟨fault | u, w⟩ <;> rfl
  have hvalid : v.cache.validFor ref (gs.graph ref).size = false := by
    simp [LayoutCache.validFor, hk]
  rcases hl : v.laidOut engine measure (gs.graph ref) with ⟨fault | l, boxes⟩
  · have hget : ((LayoutCache.get v.cache ref (gs.graph ref).size fun _ =>
        computeCounted period engine measure v.style ref (gs.graph ref)).run v.boxes).run calls =
          (((.error fault, .empty), boxes),
            ⟨period, ref, gs.graph ref, .error fault⟩ :: calls) := by
      simp only [LayoutCache.get, hk, StateT.run_bind, run_computeCounted, hl]
      rfl
    simp only [preprocessCounted, preprocessBy, Frame.counted_bind, Frame.counted_get, hg, hs, hi,
      Bool.false_eq_true, ↓reduceIte, Bool.not_true, Frame.counted_lift, hget, Frame.counted_set,
      outcome_preprocess_of_failed hg hs hi hk hl, layings, hvalid, hl,
      Bool.or_false, List.singleton_append, Frame.counted_pure]
  · have hget : ((LayoutCache.get v.cache ref (gs.graph ref).size fun _ =>
        computeCounted period engine measure v.style ref (gs.graph ref)).run v.boxes).run calls =
          (((.ok l, ⟨some (ref, (gs.graph ref).size, l)⟩), boxes),
            ⟨period, ref, gs.graph ref, .ok l⟩ :: calls) := by
      simp only [LayoutCache.get, hk, StateT.run_bind, run_computeCounted, hl]
      rfl
    simp only [preprocessCounted, preprocessBy, Frame.counted_bind, Frame.counted_get, hg, hs, hi,
      Bool.false_eq_true, ↓reduceIte, Bool.not_true, Frame.counted_lift, hget, Frame.counted_set,
      Frame.counted_uncounted, outcome_preprocess_of_laid hg hs hi hk hl, layings, hvalid, hl,
      Bool.or_false, List.singleton_append, Frame.counted_pure]
    generalize Effect.outcome (draw measure gs (gs.graph ref) l) _ = o
    rcases o with ⟨fault | u, w⟩ <;> rfl

theorem counted_update (period : Nat) (engine : LayoutEngine α) (measure : Measure Id α)
    (gs : GraphStore) (v : View α) (calls : List (Laying α)) :
    (updateCounted period engine measure gs).counted v calls =
      (Effect.outcome (update engine measure gs) v,
        layings period engine measure v gs ++ calls) := by
  rw [update_eq]
  simp only [updateCounted, updateBy, Frame.counted_bind, counted_preprocess, Effect.outcome_bind]
  rcases Effect.outcome (preprocess engine measure gs) v with ⟨fault | b, w⟩
  · rfl
  simp only [Frame.counted_get, Effect.outcome_get]
  by_cases hs : w.suppressed = true
  · simp only [hs, ↓reduceIte]
    rfl
  simp only [hs, Bool.false_eq_true, ↓reduceIte, Frame.counted_bind, Frame.counted_set,
    Effect.outcome_bind, Effect.outcome_set]
  cases w.needsRender || w.camera.consumeDirty.1
  · simp only [Bool.not_false, ↓reduceIte]
    rfl
  · simp only [Bool.not_true, Bool.false_eq_true, ↓reduceIte, Frame.counted_bind,
      Frame.counted_get, Frame.counted_lift, Frame.counted_set, Frame.counted_pure,
      Effect.outcome_bind, Effect.outcome_get, outcome_lift, Effect.outcome_set,
      Effect.outcome_pure]
    rfl

end DebugDesk.View
