import DebugDesk.Proofs.View.Drawing
import Mathlib.Data.List.Nodup

/-!
# Phases of a view

What a view has made of its graph is linked from frame to frame: nothing is made yet, or the latest
layout failed, or all is drawn. Only a graph that has edges but no vertices is laid out and cannot
be drawn.
-/
namespace DebugDesk

/-- A graph without vertices, but with edges, which are all between strangers. -/
def Graph.Bare (g : Graph) : Prop := g.vertices = [] ∧ g.edges ≠ []

namespace View

variable {α : Type} {v w : View α} {gs hs : GraphStore} {ref : Nat} {attempt : Option Attempt}

/-- Whether two views have made the same of the same graph. -/
structure Alike (v w : View α) : Prop where
  graph : w.graph = v.graph
  layout : w.layout = v.layout
  error : w.error = v.error
  cache : w.cache = v.cache
  failed : w.failed = v.failed
  preprocessed : w.preprocessed = v.preprocessed
  boxes : w.boxes = v.boxes

theorem Alike.refl (v : View α) : v.Alike v := ⟨rfl, rfl, rfl, rfl, rfl, rfl, rfl⟩

theorem Alike.trans {u : View α} (h : v.Alike w) (h' : w.Alike u) : v.Alike u :=
  ⟨h'.graph.trans h.graph, h'.layout.trans h.layout, h'.error.trans h.error,
    h'.cache.trans h.cache, h'.failed.trans h.failed, h'.preprocessed.trans h.preprocessed,
    h'.boxes.trans h.boxes⟩

/-- What a view has made of its graph; `attempt` is the latest layout. -/
inductive Phase (v : View α) (gs : GraphStore) (attempt : Option Attempt) : Prop
  | fresh (layout : v.layout = none) (error : v.error = none) (cache : v.cache = .empty)
    (failed : v.failed = none) (preprocessed : v.preprocessed = false)
  | stuck (ref : Nat) (l : Layout α) (graph : v.graph = some ref)
    (edges : (gs.graph ref).edges ≠ []) (covers : l.Covers 0) (layout : v.layout = some l)
    (error : v.error = none) (cache : v.cache = ⟨some (ref, 0, l)⟩) (failed : v.failed = none)
    (preprocessed : v.preprocessed = false)
  | failing (ref : Nat) (graph : v.graph = some ref) (size : (gs.graph ref).size ≠ 0)
    (layout : v.layout = none) (error : v.error.isSome) (cache : v.cache = .empty)
    (failed : ∀ r m, v.failed = some (r, m) → r = ref ∧ m ≤ (gs.graph ref).size ∧
      (m = (gs.graph ref).size → (gs.graph ref).verifyIntegrity = true) ∧
      attempt = some ⟨ref, m, true⟩)
    (preprocessed : v.preprocessed = false)
  | drawn (ref n : Nat) (l : Layout α) (graph : v.graph = some ref)
    (size : n ≤ (gs.graph ref).size)
    (numbered : n = (gs.graph ref).size → (gs.graph ref).verifyIntegrity = true)
    (covers : l.Covers n) (layout : v.layout = some l) (error : v.error = none)
    (cache : v.cache = ⟨some (ref, n, l)⟩) (failed : v.failed = none)
    (preprocessed : v.preprocessed = true)
    (drawings : v.boxes.drawings.map VertexDrawing.vertex = List.range n)
    (attempted : attempt = some ⟨ref, n, false⟩)

/-- How a graph that is shown may change. -/
structure Grows (g h : Graph) : Prop where
  size : g.size ≤ h.size
  numbered : h.size = g.size → g.verifyIntegrity = true → h.verifyIntegrity = true
  edges : g.edges ≠ [] → h.edges ≠ []

theorem Grows.refl (g : Graph) : Grows g g := ⟨Nat.le_refl _, fun _ h => h, id⟩

/-- A phase lasts while the view makes nothing new and its graph grows. -/
theorem Phase.of_alike (h : v.Phase gs attempt) (ha : v.Alike w)
    (hg : ∀ ref, v.graph = some ref → Grows (gs.graph ref) (hs.graph ref)) :
    w.Phase hs attempt := by
  cases h with
  | fresh layout error cache failed preprocessed =>
    exact .fresh (ha.layout ▸ layout) (ha.error ▸ error) (ha.cache ▸ cache) (ha.failed ▸ failed)
      (ha.preprocessed ▸ preprocessed)
  | stuck ref l graph edges covers layout error cache failed preprocessed =>
    exact .stuck ref l (ha.graph ▸ graph) ((hg ref graph).edges edges) covers (ha.layout ▸ layout)
      (ha.error ▸ error) (ha.cache ▸ cache) (ha.failed ▸ failed) (ha.preprocessed ▸ preprocessed)
  | failing ref graph size layout error cache failed preprocessed =>
    have hgrows := hg ref graph
    have hsize := hgrows.size
    refine .failing ref (ha.graph ▸ graph) (by omega) (ha.layout ▸ layout) (ha.error ▸ error)
      (ha.cache ▸ cache) ?_ (ha.preprocessed ▸ preprocessed)
    intro r m hf
    obtain ⟨hr, hm, hnumbered, hattempt⟩ := failed r m (ha.failed ▸ hf)
    refine ⟨hr, by omega, fun he => hgrows.numbered (by omega) (hnumbered (by omega)), hattempt⟩
  | drawn ref n l graph size numbered covers layout error cache failed preprocessed drawings
      attempted =>
    have hgrows := hg ref graph
    have hsize := hgrows.size
    exact .drawn ref n l (ha.graph ▸ graph) (by omega)
      (fun he => hgrows.numbered (by omega) (numbered (by omega))) covers (ha.layout ▸ layout)
      (ha.error ▸ error) (ha.cache ▸ cache) (ha.failed ▸ failed) (ha.preprocessed ▸ preprocessed)
      (ha.boxes ▸ drawings) attempted

variable [Scalar α] {engine : LayoutEngine α} {measure : Measure Id α} {l : Layout α}

/-- What a frame prepares: its answer, the view that it leaves, and the attempt that it makes. -/
inductive Prepared (v : View α) (gs : GraphStore) :
    Except Fault Bool → View α → Option Attempt → Prop
  | blank (graph : v.graph = none) : Prepared v gs (.ok false) v none
  | kept (ref : Nat) (graph : v.graph = some ref)
    (settled : v.settled ref (gs.graph ref).size = true) : Prepared v gs (.ok false) v none
  | unnumbered (ref : Nat) (graph : v.graph = some ref)
    (unnumbered : (gs.graph ref).verifyIntegrity = false) :
    Prepared v gs (.ok true) ({ v with preprocessed := false }.setError integrityMessage) none
  | failed (ref : Nat) (boxes : VertexBoxes α) (fault : Fault) (graph : v.graph = some ref)
    (numbered : (gs.graph ref).verifyIntegrity = true) (size : (gs.graph ref).size ≠ 0) :
    Prepared v gs (.ok true)
      { ({ v with preprocessed := false, boxes, cache := .empty } : View α).setError
        s!"Layout failed: {fault.message}" with failed := some (ref, (gs.graph ref).size) }
      (some ⟨ref, (gs.graph ref).size, true⟩)
  | drawn (ref : Nat) (l : Layout α) (camera : Camera α) (pending : Bool) (boxes : VertexBoxes α)
    (edges : EdgeRoutes α) (graph : v.graph = some ref)
    (numbered : (gs.graph ref).verifyIntegrity = true) (whole : ¬(gs.graph ref).Bare)
    (covers : l.Covers (gs.graph ref).size) (moves : v.camera.Moves camera)
    (drawings : boxes.drawings.map VertexDrawing.vertex = List.range (gs.graph ref).size) :
    Prepared v gs (.ok true)
      { ({ v with preprocessed := false, cache := ⟨some (ref, (gs.graph ref).size, l)⟩,
                  layout := some l, boxes } : View α).shown edges with
        camera, recenterPending := pending }
      (some ⟨ref, (gs.graph ref).size, false⟩)
  | missing (ref : Nat) (l : Layout α) (boxes : VertexBoxes α) (a : Option Attempt)
    (graph : v.graph = some ref) (bare : (gs.graph ref).Bare) (covers : l.Covers 0)
    (error : v.error = none) (failed : v.failed = none) (preprocessed : v.preprocessed = false) :
    Prepared v gs (.error .missing)
      { v with preprocessed := false, cache := ⟨some (ref, 0, l)⟩, layout := some l, boxes } a

omit [Scalar α] in
/-- The latest layout failed, if one failed, for the graph that is shown. -/
theorem Phase.failed_of_shown (h : v.Phase gs attempt) (hg : v.graph = some ref) (r m : Nat)
    (hf : v.failed = some (r, m)) :
    r = ref ∧ m ≤ (gs.graph ref).size ∧
      (m = (gs.graph ref).size → (gs.graph ref).verifyIntegrity = true) ∧
      attempt = some ⟨ref, m, true⟩ := by
  cases h with
  | fresh layout error cache failed => simp [failed] at hf
  | stuck r l graph edges covers layout error cache failed => simp [failed] at hf
  | failing r graph size layout error cache failed =>
    obtain rfl := Option.some.inj (graph.symm.trans hg)
    exact failed _ _ hf
  | drawn r n l graph size numbered covers layout error cache failed => simp [failed] at hf

theorem Prepared.camera {r : Except Fault Bool} {a : Option Attempt} (h : Prepared v gs r w a)
    (hc : v.camera.Sound) : w.camera.Sound := by
  cases h with
  | drawn _ _ _ _ _ _ _ _ _ _ moves => exact moves.sound hc
  | _ => exact hc

/-- What a frame prepares is a phase again. -/
theorem Prepared.phase {r : Except Fault Bool} {a : Option Attempt} (h : Prepared v gs r w a)
    (hp : v.Phase gs attempt) : w.Phase gs (a.or attempt) := by
  cases h with
  | blank => exact hp
  | kept => exact hp
  | unnumbered ref graph unnumbered =>
    have hsize : (gs.graph ref).size ≠ 0 := by
      intro h
      simp [Graph.verifyIntegrity, List.eq_nil_of_length_eq_zero h] at unnumbered
    exact .failing ref graph hsize rfl rfl rfl (hp.failed_of_shown graph) rfl
  | failed ref boxes fault graph numbered size =>
    refine .failing ref graph size rfl rfl rfl ?_ rfl
    intro r m hf
    obtain ⟨rfl, rfl⟩ := Prod.mk.inj (Option.some.inj hf)
    exact ⟨rfl, Nat.le_refl _, fun _ => numbered, rfl⟩
  | drawn ref l camera pending boxes edges graph numbered whole covers moves drawings =>
    exact .drawn ref _ l graph (Nat.le_refl _) (fun _ => numbered) covers rfl rfl rfl rfl rfl
      drawings rfl
  | missing ref l boxes a graph bare covers error failed preprocessed =>
    exact .stuck ref l graph bare.2 covers rfl error rfl failed rfl

theorem laidOut_ok {g : Graph} {boxes : VertexBoxes α}
    (hids : g.vertices.map Vertex.id = (List.range g.size).map Int.ofNat)
    (h : v.laidOut engine measure g = (.ok l, boxes)) :
    l.Covers g.size ∧
      (g.vertices ≠ [] → ∀ e ∈ g.edges, ∃ i j, e.source = .inside i ∧ e.target = .inside j) := by
  have hnodup : (g.vertices.map Vertex.id).Nodup := by
    rw [hids]
    exact List.Nodup.map (fun _ _ h => Int.ofNat.inj h) List.nodup_range
  obtain ⟨hperm, hends⟩ := Layout.ofGraph_ok hnodup (congrArg Prod.fst h)
  rw [hids] at hperm
  exact ⟨hperm, hends⟩

theorem laidOut_of_isEmpty (engine : LayoutEngine α) (measure : Measure Id α) (v : View α)
    {g : Graph} (hg : g.vertices = []) :
    (v.laidOut engine measure g).1 = .ok ⟨[], 0.0, 0.0⟩ := by
  change Layout.ofGraph engine g _ _ _ = _
  simp only [Layout.ofGraph, Layout.ofGraphBy, Graph.verifyIntegrity, hg]
  rfl

omit [Scalar α] in
/-- A view that is not settled and has no drawings knows no error of a graph without vertices. -/
theorem Phase.fresh_of_bare (h : v.Phase gs attempt) (hg : v.graph = some ref)
    (hb : (gs.graph ref).vertices = []) (hs : v.settled ref (gs.graph ref).size = false) :
    v.error = none ∧ v.failed = none ∧ v.preprocessed = false := by
  have hsize : (gs.graph ref).size = 0 := by simp [Graph.size, hb]
  cases h with
  | fresh layout error cache failed preprocessed => exact ⟨error, failed, preprocessed⟩
  | stuck r l graph edges covers layout error cache failed preprocessed =>
    exact ⟨error, failed, preprocessed⟩
  | failing r graph size =>
    obtain rfl : r = ref := Option.some.inj (graph.symm.trans hg)
    exact absurd hsize size
  | drawn r n l graph size numbered covers layout error cache failed preprocessed =>
    obtain rfl : r = ref := Option.some.inj (graph.symm.trans hg)
    have hn : n = (gs.graph r).size := by omega
    simp [settled, preprocessed, LayoutCache.validFor, LayoutCache.lookup?, cache, hn] at hs

omit [Scalar α] in
/-- A layout that is held for a graph that is not settled is of a graph that cannot be drawn. -/
theorem Phase.bare_of_known (h : v.Phase gs attempt) (hg : v.graph = some ref)
    (hs : v.settled ref (gs.graph ref).size = false)
    (hk : v.cache.lookup? ref (gs.graph ref).size = some l) :
    (gs.graph ref).Bare ∧ v.cache = ⟨some (ref, 0, l)⟩ ∧ l.Covers 0 := by
  cases h with
  | fresh layout error cache => simp [LayoutCache.lookup?, LayoutCache.empty, cache] at hk
  | stuck r k graph edges covers layout error cache =>
    obtain rfl : r = ref := Option.some.inj (graph.symm.trans hg)
    simp only [LayoutCache.lookup?, cache, true_and] at hk
    split at hk
    next hsize =>
      obtain rfl : k = l := Option.some.inj hk
      exact ⟨⟨List.eq_nil_of_length_eq_zero hsize.symm, edges⟩, cache, covers⟩
    next => exact nomatch hk
  | failing r graph size layout error cache =>
    simp [LayoutCache.lookup?, LayoutCache.empty, cache] at hk
  | drawn r n k graph size numbered covers layout error cache failed preprocessed =>
    have hvalid : v.cache.validFor ref (gs.graph ref).size = true := by
      simp [LayoutCache.validFor, hk]
    simp [settled, preprocessed, hvalid] at hs

theorem prepared (engine : LayoutEngine α) (measure : Measure Id α)
    (hb : ∀ ref, v.graph = some ref → (gs.graph ref).Built) (hc : v.camera.Sound)
    (hp : v.Phase gs attempt) :
    Prepared v gs (Effect.outcome (preprocess engine measure gs) v).1
      (Effect.outcome (preprocess engine measure gs) v).2 (attempt? engine measure v gs) := by
  rcases Option.eq_none_or_eq_some v.graph with hg | ⟨ref, hg⟩
  · have hattempt : attempt? engine measure v gs = none := by simp [attempt?, hg]
    rw [outcome_preprocess_of_none hg, hattempt]
    exact .blank hg
  rcases Bool.eq_false_or_eq_true (v.settled ref (gs.graph ref).size) with hs | hs
  · have hattempt : attempt? engine measure v gs = none := by simp [attempt?, hg, hs]
    rw [outcome_preprocess_of_settled hg hs, hattempt]
    exact .kept ref hg hs
  rcases Bool.eq_false_or_eq_true (gs.graph ref).verifyIntegrity with hi | hi
  case inr =>
    have hattempt : attempt? engine measure v gs = none := by simp [attempt?, hg, hs, hi]
    rw [outcome_preprocess_of_unnumbered hg hs hi, hattempt]
    exact .unnumbered ref hg hi
  have hids := (hb ref hg).ids_of_verifyIntegrity hi
  rcases Option.eq_none_or_eq_some (v.cache.lookup? ref (gs.graph ref).size) with hk | ⟨l, hk⟩
  case inr =>
    obtain ⟨hbare, hcache, hcovers⟩ := hp.bare_of_known hg hs hk
    obtain ⟨herror, hfailed, hpre⟩ := hp.fresh_of_bare hg hbare.1 hs
    rw [outcome_preprocess_of_known hg hs hi hk]
    obtain ⟨boxes, hdraw⟩ :=
      draw_missing (v := { v with preprocessed := false }) (l := l) measure gs
      hbare.1 hbare.2
    rw [hdraw]
    dsimp only [Except.map]
    rw [hcache]
    exact .missing ref l boxes _ hg hbare hcovers herror hfailed hpre
  have hattempt : attempt? engine measure v gs = some ⟨ref, (gs.graph ref).size,
      !(v.laidOut engine measure (gs.graph ref)).1.isOk⟩ := by
    simp [attempt?, hg, hs, hi, LayoutCache.validFor, hk]
  rcases hl : v.laidOut engine measure (gs.graph ref) with ⟨fault | l, boxes⟩
  · rw [outcome_preprocess_of_failed hg hs hi hk hl, hattempt, hl]
    refine .failed ref boxes fault hg hi fun hsize => ?_
    have hok := laidOut_of_isEmpty engine measure v
      (List.eq_nil_of_length_eq_zero hsize)
    rw [hl] at hok
    cases hok
  have hok : (v.laidOut engine measure (gs.graph ref)).1.isOk = true := by rw [hl]; rfl
  obtain ⟨hcovers, hends⟩ := laidOut_ok hids hl
  rw [outcome_preprocess_of_laid hg hs hi hk hl, hattempt, hok]
  by_cases hbare : (gs.graph ref).Bare
  · obtain ⟨herror, hfailed, hpre⟩ := hp.fresh_of_bare hg hbare.1 hs
    have hsize : (gs.graph ref).size = 0 := by simp [Graph.size, hbare.1]
    obtain ⟨drawn, hdraw⟩ := draw_missing (l := l) (v := { v with
      preprocessed := false, boxes, cache := ⟨some (ref, (gs.graph ref).size, l)⟩ }) measure gs
      hbare.1 hbare.2
    dsimp only
    rw [hdraw, hsize]
    exact .missing ref l drawn _ hg hbare (hsize ▸ hcovers) herror hfailed hpre
  · have hinside : ∀ e ∈ (gs.graph ref).edges, ∃ i j, e.source = .inside i ∧
        e.target = .inside j ∧ i < (gs.graph ref).size ∧ j < (gs.graph ref).size := by
      intro e he
      have hvertices : (gs.graph ref).vertices ≠ [] := fun h =>
        hbare ⟨h, List.ne_nil_of_mem he⟩
      obtain ⟨i, j, hsource, htarget⟩ := hends hvertices e he
      have hwithin := (hb ref hg).ends e he
      exact ⟨i, j, hsource, htarget, hwithin i (.inl hsource), hwithin j (.inr htarget)⟩
    obtain ⟨camera, pending, drawn, edges, hmoves, hdrawings, hdraw⟩ := draw_shows
      (v := { v with preprocessed := false, boxes, cache := ⟨some (ref, (gs.graph ref).size, l)⟩ })
      measure gs hc hids hcovers hinside
    dsimp only
    rw [hdraw]
    exact .drawn ref l camera pending drawn edges hg hi hbare hcovers hmoves hdrawings

def rested (w : View α) : View α := { w with camera := w.camera.consumeDirty.2 }

def routed (w : View α) : EdgeRoutes α :=
  if w.error.isNone && w.preprocessed then (w.edges.route w.style.edge).2 else w.edges

def repainted (w : View α) : View α := { w.rested with edges := w.routed, needsRender := false }

def pictureNow (measure : Measure Id α) (gs : GraphStore) (w : View α) : List (DrawOp α) :=
  w.picture (m := Id) measure gs

theorem render_eq (measure : Measure Id α) (gs : GraphStore) (w : View α) :
    w.render (m := Id) measure gs = (w.pictureNow measure gs, { w with edges := w.routed }) := by
  have hrender : w.render (m := Id) measure gs = if w.error.isNone && w.preprocessed then
      (w.pictureNow measure gs, { w with edges := (w.edges.route w.style.edge).2 })
      else (w.pictureNow measure gs, w) := rfl
  rw [hrender, routed]
  split <;> rfl

theorem outcome_prepare (engine : LayoutEngine α) (measure : Measure Id α) (gs : GraphStore)
    (v : View α) :
    Effect.outcome (prepare engine measure gs) v =
      match Effect.outcome (preprocess engine measure gs) v with
      | (.error fault, w) => (.error fault, w)
      | (.ok _, w) =>
        if w.suppressed then (.ok false, w)
          else (.ok (w.needsRender || w.camera.dirty), w.rested) := by
  simp only [prepare, Effect.outcome_bind]
  rcases Effect.outcome (preprocess engine measure gs) v with ⟨fault | answer, w⟩
  · rfl
  simp only [Effect.outcome_get]
  by_cases hs : w.suppressed = true
  · rw [if_pos hs, if_pos hs]
    rfl
  · rw [if_neg hs, if_neg hs]
    rfl

theorem outcome_update (engine : LayoutEngine α) (measure : Measure Id α) (gs : GraphStore)
    (v : View α) :
    Effect.outcome (update engine measure gs) v =
      match Effect.outcome (preprocess engine measure gs) v with
      | (.error fault, w) => (.error fault, w)
      | (.ok _, w) =>
        if w.suppressed then (.ok none, w)
        else if w.needsRender || w.camera.dirty then
          (.ok (some (w.pictureNow measure gs)), w.repainted)
        else (.ok none, w.rested) := by
  simp only [update, Effect.outcome_bind, outcome_prepare]
  rcases Effect.outcome (preprocess engine measure gs) v with ⟨fault | answer, w⟩
  · rfl
  dsimp only
  by_cases hs : w.suppressed = true
  · rw [if_pos hs, if_pos hs]
    rfl
  rw [if_neg hs, if_neg hs]
  cases w.needsRender || w.camera.dirty
  · rfl
  · simp only [Bool.not_true, Bool.false_eq_true, ↓reduceIte, Effect.outcome_bind,
      Effect.outcome_get, outcome_lift, render_eq, Effect.outcome_set, Effect.outcome_pure]
    rfl

/-- What a frame does after preparing leaves alone what was prepared. -/
theorem alike_update (engine : LayoutEngine α) (measure : Measure Id α) (gs : GraphStore)
    (v : View α) :
    let w := (Effect.outcome (preprocess engine measure gs) v).2
    let u := (Effect.outcome (update engine measure gs) v).2
    w.Alike u ∧ (w.camera.Sound → u.camera.Sound) := by
  rw [outcome_update]
  rcases Effect.outcome (preprocess engine measure gs) v with ⟨fault | answer, w⟩
  · exact ⟨.refl w, id⟩
  dsimp only
  split
  · exact ⟨.refl w, id⟩
  split
  · exact ⟨⟨rfl, rfl, rfl, rfl, rfl, rfl, rfl⟩, Camera.Sound.consumed⟩
  · exact ⟨⟨rfl, rfl, rfl, rfl, rfl, rfl, rfl⟩, Camera.Sound.consumed⟩

end View

end DebugDesk
