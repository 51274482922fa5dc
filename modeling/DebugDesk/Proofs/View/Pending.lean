import DebugDesk.Proofs.Camera.Moving
import DebugDesk.Proofs.View.Moves

/-!
# Recentering that has to wait

A view that is asked to recenter before there is a layout does so in the frame that makes one, and
in no other. Until then it is no different from a view that was not asked. So afterwards its camera
is where that of the other would be after recentering.
-/
namespace DebugDesk

namespace Camera

variable {α : Type} {c d e : Camera α}

/-- Two cameras show the same place at the same zoom. -/
structure SameView (c d : Camera α) : Prop extends c.Stays d where
  zoom : d.zoom = c.zoom

theorem SameView.refl (c : Camera α) : c.SameView c := ⟨.refl, rfl⟩

theorem SameView.trans (h : c.SameView d) (h' : d.SameView e) : c.SameView e :=
  ⟨h.toStays.trans h'.toStays, h'.zoom.trans h.zoom⟩

theorem SameView.symm (h : c.SameView d) : d.SameView c :=
  ⟨⟨h.width.symm, h.height.symm, h.x.symm, h.y.symm⟩, h.zoom.symm⟩

variable [Scalar α]

theorem recenter_cases (c : Camera α) (p : Point α) :
    c.recenter p = c ∨
      c.recenter p =
        { c with x := c.width / 2.0 - p.x, y := c.height / 2.0 - p.y, dirty := true } := by
  unfold recenter setPosition
  split
  · exact .inl rfl
  · exact .inr rfl

theorem SameView.recenter (h : c.SameView d) (p : Point α) :
    (c.recenter p).SameView (d.recenter p) := by
  unfold Camera.recenter setPosition
  rw [h.width, h.height, h.x, h.y]
  split
  · exact h
  · exact ⟨⟨rfl, rfl, rfl, rfl⟩, h.zoom⟩

/-- To recenter again changes nothing. -/
theorem sameView_recenter (c : Camera α) (p : Point α) :
    ((c.recenter p).recenter p).SameView (c.recenter p) := by
  rcases c.recenter_cases p with h | h
  · rw [h, h]
    exact .refl c
  · generalize hd : c.recenter p = d at h
    rcases d.recenter_cases p with h' | h'
    · rw [h']
      exact .refl d
    · rw [h', h]
      exact ⟨⟨rfl, rfl, rfl, rfl⟩, rfl⟩

theorem recenter_scale (c : Camera α) (p : Point α) :
    (c.recenter p).height = c.height ∧ (c.recenter p).zoom = c.zoom := by
  rcases c.recenter_cases p with h | h
  · rw [h]
    exact ⟨rfl, rfl⟩
  · rw [h]
    exact ⟨rfl, rfl⟩

end Camera

namespace Graph

def rootId? (g : Graph) : Option Int := g.root?.map fun i => g.idOf (.inside i)

theorem rootId?_congr {g h : Graph} (hids : h.vertices.map Vertex.id = g.vertices.map Vertex.id)
    (hroot : h.rootSet = g.rootSet) : h.rootId? = g.rootId? := by
  have hempty : h.vertices.isEmpty = g.vertices.isEmpty := by
    rw [← List.isEmpty_map (f := Vertex.id) (l := h.vertices), hids, List.isEmpty_map]
  simp only [rootId?, root?, hroot, hempty, idOf_congr hids]

/-- A numbered graph that is spared keeps its size and its root. -/
theorem Turns.steady {g h : Graph} (ht : Turns True g h) (hg : g.Numbered) :
    h.Numbered ∧ h.size = g.size ∧ h.rootId? = g.rootId? := by
  cases ht with
  | same => exact ⟨hg, rfl, rfl⟩
  | made provider bare =>
    subst bare
    exact ⟨rfl, rfl, rfl⟩
  | grown free => exact absurd trivial free
  | rooted root free => exact absurd trivial free
  | linked source target =>
    unfold GraphChange.apply
    dsimp only
    split
    · exact ⟨hg, rfl, rfl⟩
    · exact ⟨hg, rfl, rfl⟩
  | numbered =>
    rw [updateIdentifiers_eq_self hg]
    exact ⟨hg, rfl, rfl⟩
  | selected choice =>
    refine ⟨?_, size_select g choice, rootId?_congr (ids_select g choice) rfl⟩
    rw [Numbered, ids_select, size_select]
    exact hg

end Graph

namespace View

section

variable {α : Type} [Scalar α] {v w u : View α} {gs hs : GraphStore} {g : Graph} {l : Layout α}
  {ref : Nat} {engine : LayoutEngine α} {measure : Measure Id α}

/-- Where recentering goes hangs on the root, and on the height and the zoom of the camera. -/
theorem centerOf_congr (hheight : w.camera.height = v.camera.height)
    (hzoom : w.camera.zoom = v.camera.zoom) {g h : Option Graph}
    (hroot : h.bind Graph.rootId? = g.bind Graph.rootId?) (l : Layout α) :
    w.centerOf h l = v.centerOf g l := by
  have hbox (g : Option Graph) :
      (g.bind fun g => g.root?.bind fun i => l.box? (g.idOf (.inside i))) =
      (g.bind Graph.rootId?).bind l.box? := by
    rcases g with _ | g
    · rfl
    · simp only [Option.bind_some, Graph.rootId?, Option.bind_map, Function.comp_def]
  simp only [centerOf, hbox, hroot, hheight, hzoom]

structure Lingers (v w : View α) : Prop extends v.Alike w where
  camera : v.camera.SameView w.camera
  pending : w.recenterPending = v.recenterPending

omit [Scalar α] in
theorem Lingers.refl (v : View α) : v.Lingers v := ⟨.refl v, .refl v.camera, rfl⟩

/-- Recentering brings the camera where it would have brought it before. -/
theorem Lingers.recenter (h : v.Lingers w)
    (hroot : (w.shown? hs).bind Graph.rootId? = (v.shown? gs).bind Graph.rootId?)
    (hu : v.recenter gs = .ok u) :
    ∃ x, w.recenter hs = .ok x ∧ u.camera.SameView x.camera := by
  rcases Option.eq_none_or_eq_some v.layout with hl | ⟨l, hl⟩
  · rw [recenter_of_none hl] at hu
    cases hu
    exact ⟨_, recenter_of_none (h.layout.trans hl) hs, h.camera⟩
  · simp only [View.recenter, hl] at hu
    obtain ⟨p, hp, hu⟩ := Effect.bind_eq_ok hu
    cases hu
    refine ⟨_, recenter_eq (h.layout.trans hl) (p := p) ?_, h.camera.recenter p⟩
    rw [← hp]
    exact centerOf_congr h.camera.height h.camera.zoom hroot l

theorem lingers_afterwards (prepared : Except Fault Bool × View α) :
    prepared.2.Lingers (afterwards prepared) := by
  rcases prepared with ⟨fault | answer, w⟩
  · exact .refl w
  dsimp only [afterwards]
  split
  · exact .refl w
  split
  · exact ⟨⟨rfl, rfl, rfl, rfl, rfl, rfl, rfl⟩, ⟨⟨rfl, rfl, rfl, rfl⟩, rfl⟩, rfl⟩
  · exact ⟨⟨rfl, rfl, rfl, rfl, rfl, rfl, rfl⟩, ⟨⟨rfl, rfl, rfl, rfl⟩, rfl⟩, rfl⟩

theorem draw_unasked (h : v.recenterPending = false) :
    let w := (Effect.outcome (draw measure gs g l) v).2
    w.camera = v.camera ∧ w.recenterPending = false := by
  rcases hp : placements g l with fault | placed
  · rw [outcome_draw_unplaced hp]
    exact ⟨rfl, h⟩
  rcases he : edgePlacements g (drawn measure v placed) with fault | ends
  · rw [outcome_draw_error hp he]
    exact ⟨rfl, h⟩
  · rw [outcome_draw_ok hp he]
    dsimp only
    rw [if_neg (by simp [h])]
    exact ⟨rfl, h⟩

/-- A frame moves the camera only of a view that was asked to recenter. -/
theorem preprocess_unasked (engine : LayoutEngine α) (measure : Measure Id α) (gs : GraphStore)
    (h : v.recenterPending = false) :
    let w := (Effect.outcome (preprocess engine measure gs) v).2
    w.camera = v.camera ∧ w.recenterPending = false := by
  rcases Option.eq_none_or_eq_some v.graph with hg | ⟨ref, hg⟩
  · rw [outcome_preprocess_of_none hg]
    exact ⟨rfl, h⟩
  rcases Bool.eq_false_or_eq_true (v.settled ref (gs.graph ref).size) with hs | hs
  · rw [outcome_preprocess_of_settled hg hs]
    exact ⟨rfl, h⟩
  rcases Bool.eq_false_or_eq_true (gs.graph ref).verifyIntegrity with hi | hi
  case inr =>
    rw [outcome_preprocess_of_unnumbered hg hs hi]
    exact ⟨rfl, h⟩
  rcases Option.eq_none_or_eq_some (v.cache.lookup? ref (gs.graph ref).size) with hk | ⟨l, hk⟩
  case inr =>
    rw [outcome_preprocess_of_known hg hs hi hk]
    exact draw_unasked (v := { v with preprocessed := false }) h
  rcases hl : v.laidOut engine measure (gs.graph ref) with ⟨fault | l, boxes⟩
  · rw [outcome_preprocess_of_failed hg hs hi hk hl]
    exact ⟨rfl, h⟩
  · rw [outcome_preprocess_of_laid hg hs hi hk hl]
    exact draw_unasked (v := { v with
      preprocessed := false, boxes, cache := ⟨some (ref, (gs.graph ref).size, l)⟩ }) h

theorem pending_selectAt (v : View α) (gs : GraphStore) (p : Point α) :
    (v.selectAt gs p).view.recenterPending = v.recenterPending := by
  unfold selectAt
  split <;> rfl

omit [Scalar α] in
theorem pending_setGraph (v : View α) (gs : GraphStore) (graph : Option Nat) :
    (v.setGraph gs graph).1.recenterPending = v.recenterPending := by
  unfold setGraph
  split <;> rfl

theorem Release.pending {p : Point α} {time : α} {c : Clicked α} (h : Release v gs p time c) :
    c.view.recenterPending = v.recenterPending := by
  cases h with
  | click => exact pending_selectAt v.released gs p
  | _ => rfl

def asking (v : View α) : View α := { v with recenterPending := true }

theorem afterwards_asking (prepared : Except Fault Bool × View α) :
    afterwards (prepared.1, prepared.2.asking) = (afterwards prepared).asking := by
  rcases prepared with ⟨fault | answer, w⟩
  · rfl
  change (if w.suppressed then w.asking
    else if w.needsRender || w.camera.dirty then w.asking.repainted else w.asking.rested) =
      asking (if w.suppressed then w
        else if w.needsRender || w.camera.dirty then w.repainted else w.rested)
  split
  · rfl
  split <;> rfl

/-- A view in which a graph is laid out, whole. -/
structure Drawn (v : View α) (gs : GraphStore) (ref : Nat) : Prop where
  graph : v.graph = some ref
  preprocessed : v.preprocessed = true
  valid : v.cache.validFor ref (gs.graph ref).size = true
  numbered : (gs.graph ref).Numbered

omit [Scalar α] in
theorem Drawn.of_alike (h : v.Drawn gs ref) (ha : v.Alike w) (hn : (hs.graph ref).Numbered)
    (hsize : (hs.graph ref).size = (gs.graph ref).size) : w.Drawn hs ref :=
  ⟨ha.graph.trans h.graph, ha.preprocessed.trans h.preprocessed, by
    rw [ha.cache, hsize]
    exact h.valid, hn⟩

/-- The camera of the second view is where that of the first would be after recentering. -/
structure Caught (v w : View α) (gs : GraphStore) : Prop extends v.Alike w where
  done : w.recenterPending = false
  place : ∃ u, v.recenter gs = .ok u ∧ u.camera.SameView w.camera

theorem Caught.of_lingers {v' w' : View α} (h : v.Caught w gs) (hv : v.Lingers v')
    (hw : w.Lingers w')
    (hroot : (v'.shown? hs).bind Graph.rootId? = (v.shown? gs).bind Graph.rootId?) :
    v'.Caught w' hs := by
  obtain ⟨u, hu, hplace⟩ := h.place
  obtain ⟨x, hx, hcamera⟩ := hv.recenter hroot hu
  refine ⟨?_, hw.pending.trans h.done, x, hx, hcamera.symm.trans (hplace.trans hw.camera)⟩
  have hback : v'.Alike v := ⟨hv.graph.symm, hv.layout.symm, hv.error.symm, hv.cache.symm,
    hv.failed.symm, hv.preprocessed.symm, hv.boxes.symm⟩
  exact hback.trans (h.toAlike.trans hw.toAlike)

/-- To draw a layout is what recenters a view that was asked. -/
theorem draw_asking (measure : Measure Id α) (gs : GraphStore) (g : Graph) (l : Layout α)
    (hc : v.camera.Sound) (hearly : v.preprocessed = false) :
    let o := Effect.outcome (draw measure gs g l) v
    let o' := Effect.outcome (draw measure gs g l) v.asking
    (o.2.graph = v.graph ∧ o.2.cache = v.cache) ∧
      (o.2.preprocessed = false ∧ o' = (o.1, o.2.asking) ∨
        o.2.preprocessed = true ∧ o.2.Caught o'.2 gs) := by
  rcases hp : placements g l with fault | placed
  · rw [outcome_draw_unplaced hp, outcome_draw_unplaced hp]
    exact ⟨⟨rfl, rfl⟩, .inl ⟨hearly, rfl⟩⟩
  rcases he : edgePlacements g (drawn measure v placed) with fault | ends
  · rw [outcome_draw_error hp he, outcome_draw_error (v := v.asking) hp he]
    exact ⟨⟨rfl, rfl⟩, .inl ⟨hearly, rfl⟩⟩
  let u : View α := ({ v with layout := some l, boxes := drawn measure v placed } : View α).shown
    (.ofPlacements ends)
  let d : View α := { u with recenterPending := false }
  obtain ⟨p, hcenter⟩ := centerOf_ok (v := u) hc (u.shown? gs) l
  have hasked : Effect.outcome (draw measure gs g l) v.asking =
      (.ok (), { d with camera := d.camera.recenter p }) :=
    outcome_draw_pending (v := v.asking) hp he rfl rfl hcenter
  rw [hasked]
  by_cases hpending : v.recenterPending = true
  · have hdrawn : Effect.outcome (draw measure gs g l) v =
        (.ok (), { d with camera := d.camera.recenter p }) :=
      outcome_draw_pending hp he hpending rfl hcenter
    rw [hdrawn]
    obtain ⟨hheight, hzoom⟩ := d.camera.recenter_scale p
    have hagain : ({ d with camera := d.camera.recenter p } : View α).centerOf (d.shown? gs) l =
        .ok p := (centerOf_congr (v := d) hheight hzoom rfl l).trans hcenter
    exact ⟨⟨rfl, rfl⟩, .inr ⟨rfl, .refl _, rfl, _, recenter_eq rfl hagain,
      d.camera.sameView_recenter p⟩⟩
  · have hdrawn : Effect.outcome (draw measure gs g l) v = (.ok (), u) := by
      rw [outcome_draw_ok hp he]
      dsimp only
      rw [if_neg hpending]
    rw [hdrawn]
    exact ⟨⟨rfl, rfl⟩, .inr ⟨rfl, ⟨rfl, rfl, rfl, rfl, rfl, rfl, rfl⟩, rfl, _,
      recenter_eq rfl hcenter, .refl _⟩⟩

theorem drawn_asking (measure : Measure Id α) (l : Layout α) (hnumbered : (gs.graph ref).Numbered)
    (hg : v.graph = some ref) (hearly : v.preprocessed = false) (hc : v.camera.Sound)
    (hvalid : v.cache.validFor ref (gs.graph ref).size = true) :
    let o := Effect.outcome (draw measure gs (gs.graph ref) l) v
    let o' := Effect.outcome (draw measure gs (gs.graph ref) l) v.asking
    o.2.graph = some ref ∧
      (o.2.preprocessed = false ∧ (o'.1.map fun _ => true, o'.2) =
          (o.1.map fun _ => true, o.2.asking) ∨
        o.2.Drawn gs ref ∧ o.2.Caught o'.2 gs) := by
  obtain ⟨⟨hgraph, hcache⟩, hcases⟩ := draw_asking measure gs (gs.graph ref) l hc hearly
  refine ⟨hgraph.trans hg, hcases.imp ?_ ?_⟩
  · rintro ⟨hstill, heq⟩
    exact ⟨hstill, by rw [heq]⟩
  · rintro ⟨hlate, hcaught⟩
    exact ⟨⟨hgraph.trans hg, hlate, hcache ▸ hvalid, hnumbered⟩, hcaught⟩

/-- A frame leaves the view that was asked to recenter as it leaves the other, until it lays the
graph out. -/
theorem preprocess_asking (engine : LayoutEngine α) (measure : Measure Id α)
    (hb : (gs.graph ref).Built) (hc : v.camera.Sound)
    (hg : v.graph = some ref) (hearly : v.preprocessed = false) :
    let o := Effect.outcome (preprocess engine measure gs) v
    let o' := Effect.outcome (preprocess engine measure gs) v.asking
    o.2.graph = some ref ∧ (o.2.preprocessed = false ∧ o' = (o.1, o.2.asking) ∨
      o.2.Drawn gs ref ∧ o.2.Caught o'.2 gs) := by
  rcases Bool.eq_false_or_eq_true (v.settled ref (gs.graph ref).size) with hs | hs
  · rw [outcome_preprocess_of_settled hg hs, outcome_preprocess_of_settled (v := v.asking) hg hs]
    exact ⟨hg, .inl ⟨hearly, rfl⟩⟩
  rcases Bool.eq_false_or_eq_true (gs.graph ref).verifyIntegrity with hi | hi
  case inr =>
    rw [outcome_preprocess_of_unnumbered hg hs hi,
      outcome_preprocess_of_unnumbered (v := v.asking) hg hs hi]
    exact ⟨hg, .inl ⟨rfl, rfl⟩⟩
  have hnumbered : (gs.graph ref).Numbered := hb.ids_of_verifyIntegrity hi
  rcases Option.eq_none_or_eq_some (v.cache.lookup? ref (gs.graph ref).size) with hk | ⟨l, hk⟩
  case inr =>
    rw [outcome_preprocess_of_known hg hs hi hk,
      outcome_preprocess_of_known (v := v.asking) hg hs hi hk]
    exact drawn_asking (v := { v with preprocessed := false }) measure l hnumbered hg rfl hc
      (by simp [LayoutCache.validFor, hk])
  rcases hl : v.laidOut engine measure (gs.graph ref) with ⟨fault | l, boxes⟩
  · rw [outcome_preprocess_of_failed hg hs hi hk hl,
      outcome_preprocess_of_failed (v := v.asking) hg hs hi hk hl]
    exact ⟨hg, .inl ⟨rfl, rfl⟩⟩
  · rw [outcome_preprocess_of_laid hg hs hi hk hl,
      outcome_preprocess_of_laid (v := v.asking) hg hs hi hk hl]
    exact drawn_asking (v := { v with
      preprocessed := false, boxes, cache := ⟨some (ref, (gs.graph ref).size, l)⟩ }) measure l
      hnumbered hg rfl hc (by simp [LayoutCache.validFor, LayoutCache.lookup?])

end

namespace Move

variable {α : Type}

/-- Whether a move neither calls the camera nor shows another graph. -/
def Calm : Move α → Prop
  | .deed (.happens (.gesture (.setSuppressed _))) => True
  | .deed (.happens (.setGraph _)) | .deed (.happens (.gesture _)) => False
  | _ => True

def ask : Move α := .deed (.happens (.gesture .recenter))

variable [Scalar α]

/-- What a calm move makes of a view. -/
def onView (gs : GraphStore) (v : View α) : Move α → View α
  | .deed (.happens (.update engine measure)) =>
    afterwards (Effect.outcome (View.preprocess engine measure gs) v)
  | .deed (.preprocess engine measure) => (Effect.outcome (View.preprocess engine measure gs) v).2
  | .deed (.render _) => { v with edges := v.routed }
  | .deed (.happens (.gesture (.setSuppressed suppressed))) => v.setSuppressed suppressed
  | _ => v

/-- What a calm move makes of the graphs. -/
def onGraphs (gs : GraphStore) : Move α → GraphStore
  | .deed (.happens (.create provider)) => gs.push (.empty provider)
  | .deed (.happens (.alter ref change)) => gs.change ref change.apply
  | .deed (.select ref choice) => gs.put ref ((gs.graph ref).select choice).1
  | .root ref vertex => gs.change ref (·.rooted vertex)
  | _ => gs

variable {v w : View α} {gs : GraphStore} {ref : Nat}

theorem lingers_onView (gs : GraphStore) (v : View α) {move : Move α} (h : ¬move.Frames) :
    v.Lingers (move.onView gs v) := by
  rcases move with ((_ | _ | _ | (_ | _ | _ | _ | _ | _ | _ | _ | _) | _) | _ | _ | _) | _
  case deed.happens.update => exact absurd trivial h
  case deed.preprocess => exact absurd trivial h
  all_goals exact ⟨⟨rfl, rfl, rfl, rfl, rfl, rfl, rfl⟩, .refl _, rfl⟩

omit [Scalar α] in
theorem onGraphs_frames (gs : GraphStore) {move : Move α} (h : move.Frames) :
    move.onGraphs gs = gs := by
  rcases move with ((_ | _ | _ | _ | _) | _ | _ | _) | _
  case deed.happens.update | deed.preprocess => rfl
  all_goals exact h.elim

theorem onView_asking (gs : GraphStore) (v : View α) {move : Move α} (h : ¬move.Frames) :
    move.onView gs v.asking = (move.onView gs v).asking := by
  rcases move with ((_ | _ | _ | (_ | _ | _ | _ | _ | _ | _ | _ | _) | _) | _ | _ | _) | _
  case deed.happens.update => exact absurd trivial h
  case deed.preprocess => exact absurd trivial h
  all_goals rfl

/-- A frame leaves the view that was asked to recenter as it leaves the other, until it lays the
graph out. -/
theorem onView_frames (hb : (gs.graph ref).Built) (hc : v.camera.Sound) (hg : v.graph = some ref)
    (hearly : v.preprocessed = false) {move : Move α} (h : move.Frames) :
    let x := move.onView gs v
    let y := move.onView gs v.asking
    x.graph = some ref ∧
      (x.preprocessed = false ∧ y = x.asking ∨ x.Drawn gs ref ∧ x.Caught y gs) := by
  rcases move with ((_ | _ | _ | _ | ⟨engine, measure⟩) | ⟨engine, measure⟩ | _ | _) | _
  case deed.happens.update =>
    obtain ⟨hgraph, hcases⟩ :=
      preprocess_asking engine measure hb hc hg hearly
    simp only [onView]
    generalize Effect.outcome (View.preprocess engine measure gs) v = o at hgraph hcases
    generalize Effect.outcome (View.preprocess engine measure gs) v.asking = o' at hcases
    have ho := lingers_afterwards o
    refine ⟨ho.graph.trans hgraph, hcases.imp ?_ ?_⟩
    · rintro ⟨hstill, rfl⟩
      exact ⟨ho.preprocessed.trans hstill, afterwards_asking o⟩
    · rintro ⟨hdrawn, hcaught⟩
      refine ⟨hdrawn.of_alike ho.toAlike hdrawn.numbered rfl,
        hcaught.of_lingers ho (lingers_afterwards o') ?_⟩
      rw [shown?, shown?, ho.graph]
  case deed.preprocess =>
    obtain ⟨hgraph, hcases⟩ :=
      preprocess_asking engine measure hb hc hg hearly
    refine ⟨hgraph, hcases.imp_left ?_⟩
    rintro ⟨hstill, heq⟩
    exact ⟨hstill, congrArg Prod.snd heq⟩
  all_goals exact h.elim

/-- A frame leaves a view alone in which all is laid out. -/
theorem lingers_onView_of_drawn (h : v.Drawn gs ref) (ha : v.Alike w) (move : Move α) :
    w.Lingers (move.onView gs w) := by
  by_cases hframes : move.Frames
  case neg => exact lingers_onView gs w hframes
  have hs : w.settled ref (gs.graph ref).size = true := by
    simp [settled, ha.preprocessed, ha.cache, h.preprocessed, h.valid]
  have hg : w.graph = some ref := ha.graph.trans h.graph
  rcases move with ((_ | _ | _ | _ | ⟨engine, measure⟩) | ⟨engine, measure⟩ | _ | _) | _
  case deed.happens.update =>
    change w.Lingers (afterwards _)
    rw [outcome_preprocess_of_settled hg hs]
    exact lingers_afterwards (.ok false, w)
  case deed.preprocess =>
    change w.Lingers (Effect.outcome (View.preprocess engine measure gs) w).2
    rw [outcome_preprocess_of_settled hg hs]
    exact .refl w
  all_goals exact hframes.elim

end Move

namespace Ledger

variable {α : Type} [RootScalar α] {s t : Ledger α} {ref : Nat}

theorem go_calm (s : Ledger α) {move : Move α} (h : move.Calm) :
    (s.go move).view = move.onView s.graphs s.view ∧
      (s.go move).graphs = move.onGraphs s.graphs := by
  rcases move with ((_ | _ | _ | (_ | _ | _ | _ | _ | _ | _ | _ | _) | ⟨engine, measure⟩) |
    ⟨engine, measure⟩ | measure | _) | _
  case deed.happens.update => exact ⟨s.view_step_update engine measure, rfl⟩
  case deed.preprocess => exact ⟨s.view_step_preprocess engine measure, rfl⟩
  case deed.render => exact ⟨congrArg Prod.snd (render_eq measure s.graphs s.view), rfl⟩
  all_goals first | exact ⟨rfl, rfl⟩ | exact h.elim

/-- Whether moves leave the camera to the frames: none of them calls it or shows another graph, and
once the graph is laid out it gets no vertex and no other root. -/
def Undisturbed (ref : Nat) : Ledger α → List (Move α) → Prop
  | _, [] => True
  | s, move :: moves => move.Calm ∧ (s.view.preprocessed = true → move.Spares ref) ∧
    (s.go move).Undisturbed ref moves

/-- Two ledgers of which only the second was asked to recenter. -/
structure Paired (ref : Nat) (s t : Ledger α) : Prop where
  kept : s.Kept
  graphs : t.graphs = s.graphs
  graph : s.view.graph = some ref
  views : s.view.preprocessed = false ∧ t.view = s.view.asking ∨
    s.view.Drawn s.graphs ref ∧ s.view.Caught t.view s.graphs

theorem Paired.go (h : s.Paired ref t) {move : Move α} (hcalm : move.Calm)
    (hspares : s.view.preprocessed = true → move.Spares ref) :
    (s.go move).Paired ref (t.go move) := by
  obtain ⟨hview, hgraphs⟩ := s.go_calm hcalm
  obtain ⟨hview', hgraphs'⟩ := t.go_calm hcalm
  obtain ⟨attempt, hcoherent⟩ := h.kept.coherent
  rw [h.graphs] at hview' hgraphs'
  rcases h.views with ⟨hearly, hasked⟩ | ⟨hdrawn, hcaught⟩
  · rw [hasked] at hview'
    by_cases hframes : move.Frames
    · obtain ⟨hgraph, hviews⟩ := Move.onView_frames (hcoherent.built ref) hcoherent.camera h.graph
        hearly hframes
      have hstays : (s.go move).graphs = s.graphs := hgraphs.trans (Move.onGraphs_frames _ hframes)
      refine ⟨h.kept.go move, hgraphs'.trans hgraphs.symm, hview ▸ hgraph, ?_⟩
      rw [hview, hview', hstays]
      exact hviews
    · have hlingers := Move.lingers_onView s.graphs s.view hframes
      refine ⟨h.kept.go move, hgraphs'.trans hgraphs.symm, ?_, .inl ⟨?_, ?_⟩⟩
      · rw [hview]
        exact hlingers.graph.trans h.graph
      · rw [hview]
        exact hlingers.preprocessed.trans hearly
      · rw [hview, hview']
        exact Move.onView_asking s.graphs s.view hframes
  · have hturns := s.turns_go move ref
    rw [eq_true (hspares hdrawn.preprocessed)] at hturns
    obtain ⟨hnumbered, hsize, hroot⟩ := hturns.steady hdrawn.numbered
    have hlingers := Move.lingers_onView_of_drawn hdrawn (.refl s.view) move
    have hlingers' := Move.lingers_onView_of_drawn hdrawn hcaught.toAlike move
    rw [← hview] at hlingers
    rw [← hview'] at hlingers'
    have hgraph := hlingers.graph.trans h.graph
    refine ⟨h.kept.go move, hgraphs'.trans hgraphs.symm, hgraph,
      .inr ⟨hdrawn.of_alike hlingers.toAlike hnumbered hsize,
        hcaught.of_lingers hlingers hlingers' ?_⟩⟩
    rw [shown?, shown?, hgraph, h.graph]
    exact hroot

theorem Paired.goAll (h : s.Paired ref t) {moves : List (Move α)}
    (hm : s.Undisturbed ref moves) : (s.goAll moves).Paired ref (t.goAll moves) := by
  induction moves generalizing s t with
  | nil => exact h
  | cons move moves ih => exact ih (h.go hm.1 hm.2.1) hm.2.2

theorem pending_gesture {v w : View α} {gs hs : GraphStore} {gesture : Gesture α}
    (h : gesture.apply v gs = .ok (w, hs)) (hother : gesture ≠ .recenter) :
    w.recenterPending = v.recenterPending := by
  cases gesture with
  | pointerUp p time =>
    cases h
    exact (v.release gs p time).pending
  | recenter => exact absurd rfl hother
  | selectAt p =>
    cases h
    exact pending_selectAt v gs p
  | wheel delta | setSuppressed suppressed =>
    cases h
    rfl
  | pointerDown p =>
    obtain ⟨u, hu, h⟩ := Effect.bind_eq_ok h
    obtain ⟨c, -, hu⟩ := Effect.bind_eq_ok hu
    cases h
    cases hu
    rfl
  | pointerMove p =>
    obtain ⟨u, hu, h⟩ := Effect.bind_eq_ok h
    cases h
    unfold pointerMove at hu
    split at hu
    · cases hu
      rfl
    dsimp only at hu
    split at hu
    · obtain ⟨⟨moved, c⟩, -, hu⟩ := Effect.bind_eq_ok hu
      cases hu
      rfl
    · cases hu
      rfl
  | zoomToFit =>
    obtain ⟨u, hu, h⟩ := Effect.bind_eq_ok h
    cases h
    unfold zoomToFit at hu
    split at hu
    · cases hu
      rfl
    · obtain ⟨c, -, hu⟩ := Effect.bind_eq_ok hu
      cases hu
      rfl
  | camera call =>
    obtain ⟨c, -, h⟩ := Effect.bind_eq_ok h
    cases h
    rfl

/-- What makes a frame of a view that was not asked to recenter does not. -/
theorem unasked_frames (h : s.view.recenterPending = false) {move : Move α}
    (hframes : move.Frames) :
    s.view.camera.SameView (s.go move).view.camera ∧ (s.go move).view.recenterPending = false := by
  rcases move with ((_ | _ | _ | _ | ⟨engine, measure⟩) | ⟨engine, measure⟩ | _ | _) | _
  case deed.happens.update =>
    obtain ⟨hcamera, hpending⟩ := preprocess_unasked engine measure s.graphs h
    have hafter := lingers_afterwards
      (Effect.outcome (View.preprocess engine measure s.graphs) s.view)
    rw [go, view_step_update]
    exact ⟨hcamera ▸ hafter.camera, hafter.pending.trans hpending⟩
  case deed.preprocess =>
    obtain ⟨hcamera, hpending⟩ := preprocess_unasked engine measure s.graphs h
    rw [go, view_step_preprocess, hcamera]
    exact ⟨.refl _, hpending⟩
  all_goals exact hframes.elim

/-- A view is asked to recenter by being asked. -/
theorem unasked_go (h : s.view.recenterPending = false) {move : Move α} (hother : move ≠ .ask) :
    (s.go move).view.recenterPending = false := by
  by_cases hframes : move.Frames
  · exact (unasked_frames h hframes).2
  by_cases hcalm : move.Calm
  · rw [(s.go_calm hcalm).1]
    exact (Move.lingers_onView s.graphs s.view hframes).pending.trans h
  rcases move with ((_ | _ | graph | gesture | _) | _ | _ | _) | _
  case deed.happens.setGraph =>
    change ((s.stage none).step (.setGraph graph)).view.recenterPending = false
    unfold Stage.step
    dsimp only
    split
    · exact (pending_setGraph s.view s.graphs graph).trans h
    · exact h
  case deed.happens.gesture =>
    rcases hg : gesture.apply s.view s.graphs with fault | ⟨w, hs⟩
    · rw [go, step_gesture_error hg]
      exact h
    · rw [go, step_gesture hg]
      refine (pending_gesture hg ?_).trans h
      rintro rfl
      exact hother rfl
  all_goals exact absurd trivial hcalm

theorem unasked_goAll (h : s.view.recenterPending = false) {moves : List (Move α)}
    (hothers : ∀ move ∈ moves, move ≠ .ask) : (s.goAll moves).view.recenterPending = false := by
  induction moves generalizing s with
  | nil => exact h
  | cons move moves ih =>
    obtain ⟨hother, hothers⟩ := List.forall_mem_cons.mp hothers
    exact ih (unasked_go h hother) hothers

/-- A view that shows a graph without a layout is asked to recenter, and the graph is laid out in
the end, however many frames fail before. Then its camera shows what it would show if the view had
not been asked before, but is told to recenter now; and no later frame moves it. -/
theorem Reached.recenters_once (h : s.Reached) (hgraph : s.view.graph = some ref)
    (hlayout : s.view.layout = none) {moves : List (Move α)} (hm : s.Undisturbed ref moves)
    (hlaid : (s.goAll moves).view.preprocessed = true) :
    let asked := (s.go .ask).goAll moves
    let other := s.goAll moves
    (∃ u, other.view.recenter other.graphs = .ok u ∧ u.camera.SameView asked.view.camera) ∧
      ∀ (later : List (Move α)) (frame : Move α), (∀ move ∈ later, move ≠ .ask) →
        frame.Frames →
        (asked.goAll later).view.camera.SameView ((asked.goAll later).go frame).view.camera := by
  intro asked other
  obtain ⟨attempt, hcoherent⟩ := h.kept.coherent
  have hearly : s.view.preprocessed = false := by
    cases hcoherent.phase with
    | fresh _ _ _ _ preprocessed => exact preprocessed
    | stuck ref l _ _ _ layout => cases hlayout.symm.trans layout
    | failing _ _ _ _ _ _ _ preprocessed => exact preprocessed
    | drawn ref n l _ _ _ _ layout => cases hlayout.symm.trans layout
  have hasks : s.view.recenter s.graphs = .ok s.view.asking := by
    have hshown : s.view.graph.isSome = true := by simp [hgraph]
    rw [recenter_of_none hlayout, hshown]
    rfl
  have hasked : s.go .ask = s.moved s.view.asking s.graphs := by
    refine step_gesture ?_
    simp only [Gesture.apply, hasks]
    rfl
  have hpaired : s.Paired ref (s.go .ask) := by
    rw [hasked]
    exact ⟨h.kept, rfl, hgraph, .inl ⟨hearly, rfl⟩⟩
  rcases (hpaired.goAll hm).views with ⟨hstill, -⟩ | ⟨-, hcaught⟩
  · cases hstill.symm.trans hlaid
  · exact ⟨hcaught.place, fun later frame hothers hframes =>
      (unasked_frames (unasked_goAll hcaught.done hothers) hframes).1⟩

def expectant : Ledger Float :=
  (start Stage.opened .standard standardDragThreshold standardClickSuppression).goAll
    [.deed (.happens (.create .nothing)), .deed (.happens (.setGraph (some 0)))]

/-- The graph gets a vertex, and a frame fails while it has no identifier. -/
def detour : List (Move Float) :=
  [.deed (.happens (.alter 0 .addVertex)),
    .deed (.happens (.update Stage.piling RecordingSurface.measure)),
    .deed (.happens (.alter 0 .updateIdentifiers)),
    .deed (.happens (.update Stage.piling RecordingSurface.measure))]

theorem expectant_recenters_once :
    expectant.Reached ∧ expectant.view.layout = none ∧ expectant.Undisturbed 0 detour ∧
      (expectant.goAll (detour.take 2)).view.error.isSome = true ∧
      (expectant.goAll detour).view.preprocessed = true ∧
      ∃ u, (expectant.goAll detour).view.recenter (expectant.goAll detour).graphs = .ok u ∧
        u.camera.SameView ((expectant.go .ask).goAll detour).view.camera := by
  have hreached : expectant.Reached :=
    (Reached.start (Camera.sound_of_make Stage.make_opened) .standard standardDragThreshold
      standardClickSuppression).goAll _
  have hearly : expectant.view.preprocessed = false := rfl
  have hcalm : expectant.Undisturbed 0 detour :=
    ⟨trivial, fun hlate => absurd (hearly.symm.trans hlate) Bool.false_ne_true, trivial,
      fun _ => trivial, trivial, fun _ => trivial, trivial, fun _ => trivial, trivial⟩
  have hlaid : (expectant.goAll detour).view.preprocessed = true := by
    let s := expectant.goAll (detour.take 3)
    have hgraph : s.view.graph = some 0 := rfl
    obtain ⟨l, hl⟩ : ∃ l, (s.view.laidOut Stage.piling RecordingSurface.measure
        (s.graphs.graph 0)).1 = .ok l :=
      ⟨_, Layout.ofGraph_alone (x := ⟨0, [], false⟩) (by decide) .nothing rfl⟩
    obtain ⟨hlayout, hgraph', -⟩ := preprocess_shown hgraph rfl rfl rfl hl
    have hview := s.view_step_update Stage.piling RecordingSurface.measure
    have hafter := lingers_afterwards
      (Effect.outcome (View.preprocess Stage.piling RecordingSurface.measure s.graphs) s.view)
    rw [← hview] at hafter
    exact (hreached.goAll detour).kept.preprocessed (hafter.graph.trans hgraph')
      (hafter.layout.trans hlayout) rfl
  exact ⟨hreached, rfl, hcalm, rfl, hlaid, (hreached.recenters_once rfl rfl hcalm hlaid).1⟩

end Ledger

end View

end DebugDesk
