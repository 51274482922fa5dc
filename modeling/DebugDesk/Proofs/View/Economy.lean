import DebugDesk.Proofs.View.Ledgers

/-!
# Economy of layouts

A graph is laid out once while it is shown, and once again each time that it has got more vertices;
whatever came of that is shown until then. While vertices have no identifier, nothing is laid out.
-/
namespace DebugDesk

namespace View

theorem Grows.trans {g h k : Graph} (hgh : Grows g h) (hhk : Grows h k) : Grows g k := by
  have hgrows := hgh.size
  have hmore := hhk.size
  exact ⟨Nat.le_trans hgrows hmore,
    fun he hi => hhk.numbered (by omega) (hgh.numbered (by omega) hi),
    fun he => hhk.edges (hgh.edges he)⟩

/-- Whether a deed leaves alone which graph is shown, and the vertices and edges of all graphs. -/
def Deed.Idle {α : Type} : Deed α → Prop
  | .happens (.create _) | .happens (.alter ..) | .happens (.setGraph _) => False
  | _ => True

namespace Ledger

variable {α : Type} [RootScalar α] {s t u : Ledger α} {ref : Nat}

/-- What a deed that is no frame does: the view makes nothing new, or begins with another graph. -/
structure Quiet (s t : Ledger α) : Prop where
  moved : t = s.moved t.view t.graphs
  grows : ∀ ref, Grows (s.graphs.graph ref) (t.graphs.graph ref)
  view : s.view.Alike t.view ∨
    t.view.graph ≠ s.view.graph ∧ t.view.cache = .empty ∧ t.view.failed = none
  coherent : ∀ attempt, (s.stage attempt).Coherent → (t.stage attempt).Coherent

theorem Quiet.calls (hq : s.Quiet t) : t.calls = s.calls := by
  rw [hq.moved]
  rfl

omit [RootScalar α] in
theorem grows_setGraph (v : View α) (gs : GraphStore) (graph : Option Nat) (ref : Nat) :
    Grows (gs.graph ref) ((v.setGraph gs graph).2.graph ref) := by
  unfold setGraph
  split
  · exact .refl _
  · cases graph with
    | none => exact .refl _
    | some r => exact grows_change gs r .updateIdentifiers ref

theorem quiet_setGraph (s : Ledger α) (graph : Option Nat) :
    s.Quiet (s.step (.happens (.setGraph graph))) := by
  have hstep (attempt : Option Attempt) : (s.stage attempt).step (.setGraph graph) =
      (s.step (.happens (.setGraph graph))).stage attempt := by
    unfold step Stage.step stage moved
    dsimp only
    split <;> rfl
  have hgrows (ref : Nat) : Grows (s.graphs.graph ref)
      (((s.stage none).step (.setGraph graph)).graphs.graph ref) := by
    unfold Stage.step
    dsimp only
    split
    · exact grows_setGraph s.view s.graphs graph ref
    · exact .refl _
  have hview : s.view.Alike ((s.stage none).step (.setGraph graph)).view ∨
      ((s.stage none).step (.setGraph graph)).view.graph ≠ s.view.graph ∧
        ((s.stage none).step (.setGraph graph)).view.cache = .empty ∧
        ((s.stage none).step (.setGraph graph)).view.failed = none := by
    unfold Stage.step setGraph stage
    dsimp only
    split
    · split
      · exact .inl (.refl _)
      next hother => exact .inr ⟨hother, rfl, rfl⟩
    · exact .inl (.refl _)
  exact ⟨rfl, hgrows, hview, fun attempt hc => hstep attempt ▸ hc.setGraph graph⟩

theorem quiet_gesture (s : Ledger α) (gesture : Gesture α) :
    s.Quiet (s.step (.happens (.gesture gesture))) := by
  have hstep (attempt : Option Attempt) : (s.stage attempt).step (.gesture gesture) =
      (s.step (.happens (.gesture gesture))).stage attempt := by
    unfold step Stage.step stage moved
    dsimp only
    split <;> rfl
  have htouched : s.view.Alike ((s.stage none).step (.gesture gesture)).view ∧
      ∀ ref, Grows (s.graphs.graph ref)
        (((s.stage none).step (.gesture gesture)).graphs.graph ref) := by
    unfold Stage.step stage
    dsimp only
    split
    next hok => exact ⟨(Gesture.touched hok).toAlike, (Gesture.touched hok).grows⟩
    next => exact ⟨.refl _, fun ref => .refl _⟩
  exact ⟨rfl, htouched.2, .inl htouched.1, fun attempt hc => hstep attempt ▸ hc.gesture gesture⟩

theorem quiet_select (s : Ledger α) (ref : Nat) (choice : Option Endpoint) :
    s.Quiet (s.step (.select ref choice)) := by
  have hput (r : Nat) := s.graphs.graph_put ref ((s.graphs.graph ref).select choice).1 r
  have hgrows (r : Nat) : Grows (s.graphs.graph r)
      ((s.graphs.put ref ((s.graphs.graph ref).select choice).1).graph r) := by
    rcases hput r with he | ⟨rfl, he⟩
    · exact he ▸ .refl _
    · rw [he]
      exact grows_select _ choice
  refine ⟨rfl, hgrows, .inl (.refl _), fun attempt hc => ⟨fun r => ?_, hc.camera,
    hc.phase.of_alike (.refl _) fun r _ => hgrows r⟩⟩
  rcases hput r with he | ⟨rfl, he⟩
  · exact he ▸ hc.built r
  · exact he ▸ (hc.built r).select choice

theorem quiet_render (s : Ledger α) (measure : Measure Id α) :
    s.Quiet (s.step (.render measure)) := by
  have hview : (s.step (.render measure)).view = { s.view with edges := s.view.routed } :=
    congrArg Prod.snd (render_eq measure s.graphs s.view)
  have halike : s.view.Alike (s.step (.render measure)).view := by
    rw [hview]
    exact ⟨rfl, rfl, rfl, rfl, rfl, rfl, rfl⟩
  refine ⟨rfl, fun ref => .refl _, .inl halike, fun attempt hc => ⟨hc.built, ?_,
    hc.phase.of_alike halike fun ref _ => .refl _⟩⟩
  change (s.step (.render measure)).view.camera.Sound
  rw [hview]
  exact hc.camera

theorem quiet_step (s : Ledger α) {deed : Deed α} (h : ¬deed.Frames) : s.Quiet (s.step deed) := by
  cases deed with
  | happens happening =>
    cases happening with
    | create provider =>
      exact ⟨rfl, grows_push s.graphs provider, .inl (.refl _), fun _ hc => hc.create provider⟩
    | alter ref change =>
      exact ⟨rfl, grows_change s.graphs ref change, .inl (.refl _), fun _ hc => hc.alter ref change⟩
    | setGraph graph => exact s.quiet_setGraph graph
    | gesture gesture => exact s.quiet_gesture gesture
    | update engine measure => exact absurd trivial h
  | preprocess engine measure => exact absurd trivial h
  | render measure => exact s.quiet_render measure
  | select ref choice => exact s.quiet_select ref choice

theorem framed_step (s : Ledger α) {deed : Deed α} (h : deed.Frames) :
    ∃ engine measure, s.Framed (s.step deed) engine measure := by
  cases deed with
  | happens happening =>
    cases happening with
    | update engine measure => exact ⟨engine, measure, s.framed_update engine measure⟩
    | _ => exact h.elim
  | preprocess engine measure => exact ⟨engine, measure, s.framed_preprocess engine measure⟩
  | _ => exact h.elim

theorem Kept.of_quiet (h : s.Kept) (hq : s.Quiet t) : t.Kept := by
  obtain ⟨attempt, hcoherent⟩ := h.coherent
  have hc : ∃ attempt, (t.stage attempt).Coherent := ⟨attempt, hq.coherent attempt hcoherent⟩
  rw [hq.moved]
  rcases hq.view with halike | ⟨hother, hcache, hfailed⟩
  · exact h.of_alike halike hq.grows hc
  · have hperiod : (s.moved t.view t.graphs).period = s.period + 1 := if_neg hother
    refine ⟨hc, h.once, h.numbered, fun c hcalls => ?_, fun c hcalls hnow => ?_,
      fun ref n l he => ?_, fun ref n he => ?_⟩
    · exact hperiod ▸ Nat.le_succ_of_le (h.past c hcalls)
    · have hpast := h.past c hcalls
      omega
    · cases hcache.symm.trans he
    · cases hfailed.symm.trans he

theorem Kept.step (h : s.Kept) (deed : Deed α) : (s.step deed).Kept := by
  by_cases hframes : deed.Frames
  · obtain ⟨engine, measure, hf⟩ := s.framed_step hframes
    exact h.of_framed hf
  · exact h.of_quiet (s.quiet_step hframes)

theorem Kept.run (h : s.Kept) (deeds : List (Deed α)) : (s.run deeds).Kept := by
  induction deeds generalizing s with
  | nil => exact h
  | cons deed rest ih => exact ih (h.step deed)

theorem kept_start {camera : Camera α} (hc : camera.Sound) (style : ViewStyle α)
    (dragThreshold clickSuppression : α) :
    (start camera style dragThreshold clickSuppression).Kept :=
  ⟨⟨none, Stage.coherent_start hc style dragThreshold clickSuppression⟩, List.nodup_nil,
    fun _ hc => absurd hc List.not_mem_nil, fun _ hc => absurd hc List.not_mem_nil,
    fun _ hc => absurd hc List.not_mem_nil, fun _ _ _ he => (by cases he),
    fun _ _ he => (by cases he)⟩

/-- How a ledger goes on. -/
structure Later (s t : Ledger α) : Prop where
  period : s.period ≤ t.period
  grows : ∀ ref, Grows (s.graphs.graph ref) (t.graphs.graph ref)
  stays : t.period = s.period → t.view.graph = s.view.graph
  /-- Layouts that are new are of graphs as they have become. -/
  calls : ∃ new, t.calls = new ++ s.calls ∧
    ∀ c ∈ new, s.period ≤ c.period ∧ (s.graphs.graph c.ref).size ≤ c.graph.size
  refused : t.period = s.period →
    (∀ ref, t.view.graph = some ref → (t.graphs.graph ref).size = (s.graphs.graph ref).size) →
    s.Refused → t.Refused

omit [RootScalar α] in
theorem Later.refl (s : Ledger α) : s.Later s :=
  ⟨Nat.le_refl _, fun _ => .refl _, fun _ => rfl,
    ⟨[], rfl, fun _ hc => absurd hc List.not_mem_nil⟩, fun _ _ h => h⟩

omit [RootScalar α] in
theorem Later.trans (hst : s.Later t) (htu : t.Later u) : s.Later u := by
  obtain ⟨new, hnew, hfresh⟩ := hst.calls
  obtain ⟨newer, hnewer, hfresher⟩ := htu.calls
  have hfirst := hst.period
  have hsecond := htu.period
  refine ⟨Nat.le_trans hst.period htu.period, fun ref => (hst.grows ref).trans (htu.grows ref),
    fun he => (htu.stays (by omega)).trans (hst.stays (by omega)),
    ⟨newer ++ new, by rw [hnewer, hnew, List.append_assoc], fun c hc => ?_⟩,
    fun he hsize hrefused => ?_⟩
  · rcases List.mem_append.mp hc with hc | hc
    · obtain ⟨hperiod, hsize⟩ := hfresher c hc
      exact ⟨Nat.le_trans hfirst hperiod, Nat.le_trans (hst.grows c.ref).size hsize⟩
    · exact hfresh c hc
  · have hsizes (ref : Nat) (hgraph : u.view.graph = some ref) :
        (t.graphs.graph ref).size = (s.graphs.graph ref).size ∧
          (u.graphs.graph ref).size = (t.graphs.graph ref).size := by
      have hless := (hst.grows ref).size
      have hmore := (htu.grows ref).size
      have hsame := hsize ref hgraph
      omega
    have hgraph : u.view.graph = t.view.graph := htu.stays (by omega)
    exact htu.refused (by omega) (fun ref hg => (hsizes ref hg).2)
      (hst.refused (by omega) (fun ref hg => (hsizes ref (hgraph.trans hg)).1) hrefused)

theorem later_of_quiet (hq : s.Quiet t) : s.Later t := by
  have hperiod : t.period = if t.view.graph = s.view.graph then s.period else s.period + 1 :=
    congrArg Ledger.period hq.moved
  have halike (he : t.period = s.period) : s.view.Alike t.view := by
    rcases hq.view with halike | ⟨hother, -⟩
    · exact halike
    · rw [if_neg hother] at hperiod
      omega
  refine ⟨?_, hq.grows, fun he => (halike he).graph,
    ⟨[], hq.calls, fun _ hc => absurd hc List.not_mem_nil⟩,
    fun he hsize hrefused => ?_⟩
  · split at hperiod <;> omega
  · have hview := halike he
    unfold Refused at hrefused ⊢
    rw [hview.layout, hview.error, hview.graph]
    rcases hg : s.view.graph with _ | ref
    · simpa [hg] using hrefused
    · rw [hg] at hrefused
      refine fun hunnumbered => hrefused (Bool.eq_false_iff.mpr fun hi => ?_)
      have hnumbered := (hq.grows ref).numbered (hsize ref (hview.graph.trans hg)) hi
      cases hunnumbered.symm.trans hnumbered

theorem Kept.later_of_framed {engine : LayoutEngine α} {measure : Measure Id α} (h : s.Kept)
    (hf : s.Framed t engine measure) : s.Later t := by
  refine ⟨Nat.le_of_eq hf.period.symm, fun ref => by rw [hf.graphs]; exact .refl _, fun _ => ?_,
    ⟨_, hf.calls, fun c hc => ?_⟩, fun _ _ _ => h.refused hf⟩
  · rcases h.prepares engine measure with ⟨-, hrests⟩ | ⟨c, -, hlays⟩
    · exact hf.alike.graph.trans hrests.graph
    · exact hf.alike.graph.trans hlays.stays
  · rcases h.prepares engine measure with ⟨hnone, -⟩ | ⟨d, hone, hlays⟩
    · rw [hnone] at hc
      exact absurd hc List.not_mem_nil
    · rw [hone, List.mem_singleton] at hc
      subst hc
      exact ⟨Nat.le_of_eq hlays.period.symm, Nat.le_of_eq (congrArg Graph.size hlays.laid).symm⟩

theorem Kept.later_step (h : s.Kept) (deed : Deed α) : s.Later (s.step deed) := by
  by_cases hframes : deed.Frames
  · obtain ⟨engine, measure, hf⟩ := s.framed_step hframes
    exact h.later_of_framed hf
  · exact later_of_quiet (s.quiet_step hframes)

theorem Kept.later_run (h : s.Kept) (deeds : List (Deed α)) : s.Later (s.run deeds) := by
  induction deeds generalizing s with
  | nil => exact .refl s
  | cons deed rest ih => exact (h.later_step deed).trans (ih (h.step deed))

omit [RootScalar α] in
/-- What came of a layout looks in one way only. -/
theorem Laying.same_shown {c : Laying α} {v w : View α} (hv : c.Shown v) (hw : c.Shown w) :
    w.layout = v.layout ∧ w.error = v.error := by
  unfold View.Laying.Shown at hv hw
  rcases hc : c.result with fault | l
  · rw [hc] at hv hw
    exact ⟨hw.1.trans hv.1.symm, hw.2.trans hv.2.symm⟩
  · rw [hc] at hv hw
    exact ⟨hw.1.trans hv.1.symm, hw.2.trans hv.2.symm⟩

omit [RootScalar α] in
theorem Refused.same (hs : s.Refused) (ht : t.Refused) (hgraph : t.view.graph = s.view.graph)
    (hunnumbered : ∀ ref, s.view.graph = some ref → (s.graphs.graph ref).verifyIntegrity = false ∧
      (t.graphs.graph ref).verifyIntegrity = false) :
    t.view.layout = s.view.layout ∧ t.view.error = s.view.error := by
  unfold Refused at hs ht
  rw [hgraph] at ht
  rcases hg : s.view.graph with _ | ref
  · rw [hg] at hs ht
    exact ⟨ht.1.trans hs.1.symm, ht.2.trans hs.2.symm⟩
  · rw [hg] at hs ht
    obtain ⟨hi, hj⟩ := hunnumbered ref hg
    exact ⟨(ht hj).1.trans (hs hi).1.symm, (ht hj).2.trans (hs hi).2.symm⟩

/-- Another layout is made, and shown, only for another graph or another number of vertices, or
once the vertices are numbered. -/
theorem Kept.lasts (h : s.Kept) (ht : t.Kept) (hcaught : s.Caught) (hrefused : s.Refused)
    (hl : s.Later t) (hperiod : t.period = s.period)
    (hsame : ∀ ref, s.view.graph = some ref →
      (t.graphs.graph ref).size = (s.graphs.graph ref).size ∧
      (t.graphs.graph ref).verifyIntegrity = (s.graphs.graph ref).verifyIntegrity) :
    t.calls = s.calls ∧ t.view.layout = s.view.layout ∧ t.view.error = s.view.error := by
  have hgraph := hl.stays hperiod
  have hcalls : t.calls = s.calls := by
    obtain ⟨new, hnew, hfresh⟩ := hl.calls
    rcases new with _ | ⟨c, new⟩
    · exact hnew
    have hc : c ∈ t.calls := by simp [hnew]
    obtain ⟨hafter, hlarger⟩ := hfresh c List.mem_cons_self
    have hbefore := ht.past c hc
    obtain ⟨hshown, hsmaller, hrest⟩ := ht.current c hc (by omega)
    obtain ⟨hsize, hnumbered⟩ := hsame c.ref (hgraph.symm.trans hshown)
    obtain ⟨hi, -⟩ := hrest (by omega)
    obtain ⟨d, hd, hnow, hmany⟩ := hcaught c.ref (hgraph.symm.trans hshown) (hnumbered ▸ hi)
    have honce := ht.once
    rw [hnew, List.cons_append, List.map_cons, List.nodup_cons] at honce
    refine absurd (List.mem_map.mpr ⟨d, List.mem_append_right _ hd, ?_⟩) honce.1
    exact Prod.ext (by dsimp only; omega) (by dsimp only; omega)
  refine ⟨hcalls, ?_⟩
  by_cases hnumbered : ∃ ref, s.view.graph = some ref ∧
      (s.graphs.graph ref).verifyIntegrity = true
  · obtain ⟨ref, hg, hi⟩ := hnumbered
    obtain ⟨d, hd, hnow, hmany⟩ := hcaught ref hg hi
    obtain ⟨hshown, -, hrest⟩ := h.current d hd hnow
    obtain rfl := Option.some.inj (hshown.symm.trans hg)
    obtain ⟨-, -, hlater⟩ := ht.current d (hcalls ▸ hd) (hnow.trans hperiod.symm)
    exact Laying.same_shown (hrest hmany).2.1 (hlater (hmany.trans (hsame _ hg).1.symm)).2.1
  · have hunnumbered (ref : Nat) (hg : s.view.graph = some ref) :
        (s.graphs.graph ref).verifyIntegrity = false :=
      Bool.eq_false_iff.mpr fun hi => hnumbered ⟨ref, hg, hi⟩
    refine hrefused.same (hl.refused hperiod (fun ref hg => (hsame ref (hgraph ▸ hg)).1) hrefused)
      hgraph fun ref hg => ⟨hunnumbered ref hg, (hsame ref hg).2.trans (hunnumbered ref hg)⟩

/-- Whether the same graphs are shown and there, with as many vertices as numbered as before. -/
structure Unaltered (s t : Ledger α) : Prop where
  period : t.period = s.period
  size : ∀ ref, (t.graphs.graph ref).size = (s.graphs.graph ref).size
  numbered : ∀ ref, (t.graphs.graph ref).verifyIntegrity = (s.graphs.graph ref).verifyIntegrity

omit [RootScalar α] in
theorem Unaltered.trans (hst : s.Unaltered t) (htu : t.Unaltered u) : s.Unaltered u :=
  ⟨htu.period.trans hst.period, fun ref => (htu.size ref).trans (hst.size ref),
    fun ref => (htu.numbered ref).trans (hst.numbered ref)⟩

omit [RootScalar α] in
/-- To select in a graph is not to alter it. -/
theorem unaltered_of_selected (hperiod : t.period = s.period)
    (hgraphs : ∀ ref, t.graphs.graph ref = s.graphs.graph ref ∨
      ∃ choice, t.graphs.graph ref = ((s.graphs.graph ref).select choice).1) : s.Unaltered t := by
  refine ⟨hperiod, fun ref => ?_, fun ref => ?_⟩
  · rcases hgraphs ref with he | ⟨choice, he⟩
    · rw [he]
    · rw [he, Graph.size_select]
  · rcases hgraphs ref with he | ⟨choice, he⟩
    · rw [he]
    · rw [he, Bool.eq_iff_iff, Graph.verifyIntegrity_iff, Graph.ids_select,
        ← Graph.verifyIntegrity_iff]

theorem unaltered_gesture (s : Ledger α) (gesture : Gesture α) :
    s.Unaltered (s.step (.happens (.gesture gesture))) := by
  have hview : (s.step (.happens (.gesture gesture))).view.graph = s.view.graph ∧
      ∀ ref, (s.step (.happens (.gesture gesture))).graphs.graph ref = s.graphs.graph ref ∨
        ∃ choice, (s.step (.happens (.gesture gesture))).graphs.graph ref =
          ((s.graphs.graph ref).select choice).1 := by
    change ((s.stage none).step (.gesture gesture)).view.graph = _ ∧
      ∀ ref, ((s.stage none).step (.gesture gesture)).graphs.graph ref = _ ∨ ∃ choice,
        ((s.stage none).step (.gesture gesture)).graphs.graph ref = _
    unfold Stage.step stage
    dsimp only
    split
    next hok => exact ⟨(Gesture.touched hok).graph, (Gesture.touched hok).graph_cases⟩
    next => exact ⟨rfl, fun ref => .inl rfl⟩
  exact unaltered_of_selected (if_pos hview.1) hview.2

theorem unaltered_step (s : Ledger α) {deed : Deed α} (h : deed.Idle) :
    s.Unaltered (s.step deed) := by
  by_cases hframes : deed.Frames
  · obtain ⟨engine, measure, hf⟩ := s.framed_step hframes
    exact ⟨hf.period, fun ref => by rw [hf.graphs], fun ref => by rw [hf.graphs]⟩
  cases deed with
  | happens happening =>
    cases happening with
    | gesture gesture => exact s.unaltered_gesture gesture
    | update engine measure => exact absurd trivial hframes
    | _ => exact h.elim
  | preprocess engine measure => exact absurd trivial hframes
  | render measure =>
    exact unaltered_of_selected (if_pos (congrArg View.graph
      (congrArg Prod.snd (render_eq measure s.graphs s.view)))) fun ref => .inl rfl
  | select ref choice =>
    refine unaltered_of_selected (if_pos rfl) fun r => ?_
    rcases s.graphs.graph_put ref ((s.graphs.graph ref).select choice).1 r with he | ⟨rfl, he⟩
    · exact .inl he
    · exact .inr ⟨choice, he⟩

theorem unaltered_run (s : Ledger α) {deeds : List (Deed α)} (h : ∀ deed ∈ deeds, deed.Idle) :
    s.Unaltered (s.run deeds) := by
  induction deeds generalizing s with
  | nil => exact ⟨rfl, fun _ => rfl, fun _ => rfl⟩
  | cons deed rest ih =>
    obtain ⟨hdeed, hrest⟩ := List.forall_mem_cons.mp h
    exact (s.unaltered_step hdeed).trans (ih (s.step deed) hrest)

/-- However a view and its graphs are used, one layout at most is made of as many vertices while the
same graph is shown, and none while a vertex has no identifier. A frame leaves, of a graph whose
vertices are numbered, what came of the layout of that graph with that many vertices; this is
shown, and no other layout made, whatever selects, pans, zooms, suppresses and makes frames from
then on. Only a frame makes layouts, and only a frame or another graph replaces what is shown. -/
theorem run_economy {width height : α} {settings : CameraSettings α} {camera : Camera α}
    (hmake : Camera.make width height settings = .ok camera) (style : ViewStyle α)
    (dragThreshold clickSuppression : α) (deeds : List (Deed α)) :
    let s := (start camera style dragThreshold clickSuppression).run deeds
    (s.calls.map fun c => (c.period, c.graph.size)).Nodup ∧
    (∀ c ∈ s.calls, ∀ v ∈ c.graph.vertices, v.id ≠ unassigned) ∧
    (∀ deed, deed.Frames →
      let t := s.step deed
      (∀ ref, t.view.graph = some ref →
        (∀ v ∈ (t.graphs.graph ref).vertices, v.id ≠ unassigned) →
        ∃ c ∈ t.calls, c.period = t.period ∧ c.ref = ref ∧
          c.graph.size = (t.graphs.graph ref).size ∧ c.Shown t.view) ∧
      ∀ more, (∀ deed ∈ more, deed.Idle) →
        (t.run more).calls = t.calls ∧ (t.run more).view.layout = t.view.layout ∧
          (t.run more).view.error = t.view.error) ∧
    ∀ deed, ¬deed.Frames → (s.step deed).calls = s.calls ∧
      ((s.step deed).view.graph = s.view.graph →
        (s.step deed).view.layout = s.view.layout ∧ (s.step deed).view.error = s.view.error) := by
  intro s
  have hs : s.Kept :=
    (kept_start (Camera.sound_of_make hmake) style dragThreshold clickSuppression).run deeds
  have hassigned (g : Graph) :
      g.verifyIntegrity = true ↔ ∀ v ∈ g.vertices, v.id ≠ unassigned := by
    simp [Graph.verifyIntegrity]
  refine ⟨hs.once, fun c hc => (hassigned _).mp (hs.numbered c hc), fun deed hframes => ?_,
    fun deed hquiet => ?_⟩
  · intro t
    obtain ⟨engine, measure, hf⟩ := s.framed_step hframes
    have ht : t.Kept := hs.of_framed hf
    have hcaught : t.Caught := hs.caught hf
    refine ⟨fun ref hg hi => ?_, fun more hidle => ?_⟩
    · obtain ⟨c, hc, hnow, hsize⟩ := hcaught ref hg ((hassigned _).mpr hi)
      obtain ⟨hshown, -, hrest⟩ := ht.current c hc hnow
      obtain rfl := Option.some.inj (hshown.symm.trans hg)
      exact ⟨c, hc, hnow, rfl, hsize, (hrest hsize).2.1⟩
    · have hsame := t.unaltered_run hidle
      exact ht.lasts (ht.run more) hcaught (hs.refused hf) (ht.later_run more) hsame.period
        fun ref _ => ⟨hsame.size ref, hsame.numbered ref⟩
  · have hq := s.quiet_step hquiet
    refine ⟨hq.calls, fun hg => ?_⟩
    rcases hq.view with halike | ⟨hother, -⟩
    · exact ⟨halike.layout, halike.error⟩
    · exact absurd hg hother

def numbered : List (Deed Float) :=
  [.happens (.create .nothing), .happens (.setGraph (some 0)), .happens (.alter 0 .addVertex),
    .happens (.alter 0 .updateIdentifiers)]

theorem numbered_economy :
    let s := (start Stage.opened .standard standardDragThreshold
      standardClickSuppression).run numbered
    let frame := .happens (.update Stage.piling RecordingSurface.measure)
    let t := s.step frame
    (∃ c ∈ t.calls, c.period = 1 ∧ c.ref = 0 ∧ c.graph.size = 1 ∧ c.Shown t.view) ∧
      (t.run [.happens (.gesture (.wheel 1.0)), frame]).calls = t.calls := by
  intro s frame t
  have hgraph : t.view.graph = some 0 :=
    (((kept_start (Camera.sound_of_make Stage.make_opened) _ _ _).run numbered).later_step
      frame).stays rfl
  obtain ⟨-, -, hframes, -⟩ := run_economy Stage.make_opened .standard standardDragThreshold
    standardClickSuppression numbered
  obtain ⟨hshown, hidle⟩ := hframes frame trivial
  exact ⟨hshown 0 hgraph (by decide), (hidle _ (by simp [Deed.Idle, frame])).1⟩

end Ledger

end View

end DebugDesk
