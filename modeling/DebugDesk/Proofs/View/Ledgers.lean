import DebugDesk.Proofs.View.Counting
import DebugDesk.Proofs.View.Recovering

/-!
# Ledgers of layouts

A view among its graphs, with the count of the layouts that were made. A layout is made only if none
was made yet of as many vertices since the graph is shown, and what came of it is remembered.
-/
namespace DebugDesk

namespace View

def Laying.Shown {α : Type} (c : Laying α) (v : View α) : Prop :=
  match c.result with
  | .ok l => v.layout = some l ∧ v.error = none
  | .error fault => v.layout = none ∧ v.error = some s!"Layout failed: {fault.message}"

def Laying.Known {α : Type} (c : Laying α) (v : View α) : Prop :=
  match c.result with
  | .ok l => v.cache = ⟨some (c.ref, c.graph.size, l)⟩
  | .error _ => v.failed = some (c.ref, c.graph.size)

inductive Deed (α : Type) where
  | happens (happening : Happening α)
  | preprocess (engine : LayoutEngine α) (measure : Measure Id α)
  | render (measure : Measure Id α)
  | select (ref : Nat) (choice : Option Endpoint)

def Deed.Frames {α : Type} : Deed α → Prop
  | .happens (.update ..) | .preprocess .. => True
  | _ => False

structure Ledger (α : Type) where
  view : View α
  graphs : GraphStore
  /-- How often another graph was shown. -/
  period : Nat
  calls : List (Laying α)

namespace Ledger

section

variable {α : Type} (s : Ledger α)

def stage (attempt : Option Attempt) : Stage α := ⟨s.view, s.graphs, attempt, none⟩

def framed {β : Type} (x : Frame (Count α) α β) : Ledger α :=
  { s with view := (x.counted s.view s.calls).1.2, calls := (x.counted s.view s.calls).2 }

/-- With another view and other graphs; another graph that is shown begins a period. -/
def moved (view : View α) (graphs : GraphStore) : Ledger α :=
  { s with
    view, graphs
    period := if view.graph = s.view.graph then s.period else s.period + 1 }

end

variable {α : Type} [RootScalar α] {s t : Ledger α} {v w : View α} {ref : Nat}

def start (camera : Camera α) (style : ViewStyle α) (dragThreshold clickSuppression : α) :
    Ledger α :=
  ⟨.make camera style dragThreshold clickSuppression, [], 0, []⟩

def step (s : Ledger α) : Deed α → Ledger α
  | .happens (.update engine measure) => s.framed (updateCounted s.period engine measure s.graphs)
  | .happens happening =>
    s.moved ((s.stage none).step happening).view ((s.stage none).step happening).graphs
  | .preprocess engine measure => s.framed (preprocessCounted s.period engine measure s.graphs)
  | .render measure => s.moved (s.view.render (m := Id) measure s.graphs).2 s.graphs
  | .select ref choice =>
    s.moved s.view (s.graphs.put ref ((s.graphs.graph ref).select choice).1)

def run (s : Ledger α) (deeds : List (Deed α)) : Ledger α := deeds.foldl step s

/-- What is true between any two deeds. -/
structure Kept (s : Ledger α) : Prop where
  coherent : ∃ attempt, (s.stage attempt).Coherent
  once : (s.calls.map fun c => (c.period, c.graph.size)).Nodup
  numbered : ∀ c ∈ s.calls, c.graph.verifyIntegrity = true
  past : ∀ c ∈ s.calls, c.period ≤ s.period
  /-- A layout of this period is of the graph that is shown, and shown itself unless there are more
  vertices by now. -/
  current : ∀ c ∈ s.calls, c.period = s.period → s.view.graph = some c.ref ∧
    c.graph.size ≤ (s.graphs.graph c.ref).size ∧
    (c.graph.size = (s.graphs.graph c.ref).size →
      (s.graphs.graph c.ref).verifyIntegrity = true ∧ c.Shown s.view ∧ c.Known s.view)
  cached : ∀ ref n l, s.view.cache = ⟨some (ref, n, l)⟩ →
    ∃ c ∈ s.calls, c.period = s.period ∧ c.graph.size = n
  failed : ∀ ref n, s.view.failed = some (ref, n) →
    ∃ c ∈ s.calls, c.period = s.period ∧ c.graph.size = n

omit [RootScalar α] in
theorem Laying.shown_of_alike {c : Laying α} (h : c.Shown v) (ha : v.Alike w) : c.Shown w := by
  unfold View.Laying.Shown at h ⊢
  rw [ha.layout, ha.error]
  exact h

omit [RootScalar α] in
theorem Laying.known_of_alike {c : Laying α} (h : c.Known v) (ha : v.Alike w) : c.Known w := by
  unfold View.Laying.Known at h ⊢
  rw [ha.cache, ha.failed]
  exact h

/-- A view that makes nothing new, and graphs that grow. -/
theorem Kept.of_alike (h : s.Kept) (ha : s.view.Alike w) {gs : GraphStore}
    (hg : ∀ ref, Grows (s.graphs.graph ref) (gs.graph ref))
    (hc : ∃ attempt, (⟨w, gs, attempt, none⟩ : Stage α).Coherent) : (s.moved w gs).Kept := by
  have hperiod : (s.moved w gs).period = s.period := if_pos ha.graph
  refine ⟨hc, h.once, h.numbered, fun c hcalls => hperiod ▸ h.past c hcalls,
    fun c hcalls hnow => ?_, fun ref n l hcache => ?_, fun ref n hfailed => ?_⟩
  · obtain ⟨hgraph, hsize, hshown⟩ := h.current c hcalls (hnow.trans hperiod)
    have hgrows := hg c.ref
    have hlarger := hgrows.size
    refine ⟨ha.graph.trans hgraph, Nat.le_trans hsize hlarger, fun he => ?_⟩
    change c.graph.size = (gs.graph c.ref).size at he
    obtain ⟨hnumbered, hshows, hknown⟩ := hshown (by omega)
    exact ⟨hgrows.numbered (by omega) hnumbered, Laying.shown_of_alike hshows ha,
      Laying.known_of_alike hknown ha⟩
  · rw [hperiod]
    exact h.cached ref n l (ha.cache ▸ hcache)
  · rw [hperiod]
    exact h.failed ref n (ha.failed ▸ hfailed)

omit [RootScalar α] in
/-- Drawing shows the layout, whether or not it fails, and leaves graph, style and cache alone. What
is drawn are the vertices of the graph, if the layout has them all. -/
theorem draw_shown [Scalar α] (measure : Measure Id α) (gs : GraphStore) (g : Graph)
    (l : Layout α) (v : View α) :
    let w := (Effect.outcome (draw measure gs g l) v).2
    w.layout = some l ∧ w.graph = v.graph ∧ w.style = v.style ∧ w.cache = v.cache ∧
      ∀ placed, placements g l = .ok placed → w.boxes = drawn measure v placed := by
  rcases hp : placements g l with fault | placed
  · rw [outcome_draw_unplaced hp]
    exact ⟨rfl, rfl, rfl, rfl, fun _ h => by cases h⟩
  have hboxes {w : View α} (h : w.boxes = drawn measure v placed) :
      ∀ placed', Except.ok (ε := Fault) placed = .ok placed' →
        w.boxes = drawn measure v placed' := by
    rintro _ ⟨⟩
    exact h
  rcases he : edgePlacements g (drawn measure v placed) with fault | ends
  · rw [outcome_draw_error hp he]
    exact ⟨rfl, rfl, rfl, rfl, hboxes rfl⟩
  · rw [outcome_draw_ok hp he]
    dsimp only
    split
    · rcases hr : View.recenter (α := α) _ gs with fault | w
      · exact ⟨rfl, rfl, rfl, rfl, hboxes rfl⟩
      · have htouched := touched_recenter hr
        exact ⟨htouched.layout, htouched.graph, htouched.style, htouched.cache,
          hboxes htouched.boxes⟩
    · exact ⟨rfl, rfl, rfl, rfl, hboxes rfl⟩

/-- A view after a frame that has made no layout. -/
structure Rests (s : Ledger α) (w : View α) : Prop where
  graph : w.graph = s.view.graph
  failed : w.failed = s.view.failed
  cache : w.cache = s.view.cache ∨ w.cache = .empty
  shown : ∀ ref, s.view.graph = some ref → (s.graphs.graph ref).verifyIntegrity = true →
    ∀ c : Laying α, c.ref = ref → c.graph.size = (s.graphs.graph ref).size → c.Shown s.view →
      c.Known s.view → c.Shown w ∧ c.Known w

theorem Kept.of_rests (h : s.Kept) (hw : s.Rests w)
    (hc : ∃ attempt, (⟨w, s.graphs, attempt, none⟩ : Stage α).Coherent) :
    ({ s with view := w } : Ledger α).Kept := by
  refine ⟨hc, h.once, h.numbered, h.past, fun c hcalls hnow => ?_, fun ref n l hcache => ?_,
    fun ref n hfailed => h.failed ref n (hw.failed ▸ hfailed)⟩
  · obtain ⟨hgraph, hsize, hshown⟩ := h.current c hcalls hnow
    refine ⟨hw.graph.trans hgraph, hsize, fun he => ?_⟩
    obtain ⟨hnumbered, hshows, hknown⟩ := hshown he
    exact ⟨hnumbered, hw.shown c.ref hgraph hnumbered c rfl he hshows hknown⟩
  · rcases hw.cache with he | he
    · exact h.cached ref n l (he ▸ hcache)
    · cases he.symm.trans hcache

/-- A view after a frame that has made a layout. -/
structure Lays (s : Ledger α) (c : Laying α) (w : View α) : Prop where
  period : c.period = s.period
  graph : s.view.graph = some c.ref
  laid : c.graph = s.graphs.graph c.ref
  numbered : c.graph.verifyIntegrity = true
  unsettled : s.view.settled c.ref c.graph.size = false
  unknown : s.view.cache.lookup? c.ref c.graph.size = none
  stays : w.graph = s.view.graph
  shown : c.Shown w
  known : c.Known w
  cached : ∀ ref n l, w.cache = ⟨some (ref, n, l)⟩ → n = c.graph.size
  failed : ∀ ref n, w.failed = some (ref, n) → n = c.graph.size

/-- A layout is made only if none was made of as many vertices in the same period. -/
theorem Kept.fewer (h : s.Kept) {c d : Laying α} (hd : d ∈ s.calls) (hnow : d.period = s.period)
    (hgraph : s.view.graph = some c.ref) (hlaid : c.graph = s.graphs.graph c.ref)
    (hs : s.view.settled c.ref c.graph.size = false)
    (hk : s.view.cache.lookup? c.ref c.graph.size = none) : d.graph.size < c.graph.size := by
  obtain ⟨hshown, hsize, hrest⟩ := h.current d hd hnow
  obtain hsame : d.ref = c.ref := Option.some.inj (hshown.symm.trans hgraph)
  rw [hsame, ← hlaid] at hsize hrest
  refine Nat.lt_of_le_of_ne hsize fun he => ?_
  obtain ⟨-, -, hknown⟩ := hrest he
  unfold View.Laying.Known at hknown
  split at hknown
  · simp [LayoutCache.lookup?, hknown, hsame, he] at hk
  · simp [View.settled, hknown, hsame, he] at hs

theorem Kept.of_lays (h : s.Kept) {c : Laying α} (hw : s.Lays c w)
    (hc : ∃ attempt, (⟨w, s.graphs, attempt, none⟩ : Stage α).Coherent) :
    ({ s with view := w, calls := c :: s.calls } : Ledger α).Kept := by
  refine ⟨hc, List.nodup_cons.mpr ⟨fun hmem => ?_, h.once⟩, ?_, ?_, fun d hd hnow => ?_,
    fun ref n l hcache => ?_, fun ref n hfailed => ?_⟩
  · obtain ⟨d, hd, he⟩ := List.mem_map.mp hmem
    obtain ⟨hperiod, hsize⟩ := Prod.mk.inj he
    exact Nat.ne_of_lt (h.fewer hd (hperiod.trans hw.period) hw.graph hw.laid hw.unsettled
      hw.unknown) hsize
  · exact List.forall_mem_cons.mpr ⟨hw.numbered, h.numbered⟩
  · exact List.forall_mem_cons.mpr ⟨Nat.le_of_eq hw.period, h.past⟩
  · rcases List.mem_cons.mp hd with rfl | hd
    · exact ⟨hw.stays.trans hw.graph, Nat.le_of_eq (congrArg Graph.size hw.laid),
        fun _ => ⟨hw.laid ▸ hw.numbered, hw.shown, hw.known⟩⟩
    · obtain ⟨hgraph, hsize, -⟩ := h.current d hd hnow
      have hless := h.fewer hd hnow hw.graph hw.laid hw.unsettled hw.unknown
      refine ⟨hw.stays.trans hgraph, hsize, fun he => ?_⟩
      obtain hsame : d.ref = c.ref := Option.some.inj (hgraph.symm.trans hw.graph)
      change d.graph.size = (s.graphs.graph d.ref).size at he
      rw [hsame, ← hw.laid] at he
      omega
  · exact ⟨c, List.mem_cons_self, hw.period, (hw.cached ref n l hcache).symm⟩
  · exact ⟨c, List.mem_cons_self, hw.period, (hw.failed ref n hfailed).symm⟩

omit [RootScalar α] in
theorem Rests.of_alike (h : s.Rests v) (ha : v.Alike w) : s.Rests w := by
  refine ⟨ha.graph.trans h.graph, ha.failed.trans h.failed, ha.cache ▸ h.cache,
    fun ref hg hi c hc hn hshows hknown => ?_⟩
  obtain ⟨hshown, hkept⟩ := h.shown ref hg hi c hc hn hshows hknown
  exact ⟨Laying.shown_of_alike hshown ha, Laying.known_of_alike hkept ha⟩

omit [RootScalar α] in
theorem rests_refl (s : Ledger α) : s.Rests s.view :=
  ⟨rfl, rfl, .inl rfl, fun _ _ _ _ _ _ hshows hknown => ⟨hshows, hknown⟩⟩

omit [RootScalar α] in
theorem Lays.of_alike {c : Laying α} (h : s.Lays c v) (ha : v.Alike w) : s.Lays c w :=
  ⟨h.period, h.graph, h.laid, h.numbered, h.unsettled, h.unknown, ha.graph.trans h.stays,
    Laying.shown_of_alike h.shown ha, Laying.known_of_alike h.known ha,
    fun ref n l he => h.cached ref n l (ha.cache ▸ he),
    fun ref n he => h.failed ref n (ha.failed ▸ he)⟩

/-- The layout of a graph that cannot be drawn is held, and is shown again. -/
theorem rests_of_known {attempt : Option Attempt} (hp : s.view.Phase s.graphs attempt)
    (engine : LayoutEngine α) (measure : Measure Id α) {l : Layout α}
    (hg : s.view.graph = some ref) (hs : s.view.settled ref (s.graphs.graph ref).size = false)
    (hi : (s.graphs.graph ref).verifyIntegrity = true)
    (hk : s.view.cache.lookup? ref (s.graphs.graph ref).size = some l) :
    s.Rests (Effect.outcome (preprocess engine measure s.graphs) s.view).2 := by
  obtain ⟨hbare, -⟩ := hp.bare_of_known hg hs hk
  obtain ⟨boxes, hdraw⟩ := draw_missing (v := { s.view with preprocessed := false }) (l := l)
    measure s.graphs hbare.1 hbare.2
  rw [outcome_preprocess_of_known hg hs hi hk, hdraw]
  refine ⟨rfl, rfl, .inl rfl, fun r hr _ c hc hsize hshows hknown => ?_⟩
  obtain rfl := Option.some.inj (hr.symm.trans hg)
  refine ⟨?_, hknown⟩
  unfold View.Laying.Known at hknown
  unfold View.Laying.Shown at hshows ⊢
  rcases hl' : c.result with fault | l'
  · rw [hl'] at hknown
    change s.view.failed = _ at hknown
    rw [hc, hsize] at hknown
    simp [View.settled, hknown] at hs
  · rw [hl'] at hknown hshows
    change s.view.cache = _ at hknown
    have hsame : l' = l := by simpa [LayoutCache.lookup?, hknown, hc, hsize] using hk
    exact ⟨congrArg some hsame.symm, hshows.2⟩

/-- A new layout is held, and shown. -/
theorem lays_of_laid {l : Layout α} {r : Except Fault Bool} {a : Option Attempt}
    (hg : s.view.graph = some ref) (hs : s.view.settled ref (s.graphs.graph ref).size = false)
    (hi : (s.graphs.graph ref).verifyIntegrity = true)
    (hk : s.view.cache.lookup? ref (s.graphs.graph ref).size = none)
    (hp : Prepared s.view s.graphs r w a)
    (hw : w.cache = ⟨some (ref, (s.graphs.graph ref).size, l)⟩) :
    s.Lays ⟨s.period, ref, s.graphs.graph ref, .ok l⟩ w := by
  have hmost (n : Nat) (k : Layout α) (r : Nat) (he : w.cache = ⟨some (r, n, k)⟩) :
      n = (s.graphs.graph ref).size := by
    cases he.symm.trans hw
    rfl
  have hlays (hgraph : w.graph = s.view.graph) (hlayout : w.layout = some l)
      (herror : w.error = none) (hfailed : w.failed = none) :
      s.Lays ⟨s.period, ref, s.graphs.graph ref, .ok l⟩ w :=
    ⟨rfl, hg, rfl, hi, hs, hk, hgraph, ⟨hlayout, herror⟩, hw, fun r n k he => hmost n k r he,
      fun r n he => by cases hfailed.symm.trans he⟩
  cases hp with
  | blank hnone => cases hnone.symm.trans hg
  | kept r hr hsettled =>
    obtain rfl := Option.some.inj (hr.symm.trans hg)
    cases hsettled.symm.trans hs
  | unnumbered r hr hunnumbered =>
    obtain rfl := Option.some.inj (hr.symm.trans hg)
    cases hunnumbered.symm.trans hi
  | failed => cases hw
  | drawn r k =>
    cases hw
    exact hlays rfl rfl rfl rfl
  | missing r k boxes a hr hbare hcovers herror hfailed =>
    have hsame : l = k := congrArg Prod.snd
      (congrArg Prod.snd (Option.some.inj (congrArg LayoutCache.held hw.symm)))
    subst hsame
    exact hlays rfl rfl herror hfailed

/-- The first half of a frame makes one layout at most. -/
theorem Kept.prepares (h : s.Kept) (engine : LayoutEngine α) (measure : Measure Id α) :
    (layings s.period engine measure s.view s.graphs = [] ∧
      s.Rests (Effect.outcome (preprocess engine measure s.graphs) s.view).2) ∨
    ∃ c, layings s.period engine measure s.view s.graphs = [c] ∧
      s.Lays c (Effect.outcome (preprocess engine measure s.graphs) s.view).2 := by
  obtain ⟨attempt, hcoherent⟩ := h.coherent
  rcases Option.eq_none_or_eq_some s.view.graph with hg | ⟨ref, hg⟩
  · rw [outcome_preprocess_of_none hg]
    exact .inl ⟨by simp only [layings, hg], rests_refl s⟩
  rcases Bool.eq_false_or_eq_true (s.view.settled ref (s.graphs.graph ref).size) with hs | hs
  · rw [outcome_preprocess_of_settled hg hs]
    exact .inl ⟨by simp only [layings, hg, hs, Bool.true_or, ↓reduceIte], rests_refl s⟩
  rcases Bool.eq_false_or_eq_true (s.graphs.graph ref).verifyIntegrity with hi | hi
  case inr =>
    rw [outcome_preprocess_of_unnumbered hg hs hi]
    refine .inl ⟨?_, rfl, rfl, .inr rfl, fun r hr hnumbered => ?_⟩
    · simp only [layings, hg, hi, Bool.not_false, Bool.or_true, Bool.true_or, ↓reduceIte]
    · obtain rfl := Option.some.inj (hr.symm.trans hg)
      cases hi.symm.trans hnumbered
  rcases Option.eq_none_or_eq_some (s.view.cache.lookup? ref (s.graphs.graph ref).size) with
    hk | ⟨l, hk⟩
  case inr =>
    refine .inl ⟨?_, rests_of_known hcoherent.phase engine measure hg hs hi hk⟩
    simp only [layings, hg, LayoutCache.validFor, hk, Option.isSome_some, Bool.or_true, ↓reduceIte]
  have hone : layings s.period engine measure s.view s.graphs = [⟨s.period, ref,
      s.graphs.graph ref, (s.view.laidOut engine measure (s.graphs.graph ref)).1⟩] := by
    simp [layings, hg, hs, hi, LayoutCache.validFor, hk]
  refine .inr ⟨_, hone, ?_⟩
  rcases hl : s.view.laidOut engine measure (s.graphs.graph ref) with ⟨fault | l, boxes⟩
  · rw [outcome_preprocess_of_failed hg hs hi hk hl]
    refine ⟨rfl, hg, rfl, hi, hs, hk, rfl, ⟨rfl, rfl⟩, rfl, fun _ _ _ he => ?_, fun r n he => ?_⟩
    · cases he
    · exact (Prod.mk.inj (Option.some.inj he)).2.symm
  · have hprepared := hcoherent.prepared engine measure
    refine lays_of_laid hg hs hi hk hprepared ?_
    rw [outcome_preprocess_of_laid hg hs hi hk hl]
    exact (draw_shown measure s.graphs _ l _).2.2.2.1

/-- Whether there is a layout of the graph that is shown, as it is now. -/
def Caught (s : Ledger α) : Prop :=
  ∀ ref, s.view.graph = some ref → (s.graphs.graph ref).verifyIntegrity = true →
    ∃ c ∈ s.calls, c.period = s.period ∧ c.graph.size = (s.graphs.graph ref).size

/-- Whether a graph that cannot be laid out yet is refused, and nothing is shown without a graph. -/
def Refused (s : Ledger α) : Prop :=
  match s.view.graph with
  | none => s.view.layout = none ∧ s.view.error = none
  | some ref => (s.graphs.graph ref).verifyIntegrity = false →
      s.view.layout = none ∧ s.view.error = some integrityMessage

/-- The ledger after a frame: its view makes no more than the first half of the frame has. -/
structure Framed (s t : Ledger α) (engine : LayoutEngine α) (measure : Measure Id α) : Prop where
  graphs : t.graphs = s.graphs
  period : t.period = s.period
  calls : t.calls = layings s.period engine measure s.view s.graphs ++ s.calls
  alike : (Effect.outcome (preprocess engine measure s.graphs) s.view).2.Alike t.view
  camera : (Effect.outcome (preprocess engine measure s.graphs) s.view).2.camera.Sound →
    t.view.camera.Sound

theorem framed_preprocess (s : Ledger α) (engine : LayoutEngine α) (measure : Measure Id α) :
    s.Framed (s.step (.preprocess engine measure)) engine measure := by
  change s.Framed (s.framed (preprocessCounted s.period engine measure s.graphs)) engine measure
  unfold framed
  rw [counted_preprocess]
  exact ⟨rfl, rfl, rfl, .refl _, id⟩

theorem framed_update (s : Ledger α) (engine : LayoutEngine α) (measure : Measure Id α) :
    s.Framed (s.step (.happens (.update engine measure))) engine measure := by
  obtain ⟨halike, hcamera⟩ := s.view.alike_update engine measure s.graphs
  change s.Framed (s.framed (updateCounted s.period engine measure s.graphs)) engine measure
  unfold framed
  rw [counted_update]
  exact ⟨rfl, rfl, rfl, halike, hcamera⟩

section

variable {engine : LayoutEngine α} {measure : Measure Id α}

theorem Kept.of_framed (h : s.Kept) (hf : s.Framed t engine measure) : t.Kept := by
  obtain ⟨attempt, hcoherent⟩ := h.coherent
  have hp := hcoherent.prepared engine measure
  have hc : ∃ attempt, (⟨t.view, s.graphs, attempt, none⟩ : Stage α).Coherent :=
    ⟨_, hcoherent.built, hf.camera (hp.camera hcoherent.camera),
      (hp.phase hcoherent.phase).of_alike hf.alike fun _ _ => .refl _⟩
  have ht : t = ⟨t.view, s.graphs, s.period, t.calls⟩ := by
    rw [← hf.graphs, ← hf.period]
  rw [ht, hf.calls]
  rcases h.prepares engine measure with ⟨hnone, hrests⟩ | ⟨c, hone, hlays⟩
  · rw [hnone]
    exact h.of_rests (hrests.of_alike hf.alike) hc
  · rw [hone]
    exact h.of_lays (hlays.of_alike hf.alike) hc

/-- A frame that makes no layout of a numbered graph knows one already. -/
theorem Kept.caught_of_none (h : s.Kept) (hg : s.view.graph = some ref)
    (hi : (s.graphs.graph ref).verifyIntegrity = true)
    (hnone : layings s.period engine measure s.view s.graphs = []) :
    ∃ c ∈ s.calls, c.period = s.period ∧ c.graph.size = (s.graphs.graph ref).size := by
  have hlookup (hv : s.view.cache.validFor ref (s.graphs.graph ref).size = true) :
      ∃ l, s.view.cache = ⟨some (ref, (s.graphs.graph ref).size, l)⟩ := by
    rcases hc : s.view.cache with ⟨_ | ⟨r, n, l⟩⟩
    · simp [LayoutCache.validFor, LayoutCache.lookup?, hc] at hv
    · obtain ⟨rfl, rfl⟩ : r = ref ∧ n = _ := by
        simpa [LayoutCache.validFor, LayoutCache.lookup?, hc] using hv
      exact ⟨l, rfl⟩
  simp only [layings, hg, hi, Bool.not_true, Bool.or_false, View.settled, ite_eq_left_iff,
    List.cons_ne_self, imp_false, Classical.not_not, Bool.or_eq_true, Bool.and_eq_true,
    beq_iff_eq] at hnone
  rcases hnone with (⟨-, hv⟩ | hf) | hv
  · obtain ⟨l, hl⟩ := hlookup hv
    exact h.cached ref _ l hl
  · exact h.failed ref _ hf
  · obtain ⟨l, hl⟩ := hlookup hv
    exact h.cached ref _ l hl

/-- A frame leaves a numbered graph with a layout. -/
theorem Kept.caught (h : s.Kept) (hf : s.Framed t engine measure) : t.Caught := by
  intro ref hgraph hnumbered
  rw [hf.graphs] at hnumbered ⊢
  rw [hf.calls, hf.period]
  rcases h.prepares engine measure with ⟨hnone, hrests⟩ | ⟨c, hone, hlays⟩
  · have hg : s.view.graph = some ref := (hrests.graph.symm.trans hf.alike.graph.symm).trans hgraph
    rw [hnone]
    exact h.caught_of_none hg hnumbered hnone
  · have hg : s.view.graph = some ref := (hlays.stays.symm.trans hf.alike.graph.symm).trans hgraph
    obtain rfl := Option.some.inj (hlays.graph.symm.trans hg)
    exact ⟨c, by simp [hone], hlays.period, congrArg Graph.size hlays.laid⟩

theorem Kept.refused (h : s.Kept) (hf : s.Framed t engine measure) : t.Refused := by
  obtain ⟨attempt, hcoherent⟩ := h.coherent
  have halike := hf.alike
  unfold Refused
  rw [hf.graphs]
  rcases Option.eq_none_or_eq_some s.view.graph with hg | ⟨ref, hg⟩
  · rw [outcome_preprocess_of_none hg] at halike
    rw [halike.graph.trans hg, halike.layout, halike.error]
    dsimp only
    cases hcoherent.phase with
    | fresh layout error => exact ⟨layout, error⟩
    | stuck ref l hgraph => cases hgraph.symm.trans hg
    | failing ref hgraph => cases hgraph.symm.trans hg
    | drawn ref n l hgraph => cases hgraph.symm.trans hg
  · by_cases hi : (s.graphs.graph ref).verifyIntegrity = false
    · have hs : s.view.settled ref (s.graphs.graph ref).size = false :=
        hcoherent.phase.settled_of_unnumbered hg hi
      rw [outcome_preprocess_of_unnumbered hg hs hi] at halike
      rw [halike.graph.trans hg]
      exact fun _ => ⟨halike.layout, halike.error⟩
    · have hgraph : t.view.graph = some ref := by
        rcases h.prepares engine measure with ⟨-, hrests⟩ | ⟨c, -, hlays⟩
        · exact halike.graph.trans (hrests.graph.trans hg)
        · exact halike.graph.trans (hlays.stays.trans hg)
      rw [hgraph]
      exact fun hunnumbered => absurd hunnumbered hi

end

end Ledger

end View

end DebugDesk
