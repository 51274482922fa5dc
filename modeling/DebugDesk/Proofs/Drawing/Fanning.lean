import Mathlib.Algebra.Order.Ring.Abs
import Mathlib.Data.List.Forall2
import Mathlib.Data.List.Perm.Basic
import Mathlib.Tactic.Ring
import DebugDesk.Proofs.Drawing.Routing

/-!
# Fans of edges

The edges that leave a vertex are sorted by where their targets are, and begin at equal distances
on both sides of the middle of their source. So they keep the order of their targets, and unless two
of those are one below the other it does not matter in which order the edges are given. The distance
does not depend on how many edges there are: with the standard one, twenty-one have room on the
bottom side of their source, and more begin beside it.
-/
namespace DebugDesk

namespace Sorting

variable {α β γ : Type} [Scalar α] {key : β → α}

/-- Whether a list is another one in ascending order of a key, with equal keys in their order. -/
structure Sorts (key : β → α) (xs ys : List β) : Prop where
  perm : ys.Perm xs
  ascending : ys.Pairwise fun x y => key x ≤ key y
  stable : ∀ zs : List β, zs.Sublist xs → (zs.Pairwise fun x y => key x ≤ key y) → zs.Sublist ys

theorem not_lt_iff_le {a b : α} (ha : a ≤ a) (hb : b ≤ b) : ¬b < a ↔ a ≤ b := by
  rw [Scalar.lt_iff, not_and, not_not]
  refine ⟨fun h => ?_, fun h _ => h⟩
  rcases Scalar.le_total ha hb with hab | hba
  · exact hab
  · exact h hba

theorem sortOn_eq_mergeSort {xs : List β} (h : ∀ x ∈ xs, key x ≤ key x) :
    sortOn key xs = xs.mergeSort fun x y => !decide (key y < key x) := by
  refine if_pos (List.all_eq_true.mpr fun x hx => ?_)
  exact (Scalar.beq_iff (key x) (key x)).mpr ⟨h x hx, h x hx⟩

theorem sorts_sortOn {xs : List β} (h : ∀ x ∈ xs, key x ≤ key x) :
    Sorts key xs (sortOn key xs) := by
  -- The order is transitive among keys that are numbers only, so those are sorted as such.
  let Number := { x // key x ≤ key x }
  let numbers : List Number := xs.attachWith _ h
  let before (x y : Number) : Bool := !decide (key y.1 < key x.1)
  have hbefore (x y : Number) : before x y = true ↔ key x.1 ≤ key y.1 := by
    simp only [before, Bool.not_eq_true', decide_eq_false_iff_not]
    exact not_lt_iff_le x.2 y.2
  have htrans (x y z : Number) : before x y = true → before y z = true → before x z = true := by
    simp only [hbefore]
    exact Scalar.le_trans
  have htotal (x y : Number) : (before x y || before y x) = true := by
    simp only [Bool.or_eq_true, hbefore]
    exact Scalar.le_total x.2 y.2
  have hnumbers : numbers.map Subtype.val = xs := List.attachWith_map_subtype_val h
  have hsorted : sortOn key xs = (numbers.mergeSort before).map Subtype.val := by
    rw [sortOn_eq_mergeSort h]
    conv_lhs => rw [← hnumbers]
    exact (List.map_mergeSort (by intro _ _ _ _; rfl)).symm
  rw [hsorted]
  refine ⟨?_, ?_, fun zs hzs hascending => ?_⟩
  · conv_rhs => rw [← hnumbers]
    exact (List.mergeSort_perm numbers before).map _
  · rw [List.pairwise_map]
    exact (List.pairwise_mergeSort htrans htotal numbers).imp fun h => (hbefore _ _).mp h
  · rw [← hnumbers, List.sublist_map_iff] at hzs
    obtain ⟨zs, hzs, rfl⟩ := hzs
    rw [List.pairwise_map] at hascending
    exact (List.sublist_mergeSort htrans htotal
      (hascending.imp fun h => (hbefore _ _).mpr h) hzs).map _

theorem sortOn_map {f : γ → β} {xs : List γ} (h : ∀ x ∈ xs, key (f x) ≤ key (f x)) :
    sortOn key (xs.map f) = (sortOn (fun x => key (f x)) xs).map f := by
  have hmap : ∀ y ∈ xs.map f, key y ≤ key y := by
    intro y hy
    obtain ⟨x, hx, rfl⟩ := List.mem_map.mp hy
    exact h x hx
  rw [sortOn_eq_mergeSort hmap, sortOn_eq_mergeSort h]
  exact (List.map_mergeSort (by intro _ _ _ _; rfl)).symm

/-- Without equal keys there is only one order, whatever the list was before. -/
theorem Sorts.unique {xs xs' ys ys' : List β} (h : Sorts key xs ys) (h' : Sorts key xs' ys')
    (hperm : xs'.Perm xs) (hdistinct : xs.Pairwise fun x y => key x < key y ∨ key y < key x) :
    ys' = ys := by
  have hperm' : ys'.Perm ys := h'.perm.trans (hperm.trans h.perm.symm)
  refine hperm'.eq_of_pairwise (fun x y hx hy hxy hyx => ?_) h'.ascending h.ascending
  by_contra hne
  have hmem : x ∈ xs := h.perm.mem_iff.mp (hperm'.mem_iff.mp hx)
  have hmem' : y ∈ xs := h.perm.mem_iff.mp hy
  have hsymm : Std.Symm fun x y : β => key x < key y ∨ key y < key x := ⟨fun _ _ h => h.symm⟩
  rcases hdistinct.forall hmem hmem' hne with hlt | hlt
  · exact ((Scalar.lt_iff _ _).mp hlt).2 hyx
  · exact ((Scalar.lt_iff _ _).mp hlt).2 hxy

end Sorting

/-- Groups by keys hold everything once. -/
theorem flatMap_filter_perm {β : Type} {key : β → Nat} {keys : List Nat} (hkeys : keys.Nodup)
    {xs : List β} (h : ∀ x ∈ xs, key x ∈ keys) :
    (keys.flatMap fun k => xs.filter (key · == k)).Perm xs := by
  induction keys generalizing xs with
  | nil =>
    obtain rfl : xs = [] := List.eq_nil_iff_forall_not_mem.mpr fun x hx => by simpa using h x hx
    exact .nil
  | cons k keys ih =>
    obtain ⟨hk, hkeys⟩ := List.nodup_cons.mp hkeys
    have hothers : ∀ x ∈ xs.filter fun x => !(key x == k), key x ∈ keys := by
      intro x hx
      obtain ⟨hx, hne⟩ := List.mem_filter.mp hx
      simpa [by simpa using hne] using h x hx
    have hrest := ih hkeys hothers
    have hsame : (keys.flatMap fun l => (xs.filter fun x => !(key x == k)).filter (key · == l)) =
        keys.flatMap fun l => xs.filter (key · == l) := by
      refine List.flatMap_congr fun l hl => ?_
      rw [List.filter_filter]
      refine List.filter_congr fun x _ => ?_
      by_cases hx : key x = l
      · subst hx
        simpa using fun hxk : key x = k => hk (hxk ▸ hl)
      · simp [hx]
    rw [hsame] at hrest
    rw [List.flatMap_cons]
    exact (hrest.append_left _).trans (List.filter_append_perm (key · == k) xs)

theorem flatMap_ite_eq {β : Type} {keys : List Nat} (hkeys : keys.Nodup) (k : Nat) (xs : List β) :
    (keys.flatMap fun l => if l = k then xs else []) = if k ∈ keys then xs else [] := by
  induction keys with
  | nil => rfl
  | cons l keys ih =>
    obtain ⟨hl, hkeys⟩ := List.nodup_cons.mp hkeys
    rw [List.flatMap_cons, ih hkeys]
    by_cases hlk : l = k
    · subst hlk
      simp [hl]
    · simp [hlk, Ne.symm hlk]

namespace EdgeRoutes

variable {α : Type} [Scalar α]

/-- The vertices that edges leave, in the order of their first appearance. -/
def sources (ps : List (EdgePlacement α)) : List Nat := (ps.map (·.source.vertex)).eraseDups

def leaving (v : Nat) (ps : List (EdgePlacement α)) : List (EdgePlacement α) :=
  ps.filter (·.source.vertex == v)

omit [Scalar α] in
theorem leaving_append_self (ps : List (EdgePlacement α)) (p : EdgePlacement α) :
    leaving p.source.vertex (ps ++ [p]) = leaving p.source.vertex ps ++ [p] := by
  simp [leaving]

omit [Scalar α] in
theorem leaving_append_of_ne {p : EdgePlacement α} {v : Nat} (hv : p.source.vertex ≠ v)
    (ps : List (EdgePlacement α)) : leaving v (ps ++ [p]) = leaving v ps := by
  simp [leaving, hv]

omit [Scalar α] in
theorem sources_append (ps : List (EdgePlacement α)) (p : EdgePlacement α) :
    sources (ps ++ [p]) =
      if p.source.vertex ∈ sources ps then sources ps else sources ps ++ [p.source.vertex] := by
  have hconcat (vs : List Nat) (v : Nat) : (vs ++ [v]).eraseDups =
      if v ∈ vs.eraseDups then vs.eraseDups else vs.eraseDups ++ [v] := by
    rw [List.eraseDups_append, List.removeAll]
    by_cases hv : v ∈ vs <;> simp [hv, List.eraseDups_cons]
  exact (congrArg List.eraseDups (List.map_append ..)).trans (hconcat _ _)

omit [Scalar α] in
theorem leaving_eq_nil {ps : List (EdgePlacement α)} {v : Nat} (h : v ∉ sources ps) :
    leaving v ps = [] := by
  rw [sources, List.mem_eraseDups, List.mem_map, not_exists] at h
  rw [leaving, List.filter_eq_nil_iff]
  exact fun p hp hv => h p ⟨hp, beq_iff_eq.mp hv⟩

omit [Scalar α] in
theorem nodup_sources (ps : List (EdgePlacement α)) : (sources ps).Nodup := by
  induction ps using List.reverseRecOn with
  | nil => exact .nil
  | append_singleton ps p ih =>
    by_cases h : p.source.vertex ∈ sources ps
    · rwa [sources_append, if_pos h]
    · rw [sources_append, if_neg h]
      refine List.nodup_append.mpr ⟨ih, List.pairwise_singleton _ _, fun v hv w hw => ?_⟩
      rintro rfl
      exact h (List.mem_singleton.mp hw ▸ hv)

/-- Whether a fan is that of the edges that leave a vertex. -/
structure Collects (ps : List (EdgePlacement α)) (v : Nat) (f : Fan α) : Prop where
  vertex : f.source.vertex = v
  source : f.source ∈ (leaving v ps).map (·.source)
  targets : f.targets = (leaving v ps).map fun p => (p.edge, p.target)

omit [Scalar α] in
theorem Collects.append_of_ne {ps : List (EdgePlacement α)} {v : Nat} {f : Fan α}
    (h : Collects ps v f) {p : EdgePlacement α} (hv : p.source.vertex ≠ v) :
    Collects (ps ++ [p]) v f :=
  ⟨h.vertex, by rw [leaving_append_of_ne hv]; exact h.source,
    by rw [leaving_append_of_ne hv]; exact h.targets⟩

omit [Scalar α] in
/-- One more edge is added to the fan of its source, the first one of a source to a new fan. -/
theorem collects_addToFans {ps : List (EdgePlacement α)} {fans : List (Fan α)}
    (h : List.Forall₂ (Collects ps) (sources ps) fans) (p : EdgePlacement α) :
    List.Forall₂ (Collects (ps ++ [p])) (sources (ps ++ [p])) (addToFans fans p) := by
  have hvertices : sources ps = fans.map (·.source.vertex) := by
    rw [← List.forall₂_eq_eq_eq, List.forall₂_map_right_iff]
    exact h.imp fun _ _ hf => hf.vertex.symm
  have hknown : fans.any (·.source.vertex == p.source.vertex) = true ↔
      p.source.vertex ∈ sources ps := by
    simp [hvertices]
  rw [addToFans]
  split
  next hany =>
    rw [sources_append, if_pos (hknown.mp hany), List.forall₂_map_right_iff]
    refine h.imp fun v f hf => ?_
    by_cases hv : p.source.vertex = v
    · subst hv
      rw [if_pos (beq_iff_eq.mpr hf.vertex)]
      refine ⟨hf.vertex, ?_, ?_⟩
      · rw [leaving_append_self, List.map_append]
        exact List.mem_append_left _ hf.source
      · rw [leaving_append_self, List.map_append]
        exact congrArg (· ++ [(p.edge, p.target)]) hf.targets
    · rw [if_neg fun heq => hv ((beq_iff_eq.mp heq).symm.trans hf.vertex)]
      exact hf.append_of_ne hv
  -- The source is new, so the fans before are left as they are.
  next hany =>
    have hnew : p.source.vertex ∉ sources ps := fun hmem => hany (hknown.mpr hmem)
    rw [sources_append, if_neg hnew]
    refine List.rel_append ?_ (.cons ?_ .nil)
    · refine h.imp fun v f hf => hf.append_of_ne ?_
      rintro rfl
      have hsource := hf.source
      rw [leaving_eq_nil hnew] at hsource
      cases hsource
    · have hself : leaving p.source.vertex (ps ++ [p]) = [p] := by
        rw [leaving_append_self, leaving_eq_nil hnew]
        rfl
      exact ⟨rfl, by rw [hself]; exact List.mem_singleton_self _, by rw [hself]; rfl⟩

omit [Scalar α] in
theorem collects_ofPlacements (ps : List (EdgePlacement α)) :
    List.Forall₂ (Collects ps) (sources ps) (ofPlacements ps).fans := by
  induction ps using List.reverseRecOn with
  | nil => exact .nil
  | append_singleton ps p ih =>
    rw [ofPlacements, List.foldl_append]
    exact collects_addToFans ih p

def branches (n : Nat) : List Branch :=
  List.replicate (n / 2) .whenTrue ++ List.replicate (n % 2) .direct ++
    List.replicate (n / 2) .whenFalse

/-- The slots of a fan of `n` edges: as many left of the middle as right of it, and between them the
middle if the number is odd. -/
def slots (n : Nat) : List Int :=
  (List.range (n / 2)).map (fun i : Nat => (i : Int) - (n / 2 : Nat)) ++
    List.replicate (n % 2) 0 ++ (List.range (n / 2)).map fun i : Nat => (i : Int) + 1

theorem map_branchOf (n : Nat) : (List.range n).map (fun i => (slotOf n i).1) = branches n := by
  refine List.ext_getElem (by simp [branches]; omega) fun i hi _ => ?_
  simp only [List.length_map, List.length_range] at hi
  simp only [branches, slotOf, List.getElem_map, List.getElem_range, List.getElem_append,
    List.length_append, List.length_replicate, List.getElem_replicate]
  split_ifs <;> first | rfl | omega

theorem map_slotOf (n : Nat) : (List.range n).map (fun i => (slotOf n i).2) = slots n := by
  refine List.ext_getElem (by simp [slots]; omega) fun i hi _ => ?_
  simp only [List.length_map, List.length_range] at hi
  simp only [slots, slotOf, List.getElem_map, List.getElem_range, List.getElem_append,
    List.length_append, List.length_map, List.length_range, List.length_replicate,
    List.getElem_replicate]
  split_ifs <;> first | rfl | omega

theorem length_slots (n : Nat) : (slots n).length = n := by rw [← map_slotOf]; simp

theorem slots_increasing (n : Nat) : (slots n).Pairwise (· < ·) := by
  rw [← map_slotOf, List.pairwise_map]
  refine List.pairwise_lt_range.imp_of_mem fun {i j} _ hj hij => ?_
  have hj := List.mem_range.mp hj
  simp only [slotOf]
  split_ifs <;> simp only <;> omega

theorem slots_symmetric (n : Nat) : (slots n).reverse = (slots n).map (- ·) := by
  refine List.ext_getElem (by simp) fun i hi _ => ?_
  rw [List.length_reverse, length_slots] at hi
  rw [List.getElem_reverse, List.getElem_map]
  simp only [← map_slotOf, List.getElem_map, List.getElem_range, slotOf, List.length_map,
    List.length_range]
  split_ifs <;> simp only <;> omega

end EdgeRoutes

/-- Whether a route is that of a placed edge, wherever it begins. -/
structure Route.Joins {α : Type} [Scalar α] (style : EdgeStyle α) (p : EdgePlacement α)
    (r : Route α) : Prop where
  edge : r.edge = p.edge
  source : r.source = p.source.vertex
  target : r.target = p.target.vertex
  points : ∃ startX, r.points = EdgeRoutes.routeEdge style p.source p.target startX

namespace EdgeRoutes

variable {α : Type} [Scalar α] {style : EdgeStyle α}

/-- Whether placements have an order from left to right, and one drawing for each source. -/
structure Placed (ps : List (EdgePlacement α)) : Prop where
  ordered : ∀ p ∈ ps, ∀ q ∈ ps, p.target.midX ≤ q.target.midX ∨ q.target.midX ≤ p.target.midX
  sources : ∀ p ∈ ps, ∀ q ∈ ps, p.source.vertex = q.source.vertex → p.source = q.source

/-- Whether routes are those of the edges that leave one vertex: sorted by their targets, the left
half on the true branch and the right half on the false one, and begun at distances from the middle
of their source that are multiples of one step. -/
structure Fanned (style : EdgeStyle α) (group : List (EdgePlacement α)) (routes : List (Route α)) :
    Prop where
  sorted : ∃ sorted, Sorting.Sorts (fun p : EdgePlacement α => p.target.midX) group sorted ∧
    List.Forall₂ (Route.Joins style) sorted routes
  kinds : routes.map Route.kind = branches group.length
  starts : List.Forall₂ (fun k r => ∀ p ∈ group, r.points.head? =
    some ⟨p.source.midX + Scalar.ofInt k * (p.source.width * style.paddingBetweenEdges),
      p.source.bottom⟩) (slots group.length) routes

theorem Placed.midX_le {ps : List (EdgePlacement α)} (h : Placed ps) {p : EdgePlacement α}
    (hp : p ∈ ps) : p.target.midX ≤ p.target.midX :=
  (h.ordered p hp p hp).elim id id

theorem Placed.sorts {ps : List (EdgePlacement α)} (h : Placed ps) :
    Sorting.Sorts (fun p : EdgePlacement α => p.target.midX) ps
      (Sorting.sortOn (fun p => p.target.midX) ps) :=
  Sorting.sorts_sortOn fun _ => h.midX_le

/-- The routes of the edges of one group. -/
def routeGroup (style : EdgeStyle α) (group : List (EdgePlacement α)) : List (Route α) :=
  let sorted := Sorting.sortOn (fun p => p.target.midX) group
  sorted.zipIdx.map fun p =>
    let place := slotOf sorted.length p.2
    ⟨p.1.edge, p.1.source.vertex, p.1.target.vertex, place.1,
      routeEdge style p.1.source p.1.target (p.1.source.midX +
        Scalar.ofInt place.2 * (p.1.source.width * style.paddingBetweenEdges))⟩

theorem fanned_routeGroup {group : List (EdgePlacement α)} (h : Placed group)
    (hsame : ∀ p ∈ group, ∀ q ∈ group, p.source.vertex = q.source.vertex) :
    Fanned style group (routeGroup style group) := by
  have hsorts := h.sorts
  rw [routeGroup]
  generalize Sorting.sortOn (fun p : EdgePlacement α => p.target.midX) group = sorted at hsorts ⊢
  have hindexes : sorted.zipIdx.map Prod.snd = List.range sorted.length := by
    rw [List.zipIdx_map_snd, List.range_eq_range']
  refine ⟨⟨sorted, hsorts, ?_⟩, ?_, ?_⟩
  · conv => arg 2; rw [← List.zipIdx_map_fst 0 sorted]
    rw [List.forall₂_map_left_iff, List.forall₂_map_right_iff, List.forall₂_same]
    exact fun p _ => ⟨rfl, rfl, rfl, _, rfl⟩
  · rw [← hsorts.perm.length_eq, ← map_branchOf, ← hindexes, List.map_map, List.map_map]
    rfl
  · rw [← hsorts.perm.length_eq, ← map_slotOf, ← hindexes, List.map_map,
      List.forall₂_map_left_iff, List.forall₂_map_right_iff, List.forall₂_same]
    intro p hp q hq
    have hmem : p.1 ∈ group := hsorts.perm.mem_iff.mp (List.fst_mem_of_mem_zipIdx hp)
    rw [← h.sources p.1 hmem q hq (hsame p.1 hmem q hq)]
    rfl

omit [Scalar α] in
theorem mem_leaving {ps : List (EdgePlacement α)} {v : Nat} {p : EdgePlacement α} :
    p ∈ leaving v ps ↔ p ∈ ps ∧ p.source.vertex = v := by
  simp [leaving]

theorem Placed.leaving {ps : List (EdgePlacement α)} (h : Placed ps) (v : Nat) :
    Placed (leaving v ps) :=
  ⟨fun p hp q hq => h.ordered p (mem_leaving.mp hp).1 q (mem_leaving.mp hq).1,
    fun p hp q hq => h.sources p (mem_leaving.mp hp).1 q (mem_leaving.mp hq).1⟩

theorem Placed.mem_leaving_of_sorted {ps : List (EdgePlacement α)} (h : Placed ps) {v : Nat}
    {p : EdgePlacement α} {i : Nat} (hp : (p, i) ∈
      (Sorting.sortOn (fun p => p.target.midX) (EdgeRoutes.leaving v ps)).zipIdx) :
    p ∈ EdgeRoutes.leaving v ps :=
  (h.leaving v).sorts.perm.mem_iff.mp (List.fst_mem_of_mem_zipIdx hp)

/-- The fan of a vertex has the routes of the edges that leave it. -/
theorem routeFan_eq {ps : List (EdgePlacement α)} (h : Placed ps) {v : Nat} {f : Fan α}
    (hf : Collects ps v f) : routeFan style f = routeGroup style (leaving v ps) := by
  have hgroup := h.leaving v
  obtain ⟨q, hq, hsource⟩ := List.mem_map.mp hf.source
  have hsort : Sorting.sortOn (fun t : Nat × VertexDrawing α => t.2.midX)
      ((leaving v ps).map fun p => (p.edge, p.target)) =
      (Sorting.sortOn (fun p => p.target.midX) (leaving v ps)).map fun p => (p.edge, p.target) :=
    Sorting.sortOn_map fun _ => hgroup.midX_le
  -- The fan has the drawing of its first edge, which the others share.
  rw [routeFan, hf.targets, hsort, routeGroup]
  simp only [List.length_map, List.zipIdx_map, List.map_map]
  refine List.map_congr_left fun p hp => ?_
  have hp : p.1 ∈ leaving v ps := h.mem_leaving_of_sorted hp
  have hsame : p.1.source = f.source := by
    rw [← hsource]
    exact hgroup.sources p.1 hp q hq ((mem_leaving.mp hp).2.trans (mem_leaving.mp hq).2.symm)
  rw [hsame]
  rfl

theorem route_eq {ps : List (EdgePlacement α)} (h : Placed ps) :
    ((ofPlacements ps).route style).1 =
      (sources ps).flatMap fun v => routeGroup style (leaving v ps) := by
  have hfans : (sources ps).map (fun v => routeGroup style (leaving v ps)) =
      (ofPlacements ps).fans.map (routeFan style) := by
    rw [← List.forall₂_eq_eq_eq, List.forall₂_map_left_iff, List.forall₂_map_right_iff]
    exact (collects_ofPlacements ps).imp fun v f hf => (routeFan_eq h hf).symm
  rw [List.flatMap_def, hfans, ← List.flatMap_def]
  rfl

theorem fanned_leaving {ps : List (EdgePlacement α)} (h : Placed ps) (v : Nat) :
    Fanned style (leaving v ps) (routeGroup style (leaving v ps)) :=
  fanned_routeGroup (h.leaving v) fun _ hp _ hq =>
    (mem_leaving.mp hp).2.trans (mem_leaving.mp hq).2.symm

theorem Fanned.edges {group : List (EdgePlacement α)} {routes : List (Route α)}
    (h : Fanned style group routes) :
    (routes.map Route.edge).Perm (group.map EdgePlacement.edge) := by
  obtain ⟨sorted, hsorts, hjoins⟩ := h.sorted
  have hedges : routes.map Route.edge = sorted.map EdgePlacement.edge := by
    rw [← List.forall₂_eq_eq_eq, List.forall₂_map_left_iff, List.forall₂_map_right_iff]
    exact hjoins.flip.imp fun _ _ hr => hr.edge
  rw [hedges]
  exact hsorts.perm.map _

theorem route_edges {ps : List (EdgePlacement α)} (h : Placed ps) :
    (((ofPlacements ps).route style).1.map Route.edge).Perm (ps.map EdgePlacement.edge) := by
  have hgroups : ((sources ps).flatMap fun v => leaving v ps).Perm ps := by
    refine flatMap_filter_perm (nodup_sources ps) fun p hp => ?_
    rw [sources, List.mem_eraseDups]
    exact List.mem_map_of_mem hp
  rw [route_eq h, List.map_flatMap]
  refine .trans (.flatMap_left _ fun v _ => (fanned_leaving h v).edges) ?_
  rw [← List.map_flatMap]
  exact hgroups.map _

theorem source_of_mem_routeGroup {ps : List (EdgePlacement α)} (h : Placed ps) {v : Nat}
    {r : Route α} (hr : r ∈ routeGroup style (leaving v ps)) : r.source = v := by
  obtain ⟨⟨p, i⟩, hp, rfl⟩ := List.mem_map.mp hr
  exact (mem_leaving.mp (h.mem_leaving_of_sorted hp)).2

theorem filter_route {ps : List (EdgePlacement α)} (h : Placed ps) (v : Nat) :
    ((ofPlacements ps).route style).1.filter (·.source == v) =
      routeGroup style (leaving v ps) := by
  have hgroup (w : Nat) : (routeGroup style (leaving w ps)).filter (·.source == v) =
      if w = v then routeGroup style (leaving v ps) else [] := by
    split
    next hw =>
      subst hw
      exact List.filter_eq_self.mpr fun r hr => beq_iff_eq.mpr (source_of_mem_routeGroup h hr)
    next hw =>
      refine List.filter_eq_nil_iff.mpr fun r hr hv => hw ?_
      rw [← source_of_mem_routeGroup h hr, beq_iff_eq.mp hv]
  rw [route_eq h, List.filter_flatMap]
  simp only [hgroup]
  rw [flatMap_ite_eq (nodup_sources ps)]
  split
  · rfl
  next hv => simp [leaving_eq_nil hv, routeGroup, Sorting.sortOn]

theorem fanned_filter_route {ps : List (EdgePlacement α)} (h : Placed ps) (v : Nat) :
    Fanned style (leaving v ps) (((ofPlacements ps).route style).1.filter (·.source == v)) := by
  rw [filter_route h]
  exact fanned_leaving h v

/-- Where the routes of a group begin, from left to right. -/
theorem Fanned.begins {group : List (EdgePlacement α)} {routes : List (Route α)}
    (h : Fanned style group routes) {p : EdgePlacement α} (hp : p ∈ group) :
    routes.filterMap (·.points.head?) = (slots group.length).map fun k =>
      ⟨p.source.midX + Scalar.ofInt k * (p.source.width * style.paddingBetweenEdges),
        p.source.bottom⟩ := by
  have hstarts := h.starts
  clear h
  generalize slots group.length = ks at hstarts ⊢
  induction hstarts with
  | nil => rfl
  | cons first _ ih => rw [List.filterMap_cons, first p hp, ih, List.map_cons]

theorem Fanned.ascending {style : EdgeStyle ℚ} {group : List (EdgePlacement ℚ)}
    {routes : List (Route ℚ)} (h : Fanned style group routes)
    (hstep : ∀ p ∈ group, 0 < p.source.width * style.paddingBetweenEdges) :
    (routes.filterMap (·.points.head?)).Pairwise fun p q => p.x < q.x := by
  rcases List.eq_nil_or_concat group with hnil | ⟨rest, p, hgroup⟩
  · have hlength := h.starts.length_eq
    rw [length_slots, hnil] at hlength
    rw [List.eq_nil_of_length_eq_zero hlength.symm]
    exact .nil
  · have hp : p ∈ group := by simp [hgroup]
    rw [h.begins hp, List.pairwise_map]
    refine (slots_increasing group.length).imp fun {k l} hkl => ?_
    have hcast : (k : ℚ) < l := by exact_mod_cast hkl
    exact add_lt_add_right (mul_lt_mul_of_pos_right hcast (hstep p hp)) _

/-- Every edge is routed once, in groups by source in the order of first appearance. The routes of a
group are sorted by their targets, branch as `branches` says, and begin at slots that increase from
left to right and lie on both sides of the middle alike. Targets that are not one below the other
make a group independent of the order in which its edges are placed. -/
theorem route_fans (style : EdgeStyle α) {ps : List (EdgePlacement α)} (h : Placed ps) :
    let routes (ps : List (EdgePlacement α)) := ((ofPlacements ps).route style).1
    ((routes ps).map Route.edge).Perm (ps.map EdgePlacement.edge) ∧
      (∃ groups : List (List (Route α)), routes ps = groups.flatten ∧
        List.Forall₂ (fun v => Fanned style (leaving v ps)) (sources ps) groups) ∧
      (∀ n, (slots n).Pairwise (· < ·) ∧ (slots n).reverse = (slots n).map (- ·)) ∧
      (∀ (style : EdgeStyle ℚ) group routes, Fanned style group routes →
        (∀ p ∈ group, 0 < p.source.width * style.paddingBetweenEdges) →
        (routes.filterMap (·.points.head?)).Pairwise fun p q => p.x < q.x) ∧
      ∀ qs, Placed qs → ∀ v, (leaving v qs).Perm (leaving v ps) →
        ((leaving v ps).Pairwise fun p q =>
          p.target.midX < q.target.midX ∨ q.target.midX < p.target.midX) →
        (routes qs).filter (·.source == v) = (routes ps).filter (·.source == v) := by
  intro routes
  refine ⟨route_edges h, ⟨_, (route_eq h).trans (List.flatMap_def ..), ?_⟩,
    fun n => ⟨slots_increasing n, slots_symmetric n⟩, fun _ _ _ hf => hf.ascending,
    fun qs hqs v hperm hdistinct => ?_⟩
  · rw [List.forall₂_map_right_iff, List.forall₂_same]
    exact fun v _ => fanned_leaving h v
  · rw [filter_route h, filter_route hqs, routeGroup, routeGroup,
      (h.leaving v).sorts.unique (hqs.leaving v).sorts hperm hdistinct]

theorem placed_of_boxes {ps : List (EdgePlacement ℚ)} (box : Nat → VertexDrawing ℚ)
    (h : ∀ p ∈ ps, p.source = box p.source.vertex) : Placed ps :=
  ⟨fun _ _ _ _ => le_total _ _, fun p hp q hq hsame => by rw [h p hp, h q hq, hsame]⟩

/-- The box of a vertex in the examples: 100 wide, and below and right of the one before. -/
def box (v : Nat) : VertexDrawing ℚ := ⟨v, 200 * v, 100 * v, 100, 50, []⟩

/-- A fan of three edges around one of two, the edges of both in turn. -/
def interleaved : List (EdgePlacement ℚ) :=
  [(0, 7), (1, 4), (0, 2), (1, 3), (0, 5)].zipIdx.map fun e => ⟨e.2, box e.1.1, box e.1.2⟩

theorem placed_interleaved : Placed interleaved :=
  placed_of_boxes box (by
    intro p hp
    obtain ⟨e, -, rfl⟩ := List.mem_map.mp hp
    rfl)

theorem interleaved_fans :
    let routes (ps : List (EdgePlacement ℚ)) := ((ofPlacements ps).route .standard).1
    (Placed interleaved ∧ Placed interleaved.reverse) ∧
      ((routes interleaved).map Route.edge).Perm [0, 1, 2, 3, 4] ∧
      (∃ groups : List (List (Route ℚ)), routes interleaved = groups.flatten ∧
        List.Forall₂ (fun v => Fanned .standard (leaving v interleaved)) [0, 1] groups) ∧
      (routes interleaved.reverse).filter (·.source == 0) =
        (routes interleaved).filter (·.source == 0) := by
  intro routes
  have hplaced := placed_interleaved
  have hreversed : Placed interleaved.reverse :=
    ⟨by simpa using hplaced.ordered, by simpa using hplaced.sources⟩
  obtain ⟨hedges, hgroups, -, -, hsame⟩ := route_fans .standard hplaced
  refine ⟨⟨hplaced, hreversed⟩, hedges, hgroups, hsame _ hreversed 0 ?_ (by decide +kernel)⟩
  rw [leaving, List.filter_reverse]
  exact List.reverse_perm _

end EdgeRoutes

namespace VertexDrawing

/-- Whether a point is on the bottom side of a box, corners included. -/
def OnBottom (d : VertexDrawing ℚ) (p : Point ℚ) : Prop :=
  p.y = d.bottom ∧ d.x ≤ p.x ∧ p.x ≤ d.right

theorem onBottom_iff {d : VertexDrawing ℚ} (h : 0 < d.width) (share : ℚ) :
    d.OnBottom ⟨d.midX + share * d.width, d.bottom⟩ ↔ |share| ≤ 1 / 2 := by
  have hmiddle : d.midX = d.x + 1 / 2 * d.width := by
    rw [midX, Exact.two]
    ring
  have hright : d.right = d.x + d.width := rfl
  have hscale (a b : ℚ) : a ≤ b ↔ a * d.width ≤ b * d.width := (mul_le_mul_iff_left₀ h).symm
  rw [OnBottom, abs_le, hscale (-(1 / 2)), hscale share, hmiddle, hright]
  constructor
  · rintro ⟨-, hfirst, hlast⟩
    exact ⟨by linarith, by linarith⟩
  · rintro ⟨hfirst, hlast⟩
    exact ⟨rfl, by linarith, by linarith⟩

end VertexDrawing

def Route.Leaves (d : VertexDrawing ℚ) (r : Route ℚ) : Prop :=
  ∃ start, r.points.head? = some start ∧ d.OnBottom start

namespace EdgeRoutes

theorem mem_slots {n : Nat} {k : Int} :
    k ∈ slots n ↔ |k| ≤ (n / 2 : Nat) ∧ (k = 0 → n % 2 = 1) := by
  simp only [slots, List.mem_append, List.mem_map, List.mem_range, List.mem_replicate, abs_le]
  constructor
  · rintro ((⟨i, hi, rfl⟩ | ⟨hodd, rfl⟩) | ⟨i, hi, rfl⟩) <;> omega
  · rintro ⟨⟨hleft, hright⟩, hmiddle⟩
    rcases lt_trichotomy k 0 with hk | rfl | hk
    · exact .inl (.inl ⟨(k + (n / 2 : Nat)).toNat, by omega, by omega⟩)
    · exact .inl (.inr ⟨by omega, rfl⟩)
    · exact .inr ⟨(k - 1).toNat, by omega, by omega⟩

/-- Ten slots of the standard style reach from the middle to a corner. -/
theorem slots_standard (k : Int) :
    |(k : ℚ) * EdgeStyle.standard.paddingBetweenEdges| ≤ 1 / 2 ↔ |k| ≤ 10 := by
  have hshare : (EdgeStyle.standard : EdgeStyle ℚ).paddingBetweenEdges = 1 / 20 := by
    change @OfScientific.ofScientific ℚ Scalar.toOfScientific 5 true 2 = _
    rw [Exact.literal]
    norm_num
  have hcast : |k| ≤ 10 ↔ |(k : ℚ)| ≤ 10 := by
    rw [← Int.cast_abs]
    exact_mod_cast Iff.rfl
  rw [hshare, abs_mul, hcast, abs_of_pos (by norm_num : (0 : ℚ) < 1 / 20)]
  constructor <;> intro hle <;> linarith

theorem slots_within_iff (n : Nat) : (∀ k ∈ slots n, |k| ≤ 10) ↔ n ≤ 21 := by
  simp only [mem_slots]
  refine ⟨fun h => ?_, fun hn k hk => hk.1.trans (by omega)⟩
  by_contra hn
  have hlast := h (n / 2 : Nat) ⟨(abs_of_nonneg (Int.natCast_nonneg _)).le, by omega⟩
  rw [abs_of_nonneg (Int.natCast_nonneg _)] at hlast
  omega

/-- A route leaves the box of its source if its slot is not beyond a corner. -/
theorem Fanned.leaves_iff {style : EdgeStyle ℚ} {group : List (EdgePlacement ℚ)}
    {routes : List (Route ℚ)} (h : Fanned style group routes) {p : EdgePlacement ℚ}
    (hp : p ∈ group) (hwidth : 0 < p.source.width) :
    List.Forall₂
      (fun (k : Int) r => r.Leaves p.source ↔ |(k : ℚ) * style.paddingBetweenEdges| ≤ 1 / 2)
      (slots group.length) routes := by
  refine h.starts.imp fun k r hstart => ?_
  have hfirst := hstart p hp
  rw [← VertexDrawing.onBottom_iff hwidth, Route.Leaves, hfirst]
  simp only [Option.some.injEq, exists_eq_left']
  rw [mul_assoc, mul_comm style.paddingBetweenEdges]
  rfl

theorem standard_leaves_iff {ps : List (EdgePlacement ℚ)} (h : Placed ps) {p : EdgePlacement ℚ}
    (hp : p ∈ ps) (hwidth : 0 < p.source.width) :
    List.Forall₂ (fun k r => r.Leaves p.source ↔ |k| ≤ 10)
      (slots (leaving p.source.vertex ps).length)
      (((ofPlacements ps).route .standard).1.filter (·.source == p.source.vertex)) :=
  ((fanned_filter_route h _).leaves_iff (mem_leaving.mpr ⟨hp, rfl⟩) hwidth).imp
    fun k _ hr => hr.trans (slots_standard k)

theorem forall_mem_iff {β γ : Type} {P : β → Prop} {Q : γ → Prop} {xs : List β} {ys : List γ}
    (h : List.Forall₂ (fun x y => P x ↔ Q y) xs ys) : (∀ x ∈ xs, P x) ↔ ∀ y ∈ ys, Q y := by
  induction h with
  | nil => simp
  | cons hfirst _ ih => rw [List.forall_mem_cons, List.forall_mem_cons, hfirst, ih]

/-- With the standard style, an edge leaves the bottom side of its source if its slot is one of the
ten next to the middle. So all edges of a vertex do if they are at most twenty-one. -/
theorem route_leaves {ps : List (EdgePlacement ℚ)} (h : Placed ps) {p : EdgePlacement ℚ}
    (hp : p ∈ ps) (hwidth : 0 < p.source.width) :
    let edges := (leaving p.source.vertex ps).length
    let routes := ((ofPlacements ps).route .standard).1.filter (·.source == p.source.vertex)
    (∀ r ∈ routes, ∃ x, r.points.head? = some ⟨x, p.source.bottom⟩) ∧
      List.Forall₂ (fun k r => r.Leaves p.source ↔ |k| ≤ 10) (slots edges) routes ∧
      ((∀ r ∈ routes, r.Leaves p.source) ↔ edges ≤ 21) := by
  intro edges routes
  have hleaves := standard_leaves_iff h hp hwidth
  refine ⟨?_, hleaves, ?_⟩
  · have hstarts : List.Forall₂
        (fun _ r => True ↔ ∃ x, r.points.head? = some ⟨x, p.source.bottom⟩) (slots edges) routes :=
      (fanned_filter_route h p.source.vertex).starts.imp fun k r hr =>
        iff_of_true trivial ⟨_, hr p (mem_leaving.mpr ⟨hp, rfl⟩)⟩
    exact (forall_mem_iff hstarts).mp fun _ _ => trivial
  · rw [← slots_within_iff, forall_mem_iff (hleaves.imp fun _ _ hr => hr.symm)]

def wide (edges : Nat) : List (EdgePlacement ℚ) :=
  (List.range edges).map fun i => ⟨i, box 0, box (i + 1)⟩

theorem placed_wide (edges : Nat) : Placed (wide edges) :=
  placed_of_boxes box (by
    intro p hp
    obtain ⟨i, -, rfl⟩ := List.mem_map.mp hp
    rfl)

theorem leaving_wide (edges : Nat) : (leaving 0 (wide edges)).length = edges := by
  have hall : leaving 0 (wide edges) = wide edges := by
    refine List.filter_eq_self.mpr fun p hp => ?_
    obtain ⟨i, -, rfl⟩ := List.mem_map.mp hp
    rfl
  rw [hall, wide, List.length_map, List.length_range]

/-- The outer ones of twenty-one edges leave the corners of their box. -/
theorem wide_leaves :
    let p : EdgePlacement ℚ := ⟨0, box 0, box 1⟩
    (Placed (wide 21) ∧ p ∈ wide 21 ∧ 0 < p.source.width) ∧
      ∀ r ∈ ((ofPlacements (wide 21)).route .standard).1.filter (·.source == 0),
        r.Leaves (box 0) := by
  intro p
  have hp : p ∈ wide 21 := List.mem_map.mpr ⟨0, by decide, rfl⟩
  have hwidth : 0 < p.source.width := by decide +kernel
  obtain ⟨-, -, hall⟩ := route_leaves (placed_wide 21) hp hwidth
  exact ⟨⟨placed_wide 21, hp, hwidth⟩, hall.mpr (leaving_wide 21).le⟩

/-- The outer ones of twenty-two edges begin beside their box. -/
theorem wider_misses :
    let p : EdgePlacement ℚ := ⟨0, box 0, box 1⟩
    (Placed (wide 22) ∧ p ∈ wide 22 ∧ 0 < p.source.width) ∧
      ¬∀ r ∈ ((ofPlacements (wide 22)).route .standard).1.filter (·.source == 0),
        r.Leaves (box 0) := by
  intro p
  have hp : p ∈ wide 22 := List.mem_map.mpr ⟨0, by decide, rfl⟩
  have hwidth : 0 < p.source.width := by decide +kernel
  have hleaves := standard_leaves_iff (placed_wide 22) hp hwidth
  refine ⟨⟨placed_wide 22, hp, hwidth⟩, fun hall => ?_⟩
  have hcount : (leaving 0 (wide 22)).length ≤ 21 :=
    (slots_within_iff _).mp ((forall_mem_iff hleaves.flip).mp hall)
  rw [leaving_wide] at hcount
  exact absurd hcount (by decide)

end EdgeRoutes

end DebugDesk
