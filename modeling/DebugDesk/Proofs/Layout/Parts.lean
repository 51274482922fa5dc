import Mathlib.Data.List.Nodup
import DebugDesk.Effect
import DebugDesk.Layout.Placed

/-!
# The parts of a layout

The parts of a graph share its vertices out among them, so a layout has one box for each identifier
and no other.
-/
namespace DebugDesk.Layout

theorem flatten_map_perm {f : List Int → List Int} (hf : ∀ g, (f g).Perm g)
    (groups : List (List Int)) : (groups.map f).flatten.Perm groups.flatten := by
  induction groups with
  | nil => exact .refl _
  | cons g groups ih => exact (hf g).append ih

theorem components_flatten_perm (groups : List (List Int)) :
    (components groups).flatten.Perm groups.flatten :=
  (List.mergeSort_perm _ _).flatten.trans
    (flatten_map_perm (fun g => List.mergeSort_perm g _) groups)

theorem mem_components {groups : List (List Int)} {a : List Int} (h : a ∈ components groups) :
    ∃ g ∈ groups, ascending g = a :=
  List.mem_map.mp ((List.mergeSort_perm _ _).mem_iff.mp h)

theorem pairwise_mergeSort_key {β : Type} (key : β → Int) (xs : List β) :
    (xs.mergeSort fun a b => key a ≤ key b).Pairwise fun a b => key a ≤ key b := by
  have h := @List.pairwise_mergeSort β fun a b => decide (key a ≤ key b)
  simp only [decide_eq_true_eq, Bool.or_eq_true] at h
  exact h (fun _ _ _ => Int.le_trans) (fun a b => Int.le_total (key a) (key b)) xs

/-- The least identifier of the first group is less than all of the second group. -/
def Precedes (a b : List Int) : Prop := ∃ id ∈ a, (∀ id' ∈ a, id ≤ id') ∧ ∀ id' ∈ b, id < id'

theorem ascending_ne_nil {g : List Int} (h : g ≠ []) : ascending g ≠ [] := by
  rw [ne_eq, ← List.length_eq_zero_iff, ascending, List.length_mergeSort, List.length_eq_zero_iff]
  exact h

theorem headD_ascending {g : List Int} (h : g ≠ []) :
    (ascending g).headD 0 ∈ ascending g ∧ ∀ id ∈ ascending g, (ascending g).headD 0 ≤ id := by
  have hsorted : (ascending g).Pairwise (· ≤ ·) := pairwise_mergeSort_key id g
  cases ha : ascending g with
  | nil => exact absurd ha (ascending_ne_nil h)
  | cons first rest =>
    rw [ha] at hsorted
    refine ⟨List.mem_cons_self, fun id hid => ?_⟩
    rcases List.mem_cons.mp hid with rfl | hid
    · exact Int.le_refl _
    · exact List.rel_of_pairwise_cons hsorted hid

/-- The parts are taken in the order of their least identifiers. -/
theorem components_pairwise {groups : List (List Int)} (hne : ∀ g ∈ groups, g ≠ [])
    (hd : groups.flatten.Nodup) : (components groups).Pairwise Precedes := by
  have hheads : (components groups).Pairwise fun a b => a.headD 0 ≤ b.headD 0 :=
    pairwise_mergeSort_key (fun g : List Int => g.headD 0) _
  have hdisjoint := (List.nodup_flatten.mp ((components_flatten_perm groups).nodup_iff.mpr hd)).2
  refine (hheads.and hdisjoint).imp_of_mem fun {a b} ha hb hab => ?_
  obtain ⟨hle, hab⟩ := hab
  obtain ⟨ga, hga, rfl⟩ := mem_components ha
  obtain ⟨gb, hgb, rfl⟩ := mem_components hb
  obtain ⟨hamem, hamin⟩ := headD_ascending (hne ga hga)
  obtain ⟨-, hbmin⟩ := headD_ascending (hne gb hgb)
  refine ⟨_, hamem, hamin, fun id hid => ?_⟩
  have hlt := hbmin id hid
  have hne : (ascending ga).headD 0 ≠ id := fun h => hab hamem (h ▸ hid)
  omega

variable {α : Type} [Scalar α]

theorem keys_placeAll {engine : ComponentEngine α} {cs : List (Component α)} {row done : Row α}
    (h : placeAll engine row cs = .ok done) :
    done.boxes.map Prod.fst = row.boxes.map Prod.fst ++ cs.flatMap Component.vertices := by
  induction cs generalizing row with
  | nil =>
    obtain rfl : row = done := Except.ok.inj h
    simp
  | cons c cs ih =>
    unfold placeAll at h
    cases he : engine c with
    | error fault => simp [he] at h
    | ok place =>
      rw [he] at h
      rw [ih h]
      simp [Row.push, Function.comp_def]

omit [Scalar α] in
theorem map_parts (sizeOf : Int → Size α) (nodeSpacing rankSpacing : α) (root : Option Int)
    (groups : List (List Int)) (edges : List (Int × Int)) :
    (parts sizeOf nodeSpacing rankSpacing root groups edges).map Component.vertices =
      components groups := by
  rw [parts, List.map_map]
  exact List.map_id _

theorem eraseDups_of_nodup {ids : List Int} (hd : ids.Nodup) : ids.eraseDups = ids := by
  induction ids with
  | nil => rfl
  | cons id ids ih =>
    have hfilter : (ids.filter fun x => !x == id) = ids := by
      apply List.filter_eq_self.mpr
      intro x hx
      have hne : x ≠ id := fun h => (List.nodup_cons.mp hd).1 (h ▸ hx)
      simp [hne]
    rw [List.eraseDups_cons, hfilter, ih hd.of_cons]

theorem nodup_eraseDups (ids : List Int) : ids.eraseDups.Nodup := by
  cases ids with
  | nil => exact .nil
  | cons id ids =>
    rw [List.eraseDups_cons, List.nodup_cons]
    exact ⟨by simp, nodup_eraseDups (ids.filter fun x => !x == id)⟩
termination_by ids.length
decreasing_by exact Nat.lt_succ_of_le (List.length_filter_le _ _)

theorem flatMap_partsOf {group : Grouping} (hgroup : Partitions group) (g : Graph)
    (sizes : Sizes α) (nodeSpacing rankSpacing : α) (edges : List (Int × Int)) :
    ((partsOf group g sizes nodeSpacing rankSpacing edges).flatMap Component.vertices).Perm
      (g.vertices.map Vertex.id).eraseDups := by
  rw [partsOf, List.flatMap_def, map_parts]
  exact (components_flatten_perm _).trans (hgroup.perm (nodup_eraseDups _) edges)

/-- An end of an edge is in another graph. -/
def Leaves (e : Edge) : Prop :=
  (∃ number id, e.source = .outside number id) ∨ ∃ number id, e.target = .outside number id

/-- The edges that a layout takes are edges between vertices of the graph. -/
theorem inside_of_plainEdges {g : Graph} {edges : List Edge} {done plain : List (Int × Int)}
    (h : plainEdges g edges done = .ok plain) :
    ∀ e ∈ edges, ∃ i j, e.source = .inside i ∧ e.target = .inside j := by
  induction edges generalizing done with
  | nil => exact nofun
  | cons e edges ih =>
    unfold plainEdges at h
    split at h
    next i j hi hj =>
      rintro e' (_ | ⟨_, he'⟩)
      · exact ⟨i, j, hi, hj⟩
      · exact ih h e' he'
    next => exact nomatch h

theorem leaves_of_plainEdges {g : Graph} {edges : List Edge} {done : List (Int × Int)}
    {fault : Fault} (h : plainEdges g edges done = .error fault) :
    ∃ e ∈ edges, Leaves e ∧ fault = .edgeLeavesGraph (g.edgeSummary e) := by
  induction edges generalizing done with
  | nil => simp [plainEdges] at h
  | cons e edges ih =>
    unfold plainEdges at h
    split at h
    next i j hi hj =>
      obtain ⟨e', he', hleaves⟩ := ih h
      exact ⟨e', List.mem_cons_of_mem _ he', hleaves⟩
    next hends =>
      refine ⟨e, List.mem_cons_self, ?_, (Except.error.inj h).symm⟩
      cases hs : e.source with
      | outside number id => exact .inl ⟨number, id, hs⟩
      | inside i =>
        cases ht : e.target with
        | outside number id => exact .inr ⟨number, id, ht⟩
        | inside j => exact absurd ht (hends i j hs)

theorem fails_of_placeAll {engine : ComponentEngine α} {cs : List (Component α)} {row : Row α}
    {fault : Fault} (h : placeAll engine row cs = .error fault) :
    fault = .engineFailed ∧ ∃ c ∈ cs, ∃ reason, engine c = .error reason := by
  induction cs generalizing row with
  | nil => simp [placeAll] at h
  | cons c cs ih =>
    unfold placeAll at h
    cases he : engine c with
    | error reason =>
      rw [he] at h
      exact ⟨(Except.error.inj h).symm, c, List.mem_cons_self, reason, he⟩
    | ok place =>
      rw [he] at h
      obtain ⟨hfault, d, hd, hreason⟩ := ih h
      exact ⟨hfault, d, List.mem_cons_of_mem _ hd, hreason⟩

theorem answers_of_placeAll {engine : ComponentEngine α} {cs : List (Component α)}
    {row done : Row α}
    (h : placeAll engine row cs = .ok done) : ∀ c ∈ cs, ∃ place, engine c = .ok place := by
  induction cs generalizing row with
  | nil => simp
  | cons c cs ih =>
    unfold placeAll at h
    cases he : engine c with
    | error reason => simp [he] at h
    | ok place =>
      rw [he] at h
      exact List.forall_mem_cons.mpr ⟨⟨place, he⟩, ih h⟩

section Outcomes

variable (group : Grouping) (engine : ComponentEngine α) (g : Graph) (sizes : Sizes α)
  (nodeSpacing rankSpacing : α)

/-- Why a graph is not laid out. -/
inductive Refused : Fault → Prop
  | unnumbered {v : Vertex} (mem : v ∈ g.vertices) (unnumbered : v.id = unassigned) :
      Refused .unnumberedVertices
  | unsized {v : Vertex} (mem : v ∈ g.vertices) (unsized : sizes.lookup v.id = none) :
      Refused (.unsizedVertex v.id)
  | leaving {e : Edge} (inhabited : g.vertices ≠ []) (mem : e ∈ g.edges) (leaves : Leaves e) :
      Refused (.edgeLeavesGraph (g.edgeSummary e))
  | failing {edges : List (Int × Int)} {c : Component α} {reason : Fault}
      (inhabited : g.vertices ≠ []) (plain : plainEdges g g.edges [] = .ok edges)
      (mem : c ∈ partsOf group g sizes nodeSpacing rankSpacing edges)
      (fails : engine c = .error reason) : Refused .engineFailed

/-- How laying out a graph ends. -/
inductive Ends : Except Fault (Layout α) → Prop
  | refused {fault : Fault} (refused : Refused group engine g sizes nodeSpacing rankSpacing fault) :
      Ends (.error fault)
  | bare (bare : g.vertices = []) : Ends (.ok ⟨[], 0.0, 0.0⟩)
  | placed {edges : List (Int × Int)} {row : Row α} (numbered : ∀ v ∈ g.vertices, v.id ≠ unassigned)
      (inhabited : g.vertices ≠ []) (sized : ∀ v ∈ g.vertices, sizes.lookup v.id ≠ none)
      (plain : plainEdges g g.edges [] = .ok edges)
      (laid : placeAll engine ⟨[], 0.0, 0.0⟩
        (partsOf group g sizes nodeSpacing rankSpacing edges) = .ok row) :
      Ends (.ok ⟨row.boxes, Scalar.greater (row.offset - nodeSpacing) 0.0, row.height⟩)

theorem ofGraphBy_ends : Ends group engine g sizes nodeSpacing rankSpacing
    (ofGraphBy group engine g sizes nodeSpacing rankSpacing) := by
  by_cases hint : g.verifyIntegrity = true
  · have hnumbered : ∀ v ∈ g.vertices, v.id ≠ unassigned := by
      simpa [Graph.verifyIntegrity] using hint
    by_cases hempty : g.vertices = []
    · simp only [ofGraphBy, hint, hempty, Bool.not_true, Bool.false_eq_true, ↓reduceIte,
        List.isEmpty_nil]
      exact .bare hempty
    · have hsome : g.vertices.isEmpty = false := by simpa using hempty
      simp only [ofGraphBy, hint, hsome, Bool.not_true, Bool.false_eq_true, ↓reduceIte]
      split
      next id hid =>
        obtain ⟨v, hv, rfl⟩ := List.mem_map.mp (List.mem_of_find?_eq_some hid)
        exact .refused (.unsized hv (by simpa using List.find?_some hid))
      next hsized =>
        cases hplain : plainEdges g g.edges [] with
        | error fault =>
          obtain ⟨e, he, hleaves, rfl⟩ := leaves_of_plainEdges hplain
          exact .refused (.leaving hempty he hleaves)
        | ok edges =>
          rw [Effect.ok_bind]
          cases hlaid : placeAll engine ⟨[], 0.0, 0.0⟩
              (partsOf group g sizes nodeSpacing rankSpacing edges) with
          | error fault =>
            obtain ⟨rfl, c, hc, reason, hreason⟩ := fails_of_placeAll hlaid
            exact .refused (.failing hempty hplain hc hreason)
          | ok row =>
            refine .placed hnumbered hempty ?_ hplain hlaid
            simpa using hsized
  · have hfalse : g.verifyIntegrity = false := by simpa using hint
    obtain ⟨v, hv, hid⟩ : ∃ v ∈ g.vertices, v.id = unassigned := by
      simpa [Graph.verifyIntegrity] using hfalse
    simp only [ofGraphBy, hfalse, Bool.not_false, ↓reduceIte]
    exact .refused (.unnumbered hv hid)

/-- Laying out a graph fails exactly if there is a reason to refuse it. -/
theorem ofGraphBy_error_iff :
    (∃ fault, ofGraphBy group engine g sizes nodeSpacing rankSpacing = .error fault) ↔
      ∃ fault, Refused group engine g sizes nodeSpacing rankSpacing fault := by
  have hends := ofGraphBy_ends group engine g sizes nodeSpacing rankSpacing
  cases hr : ofGraphBy group engine g sizes nodeSpacing rankSpacing with
  | error fault =>
    rw [hr] at hends
    cases hends with
    | refused hrefused => exact ⟨fun _ => ⟨fault, hrefused⟩, fun _ => ⟨fault, rfl⟩⟩
  | ok l =>
    refine ⟨by simp, ?_⟩
    rintro ⟨fault, hrefused⟩
    rw [hr] at hends
    cases hends with
    | bare hempty =>
      cases hrefused with
      | unnumbered mem | unsized mem => simp [hempty] at mem
      | leaving inhabited | failing inhabited => exact absurd hempty inhabited
    | @placed edges row numbered inhabited sized plain laid =>
      cases hrefused with
      | unnumbered mem unnumbered => exact absurd unnumbered (numbered _ mem)
      | unsized mem unsized => exact absurd unsized (sized _ mem)
      | @leaving e _ mem leaves =>
        obtain ⟨i, j, hi, hj⟩ := inside_of_plainEdges plain e mem
        simp [Leaves, hi, hj] at leaves
      | @failing edges' c reason _ plain' mem fails =>
        cases plain.symm.trans plain'
        obtain ⟨place, hplace⟩ := answers_of_placeAll laid c mem
        rw [hplace] at fails
        cases fails

end Outcomes

/-- What a layout that is made has: a box for each identifier, and only edges inside the graph,
unless there is nothing to lay out. -/
theorem ofGraph_ok {engine : LayoutEngine α} {g : Graph} {sizes : Sizes α}
    {nodeSpacing rankSpacing : α} {l : Layout α} (hd : (g.vertices.map Vertex.id).Nodup)
    (h : ofGraph engine g sizes nodeSpacing rankSpacing = .ok l) :
    (l.boxes.map Prod.fst).Perm (g.vertices.map Vertex.id) ∧
      (g.vertices ≠ [] →
        ∀ e ∈ g.edges, ∃ i j, e.source = .inside i ∧ e.target = .inside j) := by
  have hends := ofGraphBy_ends engine.group engine.place g sizes nodeSpacing rankSpacing
  rw [← ofGraph, h] at hends
  cases hends with
  | bare hempty =>
    rw [hempty]
    exact ⟨.nil, fun hne => absurd rfl hne⟩
  | @placed edges row numbered inhabited sized plain laid =>
    refine ⟨?_, fun _ => inside_of_plainEdges plain⟩
    have hkeys := flatMap_partsOf engine.partitions g sizes nodeSpacing rankSpacing edges
    rw [eraseDups_of_nodup hd] at hkeys
    rw [keys_placeAll laid]
    exact hkeys

/-- Parts that the engine answers for become a layout. -/
theorem ofGraph_of_placed {engine : LayoutEngine α} {g : Graph} {sizes : Sizes α}
    {nodeSpacing rankSpacing : α} {edges : List (Int × Int)} {cs : List (Component α)} {row : Row α}
    (numbered : g.verifyIntegrity = true) (inhabited : g.vertices.isEmpty = false)
    (sized : ((g.vertices.map Vertex.id).find? fun id => (sizes.lookup id).isNone) = none)
    (plain : plainEdges g g.edges [] = .ok edges)
    (parts : partsOf engine.group g sizes nodeSpacing rankSpacing edges = cs)
    (laid : placeAll engine.place ⟨[], 0.0, 0.0⟩ cs = .ok row) :
    ofGraph engine g sizes nodeSpacing rankSpacing =
      .ok ⟨row.boxes, Scalar.greater (row.offset - nodeSpacing) 0.0, row.height⟩ := by
  simp only [ofGraph, ofGraphBy, numbered, inhabited, Bool.not_true, Bool.false_eq_true,
    ↓reduceIte, sized, plain, Effect.ok_bind, parts, laid]
  rfl

def alone (id : Int) (size : Size α) (nodeSpacing rankSpacing : α) : Component α :=
  ⟨[id], [], sizeIn [(id, size)], [id], nodeSpacing, rankSpacing⟩

omit [Scalar α] in
/-- There is only one way to cut a single vertex into groups. -/
theorem Partitions.singleton {group : Grouping} (h : Partitions group) (id : Int) :
    group [id] [] = [[id]] := by
  have hflat := List.perm_singleton.mp (h.perm (List.nodup_singleton id) [])
  have hne := h.inhabited (List.nodup_singleton id) []
  cases hg : group [id] [] with
  | nil => simp [hg] at hflat
  | cons first rest =>
    rw [hg] at hflat hne
    obtain ⟨hfirst, hrest⟩ := List.forall_mem_cons.mp hne
    cases first with
    | nil => exact absurd rfl hfirst
    | cons x xs =>
      obtain ⟨rfl, hnil⟩ := List.cons.inj hflat
      obtain ⟨rfl, hempty⟩ := List.append_eq_nil_iff.mp hnil
      cases rest with
      | nil => rfl
      | cons g gs =>
        have hg : g = [] := List.flatten_eq_nil_iff.mp hempty g List.mem_cons_self
        exact absurd hg (hrest g List.mem_cons_self)

theorem ofGraph_alone {engine : LayoutEngine α} {x : Vertex} (hx : x.id ≠ unassigned)
    (provider : ContentProvider) {size : Size α} {nodeSpacing rankSpacing : α}
    {place : Int → Placement α}
    (answered : engine.place (alone x.id size nodeSpacing rankSpacing) = .ok place) :
    let row := Row.push ⟨[], 0.0, 0.0⟩ (alone x.id size nodeSpacing rankSpacing) place
    ofGraph engine ⟨[x], [], none, provider⟩ [(x.id, size)] nodeSpacing rankSpacing =
      .ok ⟨row.boxes, Scalar.greater (row.offset - nodeSpacing) 0.0, row.height⟩ := by
  have hdups : [x.id].eraseDups = [x.id] := eraseDups_of_nodup (List.nodup_singleton x.id)
  have hgroups : components (engine.group [x.id] []) = [[x.id]] := by
    simp [engine.partitions.singleton, components, ascending]
  have hparts : partsOf engine.group ⟨[x], [], none, provider⟩ [(x.id, size)] nodeSpacing
      rankSpacing [] = [alone x.id size nodeSpacing rankSpacing] := by
    simp only [partsOf, parts, List.map_cons, List.map_nil, hdups, hgroups]
    simp [alone, roots, Graph.root?, Graph.idOf]
  refine ofGraph_of_placed (by simpa [Graph.verifyIntegrity] using hx) rfl (by simp) rfl hparts ?_
  rw [placeAll, answered]
  rfl

end DebugDesk.Layout
