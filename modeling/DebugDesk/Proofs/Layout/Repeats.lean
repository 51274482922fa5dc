import DebugDesk.Layout.Sugiyama
import DebugDesk.Proofs.Layout.Parts

/-!
# Self-loops and repeated edges

A layout depends on the edges of a graph only through the first of each pair of different ends, in
order. So it makes no difference where loops are put in, or repeats of edges that came before.
-/
namespace DebugDesk

/-- The first edge of each pair of different ends. -/
def Graph.firstEdges (edges : List Edge) : List Edge := (edges.filter (!·.isSelfLoop)).eraseDups

namespace Layout

/-- Edges into which loops are put anywhere, and repeats after an edge that they repeat. -/
inductive Padded : List Edge → List Edge → Prop
  | refl (edges : List Edge) : Padded edges edges
  | loop {edges before after : List Edge} (padded : Padded edges (before ++ after)) (i : Nat) :
      Padded edges (before ++ ⟨.inside i, .inside i⟩ :: after)
  | again {edges before after : List Edge} (padded : Padded edges (before ++ after)) {e : Edge}
      (mem : e ∈ before) : Padded edges (before ++ e :: after)

variable {g : Graph} {taken : List (Int × Int)} {e : Edge} {rest : List Edge}

/-- An edge that a layout need not take: a loop, or an edge whose ends were taken. -/
def Spare (g : Graph) (taken : List (Int × Int)) (e : Edge) : Prop :=
  ¬ Leaves e ∧ (e.isSelfLoop = true ∨ (g.idOf e.source, g.idOf e.target) ∈ taken)

theorem inside_of_not_leaves (h : ¬ Leaves e) : ∃ i j, e = ⟨.inside i, .inside j⟩ := by
  obtain ⟨source, target⟩ := e
  cases source with
  | outside number id => exact absurd (.inl ⟨number, id, rfl⟩) h
  | inside i =>
    cases target with
    | outside number id => exact absurd (.inr ⟨number, id, rfl⟩) h
    | inside j => exact ⟨i, j, rfl⟩

theorem plainEdges_of_spare (h : Spare g taken e) (rest : List Edge) :
    plainEdges g (e :: rest) taken = plainEdges g rest taken := by
  obtain ⟨hin, hspare⟩ := h
  obtain ⟨i, j, rfl⟩ := inside_of_not_leaves hin
  have hskip : (decide (i = j) || taken.contains (g.idOf (.inside i), g.idOf (.inside j))) =
      true := by
    simpa [Edge.isSelfLoop] using hspare
  simp only [plainEdges, hskip, ↓reduceIte]

/-- After an edge of the graph, whatever was taken before is still taken, and so is the edge. -/
theorem plainEdges_step (g : Graph) (taken : List (Int × Int)) (h : ¬ Leaves e) :
    ∃ taken', taken ⊆ taken' ∧ Spare g taken' e ∧
      ∀ rest, plainEdges g (e :: rest) taken = plainEdges g rest taken' := by
  by_cases hspare : Spare g taken e
  · exact ⟨taken, List.Subset.refl _, hspare, plainEdges_of_spare hspare⟩
  · refine ⟨(g.idOf e.source, g.idOf e.target) :: taken, List.subset_cons_self _ _,
      ⟨h, .inr List.mem_cons_self⟩, fun rest => ?_⟩
    obtain ⟨i, j, rfl⟩ := inside_of_not_leaves h
    have htake : (decide (i = j) || taken.contains (g.idOf (.inside i), g.idOf (.inside j))) =
        false := by
      simpa [Spare, h, Edge.isSelfLoop] using hspare
    simp only [plainEdges, htake, Bool.false_eq_true, ↓reduceIte]

theorem plainEdges_of_leaves (h : Leaves e) (rest : List Edge) :
    plainEdges g (e :: rest) taken = .error (.edgeLeavesGraph (g.edgeSummary e)) := by
  obtain ⟨source, target⟩ := e
  rcases h with ⟨number, id, rfl⟩ | ⟨number, id, rfl⟩
  · simp only [plainEdges]
  · cases source <;> simp only [plainEdges]

theorem Spare.mono {taken' : List (Int × Int)} (h : Spare g taken e) (hsub : taken ⊆ taken') :
    Spare g taken' e := ⟨h.1, h.2.imp_right fun hmem => hsub hmem⟩

theorem plainEdges_congr (g : Graph) (edges taking : List Edge) (taken : List (Int × Int)) :
    plainEdges { g with edges } taking taken = plainEdges g taking taken := by
  induction taking generalizing taken with
  | nil => rfl
  | cons e taking ih =>
    have hid (v : Endpoint) : Graph.idOf { g with edges } v = g.idOf v := rfl
    simp only [plainEdges, ih, hid]
    rfl

/-- Spare edges may be left out. -/
theorem plainEdges_filter (p : Edge → Bool) {edges : List Edge}
    (h : ∀ e ∈ edges, p e = false → Spare g taken e) :
    plainEdges g (edges.filter p) taken = plainEdges g edges taken := by
  induction edges generalizing taken with
  | nil => rfl
  | cons e edges ih =>
    obtain ⟨hhead, htail⟩ := List.forall_mem_cons.mp h
    cases hp : p e with
    | false =>
      rw [List.filter_cons_of_neg (by simp [hp]), plainEdges_of_spare (hhead hp)]
      exact ih htail
    | true =>
      rw [List.filter_cons_of_pos hp]
      by_cases hleaves : Leaves e
      · rw [plainEdges_of_leaves hleaves, plainEdges_of_leaves hleaves]
      · obtain ⟨taken', hsub, -, hstep⟩ := plainEdges_step g taken hleaves
        rw [hstep, hstep]
        exact ih fun e' he' hp' => (htail e' he' hp').mono hsub

theorem plainEdges_eraseDups (edges : List Edge) (taken : List (Int × Int)) :
    plainEdges g edges.eraseDups taken = plainEdges g edges taken := by
  cases edges with
  | nil => rfl
  | cons e edges =>
    rw [List.eraseDups_cons]
    by_cases hleaves : Leaves e
    · rw [plainEdges_of_leaves hleaves, plainEdges_of_leaves hleaves]
    · obtain ⟨taken', -, hspare, hstep⟩ := plainEdges_step g taken hleaves
      rw [hstep, hstep, plainEdges_eraseDups]
      refine plainEdges_filter _ fun e' _ hsame => ?_
      have he : e' = e := by simpa using hsame
      exact he ▸ hspare
termination_by edges.length
decreasing_by exact Nat.lt_succ_of_le (List.length_filter_le _ _)

theorem plainEdges_firstEdges {edges : List Edge} (hin : ∀ e ∈ edges, ¬ Leaves e) :
    plainEdges g (Graph.firstEdges edges) [] = plainEdges g edges [] := by
  rw [Graph.firstEdges, plainEdges_eraseDups]
  refine plainEdges_filter _ fun e he hloop => ⟨hin e he, .inl ?_⟩
  simpa using hloop

theorem eraseDups_insert {before : List Edge} (he : e ∈ before) (after : List Edge) :
    (before ++ e :: after).eraseDups = (before ++ after).eraseDups := by
  rw [List.eraseDups_append, List.eraseDups_append, List.cons_removeAll]
  simp [he]

theorem Padded.firstEdges {edges padded : List Edge} (h : Padded edges padded) :
    Graph.firstEdges padded = Graph.firstEdges edges := by
  induction h with
  | refl => rfl
  | loop _ i ih =>
    rw [← ih]
    simp [Graph.firstEdges, Edge.isSelfLoop]
  | @again before after _ e hmem ih =>
    rw [← ih, Graph.firstEdges, Graph.firstEdges, List.filter_append, List.filter_append]
    cases hloop : e.isSelfLoop with
    | true => rw [List.filter_cons_of_neg (by simp [hloop])]
    | false =>
      rw [List.filter_cons_of_pos (by simp [hloop]), eraseDups_insert]
      exact List.mem_filter.mpr ⟨hmem, by simp [hloop]⟩

theorem Padded.inside {edges padded : List Edge} (h : Padded edges padded)
    (hin : ∀ e ∈ edges, ¬ Leaves e) : ∀ e ∈ padded, ¬ Leaves e := by
  induction h with
  | refl => exact hin
  | loop _ i ih =>
    intro e he
    rcases List.mem_cons.mp (List.perm_middle.mem_iff.mp he) with rfl | he
    · simp [Leaves]
    · exact ih e he
  | again _ hmem ih =>
    intro e he
    rcases List.mem_cons.mp (List.perm_middle.mem_iff.mp he) with rfl | he
    · exact ih e (List.mem_append_left _ hmem)
    · exact ih e he

section Layouts

variable {α : Type} [Scalar α] (group : Grouping) (engine : ComponentEngine α) (g : Graph)
  (sizes : Sizes α) (nodeSpacing rankSpacing : α)

theorem ofGraphBy_of_plainEdges {edges : List Edge}
    (h : plainEdges g edges [] = plainEdges g g.edges []) :
    ofGraphBy group engine { g with edges } sizes nodeSpacing rankSpacing =
      ofGraphBy group engine g sizes nodeSpacing rankSpacing := by
  simp only [ofGraphBy, plainEdges_congr, h]
  rfl

/-- The layout of a graph, or the reason why it is refused, is that of its first edges, and loops
and repeats that are put in change nothing. -/
theorem ofGraphBy_first (hin : ∀ e ∈ g.edges, ¬ Leaves e) :
    ofGraphBy group engine { g with edges := Graph.firstEdges g.edges } sizes nodeSpacing
        rankSpacing = ofGraphBy group engine g sizes nodeSpacing rankSpacing ∧
      ∀ edges, Padded g.edges edges →
        ofGraphBy group engine { g with edges } sizes nodeSpacing rankSpacing =
          ofGraphBy group engine g sizes nodeSpacing rankSpacing := by
  refine ⟨ofGraphBy_of_plainEdges _ _ _ _ _ _ (plainEdges_firstEdges hin), fun edges h => ?_⟩
  apply ofGraphBy_of_plainEdges
  rw [← plainEdges_firstEdges (h.inside hin), h.firstEdges, plainEdges_firstEdges hin]

end Layouts

def looped : Graph :=
  ⟨[⟨0, [], false⟩, ⟨1, [], false⟩, ⟨2, [], false⟩],
    [⟨.inside 0, .inside 1⟩, ⟨.inside 0, .inside 0⟩, ⟨.inside 0, .inside 1⟩,
      ⟨.inside 1, .inside 2⟩],
    none, .nothing⟩

theorem looped_first :
    let sizes : Sizes Float := [(0, ⟨100.0, 50.0⟩), (1, ⟨100.0, 50.0⟩), (2, ⟨100.0, 50.0⟩)]
    (∀ e ∈ looped.edges, ¬ Leaves e) ∧
      Graph.firstEdges looped.edges = [⟨.inside 0, .inside 1⟩, ⟨.inside 1, .inside 2⟩] ∧
      ofGraph Sugiyama.engine
          { looped with edges := [⟨.inside 0, .inside 1⟩, ⟨.inside 1, .inside 2⟩] }
          sizes 40.0 60.0 =
        ofGraph Sugiyama.engine looped sizes 40.0 60.0 ∧
      ofGraph Sugiyama.engine
          { looped with
            edges := ⟨.inside 2, .inside 2⟩ :: looped.edges ++ [⟨.inside 0, .inside 1⟩] }
          sizes 40.0 60.0 =
        ofGraph Sugiyama.engine looped sizes 40.0 60.0 := by
  intro sizes
  have hin : ∀ e ∈ looped.edges, ¬ Leaves e := by simp [looped, Leaves]
  obtain ⟨hfirst, hpadded⟩ :=
    ofGraphBy_first connected Sugiyama.placeComponent looped sizes 40.0 60.0 hin
  have hloop : Padded looped.edges ([] ++ ⟨.inside 2, .inside 2⟩ :: looped.edges) :=
    .loop (.refl looped.edges) 2
  rw [List.nil_append, ← List.append_nil (_ :: looped.edges)] at hloop
  exact ⟨hin, by decide, hfirst, hpadded _ (.again hloop (by decide))⟩

end Layout

end DebugDesk
