import DebugDesk.Graph.Basic
import DebugDesk.Layout.Basic

/-!
# Laying out a graph

`Layout.ofGraphBy` checks a graph, cuts it into parts, has an engine lay out each, and places the
parts side by side from left to right, in the order of their least identifiers, each with its top at
the top. Self-loops and repeated edges are kept from the engine. In `Layout.ofGraph` the parts are
those of the engine.
-/
namespace DebugDesk.Layout

/-- Joins the groups that hold the two ends of an edge; the joined group takes the first one's
place. -/
def join (groups : List (List Int)) (e : Int × Int) : List (List Int) :=
  match groups.find? (·.contains e.1), groups.find? (·.contains e.2) with
  | some a, some b =>
    if a.contains e.2 then groups
    else (groups.map fun g => if g.contains e.1 then a ++ b else g).filter
      fun g => !g.contains e.2 || g.contains e.1
  | _, _ => groups

/-- The vertices that edges connect are one group. -/
def connected : Grouping := fun ids edges => edges.foldl join (ids.map fun id => [id])

/-- Of disjoint groups, the two that hold the ends of an edge become one. -/
theorem joined_eq {a b : List Int} {rest : List (List Int)} {e : Int × Int}
    (hd : (a :: b :: rest).flatten.Nodup) (ha : e.1 ∈ a) (hb : e.2 ∈ b) :
    ((a :: b :: rest).map fun g => if g.contains e.1 then a ++ b else g).filter
      (fun g => !g.contains e.2 || g.contains e.1) = (a ++ b) :: rest := by
  obtain ⟨-, hd, hab⟩ := List.nodup_append.mp hd
  obtain ⟨-, -, hbr⟩ := List.nodup_append.mp hd
  have heb : e.1 ∉ b := fun h => hab _ ha _ (List.mem_append_left _ h) rfl
  have hrest : ∀ g ∈ rest, e.1 ∉ g ∧ e.2 ∉ g := by
    intro g hg
    refine ⟨fun h => hab _ ha _ (List.mem_append_right _ ?_) rfl, fun h => hbr _ hb _ ?_ rfl⟩ <;>
      exact List.mem_flatten_of_mem hg h
  have hmap : (rest.map fun g => if g.contains e.1 then a ++ b else g) = rest := by
    have h : ∀ g ∈ rest, (if g.contains e.1 then a ++ b else g) = id g := by
      intro g hg
      simp [(hrest g hg).1]
    rw [List.map_congr_left h, List.map_id]
  have hfilter : rest.filter (fun g => !g.contains e.2 || g.contains e.1) = rest := by
    apply List.filter_eq_self.mpr
    intro g hg
    simp [(hrest g hg).2]
  rw [List.map_cons, List.map_cons, hmap, List.filter_cons_of_pos, List.filter_cons_of_neg, hfilter]
  · simp [ha]
  · simp [hb, heb]
  · simp [ha]

theorem join_flatten_perm {groups : List (List Int)} (hd : groups.flatten.Nodup) (e : Int × Int) :
    (join groups e).flatten.Perm groups.flatten := by
  unfold join
  split
  next a b ha hb =>
    have ha' : e.1 ∈ a := by simpa using List.find?_some ha
    have hb' : e.2 ∈ b := by simpa using List.find?_some hb
    by_cases hea : a.contains e.2 = true
    · rw [if_pos hea]
    · rw [if_neg hea]
      have hne : b ≠ a := by
        rintro rfl
        exact hea (by simpa using hb')
      have hmem : b ∈ groups.erase a :=
        (List.mem_erase_of_ne hne).mpr (List.mem_of_find?_eq_some hb)
      have hp : groups.Perm (a :: b :: (groups.erase a).erase b) :=
        (List.perm_cons_erase (List.mem_of_find?_eq_some ha)).trans
          ((List.perm_cons_erase hmem).cons a)
      have hjoined := joined_eq (hp.flatten.nodup_iff.mp hd) ha' hb'
      refine (((hp.map _).filter _).flatten).trans (.trans ?_ hp.flatten.symm)
      rw [hjoined]
      simp
  next => exact .refl _

theorem foldl_join_flatten_perm (groups : List (List Int)) (hd : groups.flatten.Nodup)
    (edges : List (Int × Int)) : (edges.foldl join groups).flatten.Perm groups.flatten := by
  induction edges generalizing groups with
  | nil => exact .refl _
  | cons e edges ih =>
    have h := join_flatten_perm hd e
    exact (ih _ (h.nodup_iff.mpr hd)).trans h

theorem join_inhabited {groups : List (List Int)} (h : ∀ g ∈ groups, g ≠ []) (e : Int × Int) :
    ∀ g ∈ join groups e, g ≠ [] := by
  unfold join
  split
  next a b ha hb =>
    split
    · exact h
    · intro g hg
      obtain ⟨g', hg', rfl⟩ := List.mem_map.mp (List.mem_filter.mp hg).1
      split
      · exact List.append_ne_nil_of_left_ne_nil (h a (List.mem_of_find?_eq_some ha)) b
      · exact h g' hg'
  next => exact h

/-- Each vertex is in one connected group, and no other vertex is. -/
theorem connected_partitions : Partitions connected where
  perm := by
    intro ids hd edges
    have hsingle : (ids.map fun id => [id]).flatten = ids := by
      induction ids with
      | nil => rfl
      | cons id ids ih => simpa using ih hd.of_cons
    have hjoin := foldl_join_flatten_perm (ids.map fun id => [id]) (by rwa [hsingle]) edges
    rwa [hsingle] at hjoin
  inhabited := by
    intro ids _ edges
    have hsingle : ∀ g ∈ ids.map fun id => [id], g ≠ [] := by simp
    unfold connected
    generalize ids.map (fun id => [id]) = groups at hsingle
    induction edges generalizing groups with
    | nil => exact hsingle
    | cons e edges ih => exact ih _ (join_inhabited hsingle e)
def ascending (ids : List Int) : List Int := ids.mergeSort (· ≤ ·)

/-- Groups, each ascending, in the order of their least identifiers. -/
def components (groups : List (List Int)) : List (List Int) :=
  (groups.map ascending).mergeSort fun a b => a.headD 0 ≤ b.headD 0

/-- Vertices that no edge enters, the root of the graph first; in a part without such vertices the
root of the graph, or the least vertex. -/
def roots (root : Option Int) (vertices : List Int) (edges : List (Int × Int)) : List Int :=
  let free := vertices.filter fun v => !edges.any (·.2 == v)
  if free.isEmpty then
    match root with
    | some r => if vertices.contains r then [r] else vertices.take 1
    | none => vertices.take 1
  else
    free.filter (fun v => some v == root) ++ free.filter fun v => some v != root

/-- The ends of the edges that matter to a layout: each pair once, no edge from a vertex to itself.
Fails if an edge leaves the graph. -/
def plainEdges (g : Graph) : List Edge → List (Int × Int) → Except Fault (List (Int × Int))
  | [], done => .ok done.reverse
  | e :: rest, done =>
    match e.source, e.target with
    | .inside i, .inside j =>
      let key := (g.idOf e.source, g.idOf e.target)
      plainEdges g rest (if i = j || done.contains key then done else key :: done)
    | _, _ => .error (.edgeLeavesGraph (g.edgeSummary e))

variable {α : Type} [Scalar α]

abbrev Sizes (α : Type) := List (Int × Size α)

/-- Boxes placed so far, the left edge of the next part, and the greatest height of a part. -/
structure Row (α : Type) where
  boxes : List (Int × LayoutBox α)
  offset : α
  height : α

/-- Places one part: its left edge at the offset, its top at zero. -/
def Row.push (row : Row α) (c : Component α) (place : Int → Placement α) : Row α :=
  let xs (side : α → α → α) := c.vertices.map fun v =>
    side (place v).center.x ((c.sizeOf v).width / 2.0)
  let ys (side : α → α → α) := c.vertices.map fun v =>
    side (place v).center.y ((c.sizeOf v).height / 2.0)
  let left := Scalar.least 0.0 (xs (· - ·))
  let right := Scalar.greatest 0.0 (xs (· + ·))
  let top := Scalar.least 0.0 (ys (· - ·))
  let bottom := Scalar.greatest 0.0 (ys (· + ·))
  let box (v : Int) : LayoutBox α :=
    { x := (place v).center.x - left + row.offset
      y := (place v).center.y - top
      width := (c.sizeOf v).width
      height := (c.sizeOf v).height
      rank := (place v).rank }
  { boxes := row.boxes ++ c.vertices.map fun v => (v, box v)
    offset := row.offset + ((right - left) + c.nodeSpacing)
    height := Scalar.greater row.height (bottom - top) }

/-- Lays out the parts one after the other. Whatever the engine fails with is one failure here. -/
def placeAll (engine : ComponentEngine α) : Row α → List (Component α) → Except Fault (Row α)
  | row, [] => .ok row
  | row, c :: rest =>
    match engine c with
    | .ok place => placeAll engine (row.push c place) rest
    | .error _ => .error .engineFailed

/-- The groups of a checked graph as an engine gets them. -/
def parts (sizeOf : Int → Size α) (nodeSpacing rankSpacing : α) (root : Option Int)
    (groups : List (List Int)) (edges : List (Int × Int)) : List (Component α) :=
  (components groups).map fun vertices =>
    let within := edges.filter fun e => vertices.contains e.1
    { vertices
      edges := within.filter fun e => e.1 != e.2
      sizeOf
      roots := roots root vertices (if vertices.length = 1 then [] else within)
      nodeSpacing
      rankSpacing }

def sizeIn (sizes : Sizes α) (id : Int) : Size α := (sizes.lookup id).getD ⟨0.0, 0.0⟩

/-- The parts of a graph in which all vertices have sizes and the given edges matter. -/
def partsOf (group : Grouping) (g : Graph) (sizes : Sizes α) (nodeSpacing rankSpacing : α)
    (edges : List (Int × Int)) : List (Component α) :=
  parts (sizeIn sizes) nodeSpacing rankSpacing (g.root?.map fun i => g.idOf (.inside i))
    (group (g.vertices.map Vertex.id).eraseDups edges) edges

def ofGraphBy (group : Grouping) (engine : ComponentEngine α) (g : Graph) (sizes : Sizes α)
    (nodeSpacing rankSpacing : α) : Except Fault (Layout α) := do
  if !g.verifyIntegrity then throw .unnumberedVertices
  if g.vertices.isEmpty then return ⟨[], 0.0, 0.0⟩
  match (g.vertices.map Vertex.id).find? fun id => (sizes.lookup id).isNone with
  | some id => throw (.unsizedVertex id)
  | none =>
    let edges ← plainEdges g g.edges []
    let row ← placeAll engine ⟨[], 0.0, 0.0⟩
      (partsOf group g sizes nodeSpacing rankSpacing edges)
    return ⟨row.boxes, Scalar.greater (row.offset - nodeSpacing) 0.0, row.height⟩

def ofGraph (engine : LayoutEngine α) (g : Graph) (sizes : Sizes α) (nodeSpacing rankSpacing : α) :
    Except Fault (Layout α) :=
  ofGraphBy engine.group engine.place g sizes nodeSpacing rankSpacing

end DebugDesk.Layout
