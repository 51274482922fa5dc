import Mathlib.Logic.Relation
import DebugDesk.Proofs.Graph.RoundTrips

/-!
# Random flow graphs

A random graph is drawn in two passes: an edge to each vertex but the first from one shortly before
it, then perhaps a branch forward and a loop back from each vertex but the last. Of the source it is
only used that ranges which are not empty are answered from inside, so no other range is ever drawn
from. The first pass leads from the first vertex to all others; only loops lead back.
-/
namespace DebugDesk.Graph

variable {σ β γ ι : Type} {source : RandomSource σ} {P : β → Prop} {Q : γ → Prop}

/-- A draw that succeeds in every state of the source, with a result of some kind. -/
def Gives (draw : Draw σ β) (P : β → Prop) : Prop := ∀ s, ∃ b t, draw s = .ok (b, t) ∧ P b

theorem Gives.pure {b : β} (h : P b) : Gives (pure b : Draw σ β) P := fun s => ⟨b, s, rfl, h⟩

theorem Gives.bind {draw : Draw σ β} {f : β → Draw σ γ} (h : Gives draw P)
    (hf : ∀ b, P b → Gives (f b) Q) : Gives (draw >>= f) Q := by
  intro s
  obtain ⟨b, t, hb, hP⟩ := h s
  obtain ⟨c, u, hc, hQ⟩ := hf b hP t
  refine ⟨c, u, ?_, hQ⟩
  change (draw s >>= fun r => f r.1 r.2) = _
  rw [hb]
  exact hc

/-- Draws for all members of a list, whose results follow the keys of the members. -/
theorem Gives.mapM {κ : Type} {f : ι → Draw σ β} {j : ι → κ} {k : β → κ} {xs : List ι}
    (h : ∀ x ∈ xs, Gives (f x) fun b => P b ∧ k b = j x) :
    Gives (xs.mapM f) fun bs => (∀ b ∈ bs, P b) ∧ bs.map k = xs.map j := by
  induction xs with
  | nil => exact .pure ⟨by simp, rfl⟩
  | cons x xs ih =>
    obtain ⟨hx, hxs⟩ := List.forall_mem_cons.mp h
    rw [List.mapM_cons]
    refine hx.bind fun b hb => (ih hxs).bind fun bs hbs => .pure ⟨?_, ?_⟩
    · exact List.forall_mem_cons.mpr ⟨hb.1, hbs.1⟩
    · rw [List.map_cons, List.map_cons, hb.2, hbs.2]

theorem gives_range (hs : source.Lawful) {low high : Nat} (h : low < high) :
    Gives (drawRange source low high) fun n => low ≤ n ∧ n < high := fun s => hs low high s h

theorem gives_unit : Gives (drawUnit source) fun _ => True := fun _ => ⟨_, _, rfl, trivial⟩

theorem mapM_bind_pure (f : ι → Draw σ β) (g : β → γ) (xs : List ι) :
    (xs.mapM fun x => f x >>= fun b => pure (g b)) = xs.mapM f >>= fun bs => pure (bs.map g) := by
  induction xs with
  | nil => simp only [List.mapM_nil, pure_bind, List.map_nil]
  | cons x xs ih => simp only [List.mapM_cons, ih, bind_assoc, pure_bind, List.map_cons]

/-- The edges that are drawn besides those of the first pass: a branch and a loop of a vertex, where
it gets them. -/
structure Turn where
  branch : List (Nat × Nat)
  loop : List (Nat × Nat)

/-- All that is drawn for a graph: the edges of the first pass, and the turns of the second. -/
structure Plan where
  tree : List (Nat × Nat)
  turns : List Turn

def Turn.edges (t : Turn) : List (Nat × Nat) := t.branch ++ t.loop

def Plan.edges (p : Plan) : List (Nat × Nat) := p.tree ++ (p.turns.map Turn.edges).flatten

def Plan.loops (p : Plan) : List (Nat × Nat) := (p.turns.map Turn.loop).flatten

def drawEdge (source : RandomSource σ) (probability : Float) (low high i : Nat) :
    Draw σ (List (Nat × Nat)) := do
  if (← drawUnit source) < probability then return [(i, ← drawRange source low high)]
  else return []

/-- Draws an edge back, for which there has to be a vertex before. -/
def drawLoop (source : RandomSource σ) (probability : Float) (i : Nat) :
    Draw σ (List (Nat × Nat)) :=
  if 0 < i then drawEdge source probability 0 i i else pure []

def drawTurn (source : RandomSource σ) (branch back : Float) (n i : Nat) : Draw σ Turn := do
  let branch ← drawEdge source branch (i + 1) n i
  let loop ← drawLoop source back i
  return ⟨branch, loop⟩

def drawPlan (source : RandomSource σ) (branch back : Float) (n : Nat) : Draw σ Plan := do
  let tree ← drawTree source n
  let turns ← (List.range (n - 1)).mapM (drawTurn source branch back n)
  return ⟨tree, turns⟩

theorem drawExtra_eq (source : RandomSource σ) (branch back : Float) (n i : Nat) :
    drawExtra source branch back n i =
      drawTurn source branch back n i >>= fun turn => pure turn.edges := by
  have hloop (forward : List (Nat × Nat)) :
      (if 0 < i then do
        if (← drawUnit source) < back then return forward ++ [(i, ← drawRange source 0 i)]
        else return forward ++ []
      else return forward ++ []) =
        drawLoop source back i >>= fun loop => pure (forward ++ loop) := by
    rw [drawLoop]
    split
    · rw [drawEdge, bind_assoc]
      refine bind_congr fun u => ?_
      split <;> simp only [bind_assoc, pure_bind]
    · rw [pure_bind]
  simp only [drawExtra, drawTurn, Turn.edges, bind_assoc, pure_bind]
  rw [drawEdge, bind_assoc]
  refine bind_congr fun u => ?_
  split
  · simp only [bind_assoc, pure_bind]
    exact bind_congr fun _ => hloop _
  · rw [pure_bind]
    exact hloop _

/-- A random graph is one that is planned by draws. -/
theorem random_eq (source : RandomSource σ) (provider : ContentProvider) (count : Int)
    (branch back : Float) :
    random source provider count branch back =
      drawPlan source branch back (max count 1).toNat >>= fun plan =>
        pure (ofPairs provider (max count 1).toNat plan.edges) := by
  have hextra : drawExtra source branch back (max count 1).toNat = fun i =>
      drawTurn source branch back (max count 1).toNat i >>= fun turn => pure turn.edges :=
    funext fun i => drawExtra_eq source branch back _ i
  simp only [random, drawPlan, Plan.edges, hextra, mapM_bind_pure, bind_assoc, pure_bind]

/-- An edge that leads up to a vertex of so many. -/
def Rises (n : Nat) (e : Nat × Nat) : Prop := e.1 < e.2 ∧ e.2 < n

/-- An edge that leads back from a vertex of so many. -/
def Falls (n : Nat) (e : Nat × Nat) : Prop := e.2 < e.1 ∧ e.1 < n

/-- A plan that fits a number of vertices: each vertex but the first is led to once by the first
pass, and the second adds branches up and loops back. -/
structure Plan.Fits (n : Nat) (p : Plan) : Prop where
  heads : p.tree.map Prod.snd = (List.range (n - 1)).map (· + 1)
  tree : ∀ e ∈ p.tree, Rises n e
  branches : ∀ t ∈ p.turns, ∀ e ∈ t.branch, Rises n e
  loops : ∀ t ∈ p.turns, ∀ e ∈ t.loop, Falls n e

theorem gives_tree (hs : source.Lawful) (n : Nat) :
    Gives (drawTree source n) fun es =>
      (∀ e ∈ es, Rises n e) ∧ es.map Prod.snd = (List.range (n - 1)).map (· + 1) := by
  refine .mapM fun i hi => ?_
  have hbelow := List.mem_range.mp hi
  have hrange : i - 2 < i + 1 := by omega
  exact (gives_range hs hrange).bind fun parent hparent =>
    .pure ⟨⟨hparent.2, by dsimp only; omega⟩, rfl⟩

theorem gives_edge (hs : source.Lawful) {low high : Nat} (h : low < high) (probability : Float)
    (i : Nat) : Gives (drawEdge source probability low high i)
      fun es => ∀ e ∈ es, e.1 = i ∧ low ≤ e.2 ∧ e.2 < high := by
  refine gives_unit.bind fun u _ => ?_
  split
  · refine (gives_range hs h).bind fun n hn => .pure fun e he => ?_
    rw [List.mem_singleton.mp he]
    exact ⟨rfl, hn⟩
  · exact .pure (by simp)

theorem gives_loop (hs : source.Lawful) (probability : Float) {n i : Nat} (hi : i < n) :
    Gives (drawLoop source probability i) fun es => ∀ e ∈ es, Falls n e := by
  unfold drawLoop
  split
  next hpos =>
    intro s
    obtain ⟨es, t, hes, hends⟩ := gives_edge hs hpos probability i s
    refine ⟨es, t, hes, fun e he => ?_⟩
    obtain ⟨rfl, -, hbelow⟩ := hends e he
    exact ⟨hbelow, hi⟩
  next => exact .pure (by simp)

theorem gives_turn (hs : source.Lawful) (branch back : Float) {n i : Nat} (hi : i + 1 < n) :
    Gives (drawTurn source branch back n i)
      fun t => (∀ e ∈ t.branch, Rises n e) ∧ ∀ e ∈ t.loop, Falls n e := by
  refine (gives_edge hs hi branch i).bind fun forward hforward =>
    (gives_loop hs back (Nat.lt_of_succ_lt hi)).bind fun backward hbackward =>
      .pure ⟨fun e he => ?_, hbackward⟩
  obtain ⟨rfl, habove, hbelow⟩ := hforward e he
  exact ⟨habove, hbelow⟩

theorem gives_plan (hs : source.Lawful) (branch back : Float) (n : Nat) :
    Gives (drawPlan source branch back n) (Plan.Fits n) := by
  have hturns : Gives ((List.range (n - 1)).mapM (drawTurn source branch back n)) fun turns =>
      (∀ t ∈ turns, (∀ e ∈ t.branch, Rises n e) ∧ ∀ e ∈ t.loop, Falls n e) ∧
        turns.map (fun _ => ()) = (List.range (n - 1)).map fun _ => () := by
    refine .mapM fun i hi s => ?_
    have hbelow := List.mem_range.mp hi
    obtain ⟨t, s', ht, hfits⟩ := gives_turn hs branch back (by omega : i + 1 < n) s
    exact ⟨t, s', ht, hfits, rfl⟩
  exact (gives_tree hs n).bind fun tree htree => hturns.bind fun turns hturns =>
    .pure ⟨htree.2, htree.1, fun t ht => (hturns.1 t ht).1, fun t ht => (hturns.1 t ht).2⟩

def LeadsTo (g : Graph) (a b : Nat) : Prop := between (a, b) ∈ g.edges

theorem ofPairs_eq (provider : ContentProvider) (n : Nat) (pairs : List (Nat × Nat)) :
    ofPairs provider n pairs = ofEnds provider n pairs := by
  have hvertices : (List.range n).foldl (fun g _ => g.addVertex) (empty provider) =
      addVertex^[n] (empty provider) := by
    rw [List.foldl_const, List.length_range]
  have hedges (g : Graph) (pairs : List (Nat × Nat)) :
      pairs.foldl (fun g pair => g.addEdge (.inside pair.1) (.inside pair.2)) g =
        { g with edges := g.edges ++ pairs.map between } := by
    induction pairs generalizing g with
    | nil => simp
    | cons pair pairs ih =>
      rw [List.foldl_cons, ih]
      simp [addEdge, between]
  have hbare (n : Nat) : (addVertex^[n] (empty provider)).edges = [] := by
    induction n with
    | zero => rfl
    | succ n ih => rw [Function.iterate_succ_apply', addVertex, ih]
  rw [ofPairs, hvertices]
  change (pairs.foldl (fun g pair => g.addEdge (.inside pair.1) (.inside pair.2))
    (addVertex^[n] (empty provider))).updateIdentifiers = _
  rw [hedges, hbare]
  rfl

/-- The first pass leads from the first vertex to each. -/
theorem Plan.Fits.reaches {n : Nat} {p : Plan} (h : p.Fits n) (provider : ContentProvider) {i : Nat}
    (hi : i < n) : Relation.ReflTransGen (ofEnds provider n p.edges).LeadsTo 0 i := by
  induction i using Nat.strongRecOn with
  | ind i ih =>
    cases i with
    | zero => exact .refl
    | succ i =>
      have hhead : i + 1 ∈ p.tree.map Prod.snd := by
        rw [h.heads]
        exact List.mem_map.mpr ⟨i, List.mem_range.mpr (by omega), rfl⟩
      obtain ⟨⟨parent, head⟩, he, rfl⟩ := List.mem_map.mp hhead
      have hrises := h.tree _ he
      have hedge : (ofEnds provider n p.edges).LeadsTo parent (i + 1) :=
        List.mem_map_of_mem (List.mem_append_left _ he)
      exact (ih parent hrises.1 (Nat.lt_trans hrises.1 hi)).tail hedge

/-- Every edge leads up, or it is drawn back. -/
theorem Plan.Fits.rises_or_falls {n : Nat} {p : Plan} (h : p.Fits n) {e : Nat × Nat}
    (he : e ∈ p.edges) : Rises n e ∨ e ∈ p.loops ∧ Falls n e := by
  rcases List.mem_append.mp he with he | he
  · exact .inl (h.tree e he)
  · obtain ⟨es, hes, he⟩ := List.mem_flatten.mp he
    obtain ⟨t, ht, rfl⟩ := List.mem_map.mp hes
    rcases List.mem_append.mp he with he | he
    · exact .inl (h.branches t ht e he)
    · exact .inr ⟨List.mem_flatten.mpr ⟨t.loop, List.mem_map_of_mem ht, he⟩, h.loops t ht e he⟩

/-- A graph of so many vertices, numbered by position, whose edges join two different vertices of
it, and all of whose vertices can be reached from the first. -/
structure IsFlow (n : Nat) (g : Graph) : Prop where
  size : g.size = n
  numbered : g.Numbered
  ends : ∀ e ∈ g.edges, ∃ a b, e = between (a, b) ∧ a < n ∧ b < n ∧ e.isSelfLoop = false
  reaches : ∀ i < n, Relation.ReflTransGen g.LeadsTo 0 i

theorem Plan.Fits.isFlow {n : Nat} {p : Plan} (h : p.Fits n) (provider : ContentProvider) :
    (ofEnds provider n p.edges).IsFlow n := by
  refine ⟨size_ofEnds provider n p.edges, ?_, fun e he => ?_, fun i hi => h.reaches provider hi⟩
  · rw [Numbered, ids_ofEnds, size_ofEnds]
  · obtain ⟨⟨a, b⟩, hpair, rfl⟩ := List.mem_map.mp he
    have hends : a < n ∧ b < n ∧ a ≠ b := by
      rcases h.rises_or_falls hpair with ⟨hup, hb⟩ | ⟨-, hdown, ha⟩
      · exact ⟨Nat.lt_trans hup hb, hb, Nat.ne_of_lt hup⟩
      · exact ⟨ha, Nat.lt_trans hdown ha, Nat.ne_of_gt hdown⟩
    obtain ⟨ha, hb, hne⟩ := hends
    exact ⟨a, b, rfl, ha, hb, by simpa [Edge.isSelfLoop, between] using hne⟩

/-- From any lawful source, whatever its other numbers are, a random graph is drawn with as many
vertices as asked for, but at least one. It is numbered by position, no edge is a loop at a vertex,
all vertices are reached from the first, and without a loop back all edges lead from lower to higher
identifiers. -/
theorem random_flows (hs : source.Lawful) (provider : ContentProvider) (count : Int)
    (branch back : Float) (s : σ) :
    ∃ plan g t, drawPlan source branch back (max count 1).toNat s = .ok (plan, t) ∧
      random source provider count branch back s = .ok (g, t) ∧
      g.IsFlow (max count 1).toNat ∧ g.edges = plan.edges.map between ∧
      (plan.loops = [] → ∀ e ∈ g.edges, g.idOf e.source < g.idOf e.target) := by
  obtain ⟨plan, t, hplan, hfits⟩ := gives_plan hs branch back (max count 1).toNat s
  have hflow := hfits.isFlow provider
  refine ⟨plan, _, t, hplan, ?_, hflow, rfl, fun hnone e he => ?_⟩
  · rw [random_eq, ← ofPairs_eq]
    change (drawPlan source branch back _ s >>= fun r => _) = _
    rw [hplan]
    rfl
  · obtain ⟨⟨a, b⟩, hpair, rfl⟩ := List.mem_map.mp he
    have hrises : Rises (max count 1).toNat (a, b) := by
      refine (hfits.rises_or_falls hpair).resolve_right fun hloop => ?_
      rw [hnone] at hloop
      cases hloop.1
    have hnumbered {i : Nat} (hi : i < (max count 1).toNat) :=
      idOf_inside hflow.numbered (hflow.size.symm ▸ hi)
    obtain ⟨hup, hb⟩ := hrises
    simp only [between, hnumbered (Nat.lt_trans hup hb), hnumbered hb]
    exact Int.ofNat_lt.mpr hup

/-- The generator answers from inside a range even when it gives up rejecting numbers. -/
theorem lawful_twister : Twister.source.Lawful := by
  intro low high t h
  have hdraw (bound : Nat) (hb : 0 < bound) (shift : UInt32) (fuel : Nat) (t : Twister) :
      (Twister.below.draw bound shift fuel t).1 < bound := by
    induction fuel generalizing t with
    | zero => exact hb
    | succ fuel ih =>
      rw [Twister.below.draw]
      dsimp only
      split
      next hlt => exact hlt
      next => exact ih _
  have hbelow := hdraw (high - low) (Nat.sub_pos_of_lt h)
  refine ⟨low + (t.below (high - low)).1, (t.below (high - low)).2, ?_, Nat.le_add_right _ _, ?_⟩
  · exact if_pos h
  · have hlt : (t.below (high - low)).1 < high - low := hbelow _ _ t
    omega

theorem seeded_flows :
    Twister.source.Lawful ∧
      ∃ g t, random Twister.source .nothing 12 0.3 0.1 (.ofSeed 42) = .ok (g, t) ∧ g.size = 12 ∧
        g.Numbered ∧ Relation.ReflTransGen g.LeadsTo 0 11 := by
  obtain ⟨plan, g, t, -, hdrawn, hflow, -⟩ :=
    random_flows lawful_twister .nothing 12 0.3 0.1 (.ofSeed 42)
  exact ⟨lawful_twister, g, t, hdrawn, hflow.size, hflow.numbered, hflow.reaches 11 (by decide)⟩

end DebugDesk.Graph
