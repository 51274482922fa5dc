import Mathlib.Data.List.Chain
import Mathlib.Tactic.Linarith
import DebugDesk.Drawing.EdgeRoute
import DebugDesk.Proofs.Number.Exact

/-!
# Routes around boxes

Over exact coordinates an edge is drawn along the axes. It goes down from the bottom of its source
to where it first turns, and ends at the top of a target below, at the bottom of a target above, or
at the right side of its own box. Where there is room for the turns, it stays out of both boxes.
-/
namespace DebugDesk

open Exact

namespace Point

/-- Whether the way from a point to the next runs along an axis, and has a length. -/
def Aligned (p q : Point ℚ) : Prop := p.x = q.x ∧ p.y ≠ q.y ∨ p.y = q.y ∧ p.x ≠ q.x

/-- Whether a point is on the segment between two others, ends included. -/
def Between (p q r : Point ℚ) : Prop :=
  ∃ t : ℚ, 0 ≤ t ∧ t ≤ 1 ∧ r.x = p.x + t * (q.x - p.x) ∧ r.y = p.y + t * (q.y - p.y)

end Point

theorem Exact.le_add_mul {m a b t : ℚ} (ht₀ : 0 ≤ t) (ht₁ : t ≤ 1) (ha : m ≤ a) (hb : m ≤ b) :
    m ≤ a + t * (b - a) := by
  have h₁ : 0 ≤ (1 - t) * (a - m) := mul_nonneg (by linarith) (by linarith)
  have h₂ : 0 ≤ t * (b - m) := mul_nonneg ht₀ (by linarith)
  linarith

theorem Exact.add_mul_le {m a b t : ℚ} (ht₀ : 0 ≤ t) (ht₁ : t ≤ 1) (ha : a ≤ m) (hb : b ≤ m) :
    a + t * (b - a) ≤ m := by
  have h := Exact.le_add_mul ht₀ ht₁ (neg_le_neg ha) (neg_le_neg hb)
  linarith

namespace VertexDrawing

/-- The points inside a box, without those of its sides. -/
def Holds (d : VertexDrawing ℚ) (p : Point ℚ) : Prop :=
  (d.x < p.x ∧ p.x < d.right) ∧ d.y < p.y ∧ p.y < d.bottom

/-- Whether a segment has no point inside a box. -/
def Spared (d : VertexDrawing ℚ) (p q : Point ℚ) : Prop := ∀ r, Point.Between p q r → ¬d.Holds r

/-- Whether a segment is on the far side of one of the four sides of a box. -/
inductive Beside (d : VertexDrawing ℚ) (p q : Point ℚ) : Prop
  | left (first : p.x ≤ d.x) (last : q.x ≤ d.x)
  | right (first : d.right ≤ p.x) (last : d.right ≤ q.x)
  | above (first : p.y ≤ d.y) (last : q.y ≤ d.y)
  | below (first : d.bottom ≤ p.y) (last : d.bottom ≤ q.y)

theorem Beside.spared {d : VertexDrawing ℚ} {p q : Point ℚ} (h : d.Beside p q) : d.Spared p q := by
  rintro r ⟨t, ht₀, ht₁, hx, hy⟩ ⟨⟨hleft, hright⟩, htop, hbottom⟩
  cases h with
  | left first last => exact not_lt_of_ge (add_mul_le ht₀ ht₁ first last) (hx ▸ hleft)
  | right first last => exact not_lt_of_ge (le_add_mul ht₀ ht₁ first last) (hx ▸ hright)
  | above first last => exact not_lt_of_ge (add_mul_le ht₀ ht₁ first last) (hy ▸ htop)
  | below first last => exact not_lt_of_ge (le_add_mul ht₀ ht₁ first last) (hy ▸ hbottom)

end VertexDrawing

def Position.Follows (guides : Guide → ℚ) : Position ℚ → Prop
  | .on g x => x = guides g
  | .alone _ => True

theorem Position.meets_iff {guides : Guide → ℚ} {p q : Position ℚ} (hp : p.Follows guides)
    (hq : q.Follows guides) : p.meets q = true ↔ p.value = q.value := by
  have hbeq (x y : ℚ) : (x == y) = true ↔ x = y := beq_iff_eq
  rcases p with ⟨g, x⟩ | x <;> rcases q with ⟨h, y⟩ | y
  · change (g == h || x == y) = true ↔ x = y
    rw [Bool.or_eq_true, beq_iff_eq, hbeq]
    refine ⟨fun hmeet => ?_, .inr⟩
    rcases hmeet with rfl | hsame
    · exact hp.trans hq.symm
    · exact hsame
  all_goals exact hbeq _ _

namespace Corner

structure Follows (guides : Guide → ℚ) (c : Corner ℚ) : Prop where
  x : c.x.Follows guides
  y : c.y.Follows guides

variable {guides : Guide → ℚ} {c d : Corner ℚ}

theorem meets_iff (hc : c.Follows guides) (hd : d.Follows guides) :
    c.meets d = true ↔ c.point = d.point := by
  rw [meets, Bool.and_eq_true, Position.meets_iff hc.x hd.x, Position.meets_iff hc.y hd.y,
    point, point, Point.mk.injEq]

end Corner

namespace EdgeRoutes

/-- Without repeats the same segments are left, apart from those that have no length. -/
theorem isChain_dropRepeats {guides : Guide → ℚ} {R : Point ℚ → Point ℚ → Prop} {last : Corner ℚ}
    {cs : List (Corner ℚ)} (hfollows : ∀ c ∈ last :: cs, c.Follows guides)
    (h : ((last :: cs).map Corner.point).IsChain R) :
    ((last :: dropRepeats last cs).map Corner.point).IsChain fun p q => R p q ∧ p ≠ q := by
  induction cs generalizing last with
  | nil => simp [dropRepeats]
  | cons c cs ih =>
    obtain ⟨hlast, hc, hcs⟩ := by simpa only [List.forall_mem_cons] using hfollows
    obtain ⟨hfirst, hrest⟩ := List.isChain_cons_cons.mp h
    rw [dropRepeats]
    split
    next hmeets =>
      rw [Corner.meets_iff hc hlast] at hmeets
      refine ih (List.forall_mem_cons.mpr ⟨hlast, hcs⟩) ?_
      rw [List.map_cons, ← hmeets]
      exact hrest
    next hmeets =>
      rw [Corner.meets_iff hc hlast] at hmeets
      exact List.isChain_cons_cons.mpr ⟨⟨hfirst, fun hsame => hmeets hsame.symm⟩,
        ih (List.forall_mem_cons.mpr ⟨hc, hcs⟩) hrest⟩

/-- Without repeats the last point is the same. -/
theorem getLast?_dropRepeats {guides : Guide → ℚ} {last : Corner ℚ} {cs : List (Corner ℚ)}
    (hfollows : ∀ c ∈ last :: cs, c.Follows guides) :
    ((last :: dropRepeats last cs).map Corner.point).getLast? =
      ((last :: cs).map Corner.point).getLast? := by
  induction cs generalizing last with
  | nil => rfl
  | cons c cs ih =>
    obtain ⟨hlast, hc, hcs⟩ := by simpa only [List.forall_mem_cons] using hfollows
    rw [dropRepeats]
    split
    next hmeets =>
      rw [Corner.meets_iff hc hlast] at hmeets
      rw [ih (List.forall_mem_cons.mpr ⟨hlast, hcs⟩), List.map_cons, List.map_cons, List.map_cons,
        ← hmeets, List.getLast?_cons_cons]
    next =>
      have hsame := ih (List.forall_mem_cons.mpr ⟨hc, hcs⟩)
      simp only [List.map_cons, List.getLast?_cons_cons] at hsame ⊢
      exact hsame

section

variable (style : EdgeStyle ℚ) (source target : VertexDrawing ℚ) (startX : ℚ)

/-- Where the guides of an edge are. -/
def guides : Guide → ℚ
  | .start => startX
  | .bend => source.bottom + style.paddingLine
  | .side =>
    if target.vertex = source.vertex then source.right + style.paddingLine
    else if target.midX < startX then source.x - style.paddingLine
    else source.right + style.paddingLine
  | .approach => target.bottom + style.paddingLine

/-- The corners of an edge, repeats among them. -/
def outline : List (Corner ℚ) :=
  let bend : Position ℚ := .on .bend (source.bottom + style.paddingLine)
  ⟨.on .start startX, .alone source.bottom⟩ :: ⟨.on .start startX, bend⟩ ::
    corners style.paddingLine source target startX bend

theorem follows_outline : ∀ c ∈ outline style source target startX,
    c.Follows (guides style source target startX) := by
  intro c hc
  simp only [outline, List.mem_cons] at hc
  rcases hc with rfl | rfl | hc
  · exact ⟨rfl, trivial⟩
  · exact ⟨rfl, rfl⟩
  by_cases hself : target.vertex = source.vertex
  · have hside : source.right + style.paddingLine = guides style source target startX .side :=
      (if_pos hself).symm
    rw [corners, if_pos hself] at hc
    simp only [List.mem_cons, List.not_mem_nil, or_false] at hc
    rcases hc with rfl | rfl | rfl
    · exact ⟨hside, rfl⟩
    · exact ⟨hside, trivial⟩
    · exact ⟨trivial, trivial⟩
  by_cases habove : target.midY < source.bottom
  · have hside : (if target.midX < startX then source.x - style.paddingLine
        else source.right + style.paddingLine) = guides style source target startX .side :=
      (if_neg hself).symm
    rw [corners, if_neg hself, if_pos habove] at hc
    simp only [List.mem_cons, List.not_mem_nil, or_false] at hc
    rcases hc with rfl | rfl | rfl | rfl
    · exact ⟨hside, rfl⟩
    · exact ⟨hside, rfl⟩
    · exact ⟨trivial, rfl⟩
    · exact ⟨trivial, trivial⟩
  · rw [corners, if_neg hself, if_neg habove] at hc
    simp only [List.mem_cons, List.not_mem_nil, or_false] at hc
    rcases hc with rfl | rfl
    · exact ⟨trivial, rfl⟩
    · exact ⟨trivial, trivial⟩

/-- The three ways an edge can go, and the points it goes through. -/
inductive Traced (pad : ℚ) : List (Point ℚ) → Prop
  /-- Around the right side of its own box. -/
  | around (same : target.vertex = source.vertex) :
    Traced pad [⟨startX, source.bottom⟩, ⟨startX, source.bottom + pad⟩,
      ⟨source.right + pad, source.bottom + pad⟩, ⟨source.right + pad, source.midY⟩,
      ⟨source.right, source.midY⟩]
  /-- Past one side of its box, and into a target from below. -/
  | up (other : target.vertex ≠ source.vertex) (above : target.midY < source.bottom) {side : ℚ}
    (past : side = source.x - pad ∨ side = source.right + pad) :
    Traced pad [⟨startX, source.bottom⟩, ⟨startX, source.bottom + pad⟩,
      ⟨side, source.bottom + pad⟩, ⟨side, target.bottom + pad⟩,
      ⟨target.midX, target.bottom + pad⟩, ⟨target.midX, target.bottom⟩]
  /-- Into a target from above. -/
  | down (other : target.vertex ≠ source.vertex) (below : source.bottom ≤ target.midY) :
    Traced pad [⟨startX, source.bottom⟩, ⟨startX, source.bottom + pad⟩,
      ⟨target.midX, source.bottom + pad⟩, ⟨target.midX, target.y⟩]

theorem traced_outline : Traced source target startX style.paddingLine
    ((outline style source target startX).map Corner.point) := by
  rw [outline]
  by_cases hself : target.vertex = source.vertex
  · simp only [corners, if_pos hself]
    exact .around hself
  by_cases habove : target.midY < source.bottom
  · simp only [corners, if_neg hself, if_pos habove]
    refine .up hself habove ?_
    by_cases hleft : target.midX < startX
    · exact .inl (if_pos hleft)
    · exact .inr (if_neg hleft)
  · simp only [corners, if_neg hself, if_neg habove]
    exact .down hself (le_of_not_gt habove)

variable {source target startX}

namespace Traced

variable {pad : ℚ} {points : List (Point ℚ)}

theorem aligned (h : Traced source target startX pad points) :
    points.IsChain fun p q => p.x = q.x ∨ p.y = q.y := by
  cases h <;> simp

theorem returns (h : Traced source target startX pad points)
    (same : target.vertex = source.vertex) :
    points.getLast? = some ⟨source.right, source.midY⟩ := by
  cases h with
  | around => rfl
  | up other => exact absurd same other
  | down other => exact absurd same other

theorem climbs (h : Traced source target startX pad points)
    (other : target.vertex ≠ source.vertex) (above : target.midY < source.bottom) :
    points.getLast? = some ⟨target.midX, target.bottom⟩ := by
  cases h with
  | around same => exact absurd same other
  | up => rfl
  | down other below => exact absurd above (not_lt_of_ge below)

theorem descends (h : Traced source target startX pad points)
    (other : target.vertex ≠ source.vertex) (below : source.bottom ≤ target.midY) :
    points.getLast? = some ⟨target.midX, target.y⟩ := by
  cases h with
  | around same => exact absurd same other
  | up other above => exact absurd above (not_lt_of_ge below)
  | down => rfl

/-- An edge whose target is not beside its source stays out of the box of its source: it is below
it, past it on one side, and above it. -/
theorem beside_source (h : Traced source target startX pad points) (hpad : 0 < pad)
    (hsource : 0 < source.height) (htarget : 0 < target.height)
    (hroom : target = source ∨ source.bottom + pad ≤ target.y ∨ target.bottom + pad ≤ source.y) :
    points.IsChain source.Beside := by
  have hbend : source.bottom ≤ source.bottom + pad := by linarith
  have hright : source.right ≤ source.right + pad := by linarith
  cases h with
  | around same =>
    exact .cons_cons (.below le_rfl hbend) (.cons_cons (.below hbend hbend)
      (.cons_cons (.right hright hright) (.cons_cons (.right hright le_rfl) (.singleton _))))
  | @up other above side past =>
    have hupper : target.bottom + pad ≤ source.y := by
      rcases hroom with rfl | hroom | hroom
      · exact absurd rfl other
      · rw [VertexDrawing.midY, two] at above
        linarith
      · exact hroom
    have hend : target.bottom ≤ source.y := by linarith
    have hpast : source.Beside ⟨side, source.bottom + pad⟩ ⟨side, target.bottom + pad⟩ := by
      rcases past with rfl | rfl
      · exact .left (sub_le_self _ hpad.le) (sub_le_self _ hpad.le)
      · exact .right hright hright
    exact .cons_cons (.below le_rfl hbend) (.cons_cons (.below hbend hbend) (.cons_cons hpast
      (.cons_cons (.above hupper hupper) (.cons_cons (.above hupper hend) (.singleton _)))))
  | down other below =>
    have hlower : source.bottom + pad ≤ target.y := by
      rcases hroom with rfl | hroom | hroom
      · exact absurd rfl other
      · exact hroom
      · have hbottom : source.bottom = source.y + source.height := rfl
        have hbottom' : target.bottom = target.y + target.height := rfl
        rw [VertexDrawing.midY, two] at below
        linarith
    exact .cons_cons (.below le_rfl hbend) (.cons_cons (.below hbend hbend)
      (.cons_cons (.below hbend (hbend.trans hlower)) (.singleton _)))

/-- It stays out of the box of its target as well: it is above or below it all the way, unless it
goes around its own box. -/
theorem beside_target (h : Traced source target startX pad points) (hpad : 0 < pad)
    (hsource : 0 < source.height) (htarget : 0 < target.height)
    (hroom : target = source ∨ source.bottom + pad ≤ target.y ∨ target.bottom + pad ≤ source.y) :
    points.IsChain target.Beside := by
  have hbottom : source.bottom = source.y + source.height := rfl
  have hbottom' : target.bottom = target.y + target.height := rfl
  have hmiddle : source.midY = source.y + source.height / 2 := by rw [VertexDrawing.midY, two]
  have hmiddle' : target.midY = target.y + target.height / 2 := by rw [VertexDrawing.midY, two]
  rcases hroom with rfl | hlower | hupper
  · exact h.beside_source hpad hsource htarget (.inl rfl)
  · have habove : ∀ p ∈ points, p.y ≤ target.y := by
      cases h with
      | around same =>
        simp only [List.forall_mem_cons, List.not_mem_nil, false_imp_iff, implies_true, and_true]
        refine ⟨?_, ?_, ?_, ?_, ?_⟩ <;> linarith
      | up other above past => linarith
      | down other below =>
        simp only [List.forall_mem_cons, List.not_mem_nil, false_imp_iff, implies_true, and_true]
        refine ⟨?_, ?_, ?_, ?_⟩ <;> linarith
    exact h.aligned.imp_of_mem_imp fun p q hp hq _ => .above (habove p hp) (habove q hq)
  · have hbelow : ∀ p ∈ points, target.bottom ≤ p.y := by
      cases h with
      | around same =>
        simp only [List.forall_mem_cons, List.not_mem_nil, false_imp_iff, implies_true, and_true]
        refine ⟨?_, ?_, ?_, ?_, ?_⟩ <;> linarith
      | up other above past =>
        simp only [List.forall_mem_cons, List.not_mem_nil, false_imp_iff, implies_true, and_true]
        refine ⟨?_, ?_, ?_, ?_, ?_, ?_⟩ <;> linarith
      | down other below => linarith
    exact h.aligned.imp_of_mem_imp fun p q hp hq _ => .below (hbelow p hp) (hbelow q hq)

end Traced

end

/-- The first turn is not where an edge begins, so both are kept. -/
theorem leaves_routeEdge {style : EdgeStyle ℚ} (hpad : 0 < style.paddingLine)
    (source target : VertexDrawing ℚ) (startX : ℚ) :
    ∃ rest, routeEdge style source target startX =
      ⟨startX, source.bottom⟩ :: ⟨startX, source.bottom + style.paddingLine⟩ :: rest := by
  have hbend : ¬Corner.meets ⟨.on .start startX, .on .bend (source.bottom + style.paddingLine)⟩
      ⟨.on .start startX, .alone source.bottom⟩ = true := by
    have hfollows := follows_outline style source target startX
    rw [Corner.meets_iff (hfollows _ (List.mem_cons_of_mem _ List.mem_cons_self))
      (hfollows _ List.mem_cons_self), Corner.point, Corner.point, Point.mk.injEq]
    rintro ⟨-, hsame⟩
    exact hpad.ne' (add_eq_left.mp hsame)
  rw [routeEdge, dropRepeats, if_neg hbend]
  exact ⟨_, rfl⟩

/-- How an edge gets from its source to its target. -/
structure Leads (pad : ℚ) (source target : VertexDrawing ℚ) (startX : ℚ)
    (points : List (Point ℚ)) : Prop where
  aligned : points.IsChain Point.Aligned
  leaves : ∃ rest, points = ⟨startX, source.bottom⟩ :: ⟨startX, source.bottom + pad⟩ :: rest
  returns : target.vertex = source.vertex → points.getLast? = some ⟨source.right, source.midY⟩
  climbs : target.vertex ≠ source.vertex → target.midY < source.bottom →
    points.getLast? = some ⟨target.midX, target.bottom⟩
  descends : target.vertex ≠ source.vertex → source.bottom ≤ target.midY →
    points.getLast? = some ⟨target.midX, target.y⟩
  spares : target = source ∨ source.bottom + pad ≤ target.y ∨ target.bottom + pad ≤ source.y →
    points.IsChain source.Spared ∧ points.IsChain target.Spared

/-- An edge runs along the axes from the bottom of its source to its target, and through neither of
the two boxes if there is room for its turns. -/
theorem routeEdge_leads {style : EdgeStyle ℚ} {source target : VertexDrawing ℚ}
    (hpad : 0 < style.paddingLine) (hsource : 0 < source.height) (htarget : 0 < target.height)
    (startX : ℚ) :
    Leads style.paddingLine source target startX (routeEdge style source target startX) := by
  have hfollows := follows_outline style source target startX
  have htraced := traced_outline style source target startX
  have hlast : (routeEdge style source target startX).getLast? =
      ((outline style source target startX).map Corner.point).getLast? :=
    getLast?_dropRepeats hfollows
  have hchain {R : Point ℚ → Point ℚ → Prop}
      (h : ((outline style source target startX).map Corner.point).IsChain R) :
      (routeEdge style source target startX).IsChain fun p q => R p q ∧ p ≠ q :=
    isChain_dropRepeats hfollows h
  refine ⟨?_, leaves_routeEdge hpad source target startX,
    fun same => hlast.trans (htraced.returns same),
    fun other above => hlast.trans (htraced.climbs other above),
    fun other below => hlast.trans (htraced.descends other below), fun hroom => ?_⟩
  · refine (hchain htraced.aligned).imp ?_
    rintro ⟨x, y⟩ ⟨x', y'⟩ ⟨hx | hy, hne⟩
    · exact .inl ⟨hx, fun hy => hne (by rw [Point.mk.injEq]; exact ⟨hx, hy⟩)⟩
    · exact .inr ⟨hy, fun hx => hne (by rw [Point.mk.injEq]; exact ⟨hx, hy⟩)⟩
  · have hsource' := hchain (htraced.beside_source hpad hsource htarget hroom)
    have htarget' := hchain (htraced.beside_target hpad hsource htarget hroom)
    exact ⟨hsource'.imp fun _ _ h => h.1.spared, htarget'.imp fun _ _ h => h.1.spared⟩

/-- An edge to a target above its source, and to the right of it, goes past the right side. -/
theorem climbing_leads :
    let source : VertexDrawing ℚ := ⟨0, 0, 100, 100, 50, []⟩
    let target : VertexDrawing ℚ := ⟨1, 60, 0, 40, 30, []⟩
    let style : EdgeStyle ℚ := .standard
    (0 < style.paddingLine ∧ 0 < source.height ∧ 0 < target.height) ∧
      (routeEdge style source target 50).map (fun p => (p.x, p.y)) =
        [(50, 150), (50, 175), (125, 175), (125, 55), (80, 55), (80, 30)] ∧
      Leads style.paddingLine source target 50 (routeEdge style source target 50) := by
  intro source target style
  have hpad : 0 < style.paddingLine := by decide +kernel
  have hsource : 0 < source.height := by decide +kernel
  have htarget : 0 < target.height := by decide +kernel
  exact ⟨⟨hpad, hsource, htarget⟩, by decide +kernel, routeEdge_leads hpad hsource htarget 50⟩

end EdgeRoutes

end DebugDesk
