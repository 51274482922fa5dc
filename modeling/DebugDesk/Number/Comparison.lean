/-!
# Comparison of doubles

Doubles that are numbers compare as their keys do: by sign and kind, then by exponent, then by
mantissa, the latter two turned round for negative values.
-/
namespace DebugDesk.Binary64

/-- What numbers are compared by, part by part. -/
structure Key where
  kind : Int
  exponent : Int
  mantissa : Int

namespace Key

def le (a b : Key) : Prop :=
  a.kind < b.kind ∨ a.kind = b.kind ∧ (a.exponent < b.exponent ∨
    a.exponent = b.exponent ∧ a.mantissa ≤ b.mantissa)

instance (a b : Key) : Decidable (a.le b) :=
  inferInstanceAs (Decidable (_ ∨ _ ∧ (_ ∨ _ ∧ _)))

def ordering (a b : Key) : Ordering :=
  if a.le b then if b.le a then .eq else .lt else .gt

theorem le_refl (a : Key) : a.le a := .inr ⟨rfl, .inr ⟨rfl, Int.le_refl _⟩⟩

theorem le_trans {a b c : Key} (h : a.le b) (h' : b.le c) : a.le c := by
  unfold le at h h' ⊢
  omega

theorem le_total (a b : Key) : a.le b ∨ b.le a := by
  unfold le
  omega

theorem swap_ordering (a b : Key) : (a.ordering b).swap = b.ordering a := by
  unfold ordering
  rcases le_total a b with h | h <;> by_cases h' : b.le a <;> by_cases h'' : a.le b <;>
    simp_all

theorem isLE_ordering (a b : Key) : (a.ordering b).isLE = true ↔ a.le b := by
  unfold ordering
  split
  · split <;> simp [*, Ordering.isLE]
  · simp [*, Ordering.isLE]

theorem ordering_eq_lt (a b : Key) : a.ordering b = .lt ↔ a.le b ∧ ¬b.le a := by
  unfold ordering
  split
  · split <;> simp [*]
  · simp [*]

theorem ordering_eq_eq (a b : Key) : a.ordering b = .eq ↔ a.le b ∧ b.le a := by
  unfold ordering
  split
  · split <;> simp [*]
  · simp [*]

end Key

open Float.Model (UnpackedFloat)

/-- The key of a double that is a number. -/
def key? : UnpackedFloat → Option Key
  | .notANumber => none
  | .infinity .negative => some ⟨-2, 0, 0⟩
  | .finite .negative m e _ => some ⟨-1, -e, -m⟩
  | .zero _ => some ⟨0, 0, 0⟩
  | .finite .positive m e _ => some ⟨1, e, m⟩
  | .infinity .positive => some ⟨2, 0, 0⟩

theorem ordering_positive (m n : Nat) (d e : Int) :
    Key.ordering ⟨1, d, m⟩ ⟨1, e, n⟩ = (compare d e).then (compare m n) := by
  have hd : compare d e = if d < e then .lt else if d = e then .eq else .gt := rfl
  have hm : compare m n = if m < n then .lt else if m = n then .eq else .gt := rfl
  simp only [Key.ordering, Key.le, hd, hm]
  by_cases h₁ : d < e
  · have h₂ : ¬(e < d ∨ e = d ∧ n ≤ m) := by omega
    simp [h₁, Int.not_lt.mpr (Int.le_of_lt h₁), Int.ne_of_gt h₁]
  · by_cases h₂ : d = e
    · subst h₂
      by_cases h₃ : m < n
      · simp [h₃, Nat.le_of_lt h₃]
      · by_cases h₄ : m = n
        · simp [h₄]
        · have h₅ : n < m := by omega
          simp [h₃, h₄, Nat.not_le.mpr h₅]
    · simp [h₁, h₂]

theorem ordering_negative (m n : Nat) (d e : Int) :
    Key.ordering ⟨-1, -d, -m⟩ ⟨-1, -e, -n⟩ = ((compare d e).then (compare m n)).swap := by
  have hneg (m n : Nat) (d e : Int) :
      Key.le ⟨-1, -d, -m⟩ ⟨-1, -e, -n⟩ ↔ Key.le ⟨1, e, n⟩ ⟨1, d, m⟩ := by
    simp only [Key.le, Int.lt_irrefl, false_or, true_and]
    omega
  rw [← ordering_positive, Key.swap_ordering]
  simp only [Key.ordering, hneg]

theorem compare_eq (a b : UnpackedFloat) :
    a.compare b = (key? a).bind fun x => (key? b).map x.ordering := by
  rcases a with s | _ | s | ⟨s, m, d, hm⟩ <;> rcases b with t | _ | t | ⟨t, n, e, hn⟩
  case finite.finite =>
    cases s <;> cases t
    · exact congrArg some (ordering_negative m n d e).symm
    · rfl
    · rfl
    · exact congrArg some (ordering_positive m n d e).symm
  all_goals first | rfl | (cases s <;> first | rfl | (cases t <;> rfl))

def keyOf? (x : Float) : Option Key := key? x.toModel.unpack

theorem le_iff (x y : Float) : x ≤ y ↔ ∃ a b, keyOf? x = some a ∧ keyOf? y = some b ∧ a.le b := by
  have h : x ≤ y ↔ x.toModel.unpack.le y.toModel.unpack = true := decide_eq_true_iff
  rw [h, UnpackedFloat.le, compare_eq]
  simp only [keyOf?]
  cases key? x.toModel.unpack <;> cases key? y.toModel.unpack <;> simp [Key.isLE_ordering]

theorem lt_iff (x y : Float) : x < y ↔ x ≤ y ∧ ¬y ≤ x := by
  have h : x < y ↔ x.toModel.unpack.lt y.toModel.unpack = true := decide_eq_true_iff
  rw [h, le_iff, le_iff, UnpackedFloat.lt, compare_eq]
  simp only [keyOf?]
  cases key? x.toModel.unpack <;> cases key? y.toModel.unpack <;> simp [Key.ordering_eq_lt]

theorem beq_iff (x y : Float) : (x == y) = true ↔ x ≤ y ∧ y ≤ x := by
  change (x.toModel.unpack.compare y.toModel.unpack == some .eq) = true ↔ _
  rw [le_iff, le_iff, compare_eq]
  simp only [keyOf?]
  cases key? x.toModel.unpack <;> cases key? y.toModel.unpack <;> simp [Key.ordering_eq_eq]

theorem le_trans {x y z : Float} (h : x ≤ y) (h' : y ≤ z) : x ≤ z := by
  rw [le_iff] at h h' ⊢
  obtain ⟨a, b, ha, hb, hab⟩ := h
  obtain ⟨b', c, hb', hc, hbc⟩ := h'
  obtain rfl : b = b' := Option.some.inj (hb.symm.trans hb')
  exact ⟨a, c, ha, hc, Key.le_trans hab hbc⟩

theorem le_left {x y : Float} (h : x ≤ y) : x ≤ x := by
  rw [le_iff] at h ⊢
  obtain ⟨a, b, ha, -, -⟩ := h
  exact ⟨a, a, ha, ha, a.le_refl⟩

theorem le_right {x y : Float} (h : x ≤ y) : y ≤ y := by
  rw [le_iff] at h ⊢
  obtain ⟨a, b, -, hb, -⟩ := h
  exact ⟨b, b, hb, hb, b.le_refl⟩

theorem le_total {x y : Float} (hx : x ≤ x) (hy : y ≤ y) : x ≤ y ∨ y ≤ x := by
  rw [le_iff] at hx hy
  obtain ⟨a, -, ha, -, -⟩ := hx
  obtain ⟨b, -, hb, -, -⟩ := hy
  rw [le_iff, le_iff]
  exact (a.le_total b).imp (fun h => ⟨a, b, ha, hb, h⟩) fun h => ⟨b, a, hb, ha, h⟩

end DebugDesk.Binary64
