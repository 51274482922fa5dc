import Mathlib.Data.Rat.Cast.Order
import Mathlib.Order.Bounds.Basic
import Mathlib.Order.MinMax
import Mathlib.Tactic.NormNum
import DebugDesk.Number.Exact

/-!
# Arithmetic of exact coordinates

Literals are the fractions they spell, the greater and the lesser of two values are their maximum
and their minimum, and so are the greatest and the least of a list.
-/
namespace DebugDesk.Exact

theorem literal (m e : ℕ) :
    @OfScientific.ofScientific ℚ Scalar.toOfScientific m true e = m / 10 ^ e := by
  change Rat.ofScientific m true e = _
  rw [Rat.ofScientific_true_def, Rat.mkRat_eq_div]
  push_cast
  rfl

theorem zero : @OfScientific.ofScientific ℚ Scalar.toOfScientific 0 true 1 = 0 := by
  rw [literal]
  norm_num

theorem one : @OfScientific.ofScientific ℚ Scalar.toOfScientific 10 true 1 = 1 := by
  rw [literal]
  norm_num

theorem two : @OfScientific.ofScientific ℚ Scalar.toOfScientific 20 true 1 = 2 := by
  rw [literal]
  norm_num

theorem greater_eq_max (a b : ℚ) : Scalar.greater a b = max a b := by
  unfold Scalar.greater
  split
  next h => exact (max_eq_right (le_of_lt h)).symm
  next h => exact (max_eq_left (le_of_not_gt h)).symm

theorem lesser_eq_min (a b : ℚ) : Scalar.lesser a b = min a b := by
  unfold Scalar.lesser
  split
  next h => exact (min_eq_right (le_of_lt h)).symm
  next h => exact (min_eq_left (le_of_not_gt h)).symm

/-- Of a list from which the better of two values is chosen again and again, the best remains. -/
theorem foldl_best (better : ℚ → ℚ → Prop) (choose : ℚ → ℚ → ℚ)
    (htrans : ∀ {x y z}, better x y → better y z → better x z)
    (choice : ∀ x y, choose x y = x ∨ choose x y = y)
    (left : ∀ x y, better (choose x y) x) (right : ∀ x y, better (choose x y) y) (x : ℚ)
    (xs : List ℚ) :
    xs.foldl choose x ∈ x :: xs ∧ ∀ y ∈ x :: xs, better (xs.foldl choose x) y := by
  induction xs generalizing x with
  | nil =>
    refine ⟨List.mem_cons_self, fun y hy => ?_⟩
    obtain rfl := List.mem_singleton.mp hy
    have hsame := left y y
    rcases choice y y with h | h <;> rwa [h] at hsame
  | cons y ys ih =>
    obtain ⟨hmem, hbest⟩ := ih (choose x y)
    have hchosen := hbest _ List.mem_cons_self
    refine ⟨?_, fun z hz => ?_⟩
    · rcases List.mem_cons.mp hmem with h | h
      · rw [List.foldl_cons, h]
        rcases choice x y with h | h <;> simp [h]
      · exact List.mem_cons_of_mem _ (List.mem_cons_of_mem _ h)
    · rcases List.mem_cons.mp hz with rfl | hz
      · exact htrans hchosen (left _ _)
      · rcases List.mem_cons.mp hz with rfl | hz
        · exact htrans hchosen (right _ _)
        · exact hbest z (List.mem_cons_of_mem _ hz)

theorem isLeast_least (start : ℚ) {xs : List ℚ} (h : xs ≠ []) :
    IsLeast {y | y ∈ xs} (Scalar.least start xs) := by
  cases xs with
  | nil => exact absurd rfl h
  | cons x xs =>
    have hbest := foldl_best (· ≤ ·) Scalar.lesser le_trans
      (fun x y => by rw [lesser_eq_min]; exact min_choice x y)
      (fun x y => by rw [lesser_eq_min]; exact min_le_left x y)
      (fun x y => by rw [lesser_eq_min]; exact min_le_right x y) x xs
    exact ⟨hbest.1, hbest.2⟩

theorem isGreatest_greatest (start : ℚ) {xs : List ℚ} (h : xs ≠ []) :
    IsGreatest {y | y ∈ xs} (Scalar.greatest start xs) := by
  cases xs with
  | nil => exact absurd rfl h
  | cons x xs =>
    have hbest := foldl_best (· ≥ ·) Scalar.greater ge_trans
      (fun x y => by rw [greater_eq_max]; exact max_choice x y)
      (fun x y => by rw [greater_eq_max]; exact le_max_left x y)
      (fun x y => by rw [greater_eq_max]; exact le_max_right x y) x xs
    exact ⟨hbest.1, hbest.2⟩

end DebugDesk.Exact
