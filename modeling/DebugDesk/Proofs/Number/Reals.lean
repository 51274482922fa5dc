import Mathlib
import DebugDesk.Number.Scalar

/-!
# Real coordinates

Real numbers are scalars with exact roots. Literals are the fractions they spell. Texts of scalars
stand in messages of faults only, where the whole part will do.
-/
namespace DebugDesk.Reals

noncomputable def quotient (a b : ℤ) : Except Fault ℝ :=
  if b = 0 then .error .divisionByZero else .ok ((a : ℝ) / (b : ℝ))

theorem quotient_fault {a b : ℤ} {fault : Fault} (h : quotient a b = .error fault) :
    fault = .divisionByZero := by
  unfold quotient at h
  split at h
  · exact (Except.error.inj h).symm
  · cases h

noncomputable instance : Scalar ℝ where
  toBEq := instBEqOfDecidableEq
  decidableLT := inferInstance
  decidableLE := inferInstance
  ofInt n := n
  quotient := quotient
  floor x := .ok ⌊x⌋
  text x := s!"{⌊x⌋}"
  quotient_fault h := .inl (quotient_fault h)
  le_trans := le_trans
  le_left _ := le_refl _
  le_right _ := le_refl _
  le_total _ _ := le_total _ _
  lt_iff _ _ := lt_iff_le_not_ge
  beq_iff a b := by rw [beq_iff_eq, le_antisymm_iff]

noncomputable instance : RootScalar ℝ where
  root := Real.sqrt
  hypotenuse x y := Real.sqrt (x * x + y * y)

theorem literal (m e : ℕ) :
    @OfScientific.ofScientific ℝ Scalar.toOfScientific m true e = m / 10 ^ e := by
  rw [← Rat.cast_ofScientific]
  change ((Rat.ofScientific m true e : ℚ) : ℝ) = _
  rw [Rat.ofScientific_true_def, Rat.mkRat_eq_div]
  push_cast
  rfl

theorem zero : @OfScientific.ofScientific ℝ Scalar.toOfScientific 0 true 1 = 0 := by
  rw [literal]
  norm_num

theorem greater_eq_max (a b : ℝ) : Scalar.greater a b = max a b := by
  unfold Scalar.greater
  split
  next h => exact (max_eq_right (le_of_lt h)).symm
  next h => exact (max_eq_left (le_of_not_gt h)).symm

theorem lesser_eq_min (a b : ℝ) : Scalar.lesser a b = min a b := by
  unfold Scalar.lesser
  split
  next h => exact (min_eq_right (le_of_lt h)).symm
  next h => exact (min_eq_left (le_of_not_gt h)).symm

theorem clamp_eq (x lo hi : ℝ) : Scalar.clamp x lo hi = min (max lo x) hi := by
  rw [Scalar.clamp, greater_eq_max, lesser_eq_min]

end DebugDesk.Reals
