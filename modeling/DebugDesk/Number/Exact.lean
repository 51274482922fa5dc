import DebugDesk.Number.Scalar

/-!
# Exact coordinates

Rational numbers are scalars without rounding, and without values that are not numbers. Roots of
them need not be rational, so whoever measures distances says how roots are rounded.
-/
namespace DebugDesk

namespace Exact

def quotient (a b : Int) : Except Fault Rat :=
  if b = 0 then .error .divisionByZero else .ok ((a : Rat) / (b : Rat))

theorem quotient_fault {a b : Int} {fault : Fault} (h : quotient a b = .error fault) :
    fault = .divisionByZero := by
  unfold quotient at h
  split at h
  · exact (Except.error.inj h).symm
  · cases h

instance : Scalar Rat where
  decidableLT := inferInstance
  decidableLE := inferInstance
  ofInt n := n
  quotient := quotient
  floor x := .ok x.floor
  text x := s!"{x.num}/{x.den}"
  quotient_fault h := .inl (quotient_fault h)
  le_trans := Rat.le_trans
  le_left _ := Rat.le_refl
  le_right _ := Rat.le_refl
  le_total _ _ := Rat.le_total
  lt_iff _ _ := ⟨fun h => ⟨Rat.le_of_lt h, Rat.not_le.mpr h⟩, fun h => Rat.not_le.mp h.2⟩
  beq_iff a b := by
    rw [beq_iff_eq]
    refine ⟨fun h => h ▸ ⟨Rat.le_refl, Rat.le_refl⟩, fun h => Rat.le_antisymm h.1 h.2⟩

end Exact

/-- How roots are rounded to exact numbers. -/
class ExactRoots where
  root : Rat → Rat
  hypotenuse : Rat → Rat → Rat

instance [ExactRoots] : RootScalar Rat where
  root := ExactRoots.root
  hypotenuse := ExactRoots.hypotenuse

end DebugDesk
