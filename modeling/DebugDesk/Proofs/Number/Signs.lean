import Mathlib
import DebugDesk.Number.Scalar

/-!
# Signs of doubles

Squares, sums of squares, and what comes of dividing those by something positive are not negative,
however they are rounded, and whether they are numbers or not.
-/
namespace DebugDesk.Binary64

open Float.Model (UnpackedFloat Format)
open Float.Model.UnpackedFloat

/-- Neither a negative number nor the negative infinity. Zeros of both signs are unsigned. -/
def Unsigned : UnpackedFloat → Prop
  | .infinity .negative => False
  | .finite .negative .. => False
  | _ => True

theorem key_zero : keyOf? 0.0 = some ⟨0, 0, 0⟩ := rfl

theorem not_lt_zero_iff (x : Float) : ¬x < 0.0 ↔ Unsigned x.toModel.unpack := by
  rw [lt_iff, le_iff, le_iff, key_zero, keyOf?]
  cases x.toModel.unpack with
  | infinity s => cases s <;> simp [key?, Key.le, Unsigned]
  | notANumber => simp [key?, Unsigned]
  | zero s => simp [key?, Key.le, Unsigned]
  | finite s m e hm => cases s <;> simp [key?, Key.le, Unsigned]

/-- What is positive is unsigned, and no zero. -/
theorem zero_lt_iff (x : Float) : 0.0 < x ↔ x.toModel.unpack = .infinity .positive ∨
    ∃ m e hm, x.toModel.unpack = .finite .positive m e hm := by
  rw [lt_iff, le_iff, le_iff, key_zero, keyOf?]
  cases x.toModel.unpack with
  | infinity s => cases s <;> simp [key?, Key.le]
  | notANumber => simp [key?]
  | zero s => simp [key?, Key.le]
  | finite s m e hm => cases s <;> simp [key?, Key.le, hm]

theorem unsigned_round (spec : Format) (m : Nat) (e : Int) (a : Accuracy) :
    Unsigned (roundWithAccuracy spec .positive m e a) := by
  unfold roundWithAccuracy
  dsimp only
  split <;> trivial

theorem unsigned_normalize {spec : Format} {m : Int} (hm : 0 ≤ m) (e : Int) :
    Unsigned (UnpackedFloat.normalize spec m e .positive) := by
  unfold UnpackedFloat.normalize
  split
  next h =>
    rw [Int.compare_eq_lt] at h
    omega
  · trivial
  · exact unsigned_round _ _ _ _

theorem unsigned_unpack {spec : Format} {b : BitVec spec.numBits} (h : unpackSign b = 0#1) :
    Unsigned (unpack spec b) := by
  unfold unpack
  simp only [h]
  split
  · split <;> trivial
  · split
    · split <;> trivial
    · trivial

/-- What is packed keeps its sign. -/
theorem unsigned_repack {spec : Format} {a : UnpackedFloat} (h : Unsigned a) :
    Unsigned (unpack spec (UnpackedFloat.pack spec a)) := by
  cases a with
  | infinity s =>
    cases s with
    | negative => exact h.elim
    | positive => exact unsigned_unpack (unpackSign_packComponents _ _ _)
  | notANumber => exact unsigned_unpack (unpackSign_packComponents _ _ _)
  | zero s =>
    rw [UnpackedFloat.pack, unpack_packedZero]
    trivial
  | finite s m e hm =>
    cases s with
    | negative => exact h.elim
    | positive =>
      unfold UnpackedFloat.pack
      dsimp only
      split
      · exact unsigned_unpack (unpackSign_packComponents _ _ _)
      · split <;> exact unsigned_unpack (unpackSign_packComponents _ _ _)

theorem unsigned_mul_self (spec : Format) (a : UnpackedFloat) : Unsigned (mul spec a a) := by
  cases a with
  | infinity s => cases s <;> trivial
  | notANumber => trivial
  | zero s => trivial
  | finite s m e hm => cases s <;> exact unsigned_round _ _ _ _

theorem unsigned_add (spec : Format) {a b : UnpackedFloat} (ha : Unsigned a) (hb : Unsigned b) :
    Unsigned (add spec a b) := by
  rcases a with (_ | _) | _ | s | ⟨_ | _, m, d, hm⟩ <;>
    rcases b with (_ | _) | _ | t | ⟨_ | _, n, e, hn⟩ <;> try trivial
  · cases s <;> cases t <;> trivial
  · exact unsigned_normalize (Int.add_nonneg (Int.natCast_nonneg _) (Int.natCast_nonneg _)) _

theorem unsigned_div (spec : Format) {a b : UnpackedFloat} (ha : Unsigned a)
    (hb : b = .infinity .positive ∨ ∃ m e hm, b = .finite .positive m e hm) :
    Unsigned (div spec a b) := by
  rcases a with (_ | _) | _ | s | ⟨_ | _, m, d, hm⟩ <;>
    rcases hb with rfl | ⟨n, e, hn, rfl⟩ <;> try trivial
  exact unsigned_round _ _ _ _

theorem squareDistance_not_lt_zero (x₁ y₁ x₂ y₂ : Float) :
    ¬Scalar.squareDistance x₁ y₁ x₂ y₂ < 0.0 := by
  have hsquare (x : Float) : Unsigned (x * x).toModel.unpack :=
    unsigned_repack (unsigned_mul_self _ _)
  exact (not_lt_zero_iff _).mpr (unsigned_repack (unsigned_add _ (hsquare _) (hsquare _)))

theorem div_not_lt_zero {a b : Float} (ha : ¬a < 0.0) (hb : 0.0 < b) : ¬a / b < 0.0 := by
  rw [not_lt_zero_iff] at ha ⊢
  exact unsigned_repack (unsigned_div _ ha ((zero_lt_iff b).mp hb))

end DebugDesk.Binary64
