import DebugDesk.Effect
import DebugDesk.Number.Grid
import Mathlib.Algebra.Order.Field.Power
import Mathlib.Data.Rat.Floor
import Mathlib.Tactic.FieldSimp
import Mathlib.Tactic.Linarith
import Mathlib.Tactic.NormNum
import Mathlib.Tactic.Positivity
import Mathlib.Tactic.Ring

/-!
# Snapping is exact

Integers are snapped with doubles: a quotient is rounded, half a step is added and the sum is
rounded again. Up to `2 ^ 50` neither rounding carries the sum over an integer, so that the nearest
multiple is found, the greater one halfway between two.

An exact value is rounded to a double that is as close to it as any. So what is a double stays as it
is, rounding passes no double, and the error is at most half a unit of the last of 53 bits. Below
the next integer a quotient and a half leave at least half of the reciprocal of the grid, and both
errors together are less than that.
-/
namespace DebugDesk.Binary64

theorem abs_roundEven_sub_le (x : ℚ) : |(roundEven x : ℚ) - x| ≤ 1 / 2 := by
  have hlo : (x.floor : ℚ) ≤ x := Int.floor_le x
  have hhi : x < x.floor + 1 := Int.lt_floor_add_one x
  unfold roundEven
  dsimp only
  rw [abs_le]
  split_ifs <;> push_cast <;> constructor <;> linarith

theorem roundEven_closest (x : ℚ) (k : ℤ) : |(roundEven x : ℚ) - x| ≤ |(k : ℚ) - x| := by
  by_cases hk : k = roundEven x
  · rw [hk]
  · have hapart : (1 : ℚ) ≤ |(k : ℚ) - roundEven x| := by
      exact_mod_cast Int.one_le_abs (sub_ne_zero.mpr hk)
    have htriangle := abs_sub_le (k : ℚ) x (roundEven x)
    rw [abs_sub_comm x] at htriangle
    linarith [abs_roundEven_sub_le x]

theorem abs_eq (x : ℚ) : x.abs = |x| := by
  unfold Rat.abs
  split
  next h => exact (abs_of_nonneg h).symm
  next h => exact (abs_of_nonpos (le_of_not_ge h)).symm

theorem log2_bounds {x : ℚ} (hx : 0 < x) : (2 : ℚ) ^ log2 x ≤ x ∧ x < 2 ^ (log2 x + 1) := by
  have hnum : (0 : ℤ) < x.num := Rat.num_pos.mpr hx
  have hpow (n : ℕ) : ((2 ^ n : ℕ) : ℚ) = 2 ^ (n : ℤ) := by push_cast; exact (zpow_natCast 2 n).symm
  have hvalue : x = (x.num.natAbs : ℚ) / x.den := by
    rw [Nat.cast_natAbs, abs_of_pos hnum]
    exact (Rat.num_div_den x).symm
  have hden : (0 : ℚ) < x.den := by exact_mod_cast x.den_pos
  have hnumLo : (2 : ℚ) ^ (x.num.natAbs.log2 : ℤ) ≤ x.num.natAbs := by
    rw [← hpow]
    exact_mod_cast Nat.log2_self_le (by omega)
  have hnumHi : (x.num.natAbs : ℚ) < 2 ^ ((x.num.natAbs.log2 : ℤ) + 1) := by
    rw [← Nat.cast_one, ← Nat.cast_add, ← hpow]
    exact_mod_cast Nat.lt_log2_self
  have hdenLo : (2 : ℚ) ^ (x.den.log2 : ℤ) ≤ x.den := by
    rw [← hpow]
    exact_mod_cast Nat.log2_self_le x.den_nz
  have hdenHi : (x.den : ℚ) < 2 ^ ((x.den.log2 : ℤ) + 1) := by
    rw [← Nat.cast_one, ← Nat.cast_add, ← hpow]
    exact_mod_cast Nat.lt_log2_self
  set a : ℤ := (x.num.natAbs.log2 : ℤ)
  set b : ℤ := (x.den.log2 : ℤ)
  have hhi : x < 2 ^ (a - b + 1) := by
    rw [hvalue, div_lt_iff₀ hden]
    calc (x.num.natAbs : ℚ) < 2 ^ (a + 1) := hnumHi
      _ = 2 ^ (a - b + 1) * 2 ^ b := by rw [← zpow_add₀ two_ne_zero]; congr 1; ring
      _ ≤ 2 ^ (a - b + 1) * x.den := by gcongr
  have hlo : 2 ^ (a - b - 1) ≤ x := by
    rw [hvalue, le_div_iff₀ hden]
    calc (2 : ℚ) ^ (a - b - 1) * x.den ≤ 2 ^ (a - b - 1) * 2 ^ (b + 1) := by gcongr
      _ = 2 ^ a := by rw [← zpow_add₀ two_ne_zero]; congr 1; ring
      _ ≤ x.num.natAbs := hnumLo
  have hlog : log2 x = if (2 : ℚ) ^ (a - b) ≤ x then a - b else a - b - 1 := rfl
  rw [hlog]
  split
  next h => exact ⟨h, hhi⟩
  next h => exact ⟨hlo, by rw [sub_add_cancel]; exact lt_of_not_ge h⟩

/-- The grid around a value is the finest, or it has 53 bits for the value. -/
theorem gridExponent_cases (x : ℚ) :
    gridExponent x = leastExponent ∨
      leastExponent ≤ gridExponent x ∧ (2 : ℚ) ^ (gridExponent x + 52) ≤ |x| := by
  unfold gridExponent
  split
  · exact .inl rfl
  next hx =>
    have hlo := (log2_bounds (abs_pos.mpr hx)).1
    rw [abs_eq]
    rcases Int.le_total (log2 |x| - 52) leastExponent with h | h
    · exact .inl (max_eq_right h)
    · rw [max_eq_left h, sub_add_cancel]
      exact .inr ⟨h, hlo⟩

/-- A multiple of a power of two that doubles have, of at most 53 bits. -/
def IsDouble (d : ℚ) : Prop := ∃ m e : ℤ, |m| ≤ 2 ^ 53 ∧ leastExponent ≤ e ∧ d = m * 2 ^ e

theorem isDouble_intCast {n : ℤ} (h : |n| ≤ 2 ^ 53) : IsDouble n :=
  ⟨n, 0, h, by decide, by simp⟩

theorem isDouble_half {n : ℤ} (h : |n| ≤ 2 ^ 53) : IsDouble (n / 2) :=
  ⟨n, -1, h, by decide, by rw [zpow_neg_one, div_eq_mul_inv]⟩

/-- No multiple of the grid is closer. -/
theorem nearest_closest_grid (x : ℚ) (k : ℤ) :
    |nearest x - x| ≤ |k * 2 ^ gridExponent x - x| := by
  have hunit : (0 : ℚ) < 2 ^ gridExponent x := by positivity
  have hscale (n : ℤ) : |(n : ℚ) * 2 ^ gridExponent x - x| =
      |(n : ℚ) - x / 2 ^ gridExponent x| * 2 ^ gridExponent x := by
    rw [← abs_of_pos hunit, ← abs_mul, abs_of_pos hunit, sub_mul, div_mul_cancel₀ _ hunit.ne']
  change |(roundEven (x / 2 ^ gridExponent x) : ℚ) * 2 ^ gridExponent x - x| ≤ _
  rw [hscale, hscale]
  exact mul_le_mul_of_nonneg_right (roundEven_closest _ k) hunit.le

/-- From a value of more than 53 bits there is a multiple of the grid that has one bit, toward
zero. -/
theorem exists_grid_toward {x : ℚ} {e : ℤ} (h : (2 : ℚ) ^ (e + 52) ≤ |x|) :
    ∃ k : ℤ, |(k : ℚ) * 2 ^ e - x| = |x| - 2 ^ (e + 52) := by
  have hbits : ((2 ^ 52 : ℤ) : ℚ) * 2 ^ e = 2 ^ (e + 52) := by
    rw [zpow_add₀ two_ne_zero, mul_comm]
    norm_num
  rcases Rat.le_total with (hx : 0 ≤ x) | hx
  · rw [abs_of_nonneg hx] at h ⊢
    exact ⟨2 ^ 52, by rw [hbits, abs_sub_comm, abs_of_nonneg (sub_nonneg.mpr h)]⟩
  · rw [abs_of_nonpos hx] at h ⊢
    refine ⟨-2 ^ 52, ?_⟩
    rw [Int.cast_neg, neg_mul, hbits, abs_of_nonneg (by linarith)]
    ring

/-- What has 53 bits of a finer grid is less than 53 bits of this one. -/
theorem abs_le_of_finer {m e grid : ℤ} (hm : |m| ≤ 2 ^ 53) (he : e < grid) :
    |(m : ℚ) * 2 ^ e| ≤ 2 ^ (grid + 52) := by
  have hm : |(m : ℚ)| ≤ 2 ^ (53 : ℤ) := by exact_mod_cast hm
  have hpow : (2 : ℚ) ^ e ≤ 2 ^ (grid - 1) := zpow_le_zpow_right₀ (by norm_num) (by omega)
  rw [abs_mul, abs_of_pos (show (0 : ℚ) < 2 ^ e by positivity)]
  calc |(m : ℚ)| * 2 ^ e ≤ 2 ^ (53 : ℤ) * 2 ^ (grid - 1) := by gcongr
    _ = 2 ^ (grid + 52) := by rw [← zpow_add₀ two_ne_zero]; congr 1; ring

/-- No double is closer. -/
theorem nearest_closest (x : ℚ) {d : ℚ} (hd : IsDouble d) : |nearest x - x| ≤ |d - x| := by
  obtain ⟨m, e, hm, he, rfl⟩ := hd
  rcases le_or_gt (gridExponent x) e with hfine | hcoarse
  · have hgrid : (m : ℚ) * 2 ^ e =
        (m * 2 ^ (e - gridExponent x).toNat : ℤ) * 2 ^ gridExponent x := by
      push_cast
      rw [← zpow_natCast, Int.toNat_of_nonneg (by omega), mul_assoc, ← zpow_add₀ two_ne_zero,
        sub_add_cancel]
    rw [hgrid]
    exact nearest_closest_grid x _
  -- A double off the grid lies beyond a multiple of the grid, seen from the value.
  · have hbits := ((gridExponent_cases x).resolve_left (by omega)).2
    obtain ⟨k, hk⟩ := exists_grid_toward hbits
    have htriangle := abs_sub_abs_le_abs_sub x ((m : ℚ) * 2 ^ e)
    rw [abs_sub_comm] at htriangle
    have hclose := nearest_closest_grid x k
    rw [hk] at hclose
    linarith [abs_le_of_finer hm hcoarse]

theorem nearest_of_isDouble {d : ℚ} (hd : IsDouble d) : nearest d = d := by
  have h := nearest_closest d hd
  rw [sub_self, abs_zero] at h
  exact sub_eq_zero.mp (abs_nonpos_iff.mp h)

theorem le_nearest {d x : ℚ} (hd : IsDouble d) (h : d ≤ x) : d ≤ nearest x := by
  have hclose := nearest_closest x hd
  rw [abs_sub_comm d, abs_of_nonneg (sub_nonneg.mpr h)] at hclose
  linarith [(abs_le.mp hclose).1]

theorem abs_nearest_sub_le (x : ℚ) : |nearest x - x| ≤ |x| / 2 ^ 53 + 2 ^ (-1075 : ℤ) := by
  have hunit : (0 : ℚ) < 2 ^ gridExponent x := by positivity
  have hhalf : |nearest x - x| ≤ 2 ^ gridExponent x / 2 := by
    have hround := abs_roundEven_sub_le (x / 2 ^ gridExponent x)
    have hscale : nearest x - x = ((roundEven (x / 2 ^ gridExponent x) : ℚ) -
        x / 2 ^ gridExponent x) * 2 ^ gridExponent x := by
      rw [sub_mul, div_mul_cancel₀ _ hunit.ne']
      rfl
    rw [hscale, abs_mul, abs_of_pos hunit]
    linarith [mul_le_mul_of_nonneg_right hround hunit.le]
  have hleast : (2 : ℚ) ^ leastExponent = 2 ^ (-1075 : ℤ) * 2 := by
    rw [← zpow_add_one₀ two_ne_zero]
    rfl
  have htiny : (0 : ℚ) < 2 ^ (-1075 : ℤ) := by positivity
  have hshare : 0 ≤ |x| / 2 ^ 53 := by positivity
  rcases gridExponent_cases x with h | ⟨-, h⟩
  · rw [h, hleast] at hhalf
    linarith
  · rw [zpow_add₀ two_ne_zero] at h
    have hpart : (2 : ℚ) ^ gridExponent x / 2 ≤ |x| / 2 ^ 53 := by
      rw [le_div_iff₀ (by norm_num)]
      norm_num at h ⊢
      linarith
    linarith

end DebugDesk.Binary64

namespace DebugDesk.Grid

open Binary64

variable {x grid steps : ℤ}

/-- So many steps of a grid are the nearest multiple of it, the greater one halfway. -/
structure Nearest (x grid steps : ℤ) : Prop where
  lower : 2 * (grid * steps) ≤ 2 * x + grid
  upper : 2 * x + grid < 2 * (grid * steps) + 2 * grid

theorem nearest_floor (x : ℤ) (h : 0 < grid) :
    Nearest x grid ⌊((2 * x + grid : ℤ) : ℚ) / (2 * grid : ℤ)⌋ := by
  have hpos : (0 : ℚ) < (2 * grid : ℤ) := by exact_mod_cast (show 0 < 2 * grid by omega)
  have hlo := (le_div_iff₀ hpos).mp (Int.floor_le (((2 * x + grid : ℤ) : ℚ) / (2 * grid : ℤ)))
  have hhi := (div_lt_iff₀ hpos).mp
    (Int.lt_floor_add_one (((2 * x + grid : ℤ) : ℚ) / (2 * grid : ℤ)))
  have hlo : ⌊((2 * x + grid : ℤ) : ℚ) / (2 * grid : ℤ)⌋ * (2 * grid) ≤ 2 * x + grid := by
    exact_mod_cast hlo
  have hhi : 2 * x + grid < (⌊((2 * x + grid : ℤ) : ℚ) / (2 * grid : ℤ)⌋ + 1) * (2 * grid) := by
    exact_mod_cast hhi
  constructor <;> linarith

/-- No multiple is nearer, and none that is as near is greater. -/
theorem Nearest.best (h : Nearest x grid steps) (hgrid : 0 < grid) (m : ℤ) :
    |x - grid * steps| ≤ |x - grid * m| ∧
      (|x - grid * steps| = |x - grid * m| → grid * m ≤ grid * steps) := by
  obtain ⟨hlo, hhi⟩ := h
  have hnear : |2 * (x - grid * steps)| ≤ grid := abs_le.mpr ⟨by linarith, by linarith⟩
  rw [abs_mul, abs_two] at hnear
  rcases lt_trichotomy m steps with hm | rfl | hm
  · have hless : grid * m ≤ grid * steps - grid := by nlinarith
    have hfar := le_abs_self (x - grid * m)
    exact ⟨by linarith, fun _ => by linarith⟩
  · exact ⟨le_rfl, fun _ => le_rfl⟩
  · have hmore : grid * steps + grid ≤ grid * m := by nlinarith
    have hfar := neg_abs_le (x - grid * m)
    exact ⟨by linarith, fun htie => by linarith⟩

theorem Nearest.mono {x' steps' : ℤ} (h : Nearest x grid steps) (h' : Nearest x' grid steps')
    (hgrid : 0 < grid) (hle : x ≤ x') : steps ≤ steps' := by
  have hlt : grid * steps < grid * (steps' + 1) := by linarith [h.lower, h'.upper]
  exact Int.lt_add_one_iff.mp (lt_of_mul_lt_mul_left hlt hgrid.le)

theorem nearest_mul (steps : ℤ) (hgrid : 0 < grid) : Nearest (grid * steps) grid steps :=
  ⟨by linarith, by linarith⟩

theorem Nearest.unique {steps' : ℤ} (h : Nearest x grid steps) (h' : Nearest x grid steps')
    (hgrid : 0 < grid) : steps = steps' :=
  le_antisymm (h.mono h' hgrid le_rfl) (h'.mono h hgrid le_rfl)

theorem Nearest.bounded (h : Nearest x grid steps) (hx : |x| ≤ 2 ^ 50) (hgrid : 0 < grid) :
    |steps| ≤ 2 ^ 51 := by
  obtain ⟨hlo, hhi⟩ := h
  rw [abs_le] at hx ⊢
  constructor <;> nlinarith

/-- Where the exact sum leaves four parts to the next integer, each part at least what a rounding
changes, the two roundings do not reach it. -/
theorem floor_rounded {q : ℚ} {n : ℤ} (part : ℚ) (hn : |n| ≤ 2 ^ 51)
    (hleast : 1 / 2 ^ 53 ≤ part) (hmost : part ≤ 1 / 8) (hsize : |q| / 2 ^ 53 ≤ part)
    (hlo : (n : ℚ) - 1 / 2 ≤ q) (hhi : q ≤ n + 1 / 2 - 4 * part) :
    ⌊nearest (nearest q + 1 / 2)⌋ = n := by
  obtain ⟨hnlo, hnhi⟩ := abs_le.mp hn
  have htiny : (2 : ℚ) ^ (-1075 : ℤ) ≤ part / 8 := by
    calc (2 : ℚ) ^ (-1075 : ℤ) ≤ 2 ^ (-56 : ℤ) := zpow_le_zpow_right₀ (by norm_num) (by norm_num)
      _ = 1 / 2 ^ 53 / 8 := by norm_num
      _ ≤ part / 8 := by gcongr
  have hhalf : (n : ℚ) - 1 / 2 ≤ nearest q := by
    have hdouble := isDouble_half (n := 2 * n - 1) (abs_le.mpr ⟨by linarith, by linarith⟩)
    push_cast at hdouble
    rw [sub_div, mul_div_cancel_left₀ _ (two_ne_zero' ℚ)] at hdouble
    exact le_nearest hdouble hlo
  have hwhole : (n : ℚ) ≤ nearest (nearest q + 1 / 2) :=
    le_nearest (isDouble_intCast (abs_le.mpr ⟨by linarith, by linarith⟩)) (by linarith)
  have hfirst := abs_le.mp (abs_nearest_sub_le q)
  have hsecond := (abs_le.mp (abs_nearest_sub_le (nearest q + 1 / 2))).2
  have hsum : |nearest q + 1 / 2| / 2 ^ 53 ≤ 2 * part := by
    have hle : |nearest q + 1 / 2| ≤ |q| + 1 := by
      rw [abs_le]
      constructor <;> linarith [neg_abs_le q, le_abs_self q]
    have hdiv : |nearest q + 1 / 2| / 2 ^ 53 ≤ (|q| + 1) / 2 ^ 53 := by gcongr
    rw [add_div] at hdiv
    linarith
  refine Int.floor_eq_iff.mpr ⟨hwhole, ?_⟩
  linarith

/-- The parts are eighths of the reciprocal of the grid. -/
theorem Nearest.floor_eq (h : Nearest x grid steps) (hx : |x| ≤ 2 ^ 50) (hgrid : 0 < grid)
    (hgrid' : grid ≤ 2 ^ 50) : ⌊nearest (nearest ((x : ℚ) / grid) + 1 / 2)⌋ = steps := by
  have hpos : (0 : ℚ) < grid := by exact_mod_cast hgrid
  have hone : (1 : ℚ) ≤ grid := by exact_mod_cast hgrid
  have hless : (grid : ℚ) ≤ 2 ^ 50 := by exact_mod_cast hgrid'
  have hx' : |(x : ℚ)| ≤ 2 ^ 50 := by exact_mod_cast hx
  have hlo : (2 : ℚ) * (grid * steps) ≤ 2 * x + grid := by exact_mod_cast h.lower
  have hhi : (2 : ℚ) * x + grid + 1 ≤ 2 * (grid * steps) + 2 * grid := by
    exact_mod_cast Int.add_one_le_iff.mpr h.upper
  refine floor_rounded (1 / 8 / grid) (h.bounded hx hgrid) ?_ ?_ ?_ ?_ ?_
  · rw [le_div_iff₀ hpos]
    linarith
  · rw [div_le_iff₀ hpos]
    linarith
  · rw [abs_div, abs_of_pos hpos, div_right_comm]
    refine div_le_div_of_nonneg_right ?_ hpos.le
    linarith
  · rw [le_div_iff₀ hpos]
    linarith
  · rw [div_le_iff₀ hpos, sub_mul, mul_assoc, div_mul_cancel₀ _ hpos.ne']
    linarith

theorem not_overflows {q : ℚ} (h : |q| ≤ 2 ^ 51) : overflows (nearest q) = false := by
  have htiny : (2 : ℚ) ^ (-1075 : ℤ) ≤ 1 := zpow_le_one_of_nonpos₀ (by norm_num) (by norm_num)
  have hnear := abs_nearest_sub_le q
  have htriangle := abs_sub_abs_le_abs_sub (nearest q) q
  have hgreat : (2 : ℚ) ^ 53 ≤ 2 ^ (1024 : ℤ) := by
    rw [← zpow_natCast]
    exact zpow_le_zpow_right₀ (by norm_num) (by norm_num)
  rw [overflows, abs_eq, decide_eq_false_iff_not, not_le]
  exact lt_of_lt_of_le (by linarith) hgreat

theorem snapInt_eq {x grid : ℤ} (hgrid : 0 < grid) (h : |(x : ℚ) / grid| ≤ 2 ^ 51) :
    snapInt x grid = .ok (⌊nearest (nearest ((x : ℚ) / grid) + 1 / 2)⌋ * grid) := by
  have hquotient : quotient x grid = .ok (nearest ((x : ℚ) / grid)) := by
    simp only [quotient, not_overflows h, Bool.false_eq_true, ↓reduceIte]
  rw [snapInt, if_neg (not_le.mpr hgrid), hquotient]
  rfl

theorem Nearest.snapInt_eq (h : Nearest x grid steps) (hx : |x| ≤ 2 ^ 50) (hgrid : 0 < grid)
    (hgrid' : grid ≤ 2 ^ 50) : snapInt x grid = .ok (grid * steps) := by
  have hone : (1 : ℚ) ≤ grid := by exact_mod_cast hgrid
  have hx' : |(x : ℚ)| ≤ 2 ^ 50 := by exact_mod_cast hx
  have hsize : |(x : ℚ) / grid| ≤ 2 ^ 51 := by
    rw [abs_div, abs_of_pos (zero_lt_one.trans_le hone), div_le_iff₀ (zero_lt_one.trans_le hone)]
    linarith
  rw [Grid.snapInt_eq hgrid hsize, h.floor_eq hx hgrid hgrid', mul_comm]

/-- Quotients that are integers are not rounded, and no halves either. -/
theorem snapInt_mul (hgrid : 0 < grid) (hsteps : |steps| ≤ 2 ^ 51) :
    snapInt (grid * steps) grid = .ok (grid * steps) := by
  have hpos : (0 : ℚ) < grid := by exact_mod_cast hgrid
  have hbounds := abs_le.mp hsteps
  have hvalue : ((grid * steps : ℤ) : ℚ) / grid = steps := by
    rw [Int.cast_mul, mul_div_cancel_left₀ _ hpos.ne']
  have hsize : |(steps : ℚ)| ≤ 2 ^ 51 := by exact_mod_cast hsteps
  have hwhole : nearest (steps : ℚ) = steps :=
    nearest_of_isDouble (isDouble_intCast (hsteps.trans (by norm_num)))
  have hhalf : nearest ((steps : ℚ) + 1 / 2) = steps + 1 / 2 := by
    have hdouble := isDouble_half (n := 2 * steps + 1) (abs_le.mpr ⟨by linarith, by linarith⟩)
    push_cast at hdouble
    rw [add_div, mul_div_cancel_left₀ _ (two_ne_zero' ℚ)] at hdouble
    exact nearest_of_isDouble hdouble
  rw [snapInt_eq hgrid (hvalue.symm ▸ hsize), hvalue, hwhole, hhalf, Int.floor_intCast_add]
  norm_num [mul_comm]

/-- Up to `2 ^ 50` an integer is snapped to the nearest multiple of the grid, the greater one
halfway; a multiple stays, so that to snap again changes nothing; and the order is kept. -/
theorem snapInt_exact {x grid : ℤ} (hx : |x| ≤ 2 ^ 50) (hgrid : 1 ≤ grid)
    (hgrid' : grid ≤ 2 ^ 50) :
    ∃ y, snapInt x grid = .ok y ∧ y = grid * ⌊((2 * x + grid : ℤ) : ℚ) / (2 * grid : ℤ)⌋ ∧
      (∀ m : ℤ, |x - y| ≤ |x - grid * m| ∧ (|x - y| = |x - grid * m| → grid * m ≤ y)) ∧
      (grid ∣ x → y = x) ∧ snapInt y grid = .ok y ∧
      ∀ x' : ℤ, |x'| ≤ 2 ^ 50 → x ≤ x' → ∃ y', snapInt x' grid = .ok y' ∧ y ≤ y' := by
  have hpos : 0 < grid := hgrid
  have hnear := nearest_floor x hpos
  generalize ⌊((2 * x + grid : ℤ) : ℚ) / (2 * grid : ℤ)⌋ = steps at hnear
  refine ⟨_, hnear.snapInt_eq hx hpos hgrid', rfl, hnear.best hpos, ?_,
    snapInt_mul hpos (hnear.bounded hx hpos), fun x' hx' hle => ?_⟩
  · rintro ⟨m, rfl⟩
    rw [hnear.unique (nearest_mul m hpos) hpos]
  · have hnear' := nearest_floor x' hpos
    exact ⟨_, hnear'.snapInt_eq hx' hpos hgrid',
      mul_le_mul_of_nonneg_left (hnear.mono hnear' hpos hle) hpos.le⟩

/-- A quotient that is just below a half, by half the reciprocal of a large grid, and the next
integer, for which it is just above. -/
theorem snapInt_near_half :
    snapInt (2 ^ 49 - 1) (2 ^ 50 - 1) = .ok 0 ∧
      snapInt (2 ^ 49) (2 ^ 50 - 1) = .ok (2 ^ 50 - 1) := by
  obtain ⟨y, hy, hfloor, -⟩ :=
    @snapInt_exact (2 ^ 49 - 1) (2 ^ 50 - 1) (by norm_num) (by norm_num) (by norm_num)
  obtain ⟨y', hy', hfloor', -⟩ :=
    @snapInt_exact (2 ^ 49) (2 ^ 50 - 1) (by norm_num) (by norm_num) (by norm_num)
  have hzero : ⌊((2 * (2 ^ 49 - 1) + (2 ^ 50 - 1) : ℤ) : ℚ) / (2 * (2 ^ 50 - 1) : ℤ)⌋ = 0 := by
    norm_num [Int.floor_eq_iff]
  have hone : ⌊((2 * 2 ^ 49 + (2 ^ 50 - 1) : ℤ) : ℚ) / (2 * (2 ^ 50 - 1) : ℤ)⌋ = 1 := by
    norm_num [Int.floor_eq_iff]
  rw [hfloor, hzero, mul_zero] at hy
  rw [hfloor', hone, mul_one] at hy'
  exact ⟨hy, hy'⟩

end DebugDesk.Grid
