import Mathlib

/-!
# Rounding of doubles

A positive value is cut off to the 53 bits of a mantissa, or to fewer for the least exponent, and
the mantissa is rounded by the two bits that say what was cut off. However great the value is,
rounding is monotone.
-/
namespace DebugDesk.Binary64

open Float.Model (UnpackedFloat Format totalExponent)
open Float.Model.UnpackedFloat

/-- Whether an extended mantissa is a value cut off, as its two residual bits tell. -/
def Represents (em : ExtendedMantissa) (x : ℚ) : Prop :=
  match em.roundBit, em.stickyBit with
  | false, false => x = em.mantissa
  | false, true => em.mantissa < x ∧ x < em.mantissa + 1 / 2
  | true, false => x = em.mantissa + 1 / 2
  | true, true => em.mantissa + 1 / 2 < x ∧ x < em.mantissa + 1

theorem represents_exact (m : ℕ) : Represents (.ofMantissaAndAccuracy m .exact) m := rfl

theorem Represents.mantissa {em : ExtendedMantissa} {x : ℚ} (h : Represents em x) :
    (em.mantissa : ℚ) ≤ x ∧ x < em.mantissa + 1 := by
  rcases em with ⟨m, _ | _, _ | _⟩ <;> simp only [Represents] at h <;> constructor <;> linarith

theorem Represents.shiftRightOne {em : ExtendedMantissa} {x : ℚ} (h : Represents em x) :
    Represents em.shiftRightOne (x / 2) := by
  rcases em with ⟨m, r, s⟩
  have hm : ((m % 2 : ℕ) : ℚ) + 2 * ((m / 2 : ℕ) : ℚ) = m := by exact_mod_cast Nat.mod_add_div m 2
  have hone : ((1 : ℕ) != 0) = true := rfl
  rcases Nat.mod_two_eq_zero_or_one m with hr | hr <;> rw [hr] at hm <;> push_cast at hm <;>
    cases r <;> cases s <;>
    simp only [Represents, ExtendedMantissa.shiftRightOne, hr, bne_self_eq_false, hone,
      Bool.or_false, Bool.or_true, Bool.or_self] at h ⊢ <;>
    first | linarith | (constructor <;> linarith)

theorem Represents.shiftRight {em : ExtendedMantissa} {x : ℚ} (h : Represents em x) (n : ℕ) :
    Represents (em >>> n) (x / 2 ^ n) := by
  change Represents (n.repeat ExtendedMantissa.shiftRightOne em) _
  induction n with
  | zero => simpa [Nat.repeat] using h
  | succ n ih =>
    rw [pow_succ, ← div_div]
    exact ih.shiftRightOne

theorem roundedMantissa_between (em : ExtendedMantissa) :
    em.mantissa ≤ em.roundedMantissa ∧ em.roundedMantissa ≤ em.mantissa + 1 := by
  rcases em with ⟨m, _ | _, _ | _⟩ <;>
    simp only [ExtendedMantissa.roundedMantissa, ExtendedMantissa.accuracy,
      Accuracy.roundToNearestEven] <;> omega

/-- Rounding to whole mantissas is monotone. -/
theorem Represents.rounded_le {em fm : ExtendedMantissa} {x y : ℚ} (h : Represents em x)
    (h' : Represents fm y) (hle : x ≤ y) : em.roundedMantissa ≤ fm.roundedMantissa := by
  have hm : em.mantissa ≤ fm.mantissa := by
    have hlt : (em.mantissa : ℚ) < fm.mantissa + 1 := by linarith [h.mantissa.1, h'.mantissa.2]
    exact Nat.lt_succ_iff.mp (by exact_mod_cast hlt)
  rcases hm.lt_or_eq with hlt | heq
  · have hmost := (roundedMantissa_between em).2
    have hleast := (roundedMantissa_between fm).1
    omega
  -- Values between the same two mantissas are told apart by the residual bits.
  · rcases em with ⟨m, _ | _, _ | _⟩ <;> rcases fm with ⟨n, _ | _, _ | _⟩ <;>
      obtain rfl : m = n := heq <;>
      simp only [Represents] at h h' <;>
      simp only [ExtendedMantissa.roundedMantissa, ExtendedMantissa.accuracy,
        Accuracy.roundToNearestEven] <;>
      first | omega | linarith

/-- The exponent to which a value less than `2 ^ top`, but not less than half of it, is rounded. -/
def target (top : ℤ) : ℤ := max (top - 53) (-1074)

theorem targetExponent_eq (top : ℤ) : Format.binary64.targetExponent top = target top := rfl

theorem target_lt {top : ℤ} (h : -1074 < top) : target top < top := by
  unfold target
  omega

/-- What a positive value, of an exponent that doubles have, is rounded to. -/
def RoundsTo (x v : ℚ) : Prop :=
  ∃ (top : ℤ) (em : ExtendedMantissa), -1074 < top ∧ 2 ^ (top - 1) ≤ x ∧ x < 2 ^ top ∧
    Represents em (x / 2 ^ target top) ∧ v = em.roundedMantissa * 2 ^ target top

/-- What lies between two powers of two is not rounded beyond them. -/
theorem Represents.rounded_between {em : ExtendedMantissa} {x : ℚ} {top e : ℤ}
    (h : Represents em (x / 2 ^ e)) (he : e < top) (hlo : 2 ^ (top - 1) ≤ x) (hhi : x < 2 ^ top) :
    2 ^ (top - 1) ≤ (em.roundedMantissa : ℚ) * 2 ^ e ∧
      (em.roundedMantissa : ℚ) * 2 ^ e ≤ 2 ^ top := by
  have hpos : (0 : ℚ) < 2 ^ e := by positivity
  have hpow (n : ℤ) (hn : e ≤ n) : ((2 ^ (n - e).toNat : ℕ) : ℚ) = 2 ^ n / 2 ^ e := by
    rw [Nat.cast_pow, ← zpow_natCast, Int.toNat_of_nonneg (by omega), ← zpow_sub₀ (by norm_num)]
    rfl
  constructor
  · have hle := (represents_exact (2 ^ (top - 1 - e).toNat)).rounded_le h (by
      rw [hpow _ (by omega)]
      gcongr)
    rw [← div_le_iff₀ hpos, ← hpow _ (by omega)]
    exact_mod_cast hle
  · have hle := h.rounded_le (represents_exact (2 ^ (top - e).toNat)) (by
      rw [hpow _ (by omega)]
      gcongr)
    rw [← le_div_iff₀ hpos, ← hpow _ (by omega)]
    exact_mod_cast hle

theorem RoundsTo.pos {x v : ℚ} (h : RoundsTo x v) : 0 < x ∧ 0 < v := by
  obtain ⟨top, em, htop, hlo, hhi, hem, rfl⟩ := h
  have hpos : (0 : ℚ) < 2 ^ (top - 1) := by positivity
  exact ⟨hpos.trans_le hlo, hpos.trans_le (hem.rounded_between (target_lt htop) hlo hhi).1⟩

/-- Rounding is monotone. -/
theorem RoundsTo.le {x y v w : ℚ} (h : RoundsTo x v) (h' : RoundsTo y w) (hle : x ≤ y) : v ≤ w := by
  obtain ⟨top, em, htop, hlo, hhi, hem, rfl⟩ := h
  obtain ⟨top', em', htop', hlo', hhi', hem', rfl⟩ := h'
  have htops : top - 1 < top' := by
    have hlt : (2 : ℚ) ^ (top - 1) < 2 ^ top' := hlo.trans_lt (hle.trans_lt hhi')
    exact (zpow_lt_zpow_iff_right₀ (by norm_num)).mp hlt
  rcases (show top = top' ∨ top ≤ top' - 1 by omega) with rfl | hlt
  · have hrounded : em.roundedMantissa ≤ em'.roundedMantissa := hem.rounded_le hem' (by gcongr)
    gcongr
  -- Values of different exponents have a power of two between them, and still have it when rounded.
  · calc (em.roundedMantissa : ℚ) * 2 ^ target top ≤ 2 ^ top :=
        (hem.rounded_between (target_lt htop) hlo hhi).2
      _ ≤ 2 ^ (top' - 1) := zpow_le_zpow_right₀ (by norm_num) hlt
      _ ≤ em'.roundedMantissa * 2 ^ target top' :=
        (hem'.rounded_between (target_lt htop') hlo' hhi').1

/-- Whether mantissa and exponent are those of a double, be it too great. -/
def Fits (m : ℕ) (e : ℤ) : Prop := m < 2 ^ 53 ∧ -1074 ≤ e ∧ (2 ^ 52 ≤ m ∨ e = -1074)

/-- A rounded mantissa is as long as one of a double, or too long by one bit that is zero. -/
theorem rounded_bits {em : ExtendedMantissa} {x : ℚ} {top : ℤ} (htop : -1074 < top)
    (hlo : 2 ^ (top - 1) ≤ x) (hhi : x < 2 ^ top) (h : Represents em (x / 2 ^ target top)) :
    0 < em.roundedMantissa ∧ em.roundedMantissa ≤ 2 ^ 53 ∧
      (2 ^ 52 ≤ em.roundedMantissa ∨ target top = -1074) := by
  obtain ⟨hleast, hmost⟩ := h.rounded_between (target_lt htop) hlo hhi
  have hpow : (0 : ℚ) < 2 ^ target top := by positivity
  refine ⟨?_, ?_, or_iff_not_imp_right.mpr fun hne => ?_⟩
  · have hprod : (0 : ℚ) < em.roundedMantissa * 2 ^ target top :=
      lt_of_lt_of_le (by positivity) hleast
    exact_mod_cast pos_of_mul_pos_left hprod hpow.le
  · have hle : (2 : ℚ) ^ top ≤ 2 ^ 53 * 2 ^ target top := by
      rw [← zpow_natCast, ← zpow_add₀ (by norm_num)]
      exact zpow_le_zpow_right₀ (by norm_num) (by unfold target; push_cast; omega)
    exact_mod_cast le_of_mul_le_mul_right (hmost.trans hle) hpow
  · have hexp : (2 : ℚ) ^ (top - 1) = 2 ^ 52 * 2 ^ target top := by
      rw [← zpow_natCast, ← zpow_add₀ (by norm_num)]
      congr 1
      unfold target at hne ⊢
      push_cast
      omega
    exact_mod_cast le_of_mul_le_mul_right (hexp ▸ hleast) hpow

/-- The bit that is too much is shifted out. -/
theorem fits_carried {r : ℕ} {t : ℤ} (hpos : 0 < r) (hr : r ≤ 2 ^ 53) (ht : -1074 ≤ t)
    (hlong : 2 ^ 52 ≤ r ∨ t = -1074) :
    let o := shiftToTargetExponent Format.binary64 r t .exact
    0 < o.1.mantissa ∧ Fits o.1.mantissa o.2 ∧ (o.1.mantissa : ℚ) * 2 ^ o.2 = r * 2 ^ t := by
  intro o
  rcases hr.lt_or_eq with hlt | rfl
  · have hlog : r.log2 < 53 := (Nat.log2_lt hpos.ne').mpr hlt
    have hshift : (Format.binary64.targetExponent (totalExponent r t) - t).toNat = 0 := by
      rw [targetExponent_eq, target, totalExponent]
      omega
    have ho : o = (.ofMantissaAndAccuracy r .exact, t + (0 : ℕ)) := by
      change shiftToExponent _ _ _ _ = _
      rw [shiftToExponent, hshift]
      rfl
    rw [ho, Nat.cast_zero, add_zero]
    exact ⟨hpos, ⟨hlt, ht, hlong⟩, rfl⟩
  · have hshift : (Format.binary64.targetExponent (totalExponent (2 ^ 53) t) - t).toNat = 1 := by
      rw [targetExponent_eq, target, totalExponent, Nat.log2_two_pow]
      omega
    have ho : o = (⟨2 ^ 52, false, false⟩, t + (1 : ℕ)) := by
      change shiftToExponent _ _ _ _ = _
      rw [shiftToExponent, hshift]
      rfl
    rw [ho]
    refine ⟨by norm_num, ⟨by norm_num, by push_cast; omega, .inl le_rfl⟩, ?_⟩
    push_cast
    rw [zpow_add₀ (by norm_num)]
    norm_num
    ring

theorem log2_mul_two_pow {m : ℕ} (hm : m ≠ 0) (n : ℕ) : (m * 2 ^ n).log2 = m.log2 + n := by
  induction n with
  | zero => simp
  | succ n ih =>
    rw [pow_succ, ← mul_assoc, mul_comm, Nat.log2_two_mul (by positivity), ih]
    omega

/-- With a lesser exponent a value is the same. -/
theorem decreased {m : ℕ} (hm : 0 < m) (e t : ℤ) :
    0 < (decreaseExponent m e t).1 ∧ (decreaseExponent m e t).2 ≤ t ∧
      totalExponent (decreaseExponent m e t).1 (decreaseExponent m e t).2 = totalExponent m e ∧
      ((decreaseExponent m e t).1 : ℚ) * 2 ^ (decreaseExponent m e t).2 = m * 2 ^ e := by
  simp only [decreaseExponent, Nat.shiftLeft_eq]
  refine ⟨by positivity, by omega, ?_, ?_⟩
  · rw [totalExponent, totalExponent, log2_mul_two_pow hm.ne']
    push_cast
    omega
  · push_cast
    rw [mul_assoc, ← zpow_natCast, ← zpow_add₀ (by norm_num), add_sub_cancel]

theorem represents_shifted (m : ℕ) {e t : ℤ} (h : e ≤ t) :
    (shiftToExponent m e .exact t).2 = t ∧
      Represents (shiftToExponent m e .exact t).1 (m * 2 ^ e / 2 ^ t) := by
  have hexp : (2 : ℚ) ^ t = 2 ^ (t - e).toNat * 2 ^ e := by
    rw [← zpow_natCast, ← zpow_add₀ (by norm_num), Int.toNat_of_nonneg (by omega), sub_add_cancel]
  refine ⟨by simp only [shiftToExponent]; omega, ?_⟩
  rw [hexp, mul_div_mul_right _ _ (by positivity)]
  exact (represents_exact m).shiftRight (t - e).toNat

theorem between_powers {m : ℕ} (hm : 0 < m) (e : ℤ) :
    (2 : ℚ) ^ (totalExponent m e - 1) ≤ m * 2 ^ e ∧ m * 2 ^ e < (2 : ℚ) ^ totalExponent m e := by
  have hpow (n : ℕ) : (2 : ℚ) ^ ((n : ℤ) + e) = (2 ^ n : ℕ) * 2 ^ e := by
    rw [zpow_add₀ (by norm_num)]
    simp
  have hlo : 2 ^ m.log2 ≤ m := Nat.log2_self_le hm.ne'
  have hhi : m < 2 ^ (m.log2 + 1) := Nat.lt_log2_self
  rw [totalExponent, show ((m.log2 : ℤ) + 1 + e - 1) = (m.log2 : ℤ) + e by omega, hpow,
    show ((m.log2 : ℤ) + 1 + e) = ((m.log2 + 1 : ℕ) : ℤ) + e by omega, hpow]
  exact ⟨by gcongr, by gcongr⟩

/-- A positive value is rounded, whatever exponent it comes with. -/
theorem round_positive (s : Sign) {m : ℕ} {e : ℤ} (hm : 0 < m) (he : -1074 ≤ e) :
    ∃ n d hn, UnpackedFloat.round Format.binary64 s m e = .finite s n d hn ∧ Fits n d ∧
      RoundsTo (m * 2 ^ e) (n * 2 ^ d) := by
  obtain ⟨top, htop⟩ : ∃ top, totalExponent m e = top := ⟨_, rfl⟩
  obtain ⟨-, hless, hsame, hvalue⟩ := decreased hm e (target top)
  obtain ⟨hlo, hhi⟩ := between_powers hm e
  have hlow : -1074 < top := by
    rw [← htop, totalExponent]
    omega
  rw [htop] at hlo hhi hsame
  generalize hd : decreaseExponent m e (target top) = d at hless hsame hvalue
  -- The first shift makes the exponent that of the result; the second one undoes a carry.
  obtain ⟨hexponent, hcut⟩ := represents_shifted d.1 hless
  rw [hvalue] at hcut
  generalize hem : (shiftToExponent d.1 d.2 .exact (target top)).1 = em at hcut
  obtain ⟨hpos, hshort, hlong⟩ := rounded_bits hlow hlo hhi hcut
  obtain ⟨hn, hfits, hcarried⟩ := fits_carried hpos hshort (by unfold target; omega) hlong
  refine ⟨_, _, hn, ?_, hfits, top, em, hlow, hlo, hhi, hcut, hcarried⟩
  have hfirst : shiftToTargetExponent Format.binary64 d.1 d.2 .exact = (em, target top) := by
    rw [shiftToTargetExponent, targetExponent_eq, hsame]
    exact Prod.ext hem hexponent
  rw [UnpackedFloat.round, targetExponent_eq, htop, hd]
  dsimp only
  rw [roundWithAccuracy, hfirst]
  exact dif_neg hn.ne'

end DebugDesk.Binary64
