import DebugDesk.Number.Comparison
import DebugDesk.Proofs.Number.Rounding

/-!
# Sums of doubles

A sum of doubles is the exact sum of their values, rounded to the nearest double, and infinite if
that is too great. So sums are in the order of what is added to the same double, be it subnormal,
infinite, or no number.
-/
namespace DebugDesk.Binary64

open Float.Model (UnpackedFloat Format totalExponent)
open Float.Model.UnpackedFloat

def value : UnpackedFloat → ℚ
  | .finite .negative m e _ => -(m * 2 ^ e)
  | .finite .positive m e _ => m * 2 ^ e
  | _ => 0

/-- Whether an unpacked double is finite, and rounded. -/
def Canonical : UnpackedFloat → Prop
  | .zero _ => True
  | .finite _ m e _ => Fits m e
  | _ => False

/-- What a value is rounded to. -/
inductive Nearest (x v : ℚ) : Prop
  | zero (value : x = 0) (rounded : v = 0)
  | positive (rounds : RoundsTo x v)
  | negative (rounds : RoundsTo (-x) (-v))

theorem Nearest.le {x y v w : ℚ} (h : Nearest x v) (h' : Nearest y w) (hle : x ≤ y) : v ≤ w := by
  cases h with
  | zero hx hv =>
    cases h' with
    | zero hy hw => exact (hv.trans hw.symm).le
    | positive hy => exact hv.trans_le hy.pos.2.le
    | negative hy => linarith [hy.pos.1]
  | positive hx =>
    cases h' with
    | zero hy hw => linarith [hx.pos.1]
    | positive hy => exact hx.le hy hle
    | negative hy => linarith [hx.pos.1, hy.pos.1]
  | negative hx =>
    cases h' with
    | zero hy hw => linarith [hx.pos.2]
    | positive hy => linarith [hx.pos.2, hy.pos.2]
    | negative hy => exact neg_le_neg_iff.mp (hy.le hx (neg_le_neg hle))

theorem nearest_normalize (n : ℤ) {e : ℤ} (he : -1074 ≤ e) :
    Canonical (UnpackedFloat.normalize Format.binary64 n e .positive) ∧
      Nearest (n * 2 ^ e) (value (UnpackedFloat.normalize Format.binary64 n e .positive)) := by
  unfold UnpackedFloat.normalize
  rcases lt_trichotomy n 0 with hn | rfl | hn
  · obtain ⟨m, d, hm, hround, hfits, hrounds⟩ :=
      round_positive .negative (show 0 < (-n).toNat by omega) he
    have hcast : (((-n).toNat : ℕ) : ℚ) = -n := by
      exact_mod_cast Int.toNat_of_nonneg (show 0 ≤ -n by omega)
    rw [show compare n 0 = .lt from Int.compare_eq_lt.mpr hn]
    dsimp only
    rw [hround]
    refine ⟨hfits, .negative ?_⟩
    rwa [value, neg_neg, ← neg_mul, ← hcast]
  · exact ⟨trivial, .zero (by simp) rfl⟩
  · obtain ⟨m, d, hm, hround, hfits, hrounds⟩ :=
      round_positive .positive (show 0 < n.toNat by omega) he
    have hcast : ((n.toNat : ℕ) : ℚ) = n := by
      exact_mod_cast Int.toNat_of_nonneg (show 0 ≤ n by omega)
    rw [show compare n 0 = .gt from Int.compare_eq_gt.mpr hn]
    dsimp only
    rw [hround]
    refine ⟨hfits, .positive ?_⟩
    rwa [value, ← hcast]

/-- What is rounded already stays as it is. -/
theorem Fits.roundsTo {m : ℕ} {e : ℤ} (h : Fits m e) (hm : 0 < m) :
    RoundsTo (m * 2 ^ e) (m * 2 ^ e) := by
  obtain ⟨hshort, he, hlong⟩ := h
  have hlog : m.log2 < 53 := (Nat.log2_lt hm.ne').mpr hshort
  have htarget : target (totalExponent m e) = e := by
    rw [target, totalExponent]
    rcases hlong with hlong | rfl
    · have hlog' : 52 ≤ m.log2 := (Nat.le_log2 hm.ne').mpr hlong
      omega
    · omega
  obtain ⟨hlo, hhi⟩ := between_powers hm e
  refine ⟨totalExponent m e, .ofMantissaAndAccuracy m .exact, by rw [totalExponent]; omega, hlo,
    hhi, ?_, ?_⟩
  · rw [htarget, mul_div_cancel_right₀ _ (by positivity)]
    exact represents_exact m
  · rw [htarget]
    rfl

theorem Canonical.nearest {a : UnpackedFloat} (h : Canonical a) : Nearest (value a) (value a) := by
  rcases a with _ | _ | s | ⟨_ | _, m, e, hm⟩
  · exact h.elim
  · exact h.elim
  · exact .zero rfl rfl
  · refine .negative ?_
    rw [value, neg_neg]
    exact Fits.roundsTo h hm
  · exact .positive (Fits.roundsTo h hm)

theorem value_finite (s : Sign) (m : ℕ) (e : ℤ) (hm : 0 < m) :
    value (.finite s m e hm) = (s.apply m : ℤ) * 2 ^ e := by
  cases s <;> simp [value, Sign.apply]

theorem apply_decreased (s : Sign) {m : ℕ} (hm : 0 < m) {e t : ℤ} (h : t ≤ e) :
    ((s.apply (decreaseExponent m e t).1 : ℤ) : ℚ) * 2 ^ t = (s.apply m : ℤ) * 2 ^ e := by
  obtain ⟨-, -, -, hvalue⟩ := decreased hm e t
  rw [show (decreaseExponent m e t).2 = t by simp only [decreaseExponent]; omega] at hvalue
  cases s <;> simp [Sign.apply, hvalue]

/-- A sum of finite doubles is that of their values, rounded. -/
theorem nearest_add {a b : UnpackedFloat} (ha : Canonical a) (hb : Canonical b) :
    Canonical (add Format.binary64 a b) ∧
      Nearest (value a + value b) (value (add Format.binary64 a b)) := by
  rcases a with _ | _ | s | ⟨s, m, d, hm⟩
  · exact ha.elim
  · exact ha.elim
  · rcases b with _ | _ | t | ⟨t, n, e, hn⟩
    · exact hb.elim
    · exact hb.elim
    · cases s <;> cases t <;> exact ⟨trivial, .zero (zero_add _) rfl⟩
    · exact ⟨hb, (zero_add (value (.finite t n e hn))).symm ▸ hb.nearest⟩
  · rcases b with _ | _ | t | ⟨t, n, e, hn⟩
    · exact hb.elim
    · exact hb.elim
    · exact ⟨ha, (add_zero (value (.finite s m d hm))).symm ▸ ha.nearest⟩
    · have he : -1074 ≤ min d e := le_min ha.2.1 hb.2.1
      rw [value_finite, value_finite, ← apply_decreased s hm (min_le_left d e),
        ← apply_decreased t hn (min_le_right d e), ← add_mul]
      exact_mod_cast nearest_normalize _ he

theorem Fits.lt {m n : ℕ} {d e : ℤ} (hm : Fits m d) (hn : Fits n e) (h : d < e) :
    (m : ℚ) * 2 ^ d < n * 2 ^ e := by
  have hlong : 2 ^ 52 ≤ n := hn.2.2.resolve_right (by have := hm.2.1; omega)
  calc (m : ℚ) * 2 ^ d < 2 ^ 53 * 2 ^ d := by
        have hshort : (m : ℚ) < 2 ^ 53 := by exact_mod_cast hm.1
        gcongr
    _ = 2 ^ 52 * 2 ^ (d + 1) := by
        rw [zpow_add₀ (by norm_num)]
        ring
    _ ≤ n * 2 ^ e := by
        have hle : (2 : ℚ) ^ 52 ≤ n := by exact_mod_cast hlong
        gcongr
        · norm_num
        · omega

theorem Fits.le_iff {m n : ℕ} {d e : ℤ} (hm : Fits m d) (hn : Fits n e) :
    (m : ℚ) * 2 ^ d ≤ n * 2 ^ e ↔ d < e ∨ d = e ∧ m ≤ n := by
  rcases lt_trichotomy d e with h | rfl | h
  · exact iff_of_true (hm.lt hn h).le (.inl h)
  · rw [mul_le_mul_iff_left₀ (by positivity), Nat.cast_le]
    simp
  · exact iff_of_false (hn.lt hm h).not_ge (by omega)

/-- The key and the value of a finite double. -/
inductive Keyed : Key → ℚ → Prop
  | negative {m : ℕ} {e : ℤ} (fits : Fits m e) (pos : 0 < m) : Keyed ⟨-1, -e, -m⟩ (-(m * 2 ^ e))
  | zero : Keyed ⟨0, 0, 0⟩ 0
  | positive {m : ℕ} {e : ℤ} (fits : Fits m e) (pos : 0 < m) : Keyed ⟨1, e, m⟩ (m * 2 ^ e)

theorem Canonical.keyed {a : UnpackedFloat} (h : Canonical a) :
    ∃ k, key? a = some k ∧ Keyed k (value a) := by
  rcases a with _ | _ | s | ⟨_ | _, m, e, hm⟩
  · exact h.elim
  · exact h.elim
  · exact ⟨_, rfl, .zero⟩
  · exact ⟨_, rfl, .negative h hm⟩
  · exact ⟨_, rfl, .positive h hm⟩

theorem Keyed.kind {k : Key} {x : ℚ} (h : Keyed k x) : -1 ≤ k.kind ∧ k.kind ≤ 1 := by
  cases h <;> simp

/-- Finite doubles compare as their values do. -/
theorem Keyed.le_iff {k l : Key} {x y : ℚ} (h : Keyed k x) (h' : Keyed l y) :
    k.le l ↔ x ≤ y := by
  have hpos {m : ℕ} (hm : 0 < m) (e : ℤ) : (0 : ℚ) < m * 2 ^ e := by positivity
  cases h with
  | @negative m d hfits hm =>
    cases h' with
    | @negative n e hfits' hn =>
      rw [neg_le_neg_iff, hfits'.le_iff hfits, Key.le]
      dsimp only
      omega
    | zero => exact iff_of_true (by simp [Key.le]) (by linarith [hpos hm d])
    | @positive n e hfits' hn =>
      exact iff_of_true (by simp [Key.le]) (by linarith [hpos hm d, hpos hn e])
  | zero =>
    cases h' with
    | @negative n e hfits' hn =>
      exact iff_of_false (by simp [Key.le]) (by linarith [hpos hn e])
    | zero => exact iff_of_true (Key.le_refl _) le_rfl
    | @positive n e hfits' hn => exact iff_of_true (by simp [Key.le]) (hpos hn e).le
  | @positive m d hfits hm =>
    cases h' with
    | @negative n e hfits' hn =>
      exact iff_of_false (by simp [Key.le]) (by linarith [hpos hm d, hpos hn e])
    | zero => exact iff_of_false (by simp [Key.le]) (by linarith [hpos hm d])
    | @positive n e hfits' hn =>
      rw [hfits.le_iff hfits', Key.le]
      dsimp only
      omega

/-- What a double is unpacked to after it was packed. -/
def stored (a : UnpackedFloat) : UnpackedFloat :=
  unpack Format.binary64 (UnpackedFloat.pack Format.binary64 a)

theorem unpack_add (x y : Float) : (x + y).toModel.unpack =
    stored (add Format.binary64 x.toModel.unpack y.toModel.unpack) := rfl

theorem stored_notANumber : stored .notANumber = .notANumber := unpack_packedNaN

theorem stored_infinity (s : Sign) : stored (.infinity s) = .infinity s := by
  simp [stored, UnpackedFloat.pack, unpack, packedInfinity]

/-- A finite double that is too great is stored as infinite. -/
theorem stored_of_great (s : Sign) {m : ℕ} {e : ℤ} (hm : 0 < m) (he : 971 < e) :
    stored (.finite s m e hm) = .infinity s := by
  have hgreat : 2 ^ 11 ≤ (e + 1023 + 52).toNat + 1 := by omega
  have hpack : UnpackedFloat.pack Format.binary64 (.finite s m e hm) =
      packedInfinity Format.binary64 s := if_pos hgreat
  rw [stored, hpack]
  exact stored_infinity s

theorem toNat_implicit (v : BitVec 52) : (1#1 ++ v).toNat = 2 ^ 52 + v.toNat := by
  rw [BitVec.toNat_append, ← Nat.shiftLeft_add_eq_or_of_lt v.isLt]
  rfl

/-- The components of a normal double. -/
theorem unpack_normal (s : Sign) {m b : ℕ} (hm : 0 < m) (hlong : 2 ^ 52 ≤ m) (hshort : m < 2 ^ 53)
    (hb : 0 < b) (hfinite : b < 2047) :
    unpack Format.binary64
        (packComponents Format.binary64 s (BitVec.ofNat 11 b) (BitVec.ofNat 52 m)) =
      .finite s m (b - 1075) hm := by
  have hmantissa : (1#1 ++ BitVec.ofNat 52 m).toNat = m := by
    rw [toNat_implicit, BitVec.toNat_ofNat]
    omega
  have hexponent : (BitVec.ofNat 11 b).toNat = b := by
    rw [BitVec.toNat_ofNat, Nat.mod_eq_of_lt (by omega)]
  have hzero : BitVec.ofNat 11 b ≠ 0#11 := fun h => by
    have hnat := congrArg BitVec.toNat h
    rw [hexponent, BitVec.toNat_zero] at hnat
    omega
  have hones : BitVec.ofNat 11 b ≠ -1#(11) := fun h => by
    have hnat : b = 2047 := hexponent.symm.trans (congrArg BitVec.toNat h)
    omega
  unfold unpack
  simp only [unpackMantissa_packComponents, unpackExponent_packComponents,
    unpackSign_packComponents, Sign.ofBitVec_toBitVec]
  rw [if_neg hones, if_neg hzero]
  congr 1
  rw [hexponent]
  rfl

/-- The components of a subnormal double. -/
theorem unpack_subnormal (s : Sign) {m : ℕ} (hm : 0 < m) (hshort : m < 2 ^ 52) :
    unpack Format.binary64 (packComponents Format.binary64 s 0#11 (BitVec.ofNat 52 m)) =
      .finite s m (-1074) hm := by
  have hmantissa : (BitVec.ofNat 52 m).toNat = m := by
    rw [BitVec.toNat_ofNat, Nat.mod_eq_of_lt hshort]
  have hzero : BitVec.ofNat 52 m ≠ 0#52 := fun h => by
    have hnat := congrArg BitVec.toNat h
    rw [hmantissa, BitVec.toNat_zero] at hnat
    omega
  unfold unpack
  simp only [unpackMantissa_packComponents, unpackExponent_packComponents,
    unpackSign_packComponents, Sign.ofBitVec_toBitVec]
  rw [if_neg (by decide), if_pos trivial, dif_neg hzero]
  simp only [hmantissa]
  rfl

/-- A finite double that is not too great is stored as it is. -/
theorem stored_of_fits (s : Sign) {m : ℕ} {e : ℤ} (h : Fits m e) (hm : 0 < m) (he : e ≤ 971) :
    stored (.finite s m e hm) = .finite s m e hm := by
  obtain ⟨hshort, hleast, hlong⟩ := h
  obtain ⟨b, hb⟩ : ∃ b : ℕ, (e + 1023 + 52).toNat = b := ⟨_, rfl⟩
  have hfinite : ¬2 ^ 11 ≤ b + 1 := by omega
  have hpack : UnpackedFloat.pack Format.binary64 (.finite s m e hm) =
      if m.log2 + 1 = 53 then
        packComponents Format.binary64 s (BitVec.ofNat 11 b) (BitVec.ofNat 52 m)
      else packComponents Format.binary64 s 0#11 (BitVec.ofNat 52 m) := by
    subst hb
    exact if_neg hfinite
  rw [stored, hpack]
  split
  next hnormal =>
    have hbits : 2 ^ 52 ≤ m := (Nat.le_log2 hm.ne').mp (by omega)
    obtain rfl : e = b - 1075 := by omega
    exact unpack_normal s hm hbits hshort (by omega) (by omega)
  next hsubnormal =>
    have hlog : m.log2 < 53 := (Nat.log2_lt hm.ne').mpr hshort
    have hbits : m < 2 ^ 52 := (Nat.log2_lt hm.ne').mp (by omega)
    obtain rfl : e = -1074 := hlong.resolve_left (by omega)
    exact unpack_subnormal s hm hbits

/-- The key that a finite double has once it is stored. -/
def Key.stored (k : Key) : Key :=
  if k.kind = 1 ∧ 971 < k.exponent then ⟨2, 0, 0⟩
  else if k.kind = -1 ∧ k.exponent < -971 then ⟨-2, 0, 0⟩
  else k

theorem key_stored {a : UnpackedFloat} (h : Canonical a) :
    key? (stored a) = (key? a).map Key.stored := by
  rcases a with _ | _ | s | ⟨s, m, e, hm⟩
  · exact h.elim
  · exact h.elim
  · exact congrArg key? unpack_packedZero
  · rcases lt_or_ge 971 e with he | he
    · rw [stored_of_great s hm he]
      cases s
      · have hneg : -e < -971 := by omega
        simp [key?, Key.stored, hneg]
      · simp [key?, Key.stored, he]
    · rw [stored_of_fits s h hm he]
      cases s
      · have hneg : ¬-e < -971 := by omega
        simp [key?, Key.stored, hneg]
      · have hpos : ¬971 < e := by omega
        simp [key?, Key.stored, hpos]

theorem Keyed.stored_le {k l : Key} {x y : ℚ} (h : Keyed k x) (h' : Keyed l y) (hle : k.le l) :
    k.stored.le l.stored := by
  have hk := h.kind
  have hl := h'.kind
  unfold Key.stored
  unfold Key.le at hle ⊢
  split_ifs <;> first | omega | (dsimp only; omega)

theorem Keyed.stored_between {k : Key} {x : ℚ} (h : Keyed k x) :
    Key.le ⟨-2, 0, 0⟩ k.stored ∧ k.stored.le ⟨2, 0, 0⟩ := by
  have hkind := h.kind
  unfold Key.stored Key.le
  split_ifs <;> first | omega | (dsimp only; omega)

/-- What a double is unpacked to. -/
theorem unpack_cases (x : Float) : (∃ s, x.toModel.unpack = .infinity s) ∨
    x.toModel.unpack = .notANumber ∨ Canonical x.toModel.unpack := by
  obtain ⟨b, hb⟩ : ∃ b : BitVec Format.binary64.numBits,
      x.toModel.unpack = unpack Format.binary64 b := ⟨_, rfl⟩
  rw [hb]
  unfold unpack
  dsimp only
  split
  · split
    · exact .inl ⟨_, rfl⟩
    · exact .inr (.inl rfl)
  refine .inr (.inr ?_)
  have hmantissa : (unpackMantissa b).toNat < 2 ^ 52 := (unpackMantissa b).isLt
  split
  next hzero =>
    split
    · trivial
    · change Fits (unpackMantissa b).toNat (((unpackExponent b).toNat : ℤ) - (1023 + 52) + 1)
      rw [hzero]
      exact ⟨by omega, by decide, .inr rfl⟩
  next hnonzero =>
    have hpos : 0 < (unpackExponent b).toNat :=
      Nat.pos_of_ne_zero fun h => hnonzero (BitVec.eq_of_toNat_eq h)
    change Fits (1#1 ++ unpackMantissa b).toNat (((unpackExponent b).toNat : ℤ) - (1023 + 52))
    rw [toNat_implicit]
    exact ⟨by omega, by omega, .inl (by omega)⟩

variable {x y z : Float} {s : Sign}

theorem keyOf?_add (hx : Canonical x.toModel.unpack) (hy : Canonical y.toModel.unpack) :
    ∃ k v, keyOf? (x + y) = some k.stored ∧ Keyed k v ∧
      Nearest (value x.toModel.unpack + value y.toModel.unpack) v := by
  obtain ⟨hsum, hnearest⟩ := nearest_add hx hy
  obtain ⟨k, hk, hkeyed⟩ := hsum.keyed
  refine ⟨k, _, ?_, hkeyed, hnearest⟩
  rw [keyOf?, unpack_add, key_stored hsum, hk]
  rfl

/-- A finite double added to something infinite changes nothing. -/
theorem keyOf?_infinity_add (hx : x.toModel.unpack = .infinity s)
    (hy : Canonical y.toModel.unpack) : keyOf? (x + y) = keyOf? x := by
  have hsum : add Format.binary64 (.infinity s) y.toModel.unpack = .infinity s := by
    cases hu : y.toModel.unpack with
    | infinity t => exact (hu ▸ hy).elim
    | notANumber => exact (hu ▸ hy).elim
    | zero t => rfl
    | finite t m e hm => rfl
  rw [keyOf?, keyOf?, unpack_add, hx, hsum, stored_infinity]

theorem keyOf?_infinity (hx : x.toModel.unpack = .infinity s) :
    keyOf? x = some ⟨s.apply 2, 0, 0⟩ := by
  rw [keyOf?, hx]
  cases s <;> rfl

theorem keyOf?_notANumber (hx : x.toModel.unpack = .notANumber) : keyOf? x = none := by
  rw [keyOf?, hx]
  rfl

theorem add_le_of_canonical (h : x ≤ y) (hx : Canonical x.toModel.unpack)
    (hy : Canonical y.toModel.unpack) (hz : Canonical z.toModel.unpack) : x + z ≤ y + z := by
  rw [le_iff] at h ⊢
  obtain ⟨k, l, hk, hl, hle⟩ := h
  obtain ⟨k', hk', hkeyed⟩ := hx.keyed
  obtain ⟨l', hl', hkeyed'⟩ := hy.keyed
  obtain rfl : k' = k := Option.some.inj (hk'.symm.trans hk)
  obtain rfl : l' = l := Option.some.inj (hl'.symm.trans hl)
  obtain ⟨m, v, hm, hsum, hnearest⟩ := keyOf?_add hx hz
  obtain ⟨n, w, hn, hsum', hnearest'⟩ := keyOf?_add hy hz
  have hvalues := (hkeyed.le_iff hkeyed').mp hle
  have hsums := hnearest.le hnearest' (add_le_add_left hvalues _)
  exact ⟨_, _, hm, hn, hsum.stored_le hsum' ((hsum.le_iff hsum').mpr hsums)⟩

/-- Sums with a finite double are in the order of what it is added to. -/
theorem add_le (h : x ≤ y) (hz : Canonical z.toModel.unpack) : x + z ≤ y + z := by
  obtain ⟨k, l, hk, hl, hle⟩ := (le_iff x y).mp h
  rcases unpack_cases x with ⟨s, hx⟩ | hx | hx
  · obtain rfl : _ = k := Option.some.inj ((keyOf?_infinity hx).symm.trans hk)
    have hsum := (keyOf?_infinity_add hx hz).trans hk
    rcases unpack_cases y with ⟨t, hy⟩ | hy | hy
    · exact (le_iff _ _).mpr ⟨_, _, hsum, (keyOf?_infinity_add hy hz).trans hl, hle⟩
    · cases (keyOf?_notANumber hy).symm.trans hl
    · obtain ⟨l', hl', hkeyed⟩ := hy.keyed
      obtain rfl : l' = l := Option.some.inj (hl'.symm.trans hl)
      have hkind := hkeyed.kind
      obtain ⟨m, v, hm, hstored, -⟩ := keyOf?_add hy hz
      refine (le_iff _ _).mpr ⟨_, _, hsum, hm, ?_⟩
      cases s with
      | negative => exact hstored.stored_between.1
      | positive =>
        simp only [Key.le, Sign.apply] at hle
        omega
  · cases (keyOf?_notANumber hx).symm.trans hk
  · rcases unpack_cases y with ⟨t, hy⟩ | hy | hy
    · obtain ⟨k', hk', hkeyed⟩ := hx.keyed
      obtain rfl : k' = k := Option.some.inj (hk'.symm.trans hk)
      obtain rfl : _ = l := Option.some.inj ((keyOf?_infinity hy).symm.trans hl)
      have hkind := hkeyed.kind
      obtain ⟨m, v, hm, hstored, -⟩ := keyOf?_add hx hz
      refine (le_iff _ _).mpr ⟨_, _, hm, (keyOf?_infinity_add hy hz).trans hl, ?_⟩
      cases t with
      | negative =>
        simp only [Key.le, Sign.apply] at hle
        omega
      | positive => exact hstored.stored_between.2
    · cases (keyOf?_notANumber hy).symm.trans hl
    · exact add_le_of_canonical h hx hy hz

theorem le_key {a : UnpackedFloat} {k : Key} (hk : key? a = some k) : Key.le ⟨-2, 0, 0⟩ k := by
  rcases a with (_ | _) | _ | s | ⟨_ | _, m, e, hm⟩ <;> cases hk <;> simp [Key.le]

/-- Nothing is less than the negative infinity, or than what is no number. -/
theorem not_lt_of_key (hy : keyOf? y = none ∨ keyOf? y = some ⟨-2, 0, 0⟩) : ¬x < y := by
  rw [lt_iff, le_iff, le_iff]
  rintro ⟨⟨k, l, hk, hl, hle⟩, hge⟩
  rcases hy with hy | hy
  · cases hy.symm.trans hl
  · obtain rfl : l = ⟨-2, 0, 0⟩ := Option.some.inj (hl.symm.trans hy)
    exact hge ⟨_, k, hy, hk, le_key hk⟩

theorem lt_of_key_eq (h : x < y) (he : keyOf? y = keyOf? z) : x < z := by
  rw [lt_iff, le_iff, le_iff] at h ⊢
  rwa [he] at h

theorem add_infinity (a : UnpackedFloat) (s : Sign) :
    add Format.binary64 a (.infinity s) = .notANumber ∨
      add Format.binary64 a (.infinity s) = .infinity s := by
  rcases a with t | _ | _ | _
  · cases s <;> cases t <;> first | exact .inl rfl | exact .inr rfl
  · exact .inl rfl
  · exact .inr rfl
  · exact .inr rfl

theorem keyOf?_add_infinity (x : Float) (hy : y.toModel.unpack = .infinity s) :
    keyOf? (x + y) = key? (add Format.binary64 x.toModel.unpack (.infinity s)) := by
  rw [keyOf?, unpack_add, hy]
  rcases add_infinity x.toModel.unpack s with hsum | hsum
  · rw [hsum, stored_notANumber]
  · rw [hsum, stored_infinity]

/-- The positive infinity can be added to whatever is not the negative one. -/
theorem key_add_infinity (a : UnpackedFloat) :
    key? (add Format.binary64 a (.infinity .positive)) =
      (key? a).bind fun k => if k.le ⟨-2, 0, 0⟩ then none else some ⟨2, 0, 0⟩ := by
  rcases a with (_ | _) | _ | s | ⟨_ | _, m, e, hm⟩
  · rfl
  · rfl
  · rfl
  · rfl
  · have hle : ¬Key.le ⟨-1, -e, -m⟩ ⟨-2, 0, 0⟩ := by simp [Key.le]
    rw [key?, Option.bind_some, if_neg hle]
    rfl
  · have hle : ¬Key.le ⟨1, e, m⟩ ⟨-2, 0, 0⟩ := by simp [Key.le]
    rw [key?, Option.bind_some, if_neg hle]
    rfl

/-- What is less than a sum is less than any sum with more. -/
theorem lt_add_of_le {t : Float} (h : x ≤ y) (ht : t < x + z) : t < y + z := by
  rcases unpack_cases z with ⟨s, hz⟩ | hz | hz
  · have hkey (u : Float) := keyOf?_add_infinity u hz
    cases s with
    | negative =>
      -- Nothing is less than such a sum.
      refine (not_lt_of_key ?_ ht).elim
      rw [hkey]
      exact (add_infinity x.toModel.unpack .negative).imp (congrArg key?) (congrArg key?)
    | positive =>
      -- The sum is a number, so neither summand is the negative infinity; both sums are infinite.
      obtain ⟨k, l, hk, hl, hle⟩ := (le_iff x y).mp h
      have hx : ¬k.le ⟨-2, 0, 0⟩ := fun hleast => by
        refine not_lt_of_key (.inl ?_) ht
        rw [hkey, key_add_infinity, ← keyOf?, hk]
        exact if_pos hleast
      have hy : ¬l.le ⟨-2, 0, 0⟩ := fun hleast => hx (Key.le_trans hle hleast)
      refine lt_of_key_eq ht ?_
      rw [hkey, hkey, key_add_infinity, key_add_infinity, ← keyOf?, ← keyOf?, hk, hl]
      exact (if_neg hx).trans (if_neg hy).symm
  · refine (not_lt_of_key (.inl (keyOf?_notANumber ?_)) ht).elim
    have hsum : add Format.binary64 x.toModel.unpack .notANumber = .notANumber := by
      cases x.toModel.unpack <;> rfl
    rw [unpack_add, hz, hsum, stored_notANumber]
  · have hle := add_le h hz
    rw [lt_iff] at ht ⊢
    exact ⟨le_trans ht.1 hle, fun hge => ht.2 (le_trans hle hge)⟩

end DebugDesk.Binary64
