import DebugDesk.Color
import DebugDesk.Effect
import Mathlib.Data.List.Basic

/-!
# Color codes

What is read as a color, character by character. A code of three or six hexadecimal digits is one,
and its components lie between 0 and 1. But each two characters are read as a number of its own, so
that a code of six characters may also have blanks and signs in it, and digits of any script.
-/
namespace DebugDesk

namespace Text

/-- A digit, or a letter up to `f`, of ASCII. -/
def isHexDigit (c : Char) : Bool :=
  ('0' ≤ c && c ≤ '9') || ('a' ≤ c && c ≤ 'f') || ('A' ≤ c && c ≤ 'F')

variable {c : Char} {n : Nat}

def digitStarts : List Nat := 65 :: 97 :: zeros

theorem decimalValue?_eq_some (h : decimalValue? c = some n) :
    ∃ z ∈ zeros, z ≤ c.toNat ∧ c.toNat < z + 10 ∧ n = c.toNat - z := by
  obtain ⟨z, hz, rfl⟩ := Option.map_eq_some_iff.mp h
  have hrange := List.find?_some hz
  simp only [Bool.and_eq_true, decide_eq_true_eq] at hrange
  exact ⟨z, List.mem_of_find?_eq_some hz, hrange.1, hrange.2, rfl⟩

theorem hexValue?_eq_some (h : hexValue? c = some n) :
    (∃ z ∈ digitStarts, z ≤ c.toNat ∧ c.toNat < z + 10) ∧ n < 16 := by
  unfold hexValue? at h
  simp only [Bool.and_eq_true, decide_eq_true_eq, Char.le_def, UInt32.le_iff_toNat_le,
    Char.toNat_val] at h
  split at h
  next hc =>
    have hc : 97 ≤ c.toNat ∧ c.toNat ≤ 102 := hc
    obtain rfl := Option.some.inj h
    exact ⟨⟨97, by simp [digitStarts], by omega⟩, by omega⟩
  next =>
    split at h
    next hc =>
      have hc : 65 ≤ c.toNat ∧ c.toNat ≤ 70 := hc
      obtain rfl := Option.some.inj h
      exact ⟨⟨65, by simp [digitStarts], by omega⟩, by omega⟩
    next =>
      obtain ⟨z, hz, hlo, hhi, rfl⟩ := decimalValue?_eq_some h
      exact ⟨⟨z, by simp [digitStarts, hz], hlo, hhi⟩, by omega⟩

theorem digitStarts_apart : ∀ z ∈ digitStarts, 48 ≤ z ∧
    ∀ b ∈ wideBlanks, b.toNat < z ∨ z + 10 ≤ b.toNat := by
  have hall : (digitStarts.all fun z => Nat.ble 48 z &&
      wideBlanks.all fun b => Nat.blt b.toNat z || Nat.ble (z + 10) b.toNat) = true := by
    decide +kernel
  simpa only [List.all_eq_true, Bool.and_eq_true, Bool.or_eq_true, Nat.ble_eq, Nat.blt_eq]
    using hall

/-- A digit is neither a blank nor a sign. -/
theorem not_blank_of_hexValue? (h : hexValue? c = some n) :
    isBlank c = false ∧ c ≠ '+' ∧ c ≠ '-' := by
  obtain ⟨⟨z, hz, hlo, hhi⟩, -⟩ := hexValue?_eq_some h
  obtain ⟨hleast, hapart⟩ := digitStarts_apart z hz
  refine ⟨Bool.eq_false_iff.mpr fun hblank => ?_, ?_, ?_⟩
  · simp only [isBlank, isAsciiBlank, Bool.or_eq_true, Bool.and_eq_true, decide_eq_true_eq,
      beq_iff_eq, List.contains_iff_mem] at hblank
    rcases hblank with (⟨-, hc⟩ | hc) | hc
    · have hc : c.toNat ≤ 13 := hc
      omega
    · have hc : c.toNat = 32 := congrArg UInt32.toNat hc
      omega
    · have hc : c.toNat < z ∨ z + 10 ≤ c.toNat := hapart _ hc
      omega
  · rintro rfl
    have hc : z ≤ 43 := hlo
    omega
  · rintro rfl
    have hc : z ≤ 45 := hlo
    omega

/-- The digits of ASCII are those of the codes. -/
theorem isHexDigit_iff : isHexDigit c = true ↔ (hexValue? c).isSome = true ∧ c.toNat < 128 := by
  have htable : ∀ k < 128, isHexDigit (.ofNat k) = (hexValue? (.ofNat k)).isSome := by
    decide +kernel
  have hlow (hc : c.toNat < 128) : isHexDigit c = (hexValue? c).isSome := by
    have h := htable c.toNat hc
    rwa [Char.ofNat_toNat] at h
  constructor
  · intro h
    have hc : c.toNat < 128 := by
      simp only [isHexDigit, Bool.or_eq_true, Bool.and_eq_true, decide_eq_true_eq, Char.le_def,
        UInt32.le_iff_toNat_le, Char.toNat_val] at h
      have hbounds : c.toNat ≤ 57 ∨ c.toNat ≤ 102 ∨ c.toNat ≤ 70 := by
        rcases h with (h | h) | h
        · exact .inl h.2
        · exact .inr (.inl h.2)
        · exact .inr (.inr h.2)
      omega
    exact ⟨hlow hc ▸ h, hc⟩
  · rintro ⟨h, hc⟩
    exact hlow hc ▸ h

end Text

namespace Color

open Text

variable {a b : Char} {k : Int}

def magnitude? (digits : List Char) : Option Nat :=
  if digits.isEmpty then none
  else (digits.mapM hexValue?).map (·.foldl (fun n d => n * 16 + d) 0)

def signed? : List Char → Option Int
  | '+' :: digits => (magnitude? digits).map Int.ofNat
  | '-' :: digits => (magnitude? digits).map fun n => -(n : Int)
  | digits => (magnitude? digits).map Int.ofNat

theorem component?_eq (part : List Char) : component? part = signed? (trimBlanks part) := rfl

theorem magnitude?_one (c : Char) : magnitude? [c] = hexValue? c := by
  cases h : hexValue? c <;> simp [magnitude?, h]

inductive Pair : Char → Char → Int → Prop
  | digits {a b : Char} {m n : Nat} (first : hexValue? a = some m) (second : hexValue? b = some n) :
    Pair a b (m * 16 + n)
  | plus {b : Char} {n : Nat} (second : hexValue? b = some n) : Pair '+' b n
  | minus {b : Char} {n : Nat} (second : hexValue? b = some n) : Pair '-' b (-n)
  | blankBefore {a b : Char} {n : Nat} (first : isBlank a = true)
    (second : hexValue? b = some n) : Pair a b n
  | blankAfter {a b : Char} {n : Nat} (first : hexValue? a = some n)
    (second : isBlank b = true) : Pair a b n

theorem hexValue?_plus : hexValue? '+' = none := by decide +kernel

theorem hexValue?_minus : hexValue? '-' = none := by decide +kernel

theorem signed?_one (c : Char) : signed? [c] = (hexValue? c).map Int.ofNat := by
  unfold signed?
  split
  next heq =>
    obtain ⟨rfl, rfl⟩ := List.cons.inj heq
    rw [hexValue?_plus]
    rfl
  next heq =>
    obtain ⟨rfl, rfl⟩ := List.cons.inj heq
    rw [hexValue?_minus]
    rfl
  next => rw [magnitude?_one]

theorem magnitude?_two {n : Nat} : magnitude? [a, b] = some n ↔
    ∃ m d, hexValue? a = some m ∧ hexValue? b = some d ∧ n = m * 16 + d := by
  cases ha : hexValue? a <;> cases hb : hexValue? b <;> simp [magnitude?, ha, hb, eq_comm]

theorem trimBlanks_two (a b : Char) : trimBlanks [a, b] =
    (if isBlank a then [] else [a]) ++ (if isBlank b then [] else [b]) := by
  cases ha : isBlank a <;> cases hb : isBlank b <;> simp [trimBlanks, ha, hb]

theorem signed?_two : signed? [a, b] = some k ↔
    (a = '+' ∧ ∃ n : Nat, hexValue? b = some n ∧ k = n) ∨
    (a = '-' ∧ ∃ n : Nat, hexValue? b = some n ∧ k = -n) ∨
    ∃ m d : Nat, hexValue? a = some m ∧ hexValue? b = some d ∧ k = m * 16 + d := by
  have hplus := hexValue?_plus
  have hminus := hexValue?_minus
  unfold signed?
  split
  next heq =>
    obtain ⟨rfl, rfl⟩ := List.cons.inj heq
    rw [magnitude?_one]
    cases hexValue? b <;> simp [hplus, @eq_comm _ k]
  next heq =>
    obtain ⟨rfl, rfl⟩ := List.cons.inj heq
    rw [magnitude?_one]
    cases hexValue? b <;> simp [hminus, @eq_comm _ k]
  next hnotPlus hnotMinus =>
    have ha : a ≠ '+' := by rintro rfl; exact hnotPlus _ rfl
    have ha' : a ≠ '-' := by rintro rfl; exact hnotMinus _ rfl
    simp only [ha, ha', false_and, false_or, Option.map_eq_some_iff, magnitude?_two]
    constructor
    · rintro ⟨_, ⟨m, d, hm, hd, rfl⟩, rfl⟩
      exact ⟨m, d, hm, hd, rfl⟩
    · rintro ⟨m, d, hm, hd, rfl⟩
      exact ⟨_, ⟨m, d, hm, hd, rfl⟩, rfl⟩

theorem component?_eq_some_iff : component? [a, b] = some k ↔ Pair a b k := by
  rw [component?_eq, trimBlanks_two]
  constructor
  · intro h
    cases ha : isBlank a <;> cases hb : isBlank b <;>
      simp only [ha, hb, ↓reduceIte, Bool.false_eq_true, List.append_nil, List.nil_append,
        List.singleton_append] at h
    case true.true => cases h
    case true.false =>
      rw [signed?_one, Option.map_eq_some_iff] at h
      obtain ⟨n, hn, rfl⟩ := h
      exact .blankBefore ha hn
    case false.true =>
      rw [signed?_one, Option.map_eq_some_iff] at h
      obtain ⟨n, hn, rfl⟩ := h
      exact .blankAfter hn hb
    case false.false =>
      rcases signed?_two.mp h with ⟨rfl, n, hn, rfl⟩ | ⟨rfl, n, hn, rfl⟩ | ⟨m, d, hm, hd, rfl⟩
      · exact .plus hn
      · exact .minus hn
      · exact .digits hm hd
  · have hsigns : isBlank '+' = false ∧ isBlank '-' = false := by decide +kernel
    intro h
    cases h with
    | digits first second =>
      simp only [(not_blank_of_hexValue? first).1, (not_blank_of_hexValue? second).1]
      exact signed?_two.mpr (.inr (.inr ⟨_, _, first, second, rfl⟩))
    | plus second =>
      simp only [hsigns.1, (not_blank_of_hexValue? second).1]
      exact signed?_two.mpr (.inl ⟨rfl, _, second, rfl⟩)
    | minus second =>
      simp only [hsigns.2, (not_blank_of_hexValue? second).1]
      exact signed?_two.mpr (.inr (.inl ⟨rfl, _, second, rfl⟩))
    | blankBefore first second =>
      simp only [first, (not_blank_of_hexValue? second).1]
      exact (signed?_one b).trans (congrArg _ second)
    | blankAfter first second =>
      simp only [(not_blank_of_hexValue? first).1, second]
      exact (signed?_one a).trans (congrArg _ first)

/-- What of a code counts: all behind the number signs that it begins with. -/
def body (code : String) : List Char := code.toList.dropWhile (· == '#')

theorem expanded_eq (code : String) : expanded code =
    if (body code).length = 3 then (body code).flatMap fun c => [c, c] else body code := rfl

/-- Three or six hexadecimal digits. -/
structure IsCode (cs : List Char) : Prop where
  length : cs.length = 3 ∨ cs.length = 6
  digits : ∀ c ∈ cs, isHexDigit c = true

/-- The characters that are read as components out of 255: three digits, each of which counts twice,
or three pairs. -/
inductive Reads : List Char → Int × Int × Int → Prop
  | short {r g b : Char} {m n k : Nat} (red : hexValue? r = some m) (green : hexValue? g = some n)
    (blue : hexValue? b = some k) : Reads [r, g, b] (17 * m, 17 * n, 17 * k)
  | long {r₁ r₂ g₁ g₂ b₁ b₂ : Char} {m n k : Int} (red : Pair r₁ r₂ m) (green : Pair g₁ g₂ n)
    (blue : Pair b₁ b₂ k) : Reads [r₁, r₂, g₁, g₂, b₁, b₂] (m, n, k)

/-- No character is a blank or a sign, and the decimal digits are those of ASCII. -/
def Plain (cs : List Char) : Prop := ∀ c ∈ cs, isBlank c = false ∧ c ≠ '+' ∧ c ≠ '-' ∧
  ((hexValue? c).isSome = true → c.toNat < 128)

/-- A character twice is no number but a digit twice. -/
theorem pair_self_iff {c : Char} : Pair c c k ↔ ∃ n : Nat, hexValue? c = some n ∧ k = 17 * n := by
  constructor
  · intro h
    cases h with
    | digits first second =>
      obtain rfl := Option.some.inj (first.symm.trans second)
      exact ⟨_, first, by omega⟩
    | plus second => exact absurd (hexValue?_plus.symm.trans second) (by simp)
    | minus second => exact absurd (hexValue?_minus.symm.trans second) (by simp)
    | blankBefore first second =>
      cases (not_blank_of_hexValue? second).1.symm.trans first
    | blankAfter first second =>
      cases (not_blank_of_hexValue? first).1.symm.trans second
  · rintro ⟨n, hn, rfl⟩
    have hpair := Pair.digits hn hn
    rwa [show (n : Int) * 16 + n = 17 * n by omega] at hpair

/-- Whatever is read is read as six characters, three pairs. -/
theorem reads_iff {code : String} {m n k : Int} : Reads (body code) (m, n, k) ↔
    ∃ r₁ r₂ g₁ g₂ b₁ b₂, expanded code = [r₁, r₂, g₁, g₂, b₁, b₂] ∧
      Pair r₁ r₂ m ∧ Pair g₁ g₂ n ∧ Pair b₁ b₂ k := by
  rw [expanded_eq]
  generalize body code = cs
  constructor
  · intro h
    cases h with
    | short red green blue =>
      exact ⟨_, _, _, _, _, _, rfl, pair_self_iff.mpr ⟨_, red, rfl⟩,
        pair_self_iff.mpr ⟨_, green, rfl⟩, pair_self_iff.mpr ⟨_, blue, rfl⟩⟩
    | long red green blue => exact ⟨_, _, _, _, _, _, rfl, red, green, blue⟩
  · rintro ⟨r₁, r₂, g₁, g₂, b₁, b₂, hexpanded, hr, hg, hb⟩
    split at hexpanded
    next hlength =>
      obtain ⟨r, g, b, rfl⟩ := List.length_eq_three.mp hlength
      simp only [List.flatMap_cons, List.flatMap_nil, List.cons_append, List.nil_append,
        List.cons.injEq, and_true] at hexpanded
      obtain ⟨rfl, rfl, rfl, rfl, rfl, rfl⟩ := hexpanded
      obtain ⟨_, red, rfl⟩ := pair_self_iff.mp hr
      obtain ⟨_, green, rfl⟩ := pair_self_iff.mp hg
      obtain ⟨_, blue, rfl⟩ := pair_self_iff.mp hb
      exact .short red green blue
    next =>
      subst hexpanded
      exact .long hr hg hb

theorem eq_of_length_six {cs : List Char} (h : cs.length = 6) :
    ∃ r₁ r₂ g₁ g₂ b₁ b₂, cs = [r₁, r₂, g₁, g₂, b₁, b₂] := by
  match cs, h with
  | [r₁, r₂, g₁, g₂, b₁, b₂], _ => exact ⟨_, _, _, _, _, _, rfl⟩

/-- What six characters are read as, or the two that are no number. -/
theorem components_six {r₁ r₂ g₁ g₂ b₁ b₂ : Char} {code : String}
    (h : expanded code = [r₁, r₂, g₁, g₂, b₁, b₂]) :
    (∃ m n k, Pair r₁ r₂ m ∧ Pair g₁ g₂ n ∧ Pair b₁ b₂ k ∧ components code = .ok (m, n, k)) ∨
      (∃ part, components code = .error (.colorDigits part)) := by
  rw [components, h]
  dsimp only
  cases hr : component? [r₁, r₂] with
  | none => exact .inr ⟨_, rfl⟩
  | some m =>
    cases hg : component? [g₁, g₂] with
    | none => exact .inr ⟨_, rfl⟩
    | some n =>
      cases hb : component? [b₁, b₂] with
      | none => exact .inr ⟨_, rfl⟩
      | some k =>
        exact .inl ⟨m, n, k, component?_eq_some_iff.mp hr, component?_eq_some_iff.mp hg,
          component?_eq_some_iff.mp hb, rfl⟩

theorem components_eq_ok_iff {code : String} {rgb : Int × Int × Int} :
    components code = .ok rgb ↔ Reads (body code) rgb := by
  obtain ⟨m, n, k⟩ := rgb
  rw [reads_iff]
  constructor
  · intro h
    have hsix : ∃ r₁ r₂ g₁ g₂ b₁ b₂, expanded code = [r₁, r₂, g₁, g₂, b₁, b₂] := by
      unfold components at h
      split at h
      next heq => exact ⟨_, _, _, _, _, _, heq⟩
      next => cases h
    obtain ⟨r₁, r₂, g₁, g₂, b₁, b₂, hexpanded⟩ := hsix
    rcases components_six hexpanded with ⟨m', n', k', hr, hg, hb, hok⟩ | ⟨part, herror⟩
    · cases h.symm.trans hok
      exact ⟨_, _, _, _, _, _, hexpanded, hr, hg, hb⟩
    · cases h.symm.trans herror
  · rintro ⟨r₁, r₂, g₁, g₂, b₁, b₂, hexpanded, hr, hg, hb⟩
    rw [components, hexpanded]
    dsimp only
    rw [component?_eq_some_iff.mpr hr, component?_eq_some_iff.mpr hg,
      component?_eq_some_iff.mpr hb]
    rfl

/-- A code that is not read is refused, for two of its characters or for its length. -/
theorem components_refused {code : String} (h : ∀ rgb, ¬Reads (body code) rgb) :
    (((body code).length = 3 ∨ (body code).length = 6) ∧
      ∃ part, components code = .error (.colorDigits part)) ∨
    (¬((body code).length = 3 ∨ (body code).length = 6) ∧
      components code = .error (.colorLength (.ofList (body code)))) := by
  by_cases hlength : (body code).length = 3 ∨ (body code).length = 6
  · refine .inl ⟨hlength, ?_⟩
    obtain ⟨r₁, r₂, g₁, g₂, b₁, b₂, hexpanded⟩ : ∃ r₁ r₂ g₁ g₂ b₁ b₂,
        expanded code = [r₁, r₂, g₁, g₂, b₁, b₂] := by
      have hsix : (expanded code).length = 6 := by
        rw [expanded_eq]
        split
        next h => simp [h]
        next h => exact hlength.resolve_left h
      exact eq_of_length_six hsix
    rcases components_six hexpanded with ⟨m, n, k, -, -, -, hok⟩ | herror
    · exact absurd (components_eq_ok_iff.mp hok) (h _)
    · exact herror
  · refine .inr ⟨hlength, ?_⟩
    obtain ⟨hshort, hlong⟩ := not_or.mp hlength
    rw [components, expanded_eq, if_neg hshort]
    split
    next heq => simp [heq] at hlong
    next => rfl

/-- A short code is read as the one with each character doubled. -/
theorem components_doubled {code : String} (h : (body code).length = 3) :
    components (.ofList ((body code).flatMap fun c => [c, c])) = components code := by
  have hexpanded : expanded (.ofList ((body code).flatMap fun c => [c, c])) = expanded code := by
    have hhead := List.head?_dropWhile_not (· == '#') code.toList
    rw [expanded_eq code, if_pos h]
    obtain ⟨r, g, b, hbody⟩ := List.length_eq_three.mp h
    have hdropped : code.toList.dropWhile (· == '#') = [r, g, b] := hbody
    rw [hdropped] at hhead
    have hr : (r == '#') = false := hhead
    rw [hbody]
    simp [expanded, hr]
  rw [components, components, hexpanded]

def InUnit (c : Color Float) : Prop :=
  ((0.0 : Float) ≤ c.red ∧ c.red ≤ 1.0) ∧ ((0.0 : Float) ≤ c.green ∧ c.green ≤ 1.0) ∧
    (0.0 : Float) ≤ c.blue ∧ c.blue ≤ 1.0

theorem share_between : ∀ n : Fin 256, (0.0 : Float) ≤ Scalar.ofInt (n.val : Int) / 255.0 ∧
    (Scalar.ofInt (n.val : Int) / 255.0 : Float) ≤ 1.0 := by decide +kernel

theorem Pair.between (h : Pair a b k) (ha : a ≠ '-') : 0 ≤ k ∧ k ≤ 255 := by
  cases h with
  | digits first second =>
    have hm := (hexValue?_eq_some first).2
    have hn := (hexValue?_eq_some second).2
    omega
  | plus second =>
    have hn := (hexValue?_eq_some second).2
    omega
  | minus second => exact absurd rfl ha
  | blankBefore first second =>
    have hn := (hexValue?_eq_some second).2
    omega
  | blankAfter first second =>
    have hn := (hexValue?_eq_some first).2
    omega

/-- Without a minus sign all components are between 0 and 1. -/
theorem Reads.inUnit {cs : List Char} {rgb : Int × Int × Int} (h : Reads cs rgb) (hcs : '-' ∉ cs)
    (alpha : Float) : (ofComponents rgb alpha).InUnit := by
  have hshare {n : Int} (hn : 0 ≤ n ∧ n ≤ 255) :
      (0.0 : Float) ≤ Scalar.ofInt n / 255.0 ∧ (Scalar.ofInt n / 255.0 : Float) ≤ 1.0 := by
    have hfin := share_between ⟨n.toNat, by omega⟩
    rwa [Int.toNat_of_nonneg hn.1] at hfin
  cases h with
  | short red green blue =>
    have htimes {d : Char} {m : Nat} (hd : hexValue? d = some m) :
        0 ≤ (17 * m : Int) ∧ (17 * m : Int) ≤ 255 := by
      have hm := (hexValue?_eq_some hd).2
      omega
    exact ⟨hshare (htimes red), hshare (htimes green), hshare (htimes blue)⟩
  | long red green blue =>
    simp only [List.mem_cons, not_or] at hcs
    exact ⟨hshare (red.between (Ne.symm hcs.1)), hshare (green.between (Ne.symm hcs.2.2.1)),
      hshare (blue.between (Ne.symm hcs.2.2.2.2.1))⟩

theorem IsCode.reads {cs : List Char} (h : IsCode cs) : ∃ rgb, Reads cs rgb := by
  obtain ⟨hlength, hdigits⟩ := h
  have hvalue {c : Char} (hc : c ∈ cs) : ∃ n, hexValue? c = some n :=
    Option.isSome_iff_exists.mp (isHexDigit_iff.mp (hdigits c hc)).1
  rcases hlength with h | h
  · obtain ⟨r, g, b, rfl⟩ := List.length_eq_three.mp h
    obtain ⟨_, hr⟩ := hvalue (c := r) (by simp)
    obtain ⟨_, hg⟩ := hvalue (c := g) (by simp)
    obtain ⟨_, hb⟩ := hvalue (c := b) (by simp)
    exact ⟨_, .short hr hg hb⟩
  · obtain ⟨r₁, r₂, g₁, g₂, b₁, b₂, rfl⟩ := eq_of_length_six h
    obtain ⟨_, hr₁⟩ := hvalue (c := r₁) (by simp)
    obtain ⟨_, hr₂⟩ := hvalue (c := r₂) (by simp)
    obtain ⟨_, hg₁⟩ := hvalue (c := g₁) (by simp)
    obtain ⟨_, hg₂⟩ := hvalue (c := g₂) (by simp)
    obtain ⟨_, hb₁⟩ := hvalue (c := b₁) (by simp)
    obtain ⟨_, hb₂⟩ := hvalue (c := b₂) (by simp)
    exact ⟨_, .long (.digits hr₁ hr₂) (.digits hg₁ hg₂) (.digits hb₁ hb₂)⟩

theorem IsCode.minus_notMem {cs : List Char} (h : IsCode cs) : '-' ∉ cs := by
  intro hmem
  have hminus : isHexDigit '-' = false := by decide +kernel
  cases hminus.symm.trans (h.digits _ hmem)

theorem Pair.digits_of_plain (h : Pair a b k) (ha : isBlank a = false ∧ a ≠ '+' ∧ a ≠ '-')
    (hb : isBlank b = false) : (hexValue? a).isSome = true ∧ (hexValue? b).isSome = true := by
  cases h with
  | digits first second => simp [first, second]
  | plus second => exact absurd rfl ha.2.1
  | minus second => exact absurd rfl ha.2.2
  | blankBefore first second => cases ha.1.symm.trans first
  | blankAfter first second => cases hb.symm.trans second

theorem Reads.isCode {cs : List Char} {rgb : Int × Int × Int} (h : Reads cs rgb) (hcs : Plain cs) :
    IsCode cs := by
  have hdigit {c : Char} (hc : c ∈ cs) (hvalue : (hexValue? c).isSome = true) :
      isHexDigit c = true := isHexDigit_iff.mpr ⟨hvalue, (hcs c hc).2.2.2 hvalue⟩
  cases h with
  | short red green blue =>
    refine ⟨.inl rfl, fun c hc => hdigit hc ?_⟩
    simp only [List.mem_cons, List.not_mem_nil, or_false] at hc
    rcases hc with rfl | rfl | rfl <;> simp [red, green, blue]
  | @long r₁ r₂ g₁ g₂ b₁ b₂ _ _ _ red green blue =>
    have hplain {c : Char} (hc : c ∈ [r₁, r₂, g₁, g₂, b₁, b₂]) :
        isBlank c = false ∧ c ≠ '+' ∧ c ≠ '-' :=
      ⟨(hcs c hc).1, (hcs c hc).2.1, (hcs c hc).2.2.1⟩
    obtain ⟨hr₁, hr₂⟩ := red.digits_of_plain (hplain (by simp)) (hplain (by simp)).1
    obtain ⟨hg₁, hg₂⟩ := green.digits_of_plain (hplain (by simp)) (hplain (by simp)).1
    obtain ⟨hb₁, hb₂⟩ := blue.digits_of_plain (hplain (by simp)) (hplain (by simp)).1
    refine ⟨.inr rfl, fun c hc => hdigit hc ?_⟩
    simp only [List.mem_cons, List.not_mem_nil, or_false] at hc
    rcases hc with rfl | rfl | rfl | rfl | rfl | rfl <;> assumption

/-- What is returned for a code, and what is not. A code is read as a color exactly if it is three
digits or three numbers of two characters; that is every code of three or six hexadecimal digits,
and no other one unless it has a blank, a sign or a digit of another script. Whatever is read has
its components between 0 and 1 unless there is a minus sign in it. -/
theorem ofHex_reads (code : String) (alpha : Float) :
    (∀ c, ofHex code alpha = .ok c ↔ ∃ rgb, Reads (body code) rgb ∧ c = ofComponents rgb alpha) ∧
    ((∀ c, ofHex code alpha ≠ .ok c) →
      (((body code).length = 3 ∨ (body code).length = 6) ∧
        ∃ part, ofHex code alpha = .error (.colorDigits part)) ∨
      (¬((body code).length = 3 ∨ (body code).length = 6) ∧
        ofHex code alpha = .error (.colorLength (.ofList (body code))))) ∧
    (IsCode (body code) → ∃ c, ofHex code alpha = .ok c ∧ c.InUnit) ∧
    (Plain (body code) → ∀ c, ofHex code alpha = .ok c → IsCode (body code)) ∧
    ('-' ∉ body code → ∀ c, ofHex code alpha = .ok c → c.InUnit) ∧
    ((body code).length = 3 →
      ofHex (.ofList ((body code).flatMap fun c => [c, c])) alpha = ofHex code alpha) := by
  have hof {rgb} (h : components code = .ok rgb) :
      ofHex code alpha = .ok (ofComponents rgb alpha) := by rw [ofHex, h]; rfl
  have hok (c) : ofHex code alpha = .ok c ↔
      ∃ rgb, Reads (body code) rgb ∧ c = ofComponents rgb alpha := by
    constructor
    · intro h
      cases hread : components code with
      | error fault =>
        rw [ofHex, hread] at h
        cases h
      | ok rgb =>
        have h := (hof hread).symm.trans h
        exact ⟨rgb, components_eq_ok_iff.mp hread, (Except.ok.inj h).symm⟩
    · rintro ⟨rgb, hread, rfl⟩
      exact hof (components_eq_ok_iff.mpr hread)
  refine ⟨hok, fun hrefused => ?_, fun hcode => ?_, fun hplain c hc => ?_, fun hminus c hc => ?_,
    fun hshort => ?_⟩
  · have hnone (rgb) : ¬Reads (body code) rgb := fun hread =>
      hrefused _ ((hok _).mpr ⟨_, hread, rfl⟩)
    rcases components_refused hnone with ⟨hlength, part, h⟩ | ⟨hlength, h⟩
    · exact .inl ⟨hlength, part, by rw [ofHex, h]; rfl⟩
    · exact .inr ⟨hlength, by rw [ofHex, h]; rfl⟩
  · obtain ⟨rgb, hread⟩ := hcode.reads
    exact ⟨_, (hok _).mpr ⟨rgb, hread, rfl⟩, hread.inUnit hcode.minus_notMem alpha⟩
  · obtain ⟨rgb, hread, -⟩ := (hok c).mp hc
    exact hread.isCode hplain
  · obtain ⟨rgb, hread, rfl⟩ := (hok c).mp hc
    exact hread.inUnit hminus alpha
  · rw [ofHex, ofHex, components_doubled hshort]

/-- A short code and its long form, and a word with a letter that is no digit. -/
theorem short_code_reads :
    (IsCode (body "#fA0") ∧ ∃ c, ofHex "#fA0" 1.0 = .ok c ∧ c.InUnit) ∧
    (Plain (body "#fA0") ∧ '-' ∉ body "#fA0" ∧
      ∀ c, ofHex "#fA0" 1.0 = .ok c → IsCode (body "#fA0") ∧ c.InUnit) ∧
    ofHex "ffAA00" 1.0 = ofHex "#fA0" 1.0 ∧
    (∀ c, ofHex "#red" 1.0 ≠ .ok c) ∧ ∃ part, ofHex "#red" 1.0 = .error (.colorDigits part) := by
  have hbody : body "#fA0" = ['f', 'A', '0'] := by decide +kernel
  have hcode : IsCode (body "#fA0") := by
    rw [hbody]
    refine ⟨.inl rfl, ?_⟩
    simp only [List.forall_mem_cons, List.not_mem_nil, false_implies, forall_const, and_true]
    decide +kernel
  have hplain : Plain (body "#fA0") := by
    rw [hbody, Plain]
    simp only [List.forall_mem_cons, List.not_mem_nil, false_implies, forall_const, and_true]
    decide +kernel
  have hminus : '-' ∉ body "#fA0" := hcode.minus_notMem
  have hred : ofHex "#red" 1.0 = .error (.colorDigits "rr") := by
    have h : components "#red" = .error (.colorDigits "rr") := by decide +kernel
    rw [ofHex, h]
    rfl
  have hnone (c) : ofHex "#red" 1.0 ≠ .ok c := by simp [hred]
  obtain ⟨-, -, hreads, honly, hunit, hdoubled⟩ := ofHex_reads "#fA0" 1.0
  have hrefused := (ofHex_reads "#red" 1.0).2.1 hnone
  exact ⟨⟨hcode, hreads hcode⟩,
    ⟨hplain, hminus, fun c hc => ⟨honly hplain c hc, hunit hminus c hc⟩⟩,
    hdoubled (by decide +kernel), hnone,
    (hrefused.resolve_right fun h => h.1 (by decide +kernel)).2⟩

/-- A code with minus signs is read, as negative components. -/
theorem negative_is_read : ¬IsCode (body "-1-1-1") ∧
    ∃ c : Color Float, ofHex "-1-1-1" 1.0 = .ok c ∧ c.red < 0.0 ∧ c.green < 0.0 ∧ c.blue < 0.0 := by
  have hread : components "-1-1-1" = .ok (-1, -1, -1) := by decide +kernel
  refine ⟨fun h => ?_, ofComponents (-1, -1, -1) 1.0, ?_, ?_, ?_, ?_⟩
  · exact h.minus_notMem (by decide +kernel)
  · rw [ofHex, hread]
    rfl
  all_goals decide +kernel

end Color
end DebugDesk
