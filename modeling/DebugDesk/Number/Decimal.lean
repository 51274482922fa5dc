import DebugDesk.Number.Binary64

/-!
# Decimal texts of doubles

Two rounded forms, fixed places and scientific, both exact up to one rounding to even; and the
shortest decimal that reads back to the same double.
-/
namespace DebugDesk.Decimal

open Binary64

def tenTo (k : Nat) : Nat := Nat.pow 10 k

def padded (width n : Nat) : String :=
  let digits := String.ofList (Nat.toDigits 10 n)
  "".pushn '0' (width - digits.length) ++ digits

/-- Sign and at least two digits, as in `e+09`. -/
def exponentText (e : Int) : String :=
  "e" ++ (if e < 0 then "-" else "+") ++ padded 2 e.natAbs

/-- An integer scaled by `10 ^ places`, written with a point; no point for no places. -/
def pointed (places scaled : Nat) : String :=
  if places = 0 then toString scaled
  else toString (scaled / tenTo places) ++ "." ++ padded places (scaled % tenTo places)

/-- The greatest `e` with `10 ^ e ≤ x`, for a positive `x`. -/
def log10 (x : Rat) : Int :=
  let guess : Int := (log2 x * 30103) / 100000
  if (10 : Rat) ^ (guess + 1) ≤ x then guess + 1
  else if (10 : Rat) ^ guess ≤ x then guess else guess - 1

def signed (negative : Bool) (s : String) : String := if negative then "-" ++ s else s

def fixedMagnitude (places : Nat) (x : Rat) : String :=
  pointed places (roundEven (x * (tenTo places : Rat))).toNat

/-- A nonnegative value as one digit, a point, the given number of places and an exponent. -/
def scientificMagnitude (places : Nat) (x : Rat) : String :=
  if x = 0 then pointed places 0 ++ exponentText 0
  else
    let e := log10 x
    let scaled := (roundEven (x / (10 : Rat) ^ (e - places))).toNat
    if scaled < tenTo (places + 1) then pointed places scaled ++ exponentText e
    else pointed places (scaled / 10) ++ exponentText (e + 1)

/-- Names of the values that are not finite, and the finite ones as `write` has them. -/
def withSpecials (write : Rat → String) (x : Float) : String :=
  match decode x with
  | .nan => "nan"
  | .infinite negative => signed negative "inf"
  | .finite negative m q => signed negative (write ((m : Rat) * (2 : Rat) ^ q))

def fixed (places : Nat) : Float → String := withSpecials (fixedMagnitude places)

def scientific (places : Nat) : Float → String := withSpecials (scientificMagnitude places)

/-- Digits and exponent of a decimal `digits * 10 ^ exponent`. -/
structure Digits where
  digits : Nat
  exponent : Int
  deriving DecidableEq, Repr

def Digits.value (d : Digits) : Rat := (d.digits : Rat) * (10 : Rat) ^ d.exponent

/-- The reals that round to `m * 2 ^ q`; the ends belong to it when `m` is even. Below a power of
two the grid is twice as fine. -/
structure Interval where
  low : Rat
  high : Rat
  closed : Bool

def Interval.contains (i : Interval) (x : Rat) : Bool :=
  if i.closed then i.low ≤ x && x ≤ i.high else i.low < x && x < i.high

def roundingInterval (m : Nat) (q : Int) : Interval :=
  let unit : Rat := (2 : Rat) ^ q
  let below : Rat := if m = twoTo 52 && q != leastExponent then 1 / 4 else 1 / 2
  { low := ((m : Rat) - below) * unit
    high := ((m : Rat) + 1 / 2) * unit
    closed := m % 2 = 0 }

/-- The closer of two neighbouring decimals, the even one if both are as close. -/
def closer (x : Rat) (lower upper : Digits) : Digits :=
  let down := x - lower.value
  let up := upper.value - x
  if down < up then lower
  else if up < down then upper
  else if lower.digits % 2 = 0 then lower else upper

/-- The one of two neighbouring decimals inside the interval that is closer to the value. -/
def closerWithin (i : Interval) (x : Rat) (lower upper : Digits) : Option Digits :=
  match i.contains lower.value, i.contains upper.value with
  | true, true => some (closer x lower upper)
  | true, false => some lower
  | false, true => some upper
  | false, false => none

/-- The neighbours of `x` with `n` significant digits. -/
def neighbours (x : Rat) (n : Nat) : Digits × Digits :=
  let e := log10 x - n + 1
  let below := (x / (10 : Rat) ^ e).floor.toNat
  (⟨below, e⟩, ⟨below + 1, e⟩)

/-- The fewest digits that read back to a positive double `m * 2 ^ q`, nearest to it among those. -/
def shortestDigits (m : Nat) (q : Int) : Digits :=
  let x : Rat := (m : Rat) * (2 : Rat) ^ q
  let i := roundingInterval m q
  let candidates := (List.range 17).filterMap fun n =>
    let (lower, upper) := neighbours x (n + 1)
    closerWithin i x lower upper
  candidates.headD (neighbours x 17).1

/-- Positional for decimal points from 4 places left of the first digit to 16 right of it, with a
point always; scientific elsewhere, with a point only between digits. -/
def layoutDigits (d : Digits) : String :=
  let cs := (Nat.toDigits 10 d.digits).reverse.dropWhile (· == '0') |>.reverse
  let point : Int := (Nat.toDigits 10 d.digits).length + d.exponent
  if -4 < point ∧ point ≤ 16 then
    if point ≤ 0 then "0." ++ "".pushn '0' (-point).toNat ++ String.ofList cs
    else
      let whole := cs.take point.toNat
      let rest := cs.drop point.toNat
      ((String.ofList whole).pushn '0' (point.toNat - whole.length)) ++ "." ++
        (if rest.isEmpty then "0" else String.ofList rest)
  else
    let tail := cs.drop 1
    String.ofList (cs.take 1) ++ (if tail.isEmpty then "" else "." ++ String.ofList tail) ++
      exponentText (point - 1)

/-- The shortest decimal that reads back, as a double is shown inside a message. -/
def shortest (x : Float) : String :=
  match decode x with
  | .nan => "nan"
  | .infinite negative => signed negative "inf"
  | .finite negative m q =>
    signed negative (if m = 0 then "0.0" else layoutDigits (shortestDigits m q))

end DebugDesk.Decimal
