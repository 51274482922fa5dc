/-!
# Exact values of double precision numbers

A finite double is an integer multiple of a power of two. `Binary64.decode` reads that multiple off
the bits, `Binary64.nearest` rounds an exact rational to the closest double, ties to an even
multiple, and `Binary64.ofRat` builds the double itself.
-/
namespace DebugDesk.Binary64

def twoTo (k : Nat) : Nat := Nat.pow 2 k

/-- What a double stands for; a finite one is `± mantissa * 2 ^ exponent`. -/
inductive Decoded where
  | nan
  | infinite (negative : Bool)
  | finite (negative : Bool) (mantissa : Nat) (exponent : Int)
  deriving DecidableEq, Repr

/-- Exponent of the smallest positive double. -/
def leastExponent : Int := -1074

def decode (x : Float) : Decoded :=
  let bits : Nat := x.toBits.toNat
  let negative := bits / twoTo 63 == 1
  let field : Nat := bits / twoTo 52 % twoTo 11
  let fraction : Nat := bits % twoTo 52
  if field = 2047 then
    if fraction = 0 then .infinite negative else .nan
  else if field = 0 then .finite negative fraction leastExponent
  else .finite negative (twoTo 52 + fraction) ((field : Int) - 1 + leastExponent)

/-- The exact value of a finite double. -/
def toRat? (x : Float) : Option Rat :=
  match decode x with
  | .finite negative m q =>
    let magnitude : Rat := (m : Rat) * (2 : Rat) ^ q
    some (if negative then -magnitude else magnitude)
  | _ => none

/-- The nearest integer; a value halfway between two goes to the even one. -/
def roundEven (x : Rat) : Int :=
  let below := x.floor
  let rest := x - (below : Rat)
  if rest < 1 / 2 then below
  else if 1 / 2 < rest then below + 1
  else if below % 2 = 0 then below else below + 1

/-- The greatest `e` with `2 ^ e ≤ x`, for a positive `x`. -/
def log2 (x : Rat) : Int :=
  let guess : Int := (x.num.natAbs.log2 : Int) - (x.den.log2 : Int)
  if (2 : Rat) ^ guess ≤ x then guess else guess - 1

/-- Exponent of the grid of doubles around `x`: 53 significant bits, and none below the least. -/
def gridExponent (x : Rat) : Int :=
  if x = 0 then leastExponent else max (log2 x.abs - 52) leastExponent

/-- The closest multiple of the grid around `x`, ties to an even multiple. The range is unbounded
above; see `overflows`. -/
def nearest (x : Rat) : Rat :=
  let unit : Rat := (2 : Rat) ^ gridExponent x
  (roundEven (x / unit) : Rat) * unit

def overflows (x : Rat) : Bool := (2 : Rat) ^ (1024 : Int) ≤ x.abs

def infinity : Float := Float.ofBits 0x7ff0000000000000

/-- The double closest to an exact value; infinite if there is none that large. -/
def ofRat (x : Rat) : Float :=
  let rounded := nearest x
  let negative : Nat := if x < 0 then 1 else 0
  let bits : Nat :=
    if overflows rounded then 2047 * twoTo 52
    else if rounded = 0 then 0
    else
      let e := max (log2 rounded.abs - 52) leastExponent
      let mantissa := (rounded.abs / (2 : Rat) ^ e).floor.toNat
      if mantissa < twoTo 52 then mantissa
      else (e - leastExponent + 1).toNat * twoTo 52 + (mantissa - twoTo 52)
  Float.ofBits (UInt64.ofNat (negative * twoTo 63 + bits))

def ofInt (n : Int) : Float :=
  if n.natAbs < twoTo 53 then Float.ofInt n else ofRat n

/-- `digits * 10 ^ exponent` as a double. Exponents far outside the range are answered without
computing the power. -/
def ofDecimal (negative : Bool) (digits : Nat) (exponent : Int) : Float :=
  let size : Int := (Nat.toDigits 10 digits).length
  let magnitude : Float :=
    if digits = 0 || exponent + size < -400 then 0.0
    else if exponent > 400 then infinity
    else ofRat ((digits : Rat) * (10 : Rat) ^ exponent)
  if negative then -magnitude else magnitude

end DebugDesk.Binary64
