import DebugDesk.Fault
import DebugDesk.Number.Comparison
import DebugDesk.Number.Decimal

/-!
# Coordinates

All geometry is written over a `Scalar`: arithmetic, a decidable order that is total among the
values that compare with themselves, and a floor that may not exist. Doubles are the scalars that
run, with values that are not numbers and infinite ones; exact numbers satisfy the same operations.
-/
namespace DebugDesk

class Scalar (α : Type) extends Add α, Sub α, Mul α, Div α, Neg α, LT α, LE α, BEq α,
    OfScientific α where
  decidableLT : DecidableLT α
  decidableLE : DecidableLE α
  ofInt : Int → α
  /-- The scalar closest to the quotient of two integers. -/
  quotient : Int → Int → Except Fault α
  /-- The greatest integer not above a value. -/
  floor : α → Except Fault Int
  /-- How a value is shown inside a message. -/
  text : α → String
  /-- There is no quotient by zero, and none beyond the greatest value. -/
  quotient_fault : ∀ {a b fault}, quotient a b = .error fault →
    fault = .divisionByZero ∨ fault = .quotientTooLarge
  le_trans : ∀ {a b c : α}, a ≤ b → b ≤ c → a ≤ c
  /-- What compares with anything compares with itself. -/
  le_left : ∀ {a b : α}, a ≤ b → a ≤ a
  le_right : ∀ {a b : α}, a ≤ b → b ≤ b
  le_total : ∀ {a b : α}, a ≤ a → b ≤ b → a ≤ b ∨ b ≤ a
  lt_iff : ∀ a b : α, a < b ↔ a ≤ b ∧ ¬b ≤ a
  beq_iff : ∀ a b : α, (a == b) = true ↔ a ≤ b ∧ b ≤ a

attribute [reducible, instance] Scalar.decidableLT Scalar.decidableLE

/-- Scalars with the two roots that gestures need. -/
class RootScalar (α : Type) extends Scalar α where
  /-- Square root of a value that is not negative. -/
  root : α → α
  /-- Length of the hypotenuse over two legs. -/
  hypotenuse : α → α → α

namespace Scalar

variable {α : Type} [Scalar α]

/-- The second value if it is greater, else the first. -/
def greater (a b : α) : α := if a < b then b else a

/-- The second value if it is less, else the first. -/
def lesser (a b : α) : α := if b < a then b else a

/-- The first of the greatest values of a list; `start` if it is empty. -/
def greatest (start : α) : List α → α
  | [] => start
  | x :: xs => xs.foldl greater x

def least (start : α) : List α → α
  | [] => start
  | x :: xs => xs.foldl lesser x

/-- A sum from left to right, beginning with zero. -/
def sum (xs : List α) : α := xs.foldl (· + ·) 0.0

/-- The value itself between the bounds, the bound it passes otherwise. A value that compares with
nothing becomes the lower bound. -/
def clamp (x lo hi : α) : α := lesser (greater lo x) hi

def divide (a b : α) : Except Fault α :=
  if b == 0.0 then .error .divisionByZero else .ok (a / b)

/-- The integer part, toward zero. -/
def truncate (x : α) : Except Fault Int :=
  if x < 0.0 then (- ·) <$> floor (-x) else floor x

/-- The nearest integer, halves to the even neighbour. -/
def roundEven (x : α) : Except Fault Int := do
  let below ← floor x
  let rest := x - ofInt below
  return if rest < 0.5 then below
    else if 0.5 < rest then below + 1
    else if below % 2 = 0 then below else below + 1

/-- The nearest multiple of a positive grid, halves upward. -/
def snap (x grid : α) : Except Fault α :=
  if grid ≤ 0.0 then .error (.gridNotPositive (text grid))
  else return ofInt (← floor (x / grid + 0.5)) * grid

def squareDistance (x₁ y₁ x₂ y₂ : α) : α :=
  let dx := x₂ - x₁
  let dy := y₂ - y₁
  dx * dx + dy * dy

end Scalar

structure Point (α : Type) where
  x : α
  y : α
  deriving Repr

namespace Binary64

/-- The floor of a double, exactly. -/
def floor (x : Float) : Except Fault Int :=
  match decode x with
  | .nan => .error .notANumber
  | .infinite _ => .error .infinite
  | .finite negative m q =>
    let magnitude : Int := if negative then -m else m
    .ok (if 0 ≤ q then magnitude * twoTo q.toNat else Int.fdiv magnitude (twoTo (-q).toNat))

def quotient (a b : Int) : Except Fault Float :=
  if b = 0 then .error .divisionByZero
  else
    let exact := (a : Rat) / (b : Rat)
    if overflows (nearest exact) then .error .quotientTooLarge else .ok (ofRat exact)

theorem quotient_fault {a b : Int} {fault : Fault} (h : quotient a b = .error fault) :
    fault = .divisionByZero ∨ fault = .quotientTooLarge := by
  simp only [quotient] at h
  split at h
  · exact .inl (Except.error.inj h).symm
  · split at h
    · exact .inr (Except.error.inj h).symm
    · exact nomatch h

instance : Scalar Float where
  decidableLT := inferInstance
  decidableLE := inferInstance
  ofInt := ofInt
  quotient := quotient
  floor := floor
  text := Decimal.shortest
  quotient_fault := quotient_fault
  le_trans := le_trans
  le_left := le_left
  le_right := le_right
  le_total := le_total
  lt_iff := lt_iff
  beq_iff := beq_iff

/-- The root of an exact value of at least one, to a whole number and rounded up to odd if it is
not one, so that rounding it again is as good as rounding the root. -/
def stickyRoot (n : Nat) : Nat :=
  let rec climb : Nat → Nat → Nat
    | 0, r => r
    | bit + 1, r =>
      let next := r + twoTo bit
      climb bit (if next * next ≤ n then next else r)
  let r := climb (n.log2 / 2 + 1) 0
  if r * r = n || r % 2 = 1 then r else r + 1

/-- The double closest to the root of an exact value. -/
def rootOfRat (x : Rat) : Float :=
  if x ≤ 0 then 0.0
  else
    let shift : Int := 140 - log2 x
    let even := shift - shift % 2
    ofRat ((stickyRoot (x * (2 : Rat) ^ even).floor.toNat : Rat) * (2 : Rat) ^ (-(even / 2)))

/-- Infinite if either leg is, else the closest double to the exact length. -/
def hypotenuse (x y : Float) : Float :=
  match decode x, decode y with
  | .infinite _, _ | _, .infinite _ => infinity
  | .nan, _ | _, .nan => 0.0 / 0.0
  | .finite _ .., .finite _ .. =>
    match toRat? x, toRat? y with
    | some a, some b => rootOfRat (a * a + b * b)
    | _, _ => 0.0 / 0.0

instance : RootScalar Float where
  root := Float.sqrt
  hypotenuse := hypotenuse

end Binary64

end DebugDesk
