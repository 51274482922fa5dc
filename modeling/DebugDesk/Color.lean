import DebugDesk.Number.Scalar
import DebugDesk.Text.Character

/-!
# Colors

Colors have components between 0 and 1 and are written as hexadecimal codes, `#rrggbb` or `#rgb`.
The toolkit takes them as integers between 0 and 255.
-/
namespace DebugDesk

structure Color (α : Type) where
  red : α
  green : α
  blue : α
  alpha : α
  deriving Repr

namespace Color

/-- A hexadecimal number with a sign before it and blanks around it allowed. -/
def component? (part : List Char) : Option Int :=
  let unsigned? (digits : List Char) : Option Nat :=
    if digits.isEmpty then none
    else (digits.mapM Text.hexValue?).map (·.foldl (fun n d => n * 16 + d) 0)
  match Text.trimBlanks part with
  | '+' :: digits => (unsigned? digits).map Int.ofNat
  | '-' :: digits => (unsigned? digits).map fun n => -(n : Int)
  | digits => (unsigned? digits).map Int.ofNat

def expanded (code : String) : List Char :=
  let body := code.toList.dropWhile (· == '#')
  if body.length = 3 then body.flatMap fun c => [c, c] else body

/-- The three components that a code stands for, out of 255. -/
def components (code : String) : Except Fault (Int × Int × Int) :=
  match expanded code with
  | [r₁, r₂, g₁, g₂, b₁, b₂] => do
    let read (a b : Char) : Except Fault Int :=
      match component? [a, b] with
      | some n => .ok n
      | none => .error (.colorDigits (String.ofList [a, b]))
    return (← read r₁ r₂, ← read g₁ g₂, ← read b₁ b₂)
  | other => .error (.colorLength (String.ofList other))

variable {α : Type} [Scalar α]

def ofComponents (rgb : Int × Int × Int) (alpha : α) : Color α :=
  let share (n : Int) : α := Scalar.ofInt n / 255.0
  ⟨share rgb.1, share rgb.2.1, share rgb.2.2, alpha⟩

def ofHex (code : String) (alpha : α) : Except Fault (Color α) :=
  return ofComponents (← components code) alpha

def toList (c : Color α) : List α := [c.red, c.green, c.blue, c.alpha]

/-- Components scaled to 255 and rounded, halves to the even neighbour. -/
def channels (components : List α) : Except Fault (List Int) :=
  components.mapM fun c => Scalar.roundEven (c * 255.0)

end Color

abbrev Ink := Option (Color Float)

end DebugDesk
