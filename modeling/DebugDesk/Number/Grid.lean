import DebugDesk.Number.Binary64
import DebugDesk.Number.Numeral

/-!
# Snapping integers

An integer is snapped in double arithmetic up to the floor: the quotient and the half step added to
it are each rounded to a double, the product is exact.
-/
namespace DebugDesk.Grid

open Binary64

def quotient (x grid : Int) : Except Fault Rat :=
  let rounded := nearest ((x : Rat) / (grid : Rat))
  if overflows rounded then .error .quotientTooLarge else .ok rounded

/-- The nearest multiple of a positive grid, halves upward, as far as doubles tell. -/
def snapInt (x grid : Int) : Except Fault Int :=
  if grid ≤ 0 then .error (.gridNotPositive (toString grid))
  else return (nearest ((← quotient x grid) + 1 / 2)).floor * grid

def snapText (x grid : String) : Except Fault String := do
  Numeral.write (← snapInt (← Numeral.read x) (← Numeral.read grid))

end DebugDesk.Grid
