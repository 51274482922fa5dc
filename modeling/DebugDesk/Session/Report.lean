import DebugDesk.Fault
import DebugDesk.Json.Basic

/-!
# Reports

What a session tells about a component. A report leaves open how it is written: a number says
whether it is told in full or rounded, and a failure is its cause.
-/
namespace DebugDesk.Session

inductive Report where
  | null
  | bool (b : Bool)
  | int (n : Int)
  /-- A number whose last digits do not matter. -/
  | rounded (x : Float)
  /-- A number in full. -/
  | exact (x : Float)
  | str (s : String)
  | list (items : List Report)
  | object (members : List (String × Report))
  | json (value : Json)
  | failed (fault : Fault)

namespace Report

instance : Inhabited Report := ⟨null⟩

def nat (n : Nat) : Report := int n

def strings (ss : List String) : Report := list (ss.map str)

def opt {β : Type} (f : β → Report) : Option β → Report
  | some b => f b
  | none => null

def orFailed {β : Type} (f : β → Report) : Except Fault β → Report
  | .ok b => f b
  | .error fault => failed fault

def ofExcept (r : Except Fault Report) : Report := orFailed id r

end Report

end DebugDesk.Session
