import DebugDesk.Number.Binary64

/-!
# JSON values

Integers and doubles stay apart, and an object keeps its members in the order in which their names
first occurred. Scalars double as keys: numbers and truth values of equal value are one key. JSON
can write texts with half a surrogate pair in them, which are no sequences of characters.
-/
namespace DebugDesk

inductive Json where
  | null
  | bool (b : Bool)
  | int (n : Int)
  | float (x : Float)
  | str (s : String)
  /-- A text with code points in it that are no characters, by its code points. -/
  | broken (points : List Nat)
  | list (items : List Json)
  | object (members : List (String × Json))

namespace Json

instance : Inhabited Json := ⟨null⟩

/-- A code point that is half a surrogate pair. -/
def isSurrogate (n : Nat) : Bool := 0xD800 ≤ n && n < 0xE000

def ofPoints (points : List Nat) : Json :=
  if points.any isSurrogate then broken points else str (String.ofList (points.map Char.ofNat))

/-- The characters of some code points; another character stands for those that are none. -/
def readable (points : List Nat) : String :=
  String.ofList (points.map fun n => if isSurrogate n then '\uFFFD' else Char.ofNat n)

def name? : Json → Option String
  | str s => some s
  | broken points => some (readable points)
  | _ => none

/-- Null, false, zero, and what is empty. -/
def isVoid : Json → Bool
  | null => true
  | bool b => !b
  | int n => n == 0
  | float x => x == 0.0
  | str s => s.isEmpty
  | broken points => points.isEmpty
  | list items => items.isEmpty
  | object members => members.isEmpty

mutual

def depth : Json → Nat
  | list items => depthOfItems items + 1
  | object members => depthOfMembers members + 1
  | _ => 0

def depthOfItems : List Json → Nat
  | [] => 0
  | x :: rest => max (depth x) (depthOfItems rest)

def depthOfMembers : List (String × Json) → Nat
  | [] => 0
  | (_, value) :: rest => max (depth value) (depthOfMembers rest)

end

/-- Adds a member, or gives the one of that name a new value in its old place. -/
def setMember (name : String) (value : Json) : List (String × Json) → List (String × Json)
  | [] => [(name, value)]
  | (other, old) :: rest =>
    if other = name then (name, value) :: rest else (other, old) :: setMember name value rest

def get? (name : String) : Json → Option Json
  | object members => members.lookup name
  | _ => none

/-- What a scalar is when it serves as a key. -/
inductive Key where
  | null
  | number (value : Rat)
  | infinite (negative : Bool)
  | nan
  | text (s : String)
  | broken (points : List Nat)
  deriving DecidableEq, Repr

/-- The key that a scalar is; lists and objects are none. -/
def key? : Json → Option Key
  | null => some .null
  | bool b => some (.number (if b then 1 else 0))
  | int n => some (.number n)
  | float x =>
    match Binary64.toRat? x, Binary64.decode x with
    | some r, _ => some (.number r)
    | none, .infinite negative => some (.infinite negative)
    | none, _ => some .nan
  | str s => some (.text s)
  | broken points => some (.broken points)
  | list _ | object _ => none

end Json

end DebugDesk
