import DebugDesk.Json.Basic
import DebugDesk.Number.Decimal
import DebugDesk.Text.Quoted

/-!
# Writing JSON

Texts are written in ASCII, other characters by their UTF-16 units. Doubles are written so that they
read back. Inside a message a string stands as it is, and any other value in the notation of the
log: `None`, `True`, shortest decimals, brackets and braces, with the strings inside containers
quoted.
-/
namespace DebugDesk.Json

def escapeUnit (n : Nat) : String := "\\u" ++ Text.hexPadded 4 n

def surrogates (n : Nat) : Nat × Nat :=
  let v := n - 0x10000
  (0xD800 + v / 0x400, 0xDC00 + v % 0x400)

def escaped (n : Nat) : String :=
  if n = '"'.toNat || n = '\\'.toNat then "\\" ++ (Char.ofNat n).toString
  else if 0x20 ≤ n && n < 0x7f then (Char.ofNat n).toString
  else if n < 0x10000 then escapeUnit n
  else escapeUnit (surrogates n).1 ++ escapeUnit (surrogates n).2

def pointsLiteral (points : List Nat) : String := "\"" ++ String.join (points.map escaped) ++ "\""

def literal (s : String) : String := pointsLiteral (s.toList.map Char.toNat)

def number (x : Float) : String :=
  match Binary64.decode x with
  | .nan => "NaN"
  | .infinite negative => Decimal.signed negative "Infinity"
  | .finite .. => Decimal.shortest x

def listText (items : List String) : String := "[" ++ ",".intercalate items ++ "]"

def objectText (members : List (String × String)) : String :=
  "\x7b" ++ ",".intercalate (members.map fun (name, value) => literal name ++ ":" ++ value)
    ++ "\x7d"

mutual

def text : Json → String
  | null => "null"
  | bool b => if b then "true" else "false"
  | int n => toString n
  | float x => number x
  | str s => literal s
  | broken points => pointsLiteral points
  | list items => listText (itemTexts items)
  | object members => objectText (memberTexts members)

def itemTexts : List Json → List String
  | [] => []
  | x :: rest => text x :: itemTexts rest

def memberTexts : List (String × Json) → List (String × String)
  | [] => []
  | (name, value) :: rest => (name, text value) :: memberTexts rest

end

mutual

/-- A value as it stands inside a container. -/
def nested : Json → String
  | null => "None"
  | bool b => if b then "True" else "False"
  | int n => toString n
  | float x => Decimal.shortest x
  | str s => Text.quoted s
  | broken points => Text.quotedPoints points
  | list items => "[" ++ ", ".intercalate (nestedItems items) ++ "]"
  | object members => "\x7b" ++ ", ".intercalate (nestedMembers members) ++ "\x7d"

def nestedItems : List Json → List String
  | [] => []
  | x :: rest => nested x :: nestedItems rest

def nestedMembers : List (String × Json) → List String
  | [] => []
  | (name, value) :: rest => (Text.quoted name ++ ": " ++ nested value) :: nestedMembers rest

end

def display : Json → String
  | str s => s
  | broken points => readable points
  | value => nested value

def asText : Json → Json
  | broken points => broken points
  | value => str value.display

end DebugDesk.Json
