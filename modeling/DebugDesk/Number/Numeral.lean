import DebugDesk.Fault
import DebugDesk.Text.Character

/-!
# Numerals

The decimal text of an integer: how it is read where people type it, and the number of digits beyond
which it is neither read nor written.
-/
namespace DebugDesk.Numeral

def maxDigits : Nat := 4300

/-- The value of digits that follow others of the given value, with single underscores between
them. -/
def digitsAfter (value : Nat) : List Char → Option Nat
  | [] => some value
  | '_' :: c :: rest =>
    match Text.decimalValue? c with
    | some d => digitsAfter (value * 10 + d) rest
    | none => none
  | c :: rest =>
    match Text.decimalValue? c with
    | some d => digitsAfter (value * 10 + d) rest
    | none => none

/-- The value of a numeral without a sign. -/
def natural? (cs : List Char) : Option Nat :=
  if maxDigits < (cs.filter (· != '_')).length then none
  else
    match cs with
    | c :: rest => (Text.decimalValue? c).bind fun d => digitsAfter d rest
    | [] => none

/-- The value of an integer: digits of any script, not too many, with single underscores between
them, a sign before them and blanks around it. -/
def integer? (text : List Char) : Option Int :=
  match Text.trimBlanks text with
  | '-' :: rest => (natural? rest).map fun n => -(n : Int)
  | '+' :: rest => (natural? rest).map Int.ofNat
  | cs => (natural? cs).map Int.ofNat

def read (text : String) : Except Fault Int :=
  match integer? text.toList with
  | some n => .ok n
  | none => .error (.notAnInteger text)

def write (n : Int) : Except Fault String :=
  let text := toString n
  if maxDigits < (toString n.natAbs).length then .error .integerTooLong else .ok text

example : integer? " -1_0 ".toList = some (-10) := by decide +kernel

end DebugDesk.Numeral
