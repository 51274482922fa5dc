import DebugDesk.Number.Scalar

/-!
# Time of day

A moment is a number of seconds since the start of 1970; its time of day is told in whole seconds,
rounded down, in a zone that is some seconds ahead, which may be others at other times. Only moments
whose year can be counted have one.
-/
namespace DebugDesk.TimeOfDay

/-- Seconds told by a clock that counts nanoseconds: the quotient, rounded once. -/
def secondsOfNanos {α : Type} [Scalar α] (ns : Int) : Except Fault α :=
  Scalar.quotient ns 1000000000

def secondsOfDay : Int := 86400

def startOfYear (year : Int) : Int :=
  let before := year - 1
  let days := 365 * before + Int.fdiv before 4 - Int.fdiv before 100 + Int.fdiv before 400
  (days - 719162) * secondsOfDay

/-- Moments beyond 64 bits of seconds cannot be told at all. -/
def momentLimit : Int := Binary64.twoTo 63

/-- Years, counted from 1900, are beyond 32 bits. -/
def hasNoYear (second : Int) : Bool :=
  let range : Int := Binary64.twoTo 31
  second < startOfYear (1900 - range) || startOfYear (1900 + range) ≤ second

/-- The year itself is beyond 32 bits. -/
def hasLongYear (second : Int) : Bool := startOfYear (Binary64.twoTo 31) ≤ second

def clockText (second : Int) : String :=
  let ofDay := (second % secondsOfDay).toNat
  ":".intercalate
    [Decimal.padded 2 (ofDay / 3600), Decimal.padded 2 (ofDay / 60 % 60),
      Decimal.padded 2 (ofDay % 60)]

def text (zone : Int → Int) (seconds : Float) : Except Fault String := do
  let second ← match Scalar.floor seconds with
    | .error .infinite => .error .momentOutOfRange
    | other => other
  if second < -momentLimit || momentLimit < second then .error .momentOutOfRange
  let ahead := second + zone second
  if hasNoYear ahead then .error .noYear
  else if hasLongYear ahead then .error .momentOutOfRange
  else return clockText ahead

example : startOfYear 1970 = 0 := by decide

end DebugDesk.TimeOfDay
