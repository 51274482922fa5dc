import DebugDesk.Json.Writer
import DebugDesk.Session.Report

/-!
# Writing reports

Reports are written in JSON, except for their failures, which whoever reads the report wants written
in some way or other. Numbers are written as texts: in full, or rounded such that the last digits do
not show.
-/
namespace DebugDesk.Session.Report

/-- Six places; ten digits for numbers that have as many before the point; no negative zero. -/
def roundedText (x : Float) : String :=
  if x.abs < 1e9 then
    let s := Decimal.fixed 6 x
    if s = "-0.000000" then "0.000000" else s
  else if x.isNaN || x.isInf then Decimal.shortest x
  else Decimal.scientific 9 x

/-- Seventeen digits, which tell all doubles apart. -/
def exactText (x : Float) : String := Decimal.scientific 16 x

mutual

def text (failure : Fault → String) : Report → String
  | null => "null"
  | bool b => if b then "true" else "false"
  | int n => toString n
  | rounded x => Json.literal (roundedText x)
  | exact x => Json.literal (exactText x)
  | str s => Json.literal s
  | list items => Json.listText (itemTexts failure items)
  | object members => Json.objectText (memberTexts failure members)
  | json value => value.text
  | failed fault => failure fault

def itemTexts (failure : Fault → String) : List Report → List String
  | [] => []
  | r :: rest => text failure r :: itemTexts failure rest

def memberTexts (failure : Fault → String) : List (String × Report) → List (String × String)
  | [] => []
  | (name, r) :: rest => (name, text failure r) :: memberTexts failure rest

end

def messageText (fault : Fault) : String := Json.objectText [("error", Json.literal fault.message)]

end DebugDesk.Session.Report
