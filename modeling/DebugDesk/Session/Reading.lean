import DebugDesk.Session.Report
import DebugDesk.Graph.Basic
import DebugDesk.Graph.Described
import DebugDesk.Camera
import DebugDesk.Drawing.Style
import DebugDesk.Number.Numeral

/-!
# Reading descriptions

Sessions and their steps are described in JSON. Values that are not of the type expected count as
nothing, zero or empty. A session is a list of steps, each followed by a report of its result and of
the state after it.
-/
namespace DebugDesk.Session

def toFloat : Json → Float
  | .int n => Binary64.ofInt n
  | .float x => x
  | .bool b => if b then 1.0 else 0.0
  | .str "nan" => 0.0 / 0.0
  | .str "inf" => 1.0 / 0.0
  | .str "-inf" => -1.0 / 0.0
  | _ => 0.0

def toInt : Json → Int
  | .int n => n
  | .float x => (Binary64.floor x).toOption.getD 0
  | .bool b => if b then 1 else 0
  | _ => 0

def toNat (j : Json) : Nat := (toInt j).toNat

def toStr : Json → String
  | .str s => s
  | _ => ""

def toBool (j : Json) : Bool := !j.isVoid

def toList : Json → List Json
  | .list items => items
  | _ => []

def isNull : Json → Bool
  | .null => true
  | _ => false

def field? (j : Json) (name : String) : Option Json :=
  match j.get? name with
  | some .null | none => none
  | some v => some v

def field (j : Json) (name : String) : Json := (j.get? name).getD .null

def arg (args : List Json) (i : Nat) : Json := args.getD i .null

def arg? (args : List Json) (i : Nat) : Option Json := args[i]?

def floats (j : Json) : List Float := (toList j).map toFloat

/-- A color: none, a code, or four numbers. -/
def colorOf (j : Json) : Except Fault (Option (Color Float)) :=
  match j with
  | .str code => return some (← Color.ofHex code 1.0)
  | .list items =>
    let c := items.map toFloat
    return some ⟨c.getD 0 0, c.getD 1 0, c.getD 2 0, c.getD 3 0⟩
  | _ => return none

def runOf (j : Json) : Except Fault TextRun := do
  let parts := toList j
  return ⟨toStr (arg parts 0), ← colorOf (arg parts 1), match arg parts 2 with
    | .str font => some font
    | _ => none⟩

/-- The runs up to the first that cannot be read, and what is wrong with that one. -/
def runsUpToFault : List Json → TextLine × Option Fault
  | [] => ([], none)
  | j :: rest =>
    match runOf j with
    | .error fault => ([], some fault)
    | .ok run =>
      let (runs, fault) := runsUpToFault rest
      (run :: runs, fault)

/-- The lines up to the first run that cannot be read, and what is wrong with that one. -/
def linesUpToFault : List Json → List TextLine × Option Fault
  | [] => ([], none)
  | j :: rest =>
    match runsUpToFault (toList j) with
    | (runs, some fault) => ([runs], some fault)
    | (runs, none) =>
      let (lines, fault) := linesUpToFault rest
      (runs :: lines, fault)

def linesOf (j : Json) : Except Fault (List TextLine) :=
  match linesUpToFault (toList j) with
  | (lines, none) => .ok lines
  | (_, some fault) => .error fault

def plainRunOf (j : Json) : Except Fault TextRun :=
  let parts := toList j
  if parts.length = 2 then runOf j else .error (.runParts parts.length)

def providerOf (j : Json) : Except Fault ContentProvider := do
  match field? j "static", field? j "debug" with
  | some lines, _ =>
    return .fixed (← (toList lines).mapM fun line => (toList line).mapM plainRunOf)
  | _, some d =>
    return .listing (← Listing.make (toInt (field d "seed"))
      (((field? d "min_lines").map toInt).getD 1) (((field? d "max_lines").map toInt).getD 10))
  | _, _ => return .nothing

def intField (j : Json) (name : String) (absent : Int) : Int :=
  ((field? j name).map toInt).getD absent

def floatField (j : Json) (name : String) (absent : Float) : Float :=
  ((field? j name).map toFloat).getD absent

def positionIn (g : Graph) (j : Json) : Except Fault Nat := g.locate (toInt j)

def withEdge (g : Graph) (source target : Json) : Except Fault Graph :=
  return g.addEdge (.inside (← positionIn g source)) (.inside (← positionIn g target))

def foreignEdge (g : Graph) (i : Nat) (outward : Bool) : Graph :=
  let stranger : Endpoint := .outside g.edges.length unassigned
  if outward then g.addEdge (.inside i) stranger else g.addEdge stranger (.inside i)

def graphOf (d : Json) : Except Fault Graph := do
  let provider ← providerOf (field d "provider")
  let base ←
    if toBool (field d "sample") then pure (Graph.sample provider)
    else match d.get? "random", d.get? "json" with
      | some r, _ => do
        let (g, _) ← (Graph.random Twister.source provider (intField r "n_vertices" 12)
          (floatField r "branch_probability" 0.3) (floatField r "back_edge_probability" 0.1)).run
          (Twister.ofSeed (toInt (field r "seed")))
        pure g
      | _, some value => Graph.ofJson value provider
      | _, _ =>
        let g := (List.range (toNat (field d "n"))).foldl (fun g _ => g.addVertex)
          (Graph.empty provider)
        let g ← (toList (field d "edges")).foldlM (fun g e =>
          withEdge g (arg (toList e) 0) (arg (toList e) 1)) g
        pure (if toBool (field d "unnumbered") then g else g.updateIdentifiers)
  let lined ← match field d "lines" with
    | .object members => members.foldlM (fun g (i, lines) => do
        let position ← g.locate (← Numeral.read i)
        return g.addLines position (← linesOf lines)) base
    | _ => pure base
  let linked ← (toList (field d "foreign")).foldlM (fun g f => do
    return foreignEdge g (← positionIn g (arg (toList f) 0)) (toBool (arg (toList f) 1))) lined
  let named ← (toList (field d "ids")).foldlM (fun g f => do
    return g.modifyVertex (← positionIn g (arg (toList f) 0)) fun v =>
      { v with id := toInt (arg (toList f) 1) }) linked
  match field? d "root" with
  | some i => named.setRoot (.inside (← positionIn named i))
  | none => pure named

def graphOf? (d : Json) : Except Fault (Option Graph) :=
  if isNull d then return none else return some (← graphOf d)

def describedGraph (d : Json) : Except Fault Graph := do
  match ← graphOf? d with
  | some g => return g
  | none => throw .missing

def stepOf (j : Json) : String × List Json :=
  match toList j with
  | name :: args => (toStr name, args)
  | [] => ("", [])

/-- Takes steps one after the other, each from the state that the one before left. -/
def reportEach {σ γ : Type} (step : σ → γ → Report × σ) : σ → List γ → List Report
  | _, [] => []
  | s, c :: rest =>
    let (report, s) := step s c
    report :: reportEach step s rest

/-- The report of all steps of a session; each gives its result and what `state` tells
afterwards. -/
def stepsReport {σ : Type} (step : σ → String → List Json → Report × σ)
    (state : σ → List (String × Report) × σ) (start : σ) (input : Json) : Report :=
  .list (reportEach (fun s j =>
    let (name, args) := stepOf j
    let (result, s) := step s name args
    let (shown, s) := state s
    (.object (("r", result) :: shown), s)) start (toList (field input "steps")))

/-- The same state with null as the result, or a failure that changes nothing. -/
def orKeep {σ : Type} (s : σ) : Except Fault σ → Report × σ
  | .ok s => (.null, s)
  | .error fault => (.failed fault, s)

end DebugDesk.Session
