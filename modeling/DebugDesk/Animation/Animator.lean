import DebugDesk.Effect
import DebugDesk.Number.Scalar

/-!
# Animator

An animator calls every registered animation once per frame. What an animation answers decides
whether it stays registered. Animations may register and cancel animations themselves, so all that
an animator does is an effect on the state that holds the registry.
-/
namespace DebugDesk

/-- What an animation wants after a frame. -/
inductive FrameAction where
  /-- To be called in the next frame as well. -/
  | keep
  /-- To end, and to be finished. -/
  | finish
  /-- To end without being finished. -/
  | drop
  /-- No action at all. -/
  | unknown (word : String)
  deriving DecidableEq, Repr

def FrameAction.ofWord : String → FrameAction
  | "continue" => .keep
  | "finish" => .finish
  | "cancel" => .drop
  | word => .unknown word

/-- The registry, in order of registration, and what animations do. An animation that is registered
twice is called twice. -/
structure Animator (σ ι : Type) where
  registry : Part σ (List ι)
  /-- Starts an animation from the beginning. -/
  restart : ι → Effect σ Unit
  /-- One frame of an animation, at a time in nanoseconds. -/
  render : ι → (time : Int) → Effect σ FrameAction
  finish : ι → Effect σ Unit

namespace Animator

variable {σ ι : Type} [DecidableEq ι] (A : Animator σ ι)

def add (a : ι) : Effect σ Unit := do
  A.restart a
  A.registry.update (· ++ [a])

/-- Takes away the first registration of an animation, if there is one. -/
def cancel (a : ι) (finalize : Bool) : Effect σ Unit := do
  if finalize then A.finish a
  A.registry.update (·.erase a)

def isRunning (a : ι) : Effect σ Bool := return (← A.registry.read).contains a

/-- The frame of one animation; tells whether it ends. -/
def renderOne (time : Int) (a : ι) : Effect σ Bool := do
  match ← A.render a time with
  | .keep => return false
  | .finish =>
    A.finish a
    return true
  | .drop => return true
  | .unknown word => throw (.unknownAction word)

def renderAll (time : Int) : List ι → Effect σ (List ι)
  | [] => return []
  | a :: rest => do
    if ← A.renderOne time a then return a :: (← renderAll time rest)
    else renderAll time rest

/-- A frame of all animations that are registered when it begins. Those that end are taken out of
the registry when it is over; a failure leaves the registry as it is by then. -/
def renderFrame (time : Int) : Effect σ Unit := do
  let ended ← A.renderAll time (← A.registry.read)
  A.registry.update (·.filter (!ended.contains ·))

def clear : Effect σ Unit := do
  (← A.registry.read).forM A.finish
  A.registry.update fun _ => []

end Animator

def elapsedSeconds {α : Type} [Scalar α] (start time : Int) : Except Fault α :=
  Scalar.quotient (time - start) 1000000000

end DebugDesk
