import DebugDesk.Animation.Animator
import DebugDesk.Panel.Workspace

/-!
# Closing panels

A panel closes in two stages of equal length: its body fades out, then its header fades while the
panel collapses. After that it is removed.
-/
namespace DebugDesk.Workspace

variable {α β : Type}

def closing? (w : Workspace α β) (i : Nat) : Option Closing := w.closings.find? fun c => c.panel = i

def prepareClosing (w : Workspace α β) (m i : Nat) : Workspace α β :=
  { w with closings := w.closings ++ [⟨i, m, 0⟩] }

def restartClosing (w : Workspace α β) (i : Nat) (now : Int) : Workspace α β :=
  { w with closings := w.closings.map fun c => if c.panel = i then { c with start := now } else c }

/-- Removes a panel that has faded out, unless it is closed by then. -/
def finishClosing (w : Workspace α β) (i : Nat) : Except Fault (Workspace α β) :=
  match w.closing? i, w.panel? i with
  | some c, some p => if p.closed then .ok w else w.remove c.manager i
  | _, _ => .ok w

/-- Closes a panel without fading it out. -/
def closeAtOnce (w : Workspace α β) (m i : Nat) : Except Fault Unit × Workspace α β :=
  match w.beginClose i with
  | (false, w) => (.ok (), w)
  | (true, w) =>
    match w.remove m i with
    | .ok w => (.ok (), w)
    | .error fault => (.error fault, w)

variable [Scalar α]

/-- How many stages of a closing have passed by a time in nanoseconds. -/
def stages (w : Workspace α β) (c : Closing) (time : Int) : Except Fault α := do
  let stage := ((w.managers[c.manager]?).map PanelManager.stageDuration).getD 0.0
  Scalar.divide (← elapsedSeconds c.start time) stage

/-- A frame of the fading, at a time in nanoseconds. -/
def closingFrame (w : Workspace α β) (i : Nat) (time : Int) :
    Except Fault (FrameAction × Workspace α β) :=
  match w.closing? i, w.panel? i with
  | some c, some p => do
    let (ended, p) := p.fade (← w.stages c time)
    return (if ended then .finish else .keep, w.modifyPanel i fun _ => p)
  | _, _ => .ok (.finish, w)

end DebugDesk.Workspace
