import DebugDesk.Animation.Animator
import DebugDesk.Panel.Closing

/-!
# Scripted panels

Panels under commands: managers add, focus and close them, pointers drag them, and an animator fades
out those that close. Managers and panels are told by number.
-/
namespace DebugDesk.PanelScript

inductive Command (α β : Type) where
  /-- Makes a panel that no manager has. -/
  | create (title : String) (x y width height : α) (expanded : Bool)
      (headerHeight minWidth minHeight : α)
  | add (manager panel : Nat)
  | focus (manager panel : Nat)
  | remove (manager panel : Nat)
  | close (manager panel : Nat) (animate : Bool)
  | closeAll (manager : Nat)
  /-- Renders a frame, now or at a given time. -/
  | frame (time : Option Int)
  | toggle (panel : Nat)
  | beginMove (panel : Nat) (pointer : Point α)
  | moveTo (panel : Nat) (pointer : Point α)
  | endMove (panel : Nat)
  | beginResize (panel : Nat) (pointer : Point α)
  | resizeTo (panel : Nat) (pointer : Point α)
  | endResize (panel : Nat)
  | cancelGesture (panel : Nat)
  | bind (panel : Nat) (binding : β)
  | releaseBindings (panel : Nat)
  | setClock (time : Int)

inductive Answer where
  | nothing
  | flag (b : Bool)

structure Stage (α β : Type) where
  workspace : Workspace α β
  /-- The panels that are fading out, in order of registration. -/
  registry : List Nat
  clock : Int

namespace Stage

variable {α β : Type}

def start (settings : List (α × α)) : Stage α β :=
  ⟨.make (settings.map fun (grid, stage) => .make grid stage), [], 0⟩

def space : Part (Stage α β) (Workspace α β) :=
  ⟨Stage.workspace, fun w s => { s with workspace := w }⟩

def change (f : Workspace α β → Workspace α β) : Effect (Stage α β) Answer := do
  space.update f
  return .nothing

def trying (f : Workspace α β → Except Fault (Workspace α β)) : Effect (Stage α β) Answer :=
  Effect.step fun s => return (.nothing, { s with workspace := ← f s.workspace })

def asking (f : Workspace α β → Except Fault (Bool × Workspace α β)) : Effect (Stage α β) Answer :=
  Effect.step fun s => do
    let (b, workspace) ← f s.workspace
    return (.flag b, { s with workspace })

def needManager (m : Nat) : Effect (Stage α β) Unit := do
  if (← get).workspace.managers[m]?.isNone then throw .unknownName

variable [Scalar α]

/-- The animator that fades panels out. -/
def animator : Animator (Stage α β) Nat where
  registry := ⟨Stage.registry, fun r s => { s with registry := r }⟩
  restart i := do
    let now := (← get).clock
    space.update (·.restartClosing i now)
  render i time := Effect.step fun s => do
    let (action, workspace) ← s.workspace.closingFrame i time
    return (action, { s with workspace })
  finish i := Effect.step fun s =>
    return ((), { s with workspace := ← s.workspace.finishClosing i })

/-- Closes a panel, fading it out or at once. -/
def close (m i : Nat) (animate : Bool) : Effect (Stage α β) Unit := do
  if animate then
    if ← Effect.change fun s =>
        let (begun, workspace) := s.workspace.beginClose i
        (begun, { s with workspace }) then
      space.update (·.prepareClosing m i)
      animator.add i
  else
    Effect.ofExcept (← Effect.change fun s =>
      let (outcome, workspace) := s.workspace.closeAtOnce m i
      (outcome, { s with workspace }))

/-- Carries out a command. -/
def perform : Command α β → Effect (Stage α β) Answer
  | .create title x y width height expanded headerHeight minWidth minHeight =>
    change (·.push (.make title x y width height expanded headerHeight minWidth minHeight))
  | .add m i => do
    needManager m
    trying (·.add m i)
  | .focus m i => do
    needManager m
    trying (·.focus m i)
  | .remove m i => do
    needManager m
    trying (·.remove m i)
  | .close m i animate => do
    needManager m
    close m i animate
    return .nothing
  | .closeAll m => do
    ((← get).workspace.members m).forM (close m · false)
    return .nothing
  | .frame time => do
    let now := (← get).clock
    animator.renderFrame (time.getD now)
    return .nothing
  | .toggle i => asking fun w => .ok (w.toggleExpanded i)
  | .beginMove i pointer => change (·.beginMove i pointer)
  | .moveTo i pointer => asking (·.moveTo i pointer)
  | .endMove i => change (·.endMove i)
  | .beginResize i pointer => asking fun w => .ok (w.beginResize i pointer)
  | .resizeTo i pointer => asking (·.resizeTo i pointer)
  | .endResize i => change (·.endResize i)
  | .cancelGesture i => change (·.cancelGesture i)
  | .bind i binding => change (·.bind i binding)
  | .releaseBindings i => change (·.releaseBindings i)
  | .setClock time => do
    modify fun s => { s with clock := time }
    return .nothing

def step (s : Stage α β) (c : Command α β) : Except Fault Answer × Stage α β :=
  (perform c).outcome s

/-- The state after commands, each of which may have failed. -/
def run (s : Stage α β) (cs : List (Command α β)) : Stage α β :=
  cs.foldl (fun s c => (s.step c).2) s

end Stage

end DebugDesk.PanelScript
