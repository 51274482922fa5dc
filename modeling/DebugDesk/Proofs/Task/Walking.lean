import DebugDesk.Proofs.Effect.Respecting
import DebugDesk.Task.Runner

/-!
# What task managers respect

The calls of a task manager are put together from few changes. A relation that all of them respect
is respected by the calls.
-/
namespace DebugDesk.TaskRunner

variable {σ κ ρ : Type} {R : TaskRunner σ κ ρ} {P : σ → σ → Prop}

/-- Runs a task that was taken off the queue, unless it was withdrawn. -/
def runTaken (R : TaskRunner σ κ ρ) (i : Nat) : Effect σ Unit := do
  if (← R.manager.read).progressOf i != .withdrawn then R.execute i

def runOne (R : TaskRunner σ κ ρ) (i : Nat) : Effect σ Unit := do
  if i ∈ (← R.manager.read).queue then
    R.manager.update fun m => { m with queue := m.queue.erase i }
    R.runTaken i

/-- Cancels all tracked tasks if only one may be in flight. -/
def makeRoom (R : TaskRunner σ κ ρ) : Effect σ Unit := do
  if (← R.manager.read).mode = .sequential then R.clear

/-- Runs a task before its submission is over, on an executor that does so. -/
def runAtOnce (R : TaskRunner σ κ ρ) (executor : Executor) (i : Nat) : Effect σ Unit :=
  if executor = .immediate then R.execute i else pure ()

def enroll (R : TaskRunner σ κ ρ) (i : Nat) : Effect σ Unit := do
  R.manager.update (·.track i)
  if ((← R.manager.read).progressOf i).isOver then R.announce i

theorem submit_eq (R : TaskRunner σ κ ρ) (work : ρ) (owner : Option κ) :
    R.submit work owner = (do
      R.makeRoom
      let m ← R.manager.read
      R.manager.update (·.accept work owner)
      R.runAtOnce m.executor m.tasks.length
      R.enroll m.tasks.length
      return m.tasks.length) := by
  simp only [submit, makeRoom, runAtOnce, enroll, bind_assoc, Effect.ite_bind]

theorem runQueued_eq (R : TaskRunner σ κ ρ) :
    R.runQueued = (do
      let queued := (← R.manager.read).queue
      R.manager.update fun m => { m with queue := [] }
      queued.forM R.runTaken) := rfl

/-- What tracks, cancels and ends tasks respects a relation. -/
structure Mild (R : TaskRunner σ κ ρ) (P : σ → σ → Prop) : Prop where
  track : ∀ i, (R.manager.update (·.track i)).Respects P
  untrack : ∀ i, (R.manager.update (·.untrack i)).Respects P
  strike : ∀ i forget, (R.manager.update (·.strike i forget)).Respects P
  setProgress : ∀ i p, (R.manager.update (·.setProgress i p)).Respects P
  forgetAll : (R.manager.update (·.forgetAll)).Respects P
  done : ∀ i w, (R.done i w).Respects P

/-- So does what runs them. -/
structure Busy (R : TaskRunner σ κ ρ) (P : σ → σ → Prop) : Prop extends Mild R P where
  setQueue : ∀ f : TaskManager κ ρ → List Nat,
    (R.manager.update fun m => { m with queue := f m }).Respects P
  execute : ∀ i, (R.execute i).Respects P

variable {Q : σ → σ → Prop}

theorem Mild.imp (h : R.Mild P) (hQ : ∀ e : Effect σ Unit, e.Respects P → e.Respects Q) :
    R.Mild Q :=
  ⟨fun i => hQ _ (h.track i), fun i => hQ _ (h.untrack i), fun i b => hQ _ (h.strike i b),
    fun i p => hQ _ (h.setProgress i p), hQ _ h.forgetAll, fun i w => hQ _ (h.done i w)⟩

theorem Busy.imp (h : R.Busy P) (hQ : ∀ e : Effect σ Unit, e.Respects P → e.Respects Q) :
    R.Busy Q :=
  ⟨h.toMild.imp hQ, fun f => hQ _ (h.setQueue f), fun i => hQ _ (h.execute i)⟩

variable [IsPreorder σ P]

namespace Mild

theorem announce (h : R.Mild P) (i : Nat) : (R.announce i).Respects P := by
  refine .bind (.read _) fun m => ?_
  split
  · exact .bind (.forM _ fun t _ => (h.done i t.work).quietly) fun _ => h.untrack i
  · exact .pure _

theorem withdraw (h : R.Mild P) (i : Nat) : (R.withdraw i).Respects P := by
  refine .bind (.read _) fun m => ?_
  split
  · exact .bind (h.setProgress i .withdrawn) fun _ => h.announce i
  · exact .pure _

theorem cancel (h : R.Mild P) (i : Nat) (forget : Bool) : (R.cancel i forget).Respects P := by
  have hstrike : (do
      R.manager.update (·.strike i forget)
      R.withdraw i).Respects P := .bind (h.strike i forget) fun _ => h.withdraw i
  refine .bind (.read _) fun m => ?_
  split
  · exact .bind (.throw _) fun _ => hstrike
  · exact hstrike

theorem cancelOwned [DecidableEq κ] (h : R.Mild P) (owner : Option κ) :
    (R.cancelOwned owner).Respects P :=
  .bind (.read _) fun _ => .bind (.forM _ fun i _ => h.cancel i true) fun _ => .pure _

theorem clear (h : R.Mild P) : R.clear.Respects P :=
  .bind (.read _) fun _ => .bind (.forM _ fun i _ => h.cancel i false) fun _ => h.forgetAll

theorem makeRoom (h : R.Mild P) : R.makeRoom.Respects P := by
  refine .bind (.read _) fun m => ?_
  split
  · exact h.clear
  · exact .pure _

theorem enroll (h : R.Mild P) (i : Nat) : (R.enroll i).Respects P := by
  refine .bind (h.track i) fun _ => .bind (.read _) fun m => ?_
  split
  · exact h.announce i
  · exact .pure _

end Mild

namespace Busy

theorem submit (h : R.Busy P) {w : ρ} {owner : Option κ}
    (haccept : (R.manager.update (·.accept w owner)).Respects P) :
    (R.submit w owner).Respects P := by
  rw [submit_eq]
  refine .bind h.makeRoom fun _ => .bind (.read _) fun m => .bind haccept fun _ =>
    .bind ?_ fun _ => .bind (h.enroll _) fun _ => .pure _
  rw [runAtOnce]
  split
  · exact h.execute _
  · exact .pure _

theorem runTaken (h : R.Busy P) (i : Nat) : (R.runTaken i).Respects P := by
  refine .bind (.read _) fun m => ?_
  split
  · exact h.execute i
  · exact .pure _

theorem runQueued (h : R.Busy P) : R.runQueued.Respects P := by
  rw [runQueued_eq]
  exact .bind (.read _) fun _ => .bind (h.setQueue fun _ => []) fun _ =>
    .forM _ fun i _ => h.runTaken i

theorem runOne (h : R.Busy P) (i : Nat) : (R.runOne i).Respects P := by
  refine .bind (.read _) fun m => ?_
  split
  · exact .bind (h.setQueue fun m => m.queue.erase i) fun _ => h.runTaken i
  · exact .pure _

end Busy

end DebugDesk.TaskRunner
