import DebugDesk.Proofs.Effect.History
import DebugDesk.Proofs.Task.Once

/-!
# Programs that use a task manager

A program calls the manager as it likes, and goes on with what the call answers. The work of the
tasks that it submits is a program again, so that tasks use the manager while they run. What happens
is kept in a history: every change of the manager, every task that begins, and every call of a
callback.
-/
namespace DebugDesk.TaskHistory

inductive Program (κ : Type) where
  | stop (fails : Bool)
  | submit (work : Program κ) (callback : Option Bool) (owner : Option κ)
      (next : Except Fault Nat → Program κ)
  | cancel (task : Nat) (forget : Bool) (next : Except Fault Unit → Program κ)
  | cancelOwned (owner : Option κ) (next : Except Fault Nat → Program κ)
  | clear (next : Except Fault Unit → Program κ)
  | runQueued (next : Except Fault Unit → Program κ)
  | runOne (task : Nat) (next : Except Fault Unit → Program κ)
  /-- Looks at the manager, where the flags of tasks are. -/
  | look (next : TaskManager κ Unit → Program κ)

structure Job (κ : Type) where
  work : Program κ
  /-- Whether the callback fails, if there is one. -/
  callback : Option Bool

inductive Event where
  | began (task : Nat)
  | called (task : Nat)

abbrev Chronicle (κ : Type) := Traced (TaskManager κ (Job κ)) Event

def Event.began? : Event → Option Nat
  | began i => some i
  | called _ => none

def Event.called? : Event → Option Nat
  | began _ => none
  | called i => some i

def begun {κ : Type} (s : Chronicle κ) : List Nat := s.events.filterMap Event.began?

def called {κ : Type} (s : Chronicle κ) : List Nat := s.events.filterMap Event.called?

/-- The manager without what its tasks are to do. -/
def visible {κ ρ : Type} (m : TaskManager κ ρ) : TaskManager κ Unit :=
  { m with tasks := m.tasks.map fun t => { t with work := () } }

/-- The tasks of programs, given what carries out programs. -/
abbrev runner {κ : Type} (perform : Program κ → Effect (Chronicle κ) Unit) :
    TaskRunner (Chronicle κ) κ (Job κ) where
  manager := Traced.part .whole
  perform i job := do
    Traced.happen (.began i)
    perform job.work
  done i job := do
    match job.callback with
    | none => return ()
    | some fails =>
      Traced.happen (.called i)
      if fails then throw .scripted

variable {κ : Type} [DecidableEq κ]

/-- Carries out a program, call by call. -/
def Program.carryOut (R : TaskRunner (Chronicle κ) κ (Job κ)) :
    Program κ → Effect (Chronicle κ) Unit
  | stop fails => if fails then throw .scripted else return ()
  | submit work callback owner next => do
    let answer ← (R.submit ⟨work, callback⟩ owner).attempt
    (next answer).carryOut R
  | cancel task forget next => do
    let answer ← (R.cancel task forget).attempt
    (next answer).carryOut R
  | cancelOwned owner next => do
    let answer ← (R.cancelOwned owner).attempt
    (next answer).carryOut R
  | clear next => do
    let answer ← R.clear.attempt
    (next answer).carryOut R
  | runQueued next => do
    let answer ← R.runQueued.attempt
    (next answer).carryOut R
  | runOne task next => do
    let answer ← (R.runOne task).attempt
    (next answer).carryOut R
  | look next => do
    let m ← R.manager.read
    (next (visible m)).carryOut R

/-- Carries out a program, with tasks that run inside of tasks limited to a depth. -/
def perform : Nat → Program κ → Effect (Chronicle κ) Unit
  | 0, _ => throw .tooDeep
  | depth + 1, p => p.carryOut (runner (perform depth))

def run (mode : TaskMode) (executor : Executor) (depth : Nat) (p : Program κ) : Chronicle κ :=
  ((perform depth p).outcome (.start (.make mode executor))).2

/-- A relation that holds across every call holds across every program. -/
theorem Program.respects {P : Chronicle κ → Chronicle κ → Prop} [IsPreorder (Chronicle κ) P]
    {R : TaskRunner (Chronicle κ) κ (Job κ)}
    (hsubmit : ∀ job owner, (R.submit job owner).Respects P)
    (hcancel : ∀ i forget, (R.cancel i forget).Respects P)
    (hcancelOwned : ∀ owner, (R.cancelOwned owner).Respects P)
    (hclear : R.clear.Respects P) (hrunQueued : R.runQueued.Respects P)
    (hrunOne : ∀ i, (R.runOne i).Respects P) (p : Program κ) : (p.carryOut R).Respects P := by
  induction p with
  | stop fails =>
    cases fails
    · exact .pure ()
    · exact .throw .scripted
  | submit work callback owner next _ ih =>
    exact .bind (hsubmit ⟨work, callback⟩ owner).attempt ih
  | cancel task forget next ih => exact .bind (hcancel task forget).attempt ih
  | cancelOwned owner next ih => exact .bind (hcancelOwned owner).attempt ih
  | clear next ih => exact .bind hclear.attempt ih
  | runQueued next ih => exact .bind hrunQueued.attempt ih
  | runOne task next ih => exact .bind (hrunOne task).attempt ih
  | look next ih => exact .bind (.read _) fun m => ih (visible m)

omit [DecidableEq κ]

variable {f : Program κ → Effect (Chronicle κ) Unit}

@[simp] theorem begun_put (s : Chronicle κ) (m : TaskManager κ (Job κ)) :
    begun (s.put m) = begun s := rfl

@[simp] theorem called_put (s : Chronicle κ) (m : TaskManager κ (Job κ)) :
    called (s.put m) = called s := rfl

@[simp] theorem begun_note_began (s : Chronicle κ) (i : Nat) :
    begun (s.note (.began i)) = i :: begun s := rfl

@[simp] theorem begun_note_called (s : Chronicle κ) (i : Nat) :
    begun (s.note (.called i)) = begun s := rfl

@[simp] theorem called_note_began (s : Chronicle κ) (i : Nat) :
    called (s.note (.began i)) = called s := rfl

@[simp] theorem called_note_called (s : Chronicle κ) (i : Nat) :
    called (s.note (.called i)) = i :: called s := rfl

theorem outcome_done (i : Nat) (job : Job κ) (s : Chronicle κ) :
    (((runner f).done i job).outcome s).2 =
      if job.callback.isSome then s.note (.called i) else s := by
  obtain ⟨work, _ | _ | _⟩ := job <;> rfl

def tally : Tally (Traced.part .whole : Part (Chronicle κ) (TaskManager κ (Job κ))) where
  used := begun
  fits _ _ := True
  get_set _ _ := rfl
  used_set _ _ := rfl

theorem runner_mild : (runner f).Mild tally.Steady := by
  refine TaskRunner.mild_steady fun i job s => ?_
  rw [outcome_done]
  split <;> exact ⟨rfl, .refl _, rfl⟩

theorem note_began_prudent {i : Nat} {s : Chronicle κ} (hi : tally.Ready i s) :
    tally.Prudent [i] s (s.note (.began i)) := by
  intro h
  refine ⟨⟨h.queueOnce, h.queueKnown, ?_, ?_, h.fit⟩, Nat.le_refl _, fun j _ hj hji => ⟨hj, ?_⟩⟩
  · exact List.nodup_cons.mpr ⟨hi.unused, h.usedOnce⟩
  · intro j hj
    rcases List.mem_cons.mp hj with rfl | hj
    · exact ⟨hi.lt, hi.unqueued⟩
    · exact h.usedGone j hj
  · intro hju
    exact (List.mem_cons.mp hju).resolve_left fun he => hji (List.mem_singleton.mpr he)

theorem runner_honest (hf : ∀ p, (f p).Respects (tally.Prudent [])) :
    (runner f).Honest tally := by
  refine ⟨runner_mild, fun i job s _ hi h => ?_⟩
  obtain ⟨hbegan, hspends⟩ := note_began_prudent hi h
  obtain ⟨hlast, hrest⟩ := hf job.work (s.note (.began i)) hbegan
  exact ⟨hlast, hspends.trans (hrest.mono (List.nil_subset _))⟩

variable [DecidableEq κ]

theorem perform_prudent (depth : Nat) (p : Program κ) :
    (perform depth p).Respects (tally.Prudent []) := by
  induction depth generalizing p with
  | zero => exact .throw _
  | succ depth ih =>
    have hp := runner_honest ih
    have hquiet {β : Type} {e : Effect (Chronicle κ) β} (he : e.Respects tally.Steady) :
        e.Respects (tally.Prudent []) := he.mono fun _ _ => Tally.Steady.prudent
    exact Program.respects (fun job owner s => TaskRunner.submit_prudent hp owner trivial)
      (fun i forget => hquiet (hp.mild.cancel i forget))
      (fun owner => hquiet (hp.mild.cancelOwned owner))
      (hquiet hp.mild.clear)
      (TaskRunner.runQueued_prudent hp) (TaskRunner.runOne_prudent hp) p

omit [DecidableEq κ] in
theorem tally_frugal_start (mode : TaskMode) (executor : Executor) :
    tally.Frugal (.start (.make mode executor) : Chronicle κ) :=
  ⟨.nil, fun _ h => absurd h List.not_mem_nil, .nil, fun _ h => absurd h List.not_mem_nil,
    fun _ _ _ => trivial⟩

theorem begun_nodup (mode : TaskMode) (executor : Executor) (depth : Nat) (p : Program κ) :
    (begun (run mode executor depth p)).Nodup :=
  (perform_prudent depth p _ (tally_frugal_start mode executor)).1.usedOnce

end DebugDesk.TaskHistory
