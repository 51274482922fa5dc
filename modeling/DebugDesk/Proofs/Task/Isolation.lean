import Mathlib.Data.List.Basic
import DebugDesk.Proofs.Task.Callbacks

/-!
# Isolation of cancellations

To cancel the tasks of an owner calls off those of them that are tracked, one after the other. The
end of each is announced to a manager that has forgotten it already, so no callback is called, and
no other task is touched.
-/
namespace DebugDesk

/-- The task is asked to end early, and is withdrawn if it has not begun. -/
def Task.calledOff {κ ρ : Type} (t : Task κ ρ) : Task κ ρ :=
  { t with
    cancelled := true
    progress := if t.progress = .waiting then .withdrawn else t.progress }

theorem Task.calledOff_calledOff {κ ρ : Type} (t : Task κ ρ) :
    t.calledOff.calledOff = t.calledOff := by
  unfold calledOff
  by_cases h : t.progress = .waiting <;> simp [h]

namespace TaskManager

variable {κ ρ : Type} {m m' : TaskManager κ ρ} {i j : Nat}

def callOff (m : TaskManager κ ρ) (i : Nat) : TaskManager κ ρ :=
  (m.untrack i).modifyTask i Task.calledOff

theorem modifyTask_modifyTask (m : TaskManager κ ρ) (i : Nat) (f g : Task κ ρ → Task κ ρ) :
    (m.modifyTask i f).modifyTask i g = m.modifyTask i (g ∘ f) := by
  simp only [modifyTask, List.modify_modify_eq]

/-- Changes that agree on a task change the manager alike. -/
theorem modifyTask_congr {f g : Task κ ρ → Task κ ρ} (h : ∀ t, m.task? i = some t → f t = g t) :
    m.modifyTask i f = m.modifyTask i g := by
  have htasks : m.tasks.modify i f = m.tasks.modify i g := by
    apply List.ext_getElem?
    intro j
    rw [List.getElem?_modify, List.getElem?_modify]
    by_cases hij : i = j
    · subst hij
      simp only [↓reduceIte]
      exact Option.map_congr h
    · simp [hij]
  rw [modifyTask, modifyTask, htasks]

theorem progress_of_task? {t : Task κ ρ} (h : m.task? i = some t) :
    m.progressOf i = t.progress := by
  rw [progressOf, h]
  rfl

theorem withdrawn_strike (h : m.progressOf i = .waiting) :
    (m.strike i true).setProgress i .withdrawn = m.callOff i := by
  refine (modifyTask_modifyTask (m.untrack i) i _ _).trans (modifyTask_congr fun t ht => ?_)
  have hp : t.progress = .waiting := (progress_of_task? (m := m) ht).symm.trans h
  simp [Task.calledOff, hp]

theorem strike_eq_callOff (h : m.progressOf i ≠ .waiting) : m.strike i true = m.callOff i := by
  refine modifyTask_congr fun t ht => ?_
  have hp : t.progress ≠ .waiting := fun hw => h ((progress_of_task? (m := m) ht).trans hw)
  simp [Task.calledOff, hp]

theorem tracked_callOff (m : TaskManager κ ρ) (i : Nat) :
    (m.callOff i).tracked = m.tracked.erase i := rfl

theorem task?_callOff (m : TaskManager κ ρ) (i j : Nat) :
    (m.callOff i).task? j = (m.task? j).map fun t => if i = j then t.calledOff else t :=
  task?_modifyTask (m.untrack i) i j Task.calledOff

def callOffAll (m : TaskManager κ ρ) (is : List Nat) : TaskManager κ ρ := is.foldl callOff m

theorem tracked_callOffAll (m : TaskManager κ ρ) (is : List Nat) :
    (m.callOffAll is).tracked = m.tracked.diff is := by
  induction is generalizing m with
  | nil => rfl
  | cons i is ih => rw [List.diff_cons, ← tracked_callOff m i, ← ih (m.callOff i), callOffAll,
      List.foldl_cons, callOffAll]

theorem task?_callOffAll (m : TaskManager κ ρ) (is : List Nat) (j : Nat) :
    (m.callOffAll is).task? j = (m.task? j).map fun t => if j ∈ is then t.calledOff else t := by
  induction is generalizing m with
  | nil => simp [callOffAll]
  | cons i is ih =>
    have hrest := ih (m.callOff i)
    rw [task?_callOff] at hrest
    refine hrest.trans ?_
    cases m.task? j with
    | none => rfl
    | some t => by_cases hij : i = j <;> by_cases hj : j ∈ is <;>
        simp [hij, hj, Ne.symm, t.calledOff_calledOff]

theorem keep_callOffAll (m : TaskManager κ ρ) (is : List Nat) :
    (m.callOffAll is).mode = m.mode ∧ (m.callOffAll is).executor = m.executor ∧
      (m.callOffAll is).queue = m.queue := by
  induction is generalizing m with
  | nil => exact ⟨rfl, rfl, rfl⟩
  | cons i is ih => exact ih (m.callOff i)

variable [DecidableEq κ]

/-- The tracked tasks of an owner are called off and forgotten, and nothing else changes. -/
structure CallsOff (owner : Option κ) (m m' : TaskManager κ ρ) : Prop where
  mode : m'.mode = m.mode
  executor : m'.executor = m.executor
  queue : m'.queue = m.queue
  tracked : m'.tracked = m.tracked.filter fun i => (m.task? i).map Task.owner ≠ some owner
  task : ∀ i, m'.task? i = (m.task? i).map fun t =>
    if i ∈ m.tracked ∧ t.owner = owner then t.calledOff else t

theorem mem_ownedBy_iff {owner : Option κ} :
    i ∈ m.ownedBy owner ↔ i ∈ m.tracked ∧ (m.task? i).map Task.owner = some owner := by
  simp [ownedBy]

theorem callsOff_callOffAll (h : m.tracked.Nodup) (owner : Option κ) :
    m.CallsOff owner (m.callOffAll (m.ownedBy owner)) := by
  obtain ⟨hmode, hexecutor, hqueue⟩ := m.keep_callOffAll (m.ownedBy owner)
  refine ⟨hmode, hexecutor, hqueue, ?_, fun i => ?_⟩
  · rw [tracked_callOffAll, h.sdiff_eq_filter]
    refine List.filter_congr fun i hi => ?_
    simp [mem_ownedBy_iff, hi]
  · rw [task?_callOffAll]
    refine Option.map_congr fun t ht => ?_
    simp [mem_ownedBy_iff, ht]

end TaskManager

namespace TaskHistory

open TaskManager

variable {κ : Type} {m₀ : TaskManager κ (Job κ)} {s t u : Chronicle κ} {i : Nat}
  {f : Program κ → Effect (Chronicle κ) Unit}

/-- A state that leads to another, from a first one on: a history passes through it. -/
structure Passes (m₀ : TaskManager κ (Job κ)) (s u : Chronicle κ) : Prop where
  linked : s.Linked m₀
  past : s.Extends u

/-- What holds at all moments of a history, and before it, holds in the states that it passes
through. -/
theorem Passes.of_history (h : Passes m₀ s u) {p : TaskManager κ (Job κ) → Prop} (hstart : p m₀)
    (hpast : ∀ x ∈ u.history, p x.after) : p s.now := by
  cases hs : s.history with
  | nil =>
    have hnow := h.linked
    rw [Traced.Linked, hs] at hnow
    exact hnow ▸ hstart
  | cons x rest =>
    have hx : x ∈ s.history := hs ▸ List.mem_cons_self
    exact h.linked.after hs ▸ hpast x (h.past.subset hx)

/-- A task is withdrawn from the executor, if it waits. -/
def withdrawn (s : Chronicle κ) (i : Nat) : Chronicle κ :=
  if s.now.progressOf i = .waiting then announced (s.put (s.now.setProgress i .withdrawn)) i else s

theorem outcome_withdraw (i : Nat) (s : Chronicle κ) :
    ((runner f).withdraw i).outcome s = (.ok (), withdrawn s i) := by
  rw [TaskRunner.withdraw, Effect.outcome_bind_ok (Part.outcome_read _ _), get_runner, withdrawn]
  split
  · rw [Effect.outcome_bind_ok (outcome_update_runner f _ _), outcome_announce]
  · rfl

theorem outcome_cancel_tracked (hi : i ∈ s.now.tracked) (forget : Bool) :
    ((runner f).cancel i forget).outcome s =
      (.ok (), withdrawn (s.put (s.now.strike i forget)) i) := by
  rw [TaskRunner.cancel, Effect.outcome_bind_ok (Part.outcome_read _ _), get_runner,
    isTracked_iff.mpr hi]
  change ((runner f).manager.update _ >>= _).outcome s = _
  rw [Effect.outcome_bind_ok (outcome_update_runner f _ _), outcome_withdraw]

/-- A tracked task that is cancelled for good is not announced. -/
theorem outcome_cancel (hn : s.now.tracked.Nodup) (hi : i ∈ s.now.tracked) :
    ∃ t, ((runner f).cancel i true).outcome s = (.ok (), t) ∧ t.now = s.now.callOff i ∧
      t.events = s.events := by
  refine ⟨_, outcome_cancel_tracked hi true, ?_⟩
  rw [withdrawn, Traced.now_put, progressOf_strike]
  split
  next hw =>
    have hgone : i ∉ (s.now.callOff i).tracked := hn.not_mem_erase
    rw [withdrawn_strike hw, announced_of_not_mem hgone]
    exact ⟨rfl, rfl⟩
  next hw => exact ⟨strike_eq_callOff hw, rfl⟩

theorem outcome_cancelAll (is : List Nat) (hn : s.now.tracked.Nodup) (his : is.Nodup)
    (hi : ∀ i ∈ is, i ∈ s.now.tracked) :
    ∃ t, (is.forM fun i => (runner f).cancel i true).outcome s = (.ok (), t) ∧
      t.now = s.now.callOffAll is ∧ t.events = s.events := by
  induction is generalizing s with
  | nil => exact ⟨s, rfl, rfl, rfl⟩
  | cons i is ih =>
    obtain ⟨hnot, his⟩ := List.nodup_cons.mp his
    obtain ⟨hfirst, hrest⟩ := List.forall_mem_cons.mp hi
    obtain ⟨t, hout, hnow, hevents⟩ := outcome_cancel (f := f) hn hfirst
    have htracked : t.now.tracked = s.now.tracked.erase i := by rw [hnow, tracked_callOff]
    obtain ⟨v, hout', hnow', hevents'⟩ := ih (s := t) (htracked ▸ hn.erase i) his fun j hj => by
      have hne : j ≠ i := fun he => hnot (he ▸ hj)
      rw [htracked]
      exact (List.mem_erase_of_ne hne).mpr (hrest j hj)
    rw [Effect.forM_cons, Effect.outcome_bind_ok hout]
    exact ⟨v, hout', by rw [hnow', hnow]; rfl, hevents'.trans hevents⟩

variable [DecidableEq κ]

/-- Wherever a run has got to, to cancel the tasks of an owner tells how many of them are tracked,
calls them off and forgets them. No callback is called, and all other tasks stay as they are. -/
theorem cancelOwned_isolated (mode : TaskMode) (executor : Executor) (depth : Nat) (p : Program κ)
    (hs : Passes (.make mode executor) s (run mode executor depth p))
    (f : Program κ → Effect (Chronicle κ) Unit) (owner : Option κ) :
    ∃ t, ((runner f).cancelOwned owner).outcome s = (.ok (s.now.ownedBy owner).length, t) ∧
      t.events = s.events ∧ s.now.CallsOff owner t.now := by
  have hn : s.now.tracked.Nodup :=
    hs.of_history (p := fun m => m.tracked.Nodup) .nil
      (run_sound mode executor depth p).watching.pastOnce
  obtain ⟨t, hout, hnow, hevents⟩ := outcome_cancelAll (f := f) (s.now.ownedBy owner) hn
    (hn.filter _) fun i hi => (mem_ownedBy_iff.mp hi).1
  rw [TaskRunner.cancelOwned, Effect.outcome_bind_ok (Part.outcome_read _ _), get_runner,
    Effect.outcome_bind_ok hout]
  exact ⟨t, rfl, hevents, hnow ▸ callsOff_callOffAll hn owner⟩

def rivals : Program Nat :=
  .submit (.stop false) (some false) (some 7) fun _ =>
    .submit (.stop false) (some false) none fun _ =>
      .submit (.stop true) none (some 7) fun _ => .stop false

/-- The one in between goes on waiting. -/
theorem rivals_isolated : ∃ t,
    ((runner (perform 2)).cancelOwned (some 7)).outcome (run .concurrent .deferred 2 rivals) =
      (.ok 2, t) ∧
    t.events = [] ∧ (run .concurrent .deferred 2 rivals).now.CallsOff (some 7) t.now ∧
    t.now.tracked = [1] ∧ t.now.progressOf 0 = .withdrawn ∧ t.now.progressOf 1 = .waiting := by
  have hs : Passes (.make .concurrent .deferred) (run .concurrent .deferred 2 rivals)
      (run .concurrent .deferred 2 rivals) :=
    ⟨(run_sound .concurrent .deferred 2 rivals).linked, refl_of Traced.Extends _⟩
  obtain ⟨t, hout, hevents, hoff⟩ :=
    cancelOwned_isolated .concurrent .deferred 2 rivals hs (perform 2) (some 7)
  obtain ⟨-, rfl⟩ := Prod.mk.inj hout
  exact ⟨_, hout, hevents, hoff, by decide, by decide, by decide⟩

end TaskHistory

end DebugDesk
