import Mathlib.Data.List.Nodup
import Mathlib.Order.Basic
import Mathlib.Tactic.Common
import DebugDesk.Proofs.Transport.Interleaving

/-!
# Cancelled requests

A request is settled once its flag is set or its work is over. Discarding an owner settles all its
requests and then clears the queue of their answers, so that none of them is handed over by a poll
that begins later.
-/
namespace DebugDesk

namespace TaskManager

variable {κ ρ : Type} {m m' : TaskManager κ ρ} {i j : Nat}

/-- Tasks keep what they are, and flags stay set. -/
def Keeps (m m' : TaskManager κ ρ) : Prop :=
  ∀ i t, m.task? i = some t → ∃ t', m'.task? i = some t' ∧ t'.owner = t.owner ∧ t'.work = t.work ∧
    (t.cancelled = true → t'.cancelled = true)

theorem Keeps.of_tasks (h : m'.tasks = m.tasks) : Keeps m m' :=
  fun i t ht => ⟨t, by rwa [task?, h], rfl, rfl, id⟩

theorem Keeps.trans {m'' : TaskManager κ ρ} (h : Keeps m m') (h' : Keeps m' m'') : Keeps m m'' := by
  intro i t ht
  obtain ⟨t', ht', ho, hw, hc⟩ := h i t ht
  obtain ⟨t'', ht'', ho', hw', hc'⟩ := h' i t' ht'
  exact ⟨t'', ht'', ho'.trans ho, hw'.trans hw, hc' ∘ hc⟩

theorem task?_modifyTask (m : TaskManager κ ρ) (i j : Nat) (f : Task κ ρ → Task κ ρ) :
    (m.modifyTask i f).task? j = (m.task? j).map fun t => if i = j then f t else t := by
  simp [modifyTask, task?, List.getElem?_modify]

theorem Keeps.modifyTask (m : TaskManager κ ρ) (i : Nat) {f : Task κ ρ → Task κ ρ}
    (hf : ∀ t, (f t).owner = t.owner ∧ (f t).work = t.work ∧
      (t.cancelled = true → (f t).cancelled = true)) : Keeps m (m.modifyTask i f) := by
  intro j t ht
  rw [task?_modifyTask, ht]
  by_cases h : i = j
  · exact ⟨f t, by simp [h], hf t⟩
  · exact ⟨t, by simp [h], rfl, rfl, id⟩

theorem Keeps.setProgress (m : TaskManager κ ρ) (i : Nat) (p : Progress) :
    Keeps m (m.setProgress i p) := .modifyTask m i fun _ => ⟨rfl, rfl, id⟩

theorem Keeps.strike (m : TaskManager κ ρ) (i : Nat) (forget : Bool) :
    Keeps m (m.strike i forget) := by
  have h : Keeps m (if forget then m.untrack i else m) := by
    split <;> exact .of_tasks rfl
  exact h.trans (.modifyTask _ i fun _ => ⟨rfl, rfl, fun _ => rfl⟩)

theorem Keeps.settle (m : TaskManager κ ρ) (i : Nat) : Keeps m (m.settle i) := by
  unfold TaskManager.settle
  split <;> exact .of_tasks rfl

theorem Keeps.withdraw (m : TaskManager κ ρ) (i : Nat) : Keeps m (m.withdraw i) := by
  unfold TaskManager.withdraw
  split
  · exact (Keeps.setProgress m i .withdrawn).trans (.of_tasks rfl)
  · exact .of_tasks rfl

theorem Keeps.accept (m : TaskManager κ ρ) (work : ρ) (owner : Option κ) :
    Keeps m (m.accept work owner) := by
  intro j t ht
  obtain ⟨hj, _⟩ := List.getElem?_eq_some_iff.mp ht
  refine ⟨t, ?_, rfl, rfl, id⟩
  rw [← ht]
  exact List.getElem?_append_left hj

theorem Keeps.isCancelled (h : Keeps m m') (hi : m.isCancelled i = true) :
    m'.isCancelled i = true := by
  unfold TaskManager.isCancelled at hi ⊢
  cases ht : m.task? i with
  | none => simp [ht] at hi
  | some t =>
    obtain ⟨t', ht', _, _, hc⟩ := h i t ht
    rw [ht, Option.map_some, Option.getD_some] at hi
    rw [ht', Option.map_some, Option.getD_some]
    exact hc hi

@[simp] theorem tracked_modifyTask (m : TaskManager κ ρ) (i : Nat) (f : Task κ ρ → Task κ ρ) :
    (m.modifyTask i f).tracked = m.tracked := rfl

@[simp] theorem tracked_setProgress (m : TaskManager κ ρ) (i : Nat) (p : Progress) :
    (m.setProgress i p).tracked = m.tracked := rfl

theorem isTracked_iff : m.isTracked i = true ↔ i ∈ m.tracked := by simp [isTracked]

theorem tracked_settle (m : TaskManager κ ρ) (i : Nat) :
    (m.settle i).tracked = if (m.progressOf i).isOver then m.tracked.erase i else m.tracked := by
  unfold settle
  split <;> rfl

theorem tracked_withdraw (m : TaskManager κ ρ) (i : Nat) :
    (m.withdraw i).tracked =
      if m.progressOf i = .waiting then m.tracked.erase i else m.tracked := by
  unfold withdraw
  split <;> rfl

theorem tracked_strike (m : TaskManager κ ρ) (i : Nat) (forget : Bool) :
    (m.strike i forget).tracked = if forget then m.tracked.erase i else m.tracked := by
  cases forget <;> rfl

/-- A task that is over when it comes to be tracked is not tracked at all. -/
theorem tracked_settle_track (h : i ∉ m.tracked) :
    ((m.track i).settle i).tracked =
      if (m.progressOf i).isOver then m.tracked else m.tracked ++ [i] := by
  rw [tracked_settle]
  change (if (m.progressOf i).isOver then (m.tracked ++ [i]).erase i else _) = _
  rw [List.erase_append_right _ h, List.erase_cons_head, List.append_nil]
  rfl

/-- Only the task itself may not be tracked any more. -/
theorem mem_ite_erase {l : List Nat} {p : Prop} [Decidable p] (hj : j ≠ i) :
    j ∈ (if p then l.erase i else l) ↔ j ∈ l := by
  split
  · exact List.mem_erase_of_ne hj
  · exact Iff.rfl

theorem nodup_ite_erase {l : List Nat} {p : Prop} [Decidable p] (h : l.Nodup) :
    (if p then l.erase i else l).Nodup := by
  split
  · exact h.erase i
  · exact h

theorem mem_of_mem_ite_erase {l : List Nat} {p : Prop} [Decidable p]
    (h : j ∈ if p then l.erase i else l) : j ∈ l := by
  split at h
  · exact List.mem_of_mem_erase h
  · exact h

theorem length_modifyTask (m : TaskManager κ ρ) (i : Nat) (f : Task κ ρ → Task κ ρ) :
    (m.modifyTask i f).tasks.length = m.tasks.length := List.length_modify ..

theorem length_settle (m : TaskManager κ ρ) (i : Nat) :
    (m.settle i).tasks.length = m.tasks.length := by
  unfold settle
  split <;> rfl

theorem length_withdraw (m : TaskManager κ ρ) (i : Nat) :
    (m.withdraw i).tasks.length = m.tasks.length := by
  unfold withdraw
  split
  · exact length_modifyTask ..
  · rfl

theorem length_strike (m : TaskManager κ ρ) (i : Nat) (forget : Bool) :
    (m.strike i forget).tasks.length = m.tasks.length := by
  cases forget <;> exact length_modifyTask ..

theorem progressOf_modifyTask (m : TaskManager κ ρ) (i j : Nat) {f : Task κ ρ → Task κ ρ}
    (hf : ∀ t, (f t).progress = t.progress) :
    (m.modifyTask i f).progressOf j = m.progressOf j := by
  simp only [progressOf, task?_modifyTask, Option.map_map]
  congr 2
  funext t
  by_cases h : i = j <;> simp [h, hf]

theorem progressOf_strike (m : TaskManager κ ρ) (i j : Nat) (forget : Bool) :
    (m.strike i forget).progressOf j = m.progressOf j := by
  cases forget <;> exact progressOf_modifyTask _ _ _ fun _ => rfl

theorem progressOf_modifyTask_of_ne (m : TaskManager κ ρ) {i j : Nat} (h : i ≠ j)
    (f : Task κ ρ → Task κ ρ) : (m.modifyTask i f).progressOf j = m.progressOf j := by
  simp only [progressOf, task?_modifyTask, h, ↓reduceIte, Option.map_id']

theorem progressOf_withdraw (m : TaskManager κ ρ) {i j : Nat} (h : i ≠ j) :
    (m.withdraw i).progressOf j = m.progressOf j := by
  unfold withdraw
  split
  · exact progressOf_modifyTask_of_ne m h _
  · rfl

theorem progressOf_setProgress (m : TaskManager κ ρ) (i j : Nat) (p : Progress)
    (hi : i < m.tasks.length) :
    (m.setProgress i p).progressOf j = if i = j then p else m.progressOf j := by
  simp only [progressOf, setProgress, task?_modifyTask, Option.map_map]
  by_cases h : i = j
  · subst h
    simp [task?, hi]
  · simp only [h, ↓reduceIte]
    rfl

/-- A task that is just accepted is not over. -/
theorem isOver_of_accept {work : ρ} {owner : Option κ}
    (h : ((m.accept work owner).progressOf i).isOver = true) : (m.progressOf i).isOver = true := by
  simp only [progressOf, task?, accept] at h ⊢
  by_cases hi : i < m.tasks.length
  · rwa [List.getElem?_append_left hi] at h
  · rw [List.getElem?_append_right (Nat.le_of_not_lt hi)] at h
    cases hk : i - m.tasks.length with
    | zero => cases he : m.executor <;> simp [hk, he, Progress.isOver] at h
    | succ k => simp [hk, Progress.isOver] at h

/-- A task that is just accepted is neither withdrawn nor cancelled. -/
theorem withdrawn_of_accept {work : ρ} {owner : Option κ}
    (h : (m.accept work owner).progressOf i = .withdrawn) : m.progressOf i = .withdrawn := by
  simp only [progressOf, task?, accept] at h ⊢
  by_cases hi : i < m.tasks.length
  · rwa [List.getElem?_append_left hi] at h
  · rw [List.getElem?_append_right (Nat.le_of_not_lt hi)] at h
    cases hk : i - m.tasks.length with
    | zero => cases he : m.executor <;> simp [hk, he] at h
    | succ k => simp [hk] at h

theorem isCancelled_accept (m : TaskManager κ ρ) (work : ρ) (owner : Option κ) (i : Nat) :
    (m.accept work owner).isCancelled i = m.isCancelled i := by
  simp only [isCancelled, task?, accept]
  by_cases hi : i < m.tasks.length
  · rw [List.getElem?_append_left hi]
  · have hle : m.tasks.length ≤ i := Nat.le_of_not_lt hi
    rw [List.getElem?_append_right hle, List.getElem?_eq_none hle]
    cases i - m.tasks.length <;> rfl

theorem isCancelled_modifyTask (m : TaskManager κ ρ) (i j : Nat) {f : Task κ ρ → Task κ ρ}
    (hf : ∀ t, (f t).cancelled = t.cancelled) :
    (m.modifyTask i f).isCancelled j = m.isCancelled j := by
  simp only [isCancelled, task?_modifyTask, Option.map_map]
  congr 2
  funext t
  by_cases h : i = j <;> simp [h, hf]

theorem isCancelled_setProgress (m : TaskManager κ ρ) (i j : Nat) (p : Progress) :
    (m.setProgress i p).isCancelled j = m.isCancelled j := isCancelled_modifyTask _ _ _ fun _ => rfl

theorem isCancelled_withdraw (m : TaskManager κ ρ) (i j : Nat) :
    (m.withdraw i).isCancelled j = m.isCancelled j := by
  unfold withdraw
  split
  · exact isCancelled_setProgress m i j .withdrawn
  · rfl

theorem isCancelled_settle (m : TaskManager κ ρ) (i j : Nat) :
    (m.settle i).isCancelled j = m.isCancelled j := by
  unfold settle
  split <;> rfl

theorem progressOf_settle (m : TaskManager κ ρ) (i j : Nat) :
    (m.settle i).progressOf j = m.progressOf j := by
  unfold settle
  split <;> rfl

theorem isCancelled_strike_of_ne (m : TaskManager κ ρ) (forget : Bool) {i j : Nat} (h : i ≠ j) :
    (m.strike i forget).isCancelled j = m.isCancelled j := by
  cases forget <;>
    simp only [strike, flag, isCancelled, task?_modifyTask, h, ↓reduceIte, Option.map_id'] <;> rfl

theorem lt_of_running (h : m.progressOf i = .running) : i < m.tasks.length := by
  by_contra hi
  simp [progressOf, task?, List.getElem?_eq_none (Nat.le_of_not_lt hi)] at h

theorem isCancelled_strike (m : TaskManager κ ρ) (i : Nat) (forget : Bool)
    (hi : i < m.tasks.length) : (m.strike i forget).isCancelled i = true := by
  have hflag (v : TaskManager κ ρ) (hv : i < v.tasks.length) :
      (v.flag i).isCancelled i = true := by
    rw [isCancelled, flag, task?_modifyTask, task?, List.getElem?_eq_getElem hv]
    simp
  unfold strike
  split
  · exact hflag (m.untrack i) hi
  · exact hflag m hi

end TaskManager

@[simp] theorem HostTransport.tasks_answer {κ β : Type} (v : HostTransport κ β) (r : Request κ β)
    (content : Json) : (v.answer r content).tasks = v.tasks := by
  unfold answer
  split <;> rfl

namespace Interleaving

variable {κ : Type} {s t : Scene κ} {i : Nat}

namespace Scene

def owner (s : Scene κ) (i : Nat) : Option κ := (s.tasks.task? i).bind Task.owner

/-- Whether nothing will be queued for a request that is not on its way into the queue. -/
def Settled (s : Scene κ) (i : Nat) : Prop := s.tasks.isCancelled i = true ∨ s.work i = .over

/-- How scenes go on: tasks keep what they are, and what is settled stays so. -/
structure Grows (s t : Scene κ) : Prop where
  tasks : s.tasks.Keeps t.tasks
  stays : ∀ i, s.work i = .over → t.work i = .over

theorem Grows.settled (h : s.Grows t) (hi : s.Settled i) : t.Settled i :=
  hi.imp h.tasks.isCancelled (h.stays i)

theorem Grows.count (h : s.Grows t) : s.count ≤ t.count := by
  by_contra hlt
  have hi : t.count < s.tasks.tasks.length := Nat.not_le.mp hlt
  obtain ⟨t', ht', _⟩ := h.tasks t.count _ (List.getElem?_eq_getElem hi)
  exact absurd (List.getElem?_eq_some_iff.mp ht').1 (Nat.lt_irrefl _)

theorem task?_of_lt (hi : i < s.count) : ∃ t, s.tasks.task? i = some t :=
  ⟨_, List.getElem?_eq_getElem hi⟩

theorem lt_count (h : s.tasks.task? i = some t') : i < s.count :=
  (List.getElem?_eq_some_iff.mp h).1

theorem Grows.owner (h : s.Grows t) (hi : i < s.count) : t.owner i = s.owner i := by
  obtain ⟨a, ha⟩ := task?_of_lt hi
  obtain ⟨b, hb, ho, _⟩ := h.tasks i a ha
  simp [Scene.owner, ha, hb, ho]

theorem Grows.of_tasks {f : TaskManager κ (Request κ Nat) → TaskManager κ (Request κ Nat)}
    (h : s.tasks.Keeps (f s.tasks)) (k : Nat) (c : Caller κ) :
    s.Grows ((s.onTasks f).put k c) := ⟨h, fun _ => id⟩

theorem Grows.setWork {w : Work} (hw : s.work i = .over → w = .over) :
    s.Grows (s.setWork i w) := by
  refine ⟨.of_tasks rfl, fun j hj => ?_⟩
  by_cases h : j = i
  · subst h
    simp [Scene.setWork, hw hj]
  · simpa [Scene.setWork, Function.update_of_ne h] using hj

end Scene

variable [DecidableEq κ]

theorem Step.grows (h : Step s t) : s.Grows t := by
  cases h with
  | request => exact .of_tasks (.accept _ _ _) _ _
  | track =>
    exact ⟨(TaskManager.Keeps.of_tasks rfl).trans (.settle (s.tasks.track _) _), fun _ => id⟩
  | discard => exact ⟨.of_tasks rfl, fun _ => id⟩
  | shutdown => exact ⟨.of_tasks rfl, fun _ => id⟩
  | strike => exact .of_tasks (.strike _ _ _) _ _
  | withdraw => exact .of_tasks (.withdraw _ _) _ _
  | release => exact ⟨.of_tasks rfl, fun _ => id⟩
  | drop => exact ⟨.of_tasks rfl, fun _ => id⟩
  | forget => exact .of_tasks (.of_tasks rfl) _ _
  | empty => exact ⟨.of_tasks rfl, fun _ => id⟩
  | poll => exact ⟨.of_tasks rfl, fun _ => id⟩
  | deliver => exact ⟨.of_tasks rfl, fun _ => id⟩
  | abandon => exact ⟨.of_tasks rfl, fun _ => id⟩
  | start => exact ⟨.setProgress _ _ _, fun _ => id⟩
  | begin _ hw => exact .setWork fun he => nomatch hw.symm.trans he
  | post hw =>
    have hg := Scene.Grows.setWork (w := .posted) fun he => nomatch hw.symm.trans he
    exact ⟨hg.tasks, hg.stays⟩
  | reply _ hw => exact .setWork fun he => nomatch hw.symm.trans he
  | check hw => exact .setWork fun he => nomatch hw.symm.trans he
  | append hw _ =>
    exact ⟨.of_tasks (congrArg _ (HostTransport.tasks_answer _ _ _)),
      (Scene.Grows.setWork fun _ => rfl).stays⟩
  | finish => exact ⟨.setProgress _ _ _, fun _ => id⟩
  | announce => exact ⟨.settle _ _, fun _ => id⟩

theorem Step.count (h : Step s t) :
    t.count = s.count ∨ ∃ k r, s.callers k = .idle ∧ s.Free ∧ (∀ c ∈ r.callback, c = s.count) ∧
      t = (s.onTasks (·.accept r r.owner)).put k (.submitting s.count) := by
  cases h with
  | request hk hf _ hc => exact .inr ⟨_, _, hk, hf, hc, rfl⟩
  | track => exact .inl (TaskManager.length_settle ..)
  | strike => exact .inl (TaskManager.length_strike ..)
  | withdraw => exact .inl (TaskManager.length_withdraw ..)
  | append =>
    left
    simp only [Scene.count, Scene.tasks, Scene.setWork, Scene.onTransport,
      HostTransport.tasks_answer]
  | start => exact .inl (TaskManager.length_modifyTask ..)
  | finish => exact .inl (TaskManager.length_modifyTask ..)
  | announce => exact .inl (TaskManager.length_settle ..)
  | _ => exact .inl rfl

structure Labelled (s : Scene κ) : Prop where
  label : ∀ i t, s.tasks.task? i = some t →
    (∀ c ∈ t.work.callback, c = i) ∧ t.owner = t.work.owner
  queued : ∀ r ∈ s.transport.queue, r.callback < s.count ∧ s.owner r.callback = r.owner

theorem Labelled.label_step (h : Labelled s) (hs : Step s t) :
    ∀ i a, t.tasks.task? i = some a → (∀ c ∈ a.work.callback, c = i) ∧ a.owner = a.work.owner := by
  intro i a ha
  by_cases hi : i < s.count
  · obtain ⟨b, hb⟩ := Scene.task?_of_lt hi
    obtain ⟨a', ha', ho, hw, _⟩ := hs.grows.tasks i b hb
    rw [ha] at ha'
    cases ha'
    rw [ho, hw]
    exact h.label i b hb
  · have hlt : i < t.count := Scene.lt_count ha
    rcases hs.count with hc | ⟨k, r, _, _, hr, rfl⟩
    · omega
    · have hacc : (s.tasks.tasks ++ [⟨r.owner, r, false, _⟩])[i]? = some a := ha
      have hie : i = s.tasks.tasks.length := by
        have hle := (List.getElem?_eq_some_iff.mp hacc).1
        rw [List.length_append, List.length_singleton] at hle
        simp only [Scene.count] at hi
        omega
      subst hie
      rw [List.getElem?_append_right (Nat.le_refl _), Nat.sub_self] at hacc
      cases hacc
      exact ⟨hr, rfl⟩

theorem Labelled.step (h : Labelled s) (hs : Step s t) : Labelled t := by
  have hkeep : ∀ r ∈ s.transport.queue, r.callback < t.count ∧ t.owner r.callback = r.owner := by
    intro r hr
    obtain ⟨hlt, ho⟩ := h.queued r hr
    exact ⟨Nat.lt_of_lt_of_le hlt hs.grows.count, (hs.grows.owner hlt).trans ho⟩
  refine ⟨h.label_step hs, fun r hr => ?_⟩
  have hlt {i : Nat} (hi : i < s.count) : i < t.count := Nat.lt_of_lt_of_le hi hs.grows.count
  have hown {i : Nat} (hi : i < s.count) : t.owner i = s.owner i := hs.grows.owner hi
  cases hs with
  | drop => exact hkeep r (List.mem_of_mem_filter hr)
  | empty => exact nomatch hr
  | poll => exact nomatch hr
  | @append i a content hw ha =>
    obtain ⟨hcb, ho⟩ := h.label i a ha
    simp only [Scene.setWork, Scene.onTransport, HostTransport.answer] at hr
    split at hr
    · exact hkeep r hr
    next c hc =>
      rcases List.mem_append.mp hr with hr | hr
      · exact hkeep r hr
      · cases List.mem_singleton.mp hr
        cases hcb c hc
        have hi : i < s.count := Scene.lt_count ha
        exact ⟨hlt hi, (hown hi).trans (by simp [Scene.owner, ha, ho])⟩
  | _ => exact hkeep r hr

def Begun (s : Scene κ) : Prop := ∀ d ∈ s.delivered, d.1 < s.polls.length

omit [DecidableEq κ] in
theorem lt_length_of_getElem? {α : Type} {l : List α} {n : Nat} {a : α} (h : l[n]? = some a) :
    n < l.length := (List.getElem?_eq_some_iff.mp h).1

theorem Begun.step (h : Begun s) (hs : Step s t) : Begun t := by
  cases hs with
  | poll =>
    intro d hd
    have hlt := h d hd
    simp only [Scene.beginPoll, List.length_append, List.length_singleton]
    omega
  | deliver hp =>
    intro d hd
    simp only [Scene.setPoll, List.length_set]
    rcases List.mem_append.mp hd with hd | hd
    · exact h d hd
    · rw [List.mem_singleton.mp hd]
      exact lt_length_of_getElem? hp
  | abandon =>
    intro d hd
    simp only [Scene.setPoll, List.length_set]
    exact h d hd
  | _ => exact h

/-- What was posted is not ahead any more. -/
def Launched (s : Scene κ) : Prop := ∀ i ∈ s.posted, s.work i ≠ .ahead

omit [DecidableEq κ] in
theorem Launched.setWork (h : Launched s) {w : Work} (hw : w ≠ .ahead) :
    Launched (s.setWork i w) := by
  intro j hj
  by_cases hji : j = i
  · subst hji
    simpa [Scene.setWork] using hw
  · simpa [Scene.setWork, Function.update_of_ne hji] using h j hj

theorem Launched.step (h : Launched s) (hs : Step s t) : Launched t := by
  cases hs with
  | begin =>
    refine h.setWork ?_
    split <;> exact nofun
  | @post i _ =>
    intro j hj
    rcases List.mem_append.mp hj with hj | hj
    · exact h.setWork (i := i) (w := .posted) nofun j hj
    · rw [List.mem_singleton.mp hj]
      simp [Scene.setWork]
  | reply content =>
    refine h.setWork ?_
    cases content <;> exact nofun
  | check =>
    refine h.setWork ?_
    split <;> exact nofun
  | append => exact Launched.setWork (s := s.onTransport _) h nofun
  | _ => exact h

def Exclusive (s : Scene κ) : Prop :=
  ∀ k j, (s.callers k).holds → (s.callers j).holds → k = j

omit [DecidableEq κ] in
theorem Exclusive.put (h : Exclusive s) {k : Nat} {c : Caller κ}
    (hc : c.holds → ∀ j, j ≠ k → ¬(s.callers j).holds) : Exclusive (s.put k c) := by
  have hother {a : Nat} (ha : a ≠ k) : (s.put k c).callers a = s.callers a :=
    Function.update_of_ne ha ..
  have hself : (s.put k c).callers k = c := Function.update_self ..
  intro a b hha hhb
  by_cases ha : a = k <;> by_cases hb : b = k
  · rw [ha, hb]
  · rw [ha, hself] at hha
    rw [hother hb] at hhb
    exact absurd hhb (hc hha b hb)
  · rw [hb, hself] at hhb
    rw [hother ha] at hha
    exact absurd hha (hc hhb a ha)
  · rw [hother ha] at hha
    rw [hother hb] at hhb
    exact h a b hha hhb

theorem Exclusive.step (h : Exclusive s) (hs : Step s t) : Exclusive t := by
  have hmine {k : Nat} (hk : (s.callers k).holds) : ∀ j, j ≠ k → ¬(s.callers j).holds :=
    fun j hj hjh => hj (h j k hjh hk)
  cases hs with
  | request _ hf => exact Exclusive.put (s := s.onTasks _) h fun _ j _ => hf j
  | track => exact Exclusive.put (s := s.onTasks _) h nofun
  | discard _ _ hf => exact h.put fun _ j _ => hf j
  | shutdown _ hf => exact h.put fun _ j _ => hf j
  | strike hk => exact Exclusive.put (s := s.onTasks _) h fun _ => hmine (hk ▸ trivial)
  | withdraw hk => exact Exclusive.put (s := s.onTasks _) h fun _ => hmine (hk ▸ trivial)
  | release => exact h.put nofun
  | drop => exact Exclusive.put (s := s.onTransport _) h nofun
  | forget => exact Exclusive.put (s := s.onTasks _) h nofun
  | empty => exact Exclusive.put (s := s.onTransport _) h nofun
  | _ => exact h

end Interleaving

end DebugDesk
