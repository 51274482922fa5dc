import Mathlib.Data.List.Nodup
import DebugDesk.Proofs.Task.Walking
import DebugDesk.Proofs.Transport.Cancelling

/-!
# Tasks run once

A task is used when its work has left a mark that may be left only once. The executor runs a task
that it takes off its queue, or one that was submitted just now; neither was used before. So no task
is used twice, whatever tasks do to the manager while they run.
-/
namespace DebugDesk

namespace TaskManager

variable {κ ρ : Type} {m m' : TaskManager κ ρ} {i : Nat}

def works (m : TaskManager κ ρ) : List ρ := m.tasks.map Task.work

theorem length_works (m : TaskManager κ ρ) : m.works.length = m.tasks.length := List.length_map ..

theorem works_of_task? {t : Task κ ρ} (h : m.task? i = some t) : m.works[i]? = some t.work := by
  rw [works, List.getElem?_map]
  exact congrArg (Option.map Task.work) h

theorem works_modifyTask (m : TaskManager κ ρ) (i : Nat) {f : Task κ ρ → Task κ ρ}
    (hf : ∀ t, (f t).work = t.work) : (m.modifyTask i f).works = m.works := by
  apply List.ext_getElem?
  intro j
  simp only [works, modifyTask, List.getElem?_map, List.getElem?_modify]
  cases m.tasks[j]? with
  | none => rfl
  | some t => by_cases h : i = j <;> simp [h, hf]

theorem works_setProgress (m : TaskManager κ ρ) (i : Nat) (p : Progress) :
    (m.setProgress i p).works = m.works := works_modifyTask m i fun _ => rfl

theorem works_strike (m : TaskManager κ ρ) (i : Nat) (forget : Bool) :
    (m.strike i forget).works = m.works := by
  cases forget
  · exact works_modifyTask m i fun _ => rfl
  · exact works_modifyTask (m.untrack i) i fun _ => rfl

theorem works_accept (m : TaskManager κ ρ) (work : ρ) (owner : Option κ) :
    (m.accept work owner).works = m.works ++ [work] := by
  simp [works, accept]

theorem queue_strike (m : TaskManager κ ρ) (i : Nat) (forget : Bool) :
    (m.strike i forget).queue = m.queue := by
  cases forget <;> rfl

theorem queue_accept (m : TaskManager κ ρ) (work : ρ) (owner : Option κ) :
    (m.accept work owner).queue = m.queue ∨
      (m.accept work owner).queue = m.queue ++ [m.tasks.length] := by
  cases h : m.executor <;> simp [accept, h]

end TaskManager

/-- A list of the tasks that are used, which the manager has no part in, and what the work of a task
has to be like. -/
structure Tally {σ κ ρ : Type} (M : Part σ (TaskManager κ ρ)) where
  used : σ → List Nat
  fits : Nat → ρ → Prop
  get_set : ∀ m s, M.get (M.set m s) = m
  used_set : ∀ m s, used (M.set m s) = used s

namespace Tally

section

variable {σ κ ρ : Type} {M : Part σ (TaskManager κ ρ)} (T : Tally M) {A : List Nat} {s t u : σ}
  {i : Nat}

/-- No task is used twice, and none that is queued is used. -/
structure Frugal (s : σ) : Prop where
  queueOnce : (M.get s).queue.Nodup
  queueKnown : ∀ i ∈ (M.get s).queue, i < (M.get s).works.length
  usedOnce : (T.used s).Nodup
  usedGone : ∀ i ∈ T.used s, i < (M.get s).works.length ∧ i ∉ (M.get s).queue
  fit : ∀ i w, (M.get s).works[i]? = some w → T.fits i w

/-- Tasks that were not queued are neither queued nor used meanwhile, those in a list apart. -/
structure Spends (A : List Nat) (s t : σ) : Prop where
  count : (M.get s).works.length ≤ (M.get t).works.length
  away : ∀ i < (M.get s).works.length, i ∉ (M.get s).queue → i ∉ A →
    i ∉ (M.get t).queue ∧ (i ∈ T.used t → i ∈ T.used s)

structure Ready (i : Nat) (s : σ) : Prop where
  lt : i < (M.get s).works.length
  unqueued : i ∉ (M.get s).queue
  unused : i ∉ T.used s

def Prudent (A : List Nat) (s t : σ) : Prop := T.Frugal s → T.Frugal t ∧ T.Spends A s t

variable {T}

theorem Spends.refl : T.Spends A s s := ⟨Nat.le_refl _, fun _ _ hq _ => ⟨hq, id⟩⟩

theorem Spends.trans (h : T.Spends A s t) (h' : T.Spends A t u) : T.Spends A s u := by
  refine ⟨Nat.le_trans h.count h'.count, fun i hi hq hA => ?_⟩
  obtain ⟨hq', hu⟩ := h.away i hi hq hA
  obtain ⟨hq'', hu'⟩ := h'.away i (Nat.lt_of_lt_of_le hi h.count) hq' hA
  exact ⟨hq'', hu ∘ hu'⟩

theorem Spends.mono {B : List Nat} (h : T.Spends A s t) (hAB : A ⊆ B) : T.Spends B s t :=
  ⟨h.count, fun i hi hq hB => h.away i hi hq fun hA => hB (hAB hA)⟩

theorem Spends.drop (h : T.Spends A s t)
    (hA : ∀ i ∈ A, i ∈ (M.get s).queue ∨ (M.get s).works.length ≤ i) :
    T.Spends [] s t := by
  refine ⟨h.count, fun i hi hq _ => h.away i hi hq fun hiA => ?_⟩
  rcases hA i hiA with hiq | hle
  · exact hq hiq
  · exact absurd hi (Nat.not_lt.mpr hle)

instance (A : List Nat) : IsPreorder σ (T.Prudent A) where
  refl _ h := ⟨h, .refl⟩
  trans _ _ _ h h' hs :=
    have ht := h hs
    have hu := h' ht.1
    ⟨hu.1, ht.2.trans hu.2⟩

theorem Prudent.widen (h : T.Prudent [] s t) : T.Prudent A s t :=
  fun hs => ⟨(h hs).1, (h hs).2.mono (List.nil_subset A)⟩

theorem Ready.later {j : Nat} (h : T.Ready j s) (hs : T.Spends A s t) (hj : j ∉ A) :
    T.Ready j t := by
  obtain ⟨hq, hu⟩ := hs.away j h.lt h.unqueued hj
  exact ⟨Nat.lt_of_lt_of_le h.lt hs.count, hq, fun hj => h.unused (hu hj)⟩

variable (T) in
/-- Nothing is submitted, queued or used meanwhile. -/
structure Steady (s t : σ) : Prop where
  works : (M.get t).works = (M.get s).works
  queue : (M.get t).queue.Sublist (M.get s).queue
  used : T.used t = T.used s

instance : IsPreorder σ T.Steady where
  refl _ := ⟨rfl, .refl _, rfl⟩
  trans _ _ _ h h' := ⟨h'.works.trans h.works, h'.queue.trans h.queue, h'.used.trans h.used⟩

theorem Steady.prudent (h : T.Steady s t) : T.Prudent [] s t := by
  intro hs
  have hgone : ∀ i, i ∉ (M.get s).queue → i ∉ (M.get t).queue :=
    fun i hi hiq => hi (h.queue.subset hiq)
  have hcount : (M.get t).works.length = (M.get s).works.length :=
    congrArg List.length h.works
  refine ⟨⟨hs.queueOnce.sublist h.queue, fun i hi => ?_, h.used ▸ hs.usedOnce, fun i hi => ?_,
    h.works ▸ hs.fit⟩, Nat.le_of_eq hcount.symm,
    fun i _ hiq _ => ⟨hgone i hiq, fun hi => h.used ▸ hi⟩⟩
  · rw [hcount]
    exact hs.queueKnown i (h.queue.subset hi)
  · rw [h.used] at hi
    rw [hcount]
    exact ⟨(hs.usedGone i hi).1, hgone i (hs.usedGone i hi).2⟩

theorem steady_map {f : TaskManager κ ρ → TaskManager κ ρ}
    (hw : (f (M.get s)).works = (M.get s).works)
    (hq : (f (M.get s)).queue.Sublist (M.get s).queue) :
    T.Steady s (M.map f s) := by
  refine ⟨?_, ?_, T.used_set _ s⟩ <;> simp only [Part.map, T.get_set, hw, hq]

/-- A new task is taken over. -/
theorem prudent_accept {w : ρ} (owner : Option κ)
    (hw : T.fits (M.get s).works.length w) :
    T.Prudent [] s (M.map (·.accept w owner) s) := by
  intro h
  have hnew : (M.get s).works.length ∉ (M.get s).queue :=
    fun hi => Nat.lt_irrefl _ (h.queueKnown _ hi)
  have hlength := (M.get s).length_works
  have hqueue : ∀ i, i ∈ ((M.get s).accept w owner).queue →
      i ∈ (M.get s).queue ∨ i = (M.get s).works.length := by
    intro i hi
    rcases (M.get s).queue_accept w owner with he | he <;> rw [he] at hi
    · exact .inl hi
    · simpa [hlength] using hi
  refine ⟨⟨?_, ?_, ?_, ?_, ?_⟩, ?_, ?_⟩ <;>
    simp only [Part.map, T.get_set, T.used_set, TaskManager.works_accept, List.length_append,
      List.length_singleton]
  · rcases (M.get s).queue_accept w owner with he | he <;> rw [he]
    · exact h.queueOnce
    · exact List.nodup_append.mpr ⟨h.queueOnce, List.nodup_singleton _, fun a ha b hb hab =>
        hnew (by simp only [List.mem_singleton] at hb; rwa [hlength, ← hb, ← hab])⟩
  · intro i hi
    rcases hqueue i hi with hi | rfl
    · exact Nat.lt_succ_of_lt (h.queueKnown i hi)
    · exact Nat.lt_succ_self _
  · exact h.usedOnce
  · intro i hi
    obtain ⟨hlt, hq⟩ := h.usedGone i hi
    refine ⟨Nat.lt_succ_of_lt hlt, fun hiq => ?_⟩
    rcases hqueue i hiq with hiq | rfl
    · exact hq hiq
    · exact Nat.lt_irrefl _ hlt
  · intro i v hv
    rw [List.getElem?_append] at hv
    split at hv
    · exact h.fit i v hv
    next hi =>
      obtain ⟨hlt, hv⟩ := List.getElem?_eq_some_iff.mp hv
      have hi' : i = (M.get s).works.length := by
        simp only [List.length_singleton] at hlt
        omega
      simp only [hi', Nat.sub_self, List.getElem_cons_zero] at hv
      exact hi' ▸ hv ▸ hw
  · exact Nat.le_succ _
  · intro i hi hq _
    refine ⟨fun hiq => ?_, id⟩
    rcases hqueue i hiq with hiq | rfl
    · exact hq hiq
    · exact Nat.lt_irrefl _ hi

/-- An executor that runs a new task at once may do so. -/
theorem Frugal.ready_of_accept (h : T.Frugal s) (w : ρ) (owner : Option κ)
    (he : (M.get s).executor = .immediate) :
    T.Ready (M.get s).works.length (M.map (·.accept w owner) s) := by
  refine ⟨?_, ?_, ?_⟩ <;> simp only [Part.map, T.get_set, T.used_set]
  · rw [TaskManager.works_accept, List.length_append]
    exact Nat.lt_succ_self _
  · simp only [TaskManager.accept, he]
    exact fun hi => Nat.lt_irrefl _ (h.queueKnown _ hi)
  · exact fun hu => Nat.lt_irrefl _ (h.usedGone _ hu).1

theorem ready_of_taken (h : T.Frugal s) {q : List Nat}
    (hi : i ∈ (M.get s).queue) (hiq : i ∉ q) :
    T.Ready i (M.map (fun m => { m with queue := q }) s) := by
  refine ⟨?_, ?_, ?_⟩ <;> simp only [Part.map, T.get_set, T.used_set]
  · exact h.queueKnown i hi
  · exact hiq
  · exact fun hu => (h.usedGone i hu).2 hi

end

end Tally

namespace TaskRunner

open Tally

variable {σ κ ρ : Type} {R : TaskRunner σ κ ρ} {T : Tally R.manager} {s : σ} {i : Nat}

theorem update_steady {f : TaskManager κ ρ → TaskManager κ ρ} (hw : ∀ m, (f m).works = m.works)
    (hq : ∀ m, (f m).queue.Sublist m.queue) : (R.manager.update f).Respects T.Steady :=
  fun _ => steady_map (hw _) (hq _)

theorem mild_steady (hd : ∀ i w, (R.done i w).Respects T.Steady) : R.Mild T.Steady where
  track _ := update_steady (fun _ => rfl) fun _ => .refl _
  untrack _ := update_steady (fun _ => rfl) fun _ => .refl _
  strike i forget := update_steady (fun m => m.works_strike i forget)
    fun m => m.queue_strike i forget ▸ .refl _
  setProgress i p := update_steady (fun m => m.works_setProgress i p) fun _ => .refl _
  forgetAll := update_steady (fun _ => rfl) fun _ => .refl _
  done := hd

/-- The work of a task that may be run uses that task at most, and does else what states allow. -/
structure Honest (R : TaskRunner σ κ ρ) (T : Tally R.manager) : Prop where
  mild : R.Mild T.Steady
  perform : ∀ i w s, T.fits i w → T.Ready i s → T.Prudent [i] s ((R.perform i w).outcome s).2

theorem execute_prudent (hp : R.Honest T) (hi : T.Ready i s) :
    T.Prudent [i] s ((R.execute i).outcome s).2 := by
  intro h
  rw [execute, Effect.outcome_bind_ok (Part.outcome_read _ _)]
  cases ht : (R.manager.get s).task? i with
  | none => exact ⟨h, .refl⟩
  | some t =>
    have hrun := (hp.mild.setProgress i .running s).prudent h
    have hperform := hp.perform i t.work _ (h.fit i _ (TaskManager.works_of_task? ht))
      (hi.later hrun.2 (List.not_mem_nil)) hrun.1
    have hend := ((Effect.Respects.bind (hp.mild.setProgress i .finished)
      fun _ => hp.mild.announce i) _).prudent hperform.1
    refine ⟨hend.1, ?_⟩
    exact ((hrun.2.mono (List.nil_subset _)).trans hperform.2).trans
      (hend.2.mono (List.nil_subset _))

theorem runTaken_prudent (hp : R.Honest T) (hi : T.Ready i s) :
    T.Prudent [i] s ((R.runTaken i).outcome s).2 := by
  rw [runTaken, Effect.outcome_bind_ok (Part.outcome_read _ _)]
  split
  · exact execute_prudent hp hi
  · exact fun h => ⟨h, .refl⟩

/-- Tasks are run one after the other. -/
theorem runAll_prudent (hp : R.Honest T) {is : List Nat} (hn : is.Nodup)
    (hi : ∀ i ∈ is, T.Ready i s) : T.Prudent is s ((is.forM R.runTaken).outcome s).2 := by
  induction is generalizing s with
  | nil => exact fun h => ⟨h, .refl⟩
  | cons i is ih =>
    intro h
    obtain ⟨hni, hn⟩ := List.nodup_cons.mp hn
    obtain ⟨hfrugal, hspends⟩ := runTaken_prudent hp (hi i List.mem_cons_self) h
    rw [Effect.forM_cons]
    refine Effect.after_bind (p := fun t => T.Frugal t ∧ T.Spends (i :: is) s t)
      ⟨hfrugal, hspends.mono (by simp)⟩ fun _ t ht => ?_
    rw [ht] at hfrugal hspends
    have hrest : ∀ j ∈ is, T.Ready j t := fun j hj =>
      (hi j (List.mem_cons_of_mem i hj)).later hspends fun hji =>
        hni (List.mem_singleton.mp hji ▸ hj)
    have hlast := ih hn hrest hfrugal
    exact ⟨hlast.1, (hspends.mono (by simp)).trans (hlast.2.mono (by simp))⟩

theorem runQueued_prudent (hp : R.Honest T) : R.runQueued.Respects (T.Prudent []) := by
  intro s h
  have htake : T.Prudent [] s (R.manager.map (fun m => { m with queue := [] }) s) :=
    (steady_map rfl (List.nil_sublist _)).prudent
  obtain ⟨hfrugal, hspends⟩ := htake h
  have hready : ∀ i ∈ (R.manager.get s).queue,
      T.Ready i (R.manager.map (fun m => { m with queue := [] }) s) :=
    fun i hi => ready_of_taken h hi List.not_mem_nil
  rw [runQueued_eq, Effect.outcome_bind_ok (Part.outcome_read _ _),
    Effect.outcome_bind_ok (Part.outcome_update _ _ _)]
  have hall := runAll_prudent hp h.queueOnce hready hfrugal
  exact ⟨hall.1, ((hspends.mono (List.nil_subset _)).trans hall.2).drop fun i hi => .inl hi⟩

theorem runOne_prudent (hp : R.Honest T) (i : Nat) : (R.runOne i).Respects (T.Prudent []) := by
  intro s h
  rw [runOne, Effect.outcome_bind_ok (Part.outcome_read _ _)]
  split
  next hi =>
    have hsub := List.erase_sublist (a := i) (l := (R.manager.get s).queue)
    have htake : T.Prudent [] s
        (R.manager.map (fun m => { m with queue := m.queue.erase i }) s) :=
      (steady_map rfl hsub).prudent
    obtain ⟨hfrugal, hspends⟩ := htake h
    rw [Effect.outcome_bind_ok (Part.outcome_update _ _ _)]
    have hready := ready_of_taken h hi fun hie =>
      absurd hie (List.Nodup.not_mem_erase h.queueOnce)
    have hrun := runTaken_prudent hp hready hfrugal
    refine ⟨hrun.1, ((hspends.mono (List.nil_subset _)).trans hrun.2).drop fun j hj => ?_⟩
    exact .inl (List.mem_singleton.mp hj ▸ hi)
  · exact ⟨h, .refl⟩

theorem runAtOnce_prudent (hp : R.Honest T) (h : T.Frugal s) (w : ρ) (owner : Option κ) :
    T.Prudent [(R.manager.get s).works.length] (R.manager.map (·.accept w owner) s)
      ((R.runAtOnce (R.manager.get s).executor (R.manager.get s).works.length).outcome
        (R.manager.map (·.accept w owner) s)).2 := by
  rw [runAtOnce]
  split
  next he => exact execute_prudent hp (h.ready_of_accept w owner he)
  · exact fun h => ⟨h, .refl⟩

/-- A submission, of work that fits the number it gets. -/
theorem submit_prudent (hp : R.Honest T) {w : ρ} (owner : Option κ)
    (hw : T.fits (R.manager.get s).works.length w) :
    T.Prudent [] s ((R.submit w owner).outcome s).2 := by
  intro h
  have hroom := hp.mild.makeRoom s
  rw [submit_eq]
  refine Effect.after_bind (p := fun u => T.Frugal u ∧ T.Spends [] s u) (hroom.prudent h)
    fun _ t ht => ?_
  rw [ht] at hroom
  obtain ⟨hfrugal, hspends⟩ := hroom.prudent h
  rw [Effect.outcome_bind_ok (Part.outcome_read _ _),
    Effect.outcome_bind_ok (Part.outcome_update _ _ _), ← (R.manager.get t).length_works]
  obtain ⟨haccepted, hgrown⟩ := prudent_accept owner (hroom.works ▸ hw) hfrugal
  obtain ⟨hrun, hrest⟩ := runAtOnce_prudent hp hfrugal w owner haccepted
  have hspent := hspends.trans (((hgrown.mono (List.nil_subset _)).trans hrest).drop fun i hi =>
    .inr (Nat.le_of_eq (List.mem_singleton.mp hi).symm))
  have henroll : (do
      R.enroll (R.manager.get t).works.length
      return (R.manager.get t).works.length).Respects T.Steady :=
    .bind (hp.mild.enroll _) fun _ => .pure _
  refine Effect.after_bind (p := fun u => T.Frugal u ∧ T.Spends [] s u) ⟨hrun, hspent⟩
    fun _ u hu => ?_
  rw [hu] at hrun hspent
  have hlast := (henroll u).prudent hrun
  exact ⟨hlast.1, hspent.trans hlast.2⟩

end TaskRunner

end DebugDesk
