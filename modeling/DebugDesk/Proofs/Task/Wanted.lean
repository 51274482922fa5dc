import DebugDesk.Proofs.Transport.Cancelling

/-!
# Wanted tasks

Something may come of a task until it is over or cancelled. Tasks are wanted only while they are
tracked, so whoever cancels all that is tracked leaves nothing behind.
-/
namespace DebugDesk

/-- Whether something may still come of a task. -/
def Task.isWanted {κ ρ : Type} (t : Task κ ρ) : Bool := !t.cancelled && !t.progress.isOver

/-- Whether a task is not for the executor to end. -/
def Task.isIdle {κ ρ : Type} (t : Task κ ρ) : Bool :=
  t.progress == .waiting || t.progress == .withdrawn

namespace TaskManager

variable {κ ρ : Type} {m m' m'' : TaskManager κ ρ} {i j : Nat} {t : Task κ ρ}

/-- What is wanted is tracked, and what is queued was not begun. -/
structure Tidy (m : TaskManager κ ρ) : Prop where
  trackedOnce : m.tracked.Nodup
  trackedKnown : ∀ i ∈ m.tracked, i < m.tasks.length
  queueOnce : m.queue.Nodup
  queueIdle : ∀ i ∈ m.queue, ∃ t, m.task? i = some t ∧ t.isIdle = true
  wanted : ∀ i t, m.task? i = some t → t.isWanted = true → i ∈ m.tracked

/-- The tasks are what they were, and no more of them are wanted. -/
structure Ebbs (m m' : TaskManager κ ρ) : Prop where
  mode : m'.mode = m.mode
  executor : m'.executor = m.executor
  task : ∀ i t', m'.task? i = some t' → ∃ t, m.task? i = some t ∧ t'.owner = t.owner ∧
    t'.work = t.work ∧ (t'.isWanted = true → t.isWanted = true)

theorem Ebbs.refl (m : TaskManager κ ρ) : Ebbs m m := ⟨rfl, rfl, fun _ t h => ⟨t, h, rfl, rfl, id⟩⟩

theorem Ebbs.trans (h : Ebbs m m') (h' : Ebbs m' m'') : Ebbs m m'' := by
  refine ⟨h'.mode.trans h.mode, h'.executor.trans h.executor, fun i t'' ht'' => ?_⟩
  obtain ⟨t', ht', ho', hw', hwanted'⟩ := h'.task i t'' ht''
  obtain ⟨t, ht, ho, hw, hwanted⟩ := h.task i t' ht'
  exact ⟨t, ht, ho'.trans ho, hw'.trans hw, hwanted ∘ hwanted'⟩

/-- One task is changed, and may be forgotten if it is not wanted after that. -/
structure Amends (m : TaskManager κ ρ) (i : Nat) (f : Task κ ρ → Task κ ρ)
    (m' : TaskManager κ ρ) : Prop where
  mode : m'.mode = m.mode
  executor : m'.executor = m.executor
  tasks : m'.tasks = (m.modifyTask i f).tasks
  owner : ∀ t, (f t).owner = t.owner
  work : ∀ t, (f t).work = t.work
  wanted : ∀ t, m.task? i = some t → (f t).isWanted = true → t.isWanted = true
  tracked : m'.tracked = m.tracked ∨
    m'.tracked = m.tracked.erase i ∧ ∀ t, m.task? i = some t → (f t).isWanted = false
  queue : m'.queue.Sublist m.queue
  idle : i ∈ m'.queue → ∀ t, t.isIdle = true → (f t).isIdle = true

namespace Amends

variable {f : Task κ ρ → Task κ ρ}

theorem task? (h : m.Amends i f m') (j : Nat) :
    m'.task? j = (m.task? j).map fun t => if i = j then f t else t := by
  rw [TaskManager.task?, h.tasks]
  exact task?_modifyTask m i j f

theorem ebbs (h : m.Amends i f m') : Ebbs m m' := by
  refine ⟨h.mode, h.executor, fun j t' ht' => ?_⟩
  rw [h.task?] at ht'
  obtain ⟨t, ht, rfl⟩ := Option.map_eq_some_iff.mp ht'
  refine ⟨t, ht, ?_⟩
  by_cases hij : i = j
  · subst hij
    simpa using ⟨h.owner t, h.work t, h.wanted t ht⟩
  · simp [hij]

theorem tidy (h : m.Amends i f m') (hm : m.Tidy) : m'.Tidy := by
  have hlength : m'.tasks.length = m.tasks.length := by
    rw [h.tasks]
    exact length_modifyTask m i f
  have hsublist : m'.tracked.Sublist m.tracked := by
    rcases h.tracked with he | ⟨he, -⟩
    · exact he ▸ .refl _
    · exact he ▸ List.erase_sublist
  refine ⟨hsublist.nodup hm.trackedOnce, fun j hj => ?_, h.queue.nodup hm.queueOnce,
    fun j hj => ?_, fun j t' ht' hwanted => ?_⟩
  · exact hlength ▸ hm.trackedKnown j (hsublist.subset hj)
  · obtain ⟨t, ht, hidle⟩ := hm.queueIdle j (h.queue.subset hj)
    rw [h.task?, ht]
    refine ⟨_, rfl, ?_⟩
    split
    next hij => exact h.idle (hij ▸ hj) t hidle
    · exact hidle
  · rw [h.task?] at ht'
    obtain ⟨t, ht, rfl⟩ := Option.map_eq_some_iff.mp ht'
    by_cases hij : i = j
    · subst hij
      simp only [↓reduceIte] at hwanted
      rcases h.tracked with he | ⟨-, hnot⟩
      · exact he ▸ hm.wanted i t ht (h.wanted t ht hwanted)
      · simp [hnot t ht] at hwanted
    · simp only [hij, ↓reduceIte] at hwanted
      have hj := hm.wanted j t ht hwanted
      rcases h.tracked with he | ⟨he, -⟩
      · exact he ▸ hj
      · exact he ▸ (List.mem_erase_of_ne (Ne.symm hij)).mpr hj

end Amends

theorem amends_strike (m : TaskManager κ ρ) (i : Nat) (forget : Bool) :
    m.Amends i (fun t => { t with cancelled := true }) (m.strike i forget) := by
  cases forget with
  | false =>
    exact ⟨rfl, rfl, rfl, fun _ => rfl, fun _ => rfl, fun t _ h => by simp [Task.isWanted] at h,
      .inl rfl, .refl _, fun _ _ h => h⟩
  | true =>
    exact ⟨rfl, rfl, rfl, fun _ => rfl, fun _ => rfl, fun t _ h => by simp [Task.isWanted] at h,
      .inr ⟨rfl, fun t _ => by simp [Task.isWanted]⟩, .refl _, fun _ _ h => h⟩

theorem amends_withdraw (m : TaskManager κ ρ) (i : Nat) :
    ∃ f, m.Amends i f (m.withdraw i) := by
  unfold withdraw
  split
  · refine ⟨fun t => { t with progress := .withdrawn }, rfl, rfl, rfl, fun _ => rfl, fun _ => rfl,
      fun t _ h => ?_, .inr ⟨rfl, fun t _ => ?_⟩, .refl _, fun _ _ _ => rfl⟩
    · simp [Task.isWanted, Progress.isOver] at h
    · simp [Task.isWanted, Progress.isOver]
  · refine ⟨id, rfl, rfl, ?_, fun _ => rfl, fun _ => rfl, fun _ _ => id, .inl rfl, .refl _,
      fun _ _ => id⟩
    rw [modifyTask, List.modify_id]

def cancelAll (m : TaskManager κ ρ) (forget : Bool) (is : List Nat) : TaskManager κ ρ :=
  is.foldl (fun m i => (m.strike i forget).withdraw i) m

/-- What cancelling tasks comes to. -/
structure Cancels (m : TaskManager κ ρ) (is : List Nat) (m' : TaskManager κ ρ) : Prop where
  tidy : m'.Tidy
  ebbs : m.Ebbs m'
  unwanted : ∀ i ∈ is, ∀ t, m'.task? i = some t → t.isWanted = false

theorem Ebbs.unwanted (h : Ebbs m m') (hi : ∀ t, m.task? i = some t → t.isWanted = false)
    (t : Task κ ρ) (ht : m'.task? i = some t) : t.isWanted = false := by
  obtain ⟨t₀, ht₀, -, -, hw⟩ := h.task i t ht
  cases hwanted : t.isWanted with
  | false => rfl
  | true => exact (hw hwanted).symm.trans (hi t₀ ht₀)

theorem cancels_one (hm : m.Tidy) (i : Nat) (forget : Bool) :
    m.Cancels [i] ((m.strike i forget).withdraw i) := by
  have hstrike := amends_strike m i forget
  obtain ⟨f, hwithdraw⟩ := amends_withdraw (m.strike i forget) i
  refine ⟨hwithdraw.tidy (hstrike.tidy hm), hstrike.ebbs.trans hwithdraw.ebbs, fun j hj => ?_⟩
  obtain rfl := List.mem_singleton.mp hj
  refine hwithdraw.ebbs.unwanted fun t ht => ?_
  rw [hstrike.task?] at ht
  obtain ⟨t₀, -, rfl⟩ := Option.map_eq_some_iff.mp ht
  simp [Task.isWanted]

theorem cancels_all (hm : m.Tidy) (forget : Bool) (is : List Nat) :
    m.Cancels is (m.cancelAll forget is) := by
  induction is generalizing m with
  | nil => exact ⟨hm, .refl m, fun i hi => by cases hi⟩
  | cons i is ih =>
    have hone := cancels_one hm i forget
    have hrest := ih hone.tidy
    refine ⟨hrest.tidy, hone.ebbs.trans hrest.ebbs, fun j hj => ?_⟩
    rcases List.mem_cons.mp hj with rfl | hj
    · exact hrest.ebbs.unwanted (hone.unwanted j (List.mem_singleton.mpr rfl))
    · exact hrest.unwanted j hj

/-- When everything that is tracked was cancelled, it may be forgotten. -/
theorem Cancels.forgetAll (h : m.Cancels m.tracked m') (hm : m.Tidy) :
    m'.forgetAll.Tidy ∧ m.Ebbs m'.forgetAll := by
  have hnone : ∀ i t, m'.task? i = some t → t.isWanted = false := by
    intro i t ht
    obtain ⟨t₀, ht₀, -, -, hw⟩ := h.ebbs.task i t ht
    cases hwanted : t.isWanted with
    | false => rfl
    | true => exact hwanted.symm.trans (h.unwanted i (hm.wanted i t₀ ht₀ (hw hwanted)) t ht)
  refine ⟨⟨List.nodup_nil, fun i hi => by simp [TaskManager.forgetAll] at hi, h.tidy.queueOnce,
    h.tidy.queueIdle, fun i t ht hw => ?_⟩, h.ebbs.mode, h.ebbs.executor, h.ebbs.task⟩
  rw [hnone i t ht] at hw
  cases hw

/-- A task that is not over is begun. -/
theorem amends_start (h : m.task? i = some t) (ht : t.progress.isOver = false) {queue : List Nat}
    (hq : queue.Sublist m.queue) (hi : i ∉ queue) :
    m.Amends i (fun t => { t with progress := .running })
      ({ m with queue }.setProgress i .running) := by
  refine ⟨rfl, rfl, rfl, fun _ => rfl, fun _ => rfl, fun t' ht' hw => ?_, .inl rfl, hq,
    fun hiq => absurd hiq hi⟩
  obtain rfl := Option.some.inj (h.symm.trans ht')
  rw [Task.isWanted, ht]
  exact hw

theorem amends_finish (m : TaskManager κ ρ) (hi : i ∉ m.queue) :
    m.Amends i (fun t => { t with progress := .finished })
      ((m.setProgress i .finished).untrack i) :=
  ⟨rfl, rfl, rfl, fun _ => rfl, fun _ => rfl,
    fun t _ h => by simp [Task.isWanted, Progress.isOver] at h,
    .inr ⟨rfl, fun t _ => by simp [Task.isWanted, Progress.isOver]⟩, .refl _,
    fun hiq => absurd hiq hi⟩

theorem task?_accept (m : TaskManager κ ρ) (work : ρ) (owner : Option κ)
    (he : m.executor = .deferred) (j : Nat) :
    (m.accept work owner).task? j =
      if j = m.tasks.length then some ⟨owner, work, false, .waiting⟩ else m.task? j := by
  simp only [TaskManager.task?, accept, he]
  rcases Nat.lt_trichotomy j m.tasks.length with hj | rfl | hj
  · rw [List.getElem?_append_left hj, if_neg (Nat.ne_of_lt hj)]
  · simp
  · rw [if_neg (Nat.ne_of_gt hj), List.getElem?_eq_none (Nat.le_of_lt hj),
      List.getElem?_eq_none (by simpa using Nat.succ_le_of_lt hj)]

def enlist (m : TaskManager κ ρ) (work : ρ) (owner : Option κ) : TaskManager κ ρ :=
  ((m.accept work owner).track m.tasks.length).settle m.tasks.length

theorem enlist_eq (m : TaskManager κ ρ) (work : ρ) (owner : Option κ)
    (he : m.executor = .deferred) :
    m.enlist work owner = (m.accept work owner).track m.tasks.length := by
  have hwaiting : ((m.accept work owner).track m.tasks.length).progressOf m.tasks.length =
      .waiting := by
    have htask := task?_accept m work owner he m.tasks.length
    rw [if_pos rfl] at htask
    change (((m.accept work owner).task? m.tasks.length).map Task.progress).getD _ = _
    rw [htask]
    rfl
  rw [enlist, settle, hwaiting]
  rfl

theorem Tidy.enlist (hm : m.Tidy) (he : m.executor = .deferred) (work : ρ) (owner : Option κ) :
    (m.enlist work owner).Tidy := by
  rw [enlist_eq m work owner he]
  have htask := task?_accept m work owner he
  have hqueue : (m.accept work owner).queue = m.queue ++ [m.tasks.length] := by
    simp only [accept, he]
  have hknown : ∀ i ∈ m.queue, i < m.tasks.length := by
    intro i hi
    obtain ⟨t, ht, -⟩ := hm.queueIdle i hi
    exact (List.getElem?_eq_some_iff.mp ht).1
  have hlength : (m.accept work owner).tasks.length = m.tasks.length + 1 := by simp [accept]
  refine ⟨?_, fun i hi => ?_, ?_, fun i hi => ?_, fun i t ht hw => ?_⟩
  · refine List.nodup_append.mpr ⟨hm.trackedOnce, List.nodup_singleton _, fun i hi j hj => ?_⟩
    obtain rfl := List.mem_singleton.mp hj
    exact Nat.ne_of_lt (hm.trackedKnown i hi)
  · rw [track, hlength]
    rcases List.mem_append.mp hi with hi | hi
    · exact Nat.lt_succ_of_lt (hm.trackedKnown i hi)
    · exact List.mem_singleton.mp hi ▸ Nat.lt_succ_self _
  · change (m.accept work owner).queue.Nodup
    rw [hqueue]
    refine List.nodup_append.mpr ⟨hm.queueOnce, List.nodup_singleton _, fun i hi j hj => ?_⟩
    obtain rfl := List.mem_singleton.mp hj
    exact Nat.ne_of_lt (hknown i hi)
  · change i ∈ (m.accept work owner).queue at hi
    change ∃ t, (m.accept work owner).task? i = some t ∧ _
    rw [hqueue] at hi
    rw [htask]
    rcases List.mem_append.mp hi with hi | hi
    · rw [if_neg (Nat.ne_of_lt (hknown i hi))]
      exact hm.queueIdle i hi
    · rw [if_pos (List.mem_singleton.mp hi)]
      exact ⟨_, rfl, rfl⟩
  · change (m.accept work owner).task? i = some t at ht
    change i ∈ m.tracked ++ [m.tasks.length]
    rw [htask] at ht
    split at ht
    next hi => exact List.mem_append_right _ (List.mem_singleton.mpr hi)
    · exact List.mem_append_left _ (hm.wanted i t ht hw)

end TaskManager

end DebugDesk
