import DebugDesk.Proofs.Task.Isolation

/-!
# Succession of tasks

In sequential mode a submission cancels what is tracked before it hands the new task over. So one
task is tracked at most. At the moment when a new one is tracked, all earlier ones are finished or
flagged and none of them waits for the executor, whoever submitted them: the program, or a task that
is still running.
-/
namespace DebugDesk

namespace TaskManager

variable {κ ρ : Type} {m m' : TaskManager κ ρ} {i j : Nat}

theorem sublist_strike (m : TaskManager κ ρ) (i : Nat) (forget : Bool) :
    (m.strike i forget).tracked.Sublist m.tracked := by
  rw [tracked_strike]
  split
  · exact List.erase_sublist
  · exact .refl _

/-- A task is finished or asked to end early, and the executor does not hold it any more. -/
structure Superseded (m : TaskManager κ ρ) (i : Nat) : Prop where
  spent : m.progressOf i = .finished ∨ m.isCancelled i = true
  gone : m.progressOf i ≠ .waiting

theorem Superseded.of_tasks (h : m.Superseded i) (ht : m'.tasks = m.tasks) : m'.Superseded i := by
  have hp : m'.progressOf i = m.progressOf i := by rw [progressOf, progressOf, task?, task?, ht]
  have hc : m'.isCancelled i = m.isCancelled i := by rw [isCancelled, isCancelled, task?, task?, ht]
  exact ⟨hp ▸ hc ▸ h.spent, hp ▸ h.gone⟩

theorem Superseded.strike (h : m.Superseded j) (i : Nat) (forget : Bool) :
    (m.strike i forget).Superseded j := by
  have hp := m.progressOf_strike i j forget
  refine ⟨?_, hp ▸ h.gone⟩
  rcases h.spent with hs | hs
  · exact .inl (hp.trans hs)
  · exact .inr ((Keeps.strike m i forget).isCancelled hs)

/-- A task stays superseded, unless one that is finished is run again. -/
theorem Superseded.setProgress (h : m.Superseded j) {p : Progress} (hi : i < m.tasks.length)
    (hp : p ≠ .waiting) (hj : i = j → p = .finished ∨ m.progressOf j ≠ .finished) :
    (m.setProgress i p).Superseded j := by
  have hprogress := m.progressOf_setProgress i j p hi
  have hcancelled := m.isCancelled_setProgress i j p
  by_cases hij : i = j
  · rw [if_pos hij] at hprogress
    refine ⟨?_, fun hw => hp (hprogress.symm.trans hw)⟩
    rcases hj hij with rfl | hne
    · exact .inl hprogress
    · exact .inr (hcancelled.trans (h.spent.resolve_left hne))
  · rw [if_neg hij] at hprogress
    exact ⟨hprogress ▸ hcancelled ▸ h.spent, hprogress ▸ h.gone⟩

theorem Superseded.accept (h : m.Superseded j) (work : ρ) (owner : Option κ) :
    (m.accept work owner).Superseded j := by
  rcases m.progressOf_accept work owner j with hp | ⟨hw, _⟩
  · exact ⟨hp ▸ (m.isCancelled_accept work owner j) ▸ h.spent, hp ▸ h.gone⟩
  · exact absurd hw h.gone

theorem progressOf_accept_of_lt (m : TaskManager κ ρ) (work : ρ) (owner : Option κ)
    (hj : j < m.tasks.length) : (m.accept work owner).progressOf j = m.progressOf j := by
  simp only [progressOf, task?, TaskManager.accept, List.getElem?_append_left hj]

theorem progressOf_accepted (m : TaskManager κ ρ) (work : ρ) (owner : Option κ) :
    (m.accept work owner).progressOf m.tasks.length = .waiting ∨
      (m.accept work owner).progressOf m.tasks.length = .running := by
  cases he : m.executor <;> simp [progressOf, task?, TaskManager.accept, he]

end TaskManager

namespace TaskHistory

open TaskManager

variable {κ : Type} {m₀ : TaskManager κ (Job κ)} {s t u : Chronicle κ} {i j : Nat}
  {A B : List Nat} {f : Program κ → Effect (Chronicle κ) Unit}

/-- A task is flagged and withdrawn. -/
def dismissed (s : Chronicle κ) (i : Nat) : Chronicle κ :=
  withdrawn (s.put (s.now.strike i false)) i

/-- All tracked tasks are dismissed and forgotten. -/
def vacated (s : Chronicle κ) : Chronicle κ :=
  (s.now.tracked.foldl dismissed s).put (s.now.tracked.foldl dismissed s).now.forgetAll

/-- A task is taken over where there is room. -/
def succeeded (s : Chronicle κ) (job : Job κ) (owner : Option κ) : Chronicle κ :=
  let accepted := (vacated s).put ((vacated s).now.accept job owner)
  accepted.put (accepted.now.track (vacated s).now.tasks.length)

theorem outcome_clear (h : s.now.tracked.length ≤ 1) :
    (runner f).clear.outcome s = (.ok (), vacated s) := by
  rw [TaskRunner.clear, Effect.outcome_bind_ok (Part.outcome_read _ _), get_runner]
  have hall : (s.now.tracked.forM fun i => (runner f).cancel i false).outcome s =
      (.ok (), s.now.tracked.foldl dismissed s) := by
    rcases ht : s.now.tracked with _ | ⟨i, _ | ⟨j, rest⟩⟩
    · rfl
    · rw [Effect.forM_cons, Effect.outcome_bind_ok (outcome_cancel_tracked (by simp [ht]) false)]
      rfl
    · simp [ht] at h
  rw [Effect.outcome_bind_ok hall, outcome_update_runner, vacated]

/-- Where the rules of the sequential mode are kept, a submission succeeds. -/
theorem outcome_submit (hmode : s.now.mode = .sequential) (h : s.now.tracked.length ≤ 1)
    (hlater : (vacated s).now.executor ≠ .immediate) (job : Job κ) (owner : Option κ) :
    ((runner f).submit job owner).outcome s =
      (.ok (vacated s).now.tasks.length, succeeded s job owner) := by
  have hroom : (runner f).makeRoom.outcome s = (.ok (), vacated s) := by
    rw [TaskRunner.makeRoom, Effect.outcome_bind_ok (Part.outcome_read _ _), get_runner,
      if_pos hmode, outcome_clear h]
  have hnew : (((vacated s).now.accept job owner).progressOf
      (vacated s).now.tasks.length).isOver = false := by
    rcases (vacated s).now.progressOf_accepted job owner with hp | hp <;> rw [hp] <;> rfl
  have henroll : ((runner f).enroll (vacated s).now.tasks.length).outcome
      ((vacated s).put ((vacated s).now.accept job owner)) = (.ok (), succeeded s job owner) := by
    rw [TaskRunner.enroll, Effect.outcome_bind_ok (outcome_update_runner f _ _),
      Effect.outcome_bind_ok (Part.outcome_read _ _), get_runner]
    refine (congrFun (congrArg Effect.outcome (if_neg ?_)) _).trans rfl
    exact Bool.not_eq_true _ ▸ hnew
  rw [TaskRunner.submit_eq, Effect.outcome_bind_ok hroom,
    Effect.outcome_bind_ok (Part.outcome_read _ _), get_runner,
    Effect.outcome_bind_ok (outcome_update_runner f _ _), TaskRunner.runAtOnce, if_neg hlater,
    pure_bind, Effect.outcome_bind_ok henroll]
  rfl

/-- Tasks are flagged, withdrawn and forgotten, and nothing else changes. -/
structure Clears (s t : Chronicle κ) : Prop where
  past : s.Extends t
  mode : t.now.mode = s.now.mode
  executor : t.now.executor = s.now.executor
  count : t.now.tasks.length = s.now.tasks.length
  tracked : t.now.tracked.Sublist s.now.tracked
  progress : ∀ j, t.now.progressOf j = s.now.progressOf j ∨
    s.now.progressOf j = .waiting ∧ t.now.progressOf j = .withdrawn

theorem Clears.refl (s : Chronicle κ) : Clears s s :=
  ⟨refl_of Traced.Extends s, rfl, rfl, rfl, .refl _, fun _ => .inl rfl⟩

theorem Clears.trans (h : Clears s t) (h' : Clears t u) : Clears s u := by
  refine ⟨trans_of Traced.Extends h.past h'.past, h'.mode.trans h.mode,
    h'.executor.trans h.executor, h'.count.trans h.count, h'.tracked.trans h.tracked, fun j => ?_⟩
  rcases h.progress j with hp | ⟨hw, hp⟩ <;> rcases h'.progress j with hp' | ⟨hw', hp'⟩
  · exact .inl (hp'.trans hp)
  · exact .inr ⟨hp.symm.trans hw', hp'⟩
  · exact .inr ⟨hw, hp'.trans hp⟩
  · rw [hp] at hw'
    cases hw'

theorem extends_announced (s : Chronicle κ) (i : Nat) : s.Extends (announced s i) := by
  by_cases hi : i ∈ s.now.tracked
  · rw [announced_of_mem hi, respond]
    split
    · exact ((refl_of Traced.Extends s).note _).put _
    · exact (refl_of Traced.Extends s).put _
  · rw [announced_of_not_mem hi]
    exact refl_of Traced.Extends s

theorem now_announced (s : Chronicle κ) (i : Nat) :
    (announced s i).now = s.now ∨ (announced s i).now = s.now.untrack i := by
  by_cases hi : i ∈ s.now.tracked
  · rw [announced_of_mem hi]
    exact .inr rfl
  · rw [announced_of_not_mem hi]
    exact .inl rfl

theorem clears_announced (s : Chronicle κ) (i : Nat) : Clears s (announced s i) := by
  refine ⟨extends_announced s i, ?_, ?_, ?_, ?_, fun j => .inl ?_⟩ <;>
    rcases now_announced s i with h | h <;> rw [h] <;> first | rfl | exact List.erase_sublist

theorem clears_put {m : TaskManager κ (Job κ)} (hmode : m.mode = s.now.mode)
    (hexecutor : m.executor = s.now.executor) (hcount : m.tasks.length = s.now.tasks.length)
    (htracked : m.tracked.Sublist s.now.tracked)
    (hp : ∀ j, m.progressOf j = s.now.progressOf j ∨
      s.now.progressOf j = .waiting ∧ m.progressOf j = .withdrawn) : Clears s (s.put m) :=
  ⟨(refl_of Traced.Extends s).put m, hmode, hexecutor, hcount, htracked, hp⟩

theorem clears_strike (s : Chronicle κ) (i : Nat) (forget : Bool) :
    Clears s (s.put (s.now.strike i forget)) :=
  clears_put (by cases forget <;> rfl) (by cases forget <;> rfl) (s.now.length_strike i forget)
    (s.now.sublist_strike i forget) fun j => .inl (s.now.progressOf_strike i j forget)

theorem clears_withdrawn (s : Chronicle κ) (i : Nat) : Clears s (withdrawn s i) := by
  rw [withdrawn]
  split
  next hw =>
    have hput : Clears s (s.put (s.now.setProgress i .withdrawn)) := by
      refine clears_put rfl rfl (s.now.length_modifyTask ..) (.refl _) fun j => ?_
      by_cases hi : i < s.now.tasks.length
      · rw [s.now.progressOf_setProgress i j .withdrawn hi]
        split
        next hij => exact .inr ⟨hij ▸ hw, rfl⟩
        next => exact .inl rfl
      · rw [setProgress, modifyTask, List.modify_eq_self (Nat.le_of_not_lt hi)]
        exact .inl rfl
    exact hput.trans (clears_announced _ i)
  next => exact .refl s

theorem clears_dismissed (s : Chronicle κ) (i : Nat) : Clears s (dismissed s i) :=
  (clears_strike s i false).trans (clears_withdrawn _ i)

theorem clears_vacated (s : Chronicle κ) : Clears s (vacated s) := by
  have hall (is : List Nat) : ∀ t : Chronicle κ, Clears t (is.foldl dismissed t) := by
    induction is with
    | nil => exact .refl
    | cons i is ih => exact fun t => (clears_dismissed t i).trans (ih _)
  exact (hall _ s).trans (clears_put rfl rfl rfl (List.nil_sublist _) fun _ => .inl rfl)

/-- In sequential mode one task is tracked at most, and one that is tracked from this moment on
succeeds all others. -/
structure Seemly (x : Moment (TaskManager κ (Job κ)) Event) : Prop where
  mode : x.after.mode = .sequential
  later : x.after.executor ≠ .immediate
  single : x.after.tracked.length ≤ 1
  succeeds : ∀ i ∈ x.after.tracked, i ∉ x.before.tracked →
    ∀ j < x.after.tasks.length, j ≠ i → x.after.Superseded j

/-- Nothing is to come of tasks that are not tracked, those in a list apart. -/
structure Succession (A : List Nat) (s : Chronicle κ) : Prop where
  mode : s.now.mode = .sequential
  later : s.now.executor ≠ .immediate
  single : s.now.tracked.length ≤ 1
  superseded : ∀ j < s.now.tasks.length, j ∉ s.now.tracked → j ∉ A → s.now.Superseded j
  finished : ∀ j, s.now.progressOf j = .finished → j ∈ begun s
  past : ∀ x ∈ s.history, Seemly x

/-- No other task is tracked than before. -/
theorem Succession.put {m : TaskManager κ (Job κ)} (h : Succession A s)
    (hmode : m.mode = s.now.mode) (hexecutor : m.executor = s.now.executor)
    (htracked : m.tracked.Sublist s.now.tracked)
    (hsuperseded : ∀ j < m.tasks.length, j ∉ m.tracked → j ∉ B → m.Superseded j)
    (hfinished : ∀ j, m.progressOf j = .finished → j ∈ begun s) : Succession B (s.put m) := by
  have hsingle := Nat.le_trans htracked.length_le h.single
  refine ⟨hmode.trans h.mode, hexecutor ▸ h.later, hsingle, hsuperseded, hfinished, fun x hx => ?_⟩
  rcases List.mem_cons.mp hx with rfl | hx
  · exact ⟨hmode.trans h.mode, hexecutor ▸ h.later, hsingle,
      fun i hi hnot => absurd (htracked.subset hi) hnot⟩
  · exact h.past x hx

theorem Succession.note (h : Succession A s) (e : Event) : Succession A (s.note e) := by
  refine ⟨h.mode, h.later, h.single, h.superseded, fun j hj => ?_, fun x hx => ?_⟩
  · have hs := h.finished j hj
    cases e with
    | began i => exact List.mem_cons_of_mem i hs
    | called i => exact hs
  · rcases List.mem_cons.mp hx with rfl | hx
    · exact ⟨h.mode, h.later, h.single, fun i hi hnot => absurd hi hnot⟩
    · exact h.past x hx

/-- A change of what is tracked or queued, by which only superseded tasks are forgotten. -/
theorem Succession.forget {m : TaskManager κ (Job κ)} (h : Succession [] s)
    (hmode : m.mode = s.now.mode) (hexecutor : m.executor = s.now.executor)
    (htasks : m.tasks = s.now.tasks) (htracked : m.tracked.Sublist s.now.tracked)
    (hgone : ∀ j ∈ s.now.tracked, j ∉ m.tracked → s.now.Superseded j) :
    Succession [] (s.put m) := by
  refine h.put hmode hexecutor htracked (fun j hj hnot _ => ?_) fun j hj => h.finished j ?_
  · refine Superseded.of_tasks ?_ htasks
    by_cases hjs : j ∈ s.now.tracked
    · exact hgone j hjs hnot
    · exact h.superseded j (htasks ▸ hj) hjs List.not_mem_nil
  · rwa [progressOf, task?, htasks] at hj

theorem succession_announced (h : Succession [] s) (hi : s.now.Superseded i) :
    Succession [] (announced s i) := by
  by_cases ht : i ∈ s.now.tracked
  · have hresponse : Succession [] (respond s i) := by
      rw [respond]
      split
      · exact h.note _
      · exact h
    rw [announced_of_mem ht]
    refine hresponse.forget ?_ ?_ ?_ ?_ fun j hj hnot => ?_
    · rw [now_respond]; rfl
    · rw [now_respond]; rfl
    · rw [now_respond]; rfl
    · rw [now_respond]; exact List.erase_sublist
    · rw [now_respond] at hj ⊢
      have hji : j = i := by
        by_contra hne
        exact hnot ((List.mem_erase_of_ne hne).mpr hj)
      exact hji ▸ hi
  · rwa [announced_of_not_mem ht]

theorem superseded_announced (h : s.now.Superseded j) (i : Nat) :
    (announced s i).now.Superseded j := by
  rcases now_announced s i with hn | hn <;> rw [hn]
  · exact h
  · exact h.of_tasks rfl

/-- A flagged task is withdrawn if it waits, and superseded in any case. -/
theorem succession_withdrawn (h : Succession [i] s) (hi : i < s.now.tasks.length)
    (hc : s.now.isCancelled i = true) :
    Succession [] (withdrawn s i) ∧ (withdrawn s i).now.Superseded i := by
  have hothers : ∀ j < s.now.tasks.length, j ∉ s.now.tracked → j ≠ i → s.now.Superseded j :=
    fun j hj hnot hne => h.superseded j hj hnot fun hji => hne (List.mem_singleton.mp hji)
  rw [withdrawn]
  split
  next hw =>
    have hprogress := fun j => s.now.progressOf_setProgress i j .withdrawn hi
    have hself : (s.now.setProgress i .withdrawn).Superseded i :=
      ⟨.inr ((s.now.isCancelled_setProgress i i .withdrawn).trans hc), by simp [hprogress]⟩
    have hput : Succession [] (s.put (s.now.setProgress i .withdrawn)) := by
      refine h.put rfl rfl (.refl _) (fun j hj hnot _ => ?_) fun j hj => h.finished j ?_
      · by_cases hji : j = i
        · exact hji ▸ hself
        · rw [setProgress, length_modifyTask] at hj
          exact (hothers j hj hnot hji).setProgress hi (by simp) fun hij => absurd hij.symm hji
      · rw [hprogress] at hj
        split at hj
        · cases hj
        · exact hj
    exact ⟨succession_announced hput hself, superseded_announced (s := s.put _) hself i⟩
  next hw =>
    have hself : s.now.Superseded i := ⟨.inr hc, hw⟩
    refine ⟨⟨h.mode, h.later, h.single, fun j hj hnot _ => ?_, h.finished, h.past⟩, hself⟩
    by_cases hji : j = i
    · exact hji ▸ hself
    · exact hothers j hj hnot hji

theorem succession_cancelled (h : Succession [] s) (hi : i < s.now.tasks.length) (forget : Bool) :
    Succession [] (withdrawn (s.put (s.now.strike i forget)) i) ∧
      (withdrawn (s.put (s.now.strike i forget)) i).now.Superseded i := by
  have hstrike : Succession [i] (s.put (s.now.strike i forget)) := by
    refine h.put (by cases forget <;> rfl) (by cases forget <;> rfl)
      (s.now.sublist_strike i forget) (fun j hj hnot hne => ?_)
      fun j hj => h.finished j (s.now.progressOf_strike i j forget ▸ hj)
    rw [length_strike] at hj
    refine (h.superseded j hj (fun hjs => hnot ?_) List.not_mem_nil).strike i forget
    rw [tracked_strike]
    split
    · exact (List.mem_erase_of_ne fun he => hne (List.mem_singleton.mpr he)).mpr hjs
    · exact hjs
  exact succession_withdrawn hstrike ((s.now.length_strike i forget).symm ▸ hi)
    (s.now.isCancelled_strike i forget hi)

theorem succession_vacated (h : Succession [] s)
    (hk : ∀ i ∈ s.now.tracked, i < s.now.tasks.length) : Succession [] (vacated s) := by
  have hone := h.single
  rw [vacated]
  rcases ht : s.now.tracked with _ | ⟨i, _ | ⟨j, rest⟩⟩
  · exact h.forget rfl rfl rfl (List.nil_sublist _) fun j hj => absurd (ht ▸ hj) List.not_mem_nil
  · have hi := hk i (by simp [ht])
    obtain ⟨hdismissed, hself⟩ := succession_cancelled h hi false
    refine hdismissed.forget rfl rfl rfl (List.nil_sublist _) fun j hj _ => ?_
    have hji := (clears_dismissed s i).tracked.subset hj
    rw [ht] at hji
    exact List.mem_singleton.mp hji ▸ hself
  · simp [ht] at hone

/-- A task that was taken over where there was room succeeds all others. -/
theorem succession_succeeded (h : Succession [] s)
    (hk : ∀ i ∈ s.now.tracked, i < s.now.tasks.length) (job : Job κ) (owner : Option κ) :
    Succession [] (succeeded s job owner) := by
  obtain ⟨hmode, hlater, _, hsuperseded, hfinished, hpast⟩ := succession_vacated h hk
  have hnone : (vacated s).now.tracked = [] := rfl
  generalize hv : vacated s = v at *
  have hothers : ∀ j < (v.now.accept job owner).tasks.length, j ≠ v.now.tasks.length →
      (v.now.accept job owner).Superseded j := by
    intro j hj hne
    have hlt : j < v.now.tasks.length := by
      simp only [TaskManager.accept, List.length_append, List.length_singleton] at hj
      omega
    exact (hsuperseded j hlt (by simp [hnone]) List.not_mem_nil).accept job owner
  have hended : ∀ j, (v.now.accept job owner).progressOf j = .finished → j ∈ begun v := by
    intro j hj
    rcases v.now.progressOf_accept job owner j with hp | ⟨_, hp⟩
    · exact hfinished j (hp.symm.trans hj)
    · rw [hp] at hj
      cases hj
  have haccepted : Succession [v.now.tasks.length] (v.put (v.now.accept job owner)) :=
    (show Succession [] v from ⟨hmode, hlater, by simp [hnone], hsuperseded, hfinished, hpast⟩).put
      rfl rfl (.refl _) (fun j hj _ hne => hothers j hj fun he => hne (List.mem_singleton.mpr he))
      hended
  rw [succeeded, hv]
  refine ⟨hmode, hlater, by simp [TaskManager.track, TaskManager.accept, hnone],
    fun j hj hnot _ => (hothers j hj fun he => hnot ?_).of_tasks rfl, hended, fun x hx => ?_⟩
  · simp [TaskManager.track, he]
  · rcases List.mem_cons.mp hx with rfl | hx
    · refine ⟨hmode, hlater, by simp [Moment.after, TaskManager.track, TaskManager.accept, hnone],
        fun i hi _ j hj hne => ?_⟩
      have hi' : i = v.now.tasks.length := by
        simpa [Moment.after, TaskManager.track, TaskManager.accept, hnone] using hi
      exact (hothers j hj (hi' ▸ hne)).of_tasks rfl
    · exact haccepted.past x hx

/-- A submission of a history hands a task over, and what it changes is part of the history. -/
structure Submission (m₀ : TaskManager κ (Job κ)) (u s t : Chronicle κ) (i : Nat) : Prop where
  begins : Passes m₀ s u
  leads : ∃ f job owner, ((runner f).submit job owner).outcome s = (.ok i, t)
  past : t.Extends u

/-- What is new was submitted in the meantime. -/
structure Follows (m₀ : TaskManager κ (Job κ)) (s t : Chronicle κ) : Prop where
  past : s.Extends t
  submitted : ∀ i < t.now.tasks.length, s.now.tasks.length ≤ i → ∃ a b, Submission m₀ t a b i

instance (m₀ : TaskManager κ (Job κ)) : IsPreorder (Chronicle κ) (Follows m₀) where
  refl s := ⟨refl_of Traced.Extends s, fun _ hi hle => absurd hi (Nat.not_lt.mpr hle)⟩
  trans s t u h h' := by
    refine ⟨trans_of Traced.Extends h.past h'.past, fun i hi hle => ?_⟩
    rcases Nat.lt_or_ge i t.now.tasks.length with hit | hit
    · obtain ⟨a, b, hab⟩ := h.submitted i hit hle
      exact ⟨a, b, ⟨hab.begins.linked, trans_of Traced.Extends hab.begins.past h'.past⟩, hab.leads,
        trans_of Traced.Extends hab.past h'.past⟩
    · exact h'.submitted i hi hit

theorem Follows.of_length (h : s.Extends t) (hcount : t.now.tasks.length = s.now.tasks.length) :
    Follows m₀ s t :=
  ⟨h, fun _ hi hle => absurd (hcount ▸ hi) (Nat.not_lt.mpr hle)⟩

/-- What holds whenever a program is in control, in sequential mode. -/
structure InTurn (m₀ : TaskManager κ (Job κ)) (s : Chronicle κ) : Prop where
  sound : Sound m₀ s
  frugal : tally.Frugal s
  succession : Succession [] s

theorem InTurn.followed (h : InTurn m₀ s) (hadvances : Advances m₀ s t)
    (hsteady : tally.Steady s t) (hsuccession : Succession [] t) :
    InTurn m₀ t ∧ Follows m₀ s t := by
  obtain ⟨hsound, hgrows⟩ := hadvances h.sound
  exact ⟨⟨hsound, (hsteady.prudent h.frugal).1, hsuccession⟩,
    .of_length hgrows.past (by
      have hworks := congrArg List.length hsteady.works
      rwa [length_works, length_works] at hworks)⟩

abbrev Goes (m₀ : TaskManager κ (Job κ)) : Chronicle κ → Chronicle κ → Prop :=
  Effect.During (InTurn m₀) (Follows m₀)

theorem cancel_goes (i : Nat) (forget : Bool) :
    ((runner f).cancel i forget).Respects (Goes m₀) := by
  intro s h
  refine h.followed (cancel_advances i forget s) (runner_mild.cancel i forget s) ?_
  by_cases hi : i ∈ s.now.tracked
  · rw [outcome_cancel_tracked hi]
    exact (succession_cancelled h.succession (h.sound.watching.known i hi) forget).1
  · have ht : s.now.isTracked i = false := by
      rw [← Bool.not_eq_true, isTracked_iff]
      exact hi
    rw [TaskRunner.cancel, Effect.outcome_bind_ok (Part.outcome_read _ _), get_runner, ht]
    exact h.succession

theorem cancelOwned_goes [DecidableEq κ] (owner : Option κ) :
    ((runner f).cancelOwned owner).Respects (Goes m₀) :=
  .bind (.read _) fun _ => .bind (.forM _ fun i _ => cancel_goes i true) fun _ => .pure _

theorem clear_goes : (runner f).clear.Respects (Goes m₀) := by
  intro s h
  refine h.followed (clear_advances s) (runner_mild.clear s) ?_
  rw [outcome_clear h.succession.single]
  exact succession_vacated h.succession h.sound.watching.known

/-- Tasks that keep to what all tasks keep to, in whatever mode. -/
structure Reliable (m₀ : TaskManager κ (Job κ)) (f : Program κ → Effect (Chronicle κ) Unit) :
    Prop where
  advances : ∀ p, (f p).Respects (Advances m₀)
  prudent : ∀ p, (f p).Respects (tally.Prudent [])

theorem submit_goes (hr : Reliable m₀ f) (job : Job κ) (owner : Option κ) :
    ((runner f).submit job owner).Respects (Goes m₀) := by
  intro s h
  have hk := h.sound.watching.known
  have hclears := clears_vacated s
  have hout := outcome_submit (f := f) h.succession.mode h.succession.single
    (hclears.executor ▸ h.succession.later) job owner
  obtain ⟨hsound, hgrows⟩ := submit_advances hr.advances job owner s h.sound
  obtain ⟨hfrugal, _⟩ := TaskRunner.submit_prudent (runner_honest hr.prudent) owner trivial h.frugal
  have hlast : (((runner f).submit job owner).outcome s).2 = succeeded s job owner := by rw [hout]
  rw [hlast] at hsound hgrows hfrugal ⊢
  refine ⟨⟨hsound, hfrugal, succession_succeeded h.succession hk job owner⟩, hgrows.past,
    fun i hi hle => ?_⟩
  have hi' : i = (vacated s).now.tasks.length := by
    have hcount := hclears.count
    simp only [succeeded, Traced.now_put, TaskManager.track, TaskManager.accept,
      List.length_append, List.length_singleton] at hi
    omega
  exact ⟨s, succeeded s job owner, ⟨h.sound.linked, hgrows.past⟩, ⟨f, job, owner, hi' ▸ hout⟩,
    refl_of Traced.Extends _⟩

/-- The work of a task that is known: it begins, it is carried out, and its end is announced. -/
theorem outcome_execute {task : Task κ (Job κ)} (ht : s.now.task? i = some task)
    (hu : ((f task.work.work).outcome
      ((s.put (s.now.setProgress i .running)).note (.began i))).2 = u) :
    ((runner f).execute i).outcome s =
      (.ok (), announced (u.put (u.now.setProgress i .finished)) i) := by
  have hperform : ((((runner f).perform i task.work).quietly).outcome
      (s.put (s.now.setProgress i .running))) = (.ok (), u) := congrArg (Prod.mk _) hu
  rw [TaskRunner.execute, Effect.outcome_bind_ok (Part.outcome_read _ _), get_runner, ht]
  dsimp only
  rw [Effect.outcome_bind_ok (outcome_update_runner f _ _), Effect.outcome_bind_ok hperform,
    Effect.outcome_bind_ok (outcome_update_runner f _ _), outcome_announce]

/-- A task begins that was not run before. It is not finished, so it is flagged if it is not
tracked. -/
theorem InTurn.begins (h : InTurn m₀ s) (hready : tally.Ready i s)
    (hi : s.now.progressOf i ≠ .withdrawn) :
    InTurn m₀ ((s.put (s.now.setProgress i .running)).note (.began i)) := by
  have hlt : i < s.now.tasks.length := (length_works s.now) ▸ hready.lt
  have hprogress := fun j => s.now.progressOf_setProgress i j .running hlt
  have hsound := (advances_put (Quiet.setRunning hi) h.sound).1
  have hsteady : tally.Steady s (s.put (s.now.setProgress i .running)) :=
    Tally.steady_map (M := Traced.part .whole) (f := (·.setProgress i .running))
      (works_setProgress s.now i .running) (.refl _)
  obtain ⟨hfrugal, hspends⟩ := hsteady.prudent h.frugal
  have hrunning : (s.put (s.now.setProgress i .running)).now.progressOf i = .running := by
    simp [hprogress]
  have hput : Succession [] (s.put (s.now.setProgress i .running)) := by
    refine h.succession.put rfl rfl (.refl _) (fun j hj hnot _ => ?_) fun j hj => ?_
    · rw [setProgress, length_modifyTask] at hj
      refine (h.succession.superseded j hj hnot List.not_mem_nil).setProgress hlt (by simp)
        fun hij => .inr fun hend => hready.unused ?_
      exact hij ▸ h.succession.finished j hend
    · rw [hprogress] at hj
      split at hj
      · cases hj
      · exact h.succession.finished j hj
  exact ⟨(advances_began hrunning hsound).1,
    (note_began_prudent (hready.later hspends List.not_mem_nil) hfrugal).1, hput.note _⟩

/-- A task that has begun ends. -/
theorem succession_ended (h : Succession [] s) (hi : i ∈ begun s) (hlt : i < s.now.tasks.length) :
    Succession [] (announced (s.put (s.now.setProgress i .finished)) i) := by
  have hprogress := fun j => s.now.progressOf_setProgress i j .finished hlt
  have hself : (s.now.setProgress i .finished).Superseded i :=
    ⟨.inl (by simp [hprogress]), by simp [hprogress]⟩
  refine succession_announced (h.put rfl rfl (.refl _) (fun j hj hnot _ => ?_) fun j hj => ?_) hself
  · rw [setProgress, length_modifyTask] at hj
    exact (h.superseded j hj hnot List.not_mem_nil).setProgress hlt (by simp) fun _ => .inl rfl
  · rw [hprogress] at hj
    split at hj
    next hij => exact hij ▸ hi
    next => exact h.finished j hj

theorem execute_goes (hf : ∀ p, (f p).Respects (Goes m₀)) (hr : Reliable m₀ f)
    (hready : tally.Ready i s) (hi : s.now.progressOf i ≠ .withdrawn) :
    Goes m₀ s (((runner f).execute i).outcome s).2 := by
  intro h
  obtain ⟨hsound, -⟩ := execute_advances hr.advances hi h.sound
  obtain ⟨hfrugal, -⟩ := TaskRunner.execute_prudent (runner_honest hr.prudent) hready h.frugal
  have hlt : i < s.now.tasks.length := (length_works s.now) ▸ hready.lt
  have hstart : Follows m₀ s ((s.put (s.now.setProgress i .running)).note (.began i)) :=
    .of_length (((refl_of Traced.Extends s).put _).note _) (s.now.length_modifyTask ..)
  obtain ⟨task, ht⟩ : ∃ task, s.now.task? i = some task := ⟨_, List.getElem?_eq_getElem hlt⟩
  obtain ⟨hlast, hfollows⟩ := hf task.work.work _ (h.begins hready hi)
  rw [outcome_execute ht rfl] at hsound hfrugal ⊢
  generalize ((f task.work.work).outcome _).2 = u at *
  have hbegun : i ∈ begun u := List.mem_filterMap.mpr
    ⟨.began i, hfollows.past.events List.mem_cons_self, rfl⟩
  have hltu : i < u.now.tasks.length := length_works u.now ▸ (hlast.frugal.usedGone i hbegun).1
  have hend := clears_announced (u.put (u.now.setProgress i .finished)) i
  have hrest : Follows m₀ u (announced (u.put (u.now.setProgress i .finished)) i) :=
    .of_length (trans_of Traced.Extends ((refl_of Traced.Extends u).put _) hend.past)
      (hend.count.trans (u.now.length_modifyTask ..))
  exact ⟨⟨hsound, hfrugal, succession_ended hlast.succession hbegun hltu⟩,
    trans_of (Follows m₀) hstart (trans_of (Follows m₀) hfollows hrest)⟩

theorem runTaken_goes (hf : ∀ p, (f p).Respects (Goes m₀)) (hr : Reliable m₀ f)
    (hready : tally.Ready i s) : Goes m₀ s (((runner f).runTaken i).outcome s).2 := by
  rw [TaskRunner.runTaken, Effect.outcome_bind_ok (Part.outcome_read _ _), get_runner]
  split
  next hi => exact execute_goes hf hr hready (by simpa using hi)
  next => exact refl_of (Goes m₀) s

/-- The executor runs what it took off its queue, one task after the other. -/
theorem runAll_goes (hf : ∀ p, (f p).Respects (Goes m₀)) (hr : Reliable m₀ f) {is : List Nat}
    (hn : is.Nodup) (hready : ∀ i ∈ is, tally.Ready i s) :
    Goes m₀ s ((is.forM (runner f).runTaken).outcome s).2 := by
  induction is generalizing s with
  | nil => exact refl_of (Goes m₀) s
  | cons i is ih =>
    obtain ⟨hni, hn⟩ := List.nodup_cons.mp hn
    intro h
    have hfirst := runTaken_goes hf hr (hready i List.mem_cons_self)
    have hspends := (TaskRunner.runTaken_prudent (runner_honest hr.prudent)
      (hready i List.mem_cons_self) h.frugal).2
    rw [Effect.forM_cons]
    refine Effect.related_bind (P := Goes m₀) hfirst (fun _ t ht => ?_) h
    rw [ht] at hspends
    exact ih hn fun j hj => (hready j (List.mem_cons_of_mem i hj)).later hspends
      fun hji => hni (List.mem_singleton.mp hji ▸ hj)

theorem setQueue_goes (q : List Nat) (hq : q.Sublist s.now.queue) :
    Goes m₀ s (s.put { s.now with queue := q }) := fun h =>
  h.followed (advances_put (Quiet.setQueue s.now q)) (Tally.steady_map (M := Traced.part .whole)
    (f := fun m => { m with queue := q }) rfl hq)
    (h.succession.forget rfl rfl rfl (.refl _) fun _ hj hnot => absurd hj hnot)

theorem runQueued_goes (hf : ∀ p, (f p).Respects (Goes m₀)) (hr : Reliable m₀ f) :
    (runner f).runQueued.Respects (Goes m₀) := by
  intro s h
  have hready : ∀ i ∈ s.now.queue, tally.Ready i (s.put { s.now with queue := [] }) :=
    fun i hi => Tally.ready_of_taken h.frugal hi List.not_mem_nil
  rw [TaskRunner.runQueued_eq, Effect.outcome_bind_ok (Part.outcome_read _ _), get_runner,
    Effect.outcome_bind_ok (outcome_update_runner f _ _)]
  exact trans_of (Goes m₀) (setQueue_goes [] (List.nil_sublist _))
    (runAll_goes hf hr h.frugal.queueOnce hready) h

theorem runOne_goes (hf : ∀ p, (f p).Respects (Goes m₀)) (hr : Reliable m₀ f) (i : Nat) :
    ((runner f).runOne i).Respects (Goes m₀) := by
  intro s h
  rw [TaskRunner.runOne, Effect.outcome_bind_ok (Part.outcome_read _ _), get_runner]
  split
  next hi =>
    have hready : tally.Ready i (s.put { s.now with queue := s.now.queue.erase i }) :=
      Tally.ready_of_taken h.frugal hi (List.Nodup.not_mem_erase h.frugal.queueOnce)
    rw [Effect.outcome_bind_ok (outcome_update_runner f _ _)]
    exact trans_of (Goes m₀) (setQueue_goes _ List.erase_sublist) (runTaken_goes hf hr hready) h
  next => exact refl_of (Goes m₀) s h

variable [DecidableEq κ]

theorem perform_goes (depth : Nat) (p : Program κ) : (perform depth p).Respects (Goes m₀) := by
  induction depth generalizing p with
  | zero => exact .throw _
  | succ depth ih =>
    have hr : Reliable m₀ (perform (κ := κ) depth) :=
      ⟨perform_advances depth, perform_prudent depth⟩
    exact Program.respects (submit_goes hr) cancel_goes cancelOwned_goes clear_goes
      (runQueued_goes ih hr) (runOne_goes ih hr) p

omit [DecidableEq κ] in
theorem inTurn_start {executor : Executor} (he : executor ≠ .immediate) :
    InTurn (.make .sequential executor)
      (.start (.make .sequential executor) : Chronicle κ) := by
  refine ⟨sound_start _ _, tally_frugal_start _ _, rfl, he, by simp [make, Traced.start],
    ?_, ?_, ?_⟩
  · simp [make, Traced.start]
  · simp [make, Traced.start, progressOf, task?]
  · simp [Traced.start]

/-- A task takes the place of all earlier ones: when its submission returns, they are finished or
asked to end, and those that could still be withdrawn when it was called never begin. -/
structure Supersedes (u s t : Chronicle κ) (i : Nat) : Prop where
  newest : i = s.now.tasks.length
  spent : ∀ j < i, t.now.progressOf j = .finished ∨ t.now.isCancelled j = true
  never : ∀ j < i, s.now.progressOf j = .waiting → j ∉ begun u

/-- In sequential mode, if the executor does not run tasks inside of their submission, one task is
tracked at most at any moment of a run, whatever the tasks do to the manager while they run. All
tasks come from submissions, and each submission supersedes the tasks before it. -/
theorem run_succeeds {executor : Executor} (he : executor ≠ .immediate) (depth : Nat)
    (p : Program κ) {u : Chronicle κ} (hu : u = run .sequential executor depth p) :
    (∀ x ∈ u.history, x.after.tracked.length ≤ 1) ∧
      (∀ i < u.now.tasks.length, ∃ s t, Submission (.make .sequential executor) u s t i) ∧
      ∀ s t i, Submission (.make .sequential executor) u s t i → Supersedes u s t i := by
  obtain ⟨hlast, hfollows⟩ := perform_goes depth p _ (inTurn_start (κ := κ) he)
  have horderly := run_orderly .sequential executor depth p
  rw [← run, ← hu] at hlast hfollows
  rw [← hu] at horderly
  have hpast := hlast.succession.past
  refine ⟨fun x hx => (hpast x hx).single, fun i hi => hfollows.submitted i hi (Nat.zero_le i), ?_⟩
  rintro s t i ⟨hpasses, ⟨f, job, owner, hout⟩, htu⟩
  obtain ⟨hmode, hlater, hsingle⟩ := hpasses.of_history
    (p := fun m => m.mode = .sequential ∧ m.executor ≠ .immediate ∧ m.tracked.length ≤ 1)
    ⟨rfl, he, Nat.zero_le 1⟩ fun x hx =>
      ⟨(hpast x hx).mode, (hpast x hx).later, (hpast x hx).single⟩
  have hclears := clears_vacated s
  rw [outcome_submit hmode hsingle (hclears.executor ▸ hlater)] at hout
  obtain ⟨hi, rfl⟩ := Prod.mk.inj hout
  have hi := (Except.ok.inj hi).symm
  -- the latest change of the submission is the one that tracks the task
  obtain ⟨x, hx, hafter, hbefore⟩ : ∃ x ∈ u.history, x.after = (succeeded s job owner).now ∧
      x.before.tracked = [] :=
    ⟨_, htu.subset List.mem_cons_self, rfl, rfl⟩
  have hothers : ∀ j < i, (succeeded s job owner).now.Superseded j := by
    intro j hj
    rw [← hafter]
    refine (hpast x hx).succeeds i ?_ (by simp [hbefore]) j ?_ (Nat.ne_of_lt hj)
    · simp [hafter, succeeded, TaskManager.track, hi]
    · rw [hafter]
      simp only [succeeded, Traced.now_put, TaskManager.track, TaskManager.accept,
        List.length_append]
      omega
  refine ⟨hi.trans hclears.count, fun j hj => (hothers j hj).spent, fun j hj hw => ?_⟩
  have hprogress : (succeeded s job owner).now.progressOf j = (vacated s).now.progressOf j :=
    (vacated s).now.progressOf_accept_of_lt job owner (hi ▸ hj)
  rcases hclears.progress j with hp | ⟨-, hp⟩
  · exact absurd (hprogress.trans (hp.trans hw)) (hothers j hj).gone
  · exact horderly.withdrawn x hx j (hafter ▸ hprogress.trans hp)

/-- A task that waits is given up for another one, which submits its own successor. -/
def heirs : Program Nat :=
  .submit (.stop false) (some false) none fun _ =>
    .submit (.submit (.stop false) none (some 7) fun _ => .stop false) none none fun _ =>
      .runQueued fun _ => .stop false

/-- The task in the middle was still running when it was superseded. -/
theorem heirs_succeed : ∃ s t, Submission (.make .sequential .deferred)
      (run .sequential .deferred 3 heirs) s t 2 ∧
    Supersedes (run .sequential .deferred 3 heirs) s t 2 ∧
    begun (run .sequential .deferred 3 heirs) = [1] ∧
    (run .sequential .deferred 3 heirs).now.tracked = [2] := by
  have he : Executor.deferred ≠ .immediate := by decide
  obtain ⟨-, hsubmitted, hsupersedes⟩ := run_succeeds he 3 heirs rfl
  obtain ⟨s, t, hst⟩ := hsubmitted 2 (by decide)
  exact ⟨s, t, hst, hsupersedes s t 2 hst, by decide, by decide⟩

end TaskHistory

end DebugDesk
