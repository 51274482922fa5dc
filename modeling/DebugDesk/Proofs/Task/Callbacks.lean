import DebugDesk.Proofs.Task.Announcing

/-!
# Callbacks of tasks

Every call of a task manager leads from one state in which no tracked task is over to another, and
so does every program, whatever the tasks do to the manager while they run. The history of a program
therefore tells of every task when it was run, when it was called, and why.
-/
namespace DebugDesk.TaskHistory

open TaskManager

variable {κ : Type} {m₀ : TaskManager κ (Job κ)} {s t : Chronicle κ} {i : Nat}
  {f : Program κ → Effect (Chronicle κ) Unit}

theorem get_runner (f : Program κ → Effect (Chronicle κ) Unit) (s : Chronicle κ) :
    (runner f).manager.get s = s.now := rfl

theorem outcome_update_runner (f : Program κ → Effect (Chronicle κ) Unit)
    (g : TaskManager κ (Job κ) → TaskManager κ (Job κ)) (s : Chronicle κ) :
    ((runner f).manager.update g).outcome s = (.ok (), s.put (g s.now)) := rfl

theorem update_advances {g : TaskManager κ (Job κ) → TaskManager κ (Job κ)}
    (hg : ∀ m, Quiet m (g m)) : ((runner f).manager.update g).Respects (Advances m₀) :=
  fun _ => advances_put (hg _)

theorem withdraw_advances (hi : i < s.now.tasks.length) :
    Advances m₀ s (((runner f).withdraw i).outcome s).2 := by
  intro h
  rw [TaskRunner.withdraw, Effect.outcome_bind_ok (Part.outcome_read _ _), get_runner]
  split
  next hw =>
    rw [Effect.outcome_bind_ok (outcome_update_runner f _ _), outcome_announce]
    have hgrows : Grows s (s.put (s.now.setProgress i .withdrawn)) :=
      (Grows.refl s).put (Nat.le_of_eq (s.now.length_modifyTask ..).symm) fun _ _ hj => hj
    exact ⟨(h.ending hi (.inr rfl) (.inr (.inl hw))).sound, hgrows.announced⟩
  next => exact ⟨h, .refl s⟩

theorem cancel_advances (i : Nat) (forget : Bool) :
    ((runner f).cancel i forget).Respects (Advances m₀) := by
  intro s h
  rw [TaskRunner.cancel, Effect.outcome_bind_ok (Part.outcome_read _ _), get_runner]
  cases ht : s.now.isTracked i with
  | false => exact ⟨h, .refl s⟩
  | true =>
    have hi := h.watching.known i (isTracked_iff.mp ht)
    have hstrike : Advances m₀ s _ := advances_put (Quiet.strike s.now i forget)
    have hlt : i < (s.put (s.now.strike i forget)).now.tasks.length := by
      simpa only [Traced.now_put, length_strike] using hi
    exact trans_of (Advances m₀) hstrike (withdraw_advances (f := f) hlt) h

theorem cancelOwned_advances [DecidableEq κ] (owner : Option κ) :
    ((runner f).cancelOwned owner).Respects (Advances m₀) :=
  .bind (.read _) fun _ => .bind (.forM _ fun i _ => cancel_advances i true) fun _ => .pure _

theorem clear_advances : (runner f).clear.Respects (Advances m₀) :=
  .bind (.read _) fun _ => .bind (.forM _ fun i _ => cancel_advances i false) fun _ =>
    update_advances .forgetAll

/-- Once the work of a task has begun, it is running or finished until it ends. -/
theorem execute_advances (hf : ∀ p, (f p).Respects (Advances m₀))
    (hi : s.now.progressOf i ≠ .withdrawn) :
    Advances m₀ s (((runner f).execute i).outcome s).2 := by
  intro h
  rw [TaskRunner.execute, Effect.outcome_bind_ok (Part.outcome_read _ _), get_runner]
  cases ht : s.now.task? i with
  | none => exact ⟨h, .refl s⟩
  | some t =>
    have hlt : i < s.now.tasks.length := (List.getElem?_eq_some_iff.mp ht).1
    have hrunning : (s.put (s.now.setProgress i .running)).now.progressOf i = .running := by
      simp [s.now.progressOf_setProgress i i .running hlt]
    obtain ⟨hs₁, hg₁⟩ := advances_put (Quiet.setRunning hi) h
    obtain ⟨hs₂, hg₂⟩ := advances_began hrunning hs₁
    obtain ⟨hs₃, hg₃⟩ := hf t.work.work _ hs₂
    have hperform : ((((runner f).perform i t.work).quietly).outcome
        (s.put (s.now.setProgress i .running))) =
        (.ok (), ((f t.work.work).outcome
          ((s.put (s.now.setProgress i .running)).note (.began i))).2) := rfl
    dsimp only
    rw [Effect.outcome_bind_ok (outcome_update_runner f _ _), Effect.outcome_bind_ok hperform,
      Effect.outcome_bind_ok (outcome_update_runner f _ _), outcome_announce]
    generalize ((f t.work.work).outcome _).2 = u at hs₃ hg₃
    have hbegun : i ∈ begun u := List.mem_filterMap.mpr
      ⟨.began i, hg₃.past.events List.mem_cons_self, rfl⟩
    have hmay : MayBecome (u.now.progressOf i) .finished := by
      rcases hs₃.working.launched i hbegun with hp | hp <;> rw [hp]
      · exact .inr (.inr ⟨by simp, .inr rfl⟩)
      · exact .inl rfl
    have hgrows := (hg₁.trans hg₂).trans hg₃
    have hfinished : Grows s (u.put (u.now.setProgress i .finished)) :=
      hgrows.put (Nat.le_of_eq (u.now.length_modifyTask ..).symm) fun _ _ hj => hj
    exact ⟨(hs₃.ending (Nat.lt_of_lt_of_le hlt hgrows.count) (.inl rfl) hmay).sound,
      hfinished.announced⟩

theorem runTaken_advances (hf : ∀ p, (f p).Respects (Advances m₀)) (i : Nat) :
    ((runner f).runTaken i).Respects (Advances m₀) := by
  intro s
  rw [TaskRunner.runTaken, Effect.outcome_bind_ok (Part.outcome_read _ _), get_runner]
  split
  next hi => exact execute_advances hf (by simpa using hi)
  next => exact fun h => ⟨h, .refl s⟩

theorem runQueued_advances (hf : ∀ p, (f p).Respects (Advances m₀)) :
    (runner f).runQueued.Respects (Advances m₀) := by
  rw [TaskRunner.runQueued_eq]
  exact .bind (.read _) fun _ => .bind (update_advances fun m => .setQueue m []) fun _ =>
    .forM _ fun i _ => runTaken_advances hf i

theorem runOne_advances (hf : ∀ p, (f p).Respects (Advances m₀)) (i : Nat) :
    ((runner f).runOne i).Respects (Advances m₀) := by
  refine .bind (.read _) fun m => ?_
  split
  · exact .bind (update_advances fun m => .setQueue m (m.queue.erase i)) fun _ =>
      runTaken_advances hf i
  · exact .pure _

theorem makeRoom_advances : (runner f).makeRoom.Respects (Advances m₀) := by
  refine .bind (.read _) fun m => ?_
  split
  · exact clear_advances
  · exact .pure _

/-- A new task was neither tracked nor called. -/
structure Unheard (s : Chronicle κ) (i : Nat) : Prop where
  lt : i < s.now.tasks.length
  untracked : i ∉ s.now.tracked
  uncalled : i ∉ called s
  kept : ∀ x ∈ s.history, ¬LetsGo x i

theorem Unheard.grows (h : Unheard s i) (hg : Grows s t) : Unheard t i := by
  obtain ⟨ht, hc, hl⟩ := hg.still i h.lt h.untracked
  refine ⟨Nat.lt_of_lt_of_le h.lt hg.count, ht, fun hi => h.uncalled (hc hi), fun x hx hgo => ?_⟩
  obtain ⟨y, hy, hgo⟩ := hl ⟨x, hx, hgo⟩
  exact h.kept y hy hgo

theorem unheard_accept (h : Sound m₀ s) (job : Job κ) (owner : Option κ) :
    Unheard (s.put (s.now.accept job owner)) s.now.tasks.length := by
  have hnew : s.now.tasks.length ∉ s.now.tracked :=
    fun hi => Nat.lt_irrefl _ (h.watching.known _ hi)
  refine ⟨by simp [TaskManager.accept], hnew, fun hi => ?_, fun x hx hgo => ?_⟩
  · exact Nat.lt_irrefl _ (h.watching.answered _ hi).1
  · rcases List.mem_cons.mp hx with rfl | hx
    · exact hnew hgo.1
    · exact Nat.lt_irrefl _ (h.watching.letGo x hx _ hgo).1

/-- A new task is tracked, and announced at once if it is over. -/
theorem enroll_advances (hi : Unheard t i) (hg : Grows s t) (hs : s.now.tasks.length ≤ i)
    (h : Sound m₀ t) : Sound m₀ (((runner f).enroll i).outcome t).2 ∧
      Grows s (((runner f).enroll i).outcome t).2 := by
  have hkept := h.kept_track hi.lt hi.untracked hi.uncalled hi.kept
  have hgrows : Grows s (t.put (t.now.track i)) := by
    refine hg.put (Nat.le_refl _) fun j hj hjt => ?_
    rcases List.mem_append.mp hjt with hjt | hji
    · exact hjt
    · exact absurd (List.mem_singleton.mp hji ▸ hj) (Nat.not_lt.mpr hs)
  rw [TaskRunner.enroll, Effect.outcome_bind_ok (outcome_update_runner f _ _),
    Effect.outcome_bind_ok (Part.outcome_read _ _), get_runner]
  split
  next hover =>
    rw [outcome_announce]
    have hending : Ending m₀ (t.put (t.now.track i)) i :=
      ⟨hkept, hover, fun j hj => h.due_track hj, _, _, rfl⟩
    exact ⟨hending.sound, hgrows.announced⟩
  next hover =>
    refine ⟨⟨hkept, fun j hj => ?_, by simp⟩, hgrows⟩
    obtain rfl := h.due_track hj
    exact hover hj.2

theorem submit_advances (hf : ∀ p, (f p).Respects (Advances m₀)) (job : Job κ)
    (owner : Option κ) : ((runner f).submit job owner).Respects (Advances m₀) := by
  rw [TaskRunner.submit_eq]
  refine .bind makeRoom_advances fun _ => ?_
  intro s h
  rw [Effect.outcome_bind_ok (Part.outcome_read _ _), get_runner,
    Effect.outcome_bind_ok (outcome_update_runner f _ _)]
  obtain ⟨hs, hg⟩ := advances_put (Quiet.accept s.now job owner) h
  have hnew := unheard_accept h job owner
  have hrun : Advances m₀ (s.put (s.now.accept job owner))
      (((runner f).runAtOnce s.now.executor s.now.tasks.length).outcome
        (s.put (s.now.accept job owner))).2 := by
    rw [TaskRunner.runAtOnce]
    split
    · refine execute_advances hf fun hw => ?_
      have hp := withdrawn_of_accept hw
      exact Nat.lt_irrefl _ (lt_of_progressOf_ne (m := s.now) (by simp [hp]))
    · exact fun h => ⟨h, .refl _⟩
  obtain ⟨hs', hg'⟩ := hrun hs
  refine Effect.after_bind (p := fun u => Sound m₀ u ∧ Grows s u) ⟨hs', hg.trans hg'⟩
    fun _ u hu => ?_
  rw [hu] at hs' hg'
  have henroll := enroll_advances (f := f) (hnew.grows hg') (hg.trans hg') (Nat.le_refl _) hs'
  exact Effect.after_bind (p := fun u => Sound m₀ u ∧ Grows s u) henroll fun _ v hv => by
    rw [hv] at henroll
    exact henroll

variable [DecidableEq κ]

theorem perform_advances (depth : Nat) (p : Program κ) :
    (perform depth p).Respects (Advances m₀) := by
  induction depth generalizing p with
  | zero => exact .throw _
  | succ depth ih =>
    exact Program.respects (submit_advances ih) cancel_advances cancelOwned_advances clear_advances
      (runQueued_advances ih) (runOne_advances ih) p

omit [DecidableEq κ] in
theorem sound_start (mode : TaskMode) (executor : Executor) :
    Sound (.make mode executor) (.start (.make mode executor) : Chronicle κ) := by
  refine ⟨⟨.start _, ⟨by simp [begun], by simp [Traced.start]⟩, ?_, trivial⟩, fun i hi => ?_,
    by simp [Traced.start]⟩
  · exact ⟨.nil, by simp [Traced.start, make], by simp [called], .nil, by simp [Traced.start],
      by simp [Traced.start]⟩
  · exact absurd hi.1 List.not_mem_nil

theorem run_sound (mode : TaskMode) (executor : Executor) (depth : Nat) (p : Program κ) :
    Sound (.make mode executor) (run mode executor depth p) :=
  (perform_advances depth p _ (sound_start mode executor)).1

/-- What follows when a task is due, latest first: it is forgotten after its callback, if there is
one, was called. -/
def ending (m : TaskManager κ (Job κ)) (i : Nat) : List (Moment (TaskManager κ (Job κ)) Event) :=
  .changed m (m.untrack i) :: if hasCallback m i then [.noted (.called i) m] else []

/-- What the history of a task manager tells of its tasks. -/
structure Orderly (m₀ : TaskManager κ (Job κ)) (s : Chronicle κ) : Prop where
  linked : s.Linked m₀
  /-- The work of a task is run once at most, -/
  begunOnce : (begun s).Nodup
  /-- and not at all if the task is withdrawn at some time. -/
  withdrawn : ∀ x ∈ s.history, ∀ i, x.after.progressOf i = .withdrawn → i ∉ begun s
  /-- The callback of a task is called once at most, -/
  calledOnce : (called s).Nodup
  /-- in answer to its end while it is tracked, and then the task is forgotten, -/
  answers : ∀ later m m' past i, s.history = later ++ .changed m m' :: past → m'.IsDue i →
    Ends m m' i ∧ ending m' i <:+ later ∧ i ∉ (m'.untrack i).tracked
  /-- and at no other time. -/
  calls : ∀ later i m past, s.history = later ++ .noted (.called i) m :: past →
    hasCallback m i = true ∧ ∃ m' rest, past = .changed m' m :: rest ∧ Ends m' m i
  /-- A task that was forgotten before its end is not called at all. -/
  forgotten : ∀ x ∈ s.history, ∀ i, LetsGo x i → (x.before.progressOf i).isOver = false →
    i ∉ called s

omit [DecidableEq κ] in
/-- The end of a tracked task is answered before a program is in control again. -/
theorem ending_suffix (h : Sound m₀ s) {later past : List (Moment (TaskManager κ (Job κ)) Event)}
    {m m' : TaskManager κ (Job κ)} (hs : s.history = later ++ .changed m m' :: past)
    (hi : m'.IsDue i) : ending m' i <:+ later := by
  have htold := h.told
  rw [hs] at htold
  rcases List.eq_nil_or_concat later with rfl | ⟨rest, y, rfl⟩
  · obtain rfl := h.now_of_changed hs
    exact absurd hi (h.calm i)
  · rw [List.concat_eq_append, List.append_assoc, List.singleton_append] at htold hs
    rw [List.concat_eq_append]
    have hy : y = reaction m' i := htold.of_split.reacts m m' past i rfl hi
    unfold reaction at hy
    unfold ending
    split at hy
    next hc =>
      rw [if_pos hc]
      subst hy
      rcases List.eq_nil_or_concat rest with rfl | ⟨rest, z, rfl⟩
      · exact absurd hs (h.rests i m' _)
      · rw [List.concat_eq_append, List.append_assoc, List.singleton_append] at htold
        obtain rfl := htold.of_split.forgets i m' _ rfl
        exact ⟨rest, by simp⟩
    next hc =>
      rw [if_neg hc, hy]
      exact List.suffix_append _ _

/-- Whatever a program does with a new task manager, its tasks are run, called and forgotten in
order. -/
theorem run_orderly (mode : TaskMode) (executor : Executor) (depth : Nat) (p : Program κ) :
    Orderly (.make mode executor) (run mode executor depth p) := by
  have h := run_sound mode executor depth p
  refine ⟨h.linked, begun_nodup mode executor depth p, fun x hx i hw hi => ?_,
    h.watching.calledOnce, fun later m m' past i hs hi => ⟨?_, ending_suffix h hs hi, ?_⟩,
    fun later i m past hs => ?_, fun x hx i hgo hearly => (h.watching.letGo x hx i hgo).2.2 hearly⟩
  · have hnow := h.working.withdrawn x hx i hw
    rcases h.working.launched i hi with hp | hp <;>
    · rw [hp] at hnow
      cases hnow
  · have htold := h.told
    rw [hs] at htold
    exact htold.of_split.ends m m' i rfl hi
  · have honce := h.watching.pastOnce (.changed m m') (by simp [hs])
    exact fun hm => absurd hm (List.Nodup.not_mem_erase honce)
  · have htold := h.told
    rw [hs] at htold
    obtain ⟨hdue, hcallback, m', rest, rfl⟩ := htold.of_split.calls i m rfl
    have hx : Told (.changed m' m) rest := by
      rw [show later ++ .noted (.called i) m :: .changed m' m :: rest =
        (later ++ [.noted (.called i) m]) ++ .changed m' m :: rest by simp] at htold
      exact htold.of_split
    exact ⟨hcallback, m', rest, rfl, hx.ends m' m i rfl hdue⟩

/-- A task whose work and callback fail is run, called and forgotten. -/
example (s : Chronicle Nat) (hs : s = run .concurrent .deferred 2
    (.submit (.stop true) (some true) none fun _ => .runQueued fun _ => .stop false)) :
    begun s = [0] ∧ called s = [0] ∧ s.now.tracked = [] := by
  subst hs
  decide

end DebugDesk.TaskHistory
