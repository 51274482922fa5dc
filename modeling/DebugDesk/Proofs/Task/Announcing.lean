import DebugDesk.Proofs.Task.Programs

/-!
# Ends that are announced

A tracked task is never over while a program is in control: the moment it is over its callback is
called, and then it is forgotten. So what a program finds over or forgotten can not be announced any
more.
-/
namespace DebugDesk

namespace TaskManager

variable {κ ρ : Type} {m m' : TaskManager κ ρ} {i j : Nat}

/-- A tracked task is over, and its callback is due. -/
def IsDue (m : TaskManager κ ρ) (i : Nat) : Prop :=
  i ∈ m.tracked ∧ (m.progressOf i).isOver = true

theorem progressOf_accept (m : TaskManager κ ρ) (work : ρ) (owner : Option κ) (i : Nat) :
    (m.accept work owner).progressOf i = m.progressOf i ∨
      m.progressOf i = .waiting ∧ (m.accept work owner).progressOf i = .running := by
  simp only [progressOf, task?, accept]
  by_cases hi : i < m.tasks.length
  · rw [List.getElem?_append_left hi]
    exact .inl rfl
  · have hle : m.tasks.length ≤ i := Nat.le_of_not_lt hi
    rw [List.getElem?_append_right hle, List.getElem?_eq_none hle]
    cases hk : i - m.tasks.length with
    | zero => cases m.executor <;> simp
    | succ k => simp

theorem lt_of_progressOf_ne (h : m.progressOf i ≠ .waiting) : i < m.tasks.length := by
  by_contra hi
  simp [progressOf, task?, List.getElem?_eq_none (Nat.le_of_not_lt hi)] at h

structure Quiet (m m' : TaskManager κ ρ) : Prop where
  tracked : m'.tracked.Sublist m.tracked
  count : m.tasks.length ≤ m'.tasks.length
  progress : ∀ i, m'.progressOf i = m.progressOf i ∨
    m.progressOf i ≠ .withdrawn ∧ m'.progressOf i = .running

theorem Quiet.not_due (h : Quiet m m') (hi : ¬m.IsDue i) : ¬m'.IsDue i := by
  intro hd
  rcases h.progress i with hp | ⟨_, hp⟩
  · exact hi ⟨h.tracked.subset hd.1, hp ▸ hd.2⟩
  · rw [IsDue, hp] at hd
    exact absurd hd.2 (by simp [Progress.isOver])

theorem Quiet.accept (m : TaskManager κ ρ) (work : ρ) (owner : Option κ) :
    Quiet m (m.accept work owner) := by
  refine ⟨.refl _, by simp [TaskManager.accept], fun i => ?_⟩
  rcases m.progressOf_accept work owner i with h | ⟨hw, hr⟩
  · exact .inl h
  · exact .inr ⟨by simp [hw], hr⟩

theorem Quiet.strike (m : TaskManager κ ρ) (i : Nat) (forget : Bool) :
    Quiet m (m.strike i forget) := by
  refine ⟨?_, Nat.le_of_eq (m.length_strike i forget).symm,
    fun j => .inl (m.progressOf_strike i j forget)⟩
  rw [m.tracked_strike]
  split
  · exact List.erase_sublist
  · exact .refl _

theorem Quiet.setRunning (h : m.progressOf i ≠ .withdrawn) :
    Quiet m (m.setProgress i .running) := by
  refine ⟨.refl _, Nat.le_of_eq (m.length_modifyTask ..).symm, fun j => ?_⟩
  by_cases hi : i < m.tasks.length
  · rw [m.progressOf_setProgress i j .running hi]
    by_cases hij : i = j
    · exact .inr ⟨hij ▸ h, by simp [hij]⟩
    · simp [hij]
  · left
    rw [setProgress, modifyTask, List.modify_eq_self (Nat.le_of_not_lt hi)]

theorem Quiet.forgetAll (m : TaskManager κ ρ) : Quiet m m.forgetAll :=
  ⟨List.nil_sublist _, Nat.le_refl _, fun _ => .inl rfl⟩

theorem Quiet.setQueue (m : TaskManager κ ρ) (q : List Nat) : Quiet m { m with queue := q } :=
  ⟨.refl _, Nat.le_refl _, fun _ => .inl rfl⟩

end TaskManager

namespace TaskHistory

open TaskManager

variable {κ : Type} {m₀ : TaskManager κ (Job κ)} {s t : Chronicle κ} {i : Nat}

/-- A task is tracked until this moment. -/
def LetsGo (x : Moment (TaskManager κ (Job κ)) Event) (i : Nat) : Prop :=
  i ∈ x.before.tracked ∧ i ∉ x.after.tracked

def hasCallback (m : TaskManager κ (Job κ)) (i : Nat) : Bool :=
  (m.task? i).any fun t => t.work.callback.isSome

/-- The end of a task becomes known: it finishes or is withdrawn while it is tracked, or it is
tracked when it is over already. -/
def Ends (m m' : TaskManager κ (Job κ)) (i : Nat) : Prop :=
  ¬m.IsDue i ∧ m'.IsDue i ∧
    (m' = m.setProgress i .finished ∨ m' = m.setProgress i .withdrawn ∨ m' = m.track i)

def reaction (m : TaskManager κ (Job κ)) (i : Nat) : Moment (TaskManager κ (Job κ)) Event :=
  if hasCallback m i then .noted (.called i) m else .changed m (m.untrack i)

/-- Tasks become due by their ends, a moment does what those before it call for, and a callback is
called only then. -/
structure Told (x : Moment (TaskManager κ (Job κ)) Event)
    (past : List (Moment (TaskManager κ (Job κ)) Event)) : Prop where
  ends : ∀ m m' i, x = .changed m m' → m'.IsDue i → Ends m m' i
  calls : ∀ i m, x = .noted (.called i) m →
    m.IsDue i ∧ hasCallback m i = true ∧ ∃ m' rest, past = .changed m' m :: rest
  reacts : ∀ m' m rest i, past = .changed m' m :: rest → m.IsDue i → x = reaction m i
  forgets : ∀ i m rest, past = .noted (.called i) m :: rest → x = .changed m (m.untrack i)

/-- What has begun is running or finished, and what was withdrawn stays so. -/
structure Working (s : Chronicle κ) : Prop where
  launched : ∀ i ∈ begun s, s.now.progressOf i = .running ∨ s.now.progressOf i = .finished
  withdrawn : ∀ x ∈ s.history, ∀ i,
    x.after.progressOf i = .withdrawn → s.now.progressOf i = .withdrawn

/-- What was called or let go is not tracked any more. -/
structure Watching (s : Chronicle κ) : Prop where
  trackedOnce : s.now.tracked.Nodup
  known : ∀ i ∈ s.now.tracked, i < s.now.tasks.length
  answered : ∀ i ∈ called s, i < s.now.tasks.length ∧ i ∉ s.now.tracked
  calledOnce : (called s).Nodup
  pastOnce : ∀ x ∈ s.history, x.after.tracked.Nodup
  letGo : ∀ x ∈ s.history, ∀ i, LetsGo x i → i < s.now.tasks.length ∧ i ∉ s.now.tracked ∧
    ((x.before.progressOf i).isOver = false → i ∉ called s)

/-- What holds whenever something has just changed. -/
structure Kept (m₀ : TaskManager κ (Job κ)) (s : Chronicle κ) : Prop where
  linked : s.Linked m₀
  working : Working s
  watching : Watching s
  told : Throughout Told s.history

/-- What holds whenever a program is in control. -/
structure Sound (m₀ : TaskManager κ (Job κ)) (s : Chronicle κ) : Prop extends Kept m₀ s where
  calm : ∀ i, ¬s.now.IsDue i
  rests : ∀ i m rest, s.history ≠ .noted (.called i) m :: rest

structure Ending (m₀ : TaskManager κ (Job κ)) (s : Chronicle κ) (i : Nat) : Prop
    extends Kept m₀ s where
  ended : (s.now.progressOf i).isOver = true
  due : ∀ j, s.now.IsDue j → j = i
  changed : ∃ m rest, s.history = .changed m s.now :: rest

/-- Between two states, nothing comes of tasks that were known and not tracked. -/
structure Grows (s t : Chronicle κ) : Prop where
  past : s.Extends t
  count : s.now.tasks.length ≤ t.now.tasks.length
  still : ∀ i < s.now.tasks.length, i ∉ s.now.tracked → i ∉ t.now.tracked ∧
    (i ∈ called t → i ∈ called s) ∧ ((∃ x ∈ t.history, LetsGo x i) → ∃ x ∈ s.history, LetsGo x i)

def Advances (m₀ : TaskManager κ (Job κ)) (s t : Chronicle κ) : Prop :=
  Sound m₀ s → Sound m₀ t ∧ Grows s t

theorem Grows.refl (s : Chronicle κ) : Grows s s :=
  ⟨refl_of Traced.Extends s, Nat.le_refl _, fun _ _ hi => ⟨hi, id, id⟩⟩

theorem Grows.trans {u : Chronicle κ} (h : Grows s t) (h' : Grows t u) : Grows s u := by
  refine ⟨trans_of Traced.Extends h.past h'.past, Nat.le_trans h.count h'.count,
    fun i hi hs => ?_⟩
  obtain ⟨ht, hc, hl⟩ := h.still i hi hs
  obtain ⟨hu, hc', hl'⟩ := h'.still i (Nat.lt_of_lt_of_le hi h.count) ht
  exact ⟨hu, hc ∘ hc', hl ∘ hl'⟩

instance (m₀ : TaskManager κ (Job κ)) : IsPreorder (Chronicle κ) (Advances m₀) where
  refl s h := ⟨h, .refl s⟩
  trans _ _ _ h h' hs :=
    have ht := h hs
    have hu := h' ht.1
    ⟨hu.1, ht.2.trans hu.2⟩

theorem Grows.put {m : TaskManager κ (Job κ)} (h : Grows s t)
    (hcount : t.now.tasks.length ≤ m.tasks.length)
    (htracked : ∀ i < s.now.tasks.length, i ∈ m.tracked → i ∈ t.now.tracked) :
    Grows s (t.put m) := by
  refine ⟨h.past.put m, Nat.le_trans h.count hcount, fun i hi hs => ?_⟩
  obtain ⟨ht, hc, hl⟩ := h.still i hi hs
  refine ⟨fun him => ht (htracked i hi him), hc, ?_⟩
  rintro ⟨x, hx, hgo⟩
  rcases List.mem_cons.mp hx with rfl | hx
  · exact absurd hgo.1 ht
  · exact hl ⟨x, hx, hgo⟩

theorem Grows.note {e : Event} (h : Grows s t)
    (he : ∀ i < s.now.tasks.length, e = .called i → i ∈ t.now.tracked) : Grows s (t.note e) := by
  refine ⟨h.past.note e, h.count, fun i hi hs => ?_⟩
  obtain ⟨ht, hc, hl⟩ := h.still i hi hs
  refine ⟨ht, fun hci => ?_, ?_⟩
  · cases e with
    | began j => exact hc hci
    | called j =>
      rcases List.mem_cons.mp hci with rfl | hci
      · exact absurd (he i hi rfl) ht
      · exact hc hci
  · rintro ⟨x, hx, hgo⟩
    rcases List.mem_cons.mp hx with rfl | hx
    · exact absurd hgo.1 hgo.2
    · exact hl ⟨x, hx, hgo⟩

def MayBecome (p q : Progress) : Prop :=
  p = q ∨ p = .waiting ∨ p ≠ .withdrawn ∧ (q = .running ∨ q = .finished)

theorem Working.put {m : TaskManager κ (Job κ)} (h : Working s)
    (hp : ∀ i, MayBecome (s.now.progressOf i) (m.progressOf i)) : Working (s.put m) := by
  refine ⟨fun i hi => ?_, fun x hx i hw => ?_⟩
  · have hs := h.launched i hi
    rcases hp i with he | hw | ⟨_, hq⟩
    · exact he ▸ hs
    · rw [hw] at hs
      simp at hs
    · exact hq
  · rcases List.mem_cons.mp hx with rfl | hx
    · exact hw
    · have hs := h.withdrawn x hx i hw
      rcases hp i with he | hwait | ⟨hne, _⟩
      · exact he ▸ hs
      · rw [hwait] at hs
        simp at hs
      · exact absurd hs hne

theorem Watching.put {m : TaskManager κ (Job κ)} (h : Watching s)
    (hcount : s.now.tasks.length ≤ m.tasks.length) (honce : m.tracked.Nodup)
    (hnew : ∀ i ∈ m.tracked, i ∈ s.now.tracked ∨
      i < m.tasks.length ∧ i ∉ called s ∧ ∀ x ∈ s.history, ¬LetsGo x i) : Watching (s.put m) := by
  refine ⟨honce, fun i hi => ?_, fun i hi => ?_, h.calledOnce, fun x hx => ?_, fun x hx i hgo => ?_⟩
  · rcases hnew i hi with hi | ⟨hlt, _⟩
    · exact Nat.lt_of_lt_of_le (h.known i hi) hcount
    · exact hlt
  · obtain ⟨hlt, hnot⟩ := h.answered i hi
    refine ⟨Nat.lt_of_lt_of_le hlt hcount, fun him => ?_⟩
    rcases hnew i him with his | ⟨_, hc, _⟩
    · exact hnot his
    · exact hc hi
  · rcases List.mem_cons.mp hx with rfl | hx
    · exact honce
    · exact h.pastOnce x hx
  · rcases List.mem_cons.mp hx with rfl | hx
    · refine ⟨Nat.lt_of_lt_of_le (h.known i hgo.1) hcount, hgo.2, fun _ hi => ?_⟩
      exact (h.answered i hi).2 hgo.1
    · obtain ⟨hlt, hnot, hearly⟩ := h.letGo x hx i hgo
      refine ⟨Nat.lt_of_lt_of_le hlt hcount, fun him => ?_, hearly⟩
      rcases hnew i him with his | ⟨_, _, hl⟩
      · exact hnot his
      · exact hl x hx hgo

theorem Sound.now_of_changed (h : Sound m₀ s) {m' m : TaskManager κ (Job κ)}
    {rest : List (Moment (TaskManager κ (Job κ)) Event)}
    (hs : s.history = .changed m' m :: rest) : m = s.now := h.linked.after hs

/-- While a program is in control, anything but a call may follow. -/
theorem Sound.told_next (h : Sound m₀ s) {x : Moment (TaskManager κ (Job κ)) Event}
    (hx : ∀ i m, x ≠ .noted (.called i) m)
    (hends : ∀ m m' i, x = .changed m m' → m'.IsDue i → Ends m m' i) :
    Throughout Told (x :: s.history) := by
  refine ⟨⟨hends, fun i m he => absurd he (hx i m), fun m' m rest i hs hd => ?_,
      fun i m rest hs => ?_⟩,
    h.told⟩
  · rw [h.now_of_changed hs] at hd
    exact absurd hd (h.calm i)
  · exact absurd hs (h.rests i m rest)

theorem Sound.put {m : TaskManager κ (Job κ)} (h : Sound m₀ s)
    (hp : ∀ i, MayBecome (s.now.progressOf i) (m.progressOf i))
    (hcount : s.now.tasks.length ≤ m.tasks.length) (honce : m.tracked.Nodup)
    (hnew : ∀ i ∈ m.tracked, i ∈ s.now.tracked ∨
      i < m.tasks.length ∧ i ∉ called s ∧ ∀ x ∈ s.history, ¬LetsGo x i)
    (hends : ∀ i, m.IsDue i → Ends s.now m i) : Kept m₀ (s.put m) where
  linked := h.linked.put m
  working := h.working.put hp
  watching := h.watching.put hcount honce hnew
  told := by
    refine h.told_next (by simp) fun m' m'' i he hi => ?_
    cases he
    exact hends i hi

theorem advances_put {m : TaskManager κ (Job κ)} (hm : Quiet s.now m) :
    Advances m₀ s (s.put m) := by
  intro h
  have hkept : Kept m₀ (s.put m) := by
    refine h.put (fun i => ?_) hm.count (h.watching.trackedOnce.sublist hm.tracked)
      (fun i hi => .inl (hm.tracked.subset hi)) fun i hi => absurd hi (hm.not_due (h.calm i))
    rcases hm.progress i with he | ⟨hne, hr⟩
    · exact .inl he.symm
    · exact .inr (.inr ⟨hne, .inl hr⟩)
  refine ⟨⟨hkept, fun i => hm.not_due (h.calm i), by simp⟩, ?_⟩
  exact (Grows.refl s).put hm.count fun i _ hi => hm.tracked.subset hi

/-- The work of a task begins. -/
theorem advances_began (hr : s.now.progressOf i = .running) :
    Advances m₀ s (s.note (.began i)) := by
  intro h
  have hw := h.working
  have hself : ∀ j, ¬LetsGo (.noted (.began i) s.now) j := fun j hgo => hgo.2 hgo.1
  refine ⟨⟨⟨h.linked.note _, ⟨fun j hj => ?_, fun x hx j hxj => ?_⟩, ?_, ?_⟩, h.calm, by simp⟩, ?_⟩
  · rcases List.mem_cons.mp hj with rfl | hj
    · exact .inl hr
    · exact hw.launched j hj
  · rcases List.mem_cons.mp hx with rfl | hx
    · exact hxj
    · exact hw.withdrawn x hx j hxj
  · have hv := h.watching
    refine ⟨hv.trackedOnce, hv.known, hv.answered, hv.calledOnce, fun x hx => ?_,
      fun x hx j hgo => ?_⟩
    · rcases List.mem_cons.mp hx with rfl | hx
      · exact hv.trackedOnce
      · exact hv.pastOnce x hx
    · rcases List.mem_cons.mp hx with rfl | hx
      · exact absurd hgo (hself j)
      · exact hv.letGo x hx j hgo
  · exact h.told_next (by simp) (by simp)
  · exact (Grows.refl s).note (by simp)

def respond (s : Chronicle κ) (i : Nat) : Chronicle κ :=
  if hasCallback s.now i then s.note (.called i) else s

/-- The end of a task is announced: if it is tracked, there is a response, and it is forgotten. -/
def announced (s : Chronicle κ) (i : Nat) : Chronicle κ :=
  if s.now.isTracked i then (respond s i).put (s.now.untrack i) else s

theorem outcome_announce (f : Program κ → Effect (Chronicle κ) Unit) (i : Nat) (s : Chronicle κ) :
    ((runner f).announce i).outcome s = (.ok (), announced s i) := by
  have hread : (runner f).manager.get s = s.now := rfl
  rw [TaskRunner.announce, Effect.outcome_bind_ok (Part.outcome_read _ _), hread, announced]
  split
  · have hcall : (((s.now.task? i).toList.forM fun t => ((runner f).done i t.work).quietly).outcome
        s) = (.ok (), respond s i) := by
      rw [respond, hasCallback]
      cases s.now.task? i with
      | none => rfl
      | some t => obtain ⟨o, ⟨work, _ | _ | _⟩, c, p⟩ := t <;> rfl
    rw [Effect.outcome_bind_ok hcall, Part.outcome_update]
    rw [respond]
    split <;> rfl
  · rfl

@[simp] theorem now_respond (s : Chronicle κ) (i : Nat) : (respond s i).now = s.now := by
  unfold respond
  split <;> rfl

theorem announced_of_not_mem (h : i ∉ s.now.tracked) : announced s i = s := by
  rw [announced, if_neg]
  rwa [TaskManager.isTracked_iff]

theorem announced_of_mem (h : i ∈ s.now.tracked) :
    announced s i = (respond s i).put (s.now.untrack i) :=
  if_pos (TaskManager.isTracked_iff.mpr h)

theorem Ending.sound_of_not_mem (h : Ending m₀ s i) (hi : i ∉ s.now.tracked) : Sound m₀ s := by
  refine ⟨h.toKept, fun j hj => ?_, fun j m rest hs => ?_⟩
  · obtain rfl := h.due j hj
    exact hi hj.1
  · obtain ⟨m', rest', hs'⟩ := h.changed
    rw [hs'] at hs
    simp at hs

theorem Ending.not_due_untrack (h : Ending m₀ s i) (j : Nat) : ¬(s.now.untrack i).IsDue j := by
  intro hj
  obtain ⟨hne, hm⟩ := (List.Nodup.mem_erase_iff h.watching.trackedOnce).mp hj.1
  exact hne (h.due j ⟨hm, hj.2⟩)

theorem Ending.told_reaction (h : Ending m₀ s i) (hi : i ∈ s.now.tracked) :
    Told (reaction s.now i) s.history := by
  obtain ⟨m, rest, hs⟩ := h.changed
  refine ⟨fun m' m'' j he hd => ?_, fun j m' he => ?_, fun m' m'' past j hp hd => ?_,
    fun j m' past hp => ?_⟩
  · unfold reaction at he
    split at he
    next => simp at he
    next =>
      cases he
      exact absurd hd (h.not_due_untrack j)
  · unfold reaction at he
    split at he
    next hc =>
      cases he
      exact ⟨⟨hi, h.ended⟩, hc, m, rest, hs⟩
    next => simp at he
  · rw [hs] at hp
    cases hp
    rw [h.due j hd]
  · rw [hs] at hp
    simp at hp

theorem Ending.told_forget (h : Ending m₀ s i) (hi : i ∈ s.now.tracked) :
    Throughout Told ((respond s i).put (s.now.untrack i)).history := by
  have hreaction := h.told_reaction hi
  unfold respond reaction at *
  split
  next hc =>
    rw [if_pos hc] at hreaction
    refine ⟨⟨fun m' m'' j he hd => ?_, by simp, by simp, fun j m' past hp => ?_⟩, hreaction, h.told⟩
    · cases he
      exact absurd hd (h.not_due_untrack j)
    · cases hp
      rfl
  next hc =>
    rw [if_neg hc] at hreaction
    exact ⟨hreaction, h.told⟩

/-- A tracked task that is over may be called once more, and is let go. -/
theorem Watching.forget (h : Watching s) (hi : i ∈ s.now.tracked)
    (hover : (s.now.progressOf i).isOver = true) :
    Watching ((respond s i).put (s.now.untrack i)) := by
  have hcalled : ∀ j, j ∈ called (respond s i) → j = i ∨ j ∈ called s := by
    intro j hj
    unfold respond at hj
    split at hj
    · exact List.mem_cons.mp hj
    · exact .inr hj
  have honce : (called (respond s i)).Nodup := by
    unfold respond
    split
    · exact List.nodup_cons.mpr ⟨fun hc => (h.answered i hc).2 hi, h.calledOnce⟩
    · exact h.calledOnce
  have hpast : ∀ x ∈ (respond s i).history, ∀ j, LetsGo x j → x ∈ s.history := by
    intro x hx j hgo
    unfold respond at hx
    split at hx
    · rcases List.mem_cons.mp hx with rfl | hx
      · exact absurd hgo.1 hgo.2
      · exact hx
    · exact hx
  have hrest : ∀ j, j ∈ (s.now.untrack i).tracked ↔ j ≠ i ∧ j ∈ s.now.tracked :=
    fun j => List.Nodup.mem_erase_iff h.trackedOnce
  have hpastOnce : ∀ x ∈ (respond s i).history, x.after.tracked.Nodup := by
    intro x hx
    unfold respond at hx
    split at hx
    · rcases List.mem_cons.mp hx with rfl | hx
      · exact h.trackedOnce
      · exact h.pastOnce x hx
    · exact h.pastOnce x hx
  refine ⟨h.trackedOnce.erase i, fun j hj => h.known j ((hrest j).mp hj).2, fun j hj => ?_, honce,
    fun x hx => ?_, fun x hx j hgo => ?_⟩
  · rcases hcalled j hj with rfl | hj
    · exact ⟨h.known j hi, fun hm => ((hrest j).mp hm).1 rfl⟩
    · exact ⟨(h.answered j hj).1, fun hm => (h.answered j hj).2 ((hrest j).mp hm).2⟩
  · rcases List.mem_cons.mp hx with rfl | hx
    · exact h.trackedOnce.erase i
    · exact hpastOnce x hx
  · rcases List.mem_cons.mp hx with rfl | hx
    · have hj : j = i := by
        by_contra hne
        refine hgo.2 ((hrest j).mpr ⟨hne, ?_⟩)
        simpa [Moment.before] using hgo.1
      subst hj
      refine ⟨h.known j hi, fun hm => ((hrest j).mp hm).1 rfl, fun hearly => ?_⟩
      simp [Moment.before, hover] at hearly
    · obtain ⟨hlt, hnot, hearly⟩ := h.letGo x (hpast x hx j hgo) j hgo
      refine ⟨hlt, fun hm => hnot ((hrest j).mp hm).2, fun he hj => ?_⟩
      rcases hcalled j hj with rfl | hj
      · exact hnot hi
      · exact hearly he hj

theorem Working.forget (h : Working s) : Working ((respond s i).put (s.now.untrack i)) := by
  have hbegun : begun (respond s i) = begun s := by
    unfold respond
    split <;> rfl
  refine ⟨fun j hj => h.launched j (hbegun ▸ hj), fun x hx j hw => ?_⟩
  rcases List.mem_cons.mp hx with rfl | hx
  · exact hw
  · unfold respond at hx
    split at hx
    · rcases List.mem_cons.mp hx with rfl | hx
      · exact hw
      · exact h.withdrawn x hx j hw
    · exact h.withdrawn x hx j hw

theorem Ending.sound (h : Ending m₀ s i) : Sound m₀ (announced s i) := by
  by_cases hi : i ∈ s.now.tracked
  · rw [announced_of_mem hi]
    have hlinked : ((respond s i).put (s.now.untrack i)).Linked m₀ := by
      unfold respond
      split
      · exact (h.linked.note _).put _
      · exact h.linked.put _
    refine ⟨⟨hlinked, h.working.forget, h.watching.forget hi h.ended, h.told_forget hi⟩,
      h.not_due_untrack, by simp⟩
  · rw [announced_of_not_mem hi]
    exact h.sound_of_not_mem hi

theorem Grows.announced (h : Grows s t) : Grows s (announced t i) := by
  by_cases hi : i ∈ t.now.tracked
  · rw [announced_of_mem hi]
    have hresponse : Grows s (respond t i) := by
      unfold respond
      split
      · refine h.note fun j _ he => ?_
        cases he
        exact hi
      · exact h
    refine hresponse.put (by simp [TaskManager.untrack]) fun j _ hj => ?_
    rw [now_respond]
    exact List.mem_of_mem_erase hj
  · rwa [announced_of_not_mem hi]

/-- A task is over from now on. -/
theorem Sound.ending {p : Progress} (h : Sound m₀ s) (hi : i < s.now.tasks.length)
    (hover : p = .finished ∨ p = .withdrawn) (hp : MayBecome (s.now.progressOf i) p) :
    Ending m₀ (s.put (s.now.setProgress i p)) i := by
  have hprogress := fun j => s.now.progressOf_setProgress i j p hi
  have hdue : ∀ j, (s.now.setProgress i p).IsDue j → j = i := by
    intro j hj
    by_contra hne
    refine h.calm j ⟨hj.1, ?_⟩
    rw [← hj.2, hprogress, if_neg (Ne.symm hne)]
  refine ⟨h.put (fun j => ?_) (Nat.le_of_eq (s.now.length_modifyTask ..).symm)
    h.watching.trackedOnce (fun j hj => .inl hj) fun j hj => ?_, ?_, hdue, _, _, rfl⟩
  · rw [hprogress]
    split
    next hij => exact hij ▸ hp
    next => exact .inl rfl
  · obtain rfl := hdue j hj
    refine ⟨h.calm j, hj, ?_⟩
    rcases hover with rfl | rfl
    · exact .inl rfl
    · exact .inr (.inl rfl)
  · rw [Traced.now_put, hprogress, if_pos rfl]
    rcases hover with rfl | rfl <;> rfl

theorem Sound.due_track (h : Sound m₀ s) {j : Nat} (hj : (s.now.track i).IsDue j) : j = i := by
  rcases List.mem_append.mp hj.1 with ht | hji
  · exact absurd ⟨ht, hj.2⟩ (h.calm j)
  · exact List.mem_singleton.mp hji

/-- A new task is tracked from now on. -/
theorem Sound.kept_track (h : Sound m₀ s) (hi : i < s.now.tasks.length) (ht : i ∉ s.now.tracked)
    (hc : i ∉ called s) (hl : ∀ x ∈ s.history, ¬LetsGo x i) :
    Kept m₀ (s.put (s.now.track i)) := by
  refine h.put (fun j => .inl rfl) (Nat.le_refl _) ?_ (fun j hj => ?_) fun j hj => ?_
  · exact List.nodup_append.mpr ⟨h.watching.trackedOnce, List.nodup_singleton i,
      fun a ha b hb hab => ht (by simp only [List.mem_singleton] at hb; rwa [← hb, ← hab])⟩
  · rcases List.mem_append.mp hj with hj | hj
    · exact .inl hj
    · obtain rfl := List.mem_singleton.mp hj
      exact .inr ⟨hi, hc, hl⟩
  · obtain rfl := h.due_track hj
    exact ⟨h.calm j, hj, .inr (.inr rfl)⟩

end TaskHistory

end DebugDesk
