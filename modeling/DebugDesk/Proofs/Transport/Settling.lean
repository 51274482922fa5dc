import DebugDesk.Proofs.Transport.Cancelling

/-!
# Settled requests

A thread that cancels tasks finds those that it has still to cancel tracked, for it has the lock.
What is settled and not on its way into the queue never gets there.
-/
namespace DebugDesk.Interleaving

variable {κ : Type} {s t : Scene κ} {i n : Nat} {g : Reason κ} {is : List Nat}

namespace Scene

/-- Tasks are still to be cancelled. -/
structure Facing (s : Scene κ) (g : Reason κ) (n : Nat) (is : List Nat) : Prop where
  le : n ≤ s.count
  nodup : is.Nodup
  lt : ∀ i ∈ is, i < n
  tracked : ∀ i ∈ is, i ∈ s.tasks.tracked
  covers : ∀ i ∈ is, g.covers (s.owner i)

theorem Facing.mono (h : s.Facing g n is) (hg : s.Grows t)
    (ht : ∀ i ∈ is, i ∈ t.tasks.tracked) : t.Facing g n is := by
  refine ⟨Nat.le_trans h.le hg.count, h.nodup, h.lt, ht, fun i hi => ?_⟩
  rw [hg.owner (Nat.lt_of_lt_of_le (h.lt i hi) h.le)]
  exact h.covers i hi

theorem Facing.tail (h : s.Facing g n (i :: is)) : s.Facing g n is :=
  ⟨h.le, h.nodup.of_cons, fun j hj => h.lt j (List.mem_cons_of_mem i hj),
    fun j hj => h.tracked j (List.mem_cons_of_mem i hj),
    fun j hj => h.covers j (List.mem_cons_of_mem i hj)⟩

/-- What holds while a thread is in the middle of a call. -/
def Pending (s : Scene κ) : Caller κ → Prop
  | .idle => True
  | .submitting i => i < s.count ∧ i ∉ s.tasks.tracked
  | .cancelling g n is => s.Facing g n is
  | .withdrawing g n i is =>
    s.Facing g n is ∧ i ∉ is ∧ s.tasks.isCancelled i = true ∧ i < s.count ∧ g.covers (s.owner i)
  | .released g n => s.Facing g n []
  | .emptying n => s.Facing .shutdown n []

theorem Pending.same {c : Caller κ} (h : s.Pending c) (hg : s.Grows t)
    (ht : t.tasks.tracked = s.tasks.tracked) : t.Pending c := by
  have hf {g : Reason κ} {n : Nat} {is : List Nat} (hf : s.Facing g n is) : t.Facing g n is :=
    hf.mono hg (ht ▸ hf.tracked)
  cases c with
  | idle => trivial
  | submitting i => exact ⟨Nat.lt_of_lt_of_le h.1 hg.count, ht ▸ h.2⟩
  | cancelling g n is => exact hf h
  | withdrawing g n i is =>
    obtain ⟨hface, hnot, hc, hi, hcov⟩ := h
    exact ⟨hf hface, hnot, hg.tasks.isCancelled hc, Nat.lt_of_lt_of_le hi hg.count,
      (hg.owner hi).symm ▸ hcov⟩
  | released g n => exact hf h
  | emptying n => exact hf h

/-- Without the lock, a thread faces no task any more. -/
theorem Pending.unlocked {c : Caller κ} (h : s.Pending c) (hc : ¬c.holds) (hg : s.Grows t) :
    t.Pending c := by
  cases c with
  | idle => trivial
  | submitting i => exact absurd trivial hc
  | cancelling g n is => exact absurd trivial hc
  | withdrawing g n i is => exact absurd trivial hc
  | released g n => exact Facing.mono h hg nofun
  | emptying n => exact Facing.mono h hg nofun

theorem callers_put (s : Scene κ) (k j : Nat) (c : Caller κ) :
    (j ≠ k ∧ (s.put k c).callers j = s.callers j) ∨ (j = k ∧ (s.put k c).callers j = c) := by
  by_cases h : j = k
  · subst h
    exact .inr ⟨rfl, Function.update_self ..⟩
  · exact .inl ⟨h, Function.update_of_ne h ..⟩

/-- Tracked tasks are known, and what is over is settled. -/
structure Tracking (s : Scene κ) : Prop where
  nodup : s.tasks.tracked.Nodup
  known : ∀ i ∈ s.tasks.tracked, i < s.count
  ended : ∀ i, (s.tasks.progressOf i).isOver = true → s.Settled i
  pending : ∀ k, s.Pending (s.callers k)

/-- A step that does not change what is tracked. -/
theorem Tracking.quiet (h : s.Tracking) (hg : s.Grows t)
    (ht : t.tasks.tracked = s.tasks.tracked)
    (he : ∀ j, (t.tasks.progressOf j).isOver = true →
      (s.tasks.progressOf j).isOver = true ∨ t.Settled j)
    (hc : ∀ k, t.callers k = s.callers k ∨ t.Pending (t.callers k)) : t.Tracking := by
  refine ⟨ht ▸ h.nodup, fun i hi => ?_, fun i hi => ?_, fun k => ?_⟩
  · exact Nat.lt_of_lt_of_le (h.known i (ht ▸ hi)) hg.count
  · exact (he i hi).elim (fun hs => hg.settled (h.ended i hs)) id
  · rcases hc k with hck | hp
    · rw [hck]
      exact (h.pending k).same hg ht
    · exact hp

theorem count_request (s : Scene κ) (k : Nat) (r : Request κ Nat) (c : Caller κ) :
    ((s.onTasks (·.accept r r.owner)).put k c).count = s.count + 1 := List.length_append ..

theorem Tracking.request {k : Nat} {r : Request κ Nat} (h : s.Tracking) (hf : s.Free) :
    ((s.onTasks (·.accept r r.owner)).put k (.submitting s.count)).Tracking := by
  have hg : s.Grows ((s.onTasks (·.accept r r.owner)).put k (.submitting s.count)) :=
    .of_tasks (.accept _ _ _) _ _
  have hn := s.count_request k r (.submitting s.count)
  refine ⟨h.nodup, fun i hi => hn ▸ Nat.lt_succ_of_lt (h.known i hi), fun i hi => ?_, fun j => ?_⟩
  · exact hg.settled (h.ended i (TaskManager.isOver_of_accept hi))
  · rcases callers_put (s.onTasks (·.accept r r.owner)) k j (.submitting s.count)
      with ⟨_, he⟩ | ⟨_, he⟩
    · rw [he]
      exact (h.pending j).unlocked (hf j) hg
    · rw [he]
      exact ⟨hn ▸ Nat.lt_succ_self _, fun hm => absurd (h.known _ hm) (Nat.lt_irrefl _)⟩

/-- A step of the thread that has the lock, on the tasks that are there. -/
theorem Tracking.locked {k : Nat} {c : Caller κ}
    {f : TaskManager κ (Request κ Nat) → TaskManager κ (Request κ Nat)} (h : s.Tracking)
    (hx : Exclusive s) (hk : (s.callers k).holds) (hf : s.tasks.Keeps (f s.tasks))
    (hn : (f s.tasks).tasks.length = s.count) (hnodup : (f s.tasks).tracked.Nodup)
    (hknown : ∀ j ∈ (f s.tasks).tracked, j < s.count)
    (hended : ∀ j, ((f s.tasks).progressOf j).isOver = true → s.Settled j)
    (hpending : ((s.onTasks f).put k c).Pending c) : ((s.onTasks f).put k c).Tracking := by
  have hg : s.Grows ((s.onTasks f).put k c) := .of_tasks hf _ _
  refine ⟨hnodup, fun j hj => ?_, fun j hj => hg.settled (hended j hj), fun j => ?_⟩
  · exact Nat.lt_of_lt_of_eq (hknown j hj) hn.symm
  · rcases callers_put (s.onTasks f) k j c with ⟨hne, he⟩ | ⟨_, he⟩
    · rw [he]
      exact (h.pending j).unlocked (fun hj => hne (hx j k hj hk)) hg
    · rw [he]
      exact hpending

theorem Tracking.track {k : Nat} (h : s.Tracking) (hx : Exclusive s)
    (hk : s.callers k = .submitting i) :
    ((s.onTasks fun m => (m.track i).settle i).put k .idle).Tracking := by
  have hp := h.pending k
  rw [hk] at hp
  obtain ⟨hi, hnot⟩ := hp
  have hprogress (j : Nat) :
      ((s.tasks.track i).settle i).progressOf j = s.tasks.progressOf j :=
    TaskManager.progressOf_settle ..
  have hkeeps : s.tasks.Keeps ((s.tasks.track i).settle i) :=
    (TaskManager.Keeps.of_tasks rfl).trans (.settle (s.tasks.track i) i)
  refine h.locked hx (hk ▸ trivial) hkeeps (TaskManager.length_settle ..) ?_ ?_
    (fun j hj => h.ended j (hprogress j ▸ hj)) trivial
  · rw [TaskManager.tracked_settle_track hnot]
    split
    · exact h.nodup
    · exact List.nodup_append.mpr ⟨h.nodup, by simp, by rintro a ha b hb rfl; simp_all⟩
  · intro j hj
    rw [TaskManager.tracked_settle_track hnot] at hj
    split at hj
    · exact h.known j hj
    · rcases List.mem_append.mp hj with hj | hj
      · exact h.known j hj
      · exact List.mem_singleton.mp hj ▸ hi

theorem Tracking.strike {k : Nat} (h : s.Tracking) (hx : Exclusive s)
    (hk : s.callers k = .cancelling g n (i :: is)) :
    ((s.onTasks (·.strike i g.forgets)).put k (.withdrawing g n i is)).Tracking := by
  have hface : s.Facing g n (i :: is) := by
    have hp := h.pending k
    rwa [hk] at hp
  have hi : i < s.count := h.known i (hface.tracked i (by simp))
  have hnot : i ∉ is := (List.nodup_cons.mp hface.nodup).1
  have htracked : (s.tasks.strike i g.forgets).tracked = _ := TaskManager.tracked_strike ..
  have hlen : (s.tasks.strike i g.forgets).tasks.length = s.count :=
    TaskManager.length_strike ..
  have hg : s.Grows ((s.onTasks (·.strike i g.forgets)).put k (.withdrawing g n i is)) :=
    .of_tasks (.strike _ _ _) _ _
  refine h.locked hx (hk ▸ trivial) (.strike _ _ _) hlen
    (htracked ▸ TaskManager.nodup_ite_erase h.nodup)
    (fun j hj => h.known j (TaskManager.mem_of_mem_ite_erase (htracked ▸ hj))) (fun j hj => ?_)
    ⟨hface.tail.mono hg fun j hj => ?_, hnot, TaskManager.isCancelled_strike _ _ _ hi,
      Nat.lt_of_lt_of_eq hi hlen.symm, (hg.owner hi).symm ▸ hface.covers i (by simp)⟩
  · rw [TaskManager.progressOf_strike] at hj
    exact h.ended j hj
  · have hji : j ≠ i := fun he => hnot (he ▸ hj)
    exact htracked ▸ (TaskManager.mem_ite_erase hji).mpr (hface.tail.tracked j hj)

theorem Tracking.withdraw {k : Nat} (h : s.Tracking) (hx : Exclusive s)
    (hk : s.callers k = .withdrawing g n i is) :
    ((s.onTasks (·.withdraw i)).put k (.cancelling g n is)).Tracking := by
  have hp := h.pending k
  rw [hk] at hp
  obtain ⟨hface, hnot, hcancelled, _⟩ := hp
  have htracked : (s.tasks.withdraw i).tracked = _ := TaskManager.tracked_withdraw ..
  have hg : s.Grows ((s.onTasks (·.withdraw i)).put k (.cancelling g n is)) :=
    .of_tasks (.withdraw _ _) _ _
  refine h.locked hx (hk ▸ trivial) (.withdraw _ _) (TaskManager.length_withdraw ..)
    (htracked ▸ TaskManager.nodup_ite_erase h.nodup)
    (fun j hj => h.known j (TaskManager.mem_of_mem_ite_erase (htracked ▸ hj))) (fun j hj => ?_)
    (hface.mono hg fun j hj => ?_)
  · by_cases hji : j = i
    · exact .inl (hji ▸ hcancelled)
    · rw [TaskManager.progressOf_withdraw _ (Ne.symm hji)] at hj
      exact h.ended j hj
  · have hji : j ≠ i := fun he => hnot (he ▸ hj)
    exact htracked ▸ (TaskManager.mem_ite_erase hji).mpr (hface.tracked j hj)

theorem Tracking.forget {k : Nat} (h : s.Tracking) (hf : s.Free)
    (hk : s.callers k = .released .shutdown n) :
    ((s.onTasks (·.forgetAll)).put k (.emptying n)).Tracking := by
  have hg : s.Grows ((s.onTasks (·.forgetAll)).put k (.emptying n)) :=
    .of_tasks (.of_tasks rfl) _ _
  have hface : s.Facing .shutdown n [] := by
    have hp := h.pending k
    rwa [hk] at hp
  refine ⟨.nil, nofun, fun i hi => hg.settled (h.ended i hi), fun j => ?_⟩
  rcases callers_put (s.onTasks (·.forgetAll)) k j (.emptying n) with ⟨_, he⟩ | ⟨_, he⟩
  · rw [he]
    exact (h.pending j).unlocked (hf j) hg
  · rw [he]
    exact hface.mono hg nofun

theorem Tracking.announce (h : s.Tracking) (hf : s.Free) (i : Nat) :
    (s.onTasks (·.settle i)).Tracking := by
  have hg : s.Grows (s.onTasks (·.settle i)) := ⟨.settle _ _, fun _ => id⟩
  have htracked : (s.onTasks (·.settle i)).tasks.tracked = _ := TaskManager.tracked_settle ..
  have hprogress (j : Nat) :
      (s.onTasks (·.settle i)).tasks.progressOf j = s.tasks.progressOf j :=
    TaskManager.progressOf_settle ..
  refine ⟨htracked ▸ TaskManager.nodup_ite_erase h.nodup, fun j hj => ?_, fun j hj => ?_,
    fun j => (h.pending j).unlocked (hf j) hg⟩
  · have hj : j ∈ s.tasks.tracked := TaskManager.mem_of_mem_ite_erase (htracked ▸ hj)
    exact Nat.lt_of_lt_of_le (h.known j hj) hg.count
  · exact hg.settled (h.ended j (hprogress j ▸ hj))

/-- A thread goes on with its call, or ends it. -/
theorem Tracking.put {k : Nat} {c : Caller κ} (h : s.Tracking) (hc : s.Pending c) :
    (s.put k c).Tracking := by
  have hg : s.Grows (s.put k c) := ⟨.of_tasks rfl, fun _ => id⟩
  refine h.quiet hg rfl (fun _ => .inl) fun j => ?_
  rcases callers_put s k j c with ⟨_, he⟩ | ⟨rfl, he⟩
  · exact .inl he
  · right
    rw [he]
    exact hc.same hg rfl

theorem Tracking.of_onTransport {f : HostTransport κ Nat → HostTransport κ Nat} (h : s.Tracking)
    (hf : (f s.transport).tasks = s.transport.tasks) : (s.onTransport f).Tracking := by
  have hk : s.tasks.Keeps (s.onTransport f).tasks := .of_tasks (congrArg TaskManager.tasks hf)
  refine h.quiet ⟨hk, fun _ => id⟩ (congrArg TaskManager.tracked hf) (fun j hj => ?_)
    fun _ => .inl rfl
  change ((f s.transport).tasks.progressOf j).isOver = true at hj
  rw [hf] at hj
  exact .inl hj

variable [DecidableEq κ]

theorem mem_ownedBy (o : κ) :
    i ∈ s.tasks.ownedBy (some o) ↔ i ∈ s.tasks.tracked ∧ (Reason.discard o).covers (s.owner i) := by
  cases h : s.tasks.task? i <;> simp [TaskManager.ownedBy, Reason.covers, owner, h]

theorem Tracking.facing_owned (h : s.Tracking) (o : κ) :
    s.Facing (.discard o) s.count (s.tasks.ownedBy (some o)) :=
  ⟨Nat.le_refl _, h.nodup.filter _, fun i hi => h.known i ((mem_ownedBy o).mp hi).1,
    fun _ hi => ((mem_ownedBy o).mp hi).1, fun _ hi => ((mem_ownedBy o).mp hi).2⟩

omit [DecidableEq κ] in
theorem Tracking.facing_all (h : s.Tracking) : s.Facing .shutdown s.count s.tasks.tracked :=
  ⟨Nat.le_refl _, h.nodup, h.known, fun _ => id, fun _ _ => trivial⟩

theorem Tracking.step (h : s.Tracking) (hx : Exclusive s) (hs : Step s t) : t.Tracking := by
  have hg := hs.grows
  cases hs with
  | request _ hf => exact h.request hf
  | track hk => exact h.track hx hk
  | discard o => exact h.put (h.facing_owned o)
  | shutdown => exact h.put h.facing_all
  | strike hk => exact h.strike hx hk
  | withdraw hk => exact h.withdraw hx hk
  | @release k n g hk =>
    have hp := h.pending k
    rw [hk] at hp
    exact h.put hp
  | drop => exact (h.of_onTransport rfl).put trivial
  | forget hk hf => exact h.forget hf hk
  | empty => exact (h.of_onTransport rfl).put trivial
  | @start i hp hi =>
    refine h.quiet hg rfl (fun j hj => ?_) fun _ => .inl rfl
    change ((s.tasks.setProgress i .running).progressOf j).isOver = true at hj
    rw [TaskManager.progressOf_setProgress _ _ _ _ hi] at hj
    split at hj
    · exact nomatch hj
    · exact .inl hj
  | @finish i hw hp =>
    refine h.quiet hg rfl (fun j hj => ?_) fun _ => .inl rfl
    by_cases hij : i = j
    · exact .inr (.inr (hij ▸ hw))
    · change ((s.tasks.setProgress i .finished).progressOf j).isOver = true at hj
      rw [TaskManager.setProgress, TaskManager.progressOf_modifyTask_of_ne _ hij] at hj
      exact .inl hj
  | announce hf => exact h.announce hf _
  | append =>
    refine h.quiet hg ?_ (fun j hj => ?_) fun _ => .inl rfl
    · simp only [tasks, setWork, onTransport, HostTransport.tasks_answer]
    · simp only [tasks, setWork, onTransport, HostTransport.tasks_answer] at hj
      exact .inl hj
  | _ => exact h.quiet hg rfl (fun _ => .inl) fun _ => .inl rfl

structure Sound (s : Scene κ) : Prop extends Labelled s, s.Tracking where
  begun : Begun s
  launched : Launched s
  exclusive : Exclusive s

theorem Sound.step (h : s.Sound) (hs : Step s t) : t.Sound :=
  ⟨h.toLabelled.step hs, h.toTracking.step h.exclusive hs, h.begun.step hs, h.launched.step hs,
    h.exclusive.step hs⟩

theorem Sound.steps (h : s.Sound) (hs : Steps s t) : t.Sound := by
  induction hs with
  | refl => exact h
  | tail _ hs ih => exact ih.step hs

omit [DecidableEq κ] in
theorem sound_start (url : String) (headers : Json) (timeout : Float) (executor : Executor) :
    (start (κ := κ) url headers timeout executor).Sound :=
  ⟨⟨nofun, nofun⟩, ⟨.nil, nofun, nofun, fun _ => trivial⟩, nofun, nofun, nofun⟩

theorem sound_of_reachable (h : Reachable s) : s.Sound := by
  obtain ⟨url, headers, timeout, executor, hs⟩ := h
  exact (sound_start url headers timeout executor).steps hs

/-- Nothing of a request is queued, nor will be. -/
structure Gone (s : Scene κ) (i : Nat) : Prop where
  settled : s.Settled i
  working : ∀ content, s.work i ≠ .queueing content
  queue : ∀ r ∈ s.transport.queue, r.callback ≠ i

theorem Gone.step (h : s.Gone i) (hl : Labelled s) (hs : Step s t) : t.Gone i := by
  have hset := hs.grows.settled h.settled
  have hwork {j : Nat} {w : Work} (hw : ∀ content, w ≠ .queueing content) :
      ∀ content, (s.setWork j w).work i ≠ .queueing content := by
    by_cases hij : i = j
    · subst hij
      simpa [setWork] using hw
    · simpa [setWork, Function.update_of_ne hij] using h.working
  cases hs with
  | drop => exact ⟨hset, h.working, fun r hr => h.queue r (List.mem_of_mem_filter hr)⟩
  | empty => exact ⟨hset, h.working, by simp [put, onTransport, HostTransport.emptyQueue]⟩
  | poll => exact ⟨hset, h.working, by simp [beginPoll, HostTransport.emptyQueue]⟩
  | begin =>
    refine ⟨hset, hwork ?_, h.queue⟩
    split <;> simp
  | post => exact ⟨hset, hwork (w := .posted) (by simp), h.queue⟩
  | reply content =>
    refine ⟨hset, hwork ?_, h.queue⟩
    cases content <;> simp
  | @check j content hj =>
    refine ⟨hset, fun c => ?_, h.queue⟩
    by_cases hij : i = j
    · subst hij
      have hc : s.tasks.isCancelled i = true :=
        h.settled.resolve_right (by simp [hj])
      simp [setWork, hc]
    · simpa [setWork, Function.update_of_ne hij] using h.working c
  | @append j a content hj ha =>
    refine ⟨hset, hwork (w := .over) (by simp), fun r hr => ?_⟩
    simp only [setWork, onTransport, HostTransport.answer] at hr
    split at hr
    · exact h.queue r hr
    next c hc =>
      rcases List.mem_append.mp hr with hr | hr
      · exact h.queue r hr
      · cases List.mem_singleton.mp hr
        rintro rfl
        rw [(hl.label j a ha).1 c hc] at h
        exact h.working content hj
  | _ => exact ⟨hset, h.working, h.queue⟩

/-- A request that is gone is not handed over by polls from a number on. -/
structure Withheld (s : Scene κ) (p i : Nat) : Prop where
  gone : s.Gone i
  le : p ≤ s.polls.length
  polls : ∀ q batch, p ≤ q → s.polls[q]? = some batch → ∀ r ∈ batch, r.callback ≠ i
  delivered : ∀ q, p ≤ q → (q, i) ∉ s.delivered

omit [DecidableEq κ] in
theorem Gone.withheld (h : s.Gone i) (hb : Begun s) : s.Withheld s.polls.length i := by
  refine ⟨h, Nat.le_refl _, fun q batch hq hget => ?_, fun q hq hd => ?_⟩
  · exact absurd (lt_length_of_getElem? hget) (Nat.not_lt.mpr hq)
  · exact absurd (hb _ hd) (Nat.not_lt.mpr hq)

theorem Withheld.step {p : Nat} (h : s.Withheld p i) (hl : Labelled s) (hs : Step s t) :
    t.Withheld p i := by
  have hgone := h.gone.step hl hs
  have hset {q : Nat} {rest : List (Response κ Nat)} (hrest : p ≤ q → ∀ r ∈ rest, r.callback ≠ i) :
      ∀ a batch, p ≤ a → (s.polls.set q rest)[a]? = some batch → ∀ r ∈ batch, r.callback ≠ i := by
    intro a batch ha hget
    by_cases haq : a = q
    · subst haq
      obtain ⟨hlt, he⟩ := List.getElem?_eq_some_iff.mp hget
      rw [List.getElem_set_self] at he
      exact he ▸ hrest ha
    · rw [List.getElem?_set_ne (Ne.symm haq)] at hget
      exact h.polls a batch ha hget
  cases hs with
  | poll =>
    refine ⟨hgone, ?_, fun q batch hq hget => ?_, h.delivered⟩
    · simp only [beginPoll, List.length_append]
      exact Nat.le_add_right_of_le h.le
    · simp only [beginPoll] at hget
      by_cases hlt : q < s.polls.length
      · rw [List.getElem?_append_left hlt] at hget
        exact h.polls q batch hq hget
      · rw [List.getElem?_append_right (Nat.le_of_not_lt hlt)] at hget
        cases List.mem_singleton.mp (List.mem_of_getElem? hget)
        exact h.gone.queue
  | @deliver q r rest hget =>
    refine ⟨hgone, ?_, hset fun hq r' hr' => h.polls q _ hq hget r' (by simp [hr']), ?_⟩
    · simpa [setPoll] using h.le
    · intro a ha hd
      rcases List.mem_append.mp hd with hd | hd
      · exact h.delivered a ha hd
      · cases List.mem_singleton.mp hd
        exact h.polls q _ ha hget r (by simp) rfl
  | abandon =>
    refine ⟨hgone, ?_, hset (by simp), h.delivered⟩
    simpa [setPoll] using h.le
  | _ => exact ⟨hgone, h.le, h.polls, h.delivered⟩

structure Unposted (s : Scene κ) (i : Nat) : Prop where
  cancelled : s.tasks.isCancelled i = true
  work : s.work i = .ahead ∨ s.work i = .over
  posted : i ∉ s.posted

theorem Unposted.step (h : s.Unposted i) (hs : Step s t) : t.Unposted i := by
  have hc := hs.grows.tasks.isCancelled h.cancelled
  have hwork {j : Nat} {w v : Work} (hj : s.work j = v) (hv : v ≠ .ahead ∧ v ≠ .over) :
      (s.setWork j w).work i = .ahead ∨ (s.setWork j w).work i = .over := by
    by_cases hij : i = j
    · subst hij
      exact absurd h.work (by simp [hj, hv.1, hv.2])
    · simpa [setWork, Function.update_of_ne hij] using h.work
  cases hs with
  | @begin j _ hj =>
    refine ⟨hc, ?_, h.posted⟩
    by_cases hij : i = j
    · subst hij
      exact .inr (by simp [setWork, h.cancelled])
    · simpa [setWork, Function.update_of_ne hij] using h.work
  | @post j hj =>
    refine ⟨hc, hwork hj (by simp), fun hm => ?_⟩
    rcases List.mem_append.mp hm with hm | hm
    · exact h.posted hm
    · cases List.mem_singleton.mp hm
      exact absurd h.work (by simp [hj])
  | reply _ hj => exact ⟨hc, hwork hj (by simp), h.posted⟩
  | check hj => exact ⟨hc, hwork hj (by simp), h.posted⟩
  | append hj => exact ⟨hc, hwork hj (by simp), h.posted⟩
  | _ => exact ⟨hc, h.work, h.posted⟩

omit [DecidableEq κ] in
theorem Gone.unposted (h : s.Gone i) (hl : Launched s) (hi : s.work i = .ahead) :
    s.Unposted i :=
  ⟨h.settled.resolve_right fun ho => (nomatch hi.symm.trans ho), .inl hi, fun hm => hl i hm hi⟩

end Scene

end DebugDesk.Interleaving
