import DebugDesk.Proofs.Transport.Settling

/-!
# Discarded owners

From the return of a call that cancels tasks on, no answer to a request that it is about is handed
over by a poll that begins later, unless the request was lost before: a shutdown forgets the tasks
that came after it had taken the lock, and has not cancelled them. A call touches no tasks and no
answers of other owners.
-/
namespace DebugDesk.Interleaving

variable {κ : Type} [DecidableEq κ] {s t u : Scene κ} {g : Reason κ} {i k n : Nat}

/-- Why a thread cancels tasks, and how many there were when it took the lock. -/
def Caller.call : Caller κ → Option (Reason κ × Nat)
  | .cancelling g n _ | .withdrawing g n _ _ | .released g n => some (g, n)
  | .emptying n => some (.shutdown, n)
  | .idle | .submitting _ => none

/-- What a step does to the thread that makes it. -/
inductive Turn (s t : Scene κ) (k : Nat) : Caller κ → Caller κ → Prop
  | submit : Turn s t k .idle (.submitting s.count)
  | submitted {i : Nat} : t = (s.onTasks fun m => (m.track i).settle i).put k .idle →
      Turn s t k (.submitting i) .idle
  | call {g : Reason κ} {is : List Nat} : s.Free →
      (∀ i, i ∈ is ↔ i ∈ s.tasks.tracked ∧ g.covers (s.owner i)) →
      Turn s t k .idle (.cancelling g s.count is)
  | strike {g : Reason κ} {n i : Nat} {is : List Nat} :
      t = (s.onTasks (·.strike i g.forgets)).put k (.withdrawing g n i is) →
      Turn s t k (.cancelling g n (i :: is)) (.withdrawing g n i is)
  | withdraw {g : Reason κ} {n i : Nat} {is : List Nat} :
      t = (s.onTasks (·.withdraw i)).put k (.cancelling g n is) →
      Turn s t k (.withdrawing g n i is) (.cancelling g n is)
  | release {g : Reason κ} {n : Nat} : Turn s t k (.cancelling g n []) (.released g n)
  | forget {n : Nat} : Turn s t k (.released .shutdown n) (.emptying n)
  | drop {o : κ} {n : Nat} : s.QueueFree → t = (s.onTransport (·.drop o)).put k .idle →
      Turn s t k (.released (.discard o) n) .idle
  | empty {n : Nat} : s.QueueFree → t = (s.onTransport (·.emptyQueue)).put k .idle →
      Turn s t k (.emptying n) .idle

/-- A step of another thread or of a task leaves a thread where it is. -/
theorem Step.turn (hs : Step s t) (k : Nat) :
    t.callers k = s.callers k ∨ Turn s t k (s.callers k) (t.callers k) := by
  have hput (u : Scene κ) {j : Nat} {c : Caller κ} (hu : u.callers = s.callers)
      (h : Turn s (u.put j c) j (s.callers j) c) :
      (u.put j c).callers k = s.callers k ∨
        Turn s (u.put j c) k (s.callers k) ((u.put j c).callers k) := by
    rcases Scene.callers_put u j k c with ⟨_, he⟩ | ⟨rfl, he⟩
    · exact .inl (he.trans (congrFun hu k))
    · right
      rw [he]
      exact h
  cases hs with
  | request hk => exact hput (s.onTasks _) rfl (hk ▸ .submit)
  | track hk => exact hput (s.onTasks _) rfl (hk ▸ .submitted rfl)
  | discard o hk hf => exact hput s rfl (hk ▸ .call hf fun _ => Scene.mem_ownedBy o)
  | shutdown hk hf => exact hput s rfl (hk ▸ .call hf fun _ => by simp [Reason.covers])
  | strike hk => exact hput (s.onTasks _) rfl (hk ▸ .strike rfl)
  | withdraw hk => exact hput (s.onTasks _) rfl (hk ▸ .withdraw rfl)
  | release hk => exact hput s rfl (hk ▸ .release)
  | drop hk hq => exact hput (s.onTransport _) rfl (hk ▸ .drop hq rfl)
  | forget hk => exact hput (s.onTasks _) rfl (hk ▸ .forget)
  | empty hk hq => exact hput (s.onTransport _) rfl (hk ▸ .empty hq rfl)
  | _ => exact .inl rfl

def During (k : Nat) : Scene κ → Scene κ → Prop :=
  Relation.ReflTransGen fun a b => Step a b ∧ (b.callers k).call ≠ none

/-- A call that cancels tasks, from before it began until it has returned. -/
def Cancels (g : Reason κ) (s t : Scene κ) : Prop :=
  ∃ k n a b, s.callers k = .idle ∧ Step s a ∧ (a.callers k).call = some (g, n) ∧ During k a b ∧
    Step b t ∧ t.callers k = .idle

/-- A thread goes on with the call that it has begun. -/
theorem call_step (hk : (s.callers k).call = some (g, n)) (hs : Step s t)
    (ht : (t.callers k).call ≠ none) : (t.callers k).call = some (g, n) := by
  rcases hs.turn k with he | hturn
  · rw [he, hk]
  · generalize s.callers k = c at hturn hk
    generalize t.callers k = d at hturn ht
    cases hturn with
    | submit | submitted | call => exact nomatch hk
    | drop | empty => exact absurd rfl ht
    | strike | withdraw | release | forget => exact hk

theorem call_during (hk : (s.callers k).call = some (g, n)) (hs : During k s t) :
    (t.callers k).call = some (g, n) := by
  induction hs with
  | refl => exact hk
  | tail _ hs ih => exact call_step ih hs.1 hs.2

theorem During.steps (hs : During k s t) : Steps s t := by
  induction hs with
  | refl => exact .refl
  | tail _ hs ih => exact ih.tail hs.1

/-- The tasks whose flags a thread has still to set. -/
def Caller.remaining : Caller κ → List Nat
  | .cancelling _ _ is | .withdrawing _ _ _ is => is
  | .idle | .submitting _ | .released .. | .emptying _ => []

/-- A thread that cancels tasks did so before, or has just taken the lock and found them. -/
theorem call_by (hs : Step s t) (ht : (t.callers k).call = some (g, n)) :
    (s.callers k).call = some (g, n) ∨ s.callers k = .idle ∧ n = s.count ∧ s.Free ∧
      ∀ i, i ∈ (t.callers k).remaining ↔ i ∈ s.tasks.tracked ∧ g.covers (s.owner i) := by
  rcases hs.turn k with he | hturn
  · exact .inl (he ▸ ht)
  · generalize s.callers k = c at hturn ⊢
    generalize t.callers k = d at hturn ht ⊢
    cases hturn with
    | submit | submitted | drop | empty => exact nomatch ht
    | call hf his =>
      cases ht
      exact .inr ⟨rfl, rfl, hf, his⟩
    | strike | withdraw | release | forget => exact .inl ht

/-- What a thread has still to cancel it cancels. -/
theorem remaining_step (h : s.Sound) (hs : Step s t) (hi : i ∈ (s.callers k).remaining) :
    i ∈ (t.callers k).remaining ∨ t.Settled i := by
  have hp := h.pending k
  rcases hs.turn k with he | hturn
  · exact .inl (he ▸ hi)
  · generalize s.callers k = c at hturn hi hp
    generalize t.callers k = d at hturn ⊢
    cases hturn with
    | submit | submitted | call | release | forget | drop | empty => exact nomatch hi
    | @strike _ _ j _ he =>
      subst he
      rcases List.mem_cons.mp hi with rfl | hi
      · exact .inr (.inl (TaskManager.isCancelled_strike _ _ _ (h.known i (hp.tracked i hi))))
      · exact .inl hi
    | withdraw => exact .inl hi

theorem remaining_during (h : s.Sound) (hs : During k s t) (hi : i ∈ (s.callers k).remaining) :
    i ∈ (t.callers k).remaining ∨ t.Settled i := by
  induction hs with
  | refl => exact .inl hi
  | tail hd hs ih =>
    rcases ih with hi | hi
    · exact remaining_step (h.steps (During.steps hd)) hs.1 hi
    · exact .inr (hs.1.grows.settled hi)

/-- When a call returns, what is settled of what it is about is gone. -/
theorem gone_of_return (h : s.Sound) (hk : (s.callers k).call = some (g, n)) (hs : Step s t)
    (ht : t.callers k = .idle) (hi : t.Settled i) (hc : g.covers (s.owner i)) : t.Gone i := by
  rcases hs.turn k with he | hturn
  · rw [← he, ht] at hk
    exact nomatch hk
  · rw [ht] at hturn
    generalize s.callers k = c at hturn hk
    cases hturn with
    | submitted => exact nomatch hk
    | drop hq he =>
      cases hk
      subst he
      refine ⟨hi, hq i, fun r hr hri => ?_⟩
      obtain ⟨hr, hro⟩ := List.mem_filter.mp hr
      obtain ⟨_, ho⟩ := h.queued r hr
      rw [hri, hc] at ho
      simp [← ho] at hro
    | empty hq he =>
      subst he
      exact ⟨hi, hq i, nofun⟩

theorem Scene.Grows.of_steps (hs : Steps s t) (hi : s.Settled i) : t.Settled i := by
  induction hs with
  | refl => exact hi
  | tail _ hs ih => exact hs.grows.settled ih

/-- Whether nothing can cancel a request any more of which something may still come. -/
structure Scene.Lost (s : Scene κ) (i : Nat) : Prop where
  lt : i < s.count
  untracked : i ∉ s.tasks.tracked
  submitted : ∀ k, s.callers k ≠ .submitting i
  unsettled : ¬s.Settled i

/-- A call settles what it is about, lost requests apart. -/
theorem Cancels.settled (h : s.Sound) (hs : Cancels g s t) (hi : i < s.count)
    (hc : g.covers (s.owner i)) (hlost : ¬s.Lost i) : t.Settled i := by
  obtain ⟨k, n, a, b, hidle, hsa, hcall, hab, hbt, hret⟩ := hs
  have ha : a.Sound := h.step hsa
  have hat : Steps a t := hab.steps.tail hbt
  by_cases hset : s.Settled i
  · exact Scene.Grows.of_steps (.head hsa hat) hset
  rcases call_by hsa hcall with hcall | ⟨-, -, hf, his⟩
  · rw [hidle] at hcall
    exact nomatch hcall
  have hnot : ∀ j, s.callers j ≠ .submitting i := fun j hj => hf j (hj ▸ trivial)
  have htracked : i ∈ s.tasks.tracked := by
    by_contra hu
    exact hlost ⟨hi, hu, hnot, hset⟩
  rcases remaining_during ha hab ((his i).mpr ⟨htracked, hc⟩) with hr | hr
  · rcases remaining_step (ha.steps hab.steps) hbt hr with hr | hr
    · rw [hret] at hr
      exact nomatch hr
    · exact hr
  · exact hbt.grows.settled hr

/-- What comes to be tracked was being submitted. -/
theorem tracked_by (hs : Step s t) (hi : i ∈ t.tasks.tracked) :
    i ∈ s.tasks.tracked ∨ ∃ k, s.callers k = .submitting i := by
  cases hs with
  | @track k j hk =>
    have hi : i ∈ ((s.tasks.track j).settle j).tracked := hi
    rw [TaskManager.tracked_settle] at hi
    rcases List.mem_append.mp (TaskManager.mem_of_mem_ite_erase hi) with hi | hi
    · exact .inl hi
    · exact .inr ⟨k, List.mem_singleton.mp hi ▸ hk⟩
  | @strike k n j g is =>
    have hi : i ∈ (s.tasks.strike j g.forgets).tracked := hi
    rw [TaskManager.tracked_strike] at hi
    exact .inl (TaskManager.mem_of_mem_ite_erase hi)
  | @withdraw k n j =>
    have hi : i ∈ (s.tasks.withdraw j).tracked := hi
    rw [TaskManager.tracked_withdraw] at hi
    exact .inl (TaskManager.mem_of_mem_ite_erase hi)
  | @announce j =>
    have hi : i ∈ (s.tasks.settle j).tracked := hi
    rw [TaskManager.tracked_settle] at hi
    exact .inl (TaskManager.mem_of_mem_ite_erase hi)
  | forget => exact nomatch hi
  | append =>
    simp only [Scene.tasks, Scene.setWork, Scene.onTransport, HostTransport.tasks_answer] at hi
    exact .inl hi
  | _ => exact .inl hi

/-- A task is forgotten when it is settled, or all are. -/
theorem untracked_by (h : s.Sound) (hs : Step s t) (hi : i ∈ s.tasks.tracked) :
    i ∈ t.tasks.tracked ∨ t.Settled i ∨
      s.Free ∧ ∃ k n, s.callers k = .released .shutdown n ∧ t.callers k = .emptying n := by
  cases hs with
  | @track k j hk =>
    have hp := h.pending k
    rw [hk] at hp
    have hij : i ≠ j := fun he => hp.2 (he ▸ hi)
    left
    change i ∈ ((s.tasks.track j).settle j).tracked
    rw [TaskManager.tracked_settle, TaskManager.mem_ite_erase hij]
    exact List.mem_append_left _ hi
  | @strike k n j g is =>
    by_cases hij : i = j
    · exact .inr (.inl (.inl (hij ▸ TaskManager.isCancelled_strike _ _ _ (h.known i hi))))
    · left
      change i ∈ (s.tasks.strike j g.forgets).tracked
      rwa [TaskManager.tracked_strike, TaskManager.mem_ite_erase hij]
  | @withdraw k n j g is hk =>
    by_cases hij : i = j
    · have hp := h.pending k
      rw [hk] at hp
      subst hij
      exact .inr (.inl (.inl ((TaskManager.isCancelled_withdraw ..).trans hp.2.2.1)))
    · left
      change i ∈ (s.tasks.withdraw j).tracked
      rwa [TaskManager.tracked_withdraw, TaskManager.mem_ite_erase hij]
  | @announce j hf =>
    by_cases hover : (s.tasks.progressOf i).isOver = true
    · exact .inr (.inl ((Step.announce hf).grows.settled (h.ended i hover)))
    · left
      change i ∈ (s.tasks.settle j).tracked
      rw [TaskManager.tracked_settle]
      by_cases hij : i = j
      · rwa [← hij, if_neg hover]
      · rwa [TaskManager.mem_ite_erase hij]
  | @forget k n hk hf => exact .inr (.inr ⟨hf, k, n, hk, Function.update_self ..⟩)
  | append =>
    left
    simp only [Scene.tasks, Scene.setWork, Scene.onTransport, HostTransport.tasks_answer]
    exact hi
  | _ => exact .inl hi

/-- What is submitted comes to be tracked, unless it is settled by then. -/
theorem submitted_by (h : s.Sound) (hs : Step s t) (hk : s.callers k = .submitting i) :
    t.callers k = .submitting i ∨ i ∈ t.tasks.tracked ∨ t.Settled i := by
  have hp := h.pending k
  rcases hs.turn k with he | hturn
  · exact .inl (he.trans hk)
  · rw [hk] at hturn hp
    generalize t.callers k = d at hturn ⊢
    cases hturn with
    | submitted he =>
      subst he
      by_cases hover : (s.tasks.progressOf i).isOver = true
      · exact .inr (.inr (hs.grows.settled (h.ended i hover)))
      · right; left
        change i ∈ ((s.tasks.track i).settle i).tracked
        rw [TaskManager.tracked_settle_track hp.2, if_neg hover]
        exact List.mem_append_right _ (List.mem_singleton_self i)

/-- What a thread found when it took the lock is still to be cancelled, or settled; what is
submitted after that is none of it. -/
structure Scene.Swept (s : Scene κ) : Prop where
  later : ∀ k g n j i, (s.callers k).call = some (g, n) → s.callers j = .submitting i → n ≤ i
  found : ∀ k g n, (s.callers k).call = some (g, n) → ∀ i ∈ s.tasks.tracked, i < n →
    g.covers (s.owner i) → i ∈ (s.callers k).remaining ∨ s.Settled i

omit [DecidableEq κ] in
theorem call_le (h : s.Sound) (hk : (s.callers k).call = some (g, n)) : n ≤ s.count := by
  have hp := h.pending k
  generalize s.callers k = c at hp hk
  cases c with
  | idle | submitting => exact nomatch hk
  | cancelling | released =>
    cases hk
    exact hp.le
  | withdrawing =>
    cases hk
    exact hp.1.le
  | emptying =>
    cases hk
    exact Scene.Facing.le hp

theorem submitting_by (hs : Step s t) (ht : t.callers k = .submitting i) :
    s.callers k = .submitting i ∨ i = s.count := by
  rcases hs.turn k with he | hturn
  · exact .inl (he ▸ ht)
  · rw [ht] at hturn
    generalize s.callers k = c at hturn ⊢
    cases hturn
    exact .inr rfl

theorem Scene.Swept.step (h : s.Swept) (hsound : s.Sound) (hs : Step s t) : t.Swept := by
  refine ⟨fun k g n j i hk hj => ?_, fun k g n hk i hi hin hc => ?_⟩
  · rcases call_by hs hk with hk | ⟨-, rfl, hf, -⟩ <;>
      rcases submitting_by hs hj with hj | rfl
    · exact h.later k g n j i hk hj
    · exact call_le hsound hk
    · exact absurd (hj ▸ trivial) (hf j)
    · exact Nat.le_refl _
  · rcases call_by hs hk with hk | ⟨-, rfl, hf, his⟩ <;>
      rcases tracked_by hs hi with hi | ⟨j, hj⟩
    · rw [hs.grows.owner (hsound.known i hi)] at hc
      rcases h.found k g n hk i hi hin hc with hr | hr
      · exact remaining_step hsound hs hr
      · exact .inr (hs.grows.settled hr)
    · exact absurd (h.later k g n j i hk hj) (Nat.not_le.mpr hin)
    · rw [hs.grows.owner (hsound.known i hi)] at hc
      exact .inl ((his i).mpr ⟨hi, hc⟩)
    · exact absurd (hj ▸ trivial) (hf j)

theorem swept_of_reachable (h : Reachable s) : s.Swept := by
  obtain ⟨url, headers, timeout, executor, hs⟩ := h
  have hstart := Scene.sound_start (κ := κ) url headers timeout executor
  induction hs with
  | refl => exact ⟨nofun, nofun⟩
  | tail hd hs ih => exact ih.step (hstart.steps hd) hs

/-- A request is lost only when a shutdown forgets it that had taken the lock before it came. -/
theorem lost_by (h : s.Sound) (hw : s.Swept) (hs : Step s t) (hi : t.Lost i) (hn : ¬s.Lost i) :
    ∃ k n, s.callers k = .released .shutdown n ∧ t.callers k = .emptying n ∧ n ≤ i ∧
      i ∈ s.tasks.tracked := by
  have hset : ¬s.Settled i := fun hset => hi.unsettled (hs.grows.settled hset)
  have hlt : i < s.count := by
    rcases hs.count with hc | ⟨k, r, -, -, -, he⟩
    · exact hc ▸ hi.lt
    · have hk : t.callers k = .submitting s.count := he ▸ Function.update_self ..
      have hle : i < s.count + 1 := s.count_request k r _ ▸ (he ▸ hi.lt)
      exact Nat.lt_of_le_of_ne (Nat.le_of_lt_succ hle) fun hi' => hi.submitted k (hi' ▸ hk)
  have hsub (k : Nat) : s.callers k ≠ .submitting i := by
    intro hk
    rcases submitted_by h hs hk with hk | hk | hk
    · exact hi.submitted k hk
    · exact hi.untracked hk
    · exact hi.unsettled hk
  have htracked : i ∈ s.tasks.tracked := by
    by_contra hu
    exact hn ⟨hlt, hu, hsub, hset⟩
  rcases untracked_by h hs htracked with hu | hu | ⟨-, k, n, hk, ht⟩
  · exact absurd hu hi.untracked
  · exact absurd hu hi.unsettled
  · refine ⟨k, n, hk, ht, Nat.le_of_not_lt fun hin => ?_, htracked⟩
    have hcall : (s.callers k).call = some (.shutdown, n) := by
      rw [hk]
      rfl
    rcases hw.found k .shutdown n hcall i htracked hin trivial with hr | hr
    · rw [hk] at hr
      exact nomatch hr
    · exact hset hr

/-- A request comes in the middle of a shutdown, between the two times that it has the lock. -/
def Intrudes (s t : Scene κ) : Prop :=
  s.count < t.count ∧ ∃ k n, s.callers k = .released .shutdown n

/-- The scenes of a new transport when no request comes in the middle of a shutdown. -/
def Undisturbed (s : Scene κ) : Prop :=
  ∃ url headers timeout executor,
    Relation.ReflTransGen (fun a b => Step a b ∧ ¬Intrudes a b)
      (Scene.start url headers timeout executor) s

/-- No request has come since a shutdown that has not forgotten all tasks yet took the lock. -/
def Scene.Prompt (s : Scene κ) : Prop :=
  ∀ k n, (s.callers k).call = some (.shutdown, n) → s.callers k = .emptying n ∨ n = s.count

theorem Scene.Prompt.step (h : s.Prompt) (hs : Step s t) (hn : ¬Intrudes s t) : t.Prompt := by
  intro k n hk
  rcases hs.count with hc | ⟨j, r, hj, hf, -, rfl⟩
  · rw [hc]
    rcases call_by hs hk with hcall | ⟨-, hn, -⟩
    · refine (h k n hcall).imp (fun he => ?_) id
      rcases hs.turn k with hsame | hturn
      · exact hsame.trans he
      · rw [he] at hturn
        generalize t.callers k = d at hturn hk
        cases hturn
        exact nomatch hk
    · exact .inr hn
  · have hlt := Nat.lt_of_lt_of_eq (Nat.lt_succ_self s.count)
      (s.count_request j r (.submitting s.count)).symm
    rcases callers_put (s.onTasks (·.accept r r.owner)) j k (.submitting s.count)
      with ⟨-, he⟩ | ⟨-, he⟩
    · rw [he] at hk ⊢
      have hk : (s.callers k).call = some (.shutdown, n) := hk
      have hfree : ¬(s.callers k).holds := hf k
      change s.callers k = _ ∨ _
      cases hc : s.callers k with
      | idle | submitting =>
        rw [hc] at hk
        exact nomatch hk
      | cancelling | withdrawing =>
        rw [hc] at hfree
        exact absurd trivial hfree
      | released =>
        rw [hc] at hk
        cases hk
        exact absurd ⟨hlt, k, n, hc⟩ hn
      | emptying =>
        rw [hc] at hk
        cases hk
        exact .inl rfl
    · rw [he] at hk
      exact nomatch hk

theorem not_lost_of_undisturbed (h : Undisturbed s) : ¬s.Lost i := by
  obtain ⟨url, headers, timeout, executor, hs⟩ := h
  suffices s.Sound ∧ s.Swept ∧ s.Prompt ∧ ¬s.Lost i from this.2.2.2
  induction hs with
  | refl =>
    exact ⟨Scene.sound_start .., ⟨nofun, nofun⟩, nofun, fun hi => absurd hi.lt (Nat.not_lt_zero i)⟩
  | tail _ hs ih =>
    obtain ⟨hsound, hswept, hprompt, hnot⟩ := ih
    refine ⟨hsound.step hs.1, hswept.step hsound hs.1, hprompt.step hs.1 hs.2, fun hi => ?_⟩
    obtain ⟨k, n, hk, -, hle, htracked⟩ := lost_by hsound hswept hs.1 hi hnot
    rcases hprompt k n (by rw [hk]; rfl) with he | rfl
    · exact nomatch hk.symm.trans he
    · exact absurd (hsound.known i htracked) (Nat.not_lt.mpr hle)

theorem steps_owner (hs : Steps s t) (hi : i < s.count) :
    i < t.count ∧ t.owner i = s.owner i := by
  induction hs with
  | refl => exact ⟨hi, rfl⟩
  | tail _ hs ih =>
    exact ⟨Nat.lt_of_lt_of_le ih.1 hs.grows.count, (hs.grows.owner ih.1).trans ih.2⟩

theorem withheld_steps {p : Nat} (h : s.Withheld p i) (hs : s.Sound) (hst : Steps s t) :
    t.Withheld p i := by
  induction hst with
  | refl => exact h
  | tail hsu hs' ih => exact ih.step (hs.steps hsu).toLabelled hs'

theorem unposted_steps (h : s.Unposted i) (hst : Steps s t) : t.Unposted i := by
  induction hst with
  | refl => exact h
  | tail _ hs ih => exact ih.step hs

/-- A step that belongs to a call that is about an owner. -/
def Touches (s t : Scene κ) (owner : Option κ) : Prop :=
  ∃ k g n, t.callers k ≠ s.callers k ∧ (s.callers k).call = some (g, n) ∧ g.covers owner

omit [DecidableEq κ] in
theorem touches_put {o : Option κ} {c : Caller κ} (hne : c ≠ s.callers k)
    (hk : (s.callers k).call = some (g, n)) (hc : g.covers o) :
    Touches s (u.put k c) o := by
  refine ⟨k, g, n, fun he => hne ?_, hk, hc⟩
  rw [← he]
  exact (Function.update_self k c u.callers).symm

/-- A flag is set only by a call that is about the owner of the task. -/
theorem flagged_by (h : s.Sound) (hs : Step s t) (hi : t.tasks.isCancelled i = true)
    (hn : s.tasks.isCancelled i = false) : Touches s t (s.owner i) := by
  have hsame (he : t.tasks.isCancelled i = s.tasks.isCancelled i) : Touches s t (s.owner i) := by
    rw [he, hn] at hi
    exact nomatch hi
  cases hs with
  | request => exact hsame (TaskManager.isCancelled_accept ..)
  | track => exact hsame (TaskManager.isCancelled_settle ..)
  | @strike k n j g is hk =>
    by_cases hij : j = i
    · subst hij
      have hp := h.pending k
      rw [hk] at hp
      exact touches_put (by simp [hk]) (by rw [hk]; rfl) (hp.covers j (by simp))
    · exact hsame (TaskManager.isCancelled_strike_of_ne _ _ hij)
  | withdraw => exact hsame (TaskManager.isCancelled_withdraw ..)
  | start => exact hsame (TaskManager.isCancelled_setProgress ..)
  | finish => exact hsame (TaskManager.isCancelled_setProgress ..)
  | announce => exact hsame (TaskManager.isCancelled_settle ..)
  | append =>
    refine hsame ?_
    simp only [Scene.tasks, Scene.setWork, Scene.onTransport, HostTransport.tasks_answer]
  | _ => exact hsame rfl

/-- A task is withdrawn only by a call that is about its owner. -/
theorem withdrawn_by (h : s.Sound) (hs : Step s t) (hi : t.tasks.progressOf i = .withdrawn)
    (hn : s.tasks.progressOf i ≠ .withdrawn) : Touches s t (s.owner i) := by
  have hsame (he : t.tasks.progressOf i = s.tasks.progressOf i) : Touches s t (s.owner i) :=
    absurd (he ▸ hi) hn
  have hset {j : Nat} {p : Progress} (hj : j < s.count)
      (he : t.tasks.progressOf i = (s.tasks.setProgress j p).progressOf i) (hp : p ≠ .withdrawn) :
      Touches s t (s.owner i) := by
    rw [he, TaskManager.progressOf_setProgress _ _ _ _ hj] at hi
    split at hi
    · exact absurd hi hp
    · exact absurd hi hn
  cases hs with
  | request => exact absurd (TaskManager.withdrawn_of_accept hi) hn
  | track => exact hsame (TaskManager.progressOf_settle ..)
  | strike => exact hsame (TaskManager.progressOf_strike ..)
  | @withdraw k n j g is hk =>
    by_cases hij : j = i
    · subst hij
      have hp := h.pending k
      rw [hk] at hp
      exact touches_put (by simp [hk]) (by rw [hk]; rfl) hp.2.2.2.2
    · exact hsame (TaskManager.progressOf_withdraw _ hij)
  | start _ hj => exact hset hj rfl nofun
  | finish _ hp => exact hset (TaskManager.lt_of_running hp) rfl nofun
  | announce => exact hsame (TaskManager.progressOf_settle ..)
  | append =>
    refine hsame ?_
    simp only [Scene.tasks, Scene.setWork, Scene.onTransport, HostTransport.tasks_answer]
  | _ => exact hsame rfl

/-- An answer leaves the queue only by a poll, or by a call that is about its owner. -/
theorem dequeued_by (hs : Step s t) {r : Response κ Nat}
    (hr : r ∈ s.transport.queue) :
    r ∈ t.transport.queue ∨ t.polls = s.polls ++ [s.transport.queue] ∨ Touches s t r.owner := by
  cases hs with
  | @drop k n o hk =>
    by_cases ho : r.owner = some o
    · exact .inr (.inr (touches_put (g := .discard o) (by simp [hk]) (by rw [hk]; rfl) ho))
    · exact .inl (List.mem_filter.mpr ⟨hr, by simpa using ho⟩)
  | @empty k n hk =>
    exact .inr (.inr (touches_put (g := .shutdown) (by simp [hk]) (by rw [hk]; rfl) trivial))
  | poll => exact .inr (.inl rfl)
  | append =>
    left
    simp only [Scene.setWork, Scene.onTransport, HostTransport.answer]
    split
    · exact hr
    · exact List.mem_append_left _ hr
  | _ => exact .inl hr

/-- Once a call that cancels the requests of an owner has returned, no poll that begins later hands
an answer over to a request that was made before and was not lost, and none of these that was still
ahead is posted. No request is lost while none comes in the middle of a shutdown, and only those
that do. A flag is set, a task is withdrawn and an answer is dropped only by a call that is about
its owner. -/
theorem cancelled_stay_silent (hs : Reachable s) :
    (∀ g t u, Cancels g s t → Steps t u → ∀ i < s.count, g.covers (s.owner i) → ¬s.Lost i →
      (∀ p, t.polls.length ≤ p → (p, i) ∉ u.delivered) ∧ (t.work i = .ahead → i ∉ u.posted)) ∧
    (Undisturbed s → ∀ i, ¬s.Lost i) ∧
    (∀ t, Step s t →
      (∀ i, t.Lost i → s.Lost i ∨ ∃ k n, s.callers k = .released .shutdown n ∧
        t.callers k = .emptying n ∧ n ≤ i ∧ i ∈ s.tasks.tracked) ∧
      (∀ i, t.tasks.isCancelled i = true → s.tasks.isCancelled i = true ∨
        Touches s t (s.owner i)) ∧
      (∀ i, t.tasks.progressOf i = .withdrawn → s.tasks.progressOf i = .withdrawn ∨
        Touches s t (s.owner i)) ∧
      ∀ r ∈ s.transport.queue, r ∈ t.transport.queue ∨ t.polls = s.polls ++ [s.transport.queue] ∨
        Touches s t r.owner) := by
  have h := Scene.sound_of_reachable hs
  refine ⟨fun g t u hcancels htu i hi hc hlost => ?_, fun hu _ => not_lost_of_undisturbed hu,
    fun t hst => ⟨fun i hi => ?_, fun i hi => ?_, fun i hi => ?_, fun r hr => dequeued_by hst hr⟩⟩
  · have hset := hcancels.settled h hi hc hlost
    obtain ⟨k, n, a, b, -, hsa, hcall, hab, hbt, hret⟩ := hcancels
    have hsab : Steps s b := (Relation.ReflTransGen.single hsa).trans hab.steps
    have hb : b.Sound := h.steps hsab
    have ht : t.Sound := hb.step hbt
    have hown : b.owner i = s.owner i := (steps_owner hsab hi).2
    have hgone : t.Gone i := gone_of_return hb (call_during hcall hab) hbt hret hset (hown ▸ hc)
    refine ⟨fun p hp => ?_, fun hw => ?_⟩
    · exact (withheld_steps (hgone.withheld ht.begun) ht htu).delivered p hp
    · exact (unposted_steps (hgone.unposted ht.launched hw) htu).posted
  · by_cases hn : s.Lost i
    · exact .inl hn
    · exact .inr (lost_by h (swept_of_reachable hs) hst hi hn)
  · cases hn : s.tasks.isCancelled i with
    | true => exact .inl rfl
    | false => exact .inr (flagged_by h hst hi hn)
  · by_cases hn : s.tasks.progressOf i = .withdrawn
    · exact .inl hn
    · exact .inr (withdrawn_by h hst hi hn)

open Scene

def ping : Request Nat Nat := ⟨.str "ping", .null, some 7, some 0, false⟩

def pinged : Scene Nat :=
  let s := ((start "" .null 1.0 .deferred).onTasks (·.accept ping ping.owner)).put 0 (.submitting 0)
  let s := (s.onTasks fun m => (m.track 0).settle 0).put 0 .idle
  let s := (s.onTasks (·.setProgress 0 .running)).setWork 0 .begun
  { s.setWork 0 .posted with posted := [0] }.setWork 0 (.answered .null)

theorem reachable_pinged : Reachable pinged := by
  refine ⟨"", .null, 1.0, .deferred, ?_⟩
  have h := Relation.ReflTransGen.single (Step.request (k := 0) (r := ping)
    (s := start "" .null 1.0 .deferred) rfl (fun _ => id) nofun (by rintro c ⟨⟩; rfl))
  have h := h.tail (.track (k := 0) rfl)
  have h := h.tail (.start (i := 0) rfl (by decide))
  have h := h.tail (.begin (i := 0) rfl rfl)
  have h := h.tail (.post (i := 0) rfl)
  exact h.tail (.reply (some .null) rfl)

omit [DecidableEq κ] in
theorem Scene.QueueFree.setWork (hq : s.QueueFree) (i : Nat) {w : Work}
    (hw : ∀ content, w ≠ .queueing content) : (s.setWork i w).QueueFree := by
  intro j content
  by_cases hj : j = i
  · subst hj
    simpa [Scene.setWork] using hw content
  · simpa [Scene.setWork, hj] using hq j content

omit [DecidableEq κ] in
theorem Scene.queueFree_start (host : String) (label : Json) (timeout : Float)
    (executor : Executor) : (start (κ := κ) host label timeout executor).QueueFree := by
  intro i content
  simp [start]

/-- The owner is discarded, and the answer is dropped when it gets to the queue. -/
theorem pinged_stays_silent :
    ∃ t u : Scene Nat, pinged.work 0 = .answered .null ∧ Cancels (.discard 7) pinged t ∧
      Steps t u ∧ u.polls.length = t.polls.length + 1 ∧
      ∀ p, t.polls.length ≤ p → (p, 0) ∉ u.delivered := by
  have hidle : ∀ k, pinged.callers k = .idle := by simp [pinged, put, onTasks, setWork, start]
  have hstart : (start (κ := Nat) "" .null 1.0 .deferred).QueueFree := queueFree_start _ _ _ _
  have hposted := (hstart.setWork 0 (w := .begun) (by simp)).setWork 0 (w := .posted) (by simp)
  have hfree : pinged.QueueFree := hposted.setWork 0 (w := .answered .null) (by simp)
  have hbegin : Step pinged (pinged.put 0 (.cancelling (.discard 7) 1 [0])) :=
    .discard 7 (hidle 0) fun k hk => by simp [hidle k, Caller.holds] at hk
  have hduring : During 0 (pinged.put 0 (.cancelling (.discard 7) 1 [0])) _ :=
    .single ⟨.strike (k := 0) rfl rfl, Option.some_ne_none _⟩
  have hduring := hduring.tail ⟨.withdraw (k := 0) rfl, Option.some_ne_none _⟩
  have hduring := hduring.tail ⟨.release (k := 0) rfl, Option.some_ne_none _⟩
  obtain ⟨t, hcall, hwork, hflag⟩ : ∃ t, Cancels (.discard 7) pinged t ∧ t.work = pinged.work ∧
      t.tasks.isCancelled 0 = true :=
    ⟨_, ⟨0, 1, _, _, hidle 0, hbegin, rfl, hduring,
      .drop (k := 0) rfl hfree, rfl⟩, rfl, rfl⟩
  have ht : t.QueueFree := by rwa [QueueFree, hwork]
  have hcheck : Step t (t.setWork 0 .over) := by
    have h : t.work 0 = .answered .null := hwork ▸ rfl
    simpa [hflag] using Step.check h ht
  have hpoll : Step (t.setWork 0 .over) (t.setWork 0 .over).beginPoll :=
    .poll (ht.setWork 0 (by simp))
  have hlater := (Relation.ReflTransGen.single hcheck).tail hpoll
  refine ⟨t, _, rfl, hcall, hlater, by simp [beginPoll, setWork], ?_⟩
  have hkept : ¬pinged.Lost 0 := fun h => h.untracked (List.mem_singleton_self 0)
  exact ((cancelled_stay_silent reachable_pinged).1 _ _ _ hcall hlater 0 (by decide) rfl hkept).1

/-- A request that came in the middle of a shutdown: its task is forgotten, and not cancelled. -/
def intruded : Scene Nat :=
  let s := (start "" .null 1.0 .deferred).put 0 (.cancelling .shutdown 0 [])
  let s := s.put 0 (.released .shutdown 0)
  let s := (s.onTasks (·.accept ping ping.owner)).put 1 (.submitting 0)
  let s := (s.onTasks fun m => (m.track 0).settle 0).put 1 .idle
  let s := (s.onTasks (·.forgetAll)).put 0 (.emptying 0)
  (s.onTransport (·.emptyQueue)).put 0 .idle

omit [DecidableEq κ] in
theorem Exclusive.free_put {c : Caller κ} (h : Exclusive s) (hk : (s.callers k).holds)
    (hc : ¬c.holds) : (s.put k c).Free := by
  intro j
  rcases callers_put s k j c with ⟨hne, he⟩ | ⟨-, he⟩ <;> rw [he]
  · exact fun hj => hne (h j k hj hk)
  · exact hc

theorem reachable_intruded : Reachable intruded := by
  have hstart := sound_start (κ := Nat) "" .null 1.0 .deferred
  have h := Relation.ReflTransGen.single (Step.shutdown (k := 0)
    (s := start (κ := Nat) "" .null 1.0 .deferred) rfl fun _ => id)
  have hfree := (hstart.steps h).exclusive.free_put (k := 0)
    (c := .released .shutdown 0) trivial id
  have h := (h.tail (.release (k := 0) rfl)).tail
    (.request (k := 1) (r := ping) rfl hfree nofun (by rintro c ⟨⟩; rfl))
  have hfree := (hstart.steps h).exclusive.free_put (k := 1) (c := .idle) trivial id
  have h := (h.tail (.track (k := 1) rfl)).tail (.forget (k := 0) rfl hfree)
  exact ⟨"", .null, 1.0, .deferred,
    h.tail (.empty (k := 0) rfl (queueFree_start (κ := Nat) "" .null 1.0 .deferred))⟩

/-- The owner of that request is discarded when the shutdown has returned. -/
def dismissed : Scene Nat :=
  let s := (intruded.put 1 (.cancelling (.discard 7) 1 [])).put 1 (.released (.discard 7) 1)
  (s.onTransport (·.drop 7)).put 1 .idle

theorem cancels_intruded : Cancels (.discard 7) intruded dismissed := by
  have hfree : intruded.Free := by
    intro k
    simp only [intruded, put, onTasks, onTransport, start, Function.update_apply]
    split_ifs <;> exact id
  have hbegin : Step intruded (intruded.put 1 (.cancelling (.discard 7) 1 [])) :=
    .discard 7 rfl hfree
  exact ⟨1, 1, _, _, rfl, hbegin, rfl, .single ⟨.release (k := 1) rfl, Option.some_ne_none _⟩,
    .drop (k := 1) rfl (queueFree_start (κ := Nat) "" .null 1.0 .deferred), rfl⟩

/-- It is posted all the same, and a later poll hands its answer over. -/
theorem intruder_is_answered :
    ∃ u : Scene Nat, Reachable intruded ∧ Cancels (.discard 7) intruded dismissed ∧
      Steps dismissed u ∧ 0 < intruded.count ∧ intruded.owner 0 = some 7 ∧
      dismissed.work 0 = .ahead ∧ 0 ∈ u.posted ∧ (dismissed.polls.length, 0) ∈ u.delivered := by
  have hstart : dismissed.QueueFree := queueFree_start (κ := Nat) "" .null 1.0 .deferred
  have hposted := (hstart.setWork 0 (w := .begun) (by simp)).setWork 0 (w := .posted) (by simp)
  have h := Relation.ReflTransGen.single (Step.start (s := dismissed) (i := 0) rfl (by decide))
  have h := h.tail (.begin (i := 0) rfl rfl)
  have h := h.tail (.post (i := 0) rfl)
  have h := h.tail (.reply (i := 0) (some .null) rfl)
  have h := h.tail (.check (i := 0) (rfl : _ = Work.answered .null)
    (hposted.setWork 0 (w := .answered .null) (by simp)))
  have h := h.tail (.append (i := 0) (t := ⟨some 7, ping, false, .running⟩) rfl rfl)
  have h := h.tail (.poll ?_)
  have h := h.tail (.deliver (p := 0) rfl)
  · exact ⟨_, reachable_intruded, cancels_intruded, h, by decide, rfl, rfl, .head _, .head _⟩
  · have hover := hposted.setWork 0 (w := .over) (by simp)
    simpa only [Scene.QueueFree, setWork, Scene.onTransport, onTasks, Function.update_idem]
      using hover

end DebugDesk.Interleaving
