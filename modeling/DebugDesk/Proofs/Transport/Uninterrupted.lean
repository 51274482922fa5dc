import DebugDesk.Proofs.Transport.Discarding

/-!
# Uninterrupted calls

What a transport does in one go is what it does step by step when nothing comes in between.
-/
namespace DebugDesk

namespace HostLink

variable {σ κ β : Type} {L : HostLink σ κ β} {i : Nat}

def view (L : HostLink σ κ β) (x : σ) : HostTransport κ β := L.transport.get x

/-- What a transport uses leaves the transport alone. -/
structure Separate (L : HostLink σ κ β) : Prop where
  lawful : L.transport.Lawful
  write : ∀ kind detail message x, L.view ((L.write kind detail message).outcome x).2 = L.view x
  post : ∀ p x, L.view ((L.post p).outcome x).2 = L.view x
  deliver : ∀ b content x, L.view ((L.deliver b content).outcome x).2 = L.view x

theorem view_map (h : L.transport.Lawful) (f : HostTransport κ β → HostTransport κ β) (x : σ) :
    L.view (L.transport.map f x) = f (L.view x) := h.get_set _ _

theorem view_manager (h : L.transport.Lawful)
    (f : TaskManager κ (Request κ β) → TaskManager κ (Request κ β)) (x : σ) :
    L.view (L.runner.manager.map f x) =
      { L.view x with tasks := f (L.view x).tasks } := h.get_set _ _

theorem get_manager (L : HostLink σ κ β) (x : σ) : L.runner.manager.get x = (L.view x).tasks := rfl

theorem outcome_announce (L : HostLink σ κ β) (i : Nat) (x : σ) :
    (L.runner.announce i).outcome x =
      (.ok (),
        if (L.view x).tasks.isTracked i then L.runner.manager.map (·.untrack i) x else x) := by
  simp only [TaskRunner.announce, Effect.outcome_bind, Part.outcome_read, get_manager]
  split
  next h =>
    cases (L.view x).tasks.task? i <;> rfl
  next => rfl

theorem untrack_of_not_isTracked {m : TaskManager κ (Request κ β)} (h : m.isTracked i = false) :
    m.untrack i = m := by
  have hi : i ∉ m.tracked := by simpa [TaskManager.isTracked] using h
  simp [TaskManager.untrack, List.erase_of_not_mem hi]

theorem view_announce (h : L.transport.Lawful) (i : Nat) (x : σ) :
    L.view ((L.runner.announce i).outcome x).2 =
      { L.view x with tasks := (L.view x).tasks.untrack i } := by
  rw [outcome_announce]
  cases ht : (L.view x).tasks.isTracked i with
  | true => exact view_manager h (·.untrack i) x
  | false =>
    rw [untrack_of_not_isTracked ht]
    rfl

theorem outcome_withdraw (h : L.transport.Lawful) (i : Nat) (x : σ) :
    ((L.runner.withdraw i).outcome x).1 = .ok () ∧
      L.view ((L.runner.withdraw i).outcome x).2 =
        { L.view x with tasks := (L.view x).tasks.withdraw i } := by
  simp only [TaskRunner.withdraw, Effect.outcome_bind, Part.outcome_read, get_manager,
    TaskManager.withdraw]
  by_cases hp : (L.view x).tasks.progressOf i = .waiting
  · simp only [hp, ↓reduceIte, Effect.outcome_bind, Part.outcome_update]
    refine ⟨by rw [outcome_announce], ?_⟩
    rw [view_announce h, view_manager h]
  · simp only [hp, ↓reduceIte]
    exact ⟨rfl, rfl⟩

/-- A tracked task is struck and then withdrawn. -/
theorem outcome_cancel (h : L.transport.Lawful) {x : σ} (forget : Bool)
    (hi : (L.view x).tasks.isTracked i = true) :
    ((L.runner.cancel i forget).outcome x).1 = .ok () ∧
      L.view ((L.runner.cancel i forget).outcome x).2 =
        { L.view x with tasks := ((L.view x).tasks.strike i forget).withdraw i } := by
  simp only [TaskRunner.cancel, Effect.outcome_bind, Part.outcome_read, get_manager, hi,
    Bool.not_true, Bool.false_eq_true, ↓reduceIte, Part.outcome_update]
  obtain ⟨hok, hview⟩ := outcome_withdraw h i (L.runner.manager.map (·.strike i forget) x)
  refine ⟨hok, hview.trans ?_⟩
  rw [view_manager h]

end HostLink

theorem Effect.outcome_then {σ α : Type} (e : Effect σ Unit) (f : Unit → Effect σ α) {x : σ}
    (h : (e.outcome x).1 = .ok ()) : (e >>= f).outcome x = (f ()).outcome (e.outcome x).2 := by
  rw [Effect.outcome_bind]
  rcases ho : e.outcome x with ⟨r, y⟩
  simp only [ho] at h
  subst h
  rfl

namespace Interleaving

open Effect (outcome_then)
open HostLink (view_map view_manager outcome_cancel)

variable {σ κ : Type} [DecidableEq κ] {L : HostLink σ κ Nat} {s : Scene κ} {x : σ}
  {g : Reason κ} {k n : Nat}

/-- The tasks of a call are cancelled one after the other. -/
theorem cancel_during (h : L.transport.Lawful) (is : List Nat) (hs : s.Sound)
    (hk : s.callers k = .cancelling g n is) (hx : s.transport = L.view x) :
    ∃ t, During k s t ∧ t.callers k = .cancelling g n [] ∧ t.work = s.work ∧
      (∀ j ≠ k, t.callers j = s.callers j) ∧
      ((is.forM fun i => L.runner.cancel i g.forgets).outcome x).1 = .ok () ∧
      t.transport = L.view ((is.forM fun i => L.runner.cancel i g.forgets).outcome x).2 := by
  induction is generalizing s x with
  | nil => exact ⟨s, .refl, hk, rfl, fun _ _ => rfl, rfl, hx⟩
  | cons i is ih =>
    have hp := hs.pending k
    rw [hk] at hp
    have htracked : s.tasks.isTracked i = true :=
      TaskManager.isTracked_iff.mpr (hp.tracked i (by simp))
    obtain ⟨hok, hview⟩ := outcome_cancel h g.forgets (x := x) (i := i) (hx ▸ htracked)
    have hcons : (i :: is).forM (fun i => L.runner.cancel i g.forgets) =
      (L.runner.cancel i g.forgets >>= fun _ => is.forM fun i => L.runner.cancel i g.forgets) := rfl
    rcases ho : (L.runner.cancel i g.forgets).outcome x with ⟨r, y⟩
    simp only [ho] at hok hview
    subst hok
    simp only [hcons, Effect.outcome_bind, ho]
    have hstrike : Step s ((s.onTasks (·.strike i g.forgets)).put k (.withdrawing g n i is)) :=
      .strike hk htracked
    have hk₁ : ((s.onTasks (·.strike i g.forgets)).put k (.withdrawing g n i is)).callers k =
      .withdrawing g n i is := Function.update_self ..
    have hwithdraw := Step.withdraw hk₁
    generalize hv : ((((s.onTasks (·.strike i g.forgets)).put k
      (.withdrawing g n i is)).onTasks (·.withdraw i)).put k (.cancelling g n is)) = v at hwithdraw
    have hk₂ : v.callers k = .cancelling g n is := by
      rw [← hv]
      exact Function.update_self ..
    have hview : v.transport = L.view y := by
      rw [hview, ← hx, ← hv]
      rfl
    have hother : ∀ j ≠ k, v.callers j = s.callers j := by
      intro j hj
      simp [← hv, Scene.put, Scene.onTasks, hj]
    obtain ⟨t, hd, ht, hw, hc, hok, htx⟩ := ih ((hs.step hstrike).step hwithdraw) hk₂ hview
    refine ⟨t, .head ⟨hstrike, ?_⟩ (.head ⟨hwithdraw, ?_⟩ hd), ht, ?_, ?_, hok, htx⟩
    · simp [hk₁, Caller.call]
    · simp [hk₂, Caller.call]
    · rw [hw, ← hv]
      rfl
    · exact fun j hj => (hc j hj).trans (hother j hj)

/-- Discarding an owner in one go is a call that nothing comes into. -/
theorem discard_uninterrupted (h : L.transport.Lawful) (hs : s.Sound) (hk : s.callers k = .idle)
    (hf : s.Free) (hq : s.QueueFree) (hx : s.transport = L.view x) (o : κ) :
    ∃ t, Cancels (.discard o) s t ∧ ((L.discard (some o)).outcome x).1 = .ok () ∧
      t.transport = L.view ((L.discard (some o)).outcome x).2 := by
  have hbegin : Step s (s.put k (.cancelling (.discard o) s.count (s.tasks.ownedBy (some o)))) :=
    .discard o hk hf
  have hself : (s.put k (.cancelling (.discard o) s.count (s.tasks.ownedBy (some o)))).callers k =
    _ := Function.update_self ..
  obtain ⟨b, hd, hb, hw, _, hok, hbx⟩ := cancel_during h _ (hs.step hbegin) hself hx
  have hrelease := Step.release hb
  have hrel : (b.put k (.released (.discard o) s.count)).callers k = _ := Function.update_self ..
  have hdrop := Step.drop hrel (by
    intro i content
    change b.work i ≠ _
    rw [hw]
    exact hq i content)
  have howned : s.tasks.ownedBy (some o) = (L.view x).tasks.ownedBy (some o) :=
    congrArg (TaskManager.ownedBy · (some o)) (congrArg HostTransport.tasks hx)
  have hdiscard : ((L.discard (some o)).outcome x) = (.ok (), L.transport.map (·.drop o)
      (((s.tasks.ownedBy (some o)).forM fun i => L.runner.cancel i true).outcome x).2) := by
    simp only [HostLink.discard, TaskRunner.cancelOwned, bind_assoc]
    rw [Effect.outcome_bind, Part.outcome_read, HostLink.get_manager]
    dsimp only
    rw [← howned]
    exact outcome_then _ _ hok
  rw [hdiscard]
  refine ⟨_, ⟨k, s.count, _, _, hk, hbegin, by rw [hself]; rfl,
    hd.tail ⟨hrelease, by rw [hrel]; exact nofun⟩, hdrop, Function.update_self ..⟩, rfl, ?_⟩
  rw [view_map h]
  exact congrArg (HostTransport.drop · o) hbx

/-- Shutting down in one go is a call that nothing comes into. -/
theorem shutdown_uninterrupted (h : L.transport.Lawful) (hs : s.Sound) (hk : s.callers k = .idle)
    (hf : s.Free) (hq : s.QueueFree) (hx : s.transport = L.view x) :
    ∃ t, Cancels .shutdown s t ∧ (L.shutdown.outcome x).1 = .ok () ∧
      t.transport = L.view (L.shutdown.outcome x).2 := by
  have hbegin : Step s (s.put k (.cancelling .shutdown s.count s.tasks.tracked)) := .shutdown hk hf
  have hself : (s.put k (.cancelling .shutdown s.count s.tasks.tracked)).callers k = _ :=
    Function.update_self ..
  obtain ⟨b, hd, hb, hw, hothers, hok, hbx⟩ := cancel_during h _ (hs.step hbegin) hself hx
  have hrelease := Step.release hb
  have hrel : (b.put k (.released .shutdown s.count)).callers k = _ := Function.update_self ..
  have hfree : (b.put k (.released .shutdown s.count)).Free := by
    intro j hj
    by_cases hjk : j = k
    · subst hjk
      rw [hrel] at hj
      exact hj
    · have he : (b.put k (.released .shutdown s.count)).callers j = s.callers j := by
        simp [Scene.put, hjk, hothers j hjk]
      exact hf j (he ▸ hj)
  have hforget := Step.forget hrel hfree
  have hemp : (((b.put k (.released .shutdown s.count)).onTasks (·.forgetAll)).put k
    (.emptying s.count)).callers k = _ := Function.update_self ..
  have hempty := Step.empty hemp (by
    intro i content
    change b.work i ≠ _
    rw [hw]
    exact hq i content)
  have htracked : s.tasks.tracked = (L.view x).tasks.tracked :=
    congrArg TaskManager.tracked (congrArg HostTransport.tasks hx)
  have hshutdown : L.shutdown.outcome x = (.ok (), L.transport.map (·.emptyQueue)
      (L.runner.manager.map (·.forgetAll)
        ((s.tasks.tracked.forM fun i => L.runner.cancel i false).outcome x).2)) := by
    simp only [HostLink.shutdown, TaskRunner.clear, bind_assoc]
    rw [Effect.outcome_bind, Part.outcome_read, HostLink.get_manager]
    dsimp only
    rw [← htracked]
    exact outcome_then _ _ hok
  rw [hshutdown]
  refine ⟨_, ⟨k, s.count, _, _, hk, hbegin, by rw [hself]; rfl,
    (hd.tail ⟨hrelease, by simp [hrel, Caller.call]⟩).tail ⟨hforget, by simp [hemp, Caller.call]⟩,
    hempty, Function.update_self ..⟩, rfl, ?_⟩
  rw [view_map h, view_manager h]
  exact congrArg (fun v => HostTransport.emptyQueue { v with tasks := v.tasks.forgetAll }) hbx

/-- A poll takes what is queued in one step. -/
theorem poll_uninterrupted (h : L.Separate) (hq : s.QueueFree) (hx : s.transport = L.view x) :
    Step s s.beginPoll ∧ s.beginPoll.transport = L.view (L.poll.outcome x).2 := by
  refine ⟨.poll hq, ?_⟩
  have hdeliver (batch : List (Response κ Nat)) (y : σ) :
      L.view ((batch.forM fun r => L.deliver r.callback r.content).outcome y).2 = L.view y := by
    induction batch generalizing y with
    | nil => rfl
    | cons r rest ih =>
      have hcons : (r :: rest).forM (fun r => L.deliver r.callback r.content) =
        (L.deliver r.callback r.content >>= fun _ =>
          rest.forM fun r => L.deliver r.callback r.content) := rfl
      rw [hcons, Effect.outcome_bind]
      have hd := h.deliver r.callback r.content y
      rcases ho : (L.deliver r.callback r.content).outcome y with ⟨_ | _, z⟩
      · simpa only [ho] using hd
      · simp only [ho] at hd
        exact (ih z).trans hd
  simp only [HostLink.poll, Effect.outcome_bind, Part.outcome_read, Part.outcome_update]
  have hd := hdeliver (L.transport.get x).queue (L.transport.map (·.emptyQueue) x)
  rw [view_map h.lawful] at hd
  rcases ho : ((L.transport.get x).queue.forM fun r => L.deliver r.callback r.content).outcome
    (L.transport.map (·.emptyQueue) x) with ⟨_ | _, z⟩ <;>
  · simp only [ho] at hd
    exact (congrArg HostTransport.emptyQueue hx).trans hd.symm

omit [DecidableEq κ] in
/-- What a submission does to a transport that does not run it at once. -/
theorem view_submit (h : L.transport.Lawful) (r : Request κ Nat)
    (he : (L.view x).tasks.executor ≠ .immediate) (hm : (L.view x).tasks.mode = .concurrent) :
    L.view ((L.runner.submit r r.owner).outcome x).2 =
      { L.view x with
        tasks := (((L.view x).tasks.accept r r.owner).track (L.view x).tasks.tasks.length).settle
          (L.view x).tasks.tasks.length } := by
  have hmode : ((L.view x).tasks.mode = .sequential) = False := by simp [hm]
  have hexec : ((L.view x).tasks.executor = .immediate) = False := by simp [he]
  simp only [TaskRunner.submit, Effect.outcome_bind, Part.outcome_read, Part.outcome_update,
    HostLink.get_manager, view_manager h, hmode, hexec, ↓reduceIte]
  unfold TaskManager.settle
  split
  · rw [outcome_then _ _ (by rw [HostLink.outcome_announce]), Effect.outcome_pure,
      HostLink.view_announce h, view_manager h, view_manager h]
  · rw [Effect.outcome_pure, view_manager h, view_manager h]

/-- A request that is submitted in one go. -/
theorem request_uninterrupted (h : L.Separate) (hk : s.callers k = .idle) (hf : s.Free)
    (he : s.tasks.executor ≠ .immediate) (hm : s.tasks.mode = .concurrent)
    {r : Request κ Nat} (hr : ∀ c ∈ r.callback, c = s.count) (hx : s.transport = L.view x)
    (hok : ((L.request r).outcome x).1 = .ok ()) :
    ∃ t, Steps s t ∧ t.callers = s.callers ∧ t.work = s.work ∧
      t.transport = L.view ((L.request r).outcome x).2 := by
  have hrequest := Step.request hk hf he hr
  have hself : ((s.onTasks (·.accept r r.owner)).put k (.submitting s.count)).callers k = _ :=
    Function.update_self ..
  have htrack := Step.track hself
  refine ⟨_, (Relation.ReflTransGen.single hrequest).tail htrack, ?_, rfl, ?_⟩
  · simp only [Scene.put, Scene.onTasks, Function.update_idem]
    rw [← hk, Function.update_eq_self]
  · simp only [HostLink.request] at hok ⊢
    cases hv : r.method.isVoid with
    | true => simp [hv] at hok
    | false =>
      simp only [hv, Bool.false_eq_true, ↓reduceIte, Effect.outcome_bind] at hok ⊢
      have hwrite := h.write LogBook.requestKind r.method r.data x
      rcases ho : (L.write LogBook.requestKind r.method r.data).outcome x with ⟨_ | _, y⟩
      · simp [ho] at hok
      · simp only [ho] at hwrite hok ⊢
        have htasks : s.tasks = (L.view y).tasks := by
          rw [hwrite, ← hx]
          rfl
        have hsubmit := view_submit h.lawful (x := y) r (htasks ▸ he) (htasks ▸ hm)
        rcases hs : (L.runner.submit r r.owner).outcome y with ⟨_ | _, z⟩ <;>
        · simp only [hs] at hsubmit ⊢
          rw [hwrite, ← hx] at hsubmit
          exact hsubmit.symm

omit [DecidableEq κ] in
theorem view_exchange (h : L.Separate) (r : Request κ Nat) (x : σ) :
    L.view ((L.exchange r).outcome x).2 = L.view x := by
  simp only [HostLink.exchange, Effect.outcome_bind, Part.outcome_read]
  have hpost := h.post ((L.transport.get x).posting r) x
  rcases ho : (L.post ((L.transport.get x).posting r)).outcome x with ⟨fault | reply, y⟩
  · simpa only [ho] using hpost
  · simp only [ho] at hpost ⊢
    split
    · exact hpost
    · split
      · exact hpost
      · cases reply.content <;> exact hpost

omit [DecidableEq κ] in
/-- The answer of a request that was posted, if there is one and the task is not cancelled. -/
theorem view_carryOut (h : L.Separate) (i : Nat) (r : Request κ Nat) (x : σ) :
    L.view ((L.carryOut i r).outcome x).2 = L.view x ∨
      ((L.view x).tasks.isCancelled i = false ∧
        ∃ content, L.view ((L.carryOut i r).outcome x).2 = (L.view x).answer r content) := by
  have hread : L.transport.get x = L.view x := rfl
  simp only [HostLink.carryOut, Effect.outcome_bind, Part.outcome_read, hread]
  cases hc : (L.view x).tasks.isCancelled i with
  | true => exact .inl rfl
  | false =>
    simp only [Bool.false_eq_true, ↓reduceIte]
    rw [Effect.outcome_bind, Effect.outcome_attempt]
    have hx := view_exchange h r x
    generalize (L.exchange r).outcome x = o at hx ⊢
    rcases o with ⟨fault | content, y⟩
    · left
      dsimp only at hx ⊢
      split
      · rw [h.write, hx]
      · exact hx
    · dsimp only at hx ⊢
      cases content with
      | none => exact .inl hx
      | some content =>
        dsimp only
        rw [Effect.outcome_bind]
        have hw := h.write LogBook.responseKind (HostTransport.statusOf content) content y
        generalize (L.write LogBook.responseKind (HostTransport.statusOf content) content).outcome
          y = o at hw ⊢
        rcases o with ⟨fault | _, z⟩
        · exact .inl (hw.trans hx)
        · refine .inr ⟨trivial, content, ?_⟩
          dsimp only at hw ⊢
          rw [Part.outcome_update, view_map h.lawful, hw, hx, HostTransport.deposit, hc]
          rfl

/-- The answer to a request that is on the wire is queued, unless its task is cancelled. -/
theorem answer_steps (hq : s.QueueFree) {i : Nat} {a : Task κ (Request κ Nat)}
    (ha : s.tasks.task? i = some a) (hwork : s.work i = .posted)
    (hc : s.tasks.isCancelled i = false) (content : Json) :
    ∃ t, Steps s t ∧ t.callers = s.callers ∧ t.work i = .over ∧
      t.transport = s.transport.answer a.work content := by
  have hself (u : Scene κ) (w : Work) : (u.setWork i w).work i = w := Function.update_self ..
  have hreply : Step s (s.setWork i (.answered content)) := .reply (some content) hwork
  have hcheck := Step.check (hself s (.answered content)) (hq.setWork i nofun)
  have hcancelled : (s.setWork i (.answered content)).tasks.isCancelled i = false := hc
  simp only [hcancelled, Bool.false_eq_true, ↓reduceIte] at hcheck
  have happend := Step.append (hself (s.setWork i (.answered content)) (.queueing content)) ha
  exact ⟨_, ((Relation.ReflTransGen.single hreply).tail hcheck).tail happend, rfl,
    Function.update_self .., rfl⟩

/-- The work of a task, done in one go: it is posted and answered, or withheld. -/
theorem carryOut_uninterrupted (h : L.Separate) (hq : s.QueueFree) (hx : s.transport = L.view x)
    {i : Nat} {a : Task κ (Request κ Nat)} (ha : s.tasks.task? i = some a)
    (hwork : s.work i = .ahead) (hp : s.tasks.progressOf i = .running) :
    ∃ t, Steps s t ∧ t.callers = s.callers ∧ t.work i = .over ∧ t.tasks = s.tasks ∧
      t.transport = L.view ((L.carryOut i a.work).outcome x).2 := by
  have hself (u : Scene κ) (w : Work) : (u.setWork i w).work i = w := Function.update_self ..
  have hbegin := Step.begin hp hwork
  have htasks : (L.view x).tasks = s.tasks := by
    rw [← hx]
    rfl
  have hview := view_carryOut h i a.work x
  rw [htasks] at hview
  cases hc : s.tasks.isCancelled i with
  | true =>
    simp only [hc, ↓reduceIte] at hbegin hview
    exact ⟨_, .single hbegin, rfl, hself s .over, rfl,
      hx.trans (hview.resolve_right (by simp)).symm⟩
  | false =>
    simp only [hc, Bool.false_eq_true, ↓reduceIte] at hbegin
    have hpath := (Relation.ReflTransGen.single hbegin).tail (.post (hself s .begun))
    rcases hview with hview | ⟨-, content, hview⟩
    · exact ⟨_, hpath.tail (.reply none (hself _ .posted)), rfl, hself _ .over,
        rfl, hx.trans hview.symm⟩
    · have hfree := (hq.setWork i (w := .begun) (by simp)).setWork i (w := .posted) (by simp)
      let p : Scene κ := { (s.setWork i .begun).setWork i .posted with posted := s.posted ++ [i] }
      obtain ⟨t, hs, hcallers, hover, htransport⟩ :=
        answer_steps (s := p) hfree ha (hself _ .posted) hc content
      refine ⟨t, hpath.trans hs, hcallers, hover, ?_, by rw [htransport, hview, ← hx]; rfl⟩
      exact (congrArg HostTransport.tasks htransport).trans (HostTransport.tasks_answer _ _ _)

/-- A task that the executor has begun already is set running in vain. -/
theorem start_uninterrupted (h : L.transport.Lawful) (hx : s.transport = L.view x) {i : Nat}
    {a : Task κ (Request κ Nat)} (ha : s.tasks.task? i = some a)
    (hp : s.tasks.progressOf i = .waiting ∨ s.tasks.progressOf i = .running) :
    ∃ t, Steps s t ∧ t.callers = s.callers ∧ t.work = s.work ∧
      t.tasks.task? i = some { a with progress := .running } ∧
      t.transport = L.view (L.runner.manager.map (·.setProgress i .running) x) := by
  rw [view_manager h, ← hx]
  have hset : (s.tasks.setProgress i .running).task? i = some { a with progress := .running } := by
    simp [TaskManager.setProgress, TaskManager.task?_modifyTask, ha]
  rcases hp with hp | hp
  · exact ⟨_, .single (.start hp (Scene.lt_count ha)), rfl, rfl, hset, rfl⟩
  · have hrunning : a.progress = .running := by simpa [TaskManager.progressOf, ha] using hp
    have hsame : s.tasks.setProgress i .running = s.tasks := by
      have hlist : s.tasks.tasks.modify i (fun t => { t with progress := .running }) =
          s.tasks.tasks := by
        apply List.ext_getElem?
        intro j
        rw [List.getElem?_modify]
        by_cases hj : i = j
        · subst hj
          have hat : s.tasks.tasks[i]? = some a := ha
          simp [hat, ← hrunning]
        · simp [hj]
      rw [TaskManager.setProgress, TaskManager.modifyTask, hlist]
    refine ⟨s, .refl, rfl, rfl, hsame ▸ hset, ?_⟩
    exact congrArg (fun m => { s.transport with tasks := m }) hsame.symm

/-- A task that is run in one go is posted and answered step by step, or withheld. -/
theorem execute_uninterrupted (h : L.Separate) (hf : s.Free) (hq : s.QueueFree)
    (hx : s.transport = L.view x) {i : Nat} {a : Task κ (Request κ Nat)}
    (ha : s.tasks.task? i = some a) (hwork : s.work i = .ahead)
    (hp : s.tasks.progressOf i = .waiting ∨ s.tasks.progressOf i = .running) :
    ∃ t, Steps s t ∧ t.callers = s.callers ∧
      t.transport = L.view ((L.runner.execute i).outcome x).2 := by
  obtain ⟨t, hst, hcallers, hsame, hat, htx⟩ := start_uninterrupted h.lawful hx ha hp
  have hrunning : t.tasks.progressOf i = .running := by simp [TaskManager.progressOf, hat]
  obtain ⟨u, htu, hcallers', hover, htasks, hux⟩ :=
    carryOut_uninterrupted h (by rwa [Scene.QueueFree, hsame]) htx hat (by rwa [hsame]) hrunning
  have hfinish := Step.finish hover (htasks ▸ hrunning)
  have hfree : (u.onTasks (·.setProgress i .finished)).Free := by
    rw [Scene.Free] at hf ⊢
    exact (hcallers'.trans hcallers) ▸ hf
  have hannounce := Step.announce (i := i) hfree
  refine ⟨_, ((hst.trans htu).tail hfinish).tail hannounce, hcallers'.trans hcallers, ?_⟩
  have hread : (L.view x).tasks.task? i = some a := by
    rw [← hx]
    exact ha
  simp only [TaskRunner.execute, Effect.outcome_bind, Part.outcome_read, HostLink.get_manager,
    hread, Part.outcome_update, Effect.quietly, Effect.outcome_attempt, Effect.outcome_pure]
  rw [HostLink.view_announce h.lawful, view_manager h.lawful]
  have hperform : u.transport = L.view ((L.runner.perform i a.work).outcome
      (L.runner.manager.map (·.setProgress i .running) x)).2 := hux
  rw [← hperform]
  have hfinished : (u.tasks.setProgress i .finished).progressOf i = .finished := by
    have hau : u.tasks.task? i = some { a with progress := .running } := htasks ▸ hat
    simp [TaskManager.progressOf, TaskManager.setProgress, TaskManager.task?_modifyTask, hau]
  have hsettle : (u.tasks.setProgress i .finished).settle i =
      (u.tasks.setProgress i .finished).untrack i := by
    simp [TaskManager.settle, hfinished, Progress.isOver]
  exact congrArg (fun m => { u.transport with tasks := m }) hsettle

end Interleaving

end DebugDesk
