import DebugDesk.Proofs.Task.Walking
import DebugDesk.Proofs.Transport.Awaiting
import DebugDesk.Proofs.Transport.Exchanges

/-!
# Workers of a transport

What the calls of a transport and its workers do to the answers that are awaited. A worker may begin
a task at one time and settle it at another, with anything happening in between.
-/
namespace DebugDesk.HostLink

open Effect HostTransport

variable {σ κ β : Type} {L : HostLink σ Nat Nat} {x : σ} {i : Nat} {r : Request Nat Nat}

def Calms (L : HostLink σ Nat Nat) (x y : σ) : Prop := (L.view x).Abates (L.view y)

instance : IsPreorder σ L.Calms where
  refl x := refl_of Abates (L.view x)
  trans _ _ _ h h' := trans_of Abates h h'

theorem cancel_each (h : L.transport.Lawful) (forget : Bool) (is : List Nat) (hn : is.Nodup)
    (hi : ∀ i ∈ is, i ∈ (L.view x).tasks.tracked) :
    ((is.forM fun i => L.runner.cancel i forget).outcome x).1 = .ok () ∧
      L.view ((is.forM fun i => L.runner.cancel i forget).outcome x).2 =
        { L.view x with tasks := (L.view x).tasks.cancelAll forget is } := by
  induction is generalizing x with
  | nil => exact ⟨rfl, rfl⟩
  | cons i is ih =>
    obtain ⟨hnot, hn⟩ := List.nodup_cons.mp hn
    obtain ⟨hfirst, hlater⟩ := List.forall_mem_cons.mp hi
    obtain ⟨hok, hview⟩ := outcome_cancel h forget (TaskManager.isTracked_iff.mpr hfirst)
    have hstill : ∀ j ∈ is,
        j ∈ (L.view ((L.runner.cancel i forget).outcome x).2).tasks.tracked := by
      intro j hj
      have hne : j ≠ i := fun he => hnot (he ▸ hj)
      rw [hview]
      change j ∈ (((L.view x).tasks.strike i forget).withdraw i).tracked
      rw [TaskManager.tracked_withdraw, TaskManager.tracked_strike]
      split <;> split <;> simp [List.mem_erase_of_ne hne, hlater j hj]
    obtain ⟨hok', hview'⟩ := ih hn hstill
    rw [forM_cons, outcome_then _ _ hok]
    refine ⟨hok', hview'.trans ?_⟩
    rw [hview]
    rfl

/-- Discarding an owner does not fail. -/
theorem outcome_discard (h : L.transport.Lawful) (ht : (L.view x).Tidy) (o : Nat) :
    ((L.discard (some o)).outcome x).1 = .ok () ∧
      L.view ((L.discard (some o)).outcome x).2 = (L.view x).without o := by
  obtain ⟨hok, hview⟩ := cancel_each h true ((L.view x).tasks.ownedBy (some o))
    (ht.tasks.trackedOnce.filter _) fun i hi => (List.mem_filter.mp hi).1
  have hdiscard : (L.discard (some o)).outcome x = (.ok (), L.transport.map (·.drop o)
      ((((L.view x).tasks.ownedBy (some o)).forM fun i =>
        L.runner.cancel i true).outcome x).2) := by
    simp only [HostLink.discard, TaskRunner.cancelOwned, bind_assoc]
    rw [Effect.outcome_bind, Part.outcome_read, HostLink.get_manager]
    exact outcome_then _ _ hok
  rw [hdiscard, view_map h, hview]
  exact ⟨rfl, rfl⟩

theorem view_shutdown (h : L.transport.Lawful) (ht : (L.view x).Tidy) :
    L.view (L.shutdown.outcome x).2 = (L.view x).closed := by
  obtain ⟨hok, hview⟩ := cancel_each h false (L.view x).tasks.tracked ht.tasks.trackedOnce
    fun _ hi => hi
  have hshutdown : L.shutdown.outcome x = (.ok (), L.transport.map (·.emptyQueue)
      (L.runner.manager.map (·.forgetAll)
        (((L.view x).tasks.tracked.forM fun i => L.runner.cancel i false).outcome x).2)) := by
    simp only [HostLink.shutdown, TaskRunner.clear, bind_assoc]
    rw [Effect.outcome_bind, Part.outcome_read, HostLink.get_manager]
    exact outcome_then _ _ hok
  rw [hshutdown, view_map h, view_manager h, hview]
  rfl

theorem shutdown_calms (h : L.transport.Lawful) : L.shutdown.Respects L.Calms :=
  fun _ ht => view_shutdown h ht ▸ abates_closed _ ht

/-- A request that fails asks for nothing. -/
theorem view_request (h : L.Separate) (ht : (L.view x).Tidy) (r : Request Nat Nat) :
    L.view ((L.request r).outcome x).2 = L.view x ∨
      L.view ((L.request r).outcome x).2 =
        { L.view x with tasks := (L.view x).tasks.enlist r r.owner } := by
  rw [HostLink.request]
  split
  · exact .inl rfl
  · have hwrite := h.write LogBook.requestKind r.method r.data x
    rcases hw : (L.write LogBook.requestKind r.method r.data).outcome x with ⟨fault | _, y⟩ <;>
      rw [hw] at hwrite
    · change L.view ((L.write _ _ _ >>= _).outcome x).2 = _ ∨ _
      rw [outcome_bind_error hw]
      exact .inl hwrite
    · right
      change L.view ((L.write _ _ _ >>= _).outcome x).2 = _
      rw [outcome_bind_ok hw, outcome_bind_pure]
      change L.view y = L.view x at hwrite
      have hsubmit := Interleaving.view_submit h.lawful (x := y) r
        (by rw [hwrite, ht.deferred]; simp) (by rw [hwrite, ht.concurrent])
      rw [hsubmit, hwrite]
      rfl

theorem request_awaits (h : L.Separate) (ht : (L.view x).Tidy) (hr : r.owner = r.callback) :
    (L.view ((L.request r).outcome x).2).Tidy ∧
      ∀ b, (L.view ((L.request r).outcome x).2).Awaits b →
        (L.view x).Awaits b ∨ r.callback = some b := by
  rcases view_request h ht r with he | he <;> rw [he]
  · exact ⟨ht, fun b hb => .inl hb⟩
  · exact ht.enlist hr

/-- A task is settled once its request was carried out, however that ended. -/
def closeTask (L : HostLink σ κ β) (i : Nat) : Effect σ Unit := do
  L.runner.manager.update (·.setProgress i .finished)
  L.runner.announce i

def beginTask (L : HostLink σ κ β) (i : Nat) : Effect σ Unit := do
  let m ← L.runner.manager.read
  if i ∈ m.queue ∧ m.progressOf i = .waiting then
    L.runner.manager.update fun m => { m with queue := m.queue.erase i }.setProgress i .running

/-- A worker is done with a task that it has begun: an answer was read, or that failed. -/
def settleTask (L : HostLink σ κ β) (i : Nat) (answer : Except Fault (Option Json)) :
    Effect σ Unit := do
  match (← L.runner.manager.read).task? i with
  | some a =>
    if a.progress = .running then
      (L.settleReading i a.work answer).quietly
      L.closeTask i
  | none => return ()

/-- How carrying out a request may change a transport: the answer is queued, or nothing is. -/
def Answers (L : HostLink σ κ β) (i : Nat) (r : Request κ β) (x y : σ) : Prop :=
  L.view y = L.view x ∨
    (L.view x).tasks.isCancelled i = false ∧ ∃ content, L.view y = (L.view x).answer r content

theorem answers_settleReading (h : L.Separate) (i : Nat) (r : Request Nat Nat)
    (answer : Except Fault (Option Json)) (x : σ) :
    L.Answers i r x ((L.settleReading i r answer).outcome x).2 := by
  rcases answer with fault | _ | content <;> rw [settleReading]
  · split
    · exact .inl (h.write _ _ _ x)
    · exact .inl rfl
  · exact .inl rfl
  · have hwrite := h.write LogBook.responseKind (HostTransport.statusOf content) content x
    rcases hw : (L.write LogBook.responseKind (HostTransport.statusOf content) content).outcome x
      with ⟨fault | _, y⟩ <;> rw [hw] at hwrite
    · rw [outcome_bind_error hw]
      exact .inl hwrite
    · change L.view y = L.view x at hwrite
      rw [outcome_bind_ok hw, Part.outcome_update, Answers, view_map h.lawful, hwrite]
      cases hc : (L.view x).tasks.isCancelled i with
      | true => exact .inl (by rw [deposit, if_pos hc])
      | false => exact .inr ⟨rfl, content, by rw [deposit, hc]; rfl⟩

/-- A task that is being run is settled. -/
theorem view_close (h : L.transport.Lawful) {e : Effect σ Unit} {a : Task Nat (Request Nat Nat)}
    (ha : (L.view x).tasks.task? i = some a) (hrunning : a.progress = .running)
    (hi : i ∉ (L.view x).tasks.queue) (he : L.Answers i a.work x (e.outcome x).2) :
    L.Calms x ((e.quietly >>= fun _ => L.closeTask i).outcome x).2 ∧
      (L.view ((e.quietly >>= fun _ => L.closeTask i).outcome x).2).tasks =
        ((L.view x).tasks.setProgress i .finished).untrack i := by
  have hquiet : (e.quietly.outcome x) = (.ok (), (e.outcome x).2) := rfl
  rw [outcome_bind_ok hquiet]
  generalize (e.outcome x).2 = y at he
  have hclose : L.view ((L.closeTask i).outcome y).2 =
      { L.view y with tasks := ((L.view y).tasks.setProgress i .finished).untrack i } := by
    rw [closeTask, outcome_bind_ok (Part.outcome_update _ _ _), view_announce h, view_manager h]
  have hanswer : (L.view x).Abates (L.view y) ∧ (L.view y).tasks = (L.view x).tasks := by
    rcases he with he | ⟨hcancelled, content, he⟩
    · rw [he]
      exact ⟨refl_of Abates _, rfl⟩
    · rw [he]
      refine ⟨abates_answer ha ?_ content, tasks_answer _ _ _⟩
      have hfree : a.cancelled = false := by simpa [TaskManager.isCancelled, ha] using hcancelled
      simp [Task.isWanted, hfree, hrunning, Progress.isOver]
  obtain ⟨habates, htasks⟩ := hanswer
  rw [Calms, hclose]
  refine ⟨trans_of Abates habates (abates_amends (TaskManager.amends_finish _ ?_)), ?_⟩
  · rwa [htasks]
  · rw [htasks]

theorem outcome_execute {a : Task Nat (Request Nat Nat)}
    (ha : (L.view x).tasks.task? i = some a) :
    (L.runner.execute i).outcome x =
      (((L.carryOut i a.work).quietly >>= fun _ => L.closeTask i).outcome
        (L.runner.manager.map (·.setProgress i .running) x)) := by
  have hread : (L.runner.manager.get x).task? i = some a := ha
  rw [TaskRunner.execute, outcome_bind_ok (Part.outcome_read _ _), hread]
  rfl

theorem task?_running (h : L.transport.Lawful) {a : Task Nat (Request Nat Nat)}
    (ha : (L.view x).tasks.task? i = some a) :
    (L.view (L.runner.manager.map (·.setProgress i .running) x)).tasks.task? i =
      some { a with progress := .running } := by
  rw [view_manager h]
  simp [TaskManager.setProgress, TaskManager.task?_modifyTask, ha]

/-- A task that is not over is run in one go. -/
theorem execute_calms (h : L.Separate) {a : Task Nat (Request Nat Nat)}
    (ha : (L.view x).tasks.task? i = some a) (hidle : a.progress.isOver = false)
    (hi : i ∉ (L.view x).tasks.queue) :
    L.Calms x ((L.runner.execute i).outcome x).2 ∧
      (L.view ((L.runner.execute i).outcome x).2).tasks =
        ((((L.view x).tasks.setProgress i .running).setProgress i .finished).untrack i) := by
  have hy := task?_running h.lawful ha
  have hview := view_manager h.lawful (·.setProgress i .running) x
  have hstart := TaskManager.amends_start ha hidle (.refl _) hi
  rw [outcome_execute ha]
  generalize L.runner.manager.map (·.setProgress i .running) x = y at hy hview
  obtain ⟨habates, htasks⟩ := view_close h.lawful hy rfl (by rw [hview]; exact hi)
    (Interleaving.view_carryOut h i a.work y)
  have hbegun : L.Calms x y := by
    rw [Calms, hview]
    exact abates_amends hstart
  refine ⟨trans_of L.Calms hbegun habates, ?_⟩
  rw [htasks, hview]

/-- A batch of tasks that were taken off the queue. -/
theorem runAll_calms (h : L.Separate) (is : List Nat) (hn : is.Nodup)
    (hidle : ∀ i ∈ is, ∃ a, (L.view x).tasks.task? i = some a ∧ a.isIdle = true)
    (hq : (L.view x).tasks.queue = []) :
    L.Calms x ((is.forM L.runner.runTaken).outcome x).2 := by
  induction is generalizing x with
  | nil => exact refl_of L.Calms x
  | cons i is ih =>
    obtain ⟨hnot, hn⟩ := List.nodup_cons.mp hn
    obtain ⟨⟨a, ha, hfirst⟩, hlater⟩ := List.forall_mem_cons.mp hidle
    have hprogress : (L.runner.manager.get x).progressOf i = a.progress := by
      change (((L.view x).tasks.task? i).map Task.progress).getD _ = _
      rw [ha]
      rfl
    rw [forM_cons]
    by_cases hwithdrawn : a.progress = .withdrawn
    · have hskip : (L.runner.runTaken i).outcome x = (.ok (), x) := by
        rw [TaskRunner.runTaken, outcome_bind_ok (Part.outcome_read _ _), hprogress, hwithdrawn]
        rfl
      rw [outcome_bind_ok hskip]
      exact ih hn hlater hq
    · have hrun : (L.runner.runTaken i).outcome x = (L.runner.execute i).outcome x := by
        rw [TaskRunner.runTaken, outcome_bind_ok (Part.outcome_read _ _), hprogress,
          if_pos (by simpa using hwithdrawn)]
      have hwaiting : a.progress.isOver = false := by
        have hp : a.progress = .waiting := by simpa [Task.isIdle, hwithdrawn] using hfirst
        rw [hp]
        rfl
      obtain ⟨habates, htasks⟩ := execute_calms h ha hwaiting (by simp [hq])
      refine related_bind (P := L.Calms) (by rwa [hrun]) fun _ y hy => ?_
      rw [← hrun, hy] at htasks
      change (L.view y).tasks = _ at htasks
      refine ih hn (fun j hj => ?_) ?_
      · obtain ⟨b, hb, hidle⟩ := hlater j hj
        have hne : i ≠ j := fun he => hnot (he ▸ hj)
        refine ⟨b, ?_, hidle⟩
        rw [htasks]
        change (((L.view x).tasks.setProgress i .running).setProgress i .finished).task? j = _
        simp only [TaskManager.setProgress, TaskManager.task?_modifyTask, hne, ↓reduceIte,
          Option.map_id', hb]
      · rw [htasks]
        exact hq

theorem runQueued_calms (h : L.Separate) : L.runner.runQueued.Respects L.Calms := by
  intro x ht
  have hempty : (L.view x).Abates
      { L.view x with tasks := { (L.view x).tasks with queue := [] } } :=
    abates_tasks fun hs => ⟨⟨hs.tasks.trackedOnce, hs.tasks.trackedKnown, List.nodup_nil,
      fun i hi => by simp at hi, hs.tasks.wanted⟩, rfl, rfl, fun j a ha => ⟨a, ha, rfl, rfl, id⟩⟩
  have hview := view_manager h.lawful (fun m => { m with queue := [] }) x
  rw [TaskRunner.runQueued_eq, outcome_bind_ok (Part.outcome_read _ _),
    outcome_bind_ok (Part.outcome_update _ _ _), get_manager]
  generalize L.runner.manager.map (fun m => { m with queue := [] }) x = y at hview
  have htaken : L.Calms x y := by
    rw [Calms, hview]
    exact hempty
  refine trans_of L.Calms htaken
    (runAll_calms h _ ht.tasks.queueOnce (fun i hi => ?_) ?_) ht
  · rw [hview]
    exact ht.tasks.queueIdle i hi
  · rw [hview]

theorem beginTask_calms (h : L.transport.Lawful) (i : Nat) :
    (L.beginTask i).Respects L.Calms := by
  intro x ht
  rw [beginTask, outcome_bind_ok (Part.outcome_read _ _), get_manager]
  split
  next hwaiting =>
    obtain ⟨hi, hprogress⟩ := hwaiting
    obtain ⟨a, ha, -⟩ := ht.tasks.queueIdle i hi
    have hidle : a.progress.isOver = false := by
      have hp : a.progress = .waiting := by simpa [TaskManager.progressOf, ha] using hprogress
      rw [hp]
      rfl
    have hstart := TaskManager.amends_start ha hidle (List.erase_sublist (a := i))
      (ht.tasks.queueOnce.not_mem_erase)
    rw [Part.outcome_update, view_manager h]
    exact abates_amends hstart ht
  · exact refl_of L.Calms x ht

theorem settleTask_calms (h : L.Separate) (i : Nat) (answer : Except Fault (Option Json)) :
    (L.settleTask i answer).Respects L.Calms := by
  intro x ht
  rw [settleTask, outcome_bind_ok (Part.outcome_read _ _), get_manager]
  cases ha : (L.view x).tasks.task? i with
  | none => exact refl_of L.Calms x ht
  | some a =>
    dsimp only
    split
    next hrunning =>
      have hi : i ∉ (L.view x).tasks.queue := by
        intro hi
        obtain ⟨b, hb, hidle⟩ := ht.tasks.queueIdle i hi
        obtain rfl := Option.some.inj (ha.symm.trans hb)
        simp [Task.isIdle, hrunning] at hidle
      exact (view_close h.lawful ha hrunning hi (answers_settleReading h i a.work answer x)).1 ht
    · exact refl_of L.Calms x ht

theorem emptyQueue_calms (h : L.transport.Lawful) :
    (L.transport.update (·.emptyQueue)).Respects L.Calms := by
  intro x
  rw [Calms, Part.outcome_update, view_map h]
  exact abates_queue (List.nil_subset _)

end DebugDesk.HostLink
