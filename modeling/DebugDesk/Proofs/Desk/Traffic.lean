import DebugDesk.Proofs.Desk.Contents
import DebugDesk.Proofs.Transport.Exchanges

/-!
# Traffic of sound desks

Requests are made for panels that show graphs, so every answer that is queued goes to such a panel.
-/
namespace DebugDesk.Desk

open Effect

variable [Platform]

variable {d d' : Desk} {β : Type} {panel : Nat} {r : Request Nat Nat} {Q : Desk → Desk → Prop}

/-- The panel that waits for the answer to a request shows a graph. -/
def Awaited (r : Request Nat Nat) (d : Desk) : Prop := ∀ panel ∈ r.callback, ShowsGraph d panel

theorem Awaited.stays (hs : Stays Q d d') (h : Awaited r d) : Awaited r d' :=
  fun panel hp => (h panel hp).stays hs

/-- What happens while the answer to a request is awaited. -/
abbrev KeepsFor (r : Request Nat Nat) : Desk → Desk → Prop :=
  During (fun d => Sound d ∧ Awaited r d) (Stays Anyhow)

theorem for_request (r : Request Nat Nat) {e : Effect Desk β} (he : e.Respects Keeps) :
    e.Respects (KeepsFor r) := he.also fun _ _ => Awaited.stays

theorem keeps_transport {t : HostTransport Nat Nat}
    (ht : Sound d → ∀ panel ∈ callees t, ShowsGraph d panel) :
    Keeps d { d with transport := t } := by
  intro h
  have hstays : Stays Anyhow d { d with transport := t } :=
    ⟨.refl _, fun _ => rfl, Nat.le_refl _, trivial⟩
  exact ⟨⟨h.arranged, h.managed, h.quiet, h.contents, h.widgets, h.cameras,
    fun i hi => (ht h i hi).stays hstays⟩, hstays⟩

theorem drop_answers_keeps {f : HostTransport Nat Nat → HostTransport Nat Nat}
    (hq : ∀ t, (f t).queue ⊆ t.queue) (ht : ∀ t, (f t).tasks = t.tasks) :
    (link.transport.update f).Respects Keeps := by
  refine fun d => keeps_transport fun h i hi => h.callees i ?_
  rw [callees, ht] at hi
  rcases List.mem_append.mp hi with hi | hi
  · exact List.mem_append_left _ (List.map_subset _ (hq d.transport) hi)
  · exact List.mem_append_right _ hi

theorem update_runner_keeps
    {f : TaskManager Nat (Request Nat Nat) → TaskManager Nat (Request Nat Nat)}
    (hf : ∀ m, (f m).works = m.works) : (link.runner.manager.update f).Respects Keeps := by
  refine fun d => keeps_transport fun h i hi => h.callees i ?_
  rw [callees, hf] at hi
  exact hi

theorem mild_keeps : link.runner.Mild Keeps where
  track _ := update_runner_keeps fun _ => rfl
  untrack _ := update_runner_keeps fun _ => rfl
  strike i forget := update_runner_keeps fun m => m.works_strike i forget
  setProgress i p := update_runner_keeps fun m => m.works_setProgress i p
  forgetAll := update_runner_keeps fun _ => rfl
  done _ _ := .pure ()

theorem write_keeps (kind : String) (detail message : Json) :
    (link.write kind detail message).Respects Keeps :=
  .bind seconds_keeps fun _ _ => keeps_aside rfl rfl rfl rfl rfl

theorem post_keeps (posting : Posting) : (post posting).Respects Keeps := by
  refine .bind (fun _ => keeps_aside rfl rfl rfl rfl rfl) fun _ => .bind .get fun d => ?_
  split
  · exact .pure _
  · exact .bind (fun _ => keeps_aside rfl rfl rfl rfl rfl) fun _ => .ofExcept _

theorem exchange_keeps (r : Request Nat Nat) : (link.exchange r).Respects Keeps := by
  rw [HostLink.exchange_eq]
  exact .bind (.read _) fun _ => .bind (post_keeps _) fun _ => .ofExcept _

/-- The answer to a request is queued for the panel that waits for it. -/
theorem deposit_keeps (i : Nat) (r : Request Nat Nat) (content : Json) :
    (link.transport.update (·.deposit i r content)).Respects (KeepsFor r) := by
  intro d h
  have hdeposit : Keeps d { d with transport := d.transport.deposit i r content } := by
    refine keeps_transport fun hd panel hp => ?_
    rcases d.transport.deposit_cases i r content with he | ⟨c, hc, he⟩ <;> rw [he] at hp
    · exact hd.callees panel hp
    · simp only [callees, HostTransport.enqueue, List.map_append, List.append_assoc,
        List.mem_append, List.map_cons, List.map_nil, List.mem_singleton] at hp
      rcases hp with hp | rfl | hp
      · exact hd.callees panel (List.mem_append_left _ hp)
      · exact h.2 _ hc
      · exact hd.callees panel (List.mem_append_right _ hp)
  have hkept := hdeposit h.1
  exact ⟨⟨hkept.1, h.2.stays hkept.2⟩, hkept.2⟩

theorem settleReading_keeps (i : Nat) (r : Request Nat Nat)
    (answer : Except Fault (Option Json)) :
    (link.settleReading i r answer).Respects (KeepsFor r) := by
  rcases answer with fault | _ | content <;> rw [HostLink.settleReading]
  · split
    · exact for_request r (write_keeps _ _ _)
    · exact .throw fault
  · exact .pure ()
  · exact .bind (for_request r (write_keeps _ _ _)) fun _ => deposit_keeps i r content

theorem carryOut_keeps (i : Nat) (r : Request Nat Nat) :
    (link.carryOut i r).Respects (KeepsFor r) := by
  rw [HostLink.carryOut_eq]
  refine .bind (.read _) fun t => ?_
  split
  · exact .pure ()
  · exact .bind (for_request r (exchange_keeps r)).attempt fun answer =>
      settleReading_keeps i r answer

/-- What is done for a task of the transport. -/
theorem for_task {i : Nat} {t : Task Nat (Request Nat Nat)}
    (ht : (link.runner.manager.get d).task? i = some t) {e : Effect Desk β}
    (he : e.Respects (KeepsFor t.work)) : Keeps d (e.outcome d).2 := by
  intro h
  have hawaited : Awaited t.work d := by
    intro panel hp
    refine h.callees panel (List.mem_append_right _ (List.mem_filterMap.mpr ⟨t.work, ?_, hp⟩))
    exact List.mem_of_getElem? (TaskManager.works_of_task? ht)
  have hkept := he d ⟨h, hawaited⟩
  exact ⟨hkept.1.1, hkept.2⟩

theorem execute_keeps (i : Nat) : (link.runner.execute i).Respects Keeps := by
  intro d
  rw [TaskRunner.execute, Effect.outcome_bind_ok (Part.outcome_read _ _)]
  cases ht : (link.runner.manager.get d).task? i with
  | none => exact refl_of Keeps d
  | some t =>
    have hrun : (do
        link.runner.manager.update (·.setProgress i .running)
        (link.runner.perform i t.work).quietly
        link.runner.manager.update (·.setProgress i .finished)
        link.runner.announce i).Respects (KeepsFor t.work) :=
      .bind (for_request _ (mild_keeps.setProgress i .running)) fun _ =>
        .bind (carryOut_keeps i t.work).quietly fun _ =>
        .bind (for_request _ (mild_keeps.setProgress i .finished)) fun _ =>
        for_request _ (mild_keeps.announce i)
    exact for_task ht hrun

theorem busy_keeps : link.runner.Busy Keeps where
  toMild := mild_keeps
  setQueue _ := update_runner_keeps fun _ => rfl
  execute := execute_keeps

theorem accept_keeps (r : Request Nat Nat) (owner : Option Nat) :
    (link.runner.manager.update (·.accept r owner)).Respects (KeepsFor r) := by
  intro d h
  have haccept : Keeps d { d with transport :=
      { d.transport with tasks := d.transport.tasks.accept r owner } } := by
    refine keeps_transport fun hd panel hp => ?_
    simp only [callees, TaskManager.works_accept, List.filterMap_append, List.mem_append] at hp
    rcases hp with hp | hp | hp
    · exact hd.callees panel (List.mem_append_left _ hp)
    · exact hd.callees panel (List.mem_append_right _ hp)
    · obtain ⟨r', hr', hc⟩ := List.mem_filterMap.mp hp
      obtain rfl := List.mem_singleton.mp hr'
      exact h.2 panel hc
  have hkept := haccept h.1
  exact ⟨⟨hkept.1, h.2.stays hkept.2⟩, hkept.2⟩

theorem submit_keeps (r : Request Nat Nat) (owner : Option Nat) :
    (link.runner.submit r owner).Respects (KeepsFor r) := by
  have hbusy : link.runner.Busy (KeepsFor r) := busy_keeps.imp fun _ => for_request r
  exact hbusy.submit (accept_keeps r owner)

theorem request_keeps (r : Request Nat Nat) : (link.request r).Respects (KeepsFor r) := by
  have hrest : (do
      link.write LogBook.requestKind r.method r.data
      let _ ← link.runner.submit r r.owner
      pure () : Effect Desk Unit).Respects (KeepsFor r) :=
    .bind (for_request r (write_keeps _ _ _)) fun _ => .bind (submit_keeps r r.owner) fun _ =>
      .pure ()
  rw [HostLink.request]
  split
  · exact .bind (.throw _) fun _ => hrest
  · exact hrest

theorem ping_keeps : ping.Respects Keeps := by
  intro d h
  have hkept := request_keeps ⟨.str "ping", .null, none, none, false⟩ d
    ⟨h, fun panel hp => absurd hp (by simp)⟩
  exact ⟨hkept.1.1, hkept.2⟩

theorem fetchFor_keeps (h : ShowsGraph d panel) : Keeps d ((fetchFor panel).outcome d).2 := by
  intro hd
  have hkept := request_keeps ⟨.str "graph", .null, some panel, some panel, false⟩ d
    ⟨hd, fun panel' hp => Option.some.inj hp ▸ h⟩
  exact ⟨hkept.1.1, hkept.2⟩

theorem showAnswer_keeps (panel : Nat) (content : Json) :
    (showAnswer panel content).Respects Keeps := by
  unfold showAnswer
  split
  · exact .pure ()
  · split
    · exact .bind .get fun _ => .bind (fun _ => keeps_parts rfl rfl rfl rfl) fun _ =>
        showGraph_keeps panel _
    · exact .pure ()
    · exact .throw _

theorem emptyQueue_keeps : (link.transport.update (·.emptyQueue)).Respects Keeps :=
  drop_answers_keeps (fun _ => List.nil_subset _) fun _ => rfl

theorem poll_keeps : link.poll.Respects Keeps :=
  .bind (.read _) fun _ => .bind emptyQueue_keeps fun _ =>
    .bind (.forM _ fun r _ => showAnswer_keeps r.callback r.content) fun _ => .pure _

theorem discard_keeps (owner : Option Nat) : (link.discard owner).Respects Keeps := by
  cases owner with
  | none => exact .pure ()
  | some o =>
    exact .bind (mild_keeps.cancelOwned (some o)) fun _ =>
      drop_answers_keeps (fun _ => List.filter_subset_self _) fun _ => rfl

theorem shutdown_keeps : link.shutdown.Respects Keeps :=
  .bind mild_keeps.clear fun _ => emptyQueue_keeps

theorem runQueued_keeps : link.runner.runQueued.Respects Keeps := busy_keeps.runQueued

/-- Nothing happens to the panels, nor to what they show. -/
structure Aside (d d' : Desk) : Prop where
  workspace : d'.workspace = d.workspace
  contents : d'.contents = d.contents
  graph : d'.graph = d.graph

instance : IsPreorder Desk Aside where
  refl _ := ⟨rfl, rfl, rfl⟩
  trans _ _ _ h h' := ⟨h'.workspace.trans h.workspace, h'.contents.trans h.contents,
    h'.graph.trans h.graph⟩

theorem write_aside (kind : String) (detail message : Json) :
    (link.write kind detail message).Respects Aside :=
  .bind (.bind .get fun _ => .ofExcept _) fun _ _ => ⟨rfl, rfl, rfl⟩

theorem settleReading_aside (i : Nat) (r : Request Nat Nat)
    (answer : Except Fault (Option Json)) : (link.settleReading i r answer).Respects Aside := by
  rcases answer with fault | _ | content <;> rw [HostLink.settleReading]
  · split
    · exact write_aside _ _ _
    · exact .throw fault
  · exact .pure ()
  · exact .bind (write_aside _ _ _) fun _ _ => ⟨rfl, rfl, rfl⟩

theorem carryOut_aside (i : Nat) (r : Request Nat Nat) : (link.carryOut i r).Respects Aside := by
  have hpost : ∀ posting, (post posting).Respects Aside := by
    refine fun posting => .bind (fun _ => ⟨rfl, rfl, rfl⟩) fun _ => .bind .get fun d => ?_
    split
    · exact .pure _
    · exact .bind (fun _ => ⟨rfl, rfl, rfl⟩) fun _ => .ofExcept _
  rw [HostLink.carryOut_eq]
  refine .bind (.read _) fun t => ?_
  split
  · exact .pure ()
  · rw [HostLink.exchange_eq]
    exact .bind (Respects.attempt (.bind (.read _) fun _ => .bind (hpost _) fun _ =>
      .ofExcept _)) fun answer => settleReading_aside i r answer

theorem mild_aside : link.runner.Mild Aside where
  track _ _ := ⟨rfl, rfl, rfl⟩
  untrack _ _ := ⟨rfl, rfl, rfl⟩
  strike _ _ _ := ⟨rfl, rfl, rfl⟩
  setProgress _ _ _ := ⟨rfl, rfl, rfl⟩
  forgetAll _ := ⟨rfl, rfl, rfl⟩
  done _ _ := .pure ()

theorem busy_aside : link.runner.Busy Aside where
  toMild := mild_aside
  setQueue _ _ := ⟨rfl, rfl, rfl⟩
  execute i := by
    refine .bind (.read _) fun m => ?_
    split
    · exact .bind (mild_aside.setProgress i .running) fun _ =>
        .bind (carryOut_aside i _).quietly fun _ =>
        .bind (mild_aside.setProgress i .finished) fun _ => mild_aside.announce i
    · exact .pure ()

/-- A request is made without a change to the panels, whenever it is carried out. -/
theorem request_aside (r : Request Nat Nat) : (link.request r).Respects Aside := by
  have hrest : (do
      link.write LogBook.requestKind r.method r.data
      let _ ← link.runner.submit r r.owner
      pure () : Effect Desk Unit).Respects Aside :=
    .bind (write_aside _ _ _) fun _ =>
      .bind (busy_aside.submit fun _ => ⟨rfl, rfl, rfl⟩) fun _ => .pure ()
  rw [HostLink.request]
  split
  · exact .bind (.throw _) fun _ => hrest
  · exact hrest

end DebugDesk.Desk
