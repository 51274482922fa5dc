import DebugDesk.Proofs.Desk.Traffic
import DebugDesk.Proofs.Transport.Workers

/-!
# Calls of the transport of a desk

What is done with the transport, other than to ask for a graph and to hand answers over. No call
has to do with panels, and none makes more answers awaited.
-/
namespace DebugDesk.Desk

open Effect

variable [Platform] {d d' : Desk} {β : Type}

/-- A call of the transport that asks for no graph, or a part of the work of a task. -/
inductive Call where
  | ping
  | discard (panel : Nat)
  | shutdown
  | runQueued
  | begin (task : Nat)
  | settle (task : Nat) (answer : Except Fault (Option Json))

def Call.effect : Call → Effect Desk Unit
  | .ping => Desk.ping
  | .discard panel => link.discard (some panel)
  | .shutdown => link.shutdown
  | .runQueued => link.runner.runQueued
  | .begin task => link.beginTask task
  | .settle task answer => link.settleTask task answer

theorem Call.keeps (c : Call) : c.effect.Respects Keeps := by
  cases c with
  | ping => exact ping_keeps
  | discard panel => exact discard_keeps (some panel)
  | shutdown => exact shutdown_keeps
  | runQueued => exact runQueued_keeps
  | begin task =>
    refine .bind (.read _) fun m => ?_
    split
    · refine update_runner_keeps fun m => ?_
      exact TaskManager.works_setProgress { m with queue := m.queue.erase task } task .running
    · exact .pure ()
  | settle task answer =>
    intro d
    rw [effect, HostLink.settleTask, Effect.outcome_bind_ok (Part.outcome_read _ _)]
    cases ht : (link.runner.manager.get d).task? task with
    | none => exact refl_of Keeps d
    | some t =>
      dsimp only
      split
      · have hsettle : (do
            (link.settleReading task t.work answer).quietly
            link.closeTask task : Effect Desk Unit).Respects (KeepsFor t.work) :=
          .bind (settleReading_keeps task t.work answer).quietly fun _ =>
            .bind (for_request _ (mild_keeps.setProgress task .finished)) fun _ =>
            for_request _ (mild_keeps.announce task)
        exact for_task ht hsettle
      · exact refl_of Keeps d

theorem Call.aside (c : Call) : c.effect.Respects Aside := by
  cases c with
  | ping => exact request_aside _
  | discard panel =>
    exact .bind (mild_aside.cancelOwned (some panel)) fun _ _ => ⟨rfl, rfl, rfl⟩
  | shutdown => exact .bind mild_aside.clear fun _ _ => ⟨rfl, rfl, rfl⟩
  | runQueued => exact busy_aside.runQueued
  | begin task =>
    refine .bind (.read _) fun m => ?_
    split
    · exact fun _ => ⟨rfl, rfl, rfl⟩
    · exact .pure ()
  | settle task answer =>
    refine .bind (.read _) fun m => ?_
    split
    · split
      · exact .bind (settleReading_aside task _ answer).quietly fun _ =>
          .bind (mild_aside.setProgress task .finished) fun _ => mild_aside.announce task
      · exact .pure ()
    · exact .pure ()

/-- Nothing happens to the transport and the panels, nor to what other panels show than one. -/
structure Apart (panel : Nat) (d d' : Desk) : Prop where
  workspace : d'.workspace = d.workspace
  transport : d'.transport = d.transport
  contents : ∀ i ≠ panel, d'.contents[i]? = d.contents[i]?

instance (panel : Nat) : IsPreorder Desk (Apart panel) where
  refl _ := ⟨rfl, rfl, fun _ _ => rfl⟩
  trans _ _ _ h h' := ⟨h'.workspace.trans h.workspace, h'.transport.trans h.transport,
    fun i hi => (h'.contents i hi).trans (h.contents i hi)⟩

variable {panel : Nat}

theorem apart_aside (hw : d'.workspace = d.workspace) (ht : d'.transport = d.transport)
    (hc : d'.contents = d.contents) : Apart panel d d' := ⟨hw, ht, fun i _ => by rw [hc]⟩

theorem write_apart (kind : String) (detail message : Json) :
    (link.write kind detail message).Respects (Apart panel) :=
  .bind (.bind .get fun _ => .ofExcept _) fun _ _ => apart_aside rfl rfl rfl

theorem post_apart (posting : Posting) : (post posting).Respects (Apart panel) := by
  refine .bind (fun _ => apart_aside rfl rfl rfl) fun _ => .bind .get fun d => ?_
  split
  · exact .pure _
  · exact .bind (fun _ => apart_aside rfl rfl rfl) fun _ => .ofExcept _

theorem widget_apart (w : Nat) : (widget w).Respects (Apart panel) := by
  refine .bind .get fun d => ?_
  split
  · exact .pure _
  · exact .throw _

theorem showInWidget_apart (w : Nat) (graph : Option Nat) :
    (do
      setWidgetGraph w graph
      recenterWidget w : Effect Desk Unit).Respects (Apart panel) := by
  have hset : (setWidgetGraph w graph).Respects (Apart panel) :=
    .bind (widget_apart w) fun _ => .bind .get fun _ =>
      .bind (fun _ => apart_aside rfl rfl rfl) fun _ _ => apart_aside rfl rfl rfl
  have hrecenter : (recenterWidget w).Respects (Apart panel) :=
    .bind .get fun _ => .bind (widget_apart w) fun _ => .bind (.ofExcept _) fun _ _ =>
      apart_aside rfl rfl rfl
  exact .bind hset fun _ => hrecenter

theorem showGraph_apart (panel : Nat) (graph : Option Nat) :
    (showGraph panel graph).Respects (Apart panel) := by
  have hcontent : (graphContent panel).Respects (Apart panel) := by
    refine .bind (.bind .get fun _ => .pure _) fun c => ?_
    split
    · exact .pure _
    · exact .throw _
  have hset : ∀ c, (setContent panel c).Respects (Apart panel) := fun c d =>
    ⟨rfl, rfl, fun i hi => List.getElem?_set_ne (Ne.symm hi)⟩
  refine .bind hcontent fun c => .bind (hset _) fun _ => ?_
  unfold onWidget
  split
  · exact showInWidget_apart _ graph
  · exact .pure ()

theorem showAnswer_apart (panel : Nat) (content : Json) :
    (showAnswer panel content).Respects (Apart panel) := by
  unfold showAnswer
  split
  · exact .pure ()
  · split
    · exact .bind .get fun _ => .bind (fun _ => apart_aside rfl rfl rfl) fun _ =>
        showGraph_apart panel _
    · exact .pure ()
    · exact .throw _

theorem separate : link.Separate where
  lawful := ⟨fun _ _ => rfl, fun _ => rfl, fun _ _ _ => rfl⟩
  write kind detail message d := (write_apart kind detail message d : Apart 0 d _).transport
  post posting d := (post_apart posting d : Apart 0 d _).transport
  deliver panel content d := (showAnswer_apart panel content d).transport

/-- No call makes more answers awaited. -/
theorem Call.calms (c : Call) : c.effect.Respects link.Calms := by
  cases c with
  | ping =>
    intro d ht
    obtain ⟨htidy, hawaits⟩ := HostLink.request_awaits separate ht
      (r := ⟨.str "ping", .null, none, none, false⟩) rfl
    exact ⟨htidy, fun b hb => (hawaits b hb).resolve_right (by simp)⟩
  | discard panel =>
    intro d ht
    have hview := (HostLink.outcome_discard separate.lawful ht panel).2
    obtain ⟨htidy, hfewer, -⟩ := ht.without panel
    change (link.view d).Tidy at ht
    rw [effect, hview]
    exact ⟨htidy, hfewer⟩
  | shutdown => exact HostLink.shutdown_calms separate.lawful
  | runQueued => exact HostLink.runQueued_calms separate
  | begin task => exact HostLink.beginTask_calms separate.lawful task
  | settle task answer => exact HostLink.settleTask_calms separate task answer

end DebugDesk.Desk
