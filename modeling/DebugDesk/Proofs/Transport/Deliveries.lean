import DebugDesk.Proofs.Transport.Answers
import DebugDesk.Proofs.Transport.Exchanges

/-!
# Deliveries

The tasks of a transport queue the answers to their own requests, and its polls hand over what they
find in the queue. Callbacks that use the transport again leave the poll that called them alone.
-/
namespace DebugDesk.Conversation

variable {κ : Type} {W : World κ} {f : Program κ → Effect (Diary κ) Unit} {s t : Diary κ}
  {i p q : Nat}

def Station.withTasks (x : Station κ)
    (m : TaskManager κ (Request κ Callback)) : Station κ :=
  { x with transport := { x.transport with tasks := m } }

theorem get_runner (s : Diary κ) : (link W f q).runner.manager.get s = s.now.transport.tasks := rfl

theorem outcome_update_runner (W : World κ) (f : Program κ → Effect (Diary κ) Unit) (q : Nat)
    (g : TaskManager κ (Request κ Callback) → TaskManager κ (Request κ Callback))
    (s : Diary κ) :
    ((link W f q).runner.manager.update g).outcome s =
      (.ok (), s.put (s.now.withTasks (g s.now.transport.tasks))) := rfl

theorem update_runs
    {g : TaskManager κ (Request κ Callback) → TaskManager κ (Request κ Callback)}
    (hg : ∀ m, m.works <+: (g m).works) : ((link W f q).runner.manager.update g).Respects Runs :=
  fun _ => goes_put (hg _) (.refl _)

theorem mild_runs : (link W f q).runner.Mild Runs where
  track _ := update_runs fun _ => List.prefix_refl _
  untrack _ := update_runs fun _ => List.prefix_refl _
  strike i forget := update_runs fun m => m.works_strike i forget ▸ List.prefix_refl _
  setProgress i p := update_runs fun m => m.works_setProgress i p ▸ List.prefix_refl _
  forgetAll := update_runs fun _ => List.prefix_refl _
  done _ _ := .pure ()

theorem outcome_write_ok {moment : Float} (h : W.clock s.history.length = .ok moment)
    (kind : String) (detail message : Json) :
    ((link W f q).write kind detail message).outcome s =
      (.ok (), s.put { s.now with log := s.now.log.add moment kind detail message }) := by
  have hnow : (link W f q).now.outcome s = (.ok moment, s) := by
    rw [Effect.outcome_bind_ok (Traced.outcome_look _ _), Effect.outcome_ofExcept, h]
  exact Effect.outcome_bind_ok hnow _

theorem outcome_write_error {fault : Fault} (h : W.clock s.history.length = .error fault)
    (kind : String) (detail message : Json) :
    ((link W f q).write kind detail message).outcome s = (.error fault, s) := by
  have hnow : (link W f q).now.outcome s = (.error fault, s) := by
    rw [Effect.outcome_bind_ok (Traced.outcome_look _ _), Effect.outcome_ofExcept, h]
  exact Effect.outcome_bind_error hnow _

theorem write_runs (kind : String) (detail message : Json) :
    ((link W f q).write kind detail message).Respects Runs := by
  intro s
  cases h : W.clock s.history.length with
  | error fault =>
    rw [outcome_write_error h]
    exact .refl none [] s
  | ok moment =>
    rw [outcome_write_ok h]
    exact goes_put (List.prefix_refl _) (.refl _)

def Starts (i : Nat) (w : Request κ Callback) (s : Diary κ) : Prop :=
  ∃ x earlier a, s.history = .changed x s.now :: earlier ∧
    s.now.transport.tasks = x.transport.tasks.setProgress i .running ∧
    s.now.transport.tasks.task? i = some a ∧ a.work = w

/-- A reply has just come, to what a task has posted. -/
def Replied (i : Nat) (w : Request κ Callback) (reply : Reply) (s : Diary κ) : Prop :=
  ∃ n rest, s.history = .noted (.replied n (.ok reply)) s.now :: rest ∧ PostedFor w i n rest

theorem outcome_post (posting : Posting) (s : Diary κ) :
    ((link W f q).post posting).outcome s =
      ((W.network (postings s) posting).2,
        ((f (W.network (postings s) posting).1).outcome
          (s.note (.posted (postings s) posting))).2.note
            (.replied (postings s) (W.network (postings s) posting).2)) := by
  rw [Effect.outcome_bind_ok (Traced.outcome_look _ _),
    Effect.outcome_bind_ok (Traced.outcome_happen _ _),
    Effect.outcome_bind_ok (Effect.outcome_attempt _ _),
    Effect.outcome_bind_ok (Traced.outcome_happen _ _), Effect.outcome_ofExcept]

theorem post_runs (hf : ∀ p, (f p).Respects Runs) (posting : Posting) :
    ((link W f q).post posting).Respects Runs := by
  intro s
  rw [outcome_post]
  have hposted : Runs s (s.note (.posted (postings s) posting)) := goes_note rfl
  have hmeanwhile := hf (W.network (postings s) posting).1 (s.note (.posted (postings s) posting))
  exact trans_of Runs (trans_of Runs hposted hmeanwhile) (goes_note rfl)

theorem replied_post (hf : ∀ p, (f p).Respects Runs) {w : Request κ Callback}
    (hs : Starts i w s) {reply : Reply} (ht : ((link W f q).post
      (s.now.transport.posting w)).outcome s = (.ok reply, t)) : Replied i w reply t := by
  obtain ⟨x, earlier, a, hpast, htasks, ha, hw⟩ := hs
  rw [outcome_post] at ht
  obtain ⟨hreply, rfl⟩ := Prod.mk.inj ht
  have hgrown := (hf (W.network (postings s) (s.now.transport.posting w)).1
    (s.note (.posted (postings s) (s.now.transport.posting w)))).past
  obtain ⟨later, hlater⟩ := hgrown
  rw [hreply]
  refine ⟨postings s, _, rfl, later, earlier, x, s.now, a, ?_, htasks, ha, hw⟩
  rw [← hlater, Traced.history_note, hpast]

theorem exchange_runs (hf : ∀ p, (f p).Respects Runs) (w : Request κ Callback) :
    ((link W f q).exchange w).Respects Runs := by
  rw [HostLink.exchange_eq]
  exact .bind (.read _) fun x => .bind (post_runs hf _) fun reply => .ofExcept _

theorem replied_exchange (hf : ∀ p, (f p).Respects Runs) {w : Request κ Callback}
    (hs : Starts i w s) {content : Json}
    (ht : ((link W f q).exchange w).outcome s = (.ok (some content), t)) :
    ∃ reply, Replied i w reply t ∧ reply.isSuccess = true ∧ reply.content = some content := by
  rw [HostLink.exchange_eq, Effect.outcome_bind_ok (Part.outcome_read _ _)] at ht
  obtain ⟨reply, u, hpost, hrest⟩ := Effect.of_bind_ok ht
  obtain ⟨hreading, rfl⟩ := Prod.mk.inj hrest
  exact ⟨reply, replied_post hf hs hpost, HostLink.reading_eq_some hreading⟩

theorem deposit_runs {w : Request κ Callback} {content : Json} {reply : Reply} {log : LogBook}
    (hr : Replied i w reply s) (hok : reply.isSuccess = true)
    (hcontent : reply.content = some content) :
    Runs (s.put { s.now with log }) (((link W f q).transport.update
      (·.deposit i w content)).outcome (s.put { s.now with log })).2 := by
  obtain ⟨n, rest, hpast, hposted⟩ := hr
  rw [Part.outcome_update, Traced.map_part]
  rcases s.now.transport.deposit_cases i w content with hd | ⟨c, hc, hd⟩
  · refine goes_put ?_ ?_ <;> simp only [Part.map, Station.transportPart, Traced.now_put, works, hd]
    · exact List.prefix_refl _
    · exact .refl _
  · refine goes_answer (i := i) (r := ⟨w.owner, c, content⟩) ?_ ?_ ?_
    · simp only [Part.map, Station.transportPart, Traced.now_put, works, hd]
      exact List.prefix_refl _
    · simp only [Part.map, Station.transportPart, Traced.now_put, hd]
      rfl
    · refine ⟨n, reply, s.now, log, rest, w, ?_, hok, hcontent, hposted, hc, rfl⟩
      rw [Traced.history_put, hpast]

/-- The work of a task that was just set running queues the answer to its own request, if any. -/
theorem carryOut_runs (hf : ∀ p, (f p).Respects Runs) {w : Request κ Callback}
    (hs : Starts i w s) : Runs s (((link W f q).carryOut i w).outcome s).2 := by
  rw [HostLink.carryOut_eq, Effect.outcome_bind_ok (Part.outcome_read _ _)]
  split
  · exact .refl none [] s
  · have hruns := exchange_runs (W := W) (q := q) hf w s
    have hreplied : ∀ content t, ((link W f q).exchange w).outcome s = (.ok (some content), t) →
        ∃ reply, Replied i w reply t ∧ reply.isSuccess = true ∧ reply.content = some content :=
      fun _ _ => replied_exchange hf hs
    rw [Effect.outcome_bind_ok (Effect.outcome_attempt _ _)]
    generalize ((link W f q).exchange w).outcome s = o at hruns hreplied
    rcases o with ⟨fault | _ | content, t⟩
    · refine trans_of Runs hruns ?_
      rw [HostLink.settleReading]
      split
      · exact write_runs _ _ _ t
      · exact .refl none [] t
    · exact hruns
    · refine trans_of Runs hruns ?_
      obtain ⟨reply, hr, hok, hcontent⟩ := hreplied content t rfl
      rw [HostLink.settleReading]
      cases hclock : W.clock t.history.length with
      | error fault =>
        rw [Effect.outcome_bind_error (outcome_write_error hclock _ _ _)]
        exact .refl none [] t
      | ok moment =>
        rw [Effect.outcome_bind_ok (outcome_write_ok hclock _ _ _)]
        have hlogged : ∀ log, Runs t (t.put { t.now with log }) :=
          fun log => goes_put (List.prefix_refl _) (.refl _)
        exact trans_of Runs (hlogged _) (deposit_runs hr hok hcontent)

theorem execute_runs (hf : ∀ p, (f p).Respects Runs) (i : Nat) :
    ((link W f q).runner.execute i).Respects Runs := by
  intro s
  rw [TaskRunner.execute, Effect.outcome_bind_ok (Part.outcome_read _ _), get_runner]
  cases ha : s.now.transport.tasks.task? i with
  | none => exact .refl none [] s
  | some a =>
    have hset := (mild_runs (W := W) (f := f) (q := q)).setProgress i .running s
    have hstarts : Starts i a.work
        (s.put (s.now.withTasks (s.now.transport.tasks.setProgress i .running))) := by
      refine ⟨s.now, s.history, { a with progress := .running }, rfl, rfl, ?_, rfl⟩
      simp [Station.withTasks, TaskManager.setProgress, TaskManager.task?_modifyTask, ha]
    have hwork := carryOut_runs (W := W) (q := q) hf hstarts
    have hend : (do
        (link W f q).runner.manager.update (·.setProgress i .finished)
        (link W f q).runner.announce i).Respects Runs :=
      .bind (mild_runs.setProgress i .finished) fun _ => mild_runs.announce i
    dsimp only
    rw [Effect.outcome_bind_ok (outcome_update_runner W f q _ _)]
    refine Effect.after_bind (p := Runs s) (trans_of Runs hset hwork) fun _ t ht => ?_
    have hworked : Runs s t := by
      have hquiet := trans_of Runs hset hwork
      rw [Effect.quietly, Effect.outcome_bind_ok (Effect.outcome_attempt _ _)] at ht
      obtain ⟨-, rfl⟩ := Prod.mk.inj ht
      exact hquiet
    exact trans_of Runs hworked (hend t)

theorem accept_runs (w : Request κ Callback) (owner : Option κ) :
    ((link W f q).runner.manager.update (·.accept w owner)).Respects Runs :=
  update_runs fun m => m.works_accept w owner ▸ List.prefix_append _ _

theorem busy_runs (hf : ∀ p, (f p).Respects Runs) : (link W f q).runner.Busy Runs where
  toMild := mild_runs
  setQueue _ := update_runs fun _ => List.prefix_refl _
  execute := execute_runs hf

end DebugDesk.Conversation
