import DebugDesk.Proofs.Transport.Deliveries

/-!
# The course of a conversation

What programs do with a transport is put together from few small changes: of its tasks, of its log
book and of its queue. A relation that these respect is respected by every program.
-/
namespace DebugDesk

/-- An answer is queued only for a request that is not cancelled. -/
theorem HostTransport.deposit_unless {κ β : Type} (t : HostTransport κ β) (i : Nat)
    (r : Request κ β) (content : Json) : t.deposit i r content = t ∨
      t.tasks.isCancelled i = false ∧
        ∃ c, r.callback = some c ∧ t.deposit i r content = t.enqueue ⟨r.owner, c, content⟩ := by
  unfold deposit answer
  cases t.tasks.isCancelled i with
  | true => exact .inl rfl
  | false =>
    cases r.callback with
    | none => exact .inl rfl
    | some c => exact .inr ⟨rfl, c, rfl, rfl⟩

namespace Conversation

variable {κ : Type}

def Station.withQueue (x : Station κ) (queue : List (Response κ Callback)) : Station κ :=
  { x with transport := { x.transport with queue } }

/-- The small changes of a conversation respect a relation. -/
structure Course (P : Diary κ → Diary κ → Prop) : Prop where
  /-- Tasks are tracked, cancelled and run; a flag is never taken back. -/
  tends : ∀ s m, s.now.transport.tasks.Keeps m →
    m.tasks.length = s.now.transport.tasks.tasks.length → P s (s.put (s.now.withTasks m))
  accepts : ∀ s w, P s (s.put (s.now.withTasks (s.now.transport.tasks.accept w w.owner)))
  logs : ∀ s log, P s (s.put { s.now with log })
  drops : ∀ s queue, queue.Sublist s.now.transport.queue → P s (s.put (s.now.withQueue queue))
  /-- The answer to a request that is not cancelled is queued. -/
  answers : ∀ s i a c content, s.now.transport.tasks.task? i = some a → a.cancelled = false →
    a.work.callback = some c → P s (s.put (s.now.withQueue
      (s.now.transport.queue ++ [⟨a.work.owner, c, content⟩])))
  notes : ∀ s e, e.isPoll = false → P s (s.note e)
  takes : ∀ s, P s ((s.note (.polled (polls s))).put (s.now.withQueue []))
  keeps : ∀ s t, P s t → s.now.transport.tasks.Keeps t.now.transport.tasks

variable {W : World κ} {f : Program κ → Effect (Diary κ) Unit} {s t : Diary κ} {i q : Nat}
  {P : Diary κ → Diary κ → Prop} [IsPreorder (Diary κ) P]

namespace Course

omit [IsPreorder (Diary κ) P] in
theorem update (h : Course P)
    {g : TaskManager κ (Request κ Callback) → TaskManager κ (Request κ Callback)}
    (hkeeps : ∀ m, TaskManager.Keeps m (g m)) (hlength : ∀ m, (g m).tasks.length = m.tasks.length) :
    ((link W f q).runner.manager.update g).Respects P :=
  fun s => h.tends s _ (hkeeps _) (hlength _)

theorem mild (h : Course P) : (link W f q).runner.Mild P where
  track _ := h.update (fun _ => .of_tasks rfl) fun _ => rfl
  untrack _ := h.update (fun _ => .of_tasks rfl) fun _ => rfl
  strike i forget := h.update (fun m => .strike m i forget) fun m => by
    rw [← TaskManager.length_works, ← TaskManager.length_works, m.works_strike]
  setProgress i p := h.update (fun m => .setProgress m i p) fun m => m.length_modifyTask i _
  forgetAll := h.update (fun _ => .of_tasks rfl) fun _ => rfl
  done _ _ := .pure ()

theorem write (h : Course P) (kind : String) (detail message : Json) :
    ((link W f q).write kind detail message).Respects P := by
  intro s
  cases hclock : W.clock s.history.length with
  | error fault =>
    rw [outcome_write_error hclock]
    exact refl_of P s
  | ok moment =>
    rw [outcome_write_ok hclock]
    exact h.logs s _

/-- What happens meanwhile is up to the world. -/
theorem exchange (h : Course P) (hf : ∀ p, (f p).Respects P) (w : Request κ Callback) :
    ((link W f q).exchange w).Respects P := by
  rw [HostLink.exchange_eq]
  refine .bind (.read _) fun x => .bind (fun s => ?_) fun reply => .ofExcept _
  rw [outcome_post]
  have hposted := h.notes s (.posted (postings s) (x.posting w)) rfl
  have hmeanwhile := hf (W.network (postings s) (x.posting w)).1
    (s.note (.posted (postings s) (x.posting w)))
  exact trans_of P (trans_of P hposted hmeanwhile) (h.notes _ _ rfl)

omit [IsPreorder (Diary κ) P] in
theorem deposit (h : Course P) {a : Task κ (Request κ Callback)}
    (ha : s.now.transport.tasks.task? i = some a) (content : Json) :
    P s (((link W f q).transport.update (·.deposit i a.work content)).outcome s).2 := by
  rw [Part.outcome_update, Traced.map_part]
  rcases s.now.transport.deposit_unless i a.work content with hd | ⟨hnot, c, hc, hd⟩ <;>
    simp only [Part.map, Station.transportPart, hd]
  · exact h.drops s s.now.transport.queue (.refl _)
  · have hflag : a.cancelled = false := by simpa [TaskManager.isCancelled, ha] using hnot
    exact h.answers s i a c content ha hflag hc

/-- The work of a task ends with its own answer, if any. -/
theorem carryOut (h : Course P) (hf : ∀ p, (f p).Respects P) {a : Task κ (Request κ Callback)}
    (ha : s.now.transport.tasks.task? i = some a) :
    P s (((link W f q).carryOut i a.work).outcome s).2 := by
  rw [HostLink.carryOut_eq, Effect.outcome_bind_ok (Part.outcome_read _ _)]
  split
  · exact refl_of P s
  · have hexchange := h.exchange (W := W) (q := q) hf a.work s
    rw [Effect.outcome_bind_ok (Effect.outcome_attempt _ _)]
    generalize ((link W f q).exchange a.work).outcome s = o at hexchange
    rcases o with ⟨fault | _ | content, t⟩ <;> rw [HostLink.settleReading]
    · refine trans_of P hexchange ?_
      split
      · exact h.write _ _ _ t
      · exact refl_of P t
    · exact hexchange
    · have hwrite := h.write (W := W) (f := f) (q := q) LogBook.responseKind
        (HostTransport.statusOf content) content t
      refine trans_of P hexchange (Effect.related_bind hwrite fun _ u hu => ?_)
      rw [hu] at hwrite
      obtain ⟨b, hb, -, hwork, -⟩ := h.keeps s u (trans_of P hexchange hwrite) i a ha
      exact hwork ▸ h.deposit hb content

theorem execute (h : Course P) (hf : ∀ p, (f p).Respects P) (i : Nat) :
    ((link W f q).runner.execute i).Respects P := by
  intro s
  rw [TaskRunner.execute, Effect.outcome_bind_ok (Part.outcome_read _ _), get_runner]
  cases ha : s.now.transport.tasks.task? i with
  | none => exact refl_of P s
  | some a =>
    have hset := (h.mild (W := W) (f := f) (q := q)).setProgress i .running s
    have hrunning : (s.put (s.now.withTasks
        (s.now.transport.tasks.setProgress i .running))).now.transport.tasks.task? i =
        some { a with progress := .running } := by
      simp [Station.withTasks, TaskManager.setProgress, TaskManager.task?_modifyTask, ha]
    have hwork := h.carryOut (W := W) (q := q) hf hrunning
    have hend : (do
        (link W f q).runner.manager.update (·.setProgress i .finished)
        (link W f q).runner.announce i).Respects P :=
      .bind (h.mild.setProgress i .finished) fun _ => h.mild.announce i
    exact Effect.related_bind hset fun _ u hu => by
      obtain ⟨-, rfl⟩ := Prod.mk.inj hu
      exact Effect.related_bind hwork fun _ v _ => hend v

theorem busy (h : Course P) (hf : ∀ p, (f p).Respects P) : (link W f q).runner.Busy P where
  toMild := h.mild
  setQueue _ := h.update (fun _ => .of_tasks rfl) fun _ => rfl
  execute := h.execute hf

theorem ask (h : Course P) (hf : ∀ p, (f p).Respects P) (method data : Json) (owner : Option κ)
    (callback : Option Nat) (silent : Bool) :
    (ask (link W f q) method data owner callback silent).Respects P := by
  refine .bind (.read _) fun x => ?_
  have hsubmit : ∀ w : Request κ Callback, (do
      (link W f q).write LogBook.requestKind w.method w.data
      let _ ← (link W f q).runner.submit w w.owner).Respects P := fun w =>
    .bind (h.write _ _ _) fun _ => .bind ((h.busy hf).submit fun s => h.accepts s w) fun _ =>
      .pure _
  rw [HostLink.request]
  split
  · exact .bind (.throw _) fun _ => hsubmit _
  · exact hsubmit _

theorem deliver (h : Course P) (hf : ∀ p, (f p).Respects P) (c : Callback) (content : Json) :
    ((link W f q).deliver c content).Respects P := by
  refine .bind (fun s => h.notes s _ rfl) fun _ => .bind (hf _).attempt fun result => ?_
  cases result with
  | ok u => exact .pure ()
  | error fault => exact .bind (fun s => h.notes s _ rfl) fun _ => .throw fault

/-- How a poll begins. -/
theorem outcome_conduct (W : World κ) (f : Program κ → Effect (Diary κ) Unit) (s : Diary κ) :
    ((conduct W f).outcome s).2 =
      (((link W f (polls s)).poll).outcome (s.note (.polled (polls s)))).2.note
        (.ended (polls s)
          (((link W f (polls s)).poll).outcome (s.note (.polled (polls s)))).1) := by
  rw [conduct, Effect.outcome_bind_ok (Traced.outcome_look _ _),
    Effect.outcome_bind_ok (Traced.outcome_happen _ _),
    Effect.outcome_bind_ok (Effect.outcome_attempt _ _),
    Effect.outcome_bind_ok (Traced.outcome_happen _ _), Effect.outcome_ofExcept]

theorem conduct_goes (h : Course P) (hf : ∀ p, (f p).Respects P) (s : Diary κ) :
    P ((s.note (.polled (polls s))).put (s.now.withQueue [])) ((conduct W f).outcome s).2 := by
  have hall : (s.now.transport.queue.forM fun r =>
      (link W f (polls s)).deliver r.callback r.content).Respects P :=
    .forM _ fun r _ => h.deliver hf r.callback r.content
  rw [outcome_conduct, HostLink.poll, Effect.outcome_bind_ok (Part.outcome_read _ _),
    Effect.outcome_bind_ok (Part.outcome_update _ _ _), Effect.outcome_bind_pure]
  exact trans_of P (hall _) (h.notes _ _ rfl)

theorem conduct (h : Course P) (hf : ∀ p, (f p).Respects P) : (conduct W f).Respects P :=
  fun s => trans_of P (h.takes s) (h.conduct_goes hf s)

theorem shutdown (h : Course P) : (link W f q).shutdown.Respects P :=
  .bind h.mild.clear fun _ s => h.drops s [] (List.nil_sublist _)

variable [DecidableEq κ]

theorem discard (h : Course P) (owner : Option κ) :
    ((link W f q).discard owner).Respects P := by
  cases owner with
  | none => exact .pure ()
  | some o =>
    exact .bind (h.mild.cancelOwned (some o)) fun _ s => h.drops s _ List.filter_sublist

theorem perform (h : Course P) (W : World κ) (depth : Nat) (p : Program κ) :
    (perform W depth p).Respects P := by
  induction depth generalizing p with
  | zero => exact .throw _
  | succ depth ih =>
    exact Program.respects (h.ask ih) (h.busy ih).runQueued (h.busy ih).runOne
      (h.conduct ih) h.discard h.shutdown p

end Course

end Conversation

end DebugDesk
