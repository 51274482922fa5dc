import DebugDesk.Proofs.Transport.Deliveries

/-!
# Faithful transports

However a transport is used, each answer comes from the request that it is handed to, no request is
answered twice, and each poll hands over what was queued when it began, in order, unless one of its
callbacks fails.

The task of a request queues its answer, so a request is answered once at most: no task of a
transport runs twice, and each calls back for the request that it was submitted with.

A poll hands over what it found in the queue, one answer after the other. What its callbacks do in
the meantime has entries of its own in the history, and never changes those of the poll.
-/
namespace DebugDesk.Conversation

section

variable {κ : Type} {W : World κ} {f : Program κ → Effect (Diary κ) Unit} {s t : Diary κ}
  {i q : Nat}

/-- The requests whose answers were queued, latest first. -/
def answered (s : Diary κ) : List Nat := (queued s).map fun r => r.callback.request

/-- The work of a task calls back for the request with the number of the task. -/
def IsOwn (i : Nat) (w : Request κ Callback) : Prop := ∀ c ∈ w.callback, c.request = i

def tasksPart : Part (Diary κ) (TaskManager κ (Request κ Callback)) where
  get s := s.now.transport.tasks
  set m s := s.put (s.now.withTasks m)

theorem answered_put {x : Station κ}
    (hq : x.transport.queue.length ≤ s.now.transport.queue.length) :
    answered (s.put x) = answered s := by
  rw [answered, queued_put, List.drop_eq_nil_of_le hq]
  rfl

theorem answered_note (s : Diary κ) (e : Event) : answered (s.note e) = answered s := by
  rw [answered, queued_note, answered]

def tally : Tally (tasksPart (κ := κ)) where
  used := answered
  fits := IsOwn
  get_set _ _ := rfl
  used_set _ _ := answered_put (Nat.le_refl _)

theorem steady_put {x : Station κ} (ht : x.transport.tasks = s.now.transport.tasks)
    (hq : x.transport.queue.length ≤ s.now.transport.queue.length) :
    tally.Steady s (s.put x) := by
  refine ⟨?_, ?_, answered_put hq⟩
  · change x.transport.tasks.works = s.now.transport.tasks.works
    rw [ht]
  · change x.transport.tasks.queue.Sublist s.now.transport.tasks.queue
    rw [ht]

theorem steady_note (s : Diary κ) (e : Event) : tally.Steady s (s.note e) :=
  ⟨rfl, .refl _, answered_note s e⟩

theorem Steady.respects {β : Type} {e : Effect (Diary κ) β} (he : e.Respects tally.Steady) :
    e.Respects (tally.Prudent []) := he.mono fun _ _ => Tally.Steady.prudent

theorem happen_steady (e : Event) :
    (Traced.happen e : Effect (Diary κ) Unit).Respects tally.Steady :=
  fun s => steady_note s e

theorem look_steady {β : Type} (g : Diary κ → β) : (Traced.look g).Respects tally.Steady :=
  fun s => refl_of tally.Steady s

theorem write_steady (kind : String) (detail message : Json) :
    ((link W f q).write kind detail message).Respects tally.Steady := by
  intro s
  cases h : W.clock s.history.length with
  | error fault =>
    rw [outcome_write_error h]
    exact refl_of tally.Steady s
  | ok moment =>
    rw [outcome_write_ok h]
    exact steady_put rfl (Nat.le_refl _)

theorem mild_tally : (link W f q).runner.Mild tally.Steady :=
  TaskRunner.mild_steady fun _ _ s => refl_of tally.Steady s

theorem emptyQueue_steady :
    ((link W f q).transport.update (·.emptyQueue)).Respects tally.Steady :=
  fun _ => steady_put rfl (Nat.zero_le _)

theorem drop_steady [DecidableEq κ] (o : κ) :
    ((link W f q).transport.update (·.drop o)).Respects tally.Steady :=
  fun _ => steady_put rfl (List.length_filter_le _ _)

theorem post_prudent (hf : ∀ p, (f p).Respects (tally.Prudent [])) (posting : Posting) :
    ((link W f q).post posting).Respects (tally.Prudent []) :=
  .bind (Steady.respects (look_steady _)) fun n =>
    .bind (Steady.respects (happen_steady (.posted n posting))) fun _ =>
    .bind (hf (W.network n posting).1).attempt fun _ =>
    .bind (Steady.respects (happen_steady (.replied n (W.network n posting).2))) fun _ =>
    .ofExcept _

theorem exchange_prudent (hf : ∀ p, (f p).Respects (tally.Prudent []))
    (w : Request κ Callback) : ((link W f q).exchange w).Respects (tally.Prudent []) := by
  rw [HostLink.exchange_eq]
  exact .bind (.read _) fun x => .bind (post_prudent hf _) fun reply => .ofExcept _

/-- The answer to the request of a task that may be run. -/
theorem deposit_prudent {w : Request κ Callback} (hw : IsOwn i w) (hi : tally.Ready i s)
    (content : Json) : tally.Prudent [i] s
      (((link W f q).transport.update (·.deposit i w content)).outcome s).2 := by
  rw [Part.outcome_update, Traced.map_part]
  rcases s.now.transport.deposit_cases i w content with hd | ⟨c, hc, hd⟩ <;>
    simp only [Part.map, Station.transportPart, hd]
  · exact (steady_put rfl (Nat.le_refl _)).prudent.widen
  · intro h
    have hanswered : answered (s.put { s.now with
        transport := s.now.transport.enqueue ⟨w.owner, c, content⟩ }) = i :: answered s := by
      rw [answered, queued_put]
      simp [HostTransport.enqueue, hw c hc, answered]
    refine ⟨⟨h.queueOnce, h.queueKnown, ?_, fun j hj => ?_, h.fit⟩, Nat.le_refl _,
      fun j _ hjq hji => ⟨hjq, fun hj => ?_⟩⟩
    · change (answered _).Nodup
      rw [hanswered]
      exact List.nodup_cons.mpr ⟨hi.unused, h.usedOnce⟩
    · change j ∈ answered _ at hj
      rw [hanswered] at hj
      rcases List.mem_cons.mp hj with rfl | hj
      · exact ⟨hi.lt, hi.unqueued⟩
      · exact h.usedGone j hj
    · change j ∈ answered _ at hj
      rw [hanswered] at hj
      rcases List.mem_cons.mp hj with rfl | hj
      · exact absurd List.mem_cons_self hji
      · exact hj

/-- What a task does with what it has read. -/
theorem settleReading_prudent {w : Request κ Callback} (hw : IsOwn i w) (hi : tally.Ready i s)
    (reading : Except Fault (Option Json)) :
    tally.Prudent [i] s (((link W f q).settleReading i w reading).outcome s).2 := by
  rcases reading with fault | _ | content <;> rw [HostLink.settleReading]
  · split
    · exact ((write_steady _ _ _) s).prudent.widen
    · exact refl_of (tally.Prudent [i]) s
  · exact refl_of (tally.Prudent [i]) s
  · intro h
    have hwrite := (write_steady (W := W) (f := f) (q := q) LogBook.responseKind
      (HostTransport.statusOf content) content s).prudent
    have hlater : ∀ t, tally.Spends [] s t → tally.Ready i t :=
      fun t ht => hi.later ht List.not_mem_nil
    refine Effect.after_bind (p := fun u => tally.Frugal u ∧ tally.Spends [i] s u)
      (hwrite.widen h) fun _ t ht => ?_
    rw [ht] at hwrite
    have hdeposit := deposit_prudent (W := W) (f := f) (q := q) hw (hlater t (hwrite h).2) content
    exact trans_of (tally.Prudent [i]) hwrite.widen hdeposit h

theorem honest (hf : ∀ p, (f p).Respects (tally.Prudent [])) :
    (link W f q).runner.Honest tally where
  mild := mild_tally
  perform i w s hw hi := by
    intro h
    change tally.Frugal (((link W f q).carryOut i w).outcome s).2 ∧
      tally.Spends [i] s (((link W f q).carryOut i w).outcome s).2
    rw [HostLink.carryOut_eq, Effect.outcome_bind_ok (Part.outcome_read _ _)]
    split
    · exact ⟨h, .refl⟩
    · have hexchange := exchange_prudent (W := W) (q := q) hf w s h
      rw [Effect.outcome_bind_ok (Effect.outcome_attempt _ _)]
      have hsettle := settleReading_prudent (W := W) (f := f) (q := q) hw
        (hi.later hexchange.2 List.not_mem_nil)
        (((link W f q).exchange w).outcome s).1 hexchange.1
      exact ⟨hsettle.1, (hexchange.2.mono (List.nil_subset _)).trans hsettle.2⟩

theorem poll_prudent (hf : ∀ p, (f p).Respects (tally.Prudent [])) :
    (link W f q).poll.Respects (tally.Prudent []) := by
  refine .bind (.read _) fun x => .bind (Steady.respects emptyQueue_steady) fun _ =>
    .bind (.forM _ fun r _ => ?_) fun _ => .pure _
  refine .bind (Steady.respects (happen_steady _)) fun _ => .bind (hf _).attempt fun result => ?_
  cases result with
  | ok u => exact .pure ()
  | error fault => exact .bind (Steady.respects (happen_steady _)) fun _ => .throw fault

theorem conduct_prudent (hf : ∀ p, (f p).Respects (tally.Prudent [])) :
    (conduct W f).Respects (tally.Prudent []) :=
  .bind (Steady.respects (look_steady polls)) fun p =>
    .bind (Steady.respects (happen_steady (.polled p))) fun _ =>
    .bind (poll_prudent hf).attempt fun result =>
    .bind (Steady.respects (happen_steady (.ended p result))) fun _ => .ofExcept result

theorem request_prudent (hf : ∀ p, (f p).Respects (tally.Prudent [])) {w : Request κ Callback}
    (hw : IsOwn s.now.transport.tasks.works.length w) :
    tally.Prudent [] s (((link W f q).request w).outcome s).2 := by
  rw [HostLink.request]
  split
  · exact refl_of (tally.Prudent []) s
  · have hwrite := write_steady (W := W) (f := f) (q := q) LogBook.requestKind w.method w.data s
    refine Effect.related_bind hwrite.prudent fun _ t ht => ?_
    rw [ht] at hwrite
    have hworks : t.now.transport.tasks.works = s.now.transport.tasks.works := hwrite.works
    rw [← hworks] at hw
    exact Effect.related_bind (TaskRunner.submit_prudent (honest (W := W) (q := q) hf) w.owner hw)
      fun _ u _ => refl_of (tally.Prudent []) u

theorem ask_prudent (hf : ∀ p, (f p).Respects (tally.Prudent [])) (method data : Json)
    (owner : Option κ) (callback : Option Nat) (silent : Bool) :
    (ask (link W f q) method data owner callback silent).Respects (tally.Prudent []) := by
  intro s
  rw [ask, Effect.outcome_bind_ok (Part.outcome_read _ _)]
  refine request_prudent hf fun c hc => ?_
  obtain ⟨name, -, rfl⟩ := Option.map_eq_some_iff.mp hc
  exact (TaskManager.length_works _).symm

variable [DecidableEq κ]

theorem discard_prudent (owner : Option κ) :
    ((link W f q).discard owner).Respects (tally.Prudent []) := by
  cases owner with
  | none => exact .pure ()
  | some o =>
    exact .bind (Steady.respects (mild_tally.cancelOwned (some o))) fun _ =>
      Steady.respects (drop_steady o)

omit [DecidableEq κ] in
theorem shutdown_prudent : (link W f q).shutdown.Respects (tally.Prudent []) :=
  .bind (Steady.respects mild_tally.clear) fun _ => Steady.respects emptyQueue_steady

theorem perform_prudent (W : World κ) (depth : Nat) (p : Program κ) :
    (perform W depth p).Respects (tally.Prudent []) := by
  induction depth generalizing p with
  | zero => exact .throw _
  | succ depth ih =>
    exact Program.respects (ask_prudent ih) (TaskRunner.runQueued_prudent (honest ih))
      (TaskRunner.runOne_prudent (honest ih)) (conduct_prudent ih) discard_prudent
      shutdown_prudent p

end

section

variable {κ : Type} {W : World κ} {f : Program κ → Effect (Diary κ) Unit} {s t u : Diary κ}
  {p : Nat} {l l' l'' done done' : List (Response κ Callback)}

theorem record_note_of_ne {e : Event} {p' : Nat} (he : e.poll? = some p) (hne : p' ≠ p) :
    record p' (s.note e) = record p' s := by
  have hnot : isAbout p' (.noted e s.now : Entry κ) = false := by
    simpa [isAbout, Moment.event?, he] using Ne.symm hne
  exact List.filter_cons_of_neg (by simp [hnot])

theorem record_note {e : Event} (he : e.poll? = some p) :
    record p (s.note e) = .noted e s.now :: record p s :=
  List.filter_cons_of_pos (by simp [isAbout, Moment.event?, he])

theorem handings_cons (x : Entry κ) (l : List (Entry κ)) :
    handings (x :: l) = handings l ++ (x.event?.bind Event.handed?).toList := by
  simp only [handings, List.filterMap_cons]
  cases x.event?.bind Event.handed? <;> simp

/-- How a diary goes on while a poll hands answers over. -/
structure Hands (p : Nat) (done before after : List (Response κ Callback)) (s t : Diary κ) :
    Prop where
  goes : Goes (some p) before after s t
  stays : record p s <:+ record p t
  hands : handings (record p t) = handings (record p s) ++ done.map key

theorem Hands.trans (h : Hands p done l l' s t) (hp : p < polls s)
    (h' : Hands p done' l' l'' t u) : Hands p (done ++ done') l l'' s u := by
  refine ⟨h.goes.trans (by simpa using hp) h'.goes, h.stays.trans h'.stays, ?_⟩
  rw [h'.hands, h.hands, List.map_append, List.append_assoc]

theorem Hands.of_runs (h : Runs s t) (hp : p < polls s) : Hands p [] l l s t := by
  have hsame := h.same p hp (by simp)
  refine ⟨.of_runs h (some p) l, hsame ▸ List.suffix_refl _, ?_⟩
  rw [hsame, List.map_nil, List.append_nil]

theorem Hands.note {e : Event} (hp : p < polls s) (he : e.poll? = some p) (hne : e.isPoll = false)
    (hl : l.map key = e.handed?.toList ++ l'.map key) (hdone : done.map key = e.handed?.toList) :
    Hands p done l l' s (s.note e) := by
  refine ⟨goes_note_poll hp he hne hl, ?_, ?_⟩
  · rw [record_note he]
    exact List.suffix_cons _ _
  · rw [record_note he, handings_cons, hdone]
    rfl

/-- The next answer is handed over, and only if its callback fails the poll does. -/
theorem hands_deliver (hf : ∀ p, (f p).Respects Runs) (hp : p < polls s)
    (r : Response κ Callback) {result : Except Fault Unit}
    (ht : ((link W f p).deliver r.callback r.content).outcome s = (result, t)) :
    Hands p [r] (r :: l) l s t ∧
      ∀ fault, result = .error fault → ∃ x, .noted (.failed p) x ∈ record p t := by
  have hhanded : Hands p [r] (r :: l) l s
      (s.note (.handed p r.callback r.content)) := .note hp rfl rfl rfl rfl
  have hruns := hf (W.callbacks r.callback.name r.content) (s.note (.handed p r.callback r.content))
  rw [Effect.outcome_bind_ok (Traced.outcome_happen _ _),
    Effect.outcome_bind_ok (Effect.outcome_attempt _ _)] at ht
  generalize (f (W.callbacks r.callback.name r.content)).outcome
    (s.note (.handed p r.callback r.content)) = o at hruns ht
  have hcalled := hhanded.trans hp (.of_runs (l := l) hruns hp)
  rcases o with ⟨fault | _, v⟩
  · obtain ⟨rfl, rfl⟩ := Prod.mk.inj ht
    have hpv : p < polls v := Nat.lt_of_lt_of_le hp hcalled.goes.count
    have hfailed : Hands p [] l l v (v.note (.failed p)) := .note hpv rfl rfl rfl rfl
    refine ⟨hcalled.trans hp hfailed, fun _ _ => ⟨v.now, ?_⟩⟩
    rw [record_note rfl]
    exact List.mem_cons_self
  · obtain ⟨rfl, rfl⟩ := Prod.mk.inj ht
    exact ⟨hcalled, fun fault hfault => by simp at hfault⟩

/-- Answers are handed over until none is left, or a callback fails. -/
theorem hands_deliverAll (hf : ∀ p, (f p).Respects Runs) (hp : p < polls s)
    (batch : List (Response κ Callback)) {result : Except Fault Unit}
    (ht : (batch.forM fun r => (link W f p).deliver r.callback r.content).outcome s = (result, t)) :
    ∃ done rest, batch = done ++ rest ∧ Hands p done batch rest s t ∧
      (∀ u, result = .ok u → rest = []) ∧
      ∀ fault, result = .error fault → ∃ x, .noted (.failed p) x ∈ record p t := by
  induction batch generalizing s with
  | nil =>
    obtain ⟨rfl, rfl⟩ := Prod.mk.inj ht
    exact ⟨[], [], rfl, .of_runs (refl_of Runs s) hp, by simp, by simp⟩
  | cons r batch ih =>
    rw [Effect.forM_cons] at ht
    rcases hr : ((link W f p).deliver r.callback r.content).outcome s with ⟨fault | _, v⟩
    · rw [Effect.outcome_bind_error hr] at ht
      obtain ⟨rfl, rfl⟩ := Prod.mk.inj ht
      obtain ⟨hhands, hfailed⟩ := hands_deliver (l := batch) hf hp r hr
      exact ⟨[r], batch, rfl, hhands, by simp, hfailed⟩
    · rw [Effect.outcome_bind_ok hr] at ht
      obtain ⟨hhands, -⟩ := hands_deliver (l := batch) hf hp r hr
      obtain ⟨done, rest, hbatch, hrest, hok, hfail⟩ :=
        ih (Nat.lt_of_lt_of_le hp hhands.goes.count) ht
      exact ⟨r :: done, rest, by rw [hbatch]; rfl, hhands.trans hp hrest, hok, hfail⟩

/-- A poll from the state in which it has begun. -/
theorem hands_poll (hf : ∀ p, (f p).Respects Runs) (hp : p < polls s) {result : Except Fault Nat}
    (ht : (link W f p).poll.outcome s = (result, t)) :
    ∃ done rest, s.now.transport.queue = done ++ rest ∧ Hands p done [] rest s t ∧
      (∀ n, result = .ok n → rest = [] ∧ n = s.now.transport.queue.length) ∧
      ∀ fault, result = .error fault → ∃ x, .noted (.failed p) x ∈ record p t := by
  have htake : Hands p [] [] s.now.transport.queue s
      (s.put { s.now with transport := s.now.transport.emptyQueue }) := by
    have hgoes : Goes (some p) [] [] s
        (s.put { s.now with transport := s.now.transport.emptyQueue }) :=
      goes_put (List.prefix_refl _) (List.nil_sublist _)
    refine ⟨⟨hgoes.past, hgoes.linked, hgoes.kept, hgoes.answering, ⟨[], ?_, ?_⟩, hgoes.count,
      hgoes.same, hgoes.numbered, hgoes.conducted⟩, List.suffix_refl _, by simp⟩
    · rw [queued_put]
      simp [HostTransport.emptyQueue]
    · simp only [accounted, HostTransport.emptyQueue, handed_put, Traced.now_put, List.map_nil,
        List.nil_append, List.append_nil]
      exact .refl _
  rw [HostLink.poll, Effect.outcome_bind_ok (Part.outcome_read _ _),
    Effect.outcome_bind_ok (Part.outcome_update _ _ _)] at ht
  have hrest : ∀ {r v}, (s.now.transport.queue.forM fun r =>
      (link W f p).deliver r.callback r.content).outcome
      (s.put { s.now with transport := s.now.transport.emptyQueue }) = (r, v) →
      ∃ done rest, s.now.transport.queue = done ++ rest ∧ Hands p done [] rest s v ∧
        (∀ u, r = .ok u → rest = []) ∧
        ∀ fault, r = .error fault → ∃ x, .noted (.failed p) x ∈ record p v := by
    intro r v hv
    have hp' : p < polls (s.put { s.now with transport := s.now.transport.emptyQueue }) := hp
    obtain ⟨done, rest, hqueue, hhands, hok, hfail⟩ := hands_deliverAll hf hp' _ hv
    exact ⟨done, rest, hqueue, htake.trans hp hhands, hok, hfail⟩
  rcases hall : (s.now.transport.queue.forM fun r =>
      (link W f p).deliver r.callback r.content).outcome
      (s.put { s.now with transport := s.now.transport.emptyQueue }) with ⟨fault | u, v⟩
  · obtain ⟨done, rest, hqueue, hhands, -, hfail⟩ := hrest hall
    obtain ⟨rfl, rfl⟩ := Prod.mk.inj ((Effect.outcome_bind_error hall _).symm.trans ht)
    exact ⟨done, rest, hqueue, hhands, by simp, fun fault' _ => hfail fault rfl⟩
  · obtain ⟨done, rest, hqueue, hhands, hok, -⟩ := hrest hall
    obtain ⟨rfl, rfl⟩ := Prod.mk.inj ((Effect.outcome_bind_ok hall _).symm.trans ht)
    refine ⟨done, rest, hqueue, hhands, fun n hn => ⟨hok u rfl, ?_⟩, by simp⟩
    exact (Except.ok.inj hn).symm

theorem accounted_note {e : Event} (he : e.handed? = none) (l : List (Response κ Callback)) :
    accounted (s.note e) l = accounted s l := by
  simp [accounted, handed, he]

theorem polls_note {e : Event} (he : e.isPoll = false) : polls (s.note e) = polls s := by
  simp [polls, he]

theorem polls_note_polled (s : Diary κ) : polls (s.note (.polled p)) = polls s + 1 := by
  simp [polls, Event.isPoll, List.countP_cons]

/-- A poll is conducted from its beginning to its end. -/
theorem conduct_runs (hf : ∀ p, (f p).Respects Runs) : (conduct W f).Respects Runs := by
  intro s
  rw [conduct, Effect.outcome_bind_ok (Traced.outcome_look _ _),
    Effect.outcome_bind_ok (Traced.outcome_happen _ _),
    Effect.outcome_bind_ok (Effect.outcome_attempt _ _),
    Effect.outcome_bind_ok (Traced.outcome_happen _ _), Effect.outcome_ofExcept]
  have hbegun : polls (s.note (.polled (polls s))) = polls s + 1 := polls_note_polled s
  have hp : polls s < polls (s.note (.polled (polls s))) := by omega
  rcases hr : (link W f (polls s)).poll.outcome (s.note (.polled (polls s))) with ⟨result, t⟩
  change Runs s (t.note (.ended (polls s) result))
  obtain ⟨done, rest, hqueue, hhands, hok, hfail⟩ := hands_poll hf hp hr
  have hgoes := hhands.goes.lose
  have hended : polls (t.note (.ended (polls s) result)) = polls t := polls_note rfl
  have hcount := hgoes.count
  have hbegin : ∀ p, p ≠ polls s → record p (s.note (.polled (polls s))) = record p s :=
    fun p hne => record_note_of_ne rfl hne
  have hend : ∀ p, p ≠ polls s → record p (t.note (.ended (polls s) result)) = record p t :=
    fun p hne => record_note_of_ne rfl hne
  have hnumbered : Numbered s → Numbered (s.note (.polled (polls s))) := by
    intro hn p hps
    rw [hbegin p (by omega), hn p (by omega)]
  refine ⟨?_, fun start hs => ?_, fun hk => ?_, fun ha => ?_, ?_, ?_, fun p hps _ => ?_,
    fun hn p hpt => ?_, fun hn p hps hpt => ?_⟩
  · have hpast := ((refl_of Traced.Extends s).note (.polled (polls s)))
    exact (trans_of Traced.Extends hpast hgoes.past).note _
  · exact (hgoes.linked start (hs.note _)).note _
  · exact kept_note (hgoes.kept (kept_note hk))
  · exact ⟨answering_note _ _ _, hgoes.answering ⟨answering_note _ _ _, ha⟩⟩
  · obtain ⟨new, hnew, hflow⟩ := hgoes.flows
    refine ⟨new, by rw [queued_note, hnew, queued_note], ?_⟩
    rw [accounted_note rfl]
    rwa [accounted_note rfl] at hflow
  · omega
  · have hne : some p ≠ some (polls s) := fun he => Nat.ne_of_lt hps (Option.some.inj he)
    rw [hend p (by omega), hgoes.same p (by omega) hne, hbegin p (by omega)]
  · rw [hend p (by omega)]
    exact hgoes.numbered (hnumbered hn) p (by omega)
  · by_cases hne : p = polls s
    · obtain rfl := hne
      have hfirst : record (polls s) (s.note (.polled (polls s))) =
          [.noted (.polled (polls s)) s.now] := by
        rw [record_note rfl, hn _ (Nat.le_refl _)]
      have hlast : record (polls s) (t.note (.ended (polls s) result)) =
          .noted (.ended (polls s) result) t.now :: record (polls s) t := record_note rfl
      have hhanded : handings (record (polls s) (t.note (.ended (polls s) result))) =
          done.map key := by
        rw [hlast, handings_cons, hhands.hands, hfirst]
        simp [handings, Moment.event?, Event.handed?]
      refine ⟨s.now.transport.queue, result, ?_, ⟨t.now, ?_⟩, ?_, fun n hn => ?_,
        fun fault he => ?_⟩
      · obtain ⟨later, hlater⟩ := hhands.stays
        refine ⟨s.now, ?_, rfl⟩
        rw [hlast, ← hlater, hfirst, ← List.cons_append, List.getLast?_concat]
      · rw [hlast, List.head?_cons]
      · rw [hhanded, show s.now.transport.queue = done ++ rest from hqueue, List.map_append]
        exact List.prefix_append _ _
      · obtain ⟨hrest, hcount⟩ := hok n hn
        rw [hhanded, show s.now.transport.queue = done ++ rest from hqueue, hrest,
          List.append_nil]
        refine ⟨rfl, ?_⟩
        rw [hcount, hqueue, hrest, List.append_nil]
      · obtain ⟨x, hx⟩ := hfail fault he
        rw [hlast]
        exact ⟨x, List.mem_cons_of_mem _ hx⟩
    · rw [hend p hne]
      exact hgoes.conducted (hnumbered hn) p (by omega) (by omega)

end

section

variable {κ : Type} {W : World κ} {f : Program κ → Effect (Diary κ) Unit} {s t : Diary κ}
  {q : Nat}

theorem ask_runs (hf : ∀ p, (f p).Respects Runs) (method data : Json) (owner : Option κ)
    (callback : Option Nat) (silent : Bool) :
    (ask (link W f q) method data owner callback silent).Respects Runs := by
  refine .bind (.read _) fun x => ?_
  rw [HostLink.request]
  split
  · exact .bind (.throw _) fun _ => .bind (write_runs _ _ _) fun _ =>
      .bind ((busy_runs hf).submit (accept_runs _ _)) fun _ => .pure _
  · exact .bind (write_runs _ _ _) fun _ => .bind ((busy_runs hf).submit (accept_runs _ _))
      fun _ => .pure _

theorem emptyQueue_runs : ((link W f q).transport.update (·.emptyQueue)).Respects Runs :=
  fun _ => goes_put (List.prefix_refl _) (List.nil_sublist _)

theorem shutdown_runs : (link W f q).shutdown.Respects Runs :=
  .bind mild_runs.clear fun _ => emptyQueue_runs

variable [DecidableEq κ]

theorem drop_runs (o : κ) : ((link W f q).transport.update (·.drop o)).Respects Runs :=
  fun _ => goes_put (List.prefix_refl _) List.filter_sublist

theorem discard_runs (owner : Option κ) : ((link W f q).discard owner).Respects Runs := by
  cases owner with
  | none => exact .pure ()
  | some o => exact .bind (mild_runs.cancelOwned (some o)) fun _ => drop_runs o

theorem perform_runs (W : World κ) (depth : Nat) (p : Program κ) :
    (perform W depth p).Respects Runs := by
  induction depth generalizing p with
  | zero => exact .throw _
  | succ depth ih =>
    exact Program.respects (ask_runs ih) (busy_runs ih).runQueued (busy_runs ih).runOne
      (conduct_runs ih) discard_runs shutdown_runs p

/-- What the history of a transport tells of its answers. -/
structure Faithful (start : Station κ) (s : Diary κ) : Prop where
  linked : s.Linked start
  /-- What is queued is the answer to the request of its callback. -/
  answers : ∀ later x past, s.history = later ++ x :: past →
    ∀ r ∈ queuedAt x, AnswerFor r r.callback.request past
  /-- Each request is answered once at most, -/
  answeredOnce : (answered s).Nodup
  /-- what was handed over was queued and waits no more, -/
  handedQueued : (handed s ++ s.now.transport.queue.map key).Subperm ((queued s).map key)
  /-- and nothing is handed over twice. -/
  handedOnce : ((handed s).map fun h => h.1.request).Nodup
  /-- Each poll comes to an end, and hands over what was queued when it began. -/
  polls : ∀ p < polls s, ∃ queue result, Conducted p (record p s) queue result

omit [DecidableEq κ] in
theorem AnswerFor.eq_request {r : Response κ Callback} {i : Nat} {past : List (Entry κ)}
    (h : AnswerFor r i past) (hpast : ∀ x ∈ past, works x.after <+: works s.now)
    (hs : tally.Frugal s) : i = r.callback.request := by
  obtain ⟨n, reply, y, log, rest, w, rfl, -, -, hposted, hcallback, -⟩ := h
  obtain ⟨later, earlier, x, z, a, rfl, -, ha, rfl⟩ := hposted
  have hz : works z <+: works s.now := hpast (.changed x z) (by simp)
  have hwork : (works s.now)[i]? = some a.work := by
    obtain ⟨more, hmore⟩ := hz
    have hzi : (works z)[i]? = some a.work := TaskManager.works_of_task? ha
    rw [← hmore, List.getElem?_append_left (List.getElem?_eq_some_iff.mp hzi).1, hzi]
  exact (hs.fit i a.work hwork r.callback hcallback).symm

omit [DecidableEq κ] in
theorem Faithful.of_runs {start : Station κ} (hstart : start.transport.queue = [])
    (hruns : Runs (.start start) s) (hfrugal : tally.Frugal s) : Faithful start s := by
  have hkept := hruns.kept (by simp [Traced.start])
  have hanswering := hruns.answering trivial
  have hqueued : (handed s ++ s.now.transport.queue.map key).Subperm ((queued s).map key) := by
    obtain ⟨new, hnew, hflow⟩ := hruns.flows
    have hnone : accounted (.start start : Diary κ) [] = [] := by
      simp [accounted, handed, Traced.start, hstart, Traced.events]
    have hall : queued s = new := hnew.trans (List.append_nil new)
    rw [hnone, List.append_nil, ← hall] at hflow
    simpa [accounted] using hflow
  refine ⟨hruns.linked start (.start start), fun later x past hs r hr => ?_, hfrugal.usedOnce,
    hqueued, ?_, fun p hp => hruns.conducted (fun _ _ => rfl) p (Nat.zero_le p) hp⟩
  · rw [hs] at hanswering hkept
    obtain ⟨i, hi⟩ := hanswering.of_split r hr
    have heq := hi.eq_request (fun y hy => hkept y (by simp [hy])) hfrugal
    exact heq ▸ hi
  · have hhanded : (handed s).Subperm ((queued s).map key) :=
      (List.sublist_append_left _ _).subperm.trans hqueued
    obtain ⟨l, hl, hsub⟩ := hhanded
    have hrequests := hsub.map fun h => h.1.request
    rw [List.map_map] at hrequests
    have honce : (l.map fun h => h.1.request).Nodup :=
      List.Nodup.sublist hrequests hfrugal.usedOnce
    exact (hl.map _).nodup_iff.mp honce

omit [DecidableEq κ] in
theorem frugal_start (url : String) (headers : Json) (timeout : Float) (executor : Executor)
    (log : LogBook) :
    tally.Frugal (.start ⟨.make url headers timeout executor, log⟩ : Diary κ) := by
  refine ⟨.nil, fun i hi => ?_, .nil, fun i hi => ?_, fun i w hw => ?_⟩
  · exact absurd hi List.not_mem_nil
  · exact absurd hi List.not_mem_nil
  · simp [tasksPart, Traced.start, HostTransport.make, TaskManager.make, TaskManager.works] at hw

/-- Whatever a program does with a new transport, the transport is faithful. -/
theorem run_faithful (W : World κ) (url : String) (headers : Json) (timeout : Float)
    (executor : Executor) (log : LogBook) (depth : Nat) (p : Program κ) :
    Faithful ⟨.make url headers timeout executor, log⟩
      (run W ⟨.make url headers timeout executor, log⟩ depth p) := by
  have hfrugal := frugal_start (κ := κ) url headers timeout executor log
  exact .of_runs rfl (perform_runs W depth p _) (perform_prudent W depth p _ hfrugal).1

/-- A callback that asks again, and is answered at once, does not keep the poll busy. -/
example (s : Diary Nat) (W : World Nat) (hW : W =
    ⟨fun _ => .ok 0, fun _ _ => (.stop false, .ok ⟨.int 200, .str "OK", some .null⟩),
      fun _ _ => .request (.str "echo") .null none (some 0) false fun _ => .stop false⟩)
    (hs : s = run W ⟨.make "" .null 10 .immediate, ⟨9, [], 0⟩⟩ 3
      (.request (.str "echo") .null none (some 0) false fun _ => .poll fun _ => .stop false)) :
    (handed s).length = 1 ∧ s.now.transport.queue.length = 1 := by
  subst hs hW
  decide +kernel

end

end DebugDesk.Conversation
