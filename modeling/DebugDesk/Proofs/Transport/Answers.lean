import Mathlib.Data.List.Perm.Subperm
import DebugDesk.Proofs.Transport.Conversations

/-!
# Answers on their way

What is queued is the answer to a request of its own, what is handed over was queued, and a poll
that is over has handed over what was queued when it began, up to the first failure. All calls of a
transport go on with that, whatever else they do.
-/
namespace DebugDesk.Conversation

variable {κ : Type} {s t u : Diary κ} {i n p : Nat}

def queuedAt (x : Entry κ) : List (Response κ Callback) :=
  x.after.transport.queue.drop x.before.transport.queue.length

def queued (s : Diary κ) : List (Response κ Callback) := s.history.flatMap queuedAt

/-- Which callback an answer is for, and what it is. -/
def key (r : Response κ Callback) : Callback × Json := (r.callback, r.content)

def handed (s : Diary κ) : List (Callback × Json) := s.events.filterMap Event.handed?

def isAbout (p : Nat) (x : Entry κ) : Bool := x.event?.bind Event.poll? == some p

def record (p : Nat) (s : Diary κ) : List (Entry κ) := s.history.filter (isAbout p)

def handings (l : List (Entry κ)) : List (Callback × Json) :=
  (l.filterMap fun x => x.event?.bind Event.handed?).reverse

/-- A task was set running, and then its request was posted. -/
def PostedFor (w : Request κ Callback) (i n : Nat) (past : List (Entry κ)) : Prop :=
  ∃ later earlier x s a,
    past = later ++ .noted (.posted n (s.transport.posting w)) s :: .changed x s :: earlier ∧
    s.transport.tasks = x.transport.tasks.setProgress i .running ∧
    s.transport.tasks.task? i = some a ∧ a.work = w

/-- A reply has just come and was written into the log: it is the answer to the request of a task,
and what was read from it is the content. -/
def AnswerFor (r : Response κ Callback) (i : Nat) (past : List (Entry κ)) : Prop :=
  ∃ n reply s log rest w,
    past = .changed s { s with log } :: .noted (.replied n (.ok reply)) s :: rest ∧
    reply.isSuccess = true ∧ reply.content = some r.content ∧ PostedFor w i n rest ∧
    w.callback = some r.callback ∧ w.owner = r.owner

/-- What is queued is the answer to the request of a task. -/
def Answering (x : Entry κ) (past : List (Entry κ)) : Prop :=
  ∀ r ∈ queuedAt x, ∃ i, AnswerFor r i past

/-- A poll that is over: it began with a queue, handed over what was in it one after the other, and
stopped early only when a callback failed. -/
structure Conducted (p : Nat) (l : List (Entry κ)) (queue : List (Response κ Callback))
    (result : Except Fault Nat) : Prop where
  begins : ∃ s, l.getLast? = some (.noted (.polled p) s) ∧ s.transport.queue = queue
  ends : ∃ s, l.head? = some (.noted (.ended p result) s)
  inOrder : handings l <+: queue.map key
  complete : ∀ n, result = .ok n → handings l = queue.map key ∧ n = queue.length
  fails : ∀ fault, result = .error fault → ∃ s, .noted (.failed p) s ∈ l

/-- What was handed over or waits in the queue, counted with what is about to be handed over. -/
def accounted (s : Diary κ) (pending : List (Response κ Callback)) : List (Callback × Json) :=
  handed s ++ (s.now.transport.queue.map key ++ pending.map key)

def works (s : Station κ) : List (Request κ Callback) := s.transport.tasks.works

/-- Polls are numbered in the order in which they begin. -/
def Numbered (s : Diary κ) : Prop := ∀ p, polls s ≤ p → record p s = []

/-- How a diary goes on while a poll has some answers still to hand over, and then others. -/
structure Goes (q : Option Nat) (before after : List (Response κ Callback)) (s t : Diary κ) :
    Prop where
  past : s.Extends t
  linked : ∀ start, s.Linked start → t.Linked start
  kept : (∀ x ∈ s.history, works x.after <+: works s.now) →
    ∀ x ∈ t.history, works x.after <+: works t.now
  answering : Throughout Answering s.history → Throughout Answering t.history
  flows : ∃ new, queued t = new ++ queued s ∧
    (accounted t after).Subperm (new.map key ++ accounted s before)
  count : polls s ≤ polls t
  same : ∀ p < polls s, some p ≠ q → record p t = record p s
  numbered : Numbered s → Numbered t
  conducted : Numbered s → ∀ p, polls s ≤ p → p < polls t →
    ∃ queue result, Conducted p (record p t) queue result

/-- How a diary goes on across a call. -/
def Runs : Diary κ → Diary κ → Prop := Goes none [] []

variable {q : Option Nat} {l l' l'' : List (Response κ Callback)}

theorem Goes.refl (q : Option Nat) (l : List (Response κ Callback)) (s : Diary κ) :
    Goes q l l s s :=
  ⟨refl_of Traced.Extends s, fun _ => id, id, id, ⟨[], rfl, .refl _⟩, Nat.le_refl _,
    fun _ _ _ => rfl, id, fun _ _ h h' => absurd h' (Nat.not_lt.mpr h)⟩

theorem Goes.trans (h : Goes q l l' s t) (hq : ∀ p, q = some p → p < polls s)
    (h' : Goes q l' l'' t u) : Goes q l l'' s u := by
  refine ⟨trans_of Traced.Extends h.past h'.past, fun start => h'.linked start ∘ h.linked start,
    h'.kept ∘ h.kept, h'.answering ∘ h.answering, ?_, Nat.le_trans h.count h'.count,
    fun p hp hpq => ?_, h'.numbered ∘ h.numbered, fun hn p hsp hpu => ?_⟩
  · obtain ⟨new, hnew, hflow⟩ := h.flows
    obtain ⟨new', hnew', hflow'⟩ := h'.flows
    refine ⟨new' ++ new, by rw [hnew', hnew, List.append_assoc], hflow'.trans ?_⟩
    rw [List.map_append, List.append_assoc]
    exact (List.subperm_append_left _).mpr hflow
  · rw [h'.same p (Nat.lt_of_lt_of_le hp h.count) hpq, h.same p hp hpq]
  · by_cases hpt : p < polls t
    · obtain ⟨queue, result, hc⟩ := h.conducted hn p hsp hpt
      refine ⟨queue, result, ?_⟩
      rw [h'.same p hpt]
      · exact hc
      · intro he
        exact Nat.not_lt.mpr hsp (hq p he.symm)
    · exact h'.conducted (h.numbered hn) p (Nat.not_lt.mp hpt) hpu

instance : IsPreorder (Diary κ) Runs where
  refl s := .refl none [] s
  trans _ _ _ h h' := h.trans (by simp) h'

theorem Goes.of_runs (h : Runs s t) (q : Option Nat) (l : List (Response κ Callback)) :
    Goes q l l s t := by
  refine ⟨h.past, h.linked, h.kept, h.answering, ?_, h.count, fun p hp _ => h.same p hp (by simp),
    h.numbered, h.conducted⟩
  obtain ⟨new, hnew, hflow⟩ := h.flows
  refine ⟨new, hnew, ?_⟩
  have hpending := (List.subperm_append_right (l.map key)).mpr hflow
  simpa [accounted, List.append_assoc] using hpending

theorem Goes.lose (h : Goes q l l' s t) : Goes q l [] s t := by
  refine ⟨h.past, h.linked, h.kept, h.answering, ?_, h.count, h.same, h.numbered,
    h.conducted⟩
  obtain ⟨new, hnew, hflow⟩ := h.flows
  refine ⟨new, hnew, List.Subperm.trans (List.Sublist.subperm ?_) hflow⟩
  simp [accounted]

@[simp] theorem polls_put (s : Diary κ) (x : Station κ) : polls (s.put x) = polls s := rfl

@[simp] theorem record_put (s : Diary κ) (x : Station κ) : record p (s.put x) = record p s := rfl

@[simp] theorem handed_put (s : Diary κ) (x : Station κ) : handed (s.put x) = handed s := rfl

theorem queued_put (s : Diary κ) (x : Station κ) :
    queued (s.put x) = x.transport.queue.drop s.now.transport.queue.length ++ queued s := rfl

theorem queued_note (s : Diary κ) (e : Event) : queued (s.note e) = queued s := by
  have h : queuedAt (.noted e s.now : Entry κ) = [] := List.drop_length
  simp [queued, h]

theorem answering_note (e : Event) (x : Station κ) (past : List (Entry κ)) :
    Answering (.noted e x) past := by
  intro r hr
  have h : queuedAt (.noted e x : Entry κ) = [] := List.drop_length
  simp [h] at hr

theorem kept_put {x : Station κ} (hw : works s.now <+: works x)
    (h : ∀ y ∈ s.history, works y.after <+: works s.now) :
    ∀ y ∈ (s.put x).history, works y.after <+: works x := by
  intro y hy
  rcases List.mem_cons.mp hy with rfl | hy
  · exact List.prefix_refl _
  · exact (h y hy).trans hw

theorem kept_note {e : Event} (h : ∀ y ∈ s.history, works y.after <+: works s.now) :
    ∀ y ∈ (s.note e).history, works y.after <+: works s.now := by
  intro y hy
  rcases List.mem_cons.mp hy with rfl | hy
  · exact List.prefix_refl _
  · exact h y hy

/-- A change that adds nothing to the queue. -/
theorem goes_put {x : Station κ} (hw : works s.now <+: works x)
    (hq : x.transport.queue.Sublist s.now.transport.queue) : Goes q l l s (s.put x) := by
  have hnone : x.transport.queue.drop s.now.transport.queue.length = [] :=
    List.drop_eq_nil_of_le hq.length_le
  refine ⟨.put (refl_of Traced.Extends s) x, fun start hs => hs.put x, kept_put hw, fun ha => ?_,
    ⟨[], ?_, ?_⟩, Nat.le_refl _, fun _ _ _ => rfl, id,
    fun _ _ h h' => absurd h' (Nat.not_lt.mpr h)⟩
  · refine ⟨fun r hr => ?_, ha⟩
    rw [show queuedAt (.changed s.now x : Entry κ) = [] from hnone] at hr
    simp at hr
  · rw [queued_put, hnone]
  · have hsub : (accounted (s.put x) l).Sublist (accounted s l) :=
      (List.Sublist.refl _).append ((hq.map key).append (.refl _))
    exact hsub.subperm

/-- An answer is queued. -/
theorem goes_answer {x : Station κ} {r : Response κ Callback} (hw : works s.now <+: works x)
    (hq : x.transport.queue = s.now.transport.queue ++ [r]) (ha : AnswerFor r i s.history) :
    Goes q l l s (s.put x) := by
  have hnew : x.transport.queue.drop s.now.transport.queue.length = [r] := by
    rw [hq, List.drop_left]
  refine ⟨.put (refl_of Traced.Extends s) x, fun start hs => hs.put x, kept_put hw,
    fun hs => ⟨fun r' hr => ?_, hs⟩,
    ⟨[r], ?_, ?_⟩, Nat.le_refl _, fun _ _ _ => rfl, id,
    fun _ _ h h' => absurd h' (Nat.not_lt.mpr h)⟩
  · rw [show queuedAt (.changed s.now x : Entry κ) = [r] from hnew] at hr
    obtain rfl := List.mem_singleton.mp hr
    exact ⟨i, ha⟩
  · rw [queued_put, hnew]
  · refine List.Perm.subperm ?_
    simp only [accounted, handed_put, Traced.now_put, hq, List.map_append, List.map_cons,
      List.map_nil]
    have hcomm : (accounted s l ++ [key r]).Perm ([key r] ++ accounted s l) :=
      List.perm_append_comm
    refine List.Perm.trans ?_ hcomm
    simp only [accounted, List.append_assoc]
    refine List.Perm.append_left _ (List.Perm.append_left _ ?_)
    exact List.perm_append_comm

/-- Something happens that is about no poll. -/
theorem goes_note {e : Event} (he : e.poll? = none) : Goes q l l s (s.note e) := by
  have hpolls : polls (s.note e) = polls s := by
    cases e <;> first | rfl | simp [Event.poll?] at he
  have hhanded : handed (s.note e) = handed s := by
    cases e <;> first | rfl | simp [Event.poll?] at he
  have hrecord : ∀ p, record p (s.note e) = record p s := by
    intro p
    have hnot : isAbout p (.noted e s.now : Entry κ) = false := by
      simp [isAbout, Moment.event?, he]
    exact List.filter_cons_of_neg (by simp [hnot])
  refine ⟨.note (refl_of Traced.Extends s) e, fun start hs => hs.note e, kept_note,
    fun hs => ⟨answering_note e s.now _, hs⟩, ⟨[], queued_note s e, ?_⟩, Nat.le_of_eq hpolls.symm,
    fun p _ _ => hrecord p, fun hn p hp => (hrecord p).trans (hn p (hpolls ▸ hp)),
    fun _ p h h' => absurd (hpolls ▸ h') (Nat.not_lt.mpr h)⟩
  simp only [accounted, hhanded, Traced.now_note, List.map_nil, List.nil_append]
  exact .refl _

/-- Something happens in a poll; it may hand over the next answer. -/
theorem goes_note_poll {e : Event} (hp : p < polls s) (he : e.poll? = some p)
    (hne : e.isPoll = false) (hl : l.map key = e.handed?.toList ++ l'.map key) :
    Goes (some p) l l' s (s.note e) := by
  have hpolls : polls (s.note e) = polls s := by
    simp [polls, hne]
  have hrecord : ∀ p', some p' ≠ some p → record p' (s.note e) = record p' s := by
    intro p' hne
    have hnot : isAbout p' (.noted e s.now : Entry κ) = false := by
      simpa [isAbout, Moment.event?, he] using fun h => hne (congrArg some h.symm)
    exact List.filter_cons_of_neg (by simp [hnot])
  have hhanded : handed (s.note e) = e.handed?.toList ++ handed s := by
    simp only [handed, Traced.events_note, List.filterMap_cons]
    cases e.handed? <;> rfl
  refine ⟨.note (refl_of Traced.Extends s) e, fun start hs => hs.note e, kept_note,
    fun hs => ⟨answering_note e s.now _, hs⟩, ⟨[], queued_note s e, ?_⟩, Nat.le_of_eq hpolls.symm,
    fun p' _ => hrecord p', fun hn p' hp' => ?_,
    fun _ p' h h' => absurd (hpolls ▸ h') (Nat.not_lt.mpr h)⟩
  · refine List.Perm.subperm ?_
    simp only [accounted, hhanded, Traced.now_note, List.map_nil, List.nil_append, hl]
    rw [List.append_assoc]
    refine List.perm_append_comm.trans ?_
    rw [List.append_assoc]
    refine List.Perm.append_left _ ?_
    rw [List.append_assoc]
    exact List.Perm.append_left _ List.perm_append_comm
  · rw [hpolls] at hp'
    rw [hrecord p' fun h => absurd (Option.some.inj h ▸ hp) (Nat.not_lt.mpr hp'), hn p' hp']

end DebugDesk.Conversation
