import DebugDesk.Proofs.Effect.Respecting
import DebugDesk.Proofs.Task.Wanted
import DebugDesk.Proofs.Transport.Uninterrupted

/-!
# Awaited answers

An answer is awaited while it is queued, and before that for as long as something may come of its
request. Only requests make more answers awaited, and none of an owner is once it is discarded.
-/
namespace DebugDesk

namespace HostTransport

variable {κ β : Type} {t t' : HostTransport κ β}

/-- Whether a callback may be handed an answer some time. -/
def Awaits (t : HostTransport κ β) (b : β) : Prop :=
  (∃ r ∈ t.queue, r.callback = b) ∨
    ∃ i a, t.tasks.task? i = some a ∧ a.isWanted = true ∧ a.work.callback = some b

def Fewer (t t' : HostTransport κ β) : Prop := ∀ b, t'.Awaits b → t.Awaits b

instance : IsPreorder (HostTransport κ β) Fewer where
  refl _ _ := id
  trans _ _ _ h h' b := h b ∘ h' b

theorem fewer_tasks {m : TaskManager κ (Request κ β)} (h : t.tasks.Ebbs m) :
    t.Fewer { t with tasks := m } := by
  intro b hb
  rcases hb with hqueued | ⟨i, a', ha', hwanted, hcallback⟩
  · exact .inl hqueued
  · obtain ⟨a, ha, -, hwork, hw⟩ := h.task i a' ha'
    exact .inr ⟨i, a, ha, hw hwanted, hwork ▸ hcallback⟩

theorem fewer_queue {queue : List (Response κ β)} (h : queue ⊆ t.queue) :
    t.Fewer { t with queue } := by
  intro b hb
  rcases hb with ⟨r, hr, hcallback⟩ | hwanted
  · exact .inl ⟨r, h hr, hcallback⟩
  · exact .inr hwanted

/-- The answer to a request of which something may come is awaited already. -/
theorem fewer_answer {i : Nat} {a : Task κ (Request κ β)} (ha : t.tasks.task? i = some a)
    (hwanted : a.isWanted = true) (content : Json) : t.Fewer (t.answer a.work content) := by
  intro b hb
  unfold answer at hb
  split at hb
  · exact hb
  next c hc =>
    rcases hb with ⟨r, hr, hcallback⟩ | hrest
    · rcases List.mem_append.mp hr with hr | hr
      · exact .inl ⟨r, hr, hcallback⟩
      · obtain rfl := List.mem_singleton.mp hr
        exact .inr ⟨i, a, ha, hwanted, hcallback ▸ hc⟩
    · exact .inr hrest

/-- Requests and answers belong to those who want the answers. -/
structure Tidy (t : HostTransport κ κ) : Prop where
  tasks : t.tasks.Tidy
  concurrent : t.tasks.mode = .concurrent
  deferred : t.tasks.executor = .deferred
  requests : ∀ i a, t.tasks.task? i = some a → a.owner = a.work.callback ∧
    a.work.owner = a.work.callback
  answers : ∀ r ∈ t.queue, r.owner = some r.callback

/-- Nothing is awaited at first. -/
theorem tidy_make (url : String) (headers : Json) (timeout : Float) :
    Tidy (.make url headers timeout .deferred : HostTransport κ κ) := by
  have hnone : ∀ i, (TaskManager.make .concurrent .deferred :
      TaskManager κ (Request κ κ)).task? i = none := fun i => List.getElem?_nil
  have htasks : (TaskManager.make .concurrent .deferred : TaskManager κ (Request κ κ)).Tidy :=
    ⟨.nil, fun _ hi => absurd hi List.not_mem_nil, .nil,
      fun _ hi => absurd hi List.not_mem_nil, fun i t ht => by simp [hnone] at ht⟩
  exact ⟨htasks, rfl, rfl, fun i a ha => by simp [make, hnone] at ha,
    fun _ hr => absurd hr List.not_mem_nil⟩

theorem not_awaits_make (url : String) (headers : Json) (timeout : Float) (b : β) :
    ¬ Awaits (.make url headers timeout .deferred : HostTransport κ β) b := by
  have hnone : ∀ i, (TaskManager.make .concurrent .deferred :
      TaskManager κ (Request κ β)).task? i = none := fun i => List.getElem?_nil
  rintro (⟨r, hr, -⟩ | ⟨i, a, ha, -⟩)
  · cases hr
  · simp [make, hnone] at ha

abbrev Abates : HostTransport κ κ → HostTransport κ κ → Prop := Effect.During Tidy Fewer

variable {s : HostTransport κ κ}

theorem abates_tasks {m : TaskManager κ (Request κ κ)}
    (h : s.Tidy → m.Tidy ∧ s.tasks.Ebbs m) : s.Abates { s with tasks := m } := by
  intro hs
  obtain ⟨htidy, hebbs⟩ := h hs
  refine ⟨⟨htidy, hebbs.mode.trans hs.concurrent, hebbs.executor.trans hs.deferred,
    fun i a' ha' => ?_, hs.answers⟩, fewer_tasks hebbs⟩
  obtain ⟨a, ha, howner, hwork, -⟩ := hebbs.task i a' ha'
  rw [howner, hwork]
  exact hs.requests i a ha

theorem abates_amends {m : TaskManager κ (Request κ κ)} {i : Nat}
    {f : Task κ (Request κ κ) → Task κ (Request κ κ)} (h : s.tasks.Amends i f m) :
    s.Abates { s with tasks := m } := abates_tasks fun hs => ⟨h.tidy hs.tasks, h.ebbs⟩

theorem abates_queue {queue : List (Response κ κ)} (h : queue ⊆ s.queue) :
    s.Abates { s with queue } := fun hs =>
  ⟨⟨hs.tasks, hs.concurrent, hs.deferred, hs.requests, fun r hr => hs.answers r (h hr)⟩,
    fewer_queue h⟩

theorem abates_answer {i : Nat} {a : Task κ (Request κ κ)} (ha : s.tasks.task? i = some a)
    (hwanted : a.isWanted = true) (content : Json) : s.Abates (s.answer a.work content) := by
  refine fun hs => ⟨⟨?_, ?_, ?_, fun j b hb => ?_, fun r hr => ?_⟩,
    fewer_answer ha hwanted content⟩
  · rw [tasks_answer]; exact hs.tasks
  · rw [tasks_answer]; exact hs.concurrent
  · rw [tasks_answer]; exact hs.deferred
  · rw [tasks_answer] at hb
    exact hs.requests j b hb
  · unfold answer at hr
    split at hr
    · exact hs.answers r hr
    next c hc =>
      rcases List.mem_append.mp hr with hr | hr
      · exact hs.answers r hr
      · obtain rfl := List.mem_singleton.mp hr
        exact (hs.requests i a ha).2.trans hc

section

variable [DecidableEq κ]

def without (t : HostTransport κ β) (o : κ) : HostTransport κ β :=
  { t with tasks := t.tasks.cancelAll true (t.tasks.ownedBy (some o)) }.drop o

/-- Nobody waits for answers who was discarded. -/
theorem Tidy.without (h : s.Tidy) (o : κ) :
    (s.without o).Tidy ∧ s.Fewer (s.without o) ∧ ¬ (s.without o).Awaits o := by
  have hcancels := TaskManager.cancels_all h.tasks true (s.tasks.ownedBy (some o))
  have htasks : s.Abates { s with
      tasks := s.tasks.cancelAll true (s.tasks.ownedBy (some o)) } :=
    abates_tasks fun _ => ⟨hcancels.tidy, hcancels.ebbs⟩
  have hdrop : Abates { s with tasks := s.tasks.cancelAll true (s.tasks.ownedBy (some o)) }
      (s.without o) := abates_queue (List.filter_subset_self _)
  obtain ⟨htidy, hfewer⟩ := trans_of Abates htasks hdrop h
  refine ⟨htidy, hfewer, fun hawaits => ?_⟩
  rcases hawaits with ⟨r, hr, hcallback⟩ | ⟨i, a', ha', hwanted, hcallback⟩
  · have howner := htidy.answers r hr
    have hkept := (List.mem_filter.mp hr).2
    simp [howner, hcallback] at hkept
  · obtain ⟨a, ha, howner, hwork, hw⟩ := hcancels.ebbs.task i a' ha'
    have hmine : a.owner = some o := by rw [(h.requests i a ha).1, ← hwork, hcallback]
    have howned : i ∈ s.tasks.ownedBy (some o) :=
      List.mem_filter.mpr ⟨h.tasks.wanted i a ha (hw hwanted), by simp [ha, hmine]⟩
    have hnot := hcancels.unwanted i howned a' ha'
    rw [hwanted] at hnot
    cases hnot

end

def closed (t : HostTransport κ β) : HostTransport κ β :=
  { t with tasks := (t.tasks.cancelAll false t.tasks.tracked).forgetAll }.emptyQueue

theorem abates_closed (s : HostTransport κ κ) : s.Abates s.closed := by
  have htasks : s.Abates { s with
      tasks := (s.tasks.cancelAll false s.tasks.tracked).forgetAll } :=
    abates_tasks fun hs => (TaskManager.cancels_all hs.tasks false _).forgetAll hs.tasks
  exact trans_of Abates htasks (abates_queue (List.nil_subset _))

/-- A request makes its own answer awaited, and no other. -/
theorem Tidy.enlist (h : s.Tidy) {r : Request κ κ} (hr : r.owner = r.callback) :
    Tidy { s with tasks := s.tasks.enlist r r.owner } ∧
      ∀ b, Awaits { s with tasks := s.tasks.enlist r r.owner } b →
        s.Awaits b ∨ r.callback = some b := by
  have htask : ∀ j, (s.tasks.enlist r r.owner).task? j =
      if j = s.tasks.tasks.length then some ⟨r.owner, r, false, .waiting⟩
      else s.tasks.task? j := fun j => by
    rw [TaskManager.enlist_eq _ _ _ h.deferred]
    exact TaskManager.task?_accept s.tasks r r.owner h.deferred j
  have hmode : (s.tasks.enlist r r.owner).mode = s.tasks.mode := by
    rw [TaskManager.enlist_eq _ _ _ h.deferred]
    rfl
  have hexecutor : (s.tasks.enlist r r.owner).executor = s.tasks.executor := by
    rw [TaskManager.enlist_eq _ _ _ h.deferred]
    rfl
  refine ⟨⟨h.tasks.enlist h.deferred r r.owner, hmode.trans h.concurrent,
    hexecutor.trans h.deferred, fun i a ha => ?_, h.answers⟩, fun b hb => ?_⟩
  · rw [htask] at ha
    split at ha
    · cases ha
      exact ⟨hr, hr⟩
    · exact h.requests i a ha
  · rcases hb with hqueued | ⟨i, a, ha, hwanted, hcallback⟩
    · exact .inl (.inl hqueued)
    · rw [htask] at ha
      split at ha
      · cases ha
        exact .inr hcallback
      · exact .inl (.inr ⟨i, a, ha, hwanted, hcallback⟩)

end HostTransport

end DebugDesk
