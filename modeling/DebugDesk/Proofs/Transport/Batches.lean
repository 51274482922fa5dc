import DebugDesk.Proofs.Transport.Courses
import DebugDesk.Proofs.Transport.Faithful

/-!
# Batches

A poll takes all that is queued at once. No answer is in the batches of two polls, so what a poll
has taken and does not hand over, because a callback before it fails, is lost: no later poll finds
it in the queue again.
-/
namespace DebugDesk.Conversation

variable {κ : Type} {s t u : Diary κ} {r r' : Response κ Callback} {x y : Station κ}
  {z : Entry κ} {h l later past : List (Entry κ)} {p p' : Nat}

/-- The answer to the request of a task that is not cancelled is queued. -/
structure Queues (z : Entry κ) (r : Response κ Callback) : Prop where
  queue : z.after.transport.queue = z.before.transport.queue ++ [r]
  uncancelled : ∃ i a, z.before.transport.tasks.task? i = some a ∧ a.cancelled = false ∧
    a.work.callback = some r.callback ∧ a.work.owner = r.owner

def Owned (x : Station κ) : Prop :=
  ∀ i a, x.transport.tasks.task? i = some a → a.owner = a.work.owner

structure Orderly (z : Entry κ) : Prop where
  keeps : z.before.transport.tasks.Keeps z.after.transport.tasks
  owned : Owned z.before → Owned z.after
  queue : z.after.transport.queue.Sublist z.before.transport.queue ∨ ∃ r, Queues z r

/-- A poll has begun with a batch, which it took from the queue. -/
structure Takes (h : List (Entry κ)) (p : Nat) (batch : List (Response κ Callback))
    (later past : List (Entry κ)) (x : Station κ) : Prop where
  history : h = later ++ .changed x (x.withQueue []) :: .noted (.polled p) x :: past
  batch : x.transport.queue = batch
  first : ∀ y, .noted (.polled p) y ∉ past

/-- How a diary goes on. -/
structure Proceeds (s t : Diary κ) : Prop where
  past : s.Extends t
  keeps : s.now.transport.tasks.Keeps t.now.transport.tasks
  orderly : (∀ z ∈ s.history, Orderly z) → ∀ z ∈ t.history, Orderly z
  count : polls s ≤ polls t
  numbered : (∀ p, .polled p ∈ s.events → p < polls s) → ∀ p, .polled p ∈ t.events → p < polls t
  takes : (∀ p, .polled p ∈ s.events → p < polls s) → ∀ p, polls s ≤ p → p < polls t →
    ∃ batch later past x, Takes t.history p batch later past x

theorem Takes.mono {batch : List (Response κ Callback)} (hp : Takes s.history p batch later past x)
    (hst : s.Extends t) : ∃ later, Takes t.history p batch later past x := by
  obtain ⟨more, hmore⟩ := hst
  exact ⟨more ++ later, by rw [← hmore, hp.history, List.append_assoc], hp.batch, hp.first⟩

theorem Takes.suffix {batch : List (Response κ Callback)} (hp : Takes h p batch later past x) :
    .noted (.polled p) x :: past <:+ h :=
  ⟨later ++ [.changed x (x.withQueue [])], by simp [hp.history]⟩

instance : IsPreorder (Diary κ) Proceeds where
  refl s := ⟨refl_of Traced.Extends s, .of_tasks rfl, id, Nat.le_refl _, id,
    fun _ _ h h' => absurd h' (Nat.not_lt.mpr h)⟩
  trans s t u h h' := by
    refine ⟨trans_of Traced.Extends h.past h'.past, h.keeps.trans h'.keeps,
      h'.orderly ∘ h.orderly, Nat.le_trans h.count h'.count, h'.numbered ∘ h.numbered,
      fun hs p hsp hpu => ?_⟩
    by_cases hpt : p < polls t
    · obtain ⟨batch, later, past, x, hp⟩ := h.takes hs p hsp hpt
      obtain ⟨later, hp⟩ := hp.mono h'.past
      exact ⟨batch, later, past, x, hp⟩
    · exact h'.takes (h.numbered hs) p (Nat.not_lt.mp hpt) hpu

theorem proceeds_put (hkeeps : s.now.transport.tasks.Keeps x.transport.tasks)
    (howned : Owned s.now → Owned x)
    (hqueue : x.transport.queue.Sublist s.now.transport.queue ∨ ∃ r, Queues (.changed s.now x) r) :
    Proceeds s (s.put x) := by
  refine ⟨.put (refl_of Traced.Extends s) x, hkeeps, fun hs z hz => ?_, Nat.le_refl _, id,
    fun _ _ h h' => absurd h' (Nat.not_lt.mpr h)⟩
  rcases List.mem_cons.mp hz with rfl | hz
  · exact ⟨hkeeps, howned, hqueue⟩
  · exact hs z hz

theorem orderly_note (e : Event) (x : Station κ) : Orderly (.noted e x) :=
  ⟨.of_tasks rfl, id, .inl (.refl _)⟩

theorem proceeds_note {e : Event} (he : e.isPoll = false) : Proceeds s (s.note e) := by
  have hpolls : polls (s.note e) = polls s := polls_note he
  refine ⟨.note (refl_of Traced.Extends s) e, .of_tasks rfl, fun hs z hz => ?_,
    Nat.le_of_eq hpolls.symm, fun hs p hp => ?_,
    fun _ p h h' => absurd (hpolls ▸ h') (Nat.not_lt.mpr h)⟩
  · rcases List.mem_cons.mp hz with rfl | hz
    · exact orderly_note e s.now
    · exact hs z hz
  · rw [hpolls]
    rcases List.mem_cons.mp hp with rfl | hp
    · cases he
    · exact hs p hp

theorem Owned.of_keeps {m : TaskManager κ (Request κ Callback)}
    (h : x.transport.tasks.Keeps m) (hm : m.tasks.length = x.transport.tasks.tasks.length)
    (hx : Owned x) : Owned (x.withTasks m) := by
  intro i a' ha'
  have hi : i < x.transport.tasks.tasks.length := hm ▸ (List.getElem?_eq_some_iff.mp ha').1
  have ha : x.transport.tasks.task? i = some x.transport.tasks.tasks[i] :=
    List.getElem?_eq_getElem hi
  obtain ⟨b, hb, howner, hwork, -⟩ := h i _ ha
  obtain rfl := Option.some.inj (ha'.symm.trans hb)
  rw [howner, hwork]
  exact hx i _ ha

theorem Owned.accept (hx : Owned x) (w : Request κ Callback) :
    Owned (x.withTasks (x.transport.tasks.accept w w.owner)) := by
  intro i a ha
  change (x.transport.tasks.tasks ++ [_])[i]? = some a at ha
  rw [List.getElem?_append] at ha
  split at ha
  · exact hx i a ha
  · rw [List.getElem?_singleton] at ha
    split at ha
    · obtain rfl := Option.some.inj ha
      rfl
    · simp at ha

/-- A poll takes its batch. -/
theorem proceeds_take (s : Diary κ) :
    Proceeds s ((s.note (.polled (polls s))).put (s.now.withQueue [])) := by
  have hpolls : polls (s.note (.polled (polls s))) = polls s + 1 := polls_note_polled s
  refine ⟨.put (.note (refl_of Traced.Extends s) _) _, .of_tasks rfl, fun hs z hz => ?_, ?_,
    fun hs p hp => ?_, fun hs p hp hlt => ?_⟩
  · rcases List.mem_cons.mp hz with rfl | hz
    · exact ⟨.of_tasks rfl, id, .inl (List.nil_sublist _)⟩
    · rcases List.mem_cons.mp hz with rfl | hz
      · exact orderly_note _ s.now
      · exact hs z hz
  · rw [polls_put, hpolls]
    exact Nat.le_succ _
  · rw [polls_put, hpolls]
    rcases List.mem_cons.mp hp with hp | hp
    · cases hp
      exact Nat.lt_succ_self _
    · exact Nat.lt_succ_of_lt (hs p hp)
  · rw [polls_put, hpolls] at hlt
    obtain rfl : p = polls s := by omega
    refine ⟨_, [], s.history, s.now, rfl, rfl, fun y hy => ?_⟩
    have hevent : Event.polled (polls s) ∈ s.events := List.mem_filterMap.mpr ⟨_, hy, rfl⟩
    exact Nat.lt_irrefl _ (hs _ hevent)

theorem proceeds_course : Course (Proceeds (κ := κ)) where
  tends _ _ hm hlength := proceeds_put hm (Owned.of_keeps hm hlength) (.inl (.refl _))
  accepts _ w := proceeds_put (.accept _ w w.owner) (fun hs => hs.accept w) (.inl (.refl _))
  logs _ _ := proceeds_put (.of_tasks rfl) id (.inl (.refl _))
  drops _ _ hqueue := proceeds_put (.of_tasks rfl) id (.inl hqueue)
  answers _ i a _ _ ha hflag hc :=
    proceeds_put (.of_tasks rfl) id (.inr ⟨_, rfl, i, a, ha, hflag, hc, rfl⟩)
  notes _ _ he := proceeds_note he
  takes := proceeds_take
  keeps _ _ h := h.keeps

theorem queuedAt_of_orderly (hz : Orderly z) :
    z.after.transport.queue.Sublist (z.before.transport.queue ++ queuedAt z) := by
  rcases hz.queue with hsub | ⟨r, hr⟩
  · exact hsub.trans (List.sublist_append_left _ _)
  · rw [queuedAt, hr.queue, List.drop_left]

/-- What waits was there before, or was queued since. -/
theorem waiting (hl : Traced.LinkedTo x h y) (hz : ∀ z ∈ h, Orderly z) :
    y.transport.queue.Sublist (x.transport.queue ++ (h.flatMap queuedAt).reverse) := by
  induction h generalizing y with
  | nil =>
    obtain rfl := hl
    simp
  | cons z h ih =>
    obtain ⟨rfl, hl⟩ := hl
    have hbefore := ih hl fun z' hz' => hz z' (List.mem_cons_of_mem z hz')
    have hafter := queuedAt_of_orderly (hz z List.mem_cons_self)
    have hone : (queuedAt z).reverse = queuedAt z := by
      rcases (hz z List.mem_cons_self).queue with hsub | ⟨r, hr⟩
      · rw [queuedAt, List.drop_eq_nil_of_le hsub.length_le, List.reverse_nil]
      · rw [queuedAt, hr.queue, List.drop_left, List.reverse_singleton]
    rw [List.flatMap_cons, List.reverse_append, hone, ← List.append_assoc]
    exact hafter.trans (hbefore.append (.refl _))

theorem LinkedTo.split (hl : Traced.LinkedTo x (later ++ z :: past) y) :
    Traced.LinkedTo z.after later y ∧ Traced.LinkedTo x past z.before := by
  induction later generalizing y with
  | nil => exact ⟨hl.1.symm, hl.2⟩
  | cons z' later ih => exact ⟨⟨hl.1, (ih hl.2).1⟩, (ih hl.2).2⟩

theorem mem_of_suffix {μ : Type} {A B C D : List μ} {n : μ} (h : A ++ B = C ++ n :: D)
    (hB : B <:+ D) : n ∈ A := by
  obtain ⟨E, rfl⟩ := hB
  rw [← List.cons_append, ← List.append_assoc] at h
  rw [List.append_cancel_right h]
  simp

/-- What is known of the history of a transport that was new. -/
structure Recorded (start : Station κ) (u : Diary κ) : Prop where
  new : start.transport.queue = []
  linked : u.Linked start
  orderly : ∀ z ∈ u.history, Orderly z
  once : (answered u).Nodup
  numbered : Numbered u
  takes : ∀ p < polls u, ∃ batch later past x, Takes u.history p batch later past x
  conducted : ∀ p < polls u, ∃ queue result, Conducted p (record p u) queue result

variable {start : Station κ} {batch batch' : List (Response κ Callback)}
  {later' past' : List (Entry κ)}

namespace Recorded

/-- No answer is queued at two moments. -/
theorem apart (hu : Recorded start u) (hsplit : u.history = later ++ past)
    (hr : r ∈ later.flatMap queuedAt) (hr' : r' ∈ past.flatMap queuedAt) :
    r.callback.request ≠ r'.callback.request := by
  have honce := hu.once
  rw [answered, queued, hsplit, List.flatMap_append, List.map_append] at honce
  exact (List.nodup_append.mp honce).2.2 _ (List.mem_map_of_mem hr) _ (List.mem_map_of_mem hr')

theorem unique (hu : Recorded start u) (hr : r ∈ queued u) (hr' : r' ∈ queued u)
    (he : r.callback.request = r'.callback.request) : r = r' :=
  List.inj_on_of_nodup_map hu.once hr hr' he

theorem batch_sublist (hu : Recorded start u) (hp : Takes u.history p batch later past x) :
    batch.Sublist (past.flatMap queuedAt).reverse := by
  have hl : Traced.LinkedTo start (later ++ .changed x (x.withQueue []) ::
      .noted (.polled p) x :: past) u.now := hp.history ▸ hu.linked
  have hz : ∀ z ∈ past, Orderly z := fun z hz => hu.orderly z (by rw [hp.history]; simp [hz])
  have hsub := waiting (LinkedTo.split hl).2.2 hz
  rw [hu.new, List.nil_append] at hsub
  exact hp.batch ▸ hsub

theorem mem_queued (hu : Recorded start u) (hp : Takes u.history p batch later past x)
    (hr : r ∈ batch) : r ∈ queued u := by
  have hpast := List.mem_reverse.mp ((hu.batch_sublist hp).subset hr)
  rw [queued, hp.history, List.flatMap_append]
  refine List.mem_append_right _ ?_
  simp only [List.flatMap_cons, List.mem_append]
  exact .inr (.inr hpast)

theorem batch_once (hu : Recorded start u) (hp : Takes u.history p batch later past x) :
    (batch.map fun r => r.callback.request).Nodup := by
  have honce := hu.once
  rw [answered, queued, hp.history, List.flatMap_append, List.map_append] at honce
  have hrest := (List.nodup_append.mp honce).2.1
  simp only [List.flatMap_cons, List.map_append] at hrest
  have hpast := (List.nodup_append.mp (List.nodup_append.mp hrest).2.1).2.1
  refine List.Nodup.sublist ((hu.batch_sublist hp).map _) ?_
  rwa [List.map_reverse, List.nodup_reverse]

/-- What is taken from the queue never waits in it again. -/
theorem taken_gone (hu : Recorded start u) (hp : Takes u.history p batch later past x)
    (hr : r ∈ batch) (hsplit : later = l ++ h)
    (hl : Traced.LinkedTo (x.withQueue []) h y) (hr' : r' ∈ y.transport.queue) :
    r'.callback.request ≠ r.callback.request := by
  have hz : ∀ z ∈ h, Orderly z :=
    fun z hz => hu.orderly z (by rw [hp.history, hsplit]; simp [hz])
  have hqueued : r' ∈ h.flatMap queuedAt := by
    have hwaits := (waiting hl hz).subset hr'
    rcases List.mem_append.mp hwaits with hnone | hnew
    · cases hnone
    · exact List.mem_reverse.mp hnew
  have hpast := List.mem_reverse.mp ((hu.batch_sublist hp).subset hr)
  refine hu.apart hp.history ?_ ?_
  · rw [hsplit, List.flatMap_append]
    exact List.mem_append_right _ hqueued
  · simp only [List.flatMap_cons, List.mem_append]
    exact .inr (.inr hpast)

theorem taken_gone_now (hu : Recorded start u) (hp : Takes u.history p batch later past x)
    (hr : r ∈ batch) (hr' : r' ∈ u.now.transport.queue) :
    r'.callback.request ≠ r.callback.request := by
  have hl : Traced.LinkedTo start (later ++ .changed x (x.withQueue []) ::
      .noted (.polled p) x :: past) u.now := hp.history ▸ hu.linked
  exact hu.taken_gone hp hr (List.nil_append later).symm (LinkedTo.split hl).1 hr'

/-- Nor is it in the batch of a later poll. -/
theorem taken_once_of_later (hu : Recorded start u)
    (hp : Takes u.history p batch later past x) (hp' : Takes u.history p' batch' later' past' y)
    (hlater : .noted (.polled p') y ∈ later) (hr : r ∈ batch) (hr' : r' ∈ batch') :
    r'.callback.request ≠ r.callback.request := by
  obtain ⟨l, h, hsplit⟩ := List.append_of_mem hlater
  have hl : Traced.LinkedTo start ((l ++ .noted (.polled p') y :: h) ++
      .changed x (x.withQueue []) :: .noted (.polled p) x :: past) u.now :=
    hsplit ▸ hp.history ▸ hu.linked
  have hbetween := (LinkedTo.split (LinkedTo.split hl).1).2
  refine hu.taken_gone hp hr (l := l ++ [.noted (.polled p') y]) (h := h) ?_ hbetween
    (hp'.batch ▸ hr')
  simp [hsplit]

/-- Of two polls, one begins after the other has taken its batch. -/
theorem mem_later_or (hp : Takes u.history p batch later past x)
    (hp' : Takes u.history p' batch' later' past' y) (hne : p ≠ p') :
    .noted (.polled p') y ∈ later ∨ .noted (.polled p) x ∈ later' := by
  rcases List.suffix_or_suffix_of_suffix hp.suffix hp'.suffix with hsuffix | hsuffix
  · rcases List.suffix_cons_iff.mp hsuffix with he | hsuffix
    · cases he
      exact absurd rfl hne
    · left
      have hmem := mem_of_suffix (A := later ++ [.changed x (x.withQueue [])])
        (C := later' ++ [.changed y (y.withQueue [])]) (n := .noted (.polled p') y)
        (by simpa [hp.history] using hp'.history) hsuffix
      simpa using hmem
  · rcases List.suffix_cons_iff.mp hsuffix with he | hsuffix
    · cases he
      exact absurd rfl hne
    · right
      have hmem := mem_of_suffix (A := later' ++ [.changed y (y.withQueue [])])
        (C := later ++ [.changed x (x.withQueue [])]) (n := .noted (.polled p) x)
        (by simpa [hp'.history] using hp.history) hsuffix
      simpa using hmem

theorem taken_once (hu : Recorded start u) (hp : Takes u.history p batch later past x)
    (hp' : Takes u.history p' batch' later' past' y) (hne : p ≠ p') (hr : r ∈ batch)
    (hr' : r' ∈ batch') : r'.callback.request ≠ r.callback.request := by
  rcases mem_later_or hp hp' hne with hlater | hlater
  · exact hu.taken_once_of_later hp hp' hlater hr hr'
  · exact (hu.taken_once_of_later hp' hp hlater hr' hr).symm

/-- What a poll found in the queue is its batch. -/
theorem queue_eq_batch {queue : List (Response κ Callback)} {result : Except Fault Nat}
    (hp : Takes u.history p batch later past x) (hc : Conducted p (record p u) queue result) :
    queue = batch := by
  obtain ⟨y, hlast, rfl⟩ := hc.begins
  have hrecord : record p u = later.filter (isAbout p) ++ .noted (.polled p) x ::
      past.filter (isAbout p) := by
    rw [record, hp.history, List.filter_append, List.filter_cons_of_neg, List.filter_cons_of_pos]
    · simp [isAbout, Moment.event?, Event.poll?]
    · simp [isAbout, Moment.event?]
  rw [hrecord, List.getLast?_append_cons] at hlast
  rcases List.mem_cons.mp (List.mem_of_getLast? hlast) with he | hmem
  · cases he
    exact hp.batch
  · exact absurd (List.mem_filter.mp hmem).1 (hp.first y)

/-- What was handed over was handed over by a poll of the run. -/
theorem handed_by (hu : Recorded start u) {c : Callback} {content : Json}
    (hh : .handed p c content ∈ u.events) :
    p < polls u ∧ (c, content) ∈ handings (record p u) := by
  obtain ⟨z, hz, hevent⟩ := List.mem_filterMap.mp hh
  have hmem : z ∈ record p u := List.mem_filter.mpr ⟨hz, by simp [isAbout, hevent, Event.poll?]⟩
  refine ⟨?_, List.mem_reverse.mpr
    (List.mem_filterMap.mpr ⟨z, hmem, by simp [hevent, Event.handed?]⟩)⟩
  by_contra hnot
  rw [hu.numbered p (Nat.not_lt.mp hnot)] at hmem
  cases hmem

theorem handed_from (hu : Recorded start u) {c : Callback} {content : Json}
    (hh : .handed p c content ∈ u.events) : ∃ batch later past x,
      Takes u.history p batch later past x ∧ (c, content) ∈ batch.map key := by
  obtain ⟨hp, hhanded⟩ := hu.handed_by hh
  obtain ⟨queue, result, hc⟩ := hu.conducted p hp
  obtain ⟨batch, later, past, x, htakes⟩ := hu.takes p hp
  obtain rfl := Recorded.queue_eq_batch htakes hc
  exact ⟨queue, later, past, x, htakes, hc.inOrder.subset hhanded⟩

theorem mem_handed {c : Callback} {content : Json} (hc : (c, content) ∈ handed u) :
    ∃ p, .handed p c content ∈ u.events := by
  obtain ⟨e, he, hhanded⟩ := List.mem_filterMap.mp hc
  cases e with
  | handed p callback content' =>
    obtain ⟨rfl, rfl⟩ := Prod.mk.inj (Option.some.inj hhanded)
    exact ⟨p, he⟩
  | _ => simp [Event.handed?] at hhanded

end Recorded

/-- How a poll ended, with some answers of its batch handed over and the others lost. -/
structure Parted (u : Diary κ) (p : Nat) (result : Except Fault Nat)
    (done lost : List (Response κ Callback)) : Prop where
  conducted : Conducted p (record p u) (done ++ lost) result
  handed : handings (record p u) = done.map key
  /-- Nothing is lost unless a callback fails, -/
  none_lost : ∀ n, result = .ok n → lost = []
  /-- and what is lost is handed over by no poll at all, -/
  never_handed : ∀ r ∈ lost, ∀ c ∈ Conversation.handed u, c.1.request ≠ r.callback.request
  /-- nor does it wait to be. -/
  never_waits : ∀ r ∈ lost, ∀ r' ∈ u.now.transport.queue,
    r'.callback.request ≠ r.callback.request

theorem Recorded.parted (hu : Recorded start u) (hp : p < polls u) :
    ∃ result done lost, Parted u p result done lost := by
  obtain ⟨queue, result, hc⟩ := hu.conducted p hp
  obtain ⟨batch, later, past, x, htakes⟩ := hu.takes p hp
  obtain rfl := Recorded.queue_eq_batch htakes hc
  obtain ⟨rest, hrest⟩ := hc.inOrder
  obtain ⟨done, lost, rfl, hdone, hlost⟩ := List.map_eq_append_iff.mp hrest.symm
  refine ⟨result, done, lost, hc, hdone.symm, fun n hn => ?_, fun r hr c hc' => ?_,
    fun r hr r' hr' => hu.taken_gone_now htakes (List.mem_append_right _ hr) hr'⟩
  · have hall := (hc.complete n hn).1
    rw [← hdone, List.map_append] at hall
    exact List.map_eq_nil_iff.mp (List.append_right_eq_self.mp hall.symm)
  · obtain ⟨c, content⟩ := c
    obtain ⟨p', hhanded⟩ := Recorded.mem_handed hc'
    by_cases hne : p = p'
    · subst hne
      have hmine := (hu.handed_by hhanded).2
      rw [← hdone] at hmine
      obtain ⟨r', hr', hkey⟩ := List.mem_map.mp hmine
      obtain rfl : r'.callback = c := congrArg Prod.fst hkey
      have honce := hu.batch_once htakes
      rw [List.map_append] at honce
      exact (List.nodup_append.mp honce).2.2 _ (List.mem_map_of_mem hr') _ (List.mem_map_of_mem hr)
    · obtain ⟨batch', later', past', y, htakes', hmem⟩ := hu.handed_from hhanded
      obtain ⟨r', hr', hkey⟩ := List.mem_map.mp hmem
      obtain rfl : r'.callback = c := congrArg Prod.fst hkey
      exact hu.taken_once htakes htakes' hne (List.mem_append_right _ hr) hr'

variable [DecidableEq κ]

theorem recorded_run (W : World κ) (url : String) (headers : Json) (timeout : Float)
    (executor : Executor) (log : LogBook) (depth : Nat) (p : Program κ) :
    Recorded ⟨.make url headers timeout executor, log⟩
      (run W ⟨.make url headers timeout executor, log⟩ depth p) := by
  have hfaithful := run_faithful W url headers timeout executor log depth p
  have hruns : Runs (.start ⟨.make url headers timeout executor, log⟩)
      (run W ⟨.make url headers timeout executor, log⟩ depth p) := perform_runs W depth p _
  have hproceeds : Proceeds (.start ⟨.make url headers timeout executor, log⟩)
      (run W ⟨.make url headers timeout executor, log⟩ depth p) :=
    proceeds_course.perform W depth p _
  exact ⟨rfl, hfaithful.linked, hproceeds.orderly (by simp [Traced.start]), hfaithful.answeredOnce,
    hruns.numbered fun _ _ => rfl,
    fun p hp => hproceeds.takes (by simp [Traced.start, Traced.events]) p (Nat.zero_le p) hp,
    hfaithful.polls⟩

/-- Whatever a program does with a new transport, each poll hands over a first part of its batch,
all of it unless a callback fails, and the rest is lost for good. -/
theorem run_loses (W : World κ) (url : String) (headers : Json) (timeout : Float)
    (executor : Executor) (log : LogBook) (depth : Nat) (p : Program κ) (q : Nat)
    (hq : q < polls (run W ⟨.make url headers timeout executor, log⟩ depth p)) :
    ∃ result done lost,
      Parted (run W ⟨.make url headers timeout executor, log⟩ depth p) q result done lost :=
  (recorded_run W url headers timeout executor log depth p).parted hq

def World.touchy : World Nat where
  clock _ := .ok 0
  network _ _ := (.stop false, .ok .pong)
  callbacks name _ := .stop (name == 0)

def Program.twice : Program Nat :=
  .request (.str "ping") .null none (some 0) false fun _ =>
    .request (.str "ping") .null none (some 1) false fun _ =>
      .poll fun _ => .poll fun _ => .stop false

/-- The second answer waits when the first poll begins, but as the first callback fails it is handed
over neither by this poll nor by the next, though nobody is discarded. -/
theorem rest_never_handed :
    answered (run .touchy ⟨.make "" .null 10 .immediate, ⟨9, [], 0⟩⟩ 2 .twice) = [1, 0] ∧
      (handed (run .touchy ⟨.make "" .null 10 .immediate, ⟨9, [], 0⟩⟩ 2 .twice)).map
        (fun h => h.1.request) = [0] ∧
      polls (run .touchy ⟨.make "" .null 10 .immediate, ⟨9, [], 0⟩⟩ 2 .twice) = 2 ∧
      (run .touchy ⟨.make "" .null 10 .immediate, ⟨9, [], 0⟩⟩ 2
        .twice).now.transport.queue.length = 0 := by
  decide +kernel

theorem twice_loses : ∃ result done lost,
    Parted (run .touchy ⟨.make "" .null 10 .immediate, ⟨9, [], 0⟩⟩ 2 .twice) 0 result done lost :=
  run_loses .touchy "" .null 10 .immediate ⟨9, [], 0⟩ 2 .twice 0 (by decide +kernel)

end DebugDesk.Conversation
