import DebugDesk.Proofs.Transport.Batches

/-!
# Late discards

Discarding an owner settles all its requests: none is answered any more, and no answer of theirs
waits. Only a poll that has taken an answer before goes on to hand it over, also if it is one of its
own callbacks that discards the owner.
-/
namespace DebugDesk.Conversation

variable {κ : Type} {W : World κ} {f : Program κ → Effect (Diary κ) Unit} {s t u : Diary κ}
  {r : Response κ Callback} {start x y : Station κ} {z : Entry κ} {h l later past : List (Entry κ)}
  {batch : List (Response κ Callback)} {i j p q : Nat}

theorem LinkedTo.append (hl : Traced.LinkedTo x (later ++ past) y) :
    ∃ m, Traced.LinkedTo m later y ∧ Traced.LinkedTo x past m := by
  induction later generalizing y with
  | nil => exact ⟨y, rfl, hl⟩
  | cons z later ih =>
    obtain ⟨m, hlater, hpast⟩ := ih hl.2
    exact ⟨m, ⟨hl.1, hlater⟩, hpast⟩

theorem LinkedTo.keeps (hl : Traced.LinkedTo x h y) (hz : ∀ z ∈ h, Orderly z) :
    x.transport.tasks.Keeps y.transport.tasks := by
  induction h generalizing y with
  | nil => exact hl ▸ .of_tasks rfl
  | cons z h ih =>
    obtain ⟨rfl, hl⟩ := hl
    exact (ih hl fun z' hz' => hz z' (List.mem_cons_of_mem z hz')).trans
      (hz z List.mem_cons_self).keeps

theorem LinkedTo.owned (hl : Traced.LinkedTo x h y) (hz : ∀ z ∈ h, Orderly z) (hx : Owned x) :
    Owned y := by
  induction h generalizing y with
  | nil => exact hl ▸ hx
  | cons z h ih =>
    obtain ⟨rfl, hl⟩ := hl
    exact (hz z List.mem_cons_self).owned (ih hl fun z' hz' => hz z' (List.mem_cons_of_mem z hz'))

/-- What came after a diary goes on from its present. -/
theorem LinkedTo.rest (ht : t.Linked start)
    (hl : Traced.LinkedTo start (later ++ t.history) y) : Traced.LinkedTo t.now later y := by
  obtain ⟨m, hlater, hm⟩ := LinkedTo.append hl
  have hnow : m = t.now := by
    cases hhistory : t.history with
    | nil =>
      rw [hhistory] at hm
      rw [Traced.Linked, hhistory] at ht
      exact hm.trans ht.symm
    | cons z past =>
      rw [hhistory] at hm
      exact hm.1.symm.trans (ht.after hhistory)
  exact hnow ▸ hlater

/-- A run came by a diary. -/
structure Passes (start : Station κ) (u s : Diary κ) : Prop where
  linked : s.Linked start
  past : s.Extends u

theorem Recorded.keeps (hu : Recorded start u) (hs : Passes start u s) :
    s.now.transport.tasks.Keeps u.now.transport.tasks := by
  obtain ⟨later, hlater⟩ := hs.past
  have hl : Traced.LinkedTo start (later ++ s.history) u.now := hlater ▸ hu.linked
  exact LinkedTo.keeps (LinkedTo.rest hs.linked hl) fun z hz =>
    hu.orderly z (by rw [← hlater]; simp [hz])

/-- What is queued answers the request of a task that is not cancelled then, and stays what it is.
-/
theorem Recorded.asked (hu : Recorded start u) (hf : tally.Frugal u)
    (hsplit : u.history = later ++ z :: past) (hr : r ∈ queuedAt z) :
    z.before.transport.tasks.isCancelled r.callback.request = false ∧
      ∃ w, (works u.now)[r.callback.request]? = some w ∧ w.owner = r.owner := by
  have hz : Orderly z := hu.orderly z (by simp [hsplit])
  rcases hz.queue with hsub | ⟨r', hr'⟩
  · rw [queuedAt, List.drop_eq_nil_of_le hsub.length_le] at hr
    cases hr
  · rw [queuedAt, hr'.queue, List.drop_left] at hr
    obtain rfl := List.mem_singleton.mp hr
    obtain ⟨j, a, ha, hflag, hcallback, howner⟩ := hr'.uncancelled
    have hl : Traced.LinkedTo start (later ++ z :: past) u.now := hsplit ▸ hu.linked
    have hkeeps := hz.keeps.trans (LinkedTo.keeps (LinkedTo.split hl).1
      fun z' hz' => hu.orderly z' (by rw [hsplit]; simp [hz']))
    obtain ⟨b, hb, -, hwork, -⟩ := hkeeps j a ha
    have hworks : (works u.now)[j]? = some a.work := hwork ▸ TaskManager.works_of_task? hb
    obtain rfl : r.callback.request = j := hf.fit j a.work hworks r.callback hcallback
    refine ⟨?_, a.work, hworks, howner⟩
    simp [TaskManager.isCancelled, ha, hflag]

/-- A poll that has begun by the time of a change has taken its batch. -/
theorem Takes.of_suffix {v : Station κ} (hp : Takes h p batch later past x)
    (hl : .changed y v :: l <:+ h) (hle : .noted (.polled p) x :: past <:+ .changed y v :: l) :
    ∃ later, Takes (.changed y v :: l) p batch later past x := by
  obtain ⟨more, hmore⟩ := hl
  obtain ⟨between, hbetween⟩ := hle
  have hall : (more ++ between) ++ .noted (.polled p) x :: past =
      (later ++ [.changed x (x.withQueue [])]) ++ .noted (.polled p) x :: past := by
    simp [hbetween, hmore, hp.history]
  have hlater := List.append_cancel_right hall
  rcases List.eq_nil_or_concat between with rfl | ⟨rest, z, rfl⟩
  · cases hbetween
  · rw [List.concat_eq_append, ← List.append_assoc] at hlater
    obtain ⟨-, hz⟩ := List.append_inj' hlater rfl
    obtain rfl := List.singleton_inj.mp hz
    refine ⟨rest, ?_, hp.batch, hp.first⟩
    rw [← hbetween]
    simp

/-- The flag of a task that was cancelled is set. -/
theorem flagged_cancel (hi : i < s.now.transport.tasks.tasks.length)
    (ht : ((link W f q).runner.cancel i true).outcome s = (.ok (), t)) :
    t.now.transport.tasks.isCancelled i = true := by
  have hstruck : (s.now.transport.tasks.strike i true).isCancelled i = true :=
    TaskManager.isCancelled_strike _ i true hi
  have hwithdraw := ((proceeds_course.mild (W := W) (f := f) (q := q)).withdraw i
    (s.put (s.now.withTasks (s.now.transport.tasks.strike i true)))).keeps
  rw [TaskRunner.cancel, Effect.outcome_bind_ok (Part.outcome_read _ _), get_runner] at ht
  split at ht
  · simp at ht
  · rw [Effect.outcome_bind_ok (outcome_update_runner W f q _ _)] at ht
    rw [ht] at hwithdraw
    exact hwithdraw.isCancelled hstruck

theorem flagged_cancelAll {is : List Nat} (hi : ∀ i ∈ is, i < s.now.transport.tasks.tasks.length)
    (ht : (is.forM fun i => (link W f q).runner.cancel i true).outcome s = (.ok (), t)) :
    ∀ i ∈ is, t.now.transport.tasks.isCancelled i = true := by
  induction is generalizing s with
  | nil => simp
  | cons j is ih =>
    rw [Effect.forM_cons] at ht
    obtain ⟨_, v, hv, hrest⟩ := Effect.of_bind_ok ht
    have hcancel := ((proceeds_course.mild (W := W) (f := f) (q := q)).cancel j true).of_outcome hv
    have hlater := (Effect.Respects.forM (P := Proceeds) is fun i _ =>
      (proceeds_course.mild (W := W) (f := f) (q := q)).cancel i true).of_outcome hrest
    have hknown : ∀ i ∈ is, i < v.now.transport.tasks.tasks.length := by
      intro i his
      have ha := List.getElem?_eq_getElem (hi i (List.mem_cons_of_mem j his))
      obtain ⟨b, hb, -⟩ := hcancel.keeps i _ ha
      exact (List.getElem?_eq_some_iff.mp hb).1
    intro i his
    rcases List.mem_cons.mp his with rfl | his
    · exact hlater.keeps.isCancelled (flagged_cancel (hi i List.mem_cons_self) hv)
    · exact ih hknown hrest i his

variable [DecidableEq κ] {o : κ}

/-- What a discard leaves: the tracked requests of the owner are cancelled, and none of its answers
waits. -/
structure Discarded (o : κ) (s t : Diary κ) : Prop where
  proceeds : Proceeds s t
  runs : Runs s t
  flagged : ∀ i ∈ s.now.transport.tasks.ownedBy (some o),
    t.now.transport.tasks.isCancelled i = true
  dropped : ∀ r ∈ t.now.transport.queue, r.owner ≠ some o
  last : ∃ x past, t.history = .changed x t.now :: past

theorem discarded (ht : ((link W f q).discard (some o)).outcome s = (.ok (), t)) :
    Discarded o s t := by
  have hproceeds := (proceeds_course.discard (W := W) (f := f) (q := q) (some o)).of_outcome ht
  have hruns := (discard_runs (W := W) (f := f) (q := q) (some o)).of_outcome ht
  obtain ⟨n, v, hv, hdrop⟩ := Effect.of_bind_ok ht
  obtain ⟨-, rfl⟩ := Prod.mk.inj hdrop
  rw [TaskRunner.cancelOwned, Effect.outcome_bind_ok (Part.outcome_read _ _), get_runner] at hv
  obtain ⟨_, v', hv', hcount⟩ := Effect.of_bind_ok hv
  obtain ⟨-, rfl⟩ := Prod.mk.inj hcount
  refine ⟨hproceeds, hruns, fun i hi => ?_, fun r hr howner => ?_, v'.now, v'.history, rfl⟩
  · refine flagged_cancelAll (fun j hj => ?_) hv' i hi
    obtain ⟨a, ha, -⟩ := Option.map_eq_some_iff.mp (of_decide_eq_true (List.mem_filter.mp hj).2)
    exact (List.getElem?_eq_some_iff.mp ha).1
  · have hkept := (List.mem_filter.mp hr).2
    simp [howner] at hkept

/-- A request of an owner is still to be answered, or was answered before. -/
def Concerns (s : Diary κ) (o : κ) (i : Nat) : Prop :=
  i ∈ s.now.transport.tasks.ownedBy (some o) ∨
    ∃ r ∈ queued s, r.callback.request = i ∧ r.owner = some o

/-- The answer to a request that a discard concerns belongs to the owner. -/
theorem Recorded.owner_of_concerns (hu : Recorded start u) (hf : tally.Frugal u)
    (hs : Passes start u s) (hown : Owned start) (hi : Concerns s o r.callback.request)
    (hr : r ∈ queued u) : r.owner = some o := by
  rcases hi with howned | ⟨r', hr', hsame, howner⟩
  · obtain ⟨z, hz, hrz⟩ := List.mem_flatMap.mp hr
    obtain ⟨later, past, hsplit⟩ := List.append_of_mem hz
    obtain ⟨-, w, hw, hwowner⟩ := hu.asked hf hsplit hrz
    obtain ⟨a, ha, haowner⟩ :=
      Option.map_eq_some_iff.mp (of_decide_eq_true (List.mem_filter.mp howned).2)
    obtain ⟨b, hb, -, hwork, -⟩ := hu.keeps hs _ a ha
    have hsowned : Owned s.now := LinkedTo.owned hs.linked
      (fun z hz => hu.orderly z (hs.past.subset hz)) hown
    have hbw : b.work = w := Option.some.inj ((TaskManager.works_of_task? hb).symm.trans hw)
    rw [← hwowner, ← hbw, hwork, ← hsowned _ a ha, haowner]
  · obtain ⟨later, hlater⟩ := hs.past
    have hmem : r' ∈ queued u := by
      rw [queued, ← hlater, List.flatMap_append]
      exact List.mem_append_right _ hr'
    exact hu.unique hr hmem hsame.symm ▸ howner

/-- Once an owner was discarded, no answer that the discard concerns comes into the queue. -/
theorem Recorded.never_waits (hu : Recorded start u) (hf : tally.Frugal u) (hs : Passes start u s)
    (hown : Owned start) (hd : Discarded o s t) (hsplit : u.history = later ++ (h ++ t.history))
    (hl : Traced.LinkedTo t.now h y) (hi : Concerns s o r.callback.request)
    (hr : r ∈ y.transport.queue) : r ∉ queued u := by
  intro hqueued
  have hz : ∀ z ∈ h, Orderly z := fun z hz => hu.orderly z (by rw [hsplit]; simp [hz])
  rcases List.mem_append.mp ((waiting hl hz).subset hr) with hold | hnew
  · exact hd.dropped r hold (hu.owner_of_concerns hf hs hown hi hqueued)
  · obtain ⟨z, hzh, hrz⟩ := List.mem_flatMap.mp (List.mem_reverse.mp hnew)
    rcases hi with howned | ⟨r', hr', hsame, -⟩
    · obtain ⟨l, past, rfl⟩ := List.append_of_mem hzh
      have hasked : u.history = (later ++ l) ++ z :: (past ++ t.history) := by simpa using hsplit
      have hflag := (hu.asked hf hasked hrz).1
      have hkeeps := LinkedTo.keeps (LinkedTo.split hl).2 fun z' hz' => hz z' (by simp [hz'])
      rw [hkeeps.isCancelled (hd.flagged _ howned)] at hflag
      cases hflag
    · obtain ⟨more, hmore⟩ := hd.proceeds.past
      have hdiscarded : u.history = (later ++ h) ++ t.history := by simpa using hsplit
      refine hu.apart hdiscarded ?_ ?_ hsame.symm
      · exact List.mem_flatMap.mpr ⟨z, List.mem_append_right _ hzh, hrz⟩
      · rw [← hmore, List.flatMap_append]
        exact List.mem_append_right _ hr'

/-- What a poll hands over although its owner was discarded, it took before. -/
theorem Recorded.taken_before (hu : Recorded start u) (hf : tally.Frugal u)
    (hown : Owned start) (hs : s.Linked start) (hd : Discarded o s t) (ht : t.Extends u)
    {c : Callback} {content : Json} (hh : .handed p c content ∈ u.events)
    (hi : Concerns s o c.request) : ∃ batch later past x,
      Takes t.history p batch later past x ∧ (c, content) ∈ batch.map key := by
  have hpasses : Passes start u s := ⟨hs, trans_of Traced.Extends hd.proceeds.past ht⟩
  obtain ⟨batch, later, past, x, htakes, hmem⟩ := hu.handed_from hh
  obtain ⟨y, l, hlast⟩ := hd.last
  rw [Traced.Extends, hlast] at ht
  rcases List.suffix_or_suffix_of_suffix htakes.suffix ht with hle | hle
  · obtain ⟨later, htaken⟩ := htakes.of_suffix ht hle
    exact ⟨batch, later, past, x, hlast ▸ htaken, hmem⟩
  · exfalso
    rcases List.suffix_cons_iff.mp hle with he | ⟨between, hbetween⟩
    · cases he
    · obtain ⟨r, hr, hkey⟩ := List.mem_map.mp hmem
      obtain rfl : r.callback = c := congrArg Prod.fst hkey
      rw [← hlast] at hbetween
      have hl : Traced.LinkedTo start (later ++ .changed x (x.withQueue []) ::
          .noted (.polled p) x :: past) u.now := htakes.history ▸ hu.linked
      have hpast : Traced.LinkedTo start (between ++ t.history) x :=
        hbetween ▸ (LinkedTo.split hl).2.2
      have hsplit : u.history = (later ++ [.changed x (x.withQueue []), .noted (.polled p) x]) ++
          (between ++ t.history) := by
        rw [hbetween, htakes.history]
        simp
      exact hu.never_waits hf hpasses hown hd hsplit
        (LinkedTo.rest (hd.runs.linked start hs) hpast) hi (htakes.batch ▸ hr)
        (hu.mem_queued htakes hr)

/-- Whatever a program does with a new transport: once an owner was discarded, its requests are
answered only by polls that had taken the answers from the queue before. -/
theorem run_discards (W : World κ) (url : String) (headers : Json) (timeout : Float)
    (executor : Executor) (log : LogBook) (depth : Nat) (p : Program κ)
    (hs : s.Linked ⟨.make url headers timeout executor, log⟩)
    (hd : ((link W f q).discard (some o)).outcome s = (.ok (), t))
    (ht : t.Extends (run W ⟨.make url headers timeout executor, log⟩ depth p))
    {n : Nat} {c : Callback} {content : Json} (hi : Concerns s o c.request)
    (hh : .handed n c content ∈
      (run W ⟨.make url headers timeout executor, log⟩ depth p).events) :
    ∃ batch later past x, Takes t.history n batch later past x ∧ (c, content) ∈ batch.map key := by
  have hfrugal := frugal_start (κ := κ) url headers timeout executor log
  have hown : Owned (⟨.make url headers timeout executor, log⟩ : Station κ) := by
    intro i a ha
    simp [HostTransport.make, TaskManager.make, TaskManager.task?] at ha
  exact (recorded_run W url headers timeout executor log depth p).taken_before
    (perform_prudent W depth p _ hfrugal).1 hown hs (discarded hd) ht hh hi

def World.hasty : World Nat where
  clock _ := .ok 0
  network _ _ := (.stop false, .ok .pong)
  callbacks name _ := if name = 0 then .discard (some 7) fun _ => .stop false else .stop false

def Program.inTurn (next : Program Nat) : Program Nat :=
  .request (.str "ping") .null none (some 0) false fun _ =>
    .request (.str "ping") .null (some 7) (some 1) false fun _ => next

/-- The second answer is handed over after its owner was discarded. -/
theorem handed_though_discarded :
    (handed (run .hasty ⟨.make "" .null 10 .immediate, ⟨9, [], 0⟩⟩ 2
        (.inTurn (.poll fun _ => .stop false)))).map (fun h => (h.1.request, h.1.name)) =
      [(1, 1), (0, 0)] ∧
    (works (run .hasty ⟨.make "" .null 10 .immediate, ⟨9, [], 0⟩⟩ 2
        (.inTurn (.poll fun _ => .stop false))).now).map Request.owner = [none, some 7] := by
  decide +kernel

/-- The moment at which the callback of the first answer is called. -/
def interrupted (asked : Diary Nat) (content : Json) : Diary Nat :=
  ((asked.note (.polled 0)).put (asked.now.withQueue [])).note (.handed 0 ⟨0, 0⟩ content)

theorem discarded_while_polled : ∃ batch later past x,
    Takes ((((link .hasty (perform .hasty 1) 0).discard (some 7)).outcome
        (interrupted (run .hasty ⟨.make "" .null 10 .immediate, ⟨9, [], 0⟩⟩ 2
          (.inTurn (.stop false))) (Reply.pong.content.getD .null))).2).history 0 batch later past
        x ∧
      (⟨1, 1⟩, Reply.pong.content.getD .null) ∈ batch.map key := by
  refine run_discards (s := interrupted (run .hasty ⟨.make "" .null 10 .immediate, ⟨9, [], 0⟩⟩ 2
    (.inTurn (.stop false))) (Reply.pong.content.getD .null)) .hasty "" .null 10 .immediate
    ⟨9, [], 0⟩ 2 (.inTurn (.poll fun _ => .stop false)) (f := perform .hasty 1) (q := 0) (o := 7)
    ?_ ?_ ?_ ?_ ?_
  · exact (((recorded_run .hasty "" .null 10 .immediate ⟨9, [], 0⟩ 2
      (.inTurn (.stop false))).linked.note _).put _).note _
  · rfl
  · exact ⟨(run .hasty ⟨.make "" .null 10 .immediate, ⟨9, [], 0⟩⟩ 2
      (.inTurn (.poll fun _ => .stop false))).history.take 2, rfl⟩
  · exact .inr ⟨⟨some 7, ⟨1, 1⟩, _⟩, List.mem_of_getElem? (i := 0) rfl, rfl, rfl⟩
  · exact List.mem_of_getElem? (i := 1) rfl

end DebugDesk.Conversation
