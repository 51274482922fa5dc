import DebugDesk.Proofs.Transport.Offices

/-!
# Accounting

What is written into the log of an office: one entry for each request that is called, one at most
for each task that is worked on, and nothing else. Which one it is, and whether an answer is queued
with it, is told by the course that the work of the task takes.
-/
namespace DebugDesk.Office

open HostLink Code

variable {κ β : Type} {W : World β} {i : Nat} {r : Request κ β} {ms : List (Turn κ β)}
  {q : Except Fault Unit}

/-- The answer to a request is queued, unless it has no callback or is cancelled by now. -/
structure Deposits (i : Nat) (r : Request κ β) (content : Json) (m : Turn κ β) : Prop where
  log : m.after.log = m.before.log
  tasks : m.after.tasks = m.before.tasks
  queue : m.after.transport.queue = m.before.transport.queue ++
    if m.before.tasks.isCancelled i then []
    else (r.callback.map fun c => ⟨r.owner, c, content⟩).toList

/-- What the work of a task does: it looks at the flag, posts the request and reads the reply,
writes down what came of it, and queues the answer. -/
inductive Work (W : World β) (i : Nat) (r : Request κ β) : List (Turn κ β) → Prop
  | cancelled {m : Turn κ β} (hm : m.after = m.before)
      (hc : m.before.tasks.isCancelled i = true) : Work W i r [m]
  /-- No answer is read. -/
  | silent {m n : Turn κ β} (hm : m.after = m.before) (hc : m.before.tasks.isCancelled i = false)
      (hn : n.after = n.before.asked) (hq : n.before.hears W r = .ok none) : Work W i r [m, n]
  /-- The network failed, the host refused the request, or the answer could not be read. -/
  | failed {m n e : Turn κ β} {fault : Fault} (hm : m.after = m.before)
      (hc : m.before.tasks.isCancelled i = false) (hn : n.after = n.before.asked)
      (hq : n.before.hears W r = .error fault)
      (he : e.after = e.before.written W LogBook.errorKind (.str "error")
        (.str s!"{r.method.display}: {fault.message}")) : Work W i r [m, n, e]
  | received {m n e d : Turn κ β} {content : Json} (hm : m.after = m.before)
      (hc : m.before.tasks.isCancelled i = false) (hn : n.after = n.before.asked)
      (hq : n.before.hears W r = .ok (some content))
      (he : e.after = e.before.written W LogBook.responseKind (HostTransport.statusOf content)
        content)
      (hd : Deposits i r content d) : Work W i r [m, n, e, d]

/-- The whole course of a task that a thread took. -/
inductive Course (W : World β) (i : Nat) (r : Request κ β) : List (Turn κ β) → Prop
  /-- There is nothing to run: the task was withdrawn, or nobody knows it. -/
  | spared {b : Turn κ β} (hb : b.after = b.before)
      (h : b.before.tasks.progressOf i = .withdrawn ∨ b.before.tasks.task? i = none) :
      Course W i r [b]
  | run {b e : Turn κ β} {body : List (Turn κ β)}
      (hr : (b.before.tasks.task? i).map Task.work = some r)
      (hb : b.after = b.before.onTasks (·.setProgress i .running)) (hbody : Work W i r body)
      (he : e.after = e.before.onTasks (·.setProgress i .finished)) :
      Course W i r (b :: body ++ [e])

def worked (i : Nat) (ms : List (Turn κ β)) : List (Turn κ β) :=
  ms.filter (·.tag = .working i)

theorem worked_append (i : Nat) (ms ns : List (Turn κ β)) :
    worked i (ms ++ ns) = worked i ms ++ worked i ns := List.filter_append ..

theorem worked_eq_self (h : ∀ m ∈ ms, m.tag = .working i) : worked i ms = ms :=
  List.filter_eq_self.mpr fun m hm => decide_eq_true (h m hm)

theorem worked_eq_nil (h : ∀ m ∈ ms, m.tag ≠ .working i) : worked i ms = [] :=
  List.filter_eq_nil_iff.mpr fun m hm => by simpa using h m hm

theorem isLogged_of_reading {reply : Reply} {fault : Fault} (h : reading r reply = .error fault) :
    fault.isLogged = true := by
  unfold reading at h
  split at h
  · obtain rfl := Except.error.inj h
    rfl
  · split at h
    · cases h
    · cases hc : reply.content with
      | none =>
        rw [hc] at h
        obtain rfl := Except.error.inj h
        rfl
      | some content =>
        rw [hc] at h
        cases h

/-- Where only the network fails, failures are written down. -/
theorem isLogged_of_hears (hW : W.Polite) {x : Office κ β} {fault : Fault}
    (h : x.hears W r = .error fault) : fault.isLogged = true := by
  rw [hears] at h
  cases hn : W.network x.posted (x.transport.posting r) with
  | error f =>
    obtain ⟨text, rfl⟩ := hW _ _ _ hn
    rw [hn] at h
    obtain rfl := Except.error.inj h
    rfl
  | ok reply =>
    rw [hn] at h
    exact isLogged_of_reading h

theorem deposits_deposit (i : Nat) (r : Request κ β) (content : Json) (tag : Duty)
    (x : Office κ β) : Deposits i r content
      ⟨tag, x, { x with transport := x.transport.deposit i r content }⟩ := by
  refine ⟨rfl, x.transport.tasks_deposit i r content, ?_⟩
  change (x.transport.deposit i r content).queue = x.transport.queue ++
    if x.transport.tasks.isCancelled i then [] else _
  rw [HostTransport.deposit, HostTransport.answer]
  cases x.transport.tasks.isCancelled i
  · cases r.callback with
    | none => simp
    | some c => simp [HostTransport.enqueue]
  · simp

/-- The work of a task goes one of four ways. -/
theorem work_of_carryOut (hW : W.Polite)
    (h : ((link W).carryOutCode i r).Leads ms (result q)) : Work W i r ms := by
  obtain ⟨x, ns, rfl, hread⟩ := leads_of_step h
  change (if x.tasks.isCancelled i then _ else _ : Code Duty (Office κ β) Unit).Leads _ _ at hread
  cases hc : x.tasks.isCancelled i with
  | true =>
    rw [hc] at hread
    obtain ⟨rfl, -⟩ := leads_of_result hread
    exact .cancelled rfl hc
  | false =>
    rw [hc] at hread
    obtain ⟨y, ns, rfl, hsettle⟩ := leads_of_step hread
    simp only [outcome_exchange] at hsettle ⊢
    rcases hq : y.hears W r with fault | _ | content
    · rw [hq] at hsettle
      change (if fault.isLogged then _ else _ : Code Duty (Office κ β) Unit).Leads _ _ at hsettle
      rw [if_pos (isLogged_of_hears hW hq)] at hsettle
      obtain ⟨z, ns, rfl, hend⟩ := leads_of_step hsettle
      obtain ⟨rfl, -⟩ := leads_of_result hend
      exact .failed rfl hc rfl hq rfl
    · rw [hq] at hsettle
      obtain ⟨rfl, -⟩ := leads_of_result hsettle
      exact .silent rfl hc rfl hq
    · rw [hq] at hsettle
      obtain ⟨z, ns, rfl, hdeposit⟩ := leads_of_step hsettle
      obtain ⟨z', ns, rfl, hend⟩ := leads_of_step hdeposit
      obtain ⟨rfl, -⟩ := leads_of_result hend
      exact .received rfl hc rfl hq rfl (deposits_deposit i r content _ z')

/-- Whoever begins a task finds out what it is to do, if it is known and was not withdrawn. -/
def Launches (i : Nat) (e : Effect (Office κ β) (Option (Request κ β))) : Prop :=
  ∀ x, (e.outcome x = (.ok none, x) ∧
      (x.tasks.progressOf i = .withdrawn ∨ x.tasks.task? i = none)) ∨
    ∃ t, x.tasks.task? i = some t ∧
      e.outcome x = (.ok (some t.work), x.onTasks (·.setProgress i .running))

theorem launches_launch (i : Nat) : Launches i ((link (κ := κ) W).launch i) := by
  intro x
  have hread : (link (κ := κ) (β := β) W).runner.manager.get x = x.tasks := rfl
  cases ht : x.tasks.task? i with
  | none =>
    refine .inl ⟨?_, .inr rfl⟩
    rw [launch, Effect.outcome_bind_ok (Part.outcome_read _ _), hread, ht]
    rfl
  | some t =>
    refine .inr ⟨t, rfl, ?_⟩
    rw [launch, Effect.outcome_bind_ok (Part.outcome_read _ _), hread, ht]
    rfl

theorem launches_launchTaken (i : Nat) : Launches i ((link (κ := κ) W).launchTaken i) := by
  intro x
  have hread : (link (κ := κ) (β := β) W).runner.manager.get x = x.tasks := rfl
  have hout : ((link (κ := κ) W).launchTaken i).outcome x =
      (if x.tasks.progressOf i != .withdrawn then (link W).launch i else pure none).outcome x := by
    rw [launchTaken, Effect.outcome_bind_ok (Part.outcome_read _ _), hread]
  rw [hout]
  by_cases hw : x.tasks.progressOf i = .withdrawn
  · exact .inl ⟨by rw [hw]; rfl, .inl hw⟩
  · rw [if_pos (by simpa using hw)]
    exact launches_launch i x

/-- The work of a task is carried out, and then the task is finished. -/
theorem course_of_workCode (hW : W.Polite)
    (h : ((link W).workCode i (some r)).Leads ms (result q)) :
    ∃ body e, worked i ms = body ++ [e] ∧ Work W i r body ∧
      e.after = e.before.onTasks (·.setProgress i .finished) := by
  rcases leads_result_of_bind h with ⟨fault, hbody⟩ | ⟨body, ns, _, rfl, hbody, hrest⟩
  · cases (leads_of_quietly hbody).1
  · obtain ⟨x, ns, rfl, hannounce⟩ := leads_of_step hrest
    obtain ⟨y, ns, rfl, hend⟩ := leads_of_step hannounce
    obtain ⟨rfl, -⟩ := leads_of_result hend
    obtain ⟨-, q', hwork⟩ := leads_of_quietly hbody
    have htags := (bears_carryOutCode i r).leads hwork
    refine ⟨body, ⟨.working i, x, x.onTasks (·.setProgress i .finished)⟩, ?_,
      work_of_carryOut hW hwork, rfl⟩
    rw [worked_append, worked_eq_self htags]
    simp [worked]
    rfl

/-- A task that is begun takes its course. -/
theorem course_of_code (hW : W.Polite) {e : Effect (Office κ β) (Option (Request κ β))}
    (he : Launches i e) (h : (one (.working i) e >>= (link W).workCode i).Leads ms (result q))
    (hr : ∀ m ∈ worked i ms, ∀ t, m.before.tasks.task? i = some t → t.work = r) :
    Course W i r (worked i ms) := by
  obtain ⟨x, ns, rfl, hwork⟩ := leads_of_step h
  have hhead : worked i (⟨.working i, x, (e.outcome x).2⟩ :: ns) =
      ⟨.working i, x, (e.outcome x).2⟩ :: worked i ns := by simp [worked]
  rw [hhead] at hr ⊢
  rcases he x with ⟨hout, hspared⟩ | ⟨t, ht, hout⟩
  · rw [hout] at hwork ⊢
    obtain ⟨rfl, -⟩ := leads_of_result hwork
    exact .spared rfl hspared
  · obtain rfl := hr _ List.mem_cons_self t ht
    rw [hout] at hwork ⊢
    obtain ⟨body, z, hms, hbody, hz⟩ := course_of_workCode hW hwork
    rw [hms]
    exact .run (by simp [ht]) rfl hbody hz

/-- All of these moves find the same to do in a task, if they find anything. -/
def Agrees (i : Nat) (r : Request κ β) (ms : List (Turn κ β)) : Prop :=
  ∀ m ∈ ms, ∀ t, m.before.tasks.task? i = some t → t.work = r

/-- These moves do not work on a task, or do all that is to be done. -/
def Settles (W : World β) (i : Nat) (r : Request κ β) (ms : List (Turn κ β)) : Prop :=
  worked i ms = [] ∨ Course W i r (worked i ms)

theorem Agrees.left {ns : List (Turn κ β)} (h : Agrees i r (ms ++ ns)) : Agrees i r ms :=
  fun m hm => h m (List.mem_append_left ns hm)

theorem Agrees.right {ns : List (Turn κ β)} (h : Agrees i r (ms ++ ns)) : Agrees i r ns :=
  fun m hm => h m (List.mem_append_right ms hm)

theorem settles_of_idle {c d : Code Duty (Office κ β) Unit} (hc : Bears (· ≠ .working i) c)
    (h : c.Leads ms d) : Settles W i r ms := .inl (worked_eq_nil (hc.leads h))

theorem Settles.append_left {ns : List (Turn κ β)} (h : Settles W i r ns)
    (hms : ∀ m ∈ ms, m.tag ≠ .working i) : Settles W i r (ms ++ ns) := by
  rwa [Settles, worked_append, worked_eq_nil hms, List.nil_append]

theorem Settles.cons {m : Turn κ β} (h : Settles W i r ms) (hm : m.tag ≠ .working i) :
    Settles W i r (m :: ms) := h.append_left (List.forall_mem_singleton.mpr hm)

theorem Settles.append_right {ns : List (Turn κ β)} (h : Settles W i r ms)
    (hns : ∀ m ∈ ns, m.tag ≠ .working i) : Settles W i r (ms ++ ns) := by
  rwa [Settles, worked_append, worked_eq_nil hns, List.append_nil]

theorem settles_of_code (hW : W.Polite) {j : Nat}
    {e : Effect (Office κ β) (Option (Request κ β))} (he : Launches j e)
    (h : (one (.working j) e >>= (link W).workCode j).Leads ms (result q))
    (hr : Agrees i r ms) : Settles W i r ms := by
  by_cases hij : i = j
  · subst hij
    exact .inr (course_of_code hW he h fun m hm => hr m (List.mem_of_mem_filter hm))
  · have habout : Bears (About j) (one (.working j) e >>= (link W).workCode j) :=
      .bind (bears_one _ (.inl rfl)) fun work => bears_workCode j work
    exact settles_of_idle (habout.imp fun tag ht hi => hij (by simpa [hi] using ht)) h

/-- Tasks that are taken together are worked on one after the other. -/
theorem settles_of_runAll (hW : W.Polite) {is : List Nat} (hn : is.Nodup)
    (h : (is.forM (link W).runTakenCode).Leads ms (result q)) (hr : Agrees i r ms) :
    Settles W i r ms := by
  induction is generalizing ms with
  | nil =>
    obtain ⟨rfl, -⟩ := leads_of_result h
    exact .inl rfl
  | cons j is ih =>
    obtain ⟨hj, hn⟩ := List.nodup_cons.mp hn
    have hfirst {ms : List (Turn κ β)} {q : Except Fault Unit} (hr : Agrees i r ms)
        (h : ((link W).runTakenCode j).Leads ms (result q)) : Settles W i r ms :=
      settles_of_code hW (launches_launchTaken j) h hr
    rw [forM_cons] at h
    rcases leads_result_of_bind h with ⟨fault, hfail⟩ | ⟨ms', ns, _, rfl, hdone, hrest⟩
    · exact hfirst hr hfail
    · by_cases hij : i = j
      · subst hij
        have hothers : Bears (· ≠ .working i) (is.forM (link (κ := κ) W).runTakenCode) := by
          refine .forM _ fun k hk => (bears_runTakenCode k).imp fun tag habout htag => hj ?_
          obtain rfl : i = k := by simpa [htag] using habout
          exact hk
        exact (hfirst hr.left hdone).append_right (hothers.leads hrest)
      · have hother : Bears (· ≠ .working i) ((link (κ := κ) W).runTakenCode j) :=
          (bears_runTakenCode j).imp fun tag habout htag => hij (by simpa [htag] using habout)
        exact (ih hn hrest hr.right).append_left (hother.leads hdone)

theorem settles_of_submit (hW : W.Polite)
    {r' : Request κ β} (h : ((link W).submitCode r').Leads ms (result q)) (hr : Agrees i r ms) :
    Settles W i r ms := by
  have hroom : Bears (· ≠ .working i) (link (κ := κ) (β := β) W).makeRoomCode :=
    bears_makeRoomCode.imp (by simp)
  rcases leads_result_of_bind h with ⟨fault, hfail⟩ | ⟨ms', ns, _, rfl, hdone, hrest⟩
  · exact settles_of_idle hroom hfail
  refine Settles.append_left ?_ (hroom.leads hdone)
  obtain ⟨x, ns, rfl, hrun⟩ := leads_of_step hrest
  refine Settles.cons ?_ (by simp)
  have hr' : Agrees i r ns := fun m hm => hr.right m (List.mem_cons_of_mem _ hm)
  have henroll : Bears (· ≠ .working i) _ :=
    (bears_enrolling (L := link (κ := κ) (β := β) W) x.tasks.tasks.length).imp (by simp)
  change ((link W).runAtOnceCode x.tasks.executor x.tasks.tasks.length >>= _).Leads _ _ at hrun
  rw [runAtOnceCode] at hrun
  split at hrun
  · rcases leads_result_of_bind hrun with ⟨fault, hfail⟩ | ⟨ms₁, ns₁, _, rfl, hdone, hlast⟩
    · exact settles_of_code hW (launches_launch _) hfail hr'
    · exact (settles_of_code hW (launches_launch _) hdone hr'.left).append_right
        (henroll.leads hlast)
  · exact settles_of_idle henroll hrun

/-- Whatever comes in between, a thread does all that is to be done for a task, or nothing. -/
theorem code_settles [DecidableEq κ] (hW : W.Polite) {role : Role κ β}
    (h : (role.code (link W)).Leads ms (result q)) (ho : ∀ m ∈ ms, Orderly m.before)
    (hr : Agrees i r ms) : Settles W i r ms := by
  obtain ⟨hpoll, hdiscard, hshutdown⟩ := bears_rest (L := link (κ := κ) (β := β) W)
  cases role with
  | request r' =>
    rw [Role.code, requestCode] at h
    split at h
    · obtain ⟨rfl, -⟩ := leads_of_result h
      exact .inl rfl
    · obtain ⟨x, ns, rfl, hrest⟩ := leads_of_step h
      exact .cons (settles_of_submit hW hrest fun m hm => hr m (List.mem_cons_of_mem _ hm))
        (by simp)
  | runOne j =>
    obtain ⟨x, ns, rfl, hrest⟩ := leads_of_step h
    refine .cons ?_ (by simp)
    rw [outcome_take] at hrest
    split at hrest
    · exact settles_of_code hW (launches_launchTaken j) hrest
        fun m hm => hr m (List.mem_cons_of_mem _ hm)
    · obtain ⟨rfl, -⟩ := leads_of_result hrest
      exact .inl rfl
  | runQueued =>
    obtain ⟨x, ns, rfl, hrest⟩ := leads_of_step h
    exact .cons (settles_of_runAll hW (ho _ List.mem_cons_self).1 hrest
      fun m hm => hr m (List.mem_cons_of_mem _ hm)) (by simp)
  | poll => exact settles_of_idle (hpoll.imp (by simp)) h
  | discard owner => exact settles_of_idle ((hdiscard owner).imp (by simp)) h
  | shutdown => exact settles_of_idle (hshutdown.imp (by simp)) h

variable [DecidableEq κ] {x : Office κ β} {s : Pool (Role κ β) Duty (Office κ β)}

/-- A call of a request that is refused does nothing. One that is accepted has not begun, or it
began by writing down the request, and writes nothing else as a call. -/
structure Calls (W : World β) (r : Request κ β) (ms : List (Turn κ β))
    (c : Code Duty (Office κ β) Unit) : Prop where
  refused : r.method.isVoid = true → ms = []
  accepted : r.method.isVoid = false → ms = [] ∧ c = (link W).requestCode r ∨
    ∃ m rest, ms = m :: rest ∧ m.tag = .calling ∧
      m.after = m.before.written W LogBook.requestKind r.method r.data ∧
      ∀ n ∈ rest, n.tag ≠ .calling

def turns (s : Pool (Role κ β) Duty (Office κ β)) : List (Turn κ β) := s.past.map Prod.snd

/-- What the log and the queue of answers owe to the moves of the threads. -/
structure Accounted (W : World β) (x : Office κ β) (s : Pool (Role κ β) Duty (Office κ β)) :
    Prop where
  /-- Nothing changes but by moves. -/
  linked : Links x (turns s) s.now
  requests : ∀ k r c, s.crew[k]? = some (.request r, c) → Calls W r (s.movesOf k) c
  /-- Only requests are written down as such. -/
  callers : ∀ p ∈ s.past, p.2.tag = .calling → ∃ r c, s.crew[p.1]? = some (.request r, c)
  /-- The work on a task, by whomever it is done, is a course, or the beginning of one. -/
  tasks : ∀ i t, s.now.tasks.task? i = some t →
    (worked i (turns s) = [] ∨ ∃ more, Course W i t.work (worked i (turns s) ++ more)) ∧
      (t.progress = .finished → Course W i t.work (worked i (turns s)))
  workers : ∀ m ∈ turns s, ∀ i, m.tag = .working i → i < s.now.tasks.tasks.length
  /-- Anything else writes nothing and queues nothing. -/
  others : ∀ m ∈ turns s, m.tag = .managing → Idle m.before m.after

omit [DecidableEq κ] in
theorem calls_of_leads {c : Code Duty (Office κ β) Unit}
    (h : ((link W).requestCode r).Leads ms c) : Calls W r ms c := by
  refine ⟨fun hv => ?_, fun hv => ?_⟩
  · rw [requestCode, if_pos hv] at h
    exact (leads_of_result h).1
  · rw [requestCode, if_neg (by simp [hv])] at h ⊢
    rcases leads_of_bind h with ⟨d, hd, rfl⟩ | ⟨ms', ns, _, rfl, hcall, hrest⟩
    · rcases leads_of_one hd with ⟨rfl, rfl⟩ | ⟨x, rfl, -⟩
      · exact .inl ⟨rfl, rfl⟩
      · exact .inr ⟨_, [], rfl, rfl, rfl, by simp⟩
    · obtain ⟨x, rfl, -⟩ := leads_one_result hcall
      exact .inr ⟨_, ns, rfl, rfl, rfl, (bears_submitCode r).leads hrest⟩

/-- A thread that is not for a request does not call. -/
theorem bears_of_role {role : Role κ β} (h : ∀ r, role ≠ .request r) :
    Bears (· ≠ .calling) (role.code (link W)) := by
  have habout {j : Nat} {c : Code Duty (Office κ β) Unit} (hc : Bears (About j) c) :
      Bears (· ≠ .calling) c := hc.imp fun tag ht => by rcases ht with rfl | rfl <;> simp
  obtain ⟨hpoll, hdiscard, hshutdown⟩ := bears_rest (L := link (κ := κ) (β := β) W)
  cases role with
  | request r => exact absurd rfl (h r)
  | runOne j =>
    refine .bind (bears_one _ (by simp)) fun taken => ?_
    split
    · exact habout (bears_runTakenCode j)
    · exact .pure _
  | runQueued =>
    exact .bind (bears_one _ (by simp)) fun queued =>
      .forM _ fun j _ => habout (bears_runTakenCode j)
  | poll => exact hpoll.imp (by simp)
  | discard owner => exact (hdiscard owner).imp (by simp)
  | shutdown => exact hshutdown.imp (by simp)

omit [DecidableEq κ] in
theorem Work.tasks_eq (h : Work W i r ms) : ∀ m ∈ ms, m.after.tasks = m.before.tasks := by
  have hsame {m : Turn κ β} {y : Office κ β} (hm : m.after = y) (hy : y.tasks = m.before.tasks) :
      m.after.tasks = m.before.tasks := hm ▸ hy
  cases h with
  | cancelled hm => simpa using hsame hm rfl
  | silent hm _ hn => simpa using ⟨hsame hm rfl, hsame hn rfl⟩
  | failed hm _ hn _ he => simpa using ⟨hsame hm rfl, hsame hn rfl, hsame he rfl⟩
  | received hm _ hn _ he hd =>
    simpa using ⟨hsame hm rfl, hsame hn rfl, hsame he rfl, hd.tasks⟩

omit [DecidableEq κ] in
/-- A task is finished by the last move of its course, and not before. -/
theorem Course.not_finished (h : Course W i r ms) {m : Turn κ β} (hm : m ∈ ms.dropLast)
    (hf : m.after.tasks.progressOf i = .finished) : m.before.tasks.progressOf i = .finished := by
  cases h with
  | spared => simp at hm
  | @run b e body hr hb hbody he =>
    rw [List.dropLast_concat] at hm
    rcases List.mem_cons.mp hm with rfl | hm
    · rw [hb] at hf
      exact (finished_setProgress hf).resolve_right (by simp)
    · rwa [hbody.tasks_eq m hm] at hf

/-- The tasks that were submitted by one state are those of a later one. -/
def Older (x y : Office κ β) : Prop := x.tasks.works <+: y.tasks.works

instance : IsPreorder (Office κ β) Older where
  refl x := List.prefix_refl x.tasks.works
  trans _ _ _ := List.IsPrefix.trans

/-- What is known of the threads of an office at any time. -/
structure Kept (W : World β) (x : Office κ β) (s : Pool (Role κ β) Duty (Office κ β)) : Prop where
  sound : s.Sound (Role.code (link W)) x
  goes : ∀ p ∈ s.past, Goes p.2.tag p.2.before p.2.after
  orderly : Orderly s.now ∧ ∀ m ∈ turns s, Orderly m.before
  older : ∀ m ∈ turns s, Older m.before s.now ∧ Older m.after s.now

theorem kept_of_reaches (hs : Pool.Reaches (Role.code (link W)) x s) (hx : Orderly x) :
    Kept W x s := by
  have hsound := hs.sound
  have hgoes := hsound.every (F := Goes) every_code
  have hturns : ∀ m ∈ turns s, Goes m.tag m.before m.after := List.forall_mem_map.mpr hgoes
  have horderly := hsound.linked.all hx fun m hm => (hturns m hm).orderly
  exact ⟨hsound, hgoes, ⟨horderly.1, fun m hm => (horderly.2 m hm).1⟩,
    (hsound.linked.later (R := Older) fun m hm => (hturns m hm).works).2⟩

theorem Kept.member (h : Kept W x s) {p : Nat × Turn κ β} (hp : p ∈ s.past) :
    ∃ role c, s.crew[p.1]? = some (role, c) ∧ (role.code (link W)).Leads (s.movesOf p.1) c := by
  obtain ⟨⟨role, c⟩, hk⟩ : ∃ member, s.crew[p.1]? = some member :=
    ⟨_, List.getElem?_eq_getElem (h.sound.known p hp)⟩
  exact ⟨role, c, hk, h.sound.leads p.1 role c hk⟩

omit [DecidableEq κ] in
theorem mem_turns {k : Nat} {m : Turn κ β} (hm : m ∈ s.movesOf k) : m ∈ turns s :=
  List.mem_map.mpr ⟨(k, m), Pool.mem_movesOf.mp hm, rfl⟩

theorem Kept.takes (h : Kept W x s) {p : Nat × Turn κ β} (hp : p ∈ s.past)
    (htag : p.2.tag = .working i) : Takes i (s.movesOf p.1) := by
  obtain ⟨role, c, -, hleads⟩ := h.member hp
  exact code_takes hleads (fun m hm => h.orderly.2 m (mem_turns hm))
    (Pool.mem_movesOf.mpr hp) htag

/-- A task is worked on by one thread only. -/
theorem Kept.worker_unique (h : Kept W x s) {p p' : Nat × Turn κ β} (hp : p ∈ s.past)
    (hp' : p' ∈ s.past) (ht : p.2.tag = .working i) (ht' : p'.2.tag = .working i) : p.1 = p'.1 := by
  obtain ⟨m, hm, hb, ha⟩ := h.takes hp ht
  obtain ⟨m', hm', hb', ha'⟩ := h.takes hp' ht'
  have hgone : ∀ q ∈ s.past, Gone i q.2.before → Gone i q.2.after :=
    fun q hq => (h.goes q hq).gone i
  have hpair : (p.1, m) = (p'.1, m') := Pool.turning_unique h.sound.linked hgone
    (Pool.mem_movesOf.mp hm) (Pool.mem_movesOf.mp hm') hb ha hb' ha'
  exact (Prod.mk.inj hpair).1

omit [DecidableEq κ] in
theorem worked_turns {k : Nat} (h : ∀ p ∈ s.past, p.2.tag = .working i → p.1 = k) :
    worked i (turns s) = worked i (s.movesOf k) := by
  simp only [worked, turns, Pool.movesOf, List.filter_map, List.filter_filter]
  refine congrArg (List.map Prod.snd) (List.filter_congr fun p hp => ?_)
  by_cases ht : p.2.tag = .working i
  · simp [ht, h p hp ht]
  · simp [ht]

/-- What was done for a task is a course, or can be gone on with to become one. -/
theorem Kept.course (h : Kept W x s) (hW : W.Polite) {t : Task κ (Request κ β)}
    (ht : s.now.tasks.task? i = some t) : worked i (turns s) = [] ∨
      ∃ more, Course W i t.work (worked i (turns s) ++ more) := by
  by_cases hnone : ∀ m ∈ turns s, m.tag ≠ .working i
  · exact .inl (worked_eq_nil hnone)
  · simp only [not_forall, Decidable.not_not] at hnone
    obtain ⟨m, hm, htag⟩ := hnone
    obtain ⟨p, hp, rfl⟩ := List.mem_map.mp hm
    have hworked := worked_turns fun p' hp' ht' => h.worker_unique hp' hp ht' htag
    obtain ⟨role, c, -, hleads⟩ := h.member hp
    obtain ⟨more, q, hmore, hnow⟩ := leads_result c s.now
    have hworks := TaskManager.works_of_task? ht
    have hall : ∀ m ∈ s.movesOf p.1 ++ more, Orderly m.before ∧ Older m.before s.now := by
      intro m hm
      rcases List.mem_append.mp hm with hm | hm
      · exact ⟨h.orderly.2 m (mem_turns hm), (h.older m (mem_turns hm)).1⟩
      · rw [hnow m hm]
        exact ⟨h.orderly.1, refl_of Older s.now⟩
    have hagrees : Agrees i t.work (s.movesOf p.1 ++ more) := by
      intro m hm t' ht'
      obtain ⟨rest, hrest⟩ := (hall m hm).2
      have hold := TaskManager.works_of_task? ht'
      have hlt := (List.getElem?_eq_some_iff.mp hold).1
      rw [← hrest, List.getElem?_append_left hlt, hold] at hworks
      exact Option.some.inj hworks
    rcases code_settles hW (hleads.trans hmore) (fun m hm => (hall m hm).1) hagrees with hs | hs <;>
      rw [worked_append, ← hworked] at hs
    · exact .inl (List.append_eq_nil_iff.mp hs).1
    · exact .inr ⟨_, hs⟩

/-- A finished task has its whole course behind it. -/
theorem Kept.finished_course (h : Kept W x s) (hW : W.Polite) (hx : x.tasks.tasks = [])
    {t : Task κ (Request κ β)} (ht : s.now.tasks.task? i = some t) (hf : t.progress = .finished) :
    Course W i t.work (worked i (turns s)) := by
  have hnow : s.now.tasks.progressOf i = .finished := by rw [TaskManager.progressOf, ht]; exact hf
  have hstart : ¬x.tasks.progressOf i = .finished := by
    simp [TaskManager.progressOf, TaskManager.task?, hx]
  obtain ⟨m, hm, hb, ha⟩ := h.sound.linked.turning
    (P := fun y => y.tasks.progressOf i = .finished) hstart hnow
  obtain ⟨p, hp, rfl⟩ := List.mem_map.mp hm
  have hworked : p.2 ∈ worked i (turns s) :=
    List.mem_filter.mpr ⟨hm, by simpa using ((h.goes p hp).finished i ha).resolve_left hb⟩
  rcases h.course hW ht with hnone | ⟨more, hcourse⟩
  · rw [hnone] at hworked
    cases hworked
  · rcases List.eq_nil_or_concat more with rfl | ⟨more, last, rfl⟩
    · rwa [List.append_nil] at hcourse
    · refine absurd (hcourse.not_finished ?_ ha) hb
      rw [List.concat_eq_append, ← List.append_assoc, List.dropLast_concat]
      exact List.mem_append_left more hworked

/-- Whatever threads do with a new transport, and however they are interleaved: every request that
is accepted is written down when it is called, the work on every task takes one of its courses,
which tell what it writes and queues, and nothing else is written or queued. -/
theorem reaches_accounted (hW : W.Polite) {url : String} {headers : Json} {timeout : Float}
    {executor : Executor} {log : LogBook}
    (hx : x = new (.make url headers timeout executor) log)
    (hs : Pool.Reaches (Role.code (link W)) x s) : Accounted W x s := by
  have hnone : x.tasks.tasks = [] := by rw [hx]; rfl
  have hqueue : x.tasks.queue = [] := by rw [hx]; rfl
  have h := kept_of_reaches hs (by simp [Orderly, hqueue])
  refine ⟨h.sound.linked, fun k r c hk => calls_of_leads (h.sound.leads k _ c hk),
    fun p hp htag => ?_, fun i t ht => ⟨h.course hW ht, h.finished_course hW hnone ht⟩,
    fun m hm i htag => ?_, List.forall_mem_map.mpr fun p hp => (h.goes p hp).idle⟩
  · obtain ⟨role, c, hk, hleads⟩ := h.member hp
    by_cases hr : ∃ r, role = .request r
    · obtain ⟨r, rfl⟩ := hr
      exact ⟨r, c, hk⟩
    · exact absurd htag ((bears_of_role fun r he => hr ⟨r, he⟩).leads hleads _
        (Pool.mem_movesOf.mpr hp))
  · obtain ⟨p, hp, rfl⟩ := List.mem_map.mp hm
    obtain ⟨l, hl, -, hgone⟩ := h.takes hp htag
    have hlength := (h.older l (mem_turns hl)).2.length_le
    rw [TaskManager.length_works, TaskManager.length_works] at hlength
    exact Nat.lt_of_lt_of_le hgone.1 hlength

def echo : World Nat := ⟨fun _ => 0, fun _ _ => .ok .pong, fun _ _ => .ok ()⟩

def lobby : Office Nat Nat := new (.make "http://h" (.object []) 10 .deferred) .empty

/-- A request that is called, and then run by a thread of the executor. -/
theorem lobby_accounted : ∃ s, Pool.Reaches (Role.code (link echo)) lobby s ∧
    Accounted echo lobby s ∧ s.now.tasks.progressOf 0 = .finished ∧
    s.now.log.entries.map LogEntry.kind = ["CREQ", "RECV"] ∧ s.now.transport.queue.length = 1 := by
  have hpolite : echo.Polite := fun _ _ _ h => by cases h
  obtain ⟨s, hs, hnow⟩ := Pool.Reaches.call (.refl : Pool.Reaches (Role.code (link echo)) lobby _)
    (.request ⟨.str "ping", .null, some 7, some 0, false⟩)
  obtain ⟨t, ht, hnow'⟩ := hs.call (.runOne 0)
  rw [atOnce_code] at hnow hnow'
  rw [hnow] at hnow'
  refine ⟨t, ht, reaches_accounted hpolite rfl ht, ?_, ?_, ?_⟩ <;> rw [hnow'] <;> rfl

end DebugDesk.Office
