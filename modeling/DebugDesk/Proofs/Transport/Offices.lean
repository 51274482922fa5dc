import DebugDesk.Proofs.Task.Announcing
import DebugDesk.Proofs.Transport.Threads

/-!
# Offices

An office is a transport with all that it uses. Threads work in it, and each task that is taken off
the queue, or run at once, is in the hands of one of them. A thread works only on such tasks, so no
two threads work on the same one.
-/
namespace DebugDesk

/-- A transport with its log book, and how often its clock and its network were used. -/
structure Office (κ β : Type) where
  transport : HostTransport κ β
  log : LogBook
  looks : Nat
  posted : Nat

theorem HostTransport.tasks_deposit {κ β : Type} (t : HostTransport κ β) (i : Nat)
    (r : Request κ β) (content : Json) : (t.deposit i r content).tasks = t.tasks := by
  rcases t.deposit_cases i r content with h | ⟨c, -, h⟩ <;> rw [h]
  rfl

namespace Office

open HostLink

section

variable {κ β : Type}

structure World (β : Type) where
  clock : Nat → Float
  network : Nat → Posting → Except Fault Reply
  hear : β → Json → Except Fault Unit

/-- Nothing but the network fails where something is posted. -/
def World.Polite (W : World β) : Prop :=
  ∀ n p fault, W.network n p = .error fault → ∃ text, fault = .connectionFailed text

def new (transport : HostTransport κ β) (log : LogBook) : Office κ β := ⟨transport, log, 0, 0⟩

abbrev link (W : World β) : HostLink (Office κ β) κ β where
  transport := ⟨Office.transport, fun t x => { x with transport := t }⟩
  log := ⟨Office.log, fun l x => { x with log := l }⟩
  now := .change fun x => (W.clock x.looks, { x with looks := x.looks + 1 })
  post p := do
    let x ← get
    set { x with posted := x.posted + 1 }
    .ofExcept (W.network x.posted p)
  deliver callback content := .ofExcept (W.hear callback content)

def tasks (x : Office κ β) : TaskManager κ (Request κ β) := x.transport.tasks

def onTasks (x : Office κ β) (f : TaskManager κ (Request κ β) → TaskManager κ (Request κ β)) :
    Office κ β :=
  { x with transport := { x.transport with tasks := f x.transport.tasks } }

def written (W : World β) (kind : String) (detail message : Json) (x : Office κ β) : Office κ β :=
  { x with
    log := x.log.add (W.clock x.looks) kind detail message
    looks := x.looks + 1 }

def asked (x : Office κ β) : Office κ β := { x with posted := x.posted + 1 }

/-- What is read of the reply to a request that is posted now. -/
def hears (W : World β) (r : Request κ β) (x : Office κ β) : Except Fault (Option Json) :=
  W.network x.posted (x.transport.posting r) >>= reading r

theorem outcome_exchange (W : World β) (r : Request κ β) (x : Office κ β) :
    ((link W).exchange r).outcome x = (hears W r x, x.asked) := by
  rw [exchange_eq, Effect.outcome_bind_ok (Part.outcome_read _ _)]
  change Effect.outcome (do
    let x ← get
    set { x with posted := x.posted + 1 }
    let reply ← Effect.ofExcept (W.network x.posted (x.transport.posting r))
    Effect.ofExcept (reading r reply)) x = _
  rw [Effect.outcome_bind_ok (Effect.outcome_get x),
    Effect.outcome_bind_ok (Effect.outcome_set _ _), hears]
  cases W.network x.posted (x.transport.posting r) <;> rfl

def Gone (i : Nat) (x : Office κ β) : Prop := i < x.tasks.tasks.length ∧ i ∉ x.tasks.queue

/-- What the executor has still to run is known, and to be run once. -/
def Orderly (x : Office κ β) : Prop :=
  x.tasks.queue.Nodup ∧ ∀ i ∈ x.tasks.queue, i < x.tasks.tasks.length

/-- Nothing is logged, and nothing is queued for callbacks. -/
def Idle (x y : Office κ β) : Prop :=
  y.log = x.log ∧ y.transport.queue.Sublist x.transport.queue

/-- What any step keeps to. -/
structure Goes (tag : Duty) (x y : Office κ β) : Prop where
  works : x.tasks.works <+: y.tasks.works
  orderly : Orderly x → Orderly y
  gone : ∀ i, Gone i x → Gone i y
  finished : ∀ i, y.tasks.progressOf i = .finished →
    x.tasks.progressOf i = .finished ∨ tag = .working i
  idle : tag = .managing → Idle x y

variable {W : World β} {x y : Office κ β} {tag : Duty} {i : Nat}

instance : IsPreorder (Office κ β) Idle where
  refl _ := ⟨rfl, .refl _⟩
  trans _ _ _ h h' := ⟨h'.1.trans h.1, h'.2.trans h.2⟩

instance : IsPreorder (Office κ β) (Goes tag) where
  refl x := ⟨List.prefix_refl _, id, fun _ => id, fun _ => .inl, fun _ => refl_of Idle x⟩
  trans x y z h h' := by
    refine ⟨h.works.trans h'.works, h'.orderly ∘ h.orderly, fun i => h'.gone i ∘ h.gone i,
      fun i hi => ?_, fun ht => trans_of Idle (h.idle ht) (h'.idle ht)⟩
    rcases h'.finished i hi with hi | hi
    · exact h.finished i hi
    · exact .inr hi

theorem goes_of_tasks (h : y.tasks = x.tasks) (hidle : tag = .managing → Idle x y) :
    Goes tag x y := by
  refine ⟨?_, ?_, ?_, ?_, hidle⟩ <;> simp only [Orderly, Gone, h]
  · exact List.prefix_refl _
  · exact id
  · exact fun _ => id
  · exact fun _ => .inl

theorem idle_onTasks (x : Office κ β)
    (f : TaskManager κ (Request κ β) → TaskManager κ (Request κ β)) : Idle x (x.onTasks f) :=
  ⟨rfl, .refl _⟩

/-- Nothing is submitted or queued. -/
theorem goes_onTasks {f : TaskManager κ (Request κ β) → TaskManager κ (Request κ β)}
    (hw : (f x.tasks).works = x.tasks.works) (hq : (f x.tasks).queue.Sublist x.tasks.queue)
    (hp : ∀ i, (f x.tasks).progressOf i = .finished →
      x.tasks.progressOf i = .finished ∨ tag = .working i) : Goes tag x (x.onTasks f) := by
  have hcount : (f x.tasks).tasks.length = x.tasks.tasks.length := by
    rw [← TaskManager.length_works, hw, TaskManager.length_works]
  refine ⟨hw ▸ List.prefix_refl _, fun h => ⟨h.1.sublist hq, fun i hi => ?_⟩,
    fun i h => ⟨?_, fun hi => h.2 (hq.subset hi)⟩, hp, fun _ => idle_onTasks x f⟩
  · exact Nat.lt_of_lt_of_eq (h.2 i (hq.subset hi)) hcount.symm
  · exact Nat.lt_of_lt_of_eq h.1 hcount.symm

/-- A new task is not queued already. -/
theorem goes_accept (x : Office κ β) (r : Request κ β) :
    Goes tag x (x.onTasks (·.accept r r.owner)) := by
  have hqueue := x.tasks.queue_accept r r.owner
  have hcount : (x.tasks.accept r r.owner).tasks.length = x.tasks.tasks.length + 1 := by
    simp [TaskManager.accept]
  have hmem : ∀ i ∈ (x.tasks.accept r r.owner).queue,
      i ∈ x.tasks.queue ∨ i = x.tasks.tasks.length := by
    intro i hi
    rcases hqueue with h | h <;> rw [h] at hi
    · exact .inl hi
    · simpa using hi
  refine ⟨?_, fun h => ⟨?_, fun i hi => ?_⟩, fun i h => ⟨?_, fun hi => ?_⟩, fun i hi => ?_,
    fun _ => idle_onTasks x _⟩
  · change _ <+: (x.tasks.accept r r.owner).works
    rw [TaskManager.works_accept]
    exact List.prefix_append _ _
  · change (x.tasks.accept r r.owner).queue.Nodup
    rcases hqueue with hq | hq <;> rw [hq]
    · exact h.1
    · refine List.nodup_append.mpr ⟨h.1, List.nodup_singleton _, fun a ha b hb hab => ?_⟩
      rw [List.mem_singleton.mp hb] at hab
      exact Nat.lt_irrefl _ (h.2 _ (hab ▸ ha))
  · change i < (x.tasks.accept r r.owner).tasks.length
    rw [hcount]
    rcases hmem i hi with hi | rfl
    · exact Nat.lt_succ_of_lt (h.2 i hi)
    · exact Nat.lt_succ_self _
  · exact Nat.lt_of_lt_of_eq (Nat.lt_succ_of_lt h.1) hcount.symm
  · rcases hmem i hi with hi | rfl
    · exact h.2 hi
    · exact Nat.lt_irrefl _ h.1
  · rcases x.tasks.progressOf_accept r r.owner i with hp | ⟨-, hp⟩
    · exact .inl (hp.symm.trans hi)
    · exact absurd (hp.symm.trans hi) (by simp)

theorem finished_setProgress {m : TaskManager κ (Request κ β)} {j : Nat} {p : Progress}
    (h : (m.setProgress i p).progressOf j = .finished) :
    m.progressOf j = .finished ∨ i = j ∧ p = .finished := by
  by_cases hi : i < m.tasks.length
  · rw [m.progressOf_setProgress i j p hi] at h
    split at h
    next hij => exact .inr ⟨hij, h⟩
    next => exact .inl h
  · rw [TaskManager.setProgress, TaskManager.modifyTask,
      List.modify_eq_self (Nat.le_of_not_lt hi)] at h
    exact .inl h

theorem setProgress_goes {p : Progress} (hp : p = .finished → tag = .working i) :
    ((link W).runner.manager.update (·.setProgress i p) : Effect (Office κ β) Unit).Respects
      (Goes tag) := by
  intro x
  refine goes_onTasks (f := (·.setProgress i p)) (TaskManager.works_setProgress _ i p) (.refl _)
    fun j hj => ?_
  rcases finished_setProgress hj with hj | ⟨rfl, hf⟩
  · exact .inl hj
  · exact .inr (hp hf)

theorem update_goes {f : TaskManager κ (Request κ β) → TaskManager κ (Request κ β)}
    (hw : ∀ m, (f m).works = m.works) (hq : ∀ m, (f m).queue.Sublist m.queue)
    (hp : ∀ m i, (f m).progressOf i = m.progressOf i) :
    ((link W).runner.manager.update f : Effect (Office κ β) Unit).Respects (Goes tag) := fun x =>
  goes_onTasks (hw _) (hq _) fun i hi => .inl ((hp x.tasks i).symm.trans hi)

theorem strike_goes (i : Nat) (forget : Bool) :
    ((link W).runner.manager.update (·.strike i forget) : Effect (Office κ β) Unit).Respects
      (Goes tag) :=
  update_goes (fun m => m.works_strike i forget) (fun m => m.queue_strike i forget ▸ .refl _)
    fun m j => m.progressOf_strike i j forget

theorem announce_goes (i : Nat) :
    ((link W).runner.announce i : Effect (Office κ β) Unit).Respects (Goes tag) := by
  refine .bind (.read _) fun m => ?_
  split
  · exact .bind (.forM _ fun _ _ => .quietly (.pure ())) fun _ =>
      update_goes (fun _ => rfl) (fun _ => .refl _) fun _ _ => rfl
  · exact .pure _

theorem withdraw_goes (i : Nat) :
    ((link W).runner.withdraw i : Effect (Office κ β) Unit).Respects (Goes tag) := by
  refine .bind (.read _) fun m => ?_
  split
  · exact .bind (setProgress_goes (by simp)) fun _ => announce_goes i
  · exact .pure _

theorem launch_goes (i : Nat) :
    ((link W).launch i : Effect (Office κ β) _).Respects (Goes tag) := by
  refine .bind (.read _) fun m => ?_
  cases m.task? i with
  | none => exact .pure _
  | some t => exact .bind (setProgress_goes (by simp)) fun _ => .pure _

theorem launchTaken_goes (i : Nat) :
    ((link W).launchTaken i : Effect (Office κ β) _).Respects (Goes tag) := by
  refine .bind (.read _) fun m => ?_
  split
  · exact launch_goes i
  · exact .pure _

theorem write_goes (kind : String) (detail message : Json) (h : tag ≠ .managing) :
    ((link W).write kind detail message : Effect (Office κ β) Unit).Respects (Goes tag) :=
  fun _ => goes_of_tasks rfl fun ht => absurd ht h

theorem every_settleCode (i : Nat) (r : Request κ β) (answer : Except Fault (Option Json)) :
    ((link W).settleCode i r answer).Every Goes := by
  rcases answer with fault | _ | content
  · rw [settleCode]
    split
    · exact .one (write_goes _ _ _ (by simp))
    · exact trivial
  · exact trivial
  · refine .bind (.one (write_goes _ _ _ (by simp))) fun _ => .one fun x => ?_
    refine goes_of_tasks ?_ (by simp)
    exact x.transport.tasks_deposit i r content

theorem every_carryOutCode (i : Nat) (r : Request κ β) :
    ((link W).carryOutCode i r).Every Goes := by
  refine .bind (.one (.read _)) fun t => ?_
  split
  · exact .pure _
  · refine .bind (.attempt (.one fun x => ?_)) fun answer => every_settleCode i r answer
    rw [outcome_exchange]
    exact goes_of_tasks rfl (by simp)

theorem every_workCode (i : Nat) (work : Option (Request κ β)) :
    ((link W).workCode i work).Every Goes := by
  cases work with
  | none => exact .pure _
  | some r =>
    exact .bind (every_carryOutCode i r).quietly fun _ =>
      .bind (.one (setProgress_goes fun _ => rfl)) fun _ => .one (announce_goes i)

theorem every_executeCode (i : Nat) : ((link W : HostLink _ κ β).executeCode i).Every Goes :=
  .bind (.one (launch_goes i)) fun work => every_workCode i work

theorem every_runTakenCode (i : Nat) : ((link W : HostLink _ κ β).runTakenCode i).Every Goes :=
  .bind (.one (launchTaken_goes i)) fun work => every_workCode i work

theorem every_cancelCode (i : Nat) (forget : Bool) :
    ((link W : HostLink _ κ β).cancelCode i forget).Every Goes := by
  refine .bind (.one (.bind (.read _) fun m => ?_)) fun _ => .one (withdraw_goes i)
  split
  · exact .bind (.throw _) fun _ => strike_goes i forget
  · exact strike_goes i forget

theorem every_clearCode : ((link W : HostLink _ κ β).clearCode).Every Goes :=
  .bind (.one (.read _)) fun _ => .bind (.forM _ fun i _ => every_cancelCode i false) fun _ =>
    .one (update_goes (fun _ => rfl) (fun _ => .refl _) fun _ _ => rfl)

theorem every_makeRoomCode : ((link W : HostLink _ κ β).makeRoomCode).Every Goes := by
  refine .bind (.one (.read _)) fun m => ?_
  split
  · exact every_clearCode
  · exact .pure _

theorem every_submitCode (r : Request κ β) : ((link W).submitCode r).Every Goes := by
  refine .bind every_makeRoomCode fun _ => .bind (.one ?_) fun m => .bind ?_ fun _ =>
    .bind (.one (update_goes (fun _ => rfl) (fun _ => .refl _) fun _ _ => rfl)) fun _ => .one ?_
  · exact .bind (.read _) fun m => .bind (fun x => goes_accept x r) fun _ => .pure _
  · rw [runAtOnceCode]
    split
    · exact every_executeCode _
    · exact .pure _
  · refine .bind (.read _) fun m => ?_
    split
    · exact announce_goes _
    · exact .pure _

theorem every_code [DecidableEq κ] (role : Role κ β) : (role.code (link W)).Every Goes := by
  cases role with
  | request r =>
    rw [Role.code, requestCode]
    split
    · exact trivial
    · exact .bind (.one (write_goes _ _ _ (by simp))) fun _ => every_submitCode r
  | runOne i =>
    refine .bind (.one (.bind (.read _) fun m => ?_)) fun taken => ?_
    · split
      · exact .bind (update_goes (fun _ => rfl) (fun _ => List.erase_sublist) fun _ _ => rfl)
          fun _ => .pure _
      · exact .pure _
    · split
      · exact every_runTakenCode i
      · exact .pure _
  | runQueued =>
    refine .bind (.one (.bind (.read _) fun m => .bind ?_ fun _ => .pure _)) fun queued =>
      .forM _ fun i _ => every_runTakenCode i
    exact update_goes (fun _ => rfl) (fun _ => List.nil_sublist _) fun _ _ => rfl
  | poll =>
    refine .bind (.one (.bind (.read _) fun t => .bind (fun x => ?_) fun _ => .pure _)) fun batch =>
      .forM _ fun r _ => .one (.ofExcept _)
    exact goes_of_tasks rfl fun _ => ⟨rfl, List.nil_sublist _⟩
  | discard owner =>
    cases owner with
    | none => exact .pure _
    | some o =>
      refine .bind (.one (.read _)) fun m => .bind (.forM _ fun i _ => every_cancelCode i true)
        fun _ => .one fun x => ?_
      exact goes_of_tasks rfl fun _ => ⟨rfl, List.filter_sublist⟩
  | shutdown =>
    refine .bind every_clearCode fun _ => .one fun x => ?_
    exact goes_of_tasks rfl fun _ => ⟨rfl, List.nil_sublist _⟩

end

open Code

section

variable {σ κ β α γ : Type} {L : HostLink σ κ β} {p : Duty → Prop} {i : Nat}

def Bears (p : Duty → Prop) (c : Code Duty σ α) : Prop := c.Every fun tag _ _ => p tag

theorem bears_one {tag : Duty} (e : Effect σ α) (h : p tag) : Bears p (one tag e) :=
  .one fun _ => h

theorem Bears.imp {q : Duty → Prop} {c : Code Duty σ α} (hc : Bears p c)
    (h : ∀ tag, p tag → q tag) : Bears q c := hc.mono fun tag _ _ => h tag

theorem Bears.leads {c d : Code Duty σ α} {ms : List (Move Duty σ)} (hc : Bears p c)
    (h : c.Leads ms d) : ∀ m ∈ ms, p m.tag := (Every.leads hc h).2

/-- What is done on duty with one task, or with none. -/
def About (i : Nat) (tag : Duty) : Prop := tag = .working i ∨ tag = .managing

@[simp] theorem about_working {i j : Nat} : About j (.working i) ↔ i = j := by simp [About]

theorem bears_carryOutCode (i : Nat) (r : Request κ β) :
    Bears (· = .working i) (L.carryOutCode i r) := by
  refine .bind (bears_one _ rfl) fun t => ?_
  split
  · exact .pure _
  · refine .bind (.attempt (bears_one _ rfl)) fun answer => ?_
    rcases answer with fault | _ | content
    · rw [settleCode]
      split
      · exact bears_one _ rfl
      · exact trivial
    · exact trivial
    · exact .bind (bears_one _ rfl) fun _ => bears_one _ rfl

theorem bears_workCode (i : Nat) (work : Option (Request κ β)) :
    Bears (About i) (L.workCode i work) := by
  cases work with
  | none => exact .pure _
  | some r =>
    exact .bind (.quietly ((bears_carryOutCode i r).imp fun _ => .inl)) fun _ =>
      .bind (bears_one _ (.inl rfl)) fun _ => bears_one _ (.inr rfl)

theorem bears_executeCode (i : Nat) : Bears (About i) (L.executeCode i) :=
  .bind (bears_one _ (.inl rfl)) fun work => bears_workCode i work

theorem bears_runTakenCode (i : Nat) : Bears (About i) (L.runTakenCode i) :=
  .bind (bears_one _ (.inl rfl)) fun work => bears_workCode i work

theorem bears_cancelCode (i : Nat) (forget : Bool) :
    Bears (· = .managing) (L.cancelCode i forget) :=
  .bind (bears_one _ rfl) fun _ => bears_one _ rfl

theorem bears_clearCode : Bears (· = .managing) L.clearCode :=
  .bind (bears_one _ rfl) fun _ => .bind (.forM _ fun i _ => bears_cancelCode i false) fun _ =>
    bears_one _ rfl

theorem bears_makeRoomCode : Bears (· = .managing) L.makeRoomCode := by
  refine .bind (bears_one _ rfl) fun m => ?_
  split
  · exact bears_clearCode
  · exact .pure _

theorem bears_enrolling (i : Nat) : Bears (· = .managing) (do
    one .managing (L.runner.manager.update (·.track i))
    one .managing (L.settleOver i)) :=
  .bind (bears_one _ rfl) fun _ => bears_one _ rfl

theorem bears_submitCode (r : Request κ β) : Bears (· ≠ .calling) (L.submitCode r) := by
  refine .bind (bears_makeRoomCode.imp (by simp)) fun _ => .bind (bears_one _ (by simp)) fun m =>
    .bind ?_ fun _ => (bears_enrolling _).imp (by simp)
  rw [runAtOnceCode]
  split
  · exact (bears_executeCode _).imp fun tag h => by rcases h with rfl | rfl <;> simp
  · exact .pure _

/-- Requests and workers apart, nobody works on a task. -/
theorem bears_rest [DecidableEq κ] : Bears (· = .managing) (Role.code L .poll) ∧
    (∀ owner, Bears (· = .managing) (Role.code L (.discard owner))) ∧
    Bears (· = .managing) (Role.code L .shutdown) := by
  refine ⟨.bind (bears_one _ rfl) fun _ => .forM _ fun _ _ => bears_one _ rfl, fun owner => ?_,
    .bind bears_clearCode fun _ => bears_one _ rfl⟩
  cases owner with
  | none => exact .pure _
  | some o =>
    exact .bind (bears_one _ rfl) fun _ => .bind (.forM _ fun i _ => bears_cancelCode i true)
      fun _ => bears_one _ rfl

/-- Work that is done after code that does not do it. -/
theorem working_of_bind {c : Code Duty σ α} {f : α → Code Duty σ γ} {b : Code Duty σ γ}
    {ms : List (Move Duty σ)} {m : Move Duty σ} (hc : Bears (· ≠ .working i) c)
    (h : (c >>= f).Leads ms b) (hm : m ∈ ms) (htag : m.tag = .working i) :
    ∃ ms' ns a, ms = ms' ++ ns ∧ c.Leads ms' (result (.ok a)) ∧ (f a).Leads ns b ∧ m ∈ ns := by
  rcases leads_of_bind h with ⟨d, hd, -⟩ | ⟨ms', ns, a, rfl, hc', hf⟩
  · exact absurd htag (hc.leads hd m hm)
  · rcases List.mem_append.mp hm with hm | hm
    · exact absurd htag (hc.leads hc' m hm)
    · exact ⟨ms', ns, a, rfl, hc', hf, hm⟩

theorem working_of_step {tag : Duty} {e : Effect σ α} {f : α → Code Duty σ γ} {b : Code Duty σ γ}
    {ms : List (Move Duty σ)} {m : Move Duty σ} (ht : tag ≠ .working i)
    (h : (one tag e >>= f).Leads ms b) (hm : m ∈ ms) (htag : m.tag = .working i) :
    ∃ x a ns, ms = ⟨tag, x, (e.outcome x).2⟩ :: ns ∧ (e.outcome x).1 = .ok a ∧
      (f a).Leads ns b ∧ m ∈ ns := by
  obtain ⟨ms', ns, a, rfl, hstep, hf, hn⟩ := working_of_bind (bears_one e ht) h hm htag
  obtain ⟨x, rfl, hx⟩ := leads_one_result hstep
  exact ⟨x, a, ns, rfl, hx, hf, hn⟩

end

variable {κ β : Type} {W : World β} {i : Nat} {r : Request κ β}

abbrev Turn (κ β : Type) := Move Duty (Office κ β)

/-- By one of these moves a task gets into the hands of a thread. -/
def Takes (i : Nat) (ms : List (Turn κ β)) : Prop := ∃ m ∈ ms, ¬Gone i m.before ∧ Gone i m.after

theorem outcome_take (i : Nat) (x : Office κ β) : ((link W).take i).outcome x =
    if i ∈ x.tasks.queue then (.ok true, x.onTasks fun m => { m with queue := m.queue.erase i })
    else (.ok false, x) := by
  rw [take, Effect.outcome_bind_ok (Part.outcome_read _ _)]
  change Effect.outcome (if i ∈ x.tasks.queue then _ else _) x = _
  split <;> rfl

theorem gone_of_taken {x : Office κ β} {q : List Nat} (hx : Orderly x) (hi : i ∈ x.tasks.queue)
    (hq : i ∉ q) : ¬Gone i x ∧ Gone i (x.onTasks fun m => { m with queue := q }) :=
  ⟨fun h => h.2 hi, hx.2 i hi, hq⟩

/-- An executor that runs a task at once does not queue it. -/
theorem gone_of_accept {x : Office κ β} (hx : Orderly x) (he : x.tasks.executor = .immediate)
    (r : Request κ β) : ¬Gone x.tasks.tasks.length x ∧
      Gone x.tasks.tasks.length (x.onTasks (·.accept r r.owner)) := by
  refine ⟨fun h => Nat.lt_irrefl _ h.1, ?_, fun hi => ?_⟩
  · change _ < (x.tasks.accept r r.owner).tasks.length
    simp [TaskManager.accept]
  · change _ ∈ (x.tasks.accept r r.owner).queue at hi
    simp only [TaskManager.accept, he] at hi
    exact Nat.lt_irrefl _ (hx.2 _ hi)

section

variable {ms : List (Turn κ β)} {m : Turn κ β} {d : Code Duty (Office κ β) Unit}

theorem runOne_takes {j : Nat} (h : ((link W).runOneCode j).Leads ms d)
    (ho : ∀ m ∈ ms, Orderly m.before) (hm : m ∈ ms) (htag : m.tag = .working i) : Takes i ms := by
  obtain ⟨x, taken, ns, rfl, hout, hrest, hm⟩ := working_of_step (by simp) h hm htag
  rw [outcome_take] at hout ⊢
  have hx : Orderly x := ho _ List.mem_cons_self
  by_cases hj : j ∈ x.tasks.queue
  · simp only [hj, ↓reduceIte] at hout ⊢
    obtain rfl := Except.ok.inj hout
    obtain rfl : i = j := by simpa [htag] using (bears_runTakenCode j).leads hrest m hm
    exact ⟨_, List.mem_cons_self, gone_of_taken hx hj hx.1.not_mem_erase⟩
  · simp only [hj, ↓reduceIte] at hout
    obtain rfl := Except.ok.inj hout
    obtain ⟨rfl, -⟩ := leads_of_result hrest
    cases hm

theorem runQueued_takes (h : ((link W).runQueuedCode).Leads ms d)
    (ho : ∀ m ∈ ms, Orderly m.before) (hm : m ∈ ms) (htag : m.tag = .working i) : Takes i ms := by
  obtain ⟨x, queued, ns, rfl, hout, hrest, hm⟩ := working_of_step (by simp) h hm htag
  obtain rfl : x.tasks.queue = queued := Except.ok.inj hout
  have hall : Bears (fun tag => tag = .working i → i ∈ x.tasks.queue)
      (x.tasks.queue.forM (link (κ := κ) W).runTakenCode) := by
    refine .forM _ fun j hj => (bears_runTakenCode j).imp fun tag habout htag => ?_
    obtain rfl : i = j := by simpa [htag] using habout
    exact hj
  exact ⟨_, List.mem_cons_self, gone_of_taken (ho _ List.mem_cons_self)
    (hall.leads hrest m hm htag) List.not_mem_nil⟩

/-- A task that is run at once is in the hands of the thread that submits it. -/
theorem submit_takes (h : ((link W).submitCode r).Leads ms d)
    (ho : ∀ m ∈ ms, Orderly m.before) (hm : m ∈ ms) (htag : m.tag = .working i) : Takes i ms := by
  have hroom : Bears (· ≠ .working i) (link (κ := κ) (β := β) W).makeRoomCode :=
    bears_makeRoomCode.imp (by simp)
  obtain ⟨ms', ns, -, rfl, -, hrest, hm⟩ := working_of_bind hroom h hm htag
  obtain ⟨x, v, ns, rfl, hout, hrest, hm⟩ := working_of_step (by simp) hrest hm htag
  obtain rfl : x.tasks = v := Except.ok.inj hout
  have henroll := bears_enrolling (L := link (κ := κ) (β := β) W) x.tasks.tasks.length
  rw [runAtOnceCode] at hrest
  by_cases he : x.tasks.executor = .immediate
  · rw [if_pos he] at hrest
    have hboth := Every.bind (bears_executeCode (L := link (κ := κ) (β := β) W)
      x.tasks.tasks.length) fun _ => henroll.imp fun _ => .inr
    obtain rfl : i = x.tasks.tasks.length := by simpa [htag] using Bears.leads hboth hrest m hm
    refine ⟨_, List.mem_append_right _ List.mem_cons_self, ?_⟩
    exact gone_of_accept (ho _ (List.mem_append_right _ List.mem_cons_self)) he r
  · rw [if_neg he] at hrest
    have hmanaging := henroll.leads hrest m hm
    simp [htag] at hmanaging

/-- A thread works only on tasks that it took. -/
theorem code_takes [DecidableEq κ] {role : Role κ β} (h : (role.code (link W)).Leads ms d)
    (ho : ∀ m ∈ ms, Orderly m.before) (hm : m ∈ ms) (htag : m.tag = .working i) : Takes i ms := by
  have hidle {c : Code Duty (Office κ β) Unit} (hc : Bears (· = .managing) c)
      (h : c.Leads ms d) : Takes i ms := by
    have hmanaging := hc.leads h m hm
    simp [htag] at hmanaging
  obtain ⟨hpoll, hdiscard, hshutdown⟩ := bears_rest (L := link (κ := κ) (β := β) W)
  cases role with
  | request r =>
    rw [Role.code, requestCode] at h
    split at h
    · obtain ⟨rfl, -⟩ := leads_of_result h
      cases hm
    · obtain ⟨x, -, ns, rfl, -, hrest, hm⟩ := working_of_step (by simp) h hm htag
      obtain ⟨l, hl, htakes⟩ :=
        submit_takes hrest (fun m hm => ho m (List.mem_cons_of_mem _ hm)) hm htag
      exact ⟨l, List.mem_cons_of_mem _ hl, htakes⟩
  | runOne j => exact runOne_takes h ho hm htag
  | runQueued => exact runQueued_takes h ho hm htag
  | poll => exact hidle hpoll h
  | discard owner => exact hidle (hdiscard owner) h
  | shutdown => exact hidle hshutdown h

end

end Office

end DebugDesk
