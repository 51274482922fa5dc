import Mathlib.Tactic.Linarith
import Mathlib.Tactic.Ring
import DebugDesk.Proofs.Number.Exact
import DebugDesk.Proofs.Panel.Veils

/-!
# Fading out

With exact times, how far a panel has faded out is told by the time of the last frame alone, however
many frames there were before. It is removed by the first frame that comes two stages after the
closing began.
-/
namespace DebugDesk

/-- How much of a span from nothing to one is behind. -/
def ramp (x : ℚ) : ℚ := max 0 (min x 1)

theorem ramp_mem (x : ℚ) : ramp x ∈ Set.Icc 0 1 :=
  ⟨le_max_left _ _, max_le zero_le_one (min_le_right _ _)⟩

theorem ramp_mono {x y : ℚ} (h : x ≤ y) : ramp x ≤ ramp y :=
  max_le_max le_rfl (min_le_min h le_rfl)

theorem ramp_of_le {x : ℚ} (h : x ≤ 0) : ramp x = 0 :=
  max_eq_left ((min_le_left _ _).trans h)

theorem ramp_of_ge {x : ℚ} (h : 1 ≤ x) : ramp x = 1 := by
  rw [ramp, min_eq_right h, max_eq_right zero_le_one]

theorem ramp_of_lt {x : ℚ} (h : x < 1) : ramp x = max x 0 := by
  rw [ramp, min_eq_left h.le, max_comm]

theorem ramp_of_mem {x : ℚ} (h : x ∈ Set.Icc 0 1) : ramp x = x := by
  rw [ramp, min_eq_left h.2, max_eq_right h.1]

namespace Panel

variable {β : Type}

/-- How far a panel has faded when some stages have passed: the body during the first one, the
header during the second one, in which the panel collapses. -/
def Veil.after (stages : ℚ) : Veil ℚ :=
  ⟨1 - ramp stages, 1 - ramp (stages - 1), ramp (stages - 1)⟩

/-- What is left of a panel, or gone, is a share. What is left of the header has not collapsed yet,
and the header only fades when nothing is left of the body. -/
structure Veil.Proper (v : Veil ℚ) : Prop where
  body : v.body ∈ Set.Icc 0 1
  header : v.header ∈ Set.Icc 0 1
  collapse : v.collapse ∈ Set.Icc 0 1
  whole : v.header + v.collapse = 1
  staged : v.header < 1 → v.body = 0

/-- No more is left of a panel, and no less is gone. -/
structure Veil.Thins (v v' : Veil ℚ) : Prop where
  body : v'.body ≤ v.body
  header : v'.header ≤ v.header
  collapse : v.collapse ≤ v'.collapse

theorem one_sub_mem {x : ℚ} (h : x ∈ Set.Icc 0 1) : 1 - x ∈ Set.Icc 0 1 :=
  ⟨sub_nonneg.mpr h.2, sub_le_self 1 h.1⟩

theorem Veil.proper_after (stages : ℚ) : (after stages).Proper where
  body := one_sub_mem (ramp_mem _)
  header := one_sub_mem (ramp_mem _)
  collapse := ramp_mem _
  whole := sub_add_cancel _ _
  staged h := by
    have hlate : 1 ≤ stages := by
      by_contra hearly
      have hnone : ramp (stages - 1) = 0 := ramp_of_le (by linarith)
      simp [after, hnone] at h
    simp [after, ramp_of_ge hlate]

theorem Veil.after_of_le {stages : ℚ} (h : stages ≤ 0) : after stages = after 0 := by
  simp only [after, ramp_of_le h, ramp_of_le (show stages - 1 ≤ 0 by linarith), ramp_of_le le_rfl,
    ramp_of_le (show (0 : ℚ) - 1 ≤ 0 by norm_num)]

theorem Veil.after_of_ge {stages : ℚ} (h : 2 ≤ stages) : after stages = ⟨0, 0, 1⟩ := by
  simp only [after, ramp_of_ge (show 1 ≤ stages by linarith),
    ramp_of_ge (show 1 ≤ stages - 1 by linarith), sub_self]

/-- Before the first stage nothing has faded yet. -/
theorem Veil.thins_after {stages stages' : ℚ} (h : stages ≤ stages' ∨ stages ≤ 0) :
    (after stages).Thins (after stages') := by
  have hmono {x y : ℚ} (hxy : x ≤ y) : (after x).Thins (after y) :=
    ⟨sub_le_sub_left (ramp_mono hxy) 1, sub_le_sub_left (ramp_mono (sub_le_sub_right hxy 1)) 1,
      ramp_mono (sub_le_sub_right hxy 1)⟩
  rcases h with h | h
  · exact hmono h
  · rw [after_of_le h]
    rcases le_total stages' 0 with hnone | hsome
    · rw [after_of_le hnone]
      exact hmono le_rfl
    · exact hmono hsome

theorem Veil.none_eq : (Veil.none : Veil ℚ) = after 0 := by
  simp only [Veil.none, after, Exact.one, Exact.zero, ramp_of_le le_rfl,
    ramp_of_le (show (0 : ℚ) - 1 ≤ 0 by norm_num), sub_zero]

/-- A frame that comes after the last one, or is the first one, fades a panel as far as if there had
been none before. -/
theorem veil_fade {p : Panel ℚ β} {stages stages' : ℚ} (hp : p.veil = .after stages)
    (h : stages ≤ stages' ∨ stages ≤ 0) : (p.fade stages').2.veil = .after stages' := by
  have hheader : p.headerOpacity = 1 - ramp (stages - 1) := congrArg Veil.header hp
  have hcollapse : p.collapse = ramp (stages - 1) := congrArg Veil.collapse hp
  simp only [fade, Exact.one, Exact.two, Exact.zero, Exact.greater_eq_max]
  split
  next hfirst =>
    have hearly : stages - 1 ≤ 0 := by rcases h with h | h <;> linarith
    simp only [veil, Veil.after, hheader, hcollapse, ramp_of_le hearly, ramp_of_lt hfirst,
      ramp_of_le (show stages' - 1 ≤ 0 by linarith)]
  next hsecond =>
    split
    next hlast =>
      have hmem : stages' - 1 ∈ Set.Icc (0 : ℚ) 1 := ⟨by linarith, by linarith⟩
      simp only [veil, Veil.after, ramp_of_mem hmem,
        ramp_of_ge (show 1 ≤ stages' by linarith), sub_self]
      congr 1
      ring
    next hover => exact (Veil.after_of_ge (not_lt.mp hover)).symm

end Panel

theorem Stacks.mem_restackAll {S : Stacks} {m i : Nat} (hi : i ∈ S m) {rs : List Restacking}
    (hrs : ∀ r ∈ rs, r ≠ .drop m i) : i ∈ S.restackAll rs m := by
  induction rs generalizing S with
  | nil => exact hi
  | cons r rs ih =>
    obtain ⟨hr, hrs⟩ := List.forall_mem_cons.mp hrs
    refine ih ?_ hrs
    cases r with
    | push n j =>
      by_cases hn : n = m
      · subst hn
        simp [restack, hi]
      · simp [restack, Ne.symm hn, hi]
    | raise n j =>
      by_cases hn : n = m
      · subst hn
        by_cases hij : i = j
        · simp [restack, hij]
        · simp [restack, List.mem_erase_of_ne hij, hi]
      · simp [restack, Ne.symm hn, hi]
    | drop n j =>
      by_cases hn : n = m
      · subst hn
        have hij : i ≠ j := fun he => hr (he ▸ rfl)
        simp [restack, List.mem_erase_of_ne hij, hi]
      · simp [restack, Ne.symm hn, hi]

namespace Workspace

variable {α β : Type} {w : Workspace α β} {m i j : Nat}

instance : IsPreorder (Workspace α β) Follows where
  refl w := (Unmoved.refl w).follows
  trans _ _ _ := .trans

theorem closing?_restarted (w : Workspace α β) (i j : Nat) (now : Int) :
    (w.restartClosing j now).closing? i =
      (w.closing? i).map fun c => if c.panel = j then { c with start := now } else c := by
  rw [closing?, restartClosing, List.find?_map, closing?]
  congr 2
  funext c
  rw [Function.comp_apply]
  split <;> rfl

/-- Another panel begins to fade out. -/
theorem closing?_prepared (w : Workspace α β) (m : Nat) (hji : j ≠ i) (now : Int) :
    ((w.prepareClosing m j).restartClosing j now).closing? i = w.closing? i := by
  rw [closing?_restarted, closing?, prepareClosing, List.find?_append,
    List.find?_singleton, if_neg (by simpa using hji), Option.or_none, ← closing?]
  cases hc : w.closing? i with
  | none => rfl
  | some c =>
    have hpanel : c.panel = i := by simpa using List.find?_some hc
    rw [Option.map_some, if_neg (by rw [hpanel]; exact Ne.symm hji)]

theorem closing?_begun (hi : i ∉ w.fadings) (m : Nat) (now : Int) :
    ((w.prepareClosing m i).restartClosing i now).closing? i = some ⟨i, m, now⟩ := by
  have hnone : w.closings.find? (fun c => c.panel = i) = none := by
    rw [List.find?_eq_none]
    intro c hc hpanel
    exact hi (List.mem_map.mpr ⟨c, hc, by simpa using hpanel⟩)
  rw [closing?_restarted, closing?, prepareClosing, List.find?_append, hnone,
    List.find?_singleton, if_pos (by simp), Option.none_or, Option.map_some, if_pos rfl]

end Workspace

namespace PanelScript

def Action.frameTime? {α β : Type} (clock : Int) : Action α β → Option Int
  | .command (.frame time) => some (time.getD clock)
  | _ => none

namespace Stage

open Workspace hiding bind

variable {α β : Type} [Scalar α] {s : Stage α β} {m i : Nat} {p : Panel α β}
  {q : Panel.Status} {c : Command α β}

/-- Whether an action neither removes a panel nor ends its fading, and no other panel fails to fade
on. -/
def Spared (s : Stage α β) (i : Nat) : Action α β → Prop
  | .command (.remove _ j) => j ≠ i
  | .command (.frame time) => Calm i (time.getD s.clock) s s.registry
  | .clear => False
  | _ => True

def Undisturbed (i : Nat) (s : Stage α β) : List (Action α β) → Prop
  | [] => True
  | x :: xs => s.Spared i x ∧ Undisturbed i (s.act x) xs

theorem undisturbed_append (xs ys : List (Action α β)) :
    s.Undisturbed i (xs ++ ys) ↔ s.Undisturbed i xs ∧ (s.acts xs).Undisturbed i ys := by
  induction xs generalizing s with
  | nil => exact (true_and _).symm ▸ Iff.rfl
  | cons x xs ih =>
    rw [List.cons_append, Undisturbed, Undisturbed, ih, and_assoc]
    rfl

def frameTimes (s : Stage α β) : List (Action α β) → List Int
  | [] => []
  | x :: xs => (x.frameTime? s.clock).toList ++ (s.act x).frameTimes xs

theorem frameTimes_append (s : Stage α β) (xs ys : List (Action α β)) :
    s.frameTimes (xs ++ ys) = s.frameTimes xs ++ (s.acts xs).frameTimes ys := by
  induction xs generalizing s with
  | nil => rfl
  | cons x xs ih =>
    rw [List.cons_append, frameTimes, frameTimes, ih, List.append_assoc]
    rfl

theorem restackings_spared (hx : s.Spared i (.command c)) (hc : ∀ time, c ≠ .frame time)
    (hq : s.workspace.status? i = some q) (hclosing : q.closing = true) :
    ∀ r ∈ s.restackings c, r ≠ .drop m i := by
  have hshut : isOpen s.workspace i = false := by
    simp [isOpen, hq, Panel.Status.isOpen, hclosing]
  rintro r hr rfl
  cases c with
  | frame time => exact hc time rfl
  | remove n j =>
    simp only [restackings] at hr
    split at hr
    · exact hx (Restacking.drop.inj (List.mem_singleton.mp hr)).2.symm
    · cases hr
  | close n j animate =>
    simp only [restackings] at hr
    split at hr
    next hdone =>
      obtain ⟨-, rfl⟩ := Restacking.drop.inj (List.mem_singleton.mp hr)
      simp [hshut] at hdone
    next => cases hr
  | closeAll n =>
    obtain ⟨j, hj, hjr⟩ := List.mem_map.mp hr
    obtain ⟨-, rfl⟩ := Restacking.drop.inj hjr
    rw [(List.mem_filter.mp hj).2] at hshut
    cases hshut
  | beginMove j pointer =>
    simp only [restackings, grabbing] at hr
    repeat' split at hr
    all_goals simp at hr
  | beginResize j pointer =>
    simp only [restackings, grabbing] at hr
    repeat' split at hr
    all_goals simp at hr
  | add n j =>
    simp only [restackings] at hr
    split at hr <;> simp at hr
  | focus n j =>
    simp only [restackings] at hr
    split at hr <;> simp at hr
  | _ => cases hr

theorem status_spared (h : s.Orderly) (hx : s.Spared i (.command c))
    (hc : ∀ time, c ≠ .frame time) {closed : Bool}
    (hq : s.workspace.status? i = some ⟨some m, true, closed⟩) :
    (s.act (.command c)).workspace.status? i = some ⟨some m, true, closed⟩ := by
  obtain ⟨S, hS⟩ := h.sound
  obtain ⟨p, hp, hm, hclosing, hclosed⟩ := status?_eq_some hq
  obtain ⟨r, _, hr, _, hcalms, hpasses⟩ := s.through (.command c) hp
  have hstays : i ∈ S.restackAll (s.restackings c) m :=
    Stacks.mem_restackAll ((hS.arranged.mem_iff hp).mpr hm) (restackings_spared hx hc hq rfl)
  have hmanager : r.manager = some m := ((hS.step c).arranged.mem_iff hr).mp hstays
  have hkept : r.closed = p.closed := by
    cases hpasses with
    | stays _ _ closed _ => exact closed
    | leaves _ _ gone => rw [hmanager] at gone; cases gone
    | releases _ _ closed _ => exact closed
  rw [status?, hr, Option.map_some, Panel.status, hmanager, hcalms.closing hclosing, hkept, hclosed]

/-- A panel begins to fade out if it is neither closing nor closed. Else nothing happens. -/
theorem act_fading (s : Stage α β) (m j : Nat) :
    s.act (.command (.close m j true)) = s ∨
      ∃ q v, s.workspace.status? j = some q ∧ q.isOpen = true ∧ Follows s.workspace v ∧
        (∀ i, v.status? i = (s.workspace.status? i).map fun r =>
          if j = i then { r with closing := true } else r) ∧
        s.act (.command (.close m j true)) =
          ⟨(v.prepareClosing m j).restartClosing j s.clock, s.registry ++ [j], s.clock⟩ := by
  have hact : s.act (.command (.close m j true)) = _ := congrArg Prod.snd (step_fading s m j)
  by_cases hm : m < s.workspace.managers.length
  · rw [if_pos hm] at hact
    by_cases hopen : ∃ q, s.workspace.status? j = some q ∧ q.isOpen = true
    · obtain ⟨q, hq, ho⟩ := hopen
      obtain ⟨v, hv, _, hfollows, hstatus⟩ := beginClose_of_isOpen hq ho
      rw [hv] at hact
      exact .inr ⟨q, v, hq, ho, hfollows, hstatus, hact⟩
    · rw [beginClose_of_not_isOpen (by simpa using hopen)] at hact
      exact .inl hact
  · rw [if_neg hm] at hact
    exact .inl hact

/-- What a command leaves of a closing that has begun. -/
structure Lasts (s t : Stage α β) (i : Nat) : Prop where
  closing : t.workspace.closing? i = s.workspace.closing? i
  durations : t.workspace.durations = s.workspace.durations
  registry : i ∉ s.registry → i ∉ t.registry

theorem lasts_command (h : s.Orderly) (hq : s.workspace.status? i = some q)
    (hclosing : q.closing = true) (c : Command α β) : s.Lasts (s.act (.command c)) i := by
  obtain ⟨S, hS⟩ := h.sound
  by_cases hc : ∃ n j, c = .close n j true
  · obtain ⟨n, j, rfl⟩ := hc
    rcases act_fading s n j with hact | ⟨r, v, hr, hopen, hfollows, _, hact⟩
    · rw [hact]
      exact ⟨rfl, rfl, id⟩
    · -- What closes already does not begin to close again.
      have hji : j ≠ i := by
        rintro rfl
        obtain rfl : q = r := Option.some.inj (hq.symm.trans hr)
        simp [Panel.Status.isOpen, hclosing] at hopen
      rw [hact]
      refine ⟨?_, hfollows.durations, fun hi => ?_⟩
      · dsimp only
        rw [closing?_prepared v n hji, closing?, hfollows.closings, closing?]
      · simpa [hi] using Ne.symm hji
  · have hadvances := hS.advances c fun n j he => hc ⟨n, j, he⟩
    refine ⟨?_, hadvances.follows.durations, fun hi hafter => hi (hadvances.registry.subset hafter)⟩
    exact congrArg (List.find? _) hadvances.follows.closings

/-- Only panels that close fade out, and no other panel has a veil. -/
structure Unveiled (s : Stage α β) : Prop where
  orderly : s.Orderly
  marked : ∀ j ∈ s.workspace.fadings, ∃ q, s.workspace.status? j = some q ∧ q.closing = true
  clear : ∀ j p, s.workspace.panel? j = some p → p.closing = false → p.veil = .none

theorem follows_clear (s : Stage α β) : Along Follows s (s.act .clear) := by
  have hfinish (j : Nat) :
      ((animator (α := α) (β := β)).finish j).Respects (Along Follows) := by
    refine along_step fun s b t h => ?_
    obtain ⟨w, hw, h⟩ := Effect.bind_eq_ok h
    cases h
    exact .finishClosing hw
  exact Animator.clear_respects hfinish along_registry s

theorem Unveiled.marked_act (h : s.Unveiled) (x : Action α β) :
    ∀ j ∈ (s.act x).workspace.fadings,
      ∃ q, (s.act x).workspace.status? j = some q ∧ q.closing = true := by
  have hfollows (hf : Follows s.workspace (s.act x).workspace) :
      ∀ j ∈ (s.act x).workspace.fadings,
        ∃ q, (s.act x).workspace.status? j = some q ∧ q.closing = true := by
    intro j hj
    rw [fadings, hf.closings] at hj
    obtain ⟨q, hq, hclosing⟩ := h.marked j hj
    obtain ⟨r, hr, hgrows⟩ := hf.grows j q hq
    exact ⟨r, hr, hgrows.closing hclosing⟩
  obtain ⟨S, hS⟩ := h.orderly.sound
  cases x with
  | clear => exact hfollows (follows_clear s)
  | command c =>
    by_cases hc : ∃ m i, c = .close m i true
    · obtain ⟨m, i, rfl⟩ := hc
      rcases act_fading s m i with hact | ⟨q, v, hq, _, hf, hstatus, hact⟩
      · rw [hact]
        exact h.marked
      · rw [hact]
        intro j hj
        rw [fadings_prepared, fadings, hf.closings] at hj
        have hkept : ((v.prepareClosing m i).restartClosing i s.clock).status? j =
            v.status? j := rfl
        rw [hkept, hstatus]
        rcases List.mem_append.mp hj with hj | hj
        · obtain ⟨r, hr, hclosing⟩ := h.marked j hj
          refine ⟨_, by rw [hr, Option.map_some], ?_⟩
          split
          · rfl
          · exact hclosing
        · obtain rfl := List.mem_singleton.mp hj
          exact ⟨_, by rw [hq, Option.map_some, if_pos rfl], rfl⟩
    · exact hfollows (hS.advances c fun m i he => hc ⟨m, i, he⟩).follows

theorem Unveiled.act (h : s.Unveiled) (x : Action α β) : (s.act x).Unveiled := by
  refine ⟨h.orderly.act x, h.marked_act x, fun j q hq hclosing => ?_⟩
  cases hp : s.workspace.panel? j with
  | none => exact ((absent_act s x hp).2 q hq).veil
  | some p =>
    obtain ⟨r, _, hr, _, hcalms, _⟩ := s.through x hp
    obtain rfl : r = q := Option.some.inj (hr.symm.trans hq)
    have hopen : p.closing = false := by
      cases hpc : p.closing with
      | false => rfl
      | true => rw [hcalms.closing hpc] at hclosing; cases hclosing
    have hveil : s.workspace.veil? j = some .none := veil?_eq_some.mpr ⟨p, hp, h.clear j p hp hopen⟩
    have hkept : (s.act x).workspace.veil? j = some .none := by
      by_cases hframe : ∃ time, x = .command (.frame time)
      · obtain ⟨time, rfl⟩ := hframe
        refine keepsVeil_frame (fun hmem => ?_) time _ hveil
        -- What fades out is marked as closing.
        obtain ⟨S, hS⟩ := h.orderly.sound
        obtain ⟨_, hstatus, hmarked⟩ := hS.closing j hmem
        obtain ⟨p', hp', _, hpc, _⟩ := status?_eq_some hstatus
        obtain rfl : p = p' := Option.some.inj (hp.symm.trans hp')
        rw [hopen, hmarked] at hpc
        cases hpc
      · exact keepsVeil_act s (fun time he => hframe ⟨time, he⟩) _ hveil
    rw [veil?, hr, Option.map_some] at hkept
    exact Option.some.inj hkept

def Reached (s : Stage α β) : Prop :=
  ∃ (settings : List (α × α)) (xs : List (Action α β)), s = (start settings).acts xs

theorem Reached.unveiled (h : s.Reached) : s.Unveiled := by
  obtain ⟨settings, xs, rfl⟩ := h
  induction xs using List.reverseRecOn with
  | nil =>
    refine ⟨orderly_start settings, fun j hj => (List.not_mem_nil hj).elim, fun j p hp => ?_⟩
    simp [acts, start, Workspace.make, panel?] at hp
  | append_singleton xs x ih =>
    rw [acts_concat]
    exact ih.act x

section Exact

variable {β : Type} {s t : Stage ℚ β} {w : Workspace ℚ β} {i : Nat} {c : Closing}
  {d stages : ℚ} {time : Int}

def secondsFrom (start time : Int) : ℚ := ((time - start : Int) : ℚ) / 1000000000

/-- The stages of a closing that have passed at a time, if each takes so many seconds. -/
def stagesAt (c : Closing) (d : ℚ) (time : Int) : ℚ := secondsFrom c.start time / d

theorem stagesAt_mono (hd : 0 < d) {time time' : Int} (h : time ≤ time') :
    stagesAt c d time ≤ stagesAt c d time' := by
  have hcast : ((time - c.start : Int) : ℚ) ≤ ((time' - c.start : Int) : ℚ) := by
    exact_mod_cast Int.sub_le_sub_right h c.start
  unfold stagesAt secondsFrom
  gcongr

theorem stagesAt_lt_two (hd : 0 < d) : stagesAt c d time < 2 ↔ secondsFrom c.start time < 2 * d :=
  div_lt_iff₀ hd

theorem stages_eq (hw : w.durations[c.manager]? = some d) (hd : 0 < d) (time : Int) :
    w.stages c time = .ok (stagesAt c d time) := by
  have hstage : ((w.managers[c.manager]?).map PanelManager.stageDuration).getD 0.0 = d := by
    rw [← List.getElem?_map, ← durations, hw, Option.getD_some]
  have hne : ¬ (d == (0.0 : ℚ)) = true := by
    rw [Scalar.beq_iff, Exact.zero]
    exact fun h => absurd h.1 (not_le.mpr hd)
  have helapsed : elapsedSeconds (α := ℚ) c.start time = .ok (secondsFrom c.start time) := by
    simp [elapsedSeconds, Scalar.quotient, Exact.quotient, secondsFrom]
  rw [Workspace.stages, hstage, helapsed]
  exact if_neg hne

/-- A panel fades out for the manager that has it. -/
structure Underway (w : Workspace ℚ β) (i : Nat) (c : Closing) (d : ℚ) : Prop where
  closing : w.closing? i = some c
  durations : w.durations[c.manager]? = some d
  status : w.status? i = some ⟨some c.manager, true, false⟩

/-- The frame of a panel that fades out. -/
theorem renderOne_fading (h : Underway t.workspace i c d) (hd : 0 < d)
    (hv : t.workspace.veil? i = some (.after stages)) (time : Int)
    (hle : stages ≤ stagesAt c d time ∨ stages ≤ 0) :
    ∃ b u, (animator.renderOne time i).outcome t = (.ok b, u) ∧
      u.workspace.veil? i = some (.after (stagesAt c d time)) ∧
      (b = true ↔ 2 ≤ stagesAt c d time) ∧
      u.workspace.status? i =
        some (if b then ⟨none, true, true⟩ else ⟨some c.manager, true, false⟩) := by
  obtain ⟨p, hp, hveil⟩ := veil?_eq_some.mp hv
  have hframe := closingFrame_eq t.workspace i time h.closing hp
  rw [stages_eq h.durations hd time] at hframe
  dsimp only at hframe
  have hu := unmoved_fade t.workspace hp (stagesAt c d time)
  have hq := (hu.status i).trans h.status
  have hfaded : (t.workspace.modifyPanel i fun _ => (p.fade (stagesAt c d time)).2).veil? i =
      some (.after (stagesAt c d time)) := by
    rw [veil?, panel?_modifyPanel, hp, Option.map_some, if_pos rfl, Option.map_some,
      Panel.veil_fade hveil hle]
  have hends : (p.fade (stagesAt c d time)).1 = true ↔ 2 ≤ stagesAt c d time := by
    rw [fade_ended, Exact.one, Exact.two, not_or, not_lt, not_lt]
    exact ⟨And.right, fun h => ⟨by linarith, h⟩⟩
  rw [renderOne_outcome, hframe]
  cases hb : (p.fade (stagesAt c d time)).1 with
  | false =>
    refine ⟨false, _, rfl, hfaded, ?_, hq⟩
    rw [← hends, hb]
  | true =>
    have hc : (t.workspace.modifyPanel i fun _ => (p.fade (stagesAt c d time)).2).closing? i =
        some c := by
      rw [closing?, hu.closings, ← closing?, h.closing]
    have hfinish := finishClosing_eq
      (t.workspace.modifyPanel i fun _ => (p.fade (stagesAt c d time)).2) i
    rw [hc, hq] at hfinish
    have hremove := remove_of_status (m := c.manager) hq
    rw [if_pos rfl] at hremove
    obtain ⟨w, hw⟩ := hremove
    simp only [Bool.false_eq_true, ↓reduceIte, hw] at hfinish
    simp only [↓reduceIte, hfinish]
    refine ⟨true, _, rfl, (veil?_remove hw i).trans hfaded, ?_, ?_⟩
    · rw [← hends, hb]
    · have hgone := status?_remove hw i
      rw [hq, Option.map_some, if_pos rfl] at hgone
      exact hgone

/-- How far a panel has faded out. It is managed, and fades on, until two stages have passed. -/
structure Fades (s : Stage ℚ β) (i : Nat) (c : Closing) (d stages : ℚ) : Prop where
  orderly : s.Orderly
  veil : s.workspace.veil? i = some (.after stages)
  closing : ∃ q, s.workspace.status? i = some q ∧ q.closing = true
  underway : stages < 2 → i ∈ s.registry ∧ Underway s.workspace i c d
  ended : 2 ≤ stages → i ∉ s.registry

theorem closing_act (s : Stage ℚ β) (x : Action ℚ β)
    (h : ∃ q, s.workspace.status? i = some q ∧ q.closing = true) :
    ∃ q, (s.act x).workspace.status? i = some q ∧ q.closing = true := by
  obtain ⟨q, hq, hclosing⟩ := h
  obtain ⟨p, hp, _, hpc, _⟩ := status?_eq_some hq
  obtain ⟨r, _, hr, _, hcalms, _⟩ := s.through x hp
  exact ⟨r.status, by rw [status?, hr, Option.map_some], hcalms.closing (hpc.trans hclosing)⟩

/-- Nothing but frames fades a panel on. -/
theorem Fades.command (h : s.Fades i c d stages) {command : Command ℚ β}
    (hx : s.Spared i (.command command)) (hframe : ∀ time, command ≠ .frame time) :
    (s.act (.command command)).Fades i c d stages := by
  obtain ⟨q, hq, hclosing⟩ := h.closing
  have hlasts := lasts_command h.orderly hq hclosing command
  refine ⟨h.orderly.act _, ?_, closing_act s _ h.closing, fun hearly => ?_,
    fun hlate => hlasts.registry (h.ended hlate)⟩
  · exact keepsVeil_act s (fun time he => hframe time (Action.command.inj he)) _ h.veil
  · obtain ⟨hmem, hunderway⟩ := h.underway hearly
    exact ⟨mem_registry_step hframe hmem, hlasts.closing.trans hunderway.closing,
      by rw [hlasts.durations, hunderway.durations],
      status_spared h.orderly hx hframe hunderway.status⟩

theorem act_frame (s : Stage ℚ β) (time : Option Int) :
    s.act (.command (.frame time)) = ((animator.renderFrame (time.getD s.clock)).outcome s).2 :=
  congrArg Prod.snd (step_frame s time)

/-- A frame fades a panel on, and removes it when two stages have passed. -/
theorem Fades.frame (h : s.Fades i c d stages) (hd : 0 < d) (time : Option Int)
    (hcalm : Calm i (time.getD s.clock) s s.registry)
    (hle : stages ≤ stagesAt c d (time.getD s.clock) ∨ stages ≤ 0) :
    (s.act (.command (.frame time))).Fades i c d (stagesAt c d (time.getD s.clock)) ∧
      (stages < 2 → 2 ≤ stagesAt c d (time.getD s.clock) →
        (s.act (.command (.frame time))).workspace.status? i = some ⟨none, true, true⟩) := by
  have horderly := h.orderly.act (.command (.frame time))
  have hclosing := closing_act s (.command (.frame time)) h.closing
  rcases lt_or_ge stages 2 with hearly | hlate
  · obtain ⟨hmem, hunderway⟩ := h.underway hearly
    obtain ⟨S, hS⟩ := h.orderly.sound
    have hturn (t : Stage ℚ β) (ht : Beside i s t) : Underway t.workspace i c d ∧
        t.workspace.veil? i = some (.after stages) := by
      have hsteps := ht.withers.follows.toInStep
      exact ⟨⟨by rw [closing?, hsteps.closings, ← closing?, hunderway.closing],
        by rw [hsteps.durations, hunderway.durations], ht.status.trans hunderway.status⟩,
        ht.veil.trans h.veil⟩
    obtain ⟨t, u, v, b, ended, hrendered⟩ :=
      rendered_of_calm hS.registered hmem hcalm fun t ht => by
        obtain ⟨hu, hv⟩ := hturn t ht
        obtain ⟨b, u, hone, _⟩ := renderOne_fading hu hd hv (time.getD s.clock) hle
        exact ⟨b, by rw [hone]⟩
    obtain ⟨hu, hv⟩ := hturn t hrendered.before
    obtain ⟨b', u', hone, hveil, hends, hstatus⟩ :=
      renderOne_fading hu hd hv (time.getD s.clock) hle
    obtain ⟨hb, rfl⟩ := Prod.mk.inj (hrendered.turn.symm.trans hone)
    obtain rfl : b = b' := Except.ok.inj hb
    have hafter := hrendered.after
    have hwithers : Withers s v := trans_of Withers (trans_of Withers hrendered.before.withers
      ((withers_renderOne _ i).of_outcome hrendered.turn)) hafter.withers
    have hact : s.act (.command (.frame time)) =
        { v with registry := s.registry.filter (!ended.contains ·) } := by
      rw [act_frame, Animator.renderFrame, Effect.outcome_bind_ok (outcome_registry s),
        Effect.outcome_bind_ok hrendered.all, Part.outcome_update, ← hwithers.registry]
      rfl
    have hlast := hafter.status.trans hstatus
    rw [hact] at horderly hclosing ⊢
    refine ⟨⟨horderly, hafter.veil.trans hveil, hclosing, fun hearly => ?_, fun hlate => ?_⟩,
      fun _ hlate => ?_⟩
    · have hb : b = false := by
        cases b with
        | false => rfl
        | true => exact absurd (hends.mp rfl) (not_le.mpr hearly)
      have hnot : i ∉ ended := by
        rw [hrendered.ends, hb]
        exact Bool.false_ne_true
      rw [hb] at hlast
      have hsteps := hwithers.follows.toInStep
      refine ⟨List.mem_filter.mpr ⟨hmem, by simpa using hnot⟩, ?_, ?_, hlast⟩
      · rw [closing?, hsteps.closings, ← closing?, hunderway.closing]
      · rw [hsteps.durations, hunderway.durations]
    · have hin := hrendered.ends.mpr (hends.mpr hlate)
      intro hkept
      simpa [hin] using (List.mem_filter.mp hkept).2
    · rw [hends.mpr hlate] at hlast
      exact hlast
  · -- Nothing is left of it, and it is not in the registry any more.
    have hnever : ¬ stages ≤ 0 := by linarith
    have hlater := hlate.trans (hle.resolve_right hnever)
    refine ⟨⟨horderly, ?_, hclosing, fun hearly => absurd hlater (not_le.mpr hearly), ?_⟩,
      fun hearly => absurd hlate (not_le.mpr hearly)⟩
    · have hveil := keepsVeil_frame (h.ended hlate) time _ h.veil
      rwa [Panel.Veil.after_of_ge hlate, ← Panel.Veil.after_of_ge hlater] at hveil
    · intro _
      obtain ⟨q, hq, hqc⟩ := h.closing
      exact (lasts_command h.orderly hq hqc (.frame time)).registry (h.ended hlate)

/-- How far a panel has faded out after actions, if so many stages had passed before. -/
def stagesAfter (c : Closing) (d stages : ℚ) (times : List Int) : ℚ :=
  (times.getLast?.map (stagesAt c d)).getD stages

theorem stagesAfter_progress {times : List Int}
    (h : ∀ time ∈ times, stages ≤ stagesAt c d time ∨ stages ≤ 0) :
    stages ≤ stagesAfter c d stages times ∨ stages ≤ 0 := by
  unfold stagesAfter
  cases hlast : times.getLast? with
  | none => exact .inl le_rfl
  | some time => exact h time (List.mem_of_getLast? hlast)

theorem stagesAfter_lt_two {times : List Int} (hd : 0 < d)
    (h : ∀ time ∈ times, secondsFrom c.start time < 2 * d) : stagesAfter c d 0 times < 2 := by
  unfold stagesAfter
  cases hlast : times.getLast? with
  | none => exact two_pos
  | some time => exact (stagesAt_lt_two hd).mpr (h time (List.mem_of_getLast? hlast))

theorem Fades.acts {xs : List (Action ℚ β)} (h : s.Fades i c d stages) (hd : 0 < d)
    (hxs : s.Undisturbed i xs) (hsorted : (s.frameTimes xs).Pairwise (· ≤ ·))
    (hfirst : ∀ time ∈ s.frameTimes xs, stages ≤ stagesAt c d time ∨ stages ≤ 0) :
    (s.acts xs).Fades i c d (stagesAfter c d stages (s.frameTimes xs)) := by
  induction xs generalizing s stages with
  | nil => exact h
  | cons x xs ih =>
    obtain ⟨hx, hxs⟩ := hxs
    rw [frameTimes] at hsorted hfirst ⊢
    cases hframe : x.frameTime? s.clock with
    | none =>
      rw [hframe] at hsorted hfirst
      have hstep : (s.act x).Fades i c d stages := by
        cases x with
        | clear => exact hx.elim
        | command command => exact h.command hx fun time he => by rw [he] at hframe; cases hframe
      exact ih hstep hxs hsorted hfirst
    | some now =>
      rw [hframe] at hsorted hfirst
      obtain ⟨time, rfl, rfl⟩ : ∃ time, x = .command (.frame time) ∧ time.getD s.clock = now := by
        cases x with
        | clear => cases hframe
        | command command =>
          cases command with
          | frame time => exact ⟨time, rfl, Option.some.inj hframe⟩
          | _ => cases hframe
      obtain ⟨hlater, hrest⟩ := List.pairwise_cons.mp hsorted
      have hstep := (h.frame hd time hx (hfirst _ (List.mem_cons_self ..))).1
      have hall := ih hstep hxs hrest fun t ht => .inl (stagesAt_mono hd (hlater t ht))
      rw [stagesAfter] at hall
      rw [stagesAfter, Option.toList_some, List.singleton_append, List.getLast?_cons]
      cases hlast : ((s.act (.command (.frame time))).frameTimes xs).getLast? with
      | none =>
        rw [hlast] at hall
        exact hall
      | some last =>
        rw [hlast] at hall
        exact hall

/-- A manager begins to fade a panel out that it has. -/
theorem Unveiled.fades (h : s.Unveiled) {m : Nat} {p : Panel ℚ β}
    (hp : s.workspace.panel? i = some p) (hm : p.manager = some m) (hopen : p.closing = false)
    (hclosed : p.closed = false) (hd : s.workspace.durations[m]? = some d) :
    (s.act (.command (.close m i true))).Fades i ⟨i, m, s.clock⟩ d 0 := by
  obtain ⟨S, hS⟩ := h.orderly.sound
  have hq : s.workspace.status? i = some ⟨some m, false, false⟩ := by
    rw [status?, hp, Option.map_some, Panel.status, hm, hopen, hclosed]
  have hveil : s.workspace.veil? i = some (.after 0) :=
    veil?_eq_some.mpr ⟨p, hp, (h.clear i p hp hopen).trans Panel.Veil.none_eq⟩
  have hkept := keepsVeil_act s (x := .command (.close m i true)) (by simp) _ hveil
  have hnot : i ∉ s.workspace.fadings := by
    intro hmem
    obtain ⟨r, hr, hclosing⟩ := h.marked i hmem
    obtain rfl := Option.some.inj (hq.symm.trans hr)
    cases hclosing
  have horderly := h.orderly.act (.command (.close m i true))
  have hact := congrArg Prod.snd (step_fading s m i)
  rw [if_pos (hS.arranged.manager_lt hp hm)] at hact
  obtain ⟨v, hv, _, hfollows, hstatus⟩ := beginClose_of_isOpen hq rfl
  rw [hv] at hact
  have hstage : s.act (.command (.close m i true)) =
    ⟨(v.prepareClosing m i).restartClosing i s.clock, s.registry ++ [i], s.clock⟩ := hact
  have hmarked : v.status? i = some ⟨some m, true, false⟩ := by
    rw [hstatus, hq, Option.map_some, if_pos rfl]
  have hfadings : i ∉ v.fadings := by rwa [fadings, hfollows.closings]
  rw [hstage] at hkept horderly ⊢
  refine ⟨horderly, hkept, ⟨_, hmarked, rfl⟩, fun _ => ⟨by simp, ?_, ?_, hmarked⟩,
    fun h => absurd h (by norm_num)⟩
  · exact closing?_begun hfadings m s.clock
  · exact (congrArg (·[m]?) hfollows.durations).trans hd

/-- A manager closes a panel that it has, and that is not closing yet. -/
structure Closable (s : Stage ℚ β) (m i : Nat) (d : ℚ) : Prop where
  reached : s.Reached
  panel : ∃ p, s.workspace.panel? i = some p ∧ p.manager = some m ∧ p.closing = false ∧
    p.closed = false
  duration : s.workspace.durations[m]? = some d
  positive : 0 < d

def begun (s : Stage ℚ β) (m i : Nat) : Stage ℚ β := s.act (.command (.close m i true))

/-- Fading a panel out, and then frames at times that do not decrease. -/
structure FadesOut (s : Stage ℚ β) (m i : Nat) (d : ℚ) (xs : List (Action ℚ β)) : Prop
    extends s.Closable m i d where
  undisturbed : (s.begun m i).Undisturbed i xs
  sorted : ((s.begun m i).frameTimes xs).Pairwise (· ≤ ·)

variable {m : Nat} {xs ys zs : List (Action ℚ β)}

theorem FadesOut.front (h : s.FadesOut m i d (ys ++ zs)) : s.FadesOut m i d ys where
  toClosable := h.toClosable
  undisturbed := ((undisturbed_append ys zs).mp h.undisturbed).1
  sorted := by
    have hsorted := h.sorted
    rw [frameTimes_append] at hsorted
    exact (List.pairwise_append.mp hsorted).1

theorem FadesOut.fades (h : s.FadesOut m i d xs) :
    ((s.begun m i).acts xs).Fades i ⟨i, m, s.clock⟩ d
      (stagesAfter ⟨i, m, s.clock⟩ d 0 ((s.begun m i).frameTimes xs)) := by
  obtain ⟨p, hp, hm, hopen, hclosed⟩ := h.panel
  have hbegun := h.reached.unveiled.fades hp hm hopen hclosed h.duration
  exact hbegun.acts h.positive h.undisturbed h.sorted fun _ _ => .inr le_rfl

/-- Frames come later than all frames before, or are the first ones. -/
theorem FadesOut.later (h : s.FadesOut m i d (ys ++ zs)) :
    ∀ time ∈ ((s.begun m i).acts ys).frameTimes zs,
      stagesAfter ⟨i, m, s.clock⟩ d 0 ((s.begun m i).frameTimes ys) ≤
          stagesAt ⟨i, m, s.clock⟩ d time ∨
        stagesAfter ⟨i, m, s.clock⟩ d 0 ((s.begun m i).frameTimes ys) ≤ 0 := by
  have hsorted := h.sorted
  rw [frameTimes_append] at hsorted
  obtain ⟨-, -, hcross⟩ := List.pairwise_append.mp hsorted
  intro time htime
  unfold stagesAfter
  cases hlast : ((s.begun m i).frameTimes ys).getLast? with
  | none => exact .inr le_rfl
  | some last =>
    exact .inl (stagesAt_mono h.positive (hcross last (List.mem_of_getLast? hlast) time htime))

/-- What comes after some actions fades a panel on from where they left it. -/
theorem FadesOut.fades_on (h : s.FadesOut m i d (ys ++ zs)) :
    ∃ stages stages', ((s.begun m i).acts ys).Fades i ⟨i, m, s.clock⟩ d stages ∧
      ((s.begun m i).acts (ys ++ zs)).Fades i ⟨i, m, s.clock⟩ d stages' ∧
      (stages ≤ stages' ∨ stages ≤ 0) := by
  have hsorted := h.sorted
  rw [frameTimes_append] at hsorted
  have hundisturbed := ((undisturbed_append ys zs).mp h.undisturbed).2
  refine ⟨_, _, h.front.fades, ?_, stagesAfter_progress h.later⟩
  rw [acts_append]
  exact h.front.fades.acts h.positive hundisturbed (List.pairwise_append.mp hsorted).2.1 h.later

theorem Fades.panel (h : s.Fades i c d stages) :
    ∃ q, s.workspace.panel? i = some q ∧ q.veil = .after stages := veil?_eq_some.mp h.veil

theorem manager_of_status {q : Panel ℚ β} {status : Panel.Status}
    (hq : s.workspace.panel? i = some q) (h : s.workspace.status? i = some status) :
    q.manager = status.manager := by
  rw [status?, hq, Option.map_some] at h
  exact congrArg Panel.Status.manager (Option.some.inj h)

/-- Whatever the times of the frames are, as long as they do not decrease, nothing comes back of a
panel that fades out, and its header fades after its body and collapses meanwhile. The panel is
managed after every frame that comes before two stages have passed, and the first one that comes
later removes it. -/
theorem acts_fade (h : s.FadesOut m i d xs) :
    ∃ q, ((s.begun m i).acts xs).workspace.panel? i = some q ∧ q.veil.Proper ∧
      (∀ ys zs, xs = ys ++ zs →
        ∃ r, ((s.begun m i).acts ys).workspace.panel? i = some r ∧ r.veil.Thins q.veil) ∧
      ∀ ys time, xs = ys ++ [.command (.frame time)] →
        let now := time.getD ((s.begun m i).acts ys).clock
        (secondsFrom s.clock now < 2 * d → q.manager = some m) ∧
          (2 * d ≤ secondsFrom s.clock now →
            (∀ t ∈ (s.begun m i).frameTimes ys, secondsFrom s.clock t < 2 * d) →
            q.manager = none) := by
  obtain ⟨q, hq, hveil⟩ := h.fades.panel
  refine ⟨q, hq, hveil ▸ Panel.Veil.proper_after _, ?_, ?_⟩
  · rintro ys zs rfl
    obtain ⟨stages, stages', hys, hxs, hle⟩ := h.fades_on
    obtain ⟨r, hr, hrv⟩ := hys.panel
    obtain ⟨q', hq', hqv⟩ := hxs.panel
    obtain rfl : q = q' := Option.some.inj (hq.symm.trans hq')
    refine ⟨r, hr, ?_⟩
    rw [hrv, hqv]
    exact Panel.Veil.thins_after hle
  · rintro ys time rfl now
    have hundisturbed := ((undisturbed_append ys _).mp h.undisturbed).2.1
    obtain ⟨hframe, hremoved⟩ := h.front.fades.frame h.positive time hundisturbed
      (h.later now (List.mem_singleton.mpr rfl))
    rw [acts_concat] at hq
    refine ⟨fun hearly => ?_, fun hlate hbefore => ?_⟩
    · obtain ⟨-, hunderway⟩ := hframe.underway ((stagesAt_lt_two h.positive).mpr hearly)
      exact manager_of_status hq hunderway.status
    · have hover : 2 ≤ stagesAt ⟨i, m, s.clock⟩ d now := by
        rw [← not_lt, stagesAt_lt_two h.positive, not_lt]
        exact hlate
      have hunder := stagesAfter_lt_two (c := ⟨i, m, s.clock⟩) h.positive hbefore
      exact manager_of_status hq (hremoved hunder hover)

/-- A panel of a manager that fades panels out in twice half a second. -/
def shown : Stage ℚ Unit :=
  (start [(20, 1 / 2)]).acts
    [.command (.create "plot" 0 0 100 100 true 20 40 40), .command (.add 0 0),
      .command (.setClock 1000000000)]

/-- A frame in the first stage, and one that skips the second. -/
def skipping : List (Action ℚ Unit) :=
  [.command (.frame (some 1250000000)), .command (.frame (some 3000000000))]

theorem skipping_fades :
    shown.FadesOut 0 0 (1 / 2) skipping ∧
      ∃ r q, ((shown.begun 0 0).acts (skipping.take 1)).workspace.panel? 0 = some r ∧
        ((shown.begun 0 0).acts skipping).workspace.panel? 0 = some q ∧
        r.manager = some 0 ∧ q.manager = none ∧ r.veil.Thins q.veil := by
  have hfades : shown.FadesOut 0 0 (1 / 2) skipping := by
    have hfirst : (shown.begun 0 0).registry = [0] := by decide +kernel
    have hsecond : ((shown.begun 0 0).acts (skipping.take 1)).registry = [0] := by decide +kernel
    refine ⟨⟨⟨_, _, rfl⟩, ⟨_, rfl, rfl, rfl, rfl⟩, by decide +kernel, by norm_num⟩,
      ⟨?_, ?_, trivial⟩, by decide⟩
    · change Calm 0 _ _ (shown.begun 0 0).registry
      rw [hfirst]
      exact ⟨fun h => absurd rfl h, trivial⟩
    · change Calm 0 _ _ ((shown.begun 0 0).acts (skipping.take 1)).registry
      rw [hsecond]
      exact ⟨fun h => absurd rfl h, trivial⟩
  have hfront : shown.FadesOut 0 0 (1 / 2) (skipping.take 1) :=
    .front (show shown.FadesOut 0 0 (1 / 2) (skipping.take 1 ++ skipping.drop 1) from hfades)
  obtain ⟨r, hr, -, -, hearly⟩ := acts_fade hfront
  obtain ⟨q, hq, -, hthins, hlate⟩ := acts_fade hfades
  obtain ⟨r', hr', hrq⟩ := hthins (skipping.take 1) (skipping.drop 1) rfl
  obtain rfl : r = r' := Option.some.inj (hr.symm.trans hr')
  refine ⟨hfades, r, q, hr, hq, (hearly [] (some 1250000000) rfl).1 ?_,
    (hlate (skipping.take 1) (some 3000000000) rfl).2 ?_ ?_, hrq⟩
  · decide +kernel
  · decide +kernel
  · decide +kernel

end Exact

end Stage

end PanelScript

end DebugDesk
