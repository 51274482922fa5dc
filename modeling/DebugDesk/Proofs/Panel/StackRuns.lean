import DebugDesk.Proofs.Panel.Frames

/-!
# Stacks of a run

Commands push, raise and drop panels of stacks, and a run of commands replays on the stacks what
each of them does. What fails leaves everything as it is, except where a panel is closed for a
manager that does not have it.
-/
namespace DebugDesk.PanelScript.Stage

open Workspace hiding bind

variable {α β : Type} [Scalar α] {s : Stage α β} {S S' : Stacks} {w w' : Workspace α β} {m i : Nat}

/-- What happens to the stacks when a gesture of a panel starts. -/
def grabbing (w : Workspace α β) (i : Nat) : List Restacking :=
  match w.owner? i with
  | some m => [.raise m i]
  | none => []

/-- What a command does to the stacks. -/
def restackings (s : Stage α β) (c : Command α β) : List Restacking :=
  let done := (s.step c).1.isOk
  match c with
  | .add m i => if done then [.push m i] else []
  | .focus m i => if done then [.raise m i] else []
  | .remove m i => if done then [.drop m i] else []
  | .close m i animate =>
    if done && !animate && isOpen s.workspace i then [.drop m i] else []
  | .closeAll m => ((s.workspace.members m).filter (isOpen s.workspace)).map (.drop m)
  | .frame time => framePlan (s.workspace.fate (time.getD s.clock)) s.registry
  | .beginMove i _ =>
    if (s.workspace.panel? i).any fun p => !p.closing then grabbing s.workspace i else []
  | .beginResize i pointer =>
    if (s.workspace.beginResize i pointer).1 then grabbing s.workspace i else []
  | _ => []

/-- The stacks after commands, replayed from what each of them does. -/
def replay (s : Stage α β) (S : Stacks) : List (Command α β) → Stacks
  | [] => S
  | c :: cs => replay (s.step c).2 (S.restackAll (s.restackings c)) cs

/-- The panels stand as the stacks tell, and those that fade out are registered once and marked. -/
structure Sound (s : Stage α β) (S : Stacks) : Prop where
  arranged : s.workspace.Arranged S
  registered : s.registry.Nodup
  closing : ∀ i ∈ s.registry, ∃ q, s.workspace.status? i = some q ∧ q.closing = true

/-- What fades out does so for the manager that has it, or is closed by then. -/
def Kept (w : Workspace α β) : Prop :=
  ∀ c ∈ w.closings, ∃ q, w.status? c.panel = some q ∧
    (q.closed = true ∨ q.manager = some c.manager)

omit [Scalar α] in
theorem Sound.follow (h : s.Sound S) (ha : w.Arranged S') (hf : Follows s.workspace w)
    {r : List Nat} (hr : r.Sublist s.registry) (time : Int) : Sound ⟨w, r, time⟩ S' := by
  refine ⟨ha, h.registered.sublist hr, fun i hi => ?_⟩
  obtain ⟨q, hq, hc⟩ := h.closing i (hr.subset hi)
  obtain ⟨q', hq', hg⟩ := hf.grows i q hq
  exact ⟨q', hq', hg.closing hc⟩

omit [Scalar α] in
theorem Kept.follow (h : Kept w) (hf : Follows w w') : Kept w' := by
  intro c hc
  rw [hf.closings] at hc
  obtain ⟨q, hq, hk⟩ := h c hc
  obtain ⟨q', hq', hg⟩ := hf.grows c.panel q hq
  refine ⟨q', hq', ?_⟩
  rcases hk with hk | hk
  · exact .inl (hg.closed hk)
  · exact hg.manager c.manager hk

omit [Scalar α] in
theorem outcome_needManager (s : Stage α β) (m : Nat) :
    (needManager m).outcome s =
      if m < s.workspace.managers.length then (.ok (), s) else (.error .unknownName, s) := by
  simp only [needManager, Effect.outcome_bind, Effect.outcome_get]
  by_cases h : m < s.workspace.managers.length
  · simp [h]
  · simp [h]

omit [Scalar α] in
/-- A command that asks something of a manager, and changes the workspace unless that fails. -/
theorem outcome_trying (s : Stage α β) (m : Nat)
    (f : Workspace α β → Except Fault (Workspace α β)) :
    (do needManager m; trying f : Effect (Stage α β) Answer).outcome s =
      if m < s.workspace.managers.length then
        match f s.workspace with
        | .ok w => (.ok .nothing, { s with workspace := w })
        | .error fault => (.error fault, s)
      else (.error .unknownName, s) := by
  simp only [Effect.outcome_bind, outcome_needManager]
  by_cases hm : m < s.workspace.managers.length
  · simp only [hm, ↓reduceIte, trying, Effect.outcome_step]
    cases f s.workspace <;> rfl
  · simp only [hm, ↓reduceIte]

omit [Scalar α] in
theorem outcome_asking (s : Stage α β)
    (f : Workspace α β → Except Fault (Bool × Workspace α β)) :
    (asking f).outcome s =
      match f s.workspace with
      | .ok (b, w) => (.ok (.flag b), { s with workspace := w })
      | .error fault => (.error fault, s) := by
  simp only [asking, Effect.outcome_step]
  rcases f s.workspace with _ | ⟨_, _⟩ <;> rfl

/-- A step that lets closings go on, and does to the stacks what is told. -/
structure Advances (s : Stage α β) (S : Stacks) (rs : List Restacking) (t : Stage α β) : Prop where
  arranged : t.workspace.Arranged (S.restackAll rs)
  follows : Follows s.workspace t.workspace
  registry : t.registry.Sublist s.registry

omit [Scalar α] in
theorem Advances.unmoved (h : s.workspace.Arranged S) (hu : Unmoved s.workspace w) (time : Int) :
    Advances s S [] ⟨w, s.registry, time⟩ :=
  ⟨h.alike hu.toAlike, hu.follows, .refl _⟩

/-- What is asked of a manager either happens or fails, and then nothing is different. -/
theorem Advances.trying (h : s.workspace.Arranged S)
    {f : Workspace α β → Except Fault (Workspace α β)} {r : Restacking} {c : Command α β}
    (hc : perform c = do needManager m; trying f)
    (hr : s.restackings c = if (s.step c).1.isOk then [r] else [])
    (hf : ∀ w, m < s.workspace.managers.length → f s.workspace = .ok w →
      w.Arranged (S.restack r) ∧ Follows s.workspace w) :
    Advances s S (s.restackings c) (s.step c).2 := by
  have hstep := outcome_trying s m f
  rw [← hc, ← step] at hstep
  rw [hr, hstep]
  by_cases hm : m < s.workspace.managers.length
  · simp only [hm, ↓reduceIte]
    cases hw : f s.workspace with
    | error fault => exact .unmoved h (.refl _) s.clock
    | ok w =>
      obtain ⟨ha, hg⟩ := hf w hm hw
      exact ⟨ha, hg, .refl _⟩
  · simp only [hm, ↓reduceIte]
    exact .unmoved h (.refl _) s.clock

theorem Advances.add (h : s.workspace.Arranged S) (m i : Nat) :
    Advances s S (s.restackings (.add m i)) (s.step (.add m i)).2 := by
  refine .trying h (m := m) rfl rfl fun w hm hw => ?_
  cases hp : s.workspace.panel? i with
  | none => simp [Workspace.add, hp] at hw
  | some p =>
    simp only [Workspace.add, hp] at hw
    cases hfree : p.manager with
    | some n => simp [hfree] at hw
    | none =>
      simp only [hfree, Option.isSome_none, Bool.false_eq_true, ↓reduceIte] at hw
      cases hw
      have hq : s.workspace.status? i = some p.status := by simp [status?, hp]
      exact ⟨h.add hm hp hfree, (Follows.attach _ m hq hfree).trans (.raise _ m i)⟩

theorem Advances.focus (h : s.workspace.Arranged S) (m i : Nat) :
    Advances s S (s.restackings (.focus m i)) (s.step (.focus m i)).2 := by
  refine .trying h (m := m) rfl rfl fun w _ hw => ?_
  cases hp : s.workspace.panel? i with
  | none => simp [Workspace.focus, isManagedBy, hp] at hw
  | some p =>
    by_cases hm : p.manager = some m
    · simp only [Workspace.focus, isManagedBy, hp, hm, BEq.rfl, ↓reduceIte] at hw
      cases hw
      exact ⟨h.raise ((h.mem_iff hp).mpr hm), .raise _ m i⟩
    · simp [Workspace.focus, isManagedBy, hp, hm] at hw

theorem Advances.remove (h : s.workspace.Arranged S) (m i : Nat) :
    Advances s S (s.restackings (.remove m i)) (s.step (.remove m i)).2 :=
  .trying h (m := m) rfl rfl fun _ _ hw => ⟨h.of_remove hw, .remove hw⟩

theorem step_close (s : Stage α β) (m i : Nat) :
    s.step (.close m i false) =
      if m < s.workspace.managers.length then
        ((s.workspace.closeAtOnce m i).1.map fun _ => .nothing,
          { s with workspace := (s.workspace.closeAtOnce m i).2 })
      else (.error .unknownName, s) := by
  simp only [step, perform, Effect.outcome_bind, outcome_needManager]
  by_cases hm : m < s.workspace.managers.length
  · simp only [hm, ↓reduceIte, close_at_once]
    cases (s.workspace.closeAtOnce m i).1 <;> rfl
  · simp only [hm, ↓reduceIte]

/-- A panel that is neither closing nor closed, and that a manager does not have. -/
def Strays (s : Stage α β) (m i : Nat) : Prop :=
  m < s.workspace.managers.length ∧
    ∃ q, s.workspace.status? i = some q ∧ q.isOpen = true ∧ q.manager ≠ some m

theorem Advances.close (h : s.workspace.Arranged S) (m i : Nat) :
    Advances s S (s.restackings (.close m i false)) (s.step (.close m i false)).2 := by
  have hr : s.restackings (.close m i false) =
      if (s.step (.close m i false)).1.isOk && isOpen s.workspace i then [.drop m i] else [] := by
    simp [restackings]
  rw [hr, step_close]
  by_cases hm : m < s.workspace.managers.length
  · simp only [hm, ↓reduceIte]
    by_cases hq : ∃ q, s.workspace.status? i = some q ∧ q.isOpen = true
    · obtain ⟨q, hq, ho⟩ := hq
      by_cases hqm : q.manager = some m
      · obtain ⟨w, hw, ha, hf, _⟩ := h.closeAtOnce hq ho hqm
        simp only [hw, isOpen, hq, Option.any_some, ho]
        exact ⟨ha, hf, .refl _⟩
      · obtain ⟨v, hv, ha, hf, _⟩ := beginClose_of_isOpen hq ho
        simp only [closeAtOnce_of_foreign hq ho hqm, hv]
        exact ⟨h.alike ha, hf, .refl _⟩
    · have hshut : ∀ q, s.workspace.status? i = some q → q.isOpen = false := by simpa using hq
      have hclosed : isOpen s.workspace i = false := by
        cases hs : s.workspace.status? i with
        | none => simp [isOpen, hs]
        | some q => simp [isOpen, hs, hshut q hs]
      rw [closeAtOnce_of_not_isOpen hshut, hclosed, Bool.and_false]
      exact .unmoved h (.refl _) s.clock
  · simp only [hm, ↓reduceIte]
    exact .unmoved h (.refl _) s.clock

theorem step_closeAll (h : s.workspace.Arranged S) (m : Nat) :
    (s.step (.closeAll m)).1 = .ok .nothing ∧
      Advances s S (s.restackings (.closeAll m)) (s.step (.closeAll m)).2 := by
  have hm : ∀ i ∈ s.workspace.members m, ∃ q, s.workspace.status? i = some q ∧
      q.manager = some m := by
    intro i hi
    obtain ⟨q, hq, hqm⟩ := (h m).toRanked.place ((h m).perm.mem_iff.mpr hi)
    obtain ⟨p, hp, rfl⟩ := Option.map_eq_some_iff.mp hq
    exact ⟨p.status, by simp [status?, hp], hqm⟩
  obtain ⟨w, hw, ha, hf⟩ := closeAll_plan (h m).toRanked.nodup_members s h hm
  have hstep : s.step (.closeAll m) = (.ok .nothing, { s with workspace := w }) := by
    simp only [step, perform, Effect.outcome_bind, Effect.outcome_get, hw, Effect.outcome_pure]
  rw [hstep]
  exact ⟨rfl, ha, hf, .refl _⟩

theorem step_frame (s : Stage α β) (time : Option Int) :
    s.step (.frame time) =
      (((animator.renderFrame (time.getD s.clock)).outcome s).1.map fun _ => .nothing,
        ((animator.renderFrame (time.getD s.clock)).outcome s).2) := by
  simp only [step, perform, Effect.outcome_bind, Effect.outcome_get]
  rcases (animator.renderFrame (time.getD s.clock)).outcome s with ⟨_ | _, _⟩ <;> rfl

theorem Advances.frame (h : s.Sound S) (time : Option Int) :
    Advances s S (s.restackings (.frame time)) (s.step (.frame time)).2 := by
  obtain ⟨w, r, hw, hr, ha, hf, _⟩ := frame_plan s (time.getD s.clock) h.registered h.arranged
  rw [step_frame, hw]
  exact ⟨ha, hf, hr⟩

theorem step_fading (s : Stage α β) (m i : Nat) :
    s.step (.close m i true) =
      if m < s.workspace.managers.length then
        match s.workspace.beginClose i with
        | (true, v) =>
          (.ok .nothing, ⟨(v.prepareClosing m i).restartClosing i s.clock, s.registry ++ [i],
            s.clock⟩)
        | (false, v) => (.ok .nothing, { s with workspace := v })
      else (.error .unknownName, s) := by
  simp only [step, perform, Effect.outcome_bind, outcome_needManager]
  by_cases hm : m < s.workspace.managers.length
  · simp only [hm, ↓reduceIte, Stage.close, Effect.outcome_bind, Effect.outcome_change]
    rcases s.workspace.beginClose i with ⟨_ | _, v⟩ <;> rfl
  · simp only [hm, ↓reduceIte]

omit [Scalar α] in
/-- What begins to fade out fades for the manager that was asked. -/
theorem mem_closings_of_fading {c : Closing} {time : Int}
    (hc : c ∈ ((w.prepareClosing m i).restartClosing i time).closings) :
    (∃ d ∈ w.closings, c.panel = d.panel ∧ c.manager = d.manager) ∨
      (c.panel = i ∧ c.manager = m) := by
  simp only [restartClosing, prepareClosing, List.mem_map, List.mem_append,
    List.mem_singleton] at hc
  obtain ⟨d, hd, rfl⟩ := hc
  have hsame : (if d.panel = i then { d with start := time } else d).panel = d.panel ∧
      (if d.panel = i then { d with start := time } else d).manager = d.manager := by
    split <;> exact ⟨rfl, rfl⟩
  rcases hd with hd | rfl
  · exact .inl ⟨d, hd, hsame⟩
  · exact .inr hsame

/-- Fading a panel out changes no stack yet. -/
theorem Sound.fading (h : s.Sound S) (m i : Nat) : (s.step (.close m i true)).2.Sound S := by
  rw [step_fading]
  by_cases hm : m < s.workspace.managers.length
  · simp only [hm, ↓reduceIte]
    by_cases hq : ∃ q, s.workspace.status? i = some q ∧ q.isOpen = true
    · obtain ⟨q, hq, ho⟩ := hq
      obtain ⟨v, hv, ha, hf, hs⟩ := beginClose_of_isOpen hq ho
      simp only [hv]
      have hnot : i ∉ s.registry := by
        intro hi
        obtain ⟨r, hr, hrc⟩ := h.closing i hi
        rw [hq] at hr
        cases hr
        simp [Panel.Status.isOpen, hrc] at ho
      have hv : Sound ⟨v, s.registry, s.clock⟩ S := h.follow (h.arranged.alike ha) hf (.refl _) _
      refine ⟨hv.arranged.alike ⟨fun _ => rfl, fun _ => rfl⟩, ?_, fun j hj => ?_⟩
      · exact List.nodup_append.mpr ⟨h.registered, by simp, by rintro a ha b hb rfl; simp_all⟩
      · rcases List.mem_append.mp hj with hj | hj
        · exact hv.closing j hj
        · rw [List.mem_singleton.mp hj]
          exact ⟨_, by rw [show ((v.prepareClosing m i).restartClosing i s.clock).status? i =
            v.status? i from rfl, hs, hq, Option.map_some, if_pos rfl], rfl⟩
    · rw [beginClose_of_not_isOpen (by simpa using hq)]
      exact h
  · simp only [hm, ↓reduceIte]
    exact h

theorem Kept.fading (h : Kept s.workspace) (hm : ¬s.Strays m i) :
    Kept (s.step (.close m i true)).2.workspace := by
  rw [step_fading]
  by_cases hlt : m < s.workspace.managers.length
  · simp only [hlt, ↓reduceIte]
    by_cases hq : ∃ q, s.workspace.status? i = some q ∧ q.isOpen = true
    · obtain ⟨q, hq, ho⟩ := hq
      obtain ⟨v, hv, _, hf, hs⟩ := beginClose_of_isOpen hq ho
      simp only [hv]
      have hqm : q.manager = some m := by
        by_contra hne
        exact hm ⟨hlt, q, hq, ho, hne⟩
      intro c hc
      rcases mem_closings_of_fading hc with ⟨d, hd, hp, hdm⟩ | ⟨hp, hcm⟩
      · rw [hp, hdm]
        exact h.follow hf d hd
      · refine ⟨{ q with closing := true }, ?_, .inr (hcm ▸ hqm)⟩
        rw [hp, show ((v.prepareClosing m i).restartClosing i s.clock).status? i = v.status? i
          from rfl, hs, hq, Option.map_some, if_pos rfl]
    · rw [beginClose_of_not_isOpen (by simpa using hq)]
      exact h
  · simp only [hlt, ↓reduceIte]
    exact h

omit [Scalar α] in
theorem Advances.grabbing (h : s.workspace.Arranged S) {i : Nat}
    {f : Panel α β → Panel α β × List (PanelSignal α β)} (hf : Panel.Steady f) :
    Advances s S (Stage.grabbing s.workspace i)
      { s with workspace := (s.workspace.raiseManaged i).signalling i f } := by
  cases hp : s.workspace.panel? i with
  | none =>
    simp only [Stage.grabbing, raiseManaged, owner?, place?, hp, Option.bind_none, Option.map_none]
    exact .unmoved h (.signalling _ i hf) s.clock
  | some p =>
    cases hm : p.manager with
    | none =>
      simp only [Stage.grabbing, raiseManaged, owner?, place?, hp, hm, Option.bind_some,
        Option.map_some, Panel.place]
      exact .unmoved h (.signalling _ i hf) s.clock
    | some m =>
      simp only [Stage.grabbing, raiseManaged, owner?, place?, hp, hm, Option.bind_some,
        Option.map_some, Panel.place]
      have hu := Unmoved.signalling (s.workspace.raise m i) i hf
      have hr := h.raise ((h.mem_iff hp).mpr hm)
      exact ⟨hr.alike hu.toAlike, (Follows.raise _ m i).trans hu.follows, .refl _⟩

theorem Advances.beginMove (h : s.workspace.Arranged S) (i : Nat) (pointer : Point α) :
    Advances s S (s.restackings (.beginMove i pointer)) (s.step (.beginMove i pointer)).2 := by
  have hstep : (s.step (.beginMove i pointer)).2 =
    { s with workspace := s.workspace.beginMove i pointer } := rfl
  simp only [hstep, restackings, Workspace.beginMove]
  cases hp : s.workspace.panel? i with
  | none => exact .unmoved h (.refl _) s.clock
  | some p =>
    cases hc : p.closing with
    | true =>
      simp only [hc, Option.any_some, Bool.not_true, Bool.false_eq_true, ↓reduceIte]
      exact .unmoved h (.refl _) s.clock
    | false =>
      simp only [hc, Option.any_some, Bool.not_false, Bool.false_eq_true, ↓reduceIte]
      exact .grabbing h (Panel.steady_beginMove pointer)

theorem Advances.beginResize (h : s.workspace.Arranged S) (i : Nat) (pointer : Point α) :
    Advances s S (s.restackings (.beginResize i pointer)) (s.step (.beginResize i pointer)).2 := by
  have hstep : (s.step (.beginResize i pointer)).2 =
      { s with workspace := (s.workspace.beginResize i pointer).2 } := by
    simp only [step, perform, outcome_asking]
  have hb : s.workspace.beginResize i pointer = (false, s.workspace) ∨
      s.workspace.beginResize i pointer =
        (true, (s.workspace.raiseManaged i).signalling i (Panel.beginResize · pointer)) := by
    unfold Workspace.beginResize
    split
    · exact .inl rfl
    · split
      · exact .inl rfl
      · exact .inr rfl
  simp only [hstep, restackings]
  rcases hb with hb | hb
  · simp only [hb, Bool.false_eq_true, ↓reduceIte]
    exact .unmoved h (.refl _) s.clock
  · simp only [hb, ↓reduceIte]
    exact .grabbing h (Panel.steady_beginResize pointer)

omit [Scalar α] in
theorem Advances.asking (h : s.workspace.Arranged S)
    {f : Workspace α β → Except Fault (Bool × Workspace α β)}
    (hf : ∀ b w, f s.workspace = .ok (b, w) → Unmoved s.workspace w) :
    Advances s S [] ((asking f).outcome s).2 := by
  rw [outcome_asking]
  rcases hw : f s.workspace with fault | ⟨b, w⟩
  · exact .unmoved h (.refl _) s.clock
  · exact .unmoved h (hf b w hw) s.clock

omit [Scalar α] in
theorem unmoved_replace {p q : Panel α β} (hp : w.panel? i = some p)
    (hq : q.place = p.place ∧ q.status = p.status) : Unmoved w (w.modifyPanel i fun _ => q) := by
  refine .modifyPanel w i fun r hr => ?_
  rw [hp] at hr
  cases hr
  exact hq

theorem unmoved_moveTo {pointer : Point α} {b : Bool} (h : w.moveTo i pointer = .ok (b, w')) :
    Unmoved w w' := by
  simp only [Workspace.moveTo] at h
  split at h
  · exact nomatch h
  next p hp =>
    rcases hm : p.moveTo (w.gridOf p) pointer with fault | ⟨c, q⟩
    · simp only [hm, Effect.error_bind] at h
      exact nomatch h
    · simp only [hm, Effect.ok_bind] at h
      cases h
      exact unmoved_replace hp (Panel.steady_moveTo hm)

theorem unmoved_resizeTo {pointer : Point α} {b : Bool} (h : w.resizeTo i pointer = .ok (b, w')) :
    Unmoved w w' := by
  simp only [Workspace.resizeTo] at h
  split at h
  · exact nomatch h
  next p hp =>
    rcases hm : p.resizeTo (w.gridOf p) pointer with fault | ⟨c, q⟩
    · simp only [hm, Effect.error_bind] at h
      exact nomatch h
    · simp only [hm, Effect.ok_bind] at h
      have hu := unmoved_replace hp (Panel.steady_resizeTo hm)
      cases h
      split
      · exact ⟨⟨hu.members, hu.place⟩, ⟨hu.closings, hu.durations⟩, hu.status⟩
      · exact hu

theorem Sound.advances (h : s.Sound S) (c : Command α β) (hc : ∀ m i, c ≠ .close m i true) :
    Advances s S (s.restackings c) (s.step c).2 := by
  have hquiet (i : Nat) {f : Panel α β → Panel α β × List (PanelSignal α β)}
      (hf : Panel.Steady f) : Advances s S [] { s with workspace := s.workspace.signalling i f } :=
    .unmoved h.arranged (.signalling _ i hf) s.clock
  cases c with
  | create title x y width height expanded headerHeight minWidth minHeight =>
    exact ⟨h.arranged.push rfl, .push _ _, .refl _⟩
  | add m i => exact .add h.arranged m i
  | focus m i => exact .focus h.arranged m i
  | remove m i => exact .remove h.arranged m i
  | close m i animate =>
    cases animate with
    | false => exact .close h.arranged m i
    | true => exact absurd rfl (hc m i)
  | closeAll m => exact (step_closeAll h.arranged m).2
  | frame time => exact .frame h time
  | toggle i =>
    refine .asking h.arranged ?_
    rintro b w ⟨⟩
    exact .signalling _ i Panel.steady_toggleExpanded
  | beginMove i pointer => exact .beginMove h.arranged i pointer
  | moveTo i pointer => exact .asking h.arranged fun _ _ => unmoved_moveTo
  | endMove i => exact hquiet i Panel.steady_endMove
  | beginResize i pointer => exact .beginResize h.arranged i pointer
  | resizeTo i pointer => exact .asking h.arranged fun _ _ => unmoved_resizeTo
  | endResize i => exact hquiet i Panel.steady_endResize
  | cancelGesture i => exact hquiet i Panel.steady_cancelGesture
  | bind i binding =>
    have hu : Unmoved s.workspace (s.workspace.bind i binding) :=
      .modifyPanel _ i fun _ _ => ⟨rfl, rfl⟩
    exact .unmoved h.arranged hu s.clock
  | releaseBindings i => exact hquiet i Panel.steady_releaseBindings
  | setClock time => exact .unmoved h.arranged (.refl _) time

theorem Sound.step (h : s.Sound S) (c : Command α β) :
    (s.step c).2.Sound (S.restackAll (s.restackings c)) := by
  by_cases hc : ∃ m i, c = .close m i true
  · obtain ⟨m, i, rfl⟩ := hc
    simpa [restackings] using h.fading m i
  · have ha := h.advances c fun m i he => hc ⟨m, i, he⟩
    exact h.follow ha.arranged ha.follows ha.registry (s.step c).2.clock

theorem Sound.run (h : s.Sound S) (cs : List (Command α β)) :
    (s.run cs).Sound (s.replay S cs) := by
  induction cs generalizing s S with
  | nil => exact h
  | cons c cs ih => exact ih (h.step c)

omit [Scalar α] in
theorem sound_start (settings : List (α × α)) :
    (start settings : Stage α β).Sound fun _ => [] := by
  refine ⟨fun m => ?_, .nil, by simp [start]⟩
  have hm : (start settings : Stage α β).workspace.members m = [] := by
    simp only [start, Workspace.make, members, List.getElem?_map]
    cases settings[m]? <;> rfl
  refine ⟨⟨.nil, hm ▸ .nil, fun i => ?_, by simp⟩, by simp⟩
  simp [owner?, place?, panel?, start, Workspace.make]

/-- Whether a command closes a panel for a manager that does not have it. -/
def ClosesStray (s : Stage α β) (c : Command α β) : Prop :=
  ∃ m i animate, c = .close m i animate ∧ s.Strays m i

/-- A run in which managers close none but panels of their own. -/
def Tame (s : Stage α β) : List (Command α β) → Prop
  | [] => True
  | c :: cs => ¬s.ClosesStray c ∧ (s.step c).2.Tame cs

theorem Kept.step (hk : Kept s.workspace) (h : s.Sound S) {c : Command α β}
    (hc : ¬s.ClosesStray c) : Kept (s.step c).2.workspace := by
  by_cases hf : ∃ m i, c = .close m i true
  · obtain ⟨m, i, rfl⟩ := hf
    exact hk.fading fun hs => hc ⟨m, i, true, rfl, hs⟩
  · exact hk.follow (h.advances c fun m i he => hf ⟨m, i, he⟩).follows

theorem Kept.run (hk : Kept s.workspace) (h : s.Sound S) {cs : List (Command α β)}
    (hcs : s.Tame cs) : Kept (s.run cs).workspace := by
  induction cs generalizing s S with
  | nil => exact hk
  | cons c cs ih => exact ih (hk.step h hcs.1) (h.step c) hcs.2

theorem stages_fault {c : Closing} {time : Int} {fault : Fault}
    (h : w.stages c time = .error fault) :
    fault = .divisionByZero ∨ fault = .quotientTooLarge := by
  simp only [stages, elapsedSeconds] at h
  cases hq : (Scalar.quotient (time - c.start) 1000000000 : Except Fault α) with
  | error f =>
    simp only [hq, Effect.error_bind] at h
    cases h
    exact Scalar.quotient_fault hq
  | ok e =>
    simp only [hq, Effect.ok_bind, Scalar.divide] at h
    split at h
    · exact .inl (Except.error.inj h).symm
    · cases h

/-- Managers let go what they have, so that only the time of a frame can be at fault. -/
theorem Kept.fate_fault (h : Kept w) {time : Int} {fault : Fault}
    (hf : w.fate time i = .error fault) :
    fault = .divisionByZero ∨ fault = .quotientTooLarge := by
  unfold fate at hf
  split at hf
  next c q hc hq =>
    cases hs : w.stages c time with
    | error f =>
      simp only [hs] at hf
      cases hf
      exact stages_fault hs
    | ok stages =>
      have hi : c.panel = i := by simpa using List.find?_some hc
      obtain ⟨r, hr, hk⟩ := h c (List.mem_of_find?_eq_some hc)
      rw [hi, hq] at hr
      cases hr
      simp only [hs] at hf
      rcases hk with hk | hk
      · simp [hk] at hf
      · simp only [hk, ↓reduceIte] at hf
        split at hf <;> exact nomatch hf
  · exact nomatch hf

/-- A failure leaves everything as it is, except where a panel is closed at once for a manager that
does not have it, and where a frame fails. -/
theorem Sound.failure (h : s.Sound S) {c : Command α β} {fault : Fault}
    (hf : (s.step c).1 = .error fault) :
    (s.step c).2 = s ∨ (∃ m i, c = .close m i false ∧ s.Strays m i) ∨
      ∃ time i, c = .frame time ∧ s.workspace.fate (time.getD s.clock) i = .error fault := by
  have htrying {m : Nat} {f : Workspace α β → Except Fault (Workspace α β)}
      (hc : perform c = do needManager m; trying f) : (s.step c).2 = s := by
    have hstep : s.step c = _ := (congrArg (Effect.outcome · s) hc).trans (outcome_trying s m f)
    rw [hstep] at hf ⊢
    split
    next hm =>
      simp only [hm, ↓reduceIte] at hf
      cases hw : f s.workspace with
      | error fault => rfl
      | ok w => simp [hw] at hf
    next => rfl
  have hasking {f : Workspace α β → Except Fault (Bool × Workspace α β)}
      (hc : perform c = asking f) : (s.step c).2 = s := by
    have hstep : s.step c = _ := (congrArg (Effect.outcome · s) hc).trans (outcome_asking s f)
    rw [hstep] at hf ⊢
    rcases hw : f s.workspace with fault | ⟨b, w⟩
    · rfl
    · simp [hw] at hf
  cases c with
  | add m i => exact .inl (htrying (m := m) rfl)
  | focus m i => exact .inl (htrying (m := m) rfl)
  | remove m i => exact .inl (htrying (m := m) rfl)
  | toggle i => exact .inl (hasking (f := fun w => .ok (w.toggleExpanded i)) rfl)
  | moveTo i pointer => exact .inl (hasking (f := (·.moveTo i pointer)) rfl)
  | beginResize i pointer => exact .inl (hasking (f := fun w => .ok (w.beginResize i pointer)) rfl)
  | resizeTo i pointer => exact .inl (hasking (f := (·.resizeTo i pointer)) rfl)
  | closeAll m => exact absurd hf (by rw [(step_closeAll h.arranged m).1]; exact nofun)
  | close m i animate =>
    cases animate with
    | true =>
      rw [step_fading] at hf ⊢
      split at hf
      · split at hf <;> exact nomatch hf
      next hm => exact .inl (by rw [if_neg hm])
    | false =>
      rw [step_close] at hf ⊢
      split at hf
      next hm =>
        refine .inr (.inl ⟨m, i, rfl, hm, ?_⟩)
        by_contra hno
        simp only [not_exists, not_and, not_not] at hno
        by_cases hq : ∃ q, s.workspace.status? i = some q ∧ q.isOpen = true
        · obtain ⟨q, hq, ho⟩ := hq
          obtain ⟨v, hv, _⟩ := h.arranged.closeAtOnce hq ho (hno q hq ho)
          simp [hv, Except.map] at hf
        · rw [closeAtOnce_of_not_isOpen (by simpa using hq)] at hf
          simp [Except.map] at hf
      next hm => exact .inl (by rw [if_neg hm])
  | frame time =>
    refine .inr (.inr ?_)
    obtain ⟨_, _, _, _, _, _, herr⟩ :=
      frame_plan s (time.getD s.clock) h.registered h.arranged
    rw [step_frame] at hf
    cases ho : ((animator.renderFrame (time.getD s.clock)).outcome s).1 with
    | ok _ => simp [ho, Except.map] at hf
    | error f =>
      obtain ⟨i, _, hi⟩ := herr f ho
      simp only [ho, Except.map] at hf
      cases hf
      exact ⟨time, i, rfl, hi⟩
  | _ => exact absurd hf nofun

/-- Closing a panel at once for a manager that does not have it fails, with the panel marked as
closing. -/
theorem Strays.close (h : s.Strays m i) :
    (s.step (.close m i false)).1 = .error .panelNotManaged ∧
      (s.step (.close m i false)).2 ≠ s := by
  obtain ⟨hm, q, hq, ho, hqm⟩ := h
  obtain ⟨v, hv, _, _, hs⟩ := beginClose_of_isOpen hq ho
  rw [step_close, if_pos hm, closeAtOnce_of_foreign hq ho hqm]
  refine ⟨rfl, fun he => ?_⟩
  have hstatus : v.status? i = s.workspace.status? i := by
    simp only [hv] at he
    exact congrArg (fun t => t.workspace.status? i) he
  rw [hs, hq, Option.map_some, if_pos rfl] at hstatus
  have hclosing : true = q.closing := congrArg Panel.Status.closing (Option.some.inj hstatus)
  simp [Panel.Status.isOpen, ← hclosing] at ho

/-- After every run the panels of each manager stand as the replayed stack tells: positions count
from the bottom, and the panel on top has the focus. A failure that is not one of time leaves
everything as it is, exactly when no panel is closed for a manager that does not have it. -/
theorem run_restacks (settings : List (α × α)) (cs : List (Command α β)) :
    (∀ m, ((start settings).run cs).workspace.Stacked m
      ((start settings).replay (fun _ => []) cs m)) ∧
    (∀ m i, ((start settings).run cs).Strays m i →
      (((start settings).run cs).step (.close m i false)).1 = .error .panelNotManaged ∧
      (((start settings).run cs).step (.close m i false)).2 ≠ (start settings).run cs) ∧
    ((start settings).Tame cs → ∀ c fault,
      (((start settings).run cs).step c).1 = .error fault →
      fault ≠ .divisionByZero → fault ≠ .quotientTooLarge →
      ((((start settings).run cs).step c).2 = (start settings).run cs ↔
        ¬((start settings).run cs).ClosesStray c)) := by
  have hsound := (sound_start (β := β) settings).run cs
  refine ⟨hsound.arranged, fun m i => Strays.close, fun htame c fault hf hz hq => ?_⟩
  have hkept := Kept.run (s := start settings) nofun (sound_start settings) htame
  constructor
  · rintro he ⟨m, i, animate, rfl, hs⟩
    cases animate with
    | false => exact hs.close.2 he
    | true =>
      rw [step_fading, if_pos hs.1] at hf
      split at hf <;> exact nomatch hf
  · intro hc
    rcases hsound.failure hf with he | ⟨m, i, rfl, hs⟩ | ⟨time, i, rfl, hi⟩
    · exact he
    · exact absurd ⟨m, i, false, rfl, hs⟩ hc
    · rcases hkept.fate_fault hi with rfl | rfl
      · exact absurd rfl hz
      · exact absurd rfl hq

def refocused : List (Command Float String) :=
  [.create "a" 0.0 0.0 400.0 300.0 true 20.0 100.0 60.0,
    .create "b" 40.0 40.0 400.0 300.0 true 20.0 100.0 60.0, .add 0 0, .add 0 1, .focus 0 0]

theorem tame_refocused : (start [(20.0, 0.5)]).Tame refocused := by
  refine ⟨?_, ?_, ?_, ?_, ?_, trivial⟩
  all_goals
    rintro ⟨m, i, animate, h, _⟩
    exact nomatch h

theorem refocused_restacks :
    ((start [(20.0, 0.5)]).run refocused).workspace.Stacked 0 [1, 0] ∧
      (((start [(20.0, 0.5)]).run refocused).step (.add 0 1)).1 = .error .panelManaged ∧
      (((start [(20.0, 0.5)]).run refocused).step (.add 0 1)).2 =
        (start [(20.0, 0.5)]).run refocused := by
  obtain ⟨hstack, _, hfail⟩ := run_restacks [((20.0 : Float), 0.5)] refocused
  refine ⟨hstack 0, rfl, ?_⟩
  refine (hfail tame_refocused (.add 0 1) .panelManaged rfl nofun nofun).mpr ?_
  rintro ⟨m, i, animate, h, _⟩
  exact nomatch h

/-- A panel that no manager has is closed: that fails, and the panel is marked as closing. -/
theorem close_unmanaged_marks :
    let s : Stage Float String := (start [(20.0, 0.5)]).run
      [.create "a" 0.0 0.0 400.0 300.0 true 20.0 100.0 60.0]
    (s.step (.close 0 0 false)).1 = .error .panelNotManaged ∧
      (s.workspace.panel? 0).map Panel.closing = some false ∧
      ((s.step (.close 0 0 false)).2.workspace.panel? 0).map Panel.closing = some true :=
  ⟨rfl, rfl, rfl⟩

end DebugDesk.PanelScript.Stage
