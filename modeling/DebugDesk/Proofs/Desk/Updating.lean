import DebugDesk.Proofs.Desk.Framing
import DebugDesk.Proofs.Desk.Gating

/-!
# Updates of the windows

Once per frame the host forgets the windows of panels that were removed, makes those of new ones,
brings all in line with their panels, stacks them, and tells the contents whether they take input.
-/
namespace DebugDesk

namespace Workspace

variable {α β : Type} {w : Workspace α β} {m i : Nat}

theorem map_managed (h : ∃ S, w.Arranged S) : (w.managed m).map Prod.fst = w.members m := by
  have hthere : ∀ i ∈ w.members m, ∃ p, w.panel? i = some p := fun i hi => by
    obtain ⟨p, hp, -⟩ := (mem_members_iff h).mp hi
    exact ⟨p, hp⟩
  rw [managed]
  generalize w.members m = is at hthere
  induction is with
  | nil => rfl
  | cons i is ih =>
    obtain ⟨⟨p, hp⟩, hthere⟩ := List.forall_mem_cons.mp hthere
    simp only [List.filterMap_cons, hp, Option.map_some, List.map_cons, ih hthere]

theorem perm_inStackingOrder (h : ∃ S, w.Arranged S) :
    (w.inStackingOrder m).Perm (w.members m) := by
  rw [← map_managed h]
  exact (List.mergeSort_perm ..).map Prod.fst

theorem nodup_members (h : ∃ S, w.Arranged S) : (w.members m).Nodup := by
  obtain ⟨S, hS⟩ := h
  exact (hS m).perm.nodup_iff.mp (hS m).nodup

end Workspace

namespace Desk

open Effect Toolkit

variable [Platform] {d d' d'' : Desk} {fs more : List PanelFrame} {f : PanelFrame} {i : Nat}
  {p : Panel Float Binding} {host : PanelHost} {window : PanelWindow}

/-- What stays as it is while some panels are brought in line with their windows. -/
structure Others (busy : List Nat) (d d' : Desk) : Prop where
  members : d'.workspace.members manager = d.workspace.members manager
  clock : d'.clock = d.clock
  panels : ∀ i ∉ busy, d'.workspace.panel? i = d.workspace.panel? i
  contents : ∀ i ∉ busy, d'.contents[i]? = d.contents[i]?
  tracked : d'.tracked ⊆ d.tracked ++ busy.map Platform.address

variable {busy busy' : List Nat}

theorem Others.trans (h : Others busy d d') (h' : Others busy' d' d'') :
    Others (busy ++ busy') d d'' := by
  refine ⟨h'.members.trans h.members, h'.clock.trans h.clock, fun i hi => ?_, fun i hi => ?_, ?_⟩
  · simp only [List.mem_append, not_or] at hi
    exact (h'.panels i hi.2).trans (h.panels i hi.1)
  · simp only [List.mem_append, not_or] at hi
    exact (h'.contents i hi.2).trans (h.contents i hi.1)
  · refine List.Subset.trans h'.tracked fun place hp => ?_
    rw [List.map_append, ← List.append_assoc]
    rcases List.mem_append.mp hp with hp | hp
    · exact List.mem_append_left _ (h.tracked hp)
    · exact List.mem_append_right _ hp

theorem Others.mono (h : Others busy d d') (hsub : busy ⊆ busy') : Others busy' d d' :=
  ⟨h.members, h.clock, fun i hi => h.panels i fun hin => hi (hsub hin),
    fun i hi => h.contents i fun hin => hi (hsub hin),
    List.Subset.trans h.tracked (List.append_subset.mpr ⟨List.subset_append_left _ _,
      List.subset_append_of_subset_right _ (List.map_subset _ hsub)⟩)⟩

theorem Others.refl (busy : List Nat) (d : Desk) : Others busy d d :=
  ⟨rfl, rfl, fun _ _ => rfl, fun _ _ => rfl, List.subset_append_left _ _⟩

/-- The size of a panel is one that a new window can have. -/
def Measured (p : Panel Float Binding) : Prop :=
  ∃ width height : Int, Scalar.truncate p.width = .ok width ∧
    Scalar.truncate p.renderedHeight = .ok height

/-- The size of a panel is one that windows have, also while it collapses. -/
structure Sized (p : Panel Float Binding) : Prop where
  measured : Measured p
  appearance : ∃ a, appearanceOf p = .ok a

omit [Platform] in
theorem exists_ok_iff {α : Type} (x : Except Fault α) : (∃ a, x = .ok a) ↔ x.isOk := by
  cases x <;> simp [Except.isOk, Except.toBool]

omit [Platform] in
theorem sized_iff : Sized p ↔
    (Scalar.truncate p.width : Except Fault Int).isOk ∧
      (Scalar.truncate p.renderedHeight : Except Fault Int).isOk ∧ (appearanceOf p).isOk := by
  simp only [← exists_ok_iff]
  constructor
  · rintro ⟨⟨width, height, hwidth, hheight⟩, happearance⟩
    exact ⟨⟨width, hwidth⟩, ⟨height, hheight⟩, happearance⟩
  · rintro ⟨⟨width, hwidth⟩, ⟨height, hheight⟩, happearance⟩
    exact ⟨⟨width, height, hwidth, hheight⟩, happearance⟩

instance : Decidable (Sized p) := decidable_of_iff' _ sized_iff

/-- What is shown in the window that is kept for a place is told to the host. -/
def told (host : PanelHost) (place : Platform.Address) (a : Appearance) : PanelHost :=
  { host with windows := host.windows.map fun (i, w) =>
      (i, if i = place then { w with shown := some a } else w) }

theorem map_fst_told (host : PanelHost) (place : Platform.Address) (a : Appearance) :
    (told host place a).windows.map Prod.fst = host.windows.map Prod.fst := by
  rw [told, List.map_map]
  rfl

theorem Tracks.told {members : List Nat} (h : Tracks fs members host)
    (place : Platform.Address) (a : Appearance) : Tracks fs members (told host place a) := by
  refine ⟨fun x hx => ?_, ?_, ?_, h.apart⟩
  · obtain ⟨⟨i, w⟩, hi, rfl⟩ := List.mem_map.mp hx
    obtain ⟨f, hkept⟩ := h.known (i, w) hi
    have hsame : (if i = place then { w with shown := some a } else w).window = w.window ∧
        (if i = place then { w with shown := some a } else w).body = w.body := by
      split <;> exact ⟨rfl, rfl⟩
    exact ⟨f, hkept.frame, hkept.place, hsame.1.trans hkept.window, hsame.2.trans hkept.body,
      hkept.alone⟩
  · rw [map_fst_told]
    exact h.once
  · rw [map_fst_told]
    exact h.covers

theorem outcome_changeHost (hh : d.host = some host) (f : PanelHost → PanelHost) :
    (changeHost f).outcome d = (.ok (), { d with host := some (f host) }) := by
  change (Except.ok (), { d with host := d.host.map f }) = _
  rw [hh, Option.map_some]

/-- A panel without a frame has a content that can be built. -/
def CanFrame (fs : List PanelFrame) (d : Desk) (i : Nat) : Prop :=
  (∀ f ∈ fs, f.panel ≠ i) → ∀ p c, d.workspace.panel? i = some p → d.contents[i]? = some c →
    c.CanBuild p d.clock

theorem CanFrame.others (h : CanFrame fs d i) (ho : Others busy d d') (hi : i ∉ busy) :
    CanFrame (fs ++ more) d' i := by
  intro hnew p c hp hc
  rw [ho.panels i hi] at hp
  rw [ho.contents i hi] at hc
  rw [ho.clock]
  exact h (fun f hf => hnew f (List.mem_append_left _ hf)) p c hp hc

/-- No window is made if the size of its panel is none. -/
theorem makeWindow_fails (hh : d.host = some host) (hsize : ¬Measured p) :
    ∃ fault, (makeWindow i p).outcome d = (.error fault, d) := by
  rw [makeWindow, outcome_bind_ok (outcome_panelHost hh)]
  cases hwidth : (Scalar.truncate p.width : Except Fault Int) with
  | error fault => exact ⟨fault, outcome_bind_error (outcome_ofExcept _ _) _⟩
  | ok width =>
    rw [outcome_bind_ok (outcome_ofExcept _ _)]
    cases hheight : (Scalar.truncate p.renderedHeight : Except Fault Int) with
    | error fault => exact ⟨fault, outcome_bind_error (outcome_ofExcept _ _) _⟩
    | ok height => exact absurd ⟨width, height, hwidth, hheight⟩ hsize

theorem Tracks.of_window? {members : List Nat} (h : Tracks fs members host) (hm : i ∈ members)
    (hwindow : host.window? i = some window) :
    ∃ f ∈ fs, f.panel = i ∧ window.window = f.window ∧ window.body = f.body := by
  obtain ⟨before, after, hall, -⟩ := List.lookup_eq_some_iff.mp hwindow
  obtain ⟨f, hkept⟩ := h.known (Platform.address i, window) (by simp [hall])
  exact ⟨f, hkept.frame, (hkept.alone i hm rfl).symm, hkept.window, hkept.body⟩

variable [LawfulGui Platform.Toolkit Handler]

theorem Hosted.withHost (h : Hosted fs d) (ht : Tracks fs (d.workspace.members manager) host)
    (hl : Layered host (display d.toolkit)) : Hosted fs { d with host := some host } :=
  ⟨⟨h.stocked.inOrder, h.stocked.widgets, h.stocked.items, h.stocked.owned⟩, h.outside, h.windows,
    h.themes, h.stack, h.distinct, h.issued, h.once, h.known, h.standing, h.fallen, h.bound,
    h.built, h.silent, host, rfl, ht, hl⟩

theorem Hosted.backstage (h : Hosted fs d) (hs : Stocked d') (hb : Backstage none d d') :
    Hosted fs d' :=
  h.of_spares hs hb.toolkit hb.containers hb.host (congrArg Workspace.panels hb.workspace)
    (congrArg Workspace.managers hb.workspace)
    (List.ext_getElem? fun i => hb.contents i (by simp)) fun i _ => hb.inputs i (by simp)

theorem Others.backstage (h : Backstage none d d') : Others [] d d' := by
  refine ⟨by rw [h.workspace], h.clock, fun i _ => by rw [h.workspace],
    fun i _ => h.contents i (by simp), ?_⟩
  rw [Desk.tracked, h.host, List.map_nil, List.append_nil]
  exact List.Subset.refl _

def Smooth (e : Effect Desk Unit) (d : Desk) : Prop :=
  ∃ d', e.outcome d = (.ok (), d') ∧ Stocked d' ∧ Backstage none d d'

theorem Smooth.bind {e : Effect Desk Unit} {g : Unit → Effect Desk Unit} (he : Smooth e d)
    (hg : ∀ d', Stocked d' → Backstage none d d' → Smooth (g ()) d') : Smooth (e >>= g) d := by
  obtain ⟨d₁, h₁, hs₁, hb₁⟩ := he
  obtain ⟨d₂, h₂, hs₂, hb₂⟩ := hg d₁ hs₁ hb₁
  exact ⟨d₂, by rw [outcome_bind_ok h₁, h₂], hs₂, trans_of (Backstage none) hb₁ hb₂⟩

theorem configure_smooth (h : Stocked d) {id : String} {o : Outline}
    (hid : (display d.toolkit).look id = some o) (options : Toolkit.Options) :
    Smooth (configure id options) d := by
  have hthere : ((display d.toolkit).look id).isSome := hid ▸ rfl
  have hok := (LawfulGui.configure id options h.inOrder.valid).1 hthere
  exact ⟨_, Prod.ext hok rfl, h.back (configure_back id options d)⟩

theorem call_smooth (h : Stocked d) {function : String} (arguments : List Toolkit.Value)
    (hf : function ∈ passive) : Smooth (call function arguments) d :=
  ⟨_, rfl, h.back (call_back hf d)⟩

/-- A window that is there is brought in line with its panel. -/
theorem showWindow_hosted (place : Platform.Address) (h : Hosted fs d) (hf : f ∈ fs)
    (hm : f.panel ∈ d.workspace.members manager) (hh : d.host = some host)
    (hwindow : window.window = f.window) (hbody : window.body = f.body) {a : Appearance}
    (ha : appearanceOf p = .ok a) :
    ∃ d', (showWindow place p window).outcome d = (.ok (), d') ∧ Hosted fs d' ∧ Others [] d d' := by
  obtain ⟨host', hhost, htracks, hlayered⟩ := h.host
  obtain rfl := Option.some.inj (hh.symm.trans hhost)
  rw [showWindow, ha, outcome_bind_ok (outcome_ofExcept _ _)]
  split
  · exact ⟨d, rfl, h, .refl [] d⟩
  have hchange : (changeHost fun host => { host with
      windows := host.windows.map fun (i, w) =>
        (i, if i = place then { w with shown := some a } else w) }).outcome d =
      (.ok (), { d with host := some (told host place a) }) := outcome_changeHost hh _
  have htold : Hosted fs { d with host := some (told host place a) } :=
    h.withHost (htracks.told place a) hlayered
  have hothers : Others [] d { d with host := some (told host place a) } := by
    refine ⟨rfl, rfl, fun _ _ => rfl, fun _ _ => rfl, ?_⟩
    change (told host place a).windows.map Prod.fst ⊆ _
    rw [map_fst_told, List.map_nil, List.append_nil, tracked, hh]
    exact List.Subset.refl _
  rw [outcome_bind_ok hchange, outcome_bind_ok (outcome_panelHost rfl), hwindow, hbody]
  generalize { d with host := some (told host place a) } = d₀ at htold hothers ⊢
  have hstands : f.Stands (display d₀.toolkit) :=
    htold.standing f hf (hothers.members ▸ hm)
  have hfinish {e : Effect Desk Unit} (he : Smooth e d₀) :
      ∃ d', e.outcome d₀ = (.ok (), d') ∧ Hosted fs d' ∧ Others [] d d' := by
    obtain ⟨d', hd', hs', hb'⟩ := he
    have hothers' := hothers.trans (.backstage hb')
    exact ⟨d', hd', htold.backstage hs' hb', hothers'⟩
  have hset {d₁ : Desk} (hs : Stocked d₁) (arguments : List Toolkit.Value) :
      Smooth (call "set_value" arguments) d₁ := call_smooth hs _ (by decide)
  refine hfinish (.bind (configure_smooth htold.stocked hstands.window _) fun d₁ hs₁ hb₁ => ?_)
  refine .bind (configure_smooth hs₁ (hstands.reframes hb₁.toolkit).body _) fun d₂ hs₂ _ => ?_
  exact .bind (hset hs₂ _) fun d₃ hs₃ _ => hset hs₃ _

/-- What becomes of the frames while panels are brought in line with their windows, and when that
succeeds. -/
structure Syncs (fs more : List PanelFrame) (busy : List Nat) (d : Desk) (r : Except Fault Unit)
    (d' : Desk) : Prop where
  hosted : Hosted (fs ++ more) d'
  others : Others busy d d'
  fitting : ∀ f ∈ more, f.panel ∈ busy
  complete : r = .ok () → ∀ i ∈ busy, ∃ f ∈ fs ++ more, f.panel = i
  succeeds : (∀ i ∈ busy, ∀ p, d.workspace.panel? i = some p → Sized p) → r = .ok ()

/-- A window that is there is brought in line, unless its panel has no size. -/
theorem showWindow_syncs (place : Platform.Address) (h : Hosted fs d) (hf : f ∈ fs)
    (hm : f.panel ∈ d.workspace.members manager) (hh : d.host = some host)
    (hwindow : window.window = f.window) (hbody : window.body = f.body) :
    let e := showWindow place p window
    Hosted fs (e.outcome d).2 ∧ Others [] d (e.outcome d).2 ∧
      ((∃ a, appearanceOf p = .ok a) → (e.outcome d).1 = .ok ()) := by
  dsimp only
  cases ha : appearanceOf p with
  | error fault =>
    have hfails : (showWindow place p window).outcome d = (.error fault, d) := by
      rw [showWindow, ha, outcome_bind_error (outcome_ofExcept _ _)]
    rw [hfails]
    exact ⟨h, .refl [] d, by simp⟩
  | ok a =>
    obtain ⟨d', hd', hhosted, hothers⟩ := showWindow_hosted place h hf hm hh hwindow hbody ha
    rw [hd']
    exact ⟨hhosted, hothers, fun _ => rfl⟩

theorem Frames.others (h : Frames f d d') (hh : d.host = some host) (window : PanelWindow) :
    Others [f.panel] d { d' with host := some (withWindow host f.panel window) } := by
  refine ⟨?_, h.aloof.clock, fun i hi => ?_, fun i hi => ?_, ?_⟩
  · dsimp only
    rw [h.aloof.workspace]
    rfl
  · have hne : f.panel ≠ i := fun he => hi (List.mem_singleton.mpr he.symm)
    dsimp only
    rw [h.aloof.workspace]
    exact List.getElem?_modify_ne _ _ hne
  · exact h.aloof.contents i fun he => hi (List.mem_singleton.mpr (Option.some.inj he))
  · have hbefore : d.tracked = host.windows.map Prod.fst := by
      rw [tracked, hh]
      rfl
    change (withWindow host f.panel window).windows.map Prod.fst ⊆ _
    rw [hbefore, withWindow, List.map_append]
    exact List.Subset.refl _

/-- A managed panel gets a frame if it has none, and is brought in line with its window. -/
theorem syncPanel_syncs (h : Hosted fs d) (hs : Sound d)
    (hm : i ∈ d.workspace.members manager) (hcan : CanFrame fs d i) :
    ∃ more, Syncs fs more [i] d ((syncPanel i).outcome d).1 ((syncPanel i).outcome d).2 := by
  obtain ⟨p, hp, -⟩ := (Workspace.mem_members_iff hs.arranged).mp hm
  obtain ⟨host, hhost, htracks, -⟩ := h.host
  rw [syncPanel, outcome_bind_ok (outcome_get d)]
  simp only [hp]
  rw [outcome_bind_ok (outcome_panelHost hhost)]
  cases hlookup : host.window? i with
  | some window =>
    obtain ⟨f, hf, rfl, hwindow, hbody⟩ := htracks.of_window? hm hlookup
    obtain ⟨hhosted, hothers, hok⟩ := showWindow_syncs (p := p) (Platform.address f.panel)
      h hf hm hhost hwindow hbody
    refine ⟨[], by rwa [List.append_nil], hothers.mono (by simp), by simp, fun _ i hi => ?_,
      fun hsized => hok (hsized f.panel (by simp) p hp).appearance⟩
    obtain rfl := List.mem_singleton.mp hi
    exact ⟨f, by rwa [List.append_nil], rfl⟩
  | none =>
    have hplace : Platform.address i ∉ host.windows.map Prod.fst := fun hin => by
      obtain ⟨x, hx, hplace⟩ := List.mem_map.mp hin
      have hne := List.lookup_eq_none_iff.mp hlookup x hx
      simp [hplace] at hne
    have hnew : ∀ f ∈ fs, f.panel ≠ i := by
      rintro f hf rfl
      exact hplace (htracks.covers f hf hm)
    dsimp only
    by_cases hsize : Measured p
    · obtain ⟨width, height, hwidth, hheight⟩ := hsize
      obtain ⟨f, window, d₁, hmade, rfl, hwindow, hbody, hframes⟩ :=
        makeWindow_frames hs h.stocked h.outside hhost hwidth hheight fun c hc =>
          hcan hnew p c hp hc
      have hhosted := h.frames hframes hp hm hnew hwindow hbody hhost hplace
      have hothers := hframes.others hhost window
      rw [outcome_bind_ok hmade, outcome_bind_ok
        (outcome_changeHost (hframes.aloof.host.trans hhost) _)]
      obtain ⟨hhosted', hothers', hok⟩ := showWindow_syncs (p := p)
        (Platform.address f.panel) hhosted (by simp) (hothers.members ▸ hm) rfl hwindow hbody
      refine ⟨[f], hhosted', (hothers.trans hothers').mono (by simp), by simp, fun _ i hi => ?_,
        fun hsized => hok (hsized f.panel (by simp) p hp).appearance⟩
      obtain rfl := List.mem_singleton.mp hi
      exact ⟨f, by simp, rfl⟩
    · obtain ⟨fault, hfails⟩ : ∃ fault, (makeWindow i p).outcome d = (.error fault, d) :=
        makeWindow_fails hhost hsize
      rw [outcome_bind_error hfails]
      exact ⟨[], by rwa [List.append_nil], .refl _ d, by simp, by simp, fun hsized =>
        absurd (hsized i (by simp) p hp).measured hsize⟩

/-- All managed panels get frames and are brought in line, one after the other. -/
theorem forM_syncPanel_syncs (h : Hosted fs d) (hs : Sound d) (hnodup : busy.Nodup)
    (hsub : busy ⊆ d.workspace.members manager) (hcan : ∀ i ∈ busy, CanFrame fs d i) :
    ∃ more, Syncs fs more busy d ((busy.forM syncPanel).outcome d).1
      ((busy.forM syncPanel).outcome d).2 := by
  induction busy generalizing fs d with
  | nil => exact ⟨[], by rwa [List.append_nil], .refl [] d, by simp, by simp, fun _ => rfl⟩
  | cons i rest ih =>
    obtain ⟨hnot, hnodup⟩ := List.nodup_cons.mp hnodup
    obtain ⟨hm, hsub⟩ := List.cons_subset.mp hsub
    obtain ⟨hcani, hcan⟩ := List.forall_mem_cons.mp hcan
    obtain ⟨more₁, hfirst⟩ := syncPanel_syncs h hs hm hcani
    have hkeeps := syncPanel_keeps (Q := Anyhow) i d hs
    rw [forM_cons]
    rcases hsync : (syncPanel i).outcome d with ⟨fault | _, d₁⟩ <;>
      rw [hsync] at hfirst hkeeps
    · rw [outcome_bind_error hsync]
      refine ⟨more₁, hfirst.hosted, hfirst.others.mono (by simp),
        fun f hf => List.mem_cons.mpr (.inl (List.mem_singleton.mp (hfirst.fitting f hf))),
        by simp, fun hsized => ?_⟩
      cases hfirst.succeeds fun j hj => hsized j (by simp [List.mem_singleton.mp hj])
    · have hother {j : Nat} (hj : j ∈ rest) : j ∉ [i] := fun hin =>
        hnot (List.mem_singleton.mp hin ▸ hj)
      obtain ⟨more₂, hrest⟩ := ih hfirst.hosted hkeeps.1 hnodup (hfirst.others.members ▸ hsub)
        fun j hj => (hcan j hj).others hfirst.others (hother hj)
      rw [outcome_bind_ok hsync]
      refine ⟨more₁ ++ more₂, ?_, hfirst.others.trans hrest.others, fun f hf => ?_,
        fun hok j hj => ?_, fun hsized => ?_⟩
      · rw [← List.append_assoc]
        exact hrest.hosted
      · rcases List.mem_append.mp hf with hf | hf
        · exact List.mem_cons.mpr (.inl (List.mem_singleton.mp (hfirst.fitting f hf)))
        · exact List.mem_cons_of_mem i (hrest.fitting f hf)
      · rw [← List.append_assoc]
        rcases List.mem_cons.mp hj with rfl | hj
        · obtain ⟨f, hf, hpanel⟩ := hfirst.complete rfl j List.mem_cons_self
          exact ⟨f, List.mem_append_left _ hf, hpanel⟩
        · exact hrest.complete hok j hj
      · refine hrest.succeeds fun j hj p hp => hsized j (List.mem_cons_of_mem i hj) p ?_
        rw [← hfirst.others.panels j (hother hj), hp]

end Desk

end DebugDesk
