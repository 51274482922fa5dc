import DebugDesk.Proofs.Desk.Updating

/-!
# Windows in the order of their panels

The windows that exist lie on the screen as the panels are stacked, whether they were stacked in
that order before or are now.
-/
namespace DebugDesk

namespace Toolkit

open Display

variable {τ κ : Type} [Gui τ κ] [LawfulGui τ κ] {t t' : τ} {ids : List String}

/-- Windows were focused one after the other. -/
structure Focuses (ids : List String) (t t' : τ) : Prop where
  valid : Valid t'
  display : display t' = { display t with stack := ids.foldl raised (display t).stack }

theorem Focuses.inOrder (h : Focuses ids t t') (ht : InOrder t) : InOrder t' := by
  refine ⟨h.valid, ?_⟩
  rw [h.display]
  exact ⟨ht.regular.distinct, ht.regular.known, ht.regular.roots, ht.regular.bodies⟩

theorem Focuses.look (h : Focuses ids t t') :
    (Toolkit.display t').look = (Toolkit.display t).look :=
  look_congr (by rw [h.display])

theorem Focuses.plain (h : Focuses ids t t') {id : String} (hid : (Toolkit.display t).Plain id) :
    (Toolkit.display t').Plain id :=
  ⟨h.display ▸ hid.issued, fun o ho => hid.frameless o (h.look ▸ ho)⟩

end Toolkit

namespace Desk

open Effect Toolkit

variable [Platform]

variable {d d' : Desk} {fs : List PanelFrame} {f g : PanelFrame} {i : Nat} {host : PanelHost}
  {ids : List String} {id : String}

/-- The windows of the managed panels, from bottom to top as the panels are stacked. -/
def windowOrder (d : Desk) (host : PanelHost) : List String :=
  (d.workspace.inStackingOrder manager).filterMap fun i =>
    (host.window? i).map PanelWindow.window

def Complete (fs : List PanelFrame) (d : Desk) : Prop :=
  ∀ i ∈ d.workspace.members manager, ∃ f ∈ fs, f.panel = i

theorem Tracks.of_lookup {members : List Nat} (h : Tracks fs members host) (hm : i ∈ members)
    (hid : (host.window? i).map PanelWindow.window = some id) :
    ∃ f ∈ fs, f.panel = i ∧ f.window = id := by
  obtain ⟨window, hlookup, rfl⟩ := Option.map_eq_some_iff.mp hid
  obtain ⟨f, hf, hpanel, hwindow, -⟩ := h.of_window? hm hlookup
  exact ⟨f, hf, hpanel, hwindow.symm⟩

theorem outcome_restack (hhost : d.host = some host) :
    restack.outcome d = (if windowOrder d host = host.stacking then pure () else do
      changeHost fun host' => { host' with stacking := windowOrder d host }
      (windowOrder d host).forM fun window => call "focus_item" [.text window] :
        Effect Desk Unit).outcome d := by
  rw [restack, outcome_bind_ok (outcome_panelHost hhost), outcome_bind_ok (outcome_get d)]
  rfl

variable [LawfulGui Platform.Toolkit Handler]

theorem forM_focus (h : Valid d.toolkit) (ids : List String) :
    ∃ t, (ids.forM fun window => call "focus_item" [.text window]).outcome d =
        (.ok (), { d with toolkit := t }) ∧ Focuses ids d.toolkit t := by
  induction ids generalizing d with
  | nil => exact ⟨d.toolkit, rfl, h, rfl⟩
  | cons id ids ih =>
    obtain ⟨hvalid, hfirst⟩ := LawfulGui.focus id h
    obtain ⟨t, ht, hfocuses⟩ :=
      ih (d := { d with toolkit := Gui.call d.toolkit "focus_item" [.text id] [] }) hvalid
    have hcall : (call "focus_item" [.text id]).outcome d =
        (.ok (), { d with toolkit := Gui.call d.toolkit "focus_item" [.text id] [] }) := rfl
    refine ⟨t, by rw [forM_cons, outcome_bind_ok hcall, ht], hfocuses.valid, ?_⟩
    rw [hfocuses.display, hfirst]
    rfl

theorem Hosted.panel_eq (h : Hosted fs d) (hf : f ∈ fs) (hg : g ∈ fs)
    (hw : f.window = g.window) : f.panel = g.panel := by
  by_contra hne
  exact h.disjoint hf hg hne List.mem_cons_self (hw ▸ List.mem_cons_self)

theorem Hosted.frame_eq (h : Hosted fs d) (hf : f ∈ fs) (hg : g ∈ fs)
    (hp : f.panel = g.panel) : f = g := List.inj_on_of_nodup_map h.once hf hg hp

/-- The host knows the window of every managed panel that has a frame. -/
theorem Tracks.lookup (ht : Tracks fs (d.workspace.members manager) host) (h : Hosted fs d)
    (hf : f ∈ fs) (hm : f.panel ∈ d.workspace.members manager) :
    (host.window? f.panel).map PanelWindow.window = some f.window := by
  cases hlookup : host.window? f.panel with
  | none =>
    obtain ⟨x, hx, hplace⟩ := List.mem_map.mp (ht.covers f hf hm)
    have hne := List.lookup_eq_none_iff.mp hlookup x hx
    simp [hplace] at hne
  | some window =>
    obtain ⟨g, hg, hpanel, hwindow⟩ : ∃ g ∈ fs, g.panel = f.panel ∧ g.window = window.window :=
      ht.of_lookup hm (by rw [hlookup, Option.map_some])
    rw [Option.map_some, ← hwindow, h.frame_eq hg hf hpanel]

theorem map_windowOrder (h : Hosted fs d) (hs : Sound d)
    (ht : Tracks fs (d.workspace.members manager) host) (hc : Complete fs d) :
    (windowOrder d host).map some = (d.workspace.inStackingOrder manager).map fun i =>
      (host.window? i).map PanelWindow.window := by
  have hsome : ∀ i ∈ d.workspace.inStackingOrder manager,
      ∃ id, (host.window? i).map PanelWindow.window = some id := by
    intro i hi
    have hm := (Workspace.perm_inStackingOrder hs.arranged).mem_iff.mp hi
    obtain ⟨f, hf, rfl⟩ := hc i hm
    exact ⟨f.window, ht.lookup h hf hm⟩
  rw [windowOrder]
  generalize d.workspace.inStackingOrder manager = is at hsome
  induction is with
  | nil => rfl
  | cons i is ih =>
    obtain ⟨⟨id, hid⟩, hsome⟩ := List.forall_mem_cons.mp hsome
    simp only [List.filterMap_cons, hid, List.map_cons, ih hsome]

theorem mem_windowOrder (h : Hosted fs d) (hs : Sound d)
    (ht : Tracks fs (d.workspace.members manager) host) :
    id ∈ windowOrder d host ↔ ∃ f ∈ fs, f.panel ∈ d.workspace.members manager ∧ f.window = id := by
  have hmem {i : Nat} :=
    (Workspace.perm_inStackingOrder (m := manager) hs.arranged).mem_iff (a := i)
  rw [windowOrder, List.mem_filterMap]
  constructor
  · rintro ⟨i, hi, hid⟩
    obtain ⟨f, hf, rfl, hwindow⟩ := ht.of_lookup (hmem.mp hi) hid
    exact ⟨f, hf, hmem.mp hi, hwindow⟩
  · rintro ⟨f, hf, hm, rfl⟩
    exact ⟨f.panel, hmem.mpr hm, ht.lookup h hf hm⟩

theorem nodup_windowOrder (h : Hosted fs d) (hs : Sound d)
    (ht : Tracks fs (d.workspace.members manager) host) : (windowOrder d host).Nodup := by
  have hnodup := (Workspace.perm_inStackingOrder (m := manager) hs.arranged).nodup_iff.mpr
    (Workspace.nodup_members hs.arranged)
  have hmem {i : Nat} :=
    (Workspace.perm_inStackingOrder (m := manager) hs.arranged).mem_iff (a := i)
  refine List.pairwise_filterMap.mpr (hnodup.imp_of_mem ?_)
  intro i j hi hj hne id hid id' hid' he
  obtain ⟨f, hf, rfl, rfl⟩ := ht.of_lookup (hmem.mp hi) hid
  obtain ⟨g, hg, rfl, rfl⟩ := ht.of_lookup (hmem.mp hj) hid'
  exact hne (h.panel_eq hf hg he)

theorem Hosted.nodup_stack (h : Hosted fs d) : (display d.toolkit).stack.Nodup := by
  rw [h.stack.nodup_iff, h.windows, List.Nodup, List.pairwise_map]
  obtain ⟨-, hpairwise⟩ := List.nodup_flatMap.mp h.distinct
  refine hpairwise.imp fun {f g} hdisjoint he => ?_
  have hboth : f.window ∈ g.roots := he ▸ List.mem_cons_self
  exact hdisjoint List.mem_cons_self hboth

theorem Hosted.mem_stack (h : Hosted fs d) :
    id ∈ (display d.toolkit).stack ↔ ∃ f ∈ fs, f.window = id := by
  rw [h.stack.mem_iff, h.windows, List.mem_map]

/-- The windows that exist are those of the managed panels. -/
theorem Hosted.exists_iff (h : Hosted fs d) (hs : Sound d)
    (ht : Tracks fs (d.workspace.members manager) host) (hid : id ∈ (display d.toolkit).stack) :
    ((display d.toolkit).look id).isSome ↔ id ∈ windowOrder d host := by
  obtain ⟨f, hf, rfl⟩ := h.mem_stack.mp hid
  rw [mem_windowOrder h hs ht]
  constructor
  · intro hexists
    refine ⟨f, hf, ?_, rfl⟩
    by_contra hm
    rw [h.fallen f hf hm f.window List.mem_cons_self] at hexists
    cases hexists
  · rintro ⟨g, hg, hm, hw⟩
    rw [h.panel_eq hg hf hw] at hm
    rw [(h.standing f hf hm).window]
    rfl

/-- If the windows lie in order between others, then these others are gone. -/
theorem Hosted.onScreen (h : Hosted fs d) (hs : Sound d)
    (ht : Tracks fs (d.workspace.members manager) host) {below above : List String}
    (hstack : (display d.toolkit).stack = below ++ windowOrder d host ++ above) :
    (display d.toolkit).onScreen = windowOrder d host := by
  have hnodup := h.nodup_stack
  have hexists {id : String} (hid : id ∈ below ++ windowOrder d host ++ above) :
      ((display d.toolkit).look id).isSome ↔ id ∈ windowOrder d host :=
    h.exists_iff hs ht (hstack ▸ hid)
  rw [hstack] at hnodup
  obtain ⟨hbefore, -, hafter⟩ := List.nodup_append.mp hnodup
  obtain ⟨-, -, hbelow⟩ := List.nodup_append.mp hbefore
  have hnone : below.filter (fun id => ((display d.toolkit).look id).isSome) = [] := by
    refine List.filter_eq_nil_iff.mpr fun id hid hin => ?_
    have horder := (hexists (by simp [hid])).mp hin
    exact hbelow id hid id horder rfl
  have hnone' : above.filter (fun id => ((display d.toolkit).look id).isSome) = [] := by
    refine List.filter_eq_nil_iff.mpr fun id hid hin => ?_
    have horder := (hexists (by simp [hid])).mp hin
    exact hafter id (List.mem_append_right _ horder) id hid rfl
  have hall : (windowOrder d host).filter (fun id => ((display d.toolkit).look id).isSome) =
      windowOrder d host :=
    List.filter_eq_self.mpr fun id hid => (hexists (by simp [hid])).mpr hid
  rw [Display.onScreen, hstack, List.filter_append, List.filter_append, hnone, hall, hnone',
    List.nil_append, List.append_nil]

theorem Hosted.stack_focuses (h : Hosted fs d) (hs : Sound d)
    (ht : Tracks fs (d.workspace.members manager) host) {t : Platform.Toolkit}
    (hf : Focuses (windowOrder d host) d.toolkit t) : (display t).stack =
      (display d.toolkit).stack.filter (· ∉ windowOrder d host) ++ windowOrder d host := by
  have hsub : windowOrder d host ⊆ (display d.toolkit).stack := fun id hid => by
    obtain ⟨f, hf, -, hw⟩ := (mem_windowOrder h hs ht).mp hid
    exact h.mem_stack.mpr ⟨f, hf, hw⟩
  rw [hf.display, Display.foldl_raised h.nodup_stack (nodup_windowOrder h hs ht) hsub]

/-- The frames are kept while windows are focused in order. -/
theorem Hosted.focuses (h : Hosted fs d) (hs : Sound d)
    (ht : Tracks fs (d.workspace.members manager) host) {t : Platform.Toolkit}
    (hf : Focuses (windowOrder d host) d.toolkit t) :
    Hosted fs { d with
      toolkit := t, host := some { host with stacking := windowOrder d host } } := by
  have hissued {id : String} (hid : (display d.toolkit).issued id) : (display t).issued id :=
    hf.display ▸ hid
  have hstocked : Stocked { d with toolkit := t } :=
    h.stocked.toolkit (hf.inOrder h.stocked.inOrder) fun _ => hf.plain
  refine ⟨⟨hstocked.inOrder, hstocked.widgets, hstocked.items, hstocked.owned⟩,
    (congrArg Display.containers hf.display).trans h.outside,
    (congrArg Display.windows hf.display).trans h.windows,
    (congrArg Display.themes hf.display).trans h.themes, ?_,
    h.distinct, fun f hin id hid => hissued (h.issued f hin id hid), h.once, h.known, ?_, ?_,
    h.bound, h.built, h.silent, _, rfl, ⟨ht.known, ht.once, ht.covers, ht.apart⟩, _, [],
    by rw [List.append_nil]; exact h.stack_focuses hs ht hf, ?_⟩
  · change (display t).stack.Perm (display t).windows
    rw [hf.display]
    exact (Display.perm_foldl_raised _ _).trans h.stack
  · intro f hin hm
    exact (h.standing f hin hm).mono fun id _ ho _ => (congrFun hf.look id).trans ho
  · intro f hin hm id hid
    have hgone := h.fallen f hin hm id hid
    rwa [← hf.look] at hgone
  · intro id hid
    obtain ⟨hin, hnot⟩ := List.mem_filter.mp hid
    obtain ⟨f, hf', rfl⟩ := h.mem_stack.mp hin
    have hm : f.panel ∉ d.workspace.members manager := fun hm => by
      have horder := (mem_windowOrder h hs ht).mpr ⟨f, hf', hm, rfl⟩
      simp [horder] at hnot
    refine ⟨hissued (h.issued f hf' _ List.mem_cons_self), ?_⟩
    change (display t).look f.window = none
    rw [hf.look]
    exact h.fallen f hf' hm _ List.mem_cons_self

/-- The windows lie on the screen as the panels are stacked. -/
theorem restack_orders (h : Hosted fs d) (hs : Sound d) (hhost : d.host = some host) :
    ∃ t, restack.outcome d = (.ok (), { d with
        toolkit := t, host := some { host with stacking := windowOrder d host } }) ∧
      Hosted fs { d with
        toolkit := t, host := some { host with stacking := windowOrder d host } } ∧
      (display t).onScreen = windowOrder d host := by
  obtain ⟨host', hhost', ht, dead, above, hstack, hdead⟩ := h.host
  obtain rfl := Option.some.inj (hhost.symm.trans hhost')
  rw [outcome_restack hhost]
  split
  next hsame =>
    have hkept : { d with
        toolkit := d.toolkit, host := some { host with stacking := windowOrder d host } } = d := by
      rw [hsame, ← hhost]
    refine ⟨d.toolkit, by rw [hkept]; rfl, by rwa [hkept], ?_⟩
    exact h.onScreen hs ht (by rw [hsame, hstack])
  · have hchange :
        (changeHost fun host' => { host' with stacking := windowOrder d host }).outcome d =
      (.ok (), { d with host := some { host with stacking := windowOrder d host } }) :=
      outcome_changeHost hhost _
    obtain ⟨t, hfocus, hfocuses⟩ :=
      forM_focus (d := { d with host := some { host with stacking := windowOrder d host } })
        h.stocked.inOrder.valid (windowOrder d host)
    have hkept := h.focuses hs ht hfocuses
    have hkeeps : Keeps d { d with
        toolkit := t, host := some { host with stacking := windowOrder d host } } :=
      keeps_aside rfl rfl rfl rfl rfl
    have htracks : Tracks fs (d.workspace.members manager)
        { host with stacking := windowOrder d host } := ⟨ht.known, ht.once, ht.covers, ht.apart⟩
    have hstack : (display t).stack = (display d.toolkit).stack.filter (· ∉ windowOrder d host) ++
        windowOrder d host ++ [] := by
      rw [List.append_nil]
      exact h.stack_focuses hs ht hfocuses
    have hscreen := hkept.onScreen (hkeeps hs).1 htracks hstack
    refine ⟨t, ?_, hkept, hscreen⟩
    rw [outcome_bind_ok hchange, hfocus]

end Desk

end DebugDesk
