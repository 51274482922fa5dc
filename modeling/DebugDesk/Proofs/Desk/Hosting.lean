import DebugDesk.Proofs.Desk.Building
import DebugDesk.Proofs.Desk.Passing
import Mathlib.Data.List.Pairwise

/-!
# Frames of panels

The host makes a frame for a panel once: a window with a body, and a theme for each. The frame is
there for as long as the panel is managed, and is deleted when it is not any more.
-/
namespace DebugDesk

namespace Workspace

variable {α β : Type} {w w' : Workspace α β} {m i : Nat}

theorem mem_members_iff (h : ∃ S, w.Arranged S) :
    i ∈ w.members m ↔ ∃ p, w.panel? i = some p ∧ p.manager = some m := by
  obtain ⟨S, hS⟩ := h
  constructor
  · exact hS.mem_members
  · rintro ⟨p, hp, hm⟩
    exact (hS m).perm.mem_iff.mp ((hS.mem_iff hp).mpr hm)

theorem mem_partings {told : Parting β} :
    told ∈ w.partings i ↔ ∃ s, (i, s) ∈ w.signals ∧ s.parting? = some told := by
  simp only [partings, List.mem_filterMap, List.mem_filter, decide_eq_true_eq]
  constructor
  · rintro ⟨⟨j, s⟩, ⟨hs, rfl⟩, htold⟩
    exact ⟨s, hs, htold⟩
  · rintro ⟨s, hs, htold⟩
    exact ⟨(i, s), ⟨hs, rfl⟩, htold⟩

theorem destroyed_mem_iff : (i, .destroyed) ∈ w.signals ↔ .destroyed ∈ w.partings i := by
  rw [mem_partings]
  constructor
  · exact fun h => ⟨_, h, rfl⟩
  · rintro ⟨s, hs, htold⟩
    cases s with
    | destroyed => exact hs
    | _ => cases htold

theorem released_mem_iff {b : β} :
    (i, .released b) ∈ w.signals ↔ .released b ∈ w.partings i := by
  rw [mem_partings]
  constructor
  · exact fun h => ⟨_, h, rfl⟩
  · rintro ⟨s, hs, htold⟩
    cases s with
    | released b' =>
      cases htold
      exact hs
    | _ => cases htold

/-- What a change makes of a panel: it stays with its manager and keeps what is bound to it, or it
leaves and parts from everything. -/
inductive Fate (w w' : Workspace α β) (i : Nat) (p q : Panel α β) : Prop where
  | stays (manager : q.manager = p.manager) (bindings : q.bindings = p.bindings)
      (told : w'.partings i = [])
  | leaves (manager : q.manager = none) (bindings : q.bindings = [])
      (told : w'.partings i = .destroyed :: p.bindings.map .released)

theorem Fares.fate (h : w.Fares w') (hq : w.signals = []) {p : Panel α β}
    (hp : w.panel? i = some p) : ∃ q, w'.panel? i = some q ∧ w.Fate w' i p q := by
  have hbefore : w.partings i = [] := by simp [partings, hq]
  obtain ⟨q, told, hq, htold, hpq⟩ := h.panels i p hp
  rw [hbefore, List.nil_append] at htold
  refine ⟨q, hq, ?_⟩
  cases hpq with
  | stays tenure =>
    exact .stays (congrArg Panel.Tenure.manager tenure) (congrArg Panel.Tenure.bindings tenure)
      htold
  | leaves m was tenure =>
    exact .leaves (congrArg Panel.Tenure.manager tenure) (congrArg Panel.Tenure.bindings tenure)
      htold

/-- A panel that is managed as before is told of no parting. -/
theorem Fares.kept (h : w.Fares w') (hq : w.signals = []) (ha : ∃ S, w.Arranged S)
    (ha' : ∃ S, w'.Arranged S) (hm : i ∈ w.members m) (hm' : i ∈ w'.members m) :
    w'.partings i = [] := by
  obtain ⟨p, hp, -⟩ := (mem_members_iff ha).mp hm
  obtain ⟨q, hq', hfate⟩ := h.fate hq hp
  obtain ⟨q', hq'', hmanager⟩ := (mem_members_iff ha').mp hm'
  obtain rfl := Option.some.inj (hq'.symm.trans hq'')
  cases hfate with
  | stays _ _ told => exact told
  | leaves manager _ _ => cases hmanager.symm.trans manager

/-- A panel that is not managed any more parts from everything. -/
theorem Fares.parted (h : w.Fares w') (hq : w.signals = []) (ha : ∃ S, w.Arranged S)
    (ha' : ∃ S, w'.Arranged S) (hm : i ∈ w.members m) (hm' : i ∉ w'.members m) :
    ∃ p, w.panel? i = some p ∧ w'.partings i = .destroyed :: p.bindings.map .released := by
  obtain ⟨p, hp, hmanager⟩ := (mem_members_iff ha).mp hm
  obtain ⟨q, hq', hfate⟩ := h.fate hq hp
  refine ⟨p, hp, ?_⟩
  cases hfate with
  | stays manager _ _ =>
    exact absurd ((mem_members_iff ha').mpr ⟨q, hq', manager.trans hmanager⟩) hm'
  | leaves _ _ told => exact told

end Workspace

namespace Desk

open Effect Toolkit
open Display (Spares frameKinds)

variable [Platform]

/-- The frame of a panel: its window with a body, and a theme for each. -/
structure PanelFrame where
  panel : Nat
  window : String
  body : String
  windowTheme : String
  bodyTheme : String

namespace PanelFrame

def binding (f : PanelFrame) : Binding := .window f.window f.windowTheme f.bodyTheme

def themes (f : PanelFrame) : List String := [f.windowTheme, f.bodyTheme]

/-- The items that are made by themselves, and deleted one by one. -/
def roots (f : PanelFrame) : List String := f.window :: f.themes

structure Stands (f : PanelFrame) (s : Display) : Prop where
  window : s.look f.window = some ⟨"window", none⟩
  body : s.look f.body = some ⟨"child_window", some f.window⟩
  themes : ∀ id ∈ f.themes, s.look id = some ⟨"theme", none⟩

def Fell (f : PanelFrame) (s : Display) : Prop := ∀ id ∈ f.roots, s.look id = none

end PanelFrame

def Binding.isWindow : Binding → Bool
  | .window .. => true
  | .requests _ => false

def tracked (d : Desk) : List Platform.Address :=
  ((d.host.map PanelHost.windows).getD []).map Prod.fst

/-- In a place there is no managed panel, and the host has forgotten the last one. -/
structure Vacant (d : Desk) (place : Platform.Address) : Prop where
  free : place ∉ (d.workspace.members manager).map Platform.address
  forgotten : place ∉ d.tracked

/-- A window that is kept for a place is that of a frame, whose panel was there. If a managed panel
is there now, then it is that one. -/
structure Kept (fs : List PanelFrame) (members : List Nat) (x : Platform.Address × PanelWindow)
    (f : PanelFrame) : Prop where
  frame : f ∈ fs
  place : x.1 = Platform.address f.panel
  window : x.2.window = f.window
  body : x.2.body = f.body
  alone : ∀ i ∈ members, Platform.address i = x.1 → i = f.panel

/-- The windows that the host keeps are those of frames, those of all managed panels among them. -/
structure Tracks (fs : List PanelFrame) (members : List Nat) (host : PanelHost) : Prop where
  known : ∀ x ∈ host.windows, ∃ f, Kept fs members x f
  once : (host.windows.map Prod.fst).Nodup
  covers : ∀ f ∈ fs, f.panel ∈ members → Platform.address f.panel ∈ host.windows.map Prod.fst
  /-- No two managed panels are in one place. -/
  apart : (members.map Platform.address).Nodup

/-- On top of the windows that are gone lie those that were stacked last, and then new ones. -/
def Layered (host : PanelHost) (s : Display) : Prop :=
  ∃ dead new, s.stack = dead ++ host.stacking ++ new ∧ ∀ id ∈ dead, s.issued id ∧ s.look id = none

variable {d d' : Desk} {fs : List PanelFrame} {f g : PanelFrame} {i : Nat}
  {w : Workspace Float Binding}

omit [Platform] in
theorem PanelFrame.Stands.look {s : Display} (h : f.Stands s) {id : String}
    (hid : id ∈ f.roots) : ∃ kind, s.look id = some ⟨kind, none⟩ ∧ kind ∈ frameKinds := by
  rcases List.mem_cons.mp hid with rfl | hid
  · exact ⟨"window", h.window, by decide⟩
  · exact ⟨"theme", h.themes id hid, by decide⟩

theorem Layered.reframes {host : PanelHost} {s s' : Display}
    {windows themes gone : List String} (h : Layered host s)
    (hs : s.Reframes windows themes gone s') : Layered host s' := by
  obtain ⟨dead, new, hstack, hdead⟩ := h
  refine ⟨dead, new ++ windows, by rw [hs.stack, hstack, List.append_assoc], fun id hid => ?_⟩
  obtain ⟨hissued, hnone⟩ := hdead id hid
  exact ⟨hs.issued id hissued, hs.ends id hissued hnone⟩

omit [Platform] in
theorem PanelFrame.Stands.mono {s s' : Display} (h : f.Stands s)
    (hstays : ∀ id o, s.look id = some o → o.kind ∈ frameKinds → s'.look id = some o) :
    f.Stands s' :=
  ⟨hstays _ _ h.window (by decide), hstays _ _ h.body (by simp [frameKinds]),
    fun id hid => hstays _ _ (h.themes id hid) (by decide)⟩

omit [Platform] in
/-- A frame stands as long as none of its items is deleted. -/
theorem PanelFrame.Stands.spared {s s' : Display} {windows themes gone : List String}
    (h : f.Stands s) (hs : s.Reframes windows themes gone s') (hroots : ∀ id ∈ f.roots, id ∉ gone)
    (hbody : f.body ∉ gone) : f.Stands s' := by
  have hwindow : f.window ∉ gone := hroots _ List.mem_cons_self
  refine ⟨hs.stays _ _ h.window (by decide) hwindow (by simp), ?_, fun id hid => ?_⟩
  · refine hs.stays _ _ h.body (by simp [frameKinds]) hbody fun id hid he => ?_
    exact hwindow (Option.some.inj he ▸ hid)
  · exact hs.stays _ _ (h.themes id hid) (by decide) (hroots _ (List.mem_cons_of_mem _ hid))
      (by simp)

omit [Platform] in
theorem PanelFrame.Stands.reframes {s s' : Display} {windows themes : List String}
    (h : f.Stands s) (hs : s.Reframes windows themes [] s') : f.Stands s' :=
  h.spared hs (by simp) (by simp)

theorem Tracks.fewer {members members' : List Nat} {host : PanelHost}
    (h : Tracks fs members host) (hm : members'.Sublist members) : Tracks fs members' host := by
  refine ⟨fun x hx => ?_, h.once, fun f hf hin => h.covers f hf (hm.subset hin),
    h.apart.sublist (hm.map _)⟩
  obtain ⟨f, hkept⟩ := h.known x hx
  exact ⟨f, hkept.frame, hkept.place, hkept.window, hkept.body,
    fun i hi => hkept.alone i (hm.subset hi)⟩

variable [LawfulGui Platform.Toolkit Handler]

/-- The frames that were made so far, and what there is of them on a desk. -/
structure Hosted (fs : List PanelFrame) (d : Desk) : Prop where
  stocked : Stocked d
  outside : (display d.toolkit).containers = []
  windows : (display d.toolkit).windows = fs.map PanelFrame.window
  themes : (display d.toolkit).themes = fs.flatMap PanelFrame.themes
  stack : (display d.toolkit).stack.Perm (display d.toolkit).windows
  distinct : (fs.flatMap PanelFrame.roots).Nodup
  issued : ∀ f ∈ fs, ∀ id ∈ f.roots, (display d.toolkit).issued id
  once : (fs.map PanelFrame.panel).Nodup
  known : ∀ f ∈ fs, f.panel < d.workspace.panels.length
  standing : ∀ f ∈ fs, f.panel ∈ d.workspace.members manager → f.Stands (display d.toolkit)
  fallen : ∀ f ∈ fs, f.panel ∉ d.workspace.members manager → f.Fell (display d.toolkit)
  bound : ∀ i p, d.workspace.panel? i = some p → p.bindings.filter Binding.isWindow =
    (fs.filter fun f => f.panel = i ∧ i ∈ d.workspace.members manager).map PanelFrame.binding
  built : ∀ f ∈ fs, f.panel ∈ d.workspace.members manager → Built d f.panel
  /-- Contents of panels that are not managed take no input. -/
  silent : ∀ i, i ∉ d.workspace.members manager → d.input? i = none
  host : ∃ host, d.host = some host ∧ Tracks fs (d.workspace.members manager) host ∧
    Layered host (display d.toolkit)

theorem Hosted.disjoint (h : Hosted fs d) (hf : f ∈ fs) (hg : g ∈ fs) (hne : f.panel ≠ g.panel)
    {id : String} (hid : id ∈ f.roots) : id ∉ g.roots := by
  have : Std.Symm (Function.onFun List.Disjoint PanelFrame.roots) :=
    ⟨fun _ _ hd _ ha hb => hd hb ha⟩
  obtain ⟨-, hpairwise⟩ := List.nodup_flatMap.mp h.distinct
  have hdisjoint := hpairwise.forall hf hg fun he => hne (congrArg PanelFrame.panel he)
  exact fun hid' => hdisjoint hid hid'

/-- The frames are kept where windows and themes are left alone and panels show what they did. -/
theorem Hosted.of_spares (h : Hosted fs d) (hs : Stocked d')
    (ht : (display d.toolkit).Spares (display d'.toolkit))
    (hin : (display d'.toolkit).containers = (display d.toolkit).containers) (hh : d'.host = d.host)
    (hp : d'.workspace.panels = d.workspace.panels)
    (hm : d'.workspace.managers = d.workspace.managers) (hc : d'.contents = d.contents)
    (hi : ∀ i, i ∉ d.workspace.members manager → d'.input? i = d.input? i) : Hosted fs d' := by
  have hpanel (i : Nat) : d'.workspace.panel? i = d.workspace.panel? i := by
    rw [Workspace.panel?, hp, Workspace.panel?]
  have hmembers : d'.workspace.members manager = d.workspace.members manager := by
    rw [Workspace.members, hm, Workspace.members]
  have hbuilt (i : Nat) : Built d' i ↔ Built d i := by rw [Built, Built, hc]
  obtain ⟨host, hhost, htracks, hlayered⟩ := h.host
  refine ⟨hs, hin.trans h.outside, ?_, ?_, ?_, h.distinct,
    fun f hf id hid => ht.issued id (h.issued f hf id hid), h.once, ?_, ?_, ?_, ?_, ?_, ?_,
    host, hh.trans hhost, ?_, hlayered.reframes ht⟩
  · rw [ht.windows, List.append_nil, h.windows]
  · rw [ht.themes, List.append_nil, h.themes]
  · rw [ht.stack, ht.windows, List.append_nil, List.append_nil]
    exact h.stack
  · rw [hp]
    exact h.known
  · rw [hmembers]
    exact fun f hf hm => (h.standing f hf hm).reframes ht
  · rw [hmembers]
    exact fun f hf hm id hid => ht.ends id (h.issued f hf id hid) (h.fallen f hf hm id hid)
  · simp only [hpanel, hmembers]
    exact h.bound
  · simp only [hbuilt, hmembers]
    exact h.built
  · rw [hmembers]
    exact fun i hout => (hi i hout).trans (h.silent i hout)
  · rw [hmembers]
    exact htracks

/-- What is deleted when signals are passed on belongs to frames of panels that leave. -/
theorem Hosted.of_gone (h : Hosted fs d) (hquiet : d.workspace.signals = [])
    (hf : d.workspace.Fares w) {id : String} (hid : id ∈ w.signals.flatMap goneBy) :
    ∃ g ∈ fs, id ∈ g.roots ∧ g.panel ∈ d.workspace.members manager ∧
      ∀ q, w.panel? g.panel = some q → q.manager = none := by
  obtain ⟨⟨j, s⟩, hs, hid⟩ := List.mem_flatMap.mp hid
  cases s with
  | released b =>
    have hreleased := Workspace.released_mem_iff.mp hs
    cases hp : d.workspace.panel? j with
    | none =>
      rw [(hf.others j hp).2] at hreleased
      simp [Workspace.partings, hquiet] at hreleased
    | some p =>
      obtain ⟨q, hq, hfate⟩ := hf.fate hquiet hp
      cases hfate with
      | stays manager bindings told =>
        rw [told] at hreleased
        cases hreleased
      | leaves manager bindings told =>
        have hb : b ∈ p.bindings := by
          rw [told] at hreleased
          simpa using hreleased
        have hwindow : b.isWindow = true := by
          cases b with
          | window => rfl
          | requests => cases hid
        have hbound : b ∈ p.bindings.filter Binding.isWindow :=
          List.mem_filter.mpr ⟨hb, hwindow⟩
        rw [h.bound j p hp] at hbound
        obtain ⟨g, hg, rfl⟩ := List.mem_map.mp hbound
        simp only [List.mem_filter, decide_eq_true_eq] at hg
        obtain ⟨hg, rfl, hmember⟩ := hg
        refine ⟨g, hg, hid, hmember, fun q' hq' => ?_⟩
        obtain rfl := Option.some.inj (hq.symm.trans hq')
        exact manager
  | _ => cases hid

/-- Frames of panels that stay are not deleted. -/
theorem Hosted.spared (h : Hosted fs d) (hsound : Sound d) (hw : d.workspace.Wanes w)
    (hf : d.workspace.Fares w) (hin : f ∈ fs) (hm : f.panel ∈ w.members manager) :
    (∀ id ∈ f.roots, id ∉ w.signals.flatMap goneBy) ∧ f.body ∉ w.signals.flatMap goneBy := by
  have hstands := h.standing f hin ((hw.members manager).subset hm)
  obtain ⟨q, hq, hmanager⟩ := (Workspace.mem_members_iff (hw.arranged hsound.arranged)).mp hm
  refine ⟨fun id hid hgone => ?_, fun hgone => ?_⟩
  · obtain ⟨g, hg, hroot, -, hleft⟩ := h.of_gone hsound.quiet hf hgone
    refine h.disjoint hin hg (fun he => ?_) hid hroot
    have hnone := hleft q (he ▸ hq)
    cases hmanager.symm.trans hnone
  · obtain ⟨g, hg, hroot, hmember, -⟩ := h.of_gone hsound.quiet hf hgone
    obtain ⟨kind, hlook, -⟩ := (h.standing g hg hmember).look hroot
    cases hstands.body.symm.trans hlook

/-- The frame of a panel that leaves is deleted. -/
theorem Hosted.left (h : Hosted fs d) (hsound : Sound d) (hw : d.workspace.Wanes w)
    (hf : d.workspace.Fares w) (hin : f ∈ fs) (hbefore : f.panel ∈ d.workspace.members manager)
    (hafter : f.panel ∉ w.members manager) : ∀ id ∈ f.roots, id ∈ w.signals.flatMap goneBy := by
  obtain ⟨p, hp, told⟩ :=
    hf.parted hsound.quiet hsound.arranged (hw.arranged hsound.arranged) hbefore hafter
  have hbound : f.binding ∈ p.bindings.filter Binding.isWindow := by
    rw [h.bound f.panel p hp]
    exact List.mem_map_of_mem (List.mem_filter.mpr ⟨hin, by simp [hbefore]⟩)
  have hreleased : (f.panel, .released f.binding) ∈ w.signals := by
    rw [Workspace.released_mem_iff, told]
    exact List.mem_cons_of_mem _ (List.mem_map_of_mem (List.mem_filter.mp hbound).1)
  exact fun id hid => List.mem_flatMap.mpr ⟨_, hreleased, hid⟩

/-- What is still bound to panels are the frames of those that stay. -/
theorem Hosted.still_bound (h : Hosted fs d) (hsound : Sound d) (hw : d.workspace.Wanes w)
    (hf : d.workspace.Fares w) {q : Panel Float Binding} (hq : w.panel? i = some q) :
    q.bindings.filter Binding.isWindow =
      (fs.filter fun f => f.panel = i ∧ i ∈ w.members manager).map PanelFrame.binding := by
  have hbefore := Workspace.mem_members_iff (m := manager) (i := i) hsound.arranged
  have hafter := Workspace.mem_members_iff (m := manager) (i := i) (hw.arranged hsound.arranged)
  cases hp : d.workspace.panel? i with
  | none => cases (hf.others i hp).1.symm.trans hq
  | some p =>
    obtain ⟨q', hq', hfate⟩ := hf.fate hsound.quiet hp
    obtain rfl := Option.some.inj (hq'.symm.trans hq)
    cases hfate with
    | stays manager bindings told =>
      have hsame : i ∈ w.members Desk.manager ↔ i ∈ d.workspace.members Desk.manager := by
        rw [hafter, hbefore, hp, hq']
        simp [manager]
      rw [bindings, h.bound i p hp]
      simp only [hsame]
    | leaves manager bindings told =>
      have hout : i ∉ w.members Desk.manager := by
        rw [hafter, hq']
        simp [manager]
      simp [bindings, hout]

/-- What a change of the workspace makes of the frames, once its signals are passed on. -/
theorem Hosted.passes (h : Hosted fs d) (hsound : Sound d) (hw : d.workspace.Wanes w)
    (hf : d.workspace.Fares w)
    (hp : Passes w.signals { d with workspace := w.takeSignals.2 } d') : Hosted fs d' := by
  have hpanel (i : Nat) : d'.workspace.panel? i = w.panel? i := by rw [hp.workspace]; rfl
  have hmembers : d'.workspace.members manager = w.members manager := by rw [hp.workspace]; rfl
  have hfewer : w.members manager ⊆ d.workspace.members manager := (hw.members manager).subset
  have harranged := hw.arranged hsound.arranged
  have hstack := hp.toolkit.stack
  rw [List.append_nil] at hstack
  obtain ⟨host, hhost, htracks, hlayered⟩ := h.host
  refine ⟨hp.stocked, hp.containers.trans h.outside, ?_, ?_, ?_, h.distinct,
    fun f hin id hid => hp.toolkit.issued id (h.issued f hin id hid), h.once, ?_, ?_, ?_, ?_, ?_,
    ?_,
    host, hp.host.trans hhost, ?_, hlayered.reframes hp.toolkit⟩
  · rw [hp.toolkit.windows, List.append_nil]
    exact h.windows
  · rw [hp.toolkit.themes, List.append_nil]
    exact h.themes
  · rw [hp.toolkit.windows, List.append_nil, hstack]
    exact h.stack
  · intro f hin
    rw [hp.workspace]
    exact Nat.lt_of_lt_of_eq (h.known f hin) hw.count.symm
  · rw [hmembers]
    intro f hin hm
    obtain ⟨hroots, hbody⟩ := h.spared hsound hw hf hin hm
    exact (h.standing f hin (hfewer hm)).spared hp.toolkit hroots hbody
  · rw [hmembers]
    intro f hin hm id hid
    by_cases hm' : f.panel ∈ d.workspace.members manager
    · exact hp.toolkit.deleted id (h.left hsound hw hf hin hm' hm id hid) (h.issued f hin id hid)
    · exact hp.toolkit.ends id (h.issued f hin id hid) (h.fallen f hin hm' id hid)
  · intro i q hq
    rw [hpanel] at hq
    rw [hmembers]
    exact h.still_bound hsound hw hf hq
  · rw [hmembers]
    intro f hin hm c hc
    have hnot : (f.panel, .destroyed) ∉ w.signals := by
      rw [Workspace.destroyed_mem_iff,
        hf.kept hsound.quiet hsound.arranged harranged (hfewer hm) hm]
      simp
    rw [hp.contents f.panel hnot] at hc
    exact h.built f hin (hfewer hm) c hc
  · rw [hmembers]
    intro i hi
    by_cases hi' : i ∈ d.workspace.members manager
    · obtain ⟨p, -, told⟩ := hf.parted hsound.quiet hsound.arranged harranged hi' hi
      refine hp.silenced i ?_
      rw [Workspace.destroyed_mem_iff, told]
      exact List.mem_cons_self
    · exact hp.hush i (h.silent i hi')
  · rw [hmembers]
    exact htracks.fewer (hw.members manager)

end Desk

end DebugDesk
