import DebugDesk.Proofs.App.Descriptions
import DebugDesk.Proofs.Desk.Tending

/-!
# Fetched graphs

A fetch takes its time, and anything may happen to its panel meanwhile. The graphs of the program
and of its panels are replaced only by answers that are handed over, and those were fetched for
panels that are managed still.
-/
namespace DebugDesk.Desk

open Effect

variable [Platform] {d d' : Desk} {panel : Nat}

def graphOf (d : Desk) (panel : Nat) : Option Nat :=
  ((d.contents[panel]?).bind Content.graph?).join

/-- All graphs are what they were; panels may have been added. -/
structure SameGraphs (d d' : Desk) : Prop where
  graph : d'.graph = d.graph
  count : d.contents.length ≤ d'.contents.length
  panels : ∀ i < d.contents.length, d'.graphOf i = d.graphOf i

theorem SameGraphs.of_contents (hc : d'.contents = d.contents) (hg : d'.graph = d.graph) :
    SameGraphs d d' :=
  ⟨hg, Nat.le_of_eq (by rw [hc]), fun i _ => by rw [graphOf, hc, graphOf]⟩

theorem SameGraphs.add {c : Content} (hc : d'.contents = d.contents ++ [c])
    (hg : d'.graph = d.graph) : SameGraphs d d' := by
  refine ⟨hg, by simp [hc], fun i hi => ?_⟩
  rw [graphOf, hc, List.getElem?_append_left hi, graphOf]

theorem SameGraphs.trans {d'' : Desk} (h : SameGraphs d d') (h' : SameGraphs d' d'') :
    SameGraphs d d'' :=
  ⟨h'.graph.trans h.graph, Nat.le_trans h.count h'.count, fun i hi =>
    (h'.panels i (Nat.lt_of_lt_of_le hi h.count)).trans (h.panels i hi)⟩

theorem graphOf_of_some {c : Content} (h : d.contents[panel]? = some c) :
    d.graphOf panel = c.graph?.join := by rw [graphOf, h, Option.bind_some]

instance : Lenient SameGraphs where
  refl _ := .of_contents rfl rfl
  trans _ _ _ := .trans
  aside d d' _ hc _ hg := .of_contents hc hg
  content d₀ d panel c c' hQ hc hg := by
    refine ⟨rfl, Nat.le_of_eq (List.length_set ..).symm, fun i hi => ?_⟩
    by_cases h : panel = i
    · subst h
      obtain ⟨hlt, -⟩ := List.getElem?_eq_some_iff.mp hc
      have hnew : (d.contents.set panel c')[panel]? = some c' := List.getElem?_set_self hi
      rw [graphOf_of_some (d := { d with contents := d.contents.set panel c' }) hnew, hg,
        hQ.panels panel hlt, graphOf_of_some hc]
    · rw [graphOf, List.getElem?_set_ne h, graphOf]

instance : Enduring SameGraphs where
  bind _ _ _ := .of_contents rfl rfl
  call c d _ := .of_contents (c.aside d).contents (c.aside d).graph
  pass _ _ h hw _ :=
    (passAll_keeps (fun c d _ => .of_contents (c.aside d).contents (c.aside d).graph) hw
      (fun _ => .of_contents rfl rfl) h).2.also

end DebugDesk.Desk

namespace DebugDesk.App

open Desk Effect

variable [Platform] {d d' : Desk} {panel : Nat} {title : String} {Q : Desk → Desk → Prop}

theorem ties?_withBoundPanel (p : Panel Float Binding) (c : Content) (d : Desk) (j : Nat) :
    (withBoundPanel p c d).workspace.ties? j =
      if d.workspace.panels.length = j then
        some ⟨p.title, some manager, p.bindings ++ [.requests d.workspace.panels.length]⟩
      else d.workspace.ties? j := by
  rw [withBoundPanel, Workspace.ties?_bind, ties?_withPanel]
  split
  · rfl
  · simp

theorem ties?_length (d : Desk) : d.workspace.ties? d.workspace.panels.length = none := by
  simp [Workspace.ties?, Workspace.panel?]

/-- A relation that also stands new panels, and fetches for managed panels of graphs. -/
class Hospitable (Q : Desk → Desk → Prop) : Prop extends Enduring Q where
  raise : ∀ (d : Desk) (panel : Nat), Q d { d with workspace := d.workspace.raise manager panel }
  add : ∀ (d : Desk) (p : Panel Float Binding) (c : Content), p.title ≠ graphTitle →
    Q d (withPanel p c d)
  addBound : ∀ (d : Desk) (p : Panel Float Binding) (c : Content), Q d (withBoundPanel p c d)
  fetch : ∀ (d : Desk) (panel : Nat), Held graphTitle d.workspace panel →
    Q d ((fetchFor panel).outcome d).2

theorem OpensGraph.held {r : Except Fault Nat × Desk} (h : OpensGraph d r)
    (hr : r.1 = .ok panel) : Held graphTitle r.2.workspace panel := by
  cases h with
  | focused panel' p made managed titled =>
    cases hr
    refine ⟨p.ties, ?_, titled, managed⟩
    rw [Workspace.ties?_raise, Workspace.ties?, made, Option.map_some]
  | failed fault => cases hr
  | added p c titled =>
    cases hr
    refine ⟨_, (ties?_withBoundPanel p c d _).trans (if_pos rfl), titled, rfl⟩

section

variable [Hospitable Q]

theorem OpensGraph.also {r : Except Fault Nat × Desk} (h : OpensGraph d r) : Q d r.2 := by
  cases h with
  | focused panel p made managed titled => exact Hospitable.raise d panel
  | failed fault => exact refl_of Q d
  | added p c titled => exact Hospitable.addBound d p c

theorem openPanel_also (h : Sound d) (ht : title ≠ graphTitle) (size : Float × Float)
    (c : Content) : Q d ((openPanel title size c).outcome d).2 := by
  have hopens := openPanel_opens h title size c
  generalize (openPanel title size c).outcome d = r at hopens ⊢
  cases hopens with
  | focused panel p found made managed titled => exact Hospitable.raise d panel
  | failed fault missed => exact refl_of Q d
  | added offset missed => exact Hospitable.add d (newPanel title offset size) c ht

theorem fetchGraph_also (h : Sound d) : Q d ((perform .fetchGraph).outcome d).2 := by
  have hopens := openGraph_opens h
  rw [perform]
  refine related_bind hopens.also fun panel d' ho => ?_
  rw [ho] at hopens
  exact Hospitable.fetch d' panel (hopens.held rfl)

/-- Whatever an item of the menu does. -/
theorem perform_also (h : Sound d) (action : MenuAction) :
    Q d ((perform action).outcome d).2 := by
  cases ht : action.title? with
  | none => exact (perform_keeps ht d h).2.also
  | some title =>
    cases action with
    | openGraph =>
      rw [perform, outcome_bind_pure]
      exact (openGraph_opens h).also
    | openClock =>
      rw [perform, openClock, outcome_bind_pure]
      exact openPanel_also h (by decide) _ _
    | openLog =>
      rw [perform, openLog, outcome_bind_pure]
      exact openPanel_also h (by decide) _ _
    | fetchGraph => exact fetchGraph_also h
    | exit => cases ht
    | closePanels => cases ht
    | ping => cases ht

end

instance : Hospitable SameGraphs where
  raise _ _ := .of_contents rfl rfl
  add _ _ _ _ := .add rfl rfl
  addBound _ _ _ := .add rfl rfl
  fetch d panel _ :=
    have haside := request_aside ⟨.str "graph", .null, some panel, some panel, false⟩ d
    .of_contents haside.contents haside.graph

instance : Hospitable (Tends graphTitle) where
  raise d panel h := h.of_ties (d.workspace.ties?_raise manager panel) (calms_of_transport rfl)
  add d p c ht h := h.add (ties?_length d) (ties?_withPanel p c d) rfl fun he => absurd he ht
  addBound d p c h := h.add (ties?_length d) (ties?_withBoundPanel p c d) rfl fun _ => by simp
  fetch _ _ := fetchFor_tends

theorem Gone.add {t : Panel.Ties Binding} (h : Gone panel d)
    (hties : d'.workspace.ties? panel =
      if d.workspace.panels.length = panel then some t else d.workspace.ties? panel) :
    Gone panel d' := by
  refine h.of_ties (hties.trans (if_neg fun he => ?_))
  obtain ⟨t, ht, -⟩ := h
  rw [← he, ties?_length] at ht
  cases ht

instance : Hospitable (StaysGone panel) where
  raise d i h := h.of_ties (d.workspace.ties?_raise manager i panel)
  add d p c _ h := Gone.add h (ties?_withPanel p c d panel)
  addBound d p c h := Gone.add h (ties?_withBoundPanel p c d panel)
  fetch d i _ h := h.of_ties (by rw [fetchFor, (request_aside _ d).workspace])

inductive Occurrence where
  | move (move : Move)
  | call (call : Call)
  | remove (panel : Nat)

def Occurrence.effect : Occurrence → Effect Desk Unit
  | .move m => m.effect
  | .call c => c.effect
  | .remove panel => removePanel panel

/-- The desk after an occurrence, whether it fails or not. -/
def Occurrence.next (o : Occurrence) (d : Desk) : Desk := (o.effect.outcome d).2

def goOn (d : Desk) (os : List Occurrence) : Desk := os.foldl (fun d o => o.next d) d

theorem Occurrence.ready (h : Ready d) (o : Occurrence) : Ready (o.next d) := by
  cases o with
  | move m => exact ready_next h m
  | call c => exact h.keeps (c.keeps d)
  | remove panel => exact h.keeps (removePanel_keeps panel d)

theorem Occurrence.also [Hospitable Q] (h : Ready d) (o : Occurrence)
    (hpoll : o = .move .poll → link.poll.Respects (KeepsAlso Q)) : Q d (o.next d) := by
  cases o with
  | move m =>
    cases hc : chosen? d m with
    | none => exact (next_also hc (fun hm => hpoll (by rw [hm])) h.toSound).2.also
    | some action =>
      change Q d (m.next d)
      rw [next_eq hc]
      exact perform_also h.toSound action
  | call c => exact (call_keeps_also c d h.toSound).2.also
  | remove panel => exact (removePanel_keeps panel d h.toSound).2.also

theorem ready_goOn (h : Ready d) (os : List Occurrence) : Ready (goOn d os) := by
  induction os generalizing d with
  | nil => exact h
  | cons o rest ih => exact ih (o.ready h)

theorem goOn_also [Hospitable Q] (hpoll : link.poll.Respects (KeepsAlso Q)) (h : Ready d)
    (os : List Occurrence) : Q d (goOn d os) := by
  induction os generalizing d with
  | nil => exact refl_of Q d
  | cons o rest ih => exact trans_of Q (o.also h fun _ => hpoll) (ih (o.ready h))

theorem tended_desk (replies : List (Except Fault Reply)) :
    Tended graphTitle { App.desk with replies } := by
  refine ⟨HostTransport.tidy_make .., fun panel hp => ?_, fun panel t ht => ?_⟩
  · exact absurd hp (HostTransport.not_awaits_make _ _ _ _)
  · simp [Workspace.ties?, Workspace.panel?, App.desk, Desk.empty, Workspace.make] at ht

theorem tended_begun (s : Arguments.Start) (text : Option String)
    (replies : List (Except Fault Reply)) : Tended graphTitle (begun s text replies) := by
  obtain ⟨d, hbefore, hrest⟩ := begun_also (Q := Tends graphTitle)
    (fun d address h => ⟨HostTransport.tidy_make .., fun panel hp =>
      absurd hp (HostTransport.not_awaits_make _ _ _ _), h.bound⟩)
    (fun d graphs graph h => h.settles ⟨rfl, calms_of_transport rfl⟩) s text replies
  have hready : Ready d := (ready_desk replies).keeps (keeps_only hbefore)
  have htended : Tended graphTitle d :=
    (hbefore (ready_desk replies).toSound).2.also (tended_desk replies)
  rcases hrest with hrest | hrest
  · exact hrest ▸ htended
  · have hopened := (openGraph_opens hready.toSound).also (Q := Tends graphTitle)
    exact (hrest (openGraph_shows hready).ready.toSound).2.also (hopened htended)

theorem tended_goOn (s : Arguments.Start) (text : Option String)
    (replies : List (Except Fault Reply)) (os : List Occurrence) :
    Tended graphTitle (goOn (begun s text replies) os) :=
  goOn_also (Q := Tends graphTitle) poll_tends (ready_begun s text replies) os
    (tended_begun s text replies)

/-- The desk after answers that were queued are handed over, up to the first that fails. -/
def handOver (d : Desk) (answers : List (Response Nat Nat)) : Desk :=
  ((answers.forM fun r => showAnswer r.callback r.content).outcome
    { d with transport := d.transport.emptyQueue }).2

theorem next_poll (d : Desk) : Move.poll.next d = handOver d d.transport.queue := by
  rw [Move.next, Move.effect, outcome_bind_pure, outcome_poll, outcome_bind_pure]
  rfl

theorem handOver_settles (d : Desk) (answers : List (Response Nat Nat)) :
    Settles d (handOver d answers) := by
  have hall : (answers.forM fun r => showAnswer r.callback r.content).Respects Settles :=
    .forM _ fun r _ => showAnswer_settles r.callback r.content
  exact trans_of Settles (emptyQueue_settles d) (hall _)

theorem handOver_keeps (d : Desk) (answers : List (Response Nat Nat)) :
    Keeps d (handOver d answers) := by
  have hall : (answers.forM fun r => showAnswer r.callback r.content).Respects Keeps :=
    .forM _ fun r _ => showAnswer_keeps r.callback r.content
  exact trans_of Keeps (emptyQueue_keeps d) (hall _)

/-- One more answer is handed over unless one of those before failed. -/
theorem handOver_append (d : Desk) (before : List (Response Nat Nat)) (r : Response Nat Nat) :
    handOver d (before ++ [r]) = handOver d before ∨
      handOver d (before ++ [r]) =
        ((showAnswer r.callback r.content).outcome (handOver d before)).2 := by
  have happend : ((before ++ [r]).forM fun r => showAnswer r.callback r.content) = (do
      before.forM fun r => showAnswer r.callback r.content
      [r].forM fun r => showAnswer r.callback r.content : Effect Desk Unit) := List.forM_append
  rw [handOver, happend]
  rcases ho : (before.forM fun r => showAnswer r.callback r.content).outcome
    { d with transport := d.transport.emptyQueue } with ⟨fault | _, d'⟩
  · rw [outcome_bind_error ho, handOver, ho]
    exact .inl rfl
  · rw [outcome_bind_ok ho, handOver, ho, forM_cons]
    exact .inr (outcome_bind_pure _ _ d')

/-- What becomes of an answer that is handed over after others: nothing, or its graph is installed
in the panel that asked for it. That panel is managed. -/
structure HandsOver (d : Desk) (before : List (Response Nat Nat)) (r : Response Nat Nat) :
    Prop where
  owner : r.owner = some r.callback
  managed : (handOver d before).workspace.isManagedBy manager r.callback = true
  graphs : handOver d (before ++ [r]) = handOver d before ∨
    ∃ description, descriptionIn r.content = some description ∧
      Installs description r.callback (handOver d before) (handOver d (before ++ [r]))

omit [Platform] in
theorem panel?_of_ties {w : Workspace Float Binding} {t : Panel.Ties Binding}
    (h : w.ties? panel = some t) : ∃ p, w.panel? panel = some p ∧ p.manager = t.manager := by
  obtain ⟨p, hp, rfl⟩ := Option.map_eq_some_iff.mp h
  exact ⟨p, hp, rfl⟩

omit [Platform] in
theorem isManagedBy_of_held {w : Workspace Float Binding} (h : Held title w panel) :
    w.isManagedBy manager panel = true := by
  obtain ⟨t, ht, -, hm⟩ := h
  obtain ⟨p, hp, hmanager⟩ := panel?_of_ties ht
  simp [Workspace.isManagedBy, hp, hmanager, hm]

theorem Tended.handsOver (h : Tended graphTitle d) (hs : Sound d)
    {before after : List (Response Nat Nat)} {r : Response Nat Nat}
    (hq : d.transport.queue = before ++ r :: after) : HandsOver d before r := by
  have hr : r ∈ d.transport.queue := by simp [hq]
  have hawaits : d.transport.Awaits r.callback := .inl ⟨r, hr, rfl⟩
  have hheld : Held graphTitle (handOver d before).workspace r.callback := by
    obtain ⟨t, ht, hheld⟩ := h.held r.callback hawaits
    exact ⟨t, (Workspace.ties?_congr (handOver_settles d before).panels r.callback).trans ht, hheld⟩
  refine ⟨h.tidy.answers r hr, isManagedBy_of_held hheld, ?_⟩
  obtain ⟨hsound, hstays⟩ := handOver_keeps d before hs
  have hcallee : ShowsGraph d r.callback :=
    hs.callees _ (List.mem_append_left _ (List.mem_map_of_mem hr))
  rcases handOver_append d before r with hsame | hnext
  · exact .inl hsame
  · rw [hnext]
    have hanswered := showAnswer_answered hsound (hcallee.stays hstays) r.content
    generalize (showAnswer r.callback r.content).outcome (handOver d before) = o at hanswered ⊢
    cases hanswered with
    | passed missing eq => exact .inl (by rw [eq])
    | installed description isIn linked d' eq how =>
      rw [eq]
      exact .inr ⟨description, isIn, how⟩
    | dropped description isIn dangling eq => exact .inl (by rw [eq])
    | raised description isIn unlinked undangling fault eq => exact .inl (by rw [eq])

theorem gone_iff : Gone panel d ↔
    panel < d.workspace.panels.length ∧ d.workspace.isManagedBy manager panel = false := by
  constructor
  · intro h
    obtain ⟨t, ht, hfree⟩ := h
    obtain ⟨p, hp, hmanager⟩ := panel?_of_ties ht
    obtain ⟨hlt, -⟩ := List.getElem?_eq_some_iff.mp hp
    exact ⟨hlt, by simpa [Workspace.isManagedBy, hp, hmanager] using hfree⟩
  · intro h
    obtain ⟨hlt, hfree⟩ := h
    have hp : d.workspace.panel? panel = some d.workspace.panels[panel] :=
      List.getElem?_eq_getElem hlt
    refine ⟨d.workspace.panels[panel].ties, by rw [Workspace.ties?, hp, Option.map_some], ?_⟩
    change d.workspace.panels[panel].manager ≠ some manager
    simpa [Workspace.isManagedBy, hp] using hfree

theorem Gone.not_awaits (h : Gone panel d) (htended : Tended title d) :
    ¬ d.transport.Awaits panel := by
  intro hawaits
  obtain ⟨t, ht, hfree⟩ := h
  obtain ⟨u, hu, -, hmanager⟩ := htended.held panel hawaits
  cases ht.symm.trans hu
  exact hfree hmanager

/-- In every run, only polls replace graphs: the current one and that of a panel, and an answer does
so only for the panel that asked for it, which is managed when the answer is handed over. Once a
panel is removed, no answer to any of its fetches is there to be handed over. -/
theorem run_fetches (s : Arguments.Start) (text : Option String)
    (replies : List (Except Fault Reply)) (os : List Occurrence) :
    let d := goOn (begun s text replies) os
    (∀ o : Occurrence, o ≠ .move .poll → SameGraphs d (o.next d)) ∧
      (Move.poll.next d = handOver d d.transport.queue ∧
        ∀ before r after, d.transport.queue = before ++ r :: after → HandsOver d before r) ∧
      ∀ panel < d.workspace.panels.length, d.workspace.isManagedBy manager panel = false →
        ∀ later, (goOn d later).workspace.isManagedBy manager panel = false ∧
          ∀ r ∈ (goOn d later).transport.queue, r.owner ≠ some panel := by
  intro d
  have hready : Ready d := ready_goOn (ready_begun s text replies) os
  have htended : Tended graphTitle d := tended_goOn s text replies os
  refine ⟨fun o ho => o.also hready fun hpoll => absurd hpoll ho,
    ⟨next_poll d, fun before r after hq => Tended.handsOver htended hready.toSound hq⟩,
    fun panel hmade hfree later => ?_⟩
  have hgone : Gone panel (goOn d later) :=
    goOn_also (Q := StaysGone panel) poll_staysGone hready later (gone_iff.mpr ⟨hmade, hfree⟩)
  have hlater : Tended graphTitle (goOn d later) :=
    goOn_also (Q := Tends graphTitle) poll_tends hready later htended
  refine ⟨(gone_iff.mp hgone).2, fun r hr howner => ?_⟩
  have hcallback : r.callback = panel :=
    Option.some.inj ((hlater.tidy.answers r hr).symm.trans howner)
  exact Gone.not_awaits hgone hlater (.inl ⟨r, hr, hcallback⟩)

def fetchMove : Move := .event (.user (.menu ["Host", "Fetch graph"]))

def oneVertex : Except Fault (Option Json) :=
  .ok (some (answerWith (.object [("nodes", .list [.object []]), ("edges", .list [])])))

def fetchedRun : List Occurrence :=
  [.move fetchMove, .call (.begin 0), .call (.settle 0 oneVertex)]

def removedRun : List Occurrence := [.move fetchMove, .call (.begin 0), .remove 0]

omit [Platform] in
/-- An answer is handed over to the panel that asked, but not if the panel was removed before. -/
theorem fetched_or_removed :
    let _ : Platform := .simulated id
    (∃ r, (goOn (begun .standard none []) fetchedRun).transport.queue = [r] ∧
      HandsOver (goOn (begun .standard none []) fetchedRun) [] r) ∧
    (goOn (begun .standard none []) removedRun).transport.tasks.progressOf 0 = .running ∧
      ∀ r ∈ (goOn (goOn (begun .standard none []) removedRun)
        [.call (.settle 0 oneVertex)]).transport.queue, r.owner ≠ some 0 := by
  intro _
  have hone : (goOn (begun .standard none []) fetchedRun).transport.queue.length = 1 := by
    decide +kernel
  obtain ⟨r, hr⟩ := List.length_eq_one_iff.mp hone
  have hhands := (run_fetches .standard none [] fetchedRun).2.1.2 [] r []
  have hgone := (run_fetches .standard none [] removedRun).2.2 0 (by decide +kernel)
    (by decide +kernel) [.call (.settle 0 oneVertex)]
  exact ⟨⟨r, hr, hhands (by rw [hr, List.nil_append])⟩, by decide +kernel, hgone.2⟩

end DebugDesk.App
