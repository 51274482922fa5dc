import DebugDesk.Desk.Frame
import DebugDesk.Proofs.Desk.Backstage
import DebugDesk.Proofs.Desk.Tending
import DebugDesk.Proofs.Toolkit.Tables
import Mathlib.Data.List.Basic
import Mathlib.Data.List.Induction

/-!
# Log panels

A log panel shows the entries of the log book as rows of a table. It makes them anew only in a frame
that finds another version than the one shown. As no two states of a log book share a version, the
rows are the entries after every frame, which are the end of all that was added to the log book
since it was last cleared.
-/
namespace DebugDesk.LogBook

/-- What is done to a log book. Requests, responses and failures are all added. -/
inductive Deed where
  | add (moment : Float) (kind : String) (detail message : Json)
  | clear

def done (b : LogBook) : Deed → LogBook
  | .add moment kind detail message => b.add moment kind detail message
  | .clear => b.clear

def after (b : LogBook) (deeds : List Deed) : LogBook := deeds.foldl done b

def Deed.appended (es : List LogEntry) : Deed → List LogEntry
  | .add moment kind detail message => es ++ [entry moment kind detail message]
  | .clear => []

def added (deeds : List Deed) : List LogEntry := deeds.foldl Deed.appended []

variable {b : LogBook} {limit : Nat} {deeds : List Deed} {d : Deed} {p : LogEntry → Prop}

theorem after_concat (b : LogBook) (deeds : List Deed) (d : Deed) :
    b.after (deeds ++ [d]) = (b.after deeds).done d := List.foldl_concat ..

theorem added_concat (deeds : List Deed) (d : Deed) :
    added (deeds ++ [d]) = d.appended (added deeds) := List.foldl_concat ..

/-- What goes for the entries of all deeds goes for all that was added. -/
theorem forall_added (h : ∀ moment kind detail message,
    Deed.add moment kind detail message ∈ deeds → p (entry moment kind detail message)) :
    ∀ e ∈ added deeds, p e := by
  induction deeds using List.reverseRecOn with
  | nil => simp [added]
  | append_singleton deeds d ih =>
    rw [added_concat]
    cases d with
    | clear => simp [Deed.appended]
    | add moment kind detail message =>
      intro e he
      rcases List.mem_append.mp he with he | he
      · exact ih (fun _ _ _ _ hd => h _ _ _ _ (List.mem_append_left _ hd)) e he
      · obtain rfl := List.mem_singleton.mp he
        exact h _ _ _ _ (by simp)

/-- The entries with their times of day, if all of these can be told. -/
theorem timed_eq_ok {zone : Int → Int} (h : ∀ e ∈ b.entries, ∃ time, e.timeText zone = .ok time) :
    ∃ listed, b.timed zone = .ok listed ∧ listed.map Prod.fst = b.entries ∧
      ∀ x ∈ listed, x.1.timeText zone = .ok x.2 := by
  unfold timed
  generalize b.entries = es at h ⊢
  induction es with
  | nil => exact ⟨[], rfl, rfl, by simp⟩
  | cons e es ih =>
    obtain ⟨⟨time, htime⟩, hrest⟩ := List.forall_mem_cons.mp h
    obtain ⟨listed, hlisted, hes, htimes⟩ := ih hrest
    refine ⟨(e, time) :: listed, ?_, by rw [List.map_cons, hes],
      List.forall_mem_cons.mpr ⟨htime, htimes⟩⟩
    rw [List.mapM_cons, hlisted, htime]
    rfl

def latest (limit : Nat) (es : List LogEntry) : List LogEntry := es.drop (es.length - limit)

theorem latest_nil (limit : Nat) : latest limit [] = [] := List.drop_nil

theorem latest_suffix (limit : Nat) (es : List LogEntry) : latest limit es <:+ es :=
  List.drop_suffix ..

theorem length_latest (limit : Nat) (es : List LogEntry) :
    (latest limit es).length = min limit es.length := by
  rw [latest, List.length_drop]
  omega

/-- What was dropped before an entry is added would be dropped after that as well. -/
theorem latest_concat (limit : Nat) (es : List LogEntry) (e : LogEntry) :
    latest limit (latest limit es ++ [e]) = latest limit (es ++ [e]) := by
  have hsplit : latest limit es ++ [e] = (es ++ [e]).drop (es.length - limit) := by
    rw [latest, List.drop_append_of_le_length (Nat.sub_le ..)]
  rw [latest, hsplit, List.drop_drop, latest, List.length_drop, List.length_append]
  congr 1
  simp only [List.length_singleton]
  omega

structure Records (b : LogBook) (limit : Nat) (deeds : List Deed) : Prop where
  bound : b.maxEntries = limit
  entries : b.entries = latest limit (added deeds)
  version : b.version = deeds.length

theorem Records.done (h : b.Records limit deeds) (d : Deed) :
    (b.done d).Records limit (deeds ++ [d]) := by
  have hversion : (b.done d).version = b.version + 1 := by cases d <;> rfl
  refine ⟨?_, ?_, by rw [hversion, h.version, List.length_append, List.length_singleton]⟩
  · rw [← h.bound]
    cases d <;> rfl
  · rw [added_concat]
    cases d with
    | clear => exact (latest_nil limit).symm
    | add moment kind detail message =>
      calc (b.done (.add moment kind detail message)).entries
          = latest b.maxEntries (b.entries ++ [entry moment kind detail message]) := rfl
        _ = latest limit (added deeds ++ [entry moment kind detail message]) := by
          rw [h.bound, h.entries, latest_concat]

theorem Records.after (h : b.Records limit deeds) (more : List Deed) :
    (b.after more).Records limit (deeds ++ more) := by
  induction more using List.reverseRecOn with
  | nil => rwa [List.append_nil]
  | append_singleton more d ih =>
    rw [after_concat, ← List.append_assoc]
    exact ih.done d

theorem Records.unique {b' : LogBook} (h : b.Records limit deeds) (h' : b'.Records limit deeds) :
    b = b' := by
  cases b
  cases b'
  simp only [mk.injEq]
  exact ⟨h.bound.trans h'.bound.symm, h.entries.trans h'.entries.symm,
    h.version.trans h'.version.symm⟩

theorem make_records {n : Int} (hn : 1 ≤ n) : ∃ b, make n = .ok b ∧ b.Records n.toNat [] :=
  ⟨⟨n.toNat, [], 0⟩, if_neg (by omega), rfl, (latest_nil _).symm, rfl⟩

end DebugDesk.LogBook

namespace DebugDesk.Desk

open Effect Toolkit

variable [Platform]

variable {d d' : Desk} {panel : Nat} {container table parent kind : String} {options : Options}
  {shown : Option Nat} {limit : Nat} {deeds : List LogBook.Deed}

def levelChannels : Level → List Int
  | .error => [255, 95, 95, 255]
  | .info => [126, 200, 126, 255]
  | .standard => [200, 200, 200, 255]

def levelValue (l : Level) : Toolkit.Value :=
  .list ((levelChannels l).map fun n => .number (Binary64.ofInt n))

omit [Platform] in
theorem colorValue_level (l : Level) :
    DrawlistSurface.colorValue (levelColor l) = .ok (levelValue l) := by
  have hchannels : Color.channels (levelColor l).toList = .ok (levelChannels l) := by
    cases l <;> decide +kernel
  rw [DrawlistSurface.colorValue, hchannels]
  rfl

/-- The cells of an entry: its time of day, and in the color of its level what kind it is, its
detail and its message. -/
def cellsFor (e : LogEntry) (time : String) : List Cell :=
  let color := [("color", levelValue e.level)]
  [⟨[.text time], []⟩, ⟨[.text e.kind], color⟩, ⟨[jsonValue e.detail], color⟩,
    ⟨[jsonValue e.message], color⟩]

omit [Platform] in
theorem cellsFor_inside (e : LogEntry) (time : String) : ∀ c ∈ cellsFor e time, c.Inside := by
  simp [cellsFor, Cell.Inside]

theorem outcome_addRow {e : LogEntry} {time : String} (h : e.timeText Platform.zone = .ok time)
    (d : Desk) :
    (addRow (.text table) e).outcome d =
      (.ok (), { d with toolkit := withRow d.toolkit table (cellsFor e time) }) := by
  rw [addRow, colorValue_level, h]
  rfl

def Told (deeds : List LogBook.Deed) : Prop := ∀ moment kind detail message,
  LogBook.Deed.add moment kind detail message ∈ deeds → ∃ text,
    TimeOfDay.text Platform.zone moment = .ok text

theorem Told.times (h : Told deeds) (hrecords : d.log.Records limit deeds) :
    ∀ e ∈ d.log.entries, ∃ text, e.timeText Platform.zone = .ok text := by
  have hadded : ∀ e ∈ LogBook.added deeds, ∃ text, e.timeText Platform.zone = .ok text :=
    LogBook.forall_added fun moment kind detail message hdeed => h moment kind detail message hdeed
  rw [hrecords.entries]
  exact fun e he => hadded e ((LogBook.latest_suffix limit _).subset he)

variable [LawfulGui Platform.Toolkit Handler]

/-- Rows for the entries whose times of day can be told. -/
theorem addRows {listed : List (LogEntry × String)}
    (hlisted : ∀ x ∈ listed, x.1.timeText Platform.zone = .ok x.2) (h : HasTable d.toolkit table) :
    ∃ t : Platform.Toolkit, ((listed.map Prod.fst).forM (addRow (.text table))).outcome d =
        (.ok (), { d with toolkit := t }) ∧ HasTable t table ∧
      (display t).rowsOf table =
        (display d.toolkit).rowsOf table ++ listed.map fun x => cellsFor x.1 x.2 := by
  induction listed generalizing d with
  | nil => exact ⟨_, rfl, h, by simp⟩
  | cons x listed ih =>
    obtain ⟨hx, hlisted⟩ := List.forall_mem_cons.mp hlisted
    obtain ⟨htable, hrows⟩ := h.withRow (cellsFor_inside x.1 x.2)
    obtain ⟨t, ht, htable', hrows'⟩ := ih (d := { d with
      toolkit := withRow d.toolkit table (cellsFor x.1 x.2) }) hlisted htable
    refine ⟨t, ?_, htable', ?_⟩
    · rw [List.map_cons, forM_cons, outcome_bind_ok (outcome_addRow hx d), ht]
    · rw [hrows', hrows, List.append_assoc]
      rfl

/-- A log panel that was built, with its table on the screen and the version shown last. -/
structure LogPanel (d : Desk) (panel : Nat) (container table : String) (shown : Option Nat) :
    Prop where
  content : d.contents[panel]? = some (.log ⟨some container, some table, shown⟩)
  hasTable : HasTable d.toolkit table

/-- The rows of a table are the entries of the log book, in order. -/
def ShowsEntries (d : Desk) (table : String) : Prop :=
  ∃ listed, d.log.timed Platform.zone = .ok listed ∧
    (display d.toolkit).rowsOf table = listed.map fun x => cellsFor x.1 x.2

theorem LogPanel.outcome_frame (h : LogPanel d panel container table shown) (time : Int) :
    (renderAnimation (.log panel) time).outcome d =
      (logFrame panel ⟨some container, some table, shown⟩).outcome d := by
  rw [renderAnimation, outcome_bind_ok (outcome_contentOf panel d), h.content]
  rfl

theorem LogPanel.skips (h : LogPanel d panel container table (some d.log.version)) (time : Int) :
    (renderAnimation (.log panel) time).outcome d = (.ok .keep, d) := by
  rw [h.outcome_frame, logFrame, outcome_bind_ok (outcome_get d)]
  dsimp only
  rw [if_pos rfl]
  rfl

/-- A frame that finds another version makes the rows anew. -/
theorem LogPanel.rebuilds (h : LogPanel d panel container table shown)
    (hshown : shown ≠ some d.log.version)
    (htimes : ∀ e ∈ d.log.entries, ∃ text, e.timeText Platform.zone = .ok text) (time : Int) :
    ∃ d', (renderAnimation (.log panel) time).outcome d = (.ok .keep, d') ∧ d'.log = d.log ∧
      LogPanel d' panel container table (some d.log.version) ∧ ShowsEntries d' table := by
  obtain ⟨listed, htimed, hentries, hlisted⟩ := d.log.timed_eq_ok htimes
  obtain ⟨t₀, hrows₀, hcleared, hnone⟩ := h.hasTable.deleteRows
  let c : LogContent := ⟨some container, some table, some d.log.version⟩
  let d₁ : Desk := { d with contents := d.contents.set panel (.log c) }
  let d₂ : Desk := { d₁ with toolkit := t₀ }
  have hset : (setContent panel (.log c)).outcome d = (.ok (), d₁) := rfl
  have hdelete : (toolkitPart.within (Gui.deleteChildren (some table) .rows)).outcome d₁ =
      (.ok (), d₂) := by
    have hwithin : (toolkitPart.within (Gui.deleteChildren (some table) .rows)).outcome d₁ =
        (((Gui.deleteChildren (some table) .rows).outcome d.toolkit).1,
          { d₁ with toolkit :=
            ((Gui.deleteChildren (some table) .rows).outcome d.toolkit).2 }) := rfl
    rw [hwithin, hrows₀]
  obtain ⟨t, ht, htable, hrows⟩ := addRows (d := d₂) hlisted hcleared
  rw [hentries] at ht
  let bottom : Toolkit.Value := .number (Gui.scrollMax t container)
  obtain ⟨hvalid, hdisplay⟩ :=
    LawfulGui.call t "set_y_scroll" [.text container, bottom] htable.valid (by decide)
  refine ⟨{ d₂ with toolkit := Gui.call t "set_y_scroll" [.text container, bottom] [] }, ?_, rfl,
    ⟨?_, ⟨hvalid, hdisplay ▸ htable.table⟩⟩, listed, htimed, ?_⟩
  · rw [h.outcome_frame, logFrame, outcome_bind_ok (outcome_get d)]
    dsimp only
    rw [if_neg hshown, outcome_bind_ok hset, outcome_bind_ok hdelete]
    dsimp only [Toolkit.Value.ofOption]
    rw [outcome_bind_ok ht]
    rfl
  · obtain ⟨hlt, -⟩ := List.getElem?_eq_some_iff.mp h.content
    exact List.getElem?_set_self hlt
  · rw [hdisplay, hrows, hnone, List.nil_append]

theorem outcome_addColumn (options : Options) (h : HasTable d.toolkit table)
    (htag : options.lookup "tag" = none)
    (hparent : options.lookup "parent" = some (.text table)) :
    ∃ id t, (make "add_table_column" [] options none).outcome d =
      (.ok id, { d with toolkit := t }) ∧ HasTable t table := by
  obtain ⟨hvalid, hnew, hdisplay⟩ := LawfulGui.make d.toolkit "add_table_column" [] options none
    h.valid h.table.fresh.known (by decide) htag
  refine ⟨_, _, outcome_make d, hvalid, hdisplay ▸ h.table.adding hnew fun p hp => ?_⟩
  simp only [Display.parentOf, hparent] at hp
  obtain rfl := Option.some.inj hp
  exact h.table.given

theorem outcome_addColumns (h : HasTable d.toolkit table) (labels : List String) :
    ∃ t, (labels.forM fun label => do
      let _ ← make "add_table_column" [] [("label", .text label), ("parent", .text table)] none :
        Effect Desk Unit).outcome d = (.ok (), { d with toolkit := t }) ∧ HasTable t table := by
  induction labels generalizing d with
  | nil => exact ⟨_, rfl, h⟩
  | cons l labels ih =>
    obtain ⟨_, t, ht, htable⟩ := outcome_addColumn
      [("label", .text l), ("parent", .text table)] h rfl rfl
    obtain ⟨t', ht', htable'⟩ := ih (d := { d with toolkit := t }) htable
    refine ⟨t', ?_, htable'⟩
    rw [forM_cons, bind_assoc, outcome_bind_ok ht]
    exact ht'

/-- A log panel is built with a table that shows no version yet, and is called in every frame. -/
theorem builds_logPanel {c : LogContent} {p : Panel Float Binding} (hv : Valid d.toolkit)
    (h : (display d.toolkit).Fresh) (hparent : (display d.toolkit).issued parent)
    (hc : d.contents[panel]? = some (.log c)) :
    ∃ d' container table, (buildContent panel p parent).outcome d = (.ok (), d') ∧
      LogPanel d' panel container table none ∧ .log panel ∈ d'.registry ∧ d'.log = d.log := by
  let frame : Options := [("parent", .text parent), ("width", .number (-1)),
    ("height", .number (-1)), ("border", .flag false)]
  obtain ⟨hv₁, hnew₁, hmade₁⟩ := LawfulGui.make d.toolkit "add_child_window" [] frame none hv
    h.known (by decide) rfl
  let d₁ : Desk := { d with toolkit := (made "add_child_window" [] frame none d).2 }
  let container := (made "add_child_window" [] frame none d).1
  have h₁ : (display d₁.toolkit).Fresh := hmade₁ ▸ h.adding (by rintro p ⟨rfl⟩; exact hparent)
  have hcontainer : (display d₁.toolkit).issued container := hmade₁ ▸ .inr rfl
  let grid : Options := [("parent", .text container), ("header_row", .flag true),
    ("resizable", .flag true), ("borders_innerV", .flag true),
    ("policy", .text "mvTable_SizingFixedFit")]
  obtain ⟨hv₂, hnew₂, hmade₂⟩ := LawfulGui.make d₁.toolkit "add_table" [] grid none hv₁ h₁.known
    (by decide) rfl
  let d₂ : Desk := { d₁ with toolkit := (made "add_table" [] grid none d₁).2 }
  let table := (made "add_table" [] grid none d₁).1
  have h₂ : HasTable d₂.toolkit table :=
    ⟨hv₂, hmade₂ ▸ h₁.hasTable hnew₂ (by rintro p ⟨rfl⟩; exact hcontainer)⟩
  obtain ⟨t₃, ht₃, h₃⟩ := outcome_addColumns (d := d₂) h₂ ["Time", "Kind", "Detail"]
  obtain ⟨_, t₄, ht₄, h₄⟩ := outcome_addColumn (d := { d with toolkit := t₃ })
    [("label", .text "Message"), ("parent", .text table), ("width_stretch", .flag true)] h₃ rfl rfl
  refine ⟨{ d with
    toolkit := t₄
    contents := d.contents.set panel (.log ⟨some container, some table, none⟩)
    registry := d.registry ++ [.log panel] }, container, table, ?_, ⟨?_, h₄⟩, by simp, rfl⟩
  · rw [buildContent, outcome_bind_ok (outcome_contentOf panel d), hc, Option.getD_some]
    dsimp only
    rw [buildLog, outcome_bind_ok (outcome_make d), outcome_bind_ok (outcome_make d₁),
      outcome_bind_ok ht₃, outcome_bind_ok ht₄]
    rfl
  · obtain ⟨hlt, -⟩ := List.getElem?_eq_some_iff.mp hc
    exact List.getElem?_set_self hlt

inductive Occurrence where
  | log (deed : LogBook.Deed)
  | frame (time : Int)

def occur (panel : Nat) : Occurrence → Effect Desk Unit
  | .log deed => modify fun d => { d with log := d.log.done deed }
  | .frame time => do let _ ← renderAnimation (.log panel) time

def deedsOf (run : List Occurrence) : List LogBook.Deed :=
  run.filterMap fun
    | .log deed => some deed
    | .frame _ => none

/-- The version that the latest frame of a run found, given the version before the run and the one
shown then. -/
def lastShown (version : Nat) (shown : Option Nat) : List Occurrence → Option Nat
  | [] => shown
  | .log _ :: rest => lastShown (version + 1) shown rest
  | .frame _ :: rest => lastShown version (some version) rest

/-- A log panel in the middle of a run: the log book after some deeds, and the entries as rows if
no deed came after the latest frame. -/
structure InStep (d : Desk) (panel : Nat) (container table : String) (limit : Nat)
    (deeds : List LogBook.Deed) (shown : Option Nat) : Prop where
  panel : LogPanel d panel container table shown
  records : d.log.Records limit deeds
  past : ∀ v ∈ shown, v ≤ deeds.length
  current : shown = some deeds.length → ShowsEntries d table

/-- After a deed the version is another than any that was shown. -/
theorem InStep.log (h : InStep d panel container table limit deeds shown) (deed : LogBook.Deed) :
    InStep { d with log := d.log.done deed } panel container table limit (deeds ++ [deed])
      shown := by
  have hlength : (deeds ++ [deed]).length = deeds.length + 1 := by simp
  refine ⟨⟨h.panel.content, h.panel.hasTable⟩, h.records.done deed, fun v hv => ?_,
    fun hshown => ?_⟩
  · have hle := h.past v hv
    omega
  · have hle := h.past _ hshown
    omega

/-- After a frame the rows are the entries. If the version is the one shown, there is nothing to
do. -/
theorem InStep.frame (h : InStep d panel container table limit deeds shown) (hdeeds : Told deeds)
    (time : Int) : ∃ d', (renderAnimation (.log panel) time).outcome d = (.ok .keep, d') ∧
      InStep d' panel container table limit deeds (some deeds.length) ∧ ShowsEntries d' table ∧
      (shown = some d.log.version → d' = d) := by
  have hversion := h.records.version
  by_cases hshown : shown = some d.log.version
  · have hframe := (hshown ▸ h.panel).skips time
    have hlength : shown = some deeds.length := hversion ▸ hshown
    exact ⟨d, hframe, hlength ▸ h, h.current hlength, fun _ => rfl⟩
  · obtain ⟨d', hframe, hlog, hpanel, hrows⟩ :=
      h.panel.rebuilds hshown (hdeeds.times h.records) time
    refine ⟨d', hframe, ⟨hversion ▸ hpanel, hlog ▸ h.records, fun v hv => ?_, fun _ => hrows⟩,
      hrows, fun hsame => absurd hsame hshown⟩
    obtain rfl := Option.some.inj hv
    exact le_rfl

theorem InStep.run (h : InStep d panel container table limit deeds shown) (run : List Occurrence)
    (hdeeds : Told (deeds ++ deedsOf run)) :
    ∃ d', (run.forM (occur panel)).outcome d = (.ok (), d') ∧
      InStep d' panel container table limit (deeds ++ deedsOf run)
        (lastShown deeds.length shown run) := by
  induction run generalizing d deeds shown with
  | nil => exact ⟨d, rfl, by rwa [deedsOf, List.filterMap_nil, List.append_nil]⟩
  | cons o run ih =>
    cases o with
    | log deed =>
      have hcons : deeds ++ deedsOf (.log deed :: run) = deeds ++ [deed] ++ deedsOf run := by
        rw [List.append_assoc]
        rfl
      rw [hcons] at hdeeds ⊢
      obtain ⟨d', hrun, hstep⟩ := ih (h.log deed) hdeeds
      rw [List.length_append] at hstep
      exact ⟨d', hrun, hstep⟩
    | frame time =>
      have hsofar : Told deeds := fun moment kind detail message hdeed =>
        hdeeds moment kind detail message (List.mem_append_left _ hdeed)
      obtain ⟨d₁, hframe, h₁, -⟩ := h.frame hsofar time
      obtain ⟨d', hrun, hstep⟩ := ih h₁ hdeeds
      refine ⟨d', ?_, hstep⟩
      rw [forM_cons, occur, bind_assoc, outcome_bind_ok hframe]
      exact hrun

/-- A log book holds the latest of the entries added since it was last cleared, as many as it may,
and its version counts what was done to it. In any run of such deeds and frames of a log panel that
was built, each frame leaves the rows of its table as the entries of the log book, in order, and one
that finds the version shown last leaves everything as it is. -/
theorem log_panel_in_step {n : Int} (hn : 1 ≤ n) :
    ∃ b, LogBook.make n = .ok b ∧
      (∀ deeds, (b.after deeds).entries <:+ LogBook.added deeds ∧
        (b.after deeds).entries.length = min n.toNat (LogBook.added deeds).length ∧
        (b.after deeds).version = deeds.length) ∧
      ∀ (d : Desk) (panel : Nat) (c : LogContent) (p : Panel Float Binding) (parent : String)
        (earlier : List LogBook.Deed), Valid d.toolkit → (display d.toolkit).Fresh →
        (display d.toolkit).issued parent → d.contents[panel]? = some (.log c) →
        d.log = b.after earlier →
        ∃ d₀ table, (buildContent panel p parent).outcome d = (.ok (), d₀) ∧
          .log panel ∈ d₀.registry ∧
          ∀ run, Told (earlier ++ deedsOf run) →
            ∃ d₁ c, (run.forM (occur panel)).outcome d₀ = (.ok (), d₁) ∧
              d₁.log = b.after (earlier ++ deedsOf run) ∧
              d₁.contents[panel]? = some (.log c) ∧ c.table = some table ∧
              c.shown = lastShown earlier.length none run ∧
              ∀ time, ∃ d₂, (renderAnimation (.log panel) time).outcome d₁ = (.ok .keep, d₂) ∧
                d₂.log = d₁.log ∧ ShowsEntries d₂ table ∧
                (c.shown = some d₁.log.version → d₂ = d₁) := by
  obtain ⟨b, hmake, hnew⟩ := LogBook.make_records hn
  have hrecords (deeds : List LogBook.Deed) : (b.after deeds).Records n.toNat deeds :=
    hnew.after deeds
  refine ⟨b, hmake, fun deeds => ⟨?_, ?_, (hrecords deeds).version⟩, ?_⟩
  · rw [(hrecords deeds).entries]
    exact LogBook.latest_suffix _ _
  · rw [(hrecords deeds).entries]
    exact LogBook.length_latest _ _
  intro d panel c p parent earlier hvalid hfresh hparent hc hlog
  obtain ⟨d₀, container, table, hbuild, hpanel, hregistered, hlog₀⟩ :=
    builds_logPanel (p := p) hvalid hfresh hparent hc
  have hstart : InStep d₀ panel container table n.toNat earlier none :=
    ⟨hpanel, hlog₀ ▸ hlog ▸ hrecords earlier, by simp, by simp⟩
  refine ⟨d₀, table, hbuild, hregistered, fun run htold => ?_⟩
  obtain ⟨d₁, hrun, h₁⟩ := hstart.run run htold
  refine ⟨d₁, _, hrun, h₁.records.unique (hrecords _), h₁.panel.content, rfl, rfl, fun time => ?_⟩
  obtain ⟨d₂, hframe, h₂, hrows, hskip⟩ := h₁.frame htold time
  exact ⟨d₂, hframe, h₂.records.unique h₁.records, hrows, hskip⟩

omit [Platform] in
/-- A log book of two entries, one of which is shown before it is dropped for the third. -/
theorem third_entry_in_step :
    letI : Platform := .simulated id
    ∃ b d₀ d₁ d₂ table, LogBook.make 2 = .ok b ∧
    (buildContent 0 (.make "Log" 0.0 0.0 400.0 300.0 true 24.0 100.0 60.0) "body").outcome
      { Desk.empty (.make 20.0 0.5) with contents := [.log ⟨none, none, none⟩], log := b } =
      (.ok (), d₀) ∧
    ([.log (.add 1.0 LogBook.requestKind (.str "binaries") (.object [])), .frame 0,
      .log (.add 2.0 LogBook.responseKind (.str "ok") (.list [])),
      .log (.add 3.0 LogBook.errorKind (.str "error") (.str ""))].forM (occur 0)).outcome d₀ =
      (.ok (), d₁) ∧
    (renderAnimation (.log 0) 1).outcome d₁ = (.ok .keep, d₂) ∧ ShowsEntries d₂ table ∧
    d₂.log.entries = [LogBook.entry 2.0 LogBook.responseKind (.str "ok") (.list []),
      LogBook.entry 3.0 LogBook.errorKind (.str "error") (.str "")] := by
  let _ : Platform := .simulated id
  obtain ⟨b, hb, -, hpanel⟩ := log_panel_in_step (n := 2) (by decide)
  have hfresh : (display (Toolkit.empty : Toolkit Handler)).Fresh :=
    ⟨fun _ hx => absurd hx List.not_mem_nil, fun _ hx => absurd hx List.not_mem_nil⟩
  have hbody : (display (Toolkit.empty : Toolkit Handler)).issued "body" := by
    rintro ⟨n, -, h⟩
    have hhead : (label n).toList.head? = some '#' := by
      simp [label, show toString "#" = "#" from rfl]
    rw [← h] at hhead
    cases hhead
  obtain ⟨d₀, table, hbuild, -, hrun⟩ := hpanel
    { Desk.empty (.make 20.0 0.5) with contents := [.log ⟨none, none, none⟩], log := b } 0
    ⟨none, none, none⟩ (.make "Log" 0.0 0.0 400.0 300.0 true 24.0 100.0 60.0) "body" [] rfl hfresh
    hbody rfl rfl
  have htold : Told ([] ++ deedsOf
      [.log (.add 1.0 LogBook.requestKind (.str "binaries") (.object [])), .frame 0,
        .log (.add 2.0 LogBook.responseKind (.str "ok") (.list [])),
        .log (.add 3.0 LogBook.errorKind (.str "error") (.str ""))]) := by
    have htexts : TimeOfDay.text (fun _ => 0) 1.0 = .ok "00:00:01" ∧
        TimeOfDay.text (fun _ => 0) 2.0 = .ok "00:00:02" ∧
        TimeOfDay.text (fun _ => 0) 3.0 = .ok "00:00:03" := by decide +kernel
    intro moment kind detail message hdeed
    simp only [deedsOf, List.nil_append, List.filterMap_cons, List.filterMap_nil, List.mem_cons,
      List.not_mem_nil, or_false, LogBook.Deed.add.injEq] at hdeed
    rcases hdeed with ⟨rfl, -⟩ | ⟨rfl, -⟩ | ⟨rfl, -⟩
    · exact ⟨_, htexts.1⟩
    · exact ⟨_, htexts.2.1⟩
    · exact ⟨_, htexts.2.2⟩
  obtain ⟨d₁, c, hruns, hlog, -, -, -, hframe⟩ := hrun _ htold
  obtain ⟨d₂, hshows, hsame, hentries, -⟩ := hframe 1
  refine ⟨b, d₀, d₁, d₂, table, hb, hbuild, hruns, hshows, hentries, ?_⟩
  rw [hsame, hlog]
  obtain rfl : ⟨2, [], 0⟩ = b := Except.ok.inj hb
  rfl

end DebugDesk.Desk
