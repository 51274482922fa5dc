import DebugDesk.Proofs.Effect.Respecting
import DebugDesk.Proofs.Toolkit.Displays

/-!
# Screens

A toolkit that writes down all that it is asked for is lawful. The calls tell what each item was
made with, which windows and themes were made, and how the windows lie on the screen.
-/
namespace DebugDesk.Toolkit

variable {κ : Type}

def label (n : Nat) : String := s!"#{n}"

theorem label_injective : Function.Injective label := by
  intro m n h
  unfold label at h
  have hrepr : m.repr = n.repr := by simpa using h
  rw [Nat.repr_eq_ofList_toDigits, Nat.repr_eq_ofList_toDigits, String.ofList_inj] at hrepr
  have hdigits (k : Nat) : Nat.ofDigitChars 10 (Nat.toDigits 10 k) 0 = k :=
    Nat.ofDigitChars_toDigits (by decide) (by decide)
  rw [← hdigits m, hrepr, hdigits n]

/-- The windows and themes that were made, in order, and the windows as they are stacked from bottom
to top, with those that were deleted since. -/
structure Screen where
  /-- How many items were made. -/
  made : Nat
  windows : List String
  themes : List String
  stack : List String

namespace Screen

def empty : Screen := ⟨0, [], [], []⟩

def given (s : Screen) (c : Call) : String × Nat :=
  match c.options.lookup "tag" with
  | some (.text tag) => (tag, s.made)
  | _ => (label (s.made + 1), s.made + 1)

/-- What becomes of the screen when something is asked of the toolkit. -/
def next (s : Screen) (c : Call) : Screen :=
  if c.function ∈ makers then
    { made := (s.given c).2
      windows := s.windows ++ if c.function = "window" then [(s.given c).1] else []
      themes := s.themes ++ if c.function = "theme" then [(s.given c).1] else []
      stack := s.stack ++ if c.function = "window" then [(s.given c).1] else [] }
  else if c.function = "focus_item" then
    match c.arguments with
    | [.text id] => { s with stack := Display.raised s.stack id }
    | _ => s
  else s

end Screen

def screenAfter (calls : List Call) : Screen := calls.foldr (fun c s => s.next c) .empty

def wordsIn : List Call → String → List Value
  | [], _ => []
  | c :: earlier, id =>
    if c.function ∈ makers ∧ ((screenAfter earlier).given c).1 = id then c.arguments
    else wordsIn earlier id

def shown (t : Toolkit κ) (x : Item κ) : Shown :=
  ⟨x.id, x.kind, wordsIn t.calls x.id, x.options, x.parent⟩

/-- Whether an identifier is still to be given. -/
def Ahead (t : Toolkit κ) (id : String) : Prop := ∃ n, t.made < n ∧ id = label n

/-- What the items and the calls so far tell. -/
def displayed (t : Toolkit κ) : Display where
  items := t.items.map t.shown
  containers := t.containers
  issued id := ¬t.Ahead id
  windows := (screenAfter t.calls).windows
  themes := (screenAfter t.calls).themes
  stack := (screenAfter t.calls).stack

/-- Every item by the order of creation was made by one of the calls. -/
def Counted (t : Toolkit κ) : Prop := (screenAfter t.calls).made = t.made

variable {t : Toolkit κ} {id kind function : String} {arguments : List Value} {options : Options}
  {callback : Option κ}

theorem displayed_look (t : Toolkit κ) (id : String) :
    t.displayed.look id = (t.find? id).map fun x => ⟨x.kind, x.parent⟩ := by
  simp only [Display.look, displayed, List.find?_map, Option.map_map, find?]
  rfl

theorem exists?_eq (t : Toolkit κ) (id : String) :
    t.exists? id = (t.displayed.look id).isSome := by
  rw [displayed_look, Option.isSome_map]
  rfl

theorem shown_record (hm : function ∉ makers) :
    (t.record function arguments options).shown = t.shown := by
  have hwords : wordsIn (t.record function arguments options).calls = wordsIn t.calls :=
    funext fun _ => if_neg fun h => hm h.1
  funext x
  rw [shown, hwords, shown]

theorem screenAfter_record (t : Toolkit κ) (function : String) (arguments : List Value)
    (options : Options) : screenAfter (t.record function arguments options).calls =
      (screenAfter t.calls).next ⟨function, arguments, options⟩ := rfl

/-- A call that makes no item and focuses none changes nothing. -/
theorem displayed_record (hm : function ∉ makers) (hf : function ≠ "focus_item") :
    (t.record function arguments options).displayed = t.displayed ∧
      ((t.record function arguments options).Counted ↔ t.Counted) := by
  have hscreen : screenAfter (t.record function arguments options).calls =
      screenAfter t.calls := by
    simp only [screenAfter_record, Screen.next, hm, hf, ↓reduceIte]
  refine ⟨?_, by rw [Counted, hscreen]; rfl⟩
  unfold displayed
  rw [hscreen, shown_record hm]
  rfl

theorem displayed_drop (t : Toolkit κ) (ids : List String) :
    (t.drop ids).displayed = t.displayed.without ids ∧ ((t.drop ids).Counted ↔ t.Counted) := by
  refine ⟨?_, .rfl⟩
  have hitems : (t.drop ids).items.map (t.drop ids).shown =
      (t.items.map t.shown).filter fun x => x.id ∉ ids := by
    rw [List.filter_map, drop]
    congr 1
    refine List.filter_congr fun x _ => ?_
    rw [List.contains_eq_mem, ← decide_not]
    exact decide_eq_decide.mpr .rfl
  unfold displayed Display.without
  rw [hitems]
  rfl

/-- The toolkit with another item, which has no tag. -/
def withItem (t : Toolkit κ) (kind : String) (arguments : List Value) (options : Options)
    (callback : Option κ) : Toolkit κ :=
  let parent := t.displayed.parentOf options
  { t.record kind arguments options with
    items := t.items ++ [⟨label (t.made + 1), kind, options, parent, callback⟩]
    made := t.made + 1 }

theorem make_eq (hnew : ¬t.exists? (label (t.made + 1))) (htag : options.lookup "tag" = none) :
    t.make kind arguments options callback =
      (label (t.made + 1), t.withItem kind arguments options callback) := by
  have hnone : (t.record kind arguments options).exists? (label (t.made + 1)) = false :=
    Bool.eq_false_iff.mpr hnew
  unfold label at hnone
  simp only [make, htag, put, hnone]
  rfl

theorem ahead_label (t : Toolkit κ) : t.Ahead (label (t.made + 1)) := ⟨_, Nat.lt_succ_self _, rfl⟩

theorem Counted.given (h : t.Counted) (htag : options.lookup "tag" = none) :
    (screenAfter t.calls).given ⟨kind, arguments, options⟩ = (label (t.made + 1), t.made + 1) := by
  rw [Screen.given, htag, h]

theorem Counted.screen_withItem (h : t.Counted) (hk : kind ∈ makers)
    (htag : options.lookup "tag" = none) :
    screenAfter (t.withItem kind arguments options callback).calls =
      { made := t.made + 1
        windows := t.displayed.windows ++ if kind = "window" then [label (t.made + 1)] else []
        themes := t.displayed.themes ++ if kind = "theme" then [label (t.made + 1)] else []
        stack := t.displayed.stack ++ if kind = "window" then [label (t.made + 1)] else [] } := by
  refine (screenAfter_record t kind arguments options).trans ?_
  rw [Screen.next, if_pos hk, h.given htag]
  rfl

/-- The words of the items that exist are what they were. -/
theorem Counted.shown_withItem (h : t.Counted) (hknown : t.displayed.Known) (hk : kind ∈ makers)
    (htag : options.lookup "tag" = none) :
    (t.withItem kind arguments options callback).items.map
        (t.withItem kind arguments options callback).shown = t.displayed.items ++
      [⟨label (t.made + 1), kind, arguments, options, t.displayed.parentOf options⟩] := by
  have hwords (id : String) : wordsIn (t.withItem kind arguments options callback).calls id =
      if label (t.made + 1) = id then arguments else wordsIn t.calls id := by
    have hcons : wordsIn (t.withItem kind arguments options callback).calls id =
      if kind ∈ makers ∧ ((screenAfter t.calls).given ⟨kind, arguments, options⟩).1 = id then
        arguments else wordsIn t.calls id := rfl
    rw [hcons, h.given htag]
    simp only [hk, true_and]
  have hold : t.items.map (t.withItem kind arguments options callback).shown =
      t.displayed.items := by
    refine List.map_congr_left fun x hx => ?_
    have hne : label (t.made + 1) ≠ x.id := by
      intro he
      have hahead := ahead_label t
      rw [he] at hahead
      exact hknown (t.shown x) (List.mem_map_of_mem hx) hahead
    rw [shown, hwords, if_neg hne, shown]
  refine List.map_append.trans (congrArg₂ _ hold ?_)
  rw [List.map_singleton, shown, hwords, if_pos rfl]

theorem ahead_withItem : (t.withItem kind arguments options callback).Ahead id ↔
    t.Ahead id ∧ id ≠ label (t.made + 1) := by
  constructor
  · rintro ⟨n, hn, rfl⟩
    exact ⟨⟨n, Nat.lt_of_succ_lt hn, rfl⟩, fun he => Nat.ne_of_gt hn (label_injective he)⟩
  · rintro ⟨⟨n, hn, rfl⟩, hne⟩
    exact ⟨n, Nat.lt_of_le_of_ne hn fun he => hne (congrArg label he.symm), rfl⟩

/-- A new item comes last, under a label that no other has. -/
theorem Counted.make (h : t.Counted) (hknown : t.displayed.Known) (hk : kind ∈ makers)
    (htag : options.lookup "tag" = none) (callback : Option κ) :
    t.make kind arguments options callback =
        (label (t.made + 1), t.withItem kind arguments options callback) ∧
      (t.withItem kind arguments options callback).Counted ∧
      (t.withItem kind arguments options callback).displayed = t.displayed.adding
        ⟨label (t.made + 1), kind, arguments, options, t.displayed.parentOf options⟩ := by
  have hnew : ¬t.exists? (label (t.made + 1)) := by
    rw [exists?_eq, Display.look_of_not_issued hknown (not_not_intro (ahead_label t))]
    simp
  have hscreen : screenAfter (t.withItem kind arguments options callback).calls = _ :=
    h.screen_withItem hk htag
  refine ⟨make_eq hnew htag, congrArg Screen.made hscreen,
    Display.ext (h.shown_withItem hknown hk htag) rfl ?_ (congrArg Screen.windows hscreen)
      (congrArg Screen.themes hscreen) (congrArg Screen.stack hscreen)⟩
  funext id
  refine propext ((not_congr ahead_withItem).trans ?_)
  rw [not_and_or, not_not]
  rfl

theorem mem_go {levels : Nat} {ids : List String} (hid : id ∈ ids) :
    id ∈ withBelow.go t levels ids := by
  induction levels generalizing ids with
  | zero => exact hid
  | succ levels ih =>
    unfold withBelow.go
    dsimp only
    split
    · exact hid
    · exact ih (List.mem_append_right _ hid)

theorem mem_withBelow_self {ids : List String} (hid : id ∈ ids) : id ∈ t.withBelow ids :=
  mem_go hid

/-- Only items below those given are found. -/
theorem go_below {P : String → Prop}
    (hP : ∀ x ∈ t.items, ∀ p, x.parent = some p → P p → P x.id) {levels : Nat} {ids : List String}
    (hids : ∀ id ∈ ids, P id) : ∀ id ∈ withBelow.go t levels ids, P id := by
  induction levels generalizing ids with
  | zero => exact hids
  | succ levels ih =>
    unfold withBelow.go
    dsimp only
    split
    · exact hids
    refine ih fun id hid => ?_
    rcases List.mem_append.mp hid with hid | hid
    · obtain ⟨x, hx, rfl⟩ := List.mem_map.mp hid
      obtain ⟨hx, hbelow⟩ := List.mem_filter.mp hx
      simp only [Bool.and_eq_true, Option.any_eq_true, List.contains_eq_mem,
        decide_eq_true_eq] at hbelow
      obtain ⟨-, p, hp, hin⟩ := hbelow
      exact hP x hx p hp (hids p hin)
    · exact hids id hid

/-- What is found below items that exist. -/
theorem withBelow_below {tops : List String}
    (htops : ∀ top ∈ tops, ∃ x ∈ t.displayed.items, x.id = top) :
    ∀ id ∈ t.withBelow tops, ∃ top ∈ tops, t.displayed.Below top id := by
  have hall : ∀ id ∈ t.withBelow tops,
      (∃ x ∈ t.displayed.items, x.id = id) ∧ ∃ top ∈ tops, t.displayed.Below top id := by
    refine go_below (fun x hx p hp ⟨⟨y, hy, hyp⟩, top, htop, hbelow⟩ => ?_)
      fun id hid => ⟨htops id hid, id, hid, .self⟩
    have hx' : t.shown x ∈ t.displayed.items := List.mem_map_of_mem hx
    subst hyp
    exact ⟨⟨_, hx', rfl⟩, top, htop, .child hx' hy hp hbelow⟩
  exact fun id hid => (hall id hid).2

theorem Counted.delete (h : t.Counted) (id : String) : (t.delete (some id)).2.Counted ∧
    ∃ gone, id ∈ gone ∧ (∀ j ∈ gone, t.displayed.Below id j) ∧
      (t.delete (some id)).2.displayed = t.displayed.without gone := by
  have hrecord : (t.record "delete_item" [.text id] []).displayed = t.displayed ∧ _ :=
    displayed_record (by decide) (by decide)
  let r := t.record "delete_item" [.text id] []
  have hr : r.displayed = t.displayed := hrecord.1
  have hcounted : r.Counted := hrecord.2.mpr h
  have hdelete : t.delete (some id) =
      if r.exists? id then (true, r.drop (r.withBelow [id])) else (false, r) := rfl
  rw [hdelete]
  split
  next hthere =>
    obtain ⟨hdisplayed, hkept⟩ := displayed_drop r (r.withBelow [id])
    rw [exists?_eq, Display.look_isSome] at hthere
    refine ⟨hkept.mpr hcounted, _, mem_withBelow_self List.mem_cons_self, fun j hj => ?_,
      hr ▸ hdisplayed⟩
    obtain ⟨top, htop, hbelow⟩ := withBelow_below (by simpa using hthere) j hj
    rw [← hr, ← List.mem_singleton.mp htop]
    exact hbelow
  next hthere =>
    refine ⟨hcounted, [id], List.mem_cons_self, fun j hj => List.mem_singleton.mp hj ▸ .self, ?_⟩
    rw [exists?_eq, hr, Display.look_isSome] at hthere
    rw [hr, Display.without, List.filter_eq_self.mpr fun x hx => ?_]
    simp only [List.mem_singleton, decide_not, Bool.not_eq_true', decide_eq_false_iff_not]
    exact fun he => hthere ⟨x, hx, he⟩

theorem childrenOf_displayed (t : Toolkit κ) (id : String) :
    t.displayed.childrenOf id = (t.childrenOf id).map t.shown := by
  rw [Display.childrenOf, displayed, List.filter_map, childrenOf]
  rfl

theorem row_displayed_iff {x : Shown} : x ∈ t.displayed.childrenOf id ∧ isRow x ↔
    ∃ y ∈ (t.childrenOf id).filter fun y => y.kind != "add_table_column", t.shown y = x := by
  rw [childrenOf_displayed, List.mem_map]
  constructor
  · rintro ⟨⟨y, hy, rfl⟩, hrow⟩
    exact ⟨y, List.mem_filter.mpr ⟨hy, hrow⟩, rfl⟩
  · rintro ⟨y, hy, rfl⟩
    obtain ⟨hy, hrow⟩ := List.mem_filter.mp hy
    exact ⟨⟨y, hy, rfl⟩, hrow⟩

theorem Counted.deleteRows {table : String} (h : t.Counted)
    (hthere : (t.displayed.look table).isSome) :
    ∃ t' gone, (deleteChildren (some table) .rows).outcome t = (.ok (), t') ∧ t'.Counted ∧
      table ∉ gone ∧
      (∀ x ∈ t.displayed.childrenOf table, isRow x → x.id ≠ table → x.id ∈ gone) ∧
      (∀ j ∈ gone, ∃ x ∈ t.displayed.childrenOf table, isRow x ∧ t.displayed.Below x.id j) ∧
      t'.displayed = t.displayed.without gone := by
  let options : Options := [("children_only", .flag true), ("slot", .number 1)]
  let r := t.record "delete_item" [.text table] options
  have hrecord : r.displayed = t.displayed ∧ _ := displayed_record (by decide) (by decide)
  have hexists : r.exists? table = true := by
    rw [exists?_eq, hrecord.1]
    exact hthere
  let rows := (r.childrenOf table).filter fun x => x.kind != "add_table_column"
  let gone := (r.withBelow (rows.map Item.id)).filter (· != table)
  have hrows {x : Shown} : x ∈ t.displayed.childrenOf table ∧ isRow x ↔
      ∃ y ∈ rows, r.shown y = x := hrecord.1 ▸ row_displayed_iff
  obtain ⟨hdisplayed, hkept⟩ := displayed_drop r gone
  refine ⟨r.drop gone, gone, ?_, hkept.mpr (hrecord.2.mpr h), by simp [gone],
    fun x hx hrow hne => ?_, fun j hj => ?_, hrecord.1 ▸ hdisplayed⟩
  · rw [deleteChildren, Effect.outcome_bind_ok (Effect.outcome_modify _ _)]
    dsimp only [Value.ofOption]
    rw [Effect.outcome_bind_ok (Effect.outcome_get _), hexists]
    rfl
  · obtain ⟨y, hy, rfl⟩ := hrows.mp ⟨hx, hrow⟩
    exact List.mem_filter.mpr ⟨mem_withBelow_self (List.mem_map_of_mem hy), by simpa using hne⟩
  · have htops : ∀ top ∈ rows.map Item.id, ∃ x ∈ r.displayed.items, x.id = top := by
      intro top htop
      obtain ⟨y, hy, rfl⟩ := List.mem_map.mp htop
      have hin := (List.mem_filter.mp (List.mem_filter.mp hy).1).1
      exact ⟨r.shown y, List.mem_map_of_mem hin, rfl⟩
    obtain ⟨top, htop, hbelow⟩ := withBelow_below htops j (List.mem_filter.mp hj).1
    obtain ⟨y, hy, rfl⟩ := List.mem_map.mp htop
    obtain ⟨hx, hrow⟩ := hrows.mpr ⟨y, hy, rfl⟩
    exact ⟨r.shown y, hx, hrow, hrecord.1 ▸ hbelow⟩

theorem displayed_modifyOptions (t : Toolkit κ) (id : String) (f : Options → Options) :
    (t.modifyOptions id f).displayed = t.displayed.changing id f := by
  refine Display.ext ?_ rfl rfl rfl rfl rfl
  change ((t.items.map _).map _) = (t.items.map _).map _
  rw [List.map_map, List.map_map]
  refine List.map_congr_left fun x _ => ?_
  by_cases hx : x.id = id <;> simp only [Function.comp, shown, Display.changed, hx, ↓reduceIte] <;>
    rfl

theorem Counted.configure (h : t.Counted) (id : String) (options : Options) :
    let r := (Toolkit.configure id options).outcome t
    ((t.displayed.look id).isSome → r.1 = .ok ()) ∧ r.2.Counted ∧
      ∃ f, r.2.displayed = t.displayed.changing id f := by
  let r := t.record "configure_item" [.text id] options
  let f (old : Options) := options.foldl (fun os entry => setOption os entry.1 entry.2) old
  have hrecord : r.displayed = t.displayed ∧ _ := displayed_record (by decide) (by decide)
  have hconfigure : (Toolkit.configure id options).outcome t =
      if r.exists? id then (.ok (), r.modifyOptions id f) else (.error .unknownItem, r) := by
    rw [Toolkit.configure, Effect.outcome_bind_ok (Effect.outcome_modify _ t),
      Effect.outcome_bind_ok (Effect.outcome_get _)]
    dsimp only
    change Effect.outcome (if !r.exists? id then _ else _) r = _
    cases r.exists? id <;> rfl
  rw [hconfigure, ← hrecord.1, ← exists?_eq]
  dsimp only
  split
  · exact ⟨fun _ => rfl, hrecord.2.mpr h, f, displayed_modifyOptions r id f⟩
  next hnot =>
    refine ⟨fun hthere => absurd hthere hnot, hrecord.2.mpr h, fun old => old, ?_⟩
    rw [Display.changing]
    refine Display.ext (Eq.symm ?_) rfl rfl rfl rfl rfl
    refine (List.map_congr_left fun x _ => ?_).trans (List.map_id _)
    rw [Display.changed, ite_self]
    rfl

theorem quiet_of_passive : ∀ f ∈ passive, f ∉ makers ∧ f ≠ "focus_item" := by decide

instance : LawfulGui (Toolkit κ) κ where
  display := displayed
  Valid := Counted
  empty := ⟨rfl, _, rfl⟩
  make t kind arguments options callback h hknown hk htag := by
    obtain ⟨hmake, hcounted, hdisplayed⟩ := h.make hknown hk htag callback
    have hmade : Gui.make t kind arguments options callback = _ := hmake
    rw [hmade]
    exact ⟨hcounted, not_not_intro (ahead_label t), hdisplayed⟩
  enter _ h := ⟨h, rfl⟩
  leave h := ⟨h, rfl⟩
  call t function arguments h hf := by
    obtain ⟨hmakes, hfocus⟩ := quiet_of_passive function hf
    have hrecord : (t.record function arguments []).displayed = t.displayed ∧ _ :=
      displayed_record hmakes hfocus
    exact ⟨hrecord.2.mpr h, hrecord.1⟩
  focus id h := ⟨h, rfl⟩
  delete id h := h.delete id
  deleteRows h hthere := h.deleteRows hthere
  configure id options h := h.configure id options
  setMouse _ h := ⟨h, rfl⟩

end DebugDesk.Toolkit
