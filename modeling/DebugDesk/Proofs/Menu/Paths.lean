import Mathlib.Data.List.Nodup
import DebugDesk.Effect
import DebugDesk.Menu

/-!
# Paths of a menu

In a menu, siblings have distinct labels. Then a path leads to at most one item, looking it up finds
that item, and walking the menu meets every item once, after the category that holds it.
-/
namespace DebugDesk.MenuItem

variable {β : Type} {items inside : List (MenuItem β)} {item : MenuItem β}
  {above path : List String} {label step : String}

/-- An item that is made of actions and of categories whose children have distinct labels. -/
inductive Built : MenuItem β → Prop
  | action (label : String) (call : β) : Built (action label call)
  | category {label : String} {children : List (MenuItem β)} {item : MenuItem β}
      (below : ∀ child ∈ children, Built child) (made : makeCategory label children = .ok item) :
      Built item

structure IsMenu (items : List (MenuItem β)) : Prop where
  labels : (items.map MenuItem.label).Nodup
  built : ∀ item ∈ items, Built item

/-- A path leads to an item: it goes down through categories, by their labels. -/
inductive At : List (MenuItem β) → List String → MenuItem β → Prop
  | here {items : List (MenuItem β)} {item : MenuItem β} (mem : item ∈ items) :
      At items [item.label] item
  | inside {items children : List (MenuItem β)} {label : String} {path : List String}
      {item : MenuItem β} (mem : category label children ∈ items) (rest : At children path item) :
      At items (label :: path) item

/-- A path leads to the items to choose from next. -/
inductive Opens (items : List (MenuItem β)) : List String → List (MenuItem β) → Prop
  | top : Opens items [] items
  | category {above : List String} {label : String} {children : List (MenuItem β)}
      (found : At items above (category label children)) : Opens items above children

/-- Why a path leads to no item. -/
inductive Missing (items : List (MenuItem β)) : List String → Fault → Prop
  | empty : Missing items [] .emptyPath
  | unknown {above : List String} {children : List (MenuItem β)}
    (opened : Opens items above children)
      (step : String) (absent : step ∉ children.map MenuItem.label) (rest : List String) :
      Missing items (above ++ step :: rest) (.noSuchItem step above)
  | belowAction {above : List String} {label : String} {call : β}
      (found : At items above (action label call)) (rest : List String) (more : rest ≠ []) :
      Missing items (above ++ rest) (.belowAction above)

mutual

def subitems : MenuItem β → List (MenuItem β)
  | action label call => [action label call]
  | category label children => category label children :: allItems children

def allItems : List (MenuItem β) → List (MenuItem β)
  | [] => []
  | item :: rest => subitems item ++ allItems rest

end

theorem repeatedLabels_eq_nil {labels : List String} :
    repeatedLabels labels = [] ↔ labels.Nodup := by
  have hperm := List.mergeSort_perm ((labels.filter fun l => labels.count l > 1).eraseDups)
    fun a b => !(b < a)
  have hnil : repeatedLabels labels = [] ↔
      (labels.filter fun l => labels.count l > 1).eraseDups = [] :=
    ⟨fun h => (hperm.symm.trans (.of_eq h)).eq_nil, fun h => (hperm.trans (.of_eq h)).eq_nil⟩
  rw [hnil, List.nodup_iff_count_le_one, List.eq_nil_iff_forall_not_mem]
  simp only [List.mem_eraseDups, List.mem_filter, decide_eq_true_eq, not_and, gt_iff_lt,
    Nat.not_lt]
  refine ⟨fun h l => ?_, fun h l _ => h l⟩
  by_cases hl : l ∈ labels
  · exact h l hl
  · simp [List.count_eq_zero_of_not_mem hl]

theorem makeCategory_eq_ok : makeCategory label inside = .ok item ↔
    (inside.map MenuItem.label).Nodup ∧ item = category label inside := by
  rw [← repeatedLabels_eq_nil, makeCategory]
  split
  next h => simp [h, eq_comm]
  next h =>
    constructor
    · intro hmade
      cases hmade
    · rintro ⟨hnil, -⟩
      exact absurd hnil h

theorem IsMenu.category (h : IsMenu inside) (label : String) : Built (category label inside) :=
  .category h.built (makeCategory_eq_ok.mpr ⟨h.labels, rfl⟩)

theorem IsMenu.children (h : IsMenu items) (hc : .category label inside ∈ items) :
    IsMenu inside := by
  cases h.built _ hc with
  | category below made =>
    obtain ⟨hlabels, hitem⟩ := makeCategory_eq_ok.mp made
    cases hitem
    exact ⟨hlabels, below⟩

theorem IsMenu.eq_of_label {a b : MenuItem β} (h : IsMenu items) (ha : a ∈ items) (hb : b ∈ items)
    (hl : a.label = b.label) : a = b := List.inj_on_of_nodup_map h.labels ha hb hl

theorem not_at_nil : ¬ At items [] item := by
  intro h
  cases h

theorem at_append {more : List (MenuItem β)} :
    At (items ++ more) path item ↔ At items path item ∨ At more path item := by
  constructor
  · intro h
    cases h with
    | here mem => exact (List.mem_append.mp mem).imp .here .here
    | inside mem rest => exact (List.mem_append.mp mem).imp (.inside · rest) (.inside · rest)
  · rintro (h | h)
    all_goals
      cases h with
      | here mem => exact .here (by simp [mem])
      | inside mem rest => exact .inside (by simp [mem]) rest

theorem At.head (h : At items (step :: path) item) : step ∈ items.map MenuItem.label := by
  cases h with
  | here mem => exact List.mem_map_of_mem mem
  | inside mem rest => exact List.mem_map_of_mem mem

theorem At.trans (h : At items above (category label inside)) (hat : At inside path item) :
    At items (above ++ path) item := by
  generalize hc : MenuItem.category label inside = c at h
  induction h with
  | here mem =>
    subst hc
    exact .inside mem hat
  | inside mem rest ih => exact .inside mem (ih hc)

theorem Opens.trans (h : Opens items above inside) (hat : At inside path item) :
    At items (above ++ path) item := by
  cases h with
  | top => exact hat
  | category found => exact found.trans hat

theorem Opens.next (h : Opens items above inside) {children : List (MenuItem β)}
    (hc : MenuItem.category label children ∈ inside) : Opens items (above ++ [label]) children :=
  .category (h.trans (.here hc))

theorem mem_of_find_label {found : MenuItem β}
    (h : items.find? (fun item => item.label = step) = some found) :
    found ∈ items ∧ found.label = step :=
  ⟨List.mem_of_find?_eq_some h, by simpa using List.find?_some h⟩

theorem not_at_of_find_label (h : items.find? (fun item => item.label = step) = none) :
    step ∉ items.map MenuItem.label := by
  intro hstep
  obtain ⟨item, hitem, hlabel⟩ := List.mem_map.mp hstep
  simpa [hlabel] using List.find?_eq_none.mp h item hitem

/-- The first step of a path in a menu leads to the item of that label. -/
theorem IsMenu.at_cons {found : MenuItem β} (h : IsMenu items) (hf : found ∈ items) :
    At items (found.label :: path) item ↔ path = [] ∧ item = found ∨
      ∃ label children, found = .category label children ∧ At children path item := by
  constructor
  · intro hat
    generalize hl : found.label :: path = whole at hat
    cases hat with
    | here mem =>
      obtain ⟨hlabel, rfl⟩ := List.cons.inj hl
      exact .inl ⟨rfl, h.eq_of_label mem hf hlabel.symm⟩
    | inside mem rest =>
      obtain ⟨hlabel, rfl⟩ := List.cons.inj hl
      exact .inr ⟨_, _, h.eq_of_label hf mem hlabel, rest⟩
  · rintro (⟨rfl, rfl⟩ | ⟨label, children, rfl, hat⟩)
    · exact .here hf
    · exact .inside hf hat

theorem findFrom_eq_ok (h : IsMenu items) :
    findFrom above items path = .ok item ↔ At items path item := by
  induction above, items, path using findFrom.induct with
  | case1 above items => simp [findFrom, not_at_nil]
  | case2 above items step path hfind =>
    have hnone : ¬ At items (step :: path) item := fun hat =>
      not_at_of_find_label hfind hat.head
    simp [findFrom, hfind, hnone]
  | case3 above items step found hfind =>
    obtain ⟨hf, rfl⟩ := mem_of_find_label hfind
    rw [findFrom.eq_3 _ _ _ _ hfind, h.at_cons hf]
    simp [not_at_nil, eq_comm]
  | case4 above items step label children path hpath hfind ih =>
    obtain ⟨hf, rfl⟩ := mem_of_find_label hfind
    have hne : path ≠ [] := hpath
    rw [findFrom.eq_4 _ _ _ _ _ _ hfind hpath, ih (h.children hf), h.at_cons hf]
    simp [hne]
  | case5 above items step path label call hfind hpath =>
    obtain ⟨hf, rfl⟩ := mem_of_find_label hfind
    have hne : path ≠ [] := hpath
    rw [findFrom.eq_5 _ _ _ _ _ _ hfind hpath, h.at_cons hf]
    simp [hne]

/-- A look-up that fails tells where the path stops short. -/
theorem missing_of_findFrom {root : List (MenuItem β)} {fault : Fault}
    (hopen : Opens root above items) (hpath : path ≠ [])
    (h : findFrom above items path = .error fault) : Missing root (above ++ path) fault := by
  induction above, items, path using findFrom.induct with
  | case1 above items => exact absurd rfl hpath
  | case2 above items step path hfind =>
    rw [findFrom.eq_2 _ _ _ _ hfind] at h
    obtain rfl := Except.error.inj h
    exact .unknown hopen step (not_at_of_find_label hfind) path
  | case3 above items step found hfind =>
    rw [findFrom.eq_3 _ _ _ _ hfind] at h
    cases h
  | case4 above items step label children path hne hfind ih =>
    obtain ⟨hf, rfl⟩ := mem_of_find_label hfind
    rw [findFrom.eq_4 _ _ _ _ _ _ hfind hne] at h
    simpa using ih (hopen.next hf) hne h
  | case5 above items step path label call hfind hne =>
    obtain ⟨hf, rfl⟩ := mem_of_find_label hfind
    rw [findFrom.eq_5 _ _ _ _ _ _ hfind hne] at h
    obtain rfl := Except.error.inj h
    simpa using Missing.belowAction (hopen.trans (.here hf)) path hne

theorem find_eq_ok (h : IsMenu items) : find items path = .ok item ↔ At items path item :=
  findFrom_eq_ok h

theorem missing_of_find {fault : Fault} (h : find items path = .error fault) :
    Missing items path fault := by
  cases path with
  | nil =>
    rw [find, findFrom] at h
    obtain rfl := Except.error.inj h
    exact .empty
  | cons step path => exact missing_of_findFrom .top (List.cons_ne_nil _ _) h

theorem at_action {call : β} : At [action label call] path item ↔
    path = [label] ∧ item = action label call := by
  constructor
  · intro h
    cases h with
    | here mem => simp [List.mem_singleton.mp mem, MenuItem.label]
    | inside mem rest => simp at mem
  · rintro ⟨rfl, rfl⟩
    exact .here (List.mem_singleton_self _)

theorem at_category : At [category label inside] path item ↔
    (path = [label] ∧ item = category label inside) ∨
      ∃ rest, path = label :: rest ∧ At inside rest item := by
  constructor
  · intro h
    cases h with
    | here mem => simp [List.mem_singleton.mp mem, MenuItem.label]
    | inside mem rest =>
      obtain ⟨rfl, rfl⟩ := MenuItem.category.inj (List.mem_singleton.mp mem)
      exact .inr ⟨_, rfl, rest⟩
  · rintro (⟨rfl, rfl⟩ | ⟨rest, rfl, hat⟩)
    · exact .here (List.mem_singleton_self _)
    · exact .inside (List.mem_singleton_self _) hat

/-- A walk meets an item with every path that leads to it. -/
theorem mem_walk : (path, item) ∈ walk above items ↔
    ∃ rest, path = above ++ rest ∧ At items rest item := by
  refine walk.induct
    (fun above first => (path, item) ∈ walkItem above first ↔
      ∃ rest, path = above ++ rest ∧ At [first] rest item)
    (fun above items => (path, item) ∈ walk above items ↔
      ∃ rest, path = above ++ rest ∧ At items rest item)
    (fun above label call => ?_) (fun above label children ih => ?_)
    (fun above => ?_) (fun above first others hfirst hothers => ?_) above items
  · simp [walkItem, at_action]
  · simp only [walkItem, List.mem_cons, Prod.mk.injEq, ih, at_category]
    constructor
    · rintro (⟨rfl, rfl⟩ | ⟨rest, rfl, hat⟩)
      · exact ⟨_, rfl, .inl ⟨rfl, rfl⟩⟩
      · exact ⟨label :: rest, by simp, .inr ⟨rest, rfl, hat⟩⟩
    · rintro ⟨rest, rfl, ⟨rfl, rfl⟩ | ⟨rest, rfl, hat⟩⟩
      · exact .inl ⟨rfl, rfl⟩
      · exact .inr ⟨rest, by simp, hat⟩
  · have hnone : ∀ rest, ¬ At ([] : List (MenuItem β)) rest item := by
      intro rest hat
      cases hat with
      | here mem => simp at mem
      | inside mem rest => simp at mem
    simp [walk, hnone]
  · rw [walk, List.mem_append, hfirst, hothers, ← exists_or]
    refine exists_congr fun rest => ?_
    rw [← and_or_left, ← at_append, List.singleton_append]

theorem walkItem_eq (above : List String) (item : MenuItem β) :
    walkItem above item = walk above [item] := by simp [walk]

/-- A walk meets exactly the items of the tree, one after the other. -/
theorem items_walk (above : List String) (items : List (MenuItem β)) :
    (walk above items).map Prod.snd = allItems items := by
  refine walk.induct
    (fun above item => (walkItem above item).map Prod.snd = subitems item)
    (fun above items => (walk above items).map Prod.snd = allItems items)
    (fun above label call => ?_) (fun above label children ih => ?_)
    (fun above => ?_) (fun above first others hfirst hothers => ?_) above items
  · simp [walkItem, subitems]
  · simp [walkItem, subitems, ih]
  · simp [walk, allItems]
  · simp [walk, allItems, hfirst, hothers]

/-- A walk of a menu meets no path twice. -/
theorem nodup_walk (h : IsMenu items) : ((walk above items).map Prod.fst).Nodup := by
  revert h
  refine walk.induct
    (fun above item => Built item → ((walkItem above item).map Prod.fst).Nodup)
    (fun above items => IsMenu items → ((walk above items).map Prod.fst).Nodup)
    (fun above label call _ => ?_) (fun above label children ih hbuilt => ?_)
    (fun above _ => ?_) (fun above first others hfirst hothers h => ?_) above items
  · simp [walkItem]
  · have hmenu : IsMenu [category label children] := ⟨by simp, by simpa using hbuilt⟩
    have hbelow : above ++ [label] ∉ (walk (above ++ [label]) children).map Prod.fst := by
      intro hmem
      obtain ⟨⟨path, item⟩, hitem, hpath⟩ := List.mem_map.mp hmem
      obtain ⟨rest, hrest, hat⟩ := mem_walk.mp hitem
      have hnil : rest = [] := by simpa [hrest] using hpath
      exact not_at_nil (hnil ▸ hat)
    rw [walkItem, List.map_cons, List.nodup_cons]
    exact ⟨hbelow, ih (hmenu.children (List.mem_singleton_self _))⟩
  · simp [walk]
  · obtain ⟨hlabel, hlabels⟩ := List.nodup_cons.mp h.labels
    have hrest : IsMenu others := ⟨hlabels, fun item hi => h.built item (List.mem_cons_of_mem _ hi)⟩
    rw [walk, List.map_append, List.nodup_append]
    refine ⟨hfirst (h.built first List.mem_cons_self), hothers hrest, ?_⟩
    rintro path hp _ hq rfl
    obtain ⟨⟨_, item⟩, hitem, rfl⟩ := List.mem_map.mp hp
    obtain ⟨⟨_, other⟩, hother, hsame⟩ := List.mem_map.mp hq
    rw [walkItem_eq] at hitem
    obtain ⟨rest, hpath, hat⟩ := mem_walk.mp hitem
    obtain ⟨rest', hpath', hat'⟩ := mem_walk.mp hother
    obtain rfl : rest' = rest := List.append_cancel_left (hpath'.symm.trans (hsame.trans hpath))
    -- both paths begin with the label of their first item
    cases hat with
    | here mem =>
      rw [List.mem_singleton.mp mem] at hat'
      exact hlabel hat'.head
    | inside mem rest =>
      rw [← List.mem_singleton.mp mem] at hlabel
      exact hlabel hat'.head

theorem walkItem_sublist (above : List String) (h : item ∈ items) :
    (walkItem above item).Sublist (walk above items) := by
  induction items with
  | nil => simp at h
  | cons first others ih =>
    rw [walk]
    rcases List.mem_cons.mp h with rfl | h
    · exact List.sublist_append_left _ _
    · exact (ih h).trans (List.sublist_append_right _ _)

/-- An item that is met is one of the list, or comes after the category that holds it. -/
theorem walk_parent (h : At items path item) (above : List String) :
    (item ∈ items ∧ path = [item.label]) ∨ ∃ up label children, path = up ++ [item.label] ∧
      item ∈ children ∧ [(above ++ up, category label children), (above ++ path, item)].Sublist
        (walk above items) := by
  induction h generalizing above with
  | here mem => exact .inl ⟨mem, rfl⟩
  | @inside items children label path item mem rest ih =>
    have hwalk := walkItem_sublist above mem
    rw [walkItem] at hwalk
    rcases ih (above ++ [label]) with ⟨hitem, rfl⟩ | ⟨up, label', children', rfl, hitem, hsub⟩
    · have hmet : (above ++ [label] ++ [item.label], item) ∈ walk (above ++ [label]) children :=
        mem_walk.mpr ⟨_, rfl, rest⟩
      refine .inr ⟨[label], label, children, rfl, hitem, .trans ?_ hwalk⟩
      simpa using List.singleton_sublist.mpr hmet
    · refine .inr ⟨label :: up, label', children', rfl, hitem, .trans ?_ hwalk⟩
      simpa using hsub.cons (above ++ [label], category label children)

section

variable {m : Type → Type} [Monad m] [MonadExceptOf Fault m] (run : β → m Unit)

theorem activate_action {call : β} (h : find items path = .ok (action label call)) :
    activate run items path = run call := by
  rw [activate, actionAt, h]
  rfl

theorem activate_category (h : find items path = .ok (category label inside)) :
    activate run items path = throwThe Fault (.categoryActivated label path) := by
  rw [activate, actionAt, h]
  rfl

theorem activate_error {fault : Fault} (h : find items path = .error fault) :
    activate run items path = throwThe Fault fault := by
  rw [activate, actionAt, h]
  rfl

end

/-- Writes a call down and makes it; its answer may be a failure. -/
def noted (answer : β → Except Fault Unit) (call : β) : Effect (List β) Unit := do
  modify (· ++ [call])
  Effect.ofExcept (answer call)

/-- What there is at a path of a menu, and what comes of activating it. -/
inductive Reached (items : List (MenuItem β)) (path : List String) : Prop where
  /-- An action is called once, and nothing else is. -/
  | called (label : String) (call : β) (met : (path, action label call) ∈ walk [] items)
      (effect : ∀ (σ : Type) (run : β → Effect σ Unit), activate run items path = run call)
      (once : ∀ answer calls, (activate (noted answer) items path).outcome calls =
        (answer call, calls ++ [call]))
  /-- A category is no action, and nothing is called. -/
  | refused (label : String) (children : List (MenuItem β))
      (met : (path, category label children) ∈ walk [] items)
      (effect : ∀ (σ : Type) (run : β → Effect σ Unit) (s : σ),
        (activate run items path).outcome s = (.error (.categoryActivated label path), s))
  /-- There is no item, neither for a look-up nor to be called. -/
  | missed (fault : Fault) (unmet : ∀ item, (path, item) ∉ walk [] items)
      (why : Missing items path fault) (found : find items path = .error fault)
      (effect : ∀ (σ : Type) (run : β → Effect σ Unit) (s : σ),
        (activate run items path).outcome s = (.error fault, s))

theorem find_eq_ok_iff_mem_walk (h : IsMenu items) :
    find items path = .ok item ↔ (path, item) ∈ walk [] items := by
  rw [find_eq_ok h, mem_walk]
  simp

theorem reached (h : IsMenu items) (path : List String) : Reached items path := by
  cases hfind : find items path with
  | ok item =>
    have hmet := (find_eq_ok_iff_mem_walk h).mp hfind
    cases item with
    | action label call =>
      refine .called label call hmet (fun _ run => activate_action run hfind) fun answer calls => ?_
      rw [activate_action _ hfind]
      rfl
    | category label children =>
      refine .refused label children hmet fun _ run s => ?_
      rw [activate_category run hfind]
      rfl
  | error fault =>
    refine .missed fault (fun item hmet => ?_) (missing_of_find hfind) hfind fun _ run s => ?_
    · rw [(find_eq_ok_iff_mem_walk h).mpr hmet] at hfind
      cases hfind
    · rw [activate_error run hfind]
      rfl

/-- A look-up finds exactly what a walk meets at the path, and activating the path calls an action
that is found there, once, and nothing else. A walk meets every item of the tree at a path of its
own, and those inside a category after it. -/
theorem find_activate_walk (h : IsMenu items) :
    (∀ path item, find items path = .ok item ↔ (path, item) ∈ walk [] items) ∧
      (∀ path, Reached items path) ∧
      ((walk [] items).map Prod.fst).Nodup ∧
      (walk [] items).map Prod.snd = allItems items ∧
      ∀ path item, (path, item) ∈ walk [] items → (item ∈ items ∧ path = [item.label]) ∨
        ∃ up label children, path = up ++ [item.label] ∧ item ∈ children ∧
          [(up, category label children), (path, item)].Sublist (walk [] items) := by
  refine ⟨fun path item => find_eq_ok_iff_mem_walk h, reached h, nodup_walk h, items_walk [] items,
    fun path item hmet => ?_⟩
  obtain ⟨rest, hpath, hat⟩ := mem_walk.mp hmet
  obtain rfl : path = rest := hpath
  exact walk_parent hat []

def nested : List (MenuItem Nat) :=
  [.category "File" [.action "Exit" 0],
    .category "View" [.action "Graph" 1, .category "Debug" [.action "Log" 2]]]

theorem isMenu_nested : IsMenu nested := by
  have haction : ∀ (label : String) (call : Nat), IsMenu [action label call] := fun label call =>
    ⟨by simp, by simpa using Built.action label call⟩
  have hview : IsMenu [action "Graph" 1, category "Debug" [action "Log" 2]] := by
    refine ⟨by decide, ?_⟩
    simpa using ⟨Built.action "Graph" 1, (haction "Log" 2).category "Debug"⟩
  refine ⟨by decide, ?_⟩
  simpa [nested] using ⟨(haction "Exit" 0).category "File", hview.category "View"⟩

theorem nested_found : IsMenu nested ∧
    (["View", "Debug", "Log"], .action "Log" 2) ∈ walk [] nested ∧
    Reached nested ["View", "Debug", "Log"] ∧ Reached nested ["File", "Exit", "Now"] :=
  have hpaths := find_activate_walk isMenu_nested
  ⟨isMenu_nested, (hpaths.1 _ _).mp rfl, hpaths.2.1 _, hpaths.2.1 _⟩

end DebugDesk.MenuItem
