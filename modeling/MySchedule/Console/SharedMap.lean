import MySchedule.Console.QuartzApplication

/-!
# The schedulers in the shared map

Whether a key is taken is looked up in the tree of the session, not in the map. As
long as each tree shows the taken keys that its session saves under, a Save is
refused or adds a new key, and no scheduler is lost.
-/

namespace MySchedule.Console

open Java Keyed Machines

variable {ι Scheduler : Type} [DecidableEq ι]

/-- A Save has added a new key to the map, and the same item to the tree of its session. -/
structure Added (s s' : WebApp ι Scheduler) (i : ι) (panel : LeftPanel) (itemId : String)
    (scheduler : Scheduler) : Prop where
  new : s.schedulersMap.get itemId = none
  keys : s'.schedulersMap.keys = s.schedulersMap.keys ++ [itemId]
  stored : s'.schedulersMap.get itemId = some scheduler
  rest : ∀ k, k ≠ itemId → s'.schedulersMap.get k = s.schedulersMap.get k
  shown : ∃ panel', s'.sessions = Function.update s.sessions i (some panel') ∧
    panel'.treeData.keys = panel.treeData.keys ++ [itemId]

section

variable (loadFromString : String → Except Throwable Properties) (s : WebApp ι Scheduler)

/-- A Save throws and changes nothing, or adds a new key. -/
def Proper : Action ι Scheduler → Prop
  | .openSession _ _ => True
  | .save i text template => ∀ panel, s.sessions i = some panel →
    (∃ ex, save loadFromString s i text template = (.error ex, s)) ∨
      ∃ s' itemId scheduler, save loadFromString s i text template = (.ok (), s') ∧
        template = .ok scheduler ∧ Added s s' i panel itemId scheduler

/-- Where a Save gets as far as creating a scheduler, the tree of its session shows the key if
the map has it. -/
def Shown : Action ι Scheduler → Prop
  | .openSession _ _ => True
  | .save i text template => ∀ panel props scheduler, s.sessions i = some panel →
    loadFromString text = .ok props → template = .ok scheduler →
    s.schedulersMap.get (itemIdOf props) ≠ none → panel.schedulerExists (itemIdOf props) = true

end

section Panel

variable {treeData : HierarchicalContainer} {panel : LeftPanel} {itemId parentId k : String}

/-- A scheduler is shown if the tree has its item. -/
theorem schedulerExists_iff :
    panel.schedulerExists itemId = true ↔ panel.treeData.get itemId ≠ none := by
  rw [LeftPanel.schedulerExists, Option.isSome_iff_ne_none]

/-- The added item is there. -/
theorem HierarchicalContainer.get_addItem : (treeData.addItem itemId).get itemId ≠ none := by
  unfold HierarchicalContainer.addItem
  split
  · rwa [← Option.isSome_iff_ne_none]
  · simp

/-- Adding an item removes none. -/
theorem HierarchicalContainer.addItem_mono (h : treeData.get k ≠ none) :
    (treeData.addItem itemId).get k ≠ none := by
  unfold HierarchicalContainer.addItem
  split
  · exact h
  · exact LinkedMap.get_put_ne_none h

/-- A new item comes last. -/
theorem HierarchicalContainer.keys_addItem (h : treeData.get itemId = none) :
    (treeData.addItem itemId).keys = treeData.keys ++ [itemId] := by
  rw [HierarchicalContainer.addItem, if_neg (by simp [h]), LinkedMap.keys_put_of_new h]

/-- Setting a parent removes no item. -/
theorem HierarchicalContainer.setParent_mono (h : treeData.get k ≠ none) :
    (treeData.setParent itemId parentId).get k ≠ none := by
  unfold HierarchicalContainer.setParent
  split
  · exact LinkedMap.get_put_ne_none h
  · exact h

/-- Setting the parent of an item moves none. -/
theorem HierarchicalContainer.keys_setParent (h : treeData.get itemId ≠ none) :
    (treeData.setParent itemId parentId).keys = treeData.keys := by
  unfold HierarchicalContainer.setParent
  split
  · exact LinkedMap.keys_put_of_present h
  · rfl

/-- A new item is the last one, whatever becomes of its parent. -/
theorem keys_createSubItem (h : panel.treeData.get itemId = none) :
    (panel.createSubItem itemId parentId).treeData.keys = panel.treeData.keys ++ [itemId] := by
  change ((panel.treeData.addItem itemId).setParent itemId parentId).keys = _
  rw [HierarchicalContainer.keys_setParent HierarchicalContainer.get_addItem,
    HierarchicalContainer.keys_addItem h]

/-- The created item is shown. -/
theorem exists_createSubItem :
    (panel.createSubItem itemId parentId).schedulerExists itemId = true :=
  schedulerExists_iff.mpr (HierarchicalContainer.setParent_mono HierarchicalContainer.get_addItem)

/-- Creating an item removes none. -/
theorem createSubItem_mono (h : panel.schedulerExists k = true) :
    (panel.createSubItem itemId parentId).schedulerExists k = true := by
  rw [schedulerExists_iff] at h ⊢
  exact HierarchicalContainer.setParent_mono (HierarchicalContainer.addItem_mono h)

/-- A session that opens shows every scheduler of the map. -/
theorem exists_initTreeData {names : List String} (h : k ∈ names) :
    (LeftPanel.initTreeData names).schedulerExists k = true := by
  have hfold : ∀ panel : LeftPanel, k ∈ names ∨ panel.schedulerExists k = true →
      (names.foldl LeftPanel.createNewScheduler panel).schedulerExists k = true := by
    clear h
    induction names with
    | nil =>
      intro panel h
      exact h.resolve_left (by simp)
    | cons name names ih =>
      intro panel h
      apply ih
      rcases h with h | h
      · rcases List.mem_cons.mp h with rfl | h
        · exact Or.inr exists_createSubItem
        · exact Or.inl h
      · exact Or.inr (createSubItem_mono h)
  have htools : ∀ panel : LeftPanel, panel.schedulerExists k = true →
      (panel.addItem LeftPanel.toolsItemId).schedulerExists k = true := by
    intro panel h
    rw [schedulerExists_iff] at h ⊢
    exact HierarchicalContainer.addItem_mono h
  exact createSubItem_mono (createSubItem_mono (htools _ (hfold _ (Or.inl h))))

end Panel

section Save

variable {loadFromString : String → Except Throwable Properties} {s : WebApp ι Scheduler} {i : ι}
  {panel : LeftPanel} {text : String} {template : Except Throwable Scheduler} {props : Properties}
  {scheduler : Scheduler}

omit [DecidableEq ι] in
/-- Saving a text that can be loaded. -/
theorem processNewSchedulerSettings_loaded (hload : loadFromString text = .ok props) :
    processNewSchedulerSettings loadFromString s.schedulersMap panel text template =
      if panel.schedulerExists (itemIdOf props) then .error (alreadyExists (itemIdOf props))
      else template.map fun scheduler =>
        (s.schedulersMap.put (itemIdOf props) scheduler,
          panel.createNewScheduler (itemIdOf props)) := by
  unfold processNewSchedulerSettings
  rw [hload]
  cases hexists : panel.schedulerExists (itemIdOf props) with
  | true => simp [hexists, bind, Except.bind, throw, throwThe, MonadExceptOf.throw]
  | false => cases template <;> simp [hexists, bind, Except.bind, pure, Except.pure, Except.map]

/-- A Save that goes through. -/
theorem save_stored (hs : s.sessions i = some panel) (hload : loadFromString text = .ok props)
    (hexists : panel.schedulerExists (itemIdOf props) = false) :
    save loadFromString s i text (.ok scheduler) =
      (.ok (), ⟨s.schedulersMap.put (itemIdOf props) scheduler,
        Function.update s.sessions i (some (panel.createNewScheduler (itemIdOf props)))⟩) := by
  simp only [save, hs, processNewSchedulerSettings_loaded hload, hexists, Bool.false_eq_true,
    if_false, Except.map]

/-- Every other Save is refused, and changes nothing. -/
theorem save_refused (hs : s.sessions i = some panel)
    (h : ∀ props scheduler, loadFromString text = .ok props → template = .ok scheduler →
      panel.schedulerExists (itemIdOf props) = true) :
    ∃ ex, save loadFromString s i text template = (.error ex, s) := by
  have hfailed : ∃ ex, processNewSchedulerSettings loadFromString s.schedulersMap panel text
      template = .error ex := by
    cases hload : loadFromString text with
    | error ex =>
      refine ⟨ex, ?_⟩
      rw [processNewSchedulerSettings, hload]
      rfl
    | ok props =>
      rw [processNewSchedulerSettings_loaded hload]
      cases template with
      | error ex =>
        split
        · exact ⟨_, rfl⟩
        · exact ⟨ex, rfl⟩
      | ok scheduler =>
        rw [if_pos (h props scheduler hload rfl)]
        exact ⟨_, rfl⟩
  obtain ⟨ex, hex⟩ := hfailed
  exact ⟨ex, by simp only [save, hs, hex]⟩

/-- All that a Save can do. -/
theorem save_cases (loadFromString : String → Except Throwable Properties)
    (hs : s.sessions i = some panel) (text : String) (template : Except Throwable Scheduler) :
    (∃ ex, save loadFromString s i text template = (.error ex, s)) ∨
      ∃ props scheduler, loadFromString text = .ok props ∧ template = .ok scheduler ∧
        panel.schedulerExists (itemIdOf props) = false := by
  by_cases h : ∀ props scheduler, loadFromString text = .ok props → template = .ok scheduler →
      panel.schedulerExists (itemIdOf props) = true
  · exact Or.inl (save_refused hs h)
  · simp only [not_forall, Bool.not_eq_true] at h
    obtain ⟨props, scheduler, hload, htemplate, hexists⟩ := h
    exact Or.inr ⟨props, scheduler, hload, htemplate, hexists⟩

/-- A Save under a key that neither the map nor the tree has. -/
theorem added_of_new (hexists : panel.schedulerExists (itemIdOf props) = false)
    (hnew : s.schedulersMap.get (itemIdOf props) = none) :
    Added s ⟨s.schedulersMap.put (itemIdOf props) scheduler,
      Function.update s.sessions i (some (panel.createNewScheduler (itemIdOf props)))⟩ i panel
      (itemIdOf props) scheduler where
  new := hnew
  keys := LinkedMap.keys_put_of_new hnew
  stored := LinkedMap.get_put_self
  rest _ hk := LinkedMap.get_put_of_ne hk
  shown := by
    have hitem : panel.treeData.get (itemIdOf props) = none := by
      simpa [LeftPanel.schedulerExists] using hexists
    exact ⟨_, rfl, keys_createSubItem hitem⟩

/-- A step is proper exactly when the session shows the key it saves under, if the map has
it. -/
theorem proper_iff_shown (s : WebApp ι Scheduler) (action : Action ι Scheduler) :
    Proper loadFromString s action ↔ Shown loadFromString s action := by
  cases action with
  | openSession i triggersTable => exact Iff.rfl
  | save i text template =>
    constructor
    · intro h panel props scheduler hs hload htemplate hmap
      subst htemplate
      by_contra hexists
      rw [Bool.not_eq_true] at hexists
      rcases h panel hs with ⟨ex, hex⟩ | ⟨s', itemId, scheduler', hok, _, hadded⟩
      · rw [save_stored hs hload hexists] at hex
        cases hex
      · -- the key was there, so the map has no more keys than before
        rw [save_stored hs hload hexists] at hok
        cases hok
        have hkeys := hadded.keys
        rw [LinkedMap.keys_put_of_present hmap] at hkeys
        simp at hkeys
    · intro h panel hs
      rcases save_cases loadFromString hs text template with
        hrefused | ⟨props, scheduler, hload, rfl, hexists⟩
      · exact Or.inl hrefused
      · have hnew : s.schedulersMap.get (itemIdOf props) = none := by
          by_contra hmap
          have hshown := h panel props scheduler hs hload rfl hmap
          rw [hexists] at hshown
          cases hshown
        exact Or.inr ⟨_, _, scheduler, save_stored hs hload hexists, rfl,
          added_of_new hexists hnew⟩

/-- A proper step leaves every scheduler where it is. -/
theorem Proper.kept {action : Action ι Scheduler} (h : Proper loadFromString s action)
    {k : String} {v : Scheduler} (hk : s.schedulersMap.get k = some v) :
    ((webApp ι Scheduler loadFromString).step s action).2.schedulersMap.get k = some v := by
  cases action with
  | openSession i triggersTable =>
    change (openSession s i triggersTable).2.schedulersMap.get k = some v
    unfold openSession
    split <;> exact hk
  | save i text template =>
    change (save loadFromString s i text template).2.schedulersMap.get k = some v
    cases hs : s.sessions i with
    | none => simpa only [save, hs] using hk
    | some panel =>
      rcases h panel hs with ⟨ex, hex⟩ | ⟨s', itemId, scheduler, hok, _, hadded⟩
      · rwa [hex]
      · rw [hok]
        have hne : k ≠ itemId := by
          rintro rfl
          rw [hadded.new] at hk
          cases hk
        exact (hadded.rest k hne).trans hk

end Save

section Runs

variable {loadFromString : String → Except Throwable Properties} {schedulerNameAndId : String}
  {first : Scheduler} {actions : List (Action ι Scheduler)}

/-- In a run of proper steps a scheduler stays under its key. -/
theorem kept_throughout {s : WebApp ι Scheduler}
    (h : (webApp ι Scheduler loadFromString).Throughout s actions (Proper loadFromString))
    {k : String} {v : Scheduler} (hk : s.schedulersMap.get k = some v) :
    ((webApp ι Scheduler loadFromString).after s actions).schedulersMap.get k = some v :=
  Machine.invariant_of (I := fun s => s.schedulersMap.get k = some v)
    (fun _ _ hproper hk => hproper.kept hk) hk h

/-- In a run of proper steps every scheduler that a Save has created is shut down at the end. -/
theorem destroyed_throughout {s : WebApp ι Scheduler}
    {before rest : List (Action ι Scheduler)} {i : ι} {text : String}
    {template : Except Throwable Scheduler} {panel : LeftPanel}
    (h : (webApp ι Scheduler loadFromString).Throughout s (before ++ .save i text template :: rest)
      (Proper loadFromString))
    (hs : ((webApp ι Scheduler loadFromString).after s before).sessions i = some panel)
    (hok : ((webApp ι Scheduler loadFromString).step
      ((webApp ι Scheduler loadFromString).after s before) (.save i text template)).1 = .ok ()) :
    ∃ v, template = .ok v ∧ v ∈ ((webApp ι Scheduler loadFromString).after s
      (before ++ .save i text template :: rest)).destroy := by
  obtain ⟨hproper, hrest⟩ := Machine.throughout_cons.mp h.suffix
  rcases hproper panel hs with ⟨ex, hex⟩ | ⟨s', itemId, v, hsave, rfl, hadded⟩
  · change (save loadFromString _ i text template).1 = .ok () at hok
    rw [hex] at hok
    cases hok
  · have hstored : ((webApp ι Scheduler loadFromString).step
        ((webApp ι Scheduler loadFromString).after s before)
        (.save i text (.ok v))).2.schedulersMap.get itemId = some v := by
      change (save loadFromString _ i text (.ok v)).2.schedulersMap.get itemId = some v
      rw [hsave]
      exact hadded.stored
    refine ⟨v, rfl, ?_⟩
    rw [Machine.after_append, Machine.after_cons]
    exact LinkedMap.mem_values.mpr ⟨itemId, kept_throughout hrest hstored⟩

/-- The tree of a session shows every scheduler of the map. -/
def UpToDate (i : ι) (s : WebApp ι Scheduler) : Prop :=
  ∀ panel, s.sessions i = some panel →
    ∀ k, s.schedulersMap.get k ≠ none → panel.schedulerExists k = true

/-- A session whose panel shows every scheduler is up to date. -/
theorem upToDate_update {i : ι} {schedulersMap : LinkedMap String Scheduler}
    {sessions : ι → Option LeftPanel} {panel : LeftPanel}
    (h : ∀ k, schedulersMap.get k ≠ none → panel.schedulerExists k = true) :
    UpToDate i (⟨schedulersMap, Function.update sessions i (some panel)⟩ : WebApp ι Scheduler) := by
  intro panel' hs
  simp only [Function.update_self, Option.some.injEq] at hs
  subst hs
  exact h

/-- The tree of a session stays up to date while nobody else saves. -/
theorem UpToDate.step {i : ι} {s : WebApp ι Scheduler} (h : UpToDate i s)
    {action : Action ι Scheduler} (hi : ∀ j text template, action = .save j text template → j = i) :
    UpToDate i ((webApp ι Scheduler loadFromString).step s action).2 := by
  cases action with
  | openSession j triggersTable =>
    change UpToDate i (openSession s j triggersTable).2
    unfold openSession
    split
    · exact h
    · exact h
    · next hkeys =>
      by_cases hij : i = j
      · subst hij
        refine upToDate_update fun k hk => ?_
        rw [← hkeys]
        exact exists_initTreeData ((s.schedulersMap.mem_keys k).mpr hk)
      · intro panel hs
        simp only [Function.update_of_ne hij] at hs
        exact h panel hs
  | save j text template =>
    obtain rfl : j = i := hi j text template rfl
    change UpToDate j (save loadFromString s j text template).2
    cases hs : s.sessions j with
    | none => simpa only [save, hs] using h
    | some panel =>
      rcases save_cases loadFromString hs text template with
        ⟨ex, hex⟩ | ⟨props, scheduler, hload, rfl, hexists⟩
      · rwa [hex]
      · rw [save_stored hs hload hexists]
        refine upToDate_update fun k hk => ?_
        by_cases hkey : k = itemIdOf props
        · subst hkey
          exact exists_createSubItem
        · rw [LinkedMap.get_put_of_ne hkey] at hk
          exact createSubItem_mono (h panel hs k hk)

/-- When a single session saves, every Save finds the keys of the map shown. -/
theorem shown_of_single_session {i : ι}
    (hi : ∀ j text template, .save j text template ∈ actions → j = i) :
    (webApp ι Scheduler loadFromString).Throughout (.init ι schedulerNameAndId first) actions
      (Shown loadFromString) := by
  intro before action rest he
  have hstart : UpToDate i (WebApp.init ι schedulerNameAndId first) := by
    intro panel hs
    cases hs
  have hup : UpToDate i ((webApp ι Scheduler loadFromString).after
      (.init ι schedulerNameAndId first) before) := by
    refine Machine.invariant_of (P := fun _ a => ∀ j text template,
      a = .save j text template → j = i) (fun _ _ ha h => h.step ha) hstart ?_
    rw [Machine.throughout_actions]
    rintro _ ha j text template rfl
    exact hi j text template (by simp [he, ha])
  cases action with
  | openSession j triggersTable => trivial
  | save j text template =>
    obtain rfl : j = i := hi j text template (by simp [he])
    exact fun panel props scheduler hs _ _ hmap => hup panel hs _ hmap

/-- The steps of a run are proper exactly when each Save that creates a scheduler finds its key
shown in its own tree, if the map has it. In such a run no scheduler is lost: what is put under
a key stays there, and all that are created are shut down in the end. Every run in which only
one session saves is such a run. -/
theorem schedulers_kept (ι Scheduler : Type) [DecidableEq ι]
    (loadFromString : String → Except Throwable Properties) (schedulerNameAndId : String)
    (first : Scheduler) (actions : List (Action ι Scheduler)) :
    let M := webApp ι Scheduler loadFromString
    let s₀ := WebApp.init ι schedulerNameAndId first
    (M.Throughout s₀ actions (Proper loadFromString) ↔
      M.Throughout s₀ actions (Shown loadFromString)) ∧
    (M.Throughout s₀ actions (Shown loadFromString) →
      (∀ before rest k v, actions = before ++ rest →
        (M.after s₀ before).schedulersMap.get k = some v →
        (M.after s₀ actions).schedulersMap.get k = some v) ∧
      ∀ before i text template rest panel, actions = before ++ .save i text template :: rest →
        (M.after s₀ before).sessions i = some panel →
        (M.step (M.after s₀ before) (.save i text template)).1 = .ok () →
        ∃ v, template = .ok v ∧ v ∈ (M.after s₀ actions).destroy) ∧
    ∀ i, (∀ j text template, .save j text template ∈ actions → j = i) →
      M.Throughout s₀ actions (Shown loadFromString) := by
  intro M s₀
  have hiff : M.Throughout s₀ actions (Proper loadFromString) ↔
      M.Throughout s₀ actions (Shown loadFromString) :=
    Machine.throughout_iff (I := fun _ => True) (fun _ _ _ => trivial) trivial
      fun s action _ => proper_iff_shown s action
  refine ⟨hiff, fun hshown => ⟨?_, ?_⟩, fun i hi => shown_of_single_session hi⟩
  · rintro before rest k v rfl hk
    rw [Machine.after_append]
    exact kept_throughout (hiff.mpr hshown).suffix hk
  · rintro before i text template rest panel rfl hs hok
    exact destroyed_throughout (hiff.mpr hshown) hs hok

/-- Two sessions open, and one of them saves an empty text. -/
def oneSaves : List (Action Bool ℕ) :=
  [.openSession false (.ok ()), .openSession true (.ok ()), .save false "" (.ok 1)]

/-- What `Properties.load` makes of an empty text. -/
def nothingSet : String → Except Throwable Properties := fun _ => .ok fun _ => none

/-- One Save is proper, and its scheduler is shut down in the end. -/
theorem oneSaves_kept :
    1 ∈ ((webApp Bool ℕ nothingSet).after (.init Bool "SampleScheduler_$_NON_CLUSTERED" 0)
      oneSaves).destroy := by
  obtain ⟨_, hkept, hsingle⟩ :=
    schedulers_kept Bool ℕ nothingSet "SampleScheduler_$_NON_CLUSTERED" 0 oneSaves
  have hshown : (webApp Bool ℕ nothingSet).Throughout
      (.init Bool "SampleScheduler_$_NON_CLUSTERED" 0) oneSaves (Shown nothingSet) := by
    refine hsingle false ?_
    intro j text template hmem
    simp [oneSaves] at hmem
    exact hmem.1
  obtain ⟨v, hv, hmem⟩ := (hkept hshown).2
    [.openSession false (.ok ()), .openSession true (.ok ())] false "" (.ok 1) [] _ rfl rfl rfl
  cases hv
  exact hmem

/-- The other session saves an empty text too: the scheduler of the first is replaced. -/
theorem second_save_replaces :
    ¬(webApp Bool ℕ nothingSet).Throughout (.init Bool "SampleScheduler_$_NON_CLUSTERED" 0)
      (oneSaves ++ [.save true "" (.ok 2)]) (Proper nothingSet) := by
  intro h
  have hproper := h oneSaves _ [] rfl
  rw [proper_iff_shown] at hproper
  have hshown := hproper _ _ _ rfl rfl rfl (by decide)
  revert hshown
  decide

end Runs

end MySchedule.Console
