import MySchedule.Console.SchedulerView

/-!
# Many sessions with a view each

Every session has a window of its own over the one map of schedulers. Whatever the
sessions do between each other's events, a scheduler that a tree shows is one of the map,
a right panel has one tab at most, and an event reaches no other session's window.
-/

namespace MySchedule.Console

open Java Keyed Machines

variable {ι Scheduler : Type}

/-- The sessions: the map in the servlet context, and the open windows. The map that a window
was given is this one. -/
structure Sessions (ι Scheduler : Type) where
  schedulersMap : LinkedMap String Scheduler
  windows : ι → Option (MainWindow Scheduler)

/-- Nobody is there yet. -/
def Sessions.new (schedulersMap : LinkedMap String Scheduler) : Sessions ι Scheduler :=
  ⟨schedulersMap, fun _ => none⟩

/-- The window of a session, with the map as it is. -/
def Sessions.window (s : Sessions ι Scheduler) (i : ι) : Option (MainWindow Scheduler) :=
  (s.windows i).map fun w => { w with schedulersMap := s.schedulersMap }

inductive SessionEvent (ι Scheduler : Type)
  | openSession (i : ι) (getAllTriggers : Except Throwable Unit)
  | ui (i : ι) (event : UIEvent Scheduler)

section

variable [DecidableEq ι] (loadFromString : String → Except Throwable Properties)

/-- `QuartzApplication.init` of a session; without a main window there is nothing to see. -/
def Sessions.openSession (s : Sessions ι Scheduler) (i : ι)
    (getAllTriggers : Except Throwable Unit) :
    Except Throwable Unit × Sessions ι Scheduler :=
  match MainWindow.new s.schedulersMap getAllTriggers with
  | .error ex => (.error ex, s)
  | .ok w => (.ok (), { s with windows := Function.update s.windows i (some w) })

/-- An event in the window of a session. -/
def Sessions.ui (s : Sessions ι Scheduler) (i : ι) (event : UIEvent Scheduler) :
    Except Throwable Unit × Sessions ι Scheduler :=
  match s.window i with
  | none => (.ok (), s)
  | some w =>
    let step := (mainWindow loadFromString).step w event
    (step.1, ⟨step.2.schedulersMap, Function.update s.windows i (some step.2)⟩)

def sessions (ι Scheduler : Type) [DecidableEq ι]
    (loadFromString : String → Except Throwable Properties) :
    Machine (Sessions ι Scheduler) (SessionEvent ι Scheduler) (Except Throwable Unit) where
  step
    | s, .openSession i getAllTriggers => s.openSession i getAllTriggers
    | s, .ui i event => s.ui loadFromString i event

end

/-- The items of a tree that stand for no scheduler. -/
def fixedItems : List String :=
  [LeftPanel.schedulersItemId, LeftPanel.toolsItemId, "Scripting Console", "Cron Builder"]

/-- What holds of a window, whatever the other sessions do. -/
structure MainWindow.Sound (w : MainWindow Scheduler) : Prop where
  shown : ∀ k, w.leftPanel.schedulerExists k = true → k ∉ fixedItems →
    w.schedulersMap.get k ≠ none
  lists : w.rightPanel.Lists
  one : w.rightPanel.attached.length ≤ 1

section Panel

variable {panel : LeftPanel} {itemId parentId k : String}

theorem exists_of_put {treeData : HierarchicalContainer} {parent : Option String}
    (h : (treeData.put itemId parent).get k ≠ none) : k = itemId ∨ treeData.get k ≠ none := by
  by_cases hk : k = itemId
  · exact Or.inl hk
  · rw [LinkedMap.get_put_of_ne hk] at h
    exact Or.inr h

theorem exists_of_addItem (h : (panel.addItem itemId).schedulerExists k = true) :
    k = itemId ∨ panel.schedulerExists k = true := by
  rw [schedulerExists_iff] at h ⊢
  unfold LeftPanel.addItem HierarchicalContainer.addItem at h
  split at h
  · exact Or.inr h
  · exact exists_of_put h

theorem exists_of_createSubItem
    (h : (panel.createSubItem itemId parentId).schedulerExists k = true) :
    k = itemId ∨ panel.schedulerExists k = true := by
  have hadded : (panel.addItem itemId).schedulerExists k = true ∨ k = itemId := by
    rw [schedulerExists_iff] at h ⊢
    unfold LeftPanel.createSubItem HierarchicalContainer.setParent at h
    split at h
    · exact (exists_of_put h).symm
    · exact Or.inl h
  rcases hadded with hadded | rfl
  · exact exists_of_addItem hadded
  · exact Or.inl rfl

/-- A session that opens shows the schedulers of the map and the fixed items only. -/
theorem mem_of_exists_initTreeData {names : List String}
    (h : (LeftPanel.initTreeData names).schedulerExists k = true) (hfixed : k ∉ fixedItems) :
    k ∈ names := by
  simp only [fixedItems, List.mem_cons, List.not_mem_nil, or_false, not_or] at hfixed
  obtain ⟨hschedulers, htools, hscripting, hcron⟩ := hfixed
  have hfold : ∀ panel : LeftPanel, panel.schedulerExists k = false →
      (names.foldl LeftPanel.createNewScheduler panel).schedulerExists k = true → k ∈ names := by
    clear h
    induction names with
    | nil =>
      intro panel hnot h
      rw [List.foldl_nil, hnot] at h
      cases h
    | cons name names ih =>
      intro panel hnot h
      by_cases hk : k = name
      · exact List.mem_cons.mpr (Or.inl hk)
      · refine List.mem_cons_of_mem name (ih _ ?_ h)
        refine Bool.eq_false_iff.mpr fun hexists => ?_
        rcases exists_of_createSubItem hexists with rfl | hexists
        · exact hk rfl
        · rw [hnot] at hexists
          cases hexists
  have hempty : ((⟨.empty⟩ : LeftPanel).addItem LeftPanel.schedulersItemId).schedulerExists k =
      false := by
    refine Bool.eq_false_iff.mpr fun hexists => ?_
    rcases exists_of_addItem hexists with rfl | hexists
    · exact hschedulers rfl
    · cases hexists
  have hcronBuilder := (exists_of_createSubItem h).resolve_left hcron
  have hconsole := (exists_of_createSubItem hcronBuilder).resolve_left hscripting
  exact hfold _ hempty ((exists_of_addItem hconsole).resolve_left htools)

end Panel

section Window

variable {w : MainWindow Scheduler} {loadFromString : String → Except Throwable Properties}

/-- A window that opens is sound. -/
theorem MainWindow.new_sound {schedulersMap : LinkedMap String Scheduler}
    {getAllTriggers : Except Throwable Unit}
    (h : MainWindow.new schedulersMap getAllTriggers = .ok w) :
    w.Sound ∧ w.schedulersMap = schedulersMap := by
  unfold MainWindow.new at h
  cases hkeys : schedulersMap.keys with
  | nil =>
    rw [hkeys] at h
    cases h
  | cons itemId names =>
    have hlists : RightPanel.Lists (⟨[], [], 0⟩ : RightPanel Scheduler) := fun _ htab => htab
    have hmem : itemId ∈ schedulersMap.keys := by
      rw [hkeys]
      exact List.mem_cons_self ..
    obtain ⟨scheduler, hget⟩ :=
      Option.ne_none_iff_exists'.mp ((schedulersMap.mem_keys itemId).mp hmem)
    cases getAllTriggers with
    | error ex =>
      have hfails : schedulersMap.get itemId ≠ none →
          (.error ex : Except Throwable Unit) ≠ .ok () := fun _ hok => by cases hok
      obtain ⟨ex', hreset⟩ := hlists.reset_error hfails
      simp only [hkeys, hreset] at h
      cases h
    | ok u =>
      simp only [hkeys, hlists.reset_ok hget] at h
      cases h
      refine ⟨⟨fun k hshown hfixed => ?_, fun tab htab => htab, Nat.le_refl _⟩, rfl⟩
      have hnames := mem_of_exists_initTreeData hshown hfixed
      rw [← hkeys] at hnames
      exact (schedulersMap.mem_keys k).mp hnames

/-- A change of the map by others, which takes no key away, keeps a window sound. -/
theorem MainWindow.Sound.amid (h : w.Sound) {schedulersMap : LinkedMap String Scheduler}
    (hkeys : ∀ k, w.schedulersMap.get k ≠ none → schedulersMap.get k ≠ none) :
    MainWindow.Sound { w with schedulersMap } :=
  ⟨fun k hshown hfixed => hkeys k (h.shown k hshown hfixed), h.lists, h.one⟩

/-- Selecting the item of another scheduler leaves one tab, with that scheduler. -/
theorem MainWindow.Sound.select_ok (h : w.Sound) {k : String} {scheduler : Scheduler}
    (hshown : w.leftPanel.schedulerExists k = true) (hne : w.value ≠ some k)
    (hget : w.schedulersMap.get k = some scheduler) :
    w.select (some k) (.ok ()) = (.ok (), { w with
      value := some k
      rightPanel := ⟨[⟨w.rightPanel.made, scheduler⟩],
        w.rightPanel.tabs ++ [⟨w.rightPanel.made, scheduler⟩], w.rightPanel.made + 1⟩ }) := by
  rw [select_changed (show (some k).all w.leftPanel.schedulerExists = true from hshown) hne]
  simp only [MainWindow.valueChanged, h.lists.reset_ok hget]

/-- Any other selection that changes the value raises an exception and leaves no tab. -/
theorem MainWindow.Sound.select_error (h : w.Sound) {k : String}
    (hshown : w.leftPanel.schedulerExists k = true) (hne : w.value ≠ some k)
    {getAllTriggers : Except Throwable Unit}
    (hfails : w.schedulersMap.get k ≠ none → getAllTriggers ≠ .ok ()) :
    ∃ ex, w.select (some k) getAllTriggers = (.error ex, { w with
      value := some k
      rightPanel := { w.rightPanel with attached := [] } }) := by
  obtain ⟨ex, hreset⟩ := h.lists.reset_error hfails
  refine ⟨ex, ?_⟩
  rw [select_changed (show (some k).all w.leftPanel.schedulerExists = true from hshown) hne]
  simp only [MainWindow.valueChanged, hreset]

/-- A selection keeps a window sound and leaves the map alone. -/
theorem MainWindow.Sound.select (h : w.Sound) (itemId : Option String)
    (getAllTriggers : Except Throwable Unit) :
    (w.select itemId getAllTriggers).2.Sound ∧
      (w.select itemId getAllTriggers).2.schedulersMap = w.schedulersMap := by
  by_cases hkept : itemId.all w.leftPanel.schedulerExists = true → w.value = itemId
  · rw [select_kept hkept]
    exact ⟨h, rfl⟩
  obtain ⟨hshown, hne⟩ := Classical.not_imp.mp hkept
  cases itemId with
  | none =>
    rw [select_changed hshown hne]
    exact ⟨⟨h.shown, h.lists, h.one⟩, rfl⟩
  | some k =>
    by_cases hfails : w.schedulersMap.get k ≠ none → getAllTriggers ≠ .ok ()
    · obtain ⟨ex, hselect⟩ := h.select_error hshown hne hfails
      rw [hselect]
      exact ⟨⟨h.shown, fun _ htab => (by cases htab), Nat.zero_le 1⟩, rfl⟩
    · obtain ⟨hget, hok⟩ := Classical.not_imp.mp hfails
      obtain ⟨scheduler, hscheduler⟩ := Option.ne_none_iff_exists'.mp hget
      obtain rfl := Classical.not_not.mp hok
      rw [h.select_ok hshown hne hscheduler]
      exact ⟨⟨h.shown, fun _ htab => List.mem_append_right _ htab, Nat.le_refl 1⟩, rfl⟩

/-- An event of the session keeps its window sound, and takes no key out of the map. -/
theorem MainWindow.Sound.step (h : w.Sound)
    (loadFromString : String → Except Throwable Properties) (event : UIEvent Scheduler) :
    ((mainWindow loadFromString).step w event).2.Sound ∧
      ∀ k, w.schedulersMap.get k ≠ none →
        ((mainWindow loadFromString).step w event).2.schedulersMap.get k ≠ none := by
  cases event with
  | select itemId getAllTriggers =>
    obtain ⟨hsound, hmap⟩ := h.select itemId getAllTriggers
    exact ⟨hsound, fun k hk => by rwa [← hmap] at hk⟩
  | create text template =>
    change (w.create loadFromString text template).2.Sound ∧ ∀ k, w.schedulersMap.get k ≠ none →
      (w.create loadFromString text template).2.schedulersMap.get k ≠ none
    rcases create_cases loadFromString w text template with hsame | ⟨itemId, scheduler, _, hadded⟩
    · rw [hsame]
      exact ⟨h, fun _ hk => hk⟩
    · rw [hadded]
      refine ⟨⟨fun k hshown hfixed => ?_, h.lists, h.one⟩, fun k => LinkedMap.get_put_ne_none⟩
      rcases exists_of_createSubItem hshown with rfl | hshown
      · simp
      · exact LinkedMap.get_put_ne_none (h.shown k hshown hfixed)

end Window

/-- All windows are sound. -/
def Sessions.Sound (s : Sessions ι Scheduler) : Prop := ∀ i w, s.window i = some w → w.Sound

variable {s : Sessions ι Scheduler}

theorem Sessions.schedulersMap_of_window {i : ι} {w : MainWindow Scheduler}
    (hw : s.window i = some w) : w.schedulersMap = s.schedulersMap := by
  obtain ⟨_, _, rfl⟩ := Option.map_eq_some_iff.mp hw
  rfl

variable [DecidableEq ι]

theorem Sessions.Sound.step (h : s.Sound)
    (loadFromString : String → Except Throwable Properties) (event : SessionEvent ι Scheduler) :
    ((sessions ι Scheduler loadFromString).step s event).2.Sound := by
  cases event with
  | openSession i getAllTriggers =>
    change (s.openSession i getAllTriggers).2.Sound
    unfold Sessions.openSession
    cases hnew : MainWindow.new s.schedulersMap getAllTriggers with
    | error ex => exact h
    | ok w =>
      intro j w' hw'
      by_cases hji : j = i
      · subst hji
        obtain ⟨hsound, hmap⟩ := MainWindow.new_sound hnew
        simp only [Sessions.window, Function.update_self, Option.map_some, Option.some.injEq] at hw'
        rw [← hw', ← hmap]
        exact hsound
      · simp only [Sessions.window, Function.update_of_ne hji] at hw'
        exact h j w' hw'
  | ui i event =>
    change (s.ui loadFromString i event).2.Sound
    unfold Sessions.ui
    cases hw : s.window i with
    | none => exact h
    | some w =>
      obtain ⟨hsound, hkeys⟩ := (h i w hw).step loadFromString event
      have hshared := Sessions.schedulersMap_of_window hw
      intro j w' hw'
      by_cases hji : j = i
      · subst hji
        simp only [Sessions.window, Function.update_self, Option.map_some, Option.some.injEq] at hw'
        rw [← hw']
        exact hsound
      · -- the other window keeps what it has, over the map that this event leaves
        simp only [Sessions.window, Function.update_of_ne hji] at hw'
        obtain ⟨w₀, hw₀, rfl⟩ := Option.map_eq_some_iff.mp hw'
        have hother : s.window j = some { w₀ with schedulersMap := s.schedulersMap } := by
          rw [Sessions.window, hw₀, Option.map_some]
        exact (h j _ hother).amid fun k hk => hkeys k (by rwa [hshared])

/-- What an event does in its session. -/
theorem Sessions.step_ui {i : ι} {w : MainWindow Scheduler} (hw : s.window i = some w)
    (loadFromString : String → Except Throwable Properties) (event : UIEvent Scheduler) :
    ((sessions ι Scheduler loadFromString).step s (.ui i event)).1 =
        ((mainWindow loadFromString).step w event).1 ∧
      ((sessions ι Scheduler loadFromString).step s (.ui i event)).2.window i =
        some ((mainWindow loadFromString).step w event).2 := by
  change (s.ui loadFromString i event).1 = _ ∧ (s.ui loadFromString i event).2.window i = _
  unfold Sessions.ui
  rw [hw]
  refine ⟨rfl, ?_⟩
  simp only [Sessions.window, Function.update_self, Option.map_some]

/-- The session shows one tab, with this scheduler. -/
def Sessions.Shows (s : Sessions ι Scheduler) (i : ι) (scheduler : Scheduler) : Prop :=
  ∃ w tab, s.window i = some w ∧ w.rightPanel.attached = [tab] ∧ tab.scheduler = scheduler

/-- The session shows no tab. -/
def Sessions.ShowsNothing (s : Sessions ι Scheduler) (i : ι) : Prop :=
  ∃ w, s.window i = some w ∧ w.rightPanel.attached = []

/-- Whatever any number of sessions have done, in whatever order, in each of them: the right
panel has one tab at most; selecting another item that stands for a scheduler shows the one
that the shared map then has under it, if its triggers can be listed, else an exception is
raised and nothing is shown; and the only other items that the tree shows are the fixed four. -/
theorem sessions_view (ι Scheduler : Type) [DecidableEq ι]
    (loadFromString : String → Except Throwable Properties)
    (schedulersMap : LinkedMap String Scheduler) (events : List (SessionEvent ι Scheduler))
    (i : ι) (w : MainWindow Scheduler) :
    let M := sessions ι Scheduler loadFromString
    let s := M.after (.new schedulersMap) events
    s.window i = some w → w.rightPanel.attached.length ≤ 1 ∧
      ∀ k, w.leftPanel.schedulerExists k = true → w.value ≠ some k →
        (k ∉ fixedItems → ∃ scheduler, s.schedulersMap.get k = some scheduler ∧
          (M.step s (.ui i (.select (some k) (.ok ())))).1 = .ok () ∧
          (M.step s (.ui i (.select (some k) (.ok ())))).2.Shows i scheduler) ∧
        ∀ getAllTriggers, (s.schedulersMap.get k ≠ none → getAllTriggers ≠ .ok ()) →
          (∃ ex, (M.step s (.ui i (.select (some k) getAllTriggers))).1 = .error ex) ∧
          (M.step s (.ui i (.select (some k) getAllTriggers))).2.ShowsNothing i := by
  intro M s hw
  have hsound : s.Sound := by
    refine Machine.invariant (M := M) (I := Sessions.Sound)
      (fun s event h => h.step loadFromString event) ?_ events
    intro j w' hw'
    cases hw'
  have hshared := Sessions.schedulersMap_of_window hw
  have hwindow := hsound i w hw
  refine ⟨hwindow.one, fun k hshown hne => ⟨fun hfixed => ?_, fun getAllTriggers hfails => ?_⟩⟩
  · obtain ⟨scheduler, hget⟩ := Option.ne_none_iff_exists'.mp (hwindow.shown k hshown hfixed)
    have hselect : (mainWindow loadFromString).step w (.select (some k) (.ok ())) = _ :=
      hwindow.select_ok hshown hne hget
    obtain ⟨hresult, hafter⟩ :=
      Sessions.step_ui hw loadFromString (.select (some k) (.ok ()))
    rw [hselect] at hresult hafter
    exact ⟨scheduler, hshared ▸ hget, hresult, _, _, hafter, rfl, rfl⟩
  · obtain ⟨ex, herror⟩ := hwindow.select_error hshown hne fun hget => hfails (hshared ▸ hget)
    have hselect : (mainWindow loadFromString).step w (.select (some k) getAllTriggers) = _ :=
      herror
    obtain ⟨hresult, hafter⟩ :=
      Sessions.step_ui hw loadFromString (.select (some k) getAllTriggers)
    rw [hselect] at hresult hafter
    exact ⟨⟨ex, hresult⟩, _, hafter, rfl⟩

/-- Two sessions over the scheduler of `init.groovy`; each of them saves a scheduler under the
default name, and the second does not show the item that the first one has made. -/
def bothSave : List (SessionEvent Bool ℕ) :=
  [.openSession true (.ok ()), .openSession false (.ok ()), .ui true (.create "" (.ok 2)),
    .ui false (.create "" (.ok 3))]

/-- The first one then selects its item, and is shown what the second one has saved. -/
theorem bothSave_view :
    let M := sessions Bool ℕ nothingSet
    let s := M.after (.new (LinkedMap.empty.put "first" 1)) bothSave
    let selected := M.step s
      (.ui true (.select (some "DefaultQuartzScheduler_$_NON_CLUSTERED") (.ok ())))
    (∃ w, s.window true = some w ∧ w.rightPanel.attached.length ≤ 1) ∧
      selected.1 = .ok () ∧ selected.2.Shows true 3 := by
  intro M s selected
  obtain ⟨hone, hview⟩ := sessions_view Bool ℕ nothingSet (LinkedMap.empty.put "first" 1)
    bothSave true _ rfl
  obtain ⟨hselect, -⟩ := hview "DefaultQuartzScheduler_$_NON_CLUSTERED" (by decide +kernel)
    (by decide +kernel)
  obtain ⟨scheduler, hget, hresult, hshows⟩ := hselect (by decide +kernel)
  have hsaved : s.schedulersMap.get "DefaultQuartzScheduler_$_NON_CLUSTERED" = some 3 := by
    decide +kernel
  obtain rfl : scheduler = 3 := Option.some.inj (hget.symm.trans hsaved)
  exact ⟨⟨_, rfl, hone⟩, hresult, hshows⟩

end MySchedule.Console
