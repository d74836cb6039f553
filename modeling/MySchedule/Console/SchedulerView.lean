import MySchedule.Console.MainWindow
import MySchedule.Console.SharedMap

/-!
# The scheduler view and the selection

What a selection leaves in the right panel. A scheduler item replaces the tab; an item
that stands for no scheduler takes the tab away and raises an exception. Either way the
panel goes on listing tabs that are no longer attached.
-/

namespace MySchedule.Console

open Java Keyed Machines

variable {Scheduler : Type}

namespace RightPanel

variable {panel : RightPanel Scheduler} {schedulersMap : LinkedMap String Scheduler}
  {itemId : String} {getAllTriggers : Except Throwable Unit}

/-- Removing tabs detaches them and changes nothing else. -/
theorem foldl_removeTab (tabs : List (Tab Scheduler)) (panel : RightPanel Scheduler) :
    tabs.foldl removeTab panel = ⟨panel.attached.filter
      (fun tab => decide (∀ t ∈ tabs, tab.identity ≠ t.identity)), panel.tabs, panel.made⟩ := by
  induction tabs generalizing panel with
  | nil => simp
  | cons t tabs ih =>
    rw [List.foldl_cons, ih, removeTab, RightPanel.mk.injEq]
    refine ⟨?_, rfl, rfl⟩
    rw [List.filter_filter]
    apply List.filter_congr
    intro tab _
    simp [Bool.and_comm]

/-- Every attached tab is listed, so that removing the listed tabs leaves none. -/
def Lists (panel : RightPanel Scheduler) : Prop := ∀ tab ∈ panel.attached, tab ∈ panel.tabs

theorem Lists.removeAll (h : panel.Lists) :
    (if panel.tabs.length > 0 then panel.tabs.foldl removeTab panel else panel) =
      { panel with attached := [] } := by
  have hfilter : panel.attached.filter
      (fun tab => decide (∀ t ∈ panel.tabs, tab.identity ≠ t.identity)) = [] := by
    rw [List.filter_eq_nil_iff]
    intro tab htab hkept
    exact of_decide_eq_true hkept tab (h tab htab) rfl
  split
  · rw [foldl_removeTab, hfilter]
  · next hempty =>
    have htabs : panel.tabs = [] := by simpa using hempty
    have hattached : panel.attached = [] := by
      rw [List.eq_nil_iff_forall_not_mem]
      intro tab htab
      have hlisted := h tab htab
      rw [htabs] at hlisted
      cases hlisted
    rw [← hattached]

/-- An item of the map: its tab replaces the others, and is listed after them. -/
theorem Lists.reset_ok (h : panel.Lists) {scheduler : Scheduler}
    (hget : schedulersMap.get itemId = some scheduler) :
    panel.resetSchedulerTabs schedulersMap itemId (.ok ()) =
      (.ok (), ⟨[⟨panel.made, scheduler⟩], panel.tabs ++ [⟨panel.made, scheduler⟩],
        panel.made + 1⟩) := by
  rw [resetSchedulerTabs, h.removeAll, hget]
  rfl

/-- Otherwise the tabs are gone, and an exception is raised. -/
theorem Lists.reset_error (h : panel.Lists)
    (hfails : schedulersMap.get itemId ≠ none → getAllTriggers ≠ .ok ()) :
    ∃ ex, panel.resetSchedulerTabs schedulersMap itemId getAllTriggers =
      (.error ex, { panel with attached := [] }) := by
  rw [resetSchedulerTabs, h.removeAll]
  cases hget : schedulersMap.get itemId with
  | none => exact ⟨nullScheduler, rfl⟩
  | some scheduler =>
    cases getAllTriggers with
    | ok _ => exact absurd rfl (hfails (by simp [hget]))
    | error ex => exact ⟨ex, rfl⟩

end RightPanel

section

variable (loadFromString : String → Except Throwable Properties)

/-- The scheduler item that was selected most recently, after one more event. -/
def latestAfter (w : MainWindow Scheduler) (latest : String) : UIEvent Scheduler → String
  | .select (some itemId) _ =>
    if w.leftPanel.schedulerExists itemId && (w.schedulersMap.get itemId).isSome then itemId
    else latest
  | _ => latest

/-- The session, watched for the scheduler item that was selected most recently. -/
def watched : Machine (MainWindow Scheduler × String) (UIEvent Scheduler)
    (Except Throwable Unit) where
  step s event :=
    let step := (mainWindow loadFromString).step s.1 event
    (step.1, (step.2, latestAfter s.1 s.2 event))

/-- A selection is handled without an exception. -/
def Handled (s : MainWindow Scheduler × String) (event : UIEvent Scheduler) : Prop :=
  ∀ itemId getAllTriggers, event = .select itemId getAllTriggers →
    ((watched loadFromString).step s event).1 = .ok ()

end

/-- One tab is attached, which shows the scheduler that was selected most recently. -/
def ShowsLatest (s : MainWindow Scheduler × String) : Prop :=
  ∃ tab, s.1.rightPanel.attached = [tab] ∧ s.1.schedulersMap.get s.2 = some tab.scheduler

/-- The panel lists exactly the attached tabs. -/
def TabsListed (s : MainWindow Scheduler × String) : Prop :=
  ∀ tab, tab ∈ s.1.rightPanel.tabs ↔ tab ∈ s.1.rightPanel.attached

/-- The event does not change the value of the tree to another item. -/
def KeepsItem (s : MainWindow Scheduler × String) : UIEvent Scheduler → Prop
  | .select (some itemId) _ =>
    s.1.leftPanel.schedulerExists itemId = true → s.1.value = some itemId
  | _ => True

/-- The event changes the value of the tree, if to an item, to that of a scheduler whose
triggers can be listed. -/
def SelectsScheduler (s : MainWindow Scheduler × String) : UIEvent Scheduler → Prop
  | .select (some itemId) getAllTriggers =>
    s.1.leftPanel.schedulerExists itemId = true → s.1.value ≠ some itemId →
      s.1.schedulersMap.get itemId ≠ none ∧ getAllTriggers = .ok ()
  | _ => True

/-- What holds of a session in good order: the tree shows its value and the latest scheduler
item, its value is that item if it is one of a scheduler, and the tabs are told apart. -/
structure InOrder (s : MainWindow Scheduler × String) : Prop where
  shows : ShowsLatest s
  lists : s.1.rightPanel.Lists
  latest : s.1.leftPanel.schedulerExists s.2 = true
  value : ∀ itemId, s.1.value = some itemId → s.1.leftPanel.schedulerExists itemId = true ∧
    (s.1.schedulersMap.get itemId ≠ none → s.2 = itemId)
  made : ∀ tab ∈ s.1.rightPanel.tabs, tab.identity < s.1.rightPanel.made

variable {loadFromString : String → Except Throwable Properties}
  {s : MainWindow Scheduler × String} {w : MainWindow Scheduler}

/-- Saving changes nothing, or adds an item that the tree does not show. -/
theorem create_cases (loadFromString : String → Except Throwable Properties)
    (w : MainWindow Scheduler) (text : String) (template : Except Throwable Scheduler) :
    (w.create loadFromString text template).2 = w ∨
      ∃ itemId scheduler, w.leftPanel.schedulerExists itemId = false ∧
        (w.create loadFromString text template).2 =
          { w with schedulersMap := w.schedulersMap.put itemId scheduler,
                   leftPanel := w.leftPanel.createNewScheduler itemId } := by
  unfold MainWindow.create processNewSchedulerSettings
  cases loadFromString text with
  | error ex => exact Or.inl rfl
  | ok props =>
    cases hexists : w.leftPanel.schedulerExists (itemIdOf props) with
    | true => simp [bind, Except.bind, hexists, throw, throwThe, MonadExceptOf.throw]
    | false =>
      cases template with
      | error ex => exact Or.inl (by simp [bind, Except.bind, hexists])
      | ok scheduler =>
        right
        exact ⟨itemIdOf props, scheduler, hexists, by
          simp [bind, Except.bind, hexists, pure, Except.pure]⟩

theorem select_kept {itemId : Option String} {getAllTriggers : Except Throwable Unit}
    (h : itemId.all w.leftPanel.schedulerExists = true → w.value = itemId) :
    w.select itemId getAllTriggers = (.ok (), w) := by
  unfold MainWindow.select
  split
  · next hchanged =>
    obtain ⟨hshown, hne⟩ := Bool.and_eq_true_iff.mp hchanged
    exact absurd (h hshown) (of_decide_eq_true hne)
  · rfl

theorem select_changed {itemId : Option String} {getAllTriggers : Except Throwable Unit}
    (hshown : itemId.all w.leftPanel.schedulerExists = true) (hne : w.value ≠ itemId) :
    w.select itemId getAllTriggers =
      MainWindow.valueChanged { w with value := itemId } getAllTriggers := by
  rw [MainWindow.select, hshown, decide_eq_true hne, Bool.true_and, if_pos rfl]

/-- Saving keeps a session in order. -/
theorem InOrder.create {latest : String} (h : InOrder (w, latest)) (text : String)
    (template : Except Throwable Scheduler) :
    InOrder ((w.create loadFromString text template).2, latest) := by
  rcases create_cases loadFromString w text template with hsame | ⟨itemId, scheduler, hnew, hadded⟩
  · rwa [hsame]
  · rw [hadded]
    have hother : ∀ k, w.leftPanel.schedulerExists k = true → k ≠ itemId := by
      rintro k hk rfl
      rw [hnew] at hk
      cases hk
    obtain ⟨tab, htab, hget⟩ := h.shows
    refine ⟨⟨tab, htab, ?_⟩, h.lists, createSubItem_mono h.latest, fun k hk => ?_, h.made⟩
    · exact (LinkedMap.get_put_of_ne (hother latest h.latest)).trans hget
    · obtain ⟨hshown, hlatest⟩ := h.value k hk
      refine ⟨createSubItem_mono hshown, fun hmap => hlatest ?_⟩
      rwa [LinkedMap.get_put_of_ne (hother k hshown)] at hmap

/-- Selecting the item of another scheduler shows that one, and keeps the session in order. -/
theorem InOrder.selectScheduler {latest itemId : String} {scheduler : Scheduler}
    (h : InOrder (w, latest)) (hshown : w.leftPanel.schedulerExists itemId = true)
    (hne : w.value ≠ some itemId) (hget : w.schedulersMap.get itemId = some scheduler) :
    w.select (some itemId) (.ok ()) = (.ok (), { w with
      value := some itemId
      rightPanel := ⟨[⟨w.rightPanel.made, scheduler⟩],
        w.rightPanel.tabs ++ [⟨w.rightPanel.made, scheduler⟩], w.rightPanel.made + 1⟩ }) ∧
    InOrder ((w.select (some itemId) (.ok ())).2, itemId) := by
  have hstep : w.select (some itemId) (.ok ()) = (.ok (), { w with
      value := some itemId
      rightPanel := ⟨[⟨w.rightPanel.made, scheduler⟩],
        w.rightPanel.tabs ++ [⟨w.rightPanel.made, scheduler⟩], w.rightPanel.made + 1⟩ }) := by
    have hall : (some itemId).all w.leftPanel.schedulerExists = true := hshown
    rw [select_changed hall hne]
    simp only [MainWindow.valueChanged, h.lists.reset_ok hget]
  refine ⟨hstep, ?_⟩
  rw [hstep]
  refine ⟨⟨_, rfl, hget⟩, fun tab htab => ?_, hshown, fun k hk => ?_, fun tab htab => ?_⟩
  · exact List.mem_append_right _ htab
  · cases hk
    exact ⟨hshown, fun _ => rfl⟩
  · rcases List.mem_append.mp htab with hold | hnew
    · have hlt := h.made tab hold
      exact Nat.lt_succ_of_lt hlt
    · rw [List.mem_singleton.mp hnew]
      exact Nat.lt_succ_self _

/-- Selecting any other item that the tree shows raises an exception. -/
theorem InOrder.selectOther {latest itemId : String} {getAllTriggers : Except Throwable Unit}
    (h : InOrder (w, latest)) (hshown : w.leftPanel.schedulerExists itemId = true)
    (hne : w.value ≠ some itemId)
    (hfails : w.schedulersMap.get itemId ≠ none → getAllTriggers ≠ .ok ()) :
    (w.select (some itemId) getAllTriggers).1 ≠ .ok () := by
  obtain ⟨ex, hreset⟩ := h.lists.reset_error hfails
  have hall : (some itemId).all w.leftPanel.schedulerExists = true := hshown
  rw [select_changed hall hne]
  simp only [MainWindow.valueChanged, hreset]
  intro hok
  cases hok

/-- Clearing the selection leaves the right panel alone. -/
theorem InOrder.selectNone {latest : String} (h : InOrder (w, latest))
    (getAllTriggers : Except Throwable Unit) :
    (w.select none getAllTriggers).1 = .ok () ∧
      (w.select none getAllTriggers).2.rightPanel = w.rightPanel ∧
      InOrder ((w.select none getAllTriggers).2, latest) := by
  by_cases hvalue : w.value = none
  · rw [select_kept fun _ => hvalue]
    exact ⟨rfl, rfl, h⟩
  · rw [select_changed rfl hvalue]
    refine ⟨rfl, rfl, h.shows, h.lists, h.latest, fun k hk => ?_, h.made⟩
    cases hk

/-- An item that is selected already, or not shown, changes nothing. -/
theorem InOrder.latest_kept {latest itemId : String} (h : InOrder (w, latest))
    (hkeeps : w.leftPanel.schedulerExists itemId = true → w.value = some itemId)
    (getAllTriggers : Except Throwable Unit) :
    latestAfter w latest (.select (some itemId) getAllTriggers) = latest := by
  simp only [latestAfter]
  split
  · next hmap =>
    obtain ⟨hshown, hget⟩ := Bool.and_eq_true_iff.mp hmap
    exact ((h.value itemId (hkeeps hshown)).2 (Option.isSome_iff_ne_none.mp hget)).symm
  · rfl

/-- An event that keeps the value of the tree, or clears it, keeps the right panel too. -/
theorem InOrder.keepsItem {event : UIEvent Scheduler} (h : InOrder s)
    (loadFromString : String → Except Throwable Properties) (hkeeps : KeepsItem s event) :
    Handled loadFromString s event ∧
      ((watched loadFromString).step s event).2.1.rightPanel = s.1.rightPanel ∧
      InOrder ((watched loadFromString).step s event).2 := by
  obtain ⟨w, latest⟩ := s
  cases event with
  | create text template =>
    refine ⟨fun itemId getAllTriggers he => ?_, ?_, h.create text template⟩
    · cases he
    change (w.create loadFromString text template).2.rightPanel = w.rightPanel
    rcases create_cases loadFromString w text template with he | ⟨_, _, _, he⟩
    · rw [he]
    · rw [he]
  | select itemId getAllTriggers =>
    cases itemId with
    | none =>
      obtain ⟨hok, hpanel, hnext⟩ := h.selectNone getAllTriggers
      exact ⟨fun _ _ _ => hok, hpanel, hnext⟩
    | some itemId =>
      have hsame : w.select (some itemId) getAllTriggers = (.ok (), w) := select_kept hkeeps
      have hstep : (watched loadFromString).step (w, latest)
          (.select (some itemId) getAllTriggers) = (.ok (), (w, latest)) := by
        change ((w.select (some itemId) getAllTriggers).1,
          (w.select (some itemId) getAllTriggers).2, _) = _
        rw [hsame, h.latest_kept hkeeps]
      refine ⟨fun _ _ _ => ?_, ?_, ?_⟩
      · rw [hstep]
      · rw [hstep]
      · rw [hstep]
        exact h

/-- What a selection of another item does, by the scheduler that it stands for. -/
theorem InOrder.changesItem {latest itemId : String} {getAllTriggers : Except Throwable Unit}
    (h : InOrder (w, latest)) (hshown : w.leftPanel.schedulerExists itemId = true)
    (hne : w.value ≠ some itemId)
    (hhandled : Handled loadFromString (w, latest) (.select (some itemId) getAllTriggers)) :
    ∃ scheduler, w.schedulersMap.get itemId = some scheduler ∧ getAllTriggers = .ok () := by
  by_contra hnot
  have hfails : w.schedulersMap.get itemId ≠ none → getAllTriggers ≠ .ok () := by
    intro hget hok
    obtain ⟨scheduler, hscheduler⟩ := Option.ne_none_iff_exists'.mp hget
    exact hnot ⟨scheduler, hscheduler, hok⟩
  exact h.selectOther hshown hne hfails (hhandled _ _ rfl)

/-- A session in which only schedulers are selected stays in order, without an exception. -/
theorem InOrder.step {event : UIEvent Scheduler} (h : InOrder s)
    (loadFromString : String → Except Throwable Properties) (hsel : SelectsScheduler s event) :
    Handled loadFromString s event ∧
      InOrder ((watched loadFromString).step s event).2 := by
  by_cases hkeeps : KeepsItem s event
  · obtain ⟨hhandled, _, hnext⟩ := h.keepsItem loadFromString hkeeps
    exact ⟨hhandled, hnext⟩
  · obtain ⟨w, latest⟩ := s
    rcases event with ⟨text, template⟩ | ⟨_ | itemId, getAllTriggers⟩
    · exact absurd trivial hkeeps
    · exact absurd trivial hkeeps
    · obtain ⟨hshown, hne⟩ : w.leftPanel.schedulerExists itemId = true ∧ w.value ≠ some itemId :=
        Classical.not_imp.mp hkeeps
      obtain ⟨hget, rfl⟩ := hsel hshown hne
      obtain ⟨scheduler, hscheduler⟩ := Option.ne_none_iff_exists'.mp hget
      obtain ⟨hstep, hnext⟩ := h.selectScheduler hshown hne hscheduler
      change w.schedulersMap.get itemId = some scheduler at hscheduler
      have hlatest : latestAfter w latest (.select (some itemId) (.ok ())) = itemId := by
        simp [latestAfter, hshown, hscheduler]
      constructor
      · intro _ _ _
        change (w.select (some itemId) (.ok ())).1 = .ok ()
        rw [hstep]
      · change InOrder ((w.select (some itemId) (.ok ())).2, latestAfter w latest _)
        rwa [hlatest]

/-- One tab follows the selection exactly as long as only schedulers are selected whose triggers
can be listed. -/
theorem oneTab_iff (h : InOrder s) (event : UIEvent Scheduler) :
    Handled loadFromString s event ∧ ShowsLatest ((watched loadFromString).step s event).2 ↔
      SelectsScheduler s event := by
  constructor
  · rintro ⟨hhandled, _⟩
    rcases event with ⟨text, template⟩ | ⟨_ | itemId, getAllTriggers⟩
    · trivial
    · trivial
    · intro hshown hne
      obtain ⟨scheduler, hget, hlisted⟩ := h.changesItem hshown hne hhandled
      exact ⟨by simp [hget], hlisted⟩
  · intro hsel
    obtain ⟨hhandled, hnext⟩ := h.step loadFromString hsel
    exact ⟨hhandled, hnext.shows⟩

/-- The view as it should be after an event: handled, one tab for the latest scheduler, and the
panel's list of tabs the attached ones. -/
def ViewFollows (loadFromString : String → Except Throwable Properties)
    (s : MainWindow Scheduler × String) (event : UIEvent Scheduler) : Prop :=
  Handled loadFromString s event ∧ ShowsLatest ((watched loadFromString).step s event).2 ∧
    TabsListed ((watched loadFromString).step s event).2

/-- The first selection of another item breaks the view: it raises an exception, or the tab it
takes away stays listed. -/
theorem viewFollows_iff (h : InOrder s) (hlisted : TabsListed s) (event : UIEvent Scheduler) :
    ViewFollows loadFromString s event ↔ KeepsItem s event := by
  constructor
  · rintro ⟨hhandled, _, htabs⟩
    obtain ⟨w, latest⟩ := s
    rcases event with ⟨text, template⟩ | ⟨_ | itemId, getAllTriggers⟩
    · trivial
    · trivial
    · intro hshown
      by_contra hne
      obtain ⟨scheduler, hget, rfl⟩ := h.changesItem hshown hne hhandled
      obtain ⟨old, hold, _⟩ := h.shows
      change w.rightPanel.attached = [old] at hold
      have hmem : old ∈ w.rightPanel.tabs := (hlisted old).mpr (by simp [hold])
      have hattached := (htabs old).mp (by
        change old ∈ (w.select (some itemId) (.ok ())).2.rightPanel.tabs
        rw [(h.selectScheduler hshown hne hget).1]
        exact List.mem_append_left _ hmem)
      change old ∈ (w.select (some itemId) (.ok ())).2.rightPanel.attached at hattached
      rw [(h.selectScheduler hshown hne hget).1] at hattached
      have hsame : old.identity = w.rightPanel.made := by
        rw [List.mem_singleton.mp hattached]
      have hlt : old.identity < w.rightPanel.made := h.made old hmem
      omega
  · intro hkeeps
    obtain ⟨hhandled, hpanel, hnext⟩ := h.keepsItem loadFromString hkeeps
    refine ⟨hhandled, hnext.shows, fun tab => ?_⟩
    rw [hpanel]
    exact hlisted tab

/-- A main window that was built is in order. -/
theorem inOrder_new {schedulersMap : LinkedMap String Scheduler}
    {getAllTriggers : Except Throwable Unit}
    (hw : MainWindow.new schedulersMap getAllTriggers = .ok w) :
    InOrder (w, w.value.getD "") ∧ TabsListed (w, w.value.getD "") := by
  unfold MainWindow.new at hw
  cases hkeys : schedulersMap.keys with
  | nil =>
    rw [hkeys] at hw
    cases hw
  | cons itemId names =>
    have hget : schedulersMap.get itemId ≠ none :=
      (schedulersMap.mem_keys itemId).mp (by simp [hkeys])
    obtain ⟨scheduler, hscheduler⟩ := Option.ne_none_iff_exists'.mp hget
    have hlists : (⟨[], [], 0⟩ : RightPanel Scheduler).Lists := by simp [RightPanel.Lists]
    simp only [hkeys] at hw
    cases getAllTriggers with
    | error ex =>
      obtain ⟨ex', hreset⟩ : ∃ ex', RightPanel.resetSchedulerTabs ⟨[], [], 0⟩ schedulersMap itemId
          (.error ex) = (.error ex', ⟨[], [], 0⟩) := hlists.reset_error fun _ he => nomatch he
      rw [hreset] at hw
      cases hw
    | ok _ =>
      rw [hlists.reset_ok hscheduler, Except.ok.injEq] at hw
      subst hw
      have hshown : (LeftPanel.initTreeData (itemId :: names)).schedulerExists itemId = true :=
        exists_initTreeData (by simp)
      refine ⟨⟨⟨_, rfl, hscheduler⟩, fun tab htab => htab, hshown, fun k hk => ?_,
        fun tab htab => ?_⟩, fun tab => Iff.rfl⟩
      · cases hk
        exact ⟨hshown, fun _ => rfl⟩
      · rw [List.mem_singleton.mp htab]
        exact Nat.zero_lt_one

/-- The view follows the selection throughout a session exactly when the session never selects
an item other than the one its tree has selected. -/
theorem scheduler_view_iff (loadFromString : String → Except Throwable Properties)
    (schedulersMap : LinkedMap String Scheduler) (getAllTriggers : Except Throwable Unit)
    (w : MainWindow Scheduler) (hw : MainWindow.new schedulersMap getAllTriggers = .ok w)
    (events : List (UIEvent Scheduler)) :
    (watched loadFromString).Throughout (w, w.value.getD "") events
        (ViewFollows loadFromString) ↔
      (watched loadFromString).Throughout (w, w.value.getD "") events KeepsItem := by
  symm
  apply Machine.throughout_iff_of (I := fun s => InOrder s ∧ TabsListed s)
  · rintro s event ⟨h, hlisted⟩ hkeeps
    obtain ⟨_, hpanel, hnext⟩ := h.keepsItem loadFromString hkeeps
    refine ⟨hnext, fun tab => ?_⟩
    rw [hpanel]
    exact hlisted tab
  · exact inOrder_new hw
  · rintro s event ⟨h, hlisted⟩
    exact (viewFollows_iff h hlisted event).symm

/-- The map of schedulers as the application starts. -/
def startMap : LinkedMap String String := LinkedMap.empty.put "Default_$_NON_CLUSTERED" "default"

/-- The main window on that map. -/
def startWindow : MainWindow String where
  schedulersMap := startMap
  leftPanel := .initTreeData ["Default_$_NON_CLUSTERED"]
  value := some "Default_$_NON_CLUSTERED"
  rightPanel := ⟨[⟨0, "default"⟩], [⟨0, "default"⟩], 1⟩

/-- An editor text that names a second scheduler. -/
def secondScheduler (_ : String) : Except Throwable Properties :=
  .ok fun key => if key = "org.quartz.scheduler.instanceName" then some "Second" else none

/-- Saving a scheduler, selecting the selected item again and clearing the selection. -/
theorem startWindow_followed : (watched secondScheduler).Throughout
    (startWindow, startWindow.value.getD "")
    [.create "" (.ok "second"), .select (some "Default_$_NON_CLUSTERED") (.ok ()),
      .select none (.ok ())] (ViewFollows secondScheduler) := by
  apply (scheduler_view_iff secondScheduler startMap (.ok ()) startWindow rfl _).mpr
  rw [Machine.throughout_cons, Machine.throughout_cons, Machine.throughout_cons]
  exact ⟨trivial, fun _ => rfl, trivial, Machine.throughout_nil⟩

/-- Selecting an item of the tree that is no scheduler raises an exception; selecting a second
scheduler leaves the first tab in the list. -/
theorem startWindow_not_followed :
    MainWindow.new startMap (.ok ()) = .ok startWindow ∧
    ¬ (watched secondScheduler).Throughout (startWindow, startWindow.value.getD "")
      [.select (some "Tools") (.ok ())] (ViewFollows secondScheduler) ∧
    ¬ (watched secondScheduler).Throughout (startWindow, startWindow.value.getD "")
      [.create "" (.ok "second"), .select (some "Second_$_NON_CLUSTERED") (.ok ())]
      (ViewFollows secondScheduler) := by
  refine ⟨rfl, ?_, ?_⟩
  · intro h
    have hhandled := (h [] _ [] rfl).1 _ _ rfl
    cases hhandled
  · intro h
    have htabs := (h [_] _ [] rfl).2.2 ⟨0, "default"⟩
    have hlisted : (⟨0, "default"⟩ : Tab String) ∈ [⟨1, "second"⟩] :=
      htabs.mp (List.mem_cons_self ..)
    simp at hlisted

end MySchedule.Console
