import MySchedule.Console.QuartzApplication

/-!
# The main window of a session

Selecting an item of the tree makes the right panel take its tabs away and show the
triggers of the scheduler that the item stands for. The panel keeps a list of the
tabs it has made; that list only grows.
-/

namespace MySchedule.Console

open Java Keyed Machines

variable {Scheduler : Type}

/-- A tab: the object itself, and the scheduler whose triggers its table lists. -/
structure Tab (Scheduler : Type) where
  identity : ℕ
  scheduler : Scheduler
  deriving DecidableEq, Repr

/-- The right panel: the tabs attached to its tab sheet, its `tabs` field, and the number of
tabs it has made. -/
structure RightPanel (Scheduler : Type) where
  attached : List (Tab Scheduler)
  tabs : List (Tab Scheduler)
  made : ℕ
  deriving DecidableEq, Repr

/-- `scheduler.getAllTriggers()` on null. -/
def nullScheduler : Throwable :=
  .plain .nullPointerException (some "Cannot invoke method getAllTriggers() on null object")

/-- `new TriggersTable(scheduler)`; `getAllTriggers` is what comes of listing the triggers. -/
def triggersTable (scheduler : Option Scheduler) (getAllTriggers : Except Throwable Unit) :
    Except Throwable Scheduler :=
  match scheduler with
  | none => .error nullScheduler
  | some scheduler => getAllTriggers.map fun _ => scheduler

namespace RightPanel

/-- Detach a tab; one that is not attached stays away. -/
def removeTab (panel : RightPanel Scheduler) (tab : Tab Scheduler) : RightPanel Scheduler :=
  { panel with attached := panel.attached.filter (·.identity ≠ tab.identity) }

/-- Attach a new tab after the others, and list it. -/
def addTab (panel : RightPanel Scheduler) (scheduler : Scheduler) : RightPanel Scheduler :=
  let tab : Tab Scheduler := ⟨panel.made, scheduler⟩
  ⟨panel.attached ++ [tab], panel.tabs ++ [tab], panel.made + 1⟩

def resetSchedulerTabs (panel : RightPanel Scheduler)
    (schedulersMap : LinkedMap String Scheduler) (schedulerItemId : String)
    (getAllTriggers : Except Throwable Unit) : Except Throwable Unit × RightPanel Scheduler :=
  let panel := if panel.tabs.length > 0 then panel.tabs.foldl removeTab panel else panel
  match triggersTable (schedulersMap.get schedulerItemId) getAllTriggers with
  | .error ex => (.error ex, panel)
  | .ok scheduler => (.ok (), panel.addTab scheduler)

end RightPanel

/-- The main window of a session: its panels, the tree's value, and the map it was given. -/
structure MainWindow (Scheduler : Type) where
  schedulersMap : LinkedMap String Scheduler
  leftPanel : LeftPanel
  value : Option String
  rightPanel : RightPanel Scheduler

/-- `new MainWindow(schedulersMap)`: the first scheduler is selected and shown. -/
def MainWindow.new (schedulersMap : LinkedMap String Scheduler)
    (getAllTriggers : Except Throwable Unit) : Except Throwable (MainWindow Scheduler) :=
  match schedulersMap.keys with
  | [] => .error noSuchElement
  | itemId :: names =>
    match RightPanel.resetSchedulerTabs ⟨[], [], 0⟩ schedulersMap itemId getAllTriggers with
    | (.error ex, _) => .error ex
    | (.ok _, rightPanel) =>
      .ok ⟨schedulersMap, .initTreeData (itemId :: names), some itemId, rightPanel⟩

/-- The value change listener of the tree. -/
def MainWindow.valueChanged (w : MainWindow Scheduler) (getAllTriggers : Except Throwable Unit) :
    Except Throwable Unit × MainWindow Scheduler :=
  match w.value with
  | none => (.ok (), w)
  | some selectedItemId =>
    let reset := w.rightPanel.resetSchedulerTabs w.schedulersMap selectedItemId getAllTriggers
    (reset.1, { w with rightPanel := reset.2 })

/-- The user selects an item that the tree shows, or clears the selection. The listener is
called when that changes the tree's value. -/
def MainWindow.select (w : MainWindow Scheduler) (itemId : Option String)
    (getAllTriggers : Except Throwable Unit) : Except Throwable Unit × MainWindow Scheduler :=
  if itemId.all w.leftPanel.schedulerExists && decide (w.value ≠ itemId) then
    MainWindow.valueChanged { w with value := itemId } getAllTriggers
  else (.ok (), w)

/-- What the user does in the session. -/
inductive UIEvent (Scheduler : Type)
  | create (text : String) (template : Except Throwable Scheduler)
  | select (itemId : Option String) (getAllTriggers : Except Throwable Unit)

/-- The Save button of the editor. -/
def MainWindow.create (loadFromString : String → Except Throwable Properties)
    (w : MainWindow Scheduler) (text : String) (template : Except Throwable Scheduler) :
    Except Throwable Unit × MainWindow Scheduler :=
  match processNewSchedulerSettings loadFromString w.schedulersMap w.leftPanel text template with
  | .error ex => (.error ex, w)
  | .ok (schedulersMap, leftPanel) =>
    (.ok (), { w with schedulersMap := schedulersMap, leftPanel := leftPanel })

/-- The session, once its main window is built. -/
def mainWindow (loadFromString : String → Except Throwable Properties) :
    Machine (MainWindow Scheduler) (UIEvent Scheduler) (Except Throwable Unit) where
  step
    | w, .create text template => w.create loadFromString text template
    | w, .select itemId getAllTriggers => w.select itemId getAllTriggers

end MySchedule.Console
