import MySchedule.Java.Throwable
import MySchedule.Keyed.LinkedMap
import MySchedule.Machines.Runs

/-!
# The scheduler console

All sessions of the web application share one map of schedulers. Each session has
a tree that is filled from the map when the session opens; a new scheduler is put
in the map and in the tree of the session that saved it. What `Properties.load`
makes of a text is a parameter, and so is what comes of creating a scheduler.
-/

namespace MySchedule.Console

open Java Keyed Machines

/-- The properties that a text sets. -/
abbrev Properties : Type := String → Option String

def Properties.getProperty (props : Properties) (key default : String) : String :=
  (props key).getD default

/-- The items of a tree, each with its parent, if it has one. -/
abbrev HierarchicalContainer : Type := LinkedMap String (Option String)

namespace HierarchicalContainer

/-- Adding an item that is there changes nothing. -/
def addItem (treeData : HierarchicalContainer) (itemId : String) : HierarchicalContainer :=
  if (treeData.get itemId).isSome then treeData else treeData.put itemId none

/-- Items that are not there get no parent, and are no parents. -/
def setParent (treeData : HierarchicalContainer) (itemId parentId : String) :
    HierarchicalContainer :=
  if (treeData.get itemId).isSome && (treeData.get parentId).isSome then
    treeData.put itemId (some parentId)
  else treeData

end HierarchicalContainer

/-- The tree of a session. -/
structure LeftPanel where
  treeData : HierarchicalContainer

namespace LeftPanel

def schedulersItemId : String := "Quartz Schedulers"

def toolsItemId : String := "Tools"

def addItem (panel : LeftPanel) (itemId : String) : LeftPanel := ⟨panel.treeData.addItem itemId⟩

def createSubItem (panel : LeftPanel) (itemId parentId : String) : LeftPanel :=
  ⟨(panel.treeData.addItem itemId).setParent itemId parentId⟩

def createNewScheduler (panel : LeftPanel) (schedulerName : String) : LeftPanel :=
  panel.createSubItem schedulerName schedulersItemId

def schedulerExists (panel : LeftPanel) (schedulerName : String) : Bool :=
  (panel.treeData.get schedulerName).isSome

/-- The tree of a session that opens, from the keys of the map. -/
def initTreeData (schedulerNames : List String) : LeftPanel :=
  let panel : LeftPanel := (⟨.empty⟩ : LeftPanel).addItem schedulersItemId
  let panel := schedulerNames.foldl createNewScheduler panel
  let panel := panel.addItem toolsItemId
  let panel := panel.createSubItem "Scripting Console" toolsItemId
  panel.createSubItem "Cron Builder" toolsItemId

end LeftPanel

/-- The web application: the map in the servlet context, and the tree of each open session. -/
structure WebApp (ι Scheduler : Type) where
  schedulersMap : LinkedMap String Scheduler
  sessions : ι → Option LeftPanel

variable {ι Scheduler : Type} [DecidableEq ι]

/-- What `init.groovy` leaves: one scheduler, and nobody there yet. -/
def WebApp.init (ι : Type) (schedulerNameAndId : String) (scheduler : Scheduler) :
    WebApp ι Scheduler where
  schedulersMap := LinkedMap.empty.put schedulerNameAndId scheduler
  sessions _ := none

/-- The schedulers that `destroy.groovy` shuts down. -/
def WebApp.destroy (s : WebApp ι Scheduler) : List Scheduler := s.schedulersMap.values

/-- `iterator().next()` on an empty map. -/
def noSuchElement : Throwable := .plain (.runtimeException "NoSuchElementException") none

/-- A session opens its main window. It shows the first scheduler of the map, and `triggersTable`
is what comes of listing the triggers of that one. -/
def openSession (s : WebApp ι Scheduler) (i : ι) (triggersTable : Except Throwable Unit) :
    Except Throwable Unit × WebApp ι Scheduler :=
  match s.schedulersMap.keys, triggersTable with
  | [], _ => (.error noSuchElement, s)
  | _ :: _, .error ex => (.error ex, s)
  | names@(_ :: _), .ok _ =>
    (.ok (), { s with sessions := Function.update s.sessions i (some (.initTreeData names)) })

/-- The key of the scheduler that properties describe. -/
def itemIdOf (props : Properties) : String :=
  let name := props.getProperty "org.quartz.scheduler.instanceName" "DefaultQuartzScheduler"
  let id := props.getProperty "org.quartz.scheduler.instanceId" "NON_CLUSTERED"
  name ++ "_$_" ++ id

def alreadyExists (itemId : String) : Throwable :=
  .plain (.runtimeException "RuntimeException")
    (some ("Scheduler instance name and id '" ++ itemId ++ "' already exists."))

section

variable (loadFromString : String → Except Throwable Properties)

/-- Saving the text of the editor in the session of `leftPanel`; `template` is what comes of
`new SchedulerTemplate(props)`. -/
def processNewSchedulerSettings (schedulersMap : LinkedMap String Scheduler)
    (leftPanel : LeftPanel) (text : String) (template : Except Throwable Scheduler) :
    Except Throwable (LinkedMap String Scheduler × LeftPanel) := do
  let props ← loadFromString text
  let itemId := itemIdOf props
  if leftPanel.schedulerExists itemId then
    throw (alreadyExists itemId)
  let scheduler ← template
  return (schedulersMap.put itemId scheduler, leftPanel.createNewScheduler itemId)

/-- The Save button of session `i`; without a session there is no button. -/
def save (s : WebApp ι Scheduler) (i : ι) (text : String) (template : Except Throwable Scheduler) :
    Except Throwable Unit × WebApp ι Scheduler :=
  match s.sessions i with
  | none => (.ok (), s)
  | some leftPanel =>
    match processNewSchedulerSettings loadFromString s.schedulersMap leftPanel text template with
    | .ok (schedulersMap, leftPanel) =>
      (.ok (), ⟨schedulersMap, Function.update s.sessions i (some leftPanel)⟩)
    | .error ex => (.error ex, s)

end

/-- What happens in the sessions. -/
inductive Action (ι Scheduler : Type)
  | openSession (i : ι) (triggersTable : Except Throwable Unit)
  | save (i : ι) (text : String) (template : Except Throwable Scheduler)

/-- The web application between `init.groovy` and `destroy.groovy`. -/
def webApp (ι Scheduler : Type) [DecidableEq ι]
    (loadFromString : String → Except Throwable Properties) :
    Machine (WebApp ι Scheduler) (Action ι Scheduler) (Except Throwable Unit) where
  step
    | s, .openSession i triggersTable => openSession s i triggersTable
    | s, .save i text template => save loadFromString s i text template

end MySchedule.Console
