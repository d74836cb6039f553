import MySchedule.Console.GroovyContextListener
import MySchedule.Console.SharedMap
import MySchedule.Keyed.Entries

/-!
# The life of the console

`init.groovy` creates the first scheduler and puts it in the map before it schedules the
samples; the sessions save more schedulers; `destroy.groovy` shuts down what the map holds.
What a Save has replaced is no longer there, and what comes after a scheduler that cannot be
shut down is not reached.
-/

namespace MySchedule.Console

open Java Keyed Machines Shell Launch

variable {ι Scheduler : Type}

/-- The servlet context: the map, if it is set, and the entries of it that were shut down. -/
structure ServletContext (Scheduler : Type) where
  schedulersMap : Option (LinkedMap String Scheduler)
  shut : List (String × Scheduler)

/-- What comes of the calls that are made when the console comes up and goes down. -/
structure Deployment (Scheduler : Type) where
  newScriptEngine : Except Throwable Unit
  schedulerTemplate : Except Throwable Scheduler
  start : Scheduler → Except Throwable Unit
  getSchedulerNameAndId : Scheduler → Except Throwable String
  scheduleSamples : Scheduler → Except Throwable Unit
  shutdown : Scheduler → Except Throwable Unit
  removeSessionAttributes : Except Throwable Unit
  /-- A script that is not there. -/
  resourceException : Throwable

namespace Deployment

variable (d : Deployment Scheduler)

/-- `init.groovy`. -/
def initGroovy (context : ServletContext Scheduler) :
    Except Throwable Unit × ServletContext Scheduler :=
  match d.schedulerTemplate with
  | .error ex => (.error ex, context)
  | .ok scheduler =>
    andThen (d.start scheduler, context) fun context =>
      match d.getSchedulerNameAndId scheduler with
      | .error ex => (.error ex, context)
      | .ok nameAndId => (d.scheduleSamples scheduler,
          { context with schedulersMap := some (LinkedMap.empty.put nameAndId scheduler) })

/-- The entries that a context lists; without a map there are none. -/
def entriesOf (context : ServletContext Scheduler) : List (String × Scheduler) :=
  (context.schedulersMap.map LinkedMap.entries).getD []

/-- `destroy.groovy`. -/
def destroyGroovy (context : ServletContext Scheduler) :
    Except Throwable Unit × ServletContext Scheduler :=
  let ended := (collecting fun e : String × Scheduler => d.shutdown e.2).untilError
    context.shut (entriesOf context)
  andThen (ended.1, { context with shut := ended.2 }) fun context =>
    (d.removeSessionAttributes, context)

/-- The script engine over the directory of the application. -/
def scriptEngine : Machine (ServletContext Scheduler) Word (Except Throwable Unit) where
  step context filename :=
    if filename = lit "WEB-INF/groovy/init.groovy" then d.initGroovy context
    else if filename = lit "WEB-INF/groovy/destroy.groovy" then d.destroyGroovy context
    else (.error d.resourceException, context)

/-- The parameters in `web.xml`. -/
def initParameter (name : String) : Option Word :=
  if name = "initScripts" then some (lit "/WEB-INF/groovy/init.groovy")
  else if name = "destroyScripts" then some (lit "/WEB-INF/groovy/destroy.groovy")
  else none

/-- The console comes up. -/
def deploy : Except Throwable Unit × GroovyContextListener × ServletContext Scheduler :=
  GroovyContextListener.new.contextInitialized d.scriptEngine initParameter d.newScriptEngine
    ⟨none, []⟩

/-- The console goes down, with the map as it is by then. -/
def undeploy (schedulersMap : Option (LinkedMap String Scheduler)) :
    Except Throwable Unit × ServletContext Scheduler :=
  d.deploy.2.1.contextDestroyed d.scriptEngine { d.deploy.2.2 with schedulersMap }

end Deployment

/-! ## What the sessions save -/

section

variable [DecidableEq ι] (loadFromString : String → Except Throwable Properties)

/-- The entry that a step puts in the map. -/
def saved (s : WebApp ι Scheduler) : Action ι Scheduler → List (String × Scheduler)
  | .openSession _ _ => []
  | .save i text template =>
    match s.sessions i, loadFromString text, template with
    | some panel, .ok props, .ok scheduler =>
      if panel.schedulerExists (itemIdOf props) then [] else [(itemIdOf props, scheduler)]
    | _, _, _ => []

/-- All that a run puts in the map. -/
def saves (s : WebApp ι Scheduler) : List (Action ι Scheduler) → List (String × Scheduler)
  | [] => []
  | action :: actions => saved loadFromString s action ++
      saves ((webApp ι Scheduler loadFromString).step s action).2 actions

end

section Saves

variable [DecidableEq ι] {loadFromString : String → Except Throwable Properties}
  {s : WebApp ι Scheduler} {i : ι} {panel : LeftPanel} {text : String}
  {template : Except Throwable Scheduler} {props : Properties} {scheduler : Scheduler}

omit [DecidableEq ι] in
/-- A Save of a key that its tree does not show puts the scheduler into the map. -/
theorem saved_stored (hs : s.sessions i = some panel) (hload : loadFromString text = .ok props)
    (hexists : panel.schedulerExists (itemIdOf props) = false) :
    saved loadFromString s (.save i text (.ok scheduler)) = [(itemIdOf props, scheduler)] := by
  simp only [saved, hs, hload, hexists, Bool.false_eq_true, if_false]

omit [DecidableEq ι] in
/-- A Save that fails, or whose key is shown, puts nothing there. -/
theorem saved_refused (hs : s.sessions i = some panel)
    (h : ∀ props scheduler, loadFromString text = .ok props → template = .ok scheduler →
      panel.schedulerExists (itemIdOf props) = true) :
    saved loadFromString s (.save i text template) = [] := by
  simp only [saved, hs]
  split
  · next hpanel hload =>
    rw [if_pos]
    cases hpanel
    exact h _ _ hload rfl
  · rfl

/-- All that a Save can put in the map. -/
theorem saved_cases (loadFromString : String → Except Throwable Properties)
    (hs : s.sessions i = some panel) (text : String) (template : Except Throwable Scheduler) :
    (saved loadFromString s (.save i text template) = [] ∧
      ∃ ex, save loadFromString s i text template = (.error ex, s)) ∨
    ∃ props scheduler, loadFromString text = .ok props ∧ template = .ok scheduler ∧
      panel.schedulerExists (itemIdOf props) = false := by
  by_cases h : ∀ props scheduler, loadFromString text = .ok props → template = .ok scheduler →
      panel.schedulerExists (itemIdOf props) = true
  · exact Or.inl ⟨saved_refused hs h, save_refused hs h⟩
  · simp only [not_forall, Bool.not_eq_true] at h
    obtain ⟨props, scheduler, hload, htemplate, hexists⟩ := h
    exact Or.inr ⟨props, scheduler, hload, htemplate, hexists⟩

/-- A step puts in the map what it saves. -/
theorem saved_step (s : WebApp ι Scheduler) (action : Action ι Scheduler) :
    ((webApp ι Scheduler loadFromString).step s action).2.schedulersMap =
      putAll s.schedulersMap (saved loadFromString s action) := by
  cases action with
  | openSession i triggersTable =>
    change (openSession s i triggersTable).2.schedulersMap = s.schedulersMap
    unfold openSession
    split <;> rfl
  | save i text template =>
    change (save loadFromString s i text template).2.schedulersMap = _
    cases hs : s.sessions i with
    | none => simp only [save, saved, hs, putAll, List.foldl_nil]
    | some panel =>
      rcases saved_cases loadFromString hs text template with
        ⟨hsaved, ex, hex⟩ | ⟨props, scheduler, hload, rfl, hexists⟩
      · rw [hsaved, hex]
        rfl
      · rw [saved_stored hs hload hexists, save_stored hs hload hexists]
        rfl

/-- A run puts in the map all that it saves. -/
theorem saves_after (s : WebApp ι Scheduler) (actions : List (Action ι Scheduler)) :
    ((webApp ι Scheduler loadFromString).after s actions).schedulersMap =
      putAll s.schedulersMap (saves loadFromString s actions) := by
  induction actions generalizing s with
  | nil => rfl
  | cons action actions ih =>
    rw [Machine.after_cons, ih, saved_step, saves, putAll, putAll, putAll, List.foldl_append]

/-- The tree shows the taken keys exactly if what is saved has a new key. -/
theorem shown_iff_saved (s : WebApp ι Scheduler) (action : Action ι Scheduler) :
    Shown loadFromString s action ↔
      ∀ e ∈ saved loadFromString s action, s.schedulersMap.get e.1 = none := by
  cases action with
  | openSession i triggersTable => simp [Shown, saved]
  | save i text template =>
    constructor
    · intro h e he
      cases hs : s.sessions i with
      | none => simp [saved, hs] at he
      | some panel =>
        rcases saved_cases loadFromString hs text template with
          ⟨hsaved, -⟩ | ⟨props, scheduler, hload, rfl, hexists⟩
        · rw [hsaved] at he
          cases he
        · rw [saved_stored hs hload hexists, List.mem_singleton] at he
          rw [he]
          by_contra hmap
          have hshown := h panel props scheduler hs hload rfl hmap
          rw [hexists] at hshown
          cases hshown
    · intro h panel props scheduler hs hload htemplate hmap
      cases hexists : panel.schedulerExists (itemIdOf props) with
      | true => rfl
      | false =>
        subst htemplate
        rw [saved_stored hs hload hexists] at h
        exact absurd (h _ (List.mem_singleton_self _)) hmap

omit [DecidableEq ι] in
/-- One event puts one entry into the map at most. -/
theorem nodup_saved (s : WebApp ι Scheduler) (action : Action ι Scheduler) :
    ((saved loadFromString s action).map Prod.fst).Nodup := by
  unfold saved
  split
  · exact List.nodup_nil
  · split
    · split
      · exact List.nodup_nil
      · exact List.nodup_singleton _
    · exact List.nodup_nil

/-- No key is saved twice exactly if the trees show the keys that are taken. -/
theorem nodup_saves_iff (past : List (String × Scheduler)) (hpast : (past.map Prod.fst).Nodup)
    (hs : s.schedulersMap = putAll .empty past) (actions : List (Action ι Scheduler)) :
    ((past ++ saves loadFromString s actions).map Prod.fst).Nodup ↔
      (webApp ι Scheduler loadFromString).Throughout s actions (Shown loadFromString) := by
  induction actions generalizing s past with
  | nil => simpa [saves, hpast] using Machine.throughout_nil
  | cons action actions ih =>
    have hnew : Shown loadFromString s action ↔
        ((past ++ saved loadFromString s action).map Prod.fst).Nodup := by
      rw [shown_iff_saved, hs, List.map_append, List.nodup_append']
      constructor
      · intro h
        refine ⟨hpast, nodup_saved s action, fun k hk hk' => ?_⟩
        obtain ⟨e, he, rfl⟩ := List.mem_map.mp hk'
        exact get_putAll_eq_none_iff.mp (h e he) hk
      · rintro ⟨-, -, hdisjoint⟩ e he
        exact get_putAll_eq_none_iff.mpr fun hk => hdisjoint hk (List.mem_map_of_mem he)
    have hafter : ((webApp ι Scheduler loadFromString).step s action).2.schedulersMap =
        putAll .empty (past ++ saved loadFromString s action) := by
      rw [saved_step, hs, putAll, putAll, putAll, List.foldl_append]
    rw [Machine.throughout_cons, hnew, saves, ← List.append_assoc]
    constructor
    · intro h
      have hpast' : ((past ++ saved loadFromString s action).map Prod.fst).Nodup :=
        h.sublist ((List.sublist_append_left _ _).map Prod.fst)
      exact ⟨hpast', (ih _ hpast' hafter).mp h⟩
    · rintro ⟨hpast', h⟩
      exact (ih _ hpast' hafter).mpr h

end Saves

/-! ## From the first script to the last -/

namespace Deployment

variable {d : Deployment Scheduler}

/-- A console with a script engine comes up by `init.groovy`. -/
theorem deploy_of_newScriptEngine (h : d.newScriptEngine = .ok ()) : d.deploy =
    (wrapped "Failed to init webapp with scripts." (d.initGroovy ⟨none, []⟩).1,
      ⟨some [lit "/WEB-INF/groovy/init.groovy"], some [lit "/WEB-INF/groovy/destroy.groovy"], true⟩,
      (d.initGroovy ⟨none, []⟩).2) := by
  have hinit : scriptsOf (initParameter "initScripts") none =
      some [lit "/WEB-INF/groovy/init.groovy"] := rfl
  have hdestroy : scriptsOf (initParameter "destroyScripts") none =
      some [lit "/WEB-INF/groovy/destroy.groovy"] := rfl
  simp only [deploy, GroovyContextListener.contextInitialized, GroovyContextListener.new, hinit,
    hdestroy, h, GroovyContextListener.runScripts, Machine.untilError_singleton]
  rfl

/-- The script that the console ends with. -/
theorem undeploy_of_newScriptEngine (h : d.newScriptEngine = .ok ())
    (schedulersMap : Option (LinkedMap String Scheduler)) : d.undeploy schedulersMap =
      (wrapped "Failed to destroy webapp with scripts."
        (d.destroyGroovy { d.deploy.2.2 with schedulersMap }).1,
        (d.destroyGroovy { d.deploy.2.2 with schedulersMap }).2) := by
  rw [undeploy, deploy_of_newScriptEngine h]
  simp only [GroovyContextListener.contextDestroyed, GroovyContextListener.runScripts,
    Machine.untilError_singleton]
  rfl

/-- The calls of `init.groovy` go through. -/
theorem initGroovy_ok {context : ServletContext Scheduler} (h : (d.initGroovy context).1 = .ok ()) :
    ∃ key scheduler, d.schedulerTemplate = .ok scheduler ∧
      d.getSchedulerNameAndId scheduler = .ok key ∧ (d.initGroovy context).2 =
        { context with schedulersMap := some (LinkedMap.empty.put key scheduler) } := by
  unfold initGroovy at h ⊢
  cases htemplate : d.schedulerTemplate with
  | error ex => simp [htemplate] at h
  | ok scheduler =>
    cases hstart : d.start scheduler with
    | error ex => simp [htemplate, hstart] at h
    | ok =>
      cases hname : d.getSchedulerNameAndId scheduler with
      | error ex => simp [htemplate, hstart, hname] at h
      | ok key => exact ⟨key, scheduler, rfl, hname, by simp [hstart, hname]⟩

/-- A console that has come up has a script engine and the first scheduler under its key. -/
theorem deploy_ok (h : d.deploy.1 = .ok ()) : d.newScriptEngine = .ok () ∧
    ∃ key scheduler, d.schedulerTemplate = .ok scheduler ∧
      d.getSchedulerNameAndId scheduler = .ok key ∧
      d.deploy.2.2 = ⟨some (LinkedMap.empty.put key scheduler), []⟩ := by
  cases hengine : d.newScriptEngine with
  | error ex =>
    have hfailed : d.deploy.1 = wrapped "Failed to init webapp with scripts." (.error ex) := by
      simp only [deploy, GroovyContextListener.contextInitialized, hengine]
    rw [hfailed, wrapped_ok_iff] at h
    cases h
  | ok =>
    rw [deploy_of_newScriptEngine hengine, wrapped_ok_iff] at h
    obtain ⟨key, scheduler, htemplate, hname, hcontext⟩ := initGroovy_ok h
    refine ⟨rfl, key, scheduler, htemplate, hname, ?_⟩
    rw [deploy_of_newScriptEngine hengine]
    exact hcontext

section

variable {schedulersMap : LinkedMap String Scheduler}

/-- Every scheduler of the map is shut down. -/
theorem destroyGroovy_of_ok (h : ∀ e ∈ schedulersMap.entries, d.shutdown e.2 = .ok ()) :
    d.destroyGroovy ⟨some schedulersMap, []⟩ =
      (d.removeSessionAttributes, ⟨some schedulersMap, schedulersMap.entries⟩) := by
  have hended := (collecting_ok_iff fun e : String × Scheduler => d.shutdown e.2).mpr ⟨rfl, h⟩
  simp only [destroyGroovy, entriesOf, Option.map_some, Option.getD_some, hended, andThen_ok]

/-- Those before the first that cannot be shut down are. -/
theorem destroyGroovy_of_error {before rest : List (String × Scheduler)} {e : String × Scheduler}
    {ex : Throwable} (hentries : schedulersMap.entries = before ++ e :: rest)
    (h : ∀ b ∈ before, d.shutdown b.2 = .ok ()) (he : d.shutdown e.2 = .error ex) :
    d.destroyGroovy ⟨some schedulersMap, []⟩ = (.error ex, ⟨some schedulersMap, before⟩) := by
  have hended : (collecting fun e : String × Scheduler => d.shutdown e.2).untilError []
      (before ++ e :: rest) = (.error ex, before) := collecting_error h he
  simp only [destroyGroovy, entriesOf, Option.map_some, Option.getD_some, hentries, hended,
    andThen_error]

/-- A console that has come up goes down by `destroy.groovy`, on the map it has then. -/
theorem undeploy_of_deploy (h : d.deploy.1 = .ok ()) : d.undeploy (some schedulersMap) =
    (wrapped "Failed to destroy webapp with scripts."
      (d.destroyGroovy ⟨some schedulersMap, []⟩).1,
      (d.destroyGroovy ⟨some schedulersMap, []⟩).2) := by
  obtain ⟨hengine, key, first, -, -, hcontext⟩ := deploy_ok h
  rw [undeploy_of_newScriptEngine hengine, hcontext]

/-- Where every scheduler can be shut down, all of the map are. -/
theorem undeploy_of_ok (h : d.deploy.1 = .ok ())
    (hall : ∀ e ∈ schedulersMap.entries, d.shutdown e.2 = .ok ()) :
    (d.undeploy (some schedulersMap)).2.shut = schedulersMap.entries ∧
      (d.undeploy (some schedulersMap)).1 =
        wrapped "Failed to destroy webapp with scripts." d.removeSessionAttributes := by
  rw [undeploy_of_deploy h, destroyGroovy_of_ok hall]
  exact ⟨rfl, rfl⟩

/-- Where one cannot, those before it are, and the listener throws what it threw. -/
theorem undeploy_of_error (h : d.deploy.1 = .ok ()) {before rest : List (String × Scheduler)}
    {e : String × Scheduler} {ex : Throwable}
    (hentries : schedulersMap.entries = before ++ e :: rest)
    (hbefore : ∀ b ∈ before, d.shutdown b.2 = .ok ()) (he : d.shutdown e.2 = .error ex) :
    (d.undeploy (some schedulersMap)).2.shut = before ∧
      (d.undeploy (some schedulersMap)).1 =
        wrapped "Failed to destroy webapp with scripts." (.error ex) := by
  rw [undeploy_of_deploy h, destroyGroovy_of_error hentries hbefore he]
  exact ⟨rfl, rfl⟩

/-- What is shut down is a beginning of the map. -/
theorem undeploy_prefix (h : d.deploy.1 = .ok ()) :
    (d.undeploy (some schedulersMap)).2.shut <+: schedulersMap.entries := by
  rcases done_or_error (fun e : String × Scheduler => d.shutdown e.2) schedulersMap.entries with
    hall | ⟨before, e, rest, ex, hentries, hbefore, he⟩
  · rw [(undeploy_of_ok h hall).1]
  · rw [(undeploy_of_error h hentries hbefore he).1, hentries]
    exact List.prefix_append ..

/-- The map is shut down whole exactly if each of its schedulers can be. -/
theorem undeploy_shut_eq_iff (h : d.deploy.1 = .ok ()) :
    (d.undeploy (some schedulersMap)).2.shut = schedulersMap.entries ↔
      ∀ e ∈ schedulersMap.entries, d.shutdown e.2 = .ok () := by
  refine ⟨fun hshut => ?_, fun hall => (undeploy_of_ok h hall).1⟩
  rcases done_or_error (fun e : String × Scheduler => d.shutdown e.2) schedulersMap.entries with
    hall | ⟨before, e, rest, ex, hentries, hbefore, he⟩
  · exact hall
  · -- What cannot be shut down is left out.
    have hshort := (undeploy_of_error h hentries hbefore he).1
    rw [hshut, hentries] at hshort
    exact absurd (List.append_right_eq_self.mp hshort) (List.cons_ne_nil _ _)

end

end Deployment

/-- When the console goes down it shuts down the last scheduler saved under each key, in the order
in which the keys were first saved, up to the first that cannot be shut down. That is the whole
history exactly if all of it can be, and each Save that created a scheduler had found its key in
its own tree if the map had it; and if no scheduler was saved twice, exactly then is none left
running. -/
theorem console_undeployed [DecidableEq ι] (d : Deployment Scheduler)
    (loadFromString : String → Except Throwable Properties) (actions : List (Action ι Scheduler))
    (h : d.deploy.1 = .ok ()) :
    ∃ key first, d.schedulerTemplate = .ok first ∧ d.getSchedulerNameAndId first = .ok key ∧
      let M := webApp ι Scheduler loadFromString
      let s₀ := WebApp.init ι key first
      let history := (key, first) :: saves loadFromString s₀ actions
      let ended := d.undeploy (some (M.after s₀ actions).schedulersMap)
      d.deploy.2.2.schedulersMap = some s₀.schedulersMap ∧
      ((∀ e ∈ lastEntries history, d.shutdown e.2 = .ok ()) →
        ended.2.shut = lastEntries history ∧
        ended.1 = wrapped "Failed to destroy webapp with scripts." d.removeSessionAttributes) ∧
      (∀ before e rest ex, lastEntries history = before ++ e :: rest →
        (∀ b ∈ before, d.shutdown b.2 = .ok ()) → d.shutdown e.2 = .error ex →
        ended.2.shut = before ∧
        ended.1 = wrapped "Failed to destroy webapp with scripts." (.error ex)) ∧
      (ended.2.shut = history ↔ (∀ e ∈ history, d.shutdown e.2 = .ok ()) ∧
        M.Throughout s₀ actions (Shown loadFromString)) ∧
      ((history.map Prod.snd).Nodup →
        ((∀ e ∈ history, e.2 ∈ ended.2.shut.map Prod.snd) ↔
          (∀ e ∈ history, d.shutdown e.2 = .ok ()) ∧
          M.Throughout s₀ actions (Shown loadFromString))) := by
  obtain ⟨hengine, key, first, htemplate, hname, hcontext⟩ := Deployment.deploy_ok h
  refine ⟨key, first, htemplate, hname, ?_⟩
  intro M s₀ history ended
  have hmap : (M.after s₀ actions).schedulersMap = putAll .empty history := saves_after s₀ actions
  have hentries : (M.after s₀ actions).schedulersMap.entries = lastEntries history := by
    rw [hmap, entries_putAll]
  have hnodup : (history.map Prod.fst).Nodup ↔
      M.Throughout s₀ actions (Shown loadFromString) :=
    nodup_saves_iff [(key, first)] (List.nodup_singleton key) rfl actions
  have hleft : ended.2.shut <+: lastEntries history := hentries ▸ Deployment.undeploy_prefix h
  have hwhole : ended.2.shut = history ↔ (∀ e ∈ history, d.shutdown e.2 = .ok ()) ∧
      M.Throughout s₀ actions (Shown loadFromString) := by
    rw [← hnodup]
    constructor
    · intro hshut
      have hself : lastEntries history = history :=
        lastEntries_eq_self_of_length (hshut ▸ hleft).length_le
      rw [hself] at hentries
      have hall := (Deployment.undeploy_shut_eq_iff h).mp (hshut.trans hentries.symm)
      exact ⟨hentries ▸ hall, lastEntries_eq_self_iff.mp hself⟩
    · rintro ⟨hall, hkeys⟩
      rw [lastEntries_eq_self_iff.mpr hkeys] at hentries
      exact ((Deployment.undeploy_shut_eq_iff h).mpr (hentries.symm ▸ hall)).trans hentries
  refine ⟨by rw [hcontext]; rfl, fun hall => ?_, fun before e rest ex heq hbefore he => ?_, hwhole,
    fun hdistinct => ?_⟩
  · rw [← hentries] at hall ⊢
    exact Deployment.undeploy_of_ok h hall
  · exact Deployment.undeploy_of_error h (hentries.trans heq) hbefore he
  · rw [← hwhole]
    constructor
    · intro hshut
      exact eq_of_prefix_lastEntries hdistinct hleft hshut
    · intro hshut e he
      rw [hshut]
      exact List.mem_map_of_mem he

/-- Calls that all go through. -/
def smoothDeployment : Deployment ℕ where
  newScriptEngine := .ok ()
  schedulerTemplate := .ok 0
  start _ := .ok ()
  getSchedulerNameAndId _ := .ok "SampleScheduler_$_NON_CLUSTERED"
  scheduleSamples _ := .ok ()
  shutdown _ := .ok ()
  removeSessionAttributes := .ok ()
  resourceException := .plain (.checkedException "ResourceException") none

/-- A second session saves under the key of the first: what the first has saved is left. -/
theorem replaced_left :
    (smoothDeployment.undeploy (some ((webApp Bool ℕ nothingSet).after
      (.init Bool "SampleScheduler_$_NON_CLUSTERED" 0)
      (oneSaves ++ [.save true "" (.ok 2)])).schedulersMap)).2.shut =
      [("SampleScheduler_$_NON_CLUSTERED", 0), ("DefaultQuartzScheduler_$_NON_CLUSTERED", 2)] := by
  obtain ⟨key, first, hfirst, hkey, -, hok, -, -, -⟩ := console_undeployed smoothDeployment
    nothingSet (oneSaves ++ [.save true "" (.ok 2)]) rfl
  cases hfirst
  cases hkey
  exact (hok fun _ _ => rfl).1.trans (by decide +kernel)

end MySchedule.Console
