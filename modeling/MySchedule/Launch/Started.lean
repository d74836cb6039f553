import MySchedule.Launch.Scripts
import MySchedule.Server.CleanRuns

/-!
# What the scripts start

The launcher of Java takes its options up to the main class, whose arguments are the rest.
Each script of the servers starts one class whatever its arguments are; but
`run-quartz2.sh` starts the server that empties the job store, and `run-quartz-clean.sh`
the one that fills it.
-/

namespace MySchedule.Launch

open Shell Server Cleanup Java

/-- What `java` makes of the words after it. -/
structure Start where
  /-- The system properties, with their `-D`. -/
  properties : List Word
  mainClass : Word
  arguments : List Word
  deriving DecidableEq, Repr

/-- `-cp` comes with a value, and the other options are words of their own. -/
def readCommand : List Word → Option Start
  | [] => none
  | word :: rest =>
    if word = lit "-cp" then
      match rest with
      | [] => none
      | _ :: rest => readCommand rest
    else if lit "-D" <+: word then
      (readCommand rest).map fun start => { start with properties := word :: start.properties }
    else if lit "-" <+: word then readCommand rest
    else some ⟨[], word, rest⟩

/-- The name and the value of `-Dname=value`. -/
def propertyName (word : Word) : Word := (word.drop 2).takeWhile (· ≠ '=')

def propertyValue (word : Word) : Word := ((word.drop 2).dropWhile (· ≠ '=')).tail

/-- The values that properties give a name. -/
def valuesOf (name : Word) (properties : List Word) : List Word :=
  (properties.filter (propertyName · = name)).map propertyValue

/-- `System.getProperty`; of several values the last one stays. -/
def Start.getProperty (start : Start) (name : Word) : Option Word :=
  (valuesOf name start.properties).getLast?

/-- The process that a command starts. -/
def Commands.start (commands : Commands) : Option Start :=
  commands.executed.bind fun words => readCommand words.tail

/-- Words that set properties are read as such, in order. -/
theorem readCommand_properties {properties : List Word}
    (h : ∀ word ∈ properties, lit "-D" <+: word) (rest : List Word) :
    readCommand (properties ++ rest) = (readCommand rest).map fun start =>
      { start with properties := properties ++ start.properties } := by
  induction properties with
  | nil => simp
  | cons word properties ih =>
    have hword := h word (List.mem_cons_self ..)
    have hcp : word ≠ lit "-cp" := by
      rintro rfl
      exact absurd hword (by decide)
    rw [List.cons_append, readCommand.eq_def]
    simp only [if_neg hcp, if_pos hword, ih fun w hw => h w (List.mem_cons_of_mem word hw),
      Option.map_map]
    rfl

/-- The class path is passed over with its value. -/
theorem readCommand_cp (value : Word) (rest : List Word) :
    readCommand (lit "-cp" :: value :: rest) = readCommand rest := by
  rw [readCommand.eq_def]
  rfl

/-- A run of a script. -/
structure ScriptRun where
  script : ServerScript
  place : Place
  env : Environment
  app : Application
  host : Host
  args : List Word

/-- The properties among the arguments that are forwarded. -/
def ScriptRun.properties (r : ScriptRun) : List Word :=
  (route (r.script.forwarded r.args)).properties

/-- Nothing keeps the arguments of the script from Java: the script reaches `run-java`, there is no
blank, no file that matches, and no variable that changes what `run-java` does with them. -/
structure ScriptRun.Clear (r : ScriptRun) : Prop where
  place : r.place.Reached r.host
  glob : ∀ field, lit "-D" <+: field → r.host.glob field = []
  parse : r.env.runJavaNoParse = []
  opts : r.env.runJavaOpts = []
  dry : r.env.runJavaDry = []
  config : ∀ c ∈ r.args.headD [], isIfs c = false
  forwarded : ∀ word ∈ r.properties, ∀ c ∈ word, isIfs c = false

def ScriptRun.start (r : ScriptRun) : Option Start :=
  (r.script.run r.place r.env r.app r.host r.args).start

namespace ServerScript

def mainClass : ServerScript → Word
  | runQuartz18 => quartzServer
  | script => script.leading

/-- The class is the first word after the classpath that is no option. -/
theorem readCommand_remaining (script : ServerScript) (args : List Word) :
    readCommand (route (script.arguments args)).remaining =
      some ⟨[], script.mainClass, (route (script.forwarded args)).remaining⟩ := by
  have hclass : ∀ (name : Word) (rest : List Word), name ≠ lit "-cp" → ¬ lit "-" <+: name →
      readCommand (name :: rest) = some ⟨[], name, rest⟩ := by
    intro name rest hcp hoption
    have hproperty : ¬ lit "-D" <+: name := fun h =>
      hoption ((by decide : lit "-" <+: lit "-D").trans h)
    rw [readCommand.eq_def]
    simp only [if_neg hcp, if_neg hproperty, if_neg hoption]
  have hleading : (route (script.arguments args)).remaining =
      script.leading :: (route (script.trailing ++ script.forwarded args)).remaining := by
    have hconfig : lit "-Dconfig=" <+: configWord args := List.prefix_append ..
    have hproperty : lit "-D" <+: configWord args :=
      (by decide : lit "-D" <+: lit "-Dconfig=").trans hconfig
    rw [arguments, route_remaining _ (by cases script <;> decide) (by cases script <;> decide),
      route_property _ ?_ hproperty]
    exact fun h => absurd (h ▸ hconfig) (by decide)
  rw [hleading]
  cases script with
  | runQuartz18 =>
    have htrailing : (route (trailing runQuartz18 ++ args)).remaining =
        quartzServer :: (route args).remaining := by
      have hfixed : route (Quartz18.isolateLogging :: quartzServer :: args) = _ :=
        route_property (quartzServer :: args) (by decide) (by decide)
      have hserver : route (quartzServer :: args) = _ :=
        route_remaining args (by decide) (by decide)
      exact (congrArg Routed.remaining hfixed).trans (congrArg Routed.remaining hserver)
    have hagent : ∀ rest, readCommand (Quartz18.debugAgent :: rest) = readCommand rest := by
      intro rest
      rw [readCommand.eq_def]
      rfl
    rw [leading, hagent]
    exact (congrArg readCommand htrailing).trans (hclass _ _ (by decide) (by decide))
  | _ => exact hclass _ _ (by decide) (by decide)

/-- No fixed property of a script is named `config`. -/
theorem fixed_name (script : ServerScript) :
    ∀ word ∈ script.fixed, propertyName word ≠ lit "config" := by
  cases script <;> decide

end ServerScript

/-- The script's own word sets `config`. -/
theorem propertyName_configWord (args : List Word) :
    propertyName (configWord args) = lit "config" := rfl

/-- It sets it to the first argument, or to nothing. -/
theorem propertyValue_configWord (args : List Word) :
    propertyValue (configWord args) = args.headD [] := rfl

/-- The values of a name, word by word. -/
theorem valuesOf_cons (name word : Word) (properties : List Word) :
    valuesOf name (word :: properties) =
      (if propertyName word = name then [propertyValue word] else []) ++
        valuesOf name properties := by
  by_cases h : propertyName word = name <;> simp [valuesOf, h]

/-- Properties of other names give a name no value. -/
theorem valuesOf_append_of_ne {name : Word} {fixed : List Word}
    (h : ∀ word ∈ fixed, propertyName word ≠ name) (properties : List Word) :
    valuesOf name (fixed ++ properties) = valuesOf name properties := by
  have hnone : fixed.filter (propertyName · = name) = [] := by
    simpa [List.filter_eq_nil_iff] using h
  rw [valuesOf, List.filter_append, hnone, List.nil_append, valuesOf]

/-- `config` is the first argument, unless a later property gives it another value. -/
theorem getProperty_config (args properties rest : List Word) (name : Word) :
    Start.getProperty ⟨configWord args :: properties, name, rest⟩ (lit "config") =
      some ((valuesOf (lit "config") properties).getLast?.getD (args.headD [])) := by
  rw [Start.getProperty, valuesOf_cons, if_pos (propertyName_configWord args),
    propertyValue_configWord, List.singleton_append, List.getLast?_cons]

/-- The start of a clear run. -/
theorem ScriptRun.Clear.start_eq {r : ScriptRun} (h : r.Clear) : r.start =
    some ⟨configWord r.args :: (r.script.fixed ++ r.properties), r.script.mainClass,
      (route (r.script.forwarded r.args)).remaining⟩ := by
  have hconfig := (configWord_noBlank_iff r.args).mpr h.config
  have hgiven := (runJava_executed_iff (r.script.environment r.env) r.app r.host
    (r.script.arguments r.args) h.glob (by simpa using h.parse) (by simpa using h.opts)
    (by simpa using h.dry)).mpr ?_
  · rw [ScriptRun.start, r.script.run_of_noBlank r.env r.app h.place h.glob hconfig, Commands.start,
      hgiven, Option.bind_some, List.tail_cons, javaArguments,
      readCommand_properties fun word => mem_properties, readCommand_cp,
      r.script.readCommand_remaining, Option.map_some, r.script.properties_arguments,
      List.append_nil]
    rfl
  · rw [r.script.properties_arguments, List.forall_mem_cons, List.forall_mem_append]
    exact ⟨hconfig, r.script.fixed_noBlank, h.forwarded⟩

/-- A clear run starts the class of its script, with the properties among its arguments and
`config`, which is the last value that they give it, or else the first argument of the script.
So a server never asks for the default scheduler. -/
theorem scripts_start (r : ScriptRun) (h : r.Clear) : ∃ start, r.start = some start ∧
    start.mainClass = r.script.mainClass ∧
    start.arguments = (route (r.script.forwarded r.args)).remaining ∧
    start.getProperty (lit "config") =
      some ((valuesOf (lit "config") r.properties).getLast?.getD (r.args.headD [])) ∧
    ∀ name ≠ lit "config", (∀ word ∈ r.script.fixed, propertyName word ≠ name) →
      start.getProperty name = (valuesOf name r.properties).getLast? := by
  refine ⟨_, h.start_eq, rfl, rfl, ?_, fun name hname hfixed => ?_⟩
  · rw [getProperty_config, valuesOf_append_of_ne r.script.fixed_name]
  · rw [Start.getProperty, valuesOf_cons, propertyName_configWord, if_neg hname.symm,
      valuesOf_append_of_ne hfixed, List.nil_append]

/-- A run of a script where nothing is set and no file matches. -/
def plainRun (script : ServerScript) (args : List Word) : ScriptRun :=
  ⟨script, binPlace, unixEnvironment, configOnly, noFiles, args⟩

/-- A run whose words have no blank is clear. -/
theorem plainRun_clear (script : ServerScript) {args : List Word}
    (hconfig : (args.headD []).all (fun c => !isIfs c) = true)
    (hproperties : (plainRun script args).properties.all (·.all fun c => !isIfs c) = true) :
    (plainRun script args).Clear :=
  ⟨binPlace_plain.reached (noBlank_of_all (by decide)), fun _ _ => rfl, rfl, rfl, rfl,
    noBlank_of_all hconfig, noBlanks_of_all hproperties⟩

/-- A second configuration among the arguments is the one that is used. -/
theorem secondConfig_start : ∃ start, (plainRun .runQuartz18
      [lit "quartz.properties", lit "-Dconfig=other.properties"]).start = some start ∧
    start.mainClass = quartzServer ∧
    start.getProperty (lit "config") = some (lit "other.properties") := by
  obtain ⟨start, hstart, hclass, _, hconfig, _⟩ := scripts_start (plainRun .runQuartz18
    [lit "quartz.properties", lit "-Dconfig=other.properties"])
    (plainRun_clear .runQuartz18 (by decide +kernel) (by decide +kernel))
  exact ⟨start, hstart, hclass, hconfig⟩

/-! ## The servers of 2.0 -/

/-- The other scripts are `run-quartz-x.sh` with the name of their class. -/
theorem runQuartzX_eq {host : Host} {name : Word}
    (hname : Intact host.glob (lit "quartz.experiment." ++ name)) (place : Place)
    (env : Environment) (app : Application) (args : List Word) :
    Quartz20.runQuartzX place env app host (name :: args) =
      launch (lit "quartz.experiment." ++ name) [] args place env app host args := by
  rw [Quartz20.runQuartzX, List.headD_cons, List.tail_cons, expand_eq_singleton_iff.mpr hname]
  rfl

/-- The class of a name. -/
def serverClass (name : Word) : Option ServerClass :=
  if name = quartzServer then some .quartzServer
  else if name = lit "quartz.experiment.QuartzServer2" then some .quartzServer2
  else if name = lit "quartz.experiment.QuartzServer3" then some .quartzServer3
  else if name = lit "quartz.experiment.QuartzServer4" then some .quartzServer4
  else if name = lit "quartz.experiment.QuartzServerClean" then some .quartzServerClean
  else none

/-- The process of a server that a script starts. -/
def ScriptRun.process (r : ScriptRun) (weather : Weather) : Option ServerProcess := do
  let start ← r.start
  let server ← serverClass start.mainClass
  return ⟨server, (start.getProperty (lit "config")).map String.ofList, weather⟩

/-- A clear run of a server's script starts that server, with a configuration. -/
theorem ScriptRun.Clear.process_eq {r : ScriptRun} (h : r.Clear) (server : ServerClass)
    (hserver : serverClass r.script.mainClass = some server) (weather : Weather) :
    ∃ config, r.process weather = some ⟨server, some config, weather⟩ := by
  refine ⟨String.ofList ((valuesOf (lit "config") (r.script.fixed ++ r.properties)).getLast?.getD
    (r.args.headD [])), ?_⟩
  rw [ScriptRun.process, h.start_eq, Option.bind_eq_bind, Option.bind_some, hserver,
    Option.bind_eq_bind, Option.bind_some, getProperty_config]
  rfl

/-- Where no call fails, `run-quartz2.sh` leaves any job store empty and its server ends without
a start, and `run-quartz-clean.sh` then leaves the store with three jobs and starts its server. -/
theorem cleanScript_fills (toString : Throwable → String) (clock clock' : Nat → Int)
    (r r' : ScriptRun) (h : r.Clear) (h' : r'.Clear) (hr : r.script = .runQuartz2)
    (hr' : r'.script = .runQuartzClean) (s : JobStore) :
    ∃ p p' s' s'', r.process (fair clock) = some p ∧ p.onto toString s = (.ok (.ok ()), s') ∧
      p.NotStarted toString s ∧ s'.jobs = [] ∧ s'.triggers = [] ∧
      r'.process (fair clock') = some p' ∧ p'.onto toString s' = (.ok (.ok ()), s'') ∧
      p'.Served toString s' ∧
      s''.jobs = jobNames.map (fun name => ⟨jobKey name, false⟩) ∧
      s''.triggers = jobNames.map (fun name => ⟨triggerKey name, jobKey name⟩) := by
  obtain ⟨config, hprocess⟩ :=
    h.process_eq .quartzServerClean (by rw [hr]; decide) (fair clock)
  obtain ⟨config', hprocess'⟩ :=
    h'.process_eq .quartzServer2 (by rw [hr']; decide) (fair clock')
  obtain ⟨s', hclean, hnot, hjobs, htriggers⟩ := quartzServerClean_onto clock (some config) s
  obtain ⟨s'', hfill⟩ := quartzServer2_onto_empty clock' (some config') hjobs htriggers
  exact ⟨_, _, s', s'', hprocess, hclean, hnot, hjobs, htriggers, hprocess', hfill⟩

/-- The clean server without arguments, then the filling one. -/
theorem plainScripts_fill : ∃ p p' s' s'',
    (plainRun .runQuartz2 []).process (fair fun _ => 0) = some p ∧
      p.onto (fun _ => "") emptyJobStore = (.ok (.ok ()), s') ∧
      p.NotStarted (fun _ => "") emptyJobStore ∧ s'.jobs = [] ∧ s'.triggers = [] ∧
      (plainRun .runQuartzClean []).process (fair fun _ => 0) = some p' ∧
      p'.onto (fun _ => "") s' = (.ok (.ok ()), s'') ∧ p'.Served (fun _ => "") s' ∧
      s''.jobs = jobNames.map (fun name => ⟨jobKey name, false⟩) ∧
      s''.triggers = jobNames.map (fun name => ⟨triggerKey name, jobKey name⟩) :=
  cleanScript_fills (fun _ => "") (fun _ => 0) (fun _ => 0) (plainRun .runQuartz2 [])
    (plainRun .runQuartzClean []) (plainRun_clear .runQuartz2 (by decide) (by decide))
    (plainRun_clear .runQuartzClean (by decide) (by decide)) rfl rfl emptyJobStore

end MySchedule.Launch
