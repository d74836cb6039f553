import MySchedule.Launch.Arguments

/-!
# The scripts of the servers

Each script runs the `run-java` next to it with a main class, the property `config` and its
own arguments. The path of `run-java` and the first argument are used without quotes, and
`run-java` uses its Java options without quotes once more.
-/

namespace MySchedule.Launch

open Shell

/-- Where a script is. -/
structure Place where
  /-- `$0`, the name by which the script was called. -/
  zero : Word
  /-- What `dirname` prints. -/
  dirname : List Word → Word
  /-- The commands that are the script `run-java`. -/
  isRunJava : Word → Bool

/-- `DIR=$(dirname $0)`, whose `$0` has no quotes. -/
def Place.dir (place : Place) (host : Host) : Word :=
  substitution (place.dirname (expand host.glob place.zero))

/-- `$DIR/run-java`, before it is split. -/
def Place.runJavaPath (place : Place) (host : Host) : Word := place.dir host ++ lit "/run-java"

/-- `$DIR/run-java words`: the first word of the path is the command, and those after it come
before the arguments. Nothing of `run-java` happens by another command. -/
def callRunJava (place : Place) (env : Environment) (app : Application) (host : Host)
    (words : List Word) : Commands :=
  match expand host.glob (place.runJavaPath host) with
  | [] => ⟨none, none⟩
  | command :: before =>
    if place.isRunJava command then runJava env app host (before ++ words) else ⟨none, none⟩

/-- `-Dconfig=$1`, before it is split. -/
def configWord (args : List Word) : Word := lit "-Dconfig=" ++ args.headD []

/-- `$DIR/run-java leading -Dconfig=$1 trailing forwarded`. -/
def launch (leading : Word) (trailing forwarded : List Word) (place : Place) (env : Environment)
    (app : Application) (host : Host) (args : List Word) : Commands :=
  callRunJava place env app host
    (leading :: expand host.glob (configWord args) ++ (trailing ++ forwarded))

/-- `RUN_JAVA_CP="$RUN_JAVA_CP;…"`, line by line. -/
def exportCp (entries : List Word) (env : Environment) : Environment :=
  { env with runJavaCp := appendEach (lit ";") env.runJavaCp entries }

def quartzServer : Word := lit "quartz.experiment.QuartzServer"

namespace Quartz20

/-- `run-quartz.sh`. -/
def runQuartz (place : Place) (env : Environment) (app : Application) (host : Host)
    (args : List Word) : Commands := launch quartzServer [] args place env app host args

/-- `run-quartz2.sh`. -/
def runQuartz2 (place : Place) (env : Environment) (app : Application) (host : Host)
    (args : List Word) : Commands :=
  launch (lit "quartz.experiment.QuartzServerClean") [] args place env app host args

/-- `run-quartz-clean.sh`. -/
def runQuartzClean (place : Place) (env : Environment) (app : Application) (host : Host)
    (args : List Word) : Commands :=
  launch (lit "quartz.experiment.QuartzServer2") [] args place env app host args

/-- `run-quartz-x.sh`: the first argument names the class, and the others are shifted. -/
def runQuartzX (place : Place) (env : Environment) (app : Application) (host : Host)
    (args : List Word) : Commands :=
  let name := args.headD []
  let args := args.tail
  callRunJava place env app host (expand host.glob (lit "quartz.experiment." ++ name) ++
    expand host.glob (configWord args) ++ args)

/-- The directories of `run-quartz-dev.sh`. -/
def devEntries : List Word := [
  lit "C:\\projects\\quartz-trunk\\quartz\\target\\test-classes",
  lit "C:\\projects\\quartz-trunk\\quartz\\target\\classes",
  lit "C:\\projects\\quartz-trunk\\quartz\\target\\dependency\\*",
  lit "C:\\projects\\quartz-trunk\\quartz-oracle\\target\\test-classes",
  lit "C:\\projects\\quartz-trunk\\quartz-oracle\\target\\classes",
  lit "C:\\projects\\quartz-trunk\\quartz-oracle\\target\\dependency\\*"]

/-- `run-quartz-dev.sh`, which does not forward its arguments. -/
def runQuartzDev (place : Place) (env : Environment) (app : Application) (host : Host)
    (args : List Word) : Commands :=
  launch quartzServer [] [] place (exportCp devEntries env) app host args

end Quartz20

namespace Quartz18

/-- The agent for remote debugging. -/
def debugAgent : Word := lit "-Xrunjdwp:transport=dt_socket,server=y,suspend=n,address=8000"

def isolateLogging : Word := lit "-Djcl.isolateLogging=false"

/-- `run-quartz.sh`. -/
def runQuartz (place : Place) (env : Environment) (app : Application) (host : Host)
    (args : List Word) : Commands :=
  launch debugAgent [isolateLogging, quartzServer] args place env app host args

/-- The directories of `run-quartz-dev.sh`. -/
def devEntries : List Word := [
  lit "C:\\projects\\quartz-1.8.x-branch\\quartz\\target\\test-classes",
  lit "C:\\projects\\quartz-1.8.x-branch\\quartz\\target\\classes",
  lit "C:\\projects\\quartz-1.8.x-branch\\quartz\\target\\dependency\\*",
  lit "C:\\projects\\quartz-1.8.x-branch\\quartz-oracle\\target\\test-classes",
  lit "C:\\projects\\quartz-1.8.x-branch\\quartz-oracle\\target\\classes",
  lit "C:\\projects\\quartz-1.8.x-branch\\quartz-oracle\\target\\dependency\\*"]

/-- `run-quartz-dev.sh`. -/
def runQuartzDev (place : Place) (env : Environment) (app : Application) (host : Host)
    (args : List Word) : Commands :=
  launch quartzServer [] [] place (exportCp devEntries env) app host args

end Quartz18

/-- A word that begins like the property `config` is a property. -/
theorem properties_config {word : Word} (h : lit "-Dconfig=" <+: word) (rest : List Word) :
    (route (word :: rest)).properties = word :: (route rest).properties := by
  have hproperty : lit "-D" <+: word := (by decide : lit "-D" <+: lit "-Dconfig=").trans h
  rw [route_property rest ?_ hproperty]
  rintro rfl
  exact absurd h (by decide)

/-- The scripts with a fixed main class. -/
inductive ServerScript
  | runQuartz
  | runQuartz2
  | runQuartzClean
  | runQuartzDev
  | runQuartz18
  | runQuartzDev18
  deriving DecidableEq, Repr

namespace ServerScript

def run : ServerScript → Place → Environment → Application → Host → List Word → Commands
  | runQuartz => Quartz20.runQuartz
  | runQuartz2 => Quartz20.runQuartz2
  | runQuartzClean => Quartz20.runQuartzClean
  | runQuartzDev => Quartz20.runQuartzDev
  | runQuartz18 => Quartz18.runQuartz
  | runQuartzDev18 => Quartz18.runQuartzDev

def leading : ServerScript → Word
  | runQuartz | runQuartzDev | runQuartzDev18 => quartzServer
  | runQuartz2 => lit "quartz.experiment.QuartzServerClean"
  | runQuartzClean => lit "quartz.experiment.QuartzServer2"
  | runQuartz18 => Quartz18.debugAgent

def trailing : ServerScript → List Word
  | runQuartz18 => [Quartz18.isolateLogging, quartzServer]
  | _ => []

/-- The property among them. -/
def fixed : ServerScript → List Word
  | runQuartz18 => [Quartz18.isolateLogging]
  | _ => []

def forwarded (args : List Word) : ServerScript → List Word
  | runQuartzDev | runQuartzDev18 => []
  | _ => args

def environment (env : Environment) : ServerScript → Environment
  | runQuartzDev => exportCp Quartz20.devEntries env
  | runQuartzDev18 => exportCp Quartz18.devEntries env
  | _ => env

/-- What a script means to hand to `run-java`. -/
def arguments (script : ServerScript) (args : List Word) : List Word :=
  script.leading :: configWord args :: (script.trailing ++ script.forwarded args)

/-- Every script is one launch of `run-java` with words before and after its own arguments. -/
theorem run_eq (script : ServerScript) (place : Place) (env : Environment) (app : Application)
    (host : Host) (args : List Word) : script.run place env app host args =
      launch script.leading script.trailing (script.forwarded args) place
        (script.environment env) app host args := by
  cases script <;> rfl

section

variable (script : ServerScript) (env : Environment) (args : List Word)

@[simp] theorem environment_javaCmd : (script.environment env).javaCmd = env.javaCmd := by
  cases script <;> rfl

@[simp] theorem environment_runJavaNoParse :
    (script.environment env).runJavaNoParse = env.runJavaNoParse := by
  cases script <;> rfl

@[simp] theorem environment_runJavaOpts :
    (script.environment env).runJavaOpts = env.runJavaOpts := by
  cases script <;> rfl

@[simp] theorem environment_runJavaDry :
    (script.environment env).runJavaDry = env.runJavaDry := by
  cases script <;> rfl

/-- The first argument of `run-java` is neither `-cp` nor a property. -/
theorem properties_leading (rest : List Word) :
    (route (script.leading :: rest)).properties = (route rest).properties := by
  rw [route_remaining rest (by cases script <;> decide) (by cases script <;> decide)]

/-- The fixed properties of a script come before what it forwards. -/
theorem properties_trailing (rest : List Word) :
    (route (script.trailing ++ rest)).properties = script.fixed ++ (route rest).properties := by
  cases script with
  | runQuartz18 =>
    have hserver : (route (quartzServer :: rest)).properties = (route rest).properties := by
      rw [route_remaining rest (by decide) (by decide)]
    have hfixed : (route (Quartz18.isolateLogging :: quartzServer :: rest)).properties =
        Quartz18.isolateLogging :: (route (quartzServer :: rest)).properties := by
      rw [route_property _ (by decide) (by decide)]
    exact hfixed.trans (congrArg _ hserver)
  | _ => rfl

/-- No fixed property has a blank. -/
theorem fixed_noBlank : ∀ word ∈ script.fixed, ∀ c ∈ word, isIfs c = false := by
  cases script <;> simp [fixed, Quartz18.isolateLogging, lit, isIfs]

/-- The `config` property comes first, then the fixed ones, then what is forwarded. -/
theorem properties_arguments : (route (script.arguments args)).properties =
    configWord args :: (script.fixed ++ (route (script.forwarded args)).properties) := by
  have hstart : lit "-Dconfig=" <+: configWord args := List.prefix_append ..
  rw [arguments, properties_leading, properties_config hstart, properties_trailing]

end

end ServerScript

section

variable {env : Environment} {app : Application} {host : Host} {args words : List Word}

/-- What `run-java` executes. -/
theorem runJava_executed (hparse : env.runJavaNoParse = []) (hopts : env.runJavaOpts = [])
    (hdry : env.runJavaDry = []) : (runJava env app host words).executed = some (env.javaCmd ::
      ((route words).properties.flatMap (expand host.glob) ++ lit "-cp" ::
        (cpSeparator env).intercalate (setupClasspath env app host :: (route words).cpValues) ::
          (route words).remaining)) := by
  obtain ⟨foundCp, hparsed⟩ :=
    foldl_parseArg (cpSeparator env) words (setupClasspath env app host) [] []
  have hexpand : expand host.glob (appendEach (lit " ") [] (route words).properties) =
      (route words).properties.flatMap (expand host.glob) := expand_appendEach rfl [] _
  rw [runJava, if_pos hparse, hopts, hparsed, appendEach_eq_intercalate (cpSeparator env)]
  simp only [commands, hdry, if_true, hexpand, List.nil_append, List.cons_append]

/-- A property becomes a part of itself, up to its first blank, and maybe more words. -/
theorem expand_property (hglob : ∀ field, lit "-D" <+: field → host.glob field = [])
    {start : Word} (hproperty : lit "-D" <+: start) (hstart : ∀ c ∈ start, isIfs c = false)
    (value : Word) : ∃ first rest, expand host.glob (start ++ value) = first :: rest ∧
      start <+: first ∧ ∀ c ∈ first, isIfs c = false := by
  have hne : start ≠ [] := by
    rintro rfl
    exact absurd hproperty (by decide)
  obtain ⟨rest, hfields⟩ := fields_start hstart hne value
  have hprefix : start <+: start ++ value.takeWhile (!isIfs ·) := List.prefix_append ..
  refine ⟨_, rest.flatMap (pathnames host.glob), ?_, hprefix, ?_⟩
  · rw [expand, hfields, List.flatMap_cons, pathnames, hglob _ (hproperty.trans hprefix)]
    rfl
  · intro c hc
    rcases List.mem_append.mp hc with hc | hc
    · exact hstart c hc
    · simpa using List.mem_takeWhile_imp hc

/-- A property stands for itself exactly if it has no blank. -/
theorem intact_property_iff (hglob : ∀ field, lit "-D" <+: field → host.glob field = [])
    {word : Word} (hproperty : lit "-D" <+: word) :
    Intact host.glob word ↔ ∀ c ∈ word, isIfs c = false := by
  constructor
  · intro h
    obtain ⟨value, rfl⟩ := hproperty
    obtain ⟨first, rest, hexpand, _, hfirst⟩ :=
      expand_property hglob List.prefix_rfl (by simp [lit, isIfs]) value
    rw [expand_eq_singleton_iff.mpr h] at hexpand
    exact (List.cons.inj hexpand).1 ▸ hfirst
  · intro h
    refine intact_of_noBlank h ?_ (hglob word hproperty)
    rintro rfl
    exact absurd hproperty (by decide)

variable (env app host words) in
/-- Java is given the arguments of `run-java` as they are exactly if no property has a blank. -/
theorem runJava_executed_iff (hglob : ∀ field, lit "-D" <+: field → host.glob field = [])
    (hparse : env.runJavaNoParse = []) (hopts : env.runJavaOpts = [])
    (hdry : env.runJavaDry = []) : (runJava env app host words).executed =
      some (env.javaCmd :: javaArguments env app host words) ↔
        ∀ word ∈ (route words).properties, ∀ c ∈ word, isIfs c = false := by
  rw [runJava_executed hparse hopts hdry, javaArguments, Option.some.injEq, List.cons.injEq,
    List.append_left_inj, flatMap_expand_eq_self_iff fun word => not_blank_of_mem_properties]
  simp only [true_and]
  exact forall₂_congr fun word hword => intact_property_iff hglob (mem_properties hword)

end

/-- `config` is the first argument. -/
theorem configWord_noBlank_iff (args : List Word) :
    (∀ c ∈ configWord args, isIfs c = false) ↔ ∀ c ∈ args.headD [], isIfs c = false := by
  simp [configWord, lit, isIfs]

/-- The path of `run-java` stands for itself, and is that of `run-java`. -/
structure Place.Reached (place : Place) (host : Host) : Prop where
  path : expand host.glob (place.runJavaPath host) = [place.runJavaPath host]
  isRunJava : place.isRunJava (place.runJavaPath host) = true

/-- Where `run-java` is reached, calling it by the script's path is running it. -/
theorem Place.Reached.call_eq {place : Place} {host : Host} (h : place.Reached host)
    (env : Environment) (app : Application) (words : List Word) :
    callRunJava place env app host words = runJava env app host words := by
  simp only [callRunJava, h.path, h.isRunJava, if_true, List.nil_append]

/-- No file matches a part of the path, and no part of it is a `run-java` itself. -/
structure Place.Plain (place : Place) (host : Host) : Prop where
  itself : ∀ field ∈ fields (place.runJavaPath host), pathnames host.glob field = [field]
  isRunJava : ∀ field ∈ fields (place.runJavaPath host),
    place.isRunJava field = true ↔ field = place.runJavaPath host

/-- The path to `run-java` is never empty. -/
theorem Place.runJavaPath_ne_nil (place : Place) (host : Host) : place.runJavaPath host ≠ [] := by
  simp [Place.runJavaPath, lit]

/-- The path has a blank exactly if the directory has. -/
theorem Place.runJavaPath_noBlank_iff (place : Place) (host : Host) :
    (∀ c ∈ place.runJavaPath host, isIfs c = false) ↔ ∀ c ∈ place.dir host, isIfs c = false := by
  rw [Place.runJavaPath, List.forall_mem_append]
  exact and_iff_left (noBlank_of_all (by decide))

/-- In a directory without a blank the script reaches `run-java`. -/
theorem Place.Plain.reached {place : Place} {host : Host} (h : place.Plain host)
    (hdir : ∀ c ∈ place.dir host, isIfs c = false) : place.Reached host := by
  have hfields := fields_of_noBlank ((place.runJavaPath_noBlank_iff host).mpr hdir)
    (place.runJavaPath_ne_nil host)
  constructor
  · rw [expand_eq_fields h.itself, hfields]
  · exact (h.isRunJava _ (by rw [hfields]; exact List.mem_singleton_self _)).mpr rfl

/-- In a directory with a blank it does not. -/
theorem Place.Plain.call_of_blank {place : Place} {host : Host} (h : place.Plain host)
    (hdir : ¬ ∀ c ∈ place.dir host, isIfs c = false) (env : Environment) (app : Application)
    (words : List Word) : callRunJava place env app host words = ⟨none, none⟩ := by
  rw [callRunJava, expand_eq_fields h.itself]
  cases hfields : fields (place.runJavaPath host) with
  | nil => rfl
  | cons command before =>
    have hmem : command ∈ fields (place.runJavaPath host) := hfields ▸ List.mem_cons_self ..
    have hnot : ¬ place.isRunJava command = true := by
      intro hcommand
      have hself := (h.isRunJava command hmem).mp hcommand
      exact hdir ((place.runJavaPath_noBlank_iff host).mp (hself ▸ noBlank_of_mem_fields hmem))
    exact if_neg hnot

/-- A script that reaches `run-java` and whose first argument has no blank gives it what it
means to. -/
theorem ServerScript.run_of_noBlank (script : ServerScript) (env : Environment)
    (app : Application) {place : Place} {host : Host} {args : List Word}
    (hplace : place.Reached host) (hglob : ∀ field, lit "-D" <+: field → host.glob field = [])
    (hblank : ∀ c ∈ configWord args, isIfs c = false) : script.run place env app host args =
      runJava (script.environment env) app host (script.arguments args) := by
  have hproperty : lit "-D" <+: configWord args :=
    (by decide : lit "-D" <+: lit "-Dconfig=").trans (List.prefix_append ..)
  have hone : expand host.glob (configWord args) = [configWord args] :=
    expand_eq_singleton_iff.mpr ((intact_property_iff hglob hproperty).mpr hblank)
  rw [run_eq, launch, hplace.call_eq, hone]
  rfl

/-- With a blank in the first argument, the first Java option is but a part of the property. -/
theorem ServerScript.not_passed_of_blank (script : ServerScript) (env : Environment)
    (app : Application) {place : Place} {host : Host} {args : List Word}
    (hplace : place.Reached host) (hglob : ∀ field, lit "-D" <+: field → host.glob field = [])
    (hparse : env.runJavaNoParse = []) (hopts : env.runJavaOpts = []) (hdry : env.runJavaDry = [])
    (hblank : ¬ ∀ c ∈ configWord args, isIfs c = false) :
    (script.run place env app host args).executed ≠ some (env.javaCmd ::
      javaArguments (script.environment env) app host (script.arguments args)) := by
  intro heq
  refine hblank ?_
  have hproperty : lit "-D" <+: lit "-Dconfig=" := by decide
  obtain ⟨first, rest, hexpand, hstart, hfirst⟩ : ∃ first rest,
      expand host.glob (configWord args) = first :: rest ∧ lit "-Dconfig=" <+: first ∧
        ∀ c ∈ first, isIfs c = false :=
    expand_property hglob hproperty (by simp [lit, isIfs]) (args.headD [])
  have hself : expand host.glob first = [first] :=
    expand_eq_singleton_iff.mpr
      ((intact_property_iff hglob (hproperty.trans hstart)).mpr hfirst)
  rw [ServerScript.run_eq, launch, hplace.call_eq, hexpand,
    runJava_executed (by simpa) (by simpa) (by simpa),
    List.cons_append, List.cons_append, ServerScript.properties_leading,
    properties_config hstart, List.flatMap_cons, hself, javaArguments,
    ServerScript.properties_arguments] at heq
  simp only [Option.some.injEq, List.cons.injEq, List.cons_append, List.nil_append] at heq
  exact heq.2.1 ▸ hfirst

/-- Where no file has a name that begins like a property, and the parts of the path of `run-java`
stand for themselves only, a script has Java given what it means to exactly if its directory has
no blank, nor has its first argument or a property among those that it forwards. -/
theorem scripts_pass_iff (script : ServerScript) (place : Place) (env : Environment)
    (app : Application) (host : Host) (args : List Word) (hplace : place.Plain host)
    (hglob : ∀ field, lit "-D" <+: field → host.glob field = [])
    (hparse : env.runJavaNoParse = []) (hopts : env.runJavaOpts = [])
    (hdry : env.runJavaDry = []) : (script.run place env app host args).executed =
      some (env.javaCmd ::
        javaArguments (script.environment env) app host (script.arguments args)) ↔
      (∀ c ∈ place.dir host, isIfs c = false) ∧ (∀ c ∈ args.headD [], isIfs c = false) ∧
        ∀ word ∈ (route (script.forwarded args)).properties, ∀ c ∈ word, isIfs c = false := by
  rw [← configWord_noBlank_iff]
  by_cases hdir : ∀ c ∈ place.dir host, isIfs c = false
  · have hreached := hplace.reached hdir
    rw [and_iff_right hdir]
    by_cases hblank : ∀ c ∈ configWord args, isIfs c = false
    · have hgiven := runJava_executed_iff (script.environment env) app host
        (script.arguments args) hglob (by simpa) (by simpa) (by simpa)
      rw [ServerScript.environment_javaCmd, script.properties_arguments] at hgiven
      rw [script.run_of_noBlank env app hreached hglob hblank]
      refine hgiven.trans ?_
      rw [List.forall_mem_cons, List.forall_mem_append]
      exact and_congr_right fun _ => ⟨And.right, fun h => ⟨script.fixed_noBlank, h⟩⟩
    · exact iff_of_false (script.not_passed_of_blank env app hreached hglob hparse hopts hdry
        hblank) fun h => hblank h.1
  · refine iff_of_false (fun heq => ?_) fun h => hdir h.1
    rw [ServerScript.run_eq, launch, hplace.call_of_blank hdir] at heq
    cases heq

/-- A script that is called by a path: `dirname` prints what is before the last slash. -/
def calledBy (zero dir : Word) : Place where
  zero := zero
  dirname names := if names = [zero] then dir ++ ['\n'] else ['.', '\n']
  isRunJava command := command = dir ++ lit "/run-java"

/-- `bin/run-quartz.sh`. -/
def binPlace : Place := calledBy (lit "bin/run-quartz.sh") (lit "bin")

/-- The usual place is plain. -/
theorem binPlace_plain : binPlace.Plain noFiles := by
  have hfields : fields (binPlace.runJavaPath noFiles) = [lit "bin/run-java"] := by decide
  have hpath : binPlace.runJavaPath noFiles = lit "bin/run-java" := by decide
  rw [← hpath] at hfields
  constructor
  · exact fun _ _ => rfl
  · intro field hfield
    rw [hfields, List.mem_singleton] at hfield
    rw [hfield]
    decide

/-- The script of 1.8 with a property for the class loader. -/
theorem jarPaths_passed : (ServerScript.runQuartz18.run binPlace unixEnvironment configOnly noFiles
    [lit "quartz.properties", lit "-DjarPaths=lib"]).executed =
      some (lit "java" :: javaArguments unixEnvironment configOnly noFiles
        (ServerScript.runQuartz18.arguments [lit "quartz.properties", lit "-DjarPaths=lib"])) := by
  apply (scripts_pass_iff .runQuartz18 binPlace unixEnvironment configOnly noFiles _
    binPlace_plain (fun _ _ => rfl) rfl rfl rfl).mpr
  exact ⟨noBlank_of_all (by decide +kernel), noBlank_of_all (by decide +kernel),
    noBlanks_of_all (by decide +kernel)⟩

end MySchedule.Launch
