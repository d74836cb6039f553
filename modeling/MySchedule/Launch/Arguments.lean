import MySchedule.Launch.RunJava

/-!
# The arguments that reach Java

The values of `-cp` and the remaining arguments reach Java as they are. The system
properties go through a variable that is not quoted when it is used, so they do only if
each stands for itself there.
-/

namespace MySchedule.Launch

open Shell

/-- The arguments of the script, by what becomes of them. -/
structure Routed where
  cpValues : List Word
  properties : List Word
  remaining : List Word

/-- An argument after `-cp` is its value, whatever it looks like; a `-cp` at the end has none. -/
def route : List Word → Routed
  | [] => ⟨[], [], []⟩
  | arg :: rest =>
    if arg = lit "-cp" then
      match rest with
      | [] => ⟨[], [], []⟩
      | value :: rest => { route rest with cpValues := value :: (route rest).cpValues }
    else if lit "-D" <+: arg then
      { route rest with properties := arg :: (route rest).properties }
    else { route rest with remaining := arg :: (route rest).remaining }

theorem route_property {arg : Word} (rest : List Word) (hcp : arg ≠ lit "-cp")
    (hproperty : lit "-D" <+: arg) : route (arg :: rest) =
      { route rest with properties := arg :: (route rest).properties } := by
  rw [route.eq_def]
  simp only [if_neg hcp, if_pos hproperty]

theorem route_remaining {arg : Word} (rest : List Word) (hcp : arg ≠ lit "-cp")
    (hproperty : ¬ lit "-D" <+: arg) : route (arg :: rest) =
      { route rest with remaining := arg :: (route rest).remaining } := by
  rw [route.eq_def]
  simp only [if_neg hcp, if_neg hproperty]

/-- The arguments that Java should be given: the properties, the classpath with the values of
`-cp` after the one that was set up, and the rest. -/
def javaArguments (env : Environment) (app : Application) (host : Host) (args : List Word) :
    List Word :=
  (route args).properties ++ lit "-cp" ::
    (cpSeparator env).intercalate (setupClasspath env app host :: (route args).cpValues) ::
      (route args).remaining

/-- Every argument has its place in the variables of the loop. -/
theorem foldl_parseArg (separator : Word) (args : List Word) (cp opts : Word)
    (newArgs : List Word) : ∃ foundCp, args.foldl (parseArg separator) ⟨cp, opts, false, newArgs⟩ =
      ⟨appendEach separator cp (route args).cpValues,
        appendEach (lit " ") opts (route args).properties, foundCp,
        newArgs ++ (route args).remaining⟩ := by
  induction args using route.induct generalizing cp opts newArgs with
  | case1 => exact ⟨false, by simp [route, appendEach]⟩
  | case2 => exact ⟨true, by simp [route, appendEach, parseArg]⟩
  | case3 value rest ih =>
    obtain ⟨foundCp, hrest⟩ := ih (cp ++ separator ++ value) opts newArgs
    refine ⟨foundCp, ?_⟩
    simpa [route, parseArg, appendEach] using hrest
  | case4 arg rest hcp hproperty ih =>
    obtain ⟨foundCp, hrest⟩ := ih cp (opts ++ lit " " ++ arg) newArgs
    refine ⟨foundCp, ?_⟩
    rw [route_property rest hcp hproperty]
    simpa [parseArg, appendEach, hcp, hproperty] using hrest
  | case5 arg rest hcp hproperty ih =>
    obtain ⟨foundCp, hrest⟩ := ih cp opts (newArgs ++ [arg])
    refine ⟨foundCp, ?_⟩
    rw [route_remaining rest hcp hproperty]
    simpa [parseArg, appendEach, hcp, hproperty] using hrest

theorem mem_properties {args : List Word} {word : Word} (h : word ∈ (route args).properties) :
    lit "-D" <+: word := by
  induction args using route.induct with
  | case1 => cases h
  | case2 => cases h
  | case3 value rest ih => exact ih (by simpa [route] using h)
  | case4 arg rest hcp hproperty ih =>
    rw [route_property rest hcp hproperty] at h
    rcases List.mem_cons.mp h with rfl | h
    exacts [hproperty, ih h]
  | case5 arg rest hcp hproperty ih =>
    rw [route_remaining rest hcp hproperty] at h
    exact ih h

/-- A system property is not blank. -/
theorem not_blank_of_mem_properties {args : List Word} {word : Word}
    (h : word ∈ (route args).properties) : ∃ c ∈ word, isIfs c = false :=
  ⟨'-', (mem_properties h).subset (List.mem_cons_self ..), rfl⟩

/-- Java is given the arguments as they are exactly if every system property stands for itself
outside of quotes. -/
theorem runJava_passes_iff (env : Environment) (app : Application) (host : Host)
    (args : List Word) (hparse : env.runJavaNoParse = []) (hopts : env.runJavaOpts = [])
    (hdry : env.runJavaDry = []) :
    (runJava env app host args).executed = some (env.javaCmd :: javaArguments env app host args) ↔
      ∀ word ∈ (route args).properties, Intact host.glob word := by
  obtain ⟨foundCp, hparsed⟩ :=
    foldl_parseArg (cpSeparator env) args (setupClasspath env app host) [] []
  have hexpand : expand host.glob (appendEach (lit " ") [] (route args).properties) =
      (route args).properties.flatMap (expand host.glob) := expand_appendEach rfl [] _
  have hexecuted : (runJava env app host args).executed = some (env.javaCmd ::
      ((route args).properties.flatMap (expand host.glob) ++ lit "-cp" ::
        (cpSeparator env).intercalate (setupClasspath env app host :: (route args).cpValues) ::
          (route args).remaining)) := by
    rw [runJava, if_pos hparse, hopts, hparsed, appendEach_eq_intercalate (cpSeparator env)]
    simp only [commands, hdry, if_true, hexpand, List.nil_append, List.cons_append]
  rw [hexecuted, javaArguments, Option.some.injEq, List.cons.injEq,
    List.append_left_inj, flatMap_expand_eq_self_iff fun word => not_blank_of_mem_properties]
  simp

/-- A property between a `-cp` option with its value and the main class. -/
def helloArguments : List Word := [lit "-cp", lit "my lib/*", lit "-Dname=World", lit "Hello"]

theorem helloArguments_passed :
    (runJava unixEnvironment configOnly noFiles helloArguments).executed =
      some (lit "java" :: javaArguments unixEnvironment configOnly noFiles helloArguments) := by
  apply (runJava_passes_iff unixEnvironment configOnly noFiles helloArguments rfl rfl rfl).mpr
  intro word hword
  have hproperties : (route helloArguments).properties = [lit "-Dname=World"] := by decide
  rw [hproperties, List.mem_singleton] at hword
  have hblank : ∀ c ∈ lit "-Dname=World", isIfs c = false := by simp [lit, isIfs]
  rw [hword]
  exact intact_of_noBlank hblank (by decide) rfl

/-- A property with a blank in it. -/
def programFilesArguments : List Word := [lit "-DjarPaths=C:\\Program Files", lit "Hello"]

/-- It becomes two arguments. -/
theorem programFiles_not_passed :
    (runJava unixEnvironment configOnly noFiles programFilesArguments).executed ≠
      some (lit "java" ::
        javaArguments unixEnvironment configOnly noFiles programFilesArguments) := by
  decide +kernel

end MySchedule.Launch
