import MySchedule.ClassLoading.Jcl
import MySchedule.Java.Split
import MySchedule.Launch.Started
import MySchedule.Machines.Failing

/-!
# The paths of the jar class load helpers

Both helpers read the system property `jarPaths`, with commas between its paths, and give each
path to their jar class loader. So the scripts carry a list of paths to the loader, if no path
has a comma or is blank, and the loader takes them all.
-/

namespace MySchedule.ClassLoading

open Java Shell Launch Machines

/-- A jar class loader that is given one path after the other, with the paths that it has added. -/
def jarLoader (add : Word → Except Throwable Unit) :
    Machine (List Word) Word (Except Throwable Unit) := collecting add

/-- `!path.trim().equals("")`. -/
def notBlank (path : Word) : Bool := trim path ≠ []

/-- The paths of a text. -/
def pathsOf (separator : Char) (text : Word) : List Word := pieces notBlank separator text

/-- `Boolean.parseBoolean`. -/
def parseBoolean (text : Word) : Bool := text.map Char.toLower = lit "true"

/-- A virtual machine with the process that it runs. -/
structure Jvm where
  start : Start
  javaClassPath : Word
  isWindows : Bool

namespace Jvm

/-- `path.separator`. -/
def pathSeparator (jvm : Jvm) : Char := if jvm.isWindows then ';' else ':'

/-- The field `jarPaths` of a new helper. -/
def jarPaths (jvm : Jvm) : Word := (jvm.start.getProperty (lit "jarPaths")).getD (lit " ")

def loadOrigJavaClassPath (jvm : Jvm) : Bool :=
  parseBoolean ((jvm.start.getProperty (lit "loadOrigJavaClassPath")).getD (lit "false"))

/-- The paths that Java was started with, if they are asked for. -/
def origPaths (jvm : Jvm) : List Word :=
  if jvm.loadOrigJavaClassPath then pathsOf jvm.pathSeparator jvm.javaClassPath else []

end Jvm

variable (add : Word → Except Throwable Unit) (jvm : Jvm)

/-- What `initialize` of `JclClassLoadHelper` puts in a new jar class loader. -/
def Jcl.JclClassLoadHelper.initializeJcl : Except Throwable Unit × List Word :=
  (jarLoader add).untilError [] (pathsOf ',' jvm.jarPaths)

/-- What `initialize` of `JclClassLoadHelper2` puts in a new jar class loader. -/
def Jcl.JclClassLoadHelper2.initializeJcl : Except Throwable Unit × List Word :=
  andThen ((jarLoader add).untilError [] (pathsOf ',' jvm.jarPaths)) fun added =>
    if jvm.loadOrigJavaClassPath then
      (jarLoader add).untilError added (pathsOf jvm.pathSeparator jvm.javaClassPath)
    else (.ok (), added)

variable {add} {jvm} {paths : List Word}

/-- `JclClassLoadHelper2` goes on where `JclClassLoadHelper` stops. -/
theorem initialize2_eq : Jcl.JclClassLoadHelper2.initializeJcl add jvm =
    (jarLoader add).untilError [] (pathsOf ',' jvm.jarPaths ++ jvm.origPaths) := by
  rw [Jcl.JclClassLoadHelper2.initializeJcl, Machine.untilError_append, Jvm.origPaths]
  congr 1
  funext added
  split <;> rfl

theorem notBlank_nil : notBlank [] = false := rfl

/-- Joined paths come apart again. -/
theorem pathsOf_intercalate_iff {separator : Char} :
    pathsOf separator ([separator].intercalate paths) = paths ↔
      ∀ path ∈ paths, separator ∉ path ∧ notBlank path = true :=
  pieces_intercalate_iff notBlank_nil

/-- A clear run of a script passes on each property that is not one of its own. -/
theorem getProperty_of_clear {r : ScriptRun} {start : Start} (h : r.Clear)
    (hstart : r.start = some start) {name : Word} (hname : name ≠ lit "config")
    (hfixed : ∀ word ∈ r.script.fixed, propertyName word ≠ name) :
    start.getProperty name = (valuesOf name r.properties).getLast? := by
  rw [h.start_eq, Option.some.injEq] at hstart
  rw [← hstart, Start.getProperty, valuesOf_cons, propertyName_configWord, if_neg hname.symm,
    valuesOf_append_of_ne hfixed, List.nil_append]

theorem fixed_ne_jarPaths (script : ServerScript) :
    ∀ word ∈ script.fixed, propertyName word ≠ lit "jarPaths" := by
  cases script <;> decide

theorem fixed_ne_loadOrig (script : ServerScript) :
    ∀ word ∈ script.fixed, propertyName word ≠ lit "loadOrigJavaClassPath" := by
  cases script <;> decide

/-- A list of paths that a script is given in `jarPaths` is what the helpers add, in its order,
exactly if none of them has a comma or is blank and the loader takes them all. The second helper
adds the class path of Java after them, if `loadOrigJavaClassPath` says so. -/
theorem jarPaths_added (add : Word → Except Throwable Unit) (jvm : Jvm) (paths : List Word)
    (r : ScriptRun) (h : r.Clear) (hstart : r.start = some jvm.start) :
    (valuesOf (lit "jarPaths") r.properties = [] →
      Jcl.JclClassLoadHelper.initializeJcl add jvm = (.ok (), [])) ∧
    jvm.loadOrigJavaClassPath = parseBoolean
      ((valuesOf (lit "loadOrigJavaClassPath") r.properties).getLast?.getD (lit "false")) ∧
    ((valuesOf (lit "jarPaths") r.properties).getLast? = some ([','].intercalate paths) →
      (Jcl.JclClassLoadHelper.initializeJcl add jvm = (.ok (), paths) ↔
        ∀ path ∈ paths, ',' ∉ path ∧ notBlank path = true ∧ add path = .ok ()) ∧
      (Jcl.JclClassLoadHelper2.initializeJcl add jvm = (.ok (), paths ++ jvm.origPaths) ↔
        (∀ path ∈ paths, ',' ∉ path ∧ notBlank path = true ∧ add path = .ok ()) ∧
          ∀ path ∈ jvm.origPaths, add path = .ok ())) := by
  have hjarPaths : jvm.jarPaths =
      (valuesOf (lit "jarPaths") r.properties).getLast?.getD (lit " ") := by
    rw [Jvm.jarPaths, getProperty_of_clear h hstart (by decide) (fixed_ne_jarPaths r.script)]
  refine ⟨fun hnone => ?_, ?_, fun hlast => ?_⟩
  · rw [Jcl.JclClassLoadHelper.initializeJcl, hjarPaths, hnone]
    rfl
  · rw [Jvm.loadOrigJavaClassPath,
      getProperty_of_clear h hstart (by decide) (fixed_ne_loadOrig r.script)]
  · rw [hlast, Option.getD_some] at hjarPaths
    have hgood : (∀ path ∈ paths, ',' ∉ path ∧ notBlank path = true ∧ add path = .ok ()) ↔
        pathsOf ',' jvm.jarPaths = paths ∧ ∀ path ∈ paths, add path = .ok () := by
      rw [hjarPaths, pathsOf_intercalate_iff, ← forall₂_and]
      simp only [and_assoc]
    rw [Jcl.JclClassLoadHelper.initializeJcl, initialize2_eq, jarLoader, collecting_ok_iff,
      collecting_ok_iff, hgood]
    refine ⟨⟨?_, ?_⟩, ⟨?_, ?_⟩⟩
    · rintro ⟨hpaths, hall⟩
      exact ⟨hpaths.symm, hpaths ▸ hall⟩
    · rintro ⟨hpaths, hall⟩
      exact ⟨hpaths.symm, hpaths.symm ▸ hall⟩
    · rintro ⟨hpaths, hall⟩
      have hpaths := List.append_cancel_right hpaths
      rw [← hpaths, List.forall_mem_append] at hall
      exact ⟨⟨hpaths.symm, hall.1⟩, hall.2⟩
    · rintro ⟨⟨hpaths, hall⟩, horig⟩
      rw [hpaths, List.forall_mem_append]
      exact ⟨rfl, hall, horig⟩

/-- Two paths, and the class path of Java after them. -/
theorem twoPaths_added :
    let r := plainRun .runQuartz18 [lit "quartz.properties", lit "-DjarPaths=a.jar,b.jar",
      lit "-DloadOrigJavaClassPath=TRUE"]
    ∃ jvm : Jvm, r.start = some jvm.start ∧ jvm.loadOrigJavaClassPath = true ∧
      Jcl.JclClassLoadHelper2.initializeJcl (fun _ => .ok ()) jvm =
        (.ok (), [lit "a.jar", lit "b.jar"] ++ jvm.origPaths) := by
  intro r
  have hclear : r.Clear := plainRun_clear .runQuartz18 (by decide +kernel) (by decide +kernel)
  have hstart := hclear.start_eq
  obtain ⟨-, horig, hpaths⟩ := jarPaths_added (fun _ => .ok ()) ⟨_, lit "config", false⟩
    [lit "a.jar", lit "b.jar"] r hclear hstart
  exact ⟨_, hstart, horig.trans (by decide +kernel),
    (hpaths (by decide +kernel)).2.mpr ⟨by decide +kernel, fun _ _ => rfl⟩⟩

end MySchedule.ClassLoading
