import MySchedule.Launch.RunJava

/-!
# The classpath on the two platforms

Both branches of the setup add the same entries, as long as the application has no `lib`
directory. With one, the Unix branch does not find its directories, and would join what it
found by semicolons.
-/

namespace MySchedule.Launch

open Shell

/-- What an entry of the classpath stands for. -/
inductive Entry
  /-- A directory of the application, by its path from there, or all that is in it. -/
  | directory (path : List Word) (wildcard : Bool)
  /-- All that is in a library directory. -/
  | library (dir : Word)

/-- The entries of the directories that are looked for by name. -/
def namedEntries (app : Application) : List Entry :=
  (if app.config then [.directory [lit "config"] false] else []) ++
  (if app.testClasses then [.directory [lit "target", lit "test-classes"] false] else []) ++
  (if app.classes then [.directory [lit "target", lit "classes"] false] else []) ++
  (if app.dependency then [.directory [lit "target", lit "dependency"] true] else [])

/-- The entries of an application, in order. -/
def entries (app : Application) : List Entry :=
  namedEntries app ++ app.libDirectories.map .library

/-- An entry as a Unix path. -/
def Entry.unix (app : Application) : Entry → Word
  | .directory path wildcard =>
    app.appDir ++ path.flatMap (lit "/" ++ ·) ++ if wildcard then lit "/*" else []
  | .library dir => dir ++ lit "/*"

/-- An entry as a Windows path. -/
def Entry.windows (app : Application) (host : Host) : Entry → Word
  | .directory path wildcard =>
    app.appDirWin ++ path.flatMap (lit "\\" ++ ·) ++ if wildcard then lit "\\*" else []
  | .library dir => host.cygpath [dir] ++ lit "\\*"

/-- On both platforms the classpath is the initial one and the entries, joined by the
separator of the platform. -/
structure SameClasspath (env : Environment) (app : Application) (host : Host) : Prop where
  windows : setupClasspath { env with os := windowsNT } app host =
    (lit ";").intercalate (initialCp env :: (entries app).map (Entry.windows app host))
  unix : ∀ os ≠ windowsNT, setupClasspath { env with os := os } app host =
    (lit ":").intercalate (initialCp env :: (entries app).map (Entry.unix app))

section

variable {app : Application} {host : Host} {cp : Word}

theorem addIf_eq (isDirectory : Bool) (separator dir rest cp : Word) :
    addIf isDirectory (separator ++ dir ++ rest) cp =
      appendEach separator cp (if isDirectory then [dir ++ rest] else []) := by
  cases isDirectory <;> simp [addIf, appendEach]

theorem map_ite_singleton {α β : Type} (f : α → β) (b : Bool) (a : α) :
    (if b then [a] else []).map f = if b then [f a] else [] := by
  cases b <;> rfl

/-- The entries of library directories, put after the others one by one. -/
theorem foldl_library (separator suffix cp : Word) (f : Word → Word) (words : List Word) :
    words.foldl (fun cp dir => cp ++ separator ++ f dir ++ suffix) cp =
      appendEach separator cp (words.map fun dir => f dir ++ suffix) := by
  rw [appendEach, List.foldl_map]
  simp only [List.append_assoc]

theorem windows_named (app : Application) (host : Host) (cp : Word) :
    addIf app.dependency (lit ";" ++ app.appDirWin ++ lit "\\target\\dependency\\*")
      (addIf app.classes (lit ";" ++ app.appDirWin ++ lit "\\target\\classes")
        (addIf app.testClasses (lit ";" ++ app.appDirWin ++ lit "\\target\\test-classes")
          (addIf app.config (lit ";" ++ app.appDirWin ++ lit "\\config") cp))) =
      appendEach (lit ";") cp ((namedEntries app).map (Entry.windows app host)) := by
  rw [addIf_eq, addIf_eq, addIf_eq, addIf_eq, appendEach_append, appendEach_append,
    appendEach_append]
  simp only [namedEntries, List.map_append, map_ite_singleton]
  simp [Entry.windows, lit]

theorem unix_named (app : Application) (cp : Word) :
    addIf app.dependency (lit ":" ++ app.appDir ++ lit "/target/dependency/*")
      (addIf app.classes (lit ":" ++ app.appDir ++ lit "/target/classes")
        (addIf app.testClasses (lit ":" ++ app.appDir ++ lit "/target/test-classes")
          (addIf app.config (lit ":" ++ app.appDir ++ lit "/config") cp))) =
      appendEach (lit ":") cp ((namedEntries app).map (Entry.unix app)) := by
  rw [addIf_eq, addIf_eq, addIf_eq, addIf_eq, appendEach_append, appendEach_append,
    appendEach_append]
  simp only [namedEntries, List.map_append, map_ite_singleton]
  simp [Entry.unix, lit]

/-- The Windows branch adds every entry, when the library directories stand for themselves
outside of quotes. -/
theorem windowsClasspath_of_intact (cp : Word)
    (h : ∀ dir ∈ app.libDirectories, Intact host.glob dir) :
    windowsClasspath app host cp =
      appendEach (lit ";") cp ((entries app).map (Entry.windows app host)) := by
  have hwords : expand host.glob (substitution (printed app.libDirectories)) =
      app.libDirectories := by
    rw [printed]
    exact (expand_lines host.glob app.libDirectories).trans (flatMap_of_intact h)
  have hlibrary : app.libDirectories.map
        (fun dir => host.cygpath (expand host.glob dir) ++ lit "\\*") =
      (app.libDirectories.map Entry.library).map (Entry.windows app host) := by
    rw [List.map_map]
    apply List.map_congr_left
    intro dir hdir
    rw [expand_eq_singleton_iff.mpr (h dir hdir)]
    rfl
  rw [windowsClasspath, windows_named, hwords, foldl_library, hlibrary, appendEach_append, entries,
    List.map_append]
  cases hlib : app.lib with
  | some below => rfl
  | none => simp [Application.libDirectories, hlib]

/-- Without a library the Unix branch adds every entry. -/
theorem unixClasspath_of_noLib (cp : Word) (h : app.lib = none) :
    unixClasspath app host cp =
      appendEach (lit ":") cp ((entries app).map (Entry.unix app)) := by
  rw [unixClasspath, unix_named, entries]
  simp [h, Application.libDirectories]

/-- With a library it adds no entry of it: a colon does not follow. -/
theorem unixClasspath_of_lib (cp : Word) (h : app.lib ≠ none) :
    unixClasspath app host cp ≠
      appendEach (lit ":") cp ((entries app).map (Entry.unix app)) := by
  obtain ⟨below, hlib⟩ := Option.ne_none_iff_exists'.mp h
  rw [unixClasspath, unix_named, entries, List.map_append, ← appendEach_append,
    appendEach_eq_append (lit ":") (appendEach _ _ _)]
  simp only [hlib, Option.isSome_some, if_true]
  have hfold := foldl_library (lit ";") (lit "/*")
    (appendEach (lit ":") cp ((namedEntries app).map (Entry.unix app))) id
    (expand host.glob (substitution (printed app.libTypeD)))
  simp only [id] at hfold
  rw [hfold, appendEach_eq_append, ne_eq, List.append_right_inj, Application.libDirectories, hlib]
  intro heq
  cases hwords : expand host.glob (substitution (printed app.libTypeD)) with
  | nil =>
    rw [hwords] at heq
    cases heq
  | cons word words =>
    rw [hwords] at heq
    exact absurd (List.cons.inj heq).1 (by decide)

end

/-- The classpath is the same on both platforms exactly if the application has no library. -/
theorem sameClasspath_iff (env : Environment) (app : Application) (host : Host)
    (hauto : env.runJavaNoAutocp = []) : SameClasspath env app host ↔ app.lib = none := by
  have hunix : ∀ os ≠ windowsNT, setupClasspath { env with os := os } app host =
      unixClasspath app host (initialCp env) := by
    intro os hos
    rw [setupClasspath, if_pos hauto, if_neg hos]
    rfl
  have hwindows : setupClasspath { env with os := windowsNT } app host =
      windowsClasspath app host (initialCp env) := by
    rw [setupClasspath, if_pos hauto, if_pos rfl]
    rfl
  constructor
  · intro h
    by_contra hlib
    have heq := h.unix [] (by decide)
    rw [hunix [] (by decide), ← appendEach_eq_intercalate] at heq
    exact unixClasspath_of_lib (initialCp env) hlib heq
  · intro hlib
    constructor
    · rw [hwindows, ← appendEach_eq_intercalate]
      apply windowsClasspath_of_intact
      intro dir hdir
      rw [Application.libDirectories, hlib] at hdir
      cases hdir
    · intro os hos
      rw [hunix os hos, ← appendEach_eq_intercalate]
      exact unixClasspath_of_noLib (initialCp env) hlib

theorem configOnly_sameClasspath : SameClasspath unixEnvironment configOnly noFiles :=
  (sameClasspath_iff unixEnvironment configOnly noFiles rfl).mpr rfl

/-- An application with a `lib` directory that has no directory in it. -/
def withLib : Application := { configOnly with lib := some .none }

/-- The Unix branch adds no entry for it. -/
theorem withLib_not_sameClasspath : ¬ SameClasspath unixEnvironment withLib noFiles := by
  intro h
  have hunix := h.unix [] (by decide)
  revert hunix
  decide +kernel

end MySchedule.Launch
