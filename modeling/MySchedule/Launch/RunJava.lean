import MySchedule.Launch.Shell

/-!
# The launcher script

`run-java` puts a classpath together from the directories of the application, sorts its
arguments into Java options, classpath entries and the rest, and runs Java.
-/

namespace MySchedule.Launch

open Shell

/-- The text of a literal. -/
def lit (text : String) : Word := text.toList

def windowsNT : Word := lit "Windows_NT"

/-- The variables that the script reads. An unset variable is empty. Neither `NEW_ARGS` nor
`BASHOPTS` is exported to it, and `IFS` has its default value. -/
structure Environment where
  os : Word
  classpath : Word
  /-- `java`, or the one of `$JAVA_HOME` if that is a directory. -/
  javaCmd : Word
  runJavaCp : Word
  runJavaOpts : Word
  runJavaDebug : Word
  runJavaDry : Word
  runJavaNoParse : Word
  runJavaNoAutocp : Word

/-- Directories next to each other, in the order in which they are listed, each with the
directories below it. -/
inductive Directories
  | none
  | dir (name : Word) (below rest : Directories)

/-- The directories below `path`, as `find` lists them. -/
def Directories.paths (path : Word) : Directories → List Word
  | .none => []
  | .dir name below rest =>
    (path ++ '/' :: name) :: (below.paths (path ++ '/' :: name) ++ rest.paths path)

/-- The application directory: its two names, and the parts that the script looks for. -/
structure Application where
  appDir : Word
  /-- What `cygpath` makes of it. -/
  appDirWin : Word
  config : Bool
  testClasses : Bool
  classes : Bool
  dependency : Bool
  lib : Option Directories
  /-- What `find` lists for a directory with the name `lib -type d`; nothing where there
  is none. -/
  libTypeD : List Word

/-- The host that the script runs on. -/
structure Host where
  /-- The names of the files that a field matches, seen from the working directory. -/
  glob : Word → List Word
  /-- What `$(cygpath -w -a …)` stands for. -/
  cygpath : List Word → Word

/-- `lib` and the directories below it, as `find "$APP_DIR/lib" -type d` lists them. -/
def Application.libDirectories (app : Application) : List Word :=
  match app.lib with
  | .none => []
  | .some below => (app.appDir ++ lit "/lib") :: below.paths (app.appDir ++ lit "/lib")

/-- What `find` prints. -/
def printed (paths : List Word) : Word := paths.flatMap fun path => path ++ lit "\n"

/-- `if [ -d … ]; then RUN_JAVA_CP="$RUN_JAVA_CP…" ; fi` -/
def addIf (isDirectory : Bool) (entry runJavaCp : Word) : Word :=
  if isDirectory then runJavaCp ++ entry else runJavaCp

def windowsClasspath (app : Application) (host : Host) (runJavaCp : Word) : Word :=
  let cp := addIf app.config (lit ";" ++ app.appDirWin ++ lit "\\config") runJavaCp
  let cp := addIf app.testClasses (lit ";" ++ app.appDirWin ++ lit "\\target\\test-classes") cp
  let cp := addIf app.classes (lit ";" ++ app.appDirWin ++ lit "\\target\\classes") cp
  let cp := addIf app.dependency (lit ";" ++ app.appDirWin ++ lit "\\target\\dependency\\*") cp
  if app.lib.isSome then
    (expand host.glob (substitution (printed app.libDirectories))).foldl
      (fun cp dir => cp ++ lit ";" ++ host.cygpath (expand host.glob dir) ++ lit "\\*") cp
  else cp

def unixClasspath (app : Application) (host : Host) (runJavaCp : Word) : Word :=
  let cp := addIf app.config (lit ":" ++ app.appDir ++ lit "/config") runJavaCp
  let cp := addIf app.testClasses (lit ":" ++ app.appDir ++ lit "/target/test-classes") cp
  let cp := addIf app.classes (lit ":" ++ app.appDir ++ lit "/target/classes") cp
  let cp := addIf app.dependency (lit ":" ++ app.appDir ++ lit "/target/dependency/*") cp
  if app.lib.isSome then
    -- the quotes take in `-type d`, so that `find` is given one path and no test
    (expand host.glob (substitution (printed app.libTypeD))).foldl
      (fun cp dir => cp ++ lit ";" ++ dir ++ lit "/*") cp
  else cp

/-- `RUN_JAVA_CP=${RUN_JAVA_CP:=$CLASSPATH}` -/
def initialCp (env : Environment) : Word :=
  if env.runJavaCp = [] then env.classpath else env.runJavaCp

/-- `RUN_JAVA_CP` after the automatic setup. -/
def setupClasspath (env : Environment) (app : Application) (host : Host) : Word :=
  if env.runJavaNoAutocp = [] then
    if env.os = windowsNT then windowsClasspath app host (initialCp env)
    else unixClasspath app host (initialCp env)
  else initialCp env

/-- What separates the entries of a classpath. -/
def cpSeparator (env : Environment) : Word := if env.os = windowsNT then lit ";" else lit ":"

/-- The variables of the parsing loop. -/
structure Parsing where
  runJavaCp : Word
  runJavaOpts : Word
  foundCp : Bool
  newArgs : List Word
  deriving DecidableEq, Repr

/-- One pass of the loop. -/
def parseArg (separator : Word) (s : Parsing) (arg : Word) : Parsing :=
  if s.foundCp then { s with runJavaCp := s.runJavaCp ++ separator ++ arg, foundCp := false }
  else if arg = lit "-cp" then { s with foundCp := true }
  else if lit "-D" <+: arg then { s with runJavaOpts := s.runJavaOpts ++ lit " " ++ arg }
  else { s with newArgs := s.newArgs ++ [arg] }

/-- The words of the command that is displayed, and of the one that is executed. -/
structure Commands where
  displayed : Option (List Word)
  executed : Option (List Word)
  deriving DecidableEq, Repr

def commands (env : Environment) (words : List Word) : Commands where
  displayed := if env.runJavaDebug ≠ [] ∨ env.runJavaDry ≠ [] then some words else none
  executed := if env.runJavaDry = [] then some words else none

def runJava (env : Environment) (app : Application) (host : Host) (args : List Word) :
    Commands :=
  let cp := setupClasspath env app host
  if env.runJavaNoParse = [] then
    let s := args.foldl (parseArg (cpSeparator env)) ⟨cp, env.runJavaOpts, false, []⟩
    commands env
      (env.javaCmd :: expand host.glob s.runJavaOpts ++ lit "-cp" :: s.runJavaCp :: s.newArgs)
  else commands env (env.javaCmd :: expand host.glob env.runJavaOpts ++ lit "-cp" :: cp :: args)

/-- A Unix environment in which nothing is set. -/
def unixEnvironment : Environment where
  os := []
  classpath := []
  javaCmd := lit "java"
  runJavaCp := []
  runJavaOpts := []
  runJavaDebug := []
  runJavaDry := []
  runJavaNoParse := []
  runJavaNoAutocp := []

/-- An application with its configuration and no library. -/
def configOnly : Application where
  appDir := lit "/opt/app"
  appDirWin := lit "C:\\app"
  config := true
  testClasses := false
  classes := false
  dependency := false
  lib := none
  libTypeD := []

/-- A working directory without files. -/
def noFiles : Host where
  glob _ := []
  cygpath _ := []

end MySchedule.Launch
