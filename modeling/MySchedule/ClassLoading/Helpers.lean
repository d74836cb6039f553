import MySchedule.Java.Throwable
import MySchedule.Machines.Runs
import Mathlib.Data.List.Basic

/-!
# Class load helpers

The helpers that a cascading helper asks are object references; what each of them
answers to a name is fixed. Both copies of the cascading helper answer the same
calls, and throw the same exception when no helper loads a class.
-/

namespace MySchedule.ClassLoading

open Java

/-- What the helper objects answer, and the class loader of the current thread. -/
structure Helpers where
  Helper : Type
  Clazz : Type
  URL : Type
  InputStream : Type
  ClassLoader : Type
  loadClass : Helper → String → Except Throwable Clazz
  getResource : Helper → String → Option URL
  getResourceAsStream : Helper → String → Option InputStream
  getClassLoader : Helper → ClassLoader
  contextClassLoader : ClassLoader

/-- The four helper objects that are added by default. -/
structure Defaults (E : Helpers) where
  loadingLoaderClassLoadHelper : E.Helper
  simpleClassLoadHelper : E.Helper
  threadContextClassLoadHelper : E.Helper
  initThreadContextClassLoadHelper : E.Helper

/-- The default helpers in the order in which they are added. -/
def Defaults.list {E : Helpers} (d : Defaults E) : List E.Helper :=
  [d.loadingLoaderClassLoadHelper, d.simpleClassLoadHelper, d.threadContextClassLoadHelper,
    d.initThreadContextClassLoadHelper]

/-- A call that looks for something. -/
inductive Lookup
  | loadClass (name : String)
  | getResource (name : String)
  | getResourceAsStream (name : String)
  deriving DecidableEq, Repr

/-- Whether the call looks for a resource, as a URL or as a stream. -/
def Lookup.ofResource : Lookup → Bool
  | .loadClass _ => false
  | _ => true

/-- A call that leaves the list of helpers alone. -/
inductive Query
  | lookup (lookup : Lookup)
  | getClassLoader
  deriving DecidableEq, Repr

/-- What such a call returns. -/
inductive Answer (E : Helpers)
  | clazz (result : Except Throwable E.Clazz)
  | url (result : Option E.URL)
  | stream (result : Option E.InputStream)
  | loader (result : E.ClassLoader)

variable {E : Helpers}

/-- The call returned something, neither null nor an exception. -/
def Answer.found : Answer E → Bool
  | .clazz result => result.toBool
  | .url result => result.isSome
  | .stream result => result.isSome
  | .loader _ => true

/-- What a single helper answers to a lookup. -/
def Lookup.ask (lookup : Lookup) (h : E.Helper) : Answer E :=
  match lookup with
  | .loadClass name => .clazz (E.loadClass h name)
  | .getResource name => .url (E.getResource h name)
  | .getResourceAsStream name => .stream (E.getResourceAsStream h name)

/-- Whether a helper can answer a lookup. -/
def Lookup.answeredBy (lookup : Lookup) (h : E.Helper) : Bool := (lookup.ask h).found

/-- The first helper of a list that can answer a lookup. -/
def firstAnswering (helpers : List E.Helper) (lookup : Lookup) : Option E.Helper :=
  helpers.find? lookup.answeredBy

/-- What is thrown when no helper loads the class; `throwable` is what the last one threw. -/
def classNotLoaded (name : String) (throwable : Option Throwable) : Throwable :=
  match throwable with
  | some t =>
    if t.isClassNotFound then t
    else .caused .classNotFoundException
      (some ("Unable to load class " ++ name ++ " by any known loaders.")) t
  | none =>
    .plain .classNotFoundException
      (some ("Unable to load class " ++ name ++ " by any known loaders."))

/-- What the helpers threw last when they were all asked for a class. -/
def lastThrown (name : String) (helpers : List E.Helper) (throwable : Option Throwable) :
    Option Throwable :=
  helpers.foldl (fun throwable h =>
    match E.loadClass h name with
    | .ok _ => throwable
    | .error t => some t) throwable

/-- Whatever the helpers threw, the cascading helper throws a `ClassNotFoundException`. -/
theorem classNotLoaded_isClassNotFound (name : String) (throwable : Option Throwable) :
    (classNotLoaded name throwable).isClassNotFound = true := by
  unfold classNotLoaded
  split
  · split
    · assumption
    · rfl
  · rfl

/-- What a cascading helper answers to a lookup that no helper can answer. -/
def missed (helpers : List E.Helper) : Lookup → Answer E
  | .loadClass name => .clazz (.error (classNotLoaded name (lastThrown name helpers none)))
  | .getResource _ => .url none
  | .getResourceAsStream _ => .stream none

@[simp] theorem found_missed (helpers : List E.Helper) (lookup : Lookup) :
    (missed helpers lookup).found = false := by
  cases lookup <;> rfl

section

variable {helpers : List E.Helper} {lookup : Lookup} {h : E.Helper}

/-- The helper that answers first is one of the list. -/
theorem mem_of_firstAnswering (hf : firstAnswering helpers lookup = some h) : h ∈ helpers :=
  List.mem_of_find?_eq_some hf

/-- The helper that answers first answers. -/
theorem answeredBy_of_firstAnswering (hf : firstAnswering helpers lookup = some h) :
    lookup.answeredBy h = true := List.find?_some hf

/-- Where no helper answers first, none answers. -/
theorem not_answeredBy_of_firstAnswering (hf : firstAnswering helpers lookup = none)
    (hh : h ∈ helpers) : lookup.answeredBy h = false := by
  have hall := List.find?_eq_none.mp hf h hh
  simpa using hall

variable {name : String} {clazz : E.Clazz} {t : Throwable}

/-- A helper that loads the class answers. -/
theorem answeredBy_of_ok (hl : E.loadClass h name = .ok clazz) :
    Lookup.answeredBy (.loadClass name) h = true := by
  simp [Lookup.answeredBy, Lookup.ask, Answer.found, hl, Except.toBool]

/-- A helper that throws does not answer. -/
theorem not_answeredBy_of_error (hl : E.loadClass h name = .error t) :
    Lookup.answeredBy (.loadClass name) h = false := by
  simp [Lookup.answeredBy, Lookup.ask, Answer.found, hl, Except.toBool]

/-- A helper that answers loads the class. -/
theorem ok_of_answeredBy (ha : Lookup.answeredBy (.loadClass name) h = true) :
    ∃ clazz, E.loadClass h name = .ok clazz := by
  cases hl : E.loadClass h name with
  | ok clazz => exact ⟨clazz, rfl⟩
  | error t =>
    rw [not_answeredBy_of_error hl] at ha
    cases ha

/-- A first helper that loads the class answers first. -/
theorem firstAnswering_cons_ok (hl : E.loadClass h name = .ok clazz) :
    firstAnswering (h :: helpers) (.loadClass name) = some h :=
  List.find?_cons_of_pos (answeredBy_of_ok hl)

/-- A first helper that throws leaves the lookup to the others. -/
theorem firstAnswering_cons_error (hl : E.loadClass h name = .error t) :
    firstAnswering (h :: helpers) (.loadClass name) =
      firstAnswering helpers (.loadClass name) := by
  apply List.find?_cons_of_neg
  simp [not_answeredBy_of_error hl]

end

end MySchedule.ClassLoading
