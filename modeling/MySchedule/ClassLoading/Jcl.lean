import MySchedule.ClassLoading.Extra
import MySchedule.ClassLoading.Candidate

/-!
# The jar class load helpers

`JclClassLoadHelper2` and `JclClassLoadHelper` ask their jar class loader first and
fall back on a cascading helper: the first one on its superclass, the second one on
Quartz's own helper. Only a null resource and a `ClassNotFoundException` make them
fall back; anything else that the jar class loader throws goes through.
-/

namespace MySchedule.ClassLoading.Jcl

open Java Machines

variable {E : Helpers} {σ : Type}

/-- What the jar class loader answers to each call, or throws. -/
structure JarClassLoader (E : Helpers) where
  loadClass : String → Except Throwable E.Clazz
  getResource : String → Except Throwable (Option E.URL)
  getResourceAsStream : String → Except Throwable (Option E.InputStream)
  asClassLoader : E.ClassLoader

/-- The lookups of the helper that is fallen back on; each may change its state. -/
structure Fallback (E : Helpers) (σ : Type) where
  loadClass : σ → String → Except Throwable E.Clazz × σ
  getResource : σ → String → Option E.URL × σ
  getResourceAsStream : σ → String → Option E.InputStream × σ

/-- What a lookup returns or throws. -/
inductive Outcome (E : Helpers)
  | clazz (result : Except Throwable E.Clazz)
  | url (result : Except Throwable (Option E.URL))
  | stream (result : Except Throwable (Option E.InputStream))
  | loader (result : E.ClassLoader)

/-- The lookup returned something, neither null nor an exception. -/
def Outcome.found : Outcome E → Bool
  | .clazz (.ok _) => true
  | .url (.ok (some _)) => true
  | .stream (.ok (some _)) => true
  | .loader _ => true
  | _ => false

/-- The lookup failed as its caller expects: by a `ClassNotFoundException`, or by null. -/
def Outcome.missed : Outcome E → Bool
  | .clazz (.error e) => e.isClassNotFound
  | .url (.ok none) => true
  | .stream (.ok none) => true
  | _ => false

/-- What the jar class loader alone does. -/
def JarClassLoader.ask (jcl : JarClassLoader E) : Lookup → Outcome E
  | .loadClass name => .clazz (jcl.loadClass name)
  | .getResource name => .url (jcl.getResource name)
  | .getResourceAsStream name => .stream (jcl.getResourceAsStream name)

/-- What the fallback helper alone does. -/
def Fallback.ask (D : Fallback E σ) (s : σ) : Lookup → Outcome E
  | .loadClass name => .clazz (D.loadClass s name).1
  | .getResource name => .url (.ok (D.getResource s name).1)
  | .getResourceAsStream name => .stream (.ok (D.getResourceAsStream s name).1)

section

variable (D : Fallback E σ) (jcl : JarClassLoader E) (s : σ)

def loadClass (className : String) : Except Throwable E.Clazz × σ :=
  match jcl.loadClass className with
  | .ok ret => (.ok ret, s)
  | .error e => if e.isClassNotFound then D.loadClass s className else (.error e, s)

/-- Both resource lookups: `own` is what the jar class loader does, `other` the fallback. -/
def findResource {R : Type} (own : Except Throwable (Option R)) (other : σ → Option R × σ) :
    Except Throwable (Option R) × σ :=
  match own with
  | .error e => (.error e, s)
  | .ok (some ret) => (.ok (some ret), s)
  | .ok none => (.ok (other s).1, (other s).2)

def getResource (name : String) : Except Throwable (Option E.URL) × σ :=
  findResource s (jcl.getResource name) (D.getResource · name)

def getResourceAsStream (name : String) : Except Throwable (Option E.InputStream) × σ :=
  findResource s (jcl.getResourceAsStream name) (D.getResourceAsStream · name)

/-- A lookup, and the fallback helper after it. -/
def lookUp : Lookup → Outcome E × σ
  | .loadClass name => (.clazz (loadClass D jcl s name).1, (loadClass D jcl s name).2)
  | .getResource name => (.url (getResource D jcl s name).1, (getResource D jcl s name).2)
  | .getResourceAsStream name =>
    (.stream (getResourceAsStream D jcl s name).1, (getResourceAsStream D jcl s name).2)

end

/-- `super` of `JclClassLoadHelper2`. -/
def cascadingClassLoadHelperExt (E : Helpers) : Fallback E (Extra.Cascade E) where
  loadClass := Extra.loadClass
  getResource := Extra.getResource
  getResourceAsStream := Extra.getResourceAsStream

namespace JclClassLoadHelper2

/-- A lookup of `JclClassLoadHelper2`; its state is that of its superclass. -/
def lookUp (jcl : JarClassLoader E) (s : Extra.Cascade E) (lookup : Lookup) :
    Outcome E × Extra.Cascade E :=
  Jcl.lookUp (cascadingClassLoadHelperExt E) jcl s lookup

def getClassLoader (jcl : JarClassLoader E) : E.ClassLoader := jcl.asClassLoader

/-- The helper after `initialize`; at each call the jar class loader may act differently. -/
def queries (E : Helpers) : Machine (Extra.Cascade E) (JarClassLoader E × Query) (Outcome E) where
  step
    | s, (jcl, .lookup lookup) => lookUp jcl s lookup
    | s, (jcl, .getClassLoader) => (.loader (getClassLoader jcl), s)

end JclClassLoadHelper2

namespace JclClassLoadHelper

/-- A lookup of `JclClassLoadHelper`, whose helper to fall back on is Quartz's own. -/
def lookUp (cascadeClassLoadHelper : Fallback E σ) (jcl : JarClassLoader E) (s : σ)
    (lookup : Lookup) : Outcome E × σ :=
  Jcl.lookUp cascadeClassLoadHelper jcl s lookup

end JclClassLoadHelper

/-- A fallback helper that finds, in its good states, exactly what one of its helpers has, and
fails as expected. -/
structure Fallback.Cascades (D : Fallback E σ) (helpers : List E.Helper) (Good : σ → Prop) :
    Prop where
  found_iff (s : σ) (hs : Good s) (lookup : Lookup) :
    (D.ask s lookup).found = true ↔ ∃ h ∈ helpers, lookup.answeredBy h = true
  missed (s : σ) (hs : Good s) (lookup : Lookup) (h : (D.ask s lookup).found = false) :
    (D.ask s lookup).missed = true

/-- What a jar class load helper is for: the jar class loader's own answer, else what some
helper to fall back on has, else an expected failure. -/
structure FallsBack (jcl : JarClassLoader E) (helpers : List E.Helper) (lookup : Lookup)
    (outcome : Outcome E) : Prop where
  own : (jcl.ask lookup).found = true → outcome = jcl.ask lookup
  delegated : (jcl.ask lookup).found = false →
    (outcome.found = true ↔ ∃ h ∈ helpers, lookup.answeredBy h = true)
  failure : outcome.found = false → outcome.missed = true

variable {D : Fallback E σ} {jcl : JarClassLoader E} {s : σ} {lookup : Lookup}
  {helpers : List E.Helper} {Good : σ → Prop}

/-- Only an expected failure of the jar class loader leads to the fallback helper. -/
theorem lookUp_fst : (lookUp D jcl s lookup).1 =
    if (jcl.ask lookup).missed then D.ask s lookup else jcl.ask lookup := by
  cases lookup with
  | loadClass name =>
    cases hjar : jcl.loadClass name with
    | ok ret => simp [lookUp, loadClass, JarClassLoader.ask, hjar, Outcome.missed]
    | error e =>
      cases he : e.isClassNotFound <;>
        simp [lookUp, loadClass, JarClassLoader.ask, Fallback.ask, hjar, he, Outcome.missed]
  | getResource name =>
    rcases hjar : jcl.getResource name with e | _ | ret <;>
      simp [lookUp, getResource, findResource, JarClassLoader.ask, Fallback.ask, hjar,
        Outcome.missed]
  | getResourceAsStream name =>
    rcases hjar : jcl.getResourceAsStream name with e | _ | ret <;>
      simp [lookUp, getResourceAsStream, findResource, JarClassLoader.ask, Fallback.ask, hjar,
        Outcome.missed]

theorem Outcome.not_found_of_missed {outcome : Outcome E} (h : outcome.missed = true) :
    outcome.found = false := by
  rcases outcome with (_ | _) | (_ | _ | _) | (_ | _ | _) | _ <;> simp_all [missed, found]

/-- A lookup falls back as it should exactly when the jar class loader finds something or fails
as expected. -/
theorem fallsBack_iff (hD : D.Cascades helpers Good) (hs : Good s) :
    FallsBack jcl helpers lookup (lookUp D jcl s lookup).1 ↔
      (jcl.ask lookup).found = true ∨ (jcl.ask lookup).missed = true := by
  rw [lookUp_fst]
  cases hmissed : (jcl.ask lookup).missed with
  | true =>
    have hfound := Outcome.not_found_of_missed hmissed
    rw [if_pos rfl]
    refine ⟨fun _ => Or.inr rfl, fun _ => ⟨fun h => ?_, fun _ => hD.found_iff s hs lookup,
      hD.missed s hs lookup⟩⟩
    rw [hfound] at h
    cases h
  | false =>
    rw [if_neg Bool.false_ne_true]
    constructor
    · intro h
      have hfailure := h.failure
      rw [hmissed] at hfailure
      left
      by_contra hfound
      exact Bool.false_ne_true (hfailure (by simpa using hfound))
    · intro h
      have hfound : (jcl.ask lookup).found = true := by simpa using h
      refine ⟨fun _ => rfl, fun h => ?_, fun h => ?_⟩
      · rw [hfound] at h
        cases h
      · rw [hfound] at h
        cases h

/-- What a lookup does to the fallback helper, that helper does itself. -/
theorem lookUp_state (I : σ → Prop) (hclass : ∀ name, I (D.loadClass s name).2)
    (hurl : ∀ name, I (D.getResource s name).2)
    (hstream : ∀ name, I (D.getResourceAsStream s name).2) (hs : I s) :
    I (lookUp D jcl s lookup).2 := by
  cases lookup with
  | loadClass name =>
    rcases hjar : jcl.loadClass name with e | ret
    · simp only [lookUp, loadClass, hjar]
      split
      · exact hclass name
      · exact hs
    · simpa only [lookUp, loadClass, hjar] using hs
  | getResource name =>
    rcases hjar : jcl.getResource name with e | _ | ret
    · simpa only [lookUp, getResource, findResource, hjar] using hs
    · simpa only [lookUp, getResource, findResource, hjar] using hurl name
    · simpa only [lookUp, getResource, findResource, hjar] using hs
  | getResourceAsStream name =>
    rcases hjar : jcl.getResourceAsStream name with e | _ | ret
    · simpa only [lookUp, getResourceAsStream, findResource, hjar] using hs
    · simpa only [lookUp, getResourceAsStream, findResource, hjar] using hstream name
    · simpa only [lookUp, getResourceAsStream, findResource, hjar] using hs

/-- What the superclass of `JclClassLoadHelper2` finds. -/
theorem found_ask (s : Extra.Cascade E) (lookup : Lookup) :
    ((cascadingClassLoadHelperExt E).ask s lookup).found = (Extra.lookUp s lookup).1.found := by
  cases lookup with
  | loadClass name =>
    cases h : (Extra.loadClass s name).1 <;>
      simp [Fallback.ask, cascadingClassLoadHelperExt, Extra.lookUp, h, Outcome.found,
        Answer.found, Except.toBool]
  | getResource name =>
    cases h : (Extra.getResource s name).1 <;>
      simp [Fallback.ask, cascadingClassLoadHelperExt, Extra.lookUp, h, Outcome.found,
        Answer.found]
  | getResourceAsStream name =>
    cases h : (Extra.getResourceAsStream s name).1 <;>
      simp [Fallback.ask, cascadingClassLoadHelperExt, Extra.lookUp, h, Outcome.found,
        Answer.found]

/-- The superclass of `JclClassLoadHelper2` finds what one of its helpers has. -/
theorem cascades_ext (helpers : List E.Helper) : (cascadingClassLoadHelperExt E).Cascades helpers
    fun s => s.Valid ∧ s.classLoadHelpers = helpers where
  found_iff := by
    rintro s ⟨hv, rfl⟩ lookup
    rw [found_ask, Extra.found_iff hv]
  missed := by
    rintro s ⟨hv, rfl⟩ lookup h
    rw [found_ask] at h
    cases hs : server s.classLoadHelpers s.bestCandidate lookup with
    | some helper =>
      rw [Extra.lookUp_served hs] at h
      exact absurd (answeredBy_of_server hs) (by simpa [Lookup.answeredBy] using h)
    | none =>
      have hanswer := congrArg Prod.fst (Extra.lookUp_missed hv hs)
      cases lookup with
      | loadClass name =>
        have hthrown := Answer.clazz.inj hanswer
        simp only [Fallback.ask, cascadingClassLoadHelperExt, hthrown, Outcome.missed]
        exact classNotLoaded_isClassNotFound name _
      | getResource name =>
        have hnull := Answer.url.inj hanswer
        simp only [Fallback.ask, cascadingClassLoadHelperExt, hnull, Outcome.missed]
      | getResourceAsStream name =>
        have hnull := Answer.stream.inj hanswer
        simp only [Fallback.ask, cascadingClassLoadHelperExt, hnull, Outcome.missed]

/-- The candidate of the superclass stays one of its helpers, whatever the jar class loader
does. -/
theorem valid_after (d : Defaults E) (calls : List (JarClassLoader E × Query)) :
    let s := (JclClassLoadHelper2.queries E).after (Extra.initializeHelpers d) calls
    s.Valid ∧ s.classLoadHelpers = d.list := by
  apply Machine.invariant (I := fun s : Extra.Cascade E => s.Valid ∧ s.classLoadHelpers = d.list)
  · rintro s ⟨jcl, query⟩ h
    cases query with
    | getClassLoader => exact h
    | lookup lookup =>
      apply lookUp_state (fun s : Extra.Cascade E => s.Valid ∧ s.classLoadHelpers = d.list)
      · exact fun name => Extra.lookUp_keeps h (.loadClass name)
      · exact fun name => Extra.lookUp_keeps h (.getResource name)
      · exact fun name => Extra.lookUp_keeps h (.getResourceAsStream name)
      · exact h
  · exact Extra.initializeHelpers_keeps d

/-- After any calls, either jar class load helper falls back exactly when its jar class loader
finds something, returns null for a resource or throws a `ClassNotFoundException` for a class.
Quartz's helper is taken to find what one of its helpers has. -/
theorem jcl_fallsBack_iff (d : Defaults E) (calls : List (JarClassLoader E × Query))
    (cascadeClassLoadHelper : Fallback E σ) (helpers : List E.Helper) (Good : σ → Prop)
    (hcascades : cascadeClassLoadHelper.Cascades helpers Good) (t : σ) (ht : Good t)
    (jcl : JarClassLoader E) (lookup : Lookup) :
    (FallsBack jcl d.list lookup (JclClassLoadHelper2.lookUp jcl
        ((JclClassLoadHelper2.queries E).after (Extra.initializeHelpers d) calls) lookup).1 ↔
      (jcl.ask lookup).found = true ∨ (jcl.ask lookup).missed = true) ∧
    (FallsBack jcl helpers lookup
        (JclClassLoadHelper.lookUp cascadeClassLoadHelper jcl t lookup).1 ↔
      (jcl.ask lookup).found = true ∨ (jcl.ask lookup).missed = true) :=
  ⟨fallsBack_iff (cascades_ext d.list) (valid_after d calls), fallsBack_iff hcascades ht⟩

/-- A jar class loader that has no resources, and throws `t` for every class. -/
def jarThrowing (t : Throwable) : JarClassLoader Spring.twoLoaders where
  loadClass _ := .error t
  getResource _ := .ok none
  getResourceAsStream _ := .ok none
  asClassLoader := some true

/-- Default helpers, the second of which loads every class. -/
def jarDefaults : Defaults Spring.twoLoaders := ⟨false, true, false, false⟩

/-- A jar class loader without the class. -/
def jarWithout : JarClassLoader Spring.twoLoaders :=
  jarThrowing (.plain .classNotFoundException (some "Job"))

/-- A class that is not in the jars comes from the fallback helper. -/
theorem jarWithout_fallsBack :
    FallsBack jarWithout jarDefaults.list (.loadClass "Job") (JclClassLoadHelper2.lookUp jarWithout
      ((JclClassLoadHelper2.queries Spring.twoLoaders).after (Extra.initializeHelpers jarDefaults)
        [(jarWithout, .lookup (.getResource "missing"))]) (.loadClass "Job")).1 ∧
    FallsBack jarWithout jarDefaults.list (.loadClass "Job") (JclClassLoadHelper.lookUp
      (cascadingClassLoadHelperExt Spring.twoLoaders) jarWithout
      (Extra.initializeHelpers jarDefaults) (.loadClass "Job")).1 := by
  have hiff := jcl_fallsBack_iff jarDefaults [(jarWithout, .lookup (.getResource "missing"))]
    (cascadingClassLoadHelperExt Spring.twoLoaders) jarDefaults.list
    (fun s => s.Valid ∧ s.classLoadHelpers = jarDefaults.list) (cascades_ext jarDefaults.list)
    (Extra.initializeHelpers jarDefaults) ⟨listed_none, rfl⟩ jarWithout (.loadClass "Job")
  exact ⟨hiff.1.mpr (Or.inr rfl), hiff.2.mpr (Or.inr rfl)⟩

/-- A class that does not link in the jars is not looked for in the fallback helper. -/
theorem jarThrowing_not_fallsBack :
    ¬ FallsBack (jarThrowing (.plain (.error "NoClassDefFoundError") (some "Job")))
      jarDefaults.list (.loadClass "Job") (JclClassLoadHelper2.lookUp
        (jarThrowing (.plain (.error "NoClassDefFoundError") (some "Job")))
        (Extra.initializeHelpers jarDefaults) (.loadClass "Job")).1 := by
  intro h
  have hfailure := h.failure rfl
  cases hfailure

end MySchedule.ClassLoading.Jcl
