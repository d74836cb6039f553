import MySchedule.ClassLoading.Serving

/-!
# quartz.experiment.spring.CascadingClassLoadHelperExt

The cascading helper asks its best candidate first when it loads a class. For a
resource it asks the candidate too, and then all helpers from the front again;
the helper that it asked last becomes the candidate, even when it had nothing.
-/

namespace MySchedule.ClassLoading.Spring

open Java Machines

variable {E : Helpers}

/-- The fields of the cascading helper. -/
structure Cascade (E : Helpers) where
  loadHelpers : List E.Helper
  bestCandidate : Option E.Helper

/-- A new cascading helper. -/
def Cascade.new (E : Helpers) : Cascade E := ⟨[], none⟩

def addClassLoadHelper (s : Cascade E) (clhelper : E.Helper) : Cascade E :=
  { s with loadHelpers := s.loadHelpers ++ [clhelper] }

def addDefaultClassLoadHelpers (s : Cascade E) (d : Defaults E) : Cascade E :=
  { s with loadHelpers := s.loadHelpers ++ d.list }

/-- The source's `initialize`; initializing a helper does not change what it answers. -/
def initializeHelpers (s : Cascade E) (d : Defaults E) : Cascade E :=
  if s.loadHelpers.length = 0 then addDefaultClassLoadHelpers s d else s

/-- The loop of `loadClass`: the class, the helper that was asked last, and the last thing
that was thrown. -/
def tryHelpers (name : String) : List E.Helper → Option E.Helper → Option Throwable →
    Option E.Clazz × Option E.Helper × Option Throwable
  | [], loadHelper, throwable => (none, loadHelper, throwable)
  | h :: helpers, _, throwable =>
    match E.loadClass h name with
    | .ok clazz => (some clazz, some h, throwable)
    | .error t => tryHelpers name helpers (some h) (some t)

/-- `loadClass` from its loop on. -/
def loadFromHelpers (s : Cascade E) (name : String) : Except Throwable E.Clazz × Cascade E :=
  match tryHelpers name s.loadHelpers none none with
  | (some clazz, loadHelper, _) => (.ok clazz, { s with bestCandidate := loadHelper })
  | (none, _, throwable) => (.error (classNotLoaded name throwable), s)

def loadClass (s : Cascade E) (name : String) : Except Throwable E.Clazz × Cascade E :=
  match s.bestCandidate with
  | some best =>
    match E.loadClass best name with
    | .ok clazz => (.ok clazz, s)
    | .error _ => loadFromHelpers { s with bestCandidate := none } name
  | none => loadFromHelpers s name

section

variable {R : Type} (find : E.Helper → Option R)

/-- The loop of the resource lookups: the result, and the helper that was asked last. -/
def searchHelpers : List E.Helper → Option R → Option E.Helper → Option R × Option E.Helper
  | [], result, loadHelper => (result, loadHelper)
  | h :: helpers, _, _ =>
    match find h with
    | some r => (some r, some h)
    | none => searchHelpers helpers none (some h)

/-- A resource lookup; `find` is what it asks a helper. -/
def findResource (s : Cascade E) : Option R × Cascade E :=
  let result := s.bestCandidate.bind find
  let s := if result.isNone then { s with bestCandidate := none } else s
  let (result, loadHelper) := searchHelpers find s.loadHelpers result none
  (result, { s with bestCandidate := loadHelper })

end

def getResource (s : Cascade E) (name : String) : Option E.URL × Cascade E :=
  findResource (E.getResource · name) s

def getResourceAsStream (s : Cascade E) (name : String) : Option E.InputStream × Cascade E :=
  findResource (E.getResourceAsStream · name) s

def getClassLoader (s : Cascade E) : E.ClassLoader :=
  match s.bestCandidate with
  | none => E.contextClassLoader
  | some best => E.getClassLoader best

/-- A lookup, and the cascading helper after it. -/
def lookUp (s : Cascade E) : Lookup → Answer E × Cascade E
  | .loadClass name => (.clazz (loadClass s name).1, (loadClass s name).2)
  | .getResource name => (.url (getResource s name).1, (getResource s name).2)
  | .getResourceAsStream name =>
    (.stream (getResourceAsStream s name).1, (getResourceAsStream s name).2)

/-- The cascading helper with its list of helpers as it is. -/
def queries (E : Helpers) : Machine (Cascade E) Query (Answer E) where
  step
    | s, .lookup lookup => lookUp s lookup
    | s, .getClassLoader => (.loader (getClassLoader s), s)

/-- The calls of a cascading helper. -/
inductive Call (E : Helpers)
  | addClassLoadHelper (clhelper : E.Helper)
  | addDefaultClassLoadHelpers (d : Defaults E)
  | initializeHelpers (d : Defaults E)
  | query (query : Query)

/-- The cascading helper; calls that change its list return nothing. -/
def machine (E : Helpers) : Machine (Cascade E) (Call E) (Option (Answer E)) where
  step
    | s, .addClassLoadHelper clhelper => (none, addClassLoadHelper s clhelper)
    | s, .addDefaultClassLoadHelpers d => (none, addDefaultClassLoadHelpers s d)
    | s, .initializeHelpers d => (none, initializeHelpers s d)
    | s, .query query => (some ((queries E).step s query).1, ((queries E).step s query).2)

/-- The best candidate is null or one of the helpers. -/
def Cascade.Valid (s : Cascade E) : Prop := Listed s.loadHelpers s.bestCandidate

section Loops

/-- The loop over the helpers ends at the first that loads the class. -/
theorem tryHelpers_found {name : String} {helpers : List E.Helper} {h : E.Helper}
    (hf : firstAnswering helpers (.loadClass name) = some h) (asked : Option E.Helper)
    (thrown : Option Throwable) : ∃ clazz t, E.loadClass h name = .ok clazz ∧
      tryHelpers name helpers asked thrown = (some clazz, some h, t) := by
  induction helpers generalizing asked thrown with
  | nil => cases hf
  | cons h' helpers ih =>
    cases hl : E.loadClass h' name with
    | ok clazz =>
      rw [firstAnswering_cons_ok hl, Option.some.injEq] at hf
      subst hf
      exact ⟨clazz, thrown, hl, by simp only [tryHelpers, hl]⟩
    | error t =>
      rw [firstAnswering_cons_error hl] at hf
      simpa only [tryHelpers, hl] using ih hf (some h') (some t)

/-- Where none loads the class, the loop is left with the last exception. -/
theorem tryHelpers_missed {name : String} {helpers : List E.Helper}
    (hf : firstAnswering helpers (.loadClass name) = none) (asked : Option E.Helper)
    (thrown : Option Throwable) :
    ∃ h, tryHelpers name helpers asked thrown = (none, h, lastThrown name helpers thrown) := by
  induction helpers generalizing asked thrown with
  | nil => exact ⟨asked, rfl⟩
  | cons h' helpers ih =>
    cases hl : E.loadClass h' name with
    | ok clazz =>
      rw [firstAnswering_cons_ok hl] at hf
      cases hf
    | error t =>
      rw [firstAnswering_cons_error hl] at hf
      simpa only [tryHelpers, lastThrown, List.foldl_cons, hl] using ih hf (some h') (some t)

variable {R : Type} {find : E.Helper → Option R}

/-- The search ends at the first helper that has the resource. -/
theorem searchHelpers_found {helpers : List E.Helper} {h : E.Helper}
    (hf : helpers.find? (fun h => (find h).isSome) = some h) (result : Option R)
    (asked : Option E.Helper) : searchHelpers find helpers result asked = (find h, some h) := by
  induction helpers generalizing result asked with
  | nil => cases hf
  | cons h' helpers ih =>
    cases hl : find h' with
    | some r =>
      rw [List.find?_cons_of_pos (by simp [hl]), Option.some.injEq] at hf
      subst hf
      simp only [searchHelpers, hl]
    | none =>
      rw [List.find?_cons_of_neg (by simp [hl])] at hf
      simpa only [searchHelpers, hl] using ih hf none (some h')

/-- When no helper has the resource, the last helper of the list was asked last. -/
theorem searchHelpers_missed {helpers : List E.Helper}
    (hf : helpers.find? (fun h => (find h).isSome) = none) (result : Option R)
    (asked : Option E.Helper) : searchHelpers find helpers result asked =
      (if helpers = [] then result else none, helpers.getLast?.or asked) := by
  induction helpers generalizing result asked with
  | nil => rfl
  | cons h' helpers ih =>
    have hn := List.find?_eq_none.mp hf h' (List.mem_cons_self ..)
    have hl : find h' = none := by simpa using hn
    have hrest : helpers.find? (fun h => (find h).isSome) = none := by
      rwa [List.find?_cons_of_neg (by simp [hl])] at hf
    simp only [searchHelpers, hl, ih hrest]
    cases helpers with
    | nil => rfl
    | cons h'' helpers => simp [List.getLast?_cons]

end Loops

section Lookups

variable {s : Cascade E} {lookup : Lookup} {name : String}

/-- The helper that has the resource becomes the candidate. -/
theorem findResource_found {R : Type} (find : E.Helper → Option R) {h : E.Helper}
    (hf : s.loadHelpers.find? (fun h => (find h).isSome) = some h) :
    findResource find s = (find h, { s with bestCandidate := some h }) := by
  unfold findResource
  cases s.bestCandidate.bind find with
  | none => simp only [Option.isNone_none, if_true, searchHelpers_found hf]
  | some r =>
    simp only [Option.isNone_some, Bool.false_eq_true, if_false, searchHelpers_found hf]

/-- A resource that no helper has leaves the last helper as candidate. -/
theorem findResource_missed {R : Type} (find : E.Helper → Option R) (hv : s.Valid)
    (hf : s.loadHelpers.find? (fun h => (find h).isSome) = none) :
    findResource find s = (none, { s with bestCandidate := s.loadHelpers.getLast? }) := by
  have hbest : s.bestCandidate.bind find = none := by
    cases hb : s.bestCandidate with
    | none => rfl
    | some best =>
      have hn := List.find?_eq_none.mp hf best (hv best hb)
      simpa using hn
  unfold findResource
  simp only [hbest, Option.isNone_none, if_true, searchHelpers_missed hf, ite_self, Option.or_none]

/-- A class that the best candidate loads. -/
theorem loadClass_best {best : E.Helper} {clazz : E.Clazz} (hb : s.bestCandidate = some best)
    (hl : E.loadClass best name = .ok clazz) : loadClass s name = (.ok clazz, s) := by
  simp only [loadClass, hb, hl]

/-- A class that the best candidate does not load is looked for from the front. -/
theorem loadClass_front (hb : ∀ best, s.bestCandidate = some best →
    Lookup.answeredBy (.loadClass name) best = false) :
    loadClass s name = loadFromHelpers { s with bestCandidate := none } name := by
  unfold loadClass
  cases hbest : s.bestCandidate with
  | none =>
    obtain ⟨helpers, best⟩ := s
    simp only at hbest
    subst hbest
    rfl
  | some best =>
    cases hl : E.loadClass best name with
    | ok clazz =>
      have hn := hb best hbest
      rw [answeredBy_of_ok hl] at hn
      cases hn
    | error t => simp only [hl]

/-- A lookup is answered by the helper that serves it, which becomes the best candidate. -/
theorem lookUp_served {h : E.Helper}
    (hs : server s.loadHelpers s.bestCandidate lookup = some h) :
    lookUp s lookup = (lookup.ask h, { s with bestCandidate := some h }) := by
  cases lookup with
  | loadClass name =>
    by_cases hb : ∃ best, s.bestCandidate = some best ∧
        Lookup.answeredBy (.loadClass name) best = true
    · obtain ⟨best, hbest, ha⟩ := hb
      rw [hbest, server_of_best ha, Option.some.injEq] at hs
      subst hs
      obtain ⟨clazz, hl⟩ := ok_of_answeredBy ha
      rw [← hbest]
      simp only [lookUp, loadClass_best hbest hl, Lookup.ask, hl]
    · simp only [not_exists, not_and, Bool.not_eq_true] at hb
      rw [server_of_front hb] at hs
      obtain ⟨clazz, t, hl, htry⟩ := tryHelpers_found hs none none
      simp only [lookUp, loadClass_front hb, loadFromHelpers, htry, Lookup.ask, hl]
  | getResource name =>
    rw [server_of_resource rfl] at hs
    have hfound := findResource_found (fun h => E.getResource h name) hs
    simp only [lookUp, getResource, hfound, Lookup.ask]
  | getResourceAsStream name =>
    rw [server_of_resource rfl] at hs
    have hfound := findResource_found (fun h => E.getResourceAsStream h name) hs
    simp only [lookUp, getResourceAsStream, hfound, Lookup.ask]

/-- The candidate after a lookup that nobody served: null when a class was looked for, and
else the helper that was asked last. -/
def leftByMiss (helpers : List E.Helper) (lookup : Lookup) : Option E.Helper :=
  if lookup.ofResource then helpers.getLast? else none

/-- A lookup that nobody serves misses, and changes the candidate alone. -/
theorem lookUp_missed (hv : s.Valid) (hs : server s.loadHelpers s.bestCandidate lookup = none) :
    lookUp s lookup = (missed s.loadHelpers lookup,
      { s with bestCandidate := leftByMiss s.loadHelpers lookup }) := by
  have hf := firstAnswering_of_server hs
  cases lookup with
  | loadClass name =>
    have hb : ∀ best, s.bestCandidate = some best →
        Lookup.answeredBy (.loadClass name) best = false :=
      fun best hbest => not_answeredBy_of_firstAnswering hf (hv best hbest)
    obtain ⟨h, htry⟩ := tryHelpers_missed hf none none
    simp only [lookUp, loadClass_front hb, loadFromHelpers, htry, missed]
    rfl
  | getResource name =>
    have hmissed := findResource_missed (fun h => E.getResource h name) hv hf
    simp only [lookUp, getResource, hmissed, missed]
    rfl
  | getResourceAsStream name =>
    have hmissed := findResource_missed (fun h => E.getResourceAsStream h name) hv hf
    simp only [lookUp, getResourceAsStream, hmissed, missed]
    rfl

/-- All that a lookup can do. -/
theorem lookUp_cases (hv : s.Valid) (lookup : Lookup) :
    (∃ h, server s.loadHelpers s.bestCandidate lookup = some h ∧
      lookUp s lookup = (lookup.ask h, { s with bestCandidate := some h })) ∨
    (server s.loadHelpers s.bestCandidate lookup = none ∧
      lookUp s lookup = (missed s.loadHelpers lookup,
        { s with bestCandidate := leftByMiss s.loadHelpers lookup })) := by
  cases hs : server s.loadHelpers s.bestCandidate lookup with
  | some h => exact Or.inl ⟨h, rfl, lookUp_served hs⟩
  | none => exact Or.inr ⟨rfl, lookUp_missed hv hs⟩

/-- What a miss leaves is of the list. -/
theorem listed_leftByMiss (helpers : List E.Helper) (lookup : Lookup) :
    Listed helpers (leftByMiss helpers lookup) := by
  intro h hh
  unfold leftByMiss at hh
  split at hh
  · exact List.mem_of_getLast? hh
  · cases hh

/-- A lookup leaves the list alone, and the candidate in it. -/
theorem Cascade.Valid.lookUp (hv : s.Valid) (lookup : Lookup) :
    (lookUp s lookup).2.loadHelpers = s.loadHelpers ∧ (Spring.lookUp s lookup).2.Valid := by
  rcases lookUp_cases hv lookup with ⟨h, hs, he⟩ | ⟨_, he⟩
  · rw [he]
    refine ⟨rfl, fun best hbest => ?_⟩
    cases hbest
    exact mem_of_server hv hs
  · rw [he]
    exact ⟨rfl, listed_leftByMiss s.loadHelpers lookup⟩

/-- No call of any kind makes the candidate leave the list. -/
theorem Cascade.Valid.step (hv : s.Valid) (call : Call E) : ((machine E).step s call).2.Valid := by
  cases call with
  | addClassLoadHelper clhelper => exact fun best hb => List.mem_append_left _ (hv best hb)
  | addDefaultClassLoadHelpers d => exact fun best hb => List.mem_append_left _ (hv best hb)
  | initializeHelpers d =>
    change (initializeHelpers s d).Valid
    unfold initializeHelpers
    split
    · exact fun best hb => List.mem_append_left _ (hv best hb)
    · exact hv
  | query query =>
    cases query with
    | lookup lookup => exact (hv.lookUp lookup).2
    | getClassLoader => exact hv

/-- A new cascade has no candidate. -/
theorem valid_new : (Cascade.new E).Valid := listed_none

/-- In every reachable state the best candidate is null or one of the helpers. -/
theorem valid_after (calls : List (Call E)) : ((machine E).after (.new E) calls).Valid :=
  Machine.invariant (M := machine E) (I := Cascade.Valid) (fun _ call hv => hv.step call)
    valid_new calls

end Lookups

end MySchedule.ClassLoading.Spring
