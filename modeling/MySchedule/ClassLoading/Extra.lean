import MySchedule.ClassLoading.Serving

/-!
# org.quartz.extra.CascadingClassLoadHelperExt

This copy of the cascading helper makes a helper the candidate inside the loop, when
it has answered. A lookup that finds nothing leaves no candidate.
-/

namespace MySchedule.ClassLoading.Extra

open Java Machines

variable {E : Helpers}

/-- The fields of the cascading helper once `initialize` has made the list. -/
structure Cascade (E : Helpers) where
  classLoadHelpers : List E.Helper
  bestCandidate : Option E.Helper

/-- The source's `initialize` on a new cascading helper. -/
def initializeHelpers (d : Defaults E) : Cascade E := ⟨d.list, none⟩

/-- The loop of `loadClass`: the class, the candidate, and the last thing that was thrown. -/
def tryHelpers (name : String) : List E.Helper → Option E.Helper → Option Throwable →
    Option E.Clazz × Option E.Helper × Option Throwable
  | [], best, throwable => (none, best, throwable)
  | loadHelper :: helpers, best, throwable =>
    match E.loadClass loadHelper name with
    | .ok clazz => (some clazz, some loadHelper, throwable)
    | .error t => tryHelpers name helpers best (some t)

/-- `loadClass` from its loop on. -/
def loadFromHelpers (s : Cascade E) (name : String) : Except Throwable E.Clazz × Cascade E :=
  match tryHelpers name s.classLoadHelpers s.bestCandidate none with
  | (some clazz, best, _) => (.ok clazz, { s with bestCandidate := best })
  | (none, best, throwable) =>
    (.error (classNotLoaded name throwable), { s with bestCandidate := best })

def loadClass (s : Cascade E) (name : String) : Except Throwable E.Clazz × Cascade E :=
  match s.bestCandidate with
  | some best =>
    match E.loadClass best name with
    | .ok clazz => (.ok clazz, s)
    | .error _ => loadFromHelpers { s with bestCandidate := none } name
  | none => loadFromHelpers s name

section

variable {R : Type} (find : E.Helper → Option R)

/-- The loop of the resource lookups: the result, and the candidate. -/
def searchHelpers : List E.Helper → Option R → Option E.Helper → Option R × Option E.Helper
  | [], result, best => (result, best)
  | loadHelper :: helpers, _, best =>
    match find loadHelper with
    | some r => (some r, some loadHelper)
    | none => searchHelpers helpers none best

/-- A resource lookup; `find` is what it asks a helper. -/
def findResource (s : Cascade E) : Option R × Cascade E :=
  let result := s.bestCandidate.bind find
  let s := if result.isNone then { s with bestCandidate := none } else s
  let (result, best) := searchHelpers find s.classLoadHelpers result s.bestCandidate
  (result, { s with bestCandidate := best })

end

def getResource (s : Cascade E) (name : String) : Option E.URL × Cascade E :=
  findResource (E.getResource · name) s

def getResourceAsStream (s : Cascade E) (name : String) : Option E.InputStream × Cascade E :=
  findResource (E.getResourceAsStream · name) s

def getClassLoader (s : Cascade E) : E.ClassLoader :=
  match s.bestCandidate with
  | none => E.contextClassLoader
  | some best => E.getClassLoader best

/-- A lookup, and the cascading helper after it. -/
def lookUp (s : Cascade E) : Lookup → Answer E × Cascade E
  | .loadClass name => (.clazz (loadClass s name).1, (loadClass s name).2)
  | .getResource name => (.url (getResource s name).1, (getResource s name).2)
  | .getResourceAsStream name =>
    (.stream (getResourceAsStream s name).1, (getResourceAsStream s name).2)

/-- The cascading helper after `initialize`. -/
def queries (E : Helpers) : Machine (Cascade E) Query (Answer E) where
  step
    | s, .lookup lookup => lookUp s lookup
    | s, .getClassLoader => (.loader (getClassLoader s), s)

/-- The best candidate is null or one of the helpers. -/
def Cascade.Valid (s : Cascade E) : Prop := Listed s.classLoadHelpers s.bestCandidate

section Loops

/-- The loop over the helpers ends at the first that loads the class. -/
theorem tryHelpers_found {name : String} {helpers : List E.Helper} {h : E.Helper}
    (hf : firstAnswering helpers (.loadClass name) = some h) (best : Option E.Helper)
    (thrown : Option Throwable) : ∃ clazz t, E.loadClass h name = .ok clazz ∧
      tryHelpers name helpers best thrown = (some clazz, some h, t) := by
  induction helpers generalizing thrown with
  | nil => cases hf
  | cons h' helpers ih =>
    cases hl : E.loadClass h' name with
    | ok clazz =>
      rw [firstAnswering_cons_ok hl, Option.some.injEq] at hf
      subst hf
      exact ⟨clazz, thrown, hl, by simp only [tryHelpers, hl]⟩
    | error t =>
      rw [firstAnswering_cons_error hl] at hf
      simpa only [tryHelpers, hl] using ih hf (some t)

/-- A loop in which every helper throws keeps the candidate. -/
theorem tryHelpers_missed {name : String} {helpers : List E.Helper}
    (hf : firstAnswering helpers (.loadClass name) = none) (best : Option E.Helper)
    (thrown : Option Throwable) :
    tryHelpers name helpers best thrown = (none, best, lastThrown name helpers thrown) := by
  induction helpers generalizing thrown with
  | nil => rfl
  | cons h' helpers ih =>
    cases hl : E.loadClass h' name with
    | ok clazz =>
      rw [firstAnswering_cons_ok hl] at hf
      cases hf
    | error t =>
      rw [firstAnswering_cons_error hl] at hf
      simpa only [tryHelpers, lastThrown, List.foldl_cons, hl] using ih hf (some t)

variable {R : Type} {find : E.Helper → Option R}

/-- The search ends at the first helper that has the resource. -/
theorem searchHelpers_found {helpers : List E.Helper} {h : E.Helper}
    (hf : helpers.find? (fun h => (find h).isSome) = some h) (result : Option R)
    (best : Option E.Helper) : searchHelpers find helpers result best = (find h, some h) := by
  induction helpers generalizing result with
  | nil => cases hf
  | cons h' helpers ih =>
    cases hl : find h' with
    | some r =>
      rw [List.find?_cons_of_pos (by simp [hl]), Option.some.injEq] at hf
      subst hf
      simp only [searchHelpers, hl]
    | none =>
      rw [List.find?_cons_of_neg (by simp [hl])] at hf
      simpa only [searchHelpers, hl] using ih hf none

/-- A search that finds nothing keeps the candidate. -/
theorem searchHelpers_missed {helpers : List E.Helper}
    (hf : helpers.find? (fun h => (find h).isSome) = none) (best : Option E.Helper) :
    searchHelpers find helpers none best = (none, best) := by
  induction helpers with
  | nil => rfl
  | cons h' helpers ih =>
    have hn := List.find?_eq_none.mp hf h' (List.mem_cons_self ..)
    have hl : find h' = none := by simpa using hn
    rw [List.find?_cons_of_neg (by simp [hl])] at hf
    simpa only [searchHelpers, hl] using ih hf

end Loops

section Lookups

variable {s : Cascade E} {lookup : Lookup} {name : String}

/-- The helper that has the resource becomes the candidate. -/
theorem findResource_found {R : Type} (find : E.Helper → Option R) {h : E.Helper}
    (hf : s.classLoadHelpers.find? (fun h => (find h).isSome) = some h) :
    findResource find s = (find h, { s with bestCandidate := some h }) := by
  unfold findResource
  cases s.bestCandidate.bind find with
  | none => simp only [Option.isNone_none, if_true, searchHelpers_found hf]
  | some r =>
    simp only [Option.isNone_some, Bool.false_eq_true, if_false, searchHelpers_found hf]

/-- A resource that no helper has leaves no candidate. -/
theorem findResource_missed {R : Type} (find : E.Helper → Option R) (hv : s.Valid)
    (hf : s.classLoadHelpers.find? (fun h => (find h).isSome) = none) :
    findResource find s = (none, { s with bestCandidate := none }) := by
  have hbest : s.bestCandidate.bind find = none := by
    cases hb : s.bestCandidate with
    | none => rfl
    | some best =>
      have hn := List.find?_eq_none.mp hf best (hv best hb)
      simpa using hn
  unfold findResource
  simp only [hbest, Option.isNone_none, if_true, searchHelpers_missed hf]

/-- A class that the best candidate loads. -/
theorem loadClass_best {best : E.Helper} {clazz : E.Clazz} (hb : s.bestCandidate = some best)
    (hl : E.loadClass best name = .ok clazz) : loadClass s name = (.ok clazz, s) := by
  simp only [loadClass, hb, hl]

/-- A class that the best candidate does not load is looked for from the front. -/
theorem loadClass_front (hb : ∀ best, s.bestCandidate = some best →
    Lookup.answeredBy (.loadClass name) best = false) :
    loadClass s name = loadFromHelpers { s with bestCandidate := none } name := by
  unfold loadClass
  cases hbest : s.bestCandidate with
  | none =>
    obtain ⟨helpers, best⟩ := s
    simp only at hbest
    subst hbest
    rfl
  | some best =>
    cases hl : E.loadClass best name with
    | ok clazz =>
      have hn := hb best hbest
      rw [answeredBy_of_ok hl] at hn
      cases hn
    | error t => simp only [hl]

/-- A lookup is answered by the helper that serves it, which becomes the best candidate. -/
theorem lookUp_served {h : E.Helper}
    (hs : server s.classLoadHelpers s.bestCandidate lookup = some h) :
    lookUp s lookup = (lookup.ask h, { s with bestCandidate := some h }) := by
  cases lookup with
  | loadClass name =>
    by_cases hb : ∃ best, s.bestCandidate = some best ∧
        Lookup.answeredBy (.loadClass name) best = true
    · obtain ⟨best, hbest, ha⟩ := hb
      rw [hbest, server_of_best ha, Option.some.injEq] at hs
      subst hs
      obtain ⟨clazz, hl⟩ := ok_of_answeredBy ha
      rw [← hbest]
      simp only [lookUp, loadClass_best hbest hl, Lookup.ask, hl]
    · simp only [not_exists, not_and, Bool.not_eq_true] at hb
      rw [server_of_front hb] at hs
      obtain ⟨clazz, t, hl, htry⟩ := tryHelpers_found hs none none
      simp only [lookUp, loadClass_front hb, loadFromHelpers, htry, Lookup.ask, hl]
  | getResource name =>
    rw [server_of_resource rfl] at hs
    have hfound := findResource_found (fun h => E.getResource h name) hs
    simp only [lookUp, getResource, hfound, Lookup.ask]
  | getResourceAsStream name =>
    rw [server_of_resource rfl] at hs
    have hfound := findResource_found (fun h => E.getResourceAsStream h name) hs
    simp only [lookUp, getResourceAsStream, hfound, Lookup.ask]

/-- A lookup that nobody serves clears the candidate. -/
theorem lookUp_missed (hv : s.Valid)
    (hs : server s.classLoadHelpers s.bestCandidate lookup = none) :
    lookUp s lookup = (missed s.classLoadHelpers lookup, { s with bestCandidate := none }) := by
  have hf := firstAnswering_of_server hs
  cases lookup with
  | loadClass name =>
    have hb : ∀ best, s.bestCandidate = some best →
        Lookup.answeredBy (.loadClass name) best = false :=
      fun best hbest => not_answeredBy_of_firstAnswering hf (hv best hbest)
    have htry := tryHelpers_missed hf none none
    simp only [lookUp, loadClass_front hb, loadFromHelpers, htry, missed]
  | getResource name =>
    have hmissed := findResource_missed (fun h => E.getResource h name) hv hf
    simp only [lookUp, getResource, hmissed, missed]
  | getResourceAsStream name =>
    have hmissed := findResource_missed (fun h => E.getResourceAsStream h name) hv hf
    simp only [lookUp, getResourceAsStream, hmissed, missed]

/-- A lookup leaves the list alone, and the candidate in it. -/
theorem Cascade.Valid.lookUp (hv : s.Valid) (lookup : Lookup) :
    (lookUp s lookup).2.classLoadHelpers = s.classLoadHelpers ∧
      (Extra.lookUp s lookup).2.Valid := by
  cases hs : server s.classLoadHelpers s.bestCandidate lookup with
  | some h =>
    rw [lookUp_served hs]
    refine ⟨rfl, fun best hbest => ?_⟩
    cases hbest
    exact mem_of_server hv hs
  | none =>
    rw [lookUp_missed hv hs]
    exact ⟨rfl, listed_none⟩

/-- A lookup keeps the list, with the candidate one of it. -/
theorem lookUp_keeps {helpers : List E.Helper} (h : s.Valid ∧ s.classLoadHelpers = helpers)
    (lookup : Lookup) : (Extra.lookUp s lookup).2.Valid ∧
      (Extra.lookUp s lookup).2.classLoadHelpers = helpers := by
  obtain ⟨hkept, hvalid⟩ := h.1.lookUp lookup
  exact ⟨hvalid, hkept.trans h.2⟩

/-- A new list holds the defaults, without a candidate. -/
theorem initializeHelpers_keeps (d : Defaults E) :
    (initializeHelpers d).Valid ∧ (initializeHelpers d).classLoadHelpers = d.list :=
  ⟨listed_none, rfl⟩

/-- A lookup finds something exactly when some helper has it. -/
theorem found_iff (hv : s.Valid) (lookup : Lookup) : (lookUp s lookup).1.found = true ↔
    ∃ h ∈ s.classLoadHelpers, lookup.answeredBy h = true := by
  rw [← server_ne_none_iff hv]
  cases hs : server s.classLoadHelpers s.bestCandidate lookup with
  | some h =>
    rw [lookUp_served hs]
    exact ⟨fun _ => by simp, fun _ => answeredBy_of_server hs⟩
  | none =>
    rw [lookUp_missed hv hs]
    simp

end Lookups

end MySchedule.ClassLoading.Extra
