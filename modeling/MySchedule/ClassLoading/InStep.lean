import MySchedule.ClassLoading.Candidate
import MySchedule.ClassLoading.Extra

/-!
# The two copies of the cascading helper

The copies answer alike and hold the same candidate until a resource is missed. After
that the candidates may differ; as both are helpers of the one list, resources are
still answered alike, and a class is found in both or in neither.
-/

namespace MySchedule.ClassLoading

open Java Machines

variable {E : Helpers} {s : Spring.Cascade E} {t : Extra.Cascade E}

/-- Both copies ask the same helpers; their candidates may differ. -/
structure Alike (s : Spring.Cascade E) (t : Extra.Cascade E) : Prop where
  helpers : s.loadHelpers = t.classLoadHelpers
  spring : s.Valid
  extra : t.Valid

/-- Both copies ask the same helpers, and the same candidate. -/
structure InStep (s : Spring.Cascade E) (t : Extra.Cascade E) : Prop extends Alike s t where
  candidate : s.bestCandidate = t.bestCandidate

/-- The call is a resource lookup, and returns null. -/
def MissesResource (s : Spring.Cascade E) (query : Query) : Prop :=
  ∃ lookup, query = .lookup lookup ∧ lookup.ofResource = true ∧
    (Spring.lookUp s lookup).1.found = false

/-- After `initialize` both copies hold the default helpers, and no candidate. -/
theorem inStep_initialized (d : Defaults E) :
    InStep (Spring.initializeHelpers (.new E) d) (Extra.initializeHelpers d) where
  helpers := rfl
  spring := listed_none
  extra := listed_none
  candidate := rfl

theorem inStep_new (helpers : List E.Helper) :
    InStep (E := E) ⟨helpers, none⟩ ⟨helpers, none⟩ where
  helpers := rfl
  spring := listed_none
  extra := listed_none
  candidate := rfl

theorem Alike.step (h : Alike s t) (query : Query) :
    Alike ((Spring.queries E).step s query).2 ((Extra.queries E).step t query).2 := by
  cases query with
  | getClassLoader => exact h
  | lookup lookup =>
    obtain ⟨hs, hsv⟩ := h.spring.lookUp lookup
    obtain ⟨ht, htv⟩ := h.extra.lookUp lookup
    exact ⟨hs.trans (h.helpers.trans ht.symm), hsv, htv⟩

/-- Whatever the candidates are, a resource is looked for from the front. -/
theorem Alike.resource (h : Alike s t) {lookup : Lookup} (hr : lookup.ofResource = true) :
    (Spring.lookUp s lookup).1 = (Extra.lookUp t lookup).1 := by
  have hsame : server s.loadHelpers s.bestCandidate lookup =
      server t.classLoadHelpers t.bestCandidate lookup := by
    rw [server_of_resource hr, server_of_resource hr, h.helpers]
  cases hs : server s.loadHelpers s.bestCandidate lookup with
  | some first => rw [Spring.lookUp_served hs, Extra.lookUp_served (hsame.symm.trans hs)]
  | none =>
    rw [Spring.lookUp_missed h.spring hs, Extra.lookUp_missed h.extra (hsame.symm.trans hs),
      h.helpers]

theorem Alike.found (h : Alike s t) (lookup : Lookup) :
    (Spring.lookUp s lookup).1.found = (Extra.lookUp t lookup).1.found := by
  have hs := (Spring.lookUp_complete h.spring lookup).1
  have ht := Extra.found_iff h.extra lookup
  rw [h.helpers] at hs
  rw [Bool.eq_iff_iff, hs, ht]

/-- Copies in step give the same answer, and stay in step unless a resource is missed. -/
theorem InStep.lookUp (h : InStep s t) (lookup : Lookup) :
    (Spring.lookUp s lookup).1 = (Extra.lookUp t lookup).1 ∧
      (¬MissesResource s (.lookup lookup) →
        (Spring.lookUp s lookup).2.bestCandidate = (Extra.lookUp t lookup).2.bestCandidate) := by
  have hsame : server s.loadHelpers s.bestCandidate lookup =
      server t.classLoadHelpers t.bestCandidate lookup := by
    rw [h.helpers, h.candidate]
  cases hs : server s.loadHelpers s.bestCandidate lookup with
  | some first =>
    rw [Spring.lookUp_served hs, Extra.lookUp_served (hsame.symm.trans hs)]
    exact ⟨rfl, fun _ => rfl⟩
  | none =>
    have he := Spring.lookUp_missed h.spring hs
    rw [he, Extra.lookUp_missed h.extra (hsame.symm.trans hs), h.helpers]
    refine ⟨rfl, fun hmiss => ?_⟩
    change Spring.leftByMiss _ lookup = none
    unfold Spring.leftByMiss
    split
    · exact absurd ⟨lookup, rfl, ‹_›, by rw [he, found_missed]⟩ hmiss
    · rfl

theorem InStep.query (h : InStep s t) (query : Query) :
    ((Spring.queries E).step s query).1 = ((Extra.queries E).step t query).1 ∧
      (¬MissesResource s query →
        InStep ((Spring.queries E).step s query).2 ((Extra.queries E).step t query).2) := by
  cases query with
  | lookup lookup =>
    obtain ⟨hanswer, hbest⟩ := h.lookUp lookup
    exact ⟨hanswer, fun hmiss => ⟨h.toAlike.step (.lookup lookup), hbest hmiss⟩⟩
  | getClassLoader =>
    refine ⟨?_, fun _ => h⟩
    have hloader : Spring.getClassLoader s = Extra.getClassLoader t := by
      cases hb : t.bestCandidate with
      | none => simp [Spring.getClassLoader, Extra.getClassLoader, h.candidate, hb]
      | some best => simp [Spring.getClassLoader, Extra.getClassLoader, h.candidate, hb]
    exact congrArg Answer.loader hloader

/-- The two copies in any run of calls on the same helpers. As long as no resource has been
missed before it, a call is answered alike, and leaves the same candidate unless it misses a
resource itself. And every resource lookup of the run is answered alike, and every class is
found in both copies or in neither. -/
theorem copies_in_step (E : Helpers) (helpers : List E.Helper) (before : List Query)
    (query : Query) :
    let s := (Spring.queries E).after ⟨helpers, none⟩ before
    let t := (Extra.queries E).after ⟨helpers, none⟩ before
    let spring := (Spring.queries E).step s query
    let extra := (Extra.queries E).step t query
    ((Spring.queries E).Throughout ⟨helpers, none⟩ before (fun s q => ¬MissesResource s q) →
      spring.1 = extra.1 ∧
        (¬MissesResource s query → spring.2.bestCandidate = extra.2.bestCandidate)) ∧
    (∀ lookup, query = .lookup lookup → lookup.ofResource = true → spring.1 = extra.1) ∧
    ∀ name, query = .lookup (.loadClass name) →
      ((∃ clazz, (Spring.loadClass s name).1 = .ok clazz) ↔
        ∃ clazz, (Extra.loadClass t name).1 = .ok clazz) := by
  intro s t spring extra
  have halike : Alike s t :=
    Machine.lockstep (fun _ _ q h => h.step q) (inStep_new helpers).toAlike before
  refine ⟨fun hnone => ?_, ?_, ?_⟩
  · have hstep : InStep s t :=
      Machine.lockstep_until (fun _ _ q hq h => (h.query q).2 hq) (inStep_new helpers) hnone
    obtain ⟨hanswer, hnext⟩ := hstep.query query
    exact ⟨hanswer, fun hmiss => (hnext hmiss).candidate⟩
  · rintro lookup rfl hr
    exact halike.resource hr
  · rintro name rfl
    rw [← Spring.found_clazz, ← Spring.found_clazz]
    exact Bool.eq_iff_iff.mp (halike.found (.loadClass name))

/-- The class is found by both copies, and the resource that is looked for next by neither. -/
theorem missing_resource_in_step :
    let s := (Spring.queries Spring.twoLoaders).after ⟨[false, true], none⟩
      [.lookup (.loadClass "Job")]
    let t := (Extra.queries Spring.twoLoaders).after ⟨[false, true], none⟩
      [.lookup (.loadClass "Job")]
    (Spring.lookUp s (.getResource "missing")).1 = (Extra.lookUp t (.getResource "missing")).1 := by
  have hnone : (Spring.queries Spring.twoLoaders).Throughout ⟨[false, true], none⟩
      [.lookup (.loadClass "Job")] (fun s q => ¬MissesResource s q) := by
    rw [Machine.throughout_cons]
    refine ⟨?_, Machine.throughout_nil⟩
    rintro ⟨lookup, hl, hr, _⟩
    cases hl
    cases hr
  exact ((copies_in_step Spring.twoLoaders [false, true] [.lookup (.loadClass "Job")]
    (.lookup (.getResource "missing"))).1 hnone).1

end MySchedule.ClassLoading
