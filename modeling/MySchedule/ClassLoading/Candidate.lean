import MySchedule.ClassLoading.Spring

/-!
# What the best candidate is good for

The candidate never hides a class or a resource that some helper has. But it is
not always a helper that has answered: a resource that nobody has leaves the last
helper as the candidate. And it is not always asked in vain: a resource lookup
drops its answer and takes that of the first helper in the list.
-/

namespace MySchedule.ClassLoading.Spring

open Java Machines

variable {E : Helpers} {s : Cascade E}

/-- A lookup finds something exactly when some helper has it, and answers as such a helper
does. -/
theorem lookUp_complete (hv : s.Valid) (lookup : Lookup) :
    ((lookUp s lookup).1.found = true ↔ ∃ h ∈ s.loadHelpers, lookup.answeredBy h = true) ∧
      ((lookUp s lookup).1.found = true →
        ∃ h ∈ s.loadHelpers, (lookUp s lookup).1 = lookup.ask h) := by
  rw [← server_ne_none_iff hv]
  rcases lookUp_cases hv lookup with ⟨h, hs, he⟩ | ⟨hs, he⟩
  · rw [he, hs]
    have ha : lookup.answeredBy h = true := answeredBy_of_server hs
    exact ⟨⟨fun _ => by simp, fun _ => ha⟩, fun _ => ⟨h, mem_of_server hv hs, rfl⟩⟩
  · rw [he, hs]
    simp

/-- When no class is found, a `ClassNotFoundException` is thrown. -/
theorem loadClass_error (hv : s.Valid) {name : String} {ex : Throwable}
    (he : (loadClass s name).1 = .error ex) : ex.isClassNotFound = true := by
  have hnot : ¬(lookUp s (.loadClass name)).1.found = true := by
    simp [lookUp, he, Answer.found, Except.toBool]
  rcases lookUp_cases hv (.loadClass name) with ⟨h, hs, hserved⟩ | ⟨_, hmissed⟩
  · rw [hserved] at hnot
    exact absurd (answeredBy_of_server hs) hnot
  · have hanswer := congrArg Prod.fst hmissed
    rw [lookUp, he] at hanswer
    cases hanswer
    exact classNotLoaded_isClassNotFound name _

/-- A class is found where one is loaded. -/
theorem found_clazz {result : Except Throwable E.Clazz} :
    (Answer.clazz result).found = true ↔ ∃ clazz, result = .ok clazz := by
  cases result <;> simp [Answer.found, Except.toBool]

/-- A resource is found where its URL is not null. -/
theorem found_url {result : Option E.URL} : (Answer.url result).found = true ↔ result ≠ none := by
  cases result <;> simp [Answer.found]

/-- A resource is found where its stream is not null. -/
theorem found_stream {result : Option E.InputStream} :
    (Answer.stream result).found = true ↔ result ≠ none := by
  cases result <;> simp [Answer.found]

/-- The cascading helper never loses a class or a resource because of its candidate. After any
calls, a class or resource is found exactly when some helper in the list has it, it is that of
such a helper, and otherwise `loadClass` throws a `ClassNotFoundException`. -/
theorem cascade_loses_nothing (E : Helpers) (calls : List (Call E)) :
    let s := (machine E).after (.new E) calls
    (∀ name, ((∃ clazz, (loadClass s name).1 = .ok clazz) ↔
          ∃ h ∈ s.loadHelpers, ∃ clazz, E.loadClass h name = .ok clazz) ∧
        (∀ clazz, (loadClass s name).1 = .ok clazz →
          ∃ h ∈ s.loadHelpers, E.loadClass h name = .ok clazz) ∧
        ∀ ex, (loadClass s name).1 = .error ex → ex.isClassNotFound = true) ∧
    (∀ name, ((getResource s name).1 ≠ none ↔
          ∃ h ∈ s.loadHelpers, E.getResource h name ≠ none) ∧
        ∀ url, (getResource s name).1 = some url →
          ∃ h ∈ s.loadHelpers, E.getResource h name = some url) ∧
    ∀ name, ((getResourceAsStream s name).1 ≠ none ↔
          ∃ h ∈ s.loadHelpers, E.getResourceAsStream h name ≠ none) ∧
        ∀ stream, (getResourceAsStream s name).1 = some stream →
          ∃ h ∈ s.loadHelpers, E.getResourceAsStream h name = some stream := by
  intro s
  have hv : s.Valid := valid_after calls
  refine ⟨fun name => ?_, fun name => ?_, fun name => ?_⟩
  · obtain ⟨hiff, hown⟩ := lookUp_complete hv (.loadClass name)
    simp only [Lookup.answeredBy, lookUp, Lookup.ask, found_clazz] at hiff hown
    refine ⟨hiff, fun clazz hc => ?_, fun ex => loadClass_error hv⟩
    obtain ⟨h, hmem, he⟩ := hown ⟨clazz, hc⟩
    exact ⟨h, hmem, (Answer.clazz.inj he).symm.trans hc⟩
  · obtain ⟨hiff, hown⟩ := lookUp_complete hv (.getResource name)
    simp only [Lookup.answeredBy, lookUp, Lookup.ask, found_url] at hiff hown
    refine ⟨hiff, fun url hu => ?_⟩
    obtain ⟨h, hmem, he⟩ := hown (by simp [hu])
    exact ⟨h, hmem, (Answer.url.inj he).symm.trans hu⟩
  · obtain ⟨hiff, hown⟩ := lookUp_complete hv (.getResourceAsStream name)
    simp only [Lookup.answeredBy, lookUp, Lookup.ask, found_stream] at hiff hown
    refine ⟨hiff, fun stream hs => ?_⟩
    obtain ⟨h, hmem, he⟩ := hown (by simp [hs])
    exact ⟨h, hmem, (Answer.stream.inj he).symm.trans hs⟩

/-- What a lookup should leave behind: the candidate is null, or the helper that has just
answered; after a lookup that found nothing it is null, so that the class loader of the thread
is shared, and the next class is looked for from the front. -/
structure AnsweredLast (s : Cascade E) (lookup : Lookup) : Prop where
  answered : ∀ best, (lookUp s lookup).2.bestCandidate = some best →
    best ∈ (lookUp s lookup).2.loadHelpers ∧ lookup.answeredBy best = true ∧
      (lookUp s lookup).1 = lookup.ask best
  cleared : (lookUp s lookup).1.found = false →
    (lookUp s lookup).2.bestCandidate = none ∧
      getClassLoader (lookUp s lookup).2 = E.contextClassLoader ∧
      ∀ name, loadClass (lookUp s lookup).2 name = loadFromHelpers (lookUp s lookup).2 name

/-- A candidate that has just answered is the helper that answered last. -/
theorem AnsweredLast.of_found {lookup : Lookup} {best : E.Helper}
    (hmem : best ∈ (lookUp s lookup).2.loadHelpers) (ha : lookup.answeredBy best = true)
    (hbest : (lookUp s lookup).2.bestCandidate = some best)
    (he : (lookUp s lookup).1 = lookup.ask best) : AnsweredLast s lookup where
  answered := by
    intro best' hb
    rw [hbest, Option.some.injEq] at hb
    subst hb
    exact ⟨hmem, ha, he⟩
  cleared := by
    intro hfound
    rw [he] at hfound
    exact absurd (ha.symm.trans hfound) (by simp)

/-- Without a candidate there is nothing to show. -/
theorem AnsweredLast.of_none {lookup : Lookup}
    (hbest : (lookUp s lookup).2.bestCandidate = none) : AnsweredLast s lookup where
  answered := by
    intro best hb
    rw [hbest] at hb
    cases hb
  cleared := by
    intro _
    refine ⟨hbest, ?_, fun name => ?_⟩
    · simp only [getClassLoader, hbest]
    · simp only [loadClass, hbest]

/-- The only lookup that leaves a helper as the candidate that has not answered is one for a
resource that no helper has. -/
theorem answeredLast_iff (hv : s.Valid) (lookup : Lookup) : AnsweredLast s lookup ↔
    s.loadHelpers = [] ∨
      (lookup.ofResource = true → ∃ h ∈ s.loadHelpers, lookup.answeredBy h = true) := by
  rcases lookUp_cases hv lookup with ⟨h, hs, he⟩ | ⟨hs, he⟩
  · have hmem : h ∈ s.loadHelpers := mem_of_server hv hs
    have ha : lookup.answeredBy h = true := answeredBy_of_server hs
    have hlast : AnsweredLast s lookup := by
      have hmem' : h ∈ (lookUp s lookup).2.loadHelpers := by
        rw [he]
        exact hmem
      apply AnsweredLast.of_found hmem' ha
      · rw [he]
      · rw [he]
    exact ⟨fun _ => Or.inr fun _ => ⟨h, hmem, ha⟩, fun _ => hlast⟩
  · have hcand : (lookUp s lookup).2.bestCandidate = leftByMiss s.loadHelpers lookup := by
      rw [he]
    rw [← server_ne_none_iff hv, hs]
    constructor
    · intro hlast
      -- a candidate that is null after a resource was missed means that there are no helpers
      have hcleared := (hlast.cleared (by rw [he, found_missed])).1
      rw [hcand, leftByMiss] at hcleared
      split at hcleared
      · exact Or.inl (List.getLast?_eq_none_iff.mp hcleared)
      · exact Or.inr fun hr => absurd hr ‹_›
    · intro hsome
      apply AnsweredLast.of_none
      rw [hcand, leftByMiss]
      split
      · rcases hsome with hnil | hsome
        · rw [hnil]
          rfl
        · exact absurd rfl (hsome ‹_›)
      · rfl

/-- In a run of lookups every candidate has answered the latest lookup exactly when there are
no helpers, or some helper has each resource that the run looks for. -/
theorem candidate_answered_last (E : Helpers) (helpers : List E.Helper) (calls : List Query) :
    (queries E).Throughout ⟨helpers, none⟩ calls
        (fun s query => ∀ lookup, query = .lookup lookup → AnsweredLast s lookup) ↔
      helpers = [] ∨ ∀ lookup, .lookup lookup ∈ calls → lookup.ofResource = true →
        ∃ h ∈ helpers, lookup.answeredBy h = true := by
  let I : Cascade E → Prop := fun s => s.Valid ∧ s.loadHelpers = helpers
  have hI : ∀ s query, I s → I ((queries E).step s query).2 := by
    rintro s query ⟨hv, hs⟩
    cases query with
    | lookup lookup => exact ⟨(hv.lookUp lookup).2, (hv.lookUp lookup).1.trans hs⟩
    | getClassLoader => exact ⟨hv, hs⟩
  have hnew : I ⟨helpers, none⟩ := by
    constructor
    · intro best hb
      cases hb
    · rfl
  rw [Machine.throughout_iff (Q := fun _ query => ∀ lookup, query = .lookup lookup →
      helpers = [] ∨ (lookup.ofResource = true → ∃ h ∈ helpers, lookup.answeredBy h = true))
    hI hnew, Machine.throughout_actions]
  · constructor
    · intro h
      by_cases hnil : helpers = []
      · exact Or.inl hnil
      · exact Or.inr fun lookup hmem => (h _ hmem lookup rfl).resolve_left hnil
    · rintro (hnil | h) query hmem lookup rfl
      · exact Or.inl hnil
      · exact Or.inr (h lookup hmem)
  · rintro s query ⟨hv, rfl⟩
    exact forall_congr' fun lookup => imp_congr_right fun _ => answeredLast_iff hv lookup

/-- Two loaders: the second one alone loads classes; both have every resource but `missing`. -/
def twoLoaders : Helpers where
  Helper := Bool
  Clazz := Bool
  URL := Bool
  InputStream := Bool
  ClassLoader := Option Bool
  loadClass h name := if h then .ok h else .error (.plain .classNotFoundException (some name))
  getResource h name := if name = "missing" then none else some h
  getResourceAsStream h name := if name = "missing" then none else some h
  getClassLoader h := some h
  contextClassLoader := none

/-- A resource that neither loader has makes the second one the candidate. -/
theorem missing_resource_leaves_candidate :
    ¬(queries twoLoaders).Throughout ⟨[false, true], none⟩ [.lookup (.getResource "missing")]
      (fun s query => ∀ lookup, query = .lookup lookup → AnsweredLast s lookup) := by
  intro h
  have hlast := h [] _ [] rfl _ rfl
  have hcleared := (hlast.cleared rfl).1
  cases hcleared

/-- The lookup comes from the candidate, which stays the candidate. -/
def ServedBy (s : Cascade E) (lookup : Lookup) (best : E.Helper) : Prop :=
  (lookUp s lookup).1 = lookup.ask best ∧ (lookUp s lookup).2.bestCandidate = some best

/-- No helper that comes before the candidate has the resource. -/
def Unshadowed (helpers : List E.Helper) (lookup : Lookup) (best : E.Helper) : Prop :=
  lookup.ofResource = true → ∃ before rest, helpers = before ++ best :: rest ∧
    ∀ h ∈ before, lookup.answeredBy h = false

/-- A candidate is not shadowed if, for a resource, it is the first to answer. -/
theorem unshadowed_iff {helpers : List E.Helper} {lookup : Lookup} {best : E.Helper}
    (ha : lookup.answeredBy best = true) : Unshadowed helpers lookup best ↔
      (lookup.ofResource = true → firstAnswering helpers lookup = some best) := by
  unfold Unshadowed firstAnswering
  simp [List.find?_eq_some_iff_append, ha]

/-- The candidate serves what it can answer, unless it is shadowed. -/
theorem servedBy_iff (hv : s.Valid) {best : E.Helper} (hbest : s.bestCandidate = some best)
    {lookup : Lookup} (ha : lookup.answeredBy best = true) :
    ServedBy s lookup best ↔ Unshadowed s.loadHelpers lookup best := by
  obtain ⟨h, hs⟩ := Option.ne_none_iff_exists'.mp
    ((server_ne_none_iff hv).mpr ⟨best, hv best hbest, ha⟩)
  have hserved : ServedBy s lookup best ↔ h = best := by
    have he := lookUp_served hs
    constructor
    · rintro ⟨_, hkept⟩
      rwa [he, Option.some.injEq] at hkept
    · rintro rfl
      exact ⟨by rw [he], by rw [he]⟩
  rw [hserved, unshadowed_iff ha]
  cases lookup with
  | loadClass name =>
    rw [hbest, server_of_best ha, Option.some.injEq] at hs
    simp [Lookup.ofResource, hs]
  | getResource name =>
    rw [server_of_resource rfl] at hs
    simp [Lookup.ofResource, hs]
  | getResourceAsStream name =>
    rw [server_of_resource rfl] at hs
    simp [Lookup.ofResource, hs]

/-- The second of two lookups meets the same list and, when the first has come from the
candidate, the same candidate. -/
theorem servedBy_twice_iff (hv : s.Valid) {best : E.Helper} (hbest : s.bestCandidate = some best)
    {first second : Lookup} (hfirst : first.answeredBy best = true)
    (hsecond : second.answeredBy best = true) :
    ServedBy s first best ∧ ServedBy (lookUp s first).2 second best ↔
      Unshadowed s.loadHelpers first best ∧ Unshadowed s.loadHelpers second best := by
  rw [servedBy_iff hv hbest hfirst]
  obtain ⟨hlist, hv'⟩ := hv.lookUp first
  constructor
  · rintro ⟨hun, hserved⟩
    have hbest' := ((servedBy_iff hv hbest hfirst).mpr hun).2
    refine ⟨hun, ?_⟩
    rwa [servedBy_iff hv' hbest' hsecond, hlist] at hserved
  · rintro ⟨hun, hun'⟩
    have hbest' := ((servedBy_iff hv hbest hfirst).mpr hun).2
    refine ⟨hun, ?_⟩
    rwa [servedBy_iff hv' hbest' hsecond, hlist]

/-- After any calls, what the best candidate can answer comes from it, and leaves it as it is,
exactly when it is a class, or no helper ahead of the candidate has the resource. The same
holds of two lookups one after the other. -/
theorem candidate_honoured (E : Helpers) (calls : List (Call E)) (best : E.Helper)
    (hbest : ((machine E).after (.new E) calls).bestCandidate = some best) :
    let s := (machine E).after (.new E) calls
    (∀ lookup : Lookup, lookup.answeredBy best = true →
      (ServedBy s lookup best ↔ Unshadowed s.loadHelpers lookup best)) ∧
    ∀ first second : Lookup, first.answeredBy best = true → second.answeredBy best = true →
      (ServedBy s first best ∧ ServedBy (lookUp s first).2 second best ↔
        Unshadowed s.loadHelpers first best ∧ Unshadowed s.loadHelpers second best) := by
  intro s
  have hv : s.Valid := valid_after calls
  exact ⟨fun _ ha => servedBy_iff hv hbest ha,
    fun _ _ ha ha' => servedBy_twice_iff hv hbest ha ha'⟩

/-- The calls after which the second of the two loaders is the candidate. -/
def secondLoads : List (Call twoLoaders) :=
  [.addClassLoadHelper false, .addClassLoadHelper true, .query (.lookup (.loadClass "Job"))]

theorem secondLoads_honoured :
    let s := (machine twoLoaders).after (.new twoLoaders) secondLoads
    ServedBy s (.loadClass "Job") true ∧ ¬ServedBy s (.getResource "job.xml") true := by
  intro s
  have hs := (candidate_honoured twoLoaders secondLoads true rfl).1
  constructor
  · apply (hs (.loadClass "Job") rfl).mpr
    exact fun hr => nomatch hr
  · intro hserved
    have hun := (hs (.getResource "job.xml") rfl).mp hserved
    have hfirst := (unshadowed_iff rfl).mp hun rfl
    cases hfirst

/-- A resource that both loaders have comes from the first, although the second is the
candidate, and has it. -/
theorem candidate_not_honoured :
    ¬∀ (E : Helpers) (calls : List (Call E)) (best : E.Helper) (lookup : Lookup),
      ((machine E).after (.new E) calls).bestCandidate = some best →
      lookup.answeredBy best = true →
      ServedBy ((machine E).after (.new E) calls) lookup best := by
  intro h
  have hserved := h twoLoaders secondLoads true (.getResource "job.xml") rfl rfl
  cases hserved.2

end MySchedule.ClassLoading.Spring
