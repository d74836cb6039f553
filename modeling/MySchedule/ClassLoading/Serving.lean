import MySchedule.ClassLoading.Helpers

/-!
# Which helper serves a lookup

A candidate that loads the class that is looked for serves it. Every other lookup is
served by the first helper that can answer it. This is what both copies of the
cascading helper do; they differ in the candidate they are left with when nobody
serves a lookup.
-/

namespace MySchedule.ClassLoading

variable {E : Helpers}

/-- The helper that serves a lookup. -/
def server (helpers : List E.Helper) (best : Option E.Helper) (lookup : Lookup) :
    Option E.Helper :=
  (best.filter fun h => !lookup.ofResource && lookup.answeredBy h).or
    (firstAnswering helpers lookup)

/-- The candidate, if there is one, is in the list. -/
def Listed (helpers : List E.Helper) (best : Option E.Helper) : Prop :=
  ∀ h, best = some h → h ∈ helpers

variable {helpers : List E.Helper} {best : Option E.Helper} {lookup : Lookup} {h : E.Helper}

theorem listed_none : Listed helpers none := fun _ hb => nomatch hb

theorem server_of_resource (hr : lookup.ofResource = true) :
    server helpers best lookup = firstAnswering helpers lookup := by
  have hnot : best.filter (fun h => !lookup.ofResource && lookup.answeredBy h) = none := by
    cases best <;> simp [Option.filter, hr]
  rw [server, hnot, Option.none_or]

theorem server_of_best {name : String} (ha : Lookup.answeredBy (.loadClass name) h = true) :
    server helpers (some h) (.loadClass name) = some h := by
  simp [server, Option.filter, Lookup.ofResource, ha]

/-- A candidate that cannot load the class is passed over. -/
theorem server_of_front {name : String}
    (hb : ∀ h, best = some h → Lookup.answeredBy (.loadClass name) h = false) :
    server helpers best (.loadClass name) = firstAnswering helpers (.loadClass name) := by
  have hnot : best.filter (fun h => !(Lookup.loadClass name).ofResource &&
      (Lookup.loadClass name).answeredBy h) = none := by
    cases best with
    | none => rfl
    | some h => simp [Option.filter, hb h rfl]
  rw [server, hnot, Option.none_or]

/-- The helper that serves a lookup has what is looked for. -/
theorem answeredBy_of_server (hs : server helpers best lookup = some h) :
    lookup.answeredBy h = true := by
  rcases Option.or_eq_some_iff.mp hs with hbest | ⟨_, hfirst⟩
  · have hboth := (Option.filter_eq_some_iff.mp hbest).2
    rw [Bool.and_eq_true] at hboth
    exact hboth.2
  · exact answeredBy_of_firstAnswering hfirst

theorem mem_of_server (hl : Listed helpers best) (hs : server helpers best lookup = some h) :
    h ∈ helpers := by
  rcases Option.or_eq_some_iff.mp hs with hbest | ⟨_, hfirst⟩
  · exact hl h (Option.filter_eq_some_iff.mp hbest).1
  · exact mem_of_firstAnswering hfirst

theorem firstAnswering_of_server (hs : server helpers best lookup = none) :
    firstAnswering helpers lookup = none := (Option.or_eq_none_iff.mp hs).2

/-- A lookup is served exactly when some helper has what is looked for. -/
theorem server_ne_none_iff (hl : Listed helpers best) :
    server helpers best lookup ≠ none ↔ ∃ h ∈ helpers, lookup.answeredBy h = true := by
  constructor
  · intro hs
    obtain ⟨h, hh⟩ := Option.ne_none_iff_exists'.mp hs
    exact ⟨h, mem_of_server hl hh, answeredBy_of_server hh⟩
  · rintro ⟨h, hmem, ha⟩ hs
    have hnot := not_answeredBy_of_firstAnswering (firstAnswering_of_server hs) hmem
    rw [ha] at hnot
    cases hnot

end MySchedule.ClassLoading
