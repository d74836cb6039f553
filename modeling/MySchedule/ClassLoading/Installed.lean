import MySchedule.ClassLoading.Extra
import MySchedule.ClassLoading.Candidate

/-!
# Helpers that a subclass installs

A subclass of `org.quartz.extra.CascadingClassLoadHelperExt` may fill `classLoadHelpers`
before it calls `initialize`, which makes a new list. What was installed is neither
initialized nor asked.
-/

namespace MySchedule.ClassLoading.Extra

open Java Machines

variable {E : Helpers}

/-- After any calls the list is the default one. -/
theorem valid_after (d : Defaults E) (calls : List Query) :
    let s := (queries E).after (initializeHelpers d) calls
    s.Valid ∧ s.classLoadHelpers = d.list := by
  apply Machine.invariant (I := fun s : Cascade E => s.Valid ∧ s.classLoadHelpers = d.list)
  · intro s query h
    cases query with
    | lookup lookup => exact lookUp_keeps h lookup
    | getClassLoader => exact h
  · exact initializeHelpers_keeps d

variable [DecidableEq E.Helper]

/-- `loadHelper.initialize()` for every helper of a list, by the number of calls so far. -/
def initializeAll (helpers : List E.Helper) (initialized : E.Helper → ℕ) : E.Helper → ℕ :=
  helpers.foldl (fun counts h => Function.update counts h (counts h + 1)) initialized

/-- `initialize` on a helper whose fields a subclass may have set; `d` are the new objects. -/
def initializeInstalled (d : Defaults E) (s : Cascade E) (initialized : E.Helper → ℕ) :
    Cascade E × (E.Helper → ℕ) :=
  ({ s with classLoadHelpers := d.list }, initializeAll d.list initialized)

/-- The helper after a subclass has installed its helpers and `initialize` has run. -/
def installedCascade (d : Defaults E) (installed : List E.Helper) : Cascade E :=
  (initializeInstalled d ⟨installed, none⟩ fun _ => 0).1

/-- Every lookup, after any calls, finds what an installed helper has. -/
def LookupsSurvive (d : Defaults E) (installed : List E.Helper) : Prop :=
  ∀ (calls : List Query) (lookup : Lookup), (∃ h ∈ installed, lookup.answeredBy h = true) →
    (lookUp ((queries E).after (installedCascade d installed) calls) lookup).1.found = true

/-- What the extension point is for: every installed helper is initialized once, and asked. -/
structure InstalledSurvive (d : Defaults E) (installed : List E.Helper) : Prop where
  once (h : E.Helper) (hh : h ∈ installed) :
    (initializeInstalled d ⟨installed, none⟩ fun _ => 0).2 h = 1
  found : LookupsSurvive d installed

variable {d : Defaults E} {installed : List E.Helper}

theorem initializeAll_apply (helpers : List E.Helper) (initialized : E.Helper → ℕ)
    (h : E.Helper) : initializeAll helpers initialized h = initialized h + helpers.count h := by
  induction helpers generalizing initialized with
  | nil => rfl
  | cons h' helpers ih =>
    have hstep := ih (Function.update initialized h' (initialized h' + 1))
    rw [List.count_cons]
    by_cases he : h' = h
    · subst he
      rw [Function.update_self] at hstep
      rw [beq_self_eq_true, if_pos rfl, ← Nat.add_assoc, Nat.add_right_comm]
      exact hstep
    · rw [Function.update_of_ne (Ne.symm he)] at hstep
      rw [if_neg (by simpa using he), Nat.add_zero]
      exact hstep

/-- The list is the default one, whatever was installed. -/
theorem installedCascade_eq (d : Defaults E) (installed : List E.Helper) :
    installedCascade d installed = initializeHelpers d := rfl

/-- The lookups miss nothing exactly when the default helpers have all that the installed ones
have. -/
theorem lookupsSurvive_iff (d : Defaults E) (installed : List E.Helper) :
    LookupsSurvive d installed ↔ ∀ lookup : Lookup,
      (∃ h ∈ installed, lookup.answeredBy h = true) →
        ∃ h ∈ d.list, lookup.answeredBy h = true := by
  have hfound : ∀ (calls : List Query) (lookup : Lookup),
      (lookUp ((queries E).after (installedCascade d installed) calls) lookup).1.found = true ↔
        ∃ h ∈ d.list, lookup.answeredBy h = true := by
    intro calls lookup
    obtain ⟨hv, hlist⟩ := valid_after d calls
    rw [installedCascade_eq, Extra.found_iff hv, hlist]
  constructor
  · intro h lookup hhas
    exact (hfound [] lookup).mp (h [] lookup hhas)
  · intro h calls lookup hhas
    exact (hfound calls lookup).mpr (h lookup hhas)

/-- No installed helper survives: `initialize` does what the extension point promises exactly
when nothing was installed. The default helpers are new objects. -/
theorem installedSurvive_iff (d : Defaults E) (installed : List E.Helper)
    (hnew : ∀ h ∈ installed, h ∉ d.list) : InstalledSurvive d installed ↔ installed = [] := by
  constructor
  · intro hsurvive
    rw [List.eq_nil_iff_forall_not_mem]
    intro h hh
    have honce := hsurvive.once h hh
    change initializeAll d.list (fun _ => 0) h = 1 at honce
    rw [initializeAll_apply, List.count_eq_zero_of_not_mem (hnew h hh)] at honce
    cases honce
  · rintro rfl
    refine ⟨fun h hh => ?_, (lookupsSurvive_iff d []).mpr fun lookup ⟨h, hh, _⟩ => ?_⟩
    · cases hh
    · cases hh

instance : DecidableEq Spring.twoLoaders.Helper := inferInstanceAs (DecidableEq Bool)

/-- Default helpers that load no class. -/
def noClasses : Defaults Spring.twoLoaders := ⟨false, false, false, false⟩

/-- A helper that was installed for its classes does not survive. -/
theorem noClasses_installed : ¬ InstalledSurvive noClasses [true] := by
  intro h
  have honce := h.once true (List.mem_cons_self ..)
  cases honce

/-- One helper installed over these defaults survives only if it was not installed. -/
theorem noClasses_survive_iff : InstalledSurvive noClasses [true] ↔ [true] = [] :=
  installedSurvive_iff noClasses [true] (by decide)

end MySchedule.ClassLoading.Extra
