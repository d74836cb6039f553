import MySchedule.Registration.FactoryBean
import MySchedule.Keyed.Lists

/-!
# The store a registration is meant to leave

Stated without the loops of the bean: which configured entry wins for each key,
given the store before. When existing data is overwritten the last configured
entry wins, and job details carried by triggers yield to configured ones. When
it is kept, what is there wins, then the first entry, and only a trigger that is
new brings its job detail along.
-/

namespace MySchedule.Registration

open Keyed

/-- The job detail a trigger carries along, if it is aware of one. -/
def Trigger.carried (t : Trigger) : Option JobDetail :=
  match t.kind with
  | .plain => none
  | .jobDetailAware jobDetail => jobDetail

/-- The job details carried by a list of triggers, in their order. -/
def carriedJobs (ts : List Trigger) : List JobDetail := ts.filterMap Trigger.carried

namespace BeanConfig

variable (cfg : BeanConfig)

def jobList : List JobDetail := cfg.jobDetails.getD []

def triggerList : List Trigger := cfg.triggers.getD []

def calendarMap : AList fun _ : String => Calendar := cfg.calendars.getD ∅

end BeanConfig

/-- After the triggers `pre`, trigger `t` is new: neither in the store at the start nor
configured before. -/
def IsNew (s₀ : Store) (pre : List Trigger) (t : Trigger) : Prop :=
  s₀.triggers t.key = none ∧ t.key ∉ pre.map Trigger.key

instance (s₀ : Store) (pre : List Trigger) (t : Trigger) : Decidable (IsNew s₀ pre t) :=
  inferInstanceAs (Decidable (_ ∧ _))

/-- The triggers of a list, coming after `pre`, that are new when their turn comes. -/
def newTriggers (s₀ : Store) : List Trigger → List Trigger → List Trigger
  | _, [] => []
  | pre, t :: ts =>
    (if IsNew s₀ pre t then [t] else []) ++ newTriggers s₀ (pre ++ [t]) ts

theorem newTriggers_append (s₀ : Store) (pre ts us : List Trigger) :
    newTriggers s₀ pre (ts ++ us) = newTriggers s₀ pre ts ++ newTriggers s₀ (pre ++ ts) us := by
  induction ts generalizing pre with
  | nil => simp [newTriggers]
  | cons t ts ih => simp [newTriggers, ih]

section

variable (cfg : BeanConfig) (s₀ : Store)

/-- The triggers whose turn registers their job detail. -/
def consideredTriggers (ts : List Trigger) : List Trigger :=
  if cfg.overwriteExistingJobs then ts else newTriggers s₀ [] ts

/-- Whether the turn of `t`, after `pre`, registers its job detail. -/
def Considered (pre : List Trigger) (t : Trigger) : Prop :=
  cfg.overwriteExistingJobs = true ∨ IsNew s₀ pre t

instance (pre : List Trigger) (t : Trigger) : Decidable (Considered cfg s₀ pre t) :=
  inferInstanceAs (Decidable (_ ∨ _))

/-- The job details that triggers bring along, in the order of their turns. -/
def broughtJobs (ts : List Trigger) : List JobDetail := carriedJobs (consideredTriggers cfg s₀ ts)

/-- What job key `k` holds in the end. -/
def expectedJob (k : JobKey) : Option JobDetail :=
  if cfg.overwriteExistingJobs then
    (last JobDetail.key k cfg.jobList).or
      ((first JobDetail.key k (broughtJobs cfg s₀ cfg.triggerList)).or (s₀.jobs k))
  else
    (s₀.jobs k).or ((first JobDetail.key k cfg.jobList).or
      (first JobDetail.key k (broughtJobs cfg s₀ cfg.triggerList)))

/-- What trigger key `k` holds in the end. -/
def expectedTrigger (k : TriggerKey) : Option Trigger :=
  if cfg.overwriteExistingJobs then
    (last Trigger.key k cfg.triggerList).or (s₀.triggers k)
  else (s₀.triggers k).or (first Trigger.key k cfg.triggerList)

/-- What calendar `n` holds in the end: calendars are always replaced. -/
def expectedCalendar (n : String) : Option Calendar :=
  (cfg.calendarMap.lookup n).or (s₀.calendars n)

/-- The store a registration is meant to leave. -/
def expectedStore : Store :=
  ⟨expectedJob cfg s₀, expectedTrigger cfg s₀, expectedCalendar cfg s₀⟩

/-- A job that is there when trigger number `pre.length` is scheduled. -/
def JobAvailable (ts : List Trigger) (k : JobKey) : Prop :=
  s₀.jobs k ≠ none ∨ k ∈ (cfg.jobList ++ broughtJobs cfg s₀ ts).map JobDetail.key

/-- No trigger of the list makes its turn fail: a job detail that is to be registered is
not null, and a trigger that is to be scheduled has its job. -/
def Schedulable (ts : List Trigger) : Prop :=
  ∀ pre t, pre ++ [t] <+: ts →
    (Considered cfg s₀ pre t → t.kind ≠ .jobDetailAware none) ∧
      (IsNew s₀ pre t → JobAvailable cfg s₀ (pre ++ [t]) t.jobKey)

end

variable {cfg : BeanConfig} {s₀ : Store} {ts : List Trigger} {t : Trigger}

theorem broughtJobs_append_singleton :
    broughtJobs cfg s₀ (ts ++ [t]) = broughtJobs cfg s₀ ts ++
      (if Considered cfg s₀ ts t then t.carried.toList else []) := by
  unfold broughtJobs consideredTriggers Considered carriedJobs
  by_cases ho : cfg.overwriteExistingJobs = true
  · simp only [ho, if_true, true_or, List.filterMap_append]
    cases h : t.carried <;> simp [h]
  · by_cases hn : IsNew s₀ ts t
    · simp only [ho, hn, newTriggers_append]
      cases h : t.carried <;> simp [newTriggers, hn, h]
    · simp [ho, hn, newTriggers_append, newTriggers]

theorem broughtJobs_mono {pre : List Trigger} (h : pre <+: ts) :
    broughtJobs cfg s₀ pre <+: broughtJobs cfg s₀ ts := by
  obtain ⟨post, rfl⟩ := h
  unfold broughtJobs consideredTriggers carriedJobs
  split
  · exact ⟨_, (List.filterMap_append ..).symm⟩
  · rw [newTriggers_append, List.filterMap_append]
    exact ⟨_, rfl⟩

theorem schedulable_nil : Schedulable cfg s₀ [] := by
  intro pre t h
  simp at h

theorem Schedulable.snoc (h : Schedulable cfg s₀ ts)
    (hkind : Considered cfg s₀ ts t → t.kind ≠ .jobDetailAware none)
    (hjob : IsNew s₀ ts t → JobAvailable cfg s₀ (ts ++ [t]) t.jobKey) :
    Schedulable cfg s₀ (ts ++ [t]) := by
  intro pre u hu
  rcases List.prefix_concat_iff.mp hu with he | hu
  · obtain ⟨rfl, hs⟩ := List.append_inj' he rfl
    obtain rfl : u = t := by simpa using hs
    exact ⟨hkind, hjob⟩
  · exact h pre u hu

end MySchedule.Registration
