import MySchedule.Registration.SingleRun
import MySchedule.Machines.Runs

/-!
# Registrations one after the other

Applications are deployed again and again on one persistent scheduler, and each
deployment registers its configuration, whether it succeeds or not. What has been
deployed once is deployed again without a change, jobs and triggers are never
lost on the way, and beans that are configured for different keys may be deployed
in any order.
-/

namespace MySchedule.Registration

open Interaction Java Keyed Machines

section

variable {cfg : BeanConfig} {s₀ s : Store}

/-- Everything the bean is configured with is in the store. -/
structure Deployed (cfg : BeanConfig) (s : Store) : Prop where
  jobs : ∀ j ∈ cfg.jobList, s.jobs j.key ≠ none
  triggers : ∀ t ∈ cfg.triggerList, s.triggers t.key ≠ none

/-- Once deployed, no trigger is new. -/
theorem Deployed.not_isNew (h : Deployed cfg s) {pre : List Trigger} {t : Trigger}
    (ht : pre ++ [t] <+: cfg.triggerList) : ¬IsNew s pre t := by
  rintro ⟨hnone, _⟩
  exact h.triggers t (ht.subset (by simp)) hnone

/-- Triggers that are all there bring no new one. -/
theorem newTriggers_eq_nil {pre ts : List Trigger} (h : ∀ t ∈ ts, s.triggers t.key ≠ none) :
    newTriggers s pre ts = [] := by
  induction ts generalizing pre with
  | nil => rfl
  | cons t ts ih =>
    have ht : ¬IsNew s pre t := fun hnew => h t List.mem_cons_self hnew.1
    rw [newTriggers, if_neg ht, List.nil_append]
    exact ih fun u hu => h u (List.mem_cons_of_mem t hu)

/-- Where existing data is kept, a deployed bean changes neither jobs nor triggers. -/
theorem Deployed.expectedStore_eq (h : Deployed cfg s) (ho : cfg.overwriteExistingJobs = false) :
    expectedStore cfg s = ⟨s.jobs, s.triggers, expectedCalendar cfg s⟩ := by
  have hbrought : broughtJobs cfg s cfg.triggerList = [] := by
    simp [broughtJobs, consideredTriggers, ho, newTriggers_eq_nil h.triggers, carriedJobs]
  refine Store.ext (funext fun k => ?_) (funext fun k => ?_) rfl
  · change expectedJob cfg s k = s.jobs k
    cases hk : s.jobs k with
    | some j => simp [expectedJob, ho, hk]
    | none =>
      have hlist : first JobDetail.key k cfg.jobList = none := by
        refine first_eq_none.mpr fun j hj he => h.jobs j hj ?_
        rw [he, hk]
      have hnil : first JobDetail.key k ([] : List JobDetail) = none := rfl
      simp [expectedJob, ho, hk, hlist, hbrought, hnil]
  · change expectedTrigger cfg s k = s.triggers k
    cases hk : s.triggers k with
    | some t => simp [expectedTrigger, ho, hk]
    | none =>
      rw [expectedTrigger_of_keeping ho hk]
      refine first_eq_none.mpr fun t ht he => h.triggers t ht ?_
      rw [he, hk]

/-- The expected store has what the bean is configured with. -/
theorem deployed_expectedStore (cfg : BeanConfig) (s₀ : Store) :
    Deployed cfg (expectedStore cfg s₀) := by
  refine ⟨fun j hj => ?_, fun t ht => ?_⟩
  · have hk : j.key ∈ cfg.jobList.map JobDetail.key := List.mem_map_of_mem hj
    change expectedJob cfg s₀ j.key ≠ none
    obtain ⟨jl, hl⟩ := Option.ne_none_iff_exists'.mp (last_ne_none.mpr hk)
    obtain ⟨jf, hf⟩ := Option.ne_none_iff_exists'.mp (first_ne_none.mpr hk)
    unfold expectedJob
    split
    · simp [hl]
    · simp [hf]
  · have hk : t.key ∈ cfg.triggerList.map Trigger.key := List.mem_map_of_mem ht
    change expectedTrigger cfg s₀ t.key ≠ none
    obtain ⟨tl, hl⟩ := Option.ne_none_iff_exists'.mp (last_ne_none.mpr hk)
    obtain ⟨tf, hf⟩ := Option.ne_none_iff_exists'.mp (first_ne_none.mpr hk)
    unfold expectedTrigger
    split
    · simp [hl]
    · simp [hf]

/-- The expected store is expected of itself. -/
theorem expectedStore_idem (cfg : BeanConfig) (s₀ : Store) :
    expectedStore cfg (expectedStore cfg s₀) = expectedStore cfg s₀ := by
  have hcal : expectedCalendar cfg (expectedStore cfg s₀) = expectedCalendar cfg s₀ := by
    funext n
    change (cfg.calendarMap.lookup n).or ((cfg.calendarMap.lookup n).or (s₀.calendars n)) = _
    rw [← Option.or_assoc, Option.or_self]
    rfl
  cases ho : cfg.overwriteExistingJobs with
  | false =>
    rw [(deployed_expectedStore cfg s₀).expectedStore_eq ho, hcal]
    rfl
  | true =>
    refine Store.ext (funext fun k => ?_) (funext fun k => ?_) hcal
    · change expectedJob cfg (expectedStore cfg s₀) k = expectedJob cfg s₀ k
      have hbrought : broughtJobs cfg (expectedStore cfg s₀) cfg.triggerList =
          broughtJobs cfg s₀ cfg.triggerList := by simp [broughtJobs, consideredTriggers, ho]
      have hstore : (expectedStore cfg s₀).jobs k = (last JobDetail.key k cfg.jobList).or
          ((first JobDetail.key k (broughtJobs cfg s₀ cfg.triggerList)).or (s₀.jobs k)) := by
        simp [expectedStore, expectedJob, ho]
      simp only [expectedJob, ho, if_true, hbrought, hstore]
      cases last JobDetail.key k cfg.jobList with
      | some j => rfl
      | none => cases first JobDetail.key k (broughtJobs cfg s₀ cfg.triggerList) <;> rfl
    · change expectedTrigger cfg (expectedStore cfg s₀) k = expectedTrigger cfg s₀ k
      simp only [expectedTrigger, ho, if_true, expectedStore]
      rw [← Option.or_assoc, Option.or_self]

/-- A bean that could be deployed once can be deployed again. -/
theorem Schedulable.of_deployed (h : Schedulable cfg s₀ cfg.triggerList) (hd : Deployed cfg s) :
    Schedulable cfg s cfg.triggerList := by
  intro pre t ht
  refine ⟨fun hc => (h pre t ht).1 (Or.inl ?_), fun hnew => absurd hnew (hd.not_isNew ht)⟩
  exact hc.resolve_right (hd.not_isNew ht)

/-- Once deployed, a configuration can be scheduled again. -/
theorem Deployed.schedulable (hd : Deployed cfg s) (ho : cfg.overwriteExistingJobs = false) :
    Schedulable cfg s cfg.triggerList := by
  intro pre t ht
  refine ⟨fun hc => ?_, fun hnew => absurd hnew (hd.not_isNew ht)⟩
  exact absurd (hc.resolve_left (by simp [ho])) (hd.not_isNew ht)

end

/-! ## Again and again on one scheduler -/

section

variable (processFile : DataProcessor)

/-- The deployments of beans without data files, one after the other. -/
def deployments : Machine Store {cfg : BeanConfig // cfg.jobSchedulingDataLocations = none}
    (Except Throwable Unit) where
  step s cfg :=
    ((registerAlone processFile cfg.1 s).1.1, (registerAlone processFile cfg.1 s).2.store)

variable {cfg : BeanConfig} (hfiles : cfg.jobSchedulingDataLocations = none) (s : Store)

include hfiles in
/-- A deployment leaves a store on the way to the expected one, also when it fails. -/
theorem registerAlone_between : Between cfg s (registerAlone processFile cfg s).2.store := by
  obtain ⟨savepoint, r, b', y, hrun, hend⟩ := registerAlone_course processFile cfg s
  obtain ⟨x, hx, hunder, _⟩ := Registering.registerAll_alone
    (N := firstRegistration processFile cfg s) hfiles beanList_fresh Registering.covers_exec
    (x := ⟨s, savepoint⟩) rfl hrun
  have hy : Between cfg s y.store := by
    have hstore : y.store = x.store := hx
    rw [hstore]
    exact hunder.between
  cases r with
  | ok u => exact hend.2 ▸ hy
  | error ex =>
    rw [hend.2]
    split
    · exact between_refl
    · exact hy

variable {processFile s}

/-- What is deployed stays deployed, whatever is deployed after it. -/
theorem Deployed.after (hd : Deployed cfg s)
    (later : List {cfg : BeanConfig // cfg.jobSchedulingDataLocations = none}) :
    Deployed cfg ((deployments processFile).after s later) := by
  induction later generalizing s with
  | nil => exact hd
  | cons c later ih =>
    rw [Machine.after_cons]
    have hb : Between c.1 s (registerAlone processFile c.1 s).2.store :=
      registerAlone_between processFile c.2 s
    exact ih ⟨fun j hj => hb.job_kept (hd.jobs j hj),
      fun t ht => hb.trigger_kept (hd.triggers t ht)⟩

end

/-- A configuration that was deployed is deployed again without a change. Where it keeps
existing data, this is so after any other deployments in between, failed ones among them: it
succeeds and sets its calendars, and no job or trigger of the store is touched. -/
theorem redeployment_changes_nothing (processFile : DataProcessor) (cfg : BeanConfig)
    (hfiles : cfg.jobSchedulingDataLocations = none) (s₀ s₁ : Store)
    (hrun : (deployments processFile).step s₀ ⟨cfg, hfiles⟩ = (.ok (), s₁)) :
    (deployments processFile).step s₁ ⟨cfg, hfiles⟩ = (.ok (), s₁) ∧
    (cfg.overwriteExistingJobs = false → ∀ later s₂,
      (deployments processFile).after s₁ later = s₂ →
        (deployments processFile).step s₂ ⟨cfg, hfiles⟩ =
          (.ok (), ⟨s₂.jobs, s₂.triggers, expectedCalendar cfg s₂⟩)) := by
  have hstep : ∀ {s : Store}, Schedulable cfg s cfg.triggerList →
      (deployments processFile).step s ⟨cfg, hfiles⟩ = (.ok (), expectedStore cfg s) := by
    intro s hsch
    have hok := (registerAlone_ok_iff processFile s hfiles).mpr hsch
    exact Prod.ext hok (registerAlone_store processFile s hfiles hok)
  have hsch : Schedulable cfg s₀ cfg.triggerList :=
    (registerAlone_ok_iff processFile s₀ hfiles).mp (congrArg Prod.fst hrun)
  obtain rfl : s₁ = expectedStore cfg s₀ := by
    have hs₁ := hrun.symm.trans (hstep hsch)
    exact congrArg Prod.snd hs₁
  have hd : Deployed cfg (expectedStore cfg s₀) := deployed_expectedStore cfg s₀
  refine ⟨?_, fun ho later s₂ hs₂ => ?_⟩
  · rw [hstep (hsch.of_deployed hd), expectedStore_idem]
  · subst hs₂
    have hd₂ : Deployed cfg ((deployments processFile).after (expectedStore cfg s₀) later) :=
      hd.after later
    rw [hstep (hd₂.schedulable ho), hd₂.expectedStore_eq ho]

/-- The duplicates, deployed on an empty scheduler, once more, and again after a bean that fails
and one that overwrites them. -/
theorem redeployment_duplicates : ∃ s₁ s₂,
    (deployments fun _ s => (.ok (), s)).step Store.empty ⟨duplicates false, rfl⟩ = (.ok (), s₁) ∧
      (deployments fun _ s => (.ok (), s)).step s₁ ⟨duplicates false, rfl⟩ = (.ok (), s₁) ∧
      (deployments fun _ s => (.ok (), s)).after s₁
        [⟨danglingTrigger, rfl⟩, ⟨duplicates true, rfl⟩] = s₂ ∧
      (deployments fun _ s => (.ok (), s)).step s₂ ⟨duplicates false, rfl⟩ =
        (.ok (), ⟨s₂.jobs, s₂.triggers, expectedCalendar (duplicates false) s₂⟩) := by
  have hrun : (deployments fun _ s => (.ok (), s)).step Store.empty ⟨duplicates false, rfl⟩ =
      (.ok (), (registerAlone (fun _ s => (.ok (), s)) (duplicates false) Store.empty).2.store) :=
    Prod.ext rfl rfl
  obtain ⟨hagain, hlater⟩ :=
    redeployment_changes_nothing _ (duplicates false) rfl Store.empty _ hrun
  exact ⟨_, _, hrun, hagain, rfl, hlater rfl _ _ rfl⟩

/-! ## Beans for different keys -/

/-- The job keys a bean may write. -/
def BeanConfig.jobKeys (cfg : BeanConfig) : List JobKey :=
  (cfg.jobList ++ carriedJobs cfg.triggerList).map JobDetail.key

/-- Nothing one bean writes is written, or needed by a trigger, of the other. -/
structure Apart (cfg cfg' : BeanConfig) : Prop where
  jobs : ∀ k ∈ cfg.jobKeys, k ∉ cfg'.jobKeys
  triggers : ∀ k ∈ cfg.triggerList.map Trigger.key, k ∉ cfg'.triggerList.map Trigger.key
  calendars : ∀ n ∈ cfg.calendarMap, n ∉ cfg'.calendarMap
  needs : ∀ t ∈ cfg.triggerList, t.jobKey ∉ cfg'.jobKeys
  needs' : ∀ t ∈ cfg'.triggerList, t.jobKey ∉ cfg.jobKeys

/-- To be apart is symmetric. -/
theorem Apart.symm {cfg cfg' : BeanConfig} (h : Apart cfg cfg') : Apart cfg' cfg where
  jobs k hk hk' := h.jobs k hk' hk
  triggers k hk hk' := h.triggers k hk' hk
  calendars n hn hn' := h.calendars n hn' hn
  needs := h.needs'
  needs' := h.needs

section

variable {cfg cfg' : BeanConfig} {s s' : Store}

/-- The new triggers come in the order of the configuration. -/
theorem newTriggers_sublist (s : Store) (pre ts : List Trigger) :
    (newTriggers s pre ts).Sublist ts := by
  induction ts generalizing pre with
  | nil => exact List.Sublist.refl []
  | cons t ts ih =>
    rw [newTriggers]
    split
    · exact (ih _).cons_cons t
    · exact (ih _).cons t

/-- Only configured job details are brought along. -/
theorem broughtJobs_subset {j : JobDetail} (hj : j ∈ broughtJobs cfg s cfg.triggerList) :
    j.key ∈ cfg.jobKeys := by
  have hmem : j ∈ carriedJobs cfg.triggerList := by
    unfold broughtJobs consideredTriggers at hj
    split at hj
    · exact hj
    · exact ((newTriggers_sublist s [] _).filterMap _).subset hj
  rw [BeanConfig.jobKeys, List.map_append]
  exact List.mem_append_right _ (List.mem_map_of_mem hmem)

/-- A job of another key is left as it is. -/
theorem expectedJob_of_not_mem {k : JobKey} (hk : k ∉ cfg.jobKeys) :
    expectedJob cfg s k = s.jobs k := by
  have hlist : k ∉ cfg.jobList.map JobDetail.key := by
    rw [BeanConfig.jobKeys, List.map_append, List.mem_append, not_or] at hk
    exact hk.1
  have hlast : last JobDetail.key k cfg.jobList = none := last_eq_none.mpr hlist
  have hfirst : first JobDetail.key k cfg.jobList = none :=
    not_ne_iff.mp (mt first_ne_none.mp hlist)
  have hbrought : first JobDetail.key k (broughtJobs cfg s cfg.triggerList) = none :=
    first_eq_none.mpr fun j hj he => hk (he ▸ broughtJobs_subset hj)
  unfold expectedJob
  split
  · simp [hlast, hbrought]
  · simp [hfirst, hbrought]

/-- A trigger of another key is left as it is. -/
theorem expectedTrigger_of_not_mem {k : TriggerKey} (hk : k ∉ cfg.triggerList.map Trigger.key) :
    expectedTrigger cfg s k = s.triggers k := by
  have hlast : last Trigger.key k cfg.triggerList = none := last_eq_none.mpr hk
  have hfirst : first Trigger.key k cfg.triggerList = none :=
    not_ne_iff.mp (mt first_ne_none.mp hk)
  unfold expectedTrigger
  split
  · simp [hlast]
  · simp [hfirst]

/-- The stores agree on what decides the course of a registration. -/
structure AgreeFor (cfg : BeanConfig) (s s' : Store) : Prop where
  triggers : ∀ t ∈ cfg.triggerList, s.triggers t.key = s'.triggers t.key
  jobs : ∀ t ∈ cfg.triggerList, s.jobs t.jobKey = s'.jobs t.jobKey

/-- Whether a trigger is new depends on the store at its key alone. -/
theorem isNew_congr {pre : List Trigger} {t : Trigger} (h : s.triggers t.key = s'.triggers t.key) :
    IsNew s pre t ↔ IsNew s' pre t := by
  rw [IsNew, IsNew, h]

/-- Which triggers are new depends on the store at their keys alone. -/
theorem newTriggers_congr {pre ts : List Trigger}
    (h : ∀ t ∈ ts, s.triggers t.key = s'.triggers t.key) :
    newTriggers s pre ts = newTriggers s' pre ts := by
  induction ts generalizing pre with
  | nil => rfl
  | cons t ts ih =>
    rw [newTriggers, newTriggers, ih fun u hu => h u (List.mem_cons_of_mem t hu)]
    simp only [isNew_congr (h t List.mem_cons_self)]

/-- Stores that agree for a configuration have the same jobs brought. -/
theorem AgreeFor.broughtJobs_eq (h : AgreeFor cfg s s') {ts : List Trigger}
    (hts : ts ⊆ cfg.triggerList) : broughtJobs cfg s ts = broughtJobs cfg s' ts := by
  unfold broughtJobs consideredTriggers
  rw [newTriggers_congr fun t ht => h.triggers t (hts ht)]

/-- Stores that agree for a configuration can both be deployed to, or neither. -/
theorem AgreeFor.schedulable_iff (h : AgreeFor cfg s s') :
    Schedulable cfg s cfg.triggerList ↔ Schedulable cfg s' cfg.triggerList := by
  refine forall_congr' fun pre => forall_congr' fun t => forall_congr' fun hpre => ?_
  have ht : t ∈ cfg.triggerList := hpre.subset (by simp)
  have hnew : IsNew s pre t ↔ IsNew s' pre t := isNew_congr (h.triggers t ht)
  simp only [Considered, JobAvailable, hnew, h.jobs t ht, h.broughtJobs_eq hpre.subset]

/-- What a bean makes of a key depends on that key and on what decides its course. -/
theorem AgreeFor.expectedJob_eq (h : AgreeFor cfg s s') {k : JobKey} (hk : s.jobs k = s'.jobs k) :
    expectedJob cfg s k = expectedJob cfg s' k := by
  unfold expectedJob
  rw [hk, h.broughtJobs_eq (List.Subset.refl _)]

/-- What is expected at a key depends on the store at that key alone. -/
theorem expectedTrigger_congr {k : TriggerKey} (hk : s.triggers k = s'.triggers k) :
    expectedTrigger cfg s k = expectedTrigger cfg s' k := by
  unfold expectedTrigger
  rw [hk]

/-- The other bean leaves what decides the course of this one. -/
theorem Apart.agreeFor (h : Apart cfg cfg') (s : Store) :
    AgreeFor cfg (expectedStore cfg' s) s where
  triggers t ht := expectedTrigger_of_not_mem (h.triggers t.key (List.mem_map_of_mem ht))
  jobs t ht := expectedJob_of_not_mem (h.needs t ht)

/-- The stores expected of two configurations apart commute. -/
theorem Apart.expectedStore_comm (h : Apart cfg cfg') (s : Store) :
    expectedStore cfg (expectedStore cfg' s) = expectedStore cfg' (expectedStore cfg s) := by
  refine Store.ext (funext fun k => ?_) (funext fun k => ?_) (funext fun n => ?_)
  · change expectedJob cfg (expectedStore cfg' s) k = expectedJob cfg' (expectedStore cfg s) k
    by_cases hk : k ∈ cfg.jobKeys
    · have hk' : k ∉ cfg'.jobKeys := h.jobs k hk
      rw [expectedJob_of_not_mem hk']
      exact (h.agreeFor s).expectedJob_eq (expectedJob_of_not_mem hk')
    · rw [expectedJob_of_not_mem hk]
      exact ((h.symm.agreeFor s).expectedJob_eq (expectedJob_of_not_mem hk)).symm
  · change expectedTrigger cfg (expectedStore cfg' s) k =
      expectedTrigger cfg' (expectedStore cfg s) k
    by_cases hk : k ∈ cfg.triggerList.map Trigger.key
    · have hk' := h.triggers k hk
      rw [expectedTrigger_of_not_mem hk']
      exact expectedTrigger_congr (expectedTrigger_of_not_mem hk')
    · rw [expectedTrigger_of_not_mem hk]
      exact (expectedTrigger_congr (expectedTrigger_of_not_mem hk)).symm
  · change (cfg.calendarMap.lookup n).or ((cfg'.calendarMap.lookup n).or (s.calendars n)) =
      (cfg'.calendarMap.lookup n).or ((cfg.calendarMap.lookup n).or (s.calendars n))
    by_cases hn : n ∈ cfg.calendarMap
    · rw [AList.lookup_eq_none.mpr (h.calendars n hn), Option.none_or, Option.none_or]
    · rw [AList.lookup_eq_none.mpr hn, Option.none_or, Option.none_or]

end

/-- Two beans that write different keys, and no job that a trigger of the other fires, may be
deployed in either order: both deployments succeed in the one order if and only if they do in
the other, and the store is then the same. -/
theorem deployments_commute (processFile : DataProcessor)
    (c c' : {cfg : BeanConfig // cfg.jobSchedulingDataLocations = none}) (h : Apart c.1 c'.1)
    (s : Store) :
    (((deployments processFile).step s c).1 = .ok () ∧
        ((deployments processFile).step ((deployments processFile).step s c).2 c').1 = .ok () ↔
      ((deployments processFile).step s c').1 = .ok () ∧
        ((deployments processFile).step ((deployments processFile).step s c').2 c).1 = .ok ()) ∧
    (((deployments processFile).step s c).1 = .ok () →
      ((deployments processFile).step ((deployments processFile).step s c).2 c').1 = .ok () →
        (deployments processFile).after s [c, c'] = (deployments processFile).after s [c', c]) := by
  have hstore : ∀ (c : {cfg : BeanConfig // cfg.jobSchedulingDataLocations = none}) (s : Store),
      ((deployments processFile).step s c).1 = .ok () →
        ((deployments processFile).step s c).2 = expectedStore c.1 s :=
    fun c s => registerAlone_store processFile s c.2
  have hiff : ∀ (c : {cfg : BeanConfig // cfg.jobSchedulingDataLocations = none}) (s : Store),
      ((deployments processFile).step s c).1 = .ok () ↔ Schedulable c.1 s c.1.triggerList :=
    fun c s => registerAlone_ok_iff processFile s c.2
  have hboth : ∀ {c c' : {cfg : BeanConfig // cfg.jobSchedulingDataLocations = none}},
      Apart c.1 c'.1 → (((deployments processFile).step s c).1 = .ok () ∧
        ((deployments processFile).step ((deployments processFile).step s c).2 c').1 = .ok () ↔
          Schedulable c.1 s c.1.triggerList ∧ Schedulable c'.1 s c'.1.triggerList) := by
    intro c c' h
    rw [hiff c s]
    refine and_congr_right fun hsch => ?_
    rw [hstore c s ((hiff c s).mpr hsch), hiff c', (h.symm.agreeFor s).schedulable_iff]
  refine ⟨?_, fun hok hok' => ?_⟩
  · rw [hboth h, hboth h.symm, and_comm]
  · obtain ⟨hok₂, hok₂'⟩ := (hboth h.symm).mpr ((hboth h).mp ⟨hok, hok'⟩).symm
    simp only [Machine.after_cons, Machine.after_nil]
    rw [hstore c' _ hok', hstore c s hok, hstore c _ hok₂', hstore c' s hok₂,
      h.expectedStore_comm]

/-- A bean with one job, one trigger that fires it, and one calendar. -/
def weekly : BeanConfig where
  transactionManager := true
  overwriteExistingJobs := true
  jobSchedulingDataLocations := none
  jobDetails := some [⟨⟨"report", "weekly"⟩, "v1"⟩]
  calendars := some (AList.singleton "holidays" ⟨"none"⟩)
  triggers := some [⟨⟨"on monday", "weekly"⟩, ⟨"report", "weekly"⟩, .plain, "8:00"⟩]

/-- The two configurations of the example are apart. -/
theorem apart_duplicates_weekly : Apart (duplicates false) weekly where
  jobs := by decide
  triggers := by decide
  calendars n hn := by simp [duplicates, BeanConfig.calendarMap] at hn
  needs := by decide
  needs' := by decide

/-- The duplicates and the weekly report, in either order. -/
theorem deployments_duplicates_weekly :
    (deployments fun _ s => (.ok (), s)).after Store.empty
        [⟨duplicates false, rfl⟩, ⟨weekly, rfl⟩] =
      (deployments fun _ s => (.ok (), s)).after Store.empty
        [⟨weekly, rfl⟩, ⟨duplicates false, rfl⟩] :=
  (deployments_commute (fun _ s => (.ok (), s)) ⟨duplicates false, rfl⟩ ⟨weekly, rfl⟩
    apart_duplicates_weekly Store.empty).2 rfl rfl

end MySchedule.Registration
