import MySchedule.Registration.NodeContract

/-!
# What the phases of a registration have in common

The list a bean may start with, how a registration may stop, what it has done
when it completes, and each phase up to the steps that depend on whether
existing jobs are overwritten.
-/

namespace MySchedule.Registration

open Interaction Java Keyed

/-- A job detail that an earlier attempt of the bean added to its list. -/
structure Leaked (cfg : BeanConfig) (s₀ : Store) (j : JobDetail) : Prop where
  notListed : j.key ∉ cfg.jobList.map JobDetail.key
  brought : first JobDetail.key j.key (broughtJobs cfg s₀ cfg.triggerList) = some j
  isNew : cfg.overwriteExistingJobs = false → s₀.jobs j.key = none

/-- The bean's list is the configured one, with `added` from earlier attempts. -/
structure BeanList (cfg : BeanConfig) (s₀ : Store) (added : List JobDetail) (b : Bean) : Prop where
  list : b.jobDetails = none ∧ cfg.jobDetails = none ∧ added = [] ∨
    b.jobDetails = some (cfg.jobList ++ added)
  leaked : ∀ j ∈ added, Leaked cfg s₀ j

/-- The bean's list is what attempts of this configuration leave. -/
def BeanOk (cfg : BeanConfig) (s₀ : Store) (b : Bean) : Prop := ∃ added, BeanList cfg s₀ added b

section

variable {cfg : BeanConfig} {s₀ : Store} {j : JobDetail}

/-- A fresh bean has nothing but its configuration. -/
theorem beanList_fresh : BeanList cfg s₀ [] cfg.freshBean := by
  refine ⟨?_, by simp⟩
  cases h : cfg.jobDetails with
  | none => exact Or.inl ⟨h, rfl, rfl⟩
  | some jobDetails => exact Or.inr (by simp [BeanConfig.freshBean, BeanConfig.jobList, h])

/-- A leaked job is the one expected under its key. -/
theorem Leaked.expected (h : Leaked cfg s₀ j) : expectedJob cfg s₀ j.key = some j := by
  have hl : last JobDetail.key j.key cfg.jobList = none := last_eq_none.mpr h.notListed
  have hf : first JobDetail.key j.key cfg.jobList = none :=
    not_ne_iff.mp (mt first_ne_none.mp h.notListed)
  cases ho : cfg.overwriteExistingJobs with
  | true => simp [expectedJob, ho, hl, h.brought]
  | false => simp [expectedJob, ho, h.isNew ho, hf, h.brought]

/-- A leaked job is one that the configuration speaks of. -/
theorem Leaked.configured (h : Leaked cfg s₀ j) :
    j.key ∈ (configuredJobs cfg s₀).map JobDetail.key := by
  rw [configuredJobs, List.map_append]
  exact List.mem_append_right _ (first_ne_none.mp (by simp [h.brought]))

/-- A leaked job may be written. -/
theorem Leaked.mayPut (h : Leaked cfg s₀ j) : MayPutJob cfg s₀ j :=
  ⟨fun _ => h.configured, fun ho => ⟨h.isNew ho, h.expected⟩⟩

/-- The list tells which job details it contains by their keys. -/
theorem containsJob_iff {jobDetails : List JobDetail} :
    containsJob jobDetails (some j) = true ↔ j.key ∈ jobDetails.map JobDetail.key := by
  simp only [containsJob, JobDetail.equals, List.any_eq_true, decide_eq_true_eq, List.mem_map]

end

namespace Registering

variable {ι : Type} (N : Registering ι)

/-- The registration runs alone, from the start and with a fresh list. -/
structure Solo (added : List JobDetail) : Prop where
  alone : ∀ i, i = N.node
  fresh : added = []
  fromStart : N.base = N.initial

/-- A registration stops for a failure from outside, or because a trigger cannot be
scheduled. -/
def Stopped (_ : Throwable) (b : Bean) (_ : Tracked ι) : Prop :=
  BeanOk N.cfg N.initial b ∧ (N.fault ∨ ¬Schedulable N.cfg N.initial N.cfg.triggerList)

/-- Nothing was written by this node. -/
def Untouched (s : Tracked ι) : Prop :=
  (∀ k, s.jobs.writer k ≠ some N.node) ∧ ∀ k, s.triggers.writer k ≠ some N.node

/-- What a completed registration has done. -/
structure Completed (added : List JobDetail) (b : Bean) (s : Tracked ι) : Prop where
  bean : BeanOk N.cfg N.initial b
  jobs : ∀ k, s.jobs.writer k = some N.node → s.jobs.value k = expectedJob N.cfg N.initial k
  jobs_rest : ∀ k, s.jobs.writer k = none → expectedJob N.cfg N.initial k = N.base.jobs k
  triggers : ∀ k, s.triggers.writer k = some N.node →
    s.triggers.value k = expectedTrigger N.cfg N.initial k
  triggers_rest : ∀ k, s.triggers.writer k = none →
    expectedTrigger N.cfg N.initial k = N.base.triggers k
  calendars : ∀ n, s.calendars n = expectedCalendar N.cfg N.initial n
  schedulable : N.Solo added → Schedulable N.cfg N.initial N.cfg.triggerList

/-- Every job detail this node has come to by the end of the triggers `done`. -/
def jobsSoFar (added : List JobDetail) (done : List Trigger) : List JobDetail :=
  N.cfg.jobList ++ added ++ broughtJobs N.cfg N.initial done

/-- The job keys after the turns of the triggers `done`. -/
structure JobKeys (added : List JobDetail) (done : List Trigger) (s : Tracked ι) : Prop where
  own : ∀ k, s.jobs.writer k = some N.node → k ∈ (N.jobsSoFar added done).map JobDetail.key
  present : ∀ k ∈ (N.jobsSoFar added done).map JobDetail.key, s.jobs.value k ≠ none

/-- The trigger keys after the turns of the triggers `done`. -/
structure TriggerKeys (done : List Trigger) (s : Tracked ι) : Prop where
  own : ∀ k, s.triggers.writer k = some N.node → k ∈ done.map Trigger.key
  present : ∀ k ∈ done.map Trigger.key, s.triggers.value k ≠ none

variable {N} {added : List JobDetail} {done : List Trigger} {t : Trigger}

/-- A trigger that is not there is new. -/
theorem TriggerKeys.isNew {s : Tracked ι} (h : N.TriggerKeys done s) (hs : N.UnderWay s)
    (ht : s.triggers.value t.key = none) : IsNew N.initial done t := by
  refine ⟨?_, fun hm => h.present _ hm ht⟩
  by_contra hp
  exact hs.trigger_present hp ht

/-- Alone, a trigger that is there is not new. -/
theorem TriggerKeys.not_isNew {s : Tracked ι} (h : N.TriggerKeys done s) (hs : N.UnderWay s)
    (hsolo : N.Solo added) (ht : s.triggers.value t.key ≠ none) : ¬IsNew N.initial done t := by
  rintro ⟨hn, hm⟩
  rw [← hsolo.fromStart] at hn
  obtain ⟨i, hi⟩ := Option.ne_none_iff_exists'.mp (hs.triggers.writer_of_new ht hn)
  rw [hsolo.alone i] at hi
  exact hm (h.own _ hi)

/-- Alone, a job that is there is available. -/
theorem JobKeys.available {s : Tracked ι} (h : N.JobKeys added done s) (hs : N.UnderWay s)
    (hsolo : N.Solo added) {k : JobKey} (hk : s.jobs.value k ≠ none) :
    JobAvailable N.cfg N.initial done k := by
  by_cases hb : N.initial.jobs k = none
  · rw [← hsolo.fromStart] at hb
    obtain ⟨i, hi⟩ := Option.ne_none_iff_exists'.mp (hs.jobs.writer_of_new hk hb)
    rw [hsolo.alone i] at hi
    have hm := h.own k hi
    rw [jobsSoFar, hsolo.fresh, List.append_nil] at hm
    exact Or.inr hm
  · exact Or.inl hb

/-- An available job is there. -/
theorem JobKeys.there {s : Tracked ι} (h : N.JobKeys added done s) (hs : N.UnderWay s)
    {k : JobKey} (hk : JobAvailable N.cfg N.initial done k) : s.jobs.value k ≠ none := by
  rcases hk with hk | hk
  · exact hs.job_present hk
  · refine h.present k ?_
    simp only [jobsSoFar, List.map_append, List.mem_append] at hk ⊢
    exact hk.imp_left Or.inl

/-- Other nodes leave the job keys of the turns. -/
theorem settled_jobKeys : N.Settled fun _ s => N.JobKeys added done s := by
  rintro b s u hs hu hl ⟨hown, hpresent⟩
  exact ⟨fun k hk => hown k (hl.jobs.own k hk).1,
    fun k hk => hs.jobs.present_mono hu.jobs hl.jobs.written (hpresent k hk)⟩

/-- Other nodes leave the trigger keys of the turns. -/
theorem settled_triggerKeys : N.Settled fun _ s => N.TriggerKeys done s := by
  rintro b s u hs hu hl ⟨hown, hpresent⟩
  exact ⟨fun k hk => hown k (hl.triggers.own k hk).1,
    fun k hk => hs.triggers.present_mono hu.triggers hl.triggers.written (hpresent k hk)⟩

/-- Why a registration has stopped does not depend on the store. -/
theorem settled_stopped (ex : Throwable) : N.Settled (N.Stopped ex) := Settled.pure _

/-- At the start of a cluster no node has written. -/
theorem untouched_start (base : Store) : N.Untouched (Tracked.start base) :=
  ⟨fun k => by simp [Tracked.start, OwnedMap.untouched],
    fun k => by simp [Tracked.start, OwnedMap.untouched]⟩

/-- A completed registration stays completed. -/
theorem settled_completed : N.Settled fun b s => N.Completed added b s := by
  intro b s u hs hu hl h
  refine ⟨h.bean, fun k hk => ?_, fun k hk => h.jobs_rest k ?_, fun k hk => ?_,
    fun k hk => h.triggers_rest k ?_, fun n => hl.calendars n (h.calendars n), h.schedulable⟩
  · obtain ⟨hw, hv⟩ := hl.jobs.own k hk
    rw [hv, h.jobs k hw]
  · exact not_not.mp (mt (hl.jobs.written k) (not_not.mpr hk))
  · obtain ⟨hw, hv⟩ := hl.triggers.own k hk
    rw [hv, h.triggers k hw]
  · exact not_not.mp (mt (hl.triggers.written k) (not_not.mpr hk))

/-- The configuration's calendar is the one expected. -/
theorem expectedCalendar_of_mem {entry : Sigma fun _ : String => Calendar}
    (h : entry ∈ N.cfg.calendarMap.entries) :
    expectedCalendar N.cfg N.initial entry.1 = some entry.2 := by
  rw [expectedCalendar, AList.mem_lookup_iff.mpr h, Option.some_or]

/-- The calendars under way are the expected ones as soon as all configured ones are. -/
theorem expectedCalendar_of_entries {s : Tracked ι} (hs : N.UnderWay s)
    (h : ∀ entry ∈ N.cfg.calendarMap.entries,
      s.calendars entry.1 = expectedCalendar N.cfg N.initial entry.1) (n : String) :
    s.calendars n = expectedCalendar N.cfg N.initial n := by
  cases hl : N.cfg.calendarMap.lookup n with
  | some c => exact h ⟨n, c⟩ (AList.mem_lookup_iff.mp hl)
  | none =>
    have hx : expectedCalendar N.cfg N.initial n = N.initial.calendars n := by
      rw [expectedCalendar, hl, Option.none_or]
    rcases hs.between.calendars n with h | h
    · exact h.trans hx.symm
    · exact h

/-- The calendar phase, around any condition that calendars do not touch. -/
theorem registerCalendars_spec {p : Bean → Tracked ι → Prop} (hp : N.Settled p)
    (hcal : ∀ b s n c, p b s → p b (s.putCalendar n c))
    (hstop : N.fault → ∀ ex b s, N.UnderWay s → p b s → N.Stopped ex b s) :
    N.Spec p (registerCalendars N.cfg)
      (fun _ b s => p b s ∧ ∀ n, s.calendars n = expectedCalendar N.cfg N.initial n) N.Stopped := by
  let I : List (Sigma fun _ : String => Calendar) → Bean → Tracked ι → Prop := fun d b s =>
    p b s ∧ ∀ entry ∈ d, s.calendars entry.1 = expectedCalendar N.cfg N.initial entry.1
  have hI : ∀ d, N.Settled (I d) := fun d => hp.and fun b s t hs ht hl h entry he =>
    hl.calendars _ (h entry he)
  have hentries : (N.cfg.calendars.map AList.entries).getD [] = N.cfg.calendarMap.entries := by
    cases hc : N.cfg.calendars <;> simp [BeanConfig.calendarMap, hc]
  unfold registerCalendars
  rw [hentries]
  refine ((Spec.forM (I := I) N.cfg.calendarMap.entries (hI _) ?_).pre
    fun b s _ h => ⟨h, by simp⟩).post ?_
  · intro pre entry post he
    have hx : expectedCalendar N.cfg N.initial entry.1 = some entry.2 :=
      expectedCalendar_of_mem (he ▸ by simp)
    refine Spec.addCalendar (hI _) (hI _) settled_stopped hx ?_ fun hf ex b s hs h =>
      hstop hf ex b s hs h.1
    rintro b s hs ⟨hps, hd⟩
    refine ⟨hcal b s _ _ hps, fun entry' he' => ?_⟩
    by_cases hn : entry'.1 = entry.1
    · rw [hn, hx]
      simp [Tracked.putCalendar]
    · have hmem : entry' ∈ pre := by
        rcases List.mem_append.mp he' with h | h
        · exact h
        · rw [List.mem_singleton.mp h] at hn
          exact absurd rfl hn
      simpa only [Tracked.putCalendar, Function.update_of_ne hn] using hd entry' hmem
  · rintro _ b s hs ⟨hps, hd⟩
    exact ⟨hps, expectedCalendar_of_entries hs hd⟩

/-- The job phase, over the configured list and what earlier attempts added to it. -/
theorem registerJobDetails_spec {b₀ : Bean} (hb : BeanList N.cfg N.initial added b₀)
    {D : List JobDetail → Tracked ι → Prop} (hD : ∀ d, N.Settled fun _ s => D d s)
    (hstart : ∀ s, N.Untouched s → D [] s)
    (step : ∀ pre j post, N.cfg.jobList ++ added = pre ++ j :: post →
      N.Spec (fun b s => b = b₀ ∧ D pre s) (addJobToScheduler N.cfg (some j))
        (fun _ b s => b = b₀ ∧ D (pre ++ [j]) s) N.Stopped) :
    N.Spec (fun b s => b = b₀ ∧ N.Untouched s) (registerJobDetails N.cfg)
      (fun _ b s => b.jobDetails = some (N.cfg.jobList ++ added) ∧ D (N.cfg.jobList ++ added) s)
      N.Stopped := by
  have hI : ∀ d, N.Settled fun b s => b = b₀ ∧ D d s := fun d => (Settled.pure _).and (hD d)
  refine Spec.get_bind fun b => ?_
  by_cases hbb : b = b₀
  · subst hbb
    rcases hb.list with ⟨hnone, hcfg, hadded⟩ | hsome
    · rw [hnone]
      have hnil : N.cfg.jobList ++ added = [] := by simp [BeanConfig.jobList, hcfg, hadded]
      rw [hnil]
      refine Spec.set ((Settled.pure _).and (hD [])) ?_
      rintro _ s _ ⟨_, _, h⟩
      exact ⟨rfl, hstart s h⟩
    · rw [hsome]
      refine ((Spec.forM (I := fun d b' s => b' = b ∧ D d s) _ (hI _) fun pre j post he =>
        (step pre j post he).discard (hI _) fun _ _ _ _ h => h).pre ?_).post ?_
      · rintro _ s _ ⟨_, rfl, h⟩
        exact ⟨rfl, hstart s h⟩
      · rintro _ _ s _ ⟨rfl, h⟩
        exact ⟨hsome, h⟩
  · exact Spec.of_false fun _ _ _ h => hbb (h.1.symm.trans h.2.1)

/-- A null job detail fails with the first call that is made for it. -/
theorem addJobToScheduler_null_spec {before : Bean → Tracked ι → Prop}
    {after : Bool → Bean → Tracked ι → Prop} (hbefore : N.Settled before)
    (hstop : ∀ ex b s, N.UnderWay s → before b s → N.Stopped ex b s) :
    N.Spec before (addJobToScheduler N.cfg none) after N.Stopped := by
  unfold addJobToScheduler mayAddJob
  cases ho : N.cfg.overwriteExistingJobs with
  | true =>
    simp only [if_true, pure_bind]
    exact (Spec.addJob_null (q := fun _ _ _ => False) hbefore (Settled.pure _)
      settled_stopped hstop).bind fun _ => fun _ _ h => h.2.elim
  | false =>
    simp only [Bool.false_eq_true, if_false, Option.map_none, bind_assoc]
    exact (Spec.getJobDetail_null (q := fun _ _ _ => False) hbefore
      (fun _ => Settled.pure _) settled_stopped hstop).bind fun _ => fun _ _ h => h.2.elim

/-- The job detail of one trigger, up to adding one that the bean's list does not have. -/
theorem registerJobOfTrigger_spec (hdone : done ++ [t] <+: N.cfg.triggerList)
    (hc : Considered N.cfg N.initial done t) {before after : Bean → Tracked ι → Prop}
    (hbefore : N.Settled before) (hafter : N.Settled after)
    (hok : ∀ b s, before b s → b.jobDetails ≠ none ∧ BeanOk N.cfg N.initial b)
    (hskip : ∀ b s, before b s → (∀ j, t.carried = some j →
      ∃ listed, b.jobDetails = some listed ∧ j.key ∈ listed.map JobDetail.key) → after b s)
    (hadd : ∀ b₀ listed j, t.carried = some j → b₀.jobDetails = some listed →
      j.key ∉ listed.map JobDetail.key →
      N.Spec (fun b s => b = b₀ ∧ before b s) (addJobToScheduler N.cfg (some j))
        (fun r b s => if r then after ⟨some (listed ++ [j])⟩ s else after b s) N.Stopped) :
    N.Spec before (registerJobOfTrigger N.cfg t)
      (fun _ b s => after b s ∧ t.kind ≠ .jobDetailAware none) N.Stopped := by
  have hpost : N.Settled fun b s => after b s ∧ t.kind ≠ .jobDetailAware none :=
    hafter.and fun _ _ _ _ _ _ h => h
  unfold registerJobOfTrigger
  cases hk : t.kind with
  | plain =>
    rw [hk] at hpost
    refine Spec.pure hpost fun b s _ h => ⟨hskip b s h fun j hj => ?_, by simp⟩
    simp [Trigger.carried, hk] at hj
  | jobDetailAware jobDetail =>
    have ht : t.carried = jobDetail := by simp [Trigger.carried, hk]
    rw [hk] at hpost
    refine Spec.get_bind fun b => ?_
    have hbefore' : N.Settled fun b' s => b' = b ∧ before b' s := (Settled.pure _).and hbefore
    cases hb : b.jobDetails with
    | none =>
      refine Spec.of_false ?_
      rintro b' s _ ⟨rfl, h⟩
      exact (hok b' s h).1 hb
    | some listed =>
      cases jobDetail with
      | none =>
        -- `contains(null)` is false, and the first call on the null detail fails
        have hstop : ∀ ex b' s, N.UnderWay s → b' = b ∧ before b' s → N.Stopped ex b' s :=
          fun ex b' s _ h => ⟨(hok b' s h.2).2, Or.inr fun hsch => (hsch done t hdone).1 hc hk⟩
        simp only [containsJob, Bool.not_false, if_true]
        have hnull : N.Spec (fun b' s => b' = b ∧ before b' s) (addJobToScheduler N.cfg none)
            (fun _ _ _ => False) N.Stopped := addJobToScheduler_null_spec hbefore' hstop
        exact hnull.bind fun _ => fun _ _ h => h.2.elim
      | some j =>
        by_cases hcj : containsJob listed (some j) = true
        · simp only [hcj, Bool.not_true, Bool.false_eq_true, if_false]
          refine Spec.pure hpost ?_
          rintro b' s _ ⟨rfl, h⟩
          refine ⟨hskip b' s h fun j' hj' => ⟨listed, hb, ?_⟩, by simp⟩
          obtain rfl : j = j' := Option.some.inj (ht.symm.trans hj')
          exact containsJob_iff.mp hcj
        · simp only [hcj, Bool.not_false, if_true]
          refine (hadd b listed j ht hb (mt containsJob_iff.mpr hcj)).bind fun r => ?_
          cases r with
          | false => exact Spec.pure hpost fun b' s _ h => ⟨h, by simp⟩
          | true => exact Spec.set hpost fun b' s _ h => ⟨h, by simp⟩

/-- After the turns of the triggers `done`: `J` of the jobs and the bean's list, `T` of the
triggers. -/
structure AfterTurns (N : Registering ι) (added : List JobDetail) (J : Bean → Tracked ι → Prop)
    (T : Tracked ι → Prop) (done : List Trigger) (b : Bean) (s : Tracked ι) : Prop where
  jobs : J b s
  triggers : T s
  calendars : ∀ n, s.calendars n = expectedCalendar N.cfg N.initial n
  schedulable : N.Solo added → Schedulable N.cfg N.initial done

/-- What is known after some turns is settled if its parts on jobs and triggers are. -/
theorem settled_afterTurns {J : Bean → Tracked ι → Prop} {T : Tracked ι → Prop}
    (hJ : N.Settled J) (hT : N.Settled fun _ s => T s) :
    N.Settled fun b s => N.AfterTurns added J T done b s :=
  fun b s u hs hu hl h => ⟨hJ b s u hs hu hl h.jobs, hT b s u hs hu hl h.triggers,
    fun n => hl.calendars n (h.calendars n), h.schedulable⟩

/-- A turn that ends with the trigger there. -/
theorem AfterTurns.snoc {J J' : Bean → Tracked ι → Prop} {T T' : Tracked ι → Prop} {b b' : Bean}
    {s s' : Tracked ι} (h : N.AfterTurns added J T done b s) (hJ : J' b' s') (hT : T' s')
    (hc : s'.calendars = s.calendars)
    (hkind : N.Solo added → Considered N.cfg N.initial done t → t.kind ≠ .jobDetailAware none)
    (hjob : N.Solo added → IsNew N.initial done t →
      JobAvailable N.cfg N.initial (done ++ [t]) t.jobKey) :
    N.AfterTurns added J' T' (done ++ [t]) b' s' :=
  ⟨hJ, hT, fun n => by rw [hc, h.calendars n],
    fun hsolo => (h.schedulable hsolo).snoc (hkind hsolo) (hjob hsolo)⟩

/-- All phases without XML files, from the job phase and one turn of the trigger loop. -/
theorem registerAll_spec {J : List Trigger → Bean → Tracked ι → Prop}
    {T : List Trigger → Tracked ι → Prop} (hJ : ∀ done, N.Settled (J done))
    (hT : ∀ done, N.Settled fun _ s => T done s)
    (hcal : ∀ b s n c, J [] b s ∧ T [] s → J [] b (s.putCalendar n c) ∧ T [] (s.putCalendar n c))
    (hok : ∀ b s, J [] b s → BeanOk N.cfg N.initial b)
    (hfiles : N.cfg.jobSchedulingDataLocations = none) {p : Bean → Tracked ι → Prop}
    (hjobs : N.Spec p (registerJobDetails N.cfg) (fun _ b s => J [] b s ∧ T [] s) N.Stopped)
    (turn : ∀ done t, done ++ [t] <+: N.cfg.triggerList →
      N.Spec (N.AfterTurns added (J done) (T done) done) (addTriggerToScheduler N.cfg t)
        (fun _ => N.AfterTurns added (J (done ++ [t])) (T (done ++ [t])) (done ++ [t])) N.Stopped) :
    N.Spec p (registerAll N.cfg) (fun _ => N.AfterTurns added (J N.cfg.triggerList)
      (T N.cfg.triggerList) N.cfg.triggerList) N.Stopped := by
  have hlist : N.cfg.triggers.getD [] = N.cfg.triggerList := rfl
  have hafter : ∀ done, N.Settled (N.AfterTurns added (J done) (T done) done) :=
    fun done => settled_afterTurns (hJ done) (hT done)
  unfold registerAll processDataLocations registerTriggers
  rw [hfiles, hlist]
  change N.Spec _ (pure PUnit.unit >>= _) _ _
  rw [pure_bind]
  refine hjobs.bind fun _ => ?_
  refine (registerCalendars_spec ((hJ []).and (hT [])) hcal fun hf ex b s _ h =>
    ⟨hok b s h.1, Or.inl hf⟩).bind fun _ => ?_
  refine (Spec.forM (I := fun done => N.AfterTurns added (J done) (T done) done)
    N.cfg.triggerList (hafter _) ?_).pre ?_
  · intro done t post he
    have hdone : done ++ [t] <+: N.cfg.triggerList := ⟨post, by simp [he]⟩
    exact (turn done t hdone).discard (hafter _) fun _ _ _ _ h => h
  · rintro b s _ ⟨⟨hj, ht⟩, hc⟩
    exact ⟨hj, ht, hc, fun _ => schedulable_nil⟩

end Registering

end MySchedule.Registration
