import MySchedule.Registration.Phases

/-!
# Registration that overwrites

With `overwriteExistingJobs` every configured entry is written, so what counts is
the last write of each key. A node follows its own last writes: after the job
phase they are the expected ones, since the bean's list holds a key of a carried
job detail at most once, and the trigger phase adds no key twice.
-/

namespace MySchedule.Registration

open Interaction Java Keyed

namespace Registering

namespace Overwriting

variable {ι : Type} (N : Registering ι) (added : List JobDetail)

/-- The job phase after the entries `done`; no trigger was stored yet. -/
structure JobPhase (done : List JobDetail) (s : Tracked ι) : Prop where
  own : ∀ k, s.jobs.writer k = some N.node → s.jobs.value k = last JobDetail.key k done
  written : ∀ k ∈ done.map JobDetail.key, s.jobs.writer k ≠ none
  triggers : ∀ k, s.triggers.writer k ≠ some N.node

/-- The jobs and the bean's list after the turns of the triggers `done`. -/
structure JobsOf (done : List Trigger) (b : Bean) (s : Tracked ι) : Prop where
  own : ∀ k, s.jobs.writer k = some N.node →
    s.jobs.value k = expectedJob N.cfg N.initial k ∧
      k ∈ (N.jobsSoFar added done).map JobDetail.key
  written : ∀ k ∈ (N.jobsSoFar added done).map JobDetail.key, s.jobs.writer k ≠ none
  list : ∃ kept, b.jobDetails = some (N.cfg.jobList ++ kept) ∧
    (∀ j ∈ kept, Leaked N.cfg N.initial j) ∧
    ∀ k, k ∈ (N.cfg.jobList ++ kept).map JobDetail.key ↔
      k ∈ (N.jobsSoFar added done).map JobDetail.key

/-- The triggers after the turns of `done`. -/
structure TriggersOf (done : List Trigger) (s : Tracked ι) : Prop where
  own : ∀ k, s.triggers.writer k = some N.node → s.triggers.value k = last Trigger.key k done
  written : ∀ k ∈ done.map Trigger.key, s.triggers.writer k ≠ none

variable {N added} {done : List Trigger} {t : Trigger}

/-- The bean's list is the configuration's with leaked jobs at its end. -/
theorem JobsOf.beanOk {b : Bean} {s : Tracked ι} (h : JobsOf N added done b s) :
    BeanOk N.cfg N.initial b := by
  obtain ⟨kept, hb, hk, _⟩ := h.list
  exact ⟨kept, Or.inr hb, hk⟩

/-- The bean's list holds the jobs seen so far. -/
theorem JobsOf.mem_listed {b : Bean} {s : Tracked ι} (h : JobsOf N added done b s)
    {listed : List JobDetail} (hb : b.jobDetails = some listed) (k : JobKey) :
    k ∈ listed.map JobDetail.key ↔ k ∈ (N.jobsSoFar added done).map JobDetail.key := by
  obtain ⟨kept, hb', _, hlist⟩ := h.list
  obtain rfl : listed = N.cfg.jobList ++ kept := Option.some.inj (hb.symm.trans hb')
  exact hlist k

/-- Other nodes leave what this node has registered in the phase of the jobs. -/
theorem settled_jobPhase (d : List JobDetail) : N.Settled fun _ s => JobPhase N d s := by
  rintro b s t hs ht hl ⟨hown, hwritten, htriggers⟩
  refine ⟨fun k hk => ?_, fun k hk => hl.jobs.written k (hwritten k hk),
    fun k hk => htriggers k (hl.triggers.own k hk).1⟩
  obtain ⟨hw, hv⟩ := hl.jobs.own k hk
  rw [hv, hown k hw]

/-- Other nodes leave the jobs this node has registered. -/
theorem settled_jobsOf : N.Settled fun b s => JobsOf N added done b s := by
  rintro b s t hs ht hl ⟨hown, hwritten, hlist⟩
  refine ⟨fun k hk => ?_, fun k hk => hl.jobs.written k (hwritten k hk), hlist⟩
  obtain ⟨hw, hv⟩ := hl.jobs.own k hk
  rw [hv]
  exact hown k hw

/-- Other nodes leave the triggers this node has stored. -/
theorem settled_triggersOf : N.Settled fun _ s => TriggersOf N done s := by
  rintro b s t hs ht hl ⟨hown, hwritten⟩
  refine ⟨fun k hk => ?_, fun k hk => hl.triggers.written k (hwritten k hk)⟩
  obtain ⟨hw, hv⟩ := hl.triggers.own k hk
  rw [hv, hown k hw]

/-- In overwriting mode a job is added without being looked up. -/
theorem addJobToScheduler_spec (ho : N.cfg.overwriteExistingJobs = true) {j : JobDetail}
    {p q : Bean → Tracked ι → Prop} (hp : N.Settled p) (hq : N.Settled q)
    (h : ∀ b s, N.UnderWay s → p b s → MayPutJob N.cfg N.initial j ∧ q b (s.putJob N.node j))
    (hstop : N.fault → ∀ ex b s, N.UnderWay s → p b s → N.Stopped ex b s) :
    N.Spec p (addJobToScheduler N.cfg (some j)) (fun r b s => r = true ∧ q b s) N.Stopped := by
  unfold addJobToScheduler mayAddJob
  simp only [ho, if_true, pure_bind]
  refine (Spec.addJob (q := fun _ => q) hp hq settled_stopped h hstop).bind fun _ => ?_
  exact Spec.pure ((Settled.pure _).and hq) fun b s _ hqs => ⟨rfl, hqs⟩

/-- One more job of the list is written. -/
theorem JobPhase.putJob {d : List JobDetail} {s : Tracked ι} (h : JobPhase N d s)
    (j : JobDetail) : JobPhase N (d ++ [j]) (s.putJob N.node j) := by
  refine ⟨fun k hk => ?_, fun k hk => ?_, h.triggers⟩
  · by_cases he : k = j.key
    · subst he
      simp [Tracked.putJob, last_append_singleton]
    · rw [Tracked.putJob, OwnedMap.write_writer_of_ne he] at hk
      rw [Tracked.putJob, OwnedMap.write_value_of_ne he, last_append_singleton,
        if_neg (Ne.symm he)]
      exact h.own k hk
  · by_cases he : k = j.key
    · subst he
      simp [Tracked.putJob]
    · rw [Tracked.putJob, OwnedMap.write_writer_of_ne he]
      refine h.written k ?_
      simpa [he, Ne.symm he] using hk

/-- One entry of the job phase. -/
theorem jobPhase_step (ho : N.cfg.overwriteExistingJobs = true) {b₀ : Bean}
    (hb : BeanList N.cfg N.initial added b₀) {pre post : List JobDetail} {j : JobDetail}
    (he : N.cfg.jobList ++ added = pre ++ j :: post) :
    N.Spec (fun b s => b = b₀ ∧ JobPhase N pre s) (addJobToScheduler N.cfg (some j))
      (fun _ b s => b = b₀ ∧ JobPhase N (pre ++ [j]) s) N.Stopped := by
  have hI : ∀ d, N.Settled fun b s => b = b₀ ∧ JobPhase N d s :=
    fun d => (Settled.pure _).and (settled_jobPhase d)
  have hput : MayPutJob N.cfg N.initial j := by
    have hj : j ∈ N.cfg.jobList ++ added := he ▸ by simp
    rcases List.mem_append.mp hj with hj | hj
    · refine ⟨fun _ => List.mem_map_of_mem (List.mem_append_left _ hj), fun hno => ?_⟩
      rw [ho] at hno
      cases hno
    · exact (hb.leaked j hj).mayPut
  refine (addJobToScheduler_spec ho (hI pre) (hI (pre ++ [j])) ?_ ?_).post fun _ _ _ _ h => h.2
  · rintro b s hs ⟨rfl, h⟩
    exact ⟨hput, rfl, h.putJob j⟩
  · rintro hfault ex b s hs ⟨rfl, _⟩
    exact ⟨⟨added, hb⟩, Or.inl hfault⟩

/-- The last entry of a key among the configured and the added job details is the expected
one. -/
theorem last_eq_expectedJob (ho : N.cfg.overwriteExistingJobs = true)
    (hadded : ∀ j ∈ added, Leaked N.cfg N.initial j) {k : JobKey}
    (hk : last JobDetail.key k (N.cfg.jobList ++ added) ≠ none) :
    last JobDetail.key k (N.cfg.jobList ++ added) = expectedJob N.cfg N.initial k := by
  cases ha : last JobDetail.key k added with
  | none =>
    rw [last_append, ha, Option.none_or] at hk ⊢
    obtain ⟨j, hj⟩ := Option.ne_none_iff_exists'.mp hk
    simp [expectedJob, ho, hj]
  | some j =>
    have hj : Leaked N.cfg N.initial j := hadded j (List.mem_reverse.mp (mem_of_first ha))
    rw [last_append, ha, Option.some_or, ← key_of_last ha, hj.expected]

/-- The phase of the jobs ends where the first trigger's turn begins. -/
theorem JobPhase.jobsOf (ho : N.cfg.overwriteExistingJobs = true)
    (hadded : ∀ j ∈ added, Leaked N.cfg N.initial j) {b : Bean} {s : Tracked ι}
    (hb : b.jobDetails = some (N.cfg.jobList ++ added)) (hs : N.UnderWay s)
    (h : JobPhase N (N.cfg.jobList ++ added) s) : JobsOf N added [] b s := by
  have hnil : N.jobsSoFar added [] = N.cfg.jobList ++ added := by
    simp [jobsSoFar, broughtJobs, consideredTriggers, ho, carriedJobs]
  refine ⟨fun k hk => ?_, by rw [hnil]; exact h.written, added, hb, hadded, fun k => by rw [hnil]⟩
  have hv := h.own k hk
  have hne : last JobDetail.key k (N.cfg.jobList ++ added) ≠ none :=
    hv ▸ hs.jobs.written k (by simp [hk])
  rw [hv, last_eq_expectedJob ho hadded hne, hnil]
  exact ⟨rfl, last_ne_none.mp hne⟩

/-- Where existing jobs are overwritten, every turn brings what its trigger carries. -/
theorem jobsSoFar_snoc (ho : N.cfg.overwriteExistingJobs = true) :
    N.jobsSoFar added (done ++ [t]) = N.jobsSoFar added done ++ t.carried.toList := by
  have hc : Considered N.cfg N.initial done t := Or.inl ho
  simp only [jobsSoFar, broughtJobs_append_singleton, if_pos hc, List.append_assoc]

/-- A turn that brings no job detail, or one whose key the bean's list has. -/
theorem JobsOf.skip (ho : N.cfg.overwriteExistingJobs = true) {b : Bean} {s : Tracked ι}
    (h : JobsOf N added done b s)
    (ht : ∀ j, t.carried = some j → j.key ∈ (N.jobsSoFar added done).map JobDetail.key) :
    JobsOf N added (done ++ [t]) b s := by
  have hkeys : ∀ k, k ∈ (N.jobsSoFar added (done ++ [t])).map JobDetail.key ↔
      k ∈ (N.jobsSoFar added done).map JobDetail.key := by
    intro k
    rw [jobsSoFar_snoc ho, List.map_append, List.mem_append, or_iff_left_iff_imp]
    intro hk
    obtain ⟨j, hj, rfl⟩ := List.mem_map.mp hk
    exact ht j (Option.mem_toList.mp hj)
  obtain ⟨kept, hb, hkept, hlist⟩ := h.list
  exact ⟨fun k hk => ⟨(h.own k hk).1, (hkeys k).mpr (h.own k hk).2⟩,
    fun k hk => h.written k ((hkeys k).mp hk), kept, hb, hkept,
    fun k => (hlist k).trans (hkeys k).symm⟩

/-- A job detail that is brought first and not configured is what its key will hold. -/
theorem leaked_of_new (ho : N.cfg.overwriteExistingJobs = true)
    (hdone : done ++ [t] <+: N.cfg.triggerList) {j : JobDetail} (ht : t.carried = some j)
    (hj : j.key ∉ (N.jobsSoFar added done).map JobDetail.key) : Leaked N.cfg N.initial j := by
  simp only [jobsSoFar, List.map_append, List.mem_append, not_or] at hj
  have hle : broughtJobs N.cfg N.initial (done ++ [t]) <+:
      broughtJobs N.cfg N.initial N.cfg.triggerList := broughtJobs_mono hdone
  obtain ⟨rest, hrest⟩ := hle
  have hc : Considered N.cfg N.initial done t := Or.inl ho
  rw [broughtJobs_append_singleton, if_pos hc, ht, Option.toList_some, List.append_assoc,
    List.singleton_append] at hrest
  refine ⟨hj.1.1, by rw [← hrest, first_of_new hj.2], fun hno => ?_⟩
  rw [ho] at hno
  cases hno

/-- A turn that brings a new job detail, written and put into the bean's list. -/
theorem JobsOf.putJob (ho : N.cfg.overwriteExistingJobs = true) {b : Bean} {s : Tracked ι}
    (h : JobsOf N added done b s) {j : JobDetail} (ht : t.carried = some j)
    (hj : Leaked N.cfg N.initial j) {listed : List JobDetail} (hb : b.jobDetails = some listed) :
    JobsOf N added (done ++ [t]) ⟨some (listed ++ [j])⟩ (s.putJob N.node j) := by
  have hkeys : ∀ k, k ∈ (N.jobsSoFar added (done ++ [t])).map JobDetail.key ↔
      k ∈ (N.jobsSoFar added done).map JobDetail.key ∨ k = j.key := by
    intro k
    rw [jobsSoFar_snoc ho, ht]
    simp
  refine ⟨fun k hk => ?_, fun k hk => ?_, ?_⟩
  · by_cases he : k = j.key
    · subst he
      exact ⟨by simp [Tracked.putJob, hj.expected], (hkeys _).mpr (Or.inr rfl)⟩
    · rw [Tracked.putJob, OwnedMap.write_writer_of_ne he] at hk
      rw [Tracked.putJob, OwnedMap.write_value_of_ne he]
      exact ⟨(h.own k hk).1, (hkeys k).mpr (Or.inl (h.own k hk).2)⟩
  · by_cases he : k = j.key
    · subst he
      simp [Tracked.putJob]
    · rw [Tracked.putJob, OwnedMap.write_writer_of_ne he]
      exact h.written k (((hkeys k).mp hk).resolve_right he)
  · obtain ⟨kept, hb', hkept, hlist⟩ := h.list
    obtain rfl : listed = N.cfg.jobList ++ kept := Option.some.inj (hb.symm.trans hb')
    refine ⟨kept ++ [j], by rw [List.append_assoc], fun j' hj' => ?_, fun k => ?_⟩
    · rcases List.mem_append.mp hj' with h' | h'
      · exact hkept j' h'
      · rwa [List.mem_singleton.mp h']
    · rw [hkeys, ← hlist, ← List.append_assoc]
      simp [or_assoc]

/-- The job detail of one trigger; `T` is what is known of the triggers meanwhile. -/
theorem registerJobOfTrigger_spec (ho : N.cfg.overwriteExistingJobs = true)
    (hdone : done ++ [t] <+: N.cfg.triggerList) {T : Tracked ι → Prop}
    (hT : N.Settled fun _ s => T s) (hput : ∀ s j, T s → T (s.putJob N.node j)) :
    N.Spec (N.AfterTurns added (JobsOf N added done) T done) (registerJobOfTrigger N.cfg t)
      (fun _ b s => N.AfterTurns added (JobsOf N added (done ++ [t])) T done b s ∧
        t.kind ≠ .jobDetailAware none) N.Stopped := by
  have hbefore : N.Settled (N.AfterTurns added (JobsOf N added done) T done) :=
    settled_afterTurns settled_jobsOf hT
  have hafter : N.Settled (N.AfterTurns added (JobsOf N added (done ++ [t])) T done) :=
    settled_afterTurns settled_jobsOf hT
  refine Registering.registerJobOfTrigger_spec hdone (Or.inl ho) hbefore hafter ?_ ?_ ?_
  · intro b s h
    obtain ⟨kept, hb, _⟩ := h.jobs.list
    exact ⟨by simp [hb], h.jobs.beanOk⟩
  · intro b s h hcarried
    refine ⟨h.jobs.skip ho fun j hj => ?_, h.triggers, h.calendars, h.schedulable⟩
    obtain ⟨listed, hb, hm⟩ := hcarried j hj
    exact (h.jobs.mem_listed hb j.key).mp hm
  · intro b₀ listed j ht hb hnot
    have hmid : N.Settled fun _ s =>
        N.AfterTurns added (JobsOf N added (done ++ [t])) T done ⟨some (listed ++ [j])⟩ s :=
      fun _ s u hs hu hl h => hafter _ s u hs hu hl h
    refine (addJobToScheduler_spec ho ((Settled.pure _).and hbefore) hmid ?_ ?_).post ?_
    · rintro b s _ ⟨rfl, h⟩
      have hnew : j.key ∉ (N.jobsSoFar added done).map JobDetail.key :=
        fun hm => hnot ((h.jobs.mem_listed hb j.key).mpr hm)
      have hl := leaked_of_new ho hdone ht hnew
      exact ⟨hl.mayPut, h.jobs.putJob ho ht hl hb, hput s j h.triggers, h.calendars, h.schedulable⟩
    · rintro hfault ex b s _ ⟨_, h⟩
      exact ⟨h.jobs.beanOk, Or.inl hfault⟩
    · rintro r b s _ ⟨rfl, h⟩
      exact h

/-- Storing a trigger leaves the jobs alone. -/
theorem JobsOf.putTrigger {b : Bean} {s : Tracked ι} (h : JobsOf N added done b s)
    (k : TriggerKey) (u : Trigger) : JobsOf N added done b (s.putTrigger N.node k u) :=
  ⟨h.own, h.written, h.list⟩

/-- Storing its trigger completes a turn. -/
theorem TriggersOf.putTrigger {s : Tracked ι} (h : TriggersOf N done s) (t : Trigger) :
    TriggersOf N (done ++ [t]) (s.putTrigger N.node t.key t) := by
  refine ⟨fun k hk => ?_, fun k hk => ?_⟩
  · by_cases he : k = t.key
    · subst he
      simp [Tracked.putTrigger, last_append_singleton]
    · rw [Tracked.putTrigger, OwnedMap.write_writer_of_ne he] at hk
      rw [Tracked.putTrigger, OwnedMap.write_value_of_ne he, last_append_singleton,
        if_neg (Ne.symm he)]
      exact h.own k hk
  · by_cases he : k = t.key
    · subst he
      simp [Tracked.putTrigger]
    · rw [Tracked.putTrigger, OwnedMap.write_writer_of_ne he]
      refine h.written k ?_
      simpa [he, Ne.symm he] using hk

/-- What is known of the jobs, by their keys. -/
theorem JobsOf.keys {b : Bean} {s : Tracked ι} (h : JobsOf N added done b s)
    (hs : N.UnderWay s) : N.JobKeys added done s :=
  ⟨fun k hk => (h.own k hk).2, fun k hk => hs.jobs.written k (h.written k hk)⟩

/-- What is known of the triggers, by their keys. -/
theorem TriggersOf.keys {s : Tracked ι} (h : TriggersOf N done s) (hs : N.UnderWay s) :
    N.TriggerKeys done s := by
  refine ⟨fun k hk => ?_, fun k hk => hs.triggers.written k (h.written k hk)⟩
  have hv : s.triggers.value k ≠ none := hs.triggers.written k (by simp [hk])
  exact last_ne_none.mp (h.own k hk ▸ hv)

/-- Between the two halves of a turn: the job detail is registered, the trigger is not yet
stored. -/
def InTurn (N : Registering ι) (added : List JobDetail) (done : List Trigger) (t : Trigger)
    (T : Tracked ι → Prop) (b : Bean) (s : Tracked ι) : Prop :=
  N.AfterTurns added (JobsOf N added (done ++ [t])) (fun s => TriggersOf N done s ∧ T s) done b s ∧
    t.kind ≠ .jobDetailAware none

/-- Everything after the turns of the triggers `done`. -/
abbrev Turns (N : Registering ι) (added : List JobDetail) (done : List Trigger) :
    Bean → Tracked ι → Prop :=
  N.AfterTurns added (JobsOf N added done) (TriggersOf N done) done

/-- Other nodes leave what is known between two turns. -/
theorem settled_turns : N.Settled (Turns N added done) :=
  settled_afterTurns settled_jobsOf settled_triggersOf

/-- Other nodes leave what is known inside a turn. -/
theorem settled_inTurn {T : Tracked ι → Prop} (hT : N.Settled fun _ s => T s) :
    N.Settled (InTurn N added done t T) := by
  have hd : N.Settled fun _ s => TriggersOf N done s ∧ T s := settled_triggersOf.and hT
  exact fun b s u hs hu hl h => ⟨settled_afterTurns settled_jobsOf hd b s u hs hu hl h.1, h.2⟩

/-- Writing the trigger ends the turn. -/
theorem InTurn.putTrigger {T : Tracked ι → Prop} {b : Bean} {s : Tracked ι}
    (h : InTurn N added done t T b s)
    (hjob : N.Solo added → IsNew N.initial done t →
      JobAvailable N.cfg N.initial (done ++ [t]) t.jobKey) :
    Turns N added (done ++ [t]) b (s.putTrigger N.node t.key t) :=
  h.1.snoc (h.1.jobs.putTrigger _ _) (h.1.triggers.1.putTrigger t) rfl (fun _ _ => h.2) hjob

/-- Where existing jobs are overwritten, a node may store any trigger of the configuration. -/
theorem mayPutTrigger (ho : N.cfg.overwriteExistingJobs = true)
    (hdone : done ++ [t] <+: N.cfg.triggerList) (s : Store) :
    MayPutTrigger N.cfg N.initial s t.key t := by
  refine ⟨fun _ => List.mem_map_of_mem (hdone.subset (by simp)), fun hno => ?_⟩
  rw [ho] at hno
  cases hno

/-- Replacing a trigger that is there. -/
theorem reschedule_spec (ho : N.cfg.overwriteExistingJobs = true)
    (hdone : done ++ [t] <+: N.cfg.triggerList) :
    N.Spec (InTurn N added done t fun s => s.triggers.value t.key ≠ none)
      (discard (Scheduler.rescheduleJob t.key t)) (fun _ => Turns N added (done ++ [t]))
      N.Stopped := by
  refine (Spec.rescheduleJob (q := fun _ => Turns N added (done ++ [t]))
    (settled_inTurn (.trigger_present _)) (fun _ => settled_turns) settled_stopped ?_ ?_).discard
    settled_turns fun _ _ _ _ h => h
  · intro b s hs h
    refine ⟨h.1.triggers.2, mayPutTrigger ho hdone _, h.putTrigger fun hsolo hnew => ?_⟩
    exact absurd hnew ((h.1.triggers.1.keys hs).not_isNew hs hsolo h.1.triggers.2)
  · intro hfault ex b s _ h
    exact ⟨h.1.jobs.beanOk, Or.inl hfault⟩

/-- Scheduling a trigger that was not there, and may have appeared since. -/
theorem scheduleNewTrigger_spec (ho : N.cfg.overwriteExistingJobs = true)
    (hdone : done ++ [t] <+: N.cfg.triggerList) :
    N.Spec (InTurn N added done t fun _ => IsNew N.initial done t) (scheduleNewTrigger N.cfg t)
      (fun _ => Turns N added (done ++ [t])) N.Stopped := by
  let e : Throwable → Bean → Tracked ι → Prop := fun ex b s =>
    if ex.isObjectAlreadyExists then
      InTurn N added done t (fun s => s.triggers.value t.key ≠ none) b s
    else N.Stopped ex b s
  have he : ∀ ex, N.Settled (e ex) := by
    intro ex
    simp only [e]
    split
    · exact settled_inTurn (.trigger_present _)
    · exact settled_stopped ex
  unfold scheduleNewTrigger
  refine Spec.tryCatch (e := e) ((Spec.scheduleJob (q := fun _ => Turns N added (done ++ [t]))
    (settled_inTurn fun _ _ _ _ _ _ h => h) settled_turns he ?_ ?_ ?_ ?_).discard settled_turns
    fun _ _ _ _ h => h) ?_
  · intro b s _ h hthere
    exact ⟨⟨h.1.jobs, ⟨h.1.triggers.1, hthere⟩, h.1.calendars, h.1.schedulable⟩, h.2⟩
  · intro b s hs h _ hnojob
    have hnew : IsNew N.initial done t := h.1.triggers.2
    exact ⟨h.1.jobs.beanOk,
      Or.inr fun hsch => (h.1.jobs.keys hs).there hs ((hsch done t hdone).2 hnew) hnojob⟩
  · intro b s hs h _ hjob
    exact ⟨mayPutTrigger ho hdone _,
      h.putTrigger fun hsolo _ => (h.1.jobs.keys hs).available hs hsolo hjob⟩
  · intro hfault ex b s _ h hex
    simp only [e, hex, Bool.false_eq_true, if_false]
    exact ⟨h.1.jobs.beanOk, Or.inl hfault⟩
  · intro ex
    by_cases hex : ex.isObjectAlreadyExists = true
    · simp only [e, hex, ho, if_true]
      exact reschedule_spec ho hdone
    · simp only [e, hex, Bool.false_eq_true, if_false]
      exact Spec.throw (settled_stopped ex) fun _ _ _ h => h

/-- One turn of the trigger loop. -/
theorem addTriggerToScheduler_spec (ho : N.cfg.overwriteExistingJobs = true)
    (hdone : done ++ [t] <+: N.cfg.triggerList) :
    N.Spec (Turns N added done) (addTriggerToScheduler N.cfg t)
      (fun _ => Turns N added (done ++ [t])) N.Stopped := by
  let seen : Option Trigger → Tracked ι → Prop := fun existing s =>
    if existing.isSome then s.triggers.value t.key ≠ none else IsNew N.initial done t
  have hseen : ∀ existing, N.Settled fun _ s => seen existing s := by
    intro existing
    simp only [seen]
    split
    · exact .trigger_present _
    · exact fun _ _ _ _ _ _ h => h
  have hT : ∀ existing, N.Settled fun _ s => TriggersOf N done s ∧ seen existing s :=
    fun existing => settled_triggersOf.and (hseen existing)
  unfold addTriggerToScheduler
  refine (Spec.getTrigger (q := fun existing => N.AfterTurns added (JobsOf N added done)
    (fun s => TriggersOf N done s ∧ seen existing s) done) settled_turns
    (fun existing => settled_afterTurns settled_jobsOf (hT existing)) settled_stopped
    ?_ ?_).bind fun existing => ?_
  · intro b s hs h
    refine ⟨h.jobs, ⟨h.triggers, ?_⟩, h.calendars, h.schedulable⟩
    cases hv : s.triggers.value t.key with
    | some u => simp [seen, hv]
    | none => simpa [seen] using (h.triggers.keys hs).isNew hs hv
  · exact fun hfault ex b s _ h => ⟨h.jobs.beanOk, Or.inl hfault⟩
  · simp only [ho, Bool.or_true, if_true]
    have hstore : N.Spec (InTurn N added done t (seen existing))
        (storeTrigger N.cfg existing.isSome t) (fun _ => Turns N added (done ++ [t]))
        N.Stopped := by
      unfold storeTrigger
      cases existing with
      | none => exact scheduleNewTrigger_spec ho hdone
      | some u => exact reschedule_spec ho hdone
    refine (registerJobOfTrigger_spec ho hdone (hT existing) ?_).bind fun _ =>
      hstore.bind fun _ => Spec.pure settled_turns fun _ _ _ h => h
    exact fun s j h => ⟨⟨h.1.own, h.1.written⟩, h.2⟩

/-- A completed registration in overwriting mode. -/
theorem completed (ho : N.cfg.overwriteExistingJobs = true) {b : Bean} {s : Tracked ι}
    (hs : N.UnderWay s) (h : Turns N added N.cfg.triggerList b s) : N.Completed added b s := by
  have hbase := N.base_between.overwritten ho
  refine ⟨h.jobs.beanOk, fun k hk => (h.jobs.own k hk).1, fun k hk => ?_, fun k hk => ?_,
    fun k hk => ?_, h.calendars, h.schedulable⟩
  · have hnot : k ∉ (N.jobsSoFar added N.cfg.triggerList).map JobDetail.key :=
      fun hm => h.jobs.written k hm hk
    simp only [jobsSoFar, List.map_append, List.mem_append, not_or] at hnot
    obtain ⟨⟨hlist, _⟩, hbrought⟩ := hnot
    have hconf : k ∉ (configuredJobs N.cfg N.initial).map JobDetail.key := by
      simp only [configuredJobs, List.map_append, List.mem_append, not_or]
      exact ⟨hlist, hbrought⟩
    rw [hbase.jobs k hconf, expectedJob, if_pos ho, last_eq_none.mpr hlist,
      not_ne_iff.mp (mt first_ne_none.mp hbrought), Option.none_or, Option.none_or]
  · have hv := h.triggers.own k hk
    have hne : last Trigger.key k N.cfg.triggerList ≠ none :=
      hv ▸ hs.triggers.written k (by simp [hk])
    obtain ⟨t, ht⟩ := Option.ne_none_iff_exists'.mp hne
    rw [hv, expectedTrigger, if_pos ho, ht, Option.some_or]
  · have hnot : k ∉ N.cfg.triggerList.map Trigger.key := fun hm => h.triggers.written k hm hk
    rw [hbase.triggers k hnot, expectedTrigger, if_pos ho, last_eq_none.mpr hnot, Option.none_or]

/-- All phases, without XML files. -/
theorem registerAll_spec (ho : N.cfg.overwriteExistingJobs = true)
    (hfiles : N.cfg.jobSchedulingDataLocations = none) {b₀ : Bean}
    (hb : BeanList N.cfg N.initial added b₀) :
    N.Spec (fun b s => b = b₀ ∧ N.Untouched s) (registerAll N.cfg)
      (fun _ b s => N.Completed added b s) N.Stopped := by
  refine (Registering.registerAll_spec (J := JobsOf N added) (T := TriggersOf N)
    (fun _ => settled_jobsOf) (fun _ => settled_triggersOf) ?_ (fun _ _ h => h.beanOk) hfiles ?_
    fun _ _ hdone => addTriggerToScheduler_spec ho hdone).post
    fun _ _ _ hs h => completed ho hs h
  · rintro b s n c ⟨hj, ht⟩
    exact ⟨⟨hj.own, hj.written, hj.list⟩, ht.own, ht.written⟩
  · refine (registerJobDetails_spec hb settled_jobPhase (fun s h => ?_) fun pre j post he =>
      jobPhase_step ho hb he).post ?_
    · exact ⟨fun k hk => absurd hk (h.1 k), by simp, h.2⟩
    · rintro _ b s hs ⟨hlist, h⟩
      exact ⟨h.jobsOf ho hb.leaked hlist hs, fun k hk => absurd hk (h.triggers k), by simp⟩

end Overwriting

end Registering

end MySchedule.Registration
