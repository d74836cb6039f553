import MySchedule.Registration.Phases

/-!
# Registration that keeps existing data

Without `overwriteExistingJobs` a key that is there is never written, so what
counts is the first write of each key. A node may write only what it has seen to
be missing, and what it then writes is the expected entry even when another node
has written the key in between: both write the same.
-/

namespace MySchedule.Registration

open Interaction Java Keyed

namespace Registering

namespace Preserving

variable {ι : Type} (N : Registering ι) (added : List JobDetail)

/-- The job phase after the entries `done`; no trigger was stored yet. -/
structure JobPhase (done : List JobDetail) (s : Tracked ι) : Prop where
  own : ∀ k, s.jobs.writer k = some N.node → k ∈ done.map JobDetail.key
  present : ∀ k ∈ done.map JobDetail.key, s.jobs.value k ≠ none
  triggers : ∀ k, s.triggers.writer k ≠ some N.node

/-- The bean's list: what it contains is in the scheduler. -/
def Listed (b : Bean) (s : Tracked ι) : Prop :=
  ∃ kept, b.jobDetails = some (N.cfg.jobList ++ kept) ∧
    (∀ j ∈ kept, Leaked N.cfg N.initial j) ∧
    ∀ k ∈ (N.cfg.jobList ++ kept).map JobDetail.key, s.jobs.value k ≠ none

/-- The jobs and the bean's list after the turns of the triggers `done`. -/
structure JobsOf (done : List Trigger) (b : Bean) (s : Tracked ι) : Prop where
  keys : N.JobKeys added done s
  listed : Listed N b s

variable {N added} {done : List Trigger} {t : Trigger}

/-- A listed bean has the configuration's jobs with leaked ones at the end. -/
theorem Listed.beanOk {b : Bean} {s : Tracked ι} (h : Listed N b s) :
    BeanOk N.cfg N.initial b := by
  obtain ⟨kept, hb, hk, _⟩ := h
  exact ⟨kept, Or.inr hb, hk⟩

/-- Other nodes leave what this node has registered in the phase of the jobs. -/
theorem settled_jobPhase (d : List JobDetail) : N.Settled fun _ s => JobPhase N d s := by
  rintro b s u hs hu hl ⟨hown, hpresent, htriggers⟩
  exact ⟨fun k hk => hown k (hl.jobs.own k hk).1,
    fun k hk => hs.jobs.present_mono hu.jobs hl.jobs.written (hpresent k hk),
    fun k hk => htriggers k (hl.triggers.own k hk).1⟩

/-- The bean's list is the node's own. -/
theorem settled_listed : N.Settled fun b s => Listed N b s := by
  rintro b s u hs hu hl ⟨kept, hb, hk, hpresent⟩
  exact ⟨kept, hb, hk,
    fun k hk' => hs.jobs.present_mono hu.jobs hl.jobs.written (hpresent k hk')⟩

/-- Other nodes leave the jobs this node has registered. -/
theorem settled_jobsOf : N.Settled fun b s => JobsOf N added done b s :=
  fun b s u hs hu hl h =>
    ⟨settled_jobKeys b s u hs hu hl h.keys, settled_listed b s u hs hu hl h.listed⟩

/-- A job key is written after it was seen to be missing; whether it still is does not
matter. -/
theorem addJobToScheduler_spec (ho : N.cfg.overwriteExistingJobs = false) {j : JobDetail}
    {p found put : Bean → Tracked ι → Prop} (missing : Prop) (hp : N.Settled p)
    (hfound : N.Settled found) (hput : N.Settled put)
    (hthere : ∀ b s, N.UnderWay s → p b s → s.jobs.value j.key ≠ none → found b s)
    (hmissing : ∀ b s, N.UnderWay s → p b s → s.jobs.value j.key = none → missing)
    (h : ∀ b s, N.UnderWay s → p b s → missing →
      MayPutJob N.cfg N.initial j ∧ put b (s.putJob N.node j))
    (hstop : N.fault → ∀ ex b s, N.UnderWay s → p b s → N.Stopped ex b s) :
    N.Spec p (addJobToScheduler N.cfg (some j))
      (fun r b s => if r then put b s else found b s) N.Stopped := by
  let looked : Option JobDetail → Bean → Tracked ι → Prop := fun existing b s =>
    if existing.isNone then p b s ∧ missing else found b s
  have hlooked : ∀ existing, N.Settled (looked existing) := by
    intro existing
    cases existing with
    | none => exact hp.and fun _ _ _ _ _ _ h => h
    | some j' => exact hfound
  unfold addJobToScheduler mayAddJob
  simp only [ho, Bool.false_eq_true, if_false, Option.map_some, bind_assoc, pure_bind]
  refine (Spec.getJobDetail (q := looked) hp hlooked settled_stopped ?_ hstop).bind
    fun existing => ?_
  · intro b s hs hps
    cases hv : s.jobs.value j.key with
    | none => exact ⟨hps, hmissing b s hs hps hv⟩
    | some j' => exact hthere b s hs hps (by simp [hv])
  · cases existing with
    | none =>
      refine (Spec.addJob (q := fun _ => put) (hlooked none) hput settled_stopped
        (fun b s hs hps => h b s hs hps.1 hps.2) fun hf ex b s hs hps =>
          hstop hf ex b s hs hps.1).bind fun _ => ?_
      exact Spec.pure hput fun _ _ _ h => h
    | some j' => exact Spec.pure hfound fun _ _ _ h => h

/-- A job of the list is there already, and is kept. -/
theorem JobPhase.found {d : List JobDetail} {s : Tracked ι} (h : JobPhase N d s) {j : JobDetail}
    (hj : s.jobs.value j.key ≠ none) : JobPhase N (d ++ [j]) s := by
  refine ⟨fun k hk => ?_, fun k hk => ?_, h.triggers⟩
  · rw [List.map_append]
    exact List.mem_append_left _ (h.own k hk)
  · rw [List.map_append, List.mem_append] at hk
    rcases hk with hk | hk
    · exact h.present k hk
    · rwa [show k = j.key by simpa using hk]

/-- One more job of the list is written. -/
theorem JobPhase.putJob {d : List JobDetail} {s : Tracked ι} (h : JobPhase N d s)
    (j : JobDetail) : JobPhase N (d ++ [j]) (s.putJob N.node j) := by
  refine ⟨fun k hk => ?_, fun k hk => ?_, h.triggers⟩
  · by_cases he : k = j.key
    · simp [he]
    · rw [Tracked.putJob, OwnedMap.write_writer_of_ne he] at hk
      rw [List.map_append]
      exact List.mem_append_left _ (h.own k hk)
  · by_cases he : k = j.key
    · subst he
      simp [Tracked.putJob]
    · rw [Tracked.putJob, OwnedMap.write_value_of_ne he]
      refine h.present k ?_
      simpa [he, Ne.symm he] using hk

/-- The first entry of a key among the configured and the added job details is the expected
one, if the key is not there at the start. -/
theorem mayPutJob_of_first (ho : N.cfg.overwriteExistingJobs = false)
    (hadded : ∀ j ∈ added, Leaked N.cfg N.initial j) {j : JobDetail}
    (hj : first JobDetail.key j.key (N.cfg.jobList ++ added) = some j)
    (hn : N.initial.jobs j.key = none) : MayPutJob N.cfg N.initial j := by
  refine ⟨fun hyes => ?_, fun _ => ⟨hn, ?_⟩⟩
  · rw [ho] at hyes
    cases hyes
  · rw [first_append] at hj
    cases hf : first JobDetail.key j.key N.cfg.jobList with
    | some j' =>
      rw [hf, Option.some_or] at hj
      simp [expectedJob, ho, hn, hf, hj]
    | none =>
      rw [hf, Option.none_or] at hj
      exact (hadded j (mem_of_first hj)).expected

/-- One entry of the job phase. -/
theorem jobPhase_step (ho : N.cfg.overwriteExistingJobs = false) {b₀ : Bean}
    (hb : BeanList N.cfg N.initial added b₀) {pre post : List JobDetail} {j : JobDetail}
    (he : N.cfg.jobList ++ added = pre ++ j :: post) :
    N.Spec (fun b s => b = b₀ ∧ JobPhase N pre s) (addJobToScheduler N.cfg (some j))
      (fun _ b s => b = b₀ ∧ JobPhase N (pre ++ [j]) s) N.Stopped := by
  have hI : ∀ d, N.Settled fun b s => b = b₀ ∧ JobPhase N d s :=
    fun d => (Settled.pure _).and (settled_jobPhase d)
  refine (addJobToScheduler_spec ho (MayPutJob N.cfg N.initial j) (hI pre)
    (hI (pre ++ [j])) (hI (pre ++ [j])) ?_ ?_ ?_ ?_).post fun r b s _ h => by cases r <;> exact h
  · rintro b s _ ⟨rfl, h⟩ hthere
    exact ⟨rfl, h.found hthere⟩
  · rintro b s hs ⟨rfl, h⟩ hnone
    have hnew : j.key ∉ pre.map JobDetail.key := fun hm => h.present _ hm hnone
    refine mayPutJob_of_first ho hb.leaked (by rw [he, first_of_new hnew]) ?_
    by_contra hn
    exact hs.job_present hn hnone
  · rintro b s _ ⟨rfl, h⟩ hmay
    exact ⟨hmay, rfl, h.putJob j⟩
  · rintro hfault ex b s hs ⟨rfl, _⟩
    exact ⟨⟨added, hb⟩, Or.inl hfault⟩

/-- The phase of the jobs ends where the first trigger's turn begins. -/
theorem JobPhase.jobsOf (ho : N.cfg.overwriteExistingJobs = false)
    (hadded : ∀ j ∈ added, Leaked N.cfg N.initial j) {b : Bean} {s : Tracked ι}
    (hb : b.jobDetails = some (N.cfg.jobList ++ added))
    (h : JobPhase N (N.cfg.jobList ++ added) s) : JobsOf N added [] b s := by
  have hnil : N.jobsSoFar added [] = N.cfg.jobList ++ added := by
    simp [jobsSoFar, broughtJobs, consideredTriggers, ho, newTriggers, carriedJobs]
  refine ⟨⟨?_, ?_⟩, added, hb, hadded, h.present⟩
  · rw [hnil]
    exact h.own
  · rw [hnil]
    exact h.present

/-- A turn whose trigger was there already brings no job detail: another node brought it. -/
theorem JobsOf.skip {b : Bean} {s : Tracked ι} (h : JobsOf N added done b s)
    (ht : ∀ j, Considered N.cfg N.initial done t → t.carried = some j →
      s.jobs.value j.key ≠ none) :
    JobsOf N added (done ++ [t]) b s := by
  refine ⟨⟨fun k hk => ?_, fun k hk => ?_⟩, h.listed⟩
  · have hk' := h.keys.own k hk
    simp only [jobsSoFar, broughtJobs_append_singleton, List.map_append, List.mem_append] at hk' ⊢
    exact hk'.imp_right Or.inl
  · simp only [jobsSoFar, broughtJobs_append_singleton, ← List.append_assoc] at hk
    rw [List.map_append, List.mem_append] at hk
    rcases hk with hk | hk
    · exact h.keys.present k hk
    · obtain ⟨j, hj, rfl⟩ := List.mem_map.mp hk
      split at hj
      · next hc => exact ht j hc (Option.mem_toList.mp hj)
      · simp at hj

/-- A job detail that is brought first and not configured is what its key will hold. -/
theorem leaked_of_missing {b : Bean} {s : Tracked ι} (h : JobsOf N added done b s)
    (hs : N.UnderWay s) (hdone : done ++ [t] <+: N.cfg.triggerList)
    (hc : Considered N.cfg N.initial done t) {j : JobDetail} (ht : t.carried = some j)
    (hj : s.jobs.value j.key = none) : Leaked N.cfg N.initial j := by
  have hnew : j.key ∉ (N.jobsSoFar added done).map JobDetail.key :=
    fun hm => h.keys.present _ hm hj
  simp only [jobsSoFar, List.map_append, List.mem_append, not_or] at hnew
  obtain ⟨rest, hrest⟩ : broughtJobs N.cfg N.initial (done ++ [t]) <+:
      broughtJobs N.cfg N.initial N.cfg.triggerList := broughtJobs_mono hdone
  rw [broughtJobs_append_singleton, if_pos hc, ht, Option.toList_some, List.append_assoc,
    List.singleton_append] at hrest
  refine ⟨hnew.1.1, by rw [← hrest, first_of_new hnew.2], fun _ => ?_⟩
  by_contra hn
  exact hs.job_present hn hj

/-- A turn that brings a new job detail, written and put into the bean's list. -/
theorem JobsOf.putJob {b : Bean} {s : Tracked ι} (h : JobsOf N added done b s)
    (hc : Considered N.cfg N.initial done t) {j : JobDetail} (ht : t.carried = some j)
    (hj : Leaked N.cfg N.initial j) {listed : List JobDetail} (hb : b.jobDetails = some listed) :
    JobsOf N added (done ++ [t]) ⟨some (listed ++ [j])⟩ (s.putJob N.node j) := by
  have hkeys : ∀ k, k ∈ (N.jobsSoFar added (done ++ [t])).map JobDetail.key ↔
      k ∈ (N.jobsSoFar added done).map JobDetail.key ∨ k = j.key := by
    intro k
    simp [jobsSoFar, broughtJobs_append_singleton, hc, ht, or_assoc]
  have hput : ∀ k, s.jobs.value k ≠ none ∨ k = j.key → (s.putJob N.node j).jobs.value k ≠ none := by
    intro k hk
    by_cases he : k = j.key
    · subst he
      simp [Tracked.putJob]
    · rw [Tracked.putJob, OwnedMap.write_value_of_ne he]
      exact hk.resolve_right he
  refine ⟨⟨fun k hk => ?_, fun k hk => ?_⟩, ?_⟩
  · by_cases he : k = j.key
    · exact (hkeys k).mpr (Or.inr he)
    · rw [Tracked.putJob, OwnedMap.write_writer_of_ne he] at hk
      exact (hkeys k).mpr (Or.inl (h.keys.own k hk))
  · exact hput k (((hkeys k).mp hk).imp_left (h.keys.present k))
  · obtain ⟨kept, hb', hkept, hpresent⟩ := h.listed
    obtain rfl : listed = N.cfg.jobList ++ kept := Option.some.inj (hb.symm.trans hb')
    refine ⟨kept ++ [j], by rw [List.append_assoc], fun j' hj' => ?_, fun k hk => hput k ?_⟩
    · rcases List.mem_append.mp hj' with h' | h'
      · exact hkept j' h'
      · rwa [List.mem_singleton.mp h']
    · rw [← List.append_assoc, List.map_append, List.mem_append] at hk
      exact hk.imp (hpresent k) fun hk => by simpa using hk

/-- The job detail of one trigger; `T` is what is known of the triggers meanwhile. -/
theorem registerJobOfTrigger_spec (ho : N.cfg.overwriteExistingJobs = false)
    (hdone : done ++ [t] <+: N.cfg.triggerList) (hc : Considered N.cfg N.initial done t)
    {T : Tracked ι → Prop} (hT : N.Settled fun _ s => T s)
    (hput : ∀ s j, T s → T (s.putJob N.node j)) :
    N.Spec (N.AfterTurns added (JobsOf N added done) T done) (registerJobOfTrigger N.cfg t)
      (fun _ b s => N.AfterTurns added (JobsOf N added (done ++ [t])) T done b s ∧
        t.kind ≠ .jobDetailAware none) N.Stopped := by
  have hbefore : N.Settled (N.AfterTurns added (JobsOf N added done) T done) :=
    settled_afterTurns settled_jobsOf hT
  have hafter : N.Settled (N.AfterTurns added (JobsOf N added (done ++ [t])) T done) :=
    settled_afterTurns settled_jobsOf hT
  refine Registering.registerJobOfTrigger_spec hdone hc hbefore hafter ?_ ?_ ?_
  · intro b s h
    obtain ⟨kept, hb, _⟩ := h.jobs.listed
    exact ⟨by simp [hb], h.jobs.listed.beanOk⟩
  · intro b s h hcarried
    refine ⟨h.jobs.skip fun j _ hj => ?_, h.triggers, h.calendars, h.schedulable⟩
    obtain ⟨listed, hb, hm⟩ := hcarried j hj
    obtain ⟨kept, hb', _, hpresent⟩ := h.jobs.listed
    obtain rfl : listed = N.cfg.jobList ++ kept := Option.some.inj (hb.symm.trans hb')
    exact hpresent j.key hm
  · intro b₀ listed j ht hb hnot
    have hmid : N.Settled fun _ s =>
        N.AfterTurns added (JobsOf N added (done ++ [t])) T done ⟨some (listed ++ [j])⟩ s :=
      fun _ s u hs hu hl h => hafter _ s u hs hu hl h
    refine addJobToScheduler_spec ho (Leaked N.cfg N.initial j) ((Settled.pure _).and hbefore)
      hafter hmid ?_ ?_ ?_ ?_
    · rintro b s _ ⟨_, h⟩ hthere
      refine ⟨h.jobs.skip fun j' _ hj' => ?_, h.triggers, h.calendars, h.schedulable⟩
      obtain rfl : j = j' := Option.some.inj (ht.symm.trans hj')
      exact hthere
    · rintro b s hs ⟨_, h⟩ hnone
      exact leaked_of_missing h.jobs hs hdone hc ht hnone
    · rintro b s _ ⟨rfl, h⟩ hl
      exact ⟨hl.mayPut, h.jobs.putJob hc ht hl hb, hput s j h.triggers, h.calendars, h.schedulable⟩
    · rintro hfault ex b s _ ⟨_, h⟩
      exact ⟨h.jobs.listed.beanOk, Or.inl hfault⟩

/-- Everything after the turns of the triggers `done`. -/
abbrev Turns (N : Registering ι) (added : List JobDetail) (done : List Trigger) :
    Bean → Tracked ι → Prop :=
  N.AfterTurns added (JobsOf N added done) (N.TriggerKeys done) done

/-- Other nodes leave what is known between two turns. -/
theorem settled_turns : N.Settled (Turns N added done) :=
  settled_afterTurns settled_jobsOf settled_triggerKeys

/-- Between the two halves of a turn of a new trigger. -/
def InTurn (N : Registering ι) (added : List JobDetail) (done : List Trigger) (t : Trigger)
    (b : Bean) (s : Tracked ι) : Prop :=
  N.AfterTurns added (JobsOf N added (done ++ [t]))
    (fun s => N.TriggerKeys done s ∧ IsNew N.initial done t) done b s ∧
      t.kind ≠ .jobDetailAware none

/-- Other nodes leave what is known inside a turn. -/
theorem settled_inTurn : N.Settled (InTurn N added done t) := by
  have hd : N.Settled fun _ s => N.TriggerKeys done s ∧ IsNew N.initial done t :=
    settled_triggerKeys.and fun _ _ _ _ _ _ h => h
  exact fun b s u hs hu hl h => ⟨settled_afterTurns settled_jobsOf hd b s u hs hu hl h.1, h.2⟩

/-- A trigger that is there already completes its turn. -/
theorem triggerKeys_found {s : Tracked ι} (h : N.TriggerKeys done s)
    (ht : s.triggers.value t.key ≠ none) : N.TriggerKeys (done ++ [t]) s := by
  refine ⟨fun k hk => ?_, fun k hk => ?_⟩
  · rw [List.map_append]
    exact List.mem_append_left _ (h.own k hk)
  · rw [List.map_append, List.mem_append] at hk
    rcases hk with hk | hk
    · exact h.present k hk
    · rwa [show k = t.key by simpa using hk]

/-- Storing the trigger completes its turn. -/
theorem triggerKeys_putTrigger {s : Tracked ι} (h : N.TriggerKeys done s) (t : Trigger) :
    N.TriggerKeys (done ++ [t]) (s.putTrigger N.node t.key t) := by
  refine ⟨fun k hk => ?_, fun k hk => ?_⟩
  · by_cases he : k = t.key
    · simp [he]
    · rw [Tracked.putTrigger, OwnedMap.write_writer_of_ne he] at hk
      rw [List.map_append]
      exact List.mem_append_left _ (h.own k hk)
  · by_cases he : k = t.key
    · subst he
      simp [Tracked.putTrigger]
    · rw [Tracked.putTrigger, OwnedMap.write_value_of_ne he]
      refine h.present k ?_
      simpa [he, Ne.symm he] using hk

/-- A new trigger is the first of its key. -/
theorem first_of_isNew (hdone : done ++ [t] <+: N.cfg.triggerList)
    (hnew : IsNew N.initial done t) : first Trigger.key t.key N.cfg.triggerList = some t := by
  obtain ⟨post, hpost⟩ := hdone
  rw [← hpost, List.append_assoc, List.singleton_append]
  exact first_of_new hnew.2

/-- Scheduling a trigger that was not there; one that has appeared since is kept. -/
theorem scheduleNewTrigger_spec (ho : N.cfg.overwriteExistingJobs = false)
    (hdone : done ++ [t] <+: N.cfg.triggerList) :
    N.Spec (InTurn N added done t) (scheduleNewTrigger N.cfg t)
      (fun _ => Turns N added (done ++ [t])) N.Stopped := by
  let e : Throwable → Bean → Tracked ι → Prop := fun ex b s =>
    if ex.isObjectAlreadyExists then Turns N added (done ++ [t]) b s else N.Stopped ex b s
  have he : ∀ ex, N.Settled (e ex) := by
    intro ex
    simp only [e]
    split
    · exact settled_turns
    · exact settled_stopped ex
  unfold scheduleNewTrigger
  refine Spec.tryCatch (e := e) ((Spec.scheduleJob (q := fun _ => Turns N added (done ++ [t]))
    settled_inTurn settled_turns he ?_ ?_ ?_ ?_).discard settled_turns fun _ _ _ _ h => h) ?_
  · intro b s hs h hthere
    exact h.1.snoc h.1.jobs (triggerKeys_found h.1.triggers.1 hthere) rfl (fun _ _ => h.2)
      fun hsolo hnew => absurd hnew (h.1.triggers.1.not_isNew hs hsolo hthere)
  · intro b s hs h _ hnojob
    exact ⟨h.1.jobs.listed.beanOk, Or.inr fun hsch =>
      h.1.jobs.keys.there hs ((hsch done t hdone).2 h.1.triggers.2) hnojob⟩
  · intro b s hs h _ hjob
    have hnew : IsNew N.initial done t := h.1.triggers.2
    refine ⟨⟨fun hyes => ?_, fun _ => ⟨hnew.1, ?_, fun j hj => ?_⟩⟩, ?_⟩
    · rw [ho] at hyes
      cases hyes
    · rw [expectedTrigger_of_keeping ho hnew.1, first_of_isNew hdone hnew]
    · have hc : Considered N.cfg N.initial done t := Or.inr hnew
      refine h.1.jobs.keys.present j.key ?_
      simp [jobsSoFar, broughtJobs_append_singleton, hc, hj]
    · exact h.1.snoc ⟨⟨h.1.jobs.keys.own, h.1.jobs.keys.present⟩, h.1.jobs.listed⟩
        (triggerKeys_putTrigger h.1.triggers.1 t) rfl (fun _ _ => h.2)
        fun hsolo _ => h.1.jobs.keys.available hs hsolo hjob
  · intro hfault ex b s _ h hex
    simp only [e, hex, Bool.false_eq_true, if_false]
    exact ⟨h.1.jobs.listed.beanOk, Or.inl hfault⟩
  · intro ex
    by_cases hex : ex.isObjectAlreadyExists = true
    · simp only [e, hex, ho, Bool.false_eq_true, if_true, if_false]
      exact Spec.pure settled_turns fun _ _ _ h => h
    · simp only [e, hex, Bool.false_eq_true, if_false]
      exact Spec.throw (settled_stopped ex) fun _ _ _ h => h

/-- A trigger that is there is kept; if it is a new one, another node has stored it, after the
job detail it brings along. -/
theorem Turns.found (ho : N.cfg.overwriteExistingJobs = false)
    (hdone : done ++ [t] <+: N.cfg.triggerList) {b : Bean} {s : Tracked ι} (hs : N.UnderWay s)
    (h : Turns N added done b s) (ht : s.triggers.value t.key ≠ none) :
    Turns N added (done ++ [t]) b s := by
  have hnot : N.Solo added → ¬IsNew N.initial done t := fun hsolo =>
    h.triggers.not_isNew hs hsolo ht
  refine h.snoc (h.jobs.skip fun j hc hj => ?_) (triggerKeys_found h.triggers ht) rfl
    (fun hsolo hc => ?_) fun hsolo hnew => absurd hnew (hnot hsolo)
  · have hnew : IsNew N.initial done t := hc.resolve_left (by simp [ho])
    exact (hs.between.extended ho).brought t.key t j hnew.1 ht (first_of_isNew hdone hnew) hj
  · exact absurd (hc.resolve_left (by simp [ho])) (hnot hsolo)

/-- One turn of the trigger loop. -/
theorem addTriggerToScheduler_spec (ho : N.cfg.overwriteExistingJobs = false)
    (hdone : done ++ [t] <+: N.cfg.triggerList) :
    N.Spec (Turns N added done) (addTriggerToScheduler N.cfg t)
      (fun _ => Turns N added (done ++ [t])) N.Stopped := by
  let new : Bean → Tracked ι → Prop := N.AfterTurns added (JobsOf N added done)
    (fun s => N.TriggerKeys done s ∧ IsNew N.initial done t) done
  have hd : N.Settled fun _ s => N.TriggerKeys done s ∧ IsNew N.initial done t :=
    settled_triggerKeys.and fun _ _ _ _ _ _ h => h
  have hnew : N.Settled new := settled_afterTurns settled_jobsOf hd
  let seen : Option Trigger → Bean → Tracked ι → Prop := fun existing b s =>
    if existing.isSome then Turns N added (done ++ [t]) b s else new b s
  have hseen : ∀ existing, N.Settled (seen existing) := by
    intro existing
    simp only [seen]
    split
    · exact settled_turns
    · exact hnew
  unfold addTriggerToScheduler
  refine (Spec.getTrigger (q := seen) settled_turns hseen settled_stopped ?_ ?_).bind
    fun existing => ?_
  · intro b s hs h
    cases hv : s.triggers.value t.key with
    | some u => exact h.found ho hdone hs (by simp [hv])
    | none => exact ⟨h.jobs, ⟨h.triggers, h.triggers.isNew hs hv⟩, h.calendars, h.schedulable⟩
  · exact fun hfault ex b s _ h => ⟨h.jobs.listed.beanOk, Or.inl hfault⟩
  · cases existing with
    | some u =>
      simp only [ho, Option.isSome_some, Bool.not_true, Bool.or_false, Bool.false_eq_true, if_false]
      exact Spec.pure settled_turns fun _ _ _ h => h
    | none =>
      simp only [Option.isSome_none, Bool.not_false, Bool.true_or, if_true]
      by_cases hn : IsNew N.initial done t
      · have hstore : N.Spec (InTurn N added done t) (storeTrigger N.cfg false t)
            (fun _ => Turns N added (done ++ [t])) N.Stopped := scheduleNewTrigger_spec ho hdone
        refine (registerJobOfTrigger_spec ho hdone (Or.inr hn) hd ?_).bind fun _ =>
          hstore.bind fun _ => Spec.pure settled_turns fun _ _ _ h => h
        exact fun s j h => ⟨⟨h.1.own, h.1.present⟩, h.2⟩
      · exact Spec.of_false fun b s _ h => hn h.triggers.2

/-- A job key that is not there in the end was to stay empty. -/
theorem expectedJob_of_missing (ho : N.cfg.overwriteExistingJobs = false) {s : Tracked ι}
    (h : N.JobKeys added N.cfg.triggerList s) {k : JobKey} (hk : s.jobs.value k = none)
    (hn : N.initial.jobs k = none) : expectedJob N.cfg N.initial k = none := by
  have hnot : k ∉ (N.jobsSoFar added N.cfg.triggerList).map JobDetail.key :=
    fun hm => h.present k hm hk
  simp only [jobsSoFar, List.map_append, List.mem_append, not_or] at hnot
  have hlist : first JobDetail.key k N.cfg.jobList = none :=
    not_ne_iff.mp (mt first_ne_none.mp hnot.1.1)
  have hbrought : first JobDetail.key k (broughtJobs N.cfg N.initial N.cfg.triggerList) = none :=
    not_ne_iff.mp (mt first_ne_none.mp hnot.2)
  simp [expectedJob, ho, hn, hlist, hbrought]

/-- A trigger key that is not there in the end was to stay empty. -/
theorem expectedTrigger_of_missing (ho : N.cfg.overwriteExistingJobs = false) {s : Tracked ι}
    (h : N.TriggerKeys N.cfg.triggerList s) {k : TriggerKey} (hk : s.triggers.value k = none)
    (hn : N.initial.triggers k = none) : expectedTrigger N.cfg N.initial k = none := by
  rw [expectedTrigger_of_keeping ho hn]
  exact not_ne_iff.mp (mt first_ne_none.mp fun hm => h.present k hm hk)

/-- A completed registration in keeping mode. -/
theorem completed (ho : N.cfg.overwriteExistingJobs = false) {b : Bean} {s : Tracked ι}
    (hs : N.UnderWay s) (h : Turns N added N.cfg.triggerList b s) : N.Completed added b s := by
  have hjobs : ∀ k, s.jobs.value k = expectedJob N.cfg N.initial k := by
    intro k
    rcases (hs.between.extended ho).jobs k with hk | ⟨_, hk⟩
    · cases hn : N.initial.jobs k with
      | none =>
        have hv : s.jobs.value k = none := hk.trans hn
        rw [hv, expectedJob_of_missing ho h.jobs.keys hv hn]
      | some j =>
        have hv : s.jobs.value k = some j := hk.trans hn
        simp [hv, expectedJob, ho, hn]
    · exact hk
  have htriggers : ∀ k, s.triggers.value k = expectedTrigger N.cfg N.initial k := by
    intro k
    rcases (hs.between.extended ho).triggers k with hk | ⟨_, hk⟩
    · cases hn : N.initial.triggers k with
      | none =>
        have hv : s.triggers.value k = none := hk.trans hn
        rw [hv, expectedTrigger_of_missing ho h.triggers hv hn]
      | some t =>
        have hv : s.triggers.value k = some t := hk.trans hn
        simp [hv, expectedTrigger, ho, hn]
    · exact hk
  refine ⟨h.jobs.listed.beanOk, fun k _ => hjobs k, fun k hk => ?_, fun k _ => htriggers k,
    fun k hk => ?_, h.calendars, h.schedulable⟩
  · rw [← hjobs k, hs.jobs.untouched k hk]
  · rw [← htriggers k, hs.triggers.untouched k hk]

/-- All phases, without XML files. -/
theorem registerAll_spec (ho : N.cfg.overwriteExistingJobs = false)
    (hfiles : N.cfg.jobSchedulingDataLocations = none) {b₀ : Bean}
    (hb : BeanList N.cfg N.initial added b₀) :
    N.Spec (fun b s => b = b₀ ∧ N.Untouched s) (registerAll N.cfg)
      (fun _ b s => N.Completed added b s) N.Stopped := by
  refine (Registering.registerAll_spec (J := JobsOf N added) (T := N.TriggerKeys)
    (fun _ => settled_jobsOf) (fun _ => settled_triggerKeys) ?_ (fun _ _ h => h.listed.beanOk)
    hfiles ?_ fun _ _ hdone => addTriggerToScheduler_spec ho hdone).post
    fun _ _ _ hs h => completed ho hs h
  · rintro b s n c ⟨hj, ht⟩
    exact ⟨⟨⟨hj.keys.own, hj.keys.present⟩, hj.listed⟩, ht.own, ht.present⟩
  · refine (registerJobDetails_spec hb settled_jobPhase (fun s h => ?_) fun pre j post he =>
      jobPhase_step ho hb he).post ?_
    · exact ⟨fun k hk => absurd hk (h.1 k), by simp, h.2⟩
    · rintro _ b s hs ⟨hlist, h⟩
      exact ⟨h.jobsOf ho hb.leaked hlist, fun k hk => absurd hk (h.triggers k), by simp⟩

end Preserving

end Registering

end MySchedule.Registration
