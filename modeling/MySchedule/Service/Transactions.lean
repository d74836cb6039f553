import MySchedule.Service.Methods

/-!
# All or nothing

What the proxy makes of a method. With `rollbackFor={SchedulerException.class}` a request
that throws leaves the committed store alone, unless its commit has failed, and no smaller
`rollbackFor` would do.
-/

namespace MySchedule.Service

open Interaction Java Keyed Machines
open Registration (JobKey TriggerKey alreadyExists)
open Cleanup (JobStore StoredJob StoredTrigger unscheduleAll)
open Server (JobDetail jobKey putJob hasJob notDurable)

/-- Every exception that a method may throw rolls back. -/
def Covering (rollbackFor : Throwable → Bool) : Prop :=
  ∀ ex, mayThrow ex → rollbackOn rollbackFor ex = true

section

variable {f : Faults} {c : JobStore} {rollbackFor : Throwable → Bool}

/-- A call that is at fault itself leaves what is committed, unless it is a commit. -/
theorem committed_of_failed {call : ServiceCall} {ex : Throwable} {d : Database} {n : ℕ}
    {y : Database × ℕ} (hcommit : call ≠ .commit) (hexec : (exec call d).1 ≠ .error ex)
    (hcall : f.serve call (d, n) = (.error ex, y)) : y.1.committed = d.committed := by
  rcases faulty_error hcall with ⟨_, hlost⟩ | hfailed
  · exact (congrArg Database.committed hlost).trans (f.uncommitted n call d hcommit)
  · exact absurd (congrArg Prod.fst hfailed) hexec

/-- The transaction begins on the committed store. -/
theorem getTransaction_serves :
    Achieves (recorded f.serve) (fun log x => x.1.1 = ⟨c, none⟩ ∧ log = [])
      transactionManager.getTransaction (fun _ log x => At c c [] log x.1)
      fun _ _ x => x.1.1.committed = c := by
  refine Achieves.perform ?_ ?_
  · rintro log ⟨⟨d, n⟩, trace⟩ a ⟨⟨d', n'⟩, trace'⟩ ⟨rfl, rfl⟩ hcall
    cases faulty_ok (recorded_eq_iff.mp hcall).1
    exact ⟨rfl, rfl⟩
  · rintro log ⟨⟨d, n⟩, trace⟩ ex ⟨⟨d', n'⟩, trace'⟩ ⟨rfl, rfl⟩ hcall
    exact committed_of_failed (by simp) (by simp [exec]) (recorded_eq_iff.mp hcall).1

/-- After an exception nothing is committed, if every exception rolls back. -/
theorem completeAfterThrowing_serves {ex : Throwable} :
    Achieves (recorded f.serve) (fun log x => Thrown c ex log x.1)
      (completeAfterThrowing rollbackFor ex)
      (fun _ _ x => Covering rollbackFor → x.1.1.committed = c)
      fun _ _ x => Covering rollbackFor → x.1.1.committed = c := by
  refine Achieves.ite (fun _ => ?_) fun hnot => ?_
  · refine Achieves.perform ?_ ?_
    · rintro log ⟨⟨d, n⟩, trace⟩ a ⟨⟨d', n'⟩, trace'⟩ ⟨hd, _⟩ hcall _
      cases faulty_ok (recorded_eq_iff.mp hcall).1
      exact hd
    · rintro log ⟨⟨d, n⟩, trace⟩ ex' ⟨⟨d', n'⟩, trace'⟩ ⟨hd, _⟩ hcall _
      have hkept := committed_of_failed (by simp) (by simp [exec]) (recorded_eq_iff.mp hcall).1
      exact hkept.trans hd
  · refine Achieves.perform ?_ ?_
    · exact fun log x a y hx _ hcov => absurd (hcov ex hx.2) hnot
    · exact fun log x ex' y hx _ hcov => absurd (hcov ex hx.2) hnot

/-- The commit has the work done, or fails with all of it done or none. -/
theorem commit_serves {T : JobStore → List LogLine → Prop} :
    Achieves (recorded f.serve) (fun log x => ∃ s', At c s' log log x.1 ∧ T s' log)
      transactionManager.commit
      (fun _ log x => T x.1.1.committed log ∧ x.2.getLast? = some ⟨.commit, .ok ()⟩)
      fun ex log x => x.1.1.committed = c ∨
        T x.1.1.committed log ∧ x.2.getLast? = some ⟨.commit, .error ex⟩ := by
  refine Achieves.perform ?_ ?_
  · rintro log ⟨⟨d, n⟩, trace⟩ a ⟨⟨d', n'⟩, trace'⟩ ⟨s', ⟨rfl, _⟩, hT⟩ hcall
    obtain ⟨hserved, htrace⟩ := recorded_eq_iff.mp hcall
    cases faulty_ok hserved
    exact ⟨hT, by rw [htrace]; exact List.getLast?_concat⟩
  · rintro log ⟨⟨d, n⟩, trace⟩ ex ⟨⟨d', n'⟩, trace'⟩ ⟨s', ⟨rfl, _⟩, hT⟩ hcall
    obtain ⟨hserved, htrace⟩ := recorded_eq_iff.mp hcall
    rcases faulty_error hserved with ⟨_, hd⟩ | hexec
    · have hcommitted : d'.committed = (f.lost n .commit ⟨c, some s'⟩).committed :=
        congrArg Database.committed hd
      rcases f.atomic n ⟨c, some s'⟩ with hnone | hall
      · exact Or.inl (hcommitted.trans hnone)
      · have hdone : d'.committed = s' := hcommitted.trans hall
        exact Or.inr ⟨hdone ▸ hT, by rw [htrace]; exact List.getLast?_concat⟩
    · cases hexec

/-- What the proxy makes of a method: its work is committed when it returns, and undone when
it throws, if that rolls back. Where the commit itself fails, its work may be committed too. -/
theorem transactional_serves (rollbackFor : Throwable → Bool) {m : ServiceM Unit}
    {T : JobStore → List LogLine → Prop}
    (hm : Achieves f.serve (At c c []) m (fun _ log x => ∃ s', At c s' log log x ∧ T s' log)
      (Thrown c)) :
    Achieves (recorded f.serve) (fun log x => x.1.1 = ⟨c, none⟩ ∧ log = [])
      (transactional rollbackFor m)
      (fun _ log x => T x.1.1.committed log ∧ x.2.getLast? = some ⟨.commit, .ok ()⟩)
      fun ex log x => Covering rollbackFor → x.1.1.committed = c ∨
        T x.1.1.committed log ∧ x.2.getLast? = some ⟨.commit, .error ex⟩ := by
  refine Achieves.bind (Q := fun _ log x => At c c [] log x.1) ?_ fun _ => Achieves.bind
    (Q := fun _ log x => ∃ s', At c s' log log x.1 ∧ T s' log)
    (Achieves.tryCatch hm.recorded fun ex => ?_) fun _ => ?_
  · exact getTransaction_serves.consequence (fun _ _ h => h) (fun _ _ _ h => h)
      fun _ _ _ h _ => Or.inl h
  · refine (completeAfterThrowing_serves.consequence (fun _ _ h => h) (fun _ _ _ h => h)
      fun _ _ _ h hcov => Or.inl (h hcov)).bind fun _ => ?_
    exact Achieves.throw fun _ _ h hcov => Or.inl (h hcov)
  · exact commit_serves.consequence (fun _ _ h => h) (fun _ _ _ h => h) fun _ _ _ h _ => h

end

/-! ## The service -/

section

variable {rollbackFor : Throwable → Bool} {r : Request} {s : JobStore}

/-- A request that returns has done what its method does, with a commit as its last call. One that
throws has left the committed store alone if every exception rolls back, or has failed at that
commit with its work done. -/
theorem onto_cases (rollbackFor : Throwable → Bool) (r : Request) (s : JobStore) :
    ((r.onto rollbackFor s).1.result = .ok () →
      r.method.Done s (r.onto rollbackFor s).2 (r.onto rollbackFor s).1.log ∧
      (r.calls rollbackFor s).getLast? = some ⟨.commit, .ok ()⟩) ∧
    ∀ ex, (r.onto rollbackFor s).1.result = .error ex → Covering rollbackFor →
      (r.onto rollbackFor s).2 = s ∨
        r.method.Done s (r.onto rollbackFor s).2 (r.onto rollbackFor s).1.log ∧
        (r.calls rollbackFor s).getLast? = some ⟨.commit, .error ex⟩ := by
  have hrun := (transactional_serves rollbackFor (body_serves (f := r.faults) (c := s)
    r.method)).run_recorded (b := []) (s := (⟨s, none⟩, 0)) ⟨rfl, rfl⟩
  unfold Request.onto Request.calls
  rcases hout : Body.runWith r.faults.serve (transactional rollbackFor r.method.body) []
    (⟨s, none⟩, 0) with ⟨⟨ex | u, log⟩, x⟩
  · rw [hout] at hrun
    refine ⟨fun h => (by cases h), fun ex' h hcov => ?_⟩
    cases h
    exact hrun hcov
  · rw [hout] at hrun
    exact ⟨fun _ => hrun, fun _ h => (by cases h)⟩

/-- Rules that roll back on every scheduler exception cover what the methods throw. -/
theorem covering_of_schedulerExceptions
    (h : ∀ ex, Throwable.isSchedulerException ex = true → rollbackFor ex = true) :
    Covering rollbackFor := by
  intro ex hex
  rcases hex with hex | hex
  · rw [rollbackOn, h ex hex, Bool.true_or]
  · rw [rollbackOn, hex, Bool.or_true]

/-- The second `addJob` of `scheduleJobs` fails. -/
def secondFails (ex : Throwable) (h : ex.isSchedulerException = true) : Faults where
  fails n _ := if n = 2 then some ex else none
  declared n _ ex' hfails := by
    split at hfails
    · cases hfails
      exact Or.inl h
    · cases hfails
  lost _ _ d := d
  uncommitted _ _ _ _ := rfl
  atomic _ _ := Or.inl rfl

/-- An exception that does not roll back leaves the first job committed. -/
theorem secondFails_onto {ex : Throwable} (h : ex.isSchedulerException = true)
    (hcommit : rollbackOn rollbackFor ex = false) :
    Request.onto rollbackFor ⟨.scheduleJobs, secondFails ex h⟩ Server.emptyJobStore =
      (⟨.error ex, [⟨.info, "Scheduling job now.", []⟩]⟩,
        putJob Server.emptyJobStore ⟨jobKey "job1", true⟩) := by
  have hmain : Body.runWith (secondFails ex h).serve scheduleJobs []
      (⟨Server.emptyJobStore, some Server.emptyJobStore⟩, 1) =
        ((.error ex, [⟨.info, "Scheduling job now.", []⟩]), (⟨Server.emptyJobStore,
          some (putJob Server.emptyJobStore ⟨jobKey "job1", true⟩)⟩, 3)) := rfl
  have hbegun : Body.runWith (secondFails ex h).serve transactionManager.getTransaction []
      (⟨Server.emptyJobStore, none⟩, 0) =
        ((.ok (), []), (⟨Server.emptyJobStore, some Server.emptyJobStore⟩, 1)) := rfl
  have hended : ∀ (lines : List LogLine) (d : Database),
      Body.runWith (secondFails ex h).serve (do
        completeAfterThrowing rollbackFor ex
        throw ex : ServiceM Unit) lines (d, 3) =
          ((.error ex, lines), (⟨d.current, none⟩, 4)) := by
    intro lines d
    unfold completeAfterThrowing
    rw [hcommit]
    rfl
  have hrun : Body.runWith (secondFails ex h).serve (transactional rollbackFor scheduleJobs) []
      (⟨Server.emptyJobStore, none⟩, 0) = ((.error ex, [⟨.info, "Scheduling job now.", []⟩]),
        (⟨putJob Server.emptyJobStore ⟨jobKey "job1", true⟩, none⟩, 4)) := by
    unfold transactional
    rw [Body.runWith_bind_of_ok hbegun, Body.runWith_bind_of_error
      ((Body.runWith_tryCatch_of_error hmain).trans (hended _ _))]
    rfl
  exact congrArg (fun out => ((⟨out.1.1, out.1.2⟩ : Reply), out.2.1.committed)) hrun

/-- The service is all or nothing if and only if `rollbackFor` has every scheduler exception: those
are checked exceptions, which otherwise commit. Whichever calls fail, a request that throws then
leaves the store alone, or it throws what its commit failed with and its work is done in whole. -/
theorem all_or_nothing_iff (rollbackFor : Throwable → Bool) :
    (∀ (s : JobStore) (r : Request) (ex : Throwable),
        (r.onto rollbackFor s).1.result = .error ex →
        (r.onto rollbackFor s).2 = s ∨
          r.method.Done s (r.onto rollbackFor s).2 (r.onto rollbackFor s).1.log ∧
          (r.calls rollbackFor s).getLast? = some ⟨.commit, .error ex⟩) ↔
      ∀ ex : Throwable, ex.isSchedulerException = true → rollbackFor ex = true := by
  constructor
  · intro hall ex hex
    by_contra hnot
    have hunchecked : isUnchecked ex = false := by
      unfold Throwable.isSchedulerException at hex
      unfold isUnchecked
      rcases (Bool.or_eq_true _ _).mp hex with hcls | hcls <;>
        rw [of_decide_eq_true hcls]
    have hcommit : rollbackOn rollbackFor ex = false := by
      rw [rollbackOn, hunchecked, Bool.or_false]
      exact Bool.eq_false_iff.mpr hnot
    have hrun := secondFails_onto hex hcommit
    rcases hall Server.emptyJobStore ⟨.scheduleJobs, secondFails ex hex⟩ ex (by rw [hrun]) with
      hkept | ⟨hdone, -⟩
    · rw [hrun] at hkept
      have hjobs := congrArg JobStore.jobs hkept
      cases hjobs
    · exact hdone
  · intro h s r ex hresult
    exact (onto_cases rollbackFor r s).2 ex hresult (covering_of_schedulerExceptions h)

/-- A `removeJobs` that returns. -/
def Removes (s : JobStore) (r : Request) : Prop :=
  r.method = .removeJobs ∧ (r.onto schedulerExceptions s).1.result = .ok ()

/-- A `removeJobs` that gets to its commit, whether that goes through or fails. -/
def Commits (s : JobStore) (r : Request) : Prop :=
  r.method = .removeJobs ∧
    ∃ answer, (r.calls schedulerExceptions s).getLast? = some ⟨.commit, answer⟩

/-- The scheduler exceptions alone are enough. -/
theorem covering_schedulerExceptions : Covering schedulerExceptions :=
  covering_of_schedulerExceptions fun _ h => h

/-- A request that throws changes nothing, unless it is a removal whose commit has failed. -/
theorem onto_of_throws (r : Request) (s : JobStore) {ex : Throwable}
    (h : (r.onto schedulerExceptions s).1.result = .error ex) :
    (r.onto schedulerExceptions s).2 = s ∨ r.method = .removeJobs ∧
      (r.calls schedulerExceptions s).getLast? = some ⟨.commit, .error ex⟩ ∧
      (r.onto schedulerExceptions s).2 = Server.emptyJobStore := by
  rcases (onto_cases schedulerExceptions r s).2 ex h covering_schedulerExceptions with
    hkept | ⟨hdone, hlast⟩
  · exact Or.inl hkept
  · rcases hdone.store with hkept | ⟨hmethod, hempty⟩
    · exact Or.inl hkept
    · exact Or.inr ⟨hmethod, hlast, hempty⟩

/-- A request keeps the store, or is a removal that has got to its commit and empties it. -/
theorem onto_store (r : Request) (s : JobStore) :
    (r.onto schedulerExceptions s).2 = s ∨
      Commits s r ∧ (r.onto schedulerExceptions s).2 = Server.emptyJobStore := by
  cases hresult : (r.onto schedulerExceptions s).1.result with
  | error ex =>
    rcases onto_of_throws r s hresult with hkept | ⟨hmethod, hlast, hempty⟩
    · exact Or.inl hkept
    · exact Or.inr ⟨⟨hmethod, _, hlast⟩, hempty⟩
  | ok =>
    obtain ⟨hdone, hlast⟩ := (onto_cases schedulerExceptions r s).1 hresult
    rcases hdone.store with hkept | ⟨hmethod, hempty⟩
    · exact Or.inl hkept
    · exact Or.inr ⟨⟨hmethod, _, hlast⟩, hempty⟩

/-- A removal that returns empties the store. -/
theorem onto_of_removes {r : Request} {s : JobStore} (h : Removes s r) :
    (r.onto schedulerExceptions s).2 = Server.emptyJobStore := by
  obtain ⟨hmethod, hresult⟩ := h
  have hdone := ((onto_cases schedulerExceptions r s).1 hresult).1
  rw [hmethod] at hdone
  obtain ⟨hjobs, htriggers, _⟩ := RemovedAll.emptied hdone
  exact JobStore.eq_of_lists hjobs htriggers

/-- An empty store stays empty. -/
theorem onto_empty (r : Request) :
    (r.onto schedulerExceptions Server.emptyJobStore).2 = Server.emptyJobStore :=
  (onto_store r Server.emptyJobStore).elim id And.right

/-- Through any sequence of requests, whichever calls fail and whatever these leave of their
transactions: `scheduleJobs` never returns; a request that throws changes nothing, unless it is
a `removeJobs` whose commit fails, which may have emptied the store; the store stays as it was
while no `removeJobs` gets to its commit, and is empty once one has returned. -/
theorem service_runs (s : JobStore) (requests : List Request) :
    (service schedulerExceptions).Throughout s requests (fun s r =>
      (r.method = .scheduleJobs → (r.onto schedulerExceptions s).1.result ≠ .ok ()) ∧
        ∀ ex, (r.onto schedulerExceptions s).1.result = .error ex →
          (r.onto schedulerExceptions s).2 = s ∨ r.method = .removeJobs ∧
            (r.calls schedulerExceptions s).getLast? = some ⟨.commit, .error ex⟩ ∧
            (r.onto schedulerExceptions s).2 = Server.emptyJobStore) ∧
    ((service schedulerExceptions).after s requests = s ∨
      (service schedulerExceptions).after s requests = Server.emptyJobStore) ∧
    ((service schedulerExceptions).Throughout s requests (fun s r => ¬Commits s r) →
      (service schedulerExceptions).after s requests = s) ∧
    (¬(service schedulerExceptions).Throughout s requests (fun s r => ¬Removes s r) →
      (service schedulerExceptions).after s requests = Server.emptyJobStore) := by
  refine ⟨fun before r rest _ => ⟨fun hmethod hr => ?_, fun ex => onto_of_throws r _⟩, ?_, ?_, ?_⟩
  · have hdone := ((onto_cases schedulerExceptions r _).1 hr).1
    rw [hmethod] at hdone
    exact hdone
  · refine Machine.invariant (M := service schedulerExceptions)
      (I := fun s' => s' = s ∨ s' = Server.emptyJobStore) (fun s' r hs' => ?_) (Or.inl rfl) requests
    rcases onto_store r s' with hkept | ⟨-, hempty⟩
    · exact hs'.imp hkept.trans hkept.trans
    · exact Or.inr hempty
  · intro hkeeps
    have hrun := Machine.invariant_of (M := service schedulerExceptions) (I := (· = s))
      (fun s' r hnot hs' => ((onto_store r s').resolve_right fun h => hnot h.1).trans hs') rfl
      hkeeps
    exact hrun
  · intro hremoved
    induction requests generalizing s with
    | nil => exact absurd Machine.throughout_nil hremoved
    | cons r requests ih =>
      by_cases hr : Removes s r
      · refine Machine.invariant (M := service schedulerExceptions)
          (I := (· = Server.emptyJobStore)) (fun s' r' hs' => ?_) (onto_of_removes hr) requests
        rw [hs']
        exact onto_empty r'
      · exact ih _ fun hrest => hremoved (Machine.throughout_cons.mpr ⟨hr, hrest⟩)

/-- Whichever calls fail: a `removeJobs` that returns has logged each trigger of the store once
as unscheduled and each job that was left once as deleted, and a `showJobs` that returns has
logged each job and each trigger once; both give the numbers of lines as the counts. -/
theorem service_logs (rollbackFor : Throwable → Bool) (f : Faults) (s : JobStore) :
    ((Request.onto rollbackFor ⟨.removeJobs, f⟩ s).1.result = .ok () →
      ∃ (unscheduled : List TriggerKey) (deleted : List JobKey),
        unscheduled.Perm (s.triggers.map (·.key)) ∧
        deleted.Perm ((s.jobs.filter fun job => job.durable || !s.fired job).map (·.key)) ∧
        (Request.onto rollbackFor ⟨.removeJobs, f⟩ s).1.log =
          removalLog (unscheduled.map (·, true)) (deleted.map (·, true))) ∧
    ((Request.onto rollbackFor ⟨.showJobs, f⟩ s).1.result = .ok () →
      ∃ (jobs : List StoredJob) (triggers : List StoredTrigger),
        jobs.Perm s.jobs ∧ triggers.Perm s.triggers ∧
        (Request.onto rollbackFor ⟨.showJobs, f⟩ s).1.log = showLog jobs triggers) := by
  constructor
  · intro hr
    have hdone := ((onto_cases rollbackFor ⟨.removeJobs, f⟩ s).1 hr).1
    exact (RemovedAll.emptied hdone).2.2
  · intro hr
    have hdone := ((onto_cases rollbackFor ⟨.showJobs, f⟩ s).1 hr).1
    exact ⟨_, _, shownJobs_perm s, shownTriggers_perm s, hdone.2⟩

end

/-- No call fails. -/
def noFaults : Faults where
  fails _ _ := none
  declared _ _ _ h := by cases h
  lost _ _ d := d
  uncommitted _ _ _ _ := rfl
  atomic _ _ := Or.inl rfl

/-- A durable job and one that is not, in two groups, each with a trigger. -/
def stocked : JobStore where
  jobs := [⟨jobKey "job1", true⟩, ⟨⟨"job2", "REPORTS"⟩, false⟩]
  triggers := [⟨Server.triggerKey "trigger1", jobKey "job1"⟩,
    ⟨Server.triggerKey "trigger2", ⟨"job2", "REPORTS"⟩⟩]
  jobs_nodup := by decide
  triggers_nodup := by decide
  refers := by decide

/-- The job that is not durable goes with its trigger, and is not deleted. -/
theorem stocked_logs :
    (∃ (unscheduled : List TriggerKey) (deleted : List JobKey),
      unscheduled.Perm [Server.triggerKey "trigger1", Server.triggerKey "trigger2"] ∧
      deleted.Perm [jobKey "job1"] ∧
      (Request.onto schedulerExceptions ⟨.removeJobs, noFaults⟩ stocked).1.log =
        removalLog (unscheduled.map (·, true)) (deleted.map (·, true))) ∧
    ∃ (jobs : List StoredJob) (triggers : List StoredTrigger),
      jobs.Perm stocked.jobs ∧ triggers.Perm stocked.triggers ∧
      (Request.onto schedulerExceptions ⟨.showJobs, noFaults⟩ stocked).1.log =
        showLog jobs triggers :=
  ⟨(service_logs schedulerExceptions noFaults stocked).1 rfl,
    (service_logs schedulerExceptions noFaults stocked).2 rfl⟩

end MySchedule.Service
