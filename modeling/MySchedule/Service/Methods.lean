import MySchedule.Service.MySchedulerService

/-!
# The methods of the service

What each method does inside its transaction, whichever of its calls fail. Its loops are
sweeps over the groups of the store.
-/

namespace MySchedule.Service

open Interaction Java Keyed Machines
open Registration (JobKey TriggerKey alreadyExists)
open Cleanup (JobStore StoredJob StoredTrigger unscheduleAll)
open Server (JobDetail jobKey putJob hasJob notDurable)

/-- In a transaction on the committed store `c`, which has made `s` of it, with the log `l`. -/
def At (c s : JobStore) (l : List LogLine) (log : List LogLine) (x : Database × Nat) : Prop :=
  x.1 = ⟨c, some s⟩ ∧ log = l

/-- A call has thrown what it may, and nothing is committed. -/
def Thrown (c : JobStore) (ex : Throwable) (_ : List LogLine) (x : Database × Nat) : Prop :=
  x.1.committed = c ∧ mayThrow ex

section

variable {f : Faults} {c s : JobStore} {l : List LogLine}

/-- The rule of a call of the scheduler in a transaction. -/
theorem perform_at {q : ServiceCall} (hq : q ≠ .commit)
    {Q : serviceCalls.Answer q → List LogLine → Database × Nat → Prop}
    (hQ : ∀ a d n, exec q ⟨c, some s⟩ = (.ok a, d) → Q a l (d, n))
    (hE : ∀ ex d, exec q ⟨c, some s⟩ = (.error ex, d) → d.committed = c ∧ mayThrow ex) :
    Achieves f.serve (At c s l) (Body.perform q) Q (Thrown c) := by
  refine Achieves.perform ?_ ?_
  · rintro log ⟨d, n⟩ a ⟨d', n'⟩ ⟨rfl, rfl⟩ hcall
    exact hQ a d' n' (faulty_ok hcall)
  · rintro log ⟨d, n⟩ ex ⟨d', n'⟩ ⟨rfl, rfl⟩ hcall
    rcases faulty_error hcall with ⟨hfails, hd⟩ | hexec
    · exact ⟨(congrArg Database.committed hd).trans (f.uncommitted n q _ hq),
        f.declared n q ex hfails⟩
    · exact hE ex d' hexec

/-- A query has an answer and changes nothing. -/
theorem query_at {q : ServiceCall} (a : serviceCalls.Answer q)
    (hq : q ≠ .commit) (hexec : exec q ⟨c, some s⟩ = (.ok a, ⟨c, some s⟩)) :
    Achieves f.serve (At c s l) (Body.perform q) (fun a' log x => a' = a ∧ At c s l log x)
      (Thrown c) := by
  refine perform_at hq (fun a' d n h => ?_) fun ex d h => ?_
  · rw [hexec] at h
    cases h
    exact ⟨rfl, rfl, rfl⟩
  · rw [hexec] at h
    cases h

/-- A removal is answered and leaves the store that it says. -/
theorem removal_at {q : ServiceCall}
    {r : Except Throwable (serviceCalls.Answer q × JobStore)}
    (hq : q ≠ .commit)
    (hexec : exec q ⟨c, some s⟩ = Database.answer ⟨c, some s⟩ r)
    (hr : ∀ ex, r = .error ex → mayThrow ex) :
    Achieves f.serve (At c s l) (Body.perform q)
      (fun a log x => ∃ s', r = .ok (a, s') ∧ At c s' l log x) (Thrown c) := by
  refine perform_at hq (fun a d n h => ?_) fun ex d h => ?_
  · rw [hexec] at h
    cases r with
    | error ex => cases h
    | ok p =>
      cases h
      exact ⟨p.2, rfl, rfl, rfl⟩
  · rw [hexec] at h
    cases r with
    | error ex =>
      cases h
      exact ⟨rfl, hr _ rfl⟩
    | ok p => cases h

/-- Logging is one more line. -/
theorem log_at (line : LogLine) :
    Achieves f.serve (At c s l) (logger.log line) (fun _ => At c s (l ++ [line])) (Thrown c) := by
  refine Achieves.get_bind fun lines => Achieves.set ?_
  rintro _ x ⟨rfl, hx, rfl⟩
  exact ⟨hx, rfl⟩

variable {κ : Type} {key : String → String → κ}
  {keysOf : String → JobStore → Except Throwable (List κ)}
  {visitOf : κ → JobStore → Except Throwable (Bool × JobStore)} {line : κ × Bool → LogLine}
  {I : JobStore → Prop} {getNames : String → ServiceM (List String)}
  {visit : String → String → ServiceM Unit}

/-- What one turn of a loop does: the visit of a key, and a line on it. -/
def Visits (f : Faults) (c : JobStore) (I : JobStore → Prop) (key : String → String → κ)
    (visitOf : κ → JobStore → Except Throwable (Bool × JobStore)) (line : κ × Bool → LogLine)
    (visit : String → String → ServiceM Unit) : Prop :=
  ∀ name group s l, I s → Achieves f.serve (At c s l) (visit name group)
    (fun _ log x => ∃ found s', visitOf (key name group) s = .ok (found, s') ∧ I s' ∧
      At c s' (l ++ [line (key name group, found)]) log x) (Thrown c)

/-- What the query of a loop answers. -/
def Names (f : Faults) (c : JobStore) (I : JobStore → Prop) (key : String → String → κ)
    (keysOf : String → JobStore → Except Throwable (List κ))
    (getNames : String → ServiceM (List String)) : Prop :=
  ∀ group s l, I s → Achieves f.serve (At c s l) (getNames group)
    (fun names log x => keysOf group s = .ok (names.map (key · group)) ∧ At c s l log x) (Thrown c)

/-- A loop over the names of a group is a sweep over its keys. -/
theorem foldlM_serves (hvisit : Visits f c I key visitOf line visit) (names : List String)
    (group : String) (count : Nat) (hs : I s) :
    Achieves f.serve (At c s l) (names.foldlM (fun count name => do
        visit name group
        return count + 1) count)
      (fun count' log x => ∃ swept, sweepKeys visitOf (names.map (key · group)) s = .ok swept ∧
        I swept.store ∧ count' = count + swept.count ∧
        At c swept.store (l ++ swept.calls.map line) log x) (Thrown c) := by
  induction names generalizing s l count with
  | nil =>
    refine Achieves.pure fun log x hx => ⟨_, rfl, hs, rfl, ?_⟩
    rwa [List.map_nil, List.append_nil]
  | cons name names ih =>
    rw [List.foldlM_cons]
    refine Achieves.bind (Q := fun count' log x => ∃ found s', count' = count + 1 ∧
      visitOf (key name group) s = .ok (found, s') ∧ I s' ∧
      At c s' (l ++ [line (key name group, found)]) log x) ?_ fun count' => ?_
    · refine (hvisit name group s l hs).bind fun _ => Achieves.pure ?_
      rintro log x ⟨found, s', hcall, hs', hx⟩
      exact ⟨found, s', rfl, hcall, hs', hx⟩
    · refine Achieves.exists_pre fun found => Achieves.exists_pre fun s' =>
        Achieves.of_fact fun hcount => Achieves.of_fact fun hcall => Achieves.of_fact fun hs' => ?_
      subst hcount
      refine (ih (count + 1) hs').post ?_
      rintro count' log x ⟨swept, hswept, hI, rfl, hx⟩
      refine ⟨⟨swept.store, (key name group, found) :: swept.calls, swept.count + 1⟩, ?_, hI,
        Nat.add_right_comm .., ?_⟩
      · simp [sweepKeys, hcall, hswept, bind, Except.bind, pure, Except.pure]
      · rwa [List.append_assoc, List.singleton_append, ← List.map_cons (f := line)] at hx

/-- The outer loop, from any count. -/
theorem foldlM_groups_serves (hnames : Names f c I key keysOf getNames)
    (hvisit : Visits f c I key visitOf line visit) (groups : List String) (count : Nat)
    (hs : I s) :
    Achieves f.serve (At c s l) (groups.foldlM (fun count group => do
        let names ← getNames group
        names.foldlM (fun count name => do
          visit name group
          return count + 1) count) count)
      (fun count' log x => ∃ swept, sweepGroups keysOf visitOf groups s = .ok swept ∧
        count' = count + swept.count ∧ At c swept.store (l ++ swept.calls.map line) log x)
      (Thrown c) := by
  induction groups generalizing s l count with
  | nil =>
    refine Achieves.pure fun log x hx => ⟨_, rfl, rfl, ?_⟩
    rwa [List.map_nil, List.append_nil]
  | cons group groups ih =>
    rw [List.foldlM_cons]
    refine Achieves.bind (Q := fun count' log x => ∃ (names : List String)
      (swept : Swept JobStore κ), keysOf group s = .ok (names.map (key · group)) ∧
      sweepKeys visitOf (names.map (key · group)) s = .ok swept ∧ I swept.store ∧
      count' = count + swept.count ∧
      At c swept.store (l ++ swept.calls.map line) log x) ?_ fun count' => ?_
    · refine (hnames group s l hs).bind fun names => Achieves.of_fact fun hkeys => ?_
      refine (foldlM_serves hvisit names group count hs).post ?_
      rintro count' log x ⟨swept, h⟩
      exact ⟨names, swept, hkeys, h⟩
    · refine Achieves.exists_pre fun names => Achieves.exists_pre fun first =>
        Achieves.of_fact fun hkeys => Achieves.of_fact fun hfirst =>
          Achieves.of_fact fun hI => Achieves.of_fact fun hcount => ?_
      subst hcount
      refine (ih _ hI).post ?_
      rintro count' log x ⟨rest, hrest, rfl, hx⟩
      refine ⟨⟨rest.store, first.calls ++ rest.calls, first.count + rest.count⟩, ?_,
        Nat.add_assoc .., ?_⟩
      · simp [sweepGroups, hkeys, hfirst, hrest, bind, Except.bind, pure, Except.pure]
      · rwa [List.map_append, ← List.append_assoc]

/-- The loops of the service are sweeps over the groups. -/
theorem countNames_serves (hnames : Names f c I key keysOf getNames)
    (hvisit : Visits f c I key visitOf line visit) (groups : List String) (hs : I s) :
    Achieves f.serve (At c s l) (countNames groups getNames visit)
      (fun count log x => ∃ swept, sweepGroups keysOf visitOf groups s = .ok swept ∧
        count = swept.count ∧ At c swept.store (l ++ swept.calls.map line) log x)
      (Thrown c) := by
  refine (foldlM_groups_serves hnames hvisit groups 0 hs).post ?_
  rintro count log x ⟨swept, hswept, rfl, hx⟩
  exact ⟨swept, hswept, Nat.zero_add _, hx⟩

end

/-! ## The methods -/

def triggerUnscheduled (call : TriggerKey × Bool) : LogLine :=
  ⟨.info, "Trigger unscheduled: \x7b\x7d. \x7b\x7d \x7b\x7d.",
    [.bool call.2, .text call.1.name, .text call.1.group]⟩

def orphanedJobDeleted (call : JobKey × Bool) : LogLine :=
  ⟨.info, "Orphaned Job deleted: \x7b\x7d. \x7b\x7d \x7b\x7d.",
    [.bool call.2, .text call.1.name, .text call.1.group]⟩

def jobShown (job : Option StoredJob) : LogLine := ⟨.info, "Job: \x7b\x7d", [.job job]⟩

def triggerShown (trigger : Option StoredTrigger) : LogLine :=
  ⟨.info, "Trigger: \x7b\x7d", [.trigger trigger]⟩

/-- What `removeJobs` logs on its calls. -/
def removalLog (triggers : List (TriggerKey × Bool)) (jobs : List (JobKey × Bool)) :
    List LogLine :=
  triggers.map triggerUnscheduled ++
    ⟨.info, "\x7b\x7d triggers unscheduled.", [.count triggers.length]⟩ ::
      (jobs.map orphanedJobDeleted ++
        [⟨.info, "\x7b\x7d orphaned jobs deleted.", [.count jobs.length]⟩])

/-- What `showJobs` logs on the jobs and triggers it has found. -/
def showLog (jobs : List StoredJob) (triggers : List StoredTrigger) : List LogLine :=
  ⟨.debug, "Querying scheduler info.", []⟩ :: (jobs.map (fun job => jobShown (some job)) ++
    ⟨.info, "\x7b\x7d jobs found.", [.count jobs.length]⟩ ::
      (triggers.map (fun trigger => triggerShown (some trigger)) ++
        [⟨.info, "\x7b\x7d triggers found.", [.count triggers.length]⟩]))

section

variable {f : Faults} {c s : JobStore} {l : List LogLine}

/-- `unscheduleJob` of the store fails on no key. -/
theorem unscheduleJob_ok (name group : String) (s : JobStore) :
    ∃ r, Cleanup.unscheduleJob name group s = .ok r := by
  unfold Cleanup.unscheduleJob
  split
  · exact ⟨_, rfl⟩
  · exact ⟨_, rfl⟩

/-- `deleteJob` of the store fails on no key. -/
theorem deleteJob_ok (key : JobKey) (s : JobStore) : ∃ r, Cleanup.deleteJob key s = .ok r := by
  unfold Cleanup.deleteJob
  split
  · exact ⟨_, rfl⟩
  · exact ⟨_, rfl⟩

/-- A turn of either removing loop. -/
theorem removal_visits {κ : Type} {key : String → String → κ}
    {visitOf : κ → JobStore → Except Throwable (Bool × JobStore)} {line : κ × Bool → LogLine}
    {visit : String → String → ServiceM Bool}
    (hvisit : ∀ name group s l, Achieves f.serve (At c s l) (visit name group)
      (fun found log x => ∃ s', visitOf (key name group) s = .ok (found, s') ∧ At c s' l log x)
      (Thrown c)) :
    Visits f c (fun _ => True) key visitOf line (fun name group => do
      let ret ← visit name group
      logger.log (line (key name group, ret))) := by
  intro name group s l _
  refine (hvisit name group s l).bind fun found => Achieves.exists_pre fun s' =>
    Achieves.of_fact fun hcall => (log_at _).post fun _ log x hx => ?_
  exact ⟨found, s', hcall, trivial, hx⟩

/-- `unschedule` removes one trigger and logs it. -/
theorem unschedule_visits :
    Visits f c (fun _ => True) (fun name group => (⟨name, group⟩ : TriggerKey))
      (fun key => Cleanup.unscheduleJob key.name key.group) triggerUnscheduled unschedule := by
  refine removal_visits fun name group s l => ?_
  refine removal_at (q := .unscheduleJob name group) (by simp) rfl fun ex h => ?_
  obtain ⟨r, hr⟩ := unscheduleJob_ok name group s
  cases hr.symm.trans h

/-- `deleteOrphaned` removes one job and logs it. -/
theorem deleteOrphaned_visits :
    Visits f c (fun _ => True) (fun name group => (⟨name, group⟩ : JobKey)) Cleanup.deleteJob
      orphanedJobDeleted deleteOrphaned := by
  refine removal_visits fun name group s l => ?_
  refine removal_at (q := .deleteJob name group) (by simp) rfl fun ex h => ?_
  obtain ⟨r, hr⟩ := deleteJob_ok ⟨name, group⟩ s
  cases hr.symm.trans h

/-- `getTriggerNames` answers the names of a group and changes nothing. -/
theorem getTriggerNames_names (I : JobStore → Prop) :
    Names f c I (fun name group => (⟨name, group⟩ : TriggerKey))
      (fun group s => (Cleanup.getTriggerNames group s).map (·.map fun name => ⟨name, group⟩))
      scheduler.getTriggerNames := by
  intro group s l _
  refine (query_at (q := .getTriggerNames group)
    ((s.triggers.filter (·.key.group = group)).map (·.key.name)) (by simp) rfl).post ?_
  rintro names log x ⟨rfl, hx⟩
  exact ⟨rfl, hx⟩

/-- `getJobNames` answers the names of a group and changes nothing. -/
theorem getJobNames_names (I : JobStore → Prop) :
    Names f c I (fun name group => (⟨name, group⟩ : JobKey))
      (fun group s => (Cleanup.getJobNames group s).map (·.map fun name => ⟨name, group⟩))
      scheduler.getJobNames := by
  intro group s l _
  refine (query_at (q := .getJobNames group)
    ((s.jobs.filter (·.key.group = group)).map (·.key.name)) (by simp) rfl).post ?_
  rintro names log x ⟨rfl, hx⟩
  exact ⟨rfl, hx⟩

/-- Every group that has a trigger is answered once. -/
theorem getTriggerGroupNames_at :
    Achieves f.serve (At c s l) scheduler.getTriggerGroupNames
      (fun groups log x => groups = (s.triggers.map (·.key.group)).dedup ∧ At c s l log x)
      (Thrown c) :=
  query_at (q := .getTriggerGroupNames) _ (by simp) rfl

/-- Every group that has a job is answered once. -/
theorem getJobGroupNames_at :
    Achieves f.serve (At c s l) scheduler.getJobGroupNames
      (fun groups log x => groups = (s.jobs.map (·.key.group)).dedup ∧ At c s l log x)
      (Thrown c) :=
  query_at (q := .getJobGroupNames) _ (by simp) rfl

/-- What a removal that returns has done. -/
def RemovedAll (s s' : JobStore) (log : List LogLine) : Prop :=
  ∃ triggers jobs, unscheduleAll s = .ok triggers ∧
    Cleanup.deleteOrphaned triggers.store = .ok jobs ∧ jobs.store = s' ∧
    log = triggers.calls.map triggerUnscheduled ++
      ⟨.info, "\x7b\x7d triggers unscheduled.", [.count triggers.count]⟩ ::
        (jobs.calls.map orphanedJobDeleted ++
          [⟨.info, "\x7b\x7d orphaned jobs deleted.", [.count jobs.count]⟩])

/-- `removeJobs` returns with all triggers and jobs removed, or throws what a call threw. -/
theorem removeJobs_serves :
    Achieves f.serve (At c s []) removeJobs
      (fun _ log x => ∃ s', At c s' log log x ∧ RemovedAll s s' log) (Thrown c) := by
  refine getTriggerGroupNames_at.bind fun groups => Achieves.of_fact fun hgroups =>
    (countNames_serves (getTriggerNames_names _) unschedule_visits groups trivial).bind
      fun triggerCount => Achieves.exists_pre fun triggers => Achieves.of_fact fun htriggers =>
        Achieves.of_fact fun hcount => (log_at _).bind fun _ => ?_
  refine getJobGroupNames_at.bind fun groups' => Achieves.of_fact fun hgroups' =>
    (countNames_serves (getJobNames_names _) deleteOrphaned_visits groups' trivial).bind
      fun jobCount => Achieves.exists_pre fun jobs => Achieves.of_fact fun hjobs =>
        Achieves.of_fact fun hcount' => (log_at _).post fun _ log x hx => ?_
  subst hgroups hgroups' hcount hcount'
  refine ⟨jobs.store, ⟨hx.1, rfl⟩, triggers, jobs, htriggers, hjobs, rfl, ?_⟩
  rw [hx.2]
  simp

/-- A turn of either showing loop. -/
theorem show_visits {κ α : Type} {key : String → String → κ} (found : κ → α) (line : α → LogLine)
    {visit : String → String → ServiceM α}
    (hvisit : ∀ name group l, Achieves f.serve (At c s l) (visit name group)
      (fun a log x => a = found (key name group) ∧ At c s l log x) (Thrown c)) :
    Visits f c (· = s) key (fun _ s => .ok (true, s)) (fun call => line (found call.1))
      (fun name group => do
        let a ← visit name group
        logger.log (line a)) := by
  rintro name group _ l rfl
  refine (hvisit name group l).bind fun a => Achieves.of_fact fun ha =>
    (log_at _).post fun _ log x hx => ?_
  subst ha
  exact ⟨true, _, rfl, rfl, hx⟩

/-- The stored jobs in the order in which they are shown. -/
def shownJobs (s : JobStore) : List StoredJob :=
  (s.jobs.map (·.key.group)).dedup.flatMap fun group => s.jobs.filter (·.key.group = group)

/-- The stored triggers in the order in which they are shown. -/
def shownTriggers (s : JobStore) : List StoredTrigger :=
  (s.triggers.map (·.key.group)).dedup.flatMap fun group =>
    s.triggers.filter (·.key.group = group)

/-- Group by group, every job is shown once. -/
theorem shownJobs_perm (s : JobStore) : (shownJobs s).Perm s.jobs :=
  flatMap_filter_perm (List.nodup_dedup _) fun job hjob =>
    List.mem_dedup.mpr (List.mem_map.mpr ⟨job, hjob, rfl⟩)

/-- Group by group, every trigger is shown once. -/
theorem shownTriggers_perm (s : JobStore) : (shownTriggers s).Perm s.triggers :=
  flatMap_filter_perm (List.nodup_dedup _) fun t ht =>
    List.mem_dedup.mpr (List.mem_map.mpr ⟨t, ht, rfl⟩)

/-- A stored job is found by its key. -/
theorem getJobDetail_of_mem {job : StoredJob} (hjob : job ∈ s.jobs) :
    getJobDetail job.key s = some job := by
  have hfind : (getJobDetail job.key s).isSome := by
    rw [getJobDetail, List.find?_isSome]
    exact ⟨job, hjob, by simp⟩
  obtain ⟨found, hfound⟩ := Option.isSome_iff_exists.mp hfind
  have hkey : found.key = job.key := by simpa using List.find?_some hfound
  rw [hfound, List.inj_on_of_nodup_map s.jobs_nodup (List.mem_of_find?_eq_some hfound) hjob hkey]

/-- A trigger of the store is found under its key. -/
theorem getTrigger_of_mem {t : StoredTrigger} (ht : t ∈ s.triggers) :
    getTrigger t.key s = some t := by
  have hfind : (getTrigger t.key s).isSome := by
    rw [getTrigger, List.find?_isSome]
    exact ⟨t, ht, by simp⟩
  obtain ⟨found, hfound⟩ := Option.isSome_iff_exists.mp hfind
  have hkey : found.key = t.key := by simpa using List.find?_some hfound
  rw [hfound,
    List.inj_on_of_nodup_map s.triggers_nodup (List.mem_of_find?_eq_some hfound) ht hkey]

/-- Asking each group for its names gives the keys of the jobs shown. -/
theorem shownJobs_keys (s : JobStore) : ((s.jobs.map (·.key.group)).dedup.flatMap fun group =>
    (s.jobs.map (·.key)).filter (·.group = group)) = (shownJobs s).map (·.key) := by
  rw [shownJobs, List.map_flatMap]
  apply List.flatMap_congr
  intro group _
  rw [List.filter_map]
  rfl

/-- Asking each group for its names gives the keys of the triggers shown. -/
theorem shownTriggers_keys (s : JobStore) :
    ((s.triggers.map (·.key.group)).dedup.flatMap fun group =>
      (s.triggers.map (·.key)).filter (·.group = group)) = (shownTriggers s).map (·.key) := by
  rw [shownTriggers, List.map_flatMap]
  apply List.flatMap_congr
  intro group _
  rw [List.filter_map]
  rfl

/-- What is shown is there. -/
theorem shownJobs_lines (s : JobStore) :
    (((shownJobs s).map (·.key)).map (·, true)).map (fun call => jobShown (getJobDetail call.1 s)) =
      (shownJobs s).map fun job => jobShown (some job) := by
  rw [List.map_map, List.map_map]
  apply List.map_congr_left
  intro job hjob
  exact congrArg jobShown (getJobDetail_of_mem ((shownJobs_perm s).subset hjob))

/-- Looking a shown trigger up again finds it. -/
theorem shownTriggers_lines (s : JobStore) :
    (((shownTriggers s).map (·.key)).map (·, true)).map
        (fun call => triggerShown (getTrigger call.1 s)) =
      (shownTriggers s).map fun trigger => triggerShown (some trigger) := by
  rw [List.map_map, List.map_map]
  apply List.map_congr_left
  intro t ht
  exact congrArg triggerShown (getTrigger_of_mem ((shownTriggers_perm s).subset ht))

/-- `showJobs` changes nothing and logs what it shows. -/
theorem showJobs_serves :
    Achieves f.serve (At c s []) showJobs
      (fun _ => At c s (showLog (shownJobs s) (shownTriggers s))) (Thrown c) := by
  have hjob : Visits f c (· = s) (fun name group => (⟨name, group⟩ : JobKey))
      (fun _ s => .ok (true, s)) (fun call => jobShown (getJobDetail call.1 s)) showJob :=
    show_visits (getJobDetail · s) jobShown fun name group l =>
      query_at (q := .getJobDetail name group) _ (by simp) rfl
  have htrigger : Visits f c (· = s) (fun name group => (⟨name, group⟩ : TriggerKey))
      (fun _ s => .ok (true, s)) (fun call => triggerShown (getTrigger call.1 s)) showTrigger :=
    show_visits (getTrigger · s) triggerShown fun name group l =>
      query_at (q := .getTrigger name group) _ (by simp) rfl
  refine (log_at _).bind fun _ => getJobGroupNames_at.bind fun groups =>
    Achieves.of_fact fun hgroups =>
      (countNames_serves (getJobNames_names _) hjob groups rfl).bind fun jobCount =>
        Achieves.exists_pre fun jobs => Achieves.of_fact fun hjobs =>
          Achieves.of_fact fun hcount => (log_at _).bind fun _ => ?_
  rw [sweepGroups_static (s.jobs.map (·.key)) (fun group => Cleanup.getJobNames_eq group s)
    fun _ => rfl] at hjobs
  cases hjobs
  refine getTriggerGroupNames_at.bind fun groups' => Achieves.of_fact fun hgroups' =>
      (countNames_serves (getTriggerNames_names _) htrigger groups' rfl).bind fun triggerCount =>
        Achieves.exists_pre fun triggers => Achieves.of_fact fun htriggers =>
          Achieves.of_fact fun hcount' => (log_at _).post fun _ log x hx => ?_
  rw [sweepGroups_static (s.triggers.map (·.key))
    (fun group => Cleanup.sweepable_triggers.keysOf_ok group s) fun _ => rfl] at htriggers
  cases htriggers
  refine ⟨hx.1, hx.2.trans ?_⟩
  subst hgroups hgroups' hcount hcount'
  rw [shownJobs_keys, shownTriggers_keys, shownJobs_lines, shownTriggers_lines]
  simp [showLog]

/-- `scheduleJobs` never returns. -/
theorem scheduleJobs_serves :
    Achieves f.serve (At c s []) scheduleJobs (fun _ _ _ => False) (Thrown c) := by
  refine (log_at _).bind fun _ => ?_
  have haddJob : ∀ (job : JobDetail) (s : JobStore) (l : List LogLine),
      Achieves f.serve (At c s l) (scheduler.addJob job false)
        (fun _ log x => ∃ s', addJob job false s = .ok ((), s') ∧ At c s' l log x) (Thrown c) := by
    intro job s l
    refine removal_at (q := .addJob job false) (by simp) rfl fun ex h => ?_
    unfold addJob at h
    split at h
    · cases h
      exact Or.inl rfl
    · split at h
      · cases h
        exact Or.inl rfl
      · cases h
  refine (haddJob _ s _).bind fun _ => Achieves.exists_pre fun s' => Achieves.of_fact fun _ => ?_
  refine (haddJob _ s' _).post ?_
  rintro _ log x ⟨s'', hadded, _⟩
  cases hadded

end

/-! ## What a method has done -/

/-- A removal that returns leaves an empty store, and has named each key once. -/
theorem RemovedAll.emptied {s s' : JobStore} {log : List LogLine} (h : RemovedAll s s' log) :
    s'.jobs = [] ∧ s'.triggers = [] ∧ ∃ (unscheduled : List TriggerKey) (deleted : List JobKey),
      unscheduled.Perm (s.triggers.map (·.key)) ∧
      deleted.Perm ((s.jobs.filter fun job => job.durable || !s.fired job).map (·.key)) ∧
      log = removalLog (unscheduled.map (·, true)) (deleted.map (·, true)) := by
  obtain ⟨triggers, jobs, htriggers, hjobs, rfl, rfl⟩ := h
  obtain ⟨triggers', htriggers', _, hleft, hcalls, hcount⟩ := Cleanup.unscheduleAll_ok s
  cases htriggers.symm.trans htriggers'
  obtain ⟨jobs', hjobs', hnone, hnone', hcalls', hcount'⟩ :=
    Cleanup.deleteJobs_ok Cleanup.getJobNames_eq triggers.store
  cases hjobs.symm.trans hjobs'
  rw [hleft] at hcalls' hcount'
  have hfound : ∀ {κ : Type} {calls : List (κ × Bool)} (keys : List κ),
      calls.Perm (keys.map (·, true)) → calls = (calls.map (·.1)).map (·, true) := by
    intro κ calls keys hperm
    rw [List.map_map, eq_comm]
    refine (List.map_congr_left fun call hcall => ?_).trans (List.map_id calls)
    obtain ⟨key, _, rfl⟩ := List.mem_map.mp (hperm.subset hcall)
    rfl
  have htrue := hfound (s.triggers.map (·.key)) (by simpa [Function.comp_def] using hcalls)
  have htrue' := hfound
    ((s.jobs.filter fun job => job.durable || !s.fired job).map (·.key))
    (by simpa [Function.comp_def] using hcalls')
  refine ⟨hnone, hnone', triggers.calls.map (·.1), jobs.calls.map (·.1), ?_, ?_, ?_⟩
  · simpa [Function.comp_def] using hcalls.map (·.1)
  · simpa [Function.comp_def] using hcalls'.map (·.1)
  · rw [← htrue, ← htrue', removalLog, hcalls.length_eq, hcalls'.length_eq, hcount, hcount',
      List.length_map, List.length_map]

/-- What a method that returns has made of the store, and what it has logged. -/
def ServiceMethod.Done : ServiceMethod → JobStore → JobStore → List LogLine → Prop
  | .scheduleJobs, _, _, _ => False
  | .updateJobs, s, s', log => s' = s ∧ log = []
  | .removeJobs, s, s', log => RemovedAll s s' log
  | .showJobs, s, s', log => s' = s ∧ log = showLog (shownJobs s) (shownTriggers s)

/-- Every method returns with its work done, or throws what a call threw. -/
theorem body_serves {f : Faults} {c : JobStore} (method : ServiceMethod) :
    Achieves f.serve (At c c []) method.body
      (fun _ log x => ∃ s', At c s' log log x ∧ method.Done c s' log) (Thrown c) := by
  cases method with
  | scheduleJobs => exact scheduleJobs_serves.post fun _ _ _ h => h.elim
  | updateJobs => exact Achieves.pure fun log x hx => ⟨c, ⟨hx.1, rfl⟩, rfl, hx.2⟩
  | removeJobs => exact removeJobs_serves
  | showJobs => exact showJobs_serves.post fun _ log x hx => ⟨c, ⟨hx.1, rfl⟩, rfl, hx.2⟩

/-- What a method has done to the store: `removeJobs` has emptied it, and the others have left it
as it was. -/
theorem ServiceMethod.Done.store {method : ServiceMethod} {s s' : JobStore} {log : List LogLine}
    (h : method.Done s s' log) :
    s' = s ∨ method = .removeJobs ∧ s' = Server.emptyJobStore := by
  cases method with
  | scheduleJobs => exact h.elim
  | updateJobs => exact Or.inl h.1
  | removeJobs =>
    obtain ⟨hjobs, htriggers, _⟩ := RemovedAll.emptied h
    exact Or.inr ⟨rfl, JobStore.eq_of_lists hjobs htriggers⟩
  | showJobs => exact Or.inl h.1

end MySchedule.Service
