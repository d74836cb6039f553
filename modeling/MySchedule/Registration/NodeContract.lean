import MySchedule.Registration.Progress

/-!
# The contract of one registering node

A node may be answered as the scheduler answers, or, where failures are injected,
by an exception of a call that then had no effect. Between its calls other nodes
may write, as long as the store stays under way and this node's own last writes
stay. Conditions that survive such writes are called settled; each call has one
rule, and the rules of the loops follow from them.
-/

namespace MySchedule.Registration

open Interaction Java Keyed

/-- One node's registration: the store that expected values refer to, the store it began
on, and whether calls may be made to fail from outside. -/
structure Registering (ι : Type) where
  processFile : DataProcessor
  cfg : BeanConfig
  initial : Store
  base : Store
  base_between : Between cfg initial base
  node : ι
  fault : Prop

variable {ι : Type} (N : Registering ι)

namespace Registering

/-- The store since `base`, while registrations are under way. -/
structure UnderWay (s : Tracked ι) : Prop where
  jobs : s.jobs.Since N.base.jobs
  triggers : s.triggers.Since N.base.triggers
  between : Between N.cfg N.initial s.store

/-- What other nodes leave to node `i`. -/
structure Leaves (i : ι) (s t : Tracked ι) : Prop where
  jobs : s.jobs.Keeps i t.jobs
  triggers : s.triggers.Keeps i t.triggers
  calendars : ∀ n, s.calendars n = expectedCalendar N.cfg N.initial n →
    t.calendars n = expectedCalendar N.cfg N.initial n

/-- The scheduler's own answer to a call of this node. -/
def Answered (c : SchedulerCall) (s : Tracked ι) (r : Except Throwable (quartz.Answer c))
    (t : Tracked ι) : Prop :=
  r = (exec N.processFile c ⟨s.store, none⟩).1 ∧ t = s.after N.node c r

/-- A call made to fail from outside: it has no effect, and the bean does not handle the
exception. -/
def Failed (c : SchedulerCall) (s : Tracked ι) (r : Except Throwable (quartz.Answer c))
    (t : Tracked ι) : Prop :=
  N.fault ∧ ∃ ex, c.handles ex = false ∧ r = .error ex ∧ t = s

variable {N}

/-- A step that changes nothing leaves every other node alone. -/
theorem Leaves.refl (i : ι) (s : Tracked ι) : N.Leaves i s s :=
  ⟨.refl i _, .refl i _, fun _ h => h⟩

/-- Two changes that leave a node alone leave it alone together. -/
theorem Leaves.trans {i : ι} {s t u : Tracked ι} (h : N.Leaves i s t) (h' : N.Leaves i t u) :
    N.Leaves i s u :=
  ⟨h.jobs.trans h'.jobs, h.triggers.trans h'.triggers,
    fun n hn => h'.calendars n (h.calendars n hn)⟩

/-- The store a cluster starts from is under way. -/
theorem UnderWay.start : N.UnderWay (Tracked.start N.base) :=
  ⟨OwnedMap.since_untouched _, OwnedMap.since_untouched _, N.base_between⟩

variable (N)

/-- The contract of the node. -/
def contract : Contract quartz (Tracked ι) where
  answers c s r t := c.onScheduler = true → N.Answered c s r t ∨ N.Failed c s r t
  rely s t := N.UnderWay s → N.UnderWay t ∧ N.Leaves N.node s t
  guarantee s t := N.UnderWay s → N.UnderWay t ∧ ∀ i, i ≠ N.node → N.Leaves i s t
  rely_refl s h := ⟨h, .refl _ s⟩
  rely_trans h h' hs := ⟨(h' (h hs).1).1, (h hs).2.trans (h' (h hs).1).2⟩

/-- A condition of the bean and the store that survives what other nodes do. -/
def Settled (p : Bean → Tracked ι → Prop) : Prop :=
  ∀ b s t, N.UnderWay s → N.UnderWay t → N.Leaves N.node s t → p b s → p b t

/-- While registrations are under way, `m` leads from `p` to `q`, or by an exception
to `e`. -/
def Spec {α : Type} (p : Bean → Tracked ι → Prop) (m : BeanM α)
    (q : α → Bean → Tracked ι → Prop) (e : Throwable → Bean → Tracked ι → Prop) : Prop :=
  N.contract.Triple (fun b s => N.UnderWay s ∧ p b s) m (fun a b s => N.UnderWay s ∧ q a b s)
    fun ex b s => N.UnderWay s ∧ e ex b s

variable {N} {p p' : Bean → Tracked ι → Prop} {α γ : Type} {m : BeanM α}
  {q q' : α → Bean → Tracked ι → Prop} {e e' : Throwable → Bean → Tracked ι → Prop}

/-- What the other nodes cannot undo is stable in the node's contract. -/
theorem Settled.stable (h : N.Settled p) (b : Bean) :
    N.contract.Stable fun s => N.UnderWay s ∧ p b s := by
  rintro s t ⟨hs, hp⟩ hst
  obtain ⟨ht, hl⟩ := hst hs
  exact ⟨ht, h b s t hs ht hl hp⟩

/-- What depends on the bean alone is settled. -/
theorem Settled.pure (P : Bean → Prop) : N.Settled fun b _ => P b := fun _ _ _ _ _ _ h => h

/-- Settled facts hold together. -/
theorem Settled.and (h : N.Settled p) (h' : N.Settled p') :
    N.Settled fun b s => p b s ∧ p' b s :=
  fun b s t hs ht hl hp => ⟨h b s t hs ht hl hp.1, h' b s t hs ht hl hp.2⟩

/-- No node removes a trigger, so one that is there stays. -/
theorem Settled.trigger_present (k : TriggerKey) :
    N.Settled fun _ s => s.triggers.value k ≠ none :=
  fun _ _ _ hs ht hl h => hs.triggers.present_mono ht.triggers hl.triggers.written h

/-- A job of the initial store is never missing. -/
theorem UnderWay.job_present {s : Tracked ι} (h : N.UnderWay s) {k : JobKey}
    (hk : N.initial.jobs k ≠ none) : s.jobs.value k ≠ none := h.between.job_kept hk

/-- A trigger of the initial store is never missing. -/
theorem UnderWay.trigger_present {s : Tracked ι} (h : N.UnderWay s) {k : TriggerKey}
    (hk : N.initial.triggers k ≠ none) : s.triggers.value k ≠ none := h.between.trigger_kept hk

namespace Spec

theorem consequence (h : N.Spec p m q e) (hp : ∀ b s, N.UnderWay s → p' b s → p b s)
    (hq : ∀ a b s, N.UnderWay s → q a b s → q' a b s)
    (he : ∀ ex b s, N.UnderWay s → e ex b s → e' ex b s) : N.Spec p' m q' e' :=
  Contract.Triple.consequence h (fun b s hs => ⟨hs.1, hp b s hs.1 hs.2⟩)
    (fun a b s hs => ⟨hs.1, hq a b s hs.1 hs.2⟩) fun ex b s hs => ⟨hs.1, he ex b s hs.1 hs.2⟩

theorem pre (h : N.Spec p m q e) (hp : ∀ b s, N.UnderWay s → p' b s → p b s) :
    N.Spec p' m q e :=
  h.consequence hp (fun _ _ _ _ h => h) fun _ _ _ _ h => h

theorem post (h : N.Spec p m q e) (hq : ∀ a b s, N.UnderWay s → q a b s → q' a b s) :
    N.Spec p m q' e :=
  h.consequence (fun _ _ _ h => h) hq fun _ _ _ _ h => h

/-- Nothing is to be shown where the start cannot be. -/
theorem of_false (h : ∀ b s, N.UnderWay s → ¬p b s) : N.Spec p m q e :=
  fun b s hs => (h b s hs.1 hs.2).elim

/-- A body that returns at once, its result settled. -/
theorem pure {a : α} (hq : N.Settled (q a)) (h : ∀ b s, N.UnderWay s → p b s → q a b s) :
    N.Spec p (Pure.pure a) q e :=
  Contract.Triple.pure hq.stable fun b s hs => ⟨hs.1, h b s hs.1 hs.2⟩

/-- A body that throws at once, the exception's condition settled. -/
theorem throw {ex : Throwable} (he : N.Settled (e ex))
    (h : ∀ b s, N.UnderWay s → p b s → e ex b s) :
    N.Spec p (MonadExcept.throw ex : BeanM α) q e :=
  Contract.Triple.throw he.stable fun b s hs => ⟨hs.1, h b s hs.1 hs.2⟩

/-- Sequencing: an exception of the first part is an exception of the whole. -/
theorem bind {f : α → BeanM γ} {r : γ → Bean → Tracked ι → Prop} (hm : N.Spec p m q e)
    (hf : ∀ a, N.Spec (q a) (f a) r e) : N.Spec p (m >>= f) r e :=
  Contract.Triple.bind hm hf

/-- Dropping the answer of a call keeps what is known of the store. -/
theorem discard {r : PUnit → Bean → Tracked ι → Prop} (hm : N.Spec p m q e)
    (hr : N.Settled (r ⟨⟩)) (h : ∀ a b s, N.UnderWay s → q a b s → r ⟨⟩ b s) :
    N.Spec p (discard m) r e := by
  change N.Spec p (m >>= fun _ => Pure.pure PUnit.unit) r e
  exact hm.bind fun a => pure hr (h a)

/-- A handler starts from what the exception left. -/
theorem tryCatch {handle : Throwable → BeanM α} (hm : N.Spec p m q e)
    (hh : ∀ ex, N.Spec (e ex) (handle ex) q e') : N.Spec p (MonadExcept.tryCatch m handle) q e' :=
  Contract.Triple.tryCatch hm hh

/-- Reading the bean's fields: what follows knows them. -/
theorem get_bind {f : Bean → BeanM γ} {r : γ → Bean → Tracked ι → Prop}
    (hf : ∀ b, N.Spec (fun b' s => b' = b ∧ p b' s) (f b) r e) : N.Spec p (get >>= f) r e :=
  Contract.Triple.get_bind fun b => Contract.Triple.consequence (hf b)
    (fun _ _ h => ⟨h.2.1, h.1, h.2.2⟩) (fun _ _ _ h => h) fun _ _ _ h => h

theorem set {b' : Bean} {q : PUnit → Bean → Tracked ι → Prop} (hq : N.Settled (q ⟨⟩))
    (h : ∀ b s, N.UnderWay s → p b s → q ⟨⟩ b' s) :
    N.Spec p (MonadStateOf.set b' : BeanM PUnit) q e :=
  Contract.Triple.set (hq.stable b') fun b s hs => ⟨hs.1, h b s hs.1 hs.2⟩

/-- A loop whose invariant speaks of the elements already done. -/
theorem forM {α : Type} {f : α → BeanM PUnit} {I : List α → Bean → Tracked ι → Prop}
    (xs : List α) (hI : N.Settled (I xs))
    (step : ∀ pre x post, xs = pre ++ x :: post →
      N.Spec (I pre) (f x) (fun _ => I (pre ++ [x])) e) :
    N.Spec (I []) (xs.forM f) (fun _ => I xs) e :=
  Contract.Triple.forM (I := fun pre b s => N.UnderWay s ∧ I pre b s) xs hI.stable step

/-- The rule of a scheduler call: its answer, and what it does to the store. -/
theorem perform {c : SchedulerCall} (hc : c.onScheduler = true)
    {q : quartz.Answer c → Bean → Tracked ι → Prop} (hp : N.Settled p)
    (hq : ∀ a, N.Settled (q a)) (he : ∀ ex, N.Settled (e ex))
    (h : ∀ b s, N.UnderWay s → p b s → ∀ r, r = (exec N.processFile c ⟨s.store, none⟩).1 →
      N.UnderWay (s.after N.node c r) ∧
      (∀ i, i ≠ N.node → N.Leaves i s (s.after N.node c r)) ∧
      Contract.Outcome q e (r, b) (s.after N.node c r))
    (hf : N.fault → ∀ ex b s, N.UnderWay s → p b s → c.handles ex = false → e ex b s) :
    N.Spec p (Body.perform (F := quartz) c) q e := by
  refine Contract.Triple.perform hp.stable (fun a => (hq a).stable) (fun ex => (he ex).stable) ?_
  rintro b s r t ⟨hs, hps⟩ hr
  rcases hr hc with ⟨ha, rfl⟩ | ⟨hfault, ex, hh, rfl, rfl⟩
  · obtain ⟨hu, hl, ho⟩ := h b s hs hps r ha
    refine ⟨fun _ => ⟨hu, hl⟩, ?_⟩
    cases r with
    | ok a => exact ⟨hu, ho⟩
    | error ex => exact ⟨hu, ho⟩
  · exact ⟨fun _ => ⟨hs, fun i _ => .refl i t⟩, hs, hf hfault ex b t hs hps hh⟩

end Spec

/-- A job a node may write keeps the store under way. -/
theorem UnderWay.putJob {s : Tracked ι} (h : N.UnderWay s) {j : JobDetail}
    (hj : MayPutJob N.cfg N.initial j) : N.UnderWay (s.putJob N.node j) :=
  ⟨h.jobs.write _ _ _, h.triggers, h.between.putJob hj⟩

/-- A trigger a node may write keeps the store under way. -/
theorem UnderWay.putTrigger {s : Tracked ι} (h : N.UnderWay s) {k : TriggerKey} {t : Trigger}
    (ht : MayPutTrigger N.cfg N.initial s.store k t) : N.UnderWay (s.putTrigger N.node k t) :=
  ⟨h.jobs, h.triggers.write _ _ _, h.between.putTrigger ht⟩

/-- A calendar as the configuration has it keeps the store under way. -/
theorem UnderWay.putCalendar {s : Tracked ι} (h : N.UnderWay s) {n : String} {c : Calendar}
    (hc : expectedCalendar N.cfg N.initial n = some c) : N.UnderWay (s.putCalendar n c) :=
  ⟨h.jobs, h.triggers, h.between.putCalendar hc⟩

/-- Writing a job is no other node's write. -/
theorem leaves_putJob (s : Tracked ι) (j : JobDetail) {i : ι} (hi : i ≠ N.node) :
    N.Leaves i s (s.putJob N.node j) :=
  ⟨(OwnedMap.changes_write ..).keeps hi.symm, .refl i _, fun _ h => h⟩

/-- Writing a trigger is no other node's write. -/
theorem leaves_putTrigger (s : Tracked ι) (k : TriggerKey) (t : Trigger) {i : ι}
    (hi : i ≠ N.node) : N.Leaves i s (s.putTrigger N.node k t) :=
  ⟨.refl i _, (OwnedMap.changes_write ..).keeps hi.symm, fun _ h => h⟩

/-- Every node writes the same calendar, so a write of it leaves each node alone. -/
theorem leaves_putCalendar (s : Tracked ι) {n : String} {c : Calendar}
    (hc : expectedCalendar N.cfg N.initial n = some c) (i : ι) :
    N.Leaves i s (s.putCalendar n c) := by
  refine ⟨.refl i _, .refl i _, fun n' h => ?_⟩
  by_cases he : n' = n
  · subst he
    simp [Tracked.putCalendar, hc]
  · simpa only [Tracked.putCalendar, Function.update_of_ne he] using h

namespace Spec

/-- `getJobDetail` of a key: the answer is the stored job. -/
theorem getJobDetail {k : JobKey} {q : Option JobDetail → Bean → Tracked ι → Prop}
    (hp : N.Settled p) (hq : ∀ a, N.Settled (q a)) (he : ∀ ex, N.Settled (e ex))
    (h : ∀ b s, N.UnderWay s → p b s → q (s.jobs.value k) b s)
    (hf : N.fault → ∀ ex b s, N.UnderWay s → p b s → e ex b s) :
    N.Spec p (Scheduler.getJobDetail (some k)) q e := by
  refine perform rfl hp hq he ?_ fun hfault ex b s hs hps _ => hf hfault ex b s hs hps
  rintro b s hs hps r rfl
  exact ⟨hs, fun i _ => .refl i s, h b s hs hps⟩

/-- `getJobDetail` of a null key throws. -/
theorem getJobDetail_null {q : Option JobDetail → Bean → Tracked ι → Prop}
    (hp : N.Settled p) (hq : ∀ a, N.Settled (q a)) (he : ∀ ex, N.Settled (e ex))
    (h : ∀ ex b s, N.UnderWay s → p b s → e ex b s) :
    N.Spec p (Scheduler.getJobDetail none) q e := by
  refine perform rfl hp hq he ?_ fun _ ex b s hs hps _ => h ex b s hs hps
  rintro b s hs hps r rfl
  exact ⟨hs, fun i _ => .refl i s, h _ b s hs hps⟩

/-- `addJob` with `replace`: the job is written if this node may write it. -/
theorem addJob {j : JobDetail} {q : Unit → Bean → Tracked ι → Prop} (hp : N.Settled p)
    (hq : N.Settled (q ())) (he : ∀ ex, N.Settled (e ex))
    (h : ∀ b s, N.UnderWay s → p b s →
      MayPutJob N.cfg N.initial j ∧ q () b (s.putJob N.node j))
    (hf : N.fault → ∀ ex b s, N.UnderWay s → p b s → e ex b s) :
    N.Spec p (Scheduler.addJob (some j) true) q e := by
  refine perform rfl hp (fun _ => hq) he ?_ fun hfault ex b s hs hps _ => hf hfault ex b s hs hps
  rintro b s hs hps r rfl
  obtain ⟨hj, hqs⟩ := h b s hs hps
  exact ⟨hs.putJob hj, fun i hi => leaves_putJob s j hi, hqs⟩

/-- `addJob` of a null job throws. -/
theorem addJob_null {q : Unit → Bean → Tracked ι → Prop} (hp : N.Settled p)
    (hq : N.Settled (q ())) (he : ∀ ex, N.Settled (e ex))
    (h : ∀ ex b s, N.UnderWay s → p b s → e ex b s) :
    N.Spec p (Scheduler.addJob none true) q e := by
  refine perform rfl hp (fun _ => hq) he ?_ fun _ ex b s hs hps _ => h ex b s hs hps
  rintro b s hs hps r rfl
  exact ⟨hs, fun i _ => .refl i s, h _ b s hs hps⟩

/-- `addCalendar` with `replace` and `updateTriggers`: the expected calendar is written. -/
theorem addCalendar {n : String} {c : Calendar} {q : Unit → Bean → Tracked ι → Prop}
    (hp : N.Settled p) (hq : N.Settled (q ())) (he : ∀ ex, N.Settled (e ex))
    (hc : expectedCalendar N.cfg N.initial n = some c)
    (h : ∀ b s, N.UnderWay s → p b s → q () b (s.putCalendar n c))
    (hf : N.fault → ∀ ex b s, N.UnderWay s → p b s → e ex b s) :
    N.Spec p (Scheduler.addCalendar n c true true) q e := by
  refine perform rfl hp (fun _ => hq) he ?_ fun hfault ex b s hs hps _ => hf hfault ex b s hs hps
  rintro b s hs hps r rfl
  exact ⟨hs.putCalendar hc, fun i _ => leaves_putCalendar s hc i, h b s hs hps⟩

/-- `getTrigger`: the answer is the stored trigger. -/
theorem getTrigger {k : TriggerKey} {q : Option Trigger → Bean → Tracked ι → Prop}
    (hp : N.Settled p) (hq : ∀ a, N.Settled (q a)) (he : ∀ ex, N.Settled (e ex))
    (h : ∀ b s, N.UnderWay s → p b s → q (s.triggers.value k) b s)
    (hf : N.fault → ∀ ex b s, N.UnderWay s → p b s → e ex b s) :
    N.Spec p (Scheduler.getTrigger k) q e := by
  refine perform rfl hp hq he ?_ fun hfault ex b s hs hps _ => hf hfault ex b s hs hps
  rintro b s hs hps r rfl
  exact ⟨hs, fun i _ => .refl i s, h b s hs hps⟩

/-- Scheduling a trigger: it may be there already, its job may be missing, or it is stored. -/
theorem scheduleJob {t : Trigger} {q : FireTime → Bean → Tracked ι → Prop} (hp : N.Settled p)
    (hq : N.Settled (q ⟨⟩)) (he : ∀ ex, N.Settled (e ex))
    (hthere : ∀ b s, N.UnderWay s → p b s → s.triggers.value t.key ≠ none →
      e alreadyExists b s)
    (hnojob : ∀ b s, N.UnderWay s → p b s → s.triggers.value t.key = none →
      s.jobs.value t.jobKey = none → e jobDoesNotExist b s)
    (hstored : ∀ b s, N.UnderWay s → p b s → s.triggers.value t.key = none →
      s.jobs.value t.jobKey ≠ none →
      MayPutTrigger N.cfg N.initial s.store t.key t ∧ q ⟨⟩ b (s.putTrigger N.node t.key t))
    (hf : N.fault → ∀ ex b s, N.UnderWay s → p b s → ex.isObjectAlreadyExists = false → e ex b s) :
    N.Spec p (Scheduler.scheduleJob t) q e := by
  refine perform rfl hp (fun _ => hq) he ?_ hf
  intro b s hs hps r hr
  by_cases ht : s.triggers.value t.key = none
  · by_cases hj : s.jobs.value t.jobKey = none
    · rw [exec_scheduleJob_noJob ht hj] at hr
      subst hr
      exact ⟨hs, fun i _ => .refl i s, hnojob b s hs hps ht hj⟩
    · rw [exec_scheduleJob_new ht hj] at hr
      subst hr
      obtain ⟨hm, hqs⟩ := hstored b s hs hps ht hj
      exact ⟨hs.putTrigger hm, fun i hi => leaves_putTrigger s _ t hi, hqs⟩
  · rw [exec_scheduleJob_there ht] at hr
    subst hr
    exact ⟨hs, fun i _ => .refl i s, hthere b s hs hps ht⟩

/-- Rescheduling a trigger that is there. -/
theorem rescheduleJob {k : TriggerKey} {t : Trigger}
    {q : Option FireTime → Bean → Tracked ι → Prop} (hp : N.Settled p)
    (hq : ∀ a, N.Settled (q a)) (he : ∀ ex, N.Settled (e ex))
    (h : ∀ b s, N.UnderWay s → p b s → s.triggers.value k ≠ none ∧
      MayPutTrigger N.cfg N.initial s.store k t ∧ q (some ⟨⟩) b (s.putTrigger N.node k t))
    (hf : N.fault → ∀ ex b s, N.UnderWay s → p b s → e ex b s) :
    N.Spec p (Scheduler.rescheduleJob k t) q e := by
  refine perform rfl hp hq he ?_ fun hfault ex b s hs hps _ => hf hfault ex b s hs hps
  intro b s hs hps r hr
  obtain ⟨hthere, hm, hqs⟩ := h b s hs hps
  rw [exec_rescheduleJob_there hthere] at hr
  subst hr
  exact ⟨hs.putTrigger hm, fun i hi => leaves_putTrigger s k t hi, hqs⟩

end Spec

end Registering

end MySchedule.Registration
