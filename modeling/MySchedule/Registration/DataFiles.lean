import MySchedule.Keyed.Writes
import MySchedule.Registration.SingleRun

/-!
# Data files, and the flag not to overwrite

The jobs, the triggers and the jobs they carry are registered as
`overwriteExistingJobs` says. The data processor is not told, so what its files
do to existing data is up to their own directives.
-/

namespace MySchedule.Registration

open Interaction Java Keyed

/-- What a data file registers. -/
inductive DataEntry
  | job (jobDetail : JobDetail)
  | trigger (trigger : Trigger)
  deriving DecidableEq, Repr

/-- A data file: its directive on existing data, which the data processor by default
overwrites, and its jobs and triggers in the order in which they are registered. -/
structure DataFile where
  overWriteExistingData : Bool := true
  entries : List DataEntry
  deriving DecidableEq, Repr

/-- Entries that were registered, each with the directive of its file. -/
abbrev Loaded : Type := List (Bool × DataEntry)

/-- The first `n` entries of a file. -/
def DataFile.upTo (file : DataFile) (n : ℕ) : Loaded :=
  (file.entries.take n).map fun e => (file.overWriteExistingData, e)

def DataFile.all (file : DataFile) : Loaded := file.upTo file.entries.length

def jobWrite : Bool × DataEntry → Option (Write JobDetail)
  | (overWrite, .job j) => some ⟨overWrite, j⟩
  | (_, .trigger _) => none

def triggerWrite : Bool × DataEntry → Option (Write Trigger)
  | (overWrite, .trigger t) => some ⟨overWrite, t⟩
  | (_, .job _) => none

/-- The store after entries were registered. -/
def Store.load (s : Store) (loaded : Loaded) : Store where
  jobs := writeAll JobDetail.key (loaded.filterMap jobWrite) s.jobs
  triggers := writeAll Trigger.key (loaded.filterMap triggerWrite) s.triggers
  calendars := s.calendars

section

variable (processFile : DataProcessor)

/-- The data processor as Quartz documents it: it registers the jobs and triggers of a file,
or as many as it gets to before it throws. -/
structure Documented (file : String → DataFile) (reached : String → Store → ℕ) : Prop where
  registers : ∀ location s, (processFile location s).1 = .ok () →
    (processFile location s).2 = s.load (file location).all
  stops : ∀ location s ex, (processFile location s).1 = .error ex →
    (processFile location s).2 = s.load ((file location).upTo (reached location s))

/-- The data processor run on one location after the other, until it throws. -/
def loadFiles : List String → Store → Except Throwable Unit × Store
  | [], s => (.ok (), s)
  | location :: locations, s =>
    match processFile location s with
    | (.ok _, s') => loadFiles locations s'
    | (.error ex, s') => (.error ex, s')

/-- What it registers. -/
def loaded (file : String → DataFile) (reached : String → Store → ℕ) :
    List String → Store → Loaded
  | [], _ => []
  | location :: locations, s =>
    match processFile location s with
    | (.ok _, s') => (file location).all ++ loaded file reached locations s'
    | (.error _, _) => (file location).upTo (reached location s)

end

/-- What is in `s₀` is in `s` as it was. -/
structure Kept (s₀ s : Store) : Prop where
  jobs : ∀ k, s₀.jobs k ≠ none → s.jobs k = s₀.jobs k
  triggers : ∀ k, s₀.triggers k ≠ none → s.triggers k = s₀.triggers k

/-- The last entry that overwrites a key of `s₀`, if there is one, says what `s₀` says. -/
structure Harmless (s₀ : Store) (entries : Loaded) : Prop where
  jobs : ∀ k j j', s₀.jobs k = some j →
    last JobDetail.key k (replacing (entries.filterMap jobWrite)) = some j' → j' = j
  triggers : ∀ k t t', s₀.triggers k = some t →
    last Trigger.key k (replacing (entries.filterMap triggerWrite)) = some t' → t' = t

section Loading

variable {s₀ s s' : Store} {entries : Loaded}

/-- Loading two lists is loading one after the other. -/
theorem load_append (entries' : Loaded) :
    s.load (entries ++ entries') = (s.load entries).load entries' := by
  simp only [Store.load, writeAll, List.filterMap_append, List.foldl_append]

/-- Registering the entries of files keeps what is there exactly when they are harmless. -/
theorem kept_load_iff : Kept s (s.load entries) ↔ Harmless s entries := by
  constructor
  · intro h
    constructor
    · intro k j j' hk
      have hj := h.jobs k (by simp [hk])
      rw [hk] at hj
      exact (writeAll_eq_iff hk _).mp hj j'
    · intro k t t' hk
      have ht := h.triggers k (by simp [hk])
      rw [hk] at ht
      exact (writeAll_eq_iff hk _).mp ht t'
  · intro h
    constructor
    · intro k hk
      obtain ⟨j, hj⟩ := Option.ne_none_iff_exists'.mp hk
      rw [hj]
      exact (writeAll_eq_iff hj _).mpr fun j' => h.jobs k j j' hj
    · intro k hk
      obtain ⟨t, ht⟩ := Option.ne_none_iff_exists'.mp hk
      rw [ht]
      exact (writeAll_eq_iff ht _).mpr fun t' => h.triggers k t t' ht

/-- What keeps the store that entries were registered in keeps what was there before as much
as they did. -/
theorem kept_after_load_iff (h : Kept (s.load entries) s') :
    Kept s s' ↔ Kept s (s.load entries) := by
  have hjobs : ∀ k, s.jobs k ≠ none → s'.jobs k = (s.load entries).jobs k :=
    fun k hk => h.jobs k (writeAll_present hk _)
  have htriggers : ∀ k, s.triggers k ≠ none → s'.triggers k = (s.load entries).triggers k :=
    fun k hk => h.triggers k (writeAll_present hk _)
  constructor
  · intro hs
    constructor
    · exact fun k hk => (hjobs k hk).symm.trans (hs.jobs k hk)
    · exact fun k hk => (htriggers k hk).symm.trans (hs.triggers k hk)
  · intro hs
    constructor
    · exact fun k hk => (hjobs k hk).trans (hs.jobs k hk)
    · exact fun k hk => (htriggers k hk).trans (hs.triggers k hk)

variable {processFile : DataProcessor} {file : String → DataFile} {reached : String → Store → ℕ}

/-- The files load what they hold, each as far as it got. -/
theorem loadFiles_store (hdoc : Documented processFile file reached) (locations : List String) :
    (loadFiles processFile locations s).2 =
      s.load (loaded processFile file reached locations s) := by
  induction locations generalizing s with
  | nil => rfl
  | cons location locations ih =>
    rcases hp : processFile location s with ⟨ex | u, s'⟩
    · have hs := hdoc.stops location s ex (by rw [hp])
      rw [hp] at hs
      simpa only [loadFiles, loaded, hp] using hs
    · have hs := hdoc.registers location s (by rw [hp])
      rw [hp] at hs
      change s' = _ at hs
      simp only [loadFiles, loaded, hp, load_append]
      rw [ih, hs]

end Loading

/-- The same configuration without data files. -/
def BeanConfig.withoutFiles (cfg : BeanConfig) : BeanConfig :=
  { cfg with jobSchedulingDataLocations := none }

def BeanConfig.locations (cfg : BeanConfig) : List String :=
  cfg.jobSchedulingDataLocations.getD []

section Files

variable (processFile : DataProcessor) (cfg : BeanConfig) (b : Bean) (x : SchedulerState)

/-- The data files come first, the rest as without them. -/
theorem registerAll_files :
    registerAll cfg = processDataLocations cfg >>= fun _ => registerAll cfg.withoutFiles := rfl

/-- The loop over the files takes the processor's own answers. -/
theorem run_forM_processFile (locations : List String) :
    Body.runWith (exec processFile) (locations.forM DataProcessor.processFileAndScheduleJobs) b x =
      (((loadFiles processFile locations x.store).1, b),
        { x with store := (loadFiles processFile locations x.store).2 }) := by
  induction locations generalizing x with
  | nil => rfl
  | cons location locations ih =>
    have hrun : Body.runWith (exec processFile)
        (DataProcessor.processFileAndScheduleJobs location) b x =
        (((processFile location x.store).1, b),
          { x with store := (processFile location x.store).2 }) := rfl
    change Body.runWith _ (DataProcessor.processFileAndScheduleJobs location >>= fun _ =>
      locations.forM DataProcessor.processFileAndScheduleJobs) b x = _
    rcases hp : processFile location x.store with ⟨ex | u, s'⟩
    · rw [hp] at hrun
      rw [Body.runWith_bind_of_error hrun]
      simp only [loadFiles, hp]
    · rw [hp] at hrun
      rw [Body.runWith_bind_of_ok hrun, ih]
      simp only [loadFiles, hp]

/-- The data files, run alone. -/
theorem run_processDataLocations :
    Body.runWith (exec processFile) (processDataLocations cfg) b x =
      (((loadFiles processFile cfg.locations x.store).1, b),
        { x with store := (loadFiles processFile cfg.locations x.store).2 }) := by
  unfold processDataLocations BeanConfig.locations
  cases cfg.jobSchedulingDataLocations with
  | none => rfl
  | some locations =>
    have hnew : Body.runWith (exec processFile) DataProcessor.new b x = ((.ok (), b), x) := rfl
    rw [Body.runWith_bind_of_ok hnew]
    exact run_forM_processFile processFile b x locations

variable {processFile cfg b x}

/-- The phases after the data files keep what is there, whether they go through or not; and they
go through exactly when no trigger makes its turn fail. -/
theorem registerAll_withoutFiles (hkeep : cfg.overwriteExistingJobs = false)
    {r : Except Throwable Unit} {b' : Bean} {y : SchedulerState}
    (hrun : Body.runWith (exec processFile) (registerAll cfg.withoutFiles) cfg.freshBean x =
      ((r, b'), y)) :
    Kept x.store y.store ∧ (r = .ok () ↔ Schedulable cfg x.store cfg.triggerList) := by
  let N := firstRegistration processFile cfg.withoutFiles x.store
  obtain ⟨s, hs, hunder, hend⟩ := Registering.registerAll_alone (N := N) rfl beanList_fresh
    Registering.covers_exec rfl hrun
  have hext : Extended cfg.withoutFiles x.store y.store := by
    rw [hs]
    exact hunder.between.extended hkeep
  constructor
  · constructor
    · exact fun k hk => (hext.jobs k).resolve_right fun h => hk h.1
    · exact fun k hk => (hext.triggers k).resolve_right fun h => hk h.1
  · cases r with
    | ok u =>
      have hsch := hend.schedulable ⟨fun _ => rfl, rfl, rfl⟩
      exact ⟨fun _ => hsch, fun _ => rfl⟩
    | error ex =>
      have hsch : ¬Schedulable cfg x.store cfg.triggerList := hend.2.resolve_left fun h => h
      exact ⟨fun h => absurd h (by simp), fun h => absurd h hsch⟩

end Files

/-- A data file that the processor gets to is refused, or after the files a trigger makes its
turn fail. -/
def RegistrationFails (processFile : DataProcessor) (cfg : BeanConfig) (s₀ : Store) : Prop :=
  (∃ ex, (loadFiles processFile cfg.locations s₀).1 = .error ex) ∨
    ¬Schedulable cfg (loadFiles processFile cfg.locations s₀).2 cfg.triggerList

section Registration

variable {processFile : DataProcessor} {cfg : BeanConfig} {s₀ : Store}

/-- A store keeps itself. -/
theorem kept_refl (s : Store) : Kept s s := ⟨fun _ _ => rfl, fun _ _ => rfl⟩

/-- What is inside the `try` keeps the store that the files left, and throws exactly when the
registration fails. -/
theorem registerAll_kept (hkeep : cfg.overwriteExistingJobs = false) {savepoint : Option Store}
    {r : Except Throwable Unit} {b' : Bean} {y : SchedulerState}
    (hrun : Body.runWith (exec processFile) (registerAll cfg) cfg.freshBean ⟨s₀, savepoint⟩ =
      ((r, b'), y)) :
    Kept (loadFiles processFile cfg.locations s₀).2 y.store ∧
      (r = .ok () ↔ ¬RegistrationFails processFile cfg s₀) := by
  have hload := run_processDataLocations processFile cfg cfg.freshBean ⟨s₀, savepoint⟩
  rw [registerAll_files] at hrun
  unfold RegistrationFails
  rcases hl : loadFiles processFile cfg.locations s₀ with ⟨ex | u, s₁⟩
  · rw [hl] at hload
    rw [Body.runWith_bind_of_error hload] at hrun
    cases hrun
    exact ⟨kept_refl s₁, by simp⟩
  · rw [hl] at hload
    rw [Body.runWith_bind_of_ok hload] at hrun
    obtain ⟨hkept, hok⟩ := registerAll_withoutFiles hkeep hrun
    exact ⟨hkept, hok.trans (by simp)⟩

/-- A registration that fails in a transaction leaves everything as it was; every other one
keeps the store that the files left. -/
theorem registerAlone_kept (processFile : DataProcessor) (s₀ : Store)
    (hkeep : cfg.overwriteExistingJobs = false) :
    (cfg.transactionManager = true ∧ RegistrationFails processFile cfg s₀ ∧
      (registerAlone processFile cfg s₀).2.store = s₀) ∨
    (¬(cfg.transactionManager = true ∧ RegistrationFails processFile cfg s₀) ∧
      Kept (loadFiles processFile cfg.locations s₀).2
        (registerAlone processFile cfg s₀).2.store) := by
  obtain ⟨savepoint, r, b', y, hrun, hend⟩ := registerAlone_course processFile cfg s₀
  obtain ⟨hkept, hok⟩ := registerAll_kept hkeep hrun
  cases r with
  | ok u =>
    rw [hend.2]
    exact Or.inr ⟨fun h => hok.mp rfl h.2, hkept⟩
  | error ex =>
    have hfails : RegistrationFails processFile cfg s₀ := by
      by_contra hnot
      cases hok.mpr hnot
    cases hm : cfg.transactionManager with
    | false =>
      rw [hend.2, hm]
      exact Or.inr ⟨fun h => Bool.false_ne_true h.1, hkept⟩
    | true =>
      have hback := hend.2
      rw [hm, if_pos rfl] at hback
      exact Or.inl ⟨rfl, hfails, hback⟩

end Registration

/-- With `overwriteExistingJobs` false, existing jobs and triggers are kept exactly when the
registration is rolled back, or the last entry of the data files that overwrites an existing
key, for each such key, says the same as before. -/
theorem existing_kept_iff {processFile : DataProcessor} {file : String → DataFile}
    {reached : String → Store → ℕ} (hdoc : Documented processFile file reached)
    (cfg : BeanConfig) (hkeep : cfg.overwriteExistingJobs = false) (s₀ : Store) :
    Kept s₀ (registerAlone processFile cfg s₀).2.store ↔
      (cfg.transactionManager = true ∧ RegistrationFails processFile cfg s₀) ∨
        Harmless s₀ (loaded processFile file reached cfg.locations s₀) := by
  have hstore := loadFiles_store (s := s₀) hdoc cfg.locations
  rcases registerAlone_kept processFile s₀ hkeep with
    ⟨hm, hfails, hback⟩ | ⟨hnot, hkept⟩
  · rw [hback]
    exact ⟨fun _ => Or.inl ⟨hm, hfails⟩, fun _ => kept_refl s₀⟩
  · rw [hstore] at hkept
    rw [kept_after_load_iff hkept, kept_load_iff]
    exact ⟨Or.inr, fun h => h.resolve_left hnot⟩

/-- A data processor that registers what the files say and throws nothing. -/
def processing (file : String → DataFile) : DataProcessor :=
  fun location s => (.ok (), s.load (file location).all)

/-- Processing a file in order is a documented way to do it. -/
theorem processing_documented (file : String → DataFile) (reached : String → Store → ℕ) :
    Documented (processing file) file reached where
  registers _ _ _ := rfl
  stops _ _ _ h := nomatch h

/-- A bean with one data file. -/
def oneFile : BeanConfig where
  transactionManager := false
  overwriteExistingJobs := false
  jobSchedulingDataLocations := some ["jobs.xml"]
  jobDetails := none
  calendars := none
  triggers := none

/-- A scheduler with one job. -/
def withLoad : Store := Store.empty.putJob ⟨⟨"load", "nightly"⟩, "v1"⟩

/-- A file that defines the job anew, with a directive to overwrite existing data or not to. -/
def newLoad (overWrite : Bool) : String → DataFile :=
  fun _ => ⟨overWrite, [.job ⟨⟨"load", "nightly"⟩, "v2"⟩]⟩

/-- The job is kept when the file says not to overwrite it. -/
theorem newLoad_kept :
    Kept withLoad (registerAlone (processing (newLoad false)) oneFile withLoad).2.store := by
  refine (existing_kept_iff (processing_documented (newLoad false) fun _ _ => 0) oneFile rfl
    withLoad).mpr (Or.inr ?_)
  constructor
  · intro k j j' _ hlast
    cases hlast
  · intro k t t' _ hlast
    cases hlast

/-- A data file overwrites an existing job although `overwriteExistingJobs` is false. -/
theorem file_overwrites_job :
    ¬∀ (processFile : DataProcessor) (file : String → DataFile) (reached : String → Store → ℕ)
      (cfg : BeanConfig) (s₀ : Store), Documented processFile file reached →
      cfg.overwriteExistingJobs = false →
      Kept s₀ (registerAlone processFile cfg s₀).2.store := by
  intro h
  have hkept := h _ _ _ oneFile withLoad
    (processing_documented (newLoad true) fun _ _ => 0) rfl
  have hjob := hkept.jobs ⟨"load", "nightly"⟩ (by simp [withLoad, Store.putJob])
  have hnew : (registerAlone (processing (newLoad true)) oneFile withLoad).2.store.jobs
      ⟨"load", "nightly"⟩ = some ⟨⟨"load", "nightly"⟩, "v2"⟩ := rfl
  rw [hnew] at hjob
  simp [withLoad, Store.putJob] at hjob

end MySchedule.Registration
