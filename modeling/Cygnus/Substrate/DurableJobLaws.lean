import Cygnus.Substrate.DurableJobs

/-! Which files the store writes, and what it reads back from them. -/

namespace Cygnus.DurableJobs

open Result Text Sequence Posix PipelinePhase

section RoundTrip

variable {R τ : Type} (py : Python R τ)

/-- What a sorted object holds under a key. -/
theorem lookup_sorted {fields : Dict String (Document R)} (hkeys : (fields.map Prod.fst).Nodup)
    (key : String) :
    (sortedBy Prod.fst (Document.sortFields fields)).lookup key =
      (fields.lookup key).map Document.sortKeys := by
  have hsorted : ((Document.sortFields fields).map Prod.fst).Nodup := by
    rw [Document.sortFields_eq_map, List.map_map]
    exact hkeys
  rw [Document.lookup_sortedBy hsorted, Document.lookup_sortFields]

theorem sortItems_texts {ι : Type} (text : ι → String) (xs : List ι) :
    Document.sortItems (xs.map fun x => (.str (text x) : Document R)) =
      xs.map fun x => .str (text x) := by
  induction xs with
  | nil => rfl
  | cons x xs ih => rw [List.map_cons, Document.sortItems, ih, Document.sortKeys]

theorem nodup_expectedPhases (phase : PipelinePhase) (isComplete : Bool) :
    (expectedPhases phase isComplete).Nodup := by
  cases phase <;> cases isComplete <;> decide

theorem sortedBy_expectedPhases (phase : PipelinePhase) (isComplete : Bool) :
    sortedBy phaseIndex (expectedPhases phase isComplete) = expectedPhases phase isComplete := by
  cases phase <;> cases isComplete <;> decide +kernel

/-- A checkpoint passes its own constructor unchanged. -/
theorem PipelineCheckpoint.make_self (checkpoint : PipelineCheckpoint) :
    make checkpoint.workflowId checkpoint.currentPhase checkpoint.completedPhases
      checkpoint.isComplete = .ok checkpoint := by
  obtain ⟨workflowId, currentPhase, completedPhases, isComplete, hblank, hended, rfl⟩ := checkpoint
  have hcomplete : ¬ (isComplete = true ∧ currentPhase ≠ .feedback) := fun h => h.2 (hended h.1)
  simp only [make, hblank, ↓reduceDIte, nodup_expectedPhases, not_true_eq_false, ↓reduceIte,
    hcomplete, sortedBy_expectedPhases]

theorem PipelineCheckpoint.mapM_phaseOf (phases : List PipelinePhase) :
    (phases.map fun phase => (.str phase.value : Document R)).mapM (phaseOf py) = .ok phases := by
  induction phases with
  | nil => rfl
  | cons phase phases ih =>
    rw [List.map_cons, List.mapM_cons, ih, phaseOf, coercePhase_value]
    rfl

/-- The checkpoint is read back from its sorted object. -/
theorem PipelineCheckpoint.fromDict_toDict (checkpoint : PipelineCheckpoint) :
    fromDict py (sortedBy Prod.fst (Document.sortFields (toDict checkpoint))) =
      .ok checkpoint := by
  have hkeys : ((toDict checkpoint : Dict String (Document R)).map Prod.fst).Nodup := by
    show ["workflow_id", "current_phase", "completed_phases", "resume_phase", "is_complete"].Nodup
    decide
  simp only [fromDict, item, lookup_sorted hkeys]
  simp only [toDict, demand, List.lookup_cons, String.reduceBEq, Option.map_some, Option.getD_some,
    beq_self_eq_true, Document.sortKeys, sortItems_texts, rawPhases, ok_bind, mapM_phaseOf,
    Python.text, coercePhase_value, Python.truth, make_self]

/-- The payload as it comes back from a file. -/
def DurableWorkflowJob.stored (job : DurableWorkflowJob R τ) : DurableWorkflowJob R τ where
  toJobFields := { job.toJobFields with
    workflowPayload := sortedBy Prod.fst (Document.sortFields job.workflowPayload) }
  valid := job.valid

theorem DurableWorkflowJob.make_self (job : DurableWorkflowJob R τ) :
    make job.toJobFields = .ok job := by
  unfold make
  split
  · rfl
  · rename_i error herror
    rw [job.valid] at herror
    cases herror

theorem DurableWorkflowJob.makeWithError_elim (fields : JobFields R τ) :
    makeWithError { fields with lastError := none }
      (fields.lastError.elim .null .str : Document R) = make fields := by
  obtain ⟨_, _, _, _, _, _, _, _, _, _, lastError⟩ := fields
  cases lastError <;> rfl

/-- A job is read back from its sorted object. -/
theorem DurableWorkflowJob.fromDict_toDict (hiso : ∀ t, py.fromisoformat (py.isoformat t) = .ok t)
    (job : DurableWorkflowJob R τ) :
    fromDict py (sortedBy Prod.fst (Document.sortFields (job.toDict py))) = .ok job.stored := by
  have hkeys : ((job.toDict py).map Prod.fst).Nodup := by
    show ["job_id", "workflow_id", "workflow_name", "queue_name", "queue_status", "attempt_count",
      "checkpoint", "workflow_payload", "resume_phase", "created_at", "updated_at",
      "last_error"].Nodup
    decide
  simp only [fromDict, item, lookup_sorted hkeys]
  simp only [toDict, demand, List.lookup_cons, String.reduceBEq, Option.map_some, Option.getD_some,
    beq_self_eq_true, Document.sortKeys, ok_bind, Python.text, QueueStatus.ofValue_value,
    Python.toInt, Python.toDict, PipelineCheckpoint.fromDict_toDict, hiso]
  have herror : (job.lastError.elim .null .str : Document R).sortKeys =
      job.lastError.elim .null .str := by
    cases job.lastError <;> rfl
  rw [herror]
  exact (makeWithError_elim job.stored.toJobFields).trans job.stored.make_self

end RoundTrip

section Files

variable {R τ : Type} (py : Python R τ) (store : FileDurableJobStore)

/-- The place of the file that the store keeps for an id. -/
def FileDurableJobStore.fileOf (disk : Disk (Contents R)) (jobId : String) : Option Path :=
  if strip jobId = "" then none
  else disk.locate (join store.rootDir (jobId.toList ++ ".json".toList))

/-- What a file holds after a save. -/
def written (job : DurableWorkflowJob R τ) : Contents R :=
  some (Document.object (job.toDict py)).sortKeys

/-- The job has been written to its file, and nothing else has. -/
structure Writes (disk disk' : Disk (Contents R)) (job : DurableWorkflowJob R τ)
    (place : Path) : Prop where
  file : store.fileOf disk job.jobId = some place
  admits : disk'.admits = disk.admits
  dirs : disk'.dirs = disk.dirs
  files : disk'.files = disk.files.set place (written py job)

variable {py store} {disk disk' : Disk (Contents R)} {jobId : String} {place : Path}
  {job : DurableWorkflowJob R τ}

namespace FileDurableJobStore

theorem fileOf_congr (hadmits : disk'.admits = disk.admits) (hdirs : disk'.dirs = disk.dirs)
    (jobId : String) : store.fileOf disk' jobId = store.fileOf disk jobId := by
  rw [fileOf, fileOf, Disk.locate_congr hadmits hdirs]

theorem jobAt_of_blank (hblank : strip jobId = "") :
    store.jobAt py disk jobId = .error (.valueError "job_id must not be blank") := by
  have hpath : store.pathFor jobId = .error (.valueError "job_id must not be blank") := by
    rw [pathFor, require, if_neg (not_not_intro hblank)]
    rfl
  rw [jobAt, hpath]
  rfl

theorem jobAt_of_nonblank (hblank : strip jobId ≠ "") : store.jobAt py disk jobId =
    demand ((store.fileOf disk jobId).bind fun place => disk.files.lookup place) .osError >>=
      parse py := by
  have hpath : store.pathFor jobId = .ok (join store.rootDir (jobId.toList ++ ".json".toList)) := by
    rw [pathFor, require_of hblank]
    rfl
  rw [jobAt, hpath, fileOf, if_neg hblank]
  rfl

/-- What an id leads to depends on its own file alone. -/
theorem jobAt_congr (hadmits : disk'.admits = disk.admits) (hdirs : disk'.dirs = disk.dirs)
    (hfile : ∀ place, store.fileOf disk jobId = some place →
      disk'.files.lookup place = disk.files.lookup place) :
    store.jobAt py disk' jobId = store.jobAt py disk jobId := by
  by_cases hblank : strip jobId = ""
  · rw [jobAt_of_blank hblank, jobAt_of_blank hblank]
  · rw [jobAt_of_nonblank hblank, jobAt_of_nonblank hblank, fileOf_congr hadmits hdirs]
    cases hplace : store.fileOf disk jobId with
    | none => rfl
    | some place => rw [Option.bind_some, Option.bind_some, hfile place hplace]

theorem jobAt_of_file {contents : Contents R} (hfile : store.fileOf disk jobId = some place)
    (hcontents : disk.files.lookup place = some contents) :
    store.jobAt py disk jobId = parse py contents := by
  have hblank : strip jobId ≠ "" := by
    intro hblank
    rw [fileOf, if_pos hblank] at hfile
    cases hfile
  rw [jobAt_of_nonblank hblank, hfile, Option.bind_some, hcontents]
  rfl

theorem jobAt_ok (h : store.jobAt py disk jobId = .ok job) : ∃ place contents,
    store.fileOf disk jobId = some place ∧ disk.files.lookup place = some contents ∧
      parse py contents = .ok job := by
  by_cases hblank : strip jobId = ""
  · rw [jobAt_of_blank hblank] at h
    cases h
  · rw [jobAt_of_nonblank hblank] at h
    simp only [bind_ok, demand_ok, Option.bind_eq_some_iff] at h
    obtain ⟨contents, ⟨place, hplace, hcontents⟩, hparse⟩ := h
    exact ⟨place, contents, hplace, hcontents, hparse⟩

/-- The disk after the job has been written. -/
def saved (py : Python R τ) (store : FileDurableJobStore) (disk : Disk (Contents R))
    (job : DurableWorkflowJob R τ) : Except JobError (Disk (Contents R)) := do
  let path ← store.pathFor job.jobId
  demand (disk.write path (written py job)) .osError

theorem save_run (disk : Disk (Contents R)) (job : DurableWorkflowJob R τ) :
    (store.save py job).run.run disk =
      ((store.saved py disk job).map fun _ => job,
        (store.saved py disk job).toOption.getD disk) := by
  unfold save saved
  cases store.pathFor job.jobId with
  | error error => rfl
  | ok path =>
    have hrun : StateT.run (ExceptT.run (do
        let path ← fromExcept (.ok path)
        let disk ← get
        let disk ← fromExcept (demand
          (disk.write path (some (Document.object (job.toDict py)).sortKeys)) .osError)
        set disk
        return job)) disk = StateT.run (ExceptT.run
          (fromExcept (demand (disk.write path (written py job)) .osError) >>= fun disk' => do
            set disk'
            return job)) disk := rfl
    rw [hrun, ok_bind]
    cases disk.write path (written py job) <;> rfl

theorem saved_ok (h : store.saved py disk job = .ok disk') :
    ∃ place, Writes py store disk disk' job place := by
  simp only [saved, pathFor, bind_ok, require_ok, pure_ok, demand_ok] at h
  obtain ⟨path, ⟨-, hblank, rfl⟩, hwrite⟩ := h
  obtain ⟨place, hplace, hadmits, hdirs, hfiles⟩ := Disk.write_some hwrite
  exact ⟨place, by rw [fileOf, if_neg hblank, hplace], hadmits, hdirs, hfiles⟩

theorem exists_saved_iff :
    (∃ disk', store.saved py disk job = .ok disk') ↔
      ∃ place, store.fileOf disk job.jobId = some place ∧ place ∉ disk.dirs := by
  constructor
  · rintro ⟨disk', h⟩
    simp only [saved, pathFor, bind_ok, require_ok, pure_ok, demand_ok] at h
    obtain ⟨path, ⟨-, hblank, rfl⟩, hwrite⟩ := h
    rw [fileOf, if_neg hblank]
    exact Disk.exists_write_iff.mp ⟨disk', hwrite⟩
  · rintro ⟨place, hplace, hdir⟩
    have hblank : strip job.jobId ≠ "" := by
      intro hblank
      rw [fileOf, if_pos hblank] at hplace
      cases hplace
    rw [fileOf, if_neg hblank] at hplace
    have hsome : ∃ disk', disk.write (join store.rootDir (job.jobId.toList ++ ".json".toList))
        (written py job) = some disk' := Disk.exists_write_iff.mpr ⟨place, hplace, hdir⟩
    obtain ⟨disk', hwrite⟩ := hsome
    refine ⟨disk', ?_⟩
    simp only [saved, pathFor, bind_ok, require_ok, pure_ok, demand_ok]
    exact ⟨_, ⟨(), hblank, rfl⟩, hwrite⟩

section Runs

variable {α β : Type} {x : Storing R α} {f : α → Storing R β}

theorem run_bind_ok {a : α} (h : x.run.run disk = (.ok a, disk')) :
    (x >>= f).run.run disk = (f a).run.run disk' := by
  rw [ExceptT.run_bind, StateT.run_bind, h]
  rfl

theorem run_bind_error {error : JobError} (h : x.run.run disk = (.error error, disk')) :
    (x >>= f).run.run disk = (.error error, disk') := by
  rw [ExceptT.run_bind, StateT.run_bind, h]
  rfl

theorem run_fromExcept (result : Except JobError α) :
    (fromExcept result : Storing R α).run.run disk = (result, disk) := rfl

theorem load_run (jobId : String) :
    (store.load py jobId).run.run disk = (store.jobAt py disk jobId, disk) := rfl

end Runs

/-- A save fails and writes nothing, or writes the job to its file. -/
theorem save_cases (py : Python R τ) (store : FileDurableJobStore) (disk : Disk (Contents R))
    (job : DurableWorkflowJob R τ) :
    (∃ error, (store.save py job).run.run disk = (.error error, disk)) ∨
      ∃ place disk', (store.save py job).run.run disk = (.ok job, disk') ∧
        Writes py store disk disk' job place := by
  rw [save_run]
  cases hsaved : store.saved py disk job with
  | error error => exact .inl ⟨error, rfl⟩
  | ok disk' =>
    obtain ⟨place, hwrites⟩ := saved_ok hsaved
    exact .inr ⟨place, disk', rfl, hwrites⟩

/-- A job can be saved where its file can be written. -/
theorem exists_save_iff : (∃ disk', (store.save py job).run.run disk = (.ok job, disk')) ↔
    ∃ place, store.fileOf disk job.jobId = some place ∧ place ∉ disk.dirs := by
  rw [← exists_saved_iff, save_run]
  cases store.saved py disk job with
  | error error =>
    constructor
    · rintro ⟨disk', h⟩
      cases (Prod.mk.inj h).1
    · rintro ⟨disk', h⟩
      cases h
  | ok disk' => exact ⟨fun _ => ⟨disk', rfl⟩, fun _ => ⟨disk', rfl⟩⟩

end FileDurableJobStore

theorem DurableWorkflowJob.make_ok {fields : JobFields R τ} (h : make fields = .ok job) :
    job.toJobFields = fields := by
  unfold make at h
  split at h
  · cases h
    rfl
  · cases h

theorem DurableWorkflowJob.transitionTo_ok {job' : DurableWorkflowJob R τ} {target : QueueStatus}
    {error : Option String} {now : τ} (h : job.transitionTo target error now = .ok job') :
    target ∈ job.queueStatus.allowedStatusTransitions ∧ job'.jobId = job.jobId ∧
      job'.attemptCount = if target = .active then job.attemptCount + 1 else job.attemptCount := by
  simp only [transitionTo, bind_ok, require_ok] at h
  obtain ⟨-, hallowed, lastError, -, h⟩ := h
  have hfields := make_ok h
  exact ⟨hallowed, by rw [hfields], by rw [hfields]⟩

/-- An update fails and writes nothing, or writes the job's next state to its file. -/
theorem FileDurableJobStore.update_cases (py : Python R τ) (store : FileDurableJobStore)
    (disk : Disk (Contents R)) (jobId : String) (target : QueueStatus)
    (error : Option String) (now : τ) :
    (∃ e, (store.update py jobId target error now).run.run disk = (.error e, disk)) ∨
      ∃ old job place disk', store.jobAt py disk jobId = .ok old ∧
        old.transitionTo target error now = .ok job ∧
        (store.update py jobId target error now).run.run disk = (.ok job, disk') ∧
        Writes py store disk disk' job place := by
  unfold update
  cases hfound : store.jobAt py disk jobId with
  | error e =>
    have hload : (store.load py jobId).run.run disk = (.error e, disk) := by
      rw [load_run, hfound]
    exact .inl ⟨e, run_bind_error hload⟩
  | ok old =>
    have hload : (store.load py jobId).run.run disk = (.ok old, disk) := by
      rw [load_run, hfound]
    rw [run_bind_ok hload]
    cases hnext : old.transitionTo target error now with
    | error e => exact .inl ⟨e, run_bind_error (run_fromExcept _)⟩
    | ok job =>
      rw [run_bind_ok (run_fromExcept (.ok job))]
      rcases save_cases py store disk job with herror | ⟨place, disk', hsave, hwrites⟩
      · exact .inl herror
      · exact .inr ⟨old, job, place, disk', rfl, hnext, hsave, hwrites⟩

namespace Operation

def isActivation : Operation R τ → Bool
  | activate _ _ => true
  | _ => false

def isSave : Operation R τ → Bool
  | save _ => true
  | _ => false

/-- What the operation saves, where it saves anything. -/
structure Saves (py : Python R τ) (store : FileDurableJobStore) (disk : Disk (Contents R))
    (op : Operation R τ) (old job : DurableWorkflowJob R τ) : Prop where
  found : store.jobAt py disk op.jobId = .ok old
  same : job.jobId = old.jobId
  counted : job.attemptCount = old.attemptCount + if op.isActivation then 1 else 0

/-- An operation that is no save updates the job of its id. -/
theorem perform_update (py : Python R τ) (store : FileDurableJobStore) {op : Operation R τ}
    (hsave : op.isSave = false) : ∃ target error now,
    op.perform py store = store.update py op.jobId target error now ∧
      (target = .active ↔ op.isActivation = true) := by
  cases op with
  | save job => cases hsave
  | activate jobId now => exact ⟨.active, none, now, rfl, by simp [isActivation]⟩
  | fail jobId error now => exact ⟨.failed, some error, now, rfl, by simp [isActivation]⟩
  | resume jobId now => exact ⟨.resumed, none, now, rfl, by simp [isActivation]⟩
  | complete jobId now => exact ⟨.completed, none, now, rfl, by simp [isActivation]⟩

/-- An operation fails and writes nothing, or writes one job to its file. -/
theorem perform_cases (py : Python R τ) (store : FileDurableJobStore) (disk : Disk (Contents R))
    (op : Operation R τ) :
    (∃ error, op.result py store disk = .error error ∧ op.after py store disk = disk) ∨
      ∃ job place, op.result py store disk = .ok job ∧
        Writes py store disk (op.after py store disk) job place ∧
        (op = .save job ∨ op.isSave = false ∧ ∃ old, op.Saves py store disk old job) := by
  cases hsave : op.isSave with
  | true =>
    obtain ⟨job, rfl⟩ : ∃ job, op = .save job := by
      cases op with
      | save job => exact ⟨job, rfl⟩
      | _ => cases hsave
    have hrun : ((save job : Operation R τ).perform py store).run.run disk =
        (store.save py job).run.run disk := rfl
    rcases FileDurableJobStore.save_cases py store disk job with
      ⟨error, herror⟩ | ⟨place, disk', hsaved, hwrites⟩
    · exact .inl ⟨error, by rw [result, hrun, herror], by rw [after, hrun, herror]⟩
    · refine .inr ⟨job, place, by rw [result, hrun, hsaved], ?_, .inl rfl⟩
      rw [after, hrun, hsaved]
      exact hwrites
  | false =>
    obtain ⟨target, error, now, hperform, hactive⟩ := perform_update py store hsave
    rcases FileDurableJobStore.update_cases py store disk op.jobId target error now with
      ⟨e, herror⟩ | ⟨old, job, place, disk', hold, hnext, hupdated, hwrites⟩
    · exact .inl ⟨e, by rw [result, hperform, herror], by rw [after, hperform, herror]⟩
    · obtain ⟨-, hid, hattempts⟩ := DurableWorkflowJob.transitionTo_ok hnext
      have hcounted : job.attemptCount = old.attemptCount + if op.isActivation then 1 else 0 := by
        rw [hattempts]
        by_cases htarget : target = .active
        · rw [if_pos htarget, if_pos (hactive.mp htarget)]
        · rw [if_neg htarget, if_neg (mt hactive.mpr htarget), add_zero]
      refine .inr ⟨job, place, by rw [result, hperform, hupdated], ?_, .inr ⟨rfl, old, ?_⟩⟩
      · rw [after, hperform, hupdated]
        exact hwrites
      · exact ⟨hold, hid, hcounted⟩

end Operation

end Files

section Apart

variable {R τ : Type} (py : Python R τ) (store : FileDurableJobStore)

/-- Every job stands in the file of its own id. -/
def SelfNamed (disk : Disk (Contents R)) : Prop :=
  ∀ place contents job, disk.files.lookup place = some contents →
    parse py contents = .ok job → store.fileOf disk job.jobId = some place

/-- The two ids name no common file. -/
def NoCommonFile (disk : Disk (Contents R)) (j k : String) : Prop :=
  ∀ place, store.fileOf disk j = some place → store.fileOf disk k ≠ some place

/-- The jobs are equal, their payloads up to the order of keys. -/
def DurableWorkflowJob.Same (job job' : DurableWorkflowJob R τ) : Prop :=
  { job.toJobFields with workflowPayload := job'.workflowPayload } = job'.toJobFields ∧
    (Document.object job.workflowPayload).sortKeys = (Document.object job'.workflowPayload).sortKeys

theorem DurableWorkflowJob.same_stored (job : DurableWorkflowJob R τ) : job.stored.Same job :=
  ⟨rfl, Document.sortKeys_sortKeys (.object job.workflowPayload)⟩

variable {py store} {disk disk' : Disk (Contents R)} {place : Path} {j k : String}
  {job : DurableWorkflowJob R τ} {op : Operation R τ}

theorem parse_written (hiso : ∀ t, py.fromisoformat (py.isoformat t) = .ok t)
    (job : DurableWorkflowJob R τ) : parse py (written py job) = .ok job.stored :=
  DurableWorkflowJob.fromDict_toDict py hiso job

theorem Writes.lookup (hwrites : Writes py store disk disk' job place) (place' : Path) :
    disk'.files.lookup place' =
      if place' = place then some (written py job) else disk.files.lookup place' := by
  rw [hwrites.files, lookup_set]

theorem Writes.fileOf (hwrites : Writes py store disk disk' job place) (jobId : String) :
    store.fileOf disk' jobId = store.fileOf disk jobId :=
  FileDurableJobStore.fileOf_congr hwrites.admits hwrites.dirs jobId

/-- What has been written is found under every id that names the file. -/
theorem Writes.jobAt (hiso : ∀ t, py.fromisoformat (py.isoformat t) = .ok t)
    (hwrites : Writes py store disk disk' job place) (hk : store.fileOf disk k = some place) :
    store.jobAt py disk' k = .ok job.stored := by
  have hcontents : disk'.files.lookup place = some (written py job) := by
    rw [hwrites.lookup, if_pos rfl]
  rw [FileDurableJobStore.jobAt_of_file ((hwrites.fileOf k).trans hk) hcontents,
    parse_written hiso]

theorem Writes.jobAt_of_ne (hwrites : Writes py store disk disk' job place)
    (hk : store.fileOf disk k ≠ some place) :
    store.jobAt py disk' k = store.jobAt py disk k := by
  apply FileDurableJobStore.jobAt_congr hwrites.admits hwrites.dirs
  intro place' hplace'
  have hne : place' ≠ place := fun heq => hk (heq ▸ hplace')
  rw [hwrites.lookup, if_neg hne]

theorem Writes.selfNamed (hiso : ∀ t, py.fromisoformat (py.isoformat t) = .ok t)
    (hwrites : Writes py store disk disk' job place) (hnamed : SelfNamed py store disk) :
    SelfNamed py store disk' := by
  intro place' contents job' hlookup hparse
  rw [hwrites.fileOf]
  rw [hwrites.lookup] at hlookup
  split at hlookup
  · rename_i hplace
    cases hlookup
    rw [parse_written hiso] at hparse
    cases hparse
    exact hwrites.file.trans (congrArg some hplace.symm)
  · exact hnamed place' contents job' hlookup hparse

/-- The file of a job that an id leads to is the file of the id. -/
theorem SelfNamed.fileOf (hnamed : SelfNamed py store disk)
    (hjob : store.jobAt py disk j = .ok job) :
    store.fileOf disk job.jobId = store.fileOf disk j := by
  obtain ⟨place, contents, hplace, hcontents, hparse⟩ := FileDurableJobStore.jobAt_ok hjob
  rw [hplace]
  exact hnamed place contents job hcontents hparse

/-- An operation writes the file of its id. -/
theorem SelfNamed.target (hnamed : SelfNamed py store disk) {written : DurableWorkflowJob R τ}
    (hop : op = .save written ∨ op.isSave = false ∧ ∃ old, op.Saves py store disk old written) :
    store.fileOf disk written.jobId = store.fileOf disk op.jobId := by
  rcases hop with rfl | ⟨-, old, hsaves⟩
  · rfl
  · rw [hsaves.same]
    exact hnamed.fileOf hsaves.found

theorem after_selfNamed (hiso : ∀ t, py.fromisoformat (py.isoformat t) = .ok t)
    (hnamed : SelfNamed py store disk) (op : Operation R τ) :
    SelfNamed py store (op.after py store disk) := by
  rcases op.perform_cases py store disk with ⟨error, -, hafter⟩ | ⟨job, place, -, hwrites, -⟩
  · rwa [hafter]
  · exact hwrites.selfNamed hiso hnamed

/-- An operation leaves the jobs of other files as they are. -/
theorem jobAt_after (hnamed : SelfNamed py store disk)
    (hother : NoCommonFile store disk op.jobId k) :
    store.jobAt py (op.after py store disk) k = store.jobAt py disk k := by
  rcases op.perform_cases py store disk with ⟨error, -, hafter⟩ | ⟨job, place, -, hwrites, hop⟩
  · rw [hafter]
  · apply hwrites.jobAt_of_ne
    apply hother
    rw [← hnamed.target hop, hwrites.file]

theorem after_of_error {error : JobError} (h : op.result py store disk = .error error) :
    op.after py store disk = disk := by
  rcases op.perform_cases py store disk with ⟨-, -, hafter⟩ | ⟨job, place, hresult, -, -⟩
  · exact hafter
  · rw [hresult] at h
    cases h

/-- A saved job is loaded as it was. -/
theorem load_save (hiso : ∀ t, py.fromisoformat (py.isoformat t) = .ok t)
    (h : (Operation.save job).result py store disk = .ok job) :
    store.jobAt py ((Operation.save job).after py store disk) job.jobId = .ok job.stored := by
  rcases (Operation.save job).perform_cases py store disk with
    ⟨error, hresult, -⟩ | ⟨job', place, hresult, hwrites, -⟩
  · rw [hresult] at h
    cases h
  · rw [hresult] at h
    cases h
    exact hwrites.jobAt hiso hwrites.file

/-- An operation leaves every id its file. -/
theorem fileOf_after (op : Operation R τ) (jobId : String) :
    store.fileOf (op.after py store disk) jobId = store.fileOf disk jobId := by
  rcases op.perform_cases py store disk with ⟨error, -, hafter⟩ | ⟨job, place, -, hwrites, -⟩
  · rw [hafter]
  · exact hwrites.fileOf jobId

end Apart

section Names

variable {R : Type} {store : FileDurableJobStore} {disk : Disk (Contents R)} {j k : String}

/-- Without a separator the id and its ending are one name in the root. -/
theorem fileOf_plain {place : Path} (hslash : '/' ∉ j.toList)
    (h : store.fileOf disk j = some place) :
    place.getLast? = some (j.toList ++ ".json".toList) := by
  have hname : '/' ∉ j.toList ++ ".json".toList := by
    rw [List.mem_append, not_or]
    exact ⟨hslash, by decide⟩
  have hlong : 2 ≤ (j.toList ++ ".json".toList).length := by
    rw [List.length_append]
    exact Nat.le_add_left_of_le (by decide)
  rw [FileDurableJobStore.fileOf] at h
  split at h
  · cases h
  · rw [Disk.getLast?_locate h, join_of_name hname hlong, List.getLast?_concat]

/-- Ids without a separator keep their jobs in files of their own. -/
theorem noCommonFile_of_plain (hne : j ≠ k) (hj : '/' ∉ j.toList) (hk : '/' ∉ k.toList) :
    NoCommonFile store disk j k := by
  intro place hplace hsame
  have hnames := (fileOf_plain hj hplace).symm.trans (fileOf_plain hk hsame)
  have hlists : j.toList = k.toList := List.append_cancel_right (Option.some.inj hnames)
  exact hne (String.toList_inj.mp hlists)

end Names

section Attempts

variable {R τ : Type} (py : Python R τ) (store : FileDurableJobStore)

/-- The operation activates the job in the file. -/
def Operation.activates (disk : Disk (Contents R)) (place : Path) (op : Operation R τ) : Bool :=
  op.isActivation && store.fileOf disk op.jobId = some place && (op.result py store disk).isOk

/-- How often a run activates the job in the file. -/
def activations (place : Path) : Disk (Contents R) → List (Operation R τ) → Nat
  | _, [] => 0
  | disk, op :: ops => (op.activates py store disk place).toNat +
      activations place (op.after py store disk) ops

variable {py store} {disk : Disk (Contents R)} {place : Path} {k : String}
  {job : DurableWorkflowJob R τ} {op : Operation R τ}

theorem attempts_after (hiso : ∀ t, py.fromisoformat (py.isoformat t) = .ok t)
    (hnamed : SelfNamed py store disk) (hk : store.fileOf disk k = some place)
    (hsave : op.isSave = true → store.fileOf disk op.jobId ≠ some place)
    (hjob : store.jobAt py disk k = .ok job) :
    ∃ job', store.jobAt py (op.after py store disk) k = .ok job' ∧
      job'.attemptCount = job.attemptCount + (op.activates py store disk place).toNat := by
  by_cases hfile : store.fileOf disk op.jobId = some place
  · rcases op.perform_cases py store disk with
      ⟨error, hresult, hafter⟩ | ⟨written, place', hresult, hwrites, hop⟩
    · refine ⟨job, by rwa [hafter], ?_⟩
      simp [Operation.activates, hresult, Except.isOk, Except.toBool]
    · have hplace : place' = place := by
        have htarget := hnamed.target hop
        rw [hwrites.file, hfile] at htarget
        exact Option.some.inj htarget
      subst hplace
      rcases hop with rfl | ⟨-, old, hsaves⟩
      · exact absurd hfile (hsave rfl)
      · have hsame : store.jobAt py disk op.jobId = store.jobAt py disk k := by
          obtain ⟨place, contents, hplace, hcontents, -⟩ :=
            FileDurableJobStore.jobAt_ok hsaves.found
          cases hplace.symm.trans hfile
          rw [FileDurableJobStore.jobAt_of_file hfile hcontents,
            FileDurableJobStore.jobAt_of_file hk hcontents]
        have hold : old = job := by
          have hfound := hsaves.found
          rw [hsame, hjob] at hfound
          exact (Except.ok.inj hfound).symm
        refine ⟨written.stored, hwrites.jobAt hiso hk, ?_⟩
        have hcounted := hsaves.counted
        rw [hold] at hcounted
        rw [Operation.activates, hfile, hresult]
        refine hcounted.trans ?_
        cases op.isActivation <;> simp [Except.isOk, Except.toBool]
  · have hother : NoCommonFile store disk op.jobId k := by
      intro place' hplace' hk'
      cases hk.symm.trans hk'
      exact hfile hplace'
    refine ⟨job, (jobAt_after hnamed hother).trans hjob, ?_⟩
    simp [Operation.activates, hfile]

/-- Between saves to its file a job counts its activations. -/
theorem attempts_run (hiso : ∀ t, py.fromisoformat (py.isoformat t) = .ok t)
    (ops : List (Operation R τ)) (hnamed : SelfNamed py store disk)
    (hk : store.fileOf disk k = some place)
    (hsaves : ∀ op ∈ ops, op.isSave = true → store.fileOf disk op.jobId ≠ some place)
    (hjob : store.jobAt py disk k = .ok job) :
    ∃ job', store.jobAt py (Operation.run py store disk ops) k = .ok job' ∧
      job'.attemptCount = job.attemptCount + activations py store place disk ops := by
  induction ops generalizing disk job with
  | nil => exact ⟨job, hjob, (add_zero _).symm⟩
  | cons op ops ih =>
    obtain ⟨next, hnext, hcount⟩ :=
      attempts_after hiso hnamed hk (hsaves op List.mem_cons_self) hjob
    obtain ⟨job', hjob', hrest⟩ := ih (after_selfNamed hiso hnamed op)
      ((fileOf_after op k).trans hk) (fun op' hop' hsave' => by
        rw [fileOf_after]
        exact hsaves op' (List.mem_cons_of_mem _ hop') hsave') hnext
    refine ⟨job', hjob', ?_⟩
    rw [hrest, hcount, activations, Int.natCast_add, add_assoc]

end Attempts

section Store

variable {R τ : Type} (py : Python R τ) (store : FileDurableJobStore)

/-- Operations on one id leave what any other id leads to. -/
def IsolatesIds : Prop :=
  ∀ disk (op : Operation R τ) k, op.jobId ≠ k → strip op.jobId ≠ "" → strip k ≠ "" →
    store.jobAt py (op.after py store disk) k = store.jobAt py disk k

/-- Operations on one id leave what an id with another file leads to. -/
def IsolatesFiles : Prop :=
  ∀ disk (op : Operation R τ) k, NoCommonFile store disk op.jobId k →
    store.jobAt py (op.after py store disk) k = store.jobAt py disk k

def LoadsSaved : Prop :=
  ∀ disk (job : DurableWorkflowJob R τ), ∃ loaded,
    store.jobAt py ((Operation.save job).after py store disk) job.jobId = .ok loaded ∧
      loaded.Same job

/-- From the disk on, each job has been activated as often as it says. -/
def CountsActivations (disk : Disk (Contents R)) : Prop :=
  ∀ (ops : List (Operation R τ)) k place job, store.fileOf disk k = some place →
    store.jobAt py (Operation.run py store disk ops) k = .ok job →
    job.attemptCount = activations py store place disk ops

theorem store_keepsJobs (hiso : ∀ t, py.fromisoformat (py.isoformat t) = .ok t) :
    (∀ disk (op : Operation R τ), SelfNamed py store disk →
      SelfNamed py store (op.after py store disk) ∧
      ∀ k, NoCommonFile store disk op.jobId k →
        store.jobAt py (op.after py store disk) k = store.jobAt py disk k) ∧
    (∀ (disk : Disk (Contents R)) j k, j ≠ k → '/' ∉ j.toList → '/' ∉ k.toList →
      NoCommonFile store disk j k) ∧
    (∀ disk (job : DurableWorkflowJob R τ),
      ((Operation.save job).result py store disk = .ok job ↔
        ∃ place, store.fileOf disk job.jobId = some place ∧ place ∉ disk.dirs) ∧
      ((Operation.save job).result py store disk = .ok job →
        ∃ loaded, store.jobAt py ((Operation.save job).after py store disk) job.jobId = .ok loaded ∧
          loaded.Same job)) ∧
    (∀ disk (op : Operation R τ) error, op.result py store disk = .error error →
      op.after py store disk = disk) ∧
    ∀ disk (ops : List (Operation R τ)) place k job, SelfNamed py store disk →
      store.fileOf disk k = some place →
      (∀ op ∈ ops, op.isSave = true → store.fileOf disk op.jobId ≠ some place) →
      store.jobAt py disk k = .ok job →
      ∃ job', store.jobAt py (Operation.run py store disk ops) k = .ok job' ∧
        job'.attemptCount = job.attemptCount + activations py store place disk ops := by
  refine ⟨fun disk op hnamed => ⟨after_selfNamed hiso hnamed op, fun k => jobAt_after hnamed⟩,
    fun disk j k => noCommonFile_of_plain, fun disk job => ⟨?_, fun h => ?_⟩,
    fun disk op error => after_of_error, fun disk ops place k job hnamed hk hsaves hjob =>
      attempts_run hiso ops hnamed hk hsaves hjob⟩
  · rw [← FileDurableJobStore.exists_save_iff]
    exact ⟨fun h => ⟨_, Prod.ext h rfl⟩, fun ⟨_, h⟩ => congrArg Prod.fst h⟩
  · exact ⟨job.stored, load_save hiso h, job.same_stored⟩

end Store

section Examples

/-- Ten seconds of one minute. -/
def secondsPython : Python Empty (Fin 10) where
  repr
    | .str s => "'" ++ s ++ "'"
    | _ => ""
  int _ := .error .typeError
  dict _ := .error .typeError
  nonzero x := nomatch x
  isoformat t := s!"2026-01-02T03:04:0{t.val}+00:00"
  fromisoformat s := demand
    ((List.finRange 10).find? fun t => s!"2026-01-02T03:04:0{t.val}+00:00" = s)
    (.valueError s!"Invalid isoformat string: '{s}'")

theorem secondsPython_isoformat (t : Fin 10) :
    secondsPython.fromisoformat (secondsPython.isoformat t) = .ok t := by
  revert t
  decide +kernel

def jobsStore : FileDurableJobStore := ⟨["jobs".toList]⟩

def jobsDisk : Disk (Contents Empty) where
  admits name := name.length ≤ 255
  dirs := [["jobs".toList]]
  files := []
  apart _ h := absurd h List.not_mem_nil

def jobNamed (jobId : String) (h : strip jobId ≠ "") : DurableWorkflowJob Empty (Fin 10) where
  jobId := jobId
  workflowId := "wf-1"
  workflowName := "review_publish"
  queueName := "governance"
  checkpoint := {
    workflowId := "wf-1"
    nonblank := by decide +kernel
    ended := by decide
    completed := rfl }
  workflowPayload := [("workflow_id", .str "wf-1")]
  createdAt := 0
  updatedAt := 0
  valid := by
    have hnames : strip "wf-1" ≠ "" ∧ strip "review_publish" ≠ "" ∧ strip "governance" ≠ "" := by
      decide +kernel
    simp only [JobFields.postInit, require_of h, require_of hnames.1, require_of hnames.2.1,
      require_of hnames.2.2]
    rfl

def jobJ : DurableWorkflowJob Empty (Fin 10) := jobNamed "j" (by decide +kernel)
def jobDotJ : DurableWorkflowJob Empty (Fin 10) := jobNamed "./j" (by decide +kernel)
def jobK : DurableWorkflowJob Empty (Fin 10) := jobNamed "k" (by decide +kernel)
def jobNested : DurableWorkflowJob Empty (Fin 10) := jobNamed "a/b" (by decide +kernel)

/-- The id of the job that an id leads to. -/
def idAt (disk : Disk (Contents Empty)) (k : String) : Option String :=
  (jobsStore.jobAt secondsPython disk k).toOption.map fun job => job.jobId

def attemptsAt (disk : Disk (Contents Empty)) (k : String) : Option Int :=
  (jobsStore.jobAt secondsPython disk k).toOption.map fun job => job.attemptCount

theorem jobsDisk_selfNamed : SelfNamed secondsPython jobsStore jobsDisk := by
  intro place contents job hlookup
  cases hlookup

def diskJ : Disk (Contents Empty) := (Operation.save jobJ).after secondsPython jobsStore jobsDisk

def workOnJ : List (Operation Empty (Fin 10)) :=
  [.activate "j" 1, .activate "j" 2, .save jobK, .fail "j" " timeout " 3, .resume "j" 4,
    .activate "j" 5]

theorem jobsStore_keepsJobs :
    jobsStore.jobAt secondsPython ((Operation.save jobK).after secondsPython jobsStore diskJ) "j" =
      jobsStore.jobAt secondsPython diskJ "j" ∧
    ∃ job, jobsStore.jobAt secondsPython (Operation.run secondsPython jobsStore diskJ workOnJ) "j" =
      .ok job ∧ job.attemptCount = 2 := by
  have hlaws := store_keepsJobs secondsPython jobsStore secondsPython_isoformat
  have hnamed : SelfNamed secondsPython jobsStore diskJ :=
    (hlaws.1 jobsDisk (.save jobJ) jobsDisk_selfNamed).1
  have hplain : NoCommonFile jobsStore diskJ "k" "j" :=
    hlaws.2.1 diskJ "k" "j" (by decide) (by decide) (by decide)
  refine ⟨(hlaws.1 diskJ (.save jobK) hnamed).2 "j" hplain, ?_⟩
  have hfile : jobsStore.fileOf jobsDisk "j" = some ["jobs".toList, "j.json".toList] := by
    decide +kernel
  have hsave : (Operation.save jobJ).result secondsPython jobsStore jobsDisk = .ok jobJ :=
    (hlaws.2.2.1 jobsDisk jobJ).1.mpr ⟨_, hfile, by decide⟩
  obtain ⟨loaded, hloaded, hsame⟩ := (hlaws.2.2.1 jobsDisk jobJ).2 hsave
  have hkept : jobsStore.fileOf diskJ "j" = some ["jobs".toList, "j.json".toList] := by
    decide +kernel
  obtain ⟨job, hjob, hcount⟩ := hlaws.2.2.2.2 diskJ workOnJ _ "j" loaded hnamed hkept
    (by decide +kernel) hloaded
  have hloadedCount : loaded.attemptCount = 0 := congrArg JobFields.attemptCount hsame.1
  have hactivations : activations secondsPython jobsStore ["jobs".toList, "j.json".toList] diskJ
      workOnJ = 2 := by
    decide +kernel
  exact ⟨job, hjob, by rw [hcount, hloadedCount, hactivations]; rfl⟩

/-- Another spelling of the path overwrites the job. -/
theorem not_isolatesIds : ¬ IsolatesIds secondsPython jobsStore := by
  intro h
  have hids : idAt ((Operation.save jobDotJ).after secondsPython jobsStore diskJ) "j" =
      some "./j" ∧ idAt diskJ "j" = some "j" := by
    decide +kernel
  have hsame := h diskJ (.save jobDotJ) "j" (by decide) (by decide +kernel) (by decide +kernel)
  rw [idAt, hsame, ← idAt, hids.2] at hids
  exact absurd hids.1 (by decide)

/-- A file that holds the job of another id. -/
def misnamedDisk : Disk (Contents Empty) where
  admits := jobsDisk.admits
  dirs := jobsDisk.dirs
  files := [(["jobs".toList, "j.json".toList], written secondsPython jobK)]
  apart := by decide +kernel

/-- Activating one id saves the job under another. -/
theorem not_isolatesFiles : ¬ IsolatesFiles secondsPython jobsStore := by
  intro h
  have hids : idAt ((Operation.activate "j" 1).after secondsPython jobsStore misnamedDisk) "k" =
      some "k" ∧ idAt misnamedDisk "k" = none := by
    decide +kernel
  have hplain : NoCommonFile jobsStore misnamedDisk "j" "k" :=
    noCommonFile_of_plain (by decide) (by decide) (by decide)
  have hsame := h misnamedDisk (.activate "j" 1) "k" hplain
  rw [idAt, hsame, ← idAt, hids.2] at hids
  exact absurd hids.1 (by decide)

/-- The directory of the id is never made. -/
theorem not_loadsSaved : ¬ LoadsSaved secondsPython jobsStore := by
  intro h
  obtain ⟨loaded, hloaded, -⟩ := h jobsDisk jobNested
  have hnone : idAt ((Operation.save jobNested).after secondsPython jobsStore jobsDisk)
      jobNested.jobId = none := by
    decide +kernel
  rw [idAt, hloaded] at hnone
  cases hnone

/-- Saving an older snapshot takes the count back. -/
theorem not_countsActivations : ¬ CountsActivations secondsPython jobsStore jobsDisk := by
  intro h
  have hattempts : attemptsAt (Operation.run secondsPython jobsStore jobsDisk
      [.save jobJ, .activate "j" 1, .save jobJ]) "j" = some 0 := by
    decide +kernel
  have hactivations : activations secondsPython jobsStore ["jobs".toList, "j.json".toList] jobsDisk
      [.save jobJ, .activate "j" 1, .save jobJ] = 1 := by
    decide +kernel
  have hfile : jobsStore.fileOf jobsDisk "j" = some ["jobs".toList, "j.json".toList] := by
    decide +kernel
  cases hjob : jobsStore.jobAt secondsPython (Operation.run secondsPython jobsStore jobsDisk
      [.save jobJ, .activate "j" 1, .save jobJ]) "j" with
  | error error =>
    rw [attemptsAt, hjob] at hattempts
    cases hattempts
  | ok job =>
    have hcount := h _ "j" _ job hfile hjob
    rw [attemptsAt, hjob] at hattempts
    have hzero : job.attemptCount = 0 := Option.some.inj hattempts
    rw [hactivations, hzero] at hcount
    exact absurd hcount (by decide)

theorem jobsStore_mixesJobs :
    ¬ IsolatesIds secondsPython jobsStore ∧ ¬ IsolatesFiles secondsPython jobsStore ∧
      ¬ LoadsSaved secondsPython jobsStore ∧ ¬ CountsActivations secondsPython jobsStore jobsDisk :=
  ⟨not_isolatesIds, not_isolatesFiles, not_loadsSaved, not_countsActivations⟩

end Examples

end Cygnus.DurableJobs
