import Cygnus.Skills.VersionLaws

namespace Cygnus.Skills

open Access Result Storage Machine

variable {platform : Platform} {world world' : World}

section Condition

variable (platform : Platform)

/-- A file that makes a new version of a skill there is finds the next number free. -/
def FileFits (force : Bool) (file : Upload) (world : World) : Prop :=
  force → ∀ archive ∈ file.data, HasReadme platform archive (stem file.filename) →
    ∀ skill ∈ world.skills.find? (·.name = stem file.filename),
      skill.versionHash ≠ some (calculateZipContentHash platform archive) →
        NextFree world.versions skill

instance (force : Bool) (file : Upload) (world : World) :
    Decidable (FileFits platform force file world) := by
  unfold FileFits
  infer_instance

/-- An action that makes a new version of a skill there is finds the next number free. -/
def TakesFreeNumber (world : World) : Action → Prop
  | .upload files force userId =>
    Meets (uploadFile platform force userId)
      (fun uploading file => FileFits platform force file uploading.world) ⟨world, []⟩ files
  | .reupload slug file _ =>
    ∀ skill ∈ locate world.skills slug, ∀ archive ∈ file.data, stem file.filename = skill.name →
      HasReadme platform archive (stem file.filename) →
        skill.versionHash ≠ some (calculateZipContentHash platform archive) →
          NextFree world.versions skill
  | .approve contributionId _ _ _ =>
    ∀ contribution ∈ world.contributions.get contributionId, contribution.status = .pending →
      ∀ path ∈ contribution.storagePath,
        ¬ Repeats world contribution (calculatePrefixHash platform world.objects path) →
          ∀ skill ∈ contributedSkill world contribution, NextFree world.versions skill
  | .contribute .. | .setLatest .. | .ingest .. => True

instance (world : World) (action : Action) : Decidable (TakesFreeNumber platform world action) := by
  cases action <;> unfold TakesFreeNumber <;> infer_instance

end Condition

section Preserved

theorem insertSkill_ok {skill : Skill} {skills skills' : Table Skill}
    (h : insertSkill skill skills = .ok skills') :
    skills.get skill.id = none ∧ skills' = skills ++ [skill] := by
  simp only [insertSkill, bind_ok, require_ok] at h
  obtain ⟨-, -, hinsert⟩ := h
  exact Table.insert_ok hinsert

theorem locate_mem {skills : Table Skill} {slug : String} {skill : Skill}
    (h : locate skills slug = some skill) : skill ∈ skills := by
  unfold locate at h
  split at h
  · exact Table.get_mem h
  · exact List.mem_of_find?_eq_some h

theorem addVersion_ok {skills : Table Skill} {skillId : Uuid} {number : Nat} {hash : String}
    {file : Upload} {archive : Archive} {userId : Uuid}
    (h : addVersion world skills skillId number hash file archive userId = .ok world') :
    world'.objects = world.objects ∧
      (∀ skill, Sound { world with skills } → skills.get skillId = some skill →
        (∀ version ∈ world.versions, version.skillId = skillId → version.versionNumber ≠ number) →
        Sound world') := by
  simp only [addVersion, bind_ok, pure_ok] at h
  obtain ⟨versions, hinsert, rfl⟩ := h
  obtain ⟨hnew, rfl⟩ := Table.insert_ok hinsert
  refine ⟨rfl, fun skill hs hskill hfree => ?_⟩
  have hadded := hs.addVersion hnew hskill hfree (fun _ hpath => by cases hpath)
  exact hadded.addJob (Table.get_append_self hnew) rfl

/-- A skill that gets a version is written back under its own key. -/
theorem Sound.processing (h : Sound world) {skill : Skill} (hskill : skill ∈ world.skills)
    (hash : String) :
    Sound { world with skills := world.skills.put (skill.processing hash) } ∧
      (world.skills.put (skill.processing hash)).get skill.id = some (skill.processing hash) := by
  refine ⟨h.setSkills (Table.keys_put _ _), ?_⟩
  have hget : world.skills.get skill.id = some skill := h.skills.get_of_mem hskill
  have hput := Table.get_put (skill.processing hash) world.skills skill.id
  rwa [hget, Option.map_some, if_pos (show Row.key (skill.processing hash) = skill.id from rfl)]
    at hput

theorem applyUpsert_sound {force : Bool} {userId : Uuid} {file : Upload} {archive : Archive}
    {name hash : String} (h : Sound world)
    (hfits : force → ∀ skill ∈ world.skills.find? (·.name = name),
      skill.versionHash ≠ some hash → NextFree world.versions skill)
    (hok : applyUpsert world hash file archive userId
      (upsertSkill platform world.skills name hash force file.newSkillId) = .ok world') :
    Sound world' := by
  unfold upsertSkill at hok
  split at hok
  · rename_i skill hfound
    split at hok
    · rw [← Except.ok.inj hok]
      exact h
    split at hok
    · rw [← Except.ok.inj hok]
      exact h
    · rename_i hforce hhash
      have hfree := hfits (by simpa using hforce) skill hfound hhash
      obtain ⟨hs, hget⟩ := h.processing (List.mem_of_find?_eq_some hfound) hash
      exact (addVersion_ok hok).2 _ hs hget hfree
  · simp only [applyUpsert, bind_ok] at hok
    obtain ⟨skills, hinsert, hok⟩ := hok
    obtain ⟨hnew, rfl⟩ := insertSkill_ok hinsert
    refine (addVersion_ok hok).2 _ (h.addSkill hnew) (Table.get_append_self hnew) ?_
    intro version hversion howner
    obtain ⟨found, hget⟩ := h.owned version hversion
    rw [howner, hnew] at hget
    cases hget

theorem applyUpsert_objects {userId : Uuid} {file : Upload} {archive : Archive} {hash : String}
    {upsert : Upsert} (h : applyUpsert world hash file archive userId upsert = .ok world') :
    world'.objects = world.objects := by
  cases upsert with
  | duplicate | metadataOnly =>
    rw [← Except.ok.inj h]
  | updated skill number => exact (addVersion_ok h).1
  | created skill =>
    simp only [applyUpsert, bind_ok] at h
    obtain ⟨skills, -, hadd⟩ := h
    exact (addVersion_ok hadd).1

theorem uploadFile_sound (force : Bool) (userId : Uuid) :
    Preserves (uploadFile platform force userId)
      (fun uploading file => FileFits platform force file uploading.world)
      (fun uploading => Sound uploading.world) := by
  intro uploading uploading' file h hfits hok
  unfold uploadFile at hok
  split at hok
  · rw [← Except.ok.inj hok]
    exact h
  rename_i archive hdata
  split at hok
  · rename_i hreadme
    simp only [bind_ok, pure_ok] at hok
    obtain ⟨after, happly, rfl⟩ := hok
    exact applyUpsert_sound h (fun hforce => hfits hforce archive hdata hreadme) happly
  · rw [← Except.ok.inj hok]
    exact h

theorem uploadFile_objects {force : Bool} {userId : Uuid} {file : Upload}
    {uploading uploading' : Uploading}
    (h : uploadFile platform force userId file uploading = .ok uploading') :
    uploading'.world.objects = uploading.world.objects := by
  unfold uploadFile at h
  split at h
  · rw [← Except.ok.inj h]
  split at h
  · simp only [bind_ok, pure_ok] at h
    obtain ⟨after, happly, rfl⟩ := h
    exact applyUpsert_objects happly
  · rw [← Except.ok.inj h]

theorem uploadSkills_ok {files : List Upload} {force : Bool} {userId : Uuid}
    (h : uploadSkills platform files force userId world = .ok world') :
    ∃ uploading, uploadFiles platform force userId files world = .ok uploading ∧
      world' = uploading.world := by
  simp only [uploadSkills, bind_ok, pure_ok] at h
  obtain ⟨uploading, hfiles, _, -, rfl⟩ := h
  exact ⟨uploading, hfiles, rfl⟩

/-- A re-upload changes nothing or adds the next version of a skill it has found. -/
theorem reuploadSkill_ok {slug : String} {file : Upload} {userId : Uuid}
    (h : reuploadSkill platform slug file userId world = .ok world') :
    world' = world ∨ ∃ skill archive, locate world.skills slug = some skill ∧
      file.data = some archive ∧ stem file.filename = skill.name ∧
      HasReadme platform archive (stem file.filename) ∧
      skill.versionHash ≠ some (calculateZipContentHash platform archive) ∧
      addVersion world
        (world.skills.put (skill.processing (calculateZipContentHash platform archive))) skill.id
        (skill.currentVersion + 1) (calculateZipContentHash platform archive) file archive userId =
          .ok world' := by
  simp only [reuploadSkill, reupload, bind_ok, demand_ok, require_ok] at h
  obtain ⟨skill, hskill, archive, hdata, _, hname, h⟩ := h
  split at h
  · exact .inl (Except.ok.inj h).symm
  · rename_i hhash
    simp only [bind_ok, require_ok] at h
    obtain ⟨_, hreadme, hadd⟩ := h
    exact .inr ⟨skill, archive, hskill, hdata, hname, hreadme, hhash, hadd⟩

theorem openSkill_ok {contribution : SkillContribution} {hash : String} {newSkillId : Uuid}
    {opened : Opened} (h : openSkill platform world contribution hash newSkillId = .ok opened) :
    (contributedSkill world contribution = some opened.skill ∧ opened.skills = world.skills) ∨
      (world.skills.get opened.skill.id = none ∧
        opened.skills = world.skills ++ [opened.skill]) := by
  unfold openSkill at h
  split at h
  · rename_i skill hskill
    rw [← Except.ok.inj h]
    exact .inl ⟨hskill, rfl⟩
  · simp only [bind_ok, pure_ok] at h
    obtain ⟨skills, hinsert, rfl⟩ := h
    exact .inr (insertSkill_ok hinsert)

/-- What is copied goes under the path of the version that is about to be made. -/
theorem prepare_ok {contribution : SkillContribution} {newSkillId : Uuid} {m : Materializing}
    (h : prepare platform world contribution newSkillId = .ok m) :
    (∃ path, contribution.storagePath = some path ∧
      ¬ Repeats world contribution (calculatePrefixHash platform world.objects path)) ∧
      ((contributedSkill world contribution = some m.skill ∧ m.skills = world.skills) ∨
        (world.skills.get m.skill.id = none ∧ m.skills = world.skills ++ [m.skill])) ∧
      ∀ o ∈ m.writes, UnderPrefix (versionPath m.skill.id m.number) o.1 := by
  simp only [prepare, bind_ok, demand_ok, require_ok, pure_ok] at h
  obtain ⟨path, hpath, _, hrepeats, opened, hopen, rfl⟩ := h
  exact ⟨⟨path, hpath, hrepeats⟩, openSkill_ok hopen,
    fun o ho => underPrefix_copies (folder_versionPath _ _) ho⟩

/-- Under the condition, no version of the skill has the number an approval takes. -/
theorem Materializing.free {contribution : SkillContribution} {newSkillId : Uuid}
    {m : Materializing} (h : Sound world)
    (hm : prepare platform world contribution newSkillId = .ok m)
    (hfits : ∀ path ∈ contribution.storagePath,
      ¬ Repeats world contribution (calculatePrefixHash platform world.objects path) →
        ∀ skill ∈ contributedSkill world contribution, NextFree world.versions skill) :
    ∀ version ∈ world.versions, version.skillId = m.skill.id →
      version.versionNumber ≠ m.number := by
  obtain ⟨⟨path, hpath, hrepeats⟩, ⟨hskill, -⟩ | ⟨hnew, -⟩, -⟩ := prepare_ok hm
  · exact hfits path hpath hrepeats m.skill hskill
  · intro version hversion howner
    obtain ⟨found, hget⟩ := h.owned version hversion
    rw [howner, hnew] at hget
    cases hget

theorem materialize_ok {contribution : SkillContribution} {newVersionId : Uuid} {m : Materializing}
    (h : materialize world contribution newVersionId m = .ok world') :
    world'.objects = world.objects.update m.writes ∧
      (∀ skill, Sound { world with skills := m.skills } → m.skills.get m.skill.id = some skill →
        (∀ version ∈ world.versions, version.skillId = m.skill.id →
          version.versionNumber ≠ m.number) → Sound world') := by
  simp only [materialize, bind_ok, pure_ok] at h
  obtain ⟨versions, hinsert, rfl⟩ := h
  obtain ⟨hnew, rfl⟩ := Table.insert_ok hinsert
  refine ⟨rfl, fun skill hs hskill hfree => ?_⟩
  have hadded := hs.addVersion hnew hskill hfree (fun path hpath => by
    rw [← Option.some.inj hpath]
    exact List.prefix_refl _)
  exact (hadded.setSkills (Table.keys_put m.current m.skills)).congr rfl rfl rfl

theorem materialize_sound {contribution : SkillContribution} {newSkillId newVersionId : Uuid}
    {m : Materializing} (h : Sound world)
    (hm : prepare platform world contribution newSkillId = .ok m)
    (hfree : ∀ version ∈ world.versions, version.skillId = m.skill.id →
      version.versionNumber ≠ m.number)
    (hok : materialize world contribution newVersionId m = .ok world') : Sound world' := by
  obtain ⟨-, ⟨hskill, hskills⟩ | ⟨hnew, hskills⟩, -⟩ := prepare_ok hm
  · obtain ⟨id, -, hget⟩ := Option.bind_eq_some_iff.mp hskill
    have hown : world.skills.get m.skill.id = some m.skill :=
      h.skills.get_of_mem (Table.get_mem hget)
    rw [← hskills] at hown
    exact (materialize_ok hok).2 m.skill (h.congr hskills rfl rfl) hown hfree
  · have hs : Sound { world with skills := m.skills } := by
      rw [hskills]
      exact h.addSkill hnew
    have hown : m.skills.get m.skill.id = some m.skill := by
      rw [hskills]
      exact Table.get_append_self hnew
    exact (materialize_ok hok).2 m.skill hs hown hfree

theorem setLatestVersion_ok {slug : String} {number : Int}
    (h : setLatestVersion slug number world = .ok world') :
    ∃ skills, skills.map Row.key = world.skills.map Row.key ∧ world' = { world with skills } := by
  simp only [setLatestVersion, bind_ok] at h
  obtain ⟨skill, -, h⟩ := h
  split at h
  · exact ⟨world.skills, rfl, (Except.ok.inj h).symm⟩
  · simp only [bind_ok, pure_ok] at h
    obtain ⟨version, -, rfl⟩ := h
    exact ⟨_, Table.keys_put _ _, rfl⟩

end Preserved

section Ingest

variable (platform)

/-- Everything a scan has collected goes under its path. -/
def Scan.Within (path : String) (scan : Scan) : Prop :=
  ∀ o ∈ scan.written ++ scan.deferred, UnderPrefix path o.1

theorem scanMember_within (skillName : String) (archive : Archive) (file : ZipMember)
    {path : String} {scan : Scan} (h : scan.Within path) :
    (∀ scan', scanMember platform path skillName archive file scan = .ok scan' →
      scan'.Within path) ∧
    (∀ scan', scanMember platform path skillName archive file scan = .error scan' →
      scan'.Within path) := by
  have hadd : UnderPrefix path (path ++ file.filename) := underPrefix_append path file.filename
  constructor
  · intro scan' hok
    unfold scanMember at hok
    split at hok
    · rw [← Except.ok.inj hok]
      exact h
    simp only [bind_ok, require_ok] at hok
    obtain ⟨_, -, _, -, _, -, hok⟩ := hok
    split at hok
    · rw [← pure_ok.mp hok]
      intro o ho
      simp only [List.mem_append, List.mem_singleton] at ho
      rcases ho with (hold | rfl) | hold
      · exact h o (List.mem_append_left _ hold)
      · exact hadd
      · exact h o (List.mem_append_right _ hold)
    · rw [← pure_ok.mp hok]
      intro o ho
      simp only [List.mem_append, List.mem_singleton] at ho
      rcases ho with hold | hold | rfl
      · exact h o (List.mem_append_left _ hold)
      · exact h o (List.mem_append_right _ hold)
      · exact hadd
  · intro scan' herror
    unfold scanMember at herror
    split at herror
    · cases herror
    simp only [bind_error, require_error] at herror
    rcases herror with ⟨-, rfl⟩ | ⟨_, -, ⟨-, rfl⟩ | ⟨_, -, ⟨-, rfl⟩ | ⟨_, -, herror⟩⟩⟩
    · exact h
    · exact h
    · exact h
    · split at herror <;> cases herror

theorem scanArchive_within (path skillName : String) (archive : Archive) :
    (∀ scan, scanArchive platform path skillName archive = .ok scan → scan.Within path) ∧
    (∀ scan, scanArchive platform path skillName archive = .error scan → scan.Within path) := by
  have hfold : ∀ files : List ZipMember, ∀ scan : Scan, scan.Within path →
      (∀ scan', files.foldlM (fun scan file =>
        scanMember platform path skillName archive file scan) scan = .ok scan' →
          scan'.Within path) ∧
      (∀ scan', files.foldlM (fun scan file =>
        scanMember platform path skillName archive file scan) scan = .error scan' →
          scan'.Within path) := by
    intro files
    induction files with
    | nil =>
      intro scan h
      refine ⟨fun scan' hok => ?_, fun scan' herror => by cases herror⟩
      rw [← Except.ok.inj hok]
      exact h
    | cons file files ih =>
      intro scan h
      obtain ⟨hok, herror⟩ := scanMember_within platform skillName archive file h
      simp only [List.foldlM_cons, bind_ok, bind_error]
      refine ⟨?_, ?_⟩
      · rintro scan' ⟨next, hnext, hrest⟩
        exact (ih next (hok next hnext)).1 scan' hrest
      · rintro scan' (hstop | ⟨next, hnext, hrest⟩)
        · exact herror scan' hstop
        · exact (ih next (hok next hnext)).2 scan' hrest
  exact hfold archive {} (fun o ho => by cases ho)

/-- A run writes under the path of its own version, and breaks no other row. -/
structure Ingested (world : World) (skillId : Uuid) (number : Nat) (world' : World) : Prop where
  writes : ∃ writes, world'.objects = world.objects.update writes ∧
    ∀ o ∈ writes, UnderPrefix (contentPath skillId number) o.1
  sound : Sound world'

theorem finishIngest_ingested (skill : Skill) (fault : Option IngestFault)
    {version : SkillVersion} {job : IngestJob} {writes : List (String × String)} (h : Sound world)
    (hjob : world.jobs.get job.versionId = some job)
    (hversion : world.versions.get version.id = some version)
    (howner : version.skillId = job.skillId)
    (hwrites : ∀ o ∈ writes, UnderPrefix (contentPath job.skillId version.versionNumber) o.1) :
    Ingested world job.skillId version.versionNumber
      (finishIngest platform world skill version job writes fault) := by
  have hsome : ∀ uploaded : List String, ∀ o ∈ writes.filter (·.1 ∈ uploaded),
      UnderPrefix (contentPath job.skillId version.versionNumber) o.1 :=
    fun uploaded o ho => hwrites o (List.mem_of_mem_filter ho)
  have hstored : ∀ some : List (String × String), Sound (world.store some) :=
    fun _ => h.congr rfl rfl rfl
  rcases fault with _ | uploaded | uploaded
  · refine ⟨⟨writes, rfl, hwrites⟩, ?_⟩
    have hdiscarded := (hstored writes).discard (Table.get_mem hjob)
    have hskills := fun row => hdiscarded.setSkills (Table.keys_put row world.skills)
    refine (hskills _).putVersion hversion rfl rfl ?_
    intro path hpath
    rw [← Option.some.inj hpath, howner]
    exact underPrefix_append _ _
  · exact ⟨⟨_, rfl, hsome uploaded⟩, (hstored _).discard (Table.get_mem hjob)⟩
  · exact ⟨⟨_, rfl, hsome uploaded⟩, hstored _⟩

theorem ingestSkill_ingested {skill : Skill} {version : SkillVersion} {job : IngestJob}
    {fault : Option IngestFault} (h : Sound world)
    (hjob : world.jobs.get job.versionId = some job)
    (hversion : world.versions.get version.id = some version)
    (howner : version.skillId = job.skillId) :
    Ingested world job.skillId version.versionNumber
      (ingestSkill platform world skill version job fault) := by
  have hstarted := h.setSkills (Table.keys_put
    { skill with status := SkillStatus.processing } world.skills)
  unfold ingestSkill
  split
  · exact ⟨⟨[], rfl, fun o ho => by cases ho⟩, hstarted⟩
  · rename_i archive hbuffer
    unfold ingestArchive
    obtain ⟨hok, herror⟩ := scanArchive_within platform
      (contentPath job.skillId version.versionNumber) (stem job.fileName) archive
    split
    · rename_i scan hscan
      obtain ⟨⟨writes, hobjects, hwithin⟩, hsound⟩ := finishIngest_ingested platform
        { skill with status := SkillStatus.processing } fault hstarted hjob hversion howner
        (hok scan hscan)
      exact ⟨⟨writes, hobjects, hwithin⟩, hsound⟩
    · rename_i scan hscan
      have hwritten : ∀ o ∈ scan.written,
          UnderPrefix (contentPath job.skillId version.versionNumber) o.1 :=
        fun o ho => herror scan hscan o (List.mem_append_left _ ho)
      refine ⟨⟨scan.written, rfl, hwritten⟩, Sound.discard ?_ (Table.get_mem hjob)⟩
      exact hstarted.congr rfl rfl rfl

variable {platform}

theorem ingestSkillTask_ok {versionId : Uuid} {fault : Option IngestFault}
    (h : ingestSkillTask platform versionId fault world = .ok world') :
    ∃ job skill version, world.jobs.get versionId = some job ∧
      world.versions.get job.versionId = some version ∧
      world' = ingestSkill platform world skill version job fault := by
  simp only [ingestSkillTask, bind_ok, demand_ok, pure_ok] at h
  obtain ⟨job, hjob, skill, -, version, hversion, rfl⟩ := h
  exact ⟨job, skill, version, hjob, hversion, rfl⟩

theorem ingestSkillTask_ingested {versionId : Uuid} {fault : Option IngestFault} (h : Sound world)
    (hok : ingestSkillTask platform versionId fault world = .ok world') :
    ∃ version, world.versions.get versionId = some version ∧
      Ingested world version.skillId version.versionNumber world' := by
  obtain ⟨job, skill, version, hjob, hversion, rfl⟩ := ingestSkillTask_ok hok
  have hid : job.versionId = versionId := Table.get_key hjob
  have hkey : version.id = job.versionId := Table.get_key hversion
  obtain ⟨owner, howner, hskill⟩ := h.jobs job (Table.get_mem hjob)
  rw [hversion, Option.some.injEq] at howner
  subst howner
  refine ⟨version, hid ▸ hversion, ?_⟩
  rw [hskill]
  exact ingestSkill_ingested platform h (hid.symm ▸ hjob) (hkey.symm ▸ hversion) hskill

end Ingest

section Runs

/-- The runs that belong to a version: those of its own job. -/
def Action.Ingests (versionId : Uuid) : Action → Prop
  | .ingest id _ => id = versionId
  | _ => False

instance (versionId : Uuid) (action : Action) : Decidable (action.Ingests versionId) := by
  cases action <;> unfold Action.Ingests <;> infer_instance

/-- The objects under the path of a version that has been made active stay as they are, whatever
is done for another version. -/
def Kept (platform : Platform) (world : World) (action : Action) : Prop :=
  ∀ version ∈ world.versions, ∀ path ∈ version.storagePath, ¬ action.Ingests version.id →
    (step (perform platform) world action).objects.listObjects path = world.objects.listObjects path

instance (world : World) (action : Action) : Decidable (Kept platform world action) :=
  inferInstanceAs (Decidable (∀ version ∈ world.versions, ∀ path ∈ version.storagePath,
    ¬ action.Ingests version.id → _ = _))

theorem perform_sound : Preserves (perform platform) (TakesFreeNumber platform) Sound := by
  intro world world' action h hfree hok
  cases action with
  | upload files force userId =>
    obtain ⟨uploading, hfiles, rfl⟩ := uploadSkills_ok hok
    rw [← run_of_foldlM hfiles]
    exact Preserves.run (uploadFile_sound force userId) h hfree
  | reupload slug file userId =>
    rcases reuploadSkill_ok hok with rfl | ⟨skill, archive, hlocate, hdata, hname, hreadme, hhash, hadd⟩
    · exact h
    · obtain ⟨hs, hget⟩ := h.processing (locate_mem hlocate) (calculateZipContentHash platform archive)
      exact (addVersion_ok hadd).2 _ hs hget
        (hfree skill hlocate archive hdata hname hreadme hhash)
  | contribute contribution files =>
    simp only [perform, contribute, bind_ok, require_ok, pure_ok] at hok
    obtain ⟨_, -, rfl⟩ := hok
    exact h.congr rfl rfl rfl
  | approve contributionId newSkillId newVersionId fault =>
    simp only [perform, approveSkillContribution, bind_ok, demand_ok, require_ok] at hok
    obtain ⟨contribution, hget, _, hpending, m, hm, hok⟩ := hok
    cases fault with
    | none =>
      exact materialize_sound h hm (m.free h hm (hfree contribution hget hpending)) hok
    | some copied =>
      rw [← pure_ok.mp hok]
      exact h.congr rfl rfl rfl
  | setLatest slug number =>
    obtain ⟨skills, hkeys, rfl⟩ := setLatestVersion_ok hok
    exact h.setSkills hkeys
  | ingest versionId fault =>
    obtain ⟨version, -, hingested⟩ := ingestSkillTask_ingested h hok
    exact hingested.sound

/-- Writes under the path of one version leave the objects of every other version alone. -/
theorem Sound.listObjects_update (h : Sound world) {version : SkillVersion} {path : String}
    (hversion : version ∈ world.versions) (hpath : version.storagePath = some path)
    {skillId : Uuid} {number : Nat} {writes : List (String × String)}
    (hwrites : ∀ o ∈ writes, UnderPrefix (versionPath skillId number) o.1)
    (hother : version.skillId = skillId → version.versionNumber ≠ number) :
    Storage.listObjects (world.objects.update writes) path = world.objects.listObjects path := by
  apply Storage.listObjects_update
  intro o ho hunder
  obtain ⟨hskill, hnumber⟩ :=
    versionPath_unique ((h.placed version hversion path hpath).trans hunder) (hwrites o ho)
  exact hother hskill hnumber

theorem perform_kept {action : Action} (h : Sound world)
    (hfree : TakesFreeNumber platform world action) (hok : perform platform action world = .ok world')
    {version : SkillVersion} {path : String} (hversion : version ∈ world.versions)
    (hpath : version.storagePath = some path) (hother : ¬ action.Ingests version.id) :
    world'.objects.listObjects path = world.objects.listObjects path := by
  cases action with
  | upload files force userId =>
    obtain ⟨uploading, hfiles, rfl⟩ := uploadSkills_ok hok
    have hobjects : uploading.world.objects = world.objects :=
      foldlM_induction (P := fun u : Uploading => u.world.objects = world.objects)
        (fun _ _ hsame hstep => (uploadFile_objects hstep).trans hsame) rfl hfiles
    rw [hobjects]
  | reupload slug file userId =>
    rcases reuploadSkill_ok hok with rfl | ⟨skill, archive, -, -, -, -, -, hadd⟩
    · rfl
    · rw [(addVersion_ok hadd).1]
  | contribute contribution files =>
    simp only [perform, contribute, bind_ok, require_ok, pure_ok] at hok
    obtain ⟨_, -, rfl⟩ := hok
    apply Storage.listObjects_update
    intro o ho hunder
    obtain ⟨file, -, rfl⟩ := List.mem_map.mp ho
    exact not_under_contribution ((h.placed version hversion path hpath).trans hunder)
      (underPrefix_append _ _)
  | approve contributionId newSkillId newVersionId fault =>
    simp only [perform, approveSkillContribution, bind_ok, demand_ok, require_ok] at hok
    obtain ⟨contribution, hget, _, hpending, m, hm, hok⟩ := hok
    have hnumber := m.free h hm (hfree contribution hget hpending) version hversion
    have hwrites := (prepare_ok hm).2.2
    cases fault with
    | none =>
      rw [(materialize_ok hok).1]
      exact h.listObjects_update hversion hpath hwrites hnumber
    | some copied =>
      rw [← pure_ok.mp hok]
      exact h.listObjects_update hversion hpath
        (fun o ho => hwrites o (List.mem_of_mem_filter ho)) hnumber
  | setLatest slug number =>
    obtain ⟨skills, -, rfl⟩ := setLatestVersion_ok hok
    rfl
  | ingest versionId fault =>
    obtain ⟨ingested, hget, ⟨writes, hobjects, hwrites⟩, -⟩ := ingestSkillTask_ingested h hok
    rw [hobjects]
    refine h.listObjects_update hversion hpath
      (fun o ho => (underPrefix_append _ _).trans (hwrites o ho)) ?_
    intro hskill hnumber
    have hsame := h.numbered.eq hversion (Table.get_mem hget) hskill hnumber
    rw [hsame] at hother
    exact hother (Table.get_key hget).symm

theorem step_kept {action : Action} (h : Sound world)
    (hfree : TakesFreeNumber platform world action) : Kept platform world action := by
  intro version hversion path hpath hother
  rcases step_cases (perform platform) world action with hsame | hok
  · rw [hsame]
  · exact perform_kept h hfree hok hversion hpath hother

theorem sound_initial (objects : Storage) : Sound { objects } where
  skills := List.nodup_nil
  versions := List.nodup_nil
  numbered := List.nodup_nil
  owned version h := by cases h
  placed version h := by cases h
  jobs job h := by cases h

/-- While every new version takes a free number, no number is taken twice and no version is
overwritten by another. -/
theorem versions_kept {objects : Storage} {actions : List Action}
    (hfree : Meets (perform platform) (TakesFreeNumber platform) { objects } actions) :
    Numbered (run (perform platform) { objects } actions).versions ∧
      Meets (perform platform) (Kept platform) { objects } actions :=
  ⟨(Preserves.run perform_sound (sound_initial objects) hfree).numbered,
    Preserves.meets perform_sound step_kept (sound_initial objects) hfree⟩

end Runs

section Scenario

def asciiPlatform : Platform where
  lower s := String.ofList (s.toList.map Char.toLower)
  slugify s := String.ofList (s.toList.map Char.toLower)
  sha256 := id
  md5 := id

def notesZip (content : String) (versionId : Uuid) : Upload :=
  { filename := "notes.zip", data := some [⟨"SKILL.md", content.length, content⟩],
    newSkillId := 1, newVersionId := versionId }

def notesContribution : SkillContribution :=
  { id := 5, skillId := some 1, contributorId := 7, status := .pending, title := "notes",
    storagePath := some (contributionPath 5) }

/-- Each version is unpacked before the next one is made, and the newest one is current again
before the contribution is approved. -/
def settledActions : List Action :=
  [.upload [notesZip "first" 11] false 7, .ingest 11 none, .reupload "notes" (notesZip "second" 12) 7,
   .ingest 12 none, .setLatest "notes" 1, .setLatest "notes" 2,
   .contribute notesContribution [("SKILL.md", "third")], .approve 5 2 13 none]

theorem settledActions_kept :
    Numbered (run (perform asciiPlatform) {} settledActions).versions ∧
      Meets (perform asciiPlatform) (Kept asciiPlatform) {} settledActions :=
  @versions_kept asciiPlatform [] settledActions (by decide +kernel)

def pendingActions : List Action :=
  [.upload [notesZip "first" 11] false 7, .reupload "notes" (notesZip "second" 12) 7,
   .reupload "notes" (notesZip "third" 13) 7, .ingest 12 none]

/-- Two re-uploads before the first is unpacked take the same number, and unpacking the second
overwrites the version that the first has made active. -/
theorem pending_versions_collide :
    ¬ Numbered (run (perform asciiPlatform) {} pendingActions).versions ∧
      ¬ Kept asciiPlatform (run (perform asciiPlatform) {} pendingActions) (.ingest 13 none) := by
  decide +kernel

end Scenario

end Cygnus.Skills
