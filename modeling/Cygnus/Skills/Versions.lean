import Cygnus.Access.Skill
import Cygnus.Data.Machine
import Cygnus.Data.ObjectStorage
import Cygnus.Data.Sequence
import Cygnus.Data.Table
import Mathlib.Data.String.Basic

/-! Versions of skills: uploads, approved contributions, the choice of the current version, and the
task that unpacks an uploaded archive into the object storage. -/

namespace Cygnus.Skills

open Access Result Storage

inductive SkillContributionStatus
  | draft
  | pending
  | needsRevision
  | withdrawn
  | approved
  | rejected
  deriving DecidableEq

structure Skill where
  id : Uuid
  name : String
  slug : String
  currentVersion : Nat
  versionHash : Option String
  storagePath : Option String := none
  status : SkillStatus
  deriving DecidableEq

instance : Row Skill := ⟨Skill.id⟩

structure SkillVersion where
  id : Uuid
  skillId : Uuid
  versionNumber : Nat
  versionHash : Option String
  storagePath : Option String := none
  changelog : Option String := none
  createdBy : Option Uuid
  deriving DecidableEq

instance : Row SkillVersion := ⟨SkillVersion.id⟩

structure SkillContribution where
  id : Uuid
  skillId : Option Uuid
  contributorId : Uuid
  status : SkillContributionStatus
  title : String
  storagePath : Option String
  deriving DecidableEq

instance : Row SkillContribution := ⟨SkillContribution.id⟩

structure ZipMember where
  filename : String
  fileSize : Nat
  content : String
  deriving DecidableEq

abbrev Archive := List ZipMember

/-- An enqueued `ingest_skill_task`, with the archive its worker will find on disk. -/
structure IngestJob where
  skillId : Uuid
  versionId : Uuid
  fileName : String
  buffer : Option Archive
  deriving DecidableEq

instance : Row IngestJob := ⟨IngestJob.versionId⟩

inductive SkillError
  | httpException (code : Nat) (detail : String)
  | conflicts (names : List String)
  | invalidTransition
  | integrityError
  deriving DecidableEq

structure Platform where
  lower : String → String
  slugify : String → String
  sha256 : String → String
  md5 : String → String

structure World where
  skills : Table Skill := []
  versions : Table SkillVersion := []
  contributions : Table SkillContribution := []
  jobs : Table IngestJob := []
  objects : Storage := []
  deriving DecidableEq

section Zip

def EndsWith (suffix s : String) : Prop := suffix.toList <:+ s.toList

instance (suffix s : String) : Decidable (EndsWith suffix s) :=
  inferInstanceAs (Decidable (_ <:+ _))

/-- `filename.rsplit(".", 1)[0]`. -/
def stem (filename : String) : String :=
  match filename.toList.reverse.dropWhile (· ≠ '.') with
  | [] => filename
  | _ :: rest => String.ofList rest.reverse

def ZipMember.isDir (file : ZipMember) : Bool := EndsWith "/" file.filename

/-- Opening a member by its name finds the last one with that name. -/
def Archive.open (archive : Archive) (filename : String) : Option String :=
  (archive.filter (·.filename = filename)).getLast?.map (·.content)

variable (platform : Platform)

def calculateZipContentHash (archive : Archive) : String :=
  platform.sha256 <| String.join <|
    ((Sequence.sortedBy ZipMember.filename archive).filter (!·.isDir)).map fun file =>
      file.filename ++ platform.md5 file.content

def HasReadme (archive : Archive) (zipName : String) : Prop :=
  ∃ file ∈ archive,
    platform.lower file.filename = "skill.md" ∨
      platform.lower file.filename = platform.lower (zipName ++ "/skill.md") ∨
      EndsWith "/skill.md" (platform.lower file.filename)

instance (archive : Archive) (zipName : String) : Decidable (HasReadme platform archive zipName) :=
  inferInstanceAs (Decidable (∃ file ∈ archive, _))

/-- The hash of a prefix goes over the names and the tags of its objects. -/
def calculatePrefixHash (objects : Storage) (path : String) : String :=
  platform.sha256 <| String.join <|
    (Sequence.sortedBy Prod.fst (objects.listObjects (folder path))).map fun o =>
      relative (folder path) o.1 ++ platform.md5 o.2

end Zip

section Paths

def versionPath (skillId : Uuid) (number : Nat) : String :=
  "skills/" ++ skillId.text ++ "/versions/" ++ toString number ++ "/"

def contentPath (skillId : Uuid) (number : Nat) : String :=
  versionPath skillId number ++ "content/"

def contributionPath (contributionId : Uuid) : String :=
  "skill-contributions/" ++ contributionId.text ++ "/"

end Paths

section Rows

def notFound : SkillError := .httpException 404 "Skill not found"

/-- A slug that reads as an identifier is one. -/
def locate (skills : Table Skill) (slug : String) : Option Skill :=
  match Uuid.parse slug with
  | some id => skills.get id
  | none => skills.find? (·.slug = slug)

def getSkill (skills : Table Skill) (slug : String) : Except SkillError Skill := do
  let skill ← demand (locate skills slug) notFound
  require (skill.status ≠ .deleting) notFound
  return skill

def insertSkill (skill : Skill) (skills : Table Skill) : Except SkillError (Table Skill) := do
  require (∀ other ∈ skills, other.name ≠ skill.name ∧ other.slug ≠ skill.slug) .integrityError
  skills.insert .integrityError skill

end Rows

section Upload

structure Upload where
  filename : String
  /-- `none` when the bytes are not an archive -/
  data : Option Archive
  newSkillId : Uuid
  newVersionId : Uuid
  deriving DecidableEq

structure Uploading where
  world : World
  duplicates : List String := []

variable (platform : Platform)

inductive Upsert
  | duplicate
  | metadataOnly
  | updated (skill : Skill) (newVersionNum : Nat)
  | created (skill : Skill)

def Skill.processing (skill : Skill) (hash : String) : Skill :=
  { skill with status := .processing, versionHash := some hash }

def upsertSkill (skills : Table Skill) (name hash : String) (force : Bool) (newSkillId : Uuid) :
    Upsert :=
  match skills.find? (·.name = name) with
  | some skill =>
    if !force then .duplicate
    else if skill.versionHash = some hash then .metadataOnly
    else .updated (skill.processing hash) (skill.currentVersion + 1)
  | none =>
    .created { id := newSkillId, name, slug := platform.slugify name, currentVersion := 1,
               versionHash := some hash, status := .processing }

/-- The row of a new version and the job that will unpack its archive. -/
def addVersion (world : World) (skills : Table Skill) (skillId : Uuid) (number : Nat)
    (hash : String) (file : Upload) (archive : Archive) (userId : Uuid) :
    Except SkillError World := do
  let versions ← world.versions.insert .integrityError
    { id := file.newVersionId, skillId, versionNumber := number, versionHash := some hash,
      createdBy := some userId }
  return { world with
    skills, versions,
    jobs := world.jobs ++
      [{ skillId, versionId := file.newVersionId, fileName := file.filename,
         buffer := some archive }] }

def applyUpsert (world : World) (hash : String) (file : Upload) (archive : Archive)
    (userId : Uuid) (upsert : Upsert) : Except SkillError World :=
  match upsert with
  | .duplicate | .metadataOnly => .ok world
  | .updated skill number =>
    addVersion world (world.skills.put skill) skill.id number hash file archive userId
  | .created skill => do
    let skills ← insertSkill skill world.skills
    addVersion world skills skill.id 1 hash file archive userId

def Upsert.duplicates (name : String) : Upsert → List String
  | .duplicate => [name]
  | _ => []

/-- One file of a call: what is not an archive, or not a skill, is reported and skipped. -/
def uploadFile (force : Bool) (userId : Uuid) (file : Upload) (uploading : Uploading) :
    Except SkillError Uploading :=
  match file.data with
  | none => .ok uploading
  | some archive =>
    if HasReadme platform archive (stem file.filename) then do
      let hash := calculateZipContentHash platform archive
      let upsert := upsertSkill platform uploading.world.skills (stem file.filename) hash force
        file.newSkillId
      let world ← applyUpsert uploading.world hash file archive userId upsert
      return ⟨world, uploading.duplicates ++ upsert.duplicates (stem file.filename)⟩
    else .ok uploading

def uploadFiles (force : Bool) (userId : Uuid) (files : List Upload) (world : World) :
    Except SkillError Uploading :=
  files.foldlM (fun uploading file => uploadFile platform force userId file uploading) ⟨world, []⟩

def uploadSkills (files : List Upload) (force : Bool) (userId : Uuid) (world : World) :
    Except SkillError World := do
  let uploading ← uploadFiles platform force userId files world
  require (uploading.duplicates = [] ∨ force) (.conflicts uploading.duplicates)
  return uploading.world

/-- The filename must be the skill's name, "to prevent accidental overwrites". -/
def reupload (skill : Skill) (file : Upload) (archive : Archive) (userId : Uuid) (world : World) :
    Except SkillError World := do
  let hash := calculateZipContentHash platform archive
  require (stem file.filename = skill.name) (.httpException 400
    ("Filename mismatch. Expected '" ++ skill.name ++ ".zip', got '" ++ file.filename ++ "'."))
  if skill.versionHash = some hash then
    return world
  require (HasReadme platform archive (stem file.filename))
    (.httpException 400 "Missing mandatory SKILL.md file in ZIP package.")
  addVersion world (world.skills.put (skill.processing hash)) skill.id (skill.currentVersion + 1)
    hash file archive userId

def reuploadSkill (slug : String) (file : Upload) (userId : Uuid) (world : World) :
    Except SkillError World := do
  let skill ← demand (locate world.skills slug) notFound
  let archive ← demand file.data (.httpException 400 "Invalid ZIP file.")
  reupload platform skill file archive userId world

end Upload

section Contribution

variable (platform : Platform)

/-- What an approval knows before it copies: the skill, which it may just have created. -/
structure Materializing where
  skills : Table Skill
  skill : Skill
  hash : String
  writes : List (String × String)

def Materializing.number (m : Materializing) : Nat := m.skill.currentVersion + 1

def contributedSkill (world : World) (contribution : SkillContribution) : Option Skill :=
  contribution.skillId.bind world.skills.get

structure Opened where
  skills : Table Skill
  skill : Skill

def openSkill (world : World) (contribution : SkillContribution) (hash : String)
    (newSkillId : Uuid) : Except SkillError Opened :=
  match contributedSkill world contribution with
  | some skill => .ok ⟨world.skills, skill⟩
  | none => do
    let skill := { id := newSkillId, name := contribution.title,
                   slug := platform.slugify contribution.title, currentVersion := 0,
                   versionHash := some hash, status := .processing }
    let skills ← insertSkill skill world.skills
    return ⟨skills, skill⟩

def Repeats (world : World) (contribution : SkillContribution) (hash : String) : Prop :=
  ∃ version ∈ world.versions,
    some version.skillId = contribution.skillId ∧ version.versionHash = some hash

instance (world : World) (contribution : SkillContribution) (hash : String) :
    Decidable (Repeats world contribution hash) :=
  inferInstanceAs (Decidable (∃ version ∈ world.versions, _))

def prepare (world : World) (contribution : SkillContribution) (newSkillId : Uuid) :
    Except SkillError Materializing := do
  let path ← demand contribution.storagePath
    (.httpException 400 "This contribution has no stored files to materialize.")
  let hash := calculatePrefixHash platform world.objects path
  require (¬ Repeats world contribution hash) (.httpException 400
    "This contribution is identical to an existing version of the skill.")
  let opened ← openSkill platform world contribution hash newSkillId
  return ⟨opened.skills, opened.skill, hash,
    world.objects.copies path (versionPath opened.skill.id (opened.skill.currentVersion + 1))⟩

def Materializing.current (m : Materializing) : Skill :=
  { m.skill with
    currentVersion := m.number, storagePath := some (versionPath m.skill.id m.number),
    versionHash := some m.hash, status := .active }

def materialize (world : World) (contribution : SkillContribution) (newVersionId : Uuid)
    (m : Materializing) : Except SkillError World := do
  let versions ← world.versions.insert .integrityError
    { id := newVersionId, skillId := m.skill.id, versionNumber := m.number,
      versionHash := some m.hash, storagePath := some (versionPath m.skill.id m.number),
      changelog := some ("Approved contribution: " ++ contribution.title),
      createdBy := some contribution.contributorId }
  return { world with
    skills := m.skills.put m.current, versions,
    contributions := world.contributions.put
      { contribution with status := .approved, skillId := some m.skill.id },
    objects := world.objects.update m.writes }

/-- When the storage raises, what was copied stays and the rows are rolled back. -/
def approveSkillContribution (contributionId newSkillId newVersionId : Uuid)
    (fault : Option (List String)) (world : World) : Except SkillError World := do
  let contribution ← demand (world.contributions.get contributionId)
    (.httpException 404 "Contribution not found")
  require (contribution.status = .pending) .invalidTransition
  let m ← prepare platform world contribution newSkillId
  match fault with
  | some copied =>
    return { world with objects := world.objects.update (m.writes.filter (·.1 ∈ copied)) }
  | none => materialize world contribution newVersionId m

/-- Whatever else happens to a contribution and its files before it is approved. -/
def contribute (contribution : SkillContribution) (files : List (String × String)) (world : World) :
    Except SkillError World := do
  require (contribution.skillId.all fun id => (world.skills.get id).isSome) .integrityError
  return { world with
    contributions :=
      if (world.contributions.get contribution.id).isSome then world.contributions.put contribution
      else world.contributions ++ [contribution],
    objects := world.objects.update
      (files.map fun o => (contributionPath contribution.id ++ o.1, o.2)) }

end Contribution

def setLatestVersion (slug : String) (number : Int) (world : World) : Except SkillError World := do
  let skill ← getSkill world.skills slug
  if number = skill.currentVersion then
    return world
  let version ← demand
    (world.versions.find? fun v => v.skillId = skill.id && (v.versionNumber : Int) = number)
    (.httpException 404 s!"Version {number} not found")
  return { world with
    skills := world.skills.put
      { skill with currentVersion := version.versionNumber, versionHash := version.versionHash,
                   storagePath := version.storagePath } }

section Ingest

def maxUncompressedSize : Nat := 10 * 1024 * 1024
def maxFileCount : Nat := 100

variable (platform : Platform)

structure Scan where
  totalSize : Nat := 0
  fileCount : Nat := 0
  /-- written while the archive is being read -/
  written : List (String × String) := []
  /-- uploaded once all of it has been read -/
  deferred : List (String × String) := []

def ZipSlip (filename : String) : Prop :=
  "/".toList <+: filename.toList ∨ "\\".toList <+: filename.toList ∨
    "../".toList <:+: filename.toList ∨ "..\\".toList <:+: filename.toList

instance (filename : String) : Decidable (ZipSlip filename) :=
  inferInstanceAs (Decidable (_ ∨ _ ∨ _ ∨ _))

def IsReadme (skillName filename : String) : Prop :=
  platform.lower filename = platform.lower (skillName ++ "/SKILL.md") ∨
    EndsWith "/skill.md" (platform.lower filename)

instance (skillName filename : String) : Decidable (IsReadme platform skillName filename) :=
  inferInstanceAs (Decidable (_ ∨ _))

/-- One member of the archive. An archive that is refused leaves what it has written. -/
def scanMember (path skillName : String) (archive : Archive) (file : ZipMember) (scan : Scan) :
    Except Scan Scan := do
  if file.isDir then
    return scan
  require (¬ ZipSlip file.filename) scan
  require (scan.fileCount + 1 ≤ maxFileCount) scan
  require (scan.totalSize + file.fileSize ≤ maxUncompressedSize) scan
  let scan := { scan with
    totalSize := scan.totalSize + file.fileSize, fileCount := scan.fileCount + 1 }
  if IsReadme platform skillName file.filename then
    return { scan with written := scan.written ++ [(path ++ file.filename, file.content)] }
  else
    return { scan with
      deferred := scan.deferred ++
        [(path ++ file.filename, (archive.open file.filename).getD file.content)] }

def scanArchive (path skillName : String) (archive : Archive) : Except Scan Scan :=
  archive.foldlM (fun scan file => scanMember platform path skillName archive file scan) {}

/-- How a run ends before its last commit. A killed worker leaves the archive on disk. -/
inductive IngestFault
  | raised (uploaded : List String)
  | killed (uploaded : List String)

def World.store (world : World) (writes : List (String × String)) : World :=
  { world with objects := world.objects.update writes }

def World.discard (world : World) (job : IngestJob) : World :=
  { world with jobs := world.jobs.put { job with buffer := none } }

/-- The writes of a run and whether it is there to commit and to clean up. -/
def finishIngest (world : World) (skill : Skill) (version : SkillVersion) (job : IngestJob)
    (writes : List (String × String)) (fault : Option IngestFault) : World :=
  match fault with
  | some (.killed uploaded) => world.store (writes.filter (·.1 ∈ uploaded))
  | some (.raised uploaded) => (world.store (writes.filter (·.1 ∈ uploaded))).discard job
  | none =>
    let path := contentPath job.skillId version.versionNumber
    let stored := world.store writes
    let hash := calculatePrefixHash platform stored.objects path
    { stored.discard job with
      skills := stored.skills.put
        { skill with versionHash := some hash, currentVersion := version.versionNumber,
                     storagePath := some path, status := .active },
      versions := stored.versions.put
        { version with versionHash := some hash, storagePath := some path } }

/-- The error status is not a member of the column's enumeration, so a failed run leaves the skill
in processing. -/
def ingestArchive (world : World) (skill : Skill) (version : SkillVersion) (job : IngestJob)
    (archive : Archive) (fault : Option IngestFault) : World :=
  match scanArchive platform (contentPath job.skillId version.versionNumber) (stem job.fileName)
      archive with
  | .ok scan => finishIngest platform world skill version job (scan.written ++ scan.deferred) fault
  | .error scan => (world.store scan.written).discard job

def ingestSkill (world : World) (skill : Skill) (version : SkillVersion) (job : IngestJob)
    (fault : Option IngestFault) : World :=
  let skill := { skill with status := SkillStatus.processing }
  let started := { world with skills := world.skills.put skill }
  match job.buffer with
  | none => started
  | some archive => ingestArchive platform started skill version job archive fault

def ingestSkillTask (versionId : Uuid) (fault : Option IngestFault) (world : World) :
    Except SkillError World := do
  let job ← demand (world.jobs.get versionId) notFound
  let skill ← demand (world.skills.get job.skillId) notFound
  let version ← demand (world.versions.get job.versionId) notFound
  return ingestSkill platform world skill version job fault

end Ingest

inductive Action
  | upload (files : List Upload) (force : Bool) (userId : Uuid)
  | reupload (slug : String) (file : Upload) (userId : Uuid)
  | contribute (contribution : SkillContribution) (files : List (String × String))
  | approve (contributionId newSkillId newVersionId : Uuid) (fault : Option (List String))
  | setLatest (slug : String) (number : Int)
  | ingest (versionId : Uuid) (fault : Option IngestFault)

def perform (platform : Platform) (action : Action) (world : World) : Except SkillError World :=
  match action with
  | .upload files force userId => uploadSkills platform files force userId world
  | .reupload slug file userId => reuploadSkill platform slug file userId world
  | .contribute contribution files => contribute contribution files world
  | .approve contributionId newSkillId newVersionId fault =>
    approveSkillContribution platform contributionId newSkillId newVersionId fault world
  | .setLatest slug number => setLatestVersion slug number world
  | .ingest versionId fault => ingestSkillTask platform versionId fault world

end Cygnus.Skills
