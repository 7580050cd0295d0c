import Cygnus.Data.Machine
import Cygnus.Retrieval.EmbeddingStorage

/-! The switch to another embedding model, batch by batch, while pages change under it. -/

namespace Cygnus.Retrieval.Embedding

open Result Machine Table
open Wiki (WikiPage)

inductive JobStatus
  | pending | running | completed | failed | cancelled
  deriving DecidableEq, Repr

structure EmbeddingJob where
  modelSpecId : String
  status : JobStatus := .pending
  totalPages : Nat := 0
  donePages : Nat := 0
  errorMessage : Option String := none

/-- Where the task stands between two of its commits; `reading` is the batch it has read and not yet
written. -/
inductive Task
  | idle
  | running (spec : EmbeddingModelSpec) (total : List Uuid) (offset : Nat)
      (reading : Option (List WikiPage))

structure World (V : Type) where
  pages : Table WikiPage
  embeddings : List (PageEmbedding V)
  activeModel : Option String
  job : EmbeddingJob
  task : Task := .idle
  /-- No column: the pages added since the task listed them, or changed since it read them, and not
  embedded again under its model. -/
  missed : List Uuid := []

def reservedSlugs : List String := ["_index", "_log"]

def batchSize : Nat := 50

namespace Task

def spec : Task → Option EmbeddingModelSpec
  | .idle => none
  | .running spec _ _ _ => some spec

def read : Task → List WikiPage
  | .idle => []
  | .running _ _ _ reading => reading.getD []

/-- The pages still to be read. -/
def remaining : Task → List Uuid
  | .idle => []
  | .running _ total offset none => total.drop offset
  | .running _ total offset (some _) => total.drop (offset + batchSize)

end Task

section Steps

variable {V : Type} (sha256 : String → String)

/-- The task's next session finds its job cancelled. -/
def World.stop (world : World V) : World V := { world with task := .idle }

def World.fail (message : String) (world : World V) : World V :=
  { world with job := { world.job with status := .failed, errorMessage := some message }, task := .idle }

/-- The first session of the task; `providerInit` is what setting up the client comes to. -/
def start (providerInit : Except String Unit) (world : World V) :
    Except EmbeddingError (World V) := do
  require (world.task.spec = none) .notReady
  if world.job.status ≠ .pending ∧ world.job.status ≠ .running then return world
  else
    match getSpec world.job.modelSpecId, providerInit with
    | .error _, _ => return world.fail s!"Unknown model spec: {world.job.modelSpecId}"
    | .ok _, .error message => return world.fail s!"Provider init failed: {message}"
    | .ok spec, .ok () =>
      let total := (world.pages.filter fun page => page.slug ∉ reservedSlugs).map WikiPage.id
      return { world with
        job := { world.job with status := .running, totalPages := total.length, donePages := 0 }
        task := .running spec total 0 none
        missed := [] }

/-- A batch's session up to the call of the provider. -/
def readBatch (world : World V) : Except EmbeddingError (World V) :=
  match world.task with
  | .running spec total offset none => do
    require (offset < total.length) .notReady
    if world.job.status = .cancelled then return world.stop
    else
      let batchIds := (total.drop offset).take batchSize
      return { world with
        task := .running spec total offset (some (world.pages.filter fun page => page.id ∈ batchIds))
        missed := world.missed.filter fun id => id ∉ batchIds }
  | _ => throw .notReady

/-- The rows of a batch. -/
def upsertBatch (pages : Table WikiPage) (spec : EmbeddingModelSpec) :
    List (WikiPage × V) → List (PageEmbedding V) → Except EmbeddingError (List (PageEmbedding V))
  | [], rows => return rows
  | (page, vector) :: rest, rows => do
    let rows ← upsertPageEmbedding pages page.id spec vector (computeContentHash sha256 page) rows
    upsertBatch pages spec rest rows

/-- The answer of the provider and the rest of the batch's session. -/
def commitBatch (provider : EmbeddingProvider V) (world : World V) :
    Except EmbeddingError (World V) :=
  match world.task with
  | .running spec total offset (some pages) =>
    match provider.embedBatch (pages.map embeddingInputText) with
    | .error message => return world.fail s!"Embedding API failed: {message}"
    | .ok vectors => do
      let rows ← upsertBatch sha256 world.pages spec (pages.zip vectors) world.embeddings
      return { world with
        embeddings := rows
        job := { world.job with donePages := min (offset + pages.length) world.job.totalPages }
        task := .running spec total (offset + batchSize) none }
  | _ => throw .notReady

/-- The last session of the task. -/
def flip (world : World V) : Except EmbeddingError (World V) :=
  match world.task with
  | .running spec total offset none => do
    require (total.length ≤ offset) .notReady
    if world.job.status = .cancelled then return world.stop
    else
      return { world with
        activeModel := some spec.id
        embeddings := cleanupStaleEmbeddings spec.id world.embeddings
        job := { world.job with status := .completed }
        task := .idle }
  | _ => throw .notReady

def createPage (page : WikiPage) (world : World V) : Except EmbeddingError (World V) := do
  let pages ← world.pages.insert (EmbeddingError.integrityError "wiki_pages_pkey") page
  return { world with pages := pages, missed := page.id :: world.missed }

/-- Any edit; a page keeps its id and its slug. -/
def editPage (page : WikiPage) (world : World V) : Except EmbeddingError (World V) := do
  let old ← demand (world.pages.get page.id) (.valueError "page not found")
  require (page.slug = old.slug) (.valueError "a page keeps its slug")
  return { world with
    pages := world.pages.put page
    missed :=
      if computeContentHash sha256 page = computeContentHash sha256 old then world.missed
      else page.id :: world.missed }

def deletePage (id : Uuid) (world : World V) : World V :=
  { world with
    pages := world.pages.filter fun page => page.id ≠ id
    embeddings := world.embeddings.filter fun row => row.pageId ≠ id }

/-- A page is embedded under the active model. -/
def embedPage (id : Uuid) (vector : V) (world : World V) : Except EmbeddingError (World V) := do
  let active ← demand world.activeModel
    (.valueError "No active embedding model. Pick one in Settings → Embedding.")
  let spec ← getSpec active
  let page ← demand (world.pages.get id) (.valueError "page not found")
  let rows ← upsertPageEmbedding world.pages id spec vector (computeContentHash sha256 page)
    world.embeddings
  -- A batch that has read the page is still going to write what it read.
  let settled := world.task.spec.map EmbeddingModelSpec.id = some spec.id ∧
    ∀ read ∈ world.task.read, read.id ≠ id
  return { world with
    embeddings := rows
    missed := if settled then world.missed.filter fun other => other ≠ id else world.missed }

def cancel (world : World V) : Except EmbeddingError (World V) := do
  require (world.job.status = .pending ∨ world.job.status = .running)
    (.valueError "the job cannot be cancelled")
  return { world with job := { world.job with status := .cancelled } }

inductive Action (V : Type)
  | start (providerInit : Except String Unit)
  | readBatch
  | commitBatch (provider : EmbeddingProvider V)
  | flip
  /-- The worker goes down, or a session of the task raises. -/
  | crash
  | createPage (page : WikiPage)
  | editPage (page : WikiPage)
  | deletePage (id : Uuid)
  | embedPage (id : Uuid) (vector : V)
  | cancel

def act (action : Action V) (world : World V) : Except EmbeddingError (World V) :=
  match action with
  | .start providerInit => start providerInit world
  | .readBatch => readBatch world
  | .commitBatch provider => commitBatch sha256 provider world
  | .flip => flip world
  | .crash => .ok world.stop
  | .createPage page => createPage page world
  | .editPage page => editPage sha256 page world
  | .deletePage id => .ok (deletePage id world)
  | .embedPage id vector => embedPage sha256 id vector world
  | .cancel => cancel world

end Steps

end Cygnus.Retrieval.Embedding
