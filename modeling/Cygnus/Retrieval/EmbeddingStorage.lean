import Cygnus.Data.Table
import Cygnus.Wiki.Models

/-! The catalogue of embedding models and the rows that hold a page's vector under one of them. -/

namespace Cygnus.Retrieval.Embedding

open Result
open Wiki (WikiPage)

structure EmbeddingModelSpec where
  id : String
  provider : String
  modelId : String
  dimension : Nat
  deriving DecidableEq

def embeddingCatalog : List EmbeddingModelSpec := [
  ⟨"google/gemini-embedding-001", "google", "gemini-embedding-001", 3072⟩,
  ⟨"google/gemini-embedding-2", "google", "gemini-embedding-2", 3072⟩,
  ⟨"openai/text-embedding-3-small", "openai", "text-embedding-3-small", 1536⟩,
  ⟨"openai/text-embedding-3-large", "openai", "text-embedding-3-large", 3072⟩]

inductive EmbeddingError
  | unknownEmbeddingModel (specId : String)
  | valueError (message : String)
  | integrityError (constraint : String)
  /-- A step that the task has not come to. -/
  | notReady
  deriving DecidableEq

def getSpec (specId : String) : Except EmbeddingError EmbeddingModelSpec :=
  demand (embeddingCatalog.find? fun spec => spec.id = specId) (.unknownEmbeddingModel specId)

def embeddedText (page : WikiPage) : String :=
  page.title ++ "\n\n" ++ page.summary ++ "\n\n" ++ page.contentMd

def computeContentHash (sha256 : String → String) (page : WikiPage) : String :=
  sha256 (embeddedText page)

def embeddingInputText (page : WikiPage) : String :=
  String.ofList ((embeddedText page).toList.take 8000)

/-- A row of `wiki_page_embeddings_<dimension>`. -/
structure PageEmbedding (V : Type) where
  dimension : Nat
  pageId : Uuid
  modelSpecId : String
  contentHash : String
  embedding : V

/-- A client for one model; it answers with one vector for each text. -/
structure EmbeddingProvider (V : Type) where
  embedBatch : List String → Except String (List V)
  one_each : ∀ texts vectors, embedBatch texts = .ok vectors → vectors.length = texts.length

section Rows

variable {V : Type}

/-- The row is in the same table under the same primary key. -/
def PageEmbedding.sameKey (row other : PageEmbedding V) : Bool :=
  row.dimension = other.dimension ∧ row.pageId = other.pageId ∧ row.modelSpecId = other.modelSpecId

/-- `upsert_page_embedding`; the page must exist for its foreign key. -/
def upsertPageEmbedding (pages : Table WikiPage) (pageId : Uuid) (spec : EmbeddingModelSpec)
    (vector : V) (contentHash : String) (rows : List (PageEmbedding V)) :
    Except EmbeddingError (List (PageEmbedding V)) := do
  require (pages.get pageId).isSome (.integrityError "wiki_page_embeddings_page_id_fkey")
  let row : PageEmbedding V := ⟨spec.dimension, pageId, spec.id, contentHash, vector⟩
  return if rows.any (·.sameKey row) then rows.map fun other => if other.sameKey row then row else other
    else rows ++ [row]

/-- `cleanup_stale_embeddings`, in every table. -/
def cleanupStaleEmbeddings (keepSpecId : String) (rows : List (PageEmbedding V)) :
    List (PageEmbedding V) := rows.filter fun row => row.modelSpecId = keepSpecId

/-- A row of the page under the model has this hash. -/
def HasHash (rows : List (PageEmbedding V)) (specId : String) (pageId : Uuid) (hash : String) : Prop :=
  ∃ row ∈ rows, row.pageId = pageId ∧ row.modelSpecId = specId ∧ row.contentHash = hash

variable {pages : Table WikiPage} {pageId : Uuid} {spec : EmbeddingModelSpec} {vector : V}
  {contentHash : String} {rows rows' : List (PageEmbedding V)}

theorem upsert_self (h : upsertPageEmbedding pages pageId spec vector contentHash rows = .ok rows') :
    HasHash rows' spec.id pageId contentHash := by
  simp only [upsertPageEmbedding, bind_ok, pure_ok] at h
  obtain ⟨-, -, rfl⟩ := h
  refine ⟨⟨spec.dimension, pageId, spec.id, contentHash, vector⟩, ?_, rfl, rfl, rfl⟩
  split
  · rename_i hany
    obtain ⟨other, hother, hsame⟩ := List.any_eq_true.mp hany
    exact List.mem_map.mpr ⟨other, hother, if_pos hsame⟩
  · exact List.mem_append_right _ List.mem_cons_self

/-- The rows of other pages and of other models stay. -/
theorem upsert_other {specId hash : String} {other : Uuid}
    (h : upsertPageEmbedding pages pageId spec vector contentHash rows = .ok rows')
    (hother : other ≠ pageId ∨ specId ≠ spec.id) (hrow : HasHash rows specId other hash) :
    HasHash rows' specId other hash := by
  simp only [upsertPageEmbedding, bind_ok, pure_ok] at h
  obtain ⟨-, -, rfl⟩ := h
  obtain ⟨row, hrow, rfl, rfl, rfl⟩ := hrow
  refine ⟨row, ?_, rfl, rfl, rfl⟩
  split
  · have hdiffers : row.sameKey ⟨spec.dimension, pageId, spec.id, contentHash, vector⟩ = false := by
      rcases hother with hne | hne <;> simp [PageEmbedding.sameKey, hne]
    refine List.mem_map.mpr ⟨row, hrow, ?_⟩
    rw [hdiffers]
    rfl
  · exact List.mem_append_left _ hrow

theorem HasHash.cleanup {specId hash : String} (h : HasHash rows specId pageId hash) :
    HasHash (cleanupStaleEmbeddings specId rows) specId pageId hash := by
  obtain ⟨row, hrow, hpage, hspec, hhash⟩ := h
  exact ⟨row, List.mem_filter.mpr ⟨hrow, by simpa using hspec⟩, hpage, hspec, hhash⟩

end Rows

end Cygnus.Retrieval.Embedding
