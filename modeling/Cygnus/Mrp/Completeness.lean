import Cygnus.Wiki.Models
import Mathlib.Data.List.Infix
import Mathlib.Data.Prod.Lex
import Mathlib.Data.String.Basic

/-! The completeness gate of the compiler: what a plan, the written pages and the source text have to
show before anything is staged for review. -/

namespace Cygnus.Mrp

open Wiki Text Result Sequence

inductive CompileError
  /-- An attribute or operator that a decoded document does not have. -/
  | malformed
  | incomplete (failures : List JsonObject)
  | sourceScope (message : String)
  | sourceLanguage (message : String)

/-- What the gate takes from the interpreter: the word characters and the case-insensitive equality
of `re`, and `str` of a document that is not a string. -/
structure Python where
  isWord : Char → Bool
  sameLetter : Char → Char → Bool
  str : Json → String

structure PageWriteResult where
  slug : String
  title : String
  pageType : String
  action : String
  contentMd : String
  summary : String
  citations : List JsonObject := []
  entityNames : List String := []
  relatedKbPages : List String := []
  failure : Option JsonObject := none
  status : Option String := none

section Documents

/-- `mapping.get(key, default)`. -/
def get (fields : JsonObject) (key : String) (default : Json) : Json :=
  (List.lookup key fields).getD default

def Python.strOf (py : Python) : Json → String
  | .str s => s
  | document => py.str document

/-- `for item in document`. -/
def iterate : Json → Except CompileError (List Json)
  | .list items => .ok items
  | .str s => .ok (s.toList.map fun c => .str (String.ofList [c]))
  | .object fields => .ok (fields.map fun field => .str field.1)
  | _ => .error .malformed

/-- The receiver of a `.get` call. -/
def asObject : Json → Except CompileError JsonObject
  | .object fields => .ok fields
  | _ => .error .malformed

/-- The receiver of a `.strip` call. -/
def asText : Json → Except CompileError String
  | .str s => .ok s
  | _ => .error .malformed

def asNumber (document : Json) : Except CompileError Int :=
  match document.asInt with
  | some n => .ok n
  | none => .error .malformed

end Documents

section Evidence

/-- `\b` between two characters. -/
def boundary (py : Python) (previous next : Option Char) : Bool :=
  previous.any py.isWord ≠ next.any py.isWord

/-- `\bname\b` at the start of `cs`. -/
def matchesWord (py : Python) (name : List Char) (previous : Option Char) (cs : List Char) : Bool :=
  name.length ≤ cs.length && (name.zip cs).all (fun pair => py.sameLetter pair.1 pair.2) &&
    boundary py previous cs.head? &&
    boundary py ((cs.take name.length).getLast?.or previous) (cs.drop name.length).head?

def searchWord (py : Python) (name : List Char) (previous : Option Char) : List Char → Bool
  | [] => matchesWord py name previous []
  | c :: cs => matchesWord py name previous (c :: cs) || searchWord py name (some c) cs

structure Evidence where
  statement : Json
  subject : Json
  confidence : Json
  sourceExcerpt : String
  absoluteOffset : Json
  evidenceLength : Int

variable (env : Platform) (py : Python)

/-- One name of `entity_names`; those that are empty or blank are passed over. -/
def entityName (name : Json) : Except CompileError (Option String) := do
  if !name.truthy then return none
  let name ← asText name
  if strip name = "" then return none
  return some (strip (env.lower name))

def entityNamesLower (planItem : JsonObject) : Except CompileError (List String) := do
  let names ← iterate (get planItem "entity_names" (.list []))
  return (← names.mapM (entityName env)).filterMap id

def excerptOf (fullText : String) (offset : Json) (length : Int) : Except CompileError String := do
  if fullText = "" then return ""
  let offset ← asNumber offset
  return slice fullText offset (offset + length)

/-- The evidence that one claim gives, if its subject is one of the names or holds one as a word. -/
def claimEvidence (names : List String) (fullText : String) (claim : Json) :
    Except CompileError (Option Evidence) := do
  let claim ← asObject claim
  let subject ← asText ((get claim "subject" .null).orElse (.str ""))
  let subject := strip subject
  if subject = "" then return none
  if env.lower subject ∉ names ∧
      (names.any fun name => searchWord py name.toList none subject.toList) = false then return none
  let offset := get claim "absolute_offset" (.int 0)
  let length := min (← asNumber (get claim "evidence_length" (.int 200))) 2000
  let excerpt ← excerptOf fullText offset length
  return some
    { statement := get claim "statement" (.str ""), subject := get claim "subject" (.str ""),
      confidence := get claim "confidence" (.str "explicit"), sourceExcerpt := excerpt,
      absoluteOffset := offset, evidenceLength := length }

def assembleEvidence (planItem : JsonObject) (claims : Json) (fullText : String) :
    Except CompileError (List Evidence) := do
  let names ← entityNamesLower env planItem
  if names = [] then return []
  let claims ← iterate claims
  return (← claims.mapM (claimEvidence env py names fullText)).filterMap id

end Evidence

section Gate

def placeholderMarkers : List String := ["(Page generation failed", "(content generation incomplete"]

def isPlaceholderContent (contentMd : String) : Bool :=
  let body := strip contentMd
  body = "" || placeholderMarkers.any fun marker => marker.toList <:+: body.toList

variable (env : Platform) (py : Python)

/-- `str(page.get("slug", ""))`. -/
def pageSlug (page : JsonObject) : String := py.strOf (get page "slug" (.str ""))

def plannedPages (plan : JsonObject) : Except CompileError (List JsonObject) := do
  let pages ← iterate ((get plan "pages" .null).orElse (.list []))
  let pages ← pages.mapM asObject
  return sortedBy (fun page =>
    toLex (pageSlug py page, py.strOf (get page "title" (.str "")))) pages

def failureOf (unit phase errorType message : String) (retryable : Bool) : JsonObject :=
  [("unit", .str unit), ("phase", .str phase), ("status", .str "error"),
    ("error_type", .str errorType), ("message", .str message), ("retryable", .bool retryable)]

/-- `{pr.slug: pr for pr in page_results}.get(slug)`: the last result of a slug stands. -/
def resultBySlug (results : List PageWriteResult) (slug : String) : Option PageWriteResult :=
  (results.filter (·.slug = slug)).getLast?

/-- What is missing of one planned page. -/
def pageFailures (results : List PageWriteResult) (claims : Json) (fullText : String)
    (page : JsonObject) : Except CompileError (List JsonObject) := do
  let slug := pageSlug py page
  if slug = "" then
    return [failureOf "refine:page:<missing-slug>" "refine" "missing_unit"
      "plan page entry has no slug" false]
  match resultBySlug results slug with
  | none =>
    return [failureOf s!"refine:page:{slug}" "refine" "missing_unit"
      s!"planned page '{slug}' has no generation result" true]
  | some result =>
    match result.failure with
    | some failure => return [failure]
    | none =>
      if isPlaceholderContent result.contentMd then
        return [failureOf s!"refine:page:{slug}" "refine" "placeholder_content"
          "generated page content is empty or a placeholder draft" true]
      let evidence ← assembleEvidence env py page claims fullText
      if evidence.isEmpty then
        return [failureOf s!"refine:page:{slug}" "refine" "no_evidence"
          "planned page has no evidence-backed claims from the source" false]
      return []

def failureKey (failure : JsonObject) : String ×ₗ String ×ₗ String :=
  toLex (py.strOf (get failure "phase" (.str "")), toLex (py.strOf (get failure "unit" (.str "")),
    py.strOf (get failure "error_type" (.str ""))))

def claimsOf (plan : JsonObject) : Json := (get plan "_claims" .null).orElse (.list [])

def validateCompileCompleteness (plan : JsonObject) (results : List PageWriteResult)
    (fullText : String) (chunkFailures : List JsonObject := []) :
    Except CompileError (List JsonObject) := do
  let pages ← plannedPages py plan
  let failures ← pages.mapM (pageFailures env py results (claimsOf plan) fullText)
  return sortedBy (failureKey py) (chunkFailures ++ failures.flatten)

end Gate

end Cygnus.Mrp
