import Cygnus.Data.Regex
import Cygnus.Publish.Pipeline
import Cygnus.Wiki.Models

/-! The support object a wiki page is projected to. Only its identity, type and title are read when
it is published; the other texts are built to be validated. -/

namespace Cygnus.Retrieval

open Wiki Publish Text Result

/-- A row of `wiki_pages` with the column that marks a page no source backs any more. -/
structure GovernedPage extends WikiPage where
  orphaned : Bool := false
  deriving DecidableEq

instance : Row GovernedPage := ⟨fun page => page.id⟩

/-- `governed_object_ref`. -/
def governedObjectRef (pageId : Uuid) : String := s!"ko-page-{pageId.text}"

def reservedWikiSlugs : List String := ["_index", "_log", "_hot"]

def objectTypeValue : KnowledgeObjectType → String
  | .answerCard => "answer_card"
  | .troubleshootingFlow => "troubleshooting_flow"
  | .policyRule => "policy_rule"
  | .knownIssuePage => "known_issue_page"
  | .escalationRoute => "escalation_route"

/-- `_OBJECT_TYPE_BY_SLUG`: each value, the value with dashes, and one alias. -/
def objectTypeBySlug : String → Option KnowledgeObjectType
  | "answer_card" | "answer-card" => some .answerCard
  | "troubleshooting_flow" | "troubleshooting-flow" => some .troubleshootingFlow
  | "policy_rule" | "policy-rule" => some .policyRule
  | "known_issue_page" | "known-issue-page" | "known-issue" => some .knownIssuePage
  | "escalation_route" | "escalation-route" => some .escalationRoute
  | _ => none

def resolveObjectType (env : Platform) (slugs : List String) : Option KnowledgeObjectType :=
  slugs.findSome? fun slug => objectTypeBySlug (env.lower (strip slug))

section Texts

open Regex Re

def space : Re := .char isSpace

def oneOf (cs : String) : Re := .char fun c => c ∈ cs.toList

def anyChar : Re := .char fun c => c ≠ '\n'

/-- `^\s*(?:[-*+]|\d+[.)])\s+(.+?)\s*$` over the lines of a text. -/
def listItem : Re :=
  .seq .lineStart <| .seq (.star true space) <|
    .seq (.alt (oneOf "-*+") (.seq (plus true (.char Char.isDigit)) (oneOf ".)"))) <|
      .seq (plus true space) <| .seq (.group 1 (plus false anyChar)) <|
        .seq (.star true space) .lineEnd

/-- `^\s*#{1,6}\s+` at the start of a text. -/
def headingStart : Re :=
  .seq (.star true space) <| .seq (oneOf "#") <| .seq (upTo 5 (oneOf "#")) (plus true space)

def listItems (content : String) : List String := (listItem.finditer content).map (·.group 1)

def firstParagraph (content : String) : String :=
  match ((splitOn "\n\n" content).map strip).find? fun block =>
      block ≠ "" && (headingStart.matchAt ⟨[], block.toList, []⟩).isNone with
  | none => ""
  | some block => " ".intercalate ((splitLines block).map strip)

/-- `left or right`. -/
def orText (left right : String) : String := if left = "" then right else left

def summaryFor (page : WikiPage) : String :=
  orText (strip page.summary) (orText (firstParagraph page.contentMd) page.title)

def excerpt (text : String) : String := slice (strip text) 0 800

end Texts

def requireText (label value : String) : Publishing Unit :=
  require (strip value ≠ "") (.valueError s!"{label} must not be blank")

def requireValues (label : String) (values : List String) : Publishing Unit :=
  require (∀ value ∈ values, strip value ≠ "") (.valueError s!"{label} values must not be empty")

/-- The constructor of each object type, on what the projection passes to it. -/
def requireFields (page : WikiPage) : KnowledgeObjectType → Publishing Unit
  | .answerCard => do
    requireText "question" page.title
    requireText "canonical_answer" (orText (excerpt page.contentMd) (summaryFor page))
  | .troubleshootingFlow => do
    requireText "problem_statement" (summaryFor page)
    let steps := listItems page.contentMd
    requireValues "step" (if steps = [] then [s!"See wiki page: {page.slug}"] else steps)
  | .policyRule => do
    requireText "rule_domain" (page.knowledgeTypeSlugs.headD "policy")
    requireText "rule_statement" (summaryFor page)
    require (strip s!"wiki:{page.slug}" ≠ "")
      (.valueError "authority_source must not be blank when provided")
  | .knownIssuePage => do
    requireText "issue_summary" (summaryFor page)
    requireText "workaround" (orText (excerpt page.contentMd) (summaryFor page))
    requireText "issue_status" (orText page.status "seed")
  | .escalationRoute => do
    let steps := listItems page.contentMd
    requireValues "trigger condition" (if steps = [] then [summaryFor page] else steps)
    requireText "destination_team" "unassigned"

def wikiPageToKnowledgeObject (env : Platform) (page : GovernedPage) (evidenceIds : List String) :
    Publishing (Option KnowledgeObject) :=
  if page.orphaned ∨ page.slug ∈ reservedWikiSlugs ∨
      "source/".toList.isPrefixOf page.slug.toList then return none
  else
    match resolveObjectType env page.knowledgeTypeSlugs with
    | none => return none
    | some objectType => do
      requireText "object_id" (governedObjectRef page.id)
      requireText "title" page.title
      requireText "summary" (summaryFor page.toWikiPage)
      requireValues "evidence" evidenceIds
      requireValues "tag" (page.knowledgeTypeSlugs ++ ["substrate-mapped"]).eraseDups
      requireFields page.toWikiPage objectType
      return some ⟨governedObjectRef page.id, objectType, page.title⟩

end Cygnus.Retrieval
