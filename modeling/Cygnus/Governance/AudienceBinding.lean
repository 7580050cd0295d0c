import Cygnus.Data.Table
import Cygnus.Publish.Preview
import Mathlib.Data.String.Basic

namespace Cygnus.Governance

open Domain Publish Text Result Sequence

inductive AudienceBindingLifecycle
  | active
  | held
  | removed
  deriving DecidableEq

/-- A row of `governance_audience_bindings`. -/
structure AudienceBinding where
  id : Uuid
  pageId : Uuid
  objectRef : String
  variantRef : String
  channel : String
  visibility : Visibility
  brands : List String := []
  productLines : List String := []
  plans : List String := []
  regions : List String := []
  languages : List String := []
  productVersions : List String := []
  lifecycleState : AudienceBindingLifecycle := .active
  bindingKey : String
  version : Nat := 1
  deriving DecidableEq

def audienceFilterFromBinding (record : AudienceBinding) : Publishing AudienceFilter :=
  (AudienceFilter.make record.visibility record.brands record.productLines record.plans
    record.regions record.languages record.productVersions).mapError .valueError

def publishBindingFromRecord (record : AudienceBinding) : Publishing PublishBinding := do
  let audience ← audienceFilterFromBinding record
  PublishBinding.make audience record.channel

structure AudienceBindingConflictRecord where
  left : AudienceBinding
  right : AudienceBinding
  deriving DecidableEq

def AudienceBindingConflictRecord.reason (conflict : AudienceBindingConflictRecord) : String :=
  s!"Active variants {conflict.left.variantRef} and {conflict.right.variantRef} " ++
    s!"overlap on {conflict.left.channel} for {conflict.left.visibility.value} visibility."

def AudienceBinding.sortKey (record : AudienceBinding) : List String :=
  [record.objectRef, record.channel, record.visibility.value, record.variantRef, record.bindingKey]

def conflictBetween (left right : AudienceBinding) :
    Publishing (Option AudienceBindingConflictRecord) := do
  if left.pageId ≠ right.pageId ∨ left.objectRef ≠ right.objectRef then return none
  if left.channel ≠ right.channel ∨ left.visibility ≠ right.visibility then return none
  if left.variantRef = right.variantRef then return none
  let leftAudience ← audienceFilterFromBinding left
  let rightAudience ← audienceFilterFromBinding right
  if audienceFiltersOverlap leftAudience rightAudience then return some ⟨left, right⟩
  return none

def detectAudienceBindingConflicts (bindings : List AudienceBinding) :
    Publishing (List AudienceBindingConflictRecord) := do
  let active := sortedBy AudienceBinding.sortKey (bindings.filter (·.lifecycleState = .active))
  let conflicts ← (combinations active).mapM fun (left, right) => conflictBetween left right
  return conflicts.reduceOption

def conflictBlock (conflict : AudienceBindingConflictRecord) (record : AudienceBinding) :
    Publishing (BindingKey × PublishConflict) := do
  let audience ← audienceFilterFromBinding record
  let blocked ← PublishConflict.make audience record.channel conflict.reason
  return (blocked.key, blocked)

/-- The final order only depends on `repr`, the printed form of a key. -/
def publishConflictsFromRecords (repr : BindingKey → String) (bindings : List AudienceBinding) :
    Publishing (List PublishConflict) := do
  let conflicts ← detectAudienceBindingConflicts bindings
  let blocks ← (conflicts.flatMap fun c => [(c, c.left), (c, c.right)]).mapM
    fun (conflict, record) => conflictBlock conflict record
  return Dict.values (sortedBy (fun item => repr item.1) (Dict.ofList blocks))

end Cygnus.Governance
