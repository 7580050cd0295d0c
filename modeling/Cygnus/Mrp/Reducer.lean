import Cygnus.Data.Sequence
import Cygnus.Data.UnionFind

/-! The deduplication of concepts: pairs that are similar enough are merged, pairs in doubt where the
language model says so. -/

namespace Cygnus.Mrp.Reducer

open Sequence UnionFind

structure Concept where
  term : String
  definitionExcerpt : String
  mentionCount : Int
  absoluteOffsets : List Int
  norm : String
deriving DecidableEq

/-- Where the cosine of two terms lies between the thresholds. -/
inductive Similarity
  | merge
  | ambiguous
  | distinct
deriving DecidableEq

/-- One entry of the model's answer: true, false, or one whose reading raises. -/
inductive Decision
  | same
  | different
  | raises
deriving DecidableEq

abbrev MergedInto := Parents Nat

/-- The lower-mention concept is merged into the higher-mention one. -/
def prefer (concepts : List Concept) (ri rj : Nat) : Bool :=
  match concepts[ri]?, concepts[rj]? with
  | some left, some right => right.mentionCount ≤ left.mentionCount
  | _, _ => false

def indexPairs (concepts : List Concept) : List (Nat × Nat) :=
  combinations (List.range concepts.length)

def autoMergePairs (similarity : Nat → Nat → Similarity) (concepts : List Concept) :
    List (Nat × Nat) :=
  (indexPairs concepts).filter fun pair => similarity pair.1 pair.2 = .merge

def ambiguousPairs (similarity : Nat → Nat → Similarity) (concepts : List Concept) :
    List (Nat × Nat) :=
  (indexPairs concepts).filter fun pair => similarity pair.1 pair.2 = .ambiguous

/-- The pairs whose walks end in different roots. -/
def stillAmbiguous (mergedInto : MergedInto) : List (Nat × Nat) → Option (List (Nat × Nat))
  | [] => some []
  | pair :: rest => do
    let ri ← rootOf mergedInto pair.1
    let rj ← rootOf mergedInto pair.2
    let others ← stillAmbiguous mergedInto rest
    return if ri = rj then others else pair :: others

/-- Either the concepts, where there is nothing to compare or no embedding, or the merges with the pairs
in doubt. -/
def embeddingDedupConcepts (embedded : Option (Nat → Nat → Similarity)) (concepts : List Concept) :
    Option (List Concept ⊕ MergedInto × List (Nat × Nat)) :=
  if concepts.length ≤ 1 then some (.inl concepts)
  else
    match embedded with
    | none => some (.inl concepts)
    | some similarity => do
      let mergedInto ← (autoMergePairs similarity concepts).foldlM (union (prefer concepts)) []
      let pairs ← stillAmbiguous mergedInto (ambiguousPairs similarity concepts)
      return .inr (mergedInto, pairs)

/-- The merges that the answer asks for; what was merged before it raises stays merged. -/
def resolveAmbiguousConcepts (concepts : List Concept) (mergedInto : MergedInto) :
    List (Nat × Nat) → List Decision → Option MergedInto
  | pair :: pairs, .same :: decisions => do
    let mergedInto ← union (prefer concepts) mergedInto pair
    resolveAmbiguousConcepts concepts mergedInto pairs decisions
  | _ :: pairs, .different :: decisions =>
    resolveAmbiguousConcepts concepts mergedInto pairs decisions
  | _, _ => some mergedInto

/-- The longer definition wins, the first one on a tie. -/
def Concept.absorb (canonical c : Concept) : Concept :=
  { canonical with
    mentionCount := canonical.mentionCount + c.mentionCount
    absoluteOffsets := canonical.absoluteOffsets ++ c.absoluteOffsets
    definitionExcerpt := if canonical.definitionExcerpt.length < c.definitionExcerpt.length
      then c.definitionExcerpt else canonical.definitionExcerpt }

def applyMergesConcepts (concepts : List Concept) (mergedInto : MergedInto) :
    Option (List Concept) := do
  let roots ← (List.range concepts.length).mapM (rootOf mergedInto)
  roots.eraseDups.mapM fun ri => do
    let canonical ← concepts[ri]?
    let others := concepts.zipIdx.filter fun entry => entry.2 ≠ ri ∧ roots[entry.2]? = some ri
    return (others.map Prod.fst).foldl Concept.absorb canonical

/-- The deduplication as the planner runs it. -/
def dedupConcepts (embedded : Option (Nat → Nat → Similarity)) (decisions : List Decision)
    (concepts : List Concept) : Option (List Concept) := do
  match ← embeddingDedupConcepts embedded concepts with
  | .inl kept => return kept
  | .inr (mergedInto, pairs) =>
    let mergedInto ← resolveAmbiguousConcepts concepts mergedInto pairs decisions
    applyMergesConcepts concepts mergedInto

end Cygnus.Mrp.Reducer
