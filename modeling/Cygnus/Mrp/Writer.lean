import Cygnus.Data.Packing
import Cygnus.Data.Sequence
import Cygnus.Data.Spans
import Cygnus.Substrate.SourceOutline

/-! What the writer of a page gets to read: the document cut into sections, the sections sorted into
tiers by the evidence they hold, and those kept packed into passes. -/

namespace Cygnus.Mrp.Writer

open Text Regex Re Sequence Spans Packing Substrate

inductive Tier
  | a
  | b
deriving DecidableEq

structure SectionRef where
  title : String
  level : Nat
  charStart : Int
  charEnd : Int
  text : String
  evidenceIndices : List Nat := []
  tier : Tier := .a
deriving DecidableEq

structure Evidence where
  statement : String
  subject : String
  confidence : String
  sourceExcerpt : String
  absoluteOffset : Option Int
  evidenceLength : Int
deriving DecidableEq

/-- A row without an offset counts as one at the start of the document. -/
def Evidence.offset (row : Evidence) : Int := row.absoluteOffset.getD 0

structure WriterPassBatch where
  sections : List SectionRef
  evidence : List Evidence
  totalChars : Nat
deriving DecidableEq

section Sections

/-- `^(#{1,4})\s+` over the lines of a text. -/
def headingPattern : Re :=
  .seq .lineStart <| .seq (.group 1 (.seq hash (upTo 3 hash))) (plus true blank)

def windowSize : Nat := 3000

def paragraphBreak : String := "\n\n"

/-- The last paragraph break of the window that starts at `i`. -/
def paraBreak (text : String) (i : Nat) : Option Nat :=
  rfind paragraphBreak.toList text.toList i (i + windowSize)

/-- Where the section that starts at `i` ends: a window that is not the last one goes back to its last
paragraph break. -/
def sectionEnd (text : String) (i : Nat) : Nat :=
  if i + windowSize < text.length then
    match paraBreak text i with
    | some place => if i < place then place + 2 else i + windowSize
    | none => i + windowSize
  else text.length

def windowStarts (text : String) : List Nat :=
  (List.range ((text.length + (windowSize - 1)) / windowSize)).map (windowSize * ·)

/-- The sections by heading, or by paragraphs where there is no heading, with their offsets. -/
def splitIntoSections (text : String) : List (Nat × String) :=
  match (headingPattern.finditer text).map Re.Match.start with
  | [] => (windowStarts text).map fun i => (i, slice text i (sectionEnd text i))
  | first :: rest =>
    (if 0 < first then [(0, slice text 0 first)] else []) ++
      (between text.length (first :: rest)).map fun span => (span.1, slice text span.1 span.2)

/-- The nodes without children, in the order of the text. -/
def sectionsFromOutline (fullText : String) (outline : List OutlineNode) : List SectionRef :=
  sortedBy SectionRef.charStart <| (flattenOutline 0 outline).filterMap fun entry =>
    if ¬ entry.2.1.isEmpty then none
    else if entry.1.charEnd ≤ entry.1.charStart then none
    else
      let stop := min entry.1.charEnd fullText.length
      some {
        title := entry.1.title
        level := entry.1.level
        charStart := entry.1.charStart
        charEnd := stop
        text := slice fullText entry.1.charStart stop }

def sectionsFromFallback (fullText : String) : List SectionRef :=
  (splitIntoSections fullText).zipIdx.map fun entry => {
    title := s!"section_{entry.2}"
    level := 1
    charStart := entry.1.1
    charEnd := entry.1.1 + entry.1.2.length
    text := entry.1.2 }

end Sections

section Tiers

structure Tiers where
  a : List SectionRef
  b : List SectionRef
  c : List SectionRef
deriving DecidableEq

def SectionRef.size (sec : SectionRef) : Nat := sec.text.length

def SectionRef.Holds (sec : SectionRef) (offset : Int) : Prop :=
  sec.charStart ≤ offset ∧ offset < sec.charEnd

instance (sec : SectionRef) : DecidablePred sec.Holds :=
  fun _ => inferInstanceAs (Decidable (_ ∧ _))

/-- The places, in the list of evidence, of the offsets inside the section. -/
def hits (offsets : List Int) (sec : SectionRef) : List Nat :=
  (offsets.zipIdx.filter fun entry => sec.Holds entry.1).map Prod.snd

def tierBProximityChars : Nat := 5000

def close (offsets : List Int) (sec : SectionRef) : Prop :=
  ∃ offset ∈ offsets,
    min (offset - sec.charStart).natAbs (offset - sec.charEnd).natAbs < tierBProximityChars

instance (offsets : List Int) (sec : SectionRef) : Decidable (close offsets sec) :=
  inferInstanceAs (Decidable (∃ _ ∈ _, _))

def isAdjacent (aIndices : List Nat) (idx : Nat) : Prop :=
  (∃ i ∈ aIndices, i + 1 = idx) ∨ idx + 1 ∈ aIndices

instance (aIndices : List Nat) (idx : Nat) : Decidable (isAdjacent aIndices idx) :=
  inferInstanceAs (Decidable (_ ∨ _))

def inTierA (offsets : List Int) (sec : SectionRef) : SectionRef :=
  { sec with evidenceIndices := hits offsets sec, tier := .a }

def inTierB (sec : SectionRef) : SectionRef := { sec with tier := .b }

/-- The second loop: the tiers B and C of the sections without evidence. -/
def placeRest (offsets : List Int) (aIndices : List Nat) (remaining : Int) :
    List (SectionRef × Nat) → List SectionRef × List SectionRef
  | [] => ([], [])
  | (sec, idx) :: rest =>
    if idx ∈ aIndices then placeRest offsets aIndices remaining rest
    else if (isAdjacent aIndices idx ∨ close offsets sec) ∧ sec.size ≤ remaining then
      let placed := placeRest offsets aIndices (remaining - sec.size) rest
      (inTierB sec :: placed.1, placed.2)
    else
      let placed := placeRest offsets aIndices remaining rest
      (placed.1, sec :: placed.2)

/-- The tiers of given sections. -/
def selectSections (sections : List SectionRef) (evidence : List Evidence) (budget : Int) : Tiers :=
  let offsets := evidence.map Evidence.offset
  let chosen := sections.zipIdx.filter fun entry => hits offsets entry.1 ≠ []
  let tierA := chosen.map fun entry => inTierA offsets entry.1
  let remaining := max 0 (budget - total SectionRef.size tierA)
  let placed := placeRest offsets (chosen.map Prod.snd) remaining sections.zipIdx
  ⟨tierA, placed.1, placed.2⟩

def selectRelevantSections (fullText : String) (outline : List OutlineNode)
    (evidence : List Evidence) (budget : Int) : Tiers :=
  let sections := if outline.isEmpty then sectionsFromFallback fullText
    else sectionsFromOutline fullText outline
  if sections = [] then ⟨[], [], []⟩ else selectSections sections evidence budget

end Tiers

section Batches

def makeBatch (evidence : List Evidence) (sections : List SectionRef) : WriterPassBatch where
  sections := sections
  evidence :=
    (sortedBy id (sections.flatMap SectionRef.evidenceIndices).eraseDups).filterMap (evidence[·]?)
  totalChars := total SectionRef.size sections

def buildWriterBatches (tierA tierB : List SectionRef) (evidence : List Evidence)
    (budgetPerPass : Int) : List WriterPassBatch :=
  (pack SectionRef.size budgetPerPass (sortedBy SectionRef.charStart (tierA ++ tierB))).map
    (makeBatch evidence)

end Batches

end Cygnus.Mrp.Writer
