import Cygnus.Mrp.WriterSections
import Mathlib.Algebra.Order.Ring.Rat

/-! What the writer of a page gets to read of a document that is longer than its budget: the opening,
and the sections that score highest for the evidence. -/

namespace Cygnus.Mrp.Writer

open Text Regex Re Sequence Spans Packing

section Scores

/-- A section with its place in the order of the text, its offset and its score. -/
structure ScoredSection where
  index : Nat
  start : Nat
  text : String
  score : Rat
deriving DecidableEq

def ScoredSection.size (sec : ScoredSection) : Nat := sec.text.length

def proximityChars : Nat := 5000

/-- What one piece of evidence adds to the proximity of the section from `first` to `last`. -/
def proximity (first last : Nat) (offset : Int) : Rat :=
  if first ≤ offset ∧ offset < last then 1
  else
    let dist := min (offset - first).natAbs (offset - last).natAbs
    if dist < proximityChars then max 0 (1 - dist / proximityChars) else 0

def directHits (first last : Nat) (offsets : List Int) : Nat :=
  (offsets.filter fun offset : Int => (first : Int) ≤ offset ∧ offset < last).length

def positionBonus (index : Nat) : Rat := max 0 (1 - index * (2 / 100))

def scoreOf (offsets : List Int) (index first last : Nat) : Rat :=
  directHits first last offsets * 3 + (offsets.map (proximity first last)).sum +
    positionBonus index

/-- The sections, those with the highest score first; without evidence, in the order of the text. -/
def scoreSections (sections : List (Nat × String)) (evidence : List Evidence) :
    List ScoredSection :=
  if evidence = [] then
    sections.zipIdx.map fun entry => ⟨entry.2, entry.1.1, entry.1.2, 1⟩
  else
    sortedBy (fun sec => - sec.score) <| sections.zipIdx.map fun entry =>
      ⟨entry.2, entry.1.1, entry.1.2,
        scoreOf (evidence.map Evidence.offset) entry.2 entry.1.1 (entry.1.1 + entry.1.2.length)⟩

end Scores

section Context

/-- A part of the document as the writer gets it, with what follows it. -/
structure ContextPart where
  index : Nat
  start : Nat
  text : String
  note : String := ""
deriving DecidableEq

namespace ContextPart

def size (part : ContextPart) : Nat := part.text.length

def render (part : ContextPart) : String := part.text ++ part.note

/-- The place of the document is one of those shown. -/
def Shows (part : ContextPart) (place : Nat) : Prop :=
  part.start ≤ place ∧ place < part.start + part.size

/-- No place of the document is shown by both. -/
def Apart (part other : ContextPart) : Prop := ∀ place, part.Shows place → ¬ other.Shows place

end ContextPart

def introSize : Nat := 2000

def headingMark : String := "\n#"

/-- The first characters of the document, up to the next heading. -/
def intro (fullText : String) : String :=
  match find headingMark.toList fullText.toList introSize with
  | some introEnd => if 0 < introEnd then slice fullText 0 introEnd else slice fullText 0 introSize
  | none => slice fullText 0 introSize

def truncatedNote : String := "\n\n[…section truncated…]"

def skippedNote : String := "\n\n[…skipped sections…]\n\n"

def leastTruncated : Nat := 1000

def ScoredSection.whole (sec : ScoredSection) : ContextPart := ⟨sec.index, sec.start, sec.text, ""⟩

def ScoredSection.truncated (sec : ScoredSection) (remaining : Nat) : ContextPart :=
  ⟨sec.index, sec.start, slice sec.text 0 remaining, truncatedNote⟩

/-- The loop that adds the scored sections, given the parts added so far and their size. -/
def addSections (budget : Nat) (parts : List ContextPart) (used : Nat) :
    List ScoredSection → List ContextPart × Nat
  | [] => (parts, used)
  | sec :: rest =>
    if budget < used + sec.size then
      if leastTruncated < budget - used then
        (parts ++ [sec.truncated (budget - used)], used + (budget - used))
      else (parts, used)
    else if sec.index = 0 ∧ ∃ part ∈ parts, part.index = 0 then addSections budget parts used rest
    else addSections budget (parts ++ [sec.whole]) (used + sec.size) rest

/-- The parts of the document in the order they are chosen, and how many characters they show. -/
def chosenParts (fullText : String) (evidence : List Evidence) (budget : Nat) :
    List ContextPart × Nat :=
  addSections budget [⟨0, 0, intro fullText, ""⟩] (intro fullText).length
    (scoreSections (splitIntoSections fullText) evidence)

/-- The parts in the order of the document. -/
def contextParts (fullText : String) (evidence : List Evidence) (budget : Nat) :
    List ContextPart :=
  sortedBy ContextPart.index (chosenParts fullText evidence budget).1

def buildSourceContext (fullText : String) (evidence : List Evidence) (budget : Nat) : String :=
  if fullText.length ≤ budget then fullText
  else
    let shown := (chosenParts fullText evidence budget).2
    skippedNote.intercalate ((contextParts fullText evidence budget).map ContextPart.render) ++
      if shown < fullText.length then
        s!"\n\n[…document continues… total {fullText.length} chars, showing {shown}…]"
      else ""

end Context

section Chosen

variable {budget : Nat}

/-- How many characters are shown once the sections follow the opening, the first section left out. -/
def shownAfter (opening : Nat) (before : List ScoredSection) : Nat :=
  opening + total ScoredSection.size (before.filter fun sec => sec.index ≠ 0)

/-- The sections find room one after the other. -/
def Room (budget opening : Nat) (before : List ScoredSection) : Prop :=
  ∀ earlier sec later, before = earlier ++ sec :: later →
    shownAfter opening earlier + sec.size ≤ budget

/-- The section is added after those before it, or a first part of it is. -/
def Added (budget opening : Nat) (before : List ScoredSection) (sec : ScoredSection) : Prop :=
  Room budget opening before ∧
    if shownAfter opening before + sec.size ≤ budget then sec.index ≠ 0
    else shownAfter opening before + leastTruncated < budget

/-- What the loop adds to the opening. -/
def addedParts (budget : Nat) (used : Nat) : List ScoredSection → List ContextPart
  | [] => []
  | sec :: rest =>
    if budget < used + sec.size then
      if leastTruncated < budget - used then [sec.truncated (budget - used)] else []
    else if sec.index = 0 then addedParts budget used rest
    else sec.whole :: addedParts budget (used + sec.size) rest

theorem toList_slice_zero (text : String) (last : Nat) :
    (slice text 0 last).toList = text.toList.take last := by
  have h := toList_slice text 0 last
  rwa [stretch, List.drop_zero, Nat.sub_zero] at h

theorem size_truncated (sec : ScoredSection) (remaining : Nat) :
    (sec.truncated remaining).size = min remaining sec.size := by
  rw [ContextPart.size, ScoredSection.truncated, ← String.length_toList, toList_slice_zero,
    List.length_take, String.length_toList]
  rfl

theorem shownAfter_nil (opening : Nat) : shownAfter opening [] = opening := rfl

theorem shownAfter_cons (opening : Nat) (sec : ScoredSection) (before : List ScoredSection) :
    shownAfter opening (sec :: before) =
      shownAfter (if sec.index = 0 then opening else opening + sec.size) before := by
  unfold shownAfter
  by_cases hfirst : sec.index = 0
  · rw [List.filter_cons_of_neg (by simpa using hfirst), if_pos hfirst]
  · rw [List.filter_cons_of_pos (by simpa using hfirst), if_neg hfirst, total_cons,
      Nat.add_assoc]

theorem room_nil (budget opening : Nat) : Room budget opening [] := by
  intro earlier sec later h
  cases earlier <;> cases h

theorem room_cons {opening : Nat} {sec : ScoredSection} {before : List ScoredSection} :
    Room budget opening (sec :: before) ↔ opening + sec.size ≤ budget ∧
      Room budget (if sec.index = 0 then opening else opening + sec.size) before := by
  constructor
  · intro h
    refine ⟨h [] sec before rfl, fun earlier other later hbefore => ?_⟩
    have hroom := h (sec :: earlier) other later (by rw [hbefore, List.cons_append])
    rwa [shownAfter_cons] at hroom
  · rintro ⟨hfirst, hrest⟩ earlier other later h
    cases earlier with
    | nil =>
      obtain ⟨rfl, -⟩ := List.cons_eq_cons.mp h
      exact hfirst
    | cons _ earlier =>
      obtain ⟨rfl, hbefore⟩ := List.cons_eq_cons.mp h
      rw [shownAfter_cons]
      exact hrest earlier other later hbefore

theorem addSections_eq (parts : List ContextPart) (used : Nat) (sections : List ScoredSection)
    (hfirst : ∃ part ∈ parts, part.index = 0) :
    addSections budget parts used sections =
      (parts ++ addedParts budget used sections,
        used + total ContextPart.size (addedParts budget used sections)) := by
  induction sections generalizing parts used with
  | nil => simp [addSections, addedParts]
  | cons sec rest ih =>
    unfold addSections addedParts
    split
    · rename_i hfull
      split
      · have hsize : (sec.truncated (budget - used)).size = budget - used := by
          rw [size_truncated]
          omega
        simp [hsize]
      · simp
    · by_cases hindex : sec.index = 0
      · rw [if_pos ⟨hindex, hfirst⟩, if_pos hindex]
        exact ih parts used hfirst
      · have hmore : ∃ part ∈ parts ++ [sec.whole], part.index = 0 := by
          obtain ⟨part, hpart, hzero⟩ := hfirst
          exact ⟨part, List.mem_append_left _ hpart, hzero⟩
        rw [if_neg (fun h => hindex h.1), if_neg hindex, ih _ _ hmore, List.append_assoc,
          List.singleton_append]
        rw [total_cons, Nat.add_assoc]
        rfl

theorem addedParts_within {used : Nat} (h : used ≤ budget) (sections : List ScoredSection) :
    used + total ContextPart.size (addedParts budget used sections) ≤ budget := by
  induction sections generalizing used with
  | nil => exact h
  | cons sec rest ih =>
    unfold addedParts
    split
    · split
      · rw [total_singleton, size_truncated]
        omega
      · exact h
    · split
      · exact ih h
      · have hmore : used + sec.size ≤ budget := by omega
        rw [total_cons, ← Nat.add_assoc]
        exact ih hmore

/-- The part is the section, or the beginning of it. -/
structure Begins (sec : ScoredSection) (part : ContextPart) : Prop where
  start : part.start = sec.start
  read : part.text.toList <+: sec.text.toList
  some : 0 < sec.size → 0 < part.size

theorem begins_whole (sec : ScoredSection) : Begins sec sec.whole :=
  ⟨rfl, List.prefix_refl _, id⟩

theorem begins_truncated (sec : ScoredSection) {remaining : Nat} (h : 0 < remaining) :
    Begins sec (sec.truncated remaining) := by
  refine ⟨rfl, ?_, fun hsome => ?_⟩
  · rw [ScoredSection.truncated, toList_slice_zero]
    exact List.take_prefix _ _
  · rw [size_truncated]
    omega

/-- The parts come from some of the sections, in their order. -/
theorem addedParts_sublist (used : Nat) (sections : List ScoredSection) :
    ∃ chosen, chosen.Sublist sections ∧
      List.Forall₂ Begins chosen (addedParts budget used sections) := by
  induction sections generalizing used with
  | nil => exact ⟨[], List.Sublist.refl _, .nil⟩
  | cons sec rest ih =>
    unfold addedParts
    split
    · split
      · rename_i hlong
        refine ⟨[sec], ?_, .cons (begins_truncated sec (by omega)) .nil⟩
        exact (List.nil_sublist rest).cons_cons sec
      · exact ⟨[], List.nil_sublist _, .nil⟩
    · split
      · obtain ⟨chosen, hsub, hbegins⟩ := ih used
        exact ⟨chosen, hsub.cons sec, hbegins⟩
      · obtain ⟨chosen, hsub, hbegins⟩ := ih (used + sec.size)
        exact ⟨sec :: chosen, hsub.cons_cons sec, .cons (begins_whole sec) hbegins⟩

theorem added_nil {opening : Nat} {sec : ScoredSection} :
    Added budget opening [] sec ↔
      if opening + sec.size ≤ budget then sec.index ≠ 0 else opening + leastTruncated < budget := by
  rw [Added, shownAfter_nil]
  exact and_iff_right (room_nil budget opening)

theorem added_cons {opening : Nat} {first sec : ScoredSection} {before : List ScoredSection} :
    Added budget opening (first :: before) sec ↔ opening + first.size ≤ budget ∧
      Added budget (if first.index = 0 then opening else opening + first.size) before sec := by
  rw [Added, Added, room_cons, shownAfter_cons, and_assoc]

/-- The offsets of the parts are those of the sections that are added. -/
theorem mem_addedParts {used start : Nat} {sections : List ScoredSection} :
    (∃ part ∈ addedParts budget used sections, part.start = start) ↔
      ∃ before sec after, sections = before ++ sec :: after ∧ Added budget used before sec ∧
        sec.start = start := by
  induction sections generalizing used with
  | nil =>
    constructor
    · rintro ⟨part, hpart, -⟩
      cases hpart
    · rintro ⟨before, sec, after, h, -⟩
      cases before <;> cases h
  | cons first rest ih =>
    -- the sections that are added are the first one, if it is, and those added after it
    have hsplit : (∃ before sec after, first :: rest = before ++ sec :: after ∧
        Added budget used before sec ∧ sec.start = start) ↔
        (Added budget used [] first ∧ first.start = start) ∨ (used + first.size ≤ budget ∧
          ∃ part ∈ addedParts budget (if first.index = 0 then used else used + first.size) rest,
            part.start = start) := by
      rw [ih]
      constructor
      · rintro ⟨before, sec, after, h, hadded, hstart⟩
        cases before with
        | nil =>
          obtain ⟨rfl, -⟩ := List.cons_eq_cons.mp h
          exact .inl ⟨hadded, hstart⟩
        | cons _ before =>
          obtain ⟨rfl, hrest⟩ := List.cons_eq_cons.mp h
          obtain ⟨hroom, hlater⟩ := added_cons.mp hadded
          exact .inr ⟨hroom, before, sec, after, hrest, hlater, hstart⟩
      · rintro (⟨hadded, hstart⟩ | ⟨hroom, before, sec, after, hrest, hlater, hstart⟩)
        · exact ⟨[], first, rest, rfl, hadded, hstart⟩
        · exact ⟨first :: before, sec, after, by rw [hrest, List.cons_append],
            added_cons.mpr ⟨hroom, hlater⟩, hstart⟩
    rw [hsplit, added_nil, addedParts]
    by_cases hfull : budget < used + first.size
    · rw [if_pos hfull, if_neg (Nat.not_le.mpr hfull)]
      split
      · rename_i hlong
        have hmore : used + leastTruncated < budget := by omega
        simp [hmore, Nat.not_le.mpr hfull, ScoredSection.truncated]
      · rename_i hshort
        have hmore : ¬ used + leastTruncated < budget := by omega
        simp [hmore, Nat.not_le.mpr hfull]
    · rw [if_neg hfull, if_pos (Nat.le_of_not_lt hfull)]
      by_cases hindex : first.index = 0
      · simp [hindex, Nat.le_of_not_lt hfull]
      · simp [hindex, Nat.le_of_not_lt hfull, ScoredSection.whole]

end Chosen

section Cuts

/-- The sections are stretches of the text, none of them empty, that follow one another. -/
structure Cuts (text : String) (sections : List (Nat × String)) : Prop where
  read : ∀ sec ∈ sections, slice text sec.1 (sec.1 + sec.2.length : Nat) = sec.2
  some : ∀ sec ∈ sections, 0 < sec.2.length
  apart : sections.Pairwise fun first second => first.1 + first.2.length ≤ second.1

theorem cuts_of_spans {text : String} {spans : List Span}
    (hspans : ∀ span ∈ spans, span.1 < span.2 ∧ span.2 ≤ text.length)
    (hapart : spans.Pairwise fun first second => first.2 ≤ second.1) :
    Cuts text (spans.map (cutAt text)) := by
  have hstop : ∀ span ∈ spans, span.1 + (cutAt text span).2.length = span.2 := by
    intro span hspan
    obtain ⟨hlt, hle⟩ := hspans span hspan
    rw [length_cutAt (Nat.le_of_lt hlt) hle]
    omega
  constructor
  · intro sec hsec
    obtain ⟨span, hspan, rfl⟩ := List.mem_map.mp hsec
    change slice text span.1 ((span.1 + (cutAt text span).2.length : Nat)) = (cutAt text span).2
    rw [hstop span hspan]
    rfl
  · intro sec hsec
    obtain ⟨span, hspan, rfl⟩ := List.mem_map.mp hsec
    have := hstop span hspan
    have := (hspans span hspan).1
    omega
  · rw [List.pairwise_map]
    refine hapart.imp_of_mem ?_
    intro first second hfirst _ hle
    change first.1 + (cutAt text first).2.length ≤ second.1
    rwa [hstop first hfirst]

theorem splitIntoSections_cuts (text : String) : Cuts text (splitIntoSections text) := by
  cases hstarts : (headingPattern.finditer text).map Re.Match.start with
  | nil =>
    obtain ⟨count, hcount, -, hinside⟩ := windowStarts_eq text
    have hbounds : ∀ j < count, windowSize * j < sectionEnd text (windowSize * j) ∧
        sectionEnd text (windowSize * j) ≤ min (windowSize * j + windowSize) text.length :=
      fun j hj => sectionEnd_le text (hinside j hj)
    rw [splitIntoSections_paragraphs hstarts hcount]
    refine cuts_of_spans ?_ ?_
    · intro span hspan
      obtain ⟨j, hj, rfl⟩ := List.mem_map.mp hspan
      have hspan := hbounds j (by simpa using hj)
      exact ⟨hspan.1, hspan.2.trans (Nat.min_le_right _ _)⟩
    · rw [List.pairwise_map]
      refine (List.pairwise_lt_range' 1).imp_of_mem ?_
      intro j k hj _ hlt
      have hspan := (hbounds j (by simpa using hj)).2
      have hnext : windowSize * (j + 1) ≤ windowSize * k := Nat.mul_le_mul_left _ hlt
      rw [Nat.mul_succ] at hnext
      exact (hspan.trans (Nat.min_le_left _ _)).trans hnext
  | cons first rest =>
    obtain ⟨spans, htiles, hsections, hsome⟩ := splitIntoSections_headings hstarts
    rw [hsections]
    exact cuts_of_spans (fun span hspan => ⟨hsome span hspan, htiles.stop_le hspan⟩) htiles.apart

end Cuts

section Extracts

variable {fullText : String} {budget : Nat}

/-- The parts are stretches of the document, with no more characters than the budget, and no place of
the document is in two of them. -/
structure Extract (fullText : String) (budget : Nat) (parts : List ContextPart) : Prop where
  read : ∀ part ∈ parts, slice fullText part.start (part.start + part.size : Nat) = part.text
  within : total ContextPart.size parts ≤ budget
  once : parts.Pairwise ContextPart.Apart

theorem Extract.perm {parts parts' : List ContextPart} (h : Extract fullText budget parts)
    (hperm : parts.Perm parts') : Extract fullText budget parts' := by
  refine ⟨fun part hpart => h.read part (hperm.mem_iff.mpr hpart), ?_, ?_⟩
  · exact (total_perm ContextPart.size hperm).symm.le.trans h.within
  · exact hperm.pairwise h.once fun hapart place hother hpart => hapart place hpart hother

theorem intro_eq (fullText : String) :
    ∃ stop, 0 < stop ∧ intro fullText = slice fullText 0 (stop : Nat) := by
  unfold intro
  split
  · rename_i introEnd _
    split
    · exact ⟨introEnd, ‹_›, rfl⟩
    · exact ⟨introSize, by decide, rfl⟩
  · exact ⟨introSize, by decide, rfl⟩

theorem intro_of_none (h : find headingMark.toList fullText.toList introSize = none) :
    intro fullText = slice fullText 0 introSize := by
  unfold intro
  split
  · rename_i introEnd hsome
    rw [h] at hsome
    cases hsome
  · rfl

theorem intro_read (fullText : String) :
    slice fullText 0 (intro fullText).length = intro fullText := by
  obtain ⟨stop, -, hintro⟩ := intro_eq fullText
  apply String.toList_injective
  rw [hintro, toList_slice_zero, toList_slice_zero, ← String.length_toList, toList_slice_zero,
    List.length_take, List.take_eq_take_iff]
  omega

def ScoredSection.section (sec : ScoredSection) : Nat × String := (sec.start, sec.text)

/-- Scoring only reorders the sections. -/
theorem scoreSections_perm (sections : List (Nat × String)) (evidence : List Evidence) :
    ((scoreSections sections evidence).map ScoredSection.section).Perm sections := by
  have hfst := List.zipIdx_map_fst 0 sections
  unfold scoreSections
  split
  · rw [List.map_map]
    exact List.Perm.of_eq hfst
  · refine ((perm_sortedBy _ _).map _).trans ?_
    rw [List.map_map]
    exact List.Perm.of_eq hfst

/-- One of the sections ends before the other starts. -/
def Separate (sec other : Nat × String) : Prop :=
  sec.1 + sec.2.length ≤ other.1 ∨ other.1 + other.2.length ≤ sec.1

theorem scoreSections_separate {sections : List (Nat × String)} (h : Cuts fullText sections)
    (evidence : List Evidence) :
    (scoreSections sections evidence).Pairwise fun sec other =>
      Separate sec.section other.section := by
  rw [← List.pairwise_map]
  exact (scoreSections_perm sections evidence).symm.pairwise (h.apart.imp .inl) Or.symm

theorem Begins.size_le {sec : ScoredSection} {part : ContextPart} (h : Begins sec part) :
    part.size ≤ sec.size := by
  have := h.read.length_le
  rwa [String.length_toList, String.length_toList] at this

theorem Begins.apart {sec other : ScoredSection} {part part' : ContextPart} (h : Begins sec part)
    (h' : Begins other part') (hseparate : Separate sec.section other.section) :
    part.Apart part' := by
  intro place hpart hpart'
  have hstart := h.start
  have hstart' := h'.start
  have hsize : part.size ≤ sec.text.length := h.size_le
  have hsize' : part'.size ≤ other.text.length := h'.size_le
  simp only [ContextPart.Shows, Separate, ScoredSection.section] at *
  omega

theorem pairwise_apart {chosen : List ScoredSection} {parts : List ContextPart}
    (h : List.Forall₂ Begins chosen parts)
    (hchosen : chosen.Pairwise fun sec other => Separate sec.section other.section) :
    parts.Pairwise ContextPart.Apart := by
  induction h with
  | nil => exact .nil
  | cons hbegins hrest ih =>
    rw [List.pairwise_cons] at hchosen ⊢
    refine ⟨fun part hpart => ?_, ih hchosen.2⟩
    obtain ⟨other, hother, hbegins'⟩ := exists_mem_of_forall₂ hrest hpart
    exact hbegins.apart hbegins' (hchosen.1 other hother)

theorem Begins.read_slice {sec : ScoredSection} {part : ContextPart} (h : Begins sec part)
    (hsec : slice fullText sec.section.1 (sec.section.1 + sec.section.2.length : Nat) =
      sec.section.2) :
    slice fullText part.start (part.start + part.size : Nat) = part.text := by
  simp only [ScoredSection.section] at hsec
  have hread := congrArg String.toList hsec
  rw [toList_slice, stretch, Nat.add_sub_cancel_left] at hread
  have hpart := List.prefix_iff_eq_take.mp h.read
  rw [← hread, List.take_take, String.length_toList, Nat.min_eq_left (by exact h.size_le)] at hpart
  apply String.toList_injective
  rw [toList_slice, stretch, Nat.add_sub_cancel_left, h.start, hpart]
  rfl

/-- The opening of a document, as the first part of it that is shown. -/
def openingPart (opening : String) : ContextPart := ⟨0, 0, opening, ""⟩

@[simp] theorem size_openingPart (opening : String) : (openingPart opening).size = opening.length :=
  rfl

theorem openingPart_read {opening : String}
    (h : slice fullText 0 opening.length = opening) :
    slice fullText (openingPart opening).start
      ((openingPart opening).start + (openingPart opening).size : Nat) =
        (openingPart opening).text := by
  rw [ContextPart.size, openingPart, Nat.zero_add]
  exact h

theorem addSections_opening (opening : String) (sections : List ScoredSection) :
    addSections budget [openingPart opening] opening.length sections =
      (openingPart opening :: addedParts budget opening.length sections,
        opening.length + total ContextPart.size (addedParts budget opening.length sections)) :=
  addSections_eq _ _ _ ⟨openingPart opening, List.mem_singleton_self _, rfl⟩

/-- A part of a section shares no place with the opening exactly if the section starts after it. -/
theorem opening_apart_iff {opening : String} {sec : ScoredSection} {part : ContextPart}
    (h : Begins sec part) (hsome : 0 < sec.size) :
    (openingPart opening).Apart part ↔ opening.length ≤ part.start := by
  have hpart := h.some hsome
  have hshows : ∀ place, (openingPart opening).Shows place ↔ place < opening.length := by
    intro place
    rw [ContextPart.Shows, openingPart, ContextPart.size, Nat.zero_add]
    exact and_iff_right (Nat.zero_le place)
  constructor
  · intro hapart
    by_contra hinside
    exact hapart part.start ((hshows _).mpr (Nat.lt_of_not_le hinside))
      ⟨Nat.le_refl _, Nat.lt_add_of_pos_right hpart⟩
  · intro hafter place hopening hplace
    exact absurd (hplace.1.trans_lt ((hshows place).mp hopening)) (Nat.not_lt.mpr hafter)

/-- An opening and the sections added to it fit the budget and repeat nothing exactly if the opening
fits the budget and no section that starts inside the opening is added. -/
theorem opened_extract_iff {opening : String} {sections : List (Nat × String)}
    {scored : List ScoredSection} (hcuts : Cuts fullText sections)
    (hopening : slice fullText 0 opening.length = opening)
    (hperm : (scored.map ScoredSection.section).Perm sections)
    (hseparate : scored.Pairwise fun sec other => Separate sec.section other.section) :
    Extract fullText budget (openingPart opening :: addedParts budget opening.length scored) ↔
      opening.length ≤ budget ∧ ∀ before sec after, scored = before ++ sec :: after →
        sec.start < opening.length → ¬ Added budget opening.length before sec := by
  obtain ⟨chosen, hsub, hbegins⟩ := @addedParts_sublist budget opening.length scored
  have hmem : ∀ sec ∈ chosen, sec.section ∈ sections := fun sec hsec =>
    hperm.mem_iff.mp (List.mem_map_of_mem (hsub.subset hsec))
  constructor
  · intro hextract
    constructor
    · have hwithin := hextract.within
      rw [total_cons] at hwithin
      exact (Nat.le_add_right _ _).trans hwithin
    · intro before sec after hsections hinside hadded
      obtain ⟨part, hpart, hstart⟩ :=
        mem_addedParts.mpr ⟨before, sec, after, hsections, hadded, rfl⟩
      obtain ⟨other, hother, hbegin⟩ := exists_mem_of_forall₂ hbegins hpart
      have hapart := (List.pairwise_cons.mp hextract.once).1 part hpart
      have := (opening_apart_iff hbegin (hcuts.some _ (hmem other hother))).mp hapart
      omega
  · rintro ⟨hopens, hoverlap⟩
    constructor
    · intro part hpart
      rcases List.mem_cons.mp hpart with rfl | hlater
      · exact openingPart_read hopening
      · obtain ⟨sec, hsec, hbegin⟩ := exists_mem_of_forall₂ hbegins hlater
        exact hbegin.read_slice (hcuts.read _ (hmem sec hsec))
    · rw [total_cons]
      exact addedParts_within hopens _
    · refine List.pairwise_cons.mpr ⟨?_, pairwise_apart hbegins (hseparate.sublist hsub)⟩
      intro part hpart
      obtain ⟨sec, hsec, hbegin⟩ := exists_mem_of_forall₂ hbegins hpart
      rw [opening_apart_iff hbegin (hcuts.some _ (hmem sec hsec))]
      by_contra hinside
      obtain ⟨before, other, after, hsections, hadded, hstart⟩ :=
        mem_addedParts.mp ⟨part, hpart, rfl⟩
      exact hoverlap before other after hsections (by omega) hadded

theorem chosenParts_eq (fullText : String) (evidence : List Evidence) (budget : Nat) :
    chosenParts fullText evidence budget = addSections budget [openingPart (intro fullText)]
      (intro fullText).length (scoreSections (splitIntoSections fullText) evidence) := by
  rw [chosenParts, openingPart]

theorem contextParts_perm (fullText : String) (evidence : List Evidence) (budget : Nat) :
    (contextParts fullText evidence budget).Perm (openingPart (intro fullText) ::
      addedParts budget (intro fullText).length
        (scoreSections (splitIntoSections fullText) evidence)) := by
  rw [contextParts, chosenParts_eq, addSections_opening]
  exact perm_sortedBy _ _

/-- The writer is told how many characters it is shown. -/
theorem chosenParts_shown (fullText : String) (evidence : List Evidence) (budget : Nat) :
    (chosenParts fullText evidence budget).2 =
      total ContextPart.size (contextParts fullText evidence budget) := by
  rw [total_perm ContextPart.size (contextParts_perm fullText evidence budget), chosenParts_eq,
    addSections_opening, total_cons, size_openingPart]

end Extracts

/-- Three headings on the first lines of a document a little longer than its opening. -/
def threeHeadings : List Char :=
  '#' :: ' ' :: 'A' :: '\n' :: '#' :: ' ' :: 'B' :: '\n' :: '#' :: ' ' :: 'C' :: '\n' ::
    List.replicate 1993 'x'

theorem threeHeadings_starts :
    (headingPattern.finditer (String.ofList threeHeadings)).map Re.Match.start = [0, 4, 8] := by
  rw [Re.finditer, String.toList_ofList]
  decide +kernel

theorem threeHeadings_find :
    find headingMark.toList (String.ofList threeHeadings).toList introSize = none := by
  rw [String.toList_ofList]
  decide +kernel

theorem threeHeadings_length : (String.ofList threeHeadings).length = 2005 := by
  rw [String.length_ofList, threeHeadings]
  simp only [List.length_cons, List.length_replicate]

theorem length_slice_threeHeadings {first last : Nat} (hle : first ≤ last) (hlast : last ≤ 2005) :
    (slice (String.ofList threeHeadings) first last).length = last - first :=
  @length_cutAt _ (first, last) hle (hlast.trans threeHeadings_length.ge)

theorem threeHeadings_intro : (intro (String.ofList threeHeadings)).length = introSize :=
  (congrArg String.length (intro_of_none threeHeadings_find)).trans
    (length_slice_threeHeadings (Nat.zero_le introSize) (by decide))

theorem scoreSections_three {text : String} {second third : Nat}
    (h : (headingPattern.finditer text).map Re.Match.start = [0, second, third]) :
    scoreSections (splitIntoSections text) [] =
      [⟨0, 0, slice text (0 : Nat) second, 1⟩] ++ ⟨1, second, slice text second third, 1⟩ ::
        [⟨2, third, slice text third text.length, 1⟩] := by
  rw [splitIntoSections, h]
  rfl

end Cygnus.Mrp.Writer
