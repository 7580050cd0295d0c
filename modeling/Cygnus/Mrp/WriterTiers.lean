import Cygnus.Mrp.WriterSections
import Cygnus.Substrate.OutlineLaws

/-! The tiers share out the sections, the passes share out the tiers, and with them the evidence. -/

namespace Cygnus.Mrp.Writer

open Text Regex Re Sequence Spans Packing Substrate

section Tiers

/-- Some evidence is inside the section. -/
def Backed (offsets : List Int) (sec : SectionRef) : Prop := ∃ offset ∈ offsets, sec.Holds offset

/-- Every section is in one of the tiers, in the order of the sections; it is in the first one if some
evidence is inside. -/
inductive Shared (offsets : List Int) :
    List SectionRef → List SectionRef → List SectionRef → List SectionRef → Prop
  | nil : Shared offsets [] [] [] []
  | inA {sec sections a b c} (h : Backed offsets sec) (rest : Shared offsets sections a b c) :
      Shared offsets (sec :: sections) (inTierA offsets sec :: a) b c
  | inB {sec sections a b c} (h : ¬ Backed offsets sec) (rest : Shared offsets sections a b c) :
      Shared offsets (sec :: sections) a (inTierB sec :: b) c
  | inC {sec sections a b c} (h : ¬ Backed offsets sec) (rest : Shared offsets sections a b c) :
      Shared offsets (sec :: sections) a b (sec :: c)

variable {offsets : List Int} {sec : SectionRef} {sections a b c : List SectionRef}

theorem mem_hits {i : Nat} : i ∈ hits offsets sec ↔ ∃ offset, offsets[i]? = some offset ∧
    sec.Holds offset := by
  simp only [hits, List.mem_map, List.mem_filter, decide_eq_true_eq]
  constructor
  · rintro ⟨⟨offset, j⟩, ⟨hmem, hholds⟩, rfl⟩
    exact ⟨offset, List.mem_zipIdx_iff_getElem?.mp hmem, hholds⟩
  · rintro ⟨offset, hget, hholds⟩
    exact ⟨(offset, i), ⟨List.mem_zipIdx_iff_getElem?.mpr hget, hholds⟩, rfl⟩

theorem hits_ne_nil : hits offsets sec ≠ [] ↔ Backed offsets sec := by
  constructor
  · intro hne
    obtain ⟨i, hi⟩ := List.exists_mem_of_ne_nil _ hne
    obtain ⟨offset, hget, hholds⟩ := mem_hits.mp hi
    exact ⟨offset, List.mem_of_getElem? hget, hholds⟩
  · rintro ⟨offset, hmem, hholds⟩
    obtain ⟨i, hget⟩ := List.mem_iff_getElem?.mp hmem
    exact List.ne_nil_of_mem (mem_hits.mpr ⟨offset, hget, hholds⟩)

theorem shared_of_indices {aIndices : List Nat} {n : Nat} {remaining : Int}
    (h : ∀ entry ∈ sections.zipIdx n, entry.2 ∈ aIndices ↔ Backed offsets entry.1) :
    Shared offsets sections
      (((sections.zipIdx n).filter fun entry => hits offsets entry.1 ≠ []).map fun entry =>
        inTierA offsets entry.1)
      (placeRest offsets aIndices remaining (sections.zipIdx n)).1
      (placeRest offsets aIndices remaining (sections.zipIdx n)).2 := by
  induction sections generalizing n remaining with
  | nil => exact .nil
  | cons sec sections ih =>
    rw [List.zipIdx_cons] at h ⊢
    obtain ⟨hhere, hrest⟩ := List.forall_mem_cons.mp h
    dsimp only at hhere
    rw [List.filter_cons, placeRest]
    by_cases hbacked : Backed offsets sec
    · simp only [hits_ne_nil, hbacked, decide_true, if_true, List.map_cons, hhere.mpr hbacked]
      exact .inA hbacked (by simpa only [hits_ne_nil] using ih hrest)
    · have hout : n ∉ aIndices := fun hmem => hbacked (hhere.mp hmem)
      simp only [hits_ne_nil, hbacked, decide_false, Bool.false_eq_true, if_false, hout]
      split
      · exact .inB hbacked (by simpa only [hits_ne_nil] using ih hrest)
      · exact .inC hbacked (by simpa only [hits_ne_nil] using ih hrest)

theorem selectSections_shared (sections : List SectionRef) (evidence : List Evidence)
    (budget : Int) : Shared (evidence.map Evidence.offset) sections
      (selectSections sections evidence budget).a (selectSections sections evidence budget).b
      (selectSections sections evidence budget).c := by
  apply shared_of_indices
  rintro ⟨sec, idx⟩ hmem
  have hget := List.mem_zipIdx_iff_getElem?.mp hmem
  simp only [List.mem_map, List.mem_filter, decide_eq_true_eq, hits_ne_nil]
  constructor
  · rintro ⟨⟨other, j⟩, ⟨hother, hbacked⟩, rfl⟩
    have hget' := List.mem_zipIdx_iff_getElem?.mp hother
    rw [hget] at hget'
    obtain rfl : sec = other := Option.some.inj hget'
    exact hbacked
  · intro hbacked
    exact ⟨(sec, idx), ⟨hmem, hbacked⟩, rfl⟩

theorem placeRest_budget {aIndices : List Nat} {remaining : Int} {entries : List (SectionRef × Nat)}
    (h : 0 ≤ remaining) :
    (total SectionRef.size (placeRest offsets aIndices remaining entries).1 : Int) ≤ remaining := by
  induction entries generalizing remaining with
  | nil => exact h
  | cons entry rest ih =>
    unfold placeRest
    split
    · exact ih h
    · split
      · rename_i hroom
        have hrest := ih (Int.sub_nonneg_of_le hroom.2)
        simp only [total, List.map_cons, List.sum_cons] at hrest ⊢
        have hsame : (inTierB entry.1).size = entry.1.size := rfl
        omega
      · exact ih h

theorem Shared.mem_a (h : Shared offsets sections a b c) {x : SectionRef} :
    x ∈ a ↔ ∃ sec ∈ sections, Backed offsets sec ∧ x = inTierA offsets sec := by
  induction h with
  | nil => simp
  | inA hbacked _ ih => simp [ih, hbacked]
  | inB hbacked _ ih => simp [ih, hbacked]
  | inC hbacked _ ih => simp [ih, hbacked]

theorem Shared.of_mem_b (h : Shared offsets sections a b c) {x : SectionRef} (hx : x ∈ b) :
    ∃ sec ∈ sections, x = inTierB sec := by
  induction h with
  | nil => cases hx
  | inA _ _ ih =>
    obtain ⟨sec, hsec, rfl⟩ := ih hx
    exact ⟨sec, List.mem_cons_of_mem _ hsec, rfl⟩
  | inB _ _ ih =>
    rcases List.mem_cons.mp hx with rfl | hlater
    · exact ⟨_, List.mem_cons_self, rfl⟩
    · obtain ⟨sec, hsec, rfl⟩ := ih hlater
      exact ⟨sec, List.mem_cons_of_mem _ hsec, rfl⟩
  | inC _ _ ih =>
    obtain ⟨sec, hsec, rfl⟩ := ih hx
    exact ⟨sec, List.mem_cons_of_mem _ hsec, rfl⟩

end Tiers

section Batches

/-- The batches hold the sections in the order of the text, each filled as far as it goes. -/
structure Batched (budget : Int) (sections : List SectionRef) (batches : List WriterPassBatch) :
    Prop where
  whole : batches.flatMap WriterPassBatch.sections = sortedBy SectionRef.charStart sections
  nonempty : ∀ batch ∈ batches, batch.sections ≠ []
  chars : ∀ batch ∈ batches, batch.totalChars = total SectionRef.size batch.sections
  fits : ∀ batch ∈ batches, 1 < batch.sections.length → (batch.totalChars : Int) ≤ budget
  greedy : batches.IsChain fun batch next =>
    ∀ sec ∈ next.sections.head?, budget < (batch.totalChars + sec.size : Nat)

theorem buildWriterBatches_batched (tierA tierB : List SectionRef) (evidence : List Evidence)
    (budget : Int) :
    Batched budget (tierA ++ tierB) (buildWriterBatches tierA tierB evidence budget) := by
  refine ⟨?_, ?_, ?_, ?_, ?_⟩
  · rw [buildWriterBatches, List.flatMap_map]
    simp only [makeBatch, List.flatMap_id']
    exact pack_flatten _
  · intro batch hbatch
    obtain ⟨run, hrun, rfl⟩ := List.mem_map.mp hbatch
    exact pack_ne_nil hrun
  · intro batch hbatch
    obtain ⟨run, -, rfl⟩ := List.mem_map.mp hbatch
    rfl
  · intro batch hbatch
    obtain ⟨run, hrun, rfl⟩ := List.mem_map.mp hbatch
    exact pack_fits hrun
  · rw [buildWriterBatches, List.isChain_map]
    exact pack_full _

/-- The tiers share out the sections within the budget, and the passes the tiers A and B. -/
theorem selectSections_batched (sections : List SectionRef) (evidence : List Evidence)
    (budget : Int) :
    let tiers := selectSections sections evidence budget
    Shared (evidence.map Evidence.offset) sections tiers.a tiers.b tiers.c ∧
      (total SectionRef.size tiers.b : Int) ≤ max 0 (budget - total SectionRef.size tiers.a) ∧
      ∀ budgetPerPass, Batched budgetPerPass (tiers.a ++ tiers.b)
        (buildWriterBatches tiers.a tiers.b evidence budgetPerPass) := by
  refine ⟨selectSections_shared sections evidence budget, ?_, ?_⟩
  · exact placeRest_budget (le_max_left _ _)
  · exact fun budgetPerPass => buildWriterBatches_batched _ _ _ _

end Batches

section Evidence

variable {sections : List SectionRef} {evidence : List Evidence} {row : Evidence}

theorem mem_makeBatch {run : List SectionRef} : row ∈ (makeBatch evidence run).evidence ↔
    ∃ sec ∈ run, ∃ i ∈ sec.evidenceIndices, evidence[i]? = some row := by
  simp only [makeBatch, List.mem_filterMap, mem_sortedBy, List.mem_eraseDups, List.mem_flatMap]
  constructor
  · rintro ⟨i, ⟨sec, hsec, hi⟩, hget⟩
    exact ⟨sec, hsec, i, hi, hget⟩
  · rintro ⟨sec, hsec, i, hi, hget⟩
    exact ⟨i, ⟨sec, hsec, hi⟩, hget⟩

theorem mem_buildWriterBatches {tierA tierB : List SectionRef} {budget : Int} :
    (∃ batch ∈ buildWriterBatches tierA tierB evidence budget, row ∈ batch.evidence) ↔
      ∃ sec ∈ tierA ++ tierB, ∃ i ∈ sec.evidenceIndices, evidence[i]? = some row := by
  have hruns : ∀ sec : SectionRef, sec ∈ tierA ++ tierB ↔ ∃ run ∈ pack SectionRef.size budget
      (sortedBy SectionRef.charStart (tierA ++ tierB)), sec ∈ run := by
    intro sec
    rw [← List.mem_flatten, pack_flatten, mem_sortedBy]
  simp only [buildWriterBatches, List.mem_map, exists_exists_and_eq_and, mem_makeBatch, hruns]
  constructor
  · rintro ⟨run, hrun, sec, hsec, hi⟩
    exact ⟨sec, ⟨run, hrun, hsec⟩, hi⟩
  · rintro ⟨sec, ⟨run, hrun, hsec⟩, hi⟩
    exact ⟨run, hrun, sec, hsec, hi⟩

/-- A row reaches the writer exactly if a section holds its offset. -/
theorem row_carried_iff (hfresh : ∀ sec ∈ sections, sec.evidenceIndices = []) (hrow : row ∈ evidence)
    (budget budgetPerPass : Int) :
    (∃ batch ∈ buildWriterBatches (selectSections sections evidence budget).a
        (selectSections sections evidence budget).b evidence budgetPerPass, row ∈ batch.evidence) ↔
      ∃ sec ∈ sections, sec.Holds row.offset := by
  have hshared := selectSections_shared sections evidence budget
  rw [mem_buildWriterBatches]
  constructor
  · rintro ⟨kept, hkept, i, hi, hget⟩
    rcases List.mem_append.mp hkept with hA | hB
    · obtain ⟨sec, hsec, -, rfl⟩ := hshared.mem_a.mp hA
      obtain ⟨offset, hoffset, hholds⟩ := mem_hits.mp hi
      rw [List.getElem?_map, hget] at hoffset
      obtain rfl : row.offset = offset := Option.some.inj hoffset
      exact ⟨sec, hsec, hholds⟩
    · obtain ⟨sec, hsec, rfl⟩ := hshared.of_mem_b hB
      have hnone : (inTierB sec).evidenceIndices = [] := hfresh sec hsec
      rw [hnone] at hi
      cases hi
  · rintro ⟨sec, hsec, hholds⟩
    obtain ⟨i, hget⟩ := List.mem_iff_getElem?.mp hrow
    have hoffset : (evidence.map Evidence.offset)[i]? = some row.offset := by
      rw [List.getElem?_map, hget]
      rfl
    have hbacked : Backed (evidence.map Evidence.offset) sec :=
      ⟨row.offset, List.mem_of_getElem? hoffset, hholds⟩
    exact ⟨_, List.mem_append_left _ (hshared.mem_a.mpr ⟨sec, hsec, hbacked, rfl⟩), i,
      mem_hits.mpr ⟨row.offset, hoffset, hholds⟩, hget⟩

theorem fallback_fresh {fullText : String} {sec : SectionRef}
    (h : sec ∈ sectionsFromFallback fullText) : sec.evidenceIndices = [] := by
  obtain ⟨entry, -, rfl⟩ := List.mem_map.mp h
  rfl

theorem mem_sectionsFromOutline {fullText : String} {outline : List OutlineNode} {sec : SectionRef} :
    sec ∈ sectionsFromOutline fullText outline ↔ ∃ entry ∈ flattenOutline 0 outline,
      entry.2.1 = [] ∧ entry.1.charStart < entry.1.charEnd ∧
        sec = { title := entry.1.title, level := entry.1.level, charStart := entry.1.charStart,
                charEnd := (min entry.1.charEnd fullText.length : Nat),
                text := slice fullText entry.1.charStart
                  (min entry.1.charEnd fullText.length : Nat) } := by
  rw [sectionsFromOutline, mem_sortedBy, List.mem_filterMap]
  constructor
  · rintro ⟨entry, hentry, hsec⟩
    split at hsec
    · cases hsec
    · rename_i hleaf
      split at hsec
      · cases hsec
      · rename_i hspan
        exact ⟨entry, hentry, by simpa using hleaf, Nat.lt_of_not_le hspan,
          (Option.some.inj hsec).symm⟩
  · rintro ⟨entry, hentry, hleaf, hspan, rfl⟩
    refine ⟨entry, hentry, ?_⟩
    rw [if_neg (by simp [hleaf]), if_neg (Nat.not_le.mpr hspan)]

theorem outline_fresh {fullText : String} {outline : List OutlineNode} {sec : SectionRef}
    (h : sec ∈ sectionsFromOutline fullText outline) : sec.evidenceIndices = [] := by
  obtain ⟨entry, -, -, -, rfl⟩ := mem_sectionsFromOutline.mp h
  rfl

end Evidence

section Coverage

theorem fallback_holds_iff {fullText : String} {place : Nat} :
    (∃ sec ∈ sectionsFromFallback fullText, sec.Holds place) ↔
      ∃ sec ∈ splitIntoSections fullText, sec.1 ≤ place ∧ place < sec.1 + sec.2.length := by
  simp only [sectionsFromFallback, List.mem_map, exists_exists_and_eq_and, SectionRef.Holds, Nat.cast_le]
  constructor
  · rintro ⟨entry, hentry, hfirst, hlast⟩
    have hget := List.mem_zipIdx_iff_getElem?.mp hentry
    exact ⟨entry.1, List.mem_of_getElem? hget, by omega⟩
  · rintro ⟨sec, hsec, hfirst, hlast⟩
    obtain ⟨i, hget⟩ := List.mem_iff_getElem?.mp hsec
    exact ⟨(sec, i), List.mem_zipIdx_iff_getElem?.mpr hget, by dsimp only; omega⟩

/-- Which places are in a section, where the text is cut by headings or paragraphs. -/
theorem split_holds_iff {text : String} {place : Nat} (hplace : place < text.length) :
    (∃ sec ∈ splitIntoSections text, sec.1 ≤ place ∧ place < sec.1 + sec.2.length) ↔
      (headingPattern.finditer text).isEmpty = false ∨ ¬ Dropped text place := by
  cases hstarts : (headingPattern.finditer text).map Re.Match.start with
  | nil =>
    have hnone : (headingPattern.finditer text).isEmpty = true := by
      rw [List.isEmpty_iff]
      exact List.map_eq_nil_iff.mp hstarts
    obtain ⟨count, hcount, hlast, hinside⟩ := windowStarts_eq text
    obtain ⟨k, hk⟩ : ∃ k, place / windowSize = k := ⟨_, rfl⟩
    rw [hnone, dropped_iff hk hplace, splitIntoSections_paragraphs hstarts hcount, List.map_map]
    simp only [List.mem_map, exists_exists_and_eq_and, List.mem_range'_1, Function.comp_apply, Bool.true_eq_false,
      false_or, Nat.not_le]
    have hsection : ∀ j, windowSize * j < text.length →
        (cutAt text (windowSize * j, sectionEnd text (windowSize * j))).2.length =
          sectionEnd text (windowSize * j) - windowSize * j := by
      intro j hj
      have hbounds := sectionEnd_le text hj
      exact length_cutAt (Nat.le_of_lt hbounds.1) (by dsimp only; omega)
    constructor
    · rintro ⟨j, ⟨-, hj⟩, hfirst, hend⟩
      have hin := hinside j (by omega)
      rw [hsection j hin] at hend
      have hbounds := sectionEnd_le text hin
      simp only [cutAt] at hfirst hend
      obtain rfl : j = k := by
        simp only [windowSize] at *
        omega
      omega
    · intro hend
      have hin : windowSize * k < text.length ∧ windowSize * k ≤ place ∧ k < count := by
        simp only [windowSize] at *
        omega
      have hbounds := sectionEnd_le text hin.1
      refine ⟨k, ⟨Nat.zero_le _, by omega⟩, hin.2.1, ?_⟩
      rw [hsection k hin.1]
      simp only [cutAt]
      omega
  | cons first rest =>
    have hsome : (headingPattern.finditer text).isEmpty = false := by
      cases hfinds : headingPattern.finditer text with
      | nil =>
        rw [hfinds] at hstarts
        cases hstarts
      | cons found others => rfl
    obtain ⟨spans, htiles, hsections, -⟩ := splitIntoSections_headings hstarts
    rw [hsections]
    refine ⟨fun _ => .inl hsome, fun _ => ?_⟩
    obtain ⟨span, hspan, hfirst, hlast⟩ := htiles.covers (Nat.zero_le place) hplace
    refine ⟨cutAt text span, List.mem_map_of_mem hspan, hfirst, ?_⟩
    rw [length_cutAt (htiles.start_le hspan) (htiles.stop_le hspan)]
    simp only [cutAt]
    omega

/-- The place belongs to a heading without headings below it, or the document has no outline and
nothing is lost of the window around it. -/
def Covered (pages : List Page) (place : Nat) : Prop :=
  let text := (assembleFullText pages).1
  if (buildOutline pages).isEmpty then
    (headingPattern.finditer text).isEmpty = false ∨ ¬ Dropped text place
  else ∃ entry ∈ flattenOutline 0 (buildOutline pages), entry.2.1 = [] ∧
    entry.1.charStart ≤ place ∧ place < entry.1.charEnd

def documentSections (pages : List Page) : List SectionRef :=
  let text := (assembleFullText pages).1
  if (buildOutline pages).isEmpty then sectionsFromFallback text
  else sectionsFromOutline text (buildOutline pages)

theorem selectRelevantSections_pages (pages : List Page) (evidence : List Evidence) (budget : Int) :
    selectRelevantSections (assembleFullText pages).1 (buildOutline pages) evidence budget =
      selectSections (documentSections pages) evidence budget := by
  unfold selectRelevantSections documentSections
  dsimp only
  generalize (if (buildOutline pages).isEmpty then _ else _) = sections
  split
  · rename_i hnone
    rw [hnone]
    rfl
  · rfl

theorem document_holds_iff {pages : List Page} {place : Nat}
    (hplace : place < (assembleFullText pages).1.length) :
    (∃ sec ∈ documentSections pages, sec.Holds place) ↔ Covered pages place := by
  unfold documentSections Covered
  dsimp only
  split
  · rw [fallback_holds_iff, split_holds_iff hplace]
  · constructor
    · rintro ⟨sec, hsec, hfirst, hlast⟩
      obtain ⟨entry, hentry, hleaf, -, rfl⟩ := mem_sectionsFromOutline.mp hsec
      dsimp only at hfirst hlast
      exact ⟨entry, hentry, hleaf, by omega⟩
    · rintro ⟨entry, hentry, hleaf, hfirst, hlast⟩
      refine ⟨_, mem_sectionsFromOutline.mpr ⟨entry, hentry, hleaf, by omega, rfl⟩, ?_⟩
      simp only [SectionRef.Holds]
      omega

theorem document_fresh {pages : List Page} {sec : SectionRef} (h : sec ∈ documentSections pages) :
    sec.evidenceIndices = [] := by
  unfold documentSections at h
  dsimp only at h
  split at h
  · exact fallback_fresh h
  · exact outline_fresh h

/-- Some batch carries the row, for these budgets. -/
def Carried (pages : List Page) (evidence : List Evidence) (row : Evidence)
    (budget budgetPerPass : Int) : Prop :=
  let tiers :=
    selectRelevantSections (assembleFullText pages).1 (buildOutline pages) evidence budget
  ∃ batch ∈ buildWriterBatches tiers.a tiers.b evidence budgetPerPass, row ∈ batch.evidence

/-- Evidence from inside the text reaches the writer exactly if a section covers its place. -/
theorem carried_iff_covered {pages : List Page} {evidence : List Evidence} {row : Evidence}
    {place : Nat} (hrow : row ∈ evidence) (hoffset : row.offset = place)
    (hplace : place < (assembleFullText pages).1.length) (budget budgetPerPass : Int) :
    Carried pages evidence row budget budgetPerPass ↔ Covered pages place := by
  have hfresh : ∀ sec ∈ documentSections pages, sec.evidenceIndices = [] :=
    fun _ => document_fresh
  have hcarried := row_carried_iff hfresh hrow budget budgetPerPass
  rw [hoffset, document_holds_iff hplace] at hcarried
  unfold Carried
  rw [selectRelevantSections_pages]
  exact hcarried

/-- A page with a line in front of its only heading. -/
def prefacedPages : List Page := [⟨some "Note\n# Terms\nAll sales are final.", some 1⟩]

def rowAt (offset : Int) : Evidence := ⟨"statement", "subject", "explicit", "excerpt", some offset, 4⟩

theorem rowAt_terms_carried :
    Carried prefacedPages [rowAt 5] (rowAt 5) 1000 1000 ↔ Covered prefacedPages 5 :=
  carried_iff_covered List.mem_cons_self rfl (by decide +kernel) 1000 1000

theorem rowAt_note_not_carried : ¬ Carried prefacedPages [rowAt 0] (rowAt 0) 1000 1000 := by
  unfold Carried
  decide +kernel

end Coverage

end Cygnus.Mrp.Writer
