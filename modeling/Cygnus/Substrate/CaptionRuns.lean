import Cygnus.Substrate.CaptionLaws
import Cygnus.Substrate.OutlineLaws

/-! Runs of the captioning task over the text of a source, and where the headings of the outline and
the pages stand in it then. -/

namespace Cygnus.Substrate

open Text Regex Re Spans

/-- The text of a source with the rows of its images. -/
structure ImagedSource extends Extracted where
  images : Captions

/-- Nothing is stored of pages that are all blank. -/
def storedPages (images : List ImageInfo) (pages : List Page) : List Page :=
  if pages.all fun page => strip page.text = "" then [] else inlineImageMarkers images pages

/-- What `ingest_file_task` stores of the pages and images of a document. -/
def ingestPages (images : List ImageInfo) (pages : List Page) : ImagedSource :=
  if pages.all fun page => strip page.text = "" then ⟨⟨[], "", []⟩, []⟩
  else ⟨extractText images pages, images.map fun image => (image.imageId.text, image.caption)⟩

/-- What a run of `caption_images_task` meets. -/
structure CaptionRun where
  hasVision : Bool
  /-- What the vision model says of an image, if it does in time. -/
  analyzeImage : String → Option String
  /-- Whether the source is still there when the captions are baked in. -/
  remains : Bool

def CaptionRun.caption (run : CaptionRun) (images : Captions) : Captions :=
  images.map fun row => (row.1, (run.analyzeImage row.1).or row.2)

def captionImages (run : CaptionRun) (source : ImagedSource) : ImagedSource :=
  if run.hasVision = true ∧ source.images ≠ [] then
    let images := run.caption source.images
    if run.remains = true ∧ source.fullText ≠ "" ∧ images ≠ [] then
      { source with images, fullText := bakeCaptions images source.fullText }
    else { source with images }
  else source

/-- The captions that a run bakes into the text, if it gets there. -/
def CaptionRun.baked (run : CaptionRun) (source : ImagedSource) : Option Captions :=
  if run.hasVision = true ∧ source.images ≠ [] ∧ run.remains = true ∧ source.fullText ≠ "" then
    some (run.caption source.images)
  else none

section Places

/-- The text in front of a page, with the separator. -/
def pageStart (pages : List Page) (index : Nat) : Nat :=
  if index = 0 then 0 else (joined (pages.take index)).length + pageJoinSeparator.length

def pageStarts (pages : List Page) : List Nat := (List.range pages.length).map (pageStart pages)

/-- Where the pages start after a run, by where they start before it. -/
def CaptionRun.moves (run : CaptionRun) (source : ImagedSource) (starts : List Nat) : List Nat :=
  match run.baked source with
  | some captions => starts.map (moved (bakedPieces captions source.fullText))
  | none => starts

/-- A source after runs of the task, with the places in its text where the pages start. -/
def captionRuns : List CaptionRun → ImagedSource × List Nat → ImagedSource × List Nat
  | [], reached => reached
  | run :: runs, (source, starts) =>
    captionRuns runs (captionImages run source, run.moves source starts)

/-- Each heading of the outline stands in the text at its place and ends inside of it, and the page
offsets are the places where the pages start. -/
structure InStep (source : ImagedSource) (starts : List Nat) : Prop where
  headings : ∀ heading ∈ outlineHeadings source.outlineJson,
    HeadingAt source.fullText.toList heading.toHeadingStart
  ends : ∀ heading ∈ outlineHeadings source.outlineJson, heading.charEnd ≤ source.fullText.length
  pages : source.pageOffsets = starts

/-- Where the line of a heading ends that stands in the text. -/
def headingStop (text : List Char) (heading : HeadingStart) : Nat :=
  let titled := text.drop (heading.charStart + heading.level)
  heading.charStart + heading.level + (titled.takeWhile isSpace).length +
    ((titled.dropWhile isSpace).takeWhile (· ≠ '\n')).length

/-- The markers that are refilled lie outside of the lines of the headings and of the places where
pages start, and in front of each of these they are together as long as before. The text keeps
reaching to the ends in the outline. -/
structure Harmless (captions : Captions) (source : ImagedSource) : Prop where
  headings : ∀ heading ∈ outlineHeadings source.outlineJson,
    Untouched (bakedPieces captions source.fullText) heading.charStart
      (headingStop source.fullText.toList heading.toHeadingStart)
  ends : ∀ heading ∈ outlineHeadings source.outlineJson,
    (heading.charEnd : Int) ≤
      source.fullText.length + shift (bakedPieces captions source.fullText)
  pages : ∀ offset ∈ source.pageOffsets, Unmoved (bakedPieces captions source.fullText) offset

/-- Every run that bakes captions in does no harm. -/
def HarmlessRuns : List CaptionRun → ImagedSource → Prop
  | [], _ => True
  | run :: runs, source => (∀ captions ∈ run.baked source, Harmless captions source) ∧
      HarmlessRuns runs (captionImages run source)

end Places

section Extraction

/-- The offsets of the pages are the places where they start. -/
theorem pageOffsets_eq (pages : List Page) : pageOffsetsFrom 0 pages = pageStarts pages := by
  have hfrom : ∀ cursor, pageOffsetsFrom cursor pages =
      (List.range pages.length).map fun index => cursor + pageStart pages index := by
    induction pages with
    | nil => exact fun _ => rfl
    | cons page rest ih =>
      intro cursor
      rw [pageOffsetsFrom, ih, List.length_cons, List.range_succ_eq_map, List.map_cons, List.map_map]
      congr 1
      refine List.map_congr_left fun index hindex => ?_
      have hrest : rest ≠ [] := by
        rintro rfl
        cases List.mem_range.mp hindex
      simp only [pastPage, if_neg hrest, Function.comp, pageStart, Nat.succ_ne_zero, if_false,
        Nat.succ_eq_add_one, List.take_succ_cons, length_joined_cons]
      by_cases hzero : index = 0
      · subst hzero
        simp [Nat.add_assoc]
      · have htake : rest.take index ≠ [] := by simpa [hzero] using hrest
        simp only [if_neg hzero, if_neg htake]
        omega
  rw [hfrom, pageStarts]
  simp only [Nat.zero_add]

theorem ingestPages_inStep (images : List ImageInfo) (pages : List Page) :
    InStep (ingestPages images pages) (pageStarts (storedPages images pages)) := by
  unfold ingestPages storedPages
  split
  · exact ⟨List.forall_mem_nil _, List.forall_mem_nil _, rfl⟩
  · refine ⟨fun heading hheading => ?_, fun heading hheading => ?_, pageOffsets_eq _⟩
    · have hmem : heading ∈ outlineHeadings (buildOutline (inlineImageMarkers images pages)) :=
        hheading
      rw [outlineHeadings_buildOutline] at hmem
      exact headingStarts_at (mem_withEnds hmem)
    · have hmem : heading ∈ outlineHeadings (buildOutline (inlineImageMarkers images pages)) :=
        hheading
      have hle := heading_charEnd_le hmem
      rwa [joined, String.length_toList] at hle

end Extraction

section Lines

theorem head_of_stripped {title : String} (h : Stripped title) :
    ∃ c cs, title.toList = c :: cs ∧ isSpace c = false := by
  obtain ⟨hstrip, hne⟩ := h
  have hdrop : title.toList.dropWhile isSpace = title.toList := by
    rw [← hstrip, strip, String.toList_ofList, dropWhile_rdropWhile_dropWhile]
  cases htitle : title.toList with
  | nil => exact absurd (String.toList_inj.mp htitle) hne
  | cons c cs =>
    refine ⟨c, cs, rfl, ?_⟩
    rw [htitle, List.dropWhile_cons] at hdrop
    cases hc : isSpace c with
    | false => rfl
    | true =>
      rw [if_pos hc] at hdrop
      have hle := (List.dropWhile_sublist (p := isSpace) (l := cs)).length_le
      rw [hdrop, List.length_cons] at hle
      omega

theorem headingStop_eq {text line : List Char} {heading : HeadingStart}
    (hline : HeadingLine heading.title heading.level line)
    (hat : StandsAt text line heading.charStart) :
    headingStop text heading = heading.charStart + line.length := by
  obtain ⟨before, after, rfl, hlength, -, hafter⟩ := hat
  obtain ⟨gap, closing, -, hgap, htitle, -, hclosing, rfl⟩ := hline.reads
  obtain ⟨c, cs, hhead, hc⟩ := head_of_stripped hline.stripped
  have hdrop : (before ++ ((List.replicate heading.level '#' ++
      (gap ++ (heading.title.toList ++ closing))) ++ after)).drop (heading.charStart + heading.level) =
        gap ++ (heading.title.toList ++ (closing ++ after)) := by
    rw [← List.drop_drop, List.drop_left' hlength, List.append_assoc, List.append_assoc,
      List.append_assoc, List.drop_left' List.length_replicate]
  have htake : (gap ++ (heading.title.toList ++ (closing ++ after))).takeWhile isSpace = gap := by
    rw [List.takeWhile_append_of_pos hgap, hhead, List.cons_append, List.takeWhile_cons]
    simp [hc]
  have hskip : (gap ++ (heading.title.toList ++ (closing ++ after))).dropWhile isSpace =
      heading.title.toList ++ (closing ++ after) := by
    rw [List.dropWhile_append_of_pos hgap, hhead, List.cons_append, List.dropWhile_cons]
    simp [hc]
  have hbreak : ∀ c ∈ heading.title.toList ++ closing, decide (c ≠ '\n') = true := by
    intro c hmem
    refine decide_eq_true ?_
    rintro rfl
    exact (List.mem_append.mp hmem).elim htitle hclosing
  have hstop : (heading.title.toList ++ (closing ++ after)).takeWhile (· ≠ '\n') =
      heading.title.toList ++ closing := by
    rw [← List.append_assoc, List.takeWhile_append_of_pos hbreak]
    cases after with
    | nil => simp
    | cons d after => simp [hafter d rfl]
  unfold headingStop
  dsimp only
  rw [hdrop, htake, hskip, hstop]
  simp only [List.length_append, List.length_replicate]
  omega

end Lines

section Baking

variable {captions : Captions} {text : String} {front : List Piece}

theorem textBefore_bakedPieces (captions : Captions) (text : String) :
    textBefore (bakedPieces captions text) = text.toList :=
  textBefore_pieces markerRe_length text

theorem textAfter_bakedPieces (captions : Captions) (text : String) :
    textAfter (bakedPieces captions text) = (bakeCaptions captions text).toList :=
  String.toList_ofList.symm

theorem Cut.isMarker {ps : List Piece} {old uid : List Char} (h : Cut ps)
    (hmem : .found old uid ∈ ps) : IsMarker old uid := by
  induction h with
  | nil => cases hmem
  | kept _ _ ih =>
    rcases List.mem_cons.mp hmem with heq | hrest
    · cases heq
    · exact ih hrest
  | found hmarker _ ih =>
    rcases List.mem_cons.mp hmem with heq | hrest
    · cases heq
      exact hmarker
    · exact ih hrest

/-- What is replaced neither begins nor ends with a line break. -/
def Inline : Piece → Prop
  | .kept _ => True
  | .found old _ => old.head? = some '!' ∧ old.getLast? = some ')'

theorem bakedPieces_inline : ∀ piece ∈ bakedPieces captions text, Inline piece := by
  rw [bakedPieces_eq]
  refine List.forall_mem_map.mpr fun piece hpiece => ?_
  cases piece with
  | kept c => trivial
  | found old uid =>
    obtain ⟨huid, alt, -, rfl⟩ := (cut_cuts text).isMarker hpiece
    exact ⟨rfl, by simp [target, List.getLast?_cons, List.getLast?_append]⟩

theorem textAfter_getLast (h : ∀ piece ∈ front, Inline piece)
    (hbefore : ∀ c ∈ (textBefore front).getLast?, c = '\n') :
    ∀ c ∈ (textAfter front).getLast?, c = '\n' := by
  induction front using List.reverseRecOn with
  | nil => exact hbefore
  | append_singleton front piece ih =>
    simp only [textBefore, textAfter, List.flatMap_append, List.flatMap_singleton] at hbefore ⊢
    cases piece with
    | kept c => simpa [Piece.before, Piece.after] using hbefore
    | found old new =>
      obtain ⟨-, hlast⟩ := h _ (List.mem_append_right _ (List.mem_singleton_self _))
      simp [Piece.before, List.getLast?_append, hlast] at hbefore

theorem textAfter_head (h : ∀ piece ∈ front, Inline piece)
    (hbefore : ∀ c ∈ (textBefore front).head?, c = '\n') :
    ∀ c ∈ (textAfter front).head?, c = '\n' := by
  cases front with
  | nil => exact hbefore
  | cons piece front =>
    simp only [textBefore, textAfter, List.flatMap_cons] at hbefore ⊢
    cases piece with
    | kept c => simpa [Piece.before, Piece.after] using hbefore
    | found old new =>
      obtain ⟨hhead, -⟩ := h _ List.mem_cons_self
      simp [Piece.before, List.head?_append, hhead] at hbefore

/-- A heading's line that is copied to where it was stands there afterwards. -/
theorem standsAt_bakeCaptions {line : List Char} {place : Nat}
    (h : Untouched (bakedPieces captions text) place (place + line.length))
    (hat : StandsAt text.toList line place) :
    StandsAt (bakeCaptions captions text).toList line place := by
  have hinline : ∀ piece ∈ bakedPieces captions text, Inline piece := bakedPieces_inline
  rw [← textBefore_bakedPieces captions] at hat
  rw [← textAfter_bakedPieces]
  obtain ⟨front, span, tail, hpieces, hfront, hmoved, hsame, hspan⟩ := h.split
  obtain ⟨before, after, htext, hlength, hbefore, hafter⟩ := hat
  rw [hpieces] at hinline htext ⊢
  simp only [textBefore, textAfter, List.flatMap_append] at htext hfront hmoved hsame hspan ⊢
  obtain ⟨rfl, hrest⟩ := List.append_inj htext (hfront.trans hlength.symm)
  obtain ⟨rfl, rfl⟩ := List.append_inj hrest (by omega)
  refine ⟨textAfter front, textAfter tail, ?_, hmoved, textAfter_getLast ?_ hbefore,
    textAfter_head ?_ hafter⟩
  · rw [hsame]
    rfl
  · exact fun piece hpiece => hinline piece (List.mem_append_left _ hpiece)
  · exact fun piece hpiece =>
      hinline piece (List.mem_append_right _ (List.mem_append_right _ hpiece))

end Baking

section Runs

variable {source : ImagedSource} {starts : List Nat} {run : CaptionRun}

/-- The outline and the offsets stay as they are, and the text has the captions of the run. -/
theorem captionImages_extracted (run : CaptionRun) (source : ImagedSource) :
    (captionImages run source).outlineJson = source.outlineJson ∧
      (captionImages run source).pageOffsets = source.pageOffsets ∧
      (captionImages run source).fullText = match run.baked source with
        | some captions => bakeCaptions captions source.fullText
        | none => source.fullText := by
  have hcaption : source.images ≠ [] → run.caption source.images ≠ [] := by
    intro h
    simpa [CaptionRun.caption] using h
  unfold captionImages CaptionRun.baked
  by_cases hvision : run.hasVision = true ∧ source.images ≠ []
  · rw [if_pos hvision]
    dsimp only
    by_cases hbakes : run.remains = true ∧ source.fullText ≠ ""
    · rw [if_pos ⟨hbakes.1, hbakes.2, hcaption hvision.2⟩, if_pos ⟨hvision.1, hvision.2, hbakes⟩]
      exact ⟨rfl, rfl, rfl⟩
    · rw [if_neg fun h => hbakes ⟨h.1, h.2.1⟩, if_neg fun h => hbakes h.2.2]
      exact ⟨rfl, rfl, rfl⟩
  · rw [if_neg hvision, if_neg fun h => hvision ⟨h.1, h.2.1⟩]
    exact ⟨rfl, rfl, rfl⟩

theorem caption_of_baked {captions : Captions} (h : captions ∈ run.baked source) :
    captions = run.caption source.images := by
  unfold CaptionRun.baked at h
  split at h
  · exact (Option.some.inj h).symm
  · cases h

theorem captionImages_inStep (h : InStep source starts)
    (hharmless : ∀ captions ∈ run.baked source, Harmless captions source) :
    InStep (captionImages run source) (run.moves source starts) := by
  obtain ⟨houtline, hoffsets, htext⟩ := captionImages_extracted run source
  unfold CaptionRun.moves
  cases hbaked : run.baked source with
  | none =>
    rw [hbaked] at htext
    dsimp only at htext ⊢
    refine ⟨?_, ?_, hoffsets.trans h.pages⟩
    · rw [houtline, htext]
      exact h.headings
    · rw [houtline, htext]
      exact h.ends
  | some captions =>
    obtain ⟨hheadings, hends, hpages⟩ := hharmless captions hbaked
    rw [hbaked] at htext
    dsimp only at htext ⊢
    refine ⟨?_, ?_, ?_⟩
    · rw [houtline, htext]
      intro heading hheading
      obtain ⟨line, hline, hat⟩ := h.headings heading hheading
      have huntouched := hheadings heading hheading
      rw [headingStop_eq hline hat] at huntouched
      exact ⟨line, hline, standsAt_bakeCaptions huntouched hat⟩
    · rw [houtline, htext]
      intro heading hheading
      have hlength := length_textAfter (bakedPieces captions source.fullText)
      rw [textAfter_bakedPieces, textBefore_bakedPieces, String.length_toList,
        String.length_toList] at hlength
      have := hends heading hheading
      omega
    · rw [hoffsets, h.pages]
      rw [h.pages] at hpages
      exact (List.map_id _).symm.trans
        (List.map_congr_left fun start hstart => (hpages start hstart).moved_eq.symm)

theorem captionRuns_kept {runs : List CaptionRun} (h : InStep source starts)
    (hruns : HarmlessRuns runs source) :
    InStep (captionRuns runs (source, starts)).1 (captionRuns runs (source, starts)).2 := by
  induction runs generalizing source starts with
  | nil => exact h
  | cons run runs ih => exact ih (captionImages_inStep h hruns.1) hruns.2

section Scenario

/-- An image on the first page that has no caption yet. -/
def chart : ImageInfo := ⟨1, some 1, none⟩

/-- The model says this of every image. -/
def describes (caption : String) : CaptionRun := ⟨true, fun _ => some caption, true⟩

theorem HeadingAt.begins {text : List Char} {heading : HeadingStart} (h : HeadingAt text heading) :
    text[heading.charStart]? = some '#' := by
  obtain ⟨line, hline, before, after, rfl, hlength, -, -⟩ := h
  obtain ⟨gap, closing, -, -, -, -, -, rfl⟩ := hline.reads
  obtain ⟨level, hlevel⟩ := Nat.exists_eq_succ_of_ne_zero (Nat.pos_iff_ne_zero.mp hline.bounded.1)
  rw [List.getElem?_append_right hlength.le, hlength, Nat.sub_self, hlevel, List.replicate_succ]
  rfl

end Scenario

end Runs

end Cygnus.Substrate
