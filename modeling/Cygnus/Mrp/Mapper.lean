import Cygnus.Data.Sequence
import Cygnus.Substrate.OutlineLaws

/-! The chunks of a document that a model reads one by one. They are cut at the sections of the two
upper levels, or at a fixed size when there are none. -/

namespace Cygnus.Mrp.Mapper

open Text Spans Substrate Sequence

def chunkTargetChars : Nat := 20000

def overlapChars : Nat := 1000

def overlapSeparator : String := "[…context from previous section…]\n"

structure DocumentChunk where
  index : Nat
  startChar : Nat
  endChar : Nat
  sectionPath : String
  text : String
  overlapPrefixLen : Nat
deriving DecidableEq

def DocumentChunk.span (chunk : DocumentChunk) : Span := (chunk.startChar, chunk.endChar)

section Chunking

variable (fullText : String)

/-- The end of the chunk before, for context. -/
def overlapPrefix (prevEnd : Nat) : String :=
  let overlapStart : Nat := prevEnd - overlapChars
  overlapSeparator ++ slice fullText overlapStart prevEnd ++ "\n"

/-- `_flush`; `prevBodyEnd` is a variable of the function around it. -/
def flush (prevBodyEnd idx start stop : Nat) (sections : List String) : DocumentChunk :=
  let body := slice fullText start stop
  let sectionPath := if sections = [] then s!"chunk_{idx}" else " > ".intercalate sections
  let before :=
    if 0 < idx ∧ start < prevBodyEnd then ""
    else if 0 < idx ∧ 0 < prevBodyEnd then overlapPrefix fullText prevBodyEnd
    else ""
  ⟨idx, start, stop, sectionPath, before ++ body, before.length⟩

/-- The sections that the next chunk is made of so far. -/
structure Group where
  start : Nat
  stop : Nat
  sections : List String

structure Grouping where
  chunks : List DocumentChunk := []
  idx : Nat := 0
  prevBodyEnd : Nat := 0
  current : Option Group := none

/-- Whether a section of this size makes the group too long. -/
def Group.Overflows (group : Group) (start stop : Nat) : Prop :=
  let accumulated : Int := group.stop - group.start
  let sectionSize : Int := stop - start
  chunkTargetChars < accumulated + sectionSize ∧ 0 < accumulated

instance (group : Group) (start stop : Nat) : Decidable (group.Overflows start stop) :=
  inferInstanceAs (Decidable (_ ∧ _))

/-- The body of the loop over the sections. -/
def Grouping.add (state : Grouping) (node : Heading) : Grouping :=
  let start := node.charStart
  let stop := min node.charEnd fullText.length
  match state.current with
  | none => { state with current := some ⟨start, stop, [node.title]⟩ }
  | some group =>
    if group.Overflows start stop then
      { chunks := state.chunks ++
          [flush fullText state.prevBodyEnd state.idx group.start group.stop group.sections]
        idx := state.idx + 1
        prevBodyEnd := group.stop
        current := some ⟨start, stop, [node.title]⟩ }
    else
      { state with
        current := some ⟨group.start, max group.stop stop, group.sections ++ [node.title]⟩ }

/-- `_sliding_window_chunks`, from `pos` on. -/
def windowsFrom (idx prevEnd pos : Nat) : List DocumentChunk :=
  if pos < fullText.length then
    let stop := min (pos + chunkTargetChars) fullText.length
    let before := if 0 < idx ∧ 0 < prevEnd then overlapPrefix fullText prevEnd else ""
    ⟨idx, pos, stop, s!"chunk_{idx}", before ++ slice fullText pos stop, before.length⟩ ::
      windowsFrom (idx + 1) stop stop
  else []
termination_by fullText.length - pos
decreasing_by
  simp only [chunkTargetChars]
  omega

def slidingWindowChunks : List DocumentChunk := windowsFrom fullText 0 0 0

/-- The sections of the two upper levels, in the order of the document. -/
def topNodes (outline : List OutlineNode) : List Heading :=
  sortedBy (fun node => node.charStart)
    (((flattenOutline 0 outline).map Prod.fst).filter fun node => node.level ≤ 2)

/-- The chunk of the last group, which reaches to the end. -/
def Grouping.finish (state : Grouping) : List DocumentChunk :=
  match state.current with
  | some group => state.chunks ++
      [flush fullText state.prevBodyEnd state.idx group.start fullText.length group.sections]
  | none => state.chunks

/-- A chunk for the rest, if the chunks leave more than a hundred characters. -/
def addTail (chunks : List DocumentChunk) : List DocumentChunk :=
  if chunks = [] then []
  else
    let lastCovered := (chunks.map DocumentChunk.endChar).foldl max 0
    let idx := chunks.length
    if (lastCovered : Int) < fullText.length - 100 then
      chunks ++ [flush fullText lastCovered idx lastCovered fullText.length [s!"tail_{idx}"]]
    else chunks

def buildChunks (outline : List OutlineNode) : List DocumentChunk :=
  let nodes := topNodes outline
  if nodes = [] then slidingWindowChunks fullText
  else
    let chunks := addTail fullText ((nodes.foldl (Grouping.add fullText) {}).finish fullText)
    if chunks = [] then slidingWindowChunks fullText else chunks

end Chunking

section Layout

/-- The text of a chunk behind its prefix is the document's. -/
def Body (fullText : String) (chunk : DocumentChunk) : Prop :=
  chunk.text.toList.drop chunk.overlapPrefixLen =
    (slice fullText chunk.startChar chunk.endChar).toList

/-- What chunks of a document are to be. -/
structure Covers (fullText : String) (chunks : List DocumentChunk) : Prop where
  numbered : chunks.map DocumentChunk.index = List.range chunks.length
  increasing : chunks.Pairwise fun first second => first.startChar < second.startChar
  covered : ∀ place < fullText.length, ∃ chunk ∈ chunks,
    chunk.startChar ≤ place ∧ place < chunk.endChar
  bodies : ∀ chunk ∈ chunks, Body fullText chunk

/-- Chunks one after the other, which may leave places out. -/
structure Laid (fullText : String) (chunks : List DocumentChunk) : Prop where
  numbered : chunks.map DocumentChunk.index = List.range chunks.length
  bodies : ∀ chunk ∈ chunks, Body fullText chunk
  proper : ∀ chunk ∈ chunks, chunk.startChar < chunk.endChar
  apart : chunks.Pairwise fun first second => first.endChar ≤ second.startChar

variable {fullText : String} {chunks : List DocumentChunk} {chunk : DocumentChunk}

theorem body_append {before body : String} (h : chunk.text = before ++ body)
    (hlength : chunk.overlapPrefixLen = before.length)
    (hbody : body = slice fullText chunk.startChar chunk.endChar) : Body fullText chunk := by
  rw [Body, h, hlength, String.toList_append, ← String.length_toList, List.drop_left, hbody]

theorem flush_body (prevBodyEnd idx start stop : Nat) (sections : List String) :
    Body fullText (flush fullText prevBodyEnd idx start stop sections) :=
  body_append rfl rfl rfl

theorem laid_nil : Laid fullText [] :=
  ⟨rfl, List.forall_mem_nil _, List.forall_mem_nil _, .nil⟩

theorem Laid.concat (h : Laid fullText chunks) (hindex : chunk.index = chunks.length)
    (hbody : Body fullText chunk) (hproper : chunk.startChar < chunk.endChar)
    (hafter : ∀ earlier ∈ chunks, earlier.endChar ≤ chunk.startChar) :
    Laid fullText (chunks ++ [chunk]) where
  numbered := by
    rw [List.map_append, h.numbered, List.map_singleton, hindex, List.length_append,
      List.length_singleton, List.range_succ]
  bodies := List.forall_mem_append.mpr ⟨h.bodies, List.forall_mem_singleton.mpr hbody⟩
  proper := List.forall_mem_append.mpr ⟨h.proper, List.forall_mem_singleton.mpr hproper⟩
  apart := by
    refine List.pairwise_append.mpr ⟨h.apart, List.pairwise_singleton _ _, ?_⟩
    intro earlier hearlier other hother
    rw [List.mem_singleton.mp hother]
    exact hafter earlier hearlier

/-- Such chunks are as they are to be when they leave nothing out. -/
theorem Laid.covers_iff (h : Laid fullText chunks)
    (hinside : ∀ chunk ∈ chunks, chunk.endChar ≤ fullText.length) :
    Covers fullText chunks ↔ Tiles 0 fullText.length (chunks.map DocumentChunk.span) := by
  have hproper : ∀ span ∈ chunks.map DocumentChunk.span, span.1 < span.2 :=
    List.forall_mem_map.mpr h.proper
  have hapart : (chunks.map DocumentChunk.span).Pairwise fun span other => span.2 ≤ other.1 :=
    List.pairwise_map.mpr h.apart
  have hbounds : ∀ span ∈ chunks.map DocumentChunk.span, 0 ≤ span.1 ∧ span.2 ≤ fullText.length :=
    List.forall_mem_map.mpr fun chunk hchunk => ⟨Nat.zero_le _, hinside chunk hchunk⟩
  rw [tiles_iff_covers (Nat.zero_le _) hproper hapart hbounds]
  constructor
  · intro hcovers place _ hlast
    obtain ⟨chunk, hchunk, hin⟩ := hcovers.covered place hlast
    exact ⟨chunk.span, List.mem_map_of_mem hchunk, hin⟩
  · intro htiles
    refine ⟨h.numbered, ?_, ?_, h.bodies⟩
    · refine h.apart.imp_of_mem fun {first second} hfirst _ hle => ?_
      exact Nat.lt_of_lt_of_le (h.proper first hfirst) hle
    · intro place hlast
      obtain ⟨span, hspan, hin⟩ := htiles place (Nat.zero_le _) hlast
      obtain ⟨chunk, hchunk, rfl⟩ := List.mem_map.mp hspan
      exact ⟨chunk, hchunk, hin⟩

end Layout

section Windows

variable {fullText : String}

/-- From a place on, the windows lead to the end. -/
theorem windowsFrom_laid (idx prevEnd pos : Nat) (hpos : pos ≤ fullText.length) :
    (windowsFrom fullText idx prevEnd pos).map DocumentChunk.index =
        List.range' idx (windowsFrom fullText idx prevEnd pos).length ∧
      Tiles pos fullText.length ((windowsFrom fullText idx prevEnd pos).map DocumentChunk.span) ∧
      ∀ chunk ∈ windowsFrom fullText idx prevEnd pos,
        Body fullText chunk ∧ chunk.startChar < chunk.endChar := by
  fun_induction windowsFrom fullText idx prevEnd pos with
  | case1 idx prevEnd pos hlt stop before ih =>
    obtain ⟨hindex, htiles, hall⟩ := ih (Nat.min_le_right _ _)
    have hstop : pos < stop := lt_min (Nat.lt_add_of_pos_right (by decide)) hlt
    refine ⟨?_, ⟨rfl, hstop.le, htiles⟩, ?_⟩
    · rw [List.map_cons, hindex, List.length_cons, List.range'_succ]
    · exact List.forall_mem_cons.mpr ⟨⟨body_append rfl rfl rfl, hstop⟩, hall⟩
  | case2 idx prevEnd pos hend =>
    exact ⟨rfl, Nat.le_antisymm hpos (Nat.not_lt.mp hend), List.forall_mem_nil _⟩

theorem slidingWindowChunks_covers (fullText : String) :
    Covers fullText (slidingWindowChunks fullText) := by
  obtain ⟨hindex, htiles, hall⟩ := windowsFrom_laid 0 0 0 (Nat.zero_le fullText.length)
  have hlaid : Laid fullText (slidingWindowChunks fullText) :=
    ⟨hindex.trans List.range_eq_range'.symm, fun chunk hchunk => (hall chunk hchunk).1,
      fun chunk hchunk => (hall chunk hchunk).2, List.pairwise_map.mp htiles.apart⟩
  refine (hlaid.covers_iff fun chunk hchunk => ?_).mpr htiles
  exact htiles.stop_le (List.mem_map_of_mem (f := DocumentChunk.span) hchunk)

end Windows

section Sections

variable {fullText : String}

/-- Sections of a text, in their order. -/
structure InText (total : Nat) (nodes : List Heading) : Prop where
  proper : ∀ node ∈ nodes, node.charStart < node.charEnd ∧ node.charEnd ≤ total
  apart : nodes.Pairwise fun first second => first.charEnd ≤ second.charStart

theorem headings_inText (pages : List Page) :
    InText (joined pages).length (outlineHeadings (buildOutline pages)) := by
  cases hstarts : headingStarts 0 0 pages with
  | nil =>
    rw [outlineHeadings_buildOutline, hstarts]
    exact ⟨List.forall_mem_nil _, .nil⟩
  | cons first rest =>
    refine ⟨fun node hnode => ⟨?_, heading_charEnd_le hnode⟩, ?_⟩
    · have hspan : node.span ∈ between (joined pages).length
          ((headingStarts 0 0 pages).map HeadingStart.charStart) := by
        rw [outlineHeadings_buildOutline, totalLength_eq, Nat.zero_add] at hnode
        rw [← map_span_withEnds]
        exact List.mem_map_of_mem hnode
      refine lt_of_mem_between (List.pairwise_map.mpr (headingStarts_sorted 0 0 pages))
        (List.forall_mem_map.mpr fun heading hheading => ?_) hspan
      have hbounds := headingStarts_bounds hheading
      rw [totalLength_eq, Nat.zero_add] at hbounds
      exact hbounds.2
    · exact List.pairwise_map.mp (tiles_headings hstarts).apart

/-- The upper sections are in their order already. -/
theorem topNodes_inText (pages : List Page) :
    InText (joined pages).length (topNodes (buildOutline pages)) := by
  obtain ⟨hproper, hapart⟩ := headings_inText pages
  have hsub : ((outlineHeadings (buildOutline pages)).filter fun node => node.level ≤ 2).Sublist
      (outlineHeadings (buildOutline pages)) := List.filter_sublist
  have hsorted : ((outlineHeadings (buildOutline pages)).filter fun node => node.level ≤ 2).Pairwise
      fun first second => first.charStart ≤ second.charStart := by
    refine (hapart.sublist hsub).imp_of_mem fun {first second} hfirst _ hle => ?_
    exact (hproper first (hsub.subset hfirst)).1.le.trans hle
  have htop : topNodes (buildOutline pages) =
      (outlineHeadings (buildOutline pages)).filter fun node => node.level ≤ 2 :=
    sortedBy_of_pairwise hsorted
  rw [htop]
  exact ⟨fun node hnode => hproper node (hsub.subset hnode), hapart.sublist hsub⟩

/-- Behind the sections from `start` to `prev`, which share a chunk: where the next section makes it
too long, it starts where the one before it ends, and so on with the chunk that it opens. -/
def Unbroken (start : Nat) (prev : Heading) : List Heading → Prop
  | [] => True
  | node :: rest =>
    if chunkTargetChars < (prev.charEnd - start) + (node.charEnd - node.charStart) then
      prev.charEnd = node.charStart ∧ Unbroken node.charStart node rest
    else Unbroken start node rest

/-- What the loop has made of the sections up to `prev`. -/
structure Grouped (fullText : String) (prev : Heading) (state : Grouping) (group : Group) : Prop where
  current : state.current = some group
  stop : group.stop = prev.charEnd
  proper : group.start < group.stop
  idx : state.idx = state.chunks.length
  laid : Laid fullText state.chunks
  before : ∀ chunk ∈ state.chunks, chunk.endChar ≤ group.start

variable {prev node : Heading} {state : Grouping} {group : Group}

theorem grouped_overflow (h : Grouped fullText prev state group)
    (hnode : node.charStart < node.charEnd) (hapart : prev.charEnd ≤ node.charStart)
    (hend : node.charEnd ≤ fullText.length)
    (hover : chunkTargetChars < (prev.charEnd - group.start) + (node.charEnd - node.charStart)) :
    Grouped fullText node (state.add fullText node) ⟨node.charStart, node.charEnd, [node.title]⟩ ∧
      (state.add fullText node).chunks.map DocumentChunk.span =
        state.chunks.map DocumentChunk.span ++ [(group.start, prev.charEnd)] := by
  have hstop := h.stop
  have hproper := h.proper
  have hfull : group.Overflows node.charStart node.charEnd := by
    unfold Group.Overflows
    dsimp only
    omega
  have hadd : state.add fullText node =
      { chunks := state.chunks ++
          [flush fullText state.prevBodyEnd state.idx group.start group.stop group.sections]
        idx := state.idx + 1
        prevBodyEnd := group.stop
        current := some ⟨node.charStart, node.charEnd, [node.title]⟩ } := by
    unfold Grouping.add
    dsimp only
    rw [h.current, Nat.min_eq_left hend]
    exact if_pos hfull
  rw [hadd]
  refine ⟨⟨rfl, rfl, hnode, ?_, ?_, ?_⟩, ?_⟩
  · rw [h.idx, List.length_append, List.length_singleton]
  · exact h.laid.concat h.idx (flush_body _ _ _ _ _) hproper h.before
  · refine List.forall_mem_append.mpr ⟨fun chunk hchunk => ?_, List.forall_mem_singleton.mpr ?_⟩
    · have := h.before chunk hchunk
      dsimp only
      omega
    · exact hstop.trans_le hapart
  · rw [List.map_append, ← hstop]
    rfl

theorem grouped_room (h : Grouped fullText prev state group)
    (hnode : node.charStart < node.charEnd) (hapart : prev.charEnd ≤ node.charStart)
    (hend : node.charEnd ≤ fullText.length)
    (hroom : ¬chunkTargetChars < (prev.charEnd - group.start) + (node.charEnd - node.charStart)) :
    Grouped fullText node (state.add fullText node)
        ⟨group.start, node.charEnd, group.sections ++ [node.title]⟩ ∧
      (state.add fullText node).chunks = state.chunks := by
  have hstop := h.stop
  have hproper := h.proper
  have hnot : ¬group.Overflows node.charStart node.charEnd := by
    unfold Group.Overflows
    dsimp only
    omega
  have hmax : max group.stop node.charEnd = node.charEnd := Nat.max_eq_right (by omega)
  have hadd : state.add fullText node = { state with
      current := some ⟨group.start, node.charEnd, group.sections ++ [node.title]⟩ } := by
    unfold Grouping.add
    dsimp only
    rw [h.current, Nat.min_eq_left hend]
    simp only [if_neg hnot, hmax]
  rw [hadd]
  refine ⟨⟨rfl, rfl, ?_, h.idx, h.laid, h.before⟩, rfl⟩
  dsimp only
  omega

/-- The loop leaves nothing out in front of the last group exactly when no full group breaks off. -/
theorem foldl_grouped {rest : List Heading} (h : Grouped fullText prev state group)
    (htext : InText fullText.length (prev :: rest)) :
    ∃ last group', Grouped fullText last (rest.foldl (Grouping.add fullText) state) group' ∧
      last.charEnd ≤ fullText.length ∧
      (Tiles 0 group'.start
          ((rest.foldl (Grouping.add fullText) state).chunks.map DocumentChunk.span) ↔
        Tiles 0 group.start (state.chunks.map DocumentChunk.span) ∧
          Unbroken group.start prev rest) := by
  induction rest generalizing prev state group with
  | nil =>
    have hend := (htext.proper prev List.mem_cons_self).2
    exact ⟨prev, group, h, hend, by rw [Unbroken, and_true, List.foldl_nil]⟩
  | cons node rest ih =>
    have hapart := List.pairwise_cons.mp htext.apart
    have hlater : InText fullText.length (node :: rest) :=
      ⟨fun other hother => htext.proper other (List.mem_cons_of_mem _ hother), hapart.2⟩
    have hafter := hapart.1 node List.mem_cons_self
    obtain ⟨hnode, hend⟩ := hlater.proper node List.mem_cons_self
    rw [List.foldl_cons, Unbroken]
    by_cases hover : chunkTargetChars <
        (prev.charEnd - group.start) + (node.charEnd - node.charStart)
    · obtain ⟨hgrouped, hspans⟩ := grouped_overflow h hnode hafter hend hover
      obtain ⟨last, group', hlast, hle, htiles⟩ := ih hgrouped hlater
      refine ⟨last, group', hlast, hle, htiles.trans ?_⟩
      rw [hspans, tiles_concat, if_pos hover, and_assoc]
      have hle' : group.start ≤ prev.charEnd := h.stop ▸ h.proper.le
      simp only [hle', true_and]
    · obtain ⟨hgrouped, hsame⟩ := grouped_room h hnode hafter hend hover
      obtain ⟨last, group', hlast, hle, htiles⟩ := ih hgrouped hlater
      refine ⟨last, group', hlast, hle, htiles.trans ?_⟩
      rw [hsame, if_neg hover]

end Sections

section Whole

variable {fullText : String}

/-- Nothing is left behind a chunk that reaches to the end. -/
theorem addTail_reaches {chunks : List DocumentChunk} {chunk : DocumentChunk}
    (h : chunk.endChar = fullText.length) :
    addTail fullText (chunks ++ [chunk]) = chunks ++ [chunk] := by
  have hne : chunks ++ [chunk] ≠ [] := List.append_ne_nil_of_right_ne_nil _ (List.cons_ne_nil _ _)
  have hlast : fullText.length ≤
      ((chunks ++ [chunk]).map DocumentChunk.endChar).foldl max 0 := by
    rw [List.map_append, List.foldl_append, ← h]
    exact Nat.le_max_right _ _
  unfold addTail
  dsimp only
  rw [if_neg hne, if_neg]
  omega

/-- What the loop has made of the sections is closed by a chunk that reaches to the end. -/
theorem finish_covers_iff {prev : Heading} {state : Grouping} {group : Group}
    (h : Grouped fullText prev state group) (hend : prev.charEnd ≤ fullText.length) :
    addTail fullText (state.finish fullText) ≠ [] ∧
      (Covers fullText (addTail fullText (state.finish fullText)) ↔
        Tiles 0 group.start (state.chunks.map DocumentChunk.span)) := by
  have hstop := h.stop
  have hproper : group.start < fullText.length := by
    have := h.proper
    omega
  have hfinish : state.finish fullText = state.chunks ++
      [flush fullText state.prevBodyEnd state.idx group.start fullText.length group.sections] := by
    unfold Grouping.finish
    rw [h.current]
  have hlaid := h.laid.concat h.idx
    (flush_body state.prevBodyEnd state.idx group.start fullText.length group.sections)
    hproper h.before
  rw [hfinish, addTail_reaches rfl]
  refine ⟨List.append_ne_nil_of_right_ne_nil _ (List.cons_ne_nil _ _), ?_⟩
  rw [hlaid.covers_iff, List.map_append, List.map_singleton, tiles_concat]
  · exact and_iff_left ⟨hproper.le, rfl⟩
  · refine List.forall_mem_append.mpr ⟨fun chunk hchunk => ?_, List.forall_mem_singleton.mpr le_rfl⟩
    exact (h.before chunk hchunk).trans hproper.le

/-- The chunks of a document are numbered from zero and in their order, and their text behind the
prefix is the document's. They leave none of it out exactly when it has no upper section, or it
begins with one and wherever the next one would make a chunk too long, that one starts where the
section before it ends. -/
theorem buildChunks_covers_iff (pages : List Page) :
    Covers (assembleFullText pages).1
        (buildChunks (assembleFullText pages).1 (buildOutline pages)) ↔
      ∀ first rest, topNodes (buildOutline pages) = first :: rest →
        first.charStart = 0 ∧ Unbroken 0 first rest := by
  generalize hfull : (assembleFullText pages).1 = fullText
  have htext : InText fullText.length (topNodes (buildOutline pages)) := by
    rw [← hfull, ← String.length_toList]
    exact topNodes_inText pages
  unfold buildChunks
  dsimp only
  generalize topNodes (buildOutline pages) = nodes at htext ⊢
  cases nodes with
  | nil =>
    rw [if_pos rfl]
    exact iff_of_true (slidingWindowChunks_covers fullText) fun _ _ h => by cases h
  | cons first rest =>
    obtain ⟨hproper, hend⟩ := htext.proper first List.mem_cons_self
    have hfirst : Grouped fullText first (Grouping.add fullText {} first)
        ⟨first.charStart, first.charEnd, [first.title]⟩ := by
      refine ⟨?_, rfl, hproper, rfl, laid_nil, List.forall_mem_nil _⟩
      unfold Grouping.add
      dsimp only
      rw [Nat.min_eq_left hend]
    obtain ⟨last, group, hlast, hle, htiles⟩ := foldl_grouped hfirst htext
    have hstart : Tiles 0 first.charStart [] ↔ first.charStart = 0 := eq_comm
    obtain ⟨hne, hcovers⟩ := finish_covers_iff hlast hle
    rw [if_neg (List.cons_ne_nil _ _), List.foldl_cons, if_neg hne, hcovers, htiles]
    calc Tiles 0 first.charStart [] ∧ Unbroken first.charStart first rest
        ↔ first.charStart = 0 ∧ Unbroken 0 first rest := by
          rw [show Tiles 0 first.charStart [] ↔ first.charStart = 0 from eq_comm]
          exact and_congr_right fun hzero => by rw [hzero]
      _ ↔ ∀ first' rest', first :: rest = first' :: rest' →
            first'.charStart = 0 ∧ Unbroken 0 first' rest' := by
          constructor
          · rintro h _ _ heq
            obtain ⟨rfl, rfl⟩ := List.cons.inj heq
            exact h
          · intro h
            exact h first rest rfl

/-- What stands in front of the first heading is in no chunk. -/
theorem preamble_notCovered :
    let pages := [⟨some "Intro\n# Terms", some 1⟩]
    ¬Covers (assembleFullText pages).1
      (buildChunks (assembleFullText pages).1 (buildOutline pages)) := by
  intro pages hcovers
  have hlater : ∀ chunk ∈ buildChunks (assembleFullText pages).1 (buildOutline pages),
      0 < chunk.startChar := by decide +kernel
  obtain ⟨chunk, hchunk, hstart, -⟩ := hcovers.covered 0 (by decide)
  exact absurd hstart (Nat.not_le.mpr (hlater chunk hchunk))

end Whole

end Cygnus.Mrp.Mapper
