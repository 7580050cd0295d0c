import Cygnus.Substrate.OutlineForest

/-! Where the headings of an outline stand in the text of the pages. -/

namespace Cygnus.Substrate

open Text Regex Re Spans

section Lines

/-- The blanks and hashes that may close a heading line. -/
def Closes (closing : List Char) : Prop :=
  ∃ blanks hashes blanks', closing = blanks ++ (hashes ++ blanks') ∧
    (∀ c ∈ blanks, isSpace c = true) ∧ (∀ c ∈ hashes, c = '#') ∧ ∀ c ∈ blanks', isSpace c = true

theorem Closes.take {closing : List Char} (h : Closes closing) (n : Nat) :
    Closes (closing.take n) := by
  obtain ⟨blanks, hashes, blanks', rfl, hblanks, hhashes, hblanks'⟩ := h
  rw [List.take_append, List.take_append]
  exact ⟨_, _, _, rfl, fun c hc => hblanks c (List.mem_of_mem_take hc),
    fun c hc => hhashes c (List.mem_of_mem_take hc),
    fun c hc => hblanks' c (List.mem_of_mem_take hc)⟩

theorem Closes.blanks_append {blanks closing : List Char} (hblanks : ∀ c ∈ blanks, isSpace c = true)
    (h : Closes closing) : Closes (blanks ++ closing) := by
  obtain ⟨first, hashes, last, rfl, hfirst, hhashes, hlast⟩ := h
  refine ⟨blanks ++ first, hashes, last, (List.append_assoc _ _ _).symm, ?_, hhashes, hlast⟩
  exact List.forall_mem_append.mpr ⟨hblanks, hfirst⟩

/-- A line that reads as the heading with this title and level. -/
structure HeadingLine (title : String) (level : Nat) (line : List Char) : Prop where
  bounded : 1 ≤ level ∧ level ≤ 6
  stripped : Stripped title
  reads : ∃ gap closing, gap ≠ [] ∧ (∀ c ∈ gap, isSpace c = true) ∧ '\n' ∉ title.toList ∧
    Closes closing ∧ '\n' ∉ closing ∧
    line = List.replicate level '#' ++ (gap ++ (title.toList ++ closing))

/-- The piece stands in the text from `place` on, with nothing else on its lines. -/
def StandsAt (text piece : List Char) (place : Nat) : Prop :=
  ∃ before after, text = before ++ (piece ++ after) ∧ before.length = place ∧
    (∀ c ∈ before.getLast?, c = '\n') ∧ ∀ c ∈ after.head?, c = '\n'

theorem StandsAt.trans {text piece part : List Char} {place offset : Nat}
    (h : StandsAt text piece place) (h' : StandsAt piece part offset) :
    StandsAt text part (place + offset) := by
  obtain ⟨before, after, rfl, rfl, hbefore, hafter⟩ := h
  obtain ⟨first, last, rfl, rfl, hfirst, hlast⟩ := h'
  refine ⟨before ++ first, last ++ after, by simp, by simp, ?_, ?_⟩
  · rw [List.getLast?_append]
    cases hend : first.getLast? with
    | none => simpa using hbefore
    | some c => simpa [hend] using hfirst
  · rw [List.head?_append]
    cases hstart : last.head? with
    | none => simpa using hafter
    | some c => simpa [hstart] using hlast

theorem StandsAt.bound {text piece : List Char} {place : Nat} (h : StandsAt text piece place) :
    place + piece.length ≤ text.length := by
  obtain ⟨before, after, rfl, rfl, -, -⟩ := h
  simp only [List.length_append]
  omega

end Lines

section Matching

/-- What the expression reads, from the start of a line to the end of one. -/
theorem headingRe_inv {before after : List Char} {last : Scan}
    (h : Matches headingRe ⟨before.reverse, after, []⟩ last) :
    ∃ hashes gap raw closing, after = hashes ++ (gap ++ (raw ++ (closing ++ last.rest))) ∧
      last.groups = [(2, raw), (1, hashes)] ∧ (1 ≤ hashes.length ∧ hashes.length ≤ 6) ∧
      (∀ c ∈ hashes, c = '#') ∧ (gap ≠ [] ∧ ∀ c ∈ gap, isSpace c = true) ∧ '\n' ∉ raw ∧
      Closes closing ∧ (∀ c ∈ before.getLast?, c = '\n') ∧ ∀ c ∈ last.rest.head?, c = '\n' := by
  obtain ⟨s₀, ⟨rfl, hstart⟩, s₁, ⟨s₁', ⟨middle, hfirst, hmore⟩, rfl⟩, s₂, hgap, s₃,
    ⟨s₃', hraw, rfl⟩, s₄, hblanks, s₅, hhashes, s₆, hblanks', rfl, hend⟩ := h
  obtain ⟨c, hc, hread⟩ := matches_char hfirst
  obtain ⟨more, hlength, hall, hread'⟩ := matches_upTo hmore
  obtain ⟨gap, hne, hspace, hreadGap⟩ := matches_plus hgap
  obtain ⟨raw, -, hline, hreadRaw⟩ := matches_plus hraw
  obtain ⟨blanks, hb, hreadBlanks⟩ := matches_star hblanks
  obtain ⟨hashes, hh, hreadHashes⟩ := matches_star hhashes
  obtain ⟨blanks', hb', hreadBlanks'⟩ := matches_star hblanks'
  have hreadLevel := hread.trans hread'
  have hreadClosing := hreadBlanks.trans (hreadHashes.trans hreadBlanks')
  refine ⟨[c] ++ more, gap, raw, blanks ++ (hashes ++ blanks'), ?_, ?_, ?_, ?_, ⟨hne, hspace⟩, ?_,
    ⟨blanks, hashes, blanks', rfl, hb, by simpa using hh, hb'⟩, by simpa using hstart, hend⟩
  · have hlevelRest : after = ([c] ++ more) ++ s₁'.rest := hreadLevel.rest
    have hgapRest : s₁'.rest = gap ++ s₂.rest := hreadGap.rest
    have hclosingRest : s₃'.rest = blanks ++ (hashes ++ blanks') ++ last.rest := hreadClosing.rest
    rw [hlevelRest, hgapRest, hreadRaw.rest, hclosingRest]
  · rw [hreadClosing.groups, hreadRaw.take, hreadRaw.groups, hreadGap.groups, hreadLevel.take,
      hreadLevel.groups]
  · simp only [List.singleton_append, List.length_cons]
    omega
  · simpa using ⟨by simpa using hc, by simpa using hall⟩
  · intro hmem
    simpa using hline _ hmem

theorem strip_split (s : String) : ∃ lead trail, s.toList = lead ++ ((strip s).toList ++ trail) ∧
    (∀ c ∈ lead, isSpace c = true) ∧ ∀ c ∈ trail, isSpace c = true := by
  refine ⟨s.toList.takeWhile isSpace, (s.toList.dropWhile isSpace).rtakeWhile isSpace, ?_, ?_, ?_⟩
  · rw [strip, String.toList_ofList, List.rdropWhile_append_rtakeWhile,
      List.takeWhile_append_dropWhile]
  · intro c hc
    exact List.mem_takeWhile_imp hc
  · intro c hc
    exact List.mem_rtakeWhile_imp hc

/-- Each match with a title is a heading line of the text. -/
theorem heading_standsAt {content : String} {found : Re.Match}
    (h : found ∈ headingRe.finditer content) (htitle : strip (found.group 2) ≠ "") :
    ∃ line, HeadingLine (strip (found.group 2)) (found.group 1).length line ∧
      StandsAt content.toList line found.start := by
  obtain ⟨before, after, last, htext, hmatches, rfl⟩ := mem_finditer h
  obtain ⟨hashes, gap, raw, closing, rfl, hgroups, hlevel, hhashes, hgap, hraw, hcloses, hbefore,
    hend⟩ := headingRe_inv hmatches
  have htwo : (⟨before.length, last.pos, last.groups⟩ : Re.Match).group 2 = String.ofList raw := by
    simp [Re.Match.group, hgroups]
  have hone : (⟨before.length, last.pos, last.groups⟩ : Re.Match).group 1 = String.ofList hashes := by
    simp [Re.Match.group, hgroups, List.lookup_cons]
  rw [htwo] at htitle ⊢
  rw [hone, String.length_ofList]
  have hstripped := stripped_strip htitle
  obtain ⟨lead, trail, hsplit, hlead, htrail⟩ := strip_split (String.ofList raw)
  rw [String.toList_ofList] at hsplit
  generalize strip (String.ofList raw) = title at *
  subst hsplit
  -- the line ends at the first break of what closes the heading
  have hbreak := List.head?_dropWhile_not (· ≠ '\n') (trail ++ closing)
  have hclosing : (trail ++ closing).takeWhile (· ≠ '\n') ++
      (trail ++ closing).dropWhile (· ≠ '\n') = trail ++ closing := List.takeWhile_append_dropWhile
  have hinit := List.prefix_iff_eq_take.mp (List.takeWhile_prefix (l := trail ++ closing)
    (· ≠ '\n'))
  have hinside : '\n' ∉ (trail ++ closing).takeWhile (· ≠ '\n') := by
    intro hmem
    simpa using List.mem_takeWhile_imp hmem
  generalize (trail ++ closing).takeWhile (· ≠ '\n') = inside,
    (trail ++ closing).dropWhile (· ≠ '\n') = beyond at *
  refine ⟨_, ⟨hlevel, hstripped, gap ++ lead, inside, ?_, ?_, ?_, ?_, hinside, rfl⟩, before,
    beyond ++ last.rest, ?_, rfl, hbefore, ?_⟩
  · simp [hgap.1]
  · exact List.forall_mem_append.mpr ⟨hgap.2, hlead⟩
  · intro hmem
    exact hraw (by simp [hmem])
  · rw [hinit]
    exact (hcloses.blanks_append htrail).take _
  · rw [← List.eq_replicate_of_mem hhashes, htext]
    have hrest : inside ++ (beyond ++ last.rest) = trail ++ (closing ++ last.rest) := by
      rw [← List.append_assoc, hclosing, List.append_assoc]
    simp only [List.append_assoc, hrest]
  · rw [List.head?_append]
    cases hhead : beyond.head? with
    | none => simpa using hend
    | some c => simpa [hhead] using hbreak

end Matching

section Pages

/-- Every page stands where its offset says. -/
theorem page_standsAt {pages : List Page} {page : Page} {cursor offset : Nat} {before : List Char}
    (h : (page, offset) ∈ pages.zip (pageOffsetsFrom cursor pages)) (hlength : before.length = cursor)
    (hbefore : ∀ c ∈ before.getLast?, c = '\n') :
    StandsAt (before ++ joined pages) page.text.toList offset := by
  induction pages generalizing cursor before with
  | nil => cases h
  | cons first rest ih =>
    rw [pageOffsetsFrom, List.zip_cons_cons] at h
    rw [joined_cons]
    rcases List.mem_cons.mp h with heq | hlater
    · obtain ⟨rfl, rfl⟩ := Prod.mk.inj heq
      refine ⟨before, _, rfl, hlength, hbefore, ?_⟩
      split
      · simp
      · intro c hc
        rw [List.head?_append] at hc
        exact (Option.some.inj hc).symm
    · have hrest : rest ≠ [] := by
        rintro rfl
        cases hlater
      have hpast : (before ++ (first.text.toList ++ pageJoinSeparator.toList)).length =
          pastPage cursor first rest := by
        simp [pastPage, hrest, hlength, String.length_toList, Nat.add_assoc]
      have hmore := ih hlater hpast (by simp [pageJoinSeparator])
      rwa [if_neg hrest, ← List.append_assoc first.text.toList, ← List.append_assoc before]

theorem headingStart_page {pages : List Page} {cursor index : Nat} {heading : HeadingStart}
    (h : heading ∈ headingStarts cursor index pages) : ∃ page offset index',
      (page, offset) ∈ pages.zip (pageOffsetsFrom cursor pages) ∧
        heading ∈ pageHeadings offset index' page := by
  induction pages generalizing cursor index with
  | nil => cases h
  | cons page rest ih =>
    rcases List.mem_append.mp h with hhere | hlater
    · exact ⟨page, cursor, index, List.mem_cons_self, hhere⟩
    · obtain ⟨other, offset, index', hmem, hheading⟩ := ih hlater
      exact ⟨other, offset, index', List.mem_cons_of_mem _ hmem, hheading⟩

theorem mem_pageHeadings {cursor index : Nat} {page : Page} {heading : HeadingStart}
    (h : heading ∈ pageHeadings cursor index page) :
    ∃ found ∈ headingRe.finditer page.text, strip (found.group 2) ≠ "" ∧
      heading = ⟨strip (found.group 2), (found.group 1).length, pageNum index page,
        cursor + found.start⟩ := by
  obtain ⟨found, hfound, hheading⟩ := List.mem_filterMap.mp h
  dsimp only at hheading
  split at hheading
  · cases hheading
  · rename_i htitle
    exact ⟨found, hfound, htitle, (Option.some.inj hheading).symm⟩

/-- The heading's line stands at its place. -/
def HeadingAt (text : List Char) (heading : HeadingStart) : Prop :=
  ∃ line, HeadingLine heading.title heading.level line ∧ StandsAt text line heading.charStart

theorem headingStarts_at {pages : List Page} {heading : HeadingStart}
    (h : heading ∈ headingStarts 0 0 pages) : HeadingAt (joined pages) heading := by
  obtain ⟨page, offset, index, hpage, hheading⟩ := headingStart_page h
  obtain ⟨found, hfound, htitle, rfl⟩ := mem_pageHeadings hheading
  obtain ⟨line, hline, hstands⟩ := heading_standsAt hfound htitle
  have hat : StandsAt ([] ++ joined pages) page.text.toList offset :=
    page_standsAt hpage rfl (by simp)
  exact ⟨line, hline, hat.trans hstands⟩

theorem headingStarts_bounds {pages : List Page} {heading : HeadingStart} {cursor index : Nat}
    (h : heading ∈ headingStarts cursor index pages) :
    cursor ≤ heading.charStart ∧ heading.charStart < totalLength cursor pages := by
  rw [headingStarts_eq] at h
  exact headingsFound_bounds (fun _ page _ => headingFinder_inOrder _ page) h

theorem headingStarts_sorted (cursor index : Nat) (pages : List Page) :
    (headingStarts cursor index pages).Pairwise fun first second =>
      first.charStart < second.charStart := by
  rw [headingStarts_eq]
  exact headingsFound_sorted fun _ page _ => headingFinder_inOrder _ page

end Pages

section Outline

/-- The headings of the outline are those found on the pages, in their order. -/
theorem outlineHeadings_buildOutline (pages : List Page) : outlineHeadings (buildOutline pages) =
    withEnds (totalLength 0 pages) (headingStarts 0 0 pages) := by
  rw [buildOutline, treeFrom_headings]
  rfl

/-- The parts of the headings follow one another from the first heading to the end of the text. -/
theorem tiles_headings {pages : List Page} {first : HeadingStart} {rest : List HeadingStart}
    (h : headingStarts 0 0 pages = first :: rest) :
    Tiles first.charStart (joined pages).length
      ((outlineHeadings (buildOutline pages)).map Heading.span) := by
  rw [headingStarts_eq] at h
  rw [buildOutline_eq]
  exact tiles_outlineFound (fun _ page _ => headingFinder_inOrder _ page) h

theorem heading_charEnd_le {pages : List Page} {heading : Heading}
    (h : heading ∈ outlineHeadings (buildOutline pages)) :
    heading.charEnd ≤ (joined pages).length := by
  cases hstarts : headingStarts 0 0 pages with
  | nil =>
    rw [outlineHeadings_buildOutline, hstarts] at h
    cases h
  | cons first rest =>
    exact (tiles_headings hstarts).stop_le (List.mem_map_of_mem h)

end Outline

end Cygnus.Substrate
