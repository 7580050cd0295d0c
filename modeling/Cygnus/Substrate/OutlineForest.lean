import Cygnus.Substrate.Assembly

/-! Outlines of pages on which headings were found, whatever expression finds them. -/

namespace Cygnus.Substrate

open Text Regex Re Spans

section Found

/-- Matches on a text from left to right, none of them empty and no two overlapping. -/
structure InOrder (text : String) (found : List Re.Match) : Prop where
  inside : ∀ one ∈ found, one.start < one.stop ∧ one.stop ≤ text.length
  apart : found.Pairwise fun first second => first.stop ≤ second.start

/-- What is found on a page, by the index of the page. -/
abbrev Finder := Nat → Page → List Re.Match

/-- The finder that `build_outline` runs. -/
def headingFinder : Finder := fun _ page => headingRe.finditer page.text

/-- `found` as a heading of its page, when it has a title. -/
def headingOf (cursor index : Nat) (page : Page) (found : Re.Match) : Option HeadingStart :=
  let title := strip (found.group 2)
  if title = "" then none
  else some ⟨title, (found.group 1).length, pageNum index page, cursor + found.start⟩

def headingsFound (find : Finder) (cursor index : Nat) : List Page → List HeadingStart
  | [] => []
  | page :: rest => (find index page).filterMap (headingOf cursor index page) ++
      headingsFound find (pastPage cursor page rest) (index + 1) rest

/-- `build_outline` with other matches on the pages. -/
def outlineFound (find : Finder) (pages : List Page) : List OutlineNode :=
  treeFrom [] [] (withEnds (totalLength 0 pages) (headingsFound find 0 0 pages))

theorem headingStarts_eq (cursor index : Nat) (pages : List Page) :
    headingStarts cursor index pages = headingsFound headingFinder cursor index pages := by
  induction pages generalizing cursor index with
  | nil => rfl
  | cons page rest ih => exact congrArg (pageHeadings cursor index page ++ ·) (ih _ _)

theorem buildOutline_eq (pages : List Page) :
    buildOutline pages = outlineFound headingFinder pages := by
  rw [buildOutline, headingStarts_eq]
  rfl

theorem headingFinder_inOrder (index : Nat) (page : Page) :
    InOrder page.text (headingFinder index page) where
  inside _ h := finditer_inside (by decide) h
  apart := finditer_apart (by decide) page.text

variable {find : Finder} {cursor index : Nat} {page : Page} {pages : List Page}
  {heading : HeadingStart} {found : Re.Match}

theorem headingOf_some (h : headingOf cursor index page found = some heading) :
    strip (found.group 2) ≠ "" ∧ heading = ⟨strip (found.group 2), (found.group 1).length,
      pageNum index page, cursor + found.start⟩ := by
  unfold headingOf at h
  dsimp only at h
  split at h
  · cases h
  · rename_i htitle
    exact ⟨htitle, (Option.some.inj h).symm⟩

theorem headingOf_bounds (horder : InOrder page.text (find index page))
    (h : heading ∈ (find index page).filterMap (headingOf cursor index page)) :
    cursor ≤ heading.charStart ∧ heading.charStart < cursor + page.text.length := by
  obtain ⟨found, hfound, hheading⟩ := List.mem_filterMap.mp h
  obtain ⟨-, rfl⟩ := headingOf_some hheading
  obtain ⟨hlt, hle⟩ := horder.inside found hfound
  exact ⟨Nat.le_add_right _ _, Nat.add_lt_add_left (Nat.lt_of_lt_of_le hlt hle) _⟩

/-- Each page of the list, counted from `index` on, has its matches in order. -/
def PagesInOrder (find : Finder) (index : Nat) (pages : List Page) : Prop :=
  ∀ i page, pages[i]? = some page → InOrder page.text (find (index + i) page)

theorem PagesInOrder.head {rest : List Page} (h : PagesInOrder find index (page :: rest)) :
    InOrder page.text (find index page) := h 0 page rfl

theorem PagesInOrder.tail {rest : List Page} (h : PagesInOrder find index (page :: rest)) :
    PagesInOrder find (index + 1) rest := by
  intro i other hother
  rw [Nat.add_assoc, Nat.add_comm 1]
  exact h (i + 1) other hother

theorem headingsFound_bounds (horder : PagesInOrder find index pages)
    (h : heading ∈ headingsFound find cursor index pages) :
    cursor ≤ heading.charStart ∧ heading.charStart < totalLength cursor pages := by
  induction pages generalizing cursor index with
  | nil => cases h
  | cons page rest ih =>
    have htotal := totalLength_le cursor page rest
    rcases List.mem_append.mp h with hhere | hlater
    · have := headingOf_bounds horder.head hhere
      omega
    · have := ih horder.tail hlater
      rw [totalLength]
      omega

theorem pageFound_sorted (horder : InOrder page.text (find index page)) :
    ((find index page).filterMap (headingOf cursor index page)).Pairwise fun first second =>
      first.charStart < second.charStart := by
  have hsorted : (find index page).Pairwise fun first second => first.start < second.start := by
    refine horder.apart.imp_of_mem ?_
    intro first second hfirst _ hapart
    exact Nat.lt_of_lt_of_le (horder.inside first hfirst).1 hapart
  refine hsorted.filterMap _ ?_
  intro first second hlt heading hheading heading' hheading'
  obtain ⟨-, rfl⟩ := headingOf_some hheading
  obtain ⟨-, rfl⟩ := headingOf_some hheading'
  exact Nat.add_lt_add_left hlt cursor

theorem headingsFound_sorted (horder : PagesInOrder find index pages) :
    (headingsFound find cursor index pages).Pairwise fun first second =>
      first.charStart < second.charStart := by
  induction pages generalizing cursor index with
  | nil => exact .nil
  | cons page rest ih =>
    refine List.pairwise_append.mpr ⟨pageFound_sorted horder.head, ih horder.tail, ?_⟩
    intro first hfirst second hsecond
    have hbefore := headingOf_bounds horder.head hfirst
    have hafter := headingsFound_bounds horder.tail hsecond
    have := totalLength_le cursor page rest
    omega

theorem mem_headingsFound (h : heading ∈ headingsFound find cursor index pages) :
    ∃ i page span found, pages[i]? = some page ∧ (pageSpansFrom cursor pages)[i]? = some span ∧
      found ∈ find (index + i) page ∧ headingOf span.1 (index + i) page found = some heading := by
  induction pages generalizing cursor index with
  | nil => cases h
  | cons page rest ih =>
    rcases List.mem_append.mp h with hhere | hlater
    · obtain ⟨found, hfound, hheading⟩ := List.mem_filterMap.mp hhere
      exact ⟨0, page, _, found, rfl, rfl, hfound, hheading⟩
    · obtain ⟨i, other, span, found, hpage, hspan, hfound, hheading⟩ := ih hlater
      rw [Nat.add_assoc, Nat.add_comm 1] at hfound hheading
      exact ⟨i + 1, other, span, found, hpage, hspan, hfound, hheading⟩

/-- The headings in the order of the document, by the places where the pages begin. -/
theorem headingsFound_eq (find : Finder) (cursor index : Nat) (pages : List Page) :
    headingsFound find cursor index pages =
      ((pages.zip (pageOffsetsFrom cursor pages)).zipIdx index).flatMap fun placed =>
        (find placed.2 placed.1.1).filterMap (headingOf placed.1.2 placed.2 placed.1.1) := by
  induction pages generalizing cursor index with
  | nil => rfl
  | cons page rest ih =>
    rw [headingsFound, ih, pageOffsetsFrom, List.zip_cons_cons, List.zipIdx_cons, List.flatMap_cons]

end Found

section Outline

/-- The headings of a forest, each before those of its children. -/
def outlineHeadings (nodes : List OutlineNode) : List Heading :=
  (flattenOutline 0 nodes).map Prod.fst

theorem map_fst_flatten (depth depth' : Nat) :
    ∀ nodes, (flattenOutline depth nodes).map Prod.fst = (flattenOutline depth' nodes).map Prod.fst
  | [] => rfl
  | .node heading children :: nodes => by
    simp only [flattenOutline, OutlineNode.flatten, List.cons_append, List.map_cons, List.map_append]
    rw [map_fst_flatten (depth + 1) (depth' + 1) children, map_fst_flatten depth depth' nodes]

@[simp] theorem outlineHeadings_nil : outlineHeadings [] = [] := rfl

theorem outlineHeadings_cons (heading : Heading) (children nodes : List OutlineNode) :
    outlineHeadings (.node heading children :: nodes) =
      heading :: (outlineHeadings children ++ outlineHeadings nodes) := by
  simp only [outlineHeadings, flattenOutline, OutlineNode.flatten, List.cons_append, List.map_cons,
    List.map_append, map_fst_flatten (0 + 1) 0]

@[simp] theorem outlineHeadings_append (nodes nodes' : List OutlineNode) :
    outlineHeadings (nodes ++ nodes') = outlineHeadings nodes ++ outlineHeadings nodes' := by
  induction nodes with
  | nil => rfl
  | cons node nodes ih =>
    cases node
    rw [List.cons_append, outlineHeadings_cons, outlineHeadings_cons, ih, List.cons_append,
      List.append_assoc]

/-- The headings on a stack, the bottom one first. -/
def stackHeadings : List OpenNode → List Heading
  | [] => []
  | top :: stack => stackHeadings stack ++ top.heading :: outlineHeadings top.children

theorem popWhile_headings (level : Nat) (closed : List OutlineNode) (stack : List OpenNode) :
    outlineHeadings (popWhile level closed stack).1 ++
        stackHeadings (popWhile level closed stack).2 =
      stackHeadings stack ++ outlineHeadings closed := by
  induction stack generalizing closed with
  | nil => simp [popWhile, stackHeadings]
  | cons top stack ih =>
    unfold popWhile
    split
    · rw [ih, OpenNode.close, outlineHeadings_cons]
      simp [stackHeadings]
    · simp [stackHeadings]

theorem popWhile_zero (closed : List OutlineNode) (stack : List OpenNode) :
    (popWhile 0 closed stack).2 = [] := by
  induction stack generalizing closed with
  | nil => rfl
  | cons top stack ih =>
    rw [popWhile, if_pos (Nat.zero_le _)]
    exact ih _

theorem treeFrom_headings (roots : List OutlineNode) (stack : List OpenNode)
    (headings : List Heading) : outlineHeadings (treeFrom roots stack headings) =
      outlineHeadings roots ++ (stackHeadings stack ++ headings) := by
  induction headings generalizing roots stack with
  | nil =>
    have hpopped := popWhile_headings 0 [] stack
    rw [popWhile_zero] at hpopped
    simp only [stackHeadings, outlineHeadings_nil, List.append_nil] at hpopped
    rw [treeFrom, outlineHeadings_append, hpopped, List.append_nil]
  | cons heading rest ih =>
    have hpopped := popWhile_headings heading.level [] stack
    rw [outlineHeadings_nil, List.append_nil] at hpopped
    rw [treeFrom, ih, outlineHeadings_append, stackHeadings, outlineHeadings_nil, ← hpopped]
    simp only [List.append_assoc, List.singleton_append]

theorem mem_withEnds {total : Nat} {headings : List HeadingStart} {heading : Heading}
    (h : heading ∈ withEnds total headings) : heading.toHeadingStart ∈ headings := by
  induction headings with
  | nil => cases h
  | cons first rest ih =>
    rcases List.mem_cons.mp h with rfl | hlater
    · exact List.mem_cons_self
    · exact List.mem_cons_of_mem _ (ih hlater)

/-- The part of the text that belongs to a heading. -/
def Heading.span (heading : Heading) : Span := (heading.charStart, heading.charEnd)

theorem map_span_withEnds (total : Nat) (headings : List HeadingStart) :
    (withEnds total headings).map Heading.span =
      between total (headings.map HeadingStart.charStart) := by
  induction headings with
  | nil => rfl
  | cons first rest ih =>
    rw [withEnds, List.map_cons, ih, List.map_cons, between]
    cases rest <;> rfl

end Outline

section Nesting

mutual

def OutlineNode.walk : OutlineNode → List Heading
  | .node heading children => heading :: walkOutline children

/-- `flatten_outline`. -/
def walkOutline : List OutlineNode → List Heading
  | [] => []
  | node :: nodes => node.walk ++ walkOutline nodes

end

theorem walkOutline_eq : ∀ nodes, walkOutline nodes = outlineHeadings nodes
  | [] => rfl
  | .node heading children :: nodes => by
    rw [walkOutline, OutlineNode.walk, outlineHeadings_cons, walkOutline_eq children,
      walkOutline_eq nodes, List.cons_append]

def OutlineNode.heading : OutlineNode → Heading
  | .node heading _ => heading

mutual

/-- Every child is of a greater level than its parent. -/
def OutlineNode.Nested : OutlineNode → Prop
  | .node heading children =>
    (∀ child ∈ children, heading.level < child.heading.level) ∧ NestedForest children

def NestedForest : List OutlineNode → Prop
  | [] => True
  | node :: nodes => node.Nested ∧ NestedForest nodes

end

theorem nestedForest_nil : NestedForest [] := trivial

theorem NestedForest.append {nodes nodes' : List OutlineNode} (h : NestedForest nodes)
    (h' : NestedForest nodes') : NestedForest (nodes ++ nodes') := by
  induction nodes with
  | nil => exact h'
  | cons node nodes ih =>
    rw [NestedForest] at h
    rw [List.cons_append, NestedForest]
    exact ⟨h.1, ih h.2⟩

/-- The nodes are of a greater level than what they are going to hang from. -/
def Above (nodes : List OutlineNode) (stack : List OpenNode) : Prop :=
  ∀ top ∈ stack.head?, ∀ node ∈ nodes, top.heading.level < node.heading.level

theorem above_nil (stack : List OpenNode) : Above [] stack := fun _ _ _ hmem => by cases hmem

/-- The levels grow towards the top of the stack, and those of the children of its nodes further. -/
def Opened : List OpenNode → Prop
  | [] => True
  | top :: stack => Above top.children [top] ∧ NestedForest top.children ∧
      (∀ below ∈ stack.head?, below.heading.level < top.heading.level) ∧ Opened stack

theorem popWhile_nested {level : Nat} {closed : List OutlineNode} {stack : List OpenNode}
    (hclosed : NestedForest closed) (habove : Above closed stack) (hstack : Opened stack) :
    NestedForest (popWhile level closed stack).1 ∧ Opened (popWhile level closed stack).2 ∧
      ∀ top ∈ (popWhile level closed stack).2.head?, top.heading.level < level := by
  induction stack generalizing closed with
  | nil => exact ⟨hclosed, hstack, by simp [popWhile]⟩
  | cons top stack ih =>
    obtain ⟨hchildren, hnested, hbelow, hrest⟩ := hstack
    have hall : ∀ child ∈ top.children ++ closed, top.heading.level < child.heading.level :=
      List.forall_mem_append.mpr ⟨hchildren top rfl, habove top rfl⟩
    have hforest := hnested.append hclosed
    unfold popWhile
    split
    · refine ih ?_ ?_ hrest
      · rw [OpenNode.close, NestedForest, OutlineNode.Nested]
        exact ⟨⟨hall, hforest⟩, trivial⟩
      · intro below hmem node hnode
        obtain rfl := List.mem_singleton.mp hnode
        exact hbelow below hmem
    · rename_i hlevel
      refine ⟨trivial, ⟨?_, hforest, hbelow, hrest⟩, ?_⟩
      · intro other hother node hnode
        obtain rfl := Option.some.inj hother
        exact hall node hnode
      · intro other hother
        obtain rfl := Option.some.inj hother
        exact Nat.not_le.mp hlevel

theorem treeFrom_nested {roots : List OutlineNode} {stack : List OpenNode}
    (hroots : NestedForest roots) (hstack : Opened stack) (headings : List Heading) :
    NestedForest (treeFrom roots stack headings) := by
  induction headings generalizing roots stack with
  | nil => exact hroots.append (popWhile_nested nestedForest_nil (above_nil stack) hstack).1
  | cons heading rest ih =>
    obtain ⟨hclosed, hopened, htop⟩ := popWhile_nested nestedForest_nil (above_nil stack) hstack
    exact ih (hroots.append hclosed) ⟨above_nil _, nestedForest_nil, htop, hopened⟩

end Nesting

section Whole

/-- What an outline says about the text that the pages make up. -/
structure Outlines (find : Finder) (pages : List Page) (nodes : List OutlineNode) : Prop where
  /-- The headings of each page in turn, with the places that `assemble_full_text` gives the pages. -/
  order : (walkOutline nodes).map Heading.toHeadingStart =
    ((pages.zip (assembleFullText pages).2).zipIdx).flatMap fun placed =>
      (find placed.2 placed.1.1).filterMap (headingOf placed.1.2 placed.2 placed.1.1)
  increasing : (walkOutline nodes).Pairwise fun first second => first.charStart < second.charStart
  tiles : ∀ first ∈ (walkOutline nodes).head?,
    Tiles first.charStart (joined pages).length ((walkOutline nodes).map Heading.span)
  placed : ∀ heading ∈ walkOutline nodes, ∃ index page found, pages[index]? = some page ∧
    found ∈ find index page ∧ heading.title = strip (found.group 2) ∧
    heading.level = (found.group 1).length ∧
    stretch (joined pages) heading.charStart (heading.charStart + (found.stop - found.start)) =
      stretch page.text.toList found.start found.stop
  nested : NestedForest nodes

theorem stretch_inside {xs : List Char} {first last start stop : Nat} (hstop : first + stop ≤ last) :
    stretch xs (first + start) (first + start + (stop - start)) =
      stretch (stretch xs first last) start stop := by
  rw [stretch, stretch, stretch, List.drop_take, List.drop_drop, List.take_take]
  congr 1
  omega

theorem outlineHeadings_outlineFound (find : Finder) (pages : List Page) :
    outlineHeadings (outlineFound find pages) =
      withEnds (totalLength 0 pages) (headingsFound find 0 0 pages) := by
  rw [outlineFound, treeFrom_headings]
  rfl

theorem map_toHeadingStart_withEnds (total : Nat) (headings : List HeadingStart) :
    (withEnds total headings).map Heading.toHeadingStart = headings := by
  induction headings with
  | nil => rfl
  | cons first rest ih => exact congrArg (first :: ·) ih

/-- The parts of the headings follow one another from the first heading to the end of the text. -/
theorem tiles_outlineFound {find : Finder} {pages : List Page} {first : HeadingStart}
    {rest : List HeadingStart} (horder : PagesInOrder find 0 pages)
    (h : headingsFound find 0 0 pages = first :: rest) :
    Tiles first.charStart (joined pages).length
      ((outlineHeadings (outlineFound find pages)).map Heading.span) := by
  rw [outlineHeadings_outlineFound, map_span_withEnds, totalLength_eq, Nat.zero_add]
  have hsorted : (headingsFound find 0 0 pages).Pairwise fun first second =>
      first.charStart < second.charStart := headingsFound_sorted horder
  have hbounds : ∀ heading ∈ headingsFound find 0 0 pages,
      heading.charStart ≤ (joined pages).length := by
    intro heading hmem
    have := (headingsFound_bounds horder hmem).2
    rw [totalLength_eq] at this
    omega
  rw [h] at hsorted hbounds ⊢
  have hplaces : ∀ place ∈ (first :: rest).map HeadingStart.charStart,
      place ≤ (joined pages).length := List.forall_mem_map.mpr hbounds
  exact tiles_between (List.pairwise_map.mpr hsorted) hplaces

/-- The pages come back out of the assembled text, and the outline of any matches on them lists the
headings in their order, at their places, up to the end of the text. -/
theorem assembled_outline {find : Finder} {pages : List Page}
    (horder : ∀ index page, pages[index]? = some page → InOrder page.text (find index page)) :
    (∀ pageNumbers,
      slicePagesByRange (assembleFullText pages).1 (assembleFullText pages).2 pageNumbers =
        pageNumbers.filterMap fun number =>
          if number < 1 then none
          else pages[(number - 1).toNat]?.map fun page => (number, page.text)) ∧
      Outlines find pages (outlineFound find pages) := by
  have hinorder : PagesInOrder find 0 pages := by
    intro index page hpage
    rw [Nat.zero_add]
    exact horder index page hpage
  have hwalk : walkOutline (outlineFound find pages) =
      withEnds (totalLength 0 pages) (headingsFound find 0 0 pages) :=
    (walkOutline_eq _).trans (outlineHeadings_outlineFound find pages)
  have hstarts : (walkOutline (outlineFound find pages)).map Heading.toHeadingStart =
      headingsFound find 0 0 pages := by
    rw [hwalk, map_toHeadingStart_withEnds]
  refine ⟨slicePagesByRange_assembleFullText pages, ?_, ?_, ?_, ?_, ?_⟩
  · rw [hstarts, headingsFound_eq]
    rfl
  · have hsorted : (headingsFound find 0 0 pages).Pairwise fun first second =>
        first.charStart < second.charStart := headingsFound_sorted hinorder
    rwa [← hstarts, List.pairwise_map] at hsorted
  · intro first hfirst
    rw [walkOutline_eq] at hfirst ⊢
    rw [outlineHeadings_outlineFound] at hfirst
    cases hfound : headingsFound find 0 0 pages with
    | nil =>
      rw [hfound] at hfirst
      cases hfirst
    | cons start rest =>
      rw [hfound] at hfirst
      obtain rfl := Option.some.inj hfirst
      exact tiles_outlineFound hinorder hfound
  · intro heading hheading
    have hmem : heading.toHeadingStart ∈ headingsFound find 0 0 pages :=
      hstarts ▸ List.mem_map_of_mem hheading
    obtain ⟨index, page, span, found, hpage, hspan, hfound, hof⟩ := mem_headingsFound hmem
    rw [Nat.zero_add] at hfound
    have htext : page.text.toList = stretch (joined pages) span.1 span.2 := by
      simpa [hpage] using stretch_pageSpans hspan
    have hstop : span.1 + found.stop ≤ span.2 := by
      obtain ⟨-, hle, hlast⟩ := mem_pageSpansFrom (List.mem_of_getElem? hspan)
      have hinside := ((horder index page hpage).inside found hfound).2
      rw [totalLength_eq, Nat.zero_add] at hlast
      rw [← String.length_toList, htext, length_stretch hle hlast] at hinside
      omega
    obtain ⟨-, hstart⟩ := headingOf_some hof
    refine ⟨index, page, found, hpage, hfound, congrArg HeadingStart.title hstart,
      congrArg HeadingStart.level hstart, ?_⟩
    rw [congrArg HeadingStart.charStart hstart, stretch_inside hstop, ← htext]
  · have hstack : Opened [] := trivial
    exact treeFrom_nested nestedForest_nil hstack _

theorem assembled_outline_pages :
    (let pages := [⟨some "# A\n### B", some 1⟩, ⟨none, none⟩, ⟨some "## C", none⟩]
    slicePagesByRange (assembleFullText pages).1 (assembleFullText pages).2 [3, 0, 2, 4, 3] =
      [(3, "## C"), (2, ""), (3, "## C")] ∧ Outlines headingFinder pages (buildOutline pages)) := by
  intro pages
  have horder : ∀ index page, pages[index]? = some page →
      InOrder page.text (headingFinder index page) :=
    fun index page _ => headingFinder_inOrder index page
  have h := assembled_outline horder
  rw [buildOutline_eq]
  exact ⟨(h.1 _).trans (by decide), h.2⟩

end Whole

end Cygnus.Substrate
