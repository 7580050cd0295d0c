import Cygnus.Data.Spans
import Cygnus.Substrate.SourceOutline

/-! Where the pages of a source are in the text that they make up. -/

namespace Cygnus.Substrate

open Text Spans

/-- The text that the pages make up. -/
def joined (pages : List Page) : List Char := (assembleFullText pages).1.toList

theorem joined_cons (page : Page) (rest : List Page) : joined (page :: rest) =
    page.text.toList ++ if rest = [] then [] else pageJoinSeparator.toList ++ joined rest := by
  unfold joined assembleFullText
  split
  · rename_i h
    subst h
    rw [List.map_singleton, String.intercalate_singleton, List.append_nil]
  · rename_i h
    rw [List.map_cons, String.intercalate_cons_of_ne_nil (by simpa using h), String.toList_append,
      String.toList_append, List.append_assoc]

theorem length_joined_cons (page : Page) (rest : List Page) : (joined (page :: rest)).length =
    page.text.length + (if rest = [] then 0 else pageJoinSeparator.length) +
      if rest = [] then 0 else (joined rest).length := by
  rw [joined_cons]
  split
  · simp [String.length_toList]
  · simp [String.length_toList, Nat.add_assoc]

theorem totalLength_eq (cursor : Nat) (pages : List Page) :
    totalLength cursor pages = cursor + (joined pages).length := by
  induction pages generalizing cursor with
  | nil => rfl
  | cons page rest ih =>
    rw [totalLength, ih, pastPage, length_joined_cons]
    by_cases hrest : rest = []
    · subst hrest
      simp [joined, assembleFullText]
    · simp only [if_neg hrest]
      omega

theorem totalLength_le (cursor : Nat) (page : Page) (rest : List Page) :
    cursor + page.text.length ≤ pastPage cursor page rest ∧
      pastPage cursor page rest ≤ totalLength cursor (page :: rest) := by
  rw [totalLength, totalLength_eq, pastPage]
  omega

section Pages

/-- From where to where each page reaches. -/
def pageSpansFrom (cursor : Nat) : List Page → List Span
  | [] => []
  | page :: rest =>
    (cursor, cursor + page.text.length) :: pageSpansFrom (pastPage cursor page rest) rest

abbrev pageSpans (pages : List Page) : List Span := pageSpansFrom 0 pages

@[simp] theorem length_pageSpansFrom (cursor : Nat) (pages : List Page) :
    (pageSpansFrom cursor pages).length = pages.length := by
  induction pages generalizing cursor with
  | nil => rfl
  | cons page rest ih => exact congrArg (· + 1) (ih _)

/-- Each page begins at its offset. -/
theorem map_fst_pageSpansFrom (cursor : Nat) (pages : List Page) :
    (pageSpansFrom cursor pages).map Prod.fst = pageOffsetsFrom cursor pages := by
  induction pages generalizing cursor with
  | nil => rfl
  | cons page rest ih => exact congrArg (cursor :: ·) (ih _)

@[simp] theorem length_pageOffsetsFrom (cursor : Nat) (pages : List Page) :
    (pageOffsetsFrom cursor pages).length = pages.length := by
  rw [← map_fst_pageSpansFrom, List.length_map, length_pageSpansFrom]

theorem mem_pageSpansFrom {cursor : Nat} {pages : List Page} {span : Span}
    (h : span ∈ pageSpansFrom cursor pages) :
    cursor ≤ span.1 ∧ span.1 ≤ span.2 ∧ span.2 ≤ totalLength cursor pages := by
  induction pages generalizing cursor with
  | nil => cases h
  | cons page rest ih =>
    have htotal := totalLength_le cursor page rest
    rcases List.mem_cons.mp h with rfl | hlater
    · exact ⟨Nat.le_refl _, Nat.le_add_right _ _, htotal.1.trans htotal.2⟩
    · obtain ⟨hfirst, hle, hlast⟩ := ih hlater
      exact ⟨by omega, hle, hlast⟩

/-- A page ends in front of the next one. -/
theorem pageSpansFrom_apart (cursor : Nat) (pages : List Page) :
    (pageSpansFrom cursor pages).Pairwise fun first second => first.2 < second.1 := by
  induction pages generalizing cursor with
  | nil => exact .nil
  | cons page rest ih =>
    refine List.pairwise_cons.mpr ⟨?_, ih _⟩
    intro second hsecond
    have hafter := (mem_pageSpansFrom hsecond).1
    have hrest : rest ≠ [] := by
      rintro rfl
      cases hsecond
    rw [pastPage, if_neg hrest] at hafter
    exact Nat.lt_of_lt_of_le (Nat.lt_add_of_pos_right (by decide)) hafter

/-- Each page is what stands between its ends. -/
theorem pageSpansFrom_text {cursor : Nat} {before : List Char} (hbefore : before.length = cursor)
    (pages : List Page) :
    (pageSpansFrom cursor pages).map (fun span => stretch (before ++ joined pages) span.1 span.2) =
      pages.map fun page => page.text.toList := by
  induction pages generalizing cursor before with
  | nil => rfl
  | cons page rest ih =>
    rw [pageSpansFrom, List.map_cons, List.map_cons, joined_cons]
    congr 1
    · rw [stretch, List.drop_left' hbefore, Nat.add_sub_cancel_left,
        List.take_left' (String.length_toList (s := page.text))]
    · by_cases hrest : rest = []
      · subst hrest
        rfl
      · have hpast : (before ++ (page.text.toList ++ pageJoinSeparator.toList)).length =
            pastPage cursor page rest := by
          simp [pastPage, hrest, hbefore, String.length_toList, Nat.add_assoc]
        rw [if_neg hrest, ← ih hpast, ← List.append_assoc page.text.toList,
          ← List.append_assoc before]

/-- A page reaches to the separator in front of the next one, the last one to the end. -/
theorem pageSpansFrom_stop {cursor index : Nat} {pages : List Page} {span : Span}
    (h : (pageSpansFrom cursor pages)[index]? = some span) :
    (if index + 1 < (pageOffsetsFrom cursor pages).length then
        ((pageOffsetsFrom cursor pages).getD (index + 1) 0 : Int) - pageJoinSeparator.length
      else ((cursor + (joined pages).length : Nat) : Int)) = span.2 := by
  induction pages generalizing cursor index with
  | nil => cases h
  | cons page rest ih =>
    cases index with
    | zero =>
      obtain rfl := Option.some.inj h
      cases rest with
      | nil => simp [pageOffsetsFrom, joined, assembleFullText, String.length_toList]
      | cons next rest => simp [pageOffsetsFrom, pastPage]
    | succ index =>
      have hrest : rest ≠ [] := by
        rintro rfl
        cases h
      rw [← ih h, pageOffsetsFrom, List.getD_cons_succ, List.length_cons, length_joined_cons,
        if_congr Nat.add_lt_add_iff_right rfl rfl]
      simp only [pastPage, if_neg hrest, Nat.add_assoc]

theorem stretch_pageSpans {pages : List Page} {index : Nat} {span : Span}
    (h : (pageSpans pages)[index]? = some span) :
    pages[index]?.map (fun page => page.text.toList) =
      some (stretch (joined pages) span.1 span.2) := by
  have htext : (pageSpans pages).map (fun span => stretch (joined pages) span.1 span.2) =
      pages.map fun page => page.text.toList := pageSpansFrom_text (rfl : ([] : List Char).length = 0) pages
  rw [← List.getElem?_map, ← htext, List.getElem?_map, h]
  rfl

theorem pageStop_assembled {pages : List Page} {index : Nat} {span : Span}
    (h : (pageSpans pages)[index]? = some span) :
    (if index + 1 < pages.length then
        ((assembleFullText pages).2.getD (index + 1) 0 : Int) - pageJoinSeparator.length
      else (assembleFullText pages).1.length) = (span.2 : Int) := by
  have hlast := pageSpansFrom_stop h
  rwa [length_pageOffsetsFrom, Nat.zero_add, joined, String.length_toList] at hlast

theorem pageStart_assembled {pages : List Page} {index : Nat} {span : Span}
    (h : (pageSpans pages)[index]? = some span) :
    (assembleFullText pages).2.getD index 0 = span.1 := by
  change (pageOffsetsFrom 0 pages).getD index 0 = span.1
  rw [List.getD_eq_getElem?_getD, ← map_fst_pageSpansFrom, List.getElem?_map, h]
  rfl

/-- The pages with these numbers come out of the text as they went in, the numbers of no page left
out. -/
theorem slicePagesByRange_assembleFullText (pages : List Page) (pageNumbers : List Int) :
    slicePagesByRange (assembleFullText pages).1 (assembleFullText pages).2 pageNumbers =
      pageNumbers.filterMap fun number =>
        if number < 1 then none
        else pages[(number - 1).toNat]?.map fun page => (number, page.text) := by
  have hlength : (assembleFullText pages).2.length = pages.length := length_pageOffsetsFrom 0 pages
  refine List.filterMap_congr fun number _ => ?_
  dsimp only
  by_cases hnumber : number < 1
  · rw [if_pos (Or.inl hnumber), if_pos hnumber]
  · rw [if_neg hnumber, hlength]
    cases hspan : (pageSpans pages)[(number - 1).toNat]? with
    | none =>
      have hpast : pages.length ≤ (number - 1).toNat := by
        rwa [List.getElem?_eq_none_iff, length_pageSpansFrom] at hspan
      rw [if_pos (Or.inr hpast), List.getElem?_eq_none hpast]
      rfl
    | some span =>
      obtain ⟨page, hpage, htext⟩ := Option.map_eq_some_iff.mp (stretch_pageSpans hspan)
      have hinside := (List.getElem?_eq_some_iff.mp hpage).1
      rw [if_neg (not_or.mpr ⟨hnumber, Nat.not_le.mpr hinside⟩), hpage, pageStop_assembled hspan,
        pageStart_assembled hspan, Option.map_some]
      have hslice : slice (assembleFullText pages).1 span.1 span.2 = page.text :=
        String.toList_inj.mp (by rw [toList_slice, htext]; rfl)
      rw [hslice]

end Pages

end Cygnus.Substrate
