import Cygnus.Mrp.Writer

/-! What cutting a document into sections loses. -/

namespace Cygnus.Mrp.Writer

open Text Regex Re Spans

section Slices

def cutAt (text : String) (span : Span) : Nat × String := (span.1, slice text span.1 span.2)

/-- The sections make up the text, each from its offset on. -/
structure Lossless (text : String) (sections : List (Nat × String)) : Prop where
  whole : String.join (sections.map Prod.snd) = text
  offsets : ∀ before sec after, sections = before ++ sec :: after →
    sec.1 = (before.map fun earlier => earlier.2.length).sum

theorem length_cutAt {text : String} {span : Span} (hle : span.1 ≤ span.2)
    (hlast : span.2 ≤ text.length) : (cutAt text span).2.length = span.2 - span.1 := by
  rw [← String.length_toList, cutAt, toList_slice, length_stretch hle]
  rwa [String.length_toList]

theorem lossless_of_tiles {text : String} {spans : List Span} (h : Tiles 0 text.length spans) :
    Lossless text (spans.map (cutAt text)) := by
  constructor
  · apply String.toList_injective
    have hcut : ∀ span : Span, (cutAt text span).2.toList = stretch text.toList span.1 span.2 :=
      fun span => toList_slice text span.1 span.2
    rw [String.toList_join, List.map_map, List.flatMap_map]
    simp only [Function.comp_apply, hcut]
    rw [h.flatMap_stretch, ← String.length_toList, stretch_whole]
  · intro before sec after hsections
    obtain ⟨earlier, later, rfl, rfl, hlater⟩ := List.map_eq_append_iff.mp hsections
    obtain ⟨span, rest, rfl, rfl, rfl⟩ := List.map_eq_cons_iff.mp hlater
    have hsum := h.sum_lengths
    rw [Nat.zero_add] at hsum
    rw [List.map_map]
    refine hsum.symm.trans (congrArg List.sum (List.map_congr_left ?_))
    intro other hother
    have hmem : other ∈ earlier ++ span :: rest := List.mem_append_left _ hother
    exact (length_cutAt (h.start_le hmem) (h.stop_le hmem)).symm

end Slices

section Headings

theorem starts_sorted (text : String) :
    ((headingPattern.finditer text).map Re.Match.start).Pairwise (· < ·) :=
  List.pairwise_map.mpr (finditer_sorted headingPattern text)

theorem starts_lt {text : String} {place : Nat}
    (h : place ∈ (headingPattern.finditer text).map Re.Match.start) : place < text.length := by
  obtain ⟨found, hfound, rfl⟩ := List.mem_map.mp h
  have := finditer_start_lt hfound
  rwa [String.length_toList] at this

/-- The spans that the headings cut a text into. -/
theorem splitIntoSections_headings {text : String} {first : Nat} {rest : List Nat}
    (h : (headingPattern.finditer text).map Re.Match.start = first :: rest) :
    ∃ spans, Tiles 0 text.length spans ∧ splitIntoSections text = spans.map (cutAt text) ∧
      ∀ span ∈ spans, span.1 < span.2 := by
  have hsorted := starts_sorted text
  have hbounds : ∀ place ∈ (headingPattern.finditer text).map Re.Match.start,
      place < text.length := fun _ => starts_lt
  rw [h] at hsorted hbounds
  have htiles := tiles_between hsorted fun place hplace => Nat.le_of_lt (hbounds place hplace)
  have hsome : ∀ span ∈ between text.length (first :: rest), span.1 < span.2 :=
    fun _ => lt_of_mem_between hsorted hbounds
  rw [splitIntoSections, h]
  dsimp only
  split
  · rename_i hfirst
    refine ⟨(0, first) :: between text.length (first :: rest), ⟨rfl, Nat.zero_le _, htiles⟩, rfl, ?_⟩
    intro span hspan
    rcases List.mem_cons.mp hspan with rfl | hlater
    · exact hfirst
    · exact hsome span hlater
  · rename_i hzero
    obtain rfl : first = 0 := Nat.eq_zero_of_not_pos hzero
    exact ⟨between text.length (0 :: rest), htiles, rfl, hsome⟩

end Headings

section Paragraphs

/-- The place is passed over: the section of its window ends at a paragraph break in front of it. -/
def Dropped (text : String) (place : Nat) : Prop :=
  let i := windowSize * (place / windowSize)
  i + windowSize < text.length ∧
    ∃ found ∈ paraBreak text i, i < found ∧ found + paragraphBreak.length ≤ place

theorem sectionEnd_le (text : String) {i : Nat} (h : i < text.length) :
    i < sectionEnd text i ∧ sectionEnd text i ≤ min (i + windowSize) text.length := by
  unfold sectionEnd
  split
  · split
    · rename_i found hfound
      have hbound := (rfind_some hfound).2.1
      have htwo : paragraphBreak.toList.length = 2 := rfl
      split <;> simp only [windowSize] at * <;> omega
    · simp only [windowSize] at *
      omega
  · simp only [windowSize] at *
    omega

theorem dropped_iff {text : String} {k place : Nat} (h : place / windowSize = k)
    (hplace : place < text.length) :
    Dropped text place ↔ sectionEnd text (windowSize * k) ≤ place := by
  have hwindow : windowSize * k ≤ place ∧ place < windowSize * k + windowSize := by
    rw [← h]
    simp only [windowSize]
    omega
  have htwo : paragraphBreak.length = 2 := rfl
  unfold Dropped sectionEnd
  rw [h]
  dsimp only
  split
  · rename_i hinner
    constructor
    · rintro ⟨-, found, hfound, hlt, hle⟩
      rw [Option.mem_def] at hfound
      rw [hfound]
      simp only [hlt, if_true]
      omega
    · intro hend
      refine ⟨hinner, ?_⟩
      split at hend
      · rename_i found hfound
        split at hend
        · exact ⟨found, hfound, ‹_›, hend⟩
        · omega
      · omega
  · rename_i hinner
    constructor
    · rintro ⟨hinner', -⟩
      exact absurd hinner' hinner
    · intro hend
      omega

/-- Windows that end where the next one starts follow one another to the end of the text. -/
theorem tiles_windows {stop : Nat → Nat} {n k count : Nat}
    (hstop : ∀ j, k ≤ j → j < k + count →
      stop (windowSize * j) = min (windowSize * j + windowSize) n)
    (hinside : ∀ j, k ≤ j → j < k + count → windowSize * j < n)
    (hfirst : windowSize * k ≤ n) (hlast : n ≤ windowSize * (k + count)) :
    Tiles (windowSize * k) n
      ((List.range' k count).map fun j => (windowSize * j, stop (windowSize * j))) := by
  induction count generalizing k with
  | zero => exact Nat.le_antisymm hfirst hlast
  | succ count ih =>
    rw [List.range'_succ, List.map_cons]
    have hhere := hstop k (Nat.le_refl k) (by omega)
    have hk := hinside k (Nat.le_refl k) (by omega)
    refine ⟨rfl, by dsimp only; omega, ?_⟩
    dsimp only
    cases count with
    | zero =>
      rw [hhere]
      simp only [windowSize] at *
      exact Nat.min_eq_right (by omega)
    | succ count =>
      have hnext := hinside (k + 1) (by omega) (by omega)
      have hmove : windowSize * k + windowSize = windowSize * (k + 1) := rfl
      rw [hhere, Nat.min_eq_left (by omega), hmove]
      refine ih (fun j hj hj' => hstop j (by omega) (by omega))
        (fun j hj hj' => hinside j (by omega) (by omega)) (Nat.le_of_lt hnext) ?_
      rwa [Nat.add_right_comm]

theorem sectionEnd_of_not_dropped {text : String} {k : Nat} (hk : windowSize * k < text.length)
    (h : ∀ place < text.length, ¬ Dropped text place) :
    sectionEnd text (windowSize * k) = min (windowSize * k + windowSize) text.length := by
  have hbounds := sectionEnd_le text hk
  have hplace : (min (windowSize * k + windowSize) text.length - 1) / windowSize = k := by
    simp only [windowSize] at *
    omega
  have hlast := h _ (by omega : min (windowSize * k + windowSize) text.length - 1 < text.length)
  rw [dropped_iff hplace (by omega)] at hlast
  omega

/-- The windows of a text, as many as it takes to reach the end. -/
theorem windowStarts_eq (text : String) : ∃ count, windowStarts text =
    (List.range' 0 count).map (windowSize * ·) ∧ text.length ≤ windowSize * count ∧
      ∀ j < count, windowSize * j < text.length := by
  refine ⟨(text.length + (windowSize - 1)) / windowSize, ?_, ?_, ?_⟩
  · rw [windowStarts, List.range_eq_range']
  · simp only [windowSize]
    omega
  · intro j hj
    simp only [windowSize] at *
    omega

theorem splitIntoSections_paragraphs {text : String} {count : Nat}
    (h : (headingPattern.finditer text).map Re.Match.start = [])
    (hcount : windowStarts text = (List.range' 0 count).map (windowSize * ·)) :
    splitIntoSections text = ((List.range' 0 count).map fun j =>
      (windowSize * j, sectionEnd text (windowSize * j))).map (cutAt text) := by
  rw [splitIntoSections, h]
  dsimp only
  rw [hcount, List.map_map, List.map_map]
  simp only [Function.comp_def, cutAt]

theorem lossless_of_not_dropped {text : String}
    (h : (headingPattern.finditer text).map Re.Match.start = [])
    (hkept : ∀ place < text.length, ¬ Dropped text place) :
    Lossless text (splitIntoSections text) := by
  obtain ⟨count, hcount, hlast, hinside⟩ := windowStarts_eq text
  rw [splitIntoSections_paragraphs h hcount]
  refine lossless_of_tiles (tiles_windows (k := 0) ?_ ?_ (Nat.zero_le _) ?_)
  · intro j _ hj
    exact sectionEnd_of_not_dropped (hinside j (by omega)) hkept
  · intro j _ hj
    exact hinside j (by omega)
  · rwa [Nat.zero_add]

/-- The section after a shortened one starts further on than the lengths add up to. -/
theorem not_lossless_of_dropped {text : String} {place : Nat}
    (h : (headingPattern.finditer text).map Re.Match.start = []) (hdropped : Dropped text place) :
    ¬ Lossless text (splitIntoSections text) := by
  intro hlossless
  obtain ⟨k, hk⟩ : ∃ k, place / windowSize = k := ⟨_, rfl⟩
  have hinner : windowSize * k + windowSize < text.length := hk ▸ hdropped.1
  obtain ⟨count, hcount, hlast, hinside⟩ := windowStarts_eq text
  have hoffsets := hlossless.offsets
  rw [splitIntoSections_paragraphs h hcount] at hoffsets
  obtain ⟨more, rfl⟩ : ∃ more, count = k + (more + 2) := by
    refine ⟨count - k - 2, ?_⟩
    simp only [windowSize] at *
    omega
  have hsplit : List.range' 0 (k + (more + 2)) =
      List.range' 0 k ++ k :: (k + 1) :: List.range' (k + 2) more := by
    rw [← List.range'_append_1, Nat.zero_add, List.range'_succ, List.range'_succ]
  rw [hsplit] at hoffsets
  simp only [List.map_append, List.map_cons] at hoffsets
  have hhere := hoffsets _ _ _ rfl
  have hnext := hoffsets (_ ++ [_]) _ _ (by rw [List.append_assoc]; rfl)
  rw [List.map_append, List.sum_append, ← hhere, List.map_singleton, List.sum_singleton] at hnext
  have hbounds := sectionEnd_le text (i := windowSize * k) (by omega)
  rw [length_cutAt (Nat.le_of_lt hbounds.1) (by omega)] at hnext
  have hplace : place < windowSize * k + windowSize := by
    simp only [windowSize] at *
    omega
  have hend := (dropped_iff hk (by omega)).mp hdropped
  simp only [cutAt, Nat.mul_add, Nat.mul_one] at hnext
  omega

end Paragraphs

/-- A text is cut without loss exactly if it has a heading, or every window keeps what follows its last
paragraph break. -/
theorem splitIntoSections_lossless_iff (text : String) :
    Lossless text (splitIntoSections text) ↔
      (headingPattern.finditer text).isEmpty = false ∨ ∀ place < text.length, ¬ Dropped text place := by
  cases hstarts : (headingPattern.finditer text).map Re.Match.start with
  | nil =>
    have hnone : (headingPattern.finditer text).isEmpty = true := by
      rw [List.isEmpty_iff]
      exact List.map_eq_nil_iff.mp hstarts
    rw [hnone]
    constructor
    · intro hlossless
      exact .inr fun place _ hdropped => not_lossless_of_dropped hstarts hdropped hlossless
    · rintro (hfalse | hkept)
      · cases hfalse
      · exact lossless_of_not_dropped hstarts hkept
  | cons first rest =>
    have hsome : (headingPattern.finditer text).isEmpty = false := by
      cases hfinds : headingPattern.finditer text with
      | nil =>
        rw [hfinds] at hstarts
        cases hstarts
      | cons found others => rfl
    obtain ⟨spans, htiles, hsections, -⟩ := splitIntoSections_headings hstarts
    rw [hsections]
    exact ⟨fun _ => .inl hsome, fun _ => lossless_of_tiles htiles⟩

/-- Two paragraphs, the second of which starts shortly before the first window ends. -/
def twoParagraphs : List Char :=
  List.replicate 2990 'a' ++ ('\n' :: '\n' :: List.replicate 20 'b')

theorem twoParagraphs_not_lossless :
    ¬ Lossless (String.ofList twoParagraphs) (splitIntoSections (String.ofList twoParagraphs)) := by
  have hheadings : (headingPattern.finditer (String.ofList twoParagraphs)).map Re.Match.start = [] := by
    rw [Re.finditer, String.toList_ofList]
    decide +kernel
  have hdropped : Dropped (String.ofList twoParagraphs) 2995 := by
    refine ⟨?_, 2990, ?_, ?_, ?_⟩
    · rw [String.length_ofList]
      decide +kernel
    · rw [Option.mem_def, paraBreak, String.toList_ofList]
      decide +kernel
    · decide
    · decide
  exact not_lossless_of_dropped hheadings hdropped

end Cygnus.Mrp.Writer
