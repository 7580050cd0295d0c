import Cygnus.Substrate.Assembly
import Mathlib.Data.List.Range

/-! The windows that the text of a verbatim source is cut into, page by page. -/

namespace Cygnus.Retrieval

open Text Spans Substrate

def chunkTargetChars : Nat := 2000

def chunkOverlapChars : Nat := 200

def minChunkChars : Nat := 50

structure VerbatimChunk where
  index : Nat
  pageNumber : Nat
  startChar : Int
  endChar : Int
  text : String
deriving DecidableEq

/-- `_page_bounds`. -/
def pageBounds (fullText : String) (pageOffsets : List Nat) : List (Nat × Int × Int) :=
  if pageOffsets = [] then if fullText = "" then [] else [(1, 0, fullText.length)]
  else (List.range pageOffsets.length).map fun idx =>
    let start : Int := pageOffsets.getD idx 0
    let stop : Int := if idx + 1 < pageOffsets.length
      then pageOffsets.getD (idx + 1) 0 - pageJoinSeparator.length else fullText.length
    (idx + 1, start, max start stop)

/-- The chunks so far, with the index of the next one. -/
structure Collected where
  idx : Nat := 0
  chunks : List VerbatimChunk := []

/-- Whether a window is long enough to be indexed. -/
def LongEnough (text : String) : Prop := minChunkChars ≤ (strip text).length

instance : DecidablePred LongEnough := fun text =>
  inferInstanceAs (Decidable (minChunkChars ≤ (strip text).length))

def Collected.add (collected : Collected) (fullText : String) (page : Nat) (pos stop : Int) :
    Collected :=
  let text := slice fullText pos stop
  if LongEnough text then
    ⟨collected.idx + 1, collected.chunks ++ [⟨collected.idx, page, pos, stop, text⟩]⟩
  else collected

section Loop

variable (target overlap : Nat) (fullText : String)

/-- The `while` loop over a page, by its number and ends, for at most `fuel` rounds. -/
def chunkPage (page : Nat) (pStart pEnd : Int) : Nat → Int → Collected → Option Collected
  | 0, _, _ => none
  | fuel + 1, pos, collected =>
    if pos < pEnd then
      let stop := min (pos + target) pEnd
      let collected := collected.add fullText page pos stop
      if pEnd ≤ stop then some collected
      else
        let next := stop - overlap
        -- tiny target against the overlap
        let next := if next ≤ pStart ∧ stop < pEnd then stop else next
        chunkPage page pStart pEnd fuel next collected
    else some collected

def chunkPages (fuel : Nat) : List (Nat × Int × Int) → Collected → Option Collected
  | [], collected => some collected
  | (page, pStart, pEnd) :: rest, collected =>
    (chunkPage target overlap fullText page pStart pEnd fuel pStart collected).bind
      (chunkPages fuel rest)

def buildVerbatimChunks (fuel : Nat) (pageOffsets : List Nat) : Option (List VerbatimChunk) :=
  (chunkPages target overlap fullText fuel (pageBounds fullText pageOffsets) {}).map
    Collected.chunks

end Loop

section Windows

variable {target overlap : Nat}

/-- A window of a page: the `k`-th one, when the one before it does not reach the end. -/
structure IsWindow (target overlap : Nat) (span : Span) (k : Nat) (window : Span) : Prop where
  start : window.1 = span.1 + k * (target - overlap)
  stop : window.2 = min (window.1 + target) span.2
  reached : span.1 < span.2 ∧ (k = 0 ∨ window.1 + overlap < span.2)

theorem IsWindow.bounds {span window : Span} {k : Nat} (h : IsWindow target overlap span k window)
    (htarget : overlap < target) : span.1 ≤ window.1 ∧ window.1 < window.2 ∧ window.2 ≤ span.2 := by
  obtain ⟨hstart, hstop, hreached, hk⟩ := h
  have hlt : window.1 < span.2 := by
    rcases hk with rfl | hbefore
    · rwa [hstart, Nat.zero_mul, Nat.add_zero]
    · omega
  refine ⟨by omega, ?_, ?_⟩
  · rw [hstop]
    omega
  · rw [hstop]
    exact Nat.min_le_right _ _

/-- Every place of a page is in one of its windows. -/
theorem exists_window {span : Span} {place : Nat} (htarget : overlap < target)
    (hfirst : span.1 ≤ place) (hlast : place < span.2) :
    ∃ k window, IsWindow target overlap span k window ∧ window.1 ≤ place ∧ place < window.2 := by
  have hdown : ∀ k, span.1 + k * (target - overlap) ≤ place →
      place < span.1 + k * (target - overlap) + target →
      ∃ k window, IsWindow target overlap span k window ∧ window.1 ≤ place ∧ place < window.2 := by
    intro k
    induction k with
    | zero =>
      intro hle hlt
      exact ⟨0, (_, _), ⟨rfl, rfl, by omega, .inl rfl⟩, hle, lt_min hlt hlast⟩
    | succ k ih =>
      intro hle hlt
      by_cases hreached : span.1 + (k + 1) * (target - overlap) + overlap < span.2
      · exact ⟨k + 1, (_, _), ⟨rfl, rfl, by omega, .inr hreached⟩, hle, lt_min hlt hlast⟩
      · -- the window before reaches the end of the page already
        rw [Nat.succ_mul] at hle hlt hreached
        exact ih (by omega) (by omega)
  have hstep : 0 < target - overlap := Nat.sub_pos_of_lt htarget
  have hle := Nat.div_mul_le_self (place - span.1) (target - overlap)
  have hlt := Nat.lt_div_mul_add hstep (a := place - span.1)
  exact hdown ((place - span.1) / (target - overlap)) (by omega) (by omega)

/-- The chunk of a window. -/
structure ChunkOf (fullText : String) (page : Nat) (window : Span) (chunk : VerbatimChunk) : Prop where
  pageNumber : chunk.pageNumber = page
  start : chunk.startChar = window.1
  stop : chunk.endChar = window.2
  text : chunk.text = slice fullText window.1 window.2

/-- The loop goes on with numbered chunks, each allowed, and a chunk of every window required. -/
def Adds (fullText : String) (allowed : VerbatimChunk → Prop) (required : Nat → Span → Prop)
    (before after : Collected) : Prop :=
  ∃ new, after.chunks = before.chunks ++ new ∧ after.idx = before.idx + new.length ∧
    new.map VerbatimChunk.index = List.range' before.idx new.length ∧
    (∀ chunk ∈ new, allowed chunk) ∧
    ∀ page window, required page window → ∃ chunk ∈ new, ChunkOf fullText page window chunk

variable {fullText : String} {allowed : VerbatimChunk → Prop} {required required' : Nat → Span → Prop}
  {first second third : Collected}

theorem Adds.refl (hnone : ∀ page window, ¬required page window) (collected : Collected) :
    Adds fullText allowed required collected collected :=
  ⟨[], by simp, rfl, rfl, by simp, fun page window h => absurd h (hnone page window)⟩

theorem Adds.trans (h : Adds fullText allowed required first second)
    (h' : Adds fullText allowed required' second third) :
    Adds fullText allowed (fun page window => required page window ∨ required' page window)
      first third := by
  obtain ⟨new, hchunks, hidx, hindex, hallowed, hrequired⟩ := h
  obtain ⟨more, hchunks', hidx', hindex', hallowed', hrequired'⟩ := h'
  refine ⟨new ++ more, ?_, ?_, ?_, List.forall_mem_append.mpr ⟨hallowed, hallowed'⟩, ?_⟩
  · rw [hchunks', hchunks, List.append_assoc]
  · rw [hidx', hidx, List.length_append, Nat.add_assoc]
  · rw [List.map_append, hindex, hindex', hidx, List.length_append, List.range'_append_1]
  · rintro page window (hmem | hmem)
    · obtain ⟨chunk, hchunk, hof⟩ := hrequired page window hmem
      exact ⟨chunk, List.mem_append_left _ hchunk, hof⟩
    · obtain ⟨chunk, hchunk, hof⟩ := hrequired' page window hmem
      exact ⟨chunk, List.mem_append_right _ hchunk, hof⟩

theorem Adds.mono (h : Adds fullText allowed required first second)
    (himp : ∀ page window, required' page window → required page window) :
    Adds fullText allowed required' first second := by
  obtain ⟨new, hchunks, hidx, hindex, hallowed, hrequired⟩ := h
  exact ⟨new, hchunks, hidx, hindex, hallowed,
    fun page window hmem => hrequired page window (himp page window hmem)⟩

/-- A chunk that is long enough and comes from a window of the page. -/
def FromPage (target overlap : Nat) (fullText : String) (page : Nat) (span : Span)
    (chunk : VerbatimChunk) : Prop :=
  ∃ k window, IsWindow target overlap span k window ∧ ChunkOf fullText page window chunk ∧
    LongEnough chunk.text

theorem add_adds {page : Nat} {window : Span} (collected : Collected)
    (hallowed : ∀ chunk, ChunkOf fullText page window chunk → LongEnough chunk.text → allowed chunk) :
    Adds fullText allowed (fun page' window' => page' = page ∧ window' = window ∧
        LongEnough (slice fullText window.1 window.2))
      collected (collected.add fullText page window.1 window.2) := by
  unfold Collected.add
  dsimp only
  split
  · rename_i hlong
    refine ⟨[_], rfl, rfl, rfl, ?_, ?_⟩
    · intro chunk hchunk
      obtain rfl := List.mem_singleton.mp hchunk
      exact hallowed _ ⟨rfl, rfl, rfl, rfl⟩ hlong
    · rintro _ _ ⟨rfl, rfl, -⟩
      exact ⟨_, List.mem_singleton_self _, rfl, rfl, rfl, rfl⟩
  · rename_i hshort
    exact .refl (fun _ _ h => hshort h.2.2) collected

/-- From the `k`-th window on, a page gives its long windows to the chunks. -/
theorem chunkPage_adds {page fuel k : Nat} {span : Span} (htarget : overlap < target)
    (hspan : span.1 ≤ span.2)
    (hallowed : ∀ chunk, FromPage target overlap fullText page span chunk → allowed chunk)
    (hk : k = 0 ∨ span.1 + k * (target - overlap) + overlap < span.2)
    (hfuel : span.2 < span.1 + k * (target - overlap) + fuel) (collected : Collected) :
    ∃ after, chunkPage target overlap fullText page span.1 span.2 fuel
        ((span.1 + k * (target - overlap) : Nat) : Int) collected = some after ∧
      Adds fullText allowed (fun page' window => page' = page ∧
          (∃ k' ≥ k, IsWindow target overlap span k' window) ∧
          LongEnough (slice fullText window.1 window.2)) collected after := by
  induction fuel generalizing k collected with
  | zero =>
    rcases hk with rfl | hbefore
    · simp only [Nat.zero_mul] at hfuel
      omega
    · omega
  | succ fuel ih =>
    have hlater : (k + 1) * (target - overlap) = k * (target - overlap) + (target - overlap) :=
      Nat.succ_mul _ _
    obtain ⟨pos, hpos⟩ : ∃ pos, span.1 + k * (target - overlap) = pos := ⟨_, rfl⟩
    have hsame : ∀ window, IsWindow target overlap span k window →
        window = (pos, min (pos + target) span.2) := by
      intro window hwindow
      have hstart : window.1 = pos := hwindow.start.trans hpos
      exact Prod.ext hstart (by rw [hwindow.stop, hstart])
    rw [hpos] at hk hfuel ⊢
    rw [chunkPage]
    split
    · rename_i hinside
      have hlt : pos < span.2 := Int.ofNat_lt.mp hinside
      have hwindow : IsWindow target overlap span k (pos, min (pos + target) span.2) :=
        ⟨hpos.symm, rfl, by omega, hk⟩
      have hstop : min ((pos : Int) + target) span.2 = ((min (pos + target) span.2 : Nat) : Int) := by
        omega
      have hadd : Adds fullText allowed (fun page' window => page' = page ∧
          window = (pos, min (pos + target) span.2) ∧
          LongEnough (slice fullText pos (min (pos + target) span.2 : Nat)))
          collected (collected.add fullText page pos (min (pos + target) span.2 : Nat)) :=
        add_adds collected fun chunk hof hlong => hallowed chunk ⟨k, _, hwindow, hof, hlong⟩
      dsimp only
      rw [hstop]
      by_cases hend : span.2 ≤ pos + target
      · rw [Nat.min_eq_right hend, if_pos (Int.le_refl _)]
        rw [Nat.min_eq_right hend] at hadd
        refine ⟨_, rfl, hadd.mono ?_⟩
        rintro page' window ⟨hpage, ⟨k', hk', hwindow'⟩, hlong⟩
        rcases Nat.eq_or_lt_of_le hk' with rfl | hmore
        · obtain rfl := hsame window hwindow'
          rw [Nat.min_eq_right hend] at hlong ⊢
          exact ⟨hpage, rfl, hlong⟩
        · -- the page ends with this window
          have hmul : (k + 1) * (target - overlap) ≤ k' * (target - overlap) :=
            Nat.mul_le_mul_right _ hmore
          have hstart := hwindow'.start
          have hreached := hwindow'.reached.2
          omega
      · have hmin : min (pos + target) span.2 = pos + target := by omega
        rw [hmin, if_neg (by omega)]
        rw [hmin] at hadd
        have hnext : ((pos + target : Nat) : Int) - overlap =
            ((span.1 + (k + 1) * (target - overlap) : Nat) : Int) := by omega
        rw [if_neg (by omega), hnext]
        obtain ⟨after, hrun, hadds⟩ := ih (k := k + 1) (Or.inr (by omega)) (by omega)
          (collected.add fullText page pos ((pos + target : Nat) : Int))
        refine ⟨after, hrun, (hadd.trans hadds).mono ?_⟩
        rintro page' window ⟨hpage, ⟨k', hk', hwindow'⟩, hlong⟩
        rcases Nat.eq_or_lt_of_le hk' with rfl | hmore
        · obtain rfl := hsame window hwindow'
          rw [hmin] at hlong ⊢
          exact .inl ⟨hpage, rfl, hlong⟩
        · exact .inr ⟨hpage, ⟨k', hmore, hwindow'⟩, hlong⟩
    · rename_i houtside
      have hle : span.2 ≤ pos := Int.ofNat_le.mp (Int.not_lt.mp houtside)
      refine ⟨collected, rfl, .refl ?_ collected⟩
      rintro page' window ⟨-, ⟨k', hk', hwindow'⟩, -⟩
      have hreached := hwindow'.reached.1
      rcases hk with rfl | hbefore
      · rw [Nat.zero_mul] at hpos
        omega
      · omega

end Windows

section Pages

variable {target overlap : Nat} {fullText : String}

/-- The pages with their numbers from `page` on, as the loop gets them. -/
def numbered (page : Nat) : List Span → List (Nat × Int × Int)
  | [] => []
  | span :: rest => (page, span.1, span.2) :: numbered (page + 1) rest

theorem getElem?_numbered (page : Nat) (spans : List Span) (i : Nat) :
    (numbered page spans)[i]? = spans[i]?.map fun span => (page + i, (span.1 : Int), (span.2 : Int)) := by
  induction spans generalizing page i with
  | nil => rfl
  | cons span rest ih =>
    cases i with
    | zero => rfl
    | succ i =>
      rw [numbered, List.getElem?_cons_succ, List.getElem?_cons_succ, ih, Nat.add_assoc, Nat.add_comm 1]

theorem pageBounds_assembled (pages : List Page) :
    pageBounds (assembleFullText pages).1 (assembleFullText pages).2 = numbered 1 (pageSpans pages) := by
  have hlength : (assembleFullText pages).2.length = pages.length := length_pageOffsetsFrom 0 pages
  cases pages with
  | nil => rfl
  | cons first rest =>
    rw [pageBounds, if_neg (List.ne_nil_of_length_pos (by simp [hlength])), hlength]
    generalize first :: rest = pages
    refine List.ext_getElem? fun idx => ?_
    rw [getElem?_numbered, List.getElem?_map]
    cases hspan : (pageSpans pages)[idx]? with
    | none =>
      rw [List.getElem?_eq_none_iff, length_pageSpansFrom] at hspan
      rw [List.getElem?_eq_none (by rwa [List.length_range])]
      rfl
    | some span =>
      have hidx : idx < pages.length := by
        simpa using (List.getElem?_eq_some_iff.mp hspan).1
      have hle := (mem_pageSpansFrom (List.mem_of_getElem? hspan)).2.1
      rw [List.getElem?_range hidx]
      simp only [Option.map_some, pageStart_assembled hspan, pageStop_assembled hspan]
      rw [Int.max_eq_right (Int.ofNat_le.mpr hle), Nat.add_comm idx]

theorem chunkPages_adds {fuel : Nat} {spans : List Span} {page : Nat}
    {allowed : VerbatimChunk → Prop} (htarget : overlap < target)
    (hspans : ∀ span ∈ spans, span.1 ≤ span.2 ∧ span.2 < span.1 + fuel)
    (hallowed : ∀ i span, spans[i]? = some span →
      ∀ chunk, FromPage target overlap fullText (page + i) span chunk → allowed chunk)
    (collected : Collected) :
    ∃ after, chunkPages target overlap fullText fuel (numbered page spans) collected = some after ∧
      Adds fullText allowed (fun page' window => ∃ i span, spans[i]? = some span ∧
          page' = page + i ∧ (∃ k, IsWindow target overlap span k window) ∧
          LongEnough (slice fullText window.1 window.2)) collected after := by
  induction spans generalizing page collected with
  | nil =>
    refine ⟨collected, rfl, .refl ?_ collected⟩
    rintro page' window ⟨i, span, hspan, -⟩
    cases hspan
  | cons span rest ih =>
    obtain ⟨⟨hle, hfuel⟩, hrest⟩ := List.forall_mem_cons.mp hspans
    have hfirst : ∀ chunk, FromPage target overlap fullText page span chunk → allowed chunk :=
      hallowed 0 span rfl
    have hlater : ∀ i other, rest[i]? = some other →
        ∀ chunk, FromPage target overlap fullText (page + 1 + i) other chunk → allowed chunk := by
      intro i other hother chunk hchunk
      rw [Nat.add_assoc, Nat.add_comm 1] at hchunk
      exact hallowed (i + 1) other hother chunk hchunk
    obtain ⟨middle, hrun, hadds⟩ := chunkPage_adds htarget hle hfirst (Or.inl rfl)
      (by simpa using hfuel) collected
    obtain ⟨after, hrun', hadds'⟩ := ih hrest hlater middle
    rw [Nat.zero_mul, Nat.add_zero] at hrun
    refine ⟨after, ?_, (hadds.trans hadds').mono ?_⟩
    · rw [numbered, chunkPages, hrun]
      exact hrun'
    · rintro page' window ⟨i, other, hother, hpage, ⟨k, hwindow⟩, hlong⟩
      cases i with
      | zero =>
        obtain rfl := Option.some.inj hother
        exact .inl ⟨hpage, ⟨k, Nat.zero_le k, hwindow⟩, hlong⟩
      | succ i =>
        exact .inr ⟨i, other, hother, by omega, ⟨k, hwindow⟩, hlong⟩

theorem chunkPage_mono {page fuel fuel' : Nat} {pStart pEnd pos : Int} {before after : Collected}
    (hle : fuel ≤ fuel') (h : chunkPage target overlap fullText page pStart pEnd fuel pos before =
      some after) : chunkPage target overlap fullText page pStart pEnd fuel' pos before = some after := by
  induction fuel generalizing fuel' pos before with
  | zero => cases h
  | succ fuel ih =>
    obtain ⟨more, rfl⟩ : ∃ more, fuel' = more + 1 := ⟨fuel' - 1, by omega⟩
    rw [chunkPage] at h ⊢
    split
    · rename_i hpos
      rw [if_pos hpos] at h
      dsimp only at h ⊢
      split
      · rename_i hend
        rwa [if_pos hend] at h
      · rename_i hend
        rw [if_neg hend] at h
        exact ih (Nat.le_of_succ_le_succ hle) h
    · rename_i hpos
      rwa [if_neg hpos] at h

theorem chunkPages_mono {fuel fuel' : Nat} {bounds : List (Nat × Int × Int)} {before after : Collected}
    (hle : fuel ≤ fuel') (h : chunkPages target overlap fullText fuel bounds before = some after) :
    chunkPages target overlap fullText fuel' bounds before = some after := by
  induction bounds generalizing before with
  | nil => exact h
  | cons page rest ih =>
    obtain ⟨page, pStart, pEnd⟩ := page
    obtain ⟨middle, hpage, hrest⟩ := Option.bind_eq_some_iff.mp h
    exact Option.bind_eq_some_iff.mpr ⟨middle, chunkPage_mono hle hpage, ih hrest⟩

/-- The characters from `first` to `last` are characters of one page. -/
def InPage (pages : List Page) (i : Nat) (first last : Int) : Prop :=
  ∃ span, (pageSpans pages)[i]? = some span ∧ (span.1 : Int) ≤ first ∧ last ≤ span.2

theorem InPage.unique {pages : List Page} {i j : Nat} {first last : Int} (hlt : first < last)
    (h : InPage pages i first last) (h' : InPage pages j first last) : i = j := by
  obtain ⟨span, hspan, hfirst, hlast⟩ := h
  obtain ⟨span', hspan', hfirst', hlast'⟩ := h'
  obtain ⟨hi, rfl⟩ := List.getElem?_eq_some_iff.mp hspan
  obtain ⟨hj, rfl⟩ := List.getElem?_eq_some_iff.mp hspan'
  have hapart := List.pairwise_iff_getElem.mp (pageSpansFrom_apart 0 pages)
  rcases Nat.lt_trichotomy i j with hlt | heq | hgt
  · have : (pageSpans pages)[i].2 < (pageSpans pages)[j].1 := hapart i j hi hj hlt
    omega
  · exact heq
  · have : (pageSpans pages)[j].2 < (pageSpans pages)[i].1 := hapart j i hj hi hgt
    omega

/-- What an index says about the text of its pages. -/
structure Indexes (target overlap : Nat) (pages : List Page) (chunks : List VerbatimChunk) : Prop where
  indices : chunks.map VerbatimChunk.index = List.range chunks.length
  inPage : ∀ chunk ∈ chunks, 1 ≤ chunk.pageNumber ∧
    ∀ i, InPage pages i chunk.startChar chunk.endChar ↔ i + 1 = chunk.pageNumber
  text : ∀ chunk ∈ chunks,
    chunk.text = slice (assembleFullText pages).1 chunk.startChar chunk.endChar ∧
      chunk.text.length ≤ target
  covered : ∀ (i place : Nat) (span : Span), (pageSpans pages)[i]? = some span →
    span.1 ≤ place → place < span.2 →
    (∃ k window, IsWindow target overlap span k window ∧ window.1 ≤ place ∧ place < window.2) ∧
    ((∀ chunk ∈ chunks, ¬(chunk.startChar ≤ place ∧ (place : Int) < chunk.endChar)) →
      ∀ k window, IsWindow target overlap span k window → window.1 ≤ place → place < window.2 →
        (strip (slice (assembleFullText pages).1 window.1 window.2)).length < minChunkChars)

/-- Every page of an assembled text is cut into windows, and those that are long enough are the
chunks of the index. -/
theorem buildVerbatimChunks_indexes (pages : List Page) (htarget : overlap < target) :
    ∃ chunks, (∀ fuel, (assembleFullText pages).1.length + 1 ≤ fuel →
      buildVerbatimChunks target overlap (assembleFullText pages).1 fuel (assembleFullText pages).2 =
        some chunks) ∧ Indexes target overlap pages chunks := by
  obtain ⟨text, htext⟩ : ∃ text, (assembleFullText pages).1 = text := ⟨_, rfl⟩
  have hspans : ∀ span ∈ pageSpans pages, span.1 ≤ span.2 ∧ span.2 < span.1 + (text.length + 1) := by
    intro span hspan
    obtain ⟨-, hle, hlast⟩ := mem_pageSpansFrom hspan
    rw [totalLength_eq, joined, htext, String.length_toList] at hlast
    exact ⟨hle, by omega⟩
  have hpages : ∀ i span, (pageSpans pages)[i]? = some span → ∀ chunk,
      FromPage target overlap text (1 + i) span chunk → ∃ i span, (pageSpans pages)[i]? = some span ∧
        FromPage target overlap text (1 + i) span chunk :=
    fun i span hspan chunk hchunk => ⟨i, span, hspan, hchunk⟩
  obtain ⟨after, hrun, new, hchunks, -, hindex, hallowed, hrequired⟩ :=
    chunkPages_adds htarget hspans hpages {}
  rw [List.nil_append] at hchunks
  refine ⟨new, ?_, ?_, ?_, ?_, ?_⟩
  · intro fuel hfuel
    rw [buildVerbatimChunks, pageBounds_assembled, htext, chunkPages_mono (by rwa [htext] at hfuel) hrun,
      Option.map_some, hchunks]
  · rw [hindex, List.range_eq_range']
  · intro chunk hchunk
    obtain ⟨i, span, hspan, k, window, hwindow, hof, -⟩ := hallowed chunk hchunk
    obtain ⟨hfirst, hlt, hlast⟩ := hwindow.bounds htarget
    have hin : InPage pages i chunk.startChar chunk.endChar :=
      ⟨span, hspan, by rw [hof.start]; omega, by rw [hof.stop]; omega⟩
    have hpage := hof.pageNumber
    refine ⟨by omega, fun j => ⟨fun hj => ?_, fun hj => ?_⟩⟩
    · obtain rfl := hj.unique (by rw [hof.start, hof.stop]; omega) hin
      omega
    · obtain rfl : j = i := by omega
      exact hin
  · intro chunk hchunk
    obtain ⟨i, span, hspan, k, window, hwindow, hof, -⟩ := hallowed chunk hchunk
    refine ⟨by rw [hof.text, hof.start, hof.stop, htext], ?_⟩
    rw [hof.text, ← String.length_toList, toList_slice]
    refine (length_stretch_le _ _ _).trans ?_
    rw [hwindow.stop]
    omega
  · intro i place span hspan hfirst hlast
    refine ⟨exists_window htarget hfirst hlast, ?_⟩
    intro hout k window hwindow hstart hstop
    by_contra hlong
    rw [htext] at hlong
    obtain ⟨chunk, hchunk, hof⟩ := hrequired (1 + i) window
      ⟨i, span, hspan, rfl, ⟨k, hwindow⟩, Nat.not_lt.mp hlong⟩
    exact hout chunk hchunk ⟨by rw [hof.start]; omega, by rw [hof.stop]; omega⟩

theorem buildVerbatimChunks_indexes_page : ∃ chunks,
    (∀ fuel, (assembleFullText [⟨some "A page.", some 1⟩]).1.length + 1 ≤ fuel →
      buildVerbatimChunks chunkTargetChars chunkOverlapChars
        (assembleFullText [⟨some "A page.", some 1⟩]).1 fuel
        (assembleFullText [⟨some "A page.", some 1⟩]).2 = some chunks) ∧
      Indexes chunkTargetChars chunkOverlapChars [⟨some "A page.", some 1⟩] chunks :=
  buildVerbatimChunks_indexes [⟨some "A page.", some 1⟩] (by decide)

end Pages

end Cygnus.Retrieval
