import Cygnus.Substrate.SourceImages

/-! When captions can be baked into a text again and again: the markers of the text that is written
have to be the ones that were found. -/

namespace Cygnus.Substrate

open Text Regex Re

section Markers

/-- What stands behind the alternative text of a marker and the bracket that closes it. -/
def target (uid : List Char) : List Char := imageScheme ++ (uid ++ [')'])

def IsUid (uid : List Char) : Prop := uid ≠ [] ∧ ∀ c ∈ uid, isUidChar c = true

/-- A marker as `markerRe` finds it, with the id of its image. -/
def IsMarker (old uid : List Char) : Prop :=
  IsUid uid ∧ ∃ alt, ']' ∉ alt ∧ old = '!' :: '[' :: (alt ++ ']' :: target uid)

/-- A marker begins the text. -/
def Begins (text : List Char) : Prop := ∃ old uid rest, IsMarker old uid ∧ text = old ++ rest

variable {old old' uid uid' alt alt' rest rest' text : List Char}

theorem imageMarker_toList (alt uid : String) :
    (imageMarker alt uid).toList = '!' :: '[' :: (alt.toList ++ ']' :: target uid.toList) := by
  simp [imageMarker, target, imageScheme, toString]

theorem append_cons_inj {α : Type} {a : α} {xs ys s t : List α} (hx : a ∉ xs) (hy : a ∉ ys)
    (h : xs ++ a :: s = ys ++ a :: t) : xs = ys ∧ s = t := by
  induction xs generalizing ys with
  | nil =>
    cases ys with
    | nil => exact ⟨rfl, List.tail_eq_of_cons_eq h⟩
    | cons b ys => exact absurd (List.head_eq_of_cons_eq h ▸ List.mem_cons_self) hy
  | cons b xs ih =>
    cases ys with
    | nil => exact absurd (List.head_eq_of_cons_eq h ▸ List.mem_cons_self) hx
    | cons c ys =>
      rw [List.mem_cons, not_or] at hx hy
      obtain ⟨rfl, htail⟩ := List.cons_eq_cons.mp h
      obtain ⟨rfl, rfl⟩ := ih hx.2 hy.2 htail
      exact ⟨rfl, rfl⟩

theorem IsUid.not_mem (h : IsUid uid) {c : Char} (hc : isUidChar c = false) : c ∉ uid :=
  fun hmem => by simp [h.2 c hmem] at hc

/-- A text begins with one marker at most. -/
theorem IsMarker.unique (h : IsMarker old uid) (h' : IsMarker old' uid')
    (heq : old ++ rest = old' ++ rest') : old = old' ∧ uid = uid' ∧ rest = rest' := by
  obtain ⟨huid, alt, halt, rfl⟩ := h
  obtain ⟨huid', alt', halt', rfl⟩ := h'
  simp only [List.append_assoc, List.cons_append, List.cons.injEq, true_and] at heq
  obtain ⟨rfl, htail⟩ := append_cons_inj halt halt' heq
  simp only [target, List.append_assoc, List.append_cancel_left_eq] at htail
  obtain ⟨rfl, hrest⟩ := append_cons_inj (huid.not_mem rfl) (huid'.not_mem rfl) htail
  exact ⟨rfl, rfl, hrest⟩

theorem markerRe_length : 1 ≤ markerRe.minLength := by decide

theorem matches_markerRe {s s' : Scan} (h : Matches markerRe s s') :
    ∃ old uid, IsMarker old uid ∧ s.rest = old ++ s'.rest ∧
      s'.passed = old.reverse ++ s.passed ∧ s'.groups = (1, uid) :: s.groups := by
  obtain ⟨s₁, hopen, s₂, hstar, s₃, hmiddle, s₄, ⟨s₅, hplus, rfl⟩, hclose⟩ := h
  obtain ⟨alt, halt, hreads⟩ := matches_star hstar
  obtain ⟨uid, hne, huid, hreadsUid⟩ := matches_plus hplus
  have hreads := (matches_literal.mp hopen).trans (hreads.trans (matches_literal.mp hmiddle))
  have hclose := matches_literal.mp hclose
  have halt' : ']' ∉ alt := fun hmem => by simpa using halt ']' hmem
  refine ⟨_, uid, ⟨⟨hne, huid⟩, alt, halt', rfl⟩, ?_, ?_, ?_⟩
  · rw [hreads.rest, hreadsUid.rest, hclose.rest]
    simp [target]
  · rw [hclose.passed, hreadsUid.passed, hreads.passed]
    simp [target]
  · rw [hclose.groups, hreadsUid.groups, hreads.groups, hreadsUid.take]

theorem markerRe_matches {s : Scan} (h : IsMarker old uid) (hrest : s.rest = old ++ rest) :
    ∃ s', Matches markerRe s s' := by
  obtain ⟨⟨hne, huid⟩, alt, halt, rfl⟩ := h
  have hcut : s.rest = ['!', '['] ++ (alt ++ ((']' :: imageScheme) ++ (uid ++ ([')'] ++ rest)))) := by
    rw [hrest]
    simp [target]
  obtain ⟨s₁, hopen, h₁⟩ := Reads.exists_of_rest hcut
  obtain ⟨s₂, hstar, h₂⟩ := Reads.exists_of_rest h₁
  obtain ⟨s₃, hmiddle, h₃⟩ := Reads.exists_of_rest h₂
  obtain ⟨s₄, hplus, h₄⟩ := Reads.exists_of_rest h₃
  have halt' : ∀ c ∈ alt, decide (c ≠ ']') = true :=
    fun c hc => decide_eq_true fun heq => halt (heq ▸ hc)
  have hgroup : Matches (.group 1 (Re.plus true (.char isUidChar))) s₃ _ :=
    ⟨s₄, hplus.plus hne huid, rfl⟩
  obtain ⟨s₅, hclose, -⟩ := Reads.exists_of_rest (s := { s₄ with
    groups := (1, s₃.rest.take (s₃.rest.length - s₄.rest.length)) :: s₄.groups }) h₄
  exact ⟨s₅, s₁, matches_literal.mpr hopen, s₂, hstar.star halt', s₃, matches_literal.mpr hmiddle,
    _, hgroup, matches_literal.mpr hclose⟩

theorem matchAt_markerRe {passed : List Char} {found : Re.Match}
    (h : markerRe.matchAt ⟨passed, text, []⟩ = some found) :
    ∃ old rest, text = old ++ rest ∧ IsMarker old (found.group 1).toList ∧
      found.stop - found.start = old.length := by
  obtain ⟨last, hrun, rfl⟩ := Option.map_eq_some_iff.mp h
  obtain ⟨s', hmatches, hlast⟩ := run_matches markerRe hrun
  obtain rfl := Option.some.inj hlast
  obtain ⟨old, uid, hmarker, hrest, hpassed, hgroups⟩ := matches_markerRe hmatches
  refine ⟨old, s'.rest, hrest, ?_, ?_⟩
  · simpa [Match.group, hgroups] using hmarker
  · simp [Scan.pos, hpassed]

theorem matchAt_isSome (passed : List Char) (h : Begins text) :
    (markerRe.matchAt ⟨passed, text, []⟩).isSome := by
  obtain ⟨old, uid, rest, hmarker, rfl⟩ := h
  have hrest : (⟨passed, old ++ rest, []⟩ : Scan).rest = old ++ rest := rfl
  obtain ⟨s, hmatches⟩ := markerRe_matches hmarker hrest
  rw [matchAt, Option.isSome_map]
  exact run_isSome markerRe rfl hmatches rfl

end Markers

section Cuts

/-- The text cut at its markers, each with the id of its image. -/
def cuts (text : String) : List Piece := pieces markerRe (fun found => (found.group 1).toList) text

/-- Pieces that the text they make is cut into: no marker begins at a character that is kept. -/
inductive Cut : List Piece → Prop
  | nil : Cut []
  | kept {c : Char} {rest : List Piece} : ¬Begins (c :: textBefore rest) → Cut rest →
      Cut (.kept c :: rest)
  | found {old uid : List Char} {rest : List Piece} : IsMarker old uid → Cut rest →
      Cut (.found old uid :: rest)

theorem IsMarker.length_pos {old uid : List Char} (h : IsMarker old uid) : old ≠ [] := by
  obtain ⟨-, alt, -, rfl⟩ := h
  exact List.cons_ne_nil _ _

theorem cut_piecesFrom (passed text : List Char) :
    Cut (piecesFrom markerRe (fun found => (found.group 1).toList) 0 passed text) := by
  induction hlength : text.length using Nat.strongRecOn generalizing passed text with
  | ind n ih =>
    cases text with
    | nil => exact .nil
    | cons c rest =>
      rw [piecesFrom]
      cases hfound : markerRe.matchAt ⟨passed, c :: rest, []⟩ with
      | none =>
        refine .kept ?_ (ih rest.length (by simp [← hlength]) _ rest rfl)
        rw [textBefore_piecesFrom markerRe_length, List.drop_zero]
        intro hbegins
        simpa [hfound] using matchAt_isSome passed hbegins
      | some found =>
        obtain ⟨old, tail, htext, hmarker, hstop⟩ := matchAt_markerRe hfound
        obtain ⟨d, old, rfl⟩ := List.exists_cons_of_ne_nil hmarker.length_pos
        rw [List.cons_append, List.cons_eq_cons] at htext
        obtain ⟨rfl, rfl⟩ := htext
        dsimp only
        rw [hstop, List.length_cons, Nat.add_sub_cancel,
          piecesFrom_skip _ _ _ (by simp), List.take_left' rfl, List.drop_left' rfl,
          ← List.cons_append, ← List.length_cons (a := c), List.take_left' rfl]
        refine .found hmarker (ih tail.length ?_ _ tail rfl)
        simp only [← hlength, List.length_cons, List.length_append]
        omega

/-- There is one way to cut a text. -/
theorem piecesFrom_of_cut {ps : List Piece} (h : Cut ps) (passed : List Char) :
    piecesFrom markerRe (fun found => (found.group 1).toList) 0 passed (textBefore ps) = ps := by
  induction h generalizing passed with
  | nil => rfl
  | @kept c rest hnone hrest ih =>
    change piecesFrom _ _ 0 passed (c :: textBefore rest) = _
    rw [piecesFrom]
    cases hfound : markerRe.matchAt ⟨passed, c :: textBefore rest, []⟩ with
    | none => exact congrArg (Piece.kept c :: ·) (ih _)
    | some found =>
      obtain ⟨old, tail, htext, hmarker, -⟩ := matchAt_markerRe hfound
      exact absurd ⟨old, _, tail, hmarker, htext⟩ hnone
  | @found old uid rest hmarker hrest ih =>
    change piecesFrom _ _ 0 passed (old ++ textBefore rest) = _
    have hsome := matchAt_isSome passed ⟨old, uid, textBefore rest, hmarker, rfl⟩
    obtain ⟨found, hfound⟩ := Option.isSome_iff_exists.mp hsome
    obtain ⟨old', tail, htext, hmarker', hstop⟩ := matchAt_markerRe hfound
    obtain ⟨rfl, huid, -⟩ := hmarker.unique hmarker' htext
    obtain ⟨c, old, rfl⟩ := List.exists_cons_of_ne_nil hmarker.length_pos
    rw [List.cons_append] at hfound ⊢
    rw [piecesFrom, hfound]
    dsimp only
    rw [hstop, List.length_cons, Nat.add_sub_cancel, piecesFrom_skip _ _ _ (by simp),
      List.take_left' rfl, List.drop_left' rfl, ← List.cons_append, ← List.length_cons (a := c),
      List.take_left' rfl, ih, huid]

theorem cut_cuts (text : String) : Cut (cuts text) := cut_piecesFrom [] text.toList

theorem textBefore_cuts (text : String) : textBefore (cuts text) = text.toList :=
  textBefore_pieces markerRe_length text

theorem cuts_of_cut {ps : List Piece} (h : Cut ps) :
    cuts (String.ofList (textBefore ps)) = ps := by
  rw [cuts, pieces, String.toList_ofList]
  exact piecesFrom_of_cut h []

end Cuts

section Baking

/-- The caption that a marker of an image is given. -/
def cleanCaption (captions : Captions) (uid : String) : String :=
  strip (((captions.lookup uid).join.getD "").map fun c => if c = '\n' then ' ' else c)

/-- A piece of a text after the captions are baked into it. -/
def recaption (captions : Captions) : Piece → Piece
  | .kept c => .kept c
  | .found _ uid => .found
    (imageMarker (cleanCaption captions (String.ofList uid)) (String.ofList uid)).toList uid

/-- Every marker carries the caption of its image and the rest of the text stays, the same captions
change nothing more, and other captions take the place of these. Without an image no text is
changed. -/
structure BakesCleanly (captions : Captions) (fullText : String) : Prop where
  carries : cuts (bakeCaptions captions fullText) = (cuts fullText).map (recaption captions)
  idempotent : bakeCaptions captions (bakeCaptions captions fullText) =
    bakeCaptions captions fullText
  replaced : ∀ other ≠ [], bakeCaptions other (bakeCaptions captions fullText) =
    bakeCaptions other fullText

variable {captions other : Captions} {text : String} {ps : List Piece}

theorem recaption_recaption (piece : Piece) :
    recaption other (recaption captions piece) = recaption other piece := by
  cases piece <;> simp only [recaption]

/-- The pieces of a text that baking the captions in copies and replaces. -/
def bakedPieces (captions : Captions) (text : String) : List Piece :=
  pieces markerRe (fun found => (captionedMarker captions found).toList) text

theorem bakedPieces_eq (captions : Captions) (text : String) : bakedPieces captions text =
    (cuts text).map (Piece.map fun uid =>
      (imageMarker (cleanCaption captions (String.ofList uid)) (String.ofList uid)).toList) := by
  rw [bakedPieces, cuts, pieces, pieces, ← piecesFrom_map]
  simp only [String.ofList_toList]
  rfl

theorem bakeCaptions_eq (captions : Captions) (text : String) :
    bakeCaptions captions text =
      String.ofList (textBefore ((cuts text).map (recaption captions))) := by
  have hafter : ∀ ps : List Piece, textAfter (ps.map (Piece.map fun uid =>
      (imageMarker (cleanCaption captions (String.ofList uid)) (String.ofList uid)).toList)) =
        textBefore (ps.map (recaption captions)) := by
    intro ps
    induction ps with
    | nil => rfl
    | cons piece ps ih =>
      simp only [textAfter, textBefore, List.map_cons, List.flatMap_cons] at ih ⊢
      rw [ih]
      cases piece <;> rfl
  rw [bakeCaptions, sub, ← bakedPieces, bakedPieces_eq, hafter]

/-- The characters of a marker behind its alternative text. -/
theorem target_no_opening {uid : List Char} (h : IsUid uid) : '!' ∉ target uid := by
  simp [target, imageScheme, h.not_mem (c := '!') rfl]

/-- A stretch of the new text without an exclamation mark was not baked into it. -/
theorem kept_of_no_opening {taken tail : List Char} (htaken : '!' ∉ taken)
    (h : textBefore (ps.map (recaption captions)) = taken ++ tail) :
    ∃ rest, textBefore ps = taken ++ rest := by
  induction taken generalizing ps with
  | nil => exact ⟨textBefore ps, rfl⟩
  | cons c taken ih =>
    rw [List.mem_cons, not_or] at htaken
    cases ps with
    | nil => cases h
    | cons piece ps =>
      cases piece with
      | kept d =>
        obtain ⟨rfl, htail⟩ := List.cons_eq_cons.mp
          (show d :: textBefore (ps.map (recaption captions)) = c :: (taken ++ tail) from h)
        obtain ⟨rest, hrest⟩ := ih htaken.2 htail
        exact ⟨rest, congrArg (d :: ·) hrest⟩
      | found old uid =>
        have hhead : (imageMarker (cleanCaption captions (String.ofList uid))
            (String.ofList uid)).toList ++ textBefore (ps.map (recaption captions)) =
              c :: (taken ++ tail) := h
        rw [imageMarker_toList] at hhead
        exact absurd (List.head_eq_of_cons_eq hhead) htaken.1

/-- Where the new text has the end of a marker, the text before had one. -/
theorem closes_of_closes {alt uid tail : List Char} (hps : Cut ps) (huid : IsUid uid)
    (hclean : ∀ old uid, .found old uid ∈ ps →
      ']' ∉ (cleanCaption captions (String.ofList uid)).toList)
    (halt : ']' ∉ alt)
    (h : textBefore (ps.map (recaption captions)) = alt ++ ']' :: (target uid ++ tail)) :
    ∃ alt' uid' tail', ']' ∉ alt' ∧ IsUid uid' ∧
      textBefore ps = alt' ++ ']' :: (target uid' ++ tail') := by
  induction hps generalizing alt with
  | nil => simp [textBefore] at h
  | @kept c rest _ hrest ih =>
    replace h : c :: textBefore (rest.map (recaption captions)) =
        alt ++ ']' :: (target uid ++ tail) := h
    cases alt with
    | nil =>
      obtain ⟨rfl, htarget⟩ := List.cons_eq_cons.mp h
      obtain ⟨tail', htail⟩ := kept_of_no_opening (target_no_opening huid) htarget
      exact ⟨[], uid, tail', List.not_mem_nil, huid, congrArg (']' :: ·) htail⟩
    | cons d alt =>
      obtain ⟨rfl, hmore⟩ := List.cons_eq_cons.mp h
      rw [List.mem_cons, not_or] at halt
      obtain ⟨alt', uid', tail', halt', huid', htext⟩ :=
        ih (fun old uid hmem => hclean old uid (List.mem_cons_of_mem _ hmem)) halt.2 hmore
      refine ⟨c :: alt', uid', tail', ?_, huid', congrArg (c :: ·) htext⟩
      rw [List.mem_cons, not_or]
      exact ⟨halt.1, halt'⟩
  | @found old uid rest hmarker hrest ih =>
    obtain ⟨huid', alt', halt', rfl⟩ := hmarker
    refine ⟨'!' :: '[' :: alt', uid, textBefore rest, by simpa using halt', huid', ?_⟩
    change '!' :: '[' :: (alt' ++ ']' :: target uid) ++ textBefore rest = _
    simp

/-- The new text is cut where the text was. -/
theorem cut_recaption (hps : Cut ps)
    (hclean : ∀ old uid, .found old uid ∈ ps →
      ']' ∉ (cleanCaption captions (String.ofList uid)).toList) :
    Cut (ps.map (recaption captions)) := by
  induction hps with
  | nil => exact .nil
  | @kept c rest hnone hrest ih =>
    have hclean' := fun old uid hmem => hclean old uid (List.mem_cons_of_mem _ hmem)
    refine .kept ?_ (ih hclean')
    rintro ⟨_, uid, tail, ⟨huid, alt, halt, rfl⟩, htext⟩
    simp only [List.cons_append, List.append_assoc] at htext
    obtain ⟨rfl, hopen⟩ := List.cons_eq_cons.mp htext
    cases hrest with
    | nil => cases hopen
    | @kept d rest _ hrest =>
      obtain ⟨rfl, hmore⟩ := List.cons_eq_cons.mp
        (show d :: textBefore (rest.map (recaption captions)) =
          '[' :: (alt ++ ']' :: (target uid ++ tail)) from hopen)
      obtain ⟨alt', uid', tail', halt', huid', hclosed⟩ := closes_of_closes hrest huid
        (fun old uid hmem => hclean' old uid (List.mem_cons_of_mem _ hmem)) halt hmore
      refine hnone ⟨_, uid', tail', ⟨huid', alt', halt', rfl⟩, ?_⟩
      change '!' :: '[' :: textBefore rest = _
      rw [hclosed]
      simp
    | found hmarker hrest =>
      replace hopen : (imageMarker _ _).toList ++ _ = _ := hopen
      rw [imageMarker_toList] at hopen
      exact absurd (List.head_eq_of_cons_eq hopen) (by decide)
  | @found old uid rest hmarker hrest ih =>
    refine .found ?_ (ih fun old uid hmem => hclean old uid (List.mem_cons_of_mem _ hmem))
    rw [imageMarker_toList, String.toList_ofList]
    exact ⟨hmarker.1, _, hclean old uid List.mem_cons_self, rfl⟩

end Baking

section Completeness

variable {captions : Captions} {ps : List Piece}

theorem IsMarker.count {old uid : List Char} (h : IsMarker old uid) : old.count ']' = 1 := by
  obtain ⟨huid, alt, halt, rfl⟩ := h
  simp [target, imageScheme, List.count_eq_zero_of_not_mem halt,
    List.count_eq_zero_of_not_mem (huid.not_mem (c := ']') rfl)]

theorem imageMarker_count {alt : String} {uid : List Char} (h : IsUid uid) :
    (imageMarker alt (String.ofList uid)).toList.count ']' = alt.toList.count ']' + 1 := by
  rw [imageMarker_toList, String.toList_ofList]
  simp [target, imageScheme, List.count_eq_zero_of_not_mem (h.not_mem (c := ']') rfl)]

/-- Baking adds the closing brackets of the captions to the text. -/
theorem count_recaption (captions : Captions) (hps : Cut ps) :
    (textBefore ps).count ']' ≤ (textBefore (ps.map (recaption captions))).count ']' ∧
    ((textBefore (ps.map (recaption captions))).count ']' = (textBefore ps).count ']' →
      ∀ old uid, .found old uid ∈ ps →
        ']' ∉ (cleanCaption captions (String.ofList uid)).toList) ∧
    ((∀ old uid, .found old uid ∈ ps →
        ']' ∉ (cleanCaption captions (String.ofList uid)).toList) →
      (textBefore (ps.map (recaption captions))).count ']' = (textBefore ps).count ']') := by
  induction hps with
  | nil => exact ⟨Nat.le_refl _, fun _ _ _ hmem => absurd hmem List.not_mem_nil, fun _ => rfl⟩
  | @kept c rest _ _ ih =>
    obtain ⟨hle, hclean, heq⟩ := ih
    have hbefore : (textBefore (.kept c :: rest)).count ']' =
        [c].count ']' + (textBefore rest).count ']' := List.count_append
    have hafter : (textBefore ((Piece.kept c :: rest).map (recaption captions))).count ']' =
        [c].count ']' + (textBefore (rest.map (recaption captions))).count ']' := List.count_append
    rw [hbefore, hafter]
    refine ⟨Nat.add_le_add_left hle _, ?_, ?_⟩
    · intro hcount old uid hmem
      rcases List.mem_cons.mp hmem with hhead | hrest
      · cases hhead
      · exact hclean (Nat.add_left_cancel hcount) old uid hrest
    · intro hall
      rw [heq fun old uid hmem => hall old uid (List.mem_cons_of_mem _ hmem)]
  | @found old uid rest hmarker _ ih =>
    obtain ⟨hle, hclean, heq⟩ := ih
    have hbefore : (textBefore (.found old uid :: rest)).count ']' =
        1 + (textBefore rest).count ']' :=
      List.count_append.trans (by rw [Piece.before, hmarker.count]; rfl)
    have hafter : (textBefore ((Piece.found old uid :: rest).map (recaption captions))).count ']' =
        (cleanCaption captions (String.ofList uid)).toList.count ']' + 1 +
          (textBefore (rest.map (recaption captions))).count ']' :=
      List.count_append.trans (by rw [recaption, Piece.before, imageMarker_count hmarker.1]; rfl)
    rw [hbefore, hafter]
    refine ⟨by omega, ?_, ?_⟩
    · intro hcount old' uid' hmem
      have hnone : (cleanCaption captions (String.ofList uid)).toList.count ']' = 0 := by omega
      rcases List.mem_cons.mp hmem with hhead | hrest
      · cases hhead
        exact List.count_eq_zero.mp hnone
      · exact hclean (by omega) old' uid' hrest
    · intro hall
      rw [heq fun old uid hmem => hall old uid (List.mem_cons_of_mem _ hmem),
        List.count_eq_zero_of_not_mem (hall old uid List.mem_cons_self), Nat.zero_add]

/-- The images of the captions, none of them captioned yet. -/
def uncaptioned (captions : Captions) : Captions := captions.map fun image => (image.1, none)

theorem cleanCaption_uncaptioned (captions : Captions) (uid : String) :
    cleanCaption (uncaptioned captions) uid = "" := by
  have hnone : ((uncaptioned captions).lookup uid).join = none := by
    induction captions with
    | nil => rfl
    | cons image captions ih =>
      simp only [uncaptioned, List.map_cons, List.lookup_cons] at ih ⊢
      cases uid == image.1 with
      | true => rfl
      | false => exact ih
  have hempty : String.map (fun c => if c = '\n' then ' ' else c) "" = "" :=
    String.toList_inj.mp (by simp)
  rw [cleanCaption, hnone, Option.getD_none, hempty]
  decide

theorem count_bakeCaptions_uncaptioned (captions : Captions) (text : String) :
    (bakeCaptions (uncaptioned captions) text).toList.count ']' = text.toList.count ']' := by
  have hcount := (count_recaption (uncaptioned captions) (cut_cuts text)).2.2
    fun _ uid _ => by simp [cleanCaption_uncaptioned]
  rwa [textBefore_cuts, ← String.toList_ofList (l := textBefore _), ← bakeCaptions_eq] at hcount

/-- Captions can be baked in again and replaced exactly if none that is used has a closing bracket
in it. -/
theorem bakesCleanly_iff (captions : Captions) (fullText : String) :
    BakesCleanly captions fullText ↔ ∀ old uid, .found old uid ∈ cuts fullText →
      ']' ∉ (cleanCaption captions (String.ofList uid)).toList := by
  constructor
  · intro h
    cases captions with
    | nil =>
      intro old uid _
      rw [show cleanCaption [] (String.ofList uid) = "" from cleanCaption_uncaptioned [] _]
      exact List.not_mem_nil
    | cons image captions =>
      have hcount := congrArg (fun text => text.toList.count ']')
        (h.replaced (uncaptioned (image :: captions)) (List.cons_ne_nil _ _))
      simp only [count_bakeCaptions_uncaptioned] at hcount
      rw [bakeCaptions_eq, String.toList_ofList, ← textBefore_cuts fullText] at hcount
      exact (count_recaption _ (cut_cuts fullText)).2.1 hcount
  · intro hclean
    have hcarries : cuts (bakeCaptions captions fullText) =
        (cuts fullText).map (recaption captions) := by
      rw [bakeCaptions_eq]
      exact cuts_of_cut (cut_recaption (cut_cuts fullText) hclean)
    have hreplaced : ∀ other, bakeCaptions other (bakeCaptions captions fullText) =
        bakeCaptions other fullText := by
      intro other
      rw [bakeCaptions_eq other, hcarries, List.map_map, bakeCaptions_eq other]
      congr 3
      exact funext recaption_recaption
    exact ⟨hcarries, hreplaced captions, fun other _ => hreplaced other⟩

theorem mem_of_mem_strip {s : String} {c : Char} (h : c ∈ (strip s).toList) : c ∈ s.toList := by
  rw [strip, String.toList_ofList] at h
  exact (List.dropWhile_sublist _).mem ((List.rdropWhile_prefix _ _).mem h)

theorem altChar_ne (c : Char) : altChar c ≠ ']' := by
  unfold altChar
  split <;> first | decide | assumption

/-- A caption that is cleaned as for the markers of the first extraction stays free of brackets. -/
theorem cleanCaption_sanitized {uid caption : String}
    (h : captions.lookup uid = some (some (sanitizeCaptionForAlt caption))) :
    ']' ∉ (cleanCaption captions uid).toList := by
  rw [cleanCaption, h]
  intro hmem
  obtain ⟨c, hc, hclean⟩ : ∃ c ∈ (sanitizeCaptionForAlt caption).toList,
      (if c = '\n' then ' ' else c) = ']' := by simpa using mem_of_mem_strip hmem
  obtain ⟨d, -, rfl⟩ : ∃ d ∈ caption.toList, altChar d = c := by simpa using mem_of_mem_strip hc
  split at hclean
  · cases hclean
  · exact altChar_ne d hclean

theorem not_bakesCleanly_closing_bracket :
    ¬BakesCleanly [("00000000-0000-4000-8000-000000000001", some "a]b")]
      "![](image://00000000-0000-4000-8000-000000000001)" := by
  intro h
  exact absurd (h.replaced [("00000000-0000-4000-8000-000000000001", some "c")]
    (List.cons_ne_nil _ _)) (by decide +kernel)

end Completeness

end Cygnus.Substrate
