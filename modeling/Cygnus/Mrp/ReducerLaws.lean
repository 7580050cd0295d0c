import Cygnus.Mrp.Reducer
import Mathlib.Algebra.BigOperators.Group.List.Basic
import Mathlib.Algebra.Order.Ring.Int

/-! The deduplication leaves one concept for each class of merged ones, and loses no mention. -/

namespace Cygnus.Mrp.Reducer

open Sequence UnionFind

section Grouping

variable {α β κ : Type*}

/-- Elements collected key by key. -/
theorem flatMap_filter_perm [DecidableEq κ] (key : α → κ) {keys : List κ} (h : keys.Nodup)
    (xs : List α) : (keys.flatMap fun k => xs.filter fun x => key x = k).Perm
      (xs.filter fun x => key x ∈ keys) := by
  induction keys with
  | nil => simp
  | cons k keys ih =>
    obtain ⟨hnot, hkeys⟩ := List.nodup_cons.mp h
    rw [List.flatMap_cons]
    refine ((ih hkeys).append_left _).trans ?_
    have hhere : xs.filter (fun x => key x = k) =
        (xs.filter fun x => key x ∈ k :: keys).filter fun x => key x = k := by
      rw [List.filter_filter]
      apply List.filter_congr
      intro x _
      by_cases hx : key x = k <;> simp [hx]
    have hthere : xs.filter (fun x => key x ∈ keys) =
        (xs.filter fun x => key x ∈ k :: keys).filter fun x => !decide (key x = k) := by
      rw [List.filter_filter]
      apply List.filter_congr
      intro x _
      by_cases hx : key x = k
      · simp [hx, hnot]
      · simp [hx]
    rw [hhere, hthere]
    exact List.filter_append_perm _ _

theorem mapM_forall₂ {f : α → Option β} {R : α → β → Prop} {xs : List α}
    (h : ∀ x ∈ xs, ∃ y, f x = some y ∧ R x y) : ∃ ys, xs.mapM f = some ys ∧ List.Forall₂ R xs ys := by
  induction xs with
  | nil => exact ⟨[], rfl, .nil⟩
  | cons x xs ih =>
    obtain ⟨hhere, hrest⟩ := List.forall_mem_cons.mp h
    obtain ⟨y, hy, hR⟩ := hhere
    obtain ⟨ys, hys, hall⟩ := ih hrest
    refine ⟨y :: ys, ?_, .cons hR hall⟩
    rw [List.mapM_cons, hy, hys]
    rfl

theorem mapM_some {f : α → Option β} {g : α → β} {xs : List α} (h : ∀ x ∈ xs, f x = some (g x)) :
    xs.mapM f = some (xs.map g) := by
  induction xs with
  | nil => rfl
  | cons x xs ih =>
    obtain ⟨hhere, hrest⟩ := List.forall_mem_cons.mp h
    rw [List.mapM_cons, hhere, ih hrest]
    rfl

end Grouping

section Merges

variable {mergedInto : MergedInto} {joined : List (Nat × Nat)}

theorem stillAmbiguous_some (h : Ends mergedInto) (pairs : List (Nat × Nat)) :
    ∃ kept, stillAmbiguous mergedInto pairs = some kept ∧ ∀ pair ∈ kept, pair ∈ pairs := by
  induction pairs with
  | nil => exact ⟨[], rfl, fun _ hmem => hmem⟩
  | cons pair rest ih =>
    obtain ⟨ri, hi⟩ := h pair.1
    obtain ⟨rj, hj⟩ := h pair.2
    obtain ⟨others, hothers, hsub⟩ := ih
    refine ⟨if ri = rj then others else pair :: others, ?_, ?_⟩
    · simp [stillAmbiguous, hi, hj, hothers]
    · intro other hmem
      split at hmem
      · exact List.mem_cons_of_mem _ (hsub other hmem)
      · rcases List.mem_cons.mp hmem with rfl | hlater
        · exact List.mem_cons_self
        · exact List.mem_cons_of_mem _ (hsub other hlater)

/-- The pairs that the answer merges. -/
def accepted : List (Nat × Nat) → List Decision → List (Nat × Nat)
  | pair :: pairs, .same :: decisions => pair :: accepted pairs decisions
  | _ :: pairs, .different :: decisions => accepted pairs decisions
  | _, _ => []

theorem accepted_subset {pairs : List (Nat × Nat)} {decisions : List Decision} :
    ∀ pair ∈ accepted pairs decisions, pair ∈ pairs := by
  intro pair hmem
  induction pairs generalizing decisions with
  | nil => simp [accepted] at hmem
  | cons first pairs ih =>
    cases decisions with
    | nil => simp [accepted] at hmem
    | cons decision decisions =>
      cases decision with
      | same =>
        rcases List.mem_cons.mp hmem with rfl | hlater
        · exact List.mem_cons_self
        · exact List.mem_cons_of_mem _ (ih hlater)
      | different => exact List.mem_cons_of_mem _ (ih hmem)
      | raises => simp [accepted] at hmem

theorem resolveAmbiguousConcepts_represents (concepts : List Concept)
    (h : Represents mergedInto joined) (pairs : List (Nat × Nat)) (decisions : List Decision) :
    ∃ final, resolveAmbiguousConcepts concepts mergedInto pairs decisions = some final ∧
      Represents final (joined ++ accepted pairs decisions) := by
  induction pairs generalizing mergedInto joined decisions with
  | nil => exact ⟨mergedInto, by simp [resolveAmbiguousConcepts], by simpa [accepted] using h⟩
  | cons pair pairs ih =>
    cases decisions with
    | nil => exact ⟨mergedInto, by simp [resolveAmbiguousConcepts], by simpa [accepted] using h⟩
    | cons decision decisions =>
      cases decision with
      | same =>
        obtain ⟨next, hnext, hrepresents⟩ := h.union (prefer concepts) pair
        obtain ⟨final, hfinal, hall⟩ := ih hrepresents decisions
        refine ⟨final, ?_, by simpa [accepted] using hall⟩
        rw [resolveAmbiguousConcepts, hnext]
        exact hfinal
      | different =>
        obtain ⟨final, hfinal, hall⟩ := ih h decisions
        exact ⟨final, by rwa [resolveAmbiguousConcepts], by rwa [accepted]⟩
      | raises =>
        exact ⟨mergedInto, by simp [resolveAmbiguousConcepts], by simpa [accepted] using h⟩

end Merges

section Components

/-- One member of every class of the numbers below `n`. -/
structure Components (n : Nat) (pairs : List (Nat × Nat)) (roots : List Nat) : Prop where
  nodup : roots.Nodup
  inside : ∀ r ∈ roots, r < n
  covers : ∀ i < n, ∃ r ∈ roots, Joined pairs i r
  separates : ∀ r ∈ roots, ∀ r' ∈ roots, Joined pairs r r' → r = r'

theorem joined_lt_iff {n : Nat} {pairs : List (Nat × Nat)} {i j : Nat}
    (hpairs : ∀ pair ∈ pairs, pair.1 < n ∧ pair.2 < n) (h : Joined pairs i j) : i < n ↔ j < n := by
  induction h with
  | rel x y hmem =>
    have := hpairs _ hmem
    exact ⟨fun _ => this.2, fun _ => this.1⟩
  | refl => exact Iff.rfl
  | symm _ _ _ ih => exact ih.symm
  | trans _ _ _ _ _ ih ih' => exact ih.trans ih'

theorem components_of_represents {n : Nat} {mergedInto : MergedInto} {pairs : List (Nat × Nat)}
    {root : Nat → Nat} (h : Represents mergedInto pairs)
    (hpairs : ∀ pair ∈ pairs, pair.1 < n ∧ pair.2 < n)
    (hroot : ∀ i, rootOf mergedInto i = some (root i)) :
    Components n pairs ((List.range n).map root).eraseDups := by
  have hself : ∀ i, Joined pairs i (root i) := by
    intro i
    rw [← h.joined, hroot i]
    exact (rootOf_root (hroot i)).symm
  refine ⟨nodup_eraseDups _, ?_, ?_, ?_⟩
  · intro r hr
    obtain ⟨i, hi, rfl⟩ := List.mem_map.mp (List.mem_eraseDups.mp hr)
    exact (joined_lt_iff hpairs (hself i)).mp (List.mem_range.mp hi)
  · intro i hi
    exact ⟨root i, List.mem_eraseDups.mpr (List.mem_map_of_mem (List.mem_range.mpr hi)), hself i⟩
  · intro r hr r' hr' hjoined
    obtain ⟨i, -, rfl⟩ := List.mem_map.mp (List.mem_eraseDups.mp hr)
    obtain ⟨j, -, rfl⟩ := List.mem_map.mp (List.mem_eraseDups.mp hr')
    rw [← h.joined, rootOf_root (hroot i), rootOf_root (hroot j)] at hjoined
    exact Option.some.inj hjoined

end Components

section Output

variable {concepts : List Concept}

/-- What a concept has once it has taken in all of `group`, itself among them. -/
structure Gathers (c out : Concept) (group : List Concept) : Prop where
  term : out.term = c.term
  norm : out.norm = c.norm
  mentions : out.mentionCount = (group.map Concept.mentionCount).sum
  offsets : out.absoluteOffsets.Perm (group.flatMap Concept.absoluteOffsets)

theorem foldl_absorb (c : Concept) (others : List Concept) :
    Gathers c (others.foldl Concept.absorb c) (c :: others) := by
  induction others generalizing c with
  | nil => exact ⟨rfl, rfl, by simp, by simp⟩
  | cons other others ih =>
    have hrest := ih (c.absorb other)
    refine ⟨hrest.term, hrest.norm, ?_, ?_⟩
    · rw [List.foldl_cons, hrest.mentions]
      simp only [List.map_cons, List.sum_cons, Concept.absorb, Int.add_assoc]
    · rw [List.foldl_cons]
      refine hrest.offsets.trans (List.Perm.of_eq ?_)
      simp only [List.flatMap_cons, Concept.absorb, List.append_assoc]

theorem Gathers.perm {c out : Concept} {group group' : List Concept} (h : Gathers c out group)
    (hperm : group.Perm group') : Gathers c out group' where
  term := h.term
  norm := h.norm
  mentions := h.mentions.trans (hperm.map _).sum_eq
  offsets := h.offsets.trans (hperm.flatMap_right _)

/-- The entry with an index, in front of the others that a condition on the index selects. -/
theorem zipIdx_filter_perm {c : Concept} {i : Nat} (hget : concepts[i]? = some c)
    (p : Nat → Prop) [DecidablePred p] (hp : p i) :
    ((c, i) :: concepts.zipIdx.filter fun entry => entry.2 ≠ i ∧ p entry.2).Perm
      (concepts.zipIdx.filter fun entry => p entry.2) := by
  have hmem : (c, i) ∈ concepts.zipIdx.filter fun entry => p entry.2 :=
    List.mem_filter.mpr ⟨List.mem_zipIdx_iff_getElem?.mpr hget, by simpa using hp⟩
  have hnodup : (concepts.zipIdx.filter fun entry => p entry.2).Nodup :=
    (List.Nodup.of_map Prod.snd (by rw [List.zipIdx_map_snd]; exact List.nodup_range')).filter _
  refine .trans (List.Perm.of_eq ?_) (List.perm_cons_erase hmem).symm
  rw [hnodup.erase_eq_filter, List.filter_filter]
  congr 1
  apply List.filter_congr
  rintro ⟨c', j⟩ hentry
  have hget' := List.mem_zipIdx_iff_getElem?.mp hentry
  by_cases hj : j = i
  · subst hj
    rw [hget] at hget'
    simp [Option.some.inj hget']
  · simp [hj]

/-- The concepts that were merged into the one at `r`. -/
def groupOf (concepts : List Concept) (root : Nat → Nat) (r : Nat) : List Concept :=
  (concepts.zipIdx.filter fun entry => root entry.2 = r).map Prod.fst

theorem applyMergesConcepts_some {mergedInto : MergedInto} {root : Nat → Nat}
    (hroot : ∀ i, rootOf mergedInto i = some (root i))
    (hinside : ∀ r ∈ ((List.range concepts.length).map root).eraseDups, r < concepts.length) :
    ∃ output, applyMergesConcepts concepts mergedInto = some output ∧
      List.Forall₂ (fun r out => ∃ c, concepts[r]? = some c ∧
        Gathers c out (groupOf concepts root r))
        ((List.range concepts.length).map root).eraseDups output := by
  have hroots : (List.range concepts.length).mapM (rootOf mergedInto) =
      some ((List.range concepts.length).map root) := mapM_some fun i _ => hroot i
  rw [applyMergesConcepts, hroots]
  refine mapM_forall₂ fun r hr => ?_
  have hlt := hinside r hr
  have hget : concepts[r]? = some concepts[r] := List.getElem?_eq_getElem hlt
  have hself : root r = r := by
    obtain ⟨i, -, rfl⟩ := List.mem_map.mp (List.mem_eraseDups.mp hr)
    have := rootOf_root (hroot i)
    rw [hroot] at this
    exact Option.some.inj this
  refine ⟨_, by rw [hget]; rfl, concepts[r], hget, (foldl_absorb _ _).perm ?_⟩
  have hothers : (concepts.zipIdx.filter fun entry => entry.2 ≠ r ∧
      ((List.range concepts.length).map root)[entry.2]? = some r) =
      concepts.zipIdx.filter fun entry => entry.2 ≠ r ∧ root entry.2 = r := by
    apply List.filter_congr
    rintro ⟨c, i⟩ hentry
    have hi : i < concepts.length :=
      (List.getElem?_eq_some_iff.mp (List.mem_zipIdx_iff_getElem?.mp hentry)).1
    simp [hi]
  rw [hothers]
  exact (zipIdx_filter_perm hget (fun i => root i = r) hself).map Prod.fst

theorem flatMap_groupOf_perm {root : Nat → Nat} {roots : List Nat} (hnodup : roots.Nodup)
    (hroots : ∀ i < concepts.length, root i ∈ roots) :
    (roots.flatMap (groupOf concepts root)).Perm concepts := by
  have hentries := (flatMap_filter_perm (fun entry : Concept × Nat => root entry.2) hnodup
    concepts.zipIdx).map Prod.fst
  have hall : (concepts.zipIdx.filter fun entry => root entry.2 ∈ roots) = concepts.zipIdx := by
    rw [List.filter_eq_self]
    rintro ⟨c, i⟩ hentry
    have hi : i < concepts.length :=
      (List.getElem?_eq_some_iff.mp (List.mem_zipIdx_iff_getElem?.mp hentry)).1
    simpa using hroots i hi
  rw [hall, List.zipIdx_map_fst, List.map_flatMap] at hentries
  exact hentries

theorem gathers_sum {roots : List Nat} {output : List Concept} {groups : Nat → List Concept}
    (h : List.Forall₂ (fun r out => ∃ c, concepts[r]? = some c ∧ Gathers c out (groups r))
      roots output) :
    (output.map Concept.mentionCount).sum =
        ((roots.flatMap groups).map Concept.mentionCount).sum ∧
      (output.flatMap Concept.absoluteOffsets).Perm
        ((roots.flatMap groups).flatMap Concept.absoluteOffsets) := by
  induction h with
  | nil => exact ⟨rfl, .nil⟩
  | cons hhere _ ih =>
    obtain ⟨c, -, hgathers⟩ := hhere
    constructor
    · simp only [List.map_cons, List.sum_cons, List.flatMap_cons, List.map_append, List.sum_append,
        hgathers.mentions, ih.1]
    · simp only [List.flatMap_cons, List.flatMap_append]
      exact hgathers.offsets.append ih.2

/-- One concept is left for every class, under the name of a member, and nothing is lost. -/
structure Deduplicated (concepts : List Concept) (pairs : List (Nat × Nat))
    (output : List Concept) : Prop where
  classes : ∃ roots, Components concepts.length pairs roots ∧
    List.Forall₂ (fun r out => ∃ c, concepts[r]? = some c ∧ out.term = c.term ∧ out.norm = c.norm)
      roots output
  mentions : (output.map Concept.mentionCount).sum = (concepts.map Concept.mentionCount).sum
  offsets : (output.flatMap Concept.absoluteOffsets).Perm (concepts.flatMap Concept.absoluteOffsets)

theorem deduplicated_of_represents {mergedInto : MergedInto} {pairs : List (Nat × Nat)}
    (h : Represents mergedInto pairs)
    (hpairs : ∀ pair ∈ pairs, pair.1 < concepts.length ∧ pair.2 < concepts.length) :
    ∃ output, applyMergesConcepts concepts mergedInto = some output ∧
      Deduplicated concepts pairs output := by
  choose root hroot using h.ends
  have hcomponents := components_of_represents h hpairs hroot
  obtain ⟨output, houtput, hall⟩ := applyMergesConcepts_some hroot hcomponents.inside
  have hperm : (((List.range concepts.length).map root).eraseDups.flatMap
      (groupOf concepts root)).Perm concepts := by
    refine flatMap_groupOf_perm hcomponents.nodup fun i hi => ?_
    exact List.mem_eraseDups.mpr (List.mem_map_of_mem (List.mem_range.mpr hi))
  obtain ⟨hmentions, hoffsets⟩ := gathers_sum hall
  refine ⟨output, houtput, ⟨_, hcomponents, ?_⟩, ?_, ?_⟩
  · refine hall.imp ?_
    rintro r out ⟨c, hget, hgathers⟩
    exact ⟨c, hget, hgathers.term, hgathers.norm⟩
  · exact hmentions.trans (hperm.map _).sum_eq
  · exact hoffsets.trans (hperm.flatMap_right _)

theorem deduplicated_self (concepts : List Concept) : Deduplicated concepts [] concepts := by
  have hid : ∀ i, rootOf ([] : MergedInto) i = some i := fun _ => rfl
  refine ⟨⟨List.range concepts.length, ⟨List.nodup_range, fun r hr => List.mem_range.mp hr, ?_, ?_⟩,
    ?_⟩, rfl, .refl _⟩
  · exact fun i hi => ⟨i, List.mem_range.mpr hi, .refl i⟩
  · intro r _ r' _ hjoined
    exact Option.some.inj ((represents_nil.joined r r').mpr hjoined)
  · rw [List.forall₂_iff_get]
    refine ⟨by simp, fun i hi hi' => ⟨concepts[i], ?_, rfl, rfl⟩⟩
    simp

end Output

section Runs

variable {concepts : List Concept}

/-- The merges of a run: the pairs above the threshold and those the answer accepts, with what was
merged into what. -/
inductive Applied (embedded : Option (Nat → Nat → Similarity)) (decisions : List Decision)
    (concepts : List Concept) : List (Nat × Nat) → MergedInto → Prop
  | nothing (h : embeddingDedupConcepts embedded concepts = some (.inl concepts)) :
      Applied embedded decisions concepts [] []
  | merges {similarity mergedInto pairs final} (hsimilarity : embedded = some similarity)
      (hdedup : embeddingDedupConcepts embedded concepts = some (.inr (mergedInto, pairs)))
      (hresolve : resolveAmbiguousConcepts concepts mergedInto pairs decisions = some final) :
      Applied embedded decisions concepts
        (autoMergePairs similarity concepts ++ accepted pairs decisions) final

theorem mem_indexPairs {pair : Nat × Nat} (h : pair ∈ indexPairs concepts) :
    pair.1 < concepts.length ∧ pair.2 < concepts.length := by
  have := mem_of_mem_combinations h
  exact ⟨List.mem_range.mp this.1, List.mem_range.mp this.2⟩

/-- Every run of the deduplication ends: its walks end, and its output has one concept for each class
of merged ones. -/
theorem dedupConcepts_deduplicated (embedded : Option (Nat → Nat → Similarity))
    (decisions : List Decision) (concepts : List Concept) :
    ∃ output, dedupConcepts embedded decisions concepts = some output ∧
      ∃ pairs mergedInto, Applied embedded decisions concepts pairs mergedInto ∧ Ends mergedInto ∧
        Deduplicated concepts pairs output := by
  have hkeep : embeddingDedupConcepts embedded concepts = some (.inl concepts) →
      ∃ output, dedupConcepts embedded decisions concepts = some output ∧
        ∃ pairs mergedInto, Applied embedded decisions concepts pairs mergedInto ∧
          Ends mergedInto ∧ Deduplicated concepts pairs output := by
    intro hdedup
    refine ⟨concepts, ?_, [], [], .nothing hdedup, ends_nil, deduplicated_self concepts⟩
    rw [dedupConcepts, hdedup]
    rfl
  by_cases hfew : concepts.length ≤ 1
  · exact hkeep (by simp [embeddingDedupConcepts, hfew])
  · cases embedded with
    | none => exact hkeep (by simp [embeddingDedupConcepts])
    | some similarity =>
      obtain ⟨mergedInto, hmerged, hauto⟩ :=
        represents_nil.unions (prefer concepts) (autoMergePairs similarity concepts)
      obtain ⟨pairs, hpairs, hsub⟩ :=
        stillAmbiguous_some hauto.ends (ambiguousPairs similarity concepts)
      obtain ⟨final, hfinal, hall⟩ :=
        resolveAmbiguousConcepts_represents concepts hauto pairs decisions
      have hdedup : embeddingDedupConcepts (some similarity) concepts =
          some (.inr (mergedInto, pairs)) := by
        simp [embeddingDedupConcepts, hfew, hmerged, hpairs]
      have hinside : ∀ pair ∈ [] ++ autoMergePairs similarity concepts ++ accepted pairs decisions,
          pair.1 < concepts.length ∧ pair.2 < concepts.length := by
        intro pair hmem
        rcases List.mem_append.mp hmem with hmem | hmem
        · exact mem_indexPairs (List.mem_of_mem_filter hmem)
        · exact mem_indexPairs (List.mem_of_mem_filter (hsub pair (accepted_subset pair hmem)))
      obtain ⟨output, houtput, hdeduplicated⟩ := deduplicated_of_represents hall hinside
      refine ⟨output, ?_, _, final, .merges rfl hdedup hfinal, hall.ends, hdeduplicated⟩
      rw [dedupConcepts, hdedup]
      simp [hfinal, houtput]

end Runs

end Cygnus.Mrp.Reducer
