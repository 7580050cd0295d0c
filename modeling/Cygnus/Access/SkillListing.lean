import Cygnus.Access.Skill
import Cygnus.Data.Sequence
import Cygnus.Data.Table
import Mathlib.Data.Prod.Lex

/-! The pages of the skill listing. A page starts behind the row of its cursor, which is the slug of
the last item before. -/

namespace Cygnus.Access

open Sequence

/-- A skill with the columns the listing is ordered and paged by. -/
structure ListedSkill extends Skill where
  slug : String
  updatedAt : Nat
  deriving DecidableEq

instance : Row ListedSkill := ⟨fun skill => skill.id⟩

section Listing

variable (ilike : String → String → Bool) (query : SkillQuery)

/-- `updated_at DESC, id DESC`. -/
def ListedSkill.recency (skill : ListedSkill) : (Nat ×ₗ Uuid)ᵒᵈ :=
  OrderDual.toDual (toLex (skill.updatedAt, skill.id))

/-- The skill comes after the cursor's row. -/
def ListedSkill.follows (skill ref : ListedSkill) : Bool :=
  skill.updatedAt < ref.updatedAt || (skill.updatedAt = ref.updatedAt && skill.id < ref.id)

/-- The row a cursor names, whatever the filters say of it; an empty cursor is no cursor. -/
def refSkill (skills : Table ListedSkill) (cursor : Option String) : Option ListedSkill :=
  (cursor.filter (· ≠ "")).bind fun slug => skills.find? (·.slug = slug)

def ListedSkill.admitted (skill : ListedSkill) : Bool := applySkillFilters ilike query skill.toSkill

/-- A page and the total of a call. -/
def listSkills (limit : Nat) (skills : Table ListedSkill) (cursor : Option String) :
    List ListedSkill × Nat :=
  let ref := refSkill skills cursor
  let rows := skills.filter fun skill => ref.all skill.follows && skill.admitted ilike query
  let counted := skills.filter (·.admitted ilike query)
  ((sortedBy ListedSkill.recency rows).take limit, (counted.map Row.key).eraseDups.length)

/-- The calls that follow each other until a page is empty. -/
inductive Pages (limit : Nat) (skills : Table ListedSkill) :
    Option String → List (List ListedSkill × Nat) → Prop
  | last {cursor : Option String} (hempty : (listSkills ilike query limit skills cursor).1 = []) :
      Pages limit skills cursor [listSkills ilike query limit skills cursor]
  | more {cursor : Option String} {skill : ListedSkill} {pages : List (List ListedSkill × Nat)}
      (hlast : (listSkills ilike query limit skills cursor).1.getLast? = some skill)
      (hrest : Pages limit skills (some skill.slug) pages) :
      Pages limit skills cursor (listSkills ilike query limit skills cursor :: pages)

/-- The pages come to an end, and hold every skill the filters admit once, newest first. -/
def PaginatesExactly (limit : Nat) (skills : Table ListedSkill) : Prop :=
  ∃ pages, Pages ilike query limit skills none pages ∧
    (pages.flatMap Prod.fst).Perm (skills.filter (·.admitted ilike query)) ∧
    (pages.flatMap Prod.fst).Pairwise (fun newer older => older.follows newer) ∧
    ∀ page ∈ pages, page.2 = (skills.filter (·.admitted ilike query)).length

/-- All admitted skills on one page. -/
def admittedSkills (skills : Table ListedSkill) : List ListedSkill :=
  sortedBy ListedSkill.recency (skills.filter (·.admitted ilike query))

/-- No page ends with a skill whose slug is empty. -/
def NamesItsPages (limit : Nat) (skills : Table ListedSkill) : Prop :=
  ∀ i skill, (admittedSkills ilike query skills)[i]? = some skill → skill.slug = "" →
    ¬ (limit ∣ i + 1 ∨ i + 1 = (admittedSkills ilike query skills).length)

end Listing

variable {ilike : String → String → Bool} {query : SkillQuery} {limit : Nat}
  {skills : Table ListedSkill}

theorem follows_iff {skill ref : ListedSkill} :
    skill.follows ref = true ↔ ref.recency < skill.recency := by
  simp only [ListedSkill.follows, ListedSkill.recency, OrderDual.toDual_lt_toDual,
    Prod.Lex.toLex_lt_toLex, Bool.or_eq_true, Bool.and_eq_true, decide_eq_true_eq]

theorem mem_admittedSkills {skill : ListedSkill} :
    skill ∈ admittedSkills ilike query skills ↔
      skill ∈ skills ∧ skill.admitted ilike query = true := by
  rw [admittedSkills, mem_sortedBy, List.mem_filter]

theorem pairwise_admittedSkills (hkeyed : skills.Keyed) :
    (admittedSkills ilike query skills).Pairwise fun newer older => older.follows newer := by
  have hsorted := pairwise_sortedBy ListedSkill.recency (skills.filter (·.admitted ilike query))
  have hdistinct : (admittedSkills ilike query skills).Nodup := by
    rw [admittedSkills, (perm_sortedBy _ _).nodup_iff]
    exact (List.Nodup.of_map _ hkeyed).filter _
  refine (hsorted.and hdistinct).imp_of_mem ?_
  rintro newer older hnewer holder ⟨hle, hne⟩
  rw [follows_iff]
  refine lt_of_le_of_ne hle ?_
  intro heq
  have hid : Row.key newer = Row.key older := congrArg (fun r => (ofLex (OrderDual.ofDual r)).2) heq
  have hmem := mem_admittedSkills.mp hnewer
  exact hne (List.inj_on_of_nodup_map hkeyed hmem.1 (mem_admittedSkills.mp holder).1 hid)

/-- A call returns what follows the cursor's row among the admitted skills. -/
theorem listSkills_eq (hkeyed : skills.Keyed) (cursor : Option String) :
    listSkills ilike query limit skills cursor =
      (((admittedSkills ilike query skills).filter fun skill =>
        (refSkill skills cursor).all skill.follows).take limit,
        (admittedSkills ilike query skills).length) := by
  have hcounted : ((skills.filter (·.admitted ilike query)).map Row.key).Nodup :=
    hkeyed.sublist (List.filter_sublist.map Row.key)
  simp only [listSkills, admittedSkills, ← sortedBy_filter, List.filter_filter,
    eraseDups_of_nodup hcounted, List.length_map, length_sortedBy]

theorem refSkill_of_mem (hslugs : (skills.map ListedSkill.slug).Nodup) {skill : ListedSkill}
    (hmem : skill ∈ skills) (hslug : skill.slug ≠ "") :
    refSkill skills (some skill.slug) = some skill := by
  rw [refSkill, Option.filter_some_pos (by simpa using hslug), Option.bind_some]
  cases hfound : skills.find? (·.slug = skill.slug) with
  | none => simpa using List.find?_eq_none.mp hfound skill hmem
  | some found =>
    have heq := List.find?_some hfound
    rw [List.inj_on_of_nodup_map hslugs (List.mem_of_find?_eq_some hfound) hmem
      (by simpa using heq)]

/-- What follows a row of an ordered list is the rest of the list. -/
theorem filter_follows {rows : List ListedSkill} {k : Nat} {skill : ListedSkill}
    (hordered : rows.Pairwise fun newer older => older.follows newer)
    (hat : rows[k]? = some skill) : rows.filter (·.follows skill) = rows.drop (k + 1) := by
  have hasymm : ∀ {a b : ListedSkill}, a.follows b = true → b.follows a = false := by
    intro a b hab
    rw [follows_iff] at hab
    rw [Bool.eq_false_iff, Ne, follows_iff]
    exact lt_asymm hab
  induction rows generalizing k with
  | nil => cases hat
  | cons row rows ih =>
    rw [List.pairwise_cons] at hordered
    cases k with
    | zero =>
      obtain rfl : row = skill := by simpa using hat
      rw [List.filter_cons_of_neg, List.filter_eq_self.mpr hordered.1, List.drop_one,
        List.tail_cons]
      rw [follows_iff]
      exact lt_irrefl _
    | succ k =>
      rw [List.getElem?_cons_succ] at hat
      have hlater := hordered.1 skill (List.mem_of_getElem? hat)
      rw [List.filter_cons_of_neg (by rw [hasymm hlater]; decide), ih hordered.2 hat,
        List.drop_succ_cons]

section Walk

/-- The call at the cursor returns the page that starts behind `k` rows. -/
def Stands (ilike : String → String → Bool) (query : SkillQuery) (limit : Nat)
    (skills : Table ListedSkill) (cursor : Option String) (k : Nat) : Prop :=
  listSkills ilike query limit skills cursor =
    (((admittedSkills ilike query skills).drop k).take limit,
      (admittedSkills ilike query skills).length)

theorem stands_start (hkeyed : skills.Keyed) {cursor : Option String}
    (hcursor : cursor = none ∨ cursor = some "") :
    Stands ilike query limit skills cursor 0 := by
  have href : refSkill skills cursor = none := by
    rcases hcursor with rfl | rfl <;> rfl
  rw [Stands, listSkills_eq hkeyed, href]
  simp only [Option.all_none, List.filter_true, List.drop_zero]

theorem stands_behind (hkeyed : skills.Keyed) (hslugs : (skills.map ListedSkill.slug).Nodup)
    {k : Nat} {skill : ListedSkill} (hat : (admittedSkills ilike query skills)[k]? = some skill)
    (hslug : skill.slug ≠ "") :
    Stands ilike query limit skills (some skill.slug) (k + 1) := by
  have hmem := (mem_admittedSkills.mp (List.mem_of_getElem? hat)).1
  rw [Stands, listSkills_eq hkeyed, refSkill_of_mem hslugs hmem hslug]
  simp only [Option.all_some]
  rw [filter_follows (pairwise_admittedSkills hkeyed) hat]

/-- Where a page behind `k` rows ends. -/
def pageEnd (limit length k : Nat) : Nat := min (k + limit) length

theorem getLast?_page {α : Type*} {rows : List α} {k : Nat} (hlimit : 1 ≤ limit)
    (hk : k < rows.length) :
    ((rows.drop k).take limit).getLast? = rows[pageEnd limit rows.length k - 1]? := by
  rw [List.getLast?_eq_getElem?, List.length_take, List.length_drop, List.getElem?_take_of_lt,
    List.getElem?_drop]
  · congr 1
    simp only [pageEnd]
    omega
  · omega

theorem drop_pageEnd {α : Type*} (rows : List α) (k : Nat) :
    rows.drop (pageEnd limit rows.length k) = (rows.drop k).drop limit := by
  rw [List.drop_drop, pageEnd]
  rcases Nat.le_total (k + limit) rows.length with hle | hle
  · rw [Nat.min_eq_left hle]
  · rw [Nat.min_eq_right hle, List.drop_length, List.drop_eq_nil_of_le hle]

theorem Stands.getLast {cursor : Option String} {k : Nat}
    (h : Stands ilike query limit skills cursor k) (hlimit : 1 ≤ limit)
    (hk : k < (admittedSkills ilike query skills).length) :
    (listSkills ilike query limit skills cursor).1.getLast? =
      (admittedSkills ilike query skills)[
        pageEnd limit (admittedSkills ilike query skills).length k - 1]? := by
  rw [h]
  exact getLast?_page hlimit hk

theorem le_pageEnd {length k : Nat} (hlimit : 1 ≤ limit) (hk : k < length) :
    k < pageEnd limit length k ∧ pageEnd limit length k ≤ length := by
  simp only [pageEnd]
  omega

/-- From a page boundary the walk reaches the end, when the last row of every page has a slug. -/
theorem exists_pages (hkeyed : skills.Keyed) (hslugs : (skills.map ListedSkill.slug).Nodup)
    (hlimit : 1 ≤ limit) (hnames : NamesItsPages ilike query limit skills)
    {cursor : Option String} {k : Nat} (hstands : Stands ilike query limit skills cursor k)
    (hk : k ≤ (admittedSkills ilike query skills).length)
    (hboundary : limit ∣ k ∨ k = (admittedSkills ilike query skills).length) :
    ∃ pages, Pages ilike query limit skills cursor pages ∧
      pages.flatMap Prod.fst = (admittedSkills ilike query skills).drop k ∧
      ∀ page ∈ pages, page.2 = (admittedSkills ilike query skills).length := by
  -- what is left of the list gets shorter with every page
  induction hleft : (admittedSkills ilike query skills).length - k using Nat.strongRecOn
    generalizing cursor k with
  | ind left ih =>
    rcases hk.eq_or_lt with hend | hlt
    · have hempty : (listSkills ilike query limit skills cursor).1 = [] := by
        rw [hstands, hend]
        simp
      refine ⟨_, .last hempty, ?_, ?_⟩
      · rw [List.flatMap_singleton, hempty, hend, List.drop_length]
      · intro page hpage
        rw [List.mem_singleton.mp hpage, hstands]
    · obtain ⟨hnext, hnext'⟩ := le_pageEnd hlimit hlt
      have hlast : pageEnd limit (admittedSkills ilike query skills).length k - 1 <
          (admittedSkills ilike query skills).length := by omega
      have hat := List.getElem?_eq_getElem hlast
      have hend : limit ∣ pageEnd limit (admittedSkills ilike query skills).length k ∨
          pageEnd limit (admittedSkills ilike query skills).length k =
            (admittedSkills ilike query skills).length := by
        rcases hboundary with hdvd | hwhole
        · rcases Nat.le_total (k + limit) (admittedSkills ilike query skills).length with hle | hle
          · left
            rw [pageEnd, Nat.min_eq_left hle]
            exact Nat.dvd_add hdvd (Nat.dvd_refl limit)
          · exact .inr (Nat.min_eq_right hle)
        · omega
      have hslug : ((admittedSkills ilike query skills)[
          pageEnd limit (admittedSkills ilike query skills).length k - 1]).slug ≠ "" := by
        intro hempty
        refine hnames _ _ hat hempty ?_
        rw [Nat.sub_add_cancel (by omega)]
        exact hend
      have hstands' : Stands ilike query limit skills _ _ := stands_behind hkeyed hslugs hat hslug
      rw [Nat.sub_add_cancel (by omega)] at hstands'
      obtain ⟨pages, hpages, hrows, htotal⟩ := ih _ (by omega) hstands' hnext' hend rfl
      refine ⟨_, .more ((hstands.getLast hlimit hlt).trans hat) hpages, ?_, ?_⟩
      · rw [List.flatMap_cons, hrows, hstands, drop_pageEnd, List.take_append_drop]
      · intro page hpage
        rcases List.mem_cons.mp hpage with rfl | hpage
        · rw [hstands]
        · exact htotal page hpage

/-- A walk that ends with an empty slug at row `i` starts over, so it never gets behind `i`. -/
theorem not_pages (hkeyed : skills.Keyed) (hslugs : (skills.map ListedSkill.slug).Nodup)
    (hlimit : 1 ≤ limit) {i : Nat} {unnamed : ListedSkill}
    (hat : (admittedSkills ilike query skills)[i]? = some unnamed) (hslug : unnamed.slug = "")
    (hboundary : limit ∣ i + 1 ∨ i + 1 = (admittedSkills ilike query skills).length)
    {cursor : Option String} {pages : List (List ListedSkill × Nat)}
    (hpages : Pages ilike query limit skills cursor pages) {k : Nat}
    (hstands : Stands ilike query limit skills cursor k) (hk : k ≤ i) (hdvd : limit ∣ k) :
    False := by
  obtain ⟨hi, -⟩ := List.getElem?_eq_some_iff.mp hat
  have hlt : k < (admittedSkills ilike query skills).length := by omega
  induction hpages generalizing k with
  | last hempty =>
    rw [hstands, List.take_eq_nil_iff, List.drop_eq_nil_iff] at hempty
    omega
  | @more cursor skill pages hlast _ ih =>
    rw [hstands.getLast hlimit hlt] at hlast
    obtain ⟨hnext, hnext'⟩ := le_pageEnd hlimit hlt
    by_cases hempty : skill.slug = ""
    · have hrestart : Stands ilike query limit skills (some skill.slug) 0 :=
        stands_start hkeyed (.inr (congrArg some hempty))
      exact ih hrestart (Nat.zero_le i) (dvd_zero limit) (by omega)
    · have hstands' : Stands ilike query limit skills _ _ :=
        stands_behind hkeyed hslugs hlast hempty
      rw [Nat.sub_add_cancel (by omega)] at hstands'
      have hpast : pageEnd limit (admittedSkills ilike query skills).length k ≤ i := by
        by_contra hpast
        have hne : pageEnd limit (admittedSkills ilike query skills).length k - 1 ≠ i := by
          rintro heq
          rw [heq, hat] at hlast
          exact hempty (Option.some.inj hlast ▸ hslug)
        have hmultiple : limit ∣ i + 1 := hboundary.resolve_right (by omega)
        -- no multiple of the limit lies strictly inside a page
        have hinside : limit ∣ i + 1 - k := Nat.dvd_sub hmultiple hdvd
        have hlong := Nat.le_of_dvd (by omega) hinside
        simp only [pageEnd] at hpast hne
        omega
      have hwhole : k + limit ≤ (admittedSkills ilike query skills).length := by
        simp only [pageEnd] at hpast
        omega
      refine ih hstands' hpast ?_ (by omega)
      rw [pageEnd, Nat.min_eq_left hwhole]
      exact Nat.dvd_add hdvd (Nat.dvd_refl limit)

end Walk

/-- An empty slug is read as no cursor, so a page that ends with it is followed by the first page;
otherwise the walk is exact. -/
theorem paginatesExactly_iff (ilike : String → String → Bool) (query : SkillQuery) {limit : Nat}
    (hlimit : 1 ≤ limit) {skills : Table ListedSkill} (hkeyed : skills.Keyed)
    (hslugs : (skills.map ListedSkill.slug).Nodup) :
    PaginatesExactly ilike query limit skills ↔ NamesItsPages ilike query limit skills := by
  have hstart : Stands ilike query limit skills none 0 := stands_start hkeyed (.inl rfl)
  constructor
  · rintro ⟨pages, hpages, -⟩ i unnamed hat hslug hboundary
    exact not_pages hkeyed hslugs hlimit hat hslug hboundary hpages hstart (Nat.zero_le i)
      (Nat.dvd_zero limit)
  · intro hnames
    obtain ⟨pages, hpages, hrows, htotal⟩ :=
      exists_pages hkeyed hslugs hlimit hnames hstart (Nat.zero_le _) (.inl (Nat.dvd_zero limit))
    rw [List.drop_zero] at hrows
    refine ⟨pages, hpages, ?_, ?_, ?_⟩
    · rw [hrows]
      exact perm_sortedBy _ _
    · rw [hrows]
      exact pairwise_admittedSkills hkeyed
    · intro page hpage
      rw [htotal page hpage, admittedSkills, length_sortedBy]

def listed (id : Uuid) (slug : String) : ListedSkill :=
  { id := id, name := slug, status := .active, scopeType := "global", scopeId := none,
    departments := [], slug := slug, updatedAt := 0 }

theorem tied_skills_paginate :
    PaginatesExactly (fun _ _ => false) {} 1 [listed 1 "a", listed 2 "b"] := by
  have hkeyed : Table.Keyed [listed 1 "a", listed 2 "b"] := by
    unfold Table.Keyed
    decide
  refine (paginatesExactly_iff (fun _ _ => false) {} (le_refl 1) hkeyed (by decide)).mpr ?_
  intro i skill hat hslug
  have hmem := (mem_admittedSkills.mp (List.mem_of_getElem? hat)).1
  simp only [List.mem_cons, List.not_mem_nil, or_false] at hmem
  rcases hmem with rfl | rfl <;> exact absurd hslug (by decide)

/-- A skill whose name has no letter of the slug alphabet gets the empty slug. -/
theorem unnamed_skill_repeats : ¬ PaginatesExactly (fun _ _ => false) {} 1 [listed 1 ""] := by
  rintro ⟨pages, hpages, -⟩
  have hkeyed : Table.Keyed [listed 1 ""] := by
    unfold Table.Keyed
    decide
  have hat : (admittedSkills (fun _ _ => false) {} [listed 1 ""])[0]? = some (listed 1 "") := rfl
  exact not_pages hkeyed (by decide) (le_refl 1) hat rfl (.inl (by decide)) hpages
    (stands_start hkeyed (.inl rfl)) (le_refl 0) (Nat.dvd_zero 1)

end Cygnus.Access
