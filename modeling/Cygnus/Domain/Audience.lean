import Cygnus.Data.Text

namespace Cygnus.Domain

open Text Result

inductive Visibility
  | internal
  | external
  deriving DecidableEq

def Visibility.value : Visibility → String
  | .internal => "internal"
  | .external => "external"

/-- A string that a record constructor accepts as "not blank"; it need not be stripped. -/
abbrev NonBlank := { s : String // strip s ≠ "" }

/-- The values one audience dimension allows, as `_normalize_many` leaves them. -/
structure Dimension where
  values : List String
  nodup : values.Nodup
  stripped : ∀ v ∈ values, Stripped v
  deriving DecidableEq

def Dimension.any : Dimension := ⟨[], .nil, by simp⟩

/-- Errors are the message of the `ValueError` raised. -/
def normalizeMany (values : List String) : Except String Dimension :=
  match h : normalizeStrings "audience dimension values must not be empty" values with
  | .ok out => .ok ⟨out, normalizeStrings_nodup h, normalizeStrings_stripped h⟩
  | .error e => .error e

inductive AudienceDimension
  | brand
  | productLine
  | plan
  | region
  | language
  | productVersion
  deriving DecidableEq

def AudienceDimension.all : List AudienceDimension :=
  [.brand, .productLine, .plan, .region, .language, .productVersion]

@[simp] theorem AudienceDimension.mem_all (d : AudienceDimension) : d ∈ all := by
  cases d <;> decide

structure AudienceContext where
  visibility : Visibility
  brand : Option NonBlank := none
  productLine : Option NonBlank := none
  plan : Option NonBlank := none
  region : Option NonBlank := none
  language : Option NonBlank := none
  productVersion : Option NonBlank := none
  deriving DecidableEq

def AudienceContext.value (c : AudienceContext) : AudienceDimension → Option NonBlank
  | .brand => c.brand
  | .productLine => c.productLine
  | .plan => c.plan
  | .region => c.region
  | .language => c.language
  | .productVersion => c.productVersion

def AudienceContext.ofValues (visibility : Visibility)
    (value : AudienceDimension → Option NonBlank) : AudienceContext where
  visibility := visibility
  brand := value .brand
  productLine := value .productLine
  plan := value .plan
  region := value .region
  language := value .language
  productVersion := value .productVersion

@[simp] theorem AudienceContext.value_ofValues (visibility : Visibility)
    (value : AudienceDimension → Option NonBlank) (d : AudienceDimension) :
    (ofValues visibility value).value d = value d := by
  cases d <;> rfl

structure AudienceFilter where
  visibility : Visibility
  brands : Dimension := .any
  productLines : Dimension := .any
  plans : Dimension := .any
  regions : Dimension := .any
  languages : Dimension := .any
  productVersions : Dimension := .any
  deriving DecidableEq

def AudienceFilter.dimension (f : AudienceFilter) : AudienceDimension → Dimension
  | .brand => f.brands
  | .productLine => f.productLines
  | .plan => f.plans
  | .region => f.regions
  | .language => f.languages
  | .productVersion => f.productVersions

/-- The constructor: every dimension is normalised before the filter exists. -/
def AudienceFilter.make (visibility : Visibility)
    (brands productLines plans regions languages productVersions : List String) :
    Except String AudienceFilter := do
  return {
    visibility
    brands := ← normalizeMany brands
    productLines := ← normalizeMany productLines
    plans := ← normalizeMany plans
    regions := ← normalizeMany regions
    languages := ← normalizeMany languages
    productVersions := ← normalizeMany productVersions }

def AudienceFilter.isGlobal (f : AudienceFilter) : Bool :=
  AudienceDimension.all.all fun d => (f.dimension d).values.isEmpty

def Dimension.admits (allowed : Dimension) : Option NonBlank → Bool
  | none => allowed.values.isEmpty
  | some v => allowed.values.isEmpty || v.1 ∈ allowed.values

/-- `matches` in the source. -/
def AudienceFilter.matchesContext (f : AudienceFilter) (c : AudienceContext) : Bool :=
  c.visibility == f.visibility &&
    AudienceDimension.all.all fun d => (f.dimension d).admits (c.value d)

theorem AudienceFilter.matchesContext_iff (f : AudienceFilter) (c : AudienceContext) :
    f.matchesContext c = true ↔
      c.visibility = f.visibility ∧ ∀ d, (f.dimension d).admits (c.value d) = true := by
  simp [matchesContext]

def Dimension.overlaps (left right : Dimension) : Bool :=
  left.values.isEmpty || right.values.isEmpty || left.values.any (· ∈ right.values)

def audienceFiltersOverlap (left right : AudienceFilter) : Bool :=
  left.visibility == right.visibility &&
    AudienceDimension.all.all fun d => (left.dimension d).overlaps (right.dimension d)

def Dimension.first (dim : Dimension) : Option NonBlank :=
  match dim with
  | ⟨[], _, _⟩ => none
  | ⟨v :: _, _, h⟩ => some ⟨v, by
      have hv := h v List.mem_cons_self
      rw [hv.1]
      exact hv.2⟩

theorem Dimension.admits_first (dim : Dimension) : dim.admits dim.first = true := by
  obtain ⟨values, _, _⟩ := dim
  cases values <;> simp [first, admits]

theorem Dimension.admits_of_isEmpty {dim : Dimension} (h : dim.values = []) (v : Option NonBlank) :
    dim.admits v = true := by
  cases v <;> simp [admits, h]

theorem Dimension.overlaps_iff (left right : Dimension) :
    left.overlaps right = true ↔ ∃ v, left.admits v = true ∧ right.admits v = true := by
  constructor
  · intro h
    simp only [overlaps, Bool.or_eq_true, List.isEmpty_iff, List.any_eq_true,
      decide_eq_true_eq] at h
    obtain (hl | hr) | ⟨v, hl, hr⟩ := h
    · exact ⟨right.first, admits_of_isEmpty hl _, right.admits_first⟩
    · exact ⟨left.first, left.admits_first, admits_of_isEmpty hr _⟩
    · have hv := left.stripped v hl
      exact ⟨some ⟨v, by rw [hv.1]; exact hv.2⟩, by simp [admits, hl], by simp [admits, hr]⟩
  · rintro ⟨v, hl, hr⟩
    cases v with
    | none =>
      simp only [admits, List.isEmpty_iff] at hl
      simp [overlaps, hl]
    | some v =>
      simp only [admits, Bool.or_eq_true, List.isEmpty_iff, decide_eq_true_eq] at hl hr
      simp only [overlaps, Bool.or_eq_true, List.isEmpty_iff, List.any_eq_true, decide_eq_true_eq]
      rcases hl with hl | hl
      · exact .inl (.inl hl)
      · rcases hr with hr | hr
        · exact .inl (.inr hr)
        · exact .inr ⟨v, hl, hr⟩

theorem exists_context_of_overlap {left right : AudienceFilter}
    (h : audienceFiltersOverlap left right = true) :
    ∃ c, left.matchesContext c = true ∧ right.matchesContext c = true := by
  simp only [audienceFiltersOverlap, Bool.and_eq_true, beq_iff_eq, List.all_eq_true,
    AudienceDimension.mem_all, forall_const, Dimension.overlaps_iff] at h
  obtain ⟨hvis, hdims⟩ := h
  choose value hl hr using hdims
  refine ⟨.ofValues left.visibility value, ?_, ?_⟩
  · rw [AudienceFilter.matchesContext_iff]
    exact ⟨rfl, fun d => by simpa using hl d⟩
  · rw [AudienceFilter.matchesContext_iff]
    exact ⟨hvis, fun d => by simpa using hr d⟩

theorem overlap_of_context {left right : AudienceFilter} {c : AudienceContext}
    (hl : left.matchesContext c = true) (hr : right.matchesContext c = true) :
    audienceFiltersOverlap left right = true := by
  rw [AudienceFilter.matchesContext_iff] at hl hr
  simp only [audienceFiltersOverlap, Bool.and_eq_true, beq_iff_eq, List.all_eq_true,
    AudienceDimension.mem_all, forall_const, Dimension.overlaps_iff]
  exact ⟨hl.1.symm.trans hr.1, fun d => ⟨c.value d, hl.2 d, hr.2 d⟩⟩

/-- Two filters overlap exactly when some reader is inside both. -/
theorem overlap_iff_exists_context (left right : AudienceFilter) :
    audienceFiltersOverlap left right = true ↔
      ∃ c, left.matchesContext c = true ∧ right.matchesContext c = true := by
  constructor
  · exact exists_context_of_overlap
  · rintro ⟨c, hl, hr⟩
    exact overlap_of_context hl hr

end Cygnus.Domain
