import Cygnus.Data.Text
import Mathlib.Algebra.Order.Ring.Nat
import Mathlib.Data.List.Basic
import Mathlib.Order.Lattice

/-! Stretches of a list between two places, and stretches that follow one another without a gap. -/

namespace Cygnus.Spans

variable {α : Type*}

/-- What stands from place `first` up to place `last`. -/
def stretch (xs : List α) (first last : Nat) : List α := (xs.drop first).take (last - first)

theorem length_stretch {xs : List α} {first last : Nat} (hle : first ≤ last)
    (hlast : last ≤ xs.length) : (stretch xs first last).length = last - first := by
  rw [stretch, List.length_take, List.length_drop]
  omega

theorem length_stretch_le (xs : List α) (first last : Nat) :
    (stretch xs first last).length ≤ last - first :=
  List.length_take_le _ _

theorem stretch_append {xs : List α} {first middle last : Nat} (h : first ≤ middle)
    (h' : middle ≤ last) : stretch xs first middle ++ stretch xs middle last =
      stretch xs first last := by
  have hdrop : xs.drop middle = (xs.drop first).drop (middle - first) := by
    rw [List.drop_drop, Nat.add_sub_cancel' h]
  have hsum : last - first = (middle - first) + (last - middle) := by omega
  rw [stretch, stretch, stretch, hdrop, hsum, List.take_add]

@[simp] theorem stretch_self (xs : List α) (place : Nat) : stretch xs place place = [] := by
  rw [stretch, Nat.sub_self, List.take_zero]

theorem stretch_whole (xs : List α) : stretch xs 0 xs.length = xs := by
  rw [stretch, List.drop_zero, Nat.sub_zero, List.take_length]

open Text in
theorem toList_slice (text : String) (first last : Nat) :
    (slice text first last).toList = stretch text.toList first last := by
  have hnat : ∀ i : Nat, sliceIndex text.length (i : Int) = min i text.length := by
    intro i
    rw [sliceIndex, if_neg (Int.not_lt.mpr (Int.natCast_nonneg i)), Int.toNat_natCast]
  have hlength := String.length_toList (s := text)
  rw [slice, String.toList_ofList, hnat, hnat, stretch]
  by_cases hfirst : first ≤ text.length
  · rw [Nat.min_eq_left hfirst]
    by_cases hlast : last ≤ text.length
    · rw [Nat.min_eq_left hlast]
    · rw [List.take_of_length_le (by rw [List.length_drop]; omega),
        List.take_of_length_le (by rw [List.length_drop]; omega)]
  · rw [List.drop_of_length_le (by omega), List.drop_of_length_le (by omega), List.take_nil,
      List.take_nil]

abbrev Span := Nat × Nat

/-- The spans lead from `first` to `last`, each starting where the one before it ends. -/
def Tiles (first last : Nat) : List Span → Prop
  | [] => first = last
  | span :: rest => span.1 = first ∧ first ≤ span.2 ∧ Tiles span.2 last rest

theorem Tiles.le {first last : Nat} {spans : List Span} (h : Tiles first last spans) :
    first ≤ last := by
  induction spans generalizing first with
  | nil => exact Nat.le_of_eq h
  | cons span rest ih => exact h.2.1.trans (ih h.2.2)

theorem Tiles.start_le {first last : Nat} {spans : List Span} {span : Span}
    (h : Tiles first last spans) (hmem : span ∈ spans) : span.1 ≤ span.2 := by
  induction spans generalizing first with
  | nil => cases hmem
  | cons other rest ih =>
    obtain ⟨rfl, hle, hrest⟩ := h
    rcases List.mem_cons.mp hmem with rfl | hlater
    · exact hle
    · exact ih hrest hlater

theorem Tiles.stop_le {first last : Nat} {spans : List Span} {span : Span}
    (h : Tiles first last spans) (hmem : span ∈ spans) : span.2 ≤ last := by
  induction spans generalizing first with
  | nil => cases hmem
  | cons other rest ih =>
    rcases List.mem_cons.mp hmem with rfl | hlater
    · exact h.2.2.le
    · exact ih h.2.2 hlater

theorem Tiles.first_le {first last : Nat} {spans : List Span} {span : Span}
    (h : Tiles first last spans) (hmem : span ∈ spans) : first ≤ span.1 := by
  induction spans generalizing first with
  | nil => cases hmem
  | cons other rest ih =>
    obtain ⟨rfl, hle, hrest⟩ := h
    rcases List.mem_cons.mp hmem with rfl | hlater
    · exact Nat.le_refl _
    · exact hle.trans (ih hrest hlater)

theorem Tiles.apart {first last : Nat} {spans : List Span} (h : Tiles first last spans) :
    spans.Pairwise fun span other => span.2 ≤ other.1 := by
  induction spans generalizing first with
  | nil => exact .nil
  | cons span rest ih =>
    exact List.pairwise_cons.mpr ⟨fun _ hother => h.2.2.first_le hother, ih h.2.2⟩

theorem Tiles.flatMap_stretch {xs : List α} {first last : Nat} {spans : List Span}
    (h : Tiles first last spans) :
    (spans.flatMap fun span => stretch xs span.1 span.2) = stretch xs first last := by
  induction spans generalizing first with
  | nil =>
    obtain rfl : first = last := h
    rw [List.flatMap_nil, stretch_self]
  | cons span rest ih =>
    obtain ⟨rfl, hle, hrest⟩ := h
    rw [List.flatMap_cons, ih hrest, stretch_append hle hrest.le]

/-- A place inside is in one of the spans. -/
theorem Tiles.covers {first last place : Nat} {spans : List Span} (h : Tiles first last spans)
    (hfirst : first ≤ place) (hlast : place < last) :
    ∃ span ∈ spans, span.1 ≤ place ∧ place < span.2 := by
  induction spans generalizing first with
  | nil =>
    obtain rfl : first = last := h
    exact absurd hlast (Nat.not_lt.mpr hfirst)
  | cons span rest ih =>
    obtain ⟨rfl, -, hrest⟩ := h
    by_cases hplace : place < span.2
    · exact ⟨span, List.mem_cons_self, hfirst, hplace⟩
    · obtain ⟨other, hother, hin⟩ := ih hrest (Nat.le_of_not_lt hplace)
      exact ⟨other, List.mem_cons_of_mem _ hother, hin⟩

theorem tiles_concat {first last : Nat} {spans : List Span} {span : Span} :
    Tiles first last (spans ++ [span]) ↔ Tiles first span.1 spans ∧ span.1 ≤ span.2 ∧ span.2 = last := by
  induction spans generalizing first with
  | nil =>
    change (span.1 = first ∧ first ≤ span.2 ∧ span.2 = last) ↔
      (first = span.1 ∧ span.1 ≤ span.2 ∧ span.2 = last)
    constructor <;> rintro ⟨rfl, hle, hlast⟩ <;> exact ⟨rfl, hle, hlast⟩
  | cons other rest ih =>
    rw [List.cons_append, Tiles, Tiles, ih, and_assoc, and_assoc]

/-- Spans in their order leave no place out exactly when each starts where the one before it ends. -/
theorem tiles_iff_covers {first last : Nat} {spans : List Span} (hle : first ≤ last)
    (hproper : ∀ span ∈ spans, span.1 < span.2)
    (hapart : spans.Pairwise fun span other => span.2 ≤ other.1)
    (hinside : ∀ span ∈ spans, first ≤ span.1 ∧ span.2 ≤ last) :
    Tiles first last spans ↔
      ∀ place, first ≤ place → place < last → ∃ span ∈ spans, span.1 ≤ place ∧ place < span.2 := by
  refine ⟨fun h place hfirst hlast => h.covers hfirst hlast, fun hcovers => ?_⟩
  induction spans generalizing first with
  | nil =>
    refine Nat.le_antisymm hle (Nat.not_lt.mp fun hlt => ?_)
    obtain ⟨span, hspan, -⟩ := hcovers first le_rfl hlt
    cases hspan
  | cons span rest ih =>
    rw [List.pairwise_cons] at hapart
    have hspan := hinside span List.mem_cons_self
    have hlt := hproper span List.mem_cons_self
    have hstart : span.1 = first := by
      obtain ⟨other, hother, hplace, -⟩ := hcovers first le_rfl (by omega)
      rcases List.mem_cons.mp hother with rfl | hlater
      · exact Nat.le_antisymm hplace hspan.1
      · have := hapart.1 other hlater
        omega
    refine ⟨hstart, hstart ▸ hlt.le, ?_⟩
    refine ih hspan.2 (fun other hother => hproper other (List.mem_cons_of_mem _ hother)) hapart.2
      (fun other hother => ⟨hapart.1 other hother, (hinside other (List.mem_cons_of_mem _ hother)).2⟩) ?_
    intro place hplace hlast
    obtain ⟨other, hother, hin⟩ := hcovers place (by omega) hlast
    rcases List.mem_cons.mp hother with rfl | hlater
    · exact absurd hin.2 (Nat.not_lt.mpr hplace)
    · exact ⟨other, hlater, hin⟩

/-- The span before a later one ends where that one starts or earlier. -/
theorem Tiles.sum_lengths {first last : Nat} {before after : List Span} {span : Span}
    (h : Tiles first last (before ++ span :: after)) :
    first + (before.map fun earlier => earlier.2 - earlier.1).sum = span.1 := by
  induction before generalizing first with
  | nil => exact h.1.symm
  | cons earlier before ih =>
    obtain ⟨rfl, hle, hrest⟩ := h
    have := ih hrest
    rw [List.map_cons, List.sum_cons]
    omega

section Between

/-- The spans from each place to the next one, the last one ending at `last`. -/
def between (last : Nat) : List Nat → List Span
  | [] => []
  | place :: rest => (place, rest.headD last) :: between last rest

theorem tiles_between {last : Nat} {place : Nat} {rest : List Nat}
    (hsorted : (place :: rest).Pairwise (· < ·)) (hlast : ∀ other ∈ place :: rest, other ≤ last) :
    Tiles place last (between last (place :: rest)) := by
  induction rest generalizing place with
  | nil => exact ⟨rfl, hlast place List.mem_cons_self, rfl⟩
  | cons next rest ih =>
    rw [List.pairwise_cons] at hsorted
    refine ⟨rfl, Nat.le_of_lt (hsorted.1 next List.mem_cons_self), ?_⟩
    exact ih hsorted.2 fun other hother => hlast other (List.mem_cons_of_mem _ hother)

theorem lt_of_mem_between {last : Nat} {places : List Nat} {span : Span}
    (hsorted : places.Pairwise (· < ·)) (hlast : ∀ place ∈ places, place < last)
    (h : span ∈ between last places) : span.1 < span.2 := by
  induction places with
  | nil => cases h
  | cons place rest ih =>
    rw [List.pairwise_cons] at hsorted
    rcases List.mem_cons.mp h with rfl | hlater
    · cases rest with
      | nil => exact hlast place List.mem_cons_self
      | cons next rest => exact hsorted.1 next List.mem_cons_self
    · exact ih hsorted.2 (fun other hother => hlast other (List.mem_cons_of_mem _ hother)) hlater

end Between

section Search

variable [DecidableEq α]

/-- `str.rfind`: the last place, from `first` on, where `sub` stands and ends by `last`. -/
def rfind (sub xs : List α) (first last : Nat) : Option Nat :=
  (List.range (last + 1)).reverse.find? fun place =>
    first ≤ place ∧ place + sub.length ≤ last ∧ stretch xs place (place + sub.length) = sub

/-- `str.find`, for a nonempty `sub`: the first place, from `first` on, where `sub` stands. -/
def find (sub xs : List α) (first : Nat) : Option Nat :=
  (List.range' first (xs.length - first)).find? fun place =>
    stretch xs place (place + sub.length) = sub

theorem rfind_some {sub xs : List α} {first last place : Nat}
    (h : rfind sub xs first last = some place) :
    first ≤ place ∧ place + sub.length ≤ last ∧ stretch xs place (place + sub.length) = sub := by
  simpa using List.find?_some h

end Search

end Cygnus.Spans
