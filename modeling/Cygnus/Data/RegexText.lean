import Cygnus.Data.Regex
import Mathlib.Algebra.Order.Ring.Int
import Mathlib.Logic.Relation

/-! What a match of a regular expression is, whatever way the matcher finds it, and texts cut into
the pieces that a substitution keeps and those that it replaces. -/

namespace Cygnus.Regex

section Semantics

variable {α : Type}

/-- `r` leads from one scan to another. -/
def Matches : Re → Scan → Scan → Prop
  | .empty, s, s' => s' = s
  | .char p, s, s' => ∃ c rest, s.rest = c :: rest ∧ p c = true ∧
      s' = { s with passed := c :: s.passed, rest := rest }
  | .lineStart, s, s' => s' = s ∧ ∀ c ∈ s.passed.head?, c = '\n'
  | .lineEnd, s, s' => s' = s ∧ ∀ c ∈ s.rest.head?, c = '\n'
  | .seq r r', s, s'' => ∃ s', Matches r s s' ∧ Matches r' s' s''
  | .alt r r', s, s' => Matches r s s' ∨ Matches r' s s'
  | .star _ r, s, s' => Relation.ReflTransGen (Matches r) s s'
  | .group n r, s, s'' => ∃ s', Matches r s s' ∧ s'' = { s' with
      groups := (n, s.rest.take (s.rest.length - s'.rest.length)) :: s'.groups }

theorem rounds_matches {r : Re} {body : (Scan → Option α) → Scan → Option α} {greedy : Bool} {a : α}
    (hbody : ∀ {k s}, body k s = some a → ∃ s', Matches r s s' ∧ k s' = some a)
    {k : Scan → Option α} {n : Nat} {s : Scan} (h : Re.rounds body greedy k n s = some a) :
    ∃ s', Relation.ReflTransGen (Matches r) s s' ∧ k s' = some a := by
  induction n generalizing s with
  | zero => exact ⟨s, .refl, h⟩
  | succ n ih =>
    have hagain : body (fun s' =>
        if s'.rest.length < s.rest.length then Re.rounds body greedy k n s' else none) s = some a →
        ∃ s', Relation.ReflTransGen (Matches r) s s' ∧ k s' = some a := by
      intro hagain
      obtain ⟨s', hmatches, hk⟩ := hbody hagain
      split at hk
      · obtain ⟨s'', hrest, hk'⟩ := ih hk
        exact ⟨s'', .head hmatches hrest, hk'⟩
      · cases hk
    rw [Re.rounds] at h
    dsimp only at h
    split at h
    · rcases orElse_some h with hleft | hright
      · exact hagain hleft
      · exact ⟨s, .refl, hright⟩
    · rcases orElse_some h with hleft | hright
      · exact ⟨s, .refl, hleft⟩
      · exact hagain hright

/-- The matcher goes on from a place that the expression leads to. -/
theorem run_matches (r : Re) {k : Scan → Option α} {s : Scan} {a : α} (h : r.run k s = some a) :
    ∃ s', Matches r s s' ∧ k s' = some a := by
  induction r generalizing k s with
  | empty => exact ⟨s, rfl, h⟩
  | char p =>
    rw [Re.run] at h
    split at h
    · cases h
    · rename_i c rest hrest
      split at h
      · rename_i hp
        exact ⟨_, ⟨c, rest, hrest, hp, rfl⟩, h⟩
      · cases h
  | lineStart =>
    rw [Re.run] at h
    split at h
    · rename_i hpassed
      exact ⟨s, ⟨rfl, by simp [hpassed]⟩, h⟩
    · rename_i c passed hpassed
      split at h
      · rename_i hc
        exact ⟨s, ⟨rfl, by simp [hpassed, hc]⟩, h⟩
      · cases h
  | lineEnd =>
    rw [Re.run] at h
    split at h
    · rename_i hrest
      exact ⟨s, ⟨rfl, by simp [hrest]⟩, h⟩
    · rename_i c rest hrest
      split at h
      · rename_i hc
        exact ⟨s, ⟨rfl, by simp [hrest, hc]⟩, h⟩
      · cases h
  | seq r r' ih ih' =>
    obtain ⟨s', hfirst, hrest⟩ := ih h
    obtain ⟨s'', hsecond, hk⟩ := ih' hrest
    exact ⟨s'', ⟨s', hfirst, hsecond⟩, hk⟩
  | alt r r' ih ih' =>
    rcases orElse_some h with hleft | hright
    · obtain ⟨s', hmatches, hk⟩ := ih hleft
      exact ⟨s', .inl hmatches, hk⟩
    · obtain ⟨s', hmatches, hk⟩ := ih' hright
      exact ⟨s', .inr hmatches, hk⟩
  | star greedy r ih => exact rounds_matches ih h
  | group n r ih =>
    obtain ⟨s', hmatches, hk⟩ := ih h
    exact ⟨_, ⟨s', hmatches, rfl⟩, hk⟩

theorem Matches.advances {r : Re} {s s' : Scan} (h : Matches r s s') :
    s'.rest.length + r.minLength ≤ s.rest.length := by
  induction r generalizing s s' with
  | empty =>
    obtain rfl := h
    exact Nat.le_refl _
  | char p =>
    obtain ⟨c, rest, hrest, -, rfl⟩ := h
    rw [hrest]
    exact Nat.le_refl _
  | lineStart =>
    obtain ⟨rfl, -⟩ := h
    exact Nat.le_refl _
  | lineEnd =>
    obtain ⟨rfl, -⟩ := h
    exact Nat.le_refl _
  | seq r r' ih ih' =>
    obtain ⟨middle, hfirst, hsecond⟩ := h
    have := ih hfirst
    have := ih' hsecond
    simp only [Re.minLength]
    omega
  | alt r r' ih ih' =>
    simp only [Re.minLength]
    rcases h with hleft | hright
    · have := ih hleft
      omega
    · have := ih' hright
      omega
  | star greedy r ih =>
    simp only [Re.minLength, Nat.add_zero]
    induction h with
    | refl => exact Nat.le_refl _
    | tail _ hlast ih' =>
      have := ih hlast
      omega
  | group n r ih =>
    obtain ⟨middle, hmatches, rfl⟩ := h
    exact (ih hmatches : middle.rest.length + r.minLength ≤ s.rest.length)

/-- Every round of a repetition consumes something. -/
def Re.productive : Re → Bool
  | .seq r r' => r.productive && r'.productive
  | .alt r r' => r.productive && r'.productive
  | .star _ r => 1 ≤ r.minLength && r.productive
  | .group _ r => r.productive
  | _ => true

theorem isSome_orElse (x : Option α) (y : Unit → Option α) :
    (x.orElse y).isSome = (x.isSome || (y ()).isSome) := by
  cases x <;> rfl

theorem rounds_isSome {r : Re} {body : (Scan → Option α) → Scan → Option α} {greedy : Bool}
    (hr : 1 ≤ r.minLength)
    (hbody : ∀ {k s s'}, Matches r s s' → (k s').isSome → (body k s).isSome)
    {k : Scan → Option α} {n : Nat} {s s' : Scan} (hn : s.rest.length ≤ n)
    (h : Relation.ReflTransGen (Matches r) s s') (hk : (k s').isSome) :
    (Re.rounds body greedy k n s).isSome := by
  induction n generalizing s with
  | zero =>
    rcases Relation.ReflTransGen.cases_head h with rfl | ⟨next, hnext, -⟩
    · exact hk
    · have := hnext.advances
      omega
  | succ n ih =>
    have hsome : (body (fun s' =>
        if s'.rest.length < s.rest.length then Re.rounds body greedy k n s' else none) s).isSome ∨
        (k s).isSome := by
      rcases Relation.ReflTransGen.cases_head h with rfl | ⟨next, hnext, hrest⟩
      · exact .inr hk
      · have hshorter := hnext.advances
        refine .inl (hbody hnext ?_)
        rw [if_pos (by omega)]
        exact ih (by omega) hrest
    rw [Re.rounds]
    dsimp only
    split
    · rw [isSome_orElse, Bool.or_eq_true]
      exact hsome
    · rw [isSome_orElse, Bool.or_eq_true]
      exact hsome.symm

/-- The matcher finds a way when there is one to a place from where it can go on. -/
theorem run_isSome (r : Re) (hr : r.productive) {k : Scan → Option α} {s s' : Scan}
    (h : Matches r s s') (hk : (k s').isSome) : (r.run k s).isSome := by
  induction r generalizing k s s' with
  | empty =>
    obtain rfl := h
    exact hk
  | char p =>
    obtain ⟨c, rest, hrest, hp, rfl⟩ := h
    rw [Re.run, hrest]
    simpa [hp] using hk
  | lineStart =>
    obtain ⟨rfl, hline⟩ := h
    rw [Re.run]
    split
    · exact hk
    · rename_i c passed hpassed
      rw [if_pos (hline c (by simp [hpassed]))]
      exact hk
  | lineEnd =>
    obtain ⟨rfl, hline⟩ := h
    rw [Re.run]
    split
    · exact hk
    · rename_i c rest hrest
      rw [if_pos (hline c (by simp [hrest]))]
      exact hk
  | seq r r' ih ih' =>
    rw [Re.productive, Bool.and_eq_true] at hr
    obtain ⟨middle, hfirst, hsecond⟩ := h
    exact ih hr.1 hfirst (ih' hr.2 hsecond hk)
  | alt r r' ih ih' =>
    rw [Re.productive, Bool.and_eq_true] at hr
    rw [Re.run, isSome_orElse, Bool.or_eq_true]
    exact h.imp (fun hleft => ih hr.1 hleft hk) (fun hright => ih' hr.2 hright hk)
  | star greedy r ih =>
    rw [Re.productive, Bool.and_eq_true, decide_eq_true_iff] at hr
    exact rounds_isSome hr.1 (ih hr.2) (Nat.le_refl _) h hk
  | group n r ih =>
    obtain ⟨middle, hmatches, rfl⟩ := h
    exact ih hr hmatches hk

end Semantics

section Reading

variable {p : Char → Bool} {s s' s'' : Scan} {taken : List Char}

/-- The scan passes over `taken` and captures nothing. -/
structure Reads (taken : List Char) (s s' : Scan) : Prop where
  rest : s.rest = taken ++ s'.rest
  passed : s'.passed = taken.reverse ++ s.passed
  groups : s'.groups = s.groups

theorem Reads.refl (s : Scan) : Reads [] s s := ⟨rfl, rfl, rfl⟩

theorem Reads.trans {more : List Char} (h : Reads taken s s') (h' : Reads more s' s'') :
    Reads (taken ++ more) s s'' where
  rest := by rw [h.rest, h'.rest, List.append_assoc]
  passed := by rw [h'.passed, h.passed, List.reverse_append, List.append_assoc]
  groups := h'.groups.trans h.groups

theorem Reads.exists_of_rest {after : List Char} (h : s.rest = taken ++ after) :
    ∃ s', Reads taken s s' ∧ s'.rest = after :=
  ⟨⟨taken.reverse ++ s.passed, after, s.groups⟩, ⟨h, rfl, rfl⟩, rfl⟩

theorem Reads.take (h : Reads taken s s') :
    s.rest.take (s.rest.length - s'.rest.length) = taken := by
  rw [h.rest, List.length_append, Nat.add_sub_cancel, List.take_left']
  rfl

theorem matches_char (h : Matches (.char p) s s') : ∃ c, p c = true ∧ Reads [c] s s' := by
  obtain ⟨c, rest, hrest, hp, rfl⟩ := h
  exact ⟨c, hp, hrest, rfl, rfl⟩

theorem matches_star {greedy : Bool} (h : Matches (.star greedy (.char p)) s s') :
    ∃ taken, (∀ c ∈ taken, p c = true) ∧ Reads taken s s' := by
  change Relation.ReflTransGen _ s s' at h
  induction h using Relation.ReflTransGen.head_induction_on with
  | refl => exact ⟨[], by simp, .refl _⟩
  | head hchar _ ih =>
    obtain ⟨c, hc, hfirst⟩ := matches_char hchar
    obtain ⟨taken, htaken, hrest⟩ := ih
    exact ⟨c :: taken, List.forall_mem_cons.mpr ⟨hc, htaken⟩, hfirst.trans hrest⟩

theorem matches_plus {greedy : Bool} (h : Matches (Re.plus greedy (.char p)) s s') :
    ∃ taken, taken ≠ [] ∧ (∀ c ∈ taken, p c = true) ∧ Reads taken s s' := by
  obtain ⟨middle, hchar, hstar⟩ := h
  obtain ⟨c, hc, hfirst⟩ := matches_char hchar
  obtain ⟨taken, htaken, hrest⟩ := matches_star hstar
  exact ⟨c :: taken, List.cons_ne_nil _ _, List.forall_mem_cons.mpr ⟨hc, htaken⟩,
    hfirst.trans hrest⟩

theorem matches_upTo {n : Nat} (h : Matches (Re.upTo n (.char p)) s s') :
    ∃ taken, taken.length ≤ n ∧ (∀ c ∈ taken, p c = true) ∧ Reads taken s s' := by
  induction n generalizing s with
  | zero =>
    obtain rfl : s' = s := h
    exact ⟨[], le_rfl, by simp, .refl _⟩
  | succ n ih =>
    rcases h with ⟨middle, hchar, hmore⟩ | rfl
    · obtain ⟨c, hc, hfirst⟩ := matches_char hchar
      obtain ⟨taken, hlength, htaken, hrest⟩ := ih hmore
      exact ⟨c :: taken, Nat.succ_le_succ hlength, List.forall_mem_cons.mpr ⟨hc, htaken⟩,
        hfirst.trans hrest⟩
    · exact ⟨[], Nat.zero_le _, by simp, .refl _⟩

theorem Reads.char {c : Char} (h : Reads [c] s s') (hc : p c = true) : Matches (.char p) s s' := by
  obtain ⟨passed, rest, groups⟩ := s'
  obtain ⟨hrest, hpassed, hgroups⟩ := h
  exact ⟨c, rest, hrest, hc, by cases hpassed; cases hgroups; rfl⟩

theorem Reads.uncons {c : Char} (h : Reads (c :: taken) s s'') :
    ∃ s', Reads [c] s s' ∧ Reads taken s' s'' := by
  refine ⟨⟨c :: s.passed, taken ++ s''.rest, s.groups⟩, ⟨h.rest, rfl, rfl⟩, ⟨rfl, ?_, h.groups⟩⟩
  rw [h.passed, List.reverse_cons, List.append_assoc]
  rfl

theorem Reads.eq_of_nil (h : Reads [] s s') : s' = s := by
  obtain ⟨passed, rest, groups⟩ := s
  obtain ⟨passed', rest', groups'⟩ := s'
  obtain ⟨hrest, hpassed, hgroups⟩ := h
  cases hrest
  cases hpassed
  cases hgroups
  rfl

theorem Reads.star {greedy : Bool} (h : Reads taken s s') (htaken : ∀ c ∈ taken, p c = true) :
    Matches (.star greedy (.char p)) s s' := by
  induction taken generalizing s with
  | nil =>
    rw [h.eq_of_nil]
    exact .refl
  | cons c taken ih =>
    rw [List.forall_mem_cons] at htaken
    obtain ⟨next, hfirst, hrest⟩ := h.uncons
    exact .head (hfirst.char htaken.1) (ih hrest htaken.2)

theorem Reads.plus {greedy : Bool} (h : Reads taken s s') (hne : taken ≠ [])
    (htaken : ∀ c ∈ taken, p c = true) : Matches (Re.plus greedy (.char p)) s s' := by
  cases taken with
  | nil => exact absurd rfl hne
  | cons c taken =>
    rw [List.forall_mem_cons] at htaken
    obtain ⟨next, hfirst, hrest⟩ := h.uncons
    exact ⟨next, hfirst.char htaken.1, hrest.star htaken.2⟩

/-- The characters of a text, one after the other. -/
def Re.literal (text : List Char) : Re := text.foldr (fun c r => .seq (.char (· = c)) r) .empty

theorem matches_literal {text : List Char} : Matches (Re.literal text) s s' ↔ Reads text s s' := by
  induction text generalizing s with
  | nil =>
    constructor
    · intro h
      obtain rfl : s' = s := h
      exact .refl _
    · exact Reads.eq_of_nil
  | cons c text ih =>
    constructor
    · rintro ⟨next, hfirst, hrest⟩
      obtain ⟨d, hd, hreads⟩ := matches_char hfirst
      obtain rfl := of_decide_eq_true hd
      exact hreads.trans (ih.mp hrest)
    · intro h
      obtain ⟨next, hfirst, hrest⟩ := h.uncons
      exact ⟨next, hfirst.char (decide_eq_true rfl), ih.mpr hrest⟩

/-- Every match of a text starts at some place of it, and is a match of the expression there. -/
theorem mem_finditerFrom {r : Re} {skip : Nat} {passed text : List Char} {found : Re.Match}
    (h : found ∈ r.finditerFrom skip passed text) :
    ∃ before after, text = before ++ after ∧
      r.matchAt ⟨before.reverse ++ passed, after, []⟩ = some found := by
  induction text generalizing skip passed with
  | nil => cases h
  | cons c rest ih =>
    have htail : ∀ {n : Nat}, found ∈ r.finditerFrom n (c :: passed) rest →
        ∃ before after, c :: rest = before ++ after ∧
          r.matchAt ⟨before.reverse ++ passed, after, []⟩ = some found := by
      intro n hmem
      obtain ⟨before, after, rfl, hmatch⟩ := ih hmem
      refine ⟨c :: before, after, rfl, ?_⟩
      rwa [List.reverse_cons, List.append_assoc]
    unfold Re.finditerFrom at h
    split at h
    · exact htail h
    · split at h
      · rename_i first hfirst
        rcases List.mem_cons.mp h with rfl | hmem
        · exact ⟨[], c :: rest, rfl, hfirst⟩
        · exact htail hmem
      · exact htail h

theorem mem_finditer {r : Re} {text : String} {found : Re.Match} (h : found ∈ r.finditer text) :
    ∃ before after last, text.toList = before ++ after ∧
      Matches r ⟨before.reverse, after, []⟩ last ∧
      found = ⟨before.length, last.pos, last.groups⟩ := by
  obtain ⟨before, after, htext, hmatch⟩ := mem_finditerFrom h
  rw [List.append_nil] at hmatch
  obtain ⟨end', hrun, rfl⟩ := Option.map_eq_some_iff.mp hmatch
  obtain ⟨last, hmatches, hlast⟩ := run_matches r hrun
  obtain rfl := Option.some.inj hlast
  exact ⟨before, after, last, htext, hmatches, by simp [Scan.pos]⟩

end Reading

section Order

variable {r : Re}

theorem matchAt_start {s : Scan} {found : Re.Match} (h : r.matchAt s = some found) :
    found.start = s.pos := by
  obtain ⟨last, -, rfl⟩ := Option.map_eq_some_iff.mp h
  rfl

theorem finditerFrom_start {skip : Nat} {passed text : List Char} {found : Re.Match}
    (h : found ∈ r.finditerFrom skip passed text) :
    passed.length + skip ≤ found.start ∧ found.start < passed.length + text.length := by
  induction text generalizing skip passed with
  | nil => cases h
  | cons c rest ih =>
    have htail : ∀ {n : Nat}, found ∈ r.finditerFrom n (c :: passed) rest →
        passed.length + 1 + n ≤ found.start ∧
          found.start < passed.length + (c :: rest).length := by
      intro n hmem
      have := ih hmem
      simp only [List.length_cons] at this ⊢
      omega
    unfold Re.finditerFrom at h
    split at h
    · have := htail h
      omega
    · split at h
      · rename_i first hfirst
        rcases List.mem_cons.mp h with rfl | hmem
        · rw [matchAt_start hfirst, List.length_cons]
          exact ⟨Nat.le_refl _, Nat.lt_add_of_pos_right (Nat.succ_pos _)⟩
        · have := htail hmem
          omega
      · have := htail h
        omega

theorem finditerFrom_sorted (skip : Nat) (passed text : List Char) :
    (r.finditerFrom skip passed text).Pairwise fun first second => first.start < second.start := by
  induction text generalizing skip passed with
  | nil => exact .nil
  | cons c rest ih =>
    unfold Re.finditerFrom
    split
    · exact ih _ _
    · split
      · rename_i first hfirst
        refine List.pairwise_cons.mpr ⟨?_, ih _ _⟩
        intro second hsecond
        have hafter := (finditerFrom_start hsecond).1
        rw [List.length_cons] at hafter
        rw [matchAt_start hfirst]
        exact Nat.lt_of_lt_of_le (Nat.lt_succ_self _) ((Nat.le_add_right _ _).trans hafter)
      · exact ih _ _

/-- The matches are found from left to right. -/
theorem finditer_sorted (r : Re) (text : String) :
    (r.finditer text).Pairwise fun first second => first.start < second.start :=
  finditerFrom_sorted 0 [] text.toList

theorem matchAt_stop {s : Scan} {found : Re.Match} (h : r.matchAt s = some found) :
    found.start + r.minLength ≤ found.stop ∧ found.stop ≤ s.pos + s.rest.length := by
  obtain ⟨last, hrun, rfl⟩ := Option.map_eq_some_iff.mp h
  obtain ⟨s', ⟨taken, hrest, hpassed, hlength⟩, hlast⟩ := run_reaches r hrun
  obtain rfl := Option.some.inj hlast
  simp only [Scan.pos, hpassed, hrest, List.length_append, List.length_reverse]
  omega

theorem finditerFrom_apart (hr : 1 ≤ r.minLength) (skip : Nat) (passed text : List Char) :
    (r.finditerFrom skip passed text).Pairwise fun first second => first.stop ≤ second.start := by
  induction text generalizing skip passed with
  | nil => exact .nil
  | cons c rest ih =>
    unfold Re.finditerFrom
    split
    · exact ih _ _
    · split
      · rename_i first hfirst
        refine List.pairwise_cons.mpr ⟨?_, ih _ _⟩
        intro second hsecond
        have hafter := (finditerFrom_start hsecond).1
        have hstart : first.start = passed.length := matchAt_start hfirst
        have hstop := (matchAt_stop hfirst).1
        rw [List.length_cons] at hafter
        omega
      · exact ih _ _

/-- No two matches overlap. -/
theorem finditer_apart (hr : 1 ≤ r.minLength) (text : String) :
    (r.finditer text).Pairwise fun first second => first.stop ≤ second.start :=
  finditerFrom_apart hr 0 [] text.toList

theorem finditer_inside (hr : 1 ≤ r.minLength) {text : String} {found : Re.Match}
    (h : found ∈ r.finditer text) : found.start < found.stop ∧ found.stop ≤ text.length := by
  obtain ⟨before, after, htext, hmatch⟩ := mem_finditerFrom h
  have hlength := congrArg List.length htext
  have hstop := matchAt_stop hmatch
  rw [String.length_toList, List.length_append] at hlength
  simp only [Scan.pos, List.append_nil, List.length_reverse] at hstop
  exact ⟨by omega, by omega⟩

theorem finditer_start_lt {text : String} {found : Re.Match} (h : found ∈ r.finditer text) :
    found.start < text.toList.length := by
  have := (finditerFrom_start h).2
  rwa [List.length_nil, Nat.zero_add] at this

end Order

section Pieces

/-- A piece of a text that a substitution copies, or one that it replaces. -/
inductive Piece
  | kept (c : Char)
  | found (old new : List Char)

namespace Piece

def before : Piece → List Char
  | kept c => [c]
  | found old _ => old

def after : Piece → List Char
  | kept c => [c]
  | found _ new => new

def isKept : Piece → Bool
  | kept _ => true
  | found _ _ => false

/-- How much longer a replacement is than what it replaces. -/
def shift (piece : Piece) : Int := (piece.after.length : Int) - piece.before.length

theorem before_eq_after {piece : Piece} (h : piece.isKept = true) :
    piece.before = piece.after ∧ piece.before.length = 1 := by
  cases piece with
  | kept c => exact ⟨rfl, rfl⟩
  | found old new => cases h

end Piece

def textBefore (pieces : List Piece) : List Char := pieces.flatMap Piece.before

def textAfter (pieces : List Piece) : List Char := pieces.flatMap Piece.after

def shift (pieces : List Piece) : Int := (pieces.map Piece.shift).sum

/-- The pieces that end at or before a place of the text. -/
def inFront : List Piece → Nat → List Piece
  | [], _ => []
  | piece :: pieces, place =>
    if piece.before.length ≤ place then piece :: inFront pieces (place - piece.before.length)
    else []

/-- Where what stands at a place of the text stands after the substitution; a place inside of a
replaced piece moves with its beginning. -/
def moved (pieces : List Piece) (place : Nat) : Nat := (textAfter (inFront pieces place)).length

/-- The place is between two pieces, and what is put in front of it is as long as what was there. -/
def Unmoved (pieces : List Piece) (place : Nat) : Prop :=
  (textBefore (inFront pieces place)).length = place ∧ shift (inFront pieces place) = 0

/-- The characters from `first` to `last` are copied to where they were. -/
def Untouched (pieces : List Piece) (first last : Nat) : Prop :=
  Unmoved pieces first ∧
    let span := (pieces.drop (inFront pieces first).length).take (last - first)
    span.length = last - first ∧ ∀ piece ∈ span, piece.isKept = true

instance (pieces : List Piece) (place : Nat) : Decidable (Unmoved pieces place) :=
  inferInstanceAs (Decidable (_ ∧ _))

instance (pieces : List Piece) (first last : Nat) : Decidable (Untouched pieces first last) :=
  inferInstanceAs (Decidable (_ ∧ _ ∧ _))

variable {pieces : List Piece} {place first last : Nat}

theorem length_textAfter (pieces : List Piece) :
    ((textAfter pieces).length : Int) = (textBefore pieces).length + shift pieces := by
  induction pieces with
  | nil => rfl
  | cons piece pieces ih =>
    simp only [textAfter, textBefore, List.flatMap_cons, List.length_append, shift, List.map_cons,
      List.sum_cons, Piece.shift] at ih ⊢
    omega

theorem isPrefix_inFront (pieces : List Piece) (place : Nat) : inFront pieces place <+: pieces := by
  induction pieces generalizing place with
  | nil => exact List.prefix_rfl
  | cons piece pieces ih =>
    unfold inFront
    split
    · exact List.cons_prefix_cons.mpr ⟨rfl, ih _⟩
    · exact List.nil_prefix

theorem Unmoved.moved_eq (h : Unmoved pieces place) : moved pieces place = place := by
  have hlength := length_textAfter (inFront pieces place)
  rw [h.1, h.2] at hlength
  unfold moved
  omega

theorem textAfter_of_kept {span : List Piece} (h : ∀ piece ∈ span, piece.isKept = true) :
    textAfter span = textBefore span ∧ (textBefore span).length = span.length := by
  induction span with
  | nil => exact ⟨rfl, rfl⟩
  | cons piece span ih =>
    obtain ⟨hafter, hlength⟩ := ih fun other hother => h other (List.mem_cons_of_mem _ hother)
    obtain ⟨hsame, hone⟩ := Piece.before_eq_after (h piece List.mem_cons_self)
    simp only [textAfter, textBefore, List.flatMap_cons, List.length_append,
      List.length_cons] at hafter hlength ⊢
    rw [hafter, hsame, hlength, ← hsame, hone]
    exact ⟨rfl, Nat.add_comm _ _⟩

/-- An untouched stretch of the text is made of pieces that are copied to where they were. -/
theorem Untouched.split (h : Untouched pieces first last) :
    ∃ front span tail, pieces = front ++ (span ++ tail) ∧ (textBefore front).length = first ∧
      (textAfter front).length = first ∧ textAfter span = textBefore span ∧
      (textBefore span).length = last - first := by
  obtain ⟨hunmoved, hlength, hkept⟩ := h
  have hcut := List.prefix_iff_eq_append.mp (isPrefix_inFront pieces first)
  obtain ⟨hsame, hone⟩ := textAfter_of_kept hkept
  refine ⟨inFront pieces first, _, (pieces.drop (inFront pieces first).length).drop (last - first),
    ?_, hunmoved.1, hunmoved.moved_eq, hsame, hone.trans hlength⟩
  rw [List.take_append_drop, hcut]

end Pieces

section Substitution

/-- The pieces of a text for `re.sub` with an expression that no empty text matches; `skip` more
characters belong to the match found last. -/
def piecesFrom (r : Re) (replacement : Re.Match → List Char) (skip : Nat) (passed : List Char) :
    List Char → List Piece
  | [] => []
  | c :: rest =>
    match skip with
    | skip + 1 => piecesFrom r replacement skip (c :: passed) rest
    | 0 =>
      match r.matchAt ⟨passed, c :: rest, []⟩ with
      | some found =>
        .found ((c :: rest).take (found.stop - found.start)) (replacement found) ::
          piecesFrom r replacement (found.stop - found.start - 1) (c :: passed) rest
      | none => .kept c :: piecesFrom r replacement 0 (c :: passed) rest

def pieces (r : Re) (replacement : Re.Match → List Char) (text : String) : List Piece :=
  piecesFrom r replacement 0 [] text.toList

/-- `re.sub`. -/
def sub (r : Re) (replacement : Re.Match → List Char) (text : String) : String :=
  String.ofList (textAfter (pieces r replacement text))

variable {r : Re} {replacement : Re.Match → List Char}

theorem textBefore_piecesFrom (hr : 1 ≤ r.minLength) (skip : Nat) (passed text : List Char) :
    textBefore (piecesFrom r replacement skip passed text) = text.drop skip := by
  induction text generalizing skip passed with
  | nil => simp [piecesFrom, textBefore]
  | cons c rest ih =>
    unfold piecesFrom
    split
    · rw [ih, List.drop_succ_cons]
    · split
      · rename_i found hfound
        have hstop := (matchAt_stop hfound).1
        obtain ⟨length, hlength⟩ : ∃ length, found.stop - found.start = length + 1 :=
          ⟨found.stop - found.start - 1, by omega⟩
        have htail := ih length (c :: passed)
        simp only [textBefore, List.flatMap_cons, Piece.before, hlength, Nat.add_sub_cancel,
          List.drop_zero] at htail ⊢
        rw [htail, List.take_succ_cons, List.cons_append, List.take_append_drop]
      · have htail := ih 0 (c :: passed)
        simp only [textBefore, List.flatMap_cons, Piece.before, List.drop_zero] at htail ⊢
        rw [htail, List.singleton_append]

theorem piecesFrom_skip (skip : Nat) (passed text : List Char) (hskip : skip ≤ text.length) :
    piecesFrom r replacement skip passed text =
      piecesFrom r replacement 0 ((text.take skip).reverse ++ passed) (text.drop skip) := by
  induction skip generalizing passed text with
  | zero => rfl
  | succ skip ih =>
    cases text with
    | nil => cases hskip
    | cons c rest =>
      rw [piecesFrom]
      simpa using ih (c :: passed) rest (Nat.le_of_succ_le_succ hskip)

/-- Read without the replacements, the pieces are the text. -/
theorem textBefore_pieces (hr : 1 ≤ r.minLength) (text : String) :
    textBefore (pieces r replacement text) = text.toList := by
  rw [pieces, textBefore_piecesFrom hr, List.drop_zero]

/-- What a match is replaced by, worked out after the text is cut. -/
def Piece.map (f : List Char → List Char) : Piece → Piece
  | kept c => kept c
  | found old new => found old (f new)

theorem piecesFrom_map (f : List Char → List Char) (skip : Nat) (passed text : List Char) :
    piecesFrom r (fun found => f (replacement found)) skip passed text =
      (piecesFrom r replacement skip passed text).map (Piece.map f) := by
  induction text generalizing skip passed with
  | nil => rfl
  | cons c rest ih =>
    unfold piecesFrom
    split
    · exact ih _ _
    · split
      · exact congrArg (Piece.found _ _ :: ·) (ih _ _)
      · exact congrArg (Piece.kept _ :: ·) (ih _ _)

end Substitution

end Cygnus.Regex
