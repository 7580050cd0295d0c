import Cygnus.Data.Text

/-! Regular expressions as a backtracking matcher reads them: alternatives are tried in order,
repetitions are greedy or lazy, and the first way through to the end is the match. -/

namespace Cygnus.Regex

/-- A place in a text: the characters passed, last first, and those to come, with the groups captured
on the way. -/
structure Scan where
  passed : List Char
  rest : List Char
  groups : List (Nat × List Char) := []

def Scan.pos (s : Scan) : Nat := s.passed.length

inductive Re
  | empty
  | char (p : Char → Bool)
  /-- `^` and `$` of a text with several lines. -/
  | lineStart
  | lineEnd
  | seq (r s : Re)
  | alt (r s : Re)
  | star (greedy : Bool) (r : Re)
  | group (n : Nat) (r : Re)

namespace Re

variable {α : Type}

/-- The rounds of a repetition. A round that consumes nothing is not repeated. -/
def rounds (body : (Scan → Option α) → Scan → Option α) (greedy : Bool) (k : Scan → Option α) :
    Nat → Scan → Option α
  | 0, s => k s
  | n + 1, s =>
    let again := fun _ : Unit => body (fun s' =>
      if s'.rest.length < s.rest.length then rounds body greedy k n s' else none) s
    if greedy then (again ()).orElse fun _ => k s else (k s).orElse again

/-- Match `r` at `s`, then go on with `k`; on failure the next way to match `r` is tried. -/
def run : Re → (Scan → Option α) → Scan → Option α
  | empty, k, s => k s
  | char p, k, s =>
    match s.rest with
    | [] => none
    | c :: rest => if p c then k { s with passed := c :: s.passed, rest := rest } else none
  | lineStart, k, s =>
    match s.passed with
    | [] => k s
    | c :: _ => if c = '\n' then k s else none
  | lineEnd, k, s =>
    match s.rest with
    | [] => k s
    | c :: _ => if c = '\n' then k s else none
  | seq r r', k, s => r.run (r'.run k) s
  | alt r r', k, s => (r.run k s).orElse fun _ => r'.run k s
  | star greedy r, k, s => rounds r.run greedy k s.rest.length s
  | group n r, k, s => r.run (fun s' => k { s' with
      groups := (n, s.rest.take (s.rest.length - s'.rest.length)) :: s'.groups }) s

/-- The least number of characters of a match. -/
def minLength : Re → Nat
  | empty => 0
  | char _ => 1
  | lineStart => 0
  | lineEnd => 0
  | seq r s => r.minLength + s.minLength
  | alt r s => min r.minLength s.minLength
  | star _ _ => 0
  | group _ r => r.minLength

def plus (greedy : Bool) (r : Re) : Re := seq r (star greedy r)

/-- At most `n` rounds, as many as possible. -/
def upTo : Nat → Re → Re
  | 0, _ => empty
  | n + 1, r => alt (seq r (upTo n r)) empty

/-- A match: its ends, and what its groups captured. -/
structure Match where
  start : Nat
  stop : Nat
  groups : List (Nat × List Char)

def Match.group (found : Match) (n : Nat) : String :=
  String.ofList ((found.groups.lookup n).getD [])

/-- `re.match` at one place of a text. -/
def matchAt (r : Re) (s : Scan) : Option Match :=
  (r.run some s).map fun s' => ⟨s.pos, s'.pos, s'.groups⟩

/-- `re.finditer` for an expression that no empty text matches: `skip` more characters belong to the
match found last. -/
def finditerFrom (r : Re) (skip : Nat) (passed : List Char) : List Char → List Match
  | [] => []
  | c :: rest =>
    match skip with
    | skip + 1 => finditerFrom r skip (c :: passed) rest
    | 0 =>
      match r.matchAt ⟨passed, c :: rest, []⟩ with
      | some found =>
        found :: finditerFrom r (found.stop - found.start - 1) (c :: passed) rest
      | none => finditerFrom r 0 (c :: passed) rest

def finditer (r : Re) (text : String) : List Match := finditerFrom r 0 [] text.toList

end Re

section Progress

variable {α : Type}

/-- The scan has passed over the next characters of the text, at least `n` of them. -/
def Advances (n : Nat) (s s' : Scan) : Prop :=
  ∃ taken, s.rest = taken ++ s'.rest ∧ s'.passed = taken.reverse ++ s.passed ∧ n ≤ taken.length

theorem Advances.refl (s : Scan) : Advances 0 s s := ⟨[], rfl, rfl, Nat.le_refl 0⟩

theorem Advances.trans {m n : Nat} {s s' s'' : Scan} (h : Advances m s s')
    (h' : Advances n s' s'') : Advances (m + n) s s'' := by
  obtain ⟨taken, hrest, hpassed, hlen⟩ := h
  obtain ⟨taken', hrest', hpassed', hlen'⟩ := h'
  refine ⟨taken ++ taken', ?_, ?_, ?_⟩
  · rw [hrest, hrest', List.append_assoc]
  · rw [hpassed', hpassed, List.reverse_append, List.append_assoc]
  · rw [List.length_append]
    omega

theorem Advances.weaken {m n : Nat} {s s' : Scan} (h : Advances n s s') (hle : m ≤ n) :
    Advances m s s' := by
  obtain ⟨taken, hrest, hpassed, hlen⟩ := h
  exact ⟨taken, hrest, hpassed, hle.trans hlen⟩

/-- The continuation was reached with a scan further on. -/
def Reaches (n : Nat) (s : Scan) (k : Scan → Option α) (a : α) : Prop :=
  ∃ s', Advances n s s' ∧ k s' = some a

theorem orElse_some {x : Option α} {y : Unit → Option α} {a : α} (h : x.orElse y = some a) :
    x = some a ∨ y () = some a := by
  cases x with
  | none => exact .inr h
  | some b => exact .inl h

theorem rounds_reaches {body : (Scan → Option α) → Scan → Option α} {greedy : Bool}
    {a : α} (hbody : ∀ {k s}, body k s = some a → Reaches 0 s k a) {k : Scan → Option α} {n : Nat}
    {s : Scan} (h : Re.rounds body greedy k n s = some a) : Reaches 0 s k a := by
  induction n generalizing s with
  | zero => exact ⟨s, .refl s, h⟩
  | succ n ih =>
    have hagain : body (fun s' =>
        if s'.rest.length < s.rest.length then Re.rounds body greedy k n s' else none) s = some a →
        Reaches 0 s k a := by
      intro hagain
      obtain ⟨s', hadvances, hk⟩ := hbody hagain
      dsimp only at hk
      split at hk
      · obtain ⟨s'', hadvances', hk'⟩ := ih hk
        exact ⟨s'', hadvances.trans hadvances', hk'⟩
      · cases hk
    rw [Re.rounds] at h
    dsimp only at h
    split at h
    · rcases orElse_some h with hleft | hright
      · exact hagain hleft
      · exact ⟨s, .refl s, hright⟩
    · rcases orElse_some h with hleft | hright
      · exact ⟨s, .refl s, hleft⟩
      · exact hagain hright

/-- A match passes over the next characters of the text. -/
theorem run_reaches (r : Re) {k : Scan → Option α} {s : Scan} {a : α} (h : r.run k s = some a) :
    Reaches r.minLength s k a := by
  induction r generalizing k s with
  | empty => exact ⟨s, .refl s, h⟩
  | char p =>
    rw [Re.run] at h
    split at h
    · cases h
    · rename_i c rest hrest
      split at h
      · have hadvances : Advances 1 s { s with passed := c :: s.passed, rest := rest } :=
          ⟨[c], hrest, rfl, Nat.le_refl 1⟩
        exact ⟨_, hadvances, h⟩
      · cases h
  | lineStart =>
    rw [Re.run] at h
    split at h
    · exact ⟨s, .refl s, h⟩
    · split at h
      · exact ⟨s, .refl s, h⟩
      · cases h
  | lineEnd =>
    rw [Re.run] at h
    split at h
    · exact ⟨s, .refl s, h⟩
    · split at h
      · exact ⟨s, .refl s, h⟩
      · cases h
  | seq r r' ih ih' =>
    obtain ⟨s', hadvances, hrest⟩ := ih h
    obtain ⟨s'', hadvances', hk⟩ := ih' hrest
    exact ⟨s'', hadvances.trans hadvances', hk⟩
  | alt r r' ih ih' =>
    rcases orElse_some h with hleft | hright
    · obtain ⟨s', hadvances, hk⟩ := ih hleft
      exact ⟨s', hadvances.weaken (Nat.min_le_left _ _), hk⟩
    · obtain ⟨s', hadvances, hk⟩ := ih' hright
      exact ⟨s', hadvances.weaken (Nat.min_le_right _ _), hk⟩
  | star greedy r ih =>
    refine rounds_reaches ?_ h
    intro k s hbody
    obtain ⟨s', hadvances, hk⟩ := ih hbody
    exact ⟨s', hadvances.weaken (Nat.zero_le _), hk⟩
  | group n r ih =>
    obtain ⟨s', hadvances, hk⟩ := ih h
    have hcaptured : Advances r.minLength s { s' with
        groups := (n, s.rest.take (s.rest.length - s'.rest.length)) :: s'.groups } := hadvances
    exact ⟨_, hcaptured, hk⟩

end Progress

end Cygnus.Regex
