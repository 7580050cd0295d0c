import Mathlib.Data.List.Basic

/-! Sequences of transactions: a call that fails leaves the state it started from. -/

namespace Cygnus.Machine

variable {σ ι ε : Type*} (perform : ι → σ → Except ε σ)

def step (s : σ) (i : ι) : σ :=
  match perform i s with
  | .ok s' => s'
  | .error _ => s

def run (s : σ) (calls : List ι) : σ := calls.foldl (step perform) s

/-- Every call of the run meets `condition` in the state it starts from. -/
def Meets (condition : σ → ι → Prop) : σ → List ι → Prop
  | _, [] => True
  | s, i :: calls => condition s i ∧ Meets condition (step perform s i) calls

instance decidableMeets (condition : σ → ι → Prop) [∀ s i, Decidable (condition s i)] :
    (s : σ) → (calls : List ι) → Decidable (Meets perform condition s calls)
  | _, [] => isTrue trivial
  | s, i :: calls =>
    have := decidableMeets condition (step perform s i) calls
    inferInstanceAs (Decidable (_ ∧ _))

theorem step_cases (s : σ) (i : ι) :
    step perform s i = s ∨ perform i s = .ok (step perform s i) := by
  unfold step
  split
  · rename_i s' h
    exact .inr h
  · exact .inl rfl

variable {perform}

@[simp] theorem run_nil (s : σ) : run perform s [] = s := rfl

@[simp] theorem run_cons (s : σ) (i : ι) (calls : List ι) :
    run perform s (i :: calls) = run perform (step perform s i) calls := rfl

theorem run_append (s : σ) (first second : List ι) :
    run perform s (first ++ second) = run perform (run perform s first) second := by
  rw [run, run, run, List.foldl_append]

/-- A fold that accepts every call ends where the run ends. -/
theorem run_of_foldlM {s s' : σ} {calls : List ι}
    (h : calls.foldlM (fun s i => perform i s) s = .ok s') : run perform s calls = s' := by
  induction calls generalizing s with
  | nil => exact Except.ok.inj h
  | cons i calls ih =>
    rw [List.foldlM_cons] at h
    cases hstep : perform i s with
    | error e =>
      rw [hstep] at h
      cases h
    | ok next =>
      rw [hstep] at h
      rw [run_cons, step, hstep]
      exact ih h

theorem meets_append {condition : σ → ι → Prop} {s : σ} {first second : List ι} :
    Meets perform condition s (first ++ second) ↔
      Meets perform condition s first ∧ Meets perform condition (run perform s first) second := by
  induction first generalizing s with
  | nil => simp [Meets]
  | cons i first ih =>
    rw [List.cons_append, Meets, Meets, ih, run_cons, and_assoc]

theorem meets_of_mem {condition : σ → ι → Prop} {calls : List ι}
    (h : ∀ s, ∀ i ∈ calls, condition s i) (s : σ) : Meets perform condition s calls := by
  induction calls generalizing s with
  | nil => trivial
  | cons i calls ih =>
    exact ⟨h s i List.mem_cons_self, ih (fun s j hj => h s j (List.mem_cons_of_mem i hj)) _⟩

theorem meets_of_forall {condition : σ → ι → Prop} (h : ∀ s i, condition s i) (s : σ)
    (calls : List ι) : Meets perform condition s calls :=
  meets_of_mem (fun s i _ => h s i) s

theorem Meets.and {first second : σ → ι → Prop} {s : σ} {calls : List ι}
    (hfirst : Meets perform first s calls) (hsecond : Meets perform second s calls) :
    Meets perform (fun s i => first s i ∧ second s i) s calls := by
  induction calls generalizing s with
  | nil => trivial
  | cons i calls ih => exact ⟨⟨hfirst.1, hsecond.1⟩, ih hfirst.2 hsecond.2⟩

section Invariant

variable {condition : σ → ι → Prop} {Inv : σ → Prop}

/-- What one accepted call preserves. -/
def Preserves (perform : ι → σ → Except ε σ) (condition : σ → ι → Prop) (Inv : σ → Prop) : Prop :=
  ∀ {s s' : σ} {i : ι}, Inv s → condition s i → perform i s = .ok s' → Inv s'

theorem Preserves.step (h : Preserves perform condition Inv) {s : σ} {i : ι} (hs : Inv s)
    (hc : condition s i) : Inv (step perform s i) := by
  rcases step_cases perform s i with heq | hok
  · rw [heq]
    exact hs
  · exact h hs hc hok

theorem Preserves.run (h : Preserves perform condition Inv) {s : σ} {calls : List ι} (hs : Inv s)
    (hc : Meets perform condition s calls) : Inv (run perform s calls) := by
  induction calls generalizing s with
  | nil => exact hs
  | cons i calls ih => exact ih (h.step hs hc.1) hc.2

/-- A property of single steps that follows from the invariant holds of every step of a run. -/
theorem Preserves.meets (h : Preserves perform condition Inv) {property : σ → ι → Prop}
    (hproperty : ∀ {s i}, Inv s → condition s i → property s i) {s : σ} {calls : List ι}
    (hs : Inv s) (hc : Meets perform condition s calls) : Meets perform property s calls := by
  induction calls generalizing s with
  | nil => trivial
  | cons i calls ih => exact ⟨hproperty hs hc.1, ih (h.step hs hc.1) hc.2⟩

end Invariant

end Cygnus.Machine
