import Mathlib.Data.List.Forall2

/-! Inversion of fallible programs: what a successful run of a `do` block over `Except` went
through. -/

namespace Cygnus.Result

universe u v

variable {ε : Type u} {α β : Type v}

/-- Stop with `error` unless `condition` holds. -/
def require (condition : Prop) [Decidable condition] (error : ε) : Except ε Unit :=
  if condition then .ok () else .error error

@[simp] theorem require_ok {condition : Prop} [Decidable condition] {error : ε} {u : Unit} :
    require condition error = .ok u ↔ condition := by
  unfold require
  split <;> simp_all

@[simp] theorem require_error {condition : Prop} [Decidable condition] {error e : ε} :
    require condition error = .error e ↔ ¬ condition ∧ error = e := by
  unfold require
  split <;> simp_all

/-- The value, or a stop with `error` where there is none. -/
def demand (value : Option α) (error : ε) : Except ε α :=
  match value with
  | some a => .ok a
  | none => .error error

@[simp] theorem demand_ok {value : Option α} {error : ε} {a : α} :
    demand value error = .ok a ↔ value = some a := by
  cases value <;> simp [demand]

theorem require_of {condition : Prop} [Decidable condition] {error : ε} (h : condition) :
    require condition error = .ok () := if_pos h

theorem ok_bind (a : α) (f : α → Except ε β) : (Except.ok a >>= f) = f a := rfl

theorem bind_ok {x : Except ε α} {f : α → Except ε β} {b : β} :
    (x >>= f) = .ok b ↔ ∃ a, x = .ok a ∧ f a = .ok b := by
  cases x <;> simp [bind, Except.bind]

theorem bind_error {x : Except ε α} {f : α → Except ε β} {e : ε} :
    (x >>= f) = .error e ↔ x = .error e ∨ ∃ a, x = .ok a ∧ f a = .error e := by
  cases x <;> simp [bind, Except.bind]

theorem map_ok {x : Except ε α} {f : α → β} {b : β} :
    x.map f = .ok b ↔ ∃ a, x = .ok a ∧ f a = b := by
  cases x <;> simp [Except.map]

theorem toOption_some {x : Except ε α} {a : α} : x.toOption = some a ↔ x = .ok a := by
  cases x <;> simp [Except.toOption]

@[simp] theorem pure_ok {a b : α} : (pure a : Except ε α) = .ok b ↔ a = b := by
  simp [pure, Except.pure]

@[simp] theorem pure_ne_error {a : α} {e : ε} : (pure a : Except ε α) ≠ .error e := by
  simp [pure, Except.pure]

@[simp] theorem throw_ne_ok {e : ε} {a : α} : (throw e : Except ε α) ≠ .ok a := by
  simp [throw, throwThe, MonadExceptOf.throw]

@[simp] theorem throw_error {e e' : ε} : (throw e : Except ε α) = .error e' ↔ e = e' := by
  simp [throw, throwThe, MonadExceptOf.throw]

theorem mapM_ok {f : α → Except ε β} {xs : List α} {ys : List β} :
    xs.mapM f = .ok ys ↔ List.Forall₂ (fun x y => f x = .ok y) xs ys := by
  induction xs generalizing ys with
  | nil => cases ys <;> simp
  | cons x xs ih =>
    rw [List.mapM_cons]
    simp only [bind_ok, pure_ok]
    constructor
    · rintro ⟨y, hy, rest, hrest, rfl⟩
      exact .cons hy (ih.mp hrest)
    · intro h
      cases h with
      | cons hy hrest => exact ⟨_, hy, _, ih.mpr hrest, rfl⟩

theorem mapM_ok_map {f : α → Except ε β} {g : α → β} {xs : List α} {ys : List β}
    (hf : ∀ x ∈ xs, ∀ y, f x = .ok y → y = g x) (h : xs.mapM f = .ok ys) : ys = xs.map g := by
  rw [mapM_ok] at h
  induction h with
  | nil => rfl
  | cons hy _ ih =>
    rw [List.map_cons, hf _ List.mem_cons_self _ hy]
    rw [ih fun x hx => hf x (List.mem_cons_of_mem _ hx)]

theorem mem_of_mapM_ok {f : α → Except ε β} {xs : List α} {ys : List β} (h : xs.mapM f = .ok ys)
    {y : β} (hy : y ∈ ys) : ∃ x ∈ xs, f x = .ok y := by
  rw [mapM_ok] at h
  induction h with
  | nil => cases hy
  | cons hxy _ ih =>
    rcases List.mem_cons.mp hy with rfl | hy
    · exact ⟨_, List.mem_cons_self, hxy⟩
    · obtain ⟨x, hx, h⟩ := ih hy
      exact ⟨x, List.mem_cons_of_mem _ hx, h⟩

theorem exists_of_mapM_ok {f : α → Except ε β} {xs : List α} {ys : List β} (h : xs.mapM f = .ok ys)
    {x : α} (hx : x ∈ xs) : ∃ y ∈ ys, f x = .ok y := by
  rw [mapM_ok] at h
  induction h with
  | nil => cases hx
  | cons hxy _ ih =>
    rcases List.mem_cons.mp hx with rfl | hx
    · exact ⟨_, List.mem_cons_self, hxy⟩
    · obtain ⟨y, hy, h⟩ := ih hx
      exact ⟨y, List.mem_cons_of_mem _ hy, h⟩

/-- What every accepted iteration of a loop preserves, the loop preserves. -/
theorem foldlM_induction {σ : Type v} {f : σ → α → Except ε σ} {P : σ → Prop} {xs : List α} {s s' : σ}
    (hstep : ∀ {s s' : σ}, ∀ a ∈ xs, P s → f s a = .ok s' → P s') (hs : P s)
    (h : xs.foldlM f s = .ok s') : P s' := by
  induction xs generalizing s with
  | nil =>
    rw [List.foldlM_nil, pure_ok] at h
    exact h ▸ hs
  | cons x xs ih =>
    rw [List.foldlM_cons, bind_ok] at h
    obtain ⟨next, hnext, h⟩ := h
    apply ih (fun a ha => hstep a (List.mem_cons_of_mem _ ha)) _ h
    exact hstep x List.mem_cons_self hs hnext

theorem foldlM_append_ok {σ : Type v} {f : σ → α → Except ε σ} {xs ys : List α} {s s' : σ} :
    (xs ++ ys).foldlM f s = .ok s' ↔
      ∃ between, xs.foldlM f s = .ok between ∧ ys.foldlM f between = .ok s' := by
  rw [List.foldlM_append, bind_ok]

/-- A loop stops at the first iteration that is refused. -/
theorem foldlM_error {σ : Type v} {f : σ → α → Except ε σ} {xs : List α} {s : σ} {e : ε} :
    xs.foldlM f s = .error e ↔ ∃ before x after s', xs = before ++ x :: after ∧
      before.foldlM f s = .ok s' ∧ f s' x = .error e := by
  constructor
  · intro h
    induction xs generalizing s with
    | nil => cases h
    | cons x xs ih =>
      rw [List.foldlM_cons, bind_error] at h
      rcases h with h | ⟨next, hnext, h⟩
      · exact ⟨[], x, xs, s, rfl, rfl, h⟩
      · obtain ⟨before, y, after, s', rfl, hbefore, hy⟩ := ih h
        refine ⟨x :: before, y, after, s', rfl, ?_, hy⟩
        rw [List.foldlM_cons, hnext, ok_bind, hbefore]
  · rintro ⟨before, x, after, s', rfl, hbefore, hx⟩
    rw [List.foldlM_append, hbefore, ok_bind, List.foldlM_cons, hx]
    rfl

theorem mapError_ok {ε' : Type u} {x : Except ε α} {f : ε → ε'} {a : α} :
    x.mapError f = .ok a ↔ x = .ok a := by
  cases x <;> simp [Except.mapError]

/-- The program returns. -/
def Returns (x : Except ε α) : Prop := ∃ a, x = .ok a

@[simp] theorem returns_ok (a : α) : Returns (.ok a : Except ε α) := ⟨a, rfl⟩

@[simp] theorem returns_pure (a : α) : Returns (pure a : Except ε α) := ⟨a, rfl⟩

@[simp] theorem not_returns_error (e : ε) : ¬ Returns (.error e : Except ε α) := by
  rintro ⟨a, h⟩
  cases h

@[simp] theorem returns_require {condition : Prop} [Decidable condition] {error : ε} :
    Returns (require condition error) ↔ condition := by
  simp [Returns]

theorem returns_bind {x : Except ε α} {f : α → Except ε β} :
    Returns (x >>= f) ↔ ∃ a, x = .ok a ∧ Returns (f a) := by
  simp only [Returns, bind_ok]
  constructor
  · rintro ⟨b, a, ha, hb⟩
    exact ⟨a, ha, b, hb⟩
  · rintro ⟨a, ha, b, hb⟩
    exact ⟨b, a, ha, hb⟩

/-- Both parts of a program return, whatever the first hands on. -/
theorem Returns.bind {x : Except ε α} {f : α → Except ε β} (hx : Returns x)
    (hf : ∀ a, x = .ok a → Returns (f a)) : Returns (x >>= f) := by
  obtain ⟨a, ha⟩ := hx
  exact returns_bind.mpr ⟨a, ha, hf a ha⟩

@[simp] theorem returns_mapError {ε' : Type u} {x : Except ε α} {f : ε → ε'} :
    Returns (x.mapError f) ↔ Returns x := by
  simp only [Returns, mapError_ok]

theorem returns_mapM {f : α → Except ε β} {xs : List α} (h : ∀ x ∈ xs, Returns (f x)) :
    Returns (xs.mapM f) := by
  induction xs with
  | nil => exact ⟨[], by simp⟩
  | cons x xs ih =>
    obtain ⟨y, hy⟩ := h x List.mem_cons_self
    obtain ⟨ys, hys⟩ := ih fun x hx => h x (List.mem_cons_of_mem _ hx)
    exact ⟨y :: ys, mapM_ok.mpr (.cons hy (mapM_ok.mp hys))⟩

end Cygnus.Result
