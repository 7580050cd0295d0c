import Cygnus.Data.Dict
import Mathlib.Algebra.Order.Ring.Int
import Mathlib.Data.List.DropRight

/-! The circuit breaker that keeps deliveries from hosts that fail again and again. -/

namespace Cygnus.Delivery

/-- A monotonic clock, of which no more is used than that a later time is no shorter ago. -/
class Clock (T : Type) extends LinearOrder T, Sub T, Zero T where
  sub_mono : ∀ {a b : T} (c : T), a ≤ b → a - c ≤ b - c

scoped instance : Clock Int where
  sub_mono c h := by omega

structure HostCircuit (T : Type) where
  consecutiveFailures : Nat := 0
  openedAt : Option T := none
  halfOpen : Bool := false

structure DeliveryCircuitBreaker (T : Type) [Clock T] where
  threshold : Nat
  cooldownSeconds : T
  threshold_pos : 1 ≤ threshold
  cooldown_pos : 0 < cooldownSeconds

inductive CircuitEvent
  | allow (host : String)
  | recordFailure (host : String)
  | recordSuccess (host : String)
  | reset
  deriving DecidableEq

/-- A call, with the time that `_monotonic` gives in it. -/
structure CircuitCall (T : Type) where
  time : T
  event : CircuitEvent

abbrev Circuits (T : Type) := Dict String (HostCircuit T)

/-- The circuit of a host; one that is not there is like a new one. -/
def circuit {T : Type} (hosts : Circuits T) (host : String) : HostCircuit T :=
  (hosts.lookup host).getD {}

theorem circuit_set {T : Type} (hosts : Circuits T) (host other : String) (state : HostCircuit T) :
    circuit (hosts.set host state) other = if other = host then state else circuit hosts other := by
  rw [circuit, Dict.lookup_set]
  split <;> rfl

namespace DeliveryCircuitBreaker

variable {T : Type} [Clock T] (breaker : DeliveryCircuitBreaker T)

def allow (hosts : Circuits T) (host : String) (now : T) : Bool × Circuits T :=
  match hosts.lookup host with
  | none => (true, hosts)
  | some state =>
    match state.openedAt with
    | none => (true, hosts)
    | some openedAt =>
      if state.halfOpen then (true, hosts)
      else if breaker.cooldownSeconds ≤ now - openedAt then
        (true, hosts.set host { state with halfOpen := true })
      else (false, hosts)

def recordFailure (hosts : Circuits T) (host : String) (now : T) : Circuits T :=
  let state := circuit hosts host
  let state :=
    if state.halfOpen ∨ state.openedAt = none then
      { state with halfOpen := false, consecutiveFailures := state.consecutiveFailures + 1 }
    else { state with consecutiveFailures := state.consecutiveFailures + 1 }
  hosts.set host
    (if breaker.threshold ≤ state.consecutiveFailures then { state with openedAt := some now }
      else state)

def recordSuccess (hosts : Circuits T) (host : String) : Circuits T := hosts.set host {}

def step (hosts : Circuits T) (call : CircuitCall T) : Circuits T :=
  match call.event with
  | .allow host => (breaker.allow hosts host call.time).2
  | .recordFailure host => breaker.recordFailure hosts host call.time
  | .recordSuccess host => recordSuccess hosts host
  | .reset => []

def run (calls : List (CircuitCall T)) : Circuits T := calls.foldl breaker.step []

end DeliveryCircuitBreaker

section History

variable {T : Type} (host : String)

/-- A success of the host, or a reset. -/
def CircuitCall.clears (call : CircuitCall T) : Bool :=
  call.event = .recordSuccess host || call.event = .reset

def CircuitCall.fails (call : CircuitCall T) : Bool := call.event = .recordFailure host

/-- A call that is about the host, or about all hosts. -/
def CircuitCall.concerns (call : CircuitCall T) : Bool :=
  match call.event with
  | .allow target | .recordFailure target | .recordSuccess target => target = host
  | .reset => true

/-- The times of the failures since the last success or reset. -/
def failuresSince (calls : List (CircuitCall T)) : List T :=
  ((calls.rtakeWhile (!·.clears host)).filter (·.fails host)).map CircuitCall.time

theorem failuresSince_append (calls : List (CircuitCall T)) (call : CircuitCall T) :
    failuresSince host (calls ++ [call]) =
      if call.clears host then [] else
        failuresSince host calls ++ if call.fails host then [call.time] else [] := by
  by_cases hclears : call.clears host
  · have hstop : (calls ++ [call]).rtakeWhile (!·.clears host) = [] :=
      List.rtakeWhile_concat_neg _ _ _ (by simp [hclears])
    rw [if_pos hclears, failuresSince, hstop]
    rfl
  · have hgo : (calls ++ [call]).rtakeWhile (!·.clears host) =
        calls.rtakeWhile (!·.clears host) ++ [call] :=
      List.rtakeWhile_concat_pos _ _ _ (by simp [hclears])
    rw [if_neg hclears, failuresSince, hgo, List.filter_append, List.map_append]
    by_cases hfails : call.fails host <;> simp [failuresSince, hfails]

theorem failuresSince_filter (calls : List (CircuitCall T)) :
    failuresSince host (calls.filter (·.concerns host)) = failuresSince host calls := by
  induction calls using List.reverseRecOn with
  | nil => rfl
  | append_singleton calls call ih =>
    rw [List.filter_append, List.filter_singleton, failuresSince_append]
    by_cases hconcerns : call.concerns host
    · rw [hconcerns, cond_true, failuresSince_append, ih]
    · have hclears : call.clears host = false := by
        simp only [CircuitCall.concerns, CircuitCall.clears] at hconcerns ⊢
        cases hevent : call.event <;> simp_all
      have hfails : call.fails host = false := by
        simp only [CircuitCall.concerns, CircuitCall.fails] at hconcerns ⊢
        cases hevent : call.event <;> simp_all
      rw [eq_false_of_ne_true hconcerns, cond_false, List.append_nil, ih, hclears, hfails]
      simp

end History

namespace DeliveryCircuitBreaker

variable {T : Type} [Clock T] {breaker : DeliveryCircuitBreaker T} {hosts : Circuits T}
  {host other : String} {now latest : T} {failures : List T} {state : HostCircuit T}

theorem allow_eq_false : (breaker.allow hosts host now).1 = false ↔
    ∃ openedAt, (circuit hosts host).openedAt = some openedAt ∧ (circuit hosts host).halfOpen = false ∧
      now - openedAt < breaker.cooldownSeconds := by
  unfold allow circuit
  cases hosts.lookup host with
  | none => simp
  | some state =>
    cases hopened : state.openedAt with
    | none => simp [hopened]
    | some openedAt =>
      by_cases hhalf : state.halfOpen
      · simp [hopened, hhalf]
      · by_cases hcooled : breaker.cooldownSeconds ≤ now - openedAt
        · simp [hopened, hhalf, hcooled, not_lt.mpr hcooled]
        · simp [hopened, hhalf, hcooled, not_le.mp hcooled]

/-- A call changes the circuit when the cooldown is over: it lets a probe through. -/
theorem circuit_allow (breaker : DeliveryCircuitBreaker T) (hosts : Circuits T) (host other : String)
    (now : T) : circuit (breaker.allow hosts host now).2 other = circuit hosts other ∨
      other = host ∧ ∃ openedAt, (circuit hosts host).openedAt = some openedAt ∧
        breaker.cooldownSeconds ≤ now - openedAt ∧
        circuit (breaker.allow hosts host now).2 other =
          { circuit hosts host with halfOpen := true } := by
  unfold allow
  cases hfound : hosts.lookup host with
  | none => exact .inl rfl
  | some state =>
    have hstate : circuit hosts host = state := by rw [circuit, hfound, Option.getD_some]
    cases hopened : state.openedAt with
    | none => exact .inl (by simp only [hopened])
    | some openedAt =>
      simp only [hopened]
      split
      · exact .inl rfl
      · split
        · rename_i hcooled
          by_cases hhost : other = host
          · refine .inr ⟨hhost, openedAt, by rw [hstate, hopened], hcooled, ?_⟩
            rw [circuit_set, if_pos hhost, hstate, hopened]
          · exact .inl ((circuit_set ..).trans (if_neg hhost))
        · exact .inl rfl

/-- A circuit as a record of the failures since it was last cleared. A probe has been let through only
when the cooldown after the last of them was over. -/
structure Reflects (breaker : DeliveryCircuitBreaker T) (failures : List T) (latest : T)
    (state : HostCircuit T) : Prop where
  count : state.consecutiveFailures = failures.length
  opened : state.openedAt = if breaker.threshold ≤ failures.length then failures.getLast? else none
  probed : state.halfOpen = true → ∃ last, state.openedAt = some last ∧
    breaker.cooldownSeconds ≤ latest - last

theorem reflects_new (breaker : DeliveryCircuitBreaker T) (latest : T) :
    Reflects breaker [] latest {} :=
  ⟨rfl, by simp, by simp⟩

theorem Reflects.later (h : Reflects breaker failures latest state) (hle : latest ≤ now) :
    Reflects breaker failures now state := by
  refine ⟨h.count, h.opened, ?_⟩
  intro hhalf
  obtain ⟨last, hlast, hcooled⟩ := h.probed hhalf
  exact ⟨last, hlast, hcooled.trans (Clock.sub_mono last hle)⟩

theorem Reflects.allow (h : Reflects breaker failures now (circuit hosts other)) :
    Reflects breaker failures now (circuit (breaker.allow hosts host now).2 other) := by
  rcases circuit_allow breaker hosts host other now with hsame | ⟨rfl, last, hopened, hcooled, hprobe⟩
  · rw [hsame]
    exact h
  · rw [hprobe]
    exact ⟨h.count, h.opened, fun _ => ⟨last, hopened, hcooled⟩⟩

theorem Reflects.recordFailure (h : Reflects breaker failures now (circuit hosts host)) :
    Reflects breaker (failures ++ [now]) now
      (circuit (breaker.recordFailure hosts host now) host) := by
  have hlength : (failures ++ [now]).length = failures.length + 1 := List.length_append
  have hlast : (failures ++ [now]).getLast? = some now := List.getLast?_concat
  rw [DeliveryCircuitBreaker.recordFailure, circuit_set, if_pos rfl]
  generalize circuit hosts host = state at h ⊢
  -- either way the failure is counted and no probe is under way
  have hcounted : (if state.halfOpen = true ∨ state.openedAt = none then
      { state with halfOpen := false, consecutiveFailures := state.consecutiveFailures + 1 }
    else { state with consecutiveFailures := state.consecutiveFailures + 1 }) =
      { consecutiveFailures := failures.length + 1, openedAt := state.openedAt } := by
    split
    · rw [h.count]
    · rename_i hclosed
      simp only [not_or, Bool.not_eq_true] at hclosed
      rw [h.count, hclosed.1]
  simp only [hcounted]
  by_cases hopen : breaker.threshold ≤ failures.length + 1
  · rw [if_pos hopen]
    exact ⟨hlength.symm, by rw [hlength, if_pos hopen, hlast], by simp⟩
  · rw [if_neg hopen]
    refine ⟨hlength.symm, ?_, by simp⟩
    rw [hlength, if_neg hopen, h.opened, if_neg (by omega)]

theorem Reflects.step {calls : List (CircuitCall T)} {call : CircuitCall T}
    (h : Reflects breaker (failuresSince host calls) call.time (circuit hosts host)) :
    Reflects breaker (failuresSince host (calls ++ [call])) call.time
      (circuit (breaker.step hosts call) host) := by
  rw [failuresSince_append]
  obtain ⟨time, event⟩ := call
  cases event with
  | allow target => 
    simpa [CircuitCall.clears, CircuitCall.fails, DeliveryCircuitBreaker.step] using h.allow
  | recordFailure target =>
    by_cases htarget : target = host
    · subst htarget
      simpa [CircuitCall.clears, CircuitCall.fails, DeliveryCircuitBreaker.step]
        using h.recordFailure
    · have hother : circuit (breaker.recordFailure hosts target time) host = circuit hosts host :=
        (circuit_set ..).trans (if_neg (Ne.symm htarget))
      simpa [CircuitCall.clears, CircuitCall.fails, htarget, DeliveryCircuitBreaker.step, hother]
        using h
  | recordSuccess target =>
    by_cases htarget : target = host
    · subst htarget
      have hnew : circuit (recordSuccess hosts target) target = {} :=
        (circuit_set ..).trans (if_pos rfl)
      simpa [CircuitCall.clears, DeliveryCircuitBreaker.step, hnew] using reflects_new breaker time
    · have hother : circuit (recordSuccess hosts target) host = circuit hosts host :=
        (circuit_set ..).trans (if_neg (Ne.symm htarget))
      simpa [CircuitCall.clears, CircuitCall.fails, htarget, DeliveryCircuitBreaker.step, hother]
        using h
  | reset =>
    simpa [CircuitCall.clears, DeliveryCircuitBreaker.step, circuit] using reflects_new breaker time

/-- After any calls in the order of time, every circuit reflects the failures of its host. -/
theorem reflects_run {calls : List (CircuitCall T)}
    (hordered : (calls.map CircuitCall.time ++ [now]).Pairwise (· ≤ ·)) :
    Reflects breaker (failuresSince host calls) now (circuit (breaker.run calls) host) := by
  induction calls using List.reverseRecOn generalizing now with
  | nil => exact reflects_new breaker now
  | append_singleton calls call ih =>
    rw [List.map_append, List.map_singleton, List.pairwise_append] at hordered
    obtain ⟨hcalls, -, hnow⟩ := hordered
    have hle : call.time ≤ now := hnow call.time (by simp) now List.mem_cons_self
    rw [run, List.foldl_append]
    exact (Reflects.step (ih hcalls)).later hle

/-- A host is refused exactly while it has failed often enough and not long ago, and what happens to
other hosts makes no difference. -/
theorem allow_iff_history (breaker : DeliveryCircuitBreaker T) (calls : List (CircuitCall T))
    (host : String) (now : T)
    (hordered : (calls.map CircuitCall.time ++ [now]).Pairwise (· ≤ ·)) :
    ((breaker.allow (breaker.run calls) host now).1 = false ↔
      breaker.threshold ≤ (failuresSince host calls).length ∧
        ∃ last, (failuresSince host calls).getLast? = some last ∧
          now - last < breaker.cooldownSeconds) ∧
    (breaker.allow (breaker.run calls) host now).1 =
      (breaker.allow (breaker.run (calls.filter (·.concerns host))) host now).1 := by
  have hiff : ∀ calls : List (CircuitCall T),
      (calls.map CircuitCall.time ++ [now]).Pairwise (· ≤ ·) →
      ((breaker.allow (breaker.run calls) host now).1 = false ↔
        breaker.threshold ≤ (failuresSince host calls).length ∧
          ∃ last, (failuresSince host calls).getLast? = some last ∧
            now - last < breaker.cooldownSeconds) := by
    intro calls hordered
    have h : Reflects breaker (failuresSince host calls) now (circuit (breaker.run calls) host) :=
      reflects_run hordered
    rw [allow_eq_false, h.opened]
    constructor
    · rintro ⟨last, hlast, -, hrecent⟩
      split at hlast
      · rename_i hopen
        exact ⟨hopen, last, hlast, hrecent⟩
      · cases hlast
    · rintro ⟨hopen, last, hlast, hrecent⟩
      refine ⟨last, by rw [if_pos hopen, hlast], ?_, hrecent⟩
      by_contra hhalf
      obtain ⟨other, hother, hcooled⟩ := h.probed (by simpa using hhalf)
      rw [h.opened, if_pos hopen, hlast, Option.some.injEq] at hother
      subst hother
      exact absurd hrecent (not_lt.mpr hcooled)
  refine ⟨hiff calls hordered, ?_⟩
  have hsub : ((calls.filter (·.concerns host)).map CircuitCall.time ++ [now]).Pairwise (· ≤ ·) :=
    hordered.sublist ((List.filter_sublist.map _).append_right _)
  have hsame := (hiff calls hordered).trans
    ((hiff _ hsub).trans (by rw [failuresSince_filter])).symm
  exact Bool.eq_iff_iff.mpr (by simpa using not_congr hsame)

theorem allow_history_reopened :
    ((DeliveryCircuitBreaker.mk 2 (60 : Int) (by decide) (by decide)).allow
      ((DeliveryCircuitBreaker.mk 2 (60 : Int) (by decide) (by decide)).run
        [⟨0, .recordFailure "a"⟩, ⟨5, .recordFailure "a"⟩, ⟨70, .allow "a"⟩, ⟨71, .recordFailure "a"⟩])
      "a" 90).1 = false :=
  (allow_iff_history ⟨2, 60, by decide, by decide⟩
    [⟨0, .recordFailure "a"⟩, ⟨5, .recordFailure "a"⟩, ⟨70, .allow "a"⟩, ⟨71, .recordFailure "a"⟩]
    "a" 90 (by decide)).1.mpr ⟨by decide, 71, by decide, by decide⟩

end DeliveryCircuitBreaker

end Cygnus.Delivery
