import Cygnus.Governance.FeedbackRoutes

namespace Cygnus.Feedback

open Wiki Publish Retrieval Domain Text Result Machine

section References

theorem isSpace_text {u : Uuid} {c : Char} (h : c ∈ u.text.toList) : isSpace c = false := by
  rcases Uuid.mem_text h with rfl | hhex
  · decide
  · exact hhex.of_table (p := (isSpace · = false)) (by decide)

theorem strip_routeRef (routeId : Uuid) : strip (routeRef routeId) = routeRef routeId := by
  have hstart : (toString "feedback-route:").toList.all (!isSpace ·) = true := by decide
  apply strip_of_forall
  intro c hmem
  rw [routeRef, String.toList_append, List.mem_append] at hmem
  rcases hmem with hlabel | htext
  · exact Bool.not_eq_true' _ ▸ List.all_eq_true.mp hstart c hlabel
  · exact isSpace_text htext

end References

section Audits

def AuditLog.terminates (audit : AuditLog) (routeId : Uuid) : Bool :=
  audit.action = "execute_feedback_route" && audit.resourceId = routeId.text

/-- The terminal audits of a route. -/
def terminalAudits (audits : List AuditLog) (routeId : Uuid) : Nat :=
  audits.countP (·.terminates routeId)

theorem terminates_terminalAudit {route : FeedbackRoute} {feedback : FeedbackSignal}
    {actorId : Uuid} {outcome : String} {terminalReason : Option String}
    {outcomeSignalId : Option Uuid} {routeId : Uuid} :
    (terminalAudit route feedback actorId outcome terminalReason
      outcomeSignalId).terminates routeId = true ↔ routeId = route.id := by
  rw [AuditLog.terminates, Bool.and_eq_true, decide_eq_true_iff, decide_eq_true_iff]
  constructor
  · rintro ⟨_, h⟩
    exact (Uuid.text_injective h).symm
  · rintro rfl
    exact ⟨rfl, rfl⟩

theorem terminalAudits_append (audits : List AuditLog) {route : FeedbackRoute}
    {feedback : FeedbackSignal} {actorId : Uuid} {outcome : String}
    {terminalReason : Option String} {outcomeSignalId : Option Uuid} (routeId : Uuid) :
    terminalAudits (audits ++
        [terminalAudit route feedback actorId outcome terminalReason outcomeSignalId]) routeId =
      terminalAudits audits routeId + if routeId = route.id then 1 else 0 := by
  simp only [terminalAudits, List.countP_append, List.countP_singleton, terminates_terminalAudit]

end Audits

section Marks

variable {route : FeedbackRoute}

theorem lifecycleCheck_running (h : route.lifecycleCheck = true) :
    route.lifecycleState = .running ↔ route.leaseToken.isSome ∧ route.leaseExpiresAt.isSome := by
  unfold FeedbackRoute.lifecycleCheck at h
  split at h <;> simp_all

theorem lifecycleCheck_idle (h : route.lifecycleCheck = true) :
    route.lifecycleState ≠ .running ↔ route.leaseToken = none ∧ route.leaseExpiresAt = none := by
  cases htoken : route.leaseToken with
  | none =>
    unfold FeedbackRoute.lifecycleCheck at h
    split at h <;> simp_all
  | some token =>
    unfold FeedbackRoute.lifecycleCheck at h
    split at h <;> simp_all

theorem lifecycleCheck_outcome (h : route.lifecycleCheck = true) :
    route.outcomeSignalId.isSome ↔ route.lifecycleState = .completed := by
  unfold FeedbackRoute.lifecycleCheck at h
  split at h <;> simp_all

theorem lifecycleCheck_markCompleted (signalId : Uuid) (now : Timestamp) :
    (route.markCompleted signalId now).lifecycleCheck = true := rfl

theorem lifecycleCheck_markBlocked (reason : String) (now : Timestamp) :
    (route.markBlocked reason now).lifecycleCheck = true := rfl

theorem lifecycleCheck_markFailed (error : String) (now : Timestamp) :
    (route.markFailed error now).lifecycleCheck = true := rfl

theorem lifecycleCheck_requeueAfterFailure (error : String) (now : Timestamp) :
    (route.requeueAfterFailure error now).lifecycleCheck = true := rfl

theorem lifecycleCheck_lease (token : String) (now : Timestamp) :
    (route.lease token now).lifecycleCheck = true := rfl

end Marks

section Signals

/-- The outcome signal of a route is in the table, under the reference of the route. -/
def World.Outcome (world : World) (route : FeedbackRoute) (signalId : Uuid) : Prop :=
  ∃ signal ∈ world.signals, signal.id = signalId ∧ signal.signalRef = routeRef route.id

theorem make_signalRef {input made : GovernanceSignalInput} (h : input.make = .ok made) :
    made.signalRef = input.signalRef := by
  simp only [GovernanceSignalInput.make, bind_ok, pure_ok] at h
  obtain ⟨_, _, _, _, _, _, _, _, _, _, _, _, _, _, _, _, _, _, rfl⟩ := h
  rfl

theorem governanceSignalInput_ref {route : FeedbackRoute} {feedback : FeedbackSignal}
    {page : GovernedPage} {object : KnowledgeObject} {input : GovernanceSignalInput}
    (h : governanceSignalInput route feedback page object = .ok input) :
    input.signalRef = routeRef route.id := by
  simp only [governanceSignalInput, bind_ok] at h
  obtain ⟨_, _, _, _, h⟩ := h
  exact make_signalRef h

/-- A signal is created at most once for its reference. -/
theorem createGovernanceSignal_ok {signals signals' : Table GovernanceSignal}
    {input : GovernanceSignalInput} {signalId createdById : Uuid} {signal : GovernanceSignal}
    (h : createGovernanceSignal signals input signalId createdById = .ok (signal, signals')) :
    signal ∈ signals' ∧ signal.signalRef = strip input.signalRef ∧ (∀ s ∈ signals, s ∈ signals') ∧
      ((signals.map (·.signalRef)).Nodup → (signals'.map (·.signalRef)).Nodup) := by
  unfold createGovernanceSignal at h
  split at h
  · rename_i existing hfound
    split at h
    · simp only [Except.ok.injEq, Prod.mk.injEq] at h
      obtain ⟨rfl, rfl⟩ := h
      have hmem := List.mem_of_find?_eq_some hfound
      have href : existing.signalRef = strip input.signalRef := by
        simpa using List.find?_some hfound
      exact ⟨hmem, href, fun _ h => h, id⟩
    · cases h
  · rename_i hnone
    simp only [bind_ok, pure_ok, Prod.mk.injEq] at h
    obtain ⟨table, htable, rfl, rfl⟩ := h
    obtain ⟨_, rfl⟩ := Table.insert_ok htable
    refine ⟨List.mem_append_right _ (List.mem_singleton_self _), rfl,
      fun s hs => List.mem_append_left _ hs, ?_⟩
    intro hnodup
    rw [List.map_append, List.nodup_append]
    refine ⟨hnodup, by simp, ?_⟩
    intro ref href ref' href' heq
    obtain ⟨other, hother, rfl⟩ := List.mem_map.mp href
    simp only [List.map_cons, List.map_nil, List.mem_singleton] at href'
    rw [getGovernanceSignal, List.find?_eq_none] at hnone
    apply hnone other hother
    rw [heq, href']
    simp [GovernanceSignalInput.stored]

end Signals

section Invariant

structure Sound (world : World) : Prop where
  keyed : world.routes.Keyed
  check : ∀ route ∈ world.routes, route.lifecycleCheck = true
  attempts : ∀ route ∈ world.routes, route.attemptCount ≤ maxFeedbackRouteAttempts
  audited : ∀ route ∈ world.routes,
    terminalAudits world.audits route.id = if route.terminal then 1 else 0
  refs : (world.signals.map (·.signalRef)).Nodup
  outcome : ∀ route ∈ world.routes, ∀ signalId, route.outcomeSignalId = some signalId →
    world.Outcome route signalId

/-- One row of a route is rewritten, while the route is open. -/
structure Writes (world world' : World) (route route' : FeedbackRoute) : Prop where
  found : world.routes.get route.id = some route
  opened : route.terminal = false
  key : route'.id = route.id
  check : route'.lifecycleCheck = true
  attempts : route'.attemptCount ≤ maxFeedbackRouteAttempts
  routes : world'.routes = world.routes.put route'
  audits : ∀ routeId, terminalAudits world'.audits routeId = terminalAudits world.audits routeId +
    if routeId = route.id ∧ route'.terminal then 1 else 0
  signals : ∀ signal ∈ world.signals, signal ∈ world'.signals
  refs : (world.signals.map (·.signalRef)).Nodup → (world'.signals.map (·.signalRef)).Nodup
  outcome : ∀ signalId, route'.outcomeSignalId = some signalId → world'.Outcome route' signalId

variable {world world' : World} {route route' : FeedbackRoute}

theorem Sound.written (h : Sound world) (hwrites : Writes world world' route route') :
    Sound world' := by
  have hmember {other : FeedbackRoute} (hmem : other ∈ world'.routes) :
      other = route' ∨ other ∈ world.routes ∧ other.id ≠ route.id := by
    rw [hwrites.routes] at hmem
    rcases Table.mem_put hmem with rfl | ⟨hold, hne⟩
    · exact .inl rfl
    · exact .inr ⟨hold, fun heq => hne (heq.trans hwrites.key.symm)⟩
  constructor
  case keyed =>
    rw [hwrites.routes]
    exact h.keyed.put _
  case check =>
    intro other hmem
    rcases hmember hmem with rfl | ⟨hold, _⟩
    · exact hwrites.check
    · exact h.check other hold
  case attempts =>
    intro other hmem
    rcases hmember hmem with rfl | ⟨hold, _⟩
    · exact hwrites.attempts
    · exact h.attempts other hold
  case audited =>
    intro other hmem
    rw [hwrites.audits]
    rcases hmember hmem with rfl | ⟨hold, hne⟩
    · rw [hwrites.key, h.audited route (Table.get_mem hwrites.found), hwrites.opened]
      simp
    · rw [h.audited other hold]
      simp [hne]
  case refs => exact hwrites.refs h.refs
  case outcome =>
    intro other hmem signalId hsignal
    rcases hmember hmem with rfl | ⟨hold, _⟩
    · exact hwrites.outcome signalId hsignal
    · obtain ⟨signal, hsignals, hid, href⟩ := h.outcome other hold signalId hsignal
      exact ⟨signal, hwrites.signals signal hsignals, hid, href⟩

theorem Writes.absorbing (hwrites : Writes world world' route route') (hkeyed : world.routes.Keyed)
    {other : FeedbackRoute} (hmem : other ∈ world.routes) (hterminal : other.terminal = true) :
    other ∈ world'.routes := by
  rw [hwrites.routes]
  apply Table.mem_put_of_ne hmem
  intro heq
  have hsame : other = route :=
    hkeyed.eq_of_key hmem (Table.get_mem hwrites.found) (heq.trans hwrites.key)
  rw [hsame, hwrites.opened] at hterminal
  cases hterminal

end Invariant

end Cygnus.Feedback
