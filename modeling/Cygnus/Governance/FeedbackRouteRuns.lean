import Cygnus.Governance.FeedbackRouteLaws

namespace Cygnus.Feedback

open Wiki Publish Retrieval Domain Text Result Machine

section Calls

variable {world world' : World} {route : FeedbackRoute}

/-- A terminal outcome and its audit are written together. -/
theorem writes_settle {route' : FeedbackRoute} {feedback : FeedbackSignal} {actorId : Uuid}
    {outcome : String} {terminalReason : Option String} {outcomeSignalId : Option Uuid}
    {signals : Table GovernanceSignal} (hfound : world.routes.get route.id = some route)
    (hopened : route.terminal = false) (hkey : route'.id = route.id)
    (hcheck : route'.lifecycleCheck = true) (hterminal : route'.terminal = true)
    (hattempts : route'.attemptCount ≤ maxFeedbackRouteAttempts)
    (hsignals : ∀ signal ∈ world.signals, signal ∈ signals)
    (hrefs : (world.signals.map (·.signalRef)).Nodup → (signals.map (·.signalRef)).Nodup)
    (houtcome : ∀ signalId, route'.outcomeSignalId = some signalId →
      ∃ signal ∈ signals, signal.id = signalId ∧ signal.signalRef = routeRef route'.id) :
    Writes world ({ world with signals := signals }.settle route'
      (terminalAudit route' feedback actorId outcome terminalReason outcomeSignalId)) route
      route' where
  found := hfound
  opened := hopened
  key := hkey
  check := hcheck
  attempts := hattempts
  routes := rfl
  audits routeId := by
    rw [World.settle, terminalAudits_append, hkey, hterminal]
    simp
  signals := hsignals
  refs := hrefs
  outcome := houtcome

/-- A route that stays open is written without an audit. -/
theorem writes_open {route' : FeedbackRoute} (hfound : world.routes.get route.id = some route)
    (hopened : route.terminal = false) (hkey : route'.id = route.id)
    (hcheck : route'.lifecycleCheck = true) (hopen : route'.terminal = false)
    (hattempts : route'.attemptCount ≤ maxFeedbackRouteAttempts)
    (hnone : route'.outcomeSignalId = none) :
    Writes world { world with routes := world.routes.put route' } route route' where
  found := hfound
  opened := hopened
  key := hkey
  check := hcheck
  attempts := hattempts
  routes := rfl
  audits routeId := by simp [hopen]
  signals _ h := h
  refs h := h
  outcome signalId h := by
    rw [hnone] at h
    cases h

theorem claimRoute_writes {token : Uuid → String} {now : Timestamp}
    {routeId : Uuid} {state state' : World × FeedbackRouteClaimSweep} (hsound : Sound state.1)
    (hok : claimRoute token now state routeId = .ok state') :
    state'.1 = state.1 ∨ ∃ route route', Writes state.1 state'.1 route route' := by
  unfold claimRoute at hok
  split at hok
  · rw [Except.ok.injEq] at hok
    exact .inl (hok ▸ rfl)
  · rename_i route hget
    have hid : routeId = route.id := (Table.get_key hget).symm
    subst hid
    have hattempts := hsound.attempts route (Table.get_mem hget)
    split at hok
    · rw [Except.ok.injEq] at hok
      exact .inl (hok ▸ rfl)
    · rename_i hopened
      rw [Bool.not_eq_true] at hopened
      split at hok
      · simp only [recoverRoute, bind_ok, pure_ok] at hok
        obtain ⟨⟨feedback, actorId⟩, _, rfl⟩ := hok
        exact .inr ⟨route, _, writes_settle hget hopened rfl (lifecycleCheck_markFailed _ _) rfl
          hattempts (fun _ h => h) (fun h => h) fun _ h => by cases h⟩
      · rename_i hbudget
        rw [Except.ok.injEq] at hok
        subst hok
        exact .inr ⟨route, _, writes_open hget hopened rfl (lifecycleCheck_lease _ _) rfl
          (Nat.lt_of_not_le hbudget) rfl⟩

theorem executeOwned_writes {env : Platform} {signalId : Uuid} {now : Timestamp}
    (hsound : Sound world) (hfound : world.routes.get route.id = some route)
    (hopened : route.terminal = false)
    (hok : executeOwned env world route signalId now = .ok world') :
    ∃ route', Writes world world' route route' := by
  have hattempts := hsound.attempts route (Table.get_mem hfound)
  have hblocked (feedback : FeedbackSignal) (actorId : Uuid) (reason : String) :
      ∃ route', Writes world (blockFeedbackRoute world route feedback actorId reason now) route
        route' :=
    ⟨_, writes_settle hfound hopened rfl (lifecycleCheck_markBlocked reason now) rfl hattempts
      (fun _ h => h) (fun h => h) fun _ h => by cases h⟩
  simp only [executeOwned, bind_ok] at hok
  obtain ⟨⟨feedback, actorId⟩, _, hok⟩ := hok
  simp only at hok
  split at hok
  · simp only [bind_ok] at hok
    obtain ⟨resolution, _, hok⟩ := hok
    cases resolution with
    | refused reason =>
      simp only [settleResolution, Except.ok.injEq] at hok
      exact hok ▸ hblocked feedback actorId reason
    | target page object =>
      simp only [settleResolution, completeFeedbackRoute, bind_ok, pure_ok] at hok
      obtain ⟨input, hinput, ⟨signal, signals⟩, hcreate, rfl⟩ := hok
      obtain ⟨hmem, href, hsignals, hrefs⟩ := createGovernanceSignal_ok hcreate
      refine ⟨_, writes_settle hfound hopened rfl (lifecycleCheck_markCompleted signal.id now) rfl
        hattempts hsignals hrefs ?_⟩
      rintro _ ⟨rfl⟩
      refine ⟨signal, hmem, rfl, ?_⟩
      rw [href, governanceSignalInput_ref hinput]
      exact strip_routeRef route.id
  · rw [pure_ok] at hok
    exact hok ▸ hblocked feedback actorId "route_policy_changed"

theorem failOwned_writes {error : String} {now : Timestamp} (hsound : Sound world)
    (hfound : world.routes.get route.id = some route) (hopened : route.terminal = false)
    (hok : failOwned world route error now = .ok world') :
    ∃ route', Writes world world' route route' := by
  have hattempts := hsound.attempts route (Table.get_mem hfound)
  unfold failOwned at hok
  split at hok
  · simp only [bind_ok, pure_ok] at hok
    obtain ⟨⟨feedback, actorId⟩, _, rfl⟩ := hok
    exact ⟨_, writes_settle hfound hopened rfl (lifecycleCheck_markFailed error now) rfl hattempts
      (fun _ h => h) (fun h => h) fun _ h => by cases h⟩
  · rw [pure_ok] at hok
    subst hok
    exact ⟨_, writes_open hfound hopened rfl (lifecycleCheck_requeueAfterFailure error now) rfl
      hattempts rfl⟩

/-- The claim holds the current lease of its route, unexpired. -/
def FeedbackRouteClaim.Owns (claim : FeedbackRouteClaim) (route : FeedbackRoute)
    (now : Timestamp) : Prop :=
  route.leaseToken = some claim.leaseToken ∧ route.leaseExpiresAt.any (now < ·)

theorem requireActiveLease_ok {claim : FeedbackRouteClaim} {now : Timestamp} {u : Unit}
    (h : requireActiveLease route claim now = .ok u) : claim.Owns route now := by
  simp only [requireActiveLease, bind_ok, require_ok] at h
  obtain ⟨_, _, _, htoken, hexpiry⟩ := h
  exact ⟨htoken, hexpiry⟩

/-- What a worker's call does: nothing, or one write to a route whose lease the worker holds. -/
theorem executeFeedbackRoute_writes {env : Platform} {claim : FeedbackRouteClaim} {signalId : Uuid}
    {now : Timestamp} (hsound : Sound world)
    (hok : executeFeedbackRoute env world claim signalId now = .ok world') :
    world' = world ∨ ∃ route route', world.routes.get claim.routeId = some route ∧
      claim.Owns route now ∧ Writes world world' route route' := by
  simp only [executeFeedbackRoute, lockedRoute, bind_ok, demand_ok] at hok
  obtain ⟨route, hget, hok⟩ := hok
  split at hok
  · rw [pure_ok] at hok
    exact .inl hok.symm
  · rename_i hopened
    rw [Bool.not_eq_true] at hopened
    simp only [bind_ok] at hok
    obtain ⟨_, hlease, hok⟩ := hok
    have hfound := hget
    rw [show claim.routeId = route.id from (Table.get_key hget).symm] at hfound
    obtain ⟨route', hwrites⟩ := executeOwned_writes hsound hfound hopened hok
    exact .inr ⟨route, route', hget, requireActiveLease_ok hlease, hwrites⟩

theorem recordFeedbackRouteFailure_writes {claim : FeedbackRouteClaim} {kind message : String}
    {now : Timestamp} (hsound : Sound world)
    (hok : recordFeedbackRouteFailure world claim kind message now = .ok world') :
    world' = world ∨ ∃ route route', world.routes.get claim.routeId = some route ∧
      claim.Owns route now ∧ Writes world world' route route' := by
  simp only [recordFeedbackRouteFailure, lockedRoute, bind_ok, demand_ok] at hok
  obtain ⟨route, hget, hok⟩ := hok
  split at hok
  · rw [pure_ok] at hok
    exact .inl hok.symm
  · rename_i hopened
    rw [Bool.not_eq_true] at hopened
    simp only [bind_ok] at hok
    obtain ⟨_, hlease, hok⟩ := hok
    have hfound := hget
    rw [show claim.routeId = route.id from (Table.get_key hget).symm] at hfound
    obtain ⟨route', hwrites⟩ := failOwned_writes hsound hfound hopened hok
    exact .inr ⟨route, route', hget, requireActiveLease_ok hlease, hwrites⟩

end Calls

section Runs

variable {env : Platform} {world world' : World} {action : Action}

/-- Everything terminal in `world` is as it was in `world'`. -/
def Absorbing (world world' : World) : Prop :=
  ∀ route ∈ world.routes, route.terminal = true → route ∈ world'.routes

theorem claim_kept {limit : Nat} {locked : List Uuid} {token : Uuid → String} {now : Timestamp}
    {state : World × FeedbackRouteClaimSweep} (hsound : Sound world)
    (hok : claimFeedbackRoutes world limit locked token now = .ok state) :
    Sound state.1 ∧ Absorbing world state.1 := by
  simp only [claimFeedbackRoutes, bind_ok, require_ok] at hok
  obtain ⟨_, _, hok⟩ := hok
  refine foldlM_induction (P := fun state => Sound state.1 ∧ Absorbing world state.1) ?_
    ⟨hsound, fun _ h _ => h⟩ hok
  rintro state next routeId _ ⟨hcurrent, habsorbing⟩ hclaim
  rcases claimRoute_writes hcurrent hclaim with heq | ⟨route, route', hwrites⟩
  · rw [heq]
    exact ⟨hcurrent, habsorbing⟩
  · refine ⟨hcurrent.written hwrites, ?_⟩
    intro other hmem hterminal
    exact hwrites.absorbing hcurrent.keyed (habsorbing other hmem hterminal) hterminal

theorem Sound.congr (h : Sound world) (hroutes : world'.routes = world.routes)
    (hsignals : world'.signals = world.signals) (haudits : world'.audits = world.audits) :
    Sound world' := by
  cases world
  cases world'
  simp only at hroutes hsignals haudits
  subst hroutes hsignals haudits
  exact ⟨h.keyed, h.check, h.attempts, h.audited, h.refs, h.outcome⟩

theorem perform_kept (hsound : Sound world) (hok : perform env action world = .ok world') :
    Sound world' ∧ Absorbing world world' := by
  cases action with
  | claim limit locked token now =>
    simp only [perform, bind_ok, pure_ok] at hok
    obtain ⟨state, hclaim, rfl⟩ := hok
    exact claim_kept hsound hclaim
  | execute claim signalId now =>
    rcases executeFeedbackRoute_writes hsound hok with rfl | ⟨route, route', _, _, hwrites⟩
    · exact ⟨hsound, fun _ h _ => h⟩
    · exact ⟨hsound.written hwrites, fun _ h ht => hwrites.absorbing hsound.keyed h ht⟩
  | recordFailure claim kind message now =>
    rcases recordFeedbackRouteFailure_writes hsound hok with rfl | ⟨route, route', _, _, hwrites⟩
    · exact ⟨hsound, fun _ h _ => h⟩
    · exact ⟨hsound.written hwrites, fun _ h ht => hwrites.absorbing hsound.keyed h ht⟩
  | elsewhere feedback employees drafts pages =>
    simp only [perform, pure_ok] at hok
    subst hok
    exact ⟨hsound.congr rfl rfl rfl, fun _ h _ => h⟩

/-- The claim that a worker's call presents, with the time of the call. -/
def Action.presents : Action → Option (FeedbackRouteClaim × Timestamp)
  | .execute held _ now => some (held, now)
  | .recordFailure held _ _ now => some (held, now)
  | _ => none

theorem presents_owns {claim : FeedbackRouteClaim} {now : Timestamp} (hsound : Sound world)
    (hpresents : action.presents = some (claim, now)) (hok : perform env action world = .ok world') :
    world' = world ∨ ∃ route, world.routes.get claim.routeId = some route ∧
      claim.Owns route now := by
  cases action with
  | claim limit locked token now => cases hpresents
  | execute claim signalId now =>
    cases hpresents
    refine (executeFeedbackRoute_writes hsound hok).imp_right ?_
    rintro ⟨route, _, hget, howns, _⟩
    exact ⟨route, hget, howns⟩
  | recordFailure claim kind message now =>
    cases hpresents
    refine (recordFeedbackRouteFailure_writes hsound hok).imp_right ?_
    rintro ⟨route, _, hget, howns, _⟩
    exact ⟨route, hget, howns⟩
  | elsewhere feedback employees drafts pages => cases hpresents

/-- What the route machine keeps at an action, for the world before and the world after. -/
structure Kept (world : World) (action : Action) (world' : World) : Prop where
  attempts : ∀ route ∈ world'.routes, route.attemptCount ≤ maxFeedbackRouteAttempts
  absorbing : ∀ route ∈ world.routes, route.terminal = true → route ∈ world'.routes
  running : ∀ route ∈ world'.routes, route.lifecycleState = .running ↔
    route.leaseToken.isSome ∧ route.leaseExpiresAt.isSome
  idle : ∀ route ∈ world'.routes, route.lifecycleState = .queued ∨ route.terminal = true ↔
    route.leaseToken = none ∧ route.leaseExpiresAt = none
  stale : ∀ claim now, action.presents = some (claim, now) →
    (∀ route, world.routes.get claim.routeId = some route → ¬ claim.Owns route now) →
      world' = world
  audits : ∀ route ∈ world'.routes,
    terminalAudits world'.audits route.id = if route.terminal then 1 else 0
  outcomes : ∀ routeId,
    (world'.signals.filter fun signal => signal.signalRef = routeRef routeId).length ≤ 1
  outcome : ∀ route ∈ world'.routes, (route.outcomeSignalId.isSome ↔
    route.lifecycleState = .completed) ∧ ∀ signalId, route.outcomeSignalId = some signalId →
      world'.Outcome route signalId

theorem FeedbackRoute.queued_or_terminal {route : FeedbackRoute} :
    route.lifecycleState = .queued ∨ route.terminal = true ↔ route.lifecycleState ≠ .running := by
  unfold FeedbackRoute.terminal
  cases route.lifecycleState <;> simp [FeedbackRouteState.isTerminal]

theorem Sound.outcomes (h : Sound world) (routeId : Uuid) :
    (world.signals.filter fun signal => signal.signalRef = routeRef routeId).length ≤ 1 := by
  have hcount := List.nodup_iff_count_le_one.mp h.refs (routeRef routeId)
  rw [List.count_eq_countP, List.countP_map, List.countP_eq_length_filter] at hcount
  exact hcount

theorem step_kept (hsound : Sound world) :
    Kept world action (step (perform env) world action) := by
  have hnext : Sound (step (perform env) world action) ∧
      Absorbing world (step (perform env) world action) := by
    rcases step_cases (perform env) world action with hsame | hok
    · rw [hsame]
      exact ⟨hsound, fun _ h _ => h⟩
    · exact perform_kept hsound hok
  constructor
  case attempts => exact hnext.1.attempts
  case absorbing => exact hnext.2
  case running => exact fun route hmem => lifecycleCheck_running (hnext.1.check route hmem)
  case idle =>
    intro route hmem
    rw [FeedbackRoute.queued_or_terminal]
    exact lifecycleCheck_idle (hnext.1.check route hmem)
  case stale =>
    intro claim now hpresents hstale
    rcases step_cases (perform env) world action with hsame | hok
    · exact hsame
    · rcases presents_owns hsound hpresents hok with hsame | ⟨route, hget, howns⟩
      · exact hsame
      · exact absurd howns (hstale route hget)
  case audits => exact hnext.1.audited
  case outcomes => exact hnext.1.outcomes
  case outcome =>
    intro route hmem
    exact ⟨lifecycleCheck_outcome (hnext.1.check route hmem), hnext.1.outcome route hmem⟩

/-- The world once its routes have been created, and before any of them is claimed. -/
structure World.Initial (world : World) : Prop where
  keyed : world.routes.Keyed
  created : ∀ route ∈ world.routes, route.lifecycleState = .queued ∧ route.attemptCount = 0 ∧
    route.lifecycleCheck = true
  unaudited : ∀ route ∈ world.routes, terminalAudits world.audits route.id = 0
  refs : (world.signals.map (·.signalRef)).Nodup

theorem World.Initial.sound (h : world.Initial) : Sound world where
  keyed := h.keyed
  check route hmem := (h.created route hmem).2.2
  attempts route hmem := by
    rw [(h.created route hmem).2.1]
    exact Nat.zero_le _
  audited route hmem := by
    rw [h.unaudited route hmem, FeedbackRoute.terminal, (h.created route hmem).1]
    rfl
  refs := h.refs
  outcome route hmem signalId hsignal := by
    have hcompleted := (lifecycleCheck_outcome (h.created route hmem).2.2).mp (by simp [hsignal])
    rw [(h.created route hmem).1] at hcompleted
    cases hcompleted

/-- The route machine: any overlap of sweeps, slow workers and lost leases. -/
theorem feedbackRoutes_kept (env : Platform) (hinitial : world.Initial) (actions : List Action) :
    Meets (perform env) (fun world action => Kept world action (step (perform env) world action))
      world actions := by
  have hpreserves : Preserves (perform env) (fun _ _ => True) Sound :=
    fun hsound _ hok => (perform_kept hsound hok).1
  exact hpreserves.meets (fun hsound _ => step_kept hsound) hinitial.sound
    (meets_of_forall (fun _ _ => trivial) _ _)

end Runs

section Scenario

/-- A low rating that names no page, with its route. -/
def rating : FeedbackSignal where
  id := 3
  signalType := .lowRating
  actorId := 4
  audienceContext := { visibility := .internal }
  createdAt := 0

def ratingRoute : FeedbackRoute where
  id := 5
  feedbackSignalId := 3
  routeKind := .review
  nextAttemptAt := some 0
  createdAt := 0

def ratingWorld : World := { routes := [ratingRoute], feedback := [rating], employees := [4] }

/-- A platform without texts to transform. -/
def plainPlatform : Platform := ⟨id, id, fun _ => "", fun _ => ""⟩

/-- One sweep and one execution, by the worker that claimed. -/
def ratingBlocked : List Action := [
  .claim 25 [] (fun _ => "token") 1,
  .execute ⟨5, .review, "token", 1, .queued⟩ 6 2]

theorem ratingWorld_initial : ratingWorld.Initial where
  keyed := List.nodup_singleton _
  created := by decide
  unaudited := by decide
  refs := List.nodup_nil

theorem ratingBlocked_kept :
    Meets (perform plainPlatform)
      (fun world action => Kept world action (step (perform plainPlatform) world action))
      ratingWorld ratingBlocked :=
  feedbackRoutes_kept plainPlatform ratingWorld_initial ratingBlocked

/-- A blocked route has neither token nor expiry and is not queued, and a route that is not terminal
yet has no terminal audit. -/
theorem idle_route_not_queued :
    (¬ ∀ actions, ∀ route ∈ (run (perform plainPlatform) ratingWorld actions).routes,
      (route.lifecycleState = .queued ↔
        route.leaseToken = none ∧ route.leaseExpiresAt = none)) ∧
    ¬ ∀ actions, ∀ route ∈ (run (perform plainPlatform) ratingWorld actions).routes,
      terminalAudits (run (perform plainPlatform) ratingWorld actions).audits route.id = 1 := by
  constructor
  · intro h
    have hblocked : ∃ route ∈ (run (perform plainPlatform) ratingWorld ratingBlocked).routes,
        route.lifecycleState ≠ .queued ∧ route.leaseToken = none ∧
          route.leaseExpiresAt = none := by
      decide +kernel
    obtain ⟨route, hmem, hstate, hidle⟩ := hblocked
    exact hstate ((h ratingBlocked route hmem).mpr hidle)
  · intro h
    have hqueued : terminalAudits ratingWorld.audits ratingRoute.id = 1 :=
      h [] ratingRoute (List.mem_singleton_self _)
    cases hqueued

end Scenario

end Cygnus.Feedback
