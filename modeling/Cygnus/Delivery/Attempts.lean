import Cygnus.Delivery.Decisions

/-! How many requests are made for a delivery. Its attempts are counted when an outcome is recorded,
from the row as it was claimed. -/

namespace Cygnus.Delivery

open Wiki Text Result Sequence Governance Machine

/-- What workers have in hand for a row, the requests made for it, and whether the outcome of one was
lost with its worker. -/
structure Desk (Body : Type) where
  held : List (Task Body)
  posts : Nat
  lost : Bool
  deriving DecidableEq

def Desk.empty {Body : Type} : Desk Body := ⟨[], 0, false⟩

/-- Where the requests for a delivery stand. -/
inductive Hand {Body : Type} (maxAttempts : Nat) (delivery : GovernancePropagationDelivery) :
    Desk Body → Prop
  | idle {posts : Nat} (hposts : posts ≤ delivery.attempts ∨ delivery.status = .synced) :
      Hand maxAttempts delivery ⟨[], posts, false⟩
  | lost {posts : Nat} (hpending : delivery.status ≠ .pending) :
      Hand maxAttempts delivery ⟨[], posts, true⟩
  | busy {task : Task Body} {posts : Nat} (hpending : delivery.status ≠ .pending)
      (hattempts : task.delivery.attempts = delivery.attempts)
      (hmore : delivery.attempts < maxAttempts)
      (hposts : posts ≤ delivery.attempts + if task.posted then 1 else 0) :
      Hand maxAttempts delivery ⟨[task], posts, false⟩

/-- The attempts of a delivery are within its budget, and so are the requests made for it. -/
structure Rationed {Body : Type} (maxAttempts : Nat) (desk : Desk Body)
    (delivery : GovernancePropagationDelivery) : Prop where
  attempts : delivery.attempts ≤ maxAttempts
  live : delivery.status = .pending ∨ delivery.status = .inFlight → delivery.attempts < maxAttempts
  posts : desk.posts ≤ maxAttempts
  hand : Hand maxAttempts delivery desk

variable {Body : Type} {wire : Wire Body} {env : Platform} {secret : String} {maxAttempts : Nat}
  {channels channels' : Channels} {step : Step Body} {i : Uuid} {desk : Desk Body}
  {delivery delivery' claimed : GovernancePropagationDelivery}
  {propagation propagation' : GovernancePropagation}

def heldFor (i : Uuid) (tasks : List (Task Body)) : List (Task Body) :=
  tasks.filter (·.delivery.id = i)

def World.deskOf (world : World Body) (i : Uuid) : Desk Body where
  held := heldFor i world.tasks
  posts := world.posts.count i
  lost := i ∈ world.lost

/-- The claim that a step settles. -/
def Step.settles : Step Body → Option GovernancePropagationDelivery
  | reject claimed _ _ _ _ => some claimed
  | record claimed _ _ _ _ => some claimed
  | _ => none

/-- The claim that a step settles or returns. -/
def Step.ends : Step Body → Option GovernancePropagationDelivery
  | revert claimed _ _ _ => some claimed
  | step => step.settles

section Rows

/-- A row that ends, or stays, with its attempts as they are. -/
structure Rests (delivery delivery' : GovernancePropagationDelivery) : Prop where
  attempts : delivery'.attempts = delivery.attempts
  status : delivery'.status = delivery.status ∨ delivery'.status = .synced ∨
    delivery.status ≠ .synced ∧ delivery'.status = .failed

theorem Rests.pending (h : Rests delivery delivery') (hne : delivery.status ≠ .pending) :
    delivery'.status ≠ .pending := by
  rcases h.status with hsame | hsynced | ⟨-, hfailed⟩
  · rw [hsame]
    exact hne
  · rw [hsynced]
    decide
  · rw [hfailed]
    decide

theorem Rests.live (h : Rests delivery delivery')
    (hlive : delivery'.status = .pending ∨ delivery'.status = .inFlight) :
    delivery.status = .pending ∨ delivery.status = .inFlight := by
  rcases h.status with hsame | hsynced | ⟨-, hfailed⟩
  · rw [hsame] at hlive
    exact hlive
  · rw [hsynced] at hlive
    rcases hlive with hlive | hlive <;> cases hlive
  · rw [hfailed] at hlive
    rcases hlive with hlive | hlive <;> cases hlive

theorem Rests.synced (h : Rests delivery delivery') (hsynced : delivery.status = .synced) :
    delivery'.status = .synced := by
  rcases h.status with hsame | hsynced' | ⟨hunsynced, -⟩
  · exact hsame.trans hsynced
  · exact hsynced'
  · exact absurd hsynced hunsynced

theorem Rationed.rests (h : Rationed maxAttempts desk delivery) (hrests : Rests delivery delivery') :
    Rationed maxAttempts desk delivery' := by
  refine ⟨hrests.attempts ▸ h.attempts, ?_, h.posts, ?_⟩
  · intro hlive
    rw [hrests.attempts]
    exact h.live (hrests.live hlive)
  · cases h.hand with
    | idle hposts =>
      refine .idle ?_
      rw [hrests.attempts]
      exact hposts.imp_right hrests.synced
    | lost hne => exact .lost (hrests.pending hne)
    | busy hne hsnapshot hmore hposts =>
      refine .busy (hrests.pending hne) (hsnapshot.trans hrests.attempts.symm) ?_ ?_
      · rw [hrests.attempts]
        exact hmore
      · rw [hrests.attempts]
        exact hposts

theorem Rationed.staged (hmax : 1 ≤ maxAttempts) (h : delivery.progress = .staged) :
    Rationed maxAttempts (Desk.empty : Desk Body) delivery := by
  have hattempts : delivery.attempts = 0 := congrArg Progress.attempts h
  refine ⟨?_, ?_, Nat.zero_le _, .idle (.inl (Nat.zero_le _))⟩
  · rw [hattempts]
    exact Nat.zero_le _
  · intro _
    rw [hattempts]
    exact hmax

/-- A step that neither claims a row nor records an outcome for it, nor asks for it again. -/
theorem Moves.rests (hlabel : propagation.label = (delivery.propagationId, delivery.publicationId,
      delivery.surfaceId, delivery.desiredDigest))
    (hclaim : ∀ limit locked now, step ≠ .claim limit locked now)
    (houtcome : ∀ claimed, step.ends = some claimed → claimed.id ≠ delivery.id)
    (hrepends : step.repends delivery = false)
    (h : Moves wire secret maxAttempts channels step delivery propagation delivery' propagation') :
    Rests delivery delivery' := by
  have hstatus : ∀ {after : Progress}, delivery'.progress = after →
      delivery'.status = after.status := fun hafter => congrArg Progress.status hafter
  have hattempts : ∀ {after : Progress}, delivery'.progress = after →
      delivery'.attempts = after.attempts := fun hafter => congrArg Progress.attempts hafter
  cases h with
  | same hprogress _ => exact ⟨hattempts hprogress, .inl (hstatus hprogress)⟩
  | @update command actorId eventId now hstep hsynced hnew hfound hversion hprogress _ =>
    subst hstep
    rw [PropagationUpdateCommand.mirror] at hprogress
    split at hprogress
    · exact ⟨hattempts hprogress, .inl (hstatus hprogress)⟩
    · rename_i hunsynced
      split at hprogress
      · rename_i hpending
        have htarget := List.find?_some hfound
        simp only [GovernancePropagation.label, Prod.mk.injEq] at hlabel
        obtain ⟨-, hpublication, hsurface, -⟩ := hlabel
        simp_all [Step.repends]
      · exact ⟨hattempts hprogress, .inr (.inr ⟨hunsynced, hstatus hprogress⟩)⟩
  | sync hstep hack hcount hprogress _ =>
    refine ⟨(hattempts hprogress).trans ?_, .inr (.inl (hstatus hprogress))⟩
    rcases hcount with hsame | ⟨claimed, hsuccess, -⟩
    · exact hsame
    · cases step with
      | record other outcome =>
        cases outcome with
        | synced =>
          obtain rfl := Option.some.inj hsuccess
          simp only [Step.carries, Option.some.injEq, Prod.mk.injEq] at hstep
          exact absurd hstep.1 (houtcome other rfl)
        | unsynced => cases hsuccess
      | _ => cases hsuccess
  | @recount claimed _ _ _ _ _ _ hstep hid =>
    subst hstep
    exact absurd hid (houtcome claimed rfl)
  | claim hstep => exact absurd hstep (hclaim _ _ _)
  | @revert claimed _ _ _ hstep hid =>
    subst hstep
    exact absurd hid (houtcome claimed rfl)
  | @retry claimed _ _ _ _ _ hstep hid =>
    subst hstep
    exact absurd hid (houtcome claimed rfl)
  | @terminal claimed _ hstep hid =>
    refine absurd hid (houtcome claimed ?_)
    cases step with
    | reject other => exact hstep
    | record other outcome => cases outcome <;> first | exact hstep | cases hstep
    | _ => cases hstep

/-- What an outcome leaves behind. -/
theorem Moves.settles (hstep : step.settles = some claimed)
    (h : Moves wire secret maxAttempts channels step delivery propagation delivery' propagation') :
    (delivery'.attempts = delivery.attempts ∨ delivery'.attempts = claimed.attempts + 1) ∧
    (delivery'.progress = delivery.progress ∨ delivery'.status = .synced ∨
      delivery'.status.isDecided ∨
      delivery'.status = .pending ∧ claimed.attempts + 1 < maxAttempts) := by
  have hstatus : ∀ {after : Progress}, delivery'.progress = after →
      delivery'.status = after.status := fun hafter => congrArg Progress.status hafter
  have hattempts : ∀ {after : Progress}, delivery'.progress = after →
      delivery'.attempts = after.attempts := fun hafter => congrArg Progress.attempts hafter
  cases h with
  | same hprogress _ => exact ⟨.inl (hattempts hprogress), .inl hprogress⟩
  | update hupdate =>
    subst hupdate
    cases hstep
  | sync hcarries hack hcount hprogress _ =>
    refine ⟨?_, .inr (.inl (hstatus hprogress))⟩
    rcases hcount with hsame | ⟨other, hsuccess, hcount⟩
    · exact .inl ((hattempts hprogress).trans hsame)
    · obtain rfl : other = claimed := by
        cases step with
        | record found outcome => cases outcome <;> simp_all [Step.settles, Step.successOf]
        | _ => cases hsuccess
      exact .inr ((hattempts hprogress).trans hcount)
  | recount hrecord _ hsynced hprogress _ =>
    subst hrecord
    obtain rfl := Option.some.inj hstep
    exact ⟨.inr (hattempts hprogress), .inr (.inl ((hstatus hprogress).trans hsynced))⟩
  | claim hclaim =>
    subst hclaim
    cases hstep
  | revert hrevert =>
    subst hrevert
    cases hstep
  | retry hrecord _ _ hmore hprogress _ =>
    subst hrecord
    obtain rfl := Option.some.inj hstep
    exact ⟨.inr (hattempts hprogress), .inr (.inr (.inr ⟨hstatus hprogress, hmore⟩))⟩
  | @terminal other status hfailure _ _ hprogress _ =>
    obtain rfl : other = claimed := by
      cases step with
      | reject found => exact Option.some.inj (hfailure.symm.trans hstep)
      | record found outcome => cases outcome <;> simp_all [Step.settles, Step.failureOf]
      | _ => cases hfailure
    refine ⟨.inr (hattempts hprogress), .inr (.inr (.inl ?_))⟩
    rw [hstatus hprogress]
    cases status <;> rfl

/-- A claim that is returned counts nothing. -/
theorem Moves.returns {posted : Bool} {lastError : String} {now : Timestamp}
    (h : Moves wire secret maxAttempts channels (.revert claimed posted lastError now) delivery
      propagation delivery' propagation') : delivery'.attempts = delivery.attempts := by
  cases h with
  | same hprogress _ => exact congrArg Progress.attempts hprogress
  | update hstep => cases hstep
  | sync hstep => cases hstep
  | recount hstep => cases hstep
  | claim hstep => cases hstep
  | revert _ _ _ hprogress _ => exact congrArg Progress.attempts hprogress
  | retry hstep => cases hstep
  | terminal hstep => cases hstep

end Rows

section Outcomes

variable {eventId : Uuid} {occurredAt now : Timestamp}

theorem recordTerminal_attempts {attempt : Attempt} {status : TerminalStatus} {reason : String}
    (h : recordTerminal channels i attempt status reason eventId now = .ok channels')
    (hget : channels.deliveries.get i = some delivery) (hunsynced : delivery.status ≠ .synced) :
    ∃ delivery', channels'.deliveries.get i = some delivery' ∧
      delivery'.attempts = attempt.number := by
  rcases recordTerminal_ok h with
    ⟨-, hsynced⟩ | ⟨found, propagation, propagations', deliveries', ledger', hfound, -, hsaves, -, -,
      -, rfl⟩
  · exact absurd (hsynced delivery hget) hunsynced
  · obtain ⟨time, hself⟩ := hsaves.self
    have hid : found.id = i := Table.get_key hfound
    exact ⟨_, hid ▸ hself, rfl⟩

/-- The outcome of a request counts it, unless the row was acknowledged meanwhile. -/
theorem recordOutcome_attempts {outcome : DeliveryAttemptOutcome Body}
    (h : recordOutcome wire env secret maxAttempts channels claimed outcome occurredAt eventId now =
      .ok channels')
    (hget : channels.deliveries.get claimed.id = some delivery)
    (hunsynced : delivery.status ≠ .synced) :
    ∃ delivery', channels'.deliveries.get claimed.id = some delivery' ∧
      delivery'.attempts = claimed.attempts + 1 := by
  have hmax : max 1 (claimed.attempts + 1) = claimed.attempts + 1 := by omega
  unfold recordOutcome at h
  rw [hmax] at h
  dsimp only at h
  split at h
  · rename_i statusCode body signature
    simp only [bind_ok] at h
    obtain ⟨⟨receipt, middle⟩, -, h⟩ := h
    dsimp only at h
    split at h
    · cases h
    · rename_i counted hcounted
      obtain rfl := pure_ok.mp h
      have hid : counted.id = claimed.id := Table.get_key hcounted
      rw [← hid] at hcounted
      have hsaves : Saves middle.deliveries
          (counted.countSynced (claimed.attempts + 1) statusCode occurredAt)
          (saveDelivery (counted.countSynced (claimed.attempts + 1) statusCode occurredAt) now
            middle.deliveries) :=
        saveDelivery_saves hcounted
      obtain ⟨time, hself⟩ := hsaves.self
      exact ⟨_, hid ▸ hself, rfl⟩
  · rename_i statusCode error
    split at h
    · exact recordTerminal_attempts h hget hunsynced
    · obtain rfl := pure_ok.mp h
      rcases recordUnlessSynced_cases channels claimed.id now
          (fun delivery => delivery.count
            ⟨claimed.attempts + 1, some error, statusCode, occurredAt⟩ .pending "retryable_error")
          (fun _ => rfl) with ⟨-, hsynced⟩ | ⟨found, deliveries', hfound, -, hsaves, heq⟩
      · exact absurd (hsynced delivery hget) hunsynced
      · obtain ⟨time, hself⟩ := hsaves.self
        have hid : found.id = claimed.id := Table.get_key hfound
        rw [recordRetry, heq]
        exact ⟨_, hid ▸ hself, rfl⟩
  · exact recordTerminal_attempts h hget hunsynced

/-- A row once an outcome was recorded for it: no worker is at it any more. -/
theorem Rationed.settle {task : Task Body} {posts : Nat} {lost : Bool}
    (h : Rationed maxAttempts ⟨[task], posts, lost⟩ delivery)
    (hsynced : delivery.status = .synced →
      delivery'.status = .synced ∧ delivery'.attempts ≤ delivery.attempts + 1)
    (hunsynced : delivery.status ≠ .synced → delivery'.attempts = delivery.attempts + 1 ∧
      (delivery'.status = .pending → delivery.attempts + 1 < maxAttempts) ∧
      delivery'.status ≠ .inFlight) :
    Rationed maxAttempts (⟨[], posts, lost⟩ : Desk Body) delivery' := by
  obtain ⟨-, -, hbound, hhand⟩ := h
  cases hhand with
  | busy hne hsnapshot hmore hposts =>
    have hcount : posts ≤ delivery.attempts + 1 := by
      split at hposts <;> omega
    by_cases hstatus : delivery.status = .synced
    · obtain ⟨hsynced, hattempts⟩ := hsynced hstatus
      refine ⟨by omega, ?_, hbound, .idle (.inr hsynced)⟩
      intro hlive
      rw [hsynced] at hlive
      rcases hlive with hlive | hlive <;> cases hlive
    · obtain ⟨hattempts, hpending, hclaimed⟩ := hunsynced hstatus
      refine ⟨by omega, ?_, hbound, .idle (.inl (by omega))⟩
      intro hlive
      rcases hlive with hlive | hlive
      · rw [hattempts]
        exact hpending hlive
      · exact absurd hlive hclaimed

end Outcomes

section Held

variable {task : Task Body} {tasks : List (Task Body)}

theorem mem_heldFor : task ∈ heldFor i tasks ↔ task ∈ tasks ∧ task.delivery.id = i := by
  rw [heldFor, List.mem_filter, decide_eq_true_eq]

theorem heldFor_cons :
    heldFor i (task :: tasks) =
      if task.delivery.id = i then task :: heldFor i tasks else heldFor i tasks := by
  simp only [heldFor, List.filter_cons, decide_eq_true_eq]

theorem heldFor_erase [DecidableEq Body] :
    heldFor i (tasks.erase task) = (heldFor i tasks).erase task := by
  rw [heldFor, heldFor, List.erase_filter]

theorem heldFor_erase_of_ne [DecidableEq Body] (hne : task.delivery.id ≠ i) :
    heldFor i (tasks.erase task) = heldFor i tasks := by
  rw [heldFor_erase, List.erase_of_not_mem]
  intro hmem
  exact hne (mem_heldFor.mp hmem).2

/-- The desk of a row for which `task` is in hand. -/
theorem Hand.eq_of_mem (h : Hand maxAttempts delivery desk) (hmem : task ∈ desk.held) :
    desk = ⟨[task], desk.posts, false⟩ := by
  cases h with
  | idle => cases hmem
  | lost => cases hmem
  | busy =>
    obtain rfl := List.mem_singleton.mp hmem
    rfl

end Held

section Accounts

/-- The requests for the row `i` are accounted for. -/
structure Accounts (maxAttempts : Nat) (i : Uuid) (world : World Body) : Prop where
  sound : Sound world.channels
  absent : world.channels.deliveries.get i = none → world.deskOf i = .empty
  present : ∀ delivery, world.channels.deliveries.get i = some delivery →
    Rationed maxAttempts (world.deskOf i) delivery

variable {world world' : World Body} {task next : Task Body}

/-- A task in hand is the only one for its row, which is in the table. -/
theorem Accounts.of_mem (h : Accounts maxAttempts i world) (hmem : task ∈ world.tasks)
    (hid : task.delivery.id = i) :
    heldFor i world.tasks = [task] ∧ i ∉ world.lost ∧
      ∃ delivery, world.channels.deliveries.get i = some delivery ∧
        Rationed maxAttempts (⟨[task], world.posts.count i, false⟩ : Desk Body) delivery := by
  have hheld : task ∈ (world.deskOf i).held := mem_heldFor.mpr ⟨hmem, hid⟩
  cases hget : world.channels.deliveries.get i with
  | none =>
    rw [h.absent hget] at hheld
    cases hheld
  | some delivery =>
    have hrationed := h.present delivery hget
    have hdesk := hrationed.hand.eq_of_mem hheld
    have hcolumns := hdesk
    simp only [World.deskOf, Desk.mk.injEq, decide_eq_false_iff_not] at hcolumns
    exact ⟨hcolumns.1, hcolumns.2.2, delivery, rfl, hdesk ▸ hrationed⟩

theorem accounts_empty : Accounts maxAttempts i ({} : World Body) := by
  refine ⟨sound_empty, fun _ => rfl, ?_⟩
  intro delivery hget
  cases hget

/-- A step that leaves what is in hand for the row, and claims or settles nothing for it. -/
theorem Accounts.rest (hmax : 1 ≤ maxAttempts) (h : Accounts maxAttempts i world)
    (hchanges : Changes wire secret maxAttempts world.channels step world'.channels)
    (hdesk : world'.deskOf i = world.deskOf i)
    (hclaim : ∀ limit locked now, step ≠ .claim limit locked now)
    (houtcome : ∀ claimed, step.ends = some claimed → claimed.id ≠ i)
    (hrepends : ∀ delivery, world.channels.deliveries.get i = some delivery →
      step.repends delivery = false) : Accounts maxAttempts i world' := by
  have hsound := hchanges.sound h.sound
  refine ⟨hsound, ?_, ?_⟩
  · intro hnone
    rw [hdesk]
    apply h.absent
    cases hget : world.channels.deliveries.get i with
    | none => rfl
    | some delivery =>
      obtain ⟨propagation, hpair, -⟩ := h.sound.pair hget
      obtain ⟨delivery', _, hpair', henvelope, -, -⟩ := hchanges.continues h.sound hpair
      have hid : delivery'.id = i :=
        (GovernancePropagationDelivery.envelope_id henvelope).trans (Table.get_key hget)
      have hfound := hpair'.found
      rw [hid, hnone] at hfound
      cases hfound
  · intro delivery' hget'
    have hid' : delivery'.id = i := Table.get_key hget'
    obtain ⟨propagation', hpair', -⟩ := hsound.pair hget'
    rw [hdesk]
    rcases hchanges.pair_cases h.sound hpair' with
      ⟨delivery, propagation, hpair, hlabel, henvelope, -, hmoves⟩ | ⟨hfree, -, hprogress, -⟩
    · have hid : delivery.id = i :=
        (GovernancePropagationDelivery.envelope_id henvelope).symm.trans hid'
      have hget : world.channels.deliveries.get i = some delivery := hid ▸ hpair.found
      have hrests := hmoves.rests hlabel hclaim (hid ▸ houtcome) (hrepends delivery hget)
      exact (h.present delivery hget).rests hrests
    · rw [hid'] at hfree
      rw [h.absent hfree]
      exact .staged hmax hprogress

theorem Accounts.of_desk (h : Accounts maxAttempts i world)
    (hchannels : world'.channels = world.channels) (hdesk : world'.deskOf i = world.deskOf i) :
    Accounts maxAttempts i world' := by
  refine ⟨hchannels ▸ h.sound, ?_, ?_⟩
  · intro hnone
    rw [hdesk]
    exact h.absent (hchannels ▸ hnone)
  · intro delivery hget
    rw [hdesk]
    exact h.present delivery (hchannels ▸ hget)

theorem Accounts.of_rationed (hsound : Sound world.channels)
    (hget : world.channels.deliveries.get i = some delivery)
    (hrationed : Rationed maxAttempts (world.deskOf i) delivery) : Accounts maxAttempts i world := by
  refine ⟨hsound, ?_, ?_⟩
  · intro hnone
    rw [hget] at hnone
    cases hnone
  · intro found hfound
    obtain rfl := Option.some.inj (hget.symm.trans hfound)
    exact hrationed

section Claims

variable {limit : Nat} {locked : List Uuid} {now : Timestamp}

/-- A delivery that is claimed while nothing is under way for it. -/
theorem Rationed.claim {row : GovernancePropagationDelivery}
    (h : Rationed maxAttempts desk delivery)
    (hdue : delivery.status = .pending ∨
      delivery.status = .inFlight ∧ desk.held = [] ∧ desk.lost = false)
    (hattempts : delivery'.attempts = delivery.attempts) (hstatus : delivery'.status = .inFlight)
    (hrow : row.attempts = delivery.attempts) :
    Rationed maxAttempts
      (⟨desk.held ++ [.claimed row], desk.posts, desk.lost⟩ : Desk Body) delivery' := by
  have hmore : delivery.attempts < maxAttempts := h.live (hdue.imp_right And.left)
  have hidle : desk.held = [] ∧ desk.lost = false ∧ desk.posts ≤ delivery.attempts := by
    cases h.hand with
    | idle hposts =>
      refine ⟨rfl, rfl, hposts.resolve_right ?_⟩
      intro hsynced
      rw [hsynced] at hdue
      rcases hdue with hdue | ⟨hdue, -⟩ <;> cases hdue
    | lost hne =>
      rcases hdue with hpending | ⟨-, -, hlost⟩
      · exact absurd hpending hne
      · cases hlost
    | busy hne =>
      rcases hdue with hpending | ⟨-, hheld, -⟩
      · exact absurd hpending hne
      · cases hheld
  obtain ⟨hheld, hlost, hposts⟩ := hidle
  rw [hheld, hlost]
  refine ⟨hattempts ▸ h.attempts, fun _ => hattempts ▸ hmore, h.posts, ?_⟩
  refine .busy (by rw [hstatus]; decide) (hrow.trans hattempts.symm) (hattempts ▸ hmore) ?_
  rw [hattempts]
  exact hposts

theorem heldFor_claimed {deliveries : Table GovernancePropagationDelivery}
    {row : GovernancePropagationDelivery} (hkeyed : deliveries.Keyed)
    (hrow : row ∈ claimPendingDeliveries deliveries limit locked now) :
    heldFor row.id ((claimPendingDeliveries deliveries limit locked now).map Task.claimed) =
      [(.claimed row : Task Body)] := by
  have hnodup : Table.Keyed (claimPendingDeliveries deliveries limit locked now) :=
    claimPendingDeliveries_nodup hkeyed
  have hfilter := hnodup.filter_key hrow
  rw [heldFor, List.filter_map]
  exact congrArg (List.map Task.claimed) hfilter

theorem Accounts.claim (h : Accounts maxAttempts i world)
    (hcounts : ∀ row ∈ claimPendingDeliveries world.channels.deliveries limit locked now,
      row.id = i → ∀ delivery, world.channels.deliveries.get i = some delivery →
        delivery.status = .pending ∨ (world.deskOf i).held = [] ∧ (world.deskOf i).lost = false)
    (hchanges : Changes wire secret maxAttempts world.channels (.claim limit locked now)
      { world.channels with
        deliveries := (claimPendingDeliveries world.channels.deliveries limit locked now).foldl
          (fun deliveries row => saveDelivery row now deliveries) world.channels.deliveries }) :
    Accounts maxAttempts i { world with
      channels := { world.channels with
        deliveries := (claimPendingDeliveries world.channels.deliveries limit locked now).foldl
          (fun deliveries row => saveDelivery row now deliveries) world.channels.deliveries },
      tasks := world.tasks ++ (claimPendingDeliveries world.channels.deliveries limit locked now).map
        .claimed } := by
  have hsaves : SavesAll world.channels.deliveries
      (claimPendingDeliveries world.channels.deliveries limit locked now)
      ((claimPendingDeliveries world.channels.deliveries limit locked now).foldl
        (fun deliveries row => saveDelivery row now deliveries) world.channels.deliveries) :=
    claim_savesAll h.sound.deliveries
  have happend : ∀ tasks : List (Task Body), heldFor i (world.tasks ++ tasks) =
      heldFor i world.tasks ++ heldFor i tasks := fun tasks => List.filter_append _ _
  by_cases hclaimed : ∃ row ∈ claimPendingDeliveries world.channels.deliveries limit locked now,
      row.id = i
  · obtain ⟨row, hrow, rfl⟩ := hclaimed
    obtain ⟨delivery, hget, hdue, hcolumns⟩ := mem_claimPendingDeliveries h.sound.deliveries hrow
    obtain ⟨time, hself⟩ := hsaves.self row hrow
    have hrationed := h.present delivery hget
    have hfree : delivery.status = .pending ∨ delivery.status = .inFlight ∧
        (world.deskOf row.id).held = [] ∧ (world.deskOf row.id).lost = false := by
      rcases hcounts row hrow rfl delivery hget with hpending | hidle
      · exact .inl hpending
      · unfold GovernancePropagationDelivery.isDue at hdue
        split at hdue
        · exact .inl (by assumption)
        · exact .inr ⟨by assumption, hidle⟩
        · cases hdue
    refine .of_rationed (hchanges.sound h.sound) hself ?_
    have hattempts : ({ row with updatedAt := time } : GovernancePropagationDelivery).attempts =
        delivery.attempts := by rw [hcolumns]
    have hstatus : ({ row with updatedAt := time } : GovernancePropagationDelivery).status =
        .inFlight := by rw [hcolumns]
    have hsnapshot : row.attempts = delivery.attempts := hattempts
    have hafter := hrationed.claim hfree hattempts hstatus hsnapshot
    simp only [World.deskOf, happend, heldFor_claimed h.sound.deliveries hrow]
    exact hafter
  · have hother : ∀ row ∈ claimPendingDeliveries world.channels.deliveries limit locked now,
        i ≠ row.id := by
      intro row hrow heq
      exact hclaimed ⟨row, hrow, heq.symm⟩
    have hnone : heldFor i ((claimPendingDeliveries world.channels.deliveries limit locked now).map
        Task.claimed) = ([] : List (Task Body)) := by
      rw [heldFor, List.filter_eq_nil_iff]
      intro task htask hid
      obtain ⟨row, hrow, rfl⟩ := List.mem_map.mp htask
      have heq : row.id = i := of_decide_eq_true hid
      exact hother row hrow heq.symm
    have hsame := hsaves.other i hother
    have hdesk : ∀ channels', ({ world with
        channels := channels',
        tasks := world.tasks ++ (claimPendingDeliveries world.channels.deliveries limit locked
          now).map .claimed } : World Body).deskOf i = world.deskOf i := by
      intro channels'
      simp only [World.deskOf, happend, hnone, List.append_nil]
    refine ⟨hchanges.sound h.sound, ?_, ?_⟩
    · intro hget
      rw [hdesk]
      exact h.absent (hsame ▸ hget)
    · intro delivery hget
      rw [hdesk]
      exact h.present delivery (hsame ▸ hget)

end Claims

variable [DecidableEq Body]

/-- A worker puts down a task and takes up the next one for the same claim. -/
theorem Accounts.replace (h : Accounts maxAttempts i world) (hmem : task ∈ world.tasks)
    (hdelivery : next.delivery = task.delivery) (hposted : next.posted = task.posted) :
    Accounts maxAttempts i { world with tasks := next :: world.tasks.erase task } := by
  by_cases hid : task.delivery.id = i
  · obtain ⟨hheld, hlost, delivery, hget, hrationed⟩ := h.of_mem hmem hid
    have hnext : heldFor i (next :: world.tasks.erase task) = [next] := by
      rw [heldFor_cons, if_pos (hdelivery ▸ hid), heldFor_erase, hheld, List.erase_cons_head]
    refine .of_rationed h.sound hget ?_
    simp only [World.deskOf, hnext, hlost, decide_false]
    refine ⟨hrationed.attempts, hrationed.live, hrationed.posts, ?_⟩
    cases hrationed.hand with
    | busy hne hsnapshot hmore hposts =>
      exact .busy hne (hdelivery ▸ hsnapshot) hmore (hposted ▸ hposts)
  · refine h.of_desk rfl ?_
    simp only [World.deskOf, heldFor_cons, hdelivery, if_neg hid, heldFor_erase_of_ne hid]

/-- A request is made under a claim. -/
theorem Accounts.post (h : Accounts maxAttempts i world) (hmem : task ∈ world.tasks)
    (hdelivery : next.delivery = task.delivery) (hunposted : task.posted = false)
    (hposted : next.posted = true) :
    Accounts maxAttempts i { world with
      tasks := next :: world.tasks.erase task, posts := task.delivery.id :: world.posts } := by
  by_cases hid : task.delivery.id = i
  · obtain ⟨hheld, hlost, delivery, hget, hrationed⟩ := h.of_mem hmem hid
    have hnext : heldFor i (next :: world.tasks.erase task) = [next] := by
      rw [heldFor_cons, if_pos (hdelivery ▸ hid), heldFor_erase, hheld, List.erase_cons_head]
    have hcount : (task.delivery.id :: world.posts).count i = world.posts.count i + 1 := by
      rw [hid, List.count_cons_self]
    refine .of_rationed h.sound hget ?_
    simp only [World.deskOf, hnext, hlost, decide_false, hcount]
    cases hrationed.hand with
    | busy hne hsnapshot hmore hposts =>
      rw [hunposted] at hposts
      have hposts : world.posts.count i ≤ delivery.attempts := hposts
      refine ⟨hrationed.attempts, hrationed.live, (Nat.succ_le_succ hposts).trans hmore, ?_⟩
      refine .busy hne (hdelivery ▸ hsnapshot) hmore ?_
      rw [hposted]
      exact Nat.succ_le_succ hposts
  · refine h.of_desk rfl ?_
    simp only [World.deskOf, heldFor_cons, hdelivery, if_neg hid, heldFor_erase_of_ne hid,
      List.count_cons_of_ne hid]

/-- A worker ends with a task undone. -/
theorem Accounts.die (h : Accounts maxAttempts i world) (hmem : task ∈ world.tasks) :
    Accounts maxAttempts i { world with
      tasks := world.tasks.erase task,
      lost := if task.posted then task.delivery.id :: world.lost else world.lost } := by
  by_cases hid : task.delivery.id = i
  · obtain ⟨hheld, hlost, delivery, hget, hrationed⟩ := h.of_mem hmem hid
    have hnone : heldFor i (world.tasks.erase task) = [] := by
      rw [heldFor_erase, hheld, List.erase_cons_head]
    refine .of_rationed h.sound hget ?_
    simp only [World.deskOf, hnone]
    refine ⟨hrationed.attempts, hrationed.live, hrationed.posts, ?_⟩
    cases hrationed.hand with
    | busy hne hsnapshot hmore hposts =>
      cases hposted : task.posted with
      | true =>
        simp only [if_true, hid, List.mem_cons_self, decide_true]
        exact .lost hne
      | false =>
        rw [hposted] at hposts
        simp only [Bool.false_eq_true, if_false, hlost, decide_false]
        exact .idle (.inl hposts)
  · refine h.of_desk rfl ?_
    simp only [World.deskOf, heldFor_erase_of_ne hid]
    split
    · simp [Ne.symm hid]
    · rfl

/-- A worker records the outcome of a task. -/
theorem Accounts.settle (hmax : 1 ≤ maxAttempts) (h : Accounts maxAttempts i world)
    (hmem : task ∈ world.tasks) (hstep : step.settles = some task.delivery)
    (hchanges : Changes wire secret maxAttempts world.channels step channels')
    (hcounts : ∀ delivery, world.channels.deliveries.get task.delivery.id = some delivery →
      delivery.status ≠ .synced → ∃ delivery',
        channels'.deliveries.get task.delivery.id = some delivery' ∧
        delivery'.attempts = task.delivery.attempts + 1) :
    Accounts maxAttempts i { world with
      channels := channels', tasks := world.tasks.erase task } := by
  have hends : step.ends = some task.delivery := by
    cases step with
    | revert => cases hstep
    | _ => exact hstep
  by_cases hid : task.delivery.id = i
  · obtain ⟨hheld, hlost, delivery, hget, hrationed⟩ := h.of_mem hmem hid
    have hnone : heldFor i (world.tasks.erase task) = [] := by
      rw [heldFor_erase, hheld, List.erase_cons_head]
    have hsnapshot : task.delivery.attempts = delivery.attempts := by
      cases hrationed.hand with
      | busy hne hsnapshot => exact hsnapshot
    obtain ⟨propagation, hpair, -⟩ := h.sound.pair hget
    obtain ⟨delivery', propagation', hpair', henvelope, -, hmoves⟩ := hchanges.continues h.sound hpair
    have hget' : channels'.deliveries.get i = some delivery' := by
      have hid' : delivery'.id = i :=
        (GovernancePropagationDelivery.envelope_id henvelope).trans (Table.get_key hget)
      exact hid' ▸ hpair'.found
    obtain ⟨hattempts, hstatus⟩ := hmoves.settles hstep
    have hsettled : Rationed maxAttempts (⟨[], world.posts.count i, false⟩ : Desk Body) delivery' := by
      refine hrationed.settle ?_ ?_
      · intro hsynced
        exact ⟨(hmoves.of_synced hsynced).1, by omega⟩
      · intro hunsynced
        have hcount : delivery'.attempts = delivery.attempts + 1 := by
          rw [hid] at hcounts
          obtain ⟨found, hfound, hcount⟩ := hcounts delivery hget hunsynced
          obtain rfl := Option.some.inj (hfound.symm.trans hget')
          rw [hcount, hsnapshot]
        rcases hstatus with hsame | hsynced | hdecided | ⟨hpending, hmore⟩
        · have hattempts : delivery'.attempts = delivery.attempts := congrArg Progress.attempts hsame
          omega
        · rw [hsynced]
          exact ⟨hcount, fun heq => (by cases heq), by decide⟩
        · refine ⟨hcount, ?_, ?_⟩
          · intro heq
            rw [heq] at hdecided
            cases hdecided
          · intro heq
            rw [heq] at hdecided
            cases hdecided
        · rw [hpending]
          exact ⟨hcount, fun _ => by omega, by decide⟩
    refine .of_rationed (hchanges.sound h.sound) hget' ?_
    simp only [World.deskOf, hnone, hlost, decide_false]
    exact hsettled
  · refine Accounts.rest hmax h hchanges ?_ ?_ ?_ ?_
    · simp only [World.deskOf, heldFor_erase_of_ne hid]
    · rintro limit locked now rfl
      cases hstep
    · intro other hother
      obtain rfl := Option.some.inj (hends.symm.trans hother)
      exact hid
    · intro delivery _
      cases step with
      | update => cases hstep
      | _ => rfl

/-- A worker returns a claim under which it made no request. -/
theorem Accounts.revert {posted : Bool} {lastError : String} {now : Timestamp}
    (hmax : 1 ≤ maxAttempts) (h : Accounts maxAttempts i world) (hmem : task ∈ world.tasks)
    (hposted : task.delivery.id = i → task.posted = false)
    (hchanges : Changes wire secret maxAttempts world.channels
      (.revert task.delivery posted lastError now) channels') :
    Accounts maxAttempts i { world with
      channels := channels', tasks := world.tasks.erase task } := by
  by_cases hid : task.delivery.id = i
  · obtain ⟨hheld, hlost, delivery, hget, hrationed⟩ := h.of_mem hmem hid
    have hnone : heldFor i (world.tasks.erase task) = [] := by
      rw [heldFor_erase, hheld, List.erase_cons_head]
    obtain ⟨propagation, hpair, -⟩ := h.sound.pair hget
    obtain ⟨delivery', propagation', hpair', henvelope, -, hmoves⟩ := hchanges.continues h.sound hpair
    have hid' : delivery'.id = i :=
      (GovernancePropagationDelivery.envelope_id henvelope).trans (Table.get_key hget)
    refine .of_rationed (hchanges.sound h.sound) (hid' ▸ hpair'.found) ?_
    simp only [World.deskOf, hnone, hlost, decide_false]
    cases hrationed.hand with
    | busy hne hsnapshot hmore hposts =>
      rw [hposted hid] at hposts
      refine ⟨?_, ?_, hrationed.posts, .idle (.inl ?_)⟩
      · rw [hmoves.returns]
        exact hrationed.attempts
      · intro _
        rw [hmoves.returns]
        exact hmore
      · rw [hmoves.returns]
        exact hposts
  · refine Accounts.rest hmax h hchanges ?_ ?_ ?_ ?_
    · simp only [World.deskOf, heldFor_erase_of_ne hid]
    · intro limit locked now heq
      cases heq
    · intro other hother
      obtain rfl := Option.some.inj hother
      exact hid
    · intro delivery _
      rfl

/-- The requests of the row stay within their budget: a lease is taken over only from a worker that is
done with it, every request of which was recorded, and a claim is returned only before its request. -/
def Step.counts (step : Step Body) (i : Uuid) (world : World Body) : Bool :=
  match step with
  | .claim limit locked now =>
    (claimPendingDeliveries world.channels.deliveries limit locked now).all (·.id ≠ i) ||
      (world.channels.deliveries.get i).all fun delivery => delivery.status = .pending ||
        (world.deskOf i).held.isEmpty && !(world.deskOf i).lost
  | .revert claimed posted _ _ => claimed.id ≠ i || !posted
  | _ => true

/-- No operator asks for the row again. -/
def Step.leaves (step : Step Body) (i : Uuid) (channels : Channels) : Bool :=
  (channels.deliveries.get i).all fun delivery => !step.repends delivery

theorem finish_accounts (hmax : 1 ≤ maxAttempts) {result : Delivering Channels} {posted : Bool}
    (h : Accounts maxAttempts i world) (hmem : task ∈ world.tasks)
    (hchanges : ∀ channels', result = .ok channels' →
      Changes wire secret maxAttempts world.channels step channels')
    (hstep : step.settles = some task.delivery) (hposted : posted = task.posted)
    (hcounts : ∀ channels', result = .ok channels' → ∀ delivery,
      world.channels.deliveries.get task.delivery.id = some delivery →
      delivery.status ≠ .synced → ∃ delivery',
        channels'.deliveries.get task.delivery.id = some delivery' ∧
        delivery'.attempts = task.delivery.attempts + 1) :
    Accounts maxAttempts i (({ world with tasks := world.tasks.erase task } : World Body).finish
      task.delivery posted result) := by
  unfold World.finish
  split
  · rename_i channels'
    exact h.settle hmax hmem hstep (hchanges channels' rfl) (hcounts channels' rfl)
  · exact h.replace hmem rfl hposted

theorem perform_accounts (hmax : 1 ≤ maxAttempts) :
    Preserves (perform wire env secret maxAttempts)
      (fun world step => step.leaves i world.channels ∧ step.counts i world)
      (Accounts maxAttempts i) := by
  rintro world world' step h ⟨hleaves, hcounts⟩ hperform
  have hchanges := perform_changes hperform
  have hrepends : ∀ delivery, world.channels.deliveries.get i = some delivery →
      step.repends delivery = false := by
    intro delivery hget
    simpa [Step.leaves, hget] using hleaves
  have hexternal : (∀ limit locked now, step ≠ .claim limit locked now) → step.ends = none →
      world'.deskOf i = world.deskOf i → Accounts maxAttempts i world' := by
    intro hclaim hends hdesk
    refine Accounts.rest hmax h hchanges hdesk hclaim ?_ hrepends
    intro claimed hclaimed
    rw [hends] at hclaimed
    cases hclaimed
  cases step with
  | govern eventId event =>
    simp only [perform, bind_ok, pure_ok] at hperform
    obtain ⟨-, -, result, -, rfl⟩ := hperform
    exact hexternal (fun _ _ _ heq => by cases heq) rfl rfl
  | publish command =>
    simp only [perform, bind_ok, pure_ok] at hperform
    obtain ⟨channels', -, rfl⟩ := hperform
    exact hexternal (fun _ _ _ heq => by cases heq) rfl rfl
  | update command actorId eventId now =>
    simp only [perform, bind_ok, pure_ok] at hperform
    obtain ⟨result, -, rfl⟩ := hperform
    exact hexternal (fun _ _ _ heq => by cases heq) rfl rfl
  | acknowledge deliveryId body signature eventId now =>
    simp only [perform, bind_ok, pure_ok] at hperform
    obtain ⟨result, -, rfl⟩ := hperform
    exact hexternal (fun _ _ _ heq => by cases heq) rfl rfl
  | claim limit locked now =>
    simp only [perform, bind_ok, require_ok, pure_ok] at hperform
    obtain ⟨-, -, rfl⟩ := hperform
    refine h.claim ?_ hchanges
    intro row hrow hid delivery hget
    simp only [Step.counts, Bool.or_eq_true, List.all_eq_true, hget, Option.all_some,
      Bool.and_eq_true, decide_eq_true_eq, List.isEmpty_iff, Bool.not_eq_true'] at hcounts
    rcases hcounts with hnone | hfree
    · exact absurd hid (hnone row hrow)
    · exact hfree
  | skip delivery lastError =>
    simp only [perform, bind_ok, pure_ok] at hperform
    obtain ⟨middle, htake, rfl⟩ := hperform
    obtain ⟨hmem, rfl⟩ := takeUp_ok htake
    exact h.replace hmem rfl rfl
  | reject delivery error occurredAt eventId now =>
    simp only [perform, bind_ok, pure_ok] at hperform
    obtain ⟨middle, htake, rfl⟩ := hperform
    obtain ⟨hmem, rfl⟩ := takeUp_ok htake
    have hresult : ∀ channels', recordTerminal world.channels delivery.id
        ⟨max 1 (delivery.attempts + 1), some error, none, occurredAt⟩ .failed
        "delivery_destination_rejected" eventId now = .ok channels' →
        Changes wire secret maxAttempts world.channels
          (.reject delivery error occurredAt eventId now) channels' :=
      fun _ => rejectOutcome_changes
    refine finish_accounts hmax h hmem hresult rfl rfl ?_
    intro channels' hresult found hget hunsynced
    have hcount := recordTerminal_attempts hresult hget hunsynced
    have hnumber : max 1 (delivery.attempts + 1) = delivery.attempts + 1 := by omega
    rw [hnumber] at hcount
    exact hcount
  | post delivery reply occurredAt =>
    simp only [perform, bind_ok, pure_ok] at hperform
    obtain ⟨middle, htake, rfl⟩ := hperform
    obtain ⟨hmem, rfl⟩ := takeUp_ok htake
    refine h.post hmem ?_ rfl ?_
    · unfold afterRequest
      split <;> rfl
    · unfold afterRequest
      split <;> rfl
  | record delivery outcome occurredAt eventId now =>
    simp only [perform, bind_ok, pure_ok] at hperform
    obtain ⟨middle, htake, rfl⟩ := hperform
    obtain ⟨hmem, rfl⟩ := takeUp_ok htake
    refine finish_accounts hmax h hmem (fun _ hresult => recordOutcome_changes hresult) rfl rfl ?_
    intro channels' hresult found hget hunsynced
    exact recordOutcome_attempts hresult hget hunsynced
  | revert delivery posted lastError now =>
    simp only [perform, bind_ok, pure_ok] at hperform
    obtain ⟨middle, htake, rfl⟩ := hperform
    obtain ⟨hmem, rfl⟩ := takeUp_ok htake
    refine h.revert hmax hmem ?_ hchanges
    intro hid
    have hid : delivery.id = i := hid
    have hunposted : posted = false := by simpa [Step.counts, hid] using hcounts
    exact hunposted
  | die task =>
    simp only [perform, bind_ok, pure_ok] at hperform
    obtain ⟨middle, htake, rfl⟩ := hperform
    obtain ⟨hmem, rfl⟩ := takeUp_ok htake
    exact h.die hmem

end Accounts

/-- The requests for a delivery stay within its budget. Once they have used it up, and none is under
way or unaccounted for, the delivery has ended; no worker then has a claim on it. -/
structure Bounded (maxAttempts : Nat) (i : Uuid) (world : World Body) : Prop where
  posts : world.posts.count i ≤ maxAttempts
  ended : maxAttempts ≤ world.posts.count i → (world.deskOf i).held = [] →
    (world.deskOf i).lost = false → ∃ delivery, world.channels.deliveries.get i = some delivery ∧
      (delivery.status = .synced ∨ delivery.status = .failed ∨ delivery.status = .deadLetter)
  unclaimed : ∀ delivery, .claimed delivery ∈ world.tasks → delivery.id = i →
    world.posts.count i < maxAttempts

theorem Accounts.bounded {world : World Body} (hmax : 1 ≤ maxAttempts)
    (h : Accounts maxAttempts i world) : Bounded maxAttempts i world := by
  have hposts : (world.deskOf i).posts = world.posts.count i := rfl
  constructor
  · cases hget : world.channels.deliveries.get i with
    | none =>
      rw [← hposts, h.absent hget]
      exact Nat.zero_le _
    | some delivery => exact (h.present delivery hget).posts
  · intro hspent hheld hlost
    cases hget : world.channels.deliveries.get i with
    | none =>
      rw [← hposts, h.absent hget] at hspent
      exact absurd hmax (Nat.not_le.mpr (Nat.lt_succ_of_le hspent))
    | some delivery =>
      refine ⟨delivery, rfl, ?_⟩
      have hrationed := h.present delivery hget
      have hhand := hrationed.hand
      generalize world.deskOf i = desk at hposts hheld hlost hhand
      cases hhand with
      | idle hcount =>
        have hcount : delivery.attempts < maxAttempts → delivery.status = .synced := by
          intro hless
          refine hcount.resolve_left ?_
          intro hle
          dsimp only at hposts
          omega
        have hlive := hrationed.live
        cases hstatus : delivery.status with
        | pending => exact .inl (hstatus ▸ hcount (hlive (.inl hstatus)))
        | inFlight => exact .inl (hstatus ▸ hcount (hlive (.inr hstatus)))
        | synced => exact .inl rfl
        | failed => exact .inr (.inl rfl)
        | deadLetter => exact .inr (.inr rfl)
      | lost => cases hlost
      | busy => cases hheld
  · intro claimed hmem hid
    obtain ⟨-, -, delivery, -, hrationed⟩ := h.of_mem hmem hid
    cases hrationed.hand with
    | busy hne hsnapshot hmore hcount => exact Nat.lt_of_le_of_lt hcount hmore

/-- In a run in which no operator asks for the delivery again, no claim is returned after its request
and no lease is taken over from a worker that is not done with it, at most `maxAttempts` requests are
made for a delivery. -/
theorem run_bounded [DecidableEq Body] (wire : Wire Body) (env : Platform) (secret : String)
    (maxAttempts : Nat) (hmax : 1 ≤ maxAttempts) (i : Uuid) (steps : List (Step Body))
    (hleaves : Meets (perform wire env secret maxAttempts)
      (fun world step => step.leaves i world.channels) {} steps)
    (hcounts : Meets (perform wire env secret maxAttempts)
      (fun world step => step.counts i world) {} steps) :
    Bounded maxAttempts i (run (perform wire env secret maxAttempts) {} steps) := by
  have hkeeps : Preserves (perform wire env secret maxAttempts)
      (fun world step => step.leaves i world.channels ∧ step.counts i world)
      (Accounts maxAttempts i) :=
    perform_accounts hmax
  exact (hkeeps.run accounts_empty (hleaves.and hcounts)).bounded hmax

section Uncounted

/-- A newer publication of the same page. -/
def republishCommand : QualifiedPublish :=
  { publishCommand with
    publication := { publishCommand.publication with
      id := 25, draftId := 21, commandId := "publish-2", objectVersion := 2, publishedAt := 2 },
    eventId := 34, targetChannels := [⟨"agent-copilot", 26, 27⟩] }

def republished : List (Step String) := [
  reviewed 21 31 .proposalCreated none .draft,
  reviewed 21 32 .reviewRequested (some .draft) .inReview,
  reviewed 21 33 .approved (some .inReview) .approved, .publish republishCommand]

def answered : DeliveryAttemptOutcome String := .synced 200 ackBody ("sha256=" ++ ackHmac)

/-- The channel acknowledges a version that is superseded before the answer is recorded; the claim is
returned, and the next sweep sends the delivery once more. -/
def superseded : List (Step String) :=
  published ++ [.claim 10 [] 1, .post claimedDelivery (.response 200 ackBody ("sha256=" ++ ackHmac)) 1]
    ++ republished ++ [
    .record claimedDelivery answered 1 17 3,
    .revert claimedDelivery true "sweep_crashed_deliveryackconflict" 4, .claim 10 [] 5,
    .post { claimedDelivery with
      lastError := some "sweep_crashed_deliveryackconflict", updatedAt := 4 } .timeout 5]

theorem superseded_leaves :
    Meets (perform consumer failure "secret" 1) (fun world step => step.leaves 7 world.channels) {}
      superseded := by
  decide +kernel

theorem returned_after_post :
    ¬ ∀ (i : Uuid) (steps : List (Step String)),
      Meets (perform consumer failure "secret" 1) (fun world step => step.leaves i world.channels)
        {} steps →
      Bounded 1 i (run (perform consumer failure "secret" 1) {} steps) := by
  intro h
  have hposts := (h 7 superseded superseded_leaves).posts
  have hcount : (run (perform consumer failure "secret" 1) {} superseded).posts.count 7 = 2 := by
    decide +kernel
  rw [hcount] at hposts
  exact absurd hposts (by decide)

/-- The only request times out. -/
def exhausted : List (Step String) := published ++ [
  .claim 10 [] 1, .post claimedDelivery .timeout 1,
  .record claimedDelivery (.unsynced true none "delivery_timeout") 1 17 3, .claim 10 [] 4]

theorem exhausted_bounded :
    (run (perform consumer failure "secret" 1) {} exhausted).posts.count 7 = 1 ∧
      Bounded 1 7 (run (perform consumer failure "secret" 1) {} exhausted) := by
  have hleaves : Meets (perform consumer failure "secret" 1)
      (fun world step => step.leaves 7 world.channels) {} exhausted := by
    decide +kernel
  have hcounts : Meets (perform consumer failure "secret" 1)
      (fun world step => step.counts 7 world) {} exhausted := by
    decide +kernel
  exact ⟨by decide +kernel,
    run_bounded consumer failure "secret" 1 (by decide) 7 exhausted hleaves hcounts⟩

end Uncounted

end Cygnus.Delivery
