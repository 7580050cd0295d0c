import Cygnus.Delivery.DrainLaws

/-! Sweeps one after the other: the due rows are a queue that each sweep serves from its head. -/

namespace Cygnus.Delivery

open Wiki Text Result Sequence Governance HeadOfLine Url

section Due

/-- The due rows, oldest first. -/
def openRows (deliveries : Table GovernancePropagationDelivery) (now : Timestamp) :
    List GovernancePropagationDelivery :=
  sortedBy GovernancePropagationDelivery.age (deliveries.filter (·.isDue now))

variable {deliveries deliveries' : Table GovernancePropagationDelivery} {limit : Nat}
  {now : Timestamp} {row : GovernancePropagationDelivery}

theorem dueDeliveries_eq :
    dueDeliveries deliveries limit [] now = (openRows deliveries now).take limit := by
  simp [dueDeliveries, openRows]

theorem mem_openRows : row ∈ openRows deliveries now ↔ row ∈ deliveries ∧ row.isDue now = true := by
  rw [openRows, mem_sortedBy, List.mem_filter]

/-- What holds of all rows apart from one another holds of the due ones. -/
theorem nodup_openRows {α : Type} {f : GovernancePropagationDelivery → α}
    (h : (deliveries.map f).Nodup) : ((openRows deliveries now).map f).Nodup := by
  rw [openRows, ((perm_sortedBy _ _).map f).nodup_iff]
  exact h.sublist (List.filter_sublist.map f)

theorem nodup_take {α : Type} {f : GovernancePropagationDelivery → α} (limit : Nat)
    (h : (deliveries.map f).Nodup) : (((openRows deliveries now).take limit).map f).Nodup :=
  (nodup_openRows h).sublist ((List.take_sublist _ _).map f)

/-- A table with the same keys is the old one with each row replaced. -/
theorem eq_map_get (hkeyed : deliveries.Keyed)
    (hkeys : deliveries'.map Row.key = deliveries.map Row.key) :
    deliveries' = deliveries.map fun row => (deliveries'.get row.id).getD row := by
  have hkeyed' : deliveries'.Keyed := by
    rw [Table.Keyed, hkeys]
    exact hkeyed
  have hself : deliveries'.map some = deliveries.map fun row => deliveries'.get row.id := by
    calc deliveries'.map some
        = deliveries'.map fun row => deliveries'.get (Row.key row) :=
          List.map_congr_left fun row hrow => (hkeyed'.get_of_mem hrow).symm
      _ = (deliveries'.map Row.key).map deliveries'.get := by
        rw [List.map_map]
        rfl
      _ = deliveries.map fun row => deliveries'.get row.id := by
        rw [hkeys, List.map_map]
        rfl
  apply List.map_injective_iff.mpr (Option.some_injective _)
  rw [hself, List.map_map]
  apply List.map_congr_left
  intro row hrow
  have hsome : deliveries'.get row.id ∈ deliveries'.map some := by
    rw [hself]
    exact List.mem_map_of_mem hrow
  obtain ⟨row', -, hrow'⟩ := List.mem_map.mp hsome
  simp [← hrow']

/-- Sorting rows whose ages a change leaves alone. -/
theorem sortedBy_age_map {f : GovernancePropagationDelivery → GovernancePropagationDelivery}
    {rows : List GovernancePropagationDelivery} (hage : ∀ row ∈ rows, (f row).age = row.age) :
    sortedBy GovernancePropagationDelivery.age (rows.map f) =
      (sortedBy GovernancePropagationDelivery.age rows).map f := by
  symm
  apply List.map_insertionSort
  intro first hfirst second hsecond
  rw [hage first hfirst, hage second hsecond]

end Due

section Claims

variable {Body T : Type}

/-- The keys of the delivery table: the primary one and the propagation. -/
structure Constrained (channels : Channels) : Prop where
  keyed : channels.deliveries.Keyed
  single : (channels.deliveries.map fun row => row.propagationId).Nodup

/-- The identifiers that a sweep draws are free and differ from row to row. -/
structure Draws (call : SweepCall Body T) (channels : Channels) : Prop where
  distinct : (channels.deliveries.map fun row => call.eventId row.id).Nodup
  free : ∀ row ∈ channels.deliveries, channels.ledger.get (call.eventId row.id) = none

variable {limit : Nat} {outbox : Outbox T} {call : SweepCall Body T}

theorem map_claimed {α : Type} (f : GovernancePropagationDelivery → α)
    (hf : ∀ row, f { row with status := .inFlight } = f row) :
    (claimPendingDeliveries outbox.channels.deliveries limit [] call.now).map f =
      ((openRows outbox.channels.deliveries call.now).take limit).map f := by
  rw [claimPendingDeliveries, dueDeliveries_eq, List.map_map]
  exact List.map_congr_left fun row _ => hf row

theorem claim_savesAll_open (hkeyed : outbox.channels.deliveries.Keyed) :
    SavesAll outbox.channels.deliveries
      (claimPendingDeliveries outbox.channels.deliveries limit [] call.now)
      (outbox.claim (claimPendingDeliveries outbox.channels.deliveries limit [] call.now)
        call.now).channels.deliveries :=
  claim_savesAll hkeyed

/-- A claim holds its rows until they are handled. -/
theorem claim_batch (hconstrained : Constrained outbox.channels)
    (hdraws : Draws call outbox.channels) :
    Batch call (outbox.claim (claimPendingDeliveries outbox.channels.deliveries limit [] call.now)
        call.now).channels
      (claimPendingDeliveries outbox.channels.deliveries limit [] call.now) := by
  have hsaves := @claim_savesAll_open Body T limit outbox call hconstrained.keyed
  refine ⟨fun row hrow => ?_, claimPendingDeliveries_nodup hconstrained.keyed, ?_, ?_⟩
  · obtain ⟨time, hself⟩ := hsaves.self row hrow
    obtain ⟨delivery, hfound, -, hclaimed⟩ := mem_claimPendingDeliveries hconstrained.keyed hrow
    refine ⟨⟨_, hself, ?_, rfl⟩, ?_⟩
    · have hstatus : row.status = .inFlight :=
        congrArg GovernancePropagationDelivery.status hclaimed
      show row.status ≠ .synced
      rw [hstatus]
      decide
    · have hid : delivery.id = row.id := Table.get_key hfound
      rw [← hid]
      exact hdraws.free delivery (Table.get_mem hfound)
  · rw [map_claimed _ fun _ => rfl]
    exact nodup_take limit hconstrained.single
  · rw [map_claimed _ fun _ => rfl]
    exact nodup_take limit hdraws.distinct

/-- What a sweep that makes no request does to a row: what it claimed is put back or has failed, and
the rest stays. -/
theorem idle_rows (hconstrained : Constrained outbox.channels) {next : Outbox T}
    {kind : GovernancePropagationDelivery → Kind}
    (hkind : ∀ row, kind { row with status := .inFlight } = kind row)
    (hidle : IdleBatch (outbox.claim
        (claimPendingDeliveries outbox.channels.deliveries limit [] call.now) call.now) next
      (claimPendingDeliveries outbox.channels.deliveries limit [] call.now) kind) :
    (∀ row ∈ (openRows outbox.channels.deliveries call.now).take limit,
      Stands next.channels row (idleStatus (kind row))) ∧
    ∀ row ∈ outbox.channels.deliveries,
      row ∉ (openRows outbox.channels.deliveries call.now).take limit →
      next.channels.deliveries.get row.id = some row := by
  have hclaimed : ∀ row ∈ (openRows outbox.channels.deliveries call.now).take limit,
      { row with status := .inFlight } ∈
        claimPendingDeliveries outbox.channels.deliveries limit [] call.now := by
    intro row hrow
    rw [claimPendingDeliveries, dueDeliveries_eq]
    exact List.mem_map_of_mem hrow
  constructor
  · intro row hrow
    have hstands := hidle.stands _ (hclaimed row hrow)
    rw [hkind] at hstands
    exact hstands
  · intro row hrow hnot
    have hother : ∀ claimed ∈ claimPendingDeliveries outbox.channels.deliveries limit [] call.now,
        row.id ≠ claimed.id := by
      intro claimed hmem heq
      rw [claimPendingDeliveries, dueDeliveries_eq] at hmem
      obtain ⟨found, hfound, rfl⟩ := List.mem_map.mp hmem
      have hsame : row = found := hconstrained.keyed.eq_of_key hrow
        (mem_openRows.mp (List.mem_of_mem_take hfound)).1 heq
      exact hnot (hsame ▸ hfound)
    rw [hidle.deliveries row.id hother,
      (claim_savesAll_open hconstrained.keyed).other row.id hother]
    exact hconstrained.keyed.get_of_mem hrow

/-- The row as it stands in the next outbox. -/
def rowIn (next : Outbox T) (row : GovernancePropagationDelivery) : GovernancePropagationDelivery :=
  (next.channels.deliveries.get row.id).getD row

/-- The row has been claimed and has left the queue. -/
def hasLeft (limit : Nat) (outbox : Outbox T) (now : Timestamp)
    (kind : GovernancePropagationDelivery → Kind) (row : GovernancePropagationDelivery) : Bool :=
  decide (row ∈ (openRows outbox.channels.deliveries now).take limit) &&
    decide (kind row = .leaving)

/-- How each row stands after a sweep that makes no request. -/
structure Swept (limit : Nat) (outbox next : Outbox T) (now : Timestamp)
    (kind : GovernancePropagationDelivery → Kind) (row : GovernancePropagationDelivery) : Prop where
  age : (rowIn next row).age = row.age
  propagation : (rowIn next row).propagationId = row.propagationId
  due : (rowIn next row).isDue now = (row.isDue now && !hasLeft limit outbox now kind row)
  stake : hasLeft limit outbox now kind row = false → (rowIn next row).stake = row.stake

theorem idle_swept (hconstrained : Constrained outbox.channels) {next : Outbox T}
    {kind : GovernancePropagationDelivery → Kind}
    (hkind : ∀ row, kind { row with status := .inFlight } = kind row)
    (hidle : IdleBatch (outbox.claim
        (claimPendingDeliveries outbox.channels.deliveries limit [] call.now) call.now) next
      (claimPendingDeliveries outbox.channels.deliveries limit [] call.now) kind) :
    ∀ row ∈ outbox.channels.deliveries, Swept limit outbox next call.now kind row := by
  obtain ⟨htaken, hleft⟩ := idle_rows hconstrained hkind hidle
  intro row hrow
  by_cases hmem : row ∈ (openRows outbox.channels.deliveries call.now).take limit
  · obtain ⟨delivery, hfound, hstatus, hage, hpropagation, hstake⟩ := htaken row hmem
    have hin : rowIn next row = delivery := by
      rw [rowIn, hfound, Option.getD_some]
    have hdue : row.isDue call.now = true := (mem_openRows.mp (List.mem_of_mem_take hmem)).2
    have hgone : hasLeft limit outbox call.now kind row = decide (kind row = .leaving) := by
      rw [hasLeft, decide_eq_true hmem, Bool.true_and]
    refine ⟨by rw [hin, hage], by rw [hin, hpropagation], ?_, fun hstays => ?_⟩
    · rw [hin, hgone, hdue, GovernancePropagationDelivery.isDue, hstatus]
      cases kind row <;> rfl
    · rw [hin]
      apply hstake
      rw [hgone] at hstays
      cases hk : kind row with
      | leaving => simp [hk] at hstays
      | stuck => decide
      | ready => decide
  · have hin : rowIn next row = row := by
      rw [rowIn, hleft row hrow hmem, Option.getD_some]
    have hgone : hasLeft limit outbox call.now kind row = false := by
      rw [hasLeft, decide_eq_false hmem, Bool.false_and]
    exact ⟨by rw [hin], by rw [hin], by rw [hin, hgone, Bool.not_false, Bool.and_true],
      fun _ => by rw [hin]⟩

/-- The due rows of the next outbox are the old ones without those that left. -/
theorem idle_openRows (hconstrained : Constrained outbox.channels) {next : Outbox T}
    {now : Timestamp} {kind : GovernancePropagationDelivery → Kind}
    (hkeys : next.channels.deliveries.map Row.key = outbox.channels.deliveries.map Row.key)
    (hswept : ∀ row ∈ outbox.channels.deliveries, Swept limit outbox next now kind row) :
    openRows next.channels.deliveries now =
      ((openRows outbox.channels.deliveries now).filter fun row =>
        !hasLeft limit outbox now kind row).map (rowIn next) := by
  have hrows : next.channels.deliveries = outbox.channels.deliveries.map (rowIn next) :=
    eq_map_get hconstrained.keyed hkeys
  have hfilter : (outbox.channels.deliveries.map (rowIn next)).filter (·.isDue now) =
      ((outbox.channels.deliveries.filter (·.isDue now)).filter fun row =>
        !hasLeft limit outbox now kind row).map (rowIn next) := by
    rw [List.filter_map, List.filter_filter]
    congr 1
    apply List.filter_congr
    intro row hrow
    rw [Function.comp_apply, (hswept row hrow).due, Bool.and_comm]
  rw [openRows, hrows, hfilter, sortedBy_age_map, sortedBy_filter, openRows]
  intro row hrow
  exact (hswept row (List.mem_of_mem_filter (List.mem_of_mem_filter hrow))).age

/-- Who leaves stood among the claimed. -/
theorem filter_hasLeft (hconstrained : Constrained outbox.channels) (now : Timestamp)
    (kind : GovernancePropagationDelivery → Kind) :
    ((openRows outbox.channels.deliveries now).filter fun row =>
        !hasLeft limit outbox now kind row) =
      ((openRows outbox.channels.deliveries now).take limit).filter (fun row =>
          decide (kind row ≠ .leaving)) ++
        (openRows outbox.channels.deliveries now).drop limit := by
  have hnodup : (openRows outbox.channels.deliveries now).Nodup :=
    (nodup_openRows hconstrained.keyed).of_map _
  conv_lhs => rw [← List.take_append_drop limit (openRows outbox.channels.deliveries now)]
  rw [List.filter_append]
  congr 1
  · apply List.filter_congr
    intro row hrow
    rw [hasLeft, decide_eq_true hrow, Bool.true_and]
    simp
  · rw [List.filter_eq_self]
    intro row hrow
    have hnot : row ∉ (openRows outbox.channels.deliveries now).take limit :=
      fun htake => List.disjoint_take_drop hnodup (Nat.le_refl limit) htake hrow
    rw [hasLeft, decide_eq_false hnot, Bool.false_and, Bool.not_false]

/-- A kind that is not asked for a row that left is what it was. -/
theorem idle_agrees (hconstrained : Constrained outbox.channels) {next : Outbox T}
    {kind : GovernancePropagationDelivery → Kind}
    (hkind : ∀ row, kind { row with status := .inFlight } = kind row)
    (hidle : IdleBatch (outbox.claim
        (claimPendingDeliveries outbox.channels.deliveries limit [] call.now) call.now) next
      (claimPendingDeliveries outbox.channels.deliveries limit [] call.now) kind)
    {row : GovernancePropagationDelivery} (hrow : row ∈ outbox.channels.deliveries)
    (hstays : hasLeft limit outbox call.now kind row = false) :
    Agrees outbox.channels next.channels row := by
  have hclaim : Agrees outbox.channels (outbox.claim (claimPendingDeliveries
      outbox.channels.deliveries limit [] call.now) call.now).channels row :=
    ⟨rfl, rfl, fun _ => rfl, rfl⟩
  refine hclaim.trans (hidle.agrees row fun claimed hclaimed hleaves => ?_)
  rw [claimPendingDeliveries, dueDeliveries_eq] at hclaimed
  obtain ⟨found, hfound, rfl⟩ := List.mem_map.mp hclaimed
  have hmem : found ∈ outbox.channels.deliveries :=
    (mem_openRows.mp (List.mem_of_mem_take hfound)).1
  have hne : row ≠ found := by
    rintro rfl
    rw [hkind] at hleaves
    simp [hasLeft, hfound, hleaves] at hstays
  refine ⟨fun heq => hne (hconstrained.keyed.eq_of_key hrow hmem heq), fun heq => hne ?_⟩
  exact List.inj_on_of_nodup_map hconstrained.single hrow hmem heq

/-- What the claim writes does not bear on the kind of a row. -/
theorem claim_agrees (rows : List GovernancePropagationDelivery)
    (row : GovernancePropagationDelivery) :
    Agrees outbox.channels (outbox.claim rows call.now).channels row :=
  ⟨rfl, rfl, fun _ => rfl, rfl⟩

end Claims

section Sweeps

variable {Body T : Type} [Clock T] (settings : SweepSettings Body)
  (breaker : DeliveryCircuitBreaker T)

/-- The hosts and ports of the targets; none where a target cannot be read. -/
def SweepSettings.origins : List Chars := settings.allowedOrigins.toOption.getD []

/-- The due rows as kinds, oldest first. -/
def queue (now : Timestamp) (time : T) (outbox : Outbox T) : List Kind :=
  (openRows outbox.channels.deliveries now).map
    (kindOf settings breaker settings.origins outbox.circuits time now outbox.channels)

variable {settings breaker} {limit : Nat} {outbox : Outbox T} {call : SweepCall Body T}

/-- A sweep that gets as far as its claim. -/
theorem sweep_eq (hlimit : 1 ≤ limit ∧ limit ≤ deliverySweepLimit) {origins : List Chars}
    (horigins : settings.allowedOrigins = .ok origins) :
    sweep settings breaker limit outbox call =
      (claimPendingDeliveries outbox.channels.deliveries limit [] call.now).foldl
        (executeDeliveryClaim settings breaker settings.origins call)
        (outbox.claim (claimPendingDeliveries outbox.channels.deliveries limit [] call.now)
          call.now) := by
  have horigins' : settings.origins = origins := by
    rw [SweepSettings.origins, horigins]
    rfl
  rw [sweep, drainPropagationDeliveries, require_of hlimit, ok_bind, horigins, horigins']
  rfl

/-- The kinds of the claimed rows are the front of the queue. -/
theorem kinds_claimed (rows : List GovernancePropagationDelivery) :
    (claimPendingDeliveries outbox.channels.deliveries limit [] call.now).map
        (kindOf settings breaker settings.origins (outbox.claim rows call.now).circuits call.time
          call.now (outbox.claim rows call.now).channels) =
      (queue settings breaker call.now call.time outbox).take limit := by
  rw [queue, ← List.map_take, claimPendingDeliveries, dueDeliveries_eq, List.map_map]
  apply List.map_congr_left
  intro row _
  exact (kindOf_congr rfl).trans (claim_agrees rows row).kindOf

/-- A sweep whose round serves makes a request. -/
theorem sweep_serves (hconstrained : Constrained outbox.channels)
    (hdraws : Draws call outbox.channels) (hlimit : 1 ≤ limit ∧ limit ≤ deliverySweepLimit)
    {origins : List Chars} (horigins : settings.allowedOrigins = .ok origins)
    (hround : HeadOfLine.round limit (queue settings breaker call.now call.time outbox) = none) :
    (sweep settings breaker limit outbox call).dispatched ≠ outbox.dispatched := by
  have hready : .ready ∈ (queue settings breaker call.now call.time outbox).take limit := by
    by_contra hnone
    rw [HeadOfLine.round, if_neg hnone] at hround
    cases hround
  rw [← kinds_claimed (claimPendingDeliveries outbox.channels.deliveries limit [] call.now)]
    at hready
  obtain ⟨row, hrow, hkind⟩ := List.mem_map.mp hready
  rw [sweep_eq hlimit horigins]
  intro hsame
  exact (executeAll_dispatched_iff (claim_batch hconstrained hdraws)).mp hsame row hrow hkind

/-- A sweep whose round serves nothing leaves the rest of the queue. -/
theorem sweep_idle (hconstrained : Constrained outbox.channels)
    (hdraws : Draws call outbox.channels) (hlimit : 1 ≤ limit ∧ limit ≤ deliverySweepLimit)
    {origins : List Chars} (horigins : settings.allowedOrigins = .ok origins) {rest : List Kind}
    (hround : HeadOfLine.round limit (queue settings breaker call.now call.time outbox) =
      some rest) :
    (sweep settings breaker limit outbox call).dispatched = outbox.dispatched ∧
      queue settings breaker call.now call.time (sweep settings breaker limit outbox call) = rest ∧
      Constrained (sweep settings breaker limit outbox call).channels := by
  have hnone : .ready ∉ (queue settings breaker call.now call.time outbox).take limit := by
    intro hready
    rw [HeadOfLine.round, if_pos hready] at hround
    cases hround
  rw [HeadOfLine.round, if_neg hnone] at hround
  cases hround
  let claimed := claimPendingDeliveries outbox.channels.deliveries limit [] call.now
  let kind := kindOf settings breaker settings.origins (outbox.claim claimed call.now).circuits
    call.time call.now (outbox.claim claimed call.now).channels
  have hunready : ∀ row ∈ claimed, kind row ≠ .ready := by
    intro row hrow hkind
    rw [← kinds_claimed claimed] at hnone
    exact hnone (List.mem_map.mpr ⟨row, hrow, hkind⟩)
  have hidle : IdleBatch (outbox.claim claimed call.now)
      (sweep settings breaker limit outbox call) claimed kind := by
    rw [sweep_eq hlimit horigins]
    exact executeAll_idle (claim_batch hconstrained hdraws) hunready
  have hkind : ∀ row, kind { row with status := .inFlight } = kind row :=
    fun row => kindOf_congr rfl
  have hswept := idle_swept hconstrained hkind hidle
  have hkeys : (sweep settings breaker limit outbox call).channels.deliveries.map Row.key =
      outbox.channels.deliveries.map Row.key :=
    hidle.keys.trans (claim_savesAll_open hconstrained.keyed).keys
  have hbefore : ∀ row, kind row = kindOf settings breaker settings.origins outbox.circuits
      call.time call.now outbox.channels row := fun row => (claim_agrees claimed row).kindOf
  refine ⟨hidle.dispatched, ?_, ?_, ?_⟩
  · have hopen : ∀ row ∈ (openRows outbox.channels.deliveries call.now).take limit,
        kind row ≠ .ready := by
      intro row hrow
      rw [← hkind]
      apply hunready
      show _ ∈ claimPendingDeliveries _ _ _ _
      rw [claimPendingDeliveries, dueDeliveries_eq]
      exact List.mem_map_of_mem hrow
    have hafter : ∀ row ∈ (openRows outbox.channels.deliveries call.now).filter
        (fun row => !hasLeft limit outbox call.now kind row),
        kindOf settings breaker settings.origins (sweep settings breaker limit outbox call).circuits
          call.time call.now (sweep settings breaker limit outbox call).channels
          (rowIn (sweep settings breaker limit outbox call) row) = kind row := by
      intro row hrow
      rw [List.mem_filter, mem_openRows, Bool.not_eq_true'] at hrow
      obtain ⟨⟨hmem, -⟩, hstays⟩ := hrow
      rw [kindOf_congr ((hswept row hmem).stake hstays), hidle.circuits,
        (idle_agrees hconstrained hkind hidle hmem hstays).kindOf, hbefore]
      rfl
    calc queue settings breaker call.now call.time (sweep settings breaker limit outbox call)
        = (((openRows outbox.channels.deliveries call.now).filter fun row =>
            !hasLeft limit outbox call.now kind row).map kind) := by
          rw [queue, idle_openRows hconstrained hkeys hswept, List.map_map]
          exact List.map_congr_left hafter
      _ = (((openRows outbox.channels.deliveries call.now).take limit).map kind).filter
            (· = .stuck) ++
          ((openRows outbox.channels.deliveries call.now).drop limit).map kind := by
          rw [filter_hasLeft hconstrained, List.map_append, List.filter_map]
          congr 2
          apply List.filter_congr
          intro row hrow
          have hne := hopen row hrow
          cases hk : kind row with
          | ready => exact absurd hk hne
          | leaving => simp [hk]
          | stuck => simp [hk]
      _ = _ := by
          rw [queue, ← List.map_take, ← List.map_drop, funext hbefore]
  · rw [Table.Keyed, hkeys]
    exact hconstrained.keyed
  · have hrows : (sweep settings breaker limit outbox call).channels.deliveries =
        outbox.channels.deliveries.map (rowIn (sweep settings breaker limit outbox call)) :=
      eq_map_get hconstrained.keyed hkeys
    have hsame : (sweep settings breaker limit outbox call).channels.deliveries.map
        (fun row => row.propagationId) =
          outbox.channels.deliveries.map fun row => row.propagationId := by
      rw [hrows, List.map_map]
      exact List.map_congr_left fun row hrow => (hswept row hrow).propagation
    rw [hsame]
    exact hconstrained.single

end Sweeps

section Runs

variable {Body T : Type} [Clock T] (settings : SweepSettings Body)
  (breaker : DeliveryCircuitBreaker T)

/-- Every sweep of the run draws identifiers that are free when it starts. -/
def DrawsAll (limit : Nat) : Outbox T → List (SweepCall Body T) → Prop
  | _, [] => True
  | outbox, call :: calls =>
    Draws call outbox.channels ∧ DrawsAll limit (sweep settings breaker limit outbox call) calls

/-- A due row with a configured target whose circuit allows a request. -/
def Dispatchable (now : Timestamp) (time : T) (outbox : Outbox T)
    (row : GovernancePropagationDelivery) : Prop :=
  row ∈ outbox.channels.deliveries ∧ row.isDue now = true ∧
    ∃ host, routeOf settings settings.origins row.surfaceId = .toHost host ∧
      (breaker.allow outbox.circuits host time).1 = true

/-- How many rows before the first dispatchable one are put back by every sweep. -/
def stuckAhead (now : Timestamp) (time : T) (outbox : Outbox T) : Nat :=
  (ahead (queue settings breaker now time outbox)).count .stuck

variable {settings breaker} {limit : Nat} {outbox : Outbox T} {now : Timestamp} {time : T}
  {calls : List (SweepCall Body T)}

theorem ready_mem_queue_iff : .ready ∈ queue settings breaker now time outbox ↔
    ∃ row, Dispatchable settings breaker now time outbox row := by
  have hkind : ∀ row, kindOf settings breaker settings.origins outbox.circuits time now
      outbox.channels row = .ready ↔
        ∃ host, routeOf settings settings.origins row.surfaceId = .toHost host ∧
          (breaker.allow outbox.circuits host time).1 = true := by
    intro row
    unfold kindOf
    cases routeOf settings settings.origins row.surfaceId with
    | noTarget => simp
    | crashed className => simp
    | rejected message => by_cases hcan : canReject outbox.channels row message now <;> simp [hcan]
    | toHost host => by_cases hallow : (breaker.allow outbox.circuits host time).1 <;> simp [hallow]
  rw [queue, List.mem_map]
  constructor
  · rintro ⟨row, hrow, hready⟩
    rw [mem_openRows] at hrow
    exact ⟨row, hrow.1, hrow.2, (hkind row).mp hready⟩
  · rintro ⟨row, hmem, hdue, hhost⟩
    exact ⟨row, mem_openRows.mpr ⟨hmem, hdue⟩, (hkind row).mpr hhost⟩

/-- A run of sweeps serves the queue round after round. -/
theorem dispatches_iff_serves (hlimit : 1 ≤ limit ∧ limit ≤ deliverySweepLimit)
    {origins : List Chars} (horigins : settings.allowedOrigins = .ok origins)
    (hconstrained : Constrained outbox.channels)
    (hdraws : DrawsAll settings breaker limit outbox calls)
    (hclocks : ∀ call ∈ calls, call.now = now ∧ call.time = time) :
    Dispatches settings breaker limit outbox calls ↔
      Serves limit calls.length (queue settings breaker now time outbox) := by
  induction calls generalizing outbox with
  | nil => exact Iff.rfl
  | cons call calls ih =>
    obtain ⟨rfl, rfl⟩ := hclocks call List.mem_cons_self
    obtain ⟨hdraws, hrest⟩ := hdraws
    have hclocks' := fun next hnext => hclocks next (List.mem_cons_of_mem call hnext)
    rw [Dispatches, List.length_cons, Serves]
    cases hround : HeadOfLine.round limit (queue settings breaker call.now call.time outbox) with
    | none =>
      have hserves := sweep_serves hconstrained hdraws hlimit horigins hround
      refine ⟨fun _ rest hrest => ?_, fun _ => .inl hserves⟩
      cases hrest
    | some rest =>
      obtain ⟨hsame, hqueue, hkept⟩ := sweep_idle hconstrained hdraws hlimit horigins hround
      have hnext := ih hkept hrest hclocks'
      rw [hqueue] at hnext
      simp [hsame, hnext]

/-- Beyond its limit, or without readable targets, a sweep raises before its claim. -/
theorem sweep_refused {call : SweepCall Body T}
    (h : ¬ (1 ≤ limit ∧ limit ≤ deliverySweepLimit)) :
    sweep settings breaker limit outbox call = outbox := by
  have hrequire : require (1 ≤ limit ∧ limit ≤ deliverySweepLimit)
      (DeliveryError.valueError s!"limit must be between 1 and {deliverySweepLimit}") =
        .error (.valueError s!"limit must be between 1 and {deliverySweepLimit}") := if_neg h
  rw [sweep, drainPropagationDeliveries, hrequire]
  rfl

theorem not_dispatches_of_refused (h : ¬ (1 ≤ limit ∧ limit ≤ deliverySweepLimit)) :
    ¬ Dispatches settings breaker limit outbox calls := by
  induction calls with
  | nil => exact id
  | cons call calls ih =>
    rw [Dispatches, sweep_refused h]
    exact fun hdispatches => hdispatches.elim (fun hne => hne rfl) ih

/-- Where the origins cannot be read no destination is allowed. -/
theorem origins_of_toHost {surfaceId host : String}
    (h : routeOf settings settings.origins surfaceId = .toHost host) :
    ∃ origins, settings.allowedOrigins = .ok origins := by
  cases horigins : settings.allowedOrigins with
  | ok origins => exact ⟨origins, rfl⟩
  | error error =>
    have hnone : settings.origins = [] := by
      rw [SweepSettings.origins, horigins]
      rfl
    rw [hnone] at h
    unfold routeOf at h
    split at h
    · cases h
    · split at h
      · cases h
      · cases h
      · rename_i hurl
        rw [bind_ok] at hurl
        obtain ⟨rawUrl, -, hvalid⟩ := hurl
        obtain ⟨-, parts, host, port, -, haccepts, -⟩ := validate_ok.mp hvalid
        exact absurd haccepts.listed List.not_mem_nil

end Runs

section Scenario

def sweepSettings : SweepSettings String where
  unicode := asciiTables
  urljoin base path := base ++ path
  wire := { size := String.utf8ByteSize, loads := fun _ => none, signBody := fun _ _ => "" }
  platform := ⟨id, id, fun _ => "", fun _ => ""⟩
  targets := [("help-center".toList, "https://consumer.test".toList)]
  allowInsecureHttp := false
  maxAttempts := 5
  secret := "secret"

def sweepBreaker : DeliveryCircuitBreaker Int := ⟨5, 30, by decide, by decide⟩

def publicationOf (id : Uuid) (publishedAt : Timestamp) : GovernancePublication where
  id := id
  draftId := id + 100
  commandId := id.text
  requestFingerprint := ""
  objectRef := "page"
  objectVersion := 1
  publishedAt := publishedAt

def propagationOf (id publicationId : Uuid) (surfaceId : String) : GovernancePropagation where
  id := id
  publicationId := publicationId
  surfaceId := surfaceId
  desiredDigest := "d1"
  status := .pending
  reason := "awaiting_downstream_confirmation"
  followUpCommands := []
  lastEventId := id + 200
  updatedById := none

def deliveryOn (id propagationId publicationId : Uuid) (surfaceId : String)
    (createdAt : Timestamp) : GovernancePropagationDelivery where
  id := id
  propagationId := propagationId
  publicationId := publicationId
  surfaceId := surfaceId
  desiredDigest := "d1"
  expectedPageVersion := 1
  maxAttempts := 5
  createdAt := createdAt
  updatedAt := createdAt

/-- The delivery of an older publication has no target, that of a younger one has. -/
def backlog : Outbox Int where
  channels := {
    publications := [publicationOf 1 10, publicationOf 2 20]
    propagations := [propagationOf 11 1 "agent-copilot", propagationOf 12 2 "help-center"]
    deliveries := [deliveryOn 21 11 1 "agent-copilot" 10, deliveryOn 22 12 2 "help-center" 20] }
  circuits := []

def quietCall (start : Uuid) : SweepCall String Int where
  now := 1000
  time := 0
  eventId i := start + i
  reply _ := .timeout

theorem backlog_constrained : Constrained backlog.channels :=
  ⟨show (backlog.channels.deliveries.map Row.key).Nodup by decide, by decide⟩

theorem backlog_dispatchable :
    ∃ row, Dispatchable sweepSettings sweepBreaker 1000 0 backlog row :=
  ⟨deliveryOn 22 12 2 "help-center" 20, by decide, by decide, "consumer.test", by decide +kernel,
    rfl⟩

theorem backlog_stuckAhead : stuckAhead sweepSettings sweepBreaker 1000 0 backlog = 1 := by
  decide +kernel

end Scenario

end Cygnus.Delivery
