import Cygnus.Data.Machine
import Cygnus.Publish.DurableLaws

/-! Over any run of publish commands each one is published once. -/

namespace Cygnus.Publish

open Wiki Domain Governance Retrieval Text Result Sequence

/-- The arguments a command is constructed from. -/
structure PublishRequest where
  draftId : Uuid
  approvalRef : Uuid
  approvalDigest : String
  scopeDigest : String
  signalId : Uuid
  signalFreshness : String
  commandId : String
  actionKey : String
  targetChannels : List String
  expectedVersion : Int
  reason : Option String

def PublishRequest.command (request : PublishRequest) : Publishing DurablePublishCommand :=
  DurablePublishCommand.make request.draftId request.approvalRef request.approvalDigest
    request.scopeDigest request.signalId request.signalFreshness request.commandId
    request.actionKey request.targetChannels request.expectedVersion request.reason

def isPublishKey : IdempotencyKey → Bool
  | .publish _ => true
  | _ => false

/-- What the rest of the system has done since the last call: any change of the rows a command is
checked against, and any events but those of a publish command. -/
structure Elsewhere where
  pages : Table GovernedPage
  drafts : Table GovernedDraft
  sources : Table AttestedSource
  bindings : List AudienceBinding
  signals : Table GovernanceSignal
  events : List GovernanceLedgerEvent

def Elsewhere.on (change : Elsewhere) (state : Governed) : Governed :=
  { state with
    pages := change.pages, drafts := change.drafts, sources := change.sources,
    bindings := change.bindings, signals := change.signals,
    ledger := state.ledger ++ change.events.filter fun e => !isPublishKey e.idempotencyKey }

inductive PublishStep
  | call (request : PublishRequest) (actorId : Uuid) (ids : PublishIds) (now : Timestamp)
  | elsewhere (change : Elsewhere)

section Perform

variable (env : Platform) (repr : BindingKey → String) (maxAttempts : Nat)

def executePublish (state : Governed) (request : PublishRequest) (actorId : Uuid)
    (ids : PublishIds) (now : Timestamp) : Durable (PublishReply × Governed) := do
  let command ← request.command.mapError .publishing
  applyDurablePublish env repr maxAttempts state command actorId ids now

def PublishStep.perform : PublishStep → Governed → Durable Governed
  | .call request actorId ids now, state =>
    (executePublish env repr maxAttempts state request actorId ids now).map Prod.snd
  | .elsewhere change, state => .ok (change.on state)

/-- The state after a run of steps on an empty database. -/
def publishRun (steps : List PublishStep) : Governed :=
  Machine.run (PublishStep.perform env repr maxAttempts) {} steps

end Perform

/-- One event of the ledger records the publication, and each of its channels has one propagation and
one delivery. -/
structure OnceStaged (state : Governed) (publication : PublicationRow) : Prop where
  event : ∃ event, state.ledger.filter (fun e => e.eventType = .published &&
    e.idempotencyKey = .publish publication.commandId) = [event] ∧
      event.id = publication.publishEventId
  distinct : publication.targetChannels.Nodup
  propagations : (state.propagations.filter (·.publicationId = publication.id)).map (·.surfaceId) =
    publication.targetChannels
  deliveries : (state.deliveries.filter (·.publicationId = publication.id)).map (·.surfaceId) =
    publication.targetChannels

/-- The staged rows stand for publications, one for each command. -/
structure Staged (state : Governed) : Prop where
  unique : (state.publications.map (·.commandId)).Nodup
  once : ∀ publication ∈ state.publications, OnceStaged state publication
  events : ∀ event ∈ state.ledger, ∀ commandId, event.idempotencyKey = .publish commandId →
    ∃ publication ∈ state.publications, publication.commandId = commandId
  propagations : ∀ row ∈ state.propagations,
    ∃ publication ∈ state.publications, publication.id = row.publicationId
  deliveries : ∀ row ∈ state.deliveries,
    ∃ publication ∈ state.publications, publication.id = row.publicationId

variable {env : Platform} {repr : BindingKey → String} {maxAttempts : Nat}
  {state state' : Governed} {command : DurablePublishCommand} {actorId : Uuid} {ids : PublishIds}
  {now : Timestamp} {reply : PublishReply}

section Rows

variable {α κ : Type} [DecidableEq κ] {key : α → κ} {i : κ} {rows added : List α}

theorem filter_append_other (h : ∀ row ∈ added, key row ≠ i) :
    (rows ++ added).filter (key · = i) = rows.filter (key · = i) := by
  have hnone : added.filter (key · = i) = [] := by
    rw [List.filter_eq_nil_iff]
    intro row hrow
    simpa using h row hrow
  rw [List.filter_append, hnone, List.append_nil]

theorem filter_append_self (hold : ∀ row ∈ rows, key row ≠ i) (hnew : ∀ row ∈ added, key row = i) :
    (rows ++ added).filter (key · = i) = added := by
  rw [List.filter_append, List.filter_eq_nil_iff.mpr, List.filter_eq_self.mpr, List.nil_append]
  · intro row hrow
    simpa using hnew row hrow
  · intro row hrow
    simpa using hold row hrow

end Rows

theorem Staged.empty : Staged {} := by
  constructor <;> simp

theorem Staged.elsewhere (h : Staged state) (change : Elsewhere) : Staged (change.on state) := by
  have hforeign : ∀ e ∈ change.events.filter (fun e => !isPublishKey e.idempotencyKey),
      ∀ commandId, e.idempotencyKey ≠ .publish commandId := by
    intro e he commandId hkey
    have hother := (List.mem_filter.mp he).2
    rw [hkey] at hother
    cases hother
  refine ⟨h.unique, ?_, ?_, h.propagations, h.deliveries⟩
  · intro publication hmem
    have hold := h.once publication hmem
    refine ⟨?_, hold.distinct, hold.propagations, hold.deliveries⟩
    obtain ⟨event, hevent, hid⟩ := hold.event
    refine ⟨event, ?_, hid⟩
    simp only [Elsewhere.on]
    rw [List.filter_append, hevent, List.filter_eq_nil_iff.mpr, List.append_nil]
    intro e he
    simp [hforeign e he]
  · intro event hevent commandId hkey
    rcases List.mem_append.mp hevent with hold | hnew
    · exact h.events event hold commandId hkey
    · exact absurd hkey (hforeign event hnew commandId)

theorem PublishRequest.nodup_of_command {request : PublishRequest}
    (h : request.command = .ok command) : command.targetChannels.Nodup := by
  obtain ⟨-, -, -, -, -, -, -, -, -, -, hchannels⟩ := DurablePublishCommand.make_ok h
  exact normalizeStrings_nodup hchannels

section Rows

variable {publication : PublicationRow} {event : GovernanceLedgerEvent}
  {propagations : List PropagationRow} {deliveries : List DeliveryRow}

/-- Rows of other publications leave a publication's own alone. -/
theorem OnceStaged.append (h : OnceStaged state publication)
    (hledger : state'.ledger = state.ledger ++ [event])
    (hpropagations : state'.propagations = state.propagations ++ propagations)
    (hdeliveries : state'.deliveries = state.deliveries ++ deliveries)
    (hkey : event.idempotencyKey ≠ .publish publication.commandId)
    (hpropagation : ∀ row ∈ propagations, row.publicationId ≠ publication.id)
    (hdelivery : ∀ row ∈ deliveries, row.publicationId ≠ publication.id) :
    OnceStaged state' publication := by
  obtain ⟨recorded, hrecorded, hid⟩ := h.event
  refine ⟨⟨recorded, ?_, hid⟩, h.distinct, ?_, ?_⟩
  · rw [hledger, List.filter_append, hrecorded, List.filter_cons_of_neg (by simp [hkey]),
      List.filter_nil, List.append_nil]
  · rw [hpropagations, filter_append_other hpropagation, h.propagations]
  · rw [hdeliveries, filter_append_other hdelivery, h.deliveries]

/-- A publication under a new id and command has the rows staged for it and no others. -/
theorem OnceStaged.stage (hledger : state'.ledger = state.ledger ++ [event])
    (hpropagations : state'.propagations = state.propagations ++ propagations)
    (hdeliveries : state'.deliveries = state.deliveries ++ deliveries)
    (hkeyFree : ∀ e ∈ state.ledger, e.idempotencyKey ≠ .publish publication.commandId)
    (hpropagationFree : ∀ row ∈ state.propagations, row.publicationId ≠ publication.id)
    (hdeliveryFree : ∀ row ∈ state.deliveries, row.publicationId ≠ publication.id)
    (hkey : event.idempotencyKey = .publish publication.commandId)
    (htype : event.eventType = .published) (hid : event.id = publication.publishEventId)
    (hdistinct : publication.targetChannels.Nodup)
    (hpropagation : ∀ row ∈ propagations, row.publicationId = publication.id)
    (hdelivery : ∀ row ∈ deliveries, row.publicationId = publication.id)
    (hsurfaces : propagations.map (·.surfaceId) = publication.targetChannels)
    (htargets : deliveries.map (·.surfaceId) = publication.targetChannels) :
    OnceStaged state' publication := by
  refine ⟨⟨event, ?_, hid⟩, hdistinct, ?_, ?_⟩
  · have hnone : state.ledger.filter (fun e => e.eventType = .published &&
        e.idempotencyKey = .publish publication.commandId) = [] := by
      rw [List.filter_eq_nil_iff]
      intro e he
      simp [hkeyFree e he]
    rw [hledger, List.filter_append, hnone, List.filter_cons_of_pos (by simp [hkey, htype]),
      List.filter_nil, List.nil_append]
  · rw [hpropagations, filter_append_self hpropagationFree hpropagation, hsurfaces]
  · rw [hdeliveries, filter_append_self hdeliveryFree hdelivery, htargets]

end Rows

/-- A publication under a new command adds its own rows and leaves those of the others. -/
theorem Staged.publish {publication : PublicationRow} (h : Staged state)
    (hnew : ∀ other ∈ state.publications, other.commandId ≠ command.commandId)
    (hdistinct : command.targetChannels.Nodup)
    (hpublishes : Publishes env repr maxAttempts state command actorId ids now publication state') :
    Staged state' := by
  obtain ⟨qualified, result, event, ledger, -, -, hevent, rfl, hfree, rfl⟩ := hpublishes
  have hkeyFree : findKey state.ledger (.publish command.commandId) = none := by
    rw [findKey_none]
    intro e he hkey
    obtain ⟨other, hother, hid⟩ := h.events e he _ hkey
    exact hnew other hother hid
  have happend := appendDraftEvent_fresh hevent hkeyFree
  have hidFree : ∀ other ∈ state.publications, other.id ≠ ids.publication :=
    Table.get_eq_none.mp hfree
  have hpropagations : ∀ row ∈ state.propagations, row.publicationId ≠ ids.publication := by
    intro row hrow hid
    obtain ⟨other, hother, howner⟩ := h.propagations row hrow
    exact hidFree other hother (howner.trans hid)
  have hdeliveries : ∀ row ∈ state.deliveries, row.publicationId ≠ ids.publication := by
    intro row hrow hid
    obtain ⟨other, hother, howner⟩ := h.deliveries row hrow
    exact hidFree other hother (howner.trans hid)
  constructor
  · rw [List.map_append, List.map_singleton, List.nodup_append]
    refine ⟨h.unique, List.nodup_singleton _, ?_⟩
    intro old hold new hnew' heq
    obtain ⟨other, hother, rfl⟩ := List.mem_map.mp hold
    exact hnew other hother (heq.trans (List.mem_singleton.mp hnew'))
  · intro publication hmem
    rcases List.mem_append.mp hmem with hold | hself
    · refine (h.once publication hold).append happend.ledger_eq rfl rfl ?_ ?_ ?_
      · rw [happend.key_eq]
        intro hkey
        exact hnew publication hold (IdempotencyKey.publish.inj hkey).symm
      · intro row hrow hid
        obtain ⟨channel, -, rfl⟩ := List.mem_map.mp hrow
        exact hidFree publication hold hid.symm
      · intro row hrow hid
        obtain ⟨channel, -, rfl⟩ := List.mem_map.mp hrow
        exact hidFree publication hold hid.symm
    · obtain rfl := List.mem_singleton.mp hself
      refine OnceStaged.stage happend.ledger_eq rfl rfl (findKey_none.mp hkeyFree) hpropagations
        hdeliveries happend.key_eq happend.type_eq rfl hdistinct ?_ ?_ ?_ ?_
      · intro row hrow
        obtain ⟨channel, -, rfl⟩ := List.mem_map.mp hrow
        rfl
      · intro row hrow
        obtain ⟨channel, -, rfl⟩ := List.mem_map.mp hrow
        rfl
      · exact (List.map_map).trans (List.map_id _)
      · exact (List.map_map).trans (List.map_id _)
  · intro e he commandId hkey
    rw [happend.ledger_eq] at he
    rcases List.mem_append.mp he with hold | hself
    · obtain ⟨other, hother, hid⟩ := h.events e hold commandId hkey
      exact ⟨other, List.mem_append_left _ hother, hid⟩
    · obtain rfl := List.mem_singleton.mp hself
      rw [happend.key_eq] at hkey
      exact ⟨_, List.mem_append_right _ (List.mem_singleton_self _),
        IdempotencyKey.publish.inj hkey⟩
  · intro row hrow
    rcases List.mem_append.mp hrow with hold | hself
    · obtain ⟨other, hother, hid⟩ := h.propagations row hold
      exact ⟨other, List.mem_append_left _ hother, hid⟩
    · obtain ⟨channel, -, rfl⟩ := List.mem_map.mp hself
      exact ⟨_, List.mem_append_right _ (List.mem_singleton_self _), rfl⟩
  · intro row hrow
    rcases List.mem_append.mp hrow with hold | hself
    · obtain ⟨other, hother, hid⟩ := h.deliveries row hold
      exact ⟨other, List.mem_append_left _ hother, hid⟩
    · obtain ⟨channel, -, rfl⟩ := List.mem_map.mp hself
      exact ⟨_, List.mem_append_right _ (List.mem_singleton_self _), rfl⟩

theorem perform_staged :
    Machine.Preserves (PublishStep.perform env repr maxAttempts) (fun _ _ => True) Staged := by
  intro state state' step h _ hperform
  cases step with
  | elsewhere change =>
    cases hperform
    exact h.elsewhere change
  | call request actorId ids now =>
    obtain ⟨⟨reply, _⟩, hexecute, rfl⟩ := map_ok.mp hperform
    simp only [executePublish, bind_ok, mapError_ok] at hexecute
    obtain ⟨command, hcommand, happly⟩ := hexecute
    rcases applyDurablePublish_ok happly with ⟨rfl, -⟩ | ⟨hnew, hpublishes⟩
    · exact h
    · exact h.publish hnew (PublishRequest.nodup_of_command hcommand) hpublishes

theorem publishRun_staged (env : Platform) (repr : BindingKey → String) (maxAttempts : Nat)
    (steps : List PublishStep) : Staged (publishRun env repr maxAttempts steps) :=
  perform_staged.run .empty (Machine.meets_of_forall (fun _ _ => trivial) _ _)

section Reuse

variable {publication : PublicationRow}

theorem Staged.find?_eq (h : Staged state) (hmem : publication ∈ state.publications) :
    state.publications.find? (·.commandId = publication.commandId) = some publication := by
  cases hfound : state.publications.find? (·.commandId = publication.commandId) with
  | none =>
    have hnone := List.find?_eq_none.mp hfound publication hmem
    simp at hnone
  | some other =>
    have hid : other.commandId = publication.commandId := by simpa using List.find?_some hfound
    rw [List.inj_on_of_nodup_map h.unique (List.mem_of_find?_eq_some hfound) hmem hid]

theorem Staged.length_le_one (h : Staged state) (commandId : String) :
    (state.publications.filter (·.commandId = commandId)).length ≤ 1 := by
  have hids : ((state.publications.filter (·.commandId = commandId)).map (·.commandId)).Nodup :=
    h.unique.sublist (List.filter_sublist.map _)
  have hsame : (state.publications.filter (·.commandId = commandId)).map (·.commandId) =
      List.replicate (state.publications.filter (·.commandId = commandId)).length commandId := by
    rw [List.eq_replicate_iff, List.length_map]
    refine ⟨rfl, ?_⟩
    intro id hid
    obtain ⟨row, hrow, rfl⟩ := List.mem_map.mp hid
    simpa using (List.mem_filter.mp hrow).2
  rw [hsame] at hids
  exact List.nodup_replicate.mp hids

/-- A command whose id a publication holds is answered from it or refused, and writes nothing. -/
theorem Staged.apply_reused (h : Staged state) (hmem : publication ∈ state.publications)
    (hid : publication.commandId = command.commandId) :
    applyDurablePublish env repr maxAttempts state command actorId ids now =
      if publication.draftId = command.draftId ∧
          publication.requestFingerprint = command.requestFingerprint env then
        .ok (replayPublish state publication, state)
      else .error (conflict (s!"command_id={command.commandId} is already bound to a different publish " ++
        "request")) := by
  have hfound := h.find?_eq hmem
  rw [hid] at hfound
  unfold applyDurablePublish
  rw [hfound]
  by_cases hsame : publication.draftId = command.draftId ∧
      publication.requestFingerprint = command.requestFingerprint env
  · rw [if_pos hsame]
    simp only [require, if_pos hsame]
    rfl
  · rw [if_neg hsame]
    simp only [require, if_neg hsame]
    rfl

end Reuse

/-- Each command is published once: its publication, the event and the rows of its channels are the
only ones, a repeated call answers from them, and another request under its id is refused. -/
structure ExactlyOnce (env : Platform) (repr : BindingKey → String) (maxAttempts : Nat)
    (state : Governed) : Prop where
  atMostOne : ∀ commandId,
    (state.publications.filter (·.commandId = commandId)).length ≤ 1
  staged : ∀ publication ∈ state.publications, OnceStaged state publication
  repeated : ∀ request command actorId ids now, request.command = .ok command →
    ∀ publication ∈ state.publications, publication.commandId = command.commandId →
    publication.draftId = command.draftId →
    publication.requestFingerprint = command.requestFingerprint env →
    executePublish env repr maxAttempts state request actorId ids now =
      .ok (replayPublish state publication, state)
  refused : ∀ request command actorId ids now, request.command = .ok command →
    ∀ publication ∈ state.publications, publication.commandId = command.commandId →
    publication.draftId ≠ command.draftId ∨
      publication.requestFingerprint ≠ command.requestFingerprint env →
    (∃ error, executePublish env repr maxAttempts state request actorId ids now = .error error) ∧
      Machine.step (PublishStep.perform env repr maxAttempts) state
        (.call request actorId ids now) = state

theorem executePublish_of_command {request : PublishRequest} (h : request.command = .ok command) :
    executePublish env repr maxAttempts state request actorId ids now =
      applyDurablePublish env repr maxAttempts state command actorId ids now := by
  rw [executePublish, h]
  rfl

theorem Staged.exactlyOnce (h : Staged state) : ExactlyOnce env repr maxAttempts state := by
  refine ⟨h.length_le_one, h.once, ?_, ?_⟩
  · intro request command actorId ids now hcommand publication hmem hid hdraft hfingerprint
    rw [executePublish_of_command hcommand, h.apply_reused hmem hid,
      if_pos ⟨hdraft, hfingerprint⟩]
  · intro request command actorId ids now hcommand publication hmem hid hdiffers
    have hexecute : ∃ error,
        executePublish env repr maxAttempts state request actorId ids now = .error error := by
      rw [executePublish_of_command hcommand, h.apply_reused hmem hid, if_neg]
      · exact ⟨_, rfl⟩
      · rintro ⟨hdraft, hfingerprint⟩
        rcases hdiffers with hne | hne
        · exact hne hdraft
        · exact hne hfingerprint
    refine ⟨hexecute, ?_⟩
    obtain ⟨error, herror⟩ := hexecute
    simp only [Machine.step, PublishStep.perform, herror]
    rfl

end Cygnus.Publish
