import Cygnus.Data.Machine
import Cygnus.Data.Sequence
import Cygnus.Governance.Ledger
import Mathlib.Data.Prod.Lex

/-! Publications on their way to a channel: the rows a publish command stages, the updates of an
operator and the signed acknowledgment. Each function is one database transaction. -/

namespace Cygnus.Delivery

open Wiki Text Result Sequence Governance

inductive PropagationStatus
  | synced
  | pending
  | failed
  | manualActionRequired
  deriving DecidableEq

def PropagationStatus.value : PropagationStatus → String
  | synced => "synced"
  | pending => "pending"
  | failed => "failed"
  | manualActionRequired => "manual_action_required"

inductive DeliveryStatus
  | pending
  | inFlight
  | synced
  | failed
  | deadLetter
  deriving DecidableEq

def DeliveryStatus.value : DeliveryStatus → String
  | pending => "pending"
  | inFlight => "in_flight"
  | synced => "synced"
  | failed => "failed"
  | deadLetter => "dead_letter"

structure GovernancePublication where
  id : Uuid
  draftId : Uuid
  commandId : String
  requestFingerprint : String
  objectRef : String
  objectVersion : Nat
  publishedAt : Timestamp
  deriving DecidableEq

structure GovernancePropagation where
  id : Uuid
  publicationId : Uuid
  surfaceId : String
  desiredDigest : String
  status : PropagationStatus
  reason : String
  followUpCommands : List String
  version : Nat := 1
  lastEventId : Uuid
  updatedById : Option Uuid
  deriving DecidableEq

structure AttemptEvidence where
  attempt : Nat
  occurredAt : Timestamp
  outcome : String
  statusCode : Option Nat
  error : Option String
  deriving DecidableEq

structure GovernancePropagationDelivery where
  id : Uuid
  propagationId : Uuid
  publicationId : Uuid
  surfaceId : String
  status : DeliveryStatus := .pending
  desiredDigest : String
  expectedPageVersion : Nat
  attempts : Nat := 0
  maxAttempts : Nat
  attemptEvidence : List AttemptEvidence := []
  lastError : Option String := none
  acknowledgedDigest : Option String := none
  acknowledgedVersion : Option Int := none
  acknowledgedAt : Option Timestamp := none
  ackReceiptRef : Option String := none
  createdAt : Timestamp
  updatedAt : Timestamp
  deriving DecidableEq

instance : Row GovernancePublication := ⟨GovernancePublication.id⟩
instance : Row GovernancePropagation := ⟨GovernancePropagation.id⟩
instance : Row GovernancePropagationDelivery := ⟨GovernancePropagationDelivery.id⟩

structure Channels where
  publications : Table GovernancePublication := []
  propagations : Table GovernancePropagation := []
  deliveries : Table GovernancePropagationDelivery := []
  ledger : Table GovernanceLedgerEvent := []

inductive DeliveryError
  | verificationError (message : String)
  | receiptNotFound (message : String)
  | ackConflict (message : String)
  | publishNotFound (message : String)
  | publishDenied (message : String)
  | publishConflict (message : String)
  | integrityError (constraint : String)
  | typeError (message : String)
  | valueError (message : String)
  | ledgerError (error : ReviewError)
  | noTask
  deriving DecidableEq

abbrev Delivering := Except DeliveryError

/-- `append_draft_event` in the state the draft is in. -/
def appendInPlace (channels : Channels) (eventId draftId : Uuid) (actorId : Option Uuid)
    (idempotencyKey : IdempotencyKey) (reason : String) (payload : JsonObject)
    (noState : DeliveryError) :
    Delivering (GovernanceLedgerEvent × Table GovernanceLedgerEvent) :=
  match getLatestDraftEvent channels.ledger draftId with
  | none => throw noState
  | some current =>
    (appendDraftEvent channels.ledger eventId
      { draftId := draftId, eventType := .propagationUpdated, fromState := some current.toState,
        toState := current.toState, actorId := actorId, idempotencyKey := idempotencyKey,
        reason := some reason, payload := payload }).mapError .ledgerError

/-- The propagation after a status change. -/
def GovernancePropagation.move (propagation : GovernancePropagation) (status : PropagationStatus)
    (reason : String) (followUpCommands : List String) (eventId : Uuid) (updatedById : Option Uuid) :
    GovernancePropagation :=
  { propagation with
    status := status, reason := reason, followUpCommands := followUpCommands,
    version := propagation.version + 1, lastEventId := eventId, updatedById := updatedById }

/-- An `UPDATE` that changes a column also sets `updated_at`. -/
def saveDelivery (delivery : GovernancePropagationDelivery) (now : Timestamp)
    (deliveries : Table GovernancePropagationDelivery) : Table GovernancePropagationDelivery :=
  if deliveries.get delivery.id = some delivery then deliveries
  else deliveries.put { delivery with updatedAt := now }

section Publish

/-- The rows of one target channel. -/
structure TargetChannel where
  surfaceId : String
  propagationId : Uuid
  deliveryId : Uuid

/-- A publish command that has passed the checks of `apply_durable_publish`, with what it computes
for the rows it stages. -/
structure QualifiedPublish where
  publication : GovernancePublication
  eventId : Uuid
  actorId : Uuid
  fromState : GovernanceState
  toState : GovernanceState
  reason : String
  payload : JsonObject
  desiredDigest : String
  maxAttempts : Nat
  targetChannels : List TargetChannel

def QualifiedPublish.propagation (command : QualifiedPublish) (publishEventId : Uuid)
    (channel : TargetChannel) : GovernancePropagation :=
  { id := channel.propagationId, publicationId := command.publication.id,
    surfaceId := channel.surfaceId, desiredDigest := command.desiredDigest, status := .pending,
    reason := "awaiting_downstream_confirmation",
    followUpCommands :=
      [s!"confirm_propagation:{command.publication.id.text}:{channel.surfaceId}"],
    lastEventId := publishEventId, updatedById := some command.actorId }

def QualifiedPublish.delivery (command : QualifiedPublish) (channel : TargetChannel) :
    GovernancePropagationDelivery :=
  { id := channel.deliveryId, propagationId := channel.propagationId,
    publicationId := command.publication.id, surfaceId := channel.surfaceId,
    desiredDigest := command.desiredDigest,
    expectedPageVersion := command.publication.objectVersion, maxAttempts := command.maxAttempts,
    createdAt := command.publication.publishedAt, updatedAt := command.publication.publishedAt }

def stageChannel (command : QualifiedPublish) (publishEventId : Uuid) (channels : Channels)
    (channel : TargetChannel) : Delivering Channels := do
  let propagation := command.propagation publishEventId channel
  let delivery := command.delivery channel
  require (∀ other ∈ channels.propagations, ¬ (other.publicationId = propagation.publicationId ∧
      other.surfaceId = propagation.surfaceId))
    (.integrityError "uq_governance_propagations_publication_surface")
  let propagations ← channels.propagations.insert
    (.integrityError "governance_propagations_pkey") propagation
  require (∀ other ∈ channels.deliveries, other.propagationId ≠ delivery.propagationId)
    (.integrityError "governance_propagation_deliveries_propagation_id_key")
  let deliveries ← channels.deliveries.insert
    (.integrityError "governance_propagation_deliveries_pkey") delivery
  return { channels with propagations := propagations, deliveries := deliveries }

/-- `apply_durable_publish`, from the point where the command is qualified. -/
def applyDurablePublish (channels : Channels) (command : QualifiedPublish) : Delivering Channels :=
  match channels.publications.find? (·.commandId = command.publication.commandId) with
  | some existing => do
    require (existing.draftId = command.publication.draftId ∧
        existing.requestFingerprint = command.publication.requestFingerprint)
      (.publishConflict (s!"command_id={command.publication.commandId} is already bound to a " ++
        "different publish request"))
    return channels
  | none => do
    let (event, ledger) ← (appendDraftEvent channels.ledger command.eventId
      { draftId := command.publication.draftId, eventType := .published,
        fromState := some command.fromState, toState := command.toState,
        actorId := some command.actorId,
        idempotencyKey := .publish command.publication.commandId, reason := some command.reason,
        payload := command.payload }).mapError .ledgerError
    let publications ← channels.publications.insert
      (.integrityError "governance_publications_pkey") command.publication
    command.targetChannels.foldlM (stageChannel command event.id)
      { channels with publications := publications, ledger := ledger }

end Publish

section Update

/-- A command as its constructor leaves it. -/
structure PropagationUpdateCommand where
  publicationId : Uuid
  surfaceId : String
  status : PropagationStatus
  expectedVersion : Nat
  commandId : String
  reason : String
  followUpCommands : List String := []
  stripped : Stripped surfaceId ∧ Stripped commandId ∧ Stripped reason
  short : commandId.length ≤ 200
  positive : 1 ≤ expectedVersion

def PropagationUpdateCommand.requestFingerprint (env : Platform)
    (command : PropagationUpdateCommand) : String :=
  env.sha256 (env.dumps (.object [
    ("publication_id", .str command.publicationId.text), ("surface_id", .str command.surfaceId),
    ("status", .str command.status.value), ("expected_version", .int command.expectedVersion),
    ("reason", .str command.reason),
    ("follow_up_commands", .list (command.followUpCommands.map .str))]))

def PropagationUpdateCommand.resultPayload (command : PropagationUpdateCommand)
    (propagation : GovernancePropagation) : JsonObject := [
  ("propagation_id", .str propagation.id.text),
  ("publication_id", .str propagation.publicationId.text),
  ("surface_id", .str propagation.surfaceId), ("status", .str command.status.value),
  ("reason", .str command.reason), ("version", .int (propagation.version + 1)),
  ("follow_up_commands", .list (command.followUpCommands.map .str)), ("persisted", .bool true),
  ("rehearsal", .bool false)]

def PropagationUpdateCommand.eventPayload (env : Platform) (command : PropagationUpdateCommand)
    (propagation : GovernancePropagation) : JsonObject := [
  ("publication_id", .str command.publicationId.text), ("surface_id", .str propagation.surfaceId),
  ("previous_status", .str propagation.status.value), ("status", .str command.status.value),
  ("previous_version", .int propagation.version), ("version", .int (propagation.version + 1)),
  ("command_id", .str command.commandId),
  ("request_fingerprint", .str (command.requestFingerprint env)),
  ("result", .object (command.resultPayload propagation))]

/-- The stored answer to a command that was applied before. -/
def PropagationUpdateCommand.replay (env : Platform) (command : PropagationUpdateCommand)
    (event : GovernanceLedgerEvent) : Delivering JsonObject := do
  require (Json.eq (Json.lookup event.payload "request_fingerprint")
      (.str (command.requestFingerprint env)))
    (.publishConflict
      s!"command_id={command.commandId} is already bound to a different propagation update")
  match Json.lookup event.payload "result" with
  | .object result => return Dict.set "replayed" (.bool true) result
  | _ => throw (.publishConflict
      s!"command_id={command.commandId} has no replayable propagation result")

/-- The delivery row follows the operator's word, unless it is acknowledged. -/
def PropagationUpdateCommand.mirror (command : PropagationUpdateCommand)
    (delivery : GovernancePropagationDelivery) : GovernancePropagationDelivery :=
  if delivery.status = .synced then delivery
  else if command.status = .pending then { delivery with status := .pending, lastError := none }
  else { delivery with
    status := .failed, lastError := some s!"ops_marked_{command.status.value}" }

def deliveryOf (deliveries : Table GovernancePropagationDelivery) (propagationId : Uuid) :
    Option GovernancePropagationDelivery :=
  deliveries.find? (·.propagationId = propagationId)

def mirrorDelivery (command : PropagationUpdateCommand) (propagationId : Uuid) (now : Timestamp)
    (deliveries : Table GovernancePropagationDelivery) : Table GovernancePropagationDelivery :=
  match deliveryOf deliveries propagationId with
  | none => deliveries
  | some delivery => saveDelivery (command.mirror delivery) now deliveries

/-- The entry of the answer for a delivery row that was mirrored. -/
def PropagationUpdateCommand.mirrored (command : PropagationUpdateCommand)
    (delivery : Option GovernancePropagationDelivery) : JsonObject :=
  match delivery.filter (·.status ≠ .synced) with
  | none => []
  | some delivery => [("delivery_status", .str (command.mirror delivery).status.value)]

def findPropagation (propagations : Table GovernancePropagation) (publicationId : Uuid)
    (surfaceId : String) : Option GovernancePropagation :=
  propagations.find? fun row => row.publicationId = publicationId && row.surfaceId = surfaceId

def updatePropagation (env : Platform) (channels : Channels) (command : PropagationUpdateCommand)
    (actorId eventId : Uuid) (now : Timestamp) : Delivering (JsonObject × Channels) :=
  match channels.publications.get command.publicationId with
  | none => throw (.publishNotFound
      s!"publication_id={command.publicationId.text} was not found")
  | some publication => do
    require (command.status ≠ .synced) (.publishDenied
      ("synced propagation requires a signed downstream acknowledgment; " ++
        "manual mutation may record non-success operational states only"))
    match findKey channels.ledger (.propagation command.commandId) with
    | some existing => do
      let result ← command.replay env existing
      return (result, channels)
    | none =>
      match findPropagation channels.propagations command.publicationId command.surfaceId with
      | none => throw (.publishNotFound (s!"surface_id={command.surfaceId} is not part of " ++
          s!"publication_id={command.publicationId.text}"))
      | some propagation => do
        require (propagation.version = command.expectedVersion) (.publishConflict
          (s!"propagation version conflict: expected {command.expectedVersion}, " ++
            s!"current {propagation.version}"))
        let (event, ledger) ← appendInPlace channels eventId publication.draftId (some actorId)
          (.propagation command.commandId) command.reason (command.eventPayload env propagation)
          (.publishConflict s!"draft_id={publication.draftId.text} has no governance state")
        let result := command.resultPayload propagation ++
          command.mirrored (deliveryOf channels.deliveries propagation.id) ++
          [("ledger_event_id", .str event.id.text), ("replayed", .bool false)]
        return (result, { channels with
          ledger := ledger,
          propagations := channels.propagations.put (propagation.move command.status
            command.reason command.followUpCommands event.id (some actorId)),
          deliveries := mirrorDelivery command propagation.id now channels.deliveries })

end Update

section Acknowledgment

/-- The bodies of acknowledgments: their length in bytes, the JSON document they decode to, and the
hexadecimal HMAC-SHA256 under a secret. -/
structure Wire (Body : Type) where
  size : Body → Nat
  loads : Body → Option Json
  signBody : Body → String → String

structure AckPayload where
  publicationId : Uuid
  surfaceId : String
  version : Int
  digest : String
  receiptRef : Option String
  deriving DecidableEq

variable {Body : Type} (wire : Wire Body)

def ackSignatureStart : String := "sha256="

/-- `compare_digest` refuses texts outside ASCII. -/
def verifyAckSignature (body : Body) (headerValue secret : String) : Delivering Bool :=
  if secret = "" ∨ ¬ ackSignatureStart.toList.isPrefixOf headerValue.toList then return false
  else do
    let provided := strip (String.ofList (headerValue.toList.drop ackSignatureStart.length))
    require (provided.toList.all fun c => c.toNat < 128)
      (.typeError "comparing strings with non-ASCII characters is not supported")
    return provided = wire.signBody body secret

/-- `int(digest, 16)` succeeds. -/
def isHexNumber (digest : String) : Bool :=
  match (strip digest).toList with
  | '+' :: cs => (Uuid.hexNumber cs).isSome
  | '-' :: cs => (Uuid.hexNumber cs).isSome
  | cs => (Uuid.hexNumber cs).isSome

def parseReceiptRef : Json → Delivering (Option String)
  | .null => return none
  | .str ref => do
    require (strip ref ≠ "") (.verificationError "ack receipt_ref must be a non-blank string")
    return some ref
  | _ => throw (.verificationError "ack receipt_ref must be a non-blank string")

def parseAckFields (payload : JsonObject) : Delivering AckPayload :=
  match Json.lookup payload "publication_id" with
  | .str publicationId =>
    match Uuid.parse publicationId with
    | none => throw (.verificationError "ack publication_id is not a valid UUID")
    | some publicationId =>
      match Json.lookup payload "surface_id" with
      | .str surfaceId => do
        require (strip surfaceId ≠ "") (.verificationError "ack surface_id must not be blank")
        match (Json.lookup payload "version").asInt with
        | none => throw (.verificationError "ack version must be a positive integer")
        | some version => do
          require (1 ≤ version) (.verificationError "ack version must be a positive integer")
          match Json.lookup payload "digest" with
          | .str digest => do
            require (digest.length = 64)
              (.verificationError "ack digest must be a 64-char SHA-256 hex")
            require (isHexNumber digest) (.verificationError "ack digest must be hex")
            let receiptRef ← parseReceiptRef (Json.lookup payload "receipt_ref")
            return ⟨publicationId, strip surfaceId, version, digest, receiptRef⟩
          | _ => throw (.verificationError "ack digest must be a 64-char SHA-256 hex")
      | _ => throw (.verificationError "ack surface_id must not be blank")
  | _ => throw (.verificationError "ack publication_id must be a UUID string")

def parseAckBody (body : Body) : Delivering AckPayload := do
  require (wire.size body ≤ 1024 * 1024)
    (.verificationError "ack body exceeds the bounded size limit")
  match wire.loads body with
  | none => throw (.verificationError "ack body is not valid JSON")
  | some (.object payload) => parseAckFields payload
  | some _ => throw (.verificationError "ack body must be a JSON object")

def validateAckBinding (ack : AckPayload) (delivery : GovernancePropagationDelivery) :
    Delivering Unit := do
  require (ack.publicationId = delivery.publicationId)
    (.ackConflict "ack publication does not match the delivery receipt")
  require (ack.surfaceId = delivery.surfaceId)
    (.ackConflict "ack channel does not match the delivery receipt")
  require (ack.version = delivery.expectedPageVersion)
    (.ackConflict "ack version does not match the delivered object version")
  require (ack.digest = delivery.desiredDigest)
    (.ackConflict "ack digest does not match the desired digest")

def GovernancePublication.place (publication : GovernancePublication) : Timestamp ×ₗ Uuid :=
  toLex (publication.publishedAt, publication.id)

/-- `latest_publication_for_object`. -/
def latestPublication (publications : Table GovernancePublication) (objectRef : String) :
    Option GovernancePublication :=
  (publications.filter (·.objectRef = objectRef)).argmax GovernancePublication.place

/-- `_ack_receipt_payload`. -/
def ackReceiptPayload (env : Platform) (delivery : GovernancePropagationDelivery)
    (digest : Option String) (version : Option Int) (receiptRef : Option String) (replayed : Bool) :
    JsonObject := [
  ("delivery_id", .str delivery.id.text), ("propagation_id", .str delivery.propagationId.text),
  ("publication_id", .str delivery.publicationId.text), ("surface_id", .str delivery.surfaceId),
  ("status", .str DeliveryStatus.synced.value),
  ("acknowledged_digest", Json.ofOption .str digest),
  ("acknowledged_version", Json.ofOption .int version),
  ("acknowledged_at", Json.ofOption (fun time => .str (env.isoformat time)) delivery.acknowledgedAt),
  ("ack_receipt_ref", Json.ofOption .str receiptRef), ("persisted", .bool true),
  ("rehearsal", .bool false), ("replayed", .bool replayed)]

def ackReceipt (env : Platform) (delivery : GovernancePropagationDelivery) (replayed : Bool) :
    JsonObject :=
  ackReceiptPayload env delivery delivery.acknowledgedDigest delivery.acknowledgedVersion
    delivery.ackReceiptRef replayed

def ackEventPayload (env : Platform) (ack : AckPayload) (publication : GovernancePublication)
    (propagation : GovernancePropagation) (delivery : GovernancePropagationDelivery) :
    JsonObject := [
  ("publication_id", .str publication.id.text), ("surface_id", .str delivery.surfaceId),
  ("previous_status", .str propagation.status.value),
  ("status", .str PropagationStatus.synced.value),
  ("previous_version", .int propagation.version), ("version", .int (propagation.version + 1)),
  ("delivery_id", .str delivery.id.text), ("ack_digest", .str ack.digest),
  ("ack_version", .int ack.version), ("ack_receipt_ref", Json.ofOption .str ack.receiptRef),
  ("result", .object (ackReceiptPayload env delivery (some ack.digest) (some ack.version)
    ack.receiptRef false))]

def GovernancePropagationDelivery.acknowledge (delivery : GovernancePropagationDelivery)
    (ack : AckPayload) (now : Timestamp) : GovernancePropagationDelivery :=
  { delivery with
    status := .synced, acknowledgedDigest := some ack.digest,
    acknowledgedVersion := some ack.version, acknowledgedAt := some now,
    ackReceiptRef := ack.receiptRef, lastError := none }

/-- The acknowledgment of a delivery whose publication is the latest of its object. -/
def syncDelivery (env : Platform) (channels : Channels) (ack : AckPayload)
    (publication : GovernancePublication) (delivery : GovernancePropagationDelivery)
    (eventId : Uuid) (now : Timestamp) : Delivering (JsonObject × Channels) :=
  match findKey channels.ledger (.propagationAck delivery.id) with
  | some existing => do
    require (Json.eq (Json.lookup existing.payload "ack_digest") (.str ack.digest) ∧
        Json.eq (Json.lookup existing.payload "ack_version") (.int ack.version))
      (.ackConflict "replayed ack drift conflicts with the stored receipt")
    return (ackReceipt env delivery true, channels)
  | none =>
    match channels.propagations.get delivery.propagationId with
    | none => throw (.receiptNotFound
        s!"propagation_id={delivery.propagationId.text} has no durable row")
    | some propagation => do
      let (event, ledger) ← appendInPlace channels eventId publication.draftId none
        (.propagationAck delivery.id) "downstream acknowledged the delivered digest"
        (ackEventPayload env ack publication propagation delivery)
        (.ackConflict s!"draft_id={publication.draftId.text} has no governance state")
      let synced := delivery.acknowledge ack now
      return (ackReceipt env synced false, { channels with
        ledger := ledger,
        propagations := channels.propagations.put
          (propagation.move .synced "downstream_acknowledged" [] event.id none),
        deliveries := saveDelivery synced now channels.deliveries })

def acknowledgePropagationDelivery (env : Platform) (secret : String) (channels : Channels)
    (deliveryId : Uuid) (body : Body) (signature : String) (eventId : Uuid) (now : Timestamp) :
    Delivering (JsonObject × Channels) := do
  require (secret ≠ "")
    (.verificationError "delivery HMAC secret is not configured; acks are refused")
  let verified ← verifyAckSignature wire body signature secret
  require (verified = true) (.verificationError "ack signature verification failed")
  let ack ← parseAckBody wire body
  match channels.deliveries.get deliveryId with
  | none => throw (.receiptNotFound s!"delivery_id={deliveryId.text} has no durable receipt")
  | some delivery => do
    validateAckBinding ack delivery
    if delivery.status = .synced then do
      require (delivery.acknowledgedDigest = some ack.digest ∧
          delivery.acknowledgedVersion = some ack.version)
        (.ackConflict "delivery is already synced with a different acknowledgment")
      return (ackReceipt env delivery true, channels)
    else
      match channels.publications.get delivery.publicationId with
      | none => throw (.receiptNotFound
          s!"publication_id={delivery.publicationId.text} has no durable row")
      | some publication => do
        require ((latestPublication channels.publications publication.objectRef).all
            (·.id = publication.id))
          (.ackConflict "ack is stale: the object was superseded by a newer publication")
        syncDelivery env channels ack publication delivery eventId now

end Acknowledgment

end Cygnus.Delivery
