import Cygnus.Delivery.Channel

/-! The sweeps that claim staged deliveries, send them and record what came of it, together with
publish commands, operators and acknowledgments. A step is one database transaction or one request;
a worker holds its claims as it read them. -/

namespace Cygnus.Delivery

open Wiki Text Result Sequence Governance

def deliverySweepLimit : Nat := 10
def deliveryLeaseTtl : Nat := 600 * 1000000

def DeliveryError.className : DeliveryError → String
  | verificationError _ => "deliveryverificationerror"
  | receiptNotFound _ => "deliveryreceiptnotfound"
  | ackConflict _ => "deliveryackconflict"
  | publishNotFound _ => "durablepublishnotfound"
  | publishDenied _ => "durablepublishdenied"
  | publishConflict _ => "durablepublishconflict"
  | integrityError _ => "integrityerror"
  | typeError _ => "typeerror"
  | valueError _ => "valueerror"
  | ledgerError (.governanceLedgerConflict _) => "governanceledgerconflict"
  | ledgerError (.integrityError _) => "integrityerror"
  | ledgerError _ => "valueerror"
  | noTask => ""

/-- `str(exc)`, for the errors that a response is refused with. -/
def DeliveryError.message : DeliveryError → String
  | verificationError message => message
  | ackConflict message => message
  | _ => ""

/-- `_bounded_error`. -/
def boundedError (error : Option String) : Option String :=
  (error.map strip).bind fun normalized =>
    if normalized = "" then none else some (String.ofList (normalized.toList.take 2000))

section Claim

def GovernancePropagationDelivery.isDue (delivery : GovernancePropagationDelivery)
    (now : Timestamp) : Bool :=
  match delivery.status with
  | .pending => true
  | .inFlight => delivery.updatedAt + deliveryLeaseTtl < now
  | _ => false

def GovernancePropagationDelivery.age (delivery : GovernancePropagationDelivery) :
    Timestamp ×ₗ Uuid :=
  toLex (delivery.createdAt, delivery.id)

/-- The due rows, oldest first; rows locked elsewhere are passed over. -/
def dueDeliveries (deliveries : Table GovernancePropagationDelivery) (limit : Nat)
    (locked : List Uuid) (now : Timestamp) : List GovernancePropagationDelivery :=
  (sortedBy GovernancePropagationDelivery.age (deliveries.filter fun delivery =>
    delivery.isDue now && delivery.id ∉ locked)).take limit

/-- The rows a sweep claims. An expired lease is taken over without being renewed: its status does
not change, so nothing is written. -/
def claimPendingDeliveries (deliveries : Table GovernancePropagationDelivery) (limit : Nat)
    (locked : List Uuid) (now : Timestamp) : List GovernancePropagationDelivery :=
  (dueDeliveries deliveries limit locked now).map fun delivery =>
    { delivery with status := .inFlight }

end Claim

section Outcomes

def appendAttemptEvidence (delivery : GovernancePropagationDelivery) (evidence : AttemptEvidence) :
    GovernancePropagationDelivery :=
  let entries := delivery.attemptEvidence ++ [evidence]
  { delivery with attemptEvidence := entries.drop (entries.length - max 1 delivery.maxAttempts) }

/-- A worker's write to a delivery row, which leaves an acknowledged row alone. -/
def recordUnlessSynced (channels : Channels) (deliveryId : Uuid) (now : Timestamp)
    (write : GovernancePropagationDelivery → GovernancePropagationDelivery) : Channels :=
  match channels.deliveries.get deliveryId with
  | none => channels
  | some delivery =>
    if delivery.status = .synced then channels
    else { channels with deliveries := saveDelivery (write delivery) now channels.deliveries }

def revertToPending (channels : Channels) (deliveryId : Uuid) (lastError : String)
    (now : Timestamp) : Channels :=
  recordUnlessSynced channels deliveryId now fun delivery =>
    { delivery with status := .pending, lastError := boundedError (some lastError) }

/-- One attempt, as `_execute_delivery_claim` records it. -/
structure Attempt where
  number : Nat
  lastError : Option String
  statusCode : Option Nat
  occurredAt : Timestamp

def Attempt.evidence (attempt : Attempt) (outcome : String) : AttemptEvidence :=
  ⟨attempt.number, attempt.occurredAt, outcome, attempt.statusCode, boundedError attempt.lastError⟩

/-- The row with an attempt counted and its status set. -/
def GovernancePropagationDelivery.count (delivery : GovernancePropagationDelivery)
    (attempt : Attempt) (status : DeliveryStatus) (outcome : String) :
    GovernancePropagationDelivery :=
  appendAttemptEvidence { delivery with
    status := status, attempts := attempt.number, lastError := boundedError attempt.lastError }
    (attempt.evidence outcome)

/-- The acknowledged row with its attempt counted. -/
def GovernancePropagationDelivery.countSynced (delivery : GovernancePropagationDelivery)
    (number statusCode : Nat) (occurredAt : Timestamp) : GovernancePropagationDelivery :=
  appendAttemptEvidence { delivery with attempts := number }
    ⟨number, occurredAt, "synced", some statusCode, none⟩

def recordRetry (channels : Channels) (deliveryId : Uuid) (attempt : Attempt) (now : Timestamp) :
    Channels :=
  recordUnlessSynced channels deliveryId now fun delivery =>
    delivery.count attempt .pending "retryable_error"

/-- `_record_terminal` gives a delivery one of two statuses. -/
inductive TerminalStatus
  | failed
  | deadLetter
  deriving DecidableEq

def TerminalStatus.status : TerminalStatus → DeliveryStatus
  | failed => .failed
  | deadLetter => .deadLetter

def transitionPayload (publication : GovernancePublication) (propagation : GovernancePropagation)
    (delivery : GovernancePropagationDelivery) (attempt : Attempt) : JsonObject := [
  ("publication_id", .str publication.id.text), ("surface_id", .str delivery.surfaceId),
  ("previous_status", .str propagation.status.value),
  ("status", .str PropagationStatus.failed.value),
  ("previous_version", .int propagation.version), ("version", .int (propagation.version + 1)),
  ("delivery_id", .str delivery.id.text), ("delivery_status", .str delivery.status.value),
  ("attempts", .int attempt.number),
  ("last_error", Json.ofOption .str (boundedError attempt.lastError))]

/-- `_transition_propagation` to `failed`, for the delivery row as it was just set. -/
def transitionPropagation (channels : Channels) (delivery : GovernancePropagationDelivery)
    (attempt : Attempt) (reason : String) (followUpCommands : List String) (eventId : Uuid) :
    Delivering Channels :=
  match channels.propagations.get delivery.propagationId with
  | none => throw (.receiptNotFound
      s!"propagation_id={delivery.propagationId.text} has no durable row")
  | some propagation =>
    if propagation.status = .failed ∧ propagation.reason = reason then return channels
    else
      match channels.publications.get delivery.publicationId with
      | none => throw (.receiptNotFound
          s!"publication_id={delivery.publicationId.text} has no durable row")
      | some publication => do
        let (event, ledger) ← appendInPlace channels eventId publication.draftId none
          (.propagationDeliveryTerminal delivery.id) reason
          (transitionPayload publication propagation delivery attempt)
          (.ackConflict s!"draft_id={publication.draftId.text} has no governance state")
        return { channels with
          ledger := ledger,
          propagations := channels.propagations.put
            (propagation.move .failed reason followUpCommands event.id none) }

def recordTerminal (channels : Channels) (deliveryId : Uuid) (attempt : Attempt)
    (status : TerminalStatus) (reason : String) (eventId : Uuid) (now : Timestamp) :
    Delivering Channels :=
  match channels.deliveries.get deliveryId with
  | none => return channels
  | some delivery =>
    if delivery.status = .synced then return channels
    else do
      let recorded := delivery.count attempt status.status status.status.value
      let channels ← transitionPropagation channels recorded attempt reason
        (if status = .deadLetter then ["review_dead_letter_delivery"] else []) eventId
      return { channels with deliveries := saveDelivery recorded now channels.deliveries }

end Outcomes

section Requests

/-- What comes back from the channel, redirects followed. -/
inductive HttpReply (Body : Type)
  | timeout
  | transportError (name : String)
  | policyError (message : String)
  | response (statusCode : Nat) (body : Body) (ackSignature : String)
  /-- any exception that the client does not catch -/
  | raised (name : String)

inductive DeliveryAttemptOutcome (Body : Type)
  | synced (statusCode : Nat) (ackBody : Body) (ackSignature : String)
  | unsynced (retryable : Bool) (statusCode : Option Nat) (error : String)
  deriving DecidableEq

variable {Body : Type} (wire : Wire Body)

/-- `send_delivery_request`; an exception that escapes it is named. -/
def sendDeliveryRequest (secret : String) (delivery : GovernancePropagationDelivery) :
    HttpReply Body → Except String (DeliveryAttemptOutcome Body)
  | .timeout => .ok (.unsynced true none "delivery_timeout")
  | .transportError name => .ok (.unsynced true none s!"delivery_transport_{name}")
  | .policyError message => .ok (.unsynced false none message)
  | .raised name => .error name
  | .response statusCode body ackSignature =>
    if 500 ≤ statusCode ∨ statusCode = 408 ∨ statusCode = 429 then
      .ok (.unsynced true (some statusCode) s!"http_{statusCode}")
    else if 400 ≤ statusCode then .ok (.unsynced false (some statusCode) s!"http_{statusCode}")
    else
      match verifyAckSignature wire body ackSignature secret with
      | .error error => .error error.className
      | .ok false => .ok (.unsynced false (some statusCode) "ack_signature_invalid")
      | .ok true =>
        match parseAckBody wire body >>= fun ack => validateAckBinding ack delivery with
        | .error error => .ok (.unsynced false (some statusCode) error.message)
        | .ok () => .ok (.synced statusCode body ackSignature)

/-- The end of `_execute_delivery_claim`: the outcome of a request, for the row as it was claimed. -/
def recordOutcome (env : Platform) (secret : String) (maxAttempts : Nat) (channels : Channels)
    (claimed : GovernancePropagationDelivery) (outcome : DeliveryAttemptOutcome Body)
    (occurredAt : Timestamp) (eventId : Uuid) (now : Timestamp) : Delivering Channels :=
  let number := max 1 (claimed.attempts + 1)
  match outcome with
  | .synced statusCode body signature => do
    let (_, channels) ← acknowledgePropagationDelivery wire env secret channels claimed.id body
      signature eventId now
    match channels.deliveries.get claimed.id with
    | none => throw (.receiptNotFound
        s!"delivery_id={claimed.id.text} disappeared after acknowledgment")
    | some delivery =>
      return { channels with
        deliveries := saveDelivery (delivery.countSynced number statusCode occurredAt) now
          channels.deliveries }
  | .unsynced true statusCode error =>
    let attempt : Attempt := ⟨number, some error, statusCode, occurredAt⟩
    if maxAttempts ≤ number then
      recordTerminal channels claimed.id attempt .deadLetter "delivery_attempts_exhausted" eventId
        now
    else return recordRetry channels claimed.id attempt now
  | .unsynced false statusCode error =>
    recordTerminal channels claimed.id ⟨number, some error, statusCode, occurredAt⟩ .failed
      "delivery_rejected" eventId now

end Requests

/-- What a worker has in hand for one delivery. -/
inductive Task (Body : Type)
  | claimed (delivery : GovernancePropagationDelivery)
  | answered (delivery : GovernancePropagationDelivery) (outcome : DeliveryAttemptOutcome Body)
      (occurredAt : Timestamp)
  /-- to be returned to `pending`, after a request was made or without one -/
  | returning (delivery : GovernancePropagationDelivery) (posted : Bool) (lastError : String)
  deriving DecidableEq

variable {Body : Type}

/-- The row as the worker claimed it. -/
def Task.delivery : Task Body → GovernancePropagationDelivery
  | claimed delivery => delivery
  | answered delivery _ _ => delivery
  | returning delivery _ _ => delivery

/-- A request has been made under the claim. -/
def Task.posted : Task Body → Bool
  | claimed _ => false
  | answered _ _ _ => true
  | returning _ posted _ => posted

structure World (Body : Type) where
  channels : Channels := {}
  tasks : List (Task Body) := []
  /-- the row of each request made -/
  posts : List Uuid := []
  /-- the rows whose worker ended after a request and before it recorded the outcome -/
  lost : List Uuid := []

inductive Step (Body : Type)
  /-- Any other event of the governance ledger. -/
  | govern (eventId : Uuid) (event : DraftEvent)
  | publish (command : QualifiedPublish)
  | update (command : PropagationUpdateCommand) (actorId eventId : Uuid) (now : Timestamp)
  | acknowledge (deliveryId : Uuid) (body : Body) (signature : String) (eventId : Uuid)
      (now : Timestamp)
  | claim (limit : Nat) (locked : List Uuid) (now : Timestamp)
  /-- No target is configured for the surface, or the circuit of its host is open. -/
  | skip (delivery : GovernancePropagationDelivery) (lastError : String)
  /-- The destination violates the delivery policy. -/
  | reject (delivery : GovernancePropagationDelivery) (error : String)
      (occurredAt : Timestamp) (eventId : Uuid) (now : Timestamp)
  | post (delivery : GovernancePropagationDelivery) (reply : HttpReply Body)
      (occurredAt : Timestamp)
  | record (delivery : GovernancePropagationDelivery) (outcome : DeliveryAttemptOutcome Body)
      (occurredAt : Timestamp) (eventId : Uuid) (now : Timestamp)
  | revert (delivery : GovernancePropagationDelivery) (posted : Bool) (lastError : String)
      (now : Timestamp)
  /-- The worker process ends with the task undone. -/
  | die (task : Task Body)

/-- The keys of events that are neither publications nor updates of a propagation. -/
def governs : IdempotencyKey → Bool
  | .wikiDraft _ _ _ => true
  | .compilerSourceFence _ _ => true
  | _ => false

section Steps

/-- The end of a worker's transaction: an exception is rolled back, and the claim is then returned
to `pending`. -/
def World.finish (world : World Body) (delivery : GovernancePropagationDelivery) (posted : Bool)
    (result : Delivering Channels) : World Body :=
  match result with
  | .ok channels => { world with channels := channels }
  | .error error => { world with
      tasks := .returning delivery posted ("sweep_crashed_" ++ error.className) :: world.tasks }

/-- The task that follows a request. -/
def afterRequest (delivery : GovernancePropagationDelivery) (occurredAt : Timestamp) :
    Except String (DeliveryAttemptOutcome Body) → Task Body
  | .ok outcome => .answered delivery outcome occurredAt
  | .error name => .returning delivery true ("sweep_crashed_" ++ name)

variable [DecidableEq Body]

/-- A worker goes on with a task it has in hand. -/
def World.takeUp (world : World Body) (task : Task Body) : Delivering (World Body) := do
  require (task ∈ world.tasks) .noTask
  return { world with tasks := world.tasks.erase task }

variable (wire : Wire Body) (env : Platform) (secret : String) (maxAttempts : Nat)

def perform (step : Step Body) (world : World Body) : Delivering (World Body) :=
  match step with
  | .govern eventId event => do
    require (governs event.idempotencyKey) .noTask
    let (_, ledger) ← (appendDraftEvent world.channels.ledger eventId event).mapError .ledgerError
    return { world with channels := { world.channels with ledger := ledger } }
  | .publish command => do
    let channels ← applyDurablePublish world.channels command
    return { world with channels := channels }
  | .update command actorId eventId now => do
    let (_, channels) ← updatePropagation env world.channels command actorId eventId now
    return { world with channels := channels }
  | .acknowledge deliveryId body signature eventId now => do
    let (_, channels) ← acknowledgePropagationDelivery wire env secret world.channels deliveryId body
      signature eventId now
    return { world with channels := channels }
  | .claim limit locked now => do
    require (1 ≤ limit ∧ limit ≤ deliverySweepLimit)
      (.valueError s!"limit must be between 1 and {deliverySweepLimit}")
    let claimed := claimPendingDeliveries world.channels.deliveries limit locked now
    return { world with
      channels := { world.channels with
        deliveries := claimed.foldl (fun deliveries delivery => saveDelivery delivery now deliveries)
          world.channels.deliveries },
      tasks := world.tasks ++ claimed.map .claimed }
  | .skip delivery lastError => do
    let world ← world.takeUp (.claimed delivery)
    return { world with tasks := .returning delivery false lastError :: world.tasks }
  | .reject delivery error occurredAt eventId now => do
    let world ← world.takeUp (.claimed delivery)
    let attempt : Attempt := ⟨max 1 (delivery.attempts + 1), some error, none, occurredAt⟩
    return world.finish delivery false (recordTerminal world.channels delivery.id attempt .failed
      "delivery_destination_rejected" eventId now)
  | .post delivery reply occurredAt => do
    let world ← world.takeUp (.claimed delivery)
    return { world with
      tasks := afterRequest delivery occurredAt
        (sendDeliveryRequest wire secret delivery reply) :: world.tasks,
      posts := delivery.id :: world.posts }
  | .record delivery outcome occurredAt eventId now => do
    let world ← world.takeUp (.answered delivery outcome occurredAt)
    return world.finish delivery true (recordOutcome wire env secret maxAttempts world.channels
      delivery outcome occurredAt eventId now)
  | .revert delivery posted lastError now => do
    let world ← world.takeUp (.returning delivery posted lastError)
    return { world with channels := revertToPending world.channels delivery.id lastError now }
  | .die task => do
    let world ← world.takeUp task
    return { world with
      lost := if task.posted then task.delivery.id :: world.lost else world.lost }

end Steps

end Cygnus.Delivery
