import Cygnus.Delivery.CircuitBreaker
import Cygnus.Delivery.Destination
import Cygnus.Delivery.Sweep

/-! One sweep of a worker: it claims the oldest due deliveries and goes through them one after the
other. -/

namespace Cygnus.Delivery

open Wiki Text Result Sequence Governance Url

/-- What a sweep is configured with, and what it uses of the libraries. -/
structure SweepSettings (Body : Type) where
  unicode : Unicode
  urljoin : Chars → Chars → Chars
  wire : Wire Body
  platform : Platform
  targets : List (Chars × Chars)
  allowInsecureHttp : Bool
  maxAttempts : Nat
  secret : String

/-- What a sweep meets: the clocks, the identifiers it draws for ledger events, and the replies of
the channels. -/
structure SweepCall (Body T : Type) where
  now : Timestamp
  time : T
  eventId : Uuid → Uuid
  reply : Uuid → HttpReply Body

/-- The database, the circuits of the process and the requests that it has made. -/
structure Outbox (T : Type) where
  channels : Channels
  circuits : Circuits T
  dispatched : List Uuid := []

def deliveryPath : Chars := "api/internal/propagation-delivery".toList

variable {Body T : Type} (settings : SweepSettings Body)

def SweepSettings.allowedOrigins : Except DestinationError (List Chars) :=
  deliveryTargetOrigins settings.unicode settings.targets

def deliveryEndpointUrl (baseUrl : Chars) : Except DestinationError Chars := do
  let normalized := (stripText baseUrl).rdropWhile (· = '/')
  require (normalized ≠ []) (.policy "delivery target base URL must not be blank")
  return settings.urljoin (normalized ++ ['/']) deliveryPath

def urlHost (unicode : Unicode) (rawUrl : Chars) : Except DestinationError Chars := do
  let parts ← demand (urlsplit unicode (stripText rawUrl)) .value
  let hostname ← demand (parts.hostname unicode) (.policy "delivery destination has no host")
  return normalizedHost unicode hostname

def DestinationError.className : DestinationError → String
  | policy _ => "deliverypolicyerror"
  | _ => "valueerror"

/-- The `ValueError` for a target that no origin can be read from. -/
def DestinationError.unreadable : DestinationError → DeliveryError
  | targetHasNoHost rawUrl => .valueError ("delivery target has no host: " ++ reprText rawUrl)
  | _ => .valueError ""

/-- What `_execute_delivery_claim` finds for a surface before it asks the circuit. -/
inductive Route
  | noTarget
  | rejected (message : String)
  | crashed (className : String)
  | toHost (host : String)
  deriving DecidableEq

def routeOf (allowedOrigins : List Chars) (surfaceId : String) : Route :=
  match settings.targets.lookup surfaceId.toList with
  | none => .noTarget
  | some baseUrl =>
    match deliveryEndpointUrl settings baseUrl >>= fun url =>
        validateDeliveryDestination settings.unicode url allowedOrigins
          settings.allowInsecureHttp with
    | .error (.policy message) => .rejected message
    | .error error => .crashed error.className
    | .ok requestUrl =>
      match urlHost settings.unicode requestUrl with
      | .error error => .crashed error.className
      | .ok host => .toHost (String.ofList host)

def Outbox.revert (outbox : Outbox T) (claimed : GovernancePropagationDelivery)
    (lastError : String) (now : Timestamp) : Outbox T :=
  { outbox with channels := revertToPending outbox.channels claimed.id lastError now }

/-- The end of a claim's transaction; what escapes it is rolled back and the claim reverted. -/
def Outbox.settle (outbox : Outbox T) (claimed : GovernancePropagationDelivery) (now : Timestamp) :
    Delivering Channels → Outbox T
  | .ok channels => { outbox with channels := channels }
  | .error error => outbox.revert claimed ("sweep_crashed_" ++ error.className) now

def rejection (claimed : GovernancePropagationDelivery) (message : String) (now : Timestamp) :
    Attempt :=
  ⟨max 1 (claimed.attempts + 1), some message, none, now⟩

section Circuit

variable [Clock T] (breaker : DeliveryCircuitBreaker T)

/-- What `send_delivery_request` tells the circuit. -/
def DeliveryCircuitBreaker.record (circuits : Circuits T) (host : String) (time : T) :
    DeliveryAttemptOutcome Body → Circuits T
  | .synced _ _ _ => DeliveryCircuitBreaker.recordSuccess circuits host
  | .unsynced _ _ _ => breaker.recordFailure circuits host time

/-- The request and the record of its outcome. -/
def dispatch (call : SweepCall Body T) (host : String) (outbox : Outbox T)
    (claimed : GovernancePropagationDelivery) : Outbox T :=
  let posted := { outbox with dispatched := outbox.dispatched ++ [claimed.id] }
  match sendDeliveryRequest settings.wire settings.secret claimed (call.reply claimed.id) with
  | .error name => posted.revert claimed ("sweep_crashed_" ++ name) call.now
  | .ok outcome =>
    { posted with circuits := breaker.record posted.circuits host call.time outcome }.settle claimed
      call.now (recordOutcome settings.wire settings.platform settings.secret settings.maxAttempts
        posted.channels claimed outcome call.now (call.eventId claimed.id) call.now)

/-- `_execute_delivery_claim`, with the loop's handler around it. -/
def executeDeliveryClaim (allowedOrigins : List Chars) (call : SweepCall Body T)
    (outbox : Outbox T) (claimed : GovernancePropagationDelivery) : Outbox T :=
  match routeOf settings allowedOrigins claimed.surfaceId with
  | .noTarget => outbox.revert claimed "no_configured_delivery_target" call.now
  | .crashed className => outbox.revert claimed ("sweep_crashed_" ++ className) call.now
  | .rejected message =>
    outbox.settle claimed call.now (recordTerminal outbox.channels claimed.id
      (rejection claimed message call.now) .failed "delivery_destination_rejected"
      (call.eventId claimed.id) call.now)
  | .toHost host =>
    let answer := breaker.allow outbox.circuits host call.time
    if answer.1 then
      dispatch settings breaker call host { outbox with circuits := answer.2 } claimed
    else { outbox with circuits := answer.2 }.revert claimed "circuit_open" call.now

/-- The database after the claim is committed. -/
def Outbox.claim (outbox : Outbox T) (claimed : List GovernancePropagationDelivery)
    (now : Timestamp) : Outbox T :=
  { outbox with channels := { outbox.channels with
    deliveries := claimed.foldl (fun deliveries delivery => saveDelivery delivery now deliveries)
      outbox.channels.deliveries } }

def drainPropagationDeliveries (limit : Nat) (outbox : Outbox T) (call : SweepCall Body T) :
    Delivering (Outbox T) := do
  require (1 ≤ limit ∧ limit ≤ deliverySweepLimit)
    (.valueError s!"limit must be between 1 and {deliverySweepLimit}")
  let allowedOrigins ← settings.allowedOrigins.mapError DestinationError.unreadable
  let claimed := claimPendingDeliveries outbox.channels.deliveries limit [] call.now
  return claimed.foldl (executeDeliveryClaim settings breaker allowedOrigins call)
    (outbox.claim claimed call.now)

/-- The outbox after a sweep; one that raises before its claim leaves it. -/
def sweep (limit : Nat) (outbox : Outbox T) (call : SweepCall Body T) : Outbox T :=
  (drainPropagationDeliveries settings breaker limit outbox call).toOption.getD outbox

/-- One of the sweeps makes a request. -/
def Dispatches (limit : Nat) : Outbox T → List (SweepCall Body T) → Prop
  | _, [] => False
  | outbox, call :: calls =>
    (sweep settings breaker limit outbox call).dispatched ≠ outbox.dispatched ∨
      Dispatches limit (sweep settings breaker limit outbox call) calls

end Circuit

end Cygnus.Delivery
