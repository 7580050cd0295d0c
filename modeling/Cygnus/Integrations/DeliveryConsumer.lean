import Cygnus.Data.PyJson
import Cygnus.Delivery.Channel

/-! The consumer of signed propagation deliveries: what it accepts, the receipt it keeps of it, and
the signed acknowledgment it answers with. -/

namespace Cygnus.Integrations

open Text Result Delivery

abbrev Bytes := List UInt8

/-- What the consumer takes from the interpreter and the hash library. -/
structure Runtime (R : Type) where
  floats : Floats R
  readDepth : Nat
  writeDepth : Nat
  sha256 : Bytes → String
  wire : Wire Bytes

section Requests

/-- A request as the server hands it over: header names in lower case, values decoded from Latin-1,
and the body in chunks, the last of which may fail to arrive. -/
structure Request where
  headers : List (String × String)
  chunks : List (Option Bytes)

def Request.getlist (request : Request) (name : String) : List String :=
  (request.headers.filter fun header => header.1 = name.toLower).map Prod.snd

/-- `_DeliveryRequestError`. -/
structure RequestError where
  statusCode : Nat
  detail : String

abbrev Handling := Except RequestError

def maxDeliveryBodyBytes : Nat := 1024 * 1024
def maxDeliveryIdChars : Nat := 220
def maxSurfaceIdChars : Nat := 120
def maxObjectVersion : Int := 2147483647

def requiredHeader (request : Request) (name : String) (maximum : Nat) : Handling String :=
  match request.getlist name with
  | [raw] => do
    require (strip raw ≠ "" ∧ strip raw = raw ∧ raw.length ≤ maximum)
      ⟨400, s!"{name} header is invalid"⟩
    return raw
  | _ => throw ⟨400, s!"{name} header is required"⟩

def optionalResponseHeader (request : Request) (name : String) : Option String :=
  match request.getlist name with
  | [raw] => if strip raw ≠ "" ∧ strip raw = raw ∧ raw.length ≤ 200 then some raw else none
  | _ => none

/-- `int(declared_length)`, which also refuses a literal with too many digits. -/
def declaredLength (value : String) : Option Int :=
  if (value.toList.filter Char.isDigit).length ≤ PyJson.maxIntDigits then parseInt value else none

def readChunks (body : Bytes) : List (Option Bytes) → Handling Bytes
  | [] => return body
  | none :: _ => throw ⟨400, "delivery body could not be read"⟩
  | some chunk :: chunks => do
    require (body.length + chunk.length ≤ maxDeliveryBodyBytes)
      ⟨413, "delivery body exceeds the size limit"⟩
    readChunks (body ++ chunk) chunks

def readBoundedBody (request : Request) : Handling Bytes := do
  match (request.getlist "content-length").head? with
  | none => readChunks [] request.chunks
  | some value => do
    let length ← demand (declaredLength value) ⟨400, "delivery content length is invalid"⟩
    require (0 ≤ length) ⟨400, "delivery content length is invalid"⟩
    require (length ≤ maxDeliveryBodyBytes) ⟨413, "delivery body exceeds the size limit"⟩
    readChunks [] request.chunks

def requireJsonContentType (request : Request) : Handling Unit :=
  let contentType := (request.getlist "content-type").head?.getD ""
  let mediaType := strip (String.ofList (contentType.toList.takeWhile (· ≠ ';')))
  require (mediaType.toLower = "application/json")
    ⟨415, "delivery content type must be application/json"⟩

end Requests

section Canonical

variable {R : Type} (runtime : Runtime R)

/-- `str.encode("utf-8")` of a text without surrogates. -/
def encodeText (text : List Char) : Bytes := text.flatMap String.utf8EncodeChar

def decodeText (body : Bytes) : Option (List Char) :=
  body.toByteArray.utf8Decode?.map fun text => text.toList

/-- The canonical bytes of a document that can be written. -/
def canonicalBytes (document : PyJson R) : Bytes :=
  encodeText (document.sortKeys.write runtime.floats)

def canonicalJson (document : PyJson R) : Option Bytes :=
  (document.dumps runtime.floats runtime.writeDepth).map encodeText

def loadsBody (body : Bytes) : Option (PyJson R) :=
  (decodeText body).bind (PyJson.loads runtime.floats false runtime.readDepth)

def key (name : String) : PyStr := Utf8.ofString name

def field (payload : List (PyStr × PyJson R)) (name : String) : Option (PyJson R) :=
  payload.lookup (key name)

def text (value : String) : PyJson R := .str (Utf8.ofString value)

def asStr : PyJson R → Option PyStr
  | .str value => some value
  | _ => none

def asInt : PyJson R → Option Int
  | .int value => some value
  | _ => none

end Canonical

section Identity

/-- `_ReceiptIdentity`, and a row of `delivery_consumer_receipts`. -/
structure ReceiptIdentity where
  deliveryId : String
  bodySha256 : String
  publicationId : Uuid
  surfaceId : String
  objectVersion : Int
  receiptRef : String
  deriving DecidableEq

variable {R : Type} (runtime : Runtime R)

def receiptRef (deliveryId bodySha256 : String) (publicationId : Uuid) (surfaceId : String)
    (objectVersion : Int) : String :=
  let identity : PyJson R := .object [
    (key "body_sha256", text bodySha256), (key "delivery_id", text deliveryId),
    (key "object_version", .int objectVersion), (key "publication_id", text publicationId.text),
    (key "surface_id", text surfaceId)]
  s!"delivery-consumer:{runtime.sha256 (canonicalBytes runtime identity)}"

def isBlank (c : CodePoint) : Bool := (Utf8.toChar? c).any isSpace

/-- `str.strip`. -/
def stripPoints (s : PyStr) : PyStr := (s.dropWhile isBlank).rdropWhile isBlank

def isChannel (channel : PyStr) : Bool :=
  channel ≠ [] && stripPoints channel = channel && channel.length ≤ maxSurfaceIdChars

/-- The target channels of a payload, when they are distinct names. -/
def targetChannels (payload : List (PyStr × PyJson R)) : Option (List PyStr) :=
  match field payload "target_channels" with
  | some (.list items) => do
    let channels ← items.mapM asStr
    if channels ≠ [] ∧ channels.all isChannel ∧ channels.Nodup then some channels else none
  | _ => none

/-- `_decode_identity` of a payload that is read and canonical. -/
def payloadIdentity (request : Request) (payload : List (PyStr × PyJson R)) (bodySha256 : String) :
    Handling ReceiptIdentity := do
  let deliveryId ← requiredHeader request "X-Cygnus-Delivery-Id" maxDeliveryIdChars
  let headerPublicationId ← requiredHeader request "X-Cygnus-Publication-Id" 36
  require ((field payload "publication_id").bind asStr =
      some (Utf8.ofString headerPublicationId))
    ⟨400, "delivery publication identity does not match"⟩
  let publicationId ← demand (Uuid.parse headerPublicationId)
    ⟨400, "delivery publication identity is invalid"⟩
  require (publicationId.text = headerPublicationId)
    ⟨400, "delivery publication identity is invalid"⟩
  let surfaceId ← requiredHeader request "X-Cygnus-Surface" maxSurfaceIdChars
  require (deliveryId = s!"delivery:{publicationId.text}:{surfaceId}")
    ⟨400, "delivery receipt identity does not match"⟩
  let objectVersion ← demand ((field payload "object_version").bind asInt)
    ⟨400, "delivery object_version must be positive"⟩
  require (1 ≤ objectVersion ∧ objectVersion ≤ maxObjectVersion)
    ⟨400, "delivery object_version must be positive"⟩
  let channels ← demand (targetChannels payload) ⟨400, "delivery target_channels are invalid"⟩
  require (Utf8.ofString surfaceId ∈ channels) ⟨400, "delivery surface is not a target channel"⟩
  return ⟨deliveryId, bodySha256, publicationId, surfaceId, objectVersion,
    receiptRef runtime deliveryId bodySha256 publicationId surfaceId objectVersion⟩

def decodeIdentity (request : Request) (body : Bytes) : Handling ReceiptIdentity := do
  let decoded ← demand (loadsBody runtime body) ⟨400, "delivery body is not valid JSON"⟩
  match decoded with
  | .object payload => do
    let canonicalBody ← demand (canonicalJson runtime decoded)
      ⟨400, "delivery body is not canonical JSON"⟩
    require (canonicalBody = body) ⟨400, "delivery body is not canonical JSON"⟩
    payloadIdentity runtime request payload (runtime.sha256 canonicalBody)
  | _ => throw ⟨400, "delivery body must be a JSON object"⟩

end Identity

section Receipts

/-- What goes wrong with the receipt store: nothing, the transaction fails, or its commit takes
effect and the confirmation is lost. -/
inductive StoreFault
  | none
  | failed
  | unconfirmed
  deriving DecidableEq

inductive PersistError
  | replayConflict
  | storeUnavailable
  deriving DecidableEq

def sameIdentity (receipt incoming : ReceiptIdentity) : Bool :=
  receipt.bodySha256 = incoming.bodySha256 && receipt.publicationId = incoming.publicationId &&
    receipt.surfaceId = incoming.surfaceId && receipt.objectVersion = incoming.objectVersion &&
    receipt.receiptRef = incoming.receiptRef

abbrev Receipts := List ReceiptIdentity

def Receipts.get (receipts : Receipts) (deliveryId : String) : Option ReceiptIdentity :=
  receipts.find? (·.deliveryId = deliveryId)

/-- One transaction: `INSERT … ON CONFLICT DO NOTHING`, and the stored row when it inserts nothing. -/
def persistReceipt (fault : StoreFault) (receipts : Receipts) (incoming : ReceiptIdentity) :
    Except PersistError ReceiptIdentity × Receipts :=
  match receipts.get incoming.deliveryId with
  | none =>
    match fault with
    | .none => (.ok incoming, receipts ++ [incoming])
    | .failed => (.error .storeUnavailable, receipts)
    | .unconfirmed => (.error .storeUnavailable, receipts ++ [incoming])
  | some receipt =>
    if fault ≠ .none then (.error .storeUnavailable, receipts)
    else if sameIdentity receipt incoming then (.ok receipt, receipts)
    else (.error .replayConflict, receipts)

end Receipts

section Acceptance

variable {R : Type} (runtime : Runtime R)

def ackBody (receipt : ReceiptIdentity) : Bytes :=
  canonicalBytes runtime (.object [
    (key "digest", text receipt.bodySha256), (key "publication_id", text receipt.publicationId.text),
    (key "receipt_ref", text receipt.receiptRef), (key "surface_id", text receipt.surfaceId),
    (key "version", .int receipt.objectVersion)])

inductive Response
  | error (statusCode : Nat) (detail : String)
  | accepted (body : Bytes) (headers : List (String × String))
  /-- an exception that no handler catches -/
  | serverError

def RequestError.response (error : RequestError) : Response := .error error.statusCode error.detail

def signatureOf (request : Request) : String :=
  match request.getlist "X-Cygnus-Signature" with
  | [signature] => signature
  | _ => ""

def ackSignature (secret : String) (body : Bytes) : String :=
  s!"sha256={runtime.wire.signBody body secret}"

/-- The headers of an acknowledgment, with the trace headers of the request. -/
def ackHeaders (secret : String) (request : Request) (body : Bytes) : List (String × String) :=
  ("X-Cygnus-Ack-Signature", ackSignature runtime secret body) ::
    ["X-Cygnus-Correlation-Id", "traceparent"].filterMap fun name =>
      (optionalResponseHeader request name).map fun value => (name, value)

/-- The identity that an authentic request asks a receipt for, or its refusal. -/
def authenticate (secret : String) (request : Request) : Except Response ReceiptIdentity := do
  require (secret ≠ "") (.error 503 "delivery consumer is unavailable")
  let body ← (requireJsonContentType request >>= fun _ => readBoundedBody request).mapError
    RequestError.response
  let valid ← (verifyAckSignature runtime.wire body (signatureOf request) secret).mapError
    fun _ => .serverError
  require (valid = true) (.error 401 "delivery signature is invalid")
  (decodeIdentity runtime request body).mapError RequestError.response

def acceptPropagationDelivery (secret : String) (fault : StoreFault) (receipts : Receipts)
    (request : Request) : Response × Receipts :=
  match authenticate runtime secret request with
  | .error response => (response, receipts)
  | .ok incoming =>
    match persistReceipt fault receipts incoming with
    | (.error .replayConflict, receipts) =>
      (.error 409 "delivery receipt identity conflicts", receipts)
    | (.error .storeUnavailable, receipts) =>
      (.error 503 "delivery receipt store is unavailable", receipts)
    | (.ok receipt, receipts) =>
      let body := ackBody runtime receipt
      (.accepted body (ackHeaders runtime secret request body), receipts)

end Acceptance

end Cygnus.Integrations
