import Cygnus.Integrations.DeliveryRequests
import Cygnus.Publish.Agreement

/-! The two ends of a delivery agree: what a publication stages is accepted by the consumer, and its
acknowledgment is accepted by the worker. -/

namespace Cygnus.Integrations

open Wiki Text Result Delivery Publish

variable {R : Type} {env : Platform} {runtime : Runtime R} {secret : String}

section Acknowledgments

/-- A receipt whose fields have the shapes that the worker checks. -/
structure ReceiptIdentity.Shaped (runtime : Runtime R) (receipt : ReceiptIdentity) : Prop where
  digest : IsSha256 receipt.bodySha256
  surface : Stripped receipt.surfaceId ∧ receipt.surfaceId.length ≤ maxSurfaceIdChars
  version : 1 ≤ receipt.objectVersion ∧ receipt.objectVersion ≤ maxObjectVersion
  reference : ∃ digest, IsSha256 digest ∧ receipt.receiptRef = "delivery-consumer:" ++ digest

def ackFields (receipt : ReceiptIdentity) : JsonObject := [
  ("digest", .str receipt.bodySha256), ("publication_id", .str receipt.publicationId.text),
  ("receipt_ref", .str receipt.receiptRef), ("surface_id", .str receipt.surfaceId),
  ("version", .int receipt.objectVersion)]

def ackPayload (receipt : ReceiptIdentity) : AckPayload :=
  ⟨receipt.publicationId, receipt.surfaceId, receipt.objectVersion, receipt.bodySha256,
    some receipt.receiptRef⟩

variable {receipt : ReceiptIdentity}

theorem sortKeys_ackFields :
    (Json.object (ackFields receipt)).sortKeys = Json.object (ackFields receipt) := by
  have hsorted : (Json.sortFields (ackFields receipt)).Pairwise fun a b => a.1 ≤ b.1 := by
    simp only [ackFields, Json.sortFields, Json.sortKeys]
    refine .cons ?_ (.cons ?_ (.cons ?_ (.cons ?_ (.cons ?_ .nil))))
    all_goals
      simp only [List.mem_cons, List.not_mem_nil, or_false, forall_eq_or_imp, forall_eq,
        false_imp_iff, implies_true]
      try decide
  rw [Json.sortKeys, Sequence.sortedBy_of_pairwise hsorted]
  rfl

theorem ackBody_eq (runtime : Runtime R) (receipt : ReceiptIdentity) : ackBody runtime receipt =
    encodeText (Json.dumps (.object (ackFields receipt))).toList := by
  have hdocument : ackBody runtime receipt =
      canonicalBytes runtime (Json.object (ackFields receipt)).toPy := rfl
  rw [hdocument, canonicalBytes, Json.sortKeys_toPy, Json.write_toPy, Json.dumps,
    String.toList_ofList]

theorem ReceiptIdentity.Shaped.intFits (h : receipt.Shaped runtime) :
    PyJson.intFits receipt.objectVersion := by
  have hdigits : (Nat.toDigits 10 receipt.objectVersion.natAbs).length ≤ 10 := by
    rw [Nat.length_toDigits_le_iff (by decide) (by decide)]
    have hbound := h.version
    simp only [maxObjectVersion] at hbound
    omega
  exact decide_eq_true (Nat.le_trans hdigits (by decide))

theorem length_ackBody_le (h : receipt.Shaped runtime) :
    (ackBody runtime receipt).length ≤ maxDeliveryBodyBytes := by
  obtain ⟨digest, hdigest, hreference⟩ := h.reference
  have hreference : receipt.receiptRef.length = 82 := by
    rw [hreference, String.length_append, hdigest.1]
    rfl
  have hversion : (toString receipt.objectVersion).length ≤ 4301 := by
    have hdigits := PyJson.intFits_natAbs h.intFits
    simp only [PyJson.maxIntDigits] at hdigits
    rw [← String.length_toList]
    rcases PyJson.toString_cases receipt.objectVersion with ⟨-, htext⟩ | ⟨-, htext⟩
    · rw [htext]
      omega
    · rw [htext, List.length_cons]
      omega
  have hsize : ∀ s : String, s.utf8ByteSize ≤ 4 * s.length := by
    intro s
    rw [← String.length_toList]
    exact (Json.utf8ByteSize_bounds s).2
  have hweight : (Json.object (ackFields receipt)).weight ≤ 40000 := by
    have hdigestSize := hsize receipt.bodySha256
    have hpublicationSize := hsize receipt.publicationId.text
    have hreferenceSize := hsize receipt.receiptRef
    have hsurfaceSize := hsize receipt.surfaceId
    have hversionSize := hsize (toString receipt.objectVersion)
    have hsurface := h.surface.2
    have hkeys : "digest".utf8ByteSize = 6 ∧ "publication_id".utf8ByteSize = 14 ∧
        "receipt_ref".utf8ByteSize = 11 ∧ "surface_id".utf8ByteSize = 10 ∧
        "version".utf8ByteSize = 7 := by decide
    rw [h.digest.1] at hdigestSize
    rw [(stripped_text receipt.publicationId).2] at hpublicationSize
    simp only [maxSurfaceIdChars] at hsurface
    simp only [ackFields, Json.weight, Json.weightFields]
    omega
  have htext := Json.length_render_le (.object (ackFields receipt))
  have hbytes := (Json.length_utf8_bounds (Json.object (ackFields receipt)).render).2
  rw [ackBody_eq, Json.dumps, String.toList_ofList]
  simp only [encodeText, maxDeliveryBodyBytes]
  omega

theorem loadsBody_ackBody (hshares : Shares env runtime) (h : receipt.Shaped runtime) :
    loadsBody runtime (ackBody runtime receipt) =
      some (Json.object (ackFields receipt)).toPy := by
  have hkeys : (Json.object (ackFields receipt)).DistinctKeys := by
    apply Json.DistinctKeys.object
    · simp [ackFields]
    · intro field hfield
      simp only [ackFields, List.mem_cons, List.not_mem_nil, or_false] at hfield
      rcases hfield with rfl | rfl | rfl | rfl | rfl
      · exact .str _
      · exact .str _
      · exact .str _
      · exact .str _
      · exact .int _
  have hwritable : ((Json.object (ackFields receipt)).toPy : PyJson R).writable
      runtime.writeDepth := by
    have hdepth : 0 < runtime.writeDepth := hshares.nests.1
    simp [ackFields, Json.toPy, Json.fieldsToPy, PyJson.writable, PyJson.fieldsWritable, hdepth,
      h.intFits]
  have hread := Json.loads_dumps runtime.floats false hkeys hwritable
    hshares.nests.2
  rw [loadsBody, ackBody_eq, decodeText_encodeText, Option.bind_some, hread, sortKeys_ackFields]

/-- The worker reads from an acknowledgment what the receipt holds. -/
theorem parseAckBody_ackBody (hshares : Shares env runtime) (h : receipt.Shaped runtime) :
    parseAckBody runtime.wire (ackBody runtime receipt) = .ok (ackPayload receipt) := by
  have hsize : runtime.wire.size (ackBody runtime receipt) ≤ 1024 * 1024 := by
    rw [hshares.size]
    exact length_ackBody_le h
  obtain ⟨digest, -, hreference⟩ := h.reference
  have hblank : strip receipt.receiptRef ≠ "" := by
    apply strip_ne_empty (c := 'd') _ rfl
    rw [hreference, String.toList_append]
    exact List.mem_append_left _ (by decide)
  have hsurface := h.surface.1
  rw [parseAckBody, require_of hsize, ok_bind, hshares.loads _ _ (loadsBody_ackBody hshares h)]
  simp [parseAckFields, ackFields, Json.lookup, List.lookup_cons, Uuid.parse_text, hsurface.1,
    hsurface.2, Json.asInt, h.version.1, h.digest.1, isHexNumber_of_isSha256 h.digest,
    parseReceiptRef, hblank, require, bind, Except.bind, pure, Except.pure, ackPayload]

end Acknowledgments

section Rows

variable {row : DeliveryRow} {command : DurablePublishCommand} {qualified : Qualified}

/-- The row fits the columns of its table. -/
def Fits (row : DeliveryRow) : Prop :=
  row.surfaceId.length ≤ maxSurfaceIdChars ∧ (row.expectedPageVersion : Int) ≤ maxObjectVersion

theorem shaped_rowReceipt (hshares : Shares env runtime) (hshipped : Shipped env row command qualified)
    (hfits : Fits row) : (rowReceipt runtime row).Shaped runtime := by
  obtain ⟨-, hdigest, hpage, hpositive, -, htarget, -⟩ := hshipped
  refine ⟨?_, ⟨command.stripped _ htarget, hfits.1⟩, ⟨?_, hfits.2⟩, ?_⟩
  · have hvalue : row.desiredDigest =
        runtime.sha256 (encodeText (Json.dumps (.object row.canonicalPayload)).toList) := by
      rw [hdigest, canonicalDeliveryDigest, Governance.canonicalSha256, hshares.dumps,
        hshares.sha256]
    rw [rowReceipt, hvalue]
    exact hshares.digest _
  · have hversion : (1 : Int) ≤ row.expectedPageVersion := by
      rw [hpage]
      exact_mod_cast hpositive
    exact hversion
  · exact ⟨_, hshares.digest _, rfl⟩

/-- The acknowledgment of its receipt settles a delivery. -/
theorem sendDeliveryRequest_ackBody (hshares : Shares env runtime) (hsecret : secret ≠ "")
    (hshipped : Shipped env row command qualified) (hfits : Fits row) :
    sendDeliveryRequest runtime.wire secret row.toGovernancePropagationDelivery
      (.response 200 (ackBody runtime (rowReceipt runtime row))
        (ackSignature runtime secret (ackBody runtime (rowReceipt runtime row)))) =
      .ok (.synced 200 (ackBody runtime (rowReceipt runtime row))
        (ackSignature runtime secret (ackBody runtime (rowReceipt runtime row)))) := by
  have hshaped := shaped_rowReceipt hshares hshipped hfits
  have hbinding : validateAckBinding (ackPayload (rowReceipt runtime row))
      row.toGovernancePropagationDelivery = .ok () := by
    simp [validateAckBinding, ackPayload, rowReceipt, require, bind, Except.bind]
  simp only [sendDeliveryRequest, verify_signed hshares hsecret,
    parseAckBody_ackBody hshares hshaped, ok_bind, hbinding]
  rfl

end Rows

section Runs

variable {repr : BindingKey → String} {maxAttempts : Nat} {state state' : Governed}
  {row other : DeliveryRow} {command : DurablePublishCommand}

theorem deliveryKey_inj {first second : Uuid} {surface channel : String}
    (h : deliveryKey first surface = deliveryKey second channel) :
    first = second ∧ surface = channel := by
  have htext : first.text.toList ++ (':' :: surface.toList) =
      second.text.toList ++ (':' :: channel.toList) := by
    have hkey : ∀ (id : Uuid) (name : String), (deliveryKey id name).toList =
        "delivery:".toList ++ (id.text.toList ++ (':' :: name.toList)) := by
      intro id name
      have hparts : deliveryKey id name = "delivery:" ++ id.text ++ ":" ++ name := rfl
      rw [hparts, String.toList_append, String.toList_append, String.toList_append,
        List.append_assoc, List.append_assoc]
      rfl
    have hboth := congrArg String.toList h
    rw [hkey, hkey] at hboth
    exact List.append_cancel_left hboth
  have hlength : first.text.toList.length = second.text.toList.length := by
    rw [String.length_toList, String.length_toList, (stripped_text first).2,
      (stripped_text second).2]
  obtain ⟨hid, hname⟩ := List.append_inj htext hlength
  exact ⟨Uuid.text_injective (String.toList_inj.mp hid),
    String.toList_inj.mp (List.cons.inj hname).2⟩

theorem staged_inj (h : Staged state) (hrow : row ∈ state.deliveries)
    (hother : other ∈ state.deliveries) (hpublication : row.publicationId = other.publicationId)
    (hsurface : row.surfaceId = other.surfaceId) : row = other := by
  obtain ⟨publication, hmem, hid⟩ := h.deliveries row hrow
  have honce := h.once publication hmem
  have hnodup := honce.distinct
  rw [← honce.deliveries] at hnodup
  apply List.inj_on_of_nodup_map hnodup _ _ hsurface
  · exact List.mem_filter.mpr ⟨hrow, decide_eq_true hid.symm⟩
  · exact List.mem_filter.mpr ⟨hother, decide_eq_true (hpublication.symm.trans hid.symm)⟩

/-- Each staged row is one that a publication ships, with rows for all of its channels. -/
def Ships (env : Platform) (state : Governed) : Prop :=
  ∀ row ∈ state.deliveries, ∃ command qualified, Shipped env row command qualified ∧
    ∀ channel ∈ command.targetChannels, ∃ other ∈ state.deliveries, other.surfaceId = channel

theorem expectedVersion_pos {request : PublishRequest}
    (h : request.command = .ok command) : 1 ≤ command.expectedVersion := by
  obtain ⟨-, -, -, -, -, -, hversion, -⟩ := DurablePublishCommand.make_ok h
  simp only [PublishRequest.command, DurablePublishCommand.make, bind_ok, require_ok] at h
  obtain ⟨-, -, -, -, -, -, -, -, -, hpositive, -⟩ := h
  omega

theorem Ships.publish {actorId : Uuid} {ids : PublishIds} {now : Timestamp}
    {publication : PublicationRow} (h : Ships env state) (hpositive : 1 ≤ command.expectedVersion)
    (hdistinct : command.targetChannels.Nodup)
    (hpublishes : Publishes env repr maxAttempts state command actorId ids now publication state') :
    Ships env state' := by
  obtain ⟨qualified, result, event, ledger, hqualified, -, -, rfl, -, rfl⟩ := hpublishes
  obtain ⟨-, -, -, -, hversion, -⟩ := qualifyReview_ok (qualify_reviewed hqualified)
  intro row hrow
  rcases List.mem_append.mp hrow with hold | hnew
  · obtain ⟨command, qualified, hshipped, hchannels⟩ := h row hold
    refine ⟨command, qualified, hshipped, fun channel hchannel => ?_⟩
    obtain ⟨other, hother, hsurface⟩ := hchannels channel hchannel
    exact ⟨other, List.mem_append_left _ hother, hsurface⟩
  · obtain ⟨channel, hchannel, rfl⟩ := List.mem_map.mp hnew
    refine ⟨command, qualified, ⟨rfl, rfl, rfl, hversion ▸ hpositive, rfl, hchannel, hdistinct⟩,
      fun target htarget => ?_⟩
    exact ⟨_, List.mem_append_right _ (List.mem_map_of_mem htarget), rfl⟩

theorem perform_ships :
    Machine.Preserves (PublishStep.perform env repr maxAttempts) (fun _ _ => True) (Ships env) := by
  intro state state' step h _ hperform
  cases step with
  | elsewhere change =>
    cases hperform
    exact h
  | call request actorId ids now =>
    obtain ⟨⟨reply, _⟩, hexecute, rfl⟩ := map_ok.mp hperform
    simp only [executePublish, bind_ok, mapError_ok] at hexecute
    obtain ⟨command, hcommand, happly⟩ := hexecute
    rcases applyDurablePublish_ok happly with ⟨rfl, -⟩ | ⟨-, hpublishes⟩
    · exact h
    · exact h.publish (expectedVersion_pos hcommand)
        (PublishRequest.nodup_of_command hcommand) hpublishes

theorem publishRun_ships (env : Platform) (repr : BindingKey → String) (maxAttempts : Nat)
    (steps : List PublishStep) : Ships env (publishRun env repr maxAttempts steps) :=
  perform_ships.run (fun row hrow => by cases hrow) (Machine.meets_of_forall (fun _ _ => trivial) _ _)

/-- What a request that carries a staged row asks for. -/
theorem Ships.authenticate_sent (h : Ships env state) (hshares : Shares env runtime)
    (hsecret : secret ≠ "") (hfits : ∀ row ∈ state.deliveries, Fits row)
    (hrow : row ∈ state.deliveries) {request : Request} (hsends : Sends runtime secret row request) :
    authenticate runtime secret request = .ok (rowReceipt runtime row) := by
  obtain ⟨command, qualified, hshipped, hchannels⟩ := h row hrow
  apply Integrations.authenticate_sent hshares hsecret hshipped _ (hfits row hrow).2 hsends
  intro channel hchannel
  obtain ⟨other, hother, rfl⟩ := hchannels channel hchannel
  exact (hfits other hother).1

end Runs

section Handshake

def ackSignatureOf (headers : List (String × String)) : String :=
  (headers.lookup "X-Cygnus-Ack-Signature").getD ""

/-- The consumer accepts the delivery, keeps its receipt, and the worker takes its answer for the
acknowledgment. -/
def Settled (runtime : Runtime R) (secret : String) (row : DeliveryRow) : Response × Receipts → Prop
  | (.accepted body headers, receipts) => rowReceipt runtime row ∈ receipts ∧
      sendDeliveryRequest runtime.wire secret row.toGovernancePropagationDelivery
        (.response 200 body (ackSignatureOf headers)) =
          .ok (.synced 200 body (ackSignatureOf headers))
  | _ => False

variable {repr : BindingKey → String} {maxAttempts : Nat} {state : Governed} {row : DeliveryRow}

/-- Whatever deliveries of the rows came before, a request for one of them is settled unless the store
fails. -/
theorem serve_settled (hstaged : Staged state) (hships : Ships env state)
    (hshares : Shares env runtime) (hsecret : secret ≠ "")
    (hfits : ∀ row ∈ state.deliveries, Fits row) {before : List Exchange}
    (hbefore : ∀ exchange ∈ before, ∃ row ∈ state.deliveries,
      Sends runtime secret row exchange.request) {exchange : Exchange}
    (hfault : exchange.fault = .none) (hrow : row ∈ state.deliveries)
    (hsends : Sends runtime secret row exchange.request) :
    Settled runtime secret row
      (serve runtime secret (receiptsAfter runtime secret before) exchange) := by
  have hkept := kept runtime secret before
  have hauthentic := hships.authenticate_sent hshares hsecret hfits hrow hsends
  obtain ⟨command, qualified, hshipped, -⟩ := hships row hrow
  have hsettles := sendDeliveryRequest_ackBody hshares hsecret hshipped (hfits row hrow)
  -- a receipt under the delivery id of the row is that of the row
  have hsame : ∀ receipt ∈ receiptsAfter runtime secret before,
      receipt.deliveryId = row.idempotencyKey → receipt = rowReceipt runtime row := by
    intro receipt hmem hid
    obtain ⟨asking, hasking, hasked⟩ := hkept.asked receipt hmem
    obtain ⟨other, hother, hcarries⟩ := hbefore asking hasking
    have hreceipt := hships.authenticate_sent hshares hsecret hfits hother hcarries
    obtain rfl : rowReceipt runtime other = receipt := Except.ok.inj (hreceipt.symm.trans hasked)
    obtain ⟨_, _, hotherShipped, -⟩ := hships other hother
    have hkeys : deliveryKey other.publicationId other.surfaceId =
        deliveryKey row.publicationId row.surfaceId := by
      rw [← hotherShipped.2.2.2.2.1, ← hshipped.2.2.2.2.1]
      exact hid
    obtain ⟨hpublication, hsurface⟩ := deliveryKey_inj hkeys
    rw [staged_inj hstaged hother hrow hpublication hsurface]
  have hserves := serves runtime secret (receiptsAfter runtime secret before) exchange
  generalize serve runtime secret (receiptsAfter runtime secret before) exchange = outcome
    at hserves ⊢
  cases hserves with
  | refused hrefused =>
    rw [hauthentic] at hrefused
    cases hrefused
  | unavailable _ hfailed => exact absurd hfault hfailed
  | unconfirmed _ hfailed => exact absurd hfault hfailed
  | created hasked =>
    cases hauthentic.symm.trans hasked
    exact ⟨List.mem_append_right _ (List.mem_singleton_self _), hsettles⟩
  | replayed hasked _ hheld =>
    cases hauthentic.symm.trans hasked
    exact ⟨(Receipts.get_mem hheld).1, hsettles⟩
  | conflicting hasked _ hheld hne =>
    cases hauthentic.symm.trans hasked
    obtain ⟨hmem, hid⟩ := Receipts.get_mem hheld
    exact absurd (hsame _ hmem hid) hne

end Handshake

section Sample

def sampleDigest : String := "b41354bfb2938cebc0d209b23e09c961c1cadc476d44c871371e878f077e848d"

def samplePlatform : Platform where
  lower s := String.ofList (s.toList.map Char.toLower)
  sha256 _ := sampleDigest
  dumps := Json.dumps
  isoformat := toString

def sampleFloats : Floats (List Char) := ⟨id, "nan".toList, "inf".toList, "-inf".toList, id⟩

def sampleRuntime : Runtime (List Char) where
  floats := sampleFloats
  readDepth := 1000
  writeDepth := 1000
  sha256 _ := sampleDigest
  wire :=
    { size := List.length
      loads := fun body =>
        ((decodeText body).bind (PyJson.loads sampleFloats false 1000)).bind Json.ofPy
      signBody := fun _ _ => sampleDigest }

theorem sample_shares : Shares samplePlatform sampleRuntime := by
  have hdigest : IsSha256 sampleDigest := by
    have hall : (sampleDigest.toList.all fun c =>
        (List.range 16).any fun d => c == Uuid.hexDigit d) = true := by
      decide +kernel
    refine ⟨by decide +kernel, fun c hc => ?_⟩
    obtain ⟨d, hd, hdigit⟩ := List.any_eq_true.mp (List.all_eq_true.mp hall c hc)
    exact ⟨d, List.mem_range.mp hd, eq_of_beq hdigit⟩
  refine ⟨fun _ => rfl, fun _ => rfl, fun _ => hdigest, fun _ _ => hdigest, fun _ => rfl, ?_,
    by decide, by decide, le_rfl⟩
  intro body document hread
  have hloads : sampleRuntime.wire.loads body = (loadsBody sampleRuntime body).bind Json.ofPy := rfl
  rw [hloads, hread, Option.bind_some, Json.ofPy_toPy]

/-- The refund policy is reviewed and published to one channel. -/
def sampleSteps : List PublishStep := [
  .elsewhere { firstReview with events := [
    reviewEvent (refundDraft 1 10) 11 1 .proposalCreated none .draft [],
    reviewEvent (refundDraft 1 10) 12 2 .reviewRequested (some .draft) .inReview [],
    reviewEvent (refundDraft 1 10) 13 3 .approved (some .inReview) .approved
      [("approval_digest", .str sampleDigest)]] },
  .call ⟨1, 13, sampleDigest, sampleDigest, 20, "stale", "publish-1", "publish", ["web"], 1, none⟩ 3
    (refundIds 31) 50]

def isSendable (row : DeliveryRow) : Bool :=
  row.surfaceId.utf8ByteSize ≤ maxSurfaceIdChars && row.expectedPageVersion ≤ 1 &&
    ((Json.object row.canonicalPayload).toPy : PyJson (List Char)).writable 1000 &&
    (Json.object row.canonicalPayload).weight ≤ 20000

theorem sample_sendable :
    (publishRun samplePlatform (fun key => key.2) 5 sampleSteps).deliveries.length = 1 ∧
      (publishRun samplePlatform (fun key => key.2) 5 sampleSteps).deliveries.all isSendable := by
  decide +kernel

def requestOf (row : DeliveryRow) (body : Bytes) : Request where
  headers := (deliveryRequestHeaders row sampleDigest []).map fun header =>
    (header.1.toLower, header.2)
  chunks := [some body]

theorem arrives_requestOf (row : DeliveryRow) (body : Bytes) :
    Arrives (deliveryRequestHeaders row sampleDigest []) body (requestOf row body) := by
  have hnames : "Content-Type".toLower = "content-type" ∧
      "X-Cygnus-Signature".toLower = "x-cygnus-signature" ∧
      "X-Cygnus-Delivery-Id".toLower = "x-cygnus-delivery-id" ∧
      "X-Cygnus-Publication-Id".toLower = "x-cygnus-publication-id" ∧
      "X-Cygnus-Surface".toLower = "x-cygnus-surface" := by decide +kernel
  have hlength : "content-length".toLower = "content-length" := by decide +kernel
  constructor
  · intro header hheader
    simp only [deliveryRequestHeaders, List.append_nil, List.mem_cons, List.not_mem_nil,
      or_false] at hheader
    rcases hheader with rfl | rfl | rfl | rfl | rfl
    all_goals simp [Request.getlist, requestOf, deliveryRequestHeaders, hnames]
  · simp [Request.getlist, requestOf, deliveryRequestHeaders, hnames, hlength]
  · exact ⟨[body], rfl, by simp⟩

theorem sampleRow_fits {row : DeliveryRow} (h : isSendable row) :
    Fits row ∧ ∃ body, requestBody sampleRuntime row = some body ∧
      body.length ≤ maxDeliveryBodyBytes := by
  simp only [isSendable, Bool.and_eq_true, decide_eq_true_eq] at h
  obtain ⟨⟨⟨hsurface, hversion⟩, hwritable⟩, hweight⟩ := h
  refine ⟨⟨?_, ?_⟩, ?_⟩
  · rw [← String.length_toList]
    exact (Json.utf8ByteSize_bounds row.surfaceId).1.trans hsurface
  · simp only [maxObjectVersion]
    omega
  · have hbody : requestBody sampleRuntime row =
        some (encodeText (Json.object row.canonicalPayload).render) := by
      have hwrites := Json.write_toPy sampleFloats (.object row.canonicalPayload)
      rw [← Json.sortKeys_toPy] at hwrites
      have hdepth : ((Json.object row.canonicalPayload).toPy : PyJson (List Char)).writable
          sampleRuntime.writeDepth := hwritable
      rw [requestBody, canonicalJson, PyJson.dumps, if_pos hdepth]
      exact congrArg (fun text => some (encodeText text)) hwrites
    refine ⟨_, hbody, ?_⟩
    have htext := Json.length_render_le (.object row.canonicalPayload)
    have hbytes := (Json.length_utf8_bounds (Json.object row.canonicalPayload).render).2
    simp only [encodeText, maxDeliveryBodyBytes]
    omega

end Sample

end Cygnus.Integrations
