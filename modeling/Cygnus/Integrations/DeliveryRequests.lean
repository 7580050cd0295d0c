import Cygnus.Data.JsonEmbedding
import Cygnus.Delivery.Sweep
import Cygnus.Integrations.DeliveryReceipts
import Cygnus.Publish.DurableApply

/-! The request that carries out a delivery: the consumer takes it for what was staged, and its
acknowledgment passes the checks of the worker. -/

namespace Cygnus.Integrations

open Wiki Text Result Delivery Publish

variable {R : Type}

section Requests

variable (runtime : Runtime R)

/-- The signed body of a delivery, unless its payload cannot be written. -/
def requestBody (row : DeliveryRow) : Option Bytes :=
  canonicalJson runtime (Json.object row.canonicalPayload).toPy

/-- `trace` are the headers that correlate the request. -/
def deliveryRequestHeaders (row : DeliveryRow) (signature : String)
    (trace : List (String × String)) : List (String × String) := [
  ("Content-Type", "application/json"), ("X-Cygnus-Signature", s!"sha256={signature}"),
  ("X-Cygnus-Delivery-Id", row.idempotencyKey),
  ("X-Cygnus-Publication-Id", row.publicationId.text), ("X-Cygnus-Surface", row.surfaceId)] ++ trace

/-- The request reaches the consumer intact, in any chunks. -/
structure Arrives (headers : List (String × String)) (body : Bytes) (request : Request) : Prop where
  header : ∀ header ∈ headers, request.getlist header.1 = [header.2]
  length : ∀ value ∈ request.getlist "content-length", value = toString body.length
  chunks : ∃ chunks : List Bytes, request.chunks = chunks.map some ∧ chunks.flatten = body

/-- The request is one that carries out the delivery. -/
def Sends (secret : String) (row : DeliveryRow) (request : Request) : Prop :=
  ∃ body trace, requestBody runtime row = some body ∧ body.length ≤ maxDeliveryBodyBytes ∧
    Arrives (deliveryRequestHeaders row (runtime.wire.signBody body secret) trace) body request

/-- The receipt a delivery asks for. -/
def rowReceipt (row : DeliveryRow) : ReceiptIdentity :=
  ⟨row.idempotencyKey, row.desiredDigest, row.publicationId, row.surfaceId, row.expectedPageVersion,
    receiptRef runtime row.idempotencyKey row.desiredDigest row.publicationId row.surfaceId
      row.expectedPageVersion⟩

end Requests

/-- A text of hexadecimal digits, of the length of a SHA-256 digest. -/
def IsSha256 (digest : String) : Prop := digest.length = 64 ∧ ∀ c ∈ digest.toList, Uuid.IsHex c

/-- Both programs run on one interpreter and one hash library. -/
structure Shares (env : Platform) (runtime : Runtime R) : Prop where
  dumps : ∀ document, env.dumps document = Json.dumps document
  sha256 : ∀ value : String, env.sha256 value = runtime.sha256 (encodeText value.toList)
  digest : ∀ body, IsSha256 (runtime.sha256 body)
  signature : ∀ body secret, IsSha256 (runtime.wire.signBody body secret)
  size : ∀ body, runtime.wire.size body = body.length
  loads : ∀ body document, loadsBody runtime body = some document.toPy →
    runtime.wire.loads body = some document
  blank : runtime.wire.loads [] = none
  nests : 1 ≤ runtime.writeDepth ∧ runtime.writeDepth ≤ runtime.readDepth

variable {env : Platform} {runtime : Runtime R} {secret : String}

section Signatures

theorem IsSha256.plain {digest : String} (h : IsSha256 digest) :
    strip digest = digest ∧ digest.toList.all fun c => c.toNat < 128 := by
  have hchar : ∀ c ∈ digest.toList, isSpace c = false ∧ c.toNat < 128 := fun c hc =>
    (h.2 c hc).of_table (p := fun c => isSpace c = false ∧ c.toNat < 128) (by decide)
  refine ⟨strip_of_forall fun c hc => (hchar c hc).1, ?_⟩
  rw [List.all_eq_true]
  intro c hc
  exact decide_eq_true (hchar c hc).2

/-- What is signed under the secret verifies under it. -/
theorem verify_signed (hshares : Shares env runtime) (hsecret : secret ≠ "") (body : Bytes) :
    verifyAckSignature runtime.wire body (ackSignature runtime secret body) secret = .ok true := by
  have htext : (ackSignature runtime secret body).toList =
      ackSignatureStart.toList ++ (runtime.wire.signBody body secret).toList :=
    String.toList_append
  have hstarts : ackSignatureStart.toList.isPrefixOf (ackSignature runtime secret body).toList := by
    rw [htext, List.isPrefixOf_iff_prefix]
    exact List.prefix_append _ _
  obtain ⟨hstrip, hascii⟩ := (hshares.signature body secret).plain
  have hdrop : String.ofList ((ackSignature runtime secret body).toList.drop
      ackSignatureStart.length) = runtime.wire.signBody body secret := by
    rw [htext, ← String.length_toList, List.drop_left, String.ofList_toList]
  unfold verifyAckSignature
  rw [if_neg (by simp [hsecret, hstarts])]
  simp [hdrop, hstrip, hascii, require]

theorem hexValue_isSome {cs : List Char} (h : ∀ c ∈ cs, Uuid.IsHex c) (acc : Nat) :
    (Uuid.hexValue acc cs).isSome := by
  induction cs generalizing acc with
  | nil => rfl
  | cons c cs ih =>
    have hc : (Uuid.hexValue.hexDigitValue c).isSome ∧ c ≠ '_' :=
      (h c List.mem_cons_self).of_table
        (p := fun c => (Uuid.hexValue.hexDigitValue c).isSome ∧ c ≠ '_') (by decide)
    obtain ⟨d, hd⟩ := Option.isSome_iff_exists.mp hc.1
    rw [Uuid.hexValue]
    · rw [hd]
      exact ih (fun c hmem => h c (.tail _ hmem)) _
    · intro c' cs' hc'
      exact absurd hc' hc.2

theorem isHexNumber_of_isSha256 {digest : String} (h : IsSha256 digest) : isHexNumber digest := by
  obtain ⟨c, cs, hcs⟩ : ∃ c cs, digest.toList = c :: cs := by
    apply List.exists_cons_of_length_pos
    rw [String.length_toList, h.1]
    decide
  have hhex := h.2
  rw [hcs] at hhex
  have hnot : ∀ c ∈ ['+', '-', '_', 'x', 'X'], ¬ Uuid.IsHex c := fun c hc hdigit =>
    hdigit.of_table (p := (· ∉ ['+', '-', '_', 'x', 'X'])) (by decide) hc
  have hplus := hnot '+' (by decide)
  have hminus := hnot '-' (by decide)
  have hunderscore := hnot '_' (by decide)
  have hx := hnot 'x' (by decide)
  have hX := hnot 'X' (by decide)
  have hnumber : (Uuid.hexNumber (c :: cs)).isSome := by
    have hvalue := hexValue_isSome hhex 0
    unfold Uuid.hexNumber
    split <;> simp_all
  unfold isHexNumber
  rw [h.plain.1, hcs]
  split <;> simp_all

end Signatures

section Arrival

variable {headers : List (String × String)} {body : Bytes} {request : Request}

theorem readChunks_flatten {chunks : List Bytes} {before : Bytes}
    (h : before.length + chunks.flatten.length ≤ maxDeliveryBodyBytes) :
    readChunks before (chunks.map some) = .ok (before ++ chunks.flatten) := by
  induction chunks generalizing before with
  | nil => simp [readChunks, pure, Except.pure]
  | cons chunk chunks ih =>
    rw [List.flatten_cons, List.length_append] at h
    rw [List.map_cons, readChunks, require_of (by omega), List.flatten_cons, ← List.append_assoc]
    exact ih (by rw [List.length_append]; omega)

theorem declaredLength_toString {n : Nat} (h : n ≤ maxDeliveryBodyBytes) :
    declaredLength (toString n) = some n := by
  have hdigits : (Nat.toDigits 10 n).length ≤ 7 := by
    rw [Nat.length_toDigits_le_iff (by decide) (by decide)]
    exact Nat.lt_of_le_of_lt h (by decide)
  have hfew : ((toString n).toList.filter Char.isDigit).length ≤ PyJson.maxIntDigits := by
    rw [Nat.toString_eq_repr, Nat.toList_repr]
    exact Nat.le_trans (List.length_filter_le _ _) (Nat.le_trans hdigits (by decide))
  rw [declaredLength, if_pos hfew, parseInt_toString]

theorem Arrives.readBoundedBody (h : Arrives headers body request)
    (hsize : body.length ≤ maxDeliveryBodyBytes) : readBoundedBody request = .ok body := by
  obtain ⟨chunks, hchunks, hbody⟩ := h.chunks
  have hread : readChunks [] request.chunks = .ok body := by
    rw [hchunks, ← hbody]
    exact readChunks_flatten (by simpa [hbody] using hsize)
  unfold Integrations.readBoundedBody
  split
  · exact hread
  · rename_i value hvalue
    rw [h.length value (List.mem_of_mem_head? hvalue), declaredLength_toString hsize]
    simp [demand, require, bind, Except.bind, hread, hsize]

end Arrival

section Payloads

/-- The row carries what `apply_durable_publish` ships to one of the channels of a publication. -/
def Shipped (env : Platform) (row : DeliveryRow) (command : DurablePublishCommand)
    (qualified : Qualified) : Prop :=
  row.canonicalPayload = buildCanonicalDeliveryPayload env row.publicationId command qualified ∧
  row.desiredDigest = canonicalDeliveryDigest env row.canonicalPayload ∧
  row.expectedPageVersion = qualified.page.version ∧ 1 ≤ qualified.page.version ∧
  row.idempotencyKey = deliveryKey row.publicationId row.surfaceId ∧
  row.surfaceId ∈ command.targetChannels ∧ command.targetChannels.Nodup

theorem sortKeys_texts (values : List String) : (texts values).sortKeys = texts values := by
  have hitems : Json.sortItems (values.map Json.str) = values.map Json.str := by
    induction values with
    | nil => rfl
    | cons value values ih =>
      rw [List.map_cons, Json.sortItems, ih]
      rfl
  rw [texts, Json.sortKeys, hitems]

theorem distinctKeys_texts (values : List String) : (texts values).DistinctKeys := by
  apply Json.DistinctKeys.list
  intro document hdocument
  obtain ⟨value, -, rfl⟩ := List.mem_map.mp hdocument
  exact .str value

theorem distinctKeys_bindingPayload (row : Governance.AudienceBinding) :
    (Json.object (bindingPayload row)).DistinctKeys := by
  apply Json.DistinctKeys.object
  · simp [bindingPayload]
  · intro field hfield
    simp only [bindingPayload, List.mem_cons, List.not_mem_nil, or_false] at hfield
    rcases hfield with rfl | rfl | rfl | rfl | rfl
    · exact .str _
    · exact .int _
    · exact .str _
    · exact .str _
    · apply Json.DistinctKeys.object
      · simp
      · intro field hfield
        simp only [List.mem_cons, List.not_mem_nil, or_false] at hfield
        rcases hfield with rfl | rfl | rfl | rfl | rfl | rfl
        all_goals exact distinctKeys_texts _

theorem keys_payload (env : Platform) (publicationId : Uuid) (command : DurablePublishCommand)
    (qualified : Qualified) :
    ((buildCanonicalDeliveryPayload env publicationId command qualified).map Prod.fst).Nodup := by
  simp [buildCanonicalDeliveryPayload]

theorem distinctKeys_payload (env : Platform) (publicationId : Uuid)
    (command : DurablePublishCommand) (qualified : Qualified) : (Json.object
      (buildCanonicalDeliveryPayload env publicationId command qualified)).DistinctKeys := by
  apply Json.DistinctKeys.object (keys_payload env publicationId command qualified)
  intro field hfield
  simp only [buildCanonicalDeliveryPayload, List.mem_cons, List.not_mem_nil, or_false] at hfield
  rcases hfield with rfl | rfl | rfl | rfl | rfl | rfl | rfl | rfl | rfl | rfl | rfl | rfl
  · exact .str _
  · exact .str _
  · exact .str _
  · exact .int _
  · exact .str _
  · exact .str _
  · exact .int _
  · exact .str _
  · exact distinctKeys_texts _
  · apply Json.DistinctKeys.list
    intro document hdocument
    obtain ⟨row, -, rfl⟩ := List.mem_map.mp hdocument
    exact distinctKeys_bindingPayload row
  · apply Json.DistinctKeys.list
    intro document hdocument
    obtain ⟨id, -, rfl⟩ := List.mem_map.mp hdocument
    exact .str _
  · exact .str _

theorem decodeText_encodeText (text : List Char) : decodeText (encodeText text) = some text := by
  have hdecode : (encodeText text).toByteArray.utf8Decode? = some text.toArray :=
    List.utf8Decode?_utf8Encode
  rw [decodeText, hdecode]
  rfl

/-- The body of a document is read back, and is canonical for what was read. -/
theorem loadsBody_canonicalJson {document : Json} {body : Bytes} (hshares : Shares env runtime)
    (hkeys : document.DistinctKeys) (hbody : canonicalJson runtime document.toPy = some body) :
    body = encodeText (Json.dumps document).toList ∧
      loadsBody runtime body = some document.sortKeys.toPy ∧
      canonicalJson runtime document.sortKeys.toPy = some body := by
  obtain ⟨written, hwritten, rfl⟩ := Option.map_eq_some_iff.mp hbody
  have hwritable : (document.toPy : PyJson R).writable runtime.writeDepth := by
    by_contra hunwritable
    rw [PyJson.dumps, if_neg hunwritable] at hwritten
    cases hwritten
  have htext : written = (Json.dumps document).toList := by
    rw [PyJson.dumps, if_pos hwritable, Json.sortKeys_toPy, Json.write_toPy] at hwritten
    rw [Json.dumps, String.toList_ofList]
    exact (Option.some.inj hwritten).symm
  refine ⟨by rw [htext], ?_, ?_⟩
  · rw [loadsBody, decodeText_encodeText, Option.bind_some, htext]
    exact Json.loads_dumps _ _ hkeys hwritable hshares.nests.2
  · have hlegible := Json.legible_toPy hkeys hwritable
    have hagain := (PyJson.loads_dumps runtime.floats false hlegible).2
    rw [Json.sortKeys_toPy, Json.write_toPy] at hagain
    rw [canonicalJson, hagain, Option.map_some, htext, Json.dumps, String.toList_ofList]

end Payloads

section Agreement

variable {row : DeliveryRow} {command : DurablePublishCommand} {qualified : Qualified}
  {request : Request}

theorem field_sorted {fields : List (String × Json)} (hkeys : (fields.map Prod.fst).Nodup)
    (name : String) :
    field (Json.fieldsToPy (Sequence.sortedBy Prod.fst (Json.sortFields fields)) :
      List (PyStr × PyJson R)) name =
        ((fields.lookup name).map Json.sortKeys).map Json.toPy := by
  rw [field, key, Json.lookup_fieldsToPy, Json.lookup_sorted hkeys]

theorem requiredHeader_of {name value : String} {maximum : Nat}
    (hheader : request.getlist name = [value]) (hstripped : Stripped value)
    (hlength : value.length ≤ maximum) : requiredHeader request name maximum = .ok value := by
  simp [requiredHeader, hheader, require, hstripped.1, hlength, hstripped.2, bind, Except.bind,
    pure, Except.pure]

theorem stripPoints_ofString (s : String) :
    stripPoints (Utf8.ofString s) = Utf8.ofString (strip s) := by
  have hblank : isBlank ∘ Utf8.ofChar = isSpace := by
    funext c
    simp [isBlank, Utf8.toChar?_ofChar]
  rw [stripPoints, Utf8.ofString, strip, Utf8.ofString, String.toList_ofList, List.dropWhile_map,
    hblank, List.rdropWhile, List.rdropWhile, ← List.map_reverse, List.dropWhile_map, hblank,
    ← List.map_reverse]

theorem isChannel_ofString {channel : String} (hstripped : Stripped channel)
    (hlength : channel.length ≤ maxSurfaceIdChars) : isChannel (Utf8.ofString channel) := by
  have hne : Utf8.ofString channel ≠ [] := by
    intro hnil
    rw [Utf8.ofString, List.map_eq_nil_iff, String.toList_eq_nil_iff] at hnil
    exact hstripped.2 hnil
  have hsize : (Utf8.ofString channel).length = channel.length := by
    rw [Utf8.ofString, List.length_map, String.length_toList]
  rw [isChannel, stripPoints_ofString, hstripped.1, hsize]
  simp [hne, hlength]

theorem mapM_asStr (names : List String) :
    (Json.itemsToPy (names.map Json.str) : List (PyJson R)).mapM asStr =
      some (names.map Utf8.ofString) := by
  induction names with
  | nil => rfl
  | cons name names ih => simp [Json.itemsToPy, Json.toPy, List.mapM_cons, asStr, ih]

theorem targetChannels_of {payload : List (PyStr × PyJson R)} {channels : List String}
    (hfield : field payload "target_channels" = some (texts channels).toPy)
    (hne : channels ≠ []) (hstripped : ∀ channel ∈ channels, Stripped channel)
    (hlength : ∀ channel ∈ channels, channel.length ≤ maxSurfaceIdChars) (hnodup : channels.Nodup) :
    targetChannels payload = some (channels.map Utf8.ofString) := by
  have hall : (channels.map Utf8.ofString).all isChannel := by
    rw [List.all_eq_true]
    intro name hname
    obtain ⟨channel, hmem, rfl⟩ := List.mem_map.mp hname
    exact isChannel_ofString (hstripped channel hmem) (hlength channel hmem)
  have hdistinct := hnodup.map Utf8.ofString_strictMono.injective
  simp only [targetChannels, hfield, texts, Json.toPy, mapM_asStr, Option.bind_eq_bind,
    Option.bind_some]
  rw [if_pos ⟨by simpa using hne, hall, hdistinct⟩]

theorem stripped_text (u : Uuid) : Stripped u.text ∧ u.text.length = 36 := by
  have hlength : u.text.length = 36 := by
    rw [Uuid.text, String.length_ofList]
    simp only [List.length_append, List.length_cons, Uuid.digits, List.length_map, List.length_nil]
  refine ⟨⟨?_, ?_⟩, hlength⟩
  · apply strip_of_forall
    intro c hc
    rcases Uuid.mem_text hc with rfl | hhex
    · rfl
    · exact hhex.of_table (p := fun c => isSpace c = false) (by decide)
  · intro hempty
    rw [hempty] at hlength
    cases hlength

/-- A stripped text after one that starts with a character that stays. -/
theorem stripped_append {before after : String} {c : Char} (hhead : before.toList.head? = some c)
    (hc : isSpace c = false) (h : Stripped after) : Stripped (before ++ after) := by
  obtain ⟨cs, hcs⟩ := List.head?_eq_some_iff.mp hhead
  have hne : after.toList ≠ [] := by
    intro hnil
    exact h.2 (String.toList_eq_nil_iff.mp hnil)
  have htrimmed : (after.toList.dropWhile isSpace).rdropWhile isSpace = after.toList := by
    rw [← String.toList_ofList (l := (after.toList.dropWhile isSpace).rdropWhile isSpace), ← strip,
      h.1]
  have hlast : isSpace (after.toList.getLast hne) ≠ true := by
    have hkept := List.rdropWhile_last_not isSpace (after.toList.dropWhile isSpace)
      (by rw [htrimmed]; exact hne)
    simpa only [htrimmed] using hkept
  have htext : (before ++ after).toList = c :: (cs ++ after.toList) := by
    rw [String.toList_append, hcs, List.cons_append]
  refine ⟨?_, ?_⟩
  · rw [strip, htext, List.dropWhile_cons_of_neg (by simp [hc]), List.rdropWhile_eq_self_iff.mpr,
      ← htext, String.ofList_toList]
    intro hall
    have hsame : (c :: (cs ++ after.toList)).getLast hall = after.toList.getLast hne :=
      List.getLast_append_of_ne_nil (l := c :: cs) hall hne
    rwa [hsame]
  · intro hempty
    rw [hempty] at htext
    cases htext

theorem stripped_deliveryKey (publicationId : Uuid) {surfaceId : String} (h : Stripped surfaceId)
    (hlength : surfaceId.length ≤ maxSurfaceIdChars) :
    Stripped (deliveryKey publicationId surfaceId) ∧
      (deliveryKey publicationId surfaceId).length ≤ maxDeliveryIdChars := by
  have hkey : deliveryKey publicationId surfaceId =
      "delivery:" ++ publicationId.text ++ ":" ++ surfaceId := rfl
  rw [hkey]
  constructor
  · apply stripped_append (c := 'd') _ rfl h
    rw [String.toList_append, String.toList_append]
    rfl
  · simp only [String.length_append, (stripped_text publicationId).2]
    exact Nat.add_le_add_left hlength _ |>.trans (by decide)

theorem lookup_payload (env : Platform) (publicationId : Uuid) (command : DurablePublishCommand)
    (qualified : Qualified) :
    (buildCanonicalDeliveryPayload env publicationId command qualified).lookup "publication_id" =
      some (.str publicationId.text) ∧
    (buildCanonicalDeliveryPayload env publicationId command qualified).lookup "object_version" =
      some (.int qualified.page.version) ∧
    (buildCanonicalDeliveryPayload env publicationId command qualified).lookup "target_channels" =
      some (texts command.targetChannels) ∧
    (buildCanonicalDeliveryPayload env publicationId command qualified).lookup "surface_id" =
      none := by
  simp [buildCanonicalDeliveryPayload, List.lookup_cons]

theorem payloadIdentity_sent (runtime : Runtime R) (hshipped : Shipped env row command qualified)
    (hchannels : ∀ channel ∈ command.targetChannels, channel.length ≤ maxSurfaceIdChars)
    (hversion : (row.expectedPageVersion : Int) ≤ maxObjectVersion)
    {signature : String} {trace : List (String × String)} {body : Bytes}
    (harrives : Arrives (deliveryRequestHeaders row signature trace) body request) :
    payloadIdentity runtime request (Json.fieldsToPy
      (Sequence.sortedBy Prod.fst (Json.sortFields row.canonicalPayload))) row.desiredDigest =
        .ok (rowReceipt runtime row) := by
  obtain ⟨hpayload, -, hpage, hpositive, hkey, htarget, hnodup⟩ := hshipped
  have hheader : ∀ name value, (name, value) ∈ deliveryRequestHeaders row signature trace →
      request.getlist name = [value] := fun name value hmem => harrives.header _ hmem
  have hsurface := command.stripped row.surfaceId htarget
  obtain ⟨hstripped, hshort⟩ := stripped_deliveryKey row.publicationId hsurface
    (hchannels _ htarget)
  obtain ⟨hid, hidLength⟩ := stripped_text row.publicationId
  have hdelivery := requiredHeader_of (hheader "X-Cygnus-Delivery-Id" row.idempotencyKey
    (by simp [deliveryRequestHeaders])) (hkey ▸ hstripped) (hkey ▸ hshort)
  have hpublication := requiredHeader_of (hheader "X-Cygnus-Publication-Id" row.publicationId.text
    (by simp [deliveryRequestHeaders])) hid hidLength.le
  have hchannel := requiredHeader_of (hheader "X-Cygnus-Surface" row.surfaceId
    (by simp [deliveryRequestHeaders])) hsurface (hchannels _ htarget)
  have hfield := field_sorted (R := R) (keys_payload env row.publicationId command qualified)
  obtain ⟨hpublicationId, hobjectVersion, htargets, -⟩ :=
    lookup_payload env row.publicationId command qualified
  rw [← hpayload] at hfield hpublicationId hobjectVersion htargets
  have hlisted : field (Json.fieldsToPy (Sequence.sortedBy Prod.fst
      (Json.sortFields row.canonicalPayload)) : List (PyStr × PyJson R)) "target_channels" =
        some (texts command.targetChannels).toPy := by
    rw [hfield, htargets, Option.map_some, sortKeys_texts, Option.map_some]
  have hfound := targetChannels_of hlisted command.targeted command.stripped hchannels hnodup
  have hmem : Utf8.ofString row.surfaceId ∈ command.targetChannels.map Utf8.ofString :=
    List.mem_map_of_mem htarget
  have hsent : row.idempotencyKey = s!"delivery:{row.publicationId.text}:{row.surfaceId}" := hkey
  have hbounds : 1 ≤ (row.expectedPageVersion : Int) ∧
      (row.expectedPageVersion : Int) ≤ maxObjectVersion := by
    refine ⟨?_, hversion⟩
    rw [hpage]
    exact_mod_cast hpositive
  have hparsed := Uuid.parse_text row.publicationId
  simp only [payloadIdentity, hdelivery, hpublication, hchannel, ok_bind, hfield, hpublicationId,
    hobjectVersion, Option.map_some, Json.sortKeys, Json.toPy, Option.bind_some, asStr, asInt,
    hfound, ← hpage]
  rw [require_of trivial, ok_bind, demand_ok.mpr hparsed, ok_bind, require_of rfl, ok_bind,
    require_of hsent, ok_bind, demand_ok.mpr rfl, ok_bind, require_of hbounds, ok_bind,
    demand_ok.mpr rfl, ok_bind, require_of hmem]
  rfl

theorem authenticate_sent (hshares : Shares env runtime) (hsecret : secret ≠ "")
    (hshipped : Shipped env row command qualified)
    (hchannels : ∀ channel ∈ command.targetChannels, channel.length ≤ maxSurfaceIdChars)
    (hversion : (row.expectedPageVersion : Int) ≤ maxObjectVersion)
    (hsends : Sends runtime secret row request) :
    authenticate runtime secret request = .ok (rowReceipt runtime row) := by
  obtain ⟨body, trace, hbody, hsize, harrives⟩ := hsends
  have hidentity := payloadIdentity_sent runtime hshipped hchannels hversion harrives
  have hkeys := distinctKeys_payload env row.publicationId command qualified
  rw [← hshipped.1] at hkeys
  obtain ⟨htext, hread, hcanonical⟩ := loadsBody_canonicalJson hshares hkeys hbody
  have hdigest : runtime.sha256 body = row.desiredDigest := by
    rw [hshipped.2.1, canonicalDeliveryDigest, Governance.canonicalSha256, hshares.dumps,
      hshares.sha256, htext]
  have htype : request.getlist "content-type" = ["application/json"] := by
    have hlower : "content-type".toLower = "content-type" := by decide +kernel
    have hname : "Content-Type".toLower = "content-type" := by decide +kernel
    have hvalue := harrives.header ("Content-Type", "application/json")
      (by simp [deliveryRequestHeaders])
    rwa [Request.getlist, hname, ← hlower] at hvalue
  have hsignature : signatureOf request = ackSignature runtime secret body := by
    have hvalue := harrives.header
      ("X-Cygnus-Signature", s!"sha256={runtime.wire.signBody body secret}")
      (by simp [deliveryRequestHeaders])
    rw [signatureOf, hvalue]
    rfl
  have hjson : requireJsonContentType request = .ok () := by
    have hmedia : (strip (String.ofList ("application/json".toList.takeWhile (· ≠ ';')))).toLower =
        "application/json" := by decide +kernel
    rw [requireJsonContentType, htype]
    exact require_of hmedia
  have hdecoded : decodeIdentity runtime request body = .ok (rowReceipt runtime row) := by
    rw [decodeIdentity, demand_ok.mpr hread, ok_bind]
    simp only [Json.sortKeys, Json.toPy] at hcanonical ⊢
    rw [demand_ok.mpr hcanonical, ok_bind, require_of rfl, ok_bind, hdigest, hidentity]
  rw [authenticate, require_of hsecret, ok_bind, hjson, ok_bind, harrives.readBoundedBody hsize,
    hsignature, mapError_ok.mpr rfl, ok_bind, mapError_ok.mpr (verify_signed hshares hsecret body),
    ok_bind, require_of rfl, ok_bind, hdecoded]
  rfl

end Agreement

end Cygnus.Integrations
