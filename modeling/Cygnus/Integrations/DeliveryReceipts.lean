import Cygnus.Integrations.DeliveryConsumer

/-! Over any run of requests a delivery id has one receipt, and it never changes. -/

namespace Cygnus.Integrations

open Text Result Delivery

variable {R : Type} {runtime : Runtime R} {secret : String}

section Identity

/-- The body was signed and is the canonical text of a payload that asks for the receipt. -/
structure Asks (runtime : Runtime R) (secret : String) (body : Bytes)
    (payload : List (PyStr × PyJson R)) (signature : String) (receipt : ReceiptIdentity) :
    Prop where
  configured : secret ≠ ""
  signed : verifyAckSignature runtime.wire body signature secret = .ok true
  bounded : body.length ≤ maxDeliveryBodyBytes
  read : loadsBody runtime body = some (.object payload)
  canonical : canonicalJson runtime (.object payload) = some body
  digest : receipt.bodySha256 = runtime.sha256 body
  publication : field payload "publication_id" = some (text receipt.publicationId.text)
  version : field payload "object_version" = some (.int receipt.objectVersion)
  positive : 1 ≤ receipt.objectVersion ∧ receipt.objectVersion ≤ maxObjectVersion
  surface : Stripped receipt.surfaceId ∧ receipt.surfaceId.length ≤ maxSurfaceIdChars
  targeted : ∃ channels, targetChannels payload = some channels ∧
    Utf8.ofString receipt.surfaceId ∈ channels
  delivery : receipt.deliveryId =
    s!"delivery:{receipt.publicationId.text}:{receipt.surfaceId}"
  reference : receipt.receiptRef = receiptRef runtime receipt.deliveryId receipt.bodySha256
    receipt.publicationId receipt.surfaceId receipt.objectVersion

theorem requiredHeader_ok {request : Request} {name value : String} {maximum : Nat}
    (h : requiredHeader request name maximum = .ok value) :
    request.getlist name = [value] ∧ Stripped value ∧ value.length ≤ maximum := by
  unfold requiredHeader at h
  split at h
  · rename_i raw hraw
    simp only [bind_ok, require_ok, pure_ok] at h
    obtain ⟨-, ⟨hblank, hstripped, hlength⟩, rfl⟩ := h
    exact ⟨hraw, ⟨hstripped, fun hempty => hblank (by rw [hstripped, hempty])⟩, hlength⟩
  · cases h

theorem readChunks_length {body body' : Bytes} {chunks : List (Option Bytes)}
    (hbody : body.length ≤ maxDeliveryBodyBytes) (h : readChunks body chunks = .ok body') :
    body'.length ≤ maxDeliveryBodyBytes := by
  induction chunks generalizing body with
  | nil =>
    cases h
    exact hbody
  | cons chunk chunks ih =>
    cases chunk with
    | none => cases h
    | some chunk =>
      simp only [readChunks, bind_ok, require_ok] at h
      obtain ⟨-, hfits, h⟩ := h
      exact ih (by rwa [List.length_append]) h

theorem readBoundedBody_length {request : Request} {body : Bytes}
    (h : readBoundedBody request = .ok body) : body.length ≤ maxDeliveryBodyBytes := by
  unfold readBoundedBody at h
  split at h
  · exact readChunks_length (Nat.zero_le _) h
  · simp only [bind_ok, require_ok, demand_ok] at h
    obtain ⟨-, -, -, -, -, -, h⟩ := h
    exact readChunks_length (Nat.zero_le _) h

theorem payloadIdentity_ok {request : Request} {payload : List (PyStr × PyJson R)}
    {bodySha256 : String} {receipt : ReceiptIdentity}
    (h : payloadIdentity runtime request payload bodySha256 = .ok receipt) :
    field payload "publication_id" = some (text receipt.publicationId.text) ∧
    field payload "object_version" = some (.int receipt.objectVersion) ∧
    (1 ≤ receipt.objectVersion ∧ receipt.objectVersion ≤ maxObjectVersion) ∧
    (Stripped receipt.surfaceId ∧ receipt.surfaceId.length ≤ maxSurfaceIdChars) ∧
    (∃ channels, targetChannels payload = some channels ∧
      Utf8.ofString receipt.surfaceId ∈ channels) ∧
    receipt.deliveryId = s!"delivery:{receipt.publicationId.text}:{receipt.surfaceId}" ∧
    receipt.receiptRef = receiptRef runtime receipt.deliveryId receipt.bodySha256
      receipt.publicationId receipt.surfaceId receipt.objectVersion ∧
    receipt.bodySha256 = bodySha256 := by
  simp only [payloadIdentity, bind_ok, demand_ok, require_ok, pure_ok] at h
  obtain ⟨deliveryId, -, headerId, -, -, hpublication, publicationId, -, -, htext, surfaceId,
    hsurface, -, hdelivery, version, hversion, -, hpositive, channels, hchannels, -, hmem, rfl⟩ := h
  refine ⟨?_, ?_, hpositive, (requiredHeader_ok hsurface).2, ⟨channels, hchannels, hmem⟩, hdelivery,
    rfl, rfl⟩
  · obtain ⟨value, hvalue, hread⟩ := Option.bind_eq_some_iff.mp hpublication
    cases value with
    | str s => rw [hvalue, Option.some.inj hread, text, htext]
    | _ => cases hread
  · obtain ⟨value, hvalue, hread⟩ := Option.bind_eq_some_iff.mp hversion
    cases value with
    | int n => rw [hvalue, Option.some.inj hread]
    | _ => cases hread

theorem authenticate_ok {request : Request} {receipt : ReceiptIdentity}
    (h : authenticate runtime secret request = .ok receipt) :
    ∃ body payload, readBoundedBody request = .ok body ∧
      Asks runtime secret body payload (signatureOf request) receipt := by
  simp only [authenticate, bind_ok, require_ok, mapError_ok] at h
  obtain ⟨-, hsecret, body, ⟨-, -, hbody⟩, valid, hsigned, -, rfl, h⟩ := h
  simp only [decodeIdentity, bind_ok, demand_ok] at h
  obtain ⟨decoded, hread, h⟩ := h
  split at h
  · rename_i payload
    simp only [bind_ok, demand_ok, require_ok] at h
    obtain ⟨canonical, hcanonical, -, rfl, h⟩ := h
    obtain ⟨publication, version, positive, surface, targeted, delivery, reference, digest⟩ :=
      payloadIdentity_ok h
    exact ⟨canonical, payload, hbody, hsecret, hsigned, readBoundedBody_length hbody, hread,
      hcanonical, digest, publication, version, positive, surface, targeted, delivery, reference⟩
  · cases h

end Identity

section Serving

/-- A request that reaches the consumer, and what becomes of its transaction. -/
structure Exchange where
  request : Request
  fault : StoreFault

variable (runtime secret) in
def serve (receipts : Receipts) (exchange : Exchange) : Response × Receipts :=
  acceptPropagationDelivery runtime secret exchange.fault receipts exchange.request

variable (runtime secret) in
/-- The receipts after a run of requests. -/
def receiptsAfter (exchanges : List Exchange) : Receipts :=
  exchanges.foldl (fun receipts exchange => (serve runtime secret receipts exchange).2) []

/-- The answer to a request for which the receipt is kept. -/
def acceptance (runtime : Runtime R) (secret : String) (request : Request)
    (receipt : ReceiptIdentity) : Response :=
  .accepted (ackBody runtime receipt) (ackHeaders runtime secret request (ackBody runtime receipt))

def Response.isAccepted : Response → Bool
  | .accepted _ _ => true
  | _ => false

/-- What one request does. -/
inductive Serves (runtime : Runtime R) (secret : String) (receipts : Receipts)
    (exchange : Exchange) : Response × Receipts → Prop
  | refused {response : Response} (hauthentic : authenticate runtime secret exchange.request =
      .error response) (hresponse : response.isAccepted = false) :
      Serves runtime secret receipts exchange (response, receipts)
  | unavailable {incoming : ReceiptIdentity}
      (hauthentic : authenticate runtime secret exchange.request = .ok incoming)
      (hfault : exchange.fault ≠ .none) : Serves runtime secret receipts exchange
        (.error 503 "delivery receipt store is unavailable", receipts)
  | unconfirmed {incoming : ReceiptIdentity}
      (hauthentic : authenticate runtime secret exchange.request = .ok incoming)
      (hfault : exchange.fault ≠ .none) (hfree : receipts.get incoming.deliveryId = none) :
      Serves runtime secret receipts exchange
        (.error 503 "delivery receipt store is unavailable", receipts ++ [incoming])
  | created {incoming : ReceiptIdentity}
      (hauthentic : authenticate runtime secret exchange.request = .ok incoming)
      (hfault : exchange.fault = .none) (hfree : receipts.get incoming.deliveryId = none) :
      Serves runtime secret receipts exchange
        (acceptance runtime secret exchange.request incoming, receipts ++ [incoming])
  | replayed {incoming : ReceiptIdentity}
      (hauthentic : authenticate runtime secret exchange.request = .ok incoming)
      (hfault : exchange.fault = .none)
      (hheld : receipts.get incoming.deliveryId = some incoming) :
      Serves runtime secret receipts exchange
        (acceptance runtime secret exchange.request incoming, receipts)
  | conflicting {incoming receipt : ReceiptIdentity}
      (hauthentic : authenticate runtime secret exchange.request = .ok incoming)
      (hfault : exchange.fault = .none)
      (hheld : receipts.get incoming.deliveryId = some receipt) (hne : receipt ≠ incoming) :
      Serves runtime secret receipts exchange
        (.error 409 "delivery receipt identity conflicts", receipts)

theorem refusal_not_accepted {α : Type} {handling : Handling α} {response : Response}
    (h : handling.mapError RequestError.response = .error response) :
    response.isAccepted = false := by
  cases handling with
  | ok => cases h
  | error error =>
    cases h
    rfl

theorem authenticate_error {request : Request} {response : Response}
    (h : authenticate runtime secret request = .error response) : response.isAccepted = false := by
  simp only [authenticate, bind_error, require_error] at h
  rcases h with ⟨-, rfl⟩ | ⟨-, -, hbody | ⟨body, -, hsigned | ⟨valid, -, ⟨-, rfl⟩ | ⟨-, -, h⟩⟩⟩⟩
  · rfl
  · exact refusal_not_accepted hbody
  · cases hverified : verifyAckSignature runtime.wire body (signatureOf request) secret with
    | ok valid =>
      rw [hverified] at hsigned
      cases hsigned
    | error error =>
      rw [hverified] at hsigned
      cases hsigned
      rfl
  · rfl
  · exact refusal_not_accepted h

theorem sameIdentity_iff {receipt incoming : ReceiptIdentity}
    (h : receipt.deliveryId = incoming.deliveryId) :
    sameIdentity receipt incoming = true ↔ receipt = incoming := by
  obtain ⟨deliveryId, bodySha256, publicationId, surfaceId, objectVersion, receiptRef⟩ := receipt
  cases incoming
  dsimp only at h
  simp only [sameIdentity, Bool.and_eq_true, decide_eq_true_eq, ReceiptIdentity.mk.injEq, h,
    true_and, and_assoc]

theorem serves (runtime : Runtime R) (secret : String) (receipts : Receipts) (exchange : Exchange) :
    Serves runtime secret receipts exchange (serve runtime secret receipts exchange) := by
  cases hauthentic : authenticate runtime secret exchange.request with
  | error response =>
    rw [serve, acceptPropagationDelivery, hauthentic]
    exact .refused hauthentic (authenticate_error hauthentic)
  | ok incoming =>
    rw [serve, acceptPropagationDelivery, hauthentic]
    cases hheld : receipts.get incoming.deliveryId with
    | none =>
      cases hfault : exchange.fault with
      | none =>
        simp only [persistReceipt, hheld]
        exact .created hauthentic hfault hheld
      | failed =>
        simp only [persistReceipt, hheld]
        exact .unavailable hauthentic (by rw [hfault]; decide)
      | unconfirmed =>
        simp only [persistReceipt, hheld]
        exact .unconfirmed hauthentic (by rw [hfault]; decide) hheld
    | some receipt =>
      have hid : receipt.deliveryId = incoming.deliveryId := by
        simpa using List.find?_some hheld
      by_cases hfault : exchange.fault = .none
      · by_cases hsame : receipt = incoming
        · subst hsame
          simp only [persistReceipt, hheld, hfault, (sameIdentity_iff rfl).mpr, ne_eq,
            not_true_eq_false, if_false, if_true]
          exact .replayed hauthentic hfault hheld
        · have hdiffers : sameIdentity receipt incoming ≠ true := fun h =>
            hsame ((sameIdentity_iff hid).mp h)
          simp only [persistReceipt, hheld, hfault, ne_eq, not_true_eq_false, if_false, hdiffers]
          exact .conflicting hauthentic hfault hheld hsame
      · simp only [persistReceipt, hheld, ne_eq, hfault, not_false_eq_true, if_true]
        exact .unavailable hauthentic hfault

end Serving

section Runs

variable {receipts : Receipts} {exchange : Exchange} {receipt incoming : ReceiptIdentity}

theorem Receipts.get_mem {deliveryId : String} (h : receipts.get deliveryId = some receipt) :
    receipt ∈ receipts ∧ receipt.deliveryId = deliveryId :=
  ⟨List.mem_of_find?_eq_some h, by simpa using List.find?_some h⟩

theorem Receipts.get_eq_none {deliveryId : String} :
    receipts.get deliveryId = none ↔ ∀ receipt ∈ receipts, receipt.deliveryId ≠ deliveryId := by
  simp [Receipts.get]

/-- One receipt for each delivery id, each asked for by an authentic request. -/
structure Kept (runtime : Runtime R) (secret : String) (exchanges : List Exchange)
    (receipts : Receipts) : Prop where
  unique : (receipts.map ReceiptIdentity.deliveryId).Nodup
  asked : ∀ receipt ∈ receipts, ∃ exchange ∈ exchanges,
    authenticate runtime secret exchange.request = .ok receipt

theorem Kept.get_of_mem {exchanges : List Exchange} (h : Kept runtime secret exchanges receipts)
    (hmem : receipt ∈ receipts) : receipts.get receipt.deliveryId = some receipt := by
  cases hfound : receipts.get receipt.deliveryId with
  | none => exact absurd rfl (Receipts.get_eq_none.mp hfound receipt hmem)
  | some other =>
    obtain ⟨hother, hid⟩ := Receipts.get_mem hfound
    rw [List.inj_on_of_nodup_map h.unique hother hmem hid]

variable (runtime secret) in
/-- The receipts that one request leaves: those there were and at most one that it asked for. -/
theorem serve_receipts (receipts : Receipts) (exchange : Exchange) :
    (serve runtime secret receipts exchange).2 = receipts ∨
      ∃ incoming, authenticate runtime secret exchange.request = .ok incoming ∧
        receipts.get incoming.deliveryId = none ∧
        (serve runtime secret receipts exchange).2 = receipts ++ [incoming] := by
  have h := serves runtime secret receipts exchange
  generalize serve runtime secret receipts exchange = outcome at h ⊢
  cases h with
  | refused => exact .inl rfl
  | unavailable => exact .inl rfl
  | unconfirmed hauthentic _ hfree => exact .inr ⟨_, hauthentic, hfree, rfl⟩
  | created hauthentic _ hfree => exact .inr ⟨_, hauthentic, hfree, rfl⟩
  | replayed => exact .inl rfl
  | conflicting => exact .inl rfl

theorem Kept.serve {exchanges : List Exchange} (h : Kept runtime secret exchanges receipts)
    (exchange : Exchange) : Kept runtime secret (exchanges ++ [exchange])
      (Integrations.serve runtime secret receipts exchange).2 := by
  have hearlier : ∀ receipt ∈ receipts, ∃ asking ∈ exchanges ++ [exchange],
      authenticate runtime secret asking.request = .ok receipt := by
    intro receipt hmem
    obtain ⟨asking, hasking, hauthentic⟩ := h.asked receipt hmem
    exact ⟨asking, List.mem_append_left _ hasking, hauthentic⟩
  rcases serve_receipts runtime secret receipts exchange with
    heq | ⟨incoming, hauthentic, hfree, heq⟩
  · rw [heq]
    exact ⟨h.unique, hearlier⟩
  · rw [heq]
    constructor
    · rw [List.map_append, List.map_singleton, List.nodup_append]
      refine ⟨h.unique, List.nodup_singleton _, ?_⟩
      intro old hold new hnew hsame
      obtain ⟨receipt, hmem, rfl⟩ := List.mem_map.mp hold
      exact Receipts.get_eq_none.mp hfree receipt hmem (hsame.trans (List.mem_singleton.mp hnew))
    · intro receipt hmem
      rcases List.mem_append.mp hmem with hold | hself
      · exact hearlier receipt hold
      · obtain rfl := List.mem_singleton.mp hself
        exact ⟨exchange, List.mem_append_right _ (List.mem_singleton_self _), hauthentic⟩

theorem receiptsAfter_append (exchanges : List Exchange) (exchange : Exchange) :
    receiptsAfter runtime secret (exchanges ++ [exchange]) =
      (serve runtime secret (receiptsAfter runtime secret exchanges) exchange).2 := by
  rw [receiptsAfter, List.foldl_append]
  rfl

theorem kept (runtime : Runtime R) (secret : String) (exchanges : List Exchange) :
    Kept runtime secret exchanges (receiptsAfter runtime secret exchanges) := by
  induction exchanges using List.reverseRecOn with
  | nil => exact ⟨.nil, fun receipt hmem => by cases hmem⟩
  | append_singleton exchanges exchange ih =>
    rw [receiptsAfter_append]
    exact ih.serve exchange

/-- A receipt stays as it is. -/
theorem receiptsAfter_grows (exchanges later : List Exchange)
    (h : receipt ∈ receiptsAfter runtime secret exchanges) :
    receipt ∈ receiptsAfter runtime secret (exchanges ++ later) := by
  induction later using List.reverseRecOn with
  | nil => rwa [List.append_nil]
  | append_singleton later exchange ih =>
    rw [← List.append_assoc, receiptsAfter_append]
    rcases serve_receipts runtime secret
      (receiptsAfter runtime secret (exchanges ++ later)) exchange with heq | ⟨_, _, _, heq⟩
    · rwa [heq]
    · rw [heq]
      exact List.mem_append_left _ ih

/-- An accepted request is acknowledged for the receipt it asked for, which is kept. -/
theorem serve_accepted {body : Bytes} {headers : List (String × String)}
    (h : (serve runtime secret receipts exchange).1 = .accepted body headers) :
    ∃ incoming, authenticate runtime secret exchange.request = .ok incoming ∧
      incoming ∈ (serve runtime secret receipts exchange).2 ∧
      (serve runtime secret receipts exchange).1 =
        acceptance runtime secret exchange.request incoming := by
  have hserves := serves runtime secret receipts exchange
  generalize serve runtime secret receipts exchange = outcome at h hserves ⊢
  cases hserves with
  | refused _ hresponse =>
    dsimp only at h
    rw [h] at hresponse
    cases hresponse
  | unavailable => cases h
  | unconfirmed => cases h
  | created hauthentic =>
    exact ⟨_, hauthentic, List.mem_append_right _ (List.mem_singleton_self _), rfl⟩
  | replayed hauthentic _ hheld => exact ⟨_, hauthentic, (Receipts.get_mem hheld).1, rfl⟩
  | conflicting => cases h

theorem serve_replayed (hauthentic : authenticate runtime secret exchange.request = .ok receipt)
    (hheld : receipts.get receipt.deliveryId = some receipt) (hfault : exchange.fault = .none) :
    serve runtime secret receipts exchange =
      (acceptance runtime secret exchange.request receipt, receipts) := by
  have hserves := serves runtime secret receipts exchange
  generalize serve runtime secret receipts exchange = outcome at hserves ⊢
  cases hserves with
  | refused hrefused =>
    rw [hauthentic] at hrefused
    cases hrefused
  | unavailable _ hfailed => exact absurd hfault hfailed
  | unconfirmed _ hfailed => exact absurd hfault hfailed
  | created hasked _ hfree =>
    cases hauthentic.symm.trans hasked
    cases hheld.symm.trans hfree
  | replayed hasked =>
    cases hauthentic.symm.trans hasked
    rfl
  | conflicting hasked _ hother hne =>
    cases hauthentic.symm.trans hasked
    exact absurd (Option.some.inj (hother.symm.trans hheld)) hne

theorem serve_conflicting (hauthentic : authenticate runtime secret exchange.request = .ok incoming)
    (hheld : receipts.get incoming.deliveryId = some receipt) (hne : receipt ≠ incoming)
    (hfault : exchange.fault = .none) : serve runtime secret receipts exchange =
      (.error 409 "delivery receipt identity conflicts", receipts) := by
  have hserves := serves runtime secret receipts exchange
  generalize serve runtime secret receipts exchange = outcome at hserves ⊢
  cases hserves with
  | refused hrefused =>
    rw [hauthentic] at hrefused
    cases hrefused
  | unavailable _ hfailed => exact absurd hfault hfailed
  | unconfirmed _ hfailed => exact absurd hfault hfailed
  | created hasked _ hfree =>
    cases hauthentic.symm.trans hasked
    cases hheld.symm.trans hfree
  | replayed hasked _ hsame =>
    cases hauthentic.symm.trans hasked
    exact absurd (Option.some.inj (hheld.symm.trans hsame)) hne
  | conflicting => rfl

/-- The receipts of a run, and what its requests are answered. -/
structure WriteOnce (runtime : Runtime R) (secret : String) (exchanges : List Exchange) : Prop where
  unique : ((receiptsAfter runtime secret exchanges).map ReceiptIdentity.deliveryId).Nodup
  asked : ∀ receipt ∈ receiptsAfter runtime secret exchanges, ∃ exchange ∈ exchanges,
    ∃ body payload, readBoundedBody exchange.request = .ok body ∧
      Asks runtime secret body payload (signatureOf exchange.request) receipt
  kept : ∀ before later, exchanges = before ++ later → ∀ receipt ∈ receiptsAfter runtime secret before,
    receipt ∈ receiptsAfter runtime secret exchanges
  /-- An acknowledgment is that of the one receipt of its delivery id. -/
  answered : ∀ before exchange later, exchanges = before ++ exchange :: later →
    ∀ body headers, (serve runtime secret (receiptsAfter runtime secret before) exchange).1 =
      .accepted body headers →
    ∃ receipt ∈ receiptsAfter runtime secret exchanges,
      authenticate runtime secret exchange.request = .ok receipt ∧
      body = ackBody runtime receipt ∧
      ("X-Cygnus-Ack-Signature", ackSignature runtime secret body) ∈ headers
  /-- Once there is a receipt, a request for the same one is acknowledged again, and one for another
  under its delivery id is refused; neither writes. -/
  repeated : ∀ before exchange later, exchanges = before ++ exchange :: later →
    exchange.fault = .none → ∀ receipt ∈ receiptsAfter runtime secret before, ∀ incoming,
      authenticate runtime secret exchange.request = .ok incoming →
      incoming.deliveryId = receipt.deliveryId →
      serve runtime secret (receiptsAfter runtime secret before) exchange =
        (if incoming = receipt then acceptance runtime secret exchange.request receipt
          else .error 409 "delivery receipt identity conflicts",
        receiptsAfter runtime secret before)

theorem receiptsAfter_writeOnce (runtime : Runtime R) (secret : String)
    (exchanges : List Exchange) : WriteOnce runtime secret exchanges := by
  have hkept := kept runtime secret exchanges
  refine ⟨hkept.unique, ?_, ?_, ?_, ?_⟩
  · intro receipt hmem
    obtain ⟨exchange, hexchange, hauthentic⟩ := hkept.asked receipt hmem
    exact ⟨exchange, hexchange, authenticate_ok hauthentic⟩
  · rintro before later rfl receipt hmem
    exact receiptsAfter_grows before later hmem
  · rintro before exchange later rfl body headers hanswer
    obtain ⟨receipt, hauthentic, hmem, hacceptance⟩ := serve_accepted hanswer
    rw [← receiptsAfter_append] at hmem
    have hfinal := receiptsAfter_grows (before ++ [exchange]) later hmem
    rw [List.append_assoc, List.singleton_append] at hfinal
    rw [hacceptance] at hanswer
    cases hanswer
    exact ⟨receipt, hfinal, hauthentic, rfl, List.mem_cons_self⟩
  · rintro before exchange later rfl hfault receipt hmem incoming hauthentic hid
    have hheld := (kept runtime secret before).get_of_mem hmem
    split
    · rename_i hsame
      subst hsame
      exact serve_replayed hauthentic hheld hfault
    · rename_i hne
      exact serve_conflicting hauthentic (hid ▸ hheld) (Ne.symm hne) hfault

end Runs

end Cygnus.Integrations
