import Cygnus.Integrations.GovernedTools
import Cygnus.Integrations.SessionBridge

/-! What a reply of the session bridge shows. Nothing of it is taken from what the session remembers. -/

namespace Cygnus.Integrations

open Wiki Domain Publish Retrieval Text Result

section Decisions

variable (hit : KnowledgeObjectHit) (trace : SourceTrace) (verdict : DeliveryVerdict)

/-- A decision answers, with a fresh trace, or withholds the content for a reason. -/
theorem governanceDecision_cases :
    ((governanceDecision hit trace verdict).exposeContent = true ∧
      (governanceDecision hit trace verdict).disposition = .answerable ∧ trace.freshness = .fresh) ∨
    ((governanceDecision hit trace verdict).exposeContent = false ∧
      (governanceDecision hit trace verdict).disposition ≠ .answerable ∧
      ¬ (trace.freshness = .fresh ∧ trace.blindSpots = [] ∧ verdict.delivered = true)) := by
  unfold governanceDecision
  dsimp only
  split
  · rename_i hsevere
    refine .inr ⟨rfl, (fun h => by cases h), fun ⟨_, hclear, _⟩ => hsevere ?_⟩
    rw [hclear]
    rfl
  by_cases hcodes : trace.blindSpots.filter (· ∈ deliveryTraceBlindSpots) ++
      (if verdict.delivered then [] else [verdict.code]) = []
  · rw [if_neg (not_not.mpr hcodes)]
    cases hfreshness : trace.freshness with
    | fresh => exact .inl ⟨rfl, rfl, rfl⟩
    | stale => exact .inr ⟨rfl, (fun h => by cases h), fun h => by cases h.1⟩
    | unknown => exact .inr ⟨rfl, (fun h => by cases h), fun h => by cases h.1⟩
  · rw [if_pos hcodes]
    refine .inr ⟨rfl, (fun h => by cases h), fun ⟨_, hclear, hdelivered⟩ => hcodes ?_⟩
    rw [hclear, hdelivered]
    rfl

variable {hit trace verdict} in
theorem answerable_fresh (h : (governanceDecision hit trace verdict).disposition = .answerable) :
    trace.freshness = .fresh := by
  rcases governanceDecision_cases hit trace verdict with ⟨-, -, hfresh⟩ | ⟨-, hanswer, -⟩
  · exact hfresh
  · exact absurd h hanswer

variable {hit trace verdict} in
theorem governanceDecision_answerable (hfresh : trace.freshness = .fresh)
    (hclear : trace.blindSpots = []) (hdelivered : verdict.delivered = true) :
    (governanceDecision hit trace verdict).disposition = .answerable := by
  rcases governanceDecision_cases hit trace verdict with ⟨-, hanswer, -⟩ | ⟨-, -, hnot⟩
  · exact hanswer
  · exact absurd ⟨hfresh, hclear, hdelivered⟩ hnot

theorem exposeContent_iff : (governanceDecision hit trace verdict).exposeContent = true ↔
    (governanceDecision hit trace verdict).disposition = .answerable := by
  rcases governanceDecision_cases hit trace verdict with
    ⟨hexpose, hanswer, -⟩ | ⟨hexpose, hanswer, -⟩ <;> simp [hexpose, hanswer]

theorem noAnswer_disposition (unpublishedHits anyAudienceHits : List KnowledgeObjectHit) :
    (noAnswer unpublishedHits anyAudienceHits).disposition ≠ .answerable := by
  unfold noAnswer
  split
  · exact fun h => by cases h
  split
  · exact fun h => by cases h
  · exact fun h => by cases h

theorem evaluateContinuity_context (previous : Option GovernanceContext) (current : GovernanceContext)
    (reader : AudienceContext) :
    (evaluateContinuity previous current reader).governanceContext = current := by
  unfold evaluateContinuity
  split
  · rfl
  split
  · rfl
  dsimp only
  split <;> rfl

/-- Nothing that changed goes unnoticed. -/
theorem contextChanges_eq_nil {previous current : GovernanceContext}
    (haudience : previous.audienceContext = current.audienceContext) :
    contextChanges previous current = [] ↔ previous = current := by
  obtain ⟨state, audience, objectId, version, traceRef, freshness⟩ := previous
  obtain ⟨state', audience', objectId', version', traceRef', freshness'⟩ := current
  obtain rfl : audience = audience' := haudience
  simp only [contextChanges, List.append_eq_nil_iff, ite_eq_right_iff, List.cons_ne_nil, imp_false,
    not_not, GovernanceContext.mk.injEq]
  tauto

theorem evaluateContinuity_revalidated {previous : Option GovernanceContext}
    {current : GovernanceContext} :
    (evaluateContinuity previous current current.audienceContext).state = .revalidated ↔
      previous = some current := by
  cases previous with
  | none => simp [evaluateContinuity]
  | some previous =>
    rw [Option.some.injEq]
    by_cases haudience : previous.audienceContext = current.audienceContext
    · simp only [evaluateContinuity, haudience, ne_eq, not_true_eq_false, if_false]
      rw [← contextChanges_eq_nil haudience]
      split <;> simp_all
    · simp only [evaluateContinuity, ne_eq, haudience, not_false_eq_true, if_true]
      exact ⟨(fun h => by cases h), fun h => absurd (h ▸ rfl) haudience⟩

end Decisions

section Replies

variable {env : Platform} {rows : SubstrateRows} {now : Timestamp} {snapshot : GovernedSnapshot}
  {served : List (GovernedPage × PageProjection)} {request : GovernedQueryRequest}

/-- A reply with the page it selected. Content is for the readers of the page only; an excerpt of it
and its trace are there for everyone whom it is offered to. -/
structure AnswersWith (env : Platform) (rows : SubstrateRows) (now : Timestamp)
    (request : GovernedQueryRequest) (reply : QueryReply) (answer : GovernedAnswer)
    (page : GovernedPage) (object : GovernedObject) (trace : SourceTrace) : Prop where
  objectId : answer.hit.objectId = governedObjectRef page.id
  offered : OfferedTo rows page request.audienceContext
  body : ∃ objectType, Projectable env page objectType ∧
    object.body = objectBody page.toWikiPage objectType
  snippet : answer.hit.snippet = snippetFor object
  traced : reply.sourceTrace = some trace
  version : trace.version = page.version
  answerable : reply.disposition = .answerable ↔
    Readable env rows now page request.channel.1 request.audienceContext
  content : answer.content = if reply.disposition = .answerable then
    some (objectContent object request.audienceContext) else none
  usable : answer.directExternalUse = true ↔ reply.disposition = .answerable
  shown : reply.disposition = .answerable →
    Shows env rows page request.channel.1 request.audienceContext object trace

/-- What a reply hands to the session. -/
structure HandsOff (env : Platform) (rows : SubstrateRows) (now : Timestamp)
    (request : GovernedQueryRequest) (reply : QueryReply) : Prop where
  unanswered : reply.answer = none → reply.disposition ≠ .answerable ∧ reply.sourceTrace = none ∧
    reply.traceRef = none ∧ reply.alternatives = []
  answered : ∀ answer, reply.answer = some answer → ∃ page ∈ rows.pages, ∃ object trace,
    AnswersWith env rows now request reply answer page object trace
  alternatives : ∀ hit ∈ reply.alternatives, ∃ page ∈ rows.pages,
    hit.objectId = governedObjectRef page.id ∧ OfferedTo rows page request.audienceContext
  revalidated : reply.continuity.state = .revalidated ↔
    request.previousGovernanceContext = some reply.continuity.governanceContext

theorem noAnswerResponse_handsOff (h : Loaded env rows now served snapshot) (hkeyed : KeyedRows rows)
    (request : GovernedQueryRequest) : ∃ reply, noAnswerResponse env snapshot request = .ok reply ∧
      HandsOff env rows now request reply := by
  obtain ⟨unpublished, hunpublished, -⟩ :=
    searchObjects_found h hkeyed { request.search with includeUnpublished := true }
  obtain ⟨anyAudience, hanyAudience, -⟩ := searchObjects_found h hkeyed
    { request.search with audienceContext := none, matchAudience := false }
  unfold noAnswerResponse
  rw [hunpublished, hanyAudience]
  refine ⟨_, rfl, fun _ => ⟨noAnswer_disposition _ _, rfl, rfl, rfl⟩, fun _ h => ?_, fun _ h => ?_, ?_⟩
  · cases h
  · cases h
  · rw [evaluateContinuity_context]
    exact evaluateContinuity_revalidated

theorem selectedResponse_handsOff (h : Loaded env rows now served snapshot) (hkeyed : KeyedRows rows)
    {request : GovernedQueryRequest} {item : GovernedPage × PageProjection} {selected : KnowledgeObjectHit}
    {others : List KnowledgeObjectHit} (hitem : item ∈ served)
    (hselected : Found env rows snapshot request.search item selected)
    (hothers : ∀ hit ∈ others, ∃ item ∈ served, Found env rows snapshot request.search item hit) :
    ∃ reply, selectedResponse env snapshot request selected others = .ok reply ∧
      HandsOff env rows now request reply := by
  have hoffered : ∀ {item : GovernedPage × PageProjection} {hit : KnowledgeObjectHit},
      Found env rows snapshot request.search item hit → OfferedTo rows item.1 request.audienceContext := by
    intro item hit hfound
    obtain ⟨reader, hreader, hoffered⟩ := hfound.offered rfl
    obtain rfl := Option.some.inj hreader
    exact hoffered
  have hid : selected.objectId = (objectOf item).objectId :=
    hselected.objectId.trans (h.objectId hitem).symm
  obtain ⟨trace, hread, htrace⟩ :=
    readTrace_served h hkeyed request.channel.1 hitem (hoffered hselected)
  obtain ⟨built, hbuilt, hversion, hfresh, hshown⟩ :=
    h.buildTrace hkeyed hitem request.audienceContext request.channel.1
  obtain rfl := Except.ok.inj (htrace.symm.trans hbuilt)
  obtain ⟨objectType, hprojectable, htitle, hbody⟩ := h.body hitem
  have hverdict : (snapshotDeliveryVerdict snapshot selected.objectId request).delivered = true ↔
      sourceEvidenceComplete rows item.1 = true ∧ ∃ binding,
        DeliveredThrough rows item.1 request.channel.1 request.audienceContext binding := by
    rw [← h.deliveryVerdict_iff hkeyed hitem, hid, snapshotDeliveryVerdict]
    split <;> simp_all
  have hreadable : trace.freshness = .fresh ↔
      Readable env rows now item.1 request.channel.1 request.audienceContext :=
    hfresh.trans ⟨fun h => ⟨⟨objectType, hprojectable⟩, h.1, h.2⟩, fun h => ⟨h.fresh, h.delivered⟩⟩
  have hexpose : (governanceDecision selected trace
        (snapshotDeliveryVerdict snapshot selected.objectId request)).disposition = .answerable ↔
      Readable env rows now item.1 request.channel.1 request.audienceContext := by
    refine ⟨fun hanswer => hreadable.mp (answerable_fresh hanswer), fun hreads => ?_⟩
    have hstate := hreadable.mpr hreads
    exact governanceDecision_answerable hstate (hshown hstate).1
      (hverdict.mpr ⟨(sourcesFresh_iff.mp hreads.fresh).1, hreads.delivered⟩)
  rw [← hid] at hread
  unfold selectedResponse
  rw [hread, hid, readObject_served h hkeyed hitem]
  rw [hid] at hexpose
  refine ⟨_, rfl, ?_, ?_, ?_, ?_⟩
  · intro hnone
    cases hnone
  · rintro _ ⟨⟩
    refine ⟨item.1, (h.pages item hitem).1, objectOf item, trace, hselected.objectId,
      hoffered hselected, ⟨objectType, hprojectable, hbody⟩, hselected.snippet, rfl, hversion,
      hexpose, ?_, ?_, fun hanswered => ?_⟩
    · simp only [answerProjection, exposeContent_iff]
    · simp only [answerProjection, decide_eq_true_eq]
    · have hstate := hreadable.mpr (hexpose.mp hanswered)
      obtain ⟨hclear, hevidence⟩ := hshown hstate
      exact ⟨h.objectId hitem, htitle, ⟨objectType, hprojectable, hbody⟩, hversion, hstate, hclear,
        hevidence⟩
  · intro hit hhit
    obtain ⟨other, hother, hfound⟩ := hothers hit hhit
    exact ⟨other.1, (h.pages other hother).1, hfound.objectId, hoffered hfound⟩
  · rw [evaluateContinuity_context]
    exact evaluateContinuity_revalidated

/-- A reply does not depend on what the session says of the reply before, other than by saying what
changed since. -/
theorem query_previous (request : GovernedQueryRequest) (previous : Option GovernanceContext) :
    GovernedSessionBridge.query env snapshot { request with previousGovernanceContext := previous } =
      (GovernedSessionBridge.query env snapshot request).map fun reply => { reply with
        continuity := evaluateContinuity previous reply.continuity.governanceContext
          request.audienceContext } := by
  have hsearch : ({ request with previousGovernanceContext := previous } : GovernedQueryRequest).search =
      request.search := rfl
  unfold GovernedSessionBridge.query
  rw [hsearch]
  cases hhits : (snapshot.searchObjects env request.search).mapError BridgeError.retrieval with
  | error => rfl
  | ok hits =>
    cases hits with
    | nil =>
      simp only [ok_bind, noAnswerResponse, hsearch]
      cases (snapshot.searchObjects env { request.search with includeUnpublished := true }).mapError
          BridgeError.retrieval with
      | error => rfl
      | ok unpublished =>
        rw [ok_bind, ok_bind]
        cases (snapshot.searchObjects env
            { request.search with audienceContext := none, matchAudience := false }).mapError
            BridgeError.retrieval with
        | error => rfl
        | ok anyAudience =>
          simp only [ok_bind]
          simp only [pure, Except.pure, Except.map, evaluateContinuity_context]
    | cons selected others =>
      simp only [ok_bind, selectedResponse]
      cases (readTrace env snapshot selected.objectId request.audienceContext
          request.channel.1).mapError BridgeError.retrieval with
      | error => rfl
      | ok trace =>
        rw [ok_bind, ok_bind]
        cases readObject snapshot selected.objectId with
        | none => cases trace <;> rfl
        | some object =>
          cases trace with
          | none => rfl
          | some trace =>
            simp only [pure, Except.pure, Except.map, evaluateContinuity_context]
            rfl

/-- A query is answered from the rows, for the readers of the best page, whatever the session recalls. -/
theorem query_exact (hload : loadGovernedSnapshot env rows now = .ok snapshot) (hkeyed : KeyedRows rows)
    (request : GovernedQueryRequest) :
    ∃ reply, GovernedSessionBridge.query env snapshot request = .ok reply ∧
      HandsOff env rows now request reply ∧
      ∀ previous, GovernedSessionBridge.query env snapshot
          { request with previousGovernanceContext := previous } =
        .ok { reply with
          continuity := evaluateContinuity previous reply.continuity.governanceContext
            request.audienceContext } := by
  obtain ⟨served, h⟩ := loadGovernedSnapshot_ok hload
  have hquery : ∃ reply, GovernedSessionBridge.query env snapshot request = .ok reply ∧
      HandsOff env rows now request reply := by
    obtain ⟨hits, hhits, -, hfound⟩ := searchObjects_found h hkeyed request.search
    rw [GovernedSessionBridge.query, hhits]
    cases hits with
    | nil => exact noAnswerResponse_handsOff h hkeyed request
    | cons selected others =>
      obtain ⟨item, hitem, hselected⟩ := hfound selected List.mem_cons_self
      exact selectedResponse_handsOff h hkeyed hitem hselected fun hit hhit =>
        hfound hit (List.mem_cons_of_mem _ hhit)
  obtain ⟨reply, hreply, hhands⟩ := hquery
  refine ⟨reply, hreply, hhands, fun previous => ?_⟩
  rw [query_previous, hreply]
  rfl

end Replies

section Scenario

/-- A reader of the web asks for refunds. -/
theorem sample_handsOff : ∃ request : GovernedQueryRequest, request.query.1 = "Refunds" ∧
    request.channel.1 = "web" ∧
    ∃ reply, GovernedSessionBridge.query lowerPlatform attestedSnapshot request = .ok reply ∧
      HandsOff lowerPlatform attestedRows 6 request reply := by
  have hrequest : ∃ request : GovernedQueryRequest, request.query.1 = "Refunds" ∧
      request.channel.1 = "web" :=
    ⟨{ requestRef := ⟨"r1", by decide⟩, query := ⟨"Refunds", by decide⟩,
       audienceContext := ⟨.external, none, none, none, none, none, none⟩,
       channel := ⟨"web", by decide⟩ }, rfl, rfl⟩
  obtain ⟨request, hquery, hchannel⟩ := hrequest
  obtain ⟨reply, hreply, hhands, -⟩ :=
    query_exact attestedSnapshot_loaded attestedRows_keyed request
  exact ⟨request, hquery, hchannel, reply, hreply, hhands⟩

end Scenario

end Cygnus.Integrations
