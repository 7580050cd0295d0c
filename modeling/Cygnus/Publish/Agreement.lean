import Cygnus.Data.JsonText
import Cygnus.Publish.Executable

/-! Which envelopes compiled in a state can be executed in it. -/

namespace Cygnus.Publish

open Wiki Domain Governance Retrieval Text Result Sequence

section Runs

variable {env : Platform} {repr : BindingKey → String} {maxAttempts : Nat} {state state' : Governed}
  {command : DurablePublishCommand} {actorId : Uuid} {ids : PublishIds} {now : Timestamp}

/-- A change keeps what the columns, keys and constructors guarantee. -/
structure Elsewhere.Sound (state : Governed) (change : Elsewhere) : Prop where
  drafts : change.drafts.Keyed
  ledger : (change.on state).ledger.Keyed
  signals : change.signals.Keyed
  bindings : ∀ row ∈ change.bindings, WellFormedBinding row
  bindingKeys : (change.bindings.map AudienceBinding.bindingKey).Nodup
  versions : ∀ page ∈ change.pages, 1 ≤ page.version
  reasons : ∀ signal ∈ change.signals, strip signal.reason ≠ ""

def PublishStep.Sound (state : Governed) : PublishStep → Prop
  | .call _ _ _ _ => True
  | .elsewhere change => change.Sound state

theorem Governed.Sound.empty : Governed.Sound {} := by
  constructor <;> simp [Table.Keyed, Staged.empty]

theorem Governed.Sound.elsewhere (h : state.Sound) {change : Elsewhere}
    (hchange : change.Sound state) : (change.on state).Sound where
  drafts := hchange.drafts
  ledger := hchange.ledger
  signals := hchange.signals
  bindings := hchange.bindings
  bindingKeys := hchange.bindingKeys
  versions := hchange.versions
  reasons := hchange.reasons
  staged := h.staged.elsewhere change

theorem Governed.Sound.publish {publication : PublicationRow} (h : state.Sound)
    (hnew : ∀ other ∈ state.publications, other.commandId ≠ command.commandId)
    (hdistinct : command.targetChannels.Nodup)
    (hpublishes : Publishes env repr maxAttempts state command actorId ids now publication state') :
    state'.Sound := by
  have hstaged := h.staged.publish hnew hdistinct hpublishes
  obtain ⟨qualified, result, event, ledger, hqualified, -, hevent, -, -, rfl⟩ := hpublishes
  obtain ⟨-, -, -, ⟨pageId, -, hpage⟩, -⟩ := qualifyReview_ok (qualify_reviewed hqualified)
  have happend := appendDraftEvent_fresh hevent (h.staged.findKey_none hnew)
  constructor
  · exact h.drafts
  · dsimp only
    rw [happend.ledger_eq]
    refine h.ledger.append ?_
    have hkey : Row.key event = ids.event := happend.id_eq
    rw [hkey]
    exact happend.idFree
  · exact h.signals
  · exact h.bindings
  · exact h.bindingKeys
  · intro page hmem
    rcases Table.mem_put hmem with rfl | ⟨hold, -⟩
    · have hversion := h.versions qualified.page (Table.get_mem hpage)
      exact hversion
    · exact h.versions page hold
  · exact h.reasons
  · exact hstaged

theorem perform_governed :
    Machine.Preserves (PublishStep.perform env repr maxAttempts) PublishStep.Sound
      Governed.Sound := by
  intro state state' step h hstep hperform
  cases step with
  | elsewhere change =>
    cases hperform
    exact h.elsewhere hstep
  | call request actorId ids now =>
    obtain ⟨⟨reply, _⟩, hexecute, rfl⟩ := map_ok.mp hperform
    simp only [executePublish, bind_ok, mapError_ok] at hexecute
    obtain ⟨command, hcommand, happly⟩ := hexecute
    rcases applyDurablePublish_ok happly with ⟨rfl, -⟩ | ⟨hnew, hpublishes⟩
    · exact h
    · exact h.publish hnew (PublishRequest.nodup_of_command hcommand) hpublishes

theorem publishRun_sound {steps : List PublishStep}
    (hsteps : Machine.Meets (PublishStep.perform env repr maxAttempts) PublishStep.Sound {} steps) :
    (publishRun env repr maxAttempts steps).Sound :=
  perform_governed.run .empty hsteps

end Runs

section Agreement

variable {env : Platform} {repr : BindingKey → String} {maxAttempts : Nat} {state : Governed}
  {signal : GovernanceSignal} {actionKey : Option String} {previewed now : Timestamp}
  {envelope : DurableEnvelope} {actorId : Uuid} {ids : PublishIds}

/-- A publication answers the command of the envelope. -/
def Replays (env : Platform) (state : Governed) (envelope : DurableEnvelope) : Prop :=
  ∃ command publication, envelope.command = .ok command ∧ publication ∈ state.publications ∧
    publication.commandId = command.commandId ∧ publication.draftId = command.draftId ∧
    publication.requestFingerprint = command.requestFingerprint env

/-- What a preview leaves to the apply: draft and page still have the approved digest, the ledger of
the draft is where the publications of the object left it, and the action finds its bindings. -/
structure Publishable (env : Platform) (state : Governed) (signal : GovernanceSignal)
    (envelope : DurableEnvelope) : Prop where
  unused : ∀ publication ∈ state.publications, publication.commandId ≠ envelope.commandId
  review : ∃ draft pageId page, state.drafts.get envelope.draftId = some draft ∧
    signal.pageId = some pageId ∧ state.pages.get pageId = some page ∧
    currentApprovalDigest env draft page = envelope.approvalDigest
  ledger : ledgerState state.ledger envelope.draftId =
    some (publishFrom state signal.objectRef)
  action : ∃ pageId action, signal.pageId = some pageId ∧
    DurableAction.parse envelope.actionKey = some action ∧
    action.AvailableOn (listActiveBindings state pageId signal.objectRef)

theorem DurableAction.availableOn_perm {action : DurableAction} {rows rows' : List AudienceBinding}
    (h : rows.Perm rows') : action.AvailableOn rows ↔ action.AvailableOn rows' := by
  cases action with
  | publish => exact Iff.rfl
  | republish => exact Iff.rfl
  | restrictPublish => exact Iff.rfl
  | holdExternal => simp only [AvailableOn, h.mem_iff]
  | republishInternalOnly => simp only [AvailableOn, h.mem_iff]

section Compiled

variable {page : GovernedPage} {object : KnowledgeObject} {sources : List AttestedSource}
  {draft : GovernedDraft} {approval : GovernanceLedgerEvent} {command : DurablePublishCommand}

theorem Compiled.review_iff
    (h : Compiled env state signal previewed envelope page object sources draft approval)
    (hsound : state.Sound) :
    (∃ draft pageId page, state.drafts.get envelope.draftId = some draft ∧
      signal.pageId = some pageId ∧ state.pages.get pageId = some page ∧
      currentApprovalDigest env draft page = envelope.approvalDigest) ↔
        currentApprovalDigest env draft page = envelope.approvalDigest := by
  have hdraft : state.drafts.get envelope.draftId = some draft := by
    rw [h.draftId]
    exact hsound.drafts.get_of_mem (latestApprovedDraft_some h.draft_eq).1
  obtain ⟨pageId, hpageId, hpage⟩ := h.signalPage
  constructor
  · rintro ⟨draft', pageId', page', hdraft', hpageId', hpage', hstands⟩
    rw [hdraft, Option.some.injEq] at hdraft'
    rw [hpageId, Option.some.injEq] at hpageId'
    subst hdraft' hpageId'
    rw [hpage, Option.some.injEq] at hpage'
    subst hpage'
    exact hstands
  · intro hstands
    exact ⟨draft, pageId, page, hdraft, hpageId, hpage, hstands⟩

theorem Compiled.action_iff
    (h : Compiled env state signal previewed envelope page object sources draft approval)
    (hsound : state.Sound) (hcarries : Carries envelope signal command) :
    Returns (publishBindings repr command object (currentBindings state object.objectId)
        (activeBindingRows state.bindings page.id signal.objectRef)) ↔
      ∃ pageId action, signal.pageId = some pageId ∧
        DurableAction.parse envelope.actionKey = some action ∧
        action.AvailableOn (listActiveBindings state pageId signal.objectRef) := by
  obtain ⟨pageId, hpageId, hpage⟩ := h.signalPage
  have hid : page.id = pageId := Table.get_key hpage
  have hperm := listActiveBindings_perm state page.id signal.objectRef
  have hkey : strip command.actionKey = envelope.actionKey := by
    rw [hcarries.actionKey]
    exact DurableAction.strip_of_parse h.action
  obtain ⟨hobjectId, htitle⟩ := wikiPageToKnowledgeObject_texts h.projected
  have hpublish := @returns_publishBindings_iff repr command object
    (currentBindings state object.objectId)
    (activeBindingRows state.bindings page.id signal.objectRef) page.id signal.objectRef
    (fun row hrow => mem_activeBindingRows hrow)
    (fun row hrow => hsound.bindings row (mem_listActiveBindings.mp (hperm.mem_iff.mpr hrow)).1)
    (fun hnil => h.bound (List.perm_nil.mp (hnil ▸ hperm)))
    (by
      intro channel
      rw [hcarries.channels, h.channels, List.mem_eraseDups]
      exact (hperm.map AudienceBinding.channel).mem_iff)
    (by
      intro hnone
      rw [hcarries.actionKey]
      refine h.first ?_
      rw [currentBindings, Option.map_eq_none_iff, h.object_eq] at hnone
      exact hnone)
    hobjectId htitle
  rw [hpublish, hkey]
  constructor
  · rintro ⟨action, hparse, havailable⟩
    refine ⟨pageId, action, hpageId, hparse, ?_⟩
    rw [← hid]
    exact (DurableAction.availableOn_perm hperm).mpr havailable
  · rintro ⟨pageId', action, hpageId', hparse, havailable⟩
    rw [hpageId, Option.some.injEq] at hpageId'
    subst hpageId'
    rw [← hid] at havailable
    exact ⟨action, hparse, (DurableAction.availableOn_perm hperm).mp havailable⟩

theorem Compiled.review_of_qualify
    (h : Compiled env state signal previewed envelope page object sources draft approval)
    (hsound : state.Sound) (hcarries : Carries envelope signal command) {qualified : Qualified}
    (hqualified : qualify env state command now = .ok qualified) :
    currentApprovalDigest env draft page = envelope.approvalDigest := by
  obtain ⟨hget, -, happroval, ⟨pageId, hpageId, hpage⟩, -, hstored, hcurrent, -⟩ :=
    qualifyReview_ok (qualify_reviewed hqualified)
  obtain ⟨hdraft, hdraftPage, -⟩ := latestApprovedDraft_some h.draft_eq
  obtain ⟨hmem, hisApproval⟩ := latestApproval_some h.approval_eq
  obtain ⟨signalPage, -, hsignalPage⟩ := h.signalPage
  have hsameDraft : qualified.draft = draft := by
    have hfound : state.drafts.get draft.id = some draft := hsound.drafts.get_of_mem hdraft
    rw [hcarries.draftId, h.draftId, hfound] at hget
    exact (Option.some.inj hget).symm
  rw [hsameDraft] at happroval hpageId hcurrent
  have hsamePage : qualified.page = page := by
    rw [hdraftPage, Option.some.injEq] at hpageId
    have hid : page.id = signalPage := Table.get_key hsignalPage
    rw [← hpageId, hid, hsignalPage] at hpage
    exact (Option.some.inj hpage).symm
  have hsameApproval : qualified.approval = approval := by
    rw [hcarries.approvalRef, h.approvalRef, getApprovalEvent_of_mem hsound.ledger hmem hisApproval]
      at happroval
    exact (Option.some.inj happroval).symm
  rw [hsameApproval, h.digest] at hstored
  rw [← hsamePage, hcurrent]
  exact (Option.some.inj hstored).symm

theorem Compiled.publish_iff
    (h : Compiled env state signal previewed envelope page object sources draft approval)
    (hsha : ∀ text, IsDigest (env.sha256 text)) (hsound : state.Sound)
    (hsignal : signal ∈ state.signals) (hcommand : envelope.command = .ok command)
    (hle : previewed ≤ now) (hfresh : LinkedSourcesFresh state signal now)
    (hids : ids.Fresh state envelope.targetChannels)
    (hnew : ∀ publication ∈ state.publications, publication.commandId ≠ command.commandId) :
    Returns (publish env repr maxAttempts state command actorId ids now) ↔
      Publishable env state signal envelope := by
  have hcarries := h.carries hsha hsound hcommand
  have hdistinct : command.targetChannels.Nodup := by
    rw [hcarries.channels, h.channels]
    exact nodup_eraseDups _
  rw [← hcarries.channels] at hids
  have hblank : strip (strip signal.reason) ≠ "" := by
    rw [strip_strip]
    exact hsound.reasons signal hsignal
  -- a digest that still is the current one has the shape of one
  have hqualify : ∀ hstands : currentApprovalDigest env draft page = envelope.approvalDigest,
      qualify env state command now = .ok ⟨⟨draft, approval, envelope.approvalDigest, page⟩, sources,
        object, activeBindingRows state.bindings page.id signal.objectRef⟩ := by
    intro hstands
    have hdigest : IsDigest envelope.approvalDigest := by
      rw [← hstands]
      exact hsha _
    exact h.qualify_eq hsound hsignal hcarries hle hfresh hstands hdigest
  constructor
  · rintro ⟨⟨reply, state'⟩, hpublish⟩
    obtain ⟨qualified, -, -, -, hqualified, -⟩ := publish_ok hpublish
    have hstands := h.review_of_qualify hsound hcarries hqualified
    obtain ⟨haction, hledger⟩ := (returns_publish_iff (hqualify hstands) hsound.staged hnew
      hids hdistinct hcarries.reason hblank).mp ⟨_, hpublish⟩
    constructor
    · rw [← hcarries.commandId]
      exact hnew
    · exact (h.review_iff hsound).mpr hstands
    · rw [h.draftId, ← h.object_eq]
      exact hledger
    · exact (h.action_iff hsound hcarries).mp haction
  · rintro ⟨-, hreview, hledger, haction⟩
    have hstands := (h.review_iff hsound).mp hreview
    refine (returns_publish_iff (hqualify hstands) hsound.staged hnew hids hdistinct
      hcarries.reason hblank).mpr ⟨(h.action_iff hsound hcarries).mpr haction, ?_⟩
    rw [h.draftId, ← h.object_eq] at hledger
    exact hledger

end Compiled

theorem Governed.Sound.returns_executeEnvelope_iff (hsound : state.Sound)
    (hsha : ∀ text, IsDigest (env.sha256 text)) (hsignal : signal ∈ state.signals)
    (hpreview : durablePublishCommandForSignal env state signal actionKey previewed =
      .ok (some envelope))
    (hle : previewed ≤ now) (hfresh : LinkedSourcesFresh state signal now)
    (hids : ids.Fresh state envelope.targetChannels) :
    Returns (executeEnvelope env repr maxAttempts state envelope actorId ids now) ↔
      Replays env state envelope ∨ Publishable env state signal envelope := by
  obtain ⟨page, object, sources, draft, approval, h⟩ :=
    compileEnvelope_ok (durablePublishCommandForSignal_some hpreview)
  constructor
  · intro hreturns
    obtain ⟨command, hcommand, happly⟩ := returns_bind.mp hreturns
    rw [mapError_ok] at hcommand
    unfold applyDurablePublish at happly
    split at happly
    · rename_i existing hexisting
      obtain ⟨_, hsame, -⟩ := returns_bind.mp happly
      obtain ⟨hdraft, hfingerprint⟩ := require_ok.mp hsame
      have hid := List.find?_some hexisting
      exact .inl ⟨command, existing, hcommand, List.mem_of_find?_eq_some hexisting,
        of_decide_eq_true hid, hdraft, hfingerprint⟩
    · rename_i hnone
      have hnew : ∀ publication ∈ state.publications,
          publication.commandId ≠ command.commandId := by simpa using hnone
      exact .inr ((h.publish_iff hsha hsound hsignal hcommand hle hfresh hids hnew).mp happly)
  · rintro (⟨command, publication, hcommand, hmem, hid, hdraft, hfingerprint⟩ | hpublishable)
    · refine returns_bind.mpr ⟨command, mapError_ok.mpr hcommand, ?_⟩
      rw [hsound.staged.apply_reused hmem hid, if_pos ⟨hdraft, hfingerprint⟩]
      exact returns_ok _
    · have hstands := (h.review_iff hsound).mp hpublishable.review
      have hdigest : IsDigest envelope.approvalDigest := by
        rw [← hstands]
        exact hsha _
      obtain ⟨command, hcommand⟩ := h.returns_command hsha hsound hsignal hdigest
      have hnew : ∀ publication ∈ state.publications,
          publication.commandId ≠ command.commandId := by
        rw [(h.carries hsha hsound hcommand).commandId]
        exact hpublishable.unused
      have hnone : state.publications.find? (·.commandId = command.commandId) = none := by
        simpa using hnew
      refine returns_bind.mpr ⟨command, mapError_ok.mpr hcommand, ?_⟩
      unfold applyDurablePublish
      rw [hnone]
      exact (h.publish_iff hsha hsound hsignal hcommand hle hfresh hids hnew).mpr
        hpublishable

/-- An envelope previewed in a state is executed there exactly when a publication answers it or the
facts the preview does not check hold. -/
theorem publishRun_executeEnvelope_iff (hsha : ∀ text, IsDigest (env.sha256 text))
    {steps : List PublishStep}
    (hsteps : Machine.Meets (PublishStep.perform env repr maxAttempts) PublishStep.Sound {} steps)
    (hstate : state = publishRun env repr maxAttempts steps) (hsignal : signal ∈ state.signals)
    (hpreview : durablePublishCommandForSignal env state signal actionKey previewed =
      .ok (some envelope))
    (hle : previewed ≤ now) (hfresh : LinkedSourcesFresh state signal now)
    (hids : ids.Fresh state envelope.targetChannels) :
    Returns (executeEnvelope env repr maxAttempts state envelope actorId ids now) ↔
      Replays env state envelope ∨ Publishable env state signal envelope := by
  subst hstate
  exact (publishRun_sound hsteps).returns_executeEnvelope_iff hsha hsignal hpreview hle hfresh hids

end Agreement

section Refunds

/-- A text hash of the shape of a SHA-256. -/
def hexDigest (text : String) : String :=
  let code := text.toList.foldl (fun n c => (1000003 * n + c.toNat) % 16 ^ 64) 5381
  String.ofList ((List.range 64).map fun place => Uuid.hexDigit (code / 16 ^ place % 16))

theorem hexDigest_isDigest (text : String) : IsDigest (hexDigest text) := by
  unfold IsDigest hexDigest
  rw [String.toList_ofList]
  refine ⟨by simp, ?_⟩
  intro c hc
  obtain ⟨place, -, rfl⟩ := List.mem_map.mp hc
  exact Uuid.IsHex.mem ⟨_, Nat.mod_lt _ (by decide), rfl⟩

def hexPlatform : Platform where
  lower s := String.ofList (s.toList.map Char.toLower)
  sha256 := hexDigest
  dumps := Json.dumps
  isoformat := toString

theorem hexPlatform_isDigest (text : String) : IsDigest (hexPlatform.sha256 text) :=
  hexDigest_isDigest text

def refundPolicy (version : Nat) : GovernedPage :=
  { id := 7, slug := "refunds", title := "Refunds", summary := "Refunds take ten days.",
    normalizedPath := "refunds", knowledgeTypeSlugs := ["policy_rule"], sourceIds := [9],
    version := version }

def refundDraft (id : Uuid) (time : Timestamp) : GovernedDraft :=
  { id := id, pageId := some 7, contentMd := "Refunds take ten days.", status := .approved,
    reviewedById := some 3, reviewedAt := some time }

/-- An event in the review of a draft. -/
def reviewEvent (draft : GovernedDraft) (id : Uuid) (place : Nat) (eventType : GovernanceEventType)
    (fromState : Option GovernanceState) (toState : GovernanceState) (payload : JsonObject) :
    GovernanceLedgerEvent :=
  { id := id, draftId := draft.id, sequence := place, eventType := eventType,
    fromState := fromState, toState := toState, actorId := some 3,
    idempotencyKey := .wikiDraft draft.id eventType none, reason := none, payload := payload }

def approvalOf (draft : GovernedDraft) (page : GovernedPage) (id : Uuid) : GovernanceLedgerEvent :=
  reviewEvent draft id 3 .approved (some .inReview) .approved
    [("approval_digest", .str (currentApprovalDigest hexPlatform draft page))]

/-- The ledger of a draft that is proposed, submitted and approved. -/
def reviewEvents (draft : GovernedDraft) (page : GovernedPage) (id : Uuid) :
    List GovernanceLedgerEvent := [
  reviewEvent draft id 1 .proposalCreated none .draft [],
  reviewEvent draft (id + 1) 2 .reviewRequested (some .draft) .inReview [],
  approvalOf draft page (id + 2)]

theorem storedApprovalDigest_approvalOf (draft : GovernedDraft) (page : GovernedPage) (id : Uuid) :
    storedApprovalDigest (approvalOf draft page id) =
      some (currentApprovalDigest hexPlatform draft page) := by
  have hshape : IsDigest (currentApprovalDigest hexPlatform draft page) := hexPlatform_isDigest _
  exact if_neg hshape.ne_empty

def refundSource : AttestedSource :=
  { id := 9, status := "ready", freshnessState := "fresh", freshnessActorId := some 3,
    freshnessReason := some "checked", freshnessAttestedAt := some 5,
    freshnessExpiresAt := some 100, updatedAt := 5 }

def webAudience : AudienceBinding :=
  { id := 8, pageId := 7, objectRef := governedObjectRef 7, variantRef := "a", channel := "web",
    visibility := .external, bindingKey := "web" }

def refundSignal : GovernanceSignal :=
  { id := 20, signalType := .ticketCluster, objectRef := governedObjectRef 7, pageId := some 7,
    freshness := .stale, reason := "Refund tickets pile up." }

def refundIds (first : Uuid) : PublishIds :=
  ⟨first, first + 1, fun _ => first + 2, fun _ => first + 3⟩

/-- A first draft of the page is approved. -/
def firstReview : Elsewhere where
  pages := [refundPolicy 1]
  drafts := [refundDraft 1 10]
  sources := [refundSource]
  bindings := [webAudience]
  signals := [refundSignal]
  events := reviewEvents (refundDraft 1 10) (refundPolicy 1) 11

/-- A second draft of the page is approved. -/
def secondReview : Elsewhere where
  pages := [refundPolicy 2]
  drafts := [refundDraft 1 10, refundDraft 2 20]
  sources := [refundSource]
  bindings := [webAudience]
  signals := [refundSignal]
  events := reviewEvents (refundDraft 2 20) (refundPolicy 2) 21

theorem refundPolicy_object (version : Nat) :
    wikiPageToKnowledgeObject hexPlatform (refundPolicy version) [] =
      .ok (some ⟨governedObjectRef 7, .policyRule, "Refunds"⟩) := by
  have hid : strip (governedObjectRef 7) ≠ "" := by
    refine strip_ne_empty (c := 'k') ?_ (by decide)
    rw [governedObjectRef, String.toList_append]
    exact List.mem_append_left _ (by decide)
  have htype : resolveObjectType hexPlatform ["policy_rule"] = some .policyRule := by
    decide +kernel
  have htitle : strip "Refunds" ≠ "" := by decide
  have hsummary : strip (summaryFor (refundPolicy version).toWikiPage) ≠ "" := by
    have hfilled : orText (strip "Refunds take ten days.") (orText
        (firstParagraph (refundPolicy version).contentMd) (refundPolicy version).title) =
          strip "Refunds take ten days." := if_neg (by decide)
    change strip (orText (strip "Refunds take ten days.") _) ≠ ""
    rw [hfilled]
    decide
  have hevidence : ∀ value ∈ ([] : List String), strip value ≠ "" := by simp
  have htags : ∀ value ∈ (["policy_rule"] ++ ["substrate-mapped"]).eraseDups, strip value ≠ "" := by
    decide
  have hdomain : strip (["policy_rule"].headD "policy") ≠ "" := by decide
  have hauthority : strip (toString "wiki:" ++ toString "refunds") ≠ "" := by decide
  have hserved : ¬ (false = true ∨ "refunds" ∈ reservedWikiSlugs ∨
      "source/".toList.isPrefixOf "refunds".toList = true) := by decide
  have hfields : requireFields (refundPolicy version).toWikiPage .policyRule = .ok () := by
    unfold requireFields requireText
    exact bind_ok.mpr ⟨(), require_of hdomain, bind_ok.mpr ⟨(), require_of hsummary,
      require_of hauthority⟩⟩
  exact wikiPageToKnowledgeObject_of hserved htype hid htitle hsummary hevidence htags hfields

section Envelope

variable {state : Governed} {draft : GovernedDraft} {approval : GovernanceLedgerEvent}
  {digest : String} {version : Nat}

theorem webAudience_active (hbindings : state.bindings = [webAudience]) :
    listActiveBindings state 7 (governedObjectRef 7) = [webAudience] := by
  rw [listActiveBindings, hbindings]
  rfl

/-- An approved draft of the page is previewed. -/
theorem refund_previewed (hpages : state.pages = [refundPolicy version])
    (hsources : state.sources = [refundSource]) (hbindings : state.bindings = [webAudience])
    (hdraft : latestApprovedDraft state 7 = some draft)
    (happroval : latestApproval state draft.id = some approval)
    (hdigest : storedApprovalDigest approval = some digest) :
    ∃ envelope, durablePublishCommandForSignal hexPlatform state refundSignal none 40 =
      .ok (some envelope) := by
  have hrows : listActiveBindings state (refundPolicy version).id refundSignal.objectRef =
      [webAudience] := webAudience_active hbindings
  have hpage : state.pages.get 7 = some (refundPolicy version) := by
    rw [hpages]
    rfl
  have hlinked : (refundPolicy version).sourceIds.eraseDups.mapM state.sources.get =
      some [refundSource] := by
    rw [hsources]
    rfl
  have haction : ∀ previous : Option PublicationRow,
      (DurableAction.parse (selectedAction none previous)).isSome ∧
        strip (selectedAction none previous) ≠ "" ∧
        ¬ (previous = none ∧ selectedAction none previous ≠ "publish") := by
    intro previous
    cases previous with
    | none => exact ⟨by decide, by decide, by decide⟩
    | some publication =>
      have hparse : (DurableAction.parse "republish").isSome := by decide
      have hblank : strip "republish" ≠ "" := by decide
      exact ⟨hparse, hblank, by simp⟩
  obtain ⟨hparse, hblank, hfirst⟩ := haction (latestPublicationForObject state refundSignal.objectRef)
  have hscope : Returns (publishScopeDigest hexPlatform ⟨approval.id, digest, version, [webAudience],
      orderedSourceScopeState hexPlatform 40 [refundSource], "stale",
      selectedAction none (latestPublicationForObject state refundSignal.objectRef), ["web"], 20,
      "active"⟩) := by
    have hfreshness : strip "stale" ≠ "" := by decide
    have hstatus : strip "active" ≠ "" := by decide
    have hchannels : normalizeLabelled "target channel" ["web"] = .ok ["web"] := by rfl
    unfold publishScopeDigest
    refine Returns.bind (returns_require.mpr hblank) fun _ _ => ?_
    refine Returns.bind (returns_require.mpr hfreshness) fun _ _ => ?_
    refine Returns.bind (returns_require.mpr hstatus) fun _ _ => ?_
    refine returns_bind.mpr ⟨["web"], hchannels, ?_⟩
    exact Returns.bind (returns_require.mpr (List.cons_ne_nil _ _)) fun _ _ => returns_pure _
  obtain ⟨scopeDigest, hscope⟩ := hscope
  have hcompiled : ∃ envelope, compileEnvelope hexPlatform state refundSignal none 40 =
      .ok envelope := by
    have hsome : (refundPolicy version).sourceIds.eraseDups ≠ [] := by
      change [(9 : Uuid)].eraseDups ≠ []
      decide
    have hready : ∀ source ∈ [refundSource], source.status = "ready" := by decide
    have hbound : listActiveBindings state (refundPolicy version).id refundSignal.objectRef ≠ [] := by
      rw [hrows]
      exact List.cons_ne_nil _ _
    have hscope' : publishScopeDigest hexPlatform ⟨approval.id, digest, (refundPolicy version).version,
        listActiveBindings state (refundPolicy version).id refundSignal.objectRef,
        orderedSourceScopeState hexPlatform 40 [refundSource], refundSignal.freshness.value,
        selectedAction none (latestPublicationForObject state refundSignal.objectRef),
        ((listActiveBindings state (refundPolicy version).id refundSignal.objectRef).map
          AudienceBinding.channel).eraseDups, refundSignal.id, refundSignal.status.value⟩ =
            .ok scopeDigest := by
      rw [hrows]
      exact hscope
    simp only [compileEnvelope, bind_ok, require_ok, demand_ok, mapError_ok, pure_ok]
    exact ⟨_, (), rfl, 7, rfl, (), rfl, refundPolicy version, hpage, _, refundPolicy_object version,
      _, rfl, (), rfl, (), hsome, _, hlinked, (), hready, draft, hdraft, approval, happroval,
      digest, hdigest, (), hbound, (), hparse, (), hfirst, scopeDigest, hscope', rfl⟩
  obtain ⟨envelope, henvelope⟩ := hcompiled
  refine ⟨envelope, ?_⟩
  rw [durablePublishCommandForSignal, henvelope]

end Envelope
theorem webAudience_wellFormed : WellFormedBinding webAudience :=
  ⟨by decide, ⟨_, rfl⟩⟩

/-- The state in which the first draft is approved. -/
def reviewed : Governed := firstReview.on {}

theorem firstReview_sound : firstReview.Sound {} where
  drafts := by
    unfold Table.Keyed
    decide
  ledger := by
    unfold Table.Keyed
    decide
  signals := by
    unfold Table.Keyed
    decide
  bindings := by
    intro row hrow
    obtain rfl := List.mem_singleton.mp hrow
    exact webAudience_wellFormed
  bindingKeys := by decide
  versions := by decide
  reasons := by decide

theorem secondReview_sound {state : Governed} (h : state.ledger.map Row.key = [11, 12, 13, 32]) :
    secondReview.Sound state where
  drafts := by
    unfold Table.Keyed
    decide
  ledger := by
    change ((state.ledger ++ _).map Row.key).Nodup
    rw [List.map_append, h]
    decide
  signals := by
    unfold Table.Keyed
    decide
  bindings := by
    intro row hrow
    obtain rfl := List.mem_singleton.mp hrow
    exact webAudience_wellFormed
  bindingKeys := by decide
  versions := by decide
  reasons := by decide

theorem reviewed_sound : reviewed.Sound := Governed.Sound.empty.elsewhere firstReview_sound

theorem refundSource_fresh : resolveSourceFreshness refundSource 50 = .fresh := by decide

theorem linked_fresh {state : Governed} (hsources : state.sources = [refundSource]) :
    LinkedSourcesFresh state refundSignal 50 := by
  intro pageId page hpageId hpage id hid source hsource
  rw [hsources] at hsource
  rw [List.mem_singleton.mp (Table.get_mem hsource)]
  exact refundSource_fresh

theorem reviewed_fresh : (refundIds 31).Fresh reviewed ["web"] := by
  constructor <;> decide

/-- What an envelope of the state says when the page is at a version and a draft is approved. -/
theorem refund_compiled {state : Governed} {version : Nat} {draft : GovernedDraft}
    {envelope : DurableEnvelope} (hpages : state.pages = [refundPolicy version])
    (hbindings : state.bindings = [webAudience]) (hdraft : latestApprovedDraft state 7 = some draft)
    (h : durablePublishCommandForSignal hexPlatform state refundSignal none 40 =
      .ok (some envelope)) :
    ∃ approval, envelope.draftId = draft.id ∧ envelope.targetChannels = ["web"] ∧
      latestApproval state draft.id = some approval ∧
      storedApprovalDigest approval = some envelope.approvalDigest ∧
      (latestPublicationForObject state (governedObjectRef 7) = none →
        envelope.actionKey = "publish") := by
  obtain ⟨page, object, sources, other, approval, hcompiled⟩ :=
    compileEnvelope_ok (durablePublishCommandForSignal_some h)
  obtain ⟨pageId, hpageId, hpage⟩ := hcompiled.signalPage
  have hid : page.id = 7 := by
    rw [hpages] at hpage
    rw [List.mem_singleton.mp (Table.get_mem hpage)]
    rfl
  have hsame : other = draft := by
    have hother := hcompiled.draft_eq
    rw [hid, hdraft] at hother
    exact (Option.some.inj hother).symm
  subst hsame
  refine ⟨approval, hcompiled.draftId, ?_, hcompiled.approval_eq, hcompiled.digest, hcompiled.first⟩
  rw [hcompiled.channels, hid]
  change ((listActiveBindings state 7 (governedObjectRef 7)).map AudienceBinding.channel).eraseDups = _
  rw [webAudience_active hbindings]
  rfl

theorem first_publishable {envelope : DurableEnvelope}
    (h : durablePublishCommandForSignal hexPlatform reviewed refundSignal none 40 =
      .ok (some envelope)) :
    envelope.draftId = 1 ∧ envelope.targetChannels = ["web"] ∧
      Publishable hexPlatform reviewed refundSignal envelope := by
  have hdraft : latestApprovedDraft reviewed 7 = some (refundDraft 1 10) := rfl
  obtain ⟨approval, hdraftId, hchannels, happroval, hdigest, haction⟩ :=
    refund_compiled rfl rfl hdraft h
  have hdraftId : envelope.draftId = 1 := hdraftId
  have haction : envelope.actionKey = "publish" := haction rfl
  have hlatest : latestApproval reviewed 1 =
      some (approvalOf (refundDraft 1 10) (refundPolicy 1) 13) := rfl
  have hcurrent : currentApprovalDigest hexPlatform (refundDraft 1 10) (refundPolicy 1) =
      envelope.approvalDigest := by
    change latestApproval reviewed 1 = some approval at happroval
    rw [hlatest, Option.some.injEq] at happroval
    rw [← happroval, storedApprovalDigest_approvalOf] at hdigest
    exact Option.some.inj hdigest
  refine ⟨hdraftId, hchannels, ?_, ?_, ?_, ?_⟩
  · rintro publication ⟨⟩
  · rw [hdraftId]
    exact ⟨refundDraft 1 10, 7, refundPolicy 1, rfl, rfl, rfl, hcurrent⟩
  · rw [hdraftId]
    rfl
  · rw [haction]
    exact ⟨7, .publish, rfl, by decide, trivial⟩

/-- The command of an envelope, as a step of a run. -/
def DurableEnvelope.call (envelope : DurableEnvelope) (actorId : Uuid) (ids : PublishIds)
    (now : Timestamp) : PublishStep :=
  .call ⟨envelope.draftId, envelope.approvalRef, envelope.approvalDigest, envelope.scopeDigest,
    envelope.signalId, envelope.signalFreshness, envelope.commandId, envelope.actionKey,
    envelope.targetChannels, envelope.expectedVersion, some envelope.reason⟩ actorId ids now

theorem reviewed_previewed :
    ∃ envelope, durablePublishCommandForSignal hexPlatform reviewed refundSignal none 40 =
      .ok (some envelope) := by
  have hdraft : latestApprovedDraft reviewed 7 = some (refundDraft 1 10) := rfl
  have hlatest : latestApproval reviewed (refundDraft 1 10).id =
      some (approvalOf (refundDraft 1 10) (refundPolicy 1) 13) := rfl
  exact refund_previewed (rfl : reviewed.pages = [refundPolicy 1]) rfl rfl hdraft hlatest
    (storedApprovalDigest_approvalOf _ _ _)

/-- The hypotheses hold together: the first publication of an approved page. -/
theorem first_publication_executes :
    ∃ envelope, durablePublishCommandForSignal hexPlatform reviewed refundSignal none 40 =
        .ok (some envelope) ∧
      (Returns (executeEnvelope hexPlatform (fun key => key.2) 5 reviewed envelope 3 (refundIds 31)
          50) ↔
        Replays hexPlatform reviewed envelope ∨
          Publishable hexPlatform reviewed refundSignal envelope) ∧
      Publishable hexPlatform reviewed refundSignal envelope := by
  obtain ⟨envelope, henvelope⟩ := reviewed_previewed
  obtain ⟨-, hchannels, hpublishable⟩ := first_publishable henvelope
  have hids : (refundIds 31).Fresh reviewed envelope.targetChannels := by
    rw [hchannels]
    exact reviewed_fresh
  have hsteps : Machine.Meets (PublishStep.perform hexPlatform (fun key => key.2) 5)
      PublishStep.Sound {} [.elsewhere firstReview] := ⟨firstReview_sound, trivial⟩
  exact ⟨envelope, henvelope, publishRun_executeEnvelope_iff hexPlatform_isDigest hsteps rfl
    (List.mem_singleton_self _) henvelope (by decide) (linked_fresh rfl) hids, hpublishable⟩

/-- The first draft is approved and published, and then the second is approved. -/
def republication (first : DurableEnvelope) : List PublishStep :=
  [.elsewhere firstReview, first.call 3 (refundIds 31) 50, .elsewhere secondReview]

/-- What the first publication leaves. -/
structure FirstPublished (state : Governed) : Prop where
  ledger : ∃ event, state.ledger = reviewed.ledger ++ [event] ∧ event.id = 32 ∧ event.draftId = 1
  publications : ∃ publication, state.publications = [publication] ∧ publication.draftId = 1 ∧
    publication.objectRef = governedObjectRef 7
  propagations : state.propagations.map (·.id) = [33]
  deliveries : state.deliveries.map (fun row => (row.id, row.propagationId)) = [(34, 33)]
  keys : ∀ row ∈ state.deliveries,
    row.commandId = deliveryKey 31 "web" ∧ row.idempotencyKey = deliveryKey 31 "web"
  publicationIds : ∀ row ∈ state.publications, row.id = 31 ∧ row.publishEventId = 32

theorem qualify_object {env : Platform} {state : Governed} {command : DurablePublishCommand}
    {now : Timestamp} {qualified : Qualified} (h : qualify env state command now = .ok qualified) :
    ∃ signal ∈ state.signals, signal.objectRef = qualified.object.objectId := by
  simp only [qualify, qualifySignal, bind_ok, require_ok, demand_ok, pure_ok] at h
  obtain ⟨_, -, _, -, _, -, object, -, -, -, signal, ⟨_, hsignal, -, ⟨-, hobject⟩, -, -, -, -, rfl⟩, _, -, -,
    -, rfl⟩ := h
  exact ⟨_, Table.get_mem hsignal, hobject⟩

theorem firstPublished {first : DurableEnvelope} {reply : PublishReply} {state : Governed}
    (hpreview : durablePublishCommandForSignal hexPlatform reviewed refundSignal none 40 =
      .ok (some first))
    (h : executeEnvelope hexPlatform (fun key => key.2) 5 reviewed first 3 (refundIds 31) 50 =
      .ok (reply, state)) : FirstPublished state := by
  obtain ⟨hdraftId, hchannels, -⟩ := first_publishable hpreview
  obtain ⟨page, object, sources, draft, approval, hcompiled⟩ :=
    compileEnvelope_ok (durablePublishCommandForSignal_some hpreview)
  simp only [executeEnvelope, bind_ok, mapError_ok] at h
  obtain ⟨command, hcommand, h⟩ := h
  have hcarries := hcompiled.carries hexPlatform_isDigest reviewed_sound hcommand
  have hpublish : publish hexPlatform (fun key => key.2) 5 reviewed command 3 (refundIds 31) 50 =
      .ok (reply, state) := h
  obtain ⟨publication, propagations, deliveries, replayed⟩ := reply
  obtain ⟨qualified, result, event, ledger, hqualified, -, hevent, hpublication, -, rfl⟩ :=
    publish_ok hpublish
  dsimp only at hpublication
  subst hpublication
  obtain ⟨hget, -⟩ := qualifyReview_ok (qualify_reviewed hqualified)
  have hdraft : qualified.draft.id = 1 := by
    rw [hcarries.draftId, hdraftId] at hget
    exact Table.get_key hget
  obtain ⟨signal, hsignal, hobject⟩ := qualify_object hqualified
  obtain rfl := List.mem_singleton.mp hsignal
  have hkey : findKey reviewed.ledger (.publish command.commandId) = none :=
    reviewed_sound.staged.findKey_none (by rintro _ ⟨⟩)
  have happend := appendDraftEvent_fresh hevent hkey
  have htargets : command.targetChannels = ["web"] := hcarries.channels.trans hchannels
  have heventId : event.id = 32 := happend.id_eq
  constructor
  · exact ⟨event, happend.ledger_eq, heventId, happend.draft_eq.trans hdraft⟩
  · exact ⟨_, rfl, hdraft, hobject.symm⟩
  · rw [htargets]
    rfl
  · rw [htargets]
    rfl
  · rw [htargets]
    intro row hrow
    obtain rfl := List.mem_singleton.mp hrow
    exact ⟨rfl, rfl⟩
  · intro row hrow
    obtain rfl := List.mem_singleton.mp hrow
    exact ⟨rfl, heventId⟩

section Second

variable {published : Governed}

theorem FirstPublished.ledger_keys (h : FirstPublished published) :
    published.ledger.map Row.key = [11, 12, 13, 32] := by
  obtain ⟨event, hledger, hid, -⟩ := h.ledger
  rw [hledger, List.map_append, List.map_singleton]
  change [11, 12, 13] ++ [event.id] = _
  rw [hid]
  rfl

/-- The second draft is the one previewed, and its ledger has not been published. -/
theorem FirstPublished.second_ledger (h : FirstPublished published) :
    latestApproval (secondReview.on published) 2 =
        some (approvalOf (refundDraft 2 20) (refundPolicy 2) 23) ∧
      ledgerState (secondReview.on published).ledger 2 = some .approved := by
  obtain ⟨event, hledger, -, hdraft⟩ := h.ledger
  have hsplit : (secondReview.on published).ledger = (reviewed.ledger ++ [event]) ++
      reviewEvents (refundDraft 2 20) (refundPolicy 2) 21 := by
    rw [← hledger]
    rfl
  have hother : event.draftId ≠ 2 := by
    rw [hdraft]
    decide
  constructor
  · have hskip : isApproval 2 event = false := by simp [isApproval, hother]
    have hreviewed : reviewed.ledger.filter (isApproval 2) = [] := rfl
    rw [latestApproval, hsplit, List.filter_append, List.filter_append, hreviewed,
      List.filter_cons_of_neg (by simp [hskip])]
    rfl
  · have hreviewed : reviewed.ledger.filter (fun e => decide (e.draftId = 2)) = [] := rfl
    rw [ledgerState, getLatestDraftEvent, hsplit, List.filter_append, List.filter_append, hreviewed,
      List.filter_cons_of_neg (by simpa using hother)]
    rfl

theorem FirstPublished.publishFrom_eq (h : FirstPublished published) :
    publishFrom (secondReview.on published) (governedObjectRef 7) = .published := by
  obtain ⟨publication, hpublications, -, hobject⟩ := h.publications
  have hlatest : latestPublicationForObject (secondReview.on published) (governedObjectRef 7) =
      some publication := by
    change (published.publications.filter _).argmax _ = _
    rw [hpublications, List.filter_cons_of_pos (by simpa using hobject)]
    rfl
  rw [publishFrom, hlatest]
  rfl

theorem FirstPublished.fresh (h : FirstPublished published) :
    (refundIds 41).Fresh (secondReview.on published) ["web"] := by
  have hkey : deliveryKey 31 "web" ≠ deliveryKey 41 "web" := by decide +kernel
  constructor
  · refine Table.get_eq_none.mpr fun row hrow => ?_
    change row.id ≠ 41
    rw [(h.publicationIds row hrow).1]
    decide
  · refine Table.get_eq_none.mpr fun event hevent => ?_
    change event.id ≠ 42
    have hmem : event.id ∈ (published.ledger ++ reviewEvents (refundDraft 2 20) (refundPolicy 2)
        21).map Row.key := List.mem_map_of_mem hevent
    rw [List.map_append, h.ledger_keys] at hmem
    intro heq
    rw [heq] at hmem
    revert hmem
    decide
  · intro row hrow
    rw [(h.publicationIds row hrow).2]
    decide
  · intro channel _
    refine Table.get_eq_none.mpr fun row hrow => ?_
    have hmem : row.id ∈ published.propagations.map (·.id) := List.mem_map_of_mem hrow
    rw [h.propagations] at hmem
    change row.id ≠ 43
    rw [List.mem_singleton.mp hmem]
    decide
  · intro channel _ row hrow
    have hmem : (row.id, row.propagationId) ∈
        published.deliveries.map (fun row => (row.id, row.propagationId)) :=
      List.mem_map_of_mem hrow
    rw [h.deliveries, List.mem_singleton, Prod.mk.injEq] at hmem
    rw [hmem.2]
    change (33 : Uuid) ≠ 43
    decide
  · intro channel _
    refine Table.get_eq_none.mpr fun row hrow => ?_
    have hmem : (row.id, row.propagationId) ∈
        published.deliveries.map (fun row => (row.id, row.propagationId)) :=
      List.mem_map_of_mem hrow
    rw [h.deliveries, List.mem_singleton, Prod.mk.injEq] at hmem
    change row.id ≠ 44
    rw [hmem.1]
    decide
  · intro channel hchannel row hrow
    obtain rfl := List.mem_singleton.mp hchannel
    obtain ⟨hcommand, hidempotency⟩ := h.keys row hrow
    rw [hcommand, hidempotency]
    exact ⟨hkey, hkey⟩
  · decide
  · decide

/-- The envelope of the second draft is compiled, and the ledger refuses it. -/
theorem FirstPublished.second_refused (h : FirstPublished published) (hsound : published.Sound) :
    ∃ second, durablePublishCommandForSignal hexPlatform (secondReview.on published) refundSignal none
        40 = .ok (some second) ∧
      (refundIds 41).Fresh (secondReview.on published) second.targetChannels ∧
      ¬ Returns (executeEnvelope hexPlatform (fun key => key.2) 5 (secondReview.on published) second 3
        (refundIds 41) 50) := by
  have hreviewed : (secondReview.on published).Sound :=
    hsound.elsewhere (secondReview_sound h.ledger_keys)
  obtain ⟨hlatest, hledger⟩ := h.second_ledger
  have hdraft : latestApprovedDraft (secondReview.on published) 7 = some (refundDraft 2 20) := rfl
  have hpages : (secondReview.on published).pages = [refundPolicy 2] := rfl
  obtain ⟨second, hsecond⟩ := refund_previewed hpages rfl rfl hdraft hlatest
    (storedApprovalDigest_approvalOf _ _ _)
  have hbindings : (secondReview.on published).bindings = [webAudience] := rfl
  obtain ⟨approval, hdraftId, hchannels, -⟩ := refund_compiled hpages hbindings hdraft hsecond
  have hdraftId : second.draftId = 2 := hdraftId
  have hids : (refundIds 41).Fresh (secondReview.on published) second.targetChannels := by
    rw [hchannels]
    exact h.fresh
  refine ⟨second, hsecond, hids, ?_⟩
  rw [hreviewed.returns_executeEnvelope_iff hexPlatform_isDigest (List.mem_singleton_self _) hsecond
    (by decide : 40 ≤ 50) (linked_fresh rfl) hids]
  rintro (⟨command, publication, hcommand, hmem, -, hsame, -⟩ | hstands)
  · obtain ⟨only, hpublications, honly, -⟩ := h.publications
    obtain ⟨hcommandDraft, -⟩ := DurablePublishCommand.make_ok hcommand
    change publication ∈ published.publications at hmem
    rw [hpublications] at hmem
    rw [List.mem_singleton.mp hmem, honly, hcommandDraft, hdraftId] at hsame
    revert hsame
    change ¬ (1 : Uuid) = 2
    decide
  · have hstate := hstands.ledger
    rw [hdraftId] at hstate
    change ledgerState (secondReview.on published).ledger 2 =
      some (publishFrom (secondReview.on published) (governedObjectRef 7)) at hstate
    rw [hledger, h.publishFrom_eq] at hstate
    cases hstate

end Second

theorem first_published :
    ∃ first, durablePublishCommandForSignal hexPlatform reviewed refundSignal none 40 =
        .ok (some first) ∧
      FirstPublished (Machine.step (PublishStep.perform hexPlatform (fun key => key.2) 5) reviewed
        (first.call 3 (refundIds 31) 50)) := by
  obtain ⟨first, hfirst⟩ := reviewed_previewed
  obtain ⟨-, hchannels, hpublishable⟩ := first_publishable hfirst
  have hids : (refundIds 31).Fresh reviewed first.targetChannels := by
    rw [hchannels]
    exact reviewed_fresh
  obtain ⟨⟨reply, published⟩, hexecuted⟩ := (@Governed.Sound.returns_executeEnvelope_iff hexPlatform
    (fun key => key.2) 5 reviewed refundSignal none 40 50 first 3 (refundIds 31) reviewed_sound
    hexPlatform_isDigest (List.mem_singleton_self _) hfirst (by decide) (linked_fresh rfl) hids).mpr
      (.inr hpublishable)
  have hperform : PublishStep.perform hexPlatform (fun key => key.2) 5
      (first.call 3 (refundIds 31) 50) reviewed = .ok published := map_ok.mpr ⟨_, hexecuted, rfl⟩
  refine ⟨first, hfirst, ?_⟩
  rw [Machine.step, hperform]
  exact firstPublished hfirst hexecuted

/-- An approved draft of a page that an earlier draft published: its envelope is compiled, and the
ledger refuses it. -/
theorem second_draft_refused :
    ∃ first second,
      Machine.Meets (PublishStep.perform hexPlatform (fun key => key.2) 5) PublishStep.Sound {}
        (republication first) ∧
      durablePublishCommandForSignal hexPlatform
        (publishRun hexPlatform (fun key => key.2) 5 (republication first)) refundSignal none 40 =
          .ok (some second) ∧
      LinkedSourcesFresh (publishRun hexPlatform (fun key => key.2) 5 (republication first))
        refundSignal 50 ∧
      (refundIds 41).Fresh (publishRun hexPlatform (fun key => key.2) 5 (republication first))
        second.targetChannels ∧
      ¬ Returns (executeEnvelope hexPlatform (fun key => key.2) 5
        (publishRun hexPlatform (fun key => key.2) 5 (republication first)) second 3 (refundIds 41)
        50) := by
  obtain ⟨first, hfirst, hpublished⟩ := first_published
  have hcall : PublishStep.Sound reviewed (first.call 3 (refundIds 31) 50) := trivial
  have hsound : (Machine.step (PublishStep.perform hexPlatform (fun key => key.2) 5) reviewed
      (first.call 3 (refundIds 31) 50)).Sound := perform_governed.step reviewed_sound hcall
  obtain ⟨second, hsecond, hids, hrefused⟩ := hpublished.second_refused hsound
  refine ⟨first, second, ⟨firstReview_sound, trivial, ?_, trivial⟩, hsecond, linked_fresh rfl, hids,
    hrefused⟩
  exact secondReview_sound hpublished.ledger_keys

end Refunds
end Cygnus.Publish
