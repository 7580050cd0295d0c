import Cygnus.Publish.Availability
import Cygnus.Publish.DurableRuns

/-! What a compiled envelope says about the state it was compiled in, and that the checks of an apply
read the same facts there. -/

namespace Cygnus.Publish

open Wiki Domain Governance Retrieval Text Result Sequence

variable {env : Platform} {state : Governed} {signal : GovernanceSignal}
  {actionKey : Option String} {now previewed : Timestamp} {envelope : DurableEnvelope}

/-- The rows an envelope was compiled from. -/
structure Compiled (env : Platform) (state : Governed) (signal : GovernanceSignal)
    (now : Timestamp) (envelope : DurableEnvelope) (page : GovernedPage) (object : KnowledgeObject)
    (sources : List AttestedSource) (draft : GovernedDraft) (approval : GovernanceLedgerEvent) :
    Prop where
  signalPage : ∃ pageId, signal.pageId = some pageId ∧ state.pages.get pageId = some page
  active : signal.status = .active
  projected : wikiPageToKnowledgeObject env page [] = .ok (some object)
  object_eq : object.objectId = signal.objectRef
  linked : page.sourceIds.eraseDups ≠ []
  sources_eq : page.sourceIds.eraseDups.mapM state.sources.get = some sources
  ready : ∀ source ∈ sources, source.status = "ready"
  draft_eq : latestApprovedDraft state page.id = some draft
  approval_eq : latestApproval state draft.id = some approval
  digest : storedApprovalDigest approval = some envelope.approvalDigest
  bound : listActiveBindings state page.id signal.objectRef ≠ []
  action : (DurableAction.parse envelope.actionKey).isSome
  first : latestPublicationForObject state signal.objectRef = none →
    envelope.actionKey = "publish"
  scope : publishScopeDigest env
    ⟨approval.id, envelope.approvalDigest, page.version,
      listActiveBindings state page.id signal.objectRef, orderedSourceScopeState env now sources,
      signal.freshness.value, envelope.actionKey, envelope.targetChannels, signal.id,
      signal.status.value⟩ = .ok envelope.scopeDigest
  draftId : envelope.draftId = draft.id
  approvalRef : envelope.approvalRef = approval.id
  signalId : envelope.signalId = signal.id
  freshness : envelope.signalFreshness = signal.freshness.value
  channels : envelope.targetChannels =
    ((listActiveBindings state page.id signal.objectRef).map AudienceBinding.channel).eraseDups
  reason : envelope.reason = signal.reason
  version : envelope.expectedVersion = page.version
  command : ∃ identity, envelope.commandId = s!"publish-preview:{env.sha256 identity}"

theorem compileEnvelope_ok (h : compileEnvelope env state signal actionKey now = .ok envelope) :
    ∃ page object sources draft approval,
      Compiled env state signal now envelope page object sources draft approval := by
  simp only [compileEnvelope, bind_ok, require_ok, demand_ok, mapError_ok, pure_ok] at h
  obtain ⟨-, -, pageId, hpageId, -, hactive, page, hpage, _, hprojected, object, rfl, -, hobject,
    -, hlinked, sources, hsources, -, hready, draft, hdraft, approval, happroval, digest, hdigest,
    -, hbound, -, haction, -, hfirst, scopeDigest, hscope, rfl⟩ := h
  refine ⟨page, object, sources, draft, approval, ⟨pageId, hpageId, hpage⟩, hactive, hprojected,
    hobject, hlinked, hsources, hready, hdraft, happroval, hdigest, hbound, haction, ?_, hscope,
    rfl, rfl, rfl, rfl, rfl, rfl, rfl, ⟨_, rfl⟩⟩
  intro hnone
  by_contra hother
  exact hfirst ⟨hnone, hother⟩

theorem durablePublishCommandForSignal_some
    (h : durablePublishCommandForSignal env state signal actionKey now = .ok (some envelope)) :
    compileEnvelope env state signal actionKey now = .ok envelope := by
  unfold durablePublishCommandForSignal at h
  split at h
  · rename_i hcompiled
    rw [hcompiled, Option.some.inj (Except.ok.inj h)]
  · cases h
  · cases h

section Object

theorem strip_evidenceId (id : Uuid) : strip s!"ev-src-{id.text}" ≠ "" := by
  have hhead : 'e' ∈ (toString "ev-src-").toList := by decide
  refine strip_ne_empty (c := 'e') ?_ (by decide)
  repeat
    rw [String.toList_append]
    refine List.mem_append_left _ ?_
  exact hhead

/-- The evidence a page is projected with only has to be named. -/
theorem wikiPageToKnowledgeObject_evidence {page : GovernedPage} {object : KnowledgeObject}
    {evidenceIds : List String}
    (h : wikiPageToKnowledgeObject env page [] = .ok (some object))
    (hevidence : ∀ id ∈ evidenceIds, strip id ≠ "") :
    wikiPageToKnowledgeObject env page evidenceIds = .ok (some object) := by
  unfold wikiPageToKnowledgeObject at h ⊢
  split at h
  · cases h
  · rename_i hserved
    rw [if_neg hserved]
    cases htype : resolveObjectType env page.knowledgeTypeSlugs with
    | none =>
      rw [htype] at h
      cases h
    | some objectType =>
      rw [htype] at h
      simp only [requireValues, bind_ok, require_ok, pure_ok] at h ⊢
      obtain ⟨_, hid, _, htitle, _, hsummary, u, -, v, htags, w, hfields, hobject⟩ := h
      exact ⟨_, hid, _, htitle, _, hsummary, u, hevidence, v, htags, w, hfields, hobject⟩

theorem wikiPageToKnowledgeObject_of {page : GovernedPage} {objectType : KnowledgeObjectType}
    {evidenceIds : List String}
    (hserved : ¬ (page.orphaned ∨ page.slug ∈ reservedWikiSlugs ∨
      "source/".toList.isPrefixOf page.slug.toList))
    (htype : resolveObjectType env page.knowledgeTypeSlugs = some objectType)
    (hid : strip (governedObjectRef page.id) ≠ "") (htitle : strip page.title ≠ "")
    (hsummary : strip (summaryFor page.toWikiPage) ≠ "")
    (hevidence : ∀ id ∈ evidenceIds, strip id ≠ "")
    (htags : ∀ tag ∈ (page.knowledgeTypeSlugs ++ ["substrate-mapped"]).eraseDups, strip tag ≠ "")
    (hfields : requireFields page.toWikiPage objectType = .ok ()) :
    wikiPageToKnowledgeObject env page evidenceIds =
      .ok (some ⟨governedObjectRef page.id, objectType, page.title⟩) := by
  unfold wikiPageToKnowledgeObject
  rw [if_neg hserved, htype]
  simp only [requireText, requireValues, bind_ok, require_ok, pure_ok]
  exact ⟨(), hid, (), htitle, (), hsummary, (), hevidence, (), htags, (), hfields, trivial⟩

theorem wikiPageToKnowledgeObject_texts {page : GovernedPage} {object : KnowledgeObject}
    {evidenceIds : List String}
    (h : wikiPageToKnowledgeObject env page evidenceIds = .ok (some object)) :
    strip object.objectId ≠ "" ∧ strip object.title ≠ "" := by
  unfold wikiPageToKnowledgeObject at h
  split at h
  · cases h
  · split at h
    · cases h
    · simp only [requireText, bind_ok, require_ok, pure_ok, Option.some.injEq] at h
      obtain ⟨_, hid, _, htitle, _, -, _, -, _, -, _, -, rfl⟩ := h
      exact ⟨hid, htitle⟩

end Object

section Command

/-- A lower-case SHA-256 in hexadecimal. -/
def IsDigest (text : String) : Prop :=
  text.toList.length = 64 ∧ ∀ c ∈ text.toList, c ∈ "0123456789abcdef".toList

theorem hex_not_space {c : Char} (h : c ∈ "0123456789abcdef".toList) : isSpace c = false := by
  have hall : "0123456789abcdef".toList.all (!isSpace ·) = true := by decide
  exact Bool.not_eq_true' _ ▸ List.all_eq_true.mp hall c h

theorem hex_toLower {c : Char} (h : c ∈ "0123456789abcdef".toList) : c.toLower = c := by
  have hall : "0123456789abcdef".toList.all (fun c => c.toLower == c) = true := by decide
  exact eq_of_beq (List.all_eq_true.mp hall c h)

theorem IsDigest.strip_eq {text : String} (h : IsDigest text) : strip text = text :=
  strip_of_forall fun c hc => hex_not_space (h.2 c hc)

theorem IsDigest.ne_empty {text : String} (h : IsDigest text) : text ≠ "" := by
  rintro rfl
  cases h.1

theorem requireDigest_of {text : String} (label : String) (h : IsDigest text) :
    requireDigest label text = .ok text := by
  have hlower : text.map Char.toLower = text := by
    rw [← String.toList_inj, String.toList_map]
    exact (List.map_congr_left fun c hc => hex_toLower (h.2 c hc)).trans (List.map_id _)
  have hshape : text.length = 64 ∧
      (text.toList.all fun c => c ∈ "0123456789abcdef".toList) = true := by
    refine ⟨h.1, ?_⟩
    rw [List.all_eq_true]
    intro c hc
    simpa using h.2 c hc
  unfold requireDigest
  rw [h.strip_eq, hlower]
  dsimp only
  rw [require_of hshape, ok_bind]
  rfl

theorem parse_freshness_value (freshness : FreshnessAttestation) :
    FreshnessAttestation.parse (strip freshness.value) = some freshness := by
  cases freshness <;> decide

/-- The constructor accepts what is written in its own form. -/
theorem returns_command_make {draftId approvalRef signalId : Uuid}
    {approvalDigest scopeDigest commandId actionKey reason : String}
    {freshness : FreshnessAttestation} {targetChannels : List String} {expectedVersion : Int}
    (hcommand : strip commandId ≠ "") (hshort : (strip commandId).length ≤ 200)
    (haction : strip actionKey ≠ "") (hreason : strip reason ≠ "") (hversion : 1 ≤ expectedVersion)
    (happroval : IsDigest approvalDigest) (hscope : IsDigest scopeDigest)
    (hchannels : ∀ channel ∈ targetChannels, strip channel ≠ "") (htargeted : targetChannels ≠ []) :
    Returns (DurablePublishCommand.make draftId approvalRef approvalDigest scopeDigest signalId
      freshness.value commandId actionKey targetChannels expectedVersion (some reason)) := by
  have hnormal : (targetChannels.map strip).eraseDups ≠ [] := by
    obtain ⟨channel, hchannel⟩ := List.exists_mem_of_ne_nil _ htargeted
    exact List.ne_nil_of_mem (List.mem_eraseDups.mpr (List.mem_map_of_mem hchannel))
  have hsome : (some reason).map strip ≠ some "" := by simpa using hreason
  unfold DurablePublishCommand.make
  dsimp only
  simp only [require_of hcommand, require_of hshort, require_of haction, require_of hsome,
    require_of hversion, ok_bind, parse_freshness_value, requireDigest_of _ happroval,
    requireDigest_of _ hscope]
  split
  · rename_i error herror
    rw [normalizeLabelled_of_forall hchannels] at herror
    cases herror
  · rename_i channels hok
    rw [normalizeLabelled_of_forall hchannels] at hok
    obtain rfl := Except.ok.inj hok
    rw [dif_pos hnormal]
    exact returns_pure _

theorem DurableAction.strip_of_parse {key : String} (h : (DurableAction.parse key).isSome) :
    strip key = key := by
  unfold DurableAction.parse at h
  split at h
  · decide
  · decide
  · decide
  · decide
  · decide
  · cases h

theorem DurableAction.ne_empty_of_parse {key : String} (h : (DurableAction.parse key).isSome) :
    key ≠ "" := by
  rintro rfl
  cases h

/-- Texts in normal form are left as they are. -/
theorem normalizeLabelled_self {label : String} {values : List String}
    (hstripped : ∀ v ∈ values, Stripped v) (hnodup : values.Nodup) :
    normalizeLabelled label values = .ok values := by
  have hblank : ∀ v ∈ values, strip v ≠ "" := by
    intro v hv
    rw [(hstripped v hv).1]
    exact (hstripped v hv).2
  have hmap : values.map strip = values :=
    (List.map_congr_left fun v hv => (hstripped v hv).1).trans (List.map_id _)
  rw [normalizeLabelled_of_forall hblank, hmap, eraseDups_of_nodup hnodup]

/-- The command is the envelope, field by field. -/
structure Carries (envelope : DurableEnvelope) (signal : GovernanceSignal)
    (command : DurablePublishCommand) : Prop where
  draftId : command.draftId = envelope.draftId
  approvalRef : command.approvalRef = envelope.approvalRef
  signalId : command.signalId = envelope.signalId
  commandId : command.commandId = envelope.commandId
  actionKey : command.actionKey = envelope.actionKey
  reason : command.reason = some (strip signal.reason)
  version : command.expectedVersion = envelope.expectedVersion
  freshness : command.signalFreshness = signal.freshness
  approvalDigest : IsDigest envelope.approvalDigest →
    command.approvalDigest = envelope.approvalDigest
  scopeDigest : command.scopeDigest = envelope.scopeDigest
  channels : command.targetChannels = envelope.targetChannels

end Command

/-- What the columns, keys and constructors of the stored rows guarantee. -/
structure Governed.Sound (state : Governed) : Prop where
  drafts : state.drafts.Keyed
  ledger : state.ledger.Keyed
  signals : state.signals.Keyed
  bindings : ∀ row ∈ state.bindings, WellFormedBinding row
  bindingKeys : (state.bindings.map AudienceBinding.bindingKey).Nodup
  versions : ∀ page ∈ state.pages, 1 ≤ page.version
  reasons : ∀ signal ∈ state.signals, strip signal.reason ≠ ""
  staged : Staged state

section Compiled

variable {page : GovernedPage} {object : KnowledgeObject} {sources : List AttestedSource}
  {draft : GovernedDraft} {approval : GovernanceLedgerEvent} {command : DurablePublishCommand}

theorem mem_listActiveBindings {pageId : Uuid} {objectRef : String} {row : AudienceBinding} :
    row ∈ listActiveBindings state pageId objectRef ↔
      row ∈ state.bindings ∧ row.pageId = pageId ∧ row.objectRef = objectRef ∧
        row.lifecycleState = .active := by
  rw [listActiveBindings, mem_sortedBy, List.mem_filter]
  simp

theorem Compiled.channel_stripped
    (h : Compiled env state signal now envelope page object sources draft approval)
    (hsound : state.Sound) : ∀ channel ∈ envelope.targetChannels, Stripped channel := by
  intro channel hchannel
  rw [h.channels, List.mem_eraseDups] at hchannel
  obtain ⟨row, hrow, rfl⟩ := List.mem_map.mp hchannel
  exact (hsound.bindings row (mem_listActiveBindings.mp hrow).1).channel

theorem Compiled.normal_channels
    (h : Compiled env state signal now envelope page object sources draft approval)
    (hsound : state.Sound) (label : String) :
    normalizeLabelled label envelope.targetChannels = .ok envelope.targetChannels := by
  refine normalizeLabelled_self (h.channel_stripped hsound) ?_
  rw [h.channels]
  exact nodup_eraseDups _

theorem publishScopeDigest_isDigest (hsha : ∀ text, IsDigest (env.sha256 text))
    {scope : PublishScope} {digest : String} (h : publishScopeDigest env scope = .ok digest) :
    IsDigest digest := by
  simp only [publishScopeDigest, bind_ok, require_ok, pure_ok] at h
  obtain ⟨-, -, -, -, -, -, _, -, -, -, rfl⟩ := h
  exact hsha _

theorem commandId_not_space {digest : String} (h : IsDigest digest) :
    ∀ c ∈ (s!"publish-preview:{digest}").toList, isSpace c = false := by
  have hstart : (toString "publish-preview:").toList.all (!isSpace ·) = true := by decide
  intro c hc
  simp only [String.toList_append, List.mem_append] at hc
  rcases hc with hlabel | hdigest
  · exact Bool.not_eq_true' _ ▸ List.all_eq_true.mp hstart c hlabel
  · exact hex_not_space (h.2 c hdigest)

theorem commandId_short {digest : String} (h : IsDigest digest) :
    (s!"publish-preview:{digest}").length ≤ 200 := by
  have hlength : digest.length = 64 := h.1
  have hhead : (toString "publish-preview:").length = 16 := by decide
  rw [String.length_append, hhead]
  change 16 + digest.length ≤ 200
  omega

/-- An envelope whose approval digest is one makes a command. -/
theorem Compiled.returns_command
    (h : Compiled env state signal now envelope page object sources draft approval)
    (hsha : ∀ text, IsDigest (env.sha256 text)) (hsound : state.Sound)
    (hsignal : signal ∈ state.signals) (hdigest : IsDigest envelope.approvalDigest) :
    Returns envelope.command := by
  obtain ⟨identity, hidentity⟩ := h.command
  have hspace := commandId_not_space (hsha identity)
  obtain ⟨pageId, -, hpage⟩ := h.signalPage
  have htargeted : envelope.targetChannels ≠ [] := by
    obtain ⟨row, hrow⟩ := List.exists_mem_of_ne_nil _ h.bound
    rw [h.channels]
    exact List.ne_nil_of_mem (List.mem_eraseDups.mpr (List.mem_map_of_mem hrow))
  have hversion : (1 : Int) ≤ envelope.expectedVersion := by
    rw [h.version]
    exact_mod_cast hsound.versions page (Table.get_mem hpage)
  have hcommandId : strip envelope.commandId = envelope.commandId := by
    rw [hidentity]
    exact strip_of_forall hspace
  unfold DurableEnvelope.command
  rw [h.freshness]
  refine returns_command_make ?_ ?_ ?_ ?_ hversion hdigest (publishScopeDigest_isDigest hsha h.scope)
    ?_ htargeted
  · have hhead : 'p' ∈ (toString "publish-preview:").toList := by decide
    rw [hidentity]
    refine strip_ne_empty (c := 'p') ?_ (by decide)
    rw [String.toList_append]
    exact List.mem_append_left _ hhead
  · rw [hcommandId, hidentity]
    exact commandId_short (hsha identity)
  · rw [DurableAction.strip_of_parse h.action]
    exact DurableAction.ne_empty_of_parse h.action
  · rw [h.reason]
    exact hsound.reasons signal hsignal
  · intro channel hchannel
    have hstripped := h.channel_stripped hsound channel hchannel
    rw [hstripped.1]
    exact hstripped.2

theorem Compiled.carries
    (h : Compiled env state signal now envelope page object sources draft approval)
    (hsha : ∀ text, IsDigest (env.sha256 text)) (hsound : state.Sound)
    (hcommand : envelope.command = .ok command) : Carries envelope signal command := by
  obtain ⟨identity, hidentity⟩ := h.command
  obtain ⟨hdraft, happroval, hsignal, hid, haction, hreason, hversion, hfreshness, hdigest, hscope,
    hchannels⟩ := DurablePublishCommand.make_ok hcommand
  constructor
  · exact hdraft
  · exact happroval
  · exact hsignal
  · rw [hid, hidentity]
    exact strip_of_forall (commandId_not_space (hsha identity))
  · rw [haction, DurableAction.strip_of_parse h.action]
  · rw [hreason, h.reason]
    rfl
  · rw [hversion]
    exact Int.toNat_natCast _
  · rw [h.freshness, parse_freshness_value] at hfreshness
    exact (Option.some.inj hfreshness).symm
  · intro hshape
    rw [requireDigest_of _ hshape] at hdigest
    exact (Except.ok.inj hdigest).symm
  · rw [requireDigest_of _ (publishScopeDigest_isDigest hsha h.scope)] at hscope
    exact (Except.ok.inj hscope).symm
  · rw [h.normal_channels hsound] at hchannels
    exact (Except.ok.inj hchannels).symm

section Scope

theorem resolveSourceFreshness_earlier {source : AttestedSource} (hle : previewed ≤ now)
    (h : resolveSourceFreshness source now = .fresh) :
    resolveSourceFreshness source previewed = .fresh := by
  unfold resolveSourceFreshness at h ⊢
  split at h
  · cases h
  · cases h
  · cases h
  · split at h
    · split at h
      · cases h
      · rename_i hstands
        rw [not_or, not_or, not_le] at hstands
        obtain ⟨hblank, hexpiry, hcontent⟩ := hstands
        rw [if_neg]
        rintro (hblank' | hexpiry' | hcontent')
        · exact hblank hblank'
        · exact absurd (hexpiry'.trans hle) (not_le.mpr hexpiry)
        · exact hcontent hcontent'
    · cases h

theorem orderedSourceScopeState_fresh
    (hpreviewed : ∀ source ∈ sources, resolveSourceFreshness source previewed = .fresh)
    (hnow : ∀ source ∈ sources, resolveSourceFreshness source now = .fresh) :
    orderedSourceScopeState env previewed sources = orderedSourceScopeState env now sources := by
  refine List.map_congr_left ?_
  intro source hsource
  rw [mem_sortedBy] at hsource
  rw [sourceScopeState, sourceScopeState, hpreviewed source hsource, hnow source hsource]

/-- The order of the binding rows does not matter to a scope. -/
theorem publishScopeDigest_perm {scope : PublishScope} {rows : List AudienceBinding}
    (hperm : scope.bindingRows.Perm rows)
    (hkeys : (scope.bindingRows.map AudienceBinding.bindingKey).Nodup) :
    publishScopeDigest env scope = publishScopeDigest env { scope with bindingRows := rows } := by
  have hsorted : ∀ channels : List String,
      sortedBy AudienceBinding.bindingKey
          (scope.bindingRows.filter fun row => row.channel ∈ channels) =
        sortedBy AudienceBinding.bindingKey (rows.filter fun row => row.channel ∈ channels) := by
    intro channels
    exact sortedBy_perm (hperm.filter _) (hkeys.sublist (List.filter_sublist.map _))
  unfold publishScopeDigest
  simp only [hsorted]

theorem listActiveBindings_perm (state : Governed) (pageId : Uuid) (objectRef : String) :
    (listActiveBindings state pageId objectRef).Perm
      (activeBindingRows state.bindings pageId objectRef) :=
  (perm_sortedBy _ _).trans (perm_sortedBy _ _).symm

theorem Governed.Sound.nodup_listActiveBindings (h : state.Sound) (pageId : Uuid)
    (objectRef : String) :
    ((listActiveBindings state pageId objectRef).map AudienceBinding.bindingKey).Nodup := by
  have hperm := (perm_sortedBy AudienceBinding.sortKey (state.bindings.filter fun row =>
    row.pageId = pageId ∧ row.objectRef = objectRef ∧ row.lifecycleState = .active)).map
      AudienceBinding.bindingKey
  exact hperm.nodup_iff.mpr (h.bindingKeys.sublist (List.filter_sublist.map _))

end Scope

section Qualify

theorem latestApprovedDraft_some {pageId : Uuid} (h : latestApprovedDraft state pageId = some draft) :
    draft ∈ state.drafts ∧ draft.pageId = some pageId ∧ draft.status = .approved := by
  have hmem := List.mem_filter.mp (List.argmin_mem h)
  simpa using hmem

theorem latestApproval_some {draftId : Uuid} (h : latestApproval state draftId = some approval) :
    approval ∈ state.ledger ∧ isApproval draftId approval = true :=
  List.mem_filter.mp (List.argmax_mem h)

theorem getApprovalEvent_of_mem {draftId : Uuid} (hkeyed : state.ledger.Keyed)
    (hmem : approval ∈ state.ledger) (happroval : isApproval draftId approval = true) :
    getApprovalEvent state draftId approval.id = some approval := by
  cases hfound : getApprovalEvent state draftId approval.id with
  | none =>
    have hnone := List.find?_eq_none.mp hfound approval hmem
    simp [happroval] at hnone
  | some other =>
    have hother := List.find?_some hfound
    rw [Bool.and_eq_true, decide_eq_true_eq] at hother
    rw [hkeyed.eq_of_key (List.mem_of_find?_eq_some hfound) hmem hother.1]

end Qualify

end Compiled

end Cygnus.Publish
