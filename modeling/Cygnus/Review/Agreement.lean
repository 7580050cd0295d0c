import Cygnus.Governance.LedgerLaws
import Cygnus.Review.Contributions

/-! The agreement between draft rows and their ledger, and how one draft may evolve under it. -/

namespace Cygnus.Review

open Wiki Governance

def Decided (status : DraftStatus) : Prop :=
  status ∈ [DraftStatus.approved, .rejected, .withdrawn]

instance : DecidablePred Decided := fun status =>
  inferInstanceAs (Decidable (status ∈ [DraftStatus.approved, .rejected, .withdrawn]))

/-- How far a draft is within its revision round. -/
def stage : DraftStatus → Nat
  | .draft => 0
  | .pending => 1
  | .needsRevision => 2
  | .approved => 3
  | .rejected => 3
  | .withdrawn => 3

/-- The draft has passed stage `k` of round `round`, or is there. -/
def Reached (draft : WikiPageDraft) (round k : Nat) : Prop :=
  round < draft.revisionRound ∨ round = draft.revisionRound ∧ k ≤ stage draft.status

/-- What the presence of an idempotency key in the ledger says about its draft. -/
def Spent (draft : WikiPageDraft) : IdempotencyKey → Prop
  | .wikiDraft id .proposalCreated none => id = draft.id
  | .wikiDraft id .reviewRequested (some round) => id = draft.id ∧ Reached draft round 1
  | .wikiDraft id .reviewResubmitted (some round) => id = draft.id ∧ Reached draft round 1
  | .wikiDraft id .changesRequested (some round) => id = draft.id ∧ Reached draft round 2
  | .wikiDraft id .draftUpdated (some version) => id = draft.id ∧ version ≤ draft.version
  | .wikiDraft id .approved none => id = draft.id ∧ draft.status = .approved
  | .wikiDraft id .rejected none => id = draft.id ∧ draft.status = .rejected
  | .wikiDraft id .withdrawn none => id = draft.id ∧ draft.status = .withdrawn
  | .compilerSourceFence id _ => id = draft.id ∧ draft.status = .withdrawn
  | _ => False

/-- The rounds, stages and versions of a draft only grow, and a decision is final. -/
structure Evolves (before after : WikiPageDraft) : Prop where
  id_eq : after.id = before.id
  progress : Reached after before.revisionRound (stage before.status)
  version_le : before.version ≤ after.version
  final : Decided before.status → after.status = before.status

variable {draft draft' : WikiPageDraft} {drafts drafts' : Table WikiPageDraft}
  {ledger ledger' : Table GovernanceLedgerEvent} {row : GovernanceLedgerEvent}

theorem Evolves.refl (draft : WikiPageDraft) : Evolves draft draft :=
  ⟨rfl, .inr ⟨rfl, le_rfl⟩, le_rfl, fun _ => rfl⟩

/-- A step inside a revision round. -/
theorem Evolves.within (hopen : ¬ Decided draft.status) (hid : draft'.id = draft.id)
    (hround : draft'.revisionRound = draft.revisionRound) (hversion : draft.version ≤ draft'.version)
    (hstage : stage draft.status ≤ stage draft'.status) : Evolves draft draft' :=
  ⟨hid, .inr ⟨hround.symm, hstage⟩, hversion, fun hd => absurd hd hopen⟩

theorem stage_le_of_decided {status : DraftStatus} (h : Decided status) (earlier : DraftStatus) :
    stage earlier ≤ stage status := by
  revert h
  cases status <;> cases earlier <;> decide

theorem Evolves.reached (h : Evolves draft draft') {round k : Nat} (hr : Reached draft round k) :
    Reached draft' round k := by
  have := h.progress
  unfold Reached at *
  omega

theorem Evolves.trans {third : WikiPageDraft} (h : Evolves draft draft')
    (h' : Evolves draft' third) : Evolves draft third := by
  refine ⟨h'.id_eq.trans h.id_eq, h'.reached h.progress, h.version_le.trans h'.version_le, ?_⟩
  intro hd
  have heq := h.final hd
  exact (h'.final (heq ▸ hd)).trans heq

theorem Evolves.status_eq (h : Evolves draft draft') {status : DraftStatus} (hd : Decided status)
    (hs : draft.status = status) : draft'.status = status := by
  subst hs
  exact h.final hd

/-- A spent key stays spent. -/
theorem Spent.evolve {key : IdempotencyKey} (hs : Spent draft key) (h : Evolves draft draft') :
    Spent draft' key := by
  have hid := h.id_eq
  unfold Spent at hs ⊢
  split at hs
  · exact hs.trans hid.symm
  · exact ⟨hs.1.trans hid.symm, h.reached hs.2⟩
  · exact ⟨hs.1.trans hid.symm, h.reached hs.2⟩
  · exact ⟨hs.1.trans hid.symm, h.reached hs.2⟩
  · exact ⟨hs.1.trans hid.symm, hs.2.trans h.version_le⟩
  · exact ⟨hs.1.trans hid.symm, h.status_eq (by decide) hs.2⟩
  · exact ⟨hs.1.trans hid.symm, h.status_eq (by decide) hs.2⟩
  · exact ⟨hs.1.trans hid.symm, h.status_eq (by decide) hs.2⟩
  · exact ⟨hs.1.trans hid.symm, h.status_eq (by decide) hs.2⟩
  · exact hs.elim

/-- Every draft is where its ledger says it is, and every key of the ledger is spent. -/
structure Agreement (drafts : Table WikiPageDraft) (ledger : Table GovernanceLedgerEvent) :
    Prop where
  keyed : drafts.Keyed
  follows : ∀ id draft, drafts.get id = some draft →
    ledgerState ledger id = some (governanceStateForDraftStatus draft.status)
  spent : ∀ event ∈ ledger, ∃ draft, drafts.get event.draftId = some draft ∧
    Spent draft event.idempotencyKey
  positive : ∀ id draft, drafts.get id = some draft → 1 ≤ draft.version

theorem Agreement.empty : Agreement [] [] := by
  constructor <;> simp [Table.get, Table.Keyed]

/-- The draft whose history a key belongs to. -/
def keyDraft : IdempotencyKey → Option Uuid
  | .wikiDraft id _ _ => some id
  | .compilerSourceFence id _ => some id
  | _ => none

theorem Spent.keyDraft_eq {key : IdempotencyKey} (h : Spent draft key) :
    keyDraft key = some draft.id := by
  unfold Spent at h
  split at h <;> simp_all [keyDraft]

/-- A key that would not be spent is not in the ledger. -/
theorem Agreement.keyFree (h : Agreement drafts ledger) (hget : drafts.get draft.id = some draft)
    {key : IdempotencyKey} (hnames : keyDraft key = some draft.id) (hkey : ¬ Spent draft key) :
    findKey ledger key = none := by
  rw [findKey_none]
  rintro event hevent rfl
  obtain ⟨other, hother, hspent⟩ := h.spent event hevent
  have hid : other.id = draft.id := Option.some.inj (hspent.keyDraft_eq.symm.trans hnames)
  have heq : event.draftId = draft.id := (Table.get_key hother).symm.trans hid
  rw [heq, hget] at hother
  cases hother
  exact hkey hspent

/-- `ledger'` extends `ledger` by events of one draft, and leaves it where the row is. -/
structure Records (draft : WikiPageDraft) (ledger ledger' : Table GovernanceLedgerEvent) : Prop where
  follows : ledgerState ledger' draft.id = some (governanceStateForDraftStatus draft.status)
  others : ∀ id, id ≠ draft.id → ledgerState ledger' id = ledgerState ledger id
  added : ∀ event ∈ ledger', event ∈ ledger ∨
    event.draftId = draft.id ∧ Spent draft event.idempotencyKey

theorem Records.of_append {eventId : Uuid} {event : DraftEvent}
    (h : Appends ledger eventId event row ledger') (hdraft : event.draftId = draft.id)
    (hstate : event.toState = governanceStateForDraftStatus draft.status)
    (hspent : Spent draft event.idempotencyKey) : Records draft ledger ledger' := by
  refine ⟨?_, ?_, ?_⟩
  · rw [h.ledgerState_eq, if_pos hdraft, hstate]
  · intro id hne
    rw [h.ledgerState_eq, if_neg (by rw [hdraft]; exact hne.symm)]
  · intro e he
    rw [h.ledger_eq, List.mem_append, List.mem_singleton] at he
    rcases he with he | rfl
    · exact .inl he
    · exact .inr ⟨h.draft_eq.trans hdraft, h.key_eq ▸ hspent⟩

theorem Records.of_append_append {firstId secondId : Uuid} {first second : DraftEvent}
    {middle : Table GovernanceLedgerEvent} {row' : GovernanceLedgerEvent}
    (h : Appends ledger firstId first row middle) (h' : Appends middle secondId second row' ledger')
    (hdraft : first.draftId = draft.id) (hdraft' : second.draftId = draft.id)
    (hstate : second.toState = governanceStateForDraftStatus draft.status)
    (hspent : Spent draft first.idempotencyKey) (hspent' : Spent draft second.idempotencyKey) :
    Records draft ledger ledger' := by
  have hlast := Records.of_append h' hdraft' hstate hspent'
  refine ⟨hlast.follows, ?_, ?_⟩
  · intro id hne
    rw [hlast.others id hne, h.ledgerState_eq, if_neg (by rw [hdraft]; exact hne.symm)]
  · intro e he
    rcases hlast.added e he with he | he
    · rw [h.ledger_eq, List.mem_append, List.mem_singleton] at he
      rcases he with he | rfl
      · exact .inl he
      · exact .inr ⟨h.draft_eq.trans hdraft, h.key_eq ▸ hspent⟩
    · exact .inr he

/-- Every draft of the first table is in the second, evolved. -/
def Keeps (drafts drafts' : Table WikiPageDraft) : Prop :=
  ∀ id draft, drafts.get id = some draft → ∃ draft', drafts'.get id = some draft' ∧
    Evolves draft draft'

theorem Keeps.refl (drafts : Table WikiPageDraft) : Keeps drafts drafts :=
  fun _ draft h => ⟨draft, h, .refl draft⟩

theorem Keeps.trans {third : Table WikiPageDraft} (h : Keeps drafts drafts')
    (h' : Keeps drafts' third) : Keeps drafts third := by
  intro id draft hget
  obtain ⟨middle, hmiddle, hevolves⟩ := h id draft hget
  obtain ⟨last, hlast, hevolves'⟩ := h' id middle hmiddle
  exact ⟨last, hlast, hevolves.trans hevolves'⟩

theorem get_put_row (hget : drafts.get draft.id = some draft) (hid : draft'.id = draft.id)
    (id : Uuid) : (drafts.put draft').get id = if draft.id = id then some draft' else drafts.get id := by
  rw [Table.get_put]
  change (if draft'.id = id then _ else _) = _
  rw [hid]
  split
  · rename_i heq
    rw [← heq, hget, Option.map_some]
  · rfl

theorem Keeps.put (hget : drafts.get draft.id = some draft) (h : Evolves draft draft') :
    Keeps drafts (drafts.put draft') := by
  intro id before hbefore
  rw [get_put_row hget h.id_eq]
  split
  · rename_i heq
    rw [← heq, hget] at hbefore
    cases hbefore
    exact ⟨draft', rfl, h⟩
  · exact ⟨before, hbefore, .refl before⟩

/-- One draft evolves and its ledger records where to. -/
theorem Agreement.put (h : Agreement drafts ledger) (hget : drafts.get draft.id = some draft)
    (he : Evolves draft draft') (hr : Records draft' ledger ledger') :
    Agreement (drafts.put draft') ledger' := by
  have hid := he.id_eq
  refine ⟨h.keyed.put draft', ?_, ?_, ?_⟩
  · intro id d hd
    rw [get_put_row hget hid] at hd
    split at hd
    · rename_i heq
      cases hd
      rw [← heq, ← hid]
      exact hr.follows
    · rename_i hne
      rw [hr.others id (by rw [hid]; exact Ne.symm hne)]
      exact h.follows id d hd
  · intro e hevent
    rcases hr.added e hevent with hold | ⟨hdraft, hspent⟩
    · obtain ⟨d, hd, hspent⟩ := h.spent e hold
      obtain ⟨d', hd', hevolves⟩ := Keeps.put hget he e.draftId d hd
      exact ⟨d', hd', hspent.evolve hevolves⟩
    · refine ⟨draft', ?_, hspent⟩
      rw [get_put_row hget hid, if_pos (by rw [hdraft, hid])]
  · intro id d hd
    rw [get_put_row hget hid] at hd
    split at hd
    · cases hd
      exact (h.positive draft.id draft hget).trans he.version_le
    · exact h.positive id d hd

/-- A new draft with its first events. -/
theorem Agreement.create (h : Agreement drafts ledger) (hnew : drafts.get draft.id = none)
    (hpositive : 1 ≤ draft.version) (hr : Records draft ledger ledger') :
    Agreement (drafts ++ [draft]) ledger' := by
  have hget : ∀ id, Table.get (drafts ++ [draft]) id =
      if draft.id = id then some draft else drafts.get id := by
    intro id
    rw [Table.get_append]
    change (drafts.get id).or (if draft.id = id then some draft else none) = _
    split
    · rename_i heq
      rw [← heq, hnew, Option.none_or]
    · rw [Option.or_none]
  refine ⟨h.keyed.append hnew, ?_, ?_, ?_⟩
  · intro id d hd
    rw [hget] at hd
    split at hd
    · rename_i heq
      cases hd
      exact heq ▸ hr.follows
    · rename_i hne
      rw [hr.others id (Ne.symm hne)]
      exact h.follows id d hd
  · intro e hevent
    rcases hr.added e hevent with hold | ⟨hdraft, hspent⟩
    · obtain ⟨d, hd, hspent⟩ := h.spent e hold
      have hne : draft.id ≠ e.draftId := by
        intro heq
        rw [← heq, hnew] at hd
        cases hd
      exact ⟨d, by rw [hget, if_neg hne]; exact hd, hspent⟩
    · exact ⟨draft, by rw [hget, if_pos hdraft.symm], hspent⟩
  · intro id d hd
    rw [hget] at hd
    split at hd
    · cases hd
      exact hpositive
    · exact h.positive id d hd

theorem Keeps.create (drafts : Table WikiPageDraft) (draft : WikiPageDraft) :
    Keeps drafts (drafts ++ [draft]) := by
  intro id d hd
  refine ⟨d, ?_, .refl d⟩
  rw [Table.get_append, hd, Option.some_or]

/-- What an accepted operation does to the drafts and the ledger. -/
structure Advances (drafts : Table WikiPageDraft) (drafts' : Table WikiPageDraft)
    (ledger' : Table GovernanceLedgerEvent) : Prop where
  agreement : Agreement drafts' ledger'
  keeps : Keeps drafts drafts'

theorem Advances.refl (h : Agreement drafts ledger) : Advances drafts drafts ledger :=
  ⟨h, .refl drafts⟩

theorem Advances.put (h : Agreement drafts ledger) (hget : drafts.get draft.id = some draft)
    (he : Evolves draft draft') (hr : Records draft' ledger ledger') :
    Advances drafts (drafts.put draft') ledger' :=
  ⟨h.put hget he hr, .put hget he⟩

/-- The transition every governed operation makes: an event under a fresh key moves the draft to
the state its new row names. -/
theorem Advances.append {eventId : Uuid} {event : DraftEvent} (h : Agreement drafts ledger)
    (hget : drafts.get draft.id = some draft)
    (happend : appendDraftEvent ledger eventId event = .ok (row, ledger'))
    (he : Evolves draft draft') (hdraft : event.draftId = draft.id)
    (hnames : keyDraft event.idempotencyKey = some draft.id)
    (hfresh : ¬ Spent draft event.idempotencyKey) (hspent : Spent draft' event.idempotencyKey)
    (hstate : event.toState = governanceStateForDraftStatus draft'.status) :
    Advances drafts (drafts.put draft') ledger' := by
  have happends := appendDraftEvent_fresh happend (h.keyFree hget hnames hfresh)
  exact .put h hget he (.of_append happends (hdraft.trans he.id_eq.symm) hstate hspent)

end Cygnus.Review
