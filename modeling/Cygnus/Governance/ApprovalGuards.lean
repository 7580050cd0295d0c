import Cygnus.Governance.Ledger
import Mathlib.Data.String.Basic

namespace Cygnus.Governance

open Wiki Text Result Sequence

variable (env : Platform)

def canonicalSha256 (payload : JsonObject) : String := env.sha256 (env.dumps (.object payload))

def approvalDigest (draft : WikiPageDraft) (page : WikiPage) (finalContent : String)
    (reviewerId : Option Uuid) (reviewedAt : Option Timestamp) (reviewerNote : Option String) :
    String :=
  canonicalSha256 env [
    ("draft_id", .str draft.id.text),
    ("draft_kind", .str draft.draftKind),
    ("draft_version", .int draft.version),
    ("base_version", jsonOfVersion draft.baseVersion),
    ("revision_round", .int draft.revisionRound),
    ("source", .str draft.source),
    ("page_id", .str page.id.text),
    ("page_version", .int page.version),
    ("page_slug", .str page.slug),
    ("content_sha256", .str (env.sha256 finalContent)),
    ("source_ids", .list ((sortedBy id (page.sourceIds.map Uuid.text)).map .str)),
    ("reviewer_id", .str (reviewerId.elim "None" Uuid.text)),
    ("reviewed_at", Json.ofOption (fun t => .str (env.isoformat t)) reviewedAt),
    ("reviewer_note", Json.ofOption .str reviewerNote)]

end Cygnus.Governance
