import Cygnus.Deletion.Protocol

namespace Cygnus.Deletion

open Wiki Dispatch Result Machine

theorem sourceStoragePrefix_injective : Function.Injective sourceStoragePrefix := by
  intro a b h
  have hlist := congrArg String.toList h
  simp only [sourceStoragePrefix, String.toList_append, List.append_assoc,
    List.append_cancel_left_eq, List.append_cancel_right_eq] at hlist
  exact Uuid.text_injective (String.toList_inj.mp hlist)

section Invariant

/-- The intent belongs to one source: it names the source while the source is there, and a
completed intent names none. -/
def SourceDeletion.Intended (world : World) (row : SourceDeletion) (sourceId : Uuid) : Prop :=
  row.storagePrefix = sourceStoragePrefix sourceId ∧ .intended sourceId ∈ world.history ∧
    (row.sourceId = some sourceId ∧ row.status ≠ .completed ∨
      row.sourceId = none ∧ world.sources.get sourceId = none)

/-- An intent that is about to be inserted is the first of a locked source, unless the source is
gone and the insert will be refused. -/
def Request.Inserts (world : World) (request : Request) (row : SourceDeletion) : Prop :=
  row.sourceId = some request.source.id ∧
    row.storagePrefix = sourceStoragePrefix request.source.id ∧ row.status = .pending ∧
    (world.sources.get request.source.id = none ∨
      request.locks request.source.id ∧
        ∀ other ∈ world.deletions, other.sourceId ≠ some request.source.id)

structure Request.Tracks (world : World) (request : Request) : Prop where
  tombstoned : request.source.deleteRequestedAt.isSome →
    ∀ source, world.sources.get request.source.id = some source → source.deleteRequestedAt.isSome
  present : request.locks request.source.id → (world.sources.get request.source.id).isSome
  inserts : ∀ planned, request.planned = some planned → ∀ row, planned.intent = .insert row →
    request.Inserts world row
  keeps : ∀ planned, request.planned = some planned → (∀ row, planned.intent ≠ .insert row) →
    request.locks request.source.id → ∃ row ∈ world.deletions, row.sourceId = some request.source.id

structure DeletionRun.Tracks (world : World) (run : DeletionRun) : Prop where
  row : ∃ row, world.deletions.get run.rowId = some row ∧ row.storagePrefix = run.storagePrefix
  cleaned : run.phase = .cleaned → ∃ sourceId, run.storagePrefix = sourceStoragePrefix sourceId ∧
    List.Sublist [.intended sourceId, .cleaned run.storagePrefix] world.history

structure Sound (world : World) : Prop where
  sources : world.sources.Keyed
  keyed : world.deletions.Keyed
  single : (world.deletions.map (·.storagePrefix)).Nodup
  intended : ∀ row ∈ world.deletions, ∃ sourceId, row.Intended world sourceId
  tombstoned : ∀ source ∈ world.sources, source.deleteRequestedAt.isSome →
    ∃ row ∈ world.deletions, row.sourceId = some source.id
  requestsKeyed : world.requests.Keyed
  requests : ∀ request ∈ world.requests, request.Tracks world
  locks : ∀ request ∈ world.requests, ∀ other ∈ world.requests, ∀ sourceId,
    request.locks sourceId → other.locks sourceId → request = other
  runsKeyed : world.runs.Keyed
  runs : ∀ run ∈ world.runs, run.Tracks world

end Invariant

section Changes

variable {world : World}

theorem Sound.congr {world' : World} (h : Sound world) (hsources : world'.sources = world.sources)
    (hdeletions : world'.deletions = world.deletions) (hrequests : world'.requests = world.requests)
    (hruns : world'.runs = world.runs) (hhistory : world'.history = world.history) :
    Sound world' := by
  cases world
  cases world'
  simp only at hsources hdeletions hrequests hruns hhistory
  subst hsources hdeletions hrequests hruns hhistory
  exact ⟨h.sources, h.keyed, h.single, h.intended, h.tombstoned, h.requestsKeyed,
    fun request hmem => ⟨(h.requests request hmem).tombstoned, (h.requests request hmem).present,
      (h.requests request hmem).inserts, (h.requests request hmem).keeps⟩,
    h.locks, h.runsKeyed, fun run hmem => ⟨(h.runs run hmem).row, (h.runs run hmem).cleaned⟩⟩

theorem Sound.note (h : Sound world) (events : List Event) :
    Sound { world with history := world.history ++ events } where
  sources := h.sources
  keyed := h.keyed
  single := h.single
  intended row hmem := by
    obtain ⟨sourceId, hstored, hevent, hstate⟩ := h.intended row hmem
    exact ⟨sourceId, hstored, List.mem_append_left _ hevent, hstate⟩
  tombstoned := h.tombstoned
  requestsKeyed := h.requestsKeyed
  requests request hmem :=
    have tracks := h.requests request hmem
    ⟨tracks.tombstoned, tracks.present, tracks.inserts, tracks.keeps⟩
  locks := h.locks
  runsKeyed := h.runsKeyed
  runs run hmem := by
    refine ⟨(h.runs run hmem).row, ?_⟩
    intro hphase
    obtain ⟨sourceId, hstored, hevents⟩ := (h.runs run hmem).cleaned hphase
    exact ⟨sourceId, hstored, hevents.trans (List.sublist_append_left _ _)⟩

theorem Sound.setRuns (h : Sound world) {runs : Table DeletionRun} (hkeyed : runs.Keyed)
    (hruns : ∀ run ∈ runs, run.Tracks world) : Sound { world with runs := runs } where
  sources := h.sources
  keyed := h.keyed
  single := h.single
  intended := h.intended
  tombstoned := h.tombstoned
  requestsKeyed := h.requestsKeyed
  requests request hmem :=
    have tracks := h.requests request hmem
    ⟨tracks.tombstoned, tracks.present, tracks.inserts, tracks.keeps⟩
  locks := h.locks
  runsKeyed := hkeyed
  runs run hmem := ⟨(hruns run hmem).row, (hruns run hmem).cleaned⟩

theorem Sound.dropRuns (h : Sound world) (p : DeletionRun → Bool) :
    Sound { world with runs := world.runs.filter p } :=
  h.setRuns (h.runsKeyed.filter p) fun run hmem => h.runs run (List.mem_of_mem_filter hmem)

theorem Sound.finish (h : Sound world) (run : DeletionRun) : Sound (world.finish run) :=
  h.dropRuns _

theorem Sound.setPhase (h : Sound world) {run : DeletionRun} (hrun : run ∈ world.runs)
    {phase : Phase} (hphase : phase = .cleaned → ∃ sourceId,
      run.storagePrefix = sourceStoragePrefix sourceId ∧
        List.Sublist [.intended sourceId, .cleaned run.storagePrefix] world.history) :
    Sound { world with runs := world.runs.put { run with phase := phase } } := by
  apply h.setRuns (h.runsKeyed.put _)
  intro other hmem
  rcases Table.mem_put hmem with rfl | ⟨hother, _⟩
  · exact ⟨(h.runs run hrun).row, hphase⟩
  · exact h.runs other hother

theorem Sound.setRequests (h : Sound world) {requests : Table Request} (hkeyed : requests.Keyed)
    (htracks : ∀ request ∈ requests, request.Tracks world)
    (hlocks : ∀ request ∈ requests, ∀ other ∈ requests, ∀ sourceId,
      request.locks sourceId → other.locks sourceId → request = other) :
    Sound { world with requests := requests } where
  sources := h.sources
  keyed := h.keyed
  single := h.single
  intended := h.intended
  tombstoned := h.tombstoned
  requestsKeyed := hkeyed
  requests request hmem :=
    have tracks := htracks request hmem
    ⟨tracks.tombstoned, tracks.present, tracks.inserts, tracks.keeps⟩
  locks := hlocks
  runsKeyed := h.runsKeyed
  runs run hmem := ⟨(h.runs run hmem).row, (h.runs run hmem).cleaned⟩

theorem Sound.dropRequests (h : Sound world) (p : Request → Bool) :
    Sound { world with requests := world.requests.filter p } := by
  apply h.setRequests (h.requestsKeyed.filter p)
  · intro request hmem
    exact h.requests request (List.mem_of_mem_filter hmem)
  · intro request hmem other hother
    exact h.locks request (List.mem_of_mem_filter hmem) other (List.mem_of_mem_filter hother)

/-- What a write may do to an intent that is not completed. -/
structure Advance (world : World) (row row' : SourceDeletion) : Prop where
  key : row'.id = row.id
  storagePrefix : row'.storagePrefix = row.storagePrefix
  source : row'.sourceId = row.sourceId ∨
    row'.sourceId = none ∧ ∀ sourceId, row.sourceId = some sourceId →
      world.sources.get sourceId = none
  running : row'.sourceId.isSome → row'.status ≠ .completed

theorem Advance.intended {row row' : SourceDeletion} {sourceId : Uuid} (h : Advance world row row')
    (hrow : row.Intended world sourceId) : row'.Intended world sourceId := by
  obtain ⟨hstored, hevent, hstate⟩ := hrow
  refine ⟨h.storagePrefix.trans hstored, hevent, ?_⟩
  rcases h.source with hsame | ⟨hnone, hgone⟩
  · rcases hstate with ⟨hsome, _⟩ | ⟨hnone, hgone⟩
    · have hid : row'.sourceId = some sourceId := hsame.trans hsome
      exact .inl ⟨hid, h.running (by simp [hid])⟩
    · exact .inr ⟨hsame.trans hnone, hgone⟩
  · rcases hstate with ⟨hsome, _⟩ | ⟨_, habsent⟩
    · exact .inr ⟨hnone, hgone sourceId hsome⟩
    · exact .inr ⟨hnone, habsent⟩

/-- An intent that names a source which is there still names it after the write. -/
theorem Advance.covers {row row' : SourceDeletion} {sourceId : Uuid} (h : Advance world row row')
    (hget : world.deletions.get row.id = some row) (hkeyed : world.deletions.Keyed)
    (hpresent : (world.sources.get sourceId).isSome)
    (hcovered : ∃ other ∈ world.deletions, other.sourceId = some sourceId) :
    ∃ other ∈ world.deletions.put row', other.sourceId = some sourceId := by
  obtain ⟨other, hmem, hother⟩ := hcovered
  by_cases hid : other.id = row.id
  · obtain rfl : other = row := hkeyed.eq_of_key hmem (Table.get_mem hget) hid
    have hkey : world.deletions.get (Row.key row') = some other := by
      rw [show Row.key row' = other.id from h.key]
      exact hget
    refine ⟨row', Table.mem_put_self hkey, ?_⟩
    rcases h.source with hsame | ⟨_, hgone⟩
    · exact hsame.trans hother
    · rw [hgone sourceId hother] at hpresent
      cases hpresent
  · refine ⟨other, Table.mem_put_of_ne hmem ?_, hother⟩
    intro hkey
    exact hid (hkey.trans h.key)

theorem Sound.put (h : Sound world) {row row' : SourceDeletion}
    (hget : world.deletions.get row.id = some row) (hadvance : Advance world row row') :
    Sound { world with deletions := world.deletions.put row' } where
  sources := h.sources
  keyed := h.keyed.put _
  single := by
    have hkey : world.deletions.get (Row.key row') = some row := by
      rw [show Row.key row' = row.id from hadvance.key]
      exact hget
    rw [Table.map_put h.keyed hkey hadvance.storagePrefix]
    exact h.single
  intended other hmem := by
    rcases Table.mem_put hmem with rfl | ⟨hother, _⟩
    · obtain ⟨sourceId, hrow⟩ := h.intended row (Table.get_mem hget)
      exact ⟨sourceId, hadvance.intended hrow⟩
    · exact h.intended other hother
  tombstoned source hmem htombstone := by
    apply hadvance.covers hget h.keyed _ (h.tombstoned source hmem htombstone)
    have hsource : world.sources.get source.id = some source := h.sources.get_of_mem hmem
    simp [hsource]
  requestsKeyed := h.requestsKeyed
  requests request hmem := by
    have tracks := h.requests request hmem
    refine ⟨tracks.tombstoned, tracks.present, ?_, ?_⟩
    · intro planned hplanned new hnew
      obtain ⟨hid, hstored, hpending, hfree⟩ := tracks.inserts planned hplanned new hnew
      refine ⟨hid, hstored, hpending, ?_⟩
      rcases hfree with hgone | ⟨hlocks, hfree⟩
      · exact .inl hgone
      · refine .inr ⟨hlocks, ?_⟩
        intro other hother
        rcases Table.mem_put hother with rfl | ⟨hother, _⟩
        · rcases hadvance.source with hsame | ⟨hnone, _⟩
          · rw [hsame]
            exact hfree row (Table.get_mem hget)
          · rw [hnone]
            simp
        · exact hfree other hother
    · intro planned hplanned hkeep hlocks
      exact hadvance.covers hget h.keyed (tracks.present hlocks)
        (tracks.keeps planned hplanned hkeep hlocks)
  locks := h.locks
  runsKeyed := h.runsKeyed
  runs run hmem := by
    refine ⟨?_, (h.runs run hmem).cleaned⟩
    obtain ⟨claimed, hclaimed, hstored⟩ := (h.runs run hmem).row
    rw [Table.get_put]
    split
    · rename_i hid
      refine ⟨row', by rw [hclaimed]; rfl, ?_⟩
      rw [← hid, show Row.key row' = row.id from hadvance.key, hget] at hclaimed
      cases hclaimed
      exact hadvance.storagePrefix.trans hstored
    · exact ⟨claimed, hclaimed, hstored⟩

theorem get_tombstone (sources : Table Source) (loaded : Source) (now : Timestamp) (i : Uuid) :
    (tombstone sources loaded now).get i = (sources.get i).map fun row =>
      if row.id = loaded.id && loaded.deleteRequestedAt.isNone then
        { row with deleteRequestedAt := some now }
      else row := by
  apply Table.get_map
  intro row
  split <;> rfl

theorem isSome_get_tombstone {sources : Table Source} {loaded : Source} {now : Timestamp}
    {i : Uuid} : ((tombstone sources loaded now).get i).isSome = (sources.get i).isSome := by
  rw [get_tombstone, Option.isSome_map]

/-- A tombstone is only ever set. -/
theorem get_tombstone_isSome {sources : Table Source} {loaded source : Source} {now : Timestamp}
    {i : Uuid} (hget : (tombstone sources loaded now).get i = some source)
    (hold : ∀ old, sources.get i = some old → old.deleteRequestedAt.isSome) :
    source.deleteRequestedAt.isSome := by
  rw [get_tombstone, Option.map_eq_some_iff] at hget
  obtain ⟨old, hfound, rfl⟩ := hget
  split
  · rfl
  · exact hold old hfound

theorem Sound.tombstone (h : Sound world) {loaded : Source} {now : Timestamp}
    (hcovered : loaded.deleteRequestedAt.isNone → (world.sources.get loaded.id).isSome →
      ∃ row ∈ world.deletions, row.sourceId = some loaded.id) :
    Sound { world with sources := tombstone world.sources loaded now } where
  sources := by
    apply h.sources.map
    intro row
    split <;> rfl
  keyed := h.keyed
  single := h.single
  intended row hmem := by
    obtain ⟨sourceId, hstored, hevent, hstate⟩ := h.intended row hmem
    refine ⟨sourceId, hstored, hevent, hstate.imp_right ?_⟩
    rintro ⟨hnone, hgone⟩
    refine ⟨hnone, ?_⟩
    rw [get_tombstone, hgone]
    rfl
  tombstoned source hmem htombstone := by
    obtain ⟨old, hold, heq⟩ := List.mem_map.mp hmem
    have hget : world.sources.get old.id = some old := h.sources.get_of_mem hold
    split at heq
    · rename_i hloaded
      simp only [Bool.and_eq_true, decide_eq_true_eq] at hloaded
      subst heq
      rw [hloaded.1]
      exact hcovered hloaded.2 (by rw [← hloaded.1, hget]; rfl)
    · subst heq
      exact h.tombstoned old hold htombstone
  requestsKeyed := h.requestsKeyed
  requests request hmem := by
    have tracks := h.requests request hmem
    refine ⟨?_, ?_, ?_, tracks.keeps⟩
    · intro htombstone source hget
      exact get_tombstone_isSome hget (tracks.tombstoned htombstone)
    · intro hlocks
      rw [isSome_get_tombstone]
      exact tracks.present hlocks
    · intro planned hplanned row hrow
      obtain ⟨hid, hstored, hpending, hfree⟩ := tracks.inserts planned hplanned row hrow
      refine ⟨hid, hstored, hpending, hfree.imp_left ?_⟩
      intro hgone
      rw [get_tombstone, hgone]
      rfl
  locks := h.locks
  runsKeyed := h.runsKeyed
  runs run hmem := ⟨(h.runs run hmem).row, (h.runs run hmem).cleaned⟩

theorem Sound.insert (h : Sound world) {row : SourceDeletion} {sourceId : Uuid}
    (hfresh : world.deletions.get row.id = none) (hid : row.sourceId = some sourceId)
    (hstored : row.storagePrefix = sourceStoragePrefix sourceId) (hpending : row.status = .pending)
    (hevent : .intended sourceId ∈ world.history)
    (hpresent : (world.sources.get sourceId).isSome)
    (hfirst : ∀ other ∈ world.deletions, other.sourceId ≠ some sourceId)
    (hunlocked : ∀ request ∈ world.requests, request.locks sourceId = false) :
    Sound { world with deletions := world.deletions ++ [row] } where
  sources := h.sources
  keyed := h.keyed.append hfresh
  single := by
    rw [List.map_append, List.nodup_append]
    refine ⟨h.single, by simp, ?_⟩
    intro text htext text' htext' heq
    obtain ⟨other, hother, rfl⟩ := List.mem_map.mp htext
    simp only [List.map_cons, List.map_nil, List.mem_singleton] at htext'
    obtain ⟨owner, howner, _, hstate⟩ := h.intended other hother
    -- a row with this prefix is an intent of the same source
    have hsame : owner = sourceId := by
      apply sourceStoragePrefix_injective
      rw [← howner, heq, htext', hstored]
    subst hsame
    rcases hstate with ⟨hsome, _⟩ | ⟨_, hgone⟩
    · exact hfirst other hother hsome
    · rw [hgone] at hpresent
      cases hpresent
  intended other hmem := by
    rcases List.mem_append.mp hmem with hother | hnew
    · exact h.intended other hother
    · rw [List.mem_singleton] at hnew
      subst hnew
      exact ⟨sourceId, hstored, hevent, .inl ⟨hid, by rw [hpending]; decide⟩⟩
  tombstoned source hmem htombstone := by
    obtain ⟨other, hother, hsource⟩ := h.tombstoned source hmem htombstone
    exact ⟨other, List.mem_append_left _ hother, hsource⟩
  requestsKeyed := h.requestsKeyed
  requests request hmem := by
    have tracks := h.requests request hmem
    refine ⟨tracks.tombstoned, tracks.present, ?_, ?_⟩
    · intro planned hplanned new hnew
      obtain ⟨hnewId, hnewPrefix, hnewPending, hfree⟩ := tracks.inserts planned hplanned new hnew
      refine ⟨hnewId, hnewPrefix, hnewPending, hfree.imp_right ?_⟩
      rintro ⟨hlocks, hfree⟩
      refine ⟨hlocks, ?_⟩
      intro other hother
      rcases List.mem_append.mp hother with hother | hnew
      · exact hfree other hother
      · rw [List.mem_singleton] at hnew
        subst hnew
        intro heq
        rw [hid, Option.some.injEq] at heq
        rw [← heq, hunlocked request hmem] at hlocks
        cases hlocks
    · intro planned hplanned hkeep hlocks
      obtain ⟨other, hother, hsource⟩ := tracks.keeps planned hplanned hkeep hlocks
      exact ⟨other, List.mem_append_left _ hother, hsource⟩
  locks := h.locks
  runsKeyed := h.runsKeyed
  runs run hmem := by
    refine ⟨?_, (h.runs run hmem).cleaned⟩
    obtain ⟨claimed, hclaimed, hrun⟩ := (h.runs run hmem).row
    exact ⟨claimed, Table.get_append_of_some hclaimed, hrun⟩

theorem get_unlinkSource (deletions : Table SourceDeletion) (sourceId i : Uuid) :
    (unlinkSource deletions sourceId).get i = (deletions.get i).map fun row =>
      if row.sourceId = some sourceId then { row with sourceId := none } else row := by
  apply Table.get_map
  intro row
  split <;> rfl

theorem mem_unlinkSource_of_ne {deletions : Table SourceDeletion} {sourceId : Uuid}
    {row : SourceDeletion} (hmem : row ∈ deletions) (hne : row.sourceId ≠ some sourceId) :
    row ∈ unlinkSource deletions sourceId :=
  List.mem_map.mpr ⟨row, hmem, if_neg hne⟩

/-- The removal of a source row with its cascade, while no request locks it. -/
theorem Sound.unlink (h : Sound world) {sourceId : Uuid}
    (hunlocked : ∀ request ∈ world.requests, request.locks sourceId = false) :
    Sound { world with
      sources := world.sources.filter (·.id ≠ sourceId),
      deletions := unlinkSource world.deletions sourceId } := by
  have hget (i : Uuid) : Table.get (world.sources.filter (·.id ≠ sourceId)) i =
      if sourceId = i then none else world.sources.get i :=
    Table.get_filter_ne world.sources sourceId i
  have hgone {i : Uuid} (hnone : world.sources.get i = none) :
      Table.get (world.sources.filter (·.id ≠ sourceId)) i = none := by
    rw [hget, hnone, ite_self]
  have hother {request : Request} (hmem : request ∈ world.requests)
      (hlocks : request.locks request.source.id) : sourceId ≠ request.source.id := by
    rintro rfl
    rw [hunlocked request hmem] at hlocks
    cases hlocks
  have hcovers {i : Uuid} (hne : sourceId ≠ i)
      (hcovered : ∃ row ∈ world.deletions, row.sourceId = some i) :
      ∃ row ∈ unlinkSource world.deletions sourceId, row.sourceId = some i := by
    obtain ⟨row, hmem, hrow⟩ := hcovered
    refine ⟨row, mem_unlinkSource_of_ne hmem ?_, hrow⟩
    rw [hrow, ne_eq, Option.some.injEq]
    exact hne.symm
  constructor
  case sources => exact h.sources.filter _
  case keyed =>
    apply h.keyed.map
    intro row
    split <;> rfl
  case single =>
    have hprefixes : (unlinkSource world.deletions sourceId).map (·.storagePrefix) =
        world.deletions.map (·.storagePrefix) := by
      rw [unlinkSource, List.map_map]
      apply List.map_congr_left
      intro row _
      rw [Function.comp_apply]
      split <;> rfl
    rw [hprefixes]
    exact h.single
  case intended =>
    intro row hmem
    obtain ⟨old, hold, rfl⟩ := List.mem_map.mp hmem
    obtain ⟨owner, hstored, hevent, hstate⟩ := h.intended old hold
    split
    · rename_i hlinked
      refine ⟨owner, hstored, hevent, .inr ⟨rfl, ?_⟩⟩
      rcases hstate with ⟨hsome, _⟩ | ⟨_, hnone⟩
      · rw [hlinked, Option.some.injEq] at hsome
        rw [hget, if_pos hsome]
      · exact hgone hnone
    · exact ⟨owner, hstored, hevent, hstate.imp_right fun hstate => ⟨hstate.1, hgone hstate.2⟩⟩
  case tombstoned =>
    intro source hmem htombstone
    rw [List.mem_filter, decide_eq_true_eq] at hmem
    exact hcovers hmem.2.symm (h.tombstoned source hmem.1 htombstone)
  case requestsKeyed => exact h.requestsKeyed
  case requests =>
    intro request hmem
    have tracks := h.requests request hmem
    refine ⟨?_, ?_, ?_, ?_⟩
    · intro htombstone source hsource
      rw [hget] at hsource
      split at hsource
      · cases hsource
      · exact tracks.tombstoned htombstone source hsource
    · intro hlocks
      rw [hget, if_neg (hother hmem hlocks)]
      exact tracks.present hlocks
    · intro planned hplanned new hnew
      obtain ⟨hid, hstored, hpending, hfree⟩ := tracks.inserts planned hplanned new hnew
      refine ⟨hid, hstored, hpending, hfree.imp hgone ?_⟩
      rintro ⟨hlocks, hfree⟩
      refine ⟨hlocks, ?_⟩
      intro row hrow
      obtain ⟨old, hold, rfl⟩ := List.mem_map.mp hrow
      split
      · simp
      · exact hfree old hold
    · intro planned hplanned hkeep hlocks
      exact hcovers (hother hmem hlocks) (tracks.keeps planned hplanned hkeep hlocks)
  case locks => exact h.locks
  case runsKeyed => exact h.runsKeyed
  case runs =>
    intro run hmem
    refine ⟨?_, (h.runs run hmem).cleaned⟩
    obtain ⟨row, hrow, hstored⟩ := (h.runs run hmem).row
    rw [get_unlinkSource, hrow]
    refine ⟨_, rfl, ?_⟩
    dsimp only
    split <;> exact hstored

end Changes

section Requests

variable {world : World}

theorem flushTombstone_ok {request : Request} (h : flushTombstone world request = .ok ()) :
    request.source.deleteRequestedAt.isSome ∨
      (∀ other ∈ world.requests, other.locks request.source.id = false) ∧
        (world.sources.get request.source.id).isSome := by
  unfold flushTombstone at h
  split at h
  · rename_i htombstone
    exact .inl htombstone
  · split at h
    · cases h
    · rename_i hunlocked
      split at h
      · cases h
      · rename_i hpresent
        refine .inr ⟨?_, by simpa [Option.isSome_iff_ne_none] using hpresent⟩
        intro other hmem
        rw [Bool.eq_false_iff]
        intro hlocks
        exact hunlocked ⟨other, hmem, hlocks⟩

theorem readIntent_ok {deletions : Table SourceDeletion} {sourceId : Uuid} {new : SourceDeletion}
    {intent : IntentWrite} (h : readIntent deletions sourceId new = .ok intent) :
    intent = .insert new ∧ (∀ row ∈ deletions, row.sourceId ≠ some sourceId) ∨
      (∀ row, intent ≠ .insert row) ∧ ∃ row ∈ deletions, row.sourceId = some sourceId := by
  unfold readIntent at h
  split at h
  · rename_i hnone
    simp only [Except.ok.injEq] at h
    rw [List.filter_eq_nil_iff] at hnone
    exact .inl ⟨h.symm, fun row hmem heq => hnone row hmem (by simpa using heq)⟩
  · rename_i row hone
    have hmem : row ∈ deletions.filter fun row => row.sourceId = some sourceId := by
      rw [hone]
      exact List.mem_singleton_self row
    rw [List.mem_filter, decide_eq_true_eq] at hmem
    refine .inr ⟨?_, row, hmem⟩
    intro inserted heq
    split at h <;> simp [heq] at h
  · cases h

theorem Sound.load (h : Sound world) {requestId : Uuid} {source : Source}
    (hfresh : world.requests.get requestId = none)
    (hsource : world.sources.get source.id = some source) :
    Sound { world with requests := world.requests ++ [⟨requestId, source, none⟩] } := by
  have hmember {request : Request} (hmem : request ∈ world.requests ++ [⟨requestId, source, none⟩]) :
      request ∈ world.requests ∨ request = ⟨requestId, source, none⟩ := by
    rw [List.mem_append, List.mem_singleton] at hmem
    exact hmem
  apply h.setRequests (h.requestsKeyed.append hfresh)
  · intro request hmem
    rcases hmember hmem with hold | rfl
    · exact h.requests request hold
    · refine ⟨?_, ?_, ?_, ?_⟩
      · intro htombstone row hrow
        rw [hsource, Option.some.injEq] at hrow
        exact hrow ▸ htombstone
      · intro hlocks
        simp [Request.locks] at hlocks
      · intro planned hplanned
        cases hplanned
      · intro planned hplanned
        cases hplanned
  · intro request hmem other hother sourceId hlocks hotherLocks
    rcases hmember hmem with hold | rfl
    · rcases hmember hother with hotherOld | rfl
      · exact h.locks request hold other hotherOld sourceId hlocks hotherLocks
      · simp [Request.locks] at hotherLocks
    · simp [Request.locks] at hlocks

theorem Request.locks_iff {request : Request} {sourceId : Uuid} :
    request.locks sourceId ↔ request.planned.isSome ∧
      request.source.deleteRequestedAt.isNone ∧ request.source.id = sourceId := by
  simp [Request.locks, and_assoc]

theorem Sound.request (h : Sound world) {request request' : Request} {actorId : Option Uuid}
    {rowId : Uuid} {now : Timestamp} (hget : world.requests.get request.id = some request)
    (hok : requestSourceDeletion world request actorId rowId now = .ok request') :
    Sound { world with requests := world.requests.put request' } := by
  simp only [requestSourceDeletion, bind_ok, require_ok, pure_ok] at hok
  obtain ⟨_, _, _, hflush, intent, hread, rfl⟩ := hok
  have hold := h.requests request (Table.get_mem hget)
  have hflushed := flushTombstone_ok hflush
  have hread := readIntent_ok hread
  -- a request that locks is one that loaded no tombstone, so its flush found the row unlocked
  have hunlocked (htombstone : request.source.deleteRequestedAt.isNone) :
      (∀ other ∈ world.requests, other.locks request.source.id = false) ∧
        (world.sources.get request.source.id).isSome := by
    rcases hflushed with hsome | hunlocked
    · rw [Option.isNone_iff_eq_none] at htombstone
      rw [htombstone] at hsome
      cases hsome
    · exact hunlocked
  have hmember {other : Request} (hmem : other ∈ world.requests.put
      { request with planned := some ⟨now, fencedBy world.executions request.source.id, intent⟩ }) :
      other = { request with
        planned := some ⟨now, fencedBy world.executions request.source.id, intent⟩ } ∨
        other ∈ world.requests :=
    (Table.mem_put hmem).imp_right And.left
  apply h.setRequests (h.requestsKeyed.put _)
  · intro other hmem
    rcases hmember hmem with rfl | hother
    · refine ⟨hold.tombstoned, ?_, ?_, ?_⟩
      · intro hlocks
        exact (hunlocked (Request.locks_iff.mp hlocks).2.1).2
      · intro planned hplanned row hrow
        simp only [Option.some.injEq] at hplanned
        subst hplanned
        rcases hread with ⟨hnew, hnone⟩ | ⟨hkeep, _⟩
        · rw [hnew, IntentWrite.insert.injEq] at hrow
          subst hrow
          refine ⟨rfl, rfl, rfl, ?_⟩
          by_cases htombstone : request.source.deleteRequestedAt.isNone
          · exact .inr ⟨Request.locks_iff.mpr ⟨rfl, htombstone, rfl⟩, hnone⟩
          · left
            -- a tombstone that was loaded is still there, and comes with an intent
            cases hsource : world.sources.get request.source.id with
            | none => rfl
            | some source =>
              have hset : request.source.deleteRequestedAt.isSome := by
                simpa [Option.isSome_iff_ne_none] using htombstone
              obtain ⟨row, hmem, hrow⟩ :=
                h.tombstoned source (Table.get_mem hsource) (hold.tombstoned hset source hsource)
              have hid : source.id = request.source.id := Table.get_key hsource
              rw [hid] at hrow
              exact absurd hrow (hnone row hmem)
        · exact absurd hrow (hkeep row)
      · intro planned hplanned hkept _
        simp only [Option.some.injEq] at hplanned
        subst hplanned
        rcases hread with ⟨hnew, _⟩ | ⟨_, hrow⟩
        · exact absurd hnew (hkept _)
        · exact hrow
    · exact h.requests other hother
  · intro first hfirst second hsecond sourceId hlocks hother
    rcases hmember hfirst with rfl | hfirst
    · obtain ⟨_, htombstone, rfl⟩ := Request.locks_iff.mp hlocks
      rcases hmember hsecond with rfl | hsecond
      · rfl
      · rw [(hunlocked htombstone).1 second hsecond] at hother
        cases hother
    · rcases hmember hsecond with rfl | hsecond
      · obtain ⟨_, htombstone, rfl⟩ := Request.locks_iff.mp hother
        rw [(hunlocked htombstone).1 first hfirst] at hlocks
        cases hlocks
      · exact h.locks first hfirst second hsecond sourceId hlocks hother

end Requests

end Cygnus.Deletion
