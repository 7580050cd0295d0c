import Cygnus.Deletion.ProtocolLaws

namespace Cygnus.Deletion

open Wiki Dispatch Result Machine

section Condition

/-- No sweep has taken up the intent since the request read it as failed. -/
def Request.undisturbed (world : World) (request : Request) : Bool :=
  match request.planned.map Planned.intent with
  | some (.retry read) =>
    (world.deletions.get read.id).all fun row => row.status = .failed || row.status = .pending
  | _ => true

/-- A commit that sets a failed intent back to pending still finds it failed, or set back already. -/
def Undisturbed (world : World) : Action → Prop
  | .commit requestId => (world.requests.get requestId).all (·.undisturbed world)
  | _ => True

instance (world : World) (action : Action) : Decidable (Undisturbed world action) :=
  match action with
  | .commit _ => inferInstanceAs (Decidable (_ = true))
  | .load .. | .request .. | .abort _ | .sweep .. | .attempt _ | .claim .. | .clean ..
  | .remove .. | .recordFailure .. | .crash _ => isTrue trivial

theorem Request.undisturbed_retry {world : World} {request : Request} {planned : Planned}
    {read row : SourceDeletion} (h : request.undisturbed world = true)
    (hplanned : request.planned = some planned) (hretry : planned.intent = .retry read)
    (hrow : world.deletions.get read.id = some row) :
    row.status = .failed ∨ row.status = .pending := by
  simpa [undisturbed, hplanned, hretry, hrow] using h

end Condition

section Steps

variable {world world' : World}

theorem retried_advance {read row : SourceDeletion} {now : Timestamp} :
    Advance world row (read.retried row now) := by
  refine ⟨rfl, rfl, .inl rfl, ?_⟩
  intro _
  simp [SourceDeletion.retried]

theorem claim_advance {row : SourceDeletion} {now : Timestamp} :
    Advance world row (row.claim now) := by
  refine ⟨rfl, rfl, .inl rfl, ?_⟩
  intro _
  simp [SourceDeletion.claim]

theorem fail_advance {row : SourceDeletion} {error : String} {now : Timestamp} :
    Advance world row (row.fail error now) := by
  refine ⟨rfl, rfl, .inl rfl, ?_⟩
  intro _
  simp [SourceDeletion.fail]

theorem close_advance {row : SourceDeletion} {now : Timestamp} (hnone : row.sourceId = none) :
    Advance world row (row.close now) := by
  refine ⟨rfl, rfl, .inl rfl, ?_⟩
  intro hsome
  simp [SourceDeletion.close, hnone] at hsome

theorem Sound.commit (h : Sound world) {request : Request}
    (hget : world.requests.get request.id = some request)
    (hok : commitRequest world request = .ok world') : Sound world' := by
  simp only [commitRequest, bind_ok, demand_ok, pure_ok] at hok
  obtain ⟨planned, hplanned, ⟨deletions, events⟩, hwrite, rfl⟩ := hok
  have hrequest := Table.get_mem hget
  have tracks := h.requests request hrequest
  have hnoted := (h.note events).dropRequests (·.id ≠ request.id)
  have hsome : request.planned.isSome := by rw [hplanned]; rfl
  -- the tombstone goes in once the intent is there
  suffices hintent : Sound { world with
      deletions := deletions, requests := world.requests.filter (·.id ≠ request.id),
      history := world.history ++ events } ∧
      (request.source.deleteRequestedAt.isNone → (world.sources.get request.source.id).isSome →
        ∃ row ∈ deletions, row.sourceId = some request.source.id) by
    apply (hintent.1.tombstone hintent.2).congr <;> rfl
  unfold writeIntent at hwrite
  split at hwrite
  · rename_i row hinsert
    obtain ⟨hid, hstored, hpending, hfree⟩ := tracks.inserts planned hplanned row hinsert
    simp only [bind_ok, demand_ok, require_ok, pure_ok, Prod.mk.injEq] at hwrite
    obtain ⟨sourceId, hsource, _, hpresent, table, htable, rfl, rfl⟩ := hwrite
    rw [hid, Option.some.injEq] at hsource
    subst hsource
    obtain ⟨hfresh, rfl⟩ := Table.insert_ok htable
    constructor
    · rcases hfree with hgone | ⟨hlocks, hfirst⟩
      · rw [hgone] at hpresent
        cases hpresent
      · refine hnoted.insert hfresh hid hstored hpending ?_ hpresent hfirst ?_
        · exact List.mem_append_right _ (List.mem_singleton_self _)
        · intro other hother
          rw [List.mem_filter, decide_eq_true_eq] at hother
          rw [Bool.eq_false_iff]
          intro hotherLocks
          apply hother.2
          rw [h.locks request hrequest other hother.1 _ hlocks hotherLocks]
    · intro _ _
      exact ⟨row, List.mem_append_right _ (List.mem_singleton_self _), hid⟩
  · rename_i hkeep
    simp only [pure_ok, Prod.mk.injEq] at hwrite
    obtain ⟨rfl, rfl⟩ := hwrite
    refine ⟨hnoted, ?_⟩
    intro htombstone _
    apply tracks.keeps planned hplanned (by simp [hkeep])
    exact Request.locks_iff.mpr ⟨hsome, htombstone, rfl⟩
  · rename_i read hretry
    simp only [bind_ok, demand_ok, pure_ok, Prod.mk.injEq] at hwrite
    obtain ⟨committed, hcommitted, rfl, rfl⟩ := hwrite
    have hid : read.id = committed.id := (Table.get_key hcommitted).symm
    rw [hid] at hcommitted
    constructor
    · exact hnoted.put hcommitted retried_advance
    · intro htombstone hpresent
      have hadvance : ∀ now, Advance world committed (read.retried committed now) :=
        fun _ => retried_advance
      apply (hadvance _).covers hcommitted h.keyed hpresent
      apply tracks.keeps planned hplanned (by simp [hretry])
      exact Request.locks_iff.mpr ⟨hsome, htombstone, rfl⟩

theorem Sound.claim (h : Sound world) {runId rowId : Uuid} {now : Timestamp}
    (hok : claimDeletion world runId rowId now = .ok world') : Sound world' := by
  simp only [claimDeletion, bind_ok, require_ok] at hok
  obtain ⟨_, _, hok⟩ := hok
  split at hok
  · rw [pure_ok] at hok
    subst hok
    exact h.congr rfl rfl rfl rfl rfl
  · rename_i row hget
    have hid : rowId = row.id := (Table.get_key hget).symm
    subst hid
    split at hok
    · rw [pure_ok] at hok
      subst hok
      exact h.congr rfl rfl rfl rfl rfl
    · split at hok
      · rename_i hnone
        rw [pure_ok] at hok
        subst hok
        rw [Option.isNone_iff_eq_none] at hnone
        exact (h.put hget (close_advance hnone)).congr rfl rfl rfl rfl rfl
      · simp only [bind_ok, pure_ok] at hok
        obtain ⟨runs, hruns, rfl⟩ := hok
        obtain ⟨hfresh, rfl⟩ := Table.insert_ok hruns
        have hadded : Sound { world with
            runs := world.runs ++ [⟨runId, row.id, row.storagePrefix, .claimed⟩] } := by
          apply h.setRuns (h.runsKeyed.append hfresh)
          intro run hmem
          rw [List.mem_append, List.mem_singleton] at hmem
          rcases hmem with hold | rfl
          · exact h.runs run hold
          · refine ⟨⟨row, hget, rfl⟩, ?_⟩
            intro hphase
            cases hphase
        exact ((hadded.put hget claim_advance).note [.claimed row.id]).congr rfl rfl rfl rfl rfl

theorem Sound.clean (h : Sound world) {run : DeletionRun} {reply : Option Raised}
    (hrun : run ∈ world.runs) (hok : cleanStorage world run reply = .ok world') : Sound world' := by
  simp only [cleanStorage, bind_ok, require_ok] at hok
  obtain ⟨_, _, hok⟩ := hok
  split at hok
  · rw [pure_ok] at hok
    subst hok
    apply h.setPhase hrun
    intro hphase
    cases hphase
  · rw [pure_ok] at hok
    subst hok
    -- the intent was committed before the run that cleans could claim it
    obtain ⟨row, hrow, hstored⟩ := (h.runs run hrun).row
    obtain ⟨sourceId, howner, hintended, _⟩ := h.intended row (Table.get_mem hrow)
    apply ((h.note [.cleaned run.storagePrefix]).setPhase hrun _).congr rfl rfl rfl rfl rfl
    intro _
    refine ⟨sourceId, hstored.symm.trans howner, ?_⟩
    exact (List.singleton_sublist.mpr hintended).append (List.Sublist.refl _)

theorem Sound.recordFailure (h : Sound world) (run : DeletionRun) (now : Timestamp)
    (error : SourceDeletion → String) : Sound (recordFailure world run now error) := by
  unfold Deletion.recordFailure
  split
  · exact h.finish run
  · rename_i row hget
    have hid : run.rowId = row.id := (Table.get_key hget).symm
    rw [hid] at hget
    split
    · exact h.finish run
    · exact (h.put hget fail_advance).finish run

theorem Sound.remove (h : Sound world) {run : DeletionRun} {reply : Option Raised}
    {now : Timestamp} (hrun : run ∈ world.runs)
    (hok : removeSourceRows world run reply now = .ok world') : Sound world' := by
  simp only [removeSourceRows, bind_ok, require_ok] at hok
  obtain ⟨_, _, hok⟩ := hok
  split at hok
  · rw [pure_ok] at hok
    exact hok ▸ h.finish run
  · rename_i row hget
    have hid : run.rowId = row.id := (Table.get_key hget).symm
    rw [hid] at hget
    split at hok
    · rw [pure_ok] at hok
      exact hok ▸ h.finish run
    · split at hok
      · rename_i hnone
        rw [pure_ok] at hok
        exact hok ▸ (h.put hget (close_advance hnone)).finish run
      · rename_i sourceId hlinked
        simp only [bind_ok, require_ok] at hok
        obtain ⟨_, hunlocked, hok⟩ := hok
        split at hok
        · rename_i hgone
          rw [pure_ok] at hok
          subst hok
          have hadvance : Advance world row
              { row with
                sourceId := none, status := .completed, completedAt := some now,
                updatedAt := now } := by
            refine ⟨rfl, rfl, .inr ⟨rfl, ?_⟩, ?_⟩
            · intro other hother
              rw [hlinked, Option.some.injEq] at hother
              exact hother ▸ hgone
            · intro hsome
              cases hsome
          exact (h.put hget hadvance).finish run
        · rename_i source hsource
          have hkey : source.id = sourceId := Table.get_key hsource
          subst hkey
          rw [pure_ok] at hok
          subst hok
          cases reply with
          | some raised =>
            apply h.setPhase hrun
            intro hphase
            cases hphase
          | none =>
            have hunlinked := h.unlink hunlocked
            have hrow : (unlinkSource world.deletions source.id).get row.id =
                some { row with sourceId := none } := by
              rw [get_unlinkSource, hget, Option.map_some, if_pos hlinked]
            have hadvance : Advance { world with
                sources := world.sources.filter (·.id ≠ source.id),
                deletions := unlinkSource world.deletions source.id }
                { row with sourceId := none } (row.complete now) := by
              refine ⟨rfl, rfl, .inl rfl, ?_⟩
              intro hsome
              cases hsome
            exact (((hunlinked.put hrow hadvance).note [.removed source.id]).finish run).congr
              rfl rfl rfl rfl rfl

theorem perform_sound {action : Action} (h : Sound world)
    (hok : perform action world = .ok world') : Sound world' := by
  cases action with
  | load requestId sourceId =>
    simp only [perform, bind_ok, demand_ok, pure_ok] at hok
    obtain ⟨source, hsource, requests, hrequests, rfl⟩ := hok
    obtain ⟨hfresh, rfl⟩ := Table.insert_ok hrequests
    apply h.load hfresh
    rw [show source.id = sourceId from Table.get_key hsource]
    exact hsource
  | request requestId actorId rowId now =>
    simp only [perform, bind_ok, demand_ok, pure_ok] at hok
    obtain ⟨request, hget, request', hrequest, rfl⟩ := hok
    rw [show requestId = request.id from (Table.get_key hget).symm] at hget
    exact h.request hget hrequest
  | commit requestId =>
    simp only [perform, bind_ok, demand_ok] at hok
    obtain ⟨request, hget, hcommit⟩ := hok
    rw [show requestId = request.id from (Table.get_key hget).symm] at hget
    exact h.commit hget hcommit
  | abort requestId =>
    simp only [perform, pure_ok] at hok
    exact hok ▸ h.dropRequests _
  | sweep limit now =>
    simp only [perform, bind_ok, require_ok, pure_ok] at hok
    obtain ⟨_, _, rfl⟩ := hok
    exact h.congr rfl rfl rfl rfl rfl
  | attempt rowId =>
    simp only [perform, pure_ok] at hok
    subst hok
    exact h.congr rfl rfl rfl rfl rfl
  | claim runId rowId now => exact h.claim hok
  | clean runId reply =>
    simp only [perform, bind_ok, demand_ok] at hok
    obtain ⟨run, hget, hclean⟩ := hok
    exact h.clean (Table.get_mem hget) hclean
  | remove runId reply now =>
    simp only [perform, bind_ok, demand_ok] at hok
    obtain ⟨run, hget, hremove⟩ := hok
    exact h.remove (Table.get_mem hget) hremove
  | recordFailure runId now =>
    simp only [perform, bind_ok, demand_ok] at hok
    obtain ⟨run, hget, hrecord⟩ := hok
    unfold recordRunFailure at hrecord
    split at hrecord
    · rw [pure_ok] at hrecord
      exact hrecord ▸ h.recordFailure run now _
    · rw [pure_ok] at hrecord
      exact hrecord ▸ h.recordFailure run now _
    · simp at hrecord
  | crash runId =>
    simp only [perform, pure_ok] at hok
    exact hok ▸ h.dropRuns _

end Steps

section Kept

variable {world world' : World}

/-- What an action does to the sources. A row goes only through a run that has cleaned its prefix. -/
inductive SourcesEffect (world world' : World) : Prop
  | same (h : world'.sources = world.sources)
  | tombstoned (loaded : Source) (now : Timestamp)
      (h : world'.sources = tombstone world.sources loaded now)
  | removed (run : DeletionRun) (row : SourceDeletion) (sourceId : Uuid)
      (hrun : run ∈ world.runs) (hphase : run.phase = .cleaned)
      (hrow : world.deletions.get run.rowId = some row) (hlinked : row.sourceId = some sourceId)
      (h : world'.sources = world.sources.filter (·.id ≠ sourceId))

/-- What an action does to the intents and to the claims on record. A write replaces an intent that
is not completed; a request replaces only one that it has read as failed. -/
inductive DeletionsEffect (world : World) (action : Action) (world' : World) : Prop
  | same (hdeletions : world'.deletions = world.deletions)
      (hclaims : ∀ rowId, world'.history.count (.claimed rowId) =
        world.history.count (.claimed rowId))
  | inserted (row : SourceDeletion) (hdeletions : world'.deletions = world.deletions ++ [row])
      (hclaims : ∀ rowId, world'.history.count (.claimed rowId) =
        world.history.count (.claimed rowId))
  | written (row row' : SourceDeletion) (hrow : world.deletions.get row.id = some row)
      (hkey : row'.id = row.id) (hopen : row.status ≠ .completed)
      (hrequest : ∀ requestId, action = .commit requestId → row.status ≠ .inProgress)
      (hdeletions : world'.deletions = world.deletions.put row' ∨
        ∃ sourceId, world'.deletions = (unlinkSource world.deletions sourceId).put row' ∧
          ∀ requestId, action ≠ .commit requestId)
      (hclaims : ∀ rowId, rowId ≠ row.id → world'.history.count (.claimed rowId) =
        world.history.count (.claimed rowId))

/-- Actions that write neither sources nor intents and claim nothing. -/
theorem effect_same {action : Action} (hsources : world'.sources = world.sources)
    (hdeletions : world'.deletions = world.deletions)
    (hhistory : ∃ events, world'.history = world.history ++ events ∧
      ∀ rowId, .claimed rowId ∉ events) :
    SourcesEffect world world' ∧ DeletionsEffect world action world' := by
  obtain ⟨events, hhistory, hnone⟩ := hhistory
  refine ⟨.same hsources, .same hdeletions ?_⟩
  intro rowId
  rw [hhistory, List.count_append, List.count_eq_zero.mpr (hnone rowId), Nat.add_zero]

theorem effect_unchanged {action : Action} (hsources : world'.sources = world.sources)
    (hdeletions : world'.deletions = world.deletions) (hhistory : world'.history = world.history) :
    SourcesEffect world world' ∧ DeletionsEffect world action world' :=
  effect_same hsources hdeletions ⟨[], by simp [hhistory], by simp⟩

theorem commit_effect {requestId : Uuid} {request : Request}
    (hcondition : request.undisturbed world = true) (hok : commitRequest world request = .ok world') :
    SourcesEffect world world' ∧ DeletionsEffect world (.commit requestId) world' := by
  simp only [commitRequest, bind_ok, demand_ok, pure_ok] at hok
  obtain ⟨planned, hplanned, ⟨deletions, events⟩, hwrite, rfl⟩ := hok
  refine ⟨.tombstoned request.source planned.now rfl, ?_⟩
  unfold writeIntent at hwrite
  split at hwrite
  · rename_i row hinsert
    simp only [bind_ok, demand_ok, require_ok, pure_ok, Prod.mk.injEq] at hwrite
    obtain ⟨sourceId, _, _, _, table, htable, rfl, rfl⟩ := hwrite
    refine .inserted row (Table.insert_ok htable).2 ?_
    intro rowId
    simp [List.count_append]
  · simp only [pure_ok, Prod.mk.injEq] at hwrite
    obtain ⟨rfl, rfl⟩ := hwrite
    exact .same rfl (by simp)
  · rename_i read hretry
    simp only [bind_ok, demand_ok, pure_ok, Prod.mk.injEq] at hwrite
    obtain ⟨committed, hcommitted, rfl, rfl⟩ := hwrite
    have hstatus := Request.undisturbed_retry hcondition hplanned hretry hcommitted
    rw [show read.id = committed.id from (Table.get_key hcommitted).symm] at hcommitted
    refine .written committed (read.retried committed planned.now) hcommitted rfl ?_ ?_ (.inl rfl)
      (by simp)
    · rcases hstatus with h | h <;> simp [h]
    · intro _ _
      rcases hstatus with h | h <;> simp [h]

theorem claim_effect {runId rowId : Uuid} {now : Timestamp}
    (hok : claimDeletion world runId rowId now = .ok world') :
    SourcesEffect world world' ∧ DeletionsEffect world (.claim runId rowId now) world' := by
  simp only [claimDeletion, bind_ok, require_ok] at hok
  obtain ⟨_, _, hok⟩ := hok
  split at hok
  · rw [pure_ok] at hok
    subst hok
    exact effect_unchanged rfl rfl rfl
  · rename_i row hget
    have hid : rowId = row.id := (Table.get_key hget).symm
    subst hid
    split at hok
    · rw [pure_ok] at hok
      subst hok
      exact effect_unchanged rfl rfl rfl
    · rename_i hopen
      split at hok
      · rw [pure_ok] at hok
        subst hok
        exact ⟨.same rfl, .written row (row.close now) hget rfl hopen (by simp) (.inl rfl)
          fun _ _ => rfl⟩
      · simp only [bind_ok, pure_ok] at hok
        obtain ⟨runs, _, rfl⟩ := hok
        refine ⟨.same rfl, .written row (row.claim now) hget rfl hopen (by simp) (.inl rfl) ?_⟩
        intro other hne
        simp [List.count_append, Ne.symm hne]

theorem recordFailure_effect {runId : Uuid} {run : DeletionRun} {now now' : Timestamp}
    {error : SourceDeletion → String} :
    SourcesEffect world (recordFailure world run now error) ∧
      DeletionsEffect world (.recordFailure runId now') (recordFailure world run now error) := by
  unfold Deletion.recordFailure
  split
  · exact effect_unchanged rfl rfl rfl
  · rename_i row hget
    rw [show run.rowId = row.id from (Table.get_key hget).symm] at hget
    split
    · exact effect_unchanged rfl rfl rfl
    · rename_i hopen
      exact ⟨.same rfl, .written row (row.fail (error row) now) hget rfl hopen (by simp) (.inl rfl)
        fun _ _ => rfl⟩

theorem remove_effect {runId : Uuid} {run : DeletionRun} {reply : Option Raised} {now : Timestamp}
    (hrun : run ∈ world.runs) (hok : removeSourceRows world run reply now = .ok world') :
    SourcesEffect world world' ∧ DeletionsEffect world (.remove runId reply now) world' := by
  simp only [removeSourceRows, bind_ok, require_ok] at hok
  obtain ⟨_, hphase, hok⟩ := hok
  split at hok
  · rw [pure_ok] at hok
    subst hok
    exact effect_unchanged rfl rfl rfl
  · rename_i row hclaimed
    have hget := hclaimed
    rw [show run.rowId = row.id from (Table.get_key hget).symm] at hget
    split at hok
    · rw [pure_ok] at hok
      subst hok
      exact effect_unchanged rfl rfl rfl
    · rename_i hopen
      split at hok
      · rw [pure_ok] at hok
        subst hok
        exact ⟨.same rfl, .written row (row.close now) hget rfl hopen (by simp) (.inl rfl)
          fun _ _ => rfl⟩
      · rename_i sourceId hlinked
        simp only [bind_ok, require_ok] at hok
        obtain ⟨_, _, hok⟩ := hok
        split at hok
        · rw [pure_ok] at hok
          subst hok
          refine ⟨.same rfl, .written row { row with
            sourceId := none, status := .completed, completedAt := some now, updatedAt := now }
            hget rfl hopen (by simp) (.inl rfl) ?_⟩
          intro _ _
          rfl
        · rename_i source hsource
          rw [show sourceId = source.id from (Table.get_key hsource).symm] at hlinked
          rw [pure_ok] at hok
          subst hok
          cases reply with
          | some raised => exact effect_unchanged rfl rfl rfl
          | none =>
            refine ⟨.removed run row source.id hrun hphase hclaimed hlinked rfl,
              .written row (row.complete now) hget rfl hopen (by simp)
                (.inr ⟨source.id, rfl, by simp⟩) ?_⟩
            intro other _
            simp [removeSource, World.finish, List.count_append]

theorem perform_effect {action : Action} (hcondition : Undisturbed world action)
    (hok : perform action world = .ok world') :
    SourcesEffect world world' ∧ DeletionsEffect world action world' := by
  cases action with
  | load requestId sourceId =>
    simp only [perform, bind_ok, pure_ok] at hok
    obtain ⟨_, _, _, _, rfl⟩ := hok
    exact effect_unchanged rfl rfl rfl
  | request requestId actorId rowId now =>
    simp only [perform, bind_ok, pure_ok] at hok
    obtain ⟨_, _, _, _, rfl⟩ := hok
    exact effect_unchanged rfl rfl rfl
  | commit requestId =>
    simp only [perform, bind_ok, demand_ok] at hok
    obtain ⟨request, hget, hcommit⟩ := hok
    rw [Undisturbed, hget] at hcondition
    exact commit_effect hcondition hcommit
  | abort requestId =>
    simp only [perform, pure_ok] at hok
    subst hok
    exact effect_unchanged rfl rfl rfl
  | sweep limit now =>
    simp only [perform, bind_ok, pure_ok] at hok
    obtain ⟨_, _, rfl⟩ := hok
    exact effect_unchanged rfl rfl rfl
  | attempt rowId =>
    simp only [perform, pure_ok] at hok
    subst hok
    exact effect_unchanged rfl rfl rfl
  | claim runId rowId now => exact claim_effect hok
  | clean runId reply =>
    simp only [perform, bind_ok, cleanStorage] at hok
    obtain ⟨run, _, _, _, hok⟩ := hok
    cases reply with
    | some raised =>
      simp only [pure_ok] at hok
      subst hok
      exact effect_unchanged rfl rfl rfl
    | none =>
      simp only [pure_ok] at hok
      subst hok
      exact effect_same rfl rfl ⟨[.cleaned run.storagePrefix], rfl, by simp⟩
  | remove runId reply now =>
    simp only [perform, bind_ok, demand_ok] at hok
    obtain ⟨run, hget, hremove⟩ := hok
    exact remove_effect (Table.get_mem hget) hremove
  | recordFailure runId now =>
    simp only [perform, bind_ok, recordRunFailure] at hok
    obtain ⟨run, _, hrecord⟩ := hok
    split at hrecord
    · rw [pure_ok] at hrecord
      exact hrecord ▸ recordFailure_effect
    · rw [pure_ok] at hrecord
      exact hrecord ▸ recordFailure_effect
    · simp at hrecord
  | crash runId =>
    simp only [perform, pure_ok] at hok
    subst hok
    exact effect_unchanged rfl rfl rfl

/-- What the deletion of sources keeps at an action, for the world before and the world after. -/
structure Kept (world : World) (action : Action) (world' : World) : Prop where
  removed : ∀ source ∈ world.sources, world'.sources.get source.id = none →
    List.Sublist [.intended source.id, .cleaned (sourceStoragePrefix source.id)] world.history
  completed : ∀ row ∈ world.deletions, row.status = .completed → row ∈ world'.deletions ∧
    world'.history.count (.claimed row.id) = world.history.count (.claimed row.id)
  tombstoned : ∀ source ∈ world.sources, source.deleteRequestedAt.isSome →
    ∀ source', world'.sources.get source.id = some source' → source'.deleteRequestedAt.isSome
  single : ∀ sourceId, (world'.deletions.filter fun row =>
    row.storagePrefix = sourceStoragePrefix sourceId).length ≤ 1
  undowngraded : ∀ requestId, action = .commit requestId → ∀ row ∈ world.deletions,
    row.status = .inProgress ∨ row.status = .completed → row ∈ world'.deletions

theorem SourcesEffect.removed_kept (h : SourcesEffect world world') (hsound : Sound world)
    {source : Source} (hmem : source ∈ world.sources)
    (hgone : world'.sources.get source.id = none) :
    List.Sublist [.intended source.id, .cleaned (sourceStoragePrefix source.id)]
      world.history := by
  have hget : world.sources.get source.id = some source := hsound.sources.get_of_mem hmem
  cases h with
  | same h =>
    rw [h, hget] at hgone
    cases hgone
  | tombstoned loaded now h =>
    rw [h, get_tombstone, hget] at hgone
    cases hgone
  | removed run row sourceId hrun hphase hrow hlinked h =>
    rw [h, show Table.get (world.sources.filter (·.id ≠ sourceId)) source.id =
      if sourceId = source.id then none else world.sources.get source.id from
        Table.get_filter_ne world.sources sourceId source.id] at hgone
    split at hgone
    · rename_i hid
      -- the run has cleaned the prefix of its intent, which is the prefix of this source
      obtain ⟨claimed, hclaimed, hstored⟩ := (hsound.runs run hrun).row
      rw [hrow, Option.some.injEq] at hclaimed
      subst hclaimed
      obtain ⟨owner, howner, hevents⟩ := (hsound.runs run hrun).cleaned hphase
      obtain ⟨linked, hlinkedPrefix, _, hstate⟩ := hsound.intended row (Table.get_mem hrow)
      have hsame : linked = owner := by
        apply sourceStoragePrefix_injective
        rw [← hlinkedPrefix, hstored, howner]
      have hsource : linked = source.id := by
        rcases hstate with ⟨hsome, _⟩ | ⟨hnone, _⟩
        · rw [hlinked, Option.some.injEq] at hsome
          exact hsome.symm.trans hid
        · rw [hlinked] at hnone
          cases hnone
      rw [howner, ← hsame, hsource] at hevents
      exact hevents
    · rw [hget] at hgone
      cases hgone

theorem SourcesEffect.tombstoned_kept (h : SourcesEffect world world') (hsound : Sound world)
    {source source' : Source} (hmem : source ∈ world.sources)
    (htombstone : source.deleteRequestedAt.isSome)
    (hget' : world'.sources.get source.id = some source') : source'.deleteRequestedAt.isSome := by
  have hget : world.sources.get source.id = some source := hsound.sources.get_of_mem hmem
  have hold : ∀ old, world.sources.get source.id = some old → old.deleteRequestedAt.isSome := by
    intro old hfound
    rw [hget, Option.some.injEq] at hfound
    exact hfound ▸ htombstone
  cases h with
  | same h => exact hold source' (h ▸ hget')
  | tombstoned loaded now h => exact get_tombstone_isSome (h ▸ hget') hold
  | removed run row sourceId hrun hphase hrow hlinked h =>
    rw [h, show Table.get (world.sources.filter (·.id ≠ sourceId)) source.id =
      if sourceId = source.id then none else world.sources.get source.id from
        Table.get_filter_ne world.sources sourceId source.id] at hget'
    split at hget'
    · cases hget'
    · exact hold source' hget'

theorem DeletionsEffect.completed_kept {action : Action}
    (h : DeletionsEffect world action world') (hsound : Sound world) {row : SourceDeletion}
    (hmem : row ∈ world.deletions) (hcompleted : row.status = .completed) :
    row ∈ world'.deletions ∧
      world'.history.count (.claimed row.id) = world.history.count (.claimed row.id) := by
  cases h with
  | same hdeletions hclaims => exact ⟨hdeletions ▸ hmem, hclaims row.id⟩
  | inserted new hdeletions hclaims =>
    exact ⟨hdeletions ▸ List.mem_append_left _ hmem, hclaims row.id⟩
  | written old new hold hkey hopen hrequest hdeletions hclaims =>
    have hne : row.id ≠ old.id := by
      intro hid
      have hsame : row = old := hsound.keyed.eq_of_key hmem (Table.get_mem hold) hid
      exact hopen (hsame ▸ hcompleted)
    have hkeyNe : Row.key row ≠ Row.key new := fun heq => hne (heq.trans hkey)
    refine ⟨?_, hclaims row.id hne⟩
    rcases hdeletions with heq | ⟨sourceId, heq, _⟩
    · rw [heq]
      exact Table.mem_put_of_ne hmem hkeyNe
    · rw [heq]
      refine Table.mem_put_of_ne (mem_unlinkSource_of_ne hmem ?_) hkeyNe
      obtain ⟨owner, _, _, hstate⟩ := hsound.intended row hmem
      rcases hstate with ⟨_, hrunning⟩ | ⟨hnone, _⟩
      · exact absurd hcompleted hrunning
      · rw [hnone]
        simp

theorem DeletionsEffect.undowngraded {requestId : Uuid}
    (h : DeletionsEffect world (.commit requestId) world') (hsound : Sound world)
    {row : SourceDeletion} (hmem : row ∈ world.deletions)
    (hstatus : row.status = .inProgress ∨ row.status = .completed) : row ∈ world'.deletions := by
  cases h with
  | same hdeletions hclaims => exact hdeletions ▸ hmem
  | inserted new hdeletions hclaims => exact hdeletions ▸ List.mem_append_left _ hmem
  | written old new hold hkey hopen hrequest hdeletions hclaims =>
    rcases hdeletions with heq | ⟨_, _, hnone⟩
    · rw [heq]
      apply Table.mem_put_of_ne hmem
      intro hsame
      have hrow : row = old :=
        hsound.keyed.eq_of_key hmem (Table.get_mem hold) (hsame.trans hkey)
      subst hrow
      rcases hstatus with hprogress | hcompleted
      · exact hrequest requestId rfl hprogress
      · exact hopen hcompleted
    · exact absurd rfl (hnone requestId)

theorem Sound.single_intent (h : Sound world) (sourceId : Uuid) :
    (world.deletions.filter fun row =>
      row.storagePrefix = sourceStoragePrefix sourceId).length ≤ 1 := by
  have hcount := List.nodup_iff_count_le_one.mp h.single (sourceStoragePrefix sourceId)
  rw [List.count_eq_countP, List.countP_map, List.countP_eq_length_filter] at hcount
  exact hcount

/-- The world before the first deletion is requested. -/
structure World.Initial (world : World) : Prop where
  sources : world.sources.Keyed
  untouched : ∀ source ∈ world.sources, source.deleteRequestedAt = none
  deletions : world.deletions = []
  requests : world.requests = []
  runs : world.runs = []

theorem World.Initial.sound (h : world.Initial) : Sound world where
  sources := h.sources
  keyed := by simp [h.deletions, Table.Keyed]
  single := by simp [h.deletions]
  intended := by simp [h.deletions]
  tombstoned source hmem htombstone := by
    rw [h.untouched source hmem] at htombstone
    cases htombstone
  requestsKeyed := by simp [h.requests, Table.Keyed]
  requests := by simp [h.requests]
  locks := by simp [h.requests]
  runsKeyed := by simp [h.runs, Table.Keyed]
  runs := by simp [h.runs]

theorem perform_preserves : Preserves perform Undisturbed Sound :=
  fun hsound _ hok => perform_sound hsound hok

theorem step_kept {action : Action} (hsound : Sound world)
    (hcondition : Undisturbed world action) : Kept world action (step perform world action) := by
  have heffect : SourcesEffect world (step perform world action) ∧
      DeletionsEffect world action (step perform world action) := by
    rcases step_cases perform world action with hsame | hok
    · rw [hsame]
      exact effect_unchanged rfl rfl rfl
    · exact perform_effect hcondition hok
  obtain ⟨hsources, hdeletions⟩ := heffect
  constructor
  case removed => exact fun source hmem => hsources.removed_kept hsound hmem
  case completed => exact fun row hmem => hdeletions.completed_kept hsound hmem
  case tombstoned =>
    intro source hmem htombstone source' hget
    exact hsources.tombstoned_kept hsound hmem htombstone hget
  case single => exact (perform_preserves.step hsound hcondition).single_intent
  case undowngraded =>
    rintro requestId rfl row hmem hstatus
    exact hdeletions.undowngraded hsound hmem hstatus

/-- The deletion protocol holds in every run in which no request commits its retry over an intent
that a sweep has taken up since the request read it. -/
theorem deletion_kept (hinitial : world.Initial) (actions : List Action)
    (hcondition : Meets perform Undisturbed world actions) :
    Meets perform (fun world action => Kept world action (step perform world action)) world
      actions :=
  perform_preserves.meets step_kept hinitial.sound hcondition

end Kept

section Scenario

def orphan : Source := { id := 7, status := "awaiting_approval" }

def orphanWorld : World := { sources := [orphan] }

/-- The source is requested, and its first cleanup fails. -/
def failedCleanup : List Action := [
  .load 1 7, .request 1 none 20 0, .commit 1,
  .sweep 25 1, .claim 30 20 1, .clean 30 (some ⟨"S3Error", "unreachable"⟩), .recordFailure 30 2]

/-- The sweep retries and finishes. -/
def secondCleanup : List Action := [
  .sweep 25 (seconds 121), .claim 31 20 (seconds 121), .clean 31 none,
  .remove 31 none (seconds 122)]

/-- The request for the tombstoned source reads the failed intent. -/
def repeatedRequest : List Action := [.load 2 7, .request 2 none 21 (seconds 120)]

theorem orphanWorld_initial : orphanWorld.Initial where
  sources := List.nodup_singleton _
  untouched := by decide
  deletions := rfl
  requests := rfl
  runs := rfl

/-- A request that commits before the sweep retries. -/
theorem repeated_request_kept :
    Meets perform (fun world action => Kept world action (step perform world action)) orphanWorld
      (failedCleanup ++ repeatedRequest ++ [.commit 2] ++ secondCleanup) :=
  deletion_kept orphanWorld_initial _ (by decide +kernel)

/-- A request that commits after the sweep has finished: the completed intent is pending again. -/
theorem completed_intent_downgraded :
    ¬ Meets perform (fun world action => Kept world action (step perform world action)) orphanWorld
      (failedCleanup ++ repeatedRequest ++ secondCleanup ++ [.commit 2]) := by
  intro h
  have hlast := (meets_append.mp h).2.1
  have hcompleted : ∃ row ∈ (run perform orphanWorld
      (failedCleanup ++ repeatedRequest ++ secondCleanup)).deletions, row.status = .completed ∧
        row ∉ (step perform (run perform orphanWorld
          (failedCleanup ++ repeatedRequest ++ secondCleanup)) (.commit 2)).deletions := by
    decide +kernel
  obtain ⟨row, hmem, hstatus, hlost⟩ := hcompleted
  exact hlost (hlast.completed row hmem hstatus).1

end Scenario

end Cygnus.Deletion
