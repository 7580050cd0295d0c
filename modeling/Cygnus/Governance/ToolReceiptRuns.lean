import Cygnus.Governance.ToolCommandReceipts

/-! At most one write for each tool and command id, as long as an actor does not meet the receipts of
another one. -/

namespace Cygnus.Governance.ToolReceipts

open Result Machine

variable {δ : Type} {sha256 : String → String} {call : ToolCall δ} {store store' : Store δ}

def ToolCommandReceipt.command (row : ToolCommandReceipt) : String × String :=
  (row.toolName, row.commandId)

def ToolCall.command (call : ToolCall δ) : String × String := (call.toolName, call.commandId)

section Steps

theorem existing_some {receipts : List ToolCommandReceipt} {row : ToolCommandReceipt}
    (h : existing receipts call = some row) :
    row ∈ receipts ∧ row.actorId = call.actorId ∧ row.command = call.command := by
  have hfound := List.find?_some h
  simp only [decide_eq_true_eq] at hfound
  exact ⟨List.mem_of_find?_eq_some h, hfound.1, Prod.ext hfound.2.1 hfound.2.2⟩

theorem existing_none {receipts : List ToolCommandReceipt} (h : existing receipts call = none)
    {row : ToolCommandReceipt} (hrow : row ∈ receipts) (hactor : row.actorId = call.actorId) :
    row.command ≠ call.command := by
  intro hcommand
  obtain ⟨htool, hid⟩ := Prod.mk.inj hcommand
  have := List.find?_eq_none.mp h row hrow
  simp [hactor, htool, hid] at this

theorem replay_ok {receipts : List ToolCommandReceipt} {replay : Option ToolCommandReceiptWrite}
    (h : replayToolCommandReceipt sha256 receipts call = .ok replay) :
    (existing receipts call = none ∧ replay = none) ∨
      ∃ row, existing receipts call = some row ∧ replay = some ⟨row, true⟩ := by
  unfold replayToolCommandReceipt at h
  split at h
  · rename_i hnone
    rw [pure_ok] at h
    exact .inl ⟨hnone, h.symm⟩
  · rename_i row hsome
    simp only [bind_ok, pure_ok] at h
    obtain ⟨-, -, h⟩ := h
    exact .inr ⟨row, hsome, h.symm⟩

/-- What a receipt says of the call that wrote it. -/
structure Records (sha256 : String → String) (written : ToolCall δ × Json)
    (row : ToolCommandReceipt) : Prop where
  actor : row.actorId = written.1.actorId
  command : row.command = written.1.command
  fingerprint : row.requestFingerprint = toolCommandRequestFingerprint sha256 written.1
  payload : row.resultPayload = written.2

/-- A transaction replays a receipt, or writes and adds one. -/
theorem transact_ok {reply : ToolCommandReceiptWrite}
    (h : transact sha256 call store = .ok (store', reply)) :
    (store' = store ∧ existing store.receipts call = some reply.receipt ∧ reply.replayed = true) ∨
      existing store.receipts call = none ∧ ∃ payload row,
        store'.receipts = store.receipts ++ [row] ∧
          store'.writes = store.writes ++ [(call, payload)] ∧ Records sha256 (call, payload) row := by
  simp only [transact, bind_ok] at h
  obtain ⟨replay, hreplay, h⟩ := h
  rcases replay_ok hreplay with ⟨hnone, rfl⟩ | ⟨row, hsome, rfl⟩
  · simp only [bind_ok, createToolCommandReceipt, pure_ok] at h
    obtain ⟨written, -, created, ⟨-, -, -, -, -, -, rfl⟩, h⟩ := h
    obtain ⟨rfl, rfl⟩ := Prod.mk.inj h
    exact .inr ⟨hnone, written.2, _, rfl, rfl, ⟨rfl, rfl, rfl, rfl⟩⟩
  · simp only [pure_ok] at h
    obtain ⟨rfl, rfl⟩ := Prod.mk.inj h
    exact .inl ⟨rfl, hsome, rfl⟩

end Steps

section Runs

/-- The receipts are those of the writes, one for each command. -/
structure Sound (sha256 : String → String) (store : Store δ) : Prop where
  records : List.Forall₂ (Records sha256) store.writes store.receipts
  unique : (store.receipts.map ToolCommandReceipt.command).Nodup

/-- No receipt of another actor has the tool and the command id of the call. -/
def OneActor (store : Store δ) (call : ToolCall δ) : Prop :=
  ∀ row ∈ store.receipts, row.command = call.command → row.actorId = call.actorId

instance (store : Store δ) (call : ToolCall δ) : Decidable (OneActor store call) :=
  inferInstanceAs (Decidable (∀ _ ∈ _, _ → _))

/-- A call with the command id of an earlier write gets that answer if it comes from the same actor with
the same arguments, else it is refused; it never writes. -/
def Guaranteed (sha256 : String → String) (store : Store δ) (call : ToolCall δ) : Prop :=
  ∀ written ∈ store.writes, written.1.command = call.command →
    (written.1.actorId = call.actorId ∧ SameArguments written.1 call →
      ∃ reply, transact sha256 call store = .ok (store, reply) ∧ reply.replayed = true ∧
        reply.receipt.resultPayload = written.2) ∧
    (¬ (written.1.actorId = call.actorId ∧ SameArguments written.1 call) →
      ∃ message, transact sha256 call store = .error (.receiptConflict message))

theorem act_sound (hsound : Sound sha256 store) (hone : OneActor store call)
    (h : act sha256 call store = .ok store') : Sound sha256 store' := by
  obtain ⟨⟨next, reply⟩, htransact, rfl⟩ := map_ok.mp h
  rcases transact_ok htransact with ⟨rfl, -, -⟩ | ⟨hnone, payload, row, hreceipts, hwrites, hrecords⟩
  · exact hsound
  · constructor
    · rw [hreceipts, hwrites]
      exact List.rel_append hsound.records (.cons hrecords .nil)
    · rw [hreceipts, List.map_append, List.map_singleton, List.nodup_append]
      refine ⟨hsound.unique, List.nodup_singleton _, ?_⟩
      intro command hmem command' hmem' heq
      obtain ⟨other, hother, rfl⟩ := List.mem_map.mp hmem
      rw [List.mem_singleton.mp hmem', hrecords.command] at heq
      exact existing_none hnone hother (hone other hother heq) heq

theorem Sound.guaranteed (hsha : Function.Injective sha256) (hsound : Sound sha256 store)
    (hone : OneActor store call) : Guaranteed sha256 store call := by
  intro written hwritten hcommand
  obtain ⟨row, hrow, hrecords⟩ : ∃ row ∈ store.receipts, Records sha256 written row := by
    obtain ⟨i, hi⟩ := List.mem_iff_get.mp hwritten
    have hlength := hsound.records.length_eq
    exact ⟨store.receipts.get (i.cast hlength), List.get_mem _ _,
      hi ▸ (List.forall₂_iff_get.mp hsound.records).2 i i.2 (hlength ▸ i.2)⟩
  have hsame : row.command = call.command := hrecords.command.trans hcommand
  have hactor : row.actorId = call.actorId := hone row hrow hsame
  have hactor' : written.1.actorId = call.actorId := hrecords.actor.symm.trans hactor
  obtain ⟨htool, hid⟩ := Prod.mk.inj hcommand
  have hexisting : existing store.receipts call = some row := by
    cases hfound : existing store.receipts call with
    | none => exact absurd hsame (existing_none hfound hrow hactor)
    | some found =>
      obtain ⟨hmem, -, hfoundCommand⟩ := existing_some hfound
      rw [List.inj_on_of_nodup_map hsound.unique hmem hrow (hfoundCommand.trans hsame.symm)]
  have hfingerprint : row.requestFingerprint = toolCommandRequestFingerprint sha256 call ↔
      SameArguments written.1 call := by
    rw [hrecords.fingerprint]
    exact fingerprint_eq_iff hsha hactor' htool hid
  constructor
  · rintro ⟨-, harguments⟩
    refine ⟨⟨row, true⟩, ?_, rfl, hrecords.payload⟩
    rw [transact, replayToolCommandReceipt, hexisting]
    dsimp only
    rw [require_of (hfingerprint.mpr harguments)]
    rfl
  · intro hother
    have hdiffers : ¬ row.requestFingerprint = toolCommandRequestFingerprint sha256 call :=
      fun heq => hother ⟨hactor', hfingerprint.mp heq⟩
    have hrefused : transact sha256 call store = .error (.receiptConflict
        s!"command_id={call.commandId} is already bound to different actor-bound input") := by
      rw [transact, replayToolCommandReceipt, hexisting]
      dsimp only
      rw [require, if_neg hdiffers]
      rfl
    exact ⟨_, hrefused⟩

/-- In a run whose calls meet no receipt of another actor, each command is written at most once, and
every later call with its id is answered by the receipt or refused. -/
theorem receipts_at_most_once (hsha : Function.Injective sha256) {data : δ}
    {calls : List (ToolCall δ)} (h : Meets (act sha256) OneActor ⟨[], data, []⟩ calls) :
    ((run (act sha256) ⟨[], data, []⟩ calls).receipts.map ToolCommandReceipt.command).Nodup ∧
      ((run (act sha256) ⟨[], data, []⟩ calls).writes.map fun written => written.1.command).Nodup ∧
      Meets (act sha256) (Guaranteed sha256) ⟨[], data, []⟩ calls := by
  have hpreserves : Preserves (act sha256) OneActor (Sound (δ := δ) sha256) :=
    fun hsound hone hact => act_sound hsound hone hact
  have hstart : Sound sha256 (⟨[], data, []⟩ : Store δ) := ⟨.nil, .nil⟩
  have hend := hpreserves.run hstart h
  refine ⟨hend.unique, ?_, hpreserves.meets (fun hsound hone => hsound.guaranteed hsha hone) hstart h⟩
  have hcommands : (run (act sha256) ⟨[], data, []⟩ calls).writes.map
      (fun written => written.1.command) =
      (run (act sha256) ⟨[], data, []⟩ calls).receipts.map ToolCommandReceipt.command := by
    refine List.forall₂_eq_eq_eq ▸ ?_
    rw [List.forall₂_map_left_iff, List.forall₂_map_right_iff]
    exact hend.records.imp fun _ _ hrecords => hrecords.command.symm
  rw [hcommands]
  exact hend.unique

end Runs

section Scenario

/-- The data counts the writes. -/
def propose (actor : Uuid) (title : String) (id : Uuid) : ToolCall Nat where
  actorId := actor
  toolName := "propose_knowledge_object"
  commandId := "propose:1"
  arguments := [("title", .str title)]
  write := fun count => .ok (count + 1, .str title)
  receiptId := id

theorem repeated_at_most_once :
    ((run (act id) ⟨[], 0, []⟩ [propose 1 "Refunds" 10, propose 1 "Refunds" 11,
        propose 1 "Returns" 12]).receipts.map ToolCommandReceipt.command).Nodup ∧
      ((run (act id) ⟨[], 0, []⟩ [propose 1 "Refunds" 10, propose 1 "Refunds" 11,
        propose 1 "Returns" 12]).writes.map fun written => written.1.command).Nodup ∧
      Meets (act id) (Guaranteed id) ⟨[], 0, []⟩ [propose 1 "Refunds" 10, propose 1 "Refunds" 11,
        propose 1 "Returns" 12] :=
  receipts_at_most_once Function.injective_id (by decide +kernel)

/-- Two actors under one command id: both write. -/
theorem two_actors_write :
    ¬ ((run (act id) ⟨[], 0, []⟩ [propose 1 "Refunds" 10, propose 2 "Refunds" 11]).receipts.map
      ToolCommandReceipt.command).Nodup := by
  decide +kernel

end Scenario

end Cygnus.Governance.ToolReceipts
