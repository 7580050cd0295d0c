import Cygnus.Data.JsonText
import Cygnus.Data.Machine
import Cygnus.Data.Result
import Mathlib.Data.Prod.Basic

/-! Receipts of tool commands: a command that is repeated gets the stored answer of the first time. -/

namespace Cygnus.Governance.ToolReceipts

open Result Machine

inductive ToolError
  | receiptConflict (message : String)
  | integrity (constraint : String)
  /-- What the write of a tool raises. -/
  | write (message : String)
deriving DecidableEq

structure ToolCommandReceipt where
  id : Uuid
  actorId : Uuid
  toolName : String
  commandId : String
  requestFingerprint : String
  correlationId : Option Uuid
  traceparent : Option String
  resultPayload : Json

/-- A transaction of a tool: its write answers with a payload or raises; `receiptId` is drawn for the
row, the correlation is that of the request. -/
structure ToolCall (δ : Type) where
  actorId : Uuid
  toolName : String
  commandId : String
  arguments : JsonObject
  write : δ → Except ToolError (δ × Json)
  receiptId : Uuid
  correlationId : Option Uuid := none
  traceparent : Option String := none

/-- The tables; `writes` is no column, it tells which calls wrote and what they answered. -/
structure Store (δ : Type) where
  receipts : List ToolCommandReceipt
  data : δ
  writes : List (ToolCall δ × Json)

structure ToolCommandReceiptWrite where
  receipt : ToolCommandReceipt
  replayed : Bool

section Calls

variable {δ : Type} (sha256 : String → String)

def requestText (call : ToolCall δ) : String :=
  Json.dumps <| .object [
    ("actor_id", .str call.actorId.text),
    ("tool_name", .str call.toolName),
    ("command_id", .str call.commandId),
    ("arguments", .object call.arguments)]

def toolCommandRequestFingerprint (call : ToolCall δ) : String := sha256 (requestText call)

/-- The row that the lookup of a call finds. -/
def existing (receipts : List ToolCommandReceipt) (call : ToolCall δ) : Option ToolCommandReceipt :=
  receipts.find? fun row =>
    row.actorId = call.actorId ∧ row.toolName = call.toolName ∧ row.commandId = call.commandId

def replayToolCommandReceipt (receipts : List ToolCommandReceipt) (call : ToolCall δ) :
    Except ToolError (Option ToolCommandReceiptWrite) :=
  match existing receipts call with
  | none => return none
  | some row => do
    require (row.requestFingerprint = toolCommandRequestFingerprint sha256 call)
      (.receiptConflict
        s!"command_id={call.commandId} is already bound to different actor-bound input")
    return some ⟨row, true⟩

def toolNames : List String := ["propose_knowledge_object", "update_draft_object"]

/-- `btrim(text)`. -/
def btrim (text : String) : String :=
  String.ofList ((text.toList.dropWhile (· = ' ')).reverse.dropWhile (· = ' ')).reverse

def createToolCommandReceipt (receipts : List ToolCommandReceipt) (call : ToolCall δ)
    (payload : Json) : Except ToolError (List ToolCommandReceipt × ToolCommandReceiptWrite) := do
  require (call.toolName ∈ toolNames)
    (.integrity "ck_governance_tool_command_receipts_tool_name")
  require (call.commandId = btrim call.commandId ∧ 1 ≤ call.commandId.length ∧
      call.commandId.length ≤ 220)
    (.integrity "ck_governance_tool_command_receipts_command_id")
  require (existing receipts call).isNone
    (.integrity "uq_governance_tool_command_receipts_actor_tool_command")
  let row := {
    id := call.receiptId
    actorId := call.actorId
    toolName := call.toolName
    commandId := call.commandId
    requestFingerprint := toolCommandRequestFingerprint sha256 call
    correlationId := call.correlationId
    traceparent := call.traceparent
    resultPayload := payload }
  return (receipts ++ [row], ⟨row, false⟩)

/-- One transaction: the write is done only where no receipt is replayed, and stays only if its receipt
does. -/
def transact (call : ToolCall δ) (store : Store δ) :
    Except ToolError (Store δ × ToolCommandReceiptWrite) := do
  match ← replayToolCommandReceipt sha256 store.receipts call with
  | some replay => return (store, replay)
  | none =>
    let written ← call.write store.data
    let created ← createToolCommandReceipt sha256 store.receipts call written.2
    return (⟨created.1, written.1, store.writes ++ [(call, written.2)]⟩, created.2)

def act (call : ToolCall δ) (store : Store δ) : Except ToolError (Store δ) :=
  (transact sha256 call store).map Prod.fst

end Calls

section Fingerprints

variable {δ : Type}

/-- The arguments of two calls read the same in normal form. -/
def SameArguments (call call' : ToolCall δ) : Prop :=
  Json.dumps (.object call.arguments) = Json.dumps (.object call'.arguments)

theorem sorted_request (actor arguments command tool : List Char) :
    Sequence.sortedBy Prod.fst [("actor_id", actor), ("tool_name", tool), ("command_id", command),
      ("arguments", arguments)] = [("actor_id", actor), ("arguments", arguments),
      ("command_id", command), ("tool_name", tool)] := by
  have hfirst : "command_id" ≤ "arguments" ↔ False := by decide
  have hsecond : "tool_name" ≤ "arguments" ↔ False := by decide
  have hthird : "actor_id" ≤ "arguments" ↔ True := by decide
  have hfourth : "tool_name" ≤ "command_id" ↔ False := by decide
  simp [Sequence.sortedBy, List.orderedInsert, hfirst, hsecond, hthird, hfourth]

/-- What stands in front of the arguments, and what behind them. -/
def requestStart (actorId : Uuid) : List Char :=
  '{' :: (Json.quote "actor_id" ++ ':' :: Json.quote actorId.text ++ ',' :: Json.quote "arguments" ++
    [':'])

def requestEnd (toolName commandId : String) : List Char :=
  ',' :: (Json.quote "command_id" ++ ':' :: Json.quote commandId ++ ',' :: Json.quote "tool_name" ++
    ':' :: Json.quote toolName ++ ['}'])

theorem requestText_toList (call : ToolCall δ) : (requestText call).toList =
    requestStart call.actorId ++ (Json.render (.object call.arguments) ++
      requestEnd call.toolName call.commandId) := by
  rw [requestText, Json.dumps, String.toList_ofList, Json.render]
  simp only [Json.renderFields]
  rw [sorted_request, requestStart, requestEnd]
  generalize Json.render (.object call.arguments) = arguments
  simp [Json.render, List.intercalate]

/-- For one actor, tool and command id, the fingerprints agree exactly if the arguments do. -/
theorem fingerprint_eq_iff {sha256 : String → String} (hsha : Function.Injective sha256)
    {call call' : ToolCall δ} (hactor : call.actorId = call'.actorId)
    (htool : call.toolName = call'.toolName) (hcommand : call.commandId = call'.commandId) :
    toolCommandRequestFingerprint sha256 call = toolCommandRequestFingerprint sha256 call' ↔
      SameArguments call call' := by
  rw [toolCommandRequestFingerprint, toolCommandRequestFingerprint, hsha.eq_iff,
    ← String.toList_inj, requestText_toList, requestText_toList, hactor, htool, hcommand,
    List.append_cancel_left_eq, List.append_cancel_right_eq, SameArguments, ← String.toList_inj,
    Json.dumps, Json.dumps, String.toList_ofList, String.toList_ofList]

end Fingerprints

end Cygnus.Governance.ToolReceipts
