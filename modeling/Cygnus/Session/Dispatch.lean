import Cygnus.Session.Protocol

/-! The dispatcher of governed tool calls: the checks before a handler runs, the bounded retry loop,
and one result for each call of a batch. -/

namespace Cygnus.Session

/-- How an awaited handler ends. A timeout is the dispatcher's or the handler's own. -/
inductive HandlerOutcome
  | returned (result : Value)
  | transient (code : String)
  | raised
  | timedOut

/-- One turn of the loop: the time since the start when the deadline is looked at, in seconds, and
what the handler does should it be called. -/
structure Turn where
  elapsed : ℚ
  outcome : HandlerOutcome

/-- A handler during one call, turn by turn. -/
abbrev Behaviour := Nat → Turn

/-- The envelope of a call, and how often its handler was invoked. -/
structure Execution where
  envelope : Value
  invocations : Nat

section Execute

variable (py : Python)

def errorEnvelope (status summary code contractVersion : String) (data : Envelope := []) : Value :=
  .object (resultEnvelope status summary data [code] contractVersion)

def SessionToolManifest.retryable (tool : SessionToolManifest) : Bool :=
  tool.sideEffectClass = "read_only" && tool.retryPolicy.mode = .transientOnly &&
    !tool.retryPolicy.retryableErrorCodes.isEmpty

/-- The result of a handler with the contract version, where it is an object without one. -/
def stamp (contractVersion : String) : Value → Value
  | .object fields =>
    if fields.any (·.1 = "contract_version") then .object fields
    else .object (fields ++ [("contract_version", .str contractVersion)])
  | result => result

def deadlineEnvelope (tool : SessionToolManifest) (contractVersion : String) : Value :=
  errorEnvelope "deadline_exceeded"
    s!"Tool {tool.name} exceeded its {tool.timeoutSeconds}s deadline." "deadline_exceeded"
    contractVersion

def transientEnvelope (tool : SessionToolManifest) (code contractVersion : String) : Value :=
  if tool.retryable then
    errorEnvelope "internal_error" "Transient tool failure exceeded the bounded retry policy." code
      contractVersion
  else errorEnvelope "internal_error" "Tool execution failed." "internal_error" contractVersion

/-- The loop, from a turn on. -/
def runAttempts (tool : SessionToolManifest) (contractVersion : String) (behaviour : Behaviour)
    (attempt : Nat) : Execution :=
  let turn := behaviour attempt
  if tool.timeoutSeconds - turn.elapsed ≤ 0 then ⟨deadlineEnvelope tool contractVersion, 0⟩
  else match turn.outcome with
    | .timedOut => ⟨deadlineEnvelope tool contractVersion, 1⟩
    | .transient code =>
      if tool.retryable ∧ code ∈ tool.retryPolicy.retryableErrorCodes ∧
          attempt < tool.retryPolicy.maxAttempts then
        let rest := runAttempts tool contractVersion behaviour (attempt + 1)
        ⟨rest.envelope, rest.invocations + 1⟩
      else ⟨transientEnvelope tool code contractVersion, 1⟩
    | .raised =>
      ⟨errorEnvelope "internal_error" "Tool execution failed." "internal_error" contractVersion, 1⟩
    | .returned result => ⟨stamp contractVersion result, 1⟩
termination_by tool.retryPolicy.maxAttempts - attempt

def executeGovernedToolCall (tool : SessionToolManifest) (arguments : List (String × Value))
    (behaviour : Behaviour) (actorScope : SessionActorScope) (contractVersion : Value) : Execution :=
  match negotiateSessionContractVersion contractVersion with
  | .error error => ⟨.object (sessionContractErrorEnvelope error), 0⟩
  | .ok negotiated =>
    match validateArguments py tool.inputSchema arguments with
    | first :: errors =>
      ⟨errorEnvelope "invalid" s!"Tool arguments failed manifest validation: {first}"
        "invalid_arguments" negotiated [("errors", .list ((first :: errors).map .str))], 0⟩
    | [] =>
      if actorScope.allows tool.permissionRequirement then
        runAttempts tool negotiated behaviour 1
      else
        ⟨errorEnvelope "denied"
          (s!"Tool {tool.name} requires {tool.permissionRequirement.value}; " ++
            "the current actor scope is not permitted.") "permission_denied" negotiated, 0⟩

end Execute

section Dispatch

structure ToolRegistry where
  manifest : SessionManifest
  handlers : List String

/-- The correlated result of one call, with the invocations of its handler. -/
structure ToolResult where
  callId : String
  toolName : String
  envelope : Value
  invocations : Nat

variable (py : Python)

def dispatchToolCall (registry : ToolRegistry) (actorScope : SessionActorScope) (negotiated : String)
    (behaviour : Behaviour) (call : ToolCall) : ToolResult :=
  match registry.manifest.tool call.name with
  | none =>
    ⟨call.id, call.name, errorEnvelope "invalid" s!"Unknown governed session tool: {call.name}"
      "unknown_tool" negotiated, 0⟩
  | some tool =>
    if call.name ∈ registry.handlers then
      let execution := executeGovernedToolCall py tool call.arguments behaviour actorScope
        (.str negotiated)
      ⟨call.id, call.name, execution.envelope, execution.invocations⟩
    else
      ⟨call.id, call.name, errorEnvelope "invalid" s!"Tool {call.name} has no registered handler."
        "unknown_tool" negotiated, 0⟩

/-- The loop over the batch; `behaviour` is that of the handler during each of the calls. -/
def dispatchEach (registry : ToolRegistry) (actorScope : SessionActorScope) (negotiated : String)
    (behaviour : Nat → Behaviour) (position : Nat) (results : List ToolResult) :
    List ToolCall → List ToolResult
  | [] => results
  | call :: calls =>
    let result := dispatchToolCall py registry actorScope negotiated (behaviour position) call
    dispatchEach registry actorScope negotiated behaviour (position + 1) (results ++ [result]) calls

def dispatchToolCalls (registry : ToolRegistry) (calls : List ToolCall) (actor : SessionActor)
    (contractVersion : Value) (behaviour : Nat → Behaviour) : List ToolResult :=
  match negotiateSessionContractVersion contractVersion with
  | .error error => calls.map fun call =>
      ⟨call.id, call.name, .object (sessionContractErrorEnvelope error), 0⟩
  | .ok negotiated =>
    dispatchEach py registry (SessionActorScope.fromActor actor) negotiated behaviour 0 [] calls

end Dispatch

section Invocations

variable {py : Python} {tool : SessionToolManifest} {contractVersion : String}
  {behaviour : Behaviour} {attempt : Nat}

/-- From a turn on, the handler runs at most once for each attempt that is left. -/
theorem runAttempts_le (h : attempt ≤ tool.retryPolicy.maxAttempts) :
    (runAttempts tool contractVersion behaviour attempt).invocations + attempt ≤
      tool.retryPolicy.maxAttempts + 1 := by
  fun_induction runAttempts tool contractVersion behaviour attempt with
  | case1 => exact Nat.le_succ_of_le (by simpa using h)
  | case2 =>
    dsimp only
    omega
  | case3 attempt _ _ code _ hretry rest ih =>
    have hrest := ih hretry.2.2
    show (runAttempts tool contractVersion behaviour (attempt + 1)).invocations + 1 + attempt ≤ _
    omega
  | case4 =>
    dsimp only
    omega
  | case5 =>
    dsimp only
    omega
  | case6 =>
    dsimp only
    omega

/-- A tool that is not retryable runs its handler at most once. -/
theorem runAttempts_once (h : tool.retryable = false) :
    (runAttempts tool contractVersion behaviour attempt).invocations ≤ 1 := by
  unfold runAttempts
  dsimp only
  split
  · exact Nat.zero_le 1
  · split
    · exact le_rfl
    · rw [if_neg fun hretry => by simp [h] at hretry]
    · exact le_rfl
    · exact le_rfl

theorem runAttempts_first_le : (runAttempts tool contractVersion behaviour 1).invocations ≤
    tool.retryPolicy.maxAttempts := by
  have hle := @runAttempts_le tool contractVersion behaviour 1 tool.retryPolicy.attempts_pos
  omega

theorem retryable_eq_false
    (h : tool.sideEffectClass ≠ "read_only" ∨ tool.retryPolicy.mode = .never) :
    tool.retryable = false := by
  unfold SessionToolManifest.retryable
  rcases h with hclass | hmode
  · simp [hclass]
  · simp [hmode]

/-- A call either stops before its handler runs or goes through the loop. -/
theorem executeGovernedToolCall_cases (py : Python) (tool : SessionToolManifest)
    (arguments : List (String × Value)) (behaviour : Behaviour) (actorScope : SessionActorScope)
    (version : Value) :
    (executeGovernedToolCall py tool arguments behaviour actorScope version).invocations = 0 ∨
      validateArguments py tool.inputSchema arguments = [] ∧
        actorScope.allows tool.permissionRequirement ∧
        ∃ negotiated, executeGovernedToolCall py tool arguments behaviour actorScope version =
          runAttempts tool negotiated behaviour 1 := by
  unfold executeGovernedToolCall
  split
  · exact .inl rfl
  · rename_i negotiated _
    split
    · exact .inl rfl
    · rename_i hvalid
      split
      · rename_i hallows
        exact .inr ⟨hvalid, hallows, negotiated, rfl⟩
      · exact .inl rfl

end Invocations

section Batch

variable (py : Python) (registry : ToolRegistry) (actor : SessionActor) (version : Value)

/-- What a call has to pass before its handler runs. -/
structure Admitted (call : ToolCall) (tool : SessionToolManifest) : Prop where
  negotiated : (negotiateSessionContractVersion version).isOk
  named : registry.manifest.tool call.name = some tool
  registered : call.name ∈ registry.handlers
  valid : validateArguments py tool.inputSchema call.arguments = []
  permitted : (SessionActorScope.fromActor actor).allows tool.permissionRequirement

/-- The result of one call: it carries the call's name, its handler ran only if the call was
admitted, and within the bounds of the tool. -/
structure Governed (call : ToolCall) (result : ToolResult) : Prop where
  callId : result.callId = call.id
  toolName : result.toolName = call.name
  rejected : (∀ tool, ¬ Admitted py registry actor version call tool) → result.invocations = 0
  once : ∀ tool, registry.manifest.tool call.name = some tool →
    tool.sideEffectClass ≠ "read_only" ∨ tool.retryPolicy.mode = .never → result.invocations ≤ 1
  bounded : ∀ tool, registry.manifest.tool call.name = some tool →
    result.invocations ≤ tool.retryPolicy.maxAttempts

/-- A batch: one governed result for each call, in order, and each the result of its call alone. -/
structure GovernedBatch (calls : List ToolCall) (behaviour : Nat → Behaviour) : Prop where
  results : List.Forall₂ (Governed py registry actor version) calls
    (dispatchToolCalls py registry calls actor version behaviour)
  independent : ∀ i call, calls[i]? = some call →
    (dispatchToolCalls py registry calls actor version behaviour)[i]? =
      (dispatchToolCalls py registry [call] actor version fun _ => behaviour i)[0]?

variable {py registry actor version}

theorem dispatchEach_eq {actorScope : SessionActorScope} {negotiated : String}
    (behaviour : Nat → Behaviour) (position : Nat) (results : List ToolResult)
    (calls : List ToolCall) :
    dispatchEach py registry actorScope negotiated behaviour position results calls =
      results ++ calls.mapIdx fun i call =>
        dispatchToolCall py registry actorScope negotiated (behaviour (position + i)) call := by
  induction calls generalizing position results with
  | nil => rw [dispatchEach, List.mapIdx_nil, List.append_nil]
  | cons call calls ih =>
    rw [dispatchEach, ih, List.mapIdx_cons, List.append_assoc, List.singleton_append]
    simp only [Nat.add_assoc, Nat.add_comm 1, Nat.add_zero]

theorem rejected_governed {call : ToolCall} {envelope : Value} :
    Governed py registry actor version call ⟨call.id, call.name, envelope, 0⟩ :=
  ⟨rfl, rfl, fun _ => rfl, fun _ _ _ => Nat.zero_le _, fun _ _ => Nat.zero_le _⟩

theorem dispatchToolCall_governed {negotiated : String} (behaviour : Behaviour) (call : ToolCall)
    (hversion : (negotiateSessionContractVersion version).isOk) :
    Governed py registry actor version call (dispatchToolCall py registry
      (SessionActorScope.fromActor actor) negotiated behaviour call) := by
  unfold dispatchToolCall
  split
  · exact rejected_governed
  · rename_i tool htool
    split
    · rename_i hregistered
      have hcases := executeGovernedToolCall_cases py tool call.arguments behaviour
        (SessionActorScope.fromActor actor) (.str negotiated)
      have hunique : ∀ other, registry.manifest.tool call.name = some other → other = tool :=
        fun other hother => Option.some.inj (hother.symm.trans htool)
      refine ⟨rfl, rfl, ?_, ?_, ?_⟩
      · intro hrejected
        rcases hcases with hzero | ⟨hvalid, hpermitted, -⟩
        · exact hzero
        · exact absurd ⟨hversion, htool, hregistered, hvalid, hpermitted⟩ (hrejected tool)
      · intro other hother hclass
        obtain rfl := hunique other hother
        rcases hcases with hzero | ⟨-, -, negotiated', heq⟩
        · exact hzero.le.trans (Nat.zero_le 1)
        · exact (congrArg Execution.invocations heq).le.trans
            (runAttempts_once (retryable_eq_false hclass))
      · intro other hother
        obtain rfl := hunique other hother
        rcases hcases with hzero | ⟨-, -, negotiated', heq⟩
        · exact hzero.le.trans (Nat.zero_le _)
        · exact (congrArg Execution.invocations heq).le.trans runAttempts_first_le
    · exact rejected_governed

theorem forall₂_mapIdx {α β : Type} {R : α → β → Prop} {f : Nat → α → β} (h : ∀ i a, R a (f i a))
    (xs : List α) : List.Forall₂ R xs (xs.mapIdx f) := by
  induction xs generalizing f with
  | nil => exact .nil
  | cons x xs ih =>
    rw [List.mapIdx_cons]
    exact .cons (h 0 x) (ih fun i a => h (i + 1) a)

end Batch

end Cygnus.Session
