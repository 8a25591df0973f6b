import AgentLearning.Context

/-!
# Tool policy and tool registry

`agent-system/src/agent/policy.py` and `gateway/tool_registry.py`: which tools a request may call,
and how a call of a registered tool is turned into a result envelope. What a tool's handler does
comes from outside; `ToolReply` lists all it can do.
-/

namespace AgentLearning

structure ToolPermission where
  toolId : String
  requiresApprovalToken : Bool := false

structure ToolPolicyEngine where
  permissionMap : Dict String ToolPermission := ∅

def ToolPolicyEngine.isToolAllowed (engine : ToolPolicyEngine) (toolId : String)
    (request : AgentRequest) : Except PyError Bool :=
  if toolId ∉ request.allowedTools then .ok false
  else match engine.permissionMap.get? toolId with
    | none => .ok true
    | some permission =>
      if !permission.requiresApprovalToken then .ok true
      else match request.metadata with
        | .obj metadata => .ok ((getEntry "approval_token" metadata).getD .null).truthy
        | _ => .error (.attributeError "metadata has no attribute 'get'")

/-- How one call of a tool's handler ends: it returns, raises a `ToolExecutionError`, raises
anything else, or has not returned when the call's timeout runs out. -/
inductive ToolReply
  | returned (data : Json)
  | executionError (code message : String) (retryable : Bool)
  | exception (message : String)
  | timeout

structure ToolDefinition where
  toolId : String
  schemaPath : String

structure ToolRegistry where
  definitions : Dict String ToolDefinition := ∅

namespace ToolRegistry

def get (registry : ToolRegistry) (toolId : String) : Except PyError ToolDefinition :=
  match registry.definitions.get? toolId with
  | some definition => .ok definition
  | none => .error (.toolRegistryError s!"tool not registered: {toolId}")

def getSchemaPath (registry : ToolRegistry) (toolId : String) : Except PyError String := do
  let definition ← registry.get toolId
  pure definition.schemaPath

/-- `invoke`, with what the handler did; `none` while the handler has not returned. -/
def invoke (registry : ToolRegistry) (toolId : String) (reply : ToolReply) :
    Except PyError (Option ToolResult) := do
  let _ ← registry.get toolId
  match reply with
  | .returned data => pure (some { success := true, data })
  | .executionError code message retryable => pure (some (.failure code message retryable))
  | .exception message => pure (some (.failure "tool_runtime_exception" message false))
  | .timeout => pure none

end ToolRegistry

end AgentLearning
