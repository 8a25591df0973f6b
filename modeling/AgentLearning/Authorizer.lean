import AgentLearning.ToolCenter

/-!
# The tool authorizer

`src/gateway/authorizer.py`: a call passes three checks, of the caller's role, of the lists of its
tenant and of its confirmation of a sensitive tool, and whichever denies it first is recorded in the
log. Sets are lists that are only asked for membership. A caller is an object of the session, to
which a confirmation is added.
-/

namespace AgentLearning.Gateway

inductive Role
  | «public»
  | internal
  | admin
  deriving DecidableEq, Repr

def Role.value : Role → String
  | .public => "public"
  | .internal => "internal"
  | .admin => "admin"

/-- `Role(value)`, which raises for other values. -/
def Role.ofValue (value : String) : Option Role :=
  if value = "public" then some .public
  else if value = "internal" then some .internal
  else if value = "admin" then some .admin
  else none

/-- What a role includes. -/
def roleHierarchy : Role → List Role
  | .public => [.public]
  | .internal => [.public, .internal]
  | .admin => [.public, .internal, .admin]

structure CallerIdentity where
  callerId : String
  role : Role := .public
  tenant : String := "default"
  confirmedTools : List String := []

structure AuthDecision where
  allowed : Bool
  reason : String := ""
  requiresConfirmation : Bool := false

structure TenantPolicy where
  allowLists : Dict String (List String) := ∅
  denyLists : Dict String (List String) := ∅

namespace TenantPolicy

variable (policy : TenantPolicy) (tenant : String)

def setAllowList (tools : List String) : TenantPolicy :=
  { policy with allowLists := policy.allowLists.set tenant tools }

def setDenyList (tools : List String) : TenantPolicy :=
  { policy with denyLists := policy.denyLists.set tenant tools }

def isAllowed (toolName : String) : Bool :=
  if ((policy.denyLists.get? tenant).any fun tools => toolName ∈ tools) then false
  else match policy.allowLists.get? tenant with
    | some tools => toolName ∈ tools
    | none => true

end TenantPolicy

/-- An entry of the log. -/
structure Denial where
  timestamp : ℚ
  callerId : String
  callerRole : String
  tenant : String
  toolName : String
  toolVersion : String
  reason : String

structure ToolAuthorizer where
  tenantPolicy : TenantPolicy := {}
  denialLog : List Denial := []

namespace ToolAuthorizer

-- `str` of a list of strings, for the messages.
variable (listStr : List String → String) (authorizer : ToolAuthorizer) (caller : CallerIdentity)
  (tool : ToolMeta)

/-- The loop over the required roles that are left. -/
def checkRoleLoop : List String → AuthDecision
  | [] => {
      allowed := false
      reason := s!"Caller role '{caller.role.value}' insufficient. "
        ++ s!"Required: {listStr tool.requiredRoles}" }
  | required :: rest =>
    match Role.ofValue required with
    | none => {
        allowed := false
        reason := s!"Unknown required role '{required}' in tool config." }
    | some requiredRole =>
      if requiredRole ∈ roleHierarchy caller.role then { allowed := true }
      else checkRoleLoop rest

def checkRole : AuthDecision := checkRoleLoop listStr caller tool tool.requiredRoles

def checkTenant : AuthDecision :=
  if authorizer.tenantPolicy.isAllowed caller.tenant tool.name then { allowed := true }
  else {
    allowed := false
    reason := s!"Tenant '{caller.tenant}' denied access to '{tool.name}'." }

def checkSensitive : AuthDecision :=
  if !tool.isSensitive then { allowed := true }
  else if tool.name ∈ caller.confirmedTools then { allowed := true }
  else {
    allowed := false
    requiresConfirmation := true
    reason := s!"Tool '{tool.name}' is sensitive and requires explicit confirmation." }

def denial (reason : String) (now : ℚ) : Denial where
  timestamp := now
  callerId := caller.callerId
  callerRole := caller.role.value
  tenant := caller.tenant
  toolName := tool.name
  toolVersion := tool.version
  reason := reason

def recordDenial (reason : String) (now : ℚ) : ToolAuthorizer :=
  { authorizer with denialLog := authorizer.denialLog ++ [denial caller tool reason now] }

def authorize (now : ℚ) : AuthDecision × ToolAuthorizer :=
  let decision := checkRole listStr caller tool
  if !decision.allowed then (decision, authorizer.recordDenial caller tool decision.reason now)
  else
    let decision := authorizer.checkTenant caller tool
    if !decision.allowed then (decision, authorizer.recordDenial caller tool decision.reason now)
    else
      let decision := checkSensitive caller tool
      if !decision.allowed then (decision, authorizer.recordDenial caller tool decision.reason now)
      else ({ allowed := true }, authorizer)

/-- Only the caller changes. -/
def confirmSensitiveTool (toolName : String) : CallerIdentity :=
  { caller with confirmedTools := caller.confirmedTools ++ [toolName] }

end ToolAuthorizer

end AgentLearning.Gateway
