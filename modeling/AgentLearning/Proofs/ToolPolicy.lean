import Mathlib.Data.List.Perm.Basic
import AgentLearning.Authorizer
import AgentLearning.Lib.Trace

/-!
# The policy for tools

A decision is the conjunction of the three checks, and the log grows by what is denied. Over a
history of calls, a tenant's lists are those that were set last and a caller has confirmed what it
was told to. The documents say that an empty list of allowed tools allows all; one that was set to
be empty allows none. The required roles are looked at in order, up to the first that is unknown or
included.
-/

namespace AgentLearning.Gateway

open Trace

/-- The deny list is looked at first. -/
theorem TenantPolicy.isAllowed_iff {policy : TenantPolicy} {tenant toolName : String} :
    policy.isAllowed tenant toolName = true
      ↔ (∀ tools, policy.denyLists.get? tenant = some tools → toolName ∉ tools)
        ∧ ∀ tools, policy.allowLists.get? tenant = some tools → toolName ∈ tools := by
  unfold isAllowed
  rcases policy.denyLists.get? tenant with _ | denied
  · rcases policy.allowLists.get? tenant with _ | allowed <;> simp
  · by_cases hdenied : toolName ∈ denied
    · simp [hdenied]
    · rcases policy.allowLists.get? tenant with _ | allowed <;> simp [hdenied]

namespace ToolAuthorizer

/-! ## A decision -/

section Decision

variable (listStr : List String → String) (authorizer : ToolAuthorizer) (caller : CallerIdentity)
  (tool : ToolMeta) (now : ℚ)

/-- The caller's role includes a known role of this name. -/
def Includes (role : Role) (required : String) : Prop :=
  ∃ known, Role.ofValue required = some known ∧ known ∈ roleHierarchy role

/-- The caller does not need to confirm the tool, or has done so. -/
def NoGate : Prop := tool.isSensitive = true → tool.name ∈ caller.confirmedTools

theorem checkTenant_allowed : (authorizer.checkTenant caller tool).allowed
    = authorizer.tenantPolicy.isAllowed caller.tenant tool.name := by
  unfold checkTenant
  split_ifs with h
  · exact h.symm
  · exact (Bool.not_eq_true _ ▸ h).symm

theorem checkSensitive_allowed :
    (checkSensitive caller tool).allowed = true ↔ NoGate caller tool := by
  unfold checkSensitive NoGate
  rcases tool.isSensitive
  · simp
  · simp only [Bool.not_true, Bool.false_eq_true, if_false, forall_const]
    split_ifs with h <;> simp [h]

/-- The three checks, and the entry of the log for the one that denies. -/
theorem authorize_spec :
    ((authorizer.authorize listStr caller tool now).1.allowed = true
      ↔ (checkRole listStr caller tool).allowed = true
        ∧ authorizer.tenantPolicy.isAllowed caller.tenant tool.name = true
        ∧ NoGate caller tool)
    ∧ (authorizer.authorize listStr caller tool now).2.tenantPolicy = authorizer.tenantPolicy
    ∧ (authorizer.authorize listStr caller tool now).2.denialLog
      = if (authorizer.authorize listStr caller tool now).1.allowed then authorizer.denialLog
        else authorizer.denialLog ++ [denial caller tool
          (authorizer.authorize listStr caller tool now).1.reason now] := by
  rw [← checkTenant_allowed, ← checkSensitive_allowed]
  unfold authorize
  rcases hrole : (checkRole listStr caller tool).allowed
  · simp [hrole, recordDenial]
  · rcases htenant : (authorizer.checkTenant caller tool).allowed
    · simp [hrole, htenant, recordDenial]
    · rcases hsensitive : (checkSensitive caller tool).allowed
      · simp [hrole, htenant, hsensitive, recordDenial]
      · simp [hrole, htenant, hsensitive]

/-- The loop stops at the first role that is unknown or included. -/
theorem checkRoleLoop_allowed (required : List String) :
    (checkRoleLoop listStr caller tool required).allowed = true
      ↔ ∃ l₁ r l₂, required = l₁ ++ r :: l₂ ∧ Includes caller.role r
        ∧ ∀ other ∈ l₁, (Role.ofValue other).isSome = true := by
  induction required with
  | nil => simp [checkRoleLoop]
  | cons required rest ih =>
    rw [checkRoleLoop]
    rcases hknown : Role.ofValue required with _ | known
    · refine iff_of_false (by simp) ?_
      rintro ⟨l₁, r, l₂, heq, ⟨known, hr, -⟩, hbefore⟩
      rcases l₁ with _ | ⟨first, l₁⟩
      · rw [List.nil_append, List.cons.injEq] at heq
        simp [← heq.1, hknown] at hr
      · rw [List.cons_append, List.cons.injEq] at heq
        have := hbefore first (by simp)
        simp [← heq.1, hknown] at this
    · simp only
      split_ifs with hmem
      · exact iff_of_true rfl ⟨[], required, rest, rfl, ⟨known, hknown, hmem⟩, by simp⟩
      · rw [ih]
        constructor
        · rintro ⟨l₁, r, l₂, rfl, hr, hbefore⟩
          refine ⟨required :: l₁, r, l₂, rfl, hr, ?_⟩
          simpa [hknown] using hbefore
        · rintro ⟨l₁, r, l₂, heq, hr, hbefore⟩
          rcases l₁ with _ | ⟨first, l₁⟩
          · rw [List.nil_append, List.cons.injEq] at heq
            obtain ⟨known', hknown', hmem'⟩ := hr
            rw [← heq.1, hknown, Option.some.injEq] at hknown'
            exact absurd (hknown' ▸ hmem') hmem
          · rw [List.cons_append, List.cons.injEq] at heq
            exact ⟨l₁, r, l₂, heq.2, hr, fun other ho => hbefore other (List.mem_cons_of_mem _ ho)⟩

/-- Where all roles are known, one of them has to be included. -/
theorem checkRole_allowed_of_known
    (hknown : ∀ required ∈ tool.requiredRoles, (Role.ofValue required).isSome = true) :
    (checkRole listStr caller tool).allowed = true
      ↔ ∃ required ∈ tool.requiredRoles, Includes caller.role required := by
  rw [checkRole, checkRoleLoop_allowed]
  constructor
  · rintro ⟨l₁, r, l₂, heq, hr, -⟩
    exact ⟨r, by simp [heq], hr⟩
  · rintro ⟨r, hmem, hr⟩
    obtain ⟨l₁, l₂, heq⟩ := List.append_of_mem hmem
    exact ⟨l₁, r, l₂, heq, hr, fun other ho => hknown other (by simp [heq, ho])⟩

end Decision

/-! ## A history of calls -/

end ToolAuthorizer

/-- The calls on an authorizer and its policy, with the callers named by `κ`. -/
inductive AuthCall (κ : Type*)
  | setAllowList (tenant : String) (tools : List String)
  | setDenyList (tenant : String) (tools : List String)
  | confirmSensitiveTool (caller : κ) (toolName : String)
  | authorize (caller : κ) (tool : ToolMeta) (now : ℚ)

/-- An authorizer and the objects of its callers. -/
structure AuthSession (κ : Type*) where
  authorizer : ToolAuthorizer := {}
  callers : κ → CallerIdentity

namespace AuthSession

section

variable {κ : Type*} [DecidableEq κ] (listStr : List String → String)

def exec (session : AuthSession κ) : AuthCall κ → Option AuthDecision × AuthSession κ
  | .setAllowList tenant tools => (none, { session with
      authorizer.tenantPolicy := session.authorizer.tenantPolicy.setAllowList tenant tools })
  | .setDenyList tenant tools => (none, { session with
      authorizer.tenantPolicy := session.authorizer.tenantPolicy.setDenyList tenant tools })
  | .confirmSensitiveTool caller toolName => (none, { session with
      callers := Function.update session.callers caller
        (ToolAuthorizer.confirmSensitiveTool (session.callers caller) toolName) })
  | .authorize caller tool now =>
    let result := session.authorizer.authorize listStr (session.callers caller) tool now
    (some result.1, { session with authorizer := result.2 })

end

section History

variable {κ : Type*}

abbrev AuthEvent (κ : Type*) := Trace.Event (AuthSession κ) (AuthCall κ) (Option AuthDecision)

def allowChange (e : AuthEvent κ) : Option (String × Option (List String)) :=
  match e.input with
  | .setAllowList tenant tools => some (tenant, some tools)
  | _ => none

def denyChange (e : AuthEvent κ) : Option (String × Option (List String)) :=
  match e.input with
  | .setDenyList tenant tools => some (tenant, some tools)
  | _ => none

/-- What was set last for a tenant. -/
def latestAllowList (tr : List (AuthEvent κ)) : String → Option (List String) :=
  lastChanges allowChange tr

def latestDenyList (tr : List (AuthEvent κ)) : String → Option (List String) :=
  lastChanges denyChange tr

/-- The caller had confirmed the tool at the start, or has done so since. -/
def HasConfirmed (callers : κ → CallerIdentity) (tr : List (AuthEvent κ)) (caller : κ)
    (toolName : String) : Prop :=
  toolName ∈ (callers caller).confirmedTools
    ∨ ∃ e ∈ tr, e.input = .confirmSensitiveTool caller toolName

/-- What the documents ask for beside the tenant's list of allowed tools. -/
structure PassesOthers (callers : κ → CallerIdentity) (tr : List (AuthEvent κ)) (caller : κ)
    (tool : ToolMeta) : Prop where
  role : ∃ required ∈ tool.requiredRoles, ToolAuthorizer.Includes (callers caller).role required
  notDenied : ∀ tools, latestDenyList tr (callers caller).tenant = some tools → tool.name ∉ tools
  confirmed : tool.isSensitive = true → HasConfirmed callers tr caller tool.name

/-- The documented policy: a list of allowed tools restricts to the listed ones, unless it is
empty. -/
def Documented (callers : κ → CallerIdentity) (tr : List (AuthEvent κ)) (caller : κ)
    (tool : ToolMeta) : Prop :=
  PassesOthers callers tr caller tool ∧ ∀ tools,
    latestAllowList tr (callers caller).tenant = some tools → tools = [] ∨ tool.name ∈ tools

/-- What the session knows of the calls so far. -/
structure SessionLaw (callers : κ → CallerIdentity) (tr : List (AuthEvent κ))
    (session : AuthSession κ) : Prop where
  allow_eq : session.authorizer.tenantPolicy.allowLists.get? = latestAllowList tr
  deny_eq : session.authorizer.tenantPolicy.denyLists.get? = latestDenyList tr
  role_eq : ∀ caller, (session.callers caller).role = (callers caller).role
  tenant_eq : ∀ caller, (session.callers caller).tenant = (callers caller).tenant
  confirmed_iff : ∀ caller toolName, toolName ∈ (session.callers caller).confirmedTools
    ↔ HasConfirmed callers tr caller toolName

variable {callers : κ → CallerIdentity} {tr : List (AuthEvent κ)} {session : AuthSession κ}

theorem sessionLaw_init : SessionLaw callers [] ({ callers } : AuthSession κ) where
  allow_eq := rfl
  deny_eq := rfl
  role_eq _ := rfl
  tenant_eq _ := rfl
  confirmed_iff _ _ := by simp [HasConfirmed]

theorem hasConfirmed_concat {e : AuthEvent κ} {caller : κ} {toolName : String} :
    HasConfirmed callers (tr ++ [e]) caller toolName
      ↔ HasConfirmed callers tr caller toolName
        ∨ e.input = .confirmSensitiveTool caller toolName := by
  simp only [HasConfirmed, List.mem_append, List.mem_singleton, or_and_right, exists_or,
    exists_eq_left, or_assoc]

/-- What is allowed after a history of calls. -/
theorem SessionLaw.authorize_allowed {listStr : List String → String}
    (h : SessionLaw callers tr session) {caller : κ} {tool : ToolMeta} (now : ℚ)
    (hknown : ∀ required ∈ tool.requiredRoles, (Role.ofValue required).isSome = true) :
    (session.authorizer.authorize listStr (session.callers caller) tool now).1.allowed = true
      ↔ PassesOthers callers tr caller tool
        ∧ ∀ tools, latestAllowList tr (callers caller).tenant = some tools → tool.name ∈ tools := by
  rw [(ToolAuthorizer.authorize_spec ..).1, ToolAuthorizer.checkRole_allowed_of_known _ _ _ hknown,
    TenantPolicy.isAllowed_iff, h.allow_eq, h.deny_eq, h.role_eq, h.tenant_eq,
    ToolAuthorizer.NoGate, h.confirmed_iff]
  constructor
  · rintro ⟨hrole, ⟨hdeny, hallow⟩, hgate⟩
    exact ⟨⟨hrole, hdeny, hgate⟩, hallow⟩
  · rintro ⟨⟨hrole, hdeny, hgate⟩, hallow⟩
    exact ⟨hrole, ⟨hdeny, hallow⟩, hgate⟩

variable [DecidableEq κ] {listStr : List String → String}

/-- A confirmation, which changes one caller. -/
theorem SessionLaw.confirm (h : SessionLaw callers tr session) (caller : κ) (toolName : String) :
    SessionLaw callers
      (tr ++ [event (exec listStr) session (.confirmSensitiveTool caller toolName)])
      (exec listStr session (.confirmSensitiveTool caller toolName)).2 := by
  have hcallers (other : κ) :
      (exec listStr session (.confirmSensitiveTool caller toolName)).2.callers other
        = if other = caller
          then ToolAuthorizer.confirmSensitiveTool (session.callers caller) toolName
          else session.callers other := Function.update_apply ..
  refine ⟨h.allow_eq.trans (lastChanges_concat_none rfl).symm,
    h.deny_eq.trans (lastChanges_concat_none rfl).symm, fun other => ?_, fun other => ?_,
    fun other name => ?_⟩
  · rw [hcallers, ← h.role_eq]
    split_ifs with hother
    · rw [hother]
      rfl
    · rfl
  · rw [hcallers, ← h.tenant_eq]
    split_ifs with hother
    · rw [hother]
      rfl
    · rfl
  · rw [hcallers, hasConfirmed_concat, ← h.confirmed_iff, event_input]
    split_ifs with hother
    · subst hother
      simp [ToolAuthorizer.confirmSensitiveTool, eq_comm]
    · simp [Ne.symm hother]

theorem SessionLaw.step (h : SessionLaw callers tr session) (call : AuthCall κ) :
    SessionLaw callers (tr ++ [event (exec listStr) session call])
      (exec listStr session call).2 := by
  -- Lists that were not set, and confirmations that were not given, are as before.
  have hallow (hnone : allowChange (event (exec listStr) session call) = none) :
      latestAllowList (tr ++ [event (exec listStr) session call]) = latestAllowList tr :=
    lastChanges_concat_none hnone
  have hdeny (hnone : denyChange (event (exec listStr) session call) = none) :
      latestDenyList (tr ++ [event (exec listStr) session call]) = latestDenyList tr :=
    lastChanges_concat_none hnone
  have hconfirmed (hnot : ∀ caller toolName, call ≠ .confirmSensitiveTool caller toolName)
      (caller : κ) (toolName : String) : toolName ∈ (session.callers caller).confirmedTools
        ↔ HasConfirmed callers (tr ++ [event (exec listStr) session call]) caller toolName := by
    rw [hasConfirmed_concat, event_input, or_iff_left (hnot caller toolName)]
    exact h.confirmed_iff caller toolName
  rcases call with ⟨tenant, tools⟩ | ⟨tenant, tools⟩ | ⟨caller, toolName⟩ | ⟨caller, tool, now⟩
  · refine ⟨?_, h.deny_eq.trans (hdeny rfl).symm, h.role_eq, h.tenant_eq,
      hconfirmed (by simp)⟩
    have hset : allowChange (event (exec listStr) session (.setAllowList tenant tools))
        = some (tenant, some tools) := rfl
    rw [latestAllowList, lastChanges_concat_some hset]
    refine (Dict.get?_set_eq ..).trans ?_
    rw [h.allow_eq, latestAllowList]
  · refine ⟨h.allow_eq.trans (hallow rfl).symm, ?_, h.role_eq, h.tenant_eq,
      hconfirmed (by simp)⟩
    have hset : denyChange (event (exec listStr) session (.setDenyList tenant tools))
        = some (tenant, some tools) := rfl
    rw [latestDenyList, lastChanges_concat_some hset]
    refine (Dict.get?_set_eq ..).trans ?_
    rw [h.deny_eq, latestDenyList]
  · exact h.confirm caller toolName
  · refine ⟨?_, ?_, h.role_eq, h.tenant_eq, hconfirmed (by simp)⟩
    · rw [hallow rfl, ← h.allow_eq]
      exact congrArg (fun policy => policy.allowLists.get?)
        (ToolAuthorizer.authorize_spec ..).2.1
    · rw [hdeny rfl, ← h.deny_eq]
      exact congrArg (fun policy => policy.denyLists.get?)
        (ToolAuthorizer.authorize_spec ..).2.1

theorem sessionLaw_run (callers : κ → CallerIdentity) (calls : List (AuthCall κ)) :
    SessionLaw callers (events (exec listStr) { callers } calls)
      (final (exec listStr) { callers } calls) :=
  history_induct sessionLaw_init fun _ _ call _ h => h.step call

/-- The decision is the documented one, and every denial is recorded once, just if the tenant's last
list of allowed tools is not an empty one, or the call is denied for another reason. -/
theorem authorize_documented_iff (listStr : List String → String) (callers : κ → CallerIdentity)
    (calls : List (AuthCall κ)) (caller : κ) (tool : ToolMeta)
    (hknown : ∀ required ∈ tool.requiredRoles, (Role.ofValue required).isSome = true) (now : ℚ) :
    let tr := events (exec listStr) { callers } calls
    let session := final (exec listStr) { callers } calls
    let result := session.authorizer.authorize listStr (session.callers caller) tool now
    ((result.1.allowed = true ↔ Documented callers tr caller tool)
      ∧ (result.1.allowed = true → result.2.denialLog = session.authorizer.denialLog)
      ∧ (result.1.allowed = false →
        ∃ entry, result.2.denialLog = session.authorizer.denialLog ++ [entry]))
    ↔ (latestAllowList tr (callers caller).tenant = some [] →
        ¬ PassesOthers callers tr caller tool) := by
  intro tr session result
  have hlaw : SessionLaw callers tr session := sessionLaw_run callers calls
  have hallowed : result.1.allowed = true ↔ _ := hlaw.authorize_allowed now hknown
  have hlog : result.2.denialLog = _ := (ToolAuthorizer.authorize_spec ..).2.2
  have hrecorded : (result.1.allowed = true →
        result.2.denialLog = session.authorizer.denialLog)
      ∧ (result.1.allowed = false →
        ∃ entry, result.2.denialLog = session.authorizer.denialLog ++ [entry]) := by
    refine ⟨fun h => ?_, fun h => ?_⟩
    · rw [hlog, if_pos h]
    · exact ⟨_, hlog.trans (if_neg (ne_true_of_eq_false h))⟩
  rw [and_iff_left hrecorded, hallowed, Documented]
  rcases latestAllowList tr (callers caller).tenant with _ | tools
  · simp
  · rcases tools with _ | ⟨first, tools⟩
    · simp
    · simp

/-- An empty list of allowed tools is replaced, and a sensitive tool confirmed. -/
theorem authorize_documented_iff_replaced :
    let tool : ToolMeta :=
      { name := "search", version := "1", description := "", isSensitive := true,
        requiredRoles := ["internal", "public"], registeredAt := 0, updatedAt := 0 }
    let callers : String → CallerIdentity := fun name => { callerId := name, tenant := "acme" }
    let calls := [.setAllowList "acme" [], .confirmSensitiveTool "bob" "search",
      .setAllowList "acme" ["search"], .setDenyList "acme" ["delete"]]
    let tr := events (exec fun _ => "") { callers } calls
    let session := final (exec fun _ => "") { callers } calls
    (session.authorizer.authorize (fun _ => "") (session.callers "bob") tool 1).1.allowed = true
      ↔ Documented callers tr "bob" tool := by
  intro tool callers calls tr session
  refine ((authorize_documented_iff (fun _ => "") callers calls "bob" tool (by decide) 1).mpr ?_).1
  intro hempty
  have hlast : latestAllowList tr (callers "bob").tenant = some ["search"] := by decide
  simp [tr, hlast] at hempty

/-- A tenant whose list of allowed tools was set to be empty may call none. -/
theorem authorize_documented_iff_fails_on_empty :
    let tool : ToolMeta :=
      { name := "search", version := "1", description := "", registeredAt := 0, updatedAt := 0 }
    let callers : String → CallerIdentity := fun name => { callerId := name, tenant := "acme" }
    let calls := [.setAllowList "acme" []]
    let tr := events (exec fun _ => "") { callers } calls
    let session := final (exec fun _ => "") { callers } calls
    ¬ ((session.authorizer.authorize (fun _ => "") (session.callers "bob") tool 1).1.allowed = true
      ↔ Documented callers tr "bob" tool) := by
  intro tool callers calls tr session h
  have hdocumented : Documented callers tr "bob" tool := by
    have hallow : latestAllowList tr (callers "bob").tenant = some [] := by decide
    have hdeny : latestDenyList tr (callers "bob").tenant = none := by decide
    refine ⟨⟨⟨"public", by simp [tool], Role.public, rfl, by decide⟩, ?_, ?_⟩, ?_⟩
    · simp [hdeny]
    · simp [tool]
    · simp [hallow]
  have hdenied : (session.authorizer.authorize (fun _ => "") (session.callers "bob") tool
      1).1.allowed = false := by decide
  rw [hdenied] at h
  simp [hdocumented] at h

end History

end AuthSession

/-! ## The required roles as a set -/

namespace ToolAuthorizer

section Roles

variable (listStr : List String → String) (authorizer : ToolAuthorizer) (caller : CallerIdentity)
  (tool : ToolMeta) (now : ℚ)

/-- One of the required roles is unknown, and another one is included in the caller's. -/
def Mixed (role : Role) (required : List String) : Prop :=
  (∃ r ∈ required, Role.ofValue r = none) ∧ ∃ r ∈ required, Includes role r

/-- The same decision for the required roles in any order, and for a caller with a higher role if it
is to allow the call. -/
def RolesAreSet : Prop :=
  (∀ required, required.Perm tool.requiredRoles →
    (authorizer.authorize listStr caller { tool with requiredRoles := required } now).1.allowed
      = (authorizer.authorize listStr caller tool now).1.allowed)
  ∧ ∀ role, (∀ r ∈ roleHierarchy caller.role, r ∈ roleHierarchy role) →
    (authorizer.authorize listStr caller tool now).1.allowed = true →
    (authorizer.authorize listStr { caller with role } tool now).1.allowed = true

/-- An unknown role first, and nothing else is looked at. -/
theorem checkRole_of_perm_unknown {r : String} (hmem : r ∈ tool.requiredRoles)
    (hr : Role.ofValue r = none) : ∃ reordered : List String, reordered.Perm tool.requiredRoles
      ∧ (checkRole listStr caller { tool with requiredRoles := reordered }).allowed = false := by
  refine ⟨r :: tool.requiredRoles.erase r, (List.perm_cons_erase hmem).symm, ?_⟩
  simp [checkRole, checkRoleLoop, hr]

/-- An included role first, and nothing else is looked at. -/
theorem checkRole_of_perm_included {r : String} (hmem : r ∈ tool.requiredRoles)
    (hr : Includes caller.role r) : ∃ reordered : List String,
      reordered.Perm tool.requiredRoles
      ∧ (checkRole listStr caller { tool with requiredRoles := reordered }).allowed = true := by
  obtain ⟨known, hknown, hincluded⟩ := hr
  refine ⟨r :: tool.requiredRoles.erase r, (List.perm_cons_erase hmem).symm, ?_⟩
  simp [checkRole, checkRoleLoop, hknown, hincluded]

variable {listStr authorizer caller tool now}

/-- Without both kinds of roles, their order does not matter. -/
theorem checkRole_perm (hmixed : ¬ Mixed caller.role tool.requiredRoles) {required : List String}
    (hperm : required.Perm tool.requiredRoles) :
    (checkRole listStr caller { tool with requiredRoles := required }).allowed = true
      ↔ (checkRole listStr caller tool).allowed = true := by
  unfold Mixed at hmixed
  by_cases hincluded : ∃ r ∈ tool.requiredRoles, Includes caller.role r
  · have hknown (r : String) (hmem : r ∈ tool.requiredRoles) :
        (Role.ofValue r).isSome = true := by
      rw [Option.isSome_iff_ne_none]
      exact fun hr => hmixed ⟨⟨r, hmem, hr⟩, hincluded⟩
    rw [checkRole_allowed_of_known _ _ _ hknown, checkRole_allowed_of_known]
    · simp only [hperm.mem_iff]
    · exact fun r hmem => hknown r (hperm.mem_iff.mp hmem)
  · have hdenied (required : List String) (hperm : required.Perm tool.requiredRoles) :
        ¬ (checkRole listStr caller { tool with requiredRoles := required }).allowed = true := by
      rw [checkRole, checkRoleLoop_allowed]
      rintro ⟨l₁, r, l₂, heq, hr, -⟩
      refine hincluded ⟨r, hperm.mem_iff.mp ?_, hr⟩
      simp only at heq
      simp [heq]
    exact iff_of_false (hdenied required hperm) (hdenied _ (.refl _))

/-- Who includes more is allowed more. -/
theorem checkRole_mono {role : Role}
    (hrole : ∀ r ∈ roleHierarchy caller.role, r ∈ roleHierarchy role)
    (h : (checkRole listStr caller tool).allowed = true) :
    (checkRole listStr { caller with role } tool).allowed = true := by
  rw [checkRole, checkRoleLoop_allowed] at h ⊢
  obtain ⟨l₁, r, l₂, heq, ⟨known, hknown, hincluded⟩, hbefore⟩ := h
  exact ⟨l₁, r, l₂, heq, ⟨known, hknown, hrole known hincluded⟩, hbefore⟩

variable (listStr authorizer caller tool now)

/-- The decision depends on the order of the required roles just if one of them is unknown, another
one included, and nothing else is in the way. -/
theorem rolesAreSet_iff : RolesAreSet listStr authorizer caller tool now
    ↔ ¬ (Mixed caller.role tool.requiredRoles
      ∧ authorizer.tenantPolicy.isAllowed caller.tenant tool.name = true
      ∧ NoGate caller tool) := by
  have hallowed (required : List String) :
      (authorizer.authorize listStr caller { tool with requiredRoles := required } now).1.allowed
        = true ↔ (checkRole listStr caller { tool with requiredRoles := required }).allowed = true
          ∧ authorizer.tenantPolicy.isAllowed caller.tenant tool.name = true
          ∧ NoGate caller tool := (authorize_spec ..).1
  constructor
  · rintro ⟨hset, -⟩ ⟨⟨⟨u, hu, hunknown⟩, r, hr, hincluded⟩, hothers⟩
    obtain ⟨first, hfirst, hdenied⟩ :=
      checkRole_of_perm_unknown listStr caller tool hu hunknown
    obtain ⟨second, hsecond, hgranted⟩ :=
      checkRole_of_perm_included listStr caller tool hr hincluded
    have hsame := (hset first hfirst).trans (hset second hsecond).symm
    rw [(hallowed second).mpr ⟨hgranted, hothers⟩, hallowed first, hdenied] at hsame
    exact absurd hsame.1 Bool.false_ne_true
  · intro hnot
    refine ⟨fun required hperm => Bool.eq_iff_iff.mpr ?_, fun role hrole h => ?_⟩
    · rw [hallowed required, (authorize_spec ..).1]
      by_cases hothers : authorizer.tenantPolicy.isAllowed caller.tenant tool.name = true
          ∧ NoGate caller tool
      · rw [checkRole_perm (fun hmixed => hnot ⟨hmixed, hothers⟩) hperm]
      · simp only [hothers, and_false]
    · rw [(authorize_spec ..).1] at h ⊢
      exact ⟨checkRole_mono hrole h.1, h.2⟩

/-- An unknown role that stands first keeps an admin from a public tool. -/
theorem rolesAreSet_iff_fails_on_mixed :
    let tool : ToolMeta :=
      { name := "search", version := "1", description := "", requiredRoles := ["public", "root"],
        registeredAt := 0, updatedAt := 0 }
    ¬ RolesAreSet (fun _ => "") {} { callerId := "bob", role := .admin } tool 1 := by
  intro tool h
  have hsame := h.1 ["root", "public"] (List.Perm.swap ..)
  revert hsame
  decide

end Roles

end ToolAuthorizer

end AgentLearning.Gateway
