import AgentLearning.Proofs.ExpectedErrors
import AgentLearning.Proofs.GroupMetrics

/-!
# What becomes of a sample that names a tool

A sample's gateway is new, so its circuit is closed, its bucket is full unless the clock went back,
and its quota is untouched: what becomes of the sample is decided by the parameters, the role of the
caller and that one reading (`runGatewaySample_exact`). Every such sample has a result, and the
summary of a dataset of them counts just these.
-/

namespace AgentLearning

namespace Gateway.ToolValidator

open ContractValidator (HasField HasType)

/-- A result that is not valid says why. -/
def Explained (result : ValidationResult) : Prop := result.valid = false → result.errors ≠ []

variable {pyStr : Json → String} {params : List (String × Json)} {result checked : ValidationResult}

theorem explained_addError (issue : ValidationIssue) : Explained (result.addError issue) := by
  simp [Explained, ValidationResult.addError]

theorem explained_checkRequired {fieldName : Json} (h : Explained result)
    (hok : checkRequired pyStr params result fieldName = .ok checked) : Explained checked := by
  unfold checkRequired at hok
  rcases hin : inParams params fieldName with error | given
  · simp [hin, bind, Except.bind] at hok
  · cases given <;> simp only [hin, bind, Except.bind, pure, Except.pure, Bool.false_eq_true,
      if_true, if_false, Except.ok.injEq] at hok
    · exact hok ▸ explained_addError _
    · exact hok ▸ h

theorem explained_foldlM : ∀ (required : List Json) {result : ValidationResult}, Explained result →
    required.foldlM (checkRequired pyStr params) result = .ok checked → Explained checked
  | [], result, h, hok => by
    simp only [List.foldlM_nil, pure, Except.pure, Except.ok.injEq] at hok
    exact hok ▸ h
  | fieldName :: required, result, h, hok => by
    rw [List.foldlM_cons] at hok
    rcases hfirst : checkRequired pyStr params result fieldName with error | next
    · simp [hfirst, bind, Except.bind] at hok
    · simp only [hfirst, bind, Except.bind] at hok
      exact explained_foldlM required (explained_checkRequired h hfirst) hok

theorem explained_checkProperty (h : Explained result) (property : String × Json) :
    Explained (checkProperty pyStr params result property) := by
  unfold checkProperty
  split_ifs
  · exact h
  · rcases getEntry property.1 params with _ | value
    · exact h
    · simp only
      split_ifs
      · exact h
      · exact h
      · exact h
      · exact explained_addError _

theorem explained_foldl : ∀ (properties : List (String × Json)) {result : ValidationResult},
    Explained result → Explained (properties.foldl (checkProperty pyStr params) result)
  | [], _, h => h
  | property :: properties, _, h => explained_foldl properties (explained_checkProperty h property)

theorem explained_validateSchema {tool : ToolMeta} (h : Explained result)
    (hok : validateSchema pyStr tool params result = .ok checked) : Explained checked := by
  unfold validateSchema at hok
  simp only [bind, Except.bind, pure, Except.pure] at hok
  split_ifs at hok
  · cases hok
    exact h
  · rcases hiterate : iterate ((getEntry "required" tool.inputSchema).getD (.arr [])) with
      error | required
    · simp [hiterate] at hok
    · rcases hrequired : required.foldlM (checkRequired pyStr params) result with error | next
      · simp [hiterate, hrequired] at hok
      · simp only [hiterate, hrequired] at hok
        split at hok
        · cases hok
          exact explained_foldl _ (explained_foldlM _ h hrequired)
        · cases hok

theorem explained_validateQuota {calendar : Calendar} {tracker : QuotaTracker} {tool : ToolMeta}
    {clock : ValidateClock} (h : Explained result) :
    Explained (validateQuota calendar tracker tool result clock).1 := by
  unfold validateQuota
  simp only
  split_ifs <;> first | exact h | exact explained_addError _

end Gateway.ToolValidator

namespace Evaluation

open Gateway ToolValidator

/-! ## A new gateway -/

/-- Nothing was called on the gateway. -/
structure Unused (runtime : GatewayRuntime) : Prop where
  quotaTracker : runtime.quotaTracker = {}
  authorizer : runtime.authorizer = {}
  circuitBreaker : runtime.circuitBreaker =
    { config := { failureThreshold := 1, recoveryTimeout := 5 } }
  rateLimiter : runtime.rateLimiter = {}
  auditLog : runtime.auditLog = []

/-- The tool that is registered under a name is called so. -/
def defaultHandler (name : String) : Option Handler :=
  if "admin_export" = name then some adminExportHandler
  else if "merchant_lookup" = name then some merchantLookupHandler
  else if "web_search" = name then some webSearchHandler
  else none

theorem registerTool_ok {runtime registered : GatewayRuntime} {tool : ToolMeta} {handler : Handler}
    (h : runtime.registerTool tool handler = .ok registered) :
    registered = { runtime with
      registry := (runtime.registry.register tool).2
      handlers := runtime.handlers.set tool.name handler } := by
  unfold GatewayRuntime.registerTool at h
  rcases hregister : runtime.registry.register tool with ⟨error | found, registry⟩
  · simp [hregister, bind, Except.bind] at h
  · simp only [hregister, bind, Except.bind, pure, Except.pure, Except.ok.injEq] at h
    exact h.symm

theorem buildDefault_unused (toolTimes : String → ℚ × ℚ) :
    ∃ runtime, GatewayRuntime.buildDefault toolTimes = .ok runtime ∧ Unused runtime
      ∧ (∀ name, runtime.registry.get name none = defaultTool toolTimes name)
      ∧ ∀ name, runtime.handlers.get? name = defaultHandler name := by
  obtain ⟨runtime, hbuilt, -, -, hget⟩ := GatewayRuntime.buildDefault_spec toolTimes
  have hchain := hbuilt
  unfold GatewayRuntime.buildDefault GatewayRuntime.registerDefaultTools at hchain
  rcases hfirst : ({} : GatewayRuntime).registerTool (webSearch (toolTimes "web_search"))
    webSearchHandler with error | first
  · simp [hfirst, bind, Except.bind] at hchain
  · rcases hsecond : first.registerTool (merchantLookup (toolTimes "merchant_lookup"))
      merchantLookupHandler with error | second
    · simp [hfirst, hsecond, bind, Except.bind] at hchain
    · simp only [hfirst, hsecond, bind, Except.bind] at hchain
      have hthird := registerTool_ok hchain
      have hsecond := registerTool_ok hsecond
      have hfirst := registerTool_ok hfirst
      subst hfirst hsecond hthird
      refine ⟨_, hbuilt, ⟨rfl, rfl, rfl, rfl, rfl⟩, hget, fun name => ?_⟩
      simp only [Dict.get?_set, Dict.get?_empty]
      rfl

/-! ## The checks of a new gateway -/

section Checks

variable {fs : RunnerFunctions} {readings : GatewayReadings} {sample : EvalSample}
  {toolTimes : String → ℚ × ℚ} {tool : ToolMeta}

theorem defaultTool_layout {name : String} (h : defaultTool toolTimes name = some tool) :
    tool.name = name ∧ tool.status = .available
      ∧ ∃ required properties, HasLayout tool.inputSchema required properties := by
  unfold defaultTool at h
  split_ifs at h with hadmin hmerchant hweb <;> cases h
  · exact ⟨hadmin, rfl, ["scope"], [("scope", typeSpec "string")],
      objectSchema_layout "scope" (by simp)⟩
  · exact ⟨hmerchant, rfl, ["merchant_id"], [("merchant_id", typeSpec "string")],
      objectSchema_layout "merchant_id" (by simp)⟩
  · have htopK : (declaredType (typeSpec "integer")).isSome = true := rfl
    exact ⟨hweb, rfl, ["query"], [("query", typeSpec "string"), ("top_k", typeSpec "integer")],
      objectSchema_layout "query" (by simpa using htopK)⟩

/-- The validator always answers, and says why it rejects. -/
theorem validate_explained (fs : RunnerFunctions) {runtime : GatewayRuntime}
    (hget : ∀ name, runtime.registry.get name none = defaultTool toolTimes name)
    (name : String) (params : List (String × Json)) (clock : ValidateClock) :
    ∃ result, (ToolValidator.validate fs.pyStr fs.calendar runtime.quotaTracker runtime.registry
      name params clock).1 = .ok result ∧ Explained result := by
  unfold ToolValidator.validate
  rw [hget name]
  rcases htool : defaultTool toolTimes name with _ | tool
  · exact ⟨_, rfl, explained_addError _⟩
  · obtain ⟨-, hstatus, required, properties, hlayout⟩ := defaultTool_layout htool
    obtain ⟨checked, hschema, -⟩ :=
      validateSchema_valid fs.pyStr params {} hlayout
    have hempty : Explained {} := by simp [Explained]
    simp only [hstatus, ne_eq, not_true_eq_false, if_false, hschema]
    exact ⟨_, rfl, explained_validateQuota (explained_validateSchema hempty hschema)⟩

/-- What the caller may call. Nothing confirms the export, which is sensitive. -/
def Permitted (sample : EvalSample) : Prop :=
  sample.toolName = some "web_search"
    ∨ sample.toolName = some "merchant_lookup"
      ∧ (sample.callerRole = "internal" ∨ sample.callerRole = "admin")

theorem authorize_buildCaller
    (htool : defaultTool toolTimes (sample.toolName.getD "") = some tool) (now : ℚ) :
    (({} : ToolAuthorizer).authorize fs.listStr (GatewayRuntime.buildCaller sample) tool
      now).1.allowed = true ↔ Permitted sample := by
  unfold defaultTool at htool
  simp only [getD_eq_iff (show "admin_export" ≠ "" by simp),
    getD_eq_iff (show "merchant_lookup" ≠ "" by simp),
    getD_eq_iff (show "web_search" ≠ "" by simp)] at htool
  unfold Permitted
  split_ifs at htool with hadmin hmerchant hweb <;> cases htool
  · rw [hadmin]
    simp [ToolAuthorizer.authorize, ToolAuthorizer.checkRole, ToolAuthorizer.checkSensitive,
      adminExport, GatewayRuntime.buildCaller]
    split_ifs <;> simp_all
  · rw [hmerchant]
    simp [ToolAuthorizer.authorize, ToolAuthorizer.checkRole, ToolAuthorizer.checkRoleLoop,
      ToolAuthorizer.checkTenant, TenantPolicy.isAllowed, ToolAuthorizer.checkSensitive,
      merchantLookup, GatewayRuntime.buildCaller, Role.ofValue]
    split_ifs <;> simp_all [roleHierarchy]
  · rw [hweb]
    simp [ToolAuthorizer.authorize, ToolAuthorizer.checkRole, ToolAuthorizer.checkRoleLoop,
      ToolAuthorizer.checkTenant, TenantPolicy.isAllowed, ToolAuthorizer.checkSensitive,
      webSearch, GatewayRuntime.buildCaller, Role.ofValue]
    split_ifs <;> simp_all [roleHierarchy]

/-- The clock went back so far, between the two readings, that the new bucket lost its tokens. -/
def Limited (readings : GatewayReadings) : Prop :=
  20 + (readings.refill.now - readings.refill.created) * 10 < 1

theorem acquire_new (callerId : String) (clock : RefillClock) :
    ∃ result, (({} : RateLimiter).acquire callerId 1 clock).1 = .ok result
      ∧ (result.allowed = true ↔ ¬ 20 + (clock.now - clock.created) * 10 < 1) := by
  obtain ⟨result, hresult⟩ := RateLimiter.acquire_fresh callerId 1 clock
  refine ⟨result, hresult, ?_⟩
  have htokens : (({} : RateLimiter).refilled callerId clock).tokens
      = min (20 + (clock.now - clock.created) * 10) 20 := by
    simp [RateLimiter.refilled, RateLimiter.refill, RateLimiter.getBucket]
  have hle : (((1 : ℤ) : ℚ) ≤ (({} : RateLimiter).refilled callerId clock).tokens)
      ↔ ¬ 20 + (clock.now - clock.created) * 10 < 1 := by
    rw [htokens, Int.cast_one, le_min_iff, not_lt]
    exact and_iff_left (by norm_num)
  rw [← hle]
  by_cases henough : ((1 : ℤ) : ℚ) ≤ (({} : RateLimiter).refilled callerId clock).tokens
  · simp only [RateLimiter.acquire, henough, if_true, Except.ok.injEq] at hresult
    exact iff_of_true (hresult ▸ rfl) henough
  · simp only [RateLimiter.acquire, henough, if_false] at hresult
    rcases hbackoff : ({} : RateLimiter).backoff
      ((({} : RateLimiter).refilled callerId clock).consecutiveRejections + 1) with error | backoff
    · simp [hbackoff, Except.map] at hresult
    · simp only [hbackoff, Except.map, Except.ok.injEq] at hresult
      exact iff_of_false (by simp [← hresult]) henough

theorem allowRequest_new (toolName : String) (clock : CircuitClock) :
    (({ config := { failureThreshold := 1, recoveryTimeout := 5 } } :
      CircuitBreaker InMemoryCircuitStateBackend).allowRequest toolName clock).1 = true := by
  rfl

/-- The tool that the sample names answers what fits its schema. -/
theorem invoke_ok {runtime : GatewayRuntime}
    (hhandlers : ∀ name, runtime.handlers.get? name = defaultHandler name)
    (hfits : FitsSchema sample) {name : String} (hname : sample.toolName = some name) :
    ∃ response, runtime.invoke name sample.toolParams = .ok response := by
  unfold GatewayRuntime.invoke
  rw [hhandlers]
  rcases hfits with ⟨hweb, ⟨s, hs⟩, -⟩ | ⟨hmerchant, s, hs⟩ | ⟨hadmin, s, hs⟩
  · obtain rfl := Option.some.inj (hname.symm.trans hweb)
    simp [defaultHandler, webSearchHandler, paramItem, hs, bind, Except.bind, pure, Except.pure]
  · obtain rfl := Option.some.inj (hname.symm.trans hmerchant)
    simp [defaultHandler, merchantLookupHandler, paramItem, hs, bind, Except.bind, pure,
      Except.pure]
  · obtain rfl := Option.some.inj (hname.symm.trans hadmin)
    simp [defaultHandler, adminExportHandler, paramItem, hs, bind, Except.bind, pure, Except.pure]

end Checks

/-! ## What becomes of a sample -/

inductive Fate
  | rejected
  | unauthorized
  | rateLimited
  | passed
  deriving DecidableEq

namespace Fate

def steps : Fate → List (String × Bool)
  | rejected => [("validation", false)]
  | unauthorized => [("validation", true), ("authorization", false)]
  | rateLimited => [("validation", true), ("authorization", true), ("rate_limit", false)]
  | passed =>
    [("validation", true), ("authorization", true), ("rate_limit", true), ("execution", true)]

/-- The error that the sample has to expect. -/
def error : Fate → Option String
  | rejected => none
  | unauthorized => some "unauthorized"
  | rateLimited => some "rate_limited"
  | passed => none

def auditEntries : Fate → ℕ
  | passed => 2
  | _ => 1

def toolCalls : Fate → ℕ
  | passed => 1
  | _ => 0

/-- The result of a sample with this fate. -/
structure Reports (fate : Fate) (sample : EvalSample) (r : EvalCaseResult) : Prop where
  steps : r.stepOutcomes.entries = fate.steps
  auditEntries : r.auditEntries = fate.auditEntries
  toolCalls : r.toolCalls = fate.toolCalls
  validationRejected : r.validationRejected = true ↔ fate = rejected
  authDenied : r.authDenied = true ↔ fate = unauthorized
  circuitOpened : r.circuitOpened = false
  errorCode : (fate = rejected ∧ ∃ n, r.errorCode = some (.number n))
    ∨ fate ≠ rejected ∧ r.errorCode = fate.error.map .name
  success : r.success = true ↔ fate ≠ rejected ∧ sample.expectError = fate.error

end Fate

section Outcome

variable {fs : RunnerFunctions} {readings : GatewayReadings} {sample : EvalSample}

theorem expects_name (errorCode : String) :
    expects sample (.name errorCode) = true ↔ sample.expectError = some errorCode := by
  unfold expects
  rcases sample.expectError with _ | expected <;> simp

theorem reports_build {fate : Fate} {outcome : GatewayOutcome} {after : GatewayRuntime}
    (hsteps : outcome.stepOutcomes.entries = fate.steps)
    (haudit : after.auditLog.length = fate.auditEntries)
    (hcalls : outcome.toolCalls = fate.toolCalls)
    (hrejected : outcome.validationRejected = true ↔ fate = .rejected)
    (hdenied : outcome.authDenied = true ↔ fate = .unauthorized)
    (hopened : outcome.circuitOpened = false)
    (herror : (fate = .rejected ∧ ∃ n, outcome.errorCode = some (.number n))
      ∨ fate ≠ .rejected ∧ outcome.errorCode = fate.error.map .name)
    (hsuccess : outcome.success = true ↔ fate ≠ .rejected ∧ sample.expectError = fate.error) :
    fate.Reports sample (buildGatewayCaseResult fs readings sample outcome after) :=
  ⟨hsteps, haudit, hcalls, hrejected, hdenied, hopened, herror, hsuccess⟩

/-- A call that answers, as it is reported. -/
theorem executeTool_exact {runtime : GatewayRuntime} {tool : ToolMeta} {response : Json}
    {stepOutcomes : Dict String Bool} (haudit : runtime.auditLog = [])
    (hinvoke : runtime.invoke tool.name sample.toolParams = .ok response)
    (hsteps : stepOutcomes.entries
      = [("validation", true), ("authorization", true), ("rate_limit", true)]) :
    Fate.passed.Reports sample (buildGatewayCaseResult fs readings sample
      (executeTool fs readings sample runtime tool stepOutcomes).1
      (executeTool fs readings sample runtime tool stepOutcomes).2) := by
  unfold executeTool
  have hstarted (quotaTracker : QuotaTracker) :
      (({ runtime with quotaTracker } : GatewayRuntime).logEvent .toolCallStart).invoke tool.name
        sample.toolParams = .ok response := hinvoke
  simp only [hstarted]
  refine reports_build ?_ ?_ rfl (by simp) (by simp) rfl (.inr ⟨by simp, rfl⟩) ?_
  · rw [Dict.entries_set_of_notMem, hsteps]
    · rfl
    · simp [Dict.keys, hsteps]
  · simp [GatewayRuntime.logEvent, haudit, Fate.auditEntries]
  · simp [Fate.error]

/-- The checks after the validator, on a gateway on which nothing was called but the validator. -/
theorem governTool_exact (fs : RunnerFunctions) (readings : GatewayReadings)
    (runtime : GatewayRuntime) {toolTimes : String → ℚ × ℚ} {tool : ToolMeta}
    (hauthorizer : runtime.authorizer = {})
    (hcircuit : runtime.circuitBreaker =
      { config := { failureThreshold := 1, recoveryTimeout := 5 } })
    (hlimiter : runtime.rateLimiter = {}) (haudit : runtime.auditLog = [])
    (hhandlers : ∀ name, runtime.handlers.get? name = defaultHandler name)
    (hfits : FitsSchema sample) {name : String} (hname : sample.toolName = some name)
    (htool : defaultTool toolTimes name = some tool) :
    ∃ outcome after, governTool fs readings sample runtime (GatewayRuntime.buildCaller sample) tool
        ((∅ : Dict String Bool).set "validation" true) = .ok (outcome, after)
      ∧ (¬ Permitted sample → Fate.unauthorized.Reports sample
        (buildGatewayCaseResult fs readings sample outcome after))
      ∧ (Permitted sample → Limited readings → Fate.rateLimited.Reports sample
        (buildGatewayCaseResult fs readings sample outcome after))
      ∧ (Permitted sample → ¬ Limited readings → Fate.passed.Reports sample
        (buildGatewayCaseResult fs readings sample outcome after)) := by
  have htool' : defaultTool toolTimes (sample.toolName.getD "") = some tool := by
    rw [hname]
    exact htool
  have hauthorize : (({} : ToolAuthorizer).authorize fs.listStr (GatewayRuntime.buildCaller sample)
      tool readings.authorized).1.allowed = true ↔ Permitted sample :=
    authorize_buildCaller htool' readings.authorized
  obtain ⟨limited, hlimited, hallowed⟩ :=
    acquire_new (GatewayRuntime.buildCaller sample).callerId readings.refill
  obtain ⟨rfl, -⟩ := defaultTool_layout htool
  unfold governTool
  simp only [hauthorizer, hcircuit, hlimiter, hlimited, allowRequest_new]
  by_cases hpermitted : Permitted sample
  · rw [hauthorize.mpr hpermitted]
    by_cases hlimit : Limited readings
    · have hdenied : limited.allowed = false := by
        rw [← Bool.not_eq_true, hallowed]
        exact not_not.mpr hlimit
      simp only [hdenied, Bool.not_true, Bool.not_false, Bool.false_eq_true, if_false, if_true]
      refine ⟨_, _, rfl, fun h => absurd hpermitted h, fun _ _ => ?_, fun _ h => absurd hlimit h⟩
      refine reports_build rfl ?_ rfl (by simp [namedError]) (by simp [namedError]) rfl
        (.inr ⟨by simp, rfl⟩) ?_
      · simp [GatewayRuntime.logEvent, haudit, Fate.auditEntries]
      · simpa [namedError, Fate.error] using expects_name "rate_limited"
    · have hlet : limited.allowed = true := hallowed.mpr hlimit
      obtain ⟨response, hinvoke⟩ := invoke_ok hhandlers hfits hname
      simp only [hlet, Bool.not_true, Bool.false_eq_true, if_false]
      refine ⟨_, _, rfl, fun h => absurd hpermitted h, fun _ h => absurd h hlimit, fun _ _ => ?_⟩
      exact executeTool_exact haudit hinvoke rfl
  · have hdenied := Bool.not_eq_true _ ▸ hauthorize.not.mpr hpermitted
    rw [hdenied]
    simp only [Bool.not_false, if_true]
    refine ⟨_, _, rfl, fun _ => ?_, fun h => absurd h hpermitted, fun h => absurd h hpermitted⟩
    refine reports_build rfl ?_ rfl (by simp [namedError]) (by simp) rfl
      (.inr ⟨by simp, rfl⟩) ?_
    · simp [GatewayRuntime.logEvent, haudit, Fate.auditEntries]
    · simpa [namedError, Fate.error] using expects_name "unauthorized"

open Classical in
/-- What becomes of the sample, as far as it is up to the sample and the clock. -/
noncomputable def fateOf (readings : GatewayReadings) (sample : EvalSample) : Fate :=
  if ¬ FitsSchema sample then .rejected
  else if ¬ Permitted sample then .unauthorized
  else if Limited readings then .rateLimited
  else .passed

theorem fateOf_eq_rejected_iff : fateOf readings sample = .rejected ↔ ¬ FitsSchema sample := by
  unfold fateOf
  split_ifs <;> simp_all

theorem toolName_of_fitsSchema (h : FitsSchema sample) (toolTimes : String → ℚ × ℚ) :
    ∃ name tool, sample.toolName = some name ∧ defaultTool toolTimes name = some tool := by
  rcases h with ⟨hname, -⟩ | ⟨hname, -⟩ | ⟨hname, -⟩
  · exact ⟨_, webSearch (toolTimes "web_search"), hname, rfl⟩
  · exact ⟨_, merchantLookup (toolTimes "merchant_lookup"), hname, rfl⟩
  · exact ⟨_, adminExport (toolTimes "admin_export"), hname, rfl⟩

/-- Every sample has a result, and it is the one of its fate. -/
theorem reports_runGatewaySample (fs : RunnerFunctions) (readings : GatewayReadings)
    (sample : EvalSample) : ∃ r, runGatewaySample fs readings sample = .ok r
      ∧ (fateOf readings sample).Reports sample r := by
  obtain ⟨runtime, hbuilt, hunused, hget, hhandlers⟩ := buildDefault_unused readings.toolTimes
  obtain ⟨result, hresult, hexplained⟩ := validate_explained fs hget
    (sample.toolName.getD "") sample.toolParams readings.validated
  have haccepts := validation_accepts_iff fs readings sample
  rw [validation_eq fs readings sample hbuilt, hresult] at haccepts
  suffices h : ∃ outcome after, gatewayOutcome fs readings sample runtime = .ok (outcome, after)
      ∧ (fateOf readings sample).Reports sample
        (buildGatewayCaseResult fs readings sample outcome after) by
    obtain ⟨outcome, after, houtcome, hreports⟩ := h
    exact ⟨_, (runGatewaySample_eq_ok hbuilt).mpr ⟨outcome, after, houtcome, rfl⟩, hreports⟩
  unfold gatewayOutcome
  by_cases hfits : FitsSchema sample
  · obtain ⟨_, hok, hvalid⟩ := haccepts.mpr hfits
    cases hok
    obtain ⟨name, tool, hname, htool⟩ := toolName_of_fitsSchema hfits readings.toolTimes
    have hfound : runtime.registry.get (sample.toolName.getD "") none = some tool := by
      rw [hget, hname]
      exact htool
    simp only [hresult, hvalid, Bool.not_true, Bool.false_eq_true, if_false, hfound]
    obtain ⟨outcome, after, hgovern, hdenied, hlimited, hpassed⟩ := governTool_exact fs readings
      { runtime with quotaTracker := (ToolValidator.validate fs.pyStr fs.calendar
        runtime.quotaTracker runtime.registry (sample.toolName.getD "") sample.toolParams
        readings.validated).2 }
      hunused.authorizer hunused.circuitBreaker hunused.rateLimiter hunused.auditLog hhandlers
      hfits hname htool
    refine ⟨outcome, after, hgovern, ?_⟩
    unfold fateOf
    rw [if_neg (not_not.mpr hfits)]
    split_ifs with hpermitted hlimit
    · exact hlimited hpermitted hlimit
    · exact hpassed hpermitted hlimit
    · exact hdenied hpermitted
  · have hinvalid : result.valid = false := by
      rw [← Bool.not_eq_true]
      exact fun hvalid => hfits (haccepts.mp ⟨result, rfl, hvalid⟩)
    simp only [hresult, hinvalid, Bool.not_false, if_true]
    rcases herrors : result.errors with _ | ⟨issue, rest⟩
    · exact absurd herrors (hexplained hinvalid)
    · refine ⟨_, _, rfl, ?_⟩
      rw [fateOf_eq_rejected_iff.mpr hfits]
      refine reports_build rfl ?_ rfl (by simp) (by simp) rfl (.inl ⟨rfl, _, rfl⟩) ?_
      · simp [GatewayRuntime.logEvent, hunused.auditLog, Fate.auditEntries]
      · simp [expects_number]

end Outcome

end Evaluation

end AgentLearning
