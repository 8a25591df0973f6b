import AgentLearning.EvaluationRunner
import AgentLearning.Proofs.ToolSchemas

/-!
# Expected errors

A rejection by the validator is known by its number, and a sample names the error that it expects,
so no sample that the validator rejects is reported as a success, and its result has a number where
the datasets and the analyzer have names. All later outcomes have a name or no error. What the
validator accepts can be read off the parameters, as each sample has a gateway of its own.
-/

namespace AgentLearning

namespace Gateway

open ContractValidator (HasField HasType hasField_iff)

namespace ToolRegistry

variable (registry : ToolRegistry) {tool : ToolMeta}

/-- A tool with a new name that is available is the one found under its name from then on. -/
theorem register_new (hnew : registry.versions tool.name = ∅) (hstatus : tool.status = .available)
    (hversion : tool.version ≠ "") :
    (registry.register tool).1 = .ok tool
      ∧ (∀ name, (registry.register tool).2.get name none
        = if tool.name = name then some tool else registry.get name none)
      ∧ ∀ name, tool.name ≠ name →
        (registry.register tool).2.versions name = registry.versions name := by
  have hmem : ¬ ((registry.versions tool.name).get? tool.version).isSome = true := by
    rw [hnew]
    simp
  have hreg : (registry.register tool).2
      = (registry.store tool).activate tool.name tool.version := by
    simp [register, hmem, hstatus]
  refine ⟨by rw [register, if_neg hmem], fun name => ?_, fun name hname => ?_⟩
  · rw [hreg]
    unfold get store activate
    by_cases hname : tool.name = name
    · simp [hname, hversion]
    · simp [Dict.get?_set, hname]
  · rw [hreg]
    unfold versions store activate
    rw [Dict.get?_set_ne _ _ hname]

end ToolRegistry

namespace ToolValidator

theorem withinQuota_empty (calendar : Calendar) {tool : ToolMeta} (clock : ValidateClock)
    (hqps : 0 < tool.quota.qps) (hconcurrent : 0 < tool.quota.maxConcurrent)
    (hdaily : 0 < tool.quota.dailyLimit) : WithinQuota calendar {} tool clock := by
  refine ⟨?_, ?_, ?_⟩
  · simpa [QuotaTracker.checkQps, QuotaTracker.timestamps] using hqps
  · simpa [QuotaTracker.checkConcurrency, QuotaTracker.inFlight] using hconcurrent
  · simpa [QuotaTracker.checkDaily, QuotaTracker.dailyCount] using hdaily

theorem hasType_string {value : Json} : HasType value "string" ↔ ∃ s, value = .str s := by
  rw [hasType_iff]
  rcases value with _ | _ | _ | _ | _ | _ | _ <;> simp [typeName]

theorem hasType_integer {value : Json} : HasType value "integer" ↔ ∃ n, value = .int n := by
  rw [hasType_iff]
  rcases value with _ | _ | _ | _ | _ | _ | _ <;> simp [typeName]

end ToolValidator

namespace RateLimiter

/-- The first call of a caller returns, whatever the clock says. -/
theorem acquire_fresh (callerId : String) (tokens : ℤ) (clock : RefillClock) :
    ∃ result, (({} : RateLimiter).acquire callerId tokens clock).1 = .ok result := by
  have hpow : floatPow 2 0 = .ok 1 := by
    have hone : ¬ (2 : ℚ) ^ 1024 ≤ 1 := not_le.mpr (one_lt_pow₀ one_lt_two (by omega))
    unfold floatPow
    rw [if_neg (by simpa using hone), pow_zero]
  have hbackoff : ({} : RateLimiter).backoff 1 = .ok 1 := by
    unfold backoff
    simp [hpow, Except.map]
  have hrejections :
      (({} : RateLimiter).refilled callerId clock).consecutiveRejections = 0 := rfl
  unfold acquire
  by_cases htokens : tokens ≤ (({} : RateLimiter).refilled callerId clock).tokens
  · simp [htokens]
  · simp [htokens, hrejections, hbackoff, Except.map]

end RateLimiter

end Gateway

namespace Evaluation

open Gateway ToolValidator ContractValidator

/-! ## The gateway of a sample -/

/-- The tool that is registered under a name. -/
def defaultTool (toolTimes : String → ℚ × ℚ) (name : String) : Option ToolMeta :=
  if "admin_export" = name then some (adminExport (toolTimes "admin_export"))
  else if "merchant_lookup" = name then some (merchantLookup (toolTimes "merchant_lookup"))
  else if "web_search" = name then some (webSearch (toolTimes "web_search"))
  else none

namespace GatewayRuntime

theorem registerTool_new (runtime : GatewayRuntime) (tool : ToolMeta) (handler : Handler)
    (hnew : runtime.registry.versions tool.name = ∅) (hstatus : tool.status = .available)
    (hversion : tool.version ≠ "") :
    ∃ registered, runtime.registerTool tool handler = .ok registered
      ∧ registered.quotaTracker = runtime.quotaTracker
      ∧ registered.rateLimiter = runtime.rateLimiter
      ∧ (∀ name, registered.registry.get name none
        = if tool.name = name then some tool else runtime.registry.get name none)
      ∧ ∀ name, tool.name ≠ name →
        registered.registry.versions name = runtime.registry.versions name := by
  obtain ⟨hok, hget, hversions⟩ := runtime.registry.register_new hnew hstatus hversion
  refine ⟨{ runtime with
    registry := (runtime.registry.register tool).2
    handlers := runtime.handlers.set tool.name handler }, ?_, rfl, rfl, hget, hversions⟩
  unfold registerTool
  show (runtime.registry.register tool).1 >>= _ = _
  rw [hok]
  rfl

/-- The gateway of a sample has the three tools, and nothing was called on it. -/
theorem buildDefault_spec (toolTimes : String → ℚ × ℚ) :
    ∃ runtime, buildDefault toolTimes = .ok runtime ∧ runtime.quotaTracker = {}
      ∧ runtime.rateLimiter = {}
      ∧ ∀ name, runtime.registry.get name none = defaultTool toolTimes name := by
  obtain ⟨first, hfirst, hquota₁, hlimiter₁, hget₁, hversions₁⟩ :=
    registerTool_new {} (webSearch (toolTimes "web_search")) webSearchHandler rfl rfl
      (by simp [webSearch])
  obtain ⟨second, hsecond, hquota₂, hlimiter₂, hget₂, hversions₂⟩ :=
    registerTool_new first (merchantLookup (toolTimes "merchant_lookup"))
      merchantLookupHandler (hversions₁ _ (by simp [webSearch, merchantLookup])) rfl
      (by simp [merchantLookup])
  obtain ⟨third, hthird, hquota₃, hlimiter₃, hget₃, -⟩ :=
    registerTool_new second (adminExport (toolTimes "admin_export")) adminExportHandler
      ((hversions₂ _ (by simp [merchantLookup, adminExport])).trans
        (hversions₁ _ (by simp [webSearch, adminExport]))) rfl (by simp [adminExport])
  refine ⟨third, ?_, ?_, ?_, fun name => ?_⟩
  · unfold buildDefault registerDefaultTools
    rw [hfirst]
    show first.registerTool _ _ >>= _ = _
    rw [hsecond]
    exact hthird
  · rw [hquota₃, hquota₂, hquota₁]
  · rw [hlimiter₃, hlimiter₂, hlimiter₁]
  · rw [hget₃, hget₂, hget₁]
    rfl

end GatewayRuntime

/-! ## What the validator says -/

/-- `tool_params` has this field, and it is a string. -/
def GivesString (sample : EvalSample) (field : String) : Prop :=
  ∃ s, getEntry field sample.toolParams = some (.str s)

/-- The sample names one of the tools, with parameters that fit its schema. -/
def FitsSchema (sample : EvalSample) : Prop :=
  (sample.toolName = some "web_search" ∧ GivesString sample "query"
      ∧ ∀ topK, getEntry "top_k" sample.toolParams = some topK → ∃ n, topK = .int n)
    ∨ (sample.toolName = some "merchant_lookup" ∧ GivesString sample "merchant_id")
    ∨ (sample.toolName = some "admin_export" ∧ GivesString sample "scope")

section Validation

variable (fs : RunnerFunctions) (readings : GatewayReadings) (sample : EvalSample)

/-- What the validator of the sample's gateway returns. -/
def validation : Except PyError ValidationResult := do
  let runtime ← GatewayRuntime.buildDefault readings.toolTimes
  (ToolValidator.validate fs.pyStr fs.calendar runtime.quotaTracker runtime.registry
    (sample.toolName.getD "") sample.toolParams readings.validated).1

variable {fs readings sample}

/-- A schema in the layout that the tools have: this field is required, and a string. -/
def objectSchema (field : String) (others : List (String × Json)) : List (String × Json) :=
  [("type", .str "object"), ("required", .arr [.str field]),
    ("properties", .obj ((field, typeSpec "string") :: others))]

theorem objectSchema_layout (field : String) {others : List (String × Json)}
    (htyped : ∀ property ∈ others, (declaredType property.2).isSome = true) :
    HasLayout (objectSchema field others) [field] ((field, typeSpec "string") :: others) where
  required_eq := rfl
  properties_eq := rfl
  typed := List.forall_mem_cons.mpr ⟨rfl, htyped⟩

/-- Such a tool accepts what has the field, as a string, and fits the others. -/
theorem validate_accepts_iff {registry : Gateway.ToolRegistry} {tool : ToolMeta} {field : String}
    {others : List (String × Json)}
    (hget : registry.get (sample.toolName.getD "") none = some tool)
    (hstatus : tool.status = .available)
    (hqps : 0 < tool.quota.qps) (hconcurrent : 0 < tool.quota.maxConcurrent)
    (hdaily : 0 < tool.quota.dailyLimit)
    (hschema : tool.inputSchema = objectSchema field others)
    (htyped : ∀ property ∈ others, (declaredType property.2).isSome = true)
    (hfield : ¬ Skipped field "string") :
    (∃ result, (ToolValidator.validate fs.pyStr fs.calendar {} registry
        (sample.toolName.getD "") sample.toolParams readings.validated).1 = .ok result
      ∧ result.valid = true)
      ↔ GivesString sample field
        ∧ TypesHold (fun name t => ¬ Skipped name t) others sample.toolParams := by
  have hlayout : HasLayout tool.inputSchema [field] ((field, typeSpec "string") :: others) := by
    rw [hschema]
    exact objectSchema_layout field htyped
  rw [validate_valid_iff _ _ _ _ _ _ _ _ hget hstatus
    (withinQuota_empty fs.calendar readings.validated hqps hconcurrent hdaily) _ _ hlayout,
    typesHold_cons _ _ rfl, ← and_assoc]
  refine and_congr_left fun _ => ?_
  simp only [List.forall_mem_singleton, hasField_iff, hfield, not_false_eq_true, forall_const,
    hasType_string, GivesString]
  rcases getEntry field sample.toolParams with _ | value <;> simp

theorem getD_eq_iff {toolName : Option String} {name : String} (hname : name ≠ "") :
    name = toolName.getD "" ↔ toolName = some name := by
  rcases toolName with _ | other
  · simp [hname]
  · simp [eq_comm]

variable (fs readings sample)

theorem validation_eq {runtime : GatewayRuntime}
    (hbuilt : GatewayRuntime.buildDefault readings.toolTimes = .ok runtime) :
    validation fs readings sample = (ToolValidator.validate fs.pyStr fs.calendar
      runtime.quotaTracker runtime.registry (sample.toolName.getD "") sample.toolParams
      readings.validated).1 := by
  unfold validation
  rw [hbuilt]
  rfl

/-- The validator accepts just what fits the schema of the tool. -/
theorem validation_accepts_iff :
    (∃ result, validation fs readings sample = .ok result ∧ result.valid = true)
      ↔ FitsSchema sample := by
  obtain ⟨runtime, hbuilt, hquota, -, hget⟩ := GatewayRuntime.buildDefault_spec readings.toolTimes
  replace hget := hget (sample.toolName.getD "")
  rw [validation_eq _ _ _ hbuilt, hquota]
  unfold defaultTool at hget
  simp only [getD_eq_iff (show "admin_export" ≠ "" by simp),
    getD_eq_iff (show "merchant_lookup" ≠ "" by simp),
    getD_eq_iff (show "web_search" ≠ "" by simp)] at hget
  unfold FitsSchema
  split_ifs at hget with hadmin hmerchant hweb
  · rw [validate_accepts_iff hget rfl (by simp [adminExport]) (by simp [adminExport])
      (by simp [adminExport]) rfl (by simp) (by simp [Skipped])]
    simp [hadmin, typesHold_nil]
  · rw [validate_accepts_iff hget rfl (by simp [merchantLookup]) (by simp [merchantLookup])
      (by simp [merchantLookup]) rfl (by simp) (by simp [Skipped])]
    simp [hmerchant, typesHold_nil]
  · have htopK : declaredType (typeSpec "integer") = some "integer" := rfl
    rw [validate_accepts_iff hget rfl (by simp [webSearch]) (by simp [webSearch])
      (by simp [webSearch]) rfl (by simp [htopK]) (by simp [Skipped]), typesHold_cons _ _ htopK]
    simp [hweb, typesHold_nil, Skipped, hasType_integer]
  · unfold ToolValidator.validate
    simp [hget, hadmin, hmerchant, hweb, addError_valid]

end Validation

/-! ## What the runner reports -/

/-- The names that the datasets expect and the analyzer has a priority for. -/
def errorNames : List String :=
  ["missing_required_field", "invalid_tool_name", "tool_execution_failed", "circuit_open",
    "rate_limited", "unauthorized", "quality_regression"]

def Named (errorCode : Option CaseError) : Prop :=
  errorCode = none ∨ ∃ name ∈ errorNames, errorCode = some (.name name)

section Report

variable (fs : RunnerFunctions) (readings : GatewayReadings) (sample : EvalSample)

/-- The validator rejects the sample, first of all for this. -/
def RejectedFor (issue : ValidationIssue) : Prop :=
  ∃ rest, validation fs readings sample = .ok ⟨false, issue :: rest⟩

/-- The runner knows the errors of the validator by the names that a sample expects, and reports no
code but these names. -/
def ErrorsRecognised : Prop :=
  ∃ caseResult, runGatewaySample fs readings sample = .ok caseResult
    ∧ (∀ fieldName, RejectedFor fs readings sample (missingRequiredField fieldName) →
      sample.expectError = some "missing_required_field" → caseResult.success = true)
    ∧ (∀ toolName, RejectedFor fs readings sample (invalidToolName toolName) →
      sample.expectError = some "invalid_tool_name" → caseResult.success = true)
    ∧ Named caseResult.errorCode

variable {fs readings sample}

theorem named_namedError {errorCode : String} (h : errorCode ∈ errorNames)
    (stepOutcomes : Dict String Bool) :
    Named (namedError sample errorCode stepOutcomes).errorCode :=
  .inr ⟨errorCode, h, rfl⟩

/-- No sample expects a number. -/
theorem expects_number (n : ℕ) : expects sample (.number n) = false := by
  unfold expects
  rcases sample.expectError with _ | name <;> simp

theorem named_executeTool (runtime : GatewayRuntime) (tool : ToolMeta)
    (stepOutcomes : Dict String Bool) :
    Named (executeTool fs readings sample runtime tool stepOutcomes).1.errorCode := by
  unfold executeTool
  simp only
  split
  · exact .inl rfl
  · exact .inr ⟨"tool_execution_failed", by simp [errorNames], rfl⟩

theorem governTool_named {runtime : GatewayRuntime} (hlimiter : runtime.rateLimiter = {})
    (caller : CallerIdentity) (tool : ToolMeta) (stepOutcomes : Dict String Bool) :
    ∃ outcome after,
      governTool fs readings sample runtime caller tool stepOutcomes = .ok (outcome, after)
        ∧ Named outcome.errorCode := by
  obtain ⟨limited, hlimited⟩ := RateLimiter.acquire_fresh caller.callerId 1 readings.refill
  unfold governTool
  simp only [hlimiter]
  split_ifs
  · exact ⟨_, _, rfl, .inr ⟨"unauthorized", by simp [errorNames], rfl⟩⟩
  · exact ⟨_, _, rfl, .inr ⟨"circuit_open", by simp [errorNames], rfl⟩⟩
  · simp only [hlimited]
    split_ifs
    · exact ⟨_, _, rfl, named_namedError (by simp [errorNames]) _⟩
    · exact ⟨_, _, rfl, named_executeTool _ tool _⟩

section Outcome

variable {runtime : GatewayRuntime} {verdict : Except PyError ValidationResult}
  (hverdict : (ToolValidator.validate fs.pyStr fs.calendar runtime.quotaTracker runtime.registry
    (sample.toolName.getD "") sample.toolParams readings.validated).1 = verdict)

include hverdict

/-- What the validator accepts has an outcome with a name or no error. -/
theorem gatewayOutcome_of_valid (hlimiter : runtime.rateLimiter = {}) {result : ValidationResult}
    (hok : verdict = .ok result) (hvalid : result.valid = true) :
    ∃ outcome after, gatewayOutcome fs readings sample runtime = .ok (outcome, after)
      ∧ Named outcome.errorCode := by
  unfold gatewayOutcome
  simp only [hverdict, hok, hvalid, Bool.not_true, Bool.false_eq_true, if_false]
  split
  · exact ⟨_, _, rfl, named_namedError (by simp [errorNames]) _⟩
  · refine governTool_named ?_ _ _ _
    exact hlimiter

/-- What it does not accept has a number, and is no success. -/
theorem gatewayOutcome_of_invalid
    (hinvalid : ¬ ∃ result, verdict = .ok result ∧ result.valid = true)
    {outcome : GatewayOutcome} {after : GatewayRuntime}
    (h : gatewayOutcome fs readings sample runtime = .ok (outcome, after)) :
    outcome.success = false ∧ ∃ n, outcome.errorCode = some (.number n) := by
  unfold gatewayOutcome at h
  rcases verdict with e | result
  · simp [hverdict] at h
  · have hvalid : result.valid = false := by
      rw [← Bool.not_eq_true]
      exact fun hvalid => hinvalid ⟨result, rfl, hvalid⟩
    simp only [hverdict, hvalid, Bool.not_false, if_true] at h
    rcases herrors : result.errors with _ | ⟨issue, rest⟩
    · simp [herrors] at h
    · simp only [herrors, Except.ok.injEq, Prod.mk.injEq] at h
      obtain ⟨rfl, -⟩ := h
      exact ⟨expects_number _, _, rfl⟩

end Outcome

theorem runGatewaySample_eq_ok {runtime : GatewayRuntime}
    (hbuilt : GatewayRuntime.buildDefault readings.toolTimes = .ok runtime)
    {caseResult : EvalCaseResult} :
    runGatewaySample fs readings sample = .ok caseResult
      ↔ ∃ outcome after, gatewayOutcome fs readings sample runtime = .ok (outcome, after)
        ∧ buildGatewayCaseResult fs readings sample outcome after = caseResult := by
  unfold runGatewaySample
  rw [hbuilt]
  show gatewayOutcome fs readings sample runtime >>= _ = _ ↔ _
  rcases gatewayOutcome fs readings sample runtime with e | ⟨outcome, after⟩
  · simp [bind, Except.bind]
  · simp [bind, Except.bind, pure, Except.pure]

/-- The errors that a sample expects are recognised just if the validator accepts it, so that none
is an error of the validator. -/
theorem errorsRecognised_iff (fs : RunnerFunctions) (readings : GatewayReadings)
    (sample : EvalSample) : ErrorsRecognised fs readings sample ↔ FitsSchema sample := by
  obtain ⟨runtime, hbuilt, -, hlimiter, -⟩ :=
    GatewayRuntime.buildDefault_spec readings.toolTimes
  have hverdict := (validation_eq fs readings sample hbuilt).symm
  rw [← validation_accepts_iff fs readings sample]
  constructor
  · rintro ⟨caseResult, hrun, -, -, hnamed⟩
    by_contra hinvalid
    obtain ⟨outcome, after, houtcome, rfl⟩ := (runGatewaySample_eq_ok hbuilt).mp hrun
    obtain ⟨-, n, hnumber⟩ := gatewayOutcome_of_invalid hverdict hinvalid houtcome
    have hcode : (buildGatewayCaseResult fs readings sample outcome after).errorCode
      = some (.number n) := hnumber
    rw [hcode] at hnamed
    simp [Named] at hnamed
  · rintro ⟨result, hok, hvalid⟩
    obtain ⟨outcome, after, houtcome, hnamed⟩ :=
      gatewayOutcome_of_valid hverdict hlimiter hok hvalid
    have haccepted : ∀ issue, ¬ RejectedFor fs readings sample issue := by
      rintro issue ⟨rest, hrejected⟩
      rw [hok, Except.ok.injEq] at hrejected
      rw [hrejected] at hvalid
      cases hvalid
    exact ⟨_, (runGatewaySample_eq_ok hbuilt).mpr ⟨outcome, after, houtcome, rfl⟩,
      fun fieldName h => absurd h (haccepted _), fun toolName h => absurd h (haccepted _), hnamed⟩

end Report

/-- The functions of the other modules, as far as strings that are in lower case need them. -/
def plainFunctions : RunnerFunctions where
  text :=
    { isSpace := Char.isWhitespace
      isAlnum := Char.isAlphanum
      lower := id
      md5 := id
      format3f := fun _ => "" }
  pyStr
    | .str s => s
    | _ => ""
  listStr := fun items => ", ".intercalate items
  jsonDumps := fun _ => ""
  calendar := ⟨fun _ => 0, fun _ => le_rfl⟩

/-- All clocks stand still. -/
def stillReadings : GatewayReadings where
  hex := "00000000"
  toolTimes := fun _ => (0, 0)
  start := 0
  finish := 0
  validated := ⟨0, 0⟩
  authorized := 0
  circuit := ⟨0, 0, 0⟩
  refill := ⟨0, 0⟩
  called := ⟨0, 0⟩
  recorded := ⟨0, 0, 0⟩

/-- The first adversarial sample. -/
def adv001 : EvalSample where
  id := "adv_001"
  category := "gateway"
  query := "missing required schema field"
  expectedAnswer := ""
  difficulty := "easy"
  tags := ["adversarial", "gateway"]
  expectError := some "missing_required_field"
  toolName := some "web_search"

/-- It has no query, and expects to be rejected for that, but what is compared is the number. -/
theorem not_errorsRecognised_adv001 : ¬ ErrorsRecognised plainFunctions stillReadings adv001 := by
  rintro ⟨caseResult, hrun, hmissing, -, -⟩
  have hrejected :
      RejectedFor plainFunctions stillReadings adv001 (missingRequiredField "query") :=
    ⟨[], by rfl⟩
  have hsuccess : (runGatewaySample plainFunctions stillReadings adv001).map (·.success)
      = .ok false := by rfl
  rw [hrun, Except.map, hmissing "query" hrejected rfl] at hsuccess
  cases hsuccess

end Evaluation

end AgentLearning
