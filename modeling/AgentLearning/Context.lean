import AgentLearning.Value

/-!
# Requests, execution context and runtime control

`agent-system/src/agent/context.py` and `execution_context.py`: the context a tool call carries, its
step summaries cut to the last few and redacted, and the control object of one execution, with its
cancel flag, its timeouts and its concurrency limit.
-/

namespace AgentLearning

/-- `items[:stop]`. -/
def sliceTo {α : Type*} (items : List α) (stop : ℤ) : List α :=
  if 0 ≤ stop then items.take stop.toNat else items.take (items.length - stop.natAbs)

/-- `items[start:]`. -/
def sliceFrom {α : Type*} (items : List α) (start : ℤ) : List α :=
  if 0 ≤ start then items.drop start.toNat else items.drop (items.length - start.natAbs)

/-! ## Texts -/

/-- What the code has from the language for texts: `str.strip`, `str.lower`, `str` of a value that
is not a string, `repr` of a string, the white space and the decimal digits beyond ASCII, and the
most digits that `int` takes of a string, 0 for no limit. -/
structure TextBuiltins where
  strip : String → String
  lower : String → String
  str : Json → String
  repr : String → String
  isSpace : Char → Bool
  decimal : Char → Option (Fin 10)
  maxStrDigits : ℕ

namespace TextBuiltins

variable (f : TextBuiltins)

/-- `str(value)`. -/
def text : Json → String
  | .str s => s
  | value => f.str value

/-- White space as `int` skips it. -/
def skips (c : Char) : Bool :=
  if c.toNat < 128 then c = ' ' || (9 ≤ c.toNat && c.toNat ≤ 13) else f.isSpace c

def digit (c : Char) : Option ℕ :=
  if c.toNat < 128 then if c.isDigit then some (c.toNat - '0'.toNat) else none
  else (f.decimal c).map Fin.val

/-- The digits at the head of a text, and what follows them. A single underscore may stand between
two digits; `gap` says that no digit stands right before. -/
def readDigits (gap : Bool) : List Char → Option (List ℕ × List Char)
  | [] => if gap then none else some ([], [])
  | c :: cs =>
    match f.digit c with
    | some d => (readDigits false cs).map fun (ds, rest) => (d :: ds, rest)
    | none =>
      if gap then none
      else if c = '_' then readDigits true cs
      else some ([], c :: cs)

/-- `int(s)` of a string. -/
def intOfText (s : String) : Except PyError ℤ :=
  let invalid : PyError := .valueError
    ("invalid literal for int() with base 10: " ++ String.ofList ((f.repr s).toList.take 200))
  let trimmed := s.toList.dropWhile f.skips
  let sign := trimmed.head?
  match f.readDigits true (if sign = some '-' ∨ sign = some '+' then trimmed.tail else trimmed) with
  | none => .error invalid
  | some (ds, rest) =>
    if 0 < f.maxStrDigits ∧ f.maxStrDigits < ds.length then
      .error (.valueError (s!"Exceeds the limit ({f.maxStrDigits} digits) for integer string "
        ++ s!"conversion: value has {ds.length} digits; use sys.set_int_max_str_digits() to "
        ++ "increase the limit"))
    else if rest.all f.skips then
      let value : ℕ := ds.foldl (fun acc d => acc * 10 + d) 0
      .ok (if sign = some '-' then -value else value)
    else .error invalid

end TextBuiltins

/-- `int(value)`; a float of a request is finite. -/
def pyInt (f : TextBuiltins) : Json → Except PyError ℤ
  | .int n => .ok n
  | .bool b => .ok (if b then 1 else 0)
  | .float q => .ok (intOfFloat q)
  | .str s => f.intOfText s
  | .null => .error (.typeError
      "int() argument must be a string, a bytes-like object or a real number, not 'NoneType'")
  | .arr _ => .error (.typeError
      "int() argument must be a string, a bytes-like object or a real number, not 'list'")
  | .obj _ => .error (.typeError
      "int() argument must be a string, a bytes-like object or a real number, not 'dict'")

/-! ## Requests -/

/-- The fields of a validated request that planning and execution read. -/
structure AgentRequest where
  requestId : String
  sessionId : String
  userInput : String
  allowedTools : List String
  metadata : Json := .obj []

/-! ## Execution context -/

structure SystemContext where
  tenantId : String := "default-tenant"
  environment : String := "local"
  policyVersion : String := "v1"

structure TaskContext where
  requestId : String
  sessionId : String
  userInput : String

structure ToolContext where
  retryBudget : ℤ := 1

structure SessionMemory where
  stepSummaries : List (List (String × Json)) := []

structure ExecutionContext where
  system : SystemContext := {}
  task : TaskContext
  tool : ToolContext := {}
  memory : SessionMemory := {}
  sourceMap : List (String × String) := []
  /-- `trim_policy["max_step_summaries"]`, if it is there. -/
  maxStepSummaries : Option ℤ := some 5

namespace ContextManager

def redactedFields : List String := ["api_key", "password", "access_token", "ssn", "phone"]

def defaultMaxStepSummaries : ℤ := 5

mutual

/-- `_redact` on an object's fields. -/
def redact : List (String × Json) → List (String × Json)
  | [] => []
  | (key, value) :: fields =>
    (key, if key ∈ redactedFields then .str "***" else redactValue value) :: redact fields

/-- Only objects are redacted further down. -/
def redactValue : Json → Json
  | .obj fields => .obj (redact fields)
  | value => value

end

def trimForTool (context : ExecutionContext) (toolId : String) : Json :=
  let trimmedMemory := sliceFrom context.memory.stepSummaries (-defaultMaxStepSummaries)
  .obj
    [("task", .obj
      [("request_id", .str context.task.requestId),
       ("session_id", .str context.task.sessionId),
       ("user_input", .str context.task.userInput)]),
     ("system", .obj
      [("tenant_id", .str context.system.tenantId),
       ("environment", .str context.system.environment),
       ("policy_version", .str context.system.policyVersion)]),
     ("tool", .obj
      [("tool_id", .str toolId), ("retry_budget", .int context.tool.retryBudget)]),
     ("memory", .arr (trimmedMemory.map fun summary => .obj (redact summary))),
     ("source_map", .obj (context.sourceMap.map fun entry => (entry.1, .str entry.2))),
     ("trim_policy", .obj (match context.maxStepSummaries with
      | some maxItems => [("max_step_summaries", .int maxItems)]
      | none => []))]

def appendStepSummary (context : ExecutionContext) (summary : List (String × Json)) :
    ExecutionContext :=
  let stepSummaries := context.memory.stepSummaries ++ [redact summary]
  let maxItems := context.maxStepSummaries.getD defaultMaxStepSummaries
  { context with memory := { stepSummaries :=
      if (stepSummaries.length : ℤ) > maxItems then sliceFrom stepSummaries (-maxItems)
      else stepSummaries } }

end ContextManager

/-! ## Runtime control -/

structure ExecutionControl where
  maxConcurrency : ℤ := 2
  defaultStepTimeoutSeconds : ℤ := 8
  sessionTimeoutSeconds : ℤ := 60
  cancelRequested : Bool := false
  startedAt : ℚ

namespace ExecutionControl

def requestCancel (control : ExecutionControl) : ExecutionControl :=
  { control with cancelRequested := true }

def isCancelled (control : ExecutionControl) : Bool := control.cancelRequested

/-- `now` is what the monotonic clock reads. -/
def isSessionTimedOut (control : ExecutionControl) (now : ℚ) : Bool :=
  now - control.startedAt ≥ control.sessionTimeoutSeconds

/-- `metadata.get("execution_control", {})`, and `{}` for metadata that is not a dict. -/
def controlOptions (metadata : Json) : Except PyError (List (String × Json)) :=
  match metadata with
  | .obj fields =>
    match getEntry "execution_control" fields with
    | none => .ok []
    | some (.obj options) => .ok options
    | some _ => .error (.attributeError "execution_control has no attribute 'get'")
  | _ => .ok []

def fromRequest (f : TextBuiltins) (request : AgentRequest) (startedAt : ℚ) :
    Except PyError ExecutionControl := do
  let options ← controlOptions request.metadata
  let maxConcurrency ← pyInt f ((getEntry "max_concurrency" options).getD (.int 2))
  let stepTimeout ← pyInt f ((getEntry "default_step_timeout_seconds" options).getD (.int 8))
  let sessionTimeout ← pyInt f ((getEntry "session_timeout_seconds" options).getD (.int 60))
  pure
    { maxConcurrency := if maxConcurrency < 1 then 1 else maxConcurrency
      defaultStepTimeoutSeconds := if stepTimeout < 1 then 1 else stepTimeout
      sessionTimeoutSeconds := if sessionTimeout < 1 then 1 else sessionTimeout
      startedAt }

end ExecutionControl

end AgentLearning
