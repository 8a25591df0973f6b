import Mathlib.Algebra.Order.Field.Rat
import AgentLearning.Lib.Buffered
import AgentLearning.Value

/-!
# Spans, logs and their exporters

`src/observability/tracer.py`, `logger.py` and the exporters that keep what they are given in a
buffer. A span is open from its `with` to the end of its body, or until it is finished by hand. What
the clock and `uuid4` give is read from the arguments, in the order they are asked.
-/

namespace AgentLearning.Observability

structure TraceContext where
  traceId : String
  sessionId : String
  caseId : String

/-! ## Spans -/

structure SpanRecord where
  traceId : String
  sessionId : String
  caseId : String
  stepId : String
  parentStepId : Option String
  component : String
  name : String
  startedAtMs : ℚ
  endedAtMs : ℚ
  durationMs : ℚ
  status : String
  errorCode : Option String := none
  metadata : List (String × Json) := []

def textOrNull (text : Option String) : Json := text.elim .null .str

/-- `_to_otlp_span` of a record's dictionary. -/
def SpanRecord.toOtlpSpan (span : SpanRecord) : Json := .obj [
  ("traceId", .str span.traceId),
  ("spanId", .str span.stepId),
  ("parentSpanId", textOrNull span.parentStepId),
  ("name", .str span.name),
  ("kind", .int 1),
  ("startTimeUnixNano", .int (intOfFloat (span.startedAtMs * 1000000))),
  ("endTimeUnixNano", .int (intOfFloat (span.endedAtMs * 1000000))),
  ("status", .obj [
    ("code", .int (if span.status = "ok" then 1 else 2)),
    ("message", textOrNull span.errorCode)]),
  ("attributes", .arr [
    .obj [("key", .str "component"), ("value", .obj [("stringValue", .str span.component)])],
    .obj [("key", .str "session_id"), ("value", .obj [("stringValue", .str span.sessionId)])]])]

/-! ## Exporters -/

structure OtlpJsonTraceExporter where
  sink : BufferedSink SpanRecord := { maxBuffer := 50 }

namespace OtlpJsonTraceExporter

variable (exporter : OtlpJsonTraceExporter)

def exportSpans (spans : List SpanRecord) : ℕ × OtlpJsonTraceExporter :=
  (spans.length, { sink := exporter.sink.push spans })

def flush : OtlpJsonTraceExporter := { sink := exporter.sink.flush }

def otlpDocument (spans : List SpanRecord) : Json := .obj [
  ("resourceSpans", .arr [.obj [
    ("resource", .obj [("attributes", .arr [.obj [
      ("key", .str "service.name"), ("value", .obj [("stringValue", .str "agent-system")])]])]),
    ("scopeSpans", .arr [.obj [
      ("scope", .obj [("name", .str "agent-tracer")]),
      ("spans", .arr (spans.map SpanRecord.toOtlpSpan))]])]])]

/-- The lines of the file, a document for each batch. -/
def lines : List Json := exporter.sink.batches.map otlpDocument

end OtlpJsonTraceExporter

structure JsonFileLogExporter where
  sink : BufferedSink Json := { maxBuffer := 100 }

namespace JsonFileLogExporter

variable (exporter : JsonFileLogExporter)

def exportEntries (entries : List Json) : ℕ × JsonFileLogExporter :=
  (entries.length, { sink := exporter.sink.push entries })

def flush : JsonFileLogExporter := { sink := exporter.sink.flush }

/-- `export` and `flush`, as they are called. -/
def step : SinkCall Json → JsonFileLogExporter
  | .push entries => (exporter.exportEntries entries).2
  | .flush => exporter.flush

/-- The lines of the file, one for each entry. -/
def lines : List Json := exporter.sink.batches.flatten

end JsonFileLogExporter

/-! ## The tracer -/

structure Tracer where
  spans : List SpanRecord := []
  exporter : Option OtlpJsonTraceExporter := none

def Tracer.record (tracer : Tracer) (span : SpanRecord) : Tracer where
  spans := tracer.spans ++ [span]
  exporter := tracer.exporter.map fun exporter => (exporter.exportSpans [span]).2

structure SpanScope where
  stepId : String
  traceContext : TraceContext
  component : String
  name : String
  parentStepId : Option String := none
  metadata : List (String × Json) := []
  startedAtMs : ℚ := 0
  closed : Bool := false

def SpanScope.toRecord (scope : SpanScope) (endedAtMs : ℚ) (status : String)
    (errorCode : Option String) (metadata : List (String × Json)) : SpanRecord where
  traceId := scope.traceContext.traceId
  sessionId := scope.traceContext.sessionId
  caseId := scope.traceContext.caseId
  stepId := scope.stepId
  parentStepId := scope.parentStepId
  component := scope.component
  name := scope.name
  startedAtMs := scope.startedAtMs
  endedAtMs := endedAtMs
  durationMs := max 0 (endedAtMs - scope.startedAtMs)
  status := status
  errorCode := errorCode
  metadata := metadata.foldl (fun merged field => setEntry field.1 field.2 merged) scope.metadata

/-- The scopes there are, by the order they were made in, and how often the clock was read. -/
structure TraceWorld where
  clock : ℕ := 0
  scopes : List SpanScope := []
  tracer : Tracer := {}

/-- The arguments of `start_span`; the parent is an enclosing scope, counted from the innermost. -/
structure StartSpan where
  traceContext : TraceContext
  component : String
  name : String
  parent : Option ℕ := none
  metadata : List (String × Json) := []

namespace TraceWorld

variable (now : ℕ → ℚ) (hex : ℕ → String) (w : TraceWorld)

/-- `start_span` and `__enter__`. -/
def start (call : StartSpan) (enclosing : List ℕ) : TraceWorld where
  clock := w.clock + 1
  scopes := w.scopes ++ [{
    stepId := s!"step-{(hex w.scopes.length).take 8}"
    traceContext := call.traceContext
    component := call.component
    name := call.name
    parentStepId := call.parent.bind fun depth => enclosing[depth]?.bind fun scope =>
      w.scopes[scope]?.map SpanScope.stepId
    metadata := call.metadata
    startedAtMs := now w.clock }]
  tracer := w.tracer

/-- `finish` of a scope that is open. -/
def complete (i : ℕ) (scope : SpanScope) (status : String) (errorCode : Option String)
    (metadata : List (String × Json)) : TraceWorld where
  clock := w.clock + 1
  scopes := w.scopes.set i { scope with closed := true }
  tracer := w.tracer.record (scope.toRecord (now w.clock) status errorCode metadata)

/-- `finish`, or the class of what it raises. -/
def finish (i : ℕ) (status : String) (errorCode : Option String)
    (metadata : List (String × Json)) : Except String TraceWorld :=
  match w.scopes[i]? with
  | none => .error "NameError"
  | some scope =>
    if scope.closed then .error "RuntimeError"
    else .ok (w.complete now i scope status errorCode metadata)

/-- `__exit__`, with the class of the exception there is. -/
def leave (i : ℕ) (error : Option String) : TraceWorld :=
  match w.scopes[i]? with
  | none => w
  | some scope =>
    if scope.closed then w
    else match error with
      | none => w.complete now i scope "ok" none []
      | some className => w.complete now i scope "error" (some className) []

end TraceWorld

/-- What code can do with spans, among other things that raise or not. A scope is named by how many
scopes are between it and the code. -/
inductive SpanCode
  | skip
  | raise (className : String)
  | seq (first second : SpanCode)
  | within (call : StartSpan) (body : SpanCode)
  | finish (scope : ℕ) (status : String) (errorCode : Option String)
    (metadata : List (String × Json))
  | attempt (body handler : SpanCode)

/-- A run of the code, with the class of the exception that it ends with. -/
def SpanCode.exec (now : ℕ → ℚ) (hex : ℕ → String) :
    SpanCode → List ℕ → TraceWorld → Option String × TraceWorld
  | skip, _, w => (none, w)
  | raise className, _, w => (some className, w)
  | seq first second, enclosing, w =>
    match first.exec now hex enclosing w with
    | (none, w) => second.exec now hex enclosing w
    | (some error, w) => (some error, w)
  | within call body, enclosing, w =>
    let scope := w.scopes.length
    let (error, after) := body.exec now hex (scope :: enclosing) (w.start now hex call enclosing)
    (error, after.leave now scope error)
  | finish depth status errorCode metadata, enclosing, w =>
    match enclosing[depth]? with
    | none => (some "NameError", w)
    | some scope =>
      match w.finish now scope status errorCode metadata with
      | .ok after => (none, after)
      | .error className => (some className, w)
  | attempt body handler, enclosing, w =>
    match body.exec now hex enclosing w with
    | (none, w) => (none, w)
    | (some _, w) => handler.exec now hex enclosing w

end AgentLearning.Observability
