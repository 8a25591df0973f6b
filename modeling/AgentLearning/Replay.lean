import AgentLearning.Context
import AgentLearning.Lib.Substitution
import AgentLearning.ProtocolValidator

/-!
# Captured traffic

`src/replay/anonymizer.py` and `src/replay/replay_engine.py`: records of failed cases are kept to be
run again, with what looks personal in the strings of their samples replaced. Of the regular
expressions the model has those that stand between two word boundaries, as the default ones do. The
file and the clock are arguments, and a random sample is any that has the size asked for.
-/

namespace AgentLearning

/-! ## The anonymizer -/

/-- `\w` and `\d`, which have their own characters beyond ASCII. -/
structure CharClasses where
  word : Char → Bool
  digit : Char → Bool
  digit_ascii : ∀ c : Char, c.toNat < 128 → digit c = c.isDigit

structure TrafficAnonymizer where
  classes : CharClasses
  rules : List (Pattern Char × Label Char)

namespace TrafficAnonymizer

section Rules

variable (classes : CharClasses)

def one (c : Char) : Atom Char := .chars (· = c) 1 (some 1)

def tag (name : String) : Label Char where
  start := '<'
  inner := name.toList
  stop := '>'

def phone : Pattern Char where
  inner := [one '1', .chars (fun c => '3' ≤ c && c ≤ '9') 1 (some 1),
    .chars classes.digit 9 (some 9)]
  consumes := rfl

def email : Pattern Char where
  inner := [.chars (fun c => c.isAlphanum || ['.', '_', '%', '+', '-'].contains c) 1 none, one '@',
    .chars (fun c => c.isAlphanum || ['.', '-'].contains c) 1 none, one '.',
    .chars (fun c => c.isAlpha || c = '|') 2 none]
  consumes := rfl

def idCard : Pattern Char where
  inner := [.chars classes.digit 15 (some 18), .chars (['X', 'x'].contains ·) 0 (some 1)]
  consumes := rfl

def name : Pattern Char where
  inner := [.chars (fun c => '\u4e00' ≤ c && c ≤ '\u9fff') 2 (some 4)]
  consumes := rfl

def defaultPatterns : List (Pattern Char × Label Char) := [
  (phone classes, tag "PHONE"),
  (email, tag "EMAIL"),
  (idCard classes, tag "ID_CARD"),
  (name, tag "NAME")]

def create (patterns : Option (List (Pattern Char × Label Char))) : TrafficAnonymizer where
  classes
  rules := patterns.getD (defaultPatterns classes)

end Rules

variable (anonymizer : TrafficAnonymizer)

def anonymizeText (text : String) : String :=
  String.ofList (Pattern.substituteAll anonymizer.classes.word anonymizer.rules text.toList)

mutual

def walk : Json → Json
  | .str text => .str (anonymizer.anonymizeText text)
  | .obj fields => .obj (walkFields fields)
  | .arr items => .arr (walkItems items)
  | obj => obj

def walkFields : List (String × Json) → List (String × Json)
  | [] => []
  | (key, value) :: fields => (key, walk value) :: walkFields fields

def walkItems : List Json → List Json
  | [] => []
  | item :: items => walk item :: walkItems items

end

def anonymizeRecord (record : Json) : Json := anonymizer.walk record

end TrafficAnonymizer

/-! ## The engine -/

structure ReplayRecord where
  caseId : Json
  traceId : Json := .null
  sessionId : Json := .null
  errorCode : Json := .null
  answerF1 : ℚ := 0
  latencyMs : ℚ := 0
  stepOutcomes : Json := .obj []
  sample : Json := .obj []
  capturedAt : Json := .null
  anonymized : Bool := false

structure ReplayPolicy where
  sampleRatio : ℚ := 1
  maxBatchSize : ℤ := 50

/-- The results are of the type that the executor gives. -/
structure ReplayBatch (ρ : Type) where
  batchId : String
  policy : ReplayPolicy
  records : List ReplayRecord := []
  results : List ρ := []
  totalDurationMs : ℚ := 0

/-- What Python does with texts, and with a value that is made a dictionary of and is none. -/
structure ReplayFunctions where
  strip : String → String
  loads : String → Except PyError Json
  parseFloat : String → Option ℚ
  pyRepr : Json → String
  dictOf : Json → Except PyError Json

namespace ReplayFunctions

variable (f : ReplayFunctions)

/-- `float(value)`. -/
def float (value : Json) : Except PyError ℚ :=
  match value.number with
  | some number => .ok number
  | none =>
    match value with
    | .str text =>
      match f.parseFloat text with
      | some number => .ok number
      | none => .error (.valueError s!"could not convert string to float: {f.pyRepr value}")
    | value => .error (.typeError ("float() argument must be a string or a real number, not '"
        ++ Gateway.pythonType value ++ "'"))

/-- `dict(value)`. -/
def dict : Json → Except PyError Json
  | .obj fields => .ok (.obj fields)
  | value => f.dictOf value

end ReplayFunctions

/-- `random.sample`, one call of it. -/
structure Sampler where
  sample : List ReplayRecord → ℕ → List ReplayRecord
  subperm (records : List ReplayRecord) (k : ℕ) (h : k ≤ records.length) :
    (sample records k).Subperm records
  length (records : List ReplayRecord) (k : ℕ) (h : k ≤ records.length) :
    (sample records k).length = k

structure InMemoryReplayEngine where
  anonymizer : TrafficAnonymizer
  records : List ReplayRecord := []

namespace InMemoryReplayEngine

variable (f : ReplayFunctions) (engine : InMemoryReplayEngine)

/-- The record that is kept of one that was not anonymized before. -/
def anonymized (record : ReplayRecord) (now : ℚ) : Except PyError ReplayRecord := do
  let sample := engine.anonymizer.anonymizeRecord record.sample
  let stepOutcomes ← f.dict record.stepOutcomes
  pure { record with
    stepOutcomes
    sample
    capturedAt := if record.capturedAt.truthy then record.capturedAt else .float now
    anonymized := true }

def append (record : ReplayRecord) : InMemoryReplayEngine :=
  { engine with records := engine.records ++ [record] }

def capture (record : ReplayRecord) (now : ℚ) : Except PyError Unit × InMemoryReplayEngine :=
  if !record.anonymized then
    match engine.anonymized f record now with
    | .ok kept => (.ok (), engine.append kept)
    | .error exc => (.error exc, engine)
  else (.ok (), engine.append record)

/-- The record of a line. -/
def ofLine (stripped : String) : Except PyError ReplayRecord := do
  let data ← f.loads stripped
  pure
    { caseId := ← data.pyGet "case_id" (.str "")
      traceId := ← data.pyGet "trace_id" .null
      sessionId := ← data.pyGet "session_id" .null
      errorCode := ← data.pyGet "error_code" .null
      answerF1 := ← f.float (← data.pyGet "answer_f1" (.float 0))
      latencyMs := ← f.float (← data.pyGet "latency_ms" (.float 0))
      stepOutcomes := ← data.pyGet "step_outcomes" (.obj [])
      sample := ← data.pyGet "sample" (.obj [])
      capturedAt := ← data.pyGet "captured_at" .null
      anonymized := false }

/-- The lines of the file, each with the time of its capture; one that raises ends the loop. -/
def loadFromJsonl (engine : InMemoryReplayEngine) :
    List (String × ℚ) → Except PyError ℕ × InMemoryReplayEngine
  | [] => (.ok 0, engine)
  | (line, now) :: lines =>
    let stripped := f.strip line
    if stripped = "" then loadFromJsonl engine lines
    else
      match ofLine f stripped with
      | .error exc => (.error exc, engine)
      | .ok record =>
        match engine.capture f record now with
        | (.error exc, engine) => (.error exc, engine)
        | (.ok (), engine) =>
          let (count, engine) := loadFromJsonl engine lines
          (count.map (· + 1), engine)

def applySampling (policy : ReplayPolicy) (random : Sampler) : List ReplayRecord :=
  let candidates :=
    if policy.sampleRatio < 1 then
      let k := max 1 (intOfFloat (engine.records.length * policy.sampleRatio))
      random.sample engine.records (min k.toNat engine.records.length)
    else engine.records
  sliceTo candidates policy.maxBatchSize

/-- The loop stops at an executor that raises. -/
def replay {ρ : Type} (policy : ReplayPolicy) (executor : ReplayRecord → Except PyError ρ)
    (random : Sampler) (batchId : String) (start finish : ℚ) : Except PyError (ReplayBatch ρ) := do
  let sampled := engine.applySampling policy random
  let results ← sampled.mapM executor
  pure { batchId, policy, records := sampled, results, totalDurationMs := (finish - start) * 1000 }

def clear : InMemoryReplayEngine := { engine with records := [] }

end InMemoryReplayEngine

/-- The calls on an engine, with what they read from outside. -/
inductive ReplayCall (ρ : Type)
  | capture (record : ReplayRecord) (now : ℚ)
  | loadFromJsonl (lines : List (String × ℚ))
  | replay (policy : ReplayPolicy) (executor : ReplayRecord → Except PyError ρ) (random : Sampler)
    (batchId : String) (start finish : ℚ)
  | clear

inductive ReplayReply (ρ : Type)
  | captured (outcome : Except PyError Unit)
  | loaded (count : Except PyError ℕ)
  | replayed (batch : Except PyError (ReplayBatch ρ))
  | cleared

def InMemoryReplayEngine.exec {ρ : Type} (f : ReplayFunctions) (engine : InMemoryReplayEngine) :
    ReplayCall ρ → ReplayReply ρ × InMemoryReplayEngine
  | .capture record now =>
    let (outcome, engine) := engine.capture f record now
    (.captured outcome, engine)
  | .loadFromJsonl lines =>
    let (count, engine) := engine.loadFromJsonl f lines
    (.loaded count, engine)
  | .replay policy executor random batchId start finish =>
    (.replayed (engine.replay policy executor random batchId start finish), engine)
  | .clear => (.cleared, engine.clear)

end AgentLearning
