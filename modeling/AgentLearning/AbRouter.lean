import Mathlib.Algebra.Order.Field.Rat
import AgentLearning.Value

/-!
# The router of experiments

`src/release/ab_router.py`: a subject gets the variant of an experiment in whose share of the
traffic its bucket lies. The buckets are the hundredths from 0 to 99.99, by a digest of the subject.
-/

namespace AgentLearning

structure VariantAllocation where
  name : String
  percentage : ℚ
  deriving DecidableEq

structure ExperimentConfig where
  experimentId : String
  defaultVariant : String
  variants : List VariantAllocation
  enabled : Bool := true
  salt : String := "default"
  allowOverride : Bool := true

structure RoutingDecision where
  experimentId : String
  subjectKey : String
  variant : String
  bucket : ℚ
  reason : String
  deriving DecidableEq

namespace AbRouter

/-- The boundary moves on by the share of each variant; beyond the last one there is none. -/
def selectFrom (bucket : ℚ) : ℚ → List VariantAllocation → Option String
  | _, [] => none
  | currentBoundary, variant :: variants =>
    if bucket < currentBoundary + variant.percentage then some variant.name
    else selectFrom bucket (currentBoundary + variant.percentage) variants

def selectVariant (variants : List VariantAllocation) (bucket : ℚ) : Except PyError String :=
  match selectFrom bucket 0 variants with
  | some name => .ok name
  | none =>
    match variants.getLast? with
    | some variant => .ok variant.name
    | none => .error (.exception "list index out of range")

def validateConfig (config : ExperimentConfig) : Except PyError Unit :=
  let variantNames := config.variants.map (·.name)
  let totalPercentage : ℚ := (config.variants.map (·.percentage)).sum
  if config.variants = [] then .error (.valueError "experiment variants cannot be empty")
  else if config.defaultVariant ∉ variantNames then
    .error (.valueError "default variant must exist in variants")
  else if (1 / 1000000 : ℚ) < |totalPercentage - 100| then
    .error (.valueError "variant percentages must sum to 100")
  else if variantNames.dedup.length ≠ variantNames.length then
    .error (.valueError "variant names must be unique")
  else .ok ()

-- The number that the first eight digits of the SHA-256 of a string name.
variable (sha256 : String → ℕ)

def calculateBucket (experimentId salt subjectKey : String) : ℚ :=
  let bucketValue := sha256 s!"{experimentId}:{salt}:{subjectKey}" % 10000
  bucketValue / 100

def buildOverrideDecision (config : ExperimentConfig) (subjectKey overrideVariant : String) :
    Except PyError RoutingDecision :=
  if !config.allowOverride then .error (.valueError "override is disabled for this experiment")
  else if overrideVariant ∉ config.variants.map (·.name) then
    .error (.valueError s!"unknown override variant: {overrideVariant}")
  else .ok {
    experimentId := config.experimentId
    subjectKey
    variant := overrideVariant
    bucket := 0
    reason := "manual_override" }

def route (config : ExperimentConfig) (subjectKey : String) (overrideVariant : Option String) :
    Except PyError RoutingDecision := do
  validateConfig config
  if !config.enabled then
    return {
      experimentId := config.experimentId
      subjectKey
      variant := config.defaultVariant
      bucket := 0
      reason := "experiment_disabled" }
  match overrideVariant with
  | some overrideVariant => buildOverrideDecision config subjectKey overrideVariant
  | none =>
    let bucket := calculateBucket sha256 config.experimentId config.salt subjectKey
    let selectedVariant ← selectVariant config.variants bucket
    return {
      experimentId := config.experimentId
      subjectKey
      variant := selectedVariant
      bucket
      reason := "bucket_assignment" }

end AbRouter

end AgentLearning
