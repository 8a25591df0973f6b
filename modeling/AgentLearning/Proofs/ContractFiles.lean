import AgentLearning.Proofs.ContractForms
import AgentLearning.Proofs.ReportedErrors

/-!
# The contract files

The errors of the validator are texts, and the contract files are of the language it decides. So the
application's validator rejects exactly what does not conform, and says why.
-/

namespace AgentLearning

open ContractValidator AgentApplication Gateway

/-! ## Messages -/

section Messages

variable {pyStr pyRepr : Json → String} {schema : List (String × Json)} {value : Json}
  {path : String}

/-- The errors of a check, if it raises nothing, are texts. -/
def Messages (report : Report) : Prop := ∀ errors, report = .ok errors → ∀ e ∈ errors, e ≠ ""

theorem Messages.nil : Messages (.ok []) := by
  intro errors h
  cases h
  simp

theorem Messages.errorIf (violated : Bool) {error : String} (h : error ≠ "") :
    Messages (.ok (errorIf violated error)) := by
  intro errors herrors
  cases herrors
  cases violated <;> simp [ContractValidator.errorIf, h]

theorem Messages.error (x : PyError) : Messages (.error x) := by
  intro errors h
  cases h

theorem Messages.bind {α : Type} {x : Except PyError α} {check : α → Report}
    (h : ∀ a, x = .ok a → Messages (check a)) : Messages (x >>= check) := by
  rcases x with error | a
  · exact .error error
  · exact h a rfl

/-- The errors of one check after those of others. -/
theorem Messages.append {report : Report} {check : List String → Report}
    (hreport : Messages report)
    (h : ∀ errors, (∀ e ∈ errors, e ≠ "") → Messages (check errors)) :
    Messages (report >>= check) :=
  .bind fun errors herrors => h errors (hreport errors herrors)

theorem Messages.pure {errors : List String} (h : ∀ e ∈ errors, e ≠ "") :
    Messages (Pure.pure errors) := by
  intro errors' herrors
  cases herrors
  exact h

theorem Messages.mapM {α : Type} {check : α → Report} : ∀ {items : List α},
    (∀ item ∈ items, Messages (check item)) → ∀ reports, items.mapM check = .ok reports →
      ∀ e ∈ reports.flatten, e ≠ ""
  | [], _, reports, hreports => by
    cases hreports
    simp
  | item :: items, h, reports, hreports => by
    rw [List.mapM_cons] at hreports
    rcases hfirst : check item with x | first <;> rw [hfirst] at hreports
    · cases hreports
    · rcases hrest : items.mapM check with x | rest <;> rw [hrest] at hreports <;> cases hreports
      have hitems := Messages.mapM (fun i hi => h i (List.mem_cons_of_mem _ hi)) rest hrest
      intro e he
      rcases List.mem_append.mp he with he | he
      · exact h item List.mem_cons_self first hfirst e he
      · exact hitems e he

theorem Messages.forEach {α : Type} {items : List α} {check : α → Report}
    (h : ∀ item ∈ items, Messages (check item)) : Messages (forEach items check) :=
  .bind fun reports hreports => .pure (Messages.mapM h reports hreports)

theorem messages_checkType : Messages (checkType pyStr schema value path) := by
  unfold checkType
  split
  · exact .nil
  · exact .bind fun names _ => .errorIf _ (by simp [toString])

theorem messages_checkEnum : Messages (checkEnum pyStr pyRepr schema value path) := by
  unfold checkEnum
  split
  · exact .nil
  · exact .bind fun found _ => .errorIf _ (by simp [toString])

theorem messages_checkLimit {key noun operator : String} {test : ℚ → ℚ → Bool} :
    Messages (checkLimit pyStr key noun operator test schema value path) := by
  unfold checkLimit
  split
  · exact .nil
  · exact .bind fun violated _ => .errorIf _ (by simp [toString])

theorem messages_limits {lower upper noun : String} : Messages (do
    let below ← checkMin pyStr lower noun schema value path
    let above ← checkMax pyStr upper noun schema value path
    return below ++ above) :=
  .append messages_checkLimit fun _ hbelow => .append messages_checkLimit fun _ habove =>
    .pure fun e he => (List.mem_append.mp he).elim (hbelow e) (habove e)

theorem messages_checkRequired {fields : List (String × Json)} :
    Messages (checkRequired pyStr schema fields path) := by
  unfold checkRequired
  exact .bind fun names _ => .forEach fun name _ => .bind fun found _ =>
    .errorIf _ (by simp [toString])

theorem messages_checkUnexpected {properties : Json} {fields : List (String × Json)} :
    Messages (checkUnexpected properties schema fields path) := by
  unfold checkUnexpected
  split
  · exact .forEach fun field _ => .bind fun found _ => .errorIf _ (by simp [toString])
  · exact .nil

theorem messages_validateObject {fields : List (String × Json)}
    {validateProperty : String × Json → Report}
    (h : ∀ property, Messages (validateProperty property)) :
    Messages (validateObject pyStr validateProperty schema fields path) := by
  unfold validateObject
  refine .append messages_checkRequired fun missing hmissing => ?_
  refine .append messages_checkUnexpected fun unexpected hunexpected => ?_
  refine .append ?_ fun nested hnested => .pure fun e he => ?_
  · unfold checkProperties
    split
    · exact .forEach fun property _ => h property
    · exact .error _
  · simp only [List.mem_append] at he
    exact he.elim (fun he => he.elim (hmissing e) (hunexpected e)) (hnested e)

theorem messages_validateArray {items : List Json} {validateItems : Json → Report}
    (h : ∀ itemSchema, Messages (validateItems itemSchema)) :
    Messages (validateArray pyStr validateItems schema items path) := by
  unfold validateArray
  refine .append messages_checkLimit fun few hfew => ?_
  refine .append messages_checkLimit fun many hmany => ?_
  refine .append ?_ fun nested hnested => .pure fun e he => ?_
  · unfold checkItems
    split
    · exact .nil
    · exact h _
  · simp only [List.mem_append] at he
    exact he.elim (fun he => he.elim (hfew e) (hmany e)) (hnested e)

theorem messages_validateItems {itemSchema : Json} : ∀ {items : List Json} {itemIndex : ℕ},
    (∀ item ∈ items, ∀ {path : String}, Messages (validateNode pyStr pyRepr itemSchema item path)) →
      Messages (validateItems pyStr pyRepr itemSchema items itemIndex path)
  | [], _, _ => by
    rw [validateItems]
    exact .nil
  | item :: items, itemIndex, h => by
    rw [validateItems]
    refine .append (h item List.mem_cons_self) fun errors herrors => ?_
    refine .append (messages_validateItems fun i hi => h i (List.mem_cons_of_mem _ hi))
      fun others hothers => .pure fun e he => ?_
    exact (List.mem_append.mp he).elim (herrors e) (hothers e)

/-- By induction on the value, for all schemas at once. -/
theorem messages_validateNode (value : Json) : ∀ {schema : Json} {path : String},
    Messages (validateNode pyStr pyRepr schema value path) := by
  induction value using Json.children_induct with
  | _ value ih =>
  intro schema path
  rw [validateNode]
  refine .bind fun schema _ => .append messages_checkType fun mistyped hmistyped => ?_
  split_ifs with hempty
  · exact .pure hmistyped
  · refine .append messages_checkEnum fun unlisted hunlisted => ?_
    refine .append ?_ fun nested hnested => .pure fun e he =>
      (List.mem_append.mp he).elim (hunlisted e) (hnested e)
    rcases value with _ | b | n | q | s | items | fields
    · exact .nil
    · exact .nil
    · exact messages_limits
    · exact messages_limits
    · exact messages_limits
    · exact messages_validateArray fun itemSchema => messages_validateItems fun item hitem _ =>
        ih item hitem
    · refine messages_validateObject fun property => ?_
      rw [validateField_eq]
      rcases hget : getEntry property.1 fields with _ | field
      · exact .nil
      · exact ih field (List.mem_map_of_mem (mem_of_getEntry hget))

/-- What the validator raises has a text, unless it cannot load or go along with the schema. -/
theorem failure_text_ne {schema payload : Json} {message : String}
    (h : failure (validateNode pyStr pyRepr schema payload path) = some (.contract message)) :
    message ≠ "" := by
  rcases hreport : validateNode pyStr pyRepr schema payload path with x | (_ | ⟨error, errors⟩) <;>
    rw [hreport] at h <;> cases h
  have herror : error ≠ "" := messages_validateNode payload _ hreport error List.mem_cons_self
  cases errors with
  | nil => rwa [String.intercalate_singleton]
  | cons second rest =>
    rw [String.intercalate_cons_cons]
    simp [herror]

end Messages

/-! ## The contract files -/

section Contracts

variable {pyStr pyRepr : Json → String} {payload : Json}

theorem wellFormed_limit (maximum : ℤ) : WellFormed (limitSchema maximum) := by
  constructor <;> simp [getEntry, IsNumber]

theorem wellFormed_boundedText (maxLength : ℤ) : WellFormed (boundedTextSchema maxLength) := by
  constructor <;> simp [getEntry, IsNumber]

theorem anyObject_isObject : IsObjectSchema anyObjectSchema [] false [] :=
  ⟨_, rfl, rfl, rfl, rfl, rfl, rfl, rfl⟩

theorem toolPayload_isObject (title : String) (required : List String)
    (properties : List (String × Json)) :
    IsObjectSchema (toolPayloadSchema title required properties) required true
      (properties ++ [("runtime_context", anyObjectSchema)]) :=
  ⟨_, rfl, rfl, rfl, rfl, rfl, rfl, rfl⟩

theorem system_isObject : IsObjectSchema systemSchema [] true
    [("tenant_id", textSchema), ("environment", textSchema), ("policy_version", textSchema)] :=
  ⟨_, rfl, rfl, rfl, rfl, rfl, rfl, rfl⟩

theorem context_isObject : IsObjectSchema contextSchema [] true [("system", systemSchema)] :=
  ⟨_, rfl, rfl, rfl, rfl, rfl, rfl, rfl⟩

theorem metadata_isObject : IsObjectSchema metadataSchema [] false
    [("approval_token", textSchema), ("recipient", textSchema)] :=
  ⟨_, rfl, rfl, rfl, rfl, rfl, rfl, rfl⟩

theorem request_isObject : IsObjectSchema agentRequestSchema
    ["request_id", "session_id", "user_input", "allowed_tools"] true agentRequestProperties :=
  ⟨_, rfl, rfl, rfl, rfl, rfl, rfl, rfl⟩

theorem response_isObject : IsObjectSchema agentResponseSchema
    ["request_id", "session_id", "success", "data", "error"] true agentResponseProperties :=
  ⟨_, rfl, rfl, rfl, rfl, rfl, rfl, rfl⟩

theorem wellFormed_allowedTools : WellFormed allowedToolsSchema := by
  constructor <;> simp [getEntry, IsNumber]
  exact wellFormed_enum _

theorem wellFormed_request : WellFormed agentRequestSchema := by
  refine request_isObject.wellFormed ?_
  have hsystem : WellFormed systemSchema := system_isObject.wellFormed (by simp [wellFormed_text])
  have hcontext : WellFormed contextSchema := context_isObject.wellFormed (by simp [hsystem])
  have hmetadata : WellFormed metadataSchema :=
    metadata_isObject.wellFormed (by simp [wellFormed_text])
  simp [agentRequestProperties, wellFormed_text, wellFormed_allowedTools, hcontext, hmetadata]

theorem wellFormed_data : WellFormed dataSchema := by
  constructor
  case type => exact fun t ht => .inr ⟨["object", "null"], (Option.some.inj ht).symm⟩
  case limit =>
    simp only [List.forall_mem_cons, List.not_mem_nil, false_implies, implies_true, and_true]
    simp [getEntry]
  all_goals simp [getEntry]

theorem wellFormed_error : WellFormed errorSchema := by
  constructor
  case type => exact fun t ht => .inr ⟨["object", "null"], (Option.some.inj ht).symm⟩
  case limit =>
    simp only [List.forall_mem_cons, List.not_mem_nil, false_implies, implies_true, and_true]
    simp [getEntry]
  case property =>
    intro properties name propertySchema hproperties hmem
    cases hproperties
    simp only [List.mem_cons, Prod.mk.injEq, List.not_mem_nil, or_false] at hmem
    rcases hmem with ⟨-, rfl⟩ | ⟨-, rfl⟩ <;> exact wellFormed_text
  all_goals simp [getEntry]

theorem wellFormed_response : WellFormed agentResponseSchema := by
  refine response_isObject.wellFormed ?_
  have hsuccess : WellFormed (.obj [("type", .str "boolean")]) := by
    constructor <;> simp [getEntry]
  simp [agentResponseProperties, wellFormed_text, wellFormed_data, wellFormed_error, hsuccess]

theorem wellFormed_contractFiles : ∀ file ∈ contractFiles, WellFormed file.2 := by
  have hchannel : WellFormed
      (.obj [("type", .str "string"), ("enum", .arr [.str "email", .str "slack"])]) :=
    wellFormed_enum ["email", "slack"]
  have htool {title : String} {required : List String} {properties : List (String × Json)}
      (h : ∀ p ∈ properties, WellFormed p.2) :
      WellFormed (toolPayloadSchema title required properties) := by
    refine (toolPayload_isObject title required properties).wellFormed ?_
    rw [List.forall_mem_append]
    refine ⟨h, ?_⟩
    simpa using anyObject_isObject.wellFormed (by simp)
  simp only [contractFiles, List.forall_mem_cons, List.not_mem_nil, false_implies, implies_true,
    and_true]
  refine ⟨wellFormed_request, wellFormed_response, htool ?_, htool ?_, htool ?_⟩
  · simp [wellFormed_text, wellFormed_limit]
  · simp [wellFormed_boundedText, wellFormed_limit]
  · simp [wellFormed_text, wellFormed_boundedText, hchannel]

theorem validateContract_eq {schemaPath : String} {schema : Json}
    (h : getEntry schemaPath contractFiles = some schema) :
    validateContract pyStr pyRepr schemaPath payload
      = failure (validateNode pyStr pyRepr schema payload "$") := by
  simp [validateContract, ContractValidator.validate, loadSchema, readContract, h, Except.bind]

/-- A contract file rejects with a message. -/
theorem validateContract_rejects {schemaPath : String} {schema : Json}
    {rejection : ValidationFailure} (hfile : getEntry schemaPath contractFiles = some schema)
    (h : validateContract pyStr pyRepr schemaPath payload = some rejection) :
    ∃ message, rejection = .contract message ∧ message ≠ "" := by
  rw [validateContract_eq hfile] at h
  have hwellFormed : WellFormed schema := wellFormed_contractFiles _ (mem_of_getEntry hfile)
  obtain ⟨errors, hnode, -⟩ : Decides (validateNode pyStr pyRepr schema payload "$") _ :=
    decides_validateNode payload hwellFormed
  cases rejection with
  | contract message => exact ⟨message, rfl, failure_text_ne h⟩
  | other error =>
    rw [hnode] at h
    rcases errors with _ | ⟨error, errors⟩ <;> cases h

theorem validateContract_request_iff :
    validateContract pyStr pyRepr "agent-request.schema.json" payload = none
      ↔ Conforms agentRequestSchema payload := by
  rw [validateContract_eq (show _ = some agentRequestSchema from rfl),
    failure_validateNode_eq_none_iff wellFormed_request]

end Contracts

end AgentLearning
