import AgentLearning.Proofs.ContractSchemas
import AgentLearning.Validator

/-!
# What the validator checks of a tool's input

A tool's schema in the layout of JSON Schema has the required fields under `required` and the types
of all fields under `properties`. The validator goes through the properties as if they were a schema
in the flat layout, where `required` and `properties` are no fields: it does not look at properties
of these names, nor at those with an empty type. It decides exactly what the others say.
-/

namespace AgentLearning.Gateway.ToolValidator

open ContractValidator (HasType HasField hasField_iff)

/-! ## What a schema says -/

/-- The single name under `type`. -/
def declaredType : Json → Option String
  | .obj spec =>
    match getEntry "type" spec with
    | some (.str t) => some t
    | _ => none
  | _ => none

/-- A schema with these required fields and these properties, each of them with a type. -/
structure HasLayout (schema : List (String × Json)) (required : List String)
    (properties : List (String × Json)) : Prop where
  required_eq : getEntry "required" schema = some (.arr (required.map .str))
  properties_eq : getEntry "properties" schema = some (.obj properties)
  typed : ∀ property ∈ properties, (declaredType property.2).isSome = true

/-- The properties whose name and type have `p` have their type, as far as they are given. -/
def TypesHold (p : String → String → Prop) (properties params : List (String × Json)) : Prop :=
  ∀ property ∈ properties, ∀ t value, declaredType property.2 = some t → p property.1 t →
    getEntry property.1 params = some value → HasType value t

/-- The schema holds of the parameters. -/
def Accepts (required : List String) (properties params : List (String × Json)) : Prop :=
  (∀ name ∈ required, HasField params name) ∧ TypesHold (fun _ _ => True) properties params

/-- What the check of the properties does not look at. -/
def Skipped (name t : String) : Prop := name = "required" ∨ name = "properties" ∨ t = ""

def WithinQuota (calendar : Calendar) (tracker : QuotaTracker) (tool : ToolMeta)
    (clock : ValidateClock) : Prop :=
  (tracker.checkQps tool.name tool.quota.qps clock.now).1 = true
    ∧ tracker.checkConcurrency tool.name tool.quota.maxConcurrent = true
    ∧ tracker.checkDaily tool.name tool.quota.dailyLimit (calendar.day clock.datedAt) = true

/-! ## What the checks find -/

section Checks

variable (pyStr : Json → String) (params : List (String × Json)) (result : ValidationResult)

theorem hasType_iff {value : Json} {t : String} :
    HasType value t ↔ t = typeName value ∨ t = "number" ∧ typeName value = "integer" := by
  constructor
  · rintro (_ | _ | _ | _ | _ | _ | _ | _) <;> simp [typeName]
  · rintro (rfl | ⟨rfl, h⟩)
    · rcases value with _ | _ | _ | _ | _ | _ | _ <;> constructor
    · rcases value with _ | _ | _ | _ | _ | _ | _ <;> simp [typeName] at h
      constructor

theorem addError_valid (issue : ValidationIssue) : (result.addError issue).valid = false := rfl

theorem checkRequired_str (name : String) :
    checkRequired pyStr params result (.str name) = .ok (if (getEntry name params).isSome = true
      then result else result.addError (missingRequiredField (pyStr (.str name)))) := by
  have hin : inParams params (.str name) = .ok (getEntry name params).isSome := rfl
  unfold checkRequired
  rw [hin]
  rcases getEntry name params with _ | value <;> rfl

/-- Every field that is required is looked for. -/
theorem foldlM_checkRequired (required : List String) :
    ∃ checked, (required.map Json.str).foldlM (checkRequired pyStr params) result = .ok checked
      ∧ (checked.valid = true
        ↔ result.valid = true ∧ ∀ name ∈ required, HasField params name) := by
  induction required generalizing result with
  | nil => exact ⟨result, rfl, by simp⟩
  | cons name required ih =>
    obtain ⟨checked, hrun, hvalid⟩ := ih (if (getEntry name params).isSome = true
      then result else result.addError (missingRequiredField (pyStr (.str name))))
    refine ⟨checked, ?_, ?_⟩
    · rw [List.map_cons, List.foldlM_cons, checkRequired_str]
      exact hrun
    · rw [hvalid, List.forall_mem_cons, hasField_iff]
      split_ifs with hname
      · rw [and_iff_right hname]
      · simp [addError_valid, hname]

theorem declaredType_eq_some {spec : Json} {t : String} (h : declaredType spec = some t) :
    ∃ fields, spec = .obj fields ∧ getEntry "type" fields = some (.str t) := by
  unfold declaredType at h
  rcases spec with _ | _ | _ | _ | _ | _ | fields <;> simp only [reduceCtorEq] at h
  refine ⟨fields, rfl, ?_⟩
  rcases hget : getEntry "type" fields with _ | value
  · simp [hget] at h
  · rcases value with _ | _ | _ | _ | _ | _ | _ <;> simp [hget] at h
    rw [h]

theorem isStr_str {s t : String} : isStr (.str s) t = true ↔ s = t := by
  simp [isStr]

/-- A property that is not skipped is checked, if it is given. -/
theorem checkProperty_valid {name t : String} {spec : Json} (ht : declaredType spec = some t) :
    (checkProperty pyStr params result (name, spec)).valid = true
      ↔ result.valid = true ∧ (¬ Skipped name t →
        ∀ value, getEntry name params = some value → HasType value t) := by
  obtain ⟨fields, rfl, hfield⟩ := declaredType_eq_some ht
  unfold checkProperty Skipped
  rcases hvalue : getEntry name params with _ | value
  · simp
  · by_cases hname : name = "required" ∨ name = "properties"
    · simp [hname, ← or_assoc]
    · by_cases hempty : t = ""
      · simp [hname, hfield, hempty, Json.truthy]
      · rw [← or_assoc, or_iff_left hempty]
        simp only [hname, hfield, Option.getD_some, Json.truthy, isStr_str, if_false,
          not_false_eq_true, forall_const, Option.some.injEq, forall_eq', hasType_iff]
        rw [if_neg (by simpa using hempty)]
        split_ifs with hnumber htype
        · simp [hnumber]
        · simp [htype]
        · simp [hnumber, htype, addError_valid]

theorem typesHold_nil (p : String → String → Prop) : TypesHold p [] params :=
  fun _ h => absurd h List.not_mem_nil

theorem typesHold_cons (p : String → String → Prop) {property : String × Json} {t : String}
    (ht : declaredType property.2 = some t) (properties : List (String × Json)) :
    TypesHold p (property :: properties) params
      ↔ (p property.1 t → ∀ value, getEntry property.1 params = some value → HasType value t)
        ∧ TypesHold p properties params := by
  unfold TypesHold
  rw [List.forall_mem_cons]
  refine and_congr_left fun _ => ⟨fun h hp value hvalue => h t value ht hp hvalue,
    fun h t' value ht' hp hvalue => ?_⟩
  obtain rfl := Option.some.inj (ht.symm.trans ht')
  exact h hp value hvalue

theorem foldl_checkProperty {properties : List (String × Json)}
    (htyped : ∀ property ∈ properties, (declaredType property.2).isSome = true) :
    (properties.foldl (checkProperty pyStr params) result).valid = true
      ↔ result.valid = true ∧ TypesHold (fun name t => ¬ Skipped name t) properties params := by
  induction properties generalizing result with
  | nil => simp [typesHold_nil]
  | cons property properties ih =>
    obtain ⟨hfirst, hrest⟩ := List.forall_mem_cons.mp htyped
    obtain ⟨t, ht⟩ := Option.isSome_iff_exists.mp hfirst
    rw [List.foldl_cons, ih _ hrest, checkProperty_valid _ _ _ ht, typesHold_cons _ _ ht,
      and_assoc]

/-- What the check of a schema in this layout finds. -/
theorem validateSchema_valid {tool : ToolMeta} {required : List String}
    {properties : List (String × Json)} (h : HasLayout tool.inputSchema required properties) :
    ∃ checked, validateSchema pyStr tool params result = .ok checked
      ∧ (checked.valid = true ↔ result.valid = true
        ∧ (∀ name ∈ required, HasField params name)
        ∧ TypesHold (fun name t => ¬ Skipped name t) properties params) := by
  have hsome : tool.inputSchema.isEmpty = false := by
    have := h.required_eq
    rcases hschema : tool.inputSchema with _ | ⟨field, fields⟩
    · simp [hschema, getEntry] at this
    · rfl
  obtain ⟨found, hrun, hfound⟩ := foldlM_checkRequired pyStr params result required
  refine ⟨properties.foldl (checkProperty pyStr params) found, ?_, ?_⟩
  · unfold validateSchema
    simp only [hsome, h.required_eq, h.properties_eq, Option.getD_some, iterate]
    show (required.map Json.str).foldlM (checkRequired pyStr params) result >>= _ = _
    rw [hrun]
    rfl
  · rw [foldl_checkProperty pyStr params found h.typed, hfound, and_assoc]

theorem validateQuota_of_withinQuota {calendar : Calendar} {tracker : QuotaTracker}
    {tool : ToolMeta} {clock : ValidateClock} (h : WithinQuota calendar tracker tool clock) :
    (validateQuota calendar tracker tool result clock).1 = result := by
  obtain ⟨hqps, hconcurrency, hdaily⟩ := h
  unfold validateQuota
  simp only [hqps, if_true]
  exact (if_pos hdaily).trans (if_pos hconcurrency)

theorem typesHold_iff (p : String → String → Prop) (properties params : List (String × Json)) :
    TypesHold (fun _ _ => True) properties params
      ↔ TypesHold p properties params
        ∧ TypesHold (fun name t => ¬ p name t) properties params := by
  constructor
  · intro h
    exact ⟨fun property hmem t value ht _ => h property hmem t value ht trivial,
      fun property hmem t value ht _ => h property hmem t value ht trivial⟩
  · rintro ⟨hp, hnot⟩ property hmem t value ht -
    by_cases hpt : p property.1 t
    · exact hp property hmem t value ht hpt
    · exact hnot property hmem t value ht hpt

end Checks

section Validate

variable (pyStr : Json → String) (calendar : Calendar) (tracker : QuotaTracker)
  (registry : ToolRegistry) (toolName : String) (params : List (String × Json))
  (clock : ValidateClock) (tool : ToolMeta) (hget : registry.get toolName none = some tool)
  (hstatus : tool.status = .available) (hquota : WithinQuota calendar tracker tool clock)
  (required : List String) (properties : List (String × Json))
  (hlayout : HasLayout tool.inputSchema required properties)

include hget hstatus hquota hlayout

/-- What the validator decides. -/
theorem validate_valid_iff :
    (∃ result, (validate pyStr calendar tracker registry toolName params clock).1 = .ok result
        ∧ result.valid = true)
      ↔ (∀ name ∈ required, HasField params name)
        ∧ TypesHold (fun name t => ¬ Skipped name t) properties params := by
  obtain ⟨checked, hschema, hvalid⟩ := validateSchema_valid pyStr params {} hlayout
  have hrun : (validate pyStr calendar tracker registry toolName params clock).1
      = .ok checked := by
    unfold validate
    simp only [hget, hstatus, hschema, ne_eq, not_true, if_false,
      validateQuota_of_withinQuota checked hquota]
  rw [hrun]
  simp only [Except.ok.injEq, exists_eq_left', hvalid, true_and]

/-- An available tool within its quota is validated just as its schema says if what is skipped has
its type, or something else is wrong. -/
theorem validate_schema_iff :
    ((∃ result, (validate pyStr calendar tracker registry toolName params clock).1 = .ok result
        ∧ result.valid = true) ↔ Accepts required properties params)
      ↔ TypesHold Skipped properties params
        ∨ (∃ name ∈ required, ¬ HasField params name)
        ∨ ¬ TypesHold (fun name t => ¬ Skipped name t) properties params := by
  have hrequired : (∃ name ∈ required, ¬ HasField params name)
      ↔ ¬ ∀ name ∈ required, HasField params name := by
    push Not
    rfl
  rw [validate_valid_iff pyStr calendar tracker registry toolName params clock tool hget hstatus
    hquota required properties hlayout, Accepts, typesHold_iff Skipped, hrequired]
  tauto

end Validate

/-- A tool that has a field with the name `required`, and one without such a name. -/
def surveyTool : ToolMeta where
  name := "survey"
  version := "1.0.0"
  description := ""
  status := .available
  inputSchema := [("required", .arr [.str "question"]), ("properties", .obj
    [("question", .obj [("type", .str "string")]), ("required", .obj [("type", .str "boolean")])])]
  registeredAt := 0
  updatedAt := 0

theorem surveyTool_layout : HasLayout surveyTool.inputSchema ["question"]
    [("question", .obj [("type", .str "string")]), ("required", .obj [("type", .str "boolean")])]
    where
  required_eq := rfl
  properties_eq := rfl
  typed := by simp [declaredType, getEntry]

theorem surveyTool_get :
    ((∅ : ToolRegistry).register surveyTool).2.get "survey" none = some surveyTool := by rfl

theorem surveyTool_quota (calendar : Calendar) :
    WithinQuota calendar {} surveyTool ⟨0, 0⟩ := by
  refine ⟨by decide +kernel, by decide +kernel, ?_⟩
  simp [QuotaTracker.checkDaily, QuotaTracker.dailyCount, surveyTool]

/-- What is skipped has its type. -/
theorem validate_schema_iff_survey :
    (∃ result, (validate (fun _ => "") ⟨fun _ => 0, fun _ => Int.le_refl 0⟩ {}
        ((∅ : ToolRegistry).register surveyTool).2 "survey"
        [("question", .str "Why?"), ("required", .bool true)] ⟨0, 0⟩).1 = .ok result
      ∧ result.valid = true)
    ↔ Accepts ["question"] [("question", .obj [("type", .str "string")]),
        ("required", .obj [("type", .str "boolean")])]
      [("question", .str "Why?"), ("required", .bool true)] := by
  refine (validate_schema_iff _ _ _ _ _ _ _ _ surveyTool_get rfl (surveyTool_quota _) _ _
    surveyTool_layout).mpr (.inl ?_)
  simp [TypesHold, declaredType, Skipped, getEntry, hasType_iff, typeName]

/-- A field with the name `required` may have any type. -/
theorem validate_schema_iff_fails_on_reserved :
    ¬ ((∃ result, (validate (fun _ => "") ⟨fun _ => 0, fun _ => Int.le_refl 0⟩ {}
        ((∅ : ToolRegistry).register surveyTool).2 "survey"
        [("question", .str "Why?"), ("required", .str "yes")] ⟨0, 0⟩).1 = .ok result
      ∧ result.valid = true)
    ↔ Accepts ["question"] [("question", .obj [("type", .str "string")]),
        ("required", .obj [("type", .str "boolean")])]
      [("question", .str "Why?"), ("required", .str "yes")]) := by
  rw [validate_valid_iff _ _ _ _ _ _ _ _ surveyTool_get rfl (surveyTool_quota _) _ _
    surveyTool_layout]
  simp [Accepts, TypesHold, HasField, declaredType, Skipped, getEntry, hasType_iff, typeName]

end AgentLearning.Gateway.ToolValidator
