import AgentLearning.Application
import AgentLearning.Proofs.ContractSchemas

/-!
# The forms of the contract files

A contract file is put together from a few forms: a text that is not empty, a number between two
limits, a list, an object. Each form has one lemma that says what conforms to it, and one that it is
of the language the validator decides.
-/

namespace AgentLearning.ContractValidator

section Keywords

variable {schema : List (String × Json)} {value : Json} {name : String}

theorem ofType_iff (h : getEntry "type" schema = some (.str name)) :
    OfType schema value ↔ HasType value name := by
  unfold OfType
  simp [h, Names]

theorem listed_of_none (h : getEntry "enum" schema = none) : Listed schema value := by
  intro values hvalues
  simp [h] at hvalues

theorem listed_iff {values : List Json} (h : getEntry "enum" schema = some (.arr values)) :
    Listed schema value ↔ value ∈ values := by
  unfold Listed
  simp [h]

theorem forall_limit_iff {key : String} {limit : Option ℤ} {P : ℚ → Prop}
    (h : getEntry key schema = limit.map .int) :
    (∀ t y, getEntry key schema = some t → t.number = some y → P y) ↔ ∀ n ∈ limit, P n := by
  rw [h]
  constructor
  · intro hall n hn
    exact hall (.int n) n (by simp [Option.mem_def.mp hn]) rfl
  · rintro hall t y ht hy
    obtain ⟨n, hn, rfl⟩ := Option.map_eq_some_iff.mp ht
    cases hy
    exact hall n hn

theorem within_iff {lower upper : String} {least greatest : Option ℤ} {x : ℚ}
    (hlower : getEntry lower schema = least.map .int)
    (hupper : getEntry upper schema = greatest.map .int) :
    Within schema lower upper x ↔ (∀ n ∈ least, (n : ℚ) ≤ x) ∧ ∀ n ∈ greatest, x ≤ (n : ℚ) :=
  and_congr (forall_limit_iff hlower) (forall_limit_iff hupper)

theorem hasType_of_conforms (h : Conforms (.obj schema) value)
    (htype : getEntry "type" schema = some (.str name)) : HasType value name := by
  cases h with
  | null ht => exact (ofType_iff htype).mp ht
  | bool ht => exact (ofType_iff htype).mp ht
  | int ht => exact (ofType_iff htype).mp ht
  | float ht => exact (ofType_iff htype).mp ht
  | str ht => exact (ofType_iff htype).mp ht
  | arr ht => exact (ofType_iff htype).mp ht
  | obj ht => exact (ofType_iff htype).mp ht

theorem string_of_hasType : HasType value "string" → ∃ s, value = .str s := by
  rw [← isType_iff]
  rcases value with _ | _ | _ | _ | s | _ | _ <;> simp [isType, Gateway.isStr]

theorem array_of_hasType : HasType value "array" → ∃ items, value = .arr items := by
  rw [← isType_iff]
  rcases value with _ | _ | _ | _ | _ | items | _ <;> simp [isType, Gateway.isStr]

theorem object_of_hasType : HasType value "object" → ∃ fields, value = .obj fields := by
  rw [← isType_iff]
  rcases value with _ | _ | _ | _ | _ | _ | fields <;> simp [isType, Gateway.isStr]

end Keywords

/-! ## Texts and numbers -/

theorem conforms_boundedText_iff {schema : List (String × Json)} {maxLength : Option ℤ}
    {value : Json} (htype : getEntry "type" schema = some (.str "string"))
    (henum : getEntry "enum" schema = none) (hmin : getEntry "minLength" schema = some (.int 1))
    (hmax : getEntry "maxLength" schema = maxLength.map .int) :
    Conforms (.obj schema) value
      ↔ ∃ s, value = .str s ∧ s ≠ "" ∧ ∀ n ∈ maxLength, (s.length : ℤ) ≤ n := by
  have hwithin (s : String) : Within schema "minLength" "maxLength" s.length
      ↔ s ≠ "" ∧ ∀ n ∈ maxLength, (s.length : ℤ) ≤ n := by
    rw [within_iff (show _ = (some 1).map Json.int from hmin) hmax]
    refine and_congr ?_ (forall₂_congr fun n _ => by norm_cast)
    simp only [Option.mem_def, Option.some.injEq, forall_eq']
    norm_cast
    rw [Nat.one_le_iff_ne_zero, ne_eq, String.length_eq_zero_iff]
  constructor
  · intro h
    obtain ⟨s, rfl⟩ := string_of_hasType (hasType_of_conforms h htype)
    cases h with
    | str _ _ hw => exact ⟨s, rfl, (hwithin s).mp hw⟩
  · rintro ⟨s, rfl, hs⟩
    exact .str ((ofType_iff htype).mpr (.string s)) (listed_of_none henum) ((hwithin s).mpr hs)

theorem conforms_text_iff {value : Json} :
    Conforms textSchema value ↔ ∃ s, value = .str s ∧ s ≠ "" := by
  unfold textSchema
  rw [conforms_boundedText_iff rfl rfl rfl (show _ = none.map Json.int from rfl)]
  simp

/-- One of some names. -/
theorem conforms_enum_iff {names : List String} {value : Json} :
    Conforms (.obj [("type", .str "string"), ("enum", .arr (names.map .str))]) value
      ↔ ∃ s ∈ names, value = .str s := by
  constructor
  · intro h
    obtain ⟨s, rfl⟩ := string_of_hasType (hasType_of_conforms h rfl)
    cases h with
    | str _ hl _ =>
      rw [listed_iff rfl] at hl
      obtain ⟨t, ht, hst⟩ := List.mem_map.mp hl
      exact ⟨t, ht, hst.symm⟩
  · rintro ⟨s, hs, rfl⟩
    refine .str ((ofType_iff rfl).mpr (.string s)) ((listed_iff rfl).mpr (by simpa using hs)) ?_
    rw [within_iff (show _ = none.map Json.int from rfl) (show _ = none.map Json.int from rfl)]
    simp

/-! ## Lists and objects -/

theorem conforms_array_iff {schema : List (String × Json)} {minItems : Option ℤ} {itemSchema : Json}
    {value : Json} (htype : getEntry "type" schema = some (.str "array"))
    (henum : getEntry "enum" schema = none)
    (hmin : getEntry "minItems" schema = minItems.map .int)
    (hmax : getEntry "maxItems" schema = none)
    (hitems : getEntry "items" schema = some itemSchema) :
    Conforms (.obj schema) value ↔ ∃ items, value = .arr items
      ∧ (∀ n ∈ minItems, n ≤ (items.length : ℤ)) ∧ ∀ item ∈ items, Conforms itemSchema item := by
  have hwithin (items : List Json) : Within schema "minItems" "maxItems" items.length
      ↔ ∀ n ∈ minItems, n ≤ (items.length : ℤ) := by
    rw [within_iff hmin (show _ = none.map Json.int from hmax)]
    simp only [Option.mem_def, reduceCtorEq, false_implies, implies_true, and_true]
    exact forall₂_congr fun n _ => by norm_cast
  constructor
  · intro h
    obtain ⟨items, rfl⟩ := array_of_hasType (hasType_of_conforms h htype)
    cases h with
    | arr _ _ hw hall => exact ⟨items, rfl, (hwithin items).mp hw, hall itemSchema hitems⟩
  · rintro ⟨items, rfl, hn, hall⟩
    refine .arr ((ofType_iff htype).mpr (.array items)) (listed_of_none henum)
      ((hwithin items).mpr hn) fun schema' hschema' => ?_
    cases hitems.symm.trans hschema'
    exact hall

/-- The keywords of an object's schema. -/
structure ObjectForm (schema : List (String × Json)) (required : List String) (closed : Bool)
    (properties : List (String × Json)) : Prop where
  type : getEntry "type" schema = some (.str "object")
  enum : getEntry "enum" schema = none
  required : (getEntry "required" schema).getD (.arr []) = .arr (required.map .str)
  closed : (getEntry "additionalProperties" schema).getD (.bool true) = .bool (!closed)
  properties : (getEntry "properties" schema).getD (.obj []) = .obj properties

section ObjectForm

variable {schema : List (String × Json)} {required : List String} {closed : Bool}
  {properties : List (String × Json)} (form : ObjectForm schema required closed properties)

include form

theorem ObjectForm.hasRequired_iff {fields : List (String × Json)} :
    HasRequired schema fields ↔ ∀ name ∈ required, HasField fields name := by
  have hrequired := form.required
  unfold HasRequired
  rcases hentry : getEntry "required" schema with _ | t <;> rw [hentry] at hrequired
  · have : required = [] := by simpa using hrequired.symm
    simp [this]
  · simp only [Option.getD_some] at hrequired
    subst hrequired
    simp

theorem ObjectForm.hasNoOther_iff {fields : List (String × Json)} : HasNoOther schema fields
    ↔ (closed = true → ∀ name, HasField fields name → HasField properties name) := by
  have hclosed := form.closed
  have hproperties := form.properties
  have hproperty (name : String) : IsProperty schema name ↔ HasField properties name := by
    unfold IsProperty
    rcases hentry : getEntry "properties" schema with _ | t <;> rw [hentry] at hproperties
    · have : properties = [] := by simpa using hproperties.symm
      simp [this, HasField]
    · simp only [Option.getD_some] at hproperties
      subst hproperties
      simp
  unfold HasNoOther
  simp only [hproperty]
  rcases hentry : getEntry "additionalProperties" schema with _ | t <;> rw [hentry] at hclosed
  · have : closed = false := by simpa using hclosed.symm
    simp [this]
  · simp only [Option.getD_some] at hclosed
    subst hclosed
    simp

theorem ObjectForm.forall_property_iff {P : List (String × Json) → Prop} (hnil : P []) :
    (∀ ps, getEntry "properties" schema = some (.obj ps) → P ps) ↔ P properties := by
  have hproperties := form.properties
  rcases hentry : getEntry "properties" schema with _ | t <;> rw [hentry] at hproperties
  · have : properties = [] := by simpa using hproperties.symm
    simp [this, hnil]
  · simp only [Option.getD_some] at hproperties
    subst hproperties
    simp

/-- What conforms to an object's schema. -/
theorem ObjectForm.conforms_iff {value : Json} :
    Conforms (.obj schema) value ↔ ∃ fields, value = .obj fields
      ∧ (∀ name ∈ required, HasField fields name)
      ∧ (closed = true → ∀ name, HasField fields name → HasField properties name)
      ∧ ∀ name propertySchema field, (name, propertySchema) ∈ properties →
        getEntry name fields = some field → Conforms propertySchema field := by
  constructor
  · intro h
    obtain ⟨fields, rfl⟩ := object_of_hasType (hasType_of_conforms h form.type)
    cases h with
    | obj _ _ hrequired hother hall =>
      refine ⟨fields, rfl, form.hasRequired_iff.mp hrequired, form.hasNoOther_iff.mp hother, ?_⟩
      exact (form.forall_property_iff (P := fun ps => ∀ name propertySchema field,
        (name, propertySchema) ∈ ps → getEntry name fields = some field →
        Conforms propertySchema field) (by simp)).mp
        fun ps hps name propertySchema field => hall ps name propertySchema field hps
  · rintro ⟨fields, rfl, hrequired, hother, hall⟩
    refine .obj ((ofType_iff form.type).mpr (.object fields)) (listed_of_none form.enum)
      (form.hasRequired_iff.mpr hrequired) (form.hasNoOther_iff.mpr hother) ?_
    intro ps name propertySchema field hps
    exact (form.forall_property_iff (P := fun ps => ∀ name propertySchema field,
      (name, propertySchema) ∈ ps → getEntry name fields = some field →
      Conforms propertySchema field) (by simp)).mpr hall ps hps name propertySchema field

end ObjectForm

/-- A schema of objects, with none of the keywords of other kinds. -/
def IsObjectSchema (schema : Json) (required : List String) (closed : Bool)
    (properties : List (String × Json)) : Prop :=
  ∃ entries, schema = .obj entries
    ∧ ["items", "minItems", "maxItems", "minLength", "maxLength", "minimum", "maximum"].all
      (fun key => (getEntry key entries).isNone) = true
    ∧ ObjectForm entries required closed properties

section ObjectSchema

variable {schema : Json} {required : List String} {closed : Bool}
  {properties : List (String × Json)} (h : IsObjectSchema schema required closed properties)

include h

theorem IsObjectSchema.conforms_iff {value : Json} :
    Conforms schema value ↔ ∃ fields, value = .obj fields
      ∧ (∀ name ∈ required, HasField fields name)
      ∧ (closed = true → ∀ name, HasField fields name → HasField properties name)
      ∧ ∀ name propertySchema field, (name, propertySchema) ∈ properties →
        getEntry name fields = some field → Conforms propertySchema field := by
  obtain ⟨entries, rfl, -, form⟩ := h
  exact form.conforms_iff

/-- It is of the language if the schemas of its properties are. -/
theorem IsObjectSchema.wellFormed (hall : ∀ p ∈ properties, WellFormed p.2) :
    WellFormed schema := by
  obtain ⟨entries, rfl, hother, form⟩ := h
  rw [List.all_cons, Bool.and_eq_true, Option.isNone_iff_eq_none, List.all_eq_true] at hother
  obtain ⟨hitems, hlimit⟩ := hother
  refine .intro (fun t ht => ?_) (fun t ht => ?_) (fun t ht => ?_) (fun t ht => ?_)
    (fun key hkey t ht => ?_) (fun t ht => ?_) ?_ (fun t ht => ?_)
  · rw [form.type] at ht
    cases ht
    exact .inl ⟨_, rfl⟩
  · rw [form.enum] at ht
    cases ht
  · have hrequired := form.required
    rw [ht] at hrequired
    exact ⟨required, hrequired⟩
  · have hclosed := form.closed
    rw [ht] at hclosed
    exact ⟨_, hclosed⟩
  · rw [Option.isNone_iff_eq_none.mp (hlimit key hkey)] at ht
    cases ht
  · have hproperties := form.properties
    rw [ht] at hproperties
    exact ⟨properties, hproperties⟩
  · intro ps name propertySchema hps
    exact (form.forall_property_iff (P := fun ps => (name, propertySchema) ∈ ps →
      WellFormed propertySchema) (by simp)).mpr (hall _) ps hps
  · rw [hitems] at ht
    cases ht

end ObjectSchema

/-! ## The language -/

theorem wellFormed_text : WellFormed textSchema := by
  constructor <;> simp [getEntry, IsNumber]

theorem wellFormed_enum (names : List String) :
    WellFormed (.obj [("type", .str "string"), ("enum", .arr (names.map .str))]) := by
  constructor <;> simp [getEntry, IsStrings]

/-- A validator that loads a schema of the language raises nothing exactly if the payload
conforms. -/
theorem failure_validateNode_eq_none_iff {pyStr pyRepr : Json → String} {schema payload : Json}
    (hschema : WellFormed schema) :
    failure (validateNode pyStr pyRepr schema payload "$") = none ↔ Conforms schema payload := by
  obtain ⟨errors, hnode, hiff⟩ : Decides (validateNode pyStr pyRepr schema payload "$") _ :=
    decides_validateNode payload hschema
  rw [hnode, ← hiff]
  rcases errors with _ | ⟨error, errors⟩ <;> simp [failure]

end AgentLearning.ContractValidator
