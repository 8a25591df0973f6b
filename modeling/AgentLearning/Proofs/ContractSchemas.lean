import AgentLearning.ContractValidator

/-!
# The schema language

A schema is a JSON document in which the keywords that the validator knows have their shape, and
what it describes is said by recursion on the value: each kind of value has its keywords, and the
type and the enumeration are for all kinds. The validator decides exactly that and raises nothing
else, whatever keywords a node has.
-/

namespace AgentLearning.ContractValidator

open Gateway

/-! ## What a schema says -/

/-- The types by their names; a boolean is not a number. -/
inductive HasType : Json → String → Prop
  | null : HasType .null "null"
  | object (fields : List (String × Json)) : HasType (.obj fields) "object"
  | array (items : List Json) : HasType (.arr items) "array"
  | string (s : String) : HasType (.str s) "string"
  | boolean (b : Bool) : HasType (.bool b) "boolean"
  | integer (n : ℤ) : HasType (.int n) "integer"
  | integerNumber (n : ℤ) : HasType (.int n) "number"
  | number (q : ℚ) : HasType (.float q) "number"

/-- The value of `type` is this name or a list with it. -/
def Names (t : Json) (name : String) : Prop :=
  t = .str name ∨ ∃ names, t = .arr names ∧ .str name ∈ names

def HasField (fields : List (String × Json)) (name : String) : Prop :=
  name ∈ fields.map Prod.fst

section Keywords

variable (schema : List (String × Json)) (value : Json)

def OfType : Prop :=
  ∀ t, getEntry "type" schema = some t → ∃ name, Names t name ∧ HasType value name

def Listed : Prop := ∀ values, getEntry "enum" schema = some (.arr values) → value ∈ values

/-- Above one limit and below the other, as far as they are there. -/
def Within (lower upper : String) (x : ℚ) : Prop :=
  (∀ limit y, getEntry lower schema = some limit → limit.number = some y → y ≤ x)
    ∧ ∀ limit y, getEntry upper schema = some limit → limit.number = some y → x ≤ y

def HasRequired (fields : List (String × Json)) : Prop :=
  ∀ names, getEntry "required" schema = some (.arr names) →
    ∀ name, .str name ∈ names → HasField fields name

def IsProperty (name : String) : Prop :=
  ∃ properties, getEntry "properties" schema = some (.obj properties) ∧ HasField properties name

def HasNoOther (fields : List (String × Json)) : Prop :=
  getEntry "additionalProperties" schema = some (.bool false) →
    ∀ name, HasField fields name → IsProperty schema name

end Keywords

/-- The value conforms to the schema. -/
inductive Conforms : Json → Json → Prop
  | null {schema} : OfType schema .null → Listed schema .null → Conforms (.obj schema) .null
  | bool {schema b} : OfType schema (.bool b) → Listed schema (.bool b) →
    Conforms (.obj schema) (.bool b)
  | int {schema n} : OfType schema (.int n) → Listed schema (.int n) →
    Within schema "minimum" "maximum" n → Conforms (.obj schema) (.int n)
  | float {schema q} : OfType schema (.float q) → Listed schema (.float q) →
    Within schema "minimum" "maximum" q → Conforms (.obj schema) (.float q)
  | str {schema s} : OfType schema (.str s) → Listed schema (.str s) →
    Within schema "minLength" "maxLength" s.length → Conforms (.obj schema) (.str s)
  | arr {schema items} : OfType schema (.arr items) → Listed schema (.arr items) →
    Within schema "minItems" "maxItems" items.length →
    (∀ itemSchema, getEntry "items" schema = some itemSchema →
      ∀ item ∈ items, Conforms itemSchema item) →
    Conforms (.obj schema) (.arr items)
  | obj {schema fields} : OfType schema (.obj fields) → Listed schema (.obj fields) →
    HasRequired schema fields → HasNoOther schema fields →
    (∀ properties name propertySchema field,
      getEntry "properties" schema = some (.obj properties) → (name, propertySchema) ∈ properties →
      getEntry name fields = some field → Conforms propertySchema field) →
    Conforms (.obj schema) (.obj fields)

def IsStrings (t : Json) : Prop := ∃ names : List String, t = .arr (names.map .str)

def IsNumber (t : Json) : Prop := (∃ n, t = .int n) ∨ ∃ q, t = .float q

/-- The schemas of the language. Other keywords do not matter. -/
inductive WellFormed : Json → Prop
  | intro {schema : List (String × Json)}
    (type : ∀ t, getEntry "type" schema = some t → (∃ name, t = .str name) ∨ IsStrings t)
    (enum : ∀ t, getEntry "enum" schema = some t → IsStrings t)
    (required : ∀ t, getEntry "required" schema = some t → IsStrings t)
    (additionalProperties : ∀ t, getEntry "additionalProperties" schema = some t →
      ∃ b, t = .bool b)
    (limit : ∀ key ∈ ["minItems", "maxItems", "minLength", "maxLength", "minimum", "maximum"],
      ∀ t, getEntry key schema = some t → IsNumber t)
    (properties : ∀ t, getEntry "properties" schema = some t → ∃ properties, t = .obj properties)
    (property : ∀ properties name propertySchema,
      getEntry "properties" schema = some (.obj properties) → (name, propertySchema) ∈ properties →
      WellFormed propertySchema)
    (items : ∀ t, getEntry "items" schema = some t → WellFormed t) : WellFormed (.obj schema)

/-! ## Checks that decide -/

/-- A check raises nothing, and finds no error exactly if this holds. -/
def Decides (report : Report) (P : Prop) : Prop := ∃ errors, report = .ok errors ∧ (errors = [] ↔ P)

namespace Decides

variable {report report' : Report} {P Q : Prop}

theorem congr (h : Decides report P) (hiff : P ↔ Q) : Decides report Q := by
  rwa [← hiff]

theorem nil : Decides (.ok []) True := ⟨[], rfl, by simp⟩

theorem errorIf (violated : Bool) (error : String) :
    Decides (.ok (errorIf violated error)) (violated = false) := by
  refine ⟨_, rfl, ?_⟩
  cases violated <;> simp [ContractValidator.errorIf]

theorem append (h : Decides report P) (h' : Decides report' Q) :
    Decides (do let errors ← report; let errors' ← report'; return errors ++ errors') (P ∧ Q) := by
  obtain ⟨errors, rfl, hP⟩ := h
  obtain ⟨errors', rfl, hQ⟩ := h'
  exact ⟨errors ++ errors', rfl, by rw [List.append_eq_nil_iff, hP, hQ]⟩

theorem append₃ {report'' : Report} {R : Prop} (h : Decides report P) (h' : Decides report' Q)
    (h'' : Decides report'' R) :
    Decides (do
      let errors ← report
      let errors' ← report'
      let errors'' ← report''
      return errors ++ errors' ++ errors'') (P ∧ Q ∧ R) := by
  obtain ⟨errors, rfl, hP⟩ := h
  obtain ⟨errors', rfl, hQ⟩ := h'
  obtain ⟨errors'', rfl, hR⟩ := h''
  refine ⟨errors ++ errors' ++ errors'', rfl, ?_⟩
  rw [List.append_eq_nil_iff, List.append_eq_nil_iff, hP, hQ, hR, and_assoc]

theorem forEach {α : Type} {items : List α} {check : α → Report} {P : α → Prop}
    (h : ∀ item ∈ items, Decides (check item) (P item)) :
    Decides (forEach items check) (∀ item ∈ items, P item) := by
  induction items with
  | nil => exact ⟨[], rfl, by simp⟩
  | cons item items ih =>
    obtain ⟨errors, hcheck, hP⟩ := h item (by simp)
    obtain ⟨errors', hchecks, hPs⟩ := ih fun item hitem => h item (List.mem_cons_of_mem _ hitem)
    unfold ContractValidator.forEach at hchecks ⊢
    rw [List.mapM_cons, hcheck]
    rcases hmapM : items.mapM check with error | rest
    · simp [hmapM, bind, Except.bind] at hchecks
    · simp only [hmapM, bind, Except.bind, pure, Except.pure, Except.ok.injEq] at hchecks
      subst hchecks
      refine ⟨errors ++ rest.flatten, rfl, ?_⟩
      rw [List.append_eq_nil_iff, hP, hPs, List.forall_mem_cons]

end Decides

/-! ## Keywords -/

section Keywords

variable {schema : List (String × Json)} {key : String} {value t : Json}

theorem keyword_eq (h : getEntry key schema ≠ some .null) :
    keyword key schema = getEntry key schema := by
  unfold keyword
  split
  · exact absurd ‹_› h
  · rfl

theorem isType_iff {name : String} : isType value (.str name) = true ↔ HasType value name := by
  constructor
  · intro h
    rcases value with _ | b | n | q | s | items | fields <;>
      simp only [isType, isStr, Bool.or_eq_true, decide_eq_true_eq] at h
    case int => rcases h with rfl | rfl <;> constructor
    all_goals
      subst h
      constructor
  · rintro (_ | _ | _ | _ | _ | _ | _ | _) <;> simp [isType, isStr]

theorem pyEq_str {s : String} : value.pyEq (.str s) = true ↔ value = .str s := by
  rcases value with _ | _ | _ | _ | _ | _ | _ <;> simp [Json.pyEq, Json.number]

theorem number_length (n : ℕ) : (Json.int n).number = some (n : ℚ) := rfl

theorem hasField_iff {fields : List (String × Json)} {name : String} :
    HasField fields name ↔ (getEntry name fields).isSome = true :=
  mem_keys_iff_isSome_getEntry name fields

end Keywords

/-! ## Each check decides its keyword -/

section Checks

variable {pyStr pyRepr : Json → String} {schema : List (String × Json)} {value : Json}
  {path : String}

theorem decides_checkType
    (h : ∀ t, getEntry "type" schema = some t → (∃ name, t = .str name) ∨ IsStrings t) :
    Decides (checkType pyStr schema value path) (OfType schema value) := by
  unfold checkType OfType
  rcases htype : getEntry "type" schema with _ | t
  · rw [keyword_eq (by simp [htype]), htype]
    exact Decides.nil.congr (by simp)
  · rcases h t htype with ⟨name, rfl⟩ | ⟨names, rfl⟩
    · rw [keyword_eq (by simp [htype]), htype]
      refine (Decides.errorIf _ _).congr ?_
      simp [Names, isType_iff]
    · rw [keyword_eq (by simp [htype]), htype]
      refine (Decides.errorIf _ _).congr ?_
      simp [Names, isType_iff]

theorem decides_checkEnum (h : ∀ t, getEntry "enum" schema = some t → IsStrings t) :
    Decides (checkEnum pyStr pyRepr schema value path) (Listed schema value) := by
  unfold checkEnum Listed
  rcases henum : getEntry "enum" schema with _ | t
  · rw [keyword_eq (by simp [henum]), henum]
    exact Decides.nil.congr (by simp)
  · obtain ⟨values, rfl⟩ := h t henum
    rw [keyword_eq (by simp [henum]), henum]
    refine (Decides.errorIf _ _).congr ?_
    simp only [pyEq_str, List.any_map, Bool.not_eq_false', List.any_eq_true, Function.comp_apply,
      Option.some.injEq, Json.arr.injEq, forall_eq', List.mem_map]
    exact exists_congr fun s => and_congr_right fun _ => eq_comm

theorem decides_checkLimit {key noun operator : String} {test : ℚ → ℚ → Bool} {x : ℚ}
    (hvalue : value.number = some x)
    (h : ∀ t, getEntry key schema = some t → IsNumber t) :
    Decides (checkLimit pyStr key noun operator test schema value path)
      (∀ limit y, getEntry key schema = some limit → limit.number = some y → test x y = false) := by
  unfold checkLimit
  rcases hkey : getEntry key schema with _ | limit
  · rw [keyword_eq (by simp [hkey]), hkey]
    exact Decides.nil.congr (by simp)
  · obtain ⟨y, hy⟩ : ∃ y, limit.number = some y := by
      rcases h limit hkey with ⟨n, rfl⟩ | ⟨q, rfl⟩
      · exact ⟨n, rfl⟩
      · exact ⟨q, rfl⟩
    have hnull : limit ≠ .null := by
      rintro rfl
      cases hy
    rw [keyword_eq (by simpa [hkey] using hnull), hkey]
    simp only [compareNumber, hvalue, hy]
    refine (Decides.errorIf _ _).congr ⟨?_, fun htest => htest limit y rfl hy⟩
    rintro htest _ z ⟨rfl⟩ hz
    rwa [← Option.some.inj (hy.symm.trans hz)]

/-- A pair of limits. -/
theorem decides_within {lower upper noun : String} {x : ℚ} (hvalue : value.number = some x)
    (hlower : ∀ t, getEntry lower schema = some t → IsNumber t)
    (hupper : ∀ t, getEntry upper schema = some t → IsNumber t) :
    Decides (do
      let below ← checkMin pyStr lower noun schema value path
      let above ← checkMax pyStr upper noun schema value path
      return below ++ above) (Within schema lower upper x) := by
  refine ((decides_checkLimit hvalue hlower).append (decides_checkLimit hvalue hupper)).congr ?_
  simp [Within]

theorem decides_checkRequired {fields : List (String × Json)}
    (h : ∀ t, getEntry "required" schema = some t → IsStrings t) :
    Decides (checkRequired pyStr schema fields path) (HasRequired schema fields) := by
  unfold checkRequired HasRequired
  rcases hrequired : getEntry "required" schema with _ | t
  · exact Decides.nil.congr (by simp)
  · obtain ⟨names, rfl⟩ := h t hrequired
    refine (Decides.forEach (P := fun name => ∀ s, name = .str s → HasField fields s)
      fun name hname => ?_).congr ?_
    · obtain ⟨s, -, rfl⟩ := List.mem_map.mp hname
      refine (Decides.errorIf _ _).congr ?_
      simp [hasField_iff]
    · simp

theorem decides_checkUnexpected {fields : List (String × Json)}
    (h : ∀ t, getEntry "properties" schema = some t → ∃ properties, t = .obj properties) :
    Decides (checkUnexpected ((getEntry "properties" schema).getD (.obj [])) schema fields path)
      (HasNoOther schema fields) := by
  unfold checkUnexpected HasNoOther
  split
  case h_2 hne => exact Decides.nil.congr (iff_of_true trivial fun hfalse => absurd hfalse hne)
  case h_1 hfalse =>
    refine (Decides.forEach (P := fun field => IsProperty schema field.1) fun field _ => ?_).congr
      ?_
    · unfold IsProperty
      rcases hentry : getEntry "properties" schema with _ | t
      · refine (Decides.errorIf _ _).congr ?_
        simp [getEntry]
      · obtain ⟨properties, rfl⟩ := h t hentry
        refine (Decides.errorIf _ _).congr ?_
        simp [hasField_iff]
    · simp [hfalse, HasField]

theorem decides_checkProperties {validateProperty : String × Json → Report}
    {P : String × Json → Prop}
    (h : ∀ t, getEntry "properties" schema = some t → ∃ properties, t = .obj properties)
    (hproperty : ∀ properties, getEntry "properties" schema = some (.obj properties) →
      ∀ property ∈ properties, Decides (validateProperty property) (P property)) :
    Decides (checkProperties validateProperty ((getEntry "properties" schema).getD (.obj [])))
      (∀ properties, getEntry "properties" schema = some (.obj properties) →
        ∀ property ∈ properties, P property) := by
  rcases hentry : getEntry "properties" schema with _ | t
  · exact ⟨[], rfl, by simp⟩
  · obtain ⟨properties, rfl⟩ := h t hentry
    exact (Decides.forEach (hproperty properties hentry)).congr (by simp)

theorem decides_checkItems {validateItems : Json → Report} {P : Json → Prop}
    (hnull : getEntry "items" schema ≠ some .null)
    (h : ∀ itemSchema, getEntry "items" schema = some itemSchema →
      Decides (validateItems itemSchema) (P itemSchema)) :
    Decides (checkItems validateItems schema)
      (∀ itemSchema, getEntry "items" schema = some itemSchema → P itemSchema) := by
  unfold checkItems
  rw [keyword_eq hnull]
  rcases hitems : getEntry "items" schema with _ | itemSchema
  · exact Decides.nil.congr (by simp)
  · exact (h itemSchema hitems).congr (by simp)

end Checks

/-! ## The validator decides conformance -/

section Node

variable {pyStr pyRepr : Json → String}

theorem validateField_eq (property : String × Json) (path : String) :
    ∀ fields, validateField pyStr pyRepr property fields path
      = match getEntry property.1 fields with
        | none => .ok []
        | some value => validateNode pyStr pyRepr property.2 value s!"{path}.{property.1}"
  | [] => rfl
  | (fieldName, value) :: fields => by
    rw [validateField, getEntry]
    split_ifs with h
    · rfl
    · exact validateField_eq property path fields

theorem decides_validateItems {itemSchema : Json} {P : Json → Prop} {path : String} :
    ∀ {items : List Json} {itemIndex : ℕ},
      (∀ item ∈ items, ∀ path, Decides (validateNode pyStr pyRepr itemSchema item path) (P item)) →
      Decides (validateItems pyStr pyRepr itemSchema items itemIndex path) (∀ item ∈ items, P item)
  | [], _, _ => Decides.nil.congr (by simp)
  | item :: items, itemIndex, h => by
    have hitem := h item (by simp) s!"{path}[{itemIndex}]"
    have hitems : Decides (validateItems pyStr pyRepr itemSchema items (itemIndex + 1) path) _ :=
      decides_validateItems fun item hitem => h item (List.mem_cons_of_mem _ hitem)
    rw [validateItems]
    exact (hitem.append hitems).congr (by simp)

/-- A node, from what its kind of value has to meet. -/
theorem decides_node {schema : List (String × Json)} {value : Json} {path : String}
    {nested : Report} {P : Prop} (h : WellFormed (.obj schema)) (hnested : Decides nested P) :
    Decides (do
      let mistyped ← checkType pyStr schema value path
      if !mistyped.isEmpty then return mistyped
      let unlisted ← checkEnum pyStr pyRepr schema value path
      let nested ← nested
      return unlisted ++ nested) (OfType schema value ∧ Listed schema value ∧ P) := by
  rcases h with ⟨htype, henum, -, -, -, -, -, -⟩
  have htyped : Decides (checkType pyStr schema value path) (OfType schema value) :=
    decides_checkType htype
  have hlisted : Decides (checkEnum pyStr pyRepr schema value path) (Listed schema value) :=
    decides_checkEnum henum
  have hrest := hlisted.append hnested
  obtain ⟨mistyped, hmistyped, hofType⟩ := htyped
  rw [hmistyped]
  rcases mistyped with _ | ⟨error, errors⟩
  · exact hrest.congr (by simp [← hofType])
  · exact ⟨error :: errors, rfl, by simp [← hofType]⟩

variable {schema : List (String × Json)} {path : String}

/-- The keywords of an array, if the items decide by the schema of items. -/
theorem decides_validateArray {items : List Json} (h : WellFormed (.obj schema))
    (hitem : ∀ item ∈ items, ∀ {itemSchema : Json} {path : String}, WellFormed itemSchema →
      Decides (validateNode pyStr pyRepr itemSchema item path) (Conforms itemSchema item)) :
    Decides (validateArray pyStr
        (fun itemSchema => validateItems pyStr pyRepr itemSchema items 0 path) schema items path)
      (Within schema "minItems" "maxItems" items.length
        ∧ ∀ itemSchema, getEntry "items" schema = some itemSchema →
          ∀ item ∈ items, Conforms itemSchema item) := by
  rcases h with ⟨-, -, -, -, hlimit, -, -, hitems⟩
  have hnested : Decides (checkItems
        (fun itemSchema => validateItems pyStr pyRepr itemSchema items 0 path) schema)
      (∀ itemSchema, getEntry "items" schema = some itemSchema →
        ∀ item ∈ items, Conforms itemSchema item) :=
    decides_checkItems (fun hnull => nomatch hitems _ hnull) fun itemSchema hentry =>
      decides_validateItems fun item hmem path => hitem item hmem (hitems itemSchema hentry)
  have hmin : Decides (checkMin pyStr "minItems" "length" schema (.int items.length) path) _ :=
    decides_checkLimit (number_length items.length) (hlimit "minItems" (by simp))
  have hmax : Decides (checkMax pyStr "maxItems" "length" schema (.int items.length) path) _ :=
    decides_checkLimit (number_length items.length) (hlimit "maxItems" (by simp))
  refine (hmin.append₃ hmax hnested).congr ?_
  simp [Within, and_assoc]

/-- The keywords of an object, if the fields decide by the schemas of their properties. -/
theorem decides_validateObject {fields : List (String × Json)} (h : WellFormed (.obj schema))
    (hfield : ∀ field ∈ fields, ∀ {fieldSchema : Json} {path : String}, WellFormed fieldSchema →
      Decides (validateNode pyStr pyRepr fieldSchema field.2 path)
        (Conforms fieldSchema field.2)) :
    Decides (validateObject pyStr (fun property => validateField pyStr pyRepr property fields path)
        schema fields path)
      (HasRequired schema fields ∧ HasNoOther schema fields
        ∧ ∀ properties, getEntry "properties" schema = some (.obj properties) →
          ∀ property ∈ properties, ∀ field, getEntry property.1 fields = some field →
            Conforms property.2 field) := by
  rcases h with ⟨-, -, hrequired, -, -, hproperties, hproperty, -⟩
  refine (decides_checkRequired hrequired).append₃ (decides_checkUnexpected hproperties)
    (decides_checkProperties hproperties fun properties hentry property hmem => ?_)
  rw [validateField_eq]
  rcases hget : getEntry property.1 fields with _ | field
  · exact Decides.nil.congr (by simp)
  · have hwellFormed : WellFormed property.2 := hproperty _ _ _ hentry hmem
    exact (hfield _ (mem_of_getEntry hget) hwellFormed).congr (by simp)

/-- By induction on the value, for all schemas at once. -/
theorem decides_validateNode (value : Json) : ∀ {schema : Json} {path : String},
    WellFormed schema → Decides (validateNode pyStr pyRepr schema value path)
      (Conforms schema value) := by
  induction value using Json.children_induct with
  | _ value ih =>
  intro schema path hschema
  obtain ⟨schema, rfl⟩ : ∃ entries, schema = .obj entries := by
    rcases hschema with ⟨⟩
    exact ⟨_, rfl⟩
  have hlimit : ∀ key ∈ ["minItems", "maxItems", "minLength", "maxLength", "minimum", "maximum"],
      ∀ t, getEntry key schema = some t → IsNumber t := by
    rcases hschema with ⟨-, -, -, -, hlimit, -, -, -⟩
    exact hlimit
  rcases value with _ | b | n | q | s | items | fields
  · refine (decides_node hschema Decides.nil).congr ⟨fun h => .null h.1 h.2.1, ?_⟩
    rintro ⟨htype, hlisted⟩
    exact ⟨htype, hlisted, trivial⟩
  · refine (decides_node hschema Decides.nil).congr ⟨fun h => .bool h.1 h.2.1, ?_⟩
    rintro (_ | ⟨htype, hlisted⟩)
    exact ⟨htype, hlisted, trivial⟩
  · have hnumber : Decides (validateNumber pyStr schema (.int n) path) _ :=
      decides_within rfl (hlimit "minimum" (by simp)) (hlimit "maximum" (by simp))
    refine (decides_node hschema hnumber).congr ⟨fun h => .int h.1 h.2.1 h.2.2, ?_⟩
    rintro (_ | _ | ⟨htype, hlisted, hrange⟩)
    exact ⟨htype, hlisted, hrange⟩
  · have hnumber : Decides (validateNumber pyStr schema (.float q) path) _ :=
      decides_within rfl (hlimit "minimum" (by simp)) (hlimit "maximum" (by simp))
    refine (decides_node hschema hnumber).congr ⟨fun h => .float h.1 h.2.1 h.2.2, ?_⟩
    rintro (_ | _ | _ | ⟨htype, hlisted, hrange⟩)
    exact ⟨htype, hlisted, hrange⟩
  · have hstring : Decides (validateString pyStr schema s path) _ :=
      decides_within (number_length s.length) (hlimit "minLength" (by simp))
        (hlimit "maxLength" (by simp))
    refine (decides_node hschema hstring).congr ⟨fun h => .str h.1 h.2.1 h.2.2, ?_⟩
    rintro (_ | _ | _ | _ | ⟨htype, hlisted, hrange⟩)
    exact ⟨htype, hlisted, hrange⟩
  · have harray : Decides (validateArray pyStr
        (fun itemSchema => validateItems pyStr pyRepr itemSchema items 0 path) schema items path)
        _ := decides_validateArray hschema ih
    refine (decides_node hschema harray).congr ⟨fun h => .arr h.1 h.2.1 h.2.2.1 h.2.2.2, ?_⟩
    rintro (_ | _ | _ | _ | _ | ⟨htype, hlisted, hcount, hall⟩)
    exact ⟨htype, hlisted, hcount, hall⟩
  · have hobject : Decides (validateObject pyStr
        (fun property => validateField pyStr pyRepr property fields path) schema fields path) _ :=
      decides_validateObject hschema fun field hmem => ih field.2 (List.mem_map_of_mem hmem)
    refine (decides_node hschema hobject).congr ⟨fun h => ?_, ?_⟩
    · obtain ⟨htype, hlisted, hrequired, hother, hall⟩ := h
      refine .obj htype hlisted hrequired hother ?_
      intro properties name propertySchema field hentry hmem
      exact hall properties hentry (name, propertySchema) hmem field
    · rintro (_ | _ | _ | _ | _ | _ | ⟨htype, hlisted, hrequired, hother, hall⟩)
      exact ⟨htype, hlisted, hrequired, hother, fun properties hentry property hmem field =>
        hall properties property.1 property.2 field hentry hmem⟩

end Node

/-- For every schema of the language, the validator raises a contract error or nothing, and nothing
exactly if the payload conforms. -/
theorem validate_iff_conforms (pyStr pyRepr : Json → String) (validator : ContractValidator)
    (read : String → Except PyError Json) (schemaPath : String) {schema : Json}
    (hload : (validator.loadSchema read schemaPath).1 = .ok schema) (hschema : WellFormed schema)
    (payload : Json) :
    ((validator.validate pyStr pyRepr read schemaPath payload).1 = none ↔ Conforms schema payload)
      ∧ ∀ error,
        (validator.validate pyStr pyRepr read schemaPath payload).1 ≠ some (.other error) := by
  have hdecides : Decides (validateNode pyStr pyRepr schema payload "$") _ :=
    decides_validateNode payload hschema
  obtain ⟨errors, hnode, hiff⟩ := hdecides
  have hvalidate : (validator.validate pyStr pyRepr read schemaPath payload).1
      = failure (.ok errors) := by
    rw [← hnode]
    exact congrArg (fun loaded => failure (Except.bind loaded fun schema =>
      validateNode pyStr pyRepr schema payload "$")) hload
  rw [hvalidate, ← hiff]
  rcases errors with _ | ⟨error, errors⟩ <;> simp [failure]

/-- An empty query is too short, however deep it lies. -/
theorem validate_iff_conforms_query :
    let query := Json.obj [("type", .str "string"), ("minLength", .int 1)]
    let queries := Json.obj [("type", .arr [.str "array", .str "null"]), ("items", query)]
    let schema := Json.obj
      [("required", .arr [.str "queries"]), ("properties", .obj [("queries", queries)])]
    ¬ Conforms schema (.obj [("queries", .arr [.str "tools", .str ""])]) := by
  intro query queries schema hconforms
  have hquery : WellFormed query := by
    constructor <;> simp [getEntry, IsNumber]
  have hqueries : WellFormed queries := by
    constructor <;> simp [getEntry, hquery]
    exact ⟨["array", "null"], rfl⟩
  have hschema : WellFormed schema := by
    constructor <;> simp [getEntry]
    · exact ⟨["queries"], rfl⟩
    · rintro _ name propertySchema rfl hmem
      rw [List.mem_singleton, Prod.mk.injEq] at hmem
      rwa [hmem.2]
  let payload := Json.obj [("queries", .arr [.str "tools", .str ""])]
  have hvalidate := (validate_iff_conforms (fun _ => "") (fun _ => "") {} (fun _ => .ok schema)
    "queries.schema.json" rfl hschema payload).1.mpr hconforms
  have hraises : (validate (fun _ => "") (fun _ => "") {} (fun _ => .ok schema)
      "queries.schema.json" payload).1.isSome = true := by
    decide +kernel
  rw [hvalidate] at hraises
  cases hraises

end AgentLearning.ContractValidator
