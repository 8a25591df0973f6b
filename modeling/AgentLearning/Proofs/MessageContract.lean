import AgentLearning.ProtocolValidator
import AgentLearning.Proofs.ContractSchemas

/-!
# Messages and their contract

The validator looks into `header` and `meta` without asking whether they are objects, and into a
set of strings for whatever stands in a field, so it raises on some messages. Of those it accepts
it knows less than the schema says: how the version begins, that the ids are there, that the
priority is a number from 1 to 5 to the interpreter, and that `conflict_fields` is a list.
-/

namespace AgentLearning.ProtocolValidator

open Gateway
open ContractValidator (Decides HasField HasRequired HasType Listed Within errorIf
  hasField_iff isType isType_iff)

/-! ## What the validator asks for -/

/-- A value that a set can be asked for. -/
def Hashable : Json → Prop
  | .arr _ | .obj _ => False
  | _ => True

/-- The field is one of these strings. -/
def IsOneOf (members : List String) (fields : List (String × Json)) (key : String) : Prop :=
  ∃ s ∈ members, getEntry key fields = some (.str s)

structure TopLevel (message : List (String × Json)) : Prop where
  present : ∀ name ∈ topLevelFields, HasField message name
  version : ∃ version, getEntry "version" message = some (.str version)
    ∧ ∃ start ∈ supportedVersionPrefixes, start.toList <+: version.toList

structure HeaderAccepted (header : List (String × Json)) : Prop where
  present : ∀ name ∈ headerFields, HasField header name
  sender : IsOneOf supportedRoles header "sender_role"
  receiver : IsOneOf supportedRoles header "receiver_role"
  type : IsOneOf supportedMessageTypes header "message_type"

structure MetaAccepted (metaField : List (String × Json)) : Prop where
  present : ∀ name ∈ metaFields, HasField metaField name
  status : IsOneOf supportedStatuses metaField "status"
  priority : ∃ priority, getEntry "priority" metaField = some priority
    ∧ priorityInRange priority = true
  conflictFields : ∀ value, getEntry "conflict_fields" metaField = some value →
    ∃ items, value = .arr items

/-- The payload has the field that the type of the message requires. -/
def Carries (header payload : List (String × Json)) : Prop :=
  ∀ type field, (type, field) ∈ payloadFields → getEntry "message_type" header = some (.str type) →
    HasField payload field

/-- The fields that are looked into are objects, and what a set is asked for can be hashed. -/
def WellShaped (message : List (String × Json)) : Prop :=
  ∃ header metaField, getEntry "header" message = some (.obj header)
    ∧ getEntry "meta" message = some (.obj metaField)
    ∧ (∀ key ∈ ["sender_role", "receiver_role", "message_type"], ∀ value,
      getEntry key header = some value → Hashable value)
    ∧ ∀ value, getEntry "status" metaField = some value → Hashable value

/-! ## The single checks -/

section Checks

variable (pyStr : Json → String) {key : String} {fields : List (String × Json)} {value : Json}
  (noun : String) (members : List String)

theorem decides_checkMissing (names : List String) (fields : List (String × Json)) :
    Decides (checkMissing noun names (.obj fields)) (∀ name ∈ names, HasField fields name) := by
  refine Decides.forEach fun name _ => ?_
  refine (Decides.errorIf _ _).congr ?_
  rw [Bool.not_eq_false', hasField_iff]

theorem decides_checkSupported (h : Hashable value) :
    Decides (checkSupported pyStr noun members value) (∃ s ∈ members, value = .str s) := by
  unfold checkSupported
  rcases value with _ | _ | _ | _ | s | _ | _
  case arr => exact h.elim
  case obj => exact h.elim
  case str =>
    refine (Decides.errorIf _ _).congr ?_
    simp
  all_goals
    refine (Decides.errorIf _ _).congr ?_
    simp

theorem checkSupported_raises (h : ¬ Hashable value) :
    ∃ error, checkSupported pyStr noun members value = .error error := by
  unfold checkSupported
  rcases value with _ | _ | _ | _ | _ | _ | _
  case arr => exact ⟨_, rfl⟩
  case obj => exact ⟨_, rfl⟩
  all_goals exact absurd trivial h

theorem getD_null_eq_str {s : String} :
    (getEntry key fields).getD .null = .str s ↔ getEntry key fields = some (.str s) := by
  rcases getEntry key fields with _ | value <;> simp

theorem hashable_getD :
    Hashable ((getEntry key fields).getD .null)
      ↔ ∀ value, getEntry key fields = some value → Hashable value := by
  rcases getEntry key fields with _ | value
  · simp [Hashable]
  · simp

theorem decides_checkField (h : ∀ value, getEntry key fields = some value → Hashable value) :
    Decides (checkSupported pyStr noun members ((getEntry key fields).getD .null))
      (IsOneOf members fields key) := by
  refine (decides_checkSupported pyStr noun members (hashable_getD.mpr h)).congr ?_
  simp only [getD_null_eq_str, IsOneOf]

theorem decides_checkVersion (version : Json) :
    Decides (.ok (checkVersion version)) (∃ s, version = .str s
      ∧ ∃ start ∈ supportedVersionPrefixes, start.toList <+: s.toList) := by
  unfold checkVersion
  rcases version with _ | _ | _ | _ | s | _ | _
  case str =>
    refine (Decides.errorIf _ _).congr ?_
    simp
  all_goals exact ⟨_, rfl, by simp⟩

theorem isStr_iff {s : String} : isStr value s = true ↔ value = .str s := by
  rcases value <;> simp [isStr]

theorem priorityInRange_getD :
    priorityInRange ((getEntry "priority" fields).getD .null) = true
      ↔ ∃ priority, getEntry "priority" fields = some priority
        ∧ priorityInRange priority = true := by
  rcases getEntry "priority" fields with _ | priority
  · simp [priorityInRange]
  · simp

theorem isList_getD :
    isList ((getEntry "conflict_fields" fields).getD (.arr [])) = true
      ↔ ∀ value, getEntry "conflict_fields" fields = some value → ∃ items, value = .arr items := by
  rcases getEntry "conflict_fields" fields with _ | value
  · simp [isList]
  · rcases value <;> simp [isList]

end Checks

/-! ## The parts of a message -/

section Parts

variable (pyStr : Json → String) {header metaField : List (String × Json)}

theorem decides_validateTopLevel (message : List (String × Json)) :
    Decides (validateTopLevel message) (TopLevel message) := by
  have hall := (decides_checkMissing "top-level" topLevelFields message).append
    (decides_checkVersion ((getEntry "version" message).getD .null))
  refine Decides.congr hall ?_
  simp only [getD_null_eq_str]
  exact ⟨fun h => ⟨h.1, h.2⟩, fun h => ⟨h.present, h.version⟩⟩

theorem decides_validateHeader
    (h : ∀ key ∈ ["sender_role", "receiver_role", "message_type"], ∀ value,
      getEntry key header = some value → Hashable value) :
    Decides (validateHeader pyStr (.obj header)) (HeaderAccepted header) := by
  simp only [List.forall_mem_cons, List.not_mem_nil, false_imp_iff, implies_true, and_true] at h
  obtain ⟨hsender, hreceiver, htype⟩ := h
  have hall := (decides_checkMissing "header" headerFields header).append
    ((decides_checkField pyStr "sender_role" supportedRoles hsender).append
      ((decides_checkField pyStr "receiver_role" supportedRoles hreceiver).append
        (decides_checkField pyStr "message_type" supportedMessageTypes htype)))
  simp only [bind_assoc, pure_bind] at hall
  exact Decides.congr hall ⟨fun h => ⟨h.1, h.2.1, h.2.2.1, h.2.2.2⟩,
    fun h => ⟨h.present, h.sender, h.receiver, h.type⟩⟩

theorem decides_validateMeta
    (h : ∀ value, getEntry "status" metaField = some value → Hashable value) :
    Decides (validateMeta pyStr (.obj metaField)) (MetaAccepted metaField) := by
  have hall := (decides_checkMissing "meta" metaFields metaField).append
    ((decides_checkField pyStr "status" supportedStatuses h).append
      ((Decides.errorIf (!priorityInRange ((getEntry "priority" metaField).getD .null))
        "priority must be integer in range 1..5").append
        (Decides.errorIf (!isList ((getEntry "conflict_fields" metaField).getD (.arr [])))
          "conflict_fields must be list")))
  simp only [bind_assoc, pure_bind] at hall
  refine Decides.congr hall ?_
  rw [Bool.not_eq_false', Bool.not_eq_false', priorityInRange_getD, isList_getD]
  exact ⟨fun h => ⟨h.1, h.2.1, h.2.2.1, h.2.2.2⟩,
    fun h => ⟨h.present, h.status, h.priority, h.conflictFields⟩⟩

theorem decides_validatePayload (header payload : List (String × Json)) :
    Decides (validatePayload (.obj payload) (.obj header)) (Carries header payload) := by
  refine ⟨_, rfl, ?_⟩
  rw [List.flatMap_eq_nil_iff]
  have herror : ∀ type field, errorIf (isStr ((getEntry "message_type" header).getD .null) type
      && (getEntry field payload).isNone) s!"{type} requires payload.{field}" = []
      ↔ getEntry "message_type" header = some (.str type) → HasField payload field := by
    intro type field
    rw [hasField_iff, ← getD_null_eq_str, ← isStr_iff]
    unfold errorIf
    rcases isStr ((getEntry "message_type" header).getD .null) type <;>
      rcases getEntry field payload <;> simp
  exact ⟨fun h type field hmem => (herror type field).mp (h _ hmem),
    fun h entry hmem => (herror entry.1 entry.2).mpr (h entry.1 entry.2 hmem)⟩

end Parts

/-! ## The message -/

/-- The messages that the validator lets through. -/
def Accepted (message : List (String × Json)) : Prop :=
  TopLevel message ∧ ∃ header metaField payload, getEntry "header" message = some (.obj header)
    ∧ getEntry "meta" message = some (.obj metaField)
    ∧ getEntry "payload" message = some (.obj payload)
    ∧ HeaderAccepted header ∧ MetaAccepted metaField ∧ Carries header payload

section Message

variable {pyStr : Json → String} {message : List (String × Json)}

theorem exists_of_bind_eq_ok {α β : Type} {x : Except PyError α} {f : α → Except PyError β} {b : β}
    (h : x >>= f = .ok b) : ∃ a, x = .ok a ∧ f a = .ok b := by
  rcases x with error | a
  · cases h
  · exact ⟨a, rfl, h⟩

/-- What `get` is asked of is an object. -/
theorem pyGet_eq_ok {value default field : Json} {key : String}
    (h : value.pyGet key default = .ok field) :
    ∃ fields, value = .obj fields ∧ (getEntry key fields).getD default = field := by
  unfold Json.pyGet at h
  rcases value with _ | _ | _ | _ | _ | _ | fields <;> cases h
  exact ⟨fields, rfl, rfl⟩

theorem hashable_of_checkSupported {noun key : String} {members errors : List String}
    {fields : List (String × Json)}
    (h : checkSupported pyStr noun members ((getEntry key fields).getD .null) = .ok errors) :
    ∀ value, getEntry key fields = some value → Hashable value := by
  rw [← hashable_getD]
  by_contra hhash
  obtain ⟨error, herror⟩ := checkSupported_raises pyStr noun members hhash
  rw [herror] at h
  cases h

theorem of_validateHeader {header : Json} {errors : List String}
    (h : validateHeader pyStr header = .ok errors) :
    ∃ fields, header = .obj fields ∧ ∀ key ∈ ["sender_role", "receiver_role", "message_type"],
      ∀ value, getEntry key fields = some value → Hashable value := by
  unfold validateHeader at h
  obtain ⟨_, -, h⟩ := exists_of_bind_eq_ok h
  obtain ⟨senderRole, hsender, h⟩ := exists_of_bind_eq_ok h
  obtain ⟨fields, rfl, rfl⟩ := pyGet_eq_ok hsender
  refine ⟨fields, rfl, ?_⟩
  obtain ⟨_, ⟨⟩, h⟩ := exists_of_bind_eq_ok h
  obtain ⟨_, ⟨⟩, h⟩ := exists_of_bind_eq_ok h
  obtain ⟨_, hsender, h⟩ := exists_of_bind_eq_ok h
  obtain ⟨_, hreceiver, h⟩ := exists_of_bind_eq_ok h
  obtain ⟨_, htype, -⟩ := exists_of_bind_eq_ok h
  simp only [List.forall_mem_cons, List.not_mem_nil, false_imp_iff, implies_true, and_true]
  exact ⟨hashable_of_checkSupported hsender, hashable_of_checkSupported hreceiver,
    hashable_of_checkSupported htype⟩

theorem of_validateMeta {metaField : Json} {errors : List String}
    (h : validateMeta pyStr metaField = .ok errors) :
    ∃ fields, metaField = .obj fields
      ∧ ∀ value, getEntry "status" fields = some value → Hashable value := by
  unfold validateMeta at h
  obtain ⟨_, -, h⟩ := exists_of_bind_eq_ok h
  obtain ⟨status, hstatus, h⟩ := exists_of_bind_eq_ok h
  obtain ⟨fields, rfl, rfl⟩ := pyGet_eq_ok hstatus
  obtain ⟨_, hsupported, -⟩ := exists_of_bind_eq_ok h
  exact ⟨fields, rfl, hashable_of_checkSupported hsupported⟩

/-- A message that lacks a part, or is of another version, goes no further. -/
theorem validateMessage_of_not_topLevel (pyStr : Json → String) (h : ¬ TopLevel message) :
    ∃ errors, validateMessage pyStr message = .ok { valid := false, errors } := by
  obtain ⟨errors, herrors, hnil⟩ := decides_validateTopLevel message
  have hempty : errors.isEmpty = false := by
    rw [List.isEmpty_eq_false_iff]
    exact fun h' => h (hnil.mp h')
  refine ⟨errors, ?_⟩
  rw [validateMessage, herrors]
  exact if_pos (by rw [hempty]; rfl)

theorem TopLevel.validateMessage_eq (h : TopLevel message) :
    validateMessage pyStr message = (do
      let header ← item message "header"
      let metaField ← item message "meta"
      let headerErrors ← validateHeader pyStr header
      let metaErrors ← validateMeta pyStr metaField
      let payload ← item message "payload"
      let payloadErrors ← validatePayload payload header
      let errors := headerErrors ++ (metaErrors ++ payloadErrors)
      return { valid := errors.isEmpty, errors }) := by
  obtain ⟨errors, herrors, hnil⟩ := decides_validateTopLevel message
  obtain rfl := hnil.mpr h
  simp only [validateMessage, herrors]
  rfl

theorem TopLevel.item_eq (h : TopLevel message) (key : String) (hkey : key ∈ topLevelFields) :
    ∃ value, getEntry key message = some value ∧ item message key = .ok value := by
  have hfield := h.present key hkey
  rw [hasField_iff, Option.isSome_iff_exists] at hfield
  obtain ⟨value, hvalue⟩ := hfield
  exact ⟨value, hvalue, by rw [item, hvalue]⟩

theorem WellShaped.of_returns (h : TopLevel message) {result : ProtocolValidationResult}
    (hresult : validateMessage pyStr message = .ok result) : WellShaped message := by
  rw [h.validateMessage_eq] at hresult
  obtain ⟨header, hheader, hitem⟩ := h.item_eq "header" (by decide)
  obtain ⟨metaField, hmeta, hitem'⟩ := h.item_eq "meta" (by decide)
  obtain ⟨_, heq, hresult⟩ := exists_of_bind_eq_ok hresult
  obtain rfl : header = _ := Except.ok.inj (hitem.symm.trans heq)
  obtain ⟨_, heq, hresult⟩ := exists_of_bind_eq_ok hresult
  obtain rfl : metaField = _ := Except.ok.inj (hitem'.symm.trans heq)
  obtain ⟨_, hheaderErrors, hresult⟩ := exists_of_bind_eq_ok hresult
  obtain ⟨_, hmetaErrors, -⟩ := exists_of_bind_eq_ok hresult
  obtain ⟨fields, rfl, hhash⟩ := of_validateHeader hheaderErrors
  obtain ⟨fields', rfl, hhash'⟩ := of_validateMeta hmetaErrors
  exact ⟨fields, fields', hheader, hmeta, hhash, hhash'⟩

/-- With the parts of their shape the errors tell whether the message is one to let through. -/
theorem WellShaped.validateMessage_eq (pyStr : Json → String) (hshaped : WellShaped message)
    (h : TopLevel message) :
    ∃ result, validateMessage pyStr message = .ok result
      ∧ (result.valid = true ↔ Accepted message) := by
  obtain ⟨header, metaField, hheader, hmeta, hhash, hhash'⟩ := hshaped
  obtain ⟨payload, hpayload, hitem⟩ := h.item_eq "payload" (by decide)
  obtain ⟨headerErrors, hheaderErrors, hheaderNil⟩ := decides_validateHeader pyStr hhash
  obtain ⟨metaErrors, hmetaErrors, hmetaNil⟩ := decides_validateMeta pyStr hhash'
  have hpayloadErrors : ∃ payloadErrors, validatePayload payload (.obj header) = .ok payloadErrors
      ∧ (payloadErrors = [] ↔ ∃ fields, payload = .obj fields ∧ Carries header fields) := by
    rcases payload with _ | _ | _ | _ | _ | _ | fields
    case obj =>
      obtain ⟨errors, herrors, hnil⟩ := decides_validatePayload header fields
      exact ⟨errors, herrors, by simp [hnil]⟩
    all_goals exact ⟨_, rfl, by simp⟩
  obtain ⟨payloadErrors, hpayloadErrors, hpayloadNil⟩ := hpayloadErrors
  refine ⟨{ valid := (headerErrors ++ (metaErrors ++ payloadErrors)).isEmpty,
            errors := headerErrors ++ (metaErrors ++ payloadErrors) }, ?_, ?_⟩
  · have hitemHeader : item message "header" = .ok (.obj header) := by rw [item, hheader]
    have hitemMeta : item message "meta" = .ok (.obj metaField) := by rw [item, hmeta]
    simp only [h.validateMessage_eq, hitemHeader, hitemMeta, hitem, hheaderErrors, hmetaErrors,
      hpayloadErrors, bind, Except.bind, pure, Except.pure]
  · rw [List.isEmpty_iff, List.append_eq_nil_iff, List.append_eq_nil_iff, hheaderNil, hmetaNil,
      hpayloadNil]
    constructor
    · rintro ⟨hheaderAccepted, hmetaAccepted, fields, rfl, hcarries⟩
      exact ⟨h, header, metaField, fields, hheader, hmeta, hpayload, hheaderAccepted,
        hmetaAccepted, hcarries⟩
    · rintro ⟨-, header', metaField', fields, hheader', hmeta', hpayload', hheaderAccepted,
        hmetaAccepted, hcarries⟩
      rw [hheader] at hheader'
      rw [hmeta] at hmeta'
      rw [hpayload] at hpayload'
      cases hheader'
      cases hmeta'
      cases hpayload'
      exact ⟨hheaderAccepted, hmetaAccepted, fields, rfl, hcarries⟩

theorem TopLevel.of_accepted (h : Accepted message) : TopLevel message := h.1

theorem WellShaped.of_accepted (h : Accepted message) : WellShaped message := by
  obtain ⟨-, header, metaField, payload, hheader, hmeta, -, hheaderAccepted, hmetaAccepted, -⟩ := h
  have hhash : ∀ {members key fields}, IsOneOf members fields key →
      ∀ value, getEntry key fields = some value → Hashable value := by
    rintro members key fields ⟨s, -, hs⟩ value hvalue
    rw [hs] at hvalue
    cases hvalue
    exact trivial
  refine ⟨header, metaField, hheader, hmeta, ?_, hhash hmetaAccepted.status⟩
  simp only [List.forall_mem_cons, List.not_mem_nil, false_imp_iff, implies_true, and_true]
  exact ⟨hhash hheaderAccepted.sender, hhash hheaderAccepted.receiver, hhash hheaderAccepted.type⟩

/-- The validator lets exactly these through. -/
theorem valid_iff_accepted :
    (∃ result, validateMessage pyStr message = .ok result ∧ result.valid = true)
      ↔ Accepted message := by
  constructor
  · rintro ⟨result, hresult, hvalid⟩
    by_cases h : TopLevel message
    · obtain ⟨result', hresult', hiff⟩ :=
        (WellShaped.of_returns h hresult).validateMessage_eq pyStr h
      rw [hresult] at hresult'
      cases hresult'
      exact hiff.mp hvalid
    · obtain ⟨errors, herrors⟩ := validateMessage_of_not_topLevel pyStr h
      rw [hresult] at herrors
      cases herrors
      cases hvalid
  · intro h
    obtain ⟨result, hresult, hiff⟩ :=
      (WellShaped.of_accepted h).validateMessage_eq pyStr (TopLevel.of_accepted h)
    exact ⟨result, hresult, hiff.mpr h⟩

/-- The validator returns unless a message of the right version has a `header` or `meta` that is
no object, or something in a role, type or status that cannot be hashed. -/
theorem validateMessage_returns_iff (pyStr : Json → String) (message : List (String × Json)) :
    (∃ result, validateMessage pyStr message = .ok result)
      ↔ (TopLevel message → WellShaped message) := by
  constructor
  · rintro ⟨result, hresult⟩ h
    exact WellShaped.of_returns h hresult
  · intro hshaped
    by_cases h : TopLevel message
    · obtain ⟨result, hresult, -⟩ := (hshaped h).validateMessage_eq pyStr h
      exact ⟨result, hresult⟩
    · obtain ⟨errors, herrors⟩ := validateMessage_of_not_topLevel pyStr h
      exact ⟨_, herrors⟩

/-- A header that is a number. -/
theorem validateMessage_number_header :
    ¬ ∀ pyStr message, ∃ result, validateMessage pyStr message = .ok result := by
  intro h
  obtain ⟨result, hresult⟩ := h (fun _ => "") [("version", .str "1.0.0"), ("header", .int 5),
    ("payload", .obj []), ("meta", .obj [])]
  cases hresult

end Message

/-! ## The meaning of the schema -/

def IsDigit (c : Char) : Prop := '0' ≤ c ∧ c ≤ '9'

/-- The rest of an anchored pattern of literals, escapes and repeated ranges. -/
inductive MatchesRest : List Char → List Char → Prop
  | done : MatchesRest ['$'] []
  | literal {c pattern s} :
    c ∉ ['\\', '^', '$', '.', '[', ']', '(', ')', '{', '}', '*', '+', '?', '|'] →
    MatchesRest pattern s → MatchesRest (c :: pattern) (c :: s)
  | escape {c pattern s} : MatchesRest pattern s → MatchesRest ('\\' :: c :: pattern) (c :: s)
  | once {lo hi c pattern s} : lo ≤ c → c ≤ hi → MatchesRest pattern s →
    MatchesRest ('[' :: lo :: '-' :: hi :: ']' :: '+' :: pattern) (c :: s)
  | more {lo hi c pattern s} : lo ≤ c → c ≤ hi →
    MatchesRest ('[' :: lo :: '-' :: hi :: ']' :: '+' :: pattern) s →
    MatchesRest ('[' :: lo :: '-' :: hi :: ']' :: '+' :: pattern) (c :: s)

def Matches (pattern s : String) : Prop :=
  ∃ rest, pattern.toList = '^' :: rest ∧ MatchesRest rest s.toList

/-- The types of the draft, where a number without a fraction is an integer. -/
def HasSchemaType (value : Json) (type : String) : Prop :=
  HasType value type ∨ type = "integer" ∧ ∃ q : ℚ, value = .float q ∧ q.isInt = true

/-- What the keywords of the schema say of a value. -/
inductive Satisfies : Json → Json → Prop
  | intro {schema : List (String × Json)} {value : Json}
    (type : ∀ type, getEntry "type" schema = some (.str type) → HasSchemaType value type)
    (enum : Listed schema value)
    (pattern : ∀ pattern s, getEntry "pattern" schema = some (.str pattern) → value = .str s →
      Matches pattern s)
    (limits : ∀ x, value.number = some x → Within schema "minimum" "maximum" x)
    (required : ∀ fields, value = .obj fields → HasRequired schema fields)
    (properties : ∀ fields properties name propertySchema field, value = .obj fields →
      getEntry "properties" schema = some (.obj properties) →
      getEntry name properties = some propertySchema → getEntry name fields = some field →
      Satisfies propertySchema field)
    (items : ∀ elements itemSchema, value = .arr elements →
      getEntry "items" schema = some itemSchema → ∀ element ∈ elements,
      Satisfies itemSchema element) : Satisfies (.obj schema) value

/-! ## What the schema says of a message -/

/-- `1.x.y`. -/
def IsVersion (s : String) : Prop :=
  ∃ x y : List Char, x ≠ [] ∧ y ≠ [] ∧ (∀ c ∈ x, IsDigit c) ∧ (∀ c ∈ y, IsDigit c)
    ∧ s.toList = '1' :: '.' :: x ++ '.' :: y

def IsStringField (fields : List (String × Json)) (key : String) : Prop :=
  ∃ s, getEntry key fields = some (.str s)

structure HeaderPublished (header : List (String × Json)) : Prop where
  messageId : IsStringField header "message_id"
  taskId : IsStringField header "task_id"
  sender : IsOneOf supportedRoles header "sender_role"
  receiver : IsOneOf supportedRoles header "receiver_role"
  type : IsOneOf supportedMessageTypes header "message_type"

structure MetaPublished (metaField : List (String × Json)) : Prop where
  traceId : IsStringField metaField "trace_id"
  sessionId : IsStringField metaField "session_id"
  status : IsOneOf supportedStatuses metaField "status"
  priority : ∃ priority, getEntry "priority" metaField = some priority
    ∧ HasSchemaType priority "integer"
    ∧ ∀ x, priority.number = some x → 1 ≤ x ∧ x ≤ 5
  conflictFields : ∀ value, getEntry "conflict_fields" metaField = some value →
    ∃ items : List String, value = .arr (items.map .str)

/-- The messages of the schema. -/
def Published (message : List (String × Json)) : Prop :=
  ∃ version header metaField payload, getEntry "version" message = some (.str version)
    ∧ getEntry "header" message = some (.obj header)
    ∧ getEntry "meta" message = some (.obj metaField)
    ∧ getEntry "payload" message = some (.obj payload)
    ∧ IsVersion version ∧ HeaderPublished header ∧ MetaPublished metaField

section Schema

variable {schema properties fields : List (String × Json)} {value : Json}

theorem matchesRest_range {lo hi : Char} {pattern s : List Char} :
    MatchesRest ('[' :: lo :: '-' :: hi :: ']' :: '+' :: pattern) s
      ↔ ∃ x rest, x ≠ [] ∧ (∀ c ∈ x, lo ≤ c ∧ c ≤ hi) ∧ s = x ++ rest
        ∧ MatchesRest pattern rest := by
  constructor
  · intro h
    induction s with
    | nil => cases h
    | cons c s ih =>
      rcases h with _ | ⟨hc, -⟩ | _ | ⟨hlo, hhi, hrest⟩ | ⟨hlo, hhi, hrest⟩
      · simp at hc
      · exact ⟨[c], s, by simp, by simp [hlo, hhi], rfl, hrest⟩
      · obtain ⟨x, rest, -, hx, rfl, hpattern⟩ := ih hrest
        refine ⟨c :: x, rest, by simp, ?_, rfl, hpattern⟩
        rw [List.forall_mem_cons]
        exact ⟨⟨hlo, hhi⟩, hx⟩
  · rintro ⟨x, rest, hne, hx, rfl, hrest⟩
    induction x with
    | nil => exact absurd rfl hne
    | cons c x ih =>
      rw [List.forall_mem_cons] at hx
      rcases x with _ | ⟨d, x⟩
      · exact .once hx.1.1 hx.1.2 hrest
      · exact .more hx.1.1 hx.1.2 (ih (by simp) hx.2)

theorem matchesRest_escape {c : Char} {pattern s : List Char} :
    MatchesRest ('\\' :: c :: pattern) s ↔ ∃ rest, s = c :: rest ∧ MatchesRest pattern rest := by
  constructor
  · rintro (_ | ⟨hc, -⟩ | hrest | _ | _)
    · simp at hc
    · exact ⟨_, rfl, hrest⟩
  · rintro ⟨rest, rfl, hrest⟩
    exact .escape hrest

/-- The pattern of the schema. -/
theorem matches_iff_isVersion {s : String} :
    Matches "^1\\.[0-9]+\\.[0-9]+$" s ↔ IsVersion s := by
  have hdone : ∀ t, MatchesRest ['$'] t ↔ t = [] := by
    intro t
    constructor
    · rintro (_ | ⟨hc, -⟩)
      · rfl
      · simp at hc
    · rintro rfl
      exact .done
  have hone : ∀ pattern t, MatchesRest ('1' :: pattern) t
      ↔ ∃ rest, t = '1' :: rest ∧ MatchesRest pattern rest := by
    intro pattern t
    constructor
    · rintro (_ | ⟨-, hrest⟩)
      exact ⟨_, rfl, hrest⟩
    · rintro ⟨rest, rfl, hrest⟩
      exact .literal (by decide) hrest
  have hpattern : Matches "^1\\.[0-9]+\\.[0-9]+$" s
      ↔ MatchesRest ('1' :: '\\' :: '.' :: '[' :: '0' :: '-' :: '9' :: ']' :: '+' :: '\\' :: '.'
        :: '[' :: '0' :: '-' :: '9' :: ']' :: '+' :: ['$']) s.toList := by
    unfold Matches
    constructor
    · rintro ⟨rest, hrest, h⟩
      cases hrest
      exact h
    · exact fun h => ⟨_, rfl, h⟩
  rw [hpattern, hone]
  simp only [matchesRest_escape, matchesRest_range, hdone]
  constructor
  · rintro ⟨_, hs, _, rfl, x, _, hx, hdigits, rfl, _, rfl, y, _, hy, hdigits', rfl, rfl⟩
    exact ⟨x, y, hx, hy, hdigits, hdigits', by rw [hs, List.append_nil]; rfl⟩
  · rintro ⟨x, y, hx, hy, hdigits, hdigits', hs⟩
    exact ⟨_, hs, _, rfl, x, _, hx, hdigits, rfl, _, rfl, y, [], hy, hdigits',
      (List.append_nil y).symm, rfl⟩

theorem hasSchemaType_iff_isType {type : String} (h : type ≠ "integer") :
    HasSchemaType value type ↔ isType value (.str type) = true := by
  rw [isType_iff, HasSchemaType]
  simp [h]

theorem hasSchemaType_string : HasSchemaType value "string" ↔ ∃ s, value = .str s := by
  rw [hasSchemaType_iff_isType (by decide)]
  rcases value <;> simp [isType, isStr]

theorem hasSchemaType_array : HasSchemaType value "array" ↔ ∃ items, value = .arr items := by
  rw [hasSchemaType_iff_isType (by decide)]
  rcases value <;> simp [isType, isStr]

theorem hasSchemaType_object : HasSchemaType value "object" ↔ ∃ fields, value = .obj fields := by
  rw [hasSchemaType_iff_isType (by decide)]
  rcases value <;> simp [isType, isStr]

theorem satisfies_iff {type : String} (htype : getEntry "type" schema = some (.str type)) :
    Satisfies (.obj schema) value ↔ HasSchemaType value type ∧ Listed schema value
      ∧ (∀ pattern s, getEntry "pattern" schema = some (.str pattern) → value = .str s →
        Matches pattern s)
      ∧ (∀ x, value.number = some x → Within schema "minimum" "maximum" x)
      ∧ (∀ fields, value = .obj fields → HasRequired schema fields)
      ∧ (∀ fields properties name propertySchema field, value = .obj fields →
        getEntry "properties" schema = some (.obj properties) →
        getEntry name properties = some propertySchema → getEntry name fields = some field →
        Satisfies propertySchema field)
      ∧ ∀ elements itemSchema, value = .arr elements → getEntry "items" schema = some itemSchema →
        ∀ element ∈ elements, Satisfies itemSchema element := by
  constructor
  · rintro ⟨htypes, henum, hpattern, hlimits, hrequired, hproperties, hitems⟩
    exact ⟨htypes type htype, henum, hpattern, hlimits, hrequired, hproperties, hitems⟩
  · rintro ⟨htypes, henum, hpattern, hlimits, hrequired, hproperties, hitems⟩
    refine .intro (fun type' htype' => ?_) henum hpattern hlimits hrequired hproperties hitems
    rw [htype] at htype'
    cases htype'
    exact htypes

theorem satisfies_stringSchema : Satisfies stringSchema value ↔ ∃ s, value = .str s := by
  rw [stringSchema, satisfies_iff rfl, hasSchemaType_string]
  constructor
  · exact fun h => h.1
  · rintro ⟨s, rfl⟩
    refine ⟨⟨s, rfl⟩, ?_⟩
    simp [Listed, getEntry, Json.number]

theorem satisfies_enumSchema {values : List String} :
    Satisfies (enumSchema values) value ↔ ∃ s ∈ values, value = .str s := by
  rw [enumSchema, satisfies_iff rfl, hasSchemaType_string]
  constructor
  · rintro ⟨⟨s, rfl⟩, henum, -⟩
    have hmem := henum _ rfl
    rw [List.mem_map] at hmem
    obtain ⟨t, ht, heq⟩ := hmem
    exact ⟨t, ht, heq.symm⟩
  · rintro ⟨s, hs, rfl⟩
    refine ⟨⟨s, rfl⟩, ?_⟩
    simpa [Listed, getEntry, Json.number] using hs

theorem satisfies_patternSchema {pattern : String} :
    Satisfies (.obj [("type", .str "string"), ("pattern", .str pattern)]) value
      ↔ ∃ s, value = .str s ∧ Matches pattern s := by
  rw [satisfies_iff rfl, hasSchemaType_string]
  constructor
  · rintro ⟨⟨s, rfl⟩, -, hpattern, -⟩
    exact ⟨s, rfl, hpattern pattern s rfl rfl⟩
  · rintro ⟨s, rfl, hs⟩
    refine ⟨⟨s, rfl⟩, ?_⟩
    simpa [Listed, getEntry, Json.number] using hs

theorem satisfies_integerSchema {lower upper : ℤ} :
    Satisfies (.obj [("type", .str "integer"), ("minimum", .int lower), ("maximum", .int upper)])
      value
      ↔ HasSchemaType value "integer" ∧ ∀ x, value.number = some x → lower ≤ x ∧ x ≤ upper := by
  rw [satisfies_iff rfl]
  constructor
  · rintro ⟨htype, -, -, hlimits, -⟩
    exact ⟨htype, fun x hx => ⟨(hlimits x hx).1 _ _ rfl rfl, (hlimits x hx).2 _ _ rfl rfl⟩⟩
  · rintro ⟨htype, hlimits⟩
    have hwithin : ∀ x, value.number = some x → Within [("type", .str "integer"),
        ("minimum", .int lower), ("maximum", .int upper)] "minimum" "maximum" x := by
      intro x hx
      constructor
      · rintro _ _ ⟨⟩ ⟨⟩
        exact (hlimits x hx).1
      · rintro _ _ ⟨⟩ ⟨⟩
        exact (hlimits x hx).2
    refine ⟨htype, ?_, ?_, hwithin, ?_⟩
    all_goals simp [Listed, HasRequired, getEntry]

theorem satisfies_itemsSchema {itemSchema : Json} :
    Satisfies (.obj [("type", .str "array"), ("items", itemSchema)]) value
      ↔ ∃ items, value = .arr items ∧ ∀ item ∈ items, Satisfies itemSchema item := by
  rw [satisfies_iff rfl, hasSchemaType_array]
  constructor
  · rintro ⟨⟨items, rfl⟩, -, -, -, -, -, hitems⟩
    exact ⟨items, rfl, hitems items itemSchema rfl rfl⟩
  · rintro ⟨items, rfl, hitems⟩
    refine ⟨⟨items, rfl⟩, ?_⟩
    simpa [Listed, getEntry, Json.number] using hitems

theorem satisfies_object :
    Satisfies (.obj [("type", .str "object")]) value ↔ ∃ fields, value = .obj fields := by
  rw [satisfies_iff rfl, hasSchemaType_object]
  constructor
  · exact fun h => h.1
  · rintro ⟨fields, rfl⟩
    refine ⟨⟨fields, rfl⟩, ?_⟩
    simp [Listed, getEntry, Json.number, HasRequired]

/-- The fields of an object that must be there, and what each of those with a schema is. -/
theorem satisfies_objectSchema (names : List String)
    (htype : getEntry "type" schema = some (.str "object"))
    (henum : getEntry "enum" schema = none)
    (hrequired : getEntry "required" schema = some (.arr (names.map .str)))
    (hproperties : getEntry "properties" schema = some (.obj properties))
    (hnodup : (properties.map Prod.fst).Nodup) :
    Satisfies (.obj schema) value
      ↔ ∃ fields, value = .obj fields ∧ (∀ name ∈ names, HasField fields name)
        ∧ ∀ property ∈ properties, ∀ field, getEntry property.1 fields = some field →
          Satisfies property.2 field := by
  have hmem : ∀ name propertySchema,
      getEntry name properties = some propertySchema ↔ (name, propertySchema) ∈ properties :=
    fun name propertySchema => (⟨properties, hnodup⟩ : Dict String Json).get?_eq_some_iff
  rw [satisfies_iff htype, hasSchemaType_object]
  constructor
  · rintro ⟨⟨fields, rfl⟩, -, -, -, hnames, hfields, -⟩
    refine ⟨fields, rfl, fun name hname => ?_, fun property hproperty field hfield => ?_⟩
    · exact hnames fields rfl _ hrequired name (List.mem_map_of_mem hname)
    · exact hfields fields properties property.1 property.2 field rfl hproperties
        ((hmem _ _).mpr hproperty) hfield
  · rintro ⟨fields, rfl, hnames, hfields⟩
    refine ⟨⟨fields, rfl⟩, fun values hvalues => ?_, fun _ _ _ h => ?_, fun _ h => ?_, ?_, ?_,
      fun _ _ h => ?_⟩
    · rw [henum] at hvalues
      cases hvalues
    · cases h
    · cases h
    · rintro _ ⟨⟩ _ hnames' name hname
      rw [hrequired] at hnames'
      cases hnames'
      rw [List.mem_map] at hname
      obtain ⟨_, hname, ⟨⟩⟩ := hname
      exact hnames name hname
    · rintro _ _ name propertySchema field ⟨⟩ hproperties' hproperty hfield
      rw [hproperties] at hproperties'
      cases hproperties'
      exact hfields (name, propertySchema) ((hmem _ _).mp hproperty) field hfield
    · cases h

theorem hasField_of_eq {name : String} (h : getEntry name fields = some value) :
    HasField fields name := by
  rw [hasField_iff, h]
  rfl

/-- A field that is there and of which this holds. -/
theorem hasField_and_iff {P : Json → Prop} {name : String} :
    (HasField fields name ∧ ∀ field, getEntry name fields = some field → P field)
      ↔ ∃ field, getEntry name fields = some field ∧ P field := by
  rw [hasField_iff]
  rcases getEntry name fields with _ | field <;> simp

theorem isStringField_iff {name : String} :
    IsStringField fields name
      ↔ HasField fields name
        ∧ ∀ field, getEntry name fields = some field → ∃ s, field = .str s := by
  rw [hasField_and_iff]
  constructor
  · rintro ⟨s, hs⟩
    exact ⟨_, hs, s, rfl⟩
  · rintro ⟨_, hs, s, rfl⟩
    exact ⟨s, hs⟩

theorem isOneOf_iff {members : List String} {name : String} :
    IsOneOf members fields name
      ↔ HasField fields name ∧ ∀ field, getEntry name fields = some field →
        ∃ s ∈ members, field = .str s := by
  rw [hasField_and_iff]
  constructor
  · rintro ⟨s, hmem, hs⟩
    exact ⟨_, hs, s, hmem, rfl⟩
  · rintro ⟨_, hs, s, hmem, rfl⟩
    exact ⟨s, hmem, hs⟩

theorem satisfies_headerSchema :
    Satisfies headerSchema value ↔ ∃ header, value = .obj header ∧ HeaderPublished header := by
  rw [headerSchema, satisfies_objectSchema headerFields rfl rfl rfl rfl (by decide)]
  refine exists_congr fun header => and_congr_right fun _ => ?_
  simp only [headerFields, List.forall_mem_cons, List.not_mem_nil, false_imp_iff, implies_true,
    and_true, satisfies_stringSchema, satisfies_enumSchema]
  constructor
  · rintro ⟨⟨hid, htype, hsender, hreceiver, htask⟩, hid', htype', hsender', hreceiver', htask'⟩
    exact ⟨isStringField_iff.mpr ⟨hid, hid'⟩, isStringField_iff.mpr ⟨htask, htask'⟩,
      isOneOf_iff.mpr ⟨hsender, hsender'⟩, isOneOf_iff.mpr ⟨hreceiver, hreceiver'⟩,
      isOneOf_iff.mpr ⟨htype, htype'⟩⟩
  · rintro ⟨hid, htask, hsender, hreceiver, htype⟩
    rw [isStringField_iff] at hid htask
    rw [isOneOf_iff] at hsender hreceiver htype
    exact ⟨⟨hid.1, htype.1, hsender.1, hreceiver.1, htask.1⟩, hid.2, htype.2, hsender.2,
      hreceiver.2, htask.2⟩

theorem satisfies_strings {items : List Json} :
    (∀ item ∈ items, ∃ s, item = .str s) ↔ ∃ names : List String, items = names.map .str := by
  constructor
  · intro h
    induction items with
    | nil => exact ⟨[], rfl⟩
    | cons item items ih =>
      rw [List.forall_mem_cons] at h
      obtain ⟨⟨s, rfl⟩, hitems⟩ := h
      obtain ⟨names, rfl⟩ := ih hitems
      exact ⟨s :: names, rfl⟩
  · rintro ⟨names, rfl⟩ item hitem
    rw [List.mem_map] at hitem
    obtain ⟨s, -, rfl⟩ := hitem
    exact ⟨s, rfl⟩

theorem satisfies_metaSchema :
    Satisfies metaSchema value ↔ ∃ metaField, value = .obj metaField ∧ MetaPublished metaField := by
  rw [metaSchema, satisfies_objectSchema metaFields rfl rfl rfl rfl (by decide)]
  refine exists_congr fun metaField => and_congr_right fun _ => ?_
  simp only [metaFields, List.forall_mem_cons, List.not_mem_nil, false_imp_iff, implies_true,
    and_true, satisfies_stringSchema, satisfies_enumSchema, satisfies_integerSchema,
    satisfies_itemsSchema, satisfies_strings]
  constructor
  · rintro ⟨⟨htrace, hsession, hstatus, hpriority⟩, htrace', hsession', hstatus', hpriority',
      hconflicts⟩
    refine ⟨isStringField_iff.mpr ⟨htrace, htrace'⟩, isStringField_iff.mpr ⟨hsession, hsession'⟩,
      isOneOf_iff.mpr ⟨hstatus, hstatus'⟩, hasField_and_iff.mp ⟨hpriority, hpriority'⟩, ?_⟩
    intro value hvalue
    obtain ⟨_, rfl, names, rfl⟩ := hconflicts value hvalue
    exact ⟨names, rfl⟩
  · rintro ⟨htrace, hsession, hstatus, hpriority, hconflicts⟩
    rw [isStringField_iff] at htrace hsession
    rw [isOneOf_iff] at hstatus
    rw [← hasField_and_iff] at hpriority
    refine ⟨⟨htrace.1, hsession.1, hstatus.1, hpriority.1⟩, htrace.2, hsession.2, hstatus.2,
      hpriority.2, ?_⟩
    intro value hvalue
    obtain ⟨names, rfl⟩ := hconflicts value hvalue
    exact ⟨_, rfl, names, rfl⟩

theorem satisfies_messageSchema {message : List (String × Json)} :
    Satisfies messageSchema (.obj message) ↔ Published message := by
  rw [messageSchema, satisfies_objectSchema topLevelFields rfl rfl rfl rfl (by decide)]
  simp only [topLevelFields, List.forall_mem_cons, List.not_mem_nil, false_imp_iff, implies_true,
    and_true, satisfies_patternSchema, satisfies_headerSchema, satisfies_metaSchema,
    satisfies_object, matches_iff_isVersion]
  constructor
  · rintro ⟨_, ⟨⟩, ⟨hversion, hheader, hpayload, hmeta⟩, hversion', hheader', hpayload', hmeta'⟩
    obtain ⟨_, hversion, version, rfl, hpattern⟩ := hasField_and_iff.mp ⟨hversion, hversion'⟩
    obtain ⟨_, hheader, header, rfl, hpublished⟩ := hasField_and_iff.mp ⟨hheader, hheader'⟩
    obtain ⟨_, hpayload, payload, rfl⟩ := hasField_and_iff.mp ⟨hpayload, hpayload'⟩
    obtain ⟨_, hmeta, metaField, rfl, hpublished'⟩ := hasField_and_iff.mp ⟨hmeta, hmeta'⟩
    exact ⟨version, header, metaField, payload, hversion, hheader, hmeta, hpayload, hpattern,
      hpublished, hpublished'⟩
  · rintro ⟨version, header, metaField, payload, hversion, hheader, hmeta, hpayload, hpattern,
      hpublished, hpublished'⟩
    refine ⟨message, rfl, ⟨hasField_of_eq hversion, hasField_of_eq hheader, hasField_of_eq hpayload,
      hasField_of_eq hmeta⟩, ?_⟩
    simp only [hversion, hheader, hpayload, hmeta, Option.some.injEq, forall_eq']
    exact ⟨⟨version, rfl, hpattern⟩, ⟨header, rfl, hpublished⟩, ⟨payload, rfl⟩,
      metaField, rfl, hpublished'⟩

end Schema

/-! ## The two compared -/

section Refinement

variable {pyStr : Json → String} {message : List (String × Json)}

def CarriesPayload (message : List (String × Json)) : Prop :=
  ∃ header payload, getEntry "header" message = some (.obj header)
    ∧ getEntry "payload" message = some (.obj payload) ∧ Carries header payload

/-- What the schema asks of the parts of a message and the validator does not. -/
structure Typed (message : List (String × Json)) : Prop where
  version : ∀ version, getEntry "version" message = some (.str version) → IsVersion version
  header : ∀ header, getEntry "header" message = some (.obj header) →
    IsStringField header "message_id" ∧ IsStringField header "task_id"
  ids : ∀ metaField, getEntry "meta" message = some (.obj metaField) →
    IsStringField metaField "trace_id" ∧ IsStringField metaField "session_id"
  priority : ∀ metaField b, getEntry "meta" message = some (.obj metaField) →
    getEntry "priority" metaField ≠ some (.bool b)
  conflictFields : ∀ metaField items, getEntry "meta" message = some (.obj metaField) →
    getEntry "conflict_fields" metaField = some (.arr items) → ∀ item ∈ items, ∃ s, item = .str s

/-- A number with a fraction of zero, such as `3.0`, is an integer only to the schema. -/
def HasFloatPriority (message : List (String × Json)) : Prop :=
  ∃ metaField q, getEntry "meta" message = some (.obj metaField)
    ∧ getEntry "priority" metaField = some (.float q)

theorem IsStringField.hasField {fields : List (String × Json)} {name : String}
    (h : IsStringField fields name) : HasField fields name :=
  (isStringField_iff.mp h).1

theorem IsOneOf.hasField {members : List String} {fields : List (String × Json)} {name : String}
    (h : IsOneOf members fields name) : HasField fields name :=
  (isOneOf_iff.mp h).1

theorem MetaAccepted.published {metaField : List (String × Json)} (h : MetaAccepted metaField)
    (hids : IsStringField metaField "trace_id" ∧ IsStringField metaField "session_id")
    (hbool : ∀ b, getEntry "priority" metaField ≠ some (.bool b))
    (hitems : ∀ items, getEntry "conflict_fields" metaField = some (.arr items) →
      ∀ item ∈ items, ∃ s, item = .str s) : MetaPublished metaField := by
  obtain ⟨priority, hpriority, hrange⟩ := h.priority
  refine ⟨hids.1, hids.2, h.status, ⟨priority, hpriority, ?_⟩, fun value hvalue => ?_⟩
  · rcases priority with _ | b | n | _ | _ | _ | _
    case bool => exact absurd hpriority (hbool b)
    case int =>
      refine ⟨.inl (.integer n), ?_⟩
      rintro _ ⟨⟩
      simp only [priorityInRange, decide_eq_true_eq] at hrange
      exact_mod_cast hrange
    all_goals cases hrange
  · obtain ⟨items, rfl⟩ := h.conflictFields value hvalue
    obtain ⟨names, rfl⟩ := satisfies_strings.mp (hitems items hvalue)
    exact ⟨names, rfl⟩

theorem published_iff_typed (h : Accepted message) : Published message ↔ Typed message := by
  obtain ⟨htop, header, metaField, payload, hheader, hmeta, hpayload, hheaderAccepted,
    hmetaAccepted, -⟩ := h
  obtain ⟨version, hversion, -⟩ := htop.version
  constructor
  · rintro ⟨version', header', metaField', payload', hversion', hheader', hmeta', -, hpattern,
      hpublished, hpublished'⟩
    refine ⟨fun v hv => ?_, fun f hf => ?_, fun f hf => ?_, fun f b hf hb => ?_,
      fun f items hf hitems => ?_⟩
    · rw [hversion'] at hv
      cases hv
      exact hpattern
    all_goals
      first | rw [hheader'] at hf | rw [hmeta'] at hf
      cases hf
    · exact ⟨hpublished.messageId, hpublished.taskId⟩
    · exact ⟨hpublished'.traceId, hpublished'.sessionId⟩
    · obtain ⟨priority, hpriority, htype, -⟩ := hpublished'.priority
      rw [hb] at hpriority
      cases hpriority
      rcases htype with htype | ⟨-, q, ⟨⟩, -⟩
      simp [← isType_iff, isType, isStr] at htype
    · obtain ⟨names, hnames⟩ := hpublished'.conflictFields _ hitems
      cases hnames
      exact satisfies_strings.mpr ⟨names, rfl⟩
  · intro htyped
    refine ⟨version, header, metaField, payload, hversion, hheader, hmeta, hpayload,
      htyped.version version hversion, ?_, ?_⟩
    · exact ⟨(htyped.header header hheader).1, (htyped.header header hheader).2,
        hheaderAccepted.sender, hheaderAccepted.receiver, hheaderAccepted.type⟩
    · exact hmetaAccepted.published (htyped.ids metaField hmeta)
        (fun b => htyped.priority metaField b hmeta)
        (fun items => htyped.conflictFields metaField items hmeta)

theorem IsVersion.supported {version : String} (h : IsVersion version) :
    ∃ start ∈ supportedVersionPrefixes, start.toList <+: version.toList := by
  obtain ⟨x, y, -, -, -, -, hs⟩ := h
  exact ⟨"1.", by simp [supportedVersionPrefixes], x ++ '.' :: y, by rw [hs]; rfl⟩

theorem HeaderPublished.accepted {header : List (String × Json)} (h : HeaderPublished header) :
    HeaderAccepted header := by
  refine ⟨?_, h.sender, h.receiver, h.type⟩
  simp only [headerFields, List.forall_mem_cons, List.not_mem_nil, false_imp_iff, implies_true,
    and_true]
  exact ⟨h.messageId.hasField, h.type.hasField, h.sender.hasField, h.receiver.hasField,
    h.taskId.hasField⟩

theorem MetaPublished.accepted {metaField : List (String × Json)} (h : MetaPublished metaField)
    (hfloat : ∀ q, getEntry "priority" metaField ≠ some (.float q)) : MetaAccepted metaField := by
  obtain ⟨priority, hpriority, htype, hrange⟩ := h.priority
  refine ⟨?_, h.status, ⟨priority, hpriority, ?_⟩, fun value hvalue => ?_⟩
  · simp only [metaFields, List.forall_mem_cons, List.not_mem_nil, false_imp_iff, implies_true,
      and_true]
    exact ⟨h.traceId.hasField, h.sessionId.hasField, h.status.hasField, hasField_of_eq hpriority⟩
  · rcases htype with htype | ⟨-, q, rfl, -⟩
    · rw [← isType_iff] at htype
      rcases priority with _ | _ | n | _ | _ | _ | _ <;> simp [isType, isStr] at htype
      have hn := hrange n rfl
      simp only [priorityInRange, decide_eq_true_eq]
      exact_mod_cast hn
    · exact absurd hpriority (hfloat q)
  · obtain ⟨names, rfl⟩ := h.conflictFields value hvalue
    exact ⟨_, rfl⟩

theorem accepted_iff_of_published (h : Published message) (hcarries : CarriesPayload message) :
    Accepted message ↔ ¬ HasFloatPriority message := by
  obtain ⟨version, header, metaField, payload, hversion, hheader, hmeta, hpayload, hpattern,
    hpublished, hpublished'⟩ := h
  obtain ⟨header', payload', hheader', hpayload', hcarries⟩ := hcarries
  rw [hheader] at hheader'
  rw [hpayload] at hpayload'
  cases hheader'
  cases hpayload'
  constructor
  · rintro ⟨-, _, metaField', _, -, hmeta', -, -, haccepted, -⟩ ⟨metaField'', q, hmeta'', hq⟩
    rw [hmeta'] at hmeta''
    cases hmeta''
    obtain ⟨priority, hpriority, hrange⟩ := haccepted.priority
    rw [hq] at hpriority
    cases hpriority
    cases hrange
  · intro hfloat
    refine ⟨⟨?_, version, hversion, hpattern.supported⟩, header, metaField, payload, hheader, hmeta,
      hpayload, hpublished.accepted, hpublished'.accepted fun q hq => ?_, hcarries⟩
    · simp only [topLevelFields, List.forall_mem_cons, List.not_mem_nil, false_imp_iff,
        implies_true, and_true]
      exact ⟨hasField_of_eq hversion, hasField_of_eq hheader, hasField_of_eq hpayload,
        hasField_of_eq hmeta⟩
    · exact hfloat ⟨metaField, q, hmeta, hq⟩

/-- The validator and the schema agree on a message exactly if it is not one of those that only
the validator takes, or only the schema. -/
theorem validateMessage_refines_iff (pyStr : Json → String) (message : List (String × Json)) :
    (((∃ result, validateMessage pyStr message = .ok result ∧ result.valid = true) →
        Satisfies messageSchema (.obj message))
      ∧ (Satisfies messageSchema (.obj message) → CarriesPayload message →
        ∃ result, validateMessage pyStr message = .ok result ∧ result.valid = true))
      ↔ (Accepted message → Typed message)
        ∧ (Published message → CarriesPayload message → ¬ HasFloatPriority message) := by
  rw [valid_iff_accepted, satisfies_messageSchema]
  refine and_congr ?_ ?_
  · exact forall_congr' fun h => published_iff_typed h
  · exact forall_congr' fun h => forall_congr' fun hcarries => accepted_iff_of_published h hcarries

/-- A version that only begins as it should. -/
theorem validateMessage_short_version :
    ¬ ∀ (pyStr : Json → String) (message : List (String × Json)),
      ((∃ result, validateMessage pyStr message = .ok result ∧ result.valid = true) →
        Satisfies messageSchema (.obj message))
      ∧ (Satisfies messageSchema (.obj message) → CarriesPayload message →
        ∃ result, validateMessage pyStr message = .ok result ∧ result.valid = true) := by
  intro h
  have hsat := (h (fun _ => "") [("version", .str "1.x"),
    ("header", .obj [("message_id", .str "m1"), ("message_type", .str "task_request"),
      ("sender_role", .str "planner"), ("receiver_role", .str "executor"),
      ("task_id", .str "t1")]),
    ("payload", .obj [("instruction", .str "plan")]),
    ("meta", .obj [("trace_id", .str "tr1"), ("session_id", .str "s1"),
      ("status", .str "pending"), ("priority", .int 3)])]).1 ⟨_, rfl, by decide⟩
  obtain ⟨version, -, -, -, hversion, -, -, -, hpattern, -⟩ := satisfies_messageSchema.mp hsat
  cases hversion
  obtain ⟨x, y, hx, hy, -, -, hs⟩ := hpattern
  have hlength : x.length + (y.length + 1) + 2 = 3 := by
    simpa using (congrArg List.length hs).symm
  have := List.length_pos_iff.mpr hx
  omega

end Refinement

end AgentLearning.ProtocolValidator
