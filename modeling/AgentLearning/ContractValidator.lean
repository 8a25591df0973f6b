import AgentLearning.Executor
import AgentLearning.Validator
import Mathlib.Data.List.Infix

/-!
# The contract validator

`agent-system/src/gateway/validator.py`: the validator of payloads by JSON Schema files. A check
gives the errors it adds to the list, or the exception that a schema out of shape makes it raise. A
node is checked by recursion on the value, as far as the schema goes along with it.
-/

namespace AgentLearning

open Gateway

namespace Json

/-- The number that a value is equal to, as booleans are numbers. -/
def number : Json → Option ℚ
  | .bool b => some (if b then 1 else 0)
  | .int n => some n
  | .float q => some q
  | _ => none

mutual

/-- `value == other`. -/
def pyEq : Json → Json → Bool
  | .null, .null => true
  | .str s, .str t => s = t
  | .arr xs, .arr ys => pyEqItems xs ys
  | .obj fs, .obj gs => fs.length = gs.length && pyEqFields fs gs
  | x, y => x.number.isSome && x.number = y.number

def pyEqItems : List Json → List Json → Bool
  | [], [] => true
  | x :: xs, y :: ys => pyEq x y && pyEqItems xs ys
  | _, _ => false

/-- The order of the fields does not matter. -/
def pyEqFields : List (String × Json) → List (String × Json) → Bool
  | [], _ => true
  | (k, x) :: fs, gs => ((getEntry k gs).map fun y => pyEq x y).getD false && pyEqFields fs gs

end

/-- `value in container`. -/
def pyIn (value : Json) : Json → Except PyError Bool
  | .arr items => .ok (items.any fun item => pyEq value item)
  | .obj fields => inParams fields value
  | .str s =>
    match value with
    | .str t => .ok (t.toList <:+: s.toList)
    | _ => .error (.typeError
      s!"'in <string>' requires string as left operand, not {pythonType value}")
  | container => .error (.typeError s!"argument of type '{pythonType container}' is not iterable")

end Json

namespace ContractValidator

/-- The errors of a check, unless it raises. -/
abbrev Report := Except PyError (List String)

/-- A loop of checks. -/
def forEach {α : Type} (items : List α) (check : α → Report) : Report := do
  let errors ← items.mapM check
  return errors.flatten

def errorIf (p : Bool) (error : String) : List String := if p then [error] else []

/-- `_is_type`. A type that is not a string is the type of no value. -/
def isType (value jsonType : Json) : Bool :=
  match value with
  | .null => isStr jsonType "null"
  | .obj _ => isStr jsonType "object"
  | .arr _ => isStr jsonType "array"
  | .str _ => isStr jsonType "string"
  | .bool _ => isStr jsonType "boolean"
  | .int _ => isStr jsonType "integer" || isStr jsonType "number"
  | .float _ => isStr jsonType "number"

/-- What a schema's `get` looks into. -/
def keywords : Json → Except PyError (List (String × Json))
  | .obj schema => .ok schema
  | schema => .error (.attributeError s!"'{pythonType schema}' object has no attribute 'get'")

/-- `schema.get(key)` of a keyword that is not there also if it is null. -/
def keyword (key : String) (schema : List (String × Json)) : Option Json :=
  match getEntry key schema with
  | some .null => none
  | found => found

-- `str` and `repr` of a JSON value, for the messages.
variable (pyStr pyRepr : Json → String)

def checkType (schema : List (String × Json)) (value : Json) (path : String) : Report :=
  match keyword "type" schema with
  | none => .ok []
  | some schemaTypes => do
    let schemaTypes := match schemaTypes with
      | .str name => .arr [.str name]
      | _ => schemaTypes
    let names ← iterate schemaTypes
    return errorIf (!names.any (isType value))
      s!"{path}: expected type {pyStr schemaTypes}, got {pythonType value}"

def checkEnum (schema : List (String × Json)) (value : Json) (path : String) : Report :=
  match keyword "enum" schema with
  | none => .ok []
  | some enumValues => do
    let found ← value.pyIn enumValues
    return errorIf (!found) s!"{path}: value {pyRepr value} not in enum {pyStr enumValues}"

/-- A comparison of a number with a limit, which need not be a number. -/
def compareNumber (operator : String) (test : ℚ → ℚ → Bool) (value limit : Json) :
    Except PyError Bool :=
  match value.number, limit.number with
  | some x, some y => .ok (test x y)
  | _, _ => .error (.typeError (s!"'{operator}' not supported between instances of "
    ++ s!"'{pythonType value}' and '{pythonType limit}'"))

/-- A limit of the schema on a size or a number. -/
def checkLimit (key noun operator : String) (test : ℚ → ℚ → Bool) (schema : List (String × Json))
    (value : Json) (path : String) : Report :=
  match keyword key schema with
  | none => .ok []
  | some limit => do
    let violated ← compareNumber operator test value limit
    return errorIf violated
      s!"{path}: {noun} {pyStr value} {operator} {key} {pyStr limit}"

def checkMin (key noun : String) : List (String × Json) → Json → String → Report :=
  checkLimit pyStr key noun "<" fun x y => x < y

def checkMax (key noun : String) : List (String × Json) → Json → String → Report :=
  checkLimit pyStr key noun ">" fun x y => y < x

def checkRequired (schema : List (String × Json)) (value : List (String × Json)) (path : String) :
    Report := do
  let requiredFields ← iterate ((getEntry "required" schema).getD (.arr []))
  forEach requiredFields fun requiredField => do
    let found ← inParams value requiredField
    return errorIf (!found) s!"{path}: missing required field {pyStr requiredField}"

def checkUnexpected (properties : Json) (schema : List (String × Json))
    (value : List (String × Json)) (path : String) : Report :=
  match getEntry "additionalProperties" schema with
  | some (.bool false) => forEach value fun field => do
    let found ← (Json.str field.1).pyIn properties
    return errorIf (!found) s!"{path}: unexpected field {field.1}"
  | _ => .ok []

def checkProperties (validateProperty : String × Json → Report) (properties : Json) : Report :=
  match properties with
  | .obj properties => forEach properties validateProperty
  | _ => .error (.attributeError s!"'{pythonType properties}' object has no attribute 'items'")

/-- `validateProperty` checks the field of a property, if the value has it. -/
def validateObject (validateProperty : String × Json → Report) (schema : List (String × Json))
    (value : List (String × Json)) (path : String) : Report := do
  let properties := (getEntry "properties" schema).getD (.obj [])
  let missing ← checkRequired pyStr schema value path
  let unexpected ← checkUnexpected properties schema value path
  let nested ← checkProperties validateProperty properties
  return missing ++ unexpected ++ nested

def checkItems (validateItems : Json → Report) (schema : List (String × Json)) : Report :=
  match keyword "items" schema with
  | none => .ok []
  | some itemSchema => validateItems itemSchema

/-- `validateItems` checks all items by a schema. -/
def validateArray (validateItems : Json → Report) (schema : List (String × Json))
    (value : List Json) (path : String) : Report := do
  let tooFew ← checkMin pyStr "minItems" "length" schema (.int value.length) path
  let tooMany ← checkMax pyStr "maxItems" "length" schema (.int value.length) path
  let nested ← checkItems validateItems schema
  return tooFew ++ tooMany ++ nested

def validateString (schema : List (String × Json)) (value : String) (path : String) : Report := do
  let tooShort ← checkMin pyStr "minLength" "length" schema (.int value.length) path
  let tooLong ← checkMax pyStr "maxLength" "length" schema (.int value.length) path
  return tooShort ++ tooLong

def validateNumber (schema : List (String × Json)) (value : Json) (path : String) : Report := do
  let tooSmall ← checkMin pyStr "minimum" "value" schema value path
  let tooBig ← checkMax pyStr "maximum" "value" schema value path
  return tooSmall ++ tooBig

mutual

def validateNode (schema : Json) (value : Json) (path : String) : Report := do
  let schema ← keywords schema
  let mistyped ← checkType pyStr schema value path
  if !mistyped.isEmpty then return mistyped
  let unlisted ← checkEnum pyStr pyRepr schema value path
  let nested ← (match value with
    | .obj fields =>
      validateObject pyStr (fun property => validateField property fields path) schema fields path
    | .arr items =>
      validateArray pyStr (fun itemSchema => validateItems itemSchema items 0 path) schema items
        path
    | .str s => validateString pyStr schema s path
    | .int n => validateNumber pyStr schema (.int n) path
    | .float q => validateNumber pyStr schema (.float q) path
    | _ => .ok [])
  return unlisted ++ nested

/-- Looks for the field of the property. -/
def validateField (property : String × Json) (fields : List (String × Json)) (path : String) :
    Report :=
  match fields with
  | [] => .ok []
  | (fieldName, value) :: fields =>
    if fieldName = property.1 then validateNode property.2 value s!"{path}.{property.1}"
    else validateField property fields path

def validateItems (itemSchema : Json) (items : List Json) (itemIndex : ℕ) (path : String) :
    Report :=
  match items with
  | [] => .ok []
  | item :: items => do
    let errors ← validateNode itemSchema item s!"{path}[{itemIndex}]"
    let others ← validateItems itemSchema items (itemIndex + 1) path
    return errors ++ others

end

end ContractValidator

/-! ## The validator -/

/-- The schemas that were loaded, by their paths. -/
structure ContractValidator where
  schemaCache : Dict String Json := ∅

namespace ContractValidator

variable (pyStr pyRepr : Json → String) (validator : ContractValidator)

/-- `read` is what parsing the file at a path gives. -/
def loadSchema (read : String → Except PyError Json) (schemaPath : String) :
    Except PyError Json × ContractValidator :=
  match validator.schemaCache.get? schemaPath with
  | some schema => (.ok schema, validator)
  | none =>
    match read schemaPath with
    | .error error => (.error error, validator)
    | .ok schema => (.ok schema, { schemaCache := validator.schemaCache.set schemaPath schema })

/-- The error that a list of messages is raised with. -/
def failure (report : Report) : Option ValidationFailure :=
  match report with
  | .error error => some (.other error)
  | .ok [] => none
  | .ok errors => some (.contract ("; ".intercalate errors))

/-- What `validate` raises, if it raises. -/
def validate (read : String → Except PyError Json) (schemaPath : String) (payload : Json) :
    Option ValidationFailure × ContractValidator :=
  let (loaded, validator) := validator.loadSchema read schemaPath
  (failure (loaded.bind fun schema => validateNode pyStr pyRepr schema payload "$"), validator)

end ContractValidator

end AgentLearning
