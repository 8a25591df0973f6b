import Mathlib.Data.Int.Notation
import Mathlib.Data.Rat.Init
import AgentLearning.Lib.Dict

/-!
# Values, exceptions and tool result envelopes

The values the program passes around are JSON documents, an object's fields in insertion order. An
exception keeps its class and its text. A tool call, and every check in front of it, answers with
the same envelope: `success`, `data`, `error` and `retryable`.
-/

namespace AgentLearning

/-- A JSON document as the interpreter holds it; integers and floats are different kinds. -/
inductive Json
  | null
  | bool (b : Bool)
  | int (n : ℤ)
  | float (q : ℚ)
  | str (s : String)
  | arr (items : List Json)
  | obj (fields : List (String × Json))

namespace Json

instance : Inhabited Json := ⟨.null⟩

/-- `bool(value)`. -/
def truthy : Json → Bool
  | .null => false
  | .bool b => b
  | .int n => n ≠ 0
  | .float q => q ≠ 0
  | .str s => s ≠ ""
  | .arr items => !items.isEmpty
  | .obj fields => !fields.isEmpty

/-- The values right below a value. -/
def children : Json → List Json
  | .arr items => items
  | .obj fields => fields.map Prod.snd
  | _ => []

theorem sizeOf_lt_of_mem_children {value child : Json} (h : child ∈ value.children) :
    sizeOf child < sizeOf value := by
  rcases value with _ | _ | _ | _ | _ | items | fields
  case arr =>
    have hitem := List.sizeOf_lt_of_mem (show child ∈ items from h)
    rw [arr.sizeOf_spec]
    omega
  case obj =>
    obtain ⟨⟨name, value⟩, hmem, rfl⟩ := List.mem_map.mp h
    have hfield := List.sizeOf_lt_of_mem hmem
    simp only [Prod.mk.sizeOf_spec, obj.sizeOf_spec] at hfield ⊢
    omega
  all_goals simp [children] at h

/-- What holds of a value if it holds of those right below it holds of every value. -/
theorem children_induct {P : Json → Prop}
    (h : ∀ value, (∀ child ∈ value.children, P child) → P value) (value : Json) : P value :=
  h value fun child _ => children_induct h child
termination_by sizeOf value
decreasing_by exact sizeOf_lt_of_mem_children ‹_›

/-- `isinstance(value, dict)`. -/
def isObject : Json → Bool
  | .obj _ => true
  | _ => false

end Json

/-- The exceptions the modelled code raises or lets through, with their text. -/
inductive PyError
  | keyError (message : String)
  | valueError (message : String)
  | typeError (message : String)
  | attributeError (message : String)
  | recursionError
  | toolRegistryError (message : String)
  | exception (message : String)
  deriving DecidableEq, Repr

/-- `str(error)`; the text of a `KeyError` is quoted. -/
def PyError.str : PyError → String
  | .keyError message => "'" ++ message ++ "'"
  | .valueError message => message
  | .typeError message => message
  | .attributeError message => message
  | .recursionError => "maximum recursion depth exceeded"
  | .toolRegistryError message => message
  | .exception message => message

/-- `if p: raise error`. -/
def raiseIf (p : Prop) [Decidable p] (error : PyError) : Except PyError Unit :=
  if p then .error error else .ok ()

/-- `int(q)`, which cuts off the fraction. -/
def intOfFloat (q : ℚ) : ℤ := q.num.tdiv q.den

structure ToolError where
  code : String
  message : String
  deriving DecidableEq, Repr

/-- An error payload; only an exhausted step carries the error of its last attempt. -/
structure StepError extends ToolError where
  lastError : Option ToolError := none
  deriving DecidableEq, Repr

/-- The normalized result envelope. -/
structure ToolResult where
  success : Bool
  data : Json := .null
  error : Option StepError := none
  retryable : Bool := false

instance : Inhabited ToolResult := ⟨{ success := false }⟩

/-- The envelope of a failure that only has a code and a message. -/
def ToolResult.failure (code message : String) (retryable : Bool) : ToolResult :=
  { success := false, error := some { code, message }, retryable }

end AgentLearning
