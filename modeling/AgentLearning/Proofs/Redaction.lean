import AgentLearning.Context
import Mathlib.Data.List.Forall2
import Mathlib.Data.List.Induction
import Mathlib.Logic.Relation

/-!
# What redaction lets through

The memory that is given to a tool is meant to be clean: no object in it shows the value of a
redacted field. `_redact` goes down through objects and leaves a list as it is, with the objects in
it. So the memory is clean at all times exactly if the lists of the summaries were, and else it is
the summaries unchanged.
-/

namespace AgentLearning.ContextManager

open Relation

/-! ## Clean documents -/

/-- The second document is the first, or somewhere in it. -/
def Reaches : Json → Json → Prop := ReflTransGen fun value child => child ∈ value.children

def Masked (fields : List (String × Json)) : Prop :=
  ∀ field ∈ fields, field.1 ∈ redactedFields → field.2 = .str "***"

/-- No object at any depth shows the value of a redacted field. -/
def Clean (value : Json) : Prop := ∀ fields, Reaches value (.obj fields) → Masked fields

mutual

/-- The document with the values of redacted fields taken out everywhere. -/
def mask : Json → Json
  | .arr items => .arr (maskItems items)
  | .obj fields => .obj (maskFields fields)
  | value => value

def maskItems : List Json → List Json
  | [] => []
  | item :: items => mask item :: maskItems items

def maskFields : List (String × Json) → List (String × Json)
  | [] => []
  | (key, value) :: fields =>
    (key, if key ∈ redactedFields then .str "***" else mask value) :: maskFields fields

end

/-- The documents differ in the values of redacted fields only. -/
def SameElsewhere (value value' : Json) : Prop := mask value = mask value'

/-- What `_redact` comes to and leaves as it is. -/
inductive LeftAsIs : Json → Json → Prop
  | self {value : Json} : value.isObject = false → LeftAsIs value value
  | field {fields : List (String × Json)} {key : String} {value left : Json} :
    (key, value) ∈ fields → key ∉ redactedFields → LeftAsIs value left →
    LeftAsIs (.obj fields) left

/-- What is left of a summary as it is, its lists, shows no value of a redacted field. -/
def ListsClean (summary : List (String × Json)) : Prop :=
  ∀ left, LeftAsIs (.obj summary) left → Clean left

section Clean

variable {value : Json} {fields : List (String × Json)}

theorem clean_iff : Clean value ↔
    (∀ fields, value = .obj fields → Masked fields) ∧ ∀ child ∈ value.children, Clean child := by
  constructor
  · intro h
    refine ⟨?_, fun child hchild fields hreach => h fields (hreach.head hchild)⟩
    rintro fields rfl
    exact h fields .refl
  · rintro ⟨hself, hchildren⟩ fields hreach
    rcases ReflTransGen.cases_head hreach with heq | ⟨child, hchild, hreach⟩
    · exact hself fields heq
    · exact hchildren child hchild fields hreach

theorem clean_str (s : String) : Clean (.str s) :=
  clean_iff.mpr ⟨nofun, by simp [Json.children]⟩

theorem clean_arr_iff {items : List Json} : Clean (.arr items) ↔ ∀ item ∈ items, Clean item := by
  rw [clean_iff]
  exact and_iff_right nofun

theorem clean_obj_iff :
    Clean (.obj fields) ↔ Masked fields ∧ ∀ field ∈ fields, Clean field.2 := by
  rw [clean_iff, Json.children, List.forall_mem_map]
  exact and_congr_left' ⟨fun h => h fields rfl, fun h _ heq => Json.obj.inj heq ▸ h⟩

theorem maskItems_eq_map : ∀ items : List Json, maskItems items = items.map mask
  | [] => rfl
  | item :: items => by rw [maskItems, maskItems_eq_map items, List.map_cons]

theorem maskFields_eq_map : ∀ fields : List (String × Json), maskFields fields
    = fields.map fun field =>
      (field.1, if field.1 ∈ redactedFields then .str "***" else mask field.2)
  | [] => rfl
  | (key, value) :: fields => by rw [maskFields, maskFields_eq_map fields, List.map_cons]

theorem redact_eq_map : ∀ fields : List (String × Json), redact fields
    = fields.map fun field =>
      (field.1, if field.1 ∈ redactedFields then .str "***" else redactValue field.2)
  | [] => rfl
  | (key, value) :: fields => by rw [redact, redact_eq_map fields, List.map_cons]

theorem redactValue_of_not_object (h : value.isObject = false) : redactValue value = value := by
  rcases value with _ | _ | _ | _ | _ | _ | fields
  case obj => cases h
  all_goals rfl

theorem leftAsIs_iff {left : Json} (h : value.isObject = false) :
    LeftAsIs value left ↔ left = value := by
  constructor
  · rintro (_ | _)
    · rfl
    · cases h
  · rintro rfl
    exact .self h

theorem leftAsIs_obj_iff {left : Json} : LeftAsIs (.obj fields) left
    ↔ ∃ field ∈ fields, field.1 ∉ redactedFields ∧ LeftAsIs field.2 left := by
  constructor
  · rintro (h | ⟨hfield, hkey, h⟩)
    · cases h
    · exact ⟨_, hfield, hkey, h⟩
  · rintro ⟨field, hfield, hkey, h⟩
    exact .field hfield hkey h

end Clean

/-! ## What `_redact` does -/

theorem redactValue_redactValue (value : Json) :
    redactValue (redactValue value) = redactValue value := by
  induction value using Json.children_induct with
  | _ value ih =>
  rcases value with _ | b | n | q | s | items | fields
  case obj =>
    rw [redactValue, redactValue, Json.obj.injEq, redact_eq_map (redact fields), redact_eq_map,
      List.map_map]
    refine List.map_congr_left fun field hfield => ?_
    have hchild := ih field.2 (List.mem_map_of_mem hfield)
    simp only [Function.comp_apply]
    split_ifs
    · rfl
    · rw [hchild]
  all_goals rfl

theorem mask_redactValue (value : Json) : SameElsewhere value (redactValue value) := by
  unfold SameElsewhere
  induction value using Json.children_induct with
  | _ value ih =>
  rcases value with _ | b | n | q | s | items | fields
  case obj =>
    rw [redactValue, mask, mask, Json.obj.injEq, redact_eq_map, maskFields_eq_map,
      maskFields_eq_map, List.map_map]
    refine List.map_congr_left fun field hfield => ?_
    have hchild := ih field.2 (List.mem_map_of_mem hfield)
    simp only [Function.comp_apply]
    split_ifs
    · rfl
    · rw [hchild]
  all_goals rfl

/-- By induction on the document: `_redact` takes care of its own object, and of the objects among
its fields. -/
theorem clean_redactValue_iff (value : Json) :
    Clean (redactValue value) ↔ ∀ left, LeftAsIs value left → Clean left := by
  induction value using Json.children_induct with
  | _ value ih =>
  by_cases hobject : value.isObject = false
  · rw [redactValue_of_not_object hobject]
    simp [leftAsIs_iff hobject]
  obtain ⟨fields, rfl⟩ : ∃ fields, value = .obj fields := by
    rcases value with _ | _ | _ | _ | _ | _ | fields
    case obj => exact ⟨fields, rfl⟩
    all_goals exact absurd rfl hobject
  have hmasked : Masked (redact fields) := by
    intro field hfield hkey
    rw [redact_eq_map, List.mem_map] at hfield
    obtain ⟨field, -, rfl⟩ := hfield
    exact if_pos hkey
  have hchildren : (∀ field ∈ redact fields, Clean field.2)
      ↔ ∀ field ∈ fields, field.1 ∉ redactedFields → Clean (redactValue field.2) := by
    rw [redact_eq_map, List.forall_mem_map]
    refine forall₂_congr fun field _ => ?_
    by_cases hkey : field.1 ∈ redactedFields
    · simp [hkey, clean_str]
    · simp [hkey]
  rw [redactValue, clean_obj_iff, and_iff_right hmasked, hchildren]
  constructor
  · intro h left hleft
    obtain ⟨field, hfield, hkey, hleft⟩ := leftAsIs_obj_iff.mp hleft
    exact (ih field.2 (List.mem_map_of_mem hfield)).mp (h field hfield hkey) left hleft
  · intro h field hfield hkey
    refine (ih field.2 (List.mem_map_of_mem hfield)).mpr fun left hleft => ?_
    exact h left (leftAsIs_obj_iff.mpr ⟨field, hfield, hkey, hleft⟩)

/-! ## Runs -/

/-- The memory that is given to a tool. -/
def transportedMemory (context : ExecutionContext) (toolId : String) : Option Json :=
  match trimForTool context toolId with
  | .obj fields => getEntry "memory" fields
  | _ => none

/-- A context as `build` makes it. -/
abbrev built (system : SystemContext) (task : TaskContext) (tool : ToolContext)
    (sourceMap : List (String × String)) : ExecutionContext :=
  { system, task, tool, sourceMap }

/-- The last five. -/
def recent {α : Type*} (l : List α) : List α := l.drop (l.length - 5)

/-- The memory of the summaries is clean, and what is not redacted in it is as it was. -/
def Redacted (summaries : List (List (String × Json))) (memory : Option Json) : Prop :=
  ∃ items, memory = some (.arr items) ∧ Clean (.arr items)
    ∧ List.Forall₂ (fun summary item => SameElsewhere (.obj summary) item) (recent summaries) items

section Runs

variable {system : SystemContext} {task : TaskContext} {tool : ToolContext}
  {sourceMap : List (String × String)}

theorem recent_of_length_le {α : Type*} {l : List α} (h : l.length ≤ 5) : recent l = l := by
  rw [recent, Nat.sub_eq_zero_of_le h, List.drop_zero]

theorem recent_recent {α : Type*} (l : List α) : recent (recent l) = recent l :=
  recent_of_length_le (by rw [recent, List.length_drop]; omega)

theorem recent_map {α β : Type*} (f : α → β) (l : List α) :
    recent (l.map f) = (recent l).map f := by
  rw [recent, recent, List.length_map, List.map_drop]

theorem recent_concat {α : Type*} (l : List α) (a : α) :
    recent (recent l ++ [a]) = recent (l ++ [a]) := by
  unfold recent
  simp only [List.length_append, List.length_drop, List.length_singleton]
  rcases Nat.lt_or_ge l.length 5 with h | h
  · have hzero : l.length - 5 = 0 := by omega
    rw [hzero]
    simp
  · rw [List.drop_append_of_le_length (by rw [List.length_drop]; omega), List.drop_drop,
      List.drop_append_of_le_length (by omega)]
    congr 2
    omega

theorem mem_recent_concat {α : Type*} (l : List α) (a : α) : a ∈ recent (l ++ [a]) := by
  rw [recent, List.length_append, List.length_singleton,
    List.drop_append_of_le_length (by omega)]
  simp

theorem stepSummaries_foldl (summaries : List (List (String × Json))) :
    let context := summaries.foldl appendStepSummary (built system task tool sourceMap)
    context.memory.stepSummaries = recent (summaries.map redact)
      ∧ context.maxStepSummaries = some 5 := by
  induction summaries using List.reverseRecOn with
  | nil => exact ⟨rfl, rfl⟩
  | append_singleton summaries summary ih =>
    obtain ⟨hmemory, hmax⟩ := ih
    rw [List.foldl_append, List.foldl_cons, List.foldl_nil]
    refine ⟨?_, hmax⟩
    rw [appendStepSummary, hmemory, hmax, List.map_append, List.map_singleton, ← recent_concat]
    simp only [Option.getD_some]
    split_ifs with hlength
    · rfl
    · exact (recent_of_length_le (by omega)).symm

/-- The memory is the last five summaries, however often they are redacted on their way. -/
theorem transportedMemory_foldl (summaries : List (List (String × Json))) (toolId : String) :
    transportedMemory
        (summaries.foldl appendStepSummary (built system task tool sourceMap)) toolId
      = some (.arr ((recent summaries).map fun summary => redactValue (.obj summary))) := by
  have hmemory : (summaries.foldl appendStepSummary
      (built system task tool sourceMap)).memory.stepSummaries = _ :=
    (stepSummaries_foldl summaries).1
  have htransported (context : ExecutionContext) : transportedMemory context toolId
      = some (.arr ((recent context.memory.stepSummaries).map
        fun summary => redactValue (.obj summary))) := rfl
  rw [htransported, hmemory, recent_recent, recent_map, List.map_map]
  refine congrArg (fun items => some (Json.arr items)) (List.map_congr_left fun summary _ => ?_)
  exact redactValue_redactValue (.obj summary)

theorem redacted_iff (summaries : List (List (String × Json))) (toolId : String) :
    Redacted summaries (transportedMemory
        (summaries.foldl appendStepSummary (built system task tool sourceMap)) toolId)
      ↔ ∀ summary ∈ recent summaries, ListsClean summary := by
  have hclean : Clean (.arr ((recent summaries).map fun summary => redactValue (.obj summary)))
      ↔ ∀ summary ∈ recent summaries, ListsClean summary := by
    rw [clean_arr_iff, List.forall_mem_map]
    exact forall₂_congr fun summary _ => clean_redactValue_iff (.obj summary)
  rw [transportedMemory_foldl, ← hclean]
  constructor
  · rintro ⟨items, heq, hitems, -⟩
    rwa [Json.arr.inj (Option.some.inj heq)]
  · intro h
    refine ⟨_, rfl, h, ?_⟩
    rw [List.forall₂_map_right_iff, List.forall₂_same]
    exact fun summary _ => mask_redactValue (.obj summary)

end Runs

/-- Whatever is appended to a context, and whenever the memory is then taken for a tool: it is
redacted exactly if the lists of all summaries are clean. -/
theorem redaction_iff (system : SystemContext) (task : TaskContext) (tool : ToolContext)
    (sourceMap : List (String × String)) (summaries : List (List (String × Json))) :
    (∀ before after, summaries = before ++ after → ∀ toolId,
        Redacted before (transportedMemory
          (before.foldl appendStepSummary (built system task tool sourceMap)) toolId))
      ↔ ∀ summary ∈ summaries, ListsClean summary := by
  constructor
  · intro h summary hsummary
    obtain ⟨before, after, rfl⟩ := List.append_of_mem hsummary
    -- the memory right after the summary was appended
    have hredacted := h (before ++ [summary]) after (by simp) ""
    exact (redacted_iff _ "").mp hredacted summary (mem_recent_concat before summary)
  · rintro h before after rfl toolId
    refine (redacted_iff before toolId).mpr fun summary hsummary => ?_
    exact h summary (List.mem_append_left _ (List.mem_of_mem_drop hsummary))

/-- A password in a list of objects gets through. -/
theorem redaction_list_of_objects :
    let summary := [("accounts", Json.arr [.obj [("password", .str "secret")]])]
    let context := appendStepSummary (built {} ⟨"r", "s", "u"⟩ {} []) summary
    ¬ Redacted [summary] (transportedMemory context "tool.search") := by
  rintro summary context ⟨items, heq, hclean, -⟩
  cases heq
  have hreach : Reaches (.arr [.obj summary]) (.obj [("password", .str "secret")]) :=
    .head (b := .obj summary) (by simp [Json.children])
      (.head (b := .arr [.obj [("password", .str "secret")]]) (by simp [summary, Json.children])
        (.single (by simp [Json.children])))
  have hmasked := hclean _ hreach ("password", .str "secret") (by simp) (by decide)
  simp at hmasked

end AgentLearning.ContextManager
