import Mathlib.Data.List.Infix
import Mathlib.Data.Rat.Floor
import Mathlib.Tactic.Linarith
import AgentLearning.Lib.Trace
import AgentLearning.Validator

/-!
# Quota admission

A tool is validated at one reading of the clock and its start recorded at a later one. What the
tracker keeps is related to the trace: the starts that no check has found older than a second, the
starts less the ends, and the starts of each day. A start that follows on a validation finds all
three below their limits.
-/

namespace AgentLearning.Gateway

open Trace

/-- The calls on a validator and its tracker; a validation is given the registry as it is then. -/
inductive QuotaCall
  | validate (registry : ToolRegistry) (toolName : String) (params : List (String × Json))
    (clock : ToolValidator.ValidateClock)
  | recordCallStart (toolName : String) (now datedAt : ℚ)
  | recordCallEnd (toolName : String)

inductive QuotaAnswer
  | validated (result : Except PyError ValidationResult)
  | recorded

namespace QuotaCall

def toolName : QuotaCall → String
  | validate _ toolName _ _ => toolName
  | recordCallStart toolName _ _ => toolName
  | recordCallEnd toolName => toolName

def readings : QuotaCall → List ℚ
  | validate _ _ _ clock => [clock.now, clock.datedAt]
  | recordCallStart _ now datedAt => [now, datedAt]
  | recordCallEnd _ => []

/-- A validation of the tool finds it with this quota. -/
def HasQuota (toolName : String) (quota : QuotaConfig) : QuotaCall → Prop
  | validate registry name _ _ => name = toolName →
    ∀ tool, registry.get name none = some tool → tool.quota = quota
  | _ => True

end QuotaCall

namespace QuotaTracker

section

variable (pyStr : Json → String) (calendar : Calendar)

def exec (tracker : QuotaTracker) : QuotaCall → QuotaAnswer × QuotaTracker
  | .validate registry toolName params clock =>
    let result := ToolValidator.validate pyStr calendar tracker registry toolName params clock
    (.validated result.1, result.2)
  | .recordCallStart toolName now datedAt =>
    (.recorded, tracker.recordCallStart toolName now (calendar.day datedAt))
  | .recordCallEnd toolName => (.recorded, tracker.recordCallEnd toolName)

end

abbrev QuotaEvent := Trace.Event QuotaTracker QuotaCall QuotaAnswer

/-! ## What a run says about a tool -/

section Says

variable (toolName : String)

/-- When a call of the tool was started, and the reading that its day is from. -/
def startOf (e : QuotaEvent) : Option (ℚ × ℚ) :=
  match e.input with
  | .recordCallStart name now datedAt => if name = toolName then some (now, datedAt) else none
  | _ => none

def starts (tr : List QuotaEvent) : List (ℚ × ℚ) := tr.filterMap (startOf toolName)

/-- The starts of the second before and up to `t`. -/
def startsIn (t : ℚ) (tr : List QuotaEvent) : List (ℚ × ℚ) :=
  (starts toolName tr).filter fun s => t - 1 < s.1 ∧ s.1 ≤ t

def startsOn (calendar : Calendar) (day : ℤ) (tr : List QuotaEvent) : List (ℚ × ℚ) :=
  (starts toolName tr).filter fun s => calendar.day s.2 = day

def isEnd (e : QuotaEvent) : Bool :=
  match e.input with
  | .recordCallEnd name => name = toolName
  | _ => false

def ends (tr : List QuotaEvent) : ℕ := tr.countP (isEnd toolName)

/-- The calls that were started and have not ended. -/
def inFlightIn (tr : List QuotaEvent) : ℕ := (starts toolName tr).length - ends toolName tr

/-- The tool was found valid. -/
def Validates (e : QuotaEvent) : Prop :=
  ∃ registry params clock result, e.input = .validate registry toolName params clock
    ∧ e.output = .validated (.ok result) ∧ result.valid

/-- The last thing that happened to the tool is that it was found valid. -/
def LastValidated (tr : List QuotaEvent) : Prop :=
  ∃ l₁ e l₂, tr = l₁ ++ e :: l₂ ∧ Validates toolName e ∧ ∀ e' ∈ l₂, e'.input.toolName ≠ toolName

/-- A start of the tool follows directly on a validation that found it valid. -/
def Admitted (tr : List QuotaEvent) : Prop :=
  ∀ l₁ e l₂, tr = l₁ ++ e :: l₂ → (startOf toolName e).isSome → LastValidated toolName l₁

/-- Every end is matched by a start before it. -/
def Matched (tr : List QuotaEvent) : Prop :=
  ∀ l, l <+: tr → ends toolName l ≤ (starts toolName l).length

end Says

section Concat

variable {toolName : String} {tr : List QuotaEvent} {e : QuotaEvent}

theorem lastValidated_concat : LastValidated toolName (tr ++ [e])
    ↔ Validates toolName e ∨ e.input.toolName ≠ toolName ∧ LastValidated toolName tr := by
  constructor
  · rintro ⟨l₁, v, l₂, heq, hv, hrest⟩
    rcases concat_eq_append_cons.mp heq with ⟨-, rfl, -⟩ | ⟨l₂', rfl, htr⟩
    · exact .inl hv
    · exact .inr ⟨hrest e (by simp), l₁, v, l₂', htr, hv,
        fun e' he' => hrest e' (List.mem_append_left _ he')⟩
  · rintro (hv | ⟨hne, l₁, v, l₂, rfl, hv, hrest⟩)
    · exact ⟨tr, e, [], rfl, hv, by simp⟩
    · refine ⟨l₁, v, l₂ ++ [e], by simp, hv, fun e' he' => ?_⟩
      rcases List.mem_append.mp he' with he' | he'
      · exact hrest e' he'
      · exact List.mem_singleton.mp he' ▸ hne

theorem admitted_concat : Admitted toolName (tr ++ [e])
    ↔ Admitted toolName tr ∧ ((startOf toolName e).isSome → LastValidated toolName tr) := by
  constructor
  · exact fun h => ⟨fun l₁ x l₂ heq => h l₁ x (l₂ ++ [e]) (by simp [heq]), h tr e [] rfl⟩
  · rintro ⟨h, hlast⟩ l₁ x l₂ heq hx
    rcases concat_eq_append_cons.mp heq with ⟨rfl, rfl, -⟩ | ⟨l₂', rfl, htr⟩
    · exact hlast hx
    · exact h l₁ x l₂' htr hx

theorem matched_concat : Matched toolName (tr ++ [e])
    ↔ Matched toolName tr ∧ ends toolName (tr ++ [e]) ≤ (starts toolName (tr ++ [e])).length := by
  simp only [Matched, List.prefix_concat_iff, or_imp, forall_and, forall_eq]
  exact and_comm

theorem starts_concat :
    starts toolName (tr ++ [e]) = starts toolName tr ++ (startOf toolName e).toList := by
  rw [starts, List.filterMap_append]
  cases h : startOf toolName e <;> simp [h, starts]

theorem mem_readings_of_mem_starts {s : ℚ × ℚ} (h : s ∈ starts toolName tr) :
    ∃ e ∈ tr, s.1 ∈ e.input.readings ∧ s.2 ∈ e.input.readings := by
  obtain ⟨e, he, hs⟩ := List.mem_filterMap.mp h
  refine ⟨e, he, ?_⟩
  unfold startOf at hs
  cases hi : e.input with
  | recordCallStart name now datedAt =>
    rw [hi] at hs
    obtain ⟨-, hs⟩ := (Option.ite_none_right_eq_some ..).mp hs
    obtain rfl := Option.some.inj hs
    simp [QuotaCall.readings]
  | _ => simp [hi] at hs

theorem ends_concat :
    ends toolName (tr ++ [e]) = ends toolName tr + if isEnd toolName e then 1 else 0 := by
  rw [ends, List.countP_append, List.countP_singleton]
  rfl

theorem startOf_of_ne (h : e.input.toolName ≠ toolName) : startOf toolName e = none := by
  unfold startOf
  cases hi : e.input with
  | recordCallStart name now datedAt =>
    rw [hi] at h
    exact if_neg h
  | _ => rfl

theorem isEnd_of_ne (h : e.input.toolName ≠ toolName) : isEnd toolName e = false := by
  unfold isEnd
  cases hi : e.input with
  | recordCallEnd name =>
    rw [hi] at h
    exact decide_eq_false h
  | _ => rfl

end Concat

/-! ## What a call does -/

section Exec

variable (tracker : QuotaTracker) (toolName : String)

theorem timestamps_checkQps (limit : ℤ) (now : ℚ) (n : String) :
    (tracker.checkQps toolName limit now).2.timestamps n
      = if toolName = n then (tracker.timestamps n).filter fun t => now - t < 1
        else tracker.timestamps n :=
  Dict.getD_get?_modify tracker.callTimestamps toolName n (List.filter fun t => now - t < 1) []

theorem timestamps_recordCallStart (now : ℚ) (today : ℤ) (n : String) :
    (tracker.recordCallStart toolName now today).timestamps n
      = if toolName = n then tracker.timestamps n ++ [now] else tracker.timestamps n :=
  Dict.getD_get?_modify tracker.callTimestamps toolName n (· ++ [now]) []

theorem inFlight_recordCallStart (now : ℚ) (today : ℤ) (n : String) :
    (tracker.recordCallStart toolName now today).inFlight n
      = tracker.inFlight n + if toolName = n then 1 else 0 := by
  refine (Dict.getD_get?_modify tracker.concurrent toolName n (· + 1) 0).trans ?_
  split_ifs <;> rfl

theorem inFlight_recordCallEnd (n : String) : (tracker.recordCallEnd toolName).inFlight n
    = tracker.inFlight n - if toolName = n then 1 else 0 := by
  refine (Dict.getD_get?_modify tracker.concurrent toolName n (· - 1) 0).trans ?_
  split_ifs <;> rfl

theorem dailyCount_recordCallStart (now : ℚ) (today : ℤ) (n : String) (day : ℤ) :
    (tracker.recordCallStart toolName now today).dailyCount n day
      = tracker.dailyCount n day + if toolName = n ∧ today = day then 1 else 0 := by
  refine (Dict.getD_get?_modify tracker.dailyCounts (toolName, today) (n, day) (· + 1) 0).trans ?_
  simp only [Prod.mk.injEq]
  split_ifs <;> rfl

variable {tracker} {calendar : Calendar} {pyStr : Json → String}

/-- A validation of the quota that adds no error has found every limit kept. -/
theorem limits_of_valid {tool : ToolMeta} {result : ValidationResult}
    {clock : ToolValidator.ValidateClock}
    (h : (ToolValidator.validateQuota calendar tracker tool result clock).1.valid) :
    (((tracker.checkQps tool.name tool.quota.qps clock.now).2.timestamps tool.name).length : ℤ)
        < tool.quota.qps
      ∧ (tracker.inFlight tool.name : ℤ) < tool.quota.maxConcurrent
      ∧ (tracker.dailyCount tool.name (calendar.day clock.datedAt) : ℤ)
        < tool.quota.dailyLimit := by
  have hqps : (tracker.checkQps tool.name tool.quota.qps clock.now).1
      ↔ (((tracker.checkQps tool.name tool.quota.qps clock.now).2.timestamps tool.name).length : ℤ)
        < tool.quota.qps := by
    rw [timestamps_checkQps, if_pos rfl]
    exact decide_eq_true_iff
  have hconcurrency : (tracker.checkQps tool.name tool.quota.qps clock.now).2.checkConcurrency
      tool.name tool.quota.maxConcurrent
      ↔ (tracker.inFlight tool.name : ℤ) < tool.quota.maxConcurrent := decide_eq_true_iff
  have hdaily : (tracker.checkQps tool.name tool.quota.qps clock.now).2.checkDaily
      tool.name tool.quota.dailyLimit (calendar.day clock.datedAt)
      ↔ (tracker.dailyCount tool.name (calendar.day clock.datedAt) : ℤ)
        < tool.quota.dailyLimit := decide_eq_true_iff
  rw [← hqps, ← hconcurrency, ← hdaily]
  unfold ToolValidator.validateQuota at h
  simp only at h
  split_ifs at h with hd hc hq
  · exact ⟨hq, hc, hd⟩
  all_goals simp [ValidationResult.addError] at h

/-- A validation has either left the tracker alone, or removed the starts of its tool that are
older than a second; if it found the tool valid, then every limit was kept. -/
theorem validate_spec {quota : QuotaConfig} {registry : ToolRegistry}
    (params : List (String × Json)) (clock : ToolValidator.ValidateClock)
    (hquota : ∀ tool, registry.get toolName none = some tool → tool.quota = quota) :
    let r := ToolValidator.validate pyStr calendar tracker registry toolName params clock
    (r.2 = tracker ∨ r.2 = (tracker.checkQps toolName quota.qps clock.now).2)
      ∧ ∀ result, r.1 = .ok result → result.valid →
        ((r.2.timestamps toolName).length : ℤ) < quota.qps
          ∧ (tracker.inFlight toolName : ℤ) < quota.maxConcurrent
          ∧ (tracker.dailyCount toolName (calendar.day clock.datedAt) : ℤ) < quota.dailyLimit := by
  intro r
  cases hget : registry.get toolName none with
  | none =>
    have hr : r = (.ok (({} : ValidationResult).addError (invalidToolName toolName)), tracker) := by
      simp only [r, ToolValidator.validate, hget]
    rw [hr]
    refine ⟨.inl rfl, ?_⟩
    rintro _ ⟨⟩ hvalid
    cases hvalid
  | some tool =>
    obtain rfl := hquota tool hget
    obtain rfl := registry.get_name toolName hget
    by_cases hstatus : tool.status = .available
    · cases hschema : ToolValidator.validateSchema pyStr tool params {} with
      | error e =>
        have hr : r = (.error e, tracker) := by
          simp only [r, ToolValidator.validate, hget, hstatus, hschema, ne_eq, not_true, if_false]
        rw [hr]
        refine ⟨.inl rfl, ?_⟩
        rintro _ ⟨⟩
      | ok result =>
        have hr : r = (.ok (ToolValidator.validateQuota calendar tracker tool result clock).1,
            (tracker.checkQps tool.name tool.quota.qps clock.now).2) := by
          simp only [r, ToolValidator.validate, hget, hstatus, hschema, ne_eq, not_true, if_false]
          rfl
        rw [hr]
        refine ⟨.inr rfl, ?_⟩
        rintro _ ⟨⟩ hvalid
        exact limits_of_valid hvalid
    · have hr : r = (.ok (({} : ValidationResult).addError
          (toolNotAvailable tool.name tool.status.value)), tracker) := by
        simp only [r, ToolValidator.validate, hget, ne_eq, hstatus, not_false_eq_true, if_true]
      rw [hr]
      refine ⟨.inl rfl, ?_⟩
      rintro _ ⟨⟩ hvalid
      cases hvalid

/-- A call leaves the entries of the other tools alone. -/
theorem exec_of_ne {call : QuotaCall} (h : call.toolName ≠ toolName) :
    (exec pyStr calendar tracker call).2.timestamps toolName = tracker.timestamps toolName
      ∧ (exec pyStr calendar tracker call).2.inFlight toolName = tracker.inFlight toolName
      ∧ ∀ day, (exec pyStr calendar tracker call).2.dailyCount toolName day
        = tracker.dailyCount toolName day := by
  cases call with
  | validate registry name params clock =>
    replace h : name ≠ toolName := h
    obtain ⟨quota, hquota⟩ : ∃ quota, ∀ tool, registry.get name none = some tool →
        tool.quota = quota := by
      cases registry.get name none with
      | none => exact ⟨{}, by simp⟩
      | some tool => exact ⟨tool.quota, by simp⟩
    have hexec : (exec pyStr calendar tracker (.validate registry name params clock)).2 = tracker
        ∨ (exec pyStr calendar tracker (.validate registry name params clock)).2
          = (tracker.checkQps name quota.qps clock.now).2 :=
      (validate_spec name params clock hquota).1
    rcases hexec with heq | heq <;> rw [heq]
    · exact ⟨rfl, rfl, fun _ => rfl⟩
    · exact ⟨by rw [timestamps_checkQps, if_neg h], rfl, fun _ => rfl⟩
  | recordCallStart name now datedAt =>
    replace h : name ≠ toolName := h
    refine ⟨?_, ?_, fun day => ?_⟩
    · exact (timestamps_recordCallStart ..).trans (if_neg h)
    · exact (inFlight_recordCallStart ..).trans (by rw [if_neg h, add_zero])
    · exact (dailyCount_recordCallStart ..).trans (by rw [if_neg fun hand => h hand.1, add_zero])
  | recordCallEnd name =>
    replace h : name ≠ toolName := h
    exact ⟨rfl, (inFlight_recordCallEnd ..).trans (by rw [if_neg h, Nat.sub_zero]), fun _ => rfl⟩

end Exec

/-! ## The law of one tool -/

/-- The limit of a quota, where a negative one admits nothing. -/
def within (n : ℕ) (limit : ℤ) : Prop := (n : ℤ) ≤ max 0 limit

structure QuotaLaw (calendar : Calendar) (quota : QuotaConfig) (toolName : String)
    (tr : List QuotaEvent) (tracker : QuotaTracker) : Prop where
  stamps : ∃ checks : List ℚ, (∀ c ∈ checks, ∃ e ∈ tr, c ∈ e.input.readings)
    ∧ tracker.timestamps toolName
      = ((starts toolName tr).map Prod.fst).filter fun x => ∀ c ∈ checks, c - x < 1
  flight : tracker.inFlight toolName + ends toolName tr = (starts toolName tr).length
  daily : ∀ day, tracker.dailyCount toolName day = (startsOn toolName calendar day tr).length
  ready : LastValidated toolName tr →
    ((tracker.timestamps toolName).length : ℤ) < quota.qps
      ∧ (tracker.inFlight toolName : ℤ) < quota.maxConcurrent
      ∧ ∃ d, (∃ e ∈ tr, d ∈ e.input.readings) ∧ (∀ s ∈ starts toolName tr, s.2 ≤ d)
        ∧ (tracker.dailyCount toolName (calendar.day d) : ℤ) < quota.dailyLimit
  window : ∀ t, within (startsIn toolName t tr).length quota.qps
  inFlight : ∀ l, l <+: tr →
    within (inFlightIn toolName l) quota.maxConcurrent
  day : ∀ day, within (startsOn toolName calendar day tr).length quota.dailyLimit

section Law

variable {calendar : Calendar} {quota : QuotaConfig} {toolName : String} {tr : List QuotaEvent}
  {tracker : QuotaTracker}

theorem quotaLaw_empty : QuotaLaw calendar quota toolName [] {} where
  stamps := ⟨[], by simp, rfl⟩
  flight := rfl
  daily _ := rfl
  ready := by
    rintro ⟨l₁, e, l₂, h, -⟩
    simp at h
  window _ := le_max_left ..
  inFlight l hl := by
    rw [List.prefix_nil.mp hl]
    exact le_max_left ..
  day _ := le_max_left ..

variable {e : QuotaEvent}

theorem length_filter_concat {α : Type*} (p : α → Bool) (l : List α) (x : α) :
    ((l ++ [x]).filter p).length = (l.filter p).length + if p x then 1 else 0 := by
  cases h : p x <;> simp [h]

/-- An event without a start of the tool keeps the bounds. -/
theorem QuotaLaw.bounds (h : QuotaLaw calendar quota toolName tr tracker)
    (hstarts : starts toolName (tr ++ [e]) = starts toolName tr) :
    (∀ t, within (startsIn toolName t (tr ++ [e])).length quota.qps)
      ∧ (∀ l, l <+: tr ++ [e] →
        within (inFlightIn toolName l) quota.maxConcurrent)
      ∧ ∀ day, within (startsOn toolName calendar day (tr ++ [e])).length quota.dailyLimit := by
  refine ⟨fun t => ?_, fun l hl => ?_, fun day => ?_⟩
  · rw [startsIn, hstarts]
    exact h.window t
  · rcases List.prefix_concat_iff.mp hl with rfl | hl
    · have hbound := h.inFlight tr List.prefix_rfl
      rw [inFlightIn, hstarts, ends_concat]
      rw [within, inFlightIn] at *
      omega
    · exact h.inFlight l hl
  · rw [startsOn, hstarts]
    exact h.day day

variable {pyStr : Json → String} {call : QuotaCall}

/-- A call that leaves the tool's entries alone and is neither its start, its end nor its
validation. -/
theorem QuotaLaw.frame (h : QuotaLaw calendar quota toolName tr tracker)
    {tracker' : QuotaTracker} (hname : e.input.toolName ≠ toolName)
    (hts : tracker'.timestamps toolName = tracker.timestamps toolName)
    (hfl : tracker'.inFlight toolName = tracker.inFlight toolName)
    (hdc : ∀ day, tracker'.dailyCount toolName day = tracker.dailyCount toolName day) :
    QuotaLaw calendar quota toolName (tr ++ [e]) tracker' := by
  have hstarts : starts toolName (tr ++ [e]) = starts toolName tr := by
    rw [starts_concat, startOf_of_ne hname, Option.toList_none, List.append_nil]
  have hends : ends toolName (tr ++ [e]) = ends toolName tr := by
    rw [ends_concat, isEnd_of_ne hname]
    rfl
  obtain ⟨hwindow, hinFlight, hday⟩ := h.bounds hstarts
  refine ⟨?_, ?_, ?_, ?_, hwindow, hinFlight, hday⟩
  · obtain ⟨checks, hchecks, heq⟩ := h.stamps
    refine ⟨checks, fun c hc => ?_, by rw [hts, heq, hstarts]⟩
    obtain ⟨e', he', hread⟩ := hchecks c hc
    exact ⟨e', List.mem_append_left _ he', hread⟩
  · rw [hfl, hends, hstarts]
    exact h.flight
  · intro day
    rw [hdc, startsOn, hstarts]
    exact h.daily day
  · intro hlast
    rw [hts, hfl, hstarts]
    rcases lastValidated_concat.mp hlast with hv | ⟨-, hlast⟩
    · obtain ⟨registry, params, clock, result, hi, -⟩ := hv
      exact absurd (by rw [hi]; rfl) hname
    · obtain ⟨hq, hc, d, ⟨e', he', hread⟩, hle, hd⟩ := h.ready hlast
      exact ⟨hq, hc, d, ⟨e', List.mem_append_left _ he', hread⟩, hle, hdc _ ▸ hd⟩

/-- A validation of the tool, by what it does to the tracker. -/
theorem QuotaLaw.validate (h : QuotaLaw calendar quota toolName tr tracker)
    {tracker' : QuotaTracker} {clock : ToolValidator.ValidateClock}
    (hname : e.input.toolName = toolName) (hstart : startOf toolName e = none)
    (hend : isEnd toolName e = false) (hreadings : e.input.readings = [clock.now, clock.datedAt])
    (hlate : ∀ e ∈ tr, ∀ x ∈ e.input.readings, x ≤ clock.datedAt)
    (htracker : tracker' = tracker ∨ tracker' = (tracker.checkQps toolName quota.qps clock.now).2)
    (hvalid : Validates toolName e → ((tracker'.timestamps toolName).length : ℤ) < quota.qps
      ∧ (tracker.inFlight toolName : ℤ) < quota.maxConcurrent
      ∧ (tracker.dailyCount toolName (calendar.day clock.datedAt) : ℤ) < quota.dailyLimit) :
    QuotaLaw calendar quota toolName (tr ++ [e]) tracker' := by
  have hstarts : starts toolName (tr ++ [e]) = starts toolName tr := by
    rw [starts_concat, hstart, Option.toList_none, List.append_nil]
  have hends : ends toolName (tr ++ [e]) = ends toolName tr := by
    rw [ends_concat, hend]
    rfl
  obtain ⟨hwindow, hinFlight, hday⟩ := h.bounds hstarts
  have hfl : tracker'.inFlight toolName = tracker.inFlight toolName := by
    rcases htracker with rfl | rfl <;> rfl
  have hdc (day : ℤ) : tracker'.dailyCount toolName day = tracker.dailyCount toolName day := by
    rcases htracker with rfl | rfl <;> rfl
  refine ⟨?_, ?_, fun day => ?_, fun hlast => ?_, hwindow, hinFlight, hday⟩
  · obtain ⟨checks, hchecks, hts⟩ := h.stamps
    have hchecks' (c : ℚ) (hc : c ∈ checks) : ∃ e' ∈ tr ++ [e], c ∈ e'.input.readings := by
      obtain ⟨e', he', hread⟩ := hchecks c hc
      exact ⟨e', List.mem_append_left _ he', hread⟩
    rw [hstarts]
    rcases htracker with rfl | rfl
    · exact ⟨checks, hchecks', hts⟩
    · refine ⟨clock.now :: checks, ?_, ?_⟩
      · rw [List.forall_mem_cons]
        exact ⟨⟨e, by simp, by simp [hreadings]⟩, hchecks'⟩
      · rw [timestamps_checkQps, if_pos rfl, hts, List.filter_filter]
        simp [Bool.decide_and]
  · rw [hfl, hends, hstarts]
    exact h.flight
  · rw [hdc, startsOn, hstarts]
    exact h.daily day
  · rcases lastValidated_concat.mp hlast with hv | ⟨hne, -⟩
    · obtain ⟨hq, hc, hd⟩ := hvalid hv
      rw [hfl, hstarts]
      refine ⟨hq, hc, clock.datedAt, ⟨e, by simp, by simp [hreadings]⟩, fun s hs => ?_,
        hdc _ ▸ hd⟩
      obtain ⟨e', he', -, hread⟩ := mem_readings_of_mem_starts hs
      exact hlate e' he' _ hread
    · exact absurd hname hne

/-- At a start no later than any reading so far, the timestamps hold every start of its second. -/
theorem QuotaLaw.startsIn_le (h : QuotaLaw calendar quota toolName tr tracker) {now t : ℚ}
    (hlate : ∀ e ∈ tr, ∀ x ∈ e.input.readings, x ≤ now) (hin : t - 1 < now ∧ now ≤ t) :
    (startsIn toolName t tr).length ≤ (tracker.timestamps toolName).length := by
  obtain ⟨checks, hchecks, hts⟩ := h.stamps
  rw [hts, List.filter_map, List.length_map, startsIn, ← List.countP_eq_length_filter,
    ← List.countP_eq_length_filter]
  refine List.countP_mono_left fun s hs hst => ?_
  have hst' := of_decide_eq_true hst
  refine decide_eq_true fun c hc => ?_
  obtain ⟨e, he, hread⟩ := hchecks c hc
  linarith [hlate e he c hread, hst'.1, hin.2]

/-- On the day of a start no later than any before it, the starts are those counted for the day of
the last validation, or there are none. -/
theorem QuotaLaw.startsOn_le (h : QuotaLaw calendar quota toolName tr tracker) {d datedAt : ℚ}
    (hle : ∀ s ∈ starts toolName tr, s.2 ≤ d) (hdated : d ≤ datedAt) :
    (startsOn toolName calendar (calendar.day datedAt) tr).length
      ≤ tracker.dailyCount toolName (calendar.day d) := by
  by_cases hsame : calendar.day d = calendar.day datedAt
  · rw [hsame, h.daily]
  · have hnil : startsOn toolName calendar (calendar.day datedAt) tr = [] := by
      rw [startsOn, List.filter_eq_nil_iff]
      intro s hs hon
      have hmono := calendar.mono (hle s hs)
      have hmono' := calendar.mono hdated
      have hon' : calendar.day s.2 = calendar.day datedAt := of_decide_eq_true hon
      omega
    rw [hnil]
    exact Nat.zero_le _

theorem QuotaLaw.start (h : QuotaLaw calendar quota toolName tr tracker) {now datedAt : ℚ}
    (hlast : LastValidated toolName tr) (hlate : ∀ e ∈ tr, ∀ x ∈ e.input.readings, x ≤ now)
    (hdated : now ≤ datedAt) :
    QuotaLaw calendar quota toolName
      (tr ++ [event (exec pyStr calendar) tracker (.recordCallStart toolName now datedAt)])
      (tracker.recordCallStart toolName now (calendar.day datedAt)) := by
  have hstarts : starts toolName (tr ++ [event (exec pyStr calendar) tracker
      (.recordCallStart toolName now datedAt)]) = starts toolName tr ++ [(now, datedAt)] := by
    rw [starts_concat]
    simp [startOf]
  have hends : ends toolName (tr ++ [event (exec pyStr calendar) tracker
      (.recordCallStart toolName now datedAt)]) = ends toolName tr := ends_concat
  obtain ⟨hqps, hflight, d, ⟨e', he', hread⟩, hle, hdaily⟩ := h.ready hlast
  obtain ⟨checks, hchecks, hts⟩ := h.stamps
  have hcheck (c : ℚ) (hc : c ∈ checks) : c ≤ now := by
    obtain ⟨e, he, hread⟩ := hchecks c hc
    exact hlate e he c hread
  refine ⟨⟨checks, fun c hc => ?_, ?_⟩, ?_, fun day => ?_, fun hl => ?_, fun t => ?_,
    fun l hl => ?_, fun day => ?_⟩
  · obtain ⟨e, he, hread⟩ := hchecks c hc
    exact ⟨e, List.mem_append_left _ he, hread⟩
  · have hnow : [now].filter (fun x => decide (∀ c ∈ checks, c - x < 1)) = [now] :=
      List.filter_cons_of_pos (decide_eq_true fun c hc => by linarith [hcheck c hc])
    rw [timestamps_recordCallStart, if_pos rfl, hts, hstarts, List.map_append, List.filter_append]
    exact congrArg (_ ++ ·) hnow.symm
  · have := h.flight
    rw [inFlight_recordCallStart, if_pos rfl, hends, hstarts, List.length_append]
    simp only [List.length_singleton]
    omega
  · rw [dailyCount_recordCallStart, startsOn, hstarts, length_filter_concat, h.daily day]
    simp [startsOn]
  · rcases lastValidated_concat.mp hl with ⟨_, _, _, _, hi, -⟩ | ⟨hne, -⟩
    · cases hi
    · exact absurd rfl hne
  · rw [startsIn, hstarts, length_filter_concat]
    split_ifs with hin
    · have hsub := h.startsIn_le hlate (of_decide_eq_true hin)
      rw [startsIn] at hsub
      rw [within]
      push_cast
      omega
    · exact h.window t
  · rcases List.prefix_concat_iff.mp hl with rfl | hl
    · have := h.flight
      rw [inFlightIn, hstarts, hends, List.length_append, List.length_singleton, within]
      omega
    · exact h.inFlight l hl
  · rw [startsOn, hstarts, length_filter_concat]
    split_ifs with hd
    · obtain rfl : calendar.day datedAt = day := of_decide_eq_true hd
      have hcount := h.startsOn_le hle ((hlate e' he' d hread).trans hdated)
      rw [startsOn] at hcount
      rw [within]
      push_cast
      omega
    · exact h.day day

theorem QuotaLaw.stop (h : QuotaLaw calendar quota toolName tr tracker)
    (hmatched : Matched toolName
      (tr ++ [event (exec pyStr calendar) tracker (.recordCallEnd toolName)])) :
    QuotaLaw calendar quota toolName
      (tr ++ [event (exec pyStr calendar) tracker (.recordCallEnd toolName)])
      (tracker.recordCallEnd toolName) := by
  have hstarts : starts toolName (tr ++ [event (exec pyStr calendar) tracker
      (.recordCallEnd toolName)]) = starts toolName tr := by
    rw [starts_concat]
    exact List.append_nil _
  have hends : ends toolName (tr ++ [event (exec pyStr calendar) tracker
      (.recordCallEnd toolName)]) = ends toolName tr + 1 := by
    rw [ends_concat]
    simp [isEnd]
  obtain ⟨hwindow, hinFlight, hday⟩ := h.bounds hstarts
  refine ⟨?_, ?_, ?_, fun hl => ?_, hwindow, hinFlight, hday⟩
  · obtain ⟨checks, hchecks, hts⟩ := h.stamps
    refine ⟨checks, fun c hc => ?_, by rw [hstarts, ← hts]; rfl⟩
    obtain ⟨e, he, hread⟩ := hchecks c hc
    exact ⟨e, List.mem_append_left _ he, hread⟩
  · have hflight := h.flight
    have hle := hmatched _ List.prefix_rfl
    rw [hstarts, hends] at hle ⊢
    rw [inFlight_recordCallEnd, if_pos rfl]
    omega
  · intro day
    rw [startsOn, hstarts]
    exact h.daily day
  · rcases lastValidated_concat.mp hl with ⟨_, _, _, _, hi, -⟩ | ⟨hne, -⟩
    · cases hi
    · exact absurd rfl hne

end Law

/-- With every start directly after a validation: at most `qps` starts in any second, at most
`max_concurrent` calls in flight at any time, and at most `daily_limit` starts on any day. -/
theorem quota_admission (pyStr : Json → String) (calendar : Calendar) (quota : QuotaConfig)
    (toolName : String) (calls : List QuotaCall)
    (hquota : ∀ call ∈ calls, call.HasQuota toolName quota)
    (hclock : Clocked QuotaCall.readings calls)
    (hadmitted : Admitted toolName (events (exec pyStr calendar) {} calls))
    (hmatched : Matched toolName (events (exec pyStr calendar) {} calls)) :
    (∀ t, within (startsIn toolName t (events (exec pyStr calendar) {} calls)).length quota.qps)
    ∧ (∀ l, l <+: events (exec pyStr calendar) {} calls →
      within (inFlightIn toolName l) quota.maxConcurrent)
    ∧ ∀ day, within (startsOn toolName calendar day (events (exec pyStr calendar) {} calls)).length
      quota.dailyLimit := by
  have hlaw : Admitted toolName (events (exec pyStr calendar) {} calls) →
      Matched toolName (events (exec pyStr calendar) {} calls) →
      QuotaLaw calendar quota toolName (events (exec pyStr calendar) {} calls)
        (final (exec pyStr calendar) {} calls) := by
    refine clocked_induct (R := fun tr tracker => Admitted toolName tr → Matched toolName tr →
      QuotaLaw calendar quota toolName tr tracker) (fun _ _ => quotaLaw_empty) hclock
      fun tr tracker call hcall hpast hwithin h hadm hmat => ?_
    rw [admitted_concat] at hadm
    have hlaw := h hadm.1 (matched_concat.mp hmat).1
    by_cases hname : call.toolName = toolName
    · cases call with
      | validate registry name params clock =>
        obtain rfl := hname
        obtain ⟨htracker, hvalid⟩ := validate_spec name params clock (hquota _ hcall rfl)
        refine hlaw.validate rfl rfl rfl rfl (fun e he x hx => ?_) htracker ?_
        · exact hpast e he x hx _ (by simp [QuotaCall.readings])
        · rintro ⟨_, _, _, result, -, ho, hres⟩
          exact hvalid result (QuotaAnswer.validated.inj ho) hres
      | recordCallStart name now datedAt =>
        obtain rfl := hname
        refine hlaw.start (hadm.2 (by simp [startOf, QuotaCall.toolName])) (fun e he x hx => ?_) ?_
        · exact hpast e he x hx _ (by simp [QuotaCall.readings])
        · simpa [QuotaCall.readings] using hwithin
      | recordCallEnd name =>
        obtain rfl := hname
        exact hlaw.stop hmat
    · obtain ⟨hts, hfl, hdc⟩ := exec_of_ne toolName hname
      exact hlaw.frame hname hts hfl hdc
  exact ⟨(hlaw hadmitted hmatched).window, (hlaw hadmitted hmatched).inFlight,
    (hlaw hadmitted hmatched).day⟩

/-- Days of 86400 seconds. -/
def unixDays : Calendar where
  day q := ⌊q / 86400⌋
  mono h := Int.floor_mono (div_le_div_of_nonneg_right h (by norm_num))

/-- A call that is validated just before midnight and started just after. -/
theorem quota_admission_midnight :
    let tool : ToolMeta :=
      { name := "t", version := "1", description := "", status := .available,
        quota := { qps := 1, maxConcurrent := 1, dailyLimit := 1 },
        registeredAt := 0, updatedAt := 0 }
    let calls := [.validate ((∅ : ToolRegistry).register tool).2 "t" [] ⟨86399, 86399⟩,
      .recordCallStart "t" 86400 86400, .recordCallEnd "t"]
    let tr := events (exec (fun _ => "") unixDays) {} calls
    within (startsOn "t" unixDays 1 tr).length 1 ∧ (startsOn "t" unixDays 1 tr).length = 1 := by
  intro tool calls tr
  have hquota : ∀ call ∈ calls, call.HasQuota "t" tool.quota := by
    have hget : ((((∅ : ToolRegistry).register tool).2.get "t" none).map ToolMeta.quota)
        = some tool.quota := by decide +kernel
    simp only [calls, List.forall_mem_cons, QuotaCall.HasQuota]
    refine ⟨fun _ other hother => ?_, trivial, trivial, by simp⟩
    rw [hother] at hget
    exact Option.some.inj hget
  have hclock : Clocked QuotaCall.readings calls := by
    unfold Clocked
    decide +kernel
  have hvalid : (ToolValidator.validate (fun _ => "") unixDays {}
      ((∅ : ToolRegistry).register tool).2 "t" [] ⟨86399, 86399⟩).1.toOption.map
        ValidationResult.valid = some true := by decide +kernel
  obtain ⟨result, hresult, hok⟩ := Option.map_eq_some_iff.mp hvalid
  have hanswer : (ToolValidator.validate (fun _ => "") unixDays {}
      ((∅ : ToolRegistry).register tool).2 "t" [] ⟨86399, 86399⟩).1 = .ok result := by
    cases h : (ToolValidator.validate (fun _ => "") unixDays {}
      ((∅ : ToolRegistry).register tool).2 "t" [] ⟨86399, 86399⟩).1 with
    | error e => rw [h] at hresult; cases hresult
    | ok r => rw [h] at hresult; exact congrArg _ (Option.some.inj hresult)
  obtain ⟨e₁, e₂, e₃, he, he₁, he₂, he₃⟩ : ∃ e₁ e₂ e₃, tr = [] ++ [e₁] ++ [e₂] ++ [e₃]
      ∧ e₁ = event (exec (fun _ => "") unixDays) {}
        (.validate ((∅ : ToolRegistry).register tool).2 "t" [] ⟨86399, 86399⟩)
      ∧ startOf "t" e₁ = none ∧ startOf "t" e₃ = none :=
    ⟨_, _, _, rfl, rfl, rfl, rfl⟩
  have hadmitted : Admitted "t" tr := by
    rw [he]
    refine admitted_concat.mpr ⟨admitted_concat.mpr ⟨admitted_concat.mpr ⟨?_, ?_⟩,
      fun _ => lastValidated_concat.mpr (.inl ?_)⟩, ?_⟩
    · intro l₁ e l₂ h
      simp at h
    · simp [he₂]
    · rw [he₁]
      exact ⟨_, _, _, result, rfl, congrArg QuotaAnswer.validated hanswer, hok⟩
    · simp [he₃]
  have hmatched : Matched "t" tr := by
    intro l hl
    have hall : ∀ l ∈ tr.inits, ends "t" l ≤ (starts "t" l).length := by decide +kernel
    exact hall l ((List.mem_inits ..).mpr hl)
  exact ⟨(quota_admission _ unixDays tool.quota "t" calls hquota hclock hadmitted hmatched).2.2 1,
    by decide +kernel⟩

end QuotaTracker

end AgentLearning.Gateway
