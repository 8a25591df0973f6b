import AgentLearning.Proofs.CircuitCounts

/-!
# What the circuit breaker promises

The module promises one probe call while a circuit is half open, and a window of time for the
failures it counts. Neither is in the code: a circuit that is half open admits every request, and
no count looks at a time. So both promises are kept by the callers or not at all.
-/

namespace AgentLearning.Gateway

namespace CircuitBreaker

open Trace

variable {β : Type} [CircuitStateBackend β]

/-! ## Probes -/

def asks (tool : String) : CircuitEvent β → Bool := recorded .allowRequest tool

def admits (tool : String) (e : CircuitEvent β) : Bool :=
  asks tool e && e.output = .allowed true

def recordsOutcome (tool : String) (e : CircuitEvent β) : Bool :=
  recorded .recordSuccess tool e || recorded .recordFailure tool e

/-- The circuit comes to be half open, or stays so with a further success. -/
def awaitsProbe (tool : String) (e : CircuitEvent β) : Bool :=
  enters .halfOpen tool e || (recorded .recordSuccess tool e && e.after.stateOf tool = .halfOpen)

/-- The circuit is in memory, and not open. -/
def Admitting (tool : String) (breaker : CircuitBreaker β) : Prop :=
  ∃ stats, breaker.circuits.get? tool = some stats ∧ stats.state ≠ .opened

variable {breaker : CircuitBreaker β} {tool : String} {call : CircuitCall}

omit [CircuitStateBackend β] in
theorem recorded_iff {op : CircuitOp} {e : CircuitEvent β} :
    recorded op tool e = true ↔ e.input.op = op ∧ e.input.toolName = tool := by
  simp [recorded]

theorem enters_iff {state : CircuitState} {e : CircuitEvent β} :
    enters state tool e = true ↔ e.before.stateOf tool ≠ state ∧ e.after.stateOf tool = state := by
  simp [enters]

theorem state_result_ne_opened {config : CircuitConfig} {stats : CircuitStats}
    (hstate : stats.state ≠ .opened) (hop : call.op ≠ .recordFailure) :
    (call.result config stats).state ≠ .opened := by
  rw [← CircuitStats.state_phase, CircuitStats.phase_result]
  rw [← CircuitStats.state_phase] at hstate
  generalize stats.phase = phase at hstate ⊢
  rcases phase with failures | since | successes
  · rcases hcall : call.op <;> simp_all [CircuitPhase.next, CircuitPhase.state]
  · exact absurd rfl hstate
  · rcases hcall : call.op <;> simp_all [CircuitPhase.next, CircuitPhase.state]
    split_ifs <;> simp

/-- Only a failure opens the circuit. -/
theorem Admitting.exec (h : breaker.Admitting tool)
    (hcall : call.toolName = tool → call.op ≠ .recordFailure) :
    (exec breaker call).2.Admitting tool := by
  obtain ⟨stats, hget, hstate⟩ := h
  by_cases htool : call.toolName = tool
  · subst htool
    exact ⟨_, get?_exec_of_some hget, state_result_ne_opened hstate (hcall rfl)⟩
  · have hview : view tool (CircuitBreaker.exec breaker call).2 = view tool breaker :=
      view_exec_ne htool
    exact ⟨stats, (congrArg (fun v => v.2.1) hview).trans hget, hstate⟩

theorem admitting_of_stateOf (htool : call.toolName = tool) (hop : call.op ≠ .reset)
    (hstate : (exec breaker call).2.stateOf tool = .halfOpen) :
    (exec breaker call).2.Admitting tool := by
  subst htool
  have hget : (exec breaker call).2.circuits.get? call.toolName = some _ :=
    get?_exec_of_ne_reset hop
  refine ⟨_, hget, ?_⟩
  rw [stateOf, findStats_of_some hget] at hstate
  simp [hstate]

/-- A circuit waits for a probe in memory. -/
theorem admitting_of_awaitsProbe (h : awaitsProbe tool (event exec breaker call)) :
    (exec breaker call).2.Admitting tool := by
  rw [awaitsProbe, Bool.or_eq_true, Bool.and_eq_true, enters_iff, recorded_iff,
    decide_eq_true_eq, event_before, event_after, event_input] at h
  rcases h with ⟨hbefore, hafter⟩ | ⟨⟨hop, htool⟩, hafter⟩
  · have htool : call.toolName = tool := by
      by_contra hne
      have hsame : (exec breaker call).2.findStats tool 0 = breaker.findStats tool 0 :=
        findStats_congr (view_exec_ne hne) 0
      exact hbefore (by rw [← hafter, stateOf, stateOf, hsame])
    refine admitting_of_stateOf htool (fun hop => ?_) hafter
    subst htool
    rcases hget : breaker.circuits.get? call.toolName with _ | stats
    · rw [exec_reset_of_none hop hget] at hafter
      exact hbefore hafter
    · rw [stateOf, findStats_of_some (get?_exec_of_some hget), CircuitCall.result, hop] at hafter
      simp [CircuitStats.transition] at hafter
  · exact admitting_of_stateOf htool (by simp [hop]) hafter

theorem admits_eq_asks (h : (exec breaker call).2.Admitting tool) :
    admits tool (event exec breaker call) = asks tool (event exec breaker call) := by
  rcases hasks : asks tool (event exec breaker call) with _ | _
  · simp [admits, hasks]
  · obtain ⟨hop, rfl⟩ : call.op = .allowRequest ∧ call.toolName = tool := recorded_iff.mp hasks
    obtain ⟨stats, hget, hstate⟩ := h
    have hreset : call.op ≠ .reset := by simp [hop]
    rw [get?_exec_of_ne_reset hreset, Option.some.injEq] at hget
    simp only [admits, hasks, Bool.true_and, event_output, exec_eq hreset rfl, hget,
      CircuitCall.output, hop]
    simp [hstate]

/-- One probe is admitted at a time exactly if no caller asks for a second. -/
theorem one_probe_iff (breaker : CircuitBreaker β) (tool : String) (calls : List CircuitCall) :
    OnceWithin (admits tool) (awaitsProbe tool) (recordsOutcome tool) (events exec breaker calls)
      ↔ OnceWithin (asks tool) (awaitsProbe tool) (recordsOutcome tool)
        (events exec breaker calls) := by
  have hcount : ∀ l₁ x l₂ l₃, events exec breaker calls = l₁ ++ x :: (l₂ ++ l₃) →
      awaitsProbe tool x → (∀ y ∈ l₂, recordsOutcome tool y = false) →
      (x :: l₂).countP (admits tool) = (x :: l₂).countP (asks tool) := by
    intro l₁ x l₂ l₃ heq hx hquiet
    obtain ⟨is₁, is₂, -, -, hrest⟩ := exists_of_events_eq_append heq
    rcases is₂ with _ | ⟨i, is₂⟩
    · simp at hrest
    rw [events, List.cons.injEq] at hrest
    obtain ⟨rfl, hrest⟩ := hrest
    obtain ⟨js, is₃, rfl, rfl, -⟩ := exists_of_events_eq_append hrest.symm
    have hadmitting := admitting_of_awaitsProbe hx
    -- nothing in between opens the circuit
    have hstretch : ∀ e ∈ events exec (exec (final exec breaker is₁) i).2 js,
        e.before.Admitting tool ∧ e.after.Admitting tool := by
      refine forall_mem_events hadmitting fun breaker' call hcall h => h.exec fun htool hop => ?_
      rw [← map_input_events exec js (exec (final exec breaker is₁) i).2] at hcall
      obtain ⟨e, he, rfl⟩ := List.mem_map.mp hcall
      have hrecorded : recorded .recordFailure tool e = true := recorded_iff.mpr ⟨hop, htool⟩
      have hquiet := hquiet e he
      simp [recordsOutcome, hrecorded] at hquiet
    refine List.countP_congr fun e he => ?_
    rcases List.mem_cons.mp he with rfl | he
    · rw [admits_eq_asks hadmitting]
    · obtain ⟨js₁, j, js₂, rfl, rfl⟩ := exists_of_mem_events he
      rw [admits_eq_asks (hstretch _ he).2]
  exact forall₄_congr fun l₁ x l₂ l₃ => imp_congr_right fun heq => imp_congr_right fun hx =>
    imp_congr_right fun hquiet => by rw [hcount l₁ x l₂ l₃ heq hx hquiet]

/-- Two callers ask while the circuit is half open, and both are let through. -/
theorem two_probes_admitted :
    let breaker := fresh { failureThreshold := 1 } (none : Option InMemoryCircuitStateBackend)
    let calls := [⟨.recordFailure, "search", ⟨0, 0, 0⟩⟩, ⟨.allowRequest, "search", ⟨30, 30, 30⟩⟩,
      ⟨.allowRequest, "search", ⟨31, 31, 31⟩⟩]
    ¬ OnceWithin (admits "search") (awaitsProbe "search") (recordsOutcome "search")
      (events exec breaker calls) := by
  intro breaker calls h
  have hcount := h [_] _ [_] [] rfl (by decide +kernel) (by decide +kernel)
  revert hcount
  decide +kernel

/-! ## The window -/

/-- The circuit goes from closed to open. -/
def opens (tool : String) (e : CircuitEvent β) : Bool :=
  e.before.stateOf tool = .closed ∧ e.after.stateOf tool = .opened

/-- The failures of the tool that were recorded in the last seconds before a time. -/
def failuresWithin (window : ℚ) (tool : String) (t : ℚ) (tr : List (CircuitEvent β)) : ℕ :=
  tr.countP fun e =>
    recorded .recordFailure tool e && (t - window ≤ e.input.clock.now ∧ e.input.clock.now ≤ t)

/-- A failure that finds the circuit closed, with as many before it in a row as it takes. -/
def TipsOver (config : CircuitConfig) (tool : String) (tr : List (CircuitEvent β))
    (e : CircuitEvent β) : Prop :=
  recorded .recordFailure tool e ∧ e.before.stateOf tool = .closed
    ∧ config.failureThreshold ≤ failuresSince tool tr + 1

theorem opens_iff {config : CircuitConfig} {tr : List (CircuitEvent β)}
    (hconfig : breaker.config = config) (hknown : breaker.Known tool)
    (hcounts : Counts tool tr (breaker.phaseOf tool)) :
    opens tool (event exec breaker call) ↔ TipsOver config tool tr (event exec breaker call) := by
  rw [opens, TipsOver, recorded_iff, decide_eq_true_eq, event_before, event_after, event_input,
    ← state_phaseOf, ← state_phaseOf]
  by_cases htool : call.toolName = tool
  · subst htool
    rw [phaseOf_exec hknown, hconfig]
    rcases hphase : breaker.phaseOf call.toolName with failures | since | successes
    · rw [hphase, Counts] at hcounts
      rw [← hcounts]
      rcases hop : call.op <;> simp [CircuitPhase.next, CircuitPhase.state, hop]
      split_ifs with hthreshold <;> simp [hthreshold]
    · simp [CircuitPhase.state]
    · simp [CircuitPhase.state]
  · rw [phaseOf_exec_ne htool]
    simp only [htool, and_false, false_and, iff_false, not_and]
    intro hclosed
    simp [hclosed]

/-- Every circuit opens within the window exactly if the failures that tip it over are within the
window anyway. -/
theorem window_iff (config : CircuitConfig) (backend : Option β) (tool : String)
    (hfresh : ∀ b ∈ backend, CircuitStateBackend.get b tool = none) (calls : List CircuitCall) :
    let tr := events exec (fresh config backend) calls
    (∀ l₁ e l₂, tr = l₁ ++ e :: l₂ → opens tool e →
        config.failureThreshold
          ≤ failuresWithin config.windowSize tool e.input.clock.changed (l₁ ++ [e]))
      ↔ ∀ l₁ e l₂, tr = l₁ ++ e :: l₂ → TipsOver config tool l₁ e →
        config.failureThreshold
          ≤ failuresWithin config.windowSize tool e.input.clock.changed (l₁ ++ [e]) := by
  refine forall₄_congr fun l₁ e l₂ heq => imp_congr_left ?_
  obtain ⟨is₁, is₂, -, rfl, hrest⟩ := exists_of_events_eq_append heq
  rcases is₂ with _ | ⟨call, is₂⟩
  · simp at hrest
  rw [events, List.cons.injEq] at hrest
  obtain ⟨rfl, -⟩ := hrest
  obtain ⟨hconfig, hknown, hcounts⟩ := counts_final config hfresh is₁
  exact opens_iff hconfig hknown hcounts

theorem window_iff_empty_backend :
    let config : CircuitConfig := { failureThreshold := 2 }
    let calls := [⟨.recordFailure, "search", ⟨0, 0, 0⟩⟩, ⟨.recordFailure, "search", ⟨9, 9, 9⟩⟩]
    let tr := events exec (fresh config (some ({} : InMemoryCircuitStateBackend))) calls
    (∀ l₁ e l₂, tr = l₁ ++ e :: l₂ → opens "search" e →
        config.failureThreshold
          ≤ failuresWithin config.windowSize "search" e.input.clock.changed (l₁ ++ [e]))
      ↔ ∀ l₁ e l₂, tr = l₁ ++ e :: l₂ → TipsOver config "search" l₁ e →
        config.failureThreshold
          ≤ failuresWithin config.windowSize "search" e.input.clock.changed (l₁ ++ [e]) :=
  window_iff { failureThreshold := 2 } (some ({} : InMemoryCircuitStateBackend)) "search"
    (by simp [CircuitStateBackend.get, InMemoryCircuitStateBackend.get]) _

/-- Two failures open the circuit however much time lies between them. -/
theorem opened_by_old_failure :
    let config : CircuitConfig := { failureThreshold := 2, windowSize := 60 }
    let calls := [⟨.recordFailure, "search", ⟨0, 0, 0⟩⟩,
      ⟨.recordFailure, "search", ⟨1000, 1000, 1000⟩⟩]
    ¬ ∀ l₁ e l₂,
      events exec (fresh config (none : Option InMemoryCircuitStateBackend)) calls
          = l₁ ++ e :: l₂ →
        opens "search" e →
        config.failureThreshold
          ≤ failuresWithin config.windowSize "search" e.input.clock.changed (l₁ ++ [e]) := by
  intro config calls h
  have hcount := h [_] _ [] rfl (by decide +kernel)
  revert hcount
  decide +kernel

end CircuitBreaker

end AgentLearning.Gateway
