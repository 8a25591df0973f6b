import AgentLearning.CircuitBreaker
import AgentLearning.Lib.Trace

/-!
# What the circuit breaker counts

A call finds the statistics of its tool, makes of them what depends on its operation only
(`CircuitCall.result`), and leaves the other tools alone. So the counters of one tool follow the
events of that tool: in each state there is one counter that means something, and what it means is
kept by every call (`Counted`).
-/

namespace AgentLearning.Gateway

open Trace

/-! ## What a call does -/

/-- What a query makes of the statistics it finds. -/
def CircuitStats.recover (config : CircuitConfig) (stats : CircuitStats) (clock : CircuitClock) :
    CircuitStats :=
  if stats.Due config clock.now then stats.transition .halfOpen clock.changed else stats

namespace CircuitCall

variable (call : CircuitCall) (config : CircuitConfig) (stats : CircuitStats)

/-- What a call makes of the statistics it finds. -/
def result : CircuitStats :=
  match call.op with
  | .getState | .getStats => stats.recover config call.clock
  | .allowRequest =>
    let stats := stats.recover config call.clock
    if stats.state = .opened then { stats with totalRejections := stats.totalRejections + 1 }
    else stats
  | .recordSuccess => stats.countSuccess config call.clock
  | .recordFailure => stats.countFailure config call.clock
  | .reset => stats.transition .closed call.clock.changed

/-- A call that finds these statistics persists what it makes of them. -/
def Writes : Prop :=
  match call.op with
  | .getState | .getStats => stats.Due config call.clock.now
  | .allowRequest =>
    stats.Due config call.clock.now ∨ (stats.recover config call.clock).state = .opened
  | .recordSuccess | .recordFailure | .reset => True

instance : Decidable (call.Writes config stats) := by
  unfold Writes
  cases call.op <;> infer_instance

/-- What a call that left these statistics gives. -/
def output : CircuitOutput :=
  match call.op with
  | .getState => .state stats.state
  | .getStats => .stats stats
  | .allowRequest => .allowed (stats.state ≠ .opened)
  | .recordSuccess | .recordFailure | .reset => .none

end CircuitCall

/-! ## The circuit of a tool -/

/-- What matters of a circuit: its state and what is counted in it. -/
inductive CircuitPhase
  | closed (failures : ℕ)
  | opened (since : ℚ)
  | halfOpen (successes : ℕ)

namespace CircuitPhase

def state : CircuitPhase → CircuitState
  | closed _ => .closed
  | opened _ => .opened
  | halfOpen _ => .halfOpen

/-- What a call on the tool makes of a phase. -/
def next (config : CircuitConfig) (call : CircuitCall) : CircuitPhase → CircuitPhase
  | closed failures =>
    match call.op with
    | .getState | .getStats | .allowRequest => closed failures
    | .recordFailure =>
      if config.failureThreshold ≤ failures + 1 then opened call.clock.changed
      else closed (failures + 1)
    | .recordSuccess | .reset => closed 0
  | opened since =>
    match call.op with
    | .getState | .getStats | .allowRequest =>
      if config.recoveryTimeout ≤ call.clock.now - since then halfOpen 0 else opened since
    | .recordSuccess | .recordFailure => opened since
    | .reset => closed 0
  | halfOpen successes =>
    match call.op with
    | .getState | .getStats | .allowRequest => halfOpen successes
    | .recordSuccess =>
      if config.successThreshold ≤ successes + 1 then closed 0 else halfOpen (successes + 1)
    | .recordFailure => opened call.clock.changed
    | .reset => closed 0

/-- No counter has come to its threshold. -/
def Below (config : CircuitConfig) : CircuitPhase → Prop
  | closed failures => failures < config.failureThreshold
  | opened _ => True
  | halfOpen successes => successes < config.successThreshold

theorem Below.next {config : CircuitConfig} (hf : 1 ≤ config.failureThreshold)
    (hs : 1 ≤ config.successThreshold) {phase : CircuitPhase} (h : phase.Below config)
    (call : CircuitCall) : (phase.next config call).Below config := by
  rcases phase with failures | since | successes <;> rcases hop : call.op <;>
    simp only [CircuitPhase.next, hop]
  all_goals grind [Below]

end CircuitPhase

namespace CircuitStats

def phase (stats : CircuitStats) : CircuitPhase :=
  match stats.state with
  | .closed => .closed stats.failureCount
  | .opened => .opened stats.lastStateChange
  | .halfOpen => .halfOpen stats.halfOpenSuccesses

theorem state_phase (stats : CircuitStats) : stats.phase.state = stats.state := by
  unfold phase
  cases stats.state <;> rfl

theorem phase_result (config : CircuitConfig) (call : CircuitCall) (stats : CircuitStats) :
    (call.result config stats).phase = stats.phase.next config call := by
  obtain ⟨op, tool, clock⟩ := call
  cases op with
  | getState | getStats | allowRequest =>
    cases h : stats.state <;>
      simp [CircuitCall.result, recover, Due, phase, CircuitPhase.next, h]
    split_ifs <;> simp_all [transition]
  | recordSuccess =>
    cases h : stats.state with
    | closed | opened => simp [CircuitCall.result, countSuccess, phase, CircuitPhase.next, h]
    | halfOpen =>
      simp only [CircuitCall.result, countSuccess, phase, CircuitPhase.next, h]
      split_ifs <;> simp_all [transition]
  | recordFailure =>
    cases h : stats.state with
    | opened | halfOpen =>
      simp [CircuitCall.result, countFailure, phase, CircuitPhase.next, transition, h]
    | closed =>
      simp only [CircuitCall.result, countFailure, phase, CircuitPhase.next, h]
      split_ifs <;> simp_all [transition]
  | reset =>
    cases h : stats.state <;>
      simp [CircuitCall.result, phase, CircuitPhase.next, transition, h]

end CircuitStats

namespace CircuitBreaker

variable {β : Type} [CircuitStateBackend β]

/-- What the backend has on a tool. -/
def recordOf (breaker : CircuitBreaker β) (tool : String) : Option CircuitRecord :=
  (breaker.backend.map fun backend => CircuitStateBackend.get backend tool).join

/-- What the breaker knows of a tool. -/
def view (tool : String) (breaker : CircuitBreaker β) :
    CircuitConfig × Option CircuitStats × Option (Option CircuitRecord) :=
  (breaker.config, breaker.circuits.get? tool,
    breaker.backend.map fun backend => CircuitStateBackend.get backend tool)

section Exec

variable (breaker : CircuitBreaker β) (tool : String) (stats : CircuitStats)

theorem findStats_eq (created : ℚ) : breaker.findStats tool created
    = (breaker.circuits.get? tool).getD
        (((breaker.recordOf tool).map CircuitStats.ofRecord).getD
          { lastStateChange := created }) := by
  unfold findStats recordOf
  cases breaker.circuits.get? tool with
  | some stats => rfl
  | none =>
    obtain ⟨config, backend, circuits⟩ := breaker
    cases backend with
    | none => rfl
    | some b =>
      simp only [Option.bind_some, Option.map_some, Option.join_some]
      cases CircuitStateBackend.get b tool <;> rfl

@[simp]
theorem update_config : (breaker.update tool stats).config = breaker.config := rfl

theorem view_store : view tool (breaker.store tool stats)
    = (breaker.config, some stats, (view tool breaker).2.2) := by
  simp [view, store]

theorem view_update : view tool (breaker.update tool stats)
    = (breaker.config, some stats,
        (view tool breaker).2.2.map fun _ => some (stats.toRecord tool)) := by
  obtain ⟨config, backend, circuits⟩ := breaker
  cases backend <;>
    simp [view, update, store, persist, CircuitStateBackend.get_put, CircuitStats.toRecord]

theorem update_store (stats' : CircuitStats) :
    (breaker.store tool stats).update tool stats' = breaker.update tool stats' := by
  simp [update, store, persist, Dict.set_set]

variable {tool} {tool' : String} (h : tool' ≠ tool)

include h

theorem view_store_ne : view tool (breaker.store tool' stats) = view tool breaker := by
  simp [view, store, Dict.get?_set_ne _ _ h]

theorem view_update_ne : view tool (breaker.update tool' stats) = view tool breaker := by
  obtain ⟨config, backend, circuits⟩ := breaker
  cases backend <;>
    simp [view, update, store, persist, Dict.get?_set_ne _ _ h, CircuitStateBackend.get_put,
      CircuitStats.toRecord, h]

end Exec

section Calls

variable {breaker : CircuitBreaker β} {tool : String} {clock : CircuitClock} {call : CircuitCall}
  {stats : CircuitStats}

theorem maybeTransitionToHalfOpen_store :
    (breaker.store tool stats).maybeTransitionToHalfOpen tool stats clock
      = (stats.recover breaker.config clock,
        if stats.Due breaker.config clock.now then
          breaker.update tool (stats.recover breaker.config clock)
        else breaker.store tool (stats.recover breaker.config clock)) := by
  unfold maybeTransitionToHalfOpen CircuitStats.recover
  rw [update_store]
  change (if stats.Due breaker.config clock.now then _ else _) = _
  split_ifs <;> rfl

theorem getStats_eq (h : breaker.findStats tool clock.created = stats) :
    breaker.getStats tool clock = (stats.recover breaker.config clock,
      if stats.Due breaker.config clock.now then
        breaker.update tool (stats.recover breaker.config clock)
      else breaker.store tool (stats.recover breaker.config clock)) := by
  subst h
  exact maybeTransitionToHalfOpen_store

/-- A circuit that is due opens halfway, so a request is only rejected where nothing was due. -/
theorem allowRequest_eq (h : breaker.findStats tool clock.created = stats) :
    breaker.allowRequest tool clock
      = if stats.Due breaker.config clock.now then
          (true, breaker.update tool (stats.transition .halfOpen clock.changed))
        else if stats.state = .opened then
          (false, breaker.update tool
            { stats with totalRejections := stats.totalRejections + 1 })
        else (true, breaker.store tool stats) := by
  have hloaded : (breaker.loadStats tool clock.created).1 = stats := h
  have hget := getStats_eq h
  unfold getStats at hget
  simp only [hloaded] at hget
  unfold allowRequest
  simp only [hloaded, hget]
  by_cases hdue : stats.Due breaker.config clock.now
  · simp [CircuitStats.recover, CircuitStats.transition, hdue]
  · simp only [CircuitStats.recover, hdue, if_false]
    cases hstate : stats.state with
    | closed | halfOpen => rfl
    | opened => simp [update_store]

/-- Every call but `reset` finds the statistics of its tool first. -/
theorem exec_eq (hop : call.op ≠ .reset)
    (h : breaker.findStats call.toolName call.clock.created = stats) :
    exec breaker call = (call.output (call.result breaker.config stats),
      if call.Writes breaker.config stats then
        breaker.update call.toolName (call.result breaker.config stats)
      else breaker.store call.toolName (call.result breaker.config stats)) := by
  obtain ⟨op, tool, clock⟩ := call
  cases op with
  | getState =>
    have hexec : exec breaker ⟨.getState, tool, clock⟩
        = (.state (breaker.getStats tool clock).1.state, (breaker.getStats tool clock).2) := rfl
    rw [hexec, getStats_eq h]
    rfl
  | getStats =>
    have hexec : exec breaker ⟨.getStats, tool, clock⟩
        = (.stats (breaker.getStats tool clock).1, (breaker.getStats tool clock).2) := rfl
    rw [hexec, getStats_eq h]
    rfl
  | allowRequest =>
    have hexec : exec breaker ⟨.allowRequest, tool, clock⟩
        = (.allowed (breaker.allowRequest tool clock).1, (breaker.allowRequest tool clock).2) := rfl
    rw [hexec, allowRequest_eq h]
    by_cases hdue : stats.Due breaker.config clock.now
    · simp [CircuitCall.output, CircuitCall.result, CircuitCall.Writes, CircuitStats.recover, hdue,
        CircuitStats.transition]
    · by_cases hstate : stats.state = .opened <;>
        simp [CircuitCall.output, CircuitCall.result, CircuitCall.Writes, CircuitStats.recover,
          hdue, hstate]
  | recordSuccess | recordFailure =>
    subst h
    rw [if_pos (by exact trivial)]
    exact congrArg (CircuitOutput.none, ·) (update_store ..)
  | reset => exact absurd rfl hop

theorem exec_reset_of_some (hop : call.op = .reset)
    (h : breaker.circuits.get? call.toolName = some stats) :
    exec breaker call
      = (.none, breaker.update call.toolName (call.result breaker.config stats)) := by
  obtain ⟨op, tool, clock⟩ := call
  subst hop
  simp only [exec, reset, h]
  rfl

theorem exec_reset_of_none (hop : call.op = .reset)
    (h : breaker.circuits.get? call.toolName = none) : exec breaker call = (.none, breaker) := by
  obtain ⟨op, tool, clock⟩ := call
  subst hop
  simp only [exec, reset, h]

/-- What a call leaves of its own tool. -/
theorem view_exec (hop : call.op ≠ .reset)
    (h : breaker.findStats call.toolName call.clock.created = stats) :
    view call.toolName (exec breaker call).2
      = (breaker.config, some (call.result breaker.config stats),
        if call.Writes breaker.config stats then (view call.toolName breaker).2.2.map fun _ =>
          some ((call.result breaker.config stats).toRecord call.toolName)
        else (view call.toolName breaker).2.2) := by
  rw [exec_eq hop h]
  split_ifs
  · exact view_update ..
  · exact view_store ..

theorem view_exec_ne (h : call.toolName ≠ tool) :
    view tool (exec breaker call).2 = view tool breaker := by
  by_cases hop : call.op = .reset
  · cases hget : breaker.circuits.get? call.toolName with
    | some stats =>
      rw [exec_reset_of_some hop hget]
      exact view_update_ne _ _ h
    | none => rw [exec_reset_of_none hop hget]
  · rw [exec_eq hop rfl]
    split_ifs
    · exact view_update_ne _ _ h
    · exact view_store_ne _ _ h

variable {breaker' : CircuitBreaker β}

theorem findStats_congr (h : view tool breaker = view tool breaker') (created : ℚ) :
    breaker.findStats tool created = breaker'.findStats tool created := by
  have hstats : breaker.circuits.get? tool = breaker'.circuits.get? tool :=
    congrArg (fun v => v.2.1) h
  have hrecord : breaker.recordOf tool = breaker'.recordOf tool :=
    congrArg (fun v => v.2.2.join) h
  rw [findStats_eq, findStats_eq, hstats, hrecord]

/-- What is known of the tool is all that a call on it depends on. -/
theorem exec_congr (h : view call.toolName breaker = view call.toolName breaker') :
    (exec breaker call).1 = (exec breaker' call).1
      ∧ view call.toolName (exec breaker call).2 = view call.toolName (exec breaker' call).2 := by
  have hconfig : breaker.config = breaker'.config := congrArg Prod.fst h
  by_cases hop : call.op = .reset
  · have hstats : breaker.circuits.get? call.toolName = breaker'.circuits.get? call.toolName :=
      congrArg (fun v => v.2.1) h
    cases hget : breaker'.circuits.get? call.toolName with
    | some stats =>
      rw [exec_reset_of_some hop hget, exec_reset_of_some hop (hstats.trans hget), view_update,
        view_update, h, hconfig]
      exact ⟨rfl, rfl⟩
    | none =>
      rw [exec_reset_of_none hop hget, exec_reset_of_none hop (hstats.trans hget)]
      exact ⟨rfl, h⟩
  · have hfind := findStats_congr h call.clock.created
    rw [view_exec hop hfind, view_exec hop rfl, exec_eq hop hfind, exec_eq hop rfl, h, hconfig]
    exact ⟨rfl, rfl⟩

end Calls

/-! ## Counters -/

/-- The state that a call would find a circuit in. -/
def stateOf (breaker : CircuitBreaker β) (tool : String) : CircuitState :=
  (breaker.findStats tool 0).state

/-- The phase that a call would find a circuit in. -/
def phaseOf (breaker : CircuitBreaker β) (tool : String) : CircuitPhase :=
  (breaker.findStats tool 0).phase

/-- No record of a tool that is not in memory. -/
def Known (breaker : CircuitBreaker β) (tool : String) : Prop :=
  breaker.circuits.get? tool = none → breaker.recordOf tool = none

section Phase

variable {breaker : CircuitBreaker β} {tool : String} {stats : CircuitStats}

theorem findStats_of_some (h : breaker.circuits.get? tool = some stats) (created : ℚ) :
    breaker.findStats tool created = stats := by
  rw [findStats_eq, h]
  rfl

theorem findStats_of_none (hknown : breaker.Known tool) (h : breaker.circuits.get? tool = none)
    (created : ℚ) : breaker.findStats tool created = { lastStateChange := created } := by
  rw [findStats_eq, h, hknown h]
  rfl

theorem phase_findStats (hknown : breaker.Known tool) (created : ℚ) :
    (breaker.findStats tool created).phase = breaker.phaseOf tool := by
  unfold phaseOf
  cases h : breaker.circuits.get? tool with
  | some stats => rw [findStats_of_some h, findStats_of_some h]
  | none =>
    rw [findStats_of_none hknown h, findStats_of_none hknown h]
    rfl

theorem state_phaseOf : (breaker.phaseOf tool).state = breaker.stateOf tool :=
  CircuitStats.state_phase _

variable {call : CircuitCall}

theorem get?_exec_of_ne_reset (hop : call.op ≠ .reset) :
    (exec breaker call).2.circuits.get? call.toolName = some
      (call.result breaker.config (breaker.findStats call.toolName call.clock.created)) :=
  congrArg (fun v => v.2.1) (view_exec hop rfl)

theorem get?_exec_of_some (h : breaker.circuits.get? call.toolName = some stats) :
    (exec breaker call).2.circuits.get? call.toolName
      = some (call.result breaker.config stats) := by
  by_cases hop : call.op = .reset
  · rw [exec_reset_of_some hop h]
    exact Dict.get?_set_self ..
  · rw [get?_exec_of_ne_reset hop, findStats_of_some h]

theorem known_exec (h : breaker.Known tool) : (exec breaker call).2.Known tool := by
  intro hnone
  by_cases htool : call.toolName = tool
  · subst htool
    cases hget : breaker.circuits.get? call.toolName with
    | some stats => simp [get?_exec_of_some hget] at hnone
    | none =>
      by_cases hop : call.op = .reset
      · rw [exec_reset_of_none hop hget]
        exact h hget
      · simp [get?_exec_of_ne_reset hop] at hnone
  · have hview : view tool (exec breaker call).2 = view tool breaker := view_exec_ne htool
    have hrecord : (exec breaker call).2.recordOf tool = breaker.recordOf tool :=
      congrArg (fun v => v.2.2.join) hview
    rw [hrecord]
    exact h ((congrArg (fun v => v.2.1) hview).symm.trans hnone)

theorem phaseOf_exec_ne (h : call.toolName ≠ tool) :
    (exec breaker call).2.phaseOf tool = breaker.phaseOf tool := by
  unfold phaseOf
  rw [findStats_congr (view_exec_ne h)]

/-- The breaker does to the circuit of a tool what the phases say. -/
theorem phaseOf_exec (h : breaker.Known call.toolName) :
    (exec breaker call).2.phaseOf call.toolName
      = (breaker.phaseOf call.toolName).next breaker.config call := by
  by_cases hop : call.op = .reset
  · cases hget : breaker.circuits.get? call.toolName with
    | some stats =>
      unfold phaseOf
      rw [findStats_of_some (get?_exec_of_some hget), findStats_of_some hget,
        CircuitStats.phase_result]
    | none =>
      have hphase : breaker.phaseOf call.toolName = .closed 0 := by
        unfold phaseOf
        rw [findStats_of_none h hget]
        rfl
      rw [exec_reset_of_none hop hget, hphase, CircuitPhase.next, hop]
  · unfold phaseOf
    rw [findStats_of_some (get?_exec_of_ne_reset hop), CircuitStats.phase_result,
      phase_findStats h]
    rfl

end Phase

abbrev CircuitEvent (β : Type) := Trace.Event (CircuitBreaker β) CircuitCall CircuitOutput

def recorded (op : CircuitOp) (tool : String) (e : CircuitEvent β) : Bool :=
  e.input.op = op ∧ e.input.toolName = tool

/-- The circuit comes into the state. -/
def enters (state : CircuitState) (tool : String) (e : CircuitEvent β) : Bool :=
  e.before.stateOf tool ≠ state ∧ e.after.stateOf tool = state

/-- The failures since the last success, and since the circuit was last closed or reset. -/
def failuresSince (tool : String) : List (CircuitEvent β) → ℕ :=
  countSince
    (fun e => recorded .recordSuccess tool e || recorded .reset tool e || enters .closed tool e)
    (recorded .recordFailure tool)

/-- The successes since the circuit last opened halfway. -/
def successesSince (tool : String) : List (CircuitEvent β) → ℕ :=
  countSince (enters .halfOpen tool) (recorded .recordSuccess tool)

/-- When the circuit last opened. -/
def openedAt (tool : String) (tr : List (CircuitEvent β)) : Option ℚ :=
  (lastWhere (enters .opened tool) tr).map fun e => e.input.clock.changed

/-- What the counter of a phase says of the past. -/
def Counts (tool : String) (tr : List (CircuitEvent β)) : CircuitPhase → Prop
  | .closed failures => failures = failuresSince tool tr
  | .opened since => openedAt tool tr = some since
  | .halfOpen successes => successes = successesSince tool tr

/-- What the phase of a tool says of its past. -/
def Counted (config : CircuitConfig) (tool : String) (tr : List (CircuitEvent β)) :
    CircuitPhase → Prop
  | .closed failures => failures = failuresSince tool tr ∧ failures < config.failureThreshold
  | .opened since => openedAt tool tr = some since
  | .halfOpen successes => successes = successesSince tool tr ∧ successes < config.successThreshold

section Counted

variable {config : CircuitConfig} {tool : String} {tr : List (CircuitEvent β)}
  {phase : CircuitPhase} {e : CircuitEvent β}

theorem failuresSince_concat : failuresSince tool (tr ++ [e])
    = if recorded .recordSuccess tool e || recorded .reset tool e || enters .closed tool e then 0
      else failuresSince tool tr + if recorded .recordFailure tool e then 1 else 0 :=
  countSince_concat ..

theorem successesSince_concat : successesSince tool (tr ++ [e])
    = if enters .halfOpen tool e then 0
      else successesSince tool tr + if recorded .recordSuccess tool e then 1 else 0 :=
  countSince_concat ..

theorem openedAt_concat : openedAt tool (tr ++ [e])
    = if enters .opened tool e then some e.input.clock.changed else openedAt tool tr := by
  unfold openedAt
  rw [lastWhere_concat]
  split_ifs <;> rfl

theorem counted_iff :
    Counted config tool tr phase ↔ Counts tool tr phase ∧ phase.Below config := by
  rcases phase with failures | since | successes
  · rfl
  · exact (and_iff_left trivial).symm
  · rfl

theorem enters_eq {phase' : CircuitPhase} (hbefore : e.before.phaseOf tool = phase)
    (hafter : e.after.phaseOf tool = phase') (state : CircuitState) :
    enters state tool e = decide (phase.state ≠ state ∧ phase'.state = state) := by
  rw [enters, ← state_phaseOf, ← state_phaseOf, hbefore, hafter]

/-- A call on another tool counts for nothing. -/
theorem counts_concat_ne (hphase : e.after.phaseOf tool = e.before.phaseOf tool)
    (htool : e.input.toolName ≠ tool) (h : Counts tool tr phase) :
    Counts tool (tr ++ [e]) phase := by
  have henters (state) : enters state tool e = false := by
    rw [enters_eq rfl hphase]
    simp
  have hrecorded (op) : recorded op tool e = false := by simp [recorded, htool]
  have hfailures : failuresSince tool (tr ++ [e]) = failuresSince tool tr := by
    simp [failuresSince_concat, henters, hrecorded]
  have hsuccesses : successesSince tool (tr ++ [e]) = successesSince tool tr := by
    simp [successesSince_concat, henters, hrecorded]
  have hopened : openedAt tool (tr ++ [e]) = openedAt tool tr := by
    simp [openedAt_concat, henters]
  rcases phase with failures | since | successes
  · rwa [Counts, hfailures]
  · rwa [Counts, hopened]
  · rwa [Counts, hsuccesses]

/-- Each phase has its own counter, and the others do not matter until it comes in. -/
theorem counts_concat (hbefore : e.before.phaseOf tool = phase)
    (hafter : e.after.phaseOf tool = phase.next config e.input)
    (htool : e.input.toolName = tool) (h : Counts tool tr phase) :
    Counts tool (tr ++ [e]) (phase.next config e.input) := by
  have henters := enters_eq hbefore hafter
  have hrecorded (op) : recorded op tool e = decide (e.input.op = op) := by simp [recorded, htool]
  cases phase with
  | closed failures =>
    have hcount : failures = failuresSince tool tr := h
    cases hop : e.input.op with
    | getState | getStats | allowRequest =>
      simp only [CircuitPhase.next, hop] at henters ⊢
      simpa [Counts, failuresSince_concat, hrecorded, henters, hop] using hcount
    | recordSuccess | reset =>
      simp [Counts, CircuitPhase.next, failuresSince_concat, hrecorded, hop]
    | recordFailure =>
      simp only [CircuitPhase.next, hop] at henters ⊢
      split_ifs at henters ⊢ with hthreshold
      · simp [Counts, openedAt_concat, henters, CircuitPhase.state]
      · simp [Counts, failuresSince_concat, hrecorded, henters, hop, hcount, CircuitPhase.state]
  | opened since =>
    cases hop : e.input.op with
    | getState | getStats | allowRequest =>
      simp only [CircuitPhase.next, hop] at henters ⊢
      split_ifs at henters ⊢ with hdue
      · simp [Counts, successesSince_concat, henters, CircuitPhase.state]
      · simpa [Counts, openedAt_concat, henters] using h
    | recordSuccess | recordFailure =>
      simp only [CircuitPhase.next, hop] at henters ⊢
      simpa [Counts, openedAt_concat, henters] using h
    | reset => simp [Counts, CircuitPhase.next, failuresSince_concat, hrecorded, hop]
  | halfOpen successes =>
    have hcount : successes = successesSince tool tr := h
    cases hop : e.input.op with
    | getState | getStats | allowRequest =>
      simp only [CircuitPhase.next, hop] at henters ⊢
      simpa [Counts, successesSince_concat, hrecorded, henters, hop] using hcount
    | recordSuccess =>
      simp only [CircuitPhase.next, hop] at henters ⊢
      split_ifs at henters ⊢ with hthreshold
      · simp [Counts, failuresSince_concat, hrecorded, hop]
      · simp [Counts, successesSince_concat, hrecorded, henters, hop, hcount, CircuitPhase.state]
    | recordFailure =>
      simp only [CircuitPhase.next, hop] at henters ⊢
      simp [Counts, openedAt_concat, henters, CircuitPhase.state]
    | reset => simp [Counts, CircuitPhase.next, failuresSince_concat, hrecorded, hop]

end Counted

/-! ## Runs -/

section Run

variable (config : CircuitConfig) (backend : Option β)

/-- A breaker as it is made. -/
abbrev fresh : CircuitBreaker β := { config, backend }

variable {config} {backend} {tool : String}

theorem config_exec (breaker : CircuitBreaker β) (call : CircuitCall) :
    (exec breaker call).2.config = breaker.config := by
  by_cases hop : call.op = .reset
  · cases hget : breaker.circuits.get? call.toolName with
    | some stats => rw [exec_reset_of_some hop hget, update_config]
    | none => rw [exec_reset_of_none hop hget]
  · have hview := view_exec hop (rfl : breaker.findStats call.toolName call.clock.created = _)
    exact congrArg (fun v => v.1) hview

variable (config) in
/-- Nothing of the tool is known before the first call. -/
theorem phaseOf_fresh (h : ∀ b ∈ backend, CircuitStateBackend.get b tool = none) :
    (fresh config backend).Known tool ∧ (fresh config backend).phaseOf tool = .closed 0 := by
  have hknown : (fresh config backend).Known tool := by
    intro _
    cases backend with
    | none => rfl
    | some b => exact h b rfl
  refine ⟨hknown, ?_⟩
  unfold phaseOf
  rw [findStats_of_none hknown rfl]
  rfl

theorem counts_final (config : CircuitConfig)
    (h : ∀ b ∈ backend, CircuitStateBackend.get b tool = none)
    (calls : List CircuitCall) :
    let breaker := final exec (fresh config backend) calls
    breaker.config = config ∧ breaker.Known tool
      ∧ Counts tool (events exec (fresh config backend) calls) (breaker.phaseOf tool) := by
  obtain ⟨hknown, hphase⟩ := phaseOf_fresh config h
  refine history_induct (R := fun tr (breaker : CircuitBreaker β) => breaker.config = config
    ∧ breaker.Known tool ∧ Counts tool tr (breaker.phaseOf tool)) ?_
    fun tr breaker call _ hrun => ?_
  · rw [hphase]
    exact ⟨rfl, hknown, rfl⟩
  · obtain ⟨hconfig, hknown, hcounts⟩ := hrun
    refine ⟨(config_exec breaker call).trans hconfig, known_exec hknown, ?_⟩
    by_cases htool : call.toolName = tool
    · subst htool
      have hnext := phaseOf_exec hknown
      rw [hnext]
      exact counts_concat (e := event exec breaker call) rfl hnext rfl hcounts
    · rw [phaseOf_exec_ne htool]
      exact counts_concat_ne (e := event exec breaker call) (phaseOf_exec_ne htool) htool hcounts

theorem below_final (hf : 1 ≤ config.failureThreshold) (hs : 1 ≤ config.successThreshold)
    (h : ∀ b ∈ backend, CircuitStateBackend.get b tool = none) (calls : List CircuitCall) :
    ((final exec (fresh config backend) calls).phaseOf tool).Below config := by
  obtain ⟨hknown, hphase⟩ := phaseOf_fresh config h
  refine (final_induct (P := fun breaker : CircuitBreaker β => breaker.config = config
    ∧ breaker.Known tool ∧ (breaker.phaseOf tool).Below config) ?_
      fun breaker call _ hrun => ?_).2.2
  · rw [hphase]
    exact ⟨rfl, hknown, hf⟩
  · obtain ⟨hconfig, hknown, hbelow⟩ := hrun
    refine ⟨(config_exec breaker call).trans hconfig, known_exec hknown, ?_⟩
    by_cases htool : call.toolName = tool
    · subst htool
      rw [phaseOf_exec hknown, hconfig]
      exact hbelow.next hf hs call
    · rwa [phaseOf_exec_ne htool]

theorem counted_final (hf : 1 ≤ config.failureThreshold) (hs : 1 ≤ config.successThreshold)
    (h : ∀ b ∈ backend, CircuitStateBackend.get b tool = none) (calls : List CircuitCall) :
    let breaker := final exec (fresh config backend) calls
    breaker.config = config ∧ breaker.Known tool
      ∧ Counted config tool (events exec (fresh config backend) calls)
          (breaker.phaseOf tool) := by
  obtain ⟨hconfig, hknown, hcounts⟩ := counts_final config h calls
  exact ⟨hconfig, hknown, counted_iff.mpr ⟨hcounts, below_final hf hs h calls⟩⟩

theorem allowRequest_rejects {breaker : CircuitBreaker β} (hknown : breaker.Known tool)
    (clock : CircuitClock) : (exec breaker ⟨.allowRequest, tool, clock⟩).1 = .allowed false
      ↔ ((breaker.phaseOf tool).next breaker.config ⟨.allowRequest, tool, clock⟩).state
        = .opened := by
  rw [exec_eq (by simp) rfl, ← phase_findStats hknown clock.created, ← CircuitStats.phase_result,
    CircuitStats.state_phase]
  simp [CircuitCall.output]

theorem stateOf_exec {breaker : CircuitBreaker β} (hknown : breaker.Known tool)
    (call : CircuitCall) : (exec breaker call).2.stateOf tool
      = if call.toolName = tool then ((breaker.phaseOf tool).next breaker.config call).state
        else breaker.stateOf tool := by
  rw [← state_phaseOf, ← state_phaseOf]
  split_ifs with htool
  · subst htool
    rw [phaseOf_exec hknown]
  · rw [phaseOf_exec_ne htool]

/-- The counters that are kept are those of the phase. -/
theorem counted_stats {breaker : CircuitBreaker β} {tr : List (CircuitEvent β)}
    {stats : CircuitStats} (hget : breaker.circuits.get? tool = some stats)
    (h : Counted config tool tr (breaker.phaseOf tool)) :
    (stats.state = .closed → stats.failureCount = failuresSince tool tr)
      ∧ (stats.state = .halfOpen → stats.halfOpenSuccesses = successesSince tool tr) := by
  have hphase : breaker.phaseOf tool = stats.phase := by
    unfold phaseOf
    rw [findStats_of_some hget]
  rw [hphase, CircuitStats.phase] at h
  refine ⟨fun hstate => ?_, fun hstate => ?_⟩ <;>
  · rw [hstate] at h
    exact h.1

/-- The failure that reaches the threshold opens a closed circuit, and nothing else does. -/
theorem stateOf_exec_of_closed {breaker : CircuitBreaker β} {tr : List (CircuitEvent β)}
    (hconfig : breaker.config = config) (hknown : breaker.Known tool)
    (h : Counted config tool tr (breaker.phaseOf tool)) (hstate : breaker.stateOf tool = .closed) :
    failuresSince tool tr < config.failureThreshold
      ∧ ∀ call, (exec breaker call).2.stateOf tool
        = if call.op = .recordFailure ∧ call.toolName = tool
            ∧ failuresSince tool tr + 1 = config.failureThreshold then .opened else .closed := by
  rw [← state_phaseOf] at hstate
  rcases hphase : breaker.phaseOf tool with failures | since | successes
  · rw [hphase] at h
    obtain ⟨hcount, hlt⟩ := h
    rw [← hcount]
    refine ⟨hlt, fun call => ?_⟩
    have hthreshold : config.failureThreshold ≤ failures + 1
        ↔ (failures : ℤ) + 1 = config.failureThreshold := by omega
    rw [stateOf_exec hknown, hconfig, ← state_phaseOf, hphase]
    by_cases htool : call.toolName = tool
    · cases hop : call.op with
      | recordFailure =>
        simp only [htool, CircuitPhase.next, hop, hthreshold, if_true, true_and]
        split_ifs <;> rfl
      | getState | getStats | allowRequest | recordSuccess | reset =>
        simp [htool, CircuitPhase.next, CircuitPhase.state, hop]
    · simp [htool, CircuitPhase.state]
  · simp [hphase, CircuitPhase.state] at hstate
  · simp [hphase, CircuitPhase.state] at hstate

/-- A rejected request comes within the recovery timeout of an open circuit. -/
theorem allowRequest_rejects_iff {breaker : CircuitBreaker β} {tr : List (CircuitEvent β)}
    (hconfig : breaker.config = config) (hknown : breaker.Known tool)
    (h : Counted config tool tr (breaker.phaseOf tool)) (clock : CircuitClock) :
    (exec breaker ⟨.allowRequest, tool, clock⟩).1 = .allowed false ↔
      breaker.stateOf tool = .opened
      ∧ ∃ since ∈ openedAt tool tr, clock.now - since < config.recoveryTimeout := by
  rw [allowRequest_rejects hknown, hconfig, ← state_phaseOf]
  rcases hphase : breaker.phaseOf tool with failures | since | successes
  · simp [CircuitPhase.next, CircuitPhase.state]
  · rw [hphase] at h
    have hsince : openedAt tool tr = some since := h
    simp only [CircuitPhase.next, hsince, Option.mem_def, Option.some.injEq, exists_eq_left',
      ← Rat.not_le]
    by_cases hdue : config.recoveryTimeout ≤ clock.now - since <;>
      simp [hdue, CircuitPhase.state]
  · simp [CircuitPhase.next, CircuitPhase.state]

/-- Failures open a closed circuit and successes close one that is half open, as many in a row as
the configuration says; a circuit that is open rejects requests until the recovery timeout has
passed; and other tools have nothing to do with it. -/
theorem circuit_law (config : CircuitConfig) (hf : 1 ≤ config.failureThreshold)
    (hs : 1 ≤ config.successThreshold) (backend : Option β) (tool : String)
    (hfresh : ∀ b ∈ backend, CircuitStateBackend.get b tool = none) (calls : List CircuitCall) :
    let tr := events exec (fresh config backend) calls
    let breaker := final exec (fresh config backend) calls
    (∀ stats, breaker.circuits.get? tool = some stats →
        (stats.state = .closed → stats.failureCount = failuresSince tool tr)
        ∧ (stats.state = .halfOpen → stats.halfOpenSuccesses = successesSince tool tr))
      ∧ (breaker.stateOf tool = .closed →
        failuresSince tool tr < config.failureThreshold
        ∧ ∀ call, (exec breaker call).2.stateOf tool
          = if call.op = .recordFailure ∧ call.toolName = tool
              ∧ failuresSince tool tr + 1 = config.failureThreshold then .opened else .closed)
      ∧ (breaker.stateOf tool = .halfOpen →
        successesSince tool tr < config.successThreshold
        ∧ ∀ call, (exec breaker call).2.stateOf tool
          = if call.toolName ≠ tool then .halfOpen
            else match call.op with
              | .getState | .getStats | .allowRequest => .halfOpen
              | .recordFailure => .opened
              | .recordSuccess =>
                if successesSince tool tr + 1 = config.successThreshold then .closed else .halfOpen
              | .reset => .closed)
      ∧ (∀ clock, (exec breaker ⟨.allowRequest, tool, clock⟩).1 = .allowed false ↔
        breaker.stateOf tool = .opened
        ∧ ∃ since ∈ openedAt tool tr, clock.now - since < config.recoveryTimeout)
      ∧ (tr.filter fun e => e.input.toolName = tool).map Trace.Event.output
          = (events exec (fresh config backend)
              (calls.filter fun call => call.toolName = tool)).map Trace.Event.output := by
  intro tr breaker
  obtain ⟨hconfig, hknown, hcounted⟩ := counted_final hf hs hfresh calls
  refine ⟨fun stats hget => counted_stats hget hcounted,
    stateOf_exec_of_closed hconfig hknown hcounted, fun hstate => ?_,
    allowRequest_rejects_iff hconfig hknown hcounted, ?_⟩
  · rw [← state_phaseOf] at hstate
    rcases hphase : breaker.phaseOf tool with failures | since | successes
    · simp [hphase, CircuitPhase.state] at hstate
    · simp [hphase, CircuitPhase.state] at hstate
    · rw [hphase] at hcounted
      obtain ⟨hcount, hlt⟩ := hcounted
      rw [← hcount]
      refine ⟨hlt, fun call => ?_⟩
      have hthreshold : config.successThreshold ≤ successes + 1
          ↔ (successes : ℤ) + 1 = config.successThreshold := by omega
      rw [stateOf_exec hknown, hconfig, ← state_phaseOf, hphase]
      by_cases htool : call.toolName = tool
      · cases hop : call.op with
        | recordSuccess =>
          simp only [htool, CircuitPhase.next, hop, hthreshold, if_true, ne_eq, not_true, if_false]
          split_ifs <;> rfl
        | getState | getStats | allowRequest | recordFailure | reset =>
          simp [htool, CircuitPhase.next, CircuitPhase.state, hop]
      · simp [htool, CircuitPhase.state]
  · refine (isolated_run (view tool) ?_ ?_ calls rfl).1
    · exact fun breaker call htool => view_exec_ne htool
    · rintro breaker breaker' call rfl hview
      exact exec_congr hview

end Run

/-- The second failure in a row opens the circuit. -/
theorem circuit_law_second_failure :
    let config : CircuitConfig := { failureThreshold := 2 }
    let breaker := final exec (fresh config (some ({} : InMemoryCircuitStateBackend)))
      [⟨.recordFailure, "search", ⟨0, 0, 0⟩⟩, ⟨.recordSuccess, "fetch", ⟨1, 1, 1⟩⟩]
    (exec breaker ⟨.recordFailure, "search", ⟨2, 2, 2⟩⟩).2.stateOf "search" = .opened := by
  intro config breaker
  have hlaw := circuit_law config (by decide) (by decide)
    (some ({} : InMemoryCircuitStateBackend)) "search"
    (by simp [CircuitStateBackend.get, InMemoryCircuitStateBackend.get])
    [⟨.recordFailure, "search", ⟨0, 0, 0⟩⟩, ⟨.recordSuccess, "fetch", ⟨1, 1, 1⟩⟩]
  have hclosed : breaker.stateOf "search" = .closed := by decide +kernel
  rw [(hlaw.2.1 hclosed).2]
  decide +kernel

end CircuitBreaker

end AgentLearning.Gateway
