import AgentLearning.Proofs.CircuitCounts

/-!
# Restarting the circuit breaker

A new breaker over the same backend finds the statistics of a tool there as soon as it looks for
them, and every operation looks for them but `reset`, which knows only of what is in memory. So the
only calls that tell an old breaker from a new one are resets that come first.
-/

namespace AgentLearning.Gateway

open Trace

/-- Closing the circuit at this time changes nothing. -/
structure CircuitStats.Settled (stats : CircuitStats) (time : ℚ) : Prop where
  closed : stats.state = .closed
  failures : stats.failureCount = 0
  successes : stats.halfOpenSuccesses = 0
  change : stats.lastStateChange = time

theorem CircuitStats.settled_iff {stats : CircuitStats} {time : ℚ} :
    stats.Settled time ↔ stats.transition .closed time = stats := by
  obtain ⟨state, failures, successes, halfOpenSuccesses⟩ := stats
  constructor
  · rintro ⟨rfl, rfl, rfl, rfl⟩
    rfl
  · intro h
    simp only [transition, CircuitStats.mk.injEq] at h
    exact ⟨h.1.symm, h.2.1.symm, h.2.2.2.1.symm, h.2.2.2.2.2.1.symm⟩

/-- What a call does not persist is what it found. -/
theorem CircuitCall.result_of_not_writes {call : CircuitCall} {config : CircuitConfig}
    {stats : CircuitStats} (h : ¬ call.Writes config stats) : call.result config stats = stats := by
  obtain ⟨op, tool, clock⟩ := call
  cases op with
  | getState | getStats => exact if_neg h
  | allowRequest =>
    obtain ⟨hdue, hopened⟩ := not_or.mp h
    exact (if_neg hopened).trans (if_neg hdue)
  | recordSuccess | recordFailure | reset => exact absurd trivial h

namespace CircuitBreaker

variable {β : Type} [CircuitStateBackend β]

/-- A new breaker with the same configuration and backend. -/
def restart (breaker : CircuitBreaker β) : CircuitBreaker β :=
  fresh breaker.config breaker.backend

/-- Along these calls, no call on the tool could tell one breaker from the other. -/
def Same (tool : String) (old new : CircuitBreaker β) (later : List CircuitCall) : Prop :=
  ∀ p, p <+: later → ∀ call : CircuitCall, call.toolName = tool →
    (exec (final exec old p) call).1 = (exec (final exec new p) call).1

section Same

variable {tool : String} {old new : CircuitBreaker β} {stats : CircuitStats}

theorem same_nil : Same tool old new [] ↔
    ∀ call : CircuitCall, call.toolName = tool → (exec old call).1 = (exec new call).1 := by
  simp [Same]

theorem same_cons {c : CircuitCall} {later : List CircuitCall} :
    Same tool old new (c :: later) ↔ Same tool old new []
      ∧ Same tool (exec old c).2 (exec new c).2 later := by
  rw [same_nil]
  constructor
  · exact fun h => ⟨h [] (List.nil_prefix), fun p hp =>
      h (c :: p) (List.cons_prefix_cons.mpr ⟨rfl, hp⟩)⟩
  · rintro ⟨hfirst, hrest⟩ p hp
    cases p with
    | nil => exact hfirst
    | cons c' p =>
      obtain ⟨rfl, htail⟩ := List.cons_prefix_cons.mp hp
      exact hrest p htail

/-- Two breakers that know the same of a tool go on to do so. -/
theorem same_of_view (later : List CircuitCall) (h : view tool old = view tool new) :
    Same tool old new later := by
  induction later generalizing old new with
  | nil =>
    rw [same_nil]
    rintro call rfl
    exact (exec_congr h).1
  | cons c later ih =>
    refine same_cons.mpr ⟨?_, ih ?_⟩
    · rw [same_nil]
      rintro call rfl
      exact (exec_congr h).1
    · by_cases hc : c.toolName = tool
      · subst hc
        exact (exec_congr h).2
      · rw [view_exec_ne hc, view_exec_ne hc, h]

/-- The old breaker has the statistics in memory, and the new one has only their record. -/
structure Lagging (tool : String) (stats : CircuitStats) (old new : CircuitBreaker β) : Prop where
  config_eq : old.config = new.config
  loaded : old.circuits.get? tool = some stats
  absent : new.circuits.get? tool = none
  old_record : (view tool old).2.2 = some (some (stats.toRecord tool))
  new_record : (view tool new).2.2 = some (some (stats.toRecord tool))

namespace Lagging

variable {call : CircuitCall}

theorem of_view {old' new' : CircuitBreaker β} (h : Lagging tool stats old new)
    (hold : view tool old' = view tool old) (hnew : view tool new' = view tool new) :
    Lagging tool stats old' new' where
  config_eq := by
    rw [show old'.config = old.config from congrArg (fun v => v.1) hold, h.config_eq]
    exact (congrArg (fun v => v.1) hnew).symm
  loaded := (congrArg (fun v => v.2.1) hold).trans h.loaded
  absent := (congrArg (fun v => v.2.1) hnew).trans h.absent
  old_record := (congrArg (fun v => v.2.2) hold).trans h.old_record
  new_record := (congrArg (fun v => v.2.2) hnew).trans h.new_record

theorem view_old (h : Lagging tool stats old new) :
    view tool old = (old.config, some stats, some (some (stats.toRecord tool))) :=
  Prod.ext rfl (Prod.ext h.loaded h.old_record)

theorem findStats_old (h : Lagging tool stats old new) (created : ℚ) :
    old.findStats tool created = stats := findStats_of_some h.loaded created

theorem findStats_new (h : Lagging tool stats old new) (created : ℚ) :
    new.findStats tool created = stats := by
  have hrecord : new.recordOf tool = some (stats.toRecord tool) :=
    congrArg Option.join h.new_record
  rw [findStats_eq, h.absent, hrecord]
  rfl

/-- A call that looks for the statistics finds the same ones, and then nothing is left to tell. -/
theorem exec_of_ne_reset (h : Lagging call.toolName stats old new) (hop : call.op ≠ .reset) :
    (exec old call).1 = (exec new call).1
      ∧ view call.toolName (exec old call).2 = view call.toolName (exec new call).2 := by
  have hold := h.findStats_old call.clock.created
  have hnew := h.findStats_new call.clock.created
  rw [view_exec hop hold, view_exec hop hnew, exec_eq hop hold, exec_eq hop hnew, h.config_eq,
    h.old_record, h.new_record]
  exact ⟨rfl, rfl⟩

theorem same_nil (h : Lagging tool stats old new) : Same tool old new [] := by
  rw [CircuitBreaker.same_nil]
  rintro call rfl
  by_cases hop : call.op = .reset
  · rw [exec_reset_of_some hop h.loaded, exec_reset_of_none hop h.absent]
  · exact (h.exec_of_ne_reset hop).1

/-- A reset that changes nothing leaves the old breaker ahead as it was. -/
theorem exec_reset_settled (h : Lagging call.toolName stats old new) (hop : call.op = .reset)
    (hsettled : stats.Settled call.clock.changed) :
    Lagging call.toolName stats (exec old call).2 (exec new call).2 := by
  have hresult : call.result old.config stats = stats := by
    rw [CircuitCall.result, hop]
    exact CircuitStats.settled_iff.mp hsettled
  refine h.of_view ?_ (by rw [exec_reset_of_none hop h.absent])
  rw [exec_reset_of_some hop h.loaded, hresult, view_update, h.old_record, h.view_old]
  rfl

/-- A reset that changes something shows in the statistics. -/
theorem not_same_of_reset (h : Lagging call.toolName stats old new) (hop : call.op = .reset)
    (hsettled : ¬ stats.Settled call.clock.changed) (later : List CircuitCall) :
    ¬ Same call.toolName (exec old call).2 (exec new call).2 later := by
  intro hsame
  have hprobe := hsame [] List.nil_prefix ⟨.getStats, call.toolName, call.clock⟩ rfl
  have hget : (exec old call).2.circuits.get? call.toolName
      = some (stats.transition .closed call.clock.changed) := by
    rw [get?_exec_of_some h.loaded, CircuitCall.result, hop]
  have hold : ((exec old call).2.getStats call.toolName call.clock).1
      = stats.transition .closed call.clock.changed := by
    have hdue : ¬ (stats.transition .closed call.clock.changed).Due (exec old call).2.config
        call.clock.now := by simp [CircuitStats.Due, CircuitStats.transition]
    rw [getStats_eq (findStats_of_some hget call.clock.created), CircuitStats.recover, if_neg hdue]
  have hnew : (new.getStats call.toolName call.clock).1
      = stats.recover new.config call.clock := by
    rw [getStats_eq (h.findStats_new call.clock.created)]
  rw [exec_reset_of_none hop h.absent] at hprobe
  replace hprobe := (hold.symm.trans (CircuitOutput.stats.inj hprobe)).trans hnew
  rw [CircuitStats.recover] at hprobe
  split_ifs at hprobe
  · exact CircuitState.noConfusion (congrArg CircuitStats.state hprobe)
  · exact hsettled (CircuitStats.settled_iff.mpr hprobe)

/-- The resets that come before any other call are all that matters. -/
theorem same_iff (h : Lagging tool stats old new) (later : List CircuitCall) :
    Same tool old new later ↔
      ∀ call ∈ (later.filter fun call => call.toolName = tool).takeWhile fun call =>
        call.op = .reset, stats.Settled call.clock.changed := by
  induction later generalizing old new with
  | nil => simpa using h.same_nil
  | cons c later ih =>
    rw [same_cons, and_iff_right h.same_nil]
    by_cases hc : c.toolName = tool
    · subst hc
      by_cases hop : c.op = .reset
      · simp only [List.filter_cons, decide_true, if_true, List.takeWhile_cons, hop,
          List.forall_mem_cons]
        by_cases hsettled : stats.Settled c.clock.changed
        · rw [and_iff_right hsettled]
          exact ih (h.exec_reset_settled hop hsettled)
        · simp [hsettled, h.not_same_of_reset hop hsettled later]
      · simp only [List.filter_cons, decide_true, if_true, List.takeWhile_cons, hop]
        simpa using same_of_view later (h.exec_of_ne_reset hop).2
    · simp only [List.filter_cons, hc, decide_false, Bool.false_eq_true, if_false]
      exact ih (h.of_view (view_exec_ne hc) (view_exec_ne hc))

end Lagging

end Same

/-! ## Where a restart comes -/

section Restart

variable {breaker : CircuitBreaker β} {tool : String} {call : CircuitCall}

/-- What is in memory of a tool with a record is what the record says. -/
def Mirrored (tool : String) (breaker : CircuitBreaker β) : Prop :=
  ∀ stats, breaker.circuits.get? tool = some stats → ∀ record ∈ breaker.recordOf tool,
    record = stats.toRecord tool

theorem mirrored_findStats (h : breaker.Mirrored tool) (created : ℚ) :
    ∀ record ∈ breaker.recordOf tool, record = (breaker.findStats tool created).toRecord tool := by
  intro record hrecord
  rw [findStats_eq]
  cases hget : breaker.circuits.get? tool with
  | some stats => exact h stats hget record hrecord
  | none =>
    obtain ⟨b, -, hb⟩ := Option.map_eq_some_iff.mp (Option.join_eq_some_iff.mp hrecord)
    rw [Option.mem_def.mp hrecord, ← CircuitStateBackend.toolName_of_get hb]
    rfl

theorem mirrored_update (stats : CircuitStats) : (breaker.update tool stats).Mirrored tool := by
  have hview := view_update breaker tool stats
  intro stats' hget record hrecord
  obtain rfl : stats = stats' :=
    Option.some.inj ((congrArg (fun v => v.2.1) hview).symm.trans hget)
  have hjoin : (breaker.update tool stats).recordOf tool = _ :=
    congrArg (fun v => v.2.2.join) hview
  rw [hjoin] at hrecord
  cases hbackend : (view tool breaker).2.2 with
  | none => simp [hbackend] at hrecord
  | some r => simpa [hbackend] using hrecord.symm

theorem mirrored_of_view {breaker' : CircuitBreaker β} (h : breaker.Mirrored tool)
    (hview : view tool breaker' = view tool breaker) : breaker'.Mirrored tool := by
  intro stats hget record hrecord
  refine h stats ((congrArg (fun v => v.2.1) hview).symm.trans hget) record ?_
  exact (congrArg (fun v => v.2.2.join) hview).symm.trans hrecord

theorem mirrored_exec (h : breaker.Mirrored tool) : (exec breaker call).2.Mirrored tool := by
  by_cases htool : call.toolName = tool
  · subst htool
    by_cases hop : call.op = .reset
    · cases hget : breaker.circuits.get? call.toolName with
      | some stats =>
        rw [exec_reset_of_some hop hget]
        exact mirrored_update _
      | none => rwa [exec_reset_of_none hop hget]
    · rw [exec_eq hop rfl]
      split_ifs with hwrites
      · exact mirrored_update _
      · rw [CircuitCall.result_of_not_writes hwrites]
        have hview := view_store breaker call.toolName
          (breaker.findStats call.toolName call.clock.created)
        intro stats hget record hrecord
        obtain rfl := Option.some.inj ((congrArg (fun v => v.2.1) hview).symm.trans hget)
        refine mirrored_findStats h _ record ?_
        exact (congrArg (fun v => v.2.2.join) hview).symm.trans hrecord
  · exact mirrored_of_view h (view_exec_ne htool)

/-- A restart cannot be told from no restart, for the tools with a record, exactly if the resets
that come first of all later calls on a tool change nothing. -/
theorem restart_transparent_iff (config : CircuitConfig) (backend : β)
    (before later : List CircuitCall) :
    let old := final exec (fresh config (some backend)) before
    (∀ tool, (old.recordOf tool).isSome → Same tool old old.restart later) ↔
      ∀ tool, (old.recordOf tool).isSome → ∀ stats, old.circuits.get? tool = some stats →
        ∀ call ∈ (later.filter fun call => call.toolName = tool).takeWhile fun call =>
          call.op = .reset, stats.Settled call.clock.changed := by
  intro old
  have hmirrored (tool) : old.Mirrored tool :=
    final_induct (fun stats hget => by simp at hget) fun breaker call _ h => mirrored_exec h
  refine forall_congr' fun tool => imp_congr_right fun hrecord => ?_
  cases hget : old.circuits.get? tool with
  | none =>
    have hview : view tool old = view tool old.restart :=
      Prod.ext rfl (Prod.ext hget rfl)
    simp [same_of_view later hview]
  | some stats =>
    simp only [Option.some.injEq, forall_eq']
    obtain ⟨record, hrecord⟩ := Option.isSome_iff_exists.mp hrecord
    obtain rfl := hmirrored tool stats hget record hrecord
    have hview : (view tool old).2.2 = some (some (stats.toRecord tool)) :=
      Option.join_eq_some_iff.mp hrecord
    have hlagging : Lagging tool stats old old.restart := ⟨rfl, hget, rfl, hview, hview⟩
    exact hlagging.same_iff later

end Restart

/-- A circuit that opened, and that is reset after a restart. -/
theorem restart_before_reset :
    let config : CircuitConfig := { failureThreshold := 1 }
    let old := final exec (fresh config (some ({} : InMemoryCircuitStateBackend)))
      [⟨.recordFailure, "search", ⟨0, 0, 0⟩⟩]
    let later : List CircuitCall :=
      [⟨.reset, "search", ⟨1, 1, 1⟩⟩, ⟨.getState, "search", ⟨2, 2, 2⟩⟩]
    (old.recordOf "search").isSome
      ∧ (events exec old later).map Trace.Event.output = [.none, .state .closed]
      ∧ (events exec old.restart later).map Trace.Event.output = [.none, .state .opened] := by
  decide +kernel

end CircuitBreaker

end AgentLearning.Gateway
