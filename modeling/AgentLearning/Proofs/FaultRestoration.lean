import AgentLearning.Chaos

/-!
# Restoring the active scenarios

What a function under a fault returns does not depend on the injector, so the executions that are
nested in it are those of the function itself. After an execution the active scenarios are those
before without the ones that were run, and the results have grown by those of the nested executions
and its own. So nothing but a scenario that is active already, the same object, gets lost.
-/

namespace AgentLearning

open InMemoryChaosInjector

variable {Ref β : Type} [DecidableEq Ref] (deref : Ref → ChaosScenario)

/-! ## What a function runs -/

/-- What comes of the function under the fault, which may not call it. -/
def underFault (scenario : ChaosScenario) (draw : ℚ) (outcome : Except PyError β) :
    Except PyError β :=
  match applyFault scenario draw with
  | .ok () => outcome
  | .error exc => .error exc

namespace ChaosFunction

/-- The value that the function returns, or the exception that it raises. -/
def outcome : ChaosFunction Ref β → Except PyError β
  | .returns value => .ok value
  | .raises exc => .error exc
  | .wrapExecution scenario readings fn next =>
    (next (chaosResult (deref scenario) readings
      (underFault (deref scenario) readings.draw fn.outcome))).outcome

/-- The result of the function under a fault. -/
def resultUnder (scenario : Ref) (readings : ChaosReadings) (fn : ChaosFunction Ref β) :
    ChaosResult β :=
  chaosResult (deref scenario) readings
    (underFault (deref scenario) readings.draw (fn.outcome deref))

/-- The executions that the function makes, in the order in which they end, with their results. -/
def nested : ChaosFunction Ref β → List (Ref × ChaosResult β)
  | .returns _ => []
  | .raises _ => []
  | .wrapExecution scenario readings fn next =>
    let inner := match applyFault (deref scenario) readings.draw with
      | .ok () => fn.nested
      | .error _ => []
    let result := fn.resultUnder deref scenario readings
    inner ++ (scenario, result) :: (next result).nested

/-- Those that it makes under a fault. -/
def nestedUnder (scenario : Ref) (readings : ChaosReadings) (fn : ChaosFunction Ref β) :
    List (Ref × ChaosResult β) :=
  match applyFault (deref scenario) readings.draw with
  | .ok () => fn.nested deref
  | .error _ => []

end ChaosFunction

/-! ## One execution -/

/-- The injector after these executions. -/
def InMemoryChaosInjector.after (injector : InMemoryChaosInjector Ref β)
    (executions : List (Ref × ChaosResult β)) : InMemoryChaosInjector Ref β where
  active := injector.active.filter (· ∉ executions.map Prod.fst)
  results := injector.results ++ executions.map Prod.snd

variable {deref} {injector : InMemoryChaosInjector Ref β} {scenario : Ref}
  {readings : ChaosReadings}

@[simp]
theorem after_nil : injector.after [] = injector := by
  simp [InMemoryChaosInjector.after]

theorem after_append (executions executions' : List (Ref × ChaosResult β)) :
    injector.after (executions ++ executions') = (injector.after executions).after executions' := by
  unfold InMemoryChaosInjector.after
  simp only [List.map_append, List.append_assoc, List.filter_filter, List.mem_append, not_or,
    Bool.decide_and, Bool.and_comm]

/-- Injecting a scenario makes no difference once it is removed. -/
theorem filter_inject {p : Ref → Bool} (hp : p scenario = false) :
    (injector.inject deref scenario).active.filter p = injector.active.filter p := by
  unfold inject
  split_ifs <;> simp [hp]

theorem results_inject : (injector.inject deref scenario).results = injector.results := by
  unfold inject
  split_ifs <;> rfl

/-- Injecting a scenario, making these executions and removing it again. -/
theorem remove_after_inject {executions : List (Ref × ChaosResult β)} {result : ChaosResult β}
    {removed : InMemoryChaosInjector Ref β}
    (hremoved : removed = ((injector.inject deref scenario).after executions).remove scenario) :
    { removed with results := removed.results ++ [result] }
      = injector.after (executions ++ [(scenario, result)]) := by
  subst hremoved
  unfold InMemoryChaosInjector.after remove
  simp only [results_inject, List.map_append, List.append_assoc, List.filter_filter, List.map_cons,
    List.map_nil, InMemoryChaosInjector.mk.injEq, and_true]
  rw [filter_inject (by simp)]
  refine List.filter_congr fun other _ => ?_
  rw [Bool.eq_iff_iff]
  simp [and_comm]

/-- What an execution does if its function makes these executions and has this outcome. -/
theorem wrapExecution_eq
    {fn : InMemoryChaosInjector Ref β → Except PyError β × InMemoryChaosInjector Ref β}
    {outcome : Except PyError β} {executions : List (Ref × ChaosResult β)}
    (hfn : ∀ injector, fn injector = (outcome, injector.after executions)) :
    injector.wrapExecution deref scenario readings fn =
      let result := chaosResult (deref scenario) readings
        (underFault (deref scenario) readings.draw outcome)
      (result, injector.after ((match applyFault (deref scenario) readings.draw with
        | .ok () => executions
        | .error _ => []) ++ [(scenario, result)])) := by
  unfold InMemoryChaosInjector.wrapExecution underFault
  rcases applyFault (deref scenario) readings.draw with exc | ⟨⟩
  · -- the fault raises before the function is called
    refine Prod.ext rfl ?_
    exact remove_after_inject (by rw [after_nil])
  · simp only [hfn]
    refine Prod.ext rfl ?_
    exact remove_after_inject rfl

/-- What a function does to any injector. -/
theorem call_eq (fn : ChaosFunction Ref β) : ∀ injector : InMemoryChaosInjector Ref β,
    fn.call deref injector = (fn.outcome deref, injector.after (fn.nested deref)) := by
  induction fn with
  | returns value =>
    intro injector
    simp [ChaosFunction.call, ChaosFunction.outcome, ChaosFunction.nested]
  | raises exc =>
    intro injector
    simp [ChaosFunction.call, ChaosFunction.outcome, ChaosFunction.nested]
  | wrapExecution scenario readings fn next ihfn ihnext =>
    intro injector
    unfold ChaosFunction.call
    rw [wrapExecution_eq ihfn]
    simp only [ihnext, ← after_append, List.append_assoc, List.singleton_append]
    rfl

/-! ## Restoration -/

/-- The execution leaves the active scenarios as they are, and adds its result to those of the
executions nested in it. -/
def Restores (deref : Ref → ChaosScenario) (injector : InMemoryChaosInjector Ref β)
    (scenario : Ref) (readings : ChaosReadings) (fn : ChaosFunction Ref β) : Prop :=
  let (result, injector') := injector.wrapExecution deref scenario readings (fn.call deref)
  injector'.activeScenarios = injector.activeScenarios
    ∧ injector'.collectResults = injector.collectResults
      ++ (fn.nestedUnder deref scenario readings).map Prod.snd ++ [result]

/-- A list of active scenarios stays the same if none of them was run. -/
theorem active_after_eq_iff {executions : List (Ref × ChaosResult β)} :
    (injector.after executions).active = injector.active
      ↔ ∀ execution ∈ executions, execution.1 ∉ injector.active := by
  unfold InMemoryChaosInjector.after
  simp only [List.filter_eq_self, decide_eq_true_eq, List.mem_map, not_exists, not_and]
  constructor
  · intro h execution hexecution hactive
    exact h _ hactive execution hexecution rfl
  · rintro h active hactive execution hexecution rfl
    exact h execution hexecution hactive

/-- The state is restored unless the scenario, or one that the function runs in turn, is an active
one, the same object. An equal one makes no difference. -/
theorem restores_iff (deref : Ref → ChaosScenario) (injector : InMemoryChaosInjector Ref β)
    (scenario : Ref) (readings : ChaosReadings) (fn : ChaosFunction Ref β) :
    Restores deref injector scenario readings fn ↔ scenario ∉ injector.activeScenarios
      ∧ ∀ execution ∈ fn.nestedUnder deref scenario readings,
        execution.1 ∉ injector.activeScenarios := by
  unfold Restores activeScenarios collectResults
  rw [wrapExecution_eq (call_eq fn)]
  have hnested : (match applyFault (deref scenario) readings.draw with
      | .ok () => fn.nested deref
      | .error _ => []) = fn.nestedUnder deref scenario readings := rfl
  simp only [hnested, active_after_eq_iff]
  rw [and_iff_left (by simp [InMemoryChaosInjector.after])]
  simp [or_imp, forall_and, and_comm]

/-- A scenario that was injected before is not active any more once a function was run under it. -/
theorem not_restores_injected : ¬ Restores
    (fun _ => { faultType := "latency", targetComponent := "rag" })
    (({} : InMemoryChaosInjector ℕ String).inject
      (fun _ => { faultType := "latency", targetComponent := "rag" }) 0)
    0 { start := 0, finish := 1, draw := 0 } (.returns "ok") := by
  rintro ⟨hactive, -⟩
  exact absurd hactive (by decide +kernel)

end AgentLearning
