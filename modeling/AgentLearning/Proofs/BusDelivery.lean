import AgentLearning.Lib.Trace
import AgentLearning.MessageBus

/-!
# What the message buses deliver

What is owed to the handlers of a message is fixed when the message is dispatched. The loop over
them stops at a handler that raises. In memory the publisher gets the exception, and the next
message starts a loop of its own; over Redis the listener thread ends, and no other is started.
-/

namespace AgentLearning

open Trace

variable {η : Type} (handle : η → Message → Except PyError Unit)

/-- The loop calls all handlers exactly if none but the last one raises. -/
theorem callHandlers_eq_iff (msg : Message) : ∀ handlers : List η,
    (callHandlers handle msg handlers).1 = handlers.map (·, msg)
      ↔ ∀ handler ∈ handlers.dropLast, handle handler msg = .ok ()
  | [] => by simp [callHandlers]
  | handler :: handlers => by
    have ih := callHandlers_eq_iff msg handlers
    cases handlers with
    | nil => cases h : handle handler msg <;> simp [callHandlers, h]
    | cons handler' handlers =>
      cases h : handle handler msg with
      | error e => simp [callHandlers, h]
      | ok _ =>
        rw [callHandlers, h, List.map_cons, List.cons.injEq, and_iff_right rfl, ih,
          List.dropLast_cons_cons, List.forall_mem_cons, and_iff_right h]

variable [DecidableEq η]

/-! ## In memory -/

namespace InMemoryMessageBus

def handlersOf (bus : InMemoryMessageBus η) (topic : String) : List η :=
  (bus.subscribers.get? topic).getD []

/-- A call, with what it passes to whom. -/
def exec (bus : InMemoryMessageBus η) : BusCall η → List (η × Message) × InMemoryMessageBus η
  | .subscribe topic handler => ([], bus.subscribe topic handler)
  | .unsubscribe topic handler => ([], (bus.unsubscribe topic handler).2)
  | .publish publication messageId timestamp =>
    ((bus.publish handle publication messageId timestamp).1, bus)

end InMemoryMessageBus

/-! ## Over Redis -/

/-- A call on the bus, or a step of the listener thread. -/
inductive BusStep (η : Type)
  | call (call : BusCall η)
  | listen

namespace RedisMessageBus

def handlersOf (bus : RedisMessageBus η) (topic : String) : List η :=
  (bus.handlers.get? topic).getD []

/-- A step, with the handler that is called and what is passed to it. -/
def exec (bus : RedisMessageBus η) : BusStep η → Option (η × Message) × RedisMessageBus η
  | .call (.subscribe topic handler) => (none, bus.subscribe topic handler)
  | .call (.unsubscribe topic handler) => (none, (bus.unsubscribe topic handler).2)
  | .call (.publish publication messageId timestamp) =>
    (none, (bus.publish publication messageId timestamp).2)
  | .listen => bus.listen handle

abbrev BusEvent (η : Type) := Trace.Event (RedisMessageBus η) (BusStep η) (Option (η × Message))

/-- The message that reaches the connection with this event. -/
def arrival (e : BusEvent η) : Option Message :=
  match e.input with
  | .call (.publish publication messageId timestamp) =>
    if publication.topic ∈ e.before.channels then
      some { publication with messageId, timestamp }
    else none
  | _ => none

/-- The message that the listener takes with this event. -/
def taking (e : BusEvent η) : Option Message :=
  match e.input, e.before.listener with
  | .listen, .waiting => e.before.received.head?
  | _, _ => none

/-- The messages that have reached the connection. -/
def arrived (tr : List (BusEvent η)) : List Message := tr.filterMap arrival

/-- The messages that were dispatched. -/
def taken (tr : List (BusEvent η)) : List Message := tr.filterMap taking

/-- What was passed to whom. -/
def passed (tr : List (BusEvent η)) : List (η × Message) := tr.filterMap Trace.Event.output

/-- What is due with this event: the message that is dispatched, to each of its handlers. -/
def due (e : BusEvent η) : List (η × Message) :=
  match taking e with
  | some msg => (e.before.handlersOf msg.topic).map (·, msg)
  | none => []

/-- Every message that was dispatched, to each handler that its topic had then. -/
def owed (tr : List (BusEvent η)) : List (η × Message) := tr.flatMap due

/-- What the listener has still to pass on. -/
def left (bus : RedisMessageBus η) : List (η × Message) :=
  match bus.listener with
  | .calling msg handlers => handlers.map (·, msg)
  | _ => []

def Alive (bus : RedisMessageBus η) : Prop :=
  match bus.listener with
  | .waiting | .calling _ _ => True
  | .notStarted | .dead _ => False

instance (bus : RedisMessageBus η) : Decidable bus.Alive := by
  unfold Alive
  split <;> infer_instance

/-- No message is lost: what reached the connection was dispatched, or waits for a listener that is
alive; and what was dispatched was passed to each of its handlers once, or is being passed on. -/
structure Delivers (tr : List (BusEvent η)) (bus : RedisMessageBus η) : Prop where
  arrived_eq : arrived tr = taken tr ++ bus.received
  alive : bus.received ≠ [] → bus.Alive
  owed_eq : owed tr = passed tr ++ bus.left

/-! ## What a step does -/

/-- The thread runs from the first subscription on, and there is nothing for it before. -/
structure Started (bus : RedisMessageBus η) : Prop where
  running : bus.running = true → bus.listener ≠ .notStarted
  idle : bus.running = false → bus.listener = .notStarted ∧ bus.channels = [] ∧ bus.received = []

section Step

variable {handle} {bus : RedisMessageBus η}

omit [DecidableEq η] in
theorem ensureListener_spec (bus : RedisMessageBus η) : bus.ensureListener.running = true
    ∧ bus.ensureListener.listener = (if bus.running then bus.listener else .waiting)
    ∧ bus.ensureListener.received = bus.received := by
  unfold ensureListener
  split_ifs with h
  · exact ⟨h, rfl, rfl⟩
  · exact ⟨rfl, rfl, rfl⟩

omit [DecidableEq η] in
theorem subscribe_spec (bus : RedisMessageBus η) (topic : String) (handler : η) :
    (bus.subscribe topic handler).running = true
      ∧ (bus.subscribe topic handler).listener = (if bus.running then bus.listener else .waiting)
      ∧ (bus.subscribe topic handler).received = bus.received := by
  cases hnew : (bus.handlers.get? topic).isNone <;>
    simp only [subscribe, hnew, if_true, Bool.false_eq_true, if_false] <;>
    exact ensureListener_spec _

theorem unsubscribe_spec (bus : RedisMessageBus η) (topic : String) (handler : η) :
    (bus.unsubscribe topic handler).2.running = bus.running
      ∧ (bus.unsubscribe topic handler).2.listener = bus.listener
      ∧ (bus.unsubscribe topic handler).2.received = bus.received
      ∧ (bus.channels = [] → (bus.unsubscribe topic handler).2.channels = []) := by
  simp only [unsubscribe]
  split_ifs <;> simp_all

theorem received_call (call : BusCall η) : (bus.exec handle (.call call)).2.received
    = bus.received ++ (arrival (event (exec handle) bus (.call call))).toList := by
  cases call with
  | subscribe topic handler => simp [exec, arrival, subscribe_spec]
  | unsubscribe topic handler => simp [exec, arrival, unsubscribe_spec]
  | publish publication messageId timestamp =>
    by_cases htopic : publication.topic ∈ bus.channels <;>
      simp [exec, publish, arrival, htopic]

/-- A call leaves what the listener is doing, unless it starts it. -/
theorem listener_call (h : bus.Started) (call : BusCall η) :
    (bus.exec handle (.call call)).2.listener = bus.listener
      ∨ bus.listener = .notStarted ∧ (bus.exec handle (.call call)).2.listener = .waiting := by
  cases call with
  | subscribe topic handler =>
    rw [exec, (subscribe_spec bus topic handler).2.1]
    cases hrun : bus.running with
    | true => exact .inl rfl
    | false => exact .inr ⟨(h.idle hrun).1, rfl⟩
  | unsubscribe topic handler => exact .inl (unsubscribe_spec bus topic handler).2.1
  | publish publication messageId timestamp =>
    simp only [exec, publish]
    split_ifs <;> exact .inl rfl

theorem Started.call (h : bus.Started) (call : BusCall η) :
    (bus.exec handle (.call call)).2.Started := by
  cases call with
  | subscribe topic handler =>
    obtain ⟨hrun, hlistener, -⟩ := subscribe_spec bus topic handler
    refine ⟨fun _ => ?_, fun hidle => ?_⟩
    · rw [exec, hlistener]
      split_ifs with hrunning
      · exact h.running hrunning
      · simp
    · exact absurd (hrun.symm.trans hidle) (by simp)
  | unsubscribe topic handler =>
    obtain ⟨hrun, hlistener, hreceived, hchannels⟩ := unsubscribe_spec bus topic handler
    refine ⟨fun hrunning => ?_, fun hidle => ?_⟩
    · rw [exec, hlistener]
      exact h.running (hrun.symm.trans hrunning)
    · obtain ⟨hstart, hnil, hempty⟩ := h.idle (hrun.symm.trans hidle)
      exact ⟨hlistener.trans hstart, hchannels hnil, hreceived.trans hempty⟩
  | publish publication messageId timestamp =>
    simp only [exec, publish]
    split_ifs with htopic
    · refine ⟨h.running, fun hidle => ?_⟩
      rw [(h.idle hidle).2.1] at htopic
      cases htopic
    · exact h

omit [DecidableEq η] in
variable (handle) in
/-- A step of the listener, by what it is doing. -/
theorem listen_cases (bus : RedisMessageBus η) :
    (bus.listener = .notStarted ∨ (∃ error, bus.listener = .dead error)
        ∨ bus.listener = .waiting ∧ bus.received = []) ∧ bus.listen handle = (none, bus)
      ∨ (∃ msg received, bus.listener = .waiting ∧ bus.received = msg :: received
        ∧ bus.listen handle
          = (none, { bus with received, listener := .calling msg (bus.handlersOf msg.topic) }))
      ∨ (∃ msg, bus.listener = .calling msg []
        ∧ bus.listen handle = (none, { bus with listener := .waiting }))
      ∨ (∃ msg handler handlers, bus.listener = .calling msg (handler :: handlers)
        ∧ handle handler msg = .ok ()
        ∧ bus.listen handle
          = (some (handler, msg), { bus with listener := .calling msg handlers }))
      ∨ ∃ msg handler handlers error, bus.listener = .calling msg (handler :: handlers)
        ∧ handle handler msg = .error error
        ∧ bus.listen handle = (some (handler, msg), { bus with listener := .dead error }) := by
  unfold listen
  cases hlistener : bus.listener with
  | notStarted => exact .inl ⟨.inl rfl, rfl⟩
  | dead error => exact .inl ⟨.inr (.inl ⟨error, rfl⟩), rfl⟩
  | waiting =>
    cases hreceived : bus.received with
    | nil => exact .inl ⟨.inr (.inr ⟨rfl, rfl⟩), rfl⟩
    | cons msg received => exact .inr (.inl ⟨msg, received, rfl, rfl, rfl⟩)
  | calling msg handlers =>
    cases handlers with
    | nil => exact .inr (.inr (.inl ⟨msg, rfl, rfl⟩))
    | cons handler handlers =>
      cases hcall : handle handler msg with
      | ok _ =>
        exact .inr (.inr (.inr (.inl ⟨msg, handler, handlers, rfl, hcall, by simp [hcall]⟩)))
      | error error =>
        exact .inr (.inr (.inr (.inr ⟨msg, handler, handlers, error, rfl, hcall, by simp [hcall]⟩)))

omit [DecidableEq η] in
theorem Started.running_of_ne (h : bus.Started) (hne : bus.listener ≠ .notStarted) :
    bus.running = true := by
  by_contra hidle
  exact hne (h.idle (Bool.not_eq_true _ ▸ hidle)).1

omit [DecidableEq η] in
theorem Started.listen (h : bus.Started) : (bus.listen handle).2.Started := by
  have hwake {bus' : RedisMessageBus η} (hlistener : bus.listener ≠ .notStarted)
      (hrun : bus'.running = bus.running) (hne : bus'.listener ≠ .notStarted) : bus'.Started :=
    ⟨fun _ => hne, fun hidle => absurd (h.running_of_ne hlistener) (by simp [← hrun, hidle])⟩
  rcases listen_cases handle bus with ⟨-, hlisten⟩ | ⟨msg, received, hlistener, -, hlisten⟩
    | ⟨msg, hlistener, hlisten⟩ | ⟨msg, handler, handlers, hlistener, -, hlisten⟩
    | ⟨msg, handler, handlers, error, hlistener, -, hlisten⟩
  · rwa [hlisten]
  all_goals
    rw [hlisten]
    exact hwake (by simp [hlistener]) rfl (by simp)

theorem Started.exec (h : bus.Started) (step : BusStep η) :
    (bus.exec handle step).2.Started := by
  cases step with
  | call call => exact h.call call
  | listen => exact h.listen

end Step

/-! ## Runs -/

/-- What is so along every run; as long as the listener is alive nothing is lost. -/
structure Kept (tr : List (BusEvent η)) (bus : RedisMessageBus η) : Prop where
  started : bus.Started
  arrived_eq : arrived tr = taken tr ++ bus.received
  owed_eq : (∀ error, bus.listener ≠ .dead error) → owed tr = passed tr ++ bus.left

section Kept

variable {handle} {bus : RedisMessageBus η} {tr : List (BusEvent η)}

theorem output_call (call : BusCall η) : (bus.exec handle (.call call)).1 = none := by
  cases call <;> rfl

theorem left_call (h : bus.Started) (call : BusCall η) :
    (bus.exec handle (.call call)).2.left = bus.left := by
  unfold left
  rcases listener_call h call with hsame | ⟨hidle, hwaiting⟩
  · rw [hsame]
  · rw [hidle, hwaiting]

section Concat

omit [DecidableEq η]

variable (e : BusEvent η)

theorem arrived_concat : arrived (tr ++ [e]) = arrived tr ++ (arrival e).toList := by
  cases h : arrival e <;> simp [arrived, h]

theorem taken_concat : taken (tr ++ [e]) = taken tr ++ (taking e).toList := by
  cases h : taking e <;> simp [taken, h]

theorem passed_concat : passed (tr ++ [e]) = passed tr ++ e.output.toList := by
  cases h : e.output <;> simp [passed, h]

theorem owed_concat : owed (tr ++ [e]) = owed tr ++ due e := by simp [owed]

theorem passed_append (tr' : List (BusEvent η)) : passed (tr ++ tr') = passed tr ++ passed tr' :=
  List.filterMap_append

theorem owed_append (tr' : List (BusEvent η)) : owed (tr ++ tr') = owed tr ++ owed tr' :=
  List.flatMap_append

end Concat

theorem Kept.call (h : Kept tr bus) (call : BusCall η) :
    Kept (tr ++ [event (exec handle) bus (.call call)]) (bus.exec handle (.call call)).2 := by
  refine ⟨h.started.call call, ?_, fun halive => ?_⟩
  · rw [arrived_concat, taken_concat, received_call, h.arrived_eq, List.append_assoc]
    simp [taking]
  · have hbefore (error) : bus.listener ≠ .dead error := by
      rcases listener_call h.started call with hsame | ⟨hidle, -⟩
      · exact hsame ▸ halive error
      · simp [hidle]
    rw [owed_concat, passed_concat, left_call h.started, event_output, output_call,
      h.owed_eq hbefore]
    simp [due, taking]

theorem Kept.listen (h : Kept tr bus) :
    Kept (tr ++ [event (exec handle) bus .listen]) (bus.exec handle .listen).2 := by
  have hexec : bus.exec handle .listen = bus.listen handle := rfl
  have hnone : arrival (event (exec handle) bus .listen) = none := rfl
  refine ⟨h.started.listen, ?_, fun halive => ?_⟩
  · rw [arrived_concat, taken_concat, hnone, Option.toList_none, List.append_nil, h.arrived_eq,
      hexec]
    rcases listen_cases handle bus with ⟨hlistener, hlisten⟩
      | ⟨msg, received, hlistener, hreceived, hlisten⟩ | ⟨msg, hlistener, hlisten⟩
      | ⟨msg, handler, handlers, hlistener, -, hlisten⟩
      | ⟨msg, handler, handlers, error, hlistener, -, hlisten⟩
    · rcases hlistener with hlistener | ⟨error, hlistener⟩ | ⟨hlistener, hreceived⟩ <;>
        simp_all [taking]
    · simp [taking, hlistener, hreceived, hlisten]
    all_goals simp [taking, hlistener, hlisten]
  · rw [hexec] at halive
    rw [owed_concat, passed_concat, event_output, hexec]
    rcases listen_cases handle bus with ⟨hlistener, hlisten⟩
      | ⟨msg, received, hlistener, hreceived, hlisten⟩ | ⟨msg, hlistener, hlisten⟩
      | ⟨msg, handler, handlers, hlistener, -, hlisten⟩
      | ⟨msg, handler, handlers, error, hlistener, -, hlisten⟩
    · have howed := h.owed_eq (by simpa [hlisten] using halive)
      rcases hlistener with hlistener | ⟨error, hlistener⟩ | ⟨hlistener, hreceived⟩ <;>
        simp_all [due, taking]
    · have howed := h.owed_eq (by simp [hlistener])
      simpa [due, taking, left, hlistener, hreceived, hlisten] using howed
    · have howed := h.owed_eq (by simp [hlistener])
      simpa [due, taking, left, hlistener, hlisten] using howed
    · have howed := h.owed_eq (by simp [hlistener])
      simpa [due, taking, left, hlistener, hlisten] using howed
    · exact absurd (by rw [hlisten]) (halive error)

variable (handle) in
theorem kept_run (run : List (BusStep η)) :
    Kept (events (exec handle) {} run) (final (exec handle) {} run) := by
  refine history_induct ⟨⟨by simp, by simp⟩, rfl, fun _ => rfl⟩ fun tr bus step _ h => ?_
  cases step with
  | call call => exact h.call call
  | listen => exact h.listen

omit [DecidableEq η] in
/-- As long as the listener has not died, everything is delivered. -/
theorem Kept.delivers (h : Kept tr bus) (halive : ∀ error, bus.listener ≠ .dead error) :
    Delivers tr bus where
  arrived_eq := h.arrived_eq
  owed_eq := h.owed_eq halive
  alive hreceived := by
    unfold Alive
    cases hlistener : bus.listener with
    | waiting | calling msg handlers => trivial
    | dead error => exact absurd hlistener (halive error)
    | notStarted =>
      have hidle : bus.running = false := by
        by_contra hrun
        exact h.started.running (Bool.not_eq_false _ ▸ hrun) hlistener
      exact absurd (h.started.idle hidle).2.2 hreceived

variable (handle) in
theorem dead_exec {error : PyError} (hstarted : bus.Started) (hdead : bus.listener = .dead error)
    (step : BusStep η) : (bus.exec handle step).2.listener = .dead error
      ∧ (bus.exec handle step).2.received
        = bus.received ++ (arrival (event (exec handle) bus step)).toList
      ∧ taking (event (exec handle) bus step) = none ∧ (bus.exec handle step).1 = none := by
  cases step with
  | call call =>
    refine ⟨?_, received_call call, rfl, output_call call⟩
    rcases listener_call hstarted call with hsame | ⟨hidle, -⟩
    · exact hsame.trans hdead
    · simp [hdead] at hidle
  | listen =>
    have hlisten : bus.exec handle .listen = (none, bus) := by simp only [exec, listen, hdead]
    simp [hlisten, arrival, taking, hdead]

variable (handle) in
/-- Once the listener is dead, messages pile up. -/
theorem dead_run {error : PyError} (hstarted : bus.Started) (hdead : bus.listener = .dead error)
    (later : List (BusStep η)) : (final (exec handle) bus later).Started
      ∧ (final (exec handle) bus later).listener = .dead error
      ∧ (final (exec handle) bus later).received
        = bus.received ++ arrived (events (exec handle) bus later)
      ∧ passed (events (exec handle) bus later) = []
      ∧ owed (events (exec handle) bus later) = [] := by
  induction later using List.reverseRecOn with
  | nil => exact ⟨hstarted, hdead, by simp [arrived], rfl, rfl⟩
  | append_singleton later step ih =>
    obtain ⟨hstarted, hdead, hreceived, hpassed, howed⟩ := ih
    obtain ⟨hdead', hreceived', htaking, houtput⟩ := dead_exec handle hstarted hdead step
    rw [final_concat, events_concat, arrived_concat, passed_concat, owed_concat, hpassed, howed,
      hreceived', hreceived, event_output, houtput, due, htaking, List.append_assoc]
    exact ⟨hstarted.exec step, hdead', rfl, rfl, rfl⟩

/-- The listener dies in a handler. -/
theorem exists_of_dead {error : PyError} {run : List (BusStep η)}
    (h : (final (exec handle) {} run).listener = .dead error) :
    ∃ before later msg handler handlers, run = before ++ .listen :: later
      ∧ (final (exec handle) {} before).listener = .calling msg (handler :: handlers)
      ∧ handle handler msg = .error error := by
  induction run using List.reverseRecOn with
  | nil => simp at h
  | append_singleton run step ih =>
    by_cases hbefore : (final (exec handle) {} run).listener = .dead error
    · obtain ⟨before, later, msg, handler, handlers, rfl, hcalling, hraise⟩ := ih hbefore
      exact ⟨before, later ++ [step], msg, handler, handlers, by simp, hcalling, hraise⟩
    · rw [final_concat] at h
      cases step with
      | call call =>
        rcases listener_call (kept_run handle run).started call with hsame | ⟨-, hwaiting⟩
        · exact absurd (hsame.symm.trans h) hbefore
        · simp [hwaiting] at h
      | listen =>
        have hexec : (final (exec handle) {} run).exec handle .listen
            = (final (exec handle) {} run).listen handle := rfl
        rw [hexec] at h
        rcases listen_cases handle (final (exec handle) {} run) with ⟨-, hlisten⟩
          | ⟨msg, received, -, -, hlisten⟩ | ⟨msg, -, hlisten⟩
          | ⟨msg, handler, handlers, -, -, hlisten⟩
          | ⟨msg, handler, handlers, error', hcalling, hraise, hlisten⟩
        · exact absurd (by rwa [hlisten] at h) hbefore
        · simp [hlisten] at h
        · simp [hlisten] at h
        · simp [hlisten] at h
        · obtain rfl : error' = error := by simpa [hlisten] using h
          exact ⟨run, [], msg, handler, handlers, rfl, hcalling, hraise⟩

/-- What is left of a run in which a handler raises. -/
theorem delivers_iff_of_raises {before later : List (BusStep η)} {msg : Message} {handler : η}
    {handlers : List η} {error : PyError}
    (hcalling : (final (exec handle) {} before).listener = .calling msg (handler :: handlers))
    (hraise : handle handler msg = .error error) :
    Delivers (events (exec handle) {} (before ++ .listen :: later))
        (final (exec handle) {} (before ++ .listen :: later))
      ↔ handlers = [] ∧ (final (exec handle) {} before).received = []
        ∧ arrived (events (exec handle) (final (exec handle) {} (before ++ [.listen])) later)
          = [] := by
  have howed := (kept_run handle before).owed_eq (by simp [hcalling])
  have hlisten : (final (exec handle) {} before).exec handle .listen = (some (handler, msg),
      { final (exec handle) {} before with listener := .dead error }) := by
    simp only [exec, listen, hcalling, hraise]
  have hdies : (final (exec handle) {} (before ++ [.listen])).listener = .dead error := by
    rw [final_concat, hlisten]
  have hkeeps : (final (exec handle) {} (before ++ [.listen])).received
      = (final (exec handle) {} before).received := by rw [final_concat, hlisten]
  obtain ⟨-, hdead, hreceived, hquiet, hnone⟩ :=
    dead_run handle (kept_run handle (before ++ [.listen])).started hdies later
  have hrun : before ++ .listen :: later = (before ++ [.listen]) ++ later := by simp
  have hevents : events (exec handle) {} ((before ++ [.listen]) ++ later)
      = events (exec handle) {} before
        ++ [event (exec handle) (final (exec handle) {} before) .listen]
        ++ events (exec handle) (final (exec handle) {} (before ++ [.listen])) later := by
    rw [events_append, events_concat]
  -- The handlers behind the one that raised are still owed the message.
  have howed' : owed (events (exec handle) {} ((before ++ [.listen]) ++ later))
      = passed (events (exec handle) {} before) ++ (handler, msg) :: handlers.map (·, msg) := by
    rw [hevents, owed_append, hnone, owed_concat, howed]
    simp [due, taking, left, hcalling]
  have hpassed : passed (events (exec handle) {} ((before ++ [.listen]) ++ later))
      = passed (events (exec handle) {} before) ++ [(handler, msg)] := by
    rw [hevents, passed_append, hquiet, passed_concat, event_output, hlisten]
    simp
  rw [hkeeps, ← final_append] at hreceived
  rw [← final_append] at hdead
  rw [hrun, ← List.append_eq_nil_iff, ← hreceived]
  constructor
  · rintro ⟨-, halive, hall⟩
    rw [howed', hpassed, left, hdead] at hall
    refine ⟨by simpa using hall, ?_⟩
    by_contra hne
    have hlive := halive hne
    rwa [Alive, hdead] at hlive
  · rintro ⟨rfl, hempty⟩
    refine ⟨(kept_run handle _).arrived_eq, absurd hempty, ?_⟩
    rw [howed', hpassed, left, hdead]
    simp

end Kept

end RedisMessageBus

/-- In memory, a message misses a handler exactly if one before it raises. Over Redis, everything
is delivered exactly if a handler that raises is the last one that there is anything for. -/
theorem bus_delivers_iff (calls : List (BusCall η)) (run : List (BusStep η)) :
    ((∀ e ∈ events (InMemoryMessageBus.exec handle) {} calls,
        ∀ publication messageId timestamp, e.input = .publish publication messageId timestamp →
          e.output = (e.before.handlersOf publication.topic).map
            (·, { publication with messageId, timestamp }))
      ↔ ∀ e ∈ events (InMemoryMessageBus.exec handle) {} calls,
        ∀ publication messageId timestamp, e.input = .publish publication messageId timestamp →
          ∀ handler ∈ (e.before.handlersOf publication.topic).dropLast,
            handle handler { publication with messageId, timestamp } = .ok ())
    ∧ (RedisMessageBus.Delivers (events (RedisMessageBus.exec handle) {} run)
        (final (RedisMessageBus.exec handle) {} run)
      ↔ ∀ before later msg handler handlers error, run = before ++ .listen :: later →
        (final (RedisMessageBus.exec handle) {} before).listener
          = .calling msg (handler :: handlers) →
        handle handler msg = .error error →
          handlers = [] ∧ (final (RedisMessageBus.exec handle) {} before).received = []
          ∧ RedisMessageBus.arrived (events (RedisMessageBus.exec handle)
            (final (RedisMessageBus.exec handle) {} (before ++ [.listen])) later) = []) := by
  refine ⟨?_, ?_⟩
  · refine forall₂_congr fun e he => ?_
    obtain ⟨before, call, later, -, rfl⟩ := exists_of_mem_events he
    refine forall₄_congr fun publication messageId timestamp hcall => ?_
    obtain rfl : call = .publish publication messageId timestamp := hcall
    exact callHandlers_eq_iff handle _ _
  · constructor
    · rintro hdelivers before later msg handler handlers error rfl hcalling hraise
      exact (RedisMessageBus.delivers_iff_of_raises hcalling hraise).mp hdelivers
    · intro hharmless
      by_cases hdead : ∃ error, (final (RedisMessageBus.exec handle) {} run).listener = .dead error
      · obtain ⟨error, hdead⟩ := hdead
        obtain ⟨before, later, msg, handler, handlers, rfl, hcalling, hraise⟩ :=
          RedisMessageBus.exists_of_dead hdead
        refine (RedisMessageBus.delivers_iff_of_raises hcalling hraise).mpr ?_
        exact hharmless before later msg handler handlers error rfl hcalling hraise
      · exact (RedisMessageBus.kept_run handle run).delivers (not_exists.mp hdead)

/-- A handler that raises takes the message from the next one in memory, and over Redis the next
message from the handler of another topic. -/
theorem bus_delivers_not_after_raise :
    let handle (handler : String) (_ : Message) : Except PyError Unit :=
      if handler = "raises" then .error (.exception "") else .ok ()
    let publication (topic : String) : Publication := { topic, payload := .null }
    let calls : List (BusCall String) :=
      [.subscribe "a" "raises", .subscribe "a" "returns", .publish (publication "a") "m1" 0]
    let run : List (BusStep String) := [
      .call (.subscribe "a" "raises"), .call (.subscribe "b" "returns"),
      .call (.publish (publication "a") "m1" 0), .listen, .listen,
      .call (.publish (publication "b") "m2" 1), .listen, .listen, .listen]
    ((events (InMemoryMessageBus.exec handle) {} calls).flatMap Trace.Event.output).map Prod.fst
        = ["raises"]
      ∧ (RedisMessageBus.passed (events (RedisMessageBus.exec handle) {} run)).map Prod.fst
        = ["raises"]
      ∧ ¬ RedisMessageBus.Delivers (events (RedisMessageBus.exec handle) {} run)
        (final (RedisMessageBus.exec handle) {} run) := by
  intro handle publication calls run
  refine ⟨by decide +kernel, by decide +kernel, fun hdelivers => ?_⟩
  have hwaits : (final (RedisMessageBus.exec handle) {} run).received ≠ [] :=
    List.ne_nil_of_length_pos (by decide +kernel)
  exact absurd (hdelivers.alive hwaits) (by decide +kernel)

end AgentLearning
