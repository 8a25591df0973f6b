import AgentLearning.Value

/-!
# Message buses

`src/messaging/`: messages by topic to the handlers that are subscribed to it. The bus in memory
passes a message to the handlers before `publish` returns. The bus over Redis hands it to the
server, and one listener thread of the subscribing side passes on what its connection receives.
A handler comes from outside: `handle` says whether it returns or raises.
-/

namespace AgentLearning

/-- What a caller publishes. -/
structure Publication where
  topic : String
  payload : Json
  senderId : String := ""

structure Message extends Publication where
  messageId : String
  timestamp : ℚ
  replyTo : Option String := none
  correlationId : Option String := none

/-- The calls of this development on a bus; the id of a message and its timestamp come from
outside. -/
inductive BusCall (η : Type)
  | subscribe (topic : String) (handler : η)
  | unsubscribe (topic : String) (handler : η)
  | publish (publication : Publication) (messageId : String) (timestamp : ℚ)

variable {η : Type} (handle : η → Message → Except PyError Unit)

/-- The loop over the handlers: what was passed to whom, and the exception that ended the loop. -/
def callHandlers (msg : Message) : List η → List (η × Message) × Except PyError Unit
  | [] => ([], .ok ())
  | handler :: handlers =>
    match handle handler msg with
    | .error e => ([(handler, msg)], .error e)
    | .ok () =>
      ((handler, msg) :: (callHandlers msg handlers).1, (callHandlers msg handlers).2)

/-! ## In memory -/

structure InMemoryMessageBus (η : Type) where
  subscribers : Dict String (List η) := ∅

namespace InMemoryMessageBus

variable (bus : InMemoryMessageBus η) (topic : String) (handler : η)

def subscribe : InMemoryMessageBus η where
  subscribers := bus.subscribers.set topic ((bus.subscribers.get? topic).getD [] ++ [handler])

def unsubscribe [DecidableEq η] : Bool × InMemoryMessageBus η :=
  let handlers := (bus.subscribers.get? topic).getD []
  if handler ∈ handlers then
    (true, { subscribers := bus.subscribers.set topic (handlers.erase handler) })
  else (false, bus)

/-- The handlers are those of this moment. -/
def dispatch (msg : Message) : List (η × Message) × Except PyError Unit :=
  callHandlers handle msg ((bus.subscribers.get? msg.topic).getD [])

def publish (publication : Publication) (messageId : String) (timestamp : ℚ) :
    List (η × Message) × Except PyError Message :=
  let msg := { publication with messageId, timestamp }
  ((bus.dispatch handle msg).1, (bus.dispatch handle msg).2.map fun _ => msg)

end InMemoryMessageBus

/-! ## Over Redis -/

/-- What the listener thread is doing; it is `dead` once an exception has left its loop. -/
inductive Listener (η : Type)
  | notStarted
  | waiting
  | calling (msg : Message) (handlers : List η)
  | dead (error : PyError)

/-- `channels` is what the connection is subscribed to, and `received` what it holds for the
listener. -/
structure RedisMessageBus (η : Type) where
  handlers : Dict String (List η) := ∅
  channels : List String := []
  received : List Message := []
  running : Bool := false
  listener : Listener η := .notStarted

namespace RedisMessageBus

variable (bus : RedisMessageBus η) (topic : String) (handler : η)

/-- Starts a listener unless one was started before. -/
def ensureListener : RedisMessageBus η :=
  if bus.running then bus else { bus with running := true, listener := .waiting }

def subscribe : RedisMessageBus η :=
  let isNewTopic := (bus.handlers.get? topic).isNone
  let bus := { bus with
    handlers := bus.handlers.set topic ((bus.handlers.get? topic).getD [] ++ [handler]) }
  ensureListener <|
    if isNewTopic then { bus with channels := bus.channels.insert topic } else bus

def unsubscribe [DecidableEq η] : Bool × RedisMessageBus η :=
  let handlers := (bus.handlers.get? topic).getD []
  if handler ∈ handlers then
    let handlers := handlers.erase handler
    (true,
      if handlers = [] then
        { bus with
          channels := bus.channels.erase topic
          handlers := bus.handlers.erase topic }
      else { bus with handlers := bus.handlers.set topic handlers })
  else (false, bus)

/-- The server hands the message to the connection if it is subscribed to the channel. -/
def publish (publication : Publication) (messageId : String) (timestamp : ℚ) :
    Message × RedisMessageBus η :=
  let msg := { publication with messageId, timestamp }
  (msg,
    if msg.topic ∈ bus.channels then { bus with received := bus.received ++ [msg] } else bus)

/-- The next thing the listener does, and the handler it calls: it takes a message and looks up
its handlers, or it calls the next one. -/
def listen : Option (η × Message) × RedisMessageBus η :=
  match bus.listener with
  | .notStarted => (none, bus)
  | .dead _ => (none, bus)
  | .waiting =>
    match bus.received with
    | [] => (none, bus)
    | msg :: received =>
      (none, { bus with
        received
        listener := .calling msg ((bus.handlers.get? msg.topic).getD []) })
  | .calling _ [] => (none, { bus with listener := .waiting })
  | .calling msg (handler :: handlers) =>
    (some (handler, msg), { bus with
      listener :=
        match handle handler msg with
        | .ok () => .calling msg handlers
        | .error e => .dead e })

end RedisMessageBus

end AgentLearning
