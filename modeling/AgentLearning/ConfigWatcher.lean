import Mathlib.Logic.Function.Iterate
import AgentLearning.ConfigCenter

/-!
# Watchers of the configuration

`src/config_center/watcher.py`. A callback comes from outside: what it calls of the watcher while it
is called, and whether it raises, depends on all that happened before. `notify` goes through the
list that is there at each moment, one place after the other, so it is a machine that takes a step
for each callback and may never come to an end.
-/

namespace AgentLearning

structure ConfigWatcher (η : Type) where
  watchers : Dict String (List η) := ∅

inductive WatchCall (η : Type)
  | watch (ns key : String) (callback : η)
  | unwatch (ns key : String) (callback : η)

/-- What a callback does: its calls, and the exception it raises. -/
structure Reaction (η : Type) where
  calls : List (WatchCall η) := []
  error : Option PyError := none

namespace ConfigWatcher

variable {η : Type} [DecidableEq η] (watcher : ConfigWatcher η)

def watchKey (ns key : String) : String := s!"{ns}::{key}"

/-- `_watchers.get(wk, [])`. -/
def callbacks (wk : String) : List η := (watcher.watchers.get? wk).getD []

def watch (ns key : String) (callback : η) : ConfigWatcher η where
  watchers :=
    let wk := watchKey ns key
    watcher.watchers.set wk (watcher.callbacks wk ++ [callback])

def unwatch (ns key : String) (callback : η) : Bool × ConfigWatcher η :=
  let wk := watchKey ns key
  if callback ∈ watcher.callbacks wk then
    (true, { watchers := watcher.watchers.set wk ((watcher.callbacks wk).erase callback) })
  else (false, watcher)

def exec : WatchCall η → ConfigWatcher η
  | .watch ns key callback => watcher.watch ns key callback
  | .unwatch ns key callback => (watcher.unwatch ns key callback).2

def execAll (calls : List (WatchCall η)) : ConfigWatcher η := calls.foldl exec watcher

end ConfigWatcher

/-! ## Delivery -/

/-- Where `notify` is: at a place of one of its two lists, or at its end. -/
inductive NotifyStage
  | exact (place : ℕ)
  | wildcard (place : ℕ)
  | returned (count : ℕ)
  | raised (error : PyError)
  deriving DecidableEq

/-- `called` is who was called so far, which `notify` itself only counts. -/
structure Delivery (η : Type) where
  watcher : ConfigWatcher η
  stage : NotifyStage := .exact 0
  count : ℕ := 0
  called : List η := []

namespace Delivery

variable {η : Type} [DecidableEq η]
  -- what a callback does, after so many calls
  (react : ℕ → η → WatchEvent → Reaction η) (event : WatchEvent) (d : Delivery η)

/-- `cb(event)`, and where the loop goes on. -/
def call (callback : η) (stage : NotifyStage) : Delivery η :=
  let reaction := react d.count callback event
  let watcher := d.watcher.execAll reaction.calls
  let called := d.called ++ [callback]
  match reaction.error with
  | none => { watcher, stage, count := d.count + 1, called }
  | some error => { watcher, stage := .raised error, count := d.count, called }

/-- A delivery that has ended stays as it is. -/
def next : Delivery η :=
  match d.stage with
  | .exact place =>
    match (d.watcher.callbacks (ConfigWatcher.watchKey event.ns event.key))[place]? with
    | some callback => d.call react event callback (.exact (place + 1))
    | none => { d with stage := .wildcard 0 }
  | .wildcard place =>
    match (d.watcher.callbacks (ConfigWatcher.watchKey event.ns "*"))[place]? with
    | some callback => d.call react event callback (.wildcard (place + 1))
    | none => { d with stage := .returned d.count }
  | .returned _ => d
  | .raised _ => d

end Delivery

/-- `notify`, after so many steps. -/
def ConfigWatcher.notify {η : Type} [DecidableEq η] (watcher : ConfigWatcher η)
    (react : ℕ → η → WatchEvent → Reaction η) (event : WatchEvent) (steps : ℕ) : Delivery η :=
  (Delivery.next react event)^[steps] { watcher }

end AgentLearning
