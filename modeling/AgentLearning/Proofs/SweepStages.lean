import AgentLearning.Proofs.Sweep

/-!
# A sweep, statement by statement

A `SweepStage` is where a sweep is: the statement it executes next, with the local variables it has
by then. One stage after the other is what is left of the program (`SweepStage.prog_step`), so a
sweep can be cut off, or another one can come between, after any statement.
-/

namespace AgentLearning

open CrossInstanceRecovery

inductive SweepStage
  | select
  | mark (expired : List InstanceInfo)
  | list (expired : List InstanceInfo) (iid : String) (rest : List String)
      (orphans : List SessionRecord)
  | put (expired : List InstanceInfo) (orphans : List SessionRecord) (session : SessionRecord)
      (rest : List SessionRecord) (recovered : List String)
  | done (result : RecoveryResult)

namespace SweepStage

variable {β : Type} [SessionStoreBackend β] (recovery : CrossInstanceRecovery)
  (clock : SweepClock)

/-- What is left to do with these orphans still to reassign. -/
def reassigning (expired : List InstanceInfo) (orphans : List SessionRecord) :
    List SessionRecord → List String → SweepStage
  | [], recovered => .done (result clock expired orphans recovered)
  | session :: rest, recovered => .put expired orphans session rest recovered

/-- What is left to do with these instances still to search. -/
def searching (expired : List InstanceInfo) : List String → List SessionRecord → SweepStage
  | [], orphans => reassigning clock expired orphans orphans []
  | iid :: rest, orphans => .list expired iid rest orphans

/-- Executes one statement: the stage after it and the database after it. -/
def step (db : RecoveryDb β) : SweepStage → SweepStage × RecoveryDb β
  | .select =>
    let expired := InstanceRegistry.selectExpired db.instances
      (clock.detect - recovery.heartbeatTtl)
    (if expired.isEmpty then searching clock expired [] [] else .mark expired, db)
  | .mark expired =>
    let ids := expired.map InstanceInfo.instanceId
    (searching clock expired ids [],
      { db with instances := InstanceRegistry.markExpired db.instances ids })
  | .list expired iid rest orphans =>
    (searching clock expired rest (orphans ++
      (SessionStoreBackend.listByInstance db.sessions iid).filter SessionRecord.isOpen), db)
  | .put expired orphans session rest recovered =>
    (reassigning clock expired orphans rest (recovered ++ [session.sessionId]),
      { db with
        sessions := SessionStoreBackend.put db.sessions (recovery.adopted clock session) })
  | .done result => (.done result, db)

/-- What is left of the program once the orphans are found. -/
def reassignAll (expired : List InstanceInfo) (orphans rest : List SessionRecord)
    (recovered : List String) : RecoveryM β RecoveryResult := do
  let recovered ← recovery.reassign clock rest recovered
  pure (result clock expired orphans recovered)

/-- What is left of the program once the expired instances are marked. -/
def searchAll (expired : List InstanceInfo) (rest : List String) (orphans : List SessionRecord) :
    RecoveryM β RecoveryResult := do
  let orphans ← findOrphans rest orphans
  reassignAll recovery clock expired orphans orphans []

/-- What is left of the program of a sweep in this stage. -/
def prog : SweepStage → RecoveryM β RecoveryResult
  | .select => recovery.recover clock
  | .mark expired => do
      markExpired (expired.map InstanceInfo.instanceId)
      searchAll recovery clock expired (expired.map InstanceInfo.instanceId) []
  | .list expired iid rest orphans => searchAll recovery clock expired (iid :: rest) orphans
  | .put expired orphans session rest recovered =>
    reassignAll recovery clock expired orphans (session :: rest) recovered
  | .done result => pure result

def isDone : SweepStage → Bool
  | .done _ => true
  | _ => false

theorem prog_reassigning (expired : List InstanceInfo) (orphans rest : List SessionRecord)
    (recovered : List String) :
    ((reassigning clock expired orphans rest recovered).prog recovery clock :
      RecoveryM β RecoveryResult) = reassignAll recovery clock expired orphans rest recovered := by
  cases rest <;> rfl

theorem prog_searching (expired : List InstanceInfo) (rest : List String)
    (orphans : List SessionRecord) :
    ((searching clock expired rest orphans).prog recovery clock : RecoveryM β RecoveryResult)
      = searchAll recovery clock expired rest orphans := by
  cases rest with
  | nil => exact prog_reassigning recovery clock expired orphans orphans []
  | cons iid rest => rfl

/-- The statement of a stage is the next action of what is left of the program. -/
theorem prog_step (stage : SweepStage) (h : stage.isDone = false) :
    ∃ upd next, (stage.prog recovery clock : RecoveryM β RecoveryResult) = .act upd next ∧
      ∀ db, upd () db = (stage.step recovery clock db).2 ∧
        next () db = (stage.step recovery clock db).1.prog recovery clock := by
  cases stage with
  | select =>
    refine ⟨_, _, rfl, fun db => ⟨rfl, ?_⟩⟩
    simp only [step]
    split_ifs with hempty
    · rw [prog_searching, List.isEmpty_iff.mp hempty]
      rfl
    · show Prog.bind (if _ then _ else _) _ = _
      rw [if_neg hempty]
      rfl
  | mark expired =>
    refine ⟨_, _, rfl, fun db => ⟨rfl, ?_⟩⟩
    exact (prog_searching recovery clock expired _ []).symm
  | list expired iid rest orphans =>
    refine ⟨_, _, rfl, fun db => ⟨rfl, ?_⟩⟩
    exact (prog_searching recovery clock expired rest _).symm
  | put expired orphans session rest recovered =>
    refine ⟨_, _, rfl, fun db => ⟨rfl, ?_⟩⟩
    exact (prog_reassigning recovery clock expired orphans rest _).symm
  | done result => cases h

end SweepStage

end AgentLearning
