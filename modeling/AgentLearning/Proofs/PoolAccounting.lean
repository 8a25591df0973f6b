import AgentLearning.ConnectionPool
import AgentLearning.Lib.Trace
import Mathlib.Data.List.Nodup

/-!
# What the pool counts

Every connection there is, lent or idle, is there once, and the count never goes over the maximum.
The count is the number of connections as long as nobody has borrowed one when the pool is closed:
`close_all` sets it to zero, and a connection that is lent then comes back uncounted.
-/

namespace AgentLearning

namespace Lending

open Trace

abbrev PoolEvent := Trace.Event Lending PoolCall PoolReply

variable {s : Lending} {m : ℤ} {calls : List PoolCall}

/-- A pool that nobody has used yet. -/
def start (m : ℤ) : Lending where
  pool := { maxConnections := m }

/-- What is given back is borrowed. -/
def Returns (e : PoolEvent) : Prop :=
  ∀ conn, e.input = .releaseConnection conn → conn ∈ e.before.borrowed

/-- The count is that of the connections lent and idle and within the maximum, and nothing is lent
twice. -/
structure Accounted (s : Lending) : Prop where
  size : s.pool.poolSize = s.borrowed.length + s.pool.idle.length
  bound : s.pool.poolSize ≤ s.pool.maxConnections
  once : s.borrowed.Nodup

/-- The connections lent and idle. -/
def connections (s : Lending) : List ℕ := s.borrowed ++ s.pool.idle

/-- What holds of the pool, however it is closed. -/
structure Lent (m : ℤ) (s : Lending) : Prop where
  maximum : s.pool.maxConnections = m
  bound : s.pool.created ≤ m
  once : s.connections.Nodup
  made : ∀ conn ∈ s.connections, conn < s.made

/-- A call lends a connection or takes one back, makes one, or drops the idle ones. -/
theorem exec_cases {call : PoolCall} (hreturns : Returns (event exec s call)) :
    (exec s call).2.pool.maxConnections = s.pool.maxConnections ∧ s.made ≤ (exec s call).2.made ∧
      (((exec s call).2.pool.created = s.pool.created
        ∧ (exec s call).2.connections.Perm s.connections)
      ∨ (s.pool.created < s.pool.maxConnections
        ∧ (exec s call).2.pool.created = s.pool.created + 1
        ∧ (exec s call).2.connections = s.connections ++ [s.made]
        ∧ (exec s call).2.made = s.made + 1)
      ∨ (call = .closeAll ∧ (exec s call).2.pool.created = 0
        ∧ (exec s call).2.connections = s.borrowed)) := by
  rcases call with _ | _ | conn | _
  · rcases hidle : s.pool.idle with _ | ⟨conn, idle⟩
    · by_cases hroom : s.pool.created < s.pool.maxConnections
      · simp [exec, connections, RedisConnectionPool.getConnection, hidle, hroom]
      · simp [exec, connections, RedisConnectionPool.getConnection, hidle, hroom]
    · simp [exec, connections, RedisConnectionPool.getConnection, hidle]
  · by_cases hwaiting : s.waiting = 0
    · simp [exec, hwaiting]
    · rcases hidle : s.pool.idle with _ | ⟨conn, idle⟩ <;>
        simp [exec, connections, RedisConnectionPool.getIdle, hidle, hwaiting]
  · have hborrowed := List.perm_cons_erase (hreturns conn rfl)
    refine ⟨rfl, Nat.le_refl _, .inl ⟨rfl, ?_⟩⟩
    calc s.borrowed.erase conn ++ (s.pool.idle ++ [conn])
      _ |>.Perm (s.borrowed.erase conn ++ conn :: s.pool.idle) :=
          (List.perm_append_singleton conn _).append_left _
      _ |>.Perm (conn :: s.borrowed.erase conn ++ s.pool.idle) := List.perm_middle
      _ |>.Perm (s.borrowed ++ s.pool.idle) := hborrowed.symm.append_right _
  · exact ⟨rfl, Nat.le_refl _, .inr (.inr ⟨rfl, rfl, List.append_nil _⟩)⟩

theorem lent_start (h : 1 ≤ m) : Lent m (start m) where
  maximum := rfl
  bound := by simp [start]; omega
  once := List.nodup_nil
  made := by simp [start, connections]

theorem Lent.exec (h : Lent m s) {call : PoolCall} (hreturns : Returns (event exec s call)) :
    Lent m (exec s call).2 := by
  obtain ⟨hmaximum, hmade, hcases⟩ := exec_cases hreturns
  refine ⟨hmaximum.trans h.maximum, ?_, ?_, fun conn hconn => ?_⟩
  · have hbound := h.bound
    have hm := h.maximum
    rcases hcases with ⟨hcreated, -⟩ | ⟨hroom, hcreated, -⟩ | ⟨-, hcreated, -⟩ <;>
      rw [hcreated] <;> omega
  · rcases hcases with ⟨-, hperm⟩ | ⟨-, -, hnew, -⟩ | ⟨-, -, hclosed⟩
    · exact hperm.nodup_iff.2 h.once
    · rw [hnew, ← List.concat_eq_append, List.nodup_concat]
      exact ⟨fun hmem => Nat.lt_irrefl _ (h.made _ hmem), h.once⟩
    · rw [hclosed]
      exact h.once.of_append_left
  · rcases hcases with ⟨-, hperm⟩ | ⟨-, -, hnew, hlater⟩ | ⟨-, -, hclosed⟩
    · exact Nat.lt_of_lt_of_le (h.made conn (hperm.mem_iff.1 hconn)) hmade
    · rw [hnew, List.mem_append, List.mem_singleton] at hconn
      rcases hconn with hconn | rfl
      · exact Nat.lt_of_lt_of_le (h.made conn hconn) hmade
      · omega
    · rw [hclosed] at hconn
      exact Nat.lt_of_lt_of_le (h.made conn (List.mem_append_left _ hconn)) hmade

theorem lent_run (h : 1 ≤ m) (hreturns : ∀ e ∈ events exec (start m) calls, Returns e) :
    Lent m (final exec (start m) calls) :=
  final_induct_events (lent_start h) fun _ he _ _ heq hlent => hlent.exec (heq ▸ hreturns _ he)

/-- Nobody has borrowed a connection when the pool is closed. -/
def ClosesIdle (e : PoolEvent) : Prop := e.input = .closeAll → e.before.borrowed = []

theorem size_exec (hsize : s.pool.created = s.connections.length) {call : PoolCall}
    (hreturns : Returns (event exec s call)) (hcloses : ClosesIdle (event exec s call)) :
    (exec s call).2.pool.created = (exec s call).2.connections.length := by
  obtain ⟨-, -, ⟨hcreated, hperm⟩ | ⟨-, hcreated, hnew, -⟩ | ⟨rfl, hcreated, hclosed⟩⟩ :=
    exec_cases hreturns
  · rw [hcreated, hsize, hperm.length_eq]
  · rw [hcreated, hnew, hsize, List.length_append, List.length_singleton]
  · have hborrowed : s.borrowed = [] := hcloses rfl
    rw [hcreated, hclosed, hborrowed, List.length_nil]

theorem size_run (hreturns : ∀ e ∈ events exec (start m) calls, Returns e)
    (hcloses : ∀ e ∈ events exec (start m) calls, ClosesIdle e) :
    (final exec (start m) calls).pool.created
      = (final exec (start m) calls).connections.length :=
  final_induct_events (P := fun s => s.pool.created = s.connections.length) rfl
    fun _ he _ _ heq hsize => size_exec hsize (heq ▸ hreturns _ he) (heq ▸ hcloses _ he)

/-- The pool is accounted for after any part of a run just when each `close_all` of the run finds
nothing borrowed. -/
theorem accounted_iff (h : 1 ≤ m) (hreturns : ∀ e ∈ events exec (start m) calls, Returns e) :
    (∀ before, before <+: calls → Accounted (final exec (start m) before)) ↔
      ∀ e ∈ events exec (start m) calls, ClosesIdle e := by
  constructor
  · intro haccounted e he hclose
    obtain ⟨before, call, after, rfl, rfl⟩ := exists_of_mem_events he
    obtain rfl : call = .closeAll := hclose
    have hsize := (haccounted (before ++ [.closeAll]) ⟨after, by simp⟩).size
    rw [final_concat] at hsize
    exact List.eq_nil_of_length_eq_zero (Nat.eq_zero_of_add_eq_zero hsize.symm).1
  · intro hcloses before hbefore
    have hsub := events_subset exec (start m) hbefore
    have hlent := lent_run h fun e he => hreturns e (hsub he)
    have hsize := size_run (fun e he => hreturns e (hsub he)) fun e he => hcloses e (hsub he)
    exact {
      size := hsize.trans (List.length_append ..)
      bound := Int.le_trans hlent.bound (Int.le_of_eq hlent.maximum.symm)
      once := (List.nodup_append.1 hlent.once).1 }

/-- A pool of one connection, which is lent, given back and lent again. -/
theorem accounted_iff_one_connection :
    let calls := [.getConnection, .releaseConnection 0, .getConnection]
    (∀ before, before <+: calls → Accounted (final exec (start 1) before)) ↔
      ∀ e ∈ events exec (start 1) calls, ClosesIdle e := by
  refine accounted_iff (by decide) ?_
  simp [events, Returns, exec, start, RedisConnectionPool.getConnection,
    RedisConnectionPool.releaseConnection]

/-- A connection that is lent when the pool is closed is not counted any more. -/
theorem closed_while_lent :
    ¬ Accounted (final exec (start 1) [.getConnection, .closeAll]) :=
  fun h => absurd h.size (by decide)

end Lending

end AgentLearning
