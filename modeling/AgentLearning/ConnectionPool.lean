import Mathlib.Data.Int.Notation
import Mathlib.Data.Nat.Notation

/-!
# Connection pool

`src/persistence/connection_pool.py`. A connection is an object, so one that is made is none that
there was before. A `get_connection` that finds nothing waits for up to five seconds, while other
calls come, and then goes on; a `close_all` takes what is idle until nothing is.
-/

namespace AgentLearning

structure RedisConnectionPool (γ : Type) where
  maxConnections : ℤ := 10
  idle : List γ := []
  created : ℕ := 0

namespace RedisConnectionPool

variable {γ : Type} (pool : RedisConnectionPool γ)

/-- `fakeRedis` is what `FakeRedis(server=self._server)` makes; with none the call waits. -/
def getConnection (fakeRedis : γ) : Option γ × RedisConnectionPool γ :=
  match pool.idle with
  | conn :: idle => (some conn, { pool with idle })
  | [] =>
    if pool.created < pool.maxConnections then
      (some fakeRedis, { pool with created := pool.created + 1 })
    else (none, pool)

/-- The end of `self._idle.get(timeout=5.0)`, which raises `queue.Empty` if nothing has come. -/
def getIdle : Option γ × RedisConnectionPool γ :=
  match pool.idle with
  | conn :: idle => (some conn, { pool with idle })
  | [] => (none, pool)

def releaseConnection (conn : γ) : RedisConnectionPool γ :=
  { pool with idle := pool.idle ++ [conn] }

def closeAll : RedisConnectionPool γ := { pool with idle := [], created := 0 }

def poolSize : ℕ := pool.created

end RedisConnectionPool

/-! ## Borrowers -/

/-- A pool and those who use it; the connections are numbered as they are made. -/
structure Lending where
  pool : RedisConnectionPool ℕ
  made : ℕ := 0
  borrowed : List ℕ := []
  waiting : ℕ := 0

inductive PoolCall
  | getConnection
  /-- A `get_connection` that waits comes to an end. -/
  | waited
  | releaseConnection (conn : ℕ)
  | closeAll
  deriving DecidableEq

inductive PoolReply
  | lent (conn : ℕ)
  | waits
  | empty
  | done
  deriving DecidableEq

namespace Lending

def exec (s : Lending) : PoolCall → PoolReply × Lending
  | .getConnection =>
    match s.pool.getConnection s.made with
    | (some conn, pool) =>
      (.lent conn, { s with pool, made := s.made + 1, borrowed := s.borrowed ++ [conn] })
    | (none, pool) => (.waits, { s with pool, waiting := s.waiting + 1 })
  | .waited =>
    if s.waiting = 0 then (.done, s)
    else
      match s.pool.getIdle with
      | (some conn, pool) =>
        (.lent conn, { s with pool, borrowed := s.borrowed ++ [conn], waiting := s.waiting - 1 })
      | (none, pool) => (.empty, { s with pool, waiting := s.waiting - 1 })
  | .releaseConnection conn =>
    (.done, { s with pool := s.pool.releaseConnection conn, borrowed := s.borrowed.erase conn })
  | .closeAll => (.done, { s with pool := s.pool.closeAll })

end Lending

end AgentLearning
