import Mathlib.Data.Finset.Card
import Portfolio.Lib.Interleaving

/-!
# The connection pool

`ConnectionPool` and `PooledConnection` (`milestone-1.3/pool`). Each lock section, queue operation
and counter update is one step of a call; what the callbacks (`connection_factory`, `is_valid`,
`close`) and the clock do is decided by the surroundings (`Env`). Connections are compared by
identity. Of the leak detector the keys are kept, its times are not read by the pool.
-/

namespace Portfolio.Pool

/-! ### Configuration -/

structure PoolConfig where
  minConnections : Int := 1
  maxConnections : Int := 10
  acquisitionTimeout : Rat := 5
  /-- Whether a factory is given. -/
  connectionFactory : Bool := false

/-- `__post_init__` -/
def PoolConfig.postInit (config : PoolConfig) : Except String Unit :=
  if config.minConnections < 0 then .error "min_connections must be >= 0"
  else if config.maxConnections ≤ 0 then .error "max_connections must be > 0"
  else if config.minConnections > config.maxConnections then
    .error "min_connections cannot exceed max_connections"
  else if config.acquisitionTimeout ≤ 0 then .error "acquisition_timeout must be positive"
  else if !config.connectionFactory then .error "connection_factory must be provided"
  else .ok ()

theorem PoolConfig.bounds_of_postInit {config : PoolConfig} (h : config.postInit = .ok ()) :
    0 ≤ config.minConnections ∧ 0 < config.maxConnections ∧
      config.minConnections ≤ config.maxConnections := by
  unfold postInit at h
  split at h
  · cases h
  split at h
  · cases h
  split at h
  · cases h
  omega

/-! ### The pool -/

/-- The identity of a connection. -/
abbrev Conn := Nat

structure PooledConnection where
  raw : Conn
  closed : Bool := false
  deriving DecidableEq, Repr

structure ConnectionPool where
  available : List Conn := []
  inUse : Finset Conn := ∅
  totalConnections : Int := 0
  acquiredAt : Finset Conn := ∅
  /-- The connections that were handed out. -/
  pooled : List PooledConnection := []
  deriving DecidableEq

/-- `_create_connection`, once the factory has returned. -/
def ConnectionPool.createConnection (p : ConnectionPool) : ConnectionPool :=
  { p with totalConnections := p.totalConnections + 1 }

/-- `__init__`; `made` are the connections that the factory returns. -/
def ConnectionPool.new (config : PoolConfig) (made : Nat → Conn) : ConnectionPool :=
  (List.range config.minConnections.toNat).foldl
    (fun p n => { p.createConnection with available := p.available ++ [made n] }) {}

/-- What a health check gives: `unhealthy` is a false answer or an `Exception` of `is_valid`,
`escapes` an exception that `_is_healthy` does not catch. -/
inductive Health where
  | healthy
  | unhealthy
  | escapes
  deriving DecidableEq, Repr

/-- What the surroundings of a step decide. -/
structure Env where
  /-- The connection that the factory returns, if it does not raise. -/
  factory : Option Conn := none
  health : Health := .healthy
  closeRaises : Bool := false
  /-- The deadline has passed. -/
  expired : Bool := false
  deriving DecidableEq, Repr

/-! ### Calls -/

/-- A call of `acquire` or `PooledConnection.close`, by what it does next. -/
inductive Call where
  /-- `get_nowait` -/
  | polling
  /-- The queue was empty: the section under the lock. -/
  | allocating
  /-- The pool was full: `remaining` is computed. -/
  | timing
  /-- `get(timeout=remaining)` -/
  | waiting
  | validating (c : Conn)
  /-- `_in_use.add` -/
  | registering (c : Conn)
  /-- `record_acquisition` and the return. -/
  | recording (c : Conn)
  | acquired (n : Nat)
  /-- `PoolExhaustedError` -/
  | exhausted
  /-- Another exception was raised. -/
  | failed
  /-- `if not self._closed` -/
  | closing (n : Nat)
  /-- `self._closed = True` -/
  | marking (n : Nat)
  /-- The section of `release` under the lock. -/
  | releasing (c : Conn)
  /-- `record_release` -/
  | unrecording (c : Conn)
  | revalidating (c : Conn)
  /-- `_available.put` -/
  | returning (c : Conn)
  | released
  /-- `connection.close()` of `_dispose_connection`, called by `acquire` or by `release`. -/
  | disposing (c : Conn) (acquiring : Bool)
  /-- Its `finally`. -/
  | discounting (c : Conn) (acquiring raised : Bool)
  deriving DecidableEq, Repr

/-- Where a call goes after `_dispose_connection`. -/
def Call.disposed (acquiring raised : Bool) : Call :=
  if raised then .failed else if acquiring then .polling else .released

/-- The next step of a call. -/
def Call.next (config : PoolConfig) (env : Env) (p : ConnectionPool) : Call → ConnectionPool × Call
  | .polling => match p.available with
    | c :: rest => ({ p with available := rest }, .validating c)
    | [] => (p, .allocating)
  | .allocating =>
    if p.totalConnections < config.maxConnections then
      match env.factory with
      | some c => (p.createConnection, .validating c)
      | none => (p, .failed)
    else (p, .timing)
  | .timing => if env.expired then (p, .exhausted) else (p, .waiting)
  | .waiting => match p.available with
    | c :: rest => ({ p with available := rest }, .validating c)
    | [] => if env.expired then (p, .exhausted) else (p, .waiting)
  | .validating c => match env.health with
    | .healthy => (p, .registering c)
    | .unhealthy => (p, .disposing c true)
    | .escapes => (p, .failed)
  | .registering c => ({ p with inUse := insert c p.inUse }, .recording c)
  | .recording c =>
    ({ p with acquiredAt := insert c p.acquiredAt, pooled := p.pooled ++ [{ raw := c }] },
      .acquired p.pooled.length)
  | .closing n => match p.pooled[n]? with
    | some w => (p, if w.closed then .released else .marking n)
    | none => (p, .released)
  | .marking n => match p.pooled[n]? with
    | some w => ({ p with pooled := p.pooled.set n { w with closed := true } }, .releasing w.raw)
    | none => (p, .released)
  | .releasing c =>
    if c ∈ p.inUse then ({ p with inUse := p.inUse.erase c }, .unrecording c) else (p, .released)
  | .unrecording c => ({ p with acquiredAt := p.acquiredAt.erase c }, .revalidating c)
  | .revalidating c => match env.health with
    | .healthy => (p, .returning c)
    | .unhealthy => (p, .disposing c false)
    | .escapes => (p, .failed)
  | .returning c => ({ p with available := p.available ++ [c] }, .released)
  | .disposing c acquiring => (p, .discounting c acquiring env.closeRaises)
  | .discounting _ acquiring raised =>
    ({ p with totalConnections := p.totalConnections - 1 }, .disposed acquiring raised)
  | .acquired n => (p, .acquired n)
  | .exhausted => (p, .exhausted)
  | .failed => (p, .failed)
  | .released => (p, .released)

/-- What a step can do: what it finds, and the pool and the call after it. -/
inductive Call.Step (config : PoolConfig) (env : Env) (p : ConnectionPool) :
    Call → ConnectionPool → Call → Prop
  | poll {c rest} (queue : p.available = c :: rest) :
    Step config env p .polling { p with available := rest } (.validating c)
  | empty (queue : p.available = []) : Step config env p .polling p .allocating
  | create {c} (room : p.totalConnections < config.maxConnections) (factory : env.factory = some c) :
    Step config env p .allocating p.createConnection (.validating c)
  | refused (room : p.totalConnections < config.maxConnections) (factory : env.factory = none) :
    Step config env p .allocating p .failed
  | full (full : config.maxConnections ≤ p.totalConnections) : Step config env p .allocating p .timing
  | patient (early : env.expired = false) : Step config env p .timing p .waiting
  | late (late : env.expired = true) : Step config env p .timing p .exhausted
  | get {c rest} (queue : p.available = c :: rest) :
    Step config env p .waiting { p with available := rest } (.validating c)
  | wait (queue : p.available = []) (early : env.expired = false) : Step config env p .waiting p .waiting
  | giveUp (queue : p.available = []) (late : env.expired = true) : Step config env p .waiting p .exhausted
  | accept {c} (health : env.health = .healthy) : Step config env p (.validating c) p (.registering c)
  | reject {c} (health : env.health = .unhealthy) : Step config env p (.validating c) p (.disposing c true)
  | escape {c} (health : env.health = .escapes) : Step config env p (.validating c) p .failed
  | register {c} :
    Step config env p (.registering c) { p with inUse := insert c p.inUse } (.recording c)
  | handOut {c} :
    Step config env p (.recording c)
      { p with acquiredAt := insert c p.acquiredAt, pooled := p.pooled ++ [{ raw := c }] }
      (.acquired p.pooled.length)
  | find {n w} (found : p.pooled[n]? = some w) (isOpen : w.closed = false) :
    Step config env p (.closing n) p (.marking n)
  | closed {n} : Step config env p (.closing n) p .released
  | mark {n w} (found : p.pooled[n]? = some w) :
    Step config env p (.marking n) { p with pooled := p.pooled.set n { w with closed := true } }
      (.releasing w.raw)
  | unknown {n} : Step config env p (.marking n) p .released
  | remove {c} (inUse : c ∈ p.inUse) :
    Step config env p (.releasing c) { p with inUse := p.inUse.erase c } (.unrecording c)
  | ignore {c} : Step config env p (.releasing c) p .released
  | unrecord {c} :
    Step config env p (.unrecording c) { p with acquiredAt := p.acquiredAt.erase c } (.revalidating c)
  | keep {c} (health : env.health = .healthy) : Step config env p (.revalidating c) p (.returning c)
  | drop {c} (health : env.health = .unhealthy) : Step config env p (.revalidating c) p (.disposing c false)
  | raise {c} (health : env.health = .escapes) : Step config env p (.revalidating c) p .failed
  | giveBack {c} :
    Step config env p (.returning c) { p with available := p.available ++ [c] } .released
  | close {c acquiring} :
    Step config env p (.disposing c acquiring) p (.discounting c acquiring env.closeRaises)
  | discount {c acquiring raised} :
    Step config env p (.discounting c acquiring raised)
      { p with totalConnections := p.totalConnections - 1 } (.disposed acquiring raised)
  | acquired {n} : Step config env p (.acquired n) p (.acquired n)
  | exhausted : Step config env p .exhausted p .exhausted
  | failed : Step config env p .failed p .failed
  | released : Step config env p .released p .released

theorem Call.next_step (config : PoolConfig) (env : Env) (p : ConnectionPool) (k : Call) :
    k.Step config env p (k.next config env p).1 (k.next config env p).2 := by
  cases k with
  | polling =>
    simp only [next]
    split
    · exact .poll ‹_›
    · exact .empty ‹_›
  | allocating =>
    simp only [next]
    split
    · rename_i room
      cases factory : env.factory with
      | none => exact .refused room factory
      | some c => exact .create room factory
    · rename_i hfull
      exact .full (Int.not_lt.1 hfull)
  | timing =>
    simp only [next]
    cases expired : env.expired with
    | true => exact .late expired
    | false => exact .patient expired
  | waiting =>
    simp only [next]
    split
    · exact .get ‹_›
    · rename_i queue
      cases expired : env.expired with
      | true => exact .giveUp queue expired
      | false => exact .wait queue expired
  | validating c =>
    simp only [next]
    cases health : env.health with
    | healthy => exact .accept health
    | unhealthy => exact .reject health
    | escapes => exact .escape health
  | closing n =>
    simp only [next]
    split
    · rename_i w found
      cases isOpen : w.closed with
      | true => exact .closed
      | false => exact .find found isOpen
    · exact .closed
  | marking n =>
    simp only [next]
    split
    · exact .mark ‹_›
    · exact .unknown
  | releasing c =>
    simp only [next]
    split
    · exact .remove ‹_›
    · exact .ignore
  | revalidating c =>
    simp only [next]
    cases health : env.health with
    | healthy => exact .keep health
    | unhealthy => exact .drop health
    | escapes => exact .raise health
  | registering c => exact .register
  | recording c => exact .handOut
  | acquired n => exact .acquired
  | exhausted => exact .exhausted
  | failed => exact .failed
  | unrecording c => exact .unrecord
  | returning c => exact .giveBack
  | released => exact .released
  | disposing c acquiring => exact .close
  | discounting c acquiring raised => exact .discount

/-- What a thread asks of the pool. -/
inductive Request where
  | acquire
  /-- `close` of the `n`-th connection that was handed out. -/
  | close (n : Nat)
  deriving DecidableEq, Repr

def Request.start : Request → Call
  | .acquire => .polling
  | .close n => .closing n

def protocol (config : PoolConfig) : Protocol ConnectionPool Request Call Env where
  start := Request.start
  next := Call.next config

/-- Any threads over one pool. -/
def poolMachine (config : PoolConfig) (made : Nat → Conn) :
    Machine (Threads ConnectionPool Call) (Sched Request Env) Unit :=
  (protocol config).machine (.new config made)

/-! ### Where the connections are -/

/-- The connection that a call has in transit. -/
def Call.carried : Call → Option Conn
  | .validating c | .registering c | .unrecording c | .revalidating c | .returning c
  | .disposing c _ | .discounting c _ _ => some c
  | _ => none

/-- Calls with a connection in transit. -/
def inTransit (s : Threads ConnectionPool Call) : Nat :=
  (s.calls.map fun k => k.carried.toList.length).sum

/-- Idle, in use and in transit. -/
def existing (s : Threads ConnectionPool Call) : Nat :=
  s.shared.available.length + s.shared.inUse.card + inTransit s

end Portfolio.Pool
