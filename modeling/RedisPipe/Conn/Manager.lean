import RedisPipe.AppendRequest

/-!
# The connection manager: `Connect`, `createConnection`, `closeConnection`, `reconnect`,
`control`

`request_writer.go:298-379` and `:783-925` (the raw-packet version) and
`redisconn/conn.go:95-167` and `:508-644` (the buffered-writer version). The two versions
of the package share this code line for line except in what happens under the shard locks
(`dropShardFutures`, and closing `conn.dirtyShard`) and in what the sessions' I/O
goroutines are, so the manager is modelled once, over the data it drives (`DataOps`).

The machine is a list of goroutines, each a program counter at one of the points where
another goroutine can interleave: every atomic load or store of `conn.state`, every
acquisition of `conn.mutex`, every region run under the shard locks, and the dial. The
mutex is held by a goroutine (`Sys.mutex`); a step that the code runs under it is only
enabled for its holder, and an acquisition only when it is free. `Connect`'s first,
synchronous `createConnection(false, nil)` runs in `Connect`'s own goroutine without the
mutex, as in the source.

Sockets are numbered by the sessions their dial started (`conn.c` is a session's index);
a session's manager-visible state is its control channel, its once-latch and `one.err`.
-/

set_option autoImplicit false

namespace RedisPipe.Conn

/-- `conn.state`: `connDisconnected`, `connConnecting`, `connConnected`, `connClosed`. -/
inductive ConnState where
  | disconnected | connecting | connected | closed
  deriving DecidableEq, Repr

/-- `Opts`, the fields the modelled code reads. `reconnectPause` only by its sign:
`ReconnectPause < 0` disables reconnection. -/
structure Opts where
  concurrency : Nat
  async : Bool
  reconnectPause : Int
  deriving DecidableEq, Repr

/-- The options after `Connect` has defaulted them. -/
structure Config where
  /-- `conn.opts.Concurrency`: the number of shards. -/
  concurrency : Nat
  async : Bool
  /-- `opts.ReconnectPause < 0`. -/
  reconnectDisabled : Bool
  concurrency_pos : 0 < concurrency

/-- `Connect`'s defaulting of the options: the shard count becomes `dflt` when the option
is zero or above `maxprocs*128`, computed in `uint32`. -/
def Config.defaulted (opts : Opts) (maxprocs dflt : Nat) (hd : 0 < dflt) : Config where
  concurrency :=
    if opts.concurrency = 0 ∨ opts.concurrency > maxprocs * 128 % 2 ^ 32 then dflt
    else opts.concurrency
  async := opts.async
  reconnectDisabled := decide (opts.reconnectPause < 0)
  concurrency_pos := by split <;> omega

/-- The raw-packet version's `Connect`: `conn.opts.Concurrency = maxprocs`. -/
def Config.ofOpts (opts : Opts) (maxprocs : Nat) (hmax : 0 < maxprocs) : Config :=
  Config.defaulted opts maxprocs maxprocs hmax

/-- The buffered-writer version's `Connect`: `conn.opts.Concurrency = maxprocs * 2`, in
`uint32`. -/
def Config.ofOptsBuffered (opts : Opts) (maxprocs : Nat) (hmax : 0 < maxprocs * 2 % 2 ^ 32) : Config :=
  Config.defaulted opts maxprocs (maxprocs * 2 % 2 ^ 32) hmax

/-- The capacity of `conn.dirtyShard`, `Concurrency*2`, in both versions. -/
def dirtyCap (cfg : Config) : Nat := cfg.concurrency * 2

/-- What ends the process. -/
inductive Panic where
  /-- A send on a closed channel. -/
  | sendOnClosed
  /-- A `close` of a closed channel. -/
  | closeOfClosed
  /-- `conn.c.LocalAddr()` with `conn.c == nil`. -/
  | nilDeref
  /-- `futures[0]` of an empty batch. -/
  | indexOutOfRange
  /-- The buffered writer's `panic("len(packet) == 0 && len(futures) != 0")`. -/
  | emptyPacket
  deriving DecidableEq, Repr

/-- The manager-visible half of a session (`oneconn`). -/
structure Session where
  /-- `close(one.control)` has happened. -/
  controlClosed : Bool
  /-- `one.erronce` has run its function. -/
  errOnce : Bool
  /-- `one.err`. -/
  err : Option RedisError
  /-- `conn.c.Close()` has been called on this session's socket by `closeConnection`. -/
  sockClosed : Bool
  deriving DecidableEq, Repr

/-- A session just started by `dial`. -/
def Session.fresh : Session := ⟨false, false, none, false⟩

/-- Which goroutine a manager thread is. -/
inductive Role where
  /-- `Connect`'s own goroutine; it runs the first `createConnection(false, nil)`. -/
  | connect
  /-- `go func() { conn.mutex.Lock(); ...; conn.createConnection(true, ch) }()`. -/
  | background
  /-- `go conn.reconnect(neterr, one.c)`, spawned by `setErr` for the session whose socket is
  `sock`. -/
  | reconnect (sock : Nat)
  /-- `go conn.control()`. -/
  | control
  deriving DecidableEq, Repr

/-- The program counter of a manager thread. -/
inductive MPc where
  /-- `reconnect(neterr, c)`, before `conn.mutex.Lock()`. -/
  | rcLock (err : RedisError)
  /-- `closeConnection(neterr, forever)`: the store of `conn.state`. -/
  | closeStore (err : RedisError) (forever : Bool)
  /-- `closeConnection`: the region under `lockShards`. -/
  | closeLocked (err : RedisError) (forever : Bool)
  /-- `createConnection`: the loop test `conn.c == nil && state == connDisconnected`. -/
  | ccCheck
  /-- `createConnection`: the store of `connConnecting`, and `close(ch)`. -/
  | ccStore
  /-- `conn.dial()`. -/
  | dialing
  /-- The store of `connConnected` after a successful dial. -/
  | ccConnected
  /-- `conn.report(LogConnected, conn.c.LocalAddr().String(), ...)`. -/
  | ccReport
  /-- The store of `connDisconnected` after a failed dial. -/
  | ccFailStore (err : RedisError)
  /-- `lockShards; dropShardFutures(err); unlockShards` after a failed dial. -/
  | ccFailDrop (err : RedisError)
  /-- `conn.mutex.Lock()`: after the reconnect pause, or at the start of the background
  goroutine. -/
  | ccRelock
  /-- After the loop: `close(ch)` and the return. -/
  | ccExit
  /-- `control()`, waiting for `<-conn.ctx.Done()`. -/
  | ctlWait
  /-- `Connect`, after its own `createConnection(false, nil)` returned `err`. -/
  | connectDecide (err : Option RedisError)
  /-- `Connect` in async mode, at `<-ch`. -/
  | connectWaitCh
  | done
  deriving DecidableEq, Repr

/-- A manager goroutine. `ch` says it still holds an unclosed `ch` (the async background
`createConnection`). -/
structure Thread where
  role : Role
  pc : MPc
  ch : Bool
  deriving DecidableEq, Repr

/-- `go conn.control()`. -/
def controlThread : Thread := ⟨.control, .ctlWait, false⟩

/-- `go func() { conn.mutex.Lock(); defer conn.mutex.Unlock(); conn.createConnection(true, ch) }()`. -/
def backgroundThread (ch : Bool) : Thread := ⟨.background, .ccRelock, ch⟩

/-- The connection. The manager's fields are `Connection`'s; `data` is what lives under the
shard locks and in the sessions' I/O goroutines, which the two versions differ in. -/
structure Sys (D : Type) where
  state : ConnState
  /-- `conn.c`: the socket of a session, or `nil`. -/
  c : Option Nat
  /-- The goroutine holding `conn.mutex`. -/
  mutex : Option Nat
  /-- `conn.ctx` is cancelled. -/
  ctxDone : Bool
  /-- `Connect` has returned the connection to its caller, who may now send on it. -/
  returned : Bool
  /-- Async mode's `ch` is closed. -/
  chClosed : Bool
  threads : List Thread
  sessions : List Session
  panicked : Option Panic
  /-- Ghost: the sockets whose faults have made `reconnect` run `closeConnection(_, false)`,
  in order. -/
  faultCloses : List Nat
  data : D

/-- What the manager does to the data of one version. -/
structure DataOps (D : Type) where
  /-- `dropShardFutures(err)`, run with every shard lock held. -/
  drop : RedisError → D → D
  /-- `close(conn.dirtyShard)` in `closeConnection(_, true)`; `none` is a panic. -/
  closeDirty : D → Option D
  /-- `go conn.writer(...)` and `go conn.reader(...)` for a new session. -/
  startSession : D → D
  /-- `lockShards` can proceed: no goroutine holds a shard lock across a blocking step. -/
  locksFree : D → Bool

/-- The outcome of `conn.dial()`: connected, or the error it returned, which
`createConnection` passes on unchanged. Which error that is (`ErrDial` or `ErrConnSetup`
wrapping the network's error, `ErrAuth`, a mismatched reply, or in the buffered version the
handshake's raw write error) depends on the network and on the server's replies, so it is
left free. -/
inductive DialResult where
  | ok
  | fail (err : RedisError)
  deriving DecidableEq, Repr

variable {D : Type}

/-- `conn.closeErr`: `conn.err(ErrKindContext, ErrContextClosed).Wrap(conn.ctx.Err())`. -/
def closeErr : RedisError := ((newErr .context .contextClosed).withField .connection).wrap .context

/-- The connection `Connect` builds, before any goroutine has run. -/
def Sys.initial (cfg : Config) (d : D) : Sys D where
  state := .disconnected
  c := none
  mutex := none
  ctxDone := false
  returned := false
  chClosed := false
  threads := if cfg.async then [backgroundThread true, ⟨.connect, .connectWaitCh, false⟩]
    else [⟨.connect, .ccCheck, false⟩]
  sessions := []
  panicked := none
  faultCloses := []
  data := d

/-- Move thread `t` to `pc`. -/
def Sys.goto (s : Sys D) (t : Nat) (th : Thread) (pc : MPc) : Sys D :=
  { s with threads := s.threads.set t { th with pc := pc } }

section GotoSimp
variable (s : Sys D) (t : Nat) (th : Thread) (pc : MPc)
@[simp] theorem Sys.goto_data : (s.goto t th pc).data = s.data := rfl
@[simp] theorem Sys.goto_panicked : (s.goto t th pc).panicked = s.panicked := rfl
@[simp] theorem Sys.goto_state : (s.goto t th pc).state = s.state := rfl
@[simp] theorem Sys.goto_threads : (s.goto t th pc).threads = s.threads.set t { th with pc := pc } := rfl
end GotoSimp

/-- Mark the socket `conn.c` closed. -/
def closeSock (ss : List Session) : Option Nat → List Session
  | none => ss
  | some k => ss.modify (fun x => { x with sockClosed := true }) k

/-- `createConnection` returned `err` to thread `t`: `Connect` goes on deciding; the
background and reconnect goroutines return, releasing `conn.mutex`. -/
def Sys.ccReturn (s : Sys D) (t : Nat) (th : Thread) (err : Option RedisError) : Sys D :=
  if th.role = .connect then s.goto t th (.connectDecide err)
  else { s with mutex := none }.goto t th .done

@[simp] theorem Sys.ccReturn_data (s : Sys D) (t : Nat) (th : Thread) (err : Option RedisError) :
    (s.ccReturn t th err).data = s.data := by
  unfold Sys.ccReturn; split <;> rfl

@[simp] theorem Sys.ccReturn_panicked (s : Sys D) (t : Nat) (th : Thread) (err : Option RedisError) :
    (s.ccReturn t th err).panicked = s.panicked := by
  unfold Sys.ccReturn; split <;> rfl

/-- One step of manager thread `t`; `none` when it is blocked or finished. -/
def mstep (ops : DataOps D) (cfg : Config) (s : Sys D) (t : Nat) (dial : DialResult) :
    Option (Sys D) :=
  match s.threads[t]? with
  | none => none
  | some th =>
    match th.pc with
    | .rcLock err =>
      match th.role with
      | .reconnect sock =>
        if s.mutex.isSome then none
        else if s.state = .closed then some (s.goto t th .done)
        else if cfg.reconnectDisabled then some ({ s with ctxDone := true }.goto t th .done)
        else if s.c = some sock then
          some ({ s with mutex := some t, faultCloses := s.faultCloses ++ [sock] }.goto t th
            (.closeStore err false))
        else some (s.goto t th .done)
      | _ => none
    | .closeStore err forever =>
      some ({ s with state := if forever then .closed else .disconnected }.goto t th
        (.closeLocked err forever))
    | .closeLocked err forever =>
      if !ops.locksFree s.data then none
      else match (if forever then ops.closeDirty s.data else some s.data) with
        | none => some { s with panicked := some .closeOfClosed }
        | some d =>
          let s' := { s with data := ops.drop err d, c := none, sessions := closeSock s.sessions s.c }
          if forever then some ({ s' with mutex := none }.goto t th .done)
          else some (s'.goto t th .ccCheck)
    | .ccCheck =>
      if s.c = none ∧ s.state = .disconnected then some (s.goto t th .ccStore)
      else some (s.goto t th .ccExit)
    | .ccStore =>
      some ({ s with state := .connecting, chClosed := s.chClosed || th.ch }.goto t
        { th with ch := false } .dialing)
    | .dialing =>
      match dial with
      | .ok =>
        if !ops.locksFree s.data then none
        else
          let s' := { s with c := some s.sessions.length, sessions := s.sessions ++ [Session.fresh],
                             data := ops.startSession s.data }
          some (s'.goto t th .ccConnected)
      | .fail err => some (s.goto t th (.ccFailStore err))
    | .ccConnected => some ({ s with state := .connected }.goto t th .ccReport)
    | .ccReport =>
      if s.c = none then some { s with panicked := some .nilDeref } else some (s.ccReturn t th none)
    | .ccFailStore err => some ({ s with state := .disconnected }.goto t th (.ccFailDrop err))
    | .ccFailDrop err =>
      if !ops.locksFree s.data then none
      else
        let s' := { s with data := ops.drop err s.data }
        if th.role = .connect then some (s'.goto t th (.connectDecide (some err)))
        else some ({ s' with mutex := none }.goto t th .ccRelock)
    | .ccRelock => if s.mutex.isSome then none else some ({ s with mutex := some t }.goto t th .ccCheck)
    | .ccExit =>
      let s' := { s with chClosed := s.chClosed || th.ch }
      some (s'.ccReturn t { th with ch := false } (if s.state = .closed then some closeErr else none))
    | .ctlWait =>
      if s.ctxDone ∧ s.mutex = none then some ({ s with mutex := some t }.goto t th (.closeStore closeErr true))
      else none
    | .connectDecide none =>
      some ({ s with returned := true, threads := s.threads ++ [controlThread] }.goto t th .done)
    | .connectDecide (some err) =>
      if cfg.reconnectDisabled ∨ err.code = .auth then some (s.goto t th .done)
      else
        let spawned := [backgroundThread false, controlThread]
        some ({ s with returned := true, threads := s.threads ++ spawned }.goto t th .done)
    | .connectWaitCh =>
      if s.chClosed then
        some ({ s with returned := true, threads := s.threads ++ [controlThread] }.goto t th .done)
      else none
    | .done => none

/-- `setErr` of the raw-packet version: the once-latch closes the control channel, records
`one.err` and spawns the reconnect, all at most once per session. A net error that is
not a `*redis.Error` arrives here already wrapped as `ErrKindIO`/`ErrIO`. -/
def Sys.setErr (s : Sys D) (k : Nat) (neterr : RedisError) : Sys D :=
  match s.sessions[k]? with
  | none => s
  | some one =>
    if one.errOnce then s
    else
      let err := neterr.withField .connection
      { s with sessions := s.sessions.set k { one with controlClosed := true, errOnce := true, err := some err },
               threads := s.threads ++ [⟨.reconnect k, .rcLock err, false⟩] }

section SetErrSimp
variable (s : Sys D) (k : Nat) (e : RedisError)
@[simp] theorem Sys.setErr_data : (s.setErr k e).data = s.data := by
  unfold Sys.setErr; split <;> (try split) <;> rfl
@[simp] theorem Sys.setErr_panicked : (s.setErr k e).panicked = s.panicked := by
  unfold Sys.setErr; split <;> (try split) <;> rfl
end SetErrSimp

/-- `setErr` of the buffered-writer version: the once-latch closes the control channel and
records `one.err`, but `go conn.reconnect(neterr, one)` is outside it and runs on every
call, with the unwrapped `neterr`. -/
def Sys.setErrBuffered (s : Sys D) (k : Nat) (neterr : RedisError) : Sys D :=
  match s.sessions[k]? with
  | none => s
  | some one =>
    let one' := { one with controlClosed := true, errOnce := true,
                           err := some (neterr.withField .connection) }
    let sessions := if one.errOnce then s.sessions else s.sessions.set k one'
    { s with sessions := sessions, threads := s.threads ++ [⟨.reconnect k, .rcLock neterr, false⟩] }

section SetErrBufferedSimp
variable (s : Sys D) (k : Nat) (e : RedisError)
@[simp] theorem Sys.setErrBuffered_data : (s.setErrBuffered k e).data = s.data := by
  unfold Sys.setErrBuffered; split <;> rfl
@[simp] theorem Sys.setErrBuffered_panicked : (s.setErrBuffered k e).panicked = s.panicked := by
  unfold Sys.setErrBuffered; split <;> rfl
end SetErrBufferedSimp

end RedisPipe.Conn
