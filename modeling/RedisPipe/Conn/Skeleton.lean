import RedisPipe.Conn.Manager

/-!
# The manager's skeleton

What the manager's invariants talk about is a small part of the connection: `conn.state`,
`conn.c`, who holds `conn.mutex`, the goroutines' program counters, how many sessions
have been started, and the ghost log of fault-driven closes (`Mgr`). The data under the
shard locks only decides whether a step is blocked (`lockShards`) and what it drops.

`MTrans` lists every move of the skeleton, one constructor per transition of `mstep`
and one for `setErr`'s spawn of a reconnect goroutine, with the guards the code checks.
`mstep_mgr` and `setErr_mgr` show that the faithful model moves its skeleton only by
these transitions, in both versions and whatever the data, so every invariant of the
skeleton (`Conn/ManagerInv.lean`) holds of both connections. `mstep_data_cases` says once,
for both versions, what a manager step can do to the data under the shard locks.
-/

set_option autoImplicit false

namespace RedisPipe.Conn

/-! ## The skeleton and its moves -/

/-- The manager-visible part of a connection. -/
structure Mgr where
  state : ConnState
  c : Option Nat
  mutex : Option Nat
  threads : List Thread
  /-- The number of sessions `dial` has started. -/
  sessions : Nat
  faultCloses : List Nat

/-- The skeleton of a connection. -/
def Sys.mgr {D : Type} (s : Sys D) : Mgr :=
  ⟨s.state, s.c, s.mutex, s.threads, s.sessions.length, s.faultCloses⟩

/-- Goroutine `t` becomes `th`. -/
def Mgr.move (m : Mgr) (t : Nat) (th : Thread) : Mgr := { m with threads := m.threads.set t th }

section MoveSimp
variable (m : Mgr) (t : Nat) (th : Thread)
@[simp] theorem Mgr.move_state : (m.move t th).state = m.state := rfl
@[simp] theorem Mgr.move_c : (m.move t th).c = m.c := rfl
@[simp] theorem Mgr.move_mutex : (m.move t th).mutex = m.mutex := rfl
@[simp] theorem Mgr.move_threads : (m.move t th).threads = m.threads.set t th := rfl
@[simp] theorem Mgr.move_sessions : (m.move t th).sessions = m.sessions := rfl
@[simp] theorem Mgr.move_faultCloses : (m.move t th).faultCloses = m.faultCloses := rfl
end MoveSimp

/-- The points of `createConnection` (its pause included) and the end of a goroutine: every
goroutine but `control` runs `createConnection`. -/
def MPc.creating : MPc → Bool
  | .ccCheck | .ccStore | .dialing | .ccConnected | .ccReport | .ccFailStore _ | .ccFailDrop _
  | .ccExit | .ccRelock | .done => true
  | _ => false

/-- The points where a goroutine other than `Connect`'s holds `conn.mutex`. -/
def MPc.holding : MPc → Bool
  | .closeStore _ _ | .closeLocked _ _ | .ccCheck | .ccStore | .dialing | .ccConnected
  | .ccReport | .ccFailStore _ | .ccFailDrop _ | .ccExit => true
  | _ => false

/-- The points of `Connect`'s first connection attempt before its dial returns. -/
def MPc.first : MPc → Bool
  | .ccCheck | .ccStore | .dialing => true
  | _ => false

/-- Inside `reconnect`'s `closeConnection(neterr, false)`. -/
def MPc.closing : MPc → Bool
  | .closeStore _ forever | .closeLocked _ forever => !forever
  | _ => false

/-- The points whose next step stores `conn.state` (`ctlWait` leads to the store of
`connClosed`). -/
def MPc.storing : MPc → Bool
  | .closeStore _ _ | .ccStore | .dialing | .ccConnected | .ccFailStore _ | .ctlWait => true
  | _ => false

/-- The points each goroutine's code can be at. -/
def Thread.wf (th : Thread) : Bool :=
  match th.role, th.pc with
  | .control, .ctlWait | .control, .done => true
  | .control, .closeStore _ forever | .control, .closeLocked _ forever => forever
  | .control, _ => false
  | .reconnect _, .rcLock _ => true
  | .reconnect _, .closeStore _ forever | .reconnect _, .closeLocked _ forever => !forever
  | .connect, .connectDecide _ | .connect, .connectWaitCh => true
  | .connect, .ccRelock => false
  | _, pc => pc.creating

/-- Every move of the skeleton by goroutine `t`, which is `th` before the move. -/
inductive MTrans : Mgr → Mgr → Prop where
  /-- `reconnect` returns at once: the connection is closed, reconnection is disabled, or
  `conn.c` is another socket. -/
  | rcLockDone {m : Mgr} {t : Nat} {th : Thread} {err : RedisError} :
      m.threads[t]? = some th → th.pc = .rcLock err → m.mutex = none →
      MTrans m (m.move t { th with pc := .done })
  /-- `reconnect` takes the mutex and calls `closeConnection(neterr, false)`. -/
  | rcLockClose {m : Mgr} {t : Nat} {th : Thread} {err : RedisError} {k : Nat} :
      m.threads[t]? = some th → th.pc = .rcLock err → th.role = .reconnect k → m.mutex = none →
      m.state ≠ .closed → m.c = some k →
      MTrans m ({ m with mutex := some t, faultCloses := m.faultCloses ++ [k] }.move t
        { th with pc := .closeStore err false })
  | closeStore {m : Mgr} {t : Nat} {th : Thread} {err : RedisError} {forever : Bool} :
      m.threads[t]? = some th → th.pc = .closeStore err forever →
      MTrans m ({ m with state := if forever then .closed else .disconnected }.move t
        { th with pc := .closeLocked err forever })
  | closeLocked {m : Mgr} {t : Nat} {th : Thread} {err : RedisError} :
      m.threads[t]? = some th → th.pc = .closeLocked err false →
      MTrans m ({ m with c := none }.move t { th with pc := .ccCheck })
  | closeLockedForever {m : Mgr} {t : Nat} {th : Thread} {err : RedisError} :
      m.threads[t]? = some th → th.pc = .closeLocked err true →
      MTrans m ({ m with c := none, mutex := none }.move t { th with pc := .done })
  | ccCheck {m : Mgr} {t : Nat} {th : Thread} :
      m.threads[t]? = some th → th.pc = .ccCheck → m.c = none → m.state = .disconnected →
      MTrans m (m.move t { th with pc := .ccStore })
  | ccCheckExit {m : Mgr} {t : Nat} {th : Thread} :
      m.threads[t]? = some th → th.pc = .ccCheck → MTrans m (m.move t { th with pc := .ccExit })
  | ccStore {m : Mgr} {t : Nat} {th : Thread} {ch : Bool} :
      m.threads[t]? = some th → th.pc = .ccStore →
      MTrans m ({ m with state := .connecting }.move t { th with pc := .dialing, ch := ch })
  | dialOk {m : Mgr} {t : Nat} {th : Thread} :
      m.threads[t]? = some th → th.pc = .dialing →
      MTrans m ({ m with c := some m.sessions, sessions := m.sessions + 1 }.move t
        { th with pc := .ccConnected })
  | dialFail {m : Mgr} {t : Nat} {th : Thread} {err : RedisError} :
      m.threads[t]? = some th → th.pc = .dialing → MTrans m (m.move t { th with pc := .ccFailStore err })
  | ccConnected {m : Mgr} {t : Nat} {th : Thread} :
      m.threads[t]? = some th → th.pc = .ccConnected →
      MTrans m ({ m with state := .connected }.move t { th with pc := .ccReport })
  /-- `createConnection` returns to `Connect`. -/
  | returnConnect {m : Mgr} {t : Nat} {th : Thread} {r : Option RedisError} {ch : Bool} :
      m.threads[t]? = some th → th.pc = .ccReport ∨ th.pc = .ccExit → th.role = .connect →
      MTrans m (m.move t { th with pc := .connectDecide r, ch := ch })
  /-- `createConnection` returns to a goroutine that then releases the mutex and ends. -/
  | returnOther {m : Mgr} {t : Nat} {th : Thread} {ch : Bool} :
      m.threads[t]? = some th → th.pc = .ccReport ∨ th.pc = .ccExit → th.role ≠ .connect →
      MTrans m ({ m with mutex := none }.move t { th with pc := .done, ch := ch })
  | ccFailStore {m : Mgr} {t : Nat} {th : Thread} {err : RedisError} :
      m.threads[t]? = some th → th.pc = .ccFailStore err →
      MTrans m ({ m with state := .disconnected }.move t { th with pc := .ccFailDrop err })
  | ccFailDropConnect {m : Mgr} {t : Nat} {th : Thread} {err : RedisError} :
      m.threads[t]? = some th → th.pc = .ccFailDrop err → th.role = .connect →
      MTrans m (m.move t { th with pc := .connectDecide (some err) })
  /-- After a failed dial, the mutex is released for the reconnect pause. -/
  | ccFailDropOther {m : Mgr} {t : Nat} {th : Thread} {err : RedisError} :
      m.threads[t]? = some th → th.pc = .ccFailDrop err → th.role ≠ .connect →
      MTrans m ({ m with mutex := none }.move t { th with pc := .ccRelock })
  | ccRelock {m : Mgr} {t : Nat} {th : Thread} :
      m.threads[t]? = some th → th.pc = .ccRelock → m.mutex = none →
      MTrans m ({ m with mutex := some t }.move t { th with pc := .ccCheck })
  | ctlWait {m : Mgr} {t : Nat} {th : Thread} :
      m.threads[t]? = some th → th.pc = .ctlWait → m.mutex = none →
      MTrans m ({ m with mutex := some t }.move t { th with pc := .closeStore closeErr true })
  /-- `Connect` returns its error without starting anything. -/
  | connectDone {m : Mgr} {t : Nat} {th : Thread} {r : Option RedisError} :
      m.threads[t]? = some th → th.pc = .connectDecide r → MTrans m (m.move t { th with pc := .done })
  /-- `Connect` starts `control`, and the background `createConnection` after a failed
  first attempt, and returns the connection. -/
  | spawn {m : Mgr} {t : Nat} {th : Thread} {spawned : List Thread} :
      m.threads[t]? = some th → th.pc = .connectWaitCh ∨ (∃ r, th.pc = .connectDecide r) →
      spawned = [controlThread] ∨ spawned = [backgroundThread false, controlThread] →
      MTrans m ({ m with threads := m.threads ++ spawned }.move t { th with pc := .done })
  /-- `setErr`'s `go conn.reconnect(...)` for session `k`. -/
  | reconnect {m : Mgr} {k : Nat} {err : RedisError} :
      k < m.sessions → MTrans m { m with threads := m.threads ++ [⟨.reconnect k, .rcLock err, false⟩] }

/-! ## The faithful model moves its skeleton by `MTrans` -/

variable {D : Type} {ops : DataOps D} {cfg : Config} {s s' : Sys D} {t : Nat} {dial : DialResult}

theorem closeSock_length (ss : List Session) (c : Option Nat) : (closeSock ss c).length = ss.length := by
  cases c <;> simp [closeSock]

theorem mutex_eq_none {m : Option Nat} (h : ¬m.isSome = true) : m = none := by
  simpa using h

/-- `createConnection`'s return as a move of the skeleton. -/
theorem ccReturn_mgr (s : Sys D) (t : Nat) (th : Thread) (hpc : th.pc = .ccReport ∨ th.pc = .ccExit)
    (ht : s.threads[t]? = some th) (ch : Bool) (r : Option RedisError) :
    MTrans s.mgr (s.ccReturn t { th with ch := ch } r).mgr := by
  unfold Sys.ccReturn
  split
  · exact @MTrans.returnConnect _ _ th _ ch ht hpc ‹_›
  · exact @MTrans.returnOther _ _ th ch ht hpc ‹_›

/-- **Every manager step moves the skeleton by one `MTrans` transition, or not at all
(a panic).** -/
theorem mstep_mgr (h : mstep ops cfg s t dial = some s') : MTrans s.mgr s'.mgr ∨ s'.mgr = s.mgr := by
  unfold mstep at h
  split at h
  · cases h
  next th ht =>
  split at h
  next err hpc =>
    split at h
    next sock hrole =>
      split_ifs at h with hm hst hd hc <;> cases h
      · exact .inl (.rcLockDone ht hpc (mutex_eq_none hm))
      · exact .inl (.rcLockDone ht hpc (mutex_eq_none hm))
      · exact .inl (.rcLockClose ht hpc hrole (mutex_eq_none hm) hst hc)
      · exact .inl (.rcLockDone ht hpc (mutex_eq_none hm))
    · cases h
  next err forever hpc => cases h; exact .inl (.closeStore ht hpc)
  next err forever hpc =>
    split at h
    · cases h
    split at h
    · cases h; exact .inr rfl
    next d _ =>
    cases forever <;> simp only [if_true, if_false, Bool.false_eq_true] at h <;> cases h
    · exact .inl (by simpa [Sys.mgr, Sys.goto, Mgr.move, closeSock_length] using
        @MTrans.closeLocked s.mgr _ _ _ ht hpc)
    · exact .inl (by simpa [Sys.mgr, Sys.goto, Mgr.move, closeSock_length] using
        @MTrans.closeLockedForever s.mgr _ _ _ ht hpc)
  next hpc =>
    split_ifs at h with hgo <;> cases h
    · exact .inl (.ccCheck ht hpc hgo.1 hgo.2)
    · exact .inl (.ccCheckExit ht hpc)
  next hpc => cases h; exact .inl (@MTrans.ccStore _ _ th _ ht hpc)
  next hpc =>
    split at h
    · split_ifs at h; cases h
      exact .inl (by simpa [Sys.mgr, Sys.goto, Mgr.move] using @MTrans.dialOk s.mgr _ _ ht hpc)
    · cases h; exact .inl (.dialFail ht hpc)
  next hpc => cases h; exact .inl (.ccConnected ht hpc)
  next hpc =>
    split_ifs at h <;> cases h
    · exact .inr rfl
    · exact .inl (ccReturn_mgr s t th (.inl hpc) ht th.ch none)
  next err hpc => cases h; exact .inl (.ccFailStore ht hpc)
  next err hpc =>
    split_ifs at h with _ hrole <;> cases h
    · exact .inl (.ccFailDropConnect ht hpc hrole)
    · exact .inl (.ccFailDropOther ht hpc hrole)
  next hpc =>
    split_ifs at h with hm; cases h
    exact .inl (.ccRelock ht hpc (mutex_eq_none hm))
  next hpc =>
    cases h; exact .inl (ccReturn_mgr { s with chClosed := s.chClosed || th.ch } t th (.inr hpc) ht false _)
  next hpc =>
    split_ifs at h with hgo; cases h
    exact .inl (.ctlWait ht hpc hgo.2)
  next hpc => cases h; exact .inl (.spawn ht (.inr ⟨_, hpc⟩) (.inl rfl))
  next err hpc =>
    split_ifs at h <;> cases h
    · exact .inl (.connectDone ht hpc)
    · exact .inl (.spawn ht (.inr ⟨_, hpc⟩) (.inr rfl))
  next hpc =>
    split_ifs at h; cases h
    exact .inl (.spawn ht (.inl hpc) (.inl rfl))
  next => cases h

/-- **What a manager step does to the data**, in both versions: nothing (a panic at most);
`dropShardFutures` under the shard locks, in `closeConnection(_, false)` or after a failed
dial; in `closeConnection(_, true)`, the close of `conn.dirtyShard` and the drop, by a
goroutine at that point, which then ends (or the close's panic); or a new session. Every
change waits for the shard locks. -/
theorem mstep_data_cases (h : mstep ops cfg s t dial = some s') :
    (s'.data = s.data ∧ (s'.panicked = s.panicked ∨ s'.panicked = some .nilDeref)) ∨
    (ops.locksFree s.data = true ∧ ∃ err, s'.data = ops.drop err s.data ∧ s'.panicked = s.panicked) ∨
    (ops.locksFree s.data = true ∧ ∃ th err, s.threads[t]? = some th ∧ th.pc = .closeLocked err true ∧
      ((∃ d, ops.closeDirty s.data = some d ∧ s'.data = ops.drop err d ∧ s'.panicked = s.panicked ∧
          s'.state = s.state ∧ s'.threads = s.threads.set t { th with pc := .done }) ∨
        (ops.closeDirty s.data = none ∧ s'.data = s.data ∧ s'.panicked = some .closeOfClosed))) ∨
    (ops.locksFree s.data = true ∧ s'.data = ops.startSession s.data ∧ s'.panicked = s.panicked) := by
  unfold mstep at h
  split at h
  · cases h
  next th ht =>
  split at h
  -- `closeConnection`'s region under the shard locks
  case h_3 err forever hpc =>
    cases hfree : ops.locksFree s.data
    · simp [hfree] at h
    cases forever <;> simp only [hfree, Bool.not_true, Bool.false_eq_true, if_false, if_true] at h
    · cases h; exact .inr (.inl ⟨rfl, err, rfl, rfl⟩)
    · split at h <;> cases h
      · exact .inr (.inr (.inl ⟨rfl, th, err, ht, hpc, .inr ⟨‹_›, rfl, rfl⟩⟩))
      · exact .inr (.inr (.inl ⟨rfl, th, err, ht, hpc, .inl ⟨_, ‹_›, rfl, rfl, rfl, rfl⟩⟩))
  -- the dial, and a new session under the shard locks
  case h_6 hpc =>
    split at h
    · split_ifs at h with hfree; cases h
      exact .inr (.inr (.inr ⟨by simpa using hfree, rfl, rfl⟩))
    · cases h; exact .inl ⟨rfl, .inl rfl⟩
  -- the drop after a failed dial
  case h_10 err hpc =>
    split_ifs at h with hfree <;> cases h <;> exact .inr (.inl ⟨by simpa using hfree, err, rfl, rfl⟩)
  -- every other step leaves the data alone: `reconnect`'s checks, then the rest
  case h_1 =>
    split at h
    · split_ifs at h <;> cases h <;> exact .inl ⟨rfl, .inl rfl⟩
    · cases h
  all_goals first
    | (cases h; done)
    | (cases h; exact .inl ⟨rfl, .inl rfl⟩)
    | (cases h; exact .inl ⟨Sys.ccReturn_data _ _ _ _, .inl (Sys.ccReturn_panicked _ _ _ _)⟩)
    | (split_ifs at h <;> cases h <;> first
        | exact .inl ⟨rfl, .inl rfl⟩
        | exact .inl ⟨rfl, .inr rfl⟩
        | exact .inl ⟨Sys.ccReturn_data _ _ _ _, .inl (Sys.ccReturn_panicked _ _ _ _)⟩)

/-- `setErr`'s spawn of a reconnect goroutine moves the skeleton by `MTrans.reconnect`. -/
theorem setErr_mgr (k : Nat) (e : RedisError) :
    MTrans s.mgr (s.setErr k e).mgr ∨ (s.setErr k e).mgr = s.mgr := by
  unfold Sys.setErr
  split
  · exact .inr rfl
  next one hk =>
    split
    · exact .inr rfl
    · exact .inl (by simpa [Sys.mgr] using
        @MTrans.reconnect s.mgr _ (e.withField .connection) (List.getElem?_eq_some_iff.mp hk).1)

/-- The buffered version's `setErr` spawns a reconnect goroutine on every call. -/
theorem setErrBuffered_mgr (k : Nat) (e : RedisError) :
    MTrans s.mgr (s.setErrBuffered k e).mgr ∨ (s.setErrBuffered k e).mgr = s.mgr := by
  unfold Sys.setErrBuffered
  split
  · exact .inr rfl
  next one hk =>
    exact .inl (by split <;> simpa [Sys.mgr] using
        @MTrans.reconnect s.mgr _ e (List.getElem?_eq_some_iff.mp hk).1)

end RedisPipe.Conn
