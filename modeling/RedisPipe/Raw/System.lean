import RedisPipe.Raw.Pipeline

/-!
# The raw-packet connection as a transition system

A state is the connection (`Sys RawData`); an action is one step of one goroutine: a
manager goroutine, a producer's call, a session's writer or reader, or the cancellation
of the connection's context (`conn.Close()`, or the end of the parent context).
Producers only call a connection `Connect` has returned; nothing moves after a panic.
`Reachable` collects every state some interleaving leads to.
-/

set_option autoImplicit false

namespace RedisPipe.Conn

variable (cfg : Config) (ff : FloatFormat)

/-- One step of one goroutine, with every choice the schedule and the network make. -/
inductive Action where
  /-- A step of manager goroutine `t`; `dial` is what `conn.dial()` returns, if it runs. -/
  | manager (t : Nat) (dial : DialResult)
  /-- `SendAsk(req, cb, n, asking)` on shard `i`; `cancelled` is `cb.Cancelled()`. -/
  | sendAsk (i : Nat) (req : Request) (cb : Future) (n : BitVec 64) (asking cancelled : Bool)
  /-- `SendBatchFlags(reqs, cb, start, flags)` on shard `i`. -/
  | sendBatchFlags (i : Nat) (reqs : List Request) (cb : Future) (start : BitVec 64) (flags : Nat)
      (cancelled : Bool)
  /-- `SendTransaction(reqs, cb, off)` on shard `i`. -/
  | sendTransaction (i : Nat) (reqs : List Request) (cb : Nat) (off : BitVec 64)
      (cancelled cancelledLater : Bool)
  /-- The blocked dirty-shard send of shard `i`'s lock holder goes through. -/
  | resume (i : Nat)
  | writer (k : Nat) (pick checkFails ok : Bool)
  | reader (k : Nat) (r : ReadResult)
  | cancel

/-- The state after `a`, or `none` when `a` cannot happen. -/
def step (s : Sys RawData) (a : Action) : Option (Sys RawData) :=
  if s.panicked.isSome then none
  else match a with
    | .manager t dial => mstep rawOps cfg s t dial
    | .sendAsk i req cb n asking cancelled =>
      if s.returned ∧ i < cfg.concurrency then sendAsk cfg s i req cb n asking cancelled else none
    | .sendBatchFlags i reqs cb start flags cancelled =>
      if s.returned ∧ i < cfg.concurrency then sendBatchFlags cfg s i reqs cb start flags cancelled
      else none
    | .sendTransaction i reqs cb off cancelled cancelledLater =>
      if s.returned ∧ i < cfg.concurrency then
        sendTransaction cfg s i reqs cb off cancelled cancelledLater
      else none
    | .resume i => resume cfg s i
    | .writer k pick checkFails ok => wstep cfg ff s k pick checkFails ok
    | .reader k r => rstep s k r
    | .cancel => some { s with ctxDone := true }

/-- The states some interleaving reaches from `Connect`'s. -/
inductive Reachable : Sys RawData → Prop where
  | init : Reachable (Sys.initial cfg (RawData.initial cfg))
  | step {s s' : Sys RawData} (a : Action) : Reachable s → step cfg ff s a = some s' → Reachable s'

/-- The state after a list of actions. -/
def run : Sys RawData → List Action → Option (Sys RawData)
  | s, [] => some s
  | s, a :: as => (step cfg ff s a).bind fun s' => run s' as

variable {cfg ff}

theorem Reachable.run {s s' : Sys RawData} {as : List Action} (hs : Reachable cfg ff s)
    (h : run cfg ff s as = some s') : Reachable cfg ff s' := by
  induction as generalizing s with
  | nil => cases h; exact hs
  | cons a as ih =>
    obtain ⟨s₁, h₁, h₂⟩ := Option.bind_eq_some.mp h
    exact ih (.step a hs h₁) h₂

/-- A run that ends where `p` holds. -/
theorem run_of_any {s : Sys RawData} {as : List Action} {p : Sys RawData → Bool}
    (h : (RedisPipe.Conn.run cfg ff s as).any p = true) : ∃ s', RedisPipe.Conn.run cfg ff s as = some s' ∧ p s' = true := by
  cases hr : RedisPipe.Conn.run cfg ff s as with
  | none => rw [hr] at h; cases h
  | some s' => rw [hr] at h; exact ⟨s', rfl, h⟩

/-- A run from a reachable state that ends where `p` holds shows a reachable such state. -/
theorem Reachable.exists_of_run {s : Sys RawData} {as : List Action} {p : Sys RawData → Bool}
    (hs : Reachable cfg ff s) (h : (RedisPipe.Conn.run cfg ff s as).any p = true) :
    ∃ s', Reachable cfg ff s' ∧ p s' = true := by
  obtain ⟨s', hr, hp⟩ := run_of_any h
  exact ⟨s', hs.run hr, hp⟩

/-- A run from `Connect`'s state that ends where `p` holds shows a reachable such state. -/
theorem exists_reachable_of_run {as : List Action} {p : Sys RawData → Bool}
    (h : (run cfg ff (Sys.initial cfg (RawData.initial cfg)) as).any p = true) :
    ∃ s, Reachable cfg ff s ∧ p s = true :=
  Reachable.init.exists_of_run h

/-! ## Runs on one shard -/

/-- `Connect`'s first attempt dials, stores `connConnected` and returns; `control` starts. -/
def connectOk : List Action := List.replicate 6 (.manager 0 .ok)

/-- `Send(PING, cb, 0)` on the first shard, for callback `id`. -/
def sendPing (id : Nat) : Action := .sendAsk 0 pingReq (.cb id) 0 false false

/-- Session `k`'s reader gets an I/O error. -/
def readFault (k : Nat) : Action := .reader k (.redisError (netError k) true)

end RedisPipe.Conn
