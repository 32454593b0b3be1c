import RedisPipe.Buffered.Pipeline

/-!
# The buffered-writer connection as a transition system

The same shape as the raw-packet version's (`Raw/System.lean`): a state is the connection
(`Sys BufData`), an action is one step of one goroutine, with the choices the schedule and
the network make, and `BReachable` collects every state some interleaving leads to.
-/

set_option autoImplicit false

namespace RedisPipe.Conn

variable (cfg : Config) (ff : FloatFormat)

/-- One step of one goroutine of the buffered version. -/
inductive BAction where
  /-- A step of manager goroutine `t`; `dial` is what `conn.dial()` returns, if it runs. -/
  | manager (t : Nat) (dial : DialResult)
  /-- `SendAsk(req, cb, n, asking)` on shard `i`; `inactive` is `!cb.Active()`. -/
  | sendAsk (i : Nat) (req : Request) (cb : Future) (n : BitVec 64) (asking inactive : Bool)
  /-- `SendBatchFlags(reqs, cb, start, flags)` on shard `i`. -/
  | sendBatchFlags (i : Nat) (reqs : List Request) (cb : Future) (start : BitVec 64) (flags : Nat)
      (inactive : Bool)
  /-- `SendTransaction(reqs, cb, off)` on shard `i`. -/
  | sendTransaction (i : Nat) (reqs : List Request) (cb : Nat) (off : BitVec 64)
      (inactive inactiveLater : Bool)
  /-- The blocked dirty-shard send of shard `i`'s lock holder goes through. -/
  | resume (i : Nat)
  | writer (k : Nat) (sel : Sel) (ok : Bool)
  | reader (k : Nat) (r : ReadResult)
  | cancel

/-- The state after `a`, or `none` when `a` cannot happen. -/
def bstep (s : Sys BufData) (a : BAction) : Option (Sys BufData) :=
  if s.panicked.isSome then none
  else match a with
    | .manager t dial => mstep bufOps cfg s t dial
    | .sendAsk i req cb n asking inactive =>
      if s.returned ∧ i < cfg.concurrency then bsendAsk cfg ff s i req cb n asking inactive else none
    | .sendBatchFlags i reqs cb start flags inactive =>
      if s.returned ∧ i < cfg.concurrency then bsendBatchFlags cfg ff s i reqs cb start flags inactive
      else none
    | .sendTransaction i reqs cb off inactive inactiveLater =>
      if s.returned ∧ i < cfg.concurrency then
        bsendTransaction cfg ff s i reqs cb off inactive inactiveLater
      else none
    | .resume i => bresume cfg s i
    | .writer k sel ok => bwstep cfg s k sel ok
    | .reader k r => brstep s k r
    | .cancel => some { s with ctxDone := true }

/-- The states some interleaving reaches from `Connect`'s. -/
inductive BReachable : Sys BufData → Prop where
  | init : BReachable (Sys.initial cfg (BufData.initial cfg))
  | step {s s' : Sys BufData} (a : BAction) : BReachable s → bstep cfg ff s a = some s' → BReachable s'

/-- The state after a list of actions. -/
def brun : Sys BufData → List BAction → Option (Sys BufData)
  | s, [] => some s
  | s, a :: as => (bstep cfg ff s a).bind fun s' => brun s' as

variable {cfg ff}

theorem BReachable.run {s s' : Sys BufData} {as : List BAction} (hs : BReachable cfg ff s)
    (h : brun cfg ff s as = some s') : BReachable cfg ff s' := by
  induction as generalizing s with
  | nil => cases h; exact hs
  | cons a as ih =>
    obtain ⟨s₁, h₁, h₂⟩ := Option.bind_eq_some.mp h
    exact ih (.step a hs h₁) h₂

/-- A run that ends where `p` holds. -/
theorem brun_of_any {s : Sys BufData} {as : List BAction} {p : Sys BufData → Bool}
    (h : (brun cfg ff s as).any p = true) : ∃ s', brun cfg ff s as = some s' ∧ p s' = true := by
  cases hr : brun cfg ff s as with
  | none => rw [hr] at h; cases h
  | some s' => rw [hr] at h; exact ⟨s', rfl, h⟩

/-- A run from `Connect`'s state that ends where `p` holds shows a reachable such state. -/
theorem exists_breachable_of_run {as : List BAction} {p : Sys BufData → Bool}
    (h : (brun cfg ff (Sys.initial cfg (BufData.initial cfg)) as).any p = true) :
    ∃ s, BReachable cfg ff s ∧ p s = true := by
  obtain ⟨s, hr, hp⟩ := brun_of_any h
  exact ⟨s, BReachable.init.run hr, hp⟩

/-! ## Runs -/

/-- `Connect` on one shard, then `Send(PING, cb 1, 0)`. -/
def connectPing : List BAction :=
  List.replicate 6 (.manager 0 .ok) ++ [.sendAsk 0 pingReq (.cb 1) 0 false false]

/-- Session 0's writer takes the shard, hands the batch over and writes it; its reader takes
the batch and reads the reply. -/
def deliverPing : List BAction :=
  [.writer 0 .recv true, .writer 0 .recv true, .writer 0 .recv true, .writer 0 .recv true,
    .reader 0 (.value 1), .reader 0 (.value 1)]

end RedisPipe.Conn
