import RedisPipe.Raw.System
import RedisPipe.Conn.ManagerInv

/-!
# What each step of the raw-packet connection does

One lemma per kind of step says all that the step can do, so that an invariant of the whole
system is a case analysis over these lemmas and never unfolds a step again:

* the manager's skeleton moves by one `MTrans` transition or not at all (`step_mgr`), so
  `MInv` holds in every reachable state (`Reachable.mInv`);
* a manager step leaves the data alone, drops the shards' futures, closes
  `conn.dirtyShard` (from `closeConnection(_, true)` only) or starts a session
  (`mstep_data`);
* a producer resolves its own futures at once, or appends entries to a shard whose lock is
  free while the connection is neither closed nor disconnected (`Produced`);
* a writer step receives a shard index, swaps a shard, or changes nothing but its own pipe
  (`wstep_cases`); a reader step changes nothing but its own pipe, and never its writer
  (`rstep_cases`).
-/

set_option autoImplicit false

namespace RedisPipe.Conn

variable {cfg : Config} {ff : FloatFormat} {s s' : Sys RawData}

/-! ## Bookkeeping -/

section Simp
variable (s : Sys RawData) (k : Nat) (p : Pipe) (rs rs' : List Resolution)
@[simp] theorem Sys.setPipe_mgr : (s.setPipe k p).mgr = s.mgr := rfl
@[simp] theorem Sys.setPipe_panicked : (s.setPipe k p).panicked = s.panicked := rfl
@[simp] theorem Sys.log_mgr : (s.log rs).mgr = s.mgr := rfl
@[simp] theorem Sys.log_panicked : (s.log rs).panicked = s.panicked := rfl
@[simp] theorem Sys.log_nil : s.log [] = s := by simp [Sys.log]
@[simp] theorem Sys.log_log : (s.log rs).log rs' = s.log (rs ++ rs') := by simp [Sys.log]
@[simp] theorem Sys.setPipe_sessions : (s.setPipe k p).sessions = s.sessions := rfl
@[simp] theorem Sys.log_sessions : (s.log rs).sessions = s.sessions := rfl
@[simp] theorem Sys.log_pipes : (s.log rs).data.pipes = s.data.pipes := rfl
@[simp] theorem Sys.setPipe_log : (s.setPipe k p).log rs = (s.log rs).setPipe k p := rfl
@[simp] theorem Sys.setPipe_setPipe (q : Pipe) : (s.setPipe k p).setPipe k q = s.setPipe k q := by
  simp [Sys.setPipe]
end Simp

theorem list_set_self {α : Type} {l : List α} {i : Nat} {a : α} (h : l[i]? = some a) : l.set i a = l := by
  apply List.ext_getElem?; intro j
  rw [List.getElem?_set]
  split_ifs <;> simp_all [List.getElem?_eq_none]

theorem Sys.setPipe_self {s : Sys RawData} {k : Nat} {p : Pipe} (h : s.data.pipes[k]? = some p) :
    s.setPipe k p = s := by
  simp only [Sys.setPipe, list_set_self h]

/-- A write's outcome, as far as the data goes: the pipe moves on, or to the deferred
hand-off. -/
theorem Sys.writeThen_data (s : Sys RawData) (k : Nat) (p : Pipe) (ok : Bool) (next : Pipe → Pipe) :
    (s.writeThen k p ok next).data =
      { s.data with pipes := s.data.pipes.set k (if s.canWrite k ok then next p.flush else p.goto .deferSend) } ∧
    (s.writeThen k p ok next).panicked = s.panicked := by
  unfold Sys.writeThen; split <;> simp [Sys.setPipe, *]

/-! ## The manager's skeleton -/

@[simp] theorem enqueue_mgr (s : Sys RawData) (i : Nat) (added : List Entry) :
    (enqueue cfg s i added).mgr = s.mgr := by
  unfold enqueue; dsimp only; split_ifs <;> rfl

theorem writeThen_mgr (s : Sys RawData) (k : Nat) (p : Pipe) (ok : Bool) (next : Pipe → Pipe) :
    MTrans s.mgr (s.writeThen k p ok next).mgr ∨ (s.writeThen k p ok next).mgr = s.mgr := by
  unfold Sys.writeThen; split
  · exact .inr rfl
  · simpa using setErr_mgr k (netError k)

theorem receive_mgr {k : Nat} {p : Pipe} (h : s.receive k p = some s') : s'.mgr = s.mgr := by
  unfold Sys.receive at h; split at h
  · cases h; rfl
  · split_ifs at h; cases h; rfl

theorem wstep_mgr {k : Nat} {pick checkFails ok : Bool} (h : wstep cfg ff s k pick checkFails ok = some s') :
    MTrans s.mgr s'.mgr ∨ s'.mgr = s.mgr := by
  unfold wstep at h
  dsimp only at h
  repeat' split at h
  all_goals first
    | (cases h; first | exact .inr rfl | exact writeThen_mgr _ _ _ _ _)
    | exact .inr (receive_mgr h)
    | cases h

theorem rstep_mgr {k : Nat} {r : ReadResult} (h : rstep s k r = some s') : MTrans s.mgr s'.mgr ∨ s'.mgr = s.mgr := by
  unfold rstep at h
  dsimp only at h
  repeat' split at h
  all_goals first | (cases h; first | exact .inr rfl | simpa using setErr_mgr _ _) | cases h

/-! ## Producers -/

/-- What a producer's call on shard `i` can do: resolve futures at once and touch nothing
else, or append entries to shard `i` while its lock is free and the connection is neither
closed nor disconnected. -/
def Produced (cfg : Config) (s s' : Sys RawData) (i : Nat) : Prop :=
  (∃ rs, s' = s.log rs) ∨
    (s.state ≠ .closed ∧ s.state ≠ .disconnected ∧ s.data.locked i = false ∧
      ∃ added, s' = enqueue cfg s i added)

theorem Produced.log {i : Nat} (h : Produced cfg s s' i) (rs : List Resolution) : Produced cfg s (s'.log rs) i ∨
    ∃ added, s' = enqueue cfg s i added := by
  rcases h with ⟨rs₀, rfl⟩ | ⟨-, -, -, hq⟩
  · exact .inl (.inl ⟨rs₀ ++ rs, by simp⟩)
  · exact .inr hq

/-- The entries `doSend(req, cb, n, asking)` appends to its shard. -/
def rawSendBlock (req : Request) (cb : Future) (n : BitVec 64) (asking : Bool) : List Entry :=
  (if asking then [⟨.dumb, 0, askingReq⟩] else []) ++ [⟨cb, n, req⟩]

/-- The entries `doSendBatch(requests, cb, start, flags)` appends to its shard. -/
def rawBatchBlock (reqs : List Request) (cb : Future) (start : BitVec 64) (flags : Nat) : List Entry :=
  (if flags &&& doAsking ≠ 0 then [⟨.dumb, 0, askingReq⟩] else []) ++
    (if flags &&& doTransaction ≠ 0 then [⟨.dumb, 0, multiReq⟩] else []) ++ batchEntries cb start reqs ++
    (if flags &&& doTransaction ≠ 0 then [⟨cb, start + .ofNat 64 reqs.length, execReq⟩] else [])

/-- `doSend` either fails before the shard (or under its lock, with the state's error) and
changes nothing, or appends its entries. -/
theorem doSend_cases {i : Nat} {req : Request} {cb : Future} {n : BitVec 64} {asking cancelled : Bool}
    {e : Option RedisError} (h : doSend cfg s i req cb n asking cancelled = some (s', e)) :
    s' = s ∨ (e = none ∧ s.state ≠ .closed ∧ s.state ≠ .disconnected ∧ s.data.locked i = false ∧
      s' = enqueue cfg s i (rawSendBlock req cb n asking)) := by
  unfold doSend at h
  dsimp only at h
  repeat' split at h
  all_goals first
    | (cases h; done)
    | (cases h; exact .inl rfl)
    | (cases h; exact .inr ⟨rfl, ‹s.state = .closed → False›, ‹s.state = .disconnected → False›,
        by simpa using ‹¬s.data.locked i = true›, by simp [rawSendBlock, *]⟩)

theorem sendAsk_produced {i : Nat} {req : Request} {cb : Future} {n : BitVec 64} {asking cancelled : Bool}
    (h : sendAsk cfg s i req cb n asking cancelled = some s') : Produced cfg s s' i := by
  obtain ⟨⟨s₁, e⟩, h₁, rfl⟩ := Option.map_eq_some'.mp h
  rcases doSend_cases h₁ with rfl | ⟨rfl, h1, h2, h3, rfl⟩
  · cases e
    · exact .inl ⟨[], by simp⟩
    · exact .inl ⟨_, rfl⟩
  · exact .inr ⟨h1, h2, h3, _, rfl⟩

/-- `doSendBatch` fails before the shard (or under its lock) and changes nothing, or takes an
empty batch, whose `EXEC` index it may resolve with `[]interface{}{}`, or appends its
entries. -/
theorem doSendBatch_cases {i : Nat} {reqs : List Request} {cb : Future} {start : BitVec 64}
    {flags : Nat} {cancelled : Bool} {e : Option RedisError}
    (h : doSendBatch cfg s i reqs cb start flags cancelled = some (s', e)) :
    s' = s ∨ (e = none ∧ reqs = [] ∧ flags &&& doTransaction ≠ 0 ∧ s' = s.log [⟨cb, start, .emptyArray⟩]) ∨
      (e = none ∧ s.state ≠ .closed ∧ s.state ≠ .disconnected ∧ s.data.locked i = false ∧
        s' = enqueue cfg s i (rawBatchBlock reqs cb start flags)) := by
  unfold doSendBatch at h
  dsimp only at h
  repeat' split at h
  all_goals first
    | (cases h; done)
    | (cases h; exact .inl rfl)
    | (cases h; exact .inr (.inl ⟨rfl, ‹_›, ‹_›, rfl⟩))
    | (cases h; exact .inr (.inr ⟨rfl, ‹s.state = .closed → False›, ‹s.state = .disconnected → False›,
        by simpa using ‹¬s.data.locked i = true›, by simp [rawBatchBlock, *]⟩))

theorem sendBatchFlags_produced {i : Nat} {reqs : List Request} {cb : Future} {start : BitVec 64}
    {flags : Nat} {cancelled : Bool} (h : sendBatchFlags cfg s i reqs cb start flags cancelled = some s') :
    Produced cfg s s' i := by
  unfold sendBatchFlags at h
  split at h
  · cases h; exact .inl ⟨_, rfl⟩
  obtain ⟨⟨s₁, e⟩, h₁, rfl⟩ := Option.map_eq_some'.mp h
  rcases doSendBatch_cases h₁ with rfl | ⟨rfl, -, -, rfl⟩ | ⟨rfl, h1, h2, h3, rfl⟩
  · cases e
    · exact .inl ⟨[], by simp⟩
    · exact .inl ⟨_, rfl⟩
  · exact .inl ⟨_, rfl⟩
  · exact .inr ⟨h1, h2, h3, _, rfl⟩

theorem sendTransaction_produced {i : Nat} {reqs : List Request} {cb : Nat} {off : BitVec 64}
    {cancelled cancelledLater : Bool} (h : sendTransaction cfg s i reqs cb off cancelled cancelledLater = some s') :
    Produced cfg s s' i := by
  unfold sendTransaction at h
  split_ifs at h
  · cases h; exact .inl ⟨_, rfl⟩
  · exact sendBatchFlags_produced h

theorem Produced.mgr {i : Nat} (h : Produced cfg s s' i) : s'.mgr = s.mgr := by
  rcases h with ⟨rs, rfl⟩ | ⟨-, -, -, added, rfl⟩ <;> simp

/-- **Under the lock, a closed connection refuses `doSend`** with `ErrContextClosed` and
leaves every shard as it was. -/
theorem doSend_closed {i : Nat} {req : Request} {cb : Future} {n : BitVec 64} {asking : Bool}
    (hst : s.state = .closed) (hargs : checkArgs req = none) (hl : s.data.locked i = false) :
    doSend cfg s i req cb n asking false = some (s, some (newErrWrap .context .contextClosed .context)) := by
  simp [doSend, hst, hargs, hl]

/-- **Under the lock, a closed connection refuses `doSendBatch`** with `conn.closeErr`
(`ErrContextClosed`) and leaves every shard as it was. -/
theorem doSendBatch_closed {i : Nat} {reqs : List Request} {cb : Future} {start : BitVec 64} {flags : Nat}
    (hst : s.state = .closed) (hne : reqs ≠ []) (hl : s.data.locked i = false) :
    doSendBatch cfg s i reqs cb start flags false = some (s, some closeErr) := by
  simp [doSendBatch, hst, hne, hl]

@[simp] theorem enqueue_dirtyClosed (s : Sys RawData) (i : Nat) (added : List Entry) :
    (enqueue cfg s i added).data.dirtyClosed = s.data.dirtyClosed := by
  unfold enqueue; dsimp only; split_ifs <;> rfl

/-- A blocked producer's send goes through: on the closed channel it panics; otherwise
its index is queued and its list assigned. -/
theorem resume_cases {i : Nat} (h : resume cfg s i = some s') :
    ∃ fs, s.data.pending.getD i none = some fs ∧
      ((s.data.dirtyClosed = true ∧ s' = { s with panicked := some .sendOnClosed }) ∨
        (s.data.dirtyClosed = false ∧
          s' = { s with data := { s.data with dirty := s.data.dirty ++ [i], shards := s.data.shards.set i fs,
                                              pending := s.data.pending.set i none } })) := by
  unfold resume at h
  split at h
  · cases h
  next fs hfs =>
    refine ⟨fs, hfs, ?_⟩
    split_ifs at h with hc <;> cases h
    · exact .inl ⟨hc, rfl⟩
    · exact .inr ⟨by simpa using hc, rfl⟩

/-! ## The manager's data -/

/-- **What a manager step does to the data**: nothing (a panic at most); the shards' drop
of `closeConnection(_, false)` or a failed dial; `closeConnection(_, true)`'s close of
`conn.dirtyShard` and drop, by a goroutine at that point, which then ends (or the panic of
a second close); or a new session. Every change waits for the shard locks. -/
theorem mstep_data {t : Nat} {dial : DialResult} (h : mstep rawOps cfg s t dial = some s') :
    (s'.data = s.data ∧ (s'.panicked = s.panicked ∨ s'.panicked = some .nilDeref)) ∨
    (s.data.pending.all Option.isNone ∧ ∃ err, s'.data = s.data.drop err ∧ s'.panicked = s.panicked) ∨
    (s.data.pending.all Option.isNone ∧ ∃ th err, s.threads[t]? = some th ∧ th.pc = .closeLocked err true ∧
      ((s.data.dirtyClosed = false ∧ s'.data = { s.data with dirtyClosed := true }.drop err ∧
          s'.panicked = s.panicked ∧ s'.state = s.state ∧ s'.threads = s.threads.set t { th with pc := .done }) ∨
        (s.data.dirtyClosed = true ∧ s'.data = s.data ∧ s'.panicked = some .closeOfClosed))) ∨
    (s.data.pending.all Option.isNone ∧ s'.data = { s.data with pipes := s.data.pipes ++ [Pipe.fresh] } ∧
      s'.panicked = s.panicked) := by
  rcases mstep_data_cases h with h | h | ⟨hfree, th, err, ht, hpc, ⟨d, hd, h⟩ | ⟨hd, h⟩⟩ | h
  · exact .inl h
  · exact .inr (.inl h)
  -- `close(conn.dirtyShard)` goes through exactly when it is not yet closed
  · simp only [rawOps, Option.ite_none_left_eq_some, Option.some.injEq] at hd
    obtain ⟨hdc, rfl⟩ := hd
    exact .inr (.inr (.inl ⟨hfree, th, err, ht, hpc, .inl ⟨by simpa using hdc, h⟩⟩))
  · simp only [rawOps, ite_eq_left_iff, reduceCtorEq, imp_false, not_not] at hd
    exact .inr (.inr (.inl ⟨hfree, th, err, ht, hpc, .inr ⟨hd, h⟩⟩))
  · exact .inr (.inr (.inr h))

/-! ## Writers and readers -/

/-- The writer's points before a batch is handed over, where its `futures` is the empty
list it swaps into a shard. -/
def WPc.idle : WPc → Bool
  | .bigLoop | .swap _ | .serialize _ _ | .control | .nextShard => true
  | _ => false

/-- The writer's `futures` is empty at those points. -/
def Writer.clean (w : Writer) : Prop := w.pc.idle = true → w.futures = []

/-- Of the data, the step changes only session `k`'s pipe, to `p'`, and the log; it does not
panic. -/
def Sys.onlyPipe (s s' : Sys RawData) (k : Nat) (p' : Pipe) : Prop :=
  s'.data = { s.data with pipes := s.data.pipes.set k p', resolved := s'.data.resolved } ∧
    s'.panicked = s.panicked

theorem Sys.onlyPipe_setPipe (s : Sys RawData) (k : Nat) (p' : Pipe) : s.onlyPipe (s.setPipe k p') k p' :=
  ⟨rfl, rfl⟩

theorem Sys.onlyPipe_logSetPipe (s : Sys RawData) (k : Nat) (p' : Pipe) (rs : List Resolution) :
    s.onlyPipe ((s.log rs).setPipe k p') k p' := ⟨rfl, rfl⟩

theorem Sys.onlyPipe_setErr (s : Sys RawData) (k : Nat) (e : RedisError) (p' : Pipe) :
    s.onlyPipe ((s.setErr k e).setPipe k p') k p' := by
  constructor <;> simp [Sys.setPipe]

theorem Sys.onlyPipe_writeThen (s : Sys RawData) (k : Nat) (p : Pipe) (ok : Bool) (next : Pipe → Pipe) :
    s.onlyPipe (s.writeThen k p ok next) k (if s.canWrite k ok then next p.flush else p.goto .deferSend) :=
  ⟨by rw [(s.writeThen_data k p ok next).1], (s.writeThen_data k p ok next).2⟩

/-- `shardn, ok = <-conn.dirtyShard`: an index, or the closed and drained channel. -/
theorem receive_cases {k : Nat} {p : Pipe} (h : s.receive k p = some s') :
    (∃ i rest, s.data.dirty = i :: rest ∧
      s' = { s with data := { s.data with dirty := rest } }.setPipe k (p.goto (.swap i))) ∨
    (s.data.dirty = [] ∧ s.data.dirtyClosed = true ∧ s' = s.setPipe k (p.goto .deferSend)) := by
  unfold Sys.receive at h
  split at h
  next i rest hd => cases h; exact .inl ⟨i, rest, hd, rfl⟩
  next hd => split_ifs at h with hc; cases h; exact .inr ⟨hd, hc, rfl⟩

/-- **What a writer step does**: it receives a shard index (from the big loop or after a
batch), swaps a shard whose lock is free, or changes nothing but its own pipe, never from
or to a swap, and keeps its `futures` empty where it must be. -/
theorem wstep_cases {k : Nat} {pick checkFails ok : Bool} (h : wstep cfg ff s k pick checkFails ok = some s') :
    ∃ p, s.data.pipes[k]? = some p ∧
      ((∃ i rest, s.data.dirty = i :: rest ∧ (p.writer.pc = .bigLoop ∨ p.writer.pc = .nextShard) ∧
          s' = { s with data := { s.data with dirty := rest } }.setPipe k (p.goto (.swap i))) ∨
        (∃ i, p.writer.pc = .swap i ∧ s.data.locked i = false ∧
          s' = { s with data := { s.data with shards := s.data.shards.set i p.writer.futures } }.setPipe k
            { p with writer := ⟨.serialize (s.data.shards.getD i []) [], p.writer.packet, []⟩ }) ∨
        (∃ p', (∀ i, p.writer.pc ≠ .swap i) ∧ (∀ i, p'.writer.pc ≠ .swap i) ∧
          (p.writer.clean → p'.writer.clean) ∧ s.onlyPipe s' k p')) := by
  unfold wstep at h
  split at h
  · rename_i p one hp _
    refine ⟨p, hp, ?_⟩
    have hrecv : ∀ {s'}, (p.writer.pc = .bigLoop ∨ p.writer.pc = .nextShard) → s.receive k p = some s' →
        (∃ i rest, s.data.dirty = i :: rest ∧ (p.writer.pc = .bigLoop ∨ p.writer.pc = .nextShard) ∧
            s' = { s with data := { s.data with dirty := rest } }.setPipe k (p.goto (.swap i))) ∨
          (∃ p', (∀ i, p.writer.pc ≠ .swap i) ∧ (∀ i, p'.writer.pc ≠ .swap i) ∧
            (p.writer.clean → p'.writer.clean) ∧ s.onlyPipe s' k p') := fun hpc h => by
      rcases receive_cases h with ⟨i, rest, hd, rfl⟩ | ⟨-, -, rfl⟩
      · exact .inl ⟨i, rest, hd, hpc, rfl⟩
      · refine .inr ⟨_, fun i => by rcases hpc with h | h <;> simp [h], by simp,
          fun _ h => by simp [WPc.idle] at h, s.onlyPipe_setPipe k _⟩
    dsimp only at h
    split at h
    next hpc =>
      split_ifs at h
      · exact (hrecv (.inl hpc) h).imp_right .inr
      · cases h
        exact .inr (.inr ⟨_, by simp [hpc], by simp, fun _ h => by simp [WPc.idle] at h, s.onlyPipe_setPipe k _⟩)
    next i hpc =>
      split_ifs at h with hl
      cases h
      exact .inr (.inl ⟨i, hpc, by simpa using hl, rfl⟩)
    next kept hpc =>
      cases h
      refine .inr (.inr ⟨_, by simp [hpc], fun i => by split <;> simp, fun hc hi => ?_, s.onlyPipe_setPipe k _⟩)
      split at hi
      · assumption
      · simp [WPc.idle] at hi
    next e rest kept hpc =>
      split at h <;> cases h
      · exact .inr (.inr ⟨_, by simp [hpc], by simp, fun _ _ => rfl, s.onlyPipe_logSetPipe k _ _⟩)
      · exact .inr (.inr ⟨_, by simp [hpc], by simp, fun _ _ => rfl, s.onlyPipe_setPipe k _⟩)
    next hpc =>
      split_ifs at h <;> cases h
      · exact .inr (.inr ⟨_, by simp [hpc], by split <;> simp, fun _ => by split <;> simp [Writer.clean, WPc.idle],
          s.onlyPipe_writeThen k _ ok _⟩)
      · exact .inr (.inr ⟨_, by simp [hpc], by simp, fun _ => by simp [Writer.clean], s.onlyPipe_setPipe k _⟩)
      · exact .inr (.inr ⟨_, by simp [hpc], by split <;> simp, fun _ => by split <;> simp [Writer.clean, WPc.idle],
          s.onlyPipe_writeThen k _ ok _⟩)
    next hpc =>
      split_ifs at h; cases h
      exact .inr (.inr ⟨_, by simp [hpc], by simp, fun _ => by simp [Writer.clean], s.onlyPipe_setPipe k _⟩)
    next hpc =>
      cases h
      refine .inr (.inr ⟨_, by simp [hpc], by split <;> simp, fun hc _ => ?_, s.onlyPipe_setPipe k _⟩)
      simpa using hc (by simp [hpc, WPc.idle])
    next hpc =>
      split at h
      · exact (hrecv (.inr hpc) h).imp_right .inr
      · split_ifs at h <;> cases h
        · exact .inr (.inr ⟨_, by simp [hpc], by simp, fun _ h => by simp [WPc.idle] at h, s.onlyPipe_setPipe k _⟩)
        · refine .inr (.inr ⟨_, by simp [hpc], by simp, fun hc _ => ?_, s.onlyPipe_setPipe k _⟩)
          simpa using hc (by simp [hpc, WPc.idle])
        · refine .inr (.inr ⟨_, by simp [hpc], by split <;> simp, fun hc => ?_, s.onlyPipe_writeThen k _ ok _⟩)
          have := hc (by simp [hpc, WPc.idle])
          split <;> simp [Writer.clean, this]
    next hpc =>
      split_ifs at h <;> cases h
      · exact .inr (.inr ⟨_, by simp [hpc], by simp, fun _ h => by simp [WPc.idle] at h, s.onlyPipe_setPipe k _⟩)
      · exact .inr (.inr ⟨_, by simp [hpc], by simp, fun _ h => by simp [WPc.idle] at h, s.onlyPipe_setPipe k _⟩)
    next hpc => cases h
  · cases h

/-- The serialization loop's `if ...; err != nil` is taken for every entry: `err` is the
`error` variable the loop assigns `AppendRequest`'s `*redis.Error` to, and a nil pointer in
it is a non-nil interface. On a connected session, a `Send(PING)` and six writer steps that
take that branch leave `PING`'s bytes written to the socket, no entry handed to the reader,
and the future resolved at once with the nil error. -/
theorem ping_written_not_handed :
    ∃ s, Reachable oneShard noFloats s ∧
      s.data.pipes.map (fun p => (p.written, p.handed)) = [(Bytes.ofString "*1\r\n$4\r\nPING\r\n", [])] ∧
      s.data.resolved = [⟨.cb 1, 0, .nilError⟩] := by
  obtain ⟨s, hs, hp⟩ := @exists_reachable_of_run oneShard noFloats
    (connectOk ++ [sendPing 1] ++ List.replicate 6 (Action.writer 0 true true true))
    (fun s => decide (s.data.pipes.map (fun p => (p.written, p.handed)) =
        [(Bytes.ofString "*1\r\n$4\r\nPING\r\n", [])] ∧ s.data.resolved = [⟨.cb 1, 0, .nilError⟩])) rfl
  exact ⟨s, hs, of_decide_eq_true hp⟩

/-- **What a reader step does**: it changes nothing but its own pipe, and not its writer,
or it panics on an empty batch (`packetfutures[0]`). -/
theorem rstep_cases {k : Nat} {r : ReadResult} (h : rstep s k r = some s') :
    ∃ p, s.data.pipes[k]? = some p ∧
      ((s'.data = s.data ∧ s'.panicked = some .indexOutOfRange) ∨
        ∃ p', s.onlyPipe s' k p' ∧ p'.writer = p.writer) := by
  unfold rstep at h
  split at h
  · rename_i p one hp _
    refine ⟨p, hp, ?_⟩
    dsimp only at h
    repeat' split at h
    all_goals first
      | (cases h; done)
      | (cases h; exact .inl ⟨rfl, rfl⟩)
      | (cases h; exact .inr ⟨_, s.onlyPipe_setPipe k _, rfl⟩)
      | (cases h; exact .inr ⟨_, s.onlyPipe_logSetPipe k _ _, rfl⟩)
      | (cases h; exact .inr ⟨_, s.onlyPipe_setErr k _ _, rfl⟩)
  · cases h

/-! ## Every step -/

theorem step_mgr {a : Action} (h : step cfg ff s a = some s') : MTrans s.mgr s'.mgr ∨ s'.mgr = s.mgr := by
  unfold step at h
  split_ifs at h
  cases a <;> simp only at h
  · exact mstep_mgr h
  · split_ifs at h; exact .inr (sendAsk_produced h).mgr
  · split_ifs at h; exact .inr (sendBatchFlags_produced h).mgr
  · split_ifs at h; exact .inr (sendTransaction_produced h).mgr
  · obtain ⟨fs, -, ⟨-, rfl⟩ | ⟨-, rfl⟩⟩ := resume_cases h <;> exact .inr rfl
  · exact wstep_mgr h
  · exact rstep_mgr h
  · cases h; exact .inr rfl

/-- **The manager's invariant holds in every reachable state.** -/
theorem Reachable.mInv (hs : Reachable cfg ff s) : MInv s.mgr := by
  induction hs with
  | init => exact MInv.initial cfg _
  | step a _ h ih =>
    rcases step_mgr h with h' | h'
    · exact ih.trans h'
    · exact h' ▸ ih

/-- `MInv` says nothing of `connConnected` and `conn.c` together: `Connect` runs its first
`createConnection` without `conn.mutex`, so the `reconnect` that a fault of the session it
has just dialed starts can close that session's socket, and set `conn.c` to nil, before
`Connect` stores `connConnected`; `Connect` then calls `conn.c.LocalAddr()` on the nil
socket. -/
theorem connected_without_socket :
    ∃ s, Reachable oneShard noFloats s ∧ s.state = .connected ∧ s.c = none ∧
      (step oneShard noFloats s (.manager 0 .ok)).map (·.panicked) = some (some .nilDeref) := by
  obtain ⟨s, hs, hp⟩ := @exists_reachable_of_run oneShard noFloats
    (List.replicate 3 (Action.manager 0 .ok) ++ [readFault 0] ++ List.replicate 3 (Action.manager 1 .ok) ++
      [Action.manager 0 .ok])
    (fun s => decide (s.state = .connected ∧ s.c = none ∧
      (step oneShard noFloats s (.manager 0 .ok)).map (·.panicked) = some (some .nilDeref))) rfl
  exact ⟨s, hs, of_decide_eq_true hp⟩

/-- **Only a manager goroutine at `closeConnection(_, true)`'s locked region closes
`conn.dirtyShard`, and nothing reopens it.** -/
theorem step_dirtyClosed {a : Action} (h : step cfg ff s a = some s')
    (hne : s'.data.dirtyClosed ≠ s.data.dirtyClosed) :
    s.data.dirtyClosed = false ∧ ∃ t dial th err, a = .manager t dial ∧ s.threads[t]? = some th ∧
      th.pc = .closeLocked err true := by
  have produced : ∀ {i : Nat}, Produced cfg s s' i → s'.data.dirtyClosed = s.data.dirtyClosed := by
    rintro i (⟨rs, rfl⟩ | ⟨-, -, -, added, rfl⟩)
    · rfl
    · exact enqueue_dirtyClosed s i added
  unfold step at h
  split_ifs at h
  cases a with
  | manager t dial =>
    rcases mstep_data h with ⟨hd, -⟩ | ⟨-, err, hd, -⟩ | ⟨-, th, err, ht, hpc, ⟨hdc, -⟩ | ⟨-, hd, -⟩⟩ |
      ⟨-, hd, -⟩
    · exact absurd (by rw [hd]) hne
    · exact absurd (by rw [hd]; rfl) hne
    · exact ⟨hdc, t, dial, th, err, rfl, ht, hpc⟩
    · exact absurd (by rw [hd]) hne
    · exact absurd (by rw [hd]) hne
  | sendAsk => simp only at h; split_ifs at h; exact absurd (produced (sendAsk_produced h)) hne
  | sendBatchFlags => simp only at h; split_ifs at h; exact absurd (produced (sendBatchFlags_produced h)) hne
  | sendTransaction => simp only at h; split_ifs at h; exact absurd (produced (sendTransaction_produced h)) hne
  | resume => obtain ⟨fs, -, ⟨-, rfl⟩ | ⟨-, rfl⟩⟩ := resume_cases h <;> exact absurd rfl hne
  | writer =>
    obtain ⟨p, -, ⟨i, rest, -, -, rfl⟩ | ⟨i, -, -, rfl⟩ | ⟨p', -, -, -, hd, -⟩⟩ := wstep_cases h
    · exact absurd rfl hne
    · exact absurd rfl hne
    · exact absurd (by rw [hd]) hne
  | reader =>
    obtain ⟨p, -, ⟨hd, -⟩ | ⟨p', ⟨hd, -⟩, -⟩⟩ := rstep_cases h <;> exact absurd (by rw [hd]) hne
  | cancel => cases h; exact absurd rfl hne

end RedisPipe.Conn
