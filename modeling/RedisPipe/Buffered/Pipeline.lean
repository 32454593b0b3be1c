import RedisPipe.Buffered.Shards

/-!
# The buffered version's writer and reader

`redisconn/conn.go:646-748`. The writer waits for a dirty shard's index, swaps its own
(empty) buffer and list with the shard's, hands the list to the reader on `one.futures`
and writes the buffer into a `bufio.Writer`; when no shard is dirty it flushes that
writer before it blocks. The reader reads one response per entry and resolves them in
order.

As in the raw-packet version, each program counter is a point where the goroutine meets
shared state, and what the schedule or the network decides is an argument of the step:
* `sel`: which case of a `select` is taken (`Sel`);
* `ok`: whether a `w.Flush()` or `w.Write(packet)` succeeds. Both go through the
  `bufio.Writer`, which reaches the socket only when its buffer fills or is flushed, so
  the outcome is left free, a closed socket included;
* the reader's `ReadResult`, also free: the `bufio.Reader` may still hold bytes of a
  socket `closeConnection` closed.

The reader clears each entry's `Future` before it resolves it (`futures[i].Future = nil`),
and after a hard error it calls `fut.call(one.err)` on the whole batch. The body of
`future.call` is not in the sources; the model resolves only the entries the read loop
did not reach (`BRPc.drainCurrent`), as the spec's "exactly one `resolve` per index" says.
-/

set_option autoImplicit false

namespace RedisPipe.Conn

variable (cfg : Config)

/-- Which case of a writer's `select` is taken: Go picks at random among the ready ones,
and takes `default` only when none is. -/
inductive Sel where
  /-- `case shardn = <-conn.dirtyShard`. -/
  | recv
  /-- `case <-conn.ctx.Done(): return`. -/
  | ctxDone
  /-- `case <-one.control: return`. -/
  | control
  | default
  deriving DecidableEq, Repr

/-- Session `k`'s pipe becomes `p`. -/
def Sys.bsetPipe (s : Sys BufData) (k : Nat) (p : BPipe) : Sys BufData :=
  { s with data := { s.data with pipes := s.data.pipes.set k p } }

/-- The writer moved to `pc`. -/
def BPipe.goto (p : BPipe) (pc : BWPc) : BPipe := { p with writer := { p.writer with pc := pc } }

/-- The writer returns: `defer close(one.futures)`. -/
def BPipe.exit (p : BPipe) : BPipe := { p.goto .done with chanClosed := true }

/-- `one.futures <- futures`. -/
def BPipe.handOver (p : BPipe) : BPipe := { p with chan := p.chan ++ [p.writer.futures] }

section BPipeSimp
variable (s : Sys BufData) (k : Nat) (p : BPipe) (pc : BWPc)
@[simp] theorem Sys.bsetPipe_panicked : (s.bsetPipe k p).panicked = s.panicked := rfl
@[simp] theorem Sys.bsetPipe_shards : (s.bsetPipe k p).data.shards = s.data.shards := rfl
@[simp] theorem Sys.bsetPipe_pending : (s.bsetPipe k p).data.pending = s.data.pending := rfl
@[simp] theorem Sys.bsetPipe_dirty : (s.bsetPipe k p).data.dirty = s.data.dirty := rfl
@[simp] theorem Sys.bsetPipe_pipes : (s.bsetPipe k p).data.pipes = s.data.pipes.set k p := rfl
@[simp] theorem BPipe.goto_writer : (p.goto pc).writer = { p.writer with pc := pc } := rfl
@[simp] theorem BPipe.exit_writer : p.exit.writer = { p.writer with pc := .done } := rfl
@[simp] theorem BPipe.handOver_writer : p.handOver.writer = p.writer := rfl
end BPipeSimp

/-- The writer's `select` on `conn.dirtyShard`, `conn.ctx.Done()` and `one.control`;
`blocking` is the second one, after the flush, which has no `default`. -/
def Sys.bselect (s : Sys BufData) (k : Nat) (p : BPipe) (one : Session) (blocking : Bool) :
    Sel → Option (Sys BufData)
  | .recv =>
    match s.data.dirty with
    | i :: rest => some ({ s with data := { s.data with dirty := rest } }.bsetPipe k (p.goto (.swap i)))
    | [] => none
  | .ctxDone => if s.ctxDone then some (s.bsetPipe k p.exit) else none
  | .control => if one.controlClosed then some (s.bsetPipe k p.exit) else none
  | .default =>
    if ¬blocking ∧ s.data.dirty = [] ∧ ¬s.ctxDone ∧ ¬one.controlClosed then some (s.bsetPipe k (p.goto .flush))
    else none

/-- One step of session `k`'s writer; `none` when it is blocked or finished. -/
def bwstep (s : Sys BufData) (k : Nat) (sel : Sel) (ok : Bool) : Option (Sys BufData) :=
  match s.data.pipes[k]?, s.sessions[k]? with
  | some p, some one =>
    let w := p.writer
    match w.pc with
    | .loop => s.bselect k p one false sel
    | .flush =>
      if s.data.dirty = [] ∧ ¬ok then some ((s.setErrBuffered k (netError k)).bsetPipe k p.exit)
      else some (s.bsetPipe k (p.goto .wait))
    | .wait => s.bselect k p one true sel
    | .swap i =>
      if s.data.locked i then none
      else
        let sh := s.data.shards.getD i BShard.empty
        let s' := { s with data := { s.data with shards := s.data.shards.set i ⟨w.packet, w.futures⟩ } }
        if sh.buf = [] then
          if sh.futures ≠ [] then some { s' with panicked := some .emptyPacket }
          else some (s'.bsetPipe k { p with writer := ⟨.loop, sh.buf, sh.futures⟩ })
        else some (s'.bsetPipe k { p with writer := ⟨.handOff, sh.buf, sh.futures⟩ })
    | .handOff =>
      if p.chan.length < bfuturesCap cfg then some (s.bsetPipe k (p.handOver.goto .write))
      else some (s.bsetPipe k (p.goto (.handOffBlocked !ok)))
    | .handOffBlocked failed =>
      if p.chan.length < bfuturesCap cfg then
        if failed then some (s.bsetPipe k (p.handOver.goto .fail))
        else some (s.bsetPipe k (p.handOver.goto .write))
      else none
    | .fail => some ((s.setErrBuffered k (netError k)).bsetPipe k p.exit)
    | .write =>
      if ok then some (s.bsetPipe k { p with writer := ⟨.loop, [], []⟩ })
      else some ((s.setErrBuffered k (netError k)).bsetPipe k p.exit)
    | .done => none
  | _, _ => none

/-- One step of session `k`'s reader; `none` when it is blocked or finished. -/
def brstep (s : Sys BufData) (k : Nat) (r : ReadResult) : Option (Sys BufData) :=
  match s.data.pipes[k]?, s.sessions[k]? with
  | some p, some one =>
    match p.reader with
    | .recv =>
      match p.chan with
      | b :: rest => some (s.bsetPipe k { p with chan := rest, reader := .read b })
      | [] => if p.chanClosed then some (s.bsetPipe k { p with reader := .drainCurrent [] }) else none
    | .read [] => some (s.bsetPipe k { p with reader := .recv })
    | .read (fut :: rest) =>
      match r with
      | .redisError e true =>
        let s₁ := s.setErrBuffered k e
        some ((s₁.blog [⟨fut.fut, fut.n, Reply.ofErr (s₁.sessions.getD k one).err⟩]).bsetPipe k
          { p with reader := .drainCurrent rest })
      | .redisError e false => some ((s.blog [⟨fut.fut, fut.n, .error e⟩]).bsetPipe k { p with reader := .read rest })
      | .value v => some ((s.blog [⟨fut.fut, fut.n, .value v⟩]).bsetPipe k { p with reader := .read rest })
    | .drainCurrent rest =>
      some ((s.blog (callAll rest (Reply.ofErr one.err))).bsetPipe k { p with reader := .drainChan })
    | .drainChan =>
      match p.chan with
      | b :: rest => some ((s.blog (callAll b (Reply.ofErr one.err))).bsetPipe k { p with chan := rest })
      | [] => if p.chanClosed then some (s.bsetPipe k { p with reader := .done }) else none
    | .done => none
  | _, _ => none

end RedisPipe.Conn
