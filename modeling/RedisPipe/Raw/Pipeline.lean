import RedisPipe.Raw.Producer

/-!
# A session's writer and reader

`request_writer.go:927-1074`. The writer waits for a dirty shard's index, swaps the
shard's list for its own (empty) one, serializes the entries into its packet, hands the
batch to the reader on `one.futures` and writes the packet; the reader reads one response
per entry and resolves them in order.

Each program counter is a point where the goroutine meets shared state: a channel
operation, a shard lock, a socket write, or a `conn.call`. Whatever the schedule or the
network decides is an argument of the step:
* `pick`: which ready case a two-case `select` takes (Go picks at random);
* `checkFails`: the writer's `err != nil` after `AppendRequest`. The writer declares
  `var err error` and assigns it the `*redis.Error` that `AppendRequest` returns, so a nil
  result is a non-nil interface and the test is true for every entry; the step still
  takes the outcome as an argument, so that the model also covers the check the code
  means to make, and the code's own runs are those whose writer steps all take `true`
  (`Action.goBranch`);
* `ok`: whether a socket write succeeds (never once `closeConnection` closed the socket);
* the reader's `ReadResult`.

`WritePause`, the `futpool` recycling and the `round` counter are left out: they change
no list a step reads.
-/

set_option autoImplicit false

namespace RedisPipe.Conn

variable (cfg : Config) (ff : FloatFormat)

/-- The writer moved to `pc`. -/
def Pipe.goto (p : Pipe) (pc : WPc) : Pipe := { p with writer := { p.writer with pc := pc } }

/-- After a hand-off: `futures` is a fresh empty list (`<-one.futpool` or `make`), and the
writer goes on at `pc`. -/
def Pipe.reset (p : Pipe) (pc : WPc) : Pipe := { p with writer := { p.writer with pc := pc, futures := [] } }

/-- `one.futures <- futures`. -/
def Pipe.handOver (p : Pipe) : Pipe :=
  { p with chan := p.chan ++ [p.writer.futures], handed := p.handed ++ [p.writer.futures] }

/-- A successful `one.c.Write(packet)`, then `packet = packet[:0]`. -/
def Pipe.flush (p : Pipe) : Pipe :=
  { p with written := p.written ++ p.writer.packet, writer := { p.writer with packet := [] } }

section PipeSimp
variable (p : Pipe) (pc : WPc)
@[simp] theorem Pipe.goto_writer_pc : (p.goto pc).writer.pc = pc := rfl
@[simp] theorem Pipe.goto_writer_futures : (p.goto pc).writer.futures = p.writer.futures := rfl
@[simp] theorem Pipe.reset_writer_pc : (p.reset pc).writer.pc = pc := rfl
@[simp] theorem Pipe.reset_writer_futures : (p.reset pc).writer.futures = [] := rfl
@[simp] theorem Pipe.handOver_writer : p.handOver.writer = p.writer := rfl
@[simp] theorem Pipe.flush_writer_pc : p.flush.writer.pc = p.writer.pc := rfl
@[simp] theorem Pipe.flush_writer_futures : p.flush.writer.futures = p.writer.futures := rfl
end PipeSimp

/-- Whether session `k`'s socket accepts a write the network lets through (`ok`). -/
def Sys.canWrite (s : Sys RawData) (k : Nat) (ok : Bool) : Bool :=
  ok && !(s.sessions.getD k Session.fresh).sockClosed

/-- The writer's `write()` and the code after it: on success the packet is flushed and the
writer goes on as `next` says; on failure `one.setErr(err, conn)` and `return`. -/
def Sys.writeThen (s : Sys RawData) (k : Nat) (p : Pipe) (ok : Bool) (next : Pipe → Pipe) : Sys RawData :=
  if s.canWrite k ok then s.setPipe k (next p.flush)
  else (s.setErr k (netError k)).setPipe k (p.goto .deferSend)

/-- The argument of `conn.call(fut, err)` in the serialization loop: the `error` variable
holding what `AppendRequest` returned, a nil `*redis.Error` included. -/
def Reply.ofCheck : Option RedisError → Reply
  | some e => .error e
  | none => .nilError

/-- Session `k`'s dirty-shard receive, `shardn, ok = <-conn.dirtyShard`: an index sends the
writer to `swap`, the closed and drained channel makes it return. -/
def Sys.receive (s : Sys RawData) (k : Nat) (p : Pipe) : Option (Sys RawData) :=
  match s.data.dirty with
  | i :: rest => some ({ s with data := { s.data with dirty := rest } }.setPipe k (p.goto (.swap i)))
  | [] => if s.data.dirtyClosed then some (s.setPipe k (p.goto .deferSend)) else none

/-- One step of session `k`'s writer; `none` when it is blocked or finished. -/
def wstep (s : Sys RawData) (k : Nat) (pick checkFails ok : Bool) : Option (Sys RawData) :=
  match s.data.pipes[k]?, s.sessions[k]? with
  | some p, some one =>
    let w := p.writer
    match w.pc with
    | .bigLoop =>
      if pick then s.receive k p
      else if one.controlClosed then some (s.setPipe k (p.goto .deferSend)) else none
    | .swap i =>
      if s.data.locked i then none
      else
        let s' := { s with data := { s.data with shards := s.data.shards.set i w.futures } }
        some (s'.setPipe k { p with writer := ⟨.serialize (s.data.shards.getD i []) [], w.packet, []⟩ })
    | .serialize [] kept =>
      some (s.setPipe k { p with writer := ⟨if kept = [] then .control else .handOff, w.packet, kept⟩ })
    | .serialize (e :: rest) kept =>
      let r := appendRequest ff w.packet e.req
      if r.2.isSome || checkFails then
        some ((s.log [⟨e.fut, e.n, Reply.ofCheck r.2⟩]).setPipe k
          { p with writer := ⟨.serialize rest kept, r.1, []⟩ })
      else some (s.setPipe k { p with writer := ⟨.serialize rest (kept ++ [e]), r.1, []⟩ })
    | .handOff =>
      if p.chan.length < futuresCap cfg then
        if 64 * 1024 < w.packet.length then some (s.writeThen k p.handOver ok (·.reset .control))
        else some (s.setPipe k (p.handOver.reset .control))
      else some (s.writeThen k p ok (·.goto .handOffBlocked))
    | .handOffBlocked =>
      if p.chan.length < futuresCap cfg then some (s.setPipe k (p.handOver.reset .control)) else none
    | .control => some (s.setPipe k (p.goto (if one.controlClosed then .deferSend else .nextShard)))
    | .nextShard =>
      match s.data.dirty with
      | _ :: _ => s.receive k p
      | [] =>
        if s.data.dirtyClosed then some (s.setPipe k (p.goto .deferSend))
        else if w.packet = [] then some (s.setPipe k (p.goto .bigLoop))
        else some (s.writeThen k p ok (·.goto .bigLoop))
    | .deferSend =>
      if w.futures = [] then some (s.setPipe k { p with chanClosed := true, writer := { w with pc := .done } })
      else if p.chan.length < futuresCap cfg then
        some (s.setPipe k { p.handOver with chanClosed := true, writer := { w with pc := .done } })
      else none
    | .done => none
  | _, _ => none

/-- One step of session `k`'s reader; `none` when it is blocked or finished. A read on a
socket that `closeConnection` closed returns an I/O error, which is hard. -/
def rstep (s : Sys RawData) (k : Nat) (r : ReadResult) : Option (Sys RawData) :=
  match s.data.pipes[k]?, s.sessions[k]? with
  | some p, some one =>
    let rd := p.reader
    match rd.pc with
    | .read =>
      let r := if one.sockClosed then .redisError (netError k) true else r
      match r with
      | .redisError e true =>
        some ((s.setErr k e).setPipe k { p with reader := { rd with pc := .drainCurrent } })
      | _ =>
        let res : Reply := match r with
          | .value v => .value v
          | .redisError e _ => .error (e.withField .connection)
        match rd.current with
        | fut :: rest => some ((s.log [⟨fut.fut, fut.n, res⟩]).setPipe k { p with reader := ⟨.read, rest⟩ })
        | [] => some (s.setPipe k { p with reader := ⟨.awaitBatch res, []⟩ })
    | .awaitBatch res =>
      match p.chan with
      | [] :: _ => some { s with panicked := some .indexOutOfRange }
      | (fut :: tl) :: rest =>
        some ((s.log [⟨fut.fut, fut.n, res⟩]).setPipe k { p with chan := rest, reader := ⟨.read, tl⟩ })
      | [] => if p.chanClosed then some (s.setPipe k { p with reader := { rd with pc := .drainCurrent } }) else none
    | .drainCurrent =>
      some ((s.log (callAll rd.current (Reply.ofErr one.err))).setPipe k { p with reader := ⟨.drainChan, []⟩ })
    | .drainChan =>
      match p.chan with
      | b :: rest => some ((s.log (callAll b (Reply.ofErr one.err))).setPipe k { p with chan := rest })
      | [] => if p.chanClosed then some (s.setPipe k { p with reader := { rd with pc := .done } }) else none
    | .done => none
  | _, _ => none

end RedisPipe.Conn
