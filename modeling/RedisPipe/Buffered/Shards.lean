import RedisPipe.Conn.Future

/-!
# The buffered-writer version's shards and producers

`redisconn/conn.go:44-383` and `:550-567`. Here a shard holds the serialized bytes of its
requests (`buf`) next to their futures: a producer encodes its request into the shard's
buffer under the shard's lock (`resp.AppendRequest`), and the writer swaps the buffer and
the list out together. An idle shard is one whose `buf` is empty: the producer that makes
it non-empty signals it on `conn.dirtyShard`, a channel of capacity `2*Concurrency` that
this version never closes. A request with no future of its own in the buffer is a marker:
the `ASKING`, `MULTI` and `EXEC` byte strings.

`resp.AppendRequest` and the marker byte strings (`askingReq`, `multiReq`, `execReq`) are
not in the sources. They are modelled from the spec's §4.A encoder, which is the
raw-packet version's `redis.AppendRequest` (`respAppendRequest`), and its encodings of the
three commands. `cb.Resolve` called from `Go(func() {...})` is recorded when the producer
returns: the goroutine only delays it.
-/

set_option autoImplicit false

namespace RedisPipe.Conn

variable (cfg : Config) (ff : FloatFormat)

/-! ## The data -/

/-- `connShard`: the buffer and the futures. -/
structure BShard where
  buf : Bytes
  futures : List Entry
  deriving DecidableEq, Repr

/-- `sh.buf[:0]` and `sh.futures[:0]`. -/
def BShard.empty : BShard := ⟨[], []⟩

/-- The buffered writer's program counter. -/
inductive BWPc where
  /-- `select { case shardn = <-conn.dirtyShard: ... case <-conn.ctx.Done(): ...
  case <-one.control: ... default: ... }`. -/
  | loop
  /-- The `default` branch: `runtime.Gosched()`, and `w.Flush()` when `len(conn.dirtyShard) == 0`. -/
  | flush
  /-- The blocking `select` after the flush. -/
  | wait
  /-- A shard index received: lock the shard and swap `packet` and `futures` with it. -/
  | swap (shard : Nat)
  /-- `select { case one.futures <- futures: default: ... }`. -/
  | handOff
  /-- `one.futures <- futures` after the `default` branch's flush; `failed` says the flush
  failed, and the writer then reports it and returns. -/
  | handOffBlocked (failed : Bool)
  /-- `one.setErr(err, conn)` and `return`, after the blocked hand-off of a failed flush. -/
  | fail
  /-- `w.Write(packet)`. -/
  | write
  | done
  deriving DecidableEq, Repr

/-- The writer's points where it holds no batch: `packet` and `futures` are what it swaps
into the next shard. -/
def BWPc.idle : BWPc → Bool
  | .loop | .flush | .wait | .swap _ => true
  | _ => false

/-- `writer(w, one)`: its program counter, `packet` and `futures`. -/
structure BWriter where
  pc : BWPc
  packet : Bytes
  futures : List Entry
  deriving DecidableEq, Repr

/-- The buffered reader's program counter. -/
inductive BRPc where
  /-- `for futures = range one.futures`. -/
  | recv
  /-- `for i, fut := range futures`, with the entries still to read. -/
  | read (rest : List Entry)
  /-- After `break Outter`: `for _, fut := range futures { fut.call(one.err) }`, for the
  entries after the one the hard error ended. -/
  | drainCurrent (rest : List Entry)
  /-- `for futures := range one.futures { ... fut.call(one.err) }`. -/
  | drainChan
  | done
  deriving DecidableEq, Repr

/-- A session's data half: the writer, the reader's point, and `one.futures`. -/
structure BPipe where
  writer : BWriter
  reader : BRPc
  chan : List (List Entry)
  chanClosed : Bool
  deriving DecidableEq, Repr

/-- The writer and reader `dial` starts. -/
def BPipe.fresh : BPipe := ⟨⟨.loop, [], []⟩, .recv, [], false⟩

/-- The data of the buffered-writer version. -/
structure BufData where
  shards : List BShard
  /-- A producer that holds shard `i`'s lock, blocked at `conn.dirtyShard <- shardn`, with the
  buffer and list it will assign. -/
  pending : List (Option BShard)
  dirty : List Nat
  pipes : List BPipe
  resolved : List Resolution
  deriving DecidableEq, Repr

/-- `make([]connShard, Concurrency)`, an empty channel. -/
def BufData.initial (cfg : Config) : BufData :=
  ⟨List.replicate cfg.concurrency BShard.empty, List.replicate cfg.concurrency none, [], [], []⟩

/-- `dropShardFutures(err)`: drain `conn.dirtyShard`, fail every shard's futures with `err`
in shard order, and empty every buffer and list. -/
def BufData.drop (err : RedisError) (d : BufData) : BufData :=
  { d with dirty := [], shards := d.shards.map fun _ => BShard.empty,
           resolved := d.resolved ++ callAll (d.shards.map (·.futures)).flatten (.error err) }

/-- The buffered version's operations for the manager: `closeConnection(_, true)` does not
close `conn.dirtyShard`. -/
def bufOps : DataOps BufData where
  drop := BufData.drop
  closeDirty d := some d
  startSession d := { d with pipes := d.pipes ++ [BPipe.fresh] }
  locksFree d := d.pending.all Option.isNone

/-- The capacity of `one.futures`, `Concurrency*8`. -/
def bfuturesCap (cfg : Config) : Nat := cfg.concurrency * 8

/-- Shard `i`'s lock is held by a producer blocked on the dirty-shard send. -/
def BufData.locked (d : BufData) (i : Nat) : Bool := (d.pending.getD i none).isSome

/-- `Resolve` calls appended to the log. -/
def Sys.blog (s : Sys BufData) (rs : List Resolution) : Sys BufData :=
  { s with data := { s.data with resolved := s.data.resolved ++ rs } }

/-! ## The encoder and the marker requests -/

/-- Modelled from the spec: `resp.AppendRequest`, which is not in the sources. The spec's
§4.A encoder is the raw-packet version's `redis.AppendRequest`. -/
def respAppendRequest (ff : FloatFormat) (buf : Bytes) (req : Request) : Bytes × Option RedisError :=
  appendRequest ff buf req

/-- `resp.AppendRequest` appends to its buffer what it writes into an empty one. -/
theorem respAppendRequest_append (buf : Bytes) (req : Request) :
    respAppendRequest ff buf req =
      if (respAppendRequest ff [] req).2.isSome then respAppendRequest ff [] req
      else (buf ++ (respAppendRequest ff [] req).1, none) :=
  appendRequest_append ff buf req

theorem respAppendRequest_ne_nil (req : Request) (h : (respAppendRequest ff [] req).2 = none) :
    (respAppendRequest ff [] req).1 ≠ [] :=
  appendRequest_ne_nil ff req h

/-- Modelled from the spec: `askingReq`, the bytes of `ASKING`. -/
def askingBytes : Bytes := Bytes.ofString "*1\r\n$6\r\nASKING\r\n"

/-- Modelled from the spec: `multiReq`, the bytes of `MULTI`. -/
def multiBytes : Bytes := Bytes.ofString "*1\r\n$5\r\nMULTI\r\n"

/-- Modelled from the spec: `execReq`, the bytes of `EXEC`. -/
def execBytes : Bytes := Bytes.ofString "*1\r\n$4\r\nEXEC\r\n"

/-- The marker byte strings are the encodings of the marker requests. -/
theorem respAppendRequest_markers :
    respAppendRequest ff [] askingReq = (askingBytes, none) ∧ respAppendRequest ff [] multiReq = (multiBytes, none) ∧
      respAppendRequest ff [] execReq = (execBytes, none) :=
  ⟨rfl, rfl, rfl⟩

/-! ## Producers -/

/-- The end of the critical section: `if len(shard.buf) == 0 { conn.dirtyShard <- shardn }`,
then `shard.buf = buf; shard.futures = futures`. On a full channel the producer blocks
holding the lock. -/
def benqueue (s : Sys BufData) (i : Nat) (new : BShard) : Sys BufData :=
  let d := s.data
  if (d.shards.getD i BShard.empty).buf = [] then
    if d.dirty.length < dirtyCap cfg then
      { s with data := { d with dirty := d.dirty ++ [i], shards := d.shards.set i new } }
    else { s with data := { d with pending := d.pending.set i (some new) } }
  else { s with data := { d with shards := d.shards.set i new } }

/-- A blocked producer's send goes through; it assigns its buffer and list. -/
def bresume (s : Sys BufData) (i : Nat) : Option (Sys BufData) :=
  match s.data.pending.getD i none with
  | none => none
  | some sh =>
    if s.data.dirty.length < dirtyCap cfg then
      some { s with data := { s.data with dirty := s.data.dirty ++ [i], shards := s.data.shards.set i sh,
                                          pending := s.data.pending.set i none } }
    else none

/-- `doSend(req, cb, n, asking)` on shard `i`; `inactive` is `!cb.Active()`. The shard is
assigned only after `AppendRequest` has accepted the request. -/
def bdoSend (s : Sys BufData) (i : Nat) (req : Request) (cb : Future) (n : BitVec 64)
    (asking inactive : Bool) : Option (Sys BufData × Option RedisError) :=
  if inactive then some (s, some (connErr .request .requestIsNotActive))
  else if s.data.locked i then none
  else match s.state with
    | .closed => some (s, some (newErrWrap .context .contextClosed .context))
    | .disconnected => some (s, some (newErr .connection .notConnected))
    | _ =>
      let sh := s.data.shards.getD i BShard.empty
      let buf := if asking then sh.buf ++ askingBytes else sh.buf
      let futures := if asking then sh.futures ++ [⟨.dumb, 0, askingReq⟩] else sh.futures
      match respAppendRequest ff buf req with
      | (_, some err) => some (s, some err)
      | (buf, none) => some (benqueue cfg s i ⟨buf, futures ++ [⟨cb, n, req⟩]⟩, none)

/-- `SendAsk(req, cb, n, asking)`, and `Send`: a refused request is resolved with its
error. -/
def bsendAsk (s : Sys BufData) (i : Nat) (req : Request) (cb : Future) (n : BitVec 64)
    (asking inactive : Bool) : Option (Sys BufData) :=
  (bdoSend cfg ff s i req cb n asking inactive).map fun
    | (s', none) => s'
    | (s', some err) => s'.blog [⟨cb, n, .error (err.withField .connection)⟩]

/-- `SendBatchFlags`' loop `for i, req := range requests`: each request is encoded into
`buf` and its entry `future{cb, start + uint64(i)}` appended; the first request
`AppendRequest` refuses ends it, with its position, itself and its error. -/
def appendBatch (cb : Future) (start : BitVec 64) :
    Nat → Bytes → List Entry → List Request → (Bytes × List Entry) ⊕ (Nat × Request × RedisError)
  | _, buf, futures, [] => .inl (buf, futures)
  | j, buf, futures, r :: rs =>
    match respAppendRequest ff buf r with
    | (_, some err) => .inr (j, r, err)
    | (buf, none) => appendBatch cb start (j + 1) buf (futures ++ [⟨cb, start + .ofNat 64 j, r⟩]) rs

/-- `SendBatchFlags(requests, cb, start, flags)` on shard `i`, and `SendBatch` with
`flags = 0`. An empty batch returns at once. On a closed or disconnected connection the
call stores its error in `err` and returns: the `if err != nil` that would resolve the
futures comes after the `return`. A request `AppendRequest` refuses fails the batch, its
own index with its error and the others with a `BatchFormat` error wrapping it, and the
shard keeps its old buffer and list. -/
def bsendBatchFlags (s : Sys BufData) (i : Nat) (reqs : List Request) (cb : Future) (start : BitVec 64)
    (flags : Nat) (inactive : Bool) : Option (Sys BufData) :=
  if reqs = [] then some s
  else if inactive then
    some (s.blog ((List.range reqs.length).map fun j =>
      ⟨cb, start + .ofNat 64 j, .error (connErr .request .requestIsNotActive)⟩))
  else if s.data.locked i then none
  else match s.state with
    | .closed | .disconnected => some s
    | _ =>
      let sh := s.data.shards.getD i BShard.empty
      let asking := flags &&& doAsking ≠ 0
      let tx := flags &&& doTransaction ≠ 0
      let buf := if asking then sh.buf ++ askingBytes else sh.buf
      let futures := if asking then sh.futures ++ [⟨.dumb, 0, askingReq⟩] else sh.futures
      let buf := if tx then buf ++ multiBytes else buf
      let futures := if tx then futures ++ [⟨.dumb, 0, multiReq⟩] else futures
      match appendBatch ff cb start 0 buf futures reqs with
      | .inr (pos, req, e) =>
        let err := (e.withField .connection).withField (.request req)
        let commonerr :=
          (((connErr .request .batchFormat).wrap (.error err.kind err.code)).withField (.requests reqs)).withField
            (.request req)
        some (s.blog (batchResolutions cb start reqs.length (some pos) err commonerr))
      | .inl (buf, futures) =>
        let buf := if tx then buf ++ execBytes else buf
        let futures := if tx then futures ++ [⟨cb, start + .ofNat 64 reqs.length, execReq⟩] else futures
        some (benqueue cfg s i ⟨buf, futures⟩)

/-- `SendTransaction(reqs, cb, off)`: the batch under `DoTransaction`, from index 0, through
the wrapper `WrapFuture` builds, which forwards only index `len(reqs)`, as `off`.
`inactiveLater` is the wrapper's `Active()` in `SendBatchFlags`. -/
def bsendTransaction (s : Sys BufData) (i : Nat) (reqs : List Request) (cb : Nat) (off : BitVec 64)
    (inactive inactiveLater : Bool) : Option (Sys BufData) :=
  if inactive then some (s.blog [⟨.cb cb, off, .error (connErr .request .requestIsNotActive)⟩])
  else bsendBatchFlags cfg ff s i reqs (.transaction cb (.ofNat 64 reqs.length) off) 0 doTransaction inactiveLater

end RedisPipe.Conn
