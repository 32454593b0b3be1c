import RedisPipe.Raw.Data

/-!
# Producers: `SendAsk`, `SendBatchFlags`, `SendTransaction`

`request_writer.go:461-657`. A producer checks its future and its requests, picks a shard,
and under the shard's lock checks `conn.state` and appends its entries; if the shard was
empty it first sends the shard's index on `conn.dirtyShard`, still holding the lock
(`enqueue`). Everything before the lock touches no shared state, and everything under it
is done while no other goroutine can touch the shard, so a call is one step of the model
unless the dirty-shard send blocks: then the producer waits holding the lock
(`RawData.pending`) until `resume`.

`getShard` picks `atomic.AddUint32(&conn.shardid, 1) % Concurrency`. Every concurrent call
advances the counter, so under an arbitrary schedule a call can land on any shard: the
schedule chooses it (the `i` of each operation here).
-/

set_option autoImplicit false

namespace RedisPipe.Conn

variable (cfg : Config)

/-- Shard `i`'s lock is held by a producer blocked on the dirty-shard send. -/
def RawData.locked (d : RawData) (i : Nat) : Bool := (d.pending.getD i none).isSome

/-- The end of the critical section: append `added` to shard `i`. An idle shard is
signalled first, `conn.dirtyShard <- shardn`, before `shard.futures = futures`: a send on
the closed channel panics, and on a full one the producer blocks with the lock held. -/
def enqueue (s : Sys RawData) (i : Nat) (added : List Entry) : Sys RawData :=
  let d := s.data
  let old := d.shards.getD i []
  if old = [] then
    if d.dirtyClosed then { s with panicked := some .sendOnClosed }
    else if d.dirty.length < dirtyCap cfg then
      { s with data := { d with dirty := d.dirty ++ [i], shards := d.shards.set i added } }
    else { s with data := { d with pending := d.pending.set i (some added) } }
  else { s with data := { d with shards := d.shards.set i (old ++ added) } }

/-- A blocked producer's send on `conn.dirtyShard` goes through, and it assigns its list
and releases the lock. -/
def resume (s : Sys RawData) (i : Nat) : Option (Sys RawData) :=
  match s.data.pending.getD i none with
  | none => none
  | some futures =>
    if s.data.dirtyClosed then some { s with panicked := some .sendOnClosed }
    else if s.data.dirty.length < dirtyCap cfg then
      some { s with data := { s.data with dirty := s.data.dirty ++ [i],
                                          shards := s.data.shards.set i futures,
                                          pending := s.data.pending.set i none } }
    else none

/-- `doSend(req, cb, n, asking)` on shard `i`: `none` while it waits for the shard's lock;
otherwise the connection after it and the error it returns. -/
def doSend (s : Sys RawData) (i : Nat) (req : Request) (cb : Future) (n : BitVec 64)
    (asking cancelled : Bool) : Option (Sys RawData × Option RedisError) :=
  if cancelled then some (s, some (connErr .request .requestCancelled))
  else match checkArgs req with
    | some e => some (s, some e)
    | none =>
      if s.data.locked i then none
      else match s.state with
        | .closed => some (s, some (newErrWrap .context .contextClosed .context))
        | .disconnected => some (s, some (newErr .connection .notConnected))
        | _ =>
          let asked : List Entry := if asking then [⟨.dumb, 0, askingReq⟩] else []
          some (enqueue cfg s i (asked ++ [⟨cb, n, req⟩]), none)

/-- `SendAsk(req, cb, n, asking)`, and `Send` with `asking = false`: a request `doSend`
refuses is resolved at once with its error. -/
def sendAsk (s : Sys RawData) (i : Nat) (req : Request) (cb : Future) (n : BitVec 64)
    (asking cancelled : Bool) : Option (Sys RawData) :=
  (doSend cfg s i req cb n asking cancelled).map fun
    | (s', none) => s'
    | (s', some err) => s'.log [⟨cb, n, .error (err.withField .connection)⟩]

/-- A batch's entries: `future{cb, start + uint64(i), now, req}` for its `i`-th request. -/
def batchEntries (cb : Future) : BitVec 64 → List Request → List Entry
  | _, [] => []
  | n, r :: rs => ⟨cb, n, r⟩ :: batchEntries cb (n + 1) rs

/-- `doSendBatch(requests, cb, start, flags)` on shard `i`: the `ASKING` and `MULTI`
markers, the requests, and the `EXEC` request at index `start + len(requests)`. An empty
batch touches no shard; under `DoTransaction` its `EXEC` index gets `[]interface{}{}`. -/
def doSendBatch (s : Sys RawData) (i : Nat) (reqs : List Request) (cb : Future)
    (start : BitVec 64) (flags : Nat) (cancelled : Bool) : Option (Sys RawData × Option RedisError) :=
  if reqs = [] then
    some (if flags &&& doTransaction ≠ 0 then s.log [⟨cb, start, .emptyArray⟩] else s, none)
  else if cancelled then some (s, some (connErr .request .requestCancelled))
  else if s.data.locked i then none
  else match s.state with
    | .closed => some (s, some closeErr)
    | .disconnected => some (s, some (connErr .connection .notConnected))
    | _ =>
      let asked : List Entry := if flags &&& doAsking ≠ 0 then [⟨.dumb, 0, askingReq⟩] else []
      let multi : List Entry := if flags &&& doTransaction ≠ 0 then [⟨.dumb, 0, multiReq⟩] else []
      let exec : List Entry :=
        if flags &&& doTransaction ≠ 0 then [⟨cb, start + .ofNat 64 reqs.length, execReq⟩] else []
      some (enqueue cfg s i (asked ++ multi ++ batchEntries cb start reqs ++ exec), none)

/-- `SendBatchFlags`' check loop: the position, request and error of the first request
`CheckArgs` refuses. -/
def firstBad : Nat → List Request → Option (Nat × Request × RedisError)
  | _, [] => none
  | i, r :: rs =>
    match checkArgs r with
    | some e => some (i, r, e)
    | none => firstBad (i + 1) rs

/-- The resolutions of a failed batch: `batchResolutions`, and under `DoTransaction` the
`EXEC` index gets `commonerr` too. -/
def batchErrors (cb : Future) (start : BitVec 64) (len : Nat) (errpos : Option Nat)
    (err commonerr : RedisError) (flags : Nat) : List Resolution :=
  batchResolutions cb start len errpos err commonerr ++
    if flags &&& doTransaction ≠ 0 then [⟨cb, start + .ofNat 64 len, .error commonerr⟩] else []

/-- `SendBatchFlags(requests, cb, start, flags)`, and `SendBatch` with `flags = 0`: a
malformed request fails the whole batch with a `BatchFormat` error wrapping its own. -/
def sendBatchFlags (s : Sys RawData) (i : Nat) (reqs : List Request) (cb : Future)
    (start : BitVec 64) (flags : Nat) (cancelled : Bool) : Option (Sys RawData) :=
  match firstBad 0 reqs with
  | some (pos, req, e) =>
    let err := (e.withField .connection).withField (.request req)
    let commonerr :=
      (((connErr .request .batchFormat).wrap (.error err.kind err.code)).withField (.requests reqs)).withField
        (.request req)
    some (s.log (batchErrors cb start reqs.length (some pos) err commonerr flags))
  | none =>
    (doSendBatch cfg s i reqs cb start flags cancelled).map fun
      | (s', none) => s'
      | (s', some commonerr) => s'.log (batchErrors cb start reqs.length none commonerr commonerr flags)

/-- `SendTransaction(reqs, cb, off)`: the batch under `DoTransaction`, from index 0, through
a wrapper that forwards only the `EXEC` index, as `off`. `cancelledLater` is the second
look at `Cancelled()`, in `doSendBatch`. -/
def sendTransaction (s : Sys RawData) (i : Nat) (reqs : List Request) (cb : Nat) (off : BitVec 64)
    (cancelled cancelledLater : Bool) : Option (Sys RawData) :=
  if cancelled then some (s.log [⟨.cb cb, off, .error (connErr .request .requestCancelled)⟩])
  else sendBatchFlags cfg s i reqs (.transaction cb (.ofNat 64 reqs.length) off) 0 doTransaction
    cancelledLater

end RedisPipe.Conn
