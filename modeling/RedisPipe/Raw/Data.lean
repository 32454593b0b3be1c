import RedisPipe.Conn.Future

/-!
# The raw-packet version's data: shards, the dirty-shard channel, sessions' pipelines

`request_writer.go:200-1078`. Producers append entries to one of `Concurrency` shards,
each a list under its own lock, and signal an idle-to-non-empty shard by sending its index
on `conn.dirtyShard`, a channel of capacity `2*Concurrency`. Each session has a writer,
which swaps shard lists out, serializes them into its packet buffer and hands the batches
to the reader over `one.futures` (capacity `Concurrency/2+1`), and a reader, which pops
one entry per response.

Two fields are ghosts: a session's `written` bytes (what the writer wrote to the socket)
and `handed` batches (what it sent on `one.futures`). The `futpool` channel, which
recycles empty slices, is left out: a list taken from it and one from `make` are both
empty, which is all the writer relies on. So is the packet buffer's capacity management
(`round`, `cap(packet)`), which changes no byte.
-/

set_option autoImplicit false

namespace RedisPipe.Conn

/-- The writer's program counter. -/
inductive WPc where
  /-- `BigLoop: select { case shardn, ok = <-conn.dirtyShard: ... case <-one.control: ... }`. -/
  | bigLoop
  /-- A shard index received: the `WritePause` sleep, then `shard.Lock()` and the swap. -/
  | swap (shard : Nat)
  /-- The serialization loop, with the entries still to encode and those kept so far. -/
  | serialize (rest kept : List Entry)
  /-- `select { case one.futures <- futures: ... default: ... }`. -/
  | handOff
  /-- `one.futures <- futures` after the default branch's `write()`. -/
  | handOffBlocked
  /-- `control: select { case <-one.control: return; default: }`. -/
  | control
  /-- `select { case shardn, ok = <-conn.dirtyShard: ... default: ... }`. -/
  | nextShard
  /-- The deferred function: `if len(futures) != 0 { one.futures <- futures }`, then
  `close(one.futures)`. -/
  | deferSend
  | done
  deriving DecidableEq, Repr

/-- `writer(one)`: its program counter and its `packet` and `futures` variables. -/
structure Writer where
  pc : WPc
  packet : Bytes
  futures : List Entry
  deriving DecidableEq, Repr

/-- The reader's program counter. -/
inductive RPc where
  /-- `res = redis.ReadResponse(r)`. -/
  | read
  /-- `packetfutures, ok = <-one.futures`, with the response `res` in hand. -/
  | awaitBatch (res : Reply)
  /-- After the loop: `for _, fut := range futures { conn.call(fut, one.err) }`. -/
  | drainCurrent
  /-- `for futures := range one.futures { ... conn.call(fut, one.err) }`. -/
  | drainChan
  | done
  deriving DecidableEq, Repr

/-- `reader(r, one)`: its program counter and its current batch `futures`. -/
structure Reader where
  pc : RPc
  current : List Entry
  deriving DecidableEq, Repr

/-- A session's data half: the writer, the reader and `one.futures`. -/
structure Pipe where
  writer : Writer
  reader : Reader
  /-- The batches queued on `one.futures`. -/
  chan : List (List Entry)
  chanClosed : Bool
  /-- Ghost: the bytes the writer has written to the socket. -/
  written : Bytes
  /-- Ghost: every batch the writer has sent on `one.futures`, in order. -/
  handed : List (List Entry)
  deriving DecidableEq, Repr

/-- The writer and reader `dial` starts. -/
def Pipe.fresh : Pipe := ⟨⟨.bigLoop, [], []⟩, ⟨.read, []⟩, [], false, [], []⟩

/-- The data of the raw-packet version. -/
structure RawData where
  /-- `conn.shard[i].futures`. -/
  shards : List (List Entry)
  /-- A producer that holds shard `i`'s lock and is blocked at `conn.dirtyShard <- i`,
  with the list it will assign once the send goes through. -/
  pending : List (Option (List Entry))
  /-- The indices buffered in `conn.dirtyShard`. -/
  dirty : List Nat
  dirtyClosed : Bool
  /-- One per session, by socket. -/
  pipes : List Pipe
  /-- Every `Resolve` call so far. -/
  resolved : List Resolution
  deriving DecidableEq, Repr

/-- The data `Connect` allocates: `make([]connShard, Concurrency)`, an empty channel. -/
def RawData.initial (cfg : Config) : RawData :=
  ⟨List.replicate cfg.concurrency [], List.replicate cfg.concurrency none, [], false, [], []⟩

/-- `dropShardFutures(err)`: empty `conn.dirtyShard` (up to its close, if closed), then fail
every shard's entries with `err` in shard order and set each list to `nil`. -/
def RawData.drop (err : RedisError) (d : RawData) : RawData :=
  { d with dirty := [], shards := d.shards.map fun _ => [],
           resolved := d.resolved ++ callAll d.shards.flatten (.error err) }

/-- The raw-packet version's operations for the manager. -/
def rawOps : DataOps RawData where
  drop := RawData.drop
  closeDirty d := if d.dirtyClosed then none else some { d with dirtyClosed := true }
  startSession d := { d with pipes := d.pipes ++ [Pipe.fresh] }
  locksFree d := d.pending.all Option.isNone

/-- The capacity of `one.futures`, `Concurrency/2+1`. -/
def futuresCap (cfg : Config) : Nat := cfg.concurrency / 2 + 1

/-- `Resolve` calls appended to the log. -/
def Sys.log (s : Sys RawData) (rs : List Resolution) : Sys RawData :=
  { s with data := { s.data with resolved := s.data.resolved ++ rs } }

/-- Replace session `k`'s pipe. -/
def Sys.setPipe (s : Sys RawData) (k : Nat) (p : Pipe) : Sys RawData :=
  { s with data := { s.data with pipes := s.data.pipes.set k p } }

end RedisPipe.Conn
