import Mathlib.Data.Multiset.Basic
import RedisPipe.Conn.Manager

/-!
# Futures and their resolutions

Both versions hand each request's result to a `redis.Future` by `Resolve(res, n)`. The
model records every such call, in order, in the connection's resolution log; what a
producer's own future receives is read off the log (`Resolution.delivered`): the shared
`dumb` future drops what it is given, and the wrapper `SendTransaction` builds forwards
only its `EXEC` index.
-/

set_option autoImplicit false

namespace RedisPipe.Conn

/-- The `redis.Future` an entry resolves. -/
inductive Future where
  /-- `dumb`, the shared sentinel of the `ASKING` and `MULTI` markers. -/
  | dumb
  /-- A producer's own future. -/
  | cb (id : Nat)
  /-- `transactionFuture{cb, l, off}`: `Resolve(res, n)` calls `cb.Resolve(res, off)` when
  `n == uint64(l)` and does nothing otherwise. -/
  | transaction (id : Nat) (l : BitVec 64) (off : BitVec 64)
  deriving DecidableEq, Repr

/-- The value a future is resolved with. -/
inductive Reply where
  /-- A response the reader read off the socket. -/
  | value (v : Nat)
  | error (e : RedisError)
  /-- An `error` interface holding a nil `*redis.Error`. -/
  | nilError
  /-- A nil `error`. -/
  | nil
  /-- `[]interface{}{}`, the result of an empty transaction. -/
  | emptyArray
  deriving DecidableEq, Repr

/-- `one.err` (or any `error` variable) as a result. -/
def Reply.ofErr : Option RedisError → Reply
  | some e => .error e
  | none => .nil

/-- One call `fut.Resolve(res, n)`. -/
structure Resolution where
  fut : Future
  n : BitVec 64
  res : Reply
  deriving DecidableEq, Repr

/-- An entry of a shard or a batch: the future, its index, and its request. The raw-packet
version's `future` holds the request (`future{Future, N, start, req}`, the timestamp left
out); the buffered version's holds only the future and the index, and the request is a
ghost naming what its shard's `buf` holds for it. -/
structure Entry where
  fut : Future
  n : BitVec 64
  req : Request
  deriving DecidableEq, Repr

/-- Modelled from the spec: `conn.call(fut, res)` (and the buffered version's
`fut.call(res)`), whose body is not in the sources, as "the response flows back to the
originating future", `fut.Resolve(res, fut.N)`; for each entry, in order. -/
def callAll (es : List Entry) (res : Reply) : List Resolution := es.map fun e => ⟨e.fut, e.n, res⟩

/-- The resolutions of a batch that failed its argument check: index `start + j` gets
`err` at position `errpos` and `commonerr` elsewhere. -/
def batchResolutions (cb : Future) (start : BitVec 64) (len : Nat) (errpos : Option Nat)
    (err commonerr : RedisError) : List Resolution :=
  (List.range len).map fun j => ⟨cb, start + .ofNat 64 j, .error (if errpos = some j then err else commonerr)⟩

/-- What a call delivers to a producer's own future: its id, index and result. -/
def Resolution.delivered : Resolution → Option (Nat × BitVec 64 × Reply)
  | ⟨.dumb, _, _⟩ => none
  | ⟨.cb id, n, r⟩ => some (id, n, r)
  | ⟨.transaction id l off, n, r⟩ => if n = l then some (id, off, r) else none

/-- The `ASKING` marker's request, `Request{"ASKING", nil}`. -/
def askingReq : Request := ⟨Bytes.ofString "ASKING", [], by decide⟩

/-- The `MULTI` marker's request. -/
def multiReq : Request := ⟨Bytes.ofString "MULTI", [], by decide⟩

/-- The `EXEC` request that closes a transaction. -/
def execReq : Request := ⟨Bytes.ofString "EXEC", [], by decide⟩

/-- `DoAsking`. -/
def doAsking : Nat := 1

/-- `DoTransaction`. -/
def doTransaction : Nat := 2

/-- `conn.err(kind, code)`: a new error carrying the connection. -/
def connErr (kind : ErrorKind) (code : ErrorCode) : RedisError := (newErr kind code).withField .connection

/-- What the reader reads (`redis.ReadResponse(r)`, `resp.Read(r)`), as the server and the
network decide. -/
inductive ReadResult where
  | value (v : Nat)
  /-- A `*redis.Error`, which `HardError` calls hard or not. -/
  | redisError (e : RedisError) (hard : Bool)
  deriving DecidableEq, Repr

/-- The I/O error `setErr` makes of a failed read or write of socket `sock`:
`NewErrWrap(ErrKindIO, ErrIO, neterr)`. -/
def netError (sock : Nat) : RedisError := newErrWrap .io .io (.net sock)

/-! ## The (future, index) pairs -/

/-- The future and index `fut.call` resolves for an entry. -/
def Entry.key (e : Entry) : Future × BitVec 64 := (e.fut, e.n)

/-- The future and index of a `Resolve` call. -/
def Resolution.key (r : Resolution) : Future × BitVec 64 := (r.fut, r.n)

@[simp] theorem callAll_keys (es : List Entry) (r : Reply) :
    (callAll es r).map Resolution.key = es.map Entry.key := by
  simp [callAll, Resolution.key, Entry.key]

/-- A producer's own future, as against the markers' shared `dumb`. -/
def Future.own : Future → Bool
  | .dumb => false
  | _ => true

/-- The pairs `(cb, start + m)` for `m` from `j` on, `len` of them: the futures and indices
`SendBatchFlags` gives its requests. -/
def batchKeys (cb : Future) (start : BitVec 64) (j len : Nat) : List (Future × BitVec 64) :=
  (List.range' j len).map fun m => (cb, start + .ofNat 64 m)

theorem batchResolutions_keys (cb : Future) (start : BitVec 64) (len : Nat) (errpos : Option Nat)
    (err commonerr : RedisError) :
    (batchResolutions cb start len errpos err commonerr).map Resolution.key = batchKeys cb start 0 len := by
  simp [batchResolutions, batchKeys, Resolution.key, List.range_eq_range']

/-! ## Entries spread over places

The entries in flight sit in a list of places (shards, blocked producers, sessions); a step
that changes one place changes the whole by that place, as multisets. -/

/-- Replacing the element at `k` replaces its part of the concatenation, up to order. -/
theorem flatten_map_set_coe {α β : Type} (f : α → List β) {l : List α} {k : Nat} {a : α}
    (h : l[k]? = some a) (b : α) :
    ((l.map f).flatten : Multiset β) + f b = ((l.set k b).map f).flatten + f a := by
  induction l generalizing k with
  | nil => simp at h
  | cons x xs ih =>
    cases k with
    | zero =>
      obtain rfl : x = a := by simpa using h
      simp only [List.map_cons, List.flatten_cons, List.set_cons_zero, ← Multiset.coe_add]
      ac_rfl
    | succ k =>
      simp only [List.map_cons, List.flatten_cons, List.set_cons_succ, ← Multiset.coe_add, add_assoc,
        ih (by simpa using h)]

theorem getElem?_eq_some_getD {α : Type} {l : List α} {i : Nat} (hi : i < l.length) (x : α) :
    l[i]? = some (l.getD i x) := by
  simp [hi]

theorem lt_length_of_getD_eq_some {α : Type} {l : List (Option α)} {i : Nat} {a : α}
    (h : l.getD i none = some a) : i < l.length := by
  by_contra hi
  simp [List.getElem?_eq_none (Nat.le_of_not_lt hi)] at h

theorem getD_set_of_ne {α : Type} (l : List α) {i j : Nat} (h : i ≠ j) (x y : α) :
    (l.set i x).getD j y = l.getD j y := by
  simp [List.getElem?_set_ne h]

/-- Entries split off a whole, as a multiset, are called with the same pairs. -/
theorem keys_perm {l l' es : List Entry} {rs : List Resolution} (h : (l : Multiset Entry) = es + l')
    (hk : rs.map Resolution.key = es.map Entry.key) :
    List.Perm (l.map Entry.key) (rs.map Resolution.key ++ l'.map Entry.key) := by
  rw [hk, ← List.map_append]
  exact (Multiset.coe_eq_coe.mp (h.trans (Multiset.coe_add _ _))).map _

/-! ## Small connections for runs -/

/-- One shard, a synchronous `Connect`, reconnection enabled. -/
def oneShard : Config := ⟨1, false, false, by decide⟩

/-- Two shards, so that `one.futures` holds two batches. -/
def twoShards : Config := ⟨2, false, false, by decide⟩

/-- A formatter for runs that send no float. -/
def noFloats : FloatFormat := ⟨fun _ => [], fun _ => [], fun _ => (by decide : 0 < maxLen), fun _ => (by decide : 0 < maxLen)⟩

/-- `PING`. -/
def pingReq : Request := ⟨Bytes.ofString "PING", [], by decide⟩

/-- `SET k v` whose value has a type the serializer has no case for. -/
def setOther : Request :=
  ⟨Bytes.ofString "SET", [.string (Bytes.ofString "k"), .other 0], by decide⟩

end RedisPipe.Conn
