import Mathlib.Data.List.Basic

/-!
# The data model of `redis/request_writer.go`

A request is a command name and a list of arguments, each a Go value of some dynamic
type (`Request{Cmd string; Args []interface{}}`). The serializer switches on that
dynamic type, so an argument here is one constructor per `case` of the switch in
`AppendRequest`, in the switch's order, and `other` for the `default` branch: every
value whose dynamic type the switch does not name.

Go strings and byte slices are both byte sequences, so both are `Bytes`. Go's fixed
width integers are `BitVec`s of their width; `int` and `uint` are 64 bits wide, as on
every platform this library targets. Floats are kept as their IEEE bits, and
`strconv.FormatFloat` is left uninterpreted (`FloatFormat`): the serializer and
`ArgToString` call it the same way, which is all the results about them need.

Errors are `redis.Error` values: a kind, a code, the cause they wrap and the
`With(key, value)` context, in the order it was added.
-/

set_option autoImplicit false

namespace RedisPipe

/-- A Go `[]byte`; a Go `string` is one too. -/
abbrev Bytes := List UInt8

/-- The bytes of an ASCII literal. -/
def Bytes.ofString (s : String) : Bytes := s.toList.map fun c => c.toNat.toUInt8

/-- `'\r', '\n'`. -/
def crlf : Bytes := [13, 10]

/-- A bound on every length the serializer writes in a header. Go's `len` is an `int`, and a
value within a factor of two of `math.MaxInt` could not be held in memory; below this bound
`int64(len(x)+2)` is exact. It is `2 ^ 62`. -/
def maxLen : Nat := 4611686018427387904

/-- `strconv.FormatFloat(v, 'f', -1, bitSize)` at the two widths the serializer uses,
left uninterpreted; what it returns is a Go string. -/
structure FloatFormat where
  format32 : BitVec 32 → Bytes
  format64 : BitVec 64 → Bytes
  format32_short : ∀ v, (format32 v).length < maxLen
  format64_short : ∀ v, (format64 v).length < maxLen

/-- An element of `Request.Args`, by dynamic type. -/
inductive Arg where
  | string (v : Bytes)
  | bytes (v : Bytes)
  | int (v : BitVec 64)
  | uint (v : BitVec 64)
  | int64 (v : BitVec 64)
  | uint64 (v : BitVec 64)
  | int32 (v : BitVec 32)
  | uint32 (v : BitVec 32)
  | int8 (v : BitVec 8)
  | uint8 (v : BitVec 8)
  | int16 (v : BitVec 16)
  | uint16 (v : BitVec 16)
  | bool (v : Bool)
  | float32 (v : BitVec 32)
  | float64 (v : BitVec 64)
  | nil
  /-- A value of a dynamic type the switch has no case for; `tag` tells such values apart. -/
  | other (tag : Nat)
  deriving DecidableEq, Repr

/-- The dynamic types `AppendRequest` and `ArgToString` accept. -/
def Arg.supported : Arg → Bool
  | .other _ => false
  | _ => true

/-- The length of a string or byte-slice argument. -/
def Arg.size : Arg → Nat
  | .string v => v.length
  | .bytes v => v.length
  | _ => 0

/-- `redis.Request`, with the lengths of a Go value (`maxLen`). -/
structure Request where
  cmd : Bytes
  args : List Arg
  sized : cmd.length < maxLen ∧ args.length < maxLen ∧ ∀ a ∈ args, a.size < maxLen
  deriving DecidableEq, Repr

/-- `redis.ErrorKind`. -/
inductive ErrorKind where
  | opts | request | connection | context | response | io
  deriving DecidableEq, Repr

/-- `redis.ErrorCode`, the codes the modelled code raises. -/
inductive ErrorCode where
  | contextIsNil | noAddressProvided | argumentType | batchFormat | requestCancelled
  | requestIsNotActive | notConnected | contextClosed | dial | connSetup | auth | ping | io
  deriving DecidableEq, Repr

/-- What an error wraps (`Wrap`, `NewErrWrap`). -/
inductive Cause where
  | none
  /-- A read or write failure of socket `sock`. -/
  | net (sock : Nat)
  /-- `conn.ctx.Err()`. -/
  | context
  /-- Another `redis.Error`, by kind and code. -/
  | error (kind : ErrorKind) (code : ErrorCode)
  deriving DecidableEq, Repr

/-- One `With(key, value)` entry, by key. -/
inductive Field where
  | val (a : Arg)
  | request (r : Request)
  | requests (rs : List Request)
  /-- `"connection"`: the connection itself; one connection is modelled. -/
  | connection
  deriving DecidableEq, Repr

/-- `redis.Error`. -/
structure RedisError where
  kind : ErrorKind
  code : ErrorCode
  cause : Cause
  fields : List Field
  deriving DecidableEq, Repr

/-- `redis.NewErr`. -/
def newErr (kind : ErrorKind) (code : ErrorCode) : RedisError := ⟨kind, code, .none, []⟩

/-- `redis.NewErrWrap`. -/
def newErrWrap (kind : ErrorKind) (code : ErrorCode) (cause : Cause) : RedisError :=
  ⟨kind, code, cause, []⟩

/-- `(*Error).With`: the context grows at its end. -/
def RedisError.withField (e : RedisError) (f : Field) : RedisError :=
  { e with fields := e.fields ++ [f] }

/-- `(*Error).Wrap`. -/
def RedisError.wrap (e : RedisError) (c : Cause) : RedisError := { e with cause := c }

@[simp] theorem RedisError.withField_code (e : RedisError) (f : Field) :
    (e.withField f).code = e.code := rfl

@[simp] theorem RedisError.wrap_code (e : RedisError) (c : Cause) : (e.wrap c).code = e.code :=
  rfl

end RedisPipe
