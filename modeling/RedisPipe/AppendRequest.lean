import RedisPipe.Digits

/-!
# `AppendRequest` and `ArgToString`

`request_writer.go:7-79` and `:155-199`. `AppendRequest` writes a request as a RESP
array of bulk strings: the command name, split in two at a space if it has one, then one
bulk string per argument. `ArgToString` is the projection cluster routing uses to find a
key's slot; its comment asks that it be kept "in sync with AppendRequest".

The result here (`appendRequest_respArray`) is that it is: for a request whose arguments
all have supported types, `AppendRequest` appends exactly `respArray` of the command's
parts followed by the `ArgToString` texts of the arguments, and a request with an
argument of any other type is refused by both. `respArray` is the RESP framing written
from the protocol's definition, with no reference to the serializer: a `*` header
counting the bulk strings, then each bulk string as a `$` header with its length, the
payload and `"\r\n"`.

The integer cases are where the two paths could drift: `AppendRequest` goes through
`appendBulkInt`/`appendBulkUint`, which never compute the payload's length before
writing it, while `ArgToString` calls `appendInt`/`appendUint` directly. The bulk
equations of `RedisPipe.Digits` close that gap.

Two results say what the serializer writes where a reader of the protocol might expect
something else:

* `cmdParts_last_space`: the scan for a space in the name keeps the last one it sees, so a
  name with two spaces is split at the second;
* `argToString_int`: an integer argument's text is the decimal text of its value, except
  that an unsigned zero gets the empty text, since `appendUint` writes no digit for zero.
-/

set_option autoImplicit false

namespace RedisPipe

/-! ## The serializer -/

/-- The scan `for i, c := range []byte(req.Cmd) { if c == ' ' { space = i } }`, from index
`i` with `space` so far; `none` is the initial `-1`. -/
def scanSpace : Nat → Option Nat → Bytes → Option Nat
  | _, space, [] => space
  | i, space, c :: cs => scanSpace (i + 1) (if c = 32 then some i else space) cs

/-- The error of an argument of an unsupported type:
`NewErr(ErrKindRequest, ErrArgumentType).With("val", val).With("request", req)`. -/
def argumentTypeError (val : Arg) (req : Request) : RedisError :=
  ((newErr .request .argumentType).withField (.val val)).withField (.request req)

/-- One `case` of the argument switch, before its trailing `"\r\n"`; `none` is the
`default` branch. Narrower integers are converted with `int64(v)` (sign extension) or
`uint64(v)` (zero extension). -/
def appendArg (ff : FloatFormat) (buf : Bytes) : Arg → Option Bytes
  | .string v => some (appendHead buf 36 (.ofNat 64 v.length) ++ v)
  | .bytes v => some (appendHead buf 36 (.ofNat 64 v.length) ++ v)
  | .int v => some (appendBulkInt buf v)
  | .uint v => some (appendBulkUint buf v)
  | .int64 v => some (appendBulkInt buf v)
  | .uint64 v => some (appendBulkUint buf v)
  | .int32 v => some (appendBulkInt buf (v.signExtend 64))
  | .uint32 v => some (appendBulkUint buf (v.setWidth 64))
  | .int8 v => some (appendBulkInt buf (v.signExtend 64))
  | .uint8 v => some (appendBulkUint buf (v.setWidth 64))
  | .int16 v => some (appendBulkInt buf (v.signExtend 64))
  | .uint16 v => some (appendBulkUint buf (v.setWidth 64))
  | .bool v => some (buf ++ if v then [36, 49, 13, 10, 49] else [36, 49, 13, 10, 48])
  | .float32 v => some (appendHead buf 36 (.ofNat 64 (ff.format32 v).length) ++ ff.format32 v)
  | .float64 v => some (appendHead buf 36 (.ofNat 64 (ff.format64 v).length) ++ ff.format64 v)
  | .nil => some (buf ++ [36, 48, 13, 10])
  | .other _ => none

/-- The argument loop: each case, then `"\r\n"`; the `default` branch returns
`nil` and the error at once. -/
def appendArgs (ff : FloatFormat) (req : Request) : Bytes → List Arg → Bytes × Option RedisError
  | buf, [] => (buf, none)
  | buf, val :: rest =>
    match appendArg ff buf val with
    | some buf => appendArgs ff req (buf ++ crlf) rest
    | none => ([], some (argumentTypeError val req))

/-- `AppendRequest`: the array header and the command name, in one bulk string or split
at `space` into two, then the arguments. -/
def appendRequest (ff : FloatFormat) (buf : Bytes) (req : Request) : Bytes × Option RedisError :=
  let buf := match scanSpace 0 none req.cmd with
    | none =>
      let buf := appendHead buf 42 (.ofNat 64 (req.args.length + 1))
      appendHead buf 36 (.ofNat 64 req.cmd.length) ++ req.cmd ++ crlf
    | some space =>
      let buf := appendHead buf 42 (.ofNat 64 (req.args.length + 2))
      let buf := appendHead buf 36 (.ofNat 64 space) ++ req.cmd.take space ++ crlf
      appendHead buf 36 (.ofNat 64 (req.cmd.length - space - 1)) ++ req.cmd.drop (space + 1) ++ crlf
  appendArgs ff req buf req.args

/-- `ArgToString`: the text of one argument, and whether its type is supported. Integers
are written by `appendInt`/`appendUint` into an empty buffer. -/
def argToString (ff : FloatFormat) : Arg → Bytes × Bool
  | .string v => (v, true)
  | .bytes v => (v, true)
  | .int v => (appendInt [] v, true)
  | .uint v => (appendUint [] v, true)
  | .int64 v => (appendInt [] v, true)
  | .uint64 v => (appendUint [] v, true)
  | .int32 v => (appendInt [] (v.signExtend 64), true)
  | .uint32 v => (appendUint [] (v.setWidth 64), true)
  | .int8 v => (appendInt [] (v.signExtend 64), true)
  | .uint8 v => (appendUint [] (v.setWidth 64), true)
  | .int16 v => (appendInt [] (v.signExtend 64), true)
  | .uint16 v => (appendUint [] (v.setWidth 64), true)
  | .bool v => (if v then [49] else [48], true)
  | .float32 v => (ff.format32 v, true)
  | .float64 v => (ff.format64 v, true)
  | .nil => ([], true)
  | .other _ => ([], false)

/-- `ArgToString` accepts exactly the types the serializer has a case for. -/
@[simp] theorem argToString_snd (ff : FloatFormat) (a : Arg) : (argToString ff a).2 = a.supported := by
  cases a <;> rfl

/-- Modelled from the spec: `redis.CheckArgs` is not under src/. `doSend` calls it because,
in its own words, "we do not pack request here, we need to be sure it could be packed", and
a malformed request is the one with an argument the serializer has no case for: so it
returns `AppendRequest`'s error for the first such argument. -/
def checkArgs (req : Request) : Option RedisError :=
  (req.args.find? fun a => !a.supported).map fun a => argumentTypeError a req

/-! ## RESP framing -/

/-- A bulk string: `"$<len>\r\n"`, the payload, `"\r\n"`. -/
def bulk (p : Bytes) : Bytes := bulkHead p.length ++ p ++ crlf

/-- A RESP array of bulk strings: `"*<count>\r\n"`, then the bulk strings. -/
def respArray (ps : List Bytes) : Bytes := 42 :: decimal ps.length ++ crlf ++ (ps.map bulk).flatten

/-- How a command name may be split: alone when it has no space, otherwise into two
parts that give the name back when joined with one space. -/
def CmdSplit (cmd : Bytes) (parts : List Bytes) : Prop :=
  (32 ∉ cmd ∧ parts = [cmd]) ∨ ∃ p q, parts = [p, q] ∧ p ++ 32 :: q = cmd

/-- The name's bulk strings as `AppendRequest` writes them: the name alone when the scan
finds no space, `req.Cmd[:space]` and `req.Cmd[space+1:]` otherwise. -/
def cmdParts (cmd : Bytes) : List Bytes :=
  match scanSpace 0 none cmd with
  | none => [cmd]
  | some space => [cmd.take space, cmd.drop (space + 1)]

/-! ## The command name -/

/-- **The scan settles on the last space**: the index it returns is that of a space with no
space after it, or the one it started with when the rest has no space. -/
theorem scanSpace_some_last (i : Nat) (sp : Option Nat) (cs : Bytes) (k : Nat)
    (h : scanSpace i sp cs = some k) :
    (sp = some k ∧ 32 ∉ cs) ∨ (i ≤ k ∧ cs[k - i]? = some 32 ∧ 32 ∉ cs.drop (k - i + 1)) := by
  induction cs generalizing i sp with
  | nil => exact .inl ⟨h, by simp⟩
  | cons c cs ih =>
    rcases ih _ _ h with ⟨h1, h2⟩ | ⟨h1, h2, h3⟩
    · split at h1
      · cases h1
        exact .inr ⟨le_refl _, by simp_all, by simpa using h2⟩
      · exact .inl ⟨h1, fun hm => (List.mem_cons.mp hm).elim (fun e => ‹¬c = 32› e.symm) h2⟩
    · refine .inr ⟨by omega, ?_, ?_⟩
      · rw [show k - i = (k - (i + 1)) + 1 by omega]
        simpa using h2
      · rwa [show k - i + 1 = (k - (i + 1) + 1) + 1 by omega, List.drop_succ_cons]

/-- Every index the scan settles on is that of a space, or the index it started from. -/
theorem scanSpace_some (i : Nat) (sp : Option Nat) (cs : Bytes) (k : Nat)
    (h : scanSpace i sp cs = some k) : sp = some k ∨ (i ≤ k ∧ cs[k - i]? = some 32) :=
  (scanSpace_some_last i sp cs k h).imp And.left fun h => ⟨h.1, h.2.1⟩

theorem scanSpace_none (i : Nat) (sp : Option Nat) (cs : Bytes)
    (h : scanSpace i sp cs = none) : sp = none ∧ 32 ∉ cs := by
  induction cs generalizing i sp with
  | nil => exact ⟨h, by simp⟩
  | cons c cs ih =>
    obtain ⟨h1, h2⟩ := ih _ _ h
    split at h1
    · cases h1
    · rename_i hc
      exact ⟨h1, fun hm => (List.mem_cons.mp hm).elim (fun e => hc e.symm) h2⟩

/-- The two parts of a name split at a space give the name back. -/
theorem take_append_drop_space (cmd : Bytes) (k : Nat) (h : cmd[k]? = some 32) :
    cmd.take k ++ 32 :: cmd.drop (k + 1) = cmd := by
  have hk : k < cmd.length := by
    by_contra hk; rw [List.getElem?_eq_none (by omega)] at h; cases h
  have hc : cmd[k] = 32 := by simp_all
  rw [← hc, ← List.drop_eq_getElem_cons hk]
  exact List.take_append_drop k cmd

theorem cmdParts_split (cmd : Bytes) : CmdSplit cmd (cmdParts cmd) := by
  unfold cmdParts
  cases hs : scanSpace 0 none cmd with
  | none => exact .inl ⟨(scanSpace_none _ _ _ hs).2, rfl⟩
  | some k =>
    obtain h | ⟨-, hk⟩ := scanSpace_some _ _ _ _ hs
    · cases h
    exact .inr ⟨_, _, rfl, take_append_drop_space _ _ (by simpa using hk)⟩

/-- **A name with a space is split at its last space**: `AppendRequest` writes the text
before it and the text after it, which has no space. -/
theorem cmdParts_last_space (cmd : Bytes) (h : 32 ∈ cmd) :
    ∃ p q, cmdParts cmd = [p, q] ∧ p ++ 32 :: q = cmd ∧ 32 ∉ q := by
  unfold cmdParts
  cases hs : scanSpace 0 none cmd with
  | none => exact absurd h (scanSpace_none _ _ _ hs).2
  | some k =>
    rcases scanSpace_some_last _ _ _ _ hs with ⟨h1, -⟩ | ⟨-, hk, hlast⟩
    · cases h1
    exact ⟨_, _, rfl, take_append_drop_space _ _ (by simpa using hk), by simpa using hlast⟩

/-- The array header and the command name: `AppendRequest` writes `"*<count>\r\n"` and
the name's parts as bulk strings, counting the parts and the arguments, then runs the
argument loop. -/
theorem appendRequest_eq_cmdParts (ff : FloatFormat) (buf : Bytes) (req : Request) :
    appendRequest ff buf req = appendArgs ff req
      (buf ++ 42 :: decimal ((cmdParts req.cmd).length + req.args.length) ++ crlf ++
        ((cmdParts req.cmd).map bulk).flatten) req.args := by
  obtain ⟨hcmd, hargs, -⟩ := req.sized
  unfold maxLen at hcmd hargs
  unfold appendRequest cmdParts
  cases hs : scanSpace 0 none req.cmd with
  | none =>
    simp only [appendHead_ofNat _ _ _ (show req.args.length + 1 < 2 ^ 63 by omega),
      appendHead_ofNat _ _ _ (show req.cmd.length < 2 ^ 63 by omega)]
    simp [bulk, bulkHead, Nat.add_comm]
  | some k =>
    obtain h | ⟨-, hk⟩ := scanSpace_some _ _ _ _ hs
    · cases h
    have hlt : k < req.cmd.length := by
      by_contra h; rw [List.getElem?_eq_none (by omega)] at hk; cases hk
    simp only [appendHead_ofNat _ _ _ (show req.args.length + 2 < 2 ^ 63 by omega),
      appendHead_ofNat _ _ _ (show k < 2 ^ 63 by omega),
      appendHead_ofNat _ _ _ (show req.cmd.length - k - 1 < 2 ^ 63 by omega)]
    simp [bulk, bulkHead, Nat.add_comm, List.length_take, List.length_drop,
      Nat.min_eq_left hlt.le, show req.cmd.length - (k + 1) = req.cmd.length - k - 1 by omega]

/-- The same, with the parts known only to split the name. -/
theorem appendRequest_cmd (ff : FloatFormat) (buf : Bytes) (req : Request) :
    ∃ parts, CmdSplit req.cmd parts ∧
      appendRequest ff buf req = appendArgs ff req
        (buf ++ 42 :: decimal (parts.length + req.args.length) ++ crlf ++ (parts.map bulk).flatten)
        req.args :=
  ⟨cmdParts req.cmd, cmdParts_split req.cmd, appendRequest_eq_cmdParts ff buf req⟩

/-- `CONFIG GET maxmemory`, with the parameter written into the name. -/
def configGet : Request := ⟨Bytes.ofString "CONFIG GET maxmemory", [], by decide⟩

theorem config_get_split_at_last_space (ff : FloatFormat) :
    cmdParts configGet.cmd = [Bytes.ofString "CONFIG GET", Bytes.ofString "maxmemory"] ∧
    appendRequest ff [] configGet =
      (Bytes.ofString "*2\r\n$10\r\nCONFIG GET\r\n$9\r\nmaxmemory\r\n", none) :=
  ⟨rfl, rfl⟩

/-! ## The arguments -/

/-- Each supported argument is written as the bulk string of its `ArgToString` text. -/
theorem appendArg_eq (ff : FloatFormat) (buf : Bytes) (a : Arg) (hs : a.supported = true)
    (hsize : a.size < maxLen) :
    appendArg ff buf a = some (buf ++ bulkHead (argToString ff a).1.length ++ (argToString ff a).1) := by
  have h32 := ff.format32_short
  have h64 := ff.format64_short
  unfold maxLen at hsize h32 h64
  cases a with
  | string v | bytes v =>
    rw [appendArg, appendHead_ofNat _ _ _ (by simp only [Arg.size] at hsize; omega)]
    simp [argToString, bulkHead]
  | int v | int64 v | int32 v | int8 v | int16 v =>
    simp [appendArg, argToString, appendBulkInt_eq, appendInt_eq]
  | uint v | uint64 v | uint32 v | uint8 v | uint16 v =>
    simp [appendArg, argToString, appendBulkUint_eq, appendUint_nil]
  | bool v => cases v <;> simp [appendArg, argToString, bulkHead, decimal_of_lt_ten, digitByte, crlf]
  | float32 v =>
    rw [appendArg, appendHead_ofNat _ _ _ (lt_trans (h32 v) (by norm_num))]
    simp [argToString, bulkHead]
  | float64 v =>
    rw [appendArg, appendHead_ofNat _ _ _ (lt_trans (h64 v) (by norm_num))]
    simp [argToString, bulkHead]
  | nil => simp [appendArg, argToString, bulkHead, decimal, crlf]
  | other _ => cases hs

theorem appendArg_eq_none_iff (ff : FloatFormat) (buf : Bytes) (a : Arg) :
    appendArg ff buf a = none ↔ a.supported = false := by
  cases a <;> simp [appendArg, Arg.supported]

/-- With every argument supported, the loop writes one bulk string per argument. -/
theorem appendArgs_supported (ff : FloatFormat) (req : Request) (buf : Bytes) (args : List Arg)
    (h : ∀ a ∈ args, a.supported = true ∧ a.size < maxLen) :
    appendArgs ff req buf args = (buf ++ (args.map fun a => bulk (argToString ff a).1).flatten, none) := by
  induction args generalizing buf with
  | nil => simp [appendArgs]
  | cons a rest ih =>
    obtain ⟨hs, hz⟩ := h a (by simp)
    simp only [appendArgs, appendArg_eq ff buf a hs hz]
    rw [ih _ fun b hb => h b (by simp [hb])]
    simp [bulk]

/-- An argument of an unsupported type makes the loop return an error. -/
theorem appendArgs_unsupported (ff : FloatFormat) (req : Request) (buf : Bytes) (args : List Arg)
    (h : ∃ a ∈ args, a.supported = false) : (appendArgs ff req buf args).2.isSome := by
  induction args generalizing buf with
  | nil => simp at h
  | cons a rest ih =>
    simp only [appendArgs]
    cases ha : appendArg ff buf a with
    | none => rfl
    | some b =>
      apply ih
      obtain ⟨x, hx, hxs⟩ := h
      rcases List.mem_cons.mp hx with rfl | hx
      · rw [(appendArg_eq_none_iff ff buf x).mpr hxs] at ha; cases ha
      · exact ⟨x, hx, hxs⟩

/-! ## Integer arguments -/

/-- The mathematical value of an integer argument: `int64(v)` of a signed one, `uint64(v)`
of an unsigned one; `none` for the other types. -/
def Arg.intValue : Arg → Option Int
  | .int v => some v.toInt
  | .uint v => some v.toNat
  | .int64 v => some v.toInt
  | .uint64 v => some v.toNat
  | .int32 v => some v.toInt
  | .uint32 v => some v.toNat
  | .int8 v => some v.toInt
  | .uint8 v => some v.toNat
  | .int16 v => some v.toInt
  | .uint16 v => some v.toNat
  | _ => none

/-- The unsigned integer types, which `ArgToString` and `AppendRequest` write through
`appendUint`. -/
def Arg.isUnsigned : Arg → Bool
  | .uint _ | .uint64 _ | .uint32 _ | .uint8 _ | .uint16 _ => true
  | _ => false

/-- `int64(v)` of a narrower signed integer keeps its value. -/
theorem toInt_signExtend {w : Nat} (hw : w ≤ 64) (v : BitVec w) : (v.signExtend 64).toInt = v.toInt := by
  rw [BitVec.signExtend, BitVec.toInt_ofInt]
  have h1 : (2 : Nat) ^ w ≤ 2 ^ 64 := Nat.pow_le_pow_right (by norm_num) hw
  have hv := v.isLt
  rw [BitVec.toInt_eq_toNat_cond]
  simp only [Int.bmod]
  split <;> split <;> omega

/-- `uint64(v)` of a narrower unsigned integer keeps its value. -/
theorem toNat_setWidth_of_le {w : Nat} (hw : w ≤ 64) (v : BitVec w) : (v.setWidth 64).toNat = v.toNat := by
  rw [BitVec.toNat_setWidth, Nat.mod_eq_of_lt (lt_of_lt_of_le v.isLt (Nat.pow_le_pow_right (by norm_num) hw))]

/-- **The text of an integer argument.** `ArgToString` accepts every integer argument and
gives the decimal text of its value, `math.MinInt64` and `math.MaxUint64` included, except
that an unsigned zero gives the empty text: `appendUint`'s loop runs `for u > 0`, and only
`appendInt` has a case for the values below ten. `AppendRequest`'s bulk string for the
argument carries the same text. -/
theorem argToString_int (ff : FloatFormat) (a : Arg) (z : Int) (h : a.intValue = some z) :
    argToString ff a = (if a.isUnsigned ∧ z = 0 then [] else intDecimal z, true) ∧
      ∀ buf, appendArg ff buf a =
        some (buf ++ bulkHead (argToString ff a).1.length ++ (argToString ff a).1) := by
  refine ⟨?_, fun buf => appendArg_eq ff buf a ?_ ?_⟩
  · cases a <;> simp only [Arg.intValue, Option.some.injEq, reduceCtorEq] at h <;> subst h <;>
      simp [argToString, Arg.isUnsigned, appendInt_eq, appendUint_nil, uintText, intDecimal,
        toInt_signExtend, -BitVec.toNat_setWidth, toNat_setWidth_of_le, Int.not_lt.mpr (Int.natCast_nonneg _)]
  · cases a <;> simp_all [Arg.intValue, Arg.supported]
  · cases a <;> simp_all [Arg.intValue, Arg.size, maxLen]

/-- `EXPIRE k 0`, with the timeout a `uint`. -/
def expireZero : Request :=
  ⟨Bytes.ofString "EXPIRE", [.string (Bytes.ofString "k"), .uint 0], by decide⟩

theorem unsigned_zero_written_empty (ff : FloatFormat) :
    (∀ a ∈ [Arg.uint 0, .uint64 0, .uint32 0, .uint8 0, .uint16 0],
      a.intValue = some 0 ∧ argToString ff a = ([], true)) ∧
    intDecimal 0 = Bytes.ofString "0" ∧
    appendRequest ff [] expireZero =
      (Bytes.ofString "*3\r\n$6\r\nEXPIRE\r\n$1\r\nk\r\n$0\r\n\r\n", none) := by
  refine ⟨fun a ha => ?_, rfl, rfl⟩
  simp only [List.mem_cons, List.mem_singleton, List.not_mem_nil, or_false] at ha
  rcases ha with rfl | rfl | rfl | rfl | rfl <;> exact ⟨rfl, rfl⟩

/-! ## Appending to a buffer -/

theorem appendHead_append (pre b : Bytes) (t : UInt8) (i : BitVec 64) :
    appendHead (pre ++ b) t i = pre ++ appendHead b t i := by
  simp [appendHead_eq]

theorem appendArg_append (ff : FloatFormat) (pre b : Bytes) (a : Arg) :
    appendArg ff (pre ++ b) a = (appendArg ff b a).map (pre ++ ·) := by
  cases a <;> simp [appendArg, appendHead_eq, appendBulkInt_eq, appendBulkUint_eq]

theorem appendArgs_append (ff : FloatFormat) (req : Request) (pre b : Bytes) (args : List Arg) :
    appendArgs ff req (pre ++ b) args =
      if (appendArgs ff req b args).2.isSome then appendArgs ff req b args
      else (pre ++ (appendArgs ff req b args).1, none) := by
  induction args generalizing b with
  | nil => simp [appendArgs]
  | cons a rest ih =>
    simp only [appendArgs, appendArg_append]
    cases appendArg ff b a with
    | none => rfl
    | some x => simpa using ih (x ++ crlf)

theorem appendRequest_append_prefix (ff : FloatFormat) (pre b : Bytes) (req : Request) :
    appendRequest ff (pre ++ b) req =
      if (appendRequest ff b req).2.isSome then appendRequest ff b req
      else (pre ++ (appendRequest ff b req).1, none) := by
  unfold appendRequest
  split <;> simpa only [appendHead_append, List.append_assoc] using appendArgs_append ff req pre _ req.args

/-- **`AppendRequest` appends to its buffer what it writes into an empty one**, or fails
as it fails there. -/
theorem appendRequest_append (ff : FloatFormat) (buf : Bytes) (req : Request) :
    appendRequest ff buf req =
      if (appendRequest ff [] req).2.isSome then appendRequest ff [] req
      else (buf ++ (appendRequest ff [] req).1, none) := by
  simpa using appendRequest_append_prefix ff buf [] req

/-- Whether `AppendRequest` fails, and with which error, does not depend on the buffer. -/
theorem appendRequest_snd (ff : FloatFormat) (buf : Bytes) (req : Request) :
    (appendRequest ff buf req).2 = (appendRequest ff [] req).2 := by
  rw [appendRequest_append ff buf req]
  split
  · rfl
  · simp_all

/-- On an error the argument loop returns `nil`, whatever it had written. -/
theorem appendArgs_fst_of_error (ff : FloatFormat) (req : Request) (buf : Bytes) (args : List Arg)
    (h : (appendArgs ff req buf args).2.isSome) : (appendArgs ff req buf args).1 = [] := by
  induction args generalizing buf with
  | nil => simp [appendArgs] at h
  | cons a rest ih =>
    simp only [appendArgs] at h ⊢
    cases ha : appendArg ff buf a with
    | none => rfl
    | some b => rw [ha] at h; exact ih _ h

/-- **A request `AppendRequest` refuses takes the buffer with it**: it returns `nil` and
the error, not the buffer it was given. -/
theorem appendRequest_fst_of_error (ff : FloatFormat) (buf : Bytes) (req : Request)
    (h : (appendRequest ff buf req).2.isSome) : (appendRequest ff buf req).1 = [] := by
  rw [appendRequest_eq_cmdParts] at h ⊢
  exact appendArgs_fst_of_error ff req _ _ h

/-- What `AppendRequest` writes for a request it accepts is never empty: it starts with the
array header. -/
theorem appendRequest_ne_nil (ff : FloatFormat) (req : Request) (h : (appendRequest ff [] req).2 = none) :
    (appendRequest ff [] req).1 ≠ [] := by
  obtain ⟨parts, -, heq⟩ := appendRequest_cmd ff [] req
  have hs := appendArgs_append ff req
    (42 :: decimal (parts.length + req.args.length) ++ crlf ++ (parts.map bulk).flatten) [] req.args
  rw [List.append_nil] at hs
  rw [heq, List.nil_append, hs] at h ⊢
  split
  · simp_all
  · simp

/-- **`AppendRequest` writes one RESP array, in sync with `ArgToString`.** For a request whose
arguments all have supported types, `AppendRequest` returns the buffer followed by exactly one
RESP array: the command name's parts (the name itself, or the two sides of a space) and then
the `ArgToString` text of each argument, in order, every one of which `ArgToString` accepts.
An argument of any other type makes `AppendRequest` return an error and `ArgToString`
return `ok = false`. -/
theorem appendRequest_respArray (ff : FloatFormat) (buf : Bytes) (req : Request) :
    ((∀ a ∈ req.args, a.supported = true) →
      ∃ parts, CmdSplit req.cmd parts ∧ (∀ a ∈ req.args, (argToString ff a).2 = true) ∧
        appendRequest ff buf req =
          (buf ++ respArray (parts ++ req.args.map fun a => (argToString ff a).1), none)) ∧
    (∀ a ∈ req.args, a.supported = false →
      (appendRequest ff buf req).2.isSome ∧ (argToString ff a).2 = false) := by
  obtain ⟨parts, hsplit, heq⟩ := appendRequest_cmd ff buf req
  refine ⟨fun hs => ⟨parts, hsplit, fun a ha => ?_, ?_⟩, fun a ha hu => ⟨?_, ?_⟩⟩
  · rw [argToString_snd]; exact hs a ha
  · rw [heq, appendArgs_supported _ _ _ _ fun a ha => ⟨hs a ha, req.sized.2.2 a ha⟩]
    simp [respArray, List.map_append, Function.comp_def]
  · rw [heq]; exact appendArgs_unsupported _ _ _ _ ⟨a, ha, hu⟩
  · rw [argToString_snd]; exact hu

end RedisPipe
