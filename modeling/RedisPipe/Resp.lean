import RedisPipe.Conn.Future

/-!
# Reading back what `AppendRequest` writes

`request_writer.go:7-79`. A Redis server reads a request as a RESP array of bulk strings:
`"*<count>\r\n"`, then `count` times `"$<len>\r\n"`, `len` bytes and `"\r\n"`. The reading
side is not in the sources (responses go to `resp.Read`, requests to the server), so this
module states the request format by a reader of its own, `readCommand` for one request and
`readStream` for a buffer of them, and proves that the writer and the reader agree:

* `readCommand_respArray`: the reader gives back the parts of any RESP array, whatever
  follows it. A payload may hold any byte, `"\r\n"` included: the reader takes it by its
  length, and only the decimal headers are read up to a line end, which a decimal text never
  contains (`cr_not_mem_decimal`).
* `appendRequest_eq_respArray`: what `AppendRequest` writes for a request it accepts is the
  RESP array of the request's words (`Request.words`): the command name's parts, then each
  argument's `ArgToString` text.
* `readStream_appendRequests`: a buffer built by `AppendRequest` calls one after another
  reads back as the list of the requests' words, in order. `RedisPipe.Buffered.Wire`
  applies the same round trip (`readStream_flatten`) to the packets the buffered version's
  writer writes.
-/

set_option autoImplicit false

namespace RedisPipe

/-! ## The reader -/

/-- The bytes before the first `"\r\n"`, and those after it. -/
def readLine : Bytes → Option (Bytes × Bytes)
  | [] => none
  | c :: rest =>
    if c = 13 ∧ rest.head? = some 10 then some ([], rest.drop 1)
    else (readLine rest).map fun (l, r) => (c :: l, r)

/-- The number ASCII digits spell, read from the left onto `acc`; `none` at any other byte. -/
def digitsValue (acc : Nat) : Bytes → Option Nat
  | [] => some acc
  | c :: cs => if 48 ≤ c.toNat ∧ c.toNat ≤ 57 then digitsValue (acc * 10 + (c.toNat - 48)) cs else none

/-- A count or a length: one or more ASCII digits. -/
def readNat (l : Bytes) : Option Nat := if l = [] then none else digitsValue 0 l

/-- A bulk string: `"$"`, its length, `"\r\n"`, that many bytes, `"\r\n"`. -/
def readBulk : Bytes → Option (Bytes × Bytes)
  | [] => none
  | c :: bs =>
    if c = 36 then do
      let (line, r) ← readLine bs
      let n ← readNat line
      if (r.drop n).take 2 = crlf then some (r.take n, r.drop (n + 2)) else none
    else none

/-- `k` bulk strings in a row. -/
def readBulks : Nat → Bytes → Option (List Bytes × Bytes)
  | 0, bs => some ([], bs)
  | k + 1, bs => do
    let (p, r) ← readBulk bs
    let (ps, r') ← readBulks k r
    some (p :: ps, r')

/-- One request: `"*"`, the count, `"\r\n"`, that many bulk strings. -/
def readCommand : Bytes → Option (List Bytes × Bytes)
  | [] => none
  | c :: bs =>
    if c = 42 then do
      let (line, r) ← readLine bs
      let n ← readNat line
      readBulks n r
    else none

/-- Requests one after another until the bytes run out; `fuel` bounds their number. -/
def readCommands : Nat → Bytes → Option (List (List Bytes))
  | _, [] => some []
  | 0, _ :: _ => none
  | fuel + 1, c :: bs => do
    let (ps, r) ← readCommand (c :: bs)
    let pss ← readCommands fuel r
    some (ps :: pss)

/-- A buffer of requests. Each takes at least one byte, so its length is fuel enough. -/
def readStream (bs : Bytes) : Option (List (List Bytes)) := readCommands bs.length bs

/-! ## Decimal headers -/

theorem digitByte_toNat {d : Nat} (hd : d < 10) : (digitByte d).toNat = d + 48 := by
  interval_cases d <;> rfl

/-- A decimal text is digits only, so it holds no carriage return. -/
theorem cr_not_mem_decimal (n : Nat) : (13 : UInt8) ∉ decimal n := by
  unfold decimal
  split
  · decide
  · simp only [List.mem_map, List.mem_reverse, not_exists, not_and]
    intro d hd h
    have := congrArg UInt8.toNat h
    rw [digitByte_toNat (Nat.digits_lt_base (by norm_num) hd), show (13 : UInt8).toNat = 13 from rfl] at this
    omega

/-- The line reader stops at the first line end. -/
theorem readLine_append (l rest : Bytes) (h : (13 : UInt8) ∉ l) :
    readLine (l ++ 13 :: 10 :: rest) = some (l, rest) := by
  induction l with
  | nil => simp [readLine]
  | cons c cs ih =>
    simp only [List.mem_cons, not_or] at h
    simp [readLine, Ne.symm h.1, ih h.2]

/-- A digit appended to the right multiplies the value so far by ten. -/
theorem digitsValue_append_digit (acc : Nat) (l : Bytes) {d : Nat} (hd : d < 10) :
    digitsValue acc (l ++ [digitByte d]) = (digitsValue acc l).map (· * 10 + d) := by
  induction l generalizing acc with
  | nil => simp [digitsValue, digitByte_toNat hd]; omega
  | cons c cs ih =>
    simp only [List.cons_append, digitsValue]
    split_ifs
    · exact ih _
    · rfl

theorem digitsValue_decimal (n : Nat) : digitsValue 0 (decimal n) = some n := by
  induction n using Nat.strong_induction_on with
  | _ n ih =>
    rcases Nat.lt_or_ge n 10 with h | h
    · simpa [decimal_of_lt_ten n h, digitsValue] using digitsValue_append_digit 0 [] h
    · rw [decimal_of_ten_le n h, digitsValue_append_digit _ _ (Nat.mod_lt n (by norm_num)),
        ih (n / 10) (by omega)]
      simp only [Option.map_some', Nat.div_add_mod']

theorem readNat_decimal (n : Nat) : readNat (decimal n) = some n := by
  rw [readNat, if_neg (decimal_ne_nil n), digitsValue_decimal]

/-! ## Round trips -/

/-- A bulk string reads back as its payload, whatever the payload and the bytes after it. -/
theorem readBulk_bulk (p rest : Bytes) : readBulk (bulk p ++ rest) = some (p, rest) := by
  have hline := readLine_append (decimal p.length) (p ++ 13 :: 10 :: rest) (cr_not_mem_decimal _)
  simp only [bulk, bulkHead, crlf, List.cons_append, List.append_assoc, readBulk, if_true] at hline ⊢
  simp [hline, readNat_decimal, List.drop_append_of_le_length, List.take_append_of_le_length]

theorem readBulks_flatten (ps : List Bytes) (rest : Bytes) :
    readBulks ps.length ((ps.map bulk).flatten ++ rest) = some (ps, rest) := by
  induction ps with
  | nil => rfl
  | cons p ps ih => simp [readBulks, List.append_assoc, readBulk_bulk, ih]

/-- **A RESP array reads back as its parts**, whatever follows it. -/
theorem readCommand_respArray (ps : List Bytes) (rest : Bytes) :
    readCommand (respArray ps ++ rest) = some (ps, rest) := by
  have hline := readLine_append (decimal ps.length) ((ps.map bulk).flatten ++ rest) (cr_not_mem_decimal _)
  simp only [respArray, crlf, List.cons_append, List.append_assoc, readCommand, if_true] at hline ⊢
  simp [hline, readNat_decimal, readBulks_flatten]

theorem length_le_flatten_respArray (pss : List (List Bytes)) :
    pss.length ≤ ((pss.map respArray).flatten).length := by
  induction pss with
  | nil => simp
  | cons ps pss ih =>
    have : 1 ≤ (respArray ps).length := by simp [respArray]
    rw [List.map_cons, List.flatten_cons, List.length_append, List.length_cons]
    omega

theorem readCommands_flatten (pss : List (List Bytes)) {fuel : Nat}
    (h : pss.length ≤ fuel) : readCommands fuel ((pss.map respArray).flatten) = some pss := by
  induction pss generalizing fuel with
  | nil => simp [readCommands]
  | cons ps pss ih =>
    obtain ⟨fuel, rfl⟩ : ∃ f, fuel = f + 1 := ⟨fuel - 1, by simp at h; omega⟩
    have hc := readCommand_respArray ps (pss.map respArray).flatten
    simp only [List.map_cons, List.flatten_cons, respArray, List.cons_append, List.append_assoc] at hc ⊢
    simp [readCommands, hc, ih (by simpa using h)]

/-- **A buffer of RESP arrays reads back as their parts, array by array.** -/
theorem readStream_flatten (pss : List (List Bytes)) :
    readStream ((pss.map respArray).flatten) = some pss :=
  readCommands_flatten pss (length_le_flatten_respArray pss)

/-! ## What `AppendRequest` writes -/

/-- The words a server reads for a request: the command name's parts as `AppendRequest`
splits it, then each argument's `ArgToString` text. -/
def Request.words (ff : FloatFormat) (req : Request) : List Bytes :=
  cmdParts req.cmd ++ req.args.map fun a => (argToString ff a).1

/-- What `AppendRequest` writes for a request it accepts is the RESP array of its words. -/
theorem appendRequest_eq_respArray (ff : FloatFormat) (req : Request) (h : (appendRequest ff [] req).2 = none) :
    (appendRequest ff [] req).1 = respArray (req.words ff) := by
  rw [appendRequest_eq_cmdParts] at h ⊢
  have hs : ∀ a ∈ req.args, a.supported = true := fun a ha => by
    by_contra hu
    exact absurd h (Option.isSome_iff_ne_none.mp
      (appendArgs_unsupported ff req _ req.args ⟨a, ha, by simpa using hu⟩))
  rw [appendArgs_supported _ _ _ _ fun a ha => ⟨hs a ha, req.sized.2.2 a ha⟩]
  simp [respArray, Request.words, List.map_append, Function.comp_def]

/-- A buffer built by `AppendRequest` calls, each accepted, is the RESP arrays of their
requests' words after what it started with. -/
theorem foldl_appendRequest (ff : FloatFormat) (reqs : List Request)
    (h : ∀ r ∈ reqs, (appendRequest ff [] r).2 = none) (buf : Bytes) :
    reqs.foldl (fun b r => (appendRequest ff b r).1) buf = buf ++ (reqs.map fun r => respArray (r.words ff)).flatten := by
  induction reqs generalizing buf with
  | nil => simp
  | cons r rs ih =>
    have hr := h r (by simp)
    rw [List.foldl_cons, ih (fun r' hr' => h r' (by simp [hr'])), appendRequest_append, if_neg (by simp [hr]),
      appendRequest_eq_respArray ff r hr]
    simp

/-- **Requests appended one after another read back one by one.** A buffer built by calling
`AppendRequest` on each request in turn, each accepted, reads back as the list of the
requests' words, in order: the framing delimits each request even where a payload holds
`"\r\n"`. -/
theorem readStream_appendRequests (ff : FloatFormat) (reqs : List Request)
    (h : ∀ r ∈ reqs, (appendRequest ff [] r).2 = none) :
    readStream (reqs.foldl (fun b r => (appendRequest ff b r).1) []) = some (reqs.map (Request.words ff)) := by
  rw [foldl_appendRequest ff reqs h, List.nil_append, ← readStream_flatten (reqs.map (Request.words ff)),
    List.map_map]
  rfl

/-- `SET k "\r\n"`, a value that is a line end, then `PING`. -/
def setCrlfPing : List Request :=
  [⟨Bytes.ofString "SET", [.string (Bytes.ofString "k"), .string [13, 10]], by decide⟩,
    ⟨Bytes.ofString "PING", [], by decide⟩]

theorem readStream_appendRequests_setCrlfPing :
    (∀ r ∈ setCrlfPing, (appendRequest Conn.noFloats [] r).2 = none) ∧
      readStream (setCrlfPing.foldl (fun b r => (appendRequest Conn.noFloats b r).1) []) =
        some [[Bytes.ofString "SET", Bytes.ofString "k", [13, 10]], [Bytes.ofString "PING"]] :=
  ⟨by decide, (readStream_appendRequests Conn.noFloats setCrlfPing (by decide)).trans (by decide)⟩

end RedisPipe
