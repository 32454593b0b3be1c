import RedisPipe.Raw.Steps

/-!
# The writer's serialization loop

`request_writer.go:976-988`. After swapping a shard's list out, the writer appends each
entry's request to its packet and keeps the entry for the reader unless the check fails:

```go
for j, fut := range futures {
	var err error
	if packet, err = redis.AppendRequest(packet, fut.req); err != nil {
		conn.call(fut, err)
		continue
	}
	...
}
```

The writer takes one step per entry (`wstep` at `WPc.serialize`), since `conn.call` runs a
future's callback between two of them. `serializeLoop` is the whole loop as one function,
and `run_serialize` says the writer's steps compute it.

Two things decide what the loop leaves behind, and both lose data:

* `err` is an `error` interface assigned the `*redis.Error` that `AppendRequest` returns, so
  it is non-nil even when that pointer is nil: every entry goes to `conn.call`, and none is
  kept for the reader (`serializeLoop_go`, `checkFails = true`);
* `AppendRequest` returns `nil` with its error, and the loop assigns that to `packet`: a
  refused request drops every byte written before it, the bytes of batches already handed
  to the reader included (`appendRequest_fst_of_error`). The check the code means to make
  (`checkFails = false`) does not change this.
-/

set_option autoImplicit false

namespace RedisPipe.Conn

variable (ff : FloatFormat)

/-- The serialization loop over the entries `es`, from the packet `packet` with the
entries `kept` so far, as the writer's steps run it when the `err != nil` test of an entry
`AppendRequest` accepts answers `checkFails`: the packet, the entries kept, and the
`conn.call`s made. -/
def serializeLoop (checkFails : Bool) : Bytes → List Entry → List Entry → Bytes × List Entry × List Resolution
  | packet, kept, [] => (packet, kept, [])
  | packet, kept, e :: rest =>
    let r := appendRequest ff packet e.req
    if r.2.isSome || checkFails then
      let out := serializeLoop checkFails r.1 kept rest
      (out.1, out.2.1, ⟨e.fut, e.n, Reply.ofCheck r.2⟩ :: out.2.2)
    else serializeLoop checkFails r.1 (kept ++ [e]) rest

variable {cfg : Config} {ff} {s : Sys RawData} {k : Nat} {p : Pipe} {one : Session}

/-! ## One step, then the whole loop -/

/-- One step of the loop: the entry's request is appended to the packet, and the entry is
handed to `conn.call` or kept. -/
theorem wstep_serialize {e : Entry} {rest kept : List Entry} {pick checkFails ok : Bool}
    (hp : s.data.pipes[k]? = some p) (hone : s.sessions[k]? = some one)
    (hpc : p.writer.pc = .serialize (e :: rest) kept) :
    wstep cfg ff s k pick checkFails ok =
      if (appendRequest ff p.writer.packet e.req).2.isSome || checkFails then
        some ((s.log [⟨e.fut, e.n, Reply.ofCheck (appendRequest ff p.writer.packet e.req).2⟩]).setPipe k
          { p with writer := ⟨.serialize rest kept, (appendRequest ff p.writer.packet e.req).1, []⟩ })
      else
        some (s.setPipe k
          { p with writer := ⟨.serialize rest (kept ++ [e]), (appendRequest ff p.writer.packet e.req).1, []⟩ }) := by
  simp only [wstep, hp, hone, hpc]

theorem setPipe_getElem (hp : s.data.pipes[k]? = some p) (q : Pipe) : (s.setPipe k q).data.pipes[k]? = some q := by
  simp [Sys.setPipe, (List.getElem?_eq_some_iff.mp hp).1]

/-- **The writer's steps run the loop.** From a writer about to serialize `es` with `kept`
kept so far, `es.length` steps of it end the loop where `serializeLoop` says, having made its
`conn.call`s in order. -/
theorem run_serialize {es kept : List Entry} {pick checkFails ok : Bool} (hpan : s.panicked = none)
    (hp : s.data.pipes[k]? = some p) (hone : s.sessions[k]? = some one)
    (hpc : p.writer.pc = .serialize es kept) (hf : p.writer.futures = []) :
    run cfg ff s (List.replicate es.length (.writer k pick checkFails ok)) =
      some ((s.log (serializeLoop ff checkFails p.writer.packet kept es).2.2).setPipe k
        { p with writer := ⟨.serialize [] (serializeLoop ff checkFails p.writer.packet kept es).2.1,
          (serializeLoop ff checkFails p.writer.packet kept es).1, []⟩ }) := by
  induction es generalizing s p kept with
  | nil =>
    obtain ⟨⟨pc, packet, futures⟩, _, _, _, _, _⟩ := p
    simp only at hpc hf
    subst hpc hf
    simp [serializeLoop, run, Sys.setPipe_self hp]
  | cons e rest ih =>
    have hstep : step cfg ff s (.writer k pick checkFails ok) = wstep cfg ff s k pick checkFails ok := by
      simp [step, hpan]
    simp only [List.length_cons, List.replicate_succ, run, hstep, wstep_serialize hp hone hpc, serializeLoop]
    -- handed to conn.call, or kept: either way the rest of the loop runs from the new state
    split <;>
    · refine (ih (by simpa using hpan) (setPipe_getElem (p := p) (by simpa using hp) _)
        (by simpa using hone) rfl rfl).trans ?_
      simp

/-! ## What the loop leaves -/

/-- **With Go's `err != nil`, the loop keeps no entry.** Every entry goes to `conn.call`,
with the error of a request `AppendRequest` refuses and with a nil `*redis.Error` for one it
accepts. -/
theorem serializeLoop_go (packet : Bytes) (kept es : List Entry) :
    (serializeLoop ff true packet kept es).2 =
      (kept, es.map fun e => ⟨e.fut, e.n, Reply.ofCheck (appendRequest ff [] e.req).2⟩) := by
  induction es generalizing packet with
  | nil => rfl
  | cons e rest ih => simp [serializeLoop, ih, appendRequest_snd]

theorem refused_entry_drops_packet :
    appendRequest ff [] pingReq = (Bytes.ofString "*1\r\n$4\r\nPING\r\n", none) ∧
    serializeLoop ff true (Bytes.ofString "*1\r\n$4\r\nPING\r\n") [] [⟨.cb 1, 0, setOther⟩, ⟨.cb 2, 0, pingReq⟩] =
      (Bytes.ofString "*1\r\n$4\r\nPING\r\n", [],
        [⟨.cb 1, 0, .error (argumentTypeError (.other 0) setOther)⟩, ⟨.cb 2, 0, .nilError⟩]) ∧
    serializeLoop ff false (Bytes.ofString "*1\r\n$4\r\nPING\r\n") [] [⟨.cb 1, 0, setOther⟩, ⟨.cb 2, 0, pingReq⟩] =
      (Bytes.ofString "*1\r\n$4\r\nPING\r\n", [⟨.cb 2, 0, pingReq⟩],
        [⟨.cb 1, 0, .error (argumentTypeError (.other 0) setOther)⟩]) :=
  ⟨rfl, rfl, rfl⟩

end RedisPipe.Conn
