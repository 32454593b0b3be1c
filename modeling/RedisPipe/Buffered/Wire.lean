import RedisPipe.Buffered.Invariants
import RedisPipe.Resp

/-!
# What the server reads from the buffered version

`redisconn/conn.go:646-721`, the writer. It takes a shard's buffer and list together
(`packet, shard.buf = shard.buf, packet` and the same for `futures`), hands the list to the
reader over `one.futures`, then writes the packet. The reader pairs the `n`-th reply on the
socket with the `n`-th entry it receives, which is right only if each packet the writer
writes holds the requests of the batch it handed over, one request per entry, in order.

* `written_stream`: in every reachable state, a writer that holds a batch, from the swap
  until it is done with it, holds a packet that a RESP reader reads as exactly the words of
  the batch's requests, entry by entry. Its hand-off puts that very list on `one.futures`
  and its `w.Write(packet)` writes that very packet.

The proof adds one clause to the buffers' invariant `BInv` (`PacketsWf`): what the writer
swaps out is a shard's buffer and list, which encode each other by `BInv`, and until the
write no step changes them.
-/

set_option autoImplicit false

namespace RedisPipe.Conn

variable {cfg : Config} {ff : FloatFormat} {s s' : Sys BufData}

/-! ## A batch and its packet -/

/-- The writer's points from the swap until it is done with the batch: it hands the list to
the reader (`handOff`, `handOffBlocked`), then writes the packet (`write`), or reports the
failed flush (`fail`). -/
def BWPc.busy : BWPc → Bool
  | .handOff | .handOffBlocked _ | .write | .fail => true
  | _ => false

/-- A busy writer's packet is the encoding of its batch. -/
def BPipe.packetWf (ff : FloatFormat) (p : BPipe) : Prop :=
  p.writer.pc.busy = true → Encodes ff p.writer.packet p.writer.futures

/-- Every session's writer's packet encodes its batch. -/
def PacketsWf (ff : FloatFormat) (d : BufData) : Prop :=
  ∀ (k : Nat) (p : BPipe), d.pipes[k]? = some p → p.packetWf ff

/-- An encoded buffer reads back as its entries' words. -/
theorem Encodes.readStream {buf : Bytes} {es : List Entry} (h : Encodes ff buf es) :
    RedisPipe.readStream buf = some (es.map fun e => e.req.words ff) := by
  have henc : ∀ e ∈ es, e.encoding ff = respArray (e.req.words ff) := fun e he =>
    appendRequest_eq_respArray ff e.req (h.2 e he)
  rw [h.1, List.map_congr_left henc]
  simpa [Function.comp_def] using readStream_flatten (es.map fun e => e.req.words ff)

/-! ## The steps keep it -/

theorem PacketsWf.set {d d' : BufData} (hP : PacketsWf ff d) {k : Nat} {p p' : BPipe}
    (hp : d.pipes[k]? = some p) (hpi : d'.pipes = d.pipes.set k p') (h : p.packetWf ff → p'.packetWf ff) :
    PacketsWf ff d' := fun u q hu => by
  rw [hpi] at hu
  rcases getElem?_set_eq_some hp hu with ⟨-, rfl⟩ | ⟨-, hu⟩
  · exact h (hP k p hp)
  · exact hP u q hu

theorem BProduced.pipes {i : Nat} (h : BProduced cfg ff s s' i) : s'.data.pipes = s.data.pipes := by
  rcases h with ⟨rs, rfl⟩ | ⟨-, -, -, new, -, rfl⟩ <;> simp

theorem PacketsWf.setErr (hP : PacketsWf ff s.data) {k : Nat} {p p' : BPipe} (hp : s.data.pipes[k]? = some p)
    (k' : Nat) (e : RedisError) (h : p.packetWf ff → p'.packetWf ff) :
    PacketsWf ff ((s.setErrBuffered k' e).bsetPipe k p').data :=
  hP.set hp (by simp) h

theorem PacketsWf.of_eq {d d' : BufData} (hP : PacketsWf ff d) (h : d'.pipes = d.pipes) : PacketsWf ff d' :=
  fun k p hp => hP k p (h ▸ hp)

/-- The writer's `select` leaves it idle. -/
theorem bselect_not_busy {k : Nat} {p : BPipe} {one : Session} {blocking : Bool} {sel : Sel}
    (h : s.bselect k p one blocking sel = some s') :
    ∃ p', s'.data.pipes = s.data.pipes.set k p' ∧ p'.writer.pc.busy = false := by
  rcases bselect_inv h with ⟨i, rest, -, rfl⟩ | rfl | rfl <;> exact ⟨_, rfl, rfl⟩

/-- A writer step leaves its batch and packet alone, drops both, or swaps in a shard's. -/
theorem bwstep_packetWf (hR : BInv ff s) (hP : PacketsWf ff s.data) {k : Nat} {sel : Sel} {ok : Bool}
    (h : bwstep cfg s k sel ok = some s') : PacketsWf ff s'.data := by
  unfold bwstep at h
  split at h
  · rename_i p one hp _
    dsimp only at h
    have idle : ∀ {p' : BPipe}, p'.writer.pc.busy = false → p.packetWf ff → p'.packetWf ff :=
      fun hb _ h => absurd h (by simp [hb])
    have same : ∀ {pc : BWPc}, p.writer.pc.busy = true → p.packetWf ff → (p.goto pc).packetWf ff :=
      fun hb hw _ => hw hb
    have sel : ∀ {blocking : Bool}, s.bselect k p one blocking sel = some s' → PacketsWf ff s'.data :=
      fun h => by
        obtain ⟨p', hpi, hb⟩ := bselect_not_busy h
        exact hP.set hp hpi (idle hb)
    split at h
    next => exact sel h
    next =>
      split at h <;> cases h
      · exact hP.setErr hp _ _ (idle rfl)
      · exact hP.set hp rfl (idle rfl)
    next => exact sel h
    next i hpc =>
      split at h
      · cases h
      split at h
      · split at h <;> cases h
        · exact hP.of_eq rfl
        · exact hP.set hp rfl (idle rfl)
      · cases h; exact hP.set hp rfl fun _ _ => hR.shards i
    next hpc => split at h <;> cases h <;> exact hP.set hp rfl (same (by simp [hpc, BWPc.busy]))
    next hpc =>
      split at h
      · split at h <;> cases h <;> exact hP.set hp rfl (same (by simp [hpc, BWPc.busy]))
      · cases h
    next => cases h; exact hP.setErr hp _ _ (idle rfl)
    next =>
      split at h <;> cases h
      · exact hP.set hp rfl (idle rfl)
      · exact hP.setErr hp _ _ (idle rfl)
    next => cases h
  · cases h

theorem PacketsWf.step (hR : BInv ff s) (hP : PacketsWf ff s.data) {a : BAction}
    (h : bstep cfg ff s a = some s') : PacketsWf ff s'.data := by
  unfold bstep at h
  split_ifs at h
  cases a <;> simp only at h
  · rcases (mstep_bdata h).1 with hd | ⟨err, hd⟩ | hd <;> rw [hd]
    · exact hP
    · exact hP.of_eq rfl
    · intro u q hu
      rcases getElem?_concat_eq_some hu with hu | rfl
      · exact hP u q hu
      · exact fun hb => absurd hb (by decide)
  · split_ifs at h; exact hP.of_eq (bsendAsk_produced h).pipes
  · split_ifs at h; exact hP.of_eq (bsendBatchFlags_produced h).pipes
  · split_ifs at h; exact hP.of_eq (bsendTransaction_produced h).pipes
  · obtain ⟨sh, -, rfl⟩ := bresume_cases h; exact hP.of_eq rfl
  · exact bwstep_packetWf hR hP h
  · obtain ⟨p, p', hp, hq, hw⟩ := brstep_cases h
    exact hP.set hp hq.2.2.2 fun hp' => by unfold BPipe.packetWf; rw [hw]; exact hp'
  · cases h; exact hP

theorem BReachable.packetsWf (hs : BReachable cfg ff s) : PacketsWf ff s.data := by
  induction hs with
  | init => intro k p hp; simp [Sys.initial, BufData.initial] at hp
  | step a hs h ih => exact ih.step hs.bInv h

/-! ## What the writer writes -/

/-- **Each packet the writer writes reads back as the requests of the batch it handed
over.** In every reachable state of the buffered version, a writer between its swap and the
end of the batch holds a packet that a RESP reader reads as one request per entry of the
batch, in order, each with the words of that entry's request: the command name's parts and
the `ArgToString` texts of its arguments, the `ASKING`, `MULTI` and `EXEC` markers
included. -/
theorem written_stream (hs : BReachable cfg ff s) {k : Nat} {p : BPipe} (hp : s.data.pipes[k]? = some p)
    (hb : p.writer.pc.busy = true) :
    RedisPipe.readStream p.writer.packet = some (p.writer.futures.map fun e => e.req.words ff) :=
  (hs.packetsWf k p hp hb).readStream

theorem written_stream_ping :
    ∃ s p, BReachable oneShard noFloats s ∧ s.data.pipes[0]? = some p ∧ p.writer.pc.busy = true ∧
      p.writer.futures.map (·.fut) = [.cb 1] ∧
      RedisPipe.readStream p.writer.packet = some (p.writer.futures.map fun e => e.req.words noFloats) := by
  obtain ⟨s, hs, hq⟩ := @exists_breachable_of_run oneShard noFloats
    (connectPing ++ [.writer 0 .recv true, .writer 0 .recv true])
    (fun s => s.data.pipes[0]?.map (fun p => (p.writer.pc.busy, p.writer.futures.map (·.fut))) ==
      some (true, [.cb 1])) (by decide)
  obtain ⟨p, hp, hq⟩ := Option.map_eq_some'.mp (beq_iff_eq.mp hq)
  obtain ⟨hb, hf⟩ := Prod.mk.inj hq
  exact ⟨s, p, hs, hp, hb, hf, written_stream hs hp hb⟩

end RedisPipe.Conn
