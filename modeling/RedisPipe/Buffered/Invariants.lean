import RedisPipe.Buffered.Steps

/-!
# The buffers' invariant of the buffered version

`BInv` holds in every reachable state (`BReachable.bInv`). Its clauses:

* every shard's buffer is exactly the encodings of its entries' requests (`BInv.shards`),
  and so is the buffer a blocked producer will assign (`BInv.pending`);
* a writer that holds no batch holds an empty buffer and an empty list (`BInv.idle`), so
  what it swaps into a shard is empty;
* the writer's panic `len(packet) == 0 && len(futures) != 0` has not happened.

The first clause is what makes the panic unreachable: an encoding is never empty, so a
shard's buffer is empty exactly when its list is (`Encodes.nil_iff`). Each kind of step
keeps the invariant by its inversion lemma of `RedisPipe.Buffered.Steps`.
-/

set_option autoImplicit false

namespace RedisPipe.Conn

variable {cfg : Config} {ff : FloatFormat} {s s' : Sys BufData}

/-- The buffers' invariant. -/
structure BInv (ff : FloatFormat) (s : Sys BufData) : Prop where
  shards : ∀ i, (s.data.shards.getD i BShard.empty).Wf ff
  pending : ∀ (i : Nat) (sh : BShard), s.data.pending.getD i none = some sh → sh.Wf ff
  idle : ∀ (k : Nat) (p : BPipe), s.data.pipes[k]? = some p → p.idleEmpty
  noEmptyPacket : s.panicked ≠ some .emptyPacket

/-! ## Shard lists updated at one index -/

theorem getD_set_cases {α : Type} (l : List α) (i j : Nat) (x d : α) :
    (l.set i x).getD j d = x ∨ (l.set i x).getD j d = l.getD j d := by
  simp only [List.getD_eq_getElem?_getD, List.getElem?_set]
  split_ifs <;> simp_all [List.getElem?_eq_none]

theorem wf_getD_set {l : List BShard} (hl : ∀ j, (l.getD j BShard.empty).Wf ff) {sh : BShard} (hsh : sh.Wf ff)
    (i j : Nat) : ((l.set i sh).getD j BShard.empty).Wf ff := by
  rcases getD_set_cases l i j sh BShard.empty with h | h <;> rw [h]
  · exact hsh
  · exact hl j

theorem wf_pending_set {l : List (Option BShard)} (hl : ∀ (j : Nat) (sh : BShard), l.getD j none = some sh → sh.Wf ff)
    {x : Option BShard} (hx : ∀ sh, x = some sh → sh.Wf ff) (i j : Nat) (sh : BShard)
    (h : (l.set i x).getD j none = some sh) : sh.Wf ff := by
  rcases getD_set_cases l i j x none with h' | h' <;> rw [h'] at h
  · exact hx sh h
  · exact hl j sh h

theorem getD_map_empty (l : List BShard) (j : Nat) : (l.map fun _ => BShard.empty).getD j BShard.empty = BShard.empty := by
  simp only [List.getD_eq_getElem?_getD, List.getElem?_map]
  cases l[j]? <;> rfl

/-! ## Steps that keep it -/

section Preservation

variable (hR : BInv ff s)
include hR

theorem BInv.blog (rs : List Resolution) : BInv ff (s.blog rs) :=
  ⟨hR.shards, hR.pending, hR.idle, hR.noEmptyPacket⟩

/-- **A producer's append keeps every buffer encoding its list**, whether it assigns the
shard or blocks holding it. -/
theorem BInv.benqueue {i : Nat} {new : BShard} (hnew : new.Wf ff) : BInv ff (benqueue cfg s i new) := by
  unfold RedisPipe.Conn.benqueue
  dsimp only
  split_ifs
  · exact ⟨wf_getD_set hR.shards hnew i, hR.pending, hR.idle, hR.noEmptyPacket⟩
  · exact ⟨hR.shards, wf_pending_set hR.pending (fun _ h => Option.some.inj h ▸ hnew) i, hR.idle,
      hR.noEmptyPacket⟩
  · exact ⟨wf_getD_set hR.shards hnew i, hR.pending, hR.idle, hR.noEmptyPacket⟩

theorem BInv.produced {i : Nat} (h : BProduced cfg ff s s' i) : BInv ff s' := by
  rcases h with ⟨rs, rfl⟩ | ⟨-, -, -, new, hext, rfl⟩
  · exact hR.blog rs
  · exact hR.benqueue (hext.wf (hR.shards i))

theorem BInv.resume {i : Nat} (h : bresume cfg s i = some s') : BInv ff s' := by
  obtain ⟨sh, hsh, rfl⟩ := bresume_cases h
  exact ⟨wf_getD_set hR.shards (hR.pending i sh hsh) i, wf_pending_set hR.pending (by simp) i, hR.idle,
    hR.noEmptyPacket⟩

/-- Steps that change of the data only one session's pipe keep the invariant, if they keep
that writer empty-handed when idle. -/
theorem BInv.onlyPipe {k : Nat} {p p' : BPipe} (hp : s.data.pipes[k]? = some p) (h : s.bOnlyPipe s' k p')
    (hidle : p.idleEmpty → p'.idleEmpty) : BInv ff s' := by
  obtain ⟨hsh, hpe, hpan, hpi⟩ := h
  refine ⟨fun i => hsh ▸ hR.shards i, fun i sh h => hR.pending i sh (hpe ▸ h), fun u q hu => ?_,
    hpan ▸ hR.noEmptyPacket⟩
  rw [hpi] at hu
  rcases getElem?_set_eq_some hp hu with ⟨-, rfl⟩ | ⟨-, hu⟩
  · exact hidle (hR.idle k p hp)
  · exact hR.idle u q hu

/-- **A writer step keeps the invariant**: what it swaps into a shard is empty, and the
shard it takes is never an empty buffer with entries. -/
theorem BInv.wstep {k : Nat} {sel : Sel} {ok : Bool} (h : bwstep cfg s k sel ok = some s') : BInv ff s' := by
  obtain ⟨p, hp, ⟨p', hq, hidle⟩ | ⟨i, hpc, hsh, hpe, ⟨hb, hf, -⟩ | ⟨hpan, p', hpi, hp'⟩⟩⟩ :=
    bwstep_cases h
  · exact hR.onlyPipe hp hq hidle
  · exact absurd ((hR.shards i).nil_iff.mp hb) hf
  · obtain ⟨hpk, hfk⟩ := hR.idle k p hp (by simp [hpc, BWPc.idle])
    refine ⟨fun j => ?_, fun j sh h => hR.pending j sh (hpe ▸ h), fun u q hu => ?_, hpan ▸ hR.noEmptyPacket⟩
    · rw [hsh, hpk, hfk]; exact wf_getD_set hR.shards BShard.wf_empty i j
    · rw [hpi] at hu
      rcases getElem?_set_eq_some hp hu with ⟨-, rfl⟩ | ⟨-, hu⟩
      · exact hp'
      · exact hR.idle u q hu

theorem BInv.rstep {k : Nat} {r : ReadResult} (h : brstep s k r = some s') : BInv ff s' := by
  obtain ⟨p, p', hp, hq, hw⟩ := brstep_cases h
  exact hR.onlyPipe hp hq fun hi => by unfold BPipe.idleEmpty; rw [hw]; exact hi

/-- A manager step drops every shard, starts a session with an idle writer, or leaves the
data alone. -/
theorem BInv.mstep {t : Nat} {dial : DialResult} (h : mstep bufOps cfg s t dial = some s') : BInv ff s' := by
  obtain ⟨hd, hpan⟩ := mstep_bdata h
  have hpan' : s'.panicked ≠ some .emptyPacket := by
    rcases hpan with hpan | hpan <;> rw [hpan]
    · exact hR.noEmptyPacket
    · simp
  rcases hd with hd | ⟨err, hd⟩ | hd
  · exact ⟨by rw [hd]; exact hR.shards, by rw [hd]; exact hR.pending, by rw [hd]; exact hR.idle, hpan'⟩
  · refine ⟨fun i => ?_, by rw [hd]; exact hR.pending, by rw [hd]; exact hR.idle, hpan'⟩
    rw [hd, BufData.drop, getD_map_empty]; exact BShard.wf_empty
  · refine ⟨by rw [hd]; exact hR.shards, by rw [hd]; exact hR.pending, fun u q hu => ?_, hpan'⟩
    rw [hd] at hu
    rcases getElem?_concat_eq_some hu with hu | rfl
    · exact hR.idle u q hu
    · exact fun _ => ⟨rfl, rfl⟩

theorem BInv.step {a : BAction} (h : bstep cfg ff s a = some s') : BInv ff s' := by
  unfold bstep at h
  split_ifs at h
  cases a <;> simp only at h
  · exact hR.mstep h
  · split_ifs at h; exact hR.produced (bsendAsk_produced h)
  · split_ifs at h; exact hR.produced (bsendBatchFlags_produced h)
  · split_ifs at h; exact hR.produced (bsendTransaction_produced h)
  · exact hR.resume h
  · exact hR.wstep h
  · exact hR.rstep h
  · cases h; exact ⟨hR.shards, hR.pending, hR.idle, hR.noEmptyPacket⟩

end Preservation

theorem BInv.initial : BInv ff (Sys.initial cfg (BufData.initial cfg)) := by
  refine ⟨fun i => ?_, fun i sh h => ?_, fun k p h => by simp [Sys.initial, BufData.initial] at h,
    by simp [Sys.initial]⟩
  · simp only [Sys.initial, BufData.initial, List.getD_eq_getElem?_getD, List.getElem?_replicate]
    split_ifs <;> exact BShard.wf_empty
  · simp only [Sys.initial, BufData.initial, List.getD_eq_getElem?_getD, List.getElem?_replicate] at h
    split_ifs at h <;> cases h

/-- **The buffers' invariant holds in every reachable state.** -/
theorem BReachable.bInv (hs : BReachable cfg ff s) : BInv ff s := by
  induction hs with
  | init => exact BInv.initial
  | step a _ h ih => exact ih.step h

/-! ## The shards' buffers -/

/-- **Each shard's buffer is exactly the encoding of its list.** In every reachable state of
the buffered version, every shard's `buf` is the concatenation of the `resp.AppendRequest`
encodings of the requests of its entries, each a request it accepts, so the
buffer is empty exactly when the list is; a writer about to swap a shard holds an empty
buffer and an empty list; and the writer's panic `len(packet) == 0 && len(futures) != 0`
has not happened. The marker entries' requests are encoded as the marker byte strings. A
`doSend` that returns an error leaves the connection as it was. A `SendBatchFlags` that
appends nothing (a refused future or request, a closed or disconnected connection, an empty
batch) only logs calls (`Sys.blog`), with errors, for none or all of its requests' indices,
and leaves every shard's buffer and list and every blocked producer's list as they were;
otherwise it appends its whole block, markers, requests and `EXEC`, to its shard. -/
theorem shard_buffers_encode (hs : BReachable cfg ff s) :
    (∀ i, (s.data.shards.getD i BShard.empty).Wf ff ∧
      ((s.data.shards.getD i BShard.empty).buf = [] ↔ (s.data.shards.getD i BShard.empty).futures = [])) ∧
    (∀ (k : Nat) (p : BPipe) (i : Nat), s.data.pipes[k]? = some p → p.writer.pc = .swap i →
      p.writer.packet = [] ∧ p.writer.futures = []) ∧
    s.panicked ≠ some .emptyPacket ∧
    (respAppendRequest ff [] askingReq = (askingBytes, none) ∧ respAppendRequest ff [] multiReq = (multiBytes, none) ∧
      respAppendRequest ff [] execReq = (execBytes, none)) ∧
    (∀ (i : Nat) (req : Request) (cb : Future) (n : BitVec 64) (asking inactive : Bool) (s' : Sys BufData)
      (err : RedisError), bdoSend cfg ff s i req cb n asking inactive = some (s', some err) → s' = s) ∧
    (∀ (i : Nat) (reqs : List Request) (cb : Future) (start : BitVec 64) (flags : Nat) (inactive : Bool)
      (s' : Sys BufData), bsendBatchFlags cfg ff s i reqs cb start flags inactive = some s' →
        (∃ rs, s' = s.blog rs ∧ (rs = [] ∨ rs.map Resolution.key = batchKeys cb start 0 reqs.length) ∧
          ∀ r ∈ rs, ∃ e, r.res = .error e) ∨
        (reqs ≠ [] ∧ s.data.locked i = false ∧ ∃ buf,
          s' = benqueue cfg s i ⟨buf, (s.data.shards.getD i BShard.empty).futures ++ batchBlock reqs cb start flags⟩)) := by
  have hI := hs.bInv
  refine ⟨fun i => ⟨hI.shards i, (hI.shards i).nil_iff⟩,
    fun k p i hp hpc => hI.idle k p hp (by simp [hpc, BWPc.idle]),
    hI.noEmptyPacket, respAppendRequest_markers ff, fun i req cb n asking inactive s' err h => ?_,
    fun i reqs cb start flags inactive s' h => bsendBatchFlags_inv h⟩
  rcases bdoSend_cases h with rfl | ⟨h', -⟩
  · rfl
  · cases h'

theorem shard_buffers_encode_ping :
    ∃ s, BReachable oneShard noFloats s ∧ (s.data.shards.getD 0 BShard.empty).futures ≠ [] ∧
      ((∀ i, (s.data.shards.getD i BShard.empty).Wf noFloats ∧
        ((s.data.shards.getD i BShard.empty).buf = [] ↔ (s.data.shards.getD i BShard.empty).futures = [])) ∧
      (∀ (k : Nat) (p : BPipe) (i : Nat), s.data.pipes[k]? = some p → p.writer.pc = .swap i →
        p.writer.packet = [] ∧ p.writer.futures = []) ∧
      s.panicked ≠ some .emptyPacket ∧
      (respAppendRequest noFloats [] askingReq = (askingBytes, none) ∧
        respAppendRequest noFloats [] multiReq = (multiBytes, none) ∧ respAppendRequest noFloats [] execReq = (execBytes, none)) ∧
      (∀ (i : Nat) (req : Request) (cb : Future) (n : BitVec 64) (asking inactive : Bool) (s' : Sys BufData)
        (err : RedisError), bdoSend oneShard noFloats s i req cb n asking inactive = some (s', some err) → s' = s) ∧
      (∀ (i : Nat) (reqs : List Request) (cb : Future) (start : BitVec 64) (flags : Nat) (inactive : Bool)
        (s' : Sys BufData), bsendBatchFlags oneShard noFloats s i reqs cb start flags inactive = some s' →
          (∃ rs, s' = s.blog rs ∧ (rs = [] ∨ rs.map Resolution.key = batchKeys cb start 0 reqs.length) ∧
            ∀ r ∈ rs, ∃ e, r.res = .error e) ∨
          (reqs ≠ [] ∧ s.data.locked i = false ∧ ∃ buf,
            s' = benqueue oneShard s i ⟨buf, (s.data.shards.getD i BShard.empty).futures ++
              batchBlock reqs cb start flags⟩))) := by
  obtain ⟨s, hs, hp⟩ := @exists_breachable_of_run oneShard noFloats
    (List.replicate 6 (BAction.manager 0 .ok) ++ [BAction.sendAsk 0 pingReq (.cb 1) 0 false false])
    (fun s => (s.data.shards.getD 0 BShard.empty).futures != []) (by decide)
  exact ⟨s, hs, by simpa using hp, shard_buffers_encode hs⟩

end RedisPipe.Conn
