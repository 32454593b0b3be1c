import RedisPipe.Buffered.Invariants

/-!
# Every future of the buffered version is called at most once

`redisconn/conn.go:225-383` (the producers), `:550-567` (`dropShardFutures`) and `:646-748`
(the writer and the reader). An entry a producer appends to a shard travels from the shard
into a writer's batch, from there over `one.futures` to that session's reader, and leaves
the connection by one `fut.call(res)`; `dropShardFutures` calls it out of its shard
instead. `BufData.inFlight` lists the entries still on that way, in every state: the
shards' lists, the list a producer blocked on `conn.dirtyShard` holds, and each session's
entries, which are what its reader still owes, the batches on `one.futures`, and the
writer's batch before it hands it over.

## Strategy

One lemma per kind of step says where the entries it moves go: `bwstep_moves` and
`brstep_moves` for the writer and the reader, `inFlight_benqueue` and `inFlight_resume`
for a producer's append and a blocked producer's send, `inFlight_drop` for
`dropShardFutures`. `flatten_map_set_coe` turns a change of one shard or one pipe into a
change of the whole, as multisets. Two facts of the states the steps start from are used:
`BInv` (an idle writer holds nothing, a buffer is empty exactly when its list is) and
`BDeliv` (a shard a blocked producer holds is empty, `BReachable.bDeliv`).

## Results

* `conserve_run`: **the connection's own goroutines neither lose nor duplicate an entry.**
  Along any interleaving of managers, writers, readers and blocked producers' sends from a
  reachable state, each entry in flight at the start is called once or still in flight at
  the end, and no other future is called. `BInv.conserve` is its one-step form.
* `issued_covers`, `resolved_at_most_once`: **no future is called for an index more often
  than producers issued it.** In every run from `Connect`, the entries in flight and the
  calls made, leaving aside the `ASKING` and `MULTI` markers' shared `dumb` future
  (`BufData.ledger`), are a sub-multiset of the (future, index) pairs the producers' calls
  issued (`BAction.issued`); so when callers never reuse a pair, no pair is called twice,
  and none still in flight has been called.

The reader's drain after a hard error runs `fut.call(one.err)` over the whole batch,
whose entries up to the failed one it has already called and cleared (`futures[i].Future =
nil`). `future.call` is not in the sources; the model takes a call on a cleared entry as no
call, so its drain (`BRPc.drainCurrent`) holds the entries after the failed one.

The raw-packet version's writer hands its reader nothing: its serialization check calls
every entry's future at once (`ping_written_not_handed`), and `raw_resolved_once` gives that
version the same two properties. Its deferred hand-off would send a batch on `one.futures` a
second time after a failed write, but only a batch of entries the check kept, and the check
as written keeps none: a latent defect of that code, not one its runs reach.
-/

set_option autoImplicit false

namespace RedisPipe.Conn

/-! ## 1. What the connection owes -/

/-- The writer's points where it holds a batch it has not handed to the reader yet. -/
def BWPc.holding : BWPc → Bool
  | .handOff | .handOffBlocked _ => true
  | _ => false

/-- What the reader still owes a `fut.call`: the rest of the batch it reads or drains. -/
def BRPc.owed : BRPc → List Entry
  | .read rest | .drainCurrent rest => rest
  | _ => []

/-- A session's unresolved entries, in the order its reader meets them: what the reader
owes, the batches on `one.futures`, then the writer's batch before it is handed over. -/
def BPipe.inFlight (p : BPipe) : List Entry :=
  p.reader.owed ++ p.chan.flatten ++ if p.writer.pc.holding then p.writer.futures else []

/-- The entries of a blocked producer's shard. -/
def pendingFutures (o : Option BShard) : List Entry := o.elim [] BShard.futures

/-- Every entry of the connection that is still owed a `fut.call`. -/
def BufData.inFlight (d : BufData) : List Entry :=
  (d.shards.map BShard.futures).flatten ++ (d.pending.map pendingFutures).flatten ++
    (d.pipes.map BPipe.inFlight).flatten

/-- The facts about the shards the delivery results need beyond `BInv`: the shard lists
keep their `Concurrency` slots, and a shard a blocked producer holds is empty, since the
producer found its buffer empty and its lock keeps everyone else off it. -/
structure BDeliv (cfg : Config) (d : BufData) : Prop where
  shards_length : d.shards.length = cfg.concurrency
  pending_length : d.pending.length = cfg.concurrency
  pendingClear : ∀ (i : Nat) (sh : BShard), d.pending.getD i none = some sh →
    d.shards.getD i BShard.empty = BShard.empty

/-! ## 2. What the writer and the reader move -/

section Pipes

variable {cfg : Config} {ff : FloatFormat} {s s' : Sys BufData} {k : Nat}

section PipeSimp
variable (p : BPipe) (pc : BWPc)
@[simp] theorem Sys.bsetPipe_resolved (s : Sys BufData) (k : Nat) :
    (s.bsetPipe k p).data.resolved = s.data.resolved := rfl
@[simp] theorem BPipe.goto_reader : (p.goto pc).reader = p.reader := rfl
@[simp] theorem BPipe.goto_chan : (p.goto pc).chan = p.chan := rfl
@[simp] theorem BPipe.exit_reader : p.exit.reader = p.reader := rfl
@[simp] theorem BPipe.exit_chan : p.exit.chan = p.chan := rfl
@[simp] theorem BPipe.handOver_reader : p.handOver.reader = p.reader := rfl
@[simp] theorem BPipe.handOver_chan : p.handOver.chan = p.chan ++ [p.writer.futures] := rfl
@[simp] theorem BPipe.goto_inFlight :
    (p.goto pc).inFlight = p.reader.owed ++ p.chan.flatten ++ if pc.holding then p.writer.futures else [] := rfl
@[simp] theorem BPipe.exit_inFlight : p.exit.inFlight = p.reader.owed ++ p.chan.flatten := by
  simp [BPipe.exit, BPipe.inFlight, BPipe.goto, BWPc.holding]
@[simp] theorem BPipe.handOver_goto_inFlight :
    (p.handOver.goto pc).inFlight =
      p.reader.owed ++ p.chan.flatten ++ p.writer.futures ++ if pc.holding then p.writer.futures else [] := by
  simp [BPipe.handOver, BPipe.inFlight, BPipe.goto]
end PipeSimp

/-- The writer's `select` moves only the writer, from a point where it holds no batch to
another. -/
theorem bselect_moves {p : BPipe} {one : Session} {blocking : Bool} {sel : Sel}
    (hp : p.writer.pc.holding = false) (h : s.bselect k p one blocking sel = some s') :
    s'.data.resolved = s.data.resolved ∧ s'.data.pending = s.data.pending ∧ s'.data.shards = s.data.shards ∧
      ∃ p', s'.data.pipes = s.data.pipes.set k p' ∧ p'.inFlight = p.inFlight := by
  have hf : p.inFlight = p.reader.owed ++ p.chan.flatten := by simp [BPipe.inFlight, hp]
  rcases bselect_inv h with ⟨i, rest, -, rfl⟩ | rfl | rfl <;>
    exact ⟨rfl, rfl, rfl, _, rfl, by simp [hf, BWPc.holding]⟩

/-- What a writer step of session `k` did with the entries: it called none and left the
blocked producers alone; it changed only its own pipe, whose entries stayed the same, or it
swapped shard `i`, whose lock was free, leaving the shard empty and appending the shard's
entries to the pipe's. -/
def WMoved (s s' : Sys BufData) (k : Nat) : Prop :=
  s'.data.resolved = s.data.resolved ∧ s'.data.pending = s.data.pending ∧
    ∃ p p', s.data.pipes[k]? = some p ∧ s'.data.pipes = s.data.pipes.set k p' ∧
      ((s'.data.shards = s.data.shards ∧ p'.inFlight = p.inFlight) ∨
        ∃ i, s.data.locked i = false ∧ s'.data.shards = s.data.shards.set i BShard.empty ∧
          p'.inFlight = p.inFlight ++ (s.data.shards.getD i BShard.empty).futures)

theorem wmoves_own {p p' : BPipe} (hp : s.data.pipes[k]? = some p) (hq : s.bOnlyPipe s' k p')
    (hr : s'.data.resolved = s.data.resolved) (hf : p'.inFlight = p.inFlight) : WMoved s s' k :=
  ⟨hr, hq.2.1, p, p', hp, hq.2.2.2, .inl ⟨hq.1, hf⟩⟩

/-- **What a writer step moves.** -/
theorem bwstep_moves (hR : BInv ff s) {sel : Sel} {ok : Bool} (h : bwstep cfg s k sel ok = some s') :
    WMoved s s' k := by
  unfold bwstep at h
  split at h
  · rename_i p one hp _
    dsimp only at h
    have hsel : ∀ {blocking : Bool}, p.writer.pc.holding = false → s.bselect k p one blocking sel = some s' →
        WMoved s s' k := fun hh h => by
      obtain ⟨hr, hpe, hsh, p', hpi, hq⟩ := bselect_moves hh h
      exact ⟨hr, hpe, p, p', hp, hpi, .inl ⟨hsh, hq⟩⟩
    split at h
    next hpc => exact hsel (by simp [hpc, BWPc.holding]) h
    next hpc =>
      split at h <;> cases h
      · exact wmoves_own hp (bOnlyPipe_setErr ..) (by simp) (by simp [BPipe.inFlight, hpc, BWPc.holding])
      · exact wmoves_own hp (bOnlyPipe_bsetPipe ..) rfl (by simp [BPipe.inFlight, hpc, BWPc.holding])
    next hpc => exact hsel (by simp [hpc, BWPc.holding]) h
    next i hpc =>
      split at h
      · cases h
      rename_i hl
      obtain ⟨hpk, hfk⟩ := hR.idle k p hp (by simp [hpc, BWPc.idle])
      have hempty : (⟨p.writer.packet, p.writer.futures⟩ : BShard) = BShard.empty := by rw [hpk, hfk]; rfl
      have hf : p.inFlight = p.reader.owed ++ p.chan.flatten := by simp [BPipe.inFlight, hpc, BWPc.holding]
      split at h
      · split at h <;> cases h
        · exact absurd ((hR.shards i).nil_iff.mp ‹_›) ‹_›
        · rename_i hnil
          refine ⟨rfl, rfl, p, _, hp, rfl, .inr ⟨i, by simpa using hl, by simp [Sys.bsetPipe, hempty], ?_⟩⟩
          rw [hf, not_not.mp hnil]; simp [BPipe.inFlight, BWPc.holding, not_not.mp hnil]
      · cases h
        refine ⟨rfl, rfl, p, _, hp, rfl, .inr ⟨i, by simpa using hl, by simp [Sys.bsetPipe, hempty], ?_⟩⟩
        rw [hf]; simp [BPipe.inFlight, BWPc.holding]
    next hpc =>
      split at h <;> cases h <;>
        exact wmoves_own hp (bOnlyPipe_bsetPipe ..) rfl (by simp [BPipe.inFlight, hpc, BWPc.holding])
    next failed hpc =>
      split at h
      · split at h <;> cases h <;>
          exact wmoves_own hp (bOnlyPipe_bsetPipe ..) rfl (by simp [BPipe.inFlight, hpc, BWPc.holding])
      · cases h
    next hpc =>
      cases h
      exact wmoves_own hp (bOnlyPipe_setErr ..) (by simp) (by simp [BPipe.inFlight, hpc, BWPc.holding])
    next hpc =>
      split at h <;> cases h
      · exact wmoves_own hp (bOnlyPipe_bsetPipe ..) rfl (by simp [BPipe.inFlight, hpc, BWPc.holding])
      · exact wmoves_own hp (bOnlyPipe_setErr ..) (by simp) (by simp [BPipe.inFlight, hpc, BWPc.holding])
    next => cases h
  · cases h

theorem bOnlyPipe_blog (p' : BPipe) (rs : List Resolution) :
    s.bOnlyPipe ((s.blog rs).bsetPipe k p') k p' := ⟨rfl, rfl, rfl, rfl⟩

theorem setErr_blog_resolved (k' : Nat) (e : RedisError) (rs : List Resolution) (p' : BPipe) :
    (((s.setErrBuffered k' e).blog rs).bsetPipe k p').data.resolved = s.data.resolved ++ rs := by
  simp [Sys.blog]

/-- What a reader step of session `k` did with the entries: it changed only its own pipe,
taking the entries `es` off the front of its entries, and called exactly their futures, each
once, in order. -/
def RMoved (s s' : Sys BufData) (k : Nat) : Prop :=
  s'.data.shards = s.data.shards ∧ s'.data.pending = s.data.pending ∧
    ∃ p p' es rs, s.data.pipes[k]? = some p ∧ s'.data.pipes = s.data.pipes.set k p' ∧
      s'.data.resolved = s.data.resolved ++ rs ∧ rs.map Resolution.key = es.map Entry.key ∧
      p.inFlight = es ++ p'.inFlight

theorem rmoves {p p' : BPipe} (es : List Entry) (rs : List Resolution) (hp : s.data.pipes[k]? = some p)
    (hq : s.bOnlyPipe s' k p') (hr : s'.data.resolved = s.data.resolved ++ rs)
    (hk : rs.map Resolution.key = es.map Entry.key) (hf : p.inFlight = es ++ p'.inFlight) : RMoved s s' k :=
  ⟨hq.1, hq.2.1, p, p', es, rs, hp, hq.2.2.2, hr, hk, hf⟩

/-- **What a reader step moves**: the entry whose response it read, or, after a hard error,
the rest of the batch it drains, or a whole batch it drains after the writer has gone. -/
theorem brstep_moves {r : ReadResult} (h : brstep s k r = some s') : RMoved s s' k := by
  unfold brstep at h
  split at h
  · rename_i p one hp _
    dsimp only at h
    split at h
    next hrd =>
      split at h
      · cases h
        exact rmoves [] [] hp (bOnlyPipe_bsetPipe ..) (by simp) rfl (by simp [BPipe.inFlight, hrd, BRPc.owed, *])
      · split at h <;> cases h
        exact rmoves [] [] hp (bOnlyPipe_bsetPipe ..) (by simp) rfl (by simp [BPipe.inFlight, hrd, BRPc.owed, *])
    next hrd =>
      cases h
      exact rmoves [] [] hp (bOnlyPipe_bsetPipe ..) (by simp) rfl (by simp [BPipe.inFlight, hrd, BRPc.owed])
    next fut rest hrd =>
      have hf : p.inFlight = [fut] ++ (rest ++ p.chan.flatten ++
          if p.writer.pc.holding then p.writer.futures else []) := by simp [BPipe.inFlight, hrd, BRPc.owed]
      split at h <;> cases h
      · exact rmoves [fut] _ hp (bOnlyPipe_setErr_blog ..) (setErr_blog_resolved ..) rfl hf
      · exact rmoves [fut] _ hp (bOnlyPipe_blog ..) rfl rfl hf
      · exact rmoves [fut] _ hp (bOnlyPipe_blog ..) rfl rfl hf
    next rest hrd =>
      cases h
      exact rmoves rest _ hp (bOnlyPipe_blog ..) rfl (callAll_keys ..) (by simp [BPipe.inFlight, hrd, BRPc.owed])
    next hrd =>
      split at h
      · rename_i b rest hch
        cases h
        exact rmoves b _ hp (bOnlyPipe_blog ..) rfl (callAll_keys ..) (by simp [BPipe.inFlight, hrd, BRPc.owed, hch])
      · split at h <;> cases h
        exact rmoves [] [] hp (bOnlyPipe_bsetPipe ..) (by simp) rfl (by simp [BPipe.inFlight, hrd, BRPc.owed, *])
    next => cases h
  · cases h

end Pipes

/-! ## 3. A step's entries over the whole data

The multiset of entries in flight, `BufData.inFlight` seen up to order, changes by each
step exactly as its lemma of section 3 says. -/

section Accounting

variable {d d' : BufData}

@[simp] theorem BShard.empty_futures : BShard.empty.futures = [] := rfl
@[simp] theorem pendingFutures_none : pendingFutures none = [] := rfl
@[simp] theorem pendingFutures_some (sh : BShard) : pendingFutures (some sh) = sh.futures := rfl

/-- Emptying shard `i` takes its list out of the whole. -/
theorem futures_set_empty (l : List BShard) (i : Nat) :
    ((l.map BShard.futures).flatten : Multiset Entry) =
      (l.getD i BShard.empty).futures + ((l.set i BShard.empty).map BShard.futures).flatten := by
  rcases Nat.lt_or_ge i l.length with hi | hi
  · have h := flatten_map_set_coe BShard.futures (getElem?_eq_some_getD hi BShard.empty) BShard.empty
    rw [BShard.empty_futures, Multiset.coe_nil, add_zero] at h
    rw [h, add_comm]
  · simp [List.set_eq_of_length_le hi, List.getElem?_eq_none hi]

/-- Replacing shard `i` by one with `es` appended to its list adds `es` to the whole. -/
theorem futures_set_append {l : List BShard} {i : Nat} (hi : i < l.length) (buf : Bytes) (es : List Entry) :
    (((l.set i ⟨buf, (l.getD i BShard.empty).futures ++ es⟩).map BShard.futures).flatten : Multiset Entry) =
      (l.map BShard.futures).flatten + es := by
  have h := flatten_map_set_coe BShard.futures (getElem?_eq_some_getD hi BShard.empty)
    ⟨buf, (l.getD i BShard.empty).futures ++ es⟩
  exact add_right_cancel (h.symm.trans (by simp only [← Multiset.coe_add]; ac_rfl))

/-- A step that changes only pipe `k`, taking `es` out of its flight. -/
theorem inFlight_ownPipe (hs : d'.shards = d.shards) (hq : d'.pending = d.pending) {k : Nat}
    {p p' : BPipe} (hp : d.pipes[k]? = some p) (hpi : d'.pipes = d.pipes.set k p') {es : List Entry}
    (hf : p.inFlight = es ++ p'.inFlight) : (d.inFlight : Multiset Entry) = es + d'.inFlight := by
  have h := flatten_map_set_coe BPipe.inFlight hp p'
  rw [hf] at h
  have hL : ((d.pipes.map BPipe.inFlight).flatten : Multiset Entry) =
      ((d.pipes.set k p').map BPipe.inFlight).flatten + es :=
    add_right_cancel (h.trans (by simp only [← Multiset.coe_add]; ac_rfl))
  simp only [BufData.inFlight, hs, hq, hpi, ← Multiset.coe_add, hL]
  ac_rfl

/-- The writer's swap: shard `i`'s list moves into pipe `k`'s flight. -/
theorem inFlight_swap (hq : d'.pending = d.pending) {i k : Nat} (hs : d'.shards = d.shards.set i BShard.empty)
    {p p' : BPipe} (hp : d.pipes[k]? = some p) (hpi : d'.pipes = d.pipes.set k p')
    (hf : p'.inFlight = p.inFlight ++ (d.shards.getD i BShard.empty).futures) :
    (d.inFlight : Multiset Entry) = d'.inFlight := by
  have h := flatten_map_set_coe BPipe.inFlight hp p'
  rw [hf] at h
  have hL : (((d.pipes.set k p').map BPipe.inFlight).flatten : Multiset Entry) =
      (d.pipes.map BPipe.inFlight).flatten + (d.shards.getD i BShard.empty).futures :=
    add_right_cancel (h.symm.trans (by simp only [← Multiset.coe_add]; ac_rfl))
  simp only [BufData.inFlight, hs, hq, hpi, ← Multiset.coe_add, hL]
  rw [futures_set_empty d.shards i]
  ac_rfl

/-- `dropShardFutures` takes the shards' lists out, in shard order. -/
theorem inFlight_drop (err : RedisError) (d : BufData) :
    d.inFlight = (d.shards.map BShard.futures).flatten ++ (d.drop err).inFlight := by
  simp [BufData.inFlight, BufData.drop, Function.comp_def]

/-- A fresh session owes nothing. -/
theorem inFlight_startSession (d : BufData) : ({ d with pipes := d.pipes ++ [BPipe.fresh] }).inFlight = d.inFlight := by
  simp [BufData.inFlight, BPipe.inFlight, BPipe.fresh, BRPc.owed, BWPc.holding]

end Accounting

/-! ## 4. A blocked producer holds an empty shard -/

section Blocked

variable {cfg : Config} {ff : FloatFormat} {s s' : Sys BufData}

theorem BShard.eq_empty {sh : BShard} (h : sh.Wf ff) (hb : sh.buf = []) : sh = BShard.empty := by
  obtain ⟨b, f⟩ := sh
  have hf := h.nil_iff.mp hb
  simp_all [BShard.empty]

theorem BDeliv.of_eq {d d' : BufData} (hD : BDeliv cfg d) (hs : d'.shards = d.shards)
    (hq : d'.pending = d.pending) : BDeliv cfg d' :=
  ⟨hs ▸ hD.shards_length, hq ▸ hD.pending_length, fun i sh h => hs ▸ hD.pendingClear i sh (hq ▸ h)⟩

theorem BDeliv.setEmpty {d d' : BufData} (hD : BDeliv cfg d) {i : Nat} (hs : d'.shards = d.shards.set i BShard.empty)
    (hq : d'.pending = d.pending) : BDeliv cfg d' := by
  refine ⟨by rw [hs, List.length_set, hD.shards_length], hq ▸ hD.pending_length, fun j sh h => ?_⟩
  rw [hs]
  rcases getD_set_cases d.shards i j BShard.empty BShard.empty with h' | h' <;> rw [h']
  exact hD.pendingClear j sh (hq ▸ h)

/-- A producer that blocks on the full channel found its shard's buffer empty, so its list
empty. -/
theorem BDeliv.benqueue (hR : BInv ff s) (hD : BDeliv cfg s.data) {i : Nat} (hl : s.data.locked i = false)
    (new : BShard) : BDeliv cfg (benqueue cfg s i new).data := by
  have hnone : s.data.pending.getD i none = none := by simpa [BufData.locked] using hl
  have hset : ∀ (j : Nat) (sh : BShard), s.data.pending.getD j none = some sh →
      (s.data.shards.set i new).getD j BShard.empty = BShard.empty := fun j sh h => by
    rw [getD_set_of_ne _ (by rintro rfl; rw [hnone] at h; cases h)]
    exact hD.pendingClear j sh h
  unfold RedisPipe.Conn.benqueue
  dsimp only
  split_ifs with hb
  · exact ⟨by simp [hD.shards_length], hD.pending_length, hset⟩
  · refine ⟨hD.shards_length, by simp [hD.pending_length], fun j sh h => ?_⟩
    by_cases hj : i = j
    · subst hj; exact BShard.eq_empty (hR.shards i) hb
    · rw [getD_set_of_ne _ hj] at h; exact hD.pendingClear j sh h
  · exact ⟨by simp [hD.shards_length], hD.pending_length, hset⟩

theorem BDeliv.resume (hD : BDeliv cfg s.data) {i : Nat} (h : bresume cfg s i = some s') : BDeliv cfg s'.data := by
  obtain ⟨sh, hsh, rfl⟩ := bresume_cases h
  refine ⟨by simp [hD.shards_length], by simp [hD.pending_length], fun j sh' h' => ?_⟩
  by_cases hj : i = j
  · subst hj; simp [lt_length_of_getD_eq_some hsh] at h'
  · rw [getD_set_of_ne _ hj] at h' ⊢; exact hD.pendingClear j sh' h'

/-- A blocked producer's send: its list moves from the pending slot into the shard. -/
theorem inFlight_resume (hD : BDeliv cfg s.data) {i : Nat} (h : bresume cfg s i = some s') :
    (s.data.inFlight : Multiset Entry) = s'.data.inFlight ∧ s'.data.resolved = s.data.resolved := by
  obtain ⟨sh, hsh, rfl⟩ := bresume_cases h
  have hi := lt_length_of_getD_eq_some hsh
  have hS := flatten_map_set_coe BShard.futures
    (getElem?_eq_some_getD (by rw [hD.shards_length, ← hD.pending_length]; exact hi) BShard.empty) sh
  have hP := flatten_map_set_coe pendingFutures (getElem?_eq_some_getD hi none) none
  rw [hD.pendingClear i sh hsh] at hS
  rw [hsh] at hP
  simp only [BShard.empty_futures, pendingFutures_none, pendingFutures_some, Multiset.coe_nil, add_zero] at hS hP
  refine ⟨?_, rfl⟩
  simp only [BufData.inFlight, ← Multiset.coe_add, ← hS, hP]
  ac_rfl

/-- A producer's append adds its entries to the flight, whether it assigns the shard or
blocks holding it. -/
theorem inFlight_benqueue (hR : BInv ff s) (hD : BDeliv cfg s.data) {i : Nat} (hi : i < cfg.concurrency)
    (hl : s.data.locked i = false) (buf : Bytes) (es : List Entry) :
    ((benqueue cfg s i ⟨buf, (s.data.shards.getD i BShard.empty).futures ++ es⟩).data.inFlight : Multiset Entry) =
      s.data.inFlight + es := by
  have hi' : i < s.data.shards.length := hD.shards_length ▸ hi
  unfold RedisPipe.Conn.benqueue
  dsimp only
  split_ifs with hb
  · simp only [BufData.inFlight, ← Multiset.coe_add, futures_set_append hi']
    ac_rfl
  · have hnone : s.data.pending.getD i none = none := by simpa [BufData.locked] using hl
    have hP := flatten_map_set_coe pendingFutures (getElem?_eq_some_getD (hD.pending_length ▸ hi) none)
      (some ⟨buf, (s.data.shards.getD i BShard.empty).futures ++ es⟩)
    have hes : (((s.data.shards.getD i BShard.empty).futures ++ es : List Entry) : Multiset Entry) = es := by
      rw [(hR.shards i).nil_iff.mp hb, List.nil_append]
    rw [hnone, pendingFutures_some, pendingFutures_none, hes, Multiset.coe_nil, add_zero] at hP
    simp only [BufData.inFlight, ← Multiset.coe_add, ← hP]
    ac_rfl
  · simp only [BufData.inFlight, ← Multiset.coe_add, futures_set_append hi']
    ac_rfl

theorem BDeliv.produced (hR : BInv ff s) (hD : BDeliv cfg s.data) {i : Nat} (h : BProduced cfg ff s s' i) :
    BDeliv cfg s'.data := by
  rcases h with ⟨rs, rfl⟩ | ⟨-, -, hl, new, -, rfl⟩
  · exact hD.of_eq rfl rfl
  · exact hD.benqueue hR hl new

/-- **A blocked producer holds an empty shard, in every state**: no entry is both in a shard
and in the list a blocked producer will assign to it. -/
theorem BDeliv.step (hR : BInv ff s) (hD : BDeliv cfg s.data) {a : BAction} (h : bstep cfg ff s a = some s') :
    BDeliv cfg s'.data := by
  unfold bstep at h
  split_ifs at h
  cases a <;> simp only at h
  · rcases (mstep_bdata h).1 with hd | ⟨err, hd⟩ | hd <;> rw [hd]
    · exact hD
    · exact ⟨by simp [BufData.drop, hD.shards_length], hD.pending_length,
        fun i _ _ => by simp only [BufData.drop, getD_map_empty]⟩
    · exact hD.of_eq rfl rfl
  · split_ifs at h; exact hD.produced hR (bsendAsk_produced h)
  · split_ifs at h; exact hD.produced hR (bsendBatchFlags_produced h)
  · split_ifs at h; exact hD.produced hR (bsendTransaction_produced h)
  · exact hD.resume h
  · obtain ⟨-, hq, -, -, -, -, ⟨hs, -⟩ | ⟨i, -, hs, -⟩⟩ := bwstep_moves hR h
    · exact hD.of_eq hs hq
    · exact hD.setEmpty hs hq
  · obtain ⟨hs, hq, -⟩ := brstep_moves h
    exact hD.of_eq hs hq
  · cases h; exact hD

theorem BDeliv.initial (cfg : Config) : BDeliv cfg (BufData.initial cfg) :=
  ⟨by simp [BufData.initial], by simp [BufData.initial], fun i sh h => by
    simp only [BufData.initial, List.getD_eq_getElem?_getD, List.getElem?_replicate] at h
    split_ifs at h <;> cases h⟩

theorem BReachable.bDeliv (hs : BReachable cfg ff s) : BDeliv cfg s.data := by
  induction hs with
  | init => exact BDeliv.initial cfg
  | step a hs h ih => exact ih.step hs.bInv h

end Blocked

/-! ## 5. The connection's own steps conserve the entries -/

section Conserve

variable {cfg : Config} {ff : FloatFormat} {s s' : Sys BufData}

/-- The steps of the connection's goroutines (manager, writers, readers, context) and of
the blocked producers' sends: every action but a producer's call. -/
def BAction.internal : BAction → Bool
  | .sendAsk .. | .sendBatchFlags .. | .sendTransaction .. => false
  | _ => true

/-- **No internal step loses or duplicates an entry**: the entries in flight before it are
the ones it calls, in the order it calls them, and the ones in flight after it. -/
theorem BInv.conserve (hR : BInv ff s) (hD : BDeliv cfg s.data) {a : BAction} (ha : a.internal = true)
    (h : bstep cfg ff s a = some s') :
    ∃ rs, s'.data.resolved = s.data.resolved ++ rs ∧
      List.Perm (s.data.inFlight.map Entry.key) (rs.map Resolution.key ++ s'.data.inFlight.map Entry.key) := by
  unfold bstep at h
  split_ifs at h
  cases a <;> simp only [BAction.internal, Bool.false_eq_true] at h ha
  · rcases (mstep_bdata h).1 with hd | ⟨err, hd⟩ | hd <;> rw [hd]
    · exact ⟨[], by simp, by simp⟩
    · refine ⟨_, rfl, ?_⟩
      rw [callAll_keys, inFlight_drop err s.data, List.map_append]
    · exact ⟨[], by simp, by rw [inFlight_startSession]; simp⟩
  · obtain ⟨hf, hr⟩ := inFlight_resume hD h
    exact ⟨[], by simp [hr], keys_perm (hf.trans (zero_add _).symm) rfl⟩
  · obtain ⟨hr, hq, p, p', hp, hpi, ⟨hs, hf⟩ | ⟨i, -, hs, hf⟩⟩ := bwstep_moves hR h
    · exact ⟨[], by simp [hr], @keys_perm _ _ [] [] (inFlight_ownPipe hs hq hp hpi (by simp [hf])) rfl⟩
    · exact ⟨[], by simp [hr], keys_perm ((inFlight_swap hq hs hp hpi hf).trans (zero_add _).symm) rfl⟩
  · obtain ⟨hs, hq, p, p', es, rs, hp, hpi, hr, hk, hf⟩ := brstep_moves h
    exact ⟨rs, hr, keys_perm (inFlight_ownPipe hs hq hp hpi hf) hk⟩
  · cases h; exact ⟨[], by simp, by simp⟩

/-- **Along any run of internal steps from a reachable state, every entry in flight at its
start is called exactly once or still in flight at its end**, and nothing else is called. -/
theorem conserve_run (hs : BReachable cfg ff s) {as : List BAction} (ha : as.all BAction.internal = true)
    (h : brun cfg ff s as = some s') :
    ∃ rs, s'.data.resolved = s.data.resolved ++ rs ∧
      List.Perm (s.data.inFlight.map Entry.key) (rs.map Resolution.key ++ s'.data.inFlight.map Entry.key) := by
  induction as generalizing s with
  | nil => cases h; exact ⟨[], by simp, by simp⟩
  | cons a as ih =>
    simp only [List.all_cons, Bool.and_eq_true] at ha
    obtain ⟨s₁, h₁, h₂⟩ := Option.bind_eq_some.mp h
    obtain ⟨rs₁, hr₁, hp₁⟩ := hs.bInv.conserve hs.bDeliv ha.1 h₁
    obtain ⟨rs₂, hr₂, hp₂⟩ := ih (.step a hs h₁) ha.2 h₂
    refine ⟨rs₁ ++ rs₂, by rw [hr₂, hr₁, List.append_assoc], ?_⟩
    rw [List.map_append, List.append_assoc]
    exact hp₁.trans (hp₂.append_left _)

theorem conserve_run_ping :
    ∃ s s', BReachable oneShard noFloats s ∧ brun oneShard noFloats s deliverPing = some s' ∧
      s.data.inFlight.map Entry.key = [(.cb 1, 0)] ∧ s'.data.inFlight = [] ∧
      ∃ rs, s'.data.resolved = s.data.resolved ++ rs ∧
        List.Perm (s.data.inFlight.map Entry.key) (rs.map Resolution.key ++ s'.data.inFlight.map Entry.key) := by
  obtain ⟨s, hs, hp⟩ := @exists_breachable_of_run oneShard noFloats connectPing
    (fun s => (brun oneShard noFloats s deliverPing).any fun s' =>
      s.data.inFlight.map Entry.key == [(.cb 1, 0)] && s'.data.inFlight.isEmpty) (by decide)
  obtain ⟨s', hr, hq⟩ := brun_of_any hp
  simp only [Bool.and_eq_true, beq_iff_eq, List.isEmpty_iff] at hq
  exact ⟨s, s', hs, hr, hq.1, hq.2, conserve_run hs (by decide) hr⟩

end Conserve

/-! ## 6. What the producers issue -/

section Issue

variable {cfg : Config} {ff : FloatFormat} {s s' : Sys BufData} {i : Nat}

/-- The pairs `SendBatchFlags(reqs, cb, start, flags)` hands over: one per request, and
`EXEC`'s `start + len(reqs)` under `DoTransaction`; none for an empty batch, which returns
at once. -/
def batchIssued (reqs : List Request) (cb : Future) (start : BitVec 64) (flags : Nat) :
    List (Future × BitVec 64) :=
  if reqs = [] then [] else batchKeys cb start 0 (reqs.length + if flags &&& doTransaction ≠ 0 then 1 else 0)

/-- The (future, index) pairs a producer's call hands to the connection to resolve. -/
def BAction.issued : BAction → List (Future × BitVec 64)
  | .sendAsk _ _ cb n _ _ => [(cb, n)]
  | .sendBatchFlags _ reqs cb start flags _ => batchIssued reqs cb start flags
  | .sendTransaction _ reqs cb off inactive _ =>
    if inactive then [(.cb cb, off)]
    else batchIssued reqs (.transaction cb (.ofNat 64 reqs.length) off) 0 doTransaction
  | _ => []

/-- The pairs a state has taken on, the markers aside: those called and those in flight. -/
def BufData.ledger (d : BufData) : List (Future × BitVec 64) :=
  (d.resolved.map Resolution.key ++ d.inFlight.map Entry.key).filter (·.1.own)

/-- The entries `doSend(req, cb, n, asking)` appends to its shard. -/
def sendBlock (req : Request) (cb : Future) (n : BitVec 64) (asking : Bool) : List Entry :=
  (if asking then [⟨.dumb, 0, askingReq⟩] else []) ++ [⟨cb, n, req⟩]

/-- What a producer's call on shard `i` did with the pairs `ks` it was given: it logged
calls, or appended entries to the shard, in both cases for pairs of `ks`, the markers aside. -/
def BIssued (cfg : Config) (s s' : Sys BufData) (i : Nat) (ks : List (Future × BitVec 64)) : Prop :=
  (∃ rs, s' = s.blog rs ∧ List.Sublist ((rs.map Resolution.key).filter (·.1.own)) ks) ∨
    (s.data.locked i = false ∧ ∃ buf es,
      s' = benqueue cfg s i ⟨buf, (s.data.shards.getD i BShard.empty).futures ++ es⟩ ∧
      List.Sublist ((es.map Entry.key).filter (·.1.own)) ks)

theorem BIssued.log (rs : List Resolution) {ks : List (Future × BitVec 64)}
    (h : List.Sublist (rs.map Resolution.key) ks) : BIssued cfg s (s.blog rs) i ks :=
  .inl ⟨rs, rfl, (List.filter_sublist _).trans h⟩

theorem BIssued.none (ks : List (Future × BitVec 64)) : BIssued cfg s s i ks :=
  .inl ⟨[], by simp, by simp⟩

theorem bbatchEntries_keys (cb : Future) (start : BitVec 64) (reqs : List Request) :
    ∀ j, (bbatchEntries cb start j reqs).map Entry.key = batchKeys cb start j reqs.length := by
  induction reqs with
  | nil => intro j; rfl
  | cons r rs ih => intro j; simp [bbatchEntries, batchKeys, List.range'_succ, ih, Entry.key]

/-- `doSend`'s entries: the `ASKING` marker if asked for, then the request's own. -/
theorem bdoSend_entries {req : Request} {cb : Future} {n : BitVec 64} {asking inactive : Bool}
    {r : Option RedisError} (h : bdoSend cfg ff s i req cb n asking inactive = some (s', r)) :
    s' = s ∨ (r = none ∧ s.data.locked i = false ∧ ∃ buf, s' = benqueue cfg s i
      ⟨buf, (s.data.shards.getD i BShard.empty).futures ++ sendBlock req cb n asking⟩) := by
  unfold bdoSend at h
  split at h
  · cases h; exact .inl rfl
  split at h
  · cases h
  split at h
  · cases h; exact .inl rfl
  · cases h; exact .inl rfl
  rename_i hl _ _ _
  dsimp only at h
  split at h
  · cases h; exact .inl rfl
  rename_i b₂ _
  cases h
  exact .inr ⟨rfl, by simpa using hl, b₂, by cases asking <;> simp [sendBlock]⟩

theorem bsendAsk_issued {req : Request} {cb : Future} {n : BitVec 64} {asking inactive : Bool}
    (h : bsendAsk cfg ff s i req cb n asking inactive = some s') : BIssued cfg s s' i [(cb, n)] := by
  obtain ⟨⟨s₁, e⟩, h₁, rfl⟩ := Option.map_eq_some'.mp h
  rcases bdoSend_entries h₁ with rfl | ⟨rfl, hl, buf, rfl⟩
  · cases e
    · exact BIssued.none _
    · exact BIssued.log _ (by simp [Resolution.key])
  · exact .inr ⟨hl, buf, _, rfl, by cases asking <;> simp [sendBlock, Entry.key, Future.own, List.filter_sublist]⟩

/-- The own pairs of a batch's block are the ones the batch issued, in order. -/
theorem batchBlock_own_keys {reqs : List Request} (hne : reqs ≠ []) (cb : Future) (start : BitVec 64)
    (flags : Nat) : ((batchBlock reqs cb start flags).map Entry.key).filter (·.1.own) =
      (batchIssued reqs cb start flags).filter (·.1.own) := by
  rw [batchIssued, if_neg hne]
  by_cases ha : flags &&& doAsking ≠ 0 <;> by_cases ht : flags &&& doTransaction ≠ 0 <;>
    simp [batchBlock, ha, ht, Entry.key, Future.own, bbatchEntries_keys, batchKeys, List.range'_1_concat]

theorem bsendBatchFlags_issued {reqs : List Request} {cb : Future} {start : BitVec 64} {flags : Nat}
    {inactive : Bool} (h : bsendBatchFlags cfg ff s i reqs cb start flags inactive = some s') :
    BIssued cfg s s' i (batchIssued reqs cb start flags) := by
  rcases bsendBatchFlags_inv h with ⟨rs, rfl, rfl | hk, -⟩ | ⟨hne, hl, buf, rfl⟩
  · exact BIssued.log [] (List.nil_sublist _)
  · refine BIssued.log rs (hk ▸ ?_)
    by_cases hne : reqs = []
    · simp [hne, batchKeys]
    · rw [batchIssued, if_neg hne]
      exact (List.range'_sublist_right.mpr (Nat.le_add_right _ _)).map _
  · exact .inr ⟨hl, buf, _, rfl, batchBlock_own_keys hne cb start flags ▸ List.filter_sublist _⟩

theorem bsendTransaction_issued {reqs : List Request} {cb : Nat} {off : BitVec 64} {inactive inactiveLater : Bool}
    (h : bsendTransaction cfg ff s i reqs cb off inactive inactiveLater = some s') :
    BIssued cfg s s' i (BAction.sendTransaction i reqs cb off inactive inactiveLater).issued := by
  unfold bsendTransaction at h
  simp only [BAction.issued]
  split_ifs at h ⊢
  · cases h; exact BIssued.log _ (by simp [Resolution.key])
  · exact bsendBatchFlags_issued h

end Issue

/-! ## 7. No pair is called more often than it was issued -/

section Ledger

variable {cfg : Config} {ff : FloatFormat} {s s' : Sys BufData}

section LedgerSimp
variable (s : Sys BufData) (rs : List Resolution) (i : Nat) (new : BShard)
@[simp] theorem Sys.blog_resolved : (s.blog rs).data.resolved = s.data.resolved ++ rs := rfl
@[simp] theorem Sys.blog_inFlight : (s.blog rs).data.inFlight = s.data.inFlight := rfl
@[simp] theorem benqueue_resolved : (benqueue cfg s i new).data.resolved = s.data.resolved := by
  unfold benqueue; dsimp only; split_ifs <;> rfl
end LedgerSimp

theorem ledger_initial (cfg : Config) : (Sys.initial cfg (BufData.initial cfg)).data.ledger = [] := by
  simp [Sys.initial, BufData.initial, BufData.ledger, BufData.inFlight, pendingFutures]

/-- A producer's call adds to the ledger some of the pairs it was given. -/
theorem BIssued.ledger (hR : BInv ff s) (hD : BDeliv cfg s.data) {i : Nat} (hi : i < cfg.concurrency)
    {ks : List (Future × BitVec 64)} (h : BIssued cfg s s' i ks) :
    ∃ ks', List.Sublist ks' ks ∧ List.Perm s'.data.ledger (s.data.ledger ++ ks') := by
  rcases h with ⟨rs, rfl, hk⟩ | ⟨hl, buf, es, rfl, hk⟩
  · refine ⟨_, hk, ?_⟩
    simp only [BufData.ledger, Sys.blog_resolved, Sys.blog_inFlight, List.map_append, List.filter_append,
      List.append_assoc]
    exact List.perm_append_comm.append_left _
  · refine ⟨_, hk, ?_⟩
    have hp := Multiset.coe_eq_coe.mp ((inFlight_benqueue hR hD hi hl buf es).trans (Multiset.coe_add _ _))
    simpa only [BufData.ledger, benqueue_resolved, List.map_append, List.filter_append, List.append_assoc] using
      ((hp.map Entry.key).append_left (s.data.resolved.map Resolution.key)).filter (·.1.own)

/-- Each step adds to the ledger some of the pairs its action issued, and an internal step
none. -/
theorem ledger_step (hR : BInv ff s) (hD : BDeliv cfg s.data) {a : BAction} (h : bstep cfg ff s a = some s') :
    ∃ ks, List.Sublist ks a.issued ∧ List.Perm s'.data.ledger (s.data.ledger ++ ks) := by
  cases hin : a.internal
  · unfold bstep at h
    split_ifs at h
    cases a <;> simp only [BAction.internal, Bool.true_eq_false] at hin <;> simp only at h <;>
      split_ifs at h with hc
    · exact (bsendAsk_issued h).ledger hR hD hc.2
    · exact (bsendBatchFlags_issued h).ledger hR hD hc.2
    · exact (bsendTransaction_issued h).ledger hR hD hc.2
  · obtain ⟨rs, hr, hp⟩ := hR.conserve hD hin h
    refine ⟨[], List.nil_sublist _, ?_⟩
    simp only [BufData.ledger, hr, List.map_append, List.append_assoc, List.append_nil]
    exact ((hp.append_left _).filter _).symm

/-- Along any run from a reachable state, the ledger grows only by pairs the run's
producers issued, each at most as often as issued. -/
theorem ledger_run (hs : BReachable cfg ff s) {as : List BAction} (h : brun cfg ff s as = some s') :
    List.Subperm s'.data.ledger (s.data.ledger ++ as.flatMap BAction.issued) := by
  induction as generalizing s with
  | nil => cases h; exact (List.sublist_append_left _ _).subperm
  | cons a as ih =>
    obtain ⟨s₁, h₁, h₂⟩ := Option.bind_eq_some.mp h
    obtain ⟨ks, hk, hp⟩ := ledger_step hs.bInv hs.bDeliv h₁
    refine (ih (.step a hs h₁) h₂).trans ((hp.append_right _).subperm.trans ?_)
    rw [List.flatMap_cons, List.append_assoc]
    exact ((hk.append_right _).append_left _).subperm

/-- **Every call made and every entry in flight is for a pair a producer's call issued, at
most as often as issued**, in every run from `Connect`, the markers aside. -/
theorem issued_covers {as : List BAction} (h : brun cfg ff (Sys.initial cfg (BufData.initial cfg)) as = some s) :
    List.Subperm s.data.ledger (as.flatMap BAction.issued) := by
  simpa [ledger_initial] using ledger_run BReachable.init h

theorem issued_covers_ping :
    ∃ s, brun oneShard noFloats (Sys.initial oneShard (BufData.initial oneShard)) (connectPing ++ deliverPing) = some s ∧
      s.data.ledger = [(.cb 1, 0)] ∧ List.Subperm s.data.ledger ((connectPing ++ deliverPing).flatMap BAction.issued) := by
  obtain ⟨s, hr, hq⟩ := @brun_of_any oneShard noFloats (Sys.initial oneShard (BufData.initial oneShard)) (connectPing ++ deliverPing)
    (fun s => s.data.ledger == [(.cb 1, 0)]) (by decide)
  exact ⟨s, hr, by simpa using hq, issued_covers hr⟩

/-- **No future is called twice for one index, and none still in flight has been called**,
in every run from `Connect` whose producers' calls never reuse a (future, index) pair. -/
theorem resolved_at_most_once {as : List BAction} (hn : (as.flatMap BAction.issued).Nodup)
    (h : brun cfg ff (Sys.initial cfg (BufData.initial cfg)) as = some s) :
    ((s.data.resolved.map Resolution.key).filter (·.1.own)).Nodup ∧
      ∀ e ∈ s.data.inFlight, e.fut.own = true → e.key ∉ s.data.resolved.map Resolution.key := by
  obtain ⟨l, hp, hsub⟩ := ledger_run BReachable.init h
  rw [ledger_initial, List.nil_append] at hsub
  have hnd : s.data.ledger.Nodup := hp.nodup (hn.sublist hsub)
  rw [BufData.ledger, List.filter_append, List.nodup_append] at hnd
  exact ⟨hnd.1, fun e he hown hres => hnd.2.2 (List.mem_filter.mpr ⟨hres, hown⟩)
    (List.mem_filter.mpr ⟨List.mem_map_of_mem _ he, hown⟩)⟩

theorem resolved_at_most_once_ping :
    ∃ s, ((connectPing ++ deliverPing).flatMap BAction.issued).Nodup ∧
      brun oneShard noFloats (Sys.initial oneShard (BufData.initial oneShard)) (connectPing ++ deliverPing) = some s ∧
      s.data.resolved.map Resolution.key = [(.cb 1, 0)] ∧
      ((s.data.resolved.map Resolution.key).filter (·.1.own)).Nodup ∧
      ∀ e ∈ s.data.inFlight, e.fut.own = true → e.key ∉ s.data.resolved.map Resolution.key := by
  obtain ⟨s, hr, hq⟩ := @brun_of_any oneShard noFloats (Sys.initial oneShard (BufData.initial oneShard)) (connectPing ++ deliverPing)
    (fun s => s.data.resolved.map Resolution.key == [(.cb 1, 0)]) (by decide)
  exact ⟨s, by decide, hr, by simpa using hq, resolved_at_most_once (by decide) hr⟩

end Ledger

end RedisPipe.Conn
