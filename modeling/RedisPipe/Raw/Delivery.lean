import RedisPipe.Raw.Invariants
import RedisPipe.Raw.Serialize

/-!
# Every future of the raw-packet version is called at most once

`request_writer.go:461-657` (the producers), `:825-844` (`dropShardFutures`) and `:927-1074`
(the writer and the reader). An entry a producer appends to a shard is owed one
`conn.call`: `dropShardFutures` makes it out of the shard, the writer's serialization loop
for an entry it does not keep, the reader for an entry it was handed. `RawData.inFlight`
lists the entries still owed one, in every state: the shards' lists, the list a producer
blocked on `conn.dirtyShard` holds, and each session's writer batch (the entries still to
encode, those kept, `futures`), the batches on `one.futures` and the reader's batch.

The loop's test is `err != nil` on the `error` variable that holds `AppendRequest`'s
`*redis.Error`, which is true for every entry, a nil pointer included. In the code's runs,
whose writer steps all take that branch (`Action.goBranch`), the writer keeps no entry and
hands its reader nothing: every session stays `Pipe.Quiet`, and the deferred hand-off that
would send a batch on `one.futures` a second time after a failed write is never reached.

## Strategy

`wstep_go` and `rstep_go` say what a session's steps do in such a state: change only their
own pipe, keeping it quiet, and call the entries they take off its front, or swap a shard
whose lock is free into the writer (`GoMoved`). `GoInv` adds what the producers and the
manager keep: the shard lists keep their `Concurrency` slots, and a shard a blocked
producer holds is empty. `GoInv.step` says, for each kind of action, which pairs it took on
(`Accounted`): the entries in flight before a step, with the pairs it took on, are the ones
it called and the ones in flight after it, up to order; a producer takes on only pairs it
was given (`Action.issued`).

## Results

* `raw_resolved_once`: **in every run of the code from `Connect` whose producers never reuse
  a (future, index) pair, no future is called twice for one index, none still in flight has
  been called, no batch has been handed to a reader, and each next step calls or keeps every
  entry in flight.**
-/

set_option autoImplicit false

namespace RedisPipe.Conn

/-! ## 1. What the connection owes -/

/-- The entries the serialization loop holds at `pc`: those still to encode and those kept. -/
def WPc.unsent : WPc → List Entry
  | .serialize rest kept => rest ++ kept
  | .bigLoop | .swap _ | .handOff | .handOffBlocked | .control | .nextShard | .deferSend | .done => []

/-- A session's entries owed a call: the writer's working batch, the batches queued on
`one.futures`, and the reader's current batch. -/
def Pipe.inFlight (p : Pipe) : List Entry :=
  p.writer.pc.unsent ++ p.writer.futures ++ p.chan.flatten ++ p.reader.current

/-- Every entry of the connection still owed a `conn.call`. -/
def RawData.inFlight (d : RawData) : List Entry :=
  d.shards.flatten ++ (d.pending.map fun o => o.getD []).flatten ++ (d.pipes.map Pipe.inFlight).flatten

/-- The writer's points in the code's runs: no hand-off, and no entry kept. -/
def WPc.quiet : WPc → Bool
  | .serialize _ kept => kept.isEmpty
  | .handOff | .handOffBlocked => false
  | .bigLoop | .swap _ | .control | .nextShard | .deferSend | .done => true

/-- A session of the code's runs: its writer keeps nothing and has handed nothing over, so
its channel and its reader's batch are empty. -/
structure Pipe.Quiet (p : Pipe) : Prop where
  pc : p.writer.pc.quiet = true
  futures : p.writer.futures = []
  chan : p.chan = []
  current : p.reader.current = []
  handed : p.handed = []

/-- What the code's runs keep: the shard lists keep their `Concurrency` slots, a shard a
blocked producer holds is empty (it found it so, and its lock keeps everyone else off it),
and every session is quiet. -/
structure GoInv (cfg : Config) (d : RawData) : Prop where
  shards_length : d.shards.length = cfg.concurrency
  pending_length : d.pending.length = cfg.concurrency
  pendingClear : ∀ (i : Nat) (fs : List Entry), d.pending.getD i none = some fs → d.shards.getD i [] = []
  quiet : ∀ p ∈ d.pipes, p.Quiet

/-- The actions the code takes: a writer step takes the loop's `err != nil` branch. -/
def Action.goBranch : Action → Bool
  | .writer _ _ checkFails _ => checkFails
  | _ => true

section QuietLemmas
variable {p : Pipe}

theorem Pipe.Quiet.inFlight_eq (h : p.Quiet) : p.inFlight = p.writer.pc.unsent := by
  simp [Pipe.inFlight, h.futures, h.chan, h.current]

theorem Pipe.Quiet.goto (h : p.Quiet) {pc : WPc} (hpc : pc.quiet = true) : (p.goto pc).Quiet :=
  ⟨hpc, h.futures, h.chan, h.current, h.handed⟩

theorem Pipe.Quiet.flush (h : p.Quiet) : p.flush.Quiet := ⟨h.pc, h.futures, h.chan, h.current, h.handed⟩

theorem Pipe.fresh_quiet : Pipe.fresh.Quiet := ⟨rfl, rfl, rfl, rfl, rfl⟩

end QuietLemmas

/-! ## 2. What a quiet session's steps move -/

section Sessions

variable {cfg : Config} {ff : FloatFormat} {s s' : Sys RawData} {k : Nat}

@[simp] theorem Sys.setPipe_resolved (p : Pipe) : (s.setPipe k p).data.resolved = s.data.resolved := rfl
@[simp] theorem Sys.log_resolved (rs : List Resolution) : (s.log rs).data.resolved = s.data.resolved ++ rs := rfl

/-- What a step of session `k` did from a state whose sessions are quiet: it left the
blocked producers alone and changed only its own pipe, to a quiet one; it called the
entries `es` off the front of the pipe's, or it swapped shard `i`, whose lock was free,
leaving the shard empty and taking its entries in. -/
def GoMoved (s s' : Sys RawData) (k : Nat) : Prop :=
  s'.data.pending = s.data.pending ∧ ∃ p p', s.data.pipes[k]? = some p ∧
    s'.data.pipes = s.data.pipes.set k p' ∧ p'.Quiet ∧
    ((s'.data.shards = s.data.shards ∧ ∃ es rs, s'.data.resolved = s.data.resolved ++ rs ∧
        rs.map Resolution.key = es.map Entry.key ∧ p.inFlight = es ++ p'.inFlight) ∨
      ∃ i, s.data.locked i = false ∧ s'.data.shards = s.data.shards.set i [] ∧
        s'.data.resolved = s.data.resolved ∧ p'.inFlight = p.inFlight ++ s.data.shards.getD i [])

theorem GoMoved.own {p p' : Pipe} (es : List Entry) (rs : List Resolution) (hp : s.data.pipes[k]? = some p)
    (hQ : p.Quiet) (ho : s.onlyPipe s' k p') (hQ' : p'.Quiet) (hr : s'.data.resolved = s.data.resolved ++ rs)
    (hk : rs.map Resolution.key = es.map Entry.key) (hf : p.writer.pc.unsent = es ++ p'.writer.pc.unsent) :
    GoMoved s s' k := by
  obtain ⟨hd, -⟩ := ho
  refine ⟨by rw [hd], p, p', hp, by rw [hd], hQ', .inl ⟨by rw [hd], es, rs, hr, hk, ?_⟩⟩
  rw [hQ.inFlight_eq, hQ'.inFlight_eq, hf]

/-- **What a writer step of the code does in a quiet state.** -/
theorem wstep_go (hq : ∀ p ∈ s.data.pipes, p.Quiet) {pick ok : Bool}
    (h : wstep cfg ff s k pick true ok = some s') : GoMoved s s' k := by
  unfold wstep at h
  split at h
  · rename_i p one hp _
    have hQ := hq p (List.getElem?_mem hp)
    -- the writer moves between points that hold no entry
    have hgoto : ∀ pc, p.writer.pc.unsent = [] → pc.quiet = true → pc.unsent = [] →
        GoMoved s (s.setPipe k (p.goto pc)) k := fun pc h₀ h₁ h₂ =>
      .own [] [] hp hQ (s.onlyPipe_setPipe k _) (hQ.goto h₁) (by simp) rfl (by simp [h₀, h₂])
    have hwrite : ∀ pc, p.writer.pc.unsent = [] → pc.quiet = true → pc.unsent = [] →
        GoMoved s (s.writeThen k p ok (·.goto pc)) k := fun pc h₀ h₁ h₂ => by
      refine .own [] [] hp hQ (s.onlyPipe_writeThen k p ok _) ?_ (by simp [(s.writeThen_data k p ok _).1]) rfl ?_
      · split; exacts [hQ.flush.goto h₁, hQ.goto (by rfl)]
      · split
        · simp [h₀, h₂]
        · rw [h₀]; rfl
    have hrecv : p.writer.pc.unsent = [] → s.receive k p = some s' → GoMoved s s' k := fun h₀ h => by
      rcases receive_cases h with ⟨i, rest, -, rfl⟩ | ⟨-, -, rfl⟩
      · have hQ' : (p.goto (.swap i)).Quiet := hQ.goto (by rfl)
        refine ⟨rfl, p, _, hp, rfl, hQ', .inl ⟨rfl, [], [], by simp, rfl, ?_⟩⟩
        rw [hQ.inFlight_eq, hQ'.inFlight_eq, h₀]
        rfl
      · exact hgoto _ h₀ (by rfl) (by rfl)
    dsimp only at h
    split at h
    next hpc => -- the big loop's receive, or its return on a closed control channel
      split_ifs at h
      · exact hrecv (by simp [hpc, WPc.unsent]) h
      · cases h; exact hgoto _ (by simp [hpc, WPc.unsent]) (by rfl) (by rfl)
    next i hpc => -- the swap
      split_ifs at h with hl
      cases h
      have hQ' : ({ p with writer := ⟨.serialize (s.data.shards.getD i []) [], p.writer.packet, []⟩ } :
          Pipe).Quiet := ⟨rfl, rfl, hQ.chan, hQ.current, hQ.handed⟩
      refine ⟨rfl, p, _, hp, rfl, hQ', .inr ⟨i, by simpa using hl, by simp [Sys.setPipe, hQ.futures], rfl, ?_⟩⟩
      rw [hQ.inFlight_eq, hQ'.inFlight_eq]
      simp [hpc, WPc.unsent]
    next kept hpc => -- the loop's end, with nothing kept
      obtain rfl : kept = [] := by simpa [hpc, WPc.quiet] using hQ.pc
      cases h
      exact .own [] [] hp hQ (s.onlyPipe_setPipe k _) ⟨rfl, rfl, hQ.chan, hQ.current, hQ.handed⟩ (by simp) rfl
        (by simp [hpc, WPc.unsent])
    next e rest kept hpc =>
      -- the entry is called at once, whatever `AppendRequest` returned
      simp only [Bool.or_true, ↓reduceIte] at h
      cases h
      exact .own [e] _ hp hQ (s.onlyPipe_logSetPipe k _ _)
        ⟨by simpa [hpc, WPc.quiet] using hQ.pc, rfl, hQ.chan, hQ.current, hQ.handed⟩ rfl rfl
        (by simp [hpc, WPc.unsent])
    next hpc => exact absurd hQ.pc (by simp [hpc, WPc.quiet]) -- no hand-off
    next hpc => exact absurd hQ.pc (by simp [hpc, WPc.quiet])
    next hpc => -- the control check
      cases h
      exact hgoto _ (by simp [hpc, WPc.unsent]) (by split <;> rfl) (by split <;> rfl)
    next hpc => -- the next shard, the channel's close, or a write
      have h₀ : p.writer.pc.unsent = [] := by simp [hpc, WPc.unsent]
      split at h
      · exact hrecv h₀ h
      · split_ifs at h <;> cases h
        exacts [hgoto _ h₀ (by rfl) (by rfl), hgoto _ h₀ (by rfl) (by rfl), hwrite _ h₀ (by rfl) (by rfl)]
    next hpc => -- the deferred function, with nothing to hand over
      rw [if_pos hQ.futures] at h
      cases h
      exact .own [] [] hp hQ (s.onlyPipe_setPipe k _) ⟨rfl, hQ.futures, hQ.chan, hQ.current, hQ.handed⟩
        (by simp) rfl (by simp [hpc, WPc.unsent])
    next => cases h
  · cases h

/-- **What a reader step does in a quiet state**: with no batch to read, it calls nothing
and moves only its own point. -/
theorem rstep_go (hq : ∀ p ∈ s.data.pipes, p.Quiet) {r : ReadResult} (h : rstep s k r = some s') :
    GoMoved s s' k := by
  unfold rstep at h
  split at h
  · rename_i p one hp _
    have hQ := hq p (List.getElem?_mem hp)
    dsimp only at h
    simp only [hQ.current, hQ.chan] at h
    repeat' split at h
    all_goals first
      | (cases h; done)
      | (cases h; exact .own [] [] hp hQ (s.onlyPipe_setPipe k _) ⟨hQ.pc, hQ.futures, rfl, rfl, hQ.handed⟩
          (by simp) rfl rfl)
      | (cases h; exact .own [] [] hp hQ (s.onlyPipe_setErr k _ _) ⟨hQ.pc, hQ.futures, rfl, rfl, hQ.handed⟩
          (by simp [Sys.setPipe]) rfl rfl)
      | (cases h; exact .own [] _ hp hQ (s.onlyPipe_logSetPipe k _ _) ⟨hQ.pc, hQ.futures, rfl, rfl, hQ.handed⟩
          rfl (callAll_keys ..) rfl)
  · cases h

end Sessions

/-! ## 3. A step's entries over the whole data -/

section Accounting

variable {d d' : RawData}

/-- Replacing list `i` by itself with `es` appended adds `es` to the whole. -/
theorem flatten_set_getD_append {α : Type} {l : List (List α)} {i : Nat} (hi : i < l.length) (es : List α) :
    ((l.set i (l.getD i [] ++ es)).flatten : Multiset α) = l.flatten + es := by
  have h := flatten_map_set_coe id (getElem?_eq_some_getD hi []) (l.getD i [] ++ es)
  simp only [List.map_id, id] at h
  exact add_right_cancel (h.symm.trans (by simp only [← Multiset.coe_add]; ac_rfl))

/-- Emptying list `i` takes it out of the whole. -/
theorem flatten_set_nil {α : Type} (l : List (List α)) (i : Nat) :
    (l.flatten : Multiset α) = l.getD i [] + (l.set i []).flatten := by
  rcases Nat.lt_or_ge i l.length with hi | hi
  · have h := flatten_map_set_coe id (getElem?_eq_some_getD hi []) []
    simp only [List.map_id, id, Multiset.coe_nil, add_zero] at h
    rw [h, add_comm]
  · simp [List.set_eq_of_length_le hi, List.getElem?_eq_none hi]

/-- A step that changes only pipe `k`, taking `es` out of its flight. -/
theorem RawData.inFlight_ownPipe (hs : d'.shards = d.shards) (hq : d'.pending = d.pending) {k : Nat}
    {p p' : Pipe} (hp : d.pipes[k]? = some p) (hpi : d'.pipes = d.pipes.set k p') {es : List Entry}
    (hf : p.inFlight = es ++ p'.inFlight) : (d.inFlight : Multiset Entry) = es + d'.inFlight := by
  have h := flatten_map_set_coe Pipe.inFlight hp p'
  rw [hf] at h
  have hL : ((d.pipes.map Pipe.inFlight).flatten : Multiset Entry) =
      ((d.pipes.set k p').map Pipe.inFlight).flatten + es :=
    add_right_cancel (h.trans (by simp only [← Multiset.coe_add]; ac_rfl))
  simp only [RawData.inFlight, hs, hq, hpi, ← Multiset.coe_add, hL]
  ac_rfl

/-- The writer's swap: shard `i`'s list moves into pipe `k`'s flight. -/
theorem RawData.inFlight_swap (hq : d'.pending = d.pending) {i k : Nat} (hs : d'.shards = d.shards.set i [])
    {p p' : Pipe} (hp : d.pipes[k]? = some p) (hpi : d'.pipes = d.pipes.set k p')
    (hf : p'.inFlight = p.inFlight ++ d.shards.getD i []) : (d.inFlight : Multiset Entry) = d'.inFlight := by
  have h := flatten_map_set_coe Pipe.inFlight hp p'
  rw [hf] at h
  have hL : (((d.pipes.set k p').map Pipe.inFlight).flatten : Multiset Entry) =
      (d.pipes.map Pipe.inFlight).flatten + d.shards.getD i [] :=
    add_right_cancel (h.symm.trans (by simp only [← Multiset.coe_add]; ac_rfl))
  simp only [RawData.inFlight, hs, hq, hpi, ← Multiset.coe_add, hL]
  rw [flatten_set_nil d.shards i]
  ac_rfl

/-- `dropShardFutures` takes the shards' lists out, in shard order. -/
theorem RawData.inFlight_drop (err : RedisError) (d : RawData) :
    d.inFlight = d.shards.flatten ++ (d.drop err).inFlight := by
  simp [RawData.inFlight, RawData.drop, Function.comp_def]

/-- A fresh session owes nothing. -/
theorem RawData.inFlight_startSession (d : RawData) :
    ({ d with pipes := d.pipes ++ [Pipe.fresh] }).inFlight = d.inFlight := by
  simp [RawData.inFlight, Pipe.inFlight, Pipe.fresh, WPc.unsent]

/-- What a step did with the pairs: the entries in flight before it, with the pairs `new` it
took on, are the ones it called and the ones in flight after it, up to order. -/
def Accounted (d d' : RawData) (new : List (Future × BitVec 64)) : Prop :=
  ∃ rs, d'.resolved = d.resolved ++ rs ∧
    List.Perm (d.inFlight.map Entry.key ++ new) (rs.map Resolution.key ++ d'.inFlight.map Entry.key)

theorem Accounted.of_coe (es : List Entry) (rs : List Resolution) (hr : d'.resolved = d.resolved ++ rs)
    (hk : rs.map Resolution.key = es.map Entry.key) (h : (d.inFlight : Multiset Entry) = es + d'.inFlight) :
    Accounted d d' [] :=
  ⟨rs, hr, by rw [List.append_nil]; exact keys_perm h hk⟩

theorem Accounted.same (hr : d'.resolved = d.resolved) (h : (d.inFlight : Multiset Entry) = d'.inFlight) :
    Accounted d d' [] :=
  .of_coe [] [] (by simp [hr]) rfl (h.trans (zero_add _).symm)

/-- A step that adds `es` to the flight and calls nothing takes on their pairs. -/
theorem Accounted.of_add {es : List Entry} (hr : d'.resolved = d.resolved)
    (h : (d'.inFlight : Multiset Entry) = d.inFlight + es) : Accounted d d' (es.map Entry.key) := by
  refine ⟨[], by simp [hr], ?_⟩
  rw [List.map_nil, List.nil_append, ← List.map_append]
  exact (Multiset.coe_eq_coe.mp ((Multiset.coe_add _ _).trans h.symm)).map _

theorem Accounted.drop (err : RedisError) : Accounted d (d.drop err) [] :=
  ⟨_, rfl, by rw [callAll_keys, RawData.inFlight_drop err d, List.map_append, List.append_nil]⟩

end Accounting

/-! ## 4. The invariant's steps -/

section Invariant

variable {cfg : Config} {ff : FloatFormat} {s s' : Sys RawData} {d d' : RawData}

theorem GoInv.of_eq (hI : GoInv cfg d) (hs : d'.shards = d.shards) (hq : d'.pending = d.pending)
    (hquiet : ∀ p ∈ d'.pipes, p.Quiet) : GoInv cfg d' :=
  ⟨hs ▸ hI.shards_length, hq ▸ hI.pending_length, fun i fs h => hs ▸ hI.pendingClear i fs (hq ▸ h), hquiet⟩

/-- Replacing a shard whose lock is free keeps the blocked producers' shards empty. -/
theorem GoInv.setShard (hI : GoInv cfg d) {i : Nat} (hn : d.pending.getD i none = none) {new : List Entry}
    (hs : d'.shards = d.shards.set i new) (hq : d'.pending = d.pending) (hquiet : ∀ p ∈ d'.pipes, p.Quiet) :
    GoInv cfg d' := by
  refine ⟨by rw [hs, List.length_set, hI.shards_length], hq ▸ hI.pending_length, fun j fs h => ?_, hquiet⟩
  rw [hq] at h
  rw [hs, getD_set_ne (by rintro rfl; rw [hn] at h; cases h)]
  exact hI.pendingClear j fs h

/-- A session's step keeps the invariant and calls exactly the entries it takes out. -/
theorem GoMoved.step (hI : GoInv cfg s.data) {k : Nat} (h : GoMoved s s' k) :
    GoInv cfg s'.data ∧ Accounted s.data s'.data [] := by
  obtain ⟨hq, p, p', hp, hpi, hQ', hmv⟩ := h
  have quiet : ∀ q ∈ s'.data.pipes, q.Quiet := fun q hm => by
    rw [hpi] at hm
    rcases List.mem_or_eq_of_mem_set hm with hm | rfl
    exacts [hI.quiet q hm, hQ']
  rcases hmv with ⟨hs, es, rs, hr, hk, hf⟩ | ⟨i, hl, hs, hr, hf⟩
  · exact ⟨hI.of_eq hs hq quiet, .of_coe es rs hr hk (RawData.inFlight_ownPipe hs hq hp hpi hf)⟩
  · exact ⟨hI.setShard (by simpa [RawData.locked] using hl) hs hq quiet,
      .same hr (RawData.inFlight_swap hq hs hp hpi hf)⟩

/-- A blocked producer's send: its list moves from the pending slot into its empty shard. -/
theorem GoInv.resume (hI : GoInv cfg s.data) {i : Nat} (h : resume cfg s i = some s') :
    GoInv cfg s'.data ∧ Accounted s.data s'.data [] := by
  obtain ⟨fs, hfs, ⟨-, rfl⟩ | ⟨-, rfl⟩⟩ := resume_cases h
  · exact ⟨hI, .same rfl rfl⟩
  have hi := lt_length_of_getD_eq_some hfs
  refine ⟨⟨by simp [hI.shards_length], by simp [hI.pending_length], fun j fs' h' => ?_, hI.quiet⟩, .same rfl ?_⟩
  · by_cases hj : i = j
    · subst hj; simp [hi] at h'
    · rw [getD_set_of_ne _ hj] at h' ⊢; exact hI.pendingClear j fs' h'
  · have hS := flatten_map_set_coe id
      (getElem?_eq_some_getD (by rw [hI.shards_length, ← hI.pending_length]; exact hi) []) fs
    have hP := flatten_map_set_coe (fun o => o.getD []) (getElem?_eq_some_getD hi none) none
    rw [hI.pendingClear i fs hfs] at hS
    rw [hfs] at hP
    simp only [List.map_id, id, Option.getD_none, Option.getD_some, Multiset.coe_nil, add_zero] at hS hP
    simp only [RawData.inFlight, ← Multiset.coe_add, ← hS, hP]
    ac_rfl

/-- A manager step keeps the invariant and calls exactly the shards' entries it drops. -/
theorem GoInv.mstep (hI : GoInv cfg s.data) {t : Nat} {dial : DialResult} (h : mstep rawOps cfg s t dial = some s') :
    GoInv cfg s'.data ∧ Accounted s.data s'.data [] := by
  have drop : ∀ (d : RawData) (err : RedisError), GoInv cfg d → GoInv cfg (d.drop err) := fun d err hd =>
    ⟨by simp [RawData.drop, hd.shards_length], hd.pending_length, fun i _ _ => getD_drop d err i, hd.quiet⟩
  rcases mstep_data h with ⟨hd, -⟩ | ⟨-, err, hd, -⟩ | ⟨-, th, err, -, -, ⟨-, hd, -⟩ | ⟨-, hd, -⟩⟩ |
    ⟨-, hd, -⟩ <;> rw [hd]
  · exact ⟨hI, .same rfl rfl⟩
  · exact ⟨drop _ err hI, .drop err⟩
  · exact ⟨drop _ err (hI.of_eq rfl rfl hI.quiet), .drop err⟩
  · exact ⟨hI, .same rfl rfl⟩
  · refine ⟨hI.of_eq rfl rfl fun p hp => ?_, .same rfl (by rw [RawData.inFlight_startSession])⟩
    rcases List.mem_append.mp hp with hp | hp
    · exact hI.quiet p hp
    · rw [List.mem_singleton.mp hp]; exact Pipe.fresh_quiet

@[simp] theorem enqueue_resolved (s : Sys RawData) (i : Nat) (added : List Entry) :
    (enqueue cfg s i added).data.resolved = s.data.resolved := by
  unfold enqueue; dsimp only; split_ifs <;> rfl

/-- A producer's append under a free lock: it panics on the closed channel and changes no
data, or its entries join the flight, in the shard or in the list it holds blocked. -/
theorem GoInv.enqueue (hI : GoInv cfg s.data) {i : Nat} (hi : i < cfg.concurrency) (hl : s.data.locked i = false)
    (added : List Entry) :
    GoInv cfg (enqueue cfg s i added).data ∧ ((enqueue cfg s i added).data = s.data ∨
      ((enqueue cfg s i added).data.inFlight : Multiset Entry) = s.data.inFlight + added) := by
  have hn : s.data.pending.getD i none = none := by simpa [RawData.locked] using hl
  have hi' : i < s.data.shards.length := hI.shards_length ▸ hi
  unfold RedisPipe.Conn.enqueue
  dsimp only
  split_ifs with h0
  · exact ⟨hI, .inl rfl⟩
  · refine ⟨hI.setShard hn rfl rfl hI.quiet, .inr ?_⟩
    have hS := flatten_set_getD_append hi' added
    rw [h0, List.nil_append] at hS
    simp only [RawData.inFlight, ← Multiset.coe_add, hS]
    ac_rfl
  · refine ⟨⟨hI.shards_length, by simp [hI.pending_length], fun j fs h => ?_, hI.quiet⟩, .inr ?_⟩
    · by_cases hj : i = j
      · subst hj; exact h0
      · rw [getD_set_of_ne _ hj] at h; exact hI.pendingClear j fs h
    · have hP := flatten_map_set_coe (fun o => o.getD []) (getElem?_eq_some_getD (hI.pending_length ▸ hi) none)
        (some added)
      rw [hn] at hP
      simp only [Option.getD_none, Option.getD_some, Multiset.coe_nil, add_zero] at hP
      simp only [RawData.inFlight, ← Multiset.coe_add, ← hP]
      ac_rfl
  · refine ⟨hI.setShard hn rfl rfl hI.quiet, .inr ?_⟩
    simp only [RawData.inFlight, ← Multiset.coe_add, flatten_set_getD_append hi']
    ac_rfl

end Invariant

/-! ## 5. What the producers issue -/

section Issue

variable {cfg : Config} {s s' : Sys RawData} {i : Nat}

/-- The pairs `SendBatchFlags(reqs, cb, start, flags)` hands over: one per request, and the
`EXEC` index `start + len(reqs)` under `DoTransaction`, which an empty batch resolves too. -/
def rawBatchIssued (reqs : List Request) (cb : Future) (start : BitVec 64) (flags : Nat) :
    List (Future × BitVec 64) :=
  batchKeys cb start 0 (reqs.length + if flags &&& doTransaction ≠ 0 then 1 else 0)

/-- The (future, index) pairs a producer's call hands to the connection to resolve. -/
def Action.issued : Action → List (Future × BitVec 64)
  | .sendAsk _ _ cb n _ _ => [(cb, n)]
  | .sendBatchFlags _ reqs cb start flags _ => rawBatchIssued reqs cb start flags
  | .sendTransaction _ reqs cb off cancelled _ =>
    if cancelled then [(.cb cb, off)]
    else rawBatchIssued reqs (.transaction cb (.ofNat 64 reqs.length) off) 0 doTransaction
  | _ => []

/-- The pairs a state has taken on, the markers aside: those called and those in flight. -/
def RawData.ledger (d : RawData) : List (Future × BitVec 64) :=
  (d.resolved.map Resolution.key ++ d.inFlight.map Entry.key).filter (·.1.own)

/-- What a producer's call on shard `i` did with the pairs `ks` it was given: it called
futures, or appended entries to the shard while its lock was free, in both cases for pairs
of `ks`, the markers aside. -/
def RIssued (cfg : Config) (s s' : Sys RawData) (i : Nat) (ks : List (Future × BitVec 64)) : Prop :=
  (∃ rs, s' = s.log rs ∧ List.Sublist ((rs.map Resolution.key).filter (·.1.own)) ks) ∨
    (s.data.locked i = false ∧ ∃ added, s' = enqueue cfg s i added ∧
      List.Sublist ((added.map Entry.key).filter (·.1.own)) ks)

theorem RIssued.log (rs : List Resolution) {ks : List (Future × BitVec 64)}
    (h : List.Sublist (rs.map Resolution.key) ks) : RIssued cfg s (s.log rs) i ks :=
  .inl ⟨rs, rfl, (List.filter_sublist _).trans h⟩

theorem RIssued.none (ks : List (Future × BitVec 64)) : RIssued cfg s s i ks :=
  .inl ⟨[], by simp, by simp⟩

/-- A batch's entries carry the pairs `(cb, start + m)`, in order. -/
theorem batchEntries_keys (cb : Future) (start : BitVec 64) (reqs : List Request) (j : Nat) :
    (batchEntries cb (start + .ofNat 64 j) reqs).map Entry.key = batchKeys cb start j reqs.length := by
  induction reqs generalizing j with
  | nil => rfl
  | cons r rs ih =>
    have hnext : start + BitVec.ofNat 64 j + 1 = start + BitVec.ofNat 64 (j + 1) := by
      rw [BitVec.ofNat_add]; ac_rfl
    simp only [batchEntries, List.map_cons, hnext, ih, batchKeys, List.length_cons, List.range'_succ, Entry.key]

/-- A failed batch calls every pair it was given, in order. -/
theorem batchErrors_keys (reqs : List Request) (cb : Future) (start : BitVec 64) (errpos : Option Nat)
    (err commonerr : RedisError) (flags : Nat) :
    (batchErrors cb start reqs.length errpos err commonerr flags).map Resolution.key =
      rawBatchIssued reqs cb start flags := by
  by_cases ht : flags &&& doTransaction ≠ 0 <;>
    simp [batchErrors, rawBatchIssued, ht, batchResolutions_keys, batchKeys, List.range'_1_concat, Resolution.key]

/-- The own pairs of a batch's entries are the ones the batch issued, in order. -/
theorem rawBatchBlock_own_keys (reqs : List Request) (cb : Future) (start : BitVec 64) (flags : Nat) :
    ((rawBatchBlock reqs cb start flags).map Entry.key).filter (·.1.own) =
      (rawBatchIssued reqs cb start flags).filter (·.1.own) := by
  have he : (batchEntries cb start reqs).map Entry.key = batchKeys cb start 0 reqs.length := by
    simpa using batchEntries_keys cb start reqs 0
  by_cases ha : flags &&& doAsking ≠ 0 <;> by_cases ht : flags &&& doTransaction ≠ 0 <;>
    simp [rawBatchBlock, rawBatchIssued, ha, ht, Entry.key, Future.own, he, batchKeys, List.range'_1_concat]

theorem sendAsk_issued {req : Request} {cb : Future} {n : BitVec 64} {asking cancelled : Bool}
    (h : sendAsk cfg s i req cb n asking cancelled = some s') : RIssued cfg s s' i [(cb, n)] := by
  obtain ⟨⟨s₁, e⟩, h₁, rfl⟩ := Option.map_eq_some'.mp h
  rcases doSend_cases h₁ with rfl | ⟨rfl, -, -, hl, rfl⟩
  · cases e
    · exact RIssued.none _
    · exact RIssued.log _ (by simp [Resolution.key])
  · exact .inr ⟨hl, _, rfl, by cases asking <;> simp [rawSendBlock, Entry.key, Future.own, List.filter_sublist]⟩

theorem sendBatchFlags_issued {reqs : List Request} {cb : Future} {start : BitVec 64} {flags : Nat}
    {cancelled : Bool} (h : sendBatchFlags cfg s i reqs cb start flags cancelled = some s') :
    RIssued cfg s s' i (rawBatchIssued reqs cb start flags) := by
  unfold sendBatchFlags at h
  split at h
  · cases h; exact RIssued.log _ (by rw [batchErrors_keys])
  obtain ⟨⟨s₁, e⟩, h₁, rfl⟩ := Option.map_eq_some'.mp h
  rcases doSendBatch_cases h₁ with rfl | ⟨rfl, rfl, ht, rfl⟩ | ⟨rfl, -, -, hl, rfl⟩
  · cases e
    · exact RIssued.none _
    · exact RIssued.log _ (by rw [batchErrors_keys])
  · exact RIssued.log _ (by simp [rawBatchIssued, ht, batchKeys, Resolution.key])
  · exact .inr ⟨hl, _, rfl, rawBatchBlock_own_keys reqs cb start flags ▸ List.filter_sublist _⟩

theorem sendTransaction_issued {reqs : List Request} {cb : Nat} {off : BitVec 64} {cancelled cancelledLater : Bool}
    (h : sendTransaction cfg s i reqs cb off cancelled cancelledLater = some s') :
    RIssued cfg s s' i (Action.sendTransaction i reqs cb off cancelled cancelledLater).issued := by
  unfold sendTransaction at h
  simp only [Action.issued]
  split_ifs at h ⊢
  · cases h; exact RIssued.log _ (by simp [Resolution.key])
  · exact sendBatchFlags_issued h

/-- A producer's call keeps the invariant and takes on some of the pairs it was given. -/
theorem RIssued.step (hI : GoInv cfg s.data) (hi : i < cfg.concurrency) {ks : List (Future × BitVec 64)}
    (h : RIssued cfg s s' i ks) :
    GoInv cfg s'.data ∧ ∃ new, List.Sublist (new.filter (·.1.own)) ks ∧ Accounted s.data s'.data new := by
  rcases h with ⟨rs, rfl, hk⟩ | ⟨hl, added, rfl, hk⟩
  · exact ⟨hI.of_eq rfl rfl hI.quiet, _, hk, rs, rfl, List.perm_append_comm⟩
  · obtain ⟨hI', hd | hd⟩ := hI.enqueue hi hl added
    · exact ⟨hI', [], List.nil_sublist _, .same (by simp) (by rw [hd])⟩
    · exact ⟨hI', _, hk, .of_add (by simp) hd⟩

end Issue

/-! ## 6. The code's runs -/

section Runs

variable {cfg : Config} {ff : FloatFormat} {s s' : Sys RawData}

/-- **Each step of the code keeps the invariant and takes on only pairs its action issued**:
the entries in flight before it, with those pairs, are the ones it calls and the ones in
flight after it. -/
theorem GoInv.step (hI : GoInv cfg s.data) {a : Action} (ha : a.goBranch = true) (h : step cfg ff s a = some s') :
    GoInv cfg s'.data ∧ ∃ new, List.Sublist (new.filter (·.1.own)) a.issued ∧ Accounted s.data s'.data new := by
  have internal : GoInv cfg s'.data ∧ Accounted s.data s'.data [] →
      GoInv cfg s'.data ∧ ∃ new, List.Sublist (new.filter (·.1.own)) a.issued ∧ Accounted s.data s'.data new :=
    fun hs => ⟨hs.1, [], List.nil_sublist _, hs.2⟩
  unfold RedisPipe.Conn.step at h
  split_ifs at h
  cases a with
  | manager => exact internal (hI.mstep h)
  | sendAsk => simp only at h; split_ifs at h with hc; exact (sendAsk_issued h).step hI hc.2
  | sendBatchFlags => simp only at h; split_ifs at h with hc; exact (sendBatchFlags_issued h).step hI hc.2
  | sendTransaction => simp only at h; split_ifs at h with hc; exact (sendTransaction_issued h).step hI hc.2
  | resume => exact internal (hI.resume h)
  | writer k pick checkFails ok =>
    obtain rfl : checkFails = true := ha
    exact internal ((wstep_go hI.quiet h).step hI)
  | reader => exact internal ((rstep_go hI.quiet h).step hI)
  | cancel => cases h; exact internal ⟨hI, .same rfl rfl⟩

/-- A step adds to the ledger the pairs it took on, the markers aside. -/
theorem Accounted.ledger {d d' : RawData} {new : List (Future × BitVec 64)} (h : Accounted d d' new) :
    List.Perm d'.ledger (d.ledger ++ new.filter (·.1.own)) := by
  obtain ⟨rs, hr, hp⟩ := h
  rw [RawData.ledger, RawData.ledger, hr, List.map_append, List.append_assoc, ← List.filter_append,
    List.append_assoc]
  exact ((hp.append_left _).filter _).symm

theorem GoInv.initial (cfg : Config) : GoInv cfg (RawData.initial cfg) where
  shards_length := by simp [RawData.initial]
  pending_length := by simp [RawData.initial]
  pendingClear i fs h := by
    simp only [RawData.initial, List.getD_eq_getElem?_getD, List.getElem?_replicate] at h
    split_ifs at h <;> cases h
  quiet := by simp [RawData.initial]

theorem RawData.ledger_initial (cfg : Config) : (Sys.initial cfg (RawData.initial cfg)).data.ledger = [] := by
  simp [Sys.initial, RawData.initial, RawData.ledger, RawData.inFlight]

end Runs

end RedisPipe.Conn
