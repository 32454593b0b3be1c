import RedisPipe.Raw.Steps

/-!
# The shards' invariant of the raw-packet version

`RInv` holds in every reachable state (`Reachable.rInv`). Its clauses:

* a writer's `futures` is empty from the moment it has handed a batch over until it
  serializes the next one (`RInv.clean`), so the list it swaps into a shard is empty;
* no lost wakeup (`RInv.wakeup`): a shard with entries has its index queued in
  `conn.dirtyShard`, or a writer has received that index and not yet swapped the shard;
* once `conn.dirtyShard` is closed, the connection is closed for good, `control` has ended,
  every shard is empty and no producer holds a shard lock (`RInv.closed`);
* no goroutine has panicked by sending on, or closing, the closed channel.

The preservation proof is one lemma per kind of step, each over that step's inversion
lemma of `RedisPipe.Raw.Steps`.
-/

set_option autoImplicit false

namespace RedisPipe.Conn

variable {cfg : Config} {ff : FloatFormat} {s s' : Sys RawData}

/-- The shards' invariant. -/
structure RInv (s : Sys RawData) : Prop where
  clean : ∀ (k : Nat) (p : Pipe), s.data.pipes[k]? = some p → p.writer.clean
  wakeup : ∀ i, s.data.shards.getD i [] ≠ [] →
    i ∈ s.data.dirty ∨ ∃ (k : Nat) (p : Pipe), s.data.pipes[k]? = some p ∧ p.writer.pc = .swap i
  closed : s.data.dirtyClosed = true →
    s.mgr.settled ∧ (∀ i, s.data.shards.getD i [] = []) ∧ s.data.pending.all Option.isNone = true
  noSendOnClosed : s.panicked ≠ some .sendOnClosed
  noCloseOfClosed : s.panicked ≠ some .closeOfClosed

/-! ## Lists updated at one index -/

theorem getD_set_ne {α : Type} {l : List (List α)} {i j : Nat} {x : List α} (h : i ≠ j) :
    (l.set i x).getD j [] = l.getD j [] := by
  simp [List.getElem?_set_ne h]

theorem getD_set_nil {α : Type} (l : List (List α)) (i : Nat) : (l.set i []).getD i [] = [] := by
  simp only [List.getD_eq_getElem?_getD, List.getElem?_set, if_true]
  split_ifs <;> rfl

theorem getD_drop (d : RawData) (err : RedisError) (i : Nat) : (d.drop err).shards.getD i [] = [] := by
  simp only [RawData.drop, List.getD_eq_getElem?_getD, List.getElem?_map]
  cases d.shards[i]? <;> rfl

/-! ## Steps that keep it -/

section Preservation

variable (hR : RInv s)
include hR

theorem RInv.log (rs : List Resolution) : RInv (s.log rs) :=
  ⟨hR.clean, hR.wakeup, hR.closed, hR.noSendOnClosed, hR.noCloseOfClosed⟩

theorem RInv.dirtyClosed_false (hst : s.state ≠ .closed) : s.data.dirtyClosed = false := by
  cases h : s.data.dirtyClosed
  · rfl
  · exact absurd (hR.closed h).1.1 hst

/-- **A producer's append keeps every shard signalled**: an idle shard's index is queued
with the entries, or the producer blocks before assigning them. -/
theorem RInv.enqueue {i : Nat} (added : List Entry) (hst : s.state ≠ .closed) :
    RInv (enqueue cfg s i added) := by
  have hdc := hR.dirtyClosed_false hst
  unfold RedisPipe.Conn.enqueue
  dsimp only
  split_ifs with hold hc hroom
  · simp [hdc] at hc
  · refine ⟨hR.clean, fun j hj => ?_, fun h => by simp [hdc] at h, hR.noSendOnClosed, hR.noCloseOfClosed⟩
    by_cases hij : i = j
    · exact .inl (by simp [hij])
    · rw [getD_set_ne hij] at hj
      exact (hR.wakeup j hj).imp (fun h => List.mem_append_left _ h) id
  · exact ⟨hR.clean, hR.wakeup, fun h => by simp [hdc] at h, hR.noSendOnClosed, hR.noCloseOfClosed⟩
  · refine ⟨hR.clean, fun j hj => ?_, fun h => by simp [hdc] at h, hR.noSendOnClosed, hR.noCloseOfClosed⟩
    by_cases hij : i = j
    · exact hij ▸ hR.wakeup i hold
    · exact hR.wakeup j (by rwa [getD_set_ne hij] at hj)

/-- The closed clause survives a step that keeps the channel's flag and the pending sends,
and refills no shard. -/
theorem RInv.closed_keep (hset : s.mgr.settled → s'.mgr.settled)
    (hd : s'.data.dirtyClosed = s.data.dirtyClosed) (hpend : s'.data.pending = s.data.pending)
    (hsh : ∀ i, s.data.shards.getD i [] = [] → s'.data.shards.getD i [] = []) (hc : s'.data.dirtyClosed = true) :
    s'.mgr.settled ∧ (∀ i, s'.data.shards.getD i [] = []) ∧ s'.data.pending.all Option.isNone = true := by
  obtain ⟨hs, hsh', hpe⟩ := hR.closed (hd ▸ hc)
  exact ⟨hset hs, fun i => hsh i (hsh' i), hpend ▸ hpe⟩

theorem RInv.produced {i : Nat} (h : Produced cfg s s' i) : RInv s' := by
  rcases h with ⟨rs, rfl⟩ | ⟨hst, -, -, added, rfl⟩
  · exact hR.log rs
  · exact hR.enqueue added hst

theorem RInv.resume {i : Nat} (h : resume cfg s i = some s') : RInv s' := by
  obtain ⟨fs, hfs, ⟨hdc, -⟩ | ⟨hdc, rfl⟩⟩ := resume_cases h
  · have := (hR.closed hdc).2.2
    simp only [List.all_eq_true] at this
    have hmem : some fs ∈ s.data.pending := by
      simp only [List.getD_eq_getElem?_getD] at hfs
      cases hi : s.data.pending[i]? <;> simp [hi] at hfs
      exact hfs ▸ List.getElem?_mem hi
    simpa using this _ hmem
  · refine ⟨hR.clean, fun j hj => ?_, fun h => by simp [hdc] at h, hR.noSendOnClosed, hR.noCloseOfClosed⟩
    by_cases hij : i = j
    · exact .inl (by simp [hij])
    · rw [getD_set_ne hij] at hj
      exact (hR.wakeup j hj).imp (fun h => List.mem_append_left _ h) id

/-- Steps that change of the data only one session's pipe and the log keep the invariant,
if they keep that writer clean and do not move it off a swap. -/
theorem RInv.onlyPipe (hset : s.mgr.settled → s'.mgr.settled) {k : Nat} {p p' : Pipe}
    (hp : s.data.pipes[k]? = some p) (h : s.onlyPipe s' k p') (hclean : p.writer.clean → p'.writer.clean)
    (hswap : ∀ i, p.writer.pc = .swap i → p'.writer.pc = .swap i) : RInv s' := by
  obtain ⟨hd, hpan⟩ := h
  have hlt := (List.getElem?_eq_some_iff.mp hp).1
  refine ⟨fun u q hu => ?_, fun i hi => ?_,
    hR.closed_keep hset (by rw [hd]) (by rw [hd]) fun i h => by rw [hd]; exact h,
    by rw [hpan]; exact hR.noSendOnClosed, by rw [hpan]; exact hR.noCloseOfClosed⟩
  · rw [hd] at hu
    rcases getElem?_set_eq_some hp hu with ⟨-, rfl⟩ | ⟨-, hu⟩
    · exact hclean (hR.clean k p hp)
    · exact hR.clean u q hu
  · rw [hd] at hi ⊢
    refine (hR.wakeup i hi).imp id fun ⟨u, q, hu, hq⟩ => ?_
    by_cases huk : u = k
    · subst huk
      obtain rfl : q = p := Option.some.inj (hu.symm.trans hp)
      exact ⟨u, p', by simp [hlt], hswap i hq⟩
    · exact ⟨u, q, by rwa [List.getElem?_set_ne (Ne.symm huk)], hq⟩

/-- **A writer step keeps the invariant**: the index it receives is the one its swap will
serve, and the list it swaps in is empty. -/
theorem RInv.wstep (hset : s.mgr.settled → s'.mgr.settled) {k : Nat} {pick checkFails ok : Bool}
    (h : wstep cfg ff s k pick checkFails ok = some s') : RInv s' := by
  obtain ⟨p, hp, ⟨i, rest, hd, hpc, rfl⟩ | ⟨i, hpc, -, rfl⟩ | ⟨p', hnot, -, hclean, hop⟩⟩ :=
    wstep_cases h
  · have hlt := (List.getElem?_eq_some_iff.mp hp).1
    have hfut : p.writer.futures = [] := hR.clean k p hp (by rcases hpc with h | h <;> simp [h, WPc.idle])
    refine ⟨fun u q hu => ?_, fun j hj => ?_, hR.closed_keep hset rfl rfl fun _ h => h, hR.noSendOnClosed,
      hR.noCloseOfClosed⟩
    · rcases getElem?_set_eq_some hp hu with ⟨-, rfl⟩ | ⟨-, hu⟩
      · exact fun _ => by simpa using hfut
      · exact hR.clean u q hu
    · rcases hR.wakeup j hj with hj | ⟨u, q, hu, hq⟩
      · rw [hd, List.mem_cons] at hj
        rcases hj with rfl | hj
        · exact .inr ⟨k, p.goto (.swap j), by simp [Sys.setPipe, hlt], rfl⟩
        · exact .inl hj
      · have huk : u ≠ k := by
          rintro rfl
          obtain rfl : q = p := Option.some.inj (hu.symm.trans hp)
          rcases hpc with h | h <;> simp [h] at hq
        exact .inr ⟨u, q, by simpa [Sys.setPipe, List.getElem?_set_ne (Ne.symm huk)] using hu, hq⟩
  · have hlt := (List.getElem?_eq_some_iff.mp hp).1
    have hfut : p.writer.futures = [] := hR.clean k p hp (by simp [hpc, WPc.idle])
    refine ⟨fun u q hu => ?_, fun j hj => ?_, hR.closed_keep hset rfl rfl fun j hj => ?_, hR.noSendOnClosed,
      hR.noCloseOfClosed⟩
    · rcases getElem?_set_eq_some hp hu with ⟨-, rfl⟩ | ⟨-, hu⟩
      · exact fun _ => rfl
      · exact hR.clean u q hu
    · have hij : i ≠ j := by
        rintro rfl
        exact hj (by simpa [hfut] using getD_set_nil s.data.shards i)
      rw [Sys.setPipe, getD_set_ne hij] at hj
      refine (hR.wakeup j hj).imp id fun ⟨u, q, hu, hq⟩ => ⟨u, q, ?_, hq⟩
      have huk : u ≠ k := by
        rintro rfl
        obtain rfl : q = p := Option.some.inj (hu.symm.trans hp)
        simp [hpc] at hq; exact hij hq
      simpa [Sys.setPipe, List.getElem?_set_ne (Ne.symm huk)] using hu
    · by_cases hij : i = j
      · subst hij; simpa [hfut] using getD_set_nil s.data.shards i
      · show (s.data.shards.set i p.writer.futures).getD j [] = []
        rwa [getD_set_ne hij]
  · exact hR.onlyPipe hset hp hop hclean fun i h => absurd h (hnot i)

theorem RInv.rstep (hset : s.mgr.settled → s'.mgr.settled) {k : Nat} {r : ReadResult}
    (h : rstep s k r = some s') : RInv s' := by
  obtain ⟨p, hp, ⟨hd, hpan⟩ | ⟨p', hop, hw⟩⟩ := rstep_cases h
  · exact ⟨by rw [hd]; exact hR.clean, by rw [hd]; exact hR.wakeup,
      hR.closed_keep hset (by rw [hd]) (by rw [hd]) fun i h => by rw [hd]; exact h,
      by simp [hpan], by simp [hpan]⟩
  · exact hR.onlyPipe hset hp hop (fun h => hw ▸ h) fun i h => hw ▸ h

/-- **A manager step keeps the invariant**: its drops empty every shard, and it closes
`conn.dirtyShard` only from `control`, which then ends. -/
theorem RInv.mstep (hI : MInv s.mgr) (hset : s.mgr.settled → s'.mgr.settled) {t : Nat} {dial : DialResult}
    (h : mstep rawOps cfg s t dial = some s') : RInv s' := by
  rcases mstep_data h with ⟨hd, hpan⟩ | ⟨-, err, hd, hpan⟩ |
    ⟨hfree, th, err, ht, hpc, ⟨hdc, hd, hpan, hst, hth⟩ | ⟨hdc, -, -⟩⟩ | ⟨-, hd, hpan⟩
  · refine ⟨by rw [hd]; exact hR.clean, by rw [hd]; exact hR.wakeup,
      hR.closed_keep hset (by rw [hd]) (by rw [hd]) (fun i h => by rw [hd]; exact h), ?_, ?_⟩ <;>
      rcases hpan with hpan | hpan <;> simp [hpan, hR.noSendOnClosed, hR.noCloseOfClosed]
  · refine ⟨by rw [hd]; exact hR.clean, fun i hi => absurd (hd ▸ getD_drop s.data err i) hi,
      hR.closed_keep hset (by rw [hd]; rfl) (by rw [hd]; rfl) (fun i _ => hd ▸ getD_drop s.data err i),
      hpan ▸ hR.noSendOnClosed, hpan ▸ hR.noCloseOfClosed⟩
  · have hctl := Thread.role_of_forever (hI.thread t th ht).wf (.inr hpc)
    refine ⟨by rw [hd]; exact hR.clean, fun i hi => absurd (hd ▸ getD_drop _ err i) hi,
      fun _ => ⟨⟨?_, fun u th₀ hu hr => ?_⟩, fun i => hd ▸ getD_drop _ err i, by rw [hd]; exact hfree⟩,
      hpan ▸ hR.noSendOnClosed, hpan ▸ hR.noCloseOfClosed⟩
    · exact hst.trans ((hI.thread t th ht).lockedClosed err hpc)
    · change s'.threads[u]? = some th₀ at hu
      rw [hth] at hu
      rcases getElem?_set_eq_some ht hu with ⟨-, rfl⟩ | ⟨hne, hu⟩
      · rfl
      · exact absurd (hI.single u t th₀ th hu ht (hr.trans hctl.symm) (.inr hr)) hne
  · exact absurd ((hR.closed hdc).1.2 t th ht (Thread.role_of_forever (hI.thread t th ht).wf (.inr hpc)))
      (by simp [hpc])
  · refine ⟨fun u q hu => ?_, fun i hi => ?_,
      hR.closed_keep hset (by rw [hd]) (by rw [hd]) (fun i h => by rw [hd]; exact h),
      hpan ▸ hR.noSendOnClosed, hpan ▸ hR.noCloseOfClosed⟩
    · rw [hd] at hu
      rcases getElem?_concat_eq_some hu with hu | rfl
      · exact hR.clean u q hu
      · exact fun _ => rfl
    · rw [hd] at hi ⊢
      exact (hR.wakeup i hi).imp id fun ⟨u, q, hu, hq⟩ =>
        ⟨u, q, by rw [List.getElem?_append_left (List.getElem?_eq_some_iff.mp hu).1]; exact hu, hq⟩

end Preservation

/-! ## Every reachable state -/

/-- **The invariant is preserved by every step.** -/
theorem RInv.step (hI : MInv s.mgr) (hR : RInv s) {a : Action} (h : step cfg ff s a = some s') : RInv s' := by
  have hset : s.mgr.settled → s'.mgr.settled := fun hs =>
    (step_mgr h).elim (fun h' => hI.settled_stays h' hs) (fun h' => h' ▸ hs)
  unfold RedisPipe.Conn.step at h
  split_ifs at h
  cases a <;> simp only at h
  · exact hR.mstep hI hset h
  · split_ifs at h; exact hR.produced (sendAsk_produced h)
  · split_ifs at h; exact hR.produced (sendBatchFlags_produced h)
  · split_ifs at h; exact hR.produced (sendTransaction_produced h)
  · exact hR.resume h
  · exact hR.wstep hset h
  · exact hR.rstep hset h
  · cases h; exact ⟨hR.clean, hR.wakeup, hR.closed, hR.noSendOnClosed, hR.noCloseOfClosed⟩

theorem RInv.initial (cfg : Config) : RInv (Sys.initial cfg (RawData.initial cfg)) := by
  refine ⟨fun k p h => by simp [Sys.initial, RawData.initial] at h, fun i hi => ?_,
    fun h => by simp [Sys.initial, RawData.initial] at h, by simp [Sys.initial], by simp [Sys.initial]⟩
  simp only [Sys.initial, RawData.initial, List.getD_eq_getElem?_getD, List.getElem?_replicate] at hi
  split_ifs at hi <;> simp at hi

/-- **The shards' invariant holds in every reachable state.** -/
theorem Reachable.rInv (hs : Reachable cfg ff s) : RInv s := by
  induction hs with
  | init => exact RInv.initial cfg
  | step a hs h ih => exact ih.step hs.mInv h

/-! ## What the invariant gives -/

/-- **No lost wakeup.** In every reachable state, every shard whose futures list is
non-empty has its index queued in `conn.dirtyShard`, or a writer has received its index
and not yet swapped it; and a writer about to swap holds an empty list. -/
theorem shards_signalled (hs : Reachable cfg ff s) :
    (∀ i, s.data.shards.getD i [] ≠ [] →
      i ∈ s.data.dirty ∨ ∃ (k : Nat) (p : Pipe), s.data.pipes[k]? = some p ∧ p.writer.pc = .swap i) ∧
    (∀ (k : Nat) (p : Pipe) (i : Nat), s.data.pipes[k]? = some p → p.writer.pc = .swap i →
      p.writer.futures = []) :=
  ⟨hs.rInv.wakeup, fun k p i hp hpc => hs.rInv.clean k p hp (by simp [hpc, WPc.idle])⟩

theorem shards_signalled_ping :
    ∃ s, Reachable oneShard noFloats s ∧ s.data.shards.getD 0 [] ≠ [] ∧
      ((∀ i, s.data.shards.getD i [] ≠ [] →
        i ∈ s.data.dirty ∨ ∃ (k : Nat) (p : Pipe), s.data.pipes[k]? = some p ∧ p.writer.pc = .swap i) ∧
      (∀ (k : Nat) (p : Pipe) (i : Nat), s.data.pipes[k]? = some p → p.writer.pc = .swap i →
        p.writer.futures = [])) := by
  obtain ⟨s, hs, hp⟩ := @exists_reachable_of_run oneShard noFloats (connectOk ++ [sendPing 1])
    (fun s => s.data.shards.getD 0 [] != []) rfl
  exact ⟨s, hs, by simpa using hp, shards_signalled hs⟩

/-- The wakeup a writer holds survives its session's fault: `closeConnection` empties
`conn.dirtyShard` and the shards, but a writer that has received an index and not yet
locked the shard keeps it. After the fault of session 0 and the drop of its reconnect,
while the connection is connecting again, a `Send` on the emptied shard is swapped out by
session 0's writer. -/
theorem stale_writer_swaps :
    ∃ s, Reachable oneShard noFloats s ∧ s.state = .connecting ∧ s.sessions.map (·.errOnce) = [true] ∧
      s.data.shards = [[]] ∧ s.data.dirty = [] ∧
      (run oneShard noFloats s [sendPing 2, .writer 0 true true true]).map
        (fun s' => s'.data.pipes.map (·.writer.pc)) = some [.serialize [⟨.cb 2, 0, pingReq⟩] []] := by
  obtain ⟨s, hs, hp⟩ := @exists_reachable_of_run oneShard noFloats
    (connectOk ++ [sendPing 1, .writer 0 true true true, readFault 0] ++ List.replicate 5 (Action.manager 2 .ok))
    (fun s => decide (s.state = .connecting ∧ s.sessions.map (·.errOnce) = [true] ∧
      s.data.shards = [[]] ∧ s.data.dirty = [] ∧
      (run oneShard noFloats s [sendPing 2, .writer 0 true true true]).map
        (fun s' => s'.data.pipes.map (·.writer.pc)) = some [.serialize [⟨.cb 2, 0, pingReq⟩] []])) rfl
  exact ⟨s, hs, of_decide_eq_true hp⟩

/-- Stale indices fill `conn.dirtyShard`: each failed session's writer, holding an index
from before its drop, swaps an emptied shard out again, so a later `Send` re-signals a
shard whose index is still queued. With one shard, after two sessions have failed, the
channel holds its capacity of two indices while the shard is empty, and the next `Send`
blocks on `conn.dirtyShard <- shardn` holding the shard's lock. -/
theorem dirty_send_blocks_holding_lock :
    ∃ s, Reachable oneShard noFloats s ∧ s.state = .connecting ∧ s.data.dirty.length = dirtyCap oneShard ∧
      s.data.shards = [[]] ∧
      (run oneShard noFloats s [sendPing 5]).map (fun s' => s'.data.pending) = some [some [⟨.cb 5, 0, pingReq⟩]] := by
  obtain ⟨s, hs, hp⟩ := @exists_reachable_of_run oneShard noFloats
    (connectOk ++ [sendPing 1, .writer 0 true true true, readFault 0] ++ List.replicate 8 (Action.manager 2 .ok) ++
      [sendPing 2, .writer 1 true true true, readFault 1] ++ List.replicate 5 (Action.manager 3 .ok) ++
      [sendPing 3, .writer 0 true true true, sendPing 4, .writer 1 true true true])
    (fun s => decide (s.state = .connecting ∧ s.data.dirty.length = dirtyCap oneShard ∧ s.data.shards = [[]] ∧
      (run oneShard noFloats s [sendPing 5]).map (fun s' => s'.data.pending) = some [some [⟨.cb 5, 0, pingReq⟩]]))
    rfl
  exact ⟨s, hs, of_decide_eq_true hp⟩

/-- **Closing for good.** In every reachable state: `connClosed` is never left;
`conn.dirtyShard` changes only from open to closed, by `control` in the locked region of
`closeConnection(_, true)`, and is never closed twice; nothing sends on it once closed;
under its lock, a producer finds a closed connection refuses with `ErrContextClosed` and
touches no shard; and once the channel is closed every shard list is empty. -/
theorem closed_for_good (hs : Reachable cfg ff s) :
    (∀ (a : Action) (s' : Sys RawData), step cfg ff s a = some s' → s.state = .closed → s'.state = .closed) ∧
    (∀ (a : Action) (s' : Sys RawData), step cfg ff s a = some s' →
      s'.data.dirtyClosed ≠ s.data.dirtyClosed → s.data.dirtyClosed = false ∧
        ∃ (t : Nat) (dial : DialResult) (th : Thread) (err : RedisError), a = .manager t dial ∧
          s.threads[t]? = some th ∧ th.role = .control ∧ th.pc = .closeLocked err true) ∧
    s.panicked ≠ some .closeOfClosed ∧ s.panicked ≠ some .sendOnClosed ∧
    (s.state = .closed → ∀ (i : Nat) (req : Request) (cb : Future) (n : BitVec 64) (asking : Bool),
      checkArgs req = none → s.data.locked i = false →
      doSend cfg s i req cb n asking false = some (s, some (newErrWrap .context .contextClosed .context))) ∧
    (s.state = .closed → ∀ (i : Nat) (reqs : List Request) (cb : Future) (start : BitVec 64) (flags : Nat),
      reqs ≠ [] → s.data.locked i = false →
      doSendBatch cfg s i reqs cb start flags false = some (s, some closeErr)) ∧
    (s.data.dirtyClosed = true → ∀ i, s.data.shards.getD i [] = []) := by
  have hI := hs.mInv
  have hR := hs.rInv
  refine ⟨fun a s' h hcl => ?_, fun a s' h hne => ?_, hR.noCloseOfClosed, hR.noSendOnClosed,
    fun hst _ _ _ _ _ hargs hl => doSend_closed hst hargs hl, fun hst _ _ _ _ _ hne hl => doSendBatch_closed hst hne hl,
    fun hc => (hR.closed hc).2.1⟩
  · rcases step_mgr h with h' | h'
    · exact hI.closed_stays h' hcl
    · exact (congrArg Mgr.state h').trans hcl
  · obtain ⟨hdc, t, dial, th, err, rfl, ht, hpc⟩ := step_dirtyClosed h hne
    exact ⟨hdc, t, dial, th, err, rfl, ht, Thread.role_of_forever (hI.thread t th ht).wf (.inr hpc), hpc⟩

theorem closed_for_good_after_close :
    ∃ s, Reachable oneShard noFloats s ∧ s.data.dirtyClosed = true ∧
    ((∀ (a : Action) (s' : Sys RawData), step oneShard noFloats s a = some s' → s.state = .closed →
        s'.state = .closed) ∧
      (∀ (a : Action) (s' : Sys RawData), step oneShard noFloats s a = some s' →
        s'.data.dirtyClosed ≠ s.data.dirtyClosed → s.data.dirtyClosed = false ∧
          ∃ (t : Nat) (dial : DialResult) (th : Thread) (err : RedisError), a = .manager t dial ∧
            s.threads[t]? = some th ∧ th.role = .control ∧ th.pc = .closeLocked err true) ∧
      s.panicked ≠ some .closeOfClosed ∧ s.panicked ≠ some .sendOnClosed ∧
      (s.state = .closed → ∀ (i : Nat) (req : Request) (cb : Future) (n : BitVec 64) (asking : Bool),
        checkArgs req = none → s.data.locked i = false →
        doSend oneShard s i req cb n asking false = some (s, some (newErrWrap .context .contextClosed .context))) ∧
      (s.state = .closed → ∀ (i : Nat) (reqs : List Request) (cb : Future) (start : BitVec 64) (flags : Nat),
        reqs ≠ [] → s.data.locked i = false →
        doSendBatch oneShard s i reqs cb start flags false = some (s, some closeErr)) ∧
      (s.data.dirtyClosed = true → ∀ i, s.data.shards.getD i [] = [])) := by
  obtain ⟨s, hs, hp⟩ := @exists_reachable_of_run oneShard noFloats
    (connectOk ++ [Action.cancel, .manager 1 .ok, .manager 1 .ok, .manager 1 .ok]) (fun s => s.data.dirtyClosed) rfl
  exact ⟨s, hs, hp, closed_for_good hs⟩

end RedisPipe.Conn
