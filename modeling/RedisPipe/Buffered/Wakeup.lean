import RedisPipe.Buffered.Delivery

/-!
# No lost wakeup in the buffered version

`redisconn/conn.go:250-383` (the producers' `if len(shard.buf) == 0 { conn.dirtyShard <-
shardn }`), `:646-680` (the writer's receive and swap) and `:550-567`
(`dropShardFutures`, which drains the channel and empties every shard together). The
writer only visits a shard whose index it receives from `conn.dirtyShard`, so a shard
with entries must always have its index on the way to a writer: queued in the channel, or
received by a writer that has not swapped the shard yet.

* `bshards_signalled`: in every reachable state of the buffered version, every shard with
  entries is signalled in this sense. The raw-packet version's counterpart is
  `shards_signalled`.

A producer signals a shard only when it finds the buffer empty, and `BInv` says that is
exactly when the list is: a shard whose list is non-empty was signalled when its first
entry went in, and stays signalled until a writer swaps it out, which leaves it empty. A
stale index (one received before a drop, or queued twice) only signals a shard more.
-/

set_option autoImplicit false

namespace RedisPipe.Conn

variable {cfg : Config} {ff : FloatFormat} {s s' : Sys BufData}

/-! ## Signalled shards -/

/-- Shard `i`'s index is queued in `conn.dirtyShard`, or a writer has received it and not
yet swapped the shard. -/
def BufData.signalled (d : BufData) (i : Nat) : Prop :=
  i ∈ d.dirty ∨ ∃ (k : Nat) (p : BPipe), d.pipes[k]? = some p ∧ p.writer.pc = .swap i

/-- Every shard with entries is signalled. -/
def Wakeups (d : BufData) : Prop :=
  ∀ i, (d.shards.getD i BShard.empty).futures ≠ [] → d.signalled i

section Lemmas

variable {d d' : BufData}

/-- More queued indices and the same writers keep a signal. -/
theorem BufData.signalled.mono {i : Nat} (h : d.signalled i) (hd : d.dirty ⊆ d'.dirty)
    (hpi : d'.pipes = d.pipes) : d'.signalled i :=
  h.imp (fun h => hd h) fun ⟨k, p, hp, hpc⟩ => ⟨k, p, hpi ▸ hp, hpc⟩

/-- Writer `u`'s signal survives a step that moves only another writer. -/
theorem BufData.signalled_of_ne {k u j : Nat} {p' q : BPipe} (hpi : d'.pipes = d.pipes.set k p')
    (hu : d.pipes[u]? = some q) (hq : q.writer.pc = .swap j) (hku : k ≠ u) :
    d'.signalled j :=
  .inr ⟨u, q, by rw [hpi, List.getElem?_set_ne hku, hu], hq⟩

/-- Assigning shard `i` keeps every signal, if the shard's new list is signalled when it is
non-empty. -/
theorem Wakeups.set (hW : Wakeups d) {i : Nat} {sh : BShard} (hs : d'.shards = d.shards.set i sh)
    (hd : d.dirty ⊆ d'.dirty) (hpi : d'.pipes = d.pipes) (hi : sh.futures ≠ [] → d'.signalled i) :
    Wakeups d' := fun j hj => by
  rw [hs] at hj
  by_cases hij : i = j
  · subst hij
    rcases getD_set_cases d.shards i i sh BShard.empty with h | h <;> rw [h] at hj
    · exact hi hj
    · exact (hW i hj).mono hd hpi
  · exact (hW j (by rwa [getD_set_of_ne _ hij] at hj)).mono hd hpi

/-- A step that moves one writer, and no writer off a swap, keeps every signal. -/
theorem Wakeups.pipe (hW : Wakeups d) (hs : d'.shards = d.shards) (hd : d'.dirty = d.dirty) {k : Nat}
    {p p' : BPipe} (hp : d.pipes[k]? = some p) (hpi : d'.pipes = d.pipes.set k p')
    (hpc : ∀ j, p.writer.pc = .swap j → p'.writer.pc = .swap j) : Wakeups d' := fun j hj => by
  rcases hW j (hs ▸ hj) with hin | ⟨u, q, hu, hq⟩
  · exact .inl (hd ▸ hin)
  by_cases hku : k = u
  · subst hku
    obtain rfl : q = p := Option.some.inj (hu.symm.trans hp)
    exact .inr ⟨k, p', by simp [hpi, (List.getElem?_eq_some_iff.mp hp).1], hpc j hq⟩
  · exact BufData.signalled_of_ne hpi hu hq hku

/-- A step that moves a writer holding no received index keeps every signal. -/
theorem Wakeups.idle (hW : Wakeups d) (hs : d'.shards = d.shards) (hd : d'.dirty = d.dirty) {k : Nat}
    {p p' : BPipe} (hp : d.pipes[k]? = some p) (hpi : d'.pipes = d.pipes.set k p')
    (hidle : ∀ j, p.writer.pc ≠ .swap j) : Wakeups d' :=
  hW.pipe hs hd hp hpi fun j hj => absurd hj (hidle j)

/-- A writer's receive takes an index off the channel into the writer. -/
theorem Wakeups.recv (hW : Wakeups d) (hs : d'.shards = d.shards) {i : Nat} (hd : d.dirty = i :: d'.dirty)
    {k : Nat} {p : BPipe} (hp : d.pipes[k]? = some p) (hpi : d'.pipes = d.pipes.set k (p.goto (.swap i)))
    (hidle : ∀ j, p.writer.pc ≠ .swap j) : Wakeups d' := fun j hj => by
  rcases hW j (hs ▸ hj) with hin | ⟨u, q, hu, hq⟩
  · rw [hd, List.mem_cons] at hin
    rcases hin with rfl | hin
    · exact .inr ⟨k, p.goto (.swap j), by simp [hpi, (List.getElem?_eq_some_iff.mp hp).1], rfl⟩
    · exact .inl hin
  · have hku : k ≠ u := by
      rintro rfl
      exact hidle j (Option.some.inj (hp.symm.trans hu) ▸ hq)
    exact .inr ⟨u, q, by rw [hpi, List.getElem?_set_ne hku, hu], hq⟩

/-- The writer's swap of shard `i` empties the shard and leaves the point that signalled
it. -/
theorem Wakeups.swap (hW : Wakeups d) {k i : Nat} {p p' : BPipe} (hp : d.pipes[k]? = some p)
    (hpc : p.writer.pc = .swap i) {sh : BShard} (hsh : sh.futures = []) (hs : d'.shards = d.shards.set i sh)
    (hd : d'.dirty = d.dirty) (hpi : d'.pipes = d.pipes.set k p') : Wakeups d' := fun j hj => by
  rw [hs] at hj
  have hij : i ≠ j := by
    rintro rfl
    simp only [List.getD_eq_getElem?_getD, List.getElem?_set, if_true] at hj
    split_ifs at hj
    · exact hj hsh
    · exact hj rfl
  rcases hW j (by rwa [getD_set_of_ne _ hij] at hj) with hin | ⟨u, q, hu, hq⟩
  · exact .inl (hd ▸ hin)
  · have hku : k ≠ u := by
      rintro rfl
      obtain rfl : q = p := Option.some.inj (hu.symm.trans hp)
      exact hij (BWPc.swap.inj (hpc.symm.trans hq))
    exact BufData.signalled_of_ne hpi hu hq hku

/-- `dropShardFutures` empties every shard. -/
theorem Wakeups.drop (d : BufData) (err : RedisError) : Wakeups (d.drop err) := fun i hi =>
  absurd (by simp only [BufData.drop, getD_map_empty]; rfl) hi

end Lemmas

/-! ## The steps keep it -/

/-- A producer's append signals a shard it finds empty, and extends a signalled one. -/
theorem Wakeups.benqueue (hR : BInv ff s) (hW : Wakeups s.data) (i : Nat) (new : BShard) :
    Wakeups (benqueue cfg s i new).data := by
  unfold RedisPipe.Conn.benqueue
  dsimp only
  split_ifs with hb
  · exact hW.set rfl (List.subset_append_left _ _) rfl fun _ => .inl (by simp)
  · exact hW
  · exact hW.set rfl (List.Subset.refl _) rfl fun _ => hW i fun h => hb ((hR.shards i).nil_iff.mpr h)

theorem Wakeups.produced (hR : BInv ff s) (hW : Wakeups s.data) {i : Nat} (h : BProduced cfg ff s s' i) :
    Wakeups s'.data := by
  rcases h with ⟨rs, rfl⟩ | ⟨-, -, -, new, -, rfl⟩
  · exact hW
  · exact hW.benqueue hR i new

/-- The writer's `select` keeps every signal; its receive moves one into the writer. -/
theorem Wakeups.bselect (hW : Wakeups s.data) {k : Nat} {p : BPipe} {one : Session} {blocking : Bool}
    {sel : Sel} (hp : s.data.pipes[k]? = some p) (hidle : ∀ j, p.writer.pc ≠ .swap j)
    (h : s.bselect k p one blocking sel = some s') : Wakeups s'.data := by
  rcases bselect_inv h with ⟨i, rest, hd, rfl⟩ | rfl | rfl
  · exact hW.recv rfl hd hp rfl hidle
  all_goals exact hW.idle rfl rfl hp rfl hidle

/-- **A writer step keeps every shard with entries signalled**: it receives an index into
its swap, or swaps the shard it holds the index of, which empties it. -/
theorem Wakeups.wstep (hR : BInv ff s) (hW : Wakeups s.data) {k : Nat} {sel : Sel} {ok : Bool}
    (h : bwstep cfg s k sel ok = some s') : Wakeups s'.data := by
  unfold bwstep at h
  split at h
  · rename_i p one hp _
    dsimp only at h
    have move : ∀ {s₁ : Sys BufData} {p' : BPipe}, s₁.data = s.data → (∀ j, p.writer.pc ≠ .swap j) →
        Wakeups (s₁.bsetPipe k p').data := fun h₁ =>
      hW.idle (by simp [h₁]) (by simp [h₁]) hp (by rw [Sys.bsetPipe_pipes, h₁])
    split at h
    next hpc => exact hW.bselect hp (by simp [hpc]) h
    next hpc => split at h <;> cases h <;> exact move (by simp) (by simp [hpc])
    next hpc => exact hW.bselect hp (by simp [hpc]) h
    next i hpc =>
      split at h
      · cases h
      obtain ⟨-, hfk⟩ := hR.idle k p hp (by simp [hpc, BWPc.idle])
      have swap : ∀ p' : BPipe, Wakeups
          { s.data with shards := s.data.shards.set i ⟨p.writer.packet, p.writer.futures⟩,
                        pipes := s.data.pipes.set k p' } := fun _ => hW.swap hp hpc hfk rfl rfl rfl
      split at h
      · split at h
        · exact absurd ((hR.shards i).nil_iff.mp ‹_›) ‹_›
        · cases h; exact swap _
      · cases h; exact swap _
    next hpc => split at h <;> cases h <;> exact move rfl (by simp [hpc])
    next hpc =>
      split at h
      · split at h <;> cases h <;> exact move rfl (by simp [hpc])
      · cases h
    next hpc => cases h; exact move (by simp) (by simp [hpc])
    next hpc => split at h <;> cases h <;> exact move (by simp) (by simp [hpc])
    next => cases h
  · cases h

/-- A reader step leaves `conn.dirtyShard` alone. -/
theorem brstep_dirty {k : Nat} {r : ReadResult} (h : brstep s k r = some s') : s'.data.dirty = s.data.dirty := by
  unfold brstep at h
  repeat' split at h
  all_goals (cases h <;> simp [Sys.blog])

theorem Wakeups.step (hR : BInv ff s) (hW : Wakeups s.data) {a : BAction} (h : bstep cfg ff s a = some s') :
    Wakeups s'.data := by
  unfold bstep at h
  split_ifs at h
  cases a <;> simp only at h
  · rcases (mstep_bdata h).1 with hd | ⟨err, hd⟩ | hd <;> rw [hd]
    · exact hW
    · exact Wakeups.drop _ _
    · exact fun i hi => (hW i hi).imp id fun ⟨k, p, hp, hpc⟩ =>
        ⟨k, p, by rw [List.getElem?_append_left (List.getElem?_eq_some_iff.mp hp).1, hp], hpc⟩
  · split_ifs at h; exact hW.produced hR (bsendAsk_produced h)
  · split_ifs at h; exact hW.produced hR (bsendBatchFlags_produced h)
  · split_ifs at h; exact hW.produced hR (bsendTransaction_produced h)
  · obtain ⟨sh, -, rfl⟩ := bresume_cases h
    exact hW.set rfl (List.subset_append_left _ _) rfl fun _ => .inl (by simp)
  · exact hW.wstep hR h
  · obtain ⟨p, p', hp, hq, hw⟩ := brstep_cases h
    exact hW.pipe hq.1 (brstep_dirty h) hp hq.2.2.2 fun j hj => hw ▸ hj
  · cases h; exact hW

theorem Wakeups.initial (cfg : Config) : Wakeups (BufData.initial cfg) := fun i hi => by
  simp only [BufData.initial, List.getD_eq_getElem?_getD, List.getElem?_replicate] at hi
  split_ifs at hi <;> exact absurd rfl hi

theorem BReachable.wakeups (hs : BReachable cfg ff s) : Wakeups s.data := by
  induction hs with
  | init => exact Wakeups.initial cfg
  | step a hs h ih => exact ih.step hs.bInv h

/-! ## No lost wakeup -/

/-- **No lost wakeup in the buffered version.** In every reachable state, every shard whose
futures list is non-empty has its index queued in `conn.dirtyShard`, or a writer has
received its index and not yet swapped the shard. -/
theorem bshards_signalled (hs : BReachable cfg ff s) :
    ∀ i, (s.data.shards.getD i BShard.empty).futures ≠ [] →
      i ∈ s.data.dirty ∨ ∃ (k : Nat) (p : BPipe), s.data.pipes[k]? = some p ∧ p.writer.pc = .swap i :=
  hs.wakeups

theorem bshards_signalled_ping :
    ∃ s, BReachable oneShard noFloats s ∧ (s.data.shards.getD 0 BShard.empty).futures ≠ [] ∧
      ∀ i, (s.data.shards.getD i BShard.empty).futures ≠ [] →
        i ∈ s.data.dirty ∨ ∃ (k : Nat) (p : BPipe), s.data.pipes[k]? = some p ∧ p.writer.pc = .swap i := by
  obtain ⟨s, hs, hp⟩ := @exists_breachable_of_run oneShard noFloats connectPing
    (fun s => (s.data.shards.getD 0 BShard.empty).futures != []) (by decide)
  exact ⟨s, hs, by simpa using hp, bshards_signalled hs⟩

end RedisPipe.Conn
