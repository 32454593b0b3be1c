import RedisPipe.Buffered.Delivery

/-!
# Each call's replies come in index order

`redisconn/conn.go:250-383` (the producers), `:550-567` (`dropShardFutures`) and `:646-748`
(the writer and the reader). A call's entries go into one shard together, in index order;
a writer moves a shard's list whole; a reader calls the entries of its batches from the
front, and after a hard error calls the rest of its batch and then the later batches, in
order; `dropShardFutures` calls the shards' lists in order; a refused call resolves its
indices from the first. So whatever the interleaving and the faults, the indices of a call
resolved so far are always its first ones:

* `replies_in_order`: in every run from `Connect`'s state whose calls never reuse a
  (future, index) pair, the resolutions made for the pairs of any one call, in the order
  they were made, are the first few of its pairs, in index order.

The invariant is `InOrder K`, for the pairs `K` of one call: the calls made for `K` are its
first `m`, and each place an entry waits in (a shard, a blocked producer's list, a
session's entries, `BufData.parts`) holds the rest of `K`, in order, or none of it. Each
step of the connection's own goroutines moves lists between places, or calls the front of
one place's list (`InOrder.move`). That only one place holds what is left of `K` comes
from the ledger (`BufData.ledger`), which has no pair twice when no call reuses one. A
producer's call starts `InOrder` for its own pairs, which the ledger does not hold yet
(`InOrder.called`), and keeps it for every other call's (`InOrder.other`).
-/

set_option autoImplicit false

namespace RedisPipe.Conn

/-! ## Places and a call's pairs -/

/-- The lists of entries in flight, one per place an entry waits in: each shard, each
blocked producer's shard, each session. -/
def BufData.parts (d : BufData) : List (List Entry) :=
  d.shards.map BShard.futures ++ d.pending.map pendingFutures ++ d.pipes.map BPipe.inFlight

theorem BufData.inFlight_eq_parts (d : BufData) : d.inFlight = d.parts.flatten := by
  simp [BufData.inFlight, BufData.parts]

/-- The pairs of `K` a list of entries holds, in order. -/
def keysIn (K : List (Future × BitVec 64)) (l : List Entry) : List (Future × BitVec 64) :=
  (l.map Entry.key).filter (· ∈ K)

/-- The pairs a call issued for its own future, the markers' `dumb` aside. -/
def BAction.owned (a : BAction) : List (Future × BitVec 64) := a.issued.filter (·.1.own)

/-- The calls made for the pairs of `K` are its first `m`, in order, and each place holds
the rest of `K`, in order, or none of it. -/
def InOrder (K : List (Future × BitVec 64)) (d : BufData) : Prop :=
  ∃ m, (d.resolved.map Resolution.key).filter (· ∈ K) = K.take m ∧
    ∀ l ∈ d.parts, keysIn K l = [] ∨ keysIn K l = K.drop m

/-! ## Lists of pairs -/

section Keys

variable {K : List (Future × BitVec 64)}

@[simp] theorem keysIn_nil : keysIn K [] = [] := rfl

@[simp] theorem keysIn_append (l l' : List Entry) : keysIn K (l ++ l') = keysIn K l ++ keysIn K l' := by
  simp [keysIn]

theorem keysIn_flatten (L : List (List Entry)) : keysIn K L.flatten = (L.map (keysIn K)).flatten := by
  induction L with
  | nil => rfl
  | cons l L ih => simp [ih]

theorem keysIn_perm {L L' : List (List Entry)} (h : List.Perm L L') :
    List.Perm (keysIn K L.flatten) (keysIn K L'.flatten) :=
  (h.flatten.map Entry.key).filter _

/-- Calling `A`, the front of what is left of `K`, leaves `B`. -/
theorem take_drop_of_append {m : Nat} {A B : List (Future × BitVec 64)} (h : A ++ B = K.drop m) :
    K.take m ++ A = K.take (m + A.length) ∧ B = K.drop (m + A.length) := by
  constructor
  · rw [List.take_add, ← h, List.take_left' rfl]
  · rw [← List.drop_drop, ← h, List.drop_left' rfl]

theorem eq_nil_of_disjoint_self {D : List (Future × BitVec 64)} (h : D.Disjoint D) : D = [] := by
  cases D with
  | nil => rfl
  | cons x _ => exact (h (List.mem_cons_self x _) (List.mem_cons_self x _)).elim

/-- The pairs of an own `K` in flight are pairs of the ledger. -/
theorem keysIn_inFlight_sublist (hown : ∀ x ∈ K, x.1.own = true) (d : BufData) :
    List.Sublist (keysIn K d.inFlight) d.ledger := by
  refine (List.monotone_filter_right _ fun x hx => hown x (by simpa using hx)).trans ?_
  rw [BufData.ledger, List.filter_append]
  exact List.sublist_append_right _ _

end Keys

/-! ## One place holds the rest of a call -/

section Unique

variable {K D : List (Future × BitVec 64)} {X Q : List (List Entry)}

/-- When no pair of `K` is in flight twice, places that each hold `D` or nothing hold
together `D` or nothing. -/
theorem keysIn_flatten_of_parts (hnd : (keysIn K (X ++ Q).flatten).Nodup)
    (hX : ∀ l ∈ X, keysIn K l = [] ∨ keysIn K l = D) : keysIn K X.flatten = [] ∨ keysIn K X.flatten = D := by
  induction X with
  | nil => exact .inl rfl
  | cons x X ih =>
    have hnd' : (keysIn K x ++ keysIn K (X ++ Q).flatten).Nodup := by simpa using hnd
    have ih := ih (List.nodup_append.mp hnd').2.1 fun l hl => hX l (List.mem_cons_of_mem _ hl)
    simp only [List.flatten_cons, keysIn_append]
    rcases hX x (List.mem_cons_self _ _) with hx | hx <;> rw [hx]
    · simpa using ih
    · rcases ih with hr | hr
      · exact .inr (by rw [hr, List.append_nil])
      · have hdisj := (List.nodup_append.mp hnd').2.2
        rw [hx, keysIn_flatten, List.map_append, List.flatten_append, ← keysIn_flatten, hr] at hdisj
        obtain rfl := eq_nil_of_disjoint_self fun _ ha hb => hdisj ha (List.mem_append_left _ hb)
        exact .inl (by rw [hr]; rfl)

/-- The other places hold none of `K` when `X` holds some. -/
theorem keysIn_eq_nil_of_parts (hnd : (keysIn K (X ++ Q).flatten).Nodup) (hX : keysIn K X.flatten ≠ [])
    {q : List Entry} (hq : q ∈ Q) (hQ : keysIn K q = [] ∨ keysIn K q = keysIn K X.flatten) : keysIn K q = [] := by
  refine hQ.resolve_right fun h => hX (eq_nil_of_disjoint_self fun x ha hb => ?_)
  rw [List.flatten_append, keysIn_append] at hnd
  refine (List.nodup_append.mp hnd).2.2 ha ?_
  rw [keysIn_flatten]
  exact List.mem_flatten.mpr ⟨_, List.mem_map_of_mem _ hq, h ▸ hb⟩

end Unique

/-! ## The invariant under a step -/

section Move

variable {K : List (Future × BitVec 64)} {d d' : BufData}

/-- **A step that calls the front of the lists it takes from places and puts the rest in one
place keeps `InOrder`.** `X` are the places it takes from, `es` what it calls, `y` the place
it fills; every other place of `d'` is a place of `d` or holds nothing of `K`. -/
theorem InOrder.move (hI : InOrder K d) (hnd : (keysIn K d.inFlight).Nodup) {X Q : List (List Entry)}
    (es y : List Entry) (hP : List.Perm d.parts (X ++ Q)) (hE : keysIn K X.flatten = keysIn K es ++ keysIn K y)
    (hP' : ∀ l ∈ d'.parts, l = y ∨ l ∈ Q ∨ keysIn K l = [])
    (hr : (d'.resolved.map Resolution.key).filter (· ∈ K) =
      (d.resolved.map Resolution.key).filter (· ∈ K) ++ keysIn K es) : InOrder K d' := by
  obtain ⟨m, hR, hparts⟩ := hI
  have hnd' : (keysIn K (X ++ Q).flatten).Nodup := by
    rw [BufData.inFlight_eq_parts] at hnd; exact (keysIn_perm hP).nodup_iff.mp hnd
  have hXQ : ∀ l ∈ X ++ Q, keysIn K l = [] ∨ keysIn K l = K.drop m := fun l hl => hparts l (hP.mem_iff.mpr hl)
  rcases keysIn_flatten_of_parts hnd' fun l hl => hXQ l (List.mem_append_left _ hl) with hX | hX
  · -- `X` holds nothing of `K`, nor do `es` and `y`
    obtain ⟨hes, hy⟩ := List.append_eq_nil.mp (hE.symm.trans hX)
    refine ⟨m, by rw [hr, hR, hes, List.append_nil], fun l hl => ?_⟩
    rcases hP' l hl with rfl | hq | hl'
    · exact .inl hy
    · exact hXQ l (List.mem_append_right _ hq)
    · exact .inl hl'
  · -- `X` holds the rest of `K`: its front is called, the rest goes to `y`
    obtain ⟨htake, hdrop⟩ := take_drop_of_append (hE.symm.trans hX)
    refine ⟨m + (keysIn K es).length, by rw [hr, hR, htake], fun l hl => ?_⟩
    rcases hP' l hl with rfl | hq | hl'
    · exact .inr hdrop
    · by_cases hD : K.drop m = []
      · rcases hXQ l (List.mem_append_right _ hq) with h | h <;> exact .inl (h.trans (by simp [hD]))
      · exact .inl (keysIn_eq_nil_of_parts hnd' (hX ▸ hD) hq (hX ▸ hXQ l (List.mem_append_right _ hq)))
    · exact .inl hl'

/-- A step that only reorders the places, or adds empty ones, keeps `InOrder`. -/
theorem InOrder.of_parts (hI : InOrder K d) (hP' : ∀ l ∈ d'.parts, l ∈ d.parts ∨ keysIn K l = [])
    (hr : d'.resolved = d.resolved) : InOrder K d' := by
  obtain ⟨m, hR, hparts⟩ := hI
  refine ⟨m, hr ▸ hR, fun l hl => ?_⟩
  rcases hP' l hl with hl | hl
  · exact hparts l hl
  · exact .inl hl

/-- A fresh `K`, none of whose pairs the ledger holds, is in no place and has no call. -/
theorem InOrder.fresh (hown : ∀ x ∈ K, x.1.own = true) (hf : ∀ x ∈ K, x ∉ d.ledger) :
    (d.resolved.map Resolution.key).filter (· ∈ K) = [] ∧ ∀ l ∈ d.parts, keysIn K l = [] := by
  have hmem : ∀ x, x ∈ K → (x ∈ d.resolved.map Resolution.key ∨ x ∈ d.inFlight.map Entry.key) → False :=
    fun x hx hin => hf x hx (List.mem_filter.mpr ⟨List.mem_append.mpr hin, hown x hx⟩)
  refine ⟨List.filter_eq_nil_iff.mpr fun x hx hK => hmem x (by simpa using hK) (.inl hx), fun l hl => ?_⟩
  refine List.filter_eq_nil_iff.mpr fun x hx hK => hmem x (by simpa using hK) (.inr ?_)
  rw [BufData.inFlight_eq_parts, List.map_flatten]
  exact List.mem_flatten.mpr ⟨_, List.mem_map_of_mem _ hl, hx⟩

theorem InOrder.nil (d : BufData) : InOrder [] d := ⟨0, by simp, fun _ _ => .inl (by simp [keysIn])⟩

end Move

/-! ## Where each step puts the places -/

section Parts

theorem perm_set_of_getElem? {α : Type} {l : List α} {k : Nat} {a : α} (h : l[k]? = some a) (b : α) :
    ∃ Q, List.Perm l (a :: Q) ∧ List.Perm (l.set k b) (b :: Q) := by
  induction l generalizing k with
  | nil => simp at h
  | cons x xs ih =>
    cases k with
    | zero =>
      obtain rfl : x = a := by simpa using h
      exact ⟨xs, .refl _, .refl _⟩
    | succ k =>
      obtain ⟨Q, h1, h2⟩ := ih (by simpa using h)
      exact ⟨x :: Q, (h1.cons x).trans (.swap _ _ _), (h2.cons x).trans (.swap _ _ _)⟩

variable {d d' : BufData}

/-- A step that changes only pipe `k` replaces that session's place. -/
theorem parts_setPipe (hs : d'.shards = d.shards) (hq : d'.pending = d.pending) {k : Nat} {p p' : BPipe}
    (hp : d.pipes[k]? = some p) (hpi : d'.pipes = d.pipes.set k p') :
    ∃ Q, List.Perm d.parts (p.inFlight :: Q) ∧ List.Perm d'.parts (p'.inFlight :: Q) := by
  obtain ⟨Q, h1, h2⟩ := perm_set_of_getElem? (l := d.pipes.map BPipe.inFlight) (k := k)
    (a := p.inFlight) (by simp [hp]) p'.inFlight
  refine ⟨_, (h1.append_left _).trans List.perm_middle, ?_⟩
  rw [BufData.parts, hs, hq, hpi, List.map_set]
  exact (h2.append_left _).trans List.perm_middle

/-- The writer's swap empties shard `i` and adds its list to session `k`'s place. -/
theorem parts_swap (hq : d'.pending = d.pending) {i k : Nat} (hi : i < d.shards.length)
    (hs : d'.shards = d.shards.set i BShard.empty) {p p' : BPipe} (hp : d.pipes[k]? = some p)
    (hpi : d'.pipes = d.pipes.set k p') :
    ∃ Q, List.Perm d.parts (p.inFlight :: (d.shards.getD i BShard.empty).futures :: Q) ∧
      List.Perm d'.parts (p'.inFlight :: [] :: Q) := by
  obtain ⟨QS, hS, hS'⟩ := perm_set_of_getElem? (l := d.shards.map BShard.futures)
    (by rw [List.getElem?_map, getElem?_eq_some_getD hi BShard.empty]; rfl) BShard.empty.futures
  obtain ⟨QC, hC, hC'⟩ := perm_set_of_getElem? (l := d.pipes.map BPipe.inFlight) (k := k)
    (a := p.inFlight) (by simp [hp]) p'.inFlight
  refine ⟨QS ++ d.pending.map pendingFutures ++ QC, ((hS.append_right _).append hC).trans List.perm_middle, ?_⟩
  rw [BufData.parts, hs, hq, hpi, List.map_set, List.map_set]
  exact ((hS'.append_right _).append hC').trans List.perm_middle

/-- A producer's append adds its entries to shard `i`'s list, or to the list it blocks holding. -/
theorem parts_benqueue {cfg : Config} {ff : FloatFormat} {s : Sys BufData} (hR : BInv ff s) (hD : BDeliv cfg s.data)
    {i : Nat} (hi : i < cfg.concurrency) (hl : s.data.locked i = false) (buf : Bytes) (es : List Entry) :
    ∃ o Q, List.Perm s.data.parts (o :: Q) ∧
      List.Perm (benqueue cfg s i ⟨buf, (s.data.shards.getD i BShard.empty).futures ++ es⟩).data.parts
        ((o ++ es) :: Q) := by
  have hS := perm_set_of_getElem? (l := s.data.shards.map BShard.futures)
    (by rw [List.getElem?_map, getElem?_eq_some_getD (hD.shards_length ▸ hi) BShard.empty]; rfl)
    ((s.data.shards.getD i BShard.empty).futures ++ es)
  unfold RedisPipe.Conn.benqueue
  dsimp only
  split_ifs with hb
  · obtain ⟨Q, h1, h2⟩ := hS
    refine ⟨_, Q ++ s.data.pending.map pendingFutures ++ s.data.pipes.map BPipe.inFlight,
      (h1.append_right _).append_right _, ?_⟩
    rw [BufData.parts, List.map_set]
    exact (h2.append_right _).append_right _
  · have hnone : s.data.pending.getD i none = none := by simpa [BufData.locked] using hl
    obtain ⟨Q, h1, h2⟩ := perm_set_of_getElem? (l := s.data.pending.map pendingFutures) (a := [])
      (by rw [List.getElem?_map, getElem?_eq_some_getD (hD.pending_length ▸ hi) none, hnone]; rfl)
      (pendingFutures (some ⟨buf, (s.data.shards.getD i BShard.empty).futures ++ es⟩))
    rw [pendingFutures_some, (hR.shards i).nil_iff.mp hb] at h2
    refine ⟨[], s.data.shards.map BShard.futures ++ Q ++ s.data.pipes.map BPipe.inFlight,
      ((h1.append_left _).append_right _).trans (List.perm_middle.append_right _), ?_⟩
    rw [BufData.parts, List.map_set, pendingFutures_some, (hR.shards i).nil_iff.mp hb]
    exact ((h2.append_left _).append_right _).trans (List.perm_middle.append_right _)
  · obtain ⟨Q, h1, h2⟩ := hS
    refine ⟨_, Q ++ s.data.pending.map pendingFutures ++ s.data.pipes.map BPipe.inFlight,
      (h1.append_right _).append_right _, ?_⟩
    rw [BufData.parts, List.map_set]
    exact (h2.append_right _).append_right _

end Parts

/-! ## The connection's own steps -/

section Internal

variable {cfg : Config} {ff : FloatFormat} {s s' : Sys BufData} {K : List (Future × BitVec 64)}

/-- A place after a blocked producer's send was a place before, or is empty. -/
theorem parts_resume {i : Nat} (h : bresume cfg s i = some s') {l : List Entry}
    (hl : l ∈ s'.data.parts) : l ∈ s.data.parts ∨ l = [] := by
  obtain ⟨sh, hsh, rfl⟩ := bresume_cases h
  have hmem : some sh ∈ s.data.pending :=
    List.mem_iff_getElem?.mpr ⟨i, by rw [getElem?_eq_some_getD (lt_length_of_getD_eq_some hsh) none, hsh]⟩
  simp only [BufData.parts, List.mem_append, List.mem_map] at hl ⊢
  rcases hl with (⟨x, hx, rfl⟩ | ⟨o, ho, rfl⟩) | hl
  · rcases List.mem_or_eq_of_mem_set hx with hx | rfl
    · exact .inl (.inl (.inl ⟨x, hx, rfl⟩))
    · exact .inl (.inl (.inr ⟨some x, hmem, rfl⟩))
  · rcases List.mem_or_eq_of_mem_set ho with ho | rfl
    · exact .inl (.inl (.inr ⟨o, ho, rfl⟩))
    · exact .inr rfl
  · exact .inl (.inr hl)

/-- **Every step of the connection's own goroutines keeps `InOrder`**, for a `K` whose pairs
are in flight at most once: the manager's `dropShardFutures` calls the shards' lists in shard
order, a writer moves a shard's list into its session, a reader calls the front of its
session's entries, and a blocked producer's send moves its list into its shard. -/
theorem InOrder.internal (hR : BInv ff s) (hD : BDeliv cfg s.data) (hnd : (keysIn K s.data.inFlight).Nodup)
    (hI : InOrder K s.data) {a : BAction} (ha : a.internal = true) (h : bstep cfg ff s a = some s') :
    InOrder K s'.data := by
  unfold bstep at h
  split_ifs at h
  cases a <;> simp only [BAction.internal, Bool.false_eq_true] at h ha
  · rcases (mstep_bdata h).1 with hd | ⟨err, hd⟩ | hd <;> rw [hd]
    · exact hI
    · refine hI.move hnd (s.data.shards.map BShard.futures).flatten []
        (List.Perm.of_eq (List.append_assoc _ _ _)) (by simp) (fun l hl => ?_) (by simp [BufData.drop, keysIn])
      simp only [BufData.parts, BufData.drop, List.map_map, List.mem_append, List.mem_map, Function.comp_def,
        BShard.empty_futures] at hl
      rcases hl with (⟨_, -, rfl⟩ | hl) | hl
      · exact .inr (.inr rfl)
      · exact .inr (.inl (List.mem_append_left _ (List.mem_map.mpr hl)))
      · exact .inr (.inl (List.mem_append_right _ (List.mem_map.mpr hl)))
    · refine hI.of_parts (fun l hl => ?_) rfl
      simp only [BufData.parts, List.map_append, List.mem_append, List.map_cons, List.map_nil,
        List.mem_singleton] at hl
      rcases hl with hl | hl | rfl
      · exact .inl (List.mem_append_left _ (List.mem_append.mpr hl))
      · exact .inl (List.mem_append_right _ hl)
      · exact .inr (by simp [BPipe.inFlight, BPipe.fresh, BRPc.owed, BWPc.holding])
  · refine hI.of_parts (fun l hl => ?_) (inFlight_resume hD h).2
    rcases parts_resume h hl with hl | rfl
    · exact .inl hl
    · exact .inr rfl
  · obtain ⟨hr, hq, p, p', hp, hpi, ⟨hs, hf⟩ | ⟨i, -, hs, hf⟩⟩ := bwstep_moves hR h
    · obtain ⟨Q, h1, h2⟩ := parts_setPipe hs hq hp hpi
      refine hI.of_parts (fun l hl => .inl (h1.mem_iff.mpr ?_)) hr
      rcases List.mem_cons.mp (h2.mem_iff.mp hl) with rfl | hl
      · exact hf ▸ List.mem_cons_self _ _
      · exact List.mem_cons_of_mem _ hl
    · by_cases hi : i < s.data.shards.length
      · obtain ⟨Q, h1, h2⟩ := parts_swap hq hi hs hp hpi
        refine hI.move hnd [] p'.inFlight (X := [p.inFlight, _]) h1 (by simp [hf]) (fun l hl => ?_) (by simp [hr])
        have hl := h2.mem_iff.mp hl
        simp only [List.mem_cons] at hl
        rcases hl with rfl | rfl | hl
        · exact .inl rfl
        · exact .inr (.inr rfl)
        · exact .inr (.inl hl)
      · have hs' : s'.data.shards = s.data.shards := by rw [hs, List.set_eq_of_length_le (Nat.le_of_not_lt hi)]
        obtain ⟨Q, h1, h2⟩ := parts_setPipe hs' hq hp hpi
        refine hI.of_parts (fun l hl => .inl (h1.mem_iff.mpr ?_)) hr
        rcases List.mem_cons.mp (h2.mem_iff.mp hl) with rfl | hl
        · rw [hf, List.getD_eq_getElem?_getD, List.getElem?_eq_none (Nat.le_of_not_lt hi)]
          simp
        · exact List.mem_cons_of_mem _ hl
  · obtain ⟨hs, hq, p, p', es, rs, hp, hpi, hr, hk, hf⟩ := brstep_moves h
    obtain ⟨Q, h1, h2⟩ := parts_setPipe hs hq hp hpi
    refine hI.move hnd es p'.inFlight (X := [p.inFlight]) h1 (by simp [hf]) (fun l hl => ?_) ?_
    · rcases List.mem_cons.mp (h2.mem_iff.mp hl) with rfl | hl
      · exact .inl rfl
      · exact .inr (.inl hl)
    · rw [hr, List.map_append, hk, List.filter_append]; rfl
  · cases h; exact hI

end Internal

/-! ## A producer's step

A producer's call hands over its own pairs in index order: a refusal calls the first few of
them, in order (a batch's refusal all but `EXEC`'s), and an append puts all of them at the
end of its shard's list, in order. Every other call's pairs are untouched. -/

section Called

variable {cfg : Config} {ff : FloatFormat} {s s' : Sys BufData} {i : Nat} {K : List (Future × BitVec 64)}

/-- What a producer's call on shard `i` did with its own pairs `K`: it called the first few
of them, in order, or appended entries to its shard whose own pairs are `K`, in order. -/
def BOwned (cfg : Config) (s s' : Sys BufData) (i : Nat) (K : List (Future × BitVec 64)) : Prop :=
  (∃ rs m, s' = s.blog rs ∧ (rs.map Resolution.key).filter (·.1.own) = K.take m) ∨
    (s.data.locked i = false ∧ ∃ buf es,
      s' = benqueue cfg s i ⟨buf, (s.data.shards.getD i BShard.empty).futures ++ es⟩ ∧
      (es.map Entry.key).filter (·.1.own) = K)

theorem BOwned.log (rs : List Resolution) (h : (rs.map Resolution.key).filter (·.1.own) = K) :
    BOwned cfg s (s.blog rs) i K :=
  .inl ⟨rs, K.length, rfl, by rw [h, List.take_length]⟩

theorem BOwned.none (K : List (Future × BitVec 64)) : BOwned cfg s s i K :=
  .inl ⟨[], 0, by simp, rfl⟩

theorem batchKeys_filter_own (cb : Future) (start : BitVec 64) (j len : Nat) :
    (batchKeys cb start j len).filter (·.1.own) = if cb.own then batchKeys cb start j len else [] := by
  cases h : cb.own <;> simp [batchKeys, List.filter_map, Function.comp_def, h]

theorem batchKeys_take (cb : Future) (start : BitVec 64) (len t : Nat) :
    (batchKeys cb start 0 (len + t)).take len = batchKeys cb start 0 len := by
  rw [batchKeys, batchKeys, ← List.map_take, Nat.add_comm, ← List.range'_append, List.take_left' (by simp)]

theorem bsendAsk_owned {req : Request} {cb : Future} {n : BitVec 64} {asking inactive : Bool}
    (h : bsendAsk cfg ff s i req cb n asking inactive = some s') : BOwned cfg s s' i ([(cb, n)].filter (·.1.own)) := by
  obtain ⟨⟨s₁, e⟩, h₁, rfl⟩ := Option.map_eq_some'.mp h
  rcases bdoSend_entries h₁ with rfl | ⟨rfl, hl, buf, rfl⟩
  · cases e
    · exact BOwned.none _
    · exact BOwned.log _ (by simp [Resolution.key])
  · exact .inr ⟨hl, buf, _, rfl, by cases asking <;> simp [sendBlock, Entry.key, Future.own]⟩

theorem bsendBatchFlags_owned {reqs : List Request} {cb : Future} {start : BitVec 64} {flags : Nat}
    {inactive : Bool} (h : bsendBatchFlags cfg ff s i reqs cb start flags inactive = some s') :
    BOwned cfg s s' i ((batchIssued reqs cb start flags).filter (·.1.own)) := by
  rcases bsendBatchFlags_inv h with ⟨rs, rfl, rfl | hk, -⟩ | ⟨hne, hl, buf, rfl⟩
  · exact .inl ⟨[], 0, rfl, rfl⟩
  · refine .inl ⟨rs, reqs.length, rfl, ?_⟩
    by_cases hne : reqs = []
    · simp [hk, hne, batchKeys, batchIssued]
    · rw [hk, batchIssued, if_neg hne, batchKeys_filter_own, batchKeys_filter_own]
      split_ifs <;> simp only [batchKeys_take, List.take_nil]
  · exact .inr ⟨hl, buf, _, rfl, batchBlock_own_keys hne cb start flags⟩

theorem bsendTransaction_owned {reqs : List Request} {cb : Nat} {off : BitVec 64} {inactive inactiveLater : Bool}
    (h : bsendTransaction cfg ff s i reqs cb off inactive inactiveLater = some s') :
    BOwned cfg s s' i (BAction.sendTransaction i reqs cb off inactive inactiveLater).owned := by
  unfold bsendTransaction at h
  simp only [BAction.owned, BAction.issued]
  split_ifs at h ⊢
  · cases h; exact BOwned.log _ (by simp [Resolution.key])
  · exact bsendBatchFlags_owned h

/-- A producer's step hands over its own pairs on a shard in range. -/
theorem bstep_owned {a : BAction} (ha : a.internal = false) (h : bstep cfg ff s a = some s') :
    ∃ i < cfg.concurrency, BOwned cfg s s' i a.owned := by
  unfold bstep at h
  split_ifs at h
  cases a <;> simp only [BAction.internal, Bool.true_eq_false] at ha <;> simp only at h <;>
    split_ifs at h with hc
  · exact ⟨_, hc.2, bsendAsk_owned h⟩
  · exact ⟨_, hc.2, bsendBatchFlags_owned h⟩
  · exact ⟨_, hc.2, bsendTransaction_owned h⟩

/-- For an own `K`, the pairs of `K` in a list are those among its own pairs. -/
theorem filter_mem_of_own (hown : ∀ x ∈ K, x.1.own = true) (l : List (Future × BitVec 64)) :
    l.filter (· ∈ K) = (l.filter (·.1.own)).filter (· ∈ K) := by
  rw [List.filter_filter]
  congr 1
  funext x
  by_cases hx : x ∈ K
  · simp [hx, hown x hx]
  · simp [hx]

/-- **A producer's call starts its own pairs in order**: when none of them is in the
ledger yet, after the call its first `m` are called and the rest wait, in order, in one place. -/
theorem InOrder.called (hR : BInv ff s) (hD : BDeliv cfg s.data) (hi : i < cfg.concurrency)
    (hown : ∀ x ∈ K, x.1.own = true) (hf : ∀ x ∈ K, x ∉ s.data.ledger) (h : BOwned cfg s s' i K) :
    InOrder K s'.data := by
  obtain ⟨hr, hp⟩ := InOrder.fresh hown hf
  rcases h with ⟨rs, m, rfl, hk⟩ | ⟨hl, buf, es, rfl, hk⟩
  · refine ⟨m, ?_, fun l hl => .inl (hp l hl)⟩
    rw [Sys.blog_resolved, List.map_append, List.filter_append, hr, List.nil_append, filter_mem_of_own hown, hk]
    exact List.filter_eq_self.mpr fun x hx => by simpa using List.mem_of_mem_take hx
  · obtain ⟨o, Q, h1, h2⟩ := parts_benqueue hR hD hi hl buf es
    refine ⟨0, by rw [benqueue_resolved, hr]; rfl, fun l hl => ?_⟩
    rcases List.mem_cons.mp (h2.mem_iff.mp hl) with rfl | hq
    · refine .inr ?_
      rw [keysIn_append, hp o (h1.mem_iff.mpr (List.mem_cons_self _ _)), List.nil_append, keysIn,
        filter_mem_of_own hown, hk, List.drop_zero]
      exact List.filter_eq_self.mpr fun x hx => by simpa using hx
    · exact .inl (hp l (h1.mem_iff.mpr (List.mem_cons_of_mem _ hq)))

/-- A producer's call keeps `InOrder` for the pairs of every other call. -/
theorem InOrder.other (hR : BInv ff s) (hD : BDeliv cfg s.data) (hi : i < cfg.concurrency)
    (hown : ∀ x ∈ K, x.1.own = true) (hnd : (keysIn K s.data.inFlight).Nodup) (hI : InOrder K s.data)
    {K' : List (Future × BitVec 64)} (hdis : ∀ x ∈ K', x ∉ K) (h : BOwned cfg s s' i K') : InOrder K s'.data := by
  have hnone : ∀ m, (K'.take m).filter (· ∈ K) = [] := fun m =>
    List.filter_eq_nil_iff.mpr fun x hx => by simpa using hdis x (List.mem_of_mem_take hx)
  rcases h with ⟨rs, m, rfl, hk⟩ | ⟨hl, buf, es, rfl, hk⟩
  · obtain ⟨m', hr, hp⟩ := hI
    refine ⟨m', ?_, hp⟩
    rw [Sys.blog_resolved, List.map_append, List.filter_append, hr, filter_mem_of_own hown, hk, hnone,
      List.append_nil]
  · have hes : keysIn K es = [] := by
      rw [keysIn, filter_mem_of_own hown, hk, ← List.take_length K']
      exact hnone _
    obtain ⟨o, Q, h1, h2⟩ := parts_benqueue hR hD hi hl buf es
    refine hI.move hnd [] (o ++ es) (X := [o]) h1 (by simp [hes]) (fun l hl => ?_) (by simp)
    rcases List.mem_cons.mp (h2.mem_iff.mp hl) with rfl | hq
    · exact .inl rfl
    · exact .inr (.inl hq)

end Called

/-! ## Every call, along every run -/

section Run

variable {cfg : Config} {ff : FloatFormat} {s s' : Sys BufData}

theorem BAction.owned_of_internal {a : BAction} (h : a.internal = true) : a.owned = [] := by
  cases a <;> simp_all [BAction.internal, BAction.owned, BAction.issued]

/-- A step adds to the ledger some of its call's own pairs. -/
theorem ledger_step_owned (hR : BInv ff s) (hD : BDeliv cfg s.data) {a : BAction}
    (h : bstep cfg ff s a = some s') : List.Subperm s'.data.ledger (s.data.ledger ++ a.owned) := by
  obtain ⟨ks, hk, hp⟩ := ledger_step hR hD h
  have hown : ∀ x ∈ ks, x.1.own = true := fun x hx =>
    (List.mem_filter.mp (hp.mem_iff.mpr (List.mem_append_right _ hx))).2
  have hks : List.Sublist ks a.owned := by
    simpa only [List.filter_eq_self.mpr hown] using hk.filter (·.1.own)
  exact hp.subperm.trans (hks.append_left _).subperm

/-- **One step keeps `InOrder` for the pairs of the calls so far and starts it for its own
call's**, when the pairs `L` of the calls so far cover the ledger and the step's call reuses
none of them. -/
theorem InOrder.step (hR : BInv ff s) (hD : BDeliv cfg s.data) {L : List (Future × BitVec 64)} {a : BAction}
    (hn : (L ++ a.issued).Nodup) (hown : ∀ x ∈ L, x.1.own = true) (hl : List.Subperm s.data.ledger L)
    (h : bstep cfg ff s a = some s') :
    (∀ K, (∀ x ∈ K, x ∈ L) → InOrder K s.data → InOrder K s'.data) ∧ InOrder a.owned s'.data := by
  have hnd : ∀ K, (∀ x ∈ K, x ∈ L) → (keysIn K s.data.inFlight).Nodup := fun K hK => by
    obtain ⟨l, hp, hsub⟩ := hl
    exact (keysIn_inFlight_sublist (fun x hx => hown x (hK x hx)) s.data).nodup
      (hp.nodup_iff.mp ((List.nodup_append.mp hn).1.sublist hsub))
  have hdis : ∀ x ∈ a.owned, x ∉ L := fun x hx hL =>
    List.disjoint_of_nodup_append hn hL (List.mem_of_mem_filter hx)
  cases hin : a.internal
  · obtain ⟨i, hi, ho⟩ := bstep_owned hin h
    exact ⟨fun K hK hI => hI.other hR hD hi (fun x hx => hown x (hK x hx)) (hnd K hK)
        (fun x hx hK' => hdis x hx (hK x hK')) ho,
      InOrder.called hR hD hi (fun x hx => (List.mem_filter.mp hx).2) (fun x hx hl' => hdis x hx (hl.subset hl')) ho⟩
  · exact ⟨fun K hK hI => hI.internal hR hD (hnd K hK) hin h, BAction.owned_of_internal hin ▸ InOrder.nil _⟩

/-- Along a run, `InOrder` holds for the pairs of each call so far, `Ks`, and of each call of
the run, when no two of them share a pair. -/
theorem InOrder.run (hs : BReachable cfg ff s) (Ks : List (List (Future × BitVec 64))) {as : List BAction}
    (hn : (Ks.flatten ++ as.flatMap BAction.issued).Nodup) (hown : ∀ x ∈ Ks.flatten, x.1.own = true)
    (hl : List.Subperm s.data.ledger Ks.flatten) (hK : ∀ K ∈ Ks, InOrder K s.data)
    (h : brun cfg ff s as = some s') : ∀ K ∈ Ks ++ as.map BAction.owned, InOrder K s'.data := by
  induction as generalizing s Ks with
  | nil => cases h; simpa using hK
  | cons a as ih =>
    obtain ⟨s₁, h₁, h₂⟩ := Option.bind_eq_some.mp h
    rw [List.flatMap_cons, ← List.append_assoc] at hn
    obtain ⟨hkeep, hnew⟩ := InOrder.step hs.bInv hs.bDeliv (List.nodup_append.mp hn).1 hown hl h₁
    have hsub : List.Sublist (Ks ++ [a.owned]).flatten (Ks.flatten ++ a.issued) := by
      simp [BAction.owned]
    have hown' : ∀ x ∈ (Ks ++ [a.owned]).flatten, x.1.own = true := by
      simp only [List.flatten_append, List.flatten_cons, List.flatten_nil, List.append_nil, List.mem_append]
      rintro x (hx | hx)
      · exact hown x hx
      · exact (List.mem_filter.mp hx).2
    have hl' : List.Subperm s₁.data.ledger (Ks ++ [a.owned]).flatten := by
      simpa using (ledger_step_owned hs.bInv hs.bDeliv h₁).trans ((List.subperm_append_right _).mpr hl)
    have hK' : ∀ K ∈ Ks ++ [a.owned], InOrder K s₁.data := by
      intro K hK'
      rcases List.mem_append.mp hK' with hK' | hK'
      · exact hkeep K (fun x hx => List.mem_flatten.mpr ⟨K, hK', hx⟩) (hK K hK')
      · exact List.mem_singleton.mp hK' ▸ hnew
    simpa using ih (.step a hs h₁) (Ks ++ [a.owned]) (hn.sublist (hsub.append_right _)) hown' hl' hK' h₂

end Run

/-! ## A call's replies -/

/-- **Each call's replies come in index order.** In every run from `Connect`'s state whose
producers' calls never reuse a (future, index) pair, whatever the interleaving of producers,
writers, readers, hard errors and reconnects, the calls made so far for the own pairs of any
one call of the run, in the order they were made, are its first few pairs in index order. -/
theorem replies_in_order {cfg : Config} {ff : FloatFormat} {s : Sys BufData} {as : List BAction}
    (hn : (as.flatMap BAction.issued).Nodup) (h : brun cfg ff (Sys.initial cfg (BufData.initial cfg)) as = some s) :
    ∀ a ∈ as, ∃ m, (s.data.resolved.map Resolution.key).filter (· ∈ a.owned) = a.owned.take m := by
  intro a ha
  obtain ⟨m, hm, -⟩ := InOrder.run BReachable.init [] (by simpa using hn) (by simp)
    (by rw [ledger_initial]; rfl) (by simp) h a.owned (by simpa using List.mem_map_of_mem _ ha)
  exact ⟨m, hm⟩

/-- `Connect`, then a batch of two `PING`s whose second reply is a hard error: the reader
calls index 0 with its reply, and index 1 with the session's error. -/
def hardErrorBatch : List BAction :=
  List.replicate 6 (.manager 0 .ok) ++ [.sendBatchFlags 0 [pingReq, pingReq] (.cb 1) 0 0 false,
    .writer 0 .recv true, .writer 0 .recv true, .writer 0 .recv true, .writer 0 .recv true,
    .reader 0 (.value 1), .reader 0 (.redisError (netError 0) true), .reader 0 (.value 1)]

theorem replies_in_order_hardError :
    ∃ s, brun oneShard noFloats (Sys.initial oneShard (BufData.initial oneShard)) hardErrorBatch = some s ∧
      s.data.resolved.map Resolution.key = [(.cb 1, 0), (.cb 1, 1)] ∧
      ∀ a ∈ hardErrorBatch, ∃ m, (s.data.resolved.map Resolution.key).filter (· ∈ a.owned) = a.owned.take m := by
  obtain ⟨s, hr, hq⟩ := @brun_of_any oneShard noFloats (Sys.initial oneShard (BufData.initial oneShard))
    hardErrorBatch (fun s => s.data.resolved.map Resolution.key == [(.cb 1, 0), (.cb 1, 1)]) (by decide)
  exact ⟨s, hr, by simpa using hq, replies_in_order (by decide) hr⟩

end RedisPipe.Conn
