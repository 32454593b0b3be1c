import RedisPipe.Buffered.Session

/-!
# Each call's entries reach the socket together

`redisconn/conn.go:250-383` and `:646-721`. A producer appends all of its call's entries to
one shard under the shard's lock: `doSend` its request, after an `ASKING` marker when asked;
`SendBatchFlags` the `ASKING` and `MULTI` markers its flags ask for, one entry per request,
and `EXEC`'s under `DoTransaction`. The writer takes a shard's list whole. So the entries a
session's writer hands over, whose requests are the ones on its socket (`session_pairing`),
are whole calls' blocks one after another: an `ASKING` is followed by the request it was
sent for, and nothing comes between a transaction's `MULTI` and its `EXEC`.

* `calls_contiguous`: along every run from `Connect`'s state, the entries each session's
  writer has handed over are a concatenation of blocks, each of them the whole block of a
  call of the run.

A call's block is `BAction.block`, read off the producers; `BAppends` says that a producer's
step appends its block or nothing, and `BChunked` that every shard, every blocked
producer's shard and every writer's list is a concatenation of blocks.
-/

set_option autoImplicit false

namespace RedisPipe.Conn

variable {cfg : Config} {ff : FloatFormat} {s s' : Sys BufData}

/-! ## A call's block -/

/-- The entries a producer's call appends to its shard when it goes through. An empty
batch appends nothing: `SendBatchFlags` returns at once, before its markers. -/
def BAction.block : BAction → List Entry
  | .sendAsk _ req cb n asking _ => sendBlock req cb n asking
  | .sendBatchFlags _ reqs cb start flags _ => if reqs = [] then [] else batchBlock reqs cb start flags
  | .sendTransaction _ reqs cb off _ _ =>
    if reqs = [] then [] else batchBlock reqs (.transaction cb (.ofNat 64 reqs.length) off) 0 doTransaction
  | _ => []

/-- `SendTransaction([PING], cb 1, 0)`: `MULTI`, the request, and `EXEC`, which the wrapper
forwards as index `off`. -/
example : (BAction.sendTransaction 0 [pingReq] 1 0 false false).block =
    [⟨.dumb, 0, multiReq⟩, ⟨.transaction 1 1 0, 0, pingReq⟩, ⟨.transaction 1 1 0, 1, execReq⟩] := by decide

/-- A producer's call on shard `i` logs calls only, or appends `b` to the shard. -/
def BAppends (cfg : Config) (s s' : Sys BufData) (i : Nat) (b : List Entry) : Prop :=
  (∃ rs, s' = s.blog rs) ∨ ∃ buf, s' = benqueue cfg s i ⟨buf, (s.data.shards.getD i BShard.empty).futures ++ b⟩

theorem bsendAsk_appends {i : Nat} {req : Request} {cb : Future} {n : BitVec 64} {asking inactive : Bool}
    (h : bsendAsk cfg ff s i req cb n asking inactive = some s') : BAppends cfg s s' i (sendBlock req cb n asking) := by
  obtain ⟨⟨s₁, e⟩, h₁, rfl⟩ := Option.map_eq_some'.mp h
  rcases bdoSend_entries h₁ with rfl | ⟨rfl, -, buf, rfl⟩
  · cases e
    · exact .inl ⟨[], by simp⟩
    · exact .inl ⟨_, rfl⟩
  · exact .inr ⟨buf, rfl⟩

theorem bsendBatchFlags_appends {i : Nat} {reqs : List Request} {cb : Future} {start : BitVec 64} {flags : Nat}
    {inactive : Bool} (h : bsendBatchFlags cfg ff s i reqs cb start flags inactive = some s') :
    BAppends cfg s s' i (if reqs = [] then [] else batchBlock reqs cb start flags) := by
  rcases bsendBatchFlags_inv h with ⟨rs, rfl, -⟩ | ⟨hne, -, buf, rfl⟩
  · exact .inl ⟨rs, rfl⟩
  · exact .inr ⟨buf, by rw [if_neg hne]⟩

theorem bsendTransaction_appends {i : Nat} {reqs : List Request} {cb : Nat} {off : BitVec 64}
    {inactive inactiveLater : Bool} (h : bsendTransaction cfg ff s i reqs cb off inactive inactiveLater = some s') :
    BAppends cfg s s' i
      (if reqs = [] then [] else batchBlock reqs (.transaction cb (.ofNat 64 reqs.length) off) 0 doTransaction) := by
  unfold bsendTransaction at h
  split_ifs at h
  · cases h; exact .inl ⟨_, rfl⟩
  · exact bsendBatchFlags_appends h

/-! ## Lists made of blocks -/

/-- `l` is whole blocks of `bs`, one after another. -/
def Chunked (bs : List (List Entry)) (l : List Entry) : Prop :=
  ∃ cs : List (List Entry), (∀ c ∈ cs, c ∈ bs) ∧ l = cs.flatten

section Chunked

variable {bs : List (List Entry)} {l l' : List Entry}

theorem Chunked.nil (bs : List (List Entry)) : Chunked bs [] := ⟨[], by simp, rfl⟩

theorem Chunked.of_mem (h : l ∈ bs) : Chunked bs l := ⟨[l], by simpa using h, by simp⟩

theorem Chunked.append (h : Chunked bs l) (h' : Chunked bs l') : Chunked bs (l ++ l') := by
  obtain ⟨cs, hc, rfl⟩ := h
  obtain ⟨cs', hc', rfl⟩ := h'
  exact ⟨cs ++ cs', fun c hm => (List.mem_append.mp hm).elim (hc c) (hc' c), by simp⟩

end Chunked

/-- Every shard, every blocked producer's shard and every writer's list is whole blocks. -/
structure BChunked (bs : List (List Entry)) (d : BufData) : Prop where
  shards : ∀ i, Chunked bs (d.shards.getD i BShard.empty).futures
  pending : ∀ (i : Nat) (sh : BShard), d.pending.getD i none = some sh → Chunked bs sh.futures
  writers : ∀ (k : Nat) (p : BPipe), d.pipes[k]? = some p → Chunked bs p.writer.futures

/-! ## The steps keep it -/

section Steps

variable {bs : List (List Entry)} {d d' : BufData}

theorem BChunked.setShard (hC : BChunked bs d) {i : Nat} {sh : BShard} (hsh : Chunked bs sh.futures) (j : Nat) :
    Chunked bs ((d.shards.set i sh).getD j BShard.empty).futures := by
  rcases getD_set_cases d.shards i j sh BShard.empty with h | h <;> rw [h]
  · exact hsh
  · exact hC.shards j

theorem BChunked.setPending (hC : BChunked bs d) {i : Nat} {x : Option BShard}
    (hx : ∀ sh, x = some sh → Chunked bs sh.futures) (j : Nat) (sh : BShard)
    (h : (d.pending.set i x).getD j none = some sh) : Chunked bs sh.futures := by
  rcases getD_set_cases d.pending i j x none with h' | h' <;> rw [h'] at h
  · exact hx sh h
  · exact hC.pending j sh h

/-- A step that changes of the data only writer `k`'s pipe. -/
theorem BChunked.pipe (hC : BChunked bs d) (hs : d'.shards = d.shards) (hq : d'.pending = d.pending) {k : Nat}
    {p p' : BPipe} (hp : d.pipes[k]? = some p) (hpi : d'.pipes = d.pipes.set k p')
    (hf : Chunked bs p'.writer.futures) : BChunked bs d' := by
  refine ⟨fun i => hs ▸ hC.shards i, fun i sh h => hC.pending i sh (hq ▸ h), fun u q hu => ?_⟩
  rw [hpi] at hu
  rcases getElem?_set_eq_some hp hu with ⟨-, rfl⟩ | ⟨-, hu⟩
  · exact hf
  · exact hC.writers u q hu

theorem BChunked.benqueue (hC : BChunked bs s.data) (i : Nat) {new : BShard} (hnew : Chunked bs new.futures) :
    BChunked bs (benqueue cfg s i new).data := by
  unfold RedisPipe.Conn.benqueue
  dsimp only
  split_ifs
  · exact ⟨hC.setShard hnew, hC.pending, hC.writers⟩
  · exact ⟨hC.shards, hC.setPending (fun _ h => Option.some.inj h ▸ hnew), hC.writers⟩
  · exact ⟨hC.setShard hnew, hC.pending, hC.writers⟩

theorem BChunked.appends (hC : BChunked bs s.data) {i : Nat} {b : List Entry} (hb : b ∈ bs)
    (h : BAppends cfg s s' i b) : BChunked bs s'.data := by
  rcases h with ⟨rs, rfl⟩ | ⟨buf, rfl⟩
  · exact ⟨hC.shards, hC.pending, hC.writers⟩
  · exact hC.benqueue i ((hC.shards i).append (.of_mem hb))

/-- A writer step: the writer swaps its list with a shard's, keeps it, or empties it. -/
theorem BChunked.wstep (hC : BChunked bs s.data) {k : Nat} {sel : Sel} {ok : Bool}
    (h : bwstep cfg s k sel ok = some s') : BChunked bs s'.data := by
  unfold bwstep at h
  split at h
  · rename_i p one hp _
    dsimp only at h
    have keep : ∀ {s₁ : Sys BufData} {p' : BPipe}, s₁.data = s.data → p'.writer.futures = p.writer.futures →
        BChunked bs (s₁.bsetPipe k p').data := fun h₁ hf =>
      hC.pipe (by simp [h₁]) (by simp [h₁]) hp (by rw [Sys.bsetPipe_pipes, h₁]) (hf ▸ hC.writers k p hp)
    split at h
    next =>
      rcases bselect_inv h with ⟨i, rest, -, rfl⟩ | rfl | rfl
      · exact hC.pipe rfl rfl hp rfl (hC.writers k p hp)
      all_goals exact keep rfl rfl
    next => split at h <;> cases h <;> exact keep (by simp) rfl
    next =>
      rcases bselect_inv h with ⟨i, rest, -, rfl⟩ | rfl | rfl
      · exact hC.pipe rfl rfl hp rfl (hC.writers k p hp)
      all_goals exact keep rfl rfl
    next i hpc =>
      split at h
      · cases h
      have hsw : BChunked bs { s.data with shards := s.data.shards.set i ⟨p.writer.packet, p.writer.futures⟩ } :=
        ⟨hC.setShard (hC.writers k p hp), hC.pending, hC.writers⟩
      split at h
      · split at h <;> cases h
        · exact hsw
        · exact hsw.pipe rfl rfl hp rfl (hC.shards i)
      · cases h; exact hsw.pipe rfl rfl hp rfl (hC.shards i)
    next => split at h <;> cases h <;> exact keep rfl rfl
    next =>
      split at h
      · split at h <;> cases h <;> exact keep rfl rfl
      · cases h
    next => cases h; exact keep (by simp) rfl
    next =>
      split at h <;> cases h
      · exact hC.pipe rfl rfl hp rfl (.nil bs)
      · exact keep (by simp) rfl
    next => cases h
  · cases h

theorem BChunked.step (hC : BChunked bs s.data) {a : BAction} (hb : a.block ∈ bs) (h : bstep cfg ff s a = some s') :
    BChunked bs s'.data := by
  unfold bstep at h
  split_ifs at h
  cases a <;> simp only at h
  · rcases (mstep_bdata h).1 with hd | ⟨err, hd⟩ | hd <;> rw [hd]
    · exact hC
    · refine ⟨fun i => ?_, hC.pending, hC.writers⟩
      rw [BufData.drop, getD_map_empty]
      exact .nil bs
    · refine ⟨hC.shards, hC.pending, fun u q hu => ?_⟩
      rcases getElem?_concat_eq_some hu with hu | rfl
      · exact hC.writers u q hu
      · exact .nil bs
  · split_ifs at h; exact hC.appends hb (bsendAsk_appends h)
  · split_ifs at h; exact hC.appends hb (bsendBatchFlags_appends h)
  · split_ifs at h; exact hC.appends hb (bsendTransaction_appends h)
  · obtain ⟨sh, hsh, rfl⟩ := bresume_cases h
    exact ⟨hC.setShard (hC.pending _ sh hsh), hC.setPending (by simp), hC.writers⟩
  · exact hC.wstep h
  · obtain ⟨p, p', hp, hq, hw⟩ := brstep_cases h
    exact hC.pipe hq.1 hq.2.1 hp hq.2.2.2 (by rw [hw]; exact hC.writers _ p hp)
  · cases h; exact hC

theorem BPipe.writerEvents_handed (p : BPipe) (ok : Bool) :
    (p.writerEvents cfg ok).flatMap SessionEvent.handed = [] ∨
      (p.writerEvents cfg ok).flatMap SessionEvent.handed = p.writer.futures := by
  unfold BPipe.writerEvents
  split <;> (try split) <;> simp [SessionEvent.handed]

theorem BPipe.readerEvents_handed (p : BPipe) : p.readerEvents.flatMap SessionEvent.handed = [] := by
  unfold BPipe.readerEvents
  split <;> simp [SessionEvent.handed]

/-- What a step hands to session `k`'s reader is a writer's list. -/
theorem BChunked.events (hC : BChunked bs s.data) (k : Nat) (a : BAction) :
    Chunked bs ((sessionEvents cfg k s a).flatMap SessionEvent.handed) := by
  cases a
  case writer k' sel ok =>
    simp only [sessionEvents]
    split_ifs
    · cases hp : s.data.pipes[k]? with
      | none => exact .nil bs
      | some p =>
        simp only [Option.map_some', Option.getD_some]
        rcases BPipe.writerEvents_handed p ok with h | h <;> rw [h]
        · exact .nil bs
        · exact hC.writers k p hp
    · exact .nil bs
  case reader k' r =>
    simp only [sessionEvents]
    split_ifs
    · cases s.data.pipes[k]? <;> simpa [BPipe.readerEvents_handed] using Chunked.nil bs
    · exact .nil bs
  all_goals exact .nil bs

end Steps

/-! ## Whole runs -/

theorem BChunked.initial (bs : List (List Entry)) : BChunked bs (BufData.initial cfg) := by
  refine ⟨fun i => ?_, fun i sh h => ?_, fun k p h => by simp [BufData.initial] at h⟩
  · simp only [BufData.initial, List.getD_eq_getElem?_getD, List.getElem?_replicate]
    split_ifs <;> exact .nil bs
  · simp only [BufData.initial, List.getD_eq_getElem?_getD, List.getElem?_replicate] at h
    split_ifs at h <;> cases h

theorem BChunked.run {bs : List (List Entry)} (hC : BChunked bs s.data) {k : Nat} {tr : List SessionEvent}
    (ht : Chunked bs (tr.flatMap SessionEvent.handed)) {as : List BAction} (hb : ∀ a ∈ as, a.block ∈ bs)
    (h : brun cfg ff s as = some s') : Chunked bs ((tr ++ sessionTrace cfg ff k s as).flatMap SessionEvent.handed) := by
  induction as generalizing s tr with
  | nil => simpa [sessionTrace] using ht
  | cons a as ih =>
    obtain ⟨s₁, h₁, h⟩ := Option.bind_eq_some.mp h
    simp only [sessionTrace, h₁, ← List.append_assoc]
    refine ih (hC.step (hb a (.head _)) h₁) ?_ (fun a' ha' => hb a' (.tail _ ha')) h
    rw [List.flatMap_append]
    exact ht.append (hC.events k a)

/-! ## Calls stay whole -/

/-- **A call's entries reach a session's socket together.** Along every run from
`Connect`'s state, the entries each session's writer has sent on `one.futures`, whose
requests are the ones on its socket, are whole blocks of the run's calls one after another:
each `ASKING` marker with the request it was sent for, and each batch's markers, requests
and `EXEC`, never split and never interleaved with another call's entries. -/
theorem calls_contiguous {as : List BAction} (h : brun cfg ff (Sys.initial cfg (BufData.initial cfg)) as = some s)
    (k : Nat) :
    ∃ cs : List (List Entry), (∀ c ∈ cs, ∃ a ∈ as, c = a.block) ∧
      (sessionTrace cfg ff k (Sys.initial cfg (BufData.initial cfg)) as).flatMap SessionEvent.handed = cs.flatten := by
  have ht : Chunked (as.map BAction.block) (([] : List SessionEvent).flatMap SessionEvent.handed) := .nil _
  obtain ⟨cs, hc, he⟩ := (BChunked.initial _).run ht (fun a ha => List.mem_map_of_mem _ ha) h
  refine ⟨cs, fun c hm => ?_, by simpa using he⟩
  obtain ⟨a, ha, rfl⟩ := List.mem_map.mp (hc c hm)
  exact ⟨a, ha, rfl⟩

/-- `Send(PING)` on a fresh connection: session 0's writer hands over the one entry of the
call's block. -/
theorem calls_contiguous_ping :
    ∃ s, brun oneShard noFloats (Sys.initial oneShard (BufData.initial oneShard)) (connectPing ++ deliverPing) = some s ∧
      (sessionTrace oneShard noFloats 0 (Sys.initial oneShard (BufData.initial oneShard))
          (connectPing ++ deliverPing)).flatMap SessionEvent.handed = [⟨.cb 1, 0, pingReq⟩] ∧
      ∃ cs : List (List Entry), (∀ c ∈ cs, ∃ a ∈ connectPing ++ deliverPing, c = a.block) ∧
        (sessionTrace oneShard noFloats 0 (Sys.initial oneShard (BufData.initial oneShard))
          (connectPing ++ deliverPing)).flatMap SessionEvent.handed = cs.flatten := by
  obtain ⟨s, h, -⟩ := @brun_of_any oneShard noFloats (Sys.initial oneShard (BufData.initial oneShard))
    (connectPing ++ deliverPing) (fun _ => true) (by decide)
  exact ⟨s, h, by decide, calls_contiguous h 0⟩

end RedisPipe.Conn
