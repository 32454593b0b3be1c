import RedisPipe.Buffered.System

/-!
# What a batch call of the buffered version resolves

`redisconn/conn.go:292-383`. `SendBatchFlags` either appends one entry per index to a
shard, or is meant to resolve every index with an error. Three of its paths do neither for
some index:

* on a closed or disconnected connection the `switch` stores the error in `err` and
  returns, before the `if err != nil` that would resolve the indices;
* an empty batch returns at once, even under `DoTransaction`, whose `EXEC` index
  `start+len(requests)` is then never resolved;
* a request the encoder refuses resolves the indices of the requests, `start` to
  `start+len(requests)-1`, and not the `EXEC` index.

`SendTransaction` wraps its future so that only the `EXEC` index reaches it, so on each of
these paths an active `SendTransaction` resolves nothing at all (`bsendTransaction_silent`,
`bsendTransaction_refused`); `transaction_never_resolved` shows both at reachable states.
-/

set_option autoImplicit false

namespace RedisPipe.Conn

variable {cfg : Config} {ff : FloatFormat} {s : Sys BufData} {i : Nat} {reqs : List Request}
  {cb : Nat} {off : BitVec 64}

/-- A producer's `SendTransaction` on a connection `Connect` has returned. -/
theorem bstep_sendTransaction (hpan : s.panicked = none) (hret : s.returned = true)
    (hi : i < cfg.concurrency) (inactive inactiveLater : Bool) :
    bstep cfg ff s (.sendTransaction i reqs cb off inactive inactiveLater) =
      bsendTransaction cfg ff s i reqs cb off inactive inactiveLater := by
  simp [bstep, hpan, hret, hi]

/-! ## The silent paths -/

/-- **An active `SendTransaction` of no requests, or on a closed or disconnected connection,
changes nothing**: no entry is appended and no future is resolved. -/
theorem bsendTransaction_silent (hlock : s.data.locked i = false)
    (h : reqs = [] ∨ s.state = .closed ∨ s.state = .disconnected) :
    bsendTransaction cfg ff s i reqs cb off false false = some s := by
  simp only [bsendTransaction, bsendBatchFlags, Bool.false_eq_true, if_false, hlock]
  rcases h with rfl | h | h
  · simp
  all_goals simp [h]

/-! ## A refused request -/

/-- The batch's encoding loop stops at a request the encoder refuses, whatever it has
written before. -/
theorem appendBatch_refused (f : Future) (start : BitVec 64)
    (h : ∃ r ∈ reqs, (respAppendRequest ff [] r).2.isSome) (j : Nat) (buf : Bytes) (futures : List Entry) :
    ∃ pos r e, appendBatch ff f start j buf futures reqs = .inr (pos, r, e) := by
  induction reqs generalizing j buf futures with
  | nil => simp at h
  | cons r rs ih =>
    have hsnd : (respAppendRequest ff buf r).2 = (respAppendRequest ff [] r).2 := appendRequest_snd ff buf r
    rcases hr : respAppendRequest ff buf r with ⟨b, _ | e⟩
    · rw [hr] at hsnd
      have hbad : ∃ r' ∈ rs, (respAppendRequest ff [] r').2.isSome := by
        obtain ⟨r', hr', hs⟩ := h
        rcases List.mem_cons.mp hr' with rfl | hr'
        · simp [← hsnd] at hs
        · exact ⟨r', hr', hs⟩
      simp only [appendBatch, hr]
      exact ih hbad _ _ _
    · exact ⟨j, r, e, by simp only [appendBatch, hr]⟩

/-- The calls of a refused transaction reach nothing of `cb`: they are for the indices of
its requests, and the wrapper forwards only the index `len`. -/
theorem batchResolutions_transaction (len : Nat) (errpos : Option Nat) (err commonerr : RedisError)
    (hlen : len < 2 ^ 64) :
    (batchResolutions (.transaction cb (.ofNat 64 len) off) 0 len errpos err commonerr).filterMap
      Resolution.delivered = [] := by
  simp only [batchResolutions, List.filterMap_eq_nil_iff, List.mem_map, List.mem_range]
  rintro _ ⟨j, hj, rfl⟩
  have hne : BitVec.ofNat 64 j ≠ .ofNat 64 len := fun h => by
    have := congrArg BitVec.toNat h
    simp only [BitVec.toNat_ofNat] at this
    omega
  simp [Resolution.delivered, hne]

/-- **An active `SendTransaction` with a request the encoder refuses delivers nothing to
`cb`**: its calls are for the indices of the requests, and the `EXEC` index, the only one
the wrapper forwards, is never resolved. -/
theorem bsendTransaction_refused (hst : s.state ≠ .closed ∧ s.state ≠ .disconnected)
    (hlock : s.data.locked i = false) (hbad : ∃ r ∈ reqs, (respAppendRequest ff [] r).2.isSome)
    (hlen : reqs.length < 2 ^ 64) :
    ∃ rs, bsendTransaction cfg ff s i reqs cb off false false = some (s.blog rs) ∧
      rs.filterMap Resolution.delivered = [] := by
  have hne : reqs ≠ [] := by rintro rfl; simp at hbad
  unfold bsendTransaction bsendBatchFlags
  simp only [hne, if_false, Bool.false_eq_true, hlock]
  cases hs : s.state with
  | closed => exact absurd hs hst.1
  | disconnected => exact absurd hs hst.2
  | connecting | connected =>
    dsimp only
    obtain ⟨pos, r, e, he⟩ := appendBatch_refused (.transaction cb (.ofNat 64 reqs.length) off) 0 hbad 0 _ _
    rw [he]
    exact ⟨_, rfl, batchResolutions_transaction _ _ _ _ hlen⟩

/-! ## At reachable states -/

/-- The facts about a state that let a producer's call on shard 0 run. -/
def callable (s : Sys BufData) : Bool := s.returned && s.panicked.isNone && !s.data.locked 0

theorem callable_iff (s : Sys BufData) :
    callable s = true ↔ s.returned = true ∧ s.panicked = none ∧ s.data.locked 0 = false := by
  simp [callable, and_assoc]

theorem transaction_never_resolved :
    (∃ s, BReachable oneShard noFloats s ∧ s.state = .disconnected ∧
      bstep oneShard noFloats s (.sendTransaction 0 [pingReq] 7 0 false false) = some s) ∧
    ∃ s, BReachable oneShard noFloats s ∧ s.state = .connected ∧
      bstep oneShard noFloats s (.sendTransaction 0 [] 7 0 false false) = some s ∧
      ∃ rs, bstep oneShard noFloats s (.sendTransaction 0 [setOther] 7 0 false false) = some (s.blog rs) ∧
        rs.filterMap Resolution.delivered = [] := by
  obtain ⟨s, hs, hp⟩ := @exists_breachable_of_run oneShard noFloats
    (List.replicate 6 (BAction.manager 0 .ok) ++
      [BAction.writer 0 .default true, BAction.writer 0 .default false, BAction.manager 2 .ok, BAction.manager 2 .ok])
    (fun s => s.state == .disconnected && callable s) rfl
  obtain ⟨c, hc, hcall⟩ := @exists_breachable_of_run oneShard noFloats (List.replicate 6 (BAction.manager 0 .ok))
    (fun s => s.state == .connected && callable s) rfl
  simp only [Bool.and_eq_true, beq_iff_eq, callable_iff] at hp hcall
  obtain ⟨hst, hret, hpan, hlock⟩ := hp
  obtain ⟨hcst, hcret, hcpan, hclock⟩ := hcall
  obtain ⟨rs, hrs, hdel⟩ := @bsendTransaction_refused oneShard noFloats c 0 [setOther] 7 0
    (by simp [hcst]) hclock ⟨setOther, List.mem_singleton_self _, rfl⟩ (by decide)
  exact ⟨⟨s, hs, hst, (bstep_sendTransaction hpan hret (by decide) _ _).trans
      (bsendTransaction_silent hlock (.inr (.inr hst)))⟩,
    c, hc, hcst, (bstep_sendTransaction hcpan hcret (by decide) _ _).trans (bsendTransaction_silent hclock (.inl rfl)),
    rs, (bstep_sendTransaction hcpan hcret (by decide) _ _).trans hrs, hdel⟩

end RedisPipe.Conn
