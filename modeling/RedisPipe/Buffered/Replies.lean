import RedisPipe.Buffered.Delivery

/-!
# Every call of the buffered version carries a response or an error

`redisconn/conn.go:250-383` (the producers' refusals), `:550-567` (`dropShardFutures`),
`:618-628` (`setErr`), `:646-721` (the writer) and `:723-748` (the reader). A future is
called by a producer that refuses its request, by `dropShardFutures(err)`, or by its
session's reader: with the response it read, or with `one.err` once it has stopped reading.
`one.err` is nil until `setErr` runs its once-latch, and a call with a nil error reads as a
success, so the reader must never call with `one.err` before its session's `setErr`.

* `replies_settled`: in every reachable state of the buffered version, every call made so
  far hands its future a response read off the socket or a non-nil error.

The reader stops reading in two ways. After a hard error it runs `setErr` itself, and
`one.err` is set from then on: the latch sets it on its first run and no later run resets
it. Otherwise the range over `one.futures` ends because the writer closed the channel as it
returned; the range has then taken every batch, the current one is used up, and the drain
finds nothing. The invariant `Settled` says this of every pipe (`PipeSettled`), with the
latch's own invariant (`LatchWf`).
-/

set_option autoImplicit false

namespace RedisPipe.Conn

variable {cfg : Config} {ff : FloatFormat} {s s' : Sys BufData}

/-! ## Settled calls and the session latch -/

/-- A call that hands its future a response or an error. -/
def Resolution.Settled (r : Resolution) : Prop := (∃ v, r.res = .value v) ∨ ∃ e, r.res = .error e

theorem callAll_settled (es : List Entry) (e : RedisError) : ∀ r ∈ callAll es (.error e), r.Settled := by
  simp [callAll, Resolution.Settled]

/-- A drain with `one.err` calls with an error, and one that has nothing left calls no one. -/
theorem callAll_ofErr_settled {es : List Entry} {err : Option RedisError} (h : es = [] ∨ ∃ e, err = some e) :
    ∀ r ∈ callAll es (Reply.ofErr err), r.Settled := by
  rcases h with rfl | ⟨e, rfl⟩
  · simp [callAll]
  · exact callAll_settled es e

/-- Every session whose latch has run has its `one.err`. -/
def LatchWf (ss : List Session) : Prop :=
  ∀ (k : Nat) (one : Session), ss[k]? = some one → one.errOnce = true → ∃ e, one.err = some e

/-- Session `k`'s `one.err` is set. -/
def ErrSet (ss : List Session) (k : Nat) : Prop := ∃ one e, ss[k]? = some one ∧ one.err = some e

/-- The sessions move on keeping the latches well formed and every `one.err` set. -/
def KeepsErr (ss ss' : List Session) : Prop := (LatchWf ss → LatchWf ss') ∧ ∀ k, ErrSet ss k → ErrSet ss' k

section Latch

variable {ss : List Session} {k : Nat}

theorem KeepsErr.refl (ss : List Session) : KeepsErr ss ss := ⟨id, fun _ => id⟩

theorem ErrSet.getD (h : ErrSet ss k) (d : Session) : ∃ e, (ss.getD k d).err = some e := by
  obtain ⟨one, e, hk, he⟩ := h
  exact ⟨e, by simp [List.getD_eq_getElem?_getD, hk, he]⟩

theorem closeSock_getElem? (ss : List Session) (c : Option Nat) (k : Nat) :
    (closeSock ss c)[k]? = ss[k]?.map fun one => if c = some k then { one with sockClosed := true } else one := by
  cases c <;> simp [closeSock, List.getElem?_modify]

/-- `closeConnection` marks a socket closed, which no latch reads. -/
theorem KeepsErr.closeSock (ss : List Session) (c : Option Nat) : KeepsErr ss (closeSock ss c) := by
  refine ⟨fun hL j one hj => ?_, fun j ⟨one, e, hj, he⟩ => ⟨_, e, by rw [closeSock_getElem?, hj]; rfl, ?_⟩⟩
  · rw [closeSock_getElem?] at hj
    obtain ⟨one', hj', rfl⟩ := Option.map_eq_some'.mp hj
    split_ifs <;> exact hL j one' hj'
  · split_ifs <;> exact he

/-- `dial` starts a session whose latch has not run. -/
theorem KeepsErr.fresh (ss : List Session) : KeepsErr ss (ss ++ [Session.fresh]) := by
  refine ⟨fun hL j one hj ho => ?_, fun j ⟨one, e, hj, he⟩ =>
    ⟨one, e, by rw [List.getElem?_append_left (List.getElem?_eq_some_iff.mp hj).1, hj], he⟩⟩
  rcases getElem?_concat_eq_some hj with hj | rfl
  · exact hL j one hj ho
  · cases ho

/-- `erronce.Do` sets `one.err` on its first run, and a later run changes nothing. -/
theorem KeepsErr.setErr {D : Type} (s : Sys D) (k : Nat) (e : RedisError) :
    KeepsErr s.sessions (s.setErrBuffered k e).sessions := by
  unfold Sys.setErrBuffered
  split
  · exact KeepsErr.refl _
  rename_i one hk
  dsimp only
  split_ifs
  · exact KeepsErr.refl _
  refine ⟨fun hL j one' hj ho => ?_, fun j ⟨one', e', hj, he⟩ => ?_⟩
  · rcases getElem?_set_eq_some hk hj with ⟨-, rfl⟩ | ⟨-, hj⟩
    · exact ⟨_, rfl⟩
    · exact hL j one' hj ho
  · by_cases hkj : k = j
    · subst hkj; exact ⟨_, _, List.getElem?_set_self (List.getElem?_eq_some_iff.mp hk).1, rfl⟩
    · exact ⟨one', e', by rw [List.getElem?_set_ne hkj, hj], he⟩

/-- After `setErr` on a session, its `one.err` is set. -/
theorem errSet_setErr {D : Type} {s : Sys D} {one : Session} (hL : LatchWf s.sessions)
    (hk : s.sessions[k]? = some one) (e : RedisError) : ErrSet (s.setErrBuffered k e).sessions k := by
  simp only [Sys.setErrBuffered, hk]
  split_ifs with ho
  · obtain ⟨e', he'⟩ := hL k one hk ho
    exact ⟨one, e', hk, he'⟩
  · exact ⟨_, _, List.getElem?_set_self (List.getElem?_eq_some_iff.mp hk).1, rfl⟩

/-! ### Sessions under the manager -/

theorem Sys.ccReturn_sessions {D : Type} (s : Sys D) (t : Nat) (th : Thread) (err : Option RedisError) :
    (s.ccReturn t th err).sessions = s.sessions := by
  unfold Sys.ccReturn; split <;> rfl

/-- A manager step marks the current socket closed, starts a session, or leaves the sessions
alone. -/
theorem mstep_sessions {D : Type} {ops : DataOps D} {s s' : Sys D} {t : Nat} {dial : DialResult}
    (h : mstep ops cfg s t dial = some s') :
    s'.sessions = s.sessions ∨ s'.sessions = closeSock s.sessions s.c ∨
      s'.sessions = s.sessions ++ [Session.fresh] := by
  unfold mstep at h
  split at h
  · cases h
  split at h
  case h_3 =>
    split_ifs at h <;> (try split at h) <;> cases h <;> first | exact .inl rfl | exact .inr (.inl rfl)
  case h_6 =>
    split at h
    · split_ifs at h; cases h; exact .inr (.inr rfl)
    · cases h; exact .inl rfl
  case h_1 =>
    split at h
    · split_ifs at h <;> cases h <;> exact .inl rfl
    · cases h
  all_goals first
    | (cases h; done)
    | (cases h; exact .inl rfl)
    | (cases h; exact .inl (Sys.ccReturn_sessions _ _ _ _))
    | (split_ifs at h <;> cases h <;> first
        | exact .inl rfl
        | exact .inl (Sys.ccReturn_sessions _ _ _ _))

end Latch

/-! ## The invariant -/

/-- The reader's points after it has stopped reading, where it calls with `one.err`. -/
def BRPc.draining : BRPc → Bool
  | .drainCurrent _ | .drainChan => true
  | _ => false

/-- Session `k`'s pipe `p`: only a returning writer closes `one.futures`, and a draining
reader has its session's `one.err` set, or has nothing left to drain. -/
structure PipeSettled (ss : List Session) (k : Nat) (p : BPipe) : Prop where
  closed : p.chanClosed = true → p.writer.pc = .done
  drain : p.reader.draining = true → ErrSet ss k ∨ (p.chanClosed = true ∧ p.chan = [] ∧ p.reader.owed = [])

/-- Every call so far is settled, and every later one will be. -/
structure Settled (s : Sys BufData) : Prop where
  latch : LatchWf s.sessions
  pipes : ∀ (k : Nat) (p : BPipe), s.data.pipes[k]? = some p → PipeSettled s.sessions k p
  resolved : ∀ r ∈ s.data.resolved, r.Settled

theorem PipeSettled.mono {ss ss' : List Session} {k : Nat} {p : BPipe} (h : PipeSettled ss k p)
    (hk : KeepsErr ss ss') : PipeSettled ss' k p :=
  ⟨h.closed, fun hd => (h.drain hd).imp (hk.2 k) id⟩

theorem Settled.initial : Settled (Sys.initial cfg (BufData.initial cfg)) where
  latch := by simp [LatchWf, Sys.initial]
  pipes := by simp [Sys.initial, BufData.initial]
  resolved := by simp [Sys.initial, BufData.initial]

/-- What a writer step shows the calls: it runs on a writer that has not returned, calls no
future, keeps its reader, closes `one.futures` only as it returns, and runs at most its own
session's `setErr`. -/
theorem bwstep_latch {k : Nat} {sel : Sel} {ok : Bool} (h : bwstep cfg s k sel ok = some s') :
    ∃ p, s.data.pipes[k]? = some p ∧ p.writer.pc ≠ .done ∧ s'.data.resolved = s.data.resolved ∧
      KeepsErr s.sessions s'.sessions ∧
      (s'.data.pipes = s.data.pipes ∨ ∃ p', s'.data.pipes = s.data.pipes.set k p' ∧ p'.reader = p.reader ∧
        (p'.chanClosed = p.chanClosed ∨ p'.writer.pc = .done)) := by
  unfold bwstep at h
  split at h
  · rename_i p one hp _
    dsimp only at h
    refine ⟨p, hp, fun hd => by simp [hd] at h, ?_⟩
    repeat' split at h
    all_goals first
      | (cases h; done)
      | (rcases bselect_inv h with ⟨i, rest, -, rfl⟩ | rfl | rfl <;>
          exact ⟨rfl, KeepsErr.refl _, .inr ⟨_, rfl, rfl, by simp [BPipe.goto]⟩⟩)
      | (cases h; exact ⟨rfl, KeepsErr.refl _, .inr ⟨_, rfl, rfl, by simp [BPipe.goto, BPipe.handOver]⟩⟩)
      | (cases h; exact ⟨by simp, KeepsErr.setErr _ _ _, .inr ⟨p.exit, by simp, rfl, by simp⟩⟩)
      | (cases h; exact ⟨rfl, KeepsErr.refl _, .inl rfl⟩)
  · cases h

section Preservation

variable (hS : Settled s)
include hS

/-- A step that makes only settled calls keeps every call settled. -/
theorem Settled.calls (hr : ∃ rs, s'.data.resolved = s.data.resolved ++ rs ∧ ∀ r ∈ rs, r.Settled) :
    ∀ r ∈ s'.data.resolved, r.Settled := by
  obtain ⟨rs, hres, hrs⟩ := hr
  exact fun r h => (List.mem_append.mp (hres ▸ h)).elim (hS.resolved r) (hrs r)

/-- A step that leaves every pipe alone or starts a fresh one, and makes only settled
calls. -/
theorem Settled.keep (hk : KeepsErr s.sessions s'.sessions)
    (hp : ∀ (j : Nat) (q : BPipe), s'.data.pipes[j]? = some q → s.data.pipes[j]? = some q ∨ q = BPipe.fresh)
    (hr : ∃ rs, s'.data.resolved = s.data.resolved ++ rs ∧ ∀ r ∈ rs, r.Settled) : Settled s' := by
  refine ⟨hk.1 hS.latch, fun j q hq => ?_, hS.calls hr⟩
  rcases hp j q hq with hq | rfl
  · exact (hS.pipes j q hq).mono hk
  · exact ⟨by simp [BPipe.fresh], by simp [BPipe.fresh, BRPc.draining]⟩

/-- A step that changes only pipe `k`, to a pipe that is settled, and makes only settled
calls. -/
theorem Settled.setPipe {k : Nat} {p p' : BPipe} (hp : s.data.pipes[k]? = some p)
    (hk : KeepsErr s.sessions s'.sessions) (hpi : s'.data.pipes = s.data.pipes.set k p')
    (hr : ∃ rs, s'.data.resolved = s.data.resolved ++ rs ∧ ∀ r ∈ rs, r.Settled)
    (hq : PipeSettled s'.sessions k p') : Settled s' := by
  refine ⟨hk.1 hS.latch, fun j q hj => ?_, hS.calls hr⟩
  rw [hpi] at hj
  rcases getElem?_set_eq_some hp hj with ⟨rfl, rfl⟩ | ⟨-, hj⟩
  · exact hq
  · exact (hS.pipes j q hj).mono hk

/-- `setPipe` for a step that sets pipe `k` of a state `s₁` with the pipes of `s`. -/
theorem Settled.bsetPipe {s₁ : Sys BufData} {k : Nat} {p p' : BPipe} (hp : s.data.pipes[k]? = some p)
    (hk : KeepsErr s.sessions s₁.sessions) (hd : s₁.data.pipes = s.data.pipes)
    (hr : ∃ rs, s₁.data.resolved = s.data.resolved ++ rs ∧ ∀ r ∈ rs, r.Settled)
    (hq : PipeSettled s₁.sessions k p') : Settled (s₁.bsetPipe k p') :=
  hS.setPipe hp hk (by rw [Sys.bsetPipe_pipes, hd]) hr hq

theorem Settled.blog {rs : List Resolution} (hrs : ∀ r ∈ rs, r.Settled) : Settled (s.blog rs) :=
  hS.keep (KeepsErr.refl _) (fun _ _ h => .inl h) ⟨rs, rfl, hrs⟩

theorem Settled.benqueue (i : Nat) (new : BShard) : Settled (benqueue cfg s i new) :=
  hS.keep (by unfold RedisPipe.Conn.benqueue; dsimp only; split_ifs <;> exact KeepsErr.refl _)
    (fun _ _ h => .inl (by simpa using h)) ⟨[], by simp, by simp⟩

/-! ### Producers -/

theorem Settled.sendAsk {i : Nat} {req : Request} {cb : Future} {n : BitVec 64} {asking inactive : Bool}
    (h : bsendAsk cfg ff s i req cb n asking inactive = some s') : Settled s' := by
  obtain ⟨⟨s₁, e⟩, h₁, rfl⟩ := Option.map_eq_some'.mp h
  rcases bdoSend_entries h₁ with rfl | ⟨rfl, -, buf, rfl⟩
  · cases e
    · exact hS
    · exact hS.blog (by simp [Resolution.Settled])
  · exact hS.benqueue i _

theorem Settled.sendBatchFlags {i : Nat} {reqs : List Request} {cb : Future} {start : BitVec 64} {flags : Nat}
    {inactive : Bool} (h : bsendBatchFlags cfg ff s i reqs cb start flags inactive = some s') : Settled s' := by
  rcases bsendBatchFlags_inv h with ⟨rs, rfl, -, hrs⟩ | ⟨-, -, buf, rfl⟩
  · exact hS.blog fun r hr => .inr (hrs r hr)
  · exact hS.benqueue i _

theorem Settled.sendTransaction {i : Nat} {reqs : List Request} {cb : Nat} {off : BitVec 64}
    {inactive inactiveLater : Bool} (h : bsendTransaction cfg ff s i reqs cb off inactive inactiveLater = some s') :
    Settled s' := by
  unfold bsendTransaction at h
  split_ifs at h
  · cases h; exact hS.blog (by simp [Resolution.Settled])
  · exact hS.sendBatchFlags h

/-! ### Writers, readers and every step -/

theorem Settled.wstep {k : Nat} {sel : Sel} {ok : Bool} (h : bwstep cfg s k sel ok = some s') : Settled s' := by
  obtain ⟨p, hp, hpc, hres, hk, hpi⟩ := bwstep_latch h
  have hq := hS.pipes k p hp
  rcases hpi with hpi | ⟨p', hpi, hr, hc⟩
  · exact hS.keep hk (fun _ _ h => .inl (hpi ▸ h)) ⟨[], by simp [hres], by simp⟩
  -- a writer that has not returned has not closed the channel, so a draining reader of its
  -- session has `one.err` set
  have hopen : p.chanClosed = false := Bool.eq_false_iff.mpr fun hcl => hpc (hq.closed hcl)
  exact hS.setPipe hp hk hpi ⟨[], by simp [hres], by simp⟩
    ⟨fun hc' => hc.resolve_left (by simp [hc', hopen]),
      fun hd => .inl (hk.2 k ((hq.drain (hr ▸ hd)).resolve_right (by simp [hopen])))⟩

theorem Settled.rstep {k : Nat} {r : ReadResult} (h : brstep s k r = some s') : Settled s' := by
  unfold brstep at h
  split at h
  · rename_i p one hp hk
    have hq := hS.pipes k p hp
    have herr : ErrSet s.sessions k → ∃ e, one.err = some e := fun ⟨one', e, hk', he⟩ =>
      ⟨e, by rwa [Option.some.inj (hk.symm.trans hk')]⟩
    split at h
    -- `for futures = range one.futures`
    next hpr =>
      split at h
      · cases h
        refine hS.bsetPipe hp ?_ ?_ ?_ ?_
        exacts [.refl _, rfl, ⟨[], by simp, by simp⟩, ⟨hq.closed, by simp [BRPc.draining]⟩]
      · rename_i hch
        split at h <;> cases h
        refine hS.bsetPipe hp ?_ ?_ ?_ ?_
        exacts [.refl _, rfl, ⟨[], by simp, by simp⟩, ⟨hq.closed, fun _ => .inr ⟨‹_›, hch, rfl⟩⟩]
    next hpr =>
      cases h
      refine hS.bsetPipe hp ?_ ?_ ?_ ?_
      exacts [.refl _, rfl, ⟨[], by simp, by simp⟩, ⟨hq.closed, by simp [BRPc.draining]⟩]
    -- `res = resp.Read(r)`: a hard error runs `setErr` before the call with `one.err`
    next fut rest hpr =>
      split at h <;> cases h
      · rename_i e
        have he := errSet_setErr hS.latch hk e
        obtain ⟨e', he'⟩ := he.getD one
        refine hS.bsetPipe hp (.setErr _ _ _) (by simp) ⟨_, by rw [Sys.blog_resolved, Sys.setErrBuffered_data], ?_⟩ ?_
        · rw [he']; simp [Reply.ofErr, Resolution.Settled]
        · exact ⟨hq.closed, fun _ => .inl he⟩
      all_goals
        refine hS.bsetPipe hp ?_ ?_ ?_ ?_
        exacts [.refl _, rfl, ⟨_, rfl, by simp [Resolution.Settled]⟩, ⟨hq.closed, by simp [BRPc.draining]⟩]
    -- the drain of the current batch
    next rest hpr =>
      cases h
      rcases hq.drain (by simp [hpr, BRPc.draining]) with hset | ⟨hc, hch, hrest⟩
      · refine hS.bsetPipe hp ?_ ?_ ?_ ?_
        exacts [.refl _, rfl, ⟨_, rfl, callAll_ofErr_settled (.inr (herr hset))⟩, ⟨hq.closed, fun _ => .inl hset⟩]
      · refine hS.bsetPipe hp ?_ ?_ ?_ ?_
        exacts [.refl _, rfl, ⟨_, rfl, callAll_ofErr_settled (.inl (by simpa [hpr, BRPc.owed] using hrest))⟩,
          ⟨hq.closed, fun _ => .inr ⟨hc, hch, rfl⟩⟩]
    -- the drain of `one.futures`
    next hpr =>
      split at h
      · rename_i b rest hch
        cases h
        have hset := (hq.drain (by simp [hpr, BRPc.draining])).resolve_right fun ⟨_, h', _⟩ => by simp [hch] at h'
        refine hS.bsetPipe hp ?_ ?_ ?_ ?_
        exacts [.refl _, rfl, ⟨_, rfl, callAll_ofErr_settled (.inr (herr hset))⟩, ⟨hq.closed, fun _ => .inl hset⟩]
      · split at h <;> cases h
        refine hS.bsetPipe hp ?_ ?_ ?_ ?_
        exacts [.refl _, rfl, ⟨[], by simp, by simp⟩, ⟨hq.closed, by simp [BRPc.draining]⟩]
    next => cases h
  · cases h

theorem Settled.mstep {t : Nat} {dial : DialResult} (h : mstep bufOps cfg s t dial = some s') : Settled s' := by
  have hk : KeepsErr s.sessions s'.sessions := by
    rcases mstep_sessions h with hs | hs | hs <;> rw [hs]
    · exact KeepsErr.refl _
    · exact KeepsErr.closeSock _ _
    · exact KeepsErr.fresh _
  rcases (mstep_bdata h).1 with hd | ⟨err, hd⟩ | hd
  · exact hS.keep hk (fun _ _ h => .inl (by rwa [hd] at h)) ⟨[], by simp [hd], by simp⟩
  · exact hS.keep hk (fun _ _ h => .inl (by rwa [hd] at h)) ⟨_, by rw [hd]; rfl, callAll_settled _ err⟩
  · exact hS.keep hk (fun _ _ h => getElem?_concat_eq_some (by rwa [hd] at h)) ⟨[], by simp [hd], by simp⟩

theorem Settled.step {a : BAction} (h : bstep cfg ff s a = some s') : Settled s' := by
  unfold bstep at h
  split_ifs at h
  cases a <;> simp only at h
  · exact hS.mstep h
  · split_ifs at h; exact hS.sendAsk h
  · split_ifs at h; exact hS.sendBatchFlags h
  · split_ifs at h; exact hS.sendTransaction h
  · obtain ⟨sh, -, rfl⟩ := bresume_cases h
    exact hS.keep (.refl _) (fun _ _ h => .inl h) ⟨[], by simp, by simp⟩
  · exact hS.wstep h
  · exact hS.rstep h
  · cases h; exact hS.keep (.refl _) (fun _ _ h => .inl h) ⟨[], by simp, by simp⟩

end Preservation

theorem BReachable.settled (hs : BReachable cfg ff s) : Settled s := by
  induction hs with
  | init => exact Settled.initial
  | step a _ h ih => exact ih.step h

/-! ## Every call is settled -/

/-- **Every call of the buffered version hands its future a response or an error.** In every
reachable state, every call made so far, a producer's refusal, `dropShardFutures` or the
reader's, carries a response the reader read or a non-nil error: the reader never calls with
the nil `one.err` of a session whose `setErr` has not run. -/
theorem replies_settled (hs : BReachable cfg ff s) :
    ∀ r ∈ s.data.resolved, (∃ v, r.res = .value v) ∨ ∃ e, r.res = .error e :=
  hs.settled.resolved

/-- `Connect`, two `PING`s in one batch; the reader reads a hard error for the first, which
ends the session, and drains the second with `one.err`. -/
def hardErrorPing : List BAction :=
  connectPing ++ [.sendAsk 0 pingReq (.cb 1) 1 false false,
    .writer 0 .recv true, .writer 0 .recv true, .writer 0 .recv true, .writer 0 .recv true,
    .reader 0 (.value 1), .reader 0 (.redisError (netError 0) true), .reader 0 (.value 1)]

theorem replies_settled_hardError :
    ∃ s, BReachable oneShard noFloats s ∧
      s.data.resolved.map Resolution.res =
        [.error ((netError 0).withField .connection), .error ((netError 0).withField .connection)] ∧
      ∀ r ∈ s.data.resolved, (∃ v, r.res = .value v) ∨ ∃ e, r.res = .error e := by
  obtain ⟨s, hs, hp⟩ := @exists_breachable_of_run oneShard noFloats hardErrorPing
    (fun s => s.data.resolved.map Resolution.res ==
      [.error ((netError 0).withField .connection), .error ((netError 0).withField .connection)]) (by decide)
  exact ⟨s, hs, by simpa using hp, replies_settled hs⟩

end RedisPipe.Conn
