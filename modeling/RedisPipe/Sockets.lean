import RedisPipe.Raw.Steps
import RedisPipe.Buffered.Steps

/-!
# The connection's sockets: one is open, the one in `conn.c`, and a fault closes only its own

`dial` (`redisconn/conn.go:407-506`, `redis/request_writer.go:680-781`) stores the socket it
opens in `conn.c`, and `closeConnection` (`conn.go:569-589`, `request_writer.go:846-870`)
closes `conn.c` and clears it. Nothing else opens or closes a session's socket: a writer or
a reader that fails calls `setErr`, which leaves the socket to `reconnect`. `createConnection`
dials only after it finds `conn.c` nil, and `MInv` keeps every other goroutine from storing a
socket before that dial returns (`TOk.fresh`). So no reconnection leaks a socket:

* `open_socket_is_current`: in every reachable state of either version, the sessions whose
  socket is still open are exactly the one in `conn.c`, if any.

A socket lives in `Sys.socks`, `conn.c` and the sessions' closed flags. The proof has one
lemma per kind of manager step (a close, a dial, the rest) and one frame lemma per version:
its producers, writers and readers keep `Sys.socks`.

`setErr` spawns `reconnect` for a session's socket: once per session in the raw-packet
version, on every call in the buffered one. `reconnect` takes `conn.mutex` and runs
`closeConnection(neterr, false)` and a new `createConnection` only if `conn.c` is still
that socket. Both versions move the manager's skeleton by `MTrans` only (`step_mgr`,
`bstep_mgr`), so `MInv` holds in every reachable state of either, and the fault path's
guarantees (`Mgr.FaultSafe`, `Mgr.FaultStep`) follow from it:

* `reconnect_only_current_socket`: a fault closes only the socket of its own session, and
  at most once.
-/

set_option autoImplicit false

namespace RedisPipe.Conn

/-! ## The sockets of a connection -/

/-- The sessions whose socket is still open, given which ones `closeConnection` closed. -/
def openSockets (closed : List Bool) : List Nat :=
  (List.range closed.length).filter fun k => !closed.getD k true

example : openSockets [true, false, true] = [1] := by decide

/-- The part of a connection a socket lives in: `conn.c` and the sessions' closed flags. -/
def Sys.socks {D : Type} (s : Sys D) : Option Nat × List Bool := (s.c, s.sessions.map Session.sockClosed)

/-- The open sockets are `conn.c`'s. -/
def SockInv {D : Type} (s : Sys D) : Prop := openSockets s.socks.2 = s.socks.1.toList

theorem openSockets_set_true (l : List Bool) (k : Nat) :
    openSockets (l.set k true) = (openSockets l).filter (· ≠ k) := by
  unfold openSockets
  rw [List.length_set, List.filter_filter]
  refine List.filter_congr fun j _ => ?_
  simp only [List.getD_eq_getElem?_getD, List.getElem?_set]
  by_cases hj : k = j
  · subst hj; split_ifs <;> simp_all
  · simp [hj, Ne.symm hj]

theorem openSockets_concat_false (l : List Bool) : openSockets (l ++ [false]) = openSockets l ++ [l.length] := by
  unfold openSockets
  rw [List.length_append, List.length_singleton, List.range_succ, List.filter_append]
  congr 1
  · exact List.filter_congr fun j hj => by
      rw [List.getD_eq_getElem?_getD, List.getElem?_append_left (List.mem_range.mp hj), ← List.getD_eq_getElem?_getD]
  · simp

theorem closeSock_sockClosed (ss : List Session) (k : Nat) :
    (closeSock ss (some k)).map Session.sockClosed = (ss.map Session.sockClosed).set k true := by
  apply List.ext_getElem?
  intro j
  simp only [closeSock, List.getElem?_map, List.getElem?_modify, List.getElem?_set, List.length_map]
  by_cases hj : k = j
  · subst hj
    by_cases hk : k < ss.length
    · simp [hk, List.getElem?_eq_getElem hk]
    · simp [hk, List.getElem?_eq_none (Nat.le_of_not_lt hk)]
  · simp [hj]

/-! ## The manager -/

section Manager

variable {D : Type} {s s' : Sys D}

theorem SockInv.of_socks (hS : SockInv s) (h : s'.socks = s.socks) : SockInv s' := by
  unfold SockInv; rw [h]; exact hS

/-- `closeConnection` closes `conn.c` and clears it. -/
theorem SockInv.close (hS : SockInv s) (hc : s'.c = none) (hss : s'.sessions = closeSock s.sessions s.c) :
    SockInv s' := by
  unfold SockInv Sys.socks at *
  rw [hc, hss]
  cases h : s.c with
  | none => rw [h] at hS; exact hS
  | some k => rw [h] at hS; simp [closeSock_sockClosed, openSockets_set_true, hS]

/-- `dial` finds no socket in `conn.c` and stores the new session's. -/
theorem SockInv.start (hS : SockInv s) (h0 : s.c = none) (hc : s'.c = some s.sessions.length)
    (hss : s'.sessions = s.sessions ++ [Session.fresh]) : SockInv s' := by
  unfold SockInv Sys.socks at *
  rw [h0] at hS
  simp [hc, hss, Session.fresh, openSockets_concat_false, hS]

@[simp] theorem Sys.goto_socks (t : Nat) (th : Thread) (pc : MPc) : (s.goto t th pc).socks = s.socks := rfl

@[simp] theorem Sys.ccReturn_socks (t : Nat) (th : Thread) (err : Option RedisError) :
    (s.ccReturn t th err).socks = s.socks := by
  unfold Sys.ccReturn; split <;> rfl

/-- A manager step closes `conn.c`, starts a session from `dial`, or leaves the sockets
alone. -/
theorem mstep_socks {ops : DataOps D} {cfg : Config} {t : Nat} {dial : DialResult}
    (h : mstep ops cfg s t dial = some s') :
    s'.socks = s.socks ∨ (s'.c = none ∧ s'.sessions = closeSock s.sessions s.c) ∨
      ∃ th, s.threads[t]? = some th ∧ th.pc = .dialing ∧ s'.c = some s.sessions.length ∧
        s'.sessions = s.sessions ++ [Session.fresh] := by
  unfold mstep at h
  split at h
  · cases h
  rename_i th hth
  split at h
  case h_3 =>
    split_ifs at h <;> (try split at h) <;> cases h <;> first | exact .inl rfl | exact .inr (.inl ⟨rfl, rfl⟩)
  case h_6 hpc =>
    split at h
    · split_ifs at h; cases h; exact .inr (.inr ⟨th, hth, hpc, rfl, rfl⟩)
    · cases h; exact .inl rfl
  case h_1 =>
    split at h
    · split_ifs at h <;> cases h <;> exact .inl rfl
    · cases h
  all_goals first
    | (cases h; done)
    | (cases h; exact .inl rfl)
    | (cases h; exact .inl (Sys.ccReturn_socks _ _ _))
    | (split_ifs at h <;> cases h <;> first
        | exact .inl rfl
        | exact .inl (Sys.ccReturn_socks _ _ _))

/-- **A manager step keeps one socket open, `conn.c`'s.** A dial is taken only by a goroutine
that found `conn.c` nil (`TOk.fresh`). -/
theorem SockInv.mstep (hI : MInv s.mgr) (hS : SockInv s) {ops : DataOps D} {cfg : Config} {t : Nat}
    {dial : DialResult} (h : mstep ops cfg s t dial = some s') : SockInv s' := by
  rcases mstep_socks h with h | ⟨hc, hss⟩ | ⟨th, hth, hpc, hc, hss⟩
  · exact hS.of_socks h
  · exact hS.close hc hss
  · exact hS.start ((hI.thread t th hth).fresh (.inr hpc)) hc hss

theorem SockInv.initial (cfg : Config) (d : D) : SockInv (Sys.initial cfg d) := rfl

/-- `setErr` marks its session failed and leaves the socket to `reconnect`. -/
@[simp] theorem Sys.setErr_socks (k : Nat) (e : RedisError) : (s.setErr k e).socks = s.socks := by
  unfold Sys.setErr
  split
  · rfl
  · rename_i one hk
    have hk' : (s.sessions.map Session.sockClosed)[k]? = some one.sockClosed := by simp [hk]
    split
    · rfl
    · simp only [Sys.socks, List.map_set, list_set_self hk']

@[simp] theorem Sys.setErrBuffered_socks (k : Nat) (e : RedisError) : (s.setErrBuffered k e).socks = s.socks := by
  unfold Sys.setErrBuffered
  split
  · rfl
  · rename_i one hk
    have hk' : (s.sessions.map Session.sockClosed)[k]? = some one.sockClosed := by simp [hk]
    split
    · rfl
    · simp only [Sys.socks, List.map_set, list_set_self hk']

end Manager

/-! ## The raw-packet version -/

section Raw

variable {cfg : Config} {ff : FloatFormat} {s s' : Sys RawData}

section RawSimp
variable (s : Sys RawData) (k : Nat) (p : Pipe) (rs : List Resolution)
@[simp] theorem Sys.setPipe_socks : (s.setPipe k p).socks = s.socks := rfl
@[simp] theorem Sys.log_socks : (s.log rs).socks = s.socks := rfl
@[simp] theorem Sys.writeThen_socks (ok : Bool) (next : Pipe → Pipe) : (s.writeThen k p ok next).socks = s.socks := by
  unfold Sys.writeThen; split <;> simp
end RawSimp

theorem Produced.socks {i : Nat} (h : Produced cfg s s' i) : s'.socks = s.socks := by
  rcases h with ⟨rs, rfl⟩ | ⟨-, -, -, added, rfl⟩
  · rfl
  · unfold enqueue; dsimp only; split_ifs <;> rfl

theorem wstep_socks {k : Nat} {pick checkFails ok : Bool} (h : wstep cfg ff s k pick checkFails ok = some s') :
    s'.socks = s.socks := by
  unfold wstep Sys.receive at h
  dsimp only at h
  repeat' split at h
  all_goals first | (cases h; first | rfl | simp) | cases h

theorem rstep_socks {k : Nat} {r : ReadResult} (h : rstep s k r = some s') : s'.socks = s.socks := by
  unfold rstep at h
  dsimp only at h
  repeat' split at h
  all_goals first | (cases h; first | rfl | simp) | cases h

/-- Every step of the raw-packet version keeps one socket open, `conn.c`'s. -/
theorem SockInv.step (hI : MInv s.mgr) (hS : SockInv s) {a : Action} (h : step cfg ff s a = some s') :
    SockInv s' := by
  unfold Conn.step at h
  split_ifs at h
  cases a <;> simp only at h
  · exact hS.mstep hI h
  all_goals refine hS.of_socks ?_
  · split_ifs at h; exact (sendAsk_produced h).socks
  · split_ifs at h; exact (sendBatchFlags_produced h).socks
  · split_ifs at h; exact (sendTransaction_produced h).socks
  · obtain ⟨fs, -, ⟨-, rfl⟩ | ⟨-, rfl⟩⟩ := resume_cases h <;> rfl
  · exact wstep_socks h
  · exact rstep_socks h
  · cases h; rfl

theorem Reachable.sockInv (hs : Reachable cfg ff s) : SockInv s := by
  induction hs with
  | init => exact SockInv.initial cfg _
  | step a hs h ih => exact ih.step hs.mInv h

end Raw

/-! ## The buffered-writer version -/

section Buffered

variable {cfg : Config} {ff : FloatFormat} {s s' : Sys BufData}

section BufSimp
variable (s : Sys BufData) (k : Nat) (p : BPipe) (rs : List Resolution)
@[simp] theorem Sys.bsetPipe_socks : (s.bsetPipe k p).socks = s.socks := rfl
@[simp] theorem Sys.blog_socks : (s.blog rs).socks = s.socks := rfl
end BufSimp

theorem BProduced.socks {i : Nat} (h : BProduced cfg ff s s' i) : s'.socks = s.socks := by
  rcases h with ⟨rs, rfl⟩ | ⟨-, -, -, new, -, rfl⟩
  · rfl
  · unfold benqueue; dsimp only; split_ifs <;> rfl

theorem bwstep_socks {k : Nat} {sel : Sel} {ok : Bool} (h : bwstep cfg s k sel ok = some s') : s'.socks = s.socks := by
  unfold bwstep Sys.bselect at h
  dsimp only at h
  repeat' split at h
  all_goals first | (cases h; first | rfl | simp) | cases h

theorem brstep_socks {k : Nat} {r : ReadResult} (h : brstep s k r = some s') : s'.socks = s.socks := by
  unfold brstep at h
  dsimp only at h
  repeat' split at h
  all_goals first | (cases h; first | rfl | simp) | cases h

/-- Every step of the buffered-writer version keeps one socket open, `conn.c`'s. -/
theorem SockInv.bstep (hI : MInv s.mgr) (hS : SockInv s) {a : BAction} (h : bstep cfg ff s a = some s') :
    SockInv s' := by
  unfold Conn.bstep at h
  split_ifs at h
  cases a <;> simp only at h
  · exact hS.mstep hI h
  all_goals refine hS.of_socks ?_
  · split_ifs at h; exact (bsendAsk_produced h).socks
  · split_ifs at h; exact (bsendBatchFlags_produced h).socks
  · split_ifs at h; exact (bsendTransaction_produced h).socks
  · obtain ⟨sh, -, rfl⟩ := bresume_cases h; rfl
  · exact bwstep_socks h
  · exact brstep_socks h
  · cases h; rfl

theorem BReachable.sockInv (hs : BReachable cfg ff s) : SockInv s := by
  induction hs with
  | init => exact SockInv.initial cfg _
  | step a hs h ih => exact ih.bstep hs.mInv h

end Buffered

/-! ## No leaked socket -/

/-- **No reconnection leaks a socket.** In every reachable state of either version, the
sessions whose socket `closeConnection` has not closed are exactly the one in `conn.c`:
one socket while `conn.c` is set, none while it is nil. -/
theorem open_socket_is_current (cfg : Config) (ff : FloatFormat) :
    (∀ s, Reachable cfg ff s → openSockets (s.sessions.map Session.sockClosed) = s.c.toList) ∧
    (∀ s, BReachable cfg ff s → openSockets (s.sessions.map Session.sockClosed) = s.c.toList) :=
  ⟨fun _ hs => hs.sockInv, fun _ hs => hs.sockInv⟩

/-- After a fault of the first session and its reconnection, the second session's socket is the
only one open. -/
theorem open_socket_is_current_reconnect :
    (∃ s, Reachable oneShard noFloats s ∧ s.c = some 1 ∧ s.sessions.length = 2 ∧
      openSockets (s.sessions.map Session.sockClosed) = s.c.toList) ∧
    (∃ s, BReachable oneShard noFloats s ∧ s.c = some 1 ∧ s.sessions.length = 2 ∧
      openSockets (s.sessions.map Session.sockClosed) = s.c.toList) := by
  obtain ⟨s, hs, hp⟩ := @exists_reachable_of_run oneShard noFloats
    (connectOk ++ [readFault 0] ++ List.replicate 6 (.manager 2 .ok))
    (fun s => s.c == some 1 && s.sessions.length == 2) (by decide)
  obtain ⟨b, hb, hq⟩ := @exists_breachable_of_run oneShard noFloats
    (List.replicate 6 (BAction.manager 0 .ok) ++ [BAction.writer 0 .default true, BAction.writer 0 .default false] ++
      List.replicate 6 (BAction.manager 2 .ok))
    (fun s => s.c == some 1 && s.sessions.length == 2) (by decide)
  simp only [Bool.and_eq_true, beq_iff_eq] at hp hq
  exact ⟨⟨s, hs, hp.1, hp.2, (open_socket_is_current oneShard noFloats).1 s hs⟩,
    ⟨b, hb, hq.1, hq.2, (open_socket_is_current oneShard noFloats).2 b hb⟩⟩

/-! ## Faults close only their own socket -/

/-- **A fault closes only the socket of its own session, and at most once.** In every
reachable state of either version, a `reconnect` inside `closeConnection(_, false)` is that
of the session whose socket `conn.c` holds, and no session's socket has been closed by a
fault twice; and every step records a fault-driven close only when the faulting session's
`reconnect` finds its socket still in `conn.c`, and moves `conn.c` off a socket only by the
close of that socket's own `reconnect`, or of `control`. -/
theorem reconnect_only_current_socket (cfg : Config) (ff : FloatFormat) :
    (∀ s, Reachable cfg ff s →
      s.mgr.FaultSafe ∧ ∀ (a : Action) (s' : Sys RawData), step cfg ff s a = some s' → s.mgr.FaultStep s'.mgr) ∧
    (∀ s, BReachable cfg ff s →
      s.mgr.FaultSafe ∧ ∀ (a : BAction) (s' : Sys BufData), bstep cfg ff s a = some s' → s.mgr.FaultStep s'.mgr) :=
  ⟨fun _ hs => ⟨hs.mInv.faultSafe, fun _ _ h => hs.mInv.faultStep (step_mgr h)⟩,
    fun _ hs => ⟨hs.mInv.faultSafe, fun _ _ h => hs.mInv.faultStep (bstep_mgr h)⟩⟩

theorem reconnect_only_current_socket_after_fault :
    (∃ s, Reachable oneShard noFloats s ∧ s.faultCloses = [0] ∧
      s.mgr.FaultSafe ∧ ∀ (a : Action) (s' : Sys RawData), step oneShard noFloats s a = some s' → s.mgr.FaultStep s'.mgr) ∧
    (∃ s, BReachable oneShard noFloats s ∧ s.faultCloses = [0] ∧
      s.mgr.FaultSafe ∧ ∀ (a : BAction) (s' : Sys BufData), bstep oneShard noFloats s a = some s' →
        s.mgr.FaultStep s'.mgr) := by
  obtain ⟨s, hs, hp⟩ := @exists_reachable_of_run oneShard noFloats (connectOk ++ [readFault 0, .manager 2 .ok])
    (fun s => s.faultCloses == [0]) rfl
  obtain ⟨b, hb, hq⟩ := @exists_breachable_of_run oneShard noFloats
    (List.replicate 6 (BAction.manager 0 .ok) ++ [BAction.writer 0 .default true, BAction.writer 0 .default false, BAction.manager 2 .ok])
    (fun s => s.faultCloses == [0]) rfl
  exact ⟨⟨s, hs, by simpa using hp, (reconnect_only_current_socket oneShard noFloats).1 s hs⟩,
    ⟨b, hb, by simpa using hq, (reconnect_only_current_socket oneShard noFloats).2 b hb⟩⟩

end RedisPipe.Conn
