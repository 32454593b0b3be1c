import RedisPipe.Buffered.Delivery
import RedisPipe.Buffered.Wire

/-!
# Requests and responses of one session of the buffered version

`redisconn/conn.go:646-748`. A session's writer passes packets to `w.Write(packet)`, and
before each one it sends the packet's batch on `one.futures`; the reader reads one response
with `resp.Read(r)` for each entry it takes off `one.futures`, in order. The server answers
the requests it reads with one response each, in order, so the reader gives each future its
own response only if the entries it pairs with responses are, in order, the entries whose
requests are on the socket.

The model's state does not hold the socket. What a session shows of it is a trace of
events (`SessionEvent`), read off the steps: the bytes of each successful `w.Write`, each
batch sent on `one.futures`, and each entry the reader reads a response for.

* `session_pairing`: along every run from `Connect`'s state and for every session, the
  bytes written are a prefix of the encodings of the entries handed over, in hand-over
  order; the entries paired with responses are a prefix of those same entries; and while
  the writer waits for a shard, a RESP reader reads the bytes written as exactly the
  requests of the handed-over entries.

The proof is an invariant of a pipe and the trace so far (`SessionWf`): what the writer has
written, followed by the packet it has handed over and not written yet, encodes the handed
entries; and while the reader still reads, the handed entries are the ones it has paired,
then the rest of its batch, then the batches on `one.futures`.
-/

set_option autoImplicit false

namespace RedisPipe.Conn

variable {cfg : Config} {ff : FloatFormat} {s s' : Sys BufData}

/-! ## The session's events -/

/-- What a session's goroutines do to the socket and to `one.futures`. -/
inductive SessionEvent where
  /-- `w.Write(packet)` returns with no error. -/
  | write (packet : Bytes)
  /-- `one.futures <- futures`. -/
  | handOver (futures : List Entry)
  /-- `res = resp.Read(r)`, read for the entry `fut`. -/
  | read (fut : Entry)
  deriving DecidableEq, Repr

/-- The bytes an event writes. -/
def SessionEvent.written : SessionEvent → Bytes
  | .write packet => packet
  | _ => []

/-- The entries an event hands to the reader. -/
def SessionEvent.handed : SessionEvent → List Entry
  | .handOver futures => futures
  | _ => []

/-- The entry an event pairs with a response. -/
def SessionEvent.answered : SessionEvent → List Entry
  | .read fut => [fut]
  | _ => []

/-- What writer step `ok` of a pipe shows: the hand-off when `one.futures` has room, and a
successful `w.Write(packet)`. -/
def BPipe.writerEvents (cfg : Config) (p : BPipe) (ok : Bool) : List SessionEvent :=
  match p.writer.pc with
  | .handOff | .handOffBlocked _ =>
    if p.chan.length < bfuturesCap cfg then [.handOver p.writer.futures] else []
  | .write => if ok then [.write p.writer.packet] else []
  | _ => []

/-- What a reader step of a pipe shows: the response it reads for the next entry. -/
def BPipe.readerEvents (p : BPipe) : List SessionEvent :=
  match p.reader with
  | .read (fut :: _) => [.read fut]
  | _ => []

/-- What action `a` from `s` shows of session `k`. -/
def sessionEvents (cfg : Config) (k : Nat) (s : Sys BufData) : BAction → List SessionEvent
  | .writer k' _ ok => if k' = k then (s.data.pipes[k]?.map fun p => p.writerEvents cfg ok).getD [] else []
  | .reader k' _ => if k' = k then (s.data.pipes[k]?.map BPipe.readerEvents).getD [] else []
  | _ => []

/-- Session `k`'s events along a run, up to the first step that cannot be taken. -/
def sessionTrace (cfg : Config) (ff : FloatFormat) (k : Nat) : Sys BufData → List BAction → List SessionEvent
  | _, [] => []
  | s, a :: as =>
    match bstep cfg ff s a with
    | some s' => sessionEvents cfg k s a ++ sessionTrace cfg ff k s' as
    | none => []

/-! ## The invariant -/

/-- The packet the writer has handed over and not written yet: from the hand-off on, its
packet. -/
def BPipe.unwritten (p : BPipe) : Bytes := if p.writer.pc.holding then [] else p.writer.packet

/-- The reader's points where it still reads responses. -/
def BRPc.reading : BRPc → Bool
  | .recv | .read _ => true
  | _ => false

/-- A session's pipe and its trace so far. -/
structure SessionWf (ff : FloatFormat) (p : BPipe) (tr : List SessionEvent) : Prop where
  /-- The bytes written, then the packet still to write, encode the handed entries. -/
  wire : Encodes ff (tr.flatMap SessionEvent.written ++ p.unwritten) (tr.flatMap SessionEvent.handed)
  /-- The paired entries come first among the handed ones; while the reader reads, the
  others are the rest of its batch and the batches on `one.futures`. -/
  reads : ∃ rest, tr.flatMap SessionEvent.handed = tr.flatMap SessionEvent.answered ++ rest ∧
    (p.reader.reading = true → rest = p.reader.owed ++ p.chan.flatten)

/-- Session `k` has no events before it starts, and keeps `SessionWf` from then on. -/
def SessionInv (ff : FloatFormat) (k : Nat) (d : BufData) (tr : List SessionEvent) : Prop :=
  match d.pipes[k]? with
  | none => tr = []
  | some p => SessionWf ff p tr

section Events

variable (tr : List SessionEvent) (e : SessionEvent)

@[simp] theorem flatMap_written_concat :
    (tr ++ [e]).flatMap SessionEvent.written = tr.flatMap SessionEvent.written ++ e.written := by simp
@[simp] theorem flatMap_handed_concat :
    (tr ++ [e]).flatMap SessionEvent.handed = tr.flatMap SessionEvent.handed ++ e.handed := by simp
@[simp] theorem flatMap_answered_concat :
    (tr ++ [e]).flatMap SessionEvent.answered = tr.flatMap SessionEvent.answered ++ e.answered := by simp

end Events

/-! ## Writer steps -/

section Writer

variable {p p' : BPipe} {tr : List SessionEvent}

theorem bsetPipe_getElem?_self {k : Nat} (hp : s.data.pipes[k]? = some p) {s₁ : Sys BufData} (p'' : BPipe)
    (h₁ : s₁.data.pipes = s.data.pipes) : (s₁.bsetPipe k p'').data.pipes[k]? = some p'' := by
  rw [Sys.bsetPipe_pipes, h₁]
  exact List.getElem?_set_self (List.getElem?_eq_some_iff.mp hp).1

/-- A writer move that hands nothing over and writes nothing. -/
theorem SessionWf.keep (hw : SessionWf ff p tr) (hu : p'.unwritten = p.unwritten) (hr : p'.reader = p.reader)
    (hc : p'.chan = p.chan) : SessionWf ff p' tr := by
  obtain ⟨hwire, rest, hh, hl⟩ := hw
  exact ⟨hu ▸ hwire, rest, hh, by rw [hr, hc]; exact hl⟩

/-- The hand-off: the batch joins the handed entries, its packet the bytes still to write. -/
theorem SessionWf.handOver (hw : SessionWf ff p tr) (hh : p.writer.pc.holding = true)
    (he : Encodes ff p.writer.packet p.writer.futures) {pc : BWPc} (hpc : pc.holding = false) :
    SessionWf ff (p.handOver.goto pc) (tr ++ [.handOver p.writer.futures]) := by
  obtain ⟨hwire, rest, hh', hl⟩ := hw
  refine ⟨?_, rest ++ p.writer.futures, ?_, fun hr => ?_⟩
  · simp only [BPipe.unwritten, hh, if_true, List.append_nil] at hwire
    simpa [BPipe.unwritten, hpc, SessionEvent.written, SessionEvent.handed] using hwire.append he
  · simp [hh', SessionEvent.handed, SessionEvent.answered]
  · simp only [BPipe.goto, BPipe.handOver] at hr ⊢
    simp [hl hr]

/-- `w.Write(packet)` succeeds: the packet joins the bytes written. -/
theorem SessionWf.write (hw : SessionWf ff p tr) (hpc : p.writer.pc = .write) :
    SessionWf ff { p with writer := ⟨.loop, [], []⟩ } (tr ++ [.write p.writer.packet]) := by
  obtain ⟨hwire, rest, hh, hl⟩ := hw
  refine ⟨?_, rest, by simpa [SessionEvent.handed, SessionEvent.answered] using hh, hl⟩
  simpa [BPipe.unwritten, hpc, BWPc.holding, SessionEvent.written, SessionEvent.handed] using hwire

/-- **What a writer step of a session shows keeps its invariant.** -/
theorem SessionWf.wstep (hR : BInv ff s) (hP : PacketsWf ff s.data) {k : Nat} {sel : Sel} {ok : Bool}
    (hp : s.data.pipes[k]? = some p) (hw : SessionWf ff p tr) (h : bwstep cfg s k sel ok = some s') :
    ∃ p', s'.data.pipes[k]? = some p' ∧ SessionWf ff p' (tr ++ p.writerEvents cfg ok) := by
  have keep : ∀ {s₁ : Sys BufData} {p'' : BPipe}, s₁.data.pipes = s.data.pipes → p.writerEvents cfg ok = [] →
      p''.unwritten = p.unwritten → p''.reader = p.reader → p''.chan = p.chan →
      ∃ p', (s₁.bsetPipe k p'').data.pipes[k]? = some p' ∧ SessionWf ff p' (tr ++ p.writerEvents cfg ok) :=
    fun h₁ he hu hr hc => ⟨_, bsetPipe_getElem?_self hp _ h₁, by rw [he, List.append_nil]; exact hw.keep hu hr hc⟩
  unfold bwstep at h
  split at h
  · rename_i q one hq _
    obtain rfl : p = q := Option.some.inj (hp.symm.trans hq)
    dsimp only at h
    split at h
    next hpc =>
      rcases bselect_inv h with ⟨i, rest, -, rfl⟩ | rfl | rfl <;>
        exact keep rfl (by simp [BPipe.writerEvents, hpc]) (by simp [BPipe.unwritten, hpc, BWPc.holding])
          (by simp) (by simp)
    next hpc =>
      split at h <;> cases h <;>
        exact keep (by simp) (by simp [BPipe.writerEvents, hpc]) (by simp [BPipe.unwritten, hpc, BWPc.holding])
          (by simp) (by simp)
    next hpc =>
      rcases bselect_inv h with ⟨i, rest, -, rfl⟩ | rfl | rfl <;>
        exact keep rfl (by simp [BPipe.writerEvents, hpc]) (by simp [BPipe.unwritten, hpc, BWPc.holding])
          (by simp) (by simp)
    next i hpc =>
      split at h
      · cases h
      have hpk := (hR.idle k p hp (by simp [hpc, BWPc.idle])).1
      split at h
      · rename_i hb
        split at h
        · exact absurd ((hR.shards i).nil_iff.mp hb) ‹_›
        · cases h
          exact keep rfl (by simp [BPipe.writerEvents, hpc]) (by simpa [BPipe.unwritten, BWPc.holding, hpk] using hb)
            rfl rfl
      · cases h
        exact keep rfl (by simp [BPipe.writerEvents, hpc]) (by simp [BPipe.unwritten, BWPc.holding, hpk, hpc])
          rfl rfl
    next hpc =>
      split at h <;> cases h
      · refine ⟨_, bsetPipe_getElem?_self hp _ rfl, ?_⟩
        simp only [BPipe.writerEvents, hpc, if_pos ‹_›]
        exact hw.handOver (by simp [hpc, BWPc.holding]) (hP k p hp (by simp [hpc, BWPc.busy])) rfl
      · exact keep rfl (by simp [BPipe.writerEvents, hpc, *]) (by simp [BPipe.unwritten, hpc, BWPc.holding])
          (by simp) (by simp)
    next hpc =>
      split at h
      · have he : p.writerEvents cfg ok = [.handOver p.writer.futures] := by
          simp [BPipe.writerEvents, hpc, *]
        split at h <;> cases h <;> refine ⟨_, bsetPipe_getElem?_self hp _ rfl, ?_⟩ <;> rw [he] <;>
          exact hw.handOver (by simp [hpc, BWPc.holding]) (hP k p hp (by simp [hpc, BWPc.busy])) rfl
      · cases h
    next hpc =>
      cases h
      exact keep (by simp) (by simp [BPipe.writerEvents, hpc]) (by simp [BPipe.unwritten, hpc, BWPc.holding])
        (by simp) (by simp)
    next hpc =>
      split at h <;> cases h
      · refine ⟨_, bsetPipe_getElem?_self hp _ rfl, ?_⟩
        simp only [BPipe.writerEvents, hpc, if_pos ‹_›]
        exact hw.write hpc
      · exact keep (by simp) (by simp [BPipe.writerEvents, hpc, *]) (by simp [BPipe.unwritten, hpc, BWPc.holding])
          (by simp) (by simp)
    next => cases h
  · cases h

end Writer

/-! ## Reader steps -/

section Reader

variable {p p' : BPipe} {tr : List SessionEvent}

/-- A reader move that reads no response: the writer stays, and what the reader has still
to read stays, or it has stopped reading. -/
theorem SessionWf.reader (hw : SessionWf ff p tr) (hwr : p'.writer = p.writer)
    (hq : p'.reader.reading = true →
      p.reader.reading = true ∧ p'.reader.owed ++ p'.chan.flatten = p.reader.owed ++ p.chan.flatten) :
    SessionWf ff p' tr := by
  obtain ⟨hwire, rest, hh, hl⟩ := hw
  refine ⟨by rw [BPipe.unwritten, hwr]; exact hwire, rest, hh, fun hr => ?_⟩
  obtain ⟨hr', he⟩ := hq hr
  rw [he]; exact hl hr'

/-- `res = resp.Read(r)` for the next entry `fut`: it joins the paired entries. -/
theorem SessionWf.read (hw : SessionWf ff p tr) (hwr : p'.writer = p.writer) {fut : Entry} {rest : List Entry}
    (hp : p.reader = .read (fut :: rest))
    (hq : p'.reader.reading = true → p'.reader.owed ++ p'.chan.flatten = rest ++ p.chan.flatten) :
    SessionWf ff p' (tr ++ [.read fut]) := by
  obtain ⟨hwire, rest', hh, hl⟩ := hw
  have hrest := hl (by simp [hp, BRPc.reading])
  refine ⟨?_, rest ++ p.chan.flatten, ?_, fun hr => (hq hr).symm⟩
  · simpa [BPipe.unwritten, hwr, SessionEvent.written, SessionEvent.handed] using hwire
  · simp [hh, hrest, hp, BRPc.owed, SessionEvent.handed, SessionEvent.answered]

/-- **What a reader step of a session shows keeps its invariant.** -/
theorem SessionWf.rstep {k : Nat} {r : ReadResult} (hp : s.data.pipes[k]? = some p) (hw : SessionWf ff p tr)
    (h : brstep s k r = some s') : ∃ p', s'.data.pipes[k]? = some p' ∧ SessionWf ff p' (tr ++ p.readerEvents) := by
  have stop : ∀ {p'' : BPipe}, p''.reader.reading = false → p''.writer = p.writer → SessionWf ff p'' tr :=
    fun hr hwr => hw.reader hwr fun h => absurd h (by simp [hr])
  unfold brstep at h
  split at h
  · rename_i q one hq _
    obtain rfl : p = q := Option.some.inj (hp.symm.trans hq)
    dsimp only at h
    split at h
    next hpr =>
      simp only [BPipe.readerEvents, hpr, List.append_nil]
      split at h
      · cases h
        refine ⟨_, bsetPipe_getElem?_self hp _ rfl, ?_⟩
        exact hw.reader (by rfl) fun _ => ⟨by simp [hpr, BRPc.reading], by simp [hpr, BRPc.owed, *]⟩
      · split at h <;> cases h
        refine ⟨_, bsetPipe_getElem?_self hp _ rfl, ?_⟩
        exact stop (by rfl) (by rfl)
    next hpr =>
      cases h
      simp only [BPipe.readerEvents, hpr, List.append_nil]
      refine ⟨_, bsetPipe_getElem?_self hp _ rfl, ?_⟩
      exact hw.reader (by rfl) fun _ => ⟨by simp [hpr, BRPc.reading], by simp [hpr, BRPc.owed]⟩
    next fut rest hpr =>
      simp only [BPipe.readerEvents, hpr]
      split at h <;> cases h
      · refine ⟨_, bsetPipe_getElem?_self hp _ (by simp), ?_⟩
        exact hw.read (by rfl) hpr fun h => absurd h (by simp [BRPc.reading])
      all_goals
        refine ⟨_, bsetPipe_getElem?_self hp _ rfl, ?_⟩
        exact hw.read (by rfl) hpr fun _ => by simp [BRPc.owed]
    next rest hpr =>
      cases h
      simp only [BPipe.readerEvents, hpr, List.append_nil]
      refine ⟨_, bsetPipe_getElem?_self hp _ rfl, ?_⟩
      exact stop (by rfl) (by rfl)
    next hpr =>
      simp only [BPipe.readerEvents, hpr, List.append_nil]
      split at h
      · cases h
        refine ⟨_, bsetPipe_getElem?_self hp _ rfl, ?_⟩
        exact stop (by simp [hpr, BRPc.reading]) (by rfl)
      · split at h <;> cases h
        refine ⟨_, bsetPipe_getElem?_self hp _ rfl, ?_⟩
        exact stop (by rfl) (by rfl)
    next => cases h
  · cases h

end Reader

/-! ## Whole runs -/

section Runs

variable {k : Nat} {tr : List SessionEvent}

theorem SessionInv.frame {d d' : BufData} (hI : SessionInv ff k d tr) (hk : d'.pipes[k]? = d.pipes[k]?) :
    SessionInv ff k d' tr := by
  unfold SessionInv at *
  rw [hk]
  exact hI

/-- A session starts with no events. -/
theorem SessionInv.startSession {d : BufData} (hI : SessionInv ff k d tr) :
    SessionInv ff k { d with pipes := d.pipes ++ [BPipe.fresh] } tr := by
  rcases Nat.lt_or_ge k d.pipes.length with hk | hk
  · exact hI.frame (List.getElem?_append_left hk)
  · have hnone : d.pipes[k]? = none := List.getElem?_eq_none hk
    unfold SessionInv at hI ⊢
    rw [hnone] at hI
    subst hI
    rcases Nat.lt_or_ge k (d.pipes.length + 1) with hk' | hk'
    · obtain rfl : k = d.pipes.length := by omega
      simp only [List.getElem?_concat_length]
      exact ⟨⟨by rfl, by simp⟩, [], rfl, fun _ => rfl⟩
    · rw [List.getElem?_eq_none (by simpa using hk')]

/-- **Every step keeps a session's invariant, with the events it shows of the session.** -/
theorem SessionInv.step (hR : BInv ff s) (hP : PacketsWf ff s.data) (hI : SessionInv ff k s.data tr)
    {a : BAction} (h : bstep cfg ff s a = some s') : SessionInv ff k s'.data (tr ++ sessionEvents cfg k s a) := by
  unfold bstep at h
  split_ifs at h
  cases a <;> simp only [sessionEvents, List.append_nil] at h ⊢
  · rcases (mstep_bdata h).1 with hd | ⟨err, hd⟩ | hd <;> rw [hd]
    · exact hI
    · exact hI.frame rfl
    · exact hI.startSession
  · split_ifs at h; exact hI.frame (by rw [(bsendAsk_produced h).pipes])
  · split_ifs at h; exact hI.frame (by rw [(bsendBatchFlags_produced h).pipes])
  · split_ifs at h; exact hI.frame (by rw [(bsendTransaction_produced h).pipes])
  · obtain ⟨sh, -, rfl⟩ := bresume_cases h
    exact hI.frame rfl
  · rename_i k' sel ok
    by_cases hk : k' = k
    · subst hk
      cases hpk : s.data.pipes[k']? with
      | none => simp [bwstep, hpk] at h
      | some p =>
        simp only [SessionInv, hpk] at hI
        obtain ⟨p', hp', hw⟩ := hI.wstep hR hP hpk h
        simp only [SessionInv, hpk, hp', if_true, Option.map_some', Option.getD_some]
        exact hw
    · obtain ⟨-, -, p, p', -, hpi, -⟩ := bwstep_moves hR h
      rw [if_neg hk, List.append_nil]
      exact hI.frame (by rw [hpi, List.getElem?_set_ne hk])
  · rename_i k' r
    by_cases hk : k' = k
    · subst hk
      cases hpk : s.data.pipes[k']? with
      | none => simp [brstep, hpk] at h
      | some p =>
        simp only [SessionInv, hpk] at hI
        obtain ⟨p', hp', hw⟩ := hI.rstep hpk h
        simp only [SessionInv, hpk, hp', if_true, Option.map_some', Option.getD_some]
        exact hw
    · obtain ⟨p, p', -, hq, -⟩ := brstep_cases h
      rw [if_neg hk, List.append_nil]
      exact hI.frame (by rw [hq.2.2.2, List.getElem?_set_ne hk])
  · cases h
    exact hI

theorem SessionInv.run (hs : BReachable cfg ff s) (hI : SessionInv ff k s.data tr) {as : List BAction}
    (h : brun cfg ff s as = some s') : SessionInv ff k s'.data (tr ++ sessionTrace cfg ff k s as) := by
  induction as generalizing s tr with
  | nil => cases h; simpa [sessionTrace] using hI
  | cons a as ih =>
    obtain ⟨s₁, h₁, h⟩ := Option.bind_eq_some.mp h
    simp only [sessionTrace, h₁, ← List.append_assoc]
    exact ih (.step a hs h₁) (hI.step hs.bInv hs.packetsWf h₁) h

end Runs

/-! ## Pairing -/

/-- **The reader pairs each response with the entry whose request it answers.** Along every
run from `Connect`'s state, for every session: the bytes its writer has written are a prefix
of the encodings of the entries it has sent on `one.futures`, in that order; the entries its
reader has read a response for are a prefix of those same entries; and whenever its writer
is at its `select` or about to swap a shard, a RESP reader reads the bytes written as
exactly the requests of the entries handed over, one per entry, in order. -/
theorem session_pairing {as : List BAction} (h : brun cfg ff (Sys.initial cfg (BufData.initial cfg)) as = some s)
    (k : Nat) :
    let tr := sessionTrace cfg ff k (Sys.initial cfg (BufData.initial cfg)) as
    tr.flatMap SessionEvent.written <+: ((tr.flatMap SessionEvent.handed).map (Entry.encoding ff)).flatten ∧
    tr.flatMap SessionEvent.answered <+: tr.flatMap SessionEvent.handed ∧
    ∀ p, s.data.pipes[k]? = some p → p.writer.pc.idle = true →
      RedisPipe.readStream (tr.flatMap SessionEvent.written) =
        some ((tr.flatMap SessionEvent.handed).map fun e => e.req.words ff) := by
  intro tr
  have hs := BReachable.init.run h
  have hI := SessionInv.run BReachable.init
    (show SessionInv ff k (Sys.initial cfg (BufData.initial cfg)).data [] by simp [SessionInv, Sys.initial, BufData.initial]) h
  rw [List.nil_append] at hI
  cases hpk : s.data.pipes[k]? with
  | none =>
    simp only [SessionInv, hpk] at hI
    simp [tr, hI]
  | some p =>
    simp only [SessionInv, hpk] at hI
    obtain ⟨hwire, rest, hh, -⟩ := hI
    refine ⟨⟨p.unwritten, hwire.1⟩, ⟨rest, hh.symm⟩, fun q hq hidle => ?_⟩
    obtain rfl : p = q := Option.some.inj hq
    have hu : p.unwritten = [] := by
      simp [BPipe.unwritten, (hs.bInv.idle k p hpk hidle).1]
    rw [hu, List.append_nil] at hwire
    exact hwire.readStream

/-- `Send(PING)` on a fresh connection: the writer hands the entry over and writes its
packet, and the reader reads one response for it. -/
theorem session_pairing_ping :
    ∃ s, brun oneShard noFloats (Sys.initial oneShard (BufData.initial oneShard)) (connectPing ++ deliverPing) = some s ∧
      sessionTrace oneShard noFloats 0 (Sys.initial oneShard (BufData.initial oneShard)) (connectPing ++ deliverPing) =
        [.handOver [⟨.cb 1, 0, pingReq⟩], .write (Entry.encoding noFloats ⟨.cb 1, 0, pingReq⟩),
          .read ⟨.cb 1, 0, pingReq⟩] ∧
      let tr := sessionTrace oneShard noFloats 0 (Sys.initial oneShard (BufData.initial oneShard))
        (connectPing ++ deliverPing)
      tr.flatMap SessionEvent.written <+: ((tr.flatMap SessionEvent.handed).map (Entry.encoding noFloats)).flatten ∧
      tr.flatMap SessionEvent.answered <+: tr.flatMap SessionEvent.handed ∧
      ∀ p, s.data.pipes[0]? = some p → p.writer.pc.idle = true →
        RedisPipe.readStream (tr.flatMap SessionEvent.written) =
          some ((tr.flatMap SessionEvent.handed).map fun e => e.req.words noFloats) := by
  obtain ⟨s, h, -⟩ := @brun_of_any oneShard noFloats (Sys.initial oneShard (BufData.initial oneShard))
    (connectPing ++ deliverPing) (fun _ => true) (by decide)
  exact ⟨s, h, by decide, session_pairing h 0⟩

end RedisPipe.Conn
