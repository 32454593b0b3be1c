import RedisPipe.Buffered.System
import RedisPipe.Conn.ManagerInv

/-!
# What each step of the buffered connection does

The buffered version's counterpart of `Raw/Steps.lean`. What a shard's buffer holds is
said once (`Encodes`: exactly the encodings of its entries' requests), and so is what a
producer may do to a shard (`BShard.Extends`: append entries with their encodings). Then
one lemma per kind of step:

* a producer resolves futures and touches nothing else, or extends its shard (`BProduced`);
* a manager step leaves the data alone, drops every shard, or starts a session
  (`mstep_bdata`);
* a writer step swaps a shard, or changes nothing but its own pipe (`bwstep_cases`); a
  reader step changes nothing but its own pipe, and never its writer (`brstep_cases`);
* the manager's skeleton moves by `MTrans` or not at all (`bstep_mgr`), so `MInv` holds in
  every reachable state of this version too (`BReachable.mInv`).
-/

set_option autoImplicit false

namespace RedisPipe.Conn

variable {cfg : Config} {ff : FloatFormat} {s s' : Sys BufData}

/-! ## What a buffer holds -/

/-- What a shard's buffer holds for an entry: `resp.AppendRequest`'s encoding of its request. -/
def Entry.encoding (ff : FloatFormat) (e : Entry) : Bytes := (respAppendRequest ff [] e.req).1

/-- `buf` is exactly the encodings of the requests of `es`, in order, each of them a request
`resp.AppendRequest` accepts. -/
def Encodes (ff : FloatFormat) (buf : Bytes) (es : List Entry) : Prop :=
  buf = (es.map (Entry.encoding ff)).flatten ∧ ∀ e ∈ es, (respAppendRequest ff [] e.req).2 = none

/-- A shard whose buffer encodes its list. -/
def BShard.Wf (ff : FloatFormat) (sh : BShard) : Prop := Encodes ff sh.buf sh.futures

/-- `new` is `old` with entries appended, each with its encoding. -/
def BShard.Extends (ff : FloatFormat) (old new : BShard) : Prop :=
  ∃ buf es, new = ⟨old.buf ++ buf, old.futures ++ es⟩ ∧ Encodes ff buf es

section Encoding

variable {buf b₁ b₂ : Bytes} {es es₁ es₂ : List Entry} {old new : BShard}

theorem Encodes.nil : Encodes ff [] [] := ⟨rfl, by simp⟩

theorem BShard.wf_empty : BShard.empty.Wf ff := Encodes.nil

theorem Encodes.append (h₁ : Encodes ff b₁ es₁) (h₂ : Encodes ff b₂ es₂) :
    Encodes ff (b₁ ++ b₂) (es₁ ++ es₂) :=
  ⟨by rw [h₁.1, h₂.1]; simp, fun e he => (List.mem_append.mp he).elim (h₁.2 e) (h₂.2 e)⟩

/-- **An empty buffer is one with no entries**: every encoding starts with its header. -/
theorem Encodes.nil_iff (h : Encodes ff buf es) : buf = [] ↔ es = [] := by
  obtain ⟨rfl, hacc⟩ := h
  cases es with
  | nil => simp
  | cons e es => simp [Entry.encoding, respAppendRequest_ne_nil ff e.req (hacc e (by simp))]

theorem BShard.Extends.wf (h : old.Extends ff new) (ho : old.Wf ff) : new.Wf ff := by
  obtain ⟨b, es, rfl, henc⟩ := h
  exact ho.append henc

theorem BShard.Extends.refl (sh : BShard) : sh.Extends ff ⟨sh.buf, sh.futures⟩ := ⟨[], [], by simp, Encodes.nil⟩

/-- `resp.AppendRequest` accepting an entry's request appends the entry's encoding. -/
theorem BShard.Extends.push (h : old.Extends ff ⟨buf, es⟩) (e : Entry)
    (hr : (respAppendRequest ff buf e.req).2 = none) :
    old.Extends ff ⟨(respAppendRequest ff buf e.req).1, es ++ [e]⟩ := by
  obtain ⟨b, es', heq, henc⟩ := h
  obtain ⟨rfl, rfl⟩ := BShard.mk.inj heq
  have hacc : (respAppendRequest ff [] e.req).2 = none := by
    rw [respAppendRequest_append] at hr; split at hr <;> simp_all
  rw [respAppendRequest_append, if_neg (by simp [hacc])]
  exact ⟨b ++ e.encoding ff, es' ++ [e], by simp [Entry.encoding],
    henc.append ⟨by simp [Entry.encoding], by simpa using hacc⟩⟩

/-- A marker appended under a flag: its bytes are its request's encoding. -/
theorem BShard.Extends.marker (h : old.Extends ff ⟨buf, es⟩) (c : Prop) [Decidable c] (e : Entry)
    (bytes : Bytes) (hm : respAppendRequest ff [] e.req = (bytes, none)) :
    old.Extends ff ⟨if c then buf ++ bytes else buf, if c then es ++ [e] else es⟩ := by
  split_ifs
  · have := h.push e (by rw [respAppendRequest_append, hm]; rfl)
    rwa [respAppendRequest_append, hm] at this
  · exact h

/-- `SendBatchFlags`' loop extends the buffer by each request's encoding when it accepts
them all. -/
theorem BShard.Extends.appendBatch {cb : Future} {start : BitVec 64} {reqs : List Request} :
    ∀ {j : Nat} {buf buf' : Bytes} {es es' : List Entry}, old.Extends ff ⟨buf, es⟩ →
      appendBatch ff cb start j buf es reqs = .inl (buf', es') → old.Extends ff ⟨buf', es'⟩ := by
  induction reqs with
  | nil => intro j buf buf' es es' h hb; cases hb; exact h
  | cons r rs ih =>
    intro j buf buf' es es' h hb
    simp only [RedisPipe.Conn.appendBatch] at hb
    split at hb
    · cases hb
    · rename_i b₂ heq
      exact ih (by simpa [heq] using h.push ⟨cb, start + .ofNat 64 j, r⟩ (by simp [heq])) hb

end Encoding

/-! ## Bookkeeping -/

section Simp
variable (s : Sys BufData) (k i : Nat) (p : BPipe) (rs rs' : List Resolution) (new : BShard)
@[simp] theorem Sys.bsetPipe_mgr : (s.bsetPipe k p).mgr = s.mgr := rfl
@[simp] theorem Sys.blog_mgr : (s.blog rs).mgr = s.mgr := rfl
@[simp] theorem Sys.blog_panicked : (s.blog rs).panicked = s.panicked := rfl
@[simp] theorem Sys.blog_shards : (s.blog rs).data.shards = s.data.shards := rfl
@[simp] theorem Sys.blog_pending : (s.blog rs).data.pending = s.data.pending := rfl
@[simp] theorem Sys.blog_pipes : (s.blog rs).data.pipes = s.data.pipes := rfl
@[simp] theorem Sys.blog_nil : s.blog [] = s := by simp [Sys.blog]
@[simp] theorem Sys.blog_blog : (s.blog rs).blog rs' = s.blog (rs ++ rs') := by simp [Sys.blog]
@[simp] theorem benqueue_mgr : (benqueue cfg s i new).mgr = s.mgr := by
  unfold benqueue; dsimp only; split_ifs <;> rfl
@[simp] theorem benqueue_panicked : (benqueue cfg s i new).panicked = s.panicked := by
  unfold benqueue; dsimp only; split_ifs <;> rfl
@[simp] theorem benqueue_pipes : (benqueue cfg s i new).data.pipes = s.data.pipes := by
  unfold benqueue; dsimp only; split_ifs <;> rfl
end Simp

/-! ## Producers -/

/-- What a producer's call on shard `i` can do: resolve futures and touch nothing else, or,
with the shard's lock free and the connection neither closed nor disconnected, extend the
shard by entries with their encodings. -/
def BProduced (cfg : Config) (ff : FloatFormat) (s s' : Sys BufData) (i : Nat) : Prop :=
  (∃ rs, s' = s.blog rs) ∨
    (s.state ≠ .closed ∧ s.state ≠ .disconnected ∧ s.data.locked i = false ∧
      ∃ new, (s.data.shards.getD i BShard.empty).Extends ff new ∧ s' = benqueue cfg s i new)

/-- `doSend` either fails and changes nothing, or extends its shard. -/
theorem bdoSend_cases {i : Nat} {req : Request} {cb : Future} {n : BitVec 64} {asking inactive : Bool}
    {r : Option RedisError} (h : bdoSend cfg ff s i req cb n asking inactive = some (s', r)) :
    s' = s ∨ (r = none ∧ s.state ≠ .closed ∧ s.state ≠ .disconnected ∧ s.data.locked i = false ∧
      ∃ new, (s.data.shards.getD i BShard.empty).Extends ff new ∧ s' = benqueue cfg s i new) := by
  unfold bdoSend at h
  split at h
  · cases h; exact .inl rfl
  split at h
  · cases h
  split at h
  · cases h; exact .inl rfl
  · cases h; exact .inl rfl
  rename_i hl _ hc hd
  dsimp only at h
  split at h
  · cases h; exact .inl rfl
  rename_i b₂ heq
  cases h
  refine .inr ⟨rfl, hc, hd, by simpa using hl, _, ?_, rfl⟩
  have hm := ((BShard.Extends.refl (s.data.shards.getD i BShard.empty)).marker (asking = true)
    ⟨.dumb, 0, askingReq⟩ askingBytes (respAppendRequest_markers ff).1).push ⟨cb, n, req⟩ (by rw [heq])
  rwa [heq] at hm

theorem bsendAsk_produced {i : Nat} {req : Request} {cb : Future} {n : BitVec 64} {asking inactive : Bool}
    (h : bsendAsk cfg ff s i req cb n asking inactive = some s') : BProduced cfg ff s s' i := by
  obtain ⟨⟨s₁, e⟩, h₁, rfl⟩ := Option.map_eq_some'.mp h
  rcases bdoSend_cases h₁ with rfl | ⟨rfl, hq⟩
  · cases e
    · exact .inl ⟨[], by simp⟩
    · exact .inl ⟨_, rfl⟩
  · exact .inr hq

theorem bsendBatchFlags_produced {i : Nat} {reqs : List Request} {cb : Future} {start : BitVec 64}
    {flags : Nat} {inactive : Bool} (h : bsendBatchFlags cfg ff s i reqs cb start flags inactive = some s') :
    BProduced cfg ff s s' i := by
  unfold bsendBatchFlags at h
  split at h
  · cases h; exact .inl ⟨[], by simp⟩
  split at h
  · cases h; exact .inl ⟨_, rfl⟩
  split at h
  · cases h
  split at h
  · cases h; exact .inl ⟨[], by simp⟩
  · cases h; exact .inl ⟨[], by simp⟩
  rename_i hl _ hc hd
  dsimp only at h
  split at h
  · cases h; exact .inl ⟨_, rfl⟩
  rename_i b₂ es₂ heq
  cases h
  refine .inr ⟨hc, hd, by simpa using hl, _, ?_, rfl⟩
  have hpre := ((BShard.Extends.refl (s.data.shards.getD i BShard.empty)).marker (flags &&& doAsking ≠ 0)
    ⟨.dumb, 0, askingReq⟩ askingBytes (respAppendRequest_markers ff).1).marker (flags &&& doTransaction ≠ 0)
    ⟨.dumb, 0, multiReq⟩ multiBytes (respAppendRequest_markers ff).2.1
  exact (hpre.appendBatch heq).marker (flags &&& doTransaction ≠ 0) _ execBytes
    (respAppendRequest_markers ff).2.2

theorem bsendTransaction_produced {i : Nat} {reqs : List Request} {cb : Nat} {off : BitVec 64}
    {inactive inactiveLater : Bool} (h : bsendTransaction cfg ff s i reqs cb off inactive inactiveLater = some s') :
    BProduced cfg ff s s' i := by
  unfold bsendTransaction at h
  split_ifs at h
  · cases h; exact .inl ⟨_, rfl⟩
  · exact bsendBatchFlags_produced h

/-! ## A batch's block -/

/-- The entries of `SendBatchFlags`' loop `for i, req := range requests`, from position `j`. -/
def bbatchEntries (cb : Future) (start : BitVec 64) : Nat → List Request → List Entry
  | _, [] => []
  | j, r :: rs => ⟨cb, start + .ofNat 64 j, r⟩ :: bbatchEntries cb start (j + 1) rs

/-- The entries `SendBatchFlags(reqs, cb, start, flags)` appends to its shard. -/
def batchBlock (reqs : List Request) (cb : Future) (start : BitVec 64) (flags : Nat) : List Entry :=
  (if flags &&& doAsking ≠ 0 then [⟨.dumb, 0, askingReq⟩] else []) ++
    (if flags &&& doTransaction ≠ 0 then [⟨.dumb, 0, multiReq⟩] else []) ++ bbatchEntries cb start 0 reqs ++
    (if flags &&& doTransaction ≠ 0 then [⟨cb, start + .ofNat 64 reqs.length, execReq⟩] else [])

theorem appendBatch_bbatchEntries {cb : Future} {start : BitVec 64} {reqs : List Request} :
    ∀ {j : Nat} {buf buf' : Bytes} {es es' : List Entry}, appendBatch ff cb start j buf es reqs = .inl (buf', es') →
      es' = es ++ bbatchEntries cb start j reqs := by
  induction reqs with
  | nil => intro j buf buf' es es' hb; cases hb; simp [bbatchEntries]
  | cons r rs ih =>
    intro j buf buf' es es' hb
    simp only [RedisPipe.Conn.appendBatch] at hb
    split at hb
    · cases hb
    · simp [ih hb, bbatchEntries]

/-- `SendBatchFlags` calls futures of its batch only, or appends its block to its shard,
whose lock is free. -/
theorem bsendBatchFlags_inv {i : Nat} {reqs : List Request} {cb : Future} {start : BitVec 64} {flags : Nat}
    {inactive : Bool} (h : bsendBatchFlags cfg ff s i reqs cb start flags inactive = some s') :
    (∃ rs, s' = s.blog rs ∧ (rs = [] ∨ rs.map Resolution.key = batchKeys cb start 0 reqs.length) ∧
        ∀ r ∈ rs, ∃ e, r.res = .error e) ∨
      (reqs ≠ [] ∧ s.data.locked i = false ∧ ∃ buf,
        s' = benqueue cfg s i ⟨buf, (s.data.shards.getD i BShard.empty).futures ++ batchBlock reqs cb start flags⟩) := by
  unfold bsendBatchFlags at h
  split at h
  · cases h; exact .inl ⟨[], by simp, .inl rfl, by simp⟩
  rename_i hne
  split at h
  · cases h
    exact .inl ⟨_, rfl, .inr (by simp [batchKeys, Resolution.key, List.range_eq_range', Function.comp_def]), by simp⟩
  split at h
  · cases h
  split at h
  · cases h; exact .inl ⟨[], by simp, .inl rfl, by simp⟩
  · cases h; exact .inl ⟨[], by simp, .inl rfl, by simp⟩
  rename_i hl _ _ _
  dsimp only at h
  split at h
  · cases h; exact .inl ⟨_, rfl, .inr (batchResolutions_keys _ _ _ _ _ _), by simp [batchResolutions]⟩
  rename_i b₂ es₂ heq
  cases h
  refine .inr ⟨hne, by simpa using hl, if flags &&& doTransaction ≠ 0 then b₂ ++ execBytes else b₂, ?_⟩
  rw [appendBatch_bbatchEntries heq, batchBlock]
  by_cases ha : flags &&& doAsking ≠ 0 <;> by_cases ht : flags &&& doTransaction ≠ 0 <;> simp [ha, ht]

theorem BProduced.mgr {i : Nat} (h : BProduced cfg ff s s' i) : s'.mgr = s.mgr := by
  rcases h with ⟨rs, rfl⟩ | ⟨-, -, -, new, -, rfl⟩ <;> simp

/-- A blocked producer's send goes through: it assigns the shard it holds. -/
theorem bresume_cases {i : Nat} (h : bresume cfg s i = some s') :
    ∃ sh, s.data.pending.getD i none = some sh ∧
      s' = { s with data := { s.data with dirty := s.data.dirty ++ [i], shards := s.data.shards.set i sh,
                                          pending := s.data.pending.set i none } } := by
  unfold bresume at h
  split at h
  · cases h
  · rename_i sh hsh
    split_ifs at h
    cases h
    exact ⟨sh, hsh, rfl⟩

/-! ## The manager -/

/-- A manager step leaves the data alone, drops every shard (`closeConnection`, or a failed
dial), or starts a session; the only panic it can raise is `conn.c.LocalAddr()` on a nil
socket. -/
theorem mstep_bdata {t : Nat} {dial : DialResult} (h : mstep bufOps cfg s t dial = some s') :
    (s'.data = s.data ∨ (∃ err, s'.data = s.data.drop err) ∨
      s'.data = { s.data with pipes := s.data.pipes ++ [BPipe.fresh] }) ∧
    (s'.panicked = s.panicked ∨ s'.panicked = some .nilDeref) := by
  -- this version's `closeConnection(_, true)` does not close `conn.dirtyShard`
  rcases mstep_data_cases h with ⟨hd, hp⟩ | ⟨-, err, hd, hp⟩ | ⟨-, -, err, -, -, ⟨d, ⟨⟩, hd, hp, -⟩ | ⟨⟨⟩, -⟩⟩ |
    ⟨-, hd, hp⟩
  · exact ⟨.inl hd, hp⟩
  · exact ⟨.inr (.inl ⟨err, hd⟩), .inl hp⟩
  · exact ⟨.inr (.inl ⟨err, hd⟩), .inl hp⟩
  · exact ⟨.inr (.inr hd), .inl hp⟩

/-! ## Writers and readers -/

/-- An idle writer (one that holds no batch) holds an empty buffer and an empty list. -/
def BPipe.idleEmpty (p : BPipe) : Prop :=
  p.writer.pc.idle = true → p.writer.packet = [] ∧ p.writer.futures = []

/-- Of the data, `s'` differs from `s` only in session `k`'s pipe, now `p'`, and in the log. -/
def Sys.bOnlyPipe (s s' : Sys BufData) (k : Nat) (p' : BPipe) : Prop :=
  s'.data.shards = s.data.shards ∧ s'.data.pending = s.data.pending ∧ s'.panicked = s.panicked ∧
    s'.data.pipes = s.data.pipes.set k p'

section OnlyPipe
variable (s : Sys BufData) (k k' : Nat) (p' : BPipe) (e : RedisError) (rs : List Resolution)
theorem bOnlyPipe_bsetPipe : s.bOnlyPipe (s.bsetPipe k p') k p' := ⟨rfl, rfl, rfl, rfl⟩
theorem bOnlyPipe_setErr : s.bOnlyPipe ((s.setErrBuffered k' e).bsetPipe k p') k p' := by
  simp [Sys.bOnlyPipe]
theorem bOnlyPipe_setErr_blog : s.bOnlyPipe (((s.setErrBuffered k' e).blog rs).bsetPipe k p') k p' := by
  simp [Sys.bOnlyPipe]
end OnlyPipe

/-- The writer's `select` moves only the writer, and keeps what it holds. -/
theorem bselect_cases {k : Nat} {p : BPipe} {one : Session} {blocking : Bool} {sel : Sel}
    (h : s.bselect k p one blocking sel = some s') :
    s'.mgr = s.mgr ∧ ∃ p', s.bOnlyPipe s' k p' ∧ p'.writer.packet = p.writer.packet ∧
      p'.writer.futures = p.writer.futures := by
  unfold Sys.bselect at h
  repeat' split at h
  all_goals first
    | (cases h; done)
    | (cases h; exact ⟨rfl, _, ⟨rfl, rfl, rfl, rfl⟩, rfl, rfl⟩)

/-- The writer's `select` receives an index into a swap, returns, or takes `default`. -/
theorem bselect_inv {k : Nat} {p : BPipe} {one : Session} {blocking : Bool} {sel : Sel}
    (h : s.bselect k p one blocking sel = some s') :
    (∃ i rest, s.data.dirty = i :: rest ∧
      s' = { s with data := { s.data with dirty := rest } }.bsetPipe k (p.goto (.swap i))) ∨
    s' = s.bsetPipe k p.exit ∨ s' = s.bsetPipe k (p.goto .flush) := by
  unfold Sys.bselect at h
  split at h
  · split at h
    · cases h; exact .inl ⟨_, _, ‹_›, rfl⟩
    · cases h
  all_goals (split_ifs at h; cases h; simp)

/-- A writer step changes nothing but its own pipe, keeping an idle writer empty-handed, or
swaps shard `i`: it puts its buffer and list into the shard and takes the shard's, or
panics when it takes an empty buffer with a non-empty list. -/
theorem bwstep_cases {k : Nat} {sel : Sel} {ok : Bool} (h : bwstep cfg s k sel ok = some s') :
    ∃ p, s.data.pipes[k]? = some p ∧
      ((∃ p', s.bOnlyPipe s' k p' ∧ (p.idleEmpty → p'.idleEmpty)) ∨
        ∃ i, p.writer.pc = .swap i ∧
          s'.data.shards = s.data.shards.set i ⟨p.writer.packet, p.writer.futures⟩ ∧
          s'.data.pending = s.data.pending ∧
          (((s.data.shards.getD i BShard.empty).buf = [] ∧ (s.data.shards.getD i BShard.empty).futures ≠ [] ∧
              s'.panicked = some .emptyPacket) ∨
            (s'.panicked = s.panicked ∧ ∃ p', s'.data.pipes = s.data.pipes.set k p' ∧ p'.idleEmpty))) := by
  unfold bwstep at h
  split at h
  · rename_i p one hp _
    refine ⟨p, hp, ?_⟩
    dsimp only at h
    have hsel : ∀ {blocking : Bool}, p.writer.pc.idle = true → s.bselect k p one blocking sel = some s' →
        ∃ p', s.bOnlyPipe s' k p' ∧ (p.idleEmpty → p'.idleEmpty) := fun hidle h => by
      obtain ⟨-, p', hq, hpk, hfk⟩ := bselect_cases h
      exact ⟨p', hq, fun hi _ => by rw [hpk, hfk]; exact hi hidle⟩
    split at h
    · rename_i hpc; exact .inl (hsel (by simp [hpc, BWPc.idle]) h)
    · rename_i hpc
      split at h <;> cases h
      · exact .inl ⟨_, bOnlyPipe_setErr .., by simp [BPipe.idleEmpty, BWPc.idle]⟩
      · exact .inl ⟨_, bOnlyPipe_bsetPipe .., fun hi _ => by simpa using hi (by simp [hpc, BWPc.idle])⟩
    · rename_i hpc; exact .inl (hsel (by simp [hpc, BWPc.idle]) h)
    · rename_i i hpc
      split at h
      · cases h
      refine .inr ⟨i, hpc, ?_⟩
      split at h
      · split at h <;> cases h
        · exact ⟨rfl, rfl, .inl ⟨‹_›, ‹_›, rfl⟩⟩
        · exact ⟨rfl, rfl, .inr ⟨rfl, _, rfl, fun _ => ⟨‹_›, not_not.mp ‹_›⟩⟩⟩
      · cases h; exact ⟨rfl, rfl, .inr ⟨rfl, _, rfl, by simp [BPipe.idleEmpty, BWPc.idle]⟩⟩
    · split at h <;> cases h <;> exact .inl ⟨_, bOnlyPipe_bsetPipe .., by simp [BPipe.idleEmpty, BWPc.idle]⟩
    · split at h
      · split at h <;> cases h <;> exact .inl ⟨_, bOnlyPipe_bsetPipe .., by simp [BPipe.idleEmpty, BWPc.idle]⟩
      · cases h
    · cases h; exact .inl ⟨_, bOnlyPipe_setErr .., by simp [BPipe.idleEmpty, BWPc.idle]⟩
    · split at h <;> cases h
      · exact .inl ⟨_, bOnlyPipe_bsetPipe .., fun _ _ => ⟨rfl, rfl⟩⟩
      · exact .inl ⟨_, bOnlyPipe_setErr .., by simp [BPipe.idleEmpty, BWPc.idle]⟩
    · cases h
  · cases h

/-- A reader step changes nothing but its own pipe, and never its writer. -/
theorem brstep_cases {k : Nat} {r : ReadResult} (h : brstep s k r = some s') :
    ∃ p p', s.data.pipes[k]? = some p ∧ s.bOnlyPipe s' k p' ∧ p'.writer = p.writer := by
  unfold brstep at h
  split at h
  · rename_i p one hp _
    dsimp only at h
    repeat' split at h
    all_goals first
      | (cases h; done)
      | (cases h; exact ⟨p, _, hp, bOnlyPipe_bsetPipe .., rfl⟩)
      | (cases h; exact ⟨p, _, hp, bOnlyPipe_setErr_blog .., rfl⟩)
  · cases h

/-! ## The manager's skeleton -/

theorem bselect_mgr {k : Nat} {p : BPipe} {one : Session} {blocking : Bool} {sel : Sel}
    (h : s.bselect k p one blocking sel = some s') : s'.mgr = s.mgr :=
  (bselect_cases h).1

theorem bwstep_mgr {k : Nat} {sel : Sel} {ok : Bool} (h : bwstep cfg s k sel ok = some s') :
    MTrans s.mgr s'.mgr ∨ s'.mgr = s.mgr := by
  unfold bwstep at h
  dsimp only at h
  repeat' split at h
  all_goals first
    | (cases h; first | exact .inr rfl | simpa using setErrBuffered_mgr _ _)
    | exact .inr (bselect_mgr h)
    | cases h

theorem brstep_mgr {k : Nat} {r : ReadResult} (h : brstep s k r = some s') :
    MTrans s.mgr s'.mgr ∨ s'.mgr = s.mgr := by
  unfold brstep at h
  dsimp only at h
  repeat' split at h
  all_goals first | (cases h; first | exact .inr rfl | simpa using setErrBuffered_mgr _ _) | cases h

theorem bstep_mgr {a : BAction} (h : bstep cfg ff s a = some s') : MTrans s.mgr s'.mgr ∨ s'.mgr = s.mgr := by
  unfold bstep at h
  split_ifs at h
  cases a <;> simp only at h
  · exact mstep_mgr h
  · split_ifs at h; exact .inr (bsendAsk_produced h).mgr
  · split_ifs at h; exact .inr (bsendBatchFlags_produced h).mgr
  · split_ifs at h; exact .inr (bsendTransaction_produced h).mgr
  · obtain ⟨sh, -, rfl⟩ := bresume_cases h; exact .inr rfl
  · exact bwstep_mgr h
  · exact brstep_mgr h
  · cases h; exact .inr rfl

/-- **The manager's invariant holds in every reachable state of the buffered version.** -/
theorem BReachable.mInv (hs : BReachable cfg ff s) : MInv s.mgr := by
  induction hs with
  | init => exact MInv.initial cfg _
  | step a _ h ih =>
    rcases bstep_mgr h with h' | h'
    · exact ih.trans h'
    · exact h' ▸ ih

end RedisPipe.Conn
