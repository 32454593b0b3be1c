import RedisPipe.Buffered.Blocks

/-!
# No entry is handed to a reader twice in the buffered version

`redisconn/conn.go:250-383` (the producers), `:550-567` (`dropShardFutures`) and `:646-721`
(the writer). A producer appends its call's entries to a shard. A writer, of whichever
session, current or already failed, takes a shard's list whole, leaves the shard empty, and
sends the list on its session's `one.futures` once. `dropShardFutures` calls what is left in
the shards. Nothing puts an entry back into a shard, so no entry reaches a reader twice, and
no request reaches a socket twice, whatever the reconnections.

* `handed_at_most_once`: along every run from `Connect`'s state, the entries the writers of
  all sessions have sent on `one.futures`, in order, form a sub-multiset of the blocks of the
  run's calls.

The count is kept by `BufData.unhanded`, the entries no reader has been handed yet: those in
the shards, in blocked producers' lists and in writers' batches before the hand-over. A call
adds its block to it, a hand-over moves a batch from it to the trace, and every other step
moves entries within it or calls them. The writer's and the producers' moves are those of
`BufData.inFlight`, which is `unhanded` and what the readers hold.
-/

set_option autoImplicit false

namespace RedisPipe.Conn

variable {cfg : Config} {ff : FloatFormat} {s s' : Sys BufData}

/-! ## Entries not yet handed over -/

/-- The writer's batch before it is handed over. -/
def BPipe.held (p : BPipe) : List Entry := if p.writer.pc.holding then p.writer.futures else []

/-- What a session's reader holds: the rest of its batch and the batches on `one.futures`. -/
def BPipe.readerSide (p : BPipe) : List Entry := p.reader.owed ++ p.chan.flatten

/-- Every entry no reader has been handed yet. -/
def BufData.unhanded (d : BufData) : List Entry :=
  (d.shards.map BShard.futures).flatten ++ (d.pending.map pendingFutures).flatten ++
    (d.pipes.map BPipe.held).flatten

/-- The entries action `a` from `s` sends on a session's `one.futures`. -/
def BAction.handed (cfg : Config) (s : Sys BufData) : BAction → List Entry
  | .writer k _ ok => (s.data.pipes[k]?.map fun p => (p.writerEvents cfg ok).flatMap SessionEvent.handed).getD []
  | _ => []

/-- The entries the writers of all sessions hand over along a run, up to the first step that
cannot be taken. -/
def handedRun (cfg : Config) (ff : FloatFormat) : Sys BufData → List BAction → List Entry
  | _, [] => []
  | s, a :: as =>
    match bstep cfg ff s a with
    | some s' => a.handed cfg s ++ handedRun cfg ff s' as
    | none => []

/-! ## `inFlight` is `unhanded` and the readers' side -/

section Split

variable {d d' : BufData}

theorem flatten_map_append_coe {α β : Type} (f g : α → List β) (l : List α) :
    ((l.map fun x => f x ++ g x).flatten : Multiset β) = (l.map f).flatten + (l.map g).flatten := by
  induction l with
  | nil => simp
  | cons x xs ih =>
    simp only [List.map_cons, List.flatten_cons, ← Multiset.coe_add] at ih ⊢
    rw [ih]
    ac_rfl

theorem inFlight_unhanded (d : BufData) :
    (d.inFlight : Multiset Entry) = d.unhanded + (d.pipes.map BPipe.readerSide).flatten := by
  have h := flatten_map_append_coe BPipe.readerSide BPipe.held d.pipes
  simp only [BufData.inFlight, BufData.unhanded, ← Multiset.coe_add]
  rw [show (d.pipes.map BPipe.inFlight) = d.pipes.map fun p => p.readerSide ++ p.held from rfl, h]
  ac_rfl

/-- A step that leaves the readers' side alone moves `unhanded` as it moves `inFlight`. -/
theorem unhanded_of_inFlight (hpi : d'.pipes = d.pipes) {a b : Multiset Entry}
    (h : (d.inFlight : Multiset Entry) + a = d'.inFlight + b) : (d.unhanded : Multiset Entry) + a = d'.unhanded + b := by
  rw [inFlight_unhanded, inFlight_unhanded, hpi, add_right_comm, add_right_comm (d'.unhanded : Multiset Entry)] at h
  exact add_right_cancel h

/-- A step that changes only pipe `k`, keeping its writer's batch. -/
theorem unhanded_setPipe (hs : d'.shards = d.shards) (hq : d'.pending = d.pending) {k : Nat} {p p' : BPipe}
    (hp : d.pipes[k]? = some p) (hpi : d'.pipes = d.pipes.set k p') (hh : p'.held = p.held) :
    (d'.unhanded : Multiset Entry) = d.unhanded := by
  have h := flatten_map_set_coe BPipe.held hp p'
  rw [hh] at h
  simp only [BufData.unhanded, hs, hq, hpi, ← Multiset.coe_add, add_right_cancel h]

/-- Replacing pipe `k` by one whose readers' side gained `es`. -/
theorem readerSide_set {k : Nat} {p p' : BPipe} (hp : d.pipes[k]? = some p) (hpi : d'.pipes = d.pipes.set k p')
    {es : List Entry} (h : p'.readerSide = p.readerSide ++ es) :
    ((d'.pipes.map BPipe.readerSide).flatten : Multiset Entry) = (d.pipes.map BPipe.readerSide).flatten + es := by
  have hs := flatten_map_set_coe BPipe.readerSide hp p'
  rw [h, ← hpi, ← Multiset.coe_add, add_comm (p.readerSide : Multiset Entry), ← add_assoc] at hs
  exact (add_right_cancel hs).symm

end Split

/-! ## What each step hands over -/

/-- A writer step sends on `one.futures` what it shows as handed over, and changes nothing
else of its readers' side. -/
theorem bwstep_handed {k : Nat} {sel : Sel} {ok : Bool} (h : bwstep cfg s k sel ok = some s') :
    ∃ p, s.data.pipes[k]? = some p ∧
      ((s'.data.pipes = s.data.pipes ∧ (p.writerEvents cfg ok).flatMap SessionEvent.handed = []) ∨
        ∃ p', s'.data.pipes = s.data.pipes.set k p' ∧
          p'.readerSide = p.readerSide ++ (p.writerEvents cfg ok).flatMap SessionEvent.handed) := by
  unfold bwstep at h
  split at h
  · rename_i p one hp _
    dsimp only at h
    refine ⟨p, hp, ?_⟩
    repeat' split at h
    all_goals first
      | (cases h; done)
      | (rcases bselect_inv h with ⟨i, rest, -, rfl⟩ | rfl | rfl <;>
          exact .inr ⟨_, rfl, by simp [BPipe.writerEvents, BPipe.readerSide, SessionEvent.handed, *]⟩)
      | (cases h; exact .inr ⟨_, rfl, by simp [BPipe.writerEvents, BPipe.readerSide, SessionEvent.handed, *]⟩)
      | (cases h; exact .inr ⟨_, by rw [Sys.bsetPipe_pipes, Sys.setErrBuffered_data],
          by simp [BPipe.writerEvents, BPipe.readerSide, SessionEvent.handed, *]⟩)
      | (cases h; exact .inl ⟨rfl, by simp [BPipe.writerEvents, SessionEvent.handed, *]⟩)
  · cases h

section Step

variable (hR : BInv ff s) (hD : BDeliv cfg s.data)
include hR hD

/-- A producer's append whose shard's lock is free adds its entries to `unhanded`. -/
theorem unhanded_benqueue {i : Nat} (hi : i < cfg.concurrency) (hl : s.data.locked i = false) (buf : Bytes)
    (es : List Entry) :
    ((benqueue cfg s i ⟨buf, (s.data.shards.getD i BShard.empty).futures ++ es⟩).data.unhanded : Multiset Entry) ≤
      s.data.unhanded + es := by
  have h := unhanded_of_inFlight (by simp) ((inFlight_benqueue hR hD hi hl buf es).symm.trans (add_zero _).symm)
  rw [add_zero] at h
  exact h.symm.le

theorem unhanded_sendBatchFlags {i : Nat} (hi : i < cfg.concurrency) {reqs : List Request} {cb : Future}
    {start : BitVec 64} {flags : Nat} {inactive : Bool} (h : bsendBatchFlags cfg ff s i reqs cb start flags inactive = some s') :
    (s'.data.unhanded : Multiset Entry) ≤ s.data.unhanded + (if reqs = [] then [] else batchBlock reqs cb start flags) := by
  rcases bsendBatchFlags_inv h with ⟨rs, rfl, -⟩ | ⟨hne, hl, buf, rfl⟩
  · exact Multiset.le_add_right _ _
  · rw [if_neg hne]
    exact unhanded_benqueue hR hD hi hl buf _

omit hD in
/-- A writer step moves entries within `unhanded` and hands some over. -/
theorem unhanded_wstep {k : Nat} {sel : Sel} {ok : Bool} (h : bwstep cfg s k sel ok = some s') :
    (s'.data.unhanded : Multiset Entry) + (BAction.writer k sel ok).handed cfg s ≤ s.data.unhanded := by
  obtain ⟨-, hq, p, p', hp, hpi, hmv⟩ := bwstep_moves hR h
  have hf : (s.data.inFlight : Multiset Entry) = s'.data.inFlight := by
    rcases hmv with ⟨hs, hf⟩ | ⟨i, -, hs, hf⟩
    · simpa using inFlight_ownPipe hs hq hp hpi (show p.inFlight = [] ++ p'.inFlight by simp [hf])
    · exact inFlight_swap hq hs hp hpi hf
  obtain ⟨q, hq', hcase⟩ := bwstep_handed h
  obtain rfl : p = q := Option.some.inj (hp.symm.trans hq')
  have hrs : ((s'.data.pipes.map BPipe.readerSide).flatten : Multiset Entry) =
      (s.data.pipes.map BPipe.readerSide).flatten + (p.writerEvents cfg ok).flatMap SessionEvent.handed := by
    rcases hcase with ⟨hpi', hnil⟩ | ⟨p'', hpi', hrs⟩
    · simp [hpi', hnil]
    · exact readerSide_set hp hpi' hrs
  simp only [BAction.handed, hp, Option.map_some', Option.getD_some]
  rw [inFlight_unhanded, inFlight_unhanded, hrs, ← add_assoc, add_right_comm (s'.data.unhanded : Multiset Entry)] at hf
  exact (add_right_cancel hf).ge

/-- **Each step hands over at most what it adds**: a call adds its block to `unhanded`, a
hand-over moves a batch from `unhanded` to a reader, and every other step moves entries
within `unhanded` or calls them. -/
theorem unhanded_step {a : BAction} (h : bstep cfg ff s a = some s') :
    (s'.data.unhanded : Multiset Entry) + a.handed cfg s ≤ s.data.unhanded + a.block := by
  unfold bstep at h
  split_ifs at h
  cases a <;> simp only at h
  · simp only [BAction.handed, BAction.block, Multiset.coe_nil, add_zero]
    rcases (mstep_bdata h).1 with hd | ⟨err, hd⟩ | hd <;> rw [hd]
    · have hu := unhanded_of_inFlight (show (s.data.drop err).pipes = s.data.pipes from rfl)
        (show (s.data.inFlight : Multiset Entry) + 0 = (s.data.drop err).inFlight + (s.data.shards.map BShard.futures).flatten by
          rw [inFlight_drop err s.data, add_zero, ← Multiset.coe_add, add_comm])
      rw [add_zero] at hu
      rw [hu]
      exact Multiset.le_add_right _ _
    · simp [BufData.unhanded, BPipe.held, BPipe.fresh, BWPc.holding]
  · rename_i i req cb n asking inactive
    split_ifs at h with hc
    obtain ⟨⟨s₁, e⟩, h₁, rfl⟩ := Option.map_eq_some'.mp h
    simp only [BAction.handed, Multiset.coe_nil, add_zero]
    rcases bdoSend_entries h₁ with rfl | ⟨rfl, hl, buf, rfl⟩
    · cases e <;> exact Multiset.le_add_right _ _
    · exact unhanded_benqueue hR hD hc.2 hl buf _
  · split_ifs at h with hc
    simpa [BAction.handed] using unhanded_sendBatchFlags hR hD hc.2 h
  · split_ifs at h with hc
    unfold bsendTransaction at h
    simp only [BAction.handed, BAction.block, Multiset.coe_nil, add_zero]
    split_ifs at h
    · cases h; exact Multiset.le_add_right _ _
    · exact unhanded_sendBatchFlags hR hD hc.2 h
  · obtain ⟨sh, -, hs'⟩ := bresume_cases h
    have hu : (s.data.unhanded : Multiset Entry) + 0 = s'.data.unhanded + 0 :=
      unhanded_of_inFlight (by simp [hs']) (by rw [(inFlight_resume hD h).1])
    simpa [BAction.handed, BAction.block] using hu.ge
  · simpa [BAction.block] using unhanded_wstep hR h
  · obtain ⟨p, p', hp, hq, hw⟩ := brstep_cases h
    simp only [BAction.handed, BAction.block, Multiset.coe_nil, add_zero]
    exact (unhanded_setPipe hq.1 hq.2.1 hp hq.2.2.2 (by simp [BPipe.held, hw])).le
  · cases h; exact le_rfl

end Step

/-! ## Whole runs -/

theorem unhanded_run (hs : BReachable cfg ff s) {as : List BAction} (h : brun cfg ff s as = some s') :
    (s'.data.unhanded : Multiset Entry) + handedRun cfg ff s as ≤ s.data.unhanded + as.flatMap BAction.block := by
  induction as generalizing s with
  | nil => cases h; simp [handedRun]
  | cons a as ih =>
    obtain ⟨s₁, h₁, h⟩ := Option.bind_eq_some.mp h
    have hstep := unhanded_step hs.bInv hs.bDeliv h₁
    have hrest := ih (.step a hs h₁) h
    simp only [handedRun, h₁, List.flatMap_cons, ← Multiset.coe_add]
    calc (s'.data.unhanded : Multiset Entry) + (a.handed cfg s + handedRun cfg ff s₁ as)
        = (s'.data.unhanded + handedRun cfg ff s₁ as) + a.handed cfg s := by ac_rfl
      _ ≤ (s₁.data.unhanded + as.flatMap BAction.block) + a.handed cfg s := add_le_add_right hrest _
      _ = (s₁.data.unhanded + a.handed cfg s) + as.flatMap BAction.block := by ac_rfl
      _ ≤ (s.data.unhanded + a.block) + as.flatMap BAction.block := add_le_add_right hstep _
      _ = s.data.unhanded + (a.block + as.flatMap BAction.block) := by ac_rfl

theorem unhanded_initial (cfg : Config) : (BufData.initial cfg).unhanded = [] := by
  simp [BufData.unhanded, BufData.initial]

/-! ## No entry handed over twice -/

/-- **No entry is handed to a reader twice, so no request is written twice.** Along every
run from `Connect`'s state, over all sessions, the current one and those already failed, the
entries the writers have sent on `one.futures`, whose requests are the ones written on the
sockets, are a sub-multiset of the blocks the run's calls appended: each entry
is handed over at most as often as a call issued it. -/
theorem handed_at_most_once {as : List BAction} (h : brun cfg ff (Sys.initial cfg (BufData.initial cfg)) as = some s) :
    List.Subperm (handedRun cfg ff (Sys.initial cfg (BufData.initial cfg)) as) (as.flatMap BAction.block) := by
  have hr := unhanded_run BReachable.init h
  rw [show (Sys.initial cfg (BufData.initial cfg)).data.unhanded = [] from unhanded_initial cfg, Multiset.coe_nil,
    zero_add] at hr
  exact Multiset.coe_le.mp (le_trans (Multiset.le_add_left _ _) hr)

/-- `Send(PING)` on a fresh connection: the writers hand over the call's one entry, once. -/
theorem handed_at_most_once_ping :
    ∃ s, brun oneShard noFloats (Sys.initial oneShard (BufData.initial oneShard)) (connectPing ++ deliverPing) = some s ∧
      handedRun oneShard noFloats (Sys.initial oneShard (BufData.initial oneShard)) (connectPing ++ deliverPing) =
        [⟨.cb 1, 0, pingReq⟩] ∧
      List.Subperm (handedRun oneShard noFloats (Sys.initial oneShard (BufData.initial oneShard)) (connectPing ++ deliverPing))
        ((connectPing ++ deliverPing).flatMap BAction.block) := by
  obtain ⟨s, h, -⟩ := @brun_of_any oneShard noFloats (Sys.initial oneShard (BufData.initial oneShard))
    (connectPing ++ deliverPing) (fun _ => true) (by decide)
  exact ⟨s, h, by decide, handed_at_most_once h⟩

end RedisPipe.Conn
