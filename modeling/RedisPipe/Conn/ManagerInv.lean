import Mathlib.Data.List.Nodup
import RedisPipe.Conn.Skeleton

/-!
# The manager's invariant

`MInv` holds of every skeleton the manager's goroutines reach (`MInv.trans`), in both
versions. Its clauses are what `conn.mutex` and the order of `Connect`'s steps buy:

* each goroutine is at a point of its own code (`Thread.wf`), and every goroutine but
  `Connect`'s holds the mutex at the points of `createConnection` and `closeConnection`
  (`TOk.owner`): two such goroutines are never there together;
* `Connect`'s first attempt runs, without the mutex, before any other goroutine or
  session exists (`TOk.first`);
* a `reconnect` goroutine inside `closeConnection(_, false)` has its own session's socket
  in `conn.c` (`TOk.closing`), and each session's fault closes at most once
  (`MInv.nodup`);
* once `conn.state` is `connClosed`, no goroutine is about to store it (`TOk.closed`):
  the only stores are made under the mutex or by `Connect` before `control` exists.

The preservation proof is one lemma for the goroutines that do not move (`TOk.other`),
one for a move of one goroutine (`MInv.move`), and one short lemma per transition.
-/

set_option autoImplicit false

namespace RedisPipe.Conn

/-! ## Goroutines after a move -/

theorem getElem?_move {m : Mgr} {t : Nat} {th : Thread} (ht : m.threads[t]? = some th) (th' : Thread)
    (u : Nat) : (m.threads.set t th')[u]? = if u = t then some th' else m.threads[u]? := by
  have := (List.getElem?_eq_some_iff.mp ht).1
  simp only [List.getElem?_set]
  split_ifs <;> first | rfl | omega

theorem getElem?_set_eq_some {α : Type} {l : List α} {k u : Nat} {a a' b : α} (hk : l[k]? = some a)
    (h : (l.set k a')[u]? = some b) : (u = k ∧ b = a') ∨ (u ≠ k ∧ l[u]? = some b) := by
  have := (List.getElem?_eq_some_iff.mp hk).1
  rw [List.getElem?_set] at h
  split_ifs at h with hu
  · exact .inl ⟨hu.symm, (Option.some.inj h).symm⟩
  · exact .inr ⟨Ne.symm hu, h⟩

theorem getElem?_concat_eq_some {α : Type} {l : List α} {x y : α} {u : Nat} (h : (l ++ [x])[u]? = some y) :
    l[u]? = some y ∨ y = x := by
  by_cases hl : u < l.length
  · exact .inl (by rwa [List.getElem?_append_left hl] at h)
  · rw [List.getElem?_append_right (by omega)] at h
    cases hu : u - l.length <;> simp_all

theorem MPc.holding_of_closing {pc : MPc} (h : pc.closing = true) : pc.holding = true := by
  cases pc <;> simp_all [MPc.closing, MPc.holding]

/-- Outside `control`, the points that store `conn.state` are all under the mutex. -/
theorem Thread.holding_of_storing {th : Thread} (hwf : th.wf = true) (hs : th.pc.storing = true)
    (hr : th.role ≠ .control) : th.pc.holding = true := by
  rcases th with ⟨_ | _ | _ | _, pc, _⟩ <;> cases pc <;>
    simp_all [Thread.wf, MPc.storing, MPc.holding, MPc.creating]

/-! ## The invariant -/

/-- What goroutine `u`, which is `th`, says about the skeleton `m`. -/
structure TOk (m : Mgr) (u : Nat) (th : Thread) : Prop where
  wf : th.wf = true
  owner : th.role ≠ .connect → th.pc.holding = true → m.mutex = some u
  first : th.role = .connect → th.pc.first = true → m.threads.length = 1 ∧ m.sessions = 0
  closing : ∀ k, th.role = .reconnect k → th.pc.closing = true → m.c = some k
  closed : m.state = .closed → th.pc.storing = false
  lockedClosed : ∀ err, th.pc = .closeLocked err true → m.state = .closed
  /-- A goroutine about to dial finds no socket. -/
  fresh : th.pc = .ccStore ∨ th.pc = .dialing → m.c = none

/-- The manager's invariant. -/
structure MInv (m : Mgr) : Prop where
  thread : ∀ (u : Nat) (th : Thread), m.threads[u]? = some th → TOk m u th
  /-- There is one `Connect` goroutine and at most one `control`. -/
  single : ∀ (u u' : Nat) (th th' : Thread), m.threads[u]? = some th → m.threads[u']? = some th' → th.role = th'.role →
    th.role = .connect ∨ th.role = .control → u = u'
  /-- `control` is started when `Connect` is done. -/
  afterConnect : ∀ (u : Nat) (th : Thread) (u' : Nat) (th' : Thread), m.threads[u]? = some th → th.role = .control →
    m.threads[u']? = some th' → th'.role = .connect → th'.pc = .done
  closedControl : m.state = .closed → ∃ (u : Nat) (th : Thread), m.threads[u]? = some th ∧ th.role = .control
  c_lt : ∀ k, m.c = some k → k < m.sessions
  faultCloses_lt : ∀ k ∈ m.faultCloses, k < m.sessions
  faultCloses_live : ∀ k ∈ m.faultCloses, m.c = some k →
    ∃ (u : Nat) (th : Thread), m.threads[u]? = some th ∧ th.role = .reconnect k ∧ th.pc.closing = true
  nodup : m.faultCloses.Nodup

/-! ## Preservation -/

section Move

variable {m m' : Mgr} {t : Nat} {th : Thread}

/-- **A goroutine that does not move keeps its facts**, whatever goroutine `t` does to
the mutex, `conn.c` and `conn.state` within what the mutex allows. -/
theorem TOk.other (hI : MInv m) (ht : m.threads[t]? = some th) {u : Nat} {th₀ : Thread}
    (hu : m.threads[u]? = some th₀) (hne : u ≠ t)
    (hmutex : m'.mutex = m.mutex ∨ m.mutex = none ∨ m.mutex = some t)
    (hc : m'.c = m.c ∨ m.mutex = some t ∨ m.threads.length = 1)
    (hstate : m'.state = m.state ∨
      (th.pc.storing = true ∧ (m'.state = .closed → th.role = .control ∧ m.mutex = some t))) :
    TOk m' u th₀ := by
  have ho := hI.thread u th₀ hu
  have ha := hI.thread t th ht
  have hlu := (List.getElem?_eq_some_iff.mp hu).1
  have hlt := (List.getElem?_eq_some_iff.mp ht).1
  refine ⟨ho.wf, fun hr hh => ?_, fun hr hf => ?_, fun k hr hcl => ?_, fun hs => ?_, fun err hpc => ?_,
    fun hpc => ?_⟩
  · have hmu := ho.owner hr hh
    rcases hmutex with h | h | h
    · rwa [h]
    · simp_all
    · exact absurd (Option.some.inj (hmu.symm.trans h)) hne
  · have := (ho.first hr hf).1
    omega
  · have hmu : m.mutex = some u := ho.owner (by simp [hr]) (MPc.holding_of_closing hcl)
    rcases hc with h | h | h
    · rw [h]; exact ho.closing k hr hcl
    · exact absurd (Option.some.inj (hmu.symm.trans h)) hne
    · omega
  · rcases hstate with h | ⟨-, h⟩
    · exact ho.closed (h ▸ hs)
    · obtain ⟨hctl, hmt⟩ := h hs
      cases hsto : th₀.pc.storing
      · rfl
      · by_cases hr : th₀.role = .control
        · exact absurd (hI.single u t th₀ th hu ht (hr.trans hctl.symm) (.inr hr)) hne
        · by_cases hcn : th₀.role = .connect
          · simp [hI.afterConnect t th u th₀ ht hctl hu hcn, MPc.storing] at hsto
          · have := ho.owner hcn (Thread.holding_of_storing ho.wf hsto hr)
            exact absurd (Option.some.inj (this.symm.trans hmt)) hne
  · have hcl := ho.lockedClosed err hpc
    rcases hstate with h | ⟨hst, -⟩
    · rw [h]; exact hcl
    · simp [ha.closed hcl] at hst
  · rcases hc with h | h | h
    · rw [h]; exact ho.fresh hpc
    · by_cases hcn : th₀.role = .connect
      · have := (ho.first hcn (by rcases hpc with e | e <;> simp [e, MPc.first])).1
        omega
      · have := ho.owner hcn (by rcases hpc with e | e <;> simp [e, MPc.holding])
        exact absurd (Option.some.inj (this.symm.trans h)) hne
    · omega

/-- **One goroutine moves.** The invariant carries over when the mover's new point checks out
(`hactor`), what it does to the mutex, `conn.c` and `conn.state` is what `TOk.other`
allows, and the new skeleton's counters check out. -/
theorem MInv.move (hI : MInv m) (ht : m.threads[t]? = some th) {th' : Thread}
    (hm' : m'.threads = m.threads.set t th') (hrole : th'.role = th.role) (hdone : th.pc ≠ .done)
    (hactor : TOk m' t th')
    (hmutex : m'.mutex = m.mutex ∨ m.mutex = none ∨ m.mutex = some t)
    (hc : m'.c = m.c ∨ m.mutex = some t ∨ m.threads.length = 1)
    (hstate : m'.state = m.state ∨
      (th.pc.storing = true ∧ (m'.state = .closed → th.role = .control ∧ m.mutex = some t)))
    (hctl : m'.state = .closed → m.state = .closed ∨ th.role = .control)
    (hcLt : ∀ k, m'.c = some k → k < m'.sessions)
    (hfcLt : ∀ k ∈ m'.faultCloses, k < m'.sessions)
    (hfcLive : ∀ k ∈ m'.faultCloses, m'.c = some k →
      ∃ (u : Nat) (th₀ : Thread), m'.threads[u]? = some th₀ ∧ th₀.role = .reconnect k ∧
        th₀.pc.closing = true)
    (hnodup : m'.faultCloses.Nodup) : MInv m' := by
  have hget : ∀ (u : Nat) (th₀ : Thread), m'.threads[u]? = some th₀ →
      (u = t ∧ th₀ = th') ∨ (u ≠ t ∧ m.threads[u]? = some th₀) := fun u th₀ h =>
    getElem?_set_eq_some ht (hm' ▸ h : (m.threads.set t th')[u]? = some th₀)
  have hold : ∀ (u : Nat) (th₀ : Thread), m'.threads[u]? = some th₀ →
      ∃ th₁ : Thread, m.threads[u]? = some th₁ ∧ th₁.role = th₀.role := fun u th₀ h => by
    rcases hget u th₀ h with ⟨hu, he⟩ | ⟨-, h⟩
    · subst he; exact ⟨th, hu ▸ ht, hrole.symm⟩
    · exact ⟨th₀, h, rfl⟩
  have hset : ∀ u, m'.threads[u]? = if u = t then some th' else m.threads[u]? := fun u => by
    rw [hm']; exact getElem?_move ht th' u
  have hat : m'.threads[t]? = some th' := by simp [hset]
  refine ⟨fun u th₀ hu => ?_, fun u u' th₀ th₀' hu hu' hr hs => ?_, fun u th₀ u' th₀' hu hr hu' hr' => ?_,
    fun hcl => ?_, hcLt, hfcLt, hfcLive, hnodup⟩
  · rcases hget u th₀ hu with ⟨rfl, rfl⟩ | ⟨hne, hu⟩
    · exact hactor
    · exact TOk.other hI ht hu hne hmutex hc hstate
  · obtain ⟨th₁, h₁, e₁⟩ := hold u th₀ hu
    obtain ⟨th₁', h₁', e₁'⟩ := hold u' th₀' hu'
    exact hI.single u u' th₁ th₁' h₁ h₁' (by rw [e₁, e₁', hr]) (by rwa [e₁])
  · obtain ⟨th₁, h₁, e₁⟩ := hold u th₀ hu
    rcases hget u' th₀' hu' with ⟨hu', he⟩ | ⟨-, h⟩
    · subst he hu'
      exact absurd (hI.afterConnect u th₁ _ th h₁ (e₁.trans hr) ht (hrole ▸ hr')) hdone
    · exact hI.afterConnect u th₁ u' th₀' h₁ (e₁.trans hr) h hr'
  · rcases hctl hcl with h | h
    · obtain ⟨u, th₀, hu, hr⟩ := hI.closedControl h
      by_cases hut : u = t
      · subst hut; cases ht.symm.trans hu
        exact ⟨u, th', hat, hrole.trans hr⟩
      · exact ⟨u, th₀, by rw [hset, if_neg hut]; exact hu, hr⟩
    · exact ⟨t, th', hat, hrole.trans h⟩

theorem MInv.faultCloses_live_move (hI : MInv m) (ht : m.threads[t]? = some th) {th' : Thread}
    (hcl : th.pc.closing = true → th'.role = th.role ∧ th'.pc.closing = true) (k : Nat)
    (hk : k ∈ m.faultCloses) (hc : m.c = some k) :
    ∃ (u : Nat) (th₀ : Thread), (m.threads.set t th')[u]? = some th₀ ∧ th₀.role = .reconnect k ∧
      th₀.pc.closing = true := by
  obtain ⟨u, th₀, hu, hr, hcu⟩ := hI.faultCloses_live k hk hc
  by_cases hut : u = t
  · subst hut; cases ht.symm.trans hu
    exact ⟨u, th', by simp [getElem?_move ht], (hcl hcu).1.trans hr, (hcl hcu).2⟩
  · exact ⟨u, th₀, by rw [getElem?_move ht, if_neg hut]; exact hu, hr, hcu⟩

theorem Thread.wf_done (th : Thread) : { th with pc := .done }.wf = true := by
  rcases th with ⟨_ | _ | _ | _, _, _⟩ <;> rfl

/-- A goroutine at a point where it holds no mutex, makes no first attempt, closes nothing
and is about to dial nothing owes the skeleton only being at a point of its code. -/
theorem TOk.quiet {th : Thread} (hwf : th.wf = true) (hh : th.pc.holding = false) (hf : th.pc.first = false)
    (hcl : th.pc.closing = false) (hst : m.state = .closed → th.pc.storing = false)
    (hlk : ∀ err, th.pc ≠ .closeLocked err true) (hfr : th.pc ≠ .ccStore ∧ th.pc ≠ .dialing) : TOk m t th :=
  ⟨hwf, fun _ h => by simp [hh] at h, fun _ h => by simp [hf] at h, fun _ _ h => by simp [hcl] at h, hst,
    fun err h => absurd h (hlk err), fun h => (h.elim hfr.1 hfr.2).elim⟩

/-- A goroutine that has returned. -/
theorem TOk.done (th : Thread) : TOk m t { th with pc := .done } :=
  .quiet (Thread.wf_done th) rfl rfl rfl (fun _ => rfl) (by simp) ⟨by simp, by simp⟩

/-- A goroutine of `createConnection` stays at a point of its code when it moves to another
point of `createConnection` (`Connect`'s never to the pause). -/
theorem Thread.wf_creating {th : Thread} (hwf : th.wf = true) (hc : th.pc.creating = true)
    (hne : th.pc ≠ .done) (pc : MPc) (hpc : pc.creating = true) (hcn : th.role = .connect → pc ≠ .ccRelock)
    (ch : Bool) : { th with pc := pc, ch := ch }.wf = true := by
  obtain ⟨r, pc₀, ch₀⟩ := th
  have hr : r ≠ .control := by
    rintro rfl; cases pc₀ <;> first | exact absurd rfl hne | (cases hc; done) | exact Bool.false_ne_true hwf
  cases r <;> cases pc <;> first | rfl | exact absurd rfl hr | exact absurd rfl (hcn rfl) | cases hpc

/-- A move that touches nothing but the mover's point. -/
theorem MInv.moveOnly (hI : MInv m) (ht : m.threads[t]? = some th) {th' : Thread}
    (hrole : th'.role = th.role) (hdone : th.pc ≠ .done) (hcl : th.pc.closing = false)
    (hactor : TOk (m.move t th') t th') : MInv (m.move t th') :=
  hI.move ht rfl hrole hdone hactor (.inl rfl) (.inl rfl) (.inl rfl) .inl hI.c_lt hI.faultCloses_lt
    (hI.faultCloses_live_move ht (by simp [hcl])) hI.nodup

/-- The mover's facts after a move that touches nothing but its point, from its facts
before: its new point holds the mutex, is a first-attempt point or stores `conn.state`
only if its old one did (or the state is not closed). -/
theorem TOk.moveOnly (ha : TOk m t th) {th' : Thread} (hwf : th'.wf = true) (hrole : th'.role = th.role)
    (hhold : th'.pc.holding = true → th.pc.holding = true) (hfirst : th'.pc.first = true → th.pc.first = true)
    (hcl : th'.pc.closing = false) (hst : m.state = .closed → th'.pc.storing = false)
    (hlk : ∀ err, th'.pc ≠ .closeLocked err true) (hfr : th'.pc = .ccStore ∨ th'.pc = .dialing → m.c = none) :
    TOk (m.move t th') t th' :=
  ⟨hwf, fun hr hh => ha.owner (hrole ▸ hr) (hhold hh),
    fun hr hf => by simpa [Mgr.move] using ha.first (hrole ▸ hr) (hfirst hf),
    fun _ _ h => by simp [hcl] at h, hst, fun err h => absurd h (hlk err), hfr⟩

/-- Goroutines appended to the list. -/
theorem MInv.append (hI : MInv m) (sp : List Thread)
    (hnew : ∀ th ∈ sp, th.wf = true ∧ th.pc.holding = false ∧ th.pc.first = false ∧
      th.pc.closing = false ∧ (m.state = .closed → th.pc.storing = false) ∧ th.role ≠ .connect ∧
      (∀ err, th.pc ≠ .closeLocked err true) ∧ th.pc ≠ .ccStore ∧ th.pc ≠ .dialing)
    (hfirst : ∀ (u : Nat) (th : Thread), m.threads[u]? = some th → th.role = .connect →
      th.pc.first = false)
    (hsingle : ∀ (u : Nat) (th : Thread), u < sp.length → sp[u]? = some th → th.role = .control →
      (∀ (u' : Nat) (th' : Thread), sp[u']? = some th' → th'.role = .control → u' = u) ∧
      (∀ (u' : Nat) (th' : Thread), m.threads[u']? = some th' → th'.role ≠ .control) ∧
      (∀ (u' : Nat) (th' : Thread), m.threads[u']? = some th' → th'.role = .connect →
        th'.pc = .done)) :
    MInv { m with threads := m.threads ++ sp } := by
  have hget : ∀ (u : Nat) (th : Thread), (m.threads ++ sp)[u]? = some th →
      (u < m.threads.length ∧ m.threads[u]? = some th) ∨
        (m.threads.length ≤ u ∧ sp[u - m.threads.length]? = some th) := fun u th h => by
    by_cases hu : u < m.threads.length
    · exact .inl ⟨hu, by rwa [List.getElem?_append_left hu] at h⟩
    · exact .inr ⟨by omega, by rwa [List.getElem?_append_right (by omega)] at h⟩
  refine ⟨fun u th hu => ?_, fun u u' th th' hu hu' hr hs => ?_, fun u th u' th' hu hr hu' hr' => ?_,
    fun hcl => ?_, hI.c_lt, hI.faultCloses_lt, fun k hk hc => ?_, hI.nodup⟩
  · rcases hget u th hu with ⟨-, hu⟩ | ⟨-, hu⟩
    · have ho := hI.thread u th hu
      exact ⟨ho.wf, ho.owner, fun hr hf => by simp [hfirst u th hu hr] at hf, ho.closing, ho.closed,
        ho.lockedClosed, ho.fresh⟩
    · obtain ⟨hwf, hh, hf, hcl, hst, hr, hlk, hs, hd⟩ := hnew th (List.getElem?_mem hu)
      exact .quiet hwf hh hf hcl hst hlk ⟨hs, hd⟩
  · rcases hget u th hu with ⟨hl, hu⟩ | ⟨hl, hu⟩ <;> rcases hget u' th' hu' with ⟨hl', hu'⟩ | ⟨hl', hu'⟩
    · exact hI.single u u' th th' hu hu' hr hs
    · rcases hs with hs | hs
      · exact absurd (hr ▸ hs) (hnew th' (List.getElem?_mem hu')).2.2.2.2.2.1
      · exact absurd hs ((hsingle _ th' (by simpa using (List.getElem?_eq_some_iff.mp hu').1) hu'
          (hr ▸ hs)).2.1 u th hu)
    · rcases hs with hs | hs
      · exact absurd hs (hnew th (List.getElem?_mem hu)).2.2.2.2.2.1
      · exact absurd (hr ▸ hs) ((hsingle _ th (by simpa using (List.getElem?_eq_some_iff.mp hu).1) hu
          hs).2.1 u' th' hu')
    · rcases hs with hs | hs
      · exact absurd hs (hnew th (List.getElem?_mem hu)).2.2.2.2.2.1
      · have := (hsingle _ th (by simpa using (List.getElem?_eq_some_iff.mp hu).1) hu hs).1 _ th' hu'
          (hr ▸ hs)
        omega
  · rcases hget u' th' hu' with ⟨-, hu'⟩ | ⟨-, hu'⟩
    · rcases hget u th hu with ⟨-, hu⟩ | ⟨-, hu⟩
      · exact hI.afterConnect u th u' th' hu hr hu' hr'
      · exact (hsingle _ th (by simpa using (List.getElem?_eq_some_iff.mp hu).1) hu hr).2.2 u' th' hu' hr'
    · exact absurd hr' (hnew th' (List.getElem?_mem hu')).2.2.2.2.2.1
  · obtain ⟨u, th, hu, hr⟩ := hI.closedControl hcl
    exact ⟨u, th, by rw [List.getElem?_append_left (List.getElem?_eq_some_iff.mp hu).1]; exact hu, hr⟩
  · obtain ⟨u, th, hu, hr, hcu⟩ := hI.faultCloses_live k hk hc
    exact ⟨u, th, by rw [List.getElem?_append_left (List.getElem?_eq_some_iff.mp hu).1]; exact hu, hr, hcu⟩

end Move

/-! ## Which goroutine can be where -/

section Roles

variable {th : Thread} (hwf : th.wf = true)
include hwf

theorem Thread.role_of_forever {err : RedisError}
    (hpc : th.pc = .closeStore err true ∨ th.pc = .closeLocked err true) : th.role = .control := by
  rcases th with ⟨_ | _ | _ | _, pc, _⟩ <;> rcases hpc with rfl | rfl <;> simp_all [Thread.wf, MPc.creating]

theorem Thread.role_of_closing (hcl : th.pc.closing = true) : ∃ k, th.role = .reconnect k := by
  rcases th with ⟨_ | _ | _ | _, pc, _⟩ <;> cases pc <;> simp_all [Thread.wf, MPc.creating, MPc.closing]

theorem Thread.role_of_ctlWait (hpc : th.pc = .ctlWait) : th.role = .control := by
  rcases th with ⟨_ | _ | _ | _, pc, _⟩ <;> subst hpc <;> simp_all [Thread.wf, MPc.creating]

theorem Thread.role_of_decide (hpc : th.pc = .connectWaitCh ∨ ∃ r, th.pc = .connectDecide r) :
    th.role = .connect := by
  rcases th with ⟨_ | _ | _ | _, pc, _⟩ <;> rcases hpc with rfl | ⟨r, rfl⟩ <;>
    simp_all [Thread.wf, MPc.creating]

theorem Thread.not_connect_of_relock (hpc : th.pc = .ccRelock) : th.role ≠ .connect := by
  rcases th with ⟨_ | _ | _ | _, pc, _⟩ <;> subst hpc <;> simp_all [Thread.wf, MPc.creating]

/-- Only `control` is ever at a point outside `createConnection` and `reconnect`. -/
theorem Thread.creating_of_not_control (hr : th.role ≠ .control) (hpc : th.pc.holding = true) :
    th.pc.creating = true ∨ th.pc.closing = true := by
  rcases th with ⟨_ | _ | _ | _, pc, _⟩ <;> cases pc <;>
    simp_all [Thread.wf, MPc.creating, MPc.closing, MPc.holding]

end Roles

/-- **The invariant is preserved by every transition of the skeleton.** -/
theorem MInv.trans {m m' : Mgr} (hI : MInv m) (h : MTrans m m') : MInv m' := by
  cases h with
  | @rcLockDone t th err ht hpc hm =>
    exact hI.moveOnly ht rfl (by simp [hpc]) (by simp [hpc, MPc.closing]) (.done th)
  | @rcLockClose t th err k ht hpc hrole hm hst hc =>
    have hk : k ∉ m.faultCloses := fun hk => by
      obtain ⟨u, th₀, hu, hr, hcu⟩ := hI.faultCloses_live k hk hc
      simp [(hI.thread u th₀ hu).owner (by simp [hr]) (MPc.holding_of_closing hcu)] at hm
    refine hI.move ht rfl rfl (by simp [hpc]) ⟨by simp [Thread.wf, hrole], fun _ _ => rfl,
      fun hr => by simp [hrole] at hr, fun k' hr _ => ?_, fun h => absurd h hst, fun _ h => by simp at h,
        fun h => by simp at h⟩
      (.inr (.inl hm)) (.inl rfl) (.inl rfl) .inl hI.c_lt (fun k' hk' => ?_) (fun k' hk' hc' => ?_)
      (by simpa [List.nodup_append, hI.nodup] using hk)
    · simp only [hrole, Role.reconnect.injEq] at hr; subst hr; exact hc
    · simp only [Mgr.move_faultCloses, List.mem_append, List.mem_singleton] at hk'
      rcases hk' with hk' | rfl
      · exact hI.faultCloses_lt k' hk'
      · exact hI.c_lt _ hc
    · obtain rfl : k' = k := Option.some.inj (hc'.symm.trans hc)
      exact ⟨t, { th with pc := .closeStore err false }, by simp [getElem?_move ht],
        by simp [hrole], by simp [MPc.closing]⟩
  | @closeStore t th err forever ht hpc =>
    have ha := hI.thread t th ht
    have hnc : th.role ≠ .connect := by
      cases forever
      · obtain ⟨k, hk⟩ := Thread.role_of_closing ha.wf (by simp [hpc, MPc.closing]); simp [hk]
      · simp [Thread.role_of_forever ha.wf (.inl hpc)]
    have hmu := ha.owner hnc (by simp [hpc, MPc.holding])
    refine hI.move ht rfl rfl (by simp [hpc]) ⟨?_, fun _ _ => hmu, fun hr => absurd hr hnc,
      fun k hr hcl => ?_, fun _ => by simp [MPc.storing], fun _ h => ?_, fun h => by simp at h⟩ (.inl rfl)
      (.inl rfl) (.inr ⟨by simp [hpc, MPc.storing], fun h => ?_⟩) (fun h => ?_) hI.c_lt hI.faultCloses_lt
      (hI.faultCloses_live_move ht (fun h => ⟨rfl, by simpa [hpc, MPc.closing] using h⟩)) hI.nodup
    · cases forever
      · obtain ⟨k, hk⟩ := Thread.role_of_closing ha.wf (by simp [hpc, MPc.closing]); simp [Thread.wf, hk]
      · simp [Thread.wf, Thread.role_of_forever ha.wf (.inl hpc)]
    · exact ha.closing k hr (by cases forever <;> simp_all [MPc.closing])
    · simp only [MPc.closeLocked.injEq] at h; obtain ⟨-, rfl⟩ := h; rfl
    · cases forever
      · simp at h
      · exact ⟨Thread.role_of_forever ha.wf (.inl hpc), hmu⟩
    · cases forever
      · simp at h
      · exact .inr (Thread.role_of_forever ha.wf (.inl hpc))
  | @closeLocked t th err ht hpc =>
    have ha := hI.thread t th ht
    obtain ⟨k, hrole⟩ := Thread.role_of_closing ha.wf (by simp [hpc, MPc.closing])
    have hmu := ha.owner (by simp [hrole]) (by simp [hpc, MPc.holding])
    exact hI.move ht rfl rfl (by simp [hpc]) ⟨by simp [Thread.wf, hrole, MPc.creating],
      fun _ _ => hmu, fun hr => by simp [hrole] at hr, fun _ _ h => by simp [MPc.closing] at h,
      fun _ => by simp [MPc.storing], fun _ h => by simp at h,
        fun h => by simp at h⟩ (.inl rfl) (.inr (.inl hmu)) (.inl rfl) .inl
      (fun _ h => by simp at h) hI.faultCloses_lt (fun _ _ h => by simp at h) hI.nodup
  | @closeLockedForever t th err ht hpc =>
    have ha := hI.thread t th ht
    have hmu := ha.owner (by simp [Thread.role_of_forever ha.wf (.inr hpc)]) (by simp [hpc, MPc.holding])
    exact hI.move ht rfl rfl (by simp [hpc]) (.done th) (.inr (.inr hmu)) (.inr (.inl hmu)) (.inl rfl)
      .inl (fun _ h => by simp at h) hI.faultCloses_lt (fun _ _ h => by simp at h) hI.nodup
  | @ccCheck t th ht hpc hc0 hst =>
    have ha := hI.thread t th ht
    exact hI.moveOnly ht rfl (by simp [hpc]) (by simp [hpc, MPc.closing])
      (ha.moveOnly (Thread.wf_creating ha.wf (by simp [hpc, MPc.creating]) (by simp [hpc])
        .ccStore rfl (by simp) th.ch) rfl (by simp [hpc, MPc.holding]) (by simp [hpc, MPc.first])
        rfl (by simp [hst]) (by simp) (fun _ => hc0))
  | @ccCheckExit t th ht hpc =>
    have ha := hI.thread t th ht
    exact hI.moveOnly ht rfl (by simp [hpc]) (by simp [hpc, MPc.closing])
      (ha.moveOnly (Thread.wf_creating ha.wf (by simp [hpc, MPc.creating]) (by simp [hpc])
        .ccExit rfl (by simp) th.ch) rfl (by simp [hpc, MPc.holding]) (by simp [MPc.first])
        rfl (by simp [MPc.storing]) (by simp) (by simp))
  | @ccStore t th ch ht hpc =>
    have ha := hI.thread t th ht
    exact hI.move ht rfl rfl (by simp [hpc])
      ⟨Thread.wf_creating ha.wf (by simp [hpc, MPc.creating]) (by simp [hpc]) .dialing rfl
        (by simp) ch, fun hr _ => ha.owner hr (by simp [hpc, MPc.holding]),
        fun hr _ => by simpa using ha.first hr (by simp [hpc, MPc.first]),
        fun _ _ h => by simp [MPc.closing] at h, fun h => by simp at h, fun _ h => by simp at h,
        fun _ => by simpa using ha.fresh (.inl hpc)⟩
      (.inl rfl) (.inl rfl) (.inr ⟨by simp [hpc, MPc.storing], fun h => by simp at h⟩) (fun h => by simp at h)
      hI.c_lt hI.faultCloses_lt (hI.faultCloses_live_move ht (by simp [hpc, MPc.closing])) hI.nodup
  | @dialOk t th ht hpc =>
    have ha := hI.thread t th ht
    have hst : m.state ≠ .closed := fun h => by simpa [hpc, MPc.storing] using ha.closed h
    refine hI.move ht rfl rfl (by simp [hpc])
      ⟨Thread.wf_creating ha.wf (by simp [hpc, MPc.creating]) (by simp [hpc]) .ccConnected rfl
        (by simp) th.ch, fun hr _ => ha.owner hr (by simp [hpc, MPc.holding]),
        fun _ h => by simp [MPc.first] at h, fun _ _ h => by simp [MPc.closing] at h,
        fun h => absurd h hst, fun _ h => by simp at h,
        fun h => by simp at h⟩
      (.inl rfl) ?_ (.inl rfl) .inl (fun k h => by simp at h ⊢; omega)
      (fun k hk => by simpa using Nat.lt_succ_of_lt (hI.faultCloses_lt k hk))
      (fun k hk h => by simp at h; have := hI.faultCloses_lt k hk; omega) hI.nodup
    by_cases hr : th.role = .connect
    · exact .inr (.inr (ha.first hr (by simp [hpc, MPc.first])).1)
    · exact .inr (.inl (ha.owner hr (by simp [hpc, MPc.holding])))
  | @dialFail t th err ht hpc =>
    have ha := hI.thread t th ht
    exact hI.moveOnly ht rfl (by simp [hpc]) (by simp [hpc, MPc.closing])
      (ha.moveOnly (Thread.wf_creating ha.wf (by simp [hpc, MPc.creating]) (by simp [hpc])
        (.ccFailStore err) rfl (by simp) th.ch) rfl (by simp [hpc, MPc.holding])
        (by simp [MPc.first]) rfl (fun h => by simpa [hpc, MPc.storing] using ha.closed h) (by simp) (by simp))
  | @ccConnected t th ht hpc =>
    have ha := hI.thread t th ht
    exact hI.move ht rfl rfl (by simp [hpc])
      ⟨Thread.wf_creating ha.wf (by simp [hpc, MPc.creating]) (by simp [hpc]) .ccReport rfl
        (by simp) th.ch, fun hr _ => ha.owner hr (by simp [hpc, MPc.holding]),
        fun _ h => by simp [MPc.first] at h, fun _ _ h => by simp [MPc.closing] at h,
        fun h => by simp at h, fun _ h => by simp at h,
        fun h => by simp at h⟩
      (.inl rfl) (.inl rfl) (.inr ⟨by simp [hpc, MPc.storing], fun h => by simp at h⟩) (fun h => by simp at h)
      hI.c_lt hI.faultCloses_lt (hI.faultCloses_live_move ht (by simp [hpc, MPc.closing])) hI.nodup
  | @returnConnect t th r ch ht hpc hrole =>
    have ha := hI.thread t th ht
    have hdone : th.pc ≠ .done := by rcases hpc with h | h <;> simp [h]
    have hcl : th.pc.closing = false := by rcases hpc with h | h <;> simp [h, MPc.closing]
    exact hI.moveOnly ht rfl hdone hcl (ha.moveOnly (by simp [Thread.wf, hrole]) rfl
      (by simp [MPc.holding]) (by simp [MPc.first]) rfl (by simp [MPc.storing]) (by simp) (by simp))
  | @returnOther t th ch ht hpc hrole =>
    have ha := hI.thread t th ht
    have hmu := ha.owner hrole (by rcases hpc with h | h <;> simp [h, MPc.holding])
    have hcl : th.pc.closing = false := by rcases hpc with h | h <;> simp [h, MPc.closing]
    exact hI.move ht rfl rfl (by rcases hpc with h | h <;> simp [h]) (.done { th with ch := ch })
      (.inr (.inr hmu)) (.inl rfl) (.inl rfl) .inl hI.c_lt hI.faultCloses_lt
      (hI.faultCloses_live_move ht (by simp [hcl])) hI.nodup
  | @ccFailStore t th err ht hpc =>
    have ha := hI.thread t th ht
    exact hI.move ht rfl rfl (by simp [hpc])
      ⟨Thread.wf_creating ha.wf (by simp [hpc, MPc.creating]) (by simp [hpc]) (.ccFailDrop err) rfl
        (by simp) th.ch, fun hr _ => ha.owner hr (by simp [hpc, MPc.holding]),
        fun _ h => by simp [MPc.first] at h, fun _ _ h => by simp [MPc.closing] at h,
        fun h => by simp at h, fun _ h => by simp at h,
        fun h => by simp at h⟩
      (.inl rfl) (.inl rfl) (.inr ⟨by simp [hpc, MPc.storing], fun h => by simp at h⟩) (fun h => by simp at h)
      hI.c_lt hI.faultCloses_lt (hI.faultCloses_live_move ht (by simp [hpc, MPc.closing])) hI.nodup
  | @ccFailDropConnect t th err ht hpc hrole =>
    have ha := hI.thread t th ht
    exact hI.moveOnly ht rfl (by simp [hpc]) (by simp [hpc, MPc.closing]) (ha.moveOnly
      (by simp [Thread.wf, hrole]) rfl (by simp [MPc.holding]) (by simp [MPc.first]) rfl
      (by simp [MPc.storing]) (by simp) (by simp))
  | @ccFailDropOther t th err ht hpc hrole =>
    have ha := hI.thread t th ht
    exact hI.move ht rfl rfl (by simp [hpc])
      (.quiet (Thread.wf_creating ha.wf (by simp [hpc, MPc.creating]) (by simp [hpc]) .ccRelock rfl
        (fun h => absurd h hrole) th.ch) rfl rfl rfl (fun _ => rfl) (by simp) ⟨by simp, by simp⟩)
      (.inr (.inr (ha.owner hrole (by simp [hpc, MPc.holding])))) (.inl rfl) (.inl rfl) .inl hI.c_lt
      hI.faultCloses_lt (hI.faultCloses_live_move ht (by simp [hpc, MPc.closing])) hI.nodup
  | @ccRelock t th ht hpc hm =>
    have ha := hI.thread t th ht
    have hrole := Thread.not_connect_of_relock ha.wf hpc
    exact hI.move ht rfl rfl (by simp [hpc])
      ⟨Thread.wf_creating ha.wf (by simp [hpc, MPc.creating]) (by simp [hpc]) .ccCheck rfl
        (fun h => absurd h hrole) th.ch, fun _ _ => rfl, fun h => absurd h hrole,
        fun _ _ h => by simp [MPc.closing] at h, fun _ => by simp [MPc.storing], fun _ h => by simp at h,
        fun h => by simp at h⟩
      (.inr (.inl hm)) (.inl rfl) (.inl rfl) .inl hI.c_lt hI.faultCloses_lt
      (hI.faultCloses_live_move ht (by simp [hpc, MPc.closing])) hI.nodup
  | @ctlWait t th ht hpc hm =>
    have ha := hI.thread t th ht
    have hrole := Thread.role_of_ctlWait ha.wf hpc
    exact hI.move ht rfl rfl (by simp [hpc])
      ⟨by simp [Thread.wf, hrole], fun _ _ => rfl, fun h => by simp [hrole] at h,
        fun _ _ h => by simp [MPc.closing] at h,
        fun h => absurd (ha.closed h) (by simp [hpc, MPc.storing]), fun _ h => by simp at h,
        fun h => by simp at h⟩
      (.inr (.inl hm)) (.inl rfl) (.inl rfl) .inl hI.c_lt hI.faultCloses_lt
      (hI.faultCloses_live_move ht (by simp [hpc, MPc.closing])) hI.nodup
  | @connectDone t th r ht hpc =>
    exact hI.moveOnly ht rfl (by simp [hpc]) (by simp [hpc, MPc.closing]) (.done th)
  | @spawn t th sp ht hpc hsp =>
    have ha := hI.thread t th ht
    have hrole := Thread.role_of_decide ha.wf hpc
    have hdone : th.pc ≠ .done := by rcases hpc with h | ⟨r, h⟩ <;> simp [h]
    have hnoctl : ∀ (u : Nat) (th₀ : Thread), m.threads[u]? = some th₀ → th₀.role ≠ .control :=
      fun u th₀ hu hr =>
      hdone (hI.afterConnect u th₀ t th hu hr ht hrole)
    have hI' : MInv (m.move t { th with pc := .done }) := hI.moveOnly ht rfl hdone
      (by rcases hpc with h | ⟨r, h⟩ <;> simp [h, MPc.closing]) (.done th)
    have hlt := (List.getElem?_eq_some_iff.mp ht).1
    have hconnect : ∀ (u : Nat) (th₀ : Thread), (m.threads.set t { th with pc := .done })[u]? = some th₀ →
        th₀.role = .connect → th₀.pc = .done := fun u th₀ hu hr => by
      rcases getElem?_set_eq_some ht hu with ⟨-, rfl⟩ | ⟨hne, hu⟩
      · rfl
      · exact absurd (hI.single u t th₀ th hu ht (hr.trans hrole.symm) (.inl hr)) hne
    have hlast : ∀ (u : Nat) (th₀ : Thread), sp[u]? = some th₀ → th₀.role = .control → u = sp.length - 1 :=
      fun u th₀ hu hr => by
        rcases hsp with rfl | rfl <;> rcases u with _ | _ | u <;> simp [controlThread, backgroundThread] at hu ⊢
        -- left: the background goroutine at index 0 of the second list
        subst hu; simp at hr
    have := hI'.append sp (fun th₀ h => ?_) (fun u th₀ hu hr => by simp [hconnect u th₀ hu hr, MPc.first])
      (fun u th₀ _ hu hr => ⟨fun u' th₁ hu' hr' => (hlast u' th₁ hu' hr').trans (hlast u th₀ hu hr).symm,
        fun u' th₁ hu' => ?_, hconnect⟩)
    · simpa [Mgr.move, List.set_append_left _ _ hlt] using this
    · have hst : m.state ≠ .closed := fun h => by
        obtain ⟨u, th₀, hu, hr⟩ := hI.closedControl h
        exact hnoctl u th₀ hu hr
      rcases hsp with rfl | rfl <;> simp at h <;> rcases h with rfl | rfl <;>
        simp [controlThread, backgroundThread, Thread.wf, MPc.holding, MPc.first, MPc.closing,
          MPc.creating, hst]
    · rcases getElem?_set_eq_some ht hu' with ⟨-, rfl⟩ | ⟨-, hu'⟩
      · simp [hrole]
      · exact hnoctl u' th₁ hu'
  | @reconnect k err hk =>
    exact hI.append _ (fun th h => by simp at h; subst h; simp [Thread.wf, MPc.holding, MPc.first,
        MPc.closing, MPc.storing])
      (fun u th hu hr => by
        cases hf : th.pc.first
        · rfl
        · have := ((hI.thread u th hu).first hr hf).2; omega)
      (fun u th _ hu hr => by rcases u with _ | u <;> simp at hu; subst hu; simp at hr)

theorem MInv.initial (cfg : Config) {D : Type} (d : D) : MInv (Sys.initial cfg d).mgr := by
  have hget : ∀ (u : Nat) (th : Thread), (Sys.initial cfg d).mgr.threads[u]? = some th →
      (cfg.async = true ∧ ((u = 0 ∧ th = backgroundThread true) ∨
        (u = 1 ∧ th = ⟨.connect, .connectWaitCh, false⟩))) ∨
      (cfg.async = false ∧ u = 0 ∧ th = ⟨.connect, .ccCheck, false⟩) := fun u th hu => by
    simp only [Sys.mgr, Sys.initial] at hu
    cases ha : cfg.async <;> simp only [ha] at hu <;> rcases u with _ | _ | u <;> simp at hu <;> simp [hu]
  -- no `control` yet, and one `Connect` goroutine, at a place fixed by the mode
  have hrole : ∀ (u : Nat) (th : Thread), (Sys.initial cfg d).mgr.threads[u]? = some th →
      th.role ≠ .control ∧ (th.role = .connect → u = if cfg.async then 1 else 0) := fun u th hu => by
    rcases hget u th hu with ⟨ha, ⟨rfl, rfl⟩ | ⟨rfl, rfl⟩⟩ | ⟨ha, rfl, rfl⟩ <;> simp [ha, backgroundThread]
  refine ⟨fun u th hu => ?_, fun u u' th th' hu hu' hr hs => ?_, fun u th _ _ hu hr _ _ => absurd hr (hrole u th hu).1,
    fun h => by simp [Sys.mgr, Sys.initial] at h, fun _ h => by simp [Sys.mgr, Sys.initial] at h,
    fun _ h => by simp [Sys.mgr, Sys.initial] at h, fun _ h => by simp [Sys.mgr, Sys.initial] at h,
    by simp [Sys.mgr, Sys.initial]⟩
  · rcases hget u th hu with ⟨ha, ⟨rfl, rfl⟩ | ⟨rfl, rfl⟩⟩ | ⟨ha, rfl, rfl⟩ <;>
      refine ⟨rfl, ?_, ?_, ?_, ?_, ?_, ?_⟩ <;> simp [Sys.mgr, Sys.initial, ha, backgroundThread, MPc.holding,
        MPc.first, MPc.closing, MPc.storing]
  · rcases hs with hs | hs
    · exact ((hrole u th hu).2 hs).trans ((hrole u' th' hu').2 (hr ▸ hs)).symm
    · exact absurd hs (hrole u th hu).1

/-! ## What the invariant gives -/

/-- `connClosed` is stored and `control` has ended: what `closeConnection(_, true)` leaves
behind. -/
def Mgr.settled (m : Mgr) : Prop :=
  m.state = .closed ∧ ∀ (u : Nat) (th : Thread), m.threads[u]? = some th → th.role = .control → th.pc = .done

/-- A move of a goroutine that had not ended keeps `control` ended. -/
theorem Mgr.settled_move {m m' : Mgr} {t : Nat} {th th' : Thread} (hs : m.settled)
    (ht : m.threads[t]? = some th) (hpc : th.pc ≠ .done) (hr : th'.role = th.role)
    (hst : m'.state = .closed) (hth : m'.threads = m.threads.set t th') : m'.settled := by
  refine ⟨hst, fun u th₀ hu hc => ?_⟩
  rw [hth] at hu
  rcases getElem?_set_eq_some ht hu with ⟨-, rfl⟩ | ⟨-, hu⟩
  · exact absurd (hs.2 t th ht (hr ▸ hc)) hpc
  · exact hs.2 u th₀ hu hc

section Consequences

variable {m m' : Mgr} (hI : MInv m)
include hI

/-- **`connClosed` is never left**: every store after it would come from a point the
invariant rules out. -/
theorem MInv.closed_stays (h : MTrans m m') (hcl : m.state = .closed) : m'.state = .closed := by
  have hsto : ∀ (t : Nat) (th : Thread), m.threads[t]? = some th → th.pc.storing = false := fun t th ht =>
    (hI.thread t th ht).closed hcl
  cases h with
  | @closeStore t th err forever ht hpc => simpa [hpc, MPc.storing] using hsto t th ht
  | @ccStore t th ch ht hpc => simpa [hpc, MPc.storing] using hsto t th ht
  | @ccConnected t th ht hpc => simpa [hpc, MPc.storing] using hsto t th ht
  | @ccFailStore t th err ht hpc => simpa [hpc, MPc.storing] using hsto t th ht
  | spawn => exact hcl
  | reconnect => exact hcl
  | _ => simpa using hcl

/-- **Only the goroutine that closes a socket moves `conn.c` off it**: the `reconnect` of
that socket's own session, or `control`, in `closeConnection`'s locked region. -/
theorem MInv.c_off (h : MTrans m m') {j : Nat} (hj : m.c = some j) (hne : m'.c ≠ some j) :
    ∃ (t : Nat) (th : Thread) (err : RedisError) (forever : Bool), m.threads[t]? = some th ∧
      th.pc = .closeLocked err forever ∧
      (th.role = .reconnect j ∨ th.role = .control) := by
  cases h with
  | @closeLocked t th err ht hpc =>
    have ha := hI.thread t th ht
    obtain ⟨k, hk⟩ := Thread.role_of_closing ha.wf (by simp [hpc, MPc.closing])
    have := hj.symm.trans (ha.closing k hk (by simp [hpc, MPc.closing]))
    exact ⟨t, th, err, false, ht, hpc, .inl (by simpa [hk] using this.symm)⟩
  | @closeLockedForever t th err ht hpc =>
    exact ⟨t, th, err, true, ht, hpc, .inr (Thread.role_of_forever (hI.thread t th ht).wf (.inr hpc))⟩
  | @dialOk t th ht hpc => simp [(hI.thread t th ht).fresh (.inr hpc)] at hj
  | spawn => simp_all
  | reconnect => simp_all
  | _ => simp_all

/-- **Once `control` has closed the connection for good, nothing starts it again**:
`Connect`, the only goroutine that starts one, is done. -/
theorem MInv.settled_stays (h : MTrans m m') (hs : m.settled) : m'.settled := by
  have hst := hI.closed_stays h hs.1
  cases h with
  | @spawn t th _ ht hpc _ =>
    obtain ⟨u, thc, hu, hc⟩ := hI.closedControl hs.1
    have := hI.afterConnect u thc t th hu hc ht (Thread.role_of_decide (hI.thread t th ht).wf hpc)
    rcases hpc with hpc | ⟨r, hpc⟩ <;> simp [hpc] at this
  | @reconnect k err _ =>
    refine ⟨hst, fun u th₀ hu hc => ?_⟩
    rcases getElem?_concat_eq_some hu with hu | rfl
    · exact hs.2 u th₀ hu hc
    · cases hc
  | _ => exact Mgr.settled_move hs (by assumption) (by intro h; simp_all) (by rfl) hst rfl

end Consequences

/-! ## The fault path -/

/-- What the fault path guarantees in a state: a `reconnect` inside its
`closeConnection(_, false)` is that of `conn.c`'s session, and no socket has been closed
by a fault twice. -/
structure Mgr.FaultSafe (m : Mgr) : Prop where
  closing : ∀ (t : Nat) (th : Thread) (k : Nat), m.threads[t]? = some th → th.role = .reconnect k →
    th.pc.closing = true → m.c = some k
  once : m.faultCloses.Nodup

/-- What one move does on the fault path: a fault-driven close is recorded only when the
faulting session's `reconnect` finds its socket still in `conn.c` and enters
`closeConnection(_, false)`; and `conn.c` leaves a socket only by the close of that
socket's own `reconnect`, or of `control`. -/
def Mgr.FaultStep (m m' : Mgr) : Prop :=
  (m'.faultCloses = m.faultCloses ∨
    ∃ (t : Nat) (th : Thread) (k : Nat) (err : RedisError), m.threads[t]? = some th ∧ th.role = .reconnect k ∧
      th.pc = .rcLock err ∧ m.c = some k ∧ m'.faultCloses = m.faultCloses ++ [k] ∧
      m'.threads[t]? = some { th with pc := .closeStore err false }) ∧
  ∀ j, m.c = some j → m'.c ≠ some j →
    ∃ (t : Nat) (th : Thread) (err : RedisError) (forever : Bool), m.threads[t]? = some th ∧
      th.pc = .closeLocked err forever ∧ (th.role = .reconnect j ∨ th.role = .control)

theorem MInv.faultSafe {m : Mgr} (hI : MInv m) : m.FaultSafe :=
  ⟨fun t th k ht hr hc => (hI.thread t th ht).closing k hr hc, hI.nodup⟩

/-- Only `reconnect`'s check `conn.c == c` records a fault-driven close. -/
theorem MTrans.faultCloses {m m' : Mgr} (h : MTrans m m') :
    m'.faultCloses = m.faultCloses ∨
      ∃ (t : Nat) (th : Thread) (k : Nat) (err : RedisError), m.threads[t]? = some th ∧ th.role = .reconnect k ∧
        th.pc = .rcLock err ∧ m.c = some k ∧ m'.faultCloses = m.faultCloses ++ [k] ∧
        m'.threads[t]? = some { th with pc := .closeStore err false } := by
  cases h with
  | @rcLockClose t th err k ht hpc hr _ _ hc =>
    exact .inr ⟨t, th, k, err, ht, hr, hpc, hc, rfl, by simp [getElem?_move ht]⟩
  | _ => exact .inl rfl

theorem MInv.faultStep {m m' : Mgr} (hI : MInv m) (h : MTrans m m' ∨ m' = m) : m.FaultStep m' := by
  rcases h with h | rfl
  · exact ⟨h.faultCloses, fun j hj hne => hI.c_off h hj hne⟩
  · exact ⟨.inl rfl, fun j hj hne => absurd hj hne⟩

end RedisPipe.Conn
