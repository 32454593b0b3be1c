import RedisPipe.Basic

/-!
# `Connect`'s address and `dial`'s reading of it

`request_writer.go:298-304` and `:680-697`, `redisconn/conn.go:95-101` and `:407-426`.
Both versions refuse a nil context and an empty address in `Connect`, and both versions'
`dial` pick the network from the address with the same three tests:

```go
if address[0] == '.' || address[0] == '/' {
	network = "unix"
} else if address[0:7] == "unix://" {
	...
} else if address[0:6] == "tcp://" {
	...
}
```

A Go string index or slice out of range is a runtime panic, so the string operations here
return `none` for it (`strIndex`, `strSlice`), and so does `dialTarget`. The results:

* `dialTarget_eq_none_iff`: `dial` panics exactly on the empty address, which `Connect`
  refuses, and on an address shorter than seven bytes that does not start with `.` or
  `/`, where `address[0:7]` is out of range (`":6379"`, a TCP address of the local host);
* `dialTarget_eq_spec`: wherever it does not panic, it reads the address as the spec does
  (`specTarget`).

The dialer's timeouts and the dial itself are left out: the manager takes what
`conn.dial()` returns as a free `DialResult`, the outcome of a dial that did not panic.
-/

set_option autoImplicit false

namespace RedisPipe.Conn

/-! ## Go strings -/

/-- Go's `s[i]` on a string: the byte, or `none` for the index-out-of-range panic. -/
def strIndex (s : Bytes) (i : Nat) : Option UInt8 := s[i]?

/-- Go's `s[lo:hi]` on a string: the bytes from `lo` up to `hi`, or `none` for the
slice-bounds panic unless `lo ≤ hi ≤ len(s)`. -/
def strSlice (s : Bytes) (lo hi : Nat) : Option Bytes :=
  if lo ≤ hi ∧ hi ≤ s.length then some ((s.take hi).drop lo) else none

theorem strSlice_of_le {s : Bytes} {lo hi : Nat} (h : lo ≤ hi) (hs : hi ≤ s.length) :
    strSlice s lo hi = some ((s.take hi).drop lo) :=
  if_pos ⟨h, hs⟩

/-! ## The code -/

/-- The network `dial` hands to `DialContext`. -/
inductive Network where
  | tcp | unix
  deriving DecidableEq, Repr

/-- `Connect`'s checks of its arguments, the same in both versions: a nil `ctx`, then an
empty `addr`. -/
def connectArgs (ctxNil : Bool) (addr : Bytes) : Option RedisError :=
  if ctxNil then some (newErr .opts .contextIsNil)
  else if addr = [] then some (newErr .opts .noAddressProvided)
  else none

/-- `dial`'s choice of network and address, the same in both versions; `none` is a panic. -/
def dialTarget (addr : Bytes) : Option (Network × Bytes) := do
  let c ← strIndex addr 0
  if c = 46 ∨ c = 47 then
    return (.unix, addr)
  let p7 ← strSlice addr 0 7
  if p7 = Bytes.ofString "unix://" then
    let rest ← strSlice addr 7 addr.length
    return (.unix, rest)
  let p6 ← strSlice addr 0 6
  if p6 = Bytes.ofString "tcp://" then
    let rest ← strSlice addr 6 addr.length
    return (.tcp, rest)
  return (.tcp, addr)

/-! ## The spec -/

/-- The spec's reading of an address: a leading `.` or `/` selects UNIX; `unix://` and
`tcp://` prefixes are stripped and select the scheme; otherwise TCP. -/
def specTarget (addr : Bytes) : Network × Bytes :=
  if addr.head? = some 46 ∨ addr.head? = some 47 then (.unix, addr)
  else if (Bytes.ofString "unix://").isPrefixOf addr then (.unix, addr.drop 7)
  else if (Bytes.ofString "tcp://").isPrefixOf addr then (.tcp, addr.drop 6)
  else (.tcp, addr)

/-! ## The three cases -/

theorem isPrefixOf_iff_take {p l : Bytes} : p.isPrefixOf l = true ↔ l.take p.length = p := by
  rw [List.isPrefixOf_iff_prefix, List.prefix_iff_eq_take, eq_comm]

theorem dialTarget_dot (c : UInt8) (cs : Bytes) (hc : c = 46 ∨ c = 47) :
    dialTarget (c :: cs) = some (.unix, c :: cs) := by
  simp [dialTarget, strIndex, hc]

/-- An address of fewer than seven bytes that starts with neither `.` nor `/`. -/
theorem dialTarget_short (c : UInt8) (cs : Bytes) (hc : ¬(c = 46 ∨ c = 47)) (hl : cs.length < 6) :
    dialTarget (c :: cs) = none := by
  simp [dialTarget, strIndex, strSlice, hc, show ¬(7 ≤ cs.length + 1) by omega]

theorem dialTarget_long (c : UInt8) (cs : Bytes) (hc : ¬(c = 46 ∨ c = 47)) (hl : 6 ≤ cs.length) :
    dialTarget (c :: cs) = some (specTarget (c :: cs)) := by
  have h7 : (Bytes.ofString "unix://").isPrefixOf (c :: cs) = true ↔
      (c :: cs).take 7 = Bytes.ofString "unix://" := isPrefixOf_iff_take
  have h6 : (Bytes.ofString "tcp://").isPrefixOf (c :: cs) = true ↔
      (c :: cs).take 6 = Bytes.ofString "tcp://" := isPrefixOf_iff_take
  have hlen : 7 ≤ (c :: cs).length := by simp; omega
  simp only [dialTarget, specTarget, strIndex, List.head?_cons, Option.some.injEq, h7, h6,
    List.getElem?_cons_zero, Option.bind_eq_bind, Option.some_bind, hc, if_false,
    strSlice_of_le (Nat.zero_le 7) hlen, strSlice_of_le (Nat.zero_le 6) (by omega : 6 ≤ (c :: cs).length),
    strSlice_of_le hlen le_rfl, strSlice_of_le (by omega : 6 ≤ (c :: cs).length) le_rfl,
    List.take_length, List.drop_zero]
  split_ifs <;> rfl

/-! ## What `dial` does with an address -/

/-- **Where `dial` panics**: on the empty address, and on an address shorter than seven
bytes that starts with neither `.` nor `/`. -/
theorem dialTarget_eq_none_iff (addr : Bytes) :
    dialTarget addr = none ↔
      addr = [] ∨ (addr.head? ≠ some 46 ∧ addr.head? ≠ some 47 ∧ addr.length < 7) := by
  rcases addr with _ | ⟨c, cs⟩
  · simp [dialTarget, strIndex]
  by_cases hc : c = 46 ∨ c = 47
  · rw [dialTarget_dot c cs hc]
    rcases hc with rfl | rfl <;> simp
  by_cases hl : cs.length < 6
  · rw [dialTarget_short c cs hc hl]
    simp only [not_or] at hc
    simp [hc, hl, show cs.length + 1 < 7 by omega]
  · rw [dialTarget_long c cs hc (by omega)]
    simp; omega

/-- **Where `dial` does not panic, it reads the address as the spec does.** -/
theorem dialTarget_eq_spec (addr : Bytes) :
    dialTarget addr = none ∨ dialTarget addr = some (specTarget addr) := by
  rcases addr with _ | ⟨c, cs⟩
  · exact .inl rfl
  by_cases hc : c = 46 ∨ c = 47
  · exact .inr (by rw [dialTarget_dot c cs hc]; simp [specTarget, hc])
  by_cases hl : cs.length < 6
  · exact .inl (dialTarget_short c cs hc hl)
  · exact .inr (dialTarget_long c cs hc (by omega))

theorem short_address_panics :
    connectArgs false (Bytes.ofString ":6379") = none ∧ dialTarget (Bytes.ofString ":6379") = none ∧
      specTarget (Bytes.ofString ":6379") = (.tcp, Bytes.ofString ":6379") :=
  ⟨rfl, rfl, rfl⟩

end RedisPipe.Conn
