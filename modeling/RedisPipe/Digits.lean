import RedisPipe.Basic
import Mathlib.Data.Nat.Digits
import Mathlib.Tactic.IntervalCases

/-!
# Decimal digits: `appendUint`, `appendInt`, `appendHead`, `appendBulkInt`, `appendBulkUint`

`request_writer.go:81-150`. Every number the serializer writes, a header's count or
length and an integer argument alike, goes through `appendInt` or `appendUint`; the two
`appendBulk*` functions write an integer argument's bulk string without first computing
its length, by writing a length placeholder of one or two digits, appending the digits
and patching the placeholder.

The specification side is `decimal` (Mathlib's `Nat.digits`, most significant digit
first, `"0"` for zero) and `intDecimal` (a `'-'` before a negative value's magnitude).
The results here say what each function appends in those terms:

* `appendUint_eq`: `appendUint` appends `decimal u`, except that it appends nothing at
  all for `u = 0`, since its loop runs `for u > 0`;
* `appendInt_eq`: `appendInt` appends `intDecimal i` for every `int64`, `math.MinInt64`
  included (its magnitude `uint64(-i)` is `2^63`, computed in wrapping arithmetic);
* `appendBulkInt_eq`, `appendBulkUint_eq`: the placeholder always has as many digits as
  the payload's length, so the patched header is the plain `"$<len>\r\n"` one;
  `appendBulk_eq_appendHead` says it in the source's own terms, `appendHead` of the
  payload's length followed by the payload.

The last two rest on where the payload length crosses from one digit to two:
`-99999999 ≤ i ≤ 999999999` is exactly the set of `int64`s whose text is at most nine
bytes long (`intDecimal_length_lt_ten_iff`), and every payload is at most twenty bytes.
-/

set_option autoImplicit false

namespace RedisPipe

/-! ## The specification side -/

/-- The ASCII digit of `d < 10`, `byte(d) + '0'`. -/
def digitByte (d : Nat) : UInt8 := d.toUInt8 + 48

/-- The decimal text of `n`: no sign, no leading zero, `"0"` for zero. -/
def decimal (n : Nat) : Bytes :=
  if n = 0 then [48] else (Nat.digits 10 n).reverse.map digitByte

/-- The decimal text of an integer: a `'-'` only before a negative value's magnitude. -/
def intDecimal (z : Int) : Bytes :=
  if z < 0 then 45 :: decimal z.natAbs else decimal z.natAbs

theorem digits_length_le_iff (m k : Nat) : (Nat.digits 10 m).length ≤ k ↔ m < 10 ^ k := by
  constructor
  · intro h
    exact lt_of_lt_of_le (Nat.lt_base_pow_length_digits (by norm_num))
      (Nat.pow_le_pow_right (by norm_num) h)
  · intro h
    by_contra hk
    have hm : m ≠ 0 := by rintro rfl; simp at hk
    have h1 := Nat.base_pow_length_digits_le 10 m (by norm_num) hm
    have h2 : 10 ^ (k + 1) ≤ 10 ^ (Nat.digits 10 m).length :=
      Nat.pow_le_pow_right (by norm_num) (by omega)
    rw [Nat.pow_succ] at h2
    omega

theorem decimal_of_lt_ten (n : Nat) (h : n < 10) : decimal n = [digitByte n] := by
  rcases Nat.eq_zero_or_pos n with rfl | hn
  · rfl
  · simp [decimal, Nat.digits_of_lt 10 n (by omega) h, show n ≠ 0 by omega]

/-- The last digit comes off the end. -/
theorem decimal_of_ten_le (n : Nat) (h : 10 ≤ n) :
    decimal n = decimal (n / 10) ++ [digitByte (n % 10)] := by
  have hd : Nat.digits 10 n = n % 10 :: Nat.digits 10 (n / 10) :=
    Nat.digits_def' (by norm_num) (by omega)
  simp [decimal, hd, show n ≠ 0 by omega, show n / 10 ≠ 0 by omega]

theorem decimal_ne_nil (n : Nat) : decimal n ≠ [] := by
  unfold decimal; split
  · simp
  · simpa using Nat.digits_ne_nil_iff_ne_zero.mpr ‹_›

theorem decimal_length (n : Nat) (hn : n ≠ 0) : (decimal n).length = (Nat.digits 10 n).length := by
  simp [decimal, hn]

/-- A positive number's text is at most `k` bytes long exactly when it is below `10^k`. -/
theorem decimal_length_le_iff (n k : Nat) (hn : n ≠ 0) : (decimal n).length ≤ k ↔ n < 10 ^ k := by
  rw [decimal_length n hn, digits_length_le_iff]

/-- A two-digit number's text, digit by digit. -/
theorem decimal_two_digits (n : Nat) (h1 : 10 ≤ n) (h2 : n < 100) :
    decimal n = [digitByte (n / 10), digitByte (n % 10)] := by
  rw [decimal_of_ten_le n h1, decimal_of_lt_ten _ (by omega)]; rfl

/-! ## `appendUint` -/

/-- The loop of `appendUint`: `n := u / 10; p--; digits[p] = byte(u-n*10) + '0'; u = n`
while `u > 0`. The digits are produced last first, so each is consed onto those already
written, which are `digits[p:]`; `fuel` is the room left in `digits [20]byte`. -/
def appendUint.loop : Nat → Nat → Bytes → Bytes
  | 0, _, digits => digits
  | fuel + 1, u, digits =>
    if u > 0 then
      let n := u / 10
      appendUint.loop fuel n (digitByte (u - n * 10) :: digits)
    else digits

/-- `appendUint`: `append(b, digits[p:]...)` after the loop. -/
def appendUint (b : Bytes) (u : BitVec 64) : Bytes := b ++ appendUint.loop 20 u.toNat []

theorem appendUint.loop_eq (fuel u : Nat) (acc : Bytes) (h : u < 10 ^ fuel) :
    appendUint.loop fuel u acc = (Nat.digits 10 u).reverse.map digitByte ++ acc := by
  induction fuel generalizing u acc with
  | zero =>
    obtain rfl : u = 0 := by simpa using h
    simp [appendUint.loop]
  | succ fuel ih =>
    simp only [appendUint.loop]
    split
    · rw [Nat.digits_def' (by norm_num : 1 < 10) (show 0 < u by omega),
        ih _ _ (by rw [Nat.pow_succ] at h; omega)]
      simp [show u - u / 10 * 10 = u % 10 by omega]
    · obtain rfl : u = 0 := by omega
      simp

/-- `appendUint` appends the decimal text of `u`, and nothing at all for `u = 0`. -/
theorem appendUint_eq (b : Bytes) (u : BitVec 64) :
    appendUint b u = b ++ if u.toNat = 0 then [] else decimal u.toNat := by
  have hu : u.toNat < 10 ^ 20 := lt_trans u.isLt (by norm_num)
  rw [appendUint, appendUint.loop_eq 20 _ _ hu]
  split <;> simp_all [decimal]

/-! ## `appendInt` -/

/-- `appendInt`: the one-digit fast path, then `'-'` and the magnitude `uint64(-i)` for a
negative `i`, or `uint64(i)` for a positive one. -/
def appendInt (b : Bytes) (i : BitVec 64) : Bytes :=
  if 0 ≤ i.toInt ∧ i.toInt ≤ 9 then b ++ [digitByte i.toNat]
  else if 0 < i.toInt then appendUint b i
  else appendUint (b ++ [45]) (-i)

theorem toNat_of_toInt_nonneg (i : BitVec 64) (h : 0 ≤ i.toInt) : (i.toNat : Int) = i.toInt := by
  rw [BitVec.toInt_eq_toNat_cond] at h ⊢
  split at h <;> simp_all; omega

/-- The wrapping negation `-i` of a negative `int64` is its magnitude, `math.MinInt64`
included. -/
theorem toNat_neg_of_toInt_neg (i : BitVec 64) (h : i.toInt < 0) :
    (-i).toNat = i.toInt.natAbs := by
  have hlt := i.isLt
  rw [BitVec.toInt_eq_toNat_cond] at h ⊢
  rw [BitVec.toNat_neg]
  split at h
  · omega
  · simp only [Nat.reducePow] at *
    omega

theorem appendInt_eq (b : Bytes) (i : BitVec 64) : appendInt b i = b ++ intDecimal i.toInt := by
  unfold appendInt intDecimal
  split
  · rename_i h
    have hn := toNat_of_toInt_nonneg i h.1
    rw [if_neg (by omega), decimal_of_lt_ten _ (by omega)]
    congr 3; omega
  · split
    · rename_i _ h
      have hn := toNat_of_toInt_nonneg i h.le
      rw [appendUint_eq, if_neg (by omega), if_neg (by omega)]
      congr 2; omega
    · rename_i h1 h2
      have hneg : i.toInt < 0 := by omega
      rw [appendUint_eq, toNat_neg_of_toInt_neg i hneg, if_neg (by omega), if_pos hneg]
      simp

/-! ## `appendHead` and the bulk writers -/

/-- `appendHead`: the type byte, the number, `"\r\n"`. -/
def appendHead (b : Bytes) (t : UInt8) (i : BitVec 64) : Bytes := appendInt (b ++ [t]) i ++ crlf

theorem appendHead_eq (b : Bytes) (t : UInt8) (i : BitVec 64) :
    appendHead b t i = b ++ t :: intDecimal i.toInt ++ crlf := by
  simp [appendHead, appendInt_eq]

/-- A length below `2^63` is written as its decimal text. -/
theorem appendHead_ofNat (b : Bytes) (t : UInt8) (n : Nat) (h : n < 2 ^ 63) :
    appendHead b t (.ofNat 64 n) = b ++ t :: decimal n ++ crlf := by
  have hn : (BitVec.ofNat 64 n).toInt = n := by
    rw [BitVec.toInt_eq_toNat_cond, BitVec.toNat_ofNat]
    split <;> omega
  rw [appendHead_eq, hn, intDecimal, if_neg (by omega)]
  rfl

/-- The header of a bulk string of length `n`, `"$<n>\r\n"`. -/
def bulkHead (n : Nat) : Bytes := 36 :: decimal n ++ crlf

/-- The placeholder-and-patch writer shared by `appendBulkInt` and `appendBulkUint`: write
`"$0\r\n"` when the payload is known to fit one length digit (`fits`), the member's
two-digit placeholder `wide` otherwise, append the payload, and overwrite the placeholder
digits with the number of bytes appended, `byte(len(b) - l)`. -/
def appendBulk (fits : Bool) (wide : Bytes) (append : Bytes → Bytes) (b : Bytes) : Bytes :=
  let b := if fits then b ++ [36, 48, 13, 10] else b ++ wide
  let l := b.length
  let b := append b
  let li := (b.length - l).toUInt8
  if li < 10 then b.set (l - 3) (li + 48)
  else
    let d := li / 10
    (b.set (l - 4) (d + 48)).set (l - 3) (li - d * 10 + 48)

/-- `appendBulkInt`: one length digit for `-99999999 <= i && i <= 999999999`, the
placeholder `"$00\r\n"` otherwise. -/
def appendBulkInt (b : Bytes) (i : BitVec 64) : Bytes :=
  appendBulk (decide (-99999999 ≤ i.toInt ∧ i.toInt ≤ 999999999)) [36, 48, 48, 13, 10]
    (fun b => appendInt b i) b

/-- `appendBulkUint`: one length digit for `i <= 999999999`, the placeholder `"$10\r\n"`
otherwise. -/
def appendBulkUint (b : Bytes) (i : BitVec 64) : Bytes :=
  appendBulk (decide (i.toNat ≤ 999999999)) [36, 49, 48, 13, 10] (fun b => appendUint b i) b

theorem toUInt8_lt_ten (n : Nat) (h : n < 10) : n.toUInt8 < 10 := by
  interval_cases n <;> decide

/-- The two-digit patch writes the tens and the units of a length between 10 and 20. -/
theorem patch_two_digits (n : Nat) (h1 : 10 ≤ n) (h2 : n ≤ 20) :
    ¬ n.toUInt8 < 10 ∧ n.toUInt8 / 10 + 48 = digitByte (n / 10) ∧
      n.toUInt8 - n.toUInt8 / 10 * 10 + 48 = digitByte (n % 10) := by
  interval_cases n <;> decide

theorem set_after (b rest : Bytes) (x v : UInt8) (k : Nat) :
    (b ++ x :: rest).set (b.length + (k + 1)) v = b ++ x :: rest.set k v := by
  rw [List.set_append_right _ _ (by omega), show b.length + (k + 1) - b.length = k + 1 by omega]
  rfl

/-- **The patch is exact.** When the member's range test says the payload has one length
digit exactly when it has, and a two-digit payload length is at most 20, the patched
placeholder is the payload's length header. -/
theorem appendBulk_eq (fits : Bool) (c1 c2 : UInt8) (append : Bytes → Bytes) (b p : Bytes)
    (happ : ∀ b, append b = b ++ p) (hfits : fits = true → p.length < 10)
    (hwide : fits = false → 10 ≤ p.length ∧ p.length ≤ 20) :
    appendBulk fits [36, c1, c2, 13, 10] append b = b ++ bulkHead p.length ++ p := by
  cases fits with
  | true =>
    have hp := hfits rfl
    simp only [appendBulk, if_true, happ, List.length_append, List.length_cons, List.length_nil,
      Nat.add_sub_cancel_left, toUInt8_lt_ten _ hp]
    rw [show b.length + (0 + 1 + 1 + 1 + 1) - 3 = b.length + (0 + 1) by omega,
      List.append_assoc, List.cons_append, set_after]
    simp [bulkHead, decimal_of_lt_ten _ hp, digitByte, crlf]
  | false =>
    obtain ⟨h1, h2⟩ := hwide rfl
    obtain ⟨hn, hd, hu⟩ := patch_two_digits _ h1 h2
    simp only [appendBulk, Bool.false_eq_true, if_false, happ, List.length_append,
      List.length_cons, List.length_nil, Nat.add_sub_cancel_left, hn, hd, hu]
    rw [show b.length + (0 + 1 + 1 + 1 + 1 + 1) - 4 = b.length + (0 + 1) by omega,
      show b.length + (0 + 1 + 1 + 1 + 1 + 1) - 3 = b.length + (1 + 1) by omega,
      List.append_assoc, List.cons_append, set_after, set_after]
    simp [bulkHead, decimal_two_digits _ h1 (by omega), crlf]

theorem toInt_bounds (i : BitVec 64) : -2 ^ 63 ≤ i.toInt ∧ i.toInt < 2 ^ 63 := by
  have := i.isLt
  rw [BitVec.toInt_eq_toNat_cond]
  split <;> omega

/-- An `int64`'s text is at most nine bytes long exactly inside `[-99999999, 999999999]`,
the range `appendBulkInt` tests. -/
theorem intDecimal_length_lt_ten_iff (i : BitVec 64) :
    (intDecimal i.toInt).length < 10 ↔ -99999999 ≤ i.toInt ∧ i.toInt ≤ 999999999 := by
  unfold intDecimal
  split
  · have := decimal_length_le_iff i.toInt.natAbs 8 (by omega)
    simp only [List.length_cons]
    omega
  · by_cases h0 : i.toInt = 0
    · simp [h0, decimal]
    · have := decimal_length_le_iff i.toInt.natAbs 9 (by omega)
      omega

/-- No `int64`'s text is longer than twenty bytes (`"-9223372036854775808"`). -/
theorem intDecimal_length_le_twenty (i : BitVec 64) : (intDecimal i.toInt).length ≤ 20 := by
  have hb := toInt_bounds i
  unfold intDecimal
  split
  · have := (decimal_length_le_iff i.toInt.natAbs 19 (by omega)).mpr (by omega)
    simp only [List.length_cons]
    omega
  · by_cases h0 : i.toInt = 0
    · simp [h0, decimal]
    · have := (decimal_length_le_iff i.toInt.natAbs 19 (by omega)).mpr (by omega)
      omega

/-- `appendBulkInt` writes the length header of `appendInt`'s digits, then the digits. -/
theorem appendBulkInt_eq (b : Bytes) (i : BitVec 64) :
    appendBulkInt b i = b ++ bulkHead (intDecimal i.toInt).length ++ intDecimal i.toInt :=
  appendBulk_eq _ 48 48 _ b _ (fun b => appendInt_eq b i)
    (fun h => (intDecimal_length_lt_ten_iff i).mpr (of_decide_eq_true h))
    (fun h => ⟨by have := (intDecimal_length_lt_ten_iff i).not.mpr (of_decide_eq_false h); omega,
      intDecimal_length_le_twenty i⟩)

/-- The text `appendUint` writes for `u`: empty for zero. -/
def uintText (u : BitVec 64) : Bytes := if u.toNat = 0 then [] else decimal u.toNat

theorem appendUint_nil (u : BitVec 64) : appendUint [] u = uintText u := by
  rw [appendUint_eq]; rfl

theorem uintText_length_lt_ten_iff (u : BitVec 64) :
    (uintText u).length < 10 ↔ u.toNat ≤ 999999999 := by
  unfold uintText
  split
  · simp_all
  · have := decimal_length_le_iff u.toNat 9 (by omega)
    omega

theorem uintText_length_le_twenty (u : BitVec 64) : (uintText u).length ≤ 20 := by
  unfold uintText
  split
  · simp
  · exact (decimal_length_le_iff u.toNat 20 (by omega)).mpr (lt_trans u.isLt (by norm_num))

/-- `appendBulkUint` writes the length header of `appendUint`'s digits, then the digits. -/
theorem appendBulkUint_eq (b : Bytes) (u : BitVec 64) :
    appendBulkUint b u = b ++ bulkHead (uintText u).length ++ uintText u :=
  appendBulk_eq _ 49 48 _ b _ (fun b => appendUint_eq b u)
    (fun h => (uintText_length_lt_ten_iff u).mpr (of_decide_eq_true h))
    (fun h => ⟨by have := (uintText_length_lt_ten_iff u).not.mpr (of_decide_eq_false h); omega,
      uintText_length_le_twenty u⟩)

/-- **The placeholder-and-patch writers agree with the plain header.** For every `int64` and
every `uint64`, `appendBulkInt` and `appendBulkUint` append what `appendHead` with the
payload's length, followed by the payload, appends. -/
theorem appendBulk_eq_appendHead :
    (∀ (b : Bytes) (i : BitVec 64),
      appendBulkInt b i = appendHead b 36 (.ofNat 64 (appendInt [] i).length) ++ appendInt [] i) ∧
    ∀ (b : Bytes) (u : BitVec 64),
      appendBulkUint b u = appendHead b 36 (.ofNat 64 (appendUint [] u).length) ++ appendUint [] u := by
  refine ⟨fun b i => ?_, fun b u => ?_⟩
  · rw [appendInt_eq, List.nil_append, appendBulkInt_eq,
      appendHead_ofNat _ _ _ (lt_of_le_of_lt (intDecimal_length_le_twenty i) (by norm_num))]
    simp [bulkHead]
  · rw [appendUint_nil, appendBulkUint_eq,
      appendHead_ofNat _ _ _ (lt_of_le_of_lt (uintText_length_le_twenty u) (by norm_num))]
    simp [bulkHead]

end RedisPipe
