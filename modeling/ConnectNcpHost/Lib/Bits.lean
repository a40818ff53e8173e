import Mathlib.Order.Bounds.Basic
import Mathlib.Data.List.Basic
import Mathlib.Tactic.SplitIfs

/-! # Bits of byte strings

`bit x i` is the bit `i` of the byte string `x`, the most significant bit of its first byte being the
bit `0`. `Agree x y n` says that the first `n` bits of `x` and `y` agree; the longest prefix that
agrees is known from the bit behind it (`isGreatest_agree`). The masks of such bits are a single bit
that is shifted to the right (`single_and_ne_zero`) and the bits from one on
(`getMsbD_merge`). -/

namespace ConnectNcpHost.Lib.Bits

variable {x y p : List UInt8} {i n : ℕ}

/-! ## Bits -/

/-- The bit `i`, the most significant bit of a byte first; `false` behind the end. -/
def bit (x : List UInt8) (i : ℕ) : Bool := (x.getD (i / 8) 0).toBitVec.getMsbD (i % 8)

theorem bit_congr (h : x[i / 8]? = y[i / 8]?) : bit x i = bit y i := by
  rw [bit, bit, List.getD_eq_getElem?_getD, List.getD_eq_getElem?_getD, h]

theorem bit_cons_of_lt (a : UInt8) (x : List UInt8) (h : i < 8) :
    bit (a :: x) i = a.toBitVec.getMsbD i := by
  rw [bit, Nat.div_eq_of_lt h, Nat.mod_eq_of_lt h]
  rfl

theorem bit_append_add (x y : List UInt8) (i : ℕ) : bit (x ++ y) (8 * x.length + i) = bit y i := by
  have hdiv : (8 * x.length + i) / 8 = x.length + i / 8 := by omega
  have hmod : (8 * x.length + i) % 8 = i % 8 := by omega
  rw [bit, bit, hdiv, hmod, List.getD_eq_getElem?_getD, List.getElem?_append_right (by omega),
    Nat.add_sub_cancel_left, ← List.getD_eq_getElem?_getD]

theorem bit_append_of_lt (y : List UInt8) (h : i < 8 * x.length) : bit (x ++ y) i = bit x i :=
  bit_congr (List.getElem?_append_left (by omega))

theorem bit_take_of_lt (x : List UInt8) (h : i < 8 * n) : bit (x.take n) i = bit x i :=
  bit_congr (List.getElem?_take_of_lt (by omega))

/-- The first `n` bytes of `x`, and the bytes of `y` from there on. -/
theorem bit_take_append_drop (i : ℕ) (hx : n ≤ x.length) :
    bit (x.take n ++ y.drop n) i = if i < 8 * n then bit x i else bit y i := by
  have hlen : (x.take n).length = n := by rw [List.length_take, Nat.min_eq_left hx]
  split_ifs with h
  · rw [bit_append_of_lt _ (by omega), bit_take_of_lt x h]
  · refine bit_congr ?_
    rw [List.getElem?_append_right (by omega), hlen, List.getElem?_drop,
      Nat.add_sub_cancel' (by omega)]

/-- One byte replaced. -/
theorem bit_set (a : UInt8) (i : ℕ) (hn : n < x.length) :
    bit (x.set n a) i = if i / 8 = n then a.toBitVec.getMsbD (i % 8) else bit x i := by
  split_ifs with h
  · rw [bit, h, List.getD_eq_getElem?_getD, List.getElem?_set_self hn]
    rfl
  · exact bit_congr (List.getElem?_set_ne (Ne.symm h))

/-- A byte is known from its bits. -/
theorem eq_of_getMsbD {a b : UInt8} (h : ∀ i < 8, a.toBitVec.getMsbD i = b.toBitVec.getMsbD i) :
    a = b :=
  UInt8.toBitVec_inj.mp (BitVec.eq_of_getMsbD_eq h)

/-! ## Prefixes that agree -/

/-- The first `n` bits agree. -/
def Agree (x y : List UInt8) (n : ℕ) : Prop := ∀ i < n, bit x i = bit y i

/-- Behind a common prefix. -/
theorem agree_append (h : Agree x y n) : Agree (p ++ x) (p ++ y) (8 * p.length + n) := by
  intro i hi
  rcases Nat.lt_or_ge i (8 * p.length) with hlt | hge
  · rw [bit_append_of_lt x hlt, bit_append_of_lt y hlt]
  · obtain ⟨j, rfl⟩ := Nat.exists_eq_add_of_le hge
    rw [bit_append_add, bit_append_add]
    exact h j (by omega)

/-- **The longest prefix that agrees** ends at the limit, or before a bit that differs. -/
theorem isGreatest_agree {limit : ℕ} (hle : n ≤ limit) (h : Agree x y n)
    (hstop : n = limit ∨ bit x n ≠ bit y n) : IsGreatest {k | k ≤ limit ∧ Agree x y k} n := by
  refine ⟨⟨hle, h⟩, ?_⟩
  rintro k ⟨hk, hagree⟩
  rcases hstop with rfl | hne
  · exact hk
  · by_contra hlt
    exact hne (hagree n (by omega))

/-! ## Masks -/

variable {w k : ℕ} {s t mask : BitVec w}

/-- The most significant bit, shifted. -/
def single (w k : ℕ) : BitVec w := BitVec.twoPow w (w - 1) >>> k

theorem getMsbD_single : (single w k).getMsbD i = (decide (i = k) && decide (k < w)) := by
  rw [single, BitVec.getMsbD_ushiftRight, BitVec.getMsbD_twoPow]
  rcases Nat.lt_trichotomy i k with h | rfl | h
  · simp [h, Nat.ne_of_lt h]
  · by_cases hw : i < w
    · simp only [hw, Nat.lt_irrefl, decide_true, decide_false, Bool.not_false, Bool.true_and,
        Nat.sub_self, Bool.and_true, Bool.and_eq_true, decide_eq_true_eq]
      omega
    · simp [hw]
  · simp only [Nat.ne_of_gt h, decide_false, Bool.false_and, Bool.and_eq_false_imp,
      decide_eq_true_eq]
    intro _ _ _
    simp only [decide_eq_false_iff_not]
    omega

theorem single_succ (w k : ℕ) : single w k >>> 1 = single w (k + 1) := by
  rw [single, single, BitVec.shiftRight_add]

/-- The mask of a single bit tests it. -/
theorem single_and_ne_zero (s : BitVec w) (k : ℕ) : single w k &&& s ≠ 0#w ↔ s.getMsbD k = true := by
  constructor
  · intro h
    by_contra hk
    refine h (BitVec.eq_of_getMsbD_eq fun i hi => ?_)
    rw [BitVec.getMsbD_and, getMsbD_single, BitVec.getMsbD_zero]
    by_cases hik : i = k
    · rw [hik, Bool.eq_false_iff.mpr hk, Bool.and_false]
    · rw [decide_eq_false hik, Bool.false_and, Bool.false_and]
  · intro hk h
    have hw : k < w := by
      by_contra hge
      rw [BitVec.getMsbD_of_ge _ _ (Nat.le_of_not_lt hge)] at hk
      exact Bool.false_ne_true hk
    have hbit := congrArg (fun v => v.getMsbD k) h
    simp only [BitVec.getMsbD_and, getMsbD_single, hk, hw, decide_true, Bool.and_self,
      BitVec.getMsbD_zero, Bool.true_eq_false] at hbit

/-- The bits of `s` before the bit `k`, and those of `t` from there on. -/
theorem getMsbD_merge (h : i < w) :
    ((t &&& (BitVec.allOnes w >>> k)) ||| (s &&& ~~~(BitVec.allOnes w >>> k))).getMsbD i =
      if i < k then s.getMsbD i else t.getMsbD i := by
  have hmask : (BitVec.allOnes w >>> k).getMsbD i = !decide (i < k) := by
    rw [BitVec.getMsbD_ushiftRight, BitVec.getMsbD_allOnes, decide_eq_true h, Bool.true_and,
      decide_eq_true (show i - k < w by omega), Bool.and_true]
  rw [BitVec.getMsbD_or, BitVec.getMsbD_and, BitVec.getMsbD_and, BitVec.getMsbD_not, hmask]
  by_cases hk : i < k <;> simp [hk, h]

end ConnectNcpHost.Lib.Bits
