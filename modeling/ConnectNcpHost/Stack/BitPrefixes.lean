import ConnectNcpHost.Lib.Bits
import Mathlib.Tactic.Cases

/-! # Bit prefixes (`byte-utilities.c`)

`emMatchingPrefixBitLength` compares two byte arrays bit by bit, `emBitCopy` copies bits from one to
another. An array is the list of its bytes; `none` is an access behind its end.

* `emMatchingPrefixBitLength_longest`: the result is the length of the longest common prefix, and the
  bytes up to the last bit that counts are all that is read.
* `copiesBits_iff`: `emBitCopy` holds the number of whole bytes in a `uint8_t`, so that it copies
  `count % 2048` bits. -/

namespace ConnectNcpHost.Stack.BitPrefixes

open ConnectNcpHost.Lib.Bits

variable {x y : List UInt8} {length count : UInt16}

/-! ## `emMatchingPrefixBitLength` -/

/-- `EMBER_BITS_TO_BYTES(bits)` -/
def bitsToBytes (bits : ℕ) : ℕ := (bits + 7) >>> 3

/-- The first loop: the bytes `*x` and `*y`, as long as eight more bits are asked for and they are
equal. It leaves `count` and what `x` and `y` point to. -/
def matchBytes (length : UInt16) :
    List UInt8 → List UInt8 → UInt16 → Option (UInt16 × List UInt8 × List UInt8)
  | a :: x, b :: y, count =>
    if count.toNat + 8 ≤ length.toNat ∧ a = b then matchBytes length x y (count + 8)
    else some (count, a :: x, b :: y)
  | x, y, count => if count.toNat + 8 ≤ length.toNat then none else some (count, x, y)

/-- The second loop: the bits of `same`, from the one in `mask` on. -/
def matchBits (length : UInt16) (same mask : UInt8) (count : UInt16) : UInt16 :=
  if count < length ∧ mask &&& same ≠ 0 then matchBits length same (mask >>> 1) (count + 1)
  else count
termination_by length.toNat - count.toNat
decreasing_by
  rename_i h
  have hlt := UInt16.lt_iff_toNat_lt.mp h.1
  have hlen := length.toNat_lt
  have hone : UInt16.toNat 1 = 1 := rfl
  rw [UInt16.toNat_add, hone, Nat.mod_eq_of_lt (by omega)]
  omega

def emMatchingPrefixBitLength (x : List UInt8) (xLength : UInt16) (y : List UInt8)
    (yLength : UInt16) : Option UInt16 := do
  let length := if xLength < yLength then xLength else yLength
  let (count, x, y) ← matchBytes length x y 0
  if count < length then
    match x, y with
    | a :: _, b :: _ => some (matchBits length (~~~(a ^^^ b)) 0x80 count)
    | _, _ => none
  else some count

/-! ## `emBitCopy` -/

/-- `memmove(dest, src, n)`, of two arrays -/
def memmove (dest src : List UInt8) (n : ℕ) : Option (List UInt8) :=
  if n ≤ dest.length ∧ n ≤ src.length then some (src.take n ++ dest.drop n) else none

/-- `emBitCopy(to, from, count)`: the array `to` as the function leaves it -/
def emBitCopy (dest src : List UInt8) (count : UInt16) : Option (List UInt8) := do
  let fullBytes := (count >>> 3).toUInt8
  let extraBits := (count &&& 0x07).toUInt8
  let dest ← memmove dest src fullBytes.toNat
  if extraBits ≠ 0 then
    let mask := 0xFF >>> extraBits
    let t ← dest[fullBytes.toNat]?
    let f ← src[fullBytes.toNat]?
    some (dest.set fullBytes.toNat ((t &&& mask) ||| (f &&& ~~~mask)))
  else some dest

/-! ## The first loop -/

theorem toNat_add_of_lt {n k : UInt16} (h : n.toNat + k.toNat < 65536) :
    (n + k).toNat = n.toNat + k.toNat := by
  rw [UInt16.toNat_add]
  exact Nat.mod_eq_of_lt h

/-- What the first loop leaves: behind a common prefix of whole bytes, bytes that differ or fewer than
eight bits to compare. -/
structure BytesMatched (length : UInt16) (x y : List UInt8) (count : UInt16)
    (r : UInt16 × List UInt8 × List UInt8) (pre : List UInt8) : Prop where
  left : x = pre ++ r.2.1
  right : y = pre ++ r.2.2
  bits : r.1.toNat = count.toNat + 8 * pre.length
  le : count.toNat ≤ length.toNat → r.1.toNat ≤ length.toNat
  stop : length.toNat < r.1.toNat + 8 ∨ ∃ a b x' y', r.2 = (a :: x', b :: y') ∧ a ≠ b

theorem matchBytes_spec : ∀ (x y : List UInt8) (count : UInt16),
    length.toNat ≤ count.toNat + 8 * x.length → length.toNat ≤ count.toNat + 8 * y.length →
    ∃ r pre, matchBytes length x y count = some r ∧ BytesMatched length x y count r pre
  | a :: x, b :: y, count, hx, hy => by
    rw [matchBytes]
    have hlen := length.toNat_lt
    by_cases h : count.toNat + 8 ≤ length.toNat ∧ a = b
    · obtain ⟨hle, rfl⟩ := h
      have h8 : (count + 8).toNat = count.toNat + 8 :=
        toNat_add_of_lt (show count.toNat + 8 < 65536 by omega)
      rw [List.length_cons] at hx hy
      obtain ⟨r, pre, hr, hmatched⟩ := matchBytes_spec x y (count + 8) (by omega) (by omega)
      refine ⟨r, a :: pre, by rw [if_pos ⟨hle, rfl⟩, hr], ?_⟩
      constructor
      · rw [List.cons_append, ← hmatched.left]
      · rw [List.cons_append, ← hmatched.right]
      · rw [hmatched.bits, h8, List.length_cons]; omega
      · intro _
        exact hmatched.le (by omega)
      · exact hmatched.stop
    · refine ⟨(count, a :: x, b :: y), [], if_neg h, rfl, rfl, rfl, id, ?_⟩
      rcases not_and_or.mp h with hle | hne
      · exact Or.inl (Nat.lt_of_not_le hle)
      · exact Or.inr ⟨a, b, x, y, rfl, hne⟩
  | [], y, count, hx, _ => by
    have hlt : ¬ count.toNat + 8 ≤ length.toNat := by
      rw [List.length_nil] at hx; omega
    refine ⟨(count, [], y), [], ?_, rfl, rfl, rfl, id, Or.inl (Nat.lt_of_not_le hlt)⟩
    simp only [matchBytes, if_neg hlt]
  | a :: x, [], count, _, hy => by
    have hlt : ¬ count.toNat + 8 ≤ length.toNat := by
      rw [List.length_nil] at hy; omega
    refine ⟨(count, a :: x, []), [], ?_, rfl, rfl, rfl, id, Or.inl (Nat.lt_of_not_le hlt)⟩
    simp only [matchBytes, if_neg hlt]

/-! ## The second loop -/

theorem mask_and_ne_zero {mask same : UInt8} {k : ℕ} (h : mask.toBitVec = single 8 k) :
    mask &&& same ≠ 0 ↔ same.toBitVec.getMsbD k = true := by
  rw [← single_and_ne_zero, ← h, ← UInt8.toBitVec_and]
  exact not_congr UInt8.toBitVec_inj.symm

/-- What the second loop leaves, started at the bit `k` of `same`: ones up to a zero, or up to the
length. -/
structure BitsMatched (length : UInt16) (same : UInt8) (k : ℕ) (count r : UInt16) : Prop where
  ge : count.toNat ≤ r.toNat
  le : r.toNat ≤ length.toNat
  ones : ∀ i, k ≤ i → i + count.toNat < k + r.toNat → same.toBitVec.getMsbD i = true
  stop : r = length ∨ same.toBitVec.getMsbD (k + r.toNat - count.toNat) = false

theorem matchBits_spec (same mask : UInt8) (count : UInt16) :
    ∀ k, mask.toBitVec = single 8 k → count.toNat ≤ length.toNat →
      BitsMatched length same k count (matchBits length same mask count) := by
  fun_induction matchBits length same mask count with
  | case1 mask count h ih =>
    intro k hmask hle
    obtain ⟨hlt, hone⟩ := h
    have hlt' := UInt16.lt_iff_toNat_lt.mp hlt
    have hlen := length.toNat_lt
    have h1 : (count + 1).toNat = count.toNat + 1 :=
      toNat_add_of_lt (show count.toNat + 1 < 65536 by omega)
    have hshift : (mask >>> 1).toBitVec = single 8 (k + 1) := by
      rw [← single_succ, ← hmask]
      rfl
    have hrest := ih (k + 1) hshift (by omega)
    have hge := hrest.ge
    constructor
    · omega
    · exact hrest.le
    · intro i hki hi
      rcases Nat.eq_or_lt_of_le hki with rfl | hlt
      · exact (mask_and_ne_zero hmask).mp hone
      · exact hrest.ones i hlt (by omega)
    · rcases hrest.stop with hstop | hstop
      · exact Or.inl hstop
      · right
        have hk : k + 1 + (matchBits length same (mask >>> 1) (count + 1)).toNat -
            (count + 1).toNat =
            k + (matchBits length same (mask >>> 1) (count + 1)).toNat - count.toNat := by omega
        rwa [hk] at hstop
  | case2 mask count h =>
    intro k hmask hle
    refine ⟨le_refl _, hle, fun i hki hi => by omega, ?_⟩
    rw [Nat.add_sub_cancel]
    rcases not_and_or.mp h with hge | hzero
    · left
      have := UInt16.le_iff_toNat_le.mp (UInt16.not_lt.mp hge)
      exact UInt16.toNat_inj.mp (by omega)
    · right
      rw [mask_and_ne_zero hmask] at hzero
      exact Bool.eq_false_iff.mpr hzero

/-! ## The longest common prefix -/

theorem getMsbD_same (a b : UInt8) (i : ℕ) :
    (~~~(a ^^^ b)).toBitVec.getMsbD i =
      (decide (i < 8) && (a.toBitVec.getMsbD i == b.toBitVec.getMsbD i)) := by
  rw [UInt8.toBitVec_not, UInt8.toBitVec_xor, BitVec.getMsbD_not, BitVec.getMsbD_xor]
  cases a.toBitVec.getMsbD i <;> cases b.toBitVec.getMsbD i <;> rfl

/-- The bits of one byte behind a common prefix, when the two loops are done. -/
theorem longest_of_bitsMatched {x' y' pre : List UInt8} {a b : UInt8} {r : UInt16}
    (hcount : count.toNat = 8 * pre.length)
    (hstop : length.toNat < count.toNat + 8 ∨ a ≠ b)
    (h : BitsMatched length (~~~(a ^^^ b)) 0 count r) :
    IsGreatest {k | k ≤ length.toNat ∧ Agree (pre ++ a :: x') (pre ++ b :: y') k} r.toNat := by
  have hge := h.ge
  obtain ⟨j, hj⟩ := Nat.exists_eq_add_of_le hge
  have hones : ∀ i < j, i < 8 ∧ a.toBitVec.getMsbD i = b.toBitVec.getMsbD i := by
    intro i hi
    have hbit := h.ones i (Nat.zero_le i) (by omega)
    rw [getMsbD_same, Bool.and_eq_true, decide_eq_true_eq, beq_iff_eq] at hbit
    exact hbit
  have hr : r.toNat = 8 * pre.length + j := by omega
  rw [hr]
  refine isGreatest_agree (hr ▸ h.le) (agree_append fun i hi => ?_) ?_
  · obtain ⟨hi8, hbit⟩ := hones i hi
    rw [bit_cons_of_lt a x' hi8, bit_cons_of_lt b y' hi8, hbit]
  · rcases h.stop with heq | hzero
    · left
      rw [← hr, heq]
    · rw [show 0 + r.toNat - count.toNat = j by omega, getMsbD_same, Bool.and_eq_false_iff,
        decide_eq_false_iff_not, beq_eq_false_iff_ne] at hzero
      rcases hzero with h8 | hne
      · -- all bits of the byte agree: then the first loop would not have stopped here
        exfalso
        have hab : a = b := eq_of_getMsbD fun i hi => (hones i (by omega)).2
        have hle := h.le
        rcases hstop with hlt | hne
        · omega
        · exact hne hab
      · right
        have hj8 : j < 8 := by
          by_contra hj8
          rw [BitVec.getMsbD_of_ge _ _ (by omega), BitVec.getMsbD_of_ge _ _ (by omega)] at hne
          exact hne rfl
        rwa [bit_append_add, bit_append_add, bit_cons_of_lt a x' hj8, bit_cons_of_lt b y' hj8]

/-- **The result is the longest common prefix**, in arrays that hold the shorter length. -/
theorem emMatchingPrefixBitLength_spec {xLength yLength : UInt16}
    (hx : min xLength.toNat yLength.toNat ≤ 8 * x.length)
    (hy : min xLength.toNat yLength.toNat ≤ 8 * y.length) :
    ∃ n, emMatchingPrefixBitLength x xLength y yLength = some n ∧
      IsGreatest {k | k ≤ min xLength.toNat yLength.toNat ∧ Agree x y k} n.toNat := by
  set length := if xLength < yLength then xLength else yLength with hlength
  have hmin : min xLength.toNat yLength.toNat = length.toNat := by
    rw [hlength]
    split_ifs with hlt
    · have := UInt16.lt_iff_toNat_lt.mp hlt; omega
    · have := UInt16.le_iff_toNat_le.mp (UInt16.not_lt.mp hlt); omega
  rw [hmin] at hx hy ⊢
  obtain ⟨⟨count, x', y'⟩, pre, hrun, hmatched⟩ := @matchBytes_spec length x y 0
    (by rw [show UInt16.toNat 0 = 0 from rfl]; omega)
    (by rw [show UInt16.toNat 0 = 0 from rfl]; omega)
  obtain ⟨hleft, hright, hbits, hle, hstop⟩ := hmatched
  dsimp only at hleft hright hbits hle hstop
  rw [show UInt16.toNat 0 = 0 from rfl, Nat.zero_add] at hbits
  have hcount : count.toNat ≤ length.toNat := hle (Nat.zero_le _)
  rw [emMatchingPrefixBitLength, ← hlength, hrun]
  simp only [Option.bind_eq_bind, Option.bind_some]
  subst hleft hright
  by_cases hlt : count < length
  · -- both arrays have a byte left
    have hlt' := UInt16.lt_iff_toNat_lt.mp hlt
    rw [List.length_append] at hx hy
    obtain ⟨a, x'', rfl⟩ := List.exists_cons_of_length_pos (l := x') (by omega)
    obtain ⟨b, y'', rfl⟩ := List.exists_cons_of_length_pos (l := y') (by omega)
    refine ⟨_, if_pos hlt, longest_of_bitsMatched hbits ?_ (matchBits_spec _ _ _ 0 rfl hcount)⟩
    rcases hstop with hshort | ⟨a', b', u, v, heq, hne⟩
    · exact Or.inl hshort
    · simp only [Prod.mk.injEq, List.cons.injEq] at heq
      obtain ⟨⟨rfl, -⟩, rfl, -⟩ := heq
      exact Or.inr hne
  · have hge := UInt16.le_iff_toNat_le.mp (UInt16.not_lt.mp hlt)
    refine ⟨count, if_neg hlt, isGreatest_agree hcount ?_ (Or.inl (by omega))⟩
    rw [hbits, ← Nat.add_zero (8 * pre.length)]
    exact agree_append fun i hi => absurd hi (Nat.not_lt_zero i)

theorem agree_take {B k : ℕ} (h : k ≤ 8 * B) : Agree (x.take B) (y.take B) k ↔ Agree x y k := by
  unfold Agree
  constructor
  · intro hagree i hi
    rw [← bit_take_of_lt (n := B) x (by omega), ← bit_take_of_lt (n := B) y (by omega)]
    exact hagree i hi
  · intro hagree i hi
    rw [bit_take_of_lt x (by omega), bit_take_of_lt y (by omega)]
    exact hagree i hi

/-- **`emMatchingPrefixBitLength` returns the length of the longest common prefix**, and returns the
same of the bytes up to the one with the last bit: it reads none behind it. -/
theorem emMatchingPrefixBitLength_longest (x y : List UInt8) (xLength yLength : UInt16)
    (hx : xLength.toNat ≤ 8 * x.length) (hy : yLength.toNat ≤ 8 * y.length) :
    ∃ n, emMatchingPrefixBitLength x xLength y yLength = some n ∧
      IsGreatest {k | k ≤ min xLength.toNat yLength.toNat ∧ Agree x y k} n.toNat ∧
      emMatchingPrefixBitLength (x.take (bitsToBytes (min xLength.toNat yLength.toNat))) xLength
        (y.take (bitsToBytes (min xLength.toNat yLength.toNat))) yLength = some n := by
  have hB : min xLength.toNat yLength.toNat ≤
      8 * bitsToBytes (min xLength.toNat yLength.toNat) := by
    rw [bitsToBytes, Nat.shiftRight_eq_div_pow]; omega
  generalize bitsToBytes (min xLength.toNat yLength.toNat) = B at hB ⊢
  obtain ⟨n, hn, hgreatest⟩ := @emMatchingPrefixBitLength_spec x y xLength yLength
    (by omega) (by omega)
  obtain ⟨n', hn', hgreatest'⟩ := @emMatchingPrefixBitLength_spec (x.take B) (y.take B) xLength
    yLength (by rw [List.length_take]; omega) (by rw [List.length_take]; omega)
  have hset : {k | k ≤ min xLength.toNat yLength.toNat ∧ Agree (x.take B) (y.take B) k} =
      {k | k ≤ min xLength.toNat yLength.toNat ∧ Agree x y k} := by
    ext k
    exact and_congr_right fun hk => agree_take (hk.trans hB)
  rw [hset] at hgreatest'
  refine ⟨n, hn, hgreatest, ?_⟩
  rw [hn', UInt16.toNat_inj.mp (hgreatest'.unique hgreatest)]

/-- Two arrays that differ in the fourth bit of their second byte. -/
theorem longest_secondByte :
    ∃ n, emMatchingPrefixBitLength [0xA5, 0x0F] 16 [0xA5, 0x1F, 0x00] 15 = some n ∧
      IsGreatest {k | k ≤ min 16 15 ∧ Agree [0xA5, 0x0F] [0xA5, 0x1F, 0x00] k} n.toNat ∧
      emMatchingPrefixBitLength ([0xA5, 0x0F].take (bitsToBytes (min 16 15))) 16
        ([0xA5, 0x1F, 0x00].take (bitsToBytes (min 16 15))) 15 = some n :=
  emMatchingPrefixBitLength_longest [0xA5, 0x0F] [0xA5, 0x1F, 0x00] 16 15 (by decide) (by decide)

/-! ## `emBitCopy` -/

theorem toNat_fullBytes (count : UInt16) :
    (count >>> 3).toUInt8.toNat = count.toNat / 8 % 256 := by
  simp only [UInt16.toNat_toUInt8, UInt16.toNat_shiftRight, UInt16.reduceToNat, Nat.reduceMod,
    Nat.shiftRight_eq_div_pow, Nat.reducePow]

theorem toNat_extraBits (count : UInt16) : (count &&& 0x07).toUInt8.toNat = count.toNat % 8 := by
  have h7 : UInt16.toNat 0x07 = 2 ^ 3 - 1 := rfl
  rw [UInt16.toNat_toUInt8, UInt16.toNat_and, h7, Nat.and_two_pow_sub_one_eq_mod]
  omega

/-- The mask of the bits that stay. -/
theorem toBitVec_mask {extraBits : UInt8} (h : extraBits.toNat < 8) :
    (0xFF >>> extraBits).toBitVec = BitVec.allOnes 8 >>> extraBits.toNat := by
  have hmod : (extraBits.toBitVec % 8).toNat = extraBits.toNat := Nat.mod_eq_of_lt h
  rw [UInt8.toBitVec_shiftRight, BitVec.ushiftRight_eq', hmod]
  rfl

/-- **What `emBitCopy` does**: the number of whole bytes is cut to eight bits, so that `count % 2048`
bits are copied. -/
theorem emBitCopy_spec {dest src : List UInt8}
    (hdest : bitsToBytes count.toNat ≤ dest.length) (hsrc : bitsToBytes count.toNat ≤ src.length) :
    ∃ r, emBitCopy dest src count = some r ∧ r.length = dest.length ∧
      ∀ i, bit r i = if i < count.toNat % 2048 then bit src i else bit dest i := by
  rw [bitsToBytes, Nat.shiftRight_eq_div_pow] at hdest hsrc
  have hfull := toNat_fullBytes count
  have hextra := toNat_extraBits count
  unfold emBitCopy
  dsimp only
  generalize (count >>> 3).toUInt8 = fullBytes at hfull ⊢
  generalize (count &&& 0x07).toUInt8 = extraBits at hextra ⊢
  have hmove : memmove dest src fullBytes.toNat =
      some (src.take fullBytes.toNat ++ dest.drop fullBytes.toNat) :=
    if_pos ⟨by omega, by omega⟩
  have hlen : (src.take fullBytes.toNat ++ dest.drop fullBytes.toNat).length = dest.length := by
    rw [List.length_append, List.length_take, List.length_drop]; omega
  have hbit := fun i => bit_take_append_drop (x := src) (y := dest) (n := fullBytes.toNat) i
    (by omega)
  rw [hmove]
  generalize src.take fullBytes.toNat ++ dest.drop fullBytes.toNat = moved at hlen hbit ⊢
  simp only [Option.bind_eq_bind, Option.bind_some]
  by_cases hzero : extraBits = 0
  · have h0 : extraBits.toNat = 0 := by rw [hzero]; rfl
    refine ⟨moved, if_neg (not_not_intro hzero), hlen, fun i => ?_⟩
    rw [hbit i, show 8 * fullBytes.toNat = count.toNat % 2048 by omega]
  · have hpos : 0 < extraBits.toNat :=
      Nat.pos_of_ne_zero fun h0 => hzero (UInt8.toNat_inj.mp h0)
    have hd : fullBytes.toNat < moved.length := by omega
    have hs : fullBytes.toNat < src.length := by omega
    rw [if_pos hzero, List.getElem?_eq_getElem hd, List.getElem?_eq_getElem hs]
    simp only [Option.bind_some]
    refine ⟨_, rfl, by rw [List.length_set, hlen], fun i => ?_⟩
    have hget : ∀ (l : List UInt8) (hl : fullBytes.toNat < l.length), i / 8 = fullBytes.toNat →
        bit l i = l[fullBytes.toNat].toBitVec.getMsbD (i % 8) := by
      intro l hl h
      rw [bit, h, List.getD_eq_getElem?_getD, List.getElem?_eq_getElem hl]
      rfl
    rw [bit_set _ _ hd]
    by_cases hi : i / 8 = fullBytes.toNat
    · -- the byte that is copied in part
      rw [if_pos hi, UInt8.toBitVec_or, UInt8.toBitVec_and, UInt8.toBitVec_and, UInt8.toBitVec_not,
        toBitVec_mask (by omega), getMsbD_merge (by omega), ← hget moved hd hi, ← hget src hs hi,
        hbit i]
      split_ifs <;> first | rfl | omega
    · rw [if_neg hi, hbit i]
      split_ifs <;> first | rfl | omega

/-- **The first `count` bits are copied**, the bits behind them and the length stay, and the two
arrays agree from then on. -/
def CopiesBits (dest src : List UInt8) (count : UInt16) : Prop :=
  ∃ r, emBitCopy dest src count = some r ∧ r.length = dest.length ∧
    (∀ i < count.toNat, bit r i = bit src i) ∧ (∀ i, count.toNat ≤ i → bit r i = bit dest i) ∧
    emMatchingPrefixBitLength r count src count = some count

/-- **The bits are copied exactly when those from `count % 2048` on agree already**; for a `count`
below `2048` there are none. -/
theorem copiesBits_iff (dest src : List UInt8) (count : UInt16)
    (hdest : bitsToBytes count.toNat ≤ dest.length) (hsrc : bitsToBytes count.toNat ≤ src.length) :
    CopiesBits dest src count ↔
      ∀ i, count.toNat % 2048 ≤ i → i < count.toNat → bit dest i = bit src i := by
  obtain ⟨r, hr, hlen, hbit⟩ := emBitCopy_spec hdest hsrc
  constructor
  · rintro ⟨r', hr', -, hfirst, -, -⟩ i hge hlt
    obtain rfl := Option.some.inj (hr.symm.trans hr')
    rw [← hfirst i hlt, hbit i, if_neg (by omega)]
  · intro h
    have hfirst : Agree r src count.toNat := by
      intro i hi
      rw [hbit i]
      split_ifs with hc
      · rfl
      · exact h i (by omega) hi
    have hle : min count.toNat count.toNat ≤ 8 * dest.length := by
      rw [bitsToBytes, Nat.shiftRight_eq_div_pow] at hdest
      omega
    have hle' : min count.toNat count.toNat ≤ 8 * src.length := by
      rw [bitsToBytes, Nat.shiftRight_eq_div_pow] at hsrc
      omega
    obtain ⟨n, hn, hgreatest⟩ := emMatchingPrefixBitLength_spec (hlen.symm ▸ hle) hle'
    refine ⟨r, hr, hlen, hfirst, ?_, ?_⟩
    · intro i hi
      have := Nat.mod_le count.toNat 2048
      rw [hbit i, if_neg (by omega)]
    · have hn' : n.toNat = count.toNat := by
        refine hgreatest.unique (isGreatest_agree ?_ hfirst (Or.inl ?_)) <;> rw [Nat.min_self]
      rw [hn, UInt16.toNat_inj.mp hn']

/-- Twelve bits. -/
theorem copiesBits_twelve : CopiesBits [0x00, 0x00, 0x77] [0xAB, 0xCD] 12 :=
  (copiesBits_iff [0x00, 0x00, 0x77] [0xAB, 0xCD] 12 (by decide) (by decide)).mpr (by decide)

/-- **2048 bits**: no byte is copied. -/
theorem uncopied_bits : ¬ ∀ (dest src : List UInt8) (count : UInt16),
    bitsToBytes count.toNat ≤ dest.length → bitsToBytes count.toNat ≤ src.length →
    CopiesBits dest src count := by
  intro h
  have hlen : ∀ a : UInt8, bitsToBytes (UInt16.toNat 2048) ≤ (List.replicate 256 a).length := by
    intro a
    rw [List.length_replicate]
    decide
  obtain ⟨r, hr, -, hfirst, -, -⟩ :=
    h (List.replicate 256 0x00) (List.replicate 256 0xFF) 2048 (hlen _) (hlen _)
  obtain ⟨r', hr', -, hbit⟩ := emBitCopy_spec (hlen 0x00) (hlen 0xFF)
  obtain rfl := Option.some.inj (hr.symm.trans hr')
  have h0 := (hbit 0).symm.trans (hfirst 0 (by decide))
  revert h0
  decide

end ConnectNcpHost.Stack.BitPrefixes
