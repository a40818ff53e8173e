import Mathlib.Data.List.Lex
import Mathlib.Data.Set.Insert
import Mathlib.Tactic.ByContra
import Mathlib.Tactic.SplitIfs

/-! # Comparison of strings (`byte-utilities.c`)

`emStrcmp` walks over two strings up to the first difference, or to the terminator of the first, and
returns the difference of the two bytes there as an `int8_t`. An array is the list of its bytes, and
`none` is a read behind its end; a `CString` is what stands before a terminator.

* `emStrcmp_eq`: the loop ends at the first difference of the terminated strings, and reads nothing
  behind a terminator.
* `order_iff`: the sign is the one of the lexicographic order exactly for the differences an `int8_t`
  holds, so that the strings of a set are ordered exactly when all their differences are at most
  `127`. -/

namespace ConnectNcpHost.Stack.Strings

/-! ## `emStrcmp` -/

/-- `c1 - c2`, as the `int8_t` that is returned -/
def difference (c1 c2 : UInt8) : Int8 := Int8.ofInt (c1.toNat - c2.toNat)

def emStrcmp : List UInt8 → List UInt8 → Option Int8
  | c1 :: s1, c2 :: s2 =>
    if c1 = 0 then some (difference c1 c2)
    else if c1 = c2 then emStrcmp s1 s2
    else some (difference c1 c2)
  | _, _ => none

/-! ## Strings and their order -/

/-- A string: bytes that are not zero. -/
@[ext]
structure CString where
  bytes : List UInt8
  nonzero : 0 ∉ bytes

/-- A string in memory: its terminator, and whatever stands behind it. -/
def CString.stored (s : CString) (behind : List UInt8) : List UInt8 := s.bytes ++ 0 :: behind

/-- The lexicographic order by unsigned bytes. -/
instance : LT CString := ⟨fun s t => s.bytes < t.bytes⟩

theorem lt_def {s t : CString} : s < t ↔ s.bytes < t.bytes := Iff.rfl

/-- The difference of the first bytes that differ, where a terminator counts as zero. -/
def firstDifference : List UInt8 → List UInt8 → ℤ
  | a :: u, b :: v => if a = b then firstDifference u v else a.toNat - b.toNat
  | [], b :: _ => - b.toNat
  | a :: _, [] => a.toNat
  | [], [] => 0

/-! ## The loop -/

/-- **The loop ends at the first difference**, whatever stands behind the terminators. -/
theorem emStrcmp_append (x y : List UInt8) : ∀ u v : List UInt8, 0 ∉ u → 0 ∉ v →
    emStrcmp (u ++ 0 :: x) (v ++ 0 :: y) = some (Int8.ofInt (firstDifference u v))
  | [], [], _, _ => rfl
  | [], b :: v, _, _ => by
    show some (difference 0 b) = _
    rw [difference, firstDifference, show (UInt8.toNat 0 : ℤ) = 0 from rfl, Int.zero_sub]
  | a :: u, [], hu, _ => by
    have ha : a ≠ 0 := fun h => hu (h ▸ List.mem_cons_self)
    rw [List.cons_append, List.nil_append, emStrcmp, if_neg ha, if_neg ha, difference,
      firstDifference, show (UInt8.toNat 0 : ℤ) = 0 from rfl, Int.sub_zero]
  | a :: u, b :: v, hu, hv => by
    have ha : a ≠ 0 := fun h => hu (h ▸ List.mem_cons_self)
    rw [List.cons_append, List.cons_append, emStrcmp, if_neg ha, firstDifference]
    split_ifs with hab
    · exact emStrcmp_append x y u v (fun h => hu (List.mem_cons_of_mem a h))
        (fun h => hv (List.mem_cons_of_mem b h))
    · rfl

theorem emStrcmp_eq (s t : CString) (x y : List UInt8) :
    emStrcmp (s.stored x) (t.stored y) = some (Int8.ofInt (firstDifference s.bytes t.bytes)) :=
  emStrcmp_append x y s.bytes t.bytes s.nonzero t.nonzero

/-! ## The first difference and the order -/

theorem toNat_ne {a b : UInt8} (h : a ≠ b) : a.toNat ≠ b.toNat :=
  fun heq => h (UInt8.toNat_inj.mp heq)

theorem toNat_pos {a : UInt8} {u : List UInt8} (h : 0 ∉ a :: u) : 0 < a.toNat := by
  have ha : a ≠ 0 := fun heq => h (heq ▸ List.mem_cons_self)
  exact Nat.pos_of_ne_zero (toNat_ne ha)

theorem firstDifference_swap : ∀ u v : List UInt8, firstDifference v u = - firstDifference u v
  | [], [] => rfl
  | [], b :: v => by rw [firstDifference, firstDifference, Int.neg_neg]
  | a :: u, [] => rfl
  | a :: u, b :: v => by
    rw [firstDifference, firstDifference]
    by_cases hab : a = b
    · rw [if_pos hab, if_pos hab.symm, firstDifference_swap u v]
    · rw [if_neg hab, if_neg (Ne.symm hab), Int.neg_sub]

theorem firstDifference_bounds : ∀ u v : List UInt8,
    -255 ≤ firstDifference u v ∧ firstDifference u v ≤ 255
  | [], [] => by decide
  | [], b :: v => by
    have := b.toNat_lt
    rw [firstDifference]; omega
  | a :: u, [] => by
    have := a.toNat_lt
    rw [firstDifference]; omega
  | a :: u, b :: v => by
    have ha := a.toNat_lt
    have hb := b.toNat_lt
    rw [firstDifference]
    split_ifs
    · exact firstDifference_bounds u v
    · omega

theorem firstDifference_eq_zero : ∀ u v : List UInt8, 0 ∉ u → 0 ∉ v →
    (firstDifference u v = 0 ↔ u = v)
  | [], [], _, _ => by simp [firstDifference]
  | [], b :: v, _, hv => by
    have := toNat_pos hv
    rw [firstDifference]
    constructor
    · intro h; omega
    · intro h; cases h
  | a :: u, [], hu, _ => by
    have := toNat_pos hu
    rw [firstDifference]
    constructor
    · intro h; omega
    · intro h; cases h
  | a :: u, b :: v, hu, hv => by
    rw [firstDifference]
    split_ifs with hab
    · rw [firstDifference_eq_zero u v (fun h => hu (List.mem_cons_of_mem a h))
        (fun h => hv (List.mem_cons_of_mem b h)), hab]
      simp
    · have := toNat_ne hab
      constructor
      · intro h; omega
      · intro h; exact absurd (List.cons.inj h).1 hab

/-- **The first difference is negative where the first string is less.** -/
theorem firstDifference_neg : ∀ u v : List UInt8, 0 ∉ u → 0 ∉ v →
    (firstDifference u v < 0 ↔ u < v)
  | [], [], _, _ => by simp [firstDifference]
  | [], b :: v, _, hv => by
    have := toNat_pos hv
    rw [firstDifference]
    exact ⟨fun _ => List.nil_lt_cons b v, fun _ => by omega⟩
  | a :: u, [], _, _ => by
    rw [firstDifference]
    exact ⟨fun h => by omega, fun h => absurd h (List.not_lt_nil (a :: u))⟩
  | a :: u, b :: v, hu, hv => by
    rw [firstDifference, List.cons_lt_cons_iff]
    split_ifs with hab
    · rw [firstDifference_neg u v (fun h => hu (List.mem_cons_of_mem a h))
        (fun h => hv (List.mem_cons_of_mem b h)), hab]
      simp
    · rw [UInt8.lt_iff_toNat_lt]
      simp only [hab, false_and, or_false]
      omega

/-! ## The sign of the result -/

/-- A difference of two bytes, as an `int8_t`. -/
theorem toInt_ofInt {d : ℤ} (hlow : -255 ≤ d) (hhigh : d ≤ 255) :
    (Int8.ofInt d).toInt = if d < -128 then d + 256 else if d ≤ 127 then d else d - 256 := by
  rw [Int8.toInt_ofInt, Int8.size, Int.bmod_def]
  split_ifs <;> omega

/-- **`emStrcmp` compares two strings**: it returns, whatever stands behind the terminators, zero for
equal strings only, and the sign of the lexicographic order. -/
def Compares (s t : CString) : Prop :=
  ∃ r, (∀ x y, emStrcmp (s.stored x) (t.stored y) = some r) ∧
    (r = 0 ↔ s = t) ∧ (r < 0 ↔ s < t) ∧ (0 < r ↔ t < s)

/-- **`emStrcmp` orders the strings of a set.** -/
structure OrderedOn (S : Set CString) : Prop where
  compares : ∀ s ∈ S, ∀ t ∈ S, Compares s t
  antisymm : ∀ s ∈ S, ∀ t ∈ S, ∀ x y r r', emStrcmp (s.stored x) (t.stored y) = some r →
    emStrcmp (t.stored y) (s.stored x) = some r' → (r < 0 ↔ 0 < r')
  trans : ∀ s ∈ S, ∀ t ∈ S, ∀ u ∈ S, ∀ x y z r r' r'',
    emStrcmp (s.stored x) (t.stored y) = some r → emStrcmp (t.stored y) (u.stored z) = some r' →
    emStrcmp (s.stored x) (u.stored z) = some r'' → r < 0 → r' < 0 → r'' < 0

theorem compares_iff (s t : CString) : Compares s t ↔
    -128 ≤ firstDifference s.bytes t.bytes ∧ firstDifference s.bytes t.bytes ≤ 127 := by
  obtain ⟨hlow, hhigh⟩ := firstDifference_bounds s.bytes t.bytes
  have hzero := firstDifference_eq_zero s.bytes t.bytes s.nonzero t.nonzero
  have hneg := firstDifference_neg s.bytes t.bytes s.nonzero t.nonzero
  have hpos := firstDifference_neg t.bytes s.bytes t.nonzero s.nonzero
  have hsign := toInt_ofInt hlow hhigh
  rw [firstDifference_swap] at hpos
  rw [← CString.ext_iff] at hzero
  have hr0 : Int8.ofInt (firstDifference s.bytes t.bytes) = 0 ↔
      (Int8.ofInt (firstDifference s.bytes t.bytes)).toInt = 0 := Int8.toInt_inj.symm
  constructor
  · rintro ⟨r, hr, -, hlt, hgt⟩
    have hr' := Option.some.inj ((hr [] []).symm.trans (emStrcmp_eq s t [] []))
    rw [hr', Int8.lt_iff_toInt_lt, lt_def, ← hneg, hsign, Int8.toInt_zero] at hlt
    rw [hr', Int8.lt_iff_toInt_lt, lt_def, ← hpos, hsign, Int8.toInt_zero] at hgt
    constructor
    · by_contra h
      rw [if_pos (by omega)] at hlt
      omega
    · by_contra h
      rw [if_neg (by omega), if_neg (by omega)] at hgt
      omega
  · rintro ⟨h1, h2⟩
    rw [if_neg (by omega), if_pos h2] at hsign
    refine ⟨_, emStrcmp_eq s t, ?_, ?_, ?_⟩
    · rw [hr0, hsign, hzero]
    · rw [Int8.lt_iff_toInt_lt, hsign, Int8.toInt_zero, hneg, lt_def]
    · rw [Int8.lt_iff_toInt_lt, hsign, Int8.toInt_zero, lt_def, ← hpos]
      omega

/-- What is compared right is ordered. -/
theorem orderedOn_of_compares {S : Set CString} (h : ∀ s ∈ S, ∀ t ∈ S, Compares s t) :
    OrderedOn S := by
  have hlt : ∀ s ∈ S, ∀ t ∈ S, ∀ x y r, emStrcmp (s.stored x) (t.stored y) = some r →
      (r < 0 ↔ s < t) ∧ (0 < r ↔ t < s) := by
    intro s hs t ht x y r hr
    obtain ⟨r', hr', -, hsign⟩ := h s hs t ht
    rw [Option.some.inj (hr.symm.trans (hr' x y))]
    exact hsign
  refine ⟨h, ?_, ?_⟩
  · intro s hs t ht x y r r' hr hr'
    rw [(hlt s hs t ht x y r hr).1, (hlt t ht s hs y x r' hr').2]
  · intro s hs t ht u hu x y z r r' r'' hr hr' hr'' hst htu
    rw [(hlt s hs t ht x y r hr).1, lt_def] at hst
    rw [(hlt t ht u hu y z r' hr').1, lt_def] at htu
    rw [(hlt s hs u hu x z r'' hr'').1, lt_def]
    exact List.lt_trans hst htu

/-- **Two strings are compared right exactly when their first difference fits an `int8_t`**, and the
strings of a set are ordered exactly when every two of them differ by at most `127`. -/
theorem order_iff (s t : CString) (S : Set CString) :
    (Compares s t ↔
      -128 ≤ firstDifference s.bytes t.bytes ∧ firstDifference s.bytes t.bytes ≤ 127) ∧
    (OrderedOn S ↔ ∀ u ∈ S, ∀ v ∈ S, firstDifference u.bytes v.bytes ≤ 127) := by
  refine ⟨compares_iff s t, fun h u hu v hv => ?_, fun h => ?_⟩
  · exact ((compares_iff u v).mp (h.compares u hu v hv)).2
  · refine orderedOn_of_compares fun u hu v hv => (compares_iff u v).mpr ⟨?_, h u hu v hv⟩
    have hswap := h v hv u hu
    rw [firstDifference_swap] at hswap
    omega

/-- **The strings of the one byte `0x01` and of the one byte `0xC8`**: the difference `-199` is
returned as `57`. -/
theorem unordered_strings : ¬ ∀ s t u : CString, OrderedOn {s, t, u} := by
  intro h
  have hord := h ⟨[0x01], by decide⟩ ⟨[0xC8], by decide⟩ ⟨[], by decide⟩
  have hcmp := hord.compares _ (Set.mem_insert _ _) _
    (Set.mem_insert_of_mem _ (Set.mem_insert _ _))
  rw [compares_iff] at hcmp
  revert hcmp
  decide

end ConnectNcpHost.Stack.Strings
