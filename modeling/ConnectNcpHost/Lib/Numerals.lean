import Mathlib.Data.Nat.Digits.Lemmas
import Mathlib.Tactic.Ring

/-! # Numerals

`numeral digit b w n` is the number `n` in the base `b`, the most significant digit first, with
zeros in front up to `w` digits; `digit` gives the characters of the digits. `readNumeral value b`
reads digits up to the first character that is none; `value` gives the values of the characters.
Where they agree, the one reads back what the other has written, whatever stands behind
(`readNumeral_numeral`). -/

namespace ConnectNcpHost.Lib.Numerals

variable {α : Type*} {digit : ℕ → α} {value : α → Option ℕ} {b w n : ℕ}

/-- The number `n` with at least `w` digits. -/
def numeral (digit : ℕ → α) (b w n : ℕ) : List α :=
  ((Nat.digits b n).reverse.leftpad w 0).map digit

/-- The number at the front of `cs`, where `acc` is read already, and the rest. -/
def readNumeral (value : α → Option ℕ) (b : ℕ) : ℕ → List α → ℕ × List α
  | acc, [] => (acc, [])
  | acc, c :: cs =>
    match value c with
    | some d => readNumeral value b (acc * b + d) cs
    | none => (acc, c :: cs)

/-- `value` reads what `digit` writes, for the digits of the base. -/
def Reads (value : α → Option ℕ) (digit : ℕ → α) (b : ℕ) : Prop :=
  ∀ d < b, value (digit d) = some d

/-- No digit stands in front. -/
def NoDigit (value : α → Option ℕ) (cs : List α) : Prop := ∀ c ∈ cs.head?, value c = none

instance (value : α → Option ℕ) (cs : List α) : Decidable (NoDigit value cs) := by
  unfold NoDigit; infer_instance

theorem noDigit_nil : NoDigit value ([] : List α) := by
  intro c hc
  cases hc

theorem noDigit_cons {c : α} {cs : List α} (h : value c = none) : NoDigit value (c :: cs) := by
  intro c' hc
  obtain rfl := Option.mem_some_iff.mp hc
  exact h

theorem readNumeral_of_noDigit {cs : List α} (h : NoDigit value cs) (acc : ℕ) :
    readNumeral value b acc cs = (acc, cs) := by
  cases cs with
  | nil => rfl
  | cons c cs => rw [readNumeral, h c rfl]

/-- Horner's rule. -/
theorem readNumeral_append (hr : Reads value digit b) (rest : List α) :
    ∀ (ds : List ℕ), (∀ d ∈ ds, d < b) → ∀ acc, readNumeral value b acc (ds.map digit ++ rest) =
      readNumeral value b (acc * b ^ ds.length + Nat.ofDigits b ds.reverse) rest
  | [], _, acc => by simp
  | d :: ds, hds, acc => by
    have ih := readNumeral_append hr rest ds (fun x hx => hds x (.tail _ hx)) (acc * b + d)
    rw [List.map_cons, List.cons_append, readNumeral, hr d (hds d (.head _))]
    refine ih.trans ?_
    rw [List.reverse_cons, Nat.ofDigits_append, Nat.ofDigits_singleton, List.length_reverse,
      List.length_cons, pow_succ]
    congr 1
    ring

/-- The digits of a numeral. -/
theorem digits_lt (hb : 1 < b) : ∀ d ∈ (Nat.digits b n).reverse.leftpad w 0, d < b := by
  intro d hd
  rcases List.mem_append.mp hd with hd | hd
  · rw [List.eq_of_mem_replicate hd]
    omega
  · exact Nat.digits_lt_base hb (List.mem_reverse.mp hd)

/-- **What is written is read back**, whatever stands behind it. -/
theorem readNumeral_numeral (hr : Reads value digit b) (hb : 1 < b) (w n : ℕ) {rest : List α}
    (h : NoDigit value rest) : readNumeral value b 0 (numeral digit b w n ++ rest) = (n, rest) := by
  rw [numeral, readNumeral_append hr rest _ (digits_lt hb), readNumeral_of_noDigit h, Nat.zero_mul,
    Nat.zero_add, List.leftpad, List.reverse_append, List.reverse_reverse, List.reverse_replicate,
    Nat.ofDigits_append, Nat.ofDigits_replicate_zero, Nat.mul_zero, Nat.add_zero,
    Nat.ofDigits_digits]

/-- Numbers below `b ^ w` have exactly `w` digits. -/
theorem length_numeral (digit : ℕ → α) (hb : 1 < b) (h : n < b ^ w) :
    (numeral digit b w n).length = w := by
  have hle := (Nat.digits_length_le_iff hb n).mpr h
  rw [numeral, List.length_map, List.leftpad, List.length_append, List.length_replicate,
    List.length_reverse]
  omega

/-- A numeral begins with a digit. -/
theorem exists_numeral_eq_cons (digit : ℕ → α) (hb : 1 < b) (hw : 0 < w) (n : ℕ) :
    ∃ d < b, ∃ cs, numeral digit b w n = digit d :: cs := by
  rw [numeral]
  rcases hp : (Nat.digits b n).reverse.leftpad w 0 with _ | ⟨d, ds⟩
  · have hlength := congrArg List.length hp
    rw [List.leftpad, List.length_append, List.length_replicate, List.length_nil] at hlength
    omega
  · exact ⟨d, digits_lt hb d (hp ▸ List.mem_cons_self), ds.map digit, rfl⟩

/-! ### Fixed point -/

/-- The number `n` in units of `b ^ -w`: the whole part, a point and `w` digits behind it. -/
def fixedPoint (digit : ℕ → α) (point : α) (b w n : ℕ) : List α :=
  numeral digit b 1 (n / b ^ w) ++ point :: numeral digit b w (n % b ^ w)

/-- The number with a point at the front of `cs`, and the rest. -/
def readFixedPoint [DecidableEq α] (value : α → Option ℕ) (point : α) (b w : ℕ) (cs : List α) :
    Option (ℕ × List α) :=
  match readNumeral value b 0 cs with
  | (_, []) => none
  | (whole, c :: rest) =>
    if c = point then
      let (part, rest) := readNumeral value b 0 rest
      some (whole * b ^ w + part, rest)
    else none

/-- **What is written with a point is read back.** -/
theorem readFixedPoint_fixedPoint [DecidableEq α] {point : α} (hr : Reads value digit b)
    (hb : 1 < b) (hpoint : value point = none) (w n : ℕ) {rest : List α}
    (h : NoDigit value rest) :
    readFixedPoint value point b w (fixedPoint digit point b w n ++ rest) = some (n, rest) := by
  have hpoint' : NoDigit value (point :: (numeral digit b w (n % b ^ w) ++ rest)) :=
    noDigit_cons hpoint
  have hwhole := readNumeral_numeral hr hb 1 (n / b ^ w) hpoint'
  have hpart := readNumeral_numeral hr hb w (n % b ^ w) h
  have hsum : n / b ^ w * b ^ w + n % b ^ w = n := by
    rw [Nat.mul_comm]
    exact Nat.div_add_mod n (b ^ w)
  rw [readFixedPoint, fixedPoint, List.append_assoc, List.cons_append, hwhole]
  dsimp only
  rw [if_pos rfl, hpart, hsum]

end ConnectNcpHost.Lib.Numerals
