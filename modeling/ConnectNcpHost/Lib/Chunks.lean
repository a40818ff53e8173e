import Mathlib.Algebra.Order.Floor.Div
import Mathlib.Data.List.Basic
import Mathlib.Tactic.Basic

/-! # A list cut into chunks, and its reassembly

`chunk n l k` is the `k`-th piece of `n` entries of the list `l`; the last one may be shorter. There
are `l.length ⌈/⌉ n` of them and they tile `l` (`take_append_chunk`). An `Assembler` collects chunks
in order: it appends the chunk it expects next and drops every other one. `Assembler.Holds n l` says
that what it holds is the part of `l` it should hold; receiving any chunk of `l` keeps this
(`Assembler.Holds.accept`), and an assembler of the full length holds `l` itself
(`Assembler.Holds.eq_of_length`). -/

namespace ConnectNcpHost.Lib.Chunks

variable {α : Type}

/-- The `k`-th piece of `n` entries. -/
def chunk (n : ℕ) (l : List α) (k : ℕ) : List α := (l.drop (n * k)).take n

theorem length_chunk (n : ℕ) (l : List α) (k : ℕ) :
    (chunk n l k).length = min n (l.length - n * k) := by simp [chunk]

theorem take_append_chunk (n : ℕ) (l : List α) (k : ℕ) :
    l.take (n * k) ++ chunk n l k = l.take (n * (k + 1)) := by
  rw [Nat.mul_succ, List.take_add]; rfl

theorem lt_ceilDiv_iff {n : ℕ} (hn : 0 < n) (a k : ℕ) : k < a ⌈/⌉ n ↔ n * k < a := by
  rw [lt_iff_not_ge, ceilDiv_le_iff_le_mul hn, not_le]

/-- The number of chunks, as a quotient and a test of the remainder. -/
theorem ceilDiv_eq_div_add {n : ℕ} (hn : 0 < n) (a : ℕ) :
    a ⌈/⌉ n = a / n + if 0 < a % n then 1 else 0 := by
  have hd := Nat.div_add_mod a n
  have hr := Nat.mod_lt a hn
  refine eq_of_forall_lt_iff fun k => ?_
  rw [lt_ceilDiv_iff hn]
  have hle : ∀ j, j ≤ a / n ↔ n * j ≤ a := fun j => by
    rw [Nat.le_div_iff_mul_le hn, Nat.mul_comm]
  split_ifs with h
  · rw [Nat.lt_add_one_iff, hle]
    refine ⟨le_of_lt, fun hk => lt_of_le_of_ne hk fun he => ?_⟩
    rw [← he, Nat.mul_mod_right] at h
    exact lt_irrefl 0 h
  · have ha : n * (a / n) = a := by omega
    rw [Nat.add_zero, ← Nat.mul_lt_mul_left (a := n) (c := a / n) hn, ha]

theorem take_eq_self {n : ℕ} (hn : 0 < n) {l : List α} {k : ℕ} (h : l.length ⌈/⌉ n ≤ k) :
    l.take (n * k) = l := by
  rw [List.take_eq_self_iff]
  exact (ceilDiv_le_iff_le_mul hn).mp h

/-! ### Reassembly -/

/-- A receiver of chunks: the number of the chunk it expects next and what it holds. -/
structure Assembler (α : Type) where
  expected : ℕ
  held : List α

namespace Assembler

/-- Append the chunk number `k` if it is the one expected. -/
def accept (a : Assembler α) (k : ℕ) (payload : List α) : Assembler α :=
  if k = a.expected then ⟨a.expected + 1, a.held ++ payload⟩ else a

/-- The receiver holds the first `expected` chunks of `l`. -/
structure Holds (n : ℕ) (l : List α) (a : Assembler α) : Prop where
  held : a.held = l.take (n * a.expected)
  le : a.expected ≤ l.length ⌈/⌉ n

variable {n : ℕ} {l : List α} {a : Assembler α}

/-- **Any chunk of `l` keeps what the receiver holds a prefix of `l`.** -/
theorem Holds.accept (h : a.Holds n l) {k : ℕ} (hk : k < l.length ⌈/⌉ n) {payload : List α}
    (hp : payload = chunk n l k) : (a.accept k payload).Holds n l := by
  unfold Assembler.accept
  split_ifs with he
  · refine ⟨?_, by show a.expected + 1 ≤ _; omega⟩
    show a.held ++ payload = l.take (n * (a.expected + 1))
    rw [h.held, hp, he, take_append_chunk]
  · exact h

/-- A receiver that expects no further chunk holds the list. -/
theorem Holds.eq_of_expected (hn : 0 < n) (h : a.Holds n l) (he : a.expected = l.length ⌈/⌉ n) :
    a.held = l := by
  rw [h.held, take_eq_self hn he.ge]

/-- **A receiver of the full length holds exactly the list.** -/
theorem Holds.eq_of_length (h : a.Holds n l) (hlen : a.held.length = l.length) : a.held = l := by
  rw [h.held] at hlen ⊢
  exact List.take_eq_self_iff l |>.mpr (by rw [List.length_take] at hlen; omega)

theorem Holds.length_eq_iff (hn : 0 < n) (h : a.Holds n l) :
    a.held.length = l.length ↔ a.expected = l.length ⌈/⌉ n := by
  refine ⟨fun hlen => le_antisymm h.le ?_, fun he => by rw [h.eq_of_expected hn he]⟩
  rw [ceilDiv_le_iff_le_mul hn]
  rw [h.held, List.length_take] at hlen
  omega

end Assembler

end ConnectNcpHost.Lib.Chunks
