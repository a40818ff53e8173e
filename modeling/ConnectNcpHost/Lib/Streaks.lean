import Mathlib.Tactic.Basic
import Mathlib.Data.List.Basic

/-! # Streaks

A log is a list that grows at its end, with entries that may still change. `Streak P l a n c`: the
`c` entries before the number `n` all satisfy `P`, and none of them is older than the number `a`.
A streak is extended by one entry more (`Streak.succ`), and neither a new entry (`Streak.append`) nor
a change of an entry that does not satisfy `P` (`Streak.modify`) takes anything from it. -/

namespace ConnectNcpHost.Lib.Streaks

universe u

variable {α : Type u} {P : α → Prop} {l : List α} {a n c : ℕ}

/-- The `c` entries before the number `n`, none of them before the number `a`, satisfy `P`. -/
structure Streak (P : α → Prop) (l : List α) (a n c : ℕ) : Prop where
  le : a + c ≤ n
  all : ∀ k x, k < n → n ≤ k + c → l[k]? = some x → P x

namespace Streak

theorem zero (P : α → Prop) (l : List α) (h : a ≤ n) : Streak P l a n 0 where
  le := h
  all k x h1 h2 _ := by omega

theorem mono {c' : ℕ} (h : Streak P l a n c) (hc : c' ≤ c) : Streak P l a n c' where
  le := by have := h.le; omega
  all k x h1 h2 := h.all k x h1 (by omega)

/-- One entry more. -/
theorem succ {x : α} (h : Streak P l a n c) (hx : l[n]? = some x) (hP : P x) :
    Streak P l a (n + 1) (c + 1) where
  le := by have := h.le; omega
  all k y h1 h2 hy := by
    rcases Nat.lt_or_ge k n with hk | hk
    · exact h.all k y hk (by omega) hy
    · obtain rfl : k = n := by omega
      obtain rfl : x = y := Option.some.inj (hx.symm.trans hy)
      exact hP

theorem append (h : Streak P l a n c) (hn : n ≤ l.length) (xs : List α) :
    Streak P (l ++ xs) a n c where
  le := h.le
  all k x h1 h2 hx := by
    rw [List.getElem?_append_left (by omega)] at hx
    exact h.all k x h1 h2 hx

/-- An entry that does not satisfy `P` is changed: it is none of the streak. -/
theorem modify {i : ℕ} {y : α} (h : Streak P l a n c) (hy : l[i]? = some y) (hP : ¬ P y)
    (f : α → α) : Streak P (l.modify i f) a n c where
  le := h.le
  all k x h1 h2 hx := by
    have hne : i ≠ k := by
      rintro rfl
      exact hP (h.all i y h1 h2 hy)
    rw [List.getElem?_modify_ne f l hne] at hx
    exact h.all k x h1 h2 hx

end Streak

end ConnectNcpHost.Lib.Streaks
