import Mathlib.Data.List.Basic
import Mathlib.Order.MinMax
import Mathlib.Tactic.Basic

/-! # A value and its updates

A variable that starts with `d` and is overwritten by the updates `us`, in order: `version d us n`
is its value after the first `n` of them. Later updates do not change earlier versions
(`version_append`), and two versions agree when no update between them changes the value
(`Unchanged.version_eq`). A replica that lags behind holds one of the versions. -/

namespace ConnectNcpHost.Lib.Versions

variable {α : Type} {d : α} {us : List α}

/-- The value after the first `n` updates. -/
def version (d : α) (us : List α) (n : ℕ) : α := (us.take n).getLast?.getD d

theorem version_append (d : α) (us vs : List α) {n : ℕ} (h : n ≤ us.length) :
    version d (us ++ vs) n = version d us n := by
  rw [version, List.take_append_of_le_length h]
  rfl

/-- The value after all the updates is the last of them. -/
theorem version_concat (d : α) (us : List α) (u : α) :
    version d (us ++ [u]) (us.length + 1) = u := by
  rw [version, List.take_of_length_le (by simp), List.getLast?_append]
  simp

theorem version_add (d : α) (us : List α) (n k : ℕ) :
    version d us (n + k) = version (version d us n) (us.drop n) k := by
  unfold version
  rw [List.take_add, List.getLast?_append]
  cases ((us.drop n).take k).getLast? <;> rfl

/-- The updates between the versions `n` and `k` leave the value as it is. -/
def Unchanged (d : α) (us : List α) (n k : ℕ) : Prop :=
  ∀ u ∈ (us.take (max n k)).drop (min n k), u = version d us (min n k)

theorem Unchanged.refl (d : α) (us : List α) (n : ℕ) : Unchanged d us n n := by
  intro u hu
  rw [max_self, min_self, List.drop_eq_nil_of_le (List.length_take_le n us)] at hu
  exact absurd hu List.not_mem_nil

theorem version_max_eq {n k : ℕ} (h : Unchanged d us n k) :
    version d us (max n k) = version d us (min n k) := by
  have hle : min n k ≤ max n k := le_trans (min_le_left n k) (le_max_left n k)
  obtain ⟨j, hj⟩ := Nat.exists_eq_add_of_le hle
  rw [hj, version_add]
  unfold Unchanged at h
  rw [hj, List.drop_take, Nat.add_sub_cancel_left] at h
  rcases hlast : ((us.drop (min n k)).take j).getLast? with _ | u
  · rw [version, hlast]; rfl
  · rw [version, hlast]
    exact h u (List.mem_of_getLast? hlast)

/-- **Versions with no change between them agree.** -/
theorem Unchanged.version_eq {n k : ℕ} (h : Unchanged d us n k) :
    version d us n = version d us k := by
  have hm := version_max_eq h
  rcases le_total n k with hle | hle
  · rw [max_eq_right hle, min_eq_left hle] at hm
    exact hm.symm
  · rw [max_eq_left hle, min_eq_right hle] at hm
    exact hm

end ConnectNcpHost.Lib.Versions
