import Mathlib.Tactic.Basic
import Mathlib.Data.List.Basic

/-! # Pipes

A pipe of bounded capacity, written at one end and read, in order, at the other. A writer waits for
room and a reader for something to read: `write` and `read` are `none` where the call blocks. A write
of at most `atomic` items appears as a whole, a longer one in pieces (`Write`). -/

namespace ConnectNcpHost.Lib.Pipes

universe u

/-- A pipe and what it holds. -/
structure Pipe (α : Type u) (capacity : ℕ) where
  items : List α
  length_le : items.length ≤ capacity

variable {α : Type u} {capacity : ℕ}

namespace Pipe

def empty : Pipe α capacity := ⟨[], Nat.zero_le _⟩

/-- The items appear, or there is no room for them. -/
def write (p : Pipe α capacity) (xs : List α) : Option (Pipe α capacity) :=
  if h : (p.items ++ xs).length ≤ capacity then some ⟨p.items ++ xs, h⟩ else none

/-- At most `n` items, the oldest ones, or there is nothing to read. -/
def read (p : Pipe α capacity) (n : ℕ) : Option (List α × Pipe α capacity) :=
  if p.items = [] then none
  else some (p.items.take n, ⟨p.items.drop n, by
    have h := p.length_le
    rw [List.length_drop]
    omega⟩)

@[ext] theorem ext {p q : Pipe α capacity} (h : p.items = q.items) : p = q := by
  cases p
  cases q
  congr

@[simp] theorem items_empty : (empty : Pipe α capacity).items = [] := rfl

theorem write_eq_some_iff {p q : Pipe α capacity} {xs : List α} :
    p.write xs = some q ↔ q.items = p.items ++ xs := by
  unfold write
  constructor
  · intro h
    split_ifs at h with hle
    obtain rfl := Option.some.inj h
    rfl
  · intro h
    have hle : (p.items ++ xs).length ≤ capacity := by rw [← h]; exact q.length_le
    rw [dif_pos hle]
    exact congrArg some (ext h.symm)

theorem ne_nil_of_read {p : Pipe α capacity} {n : ℕ} {r : List α × Pipe α capacity}
    (h : p.read n = some r) : p.items ≠ [] := by
  intro hp
  rw [read, if_pos hp] at h
  cases h

/-- A read of one item. -/
theorem exists_of_read_one {p q : Pipe α capacity} {xs : List α} (h : p.read 1 = some (xs, q)) :
    ∃ x, p.items = x :: q.items := by
  unfold read at h
  split_ifs at h with hnil
  obtain ⟨x, items, hitems⟩ := List.exists_cons_of_ne_nil hnil
  simp only [Option.some.injEq, Prod.mk.injEq] at h
  obtain ⟨-, rfl⟩ := h
  refine ⟨x, ?_⟩
  show p.items = x :: p.items.drop 1
  rw [hitems, List.drop_one, List.tail_cons]

/-- At most as many items are read as were asked for. -/
theorem length_read_le {p q : Pipe α capacity} {n : ℕ} {xs : List α}
    (h : p.read n = some (xs, q)) : xs.length ≤ n := by
  unfold read at h
  split_ifs at h
  simp only [Option.some.injEq, Prod.mk.injEq] at h
  obtain ⟨rfl, -⟩ := h
  exact List.length_take_le n _

/-- A read of a whole pipe empties it. -/
theorem read_all {p q : Pipe α capacity} {n : ℕ} {xs : List α} (hn : capacity ≤ n)
    (h : p.read n = some (xs, q)) : xs = p.items ∧ q = empty := by
  have hle := p.length_le
  unfold read at h
  split_ifs at h
  simp only [Option.some.injEq, Prod.mk.injEq] at h
  obtain ⟨rfl, rfl⟩ := h
  exact ⟨List.take_of_length_le (by omega), ext (List.drop_eq_nil_of_le (by omega))⟩

theorem read_eq_some {p : Pipe α capacity} {n : ℕ} (hn : capacity ≤ n) (h : p.items ≠ []) :
    p.read n = some (p.items, empty) := by
  have hle := p.length_le
  unfold read
  rw [if_neg h, List.take_of_length_le (by omega)]
  congr 2
  exact ext (List.drop_eq_nil_of_le (by omega))

end Pipe

/-! ## Writes in progress -/

/-- A call of `write` that has not returned: the length it was called with, and what has not
appeared yet. -/
structure Write (α : Type u) where
  total : ℕ
  rest : List α

namespace Write

/-- The next `k` items appear: all of them where the write is atomic. The write that is left is
`none` once it returns. -/
def step (atomic : ℕ) (w : Write α) (k : ℕ) (p : Pipe α capacity) :
    Option (Option (Write α) × Pipe α capacity) :=
  if 0 < k ∧ k ≤ w.rest.length ∧ (w.total ≤ atomic → k = w.rest.length) then
    (p.write (w.rest.take k)).map fun p =>
      (if k = w.rest.length then none else some ⟨w.total, w.rest.drop k⟩, p)
  else none

/-- What a step of a write can do: some of what is left appears, all of it, or a part of a write
that is not atomic. -/
theorem step_eq_some {atomic k : ℕ} {w : Write α} {w' : Option (Write α)} {p q : Pipe α capacity}
    (h : w.step atomic k p = some (w', q)) :
    (w.rest ≠ [] ∧ w' = none ∧ q.items = p.items ++ w.rest) ∨
      (0 < k ∧ k < w.rest.length ∧ atomic < w.total ∧ w' = some ⟨w.total, w.rest.drop k⟩ ∧
        q.items = p.items ++ w.rest.take k) := by
  unfold step at h
  by_cases hk : 0 < k ∧ k ≤ w.rest.length ∧ (w.total ≤ atomic → k = w.rest.length)
  · rw [if_pos hk] at h
    simp only [Option.map_eq_some_iff, Prod.mk.injEq] at h
    obtain ⟨p', hp, rfl, rfl⟩ := h
    have hq := Pipe.write_eq_some_iff.mp hp
    by_cases hlen : k = w.rest.length
    · subst hlen
      exact .inl ⟨List.ne_nil_of_length_pos hk.1, if_pos rfl, by rw [hq, List.take_length]⟩
    · have hatomic : atomic < w.total := by
        by_contra hle
        exact hlen (hk.2.2 (by omega))
      exact .inr ⟨hk.1, by omega, hatomic, if_neg hlen, hq⟩
  · rw [if_neg hk] at h
    cases h

/-- An atomic write appears as a whole. -/
theorem step_atomic {atomic k : ℕ} {w : Write α} {w' : Option (Write α)} {p q : Pipe α capacity}
    (hw : w.total ≤ atomic) (h : w.step atomic k p = some (w', q)) :
    w' = none ∧ q.items = p.items ++ w.rest := by
  rcases step_eq_some h with ⟨-, hnone, hq⟩ | ⟨-, -, hlt, -, -⟩
  · exact ⟨hnone, hq⟩
  · omega

/-- A write appears at once, where there is room. -/
theorem step_all {atomic : ℕ} {w : Write α} {p q : Pipe α capacity} (hr : w.rest ≠ [])
    (hq : q.items = p.items ++ w.rest) : w.step atomic w.rest.length p = some (none, q) := by
  have hpos := List.length_pos_iff.mpr hr
  unfold step
  rw [if_pos ⟨hpos, Nat.le_refl _, fun _ => rfl⟩, List.take_length, Pipe.write_eq_some_iff.mpr hq]
  simp

/-- A part of a longer write appears alone. -/
theorem step_part {atomic k : ℕ} {w : Write α} {p q : Pipe α capacity} (hw : atomic < w.total)
    (hk : 0 < k) (hr : k < w.rest.length) (hq : q.items = p.items ++ w.rest.take k) :
    w.step atomic k p = some (some ⟨w.total, w.rest.drop k⟩, q) := by
  unfold step
  rw [if_pos ⟨hk, Nat.le_of_lt hr, fun h => absurd h (by omega)⟩, Pipe.write_eq_some_iff.mpr hq]
  simp [show k ≠ w.rest.length by omega]

/-! ### Blocked writes -/

/-- The call of `write` is blocked: nothing of it can appear. -/
def Blocked (atomic : ℕ) (w : Write α) (p : Pipe α capacity) : Prop :=
  ∀ k, w.step atomic k p = none

/-- A write for which there is room is not blocked. -/
theorem not_blocked_of_le {atomic : ℕ} {w : Write α} {p : Pipe α capacity} (hr : w.rest ≠ [])
    (hle : p.items.length + w.rest.length ≤ capacity) : ¬ w.Blocked atomic p := by
  intro h
  have hfits : (p.items ++ w.rest).length ≤ capacity := by rwa [List.length_append]
  have hst : w.step atomic w.rest.length p = some (none, ⟨p.items ++ w.rest, hfits⟩) :=
    step_all hr rfl
  cases hst.symm.trans (h w.rest.length)

theorem blocked_of_full {atomic : ℕ} {w : Write α} {p : Pipe α capacity}
    (h : p.items.length = capacity) : w.Blocked atomic p := by
  intro k
  rcases hst : w.step atomic k p with _ | ⟨w', q⟩
  · rfl
  · have hle := q.length_le
    exfalso
    rcases step_eq_some hst with ⟨hr, -, hq⟩ | ⟨hk, hkr, -, -, hq⟩
    · have := List.length_pos_iff.mpr hr
      rw [hq, List.length_append] at hle
      omega
    · rw [hq, List.length_append, List.length_take] at hle
      omega

/-- **Where there is no room for all of a write, it blocks**: at once, or when as much of it has
appeared as fits. -/
theorem exists_blocked {atomic : ℕ} {w : Write α} {p : Pipe α capacity}
    (h : capacity < p.items.length + w.rest.length) :
    w.Blocked atomic p ∨ ∃ k w' q, w.step atomic k p = some (some w', q) ∧
      w'.Blocked atomic q := by
  have hle := p.length_le
  by_cases hatomic : w.total ≤ atomic
  · left
    intro k
    rcases hst : w.step atomic k p with _ | ⟨w', q⟩
    · rfl
    · have hlen := congrArg List.length (step_atomic hatomic hst).2
      rw [List.length_append] at hlen
      have := q.length_le
      omega
  by_cases hfull : p.items.length = capacity
  · exact .inl (blocked_of_full hfull)
  · right
    -- the pipe is filled up
    set k := capacity - p.items.length with hk
    have hlen : (p.items ++ w.rest.take k).length = capacity := by
      rw [List.length_append, List.length_take]
      omega
    exact ⟨k, _, ⟨_, Nat.le_of_eq hlen⟩, step_part (by omega) (by omega) (by omega) rfl,
      blocked_of_full hlen⟩

end Write

end ConnectNcpHost.Lib.Pipes
