import ConnectNcpHost.Lib.Bytes
import Mathlib.Tactic.ByContra

/-! # Terminated strings in a memory

A string of cells that are not the terminator `z`, and the terminator behind it. A string depends on
its own cells only (`Holds.congr`), and one that is written and padded with terminators stands there
(`holds_padded`). -/

namespace ConnectNcpHost.Lib.Terminated

open ConnectNcpHost.Lib.Bytes

variable {α : Type} {z : α} {m m' : Memory α} {a k n : ℕ} {text xs : List α}

/-- The string `text` stands at `a`, with its terminator behind it. -/
structure Holds (z : α) (m : Memory α) (a : ℕ) (text : List α) : Prop where
  contents : m.read a text.length = text
  terminator : m (a + text.length) = z
  clean : z ∉ text

/-- A string depends on its cells, and on the one of its terminator. -/
theorem Holds.congr (h : Holds z m a text) (heq : ∀ i, a ≤ i → i ≤ a + text.length → m' i = m i) :
    Holds z m' a text := by
  refine ⟨?_, ?_, h.clean⟩
  · rw [← Memory.read_congr fun i h1 h2 => (heq i h1 (Nat.le_of_lt h2)).symm]
    exact h.contents
  · rw [heq _ (Nat.le_add_right _ _) (Nat.le_refl _)]
    exact h.terminator

/-- The terminator stands behind no shorter string. -/
theorem Holds.length_le (h : Holds z m a text) (h' : Holds z m a xs) : text.length ≤ xs.length := by
  by_contra hlt
  have hmem : m (a + xs.length) ∈ m.read a text.length :=
    List.mem_map.mpr ⟨xs.length, List.mem_range.mpr (by omega), rfl⟩
  rw [h'.terminator, h.contents] at hmem
  exact h.clean hmem

/-- One string stands at an address. -/
theorem Holds.unique (h : Holds z m a text) (h' : Holds z m a xs) : text = xs := by
  rw [← h.contents, ← h'.contents, Nat.le_antisymm (h.length_le h') (h'.length_le h)]

theorem write_padding (m : Memory α) (a : ℕ) (text : List α) {i : ℕ} (hi : i < k) :
    m.write a (text ++ List.replicate k z) (a + text.length + i) = z := by
  rw [Nat.add_assoc, Memory.write_add _ _ _ (by simpa using hi),
    List.getElem_append_right (by omega), List.getElem_replicate]

/-- A string written with its terminator. -/
theorem holds_write (m : Memory α) (a : ℕ) (hclean : z ∉ text) :
    Holds z (m.write a (text ++ [z])) a text := by
  refine ⟨?_, ?_, hclean⟩
  · rw [← Memory.write_append, Memory.read_write_of_le _ _ (Nat.le_refl _),
      Memory.read_write_same]
  · exact write_padding m a text (k := 1) (i := 0) (Nat.zero_lt_one)

/-- **A string written into `n` cells**, padded with terminators, and one more in the last cell. -/
theorem holds_padded (m : Memory α) (a : ℕ) (hclean : z ∉ text) (hlt : text.length < n)
    (hpad : 0 < k ∨ text.length + 1 = n) :
    Holds z ((m.write a (text ++ List.replicate k z)).write (a + n - 1) [z]) a text := by
  have hlast : ∀ i, i < a + n - 1 → (m.write a (text ++ List.replicate k z)).write (a + n - 1) [z] i
      = m.write a (text ++ List.replicate k z) i := fun i hi => Memory.write_of_lt _ _ hi
  refine ⟨?_, ?_, hclean⟩
  · rw [Memory.read_congr fun i h1 h2 => hlast i (by omega), ← Memory.write_append,
      Memory.read_write_of_le _ _ (Nat.le_refl _), Memory.read_write_same]
  · rcases Nat.eq_or_lt_of_le (Nat.succ_le_of_lt hlt) with heq | hmore
    · have hend : a + text.length = a + n - 1 + 0 := by omega
      rw [hend, Memory.write_add _ _ _ (Nat.zero_lt_one)]
      rfl
    · rw [hlast _ (by omega)]
      exact write_padding m a text (i := 0) (by omega)

/-- The cells around the `n` cells stay. -/
theorem write_padded_of_outside (m : Memory α) {i : ℕ} (hlen : xs.length ≤ n) (hn : 0 < n)
    (hi : i < a ∨ a + n ≤ i) : (m.write a xs).write (a + n - 1) [z] i = m i := by
  rcases hi with hlt | hge
  · rw [Memory.write_of_lt _ _ (by omega), Memory.write_of_lt _ _ hlt]
  · rw [Memory.write_of_ge _ _ (by rw [List.length_singleton]; omega),
      Memory.write_of_ge _ _ (by omega)]

end ConnectNcpHost.Lib.Terminated
