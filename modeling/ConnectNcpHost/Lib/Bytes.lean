import Mathlib.Tactic.Basic
import Mathlib.Data.List.Basic
import Mathlib.Logic.Function.Basic

/-! # Memory

A memory of cells of type `α`, addressed from `0`. `write m a xs` stores the list `xs` from the
address `a` on and `read m a n` is the list of the `n` cells from `a` on. Reading back what was
written (`read_write_same`), reading beside it (`read_write_of_le`, `read_write_of_ge`) and
splitting a read or a write (`read_add`, `write_append`) are all the programs below need. -/

namespace ConnectNcpHost.Lib.Bytes

variable {α : Type}

/-- A memory: the contents of every cell. -/
abbrev Memory (α : Type) : Type := ℕ → α

namespace Memory

/-- Store `xs` in the cells `a, a + 1, …`. -/
def write (m : Memory α) (a : ℕ) (xs : List α) : Memory α := fun i =>
  if a ≤ i then xs[i - a]?.getD (m i) else m i

/-- The `n` cells from `a` on. -/
def read (m : Memory α) (a n : ℕ) : List α := (List.range n).map fun i => m (a + i)

@[simp] theorem length_read (m : Memory α) (a n : ℕ) : (read m a n).length = n := by simp [read]

@[simp] theorem read_zero (m : Memory α) (a : ℕ) : read m a 0 = [] := rfl

theorem read_succ (m : Memory α) (a n : ℕ) : read m a (n + 1) = m a :: read m (a + 1) n := by
  simp only [read, List.range_succ_eq_map, List.map_cons, List.map_map, Nat.add_zero]
  congr 1
  refine List.map_congr_left fun i _ => ?_
  show m (a + (i + 1)) = m (a + 1 + i)
  rw [show a + (i + 1) = a + 1 + i by omega]

theorem getElem_read (m : Memory α) (a n i : ℕ) (h : i < (read m a n).length) :
    (read m a n)[i] = m (a + i) := by simp [read]

/-- A read in two parts. -/
theorem read_add (m : Memory α) (a n k : ℕ) : read m a (n + k) = read m a n ++ read m (a + n) k := by
  refine List.ext_getElem (by simp) fun i h1 h2 => ?_
  rw [getElem_read]
  rcases Nat.lt_or_ge i n with hi | hi
  · rw [List.getElem_append_left (by simpa using hi), getElem_read]
  · rw [List.getElem_append_right (by simpa using hi), getElem_read, length_read]
    congr 1; omega

theorem take_read (m : Memory α) (a n k : ℕ) (h : k ≤ n) : (read m a n).take k = read m a k := by
  obtain ⟨d, rfl⟩ := Nat.exists_eq_add_of_le h
  rw [read_add, List.take_left' (by simp)]

/-- Memories that agree on the cells read give the same list. -/
theorem read_congr {m m' : Memory α} {a n : ℕ} (h : ∀ i, a ≤ i → i < a + n → m i = m' i) :
    read m a n = read m' a n := by
  refine List.map_congr_left fun i hi => ?_
  rw [List.mem_range] at hi
  exact h _ (by omega) (by omega)

@[simp] theorem write_nil (m : Memory α) (a : ℕ) : write m a [] = m := by
  funext i; simp [write]

theorem write_of_lt (m : Memory α) {a i : ℕ} (xs : List α) (h : i < a) : write m a xs i = m i := by
  rw [write, if_neg (by omega)]

theorem write_of_ge (m : Memory α) {a i : ℕ} (xs : List α) (h : a + xs.length ≤ i) :
    write m a xs i = m i := by
  rw [write, if_pos (by omega), List.getElem?_eq_none (by omega)]; rfl

theorem write_add (m : Memory α) (a : ℕ) {i : ℕ} (xs : List α) (h : i < xs.length) :
    write m a xs (a + i) = xs[i] := by
  rw [write, if_pos (by omega), show a + i - a = i by omega, List.getElem?_eq_getElem h]; rfl

/-- A write in two parts. -/
theorem write_append (m : Memory α) (a : ℕ) (xs ys : List α) :
    write (write m a xs) (a + xs.length) ys = write m a (xs ++ ys) := by
  funext i
  rcases Nat.lt_or_ge i a with h1 | h1
  · rw [write_of_lt _ _ (by omega), write_of_lt _ _ h1, write_of_lt _ _ h1]
  obtain ⟨j, rfl⟩ := Nat.exists_eq_add_of_le h1
  rcases Nat.lt_or_ge j xs.length with h2 | h2
  · rw [write_of_lt _ _ (by omega), write_add _ _ _ h2, write_add _ _ _ (by simp; omega),
      List.getElem_append_left h2]
  rcases Nat.lt_or_ge j (xs.length + ys.length) with h3 | h3
  · obtain ⟨k, rfl⟩ := Nat.exists_eq_add_of_le h2
    rw [← Nat.add_assoc, write_add _ _ _ (by omega), Nat.add_assoc, write_add _ _ _ (by simp; omega),
      List.getElem_append_right (by omega)]
    congr 1; omega
  · rw [write_of_ge _ _ (by omega), write_of_ge _ _ (by omega),
      write_of_ge _ _ (by rw [List.length_append]; omega)]

theorem write_cons (m : Memory α) (a : ℕ) (x : α) (xs : List α) :
    write m a (x :: xs) = write (Function.update m a x) (a + 1) xs := by
  have h : write m a [x] = Function.update m a x := by
    funext i
    rcases Nat.lt_trichotomy i a with hi | rfl | hi
    · rw [write_of_lt _ _ hi, Function.update_of_ne (by omega)]
    · rw [Function.update_self]; exact write_add m i [x] (Nat.zero_lt_one)
    · rw [write_of_ge _ _ hi, Function.update_of_ne (by omega)]
  rw [← h]
  exact (write_append m a [x] xs).symm

/-- **What was written is read back.** -/
theorem read_write_same (m : Memory α) (a : ℕ) (xs : List α) :
    read (write m a xs) a xs.length = xs := by
  refine List.ext_getElem (by simp) fun i h1 h2 => ?_
  rw [getElem_read, write_add _ _ _ h2]

theorem read_write_of_le (m : Memory α) {a b n : ℕ} (xs : List α) (h : a + n ≤ b) :
    read (write m b xs) a n = read m a n :=
  read_congr fun i _ hi => write_of_lt m xs (by omega)

theorem read_write_of_ge (m : Memory α) {a b n : ℕ} (xs : List α) (h : b + xs.length ≤ a) :
    read (write m b xs) a n = read m a n :=
  read_congr fun i hi _ => write_of_ge m xs (by omega)

end Memory

end ConnectNcpHost.Lib.Bytes
