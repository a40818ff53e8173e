import Mathlib.Tactic.Basic
import Mathlib.Data.List.Basic
import Mathlib.Tactic.SplitIfs

/-! # Programs that call their surroundings

A `Program A T α` prints texts of the type `T`, makes calls `c : C`, each answered by an `A c`, and
returns a value of the type `α`, unless it does something that is undefined. What it does next may
depend on the answers, so a program is a tree, and `Reaches` are the paths from its root.

* `Uses P`: all calls it can make, whatever the answers are, have the property `P`.
* `Defined`: it does nothing undefined, whatever the answers are.
* `Returns Q`: all values it can return have the property `Q`. -/

namespace ConnectNcpHost.Lib.Programs

/-- A program, as the tree of what it can do. -/
inductive Program {C : Type} (A : C → Type) (T α : Type)
  | ret (a : α)
  | undefined
  | print (text : T) (next : Program A T α)
  | call (c : C) (next : A c → Program A T α)

namespace Program

variable {C T α : Type} {A : C → Type} {P : C → Prop} {Q : α → Prop}

/-- Every call the program can make has the property. -/
def Uses (P : C → Prop) : Program A T α → Prop
  | ret _ => True
  | undefined => True
  | print _ next => next.Uses P
  | call c next => P c ∧ ∀ x, (next x).Uses P

/-- Nothing the program can do is undefined. -/
def Defined : Program A T α → Prop
  | ret _ => True
  | undefined => False
  | print _ next => next.Defined
  | call _ next => ∀ x, (next x).Defined

/-- Every value the program can return has the property. -/
def Returns (Q : α → Prop) : Program A T α → Prop
  | ret a => Q a
  | undefined => True
  | print _ next => next.Returns Q
  | call _ next => ∀ x, (next x).Returns Q

/-- The value the program returns where its calls are answered by `answers n`, `answers (n + 1)` and
so on; `none` where it does something undefined. -/
def returned (answers : ℕ → (c : C) → A c) : ℕ → Program A T α → Option α
  | _, ret a => some a
  | _, undefined => none
  | n, print _ next => returned answers n next
  | n, call c next => returned answers (n + 1) (next (answers n c))

section

variable {p q : Program A T α} {text : T} {a : α} {c : C} {next : A c → Program A T α} {b : Prop}
  [Decidable b]

@[simp] theorem uses_ret : (ret a : Program A T α).Uses P := trivial

@[simp] theorem uses_undefined : (undefined : Program A T α).Uses P := trivial

@[simp] theorem uses_print : (print text p).Uses P ↔ p.Uses P := Iff.rfl

@[simp] theorem uses_call : (call c next).Uses P ↔ P c ∧ ∀ x, (next x).Uses P := Iff.rfl

@[simp] theorem uses_ite :
    (if b then p else q).Uses P ↔ (b → p.Uses P) ∧ (¬ b → q.Uses P) := by
  split_ifs with h <;> simp [h]

@[simp] theorem defined_ret : (ret a : Program A T α).Defined := trivial

@[simp] theorem not_defined_undefined : ¬ (undefined : Program A T α).Defined := id

@[simp] theorem defined_print : (print text p).Defined ↔ p.Defined := Iff.rfl

@[simp] theorem defined_call : (call c next).Defined ↔ ∀ x, (next x).Defined := Iff.rfl

@[simp] theorem defined_ite :
    (if b then p else q).Defined ↔ (b → p.Defined) ∧ (¬ b → q.Defined) := by
  split_ifs with h <;> simp [h]

@[simp] theorem returns_ret : (ret a : Program A T α).Returns Q ↔ Q a := Iff.rfl

@[simp] theorem returns_undefined : (undefined : Program A T α).Returns Q := trivial

@[simp] theorem returns_print : (print text p).Returns Q ↔ p.Returns Q := Iff.rfl

@[simp] theorem returns_call : (call c next).Returns Q ↔ ∀ x, (next x).Returns Q := Iff.rfl

@[simp] theorem returns_ite :
    (if b then p else q).Returns Q ↔ (b → p.Returns Q) ∧ (¬ b → q.Returns Q) := by
  split_ifs with h <;> simp [h]

end

theorem returns_of_returned {answers : ℕ → (c : C) → A c} {a : α} :
    ∀ {p : Program A T α} {n : ℕ}, p.Returns Q → p.returned answers n = some a → Q a
  | ret _, _, hp, h => Option.some.inj h ▸ hp
  | undefined, _, _, h => by cases h
  | print _ next, n, hp, h => returns_of_returned (p := next) (n := n) hp h
  | call c next, n, hp, h =>
    returns_of_returned (p := next (answers n c)) (n := n + 1) (hp (answers n c)) h

/-- A call, with its answer. -/
abbrev Answered (A : C → Type) : Type := Σ c, A c

/-- After these calls and texts the program `p` is at `q`. -/
inductive Reaches (p : Program A T α) :
    List (Answered A) → List T → Program A T α → Prop
  | start : Reaches p [] [] p
  | print {calls : List (Answered A)} {texts : List T} {text : T} {next : Program A T α}
      (h : Reaches p calls texts (.print text next)) : Reaches p calls (texts ++ [text]) next
  | call {calls : List (Answered A)} {texts : List T} {c : C} {next : A c → Program A T α}
      (h : Reaches p calls texts (.call c next)) (x : A c) :
      Reaches p (calls ++ [⟨c, x⟩]) texts (next x)

variable {p q : Program A T α} {calls : List (Answered A)} {texts : List T}

theorem uses_of_reaches (h : Reaches p calls texts q) (hp : p.Uses P) :
    q.Uses P ∧ ∀ a ∈ calls, P a.1 := by
  induction h with
  | start => exact ⟨hp, fun a ha => absurd ha List.not_mem_nil⟩
  | print _ ih => exact ⟨ih.1, ih.2⟩
  | call _ x ih =>
    obtain ⟨⟨hc, hnext⟩, hcalls⟩ := ih
    refine ⟨hnext x, fun a ha => ?_⟩
    rcases List.mem_append.mp ha with ha | ha
    · exact hcalls a ha
    · rw [List.mem_singleton.mp ha]
      exact hc

theorem defined_of_reaches (h : Reaches p calls texts q) (hp : p.Defined) : q.Defined := by
  induction h with
  | start => exact hp
  | print _ ih => exact ih
  | call _ x ih => exact ih x

/-- The same text a number of times. -/
def printTimes (text : T) : ℕ → Program A T α → Program A T α
  | 0, next => next
  | n + 1, next => .print text (printTimes text n next)

@[simp] theorem uses_printTimes (text : T) (n : ℕ) :
    (printTimes text n p).Uses P ↔ p.Uses P := by
  induction n with
  | zero => rfl
  | succ n ih => exact ih

@[simp] theorem defined_printTimes (text : T) (n : ℕ) :
    (printTimes text n p).Defined ↔ p.Defined := by
  induction n with
  | zero => rfl
  | succ n ih => exact ih

@[simp] theorem returns_printTimes (text : T) (n : ℕ) :
    (printTimes text n p).Returns Q ↔ p.Returns Q := by
  induction n with
  | zero => rfl
  | succ n ih => exact ih

end Program

end ConnectNcpHost.Lib.Programs
