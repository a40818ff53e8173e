import Mathlib.Tactic.Basic
import Mathlib.Data.List.Basic

/-! # Labelled systems and their guarded runs

A *system* steps from a state under an input to a state and a list of outputs; the step is a
partial function, so a run can be replayed by evaluation (`exec`). A *guard* is a condition on the
state before a step and on its input; `Reach ok` are the states reached by steps that all meet the
guard `ok`, and `free` is the guard that allows everything.

* `Reach.invariant`, `Reach.invariant_of`: the induction over runs, done once.
* `reach_of_exec`: a replayed list of inputs reaches its last state.
* `Leads ok s t`: allowed steps go from `s` to `t`; `exists_leads_of_progress`: a goal that a measure
  counts down to can be reached.
* `Reach.simulate`: a simulation, each step of which is any number of steps of the other system.
* `observe`: a system with a history variable, updated from what each step shows. It has the runs
  of the system it observes (`reach_fst_of_observe`, `exists_observe_of_reach`).
* `foldl_eq_self`: outputs that have no effect, one by one, have none together. -/

namespace ConnectNcpHost.Lib.Runs

universe u v w x

/-- A system with states `σ`, inputs `ι` and outputs `ο`. -/
structure System (σ : Type u) (ι : Type v) (ο : Type w) where
  start : σ → Prop
  step : σ → ι → Option (σ × List ο)

/-- The guard that allows every step. -/
def free {σ : Type u} {ι : Type v} : σ → ι → Prop := fun _ _ => True

instance {σ : Type u} {ι : Type v} (s : σ) (i : ι) : Decidable (free s i) := isTrue trivial

namespace System

variable {σ : Type u} {ι : Type v} {ο : Type w} {γ : Type x} (S : System σ ι ο)

/-- **The states reached by steps that meet the guard.** -/
inductive Reach (ok : σ → ι → Prop) : σ → Prop
  | start {s : σ} (h : S.start s) : Reach ok s
  | step {s s' : σ} {i : ι} {os : List ο} (hs : Reach ok s) (hi : ok s i)
      (h : S.step s i = some (s', os)) : Reach ok s'

variable {S}

/-- What holds at the start and is kept by every allowed step from a reached state holds in every
reached state. -/
theorem Reach.invariant {ok : σ → ι → Prop} {I : σ → Prop} (h0 : ∀ s, S.start s → I s)
    (hstep : ∀ s i s' os, S.Reach ok s → I s → ok s i → S.step s i = some (s', os) → I s') :
    ∀ {s}, S.Reach ok s → I s := by
  intro s hs
  induction hs with
  | start h => exact h0 _ h
  | step hs hi h ih => exact hstep _ _ _ _ hs ih hi h

/-- The same, where the step keeps the invariant with the help of one proved before. -/
theorem Reach.invariant_of {ok : σ → ι → Prop} {I J : σ → Prop} (hJ : ∀ s, S.Reach ok s → J s)
    (h0 : ∀ s, S.start s → I s)
    (hstep : ∀ s i s' os, J s → I s → ok s i → S.step s i = some (s', os) → I s') :
    ∀ {s}, S.Reach ok s → I s :=
  Reach.invariant h0 fun s i s' os hs => hstep s i s' os (hJ s hs)

/-- A weaker guard reaches more. -/
theorem Reach.mono {ok ok' : σ → ι → Prop} (h : ∀ s i, ok s i → ok' s i) {s : σ}
    (hs : S.Reach ok s) : S.Reach ok' s := by
  induction hs with
  | start h0 => exact .start h0
  | step _ hi hst ih => exact .step ih (h _ _ hi) hst

/-! ### Replaying a list of inputs -/

/-- The state and the outputs after a list of inputs, if every step is enabled and meets the
guard. -/
def exec (S : System σ ι ο) (ok : σ → ι → Prop) [∀ s i, Decidable (ok s i)] :
    σ → List ι → Option (σ × List ο)
  | s, [] => some (s, [])
  | s, i :: is =>
    if ok s i then do
      let (s', os) ← S.step s i
      let (s'', os') ← exec S ok s' is
      return (s'', os ++ os')
    else none

theorem exec_cons {ok : σ → ι → Prop} [∀ s i, Decidable (ok s i)] {i : ι} {is : List ι} {s s' : σ}
    {os : List ο} (h : S.exec ok s (i :: is) = some (s', os)) :
    ∃ s1 os1 os2, ok s i ∧ S.step s i = some (s1, os1) ∧ S.exec ok s1 is = some (s', os2) ∧
      os = os1 ++ os2 := by
  by_cases hi : ok s i
  · rcases hst : S.step s i with _ | ⟨s1, os1⟩
    · simp [exec, hi, hst] at h
    · rcases hr : S.exec ok s1 is with _ | ⟨s2, os2⟩
      · simp [exec, hi, hst, hr] at h
      · obtain ⟨rfl, rfl⟩ : s2 = s' ∧ os1 ++ os2 = os := by simpa [exec, hi, hst, hr] using h
        exact ⟨s1, os1, os2, hi, rfl, hr, rfl⟩
  · simp [exec, hi] at h

theorem exec_of_step {ok : σ → ι → Prop} [∀ s i, Decidable (ok s i)] {i : ι} {is : List ι}
    {s s1 s' : σ} {os os' : List ο} (hi : ok s i) (hst : S.step s i = some (s1, os))
    (h : S.exec ok s1 is = some (s', os')) :
    S.exec ok s (i :: is) = some (s', os ++ os') := by
  simp [exec, hi, hst, h]

/-- One list of inputs, and another. -/
theorem exec_append {ok : σ → ι → Prop} [∀ s i, Decidable (ok s i)] {js : List ι} {s1 s' : σ}
    {os' : List ο} (h' : S.exec ok s1 js = some (s', os')) :
    ∀ {is : List ι} {s : σ} {os : List ο}, S.exec ok s is = some (s1, os) →
      S.exec ok s (is ++ js) = some (s', os ++ os')
  | [], s, os, h => by
    simp only [exec, Option.some.injEq, Prod.mk.injEq] at h
    obtain ⟨rfl, rfl⟩ := h
    exact h'
  | j :: is, s, os, h => by
    obtain ⟨s2, os1, os2, hj, hst2, hr, rfl⟩ := exec_cons h
    rw [List.cons_append, exec_of_step hj hst2 (exec_append h' hr), List.append_assoc]

/-- What every allowed step keeps is kept by a list of inputs. -/
theorem exec_invariant {ok : σ → ι → Prop} [∀ s i, Decidable (ok s i)] {I : σ → Prop}
    (hstep : ∀ s i s' os, I s → ok s i → S.step s i = some (s', os) → I s') :
    ∀ {is : List ι} {s s' : σ} {os : List ο}, I s → S.exec ok s is = some (s', os) → I s'
  | [], s, s', os, hs, h => by
    simp only [exec, Option.some.injEq, Prod.mk.injEq] at h
    exact h.1 ▸ hs
  | i :: is, s, s', os, hs, h => by
    obtain ⟨s1, os1, os2, hi, hst, hr, -⟩ := exec_cons h
    exact exec_invariant hstep (hstep _ _ _ _ hs hi hst) hr

theorem reach_of_exec {ok : σ → ι → Prop} [∀ s i, Decidable (ok s i)] {is : List ι} {s s' : σ}
    {os : List ο} (hs : S.Reach ok s) (h : S.exec ok s is = some (s', os)) : S.Reach ok s' :=
  exec_invariant (fun _ _ _ _ hs hi hst => .step hs hi hst) hs h

/-- A run can be replayed. -/
theorem exists_exec_of_reach {ok : σ → ι → Prop} [∀ s i, Decidable (ok s i)] {s : σ}
    (h : S.Reach ok s) : ∃ s0 is os, S.start s0 ∧ S.exec ok s0 is = some (s, os) := by
  induction h with
  | start h => exact ⟨_, [], [], h, rfl⟩
  | step _ hi hst ih =>
    obtain ⟨s0, is, os, h0, hexec⟩ := ih
    exact ⟨s0, is ++ [_], _, h0, exec_append (exec_of_step hi hst rfl) hexec⟩

/-- The same, from the last state alone. -/
theorem reach_of_exec_fst {ok : σ → ι → Prop} [∀ s i, Decidable (ok s i)] (is : List ι) {s s' : σ}
    (hs : S.Reach ok s) (h : (S.exec ok s is).map Prod.fst = some s') : S.Reach ok s' := by
  obtain ⟨⟨s1, os⟩, hr, rfl⟩ := Option.map_eq_some_iff.mp h
  exact reach_of_exec hs hr

/-- Where the last state is known through a function of it. -/
theorem exists_reach_of_exec {β : Type*} {ok : σ → ι → Prop} [∀ s i, Decidable (ok s i)]
    (is : List ι) {s : σ} (f : σ → β) {b : β} (hs : S.Reach ok s)
    (h : (S.exec ok s is).map (fun r => f r.1) = some b) : ∃ s', S.Reach ok s' ∧ f s' = b := by
  obtain ⟨⟨s1, os⟩, hr, rfl⟩ := Option.map_eq_some_iff.mp h
  exact ⟨s1, reach_of_exec hs hr, rfl⟩

/-! ### Where a run can be taken -/

/-- **Allowed steps go from `s` to `t`.** -/
inductive Leads (S : System σ ι ο) (ok : σ → ι → Prop) : σ → σ → Prop
  | refl (s : σ) : Leads S ok s s
  | step {s s' t : σ} {i : ι} {os : List ο} (hi : ok s i) (h : S.step s i = some (s', os))
      (hs : Leads S ok s' t) : Leads S ok s t

theorem Leads.single {ok : σ → ι → Prop} {s s' : σ} {i : ι} {os : List ο} (hi : ok s i)
    (h : S.step s i = some (s', os)) : S.Leads ok s s' := .step hi h (.refl s')

theorem Leads.trans {ok : σ → ι → Prop} {s t u : σ} (h : S.Leads ok s t) (h' : S.Leads ok t u) :
    S.Leads ok s u := by
  induction h with
  | refl s => exact h'
  | step hi hst _ ih => exact .step hi hst (ih h')

/-- What is reached from a reached state is reached. -/
theorem Leads.reach {ok ok' : σ → ι → Prop} (h : ∀ s i, ok' s i → ok s i) {s t : σ}
    (hs : S.Reach ok s) (hl : S.Leads ok' s t) : S.Reach ok t := by
  induction hl with
  | refl s => exact hs
  | step hi hst _ ih => exact ih (.step hs (h _ _ hi) hst)

/-- **Progress.** Where allowed steps lead from every state that meets the invariant to the goal, or
closer to it, the goal is reached by allowed steps. -/
theorem exists_leads_of_progress {ok : σ → ι → Prop} {I goal : σ → Prop} (measure : σ → ℕ)
    (hprogress : ∀ s, I s → ∃ t, S.Leads ok s t ∧ (goal t ∨ I t ∧ measure t < measure s)) {s : σ}
    (hs : I s) : ∃ t, S.Leads ok s t ∧ goal t := by
  induction hn : measure s using Nat.strongRecOn generalizing s with
  | ind n ih =>
    obtain ⟨t, hl, hgoal | ⟨ht, hlt⟩⟩ := hprogress s hs
    · exact ⟨t, hl, hgoal⟩
    · obtain ⟨u, hl', hgoal⟩ := ih (measure t) (hn ▸ hlt) ht rfl
      exact ⟨u, hl.trans hl', hgoal⟩

/-- The same, one step at a time. -/
theorem exists_leads_of_measure {ok : σ → ι → Prop} {I goal : σ → Prop} (measure : σ → ℕ)
    (hstep : ∀ s, I s → ¬ goal s → ∃ i s' os, ok s i ∧ S.step s i = some (s', os) ∧ I s' ∧
      measure s' < measure s) {s : σ} (hs : I s) : ∃ t, S.Leads ok s t ∧ I t ∧ goal t := by
  refine exists_leads_of_progress (I := I) measure (fun s hs => ?_) hs
  by_cases hgoal : goal s
  · exact ⟨s, .refl s, .inl ⟨hs, hgoal⟩⟩
  · obtain ⟨i, s', os, hi, hst, hs', hlt⟩ := hstep s hs hgoal
    exact ⟨s', .single hi hst, .inr ⟨hs', hlt⟩⟩

/-- **Simulation.** Where each step is answered by steps of another system, so that the relation holds
again, every state reached is related to one reached there. -/
theorem Reach.simulate {τ : Type*} {κ : Type*} {π : Type*} {T : System τ κ π} {ok : σ → ι → Prop}
    {ok' : τ → κ → Prop} {R : σ → τ → Prop} (h0 : ∀ s, S.start s → ∃ t, T.Reach ok' t ∧ R s t)
    (hstep : ∀ s i s' os t, S.Reach ok s → R s t → ok s i → S.step s i = some (s', os) →
      ∃ t', T.Leads ok' t t' ∧ R s' t') {s : σ} (h : S.Reach ok s) :
    ∃ t, T.Reach ok' t ∧ R s t := by
  induction h with
  | start h => exact h0 _ h
  | step hs hi hst ih =>
    obtain ⟨t, ht, hR⟩ := ih
    obtain ⟨t', hleads, hR'⟩ := hstep _ _ _ _ t hs hR hi hst
    exact ⟨t', hleads.reach (fun _ _ h => h) ht, hR'⟩

/-! ### History variables -/

/-- The system with a history variable `γ`, started at `g0` and updated from the state before the
step, its input and its outputs. -/
def observe (S : System σ ι ο) (g0 : γ) (upd : γ → σ → ι → List ο → γ) : System (σ × γ) ι ο where
  start p := S.start p.1 ∧ p.2 = g0
  step p i := (S.step p.1 i).map fun r => ((r.1, upd p.2 p.1 i r.2), r.2)

theorem observe_step {g0 : γ} {upd : γ → σ → ι → List ο → γ} {p p' : σ × γ} {i : ι} {os : List ο}
    (h : (S.observe g0 upd).step p i = some (p', os)) :
    S.step p.1 i = some (p'.1, os) ∧ p'.2 = upd p.2 p.1 i os := by
  simp only [observe, Option.map_eq_some_iff, Prod.mk.injEq] at h
  obtain ⟨r, hr, rfl, rfl⟩ := h
  exact ⟨hr, rfl⟩

/-- A run of the observed system is a run of the system. -/
theorem reach_fst_of_observe {g0 : γ} {upd : γ → σ → ι → List ο → γ} {ok : σ → ι → Prop}
    {p : σ × γ} (h : (S.observe g0 upd).Reach (fun p i => ok p.1 i) p) : S.Reach ok p.1 := by
  induction h with
  | start h0 => exact .start h0.1
  | step _ hi hst ih => exact .step ih hi (observe_step hst).1

/-- Every run of the system is observed. -/
theorem exists_observe_of_reach (g0 : γ) (upd : γ → σ → ι → List ο → γ) {ok : σ → ι → Prop}
    {s : σ} (h : S.Reach ok s) :
    ∃ g, (S.observe g0 upd).Reach (fun p i => ok p.1 i) (s, g) := by
  induction h with
  | @start s h0 => exact ⟨g0, .start ⟨h0, rfl⟩⟩
  | @step s s' i os _ hi hst ih =>
    obtain ⟨g, hg⟩ := ih
    have h' : (S.observe g0 upd).step (s, g) i = some ((s', upd g s i os), os) := by
      simp [observe, hst]
    exact ⟨upd g s i os, .step hg hi h'⟩

end System

/-! ### Effects of a list of outputs -/

/-- Outputs without an effect leave the state as it is. -/
theorem foldl_eq_self {ο : Type w} {γ : Type x} {f : γ → ο → γ} {g : γ} {os : List ο}
    (h : ∀ o ∈ os, f g o = g) : os.foldl f g = g := by
  induction os with
  | nil => rfl
  | cons o os ih =>
    rw [List.foldl_cons, h o List.mem_cons_self]
    exact ih fun o' ho => h o' (List.mem_cons_of_mem _ ho)

end ConnectNcpHost.Lib.Runs
