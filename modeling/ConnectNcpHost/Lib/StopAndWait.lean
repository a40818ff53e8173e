import Mathlib.Tactic.Basic
import Mathlib.Data.List.Basic
import Mathlib.Order.Basic

/-! # Stop-and-wait transfers

The events of a transfer whose frames carry an index, newest first. `next k n` says that `n` is the
index after `k`. In a stop-and-wait transfer a frame carries the index the transfer was opened at,
or that of the frame sent last, or the next one if the last one was acknowledged since
(`MayFollow`); a transfer whose frames all do is `InOrder`, and never goes backwards
(`InOrder.pairwise_ge`). -/

namespace ConnectNcpHost.Lib.StopAndWait

universe u

/-- An event of a transfer. -/
inductive Event (α : Type u)
  | opened (k : α)
  | sent (n : α)
  | acknowledged (k : α)
  deriving DecidableEq

variable {α : Type u}

/-- The index a frame was sent with. -/
def Event.sent? : Event α → Option α
  | .sent n => some n
  | _ => none

/-- The index the transfer was opened at. -/
def Event.opened? : Event α → Option α
  | .opened k => some k
  | _ => none

/-- The indices of the frames sent. -/
def sentIndices (es : List (Event α)) : List α := es.filterMap Event.sent?

/-- The index `k` was acknowledged after the last frame was sent. -/
def AcknowledgedSince (k : α) : List (Event α) → Prop
  | .acknowledged k' :: es => k' = k ∨ AcknowledgedSince k es
  | .opened _ :: es => AcknowledgedSince k es
  | .sent _ :: _ => False
  | [] => False

/-- The index `n` may be sent after the events `es`. -/
inductive MayFollow (next : α → α → Prop) (es : List (Event α)) (n : α) : Prop
  | first (hs : sentIndices es = []) (ho : (es.filterMap Event.opened?).head? = some n)
  | again (hs : (sentIndices es).head? = some n)
  | advance {k : α} (hs : (sentIndices es).head? = some k) (ha : AcknowledgedSince k es)
      (hn : next k n)

/-- **Every frame sent was allowed to follow.** -/
inductive InOrder (next : α → α → Prop) : List (Event α) → Prop
  | nil : InOrder next []
  | opened {k : α} {es : List (Event α)} (h : InOrder next es) : InOrder next (.opened k :: es)
  | acknowledged {k : α} {es : List (Event α)} (h : InOrder next es) :
      InOrder next (.acknowledged k :: es)
  | sent {n : α} {es : List (Event α)} (h : InOrder next es) (hn : MayFollow next es n) :
      InOrder next (.sent n :: es)

@[simp] theorem sentIndices_nil : sentIndices ([] : List (Event α)) = [] := rfl

@[simp] theorem sentIndices_sent (n : α) (es : List (Event α)) :
    sentIndices (.sent n :: es) = n :: sentIndices es := rfl

@[simp] theorem sentIndices_opened (k : α) (es : List (Event α)) :
    sentIndices (.opened k :: es) = sentIndices es := rfl

@[simp] theorem sentIndices_acknowledged (k : α) (es : List (Event α)) :
    sentIndices (.acknowledged k :: es) = sentIndices es := rfl

variable {next : α → α → Prop} {es : List (Event α)} {k n : α}

/-- Right after the opening. -/
theorem MayFollow.of_opened (h : sentIndices es = []) : MayFollow next (.opened k :: es) k :=
  .first h rfl

/-- Right after the acknowledgement of the frame sent last. -/
theorem MayFollow.of_acknowledged (h : (sentIndices es).head? = some k) (hn : next k n) :
    MayFollow next (.acknowledged k :: es) n :=
  .advance h (.inl rfl) hn

/-- Once a frame was sent, nothing but its index and the next one may follow. -/
theorem MayFollow.eq_or_next (h : MayFollow next es n) (hs : (sentIndices es).head? = some k) :
    n = k ∨ next k n := by
  cases h with
  | first h0 _ =>
    rw [h0] at hs
    cases hs
  | again h0 => exact .inl (Option.some.inj (h0.symm.trans hs))
  | advance h0 _ hn =>
    obtain rfl := Option.some.inj (h0.symm.trans hs)
    exact .inr hn

/-- **A transfer in order never goes backwards.** -/
theorem InOrder.pairwise_ge [Preorder α] (hnext : ∀ k n, next k n → k ≤ n)
    (h : InOrder next es) : (sentIndices es).Pairwise (· ≥ ·) := by
  induction h with
  | nil => exact .nil
  | opened _ ih => exact ih
  | acknowledged _ ih => exact ih
  | @sent n es _ hn ih =>
    rw [sentIndices_sent, List.pairwise_cons]
    refine ⟨fun k hk => ?_, ih⟩
    rcases he : sentIndices es with _ | ⟨l, ls⟩
    · rw [he] at hk
      cases hk
    · have hl : l ≤ n := by
        rcases hn.eq_or_next (congrArg List.head? he) with rfl | hn
        · exact le_rfl
        · exact hnext l n hn
      rw [he] at hk ih
      rcases List.mem_cons.mp hk with rfl | hk
      · exact hl
      · exact le_trans (List.rel_of_pairwise_cons ih hk) hl

end ConnectNcpHost.Lib.StopAndWait
