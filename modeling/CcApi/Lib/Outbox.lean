/-
Queues of messages that are sent as a whole.

There is one queue for each key. A message joins the end of its queue; a flush sends all that the queues hold; and messages can
be dropped from any place of a queue.

- `Outbox.Exact`: what has been sent and behind it what is held stand among what was added, in the order it was added in, each
  as often; and what is missing was dropped.
- `Outbox.Step.exact`: every step keeps that.
- `Outbox.Exact.all`: where nothing was dropped, what was added has been sent or is held.
-/
import Mathlib.Tactic

namespace Lib

/-- the messages of each key, the one added first in front -/
structure Outbox (κ α : Type*) where
  added : κ → List α
  sent : κ → List α
  held : κ → List α
  dropped : κ → List α

namespace Outbox

variable {κ α : Type*} {b b' : Outbox κ α}

def empty : Outbox κ α := ⟨fun _ => [], fun _ => [], fun _ => [], fun _ => []⟩

inductive Step [DecidableEq κ] : Outbox κ α → Outbox κ α → Prop where
  | rest (b : Outbox κ α) : Step b b
  | add (b : Outbox κ α) (k : κ) (a : α) : Step b
      { b with
        added := Function.update b.added k (b.added k ++ [a])
        held := Function.update b.held k (b.held k ++ [a]) }
  | flush (b : Outbox κ α) : Step b { b with sent := fun k => b.sent k ++ b.held k, held := fun _ => [] }
  | drop (b : Outbox κ α) (kept dropped : κ → List α) (hkept : ∀ k, (kept k).Sublist (b.held k))
      (hgone : ∀ k, (b.held k ++ b.dropped k).Perm (kept k ++ dropped k)) :
      Step b { b with held := kept, dropped := dropped }

structure Exact (b : Outbox κ α) : Prop where
  order : ∀ k, (b.sent k ++ b.held k).Sublist (b.added k)
  complete : ∀ k, (b.added k).Perm (b.sent k ++ b.held k ++ b.dropped k)

theorem exact_empty : (empty : Outbox κ α).Exact := ⟨fun _ => List.Sublist.refl _, fun _ => List.Perm.refl _⟩

theorem Exact.add [DecidableEq κ] (h : b.Exact) (k : κ) (a : α) :
    Exact { b with
      added := Function.update b.added k (b.added k ++ [a])
      held := Function.update b.held k (b.held k ++ [a]) } := by
  refine ⟨fun j => ?_, fun j => ?_⟩
  · by_cases hj : j = k
    · subst hj
      simp only [Function.update_self, ← List.append_assoc]
      exact (h.order j).append (List.Sublist.refl [a])
    · simp only [Function.update_of_ne hj]
      exact h.order j
  · by_cases hj : j = k
    · subst hj
      simp only [Function.update_self]
      calc (b.added j ++ [a]).Perm (b.sent j ++ b.held j ++ b.dropped j ++ [a]) := (h.complete j).append_right [a]
        List.Perm _ (b.sent j ++ (b.held j ++ [a]) ++ b.dropped j) := by
          simp only [List.append_assoc]
          exact (List.perm_append_comm.append_left _).append_left _
    · simp only [Function.update_of_ne hj]
      exact h.complete j

theorem Exact.flush (h : b.Exact) : Exact { b with sent := fun k => b.sent k ++ b.held k, held := fun _ => [] } := by
  refine ⟨fun k => ?_, fun k => ?_⟩
  · simpa using h.order k
  · simpa using h.complete k

theorem Exact.drop (h : b.Exact) {kept dropped : κ → List α} (hkept : ∀ k, (kept k).Sublist (b.held k))
    (hgone : ∀ k, (b.held k ++ b.dropped k).Perm (kept k ++ dropped k)) :
    Exact { b with held := kept, dropped := dropped } := by
  refine ⟨fun k => ((hkept k).append_left _).trans (h.order k), fun k => (h.complete k).trans ?_⟩
  simp only [List.append_assoc]
  exact (hgone k).append_left _

/-- **Step.** -/
theorem Step.exact [DecidableEq κ] (hs : Step b b') (h : b.Exact) : b'.Exact := by
  cases hs with
  | rest => exact h
  | add k a => exact h.add k a
  | flush => exact h.flush
  | drop kept dropped hkept hgone => exact h.drop hkept hgone

/-- where nothing was dropped nothing is missing -/
theorem Exact.all (h : b.Exact) {k : κ} (hk : b.dropped k = []) : b.sent k ++ b.held k = b.added k := by
  apply (h.order k).eq_of_length
  have := (h.complete k).length_eq
  rw [hk, List.append_nil] at this
  exact this.symm

end Outbox

end Lib
