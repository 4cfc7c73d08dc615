/-
A ring of slots used as a bounded FIFO queue.

The ring has N = n + 1 slots, so it is never empty. `next` is the increment that wraps to 0 at N; `slot t j` is the
slot j places after t. `Holds occ t q` says that the slots, read from the tail t on, hold exactly the queue q and the
rest are unoccupied.

- `holds_head`: the slot after the last element is free iff the queue is not full.
- `holds_push`, `holds_pop`: filling that slot appends, clearing the tail slot removes the oldest element.
- `holds_tail`: the tail slot holds the oldest element.
-/
import Mathlib.Tactic

namespace Lib.Ring

variable {n : ℕ} {α : Type*}

/-- a ring has a first slot -/
instance (priority := 2000) neZero_size (n : ℕ) : NeZero (n + 1) := ⟨n.succ_ne_zero⟩

/-- the slot after i: i + 1, wrapped to 0 at the end of the ring -/
def next (i : Fin (n + 1)) : Fin (n + 1) :=
  if h : i.val + 1 < n + 1 then ⟨i.val + 1, h⟩ else 0

/-- the slot j places after t -/
def slot (t : Fin (n + 1)) (j : ℕ) : Fin (n + 1) := ⟨(t.val + j) % (n + 1), Nat.mod_lt _ n.succ_pos⟩

@[simp] theorem slot_zero (t : Fin (n + 1)) : slot t 0 = t := by
  apply Fin.ext
  simp [slot, Nat.mod_eq_of_lt t.isLt]

theorem next_eq_slot (t : Fin (n + 1)) : next t = slot t 1 := by
  apply Fin.ext
  unfold next slot
  split_ifs with h
  · simp [Nat.mod_eq_of_lt h]
  · have : t.val + 1 = n + 1 := by omega
    simp [this]

theorem slot_add (t : Fin (n + 1)) (i j : ℕ) : slot (slot t i) j = slot t (i + j) := by
  apply Fin.ext
  simp [slot, Nat.add_assoc]

theorem slot_next (t : Fin (n + 1)) (j : ℕ) : slot (next t) j = slot t (j + 1) := by
  rw [next_eq_slot, slot_add, Nat.add_comm 1 j]

theorem next_slot (t : Fin (n + 1)) (j : ℕ) : next (slot t j) = slot t (j + 1) := by
  rw [next_eq_slot, slot_add]

@[simp] theorem slot_size (t : Fin (n + 1)) : slot t (n + 1) = t := by
  apply Fin.ext
  simp [slot, Nat.mod_eq_of_lt t.isLt]

theorem slot_inj {t : Fin (n + 1)} {i j : ℕ} (hi : i < n + 1) (hj : j < n + 1) : slot t i = slot t j ↔ i = j := by
  refine ⟨fun h => ?_, fun h => by rw [h]⟩
  have hmod : (t.val + i) ≡ (t.val + j) [MOD n + 1] := Fin.ext_iff.1 h
  have := Nat.ModEq.add_left_cancel' _ hmod
  rwa [Nat.ModEq, Nat.mod_eq_of_lt hi, Nat.mod_eq_of_lt hj] at this

/-- every slot is some number of places after t -/
theorem slot_surj (t i : Fin (n + 1)) : ∃ j < n + 1, slot t j = i := by
  refine ⟨(i.val + (n + 1 - t.val)) % (n + 1), Nat.mod_lt _ n.succ_pos, Fin.ext ?_⟩
  have h1 := t.isLt
  have h2 : t.val + (i.val + (n + 1 - t.val)) = i.val + (n + 1) := by omega
  simp [slot, h2, Nat.mod_eq_of_lt i.isLt]

/-! ## The queue a ring holds -/

/-- read from tail t, the occupied slots are exactly the elements of q, oldest first -/
structure Holds (occ : Fin (n + 1) → Option α) (t : Fin (n + 1)) (q : List α) : Prop where
  le : q.length ≤ n + 1
  get : ∀ j < n + 1, occ (slot t j) = q[j]?

theorem holds_empty (occ : Fin (n + 1) → Option α) (t : Fin (n + 1)) (h : ∀ i, occ i = none) : Holds occ t [] :=
  ⟨by simp, fun j _ => by simp [h]⟩

theorem holds_nil_iff {occ : Fin (n + 1) → Option α} {t : Fin (n + 1)} {q : List α} (h : Holds occ t q) :
    q = [] ↔ ∀ i, occ i = none := by
  constructor
  · rintro rfl i
    obtain ⟨j, hj, rfl⟩ := slot_surj t i
    simpa using h.get j hj
  · intro hn
    have h0 := h.get 0 n.succ_pos
    rw [hn] at h0
    cases q with
    | nil => rfl
    | cons x q => simp at h0

theorem holds_tail {occ : Fin (n + 1) → Option α} {t : Fin (n + 1)} {x : α} {q : List α}
    (h : Holds occ t (x :: q)) : occ t = some x := by
  have := h.get 0 n.succ_pos
  simpa using this

/-- the slot after the last element is free iff the queue is not full -/
theorem holds_head {occ : Fin (n + 1) → Option α} {t : Fin (n + 1)} {q : List α} (h : Holds occ t q) :
    occ (slot t q.length) = none ↔ q.length < n + 1 := by
  rcases Nat.lt_or_ge q.length (n + 1) with hl | hl
  · simp [h.get _ hl, hl]
  · have hq : q.length = n + 1 := le_antisymm h.le hl
    cases q with
    | nil => simp at hq
    | cons x q => rw [hq, slot_size, holds_tail h]; simp

theorem holds_push {occ : Fin (n + 1) → Option α} {t : Fin (n + 1)} {q : List α} (h : Holds occ t q)
    (hl : q.length < n + 1) (x : α) : Holds (Function.update occ (slot t q.length) (some x)) t (q ++ [x]) := by
  refine ⟨by simp; omega, fun j hj => ?_⟩
  by_cases hjq : j = q.length
  · subst hjq; simp
  · have hne : slot t j ≠ slot t q.length := fun e => hjq ((slot_inj hj hl).1 e)
    rw [Function.update_of_ne hne, h.get j hj, List.getElem?_append]
    split_ifs with hlt
    · rfl
    · rw [List.getElem?_eq_none (by omega), List.getElem?_eq_none (by simp; omega)]

theorem holds_pop {occ : Fin (n + 1) → Option α} {t : Fin (n + 1)} {x : α} {q : List α} (h : Holds occ t (x :: q)) :
    Holds (Function.update occ t none) (next t) q := by
  have hle := h.le
  simp only [List.length_cons] at hle
  refine ⟨by omega, fun j hj => ?_⟩
  rw [slot_next]
  rcases Nat.lt_or_ge (j + 1) (n + 1) with hl | hl
  · have hne : slot t (j + 1) ≠ t := by
      intro e
      rw [← slot_zero t, slot_add, Nat.zero_add] at e
      exact absurd ((slot_inj hl n.succ_pos).1 e) (by omega)
    rw [Function.update_of_ne hne, h.get _ hl, List.getElem?_cons_succ]
  · have hj' : j + 1 = n + 1 := by omega
    rw [hj', slot_size, Function.update_self, List.getElem?_eq_none (by omega)]

/-- slots that agree with occ hold the same queue -/
theorem holds_congr {occ occ' : Fin (n + 1) → Option α} {t : Fin (n + 1)} {q : List α} (h : Holds occ t q)
    (he : ∀ i, occ' i = occ i) : Holds occ' t q :=
  ⟨h.le, fun j hj => by rw [he, h.get j hj]⟩

end Lib.Ring
