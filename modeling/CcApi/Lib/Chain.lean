/-
Null-terminated chains of links.

The nodes are of any type; `next` gives the link each node holds (`none` is the null pointer). `Segment next p l` says that
following the links from the pointer p visits exactly the nodes of l, in order, and ends at null. `relink` is one pass over
a list that points each node at its successor and leaves the last node's link as it was, which is what a loop does that
brings a chain into step with a list.

- `Segment.unique`: a pointer starts at most one chain.
- `linked_relink`: the pass links every two neighbours.
- `segment_relink_iff`: after the pass the chain from the first node is the list exactly when the last node's link was null.
- `walk_segment`: a bounded walk along a chain that ends within the bound visits the chain.
-/
import Mathlib.Tactic

namespace Lib.Chain

variable {α : Type*}

/-- following next from p visits exactly l and ends at null -/
def Segment (next : α → Option α) : Option α → List α → Prop
  | p, [] => p = none
  | p, a :: l => p = some a ∧ Segment next (next a) l

/-- every node of l but the last points at its successor -/
def Linked (next : α → Option α) : List α → Prop
  | a :: b :: l => next a = some b ∧ Linked next (b :: l)
  | _ => True

@[simp] theorem segment_nil (next : α → Option α) (p : Option α) : Segment next p [] ↔ p = none := Iff.rfl

@[simp] theorem segment_cons (next : α → Option α) (p : Option α) (a : α) (l : List α) :
    Segment next p (a :: l) ↔ p = some a ∧ Segment next (next a) l := Iff.rfl

@[simp] theorem linked_nil (next : α → Option α) : Linked next [] := trivial

@[simp] theorem linked_single (next : α → Option α) (a : α) : Linked next [a] := trivial

@[simp] theorem linked_cons_cons (next : α → Option α) (a b : α) (l : List α) :
    Linked next (a :: b :: l) ↔ next a = some b ∧ Linked next (b :: l) := Iff.rfl

theorem Segment.unique {next : α → Option α} {p : Option α} {l l' : List α} (h : Segment next p l)
    (h' : Segment next p l') : l = l' := by
  induction l generalizing p l' with
  | nil =>
    cases l' with
    | nil => rfl
    | cons b l' => simp_all
  | cons a l ih =>
    cases l' with
    | nil => simp_all
    | cons b l' =>
      obtain ⟨rfl, h⟩ := h
      obtain ⟨hab, h'⟩ := h'
      cases hab
      rw [ih h h']

/-- a chain is a linked list whose last node points at null -/
theorem segment_iff {next : α → Option α} {p : Option α} {l : List α} :
    Segment next p l ↔ p = l.head? ∧ Linked next l ∧ ∀ a ∈ l.getLast?, next a = none := by
  induction l generalizing p with
  | nil => simp
  | cons a l ih =>
    cases l with
    | nil => simp
    | cons b l =>
      rw [segment_cons, ih]
      simp only [List.head?_cons, linked_cons_cons, List.getLast?_cons_cons]
      tauto

/-! ## The pass that brings the links into step with a list -/

variable [DecidableEq α]

/-- each node of l but the last is pointed at its successor -/
def relink : List α → (α → Option α) → α → Option α
  | a :: b :: l, next => relink (b :: l) (Function.update next a (some b))
  | _, next => next

@[simp] theorem relink_nil (next : α → Option α) : relink [] next = next := rfl

@[simp] theorem relink_single (a : α) (next : α → Option α) : relink [a] next = next := rfl

theorem relink_of_not_mem {l : List α} {c : α} (hc : c ∉ l) (next : α → Option α) : relink l next c = next c := by
  induction l generalizing next with
  | nil => rfl
  | cons a l ih =>
    cases l with
    | nil => rfl
    | cons b l =>
      have hca : c ≠ a := fun h => hc (by simp [h])
      rw [relink, ih (fun h => hc (List.mem_cons_of_mem a h)), Function.update_of_ne hca]

/-- the last node keeps its link -/
theorem relink_getLast {l : List α} (hl : l.Nodup) {c : α} (hc : c ∈ l.getLast?) (next : α → Option α) :
    relink l next c = next c := by
  induction l generalizing next with
  | nil => rfl
  | cons a l ih =>
    cases l with
    | nil => rfl
    | cons b l =>
      rw [List.getLast?_cons_cons] at hc
      have hca : c ≠ a := by
        rintro rfl
        exact (List.nodup_cons.1 hl).1 (List.mem_of_mem_getLast? hc)
      rw [relink, ih (List.nodup_cons.1 hl).2 hc, Function.update_of_ne hca]

theorem linked_relink {l : List α} (hl : l.Nodup) (next : α → Option α) : Linked (relink l next) l := by
  induction l generalizing next with
  | nil => trivial
  | cons a l ih =>
    cases l with
    | nil => trivial
    | cons b l =>
      obtain ⟨ha, hl⟩ := List.nodup_cons.1 hl
      refine ⟨?_, ih hl _⟩
      rw [relink, relink_of_not_mem ha, Function.update_self]

/-- **The pass and the chain.** After the pass the links from the first node run through exactly l if and only if the
last node's link was null before. -/
theorem segment_relink_iff {l : List α} (hl : l.Nodup) (next : α → Option α) :
    Segment (relink l next) l.head? l ↔ ∀ a ∈ l.getLast?, next a = none := by
  rw [segment_iff]
  constructor
  · rintro ⟨-, -, h⟩ a ha
    rw [← relink_getLast hl ha next]
    exact h a ha
  · intro h
    refine ⟨rfl, linked_relink hl next, fun a ha => ?_⟩
    rw [relink_getLast hl ha]
    exact h a ha

/-! ## Walking a chain -/

omit [DecidableEq α] in
/-- the nodes a walk of at most fuel steps from p visits -/
def walk (next : α → Option α) : ℕ → Option α → List α
  | 0, _ => []
  | _ + 1, none => []
  | fuel + 1, some a => a :: walk next fuel (next a)

omit [DecidableEq α] in
theorem walk_segment {next : α → Option α} {p : Option α} {l : List α} (h : Segment next p l) {fuel : ℕ}
    (hf : l.length ≤ fuel) : walk next fuel p = l := by
  induction l generalizing p fuel with
  | nil =>
    rw [segment_nil] at h
    cases fuel <;> simp [walk, h]
  | cons a l ih =>
    obtain ⟨rfl, h⟩ := h
    cases fuel with
    | zero => simp at hf
    | succ fuel => rw [walk, ih h (by simpa using hf)]

end Lib.Chain
