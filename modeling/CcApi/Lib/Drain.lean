/-
A list handed out in pieces, to a reader that asks for a number of elements at a time.

The giver keeps how much it has handed out and how much is left. With each piece it says whether there is more.

- `Streams`: the pieces in order make up the beginning of the list, and each says that there is more exactly while something
  is left.
- `Streams.give`: the next piece, of what is left.
- `Streams.complete`: where a piece says that there is no more, the pieces up to it make up the list.
-/
import Mathlib.Tactic

namespace Lib.Drain

variable {α : Type*}

structure Piece (α : Type*) where
  items : List α
  more : Bool
deriving DecidableEq, Repr

/-- what a list of pieces hands out -/
def handed (pieces : List (Piece α)) : List α := pieces.flatMap Piece.items

@[simp] theorem handed_nil : handed ([] : List (Piece α)) = [] := rfl

@[simp] theorem handed_append (ps qs : List (Piece α)) : handed (ps ++ qs) = handed ps ++ handed qs := by
  simp [handed]

@[simp] theorem handed_singleton (p : Piece α) : handed [p] = p.items := by simp [handed]

/-- the pieces hand out the beginning of whole, and each tells whether something is left -/
structure Streams (whole : List α) (pieces : List (Piece α)) : Prop where
  part : handed pieces <+: whole
  more : ∀ before p behind, pieces = before ++ p :: behind →
    (p.more = true ↔ (handed (before ++ [p])).length < whole.length)

theorem streams_nil (whole : List α) : Streams whole [] :=
  ⟨List.nil_prefix, fun before p behind h => by simp at h⟩

variable {whole : List α} {pieces : List (Piece α)}

theorem Streams.handed_eq (h : Streams whole pieces) : handed pieces = whole.take (handed pieces).length :=
  List.prefix_iff_eq_take.1 h.part

/-- the next m elements, with the news whether that is all -/
theorem Streams.give (h : Streams whole pieces) {m : ℕ} (hm : (handed pieces).length + m ≤ whole.length) {more : Bool}
    (hmore : more = true ↔ (handed pieces).length + m < whole.length) :
    Streams whole (pieces ++ [⟨(whole.drop (handed pieces).length).take m, more⟩]) := by
  have hpiece : ((whole.drop (handed pieces).length).take m).length = m := by
    rw [List.length_take, List.length_drop]
    omega
  constructor
  case part =>
    have hnext : handed pieces ++ (whole.drop (handed pieces).length).take m =
        whole.take ((handed pieces).length + m) := by
      rw [List.take_add, ← h.handed_eq]
    rw [handed_append, handed_singleton, hnext]
    exact List.take_prefix _ _
  case more =>
    intro before p behind heq
    rcases List.eq_nil_or_concat behind with rfl | ⟨behind', q, rfl⟩
    · obtain ⟨rfl, hp⟩ := List.append_inj' heq rfl
      obtain rfl := (List.cons.inj hp).1
      rw [hmore, handed_append, handed_singleton, List.length_append, hpiece]
    · refine h.more before p behind' ?_
      have hsplit : pieces ++ [⟨(whole.drop (handed pieces).length).take m, more⟩] = (before ++ p :: behind') ++ [q] := by
        rw [heq]
        simp
      exact (List.append_inj' hsplit rfl).1

/-- where a piece says that there is no more, the pieces up to it make up the list -/
theorem Streams.complete {before behind : List (Piece α)} {p : Piece α}
    (h : Streams whole (before ++ p :: behind)) (hp : p.more = false) : handed (before ++ [p]) = whole := by
  have hnot := (h.more before p behind rfl).not.1 (by simp [hp])
  have hpart : handed (before ++ [p]) <+: whole := by
    refine List.IsPrefix.trans ?_ h.part
    have hsplit : before ++ p :: behind = (before ++ [p]) ++ behind := by simp
    rw [hsplit, handed_append (before ++ [p])]
    exact List.prefix_append _ _
  exact hpart.eq_of_length_le (not_lt.1 hnot)

end Lib.Drain
