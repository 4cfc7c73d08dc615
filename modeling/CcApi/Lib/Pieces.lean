/-
Cutting a string of known total length into pieces of length c, the last one possibly shorter.

Piece k starts at k * c and has `size c total k` elements. The pieces are consecutive (`sum_size`, `flatten_pieces`),
full except possibly the last (`size_eq`).
-/
import Mathlib.Tactic

namespace Lib.Pieces

variable {α : Type*} (c total : ℕ)

/-- the length of piece k -/
def size (k : ℕ) : ℕ := min c (total - k * c)

/-- piece k of a string -/
def piece (l : List α) (k : ℕ) : List α := (l.drop (k * c)).take (size c total k)

variable {c total}

theorem min_add_size (k : ℕ) : min (k * c) total + size c total k = min ((k + 1) * c) total := by
  unfold size
  rw [Nat.add_mul, Nat.one_mul]
  omega

/-- the pieces before k end where piece k starts -/
theorem sum_size (k : ℕ) : ((List.range k).map (size c total)).sum = min (k * c) total := by
  induction k with
  | zero => simp
  | succ k ih => rw [List.range_succ, List.map_append, List.sum_append, ih, ← min_add_size]; simp

/-- the first k pieces, put together, are the first `min (k * c) total` elements -/
theorem flatten_pieces (l : List α) (k : ℕ) :
    ((List.range k).map (piece c total l)).flatten = l.take (min (k * c) total) := by
  induction k with
  | zero => simp
  | succ k ih =>
    rw [List.range_succ, List.map_append, List.flatten_append, ih, ← min_add_size, List.take_add]
    simp only [List.map_cons, List.map_nil, List.flatten_cons, List.flatten_nil, List.append_nil, piece]
    rcases Nat.le_total (k * c) total with h | h
    · rw [Nat.min_eq_left h]
    · have : size c total k = 0 := by unfold size; omega
      simp [this]

theorem size_pos {k : ℕ} (hc : 0 < c) (hk : k * c < total) : 0 < size c total k := by
  unfold size; omega

theorem end_le_total {k : ℕ} (hk : k * c ≤ total) : k * c + size c total k ≤ total := by
  unfold size; omega

/-- a piece that does not end at the total length is full -/
theorem size_eq {k : ℕ} (hk : k * c ≤ total) (h : k * c + size c total k ≠ total) : size c total k = c := by
  unfold size at *; omega

theorem length_piece {l : List α} {k : ℕ} (h : k * c + size c total k ≤ l.length) :
    (piece c total l k).length = size c total k := by
  unfold piece
  rw [List.length_take, List.length_drop]
  omega

/-- a piece does not depend on what follows it -/
theorem piece_append {l : List α} {k : ℕ} (h : k * c + size c total k ≤ l.length) (l' : List α) :
    piece c total (l ++ l') k = piece c total l k := by
  unfold piece
  rw [List.drop_append_of_le_length (by omega), List.take_append_of_le_length (by rw [List.length_drop]; omega)]

/-- reading a piece element by element -/
theorem map_range_eq_piece {l : List α} {k : ℕ} {f : ℕ → α}
    (h : ∀ i < size c total k, some (f i) = l[k * c + i]?) : (List.range (size c total k)).map f = piece c total l k := by
  apply List.ext_getElem?
  intro i
  unfold piece
  rw [List.getElem?_map, List.getElem?_take, List.getElem?_drop]
  split_ifs with hi
  · rw [List.getElem?_range hi, Option.map_some, h i hi]
  · rw [List.getElem?_eq_none (by simpa using hi), Option.map_none]

end Lib.Pieces
