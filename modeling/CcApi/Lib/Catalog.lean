/-
Catalogues: lists of entries that are looked up by a key, newest first.

A catalogue is changed by adding an entry in front and by taking out what has a key. Its history is the list of the changes,
the last one first.

- `contents`: the entries a history leaves, in order.
- `find_contents`: what is found under a key is the entry that was added under it last, unless that has been taken out.
- `seek`: the loop that searches a linked list for the place of its first node of a kind.
- `seek_found`: it ends, at a place that leads to that node, or at the list's end where there is none.
-/
import CcApi.Lib.Splice

namespace Lib.Catalog

/-! ## Histories -/

inductive Event (κ ε : Type*) where
  | added (e : ε)
  | removed (k : κ)
deriving DecidableEq

section
variable {κ ε : Type*} [DecidableEq κ] (key : ε → κ)

/-- the entries that a history leaves -/
def contents : List (Event κ ε) → List ε
  | [] => []
  | .added e :: h => e :: contents h
  | .removed k :: h => (contents h).filter fun e => key e ≠ k

/-- the entry last added under k, unless k has been removed since -/
def latest : List (Event κ ε) → κ → Option ε
  | [], _ => none
  | .added e :: h, k => if key e = k then some e else latest h k
  | .removed k' :: h, k => if k' = k then none else latest h k

variable {key}

theorem find_filter_ne {l : List ε} {k k' : κ} (h : k' ≠ k) :
    (l.filter fun e => key e ≠ k').find? (fun e => key e = k) = l.find? fun e => key e = k := by
  rw [List.find?_filter]
  congr 1
  funext e
  by_cases hk : key e = k <;> simp [hk, h.symm]

/-- **What is found.** -/
theorem find_contents (h : List (Event κ ε)) (k : κ) : (contents key h).find? (fun e => key e = k) = latest key h k := by
  induction h with
  | nil => rfl
  | cons x h ih =>
    cases x with
    | added e => by_cases hk : key e = k <;> simp [contents, latest, hk, ih]
    | removed k' =>
      rw [contents, latest]
      split_ifs with hk
      · subst hk
        simp
      · rw [find_filter_ne hk, ih]

theorem latest_eq_none {h : List (Event κ ε)} {k : κ} : latest key h k = none ↔ ∀ e ∈ contents key h, key e ≠ k := by
  rw [← find_contents, List.find?_eq_none]
  simp

end

/-! ## The search of a linked list -/

section
open Lib.Splice

variable {α : Type*}

/-- the place of the first node that is found, or else the list's last link; fuel is the number of rounds -/
def seek (k : Links α) (found : α → Bool) : ℕ → Place α → Option (Place α)
  | 0, _ => none
  | fuel + 1, p =>
    match k.load p with
    | some a => if found a then some p else seek k found fuel (.next a)
    | none => some p

theorem within_of_behind {l pre : List α} {p : Place α} (h : Behind l p pre) : Within l p := by
  cases p with
  | head => trivial
  | next a =>
    obtain ⟨pre', post, -, rfl⟩ := h
    exact List.mem_append_right _ List.mem_cons_self

theorem seek_behind {k : Links α} {l : List α} (h : k.Lists l) {found : α → Bool} {fuel : ℕ} {p : Place α} {pre : List α}
    (hp : Behind l p pre) (hpre : ∀ a ∈ pre, found a = false) (hfuel : l.length < pre.length + fuel) :
    ∃ q, seek k found fuel p = some q ∧ Within l q ∧ k.load q = l.find? found := by
  induction fuel generalizing p pre with
  | zero =>
    obtain ⟨post, rfl, -⟩ := hp.load h
    rw [List.length_append] at hfuel
    omega
  | succ fuel ih =>
    obtain ⟨post, hl, hload⟩ := hp.load h
    have hnone : pre.find? found = none := List.find?_eq_none.2 fun a ha => by simp [hpre a ha]
    cases post with
    | nil => exact ⟨p, by simp [seek, hload], within_of_behind hp, by rw [hload, hl, List.append_nil, hnone]; rfl⟩
    | cons a post =>
      cases ha : found a with
      | true =>
        refine ⟨p, by simp [seek, hload, ha], within_of_behind hp, ?_⟩
        rw [hload, hl, List.find?_append, hnone, List.find?_cons_of_pos ha]
        rfl
      | false =>
        have hstep : seek k found (fuel + 1) p = seek k found fuel (.next a) := by simp [seek, hload, ha]
        rw [hstep]
        refine ih ⟨pre, post, rfl, hl⟩ (fun b hb => ?_) (by rw [List.length_append, List.length_singleton]; omega)
        rcases List.mem_append.1 hb with hb | hb
        · exact hpre b hb
        · rw [List.mem_singleton.1 hb, ha]

/-- **The search.** -/
theorem seek_found {k : Links α} {l : List α} (h : k.Lists l) (found : α → Bool) {fuel : ℕ} (hfuel : l.length < fuel) :
    ∃ q, seek k found fuel .head = some q ∧ Within l q ∧ k.load q = l.find? found :=
  seek_behind h (show Behind l .head [] from rfl) (by simp) (by simpa using hfuel)

end

end Lib.Catalog
