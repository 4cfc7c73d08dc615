/-
Blocks in the custody of places.

A block is named by the number of its allocation. Each place (a field of some record) holds one block at most. A step empties
some places, releasing what they held, and takes new blocks into others; or it forgets a block.

- `Custody`: every block that is held is live and in one place, and nothing has been released twice.
- `Custody.step`: the steps that keep that; `Custody.step_at`: the same where places are the fields of many records, for a step
  that changes one of the records.
- `Custody.count_released`, `Custody.not_released`: what is released has been released once, what is held elsewhere not at all.
-/
import Mathlib.Tactic

namespace Lib

variable {κ : Type*}

structure Custody (next : ℕ) (frees : List ℕ) (held : κ → Option ℕ) : Prop where
  known : ∀ b ∈ frees, b < next
  once : frees.Nodup
  live : ∀ k b, held k = some b → b < next ∧ b ∉ frees
  apart : ∀ k k' b, held k = some b → held k' = some b → k = k'

namespace Custody

variable {next next' : ℕ} {frees : List ℕ} {held held' : κ → Option ℕ} {places : List κ}

theorem released_held (h : Custody next frees held) {b : ℕ} (hb : b ∈ places.filterMap held) : b < next ∧ b ∉ frees := by
  obtain ⟨k, -, hk⟩ := List.mem_filterMap.1 hb
  exact h.live k b hk

/-- the releases stay sound -/
theorem nodup_released (h : Custody next frees held) (hplaces : places.Nodup) : (frees ++ places.filterMap held).Nodup := by
  rw [List.nodup_append]
  refine ⟨h.once, hplaces.filterMap fun k k' b hk hk' => h.apart k k' b hk hk', fun b hb c hc => ?_⟩
  rintro rfl
  exact (h.released_held hc).2 hb

/-- **Step.** -/
theorem step (h : Custody next frees held) (hnext : next ≤ next') (hplaces : places.Nodup)
    (hout : ∀ k ∈ places, ∀ b, held k = some b → held' k ≠ some b)
    (hold : ∀ k b, held' k = some b → held k = some b ∨ next ≤ b ∧ b < next')
    (hnew : ∀ k k' b, next ≤ b → held' k = some b → held' k' = some b → k = k') :
    Custody next' (frees ++ places.filterMap held) held' := by
  refine ⟨fun b hb => ?_, h.nodup_released hplaces, fun k b hk => ?_, fun k k' b hk hk' => ?_⟩
  case refine_1 =>
    rcases List.mem_append.1 hb with hb | hb
    · exact (h.known b hb).trans_le hnext
    · exact (h.released_held hb).1.trans_le hnext
  case refine_2 =>
    rcases hold k b hk with hk' | ⟨hle, hlt⟩
    · obtain ⟨hlt, hfrees⟩ := h.live k b hk'
      refine ⟨hlt.trans_le hnext, fun hmem => ?_⟩
      rcases List.mem_append.1 hmem with hmem | hmem
      · exact hfrees hmem
      · obtain ⟨k', hin, hk''⟩ := List.mem_filterMap.1 hmem
        obtain rfl := h.apart k k' b hk' hk''
        exact hout k hin b hk' hk
    · refine ⟨hlt, fun hmem => ?_⟩
      rcases List.mem_append.1 hmem with hmem | hmem
      · exact absurd (h.known b hmem) (not_lt.2 hle)
      · exact absurd (h.released_held hmem).1 (not_lt.2 hle)
  case refine_3 =>
    rcases hold k b hk with hk₁ | ⟨hle, -⟩
    · rcases hold k' b hk' with hk₂ | ⟨hle, -⟩
      · exact h.apart k k' b hk₁ hk₂
      · exact absurd (h.live k b hk₁).1 (not_lt.2 hle)
    · exact hnew k k' b hle hk hk'

/-- **Step of one record.** The places are the fields p of the records c; a step releases what some fields of one record hold. -/
theorem step_at {σ π : Type*} {held held' : σ × π → Option ℕ} {places : List π} (h : Custody next frees held) (c : σ)
    (hnext : next ≤ next') (hplaces : places.Nodup) (hothers : ∀ k, k.1 ≠ c → held' k = held k)
    (hout : ∀ p ∈ places, ∀ b, held (c, p) = some b → held' (c, p) ≠ some b)
    (hold : ∀ p b, held' (c, p) = some b → held (c, p) = some b ∨ next ≤ b ∧ b < next')
    (hnew : ∀ p p' b, next ≤ b → held' (c, p) = some b → held' (c, p') = some b → p = p') :
    Custody next' (frees ++ places.filterMap fun p => held (c, p)) held' := by
  have hmap : (places.map fun p => (c, p)).filterMap held = places.filterMap fun p => held (c, p) := by
    rw [List.filterMap_map]
    rfl
  rw [← hmap]
  refine h.step hnext (hplaces.map (Prod.mk_right_injective c)) (fun k hk b hb => ?_) (fun k b hb => ?_)
    fun k k' b hle hk hk' => ?_
  · obtain ⟨p, hp, rfl⟩ := List.mem_map.1 hk
    exact hout p hp b hb
  · by_cases hkc : k.1 = c
    · obtain ⟨c', p⟩ := k
      obtain rfl : c' = c := hkc
      exact hold p b hb
    · exact .inl (hothers k hkc ▸ hb)
  · -- a new block is in the record that the step changes
    have hself (k : σ × π) (hk : held' k = some b) : k.1 = c := by
      by_contra hne
      rw [hothers k hne] at hk
      exact absurd (h.live k b hk).1 (not_lt.2 hle)
    obtain ⟨c₁, p⟩ := k
    obtain ⟨c₂, p'⟩ := k'
    obtain rfl : c₁ = c := hself _ hk
    obtain rfl : c₂ = c₁ := hself _ hk'
    rw [hnew p p' b hle hk hk']

/-- what is released has been released once -/
theorem count_released (h : Custody next frees held) (hplaces : places.Nodup) {k : κ} (hk : k ∈ places) {b : ℕ}
    (hb : held k = some b) : (frees ++ places.filterMap held).count b = 1 :=
  List.count_eq_one_of_mem (h.nodup_released hplaces) (List.mem_append_right _ (List.mem_filterMap.2 ⟨k, hk, hb⟩))

/-- what another place holds has not been released -/
theorem not_released (h : Custody next frees held) {k : κ} (hk : k ∉ places) {b : ℕ} (hb : held k = some b) :
    b ∉ frees ++ places.filterMap held := by
  intro hmem
  rcases List.mem_append.1 hmem with hmem | hmem
  · exact (h.live k b hb).2 hmem
  · obtain ⟨k', hin, hk'⟩ := List.mem_filterMap.1 hmem
    exact hk (h.apart k k' b hb hk' ▸ hin)

end Custody

end Lib
