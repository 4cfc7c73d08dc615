/-
A list's length told ahead of the pieces.

A giver that has handed out nothing yet tells how much there is to come. The list may still change: at the first request the
giver may make one up, in place of one that is empty.

- `Announces`: what each step does to the list and to the pieces.
- `Announces.settled`: once no list is to be made up, the list stays as it is.
- `Announces.length_iff`: what is handed out in all is as much as was told, exactly where no list is made up.
-/
import CcApi.Lib.Drain
import CcApi.Lib.Runs

namespace Lib.Drain

open Lib.Runs

variable {σ ω α : Type*} {step : σ → ω → σ}

structure Giver (σ ω α : Type*) where
  whole : σ → List α
  given : σ → List (Piece α)
  /-- the next request makes the list up -/
  makes : σ → Prop
  gone : σ → Prop
  /-- a request, with the news whether the list can be made up -/
  asks : ω → Option Bool

/-- the giver in a system that keeps I under D -/
structure Announces (step : σ → ω → σ) (g : Giver σ ω α) (I : σ → Prop) (D : σ → ω → Prop) : Prop where
  keeps : ∀ s o, I s → D s o → I (step s o)
  streams : ∀ s, I s → Streams (g.whole s) (g.given s)
  empty : ∀ s, I s → g.makes s → g.whole s = []
  gone : ∀ s o, I s → D s o → g.gone s →
    g.gone (step s o) ∧ g.whole (step s o) = g.whole s ∧ g.given (step s o) = g.given s
  quiet : ∀ s o, I s → D s o → g.asks o = none →
    (g.gone (step s o) ∨ (g.makes (step s o) ↔ g.makes s)) ∧ g.whole (step s o) = g.whole s ∧ g.given (step s o) = g.given s
  first : ∀ s o ok, I s → D s o → g.asks o = some ok → g.makes s →
    (g.gone (step s o) ∧ g.given (step s o) = g.given s) ∨
      ¬ g.makes (step s o) ∧ if ok then g.whole (step s o) ≠ [] else g.whole (step s o) = g.whole s
  later : ∀ s o ok, I s → D s o → g.asks o = some ok → ¬ g.makes s → ¬ g.makes (step s o) ∧ g.whole (step s o) = g.whole s

/-- the pieces up to one that says that there is no more make up the list -/
theorem Streams.handed_whole {whole : List α} {pieces : List (Piece α)} (h : Streams whole pieces)
    (hdone : ∃ p ∈ pieces, p.more = false) : handed pieces = whole := by
  obtain ⟨p, hp, hmore⟩ := hdone
  obtain ⟨before, behind, rfl⟩ := List.append_of_mem hp
  refine h.part.eq_of_length_le ?_
  rw [← h.complete hmore]
  simp [handed]

variable {g : Giver σ ω α} {I : σ → Prop} {D : σ → ω → Prop} (h : Announces step g I D)
include h

/-- a giver that is gone gives nothing more -/
theorem Announces.run_gone {s : σ} (hs : I s) (hgone : g.gone s) {ops : List ω} (hD : Along step D s ops) :
    g.given (run step s ops) = g.given s := by
  induction ops generalizing s with
  | nil => rfl
  | cons o ops ih =>
    obtain ⟨hgone', -, hsame⟩ := h.gone s o hs hD.1 hgone
    rw [run_cons, ih (h.keeps s o hs hD.1) hgone' hD.2, hsame]

/-- once no list is to be made up, the list stays as it is -/
theorem Announces.settled {s : σ} (hs : I s) (hnot : g.gone s ∨ ¬ g.makes s) {ops : List ω} (hD : Along step D s ops) :
    g.whole (run step s ops) = g.whole s := by
  induction ops generalizing s with
  | nil => rfl
  | cons o ops ih =>
    have hstep : (g.gone (step s o) ∨ ¬ g.makes (step s o)) ∧ g.whole (step s o) = g.whole s := by
      rcases hnot with hgone | hnot
      · obtain ⟨hgone', hsame, -⟩ := h.gone s o hs hD.1 hgone
        exact ⟨.inl hgone', hsame⟩
      · cases ha : g.asks o with
        | none =>
          obtain ⟨hmakes, hsame, -⟩ := h.quiet s o hs hD.1 ha
          exact ⟨hmakes.imp_right fun hiff => hiff.not.2 hnot, hsame⟩
        | some ok =>
          obtain ⟨hnot', hsame⟩ := h.later s o ok hs hD.1 ha hnot
          exact ⟨.inr hnot', hsame⟩
    rw [run_cons, ih (h.keeps s o hs hD.1) hstep.1 hD.2, hstep.2]

/-- **Announced length.** Nothing has been handed out. What is in the end is as much as there is now, unless the first request
makes a list up. -/
theorem Announces.length_iff {s : σ} (hs : I s) (hnone : g.given s = []) {ops : List ω} (hD : Along step D s ops)
    (hdone : ∃ p ∈ g.given (run step s ops), p.more = false) :
    (handed (g.given (run step s ops))).length = (g.whole s).length ↔
      ¬ (g.makes s ∧ (ops.filterMap g.asks).head? = some true) := by
  have hall := (h.streams _ (run_inv h.keeps hs hD)).handed_whole hdone
  by_cases hmakes : g.makes s
  case neg =>
    rw [hall, h.settled hs (.inr hmakes) hD]
    exact iff_of_true rfl fun hno => hmakes hno.1
  induction ops generalizing s with
  | nil =>
    obtain ⟨p, hp, -⟩ := hdone
    rw [run_nil, hnone] at hp
    cases hp
  | cons o ops ih =>
    have hnext := h.keeps s o hs hD.1
    have hempty := h.empty s hs hmakes
    -- somebody who is gone would have given nothing
    have hstays (hgone : g.gone (step s o)) (hgiven : g.given (step s o) = g.given s) : False := by
      obtain ⟨p, hp, -⟩ := hdone
      rw [run_cons, h.run_gone hnext hgone hD.2, hgiven, hnone] at hp
      cases hp
    cases ha : g.asks o with
    | none =>
      obtain ⟨hor, hwhole, hgiven⟩ := h.quiet s o hs hD.1 ha
      rcases hor with hgone | hiff
      · exact (hstays hgone hgiven).elim
      · have hih := ih hnext (hgiven.trans hnone) hD.2 hdone hall (hiff.2 hmakes)
        rw [hwhole, hiff] at hih
        rwa [run_cons, List.filterMap_cons_none ha]
    | some ok =>
      rw [List.filterMap_cons_some ha, List.head?_cons, Option.some.injEq]
      rcases h.first s o ok hs hD.1 ha hmakes with ⟨hgone, hgiven⟩ | ⟨hnot, hwhole⟩
      · exact (hstays hgone hgiven).elim
      · have hsettled := h.settled hnext (.inr hnot) hD.2
        rw [hall, run_cons, hsettled, hempty, List.length_nil, List.length_eq_zero_iff]
        cases ok with
        | true => exact iff_of_false hwhole fun hno => hno ⟨hmakes, rfl⟩
        | false => exact iff_of_true (hwhole.trans hempty) fun hno => by cases hno.2

end Lib.Drain
