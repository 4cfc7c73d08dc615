/-
A record that its owner lends to others, who read and write it at times of their own until they give it back.

The owner makes the record and frees it; a borrower touches it. Freeing a freed record, or touching one, is a fault. `Respects`
is the discipline: lend what is live, touch what one holds, free what is live and nobody holds.

- `step_sound`: under the discipline no touch and no free is a fault, and whatever is held is live.
-/
import CcApi.Lib.Runs

namespace Lib.Loan

open Lib.Runs

variable {υ : Type*} [DecidableEq υ]

structure State (υ : Type*) where
  live : Bool
  /-- who holds the record -/
  holders : Finset υ
  faulted : Bool

inductive Op (υ : Type*) where
  | make
  | lend (u : υ)
  | touch (u : υ)
  | giveBack (u : υ)
  | free

def step (l : State υ) : Op υ → State υ
  | .make => { l with live := true }
  | .lend u => { l with holders := insert u l.holders }
  | .touch _ => { l with faulted := l.faulted || !l.live }
  | .giveBack u => { l with holders := l.holders.erase u }
  | .free => { l with live := false, faulted := l.faulted || !l.live }

/-- what is held is live, and nobody has touched a freed record -/
structure Sound (l : State υ) : Prop where
  live : ∀ u ∈ l.holders, l.live = true
  sound : l.faulted = false

/-- the discipline -/
def Respects (l : State υ) : Op υ → Prop
  | .lend _ => l.live = true
  | .touch u => u ∈ l.holders
  | .free => l.live = true ∧ l.holders = ∅
  | _ => True

theorem step_sound (l : State υ) (o : Op υ) (h : Sound l) (ho : Respects l o) : Sound (step l o) := by
  cases o with
  | make => exact ⟨fun _ _ => rfl, h.sound⟩
  | lend u => exact ⟨fun _ _ => ho, h.sound⟩
  | touch u => exact ⟨h.live, by simp [step, h.sound, h.live u ho]⟩
  | giveBack u => exact ⟨fun v hv => h.live v (Finset.mem_of_mem_erase hv), h.sound⟩
  | free =>
    obtain ⟨hlive, hnone⟩ := ho
    refine ⟨fun u hu => ?_, by simp [step, h.sound, hlive]⟩
    simp only [step, hnone, Finset.notMem_empty] at hu

omit [DecidableEq υ] in
/-- what nobody holds need not be live -/
theorem sound_of_unheld {l : State υ} (hnone : l.holders = ∅) (hfault : l.faulted = false) : Sound l := by
  refine ⟨fun u hu => ?_, hfault⟩
  rw [hnone] at hu
  cases hu

end Lib.Loan
