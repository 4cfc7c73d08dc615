/-
Runs of a deterministic step function under an arbitrary schedule.

A system is a state type σ, an operation type ω and a total `step`. All its interleavings are the lists of operations;
an operation that is not enabled leaves the state alone. `run` applies a list, `Along` says that a condition holds at
every operation of a list in the state it is applied to, and `steps` lists them with these states.

- `run_inv`: what one step keeps under a condition, a run that meets the condition keeps.
- `along_take`, `run_inv_take`: the same at every prefix of the run.
- `along_iff`, `along_iff_under`: a property holds throughout a run exactly when the run meets a condition.
- `along_iff_doomed`: the same where a step that breaks the condition is only later seen to break the property.
- `along_or_harmed`: the same for the state at the end of the run.
- `run_writes`: a field that steps write holds what the run has last written.
- `along_past`: a condition on the states of a run as one on the operations so far.
- `step_abs`: a system whose steps are runs of an abstract system keeps the abstract system's invariants.
-/
import Mathlib.Tactic

namespace Lib.Runs

variable {σ ω τ ν α : Type*} (step : σ → ω → σ)

/-- the state reached from s by the operations in order -/
def run (s : σ) (ops : List ω) : σ := ops.foldl step s

/-- every operation meets C in the state it is applied to -/
def Along (C : σ → ω → Prop) : σ → List ω → Prop
  | _, [] => True
  | s, o :: ops => C s o ∧ Along C (step s o) ops

/-- the steps of a run: each operation with the state it is applied to -/
def steps : σ → List ω → List (σ × ω)
  | _, [] => []
  | s, o :: ops => (s, o) :: steps (step s o) ops

/-- a condition that can be tested at each operation can be tested along a run -/
instance decidableAlong (C : σ → ω → Prop) [∀ s o, Decidable (C s o)] :
    ∀ (s : σ) (ops : List ω), Decidable (Along step C s ops)
  | _, [] => inferInstanceAs (Decidable True)
  | s, o :: ops =>
    have := decidableAlong C (step s o) ops
    inferInstanceAs (Decidable (C s o ∧ Along step C (step s o) ops))

variable {step}

@[simp] theorem run_nil (s : σ) : run step s [] = s := rfl

@[simp] theorem run_cons (s : σ) (o : ω) (ops : List ω) : run step s (o :: ops) = run step (step s o) ops := rfl

@[simp] theorem run_append (s : σ) (a b : List ω) : run step s (a ++ b) = run step (run step s a) b := by
  simp [run, List.foldl_append]

@[simp] theorem along_nil (C : σ → ω → Prop) (s : σ) : Along step C s [] := trivial

@[simp] theorem along_cons (C : σ → ω → Prop) (s : σ) (o : ω) (ops : List ω) :
    Along step C s (o :: ops) ↔ C s o ∧ Along step C (step s o) ops := Iff.rfl

/-- a condition on the operations alone -/
theorem along_of_forall {C : ω → Prop} {ops : List ω} (h : ∀ o ∈ ops, C o) (s : σ) : Along step (fun _ o => C o) s ops := by
  induction ops generalizing s with
  | nil => trivial
  | cons o ops ih => exact ⟨h o List.mem_cons_self, ih (fun o' ho' => h o' (List.mem_cons_of_mem o ho')) (step s o)⟩

@[simp] theorem steps_nil (s : σ) : steps step s [] = [] := rfl

@[simp] theorem steps_cons (s : σ) (o : ω) (ops : List ω) :
    steps step s (o :: ops) = (s, o) :: steps step (step s o) ops := rfl

theorem along_append (C : σ → ω → Prop) (s : σ) (a b : List ω) :
    Along step C s (a ++ b) ↔ Along step C s a ∧ Along step C (run step s a) b := by
  induction a generalizing s with
  | nil => simp
  | cons o a ih => simp [ih, and_assoc]

theorem along_take {C : σ → ω → Prop} {s : σ} {ops : List ω} (h : Along step C s ops) (k : ℕ) :
    Along step C s (ops.take k) := by
  rw [← List.take_append_drop k ops, along_append] at h
  exact h.1

theorem along_and {C D : σ → ω → Prop} {s : σ} {ops : List ω} :
    Along step (fun s o => C s o ∧ D s o) s ops ↔ Along step C s ops ∧ Along step D s ops := by
  induction ops generalizing s with
  | nil => simp
  | cons o ops ih =>
    simp only [along_cons, ih]
    tauto

theorem along_mono {C D : σ → ω → Prop} (hCD : ∀ s o, C s o → D s o) {s : σ} {ops : List ω}
    (h : Along step C s ops) : Along step D s ops := by
  induction ops generalizing s with
  | nil => trivial
  | cons o ops ih => exact ⟨hCD _ _ h.1, ih h.2⟩

/-- **Run rule.** If every step that meets C keeps I, a run that meets C keeps I. -/
theorem run_inv {I : σ → Prop} {C : σ → ω → Prop} (hstep : ∀ s o, I s → C s o → I (step s o)) {s : σ} {ops : List ω}
    (hs : I s) (hC : Along step C s ops) : I (run step s ops) := by
  induction ops generalizing s with
  | nil => exact hs
  | cons o ops ih => exact ih (hstep s o hs hC.1) hC.2

theorem run_inv_all {I : σ → Prop} (hstep : ∀ s o, I s → I (step s o)) {s : σ} (hs : I s) (ops : List ω) :
    I (run step s ops) := by
  induction ops generalizing s with
  | nil => exact hs
  | cons o ops ih => exact ih (hstep s o hs)

/-- what every step keeps, and what follows from it for the next step -/
theorem along_of_inv {I : σ → Prop} {D : σ → ω → Prop} (hstep : ∀ s o, I s → I (step s o)) (hD : ∀ s o, I s → D s o) {s : σ}
    (hs : I s) (ops : List ω) : Along step D s ops := by
  induction ops generalizing s with
  | nil => trivial
  | cons o ops ih => exact ⟨hD s o hs, ih (hstep s o hs)⟩

/-- the same under a condition on the operations alone -/
theorem run_inv_mem {I : σ → Prop} {C : ω → Prop} (hstep : ∀ s o, I s → C o → I (step s o)) {s : σ} {ops : List ω}
    (hs : I s) (hops : ∀ o ∈ ops, C o) : I (run step s ops) := by
  induction ops generalizing s with
  | nil => exact hs
  | cons o ops ih =>
    exact ih (hstep s o hs (hops o List.mem_cons_self)) fun o' ho' => hops o' (List.mem_cons_of_mem o ho')

theorem run_inv_take {I : σ → Prop} {C : σ → ω → Prop} (hstep : ∀ s o, I s → C s o → I (step s o)) {s : σ}
    {ops : List ω} (hs : I s) (hC : Along step C s ops) (k : ℕ) : I (run step s (ops.take k)) :=
  run_inv hstep hs (along_take hC k)

/-- **Exactness rule.** Steps that meet C keep I, I implies P, and a step from an I-state that breaks C breaks P: then P
holds throughout a run exactly when the run meets C. -/
theorem along_iff {I P : σ → Prop} {C : σ → ω → Prop} (hP : ∀ s, I s → P s)
    (hI : ∀ s o, I s → C s o → I (step s o)) (hC : ∀ s o, I s → P (step s o) → C s o) {s : σ} (hs : I s)
    (ops : List ω) : (∀ k, P (run step s (ops.take k))) ↔ Along step C s ops := by
  induction ops generalizing s with
  | nil => simpa using hP s hs
  | cons o ops ih =>
    constructor
    · intro h
      have ho : C s o := hC s o hs (by simpa using h 1)
      exact ⟨ho, (ih (hI s o hs ho)).1 fun k => by simpa using h (k + 1)⟩
    · rintro ⟨ho, h⟩ k
      cases k with
      | zero => exact hP s hs
      | succ k => simpa using (ih (hI s o hs ho)).2 h k

/-- the same for runs that meet D -/
theorem along_iff_under {I P : σ → Prop} {C D : σ → ω → Prop} (hP : ∀ s, I s → P s)
    (hI : ∀ s o, I s → D s o → C s o → I (step s o)) (hC : ∀ s o, I s → D s o → P (step s o) → C s o) {s : σ} (hs : I s)
    {ops : List ω} (hD : Along step D s ops) : (∀ k, P (run step s (ops.take k))) ↔ Along step C s ops := by
  induction ops generalizing s with
  | nil => simpa using hP s hs
  | cons o ops ih =>
    constructor
    · intro h
      have ho : C s o := hC s o hs hD.1 (by simpa using h 1)
      exact ⟨ho, (ih (hI s o hs hD.1 ho) hD.2).1 fun k => by simpa using h (k + 1)⟩
    · rintro ⟨ho, h⟩ k
      cases k with
      | zero => exact hP s hs
      | succ k => simpa using (ih (hI s o hs hD.1 ho) hD.2).2 h k

/-- **Exactness rule for delayed damage.** Steps that meet C keep I, I implies P, and from an I-state a step that breaks C
can be followed by steps that meet C up to a state without P: then P holds however a prefix of the run is continued by steps
that meet C exactly when the run itself meets C. -/
theorem along_iff_doomed {I P : σ → Prop} {C : σ → ω → Prop} (hP : ∀ s, I s → P s)
    (hI : ∀ s o, I s → C s o → I (step s o))
    (hC : ∀ s o, I s → ¬ C s o → ∃ more, Along step C (step s o) more ∧ ¬ P (run step (step s o) more)) {s : σ}
    (hs : I s) (ops : List ω) :
    (∀ k more, Along step C (run step s (ops.take k)) more → P (run step (run step s (ops.take k)) more)) ↔
      Along step C s ops := by
  induction ops generalizing s with
  | nil => simpa using fun more hmore => hP _ (run_inv hI hs hmore)
  | cons o ops ih =>
    constructor
    · intro h
      have ho : C s o := by
        by_contra ho
        obtain ⟨more, hmore, hnot⟩ := hC s o hs ho
        exact hnot (h 1 more (by simpa using hmore))
      exact ⟨ho, (ih (hI s o hs ho)).1 fun k more hmore => h (k + 1) more (by simpa using hmore)⟩
    · rintro ⟨ho, h⟩ k more hmore
      cases k with
      | zero => exact hP _ (run_inv hI hs hmore)
      | succ k => exact (ih (hI s o hs ho)).2 h k more (by simpa using hmore)

/-- **Exactness rule for the end of a run.** Steps that meet C keep I, a step from an I-state that breaks C leads to J, and
every step keeps J: then a run ends in I when it meets C, and else in J. -/
theorem along_or_harmed {I J : σ → Prop} {C : σ → ω → Prop} (hI : ∀ s o, I s → C s o → I (step s o))
    (hC : ∀ s o, I s → ¬ C s o → J (step s o)) (hJ : ∀ s o, J s → J (step s o)) {s : σ} (hs : I s) (ops : List ω) :
    (Along step C s ops ∧ I (run step s ops)) ∨ (¬ Along step C s ops ∧ J (run step s ops)) := by
  induction ops generalizing s with
  | nil => exact .inl ⟨trivial, hs⟩
  | cons o ops ih =>
    by_cases ho : C s o
    · rcases ih (hI s o hs ho) with ⟨halong, h⟩ | ⟨hnot, h⟩
      · exact .inl ⟨⟨ho, halong⟩, h⟩
      · exact .inr ⟨fun h' => hnot h'.2, h⟩
    · exact .inr ⟨fun h' => ho h'.1, run_inv_all hJ (hC s o hs ho) ops⟩

/-! ## History -/

variable (step) in
/-- what the steps of a run write, in order; a step need not write -/
def writes (write : σ → ω → Option α) (s : σ) (ops : List ω) : List α :=
  (steps step s ops).filterMap fun x => write x.1 x.2

/-- **Last write.** A field that a step sets to what it writes, and else leaves alone, holds what was last written. -/
theorem run_writes {I : σ → Prop} {C : σ → ω → Prop} {g : σ → α} {write : σ → ω → Option α}
    (hI : ∀ s o, I s → C s o → I (step s o)) (hw : ∀ s o, I s → C s o → g (step s o) = (write s o).getD (g s)) {s : σ}
    (hs : I s) {ops : List ω} (hC : Along step C s ops) :
    g (run step s ops) = (writes step write s ops).getLastD (g s) := by
  induction ops generalizing s with
  | nil => rfl
  | cons o ops ih =>
    have hnow := hw s o hs hC.1
    rw [run_cons, ih (hI s o hs hC.1) hC.2, hnow]
    cases ho : write s o with
    | none => simp only [writes, steps_cons, List.filterMap_cons, ho, Option.getD_none]
    | some v => simp only [writes, steps_cons, List.filterMap_cons, ho, Option.getD_some, List.getLastD_cons]

/-- the operations so far, as the state of a system of its own -/
def past (before : List ω) (o : ω) : List ω := before ++ [o]

/-- **History rule.** A condition on the states of a run that meets L is one on the operations so far, when they agree after
every run that meets L. -/
theorem along_past {C L : σ → ω → Prop} {D : List ω → ω → Prop} {s : σ}
    (h : ∀ before o, Along step L s before → L (run step s before) o → (C (run step s before) o ↔ D before o))
    {ops : List ω} (hL : Along step L s ops) : Along step C s ops ↔ Along past D [] ops := by
  have hmore : ∀ before, Along step L s before → Along step L (run step s before) ops →
      (Along step C (run step s before) ops ↔ Along past D before ops) := by
    clear hL
    induction ops with
    | nil => exact fun _ _ _ => Iff.rfl
    | cons o ops ih =>
      intro before hbefore hrest
      have hnext : run step s (past before o) = step (run step s before) o := by simp [past]
      have htail := ih (past before o) ((along_append L s before [o]).2 ⟨hbefore, hrest.1, trivial⟩) (hnext ▸ hrest.2)
      rw [along_cons, along_cons, h before o hbefore hrest.1, ← hnext, htail]
  exact hmore [] trivial hL

/-! ## Simulation -/

/-- **Simulation.** If every step that meets C is, seen through abs, a run of the abstract system that meets D, then abs
keeps what such abstract steps keep. -/
theorem step_abs {step' : τ → ν → τ} {abs : σ → τ} {D : τ → ν → Prop} {J : τ → Prop}
    (hJ : ∀ t o, J t → D t o → J (step' t o)) {s : σ} {o : ω}
    (h : ∃ l, abs (step s o) = run step' (abs s) l ∧ Along step' D (abs s) l) (hs : J (abs s)) :
    J (abs (step s o)) := by
  obtain ⟨l, hl, hD⟩ := h
  rw [hl]
  exact run_inv hJ hs hD

end Lib.Runs
