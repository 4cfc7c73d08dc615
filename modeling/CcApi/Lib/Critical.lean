/-
Critical sections: threads that write to one place, each between an acquire and a release of one binary lock.

A section writes its pieces one at a time. A thread that is refused the lock goes on without it, and every thread releases the
lock behind its section, whoever has it.

- `step_serial`: a step at which nobody is refused the lock keeps one thread at most in a section.
- `Serial.output`: then what has been written is whole sections one after another, in the order they were entered, and behind
  them the beginning of the one that is being written.
-/
import CcApi.Lib.Runs

namespace Lib.Critical

open Lib.Runs

variable {ι γ α : Type*} [DecidableEq ι]

/-- a thread in a section: its job, what it has written of it and what is left -/
structure Inside (γ α : Type*) where
  job : γ
  done : List α
  left : List α

structure State (ι γ α : Type*) where
  free : Bool
  now : ι → Option (Inside γ α)
  /-- what has been written, with who wrote it -/
  written : List (ι × α)
  /-- the sections that have ended, in order -/
  ended : List (ι × γ)
  /-- the sections that were entered, in order -/
  entered : List (ι × γ)

inductive Op (ι γ : Type*) where
  /-- granted says whether the thread gets the lock; it waits for a lock that is not free -/
  | enter (i : ι) (job : γ) (granted : Bool)
  | write (i : ι)
  | leave (i : ι) (released : Bool)

variable (pieces : γ → List α)

def step (s : State ι γ α) : Op ι γ → State ι γ α
  | .enter i c granted =>
    if s.now i = none ∧ (granted = true → s.free = true) then
      { s with
        free := s.free && !granted
        now := Function.update s.now i (some ⟨c, [], pieces c⟩)
        entered := s.entered ++ [(i, c)] }
    else s
  | .write i =>
    match s.now i with
    | some ⟨c, done, x :: left⟩ =>
      { s with now := Function.update s.now i (some ⟨c, done ++ [x], left⟩), written := s.written ++ [(i, x)] }
    | _ => s
  | .leave i released =>
    match s.now i with
    | some ⟨c, _, []⟩ =>
      { s with free := s.free || released, now := Function.update s.now i none, ended := s.ended ++ [(i, c)] }
    | _ => s

/-- nobody is refused the lock -/
def Granted : Op ι γ → Prop
  | .enter _ _ granted => granted = true
  | _ => True

instance : ∀ o : Op ι γ, Decidable (Granted o)
  | .enter _ _ granted => inferInstanceAs (Decidable (granted = true))
  | .write _ | .leave _ _ => inferInstanceAs (Decidable True)

/-- the pieces of whole sections -/
def whole (l : List (ι × γ)) : List (ι × α) := l.flatMap fun p => (pieces p.2).map fun x => (p.1, x)

omit [DecidableEq ι] in
theorem whole_concat (l : List (ι × γ)) (i : ι) (c : γ) :
    whole pieces (l ++ [(i, c)]) = whole pieces l ++ (pieces c).map fun x => (i, x) := by simp [whole]

/-- nobody is in a section -/
structure Quiet (s : State ι γ α) : Prop where
  now : s.now = fun _ => none
  written : s.written = whole pieces s.ended
  entered : s.entered = s.ended

/-- thread i alone is in a section, and has the lock -/
structure Alone (s : State ι γ α) (i : ι) (x : Inside γ α) : Prop where
  free : s.free = false
  now : s.now = Function.update (fun _ => none) i (some x)
  parts : x.done ++ x.left = pieces x.job
  written : s.written = whole pieces s.ended ++ x.done.map fun y => (i, y)
  entered : s.entered = s.ended ++ [(i, x.job)]

def Serial (s : State ι γ α) : Prop := Quiet pieces s ∨ ∃ i x, Alone pieces s i x

/-- before anybody has entered a section -/
def State.fresh : State ι γ α := { free := true, now := fun _ => none, written := [], ended := [], entered := [] }

omit [DecidableEq ι] in
theorem quiet_fresh : Quiet pieces (State.fresh : State ι γ α) := ⟨rfl, rfl, rfl⟩

variable {pieces} {s : State ι γ α}

theorem Alone.other {i j : ι} {x : Inside γ α} (h : Alone pieces s i x) (hj : j ≠ i) : s.now j = none := by
  rw [h.now, Function.update_of_ne hj]

theorem Alone.self {i : ι} {x : Inside γ α} (h : Alone pieces s i x) : s.now i = some x := by
  rw [h.now, Function.update_self]

/-- a thread that is in no section does nothing but enter one -/
theorem step_outside {i : ι} (hi : s.now i = none) :
    step pieces s (.write i) = s ∧ ∀ released, step pieces s (.leave i released) = s := by
  refine ⟨?_, fun released => ?_⟩ <;> simp only [step, hi]

theorem Quiet.enter (h : Quiet pieces s) (i : ι) (c : γ) : Serial pieces (step pieces s (.enter i c true)) := by
  have hi : s.now i = none := by rw [h.now]
  by_cases hfree : s.free = true
  · refine .inr ⟨i, ⟨c, [], pieces c⟩, ?_⟩
    rw [step, if_pos ⟨hi, fun _ => hfree⟩]
    exact { free := by simp, now := by rw [h.now], parts := rfl, written := by simp [h.written],
            entered := by rw [h.entered] }
  · rw [step, if_neg fun hn => hfree (hn.2 rfl)]
    exact .inl h

theorem Alone.write {i : ι} {x : Inside γ α} (h : Alone pieces s i x) : Serial pieces (step pieces s (.write i)) := by
  obtain ⟨c, done, left⟩ := x
  have hparts := h.parts
  cases left with
  | nil =>
    have hsame : step pieces s (.write i) = s := by simp only [step, h.self]
    rw [hsame]
    exact .inr ⟨i, _, h⟩
  | cons y left =>
    refine .inr ⟨i, ⟨c, done ++ [y], left⟩, ?_⟩
    simp only [step, h.self]
    exact { free := h.free, now := by rw [h.now, Function.update_idem], parts := by simpa using hparts,
            written := by simp [h.written], entered := h.entered }

theorem Alone.leave {i : ι} {x : Inside γ α} (h : Alone pieces s i x) (released : Bool) :
    Serial pieces (step pieces s (.leave i released)) := by
  obtain ⟨c, done, left⟩ := x
  have hparts := h.parts
  cases left with
  | nil =>
    left
    simp only [step, h.self]
    refine ⟨?_, ?_, h.entered⟩
    · rw [h.now, Function.update_idem]
      exact Function.update_eq_self i _
    · rw [List.append_nil] at hparts
      rw [h.written, whole_concat, ← hparts]
  | cons y left =>
    have hsame : step pieces s (.leave i released) = s := by simp only [step, h.self]
    rw [hsame]
    exact .inr ⟨i, _, h⟩

/-- **One step.** -/
theorem step_serial (s : State ι γ α) (o : Op ι γ) (h : Serial pieces s) (ho : Granted o) :
    Serial pieces (step pieces s o) := by
  cases o with
  | enter i c granted =>
    obtain rfl : granted = true := ho
    rcases h with h | ⟨j, x, h⟩
    · exact h.enter i c
    · rw [step, if_neg fun hn => absurd (hn.2 rfl) (by rw [h.free]; decide)]
      exact .inr ⟨j, x, h⟩
  | write i =>
    rcases h with h | ⟨j, x, h⟩
    · rw [(step_outside (by rw [h.now])).1]
      exact .inl h
    · by_cases hij : i = j
      · subst hij
        exact h.write
      · rw [(step_outside (h.other hij)).1]
        exact .inr ⟨j, x, h⟩
  | leave i released =>
    rcases h with h | ⟨j, x, h⟩
    · rw [(step_outside (by rw [h.now])).2]
      exact .inl h
    · by_cases hij : i = j
      · subst hij
        exact h.leave released
      · rw [(step_outside (h.other hij)).2]
        exact .inr ⟨j, x, h⟩

/-- **The output.** What has been written is whole sections, in the order they were entered, and the beginning of the next. -/
theorem Serial.output (h : Serial pieces s) : ∃ part, s.written = whole pieces s.ended ++ part ∧
    ((part = [] ∧ s.entered = s.ended) ∨ ∃ i c, s.entered = s.ended ++ [(i, c)] ∧ part <+: whole pieces [(i, c)]) := by
  rcases h with h | ⟨i, x, h⟩
  · exact ⟨[], by simp [h.written], .inl ⟨rfl, h.entered⟩⟩
  · refine ⟨x.done.map fun y => (i, y), h.written, .inr ⟨i, x.job, h.entered, ?_⟩⟩
    have hwhole : whole pieces [(i, x.job)] = (x.done.map fun y => (i, y)) ++ x.left.map fun y => (i, y) := by
      simp [whole, ← h.parts]
    rw [hwhole]
    exact List.prefix_append _ _

end Lib.Critical
