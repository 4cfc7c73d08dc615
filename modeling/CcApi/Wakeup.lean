/-
Initiating actions (`connector_initiate_action_secure` of `ccapi.c`), and the connector thread that sleeps while it is idle
(`ccapi_os_handler` on `connector_request_id_os_yield`).

Any thread of the application hands an action to the connector under `initiate_action_lock`, and then releases the lock of the
connector's thread, which that thread acquires, with a timeout, when the connector tells that it is idle.

The connector is not part of the model: it gives an answer to each action, and may tell that it is idle at any time.

- `step_inv`: what working locks keep, whatever the interleaving.
- `actions_initiated`: one thread at a time calls the connector; as many calls have returned success, or are about to, as it
  has accepted actions; and no acceptance is slept through.
- `woken_up`: when an action has been accepted since the connector's thread was last woken and the callers have returned, the
  next time it is idle it is woken at once, and not by the timeout.
- `overslept`: where the release of `initiate_action_lock` fails, the caller is told that the action was aborted, the connector has
  it, and its thread sleeps.

Premise: the connector protects its own state against its thread.
-/
import CcApi.Lib.Runs
import CcApi.Platform

namespace CcApi.Wakeup

open Lib.Runs

variable {ρ : Type*}

/-- where a thread stands in `connector_initiate_action_secure`; r is the request with its data -/
inductive Stage (ρ : Type*) where
  | out
  | entered (r : ρ)
  /-- it has the lock -/
  | inside (r : ρ)
  /-- `connector_initiate_action` has returned -/
  | asked (r : ρ) (answer : ConnectorStatus)
  /-- the lock has been released -/
  | unlocked (r : ρ) (answer : ConnectorStatus)
deriving DecidableEq

/-- where the connector's thread stands -/
inductive Pc where
  /-- in `connector_run`, outside the yield callback -/
  | running
  /-- in the yield callback, with connector_idle -/
  | idle
  /-- in `ccimp_os_lock_acquire` -/
  | waiting
deriving DecidableEq

structure St (ρ : Type*) where
  /-- `initiate_action_lock` is free -/
  free : Bool
  stage : ℕ → Stage ρ
  /-- the count of `connector_run->lock` -/
  raised : ℕ
  pc : Pc
  /-- the actions that the connector has accepted, in order -/
  accepted : List (ℕ × ρ)
  /-- of these, the ones accepted since its thread was last woken -/
  unheard : List (ℕ × ρ)
  /-- what the calls have returned -/
  returned : List ((ℕ × ρ) × ConnectorStatus)

inductive Op (ρ : Type*) where
  | call (i : ℕ) (r : ρ)
  /-- the acquire returns; one that is granted waits for the lock to be free -/
  | acquire (i : ℕ) (status : CcimpStatus) (acquired : Bool)
  /-- `connector_initiate_action` returns -/
  | ask (i : ℕ) (answer : ConnectorStatus)
  /-- freed says what becomes of the lock when its release fails -/
  | release (i : ℕ) (status : CcimpStatus) (freed : Bool)
  | wake (i : ℕ) (status : CcimpStatus)
  /-- the connector tells that it is idle; the acquire of its thread begins, is granted, or times out (or fails) -/
  | idle
  | wait
  | woken
  | timeout
deriving DecidableEq

namespace St

def goto (s : St ρ) (i : ℕ) (g : Stage ρ) : St ρ := { s with stage := Function.update s.stage i g }

/-- the call of thread i returns -/
def leave (s : St ρ) (i : ℕ) (r : ρ) (answer : ConnectorStatus) : St ρ :=
  { s.goto i .out with returned := s.returned ++ [((i, r), answer)] }

/-- `connector_initiate_action` -/
def initiate (s : St ρ) (i : ℕ) (r : ρ) (answer : ConnectorStatus) : St ρ :=
  if answer = .success then { s with accepted := s.accepted ++ [(i, r)], unheard := s.unheard ++ [(i, r)] } else s

variable {s : St ρ} {i j : ℕ} {r : ρ} {g : Stage ρ} {answer : ConnectorStatus}

@[simp] theorem goto_self : (s.goto i g).stage i = g := Function.update_self _ _ _

theorem goto_other (h : j ≠ i) : (s.goto i g).stage j = s.stage j := Function.update_of_ne h _ _

@[simp] theorem leave_self : (s.leave i r answer).stage i = .out := Function.update_self _ _ _

theorem leave_other (h : j ≠ i) : (s.leave i r answer).stage j = s.stage j := Function.update_of_ne h _ _

end St

/-- `connector_initiate_action_secure`, step by step -/
def stepCaller (s : St ρ) : Op ρ → St ρ
  | .call i r =>
    match s.stage i with
    | .out => s.goto i (.entered r)
    | _ => s
  | .acquire i status acquired =>
    match s.stage i with
    | .entered r =>
      if lockAcquire status acquired = .ok then
        if s.free then { s.goto i (.inside r) with free := false } else s
      else s.leave i r .abort
    | _ => s
  | .ask i answer =>
    match s.stage i with
    | .inside r => (s.initiate i r answer).goto i (.asked r answer)
    | _ => s
  | .release i status freed =>
    match s.stage i with
    | .asked r answer =>
      if status = .ok then { s.goto i (.unlocked r answer) with free := true }
      else { s.leave i r .abort with free := freed }
    | _ => s
  | .wake i status =>
    match s.stage i with
    | .unlocked r answer => { s.leave i r answer with raised := if status = .ok then s.raised + 1 else s.raised }
    | _ => s
  | _ => s

/-- the connector's thread -/
def stepConnector (s : St ρ) : Op ρ → St ρ
  | .idle => if s.pc = .running then { s with pc := .idle } else s
  | .wait => if s.pc = .idle then { s with pc := .waiting } else s
  | .woken =>
    match s.pc, s.raised with
    | .waiting, k + 1 => { s with pc := .running, raised := k, unheard := [] }
    | _, _ => s
  | .timeout => if s.pc = .waiting then { s with pc := .running } else s
  | _ => s

def step (s : St ρ) (o : Op ρ) : St ρ :=
  match o with
  | .call .. | .acquire .. | .ask .. | .release .. | .wake .. => stepCaller s o
  | .idle | .wait | .woken | .timeout => stepConnector s o

/-- after `ccxapi_start`: the connector's thread has its lock taken from the start -/
def St.fresh : St ρ :=
  { free := true, stage := fun _ => .out, raised := 0, pc := .running, accepted := [], unheard := [], returned := [] }

/-- the releases work -/
def Works : Op ρ → Prop
  | .release _ status _ => status = .ok
  | .wake _ status => status = .ok
  | _ => True

instance : ∀ o : Op ρ, Decidable (Works o)
  | .release _ status _ => inferInstanceAs (Decidable (status = .ok))
  | .wake _ status => inferInstanceAs (Decidable (status = .ok))
  | .call .. | .acquire .. | .ask .. | .idle | .wait | .woken | .timeout => inferInstanceAs (Decidable True)

/-! ## What is kept -/

/-- the thread has `initiate_action_lock` -/
def Stage.holds : Stage ρ → Bool
  | .inside _ | .asked .. => true
  | _ => false

/-- the thread's action has been accepted, and its call has not returned yet -/
def Stage.inFlight : Stage ρ → Option ρ
  | .asked r .success | .unlocked r .success => some r
  | _ => none

structure Inv (s : St ρ) : Prop where
  taken : ∀ i, (s.stage i).holds = true → s.free = false
  alone : ∀ i j, (s.stage i).holds = true → (s.stage j).holds = true → i = j
  /-- where the thread has not been woken for an action, it can be, or is going to be -/
  awake : s.unheard ≠ [] → 0 < s.raised ∨ ∃ i, (s.stage i).inFlight ≠ none

/-- each accepted action belongs to a call that has returned success, or is going to -/
def Accounted [DecidableEq ρ] (s : St ρ) : Prop :=
  ∀ i r, s.accepted.count (i, r) =
    s.returned.count ((i, r), .success) + if (s.stage i).inFlight = some r then 1 else 0

theorem inv_fresh : Inv (St.fresh : St ρ) where
  taken _ h := by cases h
  alone _ _ h := by cases h
  awake h := absurd rfl h

theorem accounted_fresh [DecidableEq ρ] : Accounted (St.fresh : St ρ) := fun _ _ => rfl

/-! ## Steps -/

section Steps

variable {s : St ρ} {i : ℕ} {g : Stage ρ}

/-- a thread goes on without taking or giving back the lock, and without handing anything in -/
theorem Inv.goto (h : Inv s) (hholds : g.holds = true → (s.stage i).holds = true)
    (hflight : (s.stage i).inFlight ≠ none → g.inFlight ≠ none) : Inv (s.goto i g) where
  taken j hj := by
    by_cases hji : j = i
    · subst hji
      rw [St.goto_self] at hj
      exact h.taken j (hholds hj)
    · rw [St.goto_other hji] at hj
      exact h.taken j hj
  alone j k hj hk := by
    have hold (l : ℕ) (hl : ((s.goto i g).stage l).holds = true) : (s.stage l).holds = true := by
      by_cases hli : l = i
      · subst hli
        rw [St.goto_self] at hl
        exact hholds hl
      · rwa [St.goto_other hli] at hl
    exact h.alone j k (hold j hj) (hold k hk)
  awake hunheard := by
    rcases h.awake hunheard with hraised | ⟨j, hj⟩
    · exact .inl hraised
    · refine .inr ⟨j, ?_⟩
      by_cases hji : j = i
      · subst hji
        rw [St.goto_self]
        exact hflight hj
      · rwa [St.goto_other hji]

theorem Inv.call (h : Inv s) (i : ℕ) (r : ρ) : Inv (step s (.call i r)) := by
  unfold step stepCaller
  dsimp only
  split
  · rename_i hi
    exact h.goto (fun hg => by cases hg) fun hf => absurd (by rw [hi]; rfl) hf
  · exact h

/-- the lock is taken by a thread that finds it free -/
theorem Inv.acquire (h : Inv s) (i : ℕ) (status : CcimpStatus) (acquired : Bool) :
    Inv (step s (.acquire i status acquired)) := by
  unfold step stepCaller
  dsimp only
  split
  · rename_i r hi
    have hflight : (s.stage i).inFlight ≠ none → False := fun hf => hf (by rw [hi]; rfl)
    split_ifs with hgranted hfree
    · have hnone (j : ℕ) : (s.stage j).holds = false := by
        by_contra hj
        have := h.taken j (by simpa using hj)
        rw [hfree] at this
        cases this
      have halone (j : ℕ) (hj : ((s.goto i (.inside r)).stage j).holds = true) : j = i := by
        by_contra hji
        rw [St.goto_other hji, hnone] at hj
        cases hj
      refine { taken := fun _ _ => rfl, alone := fun j k hj hk => ?_, awake := fun hunheard => ?_ }
      · rw [halone j hj, halone k hk]
      · rcases h.awake hunheard with hraised | ⟨j, hj⟩
        · exact .inl hraised
        · refine .inr ⟨j, ?_⟩
          have hji : j ≠ i := fun he => hflight (he ▸ hj)
          rwa [St.goto_other hji]
    · exact h
    · have hg : Inv (s.goto i .out) := h.goto (fun hg => by cases hg) fun hf => (hflight hf).elim
      exact ⟨hg.taken, hg.alone, hg.awake⟩
  · exact h

/-- **The call of the connector.** An action it accepts is in the hands of the thread that is going to wake it. -/
theorem Inv.ask (h : Inv s) (i : ℕ) (answer : ConnectorStatus) : Inv (step s (.ask i answer)) := by
  unfold step stepCaller
  dsimp only
  split
  · rename_i r hi
    have hg : Inv (s.goto i (.asked r answer)) :=
      h.goto (fun _ => by rw [hi]; rfl) fun hf => absurd (by rw [hi]; rfl) hf
    unfold St.initiate
    split_ifs with hanswer
    · subst hanswer
      refine { taken := hg.taken, alone := hg.alone, awake := fun _ => .inr ⟨i, ?_⟩ }
      rw [St.goto_self]
      exact Option.some_ne_none r
    · exact hg
  · exact h

theorem Inv.release (h : Inv s) (i : ℕ) (freed : Bool) : Inv (step s (.release i .ok freed)) := by
  unfold step stepCaller
  dsimp only
  split
  · rename_i r answer hi
    rw [if_pos rfl]
    have hg : Inv (s.goto i (.unlocked r answer)) := by
      refine h.goto (fun hg => by cases hg) fun hf => ?_
      rw [hi] at hf
      cases answer <;> exact hf
    refine { taken := fun j hj => ?_, alone := hg.alone, awake := hg.awake }
    -- nobody else has the lock
    have hji : j ≠ i := by
      intro he
      subst he
      rw [St.goto_self] at hj
      cases hj
    rw [St.goto_other hji] at hj
    exact absurd (h.alone j i hj (by rw [hi]; rfl)) hji
  · exact h

theorem Inv.wake (h : Inv s) (i : ℕ) : Inv (step s (.wake i .ok)) := by
  unfold step stepCaller
  dsimp only
  split
  · rename_i r answer hi
    refine { taken := fun j hj => ?_, alone := fun j k hj hk => ?_, awake := fun _ => .inl (by simp) }
    · refine h.taken j ?_
      by_cases hji : j = i
      · subst hji
        rw [St.leave_self] at hj
        cases hj
      · rwa [St.leave_other hji] at hj
    · have hold (l : ℕ) (hl : ((s.leave i r answer).stage l).holds = true) : (s.stage l).holds = true := by
        by_cases hli : l = i
        · subst hli
          rw [St.leave_self] at hl
          cases hl
        · rwa [St.leave_other hli] at hl
      exact h.alone j k (hold j hj) (hold k hk)
  · exact h

/-- **The connector's thread.** It takes a release back only by being woken. -/
theorem Inv.connector (h : Inv s) (o : Op ρ) : Inv (stepConnector s o) := by
  unfold stepConnector
  split
  · split_ifs
    · exact { h with }
    · exact h
  · split_ifs
    · exact { h with }
    · exact h
  · split
    · exact { h with awake := fun hn => absurd rfl hn }
    · exact h
  · split_ifs
    · exact { h with }
    · exact h
  · exact h

end Steps

/-- **One step.** -/
theorem step_inv (s : St ρ) (o : Op ρ) (h : Inv s) (ho : Works o) : Inv (step s o) := by
  cases o with
  | call i r => exact h.call i r
  | acquire i status acquired => exact h.acquire i status acquired
  | ask i answer => exact h.ask i answer
  | release i status freed =>
    obtain rfl : status = .ok := ho
    exact h.release i freed
  | wake i status =>
    obtain rfl : status = .ok := ho
    exact h.wake i
  | idle => exact h.connector .idle
  | wait => exact h.connector .wait
  | woken => exact h.connector .woken
  | timeout => exact h.connector .timeout

/-! ## Whose actions they are -/

section Accounted

variable [DecidableEq ρ] {s : St ρ} {i : ℕ} {r : ρ} {g : Stage ρ} {answer : ConnectorStatus}

theorem Accounted.goto (h : Accounted s) (hg : g.inFlight = (s.stage i).inFlight) : Accounted (s.goto i g) := by
  intro j r'
  have hj := h j r'
  by_cases hji : j = i
  · subst hji
    rw [St.goto_self, hg]
    exact hj
  · rw [St.goto_other hji]
    exact hj

/-- a call that returns an error returns without an action -/
theorem Accounted.leave (h : Accounted s) (hi : (s.stage i).inFlight = none) (hanswer : answer ≠ .success) :
    Accounted (s.leave i r answer) := by
  intro j r'
  have hj := h.goto (i := i) (g := .out) hi.symm j r'
  have hreturned : [((i, r), answer)].count ((j, r'), .success) = 0 := by
    rw [List.count_eq_zero, List.mem_singleton]
    intro he
    exact hanswer (Prod.ext_iff.1 he).2.symm
  change s.accepted.count (j, r') = (s.returned ++ [((i, r), answer)]).count ((j, r'), .success) + _
  rw [List.count_append, hreturned, Nat.add_zero]
  exact hj

/-- the action is handed in -/
theorem Accounted.initiate (h : Accounted s) (hi : (s.stage i).inFlight = none) :
    Accounted ((s.initiate i r .success).goto i (.asked r .success)) := by
  intro j r'
  have hj := h j r'
  change (s.accepted ++ [(i, r)]).count (j, r') = s.returned.count ((j, r'), .success) + _
  rw [List.count_append, hj]
  by_cases hji : j = i
  · subst hji
    rw [St.goto_self, hi]
    by_cases hr : r' = r
    · subst hr
      simp [Stage.inFlight]
    · have hr' : ¬ r = r' := fun he => hr he.symm
      simp [Stage.inFlight, hr']
  · rw [St.goto_other hji]
    have hij : ¬ i = j := fun he => hji he.symm
    simp only [List.count_singleton, beq_iff_eq, Prod.mk.injEq, hij, false_and, if_false, Nat.add_zero]
    rfl

/-- the call of an accepted action returns -/
theorem Accounted.success (h : Accounted s) (hi : (s.stage i).inFlight = some r) : Accounted (s.leave i r .success) := by
  intro j r'
  have hj := h j r'
  change s.accepted.count (j, r') = (s.returned ++ [((i, r), ConnectorStatus.success)]).count ((j, r'), .success) + _
  rw [List.count_append, hj]
  by_cases hji : j = i
  · subst hji
    rw [St.leave_self, hi]
    by_cases hr : r' = r
    · subst hr
      simp [Stage.inFlight]
    · have hr' : ¬ r = r' := fun he => hr he.symm
      simp [Stage.inFlight, hr']
  · rw [St.leave_other hji]
    have hij : ¬ i = j := fun he => hji he.symm
    simp [hij]

theorem step_accounted (s : St ρ) (o : Op ρ) (h : Accounted s) (ho : Works o) : Accounted (step s o) := by
  cases o with
  | call i r =>
    unfold step stepCaller
    dsimp only
    split
    · rename_i hi
      exact h.goto (by rw [hi]; rfl)
    · exact h
  | acquire i status acquired =>
    unfold step stepCaller
    dsimp only
    split
    · rename_i r hi
      split_ifs
      · exact h.goto (by rw [hi]; rfl)
      · exact h
      · exact h.leave (by rw [hi]; rfl) (by decide)
    · exact h
  | ask i answer =>
    unfold step stepCaller
    dsimp only
    split
    · rename_i r hi
      have hnone : (s.stage i).inFlight = none := by rw [hi]; rfl
      by_cases hanswer : answer = .success
      · subst hanswer
        exact h.initiate hnone
      · rw [St.initiate, if_neg hanswer]
        refine h.goto ?_
        rw [hnone]
        cases answer <;> first | rfl | exact absurd rfl hanswer
    · exact h
  | release i status freed =>
    obtain rfl : status = .ok := ho
    unfold step stepCaller
    dsimp only
    split
    · rename_i r answer hi
      rw [if_pos rfl]
      exact h.goto (by rw [hi]; cases answer <;> rfl)
    · exact h
  | wake i status =>
    unfold step stepCaller
    dsimp only
    split
    · rename_i r answer hi
      by_cases hanswer : answer = .success
      · subst hanswer
        exact h.success (by rw [hi]; rfl)
      · refine h.leave ?_ hanswer
        rw [hi]
        cases answer <;> first | rfl | exact absurd rfl hanswer
    · exact h
  | idle =>
    simp only [step, stepConnector]
    split_ifs
    · exact h
    · exact h
  | wait =>
    simp only [step, stepConnector]
    split_ifs
    · exact h
    · exact h
  | woken =>
    simp only [step, stepConnector]
    split
    · exact h
    · exact h
  | timeout =>
    simp only [step, stepConnector]
    split_ifs
    · exact h
    · exact h

end Accounted

/-! ## What it gives -/

/-- **No lost wake-up.** Where an action has been accepted since the connector's thread was last woken, and no accepted action
is in the hands of a caller any more, the thread is woken as soon as it is idle, without its acquire running into the timeout. -/
theorem Inv.woken_up {s : St ρ} (h : Inv s) (hout : ∀ i, (s.stage i).inFlight = none) (hunheard : s.unheard ≠ []) :
    (run step s [.idle, .wait, .woken]).unheard = [] := by
  obtain ⟨k, hk⟩ : ∃ k, s.raised = k + 1 := by
    refine Nat.exists_eq_add_one.2 ((h.awake hunheard).resolve_right ?_)
    rintro ⟨i, hi⟩
    exact hi (hout i)
  cases hpc : s.pc with
  | running => simp [step, stepConnector, hpc, hk]
  | idle => simp [step, stepConnector, hpc, hk]
  | waiting => simp [step, stepConnector, hpc, hk]

/-- what holds of the callers and of the connector's thread -/
structure Initiated [DecidableEq ρ] (s : St ρ) : Prop where
  /-- one thread at a time calls the connector -/
  alone : ∀ i j r r', s.stage i = .inside r → s.stage j = .inside r' → i = j
  accounted : Accounted s
  prompt : s.unheard ≠ [] → (∀ i, (s.stage i).inFlight = none) → (run step s [.idle, .wait, .woken]).unheard = []

/-- **Initiating actions.** Any number of threads, any interleaving, any answers of the connector and of the acquires. -/
theorem actions_initiated [DecidableEq ρ] (ops : List (Op ρ)) (h : ∀ o ∈ ops, Works o) : Initiated (run step St.fresh ops) := by
  have hinv : Inv (run step St.fresh ops) := run_inv_mem step_inv inv_fresh h
  refine ⟨fun i j r r' hi hj => ?_, run_inv_mem step_accounted accounted_fresh h, fun hunheard hout => hinv.woken_up hout hunheard⟩
  exact hinv.alone i j (by rw [hi]; rfl) (by rw [hj]; rfl)

/-- two threads hand in an action each while the connector's thread sleeps -/
def twoActions : List (Op ℕ) :=
  [.idle, .wait, .call 1 10, .call 2 20, .acquire 2 .ok true, .ask 2 .success, .acquire 1 .ok true, .release 2 .ok true,
    .acquire 1 .ok true, .ask 1 .success, .wake 2 .ok, .woken, .release 1 .ok true, .idle]

theorem initiated_two : Initiated (run step St.fresh twoActions) := actions_initiated twoActions (by decide)

/-- the release of `initiate_action_lock` fails -/
def failedRelease : List (Op ℕ) :=
  [.idle, .wait, .call 1 10, .acquire 1 .ok true, .ask 1 .success, .release 1 .error true]

/-- **A failed release.** The caller is told that its action was aborted, the connector has it, and its thread sleeps on. -/
theorem overslept : ¬ ∀ ops : List (Op ℕ), Initiated (run step St.fresh ops) := by
  intro h
  have hout (i : ℕ) : (run step St.fresh failedRelease).stage i = .out := by
    simp [failedRelease, step, stepCaller, stepConnector, St.fresh, St.goto, St.leave, St.initiate, lockAcquire]
  have hprompt := (h failedRelease).prompt (List.cons_ne_nil _ _) fun i => by rw [hout]; rfl
  exact absurd hprompt (by decide)

end CcApi.Wakeup
