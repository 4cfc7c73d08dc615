/-
The pointer to the library's single instance (`ccapi_start` and `ccapi_stop` of `ccapi_init.c`, the connector-run thread of
`ccapi.c`).

`ccapi_data_single_instance` is written by the inner start, through the handle it is given, by `ccapi_start` on every
error, and by `ccapi_stop` on success. The asynchronous stop of an instance whose connector aborts frees the record and
does not touch the pointer. A stop whose terminate action is not answered connector_success does not return an error there:
it polls until the connector has ended, stops the workers, and returns CCAPI_STOP_ERROR_NOT_STARTED with nothing freed.

Instances are numbered in the order of their start. An instance is live from the start that returns without an error to the
end of its connector; a call that looks into a freed record through the pointer is a fault. The calls are made one after the
other, so none is made while a stop polls; the connectors run all the time.

- `step_right`, `loses_wrong`: a start over a live instance, an abort, and a stop whose terminate action is not answered
  success are what breaks the invariant, always.
- `pointer_right_iff`: the invariant holds throughout a run exactly when there is no such step.
-/
import CcApi.Instance.Start
import CcApi.Lib.Runs

namespace CcApi.Instance

open Lib Lib.Runs

/-! ## The machine -/

structure Library where
  /-- `ccapi_data_single_instance` -/
  singleInstance : Option ℕ
  /-- the live instances -/
  live : List ℕ
  /-- the instances whose connector has ended and whose record has not been freed -/
  dead : List ℕ
  /-- the instance that a `ccapi_stop` polls whose terminate action was refused -/
  polled : Option ℕ
  /-- the number of the next instance -/
  next : ℕ
  /-- a call looked into a freed record -/
  faulted : Bool
  /-- a start ran into a NULL pointer of its configuration: the process is gone -/
  ended : Bool
deriving DecidableEq, Repr

/-- how the terminate action of a `ccxapi_stop` goes, once the connector is not busy -/
inductive Terminate where
  /-- it is answered connector_success, and the connector ends -/
  | success
  /-- the connector has taken it up, and ends, but the release of the lock has failed: it is answered connector_abort (a build
  with CCIMP_DEBUG_ENABLED halts) -/
  | lost
  /-- the connector has refused it, or has not been asked since the acquire of the lock has failed: it goes on running -/
  | refused
  /-- the connector aborts while the stop polls for its end -/
  | aborted
deriving DecidableEq, Repr

inductive LibraryOp where
  /-- `ccapi_start` -/
  | start (plat : Plat) (start : Option StartConfig)
  /-- `ccapi_stop` -/
  | stop (terminate : Terminate)
  /-- `connector_run` of an instance answers abort: `ccxapi_asynchronous_stop` -/
  | abort (i : ℕ)
  /-- any other call of the library, which asks CCAPI_RUNNING first -/
  | use

/-- the caller's handle as the inner start finds it -/
def Library.handle (l : Library) : Handle := if l.singleInstance = none then .null else .other

/-- `ccapi_start` -/
def ccapiStart (plat : Plat) (start : Option StartConfig) (l : Library) : Library :=
  match (ccxapiStart plat false l.handle start (l.live.length + l.dead.length)).1 with
  | .started => { l with singleInstance := some l.next, live := l.live ++ [l.next], next := l.next + 1 }
  | .failed _ => { l with singleInstance := none }
  | .crashed => { l with ended := true }

/-- CCAPI_RUNNING of the single instance: `none` when the record it looks into has been freed -/
def Library.running (l : Library) : Option (Option ℕ) :=
  match l.singleInstance with
  | none => some none
  | some i => if i ∈ l.live then some (some i) else if i ∈ l.dead then some none else none

/-- `ccxapi_asynchronous_stop` of a live instance; a stop that polls it reads the status out of what has been freed -/
def ccxapiAsynchronousStop (i : ℕ) (l : Library) : Library :=
  if i ∈ l.live then { l with live := l.live.erase i, faulted := l.faulted || l.polled = some i } else l

/-- `ccxapi_stop` of a live instance behind its terminate action, and what `ccapi_stop` makes of its answer -/
def ccapiStopLive (i : ℕ) (terminate : Terminate) (l : Library) : Library :=
  match terminate with
  | .success => { l with live := l.live.erase i, singleInstance := none }
  | .lost => { l with live := l.live.erase i, dead := l.dead ++ [i] }
  | .refused => { l with polled := some i }
  | .aborted => ccxapiAsynchronousStop i { l with polled := some i }

/-- `ccapi_stop` -/
def ccapiStop (terminate : Terminate) (l : Library) : Library :=
  match l.running with
  | none => { l with faulted := true }
  | some none => l
  | some (some i) => ccapiStopLive i terminate l

/-- a call that asks whether the single instance is running -/
def ccapiUse (l : Library) : Library := if l.running = none then { l with faulted := true } else l

def Library.step (l : Library) (o : LibraryOp) : Library :=
  if l.ended then l
  else
    match o, l.polled with
    | .abort i, _ => ccxapiAsynchronousStop i l
    -- the application is still in its `ccapi_stop`
    | _, some _ => l
    | .start plat start, none => ccapiStart plat start l
    | .stop terminate, none => ccapiStop terminate l
    | .use, none => ccapiUse l

/-- before the first start -/
def Library.fresh : Library :=
  { singleInstance := none, live := [], dead := [], polled := none, next := 0, faulted := false, ended := false }

/-! ## The invariant -/

/-- the pointer is NULL exactly when no instance is live, and otherwise points to the one that is; no call has looked into
a freed record -/
structure Right (l : Library) : Prop where
  null : l.singleInstance = none ↔ l.live = []
  points : ∀ i, l.singleInstance = some i → l.live = [i]
  sound : l.faulted = false

theorem fresh_right : Right Library.fresh := ⟨by simp [Library.fresh], by simp [Library.fresh], rfl⟩

/-- nothing live and no pointer, or one instance and its pointer -/
theorem Right.cases {l : Library} (h : Right l) :
    (l.singleInstance = none ∧ l.live = []) ∨ ∃ i, l.singleInstance = some i ∧ l.live = [i] := by
  cases hp : l.singleInstance with
  | none => exact .inl ⟨rfl, h.null.1 hp⟩
  | some i => exact .inr ⟨i, rfl, h.points i hp⟩

/-- the pointer is right, and no stop polls -/
structure Calm (l : Library) : Prop where
  right : Right l
  polled : l.polled = none

theorem fresh_calm : Calm Library.fresh := ⟨fresh_right, rfl⟩

theorem right_of_none {l : Library} (hp : l.singleInstance = none) (hl : l.live = []) (hf : l.faulted = false) :
    Right l :=
  ⟨by simp [hp, hl], by simp [hp], hf⟩

theorem right_of_some {l : Library} {i : ℕ} (hp : l.singleInstance = some i) (hl : l.live = [i])
    (hf : l.faulted = false) : Right l :=
  ⟨by simp [hp, hl], by simp [hp, hl], hf⟩

/-- a start over a live instance, a stop of one whose terminate action is not answered success, or an abort of one -/
def Loses (l : Library) : LibraryOp → Prop
  | .start _ _ => l.ended = false ∧ l.live ≠ []
  | .stop terminate => l.ended = false ∧ l.live ≠ [] ∧ terminate ≠ .success
  | .abort i => l.ended = false ∧ i ∈ l.live
  | .use => False

instance (l : Library) (o : LibraryOp) : Decidable (Loses l o) := by
  cases o <;> unfold Loses <;> infer_instance

/-- a start whose handle is not NULL fails -/
theorem ccxapiStart_other (plat : Plat) (start : Option StartConfig) (users : ℕ) :
    ∃ s, (ccxapiStart plat false .other start users).1 = .failed s := by
  unfold ccxapiStart
  cases hlog : (loggingLockUp plat users).1 with
  | some s => exact ⟨s, by simp⟩
  | none => exact ⟨.alreadyStarted, by simp [takeRecord]⟩

theorem ccapiStart_calm {l : Library} (h : Calm l) (hlive : l.live = []) (plat : Plat) (start : Option StartConfig) :
    Calm (ccapiStart plat start l) := by
  have hnull := h.right.null.2 hlive
  unfold ccapiStart
  split
  · exact ⟨right_of_some rfl (by simp [hlive]) h.right.sound, h.polled⟩
  · exact ⟨right_of_none rfl hlive h.right.sound, h.polled⟩
  · exact ⟨right_of_none hnull hlive h.right.sound, h.polled⟩

/-- what CCAPI_RUNNING finds where the pointer is right -/
theorem Right.running {l : Library} (h : Right l) : l.running = some l.singleInstance := by
  rcases h.cases with ⟨hp, -⟩ | ⟨i, hp, hl⟩
  · simp [Library.running, hp]
  · simp [Library.running, hp, hl]

/-- a stop that finds no live instance does nothing -/
theorem ccapiStop_none {l : Library} (h : Right l) (hlive : l.live = []) (terminate : Terminate) :
    ccapiStop terminate l = l := by
  simp [ccapiStop, h.running, h.null.2 hlive]

/-- a stop whose terminate action is answered success leaves no live instance, and no pointer -/
theorem ccapiStop_success {l : Library} (h : Right l) :
    ccapiStop .success l = { l with live := [], singleInstance := none } := by
  rcases h.cases with ⟨hp, hl⟩ | ⟨i, hp, hl⟩
  · rw [ccapiStop_none h hl, ← hl, ← hp]
  · simp [ccapiStop, ccapiStopLive, h.running, hp, hl]

theorem ccapiUse_calm {l : Library} (h : Calm l) : Calm (ccapiUse l) := by
  have hne : l.running ≠ none := by simp [h.right.running]
  unfold ccapiUse
  rwa [if_neg hne]

/-- **One step.** A step that does not lose the instance keeps the invariant. -/
theorem step_right (l : Library) (o : LibraryOp) (h : Calm l) (ho : ¬ Loses l o) : Calm (l.step o) := by
  unfold Library.step
  split_ifs with hend
  · exact h
  · rw [h.polled]
    cases o with
    | start plat start =>
      have hlive : l.live = [] := by simpa [Loses, hend] using ho
      exact ccapiStart_calm h hlive plat start
    | stop terminate =>
      by_cases hlive : l.live = []
      · simpa only [ccapiStop_none h.right hlive] using h
      · have hsuccess : terminate = .success := by simpa [Loses, hend, hlive] using ho
        subst hsuccess
        simp only [ccapiStop_success h.right]
        exact ⟨right_of_none rfl rfl h.right.sound, h.polled⟩
    | abort i =>
      have hi : i ∉ l.live := by simpa [Loses, hend] using ho
      simpa [ccxapiAsynchronousStop, hi] using h
    | use => exact ccapiUse_calm h

/-- a stop that the connector accepts leaves no instance -/
def Stoppable (l : Library) : Prop :=
  l.ended = false → (l.step (.stop .success)).live = [] ∧ (l.step (.stop .success)).singleInstance = none

theorem Calm.stoppable {l : Library} (h : Calm l) : Stoppable l := by
  intro hend
  simp [Library.step, hend, h.polled, ccapiStop_success h.right]

/-- a stop whose terminate action is not answered success leaves the pointer to what can no longer be stopped, or to a freed
record that it has read -/
theorem stop_wrong {l : Library} (h : Calm l) (hend : l.ended = false) (hlive : l.live ≠ []) {terminate : Terminate}
    (hne : terminate ≠ .success) : ¬ (Right (l.step (.stop terminate)) ∧ Stoppable (l.step (.stop terminate))) := by
  obtain ⟨i, hp, hl⟩ : ∃ i, l.singleInstance = some i ∧ l.live = [i] := by
    rcases h.right.cases with ⟨-, hl⟩ | hi
    · exact absurd hl hlive
    · exact hi
  have hstep : l.step (.stop terminate) = ccapiStopLive i terminate l := by
    simp [Library.step, hend, h.polled, ccapiStop, h.right.running, hp]
  rw [hstep]
  rintro ⟨hright, hstop⟩
  cases terminate with
  | success => exact hne rfl
  | lost =>
    have hpoints := hright.points i hp
    simp [ccapiStopLive, hl] at hpoints
  | refused =>
    have hgone := (hstop hend).1
    simp [ccapiStopLive, Library.step, hend, hl] at hgone
  | aborted =>
    have hsound := hright.sound
    simp [ccapiStopLive, ccxapiAsynchronousStop, hl] at hsound

/-- a start over a live instance drops its pointer; an abort leaves the pointer to a freed record -/
theorem loses_wrong (l : Library) (o : LibraryOp) (h : Calm l) (ho : Loses l o) :
    ¬ (Right (l.step o) ∧ Stoppable (l.step o)) := by
  cases o with
  | start plat start =>
    rintro ⟨hr, -⟩
    obtain ⟨hend, hlive⟩ := ho
    have hp : l.singleInstance ≠ none := fun hp => hlive (h.right.null.1 hp)
    obtain ⟨s, hs⟩ := ccxapiStart_other plat start (l.live.length + l.dead.length)
    have hstep : l.step (.start plat start) = { l with singleInstance := none } := by
      simp [Library.step, hend, h.polled, ccapiStart, Library.handle, hp, hs]
    rw [hstep] at hr
    exact hlive (hr.null.1 rfl)
  | stop terminate =>
    obtain ⟨hend, hlive, hne⟩ := ho
    exact stop_wrong h hend hlive hne
  | abort i =>
    rintro ⟨hr, -⟩
    obtain ⟨hend, hi⟩ := ho
    rcases h.right.cases with ⟨-, hl⟩ | ⟨j, hp, hl⟩
    · rw [hl] at hi
      cases hi
    · have hij : i = j := by simpa [hl] using hi
      subst hij
      have hstep : l.step (.abort i) = { l with live := [] } := by
        simp [Library.step, hend, ccxapiAsynchronousStop, hl, h.polled]
      rw [hstep] at hr
      have := hr.points i hp
      cases this
  | use => exact ho.elim

/-! ## Main results -/

/-- **The instance pointer.** For every sequence of starts, stops, aborts and other calls: after each of them the pointer
is NULL exactly when no instance is live and points to the live one otherwise, none has looked into a freed record, and
what is live can be stopped, exactly when no start is made over a live instance, no live instance aborts, and every stop of a
live instance has its terminate action answered success. -/
theorem pointer_right_iff (ops : List LibraryOp) :
    (∀ k, Right (run Library.step Library.fresh (ops.take k)) ∧
      Stoppable (run Library.step Library.fresh (ops.take k))) ↔
      Along Library.step (fun l o => ¬ Loses l o) Library.fresh ops :=
  along_iff (I := Calm) (P := fun l => Right l ∧ Stoppable l) (fun _ h => ⟨h.right, h.stoppable⟩) step_right
    (fun l o h hr ho => loses_wrong l o h ho hr) fresh_calm ops

/-- a platform that grants everything -/
def granting : Plat :=
  { debug := false, malloc := fun _ => true, lockCreate := fun _ => true, lockRelease := fun _ => true,
    connectorInit := true, condAlloc := true, condInit := true, createThread := fun _ => true, stale := false }

/-- a configuration without services -/
def plainStart : StartConfig :=
  { vendorId := 1, deviceId := List.replicate 16 1, deviceCloudUrl := some (ascii "cloud"),
    deviceType := some (ascii "device"), firmware := none, receive := false, cli := none, sm := none, rci := none }

/-- **A second start** fails, and the running instance cannot be stopped any more. -/
theorem second_start_drops : ¬ ∀ ops : List LibraryOp, Right (run Library.step Library.fresh ops) := by
  intro h
  have hr := h [.start granting (some plainStart), .start granting (some plainStart)]
  have hlive := hr.null.1 (by decide)
  exact absurd hlive (by decide)

end CcApi.Instance
