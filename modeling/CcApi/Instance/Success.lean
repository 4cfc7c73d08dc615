/-
What a start that succeeds leaves (`ccxapi_start` of `ccapi_init.c`), against what the end of its instance gives back
(`ccapi_stop_thread` and `free_ccapi_data_internal_resources`).

The record of a started instance depends on its configuration alone, so it is written down once (`filled`), and every step of
the start is shown to lead there if it succeeds.

- `leaves_fillRecord`: a start that succeeds leaves that record, whatever the platform answers.
- `count_filled`: the stop of such an instance gives back what its start has acquired, item by item.
- `ccxapiStart_started`: the same of the call.
-/
import CcApi.Instance.Failure

namespace CcApi.Instance

open Lib Lib.Prog

/-! ## The end of an instance's threads -/

/-- `ccapi_stop_thread` destroys the lock of a thread that has a record -/
def stopThread (r : Record) (w : Worker) : List Item := if (r.thread w).isSome then [.threadLock w] else []

/-- the threads that both endings stop -/
def stopServices (r : Record) : List Item :=
  (if r.rciSupported then stopThread r .rci else []) ++
  (if r.receiveSupported then stopThread r .receive else []) ++
  (if r.cliSupported then stopThread r .cli else []) ++
  (if r.firmwareSupported && (r.thread .firmware).isSome then stopThread r .firmware else [])

/-! ## The record of a started instance -/

/-- the configuration calls for a worker -/
def StartConfig.hasWorker (c : StartConfig) : Worker → Bool
  | .connectorRun => true
  | .rci => c.rci.isSome
  | .receive => c.receive
  | .cli => c.cli.isSome
  | .firmware => c.firmware.isSome

/-- the number of the firmware's targets -/
def StartConfig.targetCount (c : StartConfig) : ℕ := (c.firmware.bind FirmwareService.targets).getD 0

/-- the record at the end of a start that succeeds -/
def filled (c : StartConfig) : Record :=
  { deviceType := some .deviceType
    deviceCloudUrl := some .deviceCloudUrl
    firmwareSupported := c.firmware.isSome || c.rci.isSome
    receiveSupported := c.receive
    cliSupported := c.cli.isSome
    rciSupported := c.rci.isSome
    targetItem := if c.firmware.isSome || c.rci.isSome then some .targetItem else none
    targets :=
      if c.firmware.isSome then targetsAt c.targetCount c.targetCount else if c.rci.isSome then [(none, none)] else []
    receiveLock := if c.receive then some .receiveLock else none
    cond := some .condition
    thread := fun w => if c.hasWorker w then some (.threadInfo w) else none
    initiateActionLock := some .initiateActionLock
    fileSystemLock := some .fileSystemLock }

def threadItems (c : StartConfig) (w : Worker) : List Item := if c.hasWorker w then [.threadInfo w, .threadLock w] else []

def firmwareItems (c : StartConfig) : List Item :=
  if c.firmware.isSome then .targetItem :: (List.range c.targetCount).flatMap fun i => [.description i, .filespec i]
  else if c.rci.isSome then [.targetItem] else []

/-- what such a start has acquired behind its record, in order -/
def filledItems (c : StartConfig) : List Item :=
  [Item.deviceType, Item.deviceCloudUrl] ++ firmwareItems c ++ (if c.receive then [Item.receiveLock] else []) ++
  [Item.condition, Item.conditionState] ++ threadItems c .connectorRun ++ threadItems c .rci ++ threadItems c .receive ++
  threadItems c .cli ++ threadItems c .firmware ++ [Item.initiateActionLock, Item.fileSystemLock]

/-- if m succeeds from t, it leaves u -/
def Leaves (m : Start Unit) (t u : Work) : Prop := wp m (fun _ v => v = u) (fun _ _ => True) t

section Leaves

variable {m n : Start Unit} {t u v : Work} {plat : Plat}

theorem leaves_bind (h : Leaves m t u) (h' : Leaves n u v) : Leaves (m >>= fun _ => n) t v := by
  unfold Leaves at *
  rw [wp_bind]
  refine wp_mono h (fun _ w hw => ?_) fun _ _ _ => trivial
  rwa [hw]

theorem leaves_pure (t : Work) : Leaves (pure ()) t t := rfl

theorem leaves_fail (s : Site) (t u : Work) : Leaves (fail s) t u := trivial

theorem leaves_setData (f : Record → Record) (t : Work) : Leaves (setData f) t { t with data := f t.data } := rfl

theorem leaves_acquire (x : Item) (t : Work) : Leaves (acquire x) t { t with acquired := t.acquired ++ [x] } := rfl

theorem leaves_request (granted : Bool) (x : Item) (s : Site) (t : Work) :
    Leaves (request granted x s) t { t with acquired := t.acquired ++ [x] } :=
  wp_request (fun _ => rfl) fun _ => trivial

theorem leaves_ite {p : Prop} [Decidable p] (h : p → Leaves m t u) (h' : ¬ p → Leaves n t u) :
    Leaves (if p then m else n) t u := by
  split_ifs with hp
  · exact h hp
  · exact h' hp

theorem leaves_lockCreateAndRelease (x : Item) (create release : Site) (t : Work) :
    Leaves (lockCreateAndRelease plat x create release) t { t with acquired := t.acquired ++ [x] } :=
  leaves_bind (leaves_request _ x create t) (leaves_ite (fun _ => leaves_pure _) fun _ => leaves_fail _ _ _)

theorem Leaves.as (h : Leaves m t u) (he : u = v) : Leaves m t v := he ▸ h

theorem leaves_checkParams (c : StartConfig) (t : Work) : Leaves (checkParams c) t t := by
  unfold checkParams
  apply leaves_ite (fun _ => leaves_fail _ _ _)
  intro _
  apply leaves_ite (fun _ => leaves_fail _ _ _)
  intro _
  apply leaves_ite (fun _ => leaves_fail _ _ _)
  intro _
  exact leaves_ite (fun _ => leaves_fail _ _ _) fun _ => leaves_pure t

theorem leaves_copyStrings (t : Work) : Leaves (copyStrings plat) t
    { t with
      data := { t.data with deviceType := some .deviceType, deviceCloudUrl := some .deviceCloudUrl }
      acquired := t.acquired ++ [.deviceType, .deviceCloudUrl] } := by
  unfold copyStrings
  refine (leaves_bind (leaves_request _ _ _ t) (leaves_bind (leaves_setData _ _)
    (leaves_bind (leaves_request _ _ _ _) (leaves_setData _ _)))).as ?_
  simp

/-- the loop over the targets; the induction is on how many are left -/
theorem leaves_copyTargets {n : ℕ} (m k : ℕ) (hm : k + m = n) (t : Work) (ht : t.data.targets = targetsAt n k) :
    Leaves (copyTargets plat (List.range' k m)) t
      { t with
        data := { t.data with targets := targetsAt n n }
        acquired := t.acquired ++ (List.range' k m).flatMap fun i => [.description i, .filespec i] } := by
  induction m generalizing k t with
  | zero =>
    obtain rfl : k = n := by omega
    refine (leaves_pure t).as ?_
    simp [← ht]
  | succ m ih =>
    rw [List.range'_succ]
    unfold copyTargets copyTarget
    have hone : Leaves (copyTarget plat k) t
        { t with
          data := { t.data with targets := targetsAt n (k + 1) }
          acquired := t.acquired ++ [.description k, .filespec k] } := by
      unfold copyTarget
      refine (leaves_bind (leaves_request _ _ _ t) (leaves_bind (leaves_setData _ _)
        (leaves_bind (leaves_request _ _ _ _) (leaves_setData _ _)))).as ?_
      simp [ht, List.set_set, targetsAt_set]
    refine (leaves_bind hone (ih (k + 1) (by omega) _ rfl)).as ?_
    simp

theorem leaves_copyAll (n : ℕ) (t : Work)
    (ht : t.data.targets = (List.range n).map fun i => (some (.callerDescription i), some (.callerFilespec i))) :
    Leaves (copyTargets plat (List.range n)) t
      { t with
        data := { t.data with targets := targetsAt n n }
        acquired := t.acquired ++ (List.range n).flatMap fun i => [.description i, .filespec i] } := by
  rw [List.range_eq_range']
  apply leaves_copyTargets n 0 (Nat.zero_add n)
  rw [ht]
  simp [targetsAt]

theorem leaves_firmwareStep (c : StartConfig) (t : Work) (hitem : t.data.targetItem = none) (htargets : t.data.targets = [])
    (hsupported : t.data.firmwareSupported = false) : Leaves (firmwareStep plat c) t
      { t with
        data := { t.data with
          firmwareSupported := (filled c).firmwareSupported
          targetItem := (filled c).targetItem
          targets := (filled c).targets }
        acquired := t.acquired ++ firmwareItems c } := by
  unfold firmwareStep
  cases hf : c.firmware with
  | none =>
    cases hr : c.rci with
    | none =>
      refine (leaves_pure t).as ?_
      obtain ⟨d, acquired, running⟩ := t
      cases d
      simp_all [filled, firmwareItems]
    | some hasRciData =>
      refine leaves_ite (fun _ => trivial) fun _ => ?_
      refine (leaves_bind (leaves_request _ _ _ t) (leaves_setData _ _)).as ?_
      simp [filled, firmwareItems, hf, hr]
  | some f =>
    refine leaves_ite (fun _ => leaves_fail _ _ _) fun _ => ?_
    rcases hn : f.targets with _ | _ | n
    · exact leaves_fail _ _ _
    · exact leaves_fail _ _ _
    · have hcount : c.targetCount = n + 1 := by simp [StartConfig.targetCount, hf, hn]
      refine (leaves_bind (leaves_request _ _ _ t) (leaves_bind (leaves_setData _ _)
        (leaves_bind (leaves_copyAll (n + 1) _ rfl) (leaves_setData _ _)))).as ?_
      simp [filled, firmwareItems, hf, hcount]

theorem leaves_receiveStep (c : StartConfig) (t : Work) (hlock : t.data.receiveLock = none)
    (hsupported : t.data.receiveSupported = false) : Leaves (receiveStep plat c) t
      { t with
        data := { t.data with receiveLock := (filled c).receiveLock, receiveSupported := c.receive }
        acquired := t.acquired ++ if c.receive then [.receiveLock] else [] } := by
  unfold receiveStep
  cases hc : c.receive with
  | false =>
    refine (leaves_pure t).as ?_
    obtain ⟨d, acquired, running⟩ := t
    cases d
    simp_all [filled]
  | true =>
    refine (leaves_bind (leaves_lockCreateAndRelease _ _ _ t) (leaves_setData _ _)).as ?_
    simp [filled, hc]

theorem leaves_cliStep (c : StartConfig) (t : Work) (h : t.data.cliSupported = false) :
    Leaves (cliStep c) t { t with data := { t.data with cliSupported := c.cli.isSome } } := by
  unfold cliStep
  rcases c.cli with _ | _ | _
  · refine (leaves_pure t).as ?_
    simp [← h]
  · exact leaves_fail _ _ _
  · exact leaves_setData _ t

theorem leaves_smStep (c : StartConfig) (t : Work) : Leaves (smStep c) t t := by
  unfold smStep
  rcases c.sm with _ | _ | e
  · exact leaves_pure t
  · exact leaves_fail _ _ _
  · exact leaves_ite (fun _ => leaves_pure t) fun _ => leaves_fail _ _ _

theorem leaves_rciStep (c : StartConfig) (t : Work) (h : t.data.rciSupported = false) :
    Leaves (rciStep c) t { t with data := { t.data with rciSupported := c.rci.isSome } } := by
  unfold rciStep
  rcases c.rci with _ | _ | _
  · refine (leaves_pure t).as ?_
    simp [← h]
  · exact leaves_fail _ _ _
  · exact leaves_setData _ t

theorem leaves_connectorStep (t : Work) : Leaves (connectorStep plat) t
    { t with
      data := { t.data with cond := some .condition }
      acquired := t.acquired ++ [.condition, .conditionState] } := by
  unfold connectorStep
  refine leaves_ite (fun _ => leaves_fail _ _ _) fun _ => ?_
  refine leaves_ite (fun _ => ?_) fun _ => ?_
  · refine (leaves_bind (leaves_acquire _ t) (leaves_bind (leaves_setData _ _) (leaves_request _ _ _ _))).as ?_
    simp
  · exact leaves_bind (leaves_setData _ t) (leaves_fail _ _ _)

theorem leaves_createAndStartThread (w : Worker) (t : Work) : Leaves (createAndStartThread plat w) t
    { data := { t.data with thread := Function.update t.data.thread w (some (.threadInfo w)) }
      acquired := t.acquired ++ [.threadInfo w, .threadLock w]
      running := t.running ++ [w] } := by
  unfold createAndStartThread
  refine (leaves_bind (leaves_request _ _ _ t) (leaves_bind (leaves_request _ _ _ _) (leaves_bind (leaves_setData _ _)
    (leaves_ite (u := ?_) (fun _ => ?_) fun _ => leaves_fail _ _ _)))).as ?_
  rotate_left
  · exact rfl
  · simp

theorem leaves_threadIf (b : Bool) (w : Worker) (t : Work) : Leaves (threadIf plat b w) t
    { data := { t.data with thread := if b then Function.update t.data.thread w (some (.threadInfo w)) else t.data.thread }
      acquired := t.acquired ++ if b then [.threadInfo w, .threadLock w] else []
      running := t.running ++ if b then [w] else [] } := by
  unfold threadIf
  cases b with
  | false =>
    refine (leaves_pure t).as ?_
    simp
  | true => exact leaves_createAndStartThread w t

/-- the workers of an instance, in the order of their start -/
def StartConfig.workers (c : StartConfig) : List Worker :=
  [.connectorRun] ++ (if c.rci.isSome then [.rci] else []) ++ (if c.receive then [.receive] else []) ++
  (if c.cli.isSome then [.cli] else []) ++ if c.firmware.isSome then [.firmware] else []

theorem leaves_threadsStep (c : StartConfig) (t : Work) (h : t.data.thread = fun _ => none) :
    Leaves (threadsStep plat c) t
      { data := { t.data with thread := (filled c).thread }
        acquired := t.acquired ++ (threadItems c .connectorRun ++ threadItems c .rci ++ threadItems c .receive ++
          threadItems c .cli ++ threadItems c .firmware)
        running := t.running ++ c.workers } := by
  unfold threadsStep
  refine (leaves_bind (leaves_createAndStartThread _ t) (leaves_bind (leaves_threadIf _ _ _)
    (leaves_bind (leaves_threadIf _ _ _) (leaves_bind (leaves_threadIf _ _ _) (leaves_threadIf _ _ _))))).as ?_
  rw [Work.mk.injEq, Record.mk.injEq]
  refine ⟨⟨rfl, rfl, rfl, rfl, rfl, rfl, rfl, rfl, rfl, rfl, funext fun w => ?_, rfl, rfl⟩, ?_, ?_⟩
  · rw [h]
    cases w <;> by_cases hr : c.rci.isSome = true <;> by_cases he : c.receive = true <;>
      by_cases hl : c.cli.isSome = true <;> by_cases hf : c.firmware.isSome = true <;>
      simp [filled, StartConfig.hasWorker, hr, he, hl, hf]
  · simp only [List.append_assoc]
    rfl
  · simp [StartConfig.workers]

theorem leaves_locksStep (t : Work) : Leaves (locksStep plat) t
    { t with
      data := { t.data with initiateActionLock := some .initiateActionLock, fileSystemLock := some .fileSystemLock }
      acquired := t.acquired ++ [.initiateActionLock, .fileSystemLock] } := by
  unfold locksStep
  refine (leaves_bind (leaves_lockCreateAndRelease _ _ _ t) (leaves_bind (leaves_setData _ _)
    (leaves_bind (leaves_lockCreateAndRelease _ _ _ _) (leaves_setData _ _)))).as ?_
  simp

/-- **A start that succeeds** leaves the same record and has acquired the same things whatever the platform is. -/
theorem leaves_fillRecord (c : StartConfig) (stale : Bool) (acquired : List Item) :
    Leaves (fillRecord plat (some c)) ⟨Record.fresh stale, acquired, []⟩ ⟨filled c, acquired ++ filledItems c, c.workers⟩ := by
  unfold fillRecord
  refine (leaves_bind (leaves_checkParams c _) (leaves_bind (leaves_copyStrings _)
    (leaves_bind (leaves_firmwareStep c _ rfl rfl rfl) (leaves_bind (leaves_receiveStep c _ rfl rfl)
    (leaves_bind (leaves_cliStep c _ rfl) (leaves_bind (leaves_smStep c _) (leaves_bind (leaves_rciStep c _ rfl)
    (leaves_bind (leaves_connectorStep _) (leaves_bind (leaves_threadsStep c _ rfl) (leaves_locksStep _)))))))))).as ?_
  simp [filled, filledItems]

end Leaves

/-- the two items of a worker -/
theorem count_worker (c : StartConfig) (w : Worker) (x : Item) :
    (stopThread (filled c) w).count x + (given ((filled c).thread w)).count x = (threadItems c w).count x := by
  unfold stopThread threadItems
  by_cases hw : c.hasWorker w = true
  · simp only [filled, hw, if_true, Option.isSome_some, given, Option.toList_some, List.count_cons, List.count_nil]
    omega
  · simp [filled, hw, given]

theorem stopServices_filled (c : StartConfig) : stopServices (filled c) =
    stopThread (filled c) .rci ++ stopThread (filled c) .receive ++ stopThread (filled c) .cli ++
      stopThread (filled c) .firmware := by
  have hnone (w : Worker) (hw : c.hasWorker w = false) : stopThread (filled c) w = [] := by
    simp [stopThread, filled, hw]
  have hite (b : Bool) (w : Worker) (hb : b = c.hasWorker w) :
      (if b then stopThread (filled c) w else []) = stopThread (filled c) w := by
    cases b with
    | true => rfl
    | false => exact (hnone w hb.symm).symm
  unfold stopServices
  rw [hite (filled c).rciSupported .rci rfl, hite (filled c).receiveSupported .receive rfl,
    hite (filled c).cliSupported .cli rfl, hite ((filled c).firmwareSupported && _) .firmware]
  by_cases hf : c.firmware.isSome = true <;> simp [filled, StartConfig.hasWorker, hf]

/-- what the release finds in the record -/
theorem count_internalResources (c : StartConfig) (hc : c.firmware.isSome = true → c.targetCount ≠ 0) (x : Item) :
    (internalResources (filled c)).count x =
      ([.fileSystemLock, .deviceType, .deviceCloudUrl, .initiateActionLock, .conditionState, .condition] : List Item).count x +
      (if c.receive then [.receiveLock] else [] : List Item).count x + (firmwareItems c).count x +
      (given ((filled c).thread .connectorRun)).count x + (given ((filled c).thread .rci)).count x +
      (given ((filled c).thread .receive)).count x + (given ((filled c).thread .cli)).count x +
      (given ((filled c).thread .firmware)).count x := by
  have hlength := targetsAt_length c.targetCount c.targetCount
  have htargets := givenTargets_copied c.targetCount
  have hfirmware : (if (filled c).targets.length ≠ 0 && (filled c).targetItem.isSome then
      givenTargets (filled c).targets ++ given (filled c).targetItem ++ given ((filled c).thread .firmware) else []).count x =
      (firmwareItems c).count x + (given ((filled c).thread .firmware)).count x := by
    by_cases hf : c.firmware.isSome = true
    · simp [filled, firmwareItems, StartConfig.hasWorker, hf, hlength, htargets, hc hf, given, List.count_cons]
      omega
    · by_cases hr : c.rci.isSome = true <;> simp [filled, firmwareItems, StartConfig.hasWorker, hf, hr, given, givenTargets]
  unfold internalResources
  simp only [List.count_append]
  rw [hfirmware]
  by_cases hr : c.rci.isSome = true <;> by_cases he : c.receive = true <;> by_cases hl : c.cli.isSome = true <;>
    simp [filled, StartConfig.hasWorker, hr, he, hl, given, givenCond, List.count_cons] <;> omega

/-- **Nothing is forgotten.** What the stop of an instance gives back is what its start has acquired. -/
theorem count_filled (c : StartConfig) (hc : c.firmware.isSome = true → c.targetCount ≠ 0) (x : Item) :
    (stopThread (filled c) .connectorRun ++ stopServices (filled c) ++ internalResources (filled c)).count x =
      (filledItems c).count x := by
  have hworker := count_worker c
  have h₁ := hworker .connectorRun x
  have h₂ := hworker .rci x
  have h₃ := hworker .receive x
  have h₄ := hworker .cli x
  have h₅ := hworker .firmware x
  simp only [stopServices_filled, filledItems, List.count_append, count_internalResources c hc, List.count_cons,
    List.count_nil] at *
  omega

/-! ## The call -/

/-- the record a start leaves -/
def recordOf (plat : Plat) (start : Option StartConfig) (users : ℕ) : Record :=
  (fillRecord plat start ⟨Record.fresh plat.stale, (loggingLockUp plat users).2 ++ [Item.record], []⟩).2.data

/-- a firmware service without targets fails the start -/
theorem wp_fillRecord_targets {plat : Plat} (c : StartConfig) (t : Work) :
    wp (fillRecord plat (some c)) (fun _ _ => c.firmware.isSome = true → c.targetCount ≠ 0) (fun _ _ => True) t := by
  have hstep (u : Work) :
      wp (firmwareStep plat c) (fun _ _ => c.firmware.isSome = true → c.targetCount ≠ 0) (fun _ _ => True) u := by
    unfold firmwareStep
    cases hf : c.firmware with
    | none => exact wp_of_forall (by simp) fun _ _ => trivial
    | some f =>
      change wp (firmwareService plat f) _ _ u
      unfold firmwareService
      rw [wp_ite]
      split_ifs
      · trivial
      · rcases hn : f.targets with _ | _ | n
        · trivial
        · trivial
        · refine wp_of_forall (fun _ _ _ => ?_) fun _ _ => trivial
          simp [StartConfig.targetCount, hf, hn]
  unfold fillRecord
  simp only [wp_bind]
  refine wp_mono (wp_of_forall (Q := fun _ _ => True) (fun _ _ => trivial) fun _ _ => trivial) (fun _ _ _ => ?_) fun _ _ h => h
  refine wp_mono (wp_of_forall (Q := fun _ _ => True) (fun _ _ => trivial) fun _ _ => trivial) (fun _ u _ => ?_) fun _ _ h => h
  refine wp_mono (hstep u) (fun _ _ h => ?_) fun _ _ h => h
  simp only [← wp_bind]
  exact wp_of_forall (fun _ _ => h) fun _ _ => trivial

/-- a start that succeeds: its configuration, its record, and what it has acquired -/
theorem ccxapiStart_started {plat : Plat} {noHandle : Bool} {handle : Handle} {start : Option StartConfig} {users : ℕ}
    {t : After} (h : ccxapiStart plat noHandle handle start users = (.started, t)) :
    ∃ c, recordOf plat start users = filled c ∧ (c.firmware.isSome = true → c.targetCount ≠ 0) ∧
      t.acquired = (if plat.debug ∧ users = 0 then [.loggingLock] else []) ++ .record :: filledItems c := by
  unfold ccxapiStart at h
  dsimp only at h
  split at h
  · cases h
  · rename_i hs
    have hlog : (loggingLockUp plat users).2 = if plat.debug ∧ users = 0 then [.loggingLock] else [] := by
      have hup := (Option.or_eq_none_iff.1 hs).1
      unfold loggingLockUp at hup ⊢
      split_ifs at hup ⊢
      · rfl
      · rfl
    split at h
    · rename_i t' ht
      obtain rfl : t = ⟨.record, t'.acquired, [], t'.running⟩ := (Prod.ext_iff.1 h).2.symm
      cases start with
      | none => cases ht
      | some c =>
        have hleaves := @leaves_fillRecord plat c plat.stale ((loggingLockUp plat users).2 ++ [.record])
        have htargets := @wp_fillRecord_targets plat c
          ⟨Record.fresh plat.stale, (loggingLockUp plat users).2 ++ [.record], []⟩
        unfold Leaves wp at hleaves
        unfold wp at htargets
        rw [ht] at hleaves htargets
        dsimp only at hleaves htargets
        refine ⟨c, ?_, htargets, ?_⟩
        · rw [recordOf, ht, hleaves]
        · rw [hleaves, ← hlog]
          simp
    · cases h
    · cases h

end CcApi.Instance
