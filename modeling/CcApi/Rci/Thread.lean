/-
The RCI service as one machine: the connector, which presents a request until it is answered continue and may cancel,
and the worker (`ccapi_rci_thread`, `ccapi_rci_handler.c`).

The worker takes its steps where the connector's thread can come in between: it wakes, reads the callback record and
checks it, calls the user, stores the error, and updates the status. What the user callback leaves in the instance record
is there when it returns.

- `queue_skip`, `queue_type`: what a request queues, by whether its callback is there.
- `runnable_iff`: which queued callbacks pass the worker's asserts.
- `step_sim`: the machine is a request handshake.
-/
import CcApi.Lib.Handshake
import CcApi.Rci.Handler

namespace CcApi.Rci

open Lib Lib.Runs

/-! ## Model -/

/-- what a user callback returns, and what it leaves in the fields of its `rci_info` that are not constant for it -/
structure UserResult where
  error : ℕ
  matches_ : Bool
  embedTransformedValues : Bool
  errorHint : Option ℕ
  userContext : Option ℕ
deriving DecidableEq, Repr

def RciInfo.returned (u : UserResult) (info : RciInfo) : RciInfo :=
  { info with querySetting := { info.querySetting with matches_ := u.matches_ },
              embedTransformedValues := u.embedTransformedValues, errorHint := u.errorHint, userContext := u.userContext }

/-- the worker's asserts on the callback record -/
def Callback.runnable (c : Callback) : Bool :=
  match c.type with
  | .none => false
  | .base => c.function.isSome
  | _ => c.function.isSome && c.second.isSome

/-- a request of the connector; queued is what has been queued for it, busy counts its busy answers -/
structure Request where
  serial : ℕ
  id : RequestId
  rc : RemoteConfig
  queued : Option (CbType × Option CbName)
  busy : ℕ

/-- a request answered continue, and the record as it is given back -/
structure Answer where
  request : Request
  record : RemoteConfig

/-- an invocation of a user callback, and the request it was queued for -/
structure Call where
  request : Option Request
  function : Option CbName
  info : RciInfo

inductive Pc where
  | waiting
  | woken
  | ready (c : Callback)
  | calling
  | returned (error : ℕ)
  | stored
  | exited
deriving DecidableEq, Repr

structure St where
  svc : Svc
  /-- the count of the worker's semaphore -/
  lock : ℕ
  stopping : Bool
  pc : Pc
  request : Option Request
  /-- the serial number of the next request -/
  next : ℕ
  /-- the request whose callback the record holds -/
  owner : Option Request
  /-- the request whose callback the worker has read -/
  serving : Option Request
  cancelled : Bool
  calls : List Call
  /-- the results of the user callbacks, with the request's serial number -/
  results : List (ℕ × UserResult)
  answers : List Answer

inductive Op where
  | submit (id : RequestId) (rc : RemoteConfig)
  | poll
  | cancel (rc : RemoteConfig)
  | stop
  | wake
  | read
  | call
  | ret (u : UserResult)
  | store
  | update

variable (cfg : Config)

/-- the connector calls the handler with request r -/
def present (r : Request) (s : St) : St :=
  match handler cfg r.id r.rc s.svc with
  | (svc, .busy, _, released) =>
    if released then
      let r := { r with queued := some (svc.callback.type, svc.callback.function), busy := r.busy + 1 }
      { s with svc := svc, request := some r, lock := s.lock + 1, owner := some r }
    else { s with svc := svc, request := some { r with busy := r.busy + 1 } }
  | (svc, _, rc, _) => { s with svc := svc, request := none, owner := none, answers := s.answers ++ [⟨r, rc⟩] }

def step (s : St) : Op → St
  | .submit id rc =>
    if s.request.isSome ∨ id = .sessionCancel then s
    else present cfg ⟨s.next, id, rc, none, 0⟩ { s with next := s.next + 1 }
  | .poll =>
    match s.request with
    | some r => present cfg r s
    | none => s
  | .cancel rc =>
    { s with svc := (handler cfg .sessionCancel rc s.svc).1, request := none, owner := none, cancelled := true }
  | .stop => if s.stopping then s else { s with stopping := true, lock := s.lock + 1 }
  | .wake =>
    match s.pc, s.lock with
    | .waiting, k + 1 => { s with lock := k, pc := if s.stopping then .exited else .woken }
    | _, _ => s
  | .read =>
    match s.pc with
    | .woken =>
      if s.svc.status = .cbQueued ∧ s.svc.callback.runnable then
        { s with pc := .ready s.svc.callback, serving := s.owner }
      else { s with pc := .exited }
    | _ => s
  | .call =>
    match s.pc with
    | .ready c => { s with pc := .calling, calls := s.calls ++ [⟨s.serving, c.function, s.svc.info⟩] }
    | _ => s
  | .ret u =>
    match s.pc with
    | .calling =>
      { s with pc := .returned u.error, svc := { s.svc with info := s.svc.info.returned u },
               results := s.results ++ [((s.serving.map Request.serial).getD 0, u)] }
    | _ => s
  | .store =>
    match s.pc with
    | .returned e => { s with pc := .stored, svc := { s.svc with callback := { s.svc.callback with error := e } } }
    | _ => s
  | .update =>
    match s.pc with
    | .stored =>
      { s with svc := { s.svc with status := if s.svc.status = .cbQueued then .cbProcessed else s.svc.status },
               pc := if s.stopping then .exited else .waiting }
    | _ => s

/-- the service as `ccapi_start` leaves it; the instance record is not set -/
structure Init (s : St) : Prop where
  status : s.svc.status = .idle
  type : s.svc.callback.type = .none
  lock : s.lock = 0
  running : s.stopping = false ∧ s.cancelled = false
  pc : s.pc = .waiting
  request : s.request = none ∧ s.owner = none ∧ s.serving = none
  history : s.next = 0 ∧ s.calls = [] ∧ s.results = [] ∧ s.answers = []

/-- an instance record of zeros -/
def RciInfo.zero : RciInfo where
  groupType := some .setting
  group := ⟨0, some .fixedArray, .index 0, none⟩
  list := ⟨0, fun _ => ⟨0, some .fixedArray, .index 0, none⟩, []⟩
  element := ⟨0, none, none⟩
  querySetting := ⟨some .none, some .current, false⟩
  embedTransformedValues := false
  doCommand := ⟨none, none, none⟩
  action := some .set
  errorHint := none
  userContext := none

def St.fresh (info : RciInfo) : St where
  svc := ⟨info, ⟨.none, none, none, none, 0⟩, .idle⟩
  lock := 0
  stopping := false
  pc := .waiting
  request := none
  next := 0
  owner := none
  serving := none
  cancelled := false
  calls := []
  results := []
  answers := []

theorem init_fresh (info : RciInfo) : Init (.fresh info) :=
  ⟨rfl, rfl, rfl, ⟨rfl, rfl⟩, rfl, ⟨rfl, rfl, rfl⟩, ⟨rfl, rfl, rfl, rfl⟩⟩

/-- a record for a query on settings with every pointer there -/
def RemoteConfig.plain : RemoteConfig where
  action := .query
  groupType := .setting
  group := ⟨0, some .fixedArray, .index 1, none⟩
  listDepth := 0
  listLevel := fun _ => ⟨0, some .fixedArray, .index 1, none⟩
  element := ⟨0, none, .uint32, some 1, none⟩
  attributes := ⟨.current, .none, false, none⟩
  userContext := some 1
  errorId := 0
  response := ⟨none, false, some 2, 3⟩

/-! ## What a request queues -/

/-- the callback each request but element_process is for -/
def RequestId.callback : RequestId → Option CbName
  | .sessionStart => some .startSession
  | .actionStart => some .startAction
  | .doCommand => some .doCommand
  | .reboot => some .reboot
  | .setFactoryDef => some .setFactoryDefaults
  | .groupInstancesLock => some .lockGroupInstances
  | .groupInstancesSet => some .setGroupInstances
  | .groupInstanceRemove => some .removeGroupInstance
  | .groupInstancesUnlock => some .unlockGroupInstances
  | .groupStart => some .startGroup
  | .listInstancesLock => some .lockListInstances
  | .listInstancesSet => some .setListInstances
  | .listInstanceRemove => some .removeListInstance
  | .listInstancesUnlock => some .unlockListInstances
  | .listStart => some .startList
  | .listEnd => some .endList
  | .groupEnd => some .endGroup
  | .actionEnd => some .endAction
  | .sessionEnd => some .endSession
  | .elementProcess | .sessionCancel => none

/-- a callback is there for the request -/
def Config.handles (info : RciInfo) (id : RequestId) : Bool :=
  match id with
  | .elementProcess => haveHandler cfg info
  | id => id.callback.any cfg.registered

/-- a collection whose number of members is not fixed -/
def Place.Variable (p : Place) : Prop :=
  p.collectionType = some .variableArray ∨ p.collectionType = some .variableDictionary

instance (p : Place) : Decidable p.Variable := inferInstanceAs (Decidable (_ ∨ _))

/-- the collection a request locks -/
def RequestId.locks (id : RequestId) (rc : RemoteConfig) : Option Place :=
  match id with
  | .groupInstancesLock => some rc.group
  | .listInstancesLock => some (rc.listLevel (RciInfo.listIndex rc))
  | _ => none

/-- the pointers the worker asserts are there: the element's callback and value, and the item of a collection that is
locked, which is left as it was for a collection of fixed size -/
def PointersGiven (info : RciInfo) (second : Option ℕ) (id : RequestId) (rc : RemoteConfig) : Prop :=
  match id with
  | .elementProcess =>
    (info.action = some .query → rc.response.elementValue ≠ none) ∧
    (info.action = some .set → rc.element.value ≠ none ∧
      (info.embedTransformedValues = true → cfg.registered .setAndTransformElement = true))
  | id => ∀ place, id.locks rc = some place → place.Variable ∨ second ≠ none

theorem RciInfo.enterGroup_group_variable (maxDepth : ℕ) (rc : RemoteConfig) (info : RciInfo) :
    ((info.enterGroup maxDepth rc id).group).Variable ↔ rc.group.Variable := by
  simp [enterGroup, clearAllLists_eq, clearElement, Place.Variable]

theorem RciInfo.enterList_level_variable (rc : RemoteConfig) (info : RciInfo) :
    ((info.enterList rc id).list.data (listIndex rc)).Variable ↔ (rc.listLevel (listIndex rc)).Variable := by
  simp [enterList, atLevel, clearElement, Place.Variable]

section Queueing

variable {n : CbName} {f : RciInfo → RciInfo} {get : RciInfo → Place} {rc : RemoteConfig} {p : RciInfo × Callback}

theorem queueBase_skip (h : cfg.registered n = false) : queueBase cfg n f p = p := by
  simp [queueBase, h]

theorem queueBase_eq (h : cfg.registered n = true) :
    queueBase cfg n f p = (f p.1, { p.2 with type := .base, function := some n }) := by
  simp [queueBase, h]

theorem queueLock_skip (h : cfg.registered n = false) : queueLock cfg n f get rc p = p := by
  simp [queueLock, h]

theorem queueLock_eq (h : cfg.registered n = true) : queueLock cfg n f get rc p =
    (f p.1, { p.2 with
      type := .lock, function := some n,
      second := if (get (f p.1)).Variable then some rc.response.item else p.2.second }) := by
  simp only [queueLock, h, if_true]
  rcases hc : (get (f p.1)).collectionType with _ | c
  · simp [Place.Variable, hc]
  · cases c <;> simp [Place.Variable, hc]

theorem queueElement_skip (h : haveHandler cfg p.1 = false) : queueElement cfg rc p = p := by
  simp [queueElement, h]

theorem queueElement_eq (h : haveHandler cfg p.1 = true) :
    queueElement cfg rc p = (enterElement rc p.1, elementCallback cfg rc p.1 p.2) := by
  simp [queueElement, h]

/-- an element's handler is there for a query or for a set -/
theorem haveHandler_cases {info : RciInfo} (h : haveHandler cfg info = true) :
    (info.action = some .query ∧ cfg.registered .getElement = true) ∨
      (info.action = some .set ∧ cfg.registered .setElement = true) := by
  simpa only [haveHandler, decide_eq_true_eq] using h

/-- a request with no callback leaves the instance record and the callback record alone -/
theorem queue_skip {id : RequestId} (h : cfg.handles p.1 id = false) : queue cfg id rc p = p := by
  cases id <;> simp only [Config.handles, RequestId.callback, Option.any_some] at h <;> simp only [queue]
  case elementProcess => exact queueElement_skip cfg h
  case groupInstancesLock => exact queueLock_skip cfg h
  case listInstancesLock => exact queueLock_skip cfg h
  all_goals exact queueBase_skip cfg h

variable (rc) in
/-- the three ways a callback is queued -/
theorem queue_cases {id : RequestId} (h : cfg.handles p.1 id = true) :
    (∃ n info, (id.locks rc = none ∧ id ≠ .elementProcess) ∧
      queue cfg id rc p = (info, { p.2 with type := .base, function := some n })) ∨
    (∃ n info place, id.locks rc = some place ∧
      queue cfg id rc p = (info, { p.2 with
        type := .lock, function := some n, second := if place.Variable then some rc.response.item else p.2.second })) ∨
    (id = .elementProcess ∧ queue cfg id rc p = (enterElement rc p.1, elementCallback cfg rc p.1 p.2)) := by
  cases id <;> simp only [Config.handles, RequestId.callback, Option.any_some] at h
  case sessionCancel => simp at h
  case elementProcess => exact Or.inr (Or.inr ⟨rfl, queueElement_eq cfg h⟩)
  case groupInstancesLock =>
    refine Or.inr (Or.inl ⟨.lockGroupInstances, p.1.enterGroup cfg.listMaxDepth rc id, rc.group, rfl, ?_⟩)
    simp only [queue, queueLock_eq cfg h, RciInfo.enterGroup_group_variable]
  case listInstancesLock =>
    refine Or.inr (Or.inl ⟨.lockListInstances, p.1.enterList rc id, rc.listLevel (RciInfo.listIndex rc), rfl, ?_⟩)
    simp only [queue, queueLock_eq cfg h, RciInfo.enterList_level_variable]
  all_goals
    simp only [queue]
    exact Or.inl ⟨_, _, ⟨rfl, by simp⟩, queueBase_eq cfg h⟩

/-- a request with a callback queues one -/
theorem queue_type {id : RequestId} (h : cfg.handles p.1 id = true) : (queue cfg id rc p).2.type ≠ .none := by
  rcases queue_cases cfg rc h with ⟨n, info, -, hq⟩ | ⟨n, info, place, -, hq⟩ | ⟨rfl, hq⟩ <;> rw [hq]
  · simp
  · simp
  · rcases haveHandler_cases cfg h with ⟨hact, -⟩ | ⟨hact, -⟩ <;> simp only [elementCallback, hact]
    · simp
    · split <;> simp

/-- queueing leaves the error alone -/
theorem queue_error (id : RequestId) : (queue cfg id rc p).2.error = p.2.error := by
  cases h : cfg.handles p.1 id with
  | false => rw [queue_skip cfg h]
  | true =>
    rcases queue_cases cfg rc h with ⟨n, info, -, hq⟩ | ⟨n, info, place, -, hq⟩ | ⟨-, hq⟩ <;> rw [hq]
    unfold elementCallback
    split
    · rfl
    · split <;> rfl
    · rfl

/-- which callbacks pass the worker's asserts -/
theorem queue_runnable {id : RequestId} (h : cfg.handles p.1 id = true) :
    (queue cfg id rc p).2.runnable = true ↔ PointersGiven cfg p.1 p.2.second id rc := by
  rcases queue_cases cfg rc h with ⟨n, info, ⟨hl, he⟩, hq⟩ | ⟨n, info, place, hl, hq⟩ | ⟨rfl, hq⟩ <;> rw [hq]
  · cases id <;> simp_all [Callback.runnable, PointersGiven]
  · have hgiven : PointersGiven cfg p.1 p.2.second id rc ↔ (place.Variable ∨ p.2.second ≠ none) := by
      cases id <;> simp_all [PointersGiven, RequestId.locks]
    rw [hgiven]
    by_cases hv : place.Variable <;> simp [Callback.runnable, hv, Option.isSome_iff_ne_none]
  · rcases haveHandler_cases cfg h with ⟨hact, hreg⟩ | ⟨hact, hreg⟩
    · simp [elementCallback, PointersGiven, hact, Callback.runnable, Config.function, hreg, Option.isSome_iff_ne_none]
    · cases hembed : p.1.embedTransformedValues
      · simp [elementCallback, PointersGiven, hact, hembed, Callback.runnable, Config.function, hreg,
          Option.isSome_iff_ne_none]
      · cases htrans : cfg.registered .setAndTransformElement <;>
          simp [elementCallback, PointersGiven, hact, hembed, Callback.runnable, Config.function, htrans,
            Option.isSome_iff_ne_none]

variable (rc) in
/-- what a request that has a callback does to the instance record -/
def edit (id : RequestId) (info : RciInfo) : RciInfo :=
  match id with
  | .sessionStart => startSession cfg info
  | .actionStart => startAction cfg rc info
  | .doCommand => { info with doCommand := ⟨rc.attributes.target, rc.element.command, rc.response.elementValue⟩ }
  | .groupInstancesLock | .groupInstancesUnlock => info.enterGroup cfg.listMaxDepth rc fun g => g
  | .groupInstancesSet => { info with group := info.group.setInstances rc.group.item }
  | .groupInstanceRemove | .groupStart => info.enterGroup cfg.listMaxDepth rc fun g => g.copyItem rc.group.item
  | .listInstancesLock | .listInstancesUnlock => info.enterList rc fun l => l
  | .listInstancesSet => info.atLevel (RciInfo.listIndex rc) fun l =>
      l.setInstances (rc.listLevel (RciInfo.listIndex rc)).item
  | .listInstanceRemove | .listStart =>
    info.enterList rc fun l => l.copyItem (rc.listLevel (RciInfo.listIndex rc)).item
  | .elementProcess => enterElement rc info
  | .listEnd => { info with list := { info.list with depth := rc.listDepth } }
  | .actionEnd | .sessionEnd => { info with element := { info.element with type := none } }
  | .reboot | .setFactoryDef | .groupEnd | .sessionCancel => info

theorem queue_info (id : RequestId) :
    (queue cfg id rc p).1 = if cfg.handles p.1 id then edit cfg rc id p.1 else p.1 := by
  cases h : cfg.handles p.1 id with
  | false => rw [queue_skip cfg h]; rfl
  | true =>
    cases id <;> simp only [Config.handles, RequestId.callback, Option.any_some] at h <;> simp only [queue, if_true]
    case sessionCancel => rfl
    case elementProcess => rw [queueElement_eq cfg h]; rfl
    case groupInstancesLock => rw [queueLock_eq cfg h]; rfl
    case listInstancesLock => rw [queueLock_eq cfg h]; rfl
    all_goals rw [queueBase_eq cfg h]; rfl

end Queueing

/-! ## What the handler answers -/

/-- the instance record as the IDLE state takes it up -/
def RciInfo.takenUp (rc : RemoteConfig) (info : RciInfo) : RciInfo :=
  { info with userContext := rc.userContext, errorHint := rc.response.errorHint }

section Handler

variable {id : RequestId} {rc : RemoteConfig} {s : Svc}

theorem handler_skip (hid : id ≠ .sessionCancel) (hs : s.status = .idle) (h : cfg.handles s.info id = false) :
    handler cfg id rc s = (⟨s.info.takenUp rc, s.callback.clear, .cbProcessed⟩, .busy, rc, false) := by
  have hq : queue cfg id rc (s.info.takenUp rc, s.callback.clear) = (s.info.takenUp rc, s.callback.clear) :=
    queue_skip cfg h
  unfold RciInfo.takenUp at hq ⊢
  simp only [handler, if_neg hid, hs, hq]
  rfl

theorem handler_queue (hid : id ≠ .sessionCancel) (hs : s.status = .idle) (h : cfg.handles s.info id = true) :
    handler cfg id rc s =
      (⟨(queue cfg id rc (s.info.takenUp rc, s.callback.clear)).1,
        (queue cfg id rc (s.info.takenUp rc, s.callback.clear)).2, .cbQueued⟩, .busy, rc, true) := by
  have hq : (queue cfg id rc (s.info.takenUp rc, s.callback.clear)).2.type ≠ .none := queue_type cfg h
  unfold RciInfo.takenUp at hq ⊢
  simp only [handler, if_neg hid, hs, if_neg hq]

theorem handler_queued (hid : id ≠ .sessionCancel) (hs : s.status = .cbQueued) :
    handler cfg id rc s = (s, .busy, rc, false) := by
  simp only [handler, if_neg hid, hs]

theorem handler_processed (hid : id ≠ .sessionCancel) (hs : s.status = .cbProcessed) :
    handler cfg id rc s =
      (⟨(finish cfg id s.info rc).1, s.callback.clear, .idle⟩, .cont,
        { (finish cfg id s.info rc).2 with
          errorId := s.callback.error, userContext := (finish cfg id s.info rc).1.userContext,
          response := { (finish cfg id s.info rc).2.response with
            errorHint := (finish cfg id s.info rc).1.errorHint } }, false) := by
  simp only [handler, if_neg hid, hs]

end Handler

/-- finishing leaves what the user callback has left for the connector -/
theorem finish_side (id : RequestId) (info : RciInfo) (rc : RemoteConfig) :
    (finish cfg id info rc).1.userContext = info.userContext ∧ (finish cfg id info rc).1.errorHint = info.errorHint := by
  cases id <;> simp only [finish, RciInfo.clearTree, RciInfo.clearGroup, RciInfo.clearElement, RciInfo.clearAllLists_eq,
    RciInfo.clearList, RciInfo.atLevel, and_self]
  all_goals split <;> exact ⟨rfl, rfl⟩

/-! ## Simulation -/

def RciThreadStatus.phase : RciThreadStatus → Handshake.Phase
  | .idle => .idle
  | .cbQueued => .queued
  | .cbProcessed => .processed

/-- the worker, at work on request n -/
def Pc.view (n : ℕ) : Pc → Handshake.Pc ℕ
  | .waiting => .waiting
  | .woken => .woken
  | .ready _ => .taken n
  | .calling => .calling n
  | .returned e => .returned n e
  | .stored => .stored n
  | .exited => .exited

/-- what a user callback leaves for the connector -/
def RciInfo.side (info : RciInfo) : Option ℕ × Option ℕ := (info.userContext, info.errorHint)

/-- the same as a record brings it -/
def RemoteConfig.side (rc : RemoteConfig) : Option ℕ × Option ℕ := (rc.userContext, rc.response.errorHint)

def serialOf (r : Option Request) : ℕ := (r.map Request.serial).getD 0

def Request.job (r : Request) : Handshake.Job (Option ℕ × Option ℕ) := ⟨r.serial, r.queued.isSome, r.rc.side, r.busy⟩

def Answer.view (x : Answer) : Handshake.Answer ℕ (Option ℕ × Option ℕ) := ⟨x.request.job, x.record.errorId, x.record.side⟩

def abs (s : St) : Handshake.St ℕ (Option ℕ × Option ℕ) where
  phase := s.svc.status.phase
  job := s.request.map Request.job
  next := s.next
  record := s.owner.map Request.serial
  error := s.svc.callback.error
  side := s.svc.info.side
  sem := s.lock
  stopping := s.stopping
  pc := s.pc.view (serialOf s.serving)
  cancelled := s.cancelled
  runs := s.calls.map fun c => serialOf c.request
  results := s.results.map fun r => (r.1, r.2.error, r.2.userContext, r.2.errorHint)
  answers := s.answers.map Answer.view

/-- what an operation of the service is to the handshake -/
def absOps (s : St) : Op → List (Handshake.Op ℕ (Option ℕ × Option ℕ))
  | .submit id rc =>
    if s.request.isSome ∨ id = .sessionCancel then []
    else [.submit (cfg.handles s.svc.info id) rc.side
      (queue cfg id rc (s.svc.info.takenUp rc, s.svc.callback.clear)).1.side]
  | .poll => [.poll]
  | .cancel _ => [.cancel]
  | .stop => [.stop]
  | .wake => [.wake]
  | .read => [.read s.svc.callback.runnable]
  | .call => [.call]
  | .ret u => [.ret u.error (u.userContext, u.errorHint)]
  | .store => [.store]
  | .update => [.update]

theorem idle_of_rest {s : St} (h : Handshake.Inv 0 (abs s)) (hr : s.request = none) :
    s.svc.status = .idle ∧ s.owner = none := by
  obtain ⟨hp, hown⟩ := h.at_rest (by simp [abs, hr])
  refine ⟨?_, by simpa [abs] using hown⟩
  cases hs : s.svc.status <;> simp [abs, hs, RciThreadStatus.phase] at hp
  rfl

theorem submit_sim {s : St} (h : Handshake.Inv 0 (abs s)) (id : RequestId) (rc : RemoteConfig) :
    abs (step cfg s (.submit id rc)) = run (Handshake.step 0) (abs s) (absOps cfg s (.submit id rc)) := by
  by_cases hid : s.request.isSome ∨ id = .sessionCancel
  · simp only [step, absOps, if_pos hid, run_nil]
  · obtain ⟨hr, hc⟩ : s.request = none ∧ id ≠ .sessionCancel := by simpa using hid
    obtain ⟨hs, hown⟩ := idle_of_rest h hr
    simp only [step, absOps, if_neg hid, run_cons, run_nil]
    cases hh : cfg.handles s.svc.info id with
    | false =>
      simp [present, handler_skip cfg hc hs hh, Handshake.step, abs, hr, hs, hown, RciThreadStatus.phase, Request.job,
        Callback.clear, RciInfo.takenUp, RciInfo.side, RemoteConfig.side]
    | true =>
      simp [present, handler_queue cfg hc hs hh, Handshake.step, abs, hr, hs, RciThreadStatus.phase, Request.job,
        Callback.clear, queue_error]

theorem poll_sim {s : St} (h : Handshake.Inv 0 (abs s)) (hid : ∀ r, s.request = some r → r.id ≠ .sessionCancel) :
    abs (step cfg s .poll) = run (Handshake.step 0) (abs s) (absOps cfg s .poll) := by
  simp only [step, absOps, run_cons, run_nil]
  cases hr : s.request with
  | none => simp [Handshake.step, abs, hr]
  | some r =>
    have hc := hid r hr
    cases hs : s.svc.status with
    | idle =>
      have hn := h.now
      simp [Handshake.Now, abs, hs, RciThreadStatus.phase, hr] at hn
    | cbQueued =>
      simp [present, handler_queued cfg hc hs, Handshake.step, abs, hr, hs, RciThreadStatus.phase, Request.job]
    | cbProcessed =>
      have hside := finish_side cfg r.id s.svc.info r.rc
      simp [present, handler_processed cfg hc hs, Handshake.step, abs, hr, hs, RciThreadStatus.phase, Request.job,
        Callback.clear, RciInfo.side, RemoteConfig.side, hside.1, hside.2, Answer.view]

theorem read_sim {s : St} (h : Handshake.Inv 0 (abs s)) :
    abs (step cfg s .read) = run (Handshake.step 0) (abs s) (absOps cfg s .read) := by
  simp only [absOps, run_cons, run_nil]
  cases hpc : s.pc
  case woken =>
    cases hs : s.svc.status with
    | idle => simp [step, Handshake.step, abs, hpc, hs, Pc.view, RciThreadStatus.phase]
    | cbProcessed => simp [step, Handshake.step, abs, hpc, hs, Pc.view, RciThreadStatus.phase]
    | cbQueued =>
      obtain ⟨j, -, -, hrec, -⟩ := h.hand (by simp [abs, hs, RciThreadStatus.phase])
      obtain ⟨r, hown, -⟩ : ∃ r, s.owner = some r ∧ r.serial = j.serial := by simpa [abs] using hrec
      cases hrun : s.svc.callback.runnable <;>
        simp [step, Handshake.step, abs, hpc, hs, hown, hrun, Pc.view, RciThreadStatus.phase, serialOf]
  all_goals simp [step, Handshake.step, abs, hpc, Pc.view]

/-- **Simulation.** Every step of the service is a step of the handshake. -/
theorem step_sim {s : St} (h : Handshake.Inv 0 (abs s)) (hid : ∀ r, s.request = some r → r.id ≠ .sessionCancel) (o : Op) :
    abs (step cfg s o) = run (Handshake.step 0) (abs s) (absOps cfg s o) := by
  cases o
  case submit id rc => exact submit_sim cfg h id rc
  case poll => exact poll_sim cfg h hid
  case read => exact read_sim cfg h
  all_goals simp only [absOps, run_cons, run_nil]
  case cancel rc => simp [step, Handshake.step, abs, handler, cancelSession, Callback.clear, RciThreadStatus.phase]
  case stop => cases hs : s.stopping <;> simp [step, Handshake.step, abs, hs]
  case wake =>
    cases hpc : s.pc
    case waiting =>
      cases hl : s.lock with
      | zero => simp [step, Handshake.step, abs, hpc, hl, Pc.view]
      | succ k => cases hs : s.stopping <;> simp [step, Handshake.step, abs, hpc, hl, hs, Pc.view]
    all_goals simp [step, Handshake.step, abs, hpc, Pc.view]
  case call => cases hpc : s.pc <;> simp [step, Handshake.step, abs, hpc, Pc.view]
  case ret u =>
    cases hpc : s.pc <;>
      simp [step, Handshake.step, abs, hpc, Pc.view, RciInfo.returned, RciInfo.side, serialOf]
  case store => cases hpc : s.pc <;> simp [step, Handshake.step, abs, hpc, Pc.view]
  case update =>
    cases hpc : s.pc
    case stored =>
      cases hs : s.stopping <;> cases hst : s.svc.status <;>
        simp [step, Handshake.step, abs, hpc, hs, hst, Pc.view, RciThreadStatus.phase]
    all_goals simp [step, Handshake.step, abs, hpc, Pc.view]

end CcApi.Rci
