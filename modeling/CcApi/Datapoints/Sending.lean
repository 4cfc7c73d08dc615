/-
A send step by step (`send_collection`, and `ccapi_data_points_handler` of `ccapi.c`).

The calling thread goes through the function one call at a time, each with the platform's or the connector's answer; the
connector-run thread calls the handler in between, as often as it likes once the connector has accepted the request, and
writes the transaction record the caller waits on. The record's lock is held from its creation until the status callback
releases it. An operation that is not enabled leaves the state alone.

- `Leaves`: the exits of the function, by the error, the collection left behind, and what is still to be released.
- `step_reached`: every run goes from the start to one of the exits and through the one cleanup.
- `sends`: a call that has returned is an atomic `sendCollection` with the same error, request and collection.
- `all_or_nothing`: on a failure all points stay, on a success none; record and lock are given back as they were taken.

Premises: no other operation runs on the collection meanwhile, and no stream of it has been released. What
`ccapi_lock_destroy` answers is only asserted on. The hint is left out, as in the record.
-/
import CcApi.Datapoints.Changes

namespace CcApi.Datapoints.Sending

open Lib

/-! ## The caller and the connector -/

/-- `ccapi_transport_t` -/
inductive Transport where
  | tcp
  | udp
  | sms
deriving DecidableEq, Repr

/-- what `send_collection` reads of the instance -/
structure Instance where
  /-- `CCAPI_RUNNING` -/
  running : Bool
  tcpConnected : Bool
  udpStarted : Bool
  smsStarted : Bool
deriving DecidableEq, Repr

def Instance.transportStarted (i : Instance) : Transport → Bool
  | .tcp => i.tcpConnected
  | .udp => i.udpStarted
  | .sms => i.smsStarted

/-- `ccapi_dp_transaction_info_t` without the hint; the lock is NULL, or held or not -/
structure TransactionInfo where
  block : ℕ
  responseError : DpError
  status : DpError
  lock : Option Bool
deriving DecidableEq, Repr

/-- where the caller is: in front of the call or the part of the function named -/
inductive Pc where
  | start
  | malloc
  | createLock
  | lock
  | chain
  | initiate
  | wait
  | judge
  | freePoints
  | cleanup
  | unlock
  | returned
deriving DecidableEq, Repr

/-- what was taken and given back -/
inductive Event where
  | allocated (b : ℕ)
  | freed (b : ℕ)
  | locked
  | unlocked (ok : Bool)
deriving DecidableEq, Repr

structure St where
  pc : Pc
  error : DpError
  collection : Collection
  transactionInfo : Option TransactionInfo
  collectionLockAcquired : Bool
  /-- what `ccfsm_request.stream` leads to -/
  request : Option (List (Option StreamView))
  /-- the connector has the request, and may call back -/
  accepted : Bool
  /-- a callback has come for a record that had been released -/
  stray : Bool
  /-- the error before the collection lock is given back -/
  verdict : DpError
  log : List Event

def start (c : Collection) : St := ⟨.start, .none, c, none, false, none, false, false, .none, []⟩

/-- `goto done` with an error -/
def St.exit (e : DpError) (s : St) : St := { s with error := e, pc := .cleanup }

/-- the checks in front of the allocation -/
def check (i : Instance) (transport : Transport) (s : St) : St :=
  if s.collection.list = [] then s.exit .invalidArgument
  else if !i.running then s.exit .ccapiNotRunning
  else if !i.transportStarted transport then s.exit .transportNotStarted
  else { s with pc := .malloc }

/-- the allocation of the record; status is what the memory holds -/
def malloc (ok : Bool) (status : DpError) (s : St) : St :=
  match s.collection.ledger.acquire ok with
  | (none, l) => St.exit .insufficientMemory { s with collection := { s.collection with ledger := l } }
  | (some b, l) =>
    { s with
      collection := { s.collection with ledger := l }
      transactionInfo := some ⟨b, .initiateActionFailed, status, none⟩
      log := s.log ++ [.allocated b]
      pc := .createLock }

/-- `ccapi_lock_create` -/
def createLock (ok : Bool) (s : St) : St :=
  if ok then { s with transactionInfo := s.transactionInfo.map fun t => { t with lock := some true }, pc := .lock }
  else s.exit .lockFailed

/-- `ccapi_lock_acquire` on the collection's lock -/
def lock (status : CcimpStatus) (s : St) : St :=
  if status = .ok then { s with collectionLockAcquired := true, log := s.log ++ [.locked], pc := .chain }
  else s.exit .lockFailed

/-- `chain_collection_ccfsm_data_streams`, and the request -/
def chain (s : St) : St :=
  let c := chainCollectionCcfsmDataStreams s.collection
  { s with collection := c, request := some (handed c), pc := .initiate }

/-- `connector_initiate_action_secure`: what it returns, and whether the connector has accepted the request -/
def connectorInitiateActionSecure (acquire : CcimpStatus) (answer : ConnectorStatus) (release : CcimpStatus) :
    ConnectorStatus × Bool :=
  if acquire ≠ .ok then (.abort, false)
  else if release ≠ .ok then (.abort, answer = .success)
  else (answer, answer = .success)

/-- one turn of the loop around `connector_initiate_action_secure` -/
def initiate (acquire : CcimpStatus) (answer : ConnectorStatus) (release : CcimpStatus) (s : St) : St :=
  let r := connectorInitiateActionSecure acquire answer release
  let s := { s with accepted := s.accepted || r.2 }
  match r.1 with
  | .success => { s with pc := .wait }
  | .serviceBusy => s
  | _ => s.exit .initiateActionFailed

/-- `ccapi_lock_acquire` on the record's lock; OK is the answer only once the lock is free -/
def wait (status : CcimpStatus) (s : St) : St :=
  if status = .ok then
    match s.transactionInfo with
    | some t =>
      if t.lock = some false then { s with transactionInfo := some { t with lock := some true }, pc := .judge } else s
    | none => s
  else s.exit .lockFailed

/-- the two results of the record -/
def judge (s : St) : St :=
  match s.transactionInfo with
  | some t =>
    if t.responseError ≠ .none then s.exit t.responseError
    else if t.status ≠ .none then s.exit t.status
    else { s with pc := .freePoints }
  | none => s

/-- `free_data_points_from_collection` -/
def freePoints (s : St) : St := { s with collection := freeDataPointsFromCollection s.collection, pc := .cleanup }

/-- the record and its lock, behind `done` -/
def cleanup (s : St) : St :=
  match s.transactionInfo with
  | none => { s with verdict := s.error, pc := .unlock }
  | some t =>
    { s with
      collection := { s.collection with ledger := s.collection.ledger.release t.block }
      transactionInfo := none
      log := s.log ++ [.freed t.block]
      verdict := s.error
      pc := .unlock }

/-- `ccapi_lock_release` on the collection's lock, if it was acquired -/
def unlock (status : CcimpStatus) (s : St) : St :=
  if s.collectionLockAcquired then
    { s with error := finish (status = .ok) s.error, log := s.log ++ [.unlocked (status = .ok)], pc := .returned }
  else { s with pc := .returned }

/-- a callback writes the record, if it is still there -/
def St.callback (f : TransactionInfo → TransactionInfo) (s : St) : St :=
  if s.accepted then
    match s.transactionInfo with
    | some t => { s with transactionInfo := some (f t) }
    | none => { s with stray := true }
  else s

/-- `ccapi_data_points_handler`, the response -/
def TransactionInfo.respond (r : Response) (t : TransactionInfo) : TransactionInfo := { t with responseError := r.error }

/-- `ccapi_data_points_handler`, the status, and the release of the record's lock -/
def TransactionInfo.finish (x : SendStatus) (release : CcimpStatus) (t : TransactionInfo) : TransactionInfo :=
  { t with status := x.error, lock := if release = .ok then some false else t.lock }

inductive Op where
  | check (i : Instance) (transport : Transport)
  | malloc (ok : Bool) (status : DpError)
  | createLock (ok : Bool)
  | lock (status : CcimpStatus)
  | chain
  | initiate (acquire : CcimpStatus) (answer : ConnectorStatus) (release : CcimpStatus)
  | wait (status : CcimpStatus)
  | judge
  | freePoints
  | cleanup
  | unlock (status : CcimpStatus)
  /-- the connector-run thread -/
  | response (r : Response)
  | status (x : SendStatus) (release : CcimpStatus)
deriving DecidableEq, Repr

/-- what the caller does at its place -/
def St.at (p : Pc) (f : St → St) (s : St) : St := if s.pc = p then f s else s

def step (s : St) : Op → St
  | .check i transport => s.at .start (check i transport)
  | .malloc ok status => s.at .malloc (malloc ok status)
  | .createLock ok => s.at .createLock (createLock ok)
  | .lock status => s.at .lock (lock status)
  | .chain => s.at .chain chain
  | .initiate acquire answer release => s.at .initiate (initiate acquire answer release)
  | .wait status => s.at .wait (wait status)
  | .judge => s.at .judge judge
  | .freePoints => s.at .freePoints freePoints
  | .cleanup => s.at .cleanup cleanup
  | .unlock status => s.at .unlock (unlock status)
  | .response r => s.callback (·.respond r)
  | .status x release => s.callback (·.finish x release)

/-! ## The exits -/

/-- the collection with the record allocated -/
def withRecord (c : Collection) : Collection := { c with ledger := (c.ledger.acquire true).2 }

/-- the collection with its streams chained for the connector -/
def chained (c : Collection) : Collection := chainCollectionCcfsmDataStreams (withRecord c)

/-- why the connector, the wait for it or the server make a send fail -/
inductive Refusal : DpError → Prop where
  | initiate : Refusal .initiateActionFailed
  | wait : Refusal .lockFailed
  | response (r : Response) (h : r.error ≠ .none) : Refusal r.error
  | status (x : SendStatus) (h : x.error ≠ .none) : Refusal x.error

/-- the exits: the error, the collection left behind, whether there is a record, and whether the lock is held -/
inductive Leaves (c : Collection) : DpError → Collection → Bool → Bool → Prop where
  | empty (hl : c.list = []) : Leaves c .invalidArgument c false false
  | early (e : DpError) (hl : c.list ≠ []) (he : e ∈ [.ccapiNotRunning, .transportNotStarted, .insufficientMemory]) :
      Leaves c e c false false
  | unlocked (hl : c.list ≠ []) : Leaves c .lockFailed (withRecord c) true false
  | refused (e : DpError) (hl : c.list ≠ []) (he : Refusal e) : Leaves c e (chained c) true true
  | sent (hl : c.list ≠ []) : Leaves c .none (freeDataPointsFromCollection (chained c)) true true

/-- what the log says of an exit before anything is given back -/
def taken (b : ℕ) (record locked : Bool) : List Event :=
  (if record then [.allocated b] else []) ++ (if locked then [.locked] else [])

/-- what the request leads to at an exit -/
def requested (c : Collection) (locked : Bool) : Option (List (Option StreamView)) :=
  if locked then some (handed (chained c)) else none

/-- the record's error is what it was made with, or what a response stored -/
def Answered (t : TransactionInfo) : Prop := t.responseError = .initiateActionFailed ∨ ∃ r : Response, t.responseError = r.error

/-- the record's status is what a status callback stored -/
def Stored (t : TransactionInfo) : Prop := ∃ x : SendStatus, t.status = x.error

/-- the record while the caller waits -/
structure Waiting (c : Collection) (t : TransactionInfo) : Prop where
  block : t.block = c.ledger.next
  answered : Answered t
  stored : t.lock = some false → Stored t

/-- the record the allocation makes -/
def newRecord (c : Collection) (status : DpError) (lock : Option Bool) : TransactionInfo :=
  ⟨c.ledger.next, .initiateActionFailed, status, lock⟩

/-- the states of a call on the collection c -/
inductive Reached (c : Collection) : St → Prop where
  | start : Reached c (start c)
  | malloc (hl : c.list ≠ []) : Reached c { start c with pc := .malloc }
  | createLock (hl : c.list ≠ []) (status : DpError) :
      Reached c ⟨.createLock, .none, withRecord c, some (newRecord c status none), false, none, false, false, .none,
        [.allocated c.ledger.next]⟩
  | lock (hl : c.list ≠ []) (status : DpError) :
      Reached c ⟨.lock, .none, withRecord c, some (newRecord c status (some true)), false, none, false, false, .none,
        [.allocated c.ledger.next]⟩
  | chain (hl : c.list ≠ []) (status : DpError) :
      Reached c ⟨.chain, .none, withRecord c, some (newRecord c status (some true)), true, none, false, false, .none,
        [.allocated c.ledger.next, .locked]⟩
  | initiate (hl : c.list ≠ []) (status : DpError) :
      Reached c ⟨.initiate, .none, chained c, some (newRecord c status (some true)), true, some (handed (chained c)),
        false, false, .none, [.allocated c.ledger.next, .locked]⟩
  | wait (hl : c.list ≠ []) (t : TransactionInfo) (ht : Waiting c t) :
      Reached c ⟨.wait, .none, chained c, some t, true, some (handed (chained c)), true, false, .none,
        [.allocated c.ledger.next, .locked]⟩
  | judge (hl : c.list ≠ []) (t : TransactionInfo) (ht : Waiting c t) (hs : Stored t) :
      Reached c ⟨.judge, .none, chained c, some t, true, some (handed (chained c)), true, false, .none,
        [.allocated c.ledger.next, .locked]⟩
  | freePoints (hl : c.list ≠ []) (t : TransactionInfo) (ht : t.block = c.ledger.next) :
      Reached c ⟨.freePoints, .none, chained c, some t, true, some (handed (chained c)), true, false, .none,
        [.allocated c.ledger.next, .locked]⟩
  | cleanup (e : DpError) (d : Collection) (t : Option TransactionInfo) (locked accepted stray : Bool)
      (h : Leaves c e d t.isSome locked) (ht : ∀ x ∈ t, x.block = c.ledger.next) :
      Reached c ⟨.cleanup, e, d, t, locked, requested c locked, accepted, stray, .none,
        taken c.ledger.next t.isSome locked⟩
  | unlock (e : DpError) (d : Collection) (record locked accepted stray : Bool) (h : Leaves c e d record locked) :
      Reached c ⟨.unlock, e, if record then { d with ledger := d.ledger.release c.ledger.next } else d, none, locked,
        requested c locked, accepted, stray, e,
        taken c.ledger.next record locked ++ if record then [.freed c.ledger.next] else []⟩
  | returned (e : DpError) (d : Collection) (record locked accepted stray release : Bool)
      (h : Leaves c e d record locked) :
      Reached c ⟨.returned, if locked then finish release e else e,
        if record then { d with ledger := d.ledger.release c.ledger.next } else d, none, locked, requested c locked,
        accepted, stray, e,
        taken c.ledger.next record locked ++ (if record then [.freed c.ledger.next] else []) ++
          if locked then [.unlocked release] else []⟩

/-! ## One step -/

/-- what a callback may do to the record -/
structure Callback (f : TransactionInfo → TransactionInfo) : Prop where
  block : ∀ t, (f t).block = t.block
  answered : ∀ t, Answered t → Answered (f t)
  stored : ∀ t, Stored t → Stored (f t)
  freed : ∀ t, (t.lock = some false → Stored t) → (f t).lock = some false → Stored (f t)

theorem callback_respond (r : Response) : Callback (·.respond r) where
  block _ := rfl
  answered _ _ := .inr ⟨r, rfl⟩
  stored _ h := h
  freed _ h := h

theorem callback_finish (x : SendStatus) (release : CcimpStatus) : Callback (·.finish x release) where
  block _ := rfl
  answered _ h := h
  stored _ _ := ⟨x, rfl⟩
  freed _ _ _ := ⟨x, rfl⟩

theorem Waiting.callback {c : Collection} {t : TransactionInfo} {f : TransactionInfo → TransactionInfo}
    (h : Waiting c t) (hf : Callback f) : Waiting c (f t) :=
  ⟨(hf.block t).trans h.block, hf.answered t h.answered, hf.freed t h.stored⟩

/-- the connector-run thread writes the record, or comes too late -/
theorem callback_reached {c : Collection} {s : St} {f : TransactionInfo → TransactionInfo} (h : Reached c s)
    (hf : Callback f) : Reached c (s.callback f) := by
  cases h with
  | wait hl t ht => exact .wait hl (f t) (ht.callback hf)
  | judge hl t ht hs => exact .judge hl (f t) (ht.callback hf) (hf.stored t hs)
  | freePoints hl t ht => exact .freePoints hl (f t) ((hf.block t).trans ht)
  | cleanup e d t locked accepted stray h ht =>
    cases accepted with
    | false => exact .cleanup e d t locked false stray h ht
    | true =>
      cases t with
      | none => exact .cleanup e d none locked true true h ht
      | some t =>
        refine .cleanup e d (some (f t)) locked true stray h ?_
        rintro x ⟨⟩
        exact (hf.block t).trans (ht t rfl)
  | unlock e d record locked accepted stray h =>
    cases accepted with
    | false => exact .unlock e d record locked false stray h
    | true => exact .unlock e d record locked true true h
  | returned e d record locked accepted stray release h =>
    cases accepted with
    | false => exact .returned e d record locked false stray release h
    | true => exact .returned e d record locked true true release h
  | start => exact .start
  | malloc hl => exact .malloc hl
  | createLock hl status => exact .createLock hl status
  | lock hl status => exact .lock hl status
  | chain hl status => exact .chain hl status
  | initiate hl status => exact .initiate hl status

theorem check_reached {c : Collection} {s : St} (h : Reached c s) (hp : s.pc = .start) (i : Instance)
    (transport : Transport) : Reached c (check i transport s) := by
  cases h with
  | start =>
    unfold check
    split_ifs with hl hr ht
    · exact .cleanup _ c none false false false (.empty hl) (by simp)
    · exact .cleanup _ c none false false false (.early _ hl (by simp)) (by simp)
    · exact .cleanup _ c none false false false (.early _ hl (by simp)) (by simp)
    · exact .malloc hl
  | _ => cases hp

theorem malloc_reached {c : Collection} {s : St} (h : Reached c s) (hp : s.pc = .malloc) (ok : Bool)
    (status : DpError) : Reached c (malloc ok status s) := by
  cases h with
  | malloc hl =>
    cases ok with
    | false => exact .cleanup _ c none false false false (.early _ hl (by simp)) (by simp)
    | true => exact .createLock hl status
  | _ => cases hp

theorem createLock_reached {c : Collection} {s : St} (h : Reached c s) (hp : s.pc = .createLock) (ok : Bool) :
    Reached c (createLock ok s) := by
  cases h with
  | createLock hl status =>
    cases ok with
    | false => exact .cleanup _ _ (some (newRecord c status none)) _ _ _ (.unlocked hl) (by simp [newRecord])
    | true => exact .lock hl status
  | _ => cases hp

theorem lock_reached {c : Collection} {s : St} (h : Reached c s) (hp : s.pc = .lock) (status : CcimpStatus) :
    Reached c (lock status s) := by
  cases h with
  | lock hl st =>
    unfold lock
    split_ifs with hs
    · exact .chain hl st
    · exact .cleanup _ _ (some (newRecord c st (some true))) _ _ _ (.unlocked hl) (by simp [newRecord])
  | _ => cases hp

theorem chain_reached {c : Collection} {s : St} (h : Reached c s) (hp : s.pc = .chain) : Reached c (chain s) := by
  cases h with
  | chain hl status => exact .initiate hl status
  | _ => cases hp

theorem waiting_new (c : Collection) (status : DpError) : Waiting c (newRecord c status (some true)) :=
  ⟨rfl, .inl rfl, fun h => by cases h⟩

/-- `connector_success` is answered only when the connector has accepted the request, a busy answer only when not -/
theorem initiate_cases (acquire : CcimpStatus) (answer : ConnectorStatus) (release : CcimpStatus) :
    connectorInitiateActionSecure acquire answer release = (.success, true) ∨
      connectorInitiateActionSecure acquire answer release = (.serviceBusy, false) ∨
      ∃ accepted, connectorInitiateActionSecure acquire answer release = (.abort, accepted) ∨
        connectorInitiateActionSecure acquire answer release = (.failed, accepted) := by
  cases acquire <;> cases answer <;> cases release <;> simp [connectorInitiateActionSecure]

theorem initiate_reached {c : Collection} {s : St} (h : Reached c s) (hp : s.pc = .initiate) (acquire : CcimpStatus)
    (answer : ConnectorStatus) (release : CcimpStatus) : Reached c (initiate acquire answer release s) := by
  cases h with
  | initiate hl status =>
    have hfail : ∀ accepted, Reached c ⟨.cleanup, .initiateActionFailed, chained c,
        some (newRecord c status (some true)), true, some (handed (chained c)), accepted, false, .none,
        [.allocated c.ledger.next, .locked]⟩ := fun accepted =>
      .cleanup _ _ (some _) true accepted false (.refused _ hl .initiate) (by simp [newRecord])
    rcases initiate_cases acquire answer release with hr | hr | ⟨accepted, hr | hr⟩
    · simp only [initiate, hr]
      exact .wait hl _ (waiting_new c status)
    · simp only [initiate, hr]
      exact .initiate hl status
    · simp only [initiate, hr]
      exact hfail accepted
    · simp only [initiate, hr]
      exact hfail accepted
  | _ => cases hp

theorem wait_reached {c : Collection} {s : St} (h : Reached c s) (hp : s.pc = .wait) (status : CcimpStatus) :
    Reached c (wait status s) := by
  cases h with
  | wait hl t ht =>
    simp only [wait]
    split_ifs with hs hfree
    · exact .judge hl { t with lock := some true } ⟨ht.block, ht.answered, fun h => by cases h⟩ (ht.stored hfree)
    · exact .wait hl t ht
    · exact .cleanup _ _ (some t) true true false (.refused _ hl .wait) (by simp [ht.block])
  | _ => cases hp

/-- both results are one of the handler's, so that nothing is read that was not stored -/
theorem judge_reached {c : Collection} {s : St} (h : Reached c s) (hp : s.pc = .judge) : Reached c (judge s) := by
  cases h with
  | judge hl t ht hs =>
    simp only [judge]
    split_ifs with hr hx
    · refine .cleanup _ _ (some t) true true false (.refused _ hl ?_) (by simp [ht.block])
      rcases ht.answered with ha | ⟨r, ha⟩
      · rw [ha]
        exact .initiate
      · rw [ha] at hr ⊢
        exact .response r hr
    · refine .cleanup _ _ (some t) true true false (.refused _ hl ?_) (by simp [ht.block])
      obtain ⟨x, hs⟩ := hs
      rw [hs] at hx ⊢
      exact .status x hx
    · exact .freePoints hl t ht.block
  | _ => cases hp

theorem freePoints_reached {c : Collection} {s : St} (h : Reached c s) (hp : s.pc = .freePoints) :
    Reached c (freePoints s) := by
  cases h with
  | freePoints hl t ht => exact .cleanup _ _ (some t) true true false (.sent hl) (by simp [ht])
  | _ => cases hp

theorem cleanup_reached {c : Collection} {s : St} (h : Reached c s) (hp : s.pc = .cleanup) : Reached c (cleanup s) := by
  cases h with
  | cleanup e d t locked accepted stray h ht =>
    cases t with
    | none =>
      have := Reached.unlock e d false locked accepted stray h
      simpa [cleanup] using this
    | some t =>
      have := Reached.unlock e d true locked accepted stray h
      simpa [cleanup, ht t rfl] using this
  | _ => cases hp

theorem unlock_reached {c : Collection} {s : St} (h : Reached c s) (hp : s.pc = .unlock) (status : CcimpStatus) :
    Reached c (unlock status s) := by
  cases h with
  | unlock e d record locked accepted stray h =>
    have := Reached.returned e d record locked accepted stray (status = .ok) h
    cases locked with
    | false => simpa [unlock] using this
    | true => simpa [unlock] using this
  | _ => cases hp

theorem at_reached {c : Collection} {s : St} {p : Pc} {f : St → St} (h : Reached c s)
    (hf : s.pc = p → Reached c (f s)) : Reached c (s.at p f) := by
  unfold St.at
  split_ifs with hp
  · exact hf hp
  · exact h

/-- **One step.** -/
theorem step_reached {c : Collection} (s : St) (o : Op) (h : Reached c s) : Reached c (step s o) := by
  cases o with
  | check i transport => exact at_reached h fun hp => check_reached h hp i transport
  | malloc ok status => exact at_reached h fun hp => malloc_reached h hp ok status
  | createLock ok => exact at_reached h fun hp => createLock_reached h hp ok
  | lock status => exact at_reached h fun hp => lock_reached h hp status
  | chain => exact at_reached h fun hp => chain_reached h hp
  | initiate acquire answer release => exact at_reached h fun hp => initiate_reached h hp acquire answer release
  | wait status => exact at_reached h fun hp => wait_reached h hp status
  | judge => exact at_reached h fun hp => judge_reached h hp
  | freePoints => exact at_reached h fun hp => freePoints_reached h hp
  | cleanup => exact at_reached h fun hp => cleanup_reached h hp
  | unlock status => exact at_reached h fun hp => unlock_reached h hp status
  | response r => exact callback_reached h (callback_respond r)
  | status x release => exact callback_reached h (callback_finish x release)

theorem run_reached (c : Collection) (ops : List Op) : Reached c (Runs.run step (start c) ops) :=
  Runs.run_inv_all step_reached .start ops

/-! ## A call that has returned is an atomic send -/

/-- a send that gets as far as the connector -/
structure Far (env : SendEnv) : Prop where
  running : env.running = true
  transportStarted : env.transportStarted = true
  transactionInfo : env.transactionInfo = true
  transactionLock : env.transactionLock = true
  acquire : env.acquire = true

theorem sendCollection_far {c : Collection} {env : SendEnv} (h : Far env) (hl : c.list ≠ [])
    (hr : firstReleased c.list = none) :
    sendCollection env c = .ok
      ({ error := finish env.release env.verdict, handed := some (handed (chained c)) },
        let d := if env.verdict = .none then freeDataPointsFromCollection (chained c) else chained c
        { d with ledger := d.ledger.release c.ledger.next }) := by
  simp only [sendCollection, hl, h.running, h.transportStarted, h.transactionInfo, h.transactionLock, h.acquire,
    Bool.not_true, Bool.false_eq_true, if_false, Ledger.acquire_true, sendLocked, overList, hr]
  rfl

/-- every refusal is the verdict of a send -/
theorem Refusal.verdict {e : DpError} (h : Refusal e) (release : Bool) :
    e ≠ .none ∧ ∃ env : SendEnv, Far env ∧ env.verdict = e ∧ env.release = release := by
  cases h with
  | initiate =>
    exact ⟨by simp, { SendEnv.good with initiate := false, release := release }, ⟨rfl, rfl, rfl, rfl, rfl⟩, rfl, rfl⟩
  | wait =>
    exact ⟨by simp, { SendEnv.good with acquireTransaction := false, release := release }, ⟨rfl, rfl, rfl, rfl, rfl⟩,
      rfl, rfl⟩
  | response r hr =>
    exact ⟨hr, { SendEnv.good with response := some r, release := release }, ⟨rfl, rfl, rfl, rfl, rfl⟩, if_pos hr, rfl⟩
  | status x hx =>
    exact ⟨hx, { SendEnv.good with status := x, release := release }, ⟨rfl, rfl, rfl, rfl, rfl⟩, rfl, rfl⟩

/-- the send of an exit: what it met, and the same answer -/
theorem Leaves.sends {c d : Collection} {e : DpError} {record locked : Bool} (h : Leaves c e d record locked)
    (hr : firstReleased c.list = none) (release : Bool) : ∃ env : SendEnv,
      sendCollection env c = .ok
        ({ error := if locked then finish release e else e, handed := requested c locked },
          if record then { d with ledger := d.ledger.release c.ledger.next } else d) := by
  cases h with
  | empty hl => exact ⟨.good, by simp [sendCollection, hl, answer, requested]⟩
  | early e hl he =>
    simp only [List.mem_cons, List.not_mem_nil, or_false] at he
    rcases he with rfl | rfl | rfl
    · exact ⟨{ SendEnv.good with running := false }, by simp [sendCollection, hl, answer, requested]⟩
    · exact ⟨{ SendEnv.good with transportStarted := false }, by
        simp [sendCollection, hl, answer, requested, SendEnv.good]⟩
    · exact ⟨{ SendEnv.good with transactionInfo := false }, by
        simp [sendCollection, hl, answer, requested, SendEnv.good]⟩
  | unlocked hl =>
    exact ⟨{ SendEnv.good with acquire := false }, by
      simp [sendCollection, hl, answer, requested, SendEnv.good, withRecord]⟩
  | refused e hl he =>
    obtain ⟨hne, env, hfar, rfl, rfl⟩ := he.verdict release
    exact ⟨env, by rw [sendCollection_far hfar hl hr, if_neg hne]; rfl⟩
  | sent hl =>
    have hfar : Far { SendEnv.good with release := release } := ⟨rfl, rfl, rfl, rfl, rfl⟩
    exact ⟨_, sendCollection_far hfar hl hr⟩

theorem Reached.sends {c : Collection} {s : St} (h : Reached c s) (hr : firstReleased c.list = none)
    (hp : s.pc = .returned) :
    ∃ env : SendEnv, sendCollection env c = .ok ({ error := s.error, handed := s.request }, s.collection) := by
  cases h with
  | returned e d record locked accepted stray release hleaves => exact hleaves.sends hr release
  | _ => cases hp

/-- **The steps and the send.** However the connector's callbacks fall between the caller's steps, a call that has returned
has done what one `sendCollection` does. -/
theorem sends {c : Collection} (hr : firstReleased c.list = none) (ops : List Op)
    (h : (Runs.run step (start c) ops).pc = .returned) : ∃ env : SendEnv,
      sendCollection env c = .ok
        ({ error := (Runs.run step (start c) ops).error, handed := (Runs.run step (start c) ops).request },
          (Runs.run step (start c) ops).collection) :=
  (run_reached c ops).sends hr h

/-! ## All or nothing -/

/-- the records a log says were allocated -/
def allocated (log : List Event) : List ℕ := log.filterMap fun | .allocated b => some b | _ => none

/-- the records it says were released -/
def freed (log : List Event) : List ℕ := log.filterMap fun | .freed b => some b | _ => none

/-- how often it says the collection lock was acquired -/
def acquires (log : List Event) : ℕ := log.countP fun | .locked => true | _ => false

/-- how often it says the collection lock was given back, with success or not -/
def releases (log : List Event) : ℕ := log.countP fun | .unlocked _ => true | _ => false

/-- the streams, their points and the count are as before -/
def Untouched (c d : Collection) : Prop := d.list = c.list ∧ d.dpCount = c.dpCount

/-- the streams are in place, without points -/
def Emptied (c d : Collection) : Prop := d.list = c.list.map (fun s => s.setPoint []) ∧ d.dpCount = 0

/-- what a call that has returned has done to the collection c -/
structure AllOrNothing (c : Collection) (s : St) : Prop where
  /-- it failed before the collection lock was given back -/
  failed : s.error ≠ .none → s.verdict ≠ .none → Untouched c s.collection
  /-- it failed only then, and so because of it -/
  lastRelease : s.error ≠ .none → s.verdict = .none → .unlocked false ∈ s.log
  succeeded : s.error = .none → Emptied c s.collection
  /-- the record was released once if it was allocated, and not at all if not -/
  record : freed s.log = allocated s.log ∧ (allocated s.log).length ≤ 1
  lock : releases s.log = acquires s.log ∧ acquires s.log ≤ 1

theorem Refusal.ne_none {e : DpError} (h : Refusal e) : e ≠ .none := (h.verdict true).1

/-- with an error the exit leaves the points, without one it leaves none -/
theorem Leaves.points {c d : Collection} {e : DpError} {record locked : Bool} (h : Leaves c e d record locked) :
    (e ≠ .none ∧ Untouched c d) ∨ (e = .none ∧ Emptied c d ∧ locked = true) := by
  cases h with
  | empty hl => exact .inl ⟨by simp, rfl, rfl⟩
  | early e hl he =>
    refine .inl ⟨?_, rfl, rfl⟩
    rintro rfl
    simp at he
  | unlocked hl => exact .inl ⟨by simp, rfl, rfl⟩
  | refused e hl he => exact .inl ⟨he.ne_none, rfl, rfl⟩
  | sent hl => exact .inr ⟨rfl, ⟨rfl, rfl⟩, rfl⟩

theorem finish_eq_none {release : Bool} {e : DpError} : finish release e = .none ↔ release = true ∧ e = .none := by
  cases release <;> simp [finish]

/-- the log of a call that has returned -/
theorem log_balanced (b : ℕ) (record locked release : Bool) :
    let log := taken b record locked ++ (if record then [.freed b] else []) ++ if locked then [.unlocked release] else []
    (freed log = allocated log ∧ (allocated log).length ≤ 1) ∧ releases log = acquires log ∧ acquires log ≤ 1 := by
  cases record <;> cases locked <;> simp [taken, freed, allocated, releases, acquires]

/-- what the cleanup makes of the collection touches neither its streams nor its count -/
theorem recordReleased {c d : Collection} {f : Collection → Prop} (hd : f d) (hf : ∀ l, f { d with ledger := l })
    (record : Bool) : f (if record then { d with ledger := d.ledger.release c.ledger.next } else d) := by
  cases record with
  | false => exact hd
  | true => exact hf _

theorem Reached.allOrNothing {c : Collection} {s : St} (h : Reached c s) (hp : s.pc = .returned) :
    AllOrNothing c s := by
  cases h with
  | returned e d record locked accepted stray release hleaves =>
    have hpoints := hleaves.points
    obtain ⟨hrecord, hlock⟩ := log_balanced c.ledger.next record locked release
    constructor
    case failed =>
      intro _ hne
      rcases hpoints with ⟨-, hd⟩ | ⟨he, -⟩
      · exact recordReleased (f := Untouched c) hd (fun _ => hd) record
      · exact absurd he hne
    case lastRelease =>
      intro hfail he
      rcases hpoints with ⟨hne, -⟩ | ⟨-, -, rfl⟩
      · exact absurd he hne
      · have hrelease : release = false := by
          by_contra hr
          exact hfail (by simpa [finish_eq_none, hr] using he)
        simp [hrelease]
    case succeeded =>
      intro hok
      rcases hpoints with ⟨hne, -⟩ | ⟨-, hd, -⟩
      · refine absurd ?_ hne
        dsimp only at hok
        split_ifs at hok
        · exact (finish_eq_none.1 hok).2
        · exact hok
      · exact recordReleased (f := Emptied c) hd (fun _ => hd) record
    case record => exact hrecord
    case lock => exact hlock
  | _ => cases hp

/-- **All or nothing.** Whatever the platform, the connector and the server answer, however often the connector is busy,
and however its callbacks fall between the caller's steps: a call that has returned with an error of its own has left
every stream, every point and the count alone, one that has succeeded has left every stream without points and the count
zero, and the transaction record and the collection lock have been given back exactly if they were taken. -/
theorem all_or_nothing (c : Collection) (ops : List Op) (h : (Runs.run step (start c) ops).pc = .returned) :
    AllOrNothing c (Runs.run step (start c) ops) :=
  (run_reached c ops).allOrNothing h

/-- a send that finds the connector busy twice, then goes through -/
def busyOps : List Op :=
  [.check ⟨true, true, false, false⟩ .tcp, .malloc true .none, .createLock true, .lock .ok, .chain,
    .initiate .ok .serviceBusy .ok, .initiate .ok .serviceBusy .ok, .initiate .ok .success .ok, .wait .ok,
    .response .success, .status .complete .ok, .wait .ok, .judge, .freePoints, .cleanup, .unlock .ok]

/-- a collection of one stream with two points -/
def twoPoints : Collection :=
  Runs.run Datapoints.step (newCollection fun _ => none)
    [.plainStream (ascii "t") (ascii "int32"), .plainPoint (ascii "t") 20, .plainPoint (ascii "t") 21]

theorem busy_emptied :
    twoPoints.dpCount = 2 ∧ (Runs.run step (start twoPoints) busyOps).error = .none ∧
      AllOrNothing twoPoints (Runs.run step (start twoPoints) busyOps) :=
  ⟨by decide +kernel, by decide +kernel, all_or_nothing twoPoints busyOps (by decide +kernel)⟩

end CcApi.Datapoints.Sending
