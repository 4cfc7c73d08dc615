/-
The transports (`ccapi_transport_tcp.c`, `ccapi_transport_udp.c`, `ccapi_transport_sms.c`, the network, status and
configuration handlers of `ccapi.c`, and `ccxapi_stop` of `ccapi_init.c` as far as it deals with them).

Each transport has a record of its configuration, a pointer to it in `ccapi_data_t` and a flag (`connected` or `started`).
Any number of application threads make one call each: a start, a stop, or the stop of the library. A call goes through
`Stage`s, one access to what the threads share each, with an arbitrary `Answer` from the platform and the connector. The
connector's thread handles one event at a time; the handler of a close has two steps, the flag first and the question
whether to reconnect second.

The connector is engaged with a transport from its acceptance of a start on. It is no longer engaged when it has reported
the transport stopped, when it has terminated, and possibly after a close with no reconnection.

The records are named by the number of their allocation, for each transport; their contents are left out.
-/
import CcApi.Lib.Ledger
import CcApi.Platform

namespace CcApi.Transport

open Lib

/-! ## Configurations -/

inductive Kind where
  | tcp
  | udp
  | sms
deriving DecidableEq, Repr

/-- `ccapi_tcp_start_error_t`, `ccapi_udp_start_error_t`, `ccapi_sms_start_error_t` -/
inductive StartError where
  | none
  | ccapiStopped
  | alreadyStarted
  | nullPointer
  | insufficientMemory
  | keepalives
  | ip
  | invalidMac
  | phone
  | maxSessions
  | invalidPhone
  | invalidServiceId
  | init
  | timeout
deriving DecidableEq, Repr

/-- `ccapi_connection_type_t` with its member of the union -/
inductive Connection where
  | lan (mac : List UInt8)
  | wifi (mac : List UInt8)
  | wimax (mac : List UInt8)
  | wan (phone : Option Str)
deriving DecidableEq, Repr

/-- `ccapi_tcp_info_t` -/
structure TcpInfo where
  rx : ℕ
  tx : ℕ
  waitCount : ℕ
  /-- 4 or 16 bytes -/
  ip : List UInt8
  connection : Connection
  password : Option Str
  startTimeout : ℕ
deriving DecidableEq, Repr

/-- `ccapi_udp_info_t` -/
structure UdpInfo where
  maxSessions : ℕ
  startTimeout : ℕ
deriving DecidableEq, Repr

/-- `ccapi_sms_info_t` -/
structure SmsInfo where
  maxSessions : ℕ
  phone : Option Str
  serviceId : Option Str
  startTimeout : ℕ
deriving DecidableEq, Repr

/-- the argument of a start; `none` for NULL -/
inductive StartArg where
  | tcp (info : Option TcpInfo)
  | udp (info : Option UdpInfo)
  | sms (info : Option SmsInfo)
deriving DecidableEq, Repr

def StartArg.kind : StartArg → Kind
  | .tcp _ => .tcp
  | .udp _ => .udp
  | .sms _ => .sms

/-- zero stands for the default -/
def inRange (x lo hi : ℕ) : Bool := x = 0 || (lo ≤ x && x ≤ hi)

/-- `valid_keepalives`; a build with CCAPI_AGGRESSIVE_KEEPALIVES has no wait count -/
def validKeepalives (aggressive : Bool) (i : TcpInfo) : Bool :=
  inRange i.rx 5 7200 && inRange i.tx 5 7200 && (aggressive || inRange i.waitCount 2 64)

def zeros (bytes : List UInt8) : Bool := bytes.all (· = 0)

/-- `valid_connection` -/
def validConnection (i : TcpInfo) : StartError :=
  if zeros i.ip then .ip
  else
    match i.connection with
    | .lan mac | .wifi mac | .wimax mac => if zeros mac then .invalidMac else .none
    | .wan phone => if phone = none then .phone else .none

/-- `valid_phone` -/
def validPhone (phone : Option Str) : Bool :=
  match phone with
  | none | some [] => false
  | some s => s.all (ascii " 0123456789-+#").contains

/-- the checks of a start in front of its allocation -/
def StartArg.early : StartArg → StartError
  | .tcp none | .udp none | .sms none => .nullPointer
  | .tcp (some _) => .none
  | .udp (some i) => if 256 < i.maxSessions then .maxSessions else .none
  | .sms (some i) =>
    if 256 < i.maxSessions then .maxSessions
    else if ¬ validPhone i.phone then .invalidPhone
    else if i.serviceId = none then .invalidServiceId
    else .none

/-- the checks of a TCP start behind its allocation -/
def StartArg.late (aggressive : Bool) : StartArg → StartError
  | .tcp (some i) => if ¬ validKeepalives aggressive i then .keepalives else validConnection i
  | _ => .none

/-- the copy of the argument allocates strings -/
def StartArg.hasStrings : StartArg → Bool
  | .tcp (some i) =>
    i.password ≠ none || match i.connection with
      | .wan phone => phone ≠ none
      | _ => false
  | .sms (some _) => true
  | _ => false

/-- `start_timeout` is WAIT_FOREVER -/
def StartArg.forever : StartArg → Bool
  | .tcp (some i) => i.startTimeout = 0
  | .udp (some i) => i.startTimeout = 0
  | .sms (some i) => i.startTimeout = 0
  | _ => false

/-- the errors at which a start gives the record back -/
def StartError.frees : StartError → Bool
  | .none | .alreadyStarted | .ccapiStopped | .nullPointer => false
  | _ => true

/-! ## The threads -/

inductive Call where
  | start (arg : StartArg)
  | stop (k : Kind)
  /-- `ccxapi_stop` -/
  | libraryStop
deriving DecidableEq, Repr

/-- what a call asks the connector for -/
inductive Action where
  | start (k : Kind)
  | stop (k : Kind)
  | terminate
deriving DecidableEq, Repr

inductive Stage where
  | begin
  | startStarted
  | startArgs
  | startFreeOld
  | startMalloc
  | startCopy
  | startClear
  /-- `connector_initiate_action_secure` -/
  | initiateAcquire (act : Action)
  | initiate (act : Action)
  | initiateRelease (act : Action) (accepted : ConnectorStatus)
  | startWait
  | startFree (e : StartError)
  | startNull (e : StartError)
  /-- `ccxapi_stop_transport_tcp` and its siblings, called by the application or by `ccxapi_stop` -/
  | stopCheck (k : Kind)
  | stopWait (k : Kind)
  | stopFree (k : Kind)
  | stopNull (k : Kind)
  | libraryStarted (k : Kind)
  | libraryFree (k : Kind)
  /-- the wait of `ccxapi_stop` for the connector's thread; `accepted` if the terminate action was answered success -/
  | libraryWait (accepted : Bool)
  /-- what `ccxapi_stop` does once the connector's thread has ended; with an action that was not accepted it gives no memory
  back and returns CCAPI_STOP_ERROR_NOT_STARTED -/
  | teardown (accepted : Bool)
  | returned
deriving DecidableEq, Repr

inductive Result where
  | pending
  | start (e : StartError)
  | stopped
  | notStarted
  | ccfsm
deriving DecidableEq, Repr

structure Thread where
  call : Call
  stage : Stage
  result : Result
deriving DecidableEq, Repr

/-- what the platform or the connector answers a step -/
structure Answer where
  granted : Bool
  /-- a lock operation, or the wait on the condition of the TCP transport -/
  status : CcimpStatus
  acquired : Bool
  connector : ConnectorStatus
  /-- the time of a start over UDP or SMS is up -/
  timedOut : Bool
deriving DecidableEq, Repr

def Answer.lockAcquire (a : Answer) : CcimpStatus := CcApi.lockAcquire a.status a.acquired

/-! ## What the threads share -/

/-- `transport_tcp`, `transport_udp` or `transport_sms`, with the transport's records and what the connector has of it -/
structure Link where
  info : Option ℕ
  /-- `connected` or `started` -/
  started : Bool
  records : Ledger
  engaged : Bool
  /-- an event has read the record through a NULL pointer, or a freed one -/
  eventFault : Bool
  /-- a call has used or freed the record through a NULL pointer, or a freed one -/
  callFault : Bool
deriving DecidableEq, Repr

namespace Link

/-- the pointer points to a record that has not been freed -/
def usable (l : Link) : Bool :=
  match l.info with
  | some r => r ∉ l.records.releases
  | none => false

/-- a call that uses the record -/
def callUse (l : Link) : Link := { l with callFault := l.callFault || !l.usable }

/-- an event that reads the record -/
def eventUse (l : Link) : Link := { l with eventFault := l.eventFault || !l.usable }

/-- `if (info != NULL) free_transport_info(info)`, of `free_transport_tcp_info` and its siblings -/
def freeInfo (l : Link) : Link :=
  match l.info with
  | some r => { l.callUse with records := l.records.release r }
  | none => l

/-- info = NULL -/
def nullInfo (l : Link) : Link := { l with info := none }

/-- `info = ccapi_malloc(..)` -/
def mallocInfo (granted : Bool) (l : Link) : Link :=
  { l with info := (l.records.acquire granted).1, records := (l.records.acquire granted).2 }

end Link

/-- `connector_close_status_t` -/
inductive CloseStatus where
  | cloudDisconnected
  | cloudRedirected
  | deviceError
  | noKeepalive
  | deviceStopped
  | deviceTerminated
  | abort
deriving DecidableEq, Repr

structure System where
  /-- an assertion has halted the program -/
  halted : Bool
  /-- `thread.connector_run->status` -/
  status : ThreadStatus
  /-- the connector has accepted the terminate action -/
  terminating : Bool
  link : Kind → Link
  /-- the close whose handler has cleared the flag -/
  closing : Option (Kind × CloseStatus)
  thread : ℕ → Thread

namespace System

/-- CCAPI_RUNNING -/
def running (s : System) : Bool := s.status = .running

/-- what a step makes of a transport -/
def onLink (k : Kind) (f : Link → Link) (s : System) : System := { s with link := Function.update s.link k (f (s.link k)) }

def setThread (i : ℕ) (t : Thread) (s : System) : System := { s with thread := Function.update s.thread i t }

/-- the thread of call i goes to a stage -/
def goto (i : ℕ) (stage : Stage) (s : System) : System := s.setThread i { s.thread i with stage := stage }

/-- call i returns -/
def ret (i : ℕ) (r : Result) (s : System) : System := s.setThread i { s.thread i with stage := .returned, result := r }

/-- the exit of a start with an error -/
def startFail (i : ℕ) (e : StartError) (s : System) : System :=
  if e.frees then s.goto i (.startFree e) else s.ret i (.start e)

/-- where a stop of a transport returns to -/
def stopReturn (i : ℕ) (k : Kind) (r : Result) (s : System) : System :=
  if (s.thread i).call = .libraryStop then s.goto i (.libraryFree k) else s.ret i r

/-- behind the transport in `ccxapi_stop` -/
def afterFree : Kind → Stage
  | .tcp => .libraryStarted .udp
  | .udp => .libraryStarted .sms
  | .sms => .initiateAcquire .terminate

/-- what `connector_initiate_action_secure` returned -/
def initiated (i : ℕ) (act : Action) (st : ConnectorStatus) (s : System) : System :=
  match st, act with
  | .success, .start _ => s.goto i .startWait
  | .success, .stop k => s.goto i (.stopWait k)
  | .success, .terminate => s.goto i (.libraryWait true)
  | .serviceBusy, _ => s.goto i (.initiateAcquire act)
  | _, .start _ => s.startFail i .init
  | _, .stop k => s.stopReturn i k .ccfsm
  -- `ASSERT_MSG_GOTO(ccfsm_status != connector_success, done)` holds here, so the stop goes on
  | _, .terminate => s.goto i (.libraryWait false)

/-- what `connector_initiate_action` answers; a connector that has terminated accepts nothing -/
def answer (a : Answer) (s : System) : ConnectorStatus :=
  if a.connector = .success ∧ ¬ s.running then .failed else a.connector

/-- what the connector does when it accepts an action -/
def accept (act : Action) (s : System) : System :=
  match act with
  | .start k => s.onLink k fun l => { l with engaged := true }
  | .stop _ => s
  | .terminate => { s with terminating := true }

/-- the wait of a start -/
def startWait (i : ℕ) (arg : StartArg) (a : Answer) (s : System) : System :=
  let started := (s.link arg.kind).started
  match arg.kind, arg.forever with
  -- the answer of an infinite wait on the condition is not looked at
  | .tcp, true => if started ∨ a.status ≠ .ok then s.ret i (.start .none) else s
  | .tcp, false =>
    match a.status with
    | .busy => s.startFail i .timeout
    | .error => s.startFail i .init
    | .ok => if started then s.ret i (.start .none) else s
  | _, true => if started then s.ret i (.start .none) else s
  | _, false => if a.timedOut then s.startFail i .timeout else if started then s.ret i (.start .none) else s

/-- the steps of a start behind its first -/
def start (aggressive : Bool) (i : ℕ) (arg : StartArg) (a : Answer) (s : System) : System :=
  let k := arg.kind
  match (s.thread i).stage with
  | .startStarted => if (s.link k).started then s.ret i (.start .alreadyStarted) else s.goto i .startArgs
  | .startArgs =>
    match arg.early with
    | .none => s.goto i .startFreeOld
    | e => s.startFail i e
  | .startFreeOld => (s.onLink k Link.freeInfo).goto i .startMalloc
  | .startMalloc =>
    let s := s.onLink k (Link.mallocInfo a.granted)
    if a.granted then s.goto i .startCopy else s.startFail i .insufficientMemory
  | .startCopy =>
    let s := s.onLink k Link.callUse
    match arg.late aggressive with
    | .none => if arg.hasStrings ∧ ¬ a.granted then s.startFail i .insufficientMemory else s.goto i .startClear
    | e => s.startFail i e
  | .startClear => (s.onLink k fun l => { l with started := false }).goto i (.initiateAcquire (.start k))
  | .startWait => s.startWait i arg a
  | .startFree e => if (s.link k).info = none then s.ret i (.start e) else (s.onLink k Link.freeInfo).goto i (.startNull e)
  | .startNull e => (s.onLink k Link.nullInfo).ret i (.start e)
  | _ => s

/-- the first step of a call, and all of a call's steps that are not a start's -/
def api (aggressive : Bool) (i : ℕ) (a : Answer) (s : System) : System :=
  match (s.thread i).stage, (s.thread i).call with
  | .begin, .start _ => if s.running then s.goto i .startStarted else s.ret i (.start .ccapiStopped)
  | .begin, .stop k => s.goto i (.stopCheck k)
  | .begin, .libraryStop => if s.running then s.goto i (.libraryStarted .tcp) else s.ret i .notStarted
  | .initiateAcquire act, _ =>
    if a.lockAcquire = .ok then s.goto i (.initiate act) else s.initiated i act .abort
  | .initiate act, _ => (if s.answer a = .success then s.accept act else s).goto i (.initiateRelease act (s.answer a))
  -- a release that fails makes an abort of what the connector has accepted
  | .initiateRelease act st, _ => if a.status = .ok then s.initiated i act st else s.initiated i act .abort
  | .stopCheck k, _ =>
    if s.running ∧ (s.link k).started then s.goto i (.initiateAcquire (.stop k)) else s.stopReturn i k .notStarted
  | .stopWait k, _ => if (s.link k).started then s else s.goto i (.stopFree k)
  | .stopFree k, _ =>
    if (s.link k).info = none then s.stopReturn i k .stopped else (s.onLink k Link.freeInfo).goto i (.stopNull k)
  | .stopNull k, _ => (s.onLink k Link.nullInfo).stopReturn i k .stopped
  | .libraryStarted k, _ => if (s.link k).started then s.goto i (.stopCheck k) else s.goto i (.libraryFree k)
  | .libraryFree k, _ => (s.onLink k Link.freeInfo).goto i (afterFree k)
  | .libraryWait accepted, _ => if s.status = .notStarted then s.goto i (.teardown accepted) else s
  | .teardown _, _ => s
  | .returned, _ => s
  | _, .start arg => s.start aggressive i arg a
  | _, _ => s

end System

/-! ## The connector -/

/-- the configuration requests that read a transport's record -/
inductive ConfigRequest where
  | connectionType
  | macAddr
  | ipAddr
  | identityVerification
  | password
  | maxTransaction
  | rxKeepalive
  | txKeepalive
  | waitCount
  | linkSpeed
  | phoneNumber
  | udpMaxSessions
  | udpRxTimeout
  | smsMaxSessions
  | smsRxTimeout
  | getDeviceCloudPhone
  | setDeviceCloudPhone
  | deviceCloudServiceId
deriving DecidableEq, Repr

def ConfigRequest.kind : ConfigRequest → Kind
  | .udpMaxSessions | .udpRxTimeout => .udp
  | .smsMaxSessions | .smsRxTimeout | .getDeviceCloudPhone | .setDeviceCloudPhone | .deviceCloudServiceId => .sms
  | _ => .tcp

/-- the close causes at which the handler asks the user whether to reconnect -/
def CloseStatus.asks : CloseStatus → Kind → Bool
  | .cloudDisconnected, _ | .deviceError, _ => true
  | .cloudRedirected, k | .noKeepalive, k => k = .tcp
  | _, _ => false

/-- `reconnect` as the handler leaves it: the user's answer, what it was before, or false -/
def CloseStatus.reconnect (c : CloseStatus) (k : Kind) (answer before : Bool) : Bool :=
  if c.asks k then answer
  else
    match c with
    | .cloudRedirected | .noKeepalive => before
    | _ => false

inductive Event where
  /-- communication started over TCP; a network open over UDP or SMS, with the platform's answer -/
  | opened (k : Kind) (status : CcimpStatus)
  /-- keepalive missed or restored -/
  | keepalive
  | config (r : ConfigRequest)
  /-- a network close, with the platform's answer -/
  | close (k : Kind) (c : CloseStatus) (status : CcimpStatus)
  /-- the second half of the handler; finished says whether the connector is done with a transport it does not reconnect -/
  | closed (answer before finished : Bool)
  | stopCompleted (k : Kind)
  /-- `connector_run` answers that the connector has terminated -/
  | terminated
  /-- the connector's thread ends -/
  | ended
deriving DecidableEq, Repr

namespace System

/-- the connector is in no handler -/
def idle (s : System) : Bool := s.status = .running && s.closing = none

def event (e : Event) (s : System) : System :=
  match e with
  | .opened k status =>
    if s.idle ∧ (s.link k).engaged ∧ (k = .tcp ∨ status = .ok) then
      s.onLink k fun l => { l with started := true }
    else s
  | .keepalive => if s.idle ∧ (s.link .tcp).engaged then s.onLink .tcp Link.eventUse else s
  | .config r => if s.idle ∧ (s.link r.kind).engaged then s.onLink r.kind Link.eventUse else s
  | .close k c status =>
    if s.idle ∧ (s.link k).engaged ∧ status = .ok then
      { s.onLink k (fun l => { l with started := false }) with closing := some (k, c) }
    else s
  | .closed answer before finished =>
    match s.closing with
    | some (k, c) =>
      let s := if c.asks k then s.onLink k Link.eventUse else s
      let done := finished && !c.reconnect k answer before
      { s.onLink k (fun l => { l with engaged := l.engaged && !done }) with closing := none }
    | none => s
  | .stopCompleted k =>
    if s.idle ∧ (s.link k).engaged then
      s.onLink k fun l => { l with started := false, engaged := false }
    else s
  | .terminated =>
    if s.idle ∧ s.terminating then
      { s with status := .requestStop, link := fun k => { s.link k with engaged := false } }
    else s
  | .ended => if s.status = .requestStop then { s with status := .notStarted } else s

/-- an assertion that a build with CCIMP_DEBUG_ENABLED halts at -/
def asserts (s : System) (i : ℕ) (a : Answer) : Bool :=
  match (s.thread i).stage with
  | .initiateAcquire _ => a.lockAcquire ≠ .ok
  | .initiateRelease act st =>
    a.status ≠ .ok || match act with
      | .start _ => st = .abort || st = .failed
      | _ => false
  | .stopCheck k => k = .tcp && (s.thread i).call = .libraryStop && !(s.running && (s.link k).started)
  | .stopFree k => (s.link k).info = none
  | _ => false

end System

inductive Op where
  | api (i : ℕ) (a : Answer)
  | event (e : Event)
deriving DecidableEq, Repr

/-- the build -/
structure Build where
  /-- CCIMP_DEBUG_ENABLED -/
  debug : Bool
  /-- CCAPI_AGGRESSIVE_KEEPALIVES -/
  aggressive : Bool
deriving DecidableEq, Repr

def System.step (b : Build) (s : System) (o : Op) : System :=
  if s.halted then s
  else
    match o with
    | .api i a => if b.debug ∧ s.asserts i a then { s with halted := true } else s.api b.aggressive i a
    | .event e => s.event e

/-- a started library with its calls still to be made -/
def System.fresh (calls : ℕ → Call) : System :=
  { halted := false, status := .running, terminating := false
    link := fun _ =>
      { info := none, started := false, records := Ledger.empty, engaged := false, eventFault := false, callFault := false }
    closing := none
    thread := fun i => { call := calls i, stage := .begin, result := .pending } }

end CcApi.Transport
