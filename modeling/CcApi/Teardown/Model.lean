/-
The two teardowns of the library (`ccxapi_stop`, `ccxapi_asynchronous_stop`, `ccapi_stop_thread` and
`free_ccapi_data_internal_resources` of `ccapi_init.c`, `ccapi_connector_run_thread` of `ccapi.c`).

One application thread calls ccxapi_stop, another one is in a transport start or in a send. The connector-run thread runs the
connector until it has terminated, and then ends, or until it aborts, and then tears the library down itself. A teardown is a
list of tasks: it stops the workers one after the other, waiting for each, and frees their records, its own thread's record
and the library's.

- `torn_down_once`: in every run in which no step `breaks`, nothing that has been freed is looked into or freed again, and a
  teardown that is through has freed everything.
- `breaks`: what the code leaves to chance. Neither teardown asks whether somebody else is still in a call, or whether the other
  one is at work; a start takes up a transport that a teardown has dealt with; and a ccxapi_stop whose terminate action was not
  answered success polls on, stops the workers when the connector has ended all the same, and frees nothing.
- `aborted_while_stopping`: ccxapi_stop polls a status in a record that the other teardown has freed.

Premises: a call looks into the library's record at the steps of `looks` and `sendLooks`; the records of the sends are not part
of this (`Send.Lifetime`). A worker looks into its thread record and the library's record until it has ended.
-/
import CcApi.Lib.Slot
import CcApi.Transport.Lifetime
import CcApi.Send.Model

namespace CcApi.Teardown

open Lib Lib.Runs
open Transport (System Kind Stage Link Event StartArg Build Action)

/-! ## Tasks -/

inductive Worker where
  | rci
  | receive
  | cli
  | firmware
deriving DecidableEq, Repr

inductive ThreadName where
  | connectorRun
  | worker (w : Worker)
deriving DecidableEq, Repr

/-- what a teardown frees, but for the transports' records -/
inductive Record where
  | ccapiData
  | thread (t : ThreadName)
deriving DecidableEq, Repr

inductive Task where
  /-- `if (info != NULL) free_transport_info(info)` -/
  | freeInfo (k : Kind)
  /-- `ccapi_stop_thread`, up to the release of the thread's lock -/
  | signal (t : ThreadName)
  /-- its wait for the end of the thread -/
  | await (t : ThreadName)
  /-- `reset_heap_ptr` of the thread's record -/
  | freeThread (t : ThreadName)
  /-- `ccapi_free(ccapi_data)` -/
  | freeData
deriving DecidableEq, Repr

def Task.record : Task → Option Record
  | .freeThread t => some (.thread t)
  | .freeData => some .ccapiData
  | _ => none

/-- what a task looks into -/
def Task.looks : Task → List Record
  | .freeInfo _ | .freeThread _ => [.ccapiData]
  | .signal t | .await t => [.ccapiData, .thread t]
  | .freeData => []

/-- `ccapi_stop_thread` -/
def stopThread (t : ThreadName) : List Task := [.signal t, .await t]

variable (has : Worker → Bool)

/-- `ccapi_stop_thread` of the workers that have been started -/
def stopWorkers : List Task :=
  ([.rci, .receive, .cli, .firmware].filter has).flatMap fun w => stopThread (.worker w)

/-- `free_ccapi_data_internal_resources`, and the free of the library's record -/
def freeResources : List Task :=
  ([.cli, .receive, .rci, .firmware].filter has).map (fun w => .freeThread (.worker w)) ++
    [.freeThread .connectorRun, .freeData]

/-- `ccxapi_stop` behind its wait for the connector-run thread; behind `done` it frees only where `error` is
CCAPI_STOP_ERROR_NONE, that is where the terminate action was answered success -/
def stopTasks (accepted : Bool) : List Task :=
  (stopThread .connectorRun ++ stopWorkers has) ++ if accepted then freeResources has else []

/-- `ccxapi_asynchronous_stop` -/
def asyncTasks : List Task := ([.freeInfo .tcp, .freeInfo .udp, .freeInfo .sms] ++ stopWorkers has) ++ freeResources has

/-! ## The machine -/

/-- ccxapi_stop is behind its wait -/
def tearing : Stage → Bool
  | .teardown _ => true
  | _ => false

structure State where
  /-- the transports, thread 0 in ccxapi_stop, and thread 1 if it is in a start -/
  sys : System
  /-- the other thread, if it is in a send -/
  send : Option Send.Transaction
  /-- `file_system_lock` has not been left taken -/
  fileLockFree : Bool
  worker : Worker → ThreadStatus
  /-- what is left of ccxapi_stop behind its wait; when nothing is left it returns -/
  tail : List Task
  /-- what is left of ccxapi_asynchronous_stop, once the connector has aborted -/
  async : Option (List Task)
  /-- a teardown has dealt with the transport -/
  dealt : Kind → Bool
  freed : List Record
  /-- a freed record has been looked into -/
  faulted : Bool

inductive Op where
  /-- a step of ccxapi_stop -/
  | stopper (a : Transport.Answer)
  /-- a step of the start or the send -/
  | caller (a : Transport.Answer) (c : Send.Answer)
  /-- what the connector does in `connector_run`, and the end of its thread -/
  | event (e : Event)
  | callback (c : Send.Callback)
  | statusRelease (r : CcimpStatus)
  /-- `connector_run` answers abort -/
  | abort
  /-- a step of ccxapi_asynchronous_stop -/
  | async
  /-- a worker at work; it may end when it has been asked to, or by a failing assertion -/
  | work (w : Worker) (ends : Bool)

namespace State

def status (x : State) : ThreadName → ThreadStatus
  | .connectorRun => x.sys.status
  | .worker w => x.worker w

def stopStage (x : State) : Stage := (x.sys.thread 0).stage
def startStage (x : State) : Stage := (x.sys.thread 1).stage

def halt (x : State) : State := { x with sys := { x.sys with halted := true } }

/-- the connector-run thread is in its loop -/
def looping (x : State) : Bool := x.async.isNone && x.sys.status ≠ .notStarted

/-- `ccapi_stop_thread` asks a thread that runs to stop -/
def signal (t : ThreadName) (x : State) : State :=
  if x.status t = .running then
    match t with
    | .connectorRun => { x with sys := { x.sys with status := .requestStop } }
    | .worker w => { x with worker := Function.update x.worker w .requestStop }
  else x

/-- a task, and whether it is done -/
def perform (x : State) : Task → State × Bool
  | .freeInfo k =>
    ({ x with sys := x.sys.onLink k Link.freeInfo, dealt := Function.update x.dealt k true }, true)
  | .signal t => (x.signal t, true)
  | .await t => (x, x.status t = .notStarted)
  | .freeThread t => ({ x with freed := x.freed ++ [.thread t] }, true)
  | .freeData => ({ x with freed := x.freed ++ [.ccapiData] }, true)

/-- the first of the tasks; what is left -/
def performFirst (x : State) : List Task → State × List Task
  | [] => (x, [])
  | t :: rest => ((x.perform t).1, if (x.perform t).2 then rest else t :: rest)

/-- ccxapi_stop -/
def stopper (b : Build) (a : Transport.Answer) (x : State) : State :=
  match x.stopStage with
  | .teardown _ => { (x.performFirst x.tail).1 with tail := (x.performFirst x.tail).2 }
  | .libraryWait accepted =>
    let tail := if x.sys.status = .notStarted then stopTasks has accepted else x.tail
    { x with sys := x.sys.step b (.api 0 a), tail := tail }
  | .libraryFree k => { x with sys := x.sys.step b (.api 0 a), dealt := Function.update x.dealt k true }
  | _ => { x with sys := x.sys.step b (.api 0 a) }

/-- a step of the send -/
def sendStep (b : Build) (o : Send.Op) (x : State) : State :=
  match x.send with
  | some t =>
    if t.locksFiles o ∧ ¬ x.fileLockFree then x
    else if b.debug ∧ t.asserts o then x.halt
    else { x with send := some (t.step o), fileLockFree := t.fileLockAfter b.debug o x.fileLockFree }
  | none => x

def caller (b : Build) (a : Transport.Answer) (c : Send.Answer) (x : State) : State :=
  match x.send with
  | some _ => x.sendStep b (.api c)
  | none => { x with sys := x.sys.step b (.api 1 a) }

/-- ccxapi_asynchronous_stop -/
def asyncStep (x : State) : State :=
  match x.async with
  | some l => { (x.performFirst l).1 with async := some (x.performFirst l).2 }
  | none => x

def move (b : Build) (x : State) : Op → State
  | .stopper a => x.stopper has b a
  | .caller a c => x.caller b a c
  | .event e => if x.async.isNone then { x with sys := x.sys.step b (.event e) } else x
  | .callback c => if x.async.isNone ∧ x.sys.running then x.sendStep b (.callback c) else x
  | .statusRelease r => if x.async.isNone ∧ x.sys.running then x.sendStep b (.statusRelease r) else x
  | .abort => if x.async.isNone ∧ x.sys.idle then { x with async := some (asyncTasks has) } else x
  | .async => x.asyncStep
  | .work w ends => if ends then { x with worker := Function.update x.worker w .notStarted } else x

/-! ### What a step looks into -/

/-- CCAPI_RUNNING and the wait of ccxapi_stop look into the connector-run thread's record -/
def looks : Stage → List Record
  | .begin | .stopCheck _ | .libraryWait _ => [.ccapiData, .thread .connectorRun]
  | .returned | .teardown _ => []
  | _ => [.ccapiData]

def sendLooks (t : Send.Transaction) : List Record :=
  match t.stage with
  | .checkargs => [.ccapiData, .thread .connectorRun]
  | .fileStatus | .fileOpen | .initiateAcquire | .initiate | .initiateRelease _ => [.ccapiData]
  | .fileClose => if t.call.service = .file then [.ccapiData] else []
  | _ => []

def firstLooks (l : List Task) : List Record := (l.head?.map Task.looks).getD []

def touched (x : State) : Op → List Record
  | .stopper _ => if tearing x.stopStage then firstLooks x.tail else looks x.stopStage
  | .caller _ _ =>
    match x.send with
    | some t => sendLooks t
    | none => looks x.startStage
  | .event _ | .callback _ | .statusRelease _ | .abort => if x.looping then [.ccapiData, .thread .connectorRun] else []
  | .async => firstLooks (x.async.getD [])
  | .work w _ => if x.worker w = .notStarted then [] else [.ccapiData, .thread (.worker w)]

def step (b : Build) (x : State) (o : Op) : State :=
  if x.sys.halted then x
  else { x.move has b o with faulted := x.faulted || (x.touched o).any (· ∈ x.freed) }

/-! ### What the code leaves to chance -/

/-- ccxapi_stop is in progress -/
def stopperBusy (x : State) : Bool := x.stopStage ≠ .begin && x.stopStage ≠ .returned && x.tail ≠ []

/-- a send that will still look into the library's record -/
def sendBusy (t : Send.Transaction) : Bool :=
  match t.stage with
  | .checkargs | .free | .collectionRelease | .returned => false
  | .wait | .lockDestroy | .fileClose => t.call.service = .file
  | _ => true

/-- the start or the send is in progress -/
def callerBusy (x : State) : Bool :=
  match x.send with
  | some t => sendBusy t
  | none => x.startStage ≠ .begin && x.startStage ≠ .returned

/-- CCAPI_RUNNING would look into what has been freed -/
def gone (x : State) : Bool := .ccapiData ∈ x.freed || .thread .connectorRun ∈ x.freed

end State

/-- how far a start is with the record -/
def maker : Stage → Slot.Maker
  | .startMalloc => .emptied
  | .startCopy | .startClear | .startWait | .initiateAcquire (.start _) | .initiate (.start _)
  | .initiateRelease (.start _) _ => .holding
  | .startFree _ => .failing
  | .startNull _ => .failed
  | _ => .away

namespace State

/-- the start that is in progress has the transport's record -/
def claim (x : State) (k : Kind) : Slot.Maker :=
  match (x.sys.thread 1).call with
  | .start arg => if arg.kind = k then maker x.startStage else .away
  | _ => .away

/-- the running connector has the transport's record -/
def lent (x : State) (k : Kind) : Bool := (x.sys.link k).engaged && x.async.isNone

/-- a stop has freed the transport's record, and not yet cleared the pointer -/
def clearing (x : State) (k : Kind) : Bool := x.stopStage = .stopNull k

/-- what is pointed to may be freed -/
def mayFree (x : State) (k : Kind) : Bool := !x.lent k && !x.clearing k && !x.dealt k

/-- a call begins when the library is gone; a stop leaves its wait though its terminate action was not answered success, to
free nothing; a teardown frees what a call in progress looks into; a transport's record is freed that somebody else has, or
whose pointer dangles -/
def breaks (x : State) : Op → Bool
  | .stopper _ =>
    match x.stopStage with
    | .begin => x.gone
    | .stopFree k | .libraryFree k => x.claim k ≠ .away || !x.mayFree k
    | .libraryWait accepted => !accepted && x.sys.status = .notStarted
    | .teardown _ => (x.tail.head?.bind Task.record).isSome && x.callerBusy
    | _ => false
  | .caller _ _ =>
    match x.send with
    | some t => t.stage = .checkargs && x.gone
    | none =>
      match x.startStage, (x.sys.thread 1).call with
      | .begin, _ => x.gone
      | .startFreeOld, .start arg | .startFree _, .start arg => !x.mayFree arg.kind
      | _, _ => false
  | .async =>
    match (x.async.getD []).head? with
    | some (.freeInfo k) => x.claim k ≠ .away || !x.mayFree k
    | some t => t.record.isSome && (x.stopperBusy || x.callerBusy)
    | none => false
  | _ => false

end State

/-- the other thread's call -/
inductive Other where
  | start (arg : StartArg)
  | send (call : Send.Call)

/-- the library as it runs, with the calls still to be made -/
def fresh (other : Other) : State where
  sys := System.fresh fun i =>
    match i, other with
    | 1, .start arg => .start arg
    | _, _ => .libraryStop
  send := match other with
    | .send call => some (Send.Transaction.begin call)
    | .start _ => none
  fileLockFree := true
  worker := fun w => if has w then .running else .notStarted
  tail := stopTasks has true
  async := none
  dealt := fun _ => false
  freed := []
  faulted := false

end CcApi.Teardown
