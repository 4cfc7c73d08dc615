/-
The four sends (`ccapi_send.c`, `ccapi_send_ping.c`, `send_collection` of `ccapi_datapoints.c`) and the connector's callbacks
for what they initiate (`ccapi_data_handler.c`, `ccapi_sm_handler.c`, `ccapi_data_points_handler` of `ccapi.c`).

A send allocates a record, hands its address to the connector as `user_context` and waits on a lock in the record. The
connector's thread calls back as long as it has the action: for the data of a send, its length, the cloud's response and
last the status (for a ping the response), whose handler releases the lock.

The calling thread goes through `Stage`s, one lock operation, allocation, platform or connector call each, all answered by an
arbitrary `Answer`. The handler of the status has two steps, the second one the release of the lock. A lock is acquired
only when it was released before. A status handler of the data points that answers busy is called again; every other
answer to a status ends the action.

The file operations of a send (`ccapi_get_dir_entry_status`, `ccapi_open_file`, `ccapi_read_file`, `ccapi_close_file`) acquire
`file_system_lock` and release it in an ASSERT_MSG, which is empty in a build without CCIMP_DEBUG_ENABLED: there the first of
them leaves the lock taken, and the next one waits for ever.

What a successful sending of a collection does to its points is in `Datapoints`.
-/
import CcApi.Platform

namespace CcApi.Send

/-! ## The calls -/

inductive Service where
  | data
  | file
  | ping
  | dataPoints
deriving DecidableEq, Repr

/-- `ccapi_send_error_t`, `ccapi_ping_error_t` and `ccapi_dp_error_t` -/
inductive TxError where
  | none
  | ccapiNotRunning
  | transportNotValid
  | transportNotStarted
  | invalidCloudPath
  | invalidContentType
  | invalidData
  | invalidLocalPath
  | invalidHintPointer
  | invalidArgument
  | insufficientMemory
  | lockFailed
  | notAFile
  | accessingFile
  | initiateActionFailed
  | responseBadRequest
  | responseUnavailable
  | responseCloudError
  | responseCancel
  | responseTimeout
  | responseError
  | statusCancel
  | statusTimeout
  | statusInvalidData
  | statusSessionError
deriving DecidableEq, Repr

/-- `ccapi_string_info_t`; the string is `none` for NULL -/
structure StringInfo where
  string : Option Str
  length : ℕ
deriving DecidableEq, Repr

/-- the arguments of a send, and what its checks find in `ccapi_data_t` -/
structure Call where
  service : Service
  /-- CCAPI_RUNNING -/
  running : Bool
  /-- the transport's started flag; `none` for a ping over TCP -/
  transportStarted : Option Bool
  cloudPath : Option Str
  contentType : Option Str
  /-- `none` for NULL -/
  data : Option Str
  localPath : Option Str
  hint : Option StringInfo
  /-- neither the collection nor its stream list is NULL -/
  collection : Bool
  withReply : Bool
deriving DecidableEq, Repr

/-- NULL or empty -/
def blank (s : Option Str) : Bool := (s.getD []).isEmpty

/-- `checkargs_send_common` -/
def checkargsSendCommon (c : Call) : TxError :=
  if ¬ c.running then .ccapiNotRunning
  else if c.transportStarted ≠ some true then .transportNotStarted
  else if blank c.cloudPath then .invalidCloudPath
  else
    match c.contentType with
    | none => .none
    | some s => if s = [] ∨ 255 < s.length then .invalidContentType else .none

/-- `checkargs_send_data` -/
def checkargsSendData (c : Call) : TxError := if blank c.data then .invalidData else .none

/-- `checkargs_send_file` -/
def checkargsSendFile (c : Call) : TxError := if blank c.localPath then .invalidLocalPath else .none

/-- `checkargs_send_with_reply` -/
def checkargsSendWithReply (c : Call) : TxError :=
  match c.hint with
  | some h => if h.string = none ∨ h.length = 0 then .invalidHintPointer else .none
  | none => .none

/-- `checkargs_send_ping` -/
def checkargsSendPing (c : Call) : TxError :=
  if ¬ c.running then .ccapiNotRunning
  else
    match c.transportStarted with
    | none => .transportNotValid
    | some false => .transportNotStarted
    | some true => .none

/-- the checks at the head of `send_collection` -/
def checkargsSendCollection (c : Call) : TxError :=
  if ¬ c.collection then .invalidArgument
  else if ¬ c.running then .ccapiNotRunning
  else if c.transportStarted ≠ some true then .transportNotStarted
  else .none

/-- the first of two checks that fails -/
def TxError.orElse : TxError → TxError → TxError
  | .none, e => e
  | e, _ => e

/-- each send's checks, in order -/
def Call.checkargs (c : Call) : TxError :=
  match c.service with
  | .data => (checkargsSendCommon c).orElse ((checkargsSendData c).orElse (checkargsSendWithReply c))
  | .file => (checkargsSendCommon c).orElse ((checkargsSendFile c).orElse (checkargsSendWithReply c))
  | .ping => checkargsSendPing c
  | .dataPoints => checkargsSendCollection c

/-! ## The records -/

/-- the response codes of data service and data points -/
inductive Response where
  | success
  | badRequest
  | unavailable
  | cloudError
deriving DecidableEq, Repr

/-- `ccapi_svc_send_t` -/
structure SvcSend where
  sendingFile : Bool
  /-- how far `next_data` is into the caller's data -/
  nextData : ℕ
  fileHandler : ℕ
  bytesRemaining : ℕ
  /-- the lock is not NULL -/
  sendLock : Bool
  requestError : TxError
  responseError : TxError
  statusError : TxError
  rawResponseError : Option Response
deriving DecidableEq, Repr

/-- `ccapi_svc_ping_t` -/
structure SvcPing where
  pingLock : Bool
  responseError : TxError
deriving DecidableEq, Repr

/-- `ccapi_dp_transaction_info_t` -/
structure TransactionInfo where
  lock : Bool
  responseError : TxError
  status : TxError
deriving DecidableEq, Repr

inductive Context where
  | send (c : SvcSend)
  | ping (c : SvcPing)
  | dataPoints (c : TransactionInfo)
deriving DecidableEq, Repr

/-- what malloc's memory happens to hold -/
structure Memory where
  send : SvcSend
  ping : SvcPing
  dataPoints : TransactionInfo
deriving DecidableEq, Repr

/-- a new record, as far as it is written before its lock is created -/
def Context.fresh (m : Memory) : Service → Context
  | .data | .file => .send m.send
  | .ping => .ping m.ping
  | .dataPoints => .dataPoints { m.dataPoints with responseError := .initiateActionFailed }

/-- `setup_send_common` with `setup_send_data`, `setup_send_ping`, `ccapi_lock_create` of a collection: the lock is there -/
def Context.locked (call : Call) : Context → Context
  | .send c =>
    let c := { c with sendLock := true, requestError := .none, responseError := .none, statusError := .none }
    if call.service = .data then
      .send { c with nextData := 0, bytesRemaining := (call.data.getD []).length, sendingFile := false }
    else .send c
  | .ping c => .ping { c with pingLock := true, responseError := .none }
  | .dataPoints c => .dataPoints { c with lock := true }

/-- a failing create leaves the lock of a send and of a ping unwritten, and makes that of a collection NULL -/
def Context.unlocked : Context → Context
  | .dataPoints c => .dataPoints { c with lock := false }
  | c => c

/-- `setup_send_file`, the file's status -/
def Context.sized (size : ℕ) : Context → Context
  | .send c => .send { c with bytesRemaining := size }
  | c => c

/-- `setup_send_file`, the file opened -/
def Context.opened (handler : ℕ) : Context → Context
  | .send c => .send { c with fileHandler := handler, sendingFile := true, nextData := 0 }
  | c => c

def Context.hasLock : Context → Bool
  | .send c => c.sendLock
  | .ping c => c.pingLock
  | .dataPoints c => c.lock

def Context.hasFile : Context → Bool
  | .send c => c.sendingFile
  | _ => false

/-- what a send returns once it was woken -/
def Context.result (withReply : Bool) : Context → TxError
  | .send c =>
    if c.requestError ≠ .none then c.requestError
    else if withReply ∧ c.responseError ≠ .none then c.responseError
    else c.statusError
  | .ping c => c.responseError
  | .dataPoints c => if c.responseError ≠ .none then c.responseError else c.status

/-! ## The connector's callbacks -/

/-- `connector_data_service_status_t` -/
inductive SendStatus where
  | complete
  | cancel
  | timeout
  | sessionError
deriving DecidableEq, Repr

/-- `connector_sm_ping_status_t` -/
inductive PingStatus where
  | success
  | complete
  | cancel
  | timeout
  | error
deriving DecidableEq, Repr

/-- `connector_data_point_status_t` -/
inductive DataPointStatus where
  | complete
  | cancel
  | timeout
  | invalidData
  | sessionError
deriving DecidableEq, Repr

def Response.txError : Response → TxError
  | .success => .none
  | .badRequest => .responseBadRequest
  | .unavailable => .responseUnavailable
  | .cloudError => .responseCloudError

def SendStatus.txError : SendStatus → TxError
  | .complete => .none
  | .cancel => .statusCancel
  | .timeout => .statusTimeout
  | .sessionError => .statusSessionError

def PingStatus.txError : PingStatus → TxError
  | .success | .complete => .none
  | .cancel => .responseCancel
  | .timeout => .responseTimeout
  | .error => .responseError

def DataPointStatus.txError : DataPointStatus → TxError
  | .complete => .none
  | .cancel => .statusCancel
  | .timeout => .statusTimeout
  | .invalidData => .statusInvalidData
  | .sessionError => .statusSessionError

/-- what a file operation is answered where it acquires `file_system_lock`, and where it releases it -/
structure FileLock where
  acquire : CcimpStatus
  release : CcimpStatus
deriving DecidableEq, Repr

/-- the status of a file operation: without the lock the platform is not asked -/
def FileLock.status (l : FileLock) (platform : CcimpStatus) : CcimpStatus := if l.acquire = .ok then platform else l.acquire

/-- the assertion around the release does not hold -/
def FileLock.asserts (l : FileLock) : Bool := l.acquire = .ok && l.release ≠ .ok

/-- what the platform's read of the file gives -/
structure Read where
  lock : FileLock
  status : CcimpStatus
  bytes : ℕ
deriving DecidableEq, Repr

/-- the status of `ccapi_read_file` -/
def Read.result (read : Read) : CcimpStatus := read.lock.status read.status

/-- `ccapi_process_send_data_request`: its answer, the bytes used and whether there are more -/
def processSendDataRequest (bytesAvailable : ℕ) (read : Read) (c : SvcSend) :
    CallbackStatus × Option (ℕ × Bool) × SvcSend :=
  let expected := if c.bytesRemaining < bytesAvailable then c.bytesRemaining else bytesAvailable
  if c.sendingFile ∧ read.result ≠ .ok then (.error, none, { c with requestError := .accessingFile })
  else
    let nextData := if c.sendingFile then c.nextData else c.nextData + expected
    let remaining := sizeSub c.bytesRemaining expected
    (.cont, some (expected, decide (0 < remaining)), { c with nextData := nextData, bytesRemaining := remaining })

/-- `ccapi_process_send_data_response`, without the hint -/
def processSendDataResponse (r : Response) (c : SvcSend) : SvcSend :=
  { c with rawResponseError := some r, responseError := r.txError }

/-- `ccapi_process_send_data_status` up to its release of the lock -/
def processSendDataStatus (s : SendStatus) (c : SvcSend) : SvcSend := { c with statusError := s.txError }

/-- `ccapi_process_ping_response` up to its release of the lock -/
def processPingResponse (s : PingStatus) (c : SvcPing) : SvcPing := { c with responseError := s.txError }

/-- the response of `ccapi_data_points_handler`, without the hint -/
def dataPointsResponse (r : Response) (c : TransactionInfo) : TransactionInfo := { c with responseError := r.txError }

/-- the status of `ccapi_data_points_handler` up to its release of the lock -/
def dataPointsStatus (s : DataPointStatus) (c : TransactionInfo) : TransactionInfo := { c with status := s.txError }

inductive Callback where
  | sendDataRequest (bytesAvailable : ℕ) (read : Read)
  /-- `ccapi_process_send_data_length` -/
  | sendDataLength
  | sendDataResponse (r : Response) (hint : Option Str)
  | sendDataStatus (s : SendStatus)
  | pingResponse (s : PingStatus)
  | dataPointResponse (r : Response) (hint : Option Str)
  | dataPointStatus (s : DataPointStatus)
deriving DecidableEq, Repr

/-- the callbacks for an action of the service -/
def Callback.concerns : Callback → Service → Bool
  | .sendDataRequest _ _, s | .sendDataLength, s | .sendDataResponse _ _, s | .sendDataStatus _, s =>
    s = .data || s = .file
  | .pingResponse _, s => s = .ping
  | .dataPointResponse _ _, s | .dataPointStatus _, s => s = .dataPoints

/-- the action's last callback -/
def Callback.final : Callback → Bool
  | .sendDataStatus _ | .pingResponse _ | .dataPointStatus _ => true
  | _ => false

/-- what the handler leaves in the record -/
def Callback.apply : Callback → Context → Context
  | .sendDataRequest n read, .send c => .send (processSendDataRequest n read c).2.2
  | .sendDataResponse r _, .send c => .send (processSendDataResponse r c)
  | .sendDataStatus s, .send c => .send (processSendDataStatus s c)
  | .pingResponse s, .ping c => .ping (processPingResponse s c)
  | .dataPointResponse r _, .dataPoints c => .dataPoints (dataPointsResponse r c)
  | .dataPointStatus s, .dataPoints c => .dataPoints (dataPointsStatus s c)
  | _, c => c

/-- `strncpy` of n bytes of src to buf and a NUL behind them -/
def copyHint (buf src : Str) (n : ℕ) : Str := ((src ++ List.replicate (n - src.length) 0).take n ++ [0]) ++ buf.drop (n + 1)

/-- the cloud's hint in the caller's record; the handler of the data points also writes its length -/
def StringInfo.store (src : Str) (writeLength : Bool) (h : StringInfo) : StringInfo :=
  { string := h.string.map fun buf => copyHint buf src (sizeSub h.length 1)
    length := if writeLength then src.length else h.length }

def Callback.hint : Callback → Option StringInfo → Option StringInfo
  | .sendDataResponse _ (some src), some h => some (h.store src false)
  | .dataPointResponse _ (some src), some h => some (h.store src true)
  | _, h => h

/-! ## The calling thread and the connector -/

/-- where the calling thread is -/
inductive Stage where
  | checkargs
  | malloc
  | lockCreate
  | fileStatus
  | fileOpen
  | collectionAcquire
  /-- `connector_initiate_action_secure` -/
  | initiateAcquire
  | initiate
  | initiateRelease (accepted : ConnectorStatus)
  | wait
  /-- `finish_send`, `finish_send_ping`, the end of `send_collection` -/
  | lockDestroy
  | fileClose
  | free
  | collectionRelease
  | returned
deriving DecidableEq, Repr

/-- the memory of the record -/
inductive Block where
  | unallocated
  | live (c : Context)
  | freed
deriving DecidableEq, Repr

def Block.isLive : Block → Bool
  | .live _ => true
  | _ => false

def Block.update (f : Context → Context) : Block → Block
  | .live c => .live (f c)
  | b => b

/-- what the connector has of the action -/
inductive Action where
  | none
  | accepted
  /-- in the handler of its final status, in front of the release of the lock -/
  | finishing
  | finished
deriving DecidableEq, Repr

structure Transaction where
  call : Call
  stage : Stage
  error : TxError
  context : Block
  /-- the transaction's lock has been released -/
  posted : Bool
  action : Action
  collectionLocked : Bool
  /-- the caller's record for the hint -/
  hint : Option StringInfo
  /-- a callback has read or written a record that is not live -/
  faulted : Bool

/-- what the platform or the connector answers the calling thread's step -/
structure Answer where
  granted : Bool
  memory : Memory
  status : CcimpStatus
  acquired : Bool
  fileLock : FileLock
  fileSize : Option ℕ
  handler : ℕ
  connector : ConnectorStatus
deriving DecidableEq, Repr

/-- `ccapi_lock_acquire`, `ccapi_send_lock_acquire`, `ccapi_send_ping_lock_acquire` -/
def Answer.lockAcquire (a : Answer) : CcimpStatus := CcApi.lockAcquire a.status a.acquired

/-- the status of a file operation -/
def Answer.fileResult (a : Answer) : CcimpStatus := a.fileLock.status a.status

namespace Transaction

def begin (call : Call) : Transaction :=
  { call := call, stage := .checkargs, error := .none, context := .unallocated, posted := false, action := .none,
    collectionLocked := false, hint := call.hint, faulted := false }

/-- goto done -/
def fail (e : TxError) (t : Transaction) : Transaction := { t with error := e, stage := .lockDestroy }

/-- behind the creation of the lock -/
def setupStage : Service → Stage
  | .data | .ping => .initiateAcquire
  | .file => .fileStatus
  | .dataPoints => .collectionAcquire

/-- what `connector_initiate_action_secure` returned -/
def initiated (s : ConnectorStatus) (t : Transaction) : Transaction :=
  match s with
  | .success => { t with stage := .wait }
  | .serviceBusy => { t with stage := .initiateAcquire }
  | .abort | .failed => t.fail .initiateActionFailed

/-- the wait on the transaction's lock; with the lock not released it blocks -/
def wake (a : Answer) (t : Transaction) : Transaction :=
  if a.lockAcquire ≠ .ok then t.fail .lockFailed
  else if t.posted then
    match t.context with
    | .live c => { t with posted := false, stage := .lockDestroy, error := c.result t.call.withReply }
    | _ => { t with posted := false, stage := .lockDestroy }
  else t

/-- the next step of the calling thread -/
def api (a : Answer) (t : Transaction) : Transaction :=
  match t.stage with
  | .checkargs =>
    match t.call.checkargs with
    | .none => { t with stage := .malloc }
    | e => t.fail e
  | .malloc =>
    if a.granted then { t with context := .live (Context.fresh a.memory t.call.service), stage := .lockCreate }
    else t.fail .insufficientMemory
  | .lockCreate =>
    if a.status = .ok then
      { t with context := t.context.update (Context.locked t.call), stage := setupStage t.call.service }
    else { t with context := t.context.update Context.unlocked }.fail .lockFailed
  | .fileStatus =>
    match a.fileResult, a.fileSize with
    | .ok, some size => { t with context := t.context.update (Context.sized size), stage := .fileOpen }
    | _, _ => t.fail .notAFile
  | .fileOpen =>
    if a.fileResult = .ok then { t with context := t.context.update (Context.opened a.handler), stage := .initiateAcquire }
    else t.fail .accessingFile
  | .collectionAcquire =>
    if a.lockAcquire = .ok then { t with collectionLocked := true, stage := .initiateAcquire } else t.fail .lockFailed
  | .initiateAcquire => if a.lockAcquire = .ok then { t with stage := .initiate } else t.initiated .abort
  | .initiate =>
    { t with
      stage := .initiateRelease a.connector
      action := if a.connector = .success then .accepted else t.action }
  -- a release that fails makes an abort of what the connector has accepted
  | .initiateRelease s => if a.status = .ok then t.initiated s else t.initiated .abort
  | .wait => t.wake a
  | .lockDestroy => { t with stage := .fileClose }
  | .fileClose => { t with stage := .free }
  | .free => { t with context := if t.context.isLive then .freed else t.context, stage := .collectionRelease }
  | .collectionRelease =>
    { t with
      error := if t.collectionLocked ∧ a.status ≠ .ok then .lockFailed else t.error
      collectionLocked := false
      stage := .returned }
  | .returned => t

/-- a callback, up to the release of the lock if it is the final one -/
def callback (c : Callback) (t : Transaction) : Transaction :=
  if t.action = .accepted ∧ c.concerns t.call.service then
    { t with
      context := t.context.update c.apply
      action := if c.final then .finishing else .accepted
      hint := c.hint t.hint
      faulted := t.faulted || !t.context.isLive }
  else t

/-- the release of the lock in the final callback, and the end of the callback -/
def statusRelease (r : CcimpStatus) (t : Transaction) : Transaction :=
  if t.action = .finishing then
    { t with
      posted := t.posted || decide (r = .ok)
      action := if r = .busy ∧ t.call.service = .dataPoints then .accepted else .finished
      faulted := t.faulted || !t.context.isLive }
  else t

end Transaction

inductive Op where
  | api (a : Answer)
  | callback (c : Callback)
  | statusRelease (r : CcimpStatus)
deriving DecidableEq, Repr

def Transaction.step (t : Transaction) : Op → Transaction
  | .api a => t.api a
  | .callback c => t.callback c
  | .statusRelease r => t.statusRelease r

/-- an assertion that a build with CCIMP_DEBUG_ENABLED halts at -/
def Transaction.asserts (t : Transaction) : Op → Bool
  | .api a =>
    match t.stage, t.context with
    | .fileStatus, _ | .fileOpen, _ => a.fileLock.asserts
    | .initiateAcquire, _ => a.lockAcquire ≠ .ok
    | .initiateRelease _, _ => a.status ≠ .ok
    | .lockDestroy, .live c => c.hasLock ∧ a.status ≠ .ok
    | .fileClose, .live c => c.hasFile ∧ (a.fileLock.asserts ∨ a.fileResult ≠ .ok)
    | _, _ => false
  | .callback (.sendDataRequest n read) =>
    match t.action, t.context with
    | .accepted, .live (.send c) =>
      c.sendingFile ∧ (read.lock.asserts ∨
        read.result = .ok ∧ read.bytes ≠ if c.bytesRemaining < n then c.bytesRemaining else n)
    | _, _ => false
  | _ => false

/-! ## The file-system lock -/

/-- a step that acquires `file_system_lock` if it is free -/
def Transaction.locksFiles (t : Transaction) : Op → Bool
  | .api a =>
    match t.stage, t.context with
    | .fileStatus, _ | .fileOpen, _ => a.fileLock.acquire = .ok
    | .fileClose, .live c => c.hasFile ∧ a.fileLock.acquire = .ok
    | _, _ => false
  | .callback (.sendDataRequest _ read) =>
    match t.action, t.context with
    | .accepted, .live (.send c) => c.sendingFile ∧ read.lock.acquire = .ok
    | _, _ => false
  | _ => false

/-- the lock behind a step: without CCIMP_DEBUG_ENABLED nobody releases it -/
def Transaction.fileLockAfter (debug : Bool) (t : Transaction) (o : Op) (free : Bool) : Bool :=
  free && (debug || !t.locksFiles o)

/-- any number of sends, each in a thread of its own -/
structure System where
  halted : Bool
  /-- `file_system_lock` has not been left taken -/
  fileLockFree : Bool
  txn : ℕ → Transaction

/-- the step waits for a lock that nobody releases -/
def System.waits (s : System) (o : ℕ × Op) : Bool := (s.txn o.1).locksFiles o.2 && !s.fileLockFree

def System.step (debug : Bool) (s : System) (o : ℕ × Op) : System :=
  if s.halted ∨ s.waits o then s
  else if debug ∧ (s.txn o.1).asserts o.2 then { s with halted := true }
  else
    { s with
      fileLockFree := (s.txn o.1).fileLockAfter debug o.2 s.fileLockFree
      txn := Function.update s.txn o.1 ((s.txn o.1).step o.2) }

def System.begin (calls : ℕ → Call) : System :=
  { halted := false, fileLockFree := true, txn := fun i => Transaction.begin (calls i) }

end CcApi.Send
