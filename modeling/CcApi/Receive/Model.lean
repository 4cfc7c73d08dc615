/-
The receive service (`ccapi_data_handler.c`, device requests): the connector's callbacks of the device-request sessions
and the receive thread that hands complete requests to the user.

A session's context is the heap record `ccapi_svc_receive_t` that the target callback allocates; the connector passes it
back as `user_context`. The connector's thread runs the callbacks `receive_target`, `receive_data`, `receive_reply_data`
and `receive_status`; each is one operation. The receive thread is split at every point where it touches what the
callbacks touch: `wake` (the lock is acquired and `svc_receive` is read), `check` (its two asserts read the context),
`call` (the context's fields are read and the user's data callback begins), `ret` (it returns; the response and
`receive_error` are stored), `settle` (the thread status is looked at and set) and `clear` (`svc_receive = NULL`).

Premises:
- the locks' acquires and releases do not fail; `receive_lock` makes test and set of the slot one step;
- the connector does not use a session after its status callback;
- sizes of objects in memory do not overflow `size_t`;
- asserts are those of a build without CCIMP_DEBUG_ENABLED;
- what the user points its response to are bytes of its own.
The stop request of library shutdown is not an operation of this machine. A released context keeps its contents.

`crashed` records a NULL target given to `strlen`.
-/
import CcApi.Lib.Handoff
import CcApi.Platform

namespace CcApi.Receive

open Lib

/-! ## Data -/

/-- `ccapi_receive_error_t`; a user's own errors are the values above CCAPI_RECEIVE_ERROR_CUSTOM -/
inductive ReceiveError where
  | none
  | ccapiNotRunning
  | noReceiveSupport
  | insufficientMemory
  | invalidTarget
  | targetNotAdded
  | targetAlreadyAdded
  | invalidDataCb
  | lockFailed
  | userRefusedTarget
  | requestTooBig
  | statusCancel
  | statusTimeout
  | statusSessionError
  | custom
  | userDefined (k : ℕ)
deriving DecidableEq, Repr

def ReceiveError.code : ReceiveError → ℕ
  | .none => 0
  | .ccapiNotRunning => 1
  | .noReceiveSupport => 2
  | .insufficientMemory => 3
  | .invalidTarget => 4
  | .targetNotAdded => 5
  | .targetAlreadyAdded => 6
  | .invalidDataCb => 7
  | .lockFailed => 8
  | .userRefusedTarget => 9
  | .requestTooBig => 10
  | .statusCancel => 11
  | .statusTimeout => 12
  | .statusSessionError => 13
  | .custom => 14
  | .userDefined k => 15 + k

/-- `ccapi_receive_thread_status_t` -/
inductive ReceiveThreadStatus where
  | idle
  | dataCbReady
  | dataCbQueued
  | dataCbProcessed
  | free
deriving DecidableEq, Repr

/-- `connector_data_service_status_t`, the statuses a session ends with -/
inductive SessionStatus where
  | complete
  | cancel
  | timeout
  | sessionError
  | count
deriving DecidableEq, Repr

inductive Transport where
  | tcp
  | udp
  | sms
deriving DecidableEq, Repr

/-- `ccapi_buffer_info_t` -/
structure BufferInfo where
  buffer : Option Ptr
  length : ℕ
deriving DecidableEq, Repr

/-- a string of its own block -/
structure HeapStr where
  block : ℕ
  text : Str
deriving DecidableEq, Repr

/-- `ccapi_svc_receive_t`; the user's callbacks are function pointers -/
structure SvcReceive where
  target : Option HeapStr
  transport : Transport
  responseRequired : Bool
  dataCb : Option ℕ
  statusCb : Option ℕ
  maxRequestSize : ℕ
  /-- `request_buffer_info`: a block of its own, filled from its start -/
  requestBuffer : Option ℕ
  requestLength : ℕ
  responseBufferInfo : BufferInfo
  responseHandledInternally : Bool
  responseProcessing : BufferInfo
  receiveError : ReceiveError
  receiveThreadStatus : ReceiveThreadStatus
deriving DecidableEq, Repr

/-- `ccapi_receive_target_t`; `ccxapi_receive_add_target` refuses a NULL data callback -/
structure ReceiveTarget where
  target : Str
  dataCb : ℕ
  statusCb : Option ℕ
  maxRequestSize : ℕ
deriving DecidableEq, Repr

/-- CCAPI_RECEIVE_NO_LIMIT, `(size_t) -1` -/
def receiveNoLimit : ℕ := 2 ^ 64 - 1

/-- `service.receive`, `config.receive_supported`, and the heap the contexts live in -/
structure Svc where
  receiveSupported : Bool
  hasAcceptCb : Bool
  dataCb : Option ℕ
  statusCb : Option ℕ
  targetList : List ReceiveTarget
  svcReceive : Option ℕ
  ctx : ℕ → Cell SvcReceive
  heap : Heap

/-- `connector_data_service_receive_target_t` -/
structure TargetReq where
  target : Option Str
  transport : Transport
  responseRequired : Bool
  userContext : Option ℕ
deriving DecidableEq, Repr

/-- what the platform and the user do during a target callback: which allocations succeed, and the accept callback's
answer -/
structure TargetEnv where
  contextOk : Bool
  targetOk : Bool
  accepts : Bool
deriving DecidableEq, Repr

/-- `connector_data_service_receive_data_t` -/
structure DataReq where
  userContext : Option ℕ
  buffer : List UInt8
  moreData : Bool
deriving DecidableEq, Repr

/-- `connector_data_service_receive_reply_data_t`, what it asks -/
structure ReplyReq where
  userContext : Option ℕ
  bytesAvailable : ℕ
deriving DecidableEq, Repr

/-- and what it is given back -/
structure Reply where
  buffer : List UInt8
  moreData : Bool
deriving DecidableEq, Repr

/-- `connector_data_service_status_t` -/
structure StatusReq where
  userContext : Option ℕ
  status : SessionStatus
deriving DecidableEq, Repr

/-- a call of the user's status callback -/
structure StatusCall where
  cb : ℕ
  target : Option Str
  transport : Transport
  response : Option BufferInfo
  error : ReceiveError
deriving DecidableEq, Repr

/-! ## The callbacks -/

/-- the context behind a `user_context` the connector may use -/
def Svc.session (s : Svc) : Option ℕ → Option (ℕ × SvcReceive)
  | none => none
  | some c =>
    match s.ctx c with
    | .live a => some (c, a)
    | _ => none

def Svc.put (s : Svc) (c : ℕ) (a : SvcReceive) : Svc := { s with ctx := Function.update s.ctx c (.live a) }

/-- `sizeof (ccapi_svc_receive_t)` -/
def sizeofSvcReceive : ℕ := 104

/-- `get_pointer_to_target_entry`, for strings shorter than 2^32 -/
def getTargetEntry (s : Svc) (target : Str) : Option ReceiveTarget := s.targetList.find? fun t => t.target = target

/-- the fields `ccapi_process_device_request_target` gives a new context -/
def newContext (r : TargetReq) (s : Svc) : SvcReceive :=
  { target := none, transport := r.transport, responseRequired := r.responseRequired, dataCb := s.dataCb,
    statusCb := s.statusCb, maxRequestSize := receiveNoLimit, requestBuffer := none, requestLength := 0,
    responseBufferInfo := ⟨none, 0⟩, responseHandledInternally := false, responseProcessing := ⟨none, 0⟩,
    receiveError := .none, receiveThreadStatus := .idle }

/-- `ccapi_process_device_request_target` from the registered targets on, for a context that has its target -/
def acceptTarget (s : Svc) (target : Str) (accepts : Bool) (a : SvcReceive) : SvcReceive × CallbackStatus :=
  if ¬ s.receiveSupported then ({ a with receiveError := .noReceiveSupport }, .error)
  else
    match getTargetEntry s target with
    | some t => ({ a with maxRequestSize := t.maxRequestSize, dataCb := some t.dataCb, statusCb := t.statusCb }, .cont)
    | none =>
      if a.dataCb = none then ({ a with receiveError := .invalidDataCb }, .error)
      else if s.hasAcceptCb = true ∧ accepts = false then ({ a with receiveError := .userRefusedTarget }, .error)
      else (a, .cont)

/-- `ccapi_process_device_request_target`; the last component is the request's `user_context` afterwards -/
def processDeviceRequestTarget (r : TargetReq) (env : TargetEnv) (s : Svc) : Svc × CallbackStatus × Option ℕ :=
  match r.target with
  | none => (s, .error, r.userContext)
  | some target =>
    if r.userContext.isSome then (s, .error, r.userContext)
    else
      match s.heap.malloc sizeofSvcReceive env.contextOk with
      | (none, heap) => ({ s with heap := heap }, .error, none)
      | (some c, heap) =>
        let a := newContext r s
        match heap.malloc (target.length + 1) env.targetOk with
        | (none, heap) => ({ s with heap := heap }.put c { a with receiveError := .insufficientMemory }, .error, some c)
        | (some b, heap) =>
          let (a, status) := acceptTarget s target env.accepts { a with target := some ⟨b, target⟩ }
          ({ s with heap := heap }.put c a, status, some c)

/-- `ccapi_process_device_request_data` in CCAPI_RECEIVE_THREAD_IDLE: the segment is appended to the request -/
def appendSegment (c : ℕ) (a : SvcReceive) (d : DataReq) (ok : Bool) (s : Svc) : Svc × CallbackStatus :=
  let newSize := a.requestLength + d.buffer.length
  if a.maxRequestSize ≠ receiveNoLimit ∧ newSize > a.maxRequestSize then
    (s.put c { a with receiveError := .requestTooBig, receiveThreadStatus := .free }, .error)
  else
    match s.heap.realloc a.requestBuffer a.requestLength newSize ok with
    | (none, heap) =>
      ({ s with heap := heap }.put c { a with receiveError := .insufficientMemory, receiveThreadStatus := .free },
        .error)
    | (some b, heap) =>
      let heap := heap.write b a.requestLength d.buffer.length fun i => d.buffer.getD i 0
      let a := { a with requestBuffer := some b, requestLength := newSize }
      if d.moreData then ({ s with heap := heap }.put c a, .cont)
      else ({ s with heap := heap }.put c { a with receiveThreadStatus := .dataCbReady }, .busy)

/-- `ccapi_process_device_request_data`; the last component says whether the thread's lock is released -/
def processDeviceRequestData (d : DataReq) (ok : Bool) (s : Svc) : Svc × CallbackStatus × Bool :=
  match s.session d.userContext with
  | none => (s, .error, false)
  | some (c, a) =>
    if ¬ s.receiveSupported then (s.put c { a with receiveError := .noReceiveSupport }, .error, false)
    else
      match a.receiveThreadStatus with
      | .idle =>
        let (s, status) := appendSegment c a d ok s
        (s, status, false)
      | .dataCbReady =>
        if s.svcReceive = none then
          ({ s with svcReceive := some c }.put c { a with receiveThreadStatus := .dataCbQueued }, .busy, true)
        else (s, .busy, false)
      | .dataCbQueued => (s, .busy, false)
      | .dataCbProcessed =>
        let heap := match a.requestBuffer with
          | some b => s.heap.free b
          | none => s.heap
        let a := if a.responseRequired then { a with responseProcessing := a.responseBufferInfo } else a
        ({ s with heap := heap }.put c { a with receiveThreadStatus := .free },
          if a.receiveError = .none then .cont else .error, false)
      | .free => (s, .error, false)

/-- the names `fill_internal_error` has for errors; NULL for a user's own -/
def ReceiveError.name : ReceiveError → Option Str
  | .ccapiNotRunning => some (ascii "CCAPI_RECEIVE_ERROR_CCAPI_NOT_RUNNING")
  | .noReceiveSupport => some (ascii "CCAPI_RECEIVE_ERROR_NO_RECEIVE_SUPPORT")
  | .insufficientMemory => some (ascii "CCAPI_RECEIVE_ERROR_INSUFFICIENT_MEMORY")
  | .invalidDataCb => some (ascii "CCAPI_RECEIVE_ERROR_INVALID_DATA_CB")
  | .userRefusedTarget => some (ascii "CCAPI_RECEIVE_ERROR_USER_REFUSED_TARGET")
  | .requestTooBig => some (ascii "CCAPI_RECEIVE_ERROR_REQUEST_TOO_BIG")
  | .userDefined _ => Option.none
  | _ => some (ascii "Unexpected error")

/-- the size `fill_internal_error` allocates: `sizeof ERROR_MESSAGE` counts the format's conversions and its NUL -/
def internalErrorSize (e : ReceiveError) (target : Str) : ℕ :=
  (e.name.getD []).length + ((ascii "CCAPI Error %d (%s) while handling target '%s'").length + 1) + target.length

/-- what its `sprintf` prints; a NULL name is printed as (null) -/
def internalErrorText (e : ReceiveError) (target : Str) : Str :=
  ascii "CCAPI Error " ++ decimal e.code ++ ascii " (" ++ e.name.getD (ascii "(null)") ++
    ascii ") while handling target '" ++ target ++ ascii "'"

/-- `fill_internal_error`; `none` when the context has no target -/
def fillInternalError (ok : Bool) (a : SvcReceive) (heap : Heap) : Option (SvcReceive × Heap) :=
  match a.target with
  | none => none
  | some target =>
    match heap.malloc (internalErrorSize a.receiveError target.text) ok with
    | (none, heap) =>
      some ({ a with receiveError := .insufficientMemory,
                     responseBufferInfo := { a.responseBufferInfo with buffer := none } }, heap)
    | (some b, heap) =>
      let text := internalErrorText a.receiveError target.text
      some ({ a with responseBufferInfo := ⟨some ⟨b, 0⟩, text.length⟩ },
        heap.write b 0 (text.length + 1) fun i => text.getD i 0)

/-- the copy of `ccapi_process_device_request_response` -/
def sendReply (r : ReplyReq) (a : SvcReceive) (heap : Heap) : SvcReceive × Reply :=
  let bytesToSend := min a.responseProcessing.length r.bytesAvailable
  let bytes := match a.responseProcessing.buffer with
    | some p => heap.load p bytesToSend
    | none => []
  let rest := a.responseProcessing.length - bytesToSend
  ({ a with responseProcessing :=
      ⟨a.responseProcessing.buffer.map fun p => { p with off := p.off + bytesToSend }, rest⟩ },
    ⟨bytes, decide (rest > 0)⟩)

/-- `ccapi_process_device_request_response`; `none` when it gives a NULL target to `strlen` -/
def processDeviceRequestResponse (r : ReplyReq) (ok : Bool) (s : Svc) : Option (Svc × CallbackStatus × Option Reply) :=
  match s.session r.userContext with
  | none => some (s, .error, none)
  | some (c, a) =>
    if ¬ a.responseRequired then some (s, .error, none)
    else if a.receiveError ≠ .none ∧ a.responseHandledInternally = false ∧ a.responseBufferInfo.length = 0 then
      match fillInternalError ok { a with responseHandledInternally := true } s.heap with
      | none => none
      | some (a, heap) =>
        let (a, reply) := sendReply r { a with responseProcessing := a.responseBufferInfo } heap
        some ({ s with heap := heap }.put c a, .cont, some reply)
    else
      let (a, reply) := sendReply r a s.heap
      some (s.put c a, .cont, some reply)

/-- the error a session's status stands for; `none` at the assert on connector_data_service_status_COUNT -/
def SessionStatus.error : SessionStatus → Option ReceiveError
  | .complete => some .none
  | .cancel => some .statusCancel
  | .timeout => some .statusTimeout
  | .sessionError => some .statusSessionError
  | .count => none

/-- the call of the user's status callback -/
def statusCall (s : Svc) (a : SvcReceive) : Option StatusCall :=
  match s.receiveSupported, a.statusCb with
  | true, some cb =>
    some { cb := cb, target := a.target.map HeapStr.text, transport := a.transport,
           response := if a.responseHandledInternally = false ∧ a.responseRequired = true ∧
             a.responseBufferInfo.buffer ≠ none then some a.responseBufferInfo else none,
           error := a.receiveError }
  | _, _ => none

/-- the frees of `ccapi_process_device_request_status`; the context's own block is the last -/
def freeSession (c : ℕ) (a : SvcReceive) (heap : Heap) : Heap :=
  let heap := match a.target with
    | some t => heap.free t.block
    | none => heap
  let heap := match a.responseHandledInternally, a.responseBufferInfo.buffer with
    | true, some p => heap.free p.block
    | _, _ => heap
  heap.free c

/-- `ccapi_process_device_request_status` -/
def processDeviceRequestStatus (r : StatusReq) (s : Svc) : Svc × CallbackStatus × Option StatusCall :=
  match s.session r.userContext with
  | none => (s, .error, none)
  | some (c, a) =>
    match (if a.receiveError = .none then r.status.error else some a.receiveError) with
    | none => (s, .error, none)
    | some e =>
      let a := { a with receiveError := e }
      ({ s with ctx := Function.update s.ctx c (.freed a), heap := freeSession c a s.heap }, .cont, statusCall s a)

/-- `ccapi_process_device_request_length` -/
def processDeviceRequestLength (userContext : Option ℕ) (s : Svc) : CallbackStatus × Option ℕ :=
  match s.session userContext with
  | none => (.error, none)
  | some (_, a) => (.cont, some a.responseProcessing.length)

/-! ## The machine -/

/-- where `ccapi_receive_thread` stands; c is the context `svc_receive` pointed to -/
inductive Pc where
  | waiting
  | picked (c : ℕ)
  | checked (c : ℕ)
  | calling (c : ℕ)
  | returned (c : ℕ)
  | settled
  | exited
deriving DecidableEq, Repr

/-- a call of the user's data callback: with which context, whether that was live, and what the user is given; response
is the context whose response record the user may fill -/
structure Call where
  ctx : ℕ
  live : Bool
  cb : Option ℕ
  target : Option Str
  transport : Transport
  request : List UInt8
  response : Option ℕ
deriving DecidableEq, Repr

structure St where
  svc : Svc
  /-- `thread.receive->lock` -/
  lock : ℕ
  pc : Pc
  crashed : Bool
  /-- calls of the user's data callback, in order -/
  calls : List Call
  /-- the thread's accesses to contexts, each with whether the context was live -/
  touches : List (ℕ × Bool)

inductive Op where
  | target (r : TargetReq) (env : TargetEnv)
  | data (d : DataReq) (ok : Bool)
  | reply (r : ReplyReq) (ok : Bool)
  | status (r : StatusReq)
  | wake
  | check
  | call
  | ret (e : ReceiveError) (response : Option (List UInt8))
  | settle
  | clear

def stepData (d : DataReq) (ok : Bool) (s : St) : St :=
  let (svc, _, released) := processDeviceRequestData d ok s.svc
  { s with svc := svc, lock := if released then s.lock + 1 else s.lock }

/-- the call of the user's data callback with context c -/
def userCall (s : Svc) (c : ℕ) : Option Call :=
  (s.ctx c).val?.map fun a =>
    { ctx := c, live := (s.ctx c).isLive, cb := a.dataCb, target := a.target.map HeapStr.text,
      transport := a.transport,
      request := match a.requestBuffer with
        | some b => s.heap.read b a.requestLength
        | none => [],
      response := if a.responseRequired then some c else none }

/-- the user's data callback returns e, having pointed its response record to bytes of its own or left it alone -/
def storeResult (c : ℕ) (e : ReceiveError) (response : Option (List UInt8)) (s : Svc) : Svc :=
  match response with
  | some bytes =>
    let b := s.heap.next
    let heap := ((s.heap.malloc bytes.length true).2).write b 0 bytes.length fun i => bytes.getD i 0
    { s with heap := heap, ctx := Function.update s.ctx c ((s.ctx c).map fun a =>
        { a with receiveError := e,
                 responseBufferInfo := if a.responseRequired then ⟨some ⟨b, 0⟩, bytes.length⟩
                   else a.responseBufferInfo }) }
  | none => { s with ctx := Function.update s.ctx c ((s.ctx c).map fun a => { a with receiveError := e }) }

/-- the thread sets the status it finds queued -/
def SvcReceive.settle (a : SvcReceive) : SvcReceive :=
  if a.receiveThreadStatus = .dataCbQueued then { a with receiveThreadStatus := .dataCbProcessed } else a

/-- the asserts of the thread on the context it has taken -/
def readyForUser (c : Cell SvcReceive) : Bool :=
  match c.val? with
  | some a => a.receiveThreadStatus = .dataCbQueued ∧ a.dataCb ≠ none
  | none => false

/-- an access of the thread to context c -/
def St.touch (s : St) (c : ℕ) : List (ℕ × Bool) := s.touches ++ [(c, (s.svc.ctx c).isLive)]

/-- one iteration of the loop of `ccapi_receive_thread`, step by step -/
def stepThread (s : St) : Op → St
  | .wake =>
    match s.pc, s.lock with
    | .waiting, l + 1 =>
      match s.svc.svcReceive with
      | some c => { s with lock := l, pc := .picked c }
      | none => { s with lock := l, pc := .exited }
    | _, _ => s
  | .check =>
    match s.pc with
    | .picked c => { s with touches := s.touch c, pc := if readyForUser (s.svc.ctx c) then .checked c else .exited }
    | _ => s
  | .call =>
    match s.pc with
    | .checked c => { s with touches := s.touch c, pc := .calling c, calls := s.calls ++ (userCall s.svc c).toList }
    | _ => s
  | .ret e response =>
    match s.pc with
    | .calling c => { s with touches := s.touch c, pc := .returned c, svc := storeResult c e response s.svc }
    | _ => s
  | .settle =>
    match s.pc with
    | .returned c =>
      { s with touches := s.touch c, pc := .settled,
               svc := { s.svc with ctx := Function.update s.svc.ctx c ((s.svc.ctx c).map SvcReceive.settle) } }
    | _ => s
  | .clear =>
    match s.pc with
    | .settled => { s with pc := .waiting, svc := { s.svc with svcReceive := none } }
    | _ => s
  | _ => s

def step (s : St) (o : Op) : St :=
  if s.crashed then s
  else
    match o with
    | .target r env => { s with svc := (processDeviceRequestTarget r env s.svc).1 }
    | .data d ok => stepData d ok s
    | .reply r ok =>
      match processDeviceRequestResponse r ok s.svc with
      | some (svc, _) => { s with svc := svc }
      | none => { s with crashed := true }
    | .status r => { s with svc := (processDeviceRequestStatus r s.svc).1 }
    | o => stepThread s o

/-- after `ccxapi_start`: no session, nothing handed over, the thread waiting on its lock -/
structure Init (s : St) : Prop where
  ctx : ∀ c, s.svc.ctx c = .unallocated
  slot : s.svc.svcReceive = none
  lock : s.lock = 0
  pc : s.pc = .waiting
  running : s.crashed = false
  history : s.calls = [] ∧ s.touches = []

/-- the service as `ccxapi_start` leaves it, with the general callbacks and the targets as configured -/
def St.fresh (hasAcceptCb : Bool) (dataCb statusCb : Option ℕ) (targets : List ReceiveTarget) : St :=
  { svc := { receiveSupported := true, hasAcceptCb := hasAcceptCb, dataCb := dataCb, statusCb := statusCb,
             targetList := targets, svcReceive := none, ctx := fun _ => .unallocated, heap := Heap.empty },
    lock := 0, pc := .waiting, crashed := false, calls := [], touches := [] }

theorem init_fresh (hasAcceptCb : Bool) (dataCb statusCb : Option ℕ) (targets : List ReceiveTarget) :
    Init (St.fresh hasAcceptCb dataCb statusCb targets) :=
  ⟨fun _ => rfl, rfl, rfl, rfl, rfl, rfl, rfl⟩

end CcApi.Receive
