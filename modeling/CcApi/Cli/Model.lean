/-
The SM CLI service (`ccapi_sm_handler.c`): the connector's callbacks of the CLI sessions and the CLI thread that hands
complete commands to the user.

A session's context is the heap record `ccapi_svc_cli_t` that the first request callback allocates; the connector passes
it back as `user_context`. The callbacks `cli_request`, `cli_response` and `cli_status` are one operation each, and the
CLI thread is split as the receive thread is: `wake`, `check`, `call`, `ret`, `settle`, `clear`.

Premises: those of the receive service. The output a user gives is a NUL-terminated string in a block of its own.
-/
import CcApi.Lib.Handoff
import CcApi.Platform

namespace CcApi.Cli

open Lib

/-! ## Data -/

/-- `ccapi_cli_error_t` -/
inductive CliError where
  | none
  | noCliSupport
  | insufficientMemory
  | statusCancel
  | statusError
deriving DecidableEq, Repr

def CliError.code : CliError → ℕ
  | .none => 0
  | .noCliSupport => 1
  | .insufficientMemory => 2
  | .statusCancel => 3
  | .statusError => 4

/-- `ccapi_cli_thread_status_t` -/
inductive CliThreadStatus where
  | idle
  | requestCbReady
  | requestCbQueued
  | requestCbProcessed
  | free
deriving DecidableEq, Repr

/-- `connector_sm_cli_status_t` -/
inductive SessionStatus where
  | success
  | cancel
  | error
deriving DecidableEq, Repr

inductive Transport where
  | udp
  | sms
deriving DecidableEq, Repr

/-- `ccapi_string_info_t` -/
structure StringInfo where
  string : Option Ptr
  length : ℕ
deriving DecidableEq, Repr

/-- `ccapi_svc_cli_t` -/
structure SvcCli where
  transport : Transport
  responseRequired : Bool
  moreData : Bool
  /-- `request_string_info`: a block of its own, filled from its start -/
  requestString : Option ℕ
  requestLength : ℕ
  responseStringInfo : StringInfo
  responseHandledInternally : Bool
  responseProcessing : StringInfo
  cliError : CliError
  cliThreadStatus : CliThreadStatus
deriving DecidableEq, Repr

/-- `service.cli`, `config.cli_supported`, and the heap the contexts live in -/
structure Svc where
  cliSupported : Bool
  hasRequestCb : Bool
  hasFinishedCb : Bool
  svcCli : Option ℕ
  ctx : ℕ → Cell SvcCli
  heap : Heap

/-- `connector_sm_cli_request_t` -/
structure RequestReq where
  transport : Transport
  userContext : Option ℕ
  buffer : Option (List UInt8)
  responseRequired : Bool
  moreData : Bool
deriving DecidableEq, Repr

/-- `connector_sm_cli_response_t`, what it asks -/
structure ReplyReq where
  userContext : Option ℕ
  bytesAvailable : ℕ
deriving DecidableEq, Repr

/-- and what it is given back -/
structure Reply where
  buffer : List UInt8
  moreData : Bool
deriving DecidableEq, Repr

/-- `connector_sm_cli_status_t` -/
structure StatusReq where
  userContext : Option ℕ
  status : SessionStatus
deriving DecidableEq, Repr

/-- a call of the user's finished callback -/
structure FinishedCall where
  output : Option Ptr
  error : CliError
deriving DecidableEq, Repr

/-! ## The callbacks -/

/-- the context behind a `user_context` the connector may use -/
def Svc.session (s : Svc) : Option ℕ → Option (ℕ × SvcCli)
  | none => none
  | some c =>
    match s.ctx c with
    | .live a => some (c, a)
    | _ => none

def Svc.put (s : Svc) (c : ℕ) (a : SvcCli) : Svc := { s with ctx := Function.update s.ctx c (.live a) }

/-- `sizeof (ccapi_svc_cli_t)` -/
def sizeofSvcCli : ℕ := 80

/-- the fields `ccapi_process_cli_request` gives a new context -/
def newContext (r : RequestReq) : SvcCli :=
  { transport := r.transport, responseRequired := r.responseRequired, moreData := r.moreData, requestString := none,
    requestLength := 0, responseStringInfo := ⟨none, 0⟩, responseHandledInternally := false,
    responseProcessing := ⟨none, 0⟩, cliError := .none, cliThreadStatus := .idle }

/-- the context of a request: a new one when the request brings none; `none` when there is no memory for it -/
def requestContext (r : RequestReq) (contextOk : Bool) (s : Svc) : Svc × Option (ℕ × SvcCli) :=
  match r.userContext with
  | none =>
    match s.heap.malloc sizeofSvcCli contextOk with
    | (none, heap) => ({ s with heap := heap }, none)
    | (some c, heap) => ({ s with heap := heap }, some (c, newContext r))
  | some c => (s, (s.session (some c)).map fun p => (p.1, { p.2 with moreData := r.moreData }))

/-- `ccapi_process_cli_request` in CCAPI_CLI_THREAD_IDLE: the segment is appended to the command -/
def appendSegment (c : ℕ) (a : SvcCli) (bytes : List UInt8) (moreData ok : Bool) (s : Svc) : Svc × CallbackStatus :=
  let newSize := a.requestLength + bytes.length
  match s.heap.realloc a.requestString a.requestLength newSize ok with
  | (none, heap) =>
    ({ s with heap := heap }.put c { a with cliError := .insufficientMemory, cliThreadStatus := .free }, .error)
  | (some b, heap) =>
    let heap := heap.write b a.requestLength bytes.length fun i => bytes.getD i 0
    let a := { a with requestString := some b, requestLength := newSize }
    if moreData then ({ s with heap := heap }.put c a, .cont)
    else ({ s with heap := heap }.put c { a with cliThreadStatus := .requestCbReady }, .busy)

/-- `strlen` of a string that ends within its block -/
def strlen (p : Ptr) (heap : Heap) : ℕ :=
  ((List.range (heap.size p.block - p.off)).find? fun i => heap.mem p.block (p.off + i) = 0).getD
    (heap.size p.block - p.off)

/-- the response a processed command leaves: its length counts the NUL -/
def takeResponse (a : SvcCli) (heap : Heap) : SvcCli :=
  match a.responseRequired, a.responseStringInfo.string with
  | true, some p =>
    let length := strlen p heap
    if length ≠ 0 then
      { a with responseStringInfo := ⟨some p, length + 1⟩, responseProcessing := ⟨some p, length + 1⟩ }
    else { a with responseStringInfo := ⟨some p, 0⟩ }
  | _, _ => a

/-- `ccapi_process_cli_request` from the check of `cli_supported` on; the last component says whether the thread's lock is
released -/
def requestInContext (c : ℕ) (a : SvcCli) (bytes : List UInt8) (moreData ok : Bool) (s : Svc) :
    Svc × CallbackStatus × Bool :=
  if ¬ s.cliSupported then (s.put c { a with cliError := .noCliSupport }, .error, false)
  else
    match a.cliThreadStatus with
    | .idle =>
      let (s, status) := appendSegment c a bytes moreData ok s
      (s, status, false)
    | .requestCbReady =>
      if s.svcCli = none then
        ({ s with svcCli := some c }.put c { a with cliThreadStatus := .requestCbQueued }, .busy, true)
      else (s.put c a, .busy, false)
    | .requestCbQueued => (s.put c a, .busy, false)
    | .requestCbProcessed =>
      let heap := match a.requestString with
        | some b => s.heap.free b
        | none => s.heap
      ({ s with heap := heap }.put c { takeResponse a s.heap with cliThreadStatus := .free }, .cont, false)
    | .free => (s.put c a, .error, false)

/-- `ccapi_process_cli_request`; the last components are the request's `user_context` afterwards and whether the thread's
lock is released -/
def processCliRequest (r : RequestReq) (contextOk ok : Bool) (s : Svc) : Svc × CallbackStatus × Option ℕ × Bool :=
  match r.buffer with
  | none | some [] => (s, .error, r.userContext, false)
  | some bytes =>
    match requestContext r contextOk s with
    | (s, none) => (s, .error, r.userContext, false)
    | (s, some (c, a)) =>
      let (s, status, released) := requestInContext c a bytes r.moreData ok s
      (s, status, some c, released)

/-- the names `fill_internal_error` has for errors -/
def CliError.name : CliError → Str
  | .noCliSupport => ascii "CCAPI_CLI_ERROR_NO_CLI_SUPPORT"
  | .insufficientMemory => ascii "CCAPI_CLI_ERROR_INSUFFICIENT_MEMORY"
  | _ => ascii "Unexpected error"

/-- the size `fill_internal_error` allocates: `sizeof ERROR_MESSAGE` counts the format's conversions and its NUL -/
def internalErrorSize (e : CliError) : ℕ := e.name.length + ((ascii "CCAPI Error %d (%s)").length + 1)

/-- what its `sprintf` prints -/
def internalErrorText (e : CliError) : Str :=
  ascii "CCAPI Error " ++ decimal e.code ++ ascii " (" ++ e.name ++ ascii ")"

/-- `fill_internal_error` -/
def fillInternalError (ok : Bool) (a : SvcCli) (heap : Heap) : SvcCli × Heap :=
  match heap.malloc (internalErrorSize a.cliError) ok with
  | (none, heap) =>
    ({ a with cliError := .insufficientMemory,
              responseStringInfo := { a.responseStringInfo with string := none } }, heap)
  | (some b, heap) =>
    let text := internalErrorText a.cliError
    ({ a with responseStringInfo := ⟨some ⟨b, 0⟩, text.length⟩ },
      heap.write b 0 (text.length + 1) fun i => text.getD i 0)

/-- the copy of `ccapi_process_cli_response` -/
def sendReply (r : ReplyReq) (a : SvcCli) (heap : Heap) : SvcCli × Reply :=
  let bytesToSend := min a.responseProcessing.length r.bytesAvailable
  let bytes := match a.responseProcessing.string with
    | some p => heap.load p bytesToSend
    | none => []
  let rest := a.responseProcessing.length - bytesToSend
  ({ a with responseProcessing :=
      ⟨a.responseProcessing.string.map fun p => { p with off := p.off + bytesToSend }, rest⟩ },
    ⟨bytes, decide (rest > 0)⟩)

/-- `ccapi_process_cli_response` -/
def processCliResponse (r : ReplyReq) (ok : Bool) (s : Svc) : Svc × CallbackStatus × Option Reply :=
  match s.session r.userContext with
  | none => (s, .error, none)
  | some (c, a) =>
    if ¬ a.responseRequired then (s, .error, none)
    else if a.cliError ≠ .none ∧ a.responseHandledInternally = false then
      let (a, heap) := fillInternalError ok { a with responseHandledInternally := true } s.heap
      let (a, reply) := sendReply r { a with responseProcessing := a.responseStringInfo } heap
      ({ s with heap := heap }.put c a, .cont, some reply)
    else
      let (a, reply) := sendReply r a s.heap
      (s.put c a, .cont, some reply)

/-- the error a session's status stands for -/
def SessionStatus.toError : SessionStatus → CliError
  | .success => .none
  | .cancel => .statusCancel
  | .error => .statusError

/-- the call of the user's finished callback -/
def finishedCall (s : Svc) (a : SvcCli) : Option FinishedCall :=
  if s.cliSupported = true ∧ s.hasFinishedCb = true then
    some { output := if a.responseHandledInternally = false ∧ a.responseRequired = true then
             a.responseStringInfo.string else none, error := a.cliError }
  else none

/-- the frees of `ccapi_process_cli_status`; the context's own block is the last -/
def freeSession (c : ℕ) (a : SvcCli) (heap : Heap) : Heap :=
  let heap := match a.responseHandledInternally, a.responseStringInfo.string with
    | true, some p => heap.free p.block
    | _, _ => heap
  heap.free c

/-- `ccapi_process_cli_status` -/
def processCliStatus (r : StatusReq) (s : Svc) : Svc × CallbackStatus × Option FinishedCall :=
  match s.session r.userContext with
  | none => (s, .error, none)
  | some (c, a) =>
    let a := { a with cliError := if a.cliError = .none then r.status.toError else a.cliError }
    ({ s with ctx := Function.update s.ctx c (.freed a), heap := freeSession c a s.heap }, .cont, finishedCall s a)

/-- `ccapi_process_cli_response_length` -/
def processCliResponseLength (userContext : Option ℕ) (s : Svc) : CallbackStatus × Option ℕ :=
  match s.session userContext with
  | none => (.error, none)
  | some (_, a) => (.cont, some a.responseProcessing.length)

/-! ## The machine -/

/-- where `ccapi_cli_thread` stands; c is the context `svc_cli` pointed to -/
inductive Pc where
  | waiting
  | picked (c : ℕ)
  | checked (c : ℕ)
  | calling (c : ℕ)
  | returned (c : ℕ)
  | settled
  | exited
deriving DecidableEq, Repr

/-- a call of the user's request callback: with which context, whether that was live, and what the user is given;
response is the context whose response string the user may set -/
structure Call where
  ctx : ℕ
  live : Bool
  transport : Transport
  request : List UInt8
  response : Option ℕ
deriving DecidableEq, Repr

structure St where
  svc : Svc
  /-- `thread.cli->lock` -/
  lock : ℕ
  pc : Pc
  /-- calls of the user's request callback, in order -/
  calls : List Call
  /-- the thread's accesses to contexts, each with whether the context was live -/
  touches : List (ℕ × Bool)

inductive Op where
  | request (r : RequestReq) (contextOk ok : Bool)
  | reply (r : ReplyReq) (ok : Bool)
  | status (r : StatusReq)
  | wake
  | check
  | call
  | ret (output : Option Str)
  | settle
  | clear

def stepRequest (r : RequestReq) (contextOk ok : Bool) (s : St) : St :=
  let (svc, _, _, released) := processCliRequest r contextOk ok s.svc
  { s with svc := svc, lock := if released then s.lock + 1 else s.lock }

/-- the call of the user's request callback with context c -/
def userCall (s : Svc) (c : ℕ) : Option Call :=
  (s.ctx c).val?.map fun a =>
    { ctx := c, live := (s.ctx c).isLive, transport := a.transport,
      request := match a.requestString with
        | some b => s.heap.read b a.requestLength
        | none => [],
      response := if a.responseRequired then some c else none }

/-- the user's request callback returns, having set its response string to one of its own or left it alone -/
def storeOutput (c : ℕ) (output : Option Str) (s : Svc) : Svc :=
  match output with
  | some text =>
    let b := s.heap.next
    let heap := ((s.heap.malloc (text.length + 1) true).2).write b 0 (text.length + 1) fun i => text.getD i 0
    { s with heap := heap, ctx := Function.update s.ctx c ((s.ctx c).map fun a =>
        { a with responseStringInfo := if a.responseRequired then { a.responseStringInfo with string := some ⟨b, 0⟩ }
                   else a.responseStringInfo }) }
  | none => s

/-- the thread sets the status it finds queued -/
def SvcCli.settle (a : SvcCli) : SvcCli :=
  if a.cliThreadStatus = .requestCbQueued then { a with cliThreadStatus := .requestCbProcessed } else a

/-- the asserts of the thread on the context it has taken -/
def readyForUser (s : Svc) (c : ℕ) : Bool :=
  match (s.ctx c).val? with
  | some a => a.cliThreadStatus = .requestCbQueued ∧ s.hasRequestCb = true
  | none => false

/-- an access of the thread to context c -/
def St.touch (s : St) (c : ℕ) : List (ℕ × Bool) := s.touches ++ [(c, (s.svc.ctx c).isLive)]

/-- one iteration of the loop of `ccapi_cli_thread`, step by step -/
def stepThread (s : St) : Op → St
  | .wake =>
    match s.pc, s.lock with
    | .waiting, l + 1 =>
      match s.svc.svcCli with
      | some c => { s with lock := l, pc := .picked c }
      | none => { s with lock := l, pc := .exited }
    | _, _ => s
  | .check =>
    match s.pc with
    | .picked c => { s with touches := s.touch c, pc := if readyForUser s.svc c then .checked c else .exited }
    | _ => s
  | .call =>
    match s.pc with
    | .checked c => { s with touches := s.touch c, pc := .calling c, calls := s.calls ++ (userCall s.svc c).toList }
    | _ => s
  | .ret output =>
    match s.pc with
    | .calling c =>
      { s with touches := if output.isSome then s.touch c else s.touches, pc := .returned c,
               svc := storeOutput c output s.svc }
    | _ => s
  | .settle =>
    match s.pc with
    | .returned c =>
      { s with touches := s.touch c, pc := .settled,
               svc := { s.svc with ctx := Function.update s.svc.ctx c ((s.svc.ctx c).map SvcCli.settle) } }
    | _ => s
  | .clear =>
    match s.pc with
    | .settled => { s with pc := .waiting, svc := { s.svc with svcCli := none } }
    | _ => s
  | _ => s

def step (s : St) : Op → St
  | .request r contextOk ok => stepRequest r contextOk ok s
  | .reply r ok => { s with svc := (processCliResponse r ok s.svc).1 }
  | .status r => { s with svc := (processCliStatus r s.svc).1 }
  | o => stepThread s o

/-- after `ccxapi_start`: no session, nothing handed over, the thread waiting on its lock -/
structure Init (s : St) : Prop where
  ctx : ∀ c, s.svc.ctx c = .unallocated
  slot : s.svc.svcCli = none
  lock : s.lock = 0
  pc : s.pc = .waiting
  history : s.calls = [] ∧ s.touches = []

/-- the service as `ccxapi_start` leaves it -/
def St.fresh (hasFinishedCb : Bool) : St :=
  { svc := { cliSupported := true, hasRequestCb := true, hasFinishedCb := hasFinishedCb, svcCli := none,
             ctx := fun _ => .unallocated, heap := Heap.empty },
    lock := 0, pc := .waiting, calls := [], touches := [] }

theorem init_fresh (hasFinishedCb : Bool) : Init (St.fresh hasFinishedCb) := ⟨fun _ => rfl, rfl, rfl, rfl, rfl, rfl⟩

end CcApi.Cli
