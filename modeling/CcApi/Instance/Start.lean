/-
Starting the library (`ccxapi_start` of `ccapi_init.c`).

Once it has its record the start is a program over the record it fills in, what the call has acquired and the workers it
has started. It is left at the first step that fails (`Site`); `ccxapiStart` then gives back what
`free_ccapi_data_internal_resources` finds in the record, and the record.

`Plat` says how the platform answers each request of the call; a request is made at most once in a call, so it is named by
what it asks for. Memory is uninitialised where the call has not written to it: `stale` is the one field that is read
unwritten, the pointer `transport_tcp.cond`.

The strings of the configuration's firmware targets are not NULL. The lists of virtual directories and receive targets are
empty when a start fails, so their release is no part of this module.
-/
import CcApi.Lib.Prog
import CcApi.Platform

namespace CcApi.Instance

open Lib Lib.Prog

/-! ## Data -/

/-- `ccapi_start_error_t` -/
inductive StartError where
  | nullParameter
  | invalidVendorId
  | invalidDeviceId
  | invalidUrl
  | invalidDeviceType
  | invalidCliRequestCallback
  | invalidRciRequestCallback
  | invalidFirmwareInfo
  | invalidFirmwareDataCallback
  | invalidSmEncryptionCallback
  | insufficientMemory
  | threadFailed
  | lockFailed
  | alreadyStarted
deriving DecidableEq, Repr

/-- the threads of an instance -/
inductive Worker where
  | connectorRun
  | rci
  | receive
  | cli
  | firmware
deriving DecidableEq, Repr

/-- what a call acquires, or gives back -/
inductive Item where
  | loggingLock
  | record
  | deviceType
  | deviceCloudUrl
  | targetItem
  | description (i : ℕ)
  | filespec (i : ℕ)
  | receiveLock
  /-- the memory of a condition, and the condition initialised in it -/
  | condition
  | conditionState
  | threadInfo (w : Worker)
  | threadLock (w : Worker)
  | initiateActionLock
  | fileSystemLock
  /-- strings of the caller's configuration -/
  | callerDescription (i : ℕ)
  | callerFilespec (i : ℕ)
  /-- what an unwritten pointer points to -/
  | unknown
deriving DecidableEq, Repr

/-- `ccapi_sm_encryption_t`: which callbacks there are -/
structure SmEncryption where
  loadData : Bool
  storeData : Bool
  encryptGcm : Bool
  decryptGcm : Bool
deriving DecidableEq, Repr

/-- `ccapi_fw_service_t`: whether there is a data callback, and the number of targets; `none` for a NULL item list -/
structure FirmwareService where
  hasData : Bool
  targets : Option ℕ
deriving DecidableEq, Repr

/-- `ccapi_start_t`: the checked parameters, and the services that are not NULL -/
structure StartConfig where
  vendorId : ℕ
  deviceId : List UInt8
  deviceCloudUrl : Option Str
  deviceType : Option Str
  firmware : Option FirmwareService
  receive : Bool
  /-- whether the request callback is there -/
  cli : Option Bool
  sm : Option (Option SmEncryption)
  /-- whether `rci_data` is there -/
  rci : Option Bool
deriving DecidableEq, Repr

/-- how the platform answers a call of `ccxapi_start` -/
structure Plat where
  /-- CCIMP_DEBUG_ENABLED -/
  debug : Bool
  malloc : Item → Bool
  lockCreate : Item → Bool
  /-- the release that follows the creation of a lock -/
  lockRelease : Item → Bool
  connectorInit : Bool
  condAlloc : Bool
  condInit : Bool
  createThread : Worker → Bool
  /-- the memory of the record has something other than NULL where `transport_tcp.cond` will be -/
  stale : Bool

/-- where a start fails -/
inductive Site where
  | loggingCreate
  | loggingRelease
  | nullHandle
  | alreadyStarted
  | record
  | nullStart
  | params (e : StartError)
  | deviceType
  | deviceCloudUrl
  | firmwareData
  | firmwareInfo
  | targetItem
  | description (i : ℕ)
  | filespec (i : ℕ)
  | receiveCreate
  | receiveRelease
  | cliRequest
  | smEncryption
  | rciData
  | connectorInit
  | condAlloc
  | condInit
  | threadInfo (w : Worker)
  | threadLock (w : Worker)
  | createThread (w : Worker)
  | initiateActionCreate
  | initiateActionRelease
  | fileSystemCreate
  | fileSystemRelease
deriving DecidableEq, Repr

/-- the error the call returns -/
def Site.error : Site → StartError
  | .loggingCreate | .loggingRelease | .receiveCreate | .receiveRelease | .threadLock _ => .lockFailed
  | .initiateActionCreate | .initiateActionRelease | .fileSystemCreate | .fileSystemRelease => .lockFailed
  | .nullHandle | .nullStart => .nullParameter
  | .alreadyStarted => .alreadyStarted
  | .params e => e
  | .firmwareData => .invalidFirmwareDataCallback
  | .firmwareInfo => .invalidFirmwareInfo
  | .cliRequest => .invalidCliRequestCallback
  | .smEncryption => .invalidSmEncryptionCallback
  | .rciData => .invalidRciRequestCallback
  | .createThread _ => .threadFailed
  | .record | .deviceType | .deviceCloudUrl | .targetItem | .description _ | .filespec _ => .insufficientMemory
  | .connectorInit | .condAlloc | .condInit | .threadInfo _ => .insufficientMemory

/-- how a call ends that does not succeed: with an error, or in an access through a NULL pointer -/
inductive Halt where
  | fails (s : Site)
  | crash
deriving DecidableEq, Repr

/-- `ccapi_data_t`: the pointers and flags that the release of a failed start looks at -/
structure Record where
  deviceType : Option Item
  deviceCloudUrl : Option Item
  firmwareSupported : Bool
  receiveSupported : Bool
  cliSupported : Bool
  rciSupported : Bool
  targetItem : Option Item
  /-- description and filespec of each of the `target.count` targets -/
  targets : List (Option Item × Option Item)
  receiveLock : Option Item
  cond : Option Item
  thread : Worker → Option Item
  initiateActionLock : Option Item
  fileSystemLock : Option Item

/-- a call that has its record -/
structure Work where
  data : Record
  acquired : List Item
  running : List Worker

abbrev Start (α : Type) : Type := Prog Work Halt α

/-! ## Steps -/

def fail {α : Type} (s : Site) : Start α := throw (.fails s)

def acquire (x : Item) : Start Unit := modify fun t => { t with acquired := t.acquired ++ [x] }

def setData (f : Record → Record) : Start Unit := modify fun t => { t with data := f t.data }

/-- a request that the platform grants or refuses, refused with a failure -/
def request (granted : Bool) (x : Item) (s : Site) : Start Unit := do
  if granted then acquire x else fail s

/-- `ccapi_lock_create_and_release`: a lock whose release fails is lost -/
def lockCreateAndRelease (plat : Plat) (x : Item) (create release : Site) : Start Unit := do
  request (plat.lockCreate x) x create
  if plat.lockRelease x then return () else fail release

/-- the record once its first fields are written -/
def Record.fresh (stale : Bool) : Record :=
  { deviceType := none, deviceCloudUrl := none, firmwareSupported := false, receiveSupported := false,
    cliSupported := false, rciSupported := false, targetItem := none, targets := [], receiveLock := none,
    cond := if stale then some .unknown else none, thread := fun _ => none, initiateActionLock := none,
    fileSystemLock := none }

def emptyString (s : Option Str) : Bool := s = none || s = some []

/-- `check_params` -/
def checkParams (c : StartConfig) : Start Unit := do
  if c.vendorId = 0 then fail (.params .invalidVendorId)
  else if c.deviceId = List.replicate 16 0 then fail (.params .invalidDeviceId)
  else if emptyString c.deviceCloudUrl then fail (.params .invalidUrl)
  else if emptyString c.deviceType then fail (.params .invalidDeviceType)
  else return ()

/-- the copies of the two strings -/
def copyStrings (plat : Plat) : Start Unit := do
  request (plat.malloc .deviceType) .deviceType .deviceType
  setData fun r => { r with deviceType := some .deviceType }
  request (plat.malloc .deviceCloudUrl) .deviceCloudUrl .deviceCloudUrl
  setData fun r => { r with deviceCloudUrl := some .deviceCloudUrl }

/-- the copies of a target's strings; until then the target's pointers are those of the configuration -/
def copyTarget (plat : Plat) (i : ℕ) : Start Unit := do
  request (plat.malloc (.description i)) (.description i) (.description i)
  setData fun r => { r with targets := r.targets.set i (some (.description i), some (.callerFilespec i)) }
  request (plat.malloc (.filespec i)) (.filespec i) (.filespec i)
  setData fun r => { r with targets := r.targets.set i (some (.description i), some (.filespec i)) }

def copyTargets (plat : Plat) : List ℕ → Start Unit
  | [] => return ()
  | i :: is => do
    copyTarget plat i
    copyTargets plat is

/-- the firmware service of the configuration -/
def firmwareService (plat : Plat) (f : FirmwareService) : Start Unit := do
  if !f.hasData then fail .firmwareData
  else
    match f.targets with
    | none => fail .firmwareInfo
    | some 0 => fail .firmwareInfo
    | some n =>
      request (plat.malloc .targetItem) .targetItem .targetItem
      -- the `memcpy` of the caller's targets, with the caller's pointers in them
      setData fun r => { r with
        targetItem := some .targetItem
        targets := (List.range n).map fun i => (some (.callerDescription i), some (.callerFilespec i)) }
      copyTargets plat (List.range n)
      setData fun r => { r with firmwareSupported := true }

/-- the stub service of an instance with remote configuration only -/
def stubFirmwareService (plat : Plat) (hasRciData : Bool) : Start Unit := do
  if !hasRciData then throw .crash
  else
    request (plat.malloc .targetItem) .targetItem .targetItem
    setData fun r => { r with targetItem := some .targetItem, targets := [(none, none)], firmwareSupported := true }

def firmwareStep (plat : Plat) (c : StartConfig) : Start Unit :=
  match c.firmware, c.rci with
  | some f, _ => firmwareService plat f
  | none, some hasRciData => stubFirmwareService plat hasRciData
  | none, none => return ()

def receiveStep (plat : Plat) (c : StartConfig) : Start Unit :=
  if c.receive then do
    lockCreateAndRelease plat .receiveLock .receiveCreate .receiveRelease
    setData fun r => { r with receiveLock := some .receiveLock, receiveSupported := true }
  else return ()

def cliStep (c : StartConfig) : Start Unit :=
  match c.cli with
  | none => return ()
  | some false => fail .cliRequest
  | some true => setData fun r => { r with cliSupported := true }

def smStep (c : StartConfig) : Start Unit :=
  match c.sm with
  | none => return ()
  | some none => fail .smEncryption
  | some (some e) => if e.loadData && e.storeData && e.encryptGcm && e.decryptGcm then return () else fail .smEncryption

def rciStep (c : StartConfig) : Start Unit :=
  match c.rci with
  | none => return ()
  | some false => fail .rciData
  | some true => setData fun r => { r with rciSupported := true }

/-- `connector_init` and the condition of the TCP transport -/
def connectorStep (plat : Plat) : Start Unit := do
  if !plat.connectorInit then fail .connectorInit
  else if plat.condAlloc then
    acquire .condition
    setData fun r => { r with cond := some .condition }
    request plat.condInit .conditionState .condInit
  else
    setData fun r => { r with cond := none }
    fail .condAlloc

/-- `ccapi_create_and_start_thread`: the record is stored once its lock is there -/
def createAndStartThread (plat : Plat) (w : Worker) : Start Unit := do
  request (plat.malloc (.threadInfo w)) (.threadInfo w) (.threadInfo w)
  request (plat.lockCreate (.threadLock w)) (.threadLock w) (.threadLock w)
  setData fun r => { r with thread := Function.update r.thread w (some (.threadInfo w)) }
  if plat.createThread w then modify fun t => { t with running := t.running ++ [w] }
  else fail (.createThread w)

def threadIf (plat : Plat) (c : Bool) (w : Worker) : Start Unit :=
  if c then createAndStartThread plat w else return ()

def threadsStep (plat : Plat) (c : StartConfig) : Start Unit := do
  createAndStartThread plat .connectorRun
  threadIf plat c.rci.isSome .rci
  threadIf plat c.receive .receive
  threadIf plat c.cli.isSome .cli
  threadIf plat c.firmware.isSome .firmware

def locksStep (plat : Plat) : Start Unit := do
  lockCreateAndRelease plat .initiateActionLock .initiateActionCreate .initiateActionRelease
  setData fun r => { r with initiateActionLock := some .initiateActionLock }
  lockCreateAndRelease plat .fileSystemLock .fileSystemCreate .fileSystemRelease
  setData fun r => { r with fileSystemLock := some .fileSystemLock }

/-- what follows once there is a record -/
def fillRecord (plat : Plat) (start : Option StartConfig) : Start Unit := do
  match start with
  | none => fail .nullStart
  | some c =>
    checkParams c
    copyStrings plat
    firmwareStep plat c
    receiveStep plat c
    cliStep c
    smStep c
    rciStep c
    connectorStep plat
    threadsStep plat c
    locksStep plat

/-! ## Release -/

/-- `reset_heap_ptr`, and the tests for NULL before a release -/
def given : Option Item → List Item := Option.toList

/-- the strings of the targets, each tested on its own -/
def givenTargets (l : List (Option Item × Option Item)) : List Item := l.flatMap fun p => given p.1 ++ given p.2

/-- `ccimp_os_condition_destroy` and `ccimp_os_condition_free` of one pointer -/
def givenCond : Option Item → List Item
  | none => []
  | some .condition => [.conditionState, .condition]
  | some x => [x, x]

/-- what `free_ccapi_data_internal_resources` gives back, in order -/
def internalResources (r : Record) : List Item :=
  given r.fileSystemLock ++
  (if r.cliSupported then given (r.thread .cli) else []) ++
  (if r.receiveSupported then given r.receiveLock ++ given (r.thread .receive) else []) ++
  (if r.rciSupported then given (r.thread .rci) else []) ++
  (if r.targets.length ≠ 0 && r.targetItem.isSome then
    givenTargets r.targets ++ given r.targetItem ++ given (r.thread .firmware) else []) ++
  given r.deviceType ++ given r.deviceCloudUrl ++ given (r.thread .connectorRun) ++
  given r.initiateActionLock ++ givenCond r.cond

/-- what a failed start gives back once it has its record; log is what it gives back of the logging lock -/
def giveBack (log : List Item) (r : Record) : List Item := internalResources r ++ [.record] ++ log

/-! ## The call -/

/-- the caller's handle: NULL, another instance, the record of this call -/
inductive Handle where
  | null
  | other
  | record
deriving DecidableEq, Repr

/-- the outcome of a start: success, an error, a crash -/
inductive Outcome where
  | started
  | failed (s : Site)
  | crashed
deriving DecidableEq, Repr

/-- what a call leaves: `*ccapi_handle`, what it acquired and gave back, and its workers that run -/
structure After where
  handle : Handle
  acquired : List Item
  released : List Item
  running : List Worker
deriving DecidableEq, Repr

/-- the logging lock of all instances, created by the first one in a debug build: the failure, if any, and what was
acquired -/
def loggingLockUp (plat : Plat) (users : ℕ) : Option Site × List Item :=
  if plat.debug ∧ users = 0 then
    if plat.lockCreate .loggingLock then
      (if plat.lockRelease .loggingLock then none else some .loggingRelease, [.loggingLock])
    else (some .loggingCreate, [])
  else (none, [])

/-- `free_logging_resources` at the end of a failed start: the last user destroys `logging_lock`, if it has been set -/
def freeLoggingResources (plat : Plat) (users : ℕ) : List Item :=
  if plat.debug ∧ users = 0 ∧ (loggingLockUp plat users).1 = none then [.loggingLock] else []

/-- the checks of the handle and the memory of the record: the failure, if any -/
def takeRecord (plat : Plat) (noHandle : Bool) (handle : Handle) : Option Site :=
  if noHandle then some .nullHandle
  else if handle ≠ .null then some .alreadyStarted
  else if plat.malloc .record then none
  else some .record

/-- `ccxapi_start`; noHandle says that `ccapi_handle` is NULL, handle is `*ccapi_handle` before the call, and users are
the instances that hold the logging lock -/
def ccxapiStart (plat : Plat) (noHandle : Bool) (handle : Handle) (start : Option StartConfig) (users : ℕ) :
    Outcome × After :=
  let log := (loggingLockUp plat users).2
  match (loggingLockUp plat users).1.or (takeRecord plat noHandle handle) with
  | some s => (.failed s, ⟨handle, log, freeLoggingResources plat users, []⟩)
  | none =>
    match fillRecord plat start ⟨Record.fresh plat.stale, log ++ [.record], []⟩ with
    | (.ok (), t) => (.started, ⟨.record, t.acquired, [], t.running⟩)
    | (.error (.fails s), t) =>
      (.failed s, ⟨.record, t.acquired, giveBack (freeLoggingResources plat users) t.data, t.running⟩)
    | (.error .crash, t) => (.crashed, ⟨.record, t.acquired, [], t.running⟩)

end CcApi.Instance
