/-
The file-system service (`ccapi_filesystem_handler.c`, `ccapi_filesystem.c`) and the library's own file operations
(`ccapi.c`).

Every operation is a program over the service's state. What it asks of its surroundings (the platform's file system and
locks, memory, the user's access callback) it asks one thing after the other, and each question and answer is an event;
`Env` answers by the number of the question. So a fixed `Env` is any behaviour of the surroundings over a whole run.

Blocks of the heap are numbered from 1, and a pointer to a block that is not live, or not of the kind it is taken for, is
a `fault`. Taking the semaphore of the file-system lock at 0 is `blocked`: nothing else in a run of operations would
release it. Programs of type `Fs` cannot name the lock; the operations that can are of type `Locked`.

With CCIMP_DEBUG_ENABLED an assertion that fails halts the platform; `ccimp_hal_halt` is taken to return. The runs that show
what follows such a failure are of a build without it.

Enumerations that the connector and the platform both have, name by name (seek origins, entry types, hash algorithms,
session errors), are one type here, and the translation between the two is the identity.
-/
import CcApi.Lib.Prog
import CcApi.Lib.Runs
import CcApi.Platform

namespace CcApi.FileSystem

open Lib Lib.Prog

/-! ## Data -/

/-- `ccapi_fs_request_t` -/
inductive FsRequest where
  | read
  | write
  | readWrite
  | remove
  | list
  | unknown
deriving DecidableEq, Repr

/-- `ccapi_fs_changed_t` -/
inductive Changed where
  | modified
  | removed
deriving DecidableEq, Repr

/-- `ccapi_fs_error_t` -/
inductive FsError where
  | none
  | ccapiStopped
  | noFsSupport
  | invalidPath
  | insufficientMemory
  | notADir
  | notMapped
  | alreadyMapped
  | lockFailed
deriving DecidableEq, Repr

inductive SeekOrigin where
  | set
  | cur
  | endOfFile
deriving DecidableEq, Repr

/-- `ccimp_fs_dir_entry_type_t`; `connector_file_system_file_type_none`, `_is_reg`, `_is_dir` -/
inductive EntryType where
  | unknown
  | file
  | dir
deriving DecidableEq, Repr

inductive HashAlg where
  | none
  | sha3_512
  | sha512
  | md5
  | crc32
  | best
deriving DecidableEq, Repr

/-- `ccimp_fs_error_t`; `connector_file_system_error_t` -/
inductive ErrorStatus where
  | unspec
  | pathNotFound
  | insufficientSpace
  | format
  | invalidParameter
  | outOfMemory
  | permissionDenied
deriving DecidableEq, Repr

inductive SessionError where
  | none
  | fatal
  | invalidOpcode
  | format
  | sessionInUse
  | unknownSession
  | compressionFailure
  | decompressionFailure
  | memory
  | send
  | cancel
  | busy
  | ack
  | timeout
  | noService
deriving DecidableEq, Repr

/-- `ccimp_fs_stat_t` -/
structure Stat where
  type : EntryType
  fileSize : ℤ
  lastModified : ℕ
deriving DecidableEq, Repr

/-- `ccapi_fs_internal_error_t` -/
inductive InternalError where
  | accessDenied
  | invalidPath
deriving DecidableEq, Repr

/-- `ccapi_fs_error_handle_t` -/
inductive ErrorHandle where
  | internal (e : InternalError)
  | ccimp (errnum : ℤ)
deriving DecidableEq, Repr

/-- `ccapi_fs_file_handle_t`; `filePath` points to a block -/
structure FileHandle where
  ccimpHandle : ℤ
  filePath : ℕ
  request : FsRequest
deriving DecidableEq, Repr

/-- `ccapi_fs_virtual_dir_t`, the node of a linked list, with the blocks of the node and its two strings -/
structure VirtualDir where
  node : ℕ
  virtualDir : Str
  localDir : Str
  virtualBlock : ℕ
  localBlock : ℕ
deriving DecidableEq, Repr

/-- what a block of the heap holds -/
inductive Block where
  | path (p : Str)
  | file (h : FileHandle)
  | error (e : ErrorHandle)
  /-- `ccapi_fs_virtual_rootdir_listing_handle_t`: the node to list next -/
  | listing (dirEntry : Option ℕ)
  | node
deriving DecidableEq, Repr

/-- what stands in a directory handle: the platform's handle, or the block of a root directory listing.
`platform 0` is CCIMP_FILESYSTEM_DIR_HANDLE_NOT_INITIALIZED. -/
inductive DirHandle where
  | platform (h : ℕ)
  | listing (p : ℕ)
deriving DecidableEq, Repr

/-- a call of the platform's file system, with what it is given beside the context -/
inductive Call where
  | fileOpen (path : Str) (flags : ℕ)
  | fileRead (handle : ℤ) (bytesAvailable : ℕ)
  | fileWrite (handle : ℤ) (data : Str)
  | fileClose (handle : ℤ)
  | fileSeek (handle : ℤ) (requestedOffset : ℤ) (origin : SeekOrigin)
  | fileTruncate (handle : ℤ) (lengthInBytes : ℤ)
  | fileRemove (path : Str)
  | dirOpen (path : Str)
  | dirReadEntry (handle : DirHandle) (bytesAvailable : ℕ)
  | dirEntryStatus (path : Str)
  | dirClose (handle : DirHandle)
  | hashAlg (path : Str) (requested : HashAlg)
  | hashFile (path : Str) (algorithm : HashAlg) (bytesRequested : ℕ)
  | errorDesc (errnum : ℤ) (bytesAvailable : ℕ)
  | sessionError (e : Option SessionError)
deriving DecidableEq, Repr

/-- what a call of the platform leaves: its status, and the fields of its record -/
structure Answer where
  status : CcimpStatus
  impContext : ℕ
  errnum : ℤ
  fileHandle : ℤ
  dirHandle : ℕ
  /-- what it wrote into the buffer, and the `bytes_used` it reports -/
  bytes : Str
  bytesUsed : ℕ
  offset : ℤ
  stat : Stat
  hashAlg : HashAlg
  errorStatus : ErrorStatus
deriving DecidableEq, Repr

/-- what the library did with its surroundings -/
inductive Event where
  | call (c : Call) (impContext : ℕ) (a : Answer)
  | access (path : Str) (request : FsRequest) (allow : Bool)
  | changed (path : Str) (c : Changed)
  | malloc (ok : Bool)
  | free (p : ℕ)
  | acquire (s : CcimpStatus)
  | release (s : CcimpStatus)
deriving DecidableEq, Repr

/-- the build, the instance's configuration, and how its surroundings answer question number i -/
structure Env where
  /-- CCIMP_DEBUG_ENABLED -/
  debug : Bool
  filesystemSupported : Bool
  /-- CCIMP_FILE_SYSTEM_MAX_PATH_LENGTH -/
  maxPathLength : ℕ
  malloc : ℕ → Bool
  /-- `ccimp_os_free` -/
  free : ℕ → CcimpStatus
  acquire : ℕ → CcimpStatus
  release : ℕ → CcimpStatus
  answer : ℕ → Answer
  /-- `user_callback.access`, `none` when it is NULL -/
  access : Option (ℕ → Str → FsRequest → Bool)
  /-- `user_callback.changed` is not NULL -/
  hasChanged : Bool
  /-- the platform does not answer busy for ever -/
  settles : ∀ i, ∃ k, (answer (i + k)).status ≠ .busy

/-- the number of busy answers from question i on, before one that is not -/
def Env.busyFrom (env : Env) (i : ℕ) : ℕ := Nat.find (env.settles i)

/-- `service.file_system`, the heap, and what happened -/
structure Service where
  impContext : ℕ
  virtualDirList : List VirtualDir
  heap : ℕ → Option Block
  next : ℕ
  events : List Event

/-- the service and its lock -/
structure St where
  /-- the count of the semaphore `file_system_lock` -/
  lock : ℕ
  svc : Service

/-- the service as `ccxapi_start` leaves it -/
def St.fresh : St :=
  { lock := 1, svc := { impContext := 0, virtualDirList := [], heap := fun _ => none, next := 1, events := [] } }

/-- why a program does not return: it waits for the platform, or uses memory it must not use -/
inductive Fault where
  | waiting
  | fault
deriving DecidableEq, Repr

/-- why an operation does not return -/
inductive Stuck where
  | blocked
  | inService (e : Fault)
deriving DecidableEq, Repr

/-- a program that has nothing to do with the lock -/
abbrev Fs (α : Type) : Type := Prog Service Fault α

/-- an operation -/
abbrev Locked (α : Type) : Type := Prog St Stuck α

def onService {α : Type} (m : Fs α) : Locked α := zoom St.svc (fun t s => { s with svc := t }) .inService m

/-! ## The surroundings -/

/-- the number of the next question -/
def now : Fs ℕ := do
  let s ← get
  return s.events.length

def emit (e : Event) : Fs Unit := modify fun s => { s with events := s.events ++ [e] }

/-- `ccapi_malloc` of a block and what the caller fills it with -/
def malloc (env : Env) (b : Block) : Fs (Option ℕ) := do
  let s ← get
  let ok := env.malloc s.events.length
  emit (.malloc ok)
  if ok then
    modify fun s => { s with heap := Function.update s.heap s.next (some b), next := s.next + 1 }
    return some s.next
  else return none

/-- `ccapi_free` of a live block -/
def free (env : Env) (p : ℕ) : Fs CcimpStatus := do
  let s ← get
  match s.heap p with
  | some _ =>
    emit (.free p)
    modify fun s => { s with heap := Function.update s.heap p none }
    return env.free s.events.length
  | none => throw .fault

def load (p : ℕ) : Fs Block := do
  let s ← get
  match s.heap p with
  | some b => return b
  | none => throw .fault

def store (p : ℕ) (b : Block) : Fs Unit := modify fun s => { s with heap := Function.update s.heap p (some b) }

/-- `ccapi_lock_acquire(file_system_lock)`, which waits without a limit -/
def lockAcquire (env : Env) : Locked CcimpStatus := do
  let s ← get
  let status := env.acquire s.svc.events.length
  if status = .ok then
    if s.lock = 0 then throw .blocked
    else
      onService (emit (.acquire status))
      modify fun s => { s with lock := s.lock - 1 }
      return status
  else
    onService (emit (.acquire status))
    return status

/-- `ccapi_lock_release(file_system_lock)` -/
def lockRelease (env : Env) : Locked CcimpStatus := do
  let s ← get
  let status := env.release s.svc.events.length
  onService (emit (.release status))
  if status = .ok then
    modify fun s => { s with lock := s.lock + 1 }
    return status
  else return status

/-- `ASSERT_MSG(ccapi_lock_release(file_system_lock) == CCIMP_STATUS_OK)`: without CCIMP_DEBUG_ENABLED the macro drops
its argument, and with it the call -/
def assertMsgRelease (env : Env) : Locked Unit :=
  if env.debug then do
    let _ ← lockRelease env
    return ()
  else return ()

/-- a call of the platform's file system with imp_context as given -/
def ccimpCall (env : Env) (c : Call) (impContext : ℕ) : Fs Answer := do
  let a := env.answer (← now)
  emit (.call c impContext a)
  return a

/-- a call whose imp_context is kept for the next one -/
def ccimpCallKeeping (env : Env) (c : Call) : Fs Answer := do
  let s ← get
  let a ← ccimpCall env c s.impContext
  modify fun s => { s with impContext := a.impContext }
  return a

/-! ## The library's own file operations (`ccapi.c`) -/

/-- the `do … while (!loop_done)` of the four operations; the call's record keeps the context from one round to the
next. The fuel is the number of rounds. -/
def callUntilDone (env : Env) (c : Call) : ℕ → ℕ → Fs Answer
  | 0, _ => throw .waiting
  | fuel + 1, impContext => do
    let a ← ccimpCall env c impContext
    if a.status = .busy then callUntilDone env c fuel a.impContext
    else
      modify fun s => { s with impContext := a.impContext }
      return a

/-- the four operations: the call's record if the platform was asked, and the status -/
def lockedCall (env : Env) (c : Call) : Locked (CcimpStatus × Option Answer) := do
  let acquired ← lockAcquire env
  if acquired = .ok then
    let a ← onService do
      let s ← get
      callUntilDone env c (env.busyFrom s.events.length + 1) s.impContext
    assertMsgRelease env
    return (a.status, if a.status = .ok then some a else none)
  else return (acquired, none)

/-- `ccapi_open_file`; the result's second part is `*file_handler` where it is written -/
def openFile (env : Env) (localPath : Str) (flags : ℕ) : Locked (CcimpStatus × Option ℤ) := do
  let (status, a) ← lockedCall env (.fileOpen localPath flags)
  return (status, a.map (·.fileHandle))

/-- `ccapi_read_file`: the status, the buffer's new contents and `*bytes_used` -/
def readFile (env : Env) (handle : ℤ) (bytesAvailable : ℕ) : Locked (CcimpStatus × Option Str × ℕ) := do
  let (status, a) ← lockedCall env (.fileRead handle bytesAvailable)
  return (status, a.map (·.bytes), (a.map (·.bytesUsed)).getD 0)

/-- `ccapi_close_file` -/
def closeFile (env : Env) (handle : ℤ) : Locked CcimpStatus := do
  let (status, _) ← lockedCall env (.fileClose handle)
  return status

/-- `ccapi_get_dir_entry_status` -/
def getDirEntryStatus (env : Env) (localPath : Str) : Locked (CcimpStatus × Option Stat) := do
  let (status, a) ← lockedCall env (.dirEntryStatus localPath)
  return (status, a.map (·.stat))

/-! ## Virtual directories (`ccapi_filesystem.c`) -/

def separator : UInt8 := 47

/-- `strncmp(a, b, n) == 0` -/
def strncmpEq (a b : Str) (n : ℕ) : Bool := a.take n = b.take n

/-- `get_pointer_to_dir_entry_from_virtual_dir_name` compares up to the longer of the two names -/
def VirtualDir.isNamed (virtualDir : Str) (virtualDirLength : ℕ) (d : VirtualDir) : Bool :=
  strncmpEq d.virtualDir virtualDir (u32 (max d.virtualDir.length (u32 virtualDirLength)))

def findDir (virtualDir : Str) (virtualDirLength : ℕ) (l : List VirtualDir) : Option VirtualDir :=
  l.find? (·.isNamed virtualDir virtualDirLength)

/-- `add_virtual_dir_entry` -/
def addVirtualDirEntry (env : Env) (d : VirtualDir) : Locked FsError := do
  let acquired ← lockAcquire env
  if acquired = .ok then
    onService (modify fun s => { s with virtualDirList := d :: s.virtualDirList })
    let released ← lockRelease env
    return if released = .ok then .none else .lockFailed
  else return .lockFailed

/-- `create_virtual_dir_entry`: the node and its two strings, all or none -/
def createVirtualDirEntry (env : Env) (virtualDir localDir : Str) : Fs (Option VirtualDir) := do
  match ← malloc env .node with
  | none => return none
  | some node =>
    match ← malloc env (.path localDir) with
    | none =>
      let _ ← free env node
      return none
    | some l =>
      match ← malloc env (.path virtualDir) with
      | none =>
        let _ ← free env l
        let _ ← free env node
        return none
      | some v => return some ⟨node, virtualDir, localDir, v, l⟩

/-- `path_is_a_dir` -/
def pathIsADir (env : Env) (localPath : Str) : Locked Bool := do
  let (status, stat) ← getDirEntryStatus env localPath
  return status = .ok && stat.map (·.type) = some .dir

/-- the names `ccxapi_fs_add_virtual_dir` refuses -/
def invalidDirs (env : Env) (virtualDir localDir : Option Str) : Bool :=
  match virtualDir, localDir with
  | some v, some l =>
    v = [] || l = [] || separator ∈ v || 92 ∈ v || sizeSub env.maxPathLength 5 < v.length
  | _, _ => true

/-- the rest of `ccxapi_fs_add_virtual_dir` once its arguments and the list are checked -/
def mapVirtualDir (env : Env) (virtualDir localDir : Str) : Locked FsError := do
  let isADir ← pathIsADir env localDir
  if isADir then
    match ← onService (createVirtualDirEntry env virtualDir localDir) with
    | none => return .insufficientMemory
    | some d => addVirtualDirEntry env d
  else return .notADir

/-- `ccxapi_fs_add_virtual_dir`; stopped says that there is no instance or that its connector thread has ended -/
def addVirtualDir (env : Env) (stopped : Bool) (virtualDir localDir : Option Str) : Locked FsError := do
  let s ← get
  if invalidDirs env virtualDir localDir then return .invalidPath
  else if stopped then return .ccapiStopped
  else if !env.filesystemSupported then return .noFsSupport
  else if (findDir (virtualDir.getD []) (virtualDir.getD []).length s.svc.virtualDirList).isSome then
    return .alreadyMapped
  else mapVirtualDir env (virtualDir.getD []) (localDir.getD [])

/-- take the node of a name out of the list -/
def unlinkDir (v : Str) : Fs (Option VirtualDir) := do
  let s ← get
  modify fun s => { s with virtualDirList := s.virtualDirList.eraseP (·.isNamed v v.length) }
  return findDir v v.length s.virtualDirList

/-- free a node and its strings -/
def freeDir (env : Env) (d : VirtualDir) : Fs Unit := do
  let _ ← free env d.localBlock
  let _ ← free env d.virtualBlock
  let _ ← free env d.node
  return ()

/-- `ccxapi_fs_remove_virtual_dir` -/
def removeVirtualDir (env : Env) (stopped : Bool) (virtualDir : Option Str) : Locked FsError := do
  if stopped then return .ccapiStopped
  else if !env.filesystemSupported then return .noFsSupport
  else
    match virtualDir with
    | none => return .invalidPath
    | some v =>
      if v = [] || v.head? = some separator then return .invalidPath
      else
        let acquired ← lockAcquire env
        if acquired = .ok then
          let d ← onService (unlinkDir v)
          let released ← lockRelease env
          match d with
          | some d =>
            onService (freeDir env d)
            return .none
          | none => return if released = .ok then .notMapped else .lockFailed
        else return .lockFailed

end CcApi.FileSystem
