/-
The connector's file-system requests (`ccapi_filesystem_handler.c`).

Each request's record is a structure with the fields the handler reads and writes; the handler gives it back as it leaves
it. `ccapi_filesystem_handler` takes the file-system lock, serves the request and releases the lock.

Paths start with a '/', as the connector's do.
-/
import CcApi.FileSystem.Model

namespace CcApi.FileSystem

open Lib Lib.Prog

/-! ## The records -/

/-- `connector_file_system_open_t`; handle `none` is CONNECTOR_FILESYSTEM_FILE_HANDLE_NOT_INITIALIZED, and errnum
`none` is CONNECTOR_FILESYSTEM_ERRNUM_NONE, here and below -/
structure OpenData where
  path : Str
  oflag : ℕ
  handle : Option ℕ
  errnum : Option ℕ
deriving DecidableEq, Repr

/-- `connector_file_system_read_t`; buffer is what the platform wrote into it -/
structure ReadData where
  handle : ℕ
  bytesAvailable : ℕ
  buffer : Str
  bytesUsed : ℕ
  errnum : Option ℕ
deriving DecidableEq, Repr

/-- `connector_file_system_write_t` -/
structure WriteData where
  handle : ℕ
  data : Str
  bytesUsed : ℕ
  errnum : Option ℕ
deriving DecidableEq, Repr

/-- `connector_file_system_lseek_t` -/
structure LseekData where
  handle : ℕ
  requestedOffset : ℤ
  origin : SeekOrigin
  resultingOffset : ℤ
  errnum : Option ℕ
deriving DecidableEq, Repr

/-- `connector_file_system_close_t` -/
structure CloseData where
  handle : ℕ
  errnum : Option ℕ
deriving DecidableEq, Repr

/-- `connector_file_system_truncate_t` -/
structure TruncateData where
  handle : ℕ
  lengthInBytes : ℤ
  errnum : Option ℕ
deriving DecidableEq, Repr

/-- `connector_file_system_remove_t` -/
structure RemoveData where
  path : Str
  errnum : Option ℕ
deriving DecidableEq, Repr

/-- `connector_file_system_opendir_t` -/
structure OpendirData where
  userContext : Option ℕ
  path : Str
  handle : DirHandle
  errnum : Option ℕ
deriving DecidableEq, Repr

/-- `connector_file_system_readdir_t`; `entryName` is what was written into the buffer -/
structure ReaddirData where
  userContext : Option ℕ
  handle : DirHandle
  bytesAvailable : ℕ
  entryName : Str
  errnum : Option ℕ
deriving DecidableEq, Repr

/-- `connector_file_system_stat_dir_entry_t` -/
structure StatDirEntryData where
  userContext : Option ℕ
  path : Str
  statbuf : Stat
  errnum : Option ℕ
deriving DecidableEq, Repr

/-- `connector_file_system_closedir_t` -/
structure ClosedirData where
  userContext : Option ℕ
  handle : DirHandle
  errnum : Option ℕ
deriving DecidableEq, Repr

/-- `connector_file_system_stat_t` -/
structure StatData where
  userContext : Option ℕ
  path : Str
  requested : HashAlg
  actual : HashAlg
  statbuf : Stat
  errnum : Option ℕ
deriving DecidableEq, Repr

/-- `connector_file_system_hash_t` -/
structure HashData where
  path : Str
  hashAlgorithm : HashAlg
  bytesRequested : ℕ
  hashValue : Str
  errnum : Option ℕ
deriving DecidableEq, Repr

/-- `connector_file_system_get_error_t` -/
structure GetErrorData where
  errnum : ℕ
  bytesAvailable : ℕ
  buffer : Str
  bytesUsed : ℕ
  errorStatus : ErrorStatus
deriving DecidableEq, Repr

/-- `connector_request_id_file_system_t` with its record; a session error of `none` is
`connector_session_error_count`, which no platform error stands for -/
inductive Request where
  | open (d : OpenData)
  | read (d : ReadData)
  | write (d : WriteData)
  | lseek (d : LseekData)
  | close (d : CloseData)
  | ftruncate (d : TruncateData)
  | remove (d : RemoveData)
  | opendir (d : OpendirData)
  | readdir (d : ReaddirData)
  | statDirEntry (d : StatDirEntryData)
  | closedir (d : ClosedirData)
  | stat (d : StatData)
  | hash (d : HashData)
  | getError (d : GetErrorData)
  | sessionError (e : Option SessionError)
deriving DecidableEq, Repr

/-! ## Paths -/

/-- `get_path_without_virtual_dir` -/
def getPathWithoutVirtualDir (fullPath : Str) : Str := (fullPath.drop 1).dropWhile (· ≠ separator)

/-- a local path, and the block to free when it is not the cloud path itself -/
structure LocalPath where
  path : Str
  block : Option ℕ

/-- `get_local_path_from_cloud_path`; `none` for NULL -/
def getLocalPathFromCloudPath (env : Env) (fullPath : Str) : Fs (Option LocalPath) := do
  let s ← get
  if s.virtualDirList = [] then return some ⟨fullPath, none⟩
  else
    let rest := getPathWithoutVirtualDir fullPath
    match findDir (fullPath.drop 1) (fullPath.length - rest.length - 1) s.virtualDirList with
    | none => return none
    | some d =>
      match ← malloc env (.path (d.localDir ++ rest)) with
      | none => return none
      | some p => return some ⟨d.localDir ++ rest, some p⟩

/-- `if (must_free_local_path) free_local_path(local_path);` -/
def freeLocalPath (env : Env) : Option ℕ → Fs Unit
  | none => return ()
  | some p => do
    let _ ← free env p
    return ()

/-! ## Errors -/

/-- `ccapi_fs_set_internal_error` and `ccapi_fs_set_ccimp_error`: the record's errnum afterwards -/
def setError (env : Env) (e : ErrorHandle) (errnum : Option ℕ) : Fs (Option ℕ) := do
  match ← malloc env (.error e) with
  | some p => return some p
  | none => return errnum

/-- the errnum after a call of the platform that may have failed -/
def setCcimpError (env : Env) (a : Answer) (errnum : Option ℕ) : Fs (Option ℕ) :=
  if a.status = .error then setError env (.ccimp a.errnum) errnum else return errnum

/-- what a connector's file handle points to -/
def loadFile (p : ℕ) : Fs FileHandle := do
  match ← load p with
  | .file h => return h
  | _ => throw .fault

/-- the access callback's answer; a service without one allows everything -/
def askAccess (env : Env) (path : Str) (request : FsRequest) : Fs Bool := do
  match env.access with
  | none => return true
  | some access =>
    let allow := access (← now) path request
    emit (.access path request allow)
    return allow

def notifyChanged (env : Env) (path : Str) (c : Changed) : Fs Unit :=
  if env.hasChanged then emit (.changed path c) else return ()

/-! ## Files -/

/-- the request an open is for: CCIMP_FILE_O_WRONLY is bit 0 of the flags, CCIMP_FILE_O_RDWR bit 1 -/
def openRequest (flags : ℕ) : FsRequest :=
  if flags.testBit 0 then .write else if flags.testBit 1 then .readWrite else .read

/-- the tail of `ccapi_fs_file_open` once the platform has opened the file -/
def newFileHandle (env : Env) (path : Str) (handle : ℤ) (request : FsRequest) (d : OpenData) : Fs OpenData := do
  match ← malloc env (.file ⟨handle, 0, request⟩) with
  | none => return d
  | some p =>
    match ← malloc env (.path path) with
    | none => return d
    | some q =>
      store p (.file ⟨handle, q, request⟩)
      return { d with handle := some p }

/-- `ccapi_fs_file_open` -/
def fileOpen (env : Env) (d : OpenData) : Fs (CcimpStatus × OpenData) := do
  match ← getLocalPathFromCloudPath env d.path with
  | none =>
    let errnum ← setError env (.internal .invalidPath) d.errnum
    return (.error, { d with errnum := errnum })
  | some l =>
    let allow ← askAccess env l.path (openRequest d.oflag)
    if allow then
      let a ← ccimpCallKeeping env (.fileOpen l.path d.oflag)
      let errnum ← setCcimpError env a d.errnum
      let d := { d with errnum := errnum }
      if a.status = .ok then
        let d ← newFileHandle env l.path a.fileHandle (openRequest d.oflag) d
        freeLocalPath env l.block
        return (.ok, d)
      else
        freeLocalPath env l.block
        return (a.status, { d with handle := none })
    else
      let errnum ← setError env (.internal .accessDenied) d.errnum
      freeLocalPath env l.block
      return (.error, { d with errnum := errnum, handle := none })

/-- `ccapi_fs_file_read` -/
def fileRead (env : Env) (d : ReadData) : Fs (CcimpStatus × ReadData) := do
  let h ← loadFile d.handle
  let a ← ccimpCallKeeping env (.fileRead h.ccimpHandle d.bytesAvailable)
  let errnum ← setCcimpError env a d.errnum
  return (a.status, { d with buffer := a.bytes, bytesUsed := a.bytesUsed, errnum := errnum })

/-- `ccapi_fs_file_write` -/
def fileWrite (env : Env) (d : WriteData) : Fs (CcimpStatus × WriteData) := do
  let h ← loadFile d.handle
  let a ← ccimpCallKeeping env (.fileWrite h.ccimpHandle d.data)
  let errnum ← setCcimpError env a d.errnum
  return (a.status, { d with bytesUsed := a.bytesUsed, errnum := errnum })

/-- `ccapi_fs_file_seek` -/
def fileSeek (env : Env) (d : LseekData) : Fs (CcimpStatus × LseekData) := do
  let h ← loadFile d.handle
  let a ← ccimpCallKeeping env (.fileSeek h.ccimpHandle d.requestedOffset d.origin)
  let errnum ← setCcimpError env a d.errnum
  return (a.status, { d with resultingOffset := a.offset, errnum := errnum })

/-- the changed callback of a close: for every answer of the platform, and for files opened to be written -/
def closeChanged (env : Env) (h : FileHandle) : Fs Unit := do
  if env.hasChanged && (h.request = .write || h.request = .readWrite) then
    match ← load h.filePath with
    | .path path => emit (.changed path .modified)
    | _ => throw .fault
  else return ()

/-- `ccapi_fs_file_close` -/
def fileClose (env : Env) (d : CloseData) : Fs (CcimpStatus × CloseData) := do
  let h ← loadFile d.handle
  let a ← ccimpCallKeeping env (.fileClose h.ccimpHandle)
  closeChanged env h
  let errnum ← setCcimpError env a d.errnum
  if a.status = .busy then return (a.status, { d with errnum := errnum })
  else
    let _ ← free env h.filePath
    let _ ← free env d.handle
    return (a.status, { d with errnum := errnum })

/-- `ccapi_fs_file_truncate` -/
def fileTruncate (env : Env) (d : TruncateData) : Fs (CcimpStatus × TruncateData) := do
  let h ← loadFile d.handle
  let a ← ccimpCallKeeping env (.fileTruncate h.ccimpHandle d.lengthInBytes)
  let errnum ← setCcimpError env a d.errnum
  return (a.status, { d with errnum := errnum })

/-- `ccapi_fs_file_remove` -/
def fileRemove (env : Env) (d : RemoveData) : Fs (CcimpStatus × RemoveData) := do
  match ← getLocalPathFromCloudPath env d.path with
  | none =>
    let errnum ← setError env (.internal .invalidPath) d.errnum
    return (.error, { d with errnum := errnum })
  | some l =>
    let allow ← askAccess env l.path .remove
    if allow then
      let a ← ccimpCallKeeping env (.fileRemove l.path)
      if a.status = .ok then notifyChanged env l.path .removed
      let errnum ← setCcimpError env a d.errnum
      freeLocalPath env l.block
      return (a.status, { d with errnum := errnum })
    else
      let errnum ← setError env (.internal .accessDenied) d.errnum
      freeLocalPath env l.block
      return (.error, { d with errnum := errnum })

/-! ## Directories -/

/-- `ccapi_fs_dir_open` -/
def dirOpen (env : Env) (d : OpendirData) : Fs (CcimpStatus × OpendirData) := do
  match d.userContext with
  | some p => return (.ok, { d with handle := .listing p })
  | none =>
    match ← getLocalPathFromCloudPath env d.path with
    | none =>
      let errnum ← setError env (.internal .invalidPath) d.errnum
      return (.error, { d with errnum := errnum })
    | some l =>
      let allow ← askAccess env l.path .list
      if allow then
        let a ← ccimpCallKeeping env (.dirOpen l.path)
        let errnum ← setCcimpError env a d.errnum
        freeLocalPath env l.block
        return (a.status, { d with handle := .platform a.dirHandle, errnum := errnum })
      else
        let errnum ← setError env (.internal .accessDenied) d.errnum
        freeLocalPath env l.block
        return (.error, { d with errnum := errnum })

/-- the node of a list after a given one; a node that is not in the list has been freed -/
def followNode (node : ℕ) : List VirtualDir → Option (VirtualDir × Option ℕ)
  | [] => none
  | d :: l => if d.node = node then some (d, l.head?.map (·.node)) else followNode node l

/-- the root directory listing's part of `ccapi_fs_dir_read_entry`: the bytes written to `entry_name` -/
def readRootEntry (p : ℕ) (bytesAvailable : ℕ) : Fs Str := do
  match ← load p with
  | .listing none => return [0]
  | .listing (some node) =>
    let s ← get
    match followNode node s.virtualDirList with
    | none => throw .fault
    | some (d, next) =>
      store p (.listing next)
      return (d.virtualDir ++ [0]).take bytesAvailable
  | _ => throw .fault

/-- `ccapi_fs_dir_read_entry` -/
def dirReadEntry (env : Env) (d : ReaddirData) : Fs (CcimpStatus × ReaddirData) := do
  match d.userContext with
  | some p =>
    let name ← readRootEntry p d.bytesAvailable
    return (.ok, { d with entryName := name })
  | none =>
    let a ← ccimpCallKeeping env (.dirReadEntry d.handle d.bytesAvailable)
    let errnum ← setCcimpError env a d.errnum
    return (a.status, { d with entryName := a.bytes, errnum := errnum })

/-- the root directory's status -/
def rootStat : Stat := ⟨.dir, 0, 0⟩

/-- `ccapi_fs_dir_entry_status` -/
def dirEntryStatus (env : Env) (d : StatDirEntryData) : Fs (CcimpStatus × StatDirEntryData) := do
  match d.userContext with
  | some _ => return (.ok, { d with statbuf := rootStat })
  | none =>
    match ← getLocalPathFromCloudPath env d.path with
    | none =>
      let errnum ← setError env (.internal .invalidPath) d.errnum
      return (.error, { d with errnum := errnum })
    | some l =>
      let a ← ccimpCallKeeping env (.dirEntryStatus l.path)
      let errnum ← setCcimpError env a d.errnum
      freeLocalPath env l.block
      return (a.status, { d with statbuf := a.stat, errnum := errnum })

/-- `ccapi_fs_dir_close` -/
def dirClose (env : Env) (d : ClosedirData) : Fs (CcimpStatus × ClosedirData) := do
  match d.userContext with
  | some p =>
    let status ← free env p
    return (status, { d with userContext := none })
  | none =>
    let a ← ccimpCallKeeping env (.dirClose d.handle)
    let errnum ← setCcimpError env a d.errnum
    return (a.status, { d with errnum := errnum })

/-! ## Status and hashes -/

/-- `ccapi_fs_hash_status`: the root path starts a listing of the virtual directories; any other path has two calls of
the platform, and the context the first one leaves is dropped -/
def hashStatus (env : Env) (d : StatData) : Fs (CcimpStatus × StatData) := do
  let s ← get
  if s.virtualDirList ≠ [] && d.path = [separator] then
    match ← malloc env (.listing (s.virtualDirList.head?.map (·.node))) with
    | none => return (.error, d)
    | some p => return (.ok, { d with userContext := some p, actual := .none, statbuf := rootStat })
  else
    match ← getLocalPathFromCloudPath env d.path with
    | none =>
      let errnum ← setError env (.internal .invalidPath) d.errnum
      return (.error, { d with errnum := errnum })
    | some l =>
      let s ← get
      let a ← ccimpCall env (.dirEntryStatus l.path) s.impContext
      if a.status = .error then
        let errnum ← setCcimpError env a d.errnum
        freeLocalPath env l.block
        return (.error, { d with errnum := errnum })
      else
        let b ← ccimpCallKeeping env (.hashAlg l.path d.requested)
        let errnum ← setCcimpError env b d.errnum
        freeLocalPath env l.block
        return (b.status, { d with statbuf := a.stat, actual := b.hashAlg, errnum := errnum })

/-- `ccapi_fs_hash_file` -/
def hashFile (env : Env) (d : HashData) : Fs (CcimpStatus × HashData) := do
  match ← getLocalPathFromCloudPath env d.path with
  | none =>
    let errnum ← setError env (.internal .invalidPath) d.errnum
    return (.error, { d with errnum := errnum })
  | some l =>
    let a ← ccimpCallKeeping env (.hashFile l.path d.hashAlgorithm d.bytesRequested)
    let errnum ← setCcimpError env a d.errnum
    freeLocalPath env l.block
    return (a.status, { d with hashValue := a.bytes, errnum := errnum })

/-! ## Errors asked for -/

def InternalError.status : InternalError → ErrorStatus
  | .accessDenied => .permissionDenied
  | .invalidPath => .pathNotFound

/-- `ccapi_fs_error_desc` -/
def errorDesc (env : Env) (d : GetErrorData) : Fs (CcimpStatus × GetErrorData) := do
  match ← load d.errnum with
  | .error (.internal e) =>
    let _ ← free env d.errnum
    return (.ok, { d with errorStatus := e.status, bytesUsed := 0 })
  | .error (.ccimp errnum) =>
    let a ← ccimpCallKeeping env (.errorDesc errnum d.bytesAvailable)
    let _ ← free env d.errnum
    return (a.status, { d with buffer := a.bytes, bytesUsed := a.bytesUsed, errorStatus := a.errorStatus })
  | _ => throw .fault

/-- `ccapi_fs_session_error` -/
def sessionError (env : Env) (e : Option SessionError) : Fs CcimpStatus := do
  let a ← ccimpCallKeeping env (.sessionError e)
  return a.status

/-! ## The handler -/

/-- `connector_callback_status_from_ccimp_status` -/
def callbackStatus : CcimpStatus → CallbackStatus
  | .error => .error
  | .ok => .cont
  | .busy => .busy

/-- the `switch` of `ccapi_filesystem_handler` -/
def serve (env : Env) : Request → Fs (CcimpStatus × Request)
  | .open d => do let (s, d) ← fileOpen env d; return (s, .open d)
  | .read d => do let (s, d) ← fileRead env d; return (s, .read d)
  | .write d => do let (s, d) ← fileWrite env d; return (s, .write d)
  | .lseek d => do let (s, d) ← fileSeek env d; return (s, .lseek d)
  | .close d => do let (s, d) ← fileClose env d; return (s, .close d)
  | .ftruncate d => do let (s, d) ← fileTruncate env d; return (s, .ftruncate d)
  | .remove d => do let (s, d) ← fileRemove env d; return (s, .remove d)
  | .opendir d => do let (s, d) ← dirOpen env d; return (s, .opendir d)
  | .readdir d => do let (s, d) ← dirReadEntry env d; return (s, .readdir d)
  | .statDirEntry d => do let (s, d) ← dirEntryStatus env d; return (s, .statDirEntry d)
  | .closedir d => do let (s, d) ← dirClose env d; return (s, .closedir d)
  | .stat d => do let (s, d) ← hashStatus env d; return (s, .stat d)
  | .hash d => do let (s, d) ← hashFile env d; return (s, .hash d)
  | .getError d => do let (s, d) ← errorDesc env d; return (s, .getError d)
  | .sessionError e => do let s ← sessionError env e; return (s, .sessionError e)

/-- `ccapi_filesystem_handler` -/
def filesystemHandler (env : Env) (r : Request) : Locked (CallbackStatus × Request) := do
  let acquired ← lockAcquire env
  if acquired = .ok then
    let (status, r) ← onService (serve env r)
    let released ← lockRelease env
    return (callbackStatus (if released = .ok then status else released), r)
  else return (callbackStatus acquired, r)

/-! ## Runs -/

/-- an operation on the service -/
inductive Op where
  | openFile (localPath : Str) (flags : ℕ)
  | readFile (handle : ℤ) (bytesAvailable : ℕ)
  | closeFile (handle : ℤ)
  | getDirEntryStatus (localPath : Str)
  | addVirtualDir (stopped : Bool) (virtualDir localDir : Option Str)
  | removeVirtualDir (stopped : Bool) (virtualDir : Option Str)
  | handler (r : Request)

/-- what an operation returns -/
inductive Result where
  | openFile (r : CcimpStatus × Option ℤ)
  | readFile (r : CcimpStatus × Option Str × ℕ)
  | closeFile (r : CcimpStatus)
  | getDirEntryStatus (r : CcimpStatus × Option Stat)
  | virtualDir (r : FsError)
  | handler (r : CallbackStatus × Request)
deriving DecidableEq, Repr

def Op.exec (env : Env) : Op → Locked Result
  | .openFile p f => do let r ← FileSystem.openFile env p f; return .openFile r
  | .readFile h n => do let r ← FileSystem.readFile env h n; return .readFile r
  | .closeFile h => do let r ← FileSystem.closeFile env h; return .closeFile r
  | .getDirEntryStatus p => do let r ← FileSystem.getDirEntryStatus env p; return .getDirEntryStatus r
  | .addVirtualDir stopped v l => do let r ← FileSystem.addVirtualDir env stopped v l; return .virtualDir r
  | .removeVirtualDir stopped v => do let r ← FileSystem.removeVirtualDir env stopped v; return .virtualDir r
  | .handler r => do let r ← filesystemHandler env r; return .handler r

/-- a run of operations: the state, the results, and why the last operation did not return, if it did not -/
structure Run where
  st : St
  results : List Result
  stuck : Option Stuck

def Run.start (s : St) : Run := ⟨s, [], none⟩

/-- one operation; nothing follows an operation that does not return -/
def Run.step (env : Env) (x : Run) (o : Op) : Run :=
  match x.stuck with
  | some _ => x
  | none =>
    match o.exec env x.st with
    | (.ok r, s) => { x with st := s, results := x.results ++ [r] }
    | (.error e, s) => { x with st := s, stuck := some e }

end CcApi.FileSystem
