/-
The firmware update service (`ccapi_firmware_update_handler.c`): the four connector callbacks of a download and the
firmware thread that hands the chunks to the user.

The connector's FSM thread runs the callbacks `download_start`, `download_data`, `download_complete` and
`download_abort`; each is one operation of the machine. The firmware thread is split at every point where it touches what
the callbacks touch: `wake` (the lock is acquired and `&chunk_pool[chunk_pool_tail]` is taken), `call` (the chunk's
fields are read and the user's data callback begins), `ret` (it returns; `data_error` is stored), `clearInUse`
(`in_use = CCAPI_FALSE`) and `advanceTail` (increment and wrap). All interleavings are the lists of operations.

Premises:
- the thread's lock is a counting semaphore whose acquire and release do not fail;
- a block of the heap is never handed out twice (`Heap`);
- asserts are those of a build without CCIMP_DEBUG_ENABLED: `ASSERT_MSG_GOTO` branches, `ASSERT_MSG` is empty;
- the user's request callback answers with one of its enumerators; the cancel callback changes nothing here.
The stop request of library shutdown and the reset and info requests are not operations of this machine.

`crashed` records a division by zero in the data callback: `chunk_size` is a `size_t` that the callback narrows to
`uint32_t` before it divides by it. Nothing happens after it.
-/
import CcApi.Lib.Ring
import CcApi.Lib.Runs
import CcApi.Platform

namespace CcApi.Firmware

open Lib

/-! ## Data -/

/-- `connector_firmware_status_t` -/
inductive FirmwareStatus where
  | success
  | downloadDenied
  | downloadInvalidSize
  | downloadInvalidVersion
  | downloadUnauthenticated
  | downloadNotAllowed
  | downloadConfiguredToReject
  | encounteredError
  | userAbort
  | deviceError
  | invalidOffset
  | invalidData
  | hardwareError
deriving DecidableEq, Repr

/-- `connector_firmware_download_complete_status_t` -/
inductive CompleteStatus where
  | downloadSuccess
  | downloadNotComplete
deriving DecidableEq, Repr

/-- `ccapi_fw_request_error_t` -/
inductive RequestError where
  | none
  | downloadDenied
  | downloadInvalidSize
  | downloadInvalidVersion
  | downloadUnauthenticated
  | downloadNotAllowed
  | downloadConfiguredToReject
  | encounteredError
deriving DecidableEq, Repr

/-- `ccapi_fw_data_error_t` -/
inductive DataError where
  | none
  | invalidData
deriving DecidableEq, Repr

/-- what a callback gives back to the connector; `none` when it leaves the request's status unwritten -/
structure Answer (S : Type) where
  callback : CallbackStatus
  status : Option S
deriving DecidableEq, Repr

/-- `ccapi_firmware_target_t`, the sizes -/
structure Target where
  maximumSize : ℕ
  chunkSize : ℕ
deriving DecidableEq, Repr

/-- `ccapi_fw_chunk_info`; `data` is the number of a heap block, `none` for NULL -/
structure ChunkInfo where
  inUse : Bool
  offset : ℕ
  data : Option ℕ
  size : ℕ
  last : Bool
deriving DecidableEq, Repr

/-- `service.firmware_update`: the configuration, `processing`, and the heap its chunks live in. The pool has
CCAPI_CHUNK_POOL_SIZE = n + 1 slots. -/
structure Svc (n : ℕ) where
  targetCount : ℕ
  target : ℕ → Target
  hasRequestCb : Bool
  hasCancelCb : Bool
  updateStarted : Bool
  /-- `processing.target` -/
  current : ℕ
  totalSize : ℕ
  chunkPool : Fin (n + 1) → ChunkInfo
  chunkPoolHead : Fin (n + 1)
  chunkPoolTail : Fin (n + 1)
  headOffset : ℕ
  tailOffset : ℕ
  ccfsmBytesProcessed : ℕ
  dataError : DataError
  heap : Heap

/-- `connector_firmware_download_start_t` -/
structure StartReq where
  targetNumber : ℕ
  codeSize : ℕ
deriving DecidableEq, Repr

/-- `connector_firmware_download_data_t`; `image.data` points into memory, of which `bytesUsed` bytes are the block -/
structure DataReq where
  targetNumber : ℕ
  offset : ℕ
  data : ℕ → UInt8
  bytesUsed : ℕ

/-- CCIMP_MSG_MAX_RECV_PACKET_SIZE -/
def msgMaxRecvPacketSize : ℕ := 1500 - 20 - 20

variable {n : ℕ}

/-! ## The callbacks -/

/-- the loop of `free_and_stop_service` over the slots of a list -/
def freePool : List (Fin (n + 1)) → (Fin (n + 1) → ChunkInfo) → Heap → (Fin (n + 1) → ChunkInfo) × Heap
  | [], pool, heap => (pool, heap)
  | i :: is, pool, heap =>
    match (pool i).data with
    | some b => freePool is (Function.update pool i { pool i with data := none }) (heap.free b)
    | none => freePool is pool heap

/-- `free_and_stop_service` -/
def freeAndStopService (s : Svc n) : Svc n :=
  let (pool, heap) := freePool (List.finRange (n + 1)) s.chunkPool s.heap
  { s with chunkPool := pool, heap := heap, updateStarted := false }

/-- the set-up loop of `ccapi_process_firmware_update_request`, left at the first allocation that fails; ok says which
allocations the platform grants, the result says whether all were -/
def allocPool (size : ℕ) (ok : Fin (n + 1) → Bool) :
    List (Fin (n + 1)) → (Fin (n + 1) → ChunkInfo) → Heap → (Fin (n + 1) → ChunkInfo) × Heap × Bool
  | [], pool, heap => (pool, heap, true)
  | i :: is, pool, heap =>
    let slot := { pool i with inUse := false, offset := 0 }
    match heap.malloc size (ok i) with
    | (none, heap) => (Function.update pool i { slot with data := none }, heap, false)
    | (some b, heap) =>
      allocPool size ok is (Function.update pool i { slot with data := some b, size := 0, last := false }) heap

/-- the status a refusal of the user's request callback is translated to -/
def RequestError.status : RequestError → FirmwareStatus
  | .none => .success
  | .downloadDenied => .downloadDenied
  | .downloadInvalidSize => .downloadInvalidSize
  | .downloadInvalidVersion => .downloadInvalidVersion
  | .downloadUnauthenticated => .downloadUnauthenticated
  | .downloadNotAllowed => .downloadNotAllowed
  | .downloadConfiguredToReject => .downloadConfiguredToReject
  | .encounteredError => .encounteredError

/-- the size the pool is set up with: a target that gives none gets CCIMP_MSG_MAX_RECV_PACKET_SIZE -/
def Target.withChunkSize (t : Target) : Target :=
  if t.chunkSize = 0 then { t with chunkSize := msgMaxRecvPacketSize } else t

/-- the tail of `ccapi_process_firmware_update_request`: pool and counters of an accepted download -/
def setUpDownload (r : StartReq) (ok : Fin (n + 1) → Bool) (s : Svc n) : Svc n × Answer FirmwareStatus :=
  let t := (s.target r.targetNumber).withChunkSize
  let (pool, heap, done) := allocPool t.chunkSize ok (List.finRange (n + 1)) s.chunkPool s.heap
  let s := { s with target := Function.update s.target r.targetNumber t, chunkPool := pool, heap := heap }
  if done then
    ({ s with chunkPoolHead := 0, chunkPoolTail := 0, current := r.targetNumber, totalSize := u32 r.codeSize,
              tailOffset := 0, headOffset := 0, ccfsmBytesProcessed := 0, dataError := .none,
              updateStarted := true }, ⟨.cont, some .success⟩)
  else (s, ⟨.cont, some .encounteredError⟩)

/-- the checks of `ccapi_process_firmware_update_request` between the started test and the pool set-up: the status they
refuse the download with, if any -/
def refusal (r : StartReq) (request : RequestError) (s : Svc n) : Option FirmwareStatus :=
  let t := s.target r.targetNumber
  if t.maximumSize ≠ 0 ∧ t.maximumSize < r.codeSize then some .downloadInvalidSize
  else if s.hasRequestCb ∧ request ≠ .none then some request.status
  else none

/-- `ccapi_process_firmware_update_request`; request is what the user's request callback answers -/
def processFirmwareUpdateRequest (r : StartReq) (request : RequestError) (ok : Fin (n + 1) → Bool) (s : Svc n) :
    Svc n × Answer FirmwareStatus :=
  if r.targetNumber < s.targetCount then
    if s.updateStarted then (freeAndStopService s, ⟨.cont, some .encounteredError⟩)
    else
      match refusal r request s with
      | some status => (s, ⟨.cont, some status⟩)
      | none => setUpDownload r ok s
  else (s, ⟨.error, none⟩)

/-- the `memcpy` of the data callback into the head slot -/
def copyToHead (d : DataReq) (off len : ℕ) (s : Svc n) : Svc n :=
  match (s.chunkPool s.chunkPoolHead).data with
  | some b => { s with heap := s.heap.write b off len fun i => d.data (s.ccfsmBytesProcessed + i) }
  | none => s

/-- the head slot is handed over to the thread and the head moves on -/
def queueHead (nextHeadOffset : ℕ) (lastChunk : Bool) (s : Svc n) : Svc n :=
  let slot := s.chunkPool s.chunkPoolHead
  { s with
    chunkPool := Function.update s.chunkPool s.chunkPoolHead
      { slot with offset := s.headOffset, size := u32Sub nextHeadOffset s.headOffset, last := lastChunk, inUse := true }
    headOffset := nextHeadOffset
    chunkPoolHead := Ring.next s.chunkPoolHead }

/-- the accepted part of `ccapi_process_firmware_update_data`, for a chunk size that is not 0; the last component says
whether the thread's lock is released -/
def consumeData (chunkSize : ℕ) (d : DataReq) (s : Svc n) : Svc n × Answer FirmwareStatus × Bool :=
  let roomInChunk := chunkSize - s.tailOffset % chunkSize
  let sourceBytesRemaining := sizeSub d.bytesUsed s.ccfsmBytesProcessed
  let bytesToCopy := if sourceBytesRemaining > roomInChunk then roomInChunk else sourceBytesRemaining
  let nextHeadOffset := u32 (s.tailOffset + bytesToCopy)
  let lastChunk := decide (nextHeadOffset = s.totalSize)
  if s.tailOffset ≥ s.headOffset then
    let full := lastChunk || decide (nextHeadOffset % chunkSize = 0)
    let s1 := copyToHead d (s.tailOffset % chunkSize) bytesToCopy s
    let s2 := if full then queueHead nextHeadOffset lastChunk s1 else s1
    let processed := u32 (s.ccfsmBytesProcessed + bytesToCopy)
    if processed = d.bytesUsed then
      ({ s2 with ccfsmBytesProcessed := 0, tailOffset := nextHeadOffset }, ⟨.cont, some .success⟩, full)
    else
      ({ s2 with ccfsmBytesProcessed := processed, tailOffset := nextHeadOffset }, ⟨.busy, some .success⟩, full)
  else ({ s with tailOffset := nextHeadOffset }, ⟨.cont, some .success⟩, false)

/-- `ccapi_process_firmware_update_data`; `none` when it divides by zero -/
def processFirmwareUpdateData (d : DataReq) (s : Svc n) : Option (Svc n × Answer FirmwareStatus × Bool) :=
  if d.targetNumber ≠ s.current then some (s, ⟨.error, none⟩, false)
  else if ¬ s.updateStarted then some (s, ⟨.error, none⟩, false)
  else if s.dataError = .invalidData then some (s, ⟨.cont, some .invalidData⟩, false)
  else if d.offset ≠ u32Sub s.tailOffset s.ccfsmBytesProcessed then some (s, ⟨.cont, some .invalidOffset⟩, false)
  else if (s.chunkPool s.chunkPoolHead).inUse then some (s, ⟨.busy, some .success⟩, false)
  else
    let chunkSize := u32 (s.target d.targetNumber).chunkSize
    if chunkSize = 0 then none else some (consumeData chunkSize d s)

/-- some chunk is queued or being processed -/
def poolInUse (s : Svc n) : Bool := (List.finRange (n + 1)).any fun i => (s.chunkPool i).inUse

/-- `ccapi_process_firmware_update_complete` -/
def processFirmwareUpdateComplete (target : ℕ) (s : Svc n) : Svc n × Answer CompleteStatus :=
  if target ≠ s.current then (s, ⟨.error, none⟩)
  else if ¬ s.updateStarted then (s, ⟨.error, none⟩)
  else if poolInUse s then (s, ⟨.busy, some .downloadSuccess⟩)
  else
    let status := if s.headOffset ≠ s.totalSize then .downloadNotComplete else .downloadSuccess
    (freeAndStopService s, ⟨if s.dataError = .invalidData then .error else .cont, some status⟩)

/-- the statuses `ccapi_process_firmware_update_abort` has a cancel reason for; at the others its assert on
`connector_firmware_status_user_abort` fails -/
def FirmwareStatus.hasCancelReason : FirmwareStatus → Bool
  | .userAbort | .deviceError | .invalidOffset | .invalidData | .hardwareError => true
  | _ => false

/-- `ccapi_process_firmware_update_abort` -/
def processFirmwareUpdateAbort (target : ℕ) (status : FirmwareStatus) (s : Svc n) : Svc n × CallbackStatus :=
  if target ≠ s.current then (s, .error)
  else if ¬ s.updateStarted then (s, .error)
  else if poolInUse s then (s, .busy)
  else if s.hasCancelCb ∧ ¬ status.hasCancelReason then (s, .error)
  else (freeAndStopService s, .cont)

/-! ## The machine -/

/-- where `ccapi_firmware_thread` stands; i is the slot `chunk_pool_tail` points to -/
inductive Pc (n : ℕ) where
  | waiting
  | woken (i : Fin (n + 1))
  | calling (i : Fin (n + 1))
  | returned (i : Fin (n + 1))
  | cleared
deriving DecidableEq, Repr

/-- a chunk with the bytes its buffer holds, and the download it belongs to -/
structure Chunk where
  download : ℕ
  target : ℕ
  offset : ℕ
  data : List UInt8
  size : ℕ
  last : Bool
deriving DecidableEq, Repr

structure St (n : ℕ) where
  svc : Svc n
  /-- `thread.firmware->lock` -/
  lock : ℕ
  pc : Pc n
  crashed : Bool
  /-- downloads accepted so far -/
  download : ℕ
  /-- chunks handed to the thread, in order -/
  queued : List Chunk
  /-- calls of the user's data callback, in order -/
  calls : List Chunk

inductive Op (n : ℕ) where
  | start (r : StartReq) (request : RequestError) (ok : Fin (n + 1) → Bool)
  | data (d : DataReq)
  | complete (target : ℕ)
  | abort (target : ℕ) (status : FirmwareStatus)
  | wake
  | call
  | ret (e : DataError)
  | clearInUse
  | advanceTail

/-- what slot i would pass to the user's data callback -/
def slotChunk (s : St n) (i : Fin (n + 1)) : Chunk :=
  let c := s.svc.chunkPool i
  { download := s.download, target := s.svc.current, offset := c.offset,
    data := match c.data with
      | some b => s.svc.heap.read b c.size
      | none => [],
    size := c.size, last := c.last }

/-- the callbacks, run by the connector's thread -/
def stepStart (r : StartReq) (request : RequestError) (ok : Fin (n + 1) → Bool) (s : St n) : St n :=
  let svc := (processFirmwareUpdateRequest r request ok s.svc).1
  { s with svc := svc,
           download := if svc.updateStarted ∧ ¬ s.svc.updateStarted then s.download + 1 else s.download }

def stepData (d : DataReq) (s : St n) : St n :=
  match processFirmwareUpdateData d s.svc with
  | none => { s with crashed := true }
  | some (svc, _, released) =>
    let t := { s with svc := svc }
    if released then
      { t with lock := s.lock + 1, queued := s.queued ++ [slotChunk t s.svc.chunkPoolHead] }
    else t

/-- one iteration of the loop of `ccapi_firmware_thread`, step by step -/
def stepThread (s : St n) : Op n → St n
  | .wake =>
    match s.pc, s.lock with
    | .waiting, l + 1 => { s with lock := l, pc := .woken s.svc.chunkPoolTail }
    | _, _ => s
  | .call =>
    match s.pc with
    | .woken i => { s with pc := .calling i, calls := s.calls ++ [slotChunk s i] }
    | _ => s
  | .ret e =>
    match s.pc with
    | .calling i =>
      { s with pc := .returned i, svc := { s.svc with dataError := if e = .invalidData then e else s.svc.dataError } }
    | _ => s
  | .clearInUse =>
    match s.pc with
    | .returned i =>
      { s with pc := .cleared, svc := { s.svc with
          chunkPool := Function.update s.svc.chunkPool i { s.svc.chunkPool i with inUse := false } } }
    | _ => s
  | .advanceTail =>
    match s.pc with
    | .cleared => { s with pc := .waiting, svc := { s.svc with chunkPoolTail := Ring.next s.svc.chunkPoolTail } }
    | _ => s
  | _ => s

def step (s : St n) (o : Op n) : St n :=
  if s.crashed then s
  else
    match o with
    | .start r request ok => stepStart r request ok s
    | .data d => stepData d s
    | .complete target => { s with svc := (processFirmwareUpdateComplete target s.svc).1 }
    | .abort target status => { s with svc := (processFirmwareUpdateAbort target status s.svc).1 }
    | o => stepThread s o

/-- after `ccxapi_start`: no update in progress, no chunk allocated, the thread waiting on its lock. The rest of
`processing` is unset memory. -/
structure Init (s : St n) : Prop where
  idle : s.svc.updateStarted = false
  noData : ∀ i, (s.svc.chunkPool i).data = none
  pc : s.pc = .waiting
  lock : s.lock = 0
  running : s.crashed = false
  history : s.queued = [] ∧ s.calls = []
  ledger : ∀ b ∈ s.svc.heap.frees, b < s.svc.heap.next

/-- the service as `ccxapi_start` leaves it over zeroed memory, with targets as configured -/
def Svc.fresh (n targetCount : ℕ) (target : ℕ → Target) : Svc n :=
  { targetCount := targetCount, target := target, hasRequestCb := false, hasCancelCb := false, updateStarted := false,
    current := 0, totalSize := 0, chunkPool := fun _ => ⟨false, 0, none, 0, false⟩, chunkPoolHead := 0,
    chunkPoolTail := 0, headOffset := 0, tailOffset := 0, ccfsmBytesProcessed := 0, dataError := .none,
    heap := Heap.empty }

def St.fresh (n targetCount : ℕ) (target : ℕ → Target) : St n :=
  { svc := Svc.fresh n targetCount target, lock := 0, pc := .waiting, crashed := false, download := 0, queued := [],
    calls := [] }

theorem init_fresh (n targetCount : ℕ) (target : ℕ → Target) : Init (St.fresh n targetCount target) :=
  ⟨rfl, fun _ => rfl, rfl, rfl, rfl, ⟨rfl, rfl⟩, fun _ hb => by simp [St.fresh, Svc.fresh, Heap.empty] at hb⟩

end CcApi.Firmware
