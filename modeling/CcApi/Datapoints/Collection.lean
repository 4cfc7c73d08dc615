/-
The operations on a data-point collection (`ccapi_datapoints.c`), one definition per function of the source.

An operation answers, or it reads a block that was released and has no defined outcome: then the result is `.error` with
the block. The platform's answers (allocations, lock calls) and, for a send, the connector's are arguments. `step` is one
operation on a collection, `replies` what a caller sees of a sequence of operations.
-/
import CcApi.Datapoints.Model

namespace CcApi.Datapoints

open Lib

/-! ## What the operations answer -/

/-- a stream as the connector is handed it -/
structure StreamView where
  streamId : Str
  unit : Option Str
  forwardTo : Option Str
  type : Option PointType
  point : List PointValue
deriving DecidableEq, Repr

def CcfsmStream.view (s : CcfsmStream) : StreamView :=
  ⟨s.streamId, s.unit, s.forwardTo, s.type, s.point.map (·.value)⟩

/-- the error, the count asked for, the streams handed to the connector (`none` stands for a record that is no stream of
the collection), and the values given to `ccapi_free` that are no blocks -/
structure Answer where
  error : DpError
  count : Option ℕ := none
  handed : Option (List (Option StreamView)) := none
  wild : List ℕ := []
deriving DecidableEq, Repr

abbrev Outcome := Except ℕ (Answer × Collection)

def answer (e : DpError) (c : Collection) : Outcome := .ok ({ error := e }, c)

/-- the first released stream of a list -/
def firstReleased (l : List DataStream) : Option ℕ := (l.find? (·.released)).map (·.block)

/-- a loop over the whole list, then f -/
def overList (l : List DataStream) (f : Outcome) : Outcome :=
  match firstReleased l with
  | some b => .error b
  | none => f

/-- the lock call that ends an operation -/
def finish (release : Bool) (e : DpError) : DpError := if release then e else .lockFailed

/-! ## Creating and releasing -/

/-- `ccapi_dp_create_collection` -/
def createCollection (collectionOk lockOk : Bool) (l : Ledger) (next : ℕ → Option ℕ) :
    DpError × Option Collection × Ledger :=
  match l.acquire collectionOk with
  | (none, l) => (.insufficientMemory, none, l)
  | (some b, l) =>
    if lockOk then
      (.none, some { block := b, list := [], dpCount := 0, destroyed := false, next := next, ledger := l }, l)
    else (.lockFailed, none, l.release b)

/-- a number read as a pointer: NULL, or a value that is no block. The first list is the block, the second the value. -/
def asPointer (n : ℕ) : List ℕ × List ℕ := ([], if n = 0 then [] else [n])

/-- the pointer `native.string_value` reads from the union -/
def Point.stringValue (p : Point) : List ℕ × List ℕ :=
  match p.value.native with
  | .int v => asPointer v.toNat
  | .long v => asPointer v.toNat
  | .float v => asPointer v.toNat
  | .double v => asPointer v.toNat
  | .string _ => (p.stringBlock.toList, [])

/-- the pointer `time.value.iso8601_string` reads from the union -/
def Point.iso8601String (p : Point) : List ℕ × List ℕ :=
  match p.value.time with
  | .cloud => ([], [])
  | .epochFractional s ms => asPointer (s.toNat + 2 ^ 32 * ms.toNat)
  | .epochWhole ms => asPointer ms.toNat
  | .iso8601 _ => (p.iso8601Block.toList, [])

/-- `free_data_point`: a string is released for type string only, a time for source ISO 8601 only -/
def freeDataPoint (p : Point) (type : Option PointType) : List ℕ :=
  (if type = some .string then p.stringBlock.toList else []) ++
    (match p.value.time with
      | .iso8601 _ => p.iso8601Block.toList
      | _ => []) ++ [p.block]

/-- `free_data_points_in_data_stream` -/
def freeDataPointsInDataStream (s : CcfsmStream) : List ℕ := s.point.flatMap fun p => freeDataPoint p s.type

/-- `free_ccfsm_stream` -/
def freeCcfsmStream (s : CcfsmStream) : List ℕ :=
  [s.streamIdBlock] ++ s.unitBlock.toList ++ s.forwardToBlock.toList ++ [s.block]

/-- `free_collection`, one stream -/
def freeStream (s : DataStream) : List ℕ :=
  freeDataPointsInDataStream s.ccfsm ++ freeCcfsmStream s.ccfsm ++ [s.argumentsBlock, s.block]

/-- `free_ccapi_data_stream`, behind the points -/
def freeCcapiDataStream (s : DataStream) : List ℕ :=
  freeDataPointsInDataStream s.ccfsm ++ [s.argumentsBlock] ++ freeCcfsmStream s.ccfsm ++ [s.block]

/-- `free_collection`: neither the list head nor the count is touched -/
def freeCollection (c : Collection) : Collection :=
  { c with
    list := c.list.map fun s => { s with released := true }
    ledger := c.ledger.releaseAll (c.list.flatMap freeStream) }

/-- `ccapi_dp_clear_collection` -/
def clearCollection (acquire release : Bool) (c : Collection) : Outcome :=
  if acquire then overList c.list (answer (finish release .none) (freeCollection c)) else answer .lockFailed c

/-- what `ccapi_lock_destroy` answers -/
inductive LockDestroy where
  | ok
  | error
  | busy
deriving DecidableEq, Repr

/-- `ccapi_dp_destroy_collection` -/
def destroyCollection (acquire release : Bool) (destroy : LockDestroy) (c : Collection) : Outcome :=
  match clearCollection acquire release c with
  | .error b => .error b
  | .ok (a, c) =>
    if a.error ≠ .none then .ok (a, c)
    else
      match destroy with
      | .ok => answer .none { c with destroyed := true, ledger := c.ledger.release c.block }
      | .error => answer .lockFailed c
      | .busy => answer .none c

/-! ## Streams -/

/-- `find_stream_id_in_collection` -/
def findStreamIdInCollection (id : Str) : List DataStream → Except ℕ (Option DataStream)
  | [] => .ok none
  | s :: l =>
    if s.released then .error s.block
    else if id = s.ccfsm.streamId then .ok (some s)
    else findStreamIdInCollection id l

/-- the arguments of `ccapi_dp_add_data_stream_to_collection_extra`; `none` is NULL -/
structure StreamArgs where
  streamId : Option Str
  format : Option Str
  units : Option Str
  forwardTo : Option Str
deriving DecidableEq, Repr

/-- what the platform has memory for, one allocation each -/
structure StreamMemory where
  formatCopy : Bool
  argList : Bool
  stream : Bool
  ccfsm : Bool
  streamId : Bool
  unit : Bool
  forwardTo : Bool
deriving DecidableEq, Repr

/-- every allocation succeeds -/
def StreamMemory.full : StreamMemory := ⟨true, true, true, true, true, true, true⟩

/-- `ccapi_strdup` of a string that may be missing: nothing to do, or the block, or (outer `none`) no memory -/
def strdupIf (s : Option Str) (ok : Bool) (l : Ledger) : Option (Option ℕ) × Ledger :=
  match s with
  | none => (some none, l)
  | some _ =>
    match l.acquire ok with
    | (none, l) => (none, l)
    | (some b, l) => (some (some b), l)

/-- the allocations of a new stream, with the releases of the failing exits -/
def createStream (id : Str) (units forwardTo : Option Str) (args : ℕ × List DpArgument) (m : StreamMemory) (l : Ledger) :
    Option DataStream × Ledger :=
  match l.acquire m.stream with
  | (none, l) => (none, l.releaseAll [args.1])
  | (some stream, l) =>
    match l.acquire m.ccfsm with
    | (none, l) => (none, l.releaseAll [args.1, stream])
    | (some ccfsm, l) =>
      match l.acquire m.streamId with
      | (none, l) => (none, l.releaseAll [args.1, stream, ccfsm])
      | (some idBlock, l) =>
        match strdupIf units m.unit l with
        | (none, l) => (none, l.releaseAll [args.1, stream, idBlock, ccfsm])
        | (some unit, l) =>
          match strdupIf forwardTo m.forwardTo l with
          | (none, l) => (none, l.releaseAll ([args.1, stream, idBlock] ++ unit.toList ++ [ccfsm]))
          | (some forward, l) =>
            (some
              { block := stream, argumentsBlock := args.1, arguments := args.2, released := false,
                ccfsm :=
                  { block := ccfsm, streamIdBlock := idBlock, unitBlock := unit, forwardToBlock := forward,
                    streamId := id, unit := units, forwardTo := forwardTo,
                    type := getDataStreamTypeFromArgList args.2, point := [] } }, l)

/-- the checks of `ccapi_dp_add_data_stream_to_collection_extra` before anything is allocated -/
def checkStreamArgs (a : StreamArgs) : DpError :=
  if !validStreamId a.streamId then .invalidStreamId
  else if !validFormatString a.format then .invalidFormat
  else if a.forwardTo ≠ none ∧ !validStreamId a.forwardTo then .invalidForwardTo
  else if a.units ≠ none ∧ !validUnits a.units then .invalidUnits
  else .none

/-- `ccapi_dp_add_data_stream_to_collection_extra` -/
def addDataStreamToCollectionExtra (a : StreamArgs) (m : StreamMemory) (acquire release : Bool) (c : Collection) :
    Outcome :=
  match checkStreamArgs a with
  | .none =>
    let id := a.streamId.getD []
    match getArgListFromFormatString (a.format.getD []) m.formatCopy m.argList c.ledger with
    | (.error e, l) => answer e { c with ledger := l }
    | (.ok args, l) =>
      if !acquire then answer .lockFailed { c with ledger := l.release args.1 }
      else
        match findStreamIdInCollection id c.list with
        | .error b => .error b
        | .ok (some _) => answer (finish release .invalidStreamId) { c with ledger := l.release args.1 }
        | .ok none =>
          match createStream id a.units a.forwardTo args m l with
          | (none, l) => answer (finish release .insufficientMemory) { c with ledger := l }
          | (some s, l) =>
            answer (finish release .none)
              { c with list := s :: c.list, next := Function.update c.next s.ccfsm.block none, ledger := l }
  | e => answer e c

/-- the loop of `ccapi_dp_remove_data_stream_from_collection`: the streams left in the list and the streams released.
Without a previous stream the head pointer is set to NULL. `next` of the released record is still read to go on. -/
def removeLoop (id : Str) (previous : Bool) : List DataStream → List DataStream × List DataStream
  | [] => ([], [])
  | s :: l =>
    let (kept, gone) := removeLoop id true l
    if s.ccfsm.streamId = id then (if previous then kept else [], s :: gone) else (s :: kept, gone)

/-- `ccapi_dp_remove_data_stream_from_collection` -/
def removeDataStreamFromCollection (id : Option Str) (acquire release : Bool) (c : Collection) : Outcome :=
  if !validStreamId id then answer .invalidArgument c
  else if c.list = [] then answer .invalidStreamId c
  else if !acquire then answer .lockFailed c
  else
    overList c.list <|
      let (kept, gone) := removeLoop (id.getD []) false c.list
      let freed := (gone.map fun s => s.ccfsm.point.length).sum
      answer (finish release (if gone = [] then .invalidStreamId else .none))
        { c with
          list := kept
          dpCount := u32Sub c.dpCount freed
          ledger := c.ledger.releaseAll (gone.flatMap freeCcapiDataStream) }

/-! ## Points -/

/-- the variable arguments of `ccapi_dp_add`: for each keyword the value `va_arg` yields -/
structure VaArgs where
  int32 : BitVec 32
  int64 : BitVec 64
  /-- the promoted `float`, cast back -/
  float : BitVec 32
  double : BitVec 64
  string : Str
  epochSeconds : BitVec 32
  epochMilliseconds : BitVec 32
  epochMsec : BitVec 64
  iso8601 : Str
  location : Location
  quality : BitVec 32
deriving DecidableEq, Repr

structure PointMemory where
  point : Bool
  string : Bool
  iso8601 : Bool
deriving DecidableEq, Repr

def PointMemory.full : PointMemory := ⟨true, true, true⟩

/-- the data point before the arguments are stored -/
def newPoint (b : ℕ) : Point := ⟨b, none, none, ⟨.string none, .cloud, none, none⟩⟩

/-- one turn of the loop of `parse_argument_list_and_create_data_point`; false when a string cannot be copied -/
def parseArgument (v : VaArgs) (m : PointMemory) (p : Point) (l : Ledger) : DpArgument → Bool × Point × Ledger
  | .dataInt32 => (true, { p with value := { p.value with native := .int v.int32 } }, l)
  | .dataInt64 => (true, { p with value := { p.value with native := .long v.int64 } }, l)
  | .dataFloat => (true, { p with value := { p.value with native := .float v.float } }, l)
  | .dataDouble => (true, { p with value := { p.value with native := .double v.double } }, l)
  | .dataString | .dataJson | .dataGeojson =>
    match l.acquire m.string with
    | (none, l) => (false, { p with stringBlock := none, value := { p.value with native := .string none } }, l)
    | (some b, l) =>
      (true, { p with stringBlock := some b, value := { p.value with native := .string (some v.string) } }, l)
  | .tsEpoch =>
    (true, { p with value := { p.value with time := .epochFractional v.epochSeconds v.epochMilliseconds } }, l)
  | .tsEpochMs => (true, { p with value := { p.value with time := .epochWhole v.epochMsec } }, l)
  | .tsIso8601 =>
    match l.acquire m.iso8601 with
    | (none, l) => (false, { p with iso8601Block := none, value := { p.value with time := .iso8601 none } }, l)
    | (some b, l) =>
      (true, { p with iso8601Block := some b, value := { p.value with time := .iso8601 (some v.iso8601) } }, l)
  | .location => (true, { p with value := { p.value with location := some v.location } }, l)
  | .quality => (true, { p with value := { p.value with quality := some v.quality } }, l)
  | .invalid => (true, p, l)

def parseArguments (v : VaArgs) (m : PointMemory) (p : Point) (l : Ledger) : List DpArgument → Bool × Point × Ledger
  | [] => (true, p, l)
  | a :: args =>
    match parseArgument v m p l a with
    | (false, p, l) => (false, p, l)
    | (true, p, l) => parseArguments v m p l args

/-- `parse_argument_list_and_create_data_point`: the point, or the releases of the failing exit (`free_ccfsm_data_point`
reads both unions as pointers whatever they hold) -/
def createDataPoint (args : List DpArgument) (v : VaArgs) (m : PointMemory) (l : Ledger) :
    Except (List ℕ) Point × Ledger :=
  match l.acquire m.point with
  | (none, l) => (.error [], l)
  | (some b, l) =>
    match parseArguments v m (newPoint b) l args with
    | (true, p, l) => (.ok p, l)
    | (false, p, l) =>
      (.error (p.stringValue.2 ++ p.iso8601String.2),
        l.releaseAll (p.stringValue.1 ++ p.iso8601String.1 ++ [p.block]))

/-- the stream `find_stream_id_in_collection` returns is changed through its pointer -/
def modifyStream (id : Str) (f : DataStream → DataStream) : List DataStream → List DataStream
  | [] => []
  | s :: l => if id = s.ccfsm.streamId then f s :: l else s :: modifyStream id f l

/-- the points of the connector's record -/
def DataStream.setPoint (point : List Point) (s : DataStream) : DataStream :=
  { s with ccfsm := { s.ccfsm with point := point } }

/-- `ccapi_dp_add` -/
def dpAdd (id : Option Str) (v : VaArgs) (m : PointMemory) (acquire release : Bool) (c : Collection) : Outcome :=
  if !acquire then answer .lockFailed c
  else if !validStreamId id then answer (finish release .invalidStreamId) c
  else
    match findStreamIdInCollection (id.getD []) c.list with
    | .error b => .error b
    | .ok none => answer (finish release .invalidStreamId) c
    | .ok (some s) =>
      match createDataPoint s.arguments v m c.ledger with
      | (.error wild, l) =>
        .ok ({ error := finish release .insufficientMemory, wild := wild }, { c with ledger := l })
      | (.ok p, l) =>
        answer (finish release .none)
          { c with
            list := modifyStream (id.getD []) (fun s => s.setPoint (p :: s.ccfsm.point)) c.list
            dpCount := u32 (c.dpCount + 1)
            ledger := l }

/-- `ccapi_dp_get_collection_points_count`; withCount says whether there is somewhere to put the count -/
def getCollectionPointsCount (withCount : Bool) (c : Collection) : Outcome :=
  if withCount then .ok ({ error := .none, count := some c.dpCount }, c) else answer .invalidArgument c

/-- one stream's turn of `ccapi_dp_remove_older_data_point_from_streams`: the point it releases -/
def olderPoint (s : DataStream) : List ℕ :=
  match s.ccfsm.point with
  | [] => []
  | p :: _ => freeDataPoint p s.ccfsm.type

/-- `ccapi_dp_remove_older_data_point_from_streams`; the lock is not taken -/
def removeOlderDataPointFromStreams (c : Collection) : Outcome :=
  overList c.list <| answer .none
    { c with
      list := c.list.map fun s => s.setPoint s.ccfsm.point.tail
      dpCount := c.list.foldl (fun n s => if s.ccfsm.point = [] then n else u32Sub n 1) c.dpCount
      ledger := c.ledger.releaseAll (c.list.flatMap olderPoint) }

/-! ## Sending -/

/-- the connector's records of a list, in order -/
def ccfsmBlocks (l : List DataStream) : List ℕ := l.map (·.ccfsm.block)

/-- `chain_collection_ccfsm_data_streams` -/
def chainCollectionCcfsmDataStreams (c : Collection) : Collection :=
  { c with next := Chain.relink (ccfsmBlocks c.list) c.next }

/-- `free_data_points_from_collection` -/
def freeDataPointsFromCollection (c : Collection) : Collection :=
  { c with
    list := c.list.map fun s => s.setPoint []
    dpCount := 0
    next := Chain.relink (ccfsmBlocks c.list) c.next
    ledger := c.ledger.releaseAll (c.list.flatMap fun s => freeDataPointsInDataStream s.ccfsm) }

/-- the record at a block, when it is a stream of the collection -/
def streamAt (l : List DataStream) (b : ℕ) : Option StreamView :=
  (l.find? fun s => s.ccfsm.block = b).map (·.ccfsm.view)

/-- what a reader of the connector's chain sees that starts at `ccfsm_request.stream` and takes one step more than the
list has streams -/
def handed (c : Collection) : List (Option StreamView) :=
  (Chain.walk c.next (c.list.length + 1) (ccfsmBlocks c.list).head?).map (streamAt c.list)

/-- `connector_data_point_response_t` -/
inductive Response where
  | success
  | badRequest
  | unavailable
  | cloudError
deriving DecidableEq, Repr

/-- `connector_data_point_status_t` -/
inductive SendStatus where
  | complete
  | cancel
  | timeout
  | invalidData
  | sessionError
deriving DecidableEq, Repr

/-- `ccapi_data_points_handler`, the response callback -/
def Response.error : Response → DpError
  | .success => .none
  | .badRequest => .responseBadRequest
  | .unavailable => .responseUnavailable
  | .cloudError => .responseCloudError

/-- `ccapi_data_points_handler`, the status callback -/
def SendStatus.error : SendStatus → DpError
  | .complete => .none
  | .cancel => .statusCancel
  | .timeout => .statusTimeout
  | .invalidData => .statusInvalidData
  | .sessionError => .statusSessionError

/-- what a send meets: the state of the library, memory, locks, and the connector. `initiate` is whether the answer that
ends the retry loop is `connector_success`; the response callback may not come. -/
structure SendEnv where
  running : Bool
  transportStarted : Bool
  transactionInfo : Bool
  transactionLock : Bool
  acquire : Bool
  initiate : Bool
  acquireTransaction : Bool
  response : Option Response
  status : SendStatus
  release : Bool
deriving DecidableEq, Repr

/-- everything goes well -/
def SendEnv.good : SendEnv := ⟨true, true, true, true, true, true, true, some .success, .complete, true⟩

/-- how a send that reached the connector ends, before the lock is released -/
def SendEnv.verdict (e : SendEnv) : DpError :=
  if !e.initiate then .initiateActionFailed
  else if !e.acquireTransaction then .lockFailed
  else
    let responseError := (e.response.map Response.error).getD .initiateActionFailed
    if responseError ≠ .none then responseError else e.status.error

/-- `send_collection` from the lock of the collection on, with the transaction record at block t -/
def sendLocked (e : SendEnv) (t : ℕ) (c : Collection) : Outcome :=
  overList c.list <|
    let c := chainCollectionCcfsmDataStreams c
    let view := handed c
    let c := if e.verdict = .none then freeDataPointsFromCollection c else c
    .ok ({ error := finish e.release e.verdict, handed := some view }, { c with ledger := c.ledger.release t })

/-- `send_collection` -/
def sendCollection (e : SendEnv) (c : Collection) : Outcome :=
  if c.list = [] then answer .invalidArgument c
  else if !e.running then answer .ccapiNotRunning c
  else if !e.transportStarted then answer .transportNotStarted c
  else
    match c.ledger.acquire e.transactionInfo with
    | (none, l) => answer .insufficientMemory { c with ledger := l }
    | (some t, l) =>
      if !e.transactionLock then answer .lockFailed { c with ledger := l.release t }
      else if !e.acquire then answer .lockFailed { c with ledger := l.release t }
      else sendLocked e t { c with ledger := l }

/-! ## Operations and runs -/

inductive Op where
  /-- any operation called with a NULL collection -/
  | null
  | addStream (a : StreamArgs) (m : StreamMemory) (acquire release : Bool)
  | removeStream (id : Option Str) (acquire release : Bool)
  | addPoint (id : Option Str) (v : VaArgs) (m : PointMemory) (acquire release : Bool)
  | removeOlder
  | count (withCount : Bool)
  | send (e : SendEnv)
  | clear (acquire release : Bool)
  | destroy (acquire release : Bool) (lock : LockDestroy)
deriving DecidableEq, Repr

/-- an operation on a collection that has not been destroyed -/
def perform (c : Collection) : Op → Outcome
  | .null => answer .invalidArgument c
  | .addStream a m acquire release => addDataStreamToCollectionExtra a m acquire release c
  | .removeStream id acquire release => removeDataStreamFromCollection id acquire release c
  | .addPoint id v m acquire release => dpAdd id v m acquire release c
  | .removeOlder => removeOlderDataPointFromStreams c
  | .count withCount => getCollectionPointsCount withCount c
  | .send e => sendCollection e c
  | .clear acquire release => clearCollection acquire release c
  | .destroy acquire release lock => destroyCollection acquire release lock c

/-- an operation on a collection; a destroyed collection's own block is read -/
def operate (c : Collection) (o : Op) : Outcome := if c.destroyed ∧ o ≠ .null then .error c.block else perform c o

/-- the collection after an operation; one without a defined outcome is not followed further -/
def step (c : Collection) (o : Op) : Collection :=
  match operate c o with
  | .ok (_, c') => c'
  | .error _ => c

/-- what the caller sees of a sequence of operations, up to the first one without a defined outcome -/
def replies (c : Collection) : List Op → List (Option Answer)
  | [] => []
  | o :: ops =>
    match operate c o with
    | .ok (a, c') => some a :: replies c' ops
    | .error _ => [none]

/-- the released block a sequence of operations reads first -/
def touches (c : Collection) : List Op → Option ℕ
  | [] => none
  | o :: ops =>
    match operate c o with
    | .ok (_, c') => touches c' ops
    | .error b => some b

/-- a collection `ccapi_dp_create_collection` has just made, in a memory with any contents -/
def newCollection (next : ℕ → Option ℕ) : Collection :=
  { block := 0, list := [], dpCount := 0, destroyed := false, next := next, ledger := ⟨1, []⟩ }

/-- a call of `ccapi_dp_add_data_stream_to_collection` in which nothing fails -/
def Op.plainStream (id format : Str) : Op := .addStream ⟨some id, some format, none, none⟩ .full true true

/-- a call of `ccapi_dp_add` with a number, in which nothing fails -/
def Op.plainPoint (id : Str) (n : BitVec 32) : Op :=
  .addPoint (some id) ⟨n, 0, 0, 0, [], 0, 0, 0, [], ⟨0, 0, 0⟩, 0⟩ .full true true

example (next : ℕ → Option ℕ) :
    createCollection true true Ledger.empty next = (.none, some (newCollection next), ⟨1, []⟩) := rfl

end CcApi.Datapoints
