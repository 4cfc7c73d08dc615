/-
Data-point collections (`ccapi_datapoints.c`, and `ccapi_data_points_handler` of `ccapi.c`).

A collection is a linked list of streams; each stream is a library record and the connector's record it points at, and the
connector's record holds the points, newest first. The library list is a Lean list; the `next` field of each connector
record stands in `next`, by the block of the record, since the connector follows it. A released block keeps its contents,
and a stream of the list that was released says so (`released`): an operation that reads it has no defined outcome and
answers the block it read.

Premises: one call at a time. A lock call answers OK or not (busy and error are told apart nowhere but in
`ccapi_lock_destroy`). The arguments of `ccapi_dp_add` match the stream's format. `isalnum` is that of the C locale. The
hint a reply carries goes to a record of the caller's that no operation reads; it is left out.
-/
import CcApi.Lib.Chain
import CcApi.Lib.Ledger
import CcApi.Platform

namespace CcApi.Datapoints

open Lib

/-! ## Data -/

/-- `ccapi_dp_error_t` -/
inductive DpError where
  | none
  | invalidArgument
  | invalidStreamId
  | invalidFormat
  | invalidUnits
  | invalidForwardTo
  | insufficientMemory
  | lockFailed
  | ccapiNotRunning
  | transportNotStarted
  | initiateActionFailed
  | responseBadRequest
  | responseUnavailable
  | responseCloudError
  | statusCancel
  | statusTimeout
  | statusInvalidData
  | statusSessionError
deriving DecidableEq, Repr

/-- `ccapi_dp_argument_t` -/
inductive DpArgument where
  | dataInt32
  | dataInt64
  | dataFloat
  | dataDouble
  | dataString
  | dataJson
  | dataGeojson
  | tsEpoch
  | tsEpochMs
  | tsIso8601
  | location
  | quality
  | invalid
deriving DecidableEq, Repr

/-- `connector_data_point_type_t` -/
inductive PointType where
  | integer
  | long
  | float
  | double
  | string
  | binary
  | json
  | geojson
deriving DecidableEq, Repr

/-- `ccapi_location_t`: the three floats, by their bits -/
structure Location where
  latitude : BitVec 32
  longitude : BitVec 32
  elevation : BitVec 32
deriving DecidableEq, Repr

/-- `data.element.native`, a union, by the member stored last -/
inductive Native where
  | int (v : BitVec 32)
  | long (v : BitVec 64)
  | float (bits : BitVec 32)
  | double (bits : BitVec 64)
  | string (text : Option Str)
deriving DecidableEq, Repr

/-- `time.source` and the member of the union `time.value` that goes with it -/
inductive Time where
  | cloud
  | epochFractional (seconds milliseconds : BitVec 32)
  | epochWhole (milliseconds : BitVec 64)
  | iso8601 (text : Option Str)
deriving DecidableEq, Repr

/-- what a `connector_data_point_t` says; `none` is a location or quality to ignore -/
structure PointValue where
  native : Native
  time : Time
  location : Option Location
  quality : Option (BitVec 32)
deriving DecidableEq, Repr

/-- a `connector_data_point_t` and the blocks of its two strings -/
structure Point where
  block : ℕ
  stringBlock : Option ℕ
  iso8601Block : Option ℕ
  value : PointValue
deriving DecidableEq, Repr

/-- `connector_data_stream_t` without its `next`, and the blocks of its strings; no `type` is `INVALID_ENUM` -/
structure CcfsmStream where
  block : ℕ
  streamIdBlock : ℕ
  unitBlock : Option ℕ
  forwardToBlock : Option ℕ
  streamId : Str
  unit : Option Str
  forwardTo : Option Str
  type : Option PointType
  point : List Point
deriving DecidableEq, Repr

/-- `ccapi_dp_data_stream_t` -/
structure DataStream where
  block : ℕ
  argumentsBlock : ℕ
  arguments : List DpArgument
  ccfsm : CcfsmStream
  released : Bool
deriving DecidableEq, Repr

/-- `ccapi_dp_collection_t`, and the memory it lives in -/
structure Collection where
  block : ℕ
  list : List DataStream
  dpCount : ℕ
  destroyed : Bool
  /-- `next` of the connector's stream records, by block -/
  next : ℕ → Option ℕ
  ledger : Ledger

/-! ## Checks of the arguments -/

def isalnum (c : UInt8) : Bool := (48 ≤ c ∧ c ≤ 57) ∨ (65 ≤ c ∧ c ≤ 90) ∨ (97 ≤ c ∧ c ≤ 122)

def validSpecial : Str := ascii "_-./[]!+:"

def space : UInt8 := 32

def underscore : UInt8 := 95

/-- `valid_stream_id` -/
def validStreamId : Option Str → Bool
  | none => false
  | some [] => false
  | some s => s.all fun c => isalnum c || validSpecial.contains c

/-- `valid_format_string` -/
def validFormatString : Option Str → Bool
  | none => false
  | some [] => false
  | some (c :: s) => c ≠ space && (c :: s).all fun c => isalnum c || c = space || c = underscore

/-- `valid_units` -/
def validUnits : Option Str → Bool
  | none => false
  | some [] => false
  | some _ => true

/-- `key_arg_map` -/
def keyArgMap : List (Str × DpArgument) :=
  [(ascii "int32", .dataInt32), (ascii "int64", .dataInt64), (ascii "float", .dataFloat), (ascii "double", .dataDouble),
    (ascii "string", .dataString), (ascii "json", .dataJson), (ascii "geojson", .dataGeojson),
    (ascii "ts_epoch", .tsEpoch), (ascii "ts_epoch_ms", .tsEpochMs), (ascii "ts_iso", .tsIso8601),
    (ascii "loc", .location), (ascii "qual", .quality)]

/-- which of the four flags of `valid_arg_list` an argument sets -/
inductive ArgKind where
  | type
  | timestamp
  | location
  | quality
deriving DecidableEq, Repr

def DpArgument.kind : DpArgument → Option ArgKind
  | .dataInt32 | .dataInt64 | .dataFloat | .dataDouble | .dataString | .dataJson | .dataGeojson => some .type
  | .tsEpoch | .tsEpochMs | .tsIso8601 => some .timestamp
  | .location => some .location
  | .quality => some .quality
  | .invalid => none

/-- the loop of `valid_arg_list`; found are the kinds whose flag is set -/
def validArgLoop : List DpArgument → List ArgKind → Bool
  | [], _ => true
  | a :: args, found =>
    match a.kind with
    | none => false
    | some k => if k ∈ found then false else validArgLoop args (k :: found)

/-- `valid_arg_list` -/
def validArgList (args : List DpArgument) : Bool :=
  if args.length < 1 ∨ args.length > 4 then false else validArgLoop args []

/-- `get_next_keyword`: the keyword at the start of the string, and what is left behind its separator -/
def getNextKeyword : Str → Option (Str × Str)
  | [] => none
  | c :: s => some ((c :: s).takeWhile (· ≠ space), ((c :: s).dropWhile (· ≠ space)).drop 1)

/-- the keywords `get_next_keyword` returns one after the other -/
def keywords : Str → List Str
  | [] => []
  | c :: s =>
    if c = space then [] :: keywords s
    else
      match keywords s with
      | w :: ws => (c :: w) :: ws
      | [] => [[c]]

theorem keywords_eq (s : Str) :
    keywords s = match getNextKeyword s with
      | none => []
      | some (w, rest) => w :: keywords rest := by
  induction s with
  | nil => rfl
  | cons c s ih =>
    by_cases hc : c = space
    · simp [keywords, getNextKeyword, hc]
    · cases s with
      | nil => simp [keywords, getNextKeyword, hc]
      | cons d s =>
        rw [keywords, if_neg hc, ih]
        simp [getNextKeyword, hc]

def lookupKeyword (w : Str) : DpArgument := ((keyArgMap.find? fun e => e.1 = w).map (·.2)).getD .invalid

/-- the loop of `get_arg_list_from_format_string`; `none` for more than four keywords -/
def collectArgs : List Str → List DpArgument → Option (List DpArgument)
  | [], args => some args
  | w :: ws, args => if args.length > 3 then none else collectArgs ws (args ++ [lookupKeyword w])

/-- the argument list a format string stands for -/
def argList (format : Str) : Except DpError (List DpArgument) :=
  match collectArgs (keywords format) [] with
  | none => .error .invalidFormat
  | some args => if validArgList args then .ok args else .error .invalidFormat

/-- `get_arg_list_from_format_string`, with the block of the list -/
def getArgListFromFormatString (format : Str) (copyOk listOk : Bool) (l : Ledger) :
    Except DpError (ℕ × List DpArgument) × Ledger :=
  match l.acquire copyOk with
  | (none, l) => (.error .insufficientMemory, l)
  | (some copy, l) =>
    match argList format with
    | .error e => (.error e, l.release copy)
    | .ok args =>
      match l.acquire listOk with
      | (none, l) => (.error .insufficientMemory, l.release copy)
      | (some b, l) => (.ok (b, args), l.release copy)

/-- `get_data_stream_type_from_arg_list` -/
def getDataStreamTypeFromArgList (args : List DpArgument) : Option PointType :=
  args.findSome? fun
    | .dataInt32 => some .integer
    | .dataInt64 => some .long
    | .dataFloat => some .float
    | .dataDouble => some .double
    | .dataString => some .string
    | .dataJson => some .json
    | .dataGeojson => some .geojson
    | _ => none

end CcApi.Datapoints
