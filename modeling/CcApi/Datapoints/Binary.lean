/-
Binary data points (`ccapi_datapoints_binary.c`): sends to a path made of the stream's identifier.

A call allocates the path, makes one send of data or of a file with it, translates the send's error and frees the path. The
connector reads the path as long as it has the send's action.

- `sendable_translated`: every error that such a send can return has a translation of its own.
- `step_wrapped`: what a step of the call keeps; `run_wrapped`: what a run keeps.
- `binary_returned`: what a call returns tells what its send returned, the branch for errors that should never happen is
  never taken, and the path outlives the action unless the send has lost a lock.
-/
import CcApi.Send.Verdict

namespace CcApi.Datapoints.Binary

open Lib Lib.Runs Send

/-! ## The functions -/

/-- `ccapi_dp_b_error_t` -/
inductive DpBError where
  | none
  | ccapiNotRunning
  | transportNotStarted
  | filesystemNotSupported
  | invalidStreamId
  | invalidData
  | invalidLocalPath
  | notAFile
  | accessingFile
  | invalidHintPointer
  | insufficientMemory
  | lockFailed
  | initiateActionFailed
  | statusCancel
  | statusTimeout
  | statusSessionError
  | responseBadRequest
  | responseUnavailable
  | responseCloudError
deriving DecidableEq, Repr

/-- what `add_dp_prefix_sufix` writes -/
def dpPath (streamId : Str) : Str := ascii "DataPoint/" ++ streamId ++ ascii ".bin"

/-- `add_dp_prefix_sufix`; granted says whether the allocation succeeds -/
def addDpPrefixSufix (granted : Bool) (streamId : Option Str) : Except DpBError Str :=
  match streamId with
  | none | some [] => .error .invalidStreamId
  | some id => if granted then .ok (dpPath id) else .error .insufficientMemory

/-- `send_data_error_to_dp_binary_error`; `none` is INVALID_ENUM -/
def sendDataErrorToDpBinaryError : TxError → Option DpBError
  | .none => some .none
  | .ccapiNotRunning => some .ccapiNotRunning
  | .transportNotStarted => some .transportNotStarted
  | .invalidData => some .invalidData
  | .invalidLocalPath => some .invalidLocalPath
  | .notAFile => some .notAFile
  | .accessingFile => some .accessingFile
  | .invalidHintPointer => some .invalidHintPointer
  | .insufficientMemory => some .insufficientMemory
  | .lockFailed => some .lockFailed
  | .initiateActionFailed => some .initiateActionFailed
  | .statusCancel => some .statusCancel
  | .statusTimeout => some .statusTimeout
  | .statusSessionError => some .statusSessionError
  | .responseBadRequest => some .responseBadRequest
  | .responseUnavailable => some .responseUnavailable
  | .responseCloudError => some .responseCloudError
  -- these errors should never happen; the assertion of this branch always holds
  | .invalidCloudPath | .invalidContentType => some .responseCloudError
  | .transportNotValid | .invalidArgument | .responseCancel | .responseTimeout | .responseError | .statusInvalidData => none

/-- the arguments of a call, and what its send finds in `ccapi_data_t` -/
structure BinaryCall where
  file : Bool
  running : Bool
  transportStarted : Option Bool
  /-- `none` for NULL -/
  streamId : Option Str
  data : Option Str
  localPath : Option Str
  hint : Option StringInfo
  withReply : Bool
deriving DecidableEq, Repr

/-- the call of `ccxapi_send_data` or `ccxapi_send_file`, with or without reply -/
def BinaryCall.send (c : BinaryCall) (path : Str) : Call :=
  { service := if c.file then .file else .data
    running := c.running
    transportStarted := c.transportStarted
    cloudPath := some path
    contentType := none
    data := c.data
    localPath := c.localPath
    hint := c.hint
    collection := false
    withReply := c.withReply }

/-! ## A call step by step -/

inductive Stage where
  | prefixing
  | sending
  | returned
deriving DecidableEq, Repr

/-- the memory of the path -/
inductive Path where
  | unallocated
  | live (path : Str)
  | freed
deriving DecidableEq, Repr

structure BinarySend where
  call : BinaryCall
  stage : Stage
  path : Path
  txn : Option Transaction
  /-- `none` for INVALID_ENUM -/
  result : Option DpBError

def BinarySend.begin (call : BinaryCall) : BinarySend :=
  { call := call, stage := .prefixing, path := .unallocated, txn := none, result := none }

inductive Op where
  /-- the path -/
  | enter (granted : Bool)
  /-- a step of the send, or of the connector -/
  | send (o : Send.Op)
  /-- behind the send -/
  | leave
deriving DecidableEq, Repr

/-- the connector's steps go on behind a send that has lost a lock -/
def BinarySend.moves (b : BinarySend) : Send.Op → Bool
  | .api _ => b.stage = .sending
  | _ => true

def BinarySend.step (b : BinarySend) : Op → BinarySend
  | .enter granted =>
    if b.stage = .prefixing then
      match addDpPrefixSufix granted b.call.streamId with
      | .error e => { b with stage := .returned, result := some e }
      | .ok path => { b with stage := .sending, path := .live path, txn := some (Transaction.begin (b.call.send path)) }
    else b
  | .send o => if b.moves o then { b with txn := b.txn.map fun t => t.step o } else b
  | .leave =>
    match b.stage, b.txn with
    | .sending, some t =>
      if t.stage = .returned then
        { b with stage := .returned, path := .freed, result := sendDataErrorToDpBinaryError t.error }
      else b
    | _, _ => b

/-- the step that an operation makes in the send -/
def BinarySend.sends (b : BinarySend) : Op → Option Send.Op
  | .send o => if b.moves o ∧ b.txn.isSome then some o else none
  | _ => none

/-- the send's steps of a run -/
def BinarySend.sendOps (b : BinarySend) (ops : List Op) : List Send.Op :=
  (steps BinarySend.step b ops).filterMap fun p => p.1.sends p.2

/-! ## The errors of the send -/

/-- what a send with such a path can return -/
def sendErrors : List TxError :=
  [.none, .ccapiNotRunning, .transportNotStarted, .invalidData, .invalidLocalPath, .invalidHintPointer,
    .insufficientMemory, .lockFailed, .initiateActionFailed, .notAFile, .accessingFile, .responseBadRequest,
    .responseUnavailable, .responseCloudError, .statusCancel, .statusTimeout, .statusSessionError]

/-- **The translation loses nothing.** -/
theorem sendable_translated {e : TxError} (he : e ∈ sendErrors) :
    (sendDataErrorToDpBinaryError e).isSome = true ∧
      ∀ e' ∈ sendErrors, sendDataErrorToDpBinaryError e' = sendDataErrorToDpBinaryError e → e' = e := by
  revert e
  decide

theorem dpPath_not_blank (id : Str) : blank (some (dpPath id)) = false := by
  simp [blank, dpPath, ascii]

theorem orElse_mem {a b : TxError} (ha : a ∈ sendErrors) (hb : b ∈ sendErrors) : a.orElse b ∈ sendErrors := by
  cases a <;> first | exact hb | exact ha

/-- the checks of the send do not fail at its path nor at its content type -/
theorem checkargs_mem (c : BinaryCall) (id : Str) : (c.send (dpPath id)).checkargs ∈ sendErrors := by
  have hcommon : checkargsSendCommon (c.send (dpPath id)) ∈ sendErrors := by
    simp only [checkargsSendCommon, BinaryCall.send, dpPath_not_blank, Bool.false_eq_true, if_false]
    split_ifs <;> decide
  have hreply : checkargsSendWithReply (c.send (dpPath id)) ∈ sendErrors := by
    unfold checkargsSendWithReply
    split
    · split_ifs <;> decide
    · decide
  cases hfile : c.file with
  | true =>
    have hlocal : checkargsSendFile (c.send (dpPath id)) ∈ sendErrors := by
      unfold checkargsSendFile
      split_ifs <;> decide
    have hservice : (c.send (dpPath id)).service = .file := by simp [BinaryCall.send, hfile]
    rw [Call.checkargs, hservice]
    exact orElse_mem hcommon (orElse_mem hlocal hreply)
  | false =>
    have hdata : checkargsSendData (c.send (dpPath id)) ∈ sendErrors := by
      unfold checkargsSendData
      split_ifs <;> decide
    have hservice : (c.send (dpPath id)).service = .data := by simp [BinaryCall.send, hfile]
    rw [Call.checkargs, hservice]
    exact orElse_mem hcommon (orElse_mem hdata hreply)

theorem localErrors_mem (c : BinaryCall) (id : Str) {e : TxError} (he : e ∈ (c.send (dpPath id)).localErrors) :
    e ∈ sendErrors := by
  unfold Call.localErrors at he
  split_ifs at he
  · rw [List.mem_singleton.1 he]
    exact checkargs_mem c id
  · revert e
    decide
  · revert e
    decide

theorem send_service (c : BinaryCall) (path : Str) : (c.send path).service = .data ∨ (c.send path).service = .file := by
  cases h : c.file <;> simp [BinaryCall.send, h]

/-- the last status is one of a callback -/
theorem lastStatus_mem {heard : List Callback} {e : TxError} (h : lastStatus heard = some e) :
    ∃ cb ∈ heard, cb.status = some e := by
  obtain ⟨cb, hcb, hst⟩ := List.mem_filterMap.1 (List.mem_of_getLast? h)
  exact ⟨cb, hcb, hst⟩

theorem response_mem (r : Send.Response) : r.txError ∈ sendErrors := by
  cases r <;> decide

/-- the verdict on a send of data or of a file -/
theorem verdict_mem {call : Call} (hservice : call.service = .data ∨ call.service = .file) {heard : List Callback}
    (hheard : ∀ cb ∈ heard, cb.concerns call.service = true) : call.verdict heard ∈ sendErrors := by
  unfold Call.verdict
  split_ifs with hread hreply
  · unfold Call.readError
    split_ifs <;> decide
  · have hne : call.service ≠ .dataPoints := by rcases hservice with h | h <;> rw [h] <;> decide
    unfold Call.replyError
    cases lastResponse heard with
    | none =>
      rw [if_neg hne]
      decide
    | some r => exact response_mem r
  · cases hlast : lastStatus heard with
    | none => decide
    | some e =>
      obtain ⟨cb, hcb, hstatus⟩ := lastStatus_mem hlast
      have hconcerns := hheard cb hcb
      cases cb with
      | sendDataStatus st =>
        obtain rfl : st.txError = e := by simpa [Callback.status] using hstatus
        cases st <;> decide
      | pingResponse st => rcases hservice with h | h <;> simp [Callback.concerns, h] at hconcerns
      | dataPointStatus st => rcases hservice with h | h <;> simp [Callback.concerns, h] at hconcerns
      | _ => simp [Callback.status] at hstatus

theorem ending_mem {c : BinaryCall} {id : Str} {action : Action} {heard : List Callback} {lost : Bool} {e : TxError}
    (h : Ending (c.send (dpPath id)) action heard lost e)
    (hheard : ∀ cb ∈ heard, cb.concerns (c.send (dpPath id)).service = true) : e ∈ sendErrors := by
  rcases h with ⟨-, -, hlocal⟩ | ⟨-, -, rfl⟩ | ⟨-, -, rfl | rfl⟩
  · exact localErrors_mem c id hlocal
  · exact verdict_mem (send_service c (dpPath id)) hheard
  · decide
  · decide

/-! ## Runs -/

/-- the callbacks of a send are those for its service -/
theorem heard_concerns (t : Transaction) (l : List Send.Op) : ∀ cb ∈ t.heard l, cb.concerns t.call.service = true := by
  induction l generalizing t with
  | nil => simp [Transaction.heard]
  | cons o l ih =>
    intro cb hcb
    simp only [Transaction.heard, steps_cons, List.mem_filterMap, List.mem_cons] at hcb
    obtain ⟨p, rfl | hp, hhears⟩ := hcb
    · cases o with
      | callback c =>
        simp only [Transaction.hears] at hhears
        split_ifs at hhears with hc
        obtain rfl : c = cb := Option.some.inj hhears
        exact hc.2
      | _ => cases hhears
    · have hmem : cb ∈ (t.step o).heard l := List.mem_filterMap.2 ⟨p, hp, hhears⟩
      rw [← step_call t o]
      exact ih (t.step o) cb hmem

/-- the send of a call after its steps l -/
def BinarySend.txnAfter (b : BinarySend) (id : Str) (l : List Send.Op) : Transaction :=
  run Transaction.step (Transaction.begin (b.call.send (dpPath id))) l

/-- what holds of a call after the steps l of its send -/
def Wrapped (b : BinarySend) (l : List Send.Op) : Prop :=
  match b.stage with
  | .prefixing => b.path = .unallocated ∧ b.txn = none ∧ l = []
  | .sending =>
    ∃ id, b.call.streamId = some id ∧ b.path = .live (dpPath id) ∧ b.txn = some (b.txnAfter id l)
  | .returned =>
    (b.path = .unallocated ∧ b.txn = none ∧
      ((blank b.call.streamId = true ∧ b.result = some .invalidStreamId) ∨
        (blank b.call.streamId = false ∧ b.result = some .insufficientMemory))) ∨
    ∃ id, b.call.streamId = some id ∧ b.path = .freed ∧ b.txn = some (b.txnAfter id l) ∧
      (b.txnAfter id l).stage = .returned ∧ b.result = sendDataErrorToDpBinaryError (b.txnAfter id l).error

theorem begin_wrapped (call : BinaryCall) : Wrapped (BinarySend.begin call) [] := ⟨rfl, rfl, rfl⟩

/-- the connector's steps leave the calling thread where it is -/
theorem connector_step (t : Transaction) {o : Send.Op} (h : ∀ a, o ≠ .api a) :
    (t.step o).stage = t.stage ∧ (t.step o).error = t.error := by
  cases o with
  | api a => exact absurd rfl (h a)
  | callback c =>
    simp only [Transaction.step, Transaction.callback]
    split <;> exact ⟨rfl, rfl⟩
  | statusRelease r =>
    simp only [Transaction.step, Transaction.statusRelease]
    split <;> exact ⟨rfl, rfl⟩

/-- the path -/
theorem enter_wrapped {b : BinarySend} {l : List Send.Op} (h : Wrapped b l) (granted : Bool) :
    Wrapped (b.step (.enter granted)) l := by
  by_cases hs : b.stage = .prefixing
  · obtain ⟨hpath, htxn, rfl⟩ : b.path = .unallocated ∧ b.txn = none ∧ l = [] := by simpa only [Wrapped, hs] using h
    simp only [BinarySend.step, if_pos hs]
    cases hid : b.call.streamId with
    | none => exact .inl ⟨hpath, htxn, .inl ⟨congrArg blank hid, rfl⟩⟩
    | some id =>
      cases id with
      | nil => exact .inl ⟨hpath, htxn, .inl ⟨congrArg blank hid, rfl⟩⟩
      | cons x id =>
        cases granted with
        | false => exact .inl ⟨hpath, htxn, .inr ⟨congrArg blank hid, rfl⟩⟩
        | true => exact ⟨x :: id, hid, rfl, rfl⟩
  · simpa only [BinarySend.step, if_neg hs] using h

/-- a step of the send -/
theorem send_wrapped {b : BinarySend} {l : List Send.Op} (h : Wrapped b l) (o : Send.Op) :
    Wrapped (b.step (.send o)) (l ++ (b.sends (.send o)).toList) := by
  cases htxn : b.txn with
  | none =>
    have hsame : b.step (.send o) = b := by
      simp only [BinarySend.step, htxn]
      split_ifs
      · rw [Option.map_none, ← htxn]
      · rfl
    rw [hsame]
    simpa [BinarySend.sends, htxn] using h
  | some t =>
    by_cases hmoves : b.moves o = true
    · have hsends : b.sends (.send o) = some o := by simp [BinarySend.sends, hmoves, htxn]
      have hafter (id : Str) : b.txnAfter id (l ++ [o]) = (b.txnAfter id l).step o := by simp [BinarySend.txnAfter]
      rw [hsends, Option.toList_some]
      simp only [BinarySend.step, if_pos hmoves]
      cases hs : b.stage with
      | prefixing =>
        obtain ⟨-, hnone, -⟩ : b.path = .unallocated ∧ b.txn = none ∧ l = [] := by simpa only [Wrapped, hs] using h
        rw [hnone] at htxn
        cases htxn
      | sending =>
        obtain ⟨id, hid, hpath, hrun⟩ : ∃ id, b.call.streamId = some id ∧ b.path = .live (dpPath id) ∧
          b.txn = some (b.txnAfter id l) := by simpa only [Wrapped, hs] using h
        simp only [Wrapped]
        refine ⟨id, hid, hpath, ?_⟩
        rw [hrun, Option.map_some, ← hafter]
        rfl
      | returned =>
        have hconnector : ∀ a, o ≠ .api a := by
          rintro a rfl
          simp [BinarySend.moves, hs] at hmoves
        have hreturned := h
        simp only [Wrapped, hs] at hreturned
        rcases hreturned with ⟨-, hnone, -⟩ | ⟨id, hid, hpath, hrun, hstage, hresult⟩
        · rw [hnone] at htxn
          cases htxn
        · obtain ⟨hkeep, herror⟩ := connector_step (b.txnAfter id l) hconnector
          simp only [Wrapped]
          refine .inr ⟨id, hid, hpath, ?_, ?_, ?_⟩
          · rw [hrun, Option.map_some, ← hafter]
            rfl
          · exact (congrArg Transaction.stage (hafter id)).trans (hkeep.trans hstage)
          · exact hresult.trans (congrArg sendDataErrorToDpBinaryError
              (herror.symm.trans (congrArg Transaction.error (hafter id)).symm))
    · have hsame : b.step (.send o) = b := by simp [BinarySend.step, hmoves]
      rw [hsame]
      simpa [BinarySend.sends, hmoves] using h

/-- behind the send -/
theorem leave_wrapped {b : BinarySend} {l : List Send.Op} (h : Wrapped b l) : Wrapped (b.step .leave) l := by
  cases hs : b.stage with
  | sending =>
    obtain ⟨id, hid, hpath, hrun⟩ : ∃ id, b.call.streamId = some id ∧ b.path = .live (dpPath id) ∧
      b.txn = some (b.txnAfter id l) := by simpa only [Wrapped, hs] using h
    simp only [BinarySend.step, hs, hrun]
    split_ifs with hreturned
    · exact .inr ⟨id, hid, rfl, rfl, hreturned, rfl⟩
    · exact h
  | prefixing => simpa only [BinarySend.step, hs] using h
  | returned => simpa only [BinarySend.step, hs] using h

/-- **One step.** -/
theorem step_wrapped {b : BinarySend} {l : List Send.Op} (h : Wrapped b l) (o : Op) :
    Wrapped (b.step o) (l ++ (b.sends o).toList) := by
  cases o with
  | enter granted => simpa [BinarySend.sends] using enter_wrapped h granted
  | send o => exact send_wrapped h o
  | leave => simpa [BinarySend.sends] using leave_wrapped h

/-- **A run.** -/
theorem run_wrapped {b : BinarySend} {l : List Send.Op} (h : Wrapped b l) (ops : List Op) :
    Wrapped (run BinarySend.step b ops) (l ++ b.sendOps ops) := by
  induction ops generalizing b l with
  | nil => simpa [BinarySend.sendOps] using h
  | cons o ops ih =>
    have hops : b.sendOps (o :: ops) = (b.sends o).toList ++ (b.step o).sendOps ops := by
      simp only [BinarySend.sendOps, steps_cons, List.filterMap_cons]
      cases b.sends o <;> rfl
    rw [run_cons, hops, ← List.append_assoc]
    exact ih (step_wrapped h o)

theorem step_binaryCall (b : BinarySend) (o : Op) : (b.step o).call = b.call := by
  cases o with
  | enter granted =>
    simp only [BinarySend.step]
    repeat' split
    all_goals rfl
  | send o =>
    simp only [BinarySend.step]
    split <;> rfl
  | leave =>
    simp only [BinarySend.step]
    repeat' split
    all_goals rfl

/-- the send behind a path keeps what is told of a send -/
theorem txnAfter_told (b : BinarySend) (id : Str) (l : List Send.Op) :
    Told (b.txnAfter id l) ((Transaction.begin (b.call.send (dpPath id))).heard l)
      ((Transaction.begin (b.call.send (dpPath id))).lost l) := by
  have hrun := run_told (begin_told (b.call.send (dpPath id))) l
  rwa [List.nil_append, Bool.false_or] at hrun

theorem txnAfter_call (b : BinarySend) (id : Str) (l : List Send.Op) :
    (b.txnAfter id l).call = b.call.send (dpPath id) :=
  run_inv_all (I := fun t : Transaction => t.call = b.call.send (dpPath id)) (fun t o h => (step_call t o).trans h) rfl l

/-! ## Main results -/

/-- a call that has returned without a send -/
def Unsent (b : BinarySend) : Prop :=
  b.path = .unallocated ∧ b.txn = none ∧
    ((blank b.call.streamId = true ∧ b.result = some .invalidStreamId) ∨
      (blank b.call.streamId = false ∧ b.result = some .insufficientMemory))

/-- a call that has returned behind the send to the path of stream id, with the send's steps l -/
structure Sent (b : BinarySend) (id : Str) (l : List Send.Op) : Prop where
  streamId : b.call.streamId = some id
  path : b.path = .freed
  ending : Ending (b.call.send (dpPath id)) (b.txnAfter id l).action
    ((Transaction.begin (b.call.send (dpPath id))).heard l) ((Transaction.begin (b.call.send (dpPath id))).lost l)
    (b.txnAfter id l).error
  /-- neither INVALID_ENUM nor one of the errors that should never happen -/
  valid : b.result.isSome = true ∧ (b.txnAfter id l).error ∈ sendErrors
  /-- the result tells the error of the send -/
  told : ∀ e ∈ sendErrors, sendDataErrorToDpBinaryError e = b.result ↔ e = (b.txnAfter id l).error

/-- the path is there as long as the connector has the action of a send that has lost no lock -/
def Outlives (b : BinarySend) (l : List Send.Op) : Prop :=
  ∀ id t, b.call.streamId = some id → b.txn = some t → t.action.owed = true →
    (Transaction.begin (b.call.send (dpPath id))).lost l = false → b.path = .live (dpPath id)

theorem Wrapped.outlives {b : BinarySend} {l : List Send.Op} (h : Wrapped b l) : Outlives b l := by
  intro id t hid htxn howed hlost
  cases hs : b.stage with
  | prefixing =>
    obtain ⟨-, hnone, -⟩ : b.path = .unallocated ∧ b.txn = none ∧ l = [] := by simpa only [Wrapped, hs] using h
    rw [hnone] at htxn
    cases htxn
  | sending =>
    obtain ⟨id', hid', hpath, -⟩ : ∃ id, b.call.streamId = some id ∧ b.path = .live (dpPath id) ∧
      b.txn = some (b.txnAfter id l) := by simpa only [Wrapped, hs] using h
    obtain rfl : id = id' := Option.some.inj (hid.symm.trans hid')
    exact hpath
  | returned =>
    simp only [Wrapped, hs] at h
    rcases h with ⟨-, hnone, -⟩ | ⟨id', hid', -, hrun, hstage, -⟩
    · rw [hnone] at htxn
      cases htxn
    · obtain rfl : id = id' := Option.some.inj (hid.symm.trans hid')
      obtain rfl : b.txnAfter id l = t := Option.some.inj (hrun.symm.trans htxn)
      -- a returned send owes nothing unless it has lost a lock
      rcases (txnAfter_told b id l).owed_stage howed with hwait | ⟨-, hlost', -⟩
      · rw [hstage] at hwait
        cases hwait
      · rw [hlost] at hlost'
        cases hlost'

theorem Wrapped.returned {b : BinarySend} {l : List Send.Op} (h : Wrapped b l) (hs : b.stage = .returned) :
    Unsent b ∨ ∃ id, b.txn = some (b.txnAfter id l) ∧ Sent b id l := by
  simp only [Wrapped, hs] at h
  rcases h with h | ⟨id, hid, hpath, hrun, hstage, hresult⟩
  · exact .inl h
  · have htold := txnAfter_told b id l
    have hend := htold.ended (by rw [hstage]; rfl)
    rw [txnAfter_call] at hend
    have hmem := ending_mem hend (heard_concerns (Transaction.begin (b.call.send (dpPath id))) l)
    obtain ⟨hsome, hinj⟩ := sendable_translated hmem
    refine .inr ⟨id, hrun, hid, hpath, hend, ⟨by rw [hresult]; exact hsome, hmem⟩, fun e he => ?_⟩
    rw [hresult]
    exact ⟨hinj e he, fun heq => by rw [heq]⟩

/-- **Binary data points.** For every call, any answers to its allocation and to the steps of its send, and the connector's
callbacks in any order: a call that has returned either had no stream, or no memory for the path, and made no send; or it has
freed the path, and its result is the translation of what the send returned and tells which error that was, never INVALID_ENUM
and never for an error of the path. All along the path is there while the connector has the action, unless the send has lost
a lock. -/
theorem binary_returned (call : BinaryCall) (ops : List Op) :
    let b := run BinarySend.step (BinarySend.begin call) ops
    let l := (BinarySend.begin call).sendOps ops
    b.call = call ∧ (b.stage = .returned → Unsent b ∨ ∃ id, b.txn = some (b.txnAfter id l) ∧ Sent b id l) ∧
      Outlives b l := by
  intro b l
  have hcall : b.call = call :=
    run_inv_all (I := fun b : BinarySend => b.call = call) (fun b o h => (step_binaryCall b o).trans h) rfl ops
  have hrun : Wrapped b l := by
    have h := run_wrapped (begin_wrapped call) ops
    rwa [List.nil_append] at h
  exact ⟨hcall, hrun.returned, hrun.outlives⟩

/-- one byte for stream "s", whose send ends with a timeout -/
def timedOut : BinarySend :=
  run BinarySend.step
    (BinarySend.begin
      { file := false, running := true, transportStarted := some true, streamId := some (ascii "s"), data := some [1],
        localPath := none, hint := none, withReply := false })
    ([Op.enter true] ++ List.replicate 7 (Op.send (.api granted)) ++
      [Op.send (.callback (.sendDataRequest 1 (readOf 1))), Op.send (.callback (.sendDataStatus .timeout)),
        Op.send (.statusRelease .ok)] ++ List.replicate 6 (Op.send (.api granted)) ++ [Op.leave])

example : timedOut.stage = .returned ∧ timedOut.path = .freed ∧ timedOut.result = some .statusTimeout := by decide

end CcApi.Datapoints.Binary
