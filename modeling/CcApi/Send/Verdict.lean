/-
What a send returns (`perform_send`, `perform_send_ping`, `send_collection` against the connector's callbacks).

The calling thread reads its return value from the record that the callbacks have written: `request_error` of a file that
could not be read, `response_error` of the cloud's reply, `status_error` of the end of the action. The callbacks come in any
number and order; a status of the data points that answers busy comes again, and a reply may be missing.

- `Call.verdict`: the return value that the callbacks deserve, said without the record.
- `Reflects`: the record as a summary of the callbacks heard so far; `reflects_apply`: one callback keeps it so.
- `step_told`: what a step keeps; `heard_told`: what a run of all sends keeps.
- `verdict_returned`: a call that has returned was never heard of by the connector and names a local failure, or has heard
  its action's last callback and returns the verdict, or has lost a lock on the way.
- `success_told`: what a call that returns success has heard.

No step is excluded: a wait that is interrupted and a lock that cannot be released belong to the runs.
-/
import CcApi.Send.Streaming

namespace CcApi.Send

open Lib Lib.Runs

/-! ## The verdict of the callbacks -/

/-- the cloud's reply -/
def Callback.response : Callback → Option Response
  | .sendDataResponse r _ | .dataPointResponse r _ => some r
  | _ => none

/-- how the action has ended -/
def Callback.status : Callback → Option TxError
  | .sendDataStatus s => some s.txError
  | .pingResponse s => some s.txError
  | .dataPointStatus s => some s.txError
  | _ => none

/-- the file could not be read for the connector -/
def Callback.failedRead : Callback → Bool
  | .sendDataRequest _ read => read.result ≠ .ok
  | _ => false

/-- the last reply among the callbacks -/
def lastResponse (heard : List Callback) : Option Response := (heard.filterMap Callback.response).getLast?

/-- the last status among the callbacks -/
def lastStatus (heard : List Callback) : Option TxError := (heard.filterMap Callback.status).getLast?

/-- a read of the file that failed -/
def Call.readError (call : Call) (heard : List Callback) : TxError :=
  if call.service = .file ∧ heard.any Callback.failedRead then .accessingFile else .none

/-- what the reply says; a collection that got none was not initiated -/
def Call.replyError (call : Call) (heard : List Callback) : TxError :=
  match lastResponse heard with
  | some r => r.txError
  | none => if call.service = .dataPoints then .initiateActionFailed else .none

/-- the reply counts for the return value -/
def Call.readsReply (call : Call) : Bool :=
  match call.service with
  | .data | .file => call.withReply
  | .ping => false
  | .dataPoints => true

/-- **The verdict**: the file first, then the reply if it counts, then the status. -/
def Call.verdict (call : Call) (heard : List Callback) : TxError :=
  if call.readError heard ≠ .none then call.readError heard
  else if call.readsReply ∧ call.replyError heard ≠ .none then call.replyError heard
  else (lastStatus heard).getD .none

theorem final_iff (c : Callback) : c.final = true ↔ c.status.isSome = true := by
  cases c <;> simp [Callback.final, Callback.status]

theorem lastResponse_concat (heard : List Callback) (c : Callback) :
    lastResponse (heard ++ [c]) = c.response.or (lastResponse heard) := by
  cases h : c.response <;> simp [lastResponse, List.filterMap_append, h]

theorem lastStatus_concat (heard : List Callback) (c : Callback) :
    lastStatus (heard ++ [c]) = c.status.or (lastStatus heard) := by
  cases h : c.status <;> simp [lastStatus, List.filterMap_append, h]

/-- behind the action's last callback there is a status -/
theorem lastStatus_of_final {heard : List Callback} (h : heard.getLast?.any Callback.final = true) :
    (lastStatus heard).isSome = true := by
  obtain ⟨c, hc, hfinal⟩ : ∃ c, heard.getLast? = some c ∧ c.final = true := by simpa [Option.any_eq_true] using h
  obtain ⟨before, rfl⟩ := List.getLast?_eq_some_iff.1 hc
  rw [lastStatus_concat, Option.isSome_or, (final_iff c).1 hfinal, Bool.true_or]

/-! ## The record as a summary -/

/-- the record says of the callbacks what the verdict is made of -/
def Reflects (call : Call) (heard : List Callback) : Context → Prop
  | .send c =>
    (call.service = .data ∨ call.service = .file) ∧ c.sendingFile = decide (call.service = .file) ∧
      c.requestError = call.readError heard ∧ c.responseError = call.replyError heard ∧
      c.statusError = (lastStatus heard).getD .none
  | .ping c => call.service = .ping ∧ c.responseError = (lastStatus heard).getD .none
  | .dataPoints c =>
    call.service = .dataPoints ∧ c.responseError = call.replyError heard ∧ ∀ e ∈ lastStatus heard, c.status = e

/-- a record that no callback has written yet -/
theorem reflects_send {call : Call} {c : SvcSend} (hservice : call.service = .data ∨ call.service = .file)
    (hfile : c.sendingFile = decide (call.service = .file)) (hreq : c.requestError = .none)
    (hresp : c.responseError = .none) (hstatus : c.statusError = .none) : Reflects call [] (.send c) := by
  have hne : call.service ≠ .dataPoints := by rcases hservice with h | h <;> rw [h] <;> decide
  refine ⟨hservice, hfile, ?_, ?_, ?_⟩
  · simpa [Call.readError] using hreq
  · simpa [Call.replyError, lastResponse, hne] using hresp
  · simpa [lastStatus] using hstatus

theorem readError_concat (call : Call) (heard : List Callback) (c : Callback) :
    call.readError (heard ++ [c]) =
      if call.service = .file ∧ c.failedRead = true then .accessingFile else call.readError heard := by
  unfold Call.readError
  by_cases hfile : call.service = .file <;> cases h : c.failedRead <;> simp [hfile, h]

theorem readError_quiet {call : Call} {heard : List Callback} {c : Callback} (hc : c.failedRead = false) :
    call.readError (heard ++ [c]) = call.readError heard := by
  rw [readError_concat, if_neg fun h => by rw [hc] at h; cases h.2]

theorem replyError_concat (call : Call) (heard : List Callback) (c : Callback) :
    call.replyError (heard ++ [c]) =
      match c.response with
      | some r => r.txError
      | none => call.replyError heard := by
  unfold Call.replyError
  rw [lastResponse_concat]
  cases c.response <;> rfl

/-- **One callback.** The handler leaves in the record what the callback adds to the verdict. -/
theorem reflects_apply {call : Call} {heard : List Callback} {ctx : Context} (h : Reflects call heard ctx) {c : Callback}
    (hc : c.concerns call.service = true) : Reflects call (heard ++ [c]) (c.apply ctx) := by
  cases ctx with
  | send s =>
    obtain ⟨hservice, hfile, hreq, hresp, hstatus⟩ := h
    have hread := readError_concat call heard c
    have hreply := replyError_concat call heard c
    have hlast := lastStatus_concat heard c
    cases c with
    | sendDataRequest n read =>
      by_cases hbad : call.service = .file ∧ read.result ≠ .ok
      · have happly : Callback.apply (.sendDataRequest n read) (.send s) = .send { s with requestError := .accessingFile } := by
          simp [Callback.apply, processSendDataRequest, hfile, hbad.1, hbad.2]
        rw [happly]
        refine ⟨hservice, hfile, ?_, hreply ▸ hresp, hlast ▸ hstatus⟩
        rw [hread, if_pos ⟨hbad.1, by simpa [Callback.failedRead] using hbad.2⟩]
      · have hgood : ¬ (s.sendingFile = true ∧ read.result ≠ .ok) := by simpa [hfile] using hbad
        have happly : ∃ s', Callback.apply (.sendDataRequest n read) (.send s) = .send s' ∧ s'.sendingFile = s.sendingFile ∧
            s'.requestError = s.requestError ∧ s'.responseError = s.responseError ∧ s'.statusError = s.statusError := by
          simp only [Callback.apply, processSendDataRequest, if_neg hgood]
          exact ⟨_, rfl, rfl, rfl, rfl, rfl⟩
        obtain ⟨s', heq, hf, hq, hr, hs⟩ := happly
        rw [heq]
        refine ⟨hservice, hf.trans hfile, ?_, hr.trans (hreply ▸ hresp), hs.trans (hlast ▸ hstatus)⟩
        rw [hread, if_neg fun h => hbad ⟨h.1, by simpa [Callback.failedRead] using h.2⟩]
        exact hq.trans hreq
    | sendDataLength =>
      exact ⟨hservice, hfile, hreq.trans (readError_quiet rfl).symm, hresp.trans hreply.symm, by rw [hlast]; exact hstatus⟩
    | sendDataResponse r hint =>
      exact ⟨hservice, hfile, hreq.trans (readError_quiet rfl).symm, hreply.symm, by rw [hlast]; exact hstatus⟩
    | sendDataStatus st =>
      exact ⟨hservice, hfile, hreq.trans (readError_quiet rfl).symm, hresp.trans hreply.symm, by rw [hlast]; rfl⟩
    | _ => rcases hservice with hs | hs <;> simp [Callback.concerns, hs] at hc
  | ping p =>
    obtain ⟨hservice, hresp⟩ := h
    cases c with
    | pingResponse st => exact ⟨hservice, by rw [lastStatus_concat]; rfl⟩
    | _ => simp [Callback.concerns, hservice] at hc
  | dataPoints d =>
    obtain ⟨hservice, hresp, hstatus⟩ := h
    have hreply := replyError_concat call heard c
    have hlast := lastStatus_concat heard c
    cases c with
    | dataPointResponse r hint => exact ⟨hservice, hreply.symm, by rw [hlast]; exact hstatus⟩
    | dataPointStatus st =>
      refine ⟨hservice, hreply ▸ hresp, ?_⟩
      rw [hlast]
      rintro e he
      exact Option.some.inj he
    | _ => simp [Callback.concerns, hservice] at hc

/-- **The return value.** What a woken call reads from its record is the verdict. -/
theorem reflects_result {call : Call} {heard : List Callback} {ctx : Context} (h : Reflects call heard ctx)
    (hstatus : (lastStatus heard).isSome = true) : ctx.result call.withReply = call.verdict heard := by
  cases ctx with
  | send s =>
    obtain ⟨hservice, -, hreq, hresp, hst⟩ := h
    have hne : call.service ≠ .dataPoints := by rcases hservice with h | h <;> rw [h] <;> decide
    have hreads : call.readsReply = call.withReply := by rcases hservice with h | h <;> simp [Call.readsReply, h]
    simp only [Context.result, Call.verdict, hreq, hresp, hst, hreads]
  | ping p =>
    obtain ⟨hservice, hresp⟩ := h
    simp [Context.result, Call.verdict, Call.readError, Call.readsReply, hservice, hresp]
  | dataPoints d =>
    obtain ⟨hservice, hresp, hst⟩ := h
    obtain ⟨e, he⟩ := Option.isSome_iff_exists.1 hstatus
    have hread : call.readError heard = .none := by simp [Call.readError, hservice]
    have hreads : call.readsReply = true := by simp [Call.readsReply, hservice]
    simp only [Context.result, Call.verdict, hread, hresp, hst e he, he, hreads, ne_eq, not_true_eq_false, if_false,
      true_and, Option.getD_some]

/-! ## One send -/

/-- the callback that a step brings -/
def Transaction.hears (t : Transaction) : Op → Option Callback
  | .callback c => if t.action = .accepted ∧ c.concerns t.call.service then some c else none
  | _ => none

/-- a lock operation of the calling thread fails behind the connector's acceptance -/
def Transaction.losesLock (t : Transaction) : Op → Bool
  | .api a =>
    t.action ≠ .none &&
      match t.stage with
      | .initiateRelease _ => a.status ≠ .ok
      | .wait => a.lockAcquire ≠ .ok
      | .collectionRelease => t.collectionLocked && a.status ≠ .ok
      | _ => false
  | _ => false

/-- the callbacks of a run, in order -/
def Transaction.heard (t : Transaction) (ops : List Op) : List Callback :=
  (steps Transaction.step t ops).filterMap fun p => p.1.hears p.2

/-- somewhere in the run the calling thread loses a lock -/
def Transaction.lost (t : Transaction) (ops : List Op) : Bool :=
  (steps Transaction.step t ops).any fun p => p.1.losesLock p.2

/-- the errors of a call that the connector does not hear of -/
def Call.localErrors (call : Call) : List TxError :=
  if call.checkargs ≠ .none then [call.checkargs]
  else
    [.insufficientMemory, .lockFailed, .initiateActionFailed] ++
      if call.service = .file then [.notAFile, .accessingFile] else []

/-- how a send ends with error e -/
def Ending (call : Call) (action : Action) (heard : List Callback) (lost : Bool) (e : TxError) : Prop :=
  (action = .none ∧ heard = [] ∧ e ∈ call.localErrors) ∨
    (action = .finished ∧ heard.getLast?.any Callback.final = true ∧ e = call.verdict heard) ∨
      (action ≠ .none ∧ lost = true ∧ (e = .initiateActionFailed ∨ e = .lockFailed))

/-! ### The invariant -/

/-- on the way to the wait, or in it -/
def Stage.checked : Stage → Bool
  | .malloc => true
  | s => s.recorded

/-- behind the wait -/
def Stage.ended : Stage → Bool
  | .lockDestroy | .fileClose | .free | .collectionRelease | .returned => true
  | _ => false

/-- what the record is at each stage -/
def Stage.Record (call : Call) (heard : List Callback) (b : Block) : Stage → Prop
  | .lockCreate => ∃ m, b = .live (Context.fresh m call.service)
  | .fileStatus | .fileOpen =>
    call.service = .file ∧
      ∃ c : SvcSend, b = .live (.send c) ∧ c.requestError = .none ∧ c.responseError = .none ∧ c.statusError = .none
  | .collectionAcquire | .initiateAcquire | .initiate | .initiateRelease _ | .wait =>
    ∃ c, b = .live c ∧ Reflects call heard c
  | _ => True

/-- behind the wait nothing is asked of the record -/
theorem Stage.ended_behind {s : Stage} (h : s.ended = true) :
    s.checked = false ∧ s.early = false ∧ s.waiting = false ∧ ∀ call heard b, s.Record call heard b := by
  cases s <;> first | exact ⟨rfl, rfl, rfl, fun _ _ _ => trivial⟩ | cases h

theorem Stage.early_not_waiting {s : Stage} (h : s.early = true) : s.waiting = false := by
  cases s <;> simp_all [Stage.early, Stage.waiting]

theorem Stage.front_not_ended {s : Stage} (h : s.early = true ∨ s.waiting = true) : s.ended = false := by
  cases s <;> simp_all [Stage.early, Stage.waiting, Stage.ended]

/-- what holds of a send after the callbacks `heard` -/
structure Told (t : Transaction) (heard : List Callback) (lost : Bool) : Prop where
  record : t.stage.Record t.call heard t.context
  checked : t.stage.checked = true → t.call.checkargs = .none
  early : t.stage.early = true → t.action = .none
  waiting : t.stage.waiting = true → t.action ≠ .none
  unheard : t.action = .none → heard = []
  final : t.action = .finishing ∨ t.action = .finished → heard.getLast?.any Callback.final = true
  posted : t.posted = true → t.action = .finished
  locked : t.collectionLocked = true → t.call.checkargs = .none
  ended : t.stage.ended = true → Ending t.call t.action heard lost t.error

theorem begin_told (call : Call) : Told (Transaction.begin call) [] false := by
  constructor <;> simp [Transaction.begin, Stage.Record, Stage.checked, Stage.recorded, Stage.waiting, Stage.ended]

section Told

variable {t t' : Transaction} {heard : List Callback} {lost : Bool}

/-- what a step keeps of a send when it touches neither the action nor the locks -/
structure Kept (t t' : Transaction) : Prop where
  call : t'.call = t.call
  action : t'.action = t.action
  posted : t'.posted = true → t.posted = true
  locked : t'.collectionLocked = true → t.collectionLocked = true ∨ t.call.checkargs = .none

/-- a step that keeps the action, to a stage in front of the end -/
theorem Told.move (h : Told t heard lost) (hkept : Kept t t') (hcheck : t.call.checkargs = .none)
    (hrecord : t'.stage.Record t.call heard t'.context)
    (hplace : (t'.stage.early = true ∧ t.action = .none) ∨ (t'.stage.waiting = true ∧ t.action ≠ .none)) :
    Told t' heard lost where
  record := by rw [hkept.call]; exact hrecord
  checked _ := hkept.call ▸ hcheck
  early he := by
    rcases hplace with ⟨-, hnone⟩ | ⟨hw, -⟩
    · exact hkept.action.trans hnone
    · rw [Stage.early_not_waiting he] at hw
      cases hw
  waiting hw := by
    rcases hplace with ⟨he, -⟩ | ⟨-, hne⟩
    · rw [Stage.early_not_waiting he] at hw
      cases hw
    · exact hkept.action ▸ hne
  unheard hn := h.unheard (hkept.action ▸ hn)
  final hf := h.final (hkept.action ▸ hf)
  posted hp := hkept.action.trans (h.posted (hkept.posted hp))
  locked _ := hkept.call ▸ hcheck
  ended he := by
    rw [Stage.front_not_ended (hplace.imp And.left And.left)] at he
    cases he

/-- a step that keeps the action, to a stage behind the wait -/
theorem Told.finish {lost' : Bool} (h : Told t heard lost) (hkept : Kept t t') (hended : t'.stage.ended = true)
    (hend : Ending t.call t.action heard lost' t'.error) : Told t' heard lost' where
  record := (Stage.ended_behind hended).2.2.2 _ _ _
  checked hc := by rw [(Stage.ended_behind hended).1] at hc; cases hc
  early he := by rw [(Stage.ended_behind hended).2.1] at he; cases he
  waiting hw := by rw [(Stage.ended_behind hended).2.2.1] at hw; cases hw
  unheard hn := h.unheard (hkept.action ▸ hn)
  final hf := h.final (hkept.action ▸ hf)
  posted hp := hkept.action.trans (h.posted (hkept.posted hp))
  locked hl := by
    rw [hkept.call]
    exact (hkept.locked hl).elim h.locked id
  ended _ := by rw [hkept.call, hkept.action]; exact hend

theorem kept_fail (e : TxError) (t : Transaction) : Kept t (t.fail e) := ⟨rfl, rfl, id, Or.inl⟩

/-- a failure in front of the connector's acceptance -/
theorem Told.fail (h : Told t heard lost) (hnone : t.action = .none) {e : TxError} (he : e ∈ t.call.localErrors) :
    Told (t.fail e) heard lost :=
  h.finish (kept_fail e t) rfl (.inl ⟨hnone, h.unheard hnone, he⟩)

/-- a lock that is lost behind the connector's acceptance -/
theorem Told.lose (h : Told t heard lost) (haction : t.action ≠ .none) {e : TxError}
    (he : e = .initiateActionFailed ∨ e = .lockFailed) : Told (t.fail e) heard true :=
  h.finish (kept_fail e t) rfl (.inr (.inr ⟨haction, rfl, he⟩))

/-! ### The calling thread -/

theorem mem_localErrors {call : Call} (h : call.checkargs = .none) {e : TxError}
    (he : e = .insufficientMemory ∨ e = .lockFailed ∨ e = .initiateActionFailed) : e ∈ call.localErrors := by
  simp only [Call.localErrors, h, ne_eq, not_true_eq_false, if_false]
  rcases he with rfl | rfl | rfl <;> simp

theorem mem_localErrors_file {call : Call} (h : call.checkargs = .none) (hfile : call.service = .file) {e : TxError}
    (he : e = .notAFile ∨ e = .accessingFile) : e ∈ call.localErrors := by
  simp only [Call.localErrors, h, hfile, ne_eq, not_true_eq_false, if_false]
  rcases he with rfl | rfl <;> simp

/-- the checks of the arguments and the allocation of the record -/
theorem start_told (h : Told t heard lost) (hs : t.stage = .checkargs ∨ t.stage = .malloc) (a : Answer) :
    Told (t.api a) heard lost := by
  have hnone : t.action = .none := h.early (by rcases hs with hs | hs <;> rw [hs] <;> rfl)
  rcases hs with hs | hs
  · simp only [Transaction.api, hs]
    split
    · rename_i hcheck
      exact h.move ⟨rfl, rfl, id, Or.inl⟩ hcheck trivial (.inl ⟨rfl, hnone⟩)
    · rename_i hcheck
      refine h.fail hnone ?_
      rw [Call.localErrors, if_pos fun he => hcheck he]
      exact List.mem_singleton_self _
  · have hcheck : t.call.checkargs = .none := h.checked (by rw [hs]; rfl)
    simp only [Transaction.api, hs]
    split_ifs
    · exact h.move ⟨rfl, rfl, id, Or.inl⟩ hcheck ⟨a.memory, rfl⟩ (.inl ⟨rfl, hnone⟩)
    · exact h.fail hnone (mem_localErrors hcheck (.inl rfl))

/-- the creation of the lock, and what follows it -/
theorem lockCreate_told (h : Told t heard lost) (hs : t.stage = .lockCreate) (a : Answer) :
    Told (t.api a) heard lost := by
  have hnone : t.action = .none := h.early (by rw [hs]; rfl)
  have hcheck : t.call.checkargs = .none := h.checked (by rw [hs]; rfl)
  have hheard : heard = [] := h.unheard hnone
  obtain ⟨m, hm⟩ : ∃ m, t.context = .live (Context.fresh m t.call.service) := by simpa [hs, Stage.Record] using h.record
  simp only [Transaction.api, hs]
  split_ifs with hok
  · refine h.move ⟨rfl, rfl, id, Or.inl⟩ hcheck ?_ (.inl ⟨by cases t.call.service <;> rfl, hnone⟩)
    rw [hheard, hm]
    cases hservice : t.call.service with
    | data =>
      refine ⟨_, rfl, ?_⟩
      simp only [Context.fresh, Context.locked, hservice, if_true]
      exact reflects_send (.inl hservice) (by simp [hservice]) rfl rfl rfl
    | file =>
      refine ⟨hservice, { m.send with sendLock := true, requestError := .none, responseError := .none, statusError := .none }, ?_, rfl, rfl, rfl⟩
      simp [Block.update, Context.fresh, Context.locked, hservice]
    | ping => exact ⟨_, rfl, hservice, rfl⟩
    | dataPoints =>
      refine ⟨_, rfl, hservice, ?_, fun e he => by cases he⟩
      simp [Call.replyError, lastResponse, hservice]
  · exact h.finish ⟨rfl, rfl, id, Or.inl⟩ rfl (.inl ⟨hnone, hheard, mem_localErrors hcheck (.inr (.inl rfl))⟩)

/-- what the record is at a known stage -/
theorem Told.at_stage (h : Told t heard lost) {s : Stage} (hs : t.stage = s) : s.Record t.call heard t.context :=
  hs ▸ h.record

/-- the file's status and its opening -/
theorem file_told (h : Told t heard lost) (hs : t.stage = .fileStatus ∨ t.stage = .fileOpen) (a : Answer) :
    Told (t.api a) heard lost := by
  have hnone : t.action = .none := h.early (by rcases hs with hs | hs <;> rw [hs] <;> rfl)
  have hcheck : t.call.checkargs = .none := h.checked (by rcases hs with hs | hs <;> rw [hs] <;> rfl)
  rcases hs with hs | hs
  · obtain ⟨hfile, c, hc, hreq, hresp, hstatus⟩ := h.at_stage hs
    simp only [Transaction.api, hs]
    split
    · refine h.move ⟨rfl, rfl, id, Or.inl⟩ hcheck ⟨hfile, ?_⟩ (.inl ⟨rfl, hnone⟩)
      dsimp only
      rw [hc]
      exact ⟨_, rfl, hreq, hresp, hstatus⟩
    · exact h.fail hnone (mem_localErrors_file hcheck hfile (.inl rfl))
  · obtain ⟨hfile, c, hc, hreq, hresp, hstatus⟩ := h.at_stage hs
    simp only [Transaction.api, hs]
    split_ifs
    · refine h.move ⟨rfl, rfl, id, Or.inl⟩ hcheck ⟨_, by rw [hc]; rfl, ?_⟩ (.inl ⟨rfl, hnone⟩)
      rw [h.unheard hnone]
      exact reflects_send (.inr hfile) (by simp [hfile]) hreq hresp hstatus
    · exact h.fail hnone (mem_localErrors_file hcheck hfile (.inr rfl))

/-- what `connector_initiate_action_secure` returns without an acceptance -/
theorem initiated_told (h : Told t heard lost) (hnone : t.action = .none) (hcheck : t.call.checkargs = .none)
    (hrecord : ∃ c, t.context = .live c ∧ Reflects t.call heard c) {s : ConnectorStatus} (hne : s ≠ .success) :
    Told (t.initiated s) heard lost := by
  have hfailed : Told (t.fail .initiateActionFailed) heard lost :=
    h.fail hnone (mem_localErrors hcheck (.inr (.inr rfl)))
  cases s with
  | success => exact absurd rfl hne
  | serviceBusy => exact h.move ⟨rfl, rfl, id, Or.inl⟩ hcheck hrecord (.inl ⟨rfl, hnone⟩)
  | abort => exact hfailed
  | failed => exact hfailed

/-- the two locks in front of the call of the connector, and the call -/
theorem initiate_told (h : Told t heard lost) (a : Answer)
    (hs : t.stage = .collectionAcquire ∨ t.stage = .initiateAcquire ∨ t.stage = .initiate) :
    Told (t.api a) heard lost := by
  have hnone : t.action = .none := h.early (by rcases hs with hs | hs | hs <;> rw [hs] <;> rfl)
  have hcheck : t.call.checkargs = .none := h.checked (by rcases hs with hs | hs | hs <;> rw [hs] <;> rfl)
  rcases hs with hs | hs | hs
  · have hrecord := h.at_stage hs
    simp only [Transaction.api, hs]
    split_ifs
    · exact h.move ⟨rfl, rfl, id, fun _ => .inr hcheck⟩ hcheck hrecord (.inl ⟨rfl, hnone⟩)
    · exact h.fail hnone (mem_localErrors hcheck (.inr (.inl rfl)))
  · have hrecord := h.at_stage hs
    simp only [Transaction.api, hs]
    split_ifs
    · exact h.move ⟨rfl, rfl, id, Or.inl⟩ hcheck hrecord (.inl ⟨rfl, hnone⟩)
    · exact initiated_told h hnone hcheck hrecord (by decide)
  · have hrecord := h.at_stage hs
    have hposted : t.posted = false := by
      by_contra hp
      exact absurd (hnone.symm.trans (h.posted (by simpa using hp))) (by decide)
    simp only [Transaction.api, hs]
    split_ifs with hok
    · -- the connector has the action from here on
      refine ⟨hrecord, fun _ => hcheck, fun he => ?_, fun _ hn => ?_, fun hn => ?_, fun hf => ?_, fun hp => ?_, h.locked,
        fun he => ?_⟩
      · simp [Stage.early, hok] at he
      · cases hn
      · cases hn
      · rcases hf with hf | hf <;> cases hf
      · rw [hposted] at hp
        cases hp
      · cases he
    · exact h.move ⟨rfl, rfl, id, Or.inl⟩ hcheck hrecord (.inl ⟨by simpa [Stage.early] using hok, hnone⟩)

/-- the release behind the call of the connector -/
theorem initiateRelease_told (h : Told t heard lost) {s : ConnectorStatus} (hs : t.stage = .initiateRelease s) (a : Answer) :
    Told (t.api a) heard (lost || t.losesLock (.api a)) := by
  have hcheck : t.call.checkargs = .none := h.checked (by rw [hs]; rfl)
  have hrecord := h.at_stage hs
  by_cases hok : a.status = .ok
  · have hkeeps : t.losesLock (.api a) = false := by simp [Transaction.losesLock, hs, hok]
    rw [hkeeps, Bool.or_false]
    simp only [Transaction.api, hs, if_pos hok]
    by_cases hsucc : s = .success
    · subst hsucc
      exact h.move ⟨rfl, rfl, id, Or.inl⟩ hcheck hrecord (.inr ⟨rfl, h.waiting (by rw [hs]; rfl)⟩)
    · exact initiated_told h (h.early (by rw [hs]; simpa [Stage.early] using hsucc)) hcheck hrecord hsucc
  · simp only [Transaction.api, hs, if_neg hok]
    by_cases hnone : t.action = .none
    · have hkeeps : t.losesLock (.api a) = false := by simp [Transaction.losesLock, hnone]
      rw [hkeeps, Bool.or_false]
      exact initiated_told h hnone hcheck hrecord (by decide)
    · have hloses : t.losesLock (.api a) = true := by simp [Transaction.losesLock, hs, hok, hnone]
      rw [hloses, Bool.or_true]
      exact h.lose hnone (.inl rfl)

/-- the wait -/
theorem wait_told (h : Told t heard lost) (hs : t.stage = .wait) (a : Answer) :
    Told (t.api a) heard (lost || t.losesLock (.api a)) := by
  have hne : t.action ≠ .none := h.waiting (by rw [hs]; rfl)
  obtain ⟨c, hc, hreflects⟩ := h.at_stage hs
  simp only [Transaction.api, hs, Transaction.wake]
  by_cases hok : a.lockAcquire = .ok
  · have hkeeps : t.losesLock (.api a) = false := by simp [Transaction.losesLock, hs, hok]
    rw [hkeeps, Bool.or_false, if_neg (not_not.2 hok)]
    split_ifs with hposted
    · have hfinished : t.action = .finished := h.posted hposted
      have hlast : heard.getLast?.any Callback.final = true := h.final (.inr hfinished)
      rw [hc]
      refine h.finish ⟨rfl, rfl, fun hp => (by cases hp), Or.inl⟩ rfl (.inr (.inl ⟨hfinished, hlast, ?_⟩))
      exact reflects_result hreflects (lastStatus_of_final hlast)
    · exact h
  · have hloses : t.losesLock (.api a) = true := by simp [Transaction.losesLock, hs, hok, hne]
    rw [hloses, Bool.or_true, if_pos hok]
    exact h.lose hne (.inr rfl)

/-- the way home; a collection that cannot be unlocked takes the place of the error -/
theorem home_told (h : Told t heard lost) (hs : t.stage.ended = true) (a : Answer) :
    Told (t.api a) heard (lost || t.losesLock (.api a)) := by
  have hend := h.ended hs
  cases hstage : t.stage with
  | collectionRelease =>
    simp only [Transaction.api, hstage]
    by_cases hbad : t.collectionLocked = true ∧ a.status ≠ .ok
    · rw [if_pos hbad]
      refine h.finish ⟨rfl, rfl, id, fun hl => by cases hl⟩ rfl ?_
      by_cases hnone : t.action = .none
      · exact .inl ⟨hnone, h.unheard hnone, mem_localErrors (h.locked hbad.1) (.inr (.inl rfl))⟩
      · have hloses : t.losesLock (.api a) = true := by simp [Transaction.losesLock, hstage, hnone, hbad.1, hbad.2]
        exact .inr (.inr ⟨hnone, by rw [hloses, Bool.or_true], .inr rfl⟩)
    · have hkeeps : t.losesLock (.api a) = false := by
        by_contra hl
        exact hbad (by simp_all [Transaction.losesLock])
      rw [if_neg hbad, hkeeps, Bool.or_false]
      exact h.finish ⟨rfl, rfl, id, fun hl => by cases hl⟩ rfl hend
  | lockDestroy | fileClose | free | returned =>
    have hkeeps : t.losesLock (.api a) = false := by simp [Transaction.losesLock, hstage]
    simp only [Transaction.api, hstage]
    rw [hkeeps, Bool.or_false]
    first | exact h | exact h.finish ⟨rfl, rfl, id, Or.inl⟩ rfl hend
  | _ => rw [hstage] at hs; cases hs

/-- in front of the acceptance no lock is lost -/
theorem losesLock_early (h : t.action = .none) (o : Op) : t.losesLock o = false := by
  cases o <;> simp [Transaction.losesLock, h]

/-- **The calling thread.** -/
theorem api_told (h : Told t heard lost) (a : Answer) : Told (t.api a) heard (lost || t.losesLock (.api a)) := by
  by_cases hended : t.stage.ended = true
  · exact home_told h hended a
  have hquiet (he : t.stage.early = true) (ht : Told (t.api a) heard lost) :
      Told (t.api a) heard (lost || t.losesLock (.api a)) := by
    rw [losesLock_early (h.early he), Bool.or_false]
    exact ht
  cases hs : t.stage with
  | checkargs => exact hquiet (by rw [hs]; rfl) (start_told h (.inl hs) a)
  | malloc => exact hquiet (by rw [hs]; rfl) (start_told h (.inr hs) a)
  | lockCreate => exact hquiet (by rw [hs]; rfl) (lockCreate_told h hs a)
  | fileStatus => exact hquiet (by rw [hs]; rfl) (file_told h (.inl hs) a)
  | fileOpen => exact hquiet (by rw [hs]; rfl) (file_told h (.inr hs) a)
  | collectionAcquire => exact hquiet (by rw [hs]; rfl) (initiate_told h a (.inl hs))
  | initiateAcquire => exact hquiet (by rw [hs]; rfl) (initiate_told h a (.inr (.inl hs)))
  | initiate => exact hquiet (by rw [hs]; rfl) (initiate_told h a (.inr (.inr hs)))
  | initiateRelease s => exact initiateRelease_told h hs a
  | wait => exact wait_told h hs a
  | _ => rw [hs] at hended; exact absurd rfl hended

/-! ### The connector -/

/-- while the connector has the action, the calling thread waits or has lost a lock -/
theorem Told.owed_stage (h : Told t heard lost) (howed : t.action.owed = true) :
    t.stage.waiting = true ∨ (t.stage.ended = true ∧ lost = true ∧ (t.error = .initiateActionFailed ∨ t.error = .lockFailed)) := by
  have hne : t.action ≠ .none := fun hn => by rw [hn] at howed; cases howed
  by_cases hended : t.stage.ended = true
  · rcases h.ended hended with ⟨hn, -⟩ | ⟨hf, -⟩ | ⟨-, hlost⟩
    · exact absurd hn hne
    · rw [hf] at howed
      cases howed
    · exact .inr ⟨hended, hlost⟩
  · left
    by_contra hw
    refine hne (h.early ?_)
    cases hs : t.stage <;> simp_all [Stage.early, Stage.waiting, Stage.ended]

/-- what the connector's step leaves of a send: the action, the callbacks and whether the lock is released are to be told -/
theorem Told.serve {heard' : List Callback} (h : Told t heard lost) (howed : t.action.owed = true)
    (hstage : t'.stage = t.stage) (hcall : t'.call = t.call) (herror : t'.error = t.error)
    (hlocked : t'.collectionLocked = t.collectionLocked) (hne : t'.action ≠ .none)
    (hrecord : ∀ c, t.context = .live c → Reflects t.call heard c → ∃ c', t'.context = .live c' ∧ Reflects t.call heard' c')
    (hfinal : t'.action = .finishing ∨ t'.action = .finished → heard'.getLast?.any Callback.final = true)
    (hposted : t'.posted = true → t'.action = .finished) : Told t' heard' lost := by
  have hplace := h.owed_stage howed
  refine ⟨?_, fun hc => ?_, fun he => ?_, fun _ => hne, fun hn => absurd hn hne, hfinal, hposted, fun hl => ?_, fun he => ?_⟩
  · rw [hstage, hcall]
    rcases hplace with hw | ⟨he, -⟩
    · have hwait : ∃ c, t.context = .live c ∧ Reflects t.call heard c := by
        cases hs : t.stage with
        | initiateRelease s => exact h.at_stage hs
        | wait => exact h.at_stage hs
        | _ => rw [hs] at hw; cases hw
      obtain ⟨c, hc, hreflects⟩ := hwait
      have hnew := hrecord c hc hreflects
      cases hs : t.stage with
      | initiateRelease s => exact hnew
      | wait => exact hnew
      | _ => rw [hs] at hw; cases hw
    · exact (Stage.ended_behind he).2.2.2 _ _ _
  · rw [hcall]
    exact h.checked (hstage ▸ hc)
  · have hn := h.early (hstage ▸ he)
    rw [hn] at howed
    cases howed
  · rw [hcall]
    exact h.locked (hlocked ▸ hl)
  · rw [hstage] at he
    rcases hplace with hw | ⟨-, hlost, herr⟩
    · rw [Stage.front_not_ended (.inr hw)] at he
      cases he
    · exact .inr (.inr ⟨hne, hlost, herror ▸ herr⟩)

/-- **A callback.** -/
theorem callback_told (h : Told t heard lost) (c : Callback) :
    Told (t.callback c) (heard ++ (t.hears (.callback c)).toList) lost := by
  unfold Transaction.callback Transaction.hears
  by_cases hc : t.action = .accepted ∧ c.concerns t.call.service = true
  · rw [if_pos hc]
    have hposted : t.posted ≠ true := fun hp => absurd (hc.1.symm.trans (h.posted hp)) (by decide)
    simp only [if_pos hc, Option.toList_some]
    refine h.serve (by rw [hc.1]; rfl) rfl rfl rfl rfl ?_ (fun ctx hctx hr => ?_) (fun hf => ?_) (fun hp => absurd hp hposted)
    · dsimp only
      split_ifs <;> decide
    · exact ⟨c.apply ctx, by rw [hctx]; rfl, reflects_apply hr hc.2⟩
    · by_cases hfinal : c.final = true
      · simpa using hfinal
      · rw [if_neg hfinal] at hf
        rcases hf with hf | hf <;> cases hf
  · rw [if_neg hc]
    simpa only [if_neg hc, Option.toList_none, List.append_nil] using h

/-- **The release of the lock by the final callback.** -/
theorem statusRelease_told (h : Told t heard lost) (r : CcimpStatus) : Told (t.statusRelease r) heard lost := by
  unfold Transaction.statusRelease
  by_cases hc : t.action = .finishing
  · rw [if_pos hc]
    have hposted : t.posted = false := by
      by_contra hp
      exact absurd (hc.symm.trans (h.posted (by simpa using hp))) (by decide)
    refine h.serve (by rw [hc]; rfl) rfl rfl rfl rfl ?_ (fun ctx hctx hr => ⟨ctx, hctx, hr⟩) (fun _ => h.final (.inl hc))
      fun hp => ?_
    · dsimp only
      split_ifs <;> decide
    · -- only a release that succeeds posts, and then the connector does not call again
      have hok : r = .ok := by simpa [hposted] using hp
      simp [hok]
  · rw [if_neg hc]
    exact h

/-- **One step.** -/
theorem step_told (h : Told t heard lost) (o : Op) :
    Told (t.step o) (heard ++ (t.hears o).toList) (lost || t.losesLock o) := by
  cases o with
  | api a =>
    rw [show (t.hears (.api a)).toList = [] from rfl, List.append_nil]
    exact api_told h a
  | callback c =>
    rw [show t.losesLock (.callback c) = false from rfl, Bool.or_false]
    exact callback_told h c
  | statusRelease r =>
    rw [show (t.hears (.statusRelease r)).toList = [] from rfl, List.append_nil,
      show t.losesLock (.statusRelease r) = false from rfl, Bool.or_false]
    exact statusRelease_told h r

/-- **A run of one send.** -/
theorem run_told (h : Told t heard lost) (ops : List Op) :
    Told (run Transaction.step t ops) (heard ++ t.heard ops) (lost || t.lost ops) := by
  induction ops generalizing t heard lost with
  | nil => simpa [Transaction.heard, Transaction.lost] using h
  | cons o ops ih =>
    have hrun := ih (step_told h o)
    have hheard : t.heard (o :: ops) = (t.hears o).toList ++ (t.step o).heard ops := by
      simp only [Transaction.heard, steps_cons, List.filterMap_cons]
      cases t.hears o <;> rfl
    have hlost : t.lost (o :: ops) = (t.losesLock o || (t.step o).lost ops) := by
      simp [Transaction.lost]
    rw [run_cons, hheard, hlost, ← List.append_assoc, ← Bool.or_assoc]
    exact hrun

end Told

/-! ## Any number of sends -/

namespace System

/-- the steps of the i-th send in a run, but for those that wait for a lock, up to an assertion that halts the build -/
def ops (debug : Bool) (i : ℕ) : System → List (ℕ × Op) → List Op
  | _, [] => []
  | s, o :: rest =>
    if o.1 = i ∧ s.halted = false ∧ s.waits o = false ∧ ¬ (debug = true ∧ (s.txn o.1).asserts o.2 = true) then
      o.2 :: ops debug i (s.step debug o) rest
    else ops debug i (s.step debug o) rest

/-- what a run does to one send are its own steps -/
theorem run_txn (debug : Bool) (i : ℕ) (s : System) (l : List (ℕ × Op)) :
    (run (step debug) s l).txn i = run Transaction.step (s.txn i) (ops debug i s l) := by
  induction l generalizing s with
  | nil => rfl
  | cons o l ih =>
    rw [run_cons, ih, ops]
    by_cases hmoves : s.halted = false ∧ s.waits o = false ∧ ¬ (debug = true ∧ (s.txn o.1).asserts o.2 = true)
    · have hstep := step_eq hmoves.1 hmoves.2.1 hmoves.2.2
      by_cases hi : o.1 = i
      · subst hi
        rw [if_pos ⟨rfl, hmoves⟩, run_cons, hstep]
        simp
      · rw [if_neg fun h => hi h.1, hstep]
        simp [Function.update_of_ne (Ne.symm hi)]
    · have hstep : (s.step debug o).txn = s.txn := by
        unfold step
        split_ifs with hstays hassert
        · rfl
        · rfl
        · obtain ⟨hhalt, hwaits⟩ := not_or.1 hstays
          exact absurd ⟨by simpa using hhalt, by simpa using hwaits, hassert⟩ hmoves
      rw [if_neg fun h => hmoves h.2, hstep]

/-- the callbacks for the i-th send in a run, in order -/
def heard (debug : Bool) (i : ℕ) (s : System) (l : List (ℕ × Op)) : List Callback := (s.txn i).heard (ops debug i s l)

/-- the i-th send loses a lock behind the connector's acceptance -/
def lost (debug : Bool) (i : ℕ) (s : System) (l : List (ℕ × Op)) : Bool := (s.txn i).lost (ops debug i s l)

theorem heard_told (debug : Bool) (calls : ℕ → Call) (l : List (ℕ × Op)) (i : ℕ) :
    Told ((run (step debug) (System.begin calls) l).txn i) (heard debug i (System.begin calls) l)
      (lost debug i (System.begin calls) l) := by
  rw [run_txn]
  have hrun := run_told (begin_told (calls i)) (ops debug i (System.begin calls) l)
  rwa [List.nil_append, Bool.false_or] at hrun

theorem run_call (debug : Bool) (calls : ℕ → Call) (l : List (ℕ × Op)) (i : ℕ) :
    ((run (step debug) (System.begin calls) l).txn i).call = calls i := by
  rw [run_txn]
  exact run_inv_all (I := fun t : Transaction => t.call = calls i) (fun t o h => (step_call t o).trans h) rfl _

end System

/-! ## A verdict of success -/

theorem none_not_local (call : Call) : .none ∉ call.localErrors := by
  intro h
  unfold Call.localErrors at h
  split_ifs at h with hcheck hfile
  · exact hcheck (List.mem_singleton.1 h).symm
  · simp at h
  · simp at h

/-- what the callbacks of a success say -/
structure Succeeded (call : Call) (heard : List Callback) : Prop where
  status : lastStatus heard = some .none
  read : call.service = .file → ∀ c ∈ heard, c.failedRead = false
  reply : call.readsReply = true → ∀ r ∈ lastResponse heard, r = .success
  collection : call.service = .dataPoints → lastResponse heard = some .success

theorem txError_none {r : Response} (h : r.txError = .none) : r = .success := by
  cases r <;> first | rfl | cases h

/-- a verdict of success -/
theorem verdict_none {call : Call} {heard : List Callback} (hstatus : (lastStatus heard).isSome = true)
    (h : call.verdict heard = .none) : Succeeded call heard := by
  obtain ⟨e, he⟩ := Option.isSome_iff_exists.1 hstatus
  unfold Call.verdict at h
  split_ifs at h with hread hreply
  · exact absurd h hread
  · exact absurd h hreply.2
  · have hreplied (hreads : call.readsReply = true) : call.replyError heard = .none := by
      by_contra hne
      exact hreply ⟨hreads, hne⟩
    rw [he, Option.getD_some] at h
    refine ⟨by rw [he, h], fun hfile c hc => ?_, fun hreads r hr => ?_, fun hservice => ?_⟩
    · by_contra hbad
      refine hread ?_
      rw [Call.readError, if_pos ⟨hfile, List.any_eq_true.2 ⟨c, hc, by simpa using hbad⟩⟩]
      decide
    · have hnone := hreplied hreads
      rw [Call.replyError, hr] at hnone
      exact txError_none hnone
    · have hnone := hreplied (by simp [Call.readsReply, hservice])
      unfold Call.replyError at hnone
      cases hr : lastResponse heard with
      | some r =>
        rw [hr] at hnone
        rw [txError_none hnone]
      | none =>
        rw [hr, hservice] at hnone
        cases hnone

/-! ## Main results -/

/-- **The return value.** For every build, any number of sends of the four services and any interleaving of their threads with
the connector's callbacks, with every answer of every operation and the callbacks in any order: a send that has returned
either was never heard of by the connector and returns a local error, or its action is finished and it returns the verdict
of the callbacks, or a lock operation behind the connector's acceptance has failed. -/
theorem verdict_returned (debug : Bool) (calls : ℕ → Call) (l : List (ℕ × Op)) (i : ℕ)
    (h : ((run (System.step debug) (System.begin calls) l).txn i).stage = .returned) :
    Ending (calls i) ((run (System.step debug) (System.begin calls) l).txn i).action
      (System.heard debug i (System.begin calls) l) (System.lost debug i (System.begin calls) l)
      ((run (System.step debug) (System.begin calls) l).txn i).error := by
  have hend := (System.heard_told debug calls l i).ended (by rw [h]; rfl)
  rwa [System.run_call] at hend

/-- a send of a collection whose first status finds its lock busy, and between its steps a send that the cloud turns down -/
def twoSends : List (ℕ × Op) :=
  (List.replicate 8 (.api granted)).flatMap (fun o => [(0, o), (1, o)]) ++
    [(0, .callback (.dataPointResponse .success none)), (1, .callback (.sendDataRequest 1 (readOf 1))),
      (0, .callback (.dataPointStatus .timeout)), (0, .statusRelease .busy), (1, .callback (.sendDataStatus .cancel)),
      (0, .callback (.dataPointStatus .complete)), (1, .statusRelease .ok), (0, .statusRelease .ok)] ++
    (List.replicate 6 (.api granted)).flatMap fun o => [(1, o), (0, o)]

def twoCalls (i : ℕ) : Call := if i = 0 then { oneByte with service := .dataPoints, collection := true } else oneByte

def twoRun : System := run (System.step false) (System.begin twoCalls) twoSends

example : (twoRun.txn 0).error = .none ∧ (twoRun.txn 1).error = .statusCancel := by decide

/-- both sends return, the first one with success -/
theorem verdict_returned_two :
    Ending (twoCalls 0) (twoRun.txn 0).action (System.heard false 0 (System.begin twoCalls) twoSends)
        (System.lost false 0 (System.begin twoCalls) twoSends) (twoRun.txn 0).error ∧
      Ending (twoCalls 1) (twoRun.txn 1).action (System.heard false 1 (System.begin twoCalls) twoSends)
        (System.lost false 1 (System.begin twoCalls) twoSends) (twoRun.txn 1).error :=
  ⟨verdict_returned false twoCalls twoSends 0 (by decide), verdict_returned false twoCalls twoSends 1 (by decide)⟩

/-- **No false success.** A send that returns success has heard the last callback of its action, a status of success; no read
of its file has failed, a reply that counts is a success, and the reply to a collection has come. -/
theorem success_told (debug : Bool) (calls : ℕ → Call) (l : List (ℕ × Op)) (i : ℕ)
    (h : ((run (System.step debug) (System.begin calls) l).txn i).stage = .returned)
    (hsuccess : ((run (System.step debug) (System.begin calls) l).txn i).error = .none) :
    Succeeded (calls i) (System.heard debug i (System.begin calls) l) := by
  have hend := (System.heard_told debug calls l i).ended (by rw [h]; rfl)
  rw [System.run_call, hsuccess] at hend
  rcases hend with ⟨-, -, hlocal⟩ | ⟨-, hfinal, hverdict⟩ | ⟨-, -, he⟩
  · exact absurd hlocal (none_not_local (calls i))
  · exact verdict_none (lastStatus_of_final hfinal) hverdict.symm
  · rcases he with he | he <;> cases he

end CcApi.Send
