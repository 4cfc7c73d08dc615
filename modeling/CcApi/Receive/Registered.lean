/-
Registered targets and the sessions they are for (`ccapi_receive.c`, `ccapi_data_handler.c`).

The application adds and removes targets while sessions come and go. A target callback looks its name up once and copies the
entry's callbacks and limit into the context; the entry may be freed at any time after that.

- `Handling`: what a session is handled by, from the calls before its opening alone.
- `Frame`: no step but a target callback changes what a context was given at its opening.
- `step_inv`: the list is what the calls leave, and every session has what was registered when it was opened.
- `handled_as_registered`: in every run, the user is called for a session by what was registered for its target when it was
  opened, with its whole request, and once it ends by the status callback registered then; later calls change nothing for it.

Premises: those of `Receive.Model` and `Conn.Legal`, and those of `Targets.Op.valid` for the calls; no call is made during a
target callback.
-/
import CcApi.Receive.Exact
import CcApi.Tables.Maps

namespace CcApi.Receive

open Lib Lib.Runs Lib.Catalog

/-! ## What a session is handled by -/

structure Handling where
  dataCb : Option ℕ
  statusCb : Option ℕ
  maxRequestSize : ℕ
deriving DecidableEq, Repr

/-- by the entry of its target, or by the general callbacks without a limit -/
def handling (dataCb statusCb : Option ℕ) (entry : Option ReceiveTarget) : Handling :=
  match entry with
  | some t => ⟨some t.dataCb, t.statusCb, t.maxRequestSize⟩
  | none => ⟨dataCb, statusCb, receiveNoLimit⟩

/-- what a context is given at its opening -/
structure Settings where
  target : Option Str
  transport : Transport
  responseRequired : Bool
  handling : Handling
deriving DecidableEq, Repr

def SvcReceive.settings (a : SvcReceive) : Settings :=
  { target := a.target.map HeapStr.text, transport := a.transport, responseRequired := a.responseRequired
    handling := ⟨a.dataCb, a.statusCb, a.maxRequestSize⟩ }

/-- what the service is started with, and its list of targets -/
def Svc.configuration (s : Svc) : Bool × Bool × Option ℕ × Option ℕ × List ReceiveTarget :=
  (s.receiveSupported, s.hasAcceptCb, s.dataCb, s.statusCb, s.targetList)

/-! ## The frame -/

/-- the service's configuration is the same, and every context that is live has the settings it had -/
structure Frame (s t : Svc) : Prop where
  configuration : t.configuration = s.configuration
  settings : ∀ c a', t.ctx c = .live a' → ∃ a, s.ctx c = .live a ∧ a'.settings = a.settings

namespace Frame

variable {s t : Svc} {c : ℕ} {a a' : SvcReceive}

theorem same (hconf : t.configuration = s.configuration) (hctx : t.ctx = s.ctx) : Frame s t :=
  ⟨hconf, fun _ a ha => ⟨a, by rwa [← hctx], rfl⟩⟩

theorem put (hconf : t.configuration = s.configuration) (hctx : t.ctx = Function.update s.ctx c (.live a'))
    (hc : s.ctx c = .live a) (hset : a'.settings = a.settings) : Frame s t := by
  refine ⟨hconf, fun c' b hb => ?_⟩
  rw [hctx] at hb
  by_cases hcc : c' = c
  · subst hcc
    rw [Function.update_self] at hb
    cases hb
    exact ⟨a, hc, hset⟩
  · rw [Function.update_of_ne hcc] at hb
    exact ⟨b, hb, rfl⟩

theorem map (hconf : t.configuration = s.configuration) {f : SvcReceive → SvcReceive}
    (hctx : t.ctx = Function.update s.ctx c ((s.ctx c).map f)) (hf : ∀ a, (f a).settings = a.settings) : Frame s t := by
  refine ⟨hconf, fun c' b hb => ?_⟩
  rw [hctx] at hb
  by_cases hcc : c' = c
  · subst hcc
    rw [Function.update_self] at hb
    cases hc : s.ctx c' with
    | live a =>
      rw [hc] at hb
      cases hb
      exact ⟨a, rfl, hf a⟩
    | unallocated | freed _ =>
      rw [hc] at hb
      cases hb
  · rw [Function.update_of_ne hcc] at hb
    exact ⟨b, hb, rfl⟩

end Frame

theorem appendSegment_frame {s : Svc} {c : ℕ} {a : SvcReceive} (hc : s.ctx c = .live a) (d : DataReq) (ok : Bool) :
    Frame s (appendSegment c a d ok s).1 := by
  obtain ⟨-, -, he⟩ | ⟨-, -, he⟩ | ⟨-, -, heap, -, -, -, he⟩ := appendSegment_cases c a d ok s
  all_goals
    rw [he]
    exact .put rfl rfl hc rfl

theorem data_frame (d : DataReq) (ok : Bool) (s : Svc) : Frame s (processDeviceRequestData d ok s).1 := by
  cases hu : s.session d.userContext with
  | none =>
    rw [processDeviceRequestData, hu]
    exact .same rfl rfl
  | some p =>
    obtain ⟨c, a⟩ := p
    obtain ⟨-, hc⟩ := session_some hu
    by_cases hs : s.receiveSupported = true
    case neg =>
      rw [data_unsupported hu hs]
      exact .put rfl rfl hc rfl
    cases hst : a.receiveThreadStatus with
    | idle =>
      rw [data_idle hu hs hst]
      exact appendSegment_frame hc d ok
    | dataCbReady =>
      by_cases hslot : s.svcReceive = none
      · rw [data_offered hu hs hst hslot]
        exact .put rfl rfl hc rfl
      · rw [data_waits hu hs (.inl ⟨hst, hslot⟩)]
        exact .same rfl rfl
    | dataCbQueued =>
      rw [data_waits hu hs (.inr hst)]
      exact .same rfl rfl
    | dataCbProcessed =>
      rw [processDeviceRequestData, hu]
      dsimp only
      rw [if_neg (not_not.2 hs), hst]
      refine .put rfl rfl hc ?_
      unfold SvcReceive.settings
      split_ifs <;> rfl
    | free =>
      rw [data_free hu hs hst]
      exact .same rfl rfl

/-- the library's message is about the context's own target -/
theorem fillInternalError_settings {ok : Bool} {a a' : SvcReceive} {heap heap' : Heap}
    (h : fillInternalError ok a heap = some (a', heap')) : a'.settings = a.settings := by
  unfold fillInternalError at h
  cases ht : a.target with
  | none =>
    rw [ht] at h
    cases h
  | some target =>
    rw [ht] at h
    cases ok <;>
    · cases h
      simp only [SvcReceive.settings, ht]

theorem reply_frame {r : ReplyReq} {ok : Bool} {s t : Svc} {status : CallbackStatus} {reply : Option Reply}
    (h : processDeviceRequestResponse r ok s = some (t, status, reply)) : Frame s t := by
  unfold processDeviceRequestResponse at h
  cases hu : s.session r.userContext with
  | none =>
    rw [hu] at h
    cases h
    exact .same rfl rfl
  | some p =>
    obtain ⟨c, a⟩ := p
    obtain ⟨-, hc⟩ := session_some hu
    rw [hu] at h
    dsimp only at h
    split_ifs at h with hreq herr
    · cases hfill : fillInternalError ok { a with responseHandledInternally := true } s.heap with
      | none =>
        rw [hfill] at h
        cases h
      | some q =>
        rw [hfill] at h
        cases h
        have hset := fillInternalError_settings hfill
        exact .put rfl rfl hc hset
    · cases h
      exact .put rfl rfl hc rfl
    · cases h
      exact .same rfl rfl

theorem status_frame (r : StatusReq) (s : Svc) : Frame s (processDeviceRequestStatus r s).1 := by
  unfold processDeviceRequestStatus
  cases hu : s.session r.userContext with
  | none => exact .same rfl rfl
  | some p =>
    obtain ⟨c, a⟩ := p
    dsimp only
    split
    · exact .same rfl rfl
    · refine ⟨rfl, fun c' b hb => ⟨b, ?_, rfl⟩⟩
      dsimp only at hb
      by_cases hcc : c' = c
      · subst hcc
        rw [Function.update_self] at hb
        cases hb
      · rwa [Function.update_of_ne hcc] at hb

theorem storeResult_frame (c : ℕ) (e : ReceiveError) (response : Option (List UInt8)) (s : Svc) :
    Frame s (storeResult c e response s) := by
  unfold storeResult
  cases response with
  | none => exact .map rfl rfl fun _ => rfl
  | some bytes => exact .map rfl rfl fun _ => rfl

theorem settle_settings (a : SvcReceive) : a.settle.settings = a.settings := by
  unfold SvcReceive.settle
  split_ifs <;> rfl

theorem thread_frame (s : St) (o : Op) : Frame s.svc (stepThread s o).svc := by
  cases o with
  | wake =>
    have hsvc : (stepThread s .wake).svc = s.svc := by
      dsimp only [stepThread]
      split
      · split <;> rfl
      · rfl
    rw [hsvc]
    exact .same rfl rfl
  | check | call =>
    dsimp only [stepThread]
    split <;> exact .same rfl rfl
  | ret e response =>
    unfold stepThread
    cases s.pc with
    | calling c => exact storeResult_frame c e response s.svc
    | _ => exact .same rfl rfl
  | settle =>
    unfold stepThread
    cases s.pc with
    | returned c => exact .map rfl rfl settle_settings
    | _ => exact .same rfl rfl
  | clear =>
    unfold stepThread
    cases s.pc <;> exact .same rfl rfl
  | target _ _ | data _ _ | reply _ _ | status _ => exact .same rfl rfl

/-- **What no later step changes.** -/
theorem step_frame (s : St) (o : Op) (hnew : ∀ r env, o ≠ .target r env) : Frame s.svc (step s o).svc := by
  unfold step
  split_ifs
  · exact .same rfl rfl
  · cases o with
    | target r env => exact absurd rfl (hnew r env)
    | data d ok => exact data_frame d ok s.svc
    | reply r ok =>
      dsimp only
      cases hr : processDeviceRequestResponse r ok s.svc with
      | none => exact .same rfl rfl
      | some p => exact reply_frame hr
    | status r => exact status_frame r s.svc
    | wake | check | call | ret _ _ | settle | clear => exact thread_frame s _

/-! ## The opening -/

theorem target_configuration (r : TargetReq) (env : TargetEnv) (s : Svc) :
    (processDeviceRequestTarget r env s).1.configuration = s.configuration := by
  unfold processDeviceRequestTarget
  cases r.target with
  | none => rfl
  | some target =>
    by_cases hu : r.userContext.isSome = true
    · simp [hu]
    cases hc : env.contextOk <;> cases ht : env.targetOk <;> simp [hu, Heap.malloc, Svc.put, Svc.configuration]

/-- the contexts there are are left alone; the one that is opened is new -/
theorem target_ctx (r : TargetReq) (env : TargetEnv) (s : Svc) {c : ℕ} (hc : c ≠ s.heap.next) :
    (processDeviceRequestTarget r env s).1.ctx c = s.ctx c := by
  obtain ⟨-, -, he | ⟨a, -, -, he⟩⟩ := target_cases r env s
  · exact congrFun he c
  · exact (congrFun he c).trans (Function.update_of_ne hc _ _)

/-- a context with the general callbacks and no limit -/
theorem acceptTarget_settings {s : Svc} {target : Str} {accepts : Bool} {a : SvcReceive}
    (ha : a.settings.handling = handling s.dataCb s.statusCb none) (h : (acceptTarget s target accepts a).2 = .cont) :
    (acceptTarget s target accepts a).1.settings =
      { a.settings with handling := handling s.dataCb s.statusCb (getTargetEntry s target) } := by
  unfold acceptTarget at h ⊢
  cases hs : s.receiveSupported with
  | false => simp [hs] at h
  | true =>
    simp only [hs, not_true_eq_false, if_false] at h ⊢
    cases he : getTargetEntry s target with
    | some t => rfl
    | none =>
      simp only [he] at h ⊢
      by_cases hcb : a.dataCb = none
      · simp [hcb] at h
      by_cases hno : s.hasAcceptCb = true ∧ accepts = false
      · simp [hcb, hno] at h
      rw [if_neg hcb, if_neg hno, ← ha]

/-- **Opening.** A session that is opened has what is registered for its target. -/
theorem openSession_settings {r : TargetReq} {env : TargetEnv} {s : Svc} {c : ℕ} {ses : Session}
    (h : openSession r env s = some (c, ses)) :
    let e := handling s.dataCb s.statusCb (getTargetEntry s ses.target)
    c = s.heap.next ∧ r.target = some ses.target ∧ ses.dataCb = e.dataCb ∧ ses.maxSize = e.maxRequestSize ∧
      ∃ a, (processDeviceRequestTarget r env s).1.ctx c = .live a ∧ a.settings =
        { target := some ses.target, transport := r.transport, responseRequired := r.responseRequired, handling := e } := by
  unfold openSession at h
  cases ht : r.target with
  | none => simp [ht] at h
  | some target =>
    rw [ht] at h
    cases hu : r.userContext.isSome with
    | true => simp [processDeviceRequestTarget, ht, hu] at h
    | false =>
      cases hc : env.contextOk with
      | false => simp [processDeviceRequestTarget, ht, hu, hc, Heap.malloc] at h
      | true =>
        cases hm : env.targetOk with
        | false => simp [processDeviceRequestTarget, ht, hu, hc, hm, Heap.malloc] at h
        | true =>
          obtain ⟨heap, -, he⟩ := target_made (s := s) ht hu hc hm
          rw [he] at h ⊢
          dsimp only at h ⊢
          cases hstatus : (acceptTarget s target env.accepts
              { newContext r s with target := some ⟨s.heap.next + 1, target⟩ }).2 <;>
            rw [hstatus] at h <;> simp only [reduceCtorEq, Option.some.injEq, Prod.mk.injEq] at h
          obtain ⟨rfl, rfl⟩ := h
          have hset := acceptTarget_settings (by rfl) hstatus
          refine ⟨rfl, rfl, ?_, ?_, _, Function.update_self _ _ _, hset⟩
          · unfold targetDataCb handling
            cases getTargetEntry s target <;> rfl
          · unfold maxSize handling
            cases getTargetEntry s target <;> rfl

/-- when a target callback opens its session, with memory for it -/
theorem target_accepts {r : TargetReq} {env : TargetEnv} {s : Svc} {name : Str} (ht : r.target = some name)
    (hu : r.userContext = none) (hc : env.contextOk = true) (hm : env.targetOk = true) (hs : s.receiveSupported = true) :
    (processDeviceRequestTarget r env s).2.1 = .cont ↔
      getTargetEntry s name ≠ none ∨ s.dataCb ≠ none ∧ (s.hasAcceptCb = true → env.accepts = true) := by
  obtain ⟨heap, -, he⟩ := target_made (s := s) ht (by rw [hu]; rfl) hc hm
  rw [he]
  dsimp only
  unfold acceptTarget
  rw [if_neg (not_not.2 hs)]
  cases getTargetEntry s name with
  | some t => simp
  | none =>
    have hcb : (newContext r s).dataCb = s.dataCb := rfl
    dsimp only
    rw [hcb]
    split_ifs with hnone hrefused
    · simp [hnone]
    · simp [hrefused]
    · simpa [hnone] using hrefused

/-! ## Calls and sessions together -/

/-- the service's list is another one -/
def Conn.retarget (targets : List ReceiveTarget) (s : Conn) : Conn :=
  { s with st := { s.st with svc := { s.st.svc with targetList := targets } } }

/-- the list with its calls, and the connector; for a context, the calls that had succeeded when it was opened -/
structure Switchboard where
  log : Tables.Targets.Log
  conn : Conn
  opened : ℕ → List (Event Str ReceiveTarget)

namespace Switchboard

inductive Op where
  /-- the application adds or removes a target -/
  | call (o : Tables.Targets.Op)
  | connector (o : Receive.Op)

/-- the context of the session that an operation opens -/
def opens (s : Switchboard) : Receive.Op → Option ℕ
  | .target r env => (openSession r env s.conn.st.svc).map Prod.fst
  | _ => none

def step (s : Switchboard) : Op → Switchboard
  | .call o => { s with log := s.log.step o, conn := s.conn.retarget (s.log.step o).table.list.contents }
  | .connector o =>
    { s with
      conn := s.conn.step o
      opened := match s.opens o with
        | some c => Function.update s.opened c s.log.history
        | none => s.opened }

/-- the calls are valid, and the connector does what it may, with names shorter than 2^32 -/
def Legal (s : Switchboard) : Op → Prop
  | .call o => o.valid
  | .connector o =>
    s.conn.Legal o ∧ match o with
      | .target r _ => ∀ name ∈ r.target, name.length < 2 ^ 32
      | _ => True

instance (s : Switchboard) : ∀ o, Decidable (s.Legal o)
  | .call o => inferInstanceAs (Decidable o.valid)
  | .connector (.target _ _) => inferInstanceAs (Decidable (_ ∧ ∀ _ ∈ _, _))
  | .connector (.data ..) | .connector (.reply ..) | .connector (.status _) | .connector .wake | .connector .check
  | .connector .call | .connector (.ret ..) | .connector .settle | .connector .clear =>
    inferInstanceAs (Decidable (_ ∧ True))

/-- a service that has just started -/
def fresh (hasAcceptCb : Bool) (dataCb statusCb : Option ℕ) (entry : ℕ → ReceiveTarget) : Switchboard :=
  { log := .fresh entry, conn := ⟨.fresh hasAcceptCb dataCb statusCb [], fun _ => none⟩, opened := fun _ => [] }

/-! ### The invariant -/

section

variable {hasAcceptCb : Bool} {dataCb statusCb : Option ℕ} {s : Switchboard}

/-- what was registered for a session when it was opened -/
def registered (dataCb statusCb : Option ℕ) (s : Switchboard) (c : ℕ) (ses : Session) : Handling :=
  handling dataCb statusCb (latest ReceiveTarget.target (s.opened c) ses.target)

structure Registered (dataCb statusCb : Option ℕ) (s : Switchboard) (c : ℕ) (ses : Session) : Prop where
  since : s.opened c <:+ s.log.history
  callback : ses.dataCb = (s.registered dataCb statusCb c ses).dataCb
  limit : ses.maxSize = (s.registered dataCb statusCb c ses).maxRequestSize
  context : ∀ a, s.conn.st.svc.ctx c = .live a →
    a.settings.target = some ses.target ∧ a.settings.handling = s.registered dataCb statusCb c ses

structure Inv (hasAcceptCb : Bool) (dataCb statusCb : Option ℕ) (s : Switchboard) : Prop where
  log : Tables.Targets.Inv s.log
  conn : s.conn.Inv
  configuration : s.conn.st.svc.configuration = (true, hasAcceptCb, dataCb, statusCb, s.log.table.list.contents)
  sessions : ∀ c ses, s.conn.sessions c = some ses → s.Registered dataCb statusCb c ses

/-- a step that keeps a session's opening, and its context's settings where the context is live -/
theorem Registered.keep {t : Switchboard} {c : ℕ} {old ses : Session} (h : s.Registered dataCb statusCb c old)
    (hses : ses.target = old.target ∧ ses.dataCb = old.dataCb ∧ ses.maxSize = old.maxSize) (hopened : t.opened c = s.opened c)
    (hhistory : s.log.history <:+ t.log.history)
    (hctx : ∀ a, t.conn.st.svc.ctx c = .live a → ∃ b, s.conn.st.svc.ctx c = .live b ∧ a.settings = b.settings) :
    t.Registered dataCb statusCb c ses := by
  obtain ⟨htarget, hdata, hmax⟩ := hses
  have hsame : t.registered dataCb statusCb c ses = s.registered dataCb statusCb c old := by
    rw [registered, registered, hopened, htarget]
  refine ⟨hopened ▸ h.since.trans hhistory, ?_, ?_, fun a ha => ?_⟩
  · rw [hsame, hdata, h.callback]
  · rw [hsame, hmax, h.limit]
  · obtain ⟨b, hb, hset⟩ := hctx a ha
    rw [hset, hsame, htarget]
    exact h.context b hb

/-- the hand-off does not depend on the list -/
theorem retarget_inv {s : Conn} (h : s.Inv) (targets : List ReceiveTarget) : (s.retarget targets).Inv := by
  refine ⟨⟨h.base.fresh, h.base.handoff⟩, h.running, h.alive, fun c => ?_⟩
  cases hses : s.sessions c with
  | some ses =>
    have htr := h.tracked hses
    exact Conn.at_known (s := s.retarget targets) hses ⟨htr.supported, htr.sync, htr.given, htr.delivered⟩
  | none => exact Conn.at_unknown (s := s.retarget targets) hses fun a ha => h.unknown hses ha

theorem history_grows (s : Tables.Targets.Log) (o : Tables.Targets.Op) : s.history <:+ (s.step o).history := by
  unfold Tables.Targets.Log.step
  dsimp only
  split_ifs
  · exact List.suffix_append _ _
  · exact List.suffix_refl _

theorem call_inv (h : s.Inv hasAcceptCb dataCb statusCb) {o : Tables.Targets.Op} (ho : o.valid) :
    (s.step (.call o)).Inv hasAcceptCb dataCb statusCb := by
  refine ⟨Tables.Targets.step_inv s.log o h.log ho, retarget_inv h.conn _, ?_, fun c ses hses => ?_⟩
  · have hconf := h.configuration
    simp only [Svc.configuration, Prod.mk.injEq] at hconf
    obtain ⟨hsup, haccept, hdata, hstatus, -⟩ := hconf
    simp only [step, Conn.retarget, Svc.configuration, hsup, haccept, hdata, hstatus]
  · exact (h.sessions c ses hses).keep ⟨rfl, rfl, rfl⟩ rfl (history_grows s.log o) fun a ha => ⟨a, ha, rfl⟩

/-- the connector learns nothing of what a session was opened with -/
theorem learn_keeps {s : Conn} {o : Receive.Op} (hnew : ∀ r env, o ≠ .target r env) {c : ℕ} {ses : Session}
    (h : s.learn o c = some ses) :
    ∃ old, s.sessions c = some old ∧ ses.target = old.target ∧ ses.dataCb = old.dataCb ∧ ses.maxSize = old.maxSize := by
  cases o with
  | target r env => exact absurd rfl (hnew r env)
  | data d ok =>
    dsimp only [Conn.learn] at h
    cases hu : d.userContext with
    | none =>
      rw [hu] at h
      exact ⟨ses, h, rfl, rfl, rfl⟩
    | some c' =>
      rw [hu] at h
      dsimp only at h
      by_cases hc : c = c'
      · subst hc
        rw [Function.update_self] at h
        obtain ⟨old, hold, rfl⟩ := Option.map_eq_some_iff.1 h
        refine ⟨old, hold, ?_⟩
        unfold Session.present
        split_ifs <;> exact ⟨rfl, rfl, rfl⟩
      · rw [Function.update_of_ne hc] at h
        exact ⟨ses, h, rfl, rfl, rfl⟩
  | status r =>
    dsimp only [Conn.learn] at h
    cases hu : r.userContext with
    | none =>
      rw [hu] at h
      exact ⟨ses, h, rfl, rfl, rfl⟩
    | some c' =>
      rw [hu] at h
      dsimp only at h
      by_cases hc : c = c'
      · subst hc
        rw [Function.update_self] at h
        obtain ⟨old, hold, rfl⟩ := Option.map_eq_some_iff.1 h
        exact ⟨old, hold, rfl, rfl, rfl⟩
      · rw [Function.update_of_ne hc] at h
        exact ⟨ses, h, rfl, rfl, rfl⟩
  | reply _ _ | wake | check | call | ret _ _ | settle | clear => exact ⟨ses, h, rfl, rfl, rfl⟩

/-- an operation that opens no session -/
theorem other_inv (h : s.Inv hasAcceptCb dataCb statusCb) {o : Receive.Op} (hnew : ∀ r env, o ≠ .target r env)
    (hl : s.conn.Legal o) : (s.step (.connector o)).Inv hasAcceptCb dataCb statusCb := by
  have hframe := step_frame s.conn.st o hnew
  have hopens : s.opens o = none := by
    cases o with
    | target r env => exact absurd rfl (hnew r env)
    | _ => rfl
  refine ⟨h.log, Conn.step_inv s.conn o h.conn hl, hframe.configuration.trans h.configuration, fun c ses hses => ?_⟩
  obtain ⟨old, hold, hkept⟩ := learn_keeps hnew hses
  have hopened : (s.step (.connector o)).opened c = s.opened c := by simp only [step, hopens]
  exact (h.sessions c old hold).keep hkept hopened (List.suffix_refl _) (hframe.settings c)

/-- what a target callback finds is what the calls have left -/
theorem Inv.getTargetEntry (h : s.Inv hasAcceptCb dataCb statusCb) {name : Str} (hname : name.length < 2 ^ 32) :
    getTargetEntry s.conn.st.svc name = latest ReceiveTarget.target s.log.history name := by
  have hlist : s.conn.st.svc.targetList = s.log.table.list.contents := by
    have hconf := h.configuration
    simp only [Svc.configuration, Prod.mk.injEq] at hconf
    exact hconf.2.2.2.2
  exact (h.log.getTargetEntry hlist hname).trans (h.log.map.lookup name hname)

theorem target_inv (h : s.Inv hasAcceptCb dataCb statusCb) {r : TargetReq} {env : TargetEnv}
    (hname : ∀ name ∈ r.target, name.length < 2 ^ 32) :
    (s.step (.connector (.target r env))).Inv hasAcceptCb dataCb statusCb := by
  have hst : (s.conn.step (.target r env)).st.svc = (processDeviceRequestTarget r env s.conn.st.svc).1 := by
    simp only [Conn.step, Conn.step_target h.conn.running]
  have hconf := h.configuration
  simp only [Svc.configuration, Prod.mk.injEq] at hconf
  obtain ⟨-, -, hgeneral, hstatus, -⟩ := hconf
  refine ⟨h.log, Conn.step_inv s.conn _ h.conn trivial, ?_, fun c ses hses => ?_⟩
  · show (s.conn.step (.target r env)).st.svc.configuration = _
    rw [hst, target_configuration, h.configuration]
    rfl
  -- a session that there was before is not in the next block, and keeps what it has
  have hbefore (hc : c ≠ s.conn.st.svc.heap.next) (hold : s.conn.sessions c = some ses)
      (hopened : (s.step (.connector (.target r env))).opened c = s.opened c) :
      (s.step (.connector (.target r env))).Registered dataCb statusCb c ses := by
    refine (h.sessions c ses hold).keep ⟨rfl, rfl, rfl⟩ hopened (List.suffix_refl _) fun a ha => ⟨a, ?_, rfl⟩
    rw [← target_ctx r env s.conn.st.svc hc, ← hst]
    exact ha
  cases hopen : openSession r env s.conn.st.svc with
  | none =>
    have hold : s.conn.sessions c = some ses := by simpa only [step, Conn.step, Conn.learn, hopen] using hses
    refine hbefore ?_ hold (by simp only [step, opens, hopen, Option.map_none])
    rintro rfl
    exact (h.conn.tracked hold).sync.allocated (h.conn.base.fresh _ le_rfl)
  | some p =>
    obtain ⟨n, new⟩ := p
    obtain ⟨rfl, hrequest, hdata, hmax, a, hctx, hset⟩ := openSession_settings hopen
    have hopens : s.opens (.target r env) = some s.conn.st.svc.heap.next := by simp only [opens, hopen, Option.map_some]
    have hses : Function.update s.conn.sessions s.conn.st.svc.heap.next (some new) c = some ses := by
      simpa only [step, Conn.step, Conn.learn, hopen] using hses
    by_cases hc : c = s.conn.st.svc.heap.next
    · subst hc
      rw [Function.update_self] at hses
      obtain rfl := Option.some.inj hses
      have hfound : (s.step (.connector (.target r env))).registered dataCb statusCb s.conn.st.svc.heap.next new =
          handling s.conn.st.svc.dataCb s.conn.st.svc.statusCb (Receive.getTargetEntry s.conn.st.svc new.target) := by
        rw [h.getTargetEntry (hname _ hrequest), hgeneral, hstatus]
        simp only [registered, step, hopens, Function.update_self]
      refine ⟨?_, hfound ▸ hdata, hfound ▸ hmax, fun b hb => ?_⟩
      · simp only [step, hopens, Function.update_self]
        exact List.suffix_refl _
      · have hlive : (s.conn.step (.target r env)).st.svc.ctx s.conn.st.svc.heap.next = .live b := hb
        rw [hst, hctx] at hlive
        rw [← Cell.live.inj hlive, hset, hfound]
        exact ⟨rfl, rfl⟩
    · rw [Function.update_of_ne hc] at hses
      exact hbefore hc hses (by simp only [step, hopens, Function.update_of_ne hc])

/-- **Step.** -/
theorem step_inv (s : Switchboard) (o : Op) (h : s.Inv hasAcceptCb dataCb statusCb) (hl : s.Legal o) :
    (s.step o).Inv hasAcceptCb dataCb statusCb := by
  cases o with
  | call o => exact call_inv h hl
  | connector o =>
    obtain ⟨hconn, hshort⟩ := hl
    by_cases hnew : ∃ r env, o = .target r env
    · obtain ⟨r, env, rfl⟩ := hnew
      exact target_inv h hshort
    · exact other_inv h (fun r env ho => hnew ⟨r, env, ho⟩) hconn

theorem fresh_inv (entry : ℕ → ReceiveTarget) :
    (fresh hasAcceptCb dataCb statusCb entry).Inv hasAcceptCb dataCb statusCb := by
  refine ⟨Tables.Targets.inv_fresh entry, Conn.inv_init ⟨init_fresh _ _ _ _, fun _ => rfl⟩, rfl, fun c ses hses => ?_⟩
  cases hses

end

/-! ## Main result -/

/-- what a session is owed, with what was registered for it when it was opened -/
structure Handled (dataCb statusCb : Option ℕ) (s : Switchboard) (c : ℕ) (ses : Session) : Prop where
  /-- the calls before its opening -/
  since : s.opened c <:+ s.log.history
  callback : ses.dataCb = (s.registered dataCb statusCb c ses).dataCb
  limit : ses.maxSize = (s.registered dataCb statusCb c ses).maxRequestSize
  /-- the user is called for it at most once, by that callback and within that limit, with its whole request -/
  handedOver : s.conn.Exact c ses
  /-- and is told of its end by that status callback -/
  status : ∀ r call, r.userContext = some c → (processDeviceRequestStatus r s.conn.st.svc).2.2 = some call →
    some call.cb = (s.registered dataCb statusCb c ses).statusCb ∧ call.target = some ses.target

/-- a status callback's call of the user is the context's -/
theorem statusCall_some {s : Svc} {r : StatusReq} {call : StatusCall} {c : ℕ} (hu : r.userContext = some c)
    (h : (processDeviceRequestStatus r s).2.2 = some call) :
    ∃ a, s.ctx c = .live a ∧ some call.cb = a.settings.handling.statusCb ∧ call.target = a.settings.target := by
  unfold processDeviceRequestStatus at h
  cases hsession : s.session r.userContext with
  | none =>
    rw [hsession] at h
    cases h
  | some p =>
    obtain ⟨c', a⟩ := p
    obtain ⟨hu', hc⟩ := session_some hsession
    rw [hu] at hu'
    cases hu'
    rw [hsession] at h
    dsimp only at h
    refine ⟨a, hc, ?_⟩
    split at h
    · cases h
    · unfold statusCall at h
      dsimp only at h
      split at h
      next cb _ hcb =>
        cases h
        exact ⟨hcb.symm, rfl⟩
      · cases h

/-- **Registered targets and sessions.** In every run of calls and of the connector's callbacks with the receive thread's steps,
each session is handled by what was registered for its target when it was opened, whatever the application adds or removes
afterwards; and a target callback with memory opens a session exactly when its name is registered then, or there is a general
data callback and the user does not refuse. -/
theorem handled_as_registered (hasAcceptCb : Bool) (dataCb statusCb : Option ℕ) (entry : ℕ → ReceiveTarget) (ops : List Op)
    (hl : Along step Legal (fresh hasAcceptCb dataCb statusCb entry) ops) :
    let s := run step (fresh hasAcceptCb dataCb statusCb entry) ops
    (∀ c ses, s.conn.sessions c = some ses → s.Handled dataCb statusCb c ses) ∧
      ∀ r env name, r.target = some name → name.length < 2 ^ 32 → r.userContext = none → env.contextOk = true →
        env.targetOk = true → ((processDeviceRequestTarget r env s.conn.st.svc).2.1 = .cont ↔
          latest ReceiveTarget.target s.log.history name ≠ none ∨
            dataCb ≠ none ∧ (hasAcceptCb = true → env.accepts = true)) := by
  intro s
  have h : s.Inv hasAcceptCb dataCb statusCb := Runs.run_inv step_inv (fresh_inv entry) hl
  constructor
  · intro c ses hses
    obtain ⟨hsince, hdata, hmax, hcontext⟩ := h.sessions c ses hses
    refine ⟨hsince, hdata, hmax, h.conn.exactness hses, fun r call hu hcall => ?_⟩
    obtain ⟨a, hc, hcb, htarget⟩ := statusCall_some hu hcall
    obtain ⟨hname, hhandling⟩ := hcontext a hc
    exact ⟨hcb.trans (by rw [hhandling]), htarget.trans hname⟩
  · intro r env name hrequest hname hu hc hm
    have hconf := h.configuration
    simp only [Svc.configuration, Prod.mk.injEq] at hconf
    obtain ⟨hsup, haccept, hdata, -, -⟩ := hconf
    rw [target_accepts hrequest hu hc hm hsup, h.getTargetEntry hname, haccept, hdata]

/-- a target is taken out and registered anew while a session of it is open -/
def reregistered : List Op :=
  [.call (.add ⟨some (ascii "a"), some 8, some 5, 4, true, true⟩ ⟨.ok, .ok⟩),
    .connector (.target ⟨some (ascii "a"), .tcp, true, none⟩ ⟨true, true, true⟩),
    .connector (.data ⟨some 0, [1, 2], true⟩ true), .call (.remove (some (ascii "a")) ⟨.ok, .ok⟩),
    .call (.add ⟨some (ascii "a"), some 9, none, 2, true, true⟩ ⟨.ok, .ok⟩),
    .connector (.target ⟨some (ascii "a"), .udp, false, none⟩ ⟨true, true, true⟩),
    .connector (.data ⟨some 0, [3, 4], false⟩ true), .connector (.data ⟨some 0, [3, 4], false⟩ true), .connector .wake,
    .connector .check, .connector .call]

theorem handled_reregistered :
    let s := run step (fresh true (some 7) none fun _ => ⟨[], 0, none, 0⟩) reregistered
    ∃ a b, s.conn.sessions 0 = some a ∧ s.conn.sessions 3 = some b ∧ a.dataCb = some 8 ∧ b.dataCb = some 9 ∧
      s.Handled (some 7) none 0 a ∧ s.Handled (some 7) none 3 b ∧
      s.conn.st.calls.map (fun k => (k.cb, k.request)) = [(some 8, [1, 2, 3, 4])] := by
  have hlegal : Along step Legal (fresh true (some 7) none fun _ => ⟨[], 0, none, 0⟩) reregistered := by decide
  have h := handled_as_registered true (some 7) none (fun _ => ⟨[], 0, none, 0⟩) reregistered hlegal
  refine ⟨_, _, rfl, rfl, ?_, ?_, h.1 _ _ rfl, h.1 _ _ rfl, ?_⟩ <;> decide

end Switchboard

end CcApi.Receive
