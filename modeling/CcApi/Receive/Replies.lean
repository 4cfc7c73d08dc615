/-
The replies of the receive service (`ccapi_process_device_request_response`, `fill_internal_error`).

The connector presents a session's request, and when that has had its last answer it asks for the response, any number of
bytes at a time. What it is given comes from the record the user's data callback has filled, or, where an error is recorded
and the record is empty, from a message that the first reply builds. The cursor `response_processing` is a copy of the record;
the record itself goes back to the user.

- `Said`: what has passed between connector, user and library about a session.
- `Phase`: what the context of a session agrees with.
- `step_inv`: every step keeps that, whatever is cancelled.
- `Inv.answered`: what is handed out is the response, in order and whole, and the user gets its record back.
-/
import CcApi.Cursor
import CcApi.Receive.Handoff

namespace CcApi.Receive

open Lib Lib.Runs Lib.Drain

/-! ## What has been said -/

/-- the record that the user has filled, and the bytes it points to -/
structure Left where
  record : BufferInfo
  bytes : List UInt8
deriving DecidableEq

structure Said where
  /-- the request has had its last answer -/
  ended : Bool
  left : Option Left
  /-- the messages that replies were about to build; `none` where there was no memory for one -/
  tried : List (Option Str)
  given : List (Piece UInt8)
deriving DecidableEq

def Said.nothing : Said := ⟨false, none, [], []⟩

/-- what the session's response is -/
def Said.response (d : Said) : List UInt8 :=
  match d.tried with
  | some message :: _ => message
  | _ => (d.left.map Left.bytes).getD []

/-- an answer to a data callback; the request ends with an error, and with the last segment's answer unless that is busy -/
def Said.heard (d : Said) (answer : CallbackStatus) (moreData : Bool) : Said :=
  { d with ended := d.ended || decide (answer = .error) || (decide (answer = .cont) && !moreData) }

/-- a reply; the message it was about to build, and what it handed out -/
def Said.replied (d : Said) (message : Option (Option Str)) (reply : Option Reply) : Said :=
  { d with
    tried := d.tried ++ message.toList
    given := d.given ++ (reply.map fun r => ⟨r.buffer, r.moreData⟩).toList }

/-- the next reply builds a message -/
def SvcReceive.builds (a : SvcReceive) : Prop :=
  a.responseRequired = true ∧ a.receiveError ≠ .none ∧ a.responseHandledInternally = false ∧ a.responseBufferInfo.length = 0

instance (a : SvcReceive) : Decidable a.builds := inferInstanceAs (Decidable (_ ∧ _))

/-- the message that a reply is about to build -/
def Svc.message (r : ReplyReq) (ok : Bool) (s : Svc) : Option (Option Str) :=
  match s.session r.userContext with
  | some (_, a) =>
    if a.builds then a.target.map fun t => if ok then some (internalErrorText a.receiveError t.text) else none else none
  | none => none

/-- what a reply hands out -/
def Svc.reply (r : ReplyReq) (ok : Bool) (s : Svc) : Option Reply := (processDeviceRequestResponse r ok s).bind fun p => p.2.2

/-- the record that the user's data callback fills with context c -/
def Svc.leaves (c : ℕ) (response : Option (List UInt8)) (s : Svc) : Option Left :=
  match response, s.ctx c with
  | some bytes, .live a => if a.responseRequired then some ⟨⟨some ⟨s.heap.next, 0⟩, bytes.length⟩, bytes⟩ else none
  | _, _ => none

/-- the machine, and what has been said about each session -/
structure Talk where
  st : St
  said : ℕ → Said

namespace Talk

def learn (t : Talk) : Op → ℕ → Said
  | .target r env =>
    match r.userContext, (processDeviceRequestTarget r env t.st.svc).2 with
    | none, (status, some c) => Function.update t.said c { Said.nothing with ended := decide (status = .error) }
    | _, _ => t.said
  | .data d ok =>
    match d.userContext with
    | some c =>
      Function.update t.said c ((t.said c).heard (processDeviceRequestData d ok t.st.svc).2.1 d.moreData)
    | none => t.said
  | .reply r ok =>
    match r.userContext with
    | some c => Function.update t.said c ((t.said c).replied (t.st.svc.message r ok) (t.st.svc.reply r ok))
    | none => t.said
  | .ret _ response =>
    match t.st.pc with
    | .calling c =>
      Function.update t.said c { t.said c with left := (t.st.svc.leaves c response).or (t.said c).left }
    | _ => t.said
  | _ => t.said

def step (t : Talk) (o : Op) : Talk := if t.st.crashed then t else { st := Receive.step t.st o, said := t.learn o }

/-- the connector presents a request until that has ended, and asks for the response then -/
def Legal (t : Talk) : Op → Prop
  | .data d _ => ∀ c ∈ d.userContext, (t.said c).ended = false
  | .reply r _ => ∀ c ∈ r.userContext, (t.said c).ended = true
  | _ => True

instance (t : Talk) : ∀ o, Decidable (t.Legal o)
  | .data d _ => inferInstanceAs (Decidable (∀ c ∈ d.userContext, (t.said c).ended = false))
  | .reply r _ => inferInstanceAs (Decidable (∀ c ∈ r.userContext, (t.said c).ended = true))
  | .target .. | .status _ | .wake | .check | .call | .ret .. | .settle | .clear => inferInstanceAs (Decidable True)

structure Init (t : Talk) : Prop where
  st : Receive.Init t.st
  said : ∀ c, t.said c = Said.nothing

/-- what the replies to session c are worth -/
structure Answered (t : Talk) (c : ℕ) : Prop where
  /-- in order, nothing twice, and each tells whether something is left -/
  streams : Streams (t.said c).response (t.said c).given
  whole : ∀ before p behind, (t.said c).given = before ++ p :: behind → p.more = false →
    handed (before ++ [p]) = (t.said c).response
  once : (t.said c).tried.length ≤ 1
  /-- the status callback gives the user the record it has left, unless a message was to take its place -/
  record : ∀ r k, r.userContext = some c → (processDeviceRequestStatus r t.st.svc).2.2 = some k → (t.said c).tried = [] →
    k.response = (t.said c).left.map Left.record

end Talk

/-! ## A session's context -/

/-- the context agrees with what has been said -/
structure Phase (h : Heap) (supported : Bool) (d : Said) (a : SvcReceive) : Prop extends
    Replying ReceiveThreadStatus.idle .free h d.response d.ended d.tried d.given a.receiveThreadStatus a.responseHandledInternally
      a.responseProcessing.buffer a.responseProcessing.length where
  supported : d.ended = false → supported = true
  uncalled : a.receiveThreadStatus = .idle ∨ a.receiveThreadStatus = .dataCbReady → d.left = none
  optional : a.responseRequired = false → d.left = none
  left : ∀ l, d.left = some l → l.record.buffer ≠ none ∧ h.Holds l.record.buffer l.record.length l.bytes
  record : d.tried = [] →
    a.responseHandledInternally = false ∧ a.responseBufferInfo = (d.left.map Left.record).getD ⟨none, 0⟩
  unloaded : a.receiveThreadStatus ≠ .free → d.tried = [] → a.responseProcessing = ⟨none, 0⟩
  /-- once a reply has been given no message takes the response's place -/
  kept : d.given ≠ [] → ¬ a.builds

/-- a session that has no context yet has not been talked about; one whose context is freed is over -/
def Tracked (h : Heap) (supported : Bool) (d : Said) : Cell SvcReceive → Prop
  | .unallocated => d.left = none ∧ d.tried = [] ∧ d.given = []
  | .live a => Phase h supported d a
  | .freed _ => Streams d.response d.given ∧ d.tried.length ≤ 1

theorem Phase.keeps {h h' : Heap} {supported : Bool} {d : Said} {a : SvcReceive} (hp : Phase h supported d a)
    (hk : h.Keeps h') : Phase h' supported d a :=
  { hp with
    toReplying := hp.toReplying.keeps hk
    left := fun l hl => ⟨(hp.left l hl).1, (hp.left l hl).2.keeps hk⟩ }

theorem Tracked.keeps {h h' : Heap} {supported : Bool} {d : Said} {x : Cell SvcReceive} (hx : Tracked h supported d x)
    (hk : h.Keeps h') : Tracked h' supported d x := by
  cases x with
  | unallocated => exact hx
  | live a => exact Phase.keeps hx hk
  | freed a => exact hx

theorem response_of_untried {d : Said} (h : d.tried = []) : d.response = (d.left.map Left.bytes).getD [] := by
  simp [Said.response, h]

/-- the record, as long as no message has taken its place -/
theorem Phase.holds_record {h : Heap} {supported : Bool} {d : Said} {a : SvcReceive} (hp : Phase h supported d a)
    (ht : d.tried = []) : h.Holds a.responseBufferInfo.buffer a.responseBufferInfo.length d.response := by
  rw [(hp.record ht).2, response_of_untried ht]
  cases hl : d.left with
  | none => exact Heap.holds_nil h
  | some l => exact (hp.left l hl).2

/-- a session that no reply has been given to -/
theorem phase_of_unasked {h : Heap} {supported : Bool} {d : Said} {a : SvcReceive} (hd : d.given = [] ∧ d.tried = [])
    (settled : d.ended = true → a.receiveThreadStatus = .idle ∨ a.receiveThreadStatus = .free)
    (hsupported : d.ended = false → supported = true)
    (uncalled : a.receiveThreadStatus = .idle ∨ a.receiveThreadStatus = .dataCbReady → d.left = none)
    (optional : a.responseRequired = false → d.left = none)
    (left : ∀ l, d.left = some l → l.record.buffer ≠ none ∧ h.Holds l.record.buffer l.record.length l.bytes)
    (record : a.responseHandledInternally = false ∧ a.responseBufferInfo = (d.left.map Left.record).getD ⟨none, 0⟩)
    (unloaded : a.receiveThreadStatus ≠ .free → a.responseProcessing = ⟨none, 0⟩)
    (cursor : a.receiveThreadStatus = .free ∨ d.ended = true →
      h.Holds a.responseProcessing.buffer a.responseProcessing.length ((d.left.map Left.bytes).getD [])) :
    Phase h supported d a where
  toReplying := .of_unasked hd settled (by rwa [response_of_untried hd.2])
  supported := hsupported
  uncalled := uncalled
  optional := optional
  left := left
  record _ := record
  unloaded hs _ := unloaded hs
  kept hne := absurd hd.1 hne

/-! ## The callbacks -/

/-- the registered targets and the user leave the response alone -/
theorem acceptTarget_response (s : Svc) (target : Str) (accepts : Bool) (a : SvcReceive) :
    let b := (acceptTarget s target accepts a).1
    b.responseHandledInternally = a.responseHandledInternally ∧ b.responseBufferInfo = a.responseBufferInfo ∧
      b.responseProcessing = a.responseProcessing := by
  unfold acceptTarget
  cases s.receiveSupported
  · simp
  · cases getTargetEntry s target with
    | some t => simp
    | none => by_cases hcb : a.dataCb = none <;> by_cases hno : s.hasAcceptCb = true ∧ accepts = false <;> simp [hcb, hno]

theorem acceptTarget_unsupported {s : Svc} (h : s.receiveSupported = false) (target : Str) (accepts : Bool)
    (a : SvcReceive) : (acceptTarget s target accepts a).2 = .error := by simp [acceptTarget, h]

/-- a target callback without a context opens none, or one that nothing has been said about -/
theorem target_opens (r : TargetReq) (env : TargetEnv) (s : Svc) :
    let p := processDeviceRequestTarget r env s
    (p.1.ctx = s.ctx ∧ (r.userContext = none → p.2.2 = none)) ∨
      ∃ a : SvcReceive, r.userContext = none ∧ p.2.2 = some s.heap.next ∧
        p.1.ctx = Function.update s.ctx s.heap.next (.live a) ∧ a.receiveThreadStatus = .idle ∧
        a.responseHandledInternally = false ∧ a.responseBufferInfo = ⟨none, 0⟩ ∧ a.responseProcessing = ⟨none, 0⟩ ∧
        (s.receiveSupported = false → p.2.1 = .error) := by
  unfold processDeviceRequestTarget
  cases r.target with
  | none => exact .inl ⟨rfl, id⟩
  | some target =>
    by_cases hu : r.userContext.isSome = true
    · refine .inl ⟨by simp [hu], fun hnone => ?_⟩
      rw [hnone] at hu
      cases hu
    have hnone : r.userContext = none := by simpa using hu
    cases hc : env.contextOk with
    | false => exact .inl ⟨by simp [hu, Heap.malloc], fun _ => by simp [hu, Heap.malloc]⟩
    | true =>
      cases ht : env.targetOk with
      | false =>
        refine .inr ⟨_, hnone, by simp [hu, Heap.malloc], by simp [hu, Heap.malloc, Svc.put]; rfl, rfl, rfl, rfl, rfl,
          fun _ => by simp [hu, Heap.malloc]⟩
      | true =>
        simp only [hu, Heap.malloc, if_true, Svc.put, Bool.false_eq_true, if_false]
        have hkeeps := acceptTarget_keeps s target env.accepts
          { newContext r s with target := some ⟨s.heap.next + 1, target⟩ }
        have hresponse := acceptTarget_response s target env.accepts
          { newContext r s with target := some ⟨s.heap.next + 1, target⟩ }
        exact .inr ⟨_, hnone, trivial, rfl, hkeeps.2.2.2.2, hresponse.1, hresponse.2.1, hresponse.2.2,
          fun h => acceptTarget_unsupported h _ _ _⟩

/-- what a data callback leaves of its session: the context rewritten, in agreement with what has then been said -/
def Follows (s t : Svc) (c : ℕ) (d : Said) : Prop :=
  ∃ a' heap slot, t = ({ s with heap := heap, svcReceive := slot } : Svc).put c a' ∧ s.heap.Keeps heap ∧
    Phase heap s.receiveSupported d a'

theorem Said.heard_busy {d : Said} (h : d.ended = false) (more : Bool) : d.heard .busy more = d := by
  cases d
  simp_all [Said.heard]

theorem Said.heard_error (d : Said) (more : Bool) : d.heard .error more = { d with ended := true } := by simp [Said.heard]

section Unasked

variable {h : Heap} {supported : Bool} {d : Said} {a : SvcReceive} (hp : Phase h supported d a) (hended : d.ended = false)
include hp hended

/-- a session whose request is over without the user having been called -/
theorem Phase.dropped (hst : a.receiveThreadStatus = .idle) (e : ReceiveError) :
    Phase h supported { d with ended := true } { a with receiveError := e, receiveThreadStatus := .free } := by
  obtain ⟨hgiven, htried⟩ := hp.unasked hended
  have hleft := hp.uncalled (.inl hst)
  refine phase_of_unasked ⟨hgiven, htried⟩ (fun _ => .inr rfl) (fun he => by cases he) (fun _ => hleft) (fun _ => hleft)
    hp.left (hp.record htried) (fun hne => absurd rfl hne) fun _ => ?_
  dsimp only
  rw [hp.unloaded (by rw [hst]; decide) htried, hleft]
  exact Heap.holds_nil h

/-- a session whose request goes on -/
theorem Phase.onward {h' : Heap} (hk : h.Keeps h') {a' : SvcReceive} (hnext : a'.receiveThreadStatus ≠ .free)
    (hcalled : a'.receiveThreadStatus = .idle ∨ a'.receiveThreadStatus = .dataCbReady → d.left = none)
    (hreq : a'.responseRequired = a.responseRequired) (hhandled : a'.responseHandledInternally = a.responseHandledInternally)
    (hrecord : a'.responseBufferInfo = a.responseBufferInfo) (hprocessing : a'.responseProcessing = a.responseProcessing)
    (hst : a.receiveThreadStatus ≠ .free) : Phase h' supported d a' := by
  obtain ⟨hgiven, htried⟩ := hp.unasked hended
  refine phase_of_unasked ⟨hgiven, htried⟩ (fun he => ?_) hp.supported hcalled ?_
    (fun l hl => ⟨(hp.left l hl).1, (hp.left l hl).2.keeps hk⟩) ?_ (fun _ => ?_) fun he => ?_
  · rw [hended] at he
    cases he
  · rw [hreq]
    exact hp.optional
  · rw [hhandled, hrecord]
    exact hp.record htried
  · rw [hprocessing]
    exact hp.unloaded hst htried
  · rcases he with he | he
    · exact absurd he hnext
    · rw [hended] at he
      cases he

/-- the answer of the user is collected: the cursor is set to the record -/
theorem Phase.collected {h' : Heap} (hk : h.Keeps h') (hst : a.receiveThreadStatus = .dataCbProcessed) (ended : Bool) :
    Phase h' supported { d with ended := ended }
      { a with
        responseProcessing := if a.responseRequired then a.responseBufferInfo else a.responseProcessing
        receiveThreadStatus := .free } := by
  obtain ⟨hgiven, htried⟩ := hp.unasked hended
  refine phase_of_unasked ⟨hgiven, htried⟩ (fun _ => .inr rfl) (fun _ => hp.supported hended) (fun he => ?_) hp.optional
    (fun l hl => ⟨(hp.left l hl).1, (hp.left l hl).2.keeps hk⟩) (hp.record htried) (fun hne => absurd rfl hne) fun _ => ?_
  · rcases he with he | he <;> cases he
  · dsimp only
    split_ifs with hreq
    · have hrecord := (hp.holds_record htried).keeps hk
      rwa [response_of_untried htried] at hrecord
    · rw [hp.unloaded (by rw [hst]; decide) htried, hp.optional (by simpa using hreq)]
      exact Heap.holds_nil h'

end Unasked

theorem data_follows {r : DataReq} {ok : Bool} {s : Svc} {c : ℕ} {a : SvcReceive} {d : Said}
    (hu : s.session r.userContext = some (c, a)) (hp : Phase s.heap s.receiveSupported d a) (hended : d.ended = false) :
    Follows s (processDeviceRequestData r ok s).1 c (d.heard (processDeviceRequestData r ok s).2.1 r.moreData) := by
  have hs : s.receiveSupported = true := hp.supported hended
  have hc := (session_some hu).2
  cases hst : a.receiveThreadStatus with
  | idle =>
    rw [data_idle hu hs hst]
    have hleft := hp.uncalled (.inl hst)
    obtain ⟨-, -, he⟩ | ⟨-, -, he⟩ | ⟨-, -, heap, hk, -, -, he⟩ := appendSegment_cases c a r ok s
    · rw [he, Said.heard_error]
      exact ⟨_, s.heap, s.svcReceive, rfl, Heap.Keeps.refl _, hp.dropped hended hst _⟩
    · rw [he, Said.heard_error]
      exact ⟨_, s.heap, s.svcReceive, rfl, Heap.Keeps.refl _, hp.dropped hended hst _⟩
    · rw [he]
      refine ⟨_, heap, s.svcReceive, rfl, hk, ?_⟩
      cases hm : r.moreData with
      | true =>
        have hsame : d.heard .cont true = d := by simp [Said.heard]
        simp only [if_true, hsame]
        exact hp.onward hended hk (by simp [hst]) (fun _ => hleft) rfl rfl rfl rfl (by simp [hst])
      | false =>
        simp only [Bool.false_eq_true, if_false, Said.heard_busy hended]
        exact hp.onward hended hk (by simp) (fun _ => hleft) rfl rfl rfl rfl (by simp [hst])
  | dataCbReady =>
    by_cases hslot : s.svcReceive = none
    · rw [data_offered hu hs hst hslot, Said.heard_busy hended]
      exact ⟨_, s.heap, some c, rfl, Heap.Keeps.refl _,
        hp.onward hended (Heap.Keeps.refl _) (by simp) (by simp) rfl rfl rfl rfl (by simp [hst])⟩
    · rw [data_waits hu hs (.inl ⟨hst, hslot⟩), Said.heard_busy hended]
      exact ⟨a, s.heap, s.svcReceive, by simp [Svc.put, ← hc], Heap.Keeps.refl _, hp⟩
  | dataCbQueued =>
    rw [data_waits hu hs (.inr hst), Said.heard_busy hended]
    exact ⟨a, s.heap, s.svcReceive, by simp [Svc.put, ← hc], Heap.Keeps.refl _, hp⟩
  | dataCbProcessed =>
    obtain ⟨heap, hk, -, -, he⟩ := @data_processed _ ok _ _ _ hu hs hst
    rw [he]
    exact ⟨_, heap, s.svcReceive, rfl, hk, hp.collected hended hk hst _⟩
  | free =>
    obtain ⟨hgiven, htried⟩ := hp.unasked hended
    rw [data_free hu hs hst, Said.heard_error]
    refine ⟨a, s.heap, s.svcReceive, by simp [Svc.put, ← hc], Heap.Keeps.refl _, ?_⟩
    have hcursor := hp.cursor (.inl hst)
    rw [response_of_untried htried, hgiven] at hcursor
    exact phase_of_unasked ⟨hgiven, htried⟩ (fun _ => .inr hst) (fun he => by cases he) hp.uncalled hp.optional hp.left
      (hp.record htried) (fun hne => absurd hst hne) fun _ => hcursor

/-! ## The replies -/

/-- the cursor behind m bytes -/
def BufferInfo.skip (m : ℕ) (b : BufferInfo) : BufferInfo :=
  ⟨b.buffer.map fun p => { p with off := p.off + m }, b.length - m⟩

theorem sendReply_eq (r : ReplyReq) (a : SvcReceive) (heap : Heap) :
    sendReply r a heap =
      ({ a with responseProcessing := a.responseProcessing.skip (min a.responseProcessing.length r.bytesAvailable) },
        ⟨heap.bytes a.responseProcessing.buffer (min a.responseProcessing.length r.bytesAvailable),
          decide (a.responseProcessing.length - min a.responseProcessing.length r.bytesAvailable > 0)⟩) := rfl

/-- what the first reply makes of a session it builds a message for -/
def SvcReceive.withMessage (message : Option BufferInfo) (a : SvcReceive) : SvcReceive :=
  match message with
  | some b => { a with responseHandledInternally := true, responseBufferInfo := b, responseProcessing := b }
  | none =>
    { a with
      responseHandledInternally := true, receiveError := .insufficientMemory
      responseBufferInfo := { a.responseBufferInfo with buffer := none }
      responseProcessing := { a.responseBufferInfo with buffer := none } }

section Reply

variable (ok : Bool) {r : ReplyReq} {s : Svc} {c : ℕ} {a : SvcReceive} (hu : s.session r.userContext = some (c, a))
include hu

theorem reply_optional (hreq : a.responseRequired = false) :
    processDeviceRequestResponse r ok s = some (s, .error, none) := by
  simp [processDeviceRequestResponse, hu, hreq]

theorem reply_streams (hreq : a.responseRequired = true) (hb : ¬ a.builds) :
    processDeviceRequestResponse r ok s =
      some (s.put c (sendReply r a s.heap).1, .cont, some (sendReply r a s.heap).2) := by
  have hnot : ¬ (a.receiveError ≠ .none ∧ a.responseHandledInternally = false ∧ a.responseBufferInfo.length = 0) :=
    fun h => hb ⟨hreq, h⟩
  rw [processDeviceRequestResponse, hu]
  dsimp only
  rw [if_neg (not_not.2 hreq), if_neg hnot]

theorem reply_crashes (hb : a.builds) (ht : a.target = none) : processDeviceRequestResponse r ok s = none := by
  rw [processDeviceRequestResponse, hu]
  dsimp only
  rw [if_neg (not_not.2 hb.1), if_pos hb.2]
  simp [fillInternalError, ht]

theorem reply_builds (hb : a.builds) {target : HeapStr} (ht : a.target = some target) :
    ∃ heap message, s.heap.Keeps heap ∧
      (if ok then message = some ⟨some ⟨s.heap.next, 0⟩, (internalErrorText a.receiveError target.text).length⟩ ∧
          heap.Holds (some ⟨s.heap.next, 0⟩) (internalErrorText a.receiveError target.text).length
            (internalErrorText a.receiveError target.text)
        else message = none) ∧
      processDeviceRequestResponse r ok s =
        some (({ s with heap := heap } : Svc).put c (sendReply r (a.withMessage message) heap).1, .cont,
          some (sendReply r (a.withMessage message) heap).2) := by
  rw [processDeviceRequestResponse, hu]
  dsimp only
  rw [if_neg (not_not.2 hb.1), if_pos hb.2]
  cases ok with
  | false => exact ⟨s.heap, none, Heap.Keeps.refl _, by simp, by simp [fillInternalError, ht, Heap.malloc, SvcReceive.withMessage]⟩
  | true =>
    refine ⟨_, some ⟨some ⟨s.heap.next, 0⟩, (internalErrorText a.receiveError target.text).length⟩,
      (Heap.keeps_malloc (internalErrorSize a.receiveError target.text) true s.heap).write le_rfl 0
        ((internalErrorText a.receiveError target.text).length + 1)
        fun i => (internalErrorText a.receiveError target.text).getD i 0, ?_, ?_⟩
    · rw [if_pos rfl]
      exact ⟨rfl, Heap.holds_write (Nat.lt_succ_self _) (Nat.le_succ _)⟩
    · simp [fillInternalError, ht, Heap.malloc, SvcReceive.withMessage]

end Reply

theorem message_eq {r : ReplyReq} {ok : Bool} {s : Svc} {c : ℕ} {a : SvcReceive} (hu : s.session r.userContext = some (c, a)) :
    s.message r ok =
      if a.builds then a.target.map fun t => if ok then some (internalErrorText a.receiveError t.text) else none else none := by
  rw [Svc.message, hu]

/-- a reply that hands out what the cursor points to -/
theorem Phase.replied {h : Heap} {supported : Bool} {d : Said} {a : SvcReceive} (hp : Phase h supported d a)
    (hended : d.ended = true) (hb : ¬ a.builds) (r : ReplyReq) :
    Phase h supported (d.replied none (some (sendReply r a h).2)) (sendReply r a h).1 := by
  have hr := hp.toReplying.reply hended r.bytesAvailable
  have htried : (d.replied none (some (sendReply r a h).2)).tried = d.tried := List.append_nil _
  have hresponse : (d.replied none (some (sendReply r a h).2)).response = d.response := by rw [Said.response, htried]; rfl
  rw [sendReply_eq] at *
  exact
    { toReplying := by
        rw [hresponse, htried]
        exact hr
      supported := hp.supported
      uncalled := hp.uncalled
      optional := hp.optional
      left := hp.left
      record := fun ht => hp.record (htried ▸ ht)
      unloaded := fun hs ht => by
        dsimp only
        rw [hp.unloaded hs (htried ▸ ht)]
        rfl
      kept := fun _ => hb }

/-- a reply that first builds its message, or finds no memory for it -/
theorem Phase.replied_message {h h' : Heap} {supported : Bool} {d : Said} {a : SvcReceive} (hp : Phase h supported d a)
    (hk : h.Keeps h') (hended : d.ended = true) (hb : a.builds) {message : Option BufferInfo} {text : Option Str}
    (hm : (∃ m b, message = some b ∧ text = some m ∧ h'.Holds b.buffer b.length m) ∨ (message = none ∧ text = none))
    (r : ReplyReq) :
    Phase h' supported (d.replied (some text) (some (sendReply r (a.withMessage message) h').2))
      (sendReply r (a.withMessage message) h').1 := by
  have hgiven : d.given = [] := by
    by_contra hne
    exact hp.kept hne hb
  have htried : d.tried = [] := by
    by_contra hne
    exact absurd (hb.2.2.1.symm.trans (hp.handled hne)) (by decide)
  have hlen : (d.left.map Left.bytes).getD [] = [] := by
    have hrecord := (hp.holds_record htried).length
    rw [hb.2.2.2, response_of_untried htried] at hrecord
    exact List.eq_nil_of_length_eq_zero hrecord
  set d' := d.replied (some text) (some (sendReply r (a.withMessage message) h').2) with hd'
  have hresponse : d'.response = text.getD [] := by
    rcases hm with ⟨m, b, -, rfl, -⟩ | ⟨-, rfl⟩
    · simp [hd', Said.response, Said.replied, htried]
    · simpa [hd', Said.response, Said.replied, htried] using hlen
  have hhandled : (a.withMessage message).responseHandledInternally = true := by cases message <;> rfl
  have hsame : (a.withMessage message).receiveThreadStatus = a.receiveThreadStatus ∧
      (a.withMessage message).responseRequired = a.responseRequired := by cases message <;> exact ⟨rfl, rfl⟩
  have hcursor : h'.Holds (a.withMessage message).responseProcessing.buffer
      (a.withMessage message).responseProcessing.length d'.response := by
    rw [hresponse]
    rcases hm with ⟨m, b, rfl, rfl, hholds⟩ | ⟨rfl, rfl⟩
    · exact hholds
    · dsimp only [SvcReceive.withMessage]
      rw [hb.2.2.2]
      exact Heap.holds_nil h'
  have hr := hp.toReplying.message hended text hcursor r.bytesAvailable
  have htried' : d'.tried = [text] := by simp [hd', Said.replied, htried]
  have hgiven' : d'.given = [⟨(sendReply r (a.withMessage message) h').2.buffer,
      (sendReply r (a.withMessage message) h').2.moreData⟩] := by simp [hd', Said.replied, hgiven]
  exact
    { toReplying := by
        rw [htried', hgiven', sendReply_eq]
        dsimp only
        rw [hhandled, hsame.1]
        exact hr
      supported := fun he => absurd (he.symm.trans hended) (by decide)
      uncalled := fun hs => hp.uncalled (by rw [sendReply_eq] at hs; exact hsame.1 ▸ hs)
      optional := fun hr => hp.optional (by rw [sendReply_eq] at hr; exact hsame.2 ▸ hr)
      left := fun l hl => ⟨(hp.left l hl).1, (hp.left l hl).2.keeps hk⟩
      record := fun ht => by simp [htried'] at ht
      unloaded := fun _ ht => by simp [htried'] at ht
      kept := fun _ hb' => by
        rw [sendReply_eq] at hb'
        exact absurd (hhandled.symm.trans hb'.2.2.1) (by decide) }

/-- **One reply.** -/
theorem reply_follows {r : ReplyReq} {ok : Bool} {s t : Svc} {status : CallbackStatus} {reply : Option Reply} {c : ℕ}
    {a : SvcReceive} {d : Said} (hu : s.session r.userContext = some (c, a)) (hp : Phase s.heap s.receiveSupported d a)
    (hended : d.ended = true) (ht : processDeviceRequestResponse r ok s = some (t, status, reply)) :
    Follows s t c (d.replied (s.message r ok) reply) := by
  have hc := (session_some hu).2
  cases hreq : a.responseRequired with
  | false =>
    have hb : ¬ a.builds := fun hb => absurd (hreq.symm.trans hb.1) (by decide)
    rw [reply_optional _ hu hreq] at ht
    simp only [Option.some.injEq, Prod.mk.injEq] at ht
    obtain ⟨rfl, rfl, rfl⟩ := ht
    have hsame : d.replied none none = d := by simp [Said.replied]
    rw [message_eq hu, if_neg hb, hsame]
    exact ⟨a, s.heap, s.svcReceive, by simp [Svc.put, ← hc], Heap.Keeps.refl _, hp⟩
  | true =>
    by_cases hb : a.builds
    · cases htarget : a.target with
      | none =>
        rw [reply_crashes _ hu hb htarget] at ht
        cases ht
      | some target =>
        obtain ⟨heap, message, hk, hmessage, he⟩ := reply_builds ok hu hb htarget
        rw [he] at ht
        simp only [Option.some.injEq, Prod.mk.injEq] at ht
        obtain ⟨rfl, rfl, rfl⟩ := ht
        rw [message_eq hu, if_pos hb, htarget]
        refine ⟨_, heap, s.svcReceive, rfl, hk, hp.replied_message hk hended hb ?_ r⟩
        cases ok with
        | true =>
          rw [if_pos rfl] at hmessage
          exact .inl ⟨_, _, hmessage.1, rfl, hmessage.2⟩
        | false => exact .inr ⟨hmessage, rfl⟩
    · rw [reply_streams _ hu hreq hb] at ht
      simp only [Option.some.injEq, Prod.mk.injEq] at ht
      obtain ⟨rfl, rfl, rfl⟩ := ht
      rw [message_eq hu, if_neg hb]
      exact ⟨_, s.heap, s.svcReceive, rfl, Heap.Keeps.refl _, hp.replied hended hb r⟩

/-! ## The user -/

/-- nothing is asked while the user is called -/
theorem Phase.queued {h : Heap} {supported : Bool} {d : Said} {a : SvcReceive} (hp : Phase h supported d a)
    (hst : a.receiveThreadStatus = .dataCbQueued) : d.ended = false :=
  hp.unended (by rw [hst]; decide) (by rw [hst]; decide)

/-- the user's data callback returns -/
theorem Phase.answered {h h' : Heap} {supported : Bool} {d : Said} {a a' : SvcReceive} (hp : Phase h supported d a)
    (hst : a.receiveThreadStatus = .dataCbQueued) {left : Option Left}
    (hsame : a'.receiveThreadStatus = a.receiveThreadStatus ∧ a'.responseRequired = a.responseRequired ∧
      a'.responseHandledInternally = a.responseHandledInternally ∧ a'.responseProcessing = a.responseProcessing)
    (hoptional : a.responseRequired = false → left = none)
    (hleft : ∀ l, left = some l → l.record.buffer ≠ none ∧ h'.Holds l.record.buffer l.record.length l.bytes)
    (hrecord : a'.responseBufferInfo = (left.map Left.record).getD ⟨none, 0⟩) :
    Phase h' supported { d with left := left } a' := by
  obtain ⟨hst', hreq, hhandled, hprocessing⟩ := hsame
  have hended := hp.queued hst
  obtain ⟨hgiven, htried⟩ := hp.unasked hended
  refine phase_of_unasked ⟨hgiven, htried⟩ (fun he => ?_) hp.supported (fun hs => ?_) (hreq ▸ hoptional) hleft
    ⟨hhandled.trans (hp.record htried).1, hrecord⟩ (fun _ => ?_) fun hs => ?_
  · exact absurd (hended.symm.trans he) (by decide)
  · rw [hst', hst] at hs
    rcases hs with hs | hs <;> cases hs
  · rw [hprocessing]
    exact hp.unloaded (by rw [hst]; decide) htried
  · rw [hst', hst] at hs
    rcases hs with hs | hs
    · cases hs
    · exact absurd (hended.symm.trans hs) (by decide)

theorem Phase.settle {h : Heap} {supported : Bool} {d : Said} {a : SvcReceive} (hp : Phase h supported d a) :
    Phase h supported d a.settle := by
  unfold SvcReceive.settle
  split_ifs with hst
  · exact hp.onward (hp.queued hst) (Heap.Keeps.refl h) (by simp) (by simp) rfl rfl rfl rfl (by rw [hst]; decide)
  · exact hp

/-- the record that the status callback gives back -/
theorem Phase.given_back {h : Heap} {supported : Bool} {d : Said} {a : SvcReceive} (hp : Phase h supported d a)
    (ht : d.tried = []) {s : Svc} {e : ReceiveError} {k : StatusCall}
    (hk : statusCall s { a with receiveError := e } = some k) : k.response = d.left.map Left.record := by
  obtain ⟨hhandled, hrecord⟩ := hp.record ht
  unfold statusCall at hk
  split at hk
  · obtain rfl := Option.some.inj hk
    dsimp only
    rw [hrecord]
    cases hl : d.left with
    | none => simp
    | some l =>
      have hreq : a.responseRequired = true := by
        by_contra hno
        rw [hp.optional (by simpa using hno)] at hl
        cases hl
      simp [hhandled, hreq, (hp.left l hl).1]
  · cases hk

/-! ## The invariant -/

namespace Talk

structure Inv (t : Talk) : Prop where
  fresh : Fresh t.st.svc
  grip : Handoff.Grip t.st.abs
  tracked : ∀ c, Tracked t.st.svc.heap t.st.svc.receiveSupported (t.said c) (t.st.svc.ctx c)

theorem inv_init {t : Talk} (h : t.Init) : t.Inv := by
  refine ⟨fun c _ => h.st.ctx c, Handoff.grip_init (abs_init h.st), fun c => ?_⟩
  rw [h.st.ctx, h.said]
  exact ⟨rfl, rfl, rfl⟩

/-- a step that touches one session -/
theorem Inv.touch {t : Talk} (h : t.Inv) {o : Op} (c : ℕ) (hcr : t.st.crashed = false)
    (hk : t.st.svc.heap.Keeps (Receive.step t.st o).svc.heap)
    (hsup : (Receive.step t.st o).svc.receiveSupported = t.st.svc.receiveSupported)
    (hctx : ∀ c', c' ≠ c → (Receive.step t.st o).svc.ctx c' = t.st.svc.ctx c')
    (hsaid : ∀ c', c' ≠ c → t.learn o c' = t.said c')
    (hself : Tracked (Receive.step t.st o).svc.heap (Receive.step t.st o).svc.receiveSupported (t.learn o c)
      ((Receive.step t.st o).svc.ctx c)) : (t.step o).Inv := by
  have hstep : t.step o = { st := Receive.step t.st o, said := t.learn o } := by simp [step, hcr]
  rw [hstep]
  refine ⟨step_fresh h.fresh o, step_grip h.fresh h.grip o, Cell.touch c hctx h.tracked (fun c' hne hx => ?_) hself⟩
  dsimp only
  rw [hsaid c' hne, hsup]
  exact hx.keeps hk

/-- a step that touches none -/
theorem Inv.same {t : Talk} (h : t.Inv) {o : Op} (hcr : t.st.crashed = false) (hsvc : (Receive.step t.st o).svc.heap =
    t.st.svc.heap ∧ (Receive.step t.st o).svc.receiveSupported = t.st.svc.receiveSupported ∧
      (Receive.step t.st o).svc.ctx = t.st.svc.ctx) (hsaid : t.learn o = t.said) : (t.step o).Inv := by
  obtain ⟨hheap, hsup, hctx⟩ := hsvc
  refine h.touch 0 hcr (hheap ▸ Heap.Keeps.refl _) hsup (fun _ _ => by rw [hctx]) (fun _ _ => by rw [hsaid]) ?_
  rw [hheap, hsup, hctx, hsaid]
  exact h.tracked 0

theorem session_none_or (s : Svc) (c : ℕ) : s.session (some c) = none ∨ ∃ a, s.session (some c) = some (c, a) := by
  cases hc : s.ctx c <;> simp [Svc.session, hc]

/-- what is said of a session that has no live context is not about its response -/
theorem tracked_heard {h : Heap} {supported : Bool} {d : Said} {x : Cell SvcReceive} (hx : Tracked h supported d x)
    (hlive : x.isLive = false) (answer : CallbackStatus) (more : Bool) : Tracked h supported (d.heard answer more) x := by
  cases x with
  | unallocated => exact hx
  | live a => cases hlive
  | freed a => exact hx

theorem isLive_of_session {s : Svc} {c : ℕ} (h : s.session (some c) = none) : (s.ctx c).isLive = false := by
  unfold Svc.session at h
  cases hc : s.ctx c with
  | live a => simp [hc] at h
  | unallocated | freed => rfl

/-- a target callback that opens no session, and one that does -/
theorem learn_unopened {t : Talk} {r : TargetReq} {env : TargetEnv}
    (hnone : r.userContext = none → (processDeviceRequestTarget r env t.st.svc).2.2 = none) :
    t.learn (.target r env) = t.said := by
  simp only [learn]
  split
  · rename_i status c hu hp
    have := hnone hu
    rw [hp] at this
    cases this
  · rfl

theorem learn_opened {t : Talk} {r : TargetReq} {env : TargetEnv} {c : ℕ} (hu : r.userContext = none)
    (hnew : (processDeviceRequestTarget r env t.st.svc).2.2 = some c) :
    t.learn (.target r env) = Function.update t.said c
      { Said.nothing with ended := decide ((processDeviceRequestTarget r env t.st.svc).2.1 = .error) } := by
  have hp : (processDeviceRequestTarget r env t.st.svc).2 = ((processDeviceRequestTarget r env t.st.svc).2.1, some c) :=
    Prod.ext rfl hnew
  simp only [learn, hu]
  rw [hp]

theorem Inv.target {t : Talk} (h : t.Inv) (hcr : t.st.crashed = false) (r : TargetReq) (env : TargetEnv) :
    (t.step (.target r env)).Inv := by
  have hst : (Receive.step t.st (.target r env)).svc = (processDeviceRequestTarget r env t.st.svc).1 := by
    simp [Receive.step, hcr]
  have hsup := target_supported r env t.st.svc
  obtain ⟨hctx, hnone⟩ | ⟨a, hu, hnew, hctx, hidle, hhandled, hrecord, hprocessing, hunsupported⟩ :=
    target_opens r env t.st.svc
  · have hsaid : t.learn (.target r env) = t.said := learn_unopened hnone
    refine h.touch 0 hcr (hst ▸ target_keeps r env t.st.svc) (hst ▸ hsup) (fun _ _ => by rw [hst, hctx])
      (fun _ _ => by rw [hsaid]) ?_
    rw [hst, hctx, hsup, hsaid]
    exact (h.tracked 0).keeps (target_keeps r env t.st.svc)
  · have hsaid := learn_opened hu hnew
    set status := (processDeviceRequestTarget r env t.st.svc).2.1
    refine h.touch t.st.svc.heap.next hcr (hst ▸ target_keeps r env t.st.svc) (hst ▸ hsup)
      (fun c' hne => by rw [hst, hctx, Function.update_of_ne hne])
      (fun c' hne => by rw [hsaid, Function.update_of_ne hne]) ?_
    rw [hst, hctx, hsup, hsaid, Function.update_self, Function.update_self]
    refine phase_of_unasked ⟨rfl, rfl⟩ (fun _ => .inl hidle) (fun he => ?_) (fun _ => rfl) (fun _ => rfl) (fun l hl => by cases hl)
      ⟨hhandled, hrecord⟩ (fun _ => hprocessing) fun _ => ?_
    · by_contra hno
      have herror : status = .error := hunsupported (by simpa using hno)
      simp [herror] at he
    · rw [hprocessing]
      exact Heap.holds_nil _

/-- a callback that rewrites the context of its session -/
theorem Inv.follows {t : Talk} (h : t.Inv) {o : Op} {c : ℕ} {d : Said} (hcr : t.st.crashed = false)
    (hf : Follows t.st.svc (Receive.step t.st o).svc c d) (hsaid : t.learn o = Function.update t.said c d) :
    (t.step o).Inv := by
  obtain ⟨a', heap, slot, hsvc, hk, hp⟩ := hf
  refine h.touch c hcr (by rw [hsvc]; exact hk) (by rw [hsvc]; rfl) (fun c' hne => ?_) (fun c' hne => ?_) ?_
  · rw [hsvc]
    exact Function.update_of_ne hne _ _
  · rw [hsaid, Function.update_of_ne hne]
  · rw [hsvc, hsaid, Function.update_self]
    simp only [Svc.put, Function.update_self]
    exact hp

theorem stepData_svc (d : DataReq) (ok : Bool) (s : St) : (stepData d ok s).svc = (processDeviceRequestData d ok s.svc).1 := rfl

theorem Inv.data {t : Talk} (h : t.Inv) (hcr : t.st.crashed = false) (r : DataReq) (ok : Bool)
    (hl : t.Legal (.data r ok)) : (t.step (.data r ok)).Inv := by
  have hst : (Receive.step t.st (.data r ok)).svc = (processDeviceRequestData r ok t.st.svc).1 := by
    simp [Receive.step, hcr, stepData_svc]
  cases hu : r.userContext with
  | none =>
    have hnone : processDeviceRequestData r ok t.st.svc = (t.st.svc, .error, false) := by
      simp [processDeviceRequestData, hu, Svc.session]
    exact h.same hcr (by rw [hst, hnone]; exact ⟨rfl, rfl, rfl⟩) (by simp [learn, hu])
  | some c =>
    have hsaid : t.learn (.data r ok) =
        Function.update t.said c ((t.said c).heard (processDeviceRequestData r ok t.st.svc).2.1 r.moreData) := by
      simp [learn, hu]
    rcases session_none_or t.st.svc c with hnone | ⟨a, ha⟩
    · have hsame : processDeviceRequestData r ok t.st.svc = (t.st.svc, .error, false) := by
        simp [processDeviceRequestData, hu, hnone]
      refine h.touch c hcr (by rw [hst, hsame]; exact Heap.Keeps.refl _) (by rw [hst, hsame]) (fun c' _ => by rw [hst, hsame])
        (fun c' hne => by rw [hsaid, Function.update_of_ne hne]) ?_
      rw [hst, hsame, hsaid, Function.update_self]
      exact tracked_heard (h.tracked c) (isLive_of_session hnone) _ _
    · have hp := h.tracked c
      rw [(session_some ha).2] at hp
      exact h.follows hcr (hst ▸ data_follows (hu ▸ ha) hp (hl c hu)) hsaid

theorem Inv.reply {t : Talk} (h : t.Inv) (hcr : t.st.crashed = false) (r : ReplyReq) (ok : Bool)
    (hl : t.Legal (.reply r ok)) : (t.step (.reply r ok)).Inv := by
  have hunasked (hu : t.st.svc.session r.userContext = none) : (t.step (.reply r ok)).Inv := by
    have he : processDeviceRequestResponse r ok t.st.svc = some (t.st.svc, .error, none) := by
      simp [processDeviceRequestResponse, hu]
    refine h.same hcr (by simp [Receive.step, hcr, he]) ?_
    simp only [learn]
    split
    · have hm : t.st.svc.message r ok = none := by simp [Svc.message, hu]
      simp [hm, Svc.reply, he, Said.replied]
    · rfl
  cases hu : r.userContext with
  | none => exact hunasked (by rw [hu]; rfl)
  | some c =>
    rcases session_none_or t.st.svc c with hnone | ⟨a, ha⟩
    · exact hunasked (hu ▸ hnone)
    · have hp := h.tracked c
      rw [(session_some ha).2] at hp
      rw [← hu] at ha
      have hsaid : t.learn (.reply r ok) =
          Function.update t.said c ((t.said c).replied (t.st.svc.message r ok) (t.st.svc.reply r ok)) := by simp [learn, hu]
      cases he : processDeviceRequestResponse r ok t.st.svc with
      | none =>
        -- the program is at its end: a NULL target was given to strlen
        have hb : a.builds ∧ a.target = none := by
          by_contra hnot
          cases hreq : a.responseRequired with
          | false => simp [reply_optional _ ha hreq] at he
          | true =>
            by_cases hb : a.builds
            · cases htarget : a.target with
              | none => exact hnot ⟨hb, htarget⟩
              | some target =>
                obtain ⟨_, _, -, -, heq⟩ := reply_builds ok ha hb htarget
                rw [heq] at he
                cases he
            · rw [reply_streams _ ha hreq hb] at he
              cases he
        refine h.same hcr (by simp [Receive.step, hcr, he]) ?_
        have hm : t.st.svc.message r ok = none := by rw [message_eq ha, if_pos hb.1, hb.2]; rfl
        rw [hsaid, hm]
        simp [Svc.reply, he, Said.replied]
      | some p =>
        obtain ⟨s, status, reply⟩ := p
        have hst : (Receive.step t.st (.reply r ok)).svc = s := by simp [Receive.step, hcr, he]
        have hreply : t.st.svc.reply r ok = reply := by simp [Svc.reply, he]
        rw [hreply] at hsaid
        exact h.follows hcr (hst ▸ reply_follows ha hp (hl c hu) he) hsaid

theorem Inv.status {t : Talk} (h : t.Inv) (hcr : t.st.crashed = false) (r : StatusReq) : (t.step (.status r)).Inv := by
  have hst : (Receive.step t.st (.status r)).svc = (processDeviceRequestStatus r t.st.svc).1 := by simp [Receive.step, hcr]
  obtain he | ⟨c, a, a', heap, hu, -, hk, he⟩ := status_cases r t.st.svc
  · exact h.same hcr (by rw [hst, he]; exact ⟨rfl, rfl, rfl⟩) rfl
  · rw [he] at hst
    refine h.touch c hcr (hst ▸ hk) (by rw [hst]) (fun c' hne => by rw [hst]; exact Function.update_of_ne hne _ _)
      (fun _ _ => rfl) ?_
    have hp := h.tracked c
    rw [(session_some hu).2] at hp
    rw [hst]
    simp only [Function.update_self]
    exact ⟨hp.streams, hp.once⟩

theorem Inv.ret {t : Talk} (h : t.Inv) (hcr : t.st.crashed = false) (e : ReceiveError) (response : Option (List UInt8)) :
    (t.step (.ret e response)).Inv := by
  cases hpc : t.st.pc with
  | calling c =>
    have hst : (Receive.step t.st (.ret e response)).svc = storeResult c e response t.st.svc := by
      simp [Receive.step, hcr, stepThread, hpc]
    have hk := keeps_storeResult c e response t.st.svc
    have hsup : (storeResult c e response t.st.svc).receiveSupported = t.st.svc.receiveSupported := by cases response <;> rfl
    have hctx (c' : ℕ) (hne : c' ≠ c) : (storeResult c e response t.st.svc).ctx c' = t.st.svc.ctx c' := by
      cases response <;> exact Function.update_of_ne hne _ _
    have hsaid : t.learn (.ret e response) =
        Function.update t.said c { t.said c with left := (t.st.svc.leaves c response).or (t.said c).left } := by
      simp [learn, hpc]
    refine h.touch c hcr (hst ▸ hk) (hst ▸ hsup) (fun c' hne => hst ▸ hctx c' hne)
      (fun c' hne => by rw [hsaid, Function.update_of_ne hne]) ?_
    rw [hst, hsup, hsaid, Function.update_self]
    have htracked := h.tracked c
    cases hc : t.st.svc.ctx c with
    | unallocated | freed a =>
      -- a context that is gone is nobody's record any more
      have hleaves : t.st.svc.leaves c response = none := by cases response <;> simp [Svc.leaves, hc]
      have hcell : Tracked t.st.svc.heap t.st.svc.receiveSupported (t.said c) ((storeResult c e response t.st.svc).ctx c) := by
        rw [hc] at htracked
        cases response <;> simpa [storeResult, hc, Cell.map, Tracked] using htracked
      rw [hleaves]
      exact hcell.keeps hk
    | live a =>
      rw [hc] at htracked
      have hqueued := queued_of_grip h.grip hpc hc
      have hrecord := (htracked.record (htracked.unasked (htracked.queued hqueued)).2).2
      have hleft (l : Left) (hl : (t.said c).left = some l) : l.record.buffer ≠ none ∧
          (storeResult c e response t.st.svc).heap.Holds l.record.buffer l.record.length l.bytes :=
        ⟨(htracked.left l hl).1, (htracked.left l hl).2.keeps hk⟩
      cases response with
      | none =>
        have hcell : (storeResult c e none t.st.svc).ctx c = .live { a with receiveError := e } := by
          simp [storeResult, hc, Cell.map]
        rw [hcell]
        exact htracked.answered hqueued ⟨rfl, rfl, rfl, rfl⟩ htracked.optional hleft hrecord
      | some bytes =>
        have hcell : (storeResult c e (some bytes) t.st.svc).ctx c = .live
            { a with receiveError := e
                     responseBufferInfo := if a.responseRequired then ⟨some ⟨t.st.svc.heap.next, 0⟩, bytes.length⟩
                       else a.responseBufferInfo } := by
          simp [storeResult, hc, Cell.map]
        rw [hcell]
        cases hreq : a.responseRequired with
        | true =>
          have hleaves : t.st.svc.leaves c (some bytes) =
              some ⟨⟨some ⟨t.st.svc.heap.next, 0⟩, bytes.length⟩, bytes⟩ := by simp [Svc.leaves, hc, hreq]
          rw [hleaves]
          refine htracked.answered hqueued ⟨rfl, hreq.symm, rfl, rfl⟩ (fun hno => ?_) (fun l hl => ?_) rfl
          · exact absurd (hreq.symm.trans hno) (by decide)
          · obtain rfl := Option.some.inj hl
            exact ⟨Option.some_ne_none _, Heap.holds_write (Nat.lt_succ_self _) le_rfl⟩
        | false =>
          have hleaves : t.st.svc.leaves c (some bytes) = none := by simp [Svc.leaves, hc, hreq]
          rw [hleaves]
          exact htracked.answered hqueued ⟨rfl, hreq.symm, rfl, rfl⟩ htracked.optional hleft hrecord
  | _ => exact h.same hcr (by simp [Receive.step, hcr, stepThread, hpc]) (by cases response <;> simp [learn, hpc])

theorem Inv.settle {t : Talk} (h : t.Inv) (hcr : t.st.crashed = false) : (t.step .settle).Inv := by
  cases hpc : t.st.pc with
  | returned c =>
    have hst : (Receive.step t.st .settle).svc =
        { t.st.svc with ctx := Function.update t.st.svc.ctx c ((t.st.svc.ctx c).map SvcReceive.settle) } := by
      simp [Receive.step, hcr, stepThread, hpc]
    refine h.touch c hcr (by rw [hst]; exact Heap.Keeps.refl _) (by rw [hst])
      (fun c' hne => by rw [hst]; exact Function.update_of_ne hne _ _) (fun _ _ => rfl) ?_
    rw [hst]
    simp only [Function.update_self]
    have htracked := h.tracked c
    cases hc : t.st.svc.ctx c with
    | unallocated | freed a =>
      rw [hc] at htracked
      exact htracked
    | live a =>
      rw [hc] at htracked
      exact htracked.settle
  | _ => exact h.same hcr (by simp [Receive.step, hcr, stepThread, hpc]) rfl

/-- **One step.** -/
theorem step_inv (t : Talk) (o : Op) (h : t.Inv) (hl : t.Legal o) : (t.step o).Inv := by
  cases hcr : t.st.crashed with
  | true => simpa [step, hcr] using h
  | false =>
    cases o with
    | target r env => exact h.target hcr r env
    | data r ok => exact h.data hcr r ok hl
    | reply r ok => exact h.reply hcr r ok hl
    | status r => exact h.status hcr r
    | ret e response => exact h.ret hcr e response
    | settle => exact h.settle hcr
    | wake | check | call | clear =>
      refine h.same hcr ?_ rfl
      simp only [Receive.step, hcr, stepThread]
      repeat' split
      all_goals exact ⟨rfl, rfl, rfl⟩

theorem run_inv {t : Talk} (h : t.Init) {ops : List Op} (hl : Along step Legal t ops) : (run step t ops).Inv :=
  Runs.run_inv step_inv (inv_init h) hl

/-! ## What it gives -/

theorem Inv.streams {t : Talk} (h : t.Inv) (c : ℕ) :
    Streams (t.said c).response (t.said c).given ∧ (t.said c).tried.length ≤ 1 := by
  have htracked := h.tracked c
  cases hc : t.st.svc.ctx c with
  | unallocated =>
    rw [hc] at htracked
    obtain ⟨-, htried, hgiven⟩ := htracked
    rw [hgiven, htried]
    exact ⟨streams_nil _, Nat.zero_le _⟩
  | live a =>
    rw [hc] at htracked
    exact ⟨htracked.streams, htracked.once⟩
  | freed a =>
    rw [hc] at htracked
    exact htracked

theorem Inv.answered {t : Talk} (h : t.Inv) (c : ℕ) : t.Answered c := by
  obtain ⟨hstreams, honce⟩ := h.streams c
  refine ⟨hstreams, fun before p behind heq hp => (heq ▸ hstreams).complete hp, honce, fun r k hu hk ht => ?_⟩
  unfold processDeviceRequestStatus at hk
  split at hk
  · cases hk
  · rename_i c' a ha
    obtain ⟨hu', hc⟩ := session_some ha
    obtain rfl := Option.some.inj (hu.symm.trans hu')
    split at hk
    · cases hk
    · have hp := h.tracked c
      rw [hc] at hp
      exact hp.given_back ht hk

end Talk

end CcApi.Receive
