/-
Exactness of the receive hand-off (`ccapi_data_handler.c`).

The connector is a driver of the receive machine: it keeps, for each session whose target callback answered continue,
the segments it has presented and the last answer. A data callback presents the next segment, or the same one again
while it is answered busy. Any number of sessions, any interleaving with the receive thread; replies and status callbacks
may come at any point, status callbacks not while their session is queued for the thread.

- `step_inv`: the connector's view of every session is in sync with its context.
- `handed_over_exactly`: each session is given to the user at most once, with its own target, payload and response record; exactly
  once when its last segment is answered for good and nothing was refused; never when its payload is too big; and a
  queued session keeps the slot.
- `can_finish`: from every reachable state a session whose last segment is answered busy can be brought to its end by the
  thread's steps and its own data callbacks.
-/
import CcApi.Receive.Handoff

namespace CcApi.Receive

open Lib Lib.Runs

/-! ## The connector -/

/-- what the connector knows of a session -/
structure Session where
  target : Str
  responseRequired : Bool
  /-- the maximum size of its target -/
  maxSize : ℕ
  /-- the user's data callback for its target -/
  dataCb : Option ℕ
  /-- the segments presented, in order -/
  segments : List (List UInt8)
  /-- the last segment has been presented -/
  complete : Bool
  /-- no allocation has failed for it -/
  memory : Bool
  /-- the last answer to a data callback -/
  answer : Option CallbackStatus
  /-- its status callback has been made -/
  ended : Bool
deriving DecidableEq

def Session.payload (ses : Session) : List UInt8 := ses.segments.flatten

def Session.exceeds (ses : Session) : Prop := ses.maxSize ≠ receiveNoLimit ∧ ses.payload.length > ses.maxSize

instance (ses : Session) : Decidable ses.exceeds := inferInstanceAs (Decidable (_ ∧ _))

/-- the maximum size of a target; one that is not registered has none -/
def maxSize (s : Svc) (target : Str) : ℕ :=
  match getTargetEntry s target with
  | some t => t.maxRequestSize
  | none => receiveNoLimit

/-- the data callback of a target; one that is not registered has the general one -/
def targetDataCb (s : Svc) (target : Str) : Option ℕ :=
  match getTargetEntry s target with
  | some t => some t.dataCb
  | none => s.dataCb

/-- the session a target callback opens, with its context -/
def openSession (r : TargetReq) (env : TargetEnv) (s : Svc) : Option (ℕ × Session) :=
  match r.target, (processDeviceRequestTarget r env s).2 with
  | some target, (.cont, some c) =>
    some (c, { target := target, responseRequired := r.responseRequired, maxSize := maxSize s target,
               dataCb := targetDataCb s target, segments := [], complete := false, memory := true, answer := none,
               ended := false })
  | _, _ => none

/-- a new segment has been presented and answered; ok says whether there was memory for it -/
def Session.extend (ses : Session) (d : DataReq) (ok : Bool) (answer : CallbackStatus) : Session :=
  { ses with segments := ses.segments ++ [d.buffer], complete := !d.moreData, memory := ses.memory && ok,
             answer := some answer }

theorem Session.payload_extend (ses : Session) (d : DataReq) (ok : Bool) (answer : CallbackStatus) :
    (ses.extend d ok answer).payload = ses.payload ++ d.buffer := by
  simp [Session.extend, Session.payload]

/-- a data callback has been answered: unless the segment was presented again, it is a new one -/
def Session.present (ses : Session) (d : DataReq) (ok : Bool) (answer : CallbackStatus) : Session :=
  if ses.answer = some .busy then { ses with answer := some answer } else ses.extend d ok answer

/-- the segment the connector may present: the next one, or the last one again while it is answered busy -/
def Session.expects (ses : Session) (d : DataReq) : Prop :=
  match ses.answer with
  | none | some .cont => ses.complete = false
  | some .busy => ses.segments.getLast? = some d.buffer ∧ d.moreData = !ses.complete
  | _ => False

instance (ses : Session) (d : DataReq) : Decidable (ses.expects d) := by
  unfold Session.expects
  split <;> infer_instance

/-- the machine with the connector's view of its sessions, by their contexts -/
structure Conn where
  st : St
  sessions : ℕ → Option Session

namespace Conn

/-- what the connector learns from an operation -/
def learn (s : Conn) : Op → ℕ → Option Session
  | .target r env =>
    match openSession r env s.st.svc with
    | some (c, ses) => Function.update s.sessions c (some ses)
    | none => s.sessions
  | .data d ok =>
    match d.userContext with
    | some c => Function.update s.sessions c
        ((s.sessions c).map fun ses => ses.present d ok (processDeviceRequestData d ok s.st.svc).2.1)
    | none => s.sessions
  | .status r =>
    match r.userContext with
    | some c => Function.update s.sessions c ((s.sessions c).map fun ses => { ses with ended := true })
    | none => s.sessions
  | _ => s.sessions

def step (s : Conn) (o : Op) : Conn := { st := Receive.step s.st o, sessions := s.learn o }

/-- what the connector does: data callbacks present the segments of open sessions; a session that has no copy of its
target is not asked for a reply; status callbacks spare queued sessions -/
def Legal (s : Conn) : Op → Prop
  | .data d _ => ∃ c ses, d.userContext = some c ∧ s.sessions c = some ses ∧ ses.ended = false ∧ ses.expects d
  | .reply r _ => ∀ c a, s.st.svc.session r.userContext = some (c, a) → a.target ≠ none
  | .status r => SparesQueued s.st (.status r)
  | _ => True

instance (s : Conn) : ∀ o, Decidable (s.Legal o)
  | .data d _ =>
    decidable_of_iff (∃ c ∈ d.userContext, ∃ ses ∈ s.sessions c, ses.ended = false ∧ ses.expects d)
      ⟨fun ⟨c, hc, ses, hs, he⟩ => ⟨c, ses, hc, hs, he⟩, fun ⟨c, ses, hc, hs, he⟩ => ⟨c, hc, ses, hs, he⟩⟩
  | .reply r _ =>
    decidable_of_iff (∀ p ∈ s.st.svc.session r.userContext, p.2.target ≠ none)
      ⟨fun h c a he => h (c, a) (by simp [he]), fun h p hp => h p.1 p.2 (by simpa using hp)⟩
  | .status r => inferInstanceAs (Decidable (SparesQueued s.st (.status r)))
  | .target .. | .wake | .check | .call | .ret .. | .settle | .clear => inferInstanceAs (Decidable True)

structure Init (s : Conn) : Prop where
  st : Receive.Init s.st
  sessions : ∀ c, s.sessions c = none

/-- how often the user has been given context c -/
def count (s : Conn) (c : ℕ) : ℕ := (s.st.calls.map Call.ctx).count c

end Conn

/-! ## A session and its context -/

/-- the context holds what the connector has sent -/
structure Session.InContext (ses : Session) (h : Heap) (a : SvcReceive) : Prop where
  target : a.target.map HeapStr.text = some ses.target
  response : a.responseRequired = ses.responseRequired
  limit : a.maxRequestSize = ses.maxSize
  callback : a.dataCb = ses.dataCb ∧ a.dataCb ≠ none
  block : ∀ b, a.requestBuffer = some b → b < h.next
  empty : a.requestBuffer = none → a.requestLength = 0
  length : a.requestLength = ses.payload.length
  bytes : requestBytes h a = ses.payload

/-- what the connector's view of a session says at each status of its context -/
def Session.At (ses : Session) : ReceiveThreadStatus → Prop
  | .idle => (ses.answer = none ∨ ses.answer = some .cont) ∧ ses.complete = false ∧ ses.memory = true ∧ ¬ses.exceeds
  | .dataCbReady | .dataCbQueued | .dataCbProcessed =>
    ses.answer = some .busy ∧ ses.complete = true ∧ ses.memory = true ∧ ¬ses.exceeds ∧ ses.segments ≠ []
  | .free => ses.answer = some .error ∨ ses.answer = some .cont ∧ ses.complete = true

structure Session.Sync (ses : Session) (h : Heap) (a : SvcReceive) : Prop where
  stage : ses.At a.receiveThreadStatus
  context : a.receiveThreadStatus ≠ .free → ses.InContext h a

def InSync (s : Svc) (c : ℕ) (ses : Session) : Prop :=
  match s.ctx c with
  | .unallocated => False
  | .live a => ses.Sync s.heap a
  | .freed _ => ses.ended = true

/-- a call of the user is the one session c is to be given -/
structure Session.Given (ses : Session) (c : ℕ) (k : Call) : Prop where
  cb : k.cb = ses.dataCb
  target : k.target = some ses.target
  request : k.request = ses.payload
  response : k.response = if ses.responseRequired then some c else none
  whole : ses.complete = true
  fits : ¬ses.exceeds

theorem Session.InContext.keeps {ses : Session} {h h' : Heap} {a : SvcReceive} (hs : ses.InContext h a)
    (hk : h.Keeps h') : ses.InContext h' a := by
  refine { hs with block := fun b hb => (hs.block b hb).trans_le hk.1, bytes := ?_ }
  rw [← hs.bytes]
  unfold requestBytes
  cases hb : a.requestBuffer with
  | none => rfl
  | some b => exact hk.read (hs.block b hb) a.requestLength

theorem Session.Sync.keeps {ses : Session} {h h' : Heap} {a : SvcReceive} (hs : ses.Sync h a) (hk : h.Keeps h') :
    ses.Sync h' a := ⟨hs.stage, fun hf => (hs.context hf).keeps hk⟩

/-- the error and the response of a context can change -/
theorem Session.InContext.congr {ses : Session} {h : Heap} {a a' : SvcReceive} (hs : ses.InContext h a)
    (ht : a'.target = a.target) (hr : a'.responseRequired = a.responseRequired)
    (hm : a'.maxRequestSize = a.maxRequestSize) (hc : a'.dataCb = a.dataCb) (hb : a'.requestBuffer = a.requestBuffer)
    (hl : a'.requestLength = a.requestLength) : ses.InContext h a' := by
  refine ⟨ht ▸ hs.target, hr ▸ hs.response, hm ▸ hs.limit, hc ▸ hs.callback, hb ▸ hs.block, ?_, hl ▸ hs.length, ?_⟩
  · rw [hb, hl]; exact hs.empty
  · rw [← hs.bytes]
    unfold requestBytes
    rw [hb, hl]

/-- a session that other sessions' callbacks leave alone stays in sync -/
theorem InSync.frame {s t : Svc} {c : ℕ} {ses : Session} (h : InSync s c ses) (hctx : t.ctx c = s.ctx c)
    (hk : s.heap.Keeps t.heap) : InSync t c ses := by
  unfold InSync at h ⊢
  rw [hctx]
  cases hc : s.ctx c with
  | unallocated => simp [hc] at h
  | live a => simp only [hc] at h ⊢; exact h.keeps hk
  | freed a => simpa only [hc] using h

theorem inSync_live {s : Svc} {c : ℕ} {ses : Session} {a : SvcReceive} (hc : s.ctx c = .live a) :
    InSync s c ses ↔ ses.Sync s.heap a := by
  unfold InSync
  rw [hc]

theorem InSync.allocated {s : Svc} {c : ℕ} {ses : Session} (h : InSync s c ses) : s.ctx c ≠ .unallocated := by
  intro hc
  unfold InSync at h
  rwa [hc] at h

/-- an open session's context is there -/
theorem InSync.live {s : Svc} {c : ℕ} {ses : Session} (h : InSync s c ses) (he : ses.ended = false) :
    ∃ a, s.ctx c = .live a ∧ ses.Sync s.heap a := by
  unfold InSync at h
  cases hc : s.ctx c with
  | unallocated => simp [hc] at h
  | live a => exact ⟨a, rfl, by simpa only [hc] using h⟩
  | freed a => simp [hc, he] at h

/-! ## Target callbacks -/

theorem acceptTarget_cont {s : Svc} {target : Str} {accepts : Bool} {a : SvcReceive} (ha : a.dataCb = s.dataCb)
    (hm : a.maxRequestSize = receiveNoLimit) (h : (acceptTarget s target accepts a).2 = .cont) :
    s.receiveSupported = true ∧ (acceptTarget s target accepts a).1.dataCb = targetDataCb s target ∧
      (acceptTarget s target accepts a).1.dataCb ≠ none ∧
      (acceptTarget s target accepts a).1.maxRequestSize = maxSize s target := by
  unfold acceptTarget targetDataCb maxSize at *
  cases hs : s.receiveSupported with
  | false => simp [hs] at h
  | true =>
    cases he : getTargetEntry s target with
    | some t => simp
    | none =>
      simp only [hs, he, not_true_eq_false, if_false] at h ⊢
      by_cases hcb : a.dataCb = none
      · simp [hcb] at h
      by_cases hno : s.hasAcceptCb = true ∧ accepts = false
      · simp [hcb, hno] at h
      · simp [hno, ha ▸ hcb, ha, hm]

/-- a target callback with memory for the context and the target -/
theorem target_made {r : TargetReq} {env : TargetEnv} {s : Svc} {target : Str} (ht : r.target = some target)
    (hu : r.userContext.isSome = false) (hc : env.contextOk = true) (hm : env.targetOk = true) :
    ∃ heap, s.heap.Keeps heap ∧ processDeviceRequestTarget r env s =
      let a := acceptTarget s target env.accepts { newContext r s with target := some ⟨s.heap.next + 1, target⟩ }
      (({ s with heap := heap } : Svc).put s.heap.next a.1, a.2, some s.heap.next) := by
  refine ⟨_, (Heap.keeps_malloc sizeofSvcReceive true s.heap).trans (Heap.keeps_malloc (target.length + 1) true _), ?_⟩
  simp [processDeviceRequestTarget, ht, hu, hc, hm, Heap.malloc]

/-- the session a target callback opens is in the next block, idle, with its context in sync -/
theorem openSession_some {r : TargetReq} {env : TargetEnv} {s : Svc} {c : ℕ} {ses : Session}
    (h : openSession r env s = some (c, ses)) :
    c = s.heap.next ∧ ses.complete = false ∧ s.receiveSupported = true ∧ ∃ heap a, s.heap.Keeps heap ∧
      (processDeviceRequestTarget r env s).1 = ({ s with heap := heap } : Svc).put c a ∧ ses.Sync heap a ∧
      a.receiveThreadStatus = .idle := by
  unfold openSession at h
  cases ht : r.target with
  | none => simp [ht] at h
  | some target =>
    rw [ht] at h
    cases hu : r.userContext.isSome with
    | true => simp [processDeviceRequestTarget, ht, hu] at h
    | false =>
      cases hc : env.contextOk with
      | false => simp [processDeviceRequestTarget, ht, hu, hc, Heap.malloc] at h
      | true =>
        cases hm : env.targetOk with
        | false => simp [processDeviceRequestTarget, ht, hu, hc, hm, Heap.malloc] at h
        | true =>
          obtain ⟨heap, hk, he⟩ := target_made (s := s) ht hu hc hm
          rw [he] at h ⊢
          dsimp only at h ⊢
          generalize ha : acceptTarget s target env.accepts
            { newContext r s with target := some ⟨s.heap.next + 1, target⟩ } = res at h ⊢
          obtain ⟨a, status⟩ := res
          cases status <;> simp only [reduceCtorEq, Option.some.injEq, Prod.mk.injEq] at h
          obtain ⟨rfl, rfl⟩ := h
          have hkeep := acceptTarget_keeps s target env.accepts
            { newContext r s with target := some ⟨s.heap.next + 1, target⟩ }
          obtain ⟨hs, hcb, hne, hmax⟩ := @acceptTarget_cont s target env.accepts
            { newContext r s with target := some ⟨s.heap.next + 1, target⟩ } rfl rfl (by rw [ha])
          rw [ha] at hkeep hcb hne hmax
          obtain ⟨htar, hreq, hbuf, hlen, hst⟩ := hkeep
          refine ⟨rfl, rfl, hs, heap, a, hk, rfl, ⟨?_, fun _ => ?_⟩, hst⟩
          · rw [hst]
            exact ⟨Or.inl rfl, rfl, rfl, by simp [Session.exceeds, Session.payload]⟩
          · refine ⟨by rw [htar]; rfl, hreq, hmax, ⟨hcb, hne⟩, ?_, fun _ => hlen, hlen, ?_⟩
            · intro b hb
              rw [hbuf] at hb
              contradiction
            · unfold requestBytes
              rw [hbuf]
              rfl

/-! ## The invariant -/

namespace Conn

/-- what holds of a session the connector uses -/
structure Tracked (s : Conn) (c : ℕ) (ses : Session) : Prop where
  supported : s.st.svc.receiveSupported = true
  sync : InSync s.st.svc c ses
  given : ∀ k ∈ s.st.calls, k.ctx = c → ses.Given c k
  delivered : ses.complete = true → ¬ses.exceeds → ses.memory = true → ses.answer ≠ some .busy → s.count c = 1

/-- and of any context: one that the connector does not use is idle -/
def At (s : Conn) (c : ℕ) : Prop :=
  match s.sessions c with
  | some ses => s.Tracked c ses
  | none => ∀ a, s.st.svc.ctx c = .live a → a.receiveThreadStatus = .idle

structure Inv (s : Conn) : Prop where
  base : Receive.Inv s.st
  running : s.st.crashed = false
  alive : s.st.pc ≠ .exited
  contexts : ∀ c, s.At c

theorem inv_init {s : Conn} (h : s.Init) : s.Inv := by
  refine ⟨Receive.inv_init h.st, h.st.running, by rw [h.st.pc]; simp, fun c => ?_⟩
  unfold At
  rw [h.sessions]
  intro a ha
  rw [h.st.ctx] at ha
  contradiction

theorem Inv.tracked {s : Conn} (h : s.Inv) {c : ℕ} {ses : Session} (hses : s.sessions c = some ses) :
    s.Tracked c ses := by
  have := h.contexts c
  unfold At at this
  rwa [hses] at this

theorem Inv.unknown {s : Conn} (h : s.Inv) {c : ℕ} (hses : s.sessions c = none) {a : SvcReceive}
    (ha : s.st.svc.ctx c = .live a) : a.receiveThreadStatus = .idle := by
  have := h.contexts c
  unfold At at this
  rw [hses] at this
  exact this a ha

theorem at_known {s : Conn} {c : ℕ} {ses : Session} (hses : s.sessions c = some ses) (h : s.Tracked c ses) :
    s.At c := by
  unfold At
  rwa [hses]

theorem at_unknown {s : Conn} {c : ℕ} (hses : s.sessions c = none)
    (h : ∀ a, s.st.svc.ctx c = .live a → a.receiveThreadStatus = .idle) : s.At c := by
  unfold At
  rwa [hses]

theorem count_eq (s : Conn) (c : ℕ) : (s.st.abs.calls.map Prod.fst).count c = s.count c := by
  simp only [St.abs, Handoff.view, List.map_map]
  rfl

/-- the calls by the stage of their session -/
theorem count_of_stage {s : Conn} (h : Receive.Inv s.st) {c : ℕ} {a : SvcReceive} (hc : s.st.svc.ctx c = .live a) :
    (a.receiveThreadStatus = .idle ∨ a.receiveThreadStatus = .dataCbReady → s.count c = 0) ∧
      (a.receiveThreadStatus = .dataCbProcessed → s.count c = 1) := by
  have hg := h.handoff.given c
  rw [count_eq] at hg
  simp only [Handoff.Given, St.abs, Handoff.view, hc, Cell.map, SvcReceive.stage] at hg
  constructor
  · rintro (hst | hst) <;> simpa [hst, ReceiveThreadStatus.stage] using hg
  · intro hst
    simpa [hst, ReceiveThreadStatus.stage] using hg

theorem no_call {s : Conn} {c : ℕ} (h : s.count c = 0) : ∀ k ∈ s.st.calls, k.ctx ≠ c := by
  intro k hk hkc
  have hmem : c ∈ s.st.calls.map Call.ctx := hkc ▸ List.mem_map_of_mem hk
  exact absurd h (List.count_pos_iff.2 hmem).ne'

/-- a context that an operation leaves alone keeps what holds of it -/
theorem At.frame {s t : Conn} {c : ℕ} (h : s.At c) (hctx : t.st.svc.ctx c = s.st.svc.ctx c)
    (hk : s.st.svc.heap.Keeps t.st.svc.heap) (hses : t.sessions c = s.sessions c)
    (hsup : t.st.svc.receiveSupported = s.st.svc.receiveSupported)
    (hcalls : ∀ k ∈ t.st.calls, k.ctx = c → k ∈ s.st.calls) (hcount : t.count c = s.count c) : t.At c := by
  unfold At at h ⊢
  rw [hses]
  cases hs : s.sessions c with
  | none =>
    simp only [hs] at h ⊢
    rwa [hctx]
  | some ses =>
    simp only [hs] at h ⊢
    exact ⟨hsup ▸ h.supported, h.sync.frame hctx hk, fun k hk hkc => h.given k (hcalls k hk hkc) hkc,
      hcount ▸ h.delivered⟩

/-- an operation that touches one context and calls nobody -/
theorem Inv.touch {s t : Conn} (h : s.Inv) (c : ℕ) (base : Receive.Inv t.st) (hcr : t.st.crashed = false)
    (hpc : t.st.pc ≠ .exited) (hsup : t.st.svc.receiveSupported = s.st.svc.receiveSupported)
    (hcalls : t.st.calls = s.st.calls) (hk : s.st.svc.heap.Keeps t.st.svc.heap)
    (hctx : ∀ c', c' ≠ c → t.st.svc.ctx c' = s.st.svc.ctx c') (hmap : ∀ c', c' ≠ c → t.sessions c' = s.sessions c')
    (hself : t.At c) : t.Inv := by
  refine ⟨base, hcr, hpc, fun c' => ?_⟩
  by_cases hne : c' = c
  · rw [hne]
    exact hself
  · exact (h.contexts c').frame (hctx c' hne) hk (hmap c' hne) hsup (fun k hk _ => hcalls ▸ hk)
      (by rw [count, count, hcalls])

/-- a data callback that rewrites the context of its session -/
theorem Inv.put {s : Conn} (h : s.Inv) {o : Op} {c : ℕ} {ses ses' : Session} {a' : SvcReceive} {heap : Heap}
    {slot : Option ℕ} {l : ℕ} (hses : s.sessions c = some ses) (base : Receive.Inv (Receive.step s.st o))
    (hst : Receive.step s.st o =
      { s.st with svc := ({ s.st.svc with heap := heap, svcReceive := slot } : Svc).put c a', lock := l })
    (hk : s.st.svc.heap.Keeps heap) (hmap : s.learn o = Function.update s.sessions c (some ses'))
    (hsync : ses'.Sync heap a') (hgiven : ∀ k ∈ s.st.calls, k.ctx = c → ses'.Given c k)
    (hdel : ses'.complete = true → ¬ses'.exceeds → ses'.memory = true → ses'.answer ≠ some .busy → s.count c = 1) :
    (s.step o).Inv := by
  have hst' : (s.step o).st =
      { s.st with svc := ({ s.st.svc with heap := heap, svcReceive := slot } : Svc).put c a', lock := l } := hst
  have hmap' : (s.step o).sessions = Function.update s.sessions c (some ses') := hmap
  refine h.touch c base (by rw [hst']; exact h.running) (by rw [hst']; exact h.alive) (by rw [hst']; rfl)
    (by rw [hst']) (by rw [hst']; exact hk) (fun c' hne => ?_) (fun c' hne => ?_) (@at_known _ _ ses' ?_ ?_)
  · rw [hst']
    exact Function.update_of_ne hne _ _
  · rw [hmap', Function.update_of_ne hne]
  · rw [hmap', Function.update_self]
  · have hlive : (s.step o).st.svc.ctx c = .live a' := by
      rw [hst']
      exact Function.update_self _ _ _
    refine ⟨?_, (inSync_live hlive).2 ?_, ?_, ?_⟩
    · rw [hst']
      exact (h.tracked hses).supported
    · rw [hst']
      exact hsync
    · rw [hst']
      exact hgiven
    · rw [count, hst']
      exact hdel

/-! ## Steps -/

theorem present_new {ses : Session} {d : DataReq} {ok : Bool} {answer : CallbackStatus} (h : ses.answer ≠ some .busy) :
    ses.present d ok answer = ses.extend d ok answer := by
  rw [Session.present, if_neg h]

theorem present_again {ses : Session} {d : DataReq} {ok : Bool} (h : ses.answer = some .busy) :
    ses.present d ok .busy = ses := by
  rw [Session.present, if_pos h, ← h]

theorem step_data {s : St} (h : s.crashed = false) (d : DataReq) (ok : Bool) :
    Receive.step s (.data d ok) = stepData d ok s := by
  rw [Receive.step, if_neg (by simp [h])]

theorem step_target {s : St} (h : s.crashed = false) (r : TargetReq) (env : TargetEnv) :
    Receive.step s (.target r env) = { s with svc := (processDeviceRequestTarget r env s.svc).1 } := by
  rw [Receive.step, if_neg (by simp [h])]

theorem step_status {s : St} (h : s.crashed = false) (r : StatusReq) :
    Receive.step s (.status r) = { s with svc := (processDeviceRequestStatus r s.svc).1 } := by
  rw [Receive.step, if_neg (by simp [h])]

theorem step_reply {s : St} (h : s.crashed = false) {r : ReplyReq} {ok : Bool} {t : Svc} {status : CallbackStatus}
    {reply : Option Reply} (he : processDeviceRequestResponse r ok s.svc = some (t, status, reply)) :
    Receive.step s (.reply r ok) = { s with svc := t } := by
  rw [Receive.step, if_neg (by simp [h])]
  simp only [he]

/-- the segment of an idle session: refused for its size or for want of memory, or appended -/
theorem idle_inv {s : Conn} (h : s.Inv) {c : ℕ} {ses : Session} {a : SvcReceive} {d : DataReq} {ok : Bool}
    (hu : d.userContext = some c) (hses : s.sessions c = some ses) (hc : s.st.svc.ctx c = .live a)
    (hsync : ses.Sync s.st.svc.heap a) (hst : a.receiveThreadStatus = .idle) : (s.step (.data d ok)).Inv := by
  have hsess : s.st.svc.session d.userContext = some (c, a) := by simp [Svc.session, hu, hc]
  have hd := @data_idle d ok _ c a hsess ((h.tracked hses).supported) hst
  have hat := hsync.stage
  rw [hst] at hat
  obtain ⟨hans, hcomp, hmem, hfit⟩ := hat
  have hnb : ses.answer ≠ some .busy := by rcases hans with e | e <;> rw [e] <;> simp
  have hctx := hsync.context (by rw [hst]; simp)
  have hcount : s.count c = 0 := (count_of_stage h.base hc).1 (Or.inl hst)
  have hbase := Receive.step_inv s.st (.data d ok) h.base trivial
  have hstep : Receive.step s.st (.data d ok) = { s.st with svc := (appendSegment c a d ok s.st.svc).1 } := by
    rw [step_data h.running, stepData_eq hd]
  have hlearn : s.learn (.data d ok) = Function.update s.sessions c
      (some (ses.extend d ok (appendSegment c a d ok s.st.svc).2)) := by
    simp only [learn, hu, hses, Option.map_some, hd, present_new hnb]
  have hsize : ∀ answer, a.requestLength + d.buffer.length = (ses.extend d ok answer).payload.length := by
    intro answer
    rw [hctx.length, Session.payload_extend, List.length_append]
  -- no call can be for a session that is idle
  have hnone : ∀ {ses' : Session}, ∀ k ∈ s.st.calls, k.ctx = c → ses'.Given c k :=
    fun k hk hkc => absurd hkc (no_call hcount k hk)
  obtain ⟨hlim, hbig, he⟩ | ⟨hbig, rfl, he⟩ | ⟨hbig, rfl, heap, hk, hlt, hread, he⟩ :=
    appendSegment_cases c a d ok s.st.svc
  · rw [he] at hstep hlearn
    refine h.put hses hbase hstep (Heap.Keeps.refl _) hlearn ⟨Or.inl rfl, fun hf => absurd rfl hf⟩ hnone
      fun _ hfits => ?_
    rw [hctx.limit] at hlim hbig
    rw [hsize] at hbig
    exact absurd ⟨hlim, hbig⟩ hfits
  · rw [he] at hstep hlearn
    refine h.put hses hbase hstep (Heap.Keeps.refl _) hlearn ⟨Or.inl rfl, fun hf => absurd rfl hf⟩ hnone
      fun _ _ hm => ?_
    simp [Session.extend] at hm
  · rw [he] at hstep hlearn
    have hfits : ∀ answer, ¬(ses.extend d true answer).exceeds := by
      intro answer
      rw [hctx.limit, hsize answer] at hbig
      exact hbig
    refine h.put hses hbase hstep hk hlearn ⟨?_, fun _ => ?_⟩ hnone fun hlast _ _ hans => ?_
    · cases hm : d.moreData with
      | true =>
        simp only [if_true, hst]
        exact ⟨Or.inr rfl, by simp [Session.extend, hm], by simp [Session.extend, hmem], hfits _⟩
      | false =>
        exact ⟨rfl, by simp [Session.extend, hm], by simp [Session.extend, hmem], hfits _, by simp [Session.extend]⟩
    · exact ⟨hctx.target, hctx.response, hctx.limit, hctx.callback, fun b hb => Option.some.inj hb ▸ hlt,
        fun hn => absurd hn (by simp), hsize _, by
          rw [Session.payload_extend, ← hctx.bytes, ← hread hctx.block hctx.empty]
          rfl⟩
    · have hm : d.moreData = false := by simpa [Session.extend] using hlast
      simp [Session.extend, hm] at hans

/-- a data callback that waits tells the connector nothing new -/
theorem waits_step {s : Conn} (h : s.Inv) {c : ℕ} {ses : Session} {d : DataReq} {ok : Bool} (hu : d.userContext = some c)
    (hses : s.sessions c = some ses) (hans : ses.answer = some .busy)
    (hd : processDeviceRequestData d ok s.st.svc = (s.st.svc, .busy, false)) : s.step (.data d ok) = s := by
  have hst : Receive.step s.st (.data d ok) = s.st := by
    rw [step_data h.running, stepData_eq hd]
  have hlearn : s.learn (.data d ok) = s.sessions := by
    simp only [learn, hu, hses, Option.map_some, hd, present_again hans]
    exact Function.update_eq_self_iff.2 hses.symm
  rw [step, hst, hlearn]

theorem data_inv {s : Conn} (h : s.Inv) {d : DataReq} {ok : Bool} (hl : s.Legal (.data d ok)) :
    (s.step (.data d ok)).Inv := by
  obtain ⟨c, ses, hu, hses, hend, hexp⟩ := hl
  have htr := h.tracked hses
  obtain ⟨a, hc, hsync⟩ := htr.sync.live hend
  have hsess : s.st.svc.session d.userContext = some (c, a) := by simp [Svc.session, hu, hc]
  have hbase := Receive.step_inv s.st (.data d ok) h.base trivial
  have hat := hsync.stage
  cases hst : a.receiveThreadStatus with
  | idle => exact idle_inv h hu hses hc hsync hst
  | dataCbReady =>
    rw [hst] at hat
    cases hslot : s.st.svc.svcReceive with
    | some c' =>
      rw [waits_step h hu hses hat.1 (data_waits hsess htr.supported (Or.inl ⟨hst, by simp [hslot]⟩))]
      exact h
    | none =>
      have hd := @data_offered d ok _ c a hsess htr.supported hst hslot
      have hlearn : s.learn (.data d ok) = Function.update s.sessions c (some ses) := by
        simp only [learn, hu, hses, Option.map_some, hd, present_again hat.1]
      have hstep : Receive.step s.st (.data d ok) =
          { s.st with svc := { s.st.svc with svcReceive := some c }.put c { a with receiveThreadStatus := .dataCbQueued },
                      lock := s.st.lock + 1 } := by
        rw [step_data h.running]
        simp only [stepData, hd]
        rfl
      refine h.put hses hbase hstep (Heap.Keeps.refl _) hlearn ⟨hat, fun _ => ?_⟩ htr.given htr.delivered
      exact (hsync.context (by rw [hst]; simp)).congr rfl rfl rfl rfl rfl rfl
  | dataCbQueued =>
    rw [hst] at hat
    rw [waits_step h hu hses hat.1 (data_waits hsess htr.supported (Or.inr hst))]
    exact h
  | dataCbProcessed =>
    rw [hst] at hat
    obtain ⟨heap, hk, -, -, hd⟩ := @data_processed d ok _ c a hsess htr.supported hst
    have hcount := (count_of_stage h.base hc).2 hst
    have hlearn : s.learn (.data d ok) = Function.update s.sessions c
        (some { ses with answer := some (if a.receiveError = .none then .cont else .error) }) := by
      simp only [learn, hu, hses, Option.map_some, hd]
      rw [Session.present, if_pos hat.1]
    have hstep := step_data h.running d ok
    rw [stepData_eq hd] at hstep
    refine h.put hses hbase hstep hk hlearn ⟨?_, fun hf => absurd rfl hf⟩ (fun k hk hkc => ?_) fun _ _ _ _ => hcount
    · dsimp only
      by_cases he : a.receiveError = .none
      · exact Or.inr ⟨by simp [he], hat.2.1⟩
      · exact Or.inl (by simp [he])
    · have hg := htr.given k hk hkc
      exact ⟨hg.cb, hg.target, hg.request, hg.response, hg.whole, hg.fits⟩
  | free =>
    -- the connector presents nothing to a session that has its last answer
    rw [hst] at hat
    obtain hat | ⟨hat, hcomp⟩ := hat
    · simp [Session.expects, hat] at hexp
    · simp [Session.expects, hat, hcomp] at hexp

/-- a target callback opens a session in a block nobody uses, or none -/
theorem target_inv {s : Conn} (h : s.Inv) (r : TargetReq) (env : TargetEnv) : (s.step (.target r env)).Inv := by
  have hbase := Receive.step_inv s.st (.target r env) h.base trivial
  have hstep : Receive.step s.st (.target r env) =
      { s.st with svc := (processDeviceRequestTarget r env s.st.svc).1 } := step_target h.running r env
  have hst : (s.step (.target r env)).st = { s.st with svc := (processDeviceRequestTarget r env s.st.svc).1 } := hstep
  have hfresh := h.base.fresh s.st.svc.heap.next le_rfl
  cases hopen : openSession r env s.st.svc with
  | some p =>
    obtain ⟨c, ses⟩ := p
    obtain ⟨rfl, hcomp, hsup, heap, a, hk, he, hsync, -⟩ := openSession_some hopen
    have hmap : (s.step (.target r env)).sessions = Function.update s.sessions s.st.svc.heap.next (some ses) := by
      simp only [step, learn, hopen]
    rw [he] at hst
    refine h.touch s.st.svc.heap.next hbase (by rw [hst]; exact h.running) (by rw [hst]; exact h.alive)
      (by rw [hst]; rfl) (by rw [hst]) (by rw [hst]; exact hk) (fun c' hne => ?_) (fun c' hne => ?_)
      (@at_known _ _ ses ?_ ?_)
    · rw [hst]
      exact Function.update_of_ne hne _ _
    · rw [hmap, Function.update_of_ne hne]
    · rw [hmap, Function.update_self]
    · have hlive : (s.step (.target r env)).st.svc.ctx s.st.svc.heap.next = .live a := by
        rw [hst]
        exact Function.update_self _ _ _
      have hcount : s.count s.st.svc.heap.next = 0 := by
        have hg := h.base.handoff.given s.st.svc.heap.next
        simp only [Handoff.Given, St.abs, Handoff.view, hfresh, Cell.map, List.map_map] at hg
        exact hg
      refine ⟨by rw [hst]; exact hsup, (inSync_live hlive).2 (by rw [hst]; exact hsync), fun k hk' hkc => ?_, ?_⟩
      · rw [hst] at hk'
        exact absurd hkc (no_call hcount k hk')
      · intro hwhole
        rw [hcomp] at hwhole
        contradiction
  | none =>
    have hmap : (s.step (.target r env)).sessions = s.sessions := by simp only [step, learn, hopen]
    obtain ⟨-, -, hctx⟩ := target_cases r env s.st.svc
    have hkeeps := target_keeps r env s.st.svc
    have hsup := target_supported r env s.st.svc
    refine h.touch s.st.svc.heap.next hbase (by rw [hst]; exact h.running) (by rw [hst]; exact h.alive)
      (by rw [hst]; exact hsup) (by rw [hst]) (by rw [hst]; exact hkeeps) (fun c' hne => ?_) (fun c' _ => by rw [hmap])
      (at_unknown ?_ fun a ha => ?_)
    · rw [hst]
      obtain he | ⟨a, -, -, he⟩ := hctx
      · exact congrFun he c'
      · exact (congrFun he c').trans (Function.update_of_ne hne _ _)
    · rw [hmap]
      cases hses : s.sessions s.st.svc.heap.next with
      | none => rfl
      | some ses => exact absurd hfresh (h.tracked hses).sync.allocated
    · rw [hst] at ha
      obtain he | ⟨a', ha', -, he⟩ := hctx
      · have hnew := (congrFun he s.st.svc.heap.next).trans hfresh
        rw [ha] at hnew
        contradiction
      · have hnew := (congrFun he s.st.svc.heap.next).trans (Function.update_self _ _ _)
        rw [ha] at hnew
        rw [Cell.live.inj hnew, ha']

/-- a callback or step that leaves the request of its context alone, and the connector none the wiser -/
theorem Inv.rewrite {s t : Conn} (h : s.Inv) {c : ℕ} {a a' : SvcReceive} (hc : s.st.svc.ctx c = .live a)
    (base : Receive.Inv t.st) (hcr : t.st.crashed = false) (hpc : t.st.pc ≠ .exited)
    (hsup : t.st.svc.receiveSupported = s.st.svc.receiveSupported) (hcalls : t.st.calls = s.st.calls)
    (hk : s.st.svc.heap.Keeps t.st.svc.heap) (hctx : t.st.svc.ctx = Function.update s.st.svc.ctx c (.live a'))
    (hmap : t.sessions = s.sessions)
    (hst : a'.receiveThreadStatus = a.receiveThreadStatus ∨
      a.receiveThreadStatus = .dataCbQueued ∧ a'.receiveThreadStatus = .dataCbProcessed)
    (hsame : a'.target = a.target ∧ a'.responseRequired = a.responseRequired ∧ a'.maxRequestSize = a.maxRequestSize ∧
      a'.dataCb = a.dataCb ∧ a'.requestBuffer = a.requestBuffer ∧ a'.requestLength = a.requestLength) : t.Inv := by
  have hlive : t.st.svc.ctx c = .live a' := by rw [hctx, Function.update_self]
  refine h.touch c base hcr hpc hsup hcalls hk (fun c' hne => by rw [hctx, Function.update_of_ne hne])
    (fun c' _ => by rw [hmap]) ?_
  cases hses : s.sessions c with
  | none =>
    refine at_unknown (hmap ▸ hses) fun x hx => ?_
    have hidle := h.unknown hses hc
    rw [hlive] at hx
    rw [← Cell.live.inj hx]
    obtain hst | ⟨hst, -⟩ := hst
    · rw [hst, hidle]
    · rw [hidle] at hst
      contradiction
  | some ses =>
    have htr := h.tracked hses
    have hsync := (inSync_live hc).1 htr.sync
    refine at_known (hmap ▸ hses) ⟨hsup ▸ htr.supported, (inSync_live hlive).2 ⟨?_, fun hf => ?_⟩, ?_, ?_⟩
    · have hat := hsync.stage
      obtain hst | ⟨hq, hp⟩ := hst
      · rw [hst]; exact hat
      · rw [hq] at hat
        rw [hp]
        exact hat
    · obtain ⟨h1, h2, h3, h4, h5, h6⟩ := hsame
      refine ((hsync.context ?_).congr h1 h2 h3 h4 h5 h6).keeps hk
      obtain hst | ⟨hq, -⟩ := hst
      · rwa [hst] at hf
      · rw [hq]; simp
    · rw [hcalls]; exact htr.given
    · rw [count, hcalls]; exact htr.delivered

/-- a reply needs the session's target only -/
theorem reply_some {r : ReplyReq} {s : Svc} (ok : Bool)
    (h : ∀ c a, s.session r.userContext = some (c, a) → a.target ≠ none) :
    ∃ t status reply, processDeviceRequestResponse r ok s = some (t, status, reply) := by
  unfold processDeviceRequestResponse
  split
  · exact ⟨_, _, _, rfl⟩
  · rename_i c a hu
    obtain ⟨target, ht⟩ := Option.ne_none_iff_exists'.1 (h c a hu)
    split_ifs
    · cases ok <;> simp [fillInternalError, ht, Heap.malloc]
    · exact ⟨_, _, _, rfl⟩
    · exact ⟨_, _, _, rfl⟩

theorem reply_inv {s : Conn} (h : s.Inv) {r : ReplyReq} {ok : Bool} (hl : s.Legal (.reply r ok)) :
    (s.step (.reply r ok)).Inv := by
  have hbase := Receive.step_inv s.st (.reply r ok) h.base trivial
  obtain ⟨t, status, reply, he⟩ := reply_some ok hl
  have hst : (s.step (.reply r ok)).st = { s.st with svc := t } := step_reply h.running he
  obtain rfl | ⟨c, a, a', heap, hc, hk, rfl, ha'⟩ := reply_cases he
  · have hsame : s.step (.reply r ok) = s := by
      rw [step, show Receive.step s.st (.reply r ok) = s.st from hst]
      rfl
    rw [hsame]
    exact h
  · refine @Inv.rewrite s _ h c a a' hc hbase ?_ ?_ ?_ ?_ ?_ ?_ rfl (Or.inl (by rw [ha'])) (by rw [ha']; simp)
    all_goals rw [hst]
    · exact h.running
    · exact h.alive
    · rfl
    · exact hk
    · rfl

/-- a status callback ends its session, whether or not the connector got it accepted -/
theorem status_inv {s : Conn} (h : s.Inv) {r : StatusReq} (hl : s.Legal (.status r)) : (s.step (.status r)).Inv := by
  have hbase := Receive.step_inv s.st (.status r) h.base hl
  have hst : (s.step (.status r)).st = { s.st with svc := (processDeviceRequestStatus r s.st.svc).1 } :=
    step_status h.running r
  cases hu : r.userContext with
  | none =>
    have hsvc : (processDeviceRequestStatus r s.st.svc).1 = s.st.svc := by
      simp [processDeviceRequestStatus, Svc.session, hu]
    have hsame : s.step (.status r) = s := by
      rw [step, show Receive.step s.st (.status r) = s.st by rw [step_status h.running, hsvc]]
      simp only [learn, hu]
    rw [hsame]
    exact h
  | some c =>
    have hmap : (s.step (.status r)).sessions =
        Function.update s.sessions c ((s.sessions c).map fun ses => { ses with ended := true }) := by
      simp only [step, learn, hu]
    -- what is left of the context: nothing changed, or it is released
    have hcases : (s.step (.status r)).st.svc.receiveSupported = s.st.svc.receiveSupported ∧
        s.st.svc.heap.Keeps (s.step (.status r)).st.svc.heap ∧
        ((s.step (.status r)).st.svc.ctx = s.st.svc.ctx ∨
          ∃ a', (s.step (.status r)).st.svc.ctx = Function.update s.st.svc.ctx c (.freed a')) := by
      obtain he | ⟨c', a, a', heap, hsess, -, hk, he⟩ := status_cases r s.st.svc
      · rw [hst, he]
        exact ⟨rfl, Heap.Keeps.refl _, Or.inl rfl⟩
      · obtain ⟨hc', -⟩ := session_some hsess
        rw [hu, Option.some.injEq] at hc'
        subst hc'
        rw [hst, he]
        exact ⟨rfl, hk, Or.inr ⟨a', rfl⟩⟩
    obtain ⟨hsup, hk, hctx⟩ := hcases
    refine h.touch c hbase (by rw [hst]; exact h.running) (by rw [hst]; exact h.alive) hsup (by rw [hst]) hk
      (fun c' hne => ?_) (fun c' hne => by rw [hmap, Function.update_of_ne hne]) ?_
    · obtain he | ⟨a', he⟩ := hctx
      · rw [he]
      · rw [he, Function.update_of_ne hne]
    · cases hses : s.sessions c with
      | none =>
        refine at_unknown (by rw [hmap, Function.update_self, hses]; rfl) fun a ha => ?_
        obtain he | ⟨a', he⟩ := hctx
        · exact h.unknown hses (he ▸ ha)
        · rw [he, Function.update_self] at ha
          contradiction
      | some ses =>
        have htr := h.tracked hses
        refine @at_known _ _ { ses with ended := true } (by rw [hmap, Function.update_self, hses]; rfl)
          ⟨hsup ▸ htr.supported, ?_, fun k hkm hkc => ?_, ?_⟩
        · unfold InSync
          obtain he | ⟨a', he⟩ := hctx
          · have hsync := htr.sync
            unfold InSync at hsync
            rw [he]
            cases hc : s.st.svc.ctx c with
            | unallocated => rw [hc] at hsync; exact hsync
            | freed a => rfl
            | live a =>
              simp only [hc] at hsync ⊢
              have hs := hsync.keeps hk
              refine ⟨hs.stage, fun hf => ?_⟩
              obtain ⟨h1, h2, h3, h4, h5, h6, h7, h8⟩ := hs.context hf
              exact ⟨h1, h2, h3, h4, h5, h6, h7, h8⟩
          · rw [he, Function.update_self]
        · rw [hst] at hkm
          obtain ⟨h1, h2, h3, h4, h5, h6⟩ := htr.given k hkm hkc
          exact ⟨h1, h2, h3, h4, h5, h6⟩
        · rw [count, hst]
          exact htr.delivered

/-- a step of the thread that leaves every context alone -/
theorem Inv.advance {s t : Conn} (h : s.Inv) (base : Receive.Inv t.st) (hcr : t.st.crashed = s.st.crashed)
    (hpc : t.st.pc ≠ .exited) (hsup : t.st.svc.receiveSupported = s.st.svc.receiveSupported)
    (hcalls : t.st.calls = s.st.calls) (hheap : t.st.svc.heap = s.st.svc.heap) (hctx : t.st.svc.ctx = s.st.svc.ctx)
    (hmap : t.sessions = s.sessions) : t.Inv := by
  refine ⟨base, hcr.trans h.running, hpc, fun c => (h.contexts c).frame (by rw [hctx]) ?_ (by rw [hmap]) hsup
    (fun k hk _ => hcalls ▸ hk) (by rw [count, count, hcalls])⟩
  rw [hheap]
  exact Heap.Keeps.refl _

/-- the connector knows the session that is queued -/
theorem Inv.queued {s : Conn} (h : s.Inv) {c : ℕ} {a : SvcReceive} (hc : s.st.svc.ctx c = .live a)
    (hst : a.receiveThreadStatus = .dataCbQueued) :
    ∃ ses, s.sessions c = some ses ∧ s.Tracked c ses ∧ ses.At .dataCbQueued ∧ ses.InContext s.st.svc.heap a := by
  cases hses : s.sessions c with
  | none =>
    have := h.unknown hses hc
    rw [hst] at this
    contradiction
  | some ses =>
    have htr := h.tracked hses
    have hsync := (inSync_live hc).1 htr.sync
    exact ⟨ses, rfl, htr, hst ▸ hsync.stage, hsync.context (by rw [hst]; simp)⟩

/-- the call the thread makes for a queued session is the one it is to be given -/
theorem given_call {s : Svc} {c : ℕ} {a : SvcReceive} {ses : Session} (hc : s.ctx c = .live a)
    (hat : ses.At .dataCbQueued) (hctx : ses.InContext s.heap a) :
    ∃ k, userCall s c = some k ∧ k.ctx = c ∧ ses.Given c k := by
  have hreq : (match a.requestBuffer with
      | some b => s.heap.read b a.requestLength
      | none => []) = ses.payload := hctx.bytes
  refine ⟨_, by simp only [userCall, hc, Cell.val?, Option.map_some]; rfl, rfl, ?_⟩
  exact ⟨hctx.callback.1, hctx.target, hreq, by simp only [hctx.response], hat.2.1, hat.2.2.2.1⟩

theorem call_inv {s : Conn} (h : s.Inv) {c : ℕ} (hpc : s.st.pc = .checked c) : (s.step .call).Inv := by
  have hbase := Receive.step_inv s.st .call h.base trivial
  obtain ⟨-, a, hc, hst⟩ := in_hand h.base.handoff (Or.inr (Or.inl hpc))
  obtain ⟨ses, hses, htr, hat, hctx⟩ := h.queued hc hst
  obtain ⟨k, hk, hkc, hgiven⟩ := given_call hc hat hctx
  have hstep : (s.step .call).st =
      { s.st with touches := s.st.touch c, pc := .calling c, calls := s.st.calls ++ [k] } := by
    simp only [step, Receive.step, h.running, Bool.false_eq_true, if_false, stepThread, hpc, hk, Option.toList]
  have hmap : (s.step .call).sessions = s.sessions := rfl
  refine ⟨hbase, by rw [hstep]; exact h.running, by rw [hstep]; simp, fun c' => ?_⟩
  by_cases hne : c' = c
  · subst hne
    refine at_known (hmap ▸ hses) ⟨by rw [hstep]; exact htr.supported, by rw [hstep]; exact htr.sync, ?_, ?_⟩
    · rw [hstep]
      intro k' hk' hkc'
      rcases List.mem_append.1 hk' with hk' | hk'
      · exact htr.given k' hk' hkc'
      · rw [List.mem_singleton.1 hk']
        exact hgiven
    · intro _ _ _ hans
      exact absurd hat.1 hans
  · refine (h.contexts c').frame (by rw [hstep]) (by rw [hstep]; exact Heap.Keeps.refl _) (by rw [hmap]) (by rw [hstep])
      (fun k' hk' hkc' => ?_) ?_
    · rw [hstep] at hk'
      rcases List.mem_append.1 hk' with hk' | hk'
      · exact hk'
      · rw [List.mem_singleton.1 hk', hkc] at hkc'
        exact absurd hkc'.symm hne
    · have hck : (k.ctx == c') = false := by
        rw [hkc]
        exact beq_false_of_ne fun e => hne e.symm
      simp only [count, hstep, List.map_append, List.map_cons, List.map_nil, List.count_append, List.count_singleton, hck,
        Bool.false_eq_true, if_false, Nat.add_zero]

theorem wake_inv {s : Conn} (h : s.Inv) : (s.step .wake).Inv := by
  have hbase := Receive.step_inv s.st .wake h.base trivial
  have hstep : (s.step .wake).st = stepThread s.st .wake := by
    simp only [step, Receive.step, h.running, Bool.false_eq_true, if_false]
  by_cases hpc : s.st.pc = .waiting ∧ 0 < s.st.lock
  · obtain ⟨hpc, hlock⟩ := hpc
    obtain ⟨l, hl⟩ : ∃ l, s.st.lock = l + 1 := ⟨s.st.lock - 1, by omega⟩
    -- the lock is released with the slot filled
    obtain ⟨c, hslot⟩ : ∃ c, s.st.svc.svcReceive = some c := by
      have hh := h.base.handoff.hand
      simp only [Handoff.Hand, St.abs, Handoff.view, hpc, Pc.abs, hl] at hh
      obtain ⟨-, hl0⟩ | ⟨c, hslot, -⟩ := hh
      · simp at hl0
      · exact ⟨c, hslot⟩
    simp only [stepThread, hpc, hl, hslot] at hstep
    exact h.advance hbase (by rw [hstep]) (by rw [hstep]; simp) (by rw [hstep]) (by rw [hstep]) (by rw [hstep])
      (by rw [hstep]) rfl
  · have hsame : (s.step .wake).st = s.st := by
      rw [hstep]
      unfold stepThread
      dsimp only
      split
      · rename_i hw hl
        exact absurd ⟨hw, by omega⟩ hpc
      · rfl
    exact h.advance hbase (by rw [hsame]) (by rw [hsame]; exact h.alive) (by rw [hsame]) (by rw [hsame]) (by rw [hsame])
      (by rw [hsame]) rfl

/-- a step of the thread that is not enabled -/
theorem Inv.same {s : Conn} (h : s.Inv) {o : Op} (hst : Receive.step s.st o = s.st) (hmap : s.learn o = s.sessions) :
    (s.step o).Inv := by
  have hsame : s.step o = s := by rw [step, hst, hmap]
  rw [hsame]
  exact h

theorem check_inv {s : Conn} (h : s.Inv) : (s.step .check).Inv := by
  have hbase := Receive.step_inv s.st .check h.base trivial
  have hstep : Receive.step s.st .check = stepThread s.st .check := by
    simp only [Receive.step, h.running, Bool.false_eq_true, if_false]
  cases hpc : s.st.pc
  case picked c =>
    obtain ⟨-, a, hc, hst⟩ := in_hand h.base.handoff (Or.inl hpc)
    obtain ⟨ses, -, -, -, hctx⟩ := h.queued hc hst
    have hready : readyForUser (s.st.svc.ctx c) = true := by
      simp [readyForUser, hc, Cell.val?, hst, hctx.callback.2]
    have hst' : (s.step .check).st = { s.st with touches := s.st.touch c, pc := .checked c } := by
      rw [show (s.step .check).st = stepThread s.st .check from hstep]
      simp only [stepThread, hpc, hready, if_true]
    exact h.advance hbase (by rw [hst']) (by rw [hst']; simp) (by rw [hst']) (by rw [hst']) (by rw [hst'])
      (by rw [hst']) rfl
  all_goals exact h.same (by rw [hstep]; simp only [stepThread, hpc]) rfl

theorem ret_inv {s : Conn} (h : s.Inv) (e : ReceiveError) (response : Option (List UInt8)) :
    (s.step (.ret e response)).Inv := by
  have hbase := Receive.step_inv s.st (.ret e response) h.base trivial
  have hstep : Receive.step s.st (.ret e response) = stepThread s.st (.ret e response) := by
    simp only [Receive.step, h.running, Bool.false_eq_true, if_false]
  cases hpc : s.st.pc
  case calling c =>
    obtain ⟨-, a, hc, hst⟩ := in_hand h.base.handoff (Or.inr (Or.inr (Or.inl hpc)))
    have hst' : (s.step (.ret e response)).st =
        { s.st with touches := s.st.touch c, pc := .returned c, svc := storeResult c e response s.st.svc } := by
      rw [show (s.step (.ret e response)).st = stepThread s.st (.ret e response) from hstep]
      simp only [stepThread, hpc]
    obtain ⟨a', hctx, hsame⟩ := storeResult_ctx e response hc
    refine @Inv.rewrite s _ h c a a' hc hbase ?_ ?_ ?_ ?_ ?_ ?_ rfl (Or.inl hsame.1) hsame.2
    all_goals rw [hst']
    · exact h.running
    · simp
    · cases response <;> rfl
    · exact keeps_storeResult c e response s.st.svc
    · exact hctx
  all_goals exact h.same (by rw [hstep]; simp only [stepThread, hpc]) rfl

theorem settle_inv {s : Conn} (h : s.Inv) : (s.step .settle).Inv := by
  have hbase := Receive.step_inv s.st .settle h.base trivial
  have hstep : Receive.step s.st .settle = stepThread s.st .settle := by
    simp only [Receive.step, h.running, Bool.false_eq_true, if_false]
  cases hpc : s.st.pc
  case returned c =>
    obtain ⟨-, a, hc, hst⟩ := in_hand h.base.handoff (Or.inr (Or.inr (Or.inr hpc)))
    have hsettle : a.settle = { a with receiveThreadStatus := .dataCbProcessed } := by
      rw [SvcReceive.settle, if_pos hst]
    have hst' : (s.step .settle).st =
        { s.st with touches := s.st.touch c, pc := .settled,
                    svc := { s.st.svc with ctx := Function.update s.st.svc.ctx c (.live a.settle) } } := by
      rw [show (s.step .settle).st = stepThread s.st .settle from hstep]
      simp only [stepThread, hpc, hc, Cell.map]
    refine @Inv.rewrite s _ h c a a.settle hc hbase ?_ ?_ ?_ ?_ ?_ ?_ rfl (Or.inr ⟨hst, by rw [hsettle]⟩)
      (by rw [hsettle]; simp)
    all_goals rw [hst']
    · exact h.running
    · simp
    · exact Heap.Keeps.refl _
  all_goals exact h.same (by rw [hstep]; simp only [stepThread, hpc]) rfl

theorem clear_inv {s : Conn} (h : s.Inv) : (s.step .clear).Inv := by
  have hbase := Receive.step_inv s.st .clear h.base trivial
  have hstep : Receive.step s.st .clear = stepThread s.st .clear := by
    simp only [Receive.step, h.running, Bool.false_eq_true, if_false]
  cases hpc : s.st.pc
  case settled =>
    have hst' : (s.step .clear).st = { s.st with pc := .waiting, svc := { s.st.svc with svcReceive := none } } := by
      rw [show (s.step .clear).st = stepThread s.st .clear from hstep]
      simp only [stepThread, hpc]
    exact h.advance hbase (by rw [hst']) (by rw [hst']; simp) (by rw [hst']) (by rw [hst']) (by rw [hst'])
      (by rw [hst']) rfl
  all_goals exact h.same (by rw [hstep]; simp only [stepThread, hpc]) rfl

/-- **Step.** What the connector may do and whatever the thread does keeps the view in sync. -/
theorem step_inv (s : Conn) (o : Op) (h : s.Inv) (hl : s.Legal o) : (s.step o).Inv := by
  cases o with
  | target r env => exact target_inv h r env
  | data d ok => exact data_inv h hl
  | reply r ok => exact reply_inv h hl
  | status r => exact status_inv h hl
  | wake => exact wake_inv h
  | check => exact check_inv h
  | call =>
    cases hpc : s.st.pc
    case checked c => exact call_inv h hpc
    all_goals
      refine h.same ?_ rfl
      simp only [Receive.step, h.running, Bool.false_eq_true, if_false, stepThread, hpc]
  | ret e response => exact ret_inv h e response
  | settle => exact settle_inv h
  | clear => exact clear_inv h

theorem run_inv {s : Conn} (h : s.Init) {ops : List Op} (hl : Along step Legal s ops) : (run step s ops).Inv :=
  Runs.run_inv step_inv (inv_init h) hl

/-! ## Progress -/

/-- one turn of the thread's loop; the user's callback returns with no error and leaves the response alone -/
def turn : List Op := [.wake, .check, .call, .ret .none none, .settle, .clear]

theorem legal_turn (s : Conn) : Along step Legal s turn := ⟨trivial, trivial, trivial, trivial, trivial, trivial, trivial⟩

theorem turn_sessions (s : Conn) : (run step s turn).sessions = s.sessions := rfl

theorem turn_st (s : Conn) : (run step s turn).st = run Receive.step s.st turn := rfl

/-- a turn brings the thread back to its lock, with the slot empty -/
theorem turn_clears {s : Conn} (h : s.Inv) :
    (run step s turn).st.pc = .waiting ∧ (run step s turn).st.svc.svcReceive = none := by
  have hrun := h.running
  have hhand := h.base.handoff.hand
  rw [turn_st]
  cases hpc : s.st.pc with
  | exited => exact absurd hpc h.alive
  | settled => simp [turn, Receive.step, stepThread, hrun, hpc]
  | returned c => simp [turn, Receive.step, stepThread, hrun, hpc]
  | calling c => simp [turn, Receive.step, stepThread, hrun, hpc]
  | checked c => simp [turn, Receive.step, stepThread, hrun, hpc]
  | picked c =>
    obtain ⟨-, a, hc, hst⟩ := in_hand h.base.handoff (Or.inl hpc)
    obtain ⟨ses, -, -, -, hctx⟩ := h.queued hc hst
    have hready : readyForUser (s.st.svc.ctx c) = true := by simp [readyForUser, hc, Cell.val?, hst, hctx.callback.2]
    simp [turn, Receive.step, stepThread, hrun, hpc, hready]
  | waiting =>
    simp only [Handoff.Hand, St.abs, Handoff.view, hpc, Pc.abs] at hhand
    obtain ⟨hslot, hl⟩ | ⟨c, hslot, hl, hq⟩ := hhand
    · simp [turn, Receive.step, stepThread, hrun, hpc, hl, hslot]
    · obtain ⟨a, hc, hst⟩ := Cell.map_eq_live.1 hq
      rw [stage_queued] at hst
      obtain ⟨ses, -, -, -, hctx⟩ := h.queued hc hst
      have hready : readyForUser (s.st.svc.ctx c) = true := by
        simp [readyForUser, hc, Cell.val?, hst, hctx.callback.2]
      simp [turn, Receive.step, stepThread, hrun, hpc, hl, hslot, hready]

/-- a session that has been handed to the thread is queued, or done with -/
def HandedOver (s : St) (c : ℕ) : Prop :=
  ∃ a, s.svc.ctx c = .live a ∧ (a.receiveThreadStatus = .dataCbQueued ∨ a.receiveThreadStatus = .dataCbProcessed)

theorem thread_handedOver {s : St} {c : ℕ} (h : HandedOver s c) (o : Op) : HandedOver (stepThread s o) c := by
  obtain ⟨a, hc, hst⟩ := h
  cases o with
  | target | data | reply | status => exact ⟨a, hc, hst⟩
  | wake | check | call | clear =>
    unfold stepThread
    dsimp only
    split
    all_goals first | exact ⟨a, hc, hst⟩ | (split <;> exact ⟨a, hc, hst⟩)
  | ret e response =>
    unfold stepThread
    dsimp only
    split
    · rename_i i _
      by_cases hi : c = i
      · subst hi
        obtain ⟨a', hctx, hsame, -⟩ := storeResult_ctx e response hc
        refine ⟨a', ?_, hsame ▸ hst⟩
        dsimp only
        rw [hctx, Function.update_self]
      · refine ⟨a, ?_, hst⟩
        cases response <;> simpa [storeResult, Function.update_of_ne hi] using hc
    · exact ⟨a, hc, hst⟩
  | settle =>
    unfold stepThread
    dsimp only
    split
    · rename_i i _
      by_cases hi : c = i
      · subst hi
        refine ⟨a.settle, by simp [hc, Cell.map], ?_⟩
        unfold SvcReceive.settle
        split_ifs with hq
        · exact Or.inr rfl
        · exact hst
      · exact ⟨a, by simpa [Function.update_of_ne hi] using hc, hst⟩
    · exact ⟨a, hc, hst⟩

/-- the operations of the thread -/
def OfThread : Op → Prop
  | .wake | .check | .call | .ret _ _ | .settle | .clear => True
  | _ => False

theorem step_thread {s : Conn} (h : s.Inv) {o : Op} (ho : OfThread o) :
    (s.step o).Inv ∧ Receive.step s.st o = stepThread s.st o ∧ (s.step o).sessions = s.sessions := by
  have hrun := h.running
  cases o with
  | target | data | reply | status => exact ho.elim
  | wake | check | call | ret | settle | clear =>
    exact ⟨step_inv s _ h trivial, by simp only [Receive.step, hrun, Bool.false_eq_true, if_false], rfl⟩

/-- a turn keeps the view in sync, and a handed-over session handed over -/
theorem turn_handedOver {s : Conn} (h : s.Inv) {c : ℕ} (hq : HandedOver s.st c) : HandedOver (run step s turn).st c := by
  have hstep : ∀ (t : Conn) o, t.Inv ∧ HandedOver t.st c → OfThread o → (t.step o).Inv ∧ HandedOver (t.step o).st c := by
    intro t o ⟨ht, hq⟩ ho
    obtain ⟨hinv, hst, -⟩ := step_thread ht ho
    exact ⟨hinv, show HandedOver (Receive.step t.st o) c from hst ▸ thread_handedOver hq o⟩
  have hC : Along step (fun _ o => OfThread o) s turn := ⟨trivial, trivial, trivial, trivial, trivial, trivial, trivial⟩
  exact (@Runs.run_inv Conn Op step (fun t => t.Inv ∧ HandedOver t.st c) _ hstep s turn ⟨h, hq⟩ hC).2

theorem turn_inv {s : Conn} (h : s.Inv) : (run step s turn).Inv := Runs.run_inv step_inv h (legal_turn s)

/-- the last segment of a session, presented again -/
def again (c : ℕ) (ses : Session) : Op := .data ⟨some c, ses.segments.getLast?.getD [], false⟩ true

/-- the connector may present again what is answered busy -/
theorem legal_again {s : Conn} (h : s.Inv) {c : ℕ} {ses : Session} (hses : s.sessions c = some ses)
    (hend : ses.ended = false) (hans : ses.answer = some .busy) :
    s.Legal (again c ses) ∧ ∃ a, s.st.svc.ctx c = .live a ∧
      (a.receiveThreadStatus = .dataCbReady ∨ a.receiveThreadStatus = .dataCbQueued ∨
        a.receiveThreadStatus = .dataCbProcessed) := by
  have htr := h.tracked hses
  obtain ⟨a, hc, hsync⟩ := htr.sync.live hend
  have hat := hsync.stage
  -- what is answered busy is the last segment
  have hlast : ses.complete = true → ses.segments ≠ [] → s.Legal (again c ses) := by
    intro hcomp hne
    refine ⟨c, ses, rfl, hses, hend, ?_⟩
    simp [Session.expects, hans, hcomp, List.getLast?_eq_getLast_of_ne_nil hne]
  cases hst : a.receiveThreadStatus with
  | idle =>
    rw [hst] at hat
    rcases hat.1 with e | e <;> simp [hans] at e
  | free =>
    rw [hst] at hat
    rcases hat with e | ⟨e, -⟩ <;> simp [hans] at e
  | dataCbReady | dataCbQueued | dataCbProcessed =>
    rw [hst] at hat
    exact ⟨hlast hat.2.1 hat.2.2.2.2, a, hc, by simp [hst]⟩

/-- a session that the thread is done with gets its last answer -/
theorem again_finishes {s : Conn} (h : s.Inv) {c : ℕ} {ses : Session} {a : SvcReceive} (hses : s.sessions c = some ses)
    (hans : ses.answer = some .busy) (hc : s.st.svc.ctx c = .live a) (hst : a.receiveThreadStatus = .dataCbProcessed) :
    ∃ status, status ≠ .busy ∧ (s.step (again c ses)).sessions c = some { ses with answer := some status } := by
  have hsess : s.st.svc.session (some c) = some (c, a) := by simp [Svc.session, hc]
  obtain ⟨heap, -, -, -, hd⟩ := @data_processed ⟨some c, ses.segments.getLast?.getD [], false⟩ true _ c a hsess
    (h.tracked hses).supported hst
  refine ⟨if a.receiveError = .none then .cont else .error, by split_ifs <;> simp, ?_⟩
  simp only [again, step, learn, hses, Option.map_some, hd, Function.update_self]
  rw [Session.present, if_pos hans]

/-- one that is ready is handed over when the slot is empty -/
theorem again_hands_over {s : Conn} (h : s.Inv) {c : ℕ} {ses : Session} {a : SvcReceive}
    (hses : s.sessions c = some ses) (hans : ses.answer = some .busy) (hc : s.st.svc.ctx c = .live a)
    (hst : a.receiveThreadStatus = .dataCbReady) (hslot : s.st.svc.svcReceive = none) :
    (s.step (again c ses)).sessions c = some ses ∧ HandedOver (s.step (again c ses)).st c := by
  have hsess : s.st.svc.session (some c) = some (c, a) := by simp [Svc.session, hc]
  have hd := @data_offered ⟨some c, ses.segments.getLast?.getD [], false⟩ true _ c a hsess (h.tracked hses).supported
    hst hslot
  constructor
  · simp only [again, step, learn, hses, Option.map_some, hd, Function.update_self, present_again hans]
  · refine ⟨{ a with receiveThreadStatus := .dataCbQueued }, ?_, Or.inl rfl⟩
    have hstep : (s.step (again c ses)).st = stepData _ true s.st := step_data h.running _ _
    rw [hstep]
    simp only [stepData, hd, Svc.put, Function.update_self]

/-- the thread's steps, and data callbacks of session c -/
def Resumes (c : ℕ) : Op → Prop
  | .data d _ => d.userContext = some c
  | o => OfThread o

/-- **Progress.** From every reachable state the thread and the connector, presenting the session's last segment again,
can bring a session that is answered busy to its last answer. -/
theorem can_finish {s : Conn} (h : s.Inv) {c : ℕ} {ses : Session} (hses : s.sessions c = some ses)
    (hend : ses.ended = false) (hans : ses.answer = some .busy) :
    ∃ ops status, Along step Legal s ops ∧ (∀ o ∈ ops, Resumes c o) ∧ status ≠ .busy ∧
      (run step s ops).sessions c = some { ses with answer := some status } := by
  -- from a state with the session handed over and the slot empty, one data callback is enough
  have hlast : ∀ t : Conn, t.Inv → t.sessions c = some ses → t.st.svc.svcReceive = none → HandedOver t.st c →
      ∃ status, t.Legal (again c ses) ∧ status ≠ .busy ∧
        (t.step (again c ses)).sessions c = some { ses with answer := some status } := by
    rintro t ht hts hslot ⟨a, hc, hst⟩
    have hst : a.receiveThreadStatus = .dataCbProcessed := by
      refine hst.resolve_left fun hq => ?_
      have hq' : t.st.abs.ctx c = .live .queued := by
        simp [St.abs, Handoff.view, hc, Cell.map, SvcReceive.stage, hq, ReceiveThreadStatus.stage]
      have := ht.base.handoff.only c hq'
      simp [St.abs, Handoff.view, hslot] at this
    obtain ⟨status, hne, he⟩ := again_finishes ht hts hans hc hst
    exact ⟨status, (legal_again ht hts hend hans).1, hne, he⟩
  have hthread : ∀ o ∈ turn, Resumes c o := by simp [turn, Resumes, OfThread]
  have h1 := turn_inv h
  have hs1 : (run step s turn).sessions c = some ses := by rw [turn_sessions]; exact hses
  obtain ⟨-, hslot1⟩ := turn_clears h
  obtain ⟨hl1, a, hc, hst⟩ := legal_again h1 hs1 hend hans
  by_cases hready : a.receiveThreadStatus = .dataCbReady
  · -- the session is offered, and the thread takes another turn
    obtain ⟨hs2, hq2⟩ := again_hands_over h1 hs1 hans hc hready hslot1
    have h2 := step_inv _ _ h1 hl1
    obtain ⟨-, hslot3⟩ := turn_clears h2
    obtain ⟨status, hl3, hne, he⟩ := hlast _ (turn_inv h2) (by rw [turn_sessions]; exact hs2) hslot3
      (turn_handedOver h2 hq2)
    refine ⟨turn ++ again c ses :: (turn ++ [again c ses]), status, ?_, ?_, hne, ?_⟩
    · rw [along_append]
      refine ⟨legal_turn s, hl1, ?_⟩
      rw [along_append]
      exact ⟨legal_turn _, hl3, trivial⟩
    · intro o ho
      simp only [List.mem_append, List.mem_cons, List.not_mem_nil, or_false] at ho
      rcases ho with ho | rfl | ho | rfl
      · exact hthread o ho
      · rfl
      · exact hthread o ho
      · rfl
    · simp only [run_append, run_cons, run_nil]
      exact he
  · obtain ⟨status, hl2, hne, he⟩ := hlast _ h1 hs1 hslot1 ⟨a, hc, hst.resolve_left hready⟩
    refine ⟨turn ++ [again c ses], status, ?_, ?_, hne, ?_⟩
    · rw [along_append]
      exact ⟨legal_turn s, hl2, trivial⟩
    · intro o ho
      rcases List.mem_append.1 ho with ho | ho
      · exact hthread o ho
      · rw [List.mem_singleton.1 ho]
        rfl
    · simp only [run_append, run_cons, run_nil]
      exact he

/-! ## Exactness -/

/-- what the hand-off owes a session -/
structure Exact (s : Conn) (c : ℕ) (ses : Session) : Prop where
  /-- the user is called for it with its own data, its context being there -/
  given : ∀ k ∈ s.st.calls, k.ctx = c → k.live = true ∧ ses.Given c k
  atMostOnce : s.count c ≤ 1
  /-- its last segment has been answered for good, and nothing was refused -/
  once : ses.complete = true → ¬ses.exceeds → ses.memory = true → ses.answer ≠ some .busy → s.count c = 1
  /-- and while it is not, the way there is open -/
  finishes : ses.ended = false → ses.answer = some .busy → ∃ ops status, Along step Legal s ops ∧
    (∀ o ∈ ops, Resumes c o) ∧ status ≠ .busy ∧
    (run step s ops).sessions c = some { ses with answer := some status } ∧ (run step s ops).count c = 1
  tooBig : ses.exceeds → s.count c = 0
  /-- while it is queued it has the slot -/
  undisplaced : ∀ a, s.st.svc.ctx c = .live a → a.receiveThreadStatus = .dataCbQueued → s.st.svc.svcReceive = some c

theorem Inv.exactness {s : Conn} (h : s.Inv) {c : ℕ} {ses : Session} (hses : s.sessions c = some ses) : s.Exact c ses := by
  have htr := h.tracked hses
  refine ⟨fun k hk hkc => ⟨?_, htr.given k hk hkc⟩, ?_, htr.delivered, fun hend hans => ?_, fun hbig => ?_,
    fun a hc hst => ?_⟩
  · exact h.base.handoff.called (k.ctx, k.live) (List.mem_map_of_mem hk)
  · rw [← count_eq]
    exact h.base.handoff.once c
  · obtain ⟨ops, status, hl, hops, hne, he⟩ := can_finish h hses hend hans
    refine ⟨ops, status, hl, hops, hne, he, ?_⟩
    have hfin := (Runs.run_inv step_inv h hl).tracked he
    -- what is answered busy is whole, fits and met no failure
    obtain ⟨-, a, hc, hst⟩ := legal_again h hses hend hans
    have hat := ((inSync_live hc).1 htr.sync).stage
    rcases hst with hst | hst | hst <;> rw [hst] at hat <;>
      exact hfin.delivered hat.2.1 hat.2.2.2.1 hat.2.2.1 (by simpa using hne)
  · by_contra hne
    obtain ⟨k, hk, hkc⟩ := List.mem_map.1 (List.count_pos_iff.1 (Nat.pos_of_ne_zero hne))
    exact (htr.given k hk hkc).fits hbig
  · have hq : s.st.abs.ctx c = .live .queued := by
      simp [St.abs, Handoff.view, hc, Cell.map, SvcReceive.stage, hst, ReceiveThreadStatus.stage]
    exact h.base.handoff.only c hq

/-- **Exactness.** Any number of sessions, any split of their payloads, any interleaving. -/
theorem handed_over_exactly {s : Conn} (h : s.Init) {ops : List Op} (hl : Along step Legal s ops) {c : ℕ} {ses : Session}
    (hses : (run step s ops).sessions c = some ses) : (run step s ops).Exact c ses :=
  (run_inv h hl).exactness hses

/-- a service with one registered target, whose requests may have four bytes -/
def four : Conn := ⟨.fresh true (some 7) none [⟨ascii "a", 8, none, 4⟩], fun _ => none⟩

/-- a data callback for the session with context c -/
def sends (c : ℕ) (bytes : List UInt8) (more : Bool) : Op := .data ⟨some c, bytes, more⟩ true

/-- three sessions at once: one in two segments, one that waits for the slot, one that is too big for its target -/
def threeSessions : List Op :=
  [.target ⟨some (ascii "a"), .tcp, true, none⟩ ⟨true, true, true⟩, sends 0 [1, 2] true,
   .target ⟨some (ascii "b"), .udp, false, none⟩ ⟨true, true, true⟩, sends 3 [9] false, sends 0 [3, 4] false,
   .target ⟨some (ascii "a"), .sms, true, none⟩ ⟨true, true, true⟩, sends 0 [3, 4] false, sends 3 [9] false,
   sends 7 [5, 6, 7, 8, 9] false, .wake, .check, sends 3 [9] false, .call, .ret .none (some [1]), .settle,
   sends 0 [3, 4] false, .clear, .status ⟨some 0, .complete⟩, sends 3 [9] false]

theorem handed_over_three_sessions :
    let s := run step four threeSessions
    ∃ a b t, s.sessions 0 = some a ∧ s.sessions 3 = some b ∧ s.sessions 7 = some t ∧ a.payload = [1, 2, 3, 4] ∧
      b.answer = some .busy ∧ t.exceeds ∧ s.Exact 0 a ∧ s.Exact 3 b ∧ s.Exact 7 t := by
  have hinit : four.Init := ⟨init_fresh _ _ _ _, fun _ => rfl⟩
  have hlegal : Along step Legal four threeSessions := by decide
  refine ⟨_, _, _, rfl, rfl, rfl, ?_, ?_, ?_, handed_over_exactly hinit hlegal rfl, handed_over_exactly hinit hlegal rfl,
    handed_over_exactly hinit hlegal rfl⟩ <;> decide

end Conn

end CcApi.Receive
