/-
The receive service from the connector's request to the connector's reply (`ccapi_data_handler.c`).

The hand-off of the request (`Conn`) and the streaming of the response (`Talk`) are two views of the same machine. Here they
run together, with a user whose data callback answers each request by itself: `User` is any function of the callback, the
target and the request.

- `Session.reply`: what the connector is to be given for a session, from its request and the user's answer alone.
- `step_inv`: every step keeps each context's error and response those of its own request.
- `sessions_served`: whatever the interleaving, the user is called for a session at most once, with its own request, the pieces of
  the reply make up `Session.reply`, and the request is refused exactly where that says so.

Premises: those of `Receive.Model`, of `Conn.Legal` and of `Talk.Legal`.
-/
import CcApi.Receive.Exact
import CcApi.Receive.Replies

namespace CcApi.Receive

open Lib Lib.Runs Lib.Drain

/-- the user's data callbacks: by the callback, the target and the request, the error and the bytes of the response -/
abbrev User := Option ℕ → Str → List UInt8 → ReceiveError × Option (List UInt8)

/-! ## What a session is to be given -/

namespace Session

variable (user : User) (ses : Session)

/-- the user's answer to the request -/
def userAnswer : ReceiveError × Option (List UInt8) := user ses.dataCb ses.target ses.payload

/-- the request does not get to the user -/
def Stopped : Prop := ses.exceeds ∨ ses.memory = false

instance : Decidable ses.Stopped := inferInstanceAs (Decidable (_ ∨ _))

/-- the error the request ends with -/
def verdict : ReceiveError :=
  if ses.exceeds then .requestTooBig else if ses.memory = false then .insufficientMemory else (ses.userAnswer user).1

/-- the response that the user leaves -/
def userResponse : Option (List UInt8) :=
  if ses.Stopped ∨ ses.responseRequired = false then none else (ses.userAnswer user).2

/-- what the connector is to be given: the user's bytes, or the library's message where there is an error and none of them -/
def reply : List UInt8 :=
  if ses.verdict user ≠ .none ∧ (ses.userResponse user).getD [] = [] then internalErrorText (ses.verdict user) ses.target
  else (ses.userResponse user).getD []

variable {user ses}

theorem verdict_exceeds (h : ses.exceeds) : ses.verdict user = .requestTooBig := if_pos h

theorem verdict_memory (h : ¬ ses.exceeds) (hm : ses.memory = false) : ses.verdict user = .insufficientMemory := by
  rw [verdict, if_neg h, if_pos hm]

theorem verdict_whole (h : ¬ ses.exceeds) (hm : ses.memory = true) : ses.verdict user = (ses.userAnswer user).1 := by
  rw [verdict, if_neg h, if_neg (by simp [hm])]

theorem userResponse_stopped (h : ses.Stopped) : ses.userResponse user = none := if_pos (.inl h)

theorem userResponse_whole (h : ¬ ses.exceeds) (hm : ses.memory = true) :
    ses.userResponse user = if ses.responseRequired then (ses.userAnswer user).2 else none := by
  unfold userResponse Stopped
  cases ses.responseRequired <;> simp [h, hm]

end Session

/-! ## The two views together -/

/-- the machine, with the connector's view of its sessions and with what has been said about them -/
structure Rpc where
  conn : Conn
  said : ℕ → Said

namespace Rpc

def talk (x : Rpc) : Talk := ⟨x.conn.st, x.said⟩

def step (x : Rpc) (o : Op) : Rpc := { conn := x.conn.step o, said := x.talk.learn o }

/-- the user's data callback returns what the user answers to what it was given -/
def Honest (user : User) (x : Rpc) : Op → Prop
  | .ret e response => ∀ c, x.conn.st.pc = .calling c → ∀ k ∈ x.conn.st.calls, k.ctx = c →
      (e, response) = user k.cb (k.target.getD []) k.request
  | _ => True

structure Legal (user : User) (x : Rpc) (o : Op) : Prop where
  conn : x.conn.Legal o
  talk : x.talk.Legal o
  honest : x.Honest user o

instance (user : User) (x : Rpc) : ∀ o, Decidable (x.Honest user o)
  | .ret e response =>
    decidable_of_iff (∀ k ∈ x.conn.st.calls, x.conn.st.pc = .calling k.ctx →
        (e, response) = user k.cb (k.target.getD []) k.request)
      ⟨fun h _ hpc k hk hkc => h k hk (hkc ▸ hpc), fun h k hk hpc => h k.ctx hpc k hk rfl⟩
  | .target .. | .data .. | .reply .. | .status _ | .wake | .check | .call | .settle | .clear =>
    inferInstanceAs (Decidable True)

instance (user : User) (x : Rpc) (o : Op) : Decidable (x.Legal user o) :=
  decidable_of_iff (x.conn.Legal o ∧ x.talk.Legal o ∧ x.Honest user o)
    ⟨fun h => ⟨h.1, h.2.1, h.2.2⟩, fun h => ⟨h.conn, h.talk, h.honest⟩⟩

structure Init (x : Rpc) : Prop where
  conn : x.conn.Init
  said : ∀ c, x.said c = Said.nothing

theorem step_talk {x : Rpc} (h : x.conn.st.crashed = false) (o : Op) : (x.step o).talk = x.talk.step o := by
  have hcr : x.talk.st.crashed = false := h
  rw [Talk.step, hcr]
  rfl

/-! ## A context and its session -/

variable {user : User}

/-- what has been said of a session is about its own request -/
structure Settled (user : User) (ses : Session) (d : Said) : Prop where
  /-- a message is built where the user has left no bytes with its error -/
  tried : ∀ m ∈ d.tried, ses.verdict user ≠ .none ∧ (ses.userResponse user).getD [] = [] ∧
    (m = none ∨ m = some (internalErrorText (ses.verdict user) ses.target))
  required : d.given ≠ [] → ses.responseRequired = true
  refused : ses.answer = some .error → ses.verdict user ≠ .none
  accepted : ses.answer = some .cont → ses.complete = true → ses.verdict user = .none

/-- the error and the response of a live context, at each stage -/
structure Linked (user : User) (pc : Pc) (c : ℕ) (ses : Session) (d : Said) (a : SvcReceive) : Prop where
  target : a.target.map HeapStr.text = some ses.target
  required : a.responseRequired = ses.responseRequired
  unanswered : a.receiveThreadStatus = .idle ∨ a.receiveThreadStatus = .dataCbReady ∨
    (a.receiveThreadStatus = .dataCbQueued ∧ pc ≠ .returned c) → a.receiveError = .none ∧ d.left = none
  answered : (a.receiveThreadStatus = .dataCbQueued ∧ pc = .returned c) ∨ a.receiveThreadStatus = .dataCbProcessed →
    a.receiveError = ses.verdict user ∧ d.left.map Left.bytes = ses.userResponse user
  finished : a.receiveThreadStatus = .free →
    (d.tried = [] → a.receiveError = ses.verdict user) ∧ d.left.map Left.bytes = ses.userResponse user
  ended : d.ended = true → a.receiveThreadStatus = .free

/-- what is handed out is the reply, unless there was no memory for its message -/
def Delivers (user : User) (ses : Session) (d : Said) : Prop :=
  none ∉ d.tried → d.given ≠ [] → d.response = ses.reply user

def LinkedAt (user : User) (pc : Pc) (c : ℕ) (ses : Session) (d : Said) : Cell SvcReceive → Prop
  | .unallocated => False
  | .live a => Linked user pc c ses d a
  | .freed _ => Delivers user ses d

/-- what the machine, the connector and the record of what was said agree on about a session -/
structure At (user : User) (x : Rpc) (c : ℕ) (ses : Session) : Prop where
  settled : Settled user ses (x.said c)
  linked : LinkedAt user x.conn.st.pc c ses (x.said c) (x.conn.st.svc.ctx c)

structure Inv (user : User) (x : Rpc) : Prop where
  conn : x.conn.Inv
  talk : x.talk.Inv
  contexts : ∀ c ses, x.conn.sessions c = some ses → x.At user c ses

theorem inv_init {x : Rpc} (h : x.Init) : x.Inv user where
  conn := Conn.inv_init h.conn
  talk := Talk.inv_init ⟨h.conn.st, h.said⟩
  contexts c ses hses := by
    rw [h.conn.sessions] at hses
    cases hses

theorem Linked.move {pc pc' : Pc} {c : ℕ} {ses : Session} {d : Said} {a : SvcReceive} (h : Linked user pc c ses d a)
    (hpc : pc' = .returned c ↔ pc = .returned c) : Linked user pc' c ses d a := by
  refine { h with unanswered := fun hs => h.unanswered ?_, answered := fun hs => h.answered ?_ }
  · simpa only [ne_eq, hpc] using hs
  · simpa only [hpc] using hs

/-- a session that a step leaves alone -/
theorem At.frame {x y : Rpc} {c : ℕ} {ses : Session} (h : x.At user c ses)
    (hctx : y.conn.st.svc.ctx c = x.conn.st.svc.ctx c) (hsaid : y.said c = x.said c)
    (hpc : y.conn.st.pc = .returned c ↔ x.conn.st.pc = .returned c) : y.At user c ses := by
  refine ⟨hsaid ▸ h.settled, ?_⟩
  have hl := h.linked
  rw [hctx, hsaid]
  cases hc : x.conn.st.svc.ctx c with
  | unallocated => simp [hc, LinkedAt] at hl
  | live a =>
    rw [hc] at hl
    exact Linked.move hl hpc
  | freed a =>
    rw [hc] at hl
    exact hl

/-! ## Steps -/

theorem At.live {x : Rpc} {c : ℕ} {ses : Session} {a : SvcReceive} (h : x.At user c ses)
    (hc : x.conn.st.svc.ctx c = .live a) : Linked user x.conn.st.pc c ses (x.said c) a := by
  have hl := h.linked
  rwa [hc] at hl

theorem Inv.phase {x : Rpc} (h : x.Inv user) {c : ℕ} {a : SvcReceive} (hc : x.conn.st.svc.ctx c = .live a) :
    Phase x.conn.st.svc.heap x.conn.st.svc.receiveSupported (x.said c) a := by
  have hp := h.talk.tracked c
  change Tracked _ _ (x.said c) (x.conn.st.svc.ctx c) at hp
  rwa [hc] at hp

/-- while its request goes on nothing has been asked about a session -/
theorem Inv.unasked {x : Rpc} (h : x.Inv user) {c : ℕ} {ses : Session} {a : SvcReceive} (hc : x.conn.st.svc.ctx c = .live a)
    (hl : Linked user x.conn.st.pc c ses (x.said c) a) (hst : a.receiveThreadStatus ≠ .free) :
    (x.said c).ended = false ∧ (x.said c).given = [] ∧ (x.said c).tried = [] := by
  have hended : (x.said c).ended = false := by
    by_contra hne
    exact hst (hl.ended (by simpa using hne))
  exact ⟨hended, (h.phase hc).unasked hended⟩

/-- a session about which nothing has been asked yet is settled once its answer agrees with its verdict -/
theorem settled_of_unasked {ses : Session} {d : Said} (hd : d.given = [] ∧ d.tried = [])
    (refused : ses.answer = some .error → ses.verdict user ≠ .none)
    (accepted : ses.answer = some .cont → ses.complete = true → ses.verdict user = .none) : Settled user ses d where
  tried m hm := by
    rw [hd.2] at hm
    cases hm
  required hne := absurd hd.1 hne
  refused := refused
  accepted := accepted

/-- a session whose request is over -/
theorem linked_of_free {pc : Pc} {c : ℕ} {ses : Session} {d : Said} {a : SvcReceive} (hst : a.receiveThreadStatus = .free)
    (target : a.target.map HeapStr.text = some ses.target) (required : a.responseRequired = ses.responseRequired)
    (finished : (d.tried = [] → a.receiveError = ses.verdict user) ∧ d.left.map Left.bytes = ses.userResponse user) :
    Linked user pc c ses d a := by
  refine ⟨target, required, fun hs => ?_, fun hs => ?_, fun _ => finished, fun _ => hst⟩ <;> rw [hst] at hs <;> simp at hs

/-- the segment of an idle session -/
theorem linked_idle {x : Rpc} (h : x.Inv user) {c : ℕ} {ses : Session} {a : SvcReceive} {d : DataReq} {ok : Bool}
    (hses : x.conn.sessions c = some ses) (hc : x.conn.st.svc.ctx c = .live a)
    (hsync : ses.Sync x.conn.st.svc.heap a) (hst : a.receiveThreadStatus = .idle) :
    ∃ a', (appendSegment c a d ok x.conn.st.svc).1.ctx c = .live a' ∧
      Settled user (ses.present d ok (appendSegment c a d ok x.conn.st.svc).2)
        ((x.said c).heard (appendSegment c a d ok x.conn.st.svc).2 d.moreData) ∧
      Linked user x.conn.st.pc c (ses.present d ok (appendSegment c a d ok x.conn.st.svc).2)
        ((x.said c).heard (appendSegment c a d ok x.conn.st.svc).2 d.moreData) a' := by
  have hl := (h.contexts c ses hses).live hc
  obtain ⟨hended, hgiven, htried⟩ := h.unasked hc hl (by rw [hst]; decide)
  have hat := hsync.stage
  rw [hst] at hat
  obtain ⟨hans, -, hmem, -⟩ := hat
  have hnb : ses.answer ≠ some .busy := by rcases hans with e | e <;> rw [e] <;> simp
  have hctx := hsync.context (by rw [hst]; decide)
  obtain ⟨herror, hleft⟩ := hl.unanswered (.inl hst)
  have hsize (answer : CallbackStatus) :
      a.requestLength + d.buffer.length = (ses.extend d ok answer).payload.length := by
    rw [hctx.length, Session.payload_extend, List.length_append]
  rw [show ses.present d ok = ses.extend d ok from funext fun _ => Conn.present_new hnb]
  obtain ⟨hlim, hbig, he⟩ | ⟨hbig, rfl, he⟩ | ⟨hbig, rfl, heap, -, -, -, he⟩ :=
    appendSegment_cases c a d ok x.conn.st.svc
  · have hexceeds : (ses.extend d ok .error).exceeds := by
      rw [hctx.limit] at hlim hbig
      rw [hsize .error] at hbig
      exact ⟨hlim, hbig⟩
    rw [he, Said.heard_error]
    refine ⟨_, Function.update_self _ _ _, settled_of_unasked ⟨hgiven, htried⟩ (fun _ => ?_) (fun hcont => ?_),
      linked_of_free rfl hl.target hl.required ⟨fun _ => ?_, ?_⟩⟩
    · rw [Session.verdict_exceeds hexceeds]
      decide
    · cases hcont
    · exact (Session.verdict_exceeds hexceeds).symm
    · rw [Session.userResponse_stopped (.inl hexceeds), hleft]
      rfl
  · have hfits : ¬ (ses.extend d false .error).exceeds := by
      rw [hctx.limit, hsize .error] at hbig
      exact hbig
    have hmemory : (ses.extend d false .error).memory = false := by simp [Session.extend]
    rw [he, Said.heard_error]
    refine ⟨_, Function.update_self _ _ _, settled_of_unasked ⟨hgiven, htried⟩ (fun _ => ?_) (fun hcont => ?_),
      linked_of_free rfl hl.target hl.required ⟨fun _ => ?_, ?_⟩⟩
    · rw [Session.verdict_memory hfits hmemory]
      decide
    · cases hcont
    · exact (Session.verdict_memory hfits hmemory).symm
    · rw [Session.userResponse_stopped (.inr hmemory), hleft]
      rfl
  · rw [he]
    cases hm : d.moreData with
    | true =>
      have hsame : (x.said c).heard .cont true = x.said c := by simp [Said.heard]
      simp only [if_true, hsame]
      refine ⟨_, Function.update_self _ _ _, settled_of_unasked ⟨hgiven, htried⟩ (fun herr => ?_) (fun _ hlast => ?_), ?_⟩
      · cases herr
      · simp [Session.extend, hm] at hlast
      · exact ⟨hl.target, hl.required, fun _ => ⟨herror, hleft⟩, fun hs => by simp [hst] at hs, fun hs => by simp [hst] at hs,
          fun he => by simp [hended] at he⟩
    | false =>
      simp only [Bool.false_eq_true, if_false, Said.heard_busy hended]
      refine ⟨_, Function.update_self _ _ _, settled_of_unasked ⟨hgiven, htried⟩ (fun herr => ?_) (fun hcont => ?_), ?_⟩
      · cases herr
      · cases hcont
      · exact ⟨hl.target, hl.required, fun _ => ⟨herror, hleft⟩, fun hs => by simp at hs, fun hs => by simp at hs,
          fun he => by simp [hended] at he⟩

/-- a data callback of a session that the connector may present a segment to -/
theorem linked_data {x : Rpc} (h : x.Inv user) {c : ℕ} {ses : Session} {d : DataReq} (ok : Bool)
    (hu : d.userContext = some c) (hses : x.conn.sessions c = some ses) (hend : ses.ended = false) (hexp : ses.expects d) :
    ∃ a', (processDeviceRequestData d ok x.conn.st.svc).1.ctx c = .live a' ∧
      Settled user (ses.present d ok (processDeviceRequestData d ok x.conn.st.svc).2.1)
        ((x.said c).heard (processDeviceRequestData d ok x.conn.st.svc).2.1 d.moreData) ∧
      Linked user x.conn.st.pc c (ses.present d ok (processDeviceRequestData d ok x.conn.st.svc).2.1)
        ((x.said c).heard (processDeviceRequestData d ok x.conn.st.svc).2.1 d.moreData) a' := by
  have htr := h.conn.tracked hses
  obtain ⟨a, hc, hsync⟩ := htr.sync.live hend
  have hx := h.contexts c ses hses
  have hl := hx.live hc
  have hsess : x.conn.st.svc.session d.userContext = some (c, a) := by simp [Svc.session, hu, hc]
  have hat := hsync.stage
  cases hst : a.receiveThreadStatus with
  | idle =>
    rw [data_idle hsess htr.supported hst]
    exact linked_idle h hses hc hsync hst
  | dataCbReady =>
    rw [hst] at hat
    obtain ⟨hended, -⟩ := h.unasked hc hl (by rw [hst]; decide)
    by_cases hslot : x.conn.st.svc.svcReceive = none
    · rw [data_offered hsess htr.supported hst hslot, Said.heard_busy hended, Conn.present_again hat.1]
      refine ⟨_, Function.update_self _ _ _, hx.settled, ⟨hl.target, hl.required, fun _ => hl.unanswered (.inr (.inl hst)),
        fun hs => ?_, fun hs => by simp at hs, fun he => by simp [hended] at he⟩⟩
      -- the thread has no session in its hand that is not queued
      rcases hs with ⟨-, hpc⟩ | hs
      · obtain ⟨-, b, hb, hqueued⟩ := in_hand h.conn.base.handoff (.inr (.inr (.inr hpc)))
        obtain rfl := Cell.live.inj (hc.symm.trans hb)
        rw [hst] at hqueued
        cases hqueued
      · simp at hs
    · rw [data_waits hsess htr.supported (.inl ⟨hst, hslot⟩), Said.heard_busy hended, Conn.present_again hat.1]
      exact ⟨a, hc, hx.settled, hl⟩
  | dataCbQueued =>
    rw [hst] at hat
    obtain ⟨hended, -⟩ := h.unasked hc hl (by rw [hst]; decide)
    rw [data_waits hsess htr.supported (.inr hst), Said.heard_busy hended, Conn.present_again hat.1]
    exact ⟨a, hc, hx.settled, hl⟩
  | dataCbProcessed =>
    rw [hst] at hat
    obtain ⟨-, hgiven, htried⟩ := h.unasked hc hl (by rw [hst]; decide)
    obtain ⟨herror, hleft⟩ := hl.answered (.inr hst)
    obtain ⟨heap, -, -, -, he⟩ := @data_processed _ ok _ _ _ hsess htr.supported hst
    rw [he]
    dsimp only
    rw [Session.present, if_pos hat.1]
    refine ⟨_, Function.update_self _ _ _, settled_of_unasked ⟨hgiven, htried⟩ (fun ha => ?_) (fun ha _ => ?_),
      linked_of_free rfl hl.target hl.required ⟨fun _ => herror, hleft⟩⟩
    · change ses.verdict user ≠ .none
      rw [← herror]
      intro hnone
      simp [hnone] at ha
    · change ses.verdict user = .none
      rw [← herror]
      by_contra hne
      simp [hne] at ha
  | free =>
    -- the connector presents nothing to a session that has its last answer
    rw [hst] at hat
    obtain hat | ⟨hat, hcomp⟩ := hat
    · simp [Session.expects, hat] at hexp
    · simp [Session.expects, hat, hcomp] at hexp

theorem data_ctx {d : DataReq} {ok : Bool} {s : Svc} {c : ℕ} (hne : d.userContext ≠ some c) :
    (processDeviceRequestData d ok s).1.ctx c = s.ctx c := by
  obtain he | ⟨c', a, a', heap, slot, hu, -, he⟩ := data_cases d ok s
  · rw [he]
  · rw [he]
    refine Function.update_of_ne (fun heq => ?_) _ _
    subst heq
    exact hne (session_some hu).1

theorem Inv.data {x : Rpc} (h : x.Inv user) {d : DataReq} {ok : Bool} (hl : x.conn.Legal (.data d ok)) {c : ℕ} {ses : Session}
    (hses : (x.step (.data d ok)).conn.sessions c = some ses) : (x.step (.data d ok)).At user c ses := by
  obtain ⟨c', ses', hu, hses', hend, hexp⟩ := hl
  have hst : (x.step (.data d ok)).conn.st = stepData d ok x.conn.st := Conn.step_data h.conn.running d ok
  have hsvc : (x.step (.data d ok)).conn.st.svc = (processDeviceRequestData d ok x.conn.st.svc).1 := by
    rw [hst]
    rfl
  have hpc : (x.step (.data d ok)).conn.st.pc = x.conn.st.pc := by
    rw [hst]
    rfl
  have hsessions : (x.step (.data d ok)).conn.sessions = Function.update x.conn.sessions c'
      (some (ses'.present d ok (processDeviceRequestData d ok x.conn.st.svc).2.1)) := by
    simp only [step, Conn.step, Conn.learn, hu, hses', Option.map_some]
  have hsaid : (x.step (.data d ok)).said = Function.update x.said c'
      ((x.said c').heard (processDeviceRequestData d ok x.conn.st.svc).2.1 d.moreData) := by
    simp only [step, Talk.learn, hu]
    rfl
  by_cases hne : c = c'
  · subst hne
    rw [hsessions, Function.update_self] at hses
    obtain rfl := Option.some.inj hses
    obtain ⟨a', hc, hsettled, hlinked⟩ := linked_data h ok hu hses' hend hexp
    refine ⟨?_, ?_⟩
    · rw [hsaid, Function.update_self]
      exact hsettled
    · rw [hsaid, Function.update_self, hsvc, hc, hpc]
      exact hlinked
  · rw [hsessions, Function.update_of_ne hne] at hses
    refine (h.contexts c ses hses).frame ?_ ?_ (by rw [hpc])
    · rw [hsvc]
      exact data_ctx (by rw [hu]; exact fun he => hne (Option.some.inj he).symm)
    · rw [hsaid, Function.update_of_ne hne]

/-- a reply that hands out what is there -/
theorem linked_streams {x : Rpc} {c : ℕ} {ses : Session} {a : SvcReceive} (hx : x.At user c ses)
    (hc : x.conn.st.svc.ctx c = .live a) (hreq : a.responseRequired = true) (hended : (x.said c).ended = true) (r : ReplyReq)
    (heap : Heap) : Settled user ses ((x.said c).replied none (some (sendReply r a heap).2)) ∧
      Linked user x.conn.st.pc c ses ((x.said c).replied none (some (sendReply r a heap).2)) (sendReply r a heap).1 := by
  have hl := hx.live hc
  have hsame : ((x.said c).replied none (some (sendReply r a heap).2)).tried = (x.said c).tried := by simp [Said.replied]
  refine ⟨⟨?_, fun _ => hl.required ▸ hreq, hx.settled.refused, hx.settled.accepted⟩,
    linked_of_free (hl.ended hended) hl.target hl.required ?_⟩
  · rw [hsame]
    exact hx.settled.tried
  · rw [hsame]
    exact hl.finished (hl.ended hended)

/-- a reply that first builds its message, or finds no memory for it -/
theorem linked_builds {x : Rpc} (h : x.Inv user) {c : ℕ} {ses : Session} {a : SvcReceive} (hx : x.At user c ses)
    (hc : x.conn.st.svc.ctx c = .live a) (hb : a.builds) (hended : (x.said c).ended = true) {target : HeapStr}
    (ht : a.target = some target) (ok : Bool) (message : Option BufferInfo) (r : ReplyReq) (heap : Heap) :
    let text := if ok then some (internalErrorText a.receiveError target.text) else none
    let p := sendReply r (a.withMessage message) heap
    Settled user ses ((x.said c).replied (some text) (some p.2)) ∧
      Linked user x.conn.st.pc c ses ((x.said c).replied (some text) (some p.2)) p.1 := by
  intro text p
  have hl := hx.live hc
  have hp := h.phase hc
  have hfree := hl.ended hended
  have htried : (x.said c).tried = [] := by
    by_contra hne
    exact absurd (hb.2.2.1.symm.trans (hp.handled hne)) (by decide)
  obtain ⟨herror, hleft⟩ := hl.finished hfree
  have hverdict := herror htried
  have hempty : (ses.userResponse user).getD [] = [] := by
    have hlength := (hp.holds_record htried).length
    rw [hb.2.2.2, response_of_untried htried] at hlength
    rw [← hleft]
    exact List.eq_nil_of_length_eq_zero hlength
  have htext : target.text = ses.target := by
    have := hl.target
    rw [ht] at this
    exact Option.some.inj this
  have hsame : ((x.said c).replied (some text) (some p.2)).tried = [text] := by simp [Said.replied, htried]
  have hstatus : p.1.receiveThreadStatus = .free := by
    simp only [p, sendReply_eq]
    cases message <;> exact hfree
  refine ⟨⟨fun m hm => ?_, fun _ => hl.required ▸ hb.1, hx.settled.refused, hx.settled.accepted⟩,
    linked_of_free hstatus ?_ ?_ ⟨fun hno => ?_, hleft⟩⟩
  · rw [hsame, List.mem_singleton] at hm
    subst hm
    refine ⟨hverdict ▸ hb.2.1, hempty, ?_⟩
    cases ok with
    | true => exact .inr (by simp [text, hverdict, htext])
    | false => exact .inl rfl
  · simp only [p, sendReply_eq]
    cases message <;> exact hl.target
  · simp only [p, sendReply_eq]
    cases message <;> exact hl.required
  · rw [hsame] at hno
    cases hno

theorem reply_ctx {r : ReplyReq} {ok : Bool} {s t : Svc} {status : CallbackStatus} {reply : Option Reply} {c : ℕ}
    (h : processDeviceRequestResponse r ok s = some (t, status, reply)) (hne : r.userContext ≠ some c) :
    t.ctx c = s.ctx c := by
  unfold processDeviceRequestResponse at h
  split at h
  · obtain ⟨rfl, -⟩ := Prod.mk.inj (Option.some.inj h)
    rfl
  · rename_i c' a hu
    have hcc : c ≠ c' := fun he => hne (he ▸ (session_some hu).1)
    split_ifs at h
    · cases hf : fillInternalError ok { a with responseHandledInternally := true } s.heap with
      | none =>
        rw [hf] at h
        cases h
      | some p =>
        rw [hf] at h
        obtain ⟨rfl, -⟩ := Prod.mk.inj (Option.some.inj h)
        exact Function.update_of_ne hcc _ _
    · obtain ⟨rfl, -⟩ := Prod.mk.inj (Option.some.inj h)
      exact Function.update_of_ne hcc _ _
    · obtain ⟨rfl, -⟩ := Prod.mk.inj (Option.some.inj h)
      rfl

theorem Inv.reply {x : Rpc} (h : x.Inv user) {r : ReplyReq} {ok : Bool} (hlc : x.conn.Legal (.reply r ok))
    (hlt : x.talk.Legal (.reply r ok)) {c : ℕ} {ses : Session} (hses : x.conn.sessions c = some ses) :
    (x.step (.reply r ok)).At user c ses := by
  have hx := h.contexts c ses hses
  obtain ⟨t, status, reply, he⟩ := Conn.reply_some ok hlc
  have hst : (x.step (.reply r ok)).conn.st = { x.conn.st with svc := t } := Conn.step_reply h.conn.running he
  have hpc : (x.step (.reply r ok)).conn.st.pc = x.conn.st.pc := by rw [hst]
  by_cases hu : r.userContext = some c
  · have hsaid : (x.step (.reply r ok)).said c = (x.said c).replied (x.conn.st.svc.message r ok) reply := by
      simp only [step, Talk.learn, hu, Function.update_self]
      change (x.said c).replied (x.conn.st.svc.message r ok) (x.conn.st.svc.reply r ok) = _
      rw [Svc.reply, he]
      rfl
    have hended : (x.said c).ended = true := hlt c hu
    rcases Talk.session_none_or x.conn.st.svc c with hnone | ⟨a, ha⟩
    · have hsame : processDeviceRequestResponse r ok x.conn.st.svc = some (x.conn.st.svc, .error, none) := by
        simp [processDeviceRequestResponse, hu, hnone]
      rw [hsame] at he
      simp only [Option.some.injEq, Prod.mk.injEq] at he
      obtain ⟨rfl, -, rfl⟩ := he
      have hm : x.conn.st.svc.message r ok = none := by simp [Svc.message, hu, hnone]
      exact hx.frame (by rw [hst]) (by rw [hsaid, hm]; simp [Said.replied]) (by rw [hpc])
    · have hc := (session_some ha).2
      rw [← hu] at ha
      -- the context after the reply, and what has then been said
      have hmain : ∃ a', t.ctx c = .live a' ∧ Settled user ses ((x.said c).replied (x.conn.st.svc.message r ok) reply) ∧
          Linked user x.conn.st.pc c ses ((x.said c).replied (x.conn.st.svc.message r ok) reply) a' := by
        cases hreq : a.responseRequired with
        | false =>
          have hb : ¬ a.builds := fun hb => absurd (hreq.symm.trans hb.1) (by decide)
          rw [reply_optional _ ha hreq] at he
          simp only [Option.some.injEq, Prod.mk.injEq] at he
          obtain ⟨rfl, -, rfl⟩ := he
          have hsame : (x.said c).replied none none = x.said c := by simp [Said.replied]
          rw [message_eq ha, if_neg hb, hsame]
          exact ⟨a, hc, hx.settled, hx.live hc⟩
        | true =>
          by_cases hb : a.builds
          · obtain ⟨target, htarget⟩ := Option.ne_none_iff_exists'.1 (hlc c a ha)
            obtain ⟨heap, message, -, -, hbuilds⟩ := reply_builds ok ha hb htarget
            rw [hbuilds] at he
            simp only [Option.some.injEq, Prod.mk.injEq] at he
            obtain ⟨rfl, -, rfl⟩ := he
            rw [message_eq ha, if_pos hb, htarget]
            exact ⟨_, Function.update_self _ _ _, linked_builds h hx hc hb hended htarget ok message r heap⟩
          · rw [reply_streams _ ha hreq hb] at he
            simp only [Option.some.injEq, Prod.mk.injEq] at he
            obtain ⟨rfl, -, rfl⟩ := he
            rw [message_eq ha, if_neg hb]
            exact ⟨_, Function.update_self _ _ _, linked_streams hx hc hreq hended r _⟩
      obtain ⟨a', hc', hsettled, hlinked⟩ := hmain
      refine ⟨hsaid ▸ hsettled, ?_⟩
      rw [hsaid, hpc, hst]
      dsimp only
      rw [hc']
      exact hlinked
  · refine hx.frame ?_ ?_ (by rw [hpc])
    · rw [hst]
      exact reply_ctx he hu
    · simp only [step]
      cases huc : r.userContext with
      | none =>
        simp only [Talk.learn, huc]
        rfl
      | some c' =>
        simp only [Talk.learn, huc]
        exact Function.update_of_ne (fun heq : c = c' => hu (by rw [huc, heq])) _ _

/-- **What is handed out.** -/
theorem Linked.delivers {pc : Pc} {c : ℕ} {ses : Session} {d : Said} {a : SvcReceive} {heap : Heap} {supported : Bool}
    (h : Linked user pc c ses d a) (hs : Settled user ses d) (hp : Phase heap supported d a) : Delivers user ses d := by
  intro hmessage hgiven
  have hended : d.ended = true := by
    by_contra hne
    exact hgiven (hp.unasked (by simpa using hne)).1
  obtain ⟨herror, hleft⟩ := h.finished (h.ended hended)
  cases ht : d.tried with
  | nil =>
    have hbytes : d.response = (ses.userResponse user).getD [] := by rw [response_of_untried ht, hleft]
    rw [hbytes, Session.reply, if_neg]
    rintro ⟨hverdict, hempty⟩
    -- the reply would have built a message
    refine hp.kept hgiven ⟨h.required.trans (hs.required hgiven), herror ht ▸ hverdict, (hp.record ht).1, ?_⟩
    have hlength := (hp.holds_record ht).length
    rw [hbytes, hempty] at hlength
    exact hlength.symm
  | cons m l =>
    obtain ⟨hverdict, hempty, hm⟩ := hs.tried m (by rw [ht]; exact List.mem_cons_self)
    rcases hm with rfl | rfl
    · exact absurd (by rw [ht]; exact List.mem_cons_self) hmessage
    · rw [Session.reply, if_pos ⟨hverdict, hempty⟩, Said.response, ht]

theorem Inv.delivers {x : Rpc} (h : x.Inv user) {c : ℕ} {ses : Session} (hses : x.conn.sessions c = some ses) :
    Delivers user ses (x.said c) := by
  have hx := h.contexts c ses hses
  have hl := hx.linked
  cases hc : x.conn.st.svc.ctx c with
  | unallocated =>
    rw [hc] at hl
    exact hl.elim
  | live a => exact (hx.live hc).delivers hx.settled (h.phase hc)
  | freed a =>
    rw [hc] at hl
    exact hl

/-- a status callback ends its session -/
theorem Inv.status {x : Rpc} (h : x.Inv user) (r : StatusReq) {c : ℕ} {ses : Session}
    (hses : (x.step (.status r)).conn.sessions c = some ses) : (x.step (.status r)).At user c ses := by
  have hst : (x.step (.status r)).conn.st = { x.conn.st with svc := (processDeviceRequestStatus r x.conn.st.svc).1 } :=
    Conn.step_status h.conn.running r
  have hsaid : (x.step (.status r)).said = x.said := rfl
  have hctx : (processDeviceRequestStatus r x.conn.st.svc).1.ctx c = x.conn.st.svc.ctx c ∨
      ∃ a', r.userContext = some c ∧ (processDeviceRequestStatus r x.conn.st.svc).1.ctx c = .freed a' := by
    obtain he | ⟨c', a, a', heap, hu, -, -, he⟩ := status_cases r x.conn.st.svc
    · exact .inl (by rw [he])
    · by_cases hne : c = c'
      · subst hne
        exact .inr ⟨a', (session_some hu).1, by rw [he]; exact Function.update_self _ _ _⟩
      · exact .inl (by rw [he]; exact Function.update_of_ne hne _ _)
  -- the connector's record of the session, but for the note that it is over
  obtain ⟨ses', hses', hsame⟩ : ∃ ses', x.conn.sessions c = some ses' ∧ (ses = ses' ∨ ses = { ses' with ended := true }) := by
    simp only [step, Conn.step, Conn.learn] at hses
    cases hu : r.userContext with
    | none =>
      rw [hu] at hses
      exact ⟨ses, hses, .inl rfl⟩
    | some c' =>
      rw [hu] at hses
      dsimp only at hses
      by_cases hne : c = c'
      · subst hne
        rw [Function.update_self] at hses
        cases hs : x.conn.sessions c with
        | none => simp [hs] at hses
        | some ses' => exact ⟨ses', rfl, .inr (by simpa [hs] using hses.symm)⟩
      · rw [Function.update_of_ne hne] at hses
        exact ⟨ses, hses, .inl rfl⟩
  have hat : (x.step (.status r)).At user c ses' := by
    rcases hctx with hctx | ⟨a', -, hctx⟩
    · exact (h.contexts c ses' hses').frame (by rw [hst, hctx]) (by rw [hsaid]) (by rw [hst])
    · refine ⟨hsaid ▸ (h.contexts c ses' hses').settled, ?_⟩
      rw [hst, hsaid]
      dsimp only
      rw [hctx]
      exact h.delivers hses'
  rcases hsame with rfl | rfl
  · exact hat
  · refine ⟨⟨hat.settled.tried, hat.settled.required, hat.settled.refused, hat.settled.accepted⟩, ?_⟩
    have hl := hat.linked
    cases hc : (x.step (.status r)).conn.st.svc.ctx c with
    | unallocated =>
      rw [hc] at hl
      exact hl.elim
    | live a =>
      rw [hc] at hl
      exact ⟨hl.target, hl.required, hl.unanswered, hl.answered, hl.finished, hl.ended⟩
    | freed a =>
      rw [hc] at hl
      exact hl

theorem acceptTarget_error {s : Svc} {target : Str} {accepts : Bool} {a : SvcReceive}
    (h : (acceptTarget s target accepts a).2 = .cont) : (acceptTarget s target accepts a).1.receiveError = a.receiveError := by
  unfold acceptTarget at *
  cases hs : s.receiveSupported with
  | false => simp [hs] at h
  | true =>
    cases he : getTargetEntry s target with
    | some t => simp
    | none =>
      simp only [hs, he, not_true_eq_false, if_false] at h ⊢
      split_ifs at h ⊢
      rfl

/-- an accepted target callback records no error -/
theorem openSession_error {r : TargetReq} {env : TargetEnv} {s : Svc} {c : ℕ} {ses : Session}
    (h : openSession r env s = some (c, ses)) {a : SvcReceive} (ha : (processDeviceRequestTarget r env s).1.ctx c = .live a) :
    (processDeviceRequestTarget r env s).2.1 = .cont ∧ a.receiveError = .none := by
  unfold openSession at h
  split at h
  · rename_i target c' ht hp
    obtain ⟨rfl, -⟩ := Prod.mk.inj (Option.some.inj h)
    refine ⟨by rw [hp], ?_⟩
    unfold processDeviceRequestTarget at hp ha
    rw [ht] at hp ha
    dsimp only at hp ha
    by_cases hu : r.userContext.isSome = true
    · simp [hu] at hp
    · rw [if_neg hu] at hp ha
      cases hc : env.contextOk with
      | false => simp [hc, Heap.malloc] at hp
      | true =>
        cases hm : env.targetOk with
        | false => simp [hc, hm, Heap.malloc] at hp
        | true =>
          simp only [hc, hm, Heap.malloc, if_true] at hp ha
          obtain ⟨hcont, hnew⟩ := Prod.mk.inj hp
          obtain rfl := Option.some.inj hnew
          simp only [Svc.put, Function.update_self] at ha
          rw [← Cell.live.inj ha, acceptTarget_error hcont]
          rfl
  · cases h

/-- a target callback opens a session that nobody knows, or none -/
theorem Inv.target {x : Rpc} (h : x.Inv user) (r : TargetReq) (env : TargetEnv) {c : ℕ} {ses : Session}
    (hses : (x.step (.target r env)).conn.sessions c = some ses) : (x.step (.target r env)).At user c ses := by
  have hst : (x.step (.target r env)).conn.st =
      { x.conn.st with svc := (processDeviceRequestTarget r env x.conn.st.svc).1 } := Conn.step_target h.conn.running r env
  have hfresh := h.conn.base.fresh x.conn.st.svc.heap.next le_rfl
  have hopens := target_opens r env x.conn.st.svc
  by_cases hne : c = x.conn.st.svc.heap.next
  · subst hne
    have hunknown : x.conn.sessions x.conn.st.svc.heap.next = none := by
      cases hs : x.conn.sessions x.conn.st.svc.heap.next with
      | none => rfl
      | some ses' => exact absurd hfresh (h.conn.tracked hs).sync.allocated
    -- the connector knows it from this callback
    have hopen : openSession r env x.conn.st.svc = some (x.conn.st.svc.heap.next, ses) := by
      simp only [step, Conn.step, Conn.learn] at hses
      cases ho : openSession r env x.conn.st.svc with
      | none =>
        rw [ho] at hses
        dsimp only at hses
        rw [hunknown] at hses
        cases hses
      | some p =>
        obtain ⟨c', ses'⟩ := p
        obtain ⟨rfl, -⟩ := openSession_some ho
        rw [ho] at hses
        dsimp only at hses
        rw [Function.update_self] at hses
        rw [Option.some.inj hses]
    obtain ⟨-, -, -, heap, a, -, hprocess, hsync, hidle⟩ := openSession_some hopen
    have hlive : (processDeviceRequestTarget r env x.conn.st.svc).1.ctx x.conn.st.svc.heap.next = .live a := by
      rw [hprocess]
      exact Function.update_self _ _ _
    obtain ⟨hcont, herror⟩ := openSession_error hopen hlive
    obtain ⟨hctx, -⟩ | ⟨-, hu, hnew, -⟩ := hopens
    · rw [hctx, hfresh] at hlive
      cases hlive
    · have hsaid : (x.step (.target r env)).said x.conn.st.svc.heap.next = { Said.nothing with ended := false } := by
        have hl := Talk.learn_opened (t := x.talk) hu hnew
        change x.talk.learn (.target r env) _ = _
        rw [hl, Function.update_self]
        change ({ Said.nothing with ended := decide (_ = CallbackStatus.error) } : Said) = _
        rw [show (processDeviceRequestTarget r env x.talk.st.svc).2.1 = .cont from hcont]
        rfl
      have hat := hsync.stage
      rw [hidle] at hat
      have hcontext := hsync.context (by rw [hidle]; decide)
      refine ⟨?_, ?_⟩
      · rw [hsaid]
        refine settled_of_unasked ⟨rfl, rfl⟩ (fun he => ?_) (fun _ hlast => ?_)
        · rcases hat.1 with hans | hans <;> rw [hans] at he <;> cases he
        · rw [hat.2.1] at hlast
          cases hlast
      · rw [hsaid, hst]
        dsimp only
        rw [hlive]
        exact ⟨hcontext.target, hcontext.response, fun _ => ⟨herror, rfl⟩, fun hs => by simp [hidle] at hs,
          fun hs => by simp [hidle] at hs, fun he => by cases he⟩
  · have hold : x.conn.sessions c = some ses := by
      simp only [step, Conn.step, Conn.learn] at hses
      cases ho : openSession r env x.conn.st.svc with
      | none =>
        rw [ho] at hses
        exact hses
      | some p =>
        obtain ⟨c', ses'⟩ := p
        obtain ⟨rfl, -⟩ := openSession_some ho
        rw [ho] at hses
        dsimp only at hses
        rwa [Function.update_of_ne hne] at hses
    obtain ⟨hctx, hnone⟩ | ⟨a, hu, hnew, hctx, -⟩ := hopens
    · refine (h.contexts c ses hold).frame (by rw [hst, hctx]) ?_ (by rw [hst])
      change x.talk.learn (.target r env) c = x.said c
      rw [Talk.learn_unopened hnone]
      rfl
    · refine (h.contexts c ses hold).frame (by rw [hst, hctx, Function.update_of_ne hne]) ?_ (by rw [hst])
      change x.talk.learn (.target r env) c = x.said c
      rw [Talk.learn_opened hu hnew, Function.update_of_ne hne]
      rfl

/-- the user's data callback has been called with the context in the thread's hand -/
theorem Inv.called {x : Rpc} (h : x.Inv user) {c : ℕ} (hpc : x.conn.st.pc = .calling c) :
    ∃ k ∈ x.conn.st.calls, k.ctx = c := by
  have hbase := h.conn.base.handoff
  obtain ⟨-, a, hc, hst⟩ := in_hand hbase (.inr (.inr (.inl hpc)))
  have hg := hbase.given c
  rw [Conn.count_eq x.conn c] at hg
  simp only [Handoff.Given, St.abs, Handoff.view, hc, Cell.map, SvcReceive.stage, hst, ReceiveThreadStatus.stage, hpc, Pc.abs,
    true_or, if_true] at hg
  have hpos : 0 < (x.conn.st.calls.map Call.ctx).count c := by
    rw [show (x.conn.st.calls.map Call.ctx).count c = 1 from hg]
    exact Nat.one_pos
  exact List.mem_map.1 (List.count_pos_iff.1 hpos)

/-- **The user's answer** is stored with the request it was given for. -/
theorem Inv.ret {x : Rpc} (h : x.Inv user) {e : ReceiveError} {response : Option (List UInt8)}
    (hhonest : x.Honest user (.ret e response)) {c : ℕ} {ses : Session} (hses : x.conn.sessions c = some ses) :
    (x.step (.ret e response)).At user c ses := by
  have hx := h.contexts c ses hses
  have hst : (x.step (.ret e response)).conn.st = stepThread x.conn.st (.ret e response) := by
    simp only [step, Conn.step, Receive.step, h.conn.running, Bool.false_eq_true, if_false]
  cases hpc : x.conn.st.pc with
  | calling c' =>
    have hst' : (x.step (.ret e response)).conn.st = { x.conn.st with
        touches := x.conn.st.touch c', pc := .returned c', svc := storeResult c' e response x.conn.st.svc } := by
      rw [hst]
      simp only [stepThread, hpc]
    have hsaid : (x.step (.ret e response)).said = Function.update x.said c'
        { x.said c' with left := (x.conn.st.svc.leaves c' response).or (x.said c').left } := by
      have hpc' : x.talk.st.pc = .calling c' := hpc
      change x.talk.learn (.ret e response) = _
      simp only [Talk.learn, hpc']
      rfl
    obtain ⟨-, a, hc, hqueued⟩ := in_hand h.conn.base.handoff (.inr (.inr (.inl hpc)))
    by_cases hne : c = c'
    · subst hne
      obtain ⟨k, hk, hkc⟩ := h.called hpc
      have hgiven := (h.conn.tracked hses).given k hk hkc
      have hl := hx.live hc
      obtain ⟨-, hleft⟩ := hl.unanswered (.inr (.inr ⟨hqueued, by rw [hpc]; simp⟩))
      obtain ⟨hended, hasked, htried⟩ := h.unasked hc hl (by rw [hqueued]; decide)
      -- what the user was given is the session's own request
      have hanswer : (e, response) = ses.userAnswer user := by
        have := hhonest c hpc k hk hkc
        rw [hgiven.cb, hgiven.target, hgiven.request] at this
        exact this
      obtain ⟨-, -, -, hat, -⟩ := h.conn.queued hc hqueued
      have hat : ses.At .dataCbQueued := by
        have hsync := (inSync_live hc).1 (h.conn.tracked hses).sync
        exact hqueued ▸ hsync.stage
      obtain ⟨-, -, hmem, hfits, -⟩ := hat
      have hverdict : ses.verdict user = e := by rw [Session.verdict_whole hfits hmem, ← hanswer]
      have hresponse : ((x.conn.st.svc.leaves c response).or (x.said c).left).map Left.bytes = ses.userResponse user := by
        rw [Session.userResponse_whole hfits hmem, ← hanswer, hleft, Option.or_none, ← hl.required]
        cases response with
        | none => simp [Svc.leaves]
        | some bytes => cases hreq : a.responseRequired <;> simp [Svc.leaves, hc, hreq]
      have hsettled : Settled user ses
          { x.said c with left := (x.conn.st.svc.leaves c response).or (x.said c).left } :=
        ⟨hx.settled.tried, hx.settled.required, hx.settled.refused, hx.settled.accepted⟩
      refine ⟨?_, ?_⟩
      · rw [hsaid, Function.update_self]
        exact hsettled
      · rw [hst', hsaid, Function.update_self]
        dsimp only
        obtain ⟨a', hctx, hstage, htarget, hrequired, -⟩ := storeResult_ctx e response hc
        have hcell : (storeResult c e response x.conn.st.svc).ctx c = .live a' := by rw [hctx, Function.update_self]
        have herror : a'.receiveError = e := by
          cases response with
          | none =>
            simp only [storeResult, hc, Cell.map, Function.update_self] at hcell
            rw [← Cell.live.inj hcell]
          | some bytes =>
            simp only [storeResult, hc, Cell.map, Function.update_self] at hcell
            rw [← Cell.live.inj hcell]
        rw [hcell]
        refine ⟨by rw [htarget]; exact hl.target, hrequired.trans hl.required, fun hs => ?_, fun _ => ⟨?_, hresponse⟩, fun hs => ?_,
          fun he => ?_⟩
        · rw [hstage, hqueued] at hs
          simp at hs
        · rw [herror, hverdict]
        · rw [hstage, hqueued] at hs
          cases hs
        · exact absurd (hended.symm.trans he) (by decide)
    · refine hx.frame ?_ ?_ ?_
      · rw [hst']
        cases response <;> exact Function.update_of_ne hne _ _
      · rw [hsaid, Function.update_of_ne hne]
      · rw [hst', hpc]
        simp only [Pc.returned.injEq, reduceCtorEq, iff_false]
        exact fun he => hne he.symm
  | _ =>
    have hsame : (x.step (.ret e response)).conn.st = x.conn.st := by
      rw [hst]
      simp only [stepThread, hpc]
    refine hx.frame (by rw [hsame]) ?_ (by rw [hsame])
    change x.talk.learn (.ret e response) c = _
    have hpc' : x.talk.st.pc = _ := hpc
    simp only [Talk.learn, hpc']
    rfl

/-- the thread sets the session it has in its hand processed -/
theorem Inv.settle {x : Rpc} (h : x.Inv user) {c : ℕ} {ses : Session} (hses : x.conn.sessions c = some ses) :
    (x.step .settle).At user c ses := by
  have hx := h.contexts c ses hses
  have hst : (x.step .settle).conn.st = stepThread x.conn.st .settle := by
    simp only [step, Conn.step, Receive.step, h.conn.running, Bool.false_eq_true, if_false]
  have hsaid : (x.step .settle).said = x.said := rfl
  cases hpc : x.conn.st.pc with
  | returned c' =>
    obtain ⟨-, a, hc, hqueued⟩ := in_hand h.conn.base.handoff (.inr (.inr (.inr hpc)))
    have hst' : (x.step .settle).conn.st = { x.conn.st with
        touches := x.conn.st.touch c', pc := .settled
        svc := { x.conn.st.svc with ctx := Function.update x.conn.st.svc.ctx c' (.live a.settle) } } := by
      rw [hst]
      simp only [stepThread, hpc, hc, Cell.map]
    by_cases hne : c = c'
    · subst hne
      have hl := hx.live hc
      have hanswered := hl.answered (.inl ⟨hqueued, hpc⟩)
      refine ⟨hsaid ▸ hx.settled, ?_⟩
      rw [hst', hsaid]
      dsimp only
      rw [Function.update_self, SvcReceive.settle, if_pos hqueued]
      exact ⟨hl.target, hl.required, fun hs => by simp at hs, fun _ => hanswered, fun hs => by simp at hs,
        fun he => absurd (hl.ended he) (by rw [hqueued]; decide)⟩
    · refine hx.frame ?_ (by rw [hsaid]) ?_
      · rw [hst']
        exact Function.update_of_ne hne _ _
      · rw [hst', hpc]
        simp only [reduceCtorEq, Pc.returned.injEq, false_iff]
        exact fun he => hne he.symm
  | _ =>
    have hsame : (x.step .settle).conn.st = x.conn.st := by
      rw [hst]
      simp only [stepThread, hpc]
    exact hx.frame (by rw [hsame]) (by rw [hsaid]) (by rw [hsame])

/-- a step of the thread that is about no context -/
theorem At.advance {x : Rpc} {o : Op} {c : ℕ} {ses : Session} (hx : x.At user c ses) (hcr : x.conn.st.crashed = false)
    (ho : o = .wake ∨ o = .check ∨ o = .call ∨ o = .clear) : (x.step o).At user c ses := by
  have hst : (x.step o).conn.st = stepThread x.conn.st o := by
    rcases ho with rfl | rfl | rfl | rfl <;>
      simp only [step, Conn.step, Receive.step, hcr, Bool.false_eq_true, if_false]
  have hframe : (stepThread x.conn.st o).svc.ctx = x.conn.st.svc.ctx ∧
      ((stepThread x.conn.st o).pc = .returned c ↔ x.conn.st.pc = .returned c) := by
    rcases ho with rfl | rfl | rfl | rfl
    all_goals
      unfold stepThread
      dsimp only
      split
      all_goals first | (split <;> simp_all) | simp_all
  refine hx.frame (by rw [hst, hframe.1]) ?_ (by rw [hst, hframe.2])
  rcases ho with rfl | rfl | rfl | rfl <;> rfl

/-- **One step.** -/
theorem step_inv (x : Rpc) (o : Op) (h : x.Inv user) (hl : x.Legal user o) : (x.step o).Inv user where
  conn := Conn.step_inv x.conn o h.conn hl.conn
  talk := by
    rw [step_talk h.conn.running]
    exact Talk.step_inv x.talk o h.talk hl.talk
  contexts c ses hses := by
    cases o with
    | target r env => exact h.target r env hses
    | data d ok => exact h.data hl.conn hses
    | reply r ok => exact h.reply hl.conn hl.talk hses
    | status r => exact h.status r hses
    | ret e response => exact h.ret hl.honest hses
    | settle => exact h.settle hses
    | wake => exact (h.contexts c ses hses).advance h.conn.running (by simp)
    | check => exact (h.contexts c ses hses).advance h.conn.running (by simp)
    | call => exact (h.contexts c ses hses).advance h.conn.running (by simp)
    | clear => exact (h.contexts c ses hses).advance h.conn.running (by simp)

theorem run_inv {x : Rpc} (h : x.Init) {ops : List Op} (hl : Along step (Legal user) x ops) : (run step x ops).Inv user :=
  Runs.run_inv step_inv (inv_init h) hl

/-! ## The service -/

/-- what the service owes a session -/
structure Served (user : User) (x : Rpc) (c : ℕ) (ses : Session) : Prop where
  /-- the user is called for it at most once, with its own request -/
  called : ∀ k ∈ x.conn.st.calls, k.ctx = c → k.live = true ∧ ses.Given c k
  atMostOnce : x.conn.count c ≤ 1
  /-- the request is answered by what becomes of it -/
  refused : ses.answer = some .error → ses.verdict user ≠ .none
  accepted : ses.answer = some .cont → ses.complete = true → ses.verdict user = .none
  /-- the pieces make up the reply in order, unless there was no memory for its message -/
  streams : none ∉ (x.said c).tried → Streams (ses.reply user) (x.said c).given
  whole : none ∉ (x.said c).tried → ∀ before p behind, (x.said c).given = before ++ p :: behind → p.more = false →
    handed (before ++ [p]) = ses.reply user

theorem Inv.served {x : Rpc} (h : x.Inv user) {c : ℕ} {ses : Session} (hses : x.conn.sessions c = some ses) :
    x.Served user c ses := by
  have hexact := h.conn.exactness hses
  have hsettled := (h.contexts c ses hses).settled
  have hstreams (hmessage : none ∉ (x.said c).tried) : Streams (ses.reply user) (x.said c).given := by
    by_cases hgiven : (x.said c).given = []
    · rw [hgiven]
      exact streams_nil _
    · rw [← h.delivers hses hmessage hgiven]
      exact (h.talk.streams c).1
  exact ⟨hexact.given, hexact.atMostOnce, hsettled.refused, hsettled.accepted, hstreams,
    fun hmessage before p behind heq hp => (heq ▸ hstreams hmessage).complete hp⟩

/-- **The receive service.** Any number of sessions, any split of their requests, any interleaving, any sizes of the pieces:
the connector is handed out what the user answers to the session's own request, or the library's message. -/
theorem sessions_served {x : Rpc} (h : x.Init) {ops : List Op} (hl : Along step (Legal user) x ops) {c : ℕ} {ses : Session}
    (hses : (run step x ops).conn.sessions c = some ses) : (run step x ops).Served user c ses :=
  (run_inv h hl).served hses

/-- a user that reverses what is sent to its target and refuses everything else -/
def reversing : User := fun cb _ request => if cb = some 8 then (.none, some request.reverse) else (.userDefined 3, none)

/-- two sessions at once: one for the registered target, in two segments, and one for another target -/
def twoSessions : List Op :=
  [.target ⟨some (ascii "a"), .tcp, true, none⟩ ⟨true, true, true⟩, Conn.sends 0 [1, 2] true,
   .target ⟨some (ascii "b"), .udp, true, none⟩ ⟨true, true, true⟩, Conn.sends 3 [9] false, Conn.sends 0 [3] false,
   Conn.sends 0 [3] false, .wake, .check, .call, Conn.sends 3 [9] false, .ret .none (some [3, 2, 1]), .settle,
   Conn.sends 0 [3] false, .clear, .reply ⟨some 0, 2⟩ true, Conn.sends 3 [9] false, .reply ⟨some 0, 2⟩ true, .wake, .check,
   .call, .ret (.userDefined 3) none, .settle, Conn.sends 3 [9] false, .reply ⟨some 3, 100⟩ true]

theorem served_two_sessions :
    let x := run step ⟨Conn.four, fun _ => Said.nothing⟩ twoSessions
    ∃ a b, x.conn.sessions 0 = some a ∧ x.conn.sessions 3 = some b ∧ x.Served reversing 0 a ∧ x.Served reversing 3 b ∧
      a.reply reversing = [3, 2, 1] ∧ (x.said 0).given = [⟨[3, 2], true⟩, ⟨[1], false⟩] ∧
      b.reply reversing = ascii "CCAPI Error 18 ((null)) while handling target 'b'" := by
  have hinit : Init ⟨Conn.four, fun _ => Said.nothing⟩ := ⟨⟨init_fresh _ _ _ _, fun _ => rfl⟩, fun _ => rfl⟩
  have hlegal : Along step (Legal reversing) ⟨Conn.four, fun _ => Said.nothing⟩ twoSessions := by decide
  refine ⟨_, _, rfl, rfl, sessions_served hinit hlegal rfl, sessions_served hinit hlegal rfl, ?_, ?_, ?_⟩ <;> decide

end Rpc

end CcApi.Receive
