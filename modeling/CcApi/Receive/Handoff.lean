/-
The receive service as a one-slot hand-off (`ccapi_data_handler.c`).

Seen through the status in each context, `svc_receive`, the thread's lock and the thread's position, the machine is the
one of `Lib.Handoff`: the target callback creates a session, a data callback declares it ready, offers it, finishes or
drops it, the status callback releases it.

- `step_sim`: every step is such a hand-off step, or none.
- `step_grip`: so every step keeps what the thread has in its hand queued, or released.
- `step_inv`: the invariant of the hand-off is kept by every step but a status callback for a session that is queued.
-/
import CcApi.Receive.Model

namespace CcApi.Receive

open Lib Lib.Runs

/-- the stage a thread status stands for -/
def ReceiveThreadStatus.stage : ReceiveThreadStatus → Handoff.Stage
  | .idle => .idle
  | .dataCbReady => .ready
  | .dataCbQueued => .queued
  | .dataCbProcessed => .processed
  | .free => .free

def SvcReceive.stage (a : SvcReceive) : Handoff.Stage := a.receiveThreadStatus.stage

theorem stage_queued {a : SvcReceive} : a.stage = .queued ↔ a.receiveThreadStatus = .dataCbQueued := by
  unfold SvcReceive.stage
  cases a.receiveThreadStatus <;> simp [ReceiveThreadStatus.stage]

def Pc.abs : Pc → Handoff.Pc ℕ
  | .waiting => .waiting
  | .picked c => .picked c
  | .checked c => .checked c
  | .calling c => .calling c
  | .returned c => .returned c
  | .settled => .settled
  | .exited => .exited

def St.abs (s : St) : Handoff.St ℕ :=
  Handoff.view SvcReceive.stage s.svc.ctx s.svc.svcReceive s.lock s.pc.abs s.touches
    (s.calls.map fun c => (c.ctx, c.live))

/-- contexts are in blocks that have been allocated -/
def Fresh (s : Svc) : Prop := Cell.Fresh s.ctx s.heap.next

/-- the status callback does not end a session that is queued for the thread -/
def SparesQueued (s : St) : Op → Prop
  | .status r => ∀ c a, s.svc.session r.userContext = some (c, a) → a.receiveThreadStatus ≠ .dataCbQueued
  | _ => True

instance (s : St) (o : Op) : Decidable (SparesQueued s o) := by
  cases o with
  | status r =>
    exact decidable_of_iff (∀ p ∈ s.svc.session r.userContext, p.2.receiveThreadStatus ≠ .dataCbQueued)
      ⟨fun h c a he => h (c, a) (by simp [he]), fun h p hp => h p.1 p.2 (by simpa using hp)⟩
  | _ => exact isTrue trivial

/-! ## Contexts -/

theorem session_some {s : Svc} {u : Option ℕ} {c : ℕ} {a : SvcReceive} (h : s.session u = some (c, a)) :
    u = some c ∧ s.ctx c = .live a := by
  unfold Svc.session at h
  split at h
  · contradiction
  · split at h
    · rename_i hc
      cases h
      exact ⟨rfl, hc⟩
    · contradiction

/-- seen as a hand-off, t is reached from s, and if spares holds, with no queued session released -/
def Sim (spares : Prop) (s t : St) : Prop := Handoff.Reaches spares s.abs t.abs

section Sim

variable {spares : Prop} {s t : St} {c : ℕ} {a a' : SvcReceive} {heap : Heap}

theorem sim_none (h : t.abs = s.abs) : Sim spares s t := by
  unfold Sim
  rw [h]
  exact Handoff.Reaches.refl _

theorem put_sim (hc : s.svc.ctx c = .live a) (hst : a'.receiveThreadStatus = a.receiveThreadStatus) :
    Sim spares s { s with svc := ({ s.svc with heap := heap } : Svc).put c a' } :=
  sim_none (Handoff.view_same hc (by simp [SvcReceive.stage, hst]))

/-- a callback that moves a session from one stage to another -/
theorem put_move_sim {p q : ReceiveThreadStatus} (o : Handoff.Op ℕ)
    (ho : Handoff.step s.abs o = s.abs.move c p.stage q.stage) (hc : s.svc.ctx c = .live a)
    (hp : a.receiveThreadStatus = p) (hq : a'.receiveThreadStatus = q)
    (hk : Handoff.KeepsQueued s.abs o := by trivial) :
    Sim spares s { s with svc := ({ s.svc with heap := heap } : Svc).put c a' } := by
  refine Handoff.Reaches.one o ?_ fun _ => hk
  rw [ho]
  exact Handoff.view_move hc (by simp [SvcReceive.stage, hp]) (by simp [SvcReceive.stage, hq])

end Sim

/-! ## The callbacks -/

/-- the registered targets and the user decide on the limit, the callbacks and the error only -/
theorem acceptTarget_keeps (s : Svc) (target : Str) (accepts : Bool) (a : SvcReceive) :
    let b := (acceptTarget s target accepts a).1
    b.target = a.target ∧ b.responseRequired = a.responseRequired ∧ b.requestBuffer = a.requestBuffer ∧
      b.requestLength = a.requestLength ∧ b.receiveThreadStatus = a.receiveThreadStatus := by
  unfold acceptTarget
  cases s.receiveSupported
  · simp
  · cases getTargetEntry s target with
    | some t => simp
    | none => by_cases hcb : a.dataCb = none <;> by_cases hno : s.hasAcceptCb = true ∧ accepts = false <;> simp [hcb, hno]

/-- a target callback leaves everything alone, or opens a session in the next block -/
theorem target_cases (r : TargetReq) (env : TargetEnv) (s : Svc) :
    let t := (processDeviceRequestTarget r env s).1
    t.svcReceive = s.svcReceive ∧ s.heap.next ≤ t.heap.next ∧
      (t.ctx = s.ctx ∨ ∃ a : SvcReceive, a.receiveThreadStatus = .idle ∧ s.heap.next < t.heap.next ∧
        t.ctx = Function.update s.ctx s.heap.next (.live a)) := by
  unfold processDeviceRequestTarget
  cases r.target with
  | none => simp
  | some target =>
    by_cases hu : r.userContext.isSome = true
    · simp [hu]
    cases hc : env.contextOk with
    | false => simp [hu, Heap.malloc]
    | true =>
      cases ht : env.targetOk with
      | false => simp [hu, Heap.malloc, Svc.put, newContext]; exact Or.inr ⟨_, rfl, rfl⟩
      | true =>
        simp only [hu, Heap.malloc, if_true, Svc.put]
        refine ⟨rfl, by simp; omega, Or.inr ⟨_, ?_, by simp, rfl⟩⟩
        exact (acceptTarget_keeps _ _ _ _).2.2.2.2

theorem target_keeps (r : TargetReq) (env : TargetEnv) (s : Svc) :
    s.heap.Keeps (processDeviceRequestTarget r env s).1.heap := by
  unfold processDeviceRequestTarget
  cases r.target with
  | none => exact Heap.Keeps.refl _
  | some target =>
    by_cases hu : r.userContext.isSome = true
    · simpa [hu] using Heap.Keeps.refl _
    cases hc : env.contextOk <;> cases ht : env.targetOk <;> simp [hu, Heap.malloc, Svc.put, Heap.Keeps]
    omega

theorem target_supported (r : TargetReq) (env : TargetEnv) (s : Svc) :
    (processDeviceRequestTarget r env s).1.receiveSupported = s.receiveSupported := by
  unfold processDeviceRequestTarget
  cases r.target with
  | none => rfl
  | some target =>
    by_cases hu : r.userContext.isSome = true
    · simp [hu]
    cases hc : env.contextOk <;> cases ht : env.targetOk <;> simp [hu, Heap.malloc, Svc.put]

theorem target_sim {spares : Prop} (r : TargetReq) (env : TargetEnv) {s : St} (hf : Fresh s.svc) :
    Sim spares s { s with svc := (processDeviceRequestTarget r env s.svc).1 } := by
  obtain ⟨hslot, -, hctx | ⟨a, ha, -, hctx⟩⟩ := target_cases r env s.svc
  · exact sim_none (by simp only [St.abs, hctx, hslot])
  · refine Handoff.Reaches.one (.create s.svc.heap.next) ?_
    simp only [St.abs, hctx, hslot]
    exact Handoff.view_create (hf _ le_rfl) (by simp [SvcReceive.stage, ha, ReceiveThreadStatus.stage])

/-- the bytes a session has received -/
def requestBytes (h : Heap) (a : SvcReceive) : List UInt8 :=
  match a.requestBuffer with
  | some b => h.read b a.requestLength
  | none => []

/-- an idle session's data callback refuses the segment or appends it -/
theorem appendSegment_cases (c : ℕ) (a : SvcReceive) (d : DataReq) (ok : Bool) (s : Svc) :
    let newSize := a.requestLength + d.buffer.length
    (a.maxRequestSize ≠ receiveNoLimit ∧ newSize > a.maxRequestSize ∧
      appendSegment c a d ok s =
        (s.put c { a with receiveError := .requestTooBig, receiveThreadStatus := .free }, .error)) ∨
    (¬(a.maxRequestSize ≠ receiveNoLimit ∧ newSize > a.maxRequestSize) ∧ ok = false ∧
      appendSegment c a d ok s =
        (s.put c { a with receiveError := .insufficientMemory, receiveThreadStatus := .free }, .error)) ∨
    (¬(a.maxRequestSize ≠ receiveNoLimit ∧ newSize > a.maxRequestSize) ∧ ok = true ∧
      ∃ heap, s.heap.Keeps heap ∧ s.heap.next < heap.next ∧
        ((∀ b, a.requestBuffer = some b → b < s.heap.next) → (a.requestBuffer = none → a.requestLength = 0) →
          heap.read s.heap.next newSize = requestBytes s.heap a ++ d.buffer) ∧
        appendSegment c a d ok s =
          (({ s with heap := heap } : Svc).put c
            { a with requestBuffer := some s.heap.next, requestLength := newSize,
                     receiveThreadStatus := if d.moreData then a.receiveThreadStatus else .dataCbReady },
            if d.moreData then .cont else .busy)) := by
  intro newSize
  by_cases hbig : a.maxRequestSize ≠ receiveNoLimit ∧ newSize > a.maxRequestSize
  · exact Or.inl ⟨hbig.1, hbig.2, by rw [appendSegment, if_pos hbig]⟩
  refine Or.inr ?_
  cases ok with
  | false => exact Or.inl ⟨hbig, rfl, by rw [appendSegment, if_neg hbig]; rfl⟩
  | true =>
    obtain ⟨heap, he, hm⟩ := Heap.realloc_moved a.requestBuffer a.requestLength newSize s.heap
    refine Or.inr ⟨hbig, rfl, _, hm.keeps.write le_rfl a.requestLength d.buffer.length fun i => d.buffer.getD i 0,
      by rw [Heap.write_next, hm.next]; exact Nat.lt_succ_self _, fun _ h0 => ?_, ?_⟩
    · rw [Heap.read_append]
      congr 1
      cases hb : a.requestBuffer with
      | none => simp [requestBytes, hb, h0 hb, Heap.read]
      | some b => simpa only [requestBytes, hb] using hm.read b hb
    · rw [appendSegment, if_neg hbig]
      cases d.moreData <;> simp [he, newSize]

section Data

variable {d : DataReq} {ok : Bool} {s : Svc} {c : ℕ} {a : SvcReceive}

theorem data_unsupported (hu : s.session d.userContext = some (c, a)) (hs : s.receiveSupported ≠ true) :
    processDeviceRequestData d ok s = (s.put c { a with receiveError := .noReceiveSupport }, .error, false) := by
  simp [processDeviceRequestData, hu, hs]

variable (hu : s.session d.userContext = some (c, a)) (hs : s.receiveSupported = true)
include hu hs

theorem data_idle (hst : a.receiveThreadStatus = .idle) :
    processDeviceRequestData d ok s = ((appendSegment c a d ok s).1, (appendSegment c a d ok s).2, false) := by
  simp [processDeviceRequestData, hu, hs, hst]

theorem data_offered (hst : a.receiveThreadStatus = .dataCbReady) (hslot : s.svcReceive = none) :
    processDeviceRequestData d ok s =
      ({ s with svcReceive := some c }.put c { a with receiveThreadStatus := .dataCbQueued }, .busy, true) := by
  simp [processDeviceRequestData, hu, hs, hst, hslot]

/-- a session that is ready waits while another one has the slot; a queued one waits for the thread -/
theorem data_waits (hst : (a.receiveThreadStatus = .dataCbReady ∧ s.svcReceive ≠ none) ∨
    a.receiveThreadStatus = .dataCbQueued) : processDeviceRequestData d ok s = (s, .busy, false) := by
  obtain ⟨hst, hslot⟩ | hst := hst
  · simp [processDeviceRequestData, hu, hs, hst, hslot]
  · simp [processDeviceRequestData, hu, hs, hst]

/-- collecting the answer gives the request's buffer back, and sets the cursor to the response where one is required -/
theorem data_processed (hst : a.receiveThreadStatus = .dataCbProcessed) :
    ∃ heap, s.heap.Keeps heap ∧ heap.next = s.heap.next ∧ heap.frees = s.heap.frees ++ a.requestBuffer.toList ∧
      processDeviceRequestData d ok s =
        (({ s with heap := heap } : Svc).put c
          { a with
            responseProcessing := if a.responseRequired then a.responseBufferInfo else a.responseProcessing
            receiveThreadStatus := .free }, if a.receiveError = .none then .cont else .error, false) := by
  cases hb : a.requestBuffer with
  | none =>
    refine ⟨s.heap, Heap.Keeps.refl _, rfl, by simp, ?_⟩
    cases hr : a.responseRequired <;> simp [processDeviceRequestData, hu, hs, hst, hb, hr]
  | some b =>
    refine ⟨s.heap.free b, Heap.keeps_free _ _, rfl, by simp [Heap.free], ?_⟩
    cases hr : a.responseRequired <;> simp [processDeviceRequestData, hu, hs, hst, hb, hr]

theorem data_free (hst : a.receiveThreadStatus = .free) : processDeviceRequestData d ok s = (s, .error, false) := by
  simp [processDeviceRequestData, hu, hs, hst]

end Data

/-- a data callback rewrites the session it is for, and perhaps the slot -/
theorem data_cases (d : DataReq) (ok : Bool) (s : Svc) :
    (processDeviceRequestData d ok s).1 = s ∨ ∃ c a a' heap slot, s.session d.userContext = some (c, a) ∧
      s.heap.Keeps heap ∧
      (processDeviceRequestData d ok s).1 = ({ s with heap := heap, svcReceive := slot } : Svc).put c a' := by
  cases hu : s.session d.userContext with
  | none => exact Or.inl (by rw [processDeviceRequestData, hu])
  | some p =>
    obtain ⟨c, a⟩ := p
    by_cases hs : s.receiveSupported = true
    case neg => exact Or.inr ⟨c, a, _, s.heap, _, rfl, Heap.Keeps.refl _, by rw [data_unsupported hu hs]⟩
    cases hst : a.receiveThreadStatus with
    | idle =>
      rw [data_idle hu hs hst]
      obtain ⟨-, -, he⟩ | ⟨-, -, he⟩ | ⟨-, -, heap, hk, -, -, he⟩ := appendSegment_cases c a d ok s
      · exact Or.inr ⟨c, a, _, s.heap, _, rfl, Heap.Keeps.refl _, by rw [he]⟩
      · exact Or.inr ⟨c, a, _, s.heap, _, rfl, Heap.Keeps.refl _, by rw [he]⟩
      · exact Or.inr ⟨c, a, _, heap, _, rfl, hk, by rw [he]⟩
    | dataCbReady =>
      by_cases hslot : s.svcReceive = none
      · exact Or.inr ⟨c, a, _, s.heap, some c, rfl, Heap.Keeps.refl _, by rw [data_offered hu hs hst hslot]⟩
      · exact Or.inl (by rw [data_waits hu hs (Or.inl ⟨hst, hslot⟩)])
    | dataCbQueued => exact Or.inl (by rw [data_waits hu hs (Or.inr hst)])
    | dataCbProcessed =>
      obtain ⟨heap, hk, -, -, he⟩ := @data_processed d ok _ c a hu hs hst
      exact Or.inr ⟨c, a, _, heap, _, rfl, hk, by rw [he]⟩
    | free => exact Or.inl (by rw [data_free hu hs hst])

theorem stepData_eq {d : DataReq} {ok : Bool} {s : St} {svc : Svc} {status : CallbackStatus}
    (h : processDeviceRequestData d ok s.svc = (svc, status, false)) : stepData d ok s = { s with svc := svc } := by
  simp [stepData, h]

theorem data_sim {spares : Prop} (d : DataReq) (ok : Bool) (s : St) : Sim spares s (stepData d ok s) := by
  cases hu : s.svc.session d.userContext with
  | none => exact sim_none (by rw [stepData_eq (by rw [processDeviceRequestData, hu])])
  | some p =>
    obtain ⟨c, a⟩ := p
    obtain ⟨-, hc⟩ := session_some hu
    by_cases hs : s.svc.receiveSupported = true
    case neg =>
      rw [stepData_eq (data_unsupported hu hs)]
      exact put_sim hc rfl
    cases hst : a.receiveThreadStatus with
    | idle =>
      rw [stepData_eq (data_idle hu hs hst)]
      obtain ⟨-, -, he⟩ | ⟨-, -, he⟩ | ⟨-, -, heap, -, -, -, he⟩ := appendSegment_cases c a d ok s.svc
      · rw [he]; exact put_move_sim (.drop c) rfl hc hst rfl
      · rw [he]; exact put_move_sim (.drop c) rfl hc hst rfl
      · rw [he]
        cases hm : d.moreData with
        | true => exact put_sim hc (by simp)
        | false => exact put_move_sim (q := .dataCbReady) (.ready c) rfl hc hst (by simp)
    | dataCbReady =>
      cases hslot : s.svc.svcReceive with
      | some c' =>
        rw [stepData_eq (data_waits hu hs (Or.inl ⟨hst, by simp [hslot]⟩))]
        exact sim_none rfl
      | none =>
        refine Handoff.Reaches.one (.offer c) ?_
        simp only [stepData, data_offered hu hs hst hslot, if_true, St.abs, Svc.put, hslot]
        exact Handoff.view_offer hc (by simp [SvcReceive.stage, hst, ReceiveThreadStatus.stage]) rfl
    | dataCbQueued =>
      rw [stepData_eq (data_waits hu hs (Or.inr hst))]
      exact sim_none rfl
    | dataCbProcessed =>
      obtain ⟨heap, -, -, -, he⟩ := @data_processed d ok _ c a hu hs hst
      rw [stepData_eq he]
      exact put_move_sim (q := .free) (.finish c) rfl hc hst rfl
    | free =>
      rw [stepData_eq (data_free hu hs hst)]
      exact sim_none rfl

theorem fillInternalError_cases {ok : Bool} {a a' : SvcReceive} {heap heap' : Heap}
    (h : fillInternalError ok a heap = some (a', heap')) :
    heap.Keeps heap' ∧
      a' = { a with receiveError := a'.receiveError, responseBufferInfo := a'.responseBufferInfo } := by
  unfold fillInternalError at h
  cases ht : a.target with
  | none => simp [ht] at h
  | some target =>
    cases ok with
    | false =>
      simp only [ht, Heap.malloc, Bool.false_eq_true, if_false, Option.some.injEq, Prod.mk.injEq] at h
      obtain ⟨rfl, rfl⟩ := h
      exact ⟨Heap.Keeps.refl _, rfl⟩
    | true =>
      simp only [ht, Heap.malloc, if_true, Option.some.injEq, Prod.mk.injEq] at h
      obtain ⟨rfl, rfl⟩ := h
      exact ⟨(Heap.keeps_malloc _ true heap).write le_rfl _ _ _, rfl⟩

/-- a reply rewrites the session's error and response and nothing else of it -/
theorem reply_cases {r : ReplyReq} {ok : Bool} {s t : Svc} {status : CallbackStatus} {reply : Option Reply}
    (h : processDeviceRequestResponse r ok s = some (t, status, reply)) :
    t = s ∨ ∃ c a a' heap, s.ctx c = .live a ∧ s.heap.Keeps heap ∧ t = ({ s with heap := heap } : Svc).put c a' ∧
      a' = { a with receiveError := a'.receiveError, responseBufferInfo := a'.responseBufferInfo,
                    responseHandledInternally := a'.responseHandledInternally,
                    responseProcessing := a'.responseProcessing } := by
  unfold processDeviceRequestResponse at h
  split at h
  · simp only [Option.some.injEq, Prod.mk.injEq] at h
    exact Or.inl h.1.symm
  · rename_i c a hu
    obtain ⟨-, hc⟩ := session_some hu
    by_cases hreq : a.responseRequired = true
    case neg =>
      simp only [hreq, not_false_eq_true, if_true, Option.some.injEq, Prod.mk.injEq, Bool.false_eq_true] at h
      exact Or.inl h.1.symm
    simp only [hreq, not_true_eq_false, if_false] at h
    split_ifs at h with herr
    · split at h
      · contradiction
      · rename_i a1 heap hfill
        simp only [Option.some.injEq, Prod.mk.injEq] at h
        obtain ⟨hk, ha1⟩ := fillInternalError_cases hfill
        refine Or.inr ⟨c, a, _, heap, hc, hk, h.1.symm, ?_⟩
        rw [ha1]
        simp [sendReply, hreq]
    · simp only [Option.some.injEq, Prod.mk.injEq] at h
      exact Or.inr ⟨c, a, _, s.heap, hc, Heap.Keeps.refl _, h.1.symm, by simp [sendReply]⟩

theorem reply_sim {spares : Prop} {r : ReplyReq} {ok : Bool} {s : St} {t : Svc} {status : CallbackStatus} {reply : Option Reply}
    (h : processDeviceRequestResponse r ok s.svc = some (t, status, reply)) : Sim spares s { s with svc := t } := by
  obtain rfl | ⟨c, a, a', heap, hc, -, rfl, ha'⟩ := reply_cases h
  · exact sim_none rfl
  · refine put_sim hc ?_
    rw [ha']

/-- a status callback ends the session it is for, or leaves everything alone -/
theorem status_cases (r : StatusReq) (s : Svc) :
    (processDeviceRequestStatus r s).1 = s ∨ ∃ c a a' heap, s.session r.userContext = some (c, a) ∧
      a'.receiveThreadStatus = a.receiveThreadStatus ∧ s.heap.Keeps heap ∧
      (processDeviceRequestStatus r s).1 = { s with ctx := Function.update s.ctx c (.freed a'), heap := heap } := by
  unfold processDeviceRequestStatus
  split
  · exact Or.inl rfl
  · rename_i c a hu
    split
    · exact Or.inl rfl
    · rename_i e he
      refine Or.inr ⟨c, a, { a with receiveError := e }, freeSession c { a with receiveError := e } s.heap, hu, rfl, ?_,
        rfl⟩
      unfold freeSession
      refine Heap.Keeps.trans ?_ (Heap.keeps_free _ _)
      -- a release leaves the contents of every block in place
      split <;> split <;> exact Heap.Keeps.refl _

theorem status_sim (r : StatusReq) (s : St) :
    Sim (SparesQueued s (.status r)) s { s with svc := (processDeviceRequestStatus r s.svc).1 } := by
  obtain he | ⟨c, a, a', heap, hu, ha', -, he⟩ := status_cases r s.svc
  · rw [he]
    exact sim_none rfl
  · have hc := (session_some hu).2
    refine Handoff.Reaches.one (.release c) ?_ fun h => ?_
    · rw [he]
      exact Handoff.view_release hc (by simp [SvcReceive.stage, ha'])
    · exact Handoff.view_spares hc fun hst => h c a hu (stage_queued.1 hst)

/-! ## The thread -/

theorem settled_stage (c : Cell SvcReceive) :
    c.map (SvcReceive.stage ∘ SvcReceive.settle) = Handoff.settled (c.map SvcReceive.stage) := by
  refine Handoff.settled_map (fun a => ?_) c
  unfold SvcReceive.settle SvcReceive.stage
  cases hst : a.receiveThreadStatus <;> simp [ReceiveThreadStatus.stage, hst]

/-- storing the user's result moves no stage -/
theorem storeResult_stage (c : ℕ) (e : ReceiveError) (response : Option (List UInt8)) (s : Svc) :
    (fun i => ((storeResult c e response s).ctx i).map SvcReceive.stage) = fun i => (s.ctx i).map SvcReceive.stage := by
  cases response with
  | none =>
    simp only [storeResult, Cell.map_update, Cell.map_map]
    refine Function.update_eq_self_iff.2 ?_
    rfl
  | some bytes =>
    simp only [storeResult, Cell.map_update, Cell.map_map]
    refine Function.update_eq_self_iff.2 ?_
    rfl

theorem storeResult_slot (c : ℕ) (e : ReceiveError) (response : Option (List UInt8)) (s : Svc) :
    (storeResult c e response s).svcReceive = s.svcReceive := by cases response <;> rfl

/-- the user's result goes to the error and the response of the context -/
theorem storeResult_ctx {s : Svc} {c : ℕ} {a : SvcReceive} (e : ReceiveError) (response : Option (List UInt8))
    (hc : s.ctx c = .live a) :
    ∃ a', (storeResult c e response s).ctx = Function.update s.ctx c (.live a') ∧
      a'.receiveThreadStatus = a.receiveThreadStatus ∧ a'.target = a.target ∧ a'.responseRequired = a.responseRequired ∧
      a'.maxRequestSize = a.maxRequestSize ∧ a'.dataCb = a.dataCb ∧ a'.requestBuffer = a.requestBuffer ∧
      a'.requestLength = a.requestLength := by
  cases response with
  | none => exact ⟨{ a with receiveError := e }, by simp [storeResult, hc, Cell.map], by simp⟩
  | some bytes =>
    refine ⟨_, by simp only [storeResult, hc, Cell.map]; rfl, by simp⟩

theorem keeps_storeResult (c : ℕ) (e : ReceiveError) (response : Option (List UInt8)) (s : Svc) :
    s.heap.Keeps (storeResult c e response s).heap := by
  cases response with
  | none => exact Heap.Keeps.refl _
  | some bytes => exact (Heap.keeps_malloc bytes.length true s.heap).write le_rfl 0 bytes.length _

/-- what the thread has in its hand is a queued session, or one that has been released -/
theorem in_grip {s : St} (h : Handoff.Grip s.abs) {c : ℕ}
    (hpc : s.pc = .picked c ∨ s.pc = .checked c ∨ s.pc = .calling c ∨ s.pc = .returned c) :
    ∃ a, s.svc.ctx c = .freed a ∨ (s.svc.ctx c = .live a ∧ a.stage = .queued) :=
  h.view_in_hand (i := c) (by rcases hpc with h | h | h | h <;> simp [h, Pc.abs])

/-- with queued sessions spared it is a queued session -/
theorem in_hand {s : St} (hI : Handoff.Inv s.abs) {c : ℕ}
    (hpc : s.pc = .picked c ∨ s.pc = .checked c ∨ s.pc = .calling c ∨ s.pc = .returned c) :
    s.svc.svcReceive = some c ∧ ∃ a, s.svc.ctx c = .live a ∧ a.receiveThreadStatus = .dataCbQueued := by
  obtain ⟨hslot, a, hc, hst⟩ := hI.view_in_hand (i := c) (by rcases hpc with h | h | h | h <;> simp [h, Pc.abs])
  exact ⟨hslot, a, hc, stage_queued.1 hst⟩

theorem thread_sim {spares : Prop} {s : St} (h : Handoff.Grip s.abs) (o : Op) : Sim spares s (stepThread s o) := by
  cases o with
  | target | data | reply | status => exact sim_none rfl
  | wake =>
    refine Handoff.Reaches.one .wake ?_
    cases hpc : s.pc <;> cases hl : s.lock <;> cases hslot : s.svc.svcReceive <;>
      simp [stepThread, Handoff.step, St.abs, Handoff.view, Pc.abs, hpc, hl, hslot]
  | check =>
    cases hpc : s.pc
    case picked c =>
      obtain ⟨a, ha⟩ := in_grip h (.inl hpc)
      -- the asserts read the context whether it is still live or not
      refine Handoff.Reaches.one (.check a.dataCb.isSome) ?_
      rcases ha with hc | ⟨hc, -⟩ <;> cases hst : a.receiveThreadStatus <;> cases hcb : a.dataCb <;>
        simp [stepThread, Handoff.step, St.abs, Handoff.view, Pc.abs, hpc, hc, readyForUser, hst, hcb, St.touch, Cell.map,
          Cell.isLive, Cell.val?, SvcReceive.stage, ReceiveThreadStatus.stage]
    all_goals exact sim_none (by simp [stepThread, hpc])
  | call =>
    cases hpc : s.pc
    case checked c =>
      refine Handoff.Reaches.one .call ?_
      obtain ⟨a, hc | ⟨hc, -⟩⟩ := in_grip h (.inr (.inl hpc)) <;>
        simp [stepThread, Handoff.step, St.abs, Handoff.view, Pc.abs, hpc, userCall, hc, St.touch, Cell.val?]
    all_goals exact sim_none (by simp [stepThread, hpc])
  | ret e response =>
    cases hpc : s.pc
    case calling c =>
      refine Handoff.Reaches.one (.ret true) ?_
      simp [stepThread, Handoff.step, St.abs, Handoff.view, Pc.abs, hpc, St.touch, storeResult_slot]
      exact storeResult_stage c e response s.svc
    all_goals exact sim_none (by simp [stepThread, hpc])
  | settle =>
    cases hpc : s.pc
    case returned c =>
      refine Handoff.Reaches.one .settle ?_
      simp [stepThread, Handoff.step, St.abs, Handoff.view, Pc.abs, hpc, St.touch, Cell.map_update, settled_stage]
    all_goals exact sim_none (by simp [stepThread, hpc])
  | clear =>
    cases hpc : s.pc
    case settled =>
      refine Handoff.Reaches.one .clear ?_
      simp [stepThread, Handoff.step, St.abs, Handoff.view, Pc.abs, hpc]
    all_goals exact sim_none (by simp [stepThread, hpc])

/-- **Simulation.** Every step is a hand-off step, or none. -/
theorem step_sim {s : St} (hf : Fresh s.svc) (h : Handoff.Grip s.abs) (o : Op) : Sim (SparesQueued s o) s (step s o) := by
  unfold step
  split_ifs with hcr
  · exact sim_none rfl
  · cases o with
    | target r env => exact target_sim r env hf
    | data d ok => exact data_sim d ok s
    | reply r ok =>
      dsimp only
      cases he : processDeviceRequestResponse r ok s.svc with
      | none => exact sim_none rfl
      | some p => exact reply_sim he
    | status r => exact status_sim r s
    | wake | check | call | ret | settle | clear => exact thread_sim h _

/-! ## Blocks -/

theorem thread_fresh {s : St} (hf : Fresh s.svc) (o : Op) : Fresh (stepThread s o).svc := by
  cases o with
  | target | data | reply | status => exact hf
  | wake | check | call | clear =>
    unfold stepThread
    dsimp only
    split
    all_goals first | exact hf | (split <;> exact hf)
  | ret e response =>
    unfold stepThread
    dsimp only
    split
    · rename_i c _
      have hk := (keeps_storeResult c e response s.svc).1
      cases response with
      | none => exact hf.map hk rfl
      | some bytes => exact hf.map hk rfl
    · exact hf
  | settle =>
    unfold stepThread
    dsimp only
    split
    · exact hf.map le_rfl rfl
    · exact hf

theorem step_fresh {s : St} (hf : Fresh s.svc) (o : Op) : Fresh (step s o).svc := by
  unfold step
  split_ifs with hcr
  · exact hf
  · cases o with
    | target r env =>
      obtain ⟨-, hnext, hctx | ⟨a, -, hlt, hctx⟩⟩ := target_cases r env s.svc
      · intro c hc
        rw [hctx]
        exact hf c (hnext.trans hc)
      · exact hf.update hnext hctx fun h => absurd hlt (not_lt.2 h)
    | data d ok =>
      obtain he | ⟨c, a, a', heap, slot, hu, hk, he⟩ := data_cases d ok s.svc
      · simpa only [stepData, he] using hf
      · simp only [stepData, he]
        exact hf.put (session_some hu).2 hk.1 rfl
    | reply r ok =>
      dsimp only
      cases h : processDeviceRequestResponse r ok s.svc with
      | none => exact hf
      | some p =>
        obtain he | ⟨c, a, a', heap, hc, hk, he, -⟩ := reply_cases h
        · simpa only [he] using hf
        · simp only [he]
          exact hf.put hc hk.1 rfl
    | status r =>
      obtain he | ⟨c, a, a', heap, hu, -, hk, he⟩ := status_cases r s.svc
      · simpa only [he] using hf
      · simp only [he]
        exact hf.put (session_some hu).2 hk.1 rfl
    | wake | check | call | ret | settle | clear => exact thread_fresh hf _

/-! ## Whatever is cancelled -/

/-- what the thread has in its hand is queued or released, whatever is cancelled -/
theorem step_grip {s : St} (hf : Fresh s.svc) (h : Handoff.Grip s.abs) (o : Op) : Handoff.Grip (step s o).abs :=
  (step_sim hf h o).grip h

theorem abs_init {s : St} (h : Init s) : Handoff.Init s.abs :=
  Handoff.init_view h.ctx h.slot h.lock (by simp [h.pc, Pc.abs]) h.history.2 (by simp [h.history.1])

/-- a session that the user is called for is queued -/
theorem queued_of_grip {s : St} (h : Handoff.Grip s.abs) {c : ℕ} (hpc : s.pc = .calling c) {a : SvcReceive}
    (hc : s.svc.ctx c = .live a) : a.receiveThreadStatus = .dataCbQueued := by
  obtain ⟨b, hb | ⟨hb, hst⟩⟩ := in_grip h (.inr (.inr (.inl hpc)))
  · cases hb.symm.trans hc
  · cases hb.symm.trans hc
    exact stage_queued.1 hst

/-! ## The invariant -/

structure Inv (s : St) : Prop where
  fresh : Fresh s.svc
  handoff : Handoff.Inv s.abs

/-- **Step.** -/
theorem step_inv (s : St) (o : Op) (h : Inv s) (hC : SparesQueued s o) : Inv (step s o) :=
  ⟨step_fresh h.fresh o, (step_sim h.fresh h.handoff.grip o).inv hC h.handoff⟩

theorem inv_init {s : St} (h : Init s) : Inv s := ⟨fun c _ => h.ctx c, Handoff.inv_init (abs_init h)⟩

/-- **Runs.** Whatever the interleaving, if status callbacks spare queued sessions the hand-off is sound. -/
theorem run_inv {s : St} (h : Init s) {ops : List Op} (hC : Along step SparesQueued s ops) : Inv (run step s ops) :=
  Runs.run_inv step_inv (inv_init h) hC

end CcApi.Receive
