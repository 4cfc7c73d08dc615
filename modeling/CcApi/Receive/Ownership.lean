/-
Who releases the blocks of a receive session (`ccapi_data_handler.c`).

A session's record points to its target's copy, to the request that the data callbacks have grown, and to a response, which is
the user's or a message of the library. The data callback releases the request when it finds the session processed; the status
callback releases the target, a message and the record itself, and gives a response of the user's back to the user.

- `held`: what each session holds, by the place that points to it.
- `step_inv`: every step keeps what is held live and in one place.
- `Inv.released_iff`: at the end of the status callback everything of the library's has been released once and the user has got
  its response back, exactly where the request was never begun or was collected, and the user's response has not been replaced
  and there is a callback to give it to.
-/
import CcApi.Lib.Custody
import CcApi.Receive.Replies

namespace CcApi.Receive

open Lib Lib.Runs

/-! ## The callbacks and the heap -/

def BufferInfo.block (b : BufferInfo) : Option ℕ := b.buffer.map Ptr.block

/-- what a target callback takes -/
theorem target_books (r : TargetReq) (env : TargetEnv) (s : Svc) :
    let t := (processDeviceRequestTarget r env s).1
    t.heap.frees = s.heap.frees ∧ s.heap.next ≤ t.heap.next ∧
      ∀ a, t.ctx s.heap.next = .live a → s.ctx s.heap.next = .unallocated →
        s.heap.next < t.heap.next ∧ a.requestBuffer = none ∧ a.responseHandledInternally = false ∧
          ∀ target, a.target = some target → target.block = s.heap.next + 1 ∧ s.heap.next + 1 < t.heap.next := by
  unfold processDeviceRequestTarget
  cases r.target with
  | none => exact ⟨rfl, le_rfl, fun a hc hnone => by rw [hnone] at hc; cases hc⟩
  | some target =>
    by_cases hu : r.userContext.isSome = true
    · simp only [hu, if_true]
      exact ⟨trivial, le_rfl, fun a hc hnone => by rw [hnone] at hc; cases hc⟩
    cases hc : env.contextOk with
    | false =>
      simp only [hu, Heap.malloc, Bool.false_eq_true, if_false]
      exact ⟨trivial, le_rfl, fun a hc hnone => by rw [hnone] at hc; cases hc⟩
    | true =>
      cases ht : env.targetOk with
      | false =>
        simp only [hu, Heap.malloc, Bool.false_eq_true, if_false, if_true, Svc.put, Function.update_self]
        refine ⟨trivial, Nat.le_succ _, fun a ha _ => ?_⟩
        obtain rfl := Cell.live.inj ha
        exact ⟨Nat.lt_succ_self _, rfl, rfl, fun tgt htgt => by cases htgt⟩
      | true =>
        simp only [hu, Heap.malloc, Bool.false_eq_true, if_false, if_true, Svc.put, Function.update_self]
        refine ⟨trivial, by omega, fun a ha _ => ?_⟩
        obtain rfl := Cell.live.inj ha
        have hkeeps := acceptTarget_keeps s target env.accepts
          { newContext r s with target := some ⟨s.heap.next + 1, target⟩ }
        have hresponse := acceptTarget_response s target env.accepts
          { newContext r s with target := some ⟨s.heap.next + 1, target⟩ }
        refine ⟨by omega, hkeeps.2.2.1, hresponse.1, fun tgt htgt => ?_⟩
        rw [hkeeps.1] at htgt
        obtain rfl := Option.some.inj htgt
        exact ⟨rfl, by omega⟩

/-- a data callback keeps the blocks of its session, moves its request to a new one, or releases it -/
inductive DataBooks (s t : Svc) (c : ℕ) (a : SvcReceive) : Prop where
  | keeps (a' : SvcReceive) : ¬ (s.receiveSupported = true ∧ a.receiveThreadStatus = .dataCbProcessed) →
      t.ctx = Function.update s.ctx c (.live a') → t.heap = s.heap →
      (a.receiveThreadStatus = .free → a'.receiveThreadStatus = .free) →
      a' = { a with receiveError := a'.receiveError, receiveThreadStatus := a'.receiveThreadStatus } → DataBooks s t c a
  | moves (a' : SvcReceive) : a.receiveThreadStatus = .idle → t.ctx = Function.update s.ctx c (.live a') →
      t.heap.next = s.heap.next + 1 → t.heap.frees = s.heap.frees ++ a.requestBuffer.toList →
      a' = { a with requestBuffer := some s.heap.next, requestLength := a'.requestLength,
                    receiveThreadStatus := a'.receiveThreadStatus } → DataBooks s t c a
  | releases (a' : SvcReceive) : (s.receiveSupported = true ∧ a.receiveThreadStatus = .dataCbProcessed) →
      t.ctx = Function.update s.ctx c (.live a') → t.heap.next = s.heap.next →
      t.heap.frees = s.heap.frees ++ a.requestBuffer.toList →
      a' = { a with responseProcessing := a'.responseProcessing, receiveThreadStatus := .free } → DataBooks s t c a

theorem data_books {d : DataReq} {s : Svc} {c : ℕ} {a : SvcReceive} (hu : s.session d.userContext = some (c, a)) (ok : Bool) :
    DataBooks s (processDeviceRequestData d ok s).1 c a := by
  have hc := (session_some hu).2
  have hsame : s.ctx = Function.update s.ctx c (.live a) := by rw [← hc, Function.update_eq_self]
  by_cases hs : s.receiveSupported = true
  case neg =>
    rw [data_unsupported hu hs]
    exact .keeps _ (fun h => hs h.1) rfl rfl id rfl
  cases hst : a.receiveThreadStatus with
  | idle =>
    rw [data_idle hu hs hst]
    have hnot : ¬ (s.receiveSupported = true ∧ a.receiveThreadStatus = .dataCbProcessed) := by simp [hst]
    by_cases hbig : a.maxRequestSize ≠ receiveNoLimit ∧ a.requestLength + d.buffer.length > a.maxRequestSize
    · rw [appendSegment, if_pos hbig]
      exact .keeps _ hnot rfl rfl (by simp [hst]) rfl
    · rw [appendSegment, if_neg hbig]
      cases ok with
      | false => exact .keeps _ hnot rfl rfl (by simp [hst]) rfl
      | true =>
        obtain ⟨heap, he, hm⟩ :=
          Heap.realloc_moved a.requestBuffer a.requestLength (a.requestLength + d.buffer.length) s.heap
        simp only [he]
        cases d.moreData
        · exact .moves _ hst rfl hm.next hm.frees rfl
        · exact .moves _ hst rfl hm.next hm.frees rfl
  | dataCbReady =>
    by_cases hslot : s.svcReceive = none
    · rw [data_offered hu hs hst hslot]
      exact .keeps _ (by simp [hst]) rfl rfl (by simp [hst]) rfl
    · rw [data_waits hu hs (.inl ⟨hst, hslot⟩)]
      exact .keeps a (by simp [hst]) hsame rfl id rfl
  | dataCbQueued =>
    rw [data_waits hu hs (.inr hst)]
    exact .keeps a (by simp [hst]) hsame rfl id rfl
  | dataCbProcessed =>
    obtain ⟨heap, -, hnext, hfrees, he⟩ := @data_processed _ ok _ _ _ hu hs hst
    rw [he]
    exact .releases _ ⟨hs, hst⟩ rfl hnext hfrees rfl
  | free =>
    rw [data_free hu hs hst]
    exact .keeps a (by simp [hst]) hsame rfl id rfl

/-- a reply keeps the blocks of its session, or puts a new one, or none, in the response's place -/
inductive ReplyBooks (s t : Svc) (c : ℕ) (a : SvcReceive) : Prop where
  | keeps (a' : SvcReceive) : t.ctx = Function.update s.ctx c (.live a') → t.heap = s.heap →
      a' = { a with responseProcessing := a'.responseProcessing } → ReplyBooks s t c a
  | message (a' : SvcReceive) : a.responseHandledInternally = false → t.ctx = Function.update s.ctx c (.live a') →
      s.heap.next ≤ t.heap.next → t.heap.frees = s.heap.frees → a'.target = a.target → a'.requestBuffer = a.requestBuffer →
      a'.receiveThreadStatus = a.receiveThreadStatus → a'.responseHandledInternally = true →
      (∀ blk, a'.responseBufferInfo.block = some blk → s.heap.next ≤ blk ∧ blk < t.heap.next) → ReplyBooks s t c a

theorem reply_books {r : ReplyReq} {ok : Bool} {s t : Svc} {status : CallbackStatus} {reply : Option Reply} {c : ℕ}
    {a : SvcReceive} (hu : s.session r.userContext = some (c, a))
    (ht : processDeviceRequestResponse r ok s = some (t, status, reply)) : ReplyBooks s t c a := by
  have hc := (session_some hu).2
  cases hreq : a.responseRequired with
  | false =>
    rw [reply_optional _ hu hreq] at ht
    simp only [Option.some.injEq, Prod.mk.injEq] at ht
    obtain ⟨rfl, -, -⟩ := ht
    exact .keeps a (by rw [← hc, Function.update_eq_self]) rfl rfl
  | true =>
    by_cases hb : a.builds
    · rw [processDeviceRequestResponse, hu] at ht
      dsimp only at ht
      rw [if_neg (not_not.2 hreq), if_pos hb.2] at ht
      cases htarget : a.target with
      | none => simp [fillInternalError, htarget] at ht
      | some target =>
        cases ok with
        | false =>
          simp only [fillInternalError, htarget, Heap.malloc, Bool.false_eq_true, if_false, Option.some.injEq, Prod.mk.injEq] at ht
          obtain ⟨rfl, -, -⟩ := ht
          exact .message _ hb.2.2.1 rfl le_rfl rfl htarget.symm rfl rfl rfl (fun blk hblk => by cases hblk)
        | true =>
          simp only [fillInternalError, htarget, Heap.malloc, if_true, Option.some.injEq, Prod.mk.injEq] at ht
          obtain ⟨rfl, -, -⟩ := ht
          refine .message _ hb.2.2.1 rfl (Nat.le_succ _) rfl htarget.symm rfl rfl rfl fun blk hblk => ?_
          obtain rfl := Option.some.inj hblk
          exact ⟨le_rfl, Nat.lt_succ_self _⟩
    · rw [reply_streams _ hu hreq hb] at ht
      simp only [Option.some.injEq, Prod.mk.injEq] at ht
      obtain ⟨rfl, -, -⟩ := ht
      exact .keeps _ rfl rfl rfl

/-! ## Places -/

/-- what of a session points to a block -/
inductive Place where
  | context
  | target
  | request
  | message
  | users
deriving DecidableEq

/-- the blocks that are a session's to release or to give back; the request's is not once that has been collected -/
def SvcReceive.held (c : ℕ) (d : Said) (collected : Bool) (a : SvcReceive) : Place → Option ℕ
  | .context => some c
  | .target => a.target.map HeapStr.block
  | .request => if collected then none else a.requestBuffer
  | .message => if a.responseHandledInternally then a.responseBufferInfo.block else none
  | .users => d.left.bind fun l => l.record.block

/-- the machine, and of which sessions the data callback has found the request processed -/
structure Books where
  talk : Talk
  collected : ℕ → Bool

namespace Books

def learn (b : Books) : Op → ℕ → Bool
  | .data d _ =>
    match b.talk.st.svc.session d.userContext with
    | some (c, a) =>
      if b.talk.st.svc.receiveSupported = true ∧ a.receiveThreadStatus = .dataCbProcessed then
        Function.update b.collected c true
      else b.collected
    | none => b.collected
  | _ => b.collected

def step (b : Books) (o : Op) : Books :=
  if b.talk.st.crashed then b else { talk := b.talk.step o, collected := b.learn o }

def Legal (b : Books) (o : Op) : Prop := b.talk.Legal o

instance (b : Books) (o : Op) : Decidable (b.Legal o) := inferInstanceAs (Decidable (b.talk.Legal o))

/-- what a session that is there holds -/
def held (b : Books) (k : ℕ × Place) : Option ℕ :=
  match b.talk.st.svc.ctx k.1 with
  | .live a => a.held k.1 (b.talk.said k.1) (b.collected k.1) k.2
  | _ => none

/-- no session yet; what has been released before was allocated, and none of it twice -/
structure Init (b : Books) : Prop where
  talk : b.talk.Init
  collected : ∀ c, b.collected c = false
  known : ∀ blk ∈ b.talk.st.svc.heap.frees, blk < b.talk.st.svc.heap.next
  once : b.talk.st.svc.heap.frees.Nodup

structure Inv (b : Books) : Prop where
  talk : b.talk.Inv
  custody : Custody b.talk.st.svc.heap.next b.talk.st.svc.heap.frees b.held
  /-- the request of a session that has been collected has been released -/
  settled : ∀ c a, b.talk.st.svc.ctx c = .live a → b.collected c = true →
    a.receiveThreadStatus = .free ∧ ∀ blk ∈ a.requestBuffer, blk ∈ b.talk.st.svc.heap.frees
  fresh : ∀ c, b.talk.st.svc.ctx c = .unallocated → b.collected c = false

theorem inv_init {b : Books} (h : b.Init) : b.Inv := by
  have hnone (k : ℕ × Place) : b.held k = none := by simp [held, h.talk.st.ctx]
  refine ⟨Talk.inv_init h.talk, ⟨h.known, h.once, fun k blk hk => ?_, fun k k' blk hk => ?_⟩, fun c a hc => ?_,
    fun c _ => h.collected c⟩
  · rw [hnone] at hk
    cases hk
  · rw [hnone] at hk
    cases hk
  · rw [h.talk.st.ctx] at hc
    cases hc

/-- a step that touches one session -/
theorem Inv.touch {b : Books} (h : b.Inv) {o : Op} (c : ℕ) (hcr : b.talk.st.crashed = false) (hl : b.Legal o) (places : List Place)
    (hplaces : places.Nodup) (hnext : b.talk.st.svc.heap.next ≤ (Receive.step b.talk.st o).svc.heap.next)
    (hfrees : (Receive.step b.talk.st o).svc.heap.frees =
      b.talk.st.svc.heap.frees ++ places.filterMap fun p => b.held (c, p))
    (hctx : ∀ c', c' ≠ c → (Receive.step b.talk.st o).svc.ctx c' = b.talk.st.svc.ctx c')
    (hsaid : ∀ c', c' ≠ c → b.talk.learn o c' = b.talk.said c') (hcollected : ∀ c', c' ≠ c → b.learn o c' = b.collected c')
    (hout : ∀ p ∈ places, ∀ blk, b.held (c, p) = some blk → (b.step o).held (c, p) ≠ some blk)
    (hold : ∀ p blk, (b.step o).held (c, p) = some blk → b.held (c, p) = some blk ∨
      b.talk.st.svc.heap.next ≤ blk ∧ blk < (Receive.step b.talk.st o).svc.heap.next)
    (hnew : ∀ p p' blk, b.talk.st.svc.heap.next ≤ blk → (b.step o).held (c, p) = some blk → (b.step o).held (c, p') = some blk →
      p = p')
    (hsettled : ∀ a, (Receive.step b.talk.st o).svc.ctx c = .live a → b.learn o c = true →
      a.receiveThreadStatus = .free ∧ ∀ blk ∈ a.requestBuffer, blk ∈ (Receive.step b.talk.st o).svc.heap.frees)
    (hfresh : (Receive.step b.talk.st o).svc.ctx c = .unallocated → b.learn o c = false) : (b.step o).Inv := by
  have hstep : b.step o = ⟨⟨Receive.step b.talk.st o, b.talk.learn o⟩, b.learn o⟩ := by simp [step, Talk.step, hcr]
  have hsame (k : ℕ × Place) (hk : k.1 ≠ c) : (b.step o).held k = b.held k := by
    simp only [held, hstep, hctx k.1 hk, hsaid k.1 hk, hcollected k.1 hk]
  have htalk : (b.step o).talk = b.talk.step o := by simp [step, hcr]
  have hcustody := h.custody.step_at c hnext hplaces hsame hout hold hnew
  rw [← hfrees] at hcustody
  refine ⟨htalk ▸ Talk.step_inv b.talk o h.talk hl, ?_, fun c' a hc' hcol => ?_, fun c' hc' => ?_⟩
  · rwa [hstep] at hcustody ⊢
  · rw [hstep] at hc' hcol ⊢
    by_cases hne : c' = c
    · subst hne
      exact hsettled a hc' hcol
    · obtain ⟨hst, hmem⟩ := h.settled c' a (hctx c' hne ▸ hc') (hcollected c' hne ▸ hcol)
      exact ⟨hst, fun blk hblk => hfrees ▸ List.mem_append_left _ (hmem blk hblk)⟩
  · rw [hstep] at hc' ⊢
    by_cases hne : c' = c
    · subst hne
      exact hfresh hc'
    · exact (hcollected c' hne).trans (h.fresh c' (hctx c' hne ▸ hc'))

theorem held_live {b : Books} {c : ℕ} {a : SvcReceive} (hc : b.talk.st.svc.ctx c = .live a) (p : Place) :
    b.held (c, p) = a.held c (b.talk.said c) (b.collected c) p := by simp [held, hc]

theorem held_gone {b : Books} {c : ℕ} (hc : (b.talk.st.svc.ctx c).isLive = false) (p : Place) : b.held (c, p) = none := by
  unfold held
  cases h : b.talk.st.svc.ctx c with
  | live a =>
    rw [h] at hc
    cases hc
  | unallocated | freed => simp

theorem step_eq {b : Books} (hcr : b.talk.st.crashed = false) (o : Op) :
    b.step o = ⟨⟨Receive.step b.talk.st o, b.talk.learn o⟩, b.learn o⟩ := by simp [step, Talk.step, hcr]

/-- a step that releases nothing and takes nothing -/
theorem Inv.keep {b : Books} (h : b.Inv) {o : Op} (c : ℕ) (hcr : b.talk.st.crashed = false) (hl : b.Legal o)
    (hnext : b.talk.st.svc.heap.next ≤ (Receive.step b.talk.st o).svc.heap.next)
    (hfrees : (Receive.step b.talk.st o).svc.heap.frees = b.talk.st.svc.heap.frees)
    (hctx : ∀ c', c' ≠ c → (Receive.step b.talk.st o).svc.ctx c' = b.talk.st.svc.ctx c')
    (hsaid : ∀ c', c' ≠ c → b.talk.learn o c' = b.talk.said c') (hcollected : b.learn o = b.collected)
    (hold : ∀ p blk, (b.step o).held (c, p) = some blk → b.held (c, p) = some blk)
    (hsettled : ∀ a', (Receive.step b.talk.st o).svc.ctx c = .live a' → ∃ a, b.talk.st.svc.ctx c = .live a ∧
      (a.receiveThreadStatus = .free → a'.receiveThreadStatus = .free) ∧ a'.requestBuffer = a.requestBuffer)
    (hfresh : (Receive.step b.talk.st o).svc.ctx c = .unallocated → b.talk.st.svc.ctx c = .unallocated) : (b.step o).Inv := by
  refine h.touch c hcr hl [] List.nodup_nil hnext (by simpa using hfrees) hctx hsaid (fun _ _ => by rw [hcollected])
    (fun p hp => by cases hp) (fun p blk hp => .inl (hold p blk hp)) (fun p p' blk hle hp _ => ?_) (fun a' hc' hcol => ?_)
    fun hc' => ?_
  · exact absurd (h.custody.live _ _ (hold p blk hp)).1 (not_lt.2 hle)
  · obtain ⟨a, hc, hst, hrequest⟩ := hsettled a' hc'
    rw [hcollected] at hcol
    obtain ⟨hfree, hmem⟩ := h.settled c a hc hcol
    exact ⟨hst hfree, fun blk hblk => hfrees ▸ hmem blk (hrequest ▸ hblk)⟩
  · rw [hcollected]
    exact h.fresh c (hfresh hc')

/-- a step that touches no session -/
theorem Inv.same {b : Books} (h : b.Inv) {o : Op} (hcr : b.talk.st.crashed = false) (hl : b.Legal o)
    (hheap : (Receive.step b.talk.st o).svc.heap = b.talk.st.svc.heap)
    (hctx : (Receive.step b.talk.st o).svc.ctx = b.talk.st.svc.ctx) (hsaid : b.talk.learn o = b.talk.said)
    (hcollected : b.learn o = b.collected) : (b.step o).Inv := by
  refine h.keep 0 hcr hl (by rw [hheap]) (by rw [hheap]) (fun _ _ => by rw [hctx]) (fun _ _ => by rw [hsaid]) hcollected
    (fun p blk hp => ?_) (fun a hc => ⟨a, hctx ▸ hc, id, rfl⟩) fun hc => hctx ▸ hc
  rw [step_eq hcr] at hp
  simpa only [held, hctx, hsaid, hcollected] using hp

theorem Inv.target {b : Books} (h : b.Inv) (hcr : b.talk.st.crashed = false) (r : TargetReq) (env : TargetEnv) :
    (b.step (.target r env)).Inv := by
  have hst : (Receive.step b.talk.st (.target r env)).svc = (processDeviceRequestTarget r env b.talk.st.svc).1 := by
    simp [Receive.step, hcr]
  obtain ⟨hfrees, hnext, hmade⟩ := target_books r env b.talk.st.svc
  obtain ⟨hctx, hnone⟩ | ⟨a, hu, hnew, hctx, -⟩ := target_opens r env b.talk.st.svc
  · have hsaid := Talk.learn_unopened hnone
    refine h.keep 0 hcr trivial (hst ▸ hnext) (hst ▸ hfrees) (fun _ _ => by rw [hst, hctx]) (fun _ _ => by rw [hsaid]) rfl
      (fun p blk hp => ?_) (fun a hc => ⟨a, ?_, id, rfl⟩) fun hc => ?_
    · rw [step_eq hcr] at hp
      simpa only [held, hst, hctx, hsaid, learn] using hp
    · rwa [hst, hctx] at hc
    · rwa [hst, hctx] at hc
  · have hsaid := Talk.learn_opened hu hnew
    have hunallocated := h.talk.fresh _ le_rfl
    have hlive : (Receive.step b.talk.st (.target r env)).svc.ctx b.talk.st.svc.heap.next = .live a := by
      rw [hst, hctx, Function.update_self]
    obtain ⟨hlt, hrequest, hhandled, htarget⟩ := hmade a (hst ▸ hlive) hunallocated
    have hcollected : b.collected b.talk.st.svc.heap.next = false := h.fresh _ hunallocated
    have hheld (p : Place) : (b.step (.target r env)).held (b.talk.st.svc.heap.next, p) =
        a.held b.talk.st.svc.heap.next { Said.nothing with
          ended := decide ((processDeviceRequestTarget r env b.talk.st.svc).2.1 = .error) } false p := by
      rw [held_live (by rw [step_eq hcr]; exact hlive), step_eq hcr]
      dsimp only
      rw [hsaid, Function.update_self]
      congr 1
    have hplaces (p : Place) (blk : ℕ) (hp : (b.step (.target r env)).held (b.talk.st.svc.heap.next, p) = some blk) :
        (p = .context ∧ blk = b.talk.st.svc.heap.next) ∨
          (p = .target ∧ blk = b.talk.st.svc.heap.next + 1 ∧
            blk < (processDeviceRequestTarget r env b.talk.st.svc).1.heap.next) := by
      rw [hheld] at hp
      cases p with
      | context => exact .inl ⟨rfl, (Option.some.inj hp).symm⟩
      | target =>
        obtain ⟨target, ht, rfl⟩ := Option.map_eq_some_iff.1 hp
        obtain ⟨hblk, hlt'⟩ := htarget target ht
        exact .inr ⟨rfl, hblk, hblk ▸ hlt'⟩
      | request => simp [SvcReceive.held, hrequest] at hp
      | message => simp [SvcReceive.held, hhandled] at hp
      | users => simp [SvcReceive.held, Said.nothing] at hp
    refine h.touch b.talk.st.svc.heap.next hcr trivial [] List.nodup_nil (hst ▸ hnext) (by simpa using hst ▸ hfrees)
      (fun c hc => by rw [hst, hctx, Function.update_of_ne hc]) (fun c hc => by rw [hsaid, Function.update_of_ne hc])
      (fun _ _ => rfl) (fun p hp => by cases hp) (fun p blk hp => .inr ?_) (fun p p' blk _ hp hp' => ?_) (fun _ _ hcol => ?_)
      fun hc => ?_
    · rw [hst]
      rcases hplaces p blk hp with ⟨-, rfl⟩ | ⟨-, rfl, hlt'⟩
      · exact ⟨le_rfl, hlt⟩
      · exact ⟨Nat.le_succ _, hlt'⟩
    · rcases hplaces p blk hp with ⟨rfl, hblk⟩ | ⟨rfl, hblk, -⟩ <;>
        rcases hplaces p' blk hp' with ⟨rfl, hblk'⟩ | ⟨rfl, hblk', -⟩
      · rfl
      · omega
      · omega
      · rfl
    · exact absurd (hcollected.symm.trans hcol) (by decide)
    · rw [hlive] at hc
      cases hc

theorem Inv.data {b : Books} (h : b.Inv) (hcr : b.talk.st.crashed = false) (d : DataReq) (ok : Bool)
    (hl : b.Legal (.data d ok)) : (b.step (.data d ok)).Inv := by
  have hst : (Receive.step b.talk.st (.data d ok)).svc = (processDeviceRequestData d ok b.talk.st.svc).1 := by
    simp [Receive.step, hcr, Talk.stepData_svc]
  cases hu : b.talk.st.svc.session d.userContext with
  | none =>
    have he : processDeviceRequestData d ok b.talk.st.svc = (b.talk.st.svc, .error, false) := by
      rw [processDeviceRequestData, hu]
    have hcollected : b.learn (.data d ok) = b.collected := by simp only [learn, hu]
    cases hc : d.userContext with
    | none => exact h.same hcr hl (by rw [hst, he]) (by rw [hst, he]) (by simp only [Talk.learn, hc]) hcollected
    | some c =>
      rw [hc] at hu
      have hdead := Talk.isLive_of_session hu
      refine h.keep c hcr hl (by rw [hst, he]) (by rw [hst, he]) (fun _ _ => by rw [hst, he]) (fun c' hne => ?_) hcollected
        (fun p blk hp => ?_) (fun a hc' => ?_) fun hc' => ?_
      · simp only [Talk.learn, hc]
        exact Function.update_of_ne hne _ _
      · rw [held_gone (by rw [step_eq hcr]; dsimp only; rwa [hst, he])] at hp
        cases hp
      · rw [hst, he] at hc'
        rw [hc'] at hdead
        cases hdead
      · rwa [hst, he] at hc'
  | some q =>
    obtain ⟨c, a⟩ := q
    obtain ⟨huc, hc⟩ := session_some hu
    have hsaid : b.talk.learn (.data d ok) =
        Function.update b.talk.said c ((b.talk.said c).heard (processDeviceRequestData d ok b.talk.st.svc).2.1 d.moreData) := by
      simp [Talk.learn, huc]
    have hothers (c' : ℕ) (hne : c' ≠ c) : b.talk.learn (.data d ok) c' = b.talk.said c' := by
      rw [hsaid, Function.update_of_ne hne]
    have hleft : (b.talk.learn (.data d ok) c).left = (b.talk.said c).left := by
      rw [hsaid, Function.update_self]
      rfl
    have hbefore := held_live hc
    cases data_books hu ok with
    | keeps a' hnot hctx hheap hfree ha' =>
      have hcollected : b.learn (.data d ok) = b.collected := by
        simp only [learn, hu]
        rw [if_neg hnot]
      have hlive : (Receive.step b.talk.st (.data d ok)).svc.ctx c = .live a' := by rw [hst, hctx, Function.update_self]
      refine h.keep c hcr hl (by rw [hst, hheap]) (by rw [hst, hheap]) (fun c' hne => by rw [hst, hctx, Function.update_of_ne hne])
        hothers hcollected (fun p blk hp => ?_) (fun a₂ ha₂ => ⟨a, hc, ?_, ?_⟩) fun hc' => ?_
      · rw [held_live (by rw [step_eq hcr]; exact hlive), step_eq hcr] at hp
        rw [hbefore]
        dsimp only at hp
        rw [hcollected, ha'] at hp
        cases p <;> simpa only [SvcReceive.held, hleft] using hp
      · obtain rfl := Cell.live.inj (hlive.symm.trans ha₂)
        exact hfree
      · obtain rfl := Cell.live.inj (hlive.symm.trans ha₂)
        rw [ha']
      · rw [hlive] at hc'
        cases hc'
    | moves a' hidle hctx hnext hfrees ha' =>
      have hnot : ¬ (b.talk.st.svc.receiveSupported = true ∧ a.receiveThreadStatus = .dataCbProcessed) := by simp [hidle]
      have hcollected : b.learn (.data d ok) = b.collected := by
        simp only [learn, hu]
        rw [if_neg hnot]
      have huncollected : b.collected c = false := by
        by_contra hne
        have := (h.settled c a hc (by simpa using hne)).1
        rw [hidle] at this
        cases this
      have hlive : (Receive.step b.talk.st (.data d ok)).svc.ctx c = .live a' := by rw [hst, hctx, Function.update_self]
      have hheld (p : Place) : (b.step (.data d ok)).held (c, p) =
          if p = .request then some b.talk.st.svc.heap.next else b.held (c, p) := by
        rw [held_live (by rw [step_eq hcr]; exact hlive), step_eq hcr, hbefore, ha']
        dsimp only
        rw [hcollected, huncollected]
        cases p <;> simp [SvcReceive.held, hleft]
      have hrequest : b.held (c, .request) = a.requestBuffer := by simp [hbefore, SvcReceive.held, huncollected]
      refine h.touch c hcr hl [.request] (List.nodup_singleton _) (by rw [hst, hnext]; exact Nat.le_succ _)
        (by rw [hst, hfrees, ← hrequest]; cases hr : b.held (c, .request) <;> simp [hr])
        (fun c' hne => by rw [hst, hctx, Function.update_of_ne hne]) hothers (fun _ _ => by rw [hcollected])
        (fun p hp blk hblk => ?_) (fun p blk hp => ?_) (fun p p' blk hle hp hp' => ?_) (fun a₂ _ hcol => ?_) fun hc' => ?_
      · obtain rfl := List.mem_singleton.1 hp
        rw [hheld, if_pos rfl]
        intro he
        obtain rfl := Option.some.inj he
        exact absurd (h.custody.live _ _ hblk).1 (lt_irrefl _)
      · rw [hheld] at hp
        split_ifs at hp
        · obtain rfl := Option.some.inj hp
          exact .inr ⟨le_rfl, by rw [hst, hnext]; exact Nat.lt_succ_self _⟩
        · exact .inl hp
      · rw [hheld] at hp hp'
        split_ifs at hp hp' with h₁ h₂ h₂
        · exact h₁.trans h₂.symm
        · exact absurd (h.custody.live _ _ hp').1 (not_lt.2 hle)
        · exact absurd (h.custody.live _ _ hp).1 (not_lt.2 hle)
        · exact absurd (h.custody.live _ _ hp).1 (not_lt.2 hle)
      · rw [hcollected, huncollected] at hcol
        cases hcol
      · rw [hlive] at hc'
        cases hc'
    | releases a' hprocessed hctx hnext hfrees ha' =>
      have hcollected : b.learn (.data d ok) = Function.update b.collected c true := by
        simp only [learn, hu]
        rw [if_pos hprocessed]
      have huncollected : b.collected c = false := by
        by_contra hne
        have := (h.settled c a hc (by simpa using hne)).1
        rw [hprocessed.2] at this
        cases this
      have hlive : (Receive.step b.talk.st (.data d ok)).svc.ctx c = .live a' := by rw [hst, hctx, Function.update_self]
      have hheld (p : Place) : (b.step (.data d ok)).held (c, p) = if p = .request then none else b.held (c, p) := by
        rw [held_live (by rw [step_eq hcr]; exact hlive), step_eq hcr, hbefore, ha']
        dsimp only
        rw [hcollected, Function.update_self]
        cases p <;> simp [SvcReceive.held, hleft]
      have hrequest : b.held (c, .request) = a.requestBuffer := by simp [hbefore, SvcReceive.held, huncollected]
      refine h.touch c hcr hl [.request] (List.nodup_singleton _) (by rw [hst, hnext])
        (by rw [hst, hfrees, ← hrequest]; cases hr : b.held (c, .request) <;> simp [hr])
        (fun c' hne => by rw [hst, hctx, Function.update_of_ne hne]) hothers
        (fun c' hne => by rw [hcollected, Function.update_of_ne hne])
        (fun p hp blk _ => ?_) (fun p blk hp => .inl ?_) (fun p p' blk hle hp _ => ?_) (fun a₂ ha₂ _ => ?_) fun hc' => ?_
      · obtain rfl := List.mem_singleton.1 hp
        rw [hheld, if_pos rfl]
        simp
      · rw [hheld] at hp
        split_ifs at hp
        exact hp
      · rw [hheld] at hp
        split_ifs at hp
        exact absurd (h.custody.live _ _ hp).1 (not_lt.2 hle)
      · obtain rfl := Cell.live.inj (hlive.symm.trans ha₂)
        rw [ha', hst, hfrees]
        exact ⟨rfl, fun blk hblk => List.mem_append_right _ (Option.mem_toList.2 hblk)⟩
      · rw [hlive] at hc'
        cases hc'

/-- a step that leaves the service alone, and what the users have left -/
theorem Inv.idle {b : Books} (h : b.Inv) {o : Op} (c : ℕ) (hcr : b.talk.st.crashed = false) (hl : b.Legal o)
    (hheap : (Receive.step b.talk.st o).svc.heap = b.talk.st.svc.heap)
    (hctx : (Receive.step b.talk.st o).svc.ctx = b.talk.st.svc.ctx) (hothers : ∀ c', c' ≠ c → b.talk.learn o c' = b.talk.said c')
    (hleft : (b.talk.learn o c).left = (b.talk.said c).left) (hcollected : b.learn o = b.collected) : (b.step o).Inv := by
  refine h.keep c hcr hl (by rw [hheap]) (by rw [hheap]) (fun _ _ => by rw [hctx]) hothers hcollected
    (fun p blk hp => ?_) (fun a hc => ⟨a, hctx ▸ hc, id, rfl⟩) fun hc => hctx ▸ hc
  rw [step_eq hcr] at hp
  simp only [held, hctx, hcollected] at hp ⊢
  cases hc : b.talk.st.svc.ctx c with
  | live a =>
    rw [hc] at hp
    cases p <;> simpa only [SvcReceive.held, hleft] using hp
  | unallocated | freed =>
    rw [hc] at hp
    exact hp

theorem learn_reply_others {b : Books} {r : ReplyReq} {ok : Bool} {c : ℕ} (hu : r.userContext = some c) {c' : ℕ} (hne : c' ≠ c) :
    b.talk.learn (.reply r ok) c' = b.talk.said c' := by
  simp only [Talk.learn, hu]
  exact Function.update_of_ne hne _ _

theorem learn_reply_left (b : Books) (r : ReplyReq) (ok : Bool) (c : ℕ) :
    (b.talk.learn (.reply r ok) c).left = (b.talk.said c).left := by
  simp only [Talk.learn]
  cases r.userContext with
  | none => rfl
  | some c' =>
    by_cases hne : c = c'
    · subst hne
      simp [Said.replied]
    · simp [hne]

theorem Inv.reply {b : Books} (h : b.Inv) (hcr : b.talk.st.crashed = false) (r : ReplyReq) (ok : Bool)
    (hl : b.Legal (.reply r ok)) : (b.step (.reply r ok)).Inv := by
  have hleft := learn_reply_left b r ok
  have hunmoved (hsvc : (Receive.step b.talk.st (.reply r ok)).svc = b.talk.st.svc) : (b.step (.reply r ok)).Inv := by
    cases hc : r.userContext with
    | none => exact h.same hcr hl (by rw [hsvc]) (by rw [hsvc]) (by simp only [Talk.learn, hc]) rfl
    | some c => exact h.idle c hcr hl (by rw [hsvc]) (by rw [hsvc]) (fun _ => learn_reply_others hc) (hleft c) rfl
  cases he : processDeviceRequestResponse r ok b.talk.st.svc with
  | none => exact hunmoved (by simp [Receive.step, hcr, he])
  | some q =>
    obtain ⟨t, status, reply⟩ := q
    have hst : (Receive.step b.talk.st (.reply r ok)).svc = t := by simp [Receive.step, hcr, he]
    cases hu : b.talk.st.svc.session r.userContext with
    | none =>
      simp only [processDeviceRequestResponse, hu, Option.some.injEq, Prod.mk.injEq] at he
      exact hunmoved (hst.trans he.1.symm)
    | some q =>
      obtain ⟨c, a⟩ := q
      obtain ⟨huc, hc⟩ := session_some hu
      have hbefore := held_live hc
      cases reply_books hu he with
      | keeps a' hctx hheap ha' =>
        have hlive : (Receive.step b.talk.st (.reply r ok)).svc.ctx c = .live a' := by rw [hst, hctx, Function.update_self]
        refine h.keep c hcr hl (by rw [hst, hheap]) (by rw [hst, hheap])
          (fun c' hne => by rw [hst, hctx, Function.update_of_ne hne]) (fun _ => learn_reply_others huc) rfl (fun p blk hp => ?_)
          (fun a₂ ha₂ => ⟨a, hc, ?_, ?_⟩) fun hc' => ?_
        · rw [held_live (by rw [step_eq hcr]; exact hlive), step_eq hcr] at hp
          rw [hbefore]
          dsimp only [learn] at hp
          rw [ha'] at hp
          cases p <;> simpa only [SvcReceive.held, hleft] using hp
        · obtain rfl := Cell.live.inj (hlive.symm.trans ha₂)
          rw [ha']
          exact id
        · obtain rfl := Cell.live.inj (hlive.symm.trans ha₂)
          rw [ha']
        · rw [hlive] at hc'
          cases hc'
      | message a' hhandled hctx hnext hfrees htarget hrequest hstatus hhandled' hblock =>
        have hlive : (Receive.step b.talk.st (.reply r ok)).svc.ctx c = .live a' := by rw [hst, hctx, Function.update_self]
        have hheld (p : Place) : (b.step (.reply r ok)).held (c, p) =
            if p = .message then a'.responseBufferInfo.block else b.held (c, p) := by
          rw [held_live (by rw [step_eq hcr]; exact hlive), step_eq hcr, hbefore]
          dsimp only [learn]
          cases p <;> simp [SvcReceive.held, hleft, htarget, hrequest, hhandled']
        refine h.touch c hcr hl [] List.nodup_nil (hst ▸ hnext) (by simpa using hst ▸ hfrees)
          (fun c' hne => by rw [hst, hctx, Function.update_of_ne hne]) (fun _ => learn_reply_others huc) (fun _ _ => rfl)
          (fun p hp => by cases hp) (fun p blk hp => ?_) (fun p p' blk hle hp hp' => ?_) (fun a₂ ha₂ hcol => ?_) fun hc' => ?_
        · rw [hheld] at hp
          split_ifs at hp
          · exact .inr (hst ▸ hblock blk hp)
          · exact .inl hp
        · rw [hheld] at hp hp'
          split_ifs at hp hp' with h₁ h₂ h₂
          · exact h₁.trans h₂.symm
          · exact absurd (h.custody.live _ _ hp').1 (not_lt.2 hle)
          · exact absurd (h.custody.live _ _ hp).1 (not_lt.2 hle)
          · exact absurd (h.custody.live _ _ hp).1 (not_lt.2 hle)
        · obtain rfl := Cell.live.inj (hlive.symm.trans ha₂)
          obtain ⟨hfree, hmem⟩ := h.settled c a hc hcol
          exact ⟨hstatus.trans hfree, fun blk hblk => by rw [hst, hfrees]; exact hmem blk (hrequest ▸ hblk)⟩
        · rw [hlive] at hc'
          cases hc'

theorem freeSession_frees (c : ℕ) (a : SvcReceive) (heap : Heap) :
    (freeSession c a heap).frees = heap.frees ++ (a.target.map HeapStr.block).toList ++
      (if a.responseHandledInternally then a.responseBufferInfo.block else none).toList ++ [c] := by
  unfold freeSession
  cases a.target <;> cases a.responseHandledInternally <;> cases hb : a.responseBufferInfo.buffer <;>
    simp [Heap.free, BufferInfo.block, hb]

/-- the status callback releases the target, a message and the record -/
theorem status_frees {b : Books} {c : ℕ} {a : SvcReceive} (hc : b.talk.st.svc.ctx c = .live a) (e : ReceiveError) :
    (freeSession c { a with receiveError := e } b.talk.st.svc.heap).frees = b.talk.st.svc.heap.frees ++
      [Place.target, .message, .context].filterMap fun p => b.held (c, p) := by
  rw [freeSession_frees]
  simp only [held_live hc, SvcReceive.held, List.filterMap_cons, List.filterMap_nil]
  cases a.target <;> cases a.responseHandledInternally <;> cases a.responseBufferInfo.block <;> simp

theorem Inv.status {b : Books} (h : b.Inv) (hcr : b.talk.st.crashed = false) (r : StatusReq) : (b.step (.status r)).Inv := by
  have hst : (Receive.step b.talk.st (.status r)).svc = (processDeviceRequestStatus r b.talk.st.svc).1 := by
    simp [Receive.step, hcr]
  cases hu : b.talk.st.svc.session r.userContext with
  | none =>
    have he : processDeviceRequestStatus r b.talk.st.svc = (b.talk.st.svc, .error, none) := by
      rw [processDeviceRequestStatus, hu]
    exact h.same hcr trivial (by rw [hst, he]) (by rw [hst, he]) rfl rfl
  | some q =>
    obtain ⟨c, a⟩ := q
    have hc := (session_some hu).2
    cases herror : (if a.receiveError = .none then r.status.error else some a.receiveError) with
    | none =>
      have he : processDeviceRequestStatus r b.talk.st.svc = (b.talk.st.svc, .error, none) := by
        simp only [processDeviceRequestStatus, hu, herror]
      exact h.same hcr trivial (by rw [hst, he]) (by rw [hst, he]) rfl rfl
    | some e =>
      have he : (processDeviceRequestStatus r b.talk.st.svc).1 = { b.talk.st.svc with
          ctx := Function.update b.talk.st.svc.ctx c (.freed { a with receiveError := e })
          heap := freeSession c { a with receiveError := e } b.talk.st.svc.heap } := by
        simp only [processDeviceRequestStatus, hu, herror]
      have hfreed : (Receive.step b.talk.st (.status r)).svc.ctx c = .freed { a with receiveError := e } := by
        rw [hst, he]
        exact Function.update_self _ _ _
      have hnone (p : Place) : (b.step (.status r)).held (c, p) = none :=
        held_gone (by rw [step_eq hcr]; dsimp only; rw [hfreed]; rfl) p
      have hnext : (freeSession c { a with receiveError := e } b.talk.st.svc.heap).next = b.talk.st.svc.heap.next := by
        unfold freeSession
        cases a.target <;> cases a.responseHandledInternally <;> cases a.responseBufferInfo.buffer <;> rfl
      refine h.touch c hcr trivial [.target, .message, .context] (by decide) (by rw [hst, he, hnext])
        (by rw [hst, he]; exact status_frees hc e) (fun c' hne => by rw [hst, he]; exact Function.update_of_ne hne _ _)
        (fun _ _ => rfl) (fun _ _ => rfl) (fun p _ blk _ => by rw [hnone]; simp) (fun p blk hp => ?_) (fun p p' blk _ hp _ => ?_)
        (fun a₂ ha₂ _ => ?_) fun hc' => ?_
      · rw [hnone] at hp
        cases hp
      · rw [hnone] at hp
        cases hp
      · rw [hfreed] at ha₂
        cases ha₂
      · rw [hfreed] at hc'
        cases hc'

theorem storeResult_books (c : ℕ) (e : ReceiveError) (response : Option (List UInt8)) (s : Svc) :
    s.heap.next ≤ (storeResult c e response s).heap.next ∧ (storeResult c e response s).heap.frees = s.heap.frees ∧
      (∀ c', c' ≠ c → (storeResult c e response s).ctx c' = s.ctx c') := by
  cases response with
  | none => exact ⟨le_rfl, rfl, fun c' hne => Function.update_of_ne hne _ _⟩
  | some bytes => exact ⟨Nat.le_succ _, rfl, fun c' hne => Function.update_of_ne hne _ _⟩

theorem storeResult_places {s : Svc} {c : ℕ} {a : SvcReceive} (e : ReceiveError) (response : Option (List UInt8))
    (hc : s.ctx c = .live a) :
    ∃ a', (storeResult c e response s).ctx c = .live a' ∧ a'.receiveThreadStatus = a.receiveThreadStatus ∧
      a'.target = a.target ∧ a'.requestBuffer = a.requestBuffer ∧
      a'.responseHandledInternally = a.responseHandledInternally := by
  cases response with
  | none => exact ⟨{ a with receiveError := e }, by simp [storeResult, hc, Cell.map], rfl, rfl, rfl, rfl⟩
  | some bytes =>
    exact ⟨{ a with receiveError := e
                    responseBufferInfo := if a.responseRequired then ⟨some ⟨s.heap.next, 0⟩, bytes.length⟩
                      else a.responseBufferInfo }, by simp [storeResult, hc, Cell.map], rfl, rfl, rfl, rfl⟩

theorem Inv.ret {b : Books} (h : b.Inv) (hcr : b.talk.st.crashed = false) (e : ReceiveError) (response : Option (List UInt8)) :
    (b.step (.ret e response)).Inv := by
  cases hpc : b.talk.st.pc with
  | calling c =>
    have hst : (Receive.step b.talk.st (.ret e response)).svc = storeResult c e response b.talk.st.svc := by
      simp [Receive.step, hcr, stepThread, hpc]
    obtain ⟨hnext, hfrees, hctx⟩ := storeResult_books c e response b.talk.st.svc
    have hsaid : b.talk.learn (.ret e response) = Function.update b.talk.said c
        { b.talk.said c with left := (b.talk.st.svc.leaves c response).or (b.talk.said c).left } := by
      simp [Talk.learn, hpc]
    have hothers (c' : ℕ) (hne : c' ≠ c) : b.talk.learn (.ret e response) c' = b.talk.said c' := by
      rw [hsaid, Function.update_of_ne hne]
    cases hc : b.talk.st.svc.ctx c with
    | unallocated | freed a =>
      have hdead : ((storeResult c e response b.talk.st.svc).ctx c).isLive = false := by
        cases response <;> simp [storeResult, hc, Cell.map, Cell.isLive]
      refine h.keep c hcr trivial (hst ▸ hnext) (hst ▸ hfrees) (fun c' hne => hst ▸ hctx c' hne) hothers rfl (fun p blk hp => ?_)
        (fun a' ha' => ?_) fun hc' => ?_
      · rw [held_gone (by rw [step_eq hcr]; exact hst ▸ hdead)] at hp
        cases hp
      · rw [hst] at ha'
        rw [ha'] at hdead
        cases hdead
      · first
          | exact hc
          | rw [hst] at hc'
            cases response <;> simp [storeResult, hc, Cell.map] at hc'
    | live a =>
      have hbefore := held_live hc
      have hp := h.talk.tracked c
      rw [hc] at hp
      have hhandled := (hp.record (hp.unasked (hp.queued (queued_of_grip h.talk.grip hpc hc))).2).1
      obtain ⟨a', hlive, hstatus, htarget, hrequest, hhandled'⟩ := storeResult_places e response hc
      have hlive' : (b.step (.ret e response)).talk.st.svc.ctx c = .live a' := by
        rw [step_eq hcr]
        exact hst ▸ hlive
      have hheld (p : Place) (hne : p ≠ .users) : (b.step (.ret e response)).held (c, p) = b.held (c, p) := by
        rw [held_live hlive', step_eq hcr, hbefore]
        cases p <;> simp [SvcReceive.held, learn, htarget, hrequest, hhandled', hhandled] at hne ⊢
      have husers : (b.step (.ret e response)).held (c, .users) =
          ((b.talk.st.svc.leaves c response).or (b.talk.said c).left).bind fun l => l.record.block := by
        rw [held_live hlive', step_eq hcr]
        simp only [SvcReceive.held, hsaid, Function.update_self]
      have hblock (blk : ℕ) (hblk : (b.step (.ret e response)).held (c, .users) = some blk) : b.held (c, .users) = some blk ∨
          b.talk.st.svc.heap.next ≤ blk ∧ blk < (storeResult c e response b.talk.st.svc).heap.next := by
        rw [husers] at hblk
        rw [hbefore]
        cases response with
        | none =>
          simp only [Svc.leaves, Option.none_or] at hblk
          exact .inl hblk
        | some bytes =>
          cases hreq : a.responseRequired with
          | false =>
            simp only [Svc.leaves, hc, hreq, Bool.false_eq_true, if_false, Option.none_or] at hblk
            exact .inl hblk
          | true =>
            simp only [Svc.leaves, hc, hreq, if_true, Option.some_or, Option.bind_some] at hblk
            obtain rfl := Option.some.inj hblk
            exact .inr ⟨le_rfl, Nat.lt_succ_self _⟩
      refine h.touch c hcr trivial [] List.nodup_nil (hst ▸ hnext) (by simpa using hst ▸ hfrees) (fun c' hne => hst ▸ hctx c' hne)
        hothers (fun _ _ => rfl) (fun p hp => by cases hp) (fun p blk hblk => ?_) (fun p p' blk hle hblk hblk' => ?_)
        (fun a₂ ha₂ hcol => ?_) fun hc' => ?_
      · by_cases hne : p = .users
        · subst hne
          exact hst ▸ hblock blk hblk
        · exact .inl (hheld p hne ▸ hblk)
      · have hself (p : Place) (hblk : (b.step (.ret e response)).held (c, p) = some blk) : p = .users := by
          by_contra hne
          exact absurd (h.custody.live _ _ (hheld p hne ▸ hblk)).1 (not_lt.2 hle)
        exact (hself p hblk).trans (hself p' hblk').symm
      · rw [hst] at ha₂ ⊢
        obtain rfl := Cell.live.inj (hlive.symm.trans ha₂)
        obtain ⟨hfree, hmem⟩ := h.settled c a hc hcol
        exact ⟨hstatus.trans hfree, fun blk hblk => hfrees ▸ hmem blk (hrequest ▸ hblk)⟩
      · rw [hst, hlive] at hc'
        cases hc'
  | _ =>
    exact h.same hcr trivial (by simp [Receive.step, hcr, stepThread, hpc]) (by simp [Receive.step, hcr, stepThread, hpc])
      (by simp [Talk.learn, hpc]) rfl

theorem Inv.settle {b : Books} (h : b.Inv) (hcr : b.talk.st.crashed = false) : (b.step .settle).Inv := by
  cases hpc : b.talk.st.pc with
  | returned c =>
    have hst : (Receive.step b.talk.st .settle).svc = { b.talk.st.svc with
        ctx := Function.update b.talk.st.svc.ctx c ((b.talk.st.svc.ctx c).map SvcReceive.settle) } := by
      simp [Receive.step, hcr, stepThread, hpc]
    have hself : (Receive.step b.talk.st .settle).svc.ctx c = (b.talk.st.svc.ctx c).map SvcReceive.settle := by
      rw [hst]
      exact Function.update_self _ _ _
    have hsame (a : SvcReceive) : a.settle = { a with receiveThreadStatus := a.settle.receiveThreadStatus } := by
      unfold SvcReceive.settle
      split_ifs <;> rfl
    refine h.keep c hcr trivial (by rw [hst]) (by rw [hst]) (fun c' hne => by rw [hst]; exact Function.update_of_ne hne _ _)
      (fun _ _ => rfl) rfl (fun p blk hp => ?_) (fun a' ha' => ?_) fun hc' => ?_
    · rw [step_eq hcr] at hp
      simp only [held, hself] at hp ⊢
      cases hc : b.talk.st.svc.ctx c with
      | live a =>
        rw [hc] at hp
        simp only [Cell.map] at hp
        rw [hsame a] at hp
        cases p <;> exact hp
      | unallocated | freed =>
        rw [hc] at hp
        cases hp
    · rw [hself] at ha'
      cases hc : b.talk.st.svc.ctx c with
      | live a =>
        rw [hc] at ha'
        obtain rfl := Cell.live.inj ha'
        refine ⟨a, rfl, fun hfree => ?_, by rw [hsame a]⟩
        rw [SvcReceive.settle, if_neg (by rw [hfree]; decide), hfree]
      | unallocated | freed =>
        rw [hc] at ha'
        cases ha'
    · rw [hself] at hc'
      cases hc : b.talk.st.svc.ctx c with
      | unallocated => rfl
      | live a | freed a =>
        rw [hc] at hc'
        cases hc'
  | _ =>
    exact h.same hcr trivial (by simp [Receive.step, hcr, stepThread, hpc]) (by simp [Receive.step, hcr, stepThread, hpc]) rfl rfl

/-- **One step.** -/
theorem step_inv (b : Books) (o : Op) (h : b.Inv) (hl : b.Legal o) : (b.step o).Inv := by
  cases hcr : b.talk.st.crashed with
  | true => simpa [step, hcr] using h
  | false =>
    cases o with
    | target r env => exact h.target hcr r env
    | data d ok => exact h.data hcr d ok hl
    | reply r ok => exact h.reply hcr r ok hl
    | status r => exact h.status hcr r
    | ret e response => exact h.ret hcr e response
    | settle => exact h.settle hcr
    | wake | check | call | clear =>
      refine h.same hcr hl ?_ ?_ rfl rfl <;>
      · simp only [Receive.step, hcr, stepThread]
        repeat' split
        all_goals rfl

theorem run_inv {b : Books} (h : b.Inv) {ops : List Op} (hl : Along step Legal b ops) : (run step b ops).Inv :=
  Runs.run_inv step_inv h hl

/-! ## What the users have been offered -/

/-- what has been released stays so -/
theorem step_frees (b : Books) (o : Op) : b.talk.st.svc.heap.frees <+: (b.step o).talk.st.svc.heap.frees := by
  cases hcr : b.talk.st.crashed with
  | true => simp [step, hcr]
  | false =>
    rw [step_eq hcr]
    cases o with
    | target r env =>
      simp only [Receive.step, hcr, Bool.false_eq_true, if_false, (target_books r env b.talk.st.svc).1]
      exact List.prefix_refl _
    | data d ok =>
      simp only [Receive.step, hcr, Bool.false_eq_true, if_false, Talk.stepData_svc]
      cases hu : b.talk.st.svc.session d.userContext with
      | none => simp [processDeviceRequestData, hu]
      | some q =>
        cases data_books hu ok with
        | keeps _ _ _ hheap => rw [hheap]
        | moves _ _ _ _ hfrees => exact hfrees ▸ List.prefix_append _ _
        | releases _ _ _ _ hfrees => exact hfrees ▸ List.prefix_append _ _
    | reply r ok =>
      cases he : processDeviceRequestResponse r ok b.talk.st.svc with
      | none => simp [Receive.step, hcr, he]
      | some q =>
        simp only [Receive.step, hcr, Bool.false_eq_true, if_false, he]
        cases hu : b.talk.st.svc.session r.userContext with
        | none =>
          simp only [processDeviceRequestResponse, hu, Option.some.injEq] at he
          rw [← he]
        | some p =>
          cases reply_books hu he with
          | keeps _ _ hheap => rw [hheap]
          | message _ _ _ _ hfrees => rw [hfrees]
    | status r =>
      simp only [Receive.step, hcr, Bool.false_eq_true, if_false, processDeviceRequestStatus]
      split
      · exact List.prefix_refl _
      · split
        · exact List.prefix_refl _
        · rw [freeSession_frees, List.append_assoc, List.append_assoc]
          exact List.prefix_append _ _
    | ret e response =>
      cases hpc : b.talk.st.pc with
      | calling c =>
        simp only [Receive.step, hcr, Bool.false_eq_true, if_false, stepThread, hpc, (storeResult_books c e response _).2.1]
        exact List.prefix_refl _
      | _ => simp [Receive.step, hcr, stepThread, hpc]
    | settle | wake | check | call | clear =>
      simp only [Receive.step, hcr, Bool.false_eq_true, if_false, stepThread]
      repeat' split
      all_goals exact List.prefix_refl _

theorem run_frees (b : Books) (ops : List Op) : b.talk.st.svc.heap.frees <+: (run step b ops).talk.st.svc.heap.frees :=
  run_inv_all (I := fun b' => b.talk.st.svc.heap.frees <+: b'.talk.st.svc.heap.frees) (fun b' o h => h.trans (step_frees b' o))
    (List.prefix_refl _) ops

/-- the call of the user's status callback for session c that a step makes -/
def offers (c : ℕ) (b : Books) : Op → Option StatusCall
  | .status r =>
    if b.talk.st.crashed = false ∧ r.userContext = some c then (processDeviceRequestStatus r b.talk.st.svc).2.2 else none
  | _ => none

/-- the calls of the user's status callback for session c in a run -/
def offered (c : ℕ) (b : Books) (ops : List Op) : List StatusCall := (steps step b ops).filterMap fun p => p.1.offers c p.2

/-- where the user's status callback has been called, the record is released -/
theorem offers_frees {b : Books} {c : ℕ} {o : Op} {k : StatusCall} (hk : b.offers c o = some k) :
    c ∈ (b.step o).talk.st.svc.heap.frees := by
  cases o with
  | status r =>
    simp only [offers] at hk
    split_ifs at hk with h
    obtain ⟨hcr, hu⟩ := h
    rw [step_eq hcr]
    simp only [Receive.step, hcr, Bool.false_eq_true, if_false]
    unfold processDeviceRequestStatus at hk ⊢
    split at hk
    · cases hk
    · rename_i c' a hs
      obtain rfl := Option.some.inj (hu.symm.trans (session_some hs).1)
      split at hk
      · cases hk
      · rename_i e he
        simp only [freeSession_frees]
        simp
  | _ => cases hk

/-- the user has not been offered anything of a session that is there -/
theorem offered_live {b : Books} (h : b.Inv) {ops : List Op} (hl : Along step Legal b ops) {c : ℕ} {a : SvcReceive}
    (hc : (run step b ops).talk.st.svc.ctx c = .live a) : offered c b ops = [] := by
  induction ops generalizing b with
  | nil => rfl
  | cons o ops ih =>
    have hrest : offered c (b.step o) ops = [] := ih (step_inv b o h hl.1) hl.2 hc
    cases hk : b.offers c o with
    | none => simpa [offered, hk] using hrest
    | some k =>
      have hfreed := (run_frees (b.step o) ops).subset (offers_frees hk)
      have hheld : (run step b (o :: ops)).held (c, .context) = some c := held_live hc _
      exact absurd hfreed ((run_inv h hl).custody.live _ _ hheld).2

/-! ## The end of a session -/

/-- what is to have become of a session's blocks when its status callback has returned; frees is what has been released then,
calls the calls of the user's status callback for the session -/
structure Released (b : Books) (c : ℕ) (a : SvcReceive) (frees : List ℕ) (calls : List StatusCall) : Prop where
  request : ∀ blk ∈ a.requestBuffer, frees.count blk = 1
  target : ∀ t ∈ a.target, frees.count t.block = 1
  message : a.responseHandledInternally = true → ∀ blk ∈ a.responseBufferInfo.block, frees.count blk = 1
  context : frees.count c = 1
  users : ∀ l ∈ (b.talk.said c).left, calls.map StatusCall.response = [some l.record] ∧ ∀ blk ∈ l.record.block, blk ∉ frees

/-- the request was never begun or has been collected; where the user has left a response, that has not been replaced by a
message, and there is a status callback -/
structure Orderly (b : Books) (c : ℕ) (a : SvcReceive) : Prop where
  request : a.requestBuffer = none ∨ b.collected c = true
  users : (b.talk.said c).left ≠ none →
    b.talk.st.svc.receiveSupported = true ∧ a.statusCb ≠ none ∧ a.responseHandledInternally = false

/-- **The status callback.** -/
theorem Inv.released_iff {b : Books} (h : b.Inv) {r : StatusReq} {c : ℕ} {a : SvcReceive}
    (hu : b.talk.st.svc.session r.userContext = some (c, a))
    (hends : (processDeviceRequestStatus r b.talk.st.svc).2.1 = .cont) :
    b.Released c a (processDeviceRequestStatus r b.talk.st.svc).1.heap.frees
      (processDeviceRequestStatus r b.talk.st.svc).2.2.toList ↔ b.Orderly c a := by
  have hc := (session_some hu).2
  have hheld := held_live hc
  have hp := h.talk.tracked c
  rw [hc] at hp
  obtain ⟨e, he⟩ : ∃ e, processDeviceRequestStatus r b.talk.st.svc = ({ b.talk.st.svc with
      ctx := Function.update b.talk.st.svc.ctx c (.freed { a with receiveError := e })
      heap := freeSession c { a with receiveError := e } b.talk.st.svc.heap }, .cont,
      statusCall b.talk.st.svc { a with receiveError := e }) := by
    cases herror : (if a.receiveError = .none then r.status.error else some a.receiveError) with
    | none => simp [processDeviceRequestStatus, hu, herror] at hends
    | some e => exact ⟨e, by simp only [processDeviceRequestStatus, hu, herror]⟩
  rw [he]
  dsimp only
  have hfrees := status_frees hc e
  have hmap : ([Place.target, .message, .context].map fun p => (c, p)).filterMap b.held =
      [Place.target, .message, .context].filterMap fun p => b.held (c, p) := by
    rw [List.filterMap_map]
    rfl
  have hplaces : ([Place.target, .message, .context].map fun p => (c, p)).Nodup := by simp
  rw [hfrees, ← hmap]
  have hreleased {p : Place} {blk : ℕ} (hin : p = .target ∨ p = .message ∨ p = .context) (hblk : b.held (c, p) = some blk) :
      (b.talk.st.svc.heap.frees ++ ([Place.target, .message, .context].map fun p => (c, p)).filterMap b.held).count blk = 1 :=
    h.custody.count_released hplaces (by rcases hin with rfl | rfl | rfl <;> simp) hblk
  have hkept {p : Place} {blk : ℕ} (hin : p = .request ∨ p = .users) (hblk : b.held (c, p) = some blk) :
      blk ∉ b.talk.st.svc.heap.frees ++ ([Place.target, .message, .context].map fun p => (c, p)).filterMap b.held :=
    h.custody.not_released (by rcases hin with rfl | rfl <;> simp) hblk
  constructor
  · intro hr
    refine ⟨?_, fun hleft => ?_⟩
    · by_contra hnot
      push Not at hnot
      obtain ⟨blk, hblk⟩ := Option.ne_none_iff_exists'.1 hnot.1
      have hcol : b.collected c = false := by simpa using hnot.2
      have hone := hr.request blk hblk
      rw [List.count_eq_zero_of_not_mem (hkept (.inl rfl) (by simp [hheld, SvcReceive.held, hcol, hblk]))] at hone
      cases hone
    · obtain ⟨l, hl⟩ := Option.ne_none_iff_exists'.1 hleft
      have hresponse := (hr.users l hl).1
      unfold statusCall at hresponse
      split at hresponse
      · rename_i cb hsup hcb
        refine ⟨hsup, by simp [show a.statusCb = some cb from hcb], ?_⟩
        by_contra hno
        simp [hno] at hresponse
      · cases hresponse
  · intro ho
    constructor
    case request =>
      intro blk hblk
      rcases ho.request with hnone | hcol
      · rw [hnone] at hblk
        cases hblk
      · exact List.count_eq_one_of_mem (h.custody.nodup_released hplaces)
          (List.mem_append_left _ ((h.settled c a hc hcol).2 blk hblk))
    case target => exact fun t ht => hreleased (.inl rfl) (by rw [hheld, SvcReceive.held, Option.mem_def.1 ht]; rfl)
    case message =>
      exact fun hhandled blk hblk => hreleased (.inr (.inl rfl)) (by rw [hheld, SvcReceive.held, if_pos hhandled]; exact hblk)
    case context => exact hreleased (.inr (.inr rfl)) (hheld _)
    case users =>
      intro l hl
      obtain ⟨hsup, hcb, hhandled⟩ := ho.users (by rw [Option.mem_def.1 hl]; simp)
      obtain ⟨cb, hcb⟩ := Option.ne_none_iff_exists'.1 hcb
      have htried : (b.talk.said c).tried = [] := by
        by_contra hne
        exact absurd (hhandled.symm.trans (hp.handled hne)) (by decide)
      refine ⟨?_, fun blk hblk => hkept (.inr rfl) ?_⟩
      · obtain ⟨k, hk⟩ : ∃ k, statusCall b.talk.st.svc { a with receiveError := e } = some k := by
          simp [statusCall, hsup, hcb]
        rw [hk, Option.toList_some, List.map_singleton, hp.given_back htried hk, Option.mem_def.1 hl]
        rfl
      · rw [hheld, SvcReceive.held, Option.mem_def.1 hl]
        exact hblk

end Books

end CcApi.Receive
