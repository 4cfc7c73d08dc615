/-
The message of an internal error (`fill_internal_error` of `ccapi_data_handler.c`).

The first reply of a session with an error and no response formats a message into a block whose size is computed from the
format, the error's name and the target. The context has no target when the copy of it failed, and a user's own error has no
name.

- `safe_iff`: a message is safe exactly where there is a target and the error is one of the enumeration.
- `messages_safe_iff`: throughout a run every message is safe exactly where no copy of a target fails for a session that is to be
  answered, and no such session is answered with nothing but an error of the user's own.
- `messages_unsafe`: both happen.
-/
import CcApi.Receive.Replies

namespace CcApi.Receive

open Lib Lib.Runs

/-! ## One message -/

/-- the strings that are formatted are there, and the message and its NUL fit the block that is allocated -/
structure SafeMessage (a : SvcReceive) : Prop where
  named : a.receiveError.name ≠ none
  fits : ∃ target, a.target = some target ∧
    (internalErrorText a.receiveError target.text).length + 1 ≤ internalErrorSize a.receiveError target.text

def ReceiveError.isUsers : ReceiveError → Bool
  | .userDefined _ => true
  | _ => false

theorem name_iff (e : ReceiveError) : e.name ≠ none ↔ e.isUsers = false := by
  cases e <;> simp [ReceiveError.name, ReceiveError.isUsers]

/-- the codes of the enumeration have two digits at most -/
theorem length_decimal_code {e : ReceiveError} (h : e.isUsers = false) : (decimal e.code).length ≤ 2 := by
  cases e with
  | userDefined k => cases h
  | _ => decide

/-- the conversions of the format take the room of the digits and of the quotes' contents -/
theorem length_text {e : ReceiveError} (h : e.isUsers = false) (target : Str) :
    (internalErrorText e target).length + 1 ≤ internalErrorSize e target := by
  have hdigits := length_decimal_code h
  obtain ⟨name, hname⟩ := Option.ne_none_iff_exists'.1 ((name_iff e).2 h)
  have hformat : (ascii "CCAPI Error %d (%s) while handling target '%s'").length = 46 := by decide
  have hstart : (ascii "CCAPI Error ").length = 12 := by decide
  have hopen : (ascii " (").length = 2 := by decide
  have hmiddle : (ascii ") while handling target '").length = 25 := by decide
  have hquote : (ascii "'").length = 1 := by decide
  simp only [internalErrorText, internalErrorSize, hname, Option.getD_some, List.length_append, hformat, hstart, hopen, hmiddle,
    hquote]
  omega

theorem safe_iff (a : SvcReceive) : SafeMessage a ↔ a.target ≠ none ∧ a.receiveError.isUsers = false := by
  constructor
  · rintro ⟨hnamed, target, htarget, -⟩
    exact ⟨by simp [htarget], (name_iff _).1 hnamed⟩
  · rintro ⟨htarget, herror⟩
    obtain ⟨target, ht⟩ := Option.ne_none_iff_exists'.1 htarget
    exact ⟨(name_iff _).2 herror, target, ht, length_text herror target.text⟩

/-! ## Runs -/

/-- whichever session a reply is asked for, a message that it builds is safe -/
def MessagesSafe (s : St) : Prop :=
  ∀ (r : ReplyReq) c a, s.svc.session r.userContext = some (c, a) → a.builds → SafeMessage a

/-- the copy of a target does not fail for a session that is to be answered; an error of the user's own comes with a response,
where there is to be one -/
def Sound (s : St) : Op → Prop
  | .target r env =>
    r.target ≠ none → r.userContext = none → env.contextOk = true → env.targetOk = false → r.responseRequired = false
  | .ret e response => ∀ c a, s.pc = .calling c → s.svc.ctx c = .live a → a.responseRequired = true →
      a.responseHandledInternally = false → (response.map List.length).getD a.responseBufferInfo.length = 0 → e.isUsers = false
  | _ => True

/-- the record of a session whose message, if one is built, will be safe -/
structure Printable (a : SvcReceive) : Prop where
  target : a.responseRequired = true → a.target ≠ none
  error : a.responseRequired = true → a.responseHandledInternally = false → a.responseBufferInfo.length = 0 →
    a.receiveError.isUsers = false

theorem Printable.message {a : SvcReceive} (h : Printable a) (hb : a.builds) : SafeMessage a :=
  (safe_iff a).2 ⟨h.target hb.1, h.error hb.1 hb.2.2.1 hb.2.2.2⟩

/-- what the connector's callbacks do to a session's record apart from its progress -/
def Revises (a a' : SvcReceive) : Prop :=
  a'.responseRequired = a.responseRequired ∧ a'.target = a.target ∧
    a'.responseHandledInternally = a.responseHandledInternally ∧ a'.responseBufferInfo = a.responseBufferInfo ∧
    (a'.receiveError = a.receiveError ∨ a'.receiveError.isUsers = false)

theorem Printable.revises {a a' : SvcReceive} (h : Printable a) (hr : Revises a a') : Printable a' := by
  obtain ⟨hreq, htarget, hhandled, hrecord, herror⟩ := hr
  refine ⟨fun hq => htarget ▸ h.target (hreq ▸ hq), fun hq hh hl => ?_⟩
  rcases herror with he | he
  · rw [he]
    exact h.error (hreq ▸ hq) (hhandled ▸ hh) (hrecord ▸ hl)
  · exact he

/-! ### The callbacks -/

theorem acceptTarget_revises (s : Svc) (target : Str) (accepts : Bool) (a : SvcReceive) :
    Revises a (acceptTarget s target accepts a).1 := by
  unfold acceptTarget
  cases s.receiveSupported
  · simp [Revises, ReceiveError.isUsers]
  · cases getTargetEntry s target with
    | some t => simp [Revises]
    | none =>
      by_cases hcb : a.dataCb = none <;> by_cases hno : s.hasAcceptCb = true ∧ accepts = false <;>
        simp [hcb, hno, Revises, ReceiveError.isUsers]

/-- a target callback opens no session, one without a target, or one with it -/
theorem target_makes (r : TargetReq) (env : TargetEnv) (s : Svc) :
    let t := (processDeviceRequestTarget r env s).1
    t.ctx = s.ctx ∨ ∃ a : SvcReceive, r.target ≠ none ∧ r.userContext = none ∧ env.contextOk = true ∧
      t.ctx = Function.update s.ctx s.heap.next (.live a) ∧ a.responseRequired = r.responseRequired ∧
      a.responseHandledInternally = false ∧ a.responseBufferInfo = ⟨none, 0⟩ ∧ a.receiveError.isUsers = false ∧
      if env.targetOk then a.target ≠ none else a.target = none ∧ a.receiveError = .insufficientMemory := by
  unfold processDeviceRequestTarget
  cases htarget : r.target with
  | none => exact .inl rfl
  | some target =>
    by_cases hu : r.userContext.isSome = true
    · exact .inl (by simp [hu])
    have hnone : r.userContext = none := by simpa using hu
    cases hc : env.contextOk with
    | false => exact .inl (by simp [hu, Heap.malloc])
    | true =>
      cases ht : env.targetOk with
      | false =>
        refine .inr ⟨{ newContext r s with receiveError := .insufficientMemory }, by simp, hnone, rfl, ?_, rfl, rfl, rfl, rfl, ?_⟩
        · simp [hu, Heap.malloc, Svc.put]
        · simp [newContext]
      | true =>
        obtain ⟨hreq, htgt, hhandled, hrecord, herror⟩ := acceptTarget_revises s target env.accepts
          { newContext r s with target := some ⟨s.heap.next + 1, target⟩ }
        refine .inr ⟨(acceptTarget s target env.accepts { newContext r s with target := some ⟨s.heap.next + 1, target⟩ }).1,
          by simp, hnone, rfl, ?_, hreq, hhandled, hrecord, ?_, ?_⟩
        · simp [hu, Heap.malloc, Svc.put]
        · exact herror.elim (fun he => by rw [he]; rfl) id
        · simp [htgt]

theorem data_revises (d : DataReq) (ok : Bool) (s : Svc) :
    (processDeviceRequestData d ok s).1.ctx = s.ctx ∨ ∃ c a a', s.ctx c = .live a ∧
      (processDeviceRequestData d ok s).1.ctx = Function.update s.ctx c (.live a') ∧ Revises a a' := by
  cases hu : s.session d.userContext with
  | none => exact .inl (by rw [processDeviceRequestData, hu])
  | some p =>
    obtain ⟨c, a⟩ := p
    have hc := (session_some hu).2
    by_cases hs : s.receiveSupported = true
    case neg => exact .inr ⟨c, a, _, hc, by rw [data_unsupported hu hs]; rfl, by simp [Revises, ReceiveError.isUsers]⟩
    cases hst : a.receiveThreadStatus with
    | idle =>
      rw [data_idle hu hs hst]
      obtain ⟨-, -, he⟩ | ⟨-, -, he⟩ | ⟨-, -, heap, -, -, -, he⟩ := appendSegment_cases c a d ok s
      · exact .inr ⟨c, a, _, hc, by rw [he]; rfl, by simp [Revises, ReceiveError.isUsers]⟩
      · exact .inr ⟨c, a, _, hc, by rw [he]; rfl, by simp [Revises, ReceiveError.isUsers]⟩
      · exact .inr ⟨c, a, _, hc, by rw [he]; rfl, by simp [Revises]⟩
    | dataCbReady =>
      by_cases hslot : s.svcReceive = none
      · exact .inr ⟨c, a, _, hc, by rw [data_offered hu hs hst hslot]; rfl, by simp [Revises]⟩
      · exact .inl (by rw [data_waits hu hs (.inl ⟨hst, hslot⟩)])
    | dataCbQueued => exact .inl (by rw [data_waits hu hs (.inr hst)])
    | dataCbProcessed =>
      obtain ⟨heap, -, -, -, he⟩ := @data_processed _ ok _ _ _ hu hs hst
      exact .inr ⟨c, a, _, hc, by rw [he]; rfl, by simp [Revises]⟩
    | free => exact .inl (by rw [data_free hu hs hst])

/-- a reply of a session whose message is safe does not crash, and leaves one whose message is safe -/
theorem reply_safe (ok : Bool) {r : ReplyReq} {s : Svc} {c : ℕ} {a : SvcReceive} (hu : s.session r.userContext = some (c, a))
    (h : Printable a) :
    ∃ t status reply, processDeviceRequestResponse r ok s = some (t, status, reply) ∧
      (t.ctx = s.ctx ∨ ∃ a', t.ctx = Function.update s.ctx c (.live a') ∧ Printable a') := by
  cases hreq : a.responseRequired with
  | false => exact ⟨_, _, _, reply_optional ok hu hreq, .inl rfl⟩
  | true =>
    by_cases hb : a.builds
    · obtain ⟨target, htarget⟩ := Option.ne_none_iff_exists'.1 (h.target hreq)
      obtain ⟨heap, message, -, -, he⟩ := reply_builds ok hu hb htarget
      refine ⟨_, _, _, he, .inr ⟨_, rfl, ?_⟩⟩
      have hhandled : (a.withMessage message).responseHandledInternally = true := by cases message <;> rfl
      have hsame : (a.withMessage message).target = a.target := by cases message <;> rfl
      rw [sendReply_eq]
      exact ⟨fun _ => by dsimp only; rw [hsame, htarget]; simp, fun _ hno => absurd (hhandled.symm.trans hno) (by decide)⟩
    · exact ⟨_, _, _, reply_streams ok hu hreq hb, .inr ⟨_, rfl, h.revises ⟨rfl, rfl, rfl, rfl, .inl rfl⟩⟩⟩

/-! ### The invariant -/

structure AllSafe (s : St) : Prop where
  running : s.crashed = false
  safe : ∀ c a, s.svc.ctx c = .live a → Printable a

theorem allSafe_init {s : St} (h : Init s) : AllSafe s :=
  ⟨h.running, fun c a hc => by rw [h.ctx] at hc; cases hc⟩

theorem AllSafe.messages {s : St} (h : AllSafe s) : MessagesSafe s :=
  fun _ c a hu hb => (h.safe c a (session_some hu).2).message hb

/-- a step that rewrites one context at most -/
theorem AllSafe.update {s t : St} (h : AllSafe s) (hcr : t.crashed = false) {c : ℕ} {x : Cell SvcReceive}
    (hctx : t.svc.ctx = Function.update s.svc.ctx c x) (hx : ∀ a, x = .live a → Printable a) : AllSafe t := by
  refine ⟨hcr, fun c' a hc' => ?_⟩
  rw [hctx] at hc'
  by_cases hne : c' = c
  · subst hne
    rw [Function.update_self] at hc'
    exact hx a hc'
  · rw [Function.update_of_ne hne] at hc'
    exact h.safe c' a hc'

theorem AllSafe.same {s t : St} (h : AllSafe s) (hcr : t.crashed = false) (hctx : t.svc.ctx = s.svc.ctx) : AllSafe t :=
  ⟨hcr, fun c a hc => h.safe c a (hctx ▸ hc)⟩

/-- what the user's data callback leaves -/
theorem storeResult_record (c : ℕ) (e : ReceiveError) (response : Option (List UInt8)) (s : Svc) :
    ∃ f : SvcReceive → SvcReceive, (storeResult c e response s).ctx = Function.update s.ctx c ((s.ctx c).map f) ∧
      ∀ a, (f a).responseRequired = a.responseRequired ∧ (f a).target = a.target ∧
        (f a).responseHandledInternally = a.responseHandledInternally ∧ (f a).receiveError = e ∧
        (a.responseRequired = true →
          (f a).responseBufferInfo.length = (response.map List.length).getD a.responseBufferInfo.length) := by
  cases response with
  | none => exact ⟨fun a => { a with receiveError := e }, rfl, by simp⟩
  | some bytes =>
    exact ⟨fun a => { a with receiveError := e
                             responseBufferInfo := if a.responseRequired then ⟨some ⟨s.heap.next, 0⟩, bytes.length⟩
                               else a.responseBufferInfo }, rfl, fun a => by simp +contextual⟩

/-- **One step.** -/
theorem step_allSafe (s : St) (o : Op) (h : AllSafe s) (hC : Sound s o) : AllSafe (step s o) := by
  have hcr := h.running
  cases o with
  | target r env =>
    have hst : step s (.target r env) = { s with svc := (processDeviceRequestTarget r env s.svc).1 } := by simp [step, hcr]
    rw [hst]
    obtain hctx | ⟨a, htarget, hu, hok, hctx, hreq, hhandled, hrecord, herror, hmade⟩ := target_makes r env s.svc
    · exact h.same hcr hctx
    · refine h.update hcr hctx fun b hb => ?_
      obtain rfl := Cell.live.inj hb
      refine ⟨fun hq => ?_, fun _ _ _ => herror⟩
      cases hto : env.targetOk with
      | true => simpa [hto] using hmade
      | false =>
        rw [hreq, hC htarget hu hok hto] at hq
        cases hq
  | data d ok =>
    have hst : (step s (.data d ok)).svc = (processDeviceRequestData d ok s.svc).1 ∧ (step s (.data d ok)).crashed = false := by
      simp [step, hcr, stepData]
    obtain hctx | ⟨c, a, a', hc, hctx, hr⟩ := data_revises d ok s.svc
    · exact h.same hst.2 (hst.1 ▸ hctx)
    · refine h.update hst.2 (hst.1 ▸ hctx) fun b hb => ?_
      obtain rfl := Cell.live.inj hb
      exact (h.safe c a hc).revises hr
  | reply r ok =>
    cases hu : s.svc.session r.userContext with
    | none =>
      have he : processDeviceRequestResponse r ok s.svc = some (s.svc, .error, none) := by
        simp [processDeviceRequestResponse, hu]
      exact h.same (by simp [step, hcr, he]) (by simp [step, hcr, he])
    | some p =>
      obtain ⟨t, status, reply, he, hor⟩ := reply_safe ok hu (h.safe p.1 p.2 (session_some hu).2)
      have hst : step s (.reply r ok) = { s with svc := t } := by simp [step, hcr, he]
      rw [hst]
      rcases hor with hctx | ⟨a', hctx, hsafe⟩
      · exact h.same hcr hctx
      · exact h.update hcr hctx fun b hb => Cell.live.inj hb ▸ hsafe
  | status r =>
    have hst : step s (.status r) = { s with svc := (processDeviceRequestStatus r s.svc).1 } := by simp [step, hcr]
    rw [hst]
    obtain he | ⟨c, a, a', heap, -, -, -, he⟩ := status_cases r s.svc
    · exact h.same hcr (by rw [he])
    · exact h.update hcr (by rw [he]) fun b hb => by cases hb
  | ret e response =>
    cases hpc : s.pc with
    | calling c =>
      obtain ⟨f, hctx, hf⟩ := storeResult_record c e response s.svc
      have hst : (step s (.ret e response)).svc = storeResult c e response s.svc ∧ (step s (.ret e response)).crashed = false := by
        simp [step, hcr, stepThread, hpc]
      refine h.update hst.2 (hst.1 ▸ hctx) fun b hb => ?_
      cases hc : s.svc.ctx c with
      | unallocated | freed a =>
        rw [hc] at hb
        cases hb
      | live a =>
        rw [hc] at hb
        obtain rfl := Cell.live.inj hb
        obtain ⟨hreq, htarget, hhandled, herror, hlen⟩ := hf a
        refine ⟨fun hq => htarget ▸ (h.safe c a hc).target (hreq ▸ hq), fun hq hh hl => ?_⟩
        rw [herror]
        exact hC c a hpc hc (hreq ▸ hq) (hhandled ▸ hh) (hlen (hreq ▸ hq) ▸ hl)
    | _ => exact h.same (by simp [step, hcr, stepThread, hpc]) (by simp [step, hcr, stepThread, hpc])
  | settle =>
    cases hpc : s.pc with
    | returned c =>
      have hst : (step s .settle).svc.ctx = Function.update s.svc.ctx c ((s.svc.ctx c).map SvcReceive.settle) ∧
          (step s .settle).crashed = false := by simp [step, hcr, stepThread, hpc]
      refine h.update hst.2 hst.1 fun b hb => ?_
      cases hc : s.svc.ctx c with
      | unallocated | freed a =>
        rw [hc] at hb
        cases hb
      | live a =>
        rw [hc] at hb
        obtain rfl := Cell.live.inj hb
        unfold SvcReceive.settle
        split_ifs
        · exact (h.safe c a hc).revises ⟨rfl, rfl, rfl, rfl, .inl rfl⟩
        · exact h.safe c a hc
    | _ => exact h.same (by simp [step, hcr, stepThread, hpc]) (by simp [step, hcr, stepThread, hpc])
  | wake | check | call | clear =>
    refine h.same ?_ ?_ <;>
    · simp only [step, hcr, stepThread]
      repeat' split
      all_goals first | exact hcr | rfl

/-- a session that a reply builds an unsafe message for -/
theorem not_messagesSafe {s : St} {c : ℕ} {a : SvcReceive} (hc : s.svc.ctx c = .live a) (hb : a.builds)
    (hbroken : a.target = none ∨ a.receiveError.isUsers = true) : ¬ MessagesSafe s := by
  intro h
  obtain ⟨htarget, herror⟩ := (safe_iff a).1 (h ⟨some c, 0⟩ c a (by simp [Svc.session, hc]) hb)
  rcases hbroken with hnone | husers
  · exact htarget hnone
  · exact absurd (herror.symm.trans husers) (by decide)

/-- a step that is not sound leaves a session whose message is unsafe -/
theorem unsound_step (s : St) (o : Op) (h : AllSafe s) (hP : MessagesSafe (step s o)) : Sound s o := by
  have hcr := h.running
  by_contra hno
  cases o with
  | target r env =>
    have hst : (step s (.target r env)).svc = (processDeviceRequestTarget r env s.svc).1 := by simp [step, hcr]
    simp only [Sound, not_forall, Bool.not_eq_false] at hno
    obtain ⟨htarget, hu, hok, hto, hreq⟩ := hno
    obtain hctx | ⟨a, -, -, -, hctx, hreq', hhandled, hrecord, -, hmade⟩ := target_makes r env s.svc
    · obtain ⟨target, htgt⟩ := Option.ne_none_iff_exists'.1 htarget
      have hlive : ((processDeviceRequestTarget r env s.svc).1).ctx s.svc.heap.next =
          .live { newContext r s.svc with receiveError := .insufficientMemory } := by
        simp [processDeviceRequestTarget, htgt, hu, hok, hto, Heap.malloc, Svc.put]
      exact not_messagesSafe (hst ▸ hlive) ⟨hreq, by simp, rfl, rfl⟩ (.inl rfl) hP
    · rw [hto, if_neg (by decide)] at hmade
      have hlive : (step s (.target r env)).svc.ctx s.svc.heap.next = .live a := by rw [hst, hctx, Function.update_self]
      refine not_messagesSafe hlive ⟨hreq'.trans hreq, ?_, hhandled, by rw [hrecord]⟩ (.inl hmade.1) hP
      rw [hmade.2]
      decide
  | ret e response =>
    simp only [Sound, not_forall, Bool.not_eq_false] at hno
    obtain ⟨c, a, hpc, hc, hreq, hhandled, hlen, husers⟩ := hno
    obtain ⟨f, hctx, hf⟩ := storeResult_record c e response s.svc
    obtain ⟨hreq', -, hhandled', herror, hlen'⟩ := hf a
    have hst : (step s (.ret e response)).svc = storeResult c e response s.svc := by simp [step, hcr, stepThread, hpc]
    have hlive : (step s (.ret e response)).svc.ctx c = .live (f a) := by
      rw [hst, hctx, Function.update_self, hc]
      rfl
    refine not_messagesSafe hlive ⟨hreq'.trans hreq, ?_, hhandled'.trans hhandled, (hlen' hreq).trans hlen⟩
      (.inr (herror ▸ husers)) hP
    rw [herror]
    rintro rfl
    cases husers
  | _ => exact hno trivial

/-- **Printable messages.** For any number of sessions, whatever fails and in any order of steps. -/
theorem messages_safe_iff {s : St} (h : Init s) (ops : List Op) :
    (∀ k, MessagesSafe (run step s (ops.take k))) ↔ Along step Sound s ops :=
  along_iff (fun _ h => h.messages) step_allSafe unsound_step (allSafe_init h) ops

/-- the request of a session, up to the answer of the user -/
def untilCalled : List Op :=
  [.target ⟨some [97], .tcp, true, none⟩ ⟨true, true, true⟩, .data ⟨some 0, [1, 2], false⟩ true,
    .data ⟨some 0, [1, 2], false⟩ true, .wake, .check, .call]

/-- the user answers with an error of the enumeration and nothing else; a refused session -/
theorem messages_safe_refused :
    Init (.fresh true (some 0) none []) ∧ ∀ k, MessagesSafe (run step (.fresh true (some 0) none [])
      ((untilCalled ++ [Op.ret .custom none, Op.target ⟨some [98], .tcp, true, none⟩ ⟨true, true, false⟩]).take k)) :=
  ⟨init_fresh _ _ _ _, (messages_safe_iff (init_fresh _ _ _ _) _).2
    ⟨fun _ _ _ h => absurd h (by decide), trivial, trivial, trivial, trivial, trivial, fun _ _ _ _ _ _ _ => rfl,
      fun _ _ _ h => absurd h (by decide), trivial⟩⟩

/-- the copy of the target fails; the user answers with an error of its own and nothing else, and the message is longer than
its block -/
theorem messages_unsafe :
    ¬ MessagesSafe (run step (.fresh true (some 0) none []) [.target ⟨some [97], .tcp, true, none⟩ ⟨true, false, true⟩]) ∧
      ¬ MessagesSafe (run step (.fresh true (some 0) none []) (untilCalled ++ [Op.ret (.userDefined 0) none])) ∧
      internalErrorSize (.userDefined 0) [97] < (internalErrorText (.userDefined 0) [97]).length + 1 := by
  refine ⟨not_messagesSafe (c := 0) rfl ⟨rfl, by decide, rfl, rfl⟩ (.inl rfl),
    not_messagesSafe (c := 0) rfl ⟨rfl, by decide, rfl, rfl⟩ (.inr rfl), by decide⟩

end CcApi.Receive
