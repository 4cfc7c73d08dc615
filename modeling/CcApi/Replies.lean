/-
The replies of the receive service and of the SM CLI service (`ccapi_process_device_request_response` and its length
callback, `ccapi_process_cli_response` and its).

- `Replies.responses_streamed`: for both services, what is handed out is the session's response, in order and whole, and the user gets
  back what it has left.
- `Replies.announced_iff`: for both services, what is handed out in all is as much as the length callback has told before,
  exactly where the first reply builds no message.
- `Replies.announced_nothing`: a refused session is told that there is nothing, and is given a message.
-/
import CcApi.Lib.Announce
import CcApi.Receive.Replies
import CcApi.Cli.Replies

namespace CcApi

open Lib Lib.Runs Lib.Drain

/-! ## The receive service -/

namespace Receive.Talk

/-- a reply of session c builds a message now -/
def Builds (t : Talk) (c : ℕ) : Prop := ∃ a, t.st.svc.ctx c = .live a ∧ a.builds

/-- a reply callback for session c, with whether there is memory for a message -/
def replyTo (c : ℕ) : Op → Option Bool
  | .reply r ok => if r.userContext = some c then some ok else none
  | _ => none

/-- what the replies to session c have handed out in all -/
def delivered (t : Talk) (c : ℕ) : ℕ := (handed (t.said c).given).length

/-- the connector has been told that there is no more -/
def Done (t : Talk) (c : ℕ) : Prop := ∃ p ∈ (t.said c).given, p.more = false

/-- ahead of the first reply the connector is told that there are n bytes to come -/
structure Told (t : Talk) (c n : ℕ) : Prop where
  ended : (t.said c).ended = true
  unasked : (t.said c).given = []
  length : (processDeviceRequestLength (some c) t.st.svc).2 = some n

/-- session c as a giver -/
def giver (c : ℕ) : Giver Talk Op UInt8 where
  whole t := (t.said c).response
  given t := (t.said c).given
  makes t := t.Builds c
  gone t := t.st.crashed = true ∨ ∃ a, t.st.svc.ctx c = .freed a
  asks := replyTo c

/-- the request of session c is over -/
structure Over (c : ℕ) (t : Talk) : Prop where
  inv : t.Inv
  ended : (t.said c).ended = true
  opened : t.st.svc.ctx c ≠ .unallocated

theorem put_ctx_of_ne {s : Svc} {c c' : ℕ} (h : c' ≠ c) (a : SvcReceive) : (s.put c a).ctx c' = s.ctx c' :=
  Function.update_of_ne h _ _

/-- the user is not called for a session whose request is over -/
theorem Over.unqueued {c : ℕ} {t : Talk} (h : Over c t) {a : SvcReceive} (hc : t.st.svc.ctx c = .live a) :
    a.receiveThreadStatus ≠ .dataCbQueued := by
  intro hst
  have hp := h.inv.tracked c
  rw [hc] at hp
  exact absurd ((hp.queued hst).symm.trans h.ended) (by decide)

/-- where the request of a session is over, only a reply or the status callback is about it -/
theorem Over.elsewhere {c : ℕ} {t : Talk} (h : Over c t) (hcr : t.st.crashed = false) {o : Op} (hl : t.Legal o)
    (ho : (giver c).asks o = none) :
    t.learn o c = t.said c ∧
      ((∃ a, (Receive.step t.st o).svc.ctx c = .freed a) ∨ (Receive.step t.st o).svc.ctx c = t.st.svc.ctx c) := by
  cases o with
  | target r env =>
    have hst : (Receive.step t.st (.target r env)).svc = (processDeviceRequestTarget r env t.st.svc).1 := by
      simp [Receive.step, hcr]
    have hne : c ≠ t.st.svc.heap.next := (h.inv.fresh.lt h.opened).ne
    rw [hst]
    obtain ⟨hctx, hnone⟩ | ⟨a, hu, hnew, hctx, -⟩ := target_opens r env t.st.svc
    · exact ⟨by rw [learn_unopened hnone], .inr (by rw [hctx])⟩
    · rw [learn_opened hu hnew, hctx, Function.update_of_ne hne, Function.update_of_ne hne]
      exact ⟨rfl, .inr rfl⟩
  | data d ok =>
    have hst : (Receive.step t.st (.data d ok)).svc = (processDeviceRequestData d ok t.st.svc).1 := by
      simp [Receive.step, hcr, stepData_svc]
    have hne : d.userContext ≠ some c := fun hu => absurd ((hl c hu).symm.trans h.ended) (by decide)
    refine ⟨?_, .inr ?_⟩
    · simp only [learn]
      cases hu : d.userContext with
      | none => rfl
      | some c' => exact Function.update_of_ne (fun he => hne (by rw [hu, he])) _ _
    · rw [hst]
      obtain he | ⟨c', a, a', heap, slot, hu, -, he⟩ := data_cases d ok t.st.svc
      · rw [he]
      · rw [he]
        refine put_ctx_of_ne (fun hc => hne ?_) a'
        rw [hc]
        exact (session_some hu).1
  | reply r ok =>
    have hne : r.userContext ≠ some c := fun hu => by simp [giver, replyTo, hu] at ho
    refine ⟨?_, .inr ?_⟩
    · simp only [learn]
      cases hu : r.userContext with
      | none => rfl
      | some c' => exact Function.update_of_ne (fun he => hne (by rw [hu, he])) _ _
    · cases he : processDeviceRequestResponse r ok t.st.svc with
      | none => simp [Receive.step, hcr, he]
      | some p =>
        have hst : (Receive.step t.st (.reply r ok)).svc = p.1 := by simp [Receive.step, hcr, he]
        rw [hst]
        cases hu : t.st.svc.session r.userContext with
        | none =>
          simp only [processDeviceRequestResponse, hu, Option.some.injEq] at he
          rw [← he]
        | some q =>
          have hp := h.inv.tracked q.1
          rw [(session_some hu).2] at hp
          have hcq : c ≠ q.1 := fun hc => hne (hc ▸ (session_some hu).1)
          obtain ⟨a', heap, slot, hf, -⟩ := reply_follows (d := t.said q.1) hu hp (hl q.1 (session_some hu).1) he
          rw [hf]
          exact put_ctx_of_ne hcq a'
  | status r =>
    have hst : (Receive.step t.st (.status r)).svc = (processDeviceRequestStatus r t.st.svc).1 := by
      simp [Receive.step, hcr]
    refine ⟨rfl, ?_⟩
    rw [hst]
    obtain he | ⟨c', a, a', heap, hu, -, -, he⟩ := status_cases r t.st.svc
    · rw [he]
      exact .inr rfl
    · rw [he]
      by_cases hc : c = c'
      · exact .inl ⟨a', by rw [hc]; exact Function.update_self _ _ _⟩
      · exact .inr (Function.update_of_ne hc _ _)
  | ret e response =>
    cases hpc : t.st.pc with
    | calling c' =>
      have hst : (Receive.step t.st (.ret e response)).svc = storeResult c' e response t.st.svc := by
        simp [Receive.step, hcr, stepThread, hpc]
      have hsaid : t.learn (.ret e response) =
          Function.update t.said c' { t.said c' with left := (t.st.svc.leaves c' response).or (t.said c').left } := by
        simp [learn, hpc]
      rw [hst, hsaid]
      by_cases hc : c = c'
      · subst hc
        cases hcell : t.st.svc.ctx c with
        | unallocated => exact absurd hcell h.opened
        | live a => exact absurd (queued_of_grip h.inv.grip hpc hcell) (h.unqueued hcell)
        | freed a =>
          refine ⟨?_, .inl ?_⟩
          · have hleaves : t.st.svc.leaves c response = none := by cases response <;> simp [Svc.leaves, hcell]
            rw [hleaves, Function.update_self, Option.none_or]
          · cases response <;> exact ⟨_, by simp only [storeResult, hcell, Cell.map, Function.update_self]; rfl⟩
      · refine ⟨Function.update_of_ne hc _ _, .inr ?_⟩
        cases response <;> exact Function.update_of_ne hc _ _
    | _ => exact ⟨by simp [learn, hpc], .inr (by simp [Receive.step, hcr, stepThread, hpc])⟩
  | settle =>
    refine ⟨rfl, ?_⟩
    cases hpc : t.st.pc with
    | returned c' =>
      have hst : (Receive.step t.st .settle).svc.ctx =
          Function.update t.st.svc.ctx c' ((t.st.svc.ctx c').map SvcReceive.settle) := by
        simp [Receive.step, hcr, stepThread, hpc]
      rw [hst]
      by_cases hc : c = c'
      · subst hc
        rw [Function.update_self]
        cases hcell : t.st.svc.ctx c with
        | unallocated => exact .inr rfl
        | live a => exact .inr (by rw [Cell.map, SvcReceive.settle, if_neg (h.unqueued hcell)])
        | freed a => exact .inl ⟨a.settle, rfl⟩
      · exact .inr (Function.update_of_ne hc _ _)
    | _ => exact .inr (by simp [Receive.step, hcr, stepThread, hpc])
  | wake | check | call | clear =>
    refine ⟨rfl, .inr ?_⟩
    simp only [Receive.step, hcr, stepThread]
    repeat' split
    all_goals rfl

/-- a reply of a session that is not there -/
theorem reply_absent {c : ℕ} {t : Talk} (hcr : t.st.crashed = false) (hc : t.st.svc.session (some c) = none) {r : ReplyReq}
    (hu : r.userContext = some c) (ok : Bool) : t.step (.reply r ok) = t := by
  have he : processDeviceRequestResponse r ok t.st.svc = some (t.st.svc, .error, none) := by
    simp [processDeviceRequestResponse, hu, hc]
  have hm : t.st.svc.message r ok = none := by simp [Svc.message, hu, hc]
  simp [step, hcr, Receive.step, learn, hu, hm, Svc.reply, he, Said.replied]
  rw [← hcr]

/-- what a reply does to its session: nothing, the end of the program, a piece of the response, or one of a new message -/
inductive Replied (t t' : Talk) (c : ℕ) (ok : Bool) (a : SvcReceive) : Prop where
  | nothing : ¬ a.builds → t' = t → Replied t t' c ok a
  | crashes : a.builds → t'.st.crashed = true → t'.st.svc = t.st.svc → t'.said c = t.said c → Replied t t' c ok a
  | piece (a' : SvcReceive) (reply : Option Reply) : ¬ a.builds → ¬ a'.builds → t'.st.svc.ctx c = .live a' →
      t'.said c = (t.said c).replied none reply → Replied t t' c ok a
  | message (a' : SvcReceive) (text : Str) (reply : Option Reply) : a.builds → text ≠ [] → ¬ a'.builds →
      t'.st.svc.ctx c = .live a' → t'.said c = (t.said c).replied (some (if ok then some text else none)) reply →
      Replied t t' c ok a

theorem internalErrorText_ne_nil (e : ReceiveError) (target : Str) : internalErrorText e target ≠ [] := by
  simp [internalErrorText, ascii]

theorem reply_replied {c : ℕ} {t : Talk} (hcr : t.st.crashed = false) {a : SvcReceive} (hc : t.st.svc.ctx c = .live a)
    {r : ReplyReq} (hu : r.userContext = some c) (ok : Bool) : Replied t (t.step (.reply r ok)) c ok a := by
  have hs : t.st.svc.session r.userContext = some (c, a) := by simp [Svc.session, hu, hc]
  have hsaid : (t.step (.reply r ok)).said c =
      (t.said c).replied (t.st.svc.message r ok) (t.st.svc.reply r ok) := by simp [step, hcr, learn, hu]
  rw [message_eq hs] at hsaid
  by_cases hb : a.builds
  · cases htarget : a.target with
    | none =>
      have he := reply_crashes ok hs hb htarget
      refine .crashes hb ?_ ?_ ?_
      · simp [step, hcr, Receive.step, he]
      · simp [step, hcr, Receive.step, he]
      · rw [hsaid, if_pos hb, htarget]
        simp [Svc.reply, he, Said.replied]
    | some target =>
      obtain ⟨heap, message, -, -, he⟩ := reply_builds ok hs hb htarget
      rw [if_pos hb, htarget] at hsaid
      refine .message (sendReply r (a.withMessage message) heap).1 _ _ hb (internalErrorText_ne_nil _ _) ?_ ?_ hsaid
      · intro hb'
        have hhandled : (a.withMessage message).responseHandledInternally = true := by cases message <;> rfl
        exact absurd (hhandled.symm.trans hb'.2.2.1) (by decide)
      · simp [step, hcr, Receive.step, he, Svc.put]
  · cases hreq : a.responseRequired with
    | false =>
      have he := reply_optional ok hs hreq
      have hm : t.st.svc.message r ok = none := by rw [message_eq hs, if_neg hb]
      refine .nothing hb ?_
      simp [step, hcr, Receive.step, learn, hu, hm, Svc.reply, he, Said.replied]
      rw [← hcr]
    | true =>
      have he := reply_streams ok hs hreq hb
      rw [if_neg hb] at hsaid
      refine .piece (sendReply r a t.st.svc.heap).1 _ hb ?_ ?_ hsaid
      · rwa [sendReply_eq]
      · simp [step, hcr, Receive.step, he, Svc.put]

theorem response_replied_none (d : Said) (reply : Option Reply) : (d.replied none reply).response = d.response := by
  simp [Said.response, Said.replied]

theorem Over.keeps {c : ℕ} {t : Talk} (h : Over c t) {o : Op} (hl : t.Legal o) : Over c (t.step o) := by
  have hinv := step_inv t o h.inv hl
  cases hcr : t.st.crashed with
  | true => simpa [step, hcr] using h
  | false =>
    cases ho : (giver c).asks o with
    | none =>
      obtain ⟨hsaid, hctx⟩ := h.elsewhere hcr hl ho
      have hstep : t.step o = { st := Receive.step t.st o, said := t.learn o } := by simp [step, hcr]
      rw [hstep] at hinv ⊢
      refine ⟨hinv, (congrArg Said.ended hsaid).trans h.ended, ?_⟩
      rcases hctx with ⟨a, hfreed⟩ | hsame
      · simp [hfreed]
      · exact hsame ▸ h.opened
    | some ok =>
      cases o with
      | reply r ok' =>
        have hu : r.userContext = some c := by
          by_contra hne
          simp [giver, replyTo, hne] at ho
        cases hc : t.st.svc.ctx c with
        | unallocated => exact absurd hc h.opened
        | freed a => rwa [reply_absent hcr (by simp [Svc.session, hc]) hu]
        | live a =>
          cases reply_replied hcr hc hu ok' with
          | nothing _ hsame => rwa [hsame]
          | crashes _ _ hsvc hsaid => exact ⟨hinv, hsaid ▸ h.ended, hsvc ▸ h.opened⟩
          | piece a' reply _ _ hctx hsaid =>
            exact ⟨hinv, by rw [hsaid]; exact h.ended, by simp [hctx]⟩
          | message a' text reply _ _ _ hctx hsaid =>
            exact ⟨hinv, by rw [hsaid]; exact h.ended, by simp [hctx]⟩
      | _ => cases ho

/-- a giver that is asked nothing -/
theorem Over.quiet {c : ℕ} {t : Talk} (h : Over c t) {o : Op} (hl : t.Legal o) (ho : (giver c).asks o = none) :
    (t.step o).said c = t.said c ∧ ((giver c).gone (t.step o) ∨ (t.step o).st.svc.ctx c = t.st.svc.ctx c) := by
  cases hcr : t.st.crashed with
  | true =>
    have hstep : t.step o = t := by simp [step, hcr]
    rw [hstep]
    exact ⟨rfl, .inr rfl⟩
  | false =>
    obtain ⟨hsaid, hctx⟩ := h.elsewhere hcr hl ho
    have hstep : t.step o = { st := Receive.step t.st o, said := t.learn o } := by simp [step, hcr]
    rw [hstep]
    exact ⟨hsaid, hctx.imp_left .inr⟩

/-- a giver that is asked -/
theorem Over.asked {c : ℕ} {t : Talk} (h : Over c t) {o : Op} {ok : Bool} (ho : (giver c).asks o = some ok) :
    t.step o = t ∧ ((giver c).gone t ∨ ¬ (giver c).makes t) ∨
      ∃ a, t.st.crashed = false ∧ t.st.svc.ctx c = .live a ∧ Replied t (t.step o) c ok a := by
  cases o with
  | reply r ok' =>
    have hu : r.userContext = some c := by
      by_contra hne
      simp [giver, replyTo, hne] at ho
    obtain rfl : ok' = ok := by simpa [giver, replyTo, hu] using ho
    cases hcr : t.st.crashed with
    | true => exact .inl ⟨by simp [step, hcr], .inl (.inl hcr)⟩
    | false =>
      cases hc : t.st.svc.ctx c with
      | unallocated => exact absurd hc h.opened
      | freed a => exact .inl ⟨reply_absent hcr (by simp [Svc.session, hc]) hu _, .inl (.inr ⟨a, hc⟩)⟩
      | live a => exact .inr ⟨a, rfl, rfl, reply_replied hcr hc hu _⟩
  | _ => cases ho

theorem Over.untried {c : ℕ} {t : Talk} (h : Over c t) {a : SvcReceive} (hc : t.st.svc.ctx c = .live a) (hb : a.builds) :
    (t.said c).tried = [] := by
  have hp := h.inv.tracked c
  rw [hc] at hp
  by_contra hne
  exact absurd (hb.2.2.1.symm.trans (hp.handled hne)) (by decide)

theorem announces (c : ℕ) : Announces step (giver c) (Over c) Legal where
  keeps t o h hl := h.keeps hl
  streams t h := (h.inv.streams c).1
  empty t h hmakes := by
    obtain ⟨a, hc, hb⟩ := hmakes
    have hp := h.inv.tracked c
    rw [hc] at hp
    have hlen := (hp.holds_record (h.untried hc hb)).length
    rw [hb.2.2.2] at hlen
    exact List.eq_nil_of_length_eq_zero hlen
  gone t o h hl hgone := by
    cases ho : (giver c).asks o with
    | none =>
      obtain ⟨hsaid, hor⟩ := h.quiet hl ho
      refine ⟨hor.elim id fun hctx => ?_, congrArg Said.response hsaid, congrArg Said.given hsaid⟩
      rcases hgone with hcr | hfreed
      · exact .inl (by simp [step, hcr])
      · exact .inr (hctx.symm ▸ hfreed)
    | some ok =>
      rcases h.asked ho with ⟨hsame, -⟩ | ⟨a, hcr, hc, -⟩
      · exact ⟨hsame.symm ▸ hgone, by rw [hsame], by rw [hsame]⟩
      · rcases hgone with hcr' | ⟨a', hc'⟩
        · exact absurd (hcr.symm.trans hcr') (by decide)
        · rw [hc] at hc'
          cases hc'
  quiet t o h hl ho := by
    obtain ⟨hsaid, hor⟩ := h.quiet hl ho
    refine ⟨hor.imp_right fun hctx => ?_, congrArg Said.response hsaid, congrArg Said.given hsaid⟩
    simp only [giver, Builds, hctx]
  first t o ok h hl ho hmakes := by
    obtain ⟨a, hc, hb⟩ := id hmakes
    rcases h.asked ho with ⟨hsame, hor⟩ | ⟨a', -, hc', hreplied⟩
    · rw [hsame]
      exact .inl ⟨hor.resolve_right (not_not.2 hmakes), rfl⟩
    · obtain rfl := Cell.live.inj (hc.symm.trans hc')
      cases hreplied with
      | nothing hnot => exact absurd hb hnot
      | piece _ _ hnot => exact absurd hb hnot
      | crashes _ hcr _ hsaid => exact .inl ⟨.inl hcr, congrArg Said.given hsaid⟩
      | message b text reply _ htext hnot hctx hsaid =>
        have htried := h.untried hc hb
        refine .inr ⟨fun hstill => ?_, ?_⟩
        · obtain ⟨b', hb', hbuilds⟩ := hstill
          exact hnot (Cell.live.inj (hctx.symm.trans hb') ▸ hbuilds)
        · simp only [giver, hsaid]
          cases ok with
          | true => simpa [Said.response, Said.replied, htried] using htext
          | false => simp [Said.response, Said.replied, htried]
  later t o ok h hl ho hnot := by
    rcases h.asked ho with ⟨hsame, -⟩ | ⟨a, hcr, hc, hreplied⟩
    · rw [hsame]
      exact ⟨hnot, rfl⟩
    · have hno (hb : a.builds) : False := hnot ⟨a, hc, hb⟩
      cases hreplied with
      | nothing _ hsame =>
        rw [hsame]
        exact ⟨hnot, rfl⟩
      | crashes hb => exact (hno hb).elim
      | message _ _ _ hb => exact (hno hb).elim
      | piece b reply _ hnot' hctx hsaid =>
        refine ⟨fun hstill => ?_, ?_⟩
        · obtain ⟨b', hb', hbuilds⟩ := hstill
          exact hnot' (Cell.live.inj (hctx.symm.trans hb') ▸ hbuilds)
        · simp only [giver, hsaid]
          exact response_replied_none _ _

/-- **Announced length.** Nothing has been handed out yet, and the connector is told how much there is. -/
theorem Inv.delivered_iff {t : Talk} (h : t.Inv) {c n : ℕ} (ht : t.Told c n) {more : List Op} (hl : Along step Legal t more)
    (hdone : (run step t more).Done c) :
    (run step t more).delivered c = n ↔ ¬ (t.Builds c ∧ (more.filterMap (replyTo c)).head? = some true) := by
  obtain ⟨hended, hnone, hn⟩ := ht
  cases hc : t.st.svc.session (some c) with
  | none => simp [processDeviceRequestLength, hc] at hn
  | some q =>
    have hlive := (session_some hc).2
    obtain rfl := Option.some.inj (session_some hc).1
    have hp := h.tracked q.1
    rw [hlive] at hp
    have hlen := (hp.cursor (.inr hended)).length
    rw [hnone, handed_nil, List.length_nil, List.drop_zero] at hlen
    simp only [processDeviceRequestLength, hc, Option.some.injEq] at hn
    rw [← hn, ← hlen]
    exact (announces q.1).length_iff ⟨h, hended, by simp [hlive]⟩ hnone hl hdone

end Receive.Talk

/-! ## The SM CLI service -/

namespace Cli.Talk

/-- a reply of session c builds a message now -/
def Builds (t : Talk) (c : ℕ) : Prop := ∃ a, t.st.svc.ctx c = .live a ∧ a.builds

/-- a reply callback for session c, with whether there is memory for a message -/
def replyTo (c : ℕ) : Op → Option Bool
  | .reply r ok => if r.userContext = some c then some ok else none
  | _ => none

/-- what the replies to session c have handed out in all -/
def delivered (t : Talk) (c : ℕ) : ℕ := (handed (t.said c).given).length

/-- the connector has been told that there is no more -/
def Done (t : Talk) (c : ℕ) : Prop := ∃ p ∈ (t.said c).given, p.more = false

/-- ahead of the first reply the connector is told that there are n bytes to come -/
structure Told (t : Talk) (c n : ℕ) : Prop where
  ended : (t.said c).ended = true
  unasked : (t.said c).given = []
  length : (processCliResponseLength (some c) t.st.svc).2 = some n

/-- session c as a giver -/
def giver (c : ℕ) : Giver Talk Op UInt8 where
  whole t := (t.said c).response
  given t := (t.said c).given
  makes t := t.Builds c
  gone t := ∃ a, t.st.svc.ctx c = .freed a
  asks := replyTo c

/-- the request of session c is over -/
structure Over (c : ℕ) (t : Talk) : Prop where
  inv : t.Inv
  ended : (t.said c).ended = true
  opened : t.st.svc.ctx c ≠ .unallocated

theorem put_ctx_of_ne {s : Svc} {c c' : ℕ} (h : c' ≠ c) (a : SvcCli) : (s.put c a).ctx c' = s.ctx c' :=
  Function.update_of_ne h _ _

/-- the user is not called for a session whose request is over -/
theorem Over.unqueued {c : ℕ} {t : Talk} (h : Over c t) {a : SvcCli} (hc : t.st.svc.ctx c = .live a) :
    a.cliThreadStatus ≠ .requestCbQueued := by
  intro hst
  have hp := h.inv.tracked c
  rw [hc] at hp
  exact absurd ((hp.queued hst).symm.trans h.ended) (by decide)

/-- a request callback is about another session -/
theorem Over.request {c : ℕ} {t : Talk} (h : Over c t) {r : RequestReq} {contextOk ok : Bool}
    (hl : t.Legal (.request r contextOk ok)) :
    t.learn (.request r contextOk ok) c = t.said c ∧
      (processCliRequest r contextOk ok t.st.svc).1.ctx c = t.st.svc.ctx c := by
  obtain ⟨bytes, hbytes, hne⟩ : ∃ bytes, r.buffer = some bytes ∧ bytes ≠ [] := by
    cases hb : r.buffer with
    | none => exact absurd (by simp [hb]) hl.1
    | some bytes => exact ⟨bytes, rfl, by simpa [hb] using hl.1⟩
  have hother (c' : ℕ) (hc : c ≠ c') (a : SvcCli) (heap : Heap) :
      (requestInContext c' a bytes r.moreData ok { t.st.svc with heap := heap }).1.ctx c = t.st.svc.ctx c := by
    obtain ⟨heap', slot, a', status, released, -, he, -⟩ :=
      requestInContext_cases c' a bytes r.moreData ok { t.st.svc with heap := heap }
    rw [he]
    exact put_ctx_of_ne hc a'
  cases hu : r.userContext with
  | none =>
    have hnew := request_new contextOk ok (s := t.st.svc) hbytes hne hu
    cases contextOk with
    | false =>
      rw [if_neg (by decide)] at hnew
      exact ⟨by simp [learn, hu, hnew], by rw [hnew]⟩
    | true =>
      rw [if_pos rfl] at hnew
      have hc : c ≠ t.st.svc.heap.next := by
        intro hc
        exact h.opened (h.inv.fresh c hc.ge)
      refine ⟨?_, by rw [hnew]; exact hother _ hc _ _⟩
      simp only [learn, hu, hnew]
      exact Function.update_of_ne hc _ _
  | some c' =>
    have hc : c ≠ c' := by
      rintro rfl
      exact absurd ((hl.2 c hu).symm.trans h.ended) (by decide)
    rcases session_none_or t.st.svc c' with hnone | ⟨a, ha⟩
    · have hsame := request_unknown contextOk ok (s := t.st.svc) hbytes hne hu hnone
      refine ⟨?_, by rw [hsame]⟩
      simp only [learn, hu, hsame]
      exact Function.update_of_ne hc _ _
    · rw [← hu] at ha
      have hknown := request_known contextOk ok hbytes hne ha
      refine ⟨?_, by rw [hknown]; exact hother c' hc _ t.st.svc.heap⟩
      simp only [learn, hu, hknown]
      exact Function.update_of_ne hc _ _

/-- where the request of a session is over, only a reply or the status callback is about it -/
theorem Over.elsewhere {c : ℕ} {t : Talk} (h : Over c t) {o : Op} (hl : t.Legal o) (ho : (giver c).asks o = none) :
    t.learn o c = t.said c ∧
      ((∃ a, (Cli.step t.st o).svc.ctx c = .freed a) ∨ (Cli.step t.st o).svc.ctx c = t.st.svc.ctx c) := by
  cases o with
  | request r contextOk ok => exact (h.request hl).imp_right .inr
  | reply r ok =>
    have hne : r.userContext ≠ some c := fun hu => by simp [giver, replyTo, hu] at ho
    refine ⟨?_, .inr ?_⟩
    · simp only [learn]
      cases hu : r.userContext with
      | none => rfl
      | some c' => exact Function.update_of_ne (fun he => hne (by rw [hu, he])) _ _
    · have hst : (Cli.step t.st (.reply r ok)).svc = (processCliResponse r ok t.st.svc).1 := rfl
      rw [hst]
      cases hu : t.st.svc.session r.userContext with
      | none => simp [processCliResponse, hu]
      | some q =>
        have hp := h.inv.tracked q.1
        rw [(session_some hu).2] at hp
        have hcq : c ≠ q.1 := fun hc => hne (hc ▸ (session_some hu).1)
        obtain ⟨a', heap, slot, hf, -⟩ := reply_follows ok hu hp (hl q.1 (session_some hu).1)
        rw [hf]
        exact put_ctx_of_ne hcq a'
  | status r =>
    have hst : (Cli.step t.st (.status r)).svc = (processCliStatus r t.st.svc).1 := rfl
    refine ⟨rfl, ?_⟩
    rw [hst]
    obtain he | ⟨c', a, a', heap, hu, -, -, he⟩ := status_cases r t.st.svc
    · rw [he]
      exact .inr rfl
    · rw [he]
      by_cases hc : c = c'
      · exact .inl ⟨a', by rw [hc]; exact Function.update_self _ _ _⟩
      · exact .inr (Function.update_of_ne hc _ _)
  | ret output =>
    cases hpc : t.st.pc with
    | calling c' =>
      have hst : (Cli.step t.st (.ret output)).svc = storeOutput c' output t.st.svc := by simp [Cli.step, stepThread, hpc]
      have hsaid : t.learn (.ret output) =
          Function.update t.said c' { t.said c' with left := (t.st.svc.leaves c' output).or (t.said c').left } := by
        simp [learn, hpc]
      rw [hst, hsaid]
      by_cases hc : c = c'
      · subst hc
        cases hcell : t.st.svc.ctx c with
        | unallocated => exact absurd hcell h.opened
        | live a => exact absurd (queued_of_grip h.inv.grip hpc hcell) (h.unqueued hcell)
        | freed a =>
          refine ⟨?_, .inl ?_⟩
          · have hleaves : t.st.svc.leaves c output = none := by cases output <;> simp [Svc.leaves, hcell]
            rw [hleaves, Function.update_self, Option.none_or]
          · cases output with
            | none => exact ⟨a, hcell⟩
            | some text => exact ⟨_, by simp only [storeOutput, hcell, Cell.map, Function.update_self]; rfl⟩
      · refine ⟨Function.update_of_ne hc _ _, .inr ?_⟩
        cases output with
        | none => rfl
        | some text => exact Function.update_of_ne hc _ _
    | _ => exact ⟨by simp [learn, hpc], .inr (by simp [Cli.step, stepThread, hpc])⟩
  | settle =>
    refine ⟨rfl, ?_⟩
    cases hpc : t.st.pc with
    | returned c' =>
      have hst : (Cli.step t.st .settle).svc.ctx =
          Function.update t.st.svc.ctx c' ((t.st.svc.ctx c').map SvcCli.settle) := by
        simp [Cli.step, stepThread, hpc]
      rw [hst]
      by_cases hc : c = c'
      · subst hc
        rw [Function.update_self]
        cases hcell : t.st.svc.ctx c with
        | unallocated => exact .inr rfl
        | live a => exact .inr (by rw [Cell.map, SvcCli.settle, if_neg (h.unqueued hcell)])
        | freed a => exact .inl ⟨a.settle, rfl⟩
      · exact .inr (Function.update_of_ne hc _ _)
    | _ => exact .inr (by simp [Cli.step, stepThread, hpc])
  | wake | check | call | clear =>
    refine ⟨rfl, .inr ?_⟩
    simp only [Cli.step, stepThread]
    repeat' split
    all_goals rfl

/-- a reply of a session that is not there -/
theorem reply_absent {c : ℕ} {t : Talk} (hc : t.st.svc.session (some c) = none) {r : ReplyReq} (hu : r.userContext = some c)
    (ok : Bool) : t.step (.reply r ok) = t := by
  have he : processCliResponse r ok t.st.svc = (t.st.svc, .error, none) := by simp [processCliResponse, hu, hc]
  have hm : t.st.svc.message r ok = none := by simp [Svc.message, hu, hc]
  simp [step, Cli.step, learn, hu, hm, he, Said.replied]

/-- what a reply does to its session: nothing, or it gives a piece of the response, or one of a new message -/
inductive Replied (t t' : Talk) (c : ℕ) (ok : Bool) (a : SvcCli) : Prop where
  | nothing : ¬ a.builds → t' = t → Replied t t' c ok a
  | piece (a' : SvcCli) (reply : Option Reply) : ¬ a.builds → ¬ a'.builds → t'.st.svc.ctx c = .live a' →
      t'.said c = (t.said c).replied none reply → Replied t t' c ok a
  | message (a' : SvcCli) (text : Str) (reply : Option Reply) : a.builds → text ≠ [] → ¬ a'.builds →
      t'.st.svc.ctx c = .live a' → t'.said c = (t.said c).replied (some (if ok then some text else none)) reply →
      Replied t t' c ok a

theorem internalErrorText_ne_nil (e : CliError) : internalErrorText e ≠ [] := by simp [internalErrorText, ascii]

theorem reply_replied {c : ℕ} {t : Talk} {a : SvcCli} (hc : t.st.svc.ctx c = .live a) {r : ReplyReq}
    (hu : r.userContext = some c) (ok : Bool) : Replied t (t.step (.reply r ok)) c ok a := by
  have hs : t.st.svc.session r.userContext = some (c, a) := by simp [Svc.session, hu, hc]
  have hsaid : (t.step (.reply r ok)).said c =
      (t.said c).replied (t.st.svc.message r ok) (processCliResponse r ok t.st.svc).2.2 := by simp [step, learn, hu]
  rw [message_eq hs] at hsaid
  by_cases hb : a.builds
  · obtain ⟨heap, message, -, -, he⟩ := reply_builds ok hs hb
    rw [if_pos hb] at hsaid
    refine .message (sendReply r (a.withMessage message) heap).1 _ _ hb (internalErrorText_ne_nil _) ?_ ?_ hsaid
    · intro hb'
      have hhandled : (a.withMessage message).responseHandledInternally = true := by cases message <;> rfl
      exact absurd (hhandled.symm.trans hb'.2.2) (by decide)
    · simp [step, Cli.step, he, Svc.put]
  · cases hreq : a.responseRequired with
    | false =>
      have he := reply_optional ok hs hreq
      have hm : t.st.svc.message r ok = none := by rw [message_eq hs, if_neg hb]
      exact .nothing hb (by simp [step, Cli.step, learn, hu, hm, he, Said.replied])
    | true =>
      have he := reply_streams ok hs hreq hb
      rw [if_neg hb] at hsaid
      refine .piece (sendReply r a t.st.svc.heap).1 _ hb ?_ ?_ hsaid
      · rwa [sendReply_eq]
      · simp [step, Cli.step, he, Svc.put]

theorem response_replied_none (d : Said) (reply : Option Reply) : (d.replied none reply).response = d.response := by
  simp [Said.response, Said.replied]

theorem Over.keeps {c : ℕ} {t : Talk} (h : Over c t) {o : Op} (hl : t.Legal o) : Over c (t.step o) := by
  have hinv := step_inv t o h.inv hl
  cases ho : (giver c).asks o with
  | none =>
    obtain ⟨hsaid, hctx⟩ := h.elsewhere hl ho
    refine ⟨hinv, (congrArg Said.ended hsaid).trans h.ended, ?_⟩
    rcases hctx with ⟨a, hfreed⟩ | hsame
    · simp [step, hfreed]
    · exact hsame.symm ▸ h.opened
  | some ok =>
    cases o with
    | reply r ok' =>
      have hu : r.userContext = some c := by
        by_contra hne
        simp [giver, replyTo, hne] at ho
      cases hc : t.st.svc.ctx c with
      | unallocated => exact absurd hc h.opened
      | freed a => rwa [reply_absent (by simp [Svc.session, hc]) hu]
      | live a =>
        cases reply_replied hc hu ok' with
        | nothing _ hsame => rwa [hsame]
        | piece a' reply _ _ hctx hsaid => exact ⟨hinv, by rw [hsaid]; exact h.ended, by simp [hctx]⟩
        | message a' text reply _ _ _ hctx hsaid => exact ⟨hinv, by rw [hsaid]; exact h.ended, by simp [hctx]⟩
    | _ => cases ho

/-- a giver that is asked -/
theorem Over.asked {c : ℕ} {t : Talk} (h : Over c t) {o : Op} {ok : Bool} (ho : (giver c).asks o = some ok) :
    t.step o = t ∧ (giver c).gone t ∨ ∃ a, t.st.svc.ctx c = .live a ∧ Replied t (t.step o) c ok a := by
  cases o with
  | reply r ok' =>
    have hu : r.userContext = some c := by
      by_contra hne
      simp [giver, replyTo, hne] at ho
    obtain rfl : ok' = ok := by simpa [giver, replyTo, hu] using ho
    cases hc : t.st.svc.ctx c with
    | unallocated => exact absurd hc h.opened
    | freed a => exact .inl ⟨reply_absent (by simp [Svc.session, hc]) hu _, a, hc⟩
    | live a => exact .inr ⟨a, rfl, reply_replied hc hu _⟩
  | _ => cases ho

theorem Over.untried {c : ℕ} {t : Talk} (h : Over c t) {a : SvcCli} (hc : t.st.svc.ctx c = .live a) (hb : a.builds) :
    (t.said c).tried = [] := by
  have hp := h.inv.tracked c
  rw [hc] at hp
  by_contra hne
  exact absurd (hb.2.2.symm.trans (hp.handled hne)) (by decide)

theorem announces (c : ℕ) : Announces step (giver c) (Over c) Legal where
  keeps t o h hl := h.keeps hl
  streams t h := (h.inv.streams c).1
  empty t h hmakes := by
    obtain ⟨a, hc, hb⟩ := hmakes
    have hp := h.inv.tracked c
    rw [hc] at hp
    simp only [giver]
    rw [response_of_untried (h.untried hc hb), (hp.clean hb.2.1).2]
    rfl
  gone t o h hl hgone := by
    cases ho : (giver c).asks o with
    | none =>
      obtain ⟨hsaid, hctx⟩ := h.elsewhere hl ho
      refine ⟨hctx.elim id fun hctx => ?_, congrArg Said.response hsaid, congrArg Said.given hsaid⟩
      obtain ⟨a, hfreed⟩ := hgone
      exact ⟨a, hctx.trans hfreed⟩
    | some ok =>
      rcases h.asked ho with ⟨hsame, -⟩ | ⟨a, hc, -⟩
      · exact ⟨hsame.symm ▸ hgone, by rw [hsame], by rw [hsame]⟩
      · obtain ⟨a', hc'⟩ := hgone
        rw [hc] at hc'
        cases hc'
  quiet t o h hl ho := by
    obtain ⟨hsaid, hor⟩ := h.elsewhere hl ho
    refine ⟨hor.imp_right fun hctx => ?_, congrArg Said.response hsaid, congrArg Said.given hsaid⟩
    simp only [giver, Builds, step, hctx]
  first t o ok h hl ho hmakes := by
    obtain ⟨a, hc, hb⟩ := id hmakes
    rcases h.asked ho with ⟨hsame, hgone⟩ | ⟨a', hc', hreplied⟩
    · rw [hsame]
      exact .inl ⟨hgone, rfl⟩
    · obtain rfl := Cell.live.inj (hc.symm.trans hc')
      cases hreplied with
      | nothing hnot => exact absurd hb hnot
      | piece _ _ hnot => exact absurd hb hnot
      | message b text reply _ htext hnot hctx hsaid =>
        have htried := h.untried hc hb
        refine .inr ⟨fun ⟨b', hb', hbuilds⟩ => hnot ?_, ?_⟩
        · rwa [Cell.live.inj (hctx.symm.trans hb')]
        · simp only [giver, hsaid]
          cases ok with
          | true => simpa [Said.response, Said.replied, htried] using htext
          | false => simp [Said.response, Said.replied, htried]
  later t o ok h hl ho hnot := by
    rcases h.asked ho with ⟨hsame, -⟩ | ⟨a, hc, hreplied⟩
    · rw [hsame]
      exact ⟨hnot, rfl⟩
    · have hno (hb : a.builds) : False := hnot ⟨a, hc, hb⟩
      cases hreplied with
      | nothing _ hsame =>
        rw [hsame]
        exact ⟨hnot, rfl⟩
      | message _ _ _ hb => exact (hno hb).elim
      | piece b reply _ hnot' hctx hsaid =>
        refine ⟨fun ⟨b', hb', hbuilds⟩ => hnot' ?_, ?_⟩
        · rwa [Cell.live.inj (hctx.symm.trans hb')]
        · simp only [giver, hsaid]
          exact response_replied_none _ _

/-- **Announced length.** Nothing has been handed out yet, and the connector is told how much there is. -/
theorem Inv.delivered_iff {t : Talk} (h : t.Inv) {c n : ℕ} (ht : t.Told c n) {more : List Op} (hl : Along step Legal t more)
    (hdone : (run step t more).Done c) :
    (run step t more).delivered c = n ↔ ¬ (t.Builds c ∧ (more.filterMap (replyTo c)).head? = some true) := by
  obtain ⟨hended, hnone, hn⟩ := ht
  cases hc : t.st.svc.session (some c) with
  | none => simp [processCliResponseLength, hc] at hn
  | some q =>
    have hlive := (session_some hc).2
    obtain rfl := Option.some.inj (session_some hc).1
    have hp := h.tracked q.1
    rw [hlive] at hp
    have hlen := (hp.cursor (.inr hended)).length
    rw [hnone, handed_nil, List.length_nil, List.drop_zero] at hlen
    simp only [processCliResponseLength, hc, Option.some.injEq] at hn
    rw [← hn, ← hlen]
    exact (announces q.1).length_iff ⟨h, hended, by simp [hlive]⟩ hnone hl hdone

end Cli.Talk

/-! ## Both services -/

/-- after `ccxapi_start`, the accept callback registered -/
def Receive.Talk.fresh : Receive.Talk := { st := .fresh true (some 0) (some 0) [], said := fun _ => Receive.Said.nothing }

def Cli.Talk.fresh : Cli.Talk := { st := .fresh true, said := fun _ => Cli.Said.nothing }

theorem Receive.Talk.init_fresh : Receive.Talk.fresh.Init := ⟨Receive.init_fresh _ _ _ _, fun _ => rfl⟩

theorem Cli.Talk.init_fresh : Cli.Talk.fresh.Init := ⟨Cli.init_fresh _, fun _ => rfl⟩

namespace Replies

/-! ### What is handed out -/

/-- **Replies.** Whatever is cancelled and whatever fails, for any number of sessions of both services. -/
theorem responses_streamed {r : Receive.Talk} {k : Cli.Talk} (hr : r.Init) (hk : k.Init) {rs : List Receive.Op} {ks : List Cli.Op}
    (hrs : Along Receive.Talk.step Receive.Talk.Legal r rs) (hks : Along Cli.Talk.step Cli.Talk.Legal k ks) :
    (∀ c, (run Receive.Talk.step r rs).Answered c) ∧ ∀ c, (run Cli.Talk.step k ks).Answered c :=
  ⟨fun c => (Receive.Talk.run_inv hr hrs).answered c, fun c => (Cli.Talk.run_inv hk hks).answered c⟩

/-- the request of a session of each service up to the answer of the user -/
def calls : List Receive.Op × List Cli.Op :=
  ([.target ⟨some [97], .tcp, true, none⟩ ⟨true, true, true⟩, .data ⟨some 0, [1, 2], false⟩ true,
      .data ⟨some 0, [1, 2], false⟩ true, .wake, .check, .call],
    [.request ⟨.udp, none, some [104, 0], true, false⟩ true true, .request ⟨.udp, some 0, some [104, 0], true, false⟩ true true,
      .wake, .check, .call])

/-- a response of three bytes and one of two and a NUL, the connector having room for two -/
theorem responses_streamed_three_bytes :
    let rs := calls.1 ++ [.ret .none (some [7, 8, 9]), .settle, .data ⟨some 0, [1, 2], false⟩ true, .reply ⟨some 0, 2⟩ true,
      .reply ⟨some 0, 2⟩ true]
    let ks := calls.2 ++ [.ret (some [111, 107]), .settle, .request ⟨.udp, some 0, some [104, 0], true, false⟩ true true,
      .reply ⟨some 0, 2⟩ true, .reply ⟨some 0, 2⟩ true]
    ((∀ c, (run Receive.Talk.step .fresh rs).Answered c) ∧ ∀ c, (run Cli.Talk.step .fresh ks).Answered c) ∧
      ((run Receive.Talk.step .fresh rs).said 0).given = [⟨[7, 8], true⟩, ⟨[9], false⟩] ∧
      ((run Cli.Talk.step .fresh ks).said 0).given = [⟨[111, 107], true⟩, ⟨[0], false⟩] := by
  refine ⟨responses_streamed Receive.Talk.init_fresh Cli.Talk.init_fresh ?_ ?_, ?_, ?_⟩ <;> decide

/-! ### What is announced -/

/-- **Announced lengths.** Of the connector's requests for a length ahead of the first reply, those are answered with what is
handed out in all where the first reply builds no message. -/
theorem announced_iff {r : Receive.Talk} {k : Cli.Talk} (hr : r.Init) (hk : k.Init) {rs : List Receive.Op} {ks : List Cli.Op}
    (hrs : Along Receive.Talk.step Receive.Talk.Legal r rs) (hks : Along Cli.Talk.step Cli.Talk.Legal k ks) :
    (∀ c n more, (run Receive.Talk.step r rs).Told c n → Along Receive.Talk.step Receive.Talk.Legal (run Receive.Talk.step r rs) more →
      (run Receive.Talk.step r (rs ++ more)).Done c →
      ((run Receive.Talk.step r (rs ++ more)).delivered c = n ↔
        ¬ ((run Receive.Talk.step r rs).Builds c ∧ (more.filterMap (Receive.Talk.replyTo c)).head? = some true))) ∧
    ∀ c n more, (run Cli.Talk.step k ks).Told c n → Along Cli.Talk.step Cli.Talk.Legal (run Cli.Talk.step k ks) more →
      (run Cli.Talk.step k (ks ++ more)).Done c →
      ((run Cli.Talk.step k (ks ++ more)).delivered c = n ↔
        ¬ ((run Cli.Talk.step k ks).Builds c ∧ (more.filterMap (Cli.Talk.replyTo c)).head? = some true)) := by
  simp only [run_append]
  exact ⟨fun c n more ht hl hdone => (Receive.Talk.run_inv hr hrs).delivered_iff ht hl hdone,
    fun c n more ht hl hdone => (Cli.Talk.run_inv hk hks).delivered_iff ht hl hdone⟩

theorem announced_three_bytes :
    let rs := calls.1 ++ [.ret .none (some [7, 8, 9]), .settle, .data ⟨some 0, [1, 2], false⟩ true]
    let ks := calls.2 ++ [.ret (some [111, 107]), .settle, .request ⟨.udp, some 0, some [104, 0], true, false⟩ true true]
    (run Receive.Talk.step .fresh (rs ++ [.reply ⟨some 0, 2⟩ false, .reply ⟨some 0, 2⟩ false])).delivered 0 = 3 ∧
      (run Cli.Talk.step .fresh (ks ++ [.reply ⟨some 0, 2⟩ false, .reply ⟨some 0, 2⟩ false])).delivered 0 = 3 := by
  intro rs ks
  obtain ⟨hreceive, hcli⟩ := announced_iff Receive.Talk.init_fresh Cli.Talk.init_fresh
    (show Along Receive.Talk.step Receive.Talk.Legal .fresh rs by decide)
    (show Along Cli.Talk.step Cli.Talk.Legal .fresh ks by decide)
  constructor
  · exact (hreceive 0 3 _ ⟨by decide, by decide, by decide⟩ (by decide) ⟨⟨[9], false⟩, by decide, rfl⟩).2
      fun h => absurd h.2 (by decide)
  · exact (hcli 0 3 _ ⟨by decide, by decide, by decide⟩ (by decide) ⟨⟨[0], false⟩, by decide, rfl⟩).2
      fun h => absurd h.2 (by decide)

/-- a session that the user has refused, and one there was no memory for: none of the message is announced -/
theorem announced_nothing :
    let r := run Receive.Talk.step .fresh [.target ⟨some [97], .tcp, true, none⟩ ⟨true, true, false⟩]
    let k := run Cli.Talk.step .fresh [.request ⟨.udp, none, some [104, 0], true, false⟩ true false]
    (r.Told 0 0 ∧ Receive.Talk.Legal r (.reply ⟨some 0, 100⟩ true) ∧ (r.step (.reply ⟨some 0, 100⟩ true)).Done 0 ∧
        (r.step (.reply ⟨some 0, 100⟩ true)).delivered 0 ≠ 0) ∧
      k.Told 0 0 ∧ Cli.Talk.Legal k (.reply ⟨some 0, 100⟩ true) ∧ (k.step (.reply ⟨some 0, 100⟩ true)).Done 0 ∧
        (k.step (.reply ⟨some 0, 100⟩ true)).delivered 0 ≠ 0 := by
  intro r k
  refine ⟨⟨⟨by decide, by decide, by decide⟩, by decide, ?_, by decide⟩, ⟨by decide, by decide, by decide⟩, by decide, ?_, by decide⟩
  · exact ⟨⟨Receive.internalErrorText .userRefusedTarget [97], false⟩, by decide, rfl⟩
  · exact ⟨⟨Cli.internalErrorText .insufficientMemory, false⟩, by decide, rfl⟩

end Replies

end CcApi
