/-
The steps of the two application calls and of the connector, seen from a transport's record (`ccxapi_stop` of `ccapi_init.c`, the
starts of `ccapi_transport_tcp.c`, `ccapi_transport_udp.c` and `ccapi_transport_sms.c`).

- `start_move`, `stop_move`: everything that a step of a start, or of ccxapi_stop, may do.
- `StartMove.slot`: a start is a maker of its transport's slot; `StopMove.slot`: ccxapi_stop keeps each slot, and retires it.
- `event_slots`: the connector's events touch what is lent to it, and give it back.
-/
import CcApi.Lib.Slot
import CcApi.Teardown.Model

namespace CcApi.Teardown

open Lib Lib.Runs
open Transport (System Kind Stage Link Event StartArg Build Action)

/-! ## The steps of the two calls -/

section Threads

variable {i j : ℕ}

/-- the thread of another call -/
theorem goto_other (hj : j ≠ i) (st : Stage) (s : System) : (s.goto i st).thread j = s.thread j := by
  simp [System.goto, System.setThread, hj]

theorem ret_other (hj : j ≠ i) (r : Transport.Result) (s : System) : (s.ret i r).thread j = s.thread j := by
  simp [System.ret, System.setThread, hj]

theorem startFail_other (hj : j ≠ i) (e : Transport.StartError) (s : System) :
    (s.startFail i e).thread j = s.thread j := by
  unfold System.startFail
  split <;> simp only [goto_other hj, ret_other hj]

theorem stopReturn_other (hj : j ≠ i) (k : Kind) (r : Transport.Result) (s : System) :
    (s.stopReturn i k r).thread j = s.thread j := by
  unfold System.stopReturn
  split <;> simp only [goto_other hj, ret_other hj]

theorem initiated_other (hj : j ≠ i) (act : Action) (st : ConnectorStatus) (s : System) :
    (s.initiated i act st).thread j = s.thread j := by
  cases st <;> cases act <;>
    simp only [System.initiated, goto_other hj, startFail_other hj, stopReturn_other hj]

theorem onLink_thread (k : Kind) (f : Link → Link) (s : System) : (s.onLink k f).thread = s.thread := rfl

theorem accept_thread (act : Action) (s : System) : (s.accept act).thread = s.thread := by
  cases act <;> rfl

theorem start_other (hj : j ≠ i) (aggressive : Bool) (arg : StartArg) (a : Transport.Answer) (s : System) :
    (s.start aggressive i arg a).thread j = s.thread j := by
  unfold System.start System.startWait
  dsimp only
  repeat' split
  all_goals simp only [goto_other hj, ret_other hj, startFail_other hj, onLink_thread]

/-- a step of call i leaves the other calls where they are -/
theorem api_other (hj : j ≠ i) (aggressive : Bool) (a : Transport.Answer) (s : System) :
    (s.api aggressive i a).thread j = s.thread j := by
  unfold System.api
  repeat' split
  all_goals
    simp only [goto_other hj, ret_other hj, stopReturn_other hj, initiated_other hj, onLink_thread, accept_thread,
      start_other hj]

@[simp] theorem goto_call (st : Stage) (s : System) : ((s.goto i st).thread i).call = (s.thread i).call := by
  simp [System.goto, System.setThread]

@[simp] theorem ret_call (r : Transport.Result) (s : System) : ((s.ret i r).thread i).call = (s.thread i).call := by
  simp [System.ret, System.setThread]

@[simp] theorem startFail_call (e : Transport.StartError) (s : System) :
    ((s.startFail i e).thread i).call = (s.thread i).call := by
  unfold System.startFail
  split <;> simp

@[simp] theorem stopReturn_call (k : Kind) (r : Transport.Result) (s : System) :
    ((s.stopReturn i k r).thread i).call = (s.thread i).call := by
  unfold System.stopReturn
  split <;> simp

@[simp] theorem initiated_call (act : Action) (st : ConnectorStatus) (s : System) :
    ((s.initiated i act st).thread i).call = (s.thread i).call := by
  cases st <;> cases act <;> simp [System.initiated]

/-- a call stays what it is -/
theorem api_call (aggressive : Bool) (a : Transport.Answer) (s : System) :
    ((s.api aggressive i a).thread i).call = (s.thread i).call := by
  unfold System.api System.start System.startWait
  dsimp only
  repeat' split
  all_goals simp [onLink_thread, accept_thread]

@[simp] theorem goto_stage (st : Stage) (s : System) : ((s.goto i st).thread i).stage = st := by
  simp [System.goto, System.setThread]

@[simp] theorem ret_stage (r : Transport.Result) (s : System) : ((s.ret i r).thread i).stage = .returned := by
  simp [System.ret, System.setThread]

@[simp] theorem startFail_stage (e : Transport.StartError) (s : System) :
    ((s.startFail i e).thread i).stage = if e.frees then .startFree e else .returned := by
  unfold System.startFail
  split <;> simp

end Threads

/-! ### The start -/

/-- where a start of transport k can be -/
def OfStart (k : Kind) : Stage → Prop
  | .begin | .startStarted | .startArgs | .startFreeOld | .startMalloc | .startCopy | .startClear | .startWait
  | .startFree _ | .startNull _ | .returned => True
  | .initiateAcquire act | .initiate act | .initiateRelease act _ => act = .start k
  | _ => False

/-- everything that a step of a start of transport k may do -/
inductive StartMove (s : System) (k : Kind) : Stage → (Kind → Link) → Stage → Prop
  | stay {st st' : Stage} (h : maker st' = maker st) : StartMove s k st s.link st'
  | fail {st : Stage} (e : Transport.StartError) (h : maker st = .away ∨ maker st = .holding) :
    StartMove s k st s.link (.startFree e)
  | leave {st : Stage} (h : maker st = .holding) : StartMove s k st s.link .returned
  | empty : StartMove s k .startFreeOld (Function.update s.link k (s.link k).freeInfo) .startMalloc
  | make : StartMove s k .startMalloc (Function.update s.link k ((s.link k).mallocInfo true)) .startCopy
  | makeNone (e : Transport.StartError) :
    StartMove s k .startMalloc (Function.update s.link k ((s.link k).mallocInfo false)) (.startFree e)
  | copy {st' : Stage} (h : st' = .startClear ∨ (∃ e, st' = .startFree e) ∨ st' = .returned) :
    StartMove s k .startCopy (Function.update s.link k (s.link k).callUse) st'
  | unset : StartMove s k .startClear (Function.update s.link k { s.link k with started := false })
      (.initiateAcquire (.start k))
  | engage (accepted : ConnectorStatus) : StartMove s k (.initiate (.start k))
      (Function.update s.link k { s.link k with engaged := true }) (.initiateRelease (.start k) accepted)
  | absent (e : Transport.StartError) (h : (s.link k).info = none) : StartMove s k (.startFree e) s.link .returned
  | discard (e : Transport.StartError) (h : (s.link k).info ≠ none) :
    StartMove s k (.startFree e) (Function.update s.link k (s.link k).freeInfo) (.startNull e)
  | clear (e : Transport.StartError) : StartMove s k (.startNull e) (Function.update s.link k (s.link k).nullInfo) .returned

/-- a start that fails frees what is pointed to, or it has not looked at it -/
theorem startFail_move {s s' : System} {k : Kind} {st : Stage} (i : ℕ) (e : Transport.StartError) (hlink : s'.link = s.link)
    (hst : maker st = .away ∨ maker st = .holding) :
    StartMove s k st (s'.startFail i e).link ((s'.startFail i e).thread i).stage ∧
      OfStart k ((s'.startFail i e).thread i).stage := by
  rw [System.startFail_link, hlink, startFail_stage]
  split_ifs
  · exact ⟨.fail e hst, trivial⟩
  · refine ⟨?_, trivial⟩
    rcases hst with h | h
    · exact .stay (by rw [h]; rfl)
    · exact .leave h

theorem initiated_move {s s' : System} {k : Kind} {st : Stage} (i : ℕ) (c : ConnectorStatus) (hlink : s'.link = s.link)
    (hst : maker st = .holding) :
    StartMove s k st (s'.initiated i (.start k) c).link ((s'.initiated i (.start k) c).thread i).stage ∧
      OfStart k ((s'.initiated i (.start k) c).thread i).stage := by
  cases c with
  | success =>
    simp only [System.initiated, System.goto_link, hlink, goto_stage]
    exact ⟨.stay hst.symm, trivial⟩
  | serviceBusy =>
    simp only [System.initiated, System.goto_link, hlink, goto_stage]
    exact ⟨.stay hst.symm, rfl⟩
  | abort => exact startFail_move i .init hlink (.inr hst)
  | failed => exact startFail_move i .init hlink (.inr hst)

/-- **The steps of a start.** -/
theorem start_move {s : System} {i : ℕ} {arg : StartArg} (hcall : (s.thread i).call = .start arg)
    (hst : OfStart arg.kind (s.thread i).stage) (aggressive : Bool) (a : Transport.Answer) :
    StartMove s arg.kind (s.thread i).stage (s.api aggressive i a).link ((s.api aggressive i a).thread i).stage ∧
      OfStart arg.kind ((s.api aggressive i a).thread i).stage := by
  cases hs : (s.thread i).stage <;> simp only [hs, OfStart] at hst
  case begin =>
    simp only [System.api, hs, hcall]
    split <;> simp only [System.goto_link, System.ret_link, goto_stage, ret_stage] <;> exact ⟨.stay rfl, trivial⟩
  case startStarted =>
    simp only [System.api, System.start, hs, hcall]
    split <;> simp only [System.goto_link, System.ret_link, goto_stage, ret_stage] <;> exact ⟨.stay rfl, trivial⟩
  case startArgs =>
    simp only [System.api, System.start, hs, hcall]
    split
    · simp only [System.goto_link, goto_stage]
      exact ⟨.stay rfl, trivial⟩
    · exact startFail_move i _ rfl (.inl rfl)
  case startFreeOld =>
    simp only [System.api, System.start, hs, hcall, System.goto_link, goto_stage]
    exact ⟨.empty, trivial⟩
  case startMalloc =>
    simp only [System.api, System.start, hs, hcall]
    cases hg : a.granted with
    | true =>
      simp only [if_true, System.goto_link, goto_stage]
      exact ⟨.make, trivial⟩
    | false =>
      have hfrees : Transport.StartError.insufficientMemory.frees = true := rfl
      simp only [Bool.false_eq_true, if_false, System.startFail_link, startFail_stage, hfrees, if_true]
      exact ⟨.makeNone _, trivial⟩
  case startCopy =>
    simp only [System.api, System.start, hs, hcall]
    split
    · split
      · rw [System.startFail_link, startFail_stage]
        split <;> exact ⟨.copy (by simp), trivial⟩
      · simp only [System.goto_link, goto_stage]
        exact ⟨.copy (by simp), trivial⟩
    · rw [System.startFail_link, startFail_stage]
      split <;> exact ⟨.copy (by simp), trivial⟩
  case startClear =>
    simp only [System.api, System.start, hs, hcall, System.goto_link, goto_stage]
    exact ⟨.unset, rfl⟩
  case initiateAcquire act =>
    subst hst
    simp only [System.api, hs]
    split
    · simp only [System.goto_link, goto_stage]
      exact ⟨.stay rfl, rfl⟩
    · exact initiated_move i .abort rfl rfl
  case initiate act =>
    subst hst
    simp only [System.api, hs, System.goto_link, goto_stage]
    refine ⟨?_, rfl⟩
    split
    · exact .engage _
    · exact .stay rfl
  case initiateRelease act c =>
    subst hst
    simp only [System.api, hs]
    split
    · exact initiated_move i c rfl rfl
    · exact initiated_move i .abort rfl rfl
  case startWait =>
    simp only [System.api, System.start, hs, hcall, System.startWait]
    repeat' split
    all_goals
      first
      | exact startFail_move i _ rfl (.inr rfl)
      | (simp only [System.ret_link, ret_stage]; exact ⟨.leave rfl, trivial⟩)
      | (rw [hs]; exact ⟨.stay rfl, trivial⟩)
  case startFree e =>
    simp only [System.api, System.start, hs, hcall]
    split
    · simp only [System.ret_link, ret_stage]
      exact ⟨.absent e ‹_›, trivial⟩
    · simp only [System.goto_link, goto_stage]
      exact ⟨.discard e ‹_›, trivial⟩
  case startNull e =>
    simp only [System.api, System.start, hs, hcall, System.ret_link, ret_stage]
    exact ⟨.clear e, trivial⟩
  case returned =>
    simp only [System.api, hs]
    exact ⟨.stay rfl, trivial⟩

/-! ### ccxapi_stop -/

/-- where ccxapi_stop can be -/
def OfStop : Stage → Prop
  | .begin | .stopCheck _ | .stopWait _ | .stopFree _ | .stopNull _ | .libraryStarted _ | .libraryFree _ | .libraryWait _
  | .teardown _ | .returned => True
  | .initiateAcquire act | .initiate act | .initiateRelease act _ => act = .terminate ∨ ∃ k, act = .stop k
  | _ => False

/-- the transports that ccxapi_stop deals with before this one -/
def before : Kind → List Kind
  | .tcp => []
  | .udp => [.tcp]
  | .sms => [.tcp, .udp]

/-- the transports that it has dealt with -/
def behind : Stage → List Kind
  | .stopCheck k | .stopWait k | .stopFree k | .stopNull k | .libraryStarted k | .libraryFree k
  | .initiateAcquire (.stop k) | .initiate (.stop k) | .initiateRelease (.stop k) _ => before k
  | .initiateAcquire .terminate | .initiate .terminate | .initiateRelease .terminate _ | .libraryWait _
  | .teardown _ => [.tcp, .udp, .sms]
  | _ => []

/-- everything that a step of ccxapi_stop may do up to its wait -/
inductive StopMove (s : System) : Stage → (Kind → Link) → Stage → Prop
  | stay {st st' : Stage} (hnull : ∀ k, st ≠ .stopNull k ∧ st' ≠ .stopNull k) (hfree : ∀ k, st ≠ .libraryFree k)
    (hbehind : ∀ k ∈ behind st', k ∈ behind st)
    (hend : ∀ accepted, st' = .teardown accepted → s.status = .notStarted ∧ st = .libraryWait accepted) :
    StopMove s st s.link st'
  | free (k : Kind) (h : (s.link k).info ≠ none) :
    StopMove s (.stopFree k) (Function.update s.link k (s.link k).freeInfo) (.stopNull k)
  | wipe (k : Kind) : StopMove s (.stopNull k) (Function.update s.link k (s.link k).nullInfo) (.libraryFree k)
  | retire (k : Kind) :
    StopMove s (.libraryFree k) (Function.update s.link k (s.link k).freeInfo) (System.afterFree k)

theorem stopReturn_stage {s : System} {i : ℕ} (hcall : (s.thread i).call = .libraryStop) (k : Kind)
    (r : Transport.Result) : ((s.stopReturn i k r).thread i).stage = .libraryFree k := by
  simp [System.stopReturn, hcall]

theorem initiated_stop {s s' : System} {i : ℕ} {act : Action} {st : Stage} (hcall : (s'.thread i).call = .libraryStop)
    (hact : act = .terminate ∨ ∃ k, act = .stop k) (c : ConnectorStatus) (hlink : s'.link = s.link)
    (hnull : ∀ k, st ≠ .stopNull k) (hfree : ∀ k, st ≠ .libraryFree k)
    (hbehind : ∀ k ∈ behind (.initiate act), k ∈ behind st) :
    StopMove s st (s'.initiated i act c).link ((s'.initiated i act c).thread i).stage ∧
      OfStop ((s'.initiated i act c).thread i).stage := by
  rw [System.initiated_link, hlink]
  rcases hact with rfl | ⟨k, rfl⟩
  · cases c <;> simp only [System.initiated, goto_stage]
    case success => exact ⟨.stay (fun k => ⟨hnull k, by simp⟩) hfree hbehind (by simp), trivial⟩
    case serviceBusy => exact ⟨.stay (fun k => ⟨hnull k, by simp⟩) hfree hbehind (by simp), .inl rfl⟩
    all_goals exact ⟨.stay (fun k => ⟨hnull k, by simp⟩) hfree hbehind (by simp), trivial⟩
  · cases c <;> simp only [System.initiated, goto_stage, stopReturn_stage hcall]
    case success => exact ⟨.stay (fun k => ⟨hnull k, by simp⟩) hfree hbehind (by simp), trivial⟩
    case serviceBusy => exact ⟨.stay (fun k => ⟨hnull k, by simp⟩) hfree hbehind (by simp), .inr ⟨k, rfl⟩⟩
    all_goals exact ⟨.stay (fun k => ⟨hnull k, by simp⟩) hfree hbehind (by simp), trivial⟩

theorem afterFree_stop (k : Kind) : OfStop (System.afterFree k) := by
  cases k
  · trivial
  · trivial
  · exact .inl rfl

theorem afterFree_ne (k k' : Kind) : System.afterFree k ≠ .stopNull k' := by
  cases k <;> simp [System.afterFree]

/-- **The steps of ccxapi_stop.** -/
theorem stop_move {s : System} {i : ℕ} (hcall : (s.thread i).call = .libraryStop) (hst : OfStop (s.thread i).stage)
    (hend : tearing (s.thread i).stage = false) (aggressive : Bool) (a : Transport.Answer) :
    StopMove s (s.thread i).stage (s.api aggressive i a).link ((s.api aggressive i a).thread i).stage ∧
      OfStop ((s.api aggressive i a).thread i).stage := by
  cases hs : (s.thread i).stage <;> simp only [hs, OfStop] at hst
  case begin =>
    simp only [System.api, hs, hcall]
    split <;> simp only [System.goto_link, System.ret_link, goto_stage, ret_stage] <;>
      exact ⟨.stay (by simp) (by simp) (by simp [behind, before]) (by simp), trivial⟩
  case initiateAcquire act =>
    simp only [System.api, hs]
    split
    · simp only [System.goto_link, goto_stage]
      refine ⟨.stay (by simp) (by simp) ?_ (by simp), hst⟩
      rcases hst with rfl | ⟨k, rfl⟩ <;> exact fun _ hk => hk
    · refine initiated_stop hcall hst .abort rfl (by simp) (by simp) ?_
      rcases hst with rfl | ⟨k, rfl⟩ <;> exact fun _ hk => hk
  case initiate act =>
    have hlink : (s.accept act).link = s.link := by rcases hst with rfl | ⟨k, rfl⟩ <;> rfl
    simp only [System.api, hs, System.goto_link, goto_stage]
    have hsame : (if s.answer a = .success then s.accept act else s).link = s.link := by split <;> [exact hlink; rfl]
    rw [hsame]
    refine ⟨.stay (by simp) (by simp) ?_ (by simp), hst⟩
    rcases hst with rfl | ⟨k, rfl⟩ <;> exact fun _ hk => hk
  case initiateRelease act c =>
    simp only [System.api, hs]
    have hsame : ∀ k ∈ behind (.initiate act), k ∈ behind (.initiateRelease act c) := by
      rcases hst with rfl | ⟨k, rfl⟩ <;> exact fun _ hk => hk
    split
    · exact initiated_stop hcall hst c rfl (by simp) (by simp) hsame
    · exact initiated_stop hcall hst .abort rfl (by simp) (by simp) hsame
  case stopCheck k =>
    simp only [System.api, hs]
    split
    · simp only [System.goto_link, goto_stage]
      exact ⟨.stay (by simp) (by simp) (fun _ hk => hk) (by simp), .inr ⟨k, rfl⟩⟩
    · rw [System.stopReturn_link, stopReturn_stage hcall]
      exact ⟨.stay (by simp) (by simp) (fun _ hk => hk) (by simp), trivial⟩
  case stopWait k =>
    simp only [System.api, hs]
    split
    · rw [hs]
      exact ⟨.stay (by simp) (by simp) (fun _ hk => hk) (by simp), trivial⟩
    · simp only [System.goto_link, goto_stage]
      exact ⟨.stay (by simp) (by simp) (fun _ hk => hk) (by simp), trivial⟩
  case stopFree k =>
    simp only [System.api, hs]
    split
    · rw [System.stopReturn_link, stopReturn_stage hcall]
      exact ⟨.stay (by simp) (by simp) (fun _ hk => hk) (by simp), trivial⟩
    · simp only [System.goto_link, goto_stage]
      exact ⟨.free k ‹_›, trivial⟩
  case stopNull k =>
    have hcall' : ((s.onLink k Link.nullInfo).thread i).call = .libraryStop := hcall
    simp only [System.api, hs, System.stopReturn_link, stopReturn_stage hcall']
    exact ⟨.wipe k, trivial⟩
  case libraryStarted k =>
    simp only [System.api, hs]
    split <;> simp only [System.goto_link, goto_stage] <;>
      exact ⟨.stay (by simp) (by simp) (fun _ hk => hk) (by simp), trivial⟩
  case libraryFree k =>
    simp only [System.api, hs, System.goto_link, goto_stage]
    exact ⟨.retire k, afterFree_stop k⟩
  case libraryWait accepted =>
    simp only [System.api, hs]
    split
    · rename_i hstatus
      simp only [System.goto_link, goto_stage]
      refine ⟨.stay (by simp) (by simp) (fun _ hk => hk) fun accepted' haccepted => ⟨hstatus, ?_⟩, trivial⟩
      rw [Stage.teardown.inj haccepted]
    · rw [hs]
      exact ⟨.stay (by simp) (by simp) (fun _ hk => hk) (by simp), trivial⟩
  case teardown => simp [hs, tearing] at hend
  case returned =>
    simp only [System.api, hs]
    exact ⟨.stay (by simp) (by simp) (fun _ hk => hk) (by simp), trivial⟩

/-- a transport is behind ccxapi_stop once its record has been freed for the library -/
theorem StopMove.behind {s : System} {st st' : Stage} {links : Kind → Link} (h : StopMove s st links st') :
    ∀ k ∈ behind st', k ∈ behind st ∨ st = .libraryFree k := by
  cases h with
  | stay hnull hfree hbehind => exact fun k hk => .inl (hbehind k hk)
  | free k => exact fun k' hk' => .inl hk'
  | wipe k => exact fun k' hk' => .inl hk'
  | retire k => cases k <;> simp [System.afterFree, Teardown.behind, before]

/-- its tasks wait for the connector-run thread -/
theorem StopMove.ended {s : System} {st st' : Stage} {links : Kind → Link} (h : StopMove s st links st') {accepted : Bool}
    (hend : st' = .teardown accepted) : s.status = .notStarted ∧ st = .libraryWait accepted := by
  cases h with
  | stay hnull hfree hbehind hstatus => exact hstatus accepted hend
  | free k => cases hend
  | wipe k => cases hend
  | retire k => cases k <;> cases hend

/-- a start leaves the other transports alone -/
theorem StartMove.other {s : System} {k k' : Kind} {st st' : Stage} {links : Kind → Link} (h : StartMove s k st links st')
    (hk : k' ≠ k) : links k' = s.link k' := by
  cases h <;> first | rfl | exact Function.update_of_ne hk _ _

/-! ## The transports as slots -/

def view (l : Link) (loop : Bool) (m : Slot.Maker) (clearing retired : Bool) : Slot.State :=
  ⟨l.info, l.records, l.callFault || l.eventFault, l.engaged && loop, m, clearing, retired⟩

section View

variable (l : Link) (loop : Bool) (m : Slot.Maker) (clearing retired : Bool)

theorem view_callUse : view l.callUse loop m clearing retired = (view l loop m clearing retired).used := by
  have hfault : (l.callUse.callFault || l.callUse.eventFault) = ((l.callFault || l.eventFault) || !l.usable) := by
    simp only [Link.callUse]
    cases l.callFault <;> cases l.eventFault <;> cases l.usable <;> rfl
  simp only [view, hfault]
  rfl

theorem view_eventUse : view l.eventUse loop m clearing retired = (view l loop m clearing retired).used := by
  have hfault : (l.eventUse.callFault || l.eventUse.eventFault) = ((l.callFault || l.eventFault) || !l.usable) := by
    simp only [Link.eventUse]
    cases l.callFault <;> cases l.eventFault <;> cases l.usable <;> rfl
  simp only [view, hfault]
  rfl

/-- a free, with what else the step does to the slot -/
theorem view_freeInfo (m' : Slot.Maker) (clearing' retired' : Bool) : view l.freeInfo loop m' clearing' retired' =
    { (view l loop m clearing retired).freed with maker := m', clearing := clearing', retired := retired' } := by
  cases hi : l.info with
  | none =>
    have hfree : l.freeInfo = l := by simp [Link.freeInfo, hi]
    have hfreed : (view l loop m clearing retired).freed = view l loop m clearing retired := by
      simp [Slot.State.freed, view, hi]
    rw [hfree, hfreed]
    rfl
  | some r =>
    have hfree : l.freeInfo = { l.callUse with records := l.records.release r } := by simp [Link.freeInfo, hi]
    have hfreed : (view l loop m clearing retired).freed =
        { (view l loop m clearing retired).used with records := l.records.release r } := by
      simp [Slot.State.freed, view, hi]
    rw [hfree, hfreed, ← view_callUse]
    rfl

theorem view_freed : view l.freeInfo loop m clearing retired = (view l loop m clearing retired).freed := by
  obtain ⟨-, -, -, hm, hc, hr⟩ := Slot.freed_frame (view l loop m clearing retired)
  rw [view_freeInfo l loop m clearing retired]
  generalize (view l loop m clearing retired).freed = s at hm hc hr ⊢
  obtain ⟨pointer, records, faulted, lent, maker, c, r⟩ := s
  simp only [view] at hm hc hr ⊢
  rw [hm, hc, hr]

end View

/-- one step of a slot -/
theorem one_step {s t : Slot.State} (o : Slot.Op) (ht : t = Slot.step s o) (ho : Slot.Respects s o) :
    ∃ ops, t = run Slot.step s ops ∧ Along Slot.step Slot.Respects s ops :=
  ⟨[o], ht, ho, trivial⟩

theorem no_step {s t : Slot.State} (ht : t = s) : ∃ ops, t = run Slot.step s ops ∧ Along Slot.step Slot.Respects s ops :=
  ⟨[], ht, trivial⟩

/-- a start is a maker of its transport's slot -/
theorem StartMove.slot {s : System} {k : Kind} {st st' : Stage} {links : Kind → Link} (h : StartMove s k st links st')
    (loop clearing retired : Bool)
    (hfree : st = .startFreeOld ∨ (∃ e, st = .startFree e) → (view (s.link k) loop (maker st) clearing retired).Free) :
    ∃ ops, view (links k) loop (maker st') clearing retired =
        run Slot.step (view (s.link k) loop (maker st) clearing retired) ops ∧
      Along Slot.step Slot.Respects (view (s.link k) loop (maker st) clearing retired) ops := by
  cases h with
  | stay hm => exact no_step (by rw [hm])
  | fail e hm => exact one_step .fail rfl hm
  | leave hm => exact one_step .leave rfl hm
  | empty =>
    rw [Function.update_self]
    refine one_step .empty ?_ ⟨rfl, hfree (.inl rfl)⟩
    rw [Slot.step, ← view_freed]
    rfl
  | make =>
    rw [Function.update_self]
    exact one_step (.make true) rfl rfl
  | makeNone e =>
    rw [Function.update_self]
    exact one_step (.make false) rfl rfl
  | copy hst =>
    rw [Function.update_self, view_callUse]
    rcases hst with rfl | ⟨e, rfl⟩ | rfl
    · exact one_step .use rfl rfl
    · exact ⟨[.use, .fail], rfl, rfl, .inr rfl, trivial⟩
    · exact ⟨[.use, .leave], rfl, rfl, rfl, trivial⟩
  | unset =>
    rw [Function.update_self]
    exact no_step rfl
  | engage accepted =>
    rw [Function.update_self]
    cases loop with
    | true => exact one_step .lend rfl rfl
    | false => exact no_step (by simp [view, maker])
  | absent e hnone =>
    refine one_step .discard ?_ ⟨rfl, hfree (.inr ⟨e, rfl⟩)⟩
    simp [Slot.step, Slot.State.freed, view, hnone, maker]
  | discard e hsome =>
    rw [Function.update_self]
    refine one_step .discard ?_ ⟨rfl, hfree (.inr ⟨e, rfl⟩)⟩
    have hpointer : (view (s.link k) loop (maker (.startFree e)) clearing retired).pointer ≠ none := hsome
    rw [Slot.step, ← view_freed, if_neg hpointer]
    rfl
  | clear e =>
    rw [Function.update_self]
    exact one_step .clear rfl rfl

/-- ccxapi_stop is a keeper of each transport's slot, and retires it -/
theorem StopMove.slot {s : System} {st st' : Stage} {links : Kind → Link} (h : StopMove s st links st') (k : Kind)
    (loop : Bool) (m : Slot.Maker) (retired : Bool)
    (hfree : st = .stopFree k ∨ st = .libraryFree k → m = .away ∧ (view (s.link k) loop m false retired).Free) :
    ∃ ops, view (links k) loop m (st' = .stopNull k) (retired || st = .libraryFree k) =
        run Slot.step (view (s.link k) loop m (st = .stopNull k) retired) ops ∧
      Along Slot.step Slot.Respects (view (s.link k) loop m (st = .stopNull k) retired) ops := by
  cases h with
  | stay hnull hlibrary =>
    refine no_step ?_
    simp [hnull k, hlibrary k]
  | free k' hsome =>
    by_cases hk : k = k'
    · subst hk
      rw [Function.update_self]
      refine one_step .free ?_ ⟨(hfree (.inl rfl)).1, by simpa using (hfree (.inl rfl)).2⟩
      rw [Slot.step, ← view_freed]
      simp [view]
    · rw [Function.update_of_ne hk]
      exact no_step (by simp [Ne.symm hk])
  | wipe k' =>
    by_cases hk : k = k'
    · subst hk
      rw [Function.update_self]
      refine one_step .wipe ?_ ?_
      · simp [Slot.step, view, Link.nullInfo]
      · simp [Slot.Respects, view]
    · rw [Function.update_of_ne hk]
      exact no_step (by simp [Ne.symm hk])
  | retire k' =>
    by_cases hk : k = k'
    · subst hk
      rw [Function.update_self]
      refine one_step .retire ?_ ⟨(hfree (.inr rfl)).1, by simpa using (hfree (.inr rfl)).2⟩
      rw [Slot.step, ← view_freed]
      simp [view, afterFree_ne]
    · rw [Function.update_of_ne hk]
      exact no_step (by simp [afterFree_ne, Ne.symm hk])

/-- the step is one of the slot of each transport -/
def Slots (s s' : System) : Prop := ∀ k m clearing retired,
  ∃ ops, view (s'.link k) true m clearing retired = run Slot.step (view (s.link k) true m clearing retired) ops ∧
    Along Slot.step Slot.Respects (view (s.link k) true m clearing retired) ops

theorem slots_of_link {s s' : System} (h : s'.link = s.link) : Slots s s' :=
  fun k m clearing retired => no_step (by rw [h])

theorem slots_onLink (s : System) (k : Kind) {f : Link → Link}
    (hf : ∀ m clearing retired, ∃ ops,
      view (f (s.link k)) true m clearing retired = run Slot.step (view (s.link k) true m clearing retired) ops ∧
        Along Slot.step Slot.Respects (view (s.link k) true m clearing retired) ops) : Slots s (s.onLink k f) := by
  intro k' m clearing retired
  by_cases hk : k' = k
  · subst hk
    simpa only [System.onLink, Function.update_self] using hf m clearing retired
  · simpa only [System.onLink, Function.update_of_ne hk] using no_step rfl

theorem slots_touch (s : System) {k : Kind} (he : (s.link k).engaged = true) : Slots s (s.onLink k Link.eventUse) :=
  slots_onLink s k fun m clearing retired =>
    one_step .touch (view_eventUse _ _ _ _ _) (by simp [Slot.Respects, view, he])

theorem Slots.trans {s s' s'' : System} (h : Slots s s') (h' : Slots s' s'') : Slots s s'' := by
  intro k m clearing retired
  obtain ⟨ops, hops, halong⟩ := h k m clearing retired
  obtain ⟨ops', hops', halong'⟩ := h' k m clearing retired
  refine ⟨ops ++ ops', ?_, ?_⟩
  · rw [run_append, ← hops, ← hops']
  · rw [along_append]
    exact ⟨halong, hops ▸ halong'⟩

/-- the connector moves no call -/
theorem event_thread (s : System) (e : Event) : (s.event e).thread = s.thread := by
  cases e with
  | closed answer before finished =>
    simp only [System.event]
    repeat' split
    all_goals rfl
  | _ =>
    simp only [System.event]
    split <;> rfl

/-- a connector-run thread that has ended does nothing -/
theorem event_ended {s : System} (e : Event) (h : s.status = .notStarted) : (s.event e).status = .notStarted := by
  have hidle : s.idle = false := by simp [System.idle, h]
  cases e with
  | closed answer before finished =>
    simp only [System.event]
    repeat' split
    all_goals exact h
  | _ => simp [System.event, hidle, h]

/-- **The connector's events** touch what is lent, and give it back. -/
theorem event_slots {s : System} (h : s.Fsm) (e : Event) : Slots s (s.event e) := by
  cases e with
  | opened k status =>
    simp only [System.event]
    split_ifs
    · exact slots_onLink s k fun _ _ _ => no_step rfl
    · exact slots_of_link rfl
  | keepalive =>
    simp only [System.event]
    split_ifs with hk
    · exact slots_touch s hk.2
    · exact slots_of_link rfl
  | config r =>
    simp only [System.event]
    split_ifs with hk
    · exact slots_touch s hk.2
    · exact slots_of_link rfl
  | close k c status =>
    have hflag : Slots s (s.onLink k fun l => { l with started := false }) := slots_onLink s k fun _ _ _ => no_step rfl
    simp only [System.event]
    split_ifs
    · exact hflag
    · exact slots_of_link rfl
  | closed answer before finished =>
    simp only [System.event]
    cases hc : s.closing with
    | none => exact slots_of_link rfl
    | some kc =>
      obtain ⟨k, c⟩ := kc
      have hasked : Slots s (if c.asks k then s.onLink k Link.eventUse else s) := by
        split_ifs
        · exact slots_touch s (h.closing k c hc)
        · exact slots_of_link rfl
      have hback (t : System) : Slots t
          (t.onLink k fun l => { l with engaged := l.engaged && !(finished && !c.reconnect k answer before) }) := by
        refine slots_onLink t k fun m clearing retired => ?_
        cases (finished && !c.reconnect k answer before) with
        | true => exact one_step .giveBack (by simp [Slot.step, view]) trivial
        | false => exact no_step (by simp [view])
      exact hasked.trans (hback _)
  | stopCompleted k =>
    simp only [System.event]
    split_ifs
    · exact slots_onLink s k (f := fun l => { l with started := false, engaged := false }) fun _ _ _ =>
        one_step .giveBack (by simp [Slot.step, view]) trivial
    · exact slots_of_link rfl
  | terminated =>
    simp only [System.event]
    split_ifs
    · exact fun k m clearing retired => one_step .giveBack (by simp [Slot.step, view]) trivial
    · exact slots_of_link rfl
  | ended =>
    simp only [System.event]
    split_ifs <;> exact slots_of_link rfl

end CcApi.Teardown
