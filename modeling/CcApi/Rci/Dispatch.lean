/-
Which user callback an element is given to (`element_process`, `ccapi_rci_handler.c`).

The code decides by the action and the embed flag it has stored. They are stored by start_session and start_action, when
these callbacks are there, and the flag only by a set on settings and by the user callbacks; the guard asks for set_element
also where set_and_transform_element is called. So what an element finds goes back to the last request that stored it, or
to the memory at the start.

- `stores_run`, `stored_flag`: what is stored in every run, by the callbacks that are there and what has been asked.
- `dispatched_iff`: in which runs every element queues what its enclosing action calls for.
- `stale_action`: without start_action a set is dispatched as the query the session starts with.
-/
import CcApi.Rci.Bounds

namespace CcApi.Rci

open Lib Lib.Runs

variable (cfg : Config)

/-- what an element calls for, by the action it is in -/
def calledFor (p : Pos) : Option (CbType × Option CbName) :=
  match p.action with
  | some (.query, _, _) => if cfg.registered .getElement then some (.element, some .getElement) else none
  | some (.set, .setting, true) =>
    if cfg.registered .setAndTransformElement then some (.transform, some .setAndTransformElement) else none
  | some (.set, _, _) => if cfg.registered .setElement then some (.element, some .setElement) else none
  | _ => none

/-- the element the connector asks for has queued what it calls for -/
def Dispatched (s : St) : Prop := ∀ r, s.request = some r → r.id = .elementProcess → r.queued = calledFor cfg s.pos

instance (s : St) : Decidable (Dispatched cfg s) :=
  decidable_of_iff (∀ r ∈ s.request, r.id = .elementProcess → r.queued = calledFor cfg s.pos) (by simp [Dispatched])

/-- the stored action in the action p is in: its own when start_action is there, else the query a session starts with when
start_session is there, else what the memory held -/
def storedAction (memory : Option Action) (p : Pos) : Option Action :=
  if cfg.registered .startAction then p.action.map Prod.fst
  else if cfg.registered .startSession then some .query else memory

/-- the flag an operation gives: a set on settings when start_action is there, and the user callback -/
def flagGiven (s : St) : Op → Option Bool
  | .submit .actionStart rc =>
    if s.request = none ∧ cfg.registered .startAction = true ∧ rc.action = .set ∧ rc.groupType = .setting then
      some rc.attributes.embedTransformedValues
    else none
  | .ret u => if s.pc = .calling then some u.embedTransformedValues else none
  | _ => none

/-- the flag last given, else what the memory held -/
def lastFlag (s : St) (before : List Op) : Bool :=
  (writes (step cfg) (flagGiven cfg) s before).getLastD s.svc.info.embedTransformedValues

/-- when the callback of an element of the action p is in is the called-for one. With the stored action the enclosing one
only a set can go wrong: by the flag, and where the values are transformed also by the guard, which asks for set_element.
With another one neither of the two may have a callback -/
def Determined (memory : Option Action) (flag : Bool) (p : Pos) : Prop :=
  if storedAction cfg memory p = p.action.map Prod.fst then
    match p.action with
    | some (.set, .setting, true) =>
      cfg.registered .setElement = cfg.registered .setAndTransformElement ∧ (cfg.registered .setElement = true → flag = true)
    | some (.set, _, _) => cfg.registered .setElement = true → flag = false
    | _ => True
  else
    calledFor cfg p = none ∧ (storedAction cfg memory p = some .query → cfg.registered .getElement = false) ∧
      (storedAction cfg memory p = some .set → cfg.registered .setElement = false)

instance (memory : Option Action) (flag : Bool) (p : Pos) : Decidable (Determined cfg memory flag p) := by
  unfold Determined
  split
  · split <;> infer_instance
  · infer_instance

/-- an element that is asked for after the operations before, from s -/
def ElementsDetermined (s : St) (before : List Op) : Op → Prop
  | .submit id _ => (run (step cfg) s before).request = none ∧ id = .elementProcess →
    Determined cfg s.svc.info.action (lastFlag cfg s before) (run (step cfg) s before).pos
  | _ => True

instance (s : St) (before : List Op) : ∀ o, Decidable (ElementsDetermined cfg s before o)
  | .submit _ _ => inferInstanceAs (Decidable (_ ∧ _ → _))
  | .poll | .cancel _ | .stop | .wake | .read | .call | .ret _ | .store | .update => inferInstanceAs (Decidable True)

/-- what an element finds by the action and the flag that are stored -/
def foundFor (action : Option Action) (flag : Bool) : Option (CbType × Option CbName) :=
  match action with
  | some .query => if cfg.registered .getElement then some (.element, some .getElement) else none
  | some .set =>
    if cfg.registered .setElement then
      if flag then some (.transform, cfg.function .setAndTransformElement) else some (.element, some .setElement)
    else none
  | _ => none

/-- what an element queues -/
def elementQueues (rc : RemoteConfig) (info : RciInfo) (cb : Callback) : Option (CbType × Option CbName) :=
  if haveHandler cfg info then
    some ((elementCallback cfg rc info cb).type, (elementCallback cfg rc info cb).function)
  else none

theorem elementQueues_eq (rc : RemoteConfig) (info : RciInfo) (cb : Callback) :
    elementQueues cfg rc info cb = foundFor cfg info.action info.embedTransformedValues := by
  rcases hact : info.action with _ | a
  · simp [elementQueues, foundFor, haveHandler, hact]
  · cases a <;> simp only [elementQueues, foundFor, haveHandler, elementCallback, Config.function, hact]
    case query => cases cfg.registered .getElement <;> simp
    case set => cases cfg.registered .setElement <;> cases info.embedTransformedValues <;> simp
    all_goals simp

variable {cfg}

/-- a query's callback is get_element and a set's is not -/
theorem calledFor_action {p : Pos} {q : CbType × Option CbName} (h : calledFor cfg p = some q) :
    (p.action.map Prod.fst = some .query ∧ q.2 = some .getElement) ∨
      (p.action.map Prod.fst = some .set ∧ q.2 ≠ some .getElement) := by
  unfold calledFor at h
  split at h
  · next hp =>
    obtain ⟨-, h⟩ := Option.ite_none_right_eq_some.1 h
    obtain rfl := Option.some.inj h
    exact Or.inl ⟨by simp [hp], rfl⟩
  · next hp =>
    obtain ⟨-, h⟩ := Option.ite_none_right_eq_some.1 h
    obtain rfl := Option.some.inj h
    exact Or.inr ⟨by simp [hp], by simp⟩
  · next hp =>
    obtain ⟨-, h⟩ := Option.ite_none_right_eq_some.1 h
    obtain rfl := Option.some.inj h
    exact Or.inr ⟨by simp [hp], by simp⟩
  · cases h

theorem foundFor_action {action : Option Action} {flag : Bool} {q : CbType × Option CbName}
    (h : foundFor cfg action flag = some q) :
    (action = some .query ∧ q.2 = some .getElement) ∨ (action = some .set ∧ q.2 ≠ some .getElement) := by
  unfold foundFor at h
  split at h
  · obtain ⟨-, h⟩ := Option.ite_none_right_eq_some.1 h
    obtain rfl := Option.some.inj h
    exact Or.inl ⟨rfl, rfl⟩
  · obtain ⟨-, h⟩ := Option.ite_none_right_eq_some.1 h
    refine Or.inr ⟨rfl, ?_⟩
    cases flag <;> obtain rfl := Option.some.inj h <;> simp [Config.function]
  · cases h

theorem foundFor_none {action : Option Action} {flag : Bool} : foundFor cfg action flag = none ↔
    (action = some .query → cfg.registered .getElement = false) ∧
      (action = some .set → cfg.registered .setElement = false) := by
  rcases action with _ | a
  · simp [foundFor]
  · cases a <;> simp only [foundFor]
    case query => cases cfg.registered .getElement <;> simp
    case set => cases cfg.registered .setElement <;> cases flag <;> simp
    all_goals simp

/-- an element finds what it calls for exactly when what is stored determines it -/
theorem foundFor_iff {p : Pos} {memory : Option Action} {flag : Bool} :
    foundFor cfg (storedAction cfg memory p) flag = calledFor cfg p ↔ Determined cfg memory flag p := by
  by_cases hsame : storedAction cfg memory p = p.action.map Prod.fst
  · rw [Determined, if_pos hsame, hsame]
    rcases hp : p.action with _ | ⟨a, g, e⟩
    · simp [foundFor, calledFor, hp]
    · cases a <;> simp only [Option.map_some, foundFor, calledFor, hp]
      case set =>
        cases g <;> cases e <;> simp only [Config.function] <;> cases cfg.registered .setElement <;>
          cases cfg.registered .setAndTransformElement <;> cases flag <;> simp
  · -- the two actions have no callback in common
    rw [Determined, if_neg hsame, ← @foundFor_none cfg _ flag]
    constructor
    · intro h
      cases hc : calledFor cfg p with
      | none => exact ⟨rfl, h.trans hc⟩
      | some q =>
        rw [hc] at h
        rcases calledFor_action hc with ⟨hp, hq⟩ | ⟨hp, hq⟩ <;> rcases foundFor_action h with ⟨hs, hq'⟩ | ⟨hs, hq'⟩
        · exact absurd (hs.trans hp.symm) hsame
        · exact absurd hq hq'
        · exact absurd hq' hq
        · exact absurd (hs.trans hp.symm) hsame
    · rintro ⟨hc, hf⟩
      rw [hc, hf]

/-! ## What is stored -/

variable (cfg)

/-- the stored action between requests -/
structure Stores (memory : Option Action) (p : Pos) (info : RciInfo) : Prop where
  nested : p.Nested
  own : cfg.registered .startAction = true → ∀ x, p.action = some x → info.action = some x.1
  session : cfg.registered .startAction = false → cfg.registered .startSession = true → p.session = true →
    info.action = some .query
  memory : cfg.registered .startAction = false → cfg.registered .startSession = false → info.action = memory

variable {cfg}

theorem Stores.eq {memory : Option Action} {p : Pos} {info : RciInfo} (h : Stores cfg memory p info)
    (ha : p.action ≠ none) : info.action = storedAction cfg memory p := by
  obtain ⟨x, hx⟩ := Option.ne_none_iff_exists'.1 ha
  have hopen : p.session = true := by
    by_contra hn
    exact ha (h.nested.action (by simpa using hn))
  unfold storedAction
  split_ifs with h1 h2
  · rw [h.own h1 x hx, hx]; rfl
  · exact h.session (by simpa using h1) h2 hopen
  · exact h.memory (by simpa using h1) (by simpa using h2)

/-- with another action stored, or in another place that is inside what was open before -/
theorem Stores.mono {memory : Option Action} {p q : Pos} {info info' : RciInfo} (h : Stores cfg memory p info)
    (hq : q.Nested) (haction : ∀ x, q.action = some x → p.action = some x) (hsession : q.session = true → p.session = true)
    (hinfo : info'.action = info.action) : Stores cfg memory q info' where
  nested := hq
  own h1 x hx := hinfo.trans (h.own h1 x (haction x hx))
  session h1 h2 hs := hinfo.trans (h.session h1 h2 (hsession hs))
  memory h1 h2 := hinfo.trans (h.memory h1 h2)

/-- **Request.** The stored action is settled when a request is presented: by the start of a session or an action, if it has
its callback, and by no other request. -/
theorem carries_action (memory : Option Action) : Carries cfg (fun _ _ _ _ => True) (Stores cfg memory)
    (fun p id rc => Stores cfg memory (p.next id rc)) where
  present := by
    intro p info id rc h ha _ cb
    have hnested := h.nested.next ha
    by_cases hstart : id ≠ .sessionStart ∧ id ≠ .actionStart
    · obtain ⟨hact, -⟩ := queue_comparison cfg hstart rc (info.takenUp rc, cb)
      refine h.mono hnested (fun x hx => ?_) (fun hs => ?_) hact
      · cases id <;> simp_all [Pos.next]
      · cases id <;> simp_all [Pos.next]
    · rw [queue_info]
      obtain rfl | rfl : id = .sessionStart ∨ id = .actionStart := by
        by_contra hn
        exact hstart (not_or.1 hn)
      · have hclosed : p.action = none := h.nested.action ha
        refine ⟨hnested, fun _ x hx => ?_, fun _ h2 _ => ?_, fun h1 h2 => ?_⟩
        · have hx' : p.action = some x := hx
          simp [hclosed] at hx'
        · simp [Config.handles, RequestId.callback, h2, edit, startSession, RciInfo.clearTree, RciInfo.clearGroup,
            RciInfo.clearElement, RciInfo.clearAllLists_eq]
        · simpa [Config.handles, RequestId.callback, h2, RciInfo.takenUp] using h.memory h1 h2
      · refine ⟨hnested, fun h1 x hx => ?_, fun h1 h2 hs => ?_, fun h1 h2 => ?_⟩
        · obtain rfl := Option.some.inj hx
          simp only [Config.handles, RequestId.callback, Option.any_some, h1, if_true, edit, startAction,
            RciInfo.clearTree, RciInfo.clearGroup, RciInfo.clearElement, RciInfo.clearAllLists_eq]
          split_ifs <;> rfl
        · simpa [Config.handles, RequestId.callback, h1, RciInfo.takenUp] using h.session h1 h2 hs
        · simpa [Config.handles, RequestId.callback, h1, RciInfo.takenUp] using h.memory h1 h2
  returned := by
    intro p id rc info h u
    exact h.mono h.nested (fun _ hx => hx) (fun hs => hs) rfl
  finish := by
    intro p id rc info h
    exact h.mono h.nested (fun _ hx => hx) (fun hs => hs) (finish_action cfg id rc info).1

/-- the stored action in every run -/
theorem stores_run {s : St} (h : Init s) {ops : List Op} (hl : Along (step cfg) (Legal cfg) s ops)
    (hr : (run (step cfg) s ops).request = none) :
    Stores cfg s.svc.info.action (run (step cfg) s ops).pos (run (step cfg) s ops).svc.info := by
  have hidle : Stores cfg s.svc.info.action .start s.svc.info :=
    ⟨Pos.nested_start, fun _ _ hx => absurd hx (by simp [Pos.start]), fun _ _ hs => absurd hs (by simp [Pos.start]),
      fun _ _ => rfl⟩
  have hmeets : Along (step cfg) (Meets fun _ _ _ _ => True) s ops := by
    refine along_mono (fun t o _ => ?_) hl
    cases o <;> simp [Meets]
  obtain ⟨-, hholds⟩ := (carries_action s.svc.info.action).run h hidle hl hmeets
  simpa only [Holds, hr] using hholds

/-- a request that is presented stores the flag it gives -/
theorem submit_flag {s : St} (ht : Tidy s) (id : RequestId) (rc : RemoteConfig) :
    (step cfg s (.submit id rc)).svc.info.embedTransformedValues =
      (flagGiven cfg s (.submit id rc)).getD s.svc.info.embedTransformedValues := by
  by_cases hno : s.request.isSome ∨ id = .sessionCancel
  · have hnone : flagGiven cfg s (.submit id rc) = none := by
      cases id <;> simp_all [flagGiven, Option.isSome_iff_ne_none]
    simp only [step, if_pos hno, hnone, Option.getD_none]
  · obtain ⟨hr, hid⟩ : s.request = none ∧ id ≠ .sessionCancel := by simpa using hno
    have hs := (ht.rest hr).1
    have hinfo : (step cfg s (.submit id rc)).svc.info =
        (queue cfg id rc (s.svc.info.takenUp rc, s.svc.callback.clear)).1 := by
      cases hh : cfg.handles s.svc.info id with
      | false => rw [submit_skip cfg hr hid hs hh, queue_skip cfg hh]
      | true => rw [submit_queue cfg hr hid hs hh]; rfl
    rw [hinfo]
    by_cases hstart : id ≠ .sessionStart ∧ id ≠ .actionStart
    · have hnone : flagGiven cfg s (.submit id rc) = none := by cases id <;> simp_all [flagGiven]
      rw [(queue_comparison cfg hstart rc _).2.2.2, hnone]
      rfl
    · rw [queue_info]
      obtain rfl | rfl : id = .sessionStart ∨ id = .actionStart := by
        by_contra hn
        exact hstart (not_or.1 hn)
      · simp only [flagGiven, edit, startSession, RciInfo.clearTree, RciInfo.clearGroup, RciInfo.clearElement,
          RciInfo.clearAllLists_eq]
        split <;> rfl
      · cases hreg : cfg.registered .startAction with
        | false => simp [flagGiven, Config.handles, RequestId.callback, hreg, RciInfo.takenUp]
        | true =>
          simp only [flagGiven, Config.handles, RequestId.callback, Option.any_some, hreg, hr, if_true, edit, startAction,
            RciInfo.clearTree, RciInfo.clearGroup, RciInfo.clearElement, RciInfo.clearAllLists_eq, true_and]
          split_ifs <;> simp_all [RciInfo.takenUp]

theorem step_flag {s : St} (ht : Tidy s) {o : Op} (ho : o.NoCancel) : (step cfg s o).svc.info.embedTransformedValues =
    (flagGiven cfg s o).getD s.svc.info.embedTransformedValues := by
  cases o
  case cancel rc => exact absurd ho id
  case submit id rc => exact submit_flag ht id rc
  case poll =>
    cases hr : s.request with
    | none => simp [step, hr, flagGiven]
    | some r =>
      obtain ⟨hne, hid⟩ := ht.asked r hr
      cases hs : s.svc.status with
      | idle => exact absurd hs hne
      | cbQueued => rw [poll_busy cfg hr hid hs]; rfl
      | cbProcessed =>
        rw [poll_answer cfg hr hid hs]
        exact (finish_action cfg r.id r.rc s.svc.info).2.2
  case ret u =>
    cases hpc : s.pc <;> simp [step, flagGiven, hpc, RciInfo.returned]
  all_goals
    simp only [step]
    repeat' split
    all_goals rfl

/-- the stored flag in every run -/
theorem stored_flag {s : St} (h : Init s) {ops : List Op} (hl : Along (step cfg) (Legal cfg) s ops) :
    (run (step cfg) s ops).svc.info.embedTransformedValues = lastFlag cfg s ops :=
  run_writes (I := Tidy) (g := fun t => t.svc.info.embedTransformedValues) (fun _ _ ht ho => tidy_step cfg ht ho.noCancel)
    (fun _ _ ht ho => step_flag ht ho.noCancel) (tidy_init h) hl

/-! ## Runs -/

variable (cfg)

/-- what the request is said to have queued is what has been queued for it -/
theorem submit_queued {s : St} (ht : Tidy s) (hr : s.request = none) {id : RequestId} (rc : RemoteConfig)
    (hid : id = .elementProcess) : ∃ r, (step cfg s (.submit id rc)).request = some r ∧ r.id = .elementProcess ∧
      r.queued = elementQueues cfg rc s.svc.info s.svc.callback.clear ∧
      (step cfg s (.submit id rc)).pos = s.pos := by
  subst hid
  have hs := (ht.rest hr).1
  cases hh : cfg.handles s.svc.info .elementProcess with
  | false =>
    rw [submit_skip cfg hr (by simp) hs hh]
    have hnone : haveHandler cfg s.svc.info = false := hh
    exact ⟨_, rfl, rfl, by simp [elementQueues, hnone], rfl⟩
  | true =>
    rw [submit_queue cfg hr (by simp) hs hh]
    have hsome : haveHandler cfg s.svc.info = true := hh
    refine ⟨_, rfl, rfl, ?_, rfl⟩
    simp only [elementQueues, hsome, if_true, queued, queue]
    rw [queueElement_eq cfg (by exact hh)]
    rfl

/-- a step that presents no element for the first time leaves what has been queued -/
theorem dispatched_step {s : St} (ht : Tidy s) (h : Dispatched cfg s) {o : Op} (hl : Legal cfg s o)
    (ho : ∀ id rc, o = .submit id rc → s.request = none → id ≠ .elementProcess) : Dispatched cfg (step cfg s o) := by
  cases o
  case cancel rc => exact absurd hl id
  case submit id rc =>
    rcases submit_cases cfg ht id rc with hsame | ⟨hr, hid, hs⟩
    · rw [hsame]; exact h
    · have hne := ho id rc rfl hr
      cases hh : cfg.handles s.svc.info id with
      | false =>
        rw [submit_skip cfg hr hid hs hh]
        intro r hr' hel
        obtain rfl := Option.some.inj hr'
        exact absurd hel hne
      | true =>
        rw [submit_queue cfg hr hid hs hh]
        intro r hr' hel
        obtain rfl := Option.some.inj hr'
        exact absurd hel hne
  case poll =>
    cases hr : s.request with
    | none => simpa only [step, hr] using h
    | some r =>
      obtain ⟨hne, hid⟩ := ht.asked r hr
      cases hs : s.svc.status with
      | idle => exact absurd hs hne
      | cbQueued =>
        rw [poll_busy cfg hr hid hs]
        intro i hi hel
        obtain rfl := Option.some.inj hi
        exact h r hr hel
      | cbProcessed =>
        rw [poll_answer cfg hr hid hs]
        intro i hi
        simp at hi
  all_goals
    simp only [step]
    repeat' split
    all_goals exact h

/-- an element that is asked for queues what it calls for -/
def ElementsRight (s : St) : Op → Prop
  | .submit id rc => s.request = none ∧ id = .elementProcess →
    elementQueues cfg rc s.svc.info s.svc.callback.clear = calledFor cfg s.pos
  | _ => True

theorem dispatched_along {s : St} (h : Init s) {ops : List Op} (hl : Along (step cfg) (Legal cfg) s ops) :
    (∀ k, Dispatched cfg (run (step cfg) s (ops.take k))) ↔ Along (step cfg) (ElementsRight cfg) s ops := by
  refine along_iff_under (I := fun s => Tidy s ∧ Dispatched cfg s) (fun _ hi => hi.2) ?_ ?_
    ⟨tidy_init h, fun r hr => by simp [h.request.1] at hr⟩ hl
  · rintro s o ⟨ht, hd⟩ hlegal ho
    refine ⟨tidy_step cfg ht hlegal.noCancel, ?_⟩
    by_cases hel : ∃ rc, o = .submit .elementProcess rc ∧ s.request = none
    · obtain ⟨rc, rfl, hr⟩ := hel
      obtain ⟨r, hr', hid, hq, hp⟩ := submit_queued cfg ht hr rc rfl
      intro i hi _
      obtain rfl := Option.some.inj (hr'.symm.trans hi)
      rw [hq, hp]
      exact ho ⟨hr, rfl⟩
    · refine dispatched_step cfg ht hd hlegal fun id rc ho' hr hid => hel ⟨rc, ?_, hr⟩
      rw [ho', hid]
  · rintro s o ⟨ht, hd⟩ hlegal hafter
    cases o
    case submit id rc =>
      rintro ⟨hr, hid⟩
      obtain ⟨r, hr', hrid, hq, hp⟩ := submit_queued cfg ht hr rc hid
      have hqueued := hafter r hr' hrid
      rwa [hq, hp] at hqueued
    all_goals trivial

/-- **Dispatch.** For every set of callbacks, every memory and every well-nested run: every element queues exactly the
callback its enclosing action calls for, if and only if at each element the callbacks that are there and the requests and
user callbacks so far determine it. -/
theorem dispatched_iff {s : St} (h : Init s) {ops : List Op} (hl : Along (step cfg) (Legal cfg) s ops) :
    (∀ k, Dispatched cfg (run (step cfg) s (ops.take k))) ↔ Along past (ElementsDetermined cfg s) [] ops := by
  rw [dispatched_along cfg h hl]
  refine along_past (fun before o hbefore hlegal => ?_) hl
  cases o
  case submit id rc =>
    refine forall_congr' ?_
    rintro ⟨hr, rfl⟩
    have hstores := stores_run h hbefore hr
    -- an element is in a group, and so in an action
    have ha : (run (step cfg) s before).pos.action ≠ none := by
      intro hn
      have hgroup := (hlegal ⟨hr, by simp⟩).1
      simp [hstores.nested.group hn] at hgroup
    rw [elementQueues_eq, hstores.eq ha, stored_flag h hbefore]
    exact foundFor_iff
  all_goals exact Iff.rfl

/-- a set on settings whose attribute asks for transformed values -/
def RemoteConfig.embedding : RemoteConfig :=
  { RemoteConfig.plain with action := .set, attributes := ⟨.current, .none, true, none⟩ }

/-- an element in such a set, the user callbacks leaving the flag alone -/
def setsElement : List Op :=
  let u : UserResult := { UserResult.ok with embedTransformedValues := true }
  exchange .sessionStart .plain u ++ exchange .actionStart .embedding u ++ exchange .groupStart .embedding u ++
    [.submit .elementProcess .embedding]

theorem dispatched_set :
    (∀ k, Dispatched Config.all (run (step Config.all) (.fresh .zero) (setsElement.take k))) ∧
      calledFor Config.all (run (step Config.all) (.fresh .zero) setsElement).pos =
        some (.transform, some .setAndTransformElement) :=
  ⟨(dispatched_iff Config.all (init_fresh _) (by decide +kernel)).2 (by decide +kernel), by decide +kernel⟩

/-- every callback but start_action is there -/
def Config.noStartAction : Config := ⟨fun n => n ≠ .startAction, 1⟩

/-- in a set, get_element is queued: the stored action is the query the session starts with -/
theorem stale_action :
    Along (step Config.noStartAction) (Legal Config.noStartAction) (.fresh .zero) setsElement ∧
      ¬Dispatched Config.noStartAction (run (step Config.noStartAction) (.fresh .zero) setsElement) := by
  constructor <;> decide +kernel

end CcApi.Rci
