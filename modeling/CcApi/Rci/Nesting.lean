/-
Well-nested sequences of remote-config requests, and how a property of the instance record is carried along them.

The connector opens a session, in it actions, in a query or a set groups, in a group lists inside each other, and in all
of these elements; each request carries the path it is on. Collections are locked, set and unlocked on the level they are
on. A cancellation is not part of such a sequence.

- `Tidy`: without cancellations, what the service's fields have to do with each other.
- `Carries.run`: what each request carries from its start to its end holds along every run.
-/
import CcApi.Rci.Attribution

namespace CcApi.Rci

open Lib Lib.Runs

/-! ## The tree -/

/-- what identifies a group or a list: its id, its collection's type and which of its instances it is -/
abbrev Node := ℕ × Option CollectionType × Item

def Place.node (p : Place) : Node := (p.id, p.collectionType, p.item)

/-- where the connector is: the enclosing action with its group type and its embed attribute, the enclosing group, and the
lists that are open, outermost first -/
structure Pos where
  session : Bool
  action : Option (Action × GroupType × Bool)
  group : Option ℕ
  lists : List Node
deriving DecidableEq, Repr

namespace Pos

def start : Pos := ⟨false, none, none, []⟩

/-- the innermost list of a request's path -/
def innermost (rc : RemoteConfig) : Node := (rc.listLevel (RciInfo.listIndex rc)).node

/-- where the connector is once the request has been answered -/
def next (p : Pos) (id : RequestId) (rc : RemoteConfig) : Pos :=
  match id with
  | .sessionStart => { p with session := true }
  | .actionStart => { p with action := some (rc.action, rc.groupType, rc.attributes.embedTransformedValues) }
  | .groupStart => { p with group := some rc.group.id }
  | .listStart => { p with lists := p.lists ++ [innermost rc] }
  | .listEnd => { p with lists := p.lists.dropLast }
  | .groupEnd => { p with group := none, lists := [] }
  | .actionEnd => { p with action := none }
  | .sessionEnd => { p with session := false }
  | _ => p

/-- the action the connector is in is a -/
def In (p : Pos) (a : Action) : Prop := p.action.map Prod.fst = some a

instance (p : Pos) (a : Action) : Decidable (p.In a) := inferInstanceAs (Decidable (_ = _))

theorem In.ne_none {p : Pos} {a : Action} (h : p.In a) : p.action ≠ none := by
  intro hn
  simp [In, hn] at h

/-- a request on the path of the open lists, at the given depth -/
def OnPath (p : Pos) (rc : RemoteConfig) (depth : ℕ) : Prop :=
  p.group = some rc.group.id ∧ rc.listDepth = depth ∧
    p.lists = (List.range p.lists.length).map fun i => (rc.listLevel i).node

instance (p : Pos) (rc : RemoteConfig) (depth : ℕ) : Decidable (p.OnPath rc depth) := inferInstanceAs (Decidable (_ ∧ _))

/-- what the connector may ask next; collections are locked, set and unlocked when they are variable, and instances are
removed from dictionaries -/
def Allows (p : Pos) (maxDepth : ℕ) (id : RequestId) (rc : RemoteConfig) : Prop :=
  let atGroup := (p.In .query ∨ p.In .set) ∧ p.group = none ∧ rc.listDepth = 0
  let atList := p.OnPath rc (p.lists.length + 1) ∧ p.lists.length + 1 ≤ maxDepth
  let place := rc.listLevel (RciInfo.listIndex rc)
  match id with
  | .sessionStart => p.session = false
  | .actionStart => p.session = true ∧ p.action = none
  | .doCommand => p.In .doCommand
  | .reboot => p.In .reboot
  | .setFactoryDef => p.In .setFactoryDefaults
  | .groupInstancesLock | .groupInstancesSet | .groupInstancesUnlock => atGroup ∧ rc.group.Variable
  | .groupInstanceRemove => atGroup ∧ rc.group.collectionType = some .variableDictionary
  | .groupStart => atGroup
  | .listInstancesLock | .listInstancesSet | .listInstancesUnlock => atList ∧ place.Variable
  | .listInstanceRemove => atList ∧ place.collectionType = some .variableDictionary
  | .listStart => atList
  | .elementProcess => p.OnPath rc p.lists.length
  | .listEnd => p.OnPath rc p.lists.length ∧ p.lists ≠ []
  | .groupEnd => p.OnPath rc 0 ∧ p.lists = []
  | .actionEnd => p.action ≠ none ∧ p.group = none
  | .sessionEnd => p.session = true ∧ p.action = none
  | .sessionCancel => False

instance (p : Pos) (maxDepth : ℕ) (id : RequestId) (rc : RemoteConfig) : Decidable (p.Allows maxDepth id rc) := by
  cases id <;> unfold Allows <;> infer_instance

/-- nothing is open outside a session, an action, a group -/
structure Nested (p : Pos) : Prop where
  action : p.session = false → p.action = none
  group : p.action = none → p.group = none
  lists : p.group = none → p.lists = []
  /-- groups are in a query or a set -/
  tree : p.group ≠ none → p.In .query ∨ p.In .set

theorem nested_start : start.Nested := ⟨fun _ => rfl, fun _ => rfl, fun _ => rfl, fun h => absurd rfl h⟩

theorem Nested.next {p : Pos} (h : p.Nested) {maxDepth : ℕ} {id : RequestId} {rc : RemoteConfig}
    (ha : p.Allows maxDepth id rc) : (p.next id rc).Nested := by
  obtain ⟨h1, h2, h3, h4⟩ := h
  cases id <;> simp only [Allows] at ha <;> simp only [Pos.next]
  case sessionStart => exact ⟨fun hs => by simp at hs, h2, h3, h4⟩
  case actionStart =>
    exact ⟨fun hs => by simp [ha.1] at hs, fun hn => by simp at hn, h3, fun hg => absurd (h2 ha.2) hg⟩
  case groupStart =>
    exact ⟨h1, fun hn => absurd hn (ha.1.elim In.ne_none In.ne_none), fun hn => by simp at hn, fun _ => ha.1⟩
  case listStart => exact ⟨h1, h2, fun hn => by simp [ha.1.1] at hn, h4⟩
  case listEnd => exact ⟨h1, h2, fun hn => by simp [ha.1.1] at hn, h4⟩
  case groupEnd => exact ⟨h1, fun _ => rfl, fun _ => rfl, fun hg => absurd rfl hg⟩
  case actionEnd => exact ⟨fun _ => rfl, fun _ => ha.2, h3, fun hg => absurd ha.2 hg⟩
  case sessionEnd => exact ⟨fun _ => ha.2, h2, h3, h4⟩
  all_goals exact ⟨h1, h2, h3, h4⟩

end Pos

/-- where the connector is after what has been answered -/
def St.pos (s : St) : Pos := s.answers.foldl (fun p x => p.next x.request.id x.request.rc) .start

variable (cfg : Config)

/-- a well-nested sequence of requests, and no cancellation -/
def Legal (s : St) : Op → Prop
  | .submit id rc => s.request = none ∧ id ≠ .sessionCancel → s.pos.Allows cfg.listMaxDepth id rc
  | .cancel _ => False
  | _ => True

instance (s : St) : ∀ o, Decidable (Legal cfg s o)
  | .submit _ _ => inferInstanceAs (Decidable (_ ∧ _ → _))
  | .cancel _ => inferInstanceAs (Decidable False)
  | .poll | .stop | .wake | .read | .call | .ret _ | .store | .update => inferInstanceAs (Decidable True)

/-! ## Steps -/

/-- a new request with no callback -/
theorem submit_skip {s : St} {id : RequestId} {rc : RemoteConfig} (hr : s.request = none) (hid : id ≠ .sessionCancel)
    (hs : s.svc.status = .idle) (h : cfg.handles s.svc.info id = false) :
    step cfg s (.submit id rc) = { s with
      next := s.next + 1, svc := ⟨s.svc.info.takenUp rc, s.svc.callback.clear, .cbProcessed⟩,
      request := some ⟨s.next, id, rc, none, 1⟩ } := by
  have hnot : ¬(s.request.isSome ∨ id = .sessionCancel) := by simp [hr, hid]
  simp [step, hnot, present, handler_skip cfg hid hs h]

/-- what is queued for a new request -/
def queued (id : RequestId) (rc : RemoteConfig) (s : St) : RciInfo × Callback :=
  queue cfg id rc (s.svc.info.takenUp rc, s.svc.callback.clear)

/-- a new request with a callback -/
theorem submit_queue {s : St} {id : RequestId} {rc : RemoteConfig} (hr : s.request = none) (hid : id ≠ .sessionCancel)
    (hs : s.svc.status = .idle) (h : cfg.handles s.svc.info id = true) :
    let r : Request := ⟨s.next, id, rc, some ((queued cfg id rc s).2.type, (queued cfg id rc s).2.function), 1⟩
    step cfg s (.submit id rc) = { s with
      next := s.next + 1, svc := ⟨(queued cfg id rc s).1, (queued cfg id rc s).2, .cbQueued⟩, request := some r,
      lock := s.lock + 1, owner := some r } := by
  have hnot : ¬(s.request.isSome ∨ id = .sessionCancel) := by simp [hr, hid]
  simp [step, hnot, present, handler_queue cfg hid hs h, queued]

theorem poll_busy {s : St} {r : Request} (hr : s.request = some r) (hid : r.id ≠ .sessionCancel)
    (hs : s.svc.status = .cbQueued) :
    step cfg s .poll = { s with request := some { r with busy := r.busy + 1 } } := by
  simp [step, hr, present, handler_queued cfg hid hs]

/-- a processed request is answered -/
theorem poll_answer {s : St} {r : Request} (hr : s.request = some r) (hid : r.id ≠ .sessionCancel)
    (hs : s.svc.status = .cbProcessed) :
    step cfg s .poll = { s with
      svc := ⟨(finish cfg r.id s.svc.info r.rc).1, s.svc.callback.clear, .idle⟩, request := none, owner := none,
      answers := s.answers ++ [⟨r, (handler cfg r.id r.rc s.svc).2.2.1⟩] } := by
  simp [step, hr, present, handler_processed cfg hid hs]

/-- without cancellations, what the fields of the service have to do with each other -/
structure Tidy (s : St) : Prop where
  rest : s.request = none → s.svc.status = .idle ∧ s.svc.callback.type = .none
  asked : ∀ r, s.request = some r → s.svc.status ≠ .idle ∧ r.id ≠ .sessionCancel
  owner : s.svc.status = .cbQueued → ∃ o r, s.owner = some o ∧ s.request = some r ∧ o.id = r.id ∧ o.rc = r.rc
  working : s.pc.Working → s.svc.status = .cbQueued ∧ s.serving = s.owner
  serials : s.answers.map (fun x => x.request.serial) ++ (s.request.map Request.serial).toList = List.range s.next

theorem tidy_init {s : St} (h : Init s) : Tidy s := by
  obtain ⟨hs, ht, -, -, hpc, ⟨hr, -, -⟩, hn, -, -, ha⟩ := h
  refine ⟨fun _ => ⟨hs, ht⟩, fun r hr' => by simp [hr] at hr', fun hq => by simp [hs] at hq,
    fun hw => by simp [hpc, Pc.Working] at hw, by simp [hr, hn, ha]⟩

/-- no request is cancelled -/
def Op.NoCancel : Op → Prop
  | .cancel _ => False
  | _ => True

theorem Legal.noCancel {s : St} {o : Op} (h : Legal cfg s o) : o.NoCancel := by
  cases o <;> first | exact h | exact trivial

theorem submit_cases {s : St} (ht : Tidy s) (id : RequestId) (rc : RemoteConfig) :
    step cfg s (.submit id rc) = s ∨ (s.request = none ∧ id ≠ .sessionCancel ∧ s.svc.status = .idle) := by
  by_cases hid : s.request.isSome ∨ id = .sessionCancel
  · exact Or.inl (by simp only [step, if_pos hid])
  · obtain ⟨hr, hc⟩ : s.request = none ∧ id ≠ .sessionCancel := by simpa using hid
    exact Or.inr ⟨hr, hc, (ht.rest hr).1⟩

theorem tidy_step {s : St} (h : Tidy s) {o : Op} (ho : o.NoCancel) : Tidy (step cfg s o) := by
  cases o
  case cancel rc => exact absurd ho id
  case submit id rc =>
    rcases submit_cases cfg h id rc with hsame | ⟨hr, hid, hs⟩
    · rw [hsame]; exact h
    · have hidle : ¬s.pc.Working := fun hw => absurd (h.working hw).1 (by simp [hs])
      have hser : s.answers.map (fun x => x.request.serial) = List.range s.next := by simpa [hr] using h.serials
      cases hh : cfg.handles s.svc.info id with
      | false =>
        rw [submit_skip cfg hr hid hs hh]
        exact ⟨fun hn => by simp at hn, fun r hr' => by obtain rfl := Option.some.inj hr'; exact ⟨by simp, hid⟩,
          fun hq => by simp at hq, fun hw => absurd hw hidle, by simp [hser, List.range_succ]⟩
      | true =>
        rw [submit_queue cfg hr hid hs hh]
        exact ⟨fun hn => by simp at hn, fun r hr' => by obtain rfl := Option.some.inj hr'; exact ⟨by simp, hid⟩,
          fun _ => ⟨_, _, rfl, rfl, rfl, rfl⟩, fun hw => absurd hw hidle, by simp [hser, List.range_succ]⟩
  case poll =>
    cases hr : s.request with
    | none => simpa only [step, hr] using h
    | some r =>
      obtain ⟨hne, hid⟩ := h.asked r hr
      have hser := h.serials
      cases hs : s.svc.status with
      | idle => exact absurd hs hne
      | cbQueued =>
        rw [poll_busy cfg hr hid hs]
        obtain ⟨o, i, hown, hi, hoid, horc⟩ := h.owner hs
        obtain rfl := Option.some.inj (hr.symm.trans hi)
        exact ⟨fun hn => by simp at hn, fun i hi => by obtain rfl := Option.some.inj hi; exact ⟨hne, hid⟩,
          fun _ => ⟨o, _, hown, rfl, hoid, horc⟩, h.working, by simpa [hr] using hser⟩
      | cbProcessed =>
        rw [poll_answer cfg hr hid hs]
        exact ⟨fun _ => ⟨rfl, rfl⟩, fun i hi => by simp at hi, fun hq => by simp at hq,
          fun hw => absurd (h.working hw).1 (by simp [hs]), by simpa [hr] using hser⟩
  case stop =>
    simp only [step]
    split
    · exact h
    · exact ⟨h.rest, h.asked, h.owner, h.working, h.serials⟩
  case wake =>
    simp only [step]
    split
    · exact ⟨h.rest, h.asked, h.owner,
        fun hw => by cases hst : s.stopping <;> simp [hst, Pc.Working] at hw, h.serials⟩
    · exact h
  case read =>
    simp only [step]
    split
    · split
      · rename_i hq
        exact ⟨h.rest, h.asked, h.owner, fun _ => ⟨hq.1, rfl⟩, h.serials⟩
      · exact ⟨h.rest, h.asked, h.owner, fun hw => by simp [Pc.Working] at hw, h.serials⟩
    · exact h
  case call =>
    simp only [step]
    split
    · rename_i c hpc
      exact ⟨h.rest, h.asked, h.owner, fun _ => h.working (by simp [hpc, Pc.Working]), h.serials⟩
    · exact h
  case ret u =>
    simp only [step]
    split
    · rename_i hpc
      exact ⟨h.rest, h.asked, h.owner, fun _ => h.working (by simp [hpc, Pc.Working]), h.serials⟩
    · exact h
  case store =>
    simp only [step]
    split
    · rename_i e hpc
      exact ⟨h.rest, h.asked, h.owner, fun _ => h.working (by simp [hpc, Pc.Working]), h.serials⟩
    · exact h
  case update =>
    simp only [step]
    split
    · rename_i hpc
      have hq := (h.working (by simp [hpc, Pc.Working])).1
      refine ⟨fun hr => ?_, fun r hr => ⟨by simp [hq], (h.asked r hr).2⟩, fun hs => by simp [hq] at hs,
        fun hw => by cases hst : s.stopping <;> simp [hst, Pc.Working] at hw, h.serials⟩
      exact absurd (h.rest hr).1 (by simp [hq])
    · exact h

theorem present_calls (r : Request) (s : St) : (present cfg r s).calls = s.calls := by
  unfold present
  split
  · split <;> rfl
  · rfl

/-- only the call of a user callback is logged -/
theorem step_calls {s : St} {o : Op} (ho : o ≠ .call) : (step cfg s o).calls = s.calls := by
  cases o
  case call => exact absurd rfl ho
  case submit id rc =>
    simp only [step]
    split
    · rfl
    · exact present_calls cfg _ _
  case poll =>
    simp only [step]
    split
    · exact present_calls cfg _ _
    · rfl
  all_goals
    simp only [step]
    repeat' split
    all_goals rfl

/-! ## Carrying a property of the instance record -/

/-- queueing a request other than the start of a session or an action leaves the action, its comparison and the
embed flag alone -/
theorem queue_comparison {id : RequestId} (h : id ≠ .sessionStart ∧ id ≠ .actionStart) (rc : RemoteConfig)
    (p : RciInfo × Callback) :
    (queue cfg id rc p).1.action = p.1.action ∧ (queue cfg id rc p).1.groupType = p.1.groupType ∧
      (queue cfg id rc p).1.querySetting = p.1.querySetting ∧
      (queue cfg id rc p).1.embedTransformedValues = p.1.embedTransformedValues := by
  rw [queue_info]
  split_ifs
  · cases id
    case sessionStart => exact absurd rfl h.1
    case actionStart => exact absurd rfl h.2
    all_goals
      simp [edit, RciInfo.enterGroup, RciInfo.clearAllLists_eq, RciInfo.clearElement, RciInfo.enterList, RciInfo.atLevel,
        enterElement]
  · exact ⟨rfl, rfl, rfl, rfl⟩

/-- finishing a request leaves the action and the embed flag alone -/
theorem finish_action (id : RequestId) (rc : RemoteConfig) (info : RciInfo) :
    (finish cfg id info rc).1.action = info.action ∧ (finish cfg id info rc).1.groupType = info.groupType ∧
      (finish cfg id info rc).1.embedTransformedValues = info.embedTransformedValues := by
  cases id <;> simp only [finish, RciInfo.clearTree, RciInfo.clearGroup, RciInfo.clearElement, RciInfo.clearAllLists_eq,
    RciInfo.clearList, RciInfo.atLevel, and_self]
  all_goals split <;> exact ⟨rfl, rfl, rfl⟩

/-- Idle holds of the record between requests and Busy while one is worked on, as long as each request meets C when it is
presented: presenting, the user callback and finishing carry them on -/
structure Carries (C : Pos → RciInfo → RequestId → RemoteConfig → Prop) (Idle : Pos → RciInfo → Prop)
    (Busy : Pos → RequestId → RemoteConfig → RciInfo → Prop) : Prop where
  present : ∀ {p info id rc}, Idle p info → p.Allows cfg.listMaxDepth id rc → C p info id rc →
    ∀ cb, Busy p id rc (queue cfg id rc (info.takenUp rc, cb)).1
  returned : ∀ {p id rc info}, Busy p id rc info → ∀ u, Busy p id rc (info.returned u)
  finish : ∀ {p id rc info}, Busy p id rc info → Idle (p.next id rc) (finish cfg id info rc).1

/-- what holds of the instance record now -/
def Holds (Idle : Pos → RciInfo → Prop) (Busy : Pos → RequestId → RemoteConfig → RciInfo → Prop) (s : St) : Prop :=
  match s.request with
  | some r => Busy s.pos r.id r.rc s.svc.info
  | none => Idle s.pos s.svc.info

/-- a request that is presented for the first time meets C -/
def Meets (C : Pos → RciInfo → RequestId → RemoteConfig → Prop) (s : St) : Op → Prop
  | .submit id rc => s.request = none ∧ id ≠ .sessionCancel → C s.pos s.svc.info id rc
  | _ => True

section Carries

variable {cfg} {C : Pos → RciInfo → RequestId → RemoteConfig → Prop} {Idle : Pos → RciInfo → Prop}
  {Busy : Pos → RequestId → RemoteConfig → RciInfo → Prop}

theorem Carries.step (h : Carries cfg C Idle Busy) {s : St} (ht : Tidy s) (hs : Holds Idle Busy s) {o : Op}
    (hl : Legal cfg s o) (ho : Meets C s o) : Holds Idle Busy (step cfg s o) := by
  cases o
  case cancel rc => exact absurd hl id
  case submit id rc =>
    rcases submit_cases cfg ht id rc with hsame | ⟨hr, hid, hst⟩
    · rw [hsame]; exact hs
    · have hidle : Idle s.pos s.svc.info := by simpa only [Holds, hr] using hs
      have hbusy := h.present hidle (hl ⟨hr, hid⟩) (ho ⟨hr, hid⟩) s.svc.callback.clear
      cases hh : cfg.handles s.svc.info id with
      | false =>
        rw [submit_skip cfg hr hid hst hh]
        rw [queue_skip cfg hh] at hbusy
        exact hbusy
      | true =>
        rw [submit_queue cfg hr hid hst hh]
        exact hbusy
  case poll =>
    cases hr : s.request with
    | none => simpa only [CcApi.Rci.step, hr] using hs
    | some r =>
      obtain ⟨hne, hid⟩ := ht.asked r hr
      have hbusy : Busy s.pos r.id r.rc s.svc.info := by simpa only [Holds, hr] using hs
      cases hst : s.svc.status with
      | idle => exact absurd hst hne
      | cbQueued =>
        rw [poll_busy cfg hr hid hst]
        exact hbusy
      | cbProcessed =>
        rw [poll_answer cfg hr hid hst]
        simpa only [Holds, St.pos, List.foldl_append, List.foldl_cons, List.foldl_nil] using h.finish hbusy
  case ret u =>
    simp only [CcApi.Rci.step]
    split
    · rename_i hpc
      obtain ⟨-, r, -, hr, -⟩ := ht.owner (ht.working (by simp [hpc, Pc.Working])).1
      have hbusy : Busy s.pos r.id r.rc s.svc.info := by simpa only [Holds, hr] using hs
      simp only [Holds, hr]
      exact h.returned hbusy u
    · exact hs
  all_goals
    simp only [CcApi.Rci.step]
    repeat' split
    all_goals exact hs

/-- **Run.** -/
theorem Carries.run (h : Carries cfg C Idle Busy) {s : St} (hi : Init s) (hs : Idle .start s.svc.info) {ops : List Op}
    (hl : Along (CcApi.Rci.step cfg) (Legal cfg) s ops) (ho : Along (CcApi.Rci.step cfg) (Meets C) s ops) :
    Tidy (Runs.run (CcApi.Rci.step cfg) s ops) ∧ Holds Idle Busy (Runs.run (CcApi.Rci.step cfg) s ops) := by
  have hstep : ∀ s o, Tidy s ∧ Holds Idle Busy s → Legal cfg s o ∧ Meets C s o →
      Tidy (CcApi.Rci.step cfg s o) ∧ Holds Idle Busy (CcApi.Rci.step cfg s o) :=
    fun s o h' ho' => ⟨tidy_step cfg h'.1 ho'.1.noCancel, h.step h'.1 h'.2 ho'.1 ho'.2⟩
  refine Runs.run_inv hstep ⟨tidy_init hi, ?_⟩ (along_and.2 ⟨hl, ho⟩)
  simpa only [Holds, St.pos, hi.request.1, hi.history.2.2.2, List.foldl_nil] using hs

/-- **Calls.** What a request carries is there in every call of a user callback for it. -/
theorem Carries.calls (h : Carries cfg C Idle Busy) {Q : RequestId → RemoteConfig → RciInfo → Prop}
    (hQ : ∀ {p id rc info}, Busy p id rc info → Q id rc info) {s : St} (hi : Init s) (hs : Idle .start s.svc.info)
    {ops : List Op} (hl : Along (CcApi.Rci.step cfg) (Legal cfg) s ops)
    (ho : Along (CcApi.Rci.step cfg) (Meets C) s ops) :
    ∀ k ∈ (Runs.run (CcApi.Rci.step cfg) s ops).calls, ∃ r, k.request = some r ∧ Q r.id r.rc k.info := by
  have hstep : ∀ s o, (Tidy s ∧ Holds Idle Busy s) ∧ (∀ k ∈ s.calls, ∃ r, k.request = some r ∧ Q r.id r.rc k.info) →
      Legal cfg s o ∧ Meets C s o → (Tidy (CcApi.Rci.step cfg s o) ∧ Holds Idle Busy (CcApi.Rci.step cfg s o)) ∧
        ∀ k ∈ (CcApi.Rci.step cfg s o).calls, ∃ r, k.request = some r ∧ Q r.id r.rc k.info := by
    rintro s o ⟨⟨ht, hh⟩, hc⟩ ⟨hlegal, hmeets⟩
    refine ⟨⟨tidy_step cfg ht hlegal.noCancel, h.step ht hh hlegal hmeets⟩, ?_⟩
    by_cases hcall : o = .call
    · subst hcall
      simp only [CcApi.Rci.step]
      split
      · rename_i c hpc
        obtain ⟨hst, hserv⟩ := ht.working (by simp [hpc, Pc.Working])
        obtain ⟨i, r, hown, hr, hid, hrc⟩ := ht.owner hst
        have hbusy : Busy s.pos r.id r.rc s.svc.info := by simpa only [Holds, hr] using hh
        intro k hk
        rcases List.mem_append.1 hk with hk | hk
        · exact hc k hk
        · rw [List.mem_singleton.1 hk]
          exact ⟨i, hserv.trans hown, by rw [hid, hrc]; exact hQ hbusy⟩
      · exact hc
    · have hsame : (CcApi.Rci.step cfg s o).calls = s.calls := step_calls cfg hcall
      rw [hsame]
      exact hc
  refine (Runs.run_inv hstep ⟨⟨tidy_init hi, ?_⟩, ?_⟩ (along_and.2 ⟨hl, ho⟩)).2
  · simpa only [Holds, St.pos, hi.request.1, hi.history.2.2.2, List.foldl_nil] using hs
  · simp [hi.history.2.1]

end Carries

/-! ## One request after the other -/

/-- between requests, the worker waiting -/
structure Rest (s : St) : Prop where
  request : s.request = none
  status : s.svc.status = .idle
  pc : s.pc = .waiting
  lock : s.lock = 0
  stopping : s.stopping = false

/-- one turn of the worker -/
def turn (u : UserResult) : List Op := [.wake, .read, .call, .ret u, .store, .update]

/-- a request, the worker's turn, and the request again -/
def exchange (id : RequestId) (rc : RemoteConfig) (u : UserResult) : List Op := .submit id rc :: (turn u ++ [.poll])

/-- what a whole request does to the instance record -/
def exchanged (id : RequestId) (rc : RemoteConfig) (u : UserResult) (info : RciInfo) : RciInfo :=
  (finish cfg id (if cfg.handles info id then (edit cfg rc id (info.takenUp rc)).returned u else info.takenUp rc) rc).1

/-- a request from rest to rest -/
theorem exchange_run {s : St} (h : Rest s) (id : RequestId) (rc : RemoteConfig) (hid : id ≠ .sessionCancel)
    (hgiven : cfg.handles s.svc.info id = true → PointersGiven cfg s.svc.info s.svc.callback.second id rc)
    (u : UserResult) :
    let t := run (step cfg) s (exchange id rc u)
    Rest t ∧ t.svc.info = exchanged cfg id rc u s.svc.info ∧ t.pos = s.pos.next id rc := by
  obtain ⟨hr, hs, hpc, hl, hst⟩ := h
  have hinfo : (queue cfg id rc (s.svc.info.takenUp rc, s.svc.callback.clear)).1 = _ := queue_info cfg id
  have hsame : cfg.handles (s.svc.info.takenUp rc) id = cfg.handles s.svc.info id := rfl
  simp only [exchange, turn, List.cons_append, List.nil_append, run_cons, run_nil]
  cases hh : cfg.handles s.svc.info id with
  | false =>
    rw [submit_skip cfg hr hid hs hh]
    simp only [step, hpc, hl, present, handler_processed cfg hid, exchanged, hh]
    exact ⟨⟨rfl, rfl, rfl, rfl, hst⟩, rfl, by simp [St.pos]⟩
  | true =>
    have hrun : (queued cfg id rc s).2.runnable = true := (queue_runnable cfg hh).2 (by cases id <;> exact hgiven hh)
    rw [submit_queue cfg hr hid hs hh]
    have hq : (queued cfg id rc s).1 = edit cfg rc id (s.svc.info.takenUp rc) := by
      simpa only [queued, hsame, hh, if_true] using hinfo
    simp only [step, hpc, hl, hst, hrun, present, handler_processed cfg hid, exchanged, hh, hq, Bool.false_eq_true,
      if_false, and_self, if_true]
    exact ⟨⟨rfl, rfl, rfl, rfl, rfl⟩, trivial, by simp [St.pos]⟩

theorem legal_exchange {s : St} {id : RequestId} {rc : RemoteConfig} {u : UserResult}
    (h : s.pos.Allows cfg.listMaxDepth id rc) : Along (step cfg) (Legal cfg) s (exchange id rc u) :=
  ⟨fun _ => h, trivial, trivial, trivial, trivial, trivial, trivial, trivial, trivial⟩

end CcApi.Rci
