/-
The position a user callback is told (`rci_info`, `ccapi_rci_handler.c`), with every callback registered.

The record is built up request by request. The ids of the lists are never copied into it; the requests that set instances
and those that end a list or a group leave fields as the requests before them left them.

- `calls_describe`: in which runs every call for a group, a list or an element is told the position of its request.
- `told_elsewhere`: two runs that tell another position.
-/
import CcApi.Rci.Bounds

namespace CcApi.Rci

open Lib Lib.Runs

/-! ## Positions -/

/-- requests about a group, a list or an element -/
def RequestId.OfTree : RequestId → Prop
  | .groupInstancesLock | .groupInstancesSet | .groupInstanceRemove | .groupInstancesUnlock | .groupStart
  | .listInstancesLock | .listInstancesSet | .listInstanceRemove | .listInstancesUnlock | .listStart
  | .elementProcess | .listEnd | .groupEnd => True
  | _ => False

instance (id : RequestId) : Decidable id.OfTree := by cases id <;> simp only [RequestId.OfTree] <;> infer_instance

/-- how many of a request's levels are lists that have started -/
def RequestId.started (id : RequestId) (rc : RemoteConfig) : ℕ :=
  match id with
  | .listInstancesLock | .listInstancesSet | .listInstanceRemove | .listInstancesUnlock => rc.listDepth - 1
  | _ => rc.listDepth

/-- the same instance of a collection of type t -/
def Item.Same (t : Option CollectionType) (a b : Item) : Prop :=
  match t with
  | some .fixedArray | some .variableArray => a.getIndex = b.getIndex
  | some .fixedDictionary | some .variableDictionary => a.getKey = b.getKey
  | none => True

instance (t : Option CollectionType) (a b : Item) : Decidable (Item.Same t a b) := by
  unfold Item.Same
  split <;> infer_instance

/-- the record describes the position of the request -/
structure Describes (id : RequestId) (rc : RemoteConfig) (info : RciInfo) : Prop where
  group : info.group.id = rc.group.id
  depth : info.list.depth = rc.listDepth
  ids : ∀ i < rc.listDepth, (info.list.data i).id = (rc.listLevel i).id
  types : ∀ i < rc.listDepth, (info.list.data i).collectionType = (rc.listLevel i).collectionType
  instances : ∀ i < id.started rc,
    Item.Same (rc.listLevel i).collectionType (info.list.data i).item (rc.listLevel i).item
  element : info.element.id = if id = .elementProcess then rc.element.id else 0

/-- every list of the path has id 0, and what the request does not write is as the request has it: a set of instances finds
its collection in the record, and the end of a list or a group finds no element (nor an ended list) left -/
def Kept (info : RciInfo) (id : RequestId) (rc : RemoteConfig) : Prop :=
  (id.OfTree → ∀ i < rc.listDepth, (rc.listLevel i).id = 0) ∧
  match id with
  | .groupInstancesSet => info.group.id = rc.group.id
  | .listInstancesSet => info.list.depth = rc.listDepth ∧ info.element.id = 0 ∧
      (info.list.data (RciInfo.listIndex rc)).collectionType = (rc.listLevel (RciInfo.listIndex rc)).collectionType
  | .listEnd => info.element.id = 0
  | .groupEnd => info.list.depth = 0 ∧ info.element.id = 0
  | _ => True

instance (info : RciInfo) (id : RequestId) (rc : RemoteConfig) : Decidable (Kept info id rc) := by
  cases id <;> unfold Kept <;> infer_instance

/-! ## The levels -/

@[simp] theorem Place.clear_id (p : Place) : p.clear.id = 0 := by
  unfold Place.clear Place.clearItem
  split <;> rfl

@[simp] theorem Place.copyItem_id (p : Place) (item : Item) : (p.copyItem item).id = p.id := by
  unfold Place.copyItem
  split <;> rfl

@[simp] theorem Place.copyItem_type (p : Place) (item : Item) : (p.copyItem item).collectionType = p.collectionType := by
  unfold Place.copyItem
  split <;> rfl

theorem Place.copyItem_same (p : Place) (item : Item) : Item.Same p.collectionType (p.copyItem item).item item := by
  unfold Place.copyItem Item.Same
  rcases p.collectionType with _ | t
  · trivial
  · cases t <;> rfl

@[simp] theorem Place.setInstances_id (p : Place) (item : Item) : (p.setInstances item).id = p.id := by
  unfold Place.setInstances
  split <;> rfl

@[simp] theorem Place.setInstances_type (p : Place) (item : Item) :
    (p.setInstances item).collectionType = p.collectionType := by
  unfold Place.setInstances
  split <;> rfl

/-- level i of the record stands for a list that has started -/
def LevelOf (n : Node) (p : Place) : Prop := p.collectionType = n.2.1 ∧ Item.Same n.2.1 p.item n.2.2

variable (cfg : Config)

/-- the record between requests -/
structure Placed (p : Pos) (info : RciInfo) : Prop where
  nested : p.Nested
  lists : p.lists.length ≤ cfg.listMaxDepth
  /-- the ids of the levels are cleared when a session starts and never written -/
  ids : p.session = true → ∀ i < cfg.listMaxDepth, (info.list.data i).id = 0
  outside : p.action ≠ none → p.group = none → info.list.depth = 0 ∧ info.element.id = 0
  inside : ∀ g, p.group = some g → info.group.id = g
  levels : ∀ i (hi : i < p.lists.length), LevelOf (p.lists.get ⟨i, hi⟩) (info.list.data i)
  action : ∀ a, p.In a → info.action = some a

/-- the record while a request is worked on: the same for the position it leads to, but for what finishing clears -/
structure PlacedRequest (p : Pos) (id : RequestId) (rc : RemoteConfig) (info : RciInfo) : Prop where
  nested : p.Nested
  lists : p.lists.length ≤ cfg.listMaxDepth
  allowed : p.Allows cfg.listMaxDepth id rc
  ids : (p.next id rc).session = true → ∀ i < cfg.listMaxDepth, (info.list.data i).id = 0
  outside : (p.next id rc).action ≠ none → (p.next id rc).group = none → id = .groupEnd ∨
    info.list.depth = 0 ∧ info.element.id = 0
  inside : ∀ g, (p.next id rc).group = some g → info.group.id = g
  levels : ∀ i (hi : i < (p.next id rc).lists.length), LevelOf ((p.next id rc).lists.get ⟨i, hi⟩) (info.list.data i)
  action : ∀ a, (p.next id rc).In a → info.action = some a
  describes : id.OfTree → Describes id rc info

/-- the levels of a request on the path are those of the open lists -/
theorem Pos.OnPath.level {p : Pos} {rc : RemoteConfig} {d : ℕ} (h : p.OnPath rc d) {i : ℕ} (hi : i < p.lists.length) :
    p.lists.get ⟨i, hi⟩ = (rc.listLevel i).node := by
  have hl := h.2.2
  have hget : p.lists[i]? = some (rc.listLevel i).node := by
    rw [hl]
    simp [hi]
  simpa [List.getElem?_eq_getElem hi] using hget

/-! ## Requests -/

section Requests

variable {cfg} {p : Pos} {info : RciInfo} {id : RequestId} {rc : RemoteConfig}

/-- a request that names a group -/
theorem Placed.enterGroup (h : Placed cfg p info) {f : Place → Place} (hf : ∀ g, (f g).id = g.id)
    (ha : p.Allows cfg.listMaxDepth id rc) (hg : p.group = none) (hd : rc.listDepth = 0)
    (hid : id ≠ .elementProcess) (hin : (p.next id rc).group = none ∨ (p.next id rc).group = some rc.group.id)
    (hnext : (p.next id rc).lists = p.lists ∧ (p.next id rc).action = p.action ∧ (p.next id rc).session = p.session) :
    PlacedRequest cfg p id rc (info.enterGroup cfg.listMaxDepth rc f) := by
  have hlists : p.lists = [] := h.nested.lists hg
  have hgroup : (info.enterGroup cfg.listMaxDepth rc f).group.id = rc.group.id := by
    simp [RciInfo.enterGroup, RciInfo.clearAllLists_eq, RciInfo.clearElement, hf]
  have hdepth : (info.enterGroup cfg.listMaxDepth rc f).list.depth = 0 := by
    simp [RciInfo.enterGroup, RciInfo.clearAllLists_eq, RciInfo.clearElement]
  refine ⟨h.nested, h.lists, ha, fun _ i hi => ?_, fun _ _ => Or.inr ⟨hdepth, rfl⟩, fun g hg' => ?_, fun i hi => ?_,
    fun a hin' => ?_, fun _ => ⟨hgroup, hdepth.trans hd.symm, ?_, ?_, ?_, ?_⟩⟩
  · simp [RciInfo.enterGroup, RciInfo.clearAllLists_eq, RciInfo.clearElement, hi]
  · rcases hin with hin | hin
    · simp [hin] at hg'
    · rw [hgroup]
      exact Option.some.inj (hin.symm.trans hg')
  · simp [hnext.1, hlists] at hi
  · have hact := h.action a (by simpa only [Pos.In, hnext.2.1] using hin')
    simpa [RciInfo.enterGroup, RciInfo.clearAllLists_eq, RciInfo.clearElement] using hact
  · simp [hd]
  · simp [hd]
  · cases id <;> simp [RequestId.started, hd]
  · simp [hid, RciInfo.enterGroup, RciInfo.clearElement]

/-- a request that names a list -/
theorem Placed.enterList (h : Placed cfg p info) (hmax : cfg.listMaxDepth < 2 ^ 32) {f : Place → Place}
    (hf : ∀ l, (f l).id = l.id ∧ (f l).collectionType = l.collectionType) (ha : p.Allows cfg.listMaxDepth id rc)
    (hpath : p.OnPath rc (p.lists.length + 1) ∧ p.lists.length + 1 ≤ cfg.listMaxDepth)
    (hids : ∀ i < rc.listDepth, (rc.listLevel i).id = 0) (hid : id ≠ .elementProcess)
    (hnext : (p.next id rc).group = p.group ∧ (p.next id rc).action = p.action ∧ (p.next id rc).session = p.session)
    (hlists : ((p.next id rc).lists = p.lists ∧ id.started rc = p.lists.length) ∨
      ((p.next id rc).lists = p.lists ++ [Pos.innermost rc] ∧ id.started rc = rc.listDepth ∧
        ∀ l, Item.Same l.collectionType (f l).item (rc.listLevel (RciInfo.listIndex rc)).item)) :
    PlacedRequest cfg p id rc (info.enterList rc f) := by
  obtain ⟨hon, hlt⟩ := hpath
  have hidx := listIndex_eq cfg hmax ⟨hon, hlt⟩
  have hsession : p.session = true := by
    by_contra hs
    have := h.nested.lists_nil (Or.inl (by simpa using hs))
    have hg := h.nested.group (h.nested.action (by simpa using hs))
    simp [hon.1] at hg
  -- the levels but the request's own are as they were
  have hother : ∀ i, i ≠ p.lists.length → (info.enterList rc f).list.data i = info.list.data i := by
    intro i hi
    rw [← hidx] at hi
    simp [RciInfo.enterList, RciInfo.atLevel, RciInfo.clearElement, hi]
  have hown : ((info.enterList rc f).list.data p.lists.length).id = (info.list.data p.lists.length).id ∧
      ((info.enterList rc f).list.data p.lists.length).collectionType = (rc.listLevel p.lists.length).collectionType := by
    rw [← hidx]
    simp [RciInfo.enterList, RciInfo.atLevel, RciInfo.clearElement, hf]
  have hzero : ∀ i < cfg.listMaxDepth, ((info.enterList rc f).list.data i).id = 0 := by
    intro i hi
    by_cases hi' : i = p.lists.length
    · rw [hi', hown.1, h.ids hsession _ (by omega)]
    · rw [hother i hi', h.ids hsession i hi]
  have hold : ∀ i (hi : i < p.lists.length), LevelOf (rc.listLevel i).node ((info.enterList rc f).list.data i) := by
    intro i hi
    rw [hother i hi.ne, ← hon.level hi]
    exact h.levels i hi
  have hdepth : rc.listDepth = p.lists.length + 1 := hon.2.1
  refine ⟨h.nested, h.lists, ha, fun _ => hzero, fun _ hg => ?_, fun g hg => ?_, fun i hi => ?_, fun a hin => ?_,
    fun _ => ⟨?_, rfl, fun i hi => ?_, fun i hi => ?_, fun i hi => ?_, ?_⟩⟩
  · simp [hnext.1, hon.1] at hg
  · exact h.inside g (hnext.1.symm.trans hg)
  · rcases hlists with ⟨hl, -⟩ | ⟨hl, -, hsame⟩
    · have hi' : i < p.lists.length := by simpa [hl] using hi
      have hget : (p.next id rc).lists.get ⟨i, hi⟩ = p.lists.get ⟨i, hi'⟩ := by simp [hl]
      rw [hget, hon.level hi']
      exact hold i hi'
    · by_cases hi' : i < p.lists.length
      · have hget : (p.next id rc).lists.get ⟨i, hi⟩ = p.lists.get ⟨i, hi'⟩ := by simp [hl, hi']
        rw [hget, hon.level hi']
        exact hold i hi'
      · obtain rfl : i = p.lists.length := by
          simp [hl] at hi
          omega
        have hget : (p.next id rc).lists.get ⟨p.lists.length, hi⟩ = Pos.innermost rc := by simp [hl]
        rw [hget]
        refine ⟨by rw [hown.2, Pos.innermost, hidx]; rfl, ?_⟩
        have := hsame { info.list.data (RciInfo.listIndex rc) with
          collectionType := (rc.listLevel (RciInfo.listIndex rc)).collectionType }
        rw [← hidx]
        simpa [RciInfo.enterList, RciInfo.atLevel, RciInfo.clearElement, Pos.innermost, Place.node] using this
  · exact h.action a (by simpa only [Pos.In, hnext.2.1] using hin)
  · exact h.inside _ hon.1
  · rw [hzero i (by omega), hids i hi]
  · by_cases hi' : i = p.lists.length
    · rw [hi', hown.2]
    · exact (hold i (by omega)).1
  · rcases hlists with ⟨-, hst⟩ | ⟨hl, hst, hsame⟩
    · exact (hold i (by omega)).2
    · by_cases hi' : i < p.lists.length
      · exact (hold i hi').2
      · obtain rfl : i = p.lists.length := by omega
        have := hsame { info.list.data (RciInfo.listIndex rc) with
          collectionType := (rc.listLevel (RciInfo.listIndex rc)).collectionType }
        rw [← hidx]
        simpa [RciInfo.enterList, RciInfo.atLevel, RciInfo.clearElement] using this
  · simp [hid, RciInfo.enterList, RciInfo.clearElement]

theorem Placed.takenUp (h : Placed cfg p info) : Placed cfg p (info.takenUp rc) :=
  ⟨h.nested, h.lists, h.ids, h.outside, h.inside, h.levels, h.action⟩

/-- in a group there is a callback for every element -/
theorem Placed.handles (h : Placed cfg p info) (hall : ∀ n, cfg.registered n = true)
    (hid : id = .elementProcess → p.group ≠ none) (hc : id ≠ .sessionCancel) : cfg.handles info id = true := by
  cases id
  case elementProcess =>
    have hact : info.action = some .query ∨ info.action = some .set :=
      (h.nested.tree (hid rfl)).imp (h.action _) (h.action _)
    simpa [Config.handles, haveHandler, hall] using hact
  case sessionCancel => exact absurd rfl hc
  all_goals simp [Config.handles, RequestId.callback, hall]

/-- a request that writes neither the group nor the lists nor the element, and leads nowhere else -/
theorem Placed.stay (h : Placed cfg p info) (ha : p.Allows cfg.listMaxDepth id rc)
    (hnext : (p.next id rc).group = p.group ∧ (p.next id rc).lists = p.lists)
    (hsession : (p.next id rc).session = true → p.session = true)
    (haction : (p.next id rc).action = p.action ∨ (p.next id rc).action = none) {info' : RciInfo}
    (hsame : info'.group.id = info.group.id ∧ info'.list.depth = info.list.depth ∧ info'.list.data = info.list.data ∧
      info'.element.id = info.element.id ∧ info'.action = info.action)
    (hdesc : id.OfTree → Describes id rc info') : PlacedRequest cfg p id rc info' := by
  obtain ⟨hg, hd, hdata, he, hact⟩ := hsame
  refine ⟨h.nested, h.lists, ha, fun hs => ?_, fun hne hn => Or.inr ?_, fun g hg' => ?_, fun i hi => ?_, fun a hin => ?_,
    hdesc⟩
  · rw [hdata]
    exact h.ids (hsession hs)
  · rw [hd, he]
    rcases haction with haction | haction
    · exact h.outside (haction ▸ hne) (hnext.1 ▸ hn)
    · exact absurd haction hne
  · rw [hg]
    exact h.inside g (hnext.1 ▸ hg')
  · have hi' : i < p.lists.length := by simpa [hnext.2] using hi
    have hget : (p.next id rc).lists.get ⟨i, hi⟩ = p.lists.get ⟨i, hi'⟩ := by simp [hnext.2]
    rw [hget, hdata]
    exact h.levels i hi'
  · rw [hact]
    rcases haction with haction | haction
    · exact h.action a (by simpa only [Pos.In, haction] using hin)
    · simp [Pos.In, haction] at hin

/-- the levels of a request on the path of the open lists, all of them started -/
theorem Placed.onPath (h : Placed cfg p info) (hon : p.OnPath rc p.lists.length)
    (hids : ∀ i < rc.listDepth, (rc.listLevel i).id = 0) {i : ℕ} (hi : i < rc.listDepth) :
    (info.list.data i).id = (rc.listLevel i).id ∧
      (info.list.data i).collectionType = (rc.listLevel i).collectionType ∧
      Item.Same (rc.listLevel i).collectionType (info.list.data i).item (rc.listLevel i).item := by
  have hi' : i < p.lists.length := hon.2.1 ▸ hi
  have hsession : p.session = true := by
    by_contra hs
    have hg := h.nested.group (h.nested.action (by simpa using hs))
    simp [hon.1] at hg
  have hlevel := h.levels i hi'
  rw [hon.level hi'] at hlevel
  refine ⟨?_, hlevel⟩
  rw [h.ids hsession i (hi'.trans_le h.lists), hids i hi]

theorem Placed.element (h : Placed cfg p info) (ha : p.Allows cfg.listMaxDepth .elementProcess rc)
    (hids : ∀ i < rc.listDepth, (rc.listLevel i).id = 0) :
    PlacedRequest cfg p .elementProcess rc (enterElement rc info) := by
  have hon : p.OnPath rc p.lists.length := ha
  exact ⟨h.nested, h.lists, ha, h.ids, fun _ hg => by simp [Pos.next, hon.1] at hg, h.inside, h.levels, h.action,
    fun _ => ⟨h.inside _ hon.1, rfl, fun i hi => (h.onPath hon hids hi).1, fun i hi => (h.onPath hon hids hi).2.1,
      fun i hi => (h.onPath hon hids hi).2.2, by simp [enterElement]⟩⟩

theorem Placed.listEnd (h : Placed cfg p info) (ha : p.Allows cfg.listMaxDepth .listEnd rc)
    (hids : ∀ i < rc.listDepth, (rc.listLevel i).id = 0) (hel : info.element.id = 0) :
    PlacedRequest cfg p .listEnd rc { info with list := { info.list with depth := rc.listDepth } } := by
  have hon : p.OnPath rc p.lists.length := ha.1
  refine ⟨h.nested, h.lists, ha, h.ids, fun _ hg => by simp [Pos.next, hon.1] at hg, h.inside, fun i hi => ?_, h.action,
    fun _ => ⟨h.inside _ hon.1, rfl, fun i hi => (h.onPath hon hids hi).1, fun i hi => (h.onPath hon hids hi).2.1,
      fun i hi => (h.onPath hon hids hi).2.2, by simpa using hel⟩⟩
  have hi' : i < p.lists.length := by
    simp [Pos.next] at hi
    omega
  have hget : (p.next .listEnd rc).lists.get ⟨i, hi⟩ = p.lists.get ⟨i, hi'⟩ := by simp [Pos.next]
  rw [hget]
  exact h.levels i hi'

theorem Placed.setLists (h : Placed cfg p info) (hmax : cfg.listMaxDepth < 2 ^ 32)
    (ha : p.Allows cfg.listMaxDepth .listInstancesSet rc) (hk : Kept info .listInstancesSet rc) :
    PlacedRequest cfg p .listInstancesSet rc (info.atLevel (RciInfo.listIndex rc) fun l =>
      l.setInstances (rc.listLevel (RciInfo.listIndex rc)).item) := by
  obtain ⟨hids, hdepth, hel, htype⟩ := hk
  obtain ⟨hon, hlt⟩ := ha.1
  have hidx := listIndex_eq cfg hmax ⟨hon, hlt⟩
  have hsession : p.session = true := by
    by_contra hs
    have hg := h.nested.group (h.nested.action (by simpa using hs))
    simp [hon.1] at hg
  rw [hidx] at htype ⊢
  have hsame : ∀ i, ((info.atLevel p.lists.length fun l => l.setInstances (rc.listLevel p.lists.length).item).list.data
      i).id = (info.list.data i).id ∧ ((info.atLevel p.lists.length fun l =>
        l.setInstances (rc.listLevel p.lists.length).item).list.data i).collectionType =
          (info.list.data i).collectionType := by
    intro i
    by_cases hi : i = p.lists.length <;> simp [RciInfo.atLevel, hi]
  have hother : ∀ i, i ≠ p.lists.length → (info.atLevel p.lists.length fun l =>
      l.setInstances (rc.listLevel p.lists.length).item).list.data i = info.list.data i := by
    intro i hi
    simp [RciInfo.atLevel, hi]
  have hd : rc.listDepth = p.lists.length + 1 := hon.2.1
  have hold : ∀ i (hi : i < p.lists.length), LevelOf (rc.listLevel i).node (info.list.data i) := by
    intro i hi
    rw [← hon.level hi]
    exact h.levels i hi
  refine ⟨h.nested, h.lists, ha, fun hs i hi => ?_, fun _ hg => by simp [Pos.next, hon.1] at hg, h.inside,
    fun i hi => ?_, h.action, fun _ => ⟨h.inside _ hon.1, hdepth, fun i hi => ?_, fun i hi => ?_, fun i hi => ?_,
      by simpa [RciInfo.atLevel] using hel⟩⟩
  · rw [(hsame i).1, h.ids hsession i hi]
  · have hi' : i < p.lists.length := hi
    rw [hother i hi'.ne]
    exact h.levels i hi'
  · rw [(hsame i).1, h.ids hsession i (by omega), hids trivial i hi]
  · rw [(hsame i).2]
    by_cases hi' : i = p.lists.length
    · rw [hi', htype]
    · exact (hold i (by omega)).1
  · have hi' : i < p.lists.length := by
      simp only [RequestId.started] at hi
      omega
    rw [hother i hi'.ne]
    exact (hold i hi').2

/-- what a request does to the record leaves it placed -/
theorem Placed.edit (h : Placed cfg p info) (hmax : cfg.listMaxDepth < 2 ^ 32)
    (ha : p.Allows cfg.listMaxDepth id rc) (hk : Kept info id rc) : PlacedRequest cfg p id rc (edit cfg rc id info) := by
  have hsame : ∀ l : Place, l.id = l.id ∧ l.collectionType = l.collectionType := fun _ => ⟨rfl, rfl⟩
  have hcopy : ∀ l : Place, (l.copyItem (rc.listLevel (RciInfo.listIndex rc)).item).id = l.id ∧
      (l.copyItem (rc.listLevel (RciInfo.listIndex rc)).item).collectionType = l.collectionType :=
    fun l => ⟨Place.copyItem_id l _, Place.copyItem_type l _⟩
  cases id
  case sessionStart =>
    have hs : p.session = false := ha
    have hact := h.nested.action hs
    have hg := h.nested.group hact
    have hl := h.nested.lists_nil (Or.inl hs)
    refine ⟨h.nested, h.lists, ha, fun _ i hi => ?_, fun hne => absurd hact hne, fun g hg' => by simp [Pos.next, hg] at hg',
      fun i hi => by simp [Pos.next, hl] at hi, fun a hin => by simp [Pos.In, Pos.next, hact] at hin, fun ht => absurd ht id⟩
    simp [CcApi.Rci.edit, startSession, RciInfo.clearTree, RciInfo.clearGroup, RciInfo.clearElement, RciInfo.clearAllLists_eq, hi]
  case actionStart =>
    obtain ⟨hs, hact⟩ := ha
    have hg := h.nested.group hact
    have hl := h.nested.lists_nil (Or.inr (Or.inl hact))
    refine ⟨h.nested, h.lists, ⟨hs, hact⟩, fun _ i hi => ?_, fun _ _ => Or.inr ⟨?_, rfl⟩,
      fun g hg' => by simp [Pos.next, hg] at hg', fun i hi => by simp [Pos.next, hl] at hi, fun a hin => ?_,
      fun ht => absurd ht id⟩
    · simp [CcApi.Rci.edit, startAction, RciInfo.clearTree, RciInfo.clearGroup, RciInfo.clearElement,
        RciInfo.clearAllLists_eq, hi]
    · simp [CcApi.Rci.edit, startAction, RciInfo.clearTree, RciInfo.clearGroup, RciInfo.clearElement,
        RciInfo.clearAllLists_eq]
    · obtain rfl : rc.action = a := by simpa [Pos.In, Pos.next] using hin
      simp only [CcApi.Rci.edit, startAction, RciInfo.clearTree, RciInfo.clearGroup, RciInfo.clearElement,
        RciInfo.clearAllLists_eq]
      split_ifs <;> rfl
  case groupInstancesLock =>
    exact h.enterGroup (f := fun g => g) (fun _ => rfl) ha ha.1.2.1 ha.1.2.2 (by simp) (Or.inl ha.1.2.1) ⟨rfl, rfl, rfl⟩
  case groupInstancesUnlock =>
    exact h.enterGroup (f := fun g => g) (fun _ => rfl) ha ha.1.2.1 ha.1.2.2 (by simp) (Or.inl ha.1.2.1) ⟨rfl, rfl, rfl⟩
  case groupInstanceRemove =>
    exact h.enterGroup (f := fun g => g.copyItem rc.group.item) (fun _ => Place.copyItem_id _ _) ha ha.1.2.1 ha.1.2.2
      (by simp) (Or.inl ha.1.2.1) ⟨rfl, rfl, rfl⟩
  case groupStart =>
    exact h.enterGroup (f := fun g => g.copyItem rc.group.item) (fun _ => Place.copyItem_id _ _) ha ha.2.1 ha.2.2
      (by simp) (Or.inr rfl) ⟨rfl, rfl, rfl⟩
  case groupInstancesSet =>
    have hout := h.outside (ha.1.1.elim Pos.In.ne_none Pos.In.ne_none) ha.1.2.1
    refine h.stay ha ⟨rfl, rfl⟩ (fun hs => hs) (Or.inl rfl) ⟨by simp [CcApi.Rci.edit], rfl, rfl, rfl, rfl⟩ fun _ => ?_
    have hd := ha.1.2.2
    exact ⟨by simpa [CcApi.Rci.edit] using hk.2, hout.1.trans hd.symm, by simp [hd], by simp [hd],
      by simp [RequestId.started, hd], by simpa [CcApi.Rci.edit] using hout.2⟩
  case listInstancesLock =>
    exact h.enterList hmax (f := fun l => l) hsame ha ha.1 (hk.1 trivial) (by simp) ⟨rfl, rfl, rfl⟩
      (Or.inl ⟨rfl, by simp [RequestId.started, ha.1.1.2.1]⟩)
  case listInstancesUnlock =>
    exact h.enterList hmax (f := fun l => l) hsame ha ha.1 (hk.1 trivial) (by simp) ⟨rfl, rfl, rfl⟩
      (Or.inl ⟨rfl, by simp [RequestId.started, ha.1.1.2.1]⟩)
  case listInstanceRemove =>
    exact h.enterList hmax (f := fun l => l.copyItem (rc.listLevel (RciInfo.listIndex rc)).item) hcopy ha ha.1
      (hk.1 trivial) (by simp) ⟨rfl, rfl, rfl⟩ (Or.inl ⟨rfl, by simp [RequestId.started, ha.1.1.2.1]⟩)
  case listStart =>
    exact h.enterList hmax (f := fun l => l.copyItem (rc.listLevel (RciInfo.listIndex rc)).item) hcopy ha ha
      (hk.1 trivial) (by simp) ⟨rfl, rfl, rfl⟩ (Or.inr ⟨rfl, rfl, fun l => Place.copyItem_same l _⟩)
  case listInstancesSet => exact h.setLists hmax ha hk
  case elementProcess => exact h.element ha (hk.1 trivial)
  case listEnd => exact h.listEnd ha (hk.1 trivial) hk.2
  case groupEnd =>
    obtain ⟨hon, hl⟩ := ha
    have hd : rc.listDepth = 0 := hon.2.1
    refine ⟨h.nested, h.lists, ⟨hon, hl⟩, h.ids, fun _ _ => Or.inl rfl, fun g hg => by simp [Pos.next] at hg,
      fun i hi => by simp [Pos.next] at hi, h.action, fun _ => ⟨h.inside _ hon.1, hk.2.1.trans hd.symm, by simp [hd],
        by simp [hd], by simp [RequestId.started, hd], by simpa [CcApi.Rci.edit] using hk.2.2⟩⟩
  case actionEnd =>
    exact h.stay ha ⟨rfl, rfl⟩ (fun hs => hs) (Or.inr rfl) ⟨rfl, rfl, rfl, rfl, rfl⟩ fun ht => absurd ht id
  case sessionEnd =>
    exact h.stay ha ⟨rfl, rfl⟩ (fun hs => by simp [Pos.next] at hs) (Or.inl rfl) ⟨rfl, rfl, rfl, rfl, rfl⟩
      fun ht => absurd ht id
  case sessionCancel => exact absurd ha id
  all_goals
    exact h.stay ha ⟨rfl, rfl⟩ (fun hs => hs) (Or.inl rfl) ⟨rfl, rfl, rfl, rfl, rfl⟩ fun ht => absurd ht id

/-- finishing leads to the next position -/
theorem PlacedRequest.finish (hmax : cfg.listMaxDepth < 2 ^ 32) (h : PlacedRequest cfg p id rc info) :
    Placed cfg (p.next id rc) (finish cfg id info rc).1 := by
  have hnested := h.nested.next h.allowed
  have hlen : (p.next id rc).lists.length ≤ cfg.listMaxDepth := by
    have hlists := h.lists
    have hallowed := h.allowed
    cases id <;> simp only [Pos.next, List.length_append, List.length_dropLast, List.length_singleton]
    case listStart => exact hallowed.2
    case listEnd => omega
    case groupEnd => exact Nat.zero_le _
    all_goals exact hlists
  have hout : id ≠ .groupEnd → (p.next id rc).action ≠ none → (p.next id rc).group = none →
      info.list.depth = 0 ∧ info.element.id = 0 :=
    fun hid hne hg => (h.outside hne hg).resolve_left hid
  cases id
  case listEnd =>
    -- the level cleared is the one the list was on
    obtain ⟨hon, hne⟩ := h.allowed
    have hpos := List.length_pos_iff.2 hne
    have hd : info.list.depth = p.lists.length := ((h.describes trivial).depth).trans hon.2.1
    have hidx : u32Sub info.list.depth 1 = p.lists.length - 1 := by
      have := h.lists
      rw [hd, u32Sub_eq (by omega) (by omega)]
    have hdata : ∀ i, (CcApi.Rci.finish cfg .listEnd info rc).1.list.data i =
        if i = p.lists.length - 1 then (info.list.data i).clear else info.list.data i := by
      intro i
      by_cases hi : i = p.lists.length - 1 <;>
        simp [CcApi.Rci.finish, RciInfo.clearList, RciInfo.atLevel, RciInfo.clearElement, hidx, hi]
    refine ⟨hnested, hlen, fun hs i hi => ?_, fun _ hg => by simp [Pos.next, hon.1] at hg, h.inside, fun i hi => ?_,
      h.action⟩
    · rw [hdata]
      split
      · simp
      · exact h.ids hs i hi
    · have hi' : i < p.lists.length - 1 := by simpa [Pos.next] using hi
      rw [hdata, if_neg hi'.ne]
      exact h.levels i hi
  case groupEnd =>
    refine ⟨hnested, hlen, fun hs i hi => ?_, fun _ _ => ⟨?_, rfl⟩, fun g hg => by simp [Pos.next] at hg,
      fun i hi => by simp [Pos.next] at hi, fun a hin => ?_⟩
    · simp [CcApi.Rci.finish, RciInfo.clearTree, RciInfo.clearGroup, RciInfo.clearElement, RciInfo.clearAllLists_eq, hi]
    · simp [CcApi.Rci.finish, RciInfo.clearTree, RciInfo.clearGroup, RciInfo.clearElement, RciInfo.clearAllLists_eq]
    · simpa [CcApi.Rci.finish, RciInfo.clearTree, RciInfo.clearGroup, RciInfo.clearElement, RciInfo.clearAllLists_eq]
        using h.action a hin
  case elementProcess =>
    simp only [CcApi.Rci.finish]
    split <;> exact ⟨hnested, hlen, h.ids, hout (by simp), h.inside, h.levels, h.action⟩
  case actionEnd =>
    simp only [CcApi.Rci.finish]
    split <;> exact ⟨hnested, hlen, h.ids, hout (by simp), h.inside, h.levels, h.action⟩
  all_goals exact ⟨hnested, hlen, h.ids, hout (by simp), h.inside, h.levels, h.action⟩

end Requests

/-- **Request.** With every callback registered each request that finds what it does not write keeps the record placed. -/
theorem carries_placed (hall : ∀ n, cfg.registered n = true) (hmax : cfg.listMaxDepth < 2 ^ 32) :
    Carries cfg (fun _ => Kept) (Placed cfg) (PlacedRequest cfg) where
  present := by
    intro p info id rc h ha hk cb
    have htaken : Placed cfg p (info.takenUp rc) := h.takenUp
    have hh : cfg.handles (info.takenUp rc) id = true := by
      refine htaken.handles hall (fun hid => ?_) (fun hid => ?_)
      · subst hid
        have hon : p.OnPath rc p.lists.length := ha
        simp [hon.1]
      · subst hid
        exact ha
    rw [queue_info]
    simp only [hh, if_true]
    exact htaken.edit hmax ha hk
  returned := by
    intro p id rc info h u
    exact ⟨h.nested, h.lists, h.allowed, h.ids, h.outside, h.inside, h.levels, h.action,
      fun ht => ⟨(h.describes ht).group, (h.describes ht).depth, (h.describes ht).ids, (h.describes ht).types,
        (h.describes ht).instances, (h.describes ht).element⟩⟩
  finish := fun h => h.finish hmax

/-- a user callback that has been told the position of the request it is for -/
def Call.Told (k : Call) : Prop :=
  match k.request with
  | some r => r.id.OfTree → Describes r.id r.rc k.info
  | none => False

/-- **Path information.** With every callback registered, in every well-nested run whose requests find what they do not
write, every user callback for a group, a list or an element is told the position of its request. -/
theorem calls_describe (hall : ∀ n, cfg.registered n = true) (hmax : cfg.listMaxDepth < 2 ^ 32) {s : St} (hi : Init s)
    {ops : List Op} (hl : Along (step cfg) (Legal cfg) s ops) (hk : Along (step cfg) (Meets fun _ => Kept) s ops) :
    ∀ k ∈ (run (step cfg) s ops).calls, k.Told := by
  have hidle : Placed cfg .start s.svc.info :=
    ⟨Pos.nested_start, Nat.zero_le _, fun hs => by simp [Pos.start] at hs, fun hne => absurd rfl hne,
      fun g hg => by simp [Pos.start] at hg, fun i hi => by simp [Pos.start] at hi,
      fun a hin => by simp [Pos.In, Pos.start] at hin⟩
  intro k hk'
  obtain ⟨r, hr, htold⟩ := (carries_placed cfg hall hmax).calls (Q := fun id rc info => id.OfTree → Describes id rc info)
    (fun h => h.describes) hi hidle hl hk k hk'
  simpa only [Call.Told, hr] using htold

/-! ## Runs -/

instance (id : RequestId) (rc : RemoteConfig) (info : RciInfo) : Decidable (Describes id rc info) :=
  decidable_of_iff (_ ∧ _ ∧ _ ∧ _ ∧ _ ∧ _) ⟨fun ⟨h1, h2, h3, h4, h5, h6⟩ => Describes.mk h1 h2 h3 h4 h5 h6,
    fun h => ⟨h.group, h.depth, h.ids, h.types, h.instances, h.element⟩⟩

instance (k : Call) : Decidable k.Told := by
  unfold Call.Told
  split <;> infer_instance

instance (s : St) : ∀ o, Decidable (Meets (fun _ => Kept) s o)
  | .submit _ _ => inferInstanceAs (Decidable (_ ∧ _ → Kept _ _ _))
  | .poll | .cancel _ | .stop | .wake | .read | .call | .ret _ | .store | .update => inferInstanceAs (Decidable True)

/-- a group that is a variable array with three members -/
def RemoteConfig.ofArray : RemoteConfig := { RemoteConfig.plain with group := ⟨4, some .variableArray, .count 3, none⟩ }

/-- the second member of that group, in it a list, in that an element -/
def RemoteConfig.inArray (depth element : ℕ) : RemoteConfig :=
  { RemoteConfig.plain with
    group := ⟨4, some .variableArray, .index 2, none⟩, listDepth := depth,
    element := ⟨element, none, .uint32, some 1, none⟩ }

def opensGroup : List (RequestId × RemoteConfig) :=
  [(.sessionStart, .plain), (.actionStart, .plain), (.groupStart, .inArray 0 0)]

/-- a group's instances are locked and set, a member is queried with a list in it -/
theorem told_query :
    let s := run (step Config.all) (.fresh .zero) (exchanges
      [(.sessionStart, .plain), (.actionStart, .plain), (.groupInstancesLock, .ofArray), (.groupInstancesSet, .ofArray),
        (.groupStart, .inArray 0 0), (.listStart, .inArray 1 0), (.elementProcess, .inArray 1 0), (.listEnd, .inArray 1 0),
        (.elementProcess, .inArray 0 5)])
    (∀ k ∈ s.calls, k.Told) ∧ s.calls.length = 9 :=
  ⟨calls_describe Config.all (fun _ => rfl) (by decide) (init_fresh _) (by decide +kernel) (by decide +kernel),
    by decide +kernel⟩

/-- a list with id 1 in a path -/
def RemoteConfig.inSecondList : RemoteConfig :=
  { RemoteConfig.inArray 1 0 with listLevel := fun _ => ⟨1, some .fixedArray, .index 1, none⟩ }

/-- start_list is told list 0 for list 1, and end_group is told the element that came last -/
theorem told_elsewhere :
    (Along (step Config.all) (Legal Config.all) (.fresh .zero) (exchanges (opensGroup ++ [(.listStart, .inSecondList)])) ∧
      ¬∀ k ∈ (run (step Config.all) (.fresh .zero) (exchanges (opensGroup ++ [(.listStart, .inSecondList)]))).calls,
        k.Told) ∧
    (Along (step Config.all) (Legal Config.all) (.fresh .zero)
        (exchanges (opensGroup ++ [(.elementProcess, .inArray 0 5), (.groupEnd, .inArray 0 0)])) ∧
      ¬∀ k ∈ (run (step Config.all) (.fresh .zero)
        (exchanges (opensGroup ++ [(.elementProcess, .inArray 0 5), (.groupEnd, .inArray 0 0)]))).calls, k.Told) := by
  refine ⟨⟨?_, ?_⟩, ?_, ?_⟩ <;> decide +kernel

end CcApi.Rci
