/-
The connector's side of the RCI service: `ccapi_rci_handler` and what it calls (`ccapi_rci_handler.c`).

`queue` is the switch of the IDLE state, which copies the request into the instance record and queues the user's
callback when there is one; `finish` is the switch of the PROCESSED state. Asserts are those of a build without
CCIMP_DEBUG_ENABLED: the plain ones are no code. Every access to `list.data` is logged in `touched`, and one outside the
array is not modelled further.

The command of a `do_command` request is there: `element.value` is not NULL.
-/
import CcApi.Rci.Types

namespace CcApi.Rci

/-! ## The instance record -/

/-- `clear_group_item`, `clear_list_item` -/
def Place.clearItem (p : Place) : Place :=
  match p.collectionType with
  | some .fixedArray | some .variableArray => { p with item := .index 0 }
  | some .fixedDictionary | some .variableDictionary => { p with item := .key none }
  | none => p

/-- `clear_group_info`, `clear_list_info` -/
def Place.clear (p : Place) : Place := { ({ p with id := 0 } : Place).clearItem with name := none }

/-- `copy_group_item`, `copy_list_item` -/
def Place.copyItem (p : Place) (item : Item) : Place :=
  match p.collectionType with
  | some .fixedArray | some .variableArray => { p with item := .index item.getIndex }
  | some .fixedDictionary | some .variableDictionary => { p with item := .key item.getKey }
  | none => p

/-- the switch of the requests that set the instances of a collection -/
def Place.setInstances (p : Place) (item : Item) : Place :=
  match p.collectionType with
  | some .variableArray => { p with item := .count item.getCount }
  | some .variableDictionary => { p with item := .dictionary item.getDictionary.1 item.getDictionary.2 }
  | _ => p

namespace RciInfo

/-- an access to `list.data[i]` -/
def atLevel (i : ℕ) (f : Place → Place) (info : RciInfo) : RciInfo :=
  { info with list := { info.list with data := Function.update info.list.data i (f (info.list.data i)),
                                       touched := info.list.touched ++ [i] } }

/-- `clear_list_info` -/
def clearList (i : ℕ) (info : RciInfo) : RciInfo := info.atLevel i Place.clear

/-- `clear_all_list_info` -/
def clearAllLists (maxDepth : ℕ) (info : RciInfo) : RciInfo :=
  (List.range maxDepth).foldl (fun info i => info.clearList i) { info with list := { info.list with depth := 0 } }

/-- `clear_group_info` -/
def clearGroup (info : RciInfo) : RciInfo := { info with group := info.group.clear }

/-- `clear_element_info` -/
def clearElement (info : RciInfo) : RciInfo := { info with element := { info.element with id := 0, name := none } }

/-- the three of them, as the requests call them that leave the tree -/
def clearTree (maxDepth : ℕ) (info : RciInfo) : RciInfo := ((info.clearGroup).clearAllLists maxDepth).clearElement

/-- a request that names a group; f copies its instance -/
def enterGroup (maxDepth : ℕ) (rc : RemoteConfig) (f : Place → Place) (info : RciInfo) : RciInfo :=
  let group := { f { info.group with id := rc.group.id, collectionType := rc.group.collectionType } with
                 name := rc.group.name }
  (({ info with group := group } : RciInfo).clearAllLists maxDepth).clearElement

/-- the level a list request is about -/
def listIndex (rc : RemoteConfig) : ℕ := u32Sub rc.listDepth 1

/-- a request that names a list; f copies its instance -/
def enterList (rc : RemoteConfig) (f : Place → Place) (info : RciInfo) : RciInfo :=
  let i := listIndex rc
  let info := { info with list := { info.list with depth := rc.listDepth } }
  (info.atLevel i fun p =>
    { f { p with collectionType := (rc.listLevel i).collectionType } with name := (rc.listLevel i).name }).clearElement

/-- what `clear_all_list_info` does, all levels together -/
theorem clearAllLists_eq (maxDepth : ℕ) (info : RciInfo) : info.clearAllLists maxDepth =
    { info with list := ⟨0, fun i => if i < maxDepth then (info.list.data i).clear else info.list.data i,
                         info.list.touched ++ List.range maxDepth⟩ } := by
  induction maxDepth with
  | zero => simp [clearAllLists]
  | succ m ih =>
    unfold clearAllLists at ih ⊢
    rw [List.range_succ, List.foldl_append, ih]
    simp only [List.foldl_cons, List.foldl_nil, clearList, atLevel, List.append_assoc]
    congr 2
    funext i
    by_cases hi : i = m
    · simp [hi]
    · rw [Function.update_of_ne hi]
      have hlt : i < m + 1 ↔ i < m := by omega
      simp only [hlt]

end RciInfo

/-! ## Queueing -/

variable (cfg : Config)

/-- the user's callback, NULL when it is not registered -/
def Config.function (n : CbName) : Option CbName := if cfg.registered n then some n else none

/-- queue the user's callback n, when it is registered, with the instance record edited -/
def queueBase (n : CbName) (edit : RciInfo → RciInfo) (p : RciInfo × Callback) : RciInfo × Callback :=
  if cfg.registered n then (edit p.1, { p.2 with type := .base, function := some n }) else p

/-- the same for a callback that locks a collection, at the place get gives: it takes the response's item -/
def queueLock (n : CbName) (edit : RciInfo → RciInfo) (get : RciInfo → Place) (rc : RemoteConfig)
    (p : RciInfo × Callback) : RciInfo × Callback :=
  if cfg.registered n then
    let info := edit p.1
    let second := match (get info).collectionType with
      | some .variableArray | some .variableDictionary => some rc.response.item
      | _ => p.2.second
    (info, { p.2 with type := .lock, function := some n, second := second })
  else p

/-- what session_start does to the instance record -/
def startSession (info : RciInfo) : RciInfo :=
  let info := { info with action := some .query, errorHint := none, groupType := some .setting,
                          querySetting := ⟨some .none, some .current, false⟩ }
  { info.clearTree cfg.listMaxDepth with doCommand := ⟨none, none, none⟩ }

/-- what action_start does to it -/
def startAction (rc : RemoteConfig) (info : RciInfo) : RciInfo :=
  let info := { info with action := some rc.action, groupType := some rc.groupType }
  let info :=
    if rc.action = .query ∧ rc.groupType = .setting then
      { info with querySetting := ⟨some rc.attributes.compareTo, some rc.attributes.source, false⟩ }
    else if rc.action = .set ∧ rc.groupType = .setting then
      { info with embedTransformedValues := rc.attributes.embedTransformedValues }
    else info
  info.clearTree cfg.listMaxDepth

/-- HAVE_HANDLER of element_process -/
def haveHandler (info : RciInfo) : Bool :=
  (info.action = some .query ∧ cfg.registered .getElement = true) ∨
    (info.action = some .set ∧ cfg.registered .setElement = true)

/-- the callback element_process queues -/
def elementCallback (rc : RemoteConfig) (info : RciInfo) (cb : Callback) : Callback :=
  match info.action with
  | some .query =>
    { cb with type := .element, function := cfg.function .getElement, second := rc.response.elementValue }
  | some .set =>
    if info.embedTransformedValues then
      { cb with type := .transform, function := cfg.function .setAndTransformElement, second := rc.element.value,
                transformed := rc.response.elementValue }
    else { cb with type := .element, function := cfg.function .setElement, second := rc.element.value }
  | _ => cb

/-- the element's type; a list is no element -/
def elementType (t : ElementType) (old : Option ElementType) : Option ElementType :=
  match t with
  | .list => old
  | t => some t

/-- what element_process copies into the instance record -/
def enterElement (rc : RemoteConfig) (info : RciInfo) : RciInfo :=
  { info with list := { info.list with depth := rc.listDepth },
              element := ⟨rc.element.id, rc.element.name, elementType rc.element.type info.element.type⟩ }

def queueElement (rc : RemoteConfig) (p : RciInfo × Callback) : RciInfo × Callback :=
  if haveHandler cfg p.1 then (enterElement rc p.1, elementCallback cfg rc p.1 p.2) else p

/-- the switch of CCAPI_RCI_THREAD_IDLE -/
def queue (requestId : RequestId) (rc : RemoteConfig) (p : RciInfo × Callback) : RciInfo × Callback :=
  match requestId with
  | .sessionStart => queueBase cfg .startSession (startSession cfg) p
  | .actionStart => queueBase cfg .startAction (startAction cfg rc) p
  | .doCommand => queueBase cfg .doCommand
      (fun info => { info with doCommand := ⟨rc.attributes.target, rc.element.command, rc.response.elementValue⟩ }) p
  | .reboot => queueBase cfg .reboot id p
  | .setFactoryDef => queueBase cfg .setFactoryDefaults id p
  | .groupInstancesLock =>
    queueLock cfg .lockGroupInstances (RciInfo.enterGroup cfg.listMaxDepth rc id) RciInfo.group rc p
  | .groupInstancesSet => queueBase cfg .setGroupInstances
      (fun info => { info with group := info.group.setInstances rc.group.item }) p
  | .groupInstanceRemove => queueBase cfg .removeGroupInstance
      (RciInfo.enterGroup cfg.listMaxDepth rc fun g => g.copyItem rc.group.item) p
  | .groupInstancesUnlock => queueBase cfg .unlockGroupInstances (RciInfo.enterGroup cfg.listMaxDepth rc id) p
  | .groupStart => queueBase cfg .startGroup
      (RciInfo.enterGroup cfg.listMaxDepth rc fun g => g.copyItem rc.group.item) p
  | .listInstancesLock => queueLock cfg .lockListInstances (RciInfo.enterList rc id)
      (fun info => info.list.data (RciInfo.listIndex rc)) rc p
  | .listInstancesSet => queueBase cfg .setListInstances
      (fun info => info.atLevel (RciInfo.listIndex rc) fun l =>
        l.setInstances (rc.listLevel (RciInfo.listIndex rc)).item) p
  | .listInstanceRemove => queueBase cfg .removeListInstance
      (RciInfo.enterList rc fun l => l.copyItem (rc.listLevel (RciInfo.listIndex rc)).item) p
  | .listInstancesUnlock => queueBase cfg .unlockListInstances (RciInfo.enterList rc id) p
  | .listStart => queueBase cfg .startList
      (RciInfo.enterList rc fun l => l.copyItem (rc.listLevel (RciInfo.listIndex rc)).item) p
  | .elementProcess => queueElement cfg rc p
  | .listEnd => queueBase cfg .endList
      (fun info => { info with list := { info.list with depth := rc.listDepth } }) p
  | .groupEnd => queueBase cfg .endGroup id p
  | .actionEnd => queueBase cfg .endAction (fun info => { info with element := { info.element with type := none } }) p
  | .sessionEnd => queueBase cfg .endSession (fun info => { info with element := { info.element with type := none } }) p
  | .sessionCancel => p

/-! ## Finishing -/

/-- the comparison's result goes into the response of a query on settings -/
def tellMatches (info : RciInfo) (rc : RemoteConfig) : RemoteConfig :=
  if info.groupType = some .setting ∧ info.action = some .query then
    { rc with response := { rc.response with compareMatches := info.querySetting.matches_ } }
  else rc

/-- the switch of CCAPI_RCI_THREAD_CB_PROCESSED -/
def finish (requestId : RequestId) (info : RciInfo) (rc : RemoteConfig) : RciInfo × RemoteConfig :=
  match requestId with
  | .groupStart | .listStart => (info, tellMatches info rc)
  | .elementProcess =>
    (if info.action = some .query ∧ info.groupType = some .setting then
      { info with querySetting := { info.querySetting with matches_ := false } }
     else info, tellMatches info rc)
  | .listEnd => ((info.clearList (u32Sub info.list.depth 1)).clearElement, rc)
  | .groupEnd => (info.clearTree cfg.listMaxDepth, rc)
  | .actionEnd => (if info.action = some .doCommand then { info with doCommand := ⟨none, none, none⟩ } else info, rc)
  | _ => (info, rc)

/-- `clear_callback` -/
def Callback.clear (cb : Callback) : Callback := { cb with type := .none, error := 0 }

/-- session_cancel -/
def cancelSession (s : Svc) : Svc := { s with callback := s.callback.clear, status := .idle }

/-- `ccapi_rci_handler`: the answer, the record as it is given back, and whether the thread's lock is released -/
def handler (requestId : RequestId) (rc : RemoteConfig) (s : Svc) : Svc × CallbackStatus × RemoteConfig × Bool :=
  if requestId = .sessionCancel then (cancelSession s, .cont, rc, false)
  else
    match s.status with
    | .idle =>
      let info := { s.info with userContext := rc.userContext, errorHint := rc.response.errorHint }
      let (info, cb) := queue cfg requestId rc (info, s.callback.clear)
      if cb.type = .none then (⟨info, cb, .cbProcessed⟩, .busy, rc, false)
      else (⟨info, cb, .cbQueued⟩, .busy, rc, true)
    | .cbQueued => (s, .busy, rc, false)
    | .cbProcessed =>
      let (info, rc) := finish cfg requestId s.info rc
      (⟨info, s.callback.clear, .idle⟩, .cont,
        { rc with errorId := s.callback.error, userContext := info.userContext,
                  response := { rc.response with errorHint := info.errorHint } }, false)

end CcApi.Rci
