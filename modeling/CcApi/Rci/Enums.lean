/-
Enums exchanged as strings (`ccapi_rci_handler.c`, with RCI_ENUMS_AS_STRINGS).

The connector numbers the values of an enum, the user names them. element_process finds the names in the connector's
descriptor, by a walk along the request's group, lists and element, and leaves them in the callback record. The worker gives a
set callback the name of the connector's value, and looks up the name that a get callback returns.

- `translate_name_iff`: the name of a value is translated back to it exactly when the value fits an `int`.
- `step_enumInv`: the table in the record, and the one the worker has read, are the request's own, whatever is cancelled.
- `Translated`: what a set callback is given for a value, and what becomes of a name or an error that a get callback returns.
- `translated_iff`: a run is `Translated` throughout exactly when no get callback returns the name of a value from 2^31 on,
  which no table of 2^31 names has (`fits_of_small`); and a request is answered with the translated error.
- `step_st`: with its tables the service is the one of `Thread`, whose get callbacks return the translated errors.
- `large_table`: a name that is refused, since `string_to_enum` returns an `int`.

Premises: the worker reads the record, its table and the stored action in one step; a get callback that succeeds has set its
string; the connector's pointer to a value names the value too, which stays as it is while its request is busy.
-/
import CcApi.Rci.Attribution

namespace CcApi.Rci

open Lib Lib.Runs

/-! ## The descriptor -/

/-- `connector_item_t`: an element, with the names of its enum, or a list -/
inductive ItemDesc where
  | element (enums : List Str)
  | collection (data : List ItemDesc)

/-- `connector_remote_config_data_t`: the collections of the groups -/
abbrev Descriptor := GroupType → List (List ItemDesc)

/-- the loop of `get_ccfsm_element_enum_element` -/
def walk : List ItemDesc → List ℕ → Option (List ItemDesc)
  | items, [] => some items
  | items, id :: ids =>
    match items[id]? with
    | some (.collection items) => walk items ids
    | _ => none

/-- the position of an element -/
structure Path where
  groupType : GroupType
  groupId : ℕ
  listIds : List ℕ
  elementId : ℕ
deriving DecidableEq, Repr

def RemoteConfig.path (rc : RemoteConfig) : Path :=
  ⟨rc.groupType, rc.group.id, (List.range rc.listDepth).map fun i => (rc.listLevel i).id, rc.element.id⟩

/-- `get_ccfsm_element_enum_element`: the names of the element; `none` where the path does not lead to one -/
def enumElement (desc : Descriptor) (p : Path) : Option (List Str) :=
  ((desc p.groupType)[p.groupId]?.bind fun group => walk group p.listIds).bind fun items =>
    match items[p.elementId]? with
    | some (.element names) => some names
    | _ => none

/-- no enum has two values of one name -/
def Distinct (desc : Descriptor) : Prop := ∀ p names, enumElement desc p = some names → names.Nodup

/-! ## Names and values -/

/-- `callback.enum_data` -/
structure EnumData where
  array : Option (List Str)
  elementCount : ℕ
deriving DecidableEq, Repr

/-- as `clear_callback` leaves it -/
def EnumData.none : EnumData := ⟨Option.none, 0⟩

/-- what is kept of a table -/
def EnumData.of (names : List Str) : EnumData := ⟨some names, u32 names.length⟩

/-- `queue_enum_callback` -/
def queueEnumCallback (desc : Descriptor) (rc : RemoteConfig) : EnumData :=
  ((enumElement desc rc.path).map EnumData.of).getD .none

/-- `enum_to_string` -/
def enumToString (names : List Str) (enumId : ℕ) : Option Str := names[enumId]?

/-- an `unsigned int` as an `int` -/
def toInt (x : ℕ) : ℤ := (x : ℤ).bmod (2 ^ 32)

/-- an `int` as an `unsigned int` -/
def toUnsigned (x : ℤ) : ℕ := (x % 2 ^ 32).toNat

/-- `string_to_enum` -/
def stringToEnum (names : List Str) (enumCount : ℕ) (enumString : Str) : ℤ :=
  match (names.take enumCount).idxOf? enumString with
  | some i => toInt i
  | none => -1

/-- what the worker makes of a get callback's result: the error, and what it writes to the connector's value -/
def translate (badValue : ℕ) (names : List Str) (enumCount userError : ℕ) (string : Str) : ℕ × Option ℕ :=
  if userError = 0 then
    let enumId := stringToEnum names enumCount string
    (if enumId < 0 then badValue else userError, some (toUnsigned enumId))
  else (userError, none)

/-- the values whose names an `int` finds again -/
def Representable (names : List Str) (v : ℕ) : Prop := v < 2 ^ 31 ∧ v < u32 names.length

theorem toInt_eq {x : ℕ} (h : x < 2 ^ 31) : toInt x = x := by
  unfold toInt
  rw [Int.bmod_def]
  omega

theorem toInt_neg {x : ℕ} (h : 2 ^ 31 ≤ x) (hx : x < 2 ^ 32) : toInt x < 0 := by
  unfold toInt
  rw [Int.bmod_def]
  omega

/-- the name of a value that the search comes to is found at the value -/
theorem stringToEnum_of_name {names : List Str} (hnames : names.Nodup) {v : ℕ} {string : Str}
    (hv : names[v]? = some string) {enumCount : ℕ} (hcount : v < enumCount) :
    stringToEnum names enumCount string = toInt v := by
  obtain ⟨hlt, rfl⟩ := List.getElem?_eq_some_iff.1 hv
  have hidx : (names.take enumCount).idxOf? names[v] = some v := by
    refine List.idxOf?_eq_some_iff.2 ⟨by rw [List.length_take]; omega, List.getElem_take, fun j hj heq => ?_⟩
    rw [List.getElem_take] at heq
    exact hj.ne (hnames.getElem_inj_iff.1 heq)
  rw [stringToEnum, hidx]

theorem stringToEnum_of_not_mem {names : List Str} {enumCount : ℕ} {string : Str}
    (h : string ∉ names.take enumCount) : stringToEnum names enumCount string = -1 := by
  rw [stringToEnum, List.idxOf?_eq_none_iff.2 h]

theorem translate_unknown {badValue : ℕ} {names : List Str} {string : Str} (h : string ∉ names) (enumCount : ℕ) :
    (translate badValue names enumCount 0 string).1 = badValue := by
  have hnot : string ∉ names.take enumCount := fun hmem => h (List.mem_of_mem_take hmem)
  simp [translate, stringToEnum_of_not_mem hnot]

/-- the name of a value that is not representable is refused -/
theorem translate_unrepresentable (badValue : ℕ) {names : List Str} (hnames : names.Nodup) {v : ℕ} (hv32 : v < 2 ^ 32)
    {string : Str} (hv : names[v]? = some string) (h : ¬ Representable names v) :
    (translate badValue names (u32 names.length) 0 string).1 = badValue := by
  have hneg : stringToEnum names (u32 names.length) string < 0 := by
    by_cases hcount : v < u32 names.length
    · have hlarge : 2 ^ 31 ≤ v := not_lt.1 fun hsmall => h ⟨hsmall, hcount⟩
      rw [stringToEnum_of_name hnames hv hcount]
      exact toInt_neg hlarge hv32
    · -- the search stops before it
      have hnot : string ∉ names.take (u32 names.length) := by
        intro hmem
        obtain ⟨j, hj, hj'⟩ := List.mem_iff_getElem.1 hmem
        rw [List.length_take] at hj
        rw [List.getElem_take] at hj'
        obtain ⟨hlt, hv'⟩ := List.getElem?_eq_some_iff.1 hv
        have heq := hnames.getElem_inj_iff.1 (hj'.trans hv'.symm)
        omega
      rw [stringToEnum_of_not_mem hnot]
      decide
  simp only [translate, if_pos, hneg]

/-- **Back to the value.** The name of a value is translated back to it exactly when the value is representable. -/
theorem translate_name_iff {badValue : ℕ} (hbad : badValue ≠ 0) {names : List Str} (hnames : names.Nodup) {v : ℕ}
    (hv32 : v < 2 ^ 32) {string : Str} (hv : names[v]? = some string) :
    translate badValue names (u32 names.length) 0 string = (0, some v) ↔ Representable names v := by
  constructor
  · intro h
    by_contra hnot
    have herror := translate_unrepresentable badValue hnames hv32 hv hnot
    rw [h] at herror
    exact hbad herror.symm
  · rintro ⟨hsmall, hcount⟩
    have hnat : toUnsigned (v : ℤ) = v := by
      unfold toUnsigned
      omega
    have hfound : ¬ ((v : ℤ) < 0) := by omega
    simp only [translate, if_pos, stringToEnum_of_name hnames hv hcount, toInt_eq hsmall, if_neg hfound, hnat]

/-! ## The machine -/

/-- what the worker has read for the callback it runs -/
structure Frame where
  type : CbType
  function : Option CbName
  value : Option ℕ
  enumData : EnumData
  /-- the stored action is a query -/
  query : Bool

/-- a name that a set callback is given for a value -/
structure Given where
  request : Option Request
  function : Option CbName
  used : EnumData
  value : ℕ
  string : Option Str

/-- what a get callback returns, and what becomes of it: the error, and what is written to the connector's value at target -/
structure Obtained where
  request : Option Request
  function : Option CbName
  target : Option ℕ
  used : EnumData
  userError : ℕ
  string : Str
  error : ℕ
  value : Option ℕ

/-- the service with its tables -/
structure EnumSt where
  st : St
  enumData : EnumData
  frame : Frame
  given : List Given
  obtained : List Obtained

/-- a step of the service; string is what a get callback that returns leaves in its value -/
structure EnumOp where
  op : Op
  string : Str

/-- what the service is built with and run on: the descriptor, connector_protocol_error_bad_value, and the enum a value of the
connector holds -/
structure EnumEnv where
  desc : Descriptor
  badValue : ℕ
  content : ℕ → UInt32

variable (cfg : Config) (env : EnumEnv)

/-- what a call of the handler leaves in `enum_data` -/
def handlerEnum (requestId : RequestId) (rc : RemoteConfig) (s : Svc) (e : EnumData) : EnumData :=
  if requestId = .sessionCancel then .none
  else
    match s.status with
    | .idle =>
      if requestId = .elementProcess ∧ haveHandler cfg s.info ∧ rc.element.type = .enum then queueEnumCallback env.desc rc
      else .none
    | .cbQueued => e
    | .cbProcessed => .none

/-- the names a get callback's string is looked up in -/
def Frame.decodes (f : Frame) : Option (List Str) :=
  if f.type = .element ∧ f.query then f.enumData.array else none

/-- the names a set callback is given one of -/
def Frame.encodes (f : Frame) : Option (List Str) :=
  if f.type = .transform ∨ f.type = .element ∧ f.query = false then f.enumData.array else none

/-- what the worker reads: the callback record with its table, and the stored action -/
def EnumSt.recorded (x : EnumSt) : Frame :=
  ⟨x.st.svc.callback.type, x.st.svc.callback.function, x.st.svc.callback.second, x.enumData,
    x.st.svc.info.action = some .query⟩

/-- the name the worker gives the user callback it calls -/
def EnumSt.give (x : EnumSt) (names : List Str) : Given :=
  let value := ((x.frame.value.map env.content).getD 0).toNat
  ⟨x.st.serving, x.frame.function, x.frame.enumData, value, enumToString names value⟩

/-- what it takes from a get callback that returns error with a string -/
def EnumSt.obtain (x : EnumSt) (names : List Str) (userError : ℕ) (string : Str) : Obtained :=
  let r := translate env.badValue names x.frame.enumData.elementCount userError string
  ⟨x.st.serving, x.frame.function, x.frame.value, x.frame.enumData, userError, string, r.1, r.2⟩

def EnumSt.step (x : EnumSt) (a : EnumOp) : EnumSt :=
  match a.op with
  | .submit id rc =>
    { x with st := Rci.step cfg x.st a.op
             enumData := if x.st.request.isSome ∨ id = .sessionCancel then x.enumData
               else handlerEnum cfg env id rc x.st.svc x.enumData }
  | .poll =>
    { x with st := Rci.step cfg x.st a.op
             enumData := match x.st.request with
               | some r => handlerEnum cfg env r.id r.rc x.st.svc x.enumData
               | none => x.enumData }
  | .cancel rc =>
    { x with st := Rci.step cfg x.st a.op, enumData := handlerEnum cfg env .sessionCancel rc x.st.svc x.enumData }
  | .read =>
    match x.st.pc with
    | .woken => { x with st := Rci.step cfg x.st a.op, frame := x.recorded }
    | _ => { x with st := Rci.step cfg x.st a.op }
  | .call =>
    match x.st.pc, x.frame.encodes with
    | .ready _, some names => { x with st := Rci.step cfg x.st a.op, given := x.given ++ [x.give env names] }
    | _, _ => { x with st := Rci.step cfg x.st a.op }
  | .ret u =>
    match x.st.pc, x.frame.decodes with
    | .calling, some names =>
      let o := x.obtain env names u.error a.string
      { x with st := Rci.step cfg x.st (.ret { u with error := o.error }), obtained := x.obtained ++ [o] }
    | _, _ => { x with st := Rci.step cfg x.st a.op }
  | _ => { x with st := Rci.step cfg x.st a.op }

structure EnumInit (x : EnumSt) : Prop where
  st : Init x.st
  history : x.given = [] ∧ x.obtained = []

/-! ## Whose table -/

/-- the table of a request: that of the enum element at its path, else none -/
def Request.enumData (desc : Descriptor) (r : Request) : EnumData :=
  if r.id = .elementProcess ∧ r.rc.element.type = .enum then queueEnumCallback desc r.rc else .none

/-- what has been queued for request r -/
structure Frame.For (f : Frame) (r : Request) : Prop where
  enumData : f.enumData = r.enumData env.desc
  get : f.type = .element → f.query = true →
    f.function = cfg.function .getElement ∧ f.value = r.rc.response.elementValue
  set : f.type = .element → f.query = false → f.function = cfg.function .setElement ∧ f.value = r.rc.element.value
  transform : f.type = .transform →
    f.function = cfg.function .setAndTransformElement ∧ f.value = r.rc.element.value

/-- the worker's asserts have passed -/
def Frame.Asserted (f : Frame) : Prop := f.type = .element ∨ f.type = .transform → f.function.isSome ∧ f.value.isSome

/-- the worker has read a callback, and is not back from the user -/
def Pc.Held (pc : Pc) : Prop := (∃ c, pc = .ready c) ∨ pc = .calling

structure EnumInv (x : EnumSt) : Prop where
  queued : x.st.svc.status = .cbQueued → ∃ r, x.st.owner = some r ∧ x.recorded.For cfg env r
  read : x.st.pc.Held → ∃ r, x.st.serving = some r ∧ x.frame.For cfg env r ∧ x.frame.Asserted

variable {cfg env}

theorem enumInv_init {x : EnumSt} (h : EnumInit x) : EnumInv cfg env x := by
  refine ⟨fun hq => ?_, fun hp => ?_⟩
  · simp [h.st.status] at hq
  · simp [h.st.pc, Pc.Held] at hp

/-- what element_process queues is for its request -/
theorem queue_for {r : Request} {info : RciInfo} (cb : Callback) (hh : cfg.handles info r.id = true) {e : EnumData}
    (he : e = if r.id = .elementProcess ∧ r.rc.element.type = .enum then queueEnumCallback env.desc r.rc else .none) :
    let q := queue cfg r.id r.rc (info, cb)
    (⟨q.2.type, q.2.function, q.2.second, e, q.1.action = some .query⟩ : Frame).For cfg env r := by
  intro q
  rcases queue_cases cfg r.rc (p := (info, cb)) hh with ⟨n, i, -, hq⟩ | ⟨n, i, place, -, hq⟩ | ⟨hid, hq⟩
  · exact ⟨he, by simp [q, hq], by simp [q, hq], by simp [q, hq]⟩
  · exact ⟨he, by simp [q, hq], by simp [q, hq], by simp [q, hq]⟩
  · rw [hid] at hh
    rcases haveHandler_cases cfg hh with ⟨hact, -⟩ | ⟨hact, -⟩
    · exact ⟨he, by simp [q, hq, elementCallback, hact], by simp [q, hq, enterElement, hact],
        by simp [q, hq, elementCallback, hact]⟩
    · refine ⟨he, by simp [q, hq, enterElement, hact], fun ht _ => ?_, fun ht => ?_⟩
      · cases hembed : info.embedTransformedValues <;> simp [q, hq, elementCallback, hact, hembed] at ht ⊢
      · cases hembed : info.embedTransformedValues <;> simp [q, hq, elementCallback, hact, hembed] at ht ⊢

variable (cfg) in
theorem present_worker (r : Request) (s : St) :
    (present cfg r s).pc = s.pc ∧ (present cfg r s).serving = s.serving := by
  unfold present
  split
  · split <;> exact ⟨rfl, rfl⟩
  · exact ⟨rfl, rfl⟩

/-- a presented request leaves its own table in the record, or the one that is there when its callback is still queued -/
theorem present_enumInv {x : EnumSt} (h : EnumInv cfg env x) (r : Request) :
    EnumInv cfg env { x with st := present cfg r x.st
                             enumData := handlerEnum cfg env r.id r.rc x.st.svc x.enumData } := by
  refine ⟨fun hq => ?_, fun hp => ?_⟩
  · by_cases hid : r.id = .sessionCancel
    · simp [present, handler, hid, cancelSession] at hq
    · cases hs : x.st.svc.status with
      | cbProcessed => simp [present, handler_processed cfg hid hs] at hq
      | cbQueued =>
        obtain ⟨r', hown, hfor⟩ := h.queued hs
        refine ⟨r', ?_, ?_⟩
        · simpa [present, handler_queued cfg hid hs] using hown
        · simpa [EnumSt.recorded, present, handler_queued cfg hid hs, handlerEnum, hid, hs] using hfor
      | idle =>
        cases hh : cfg.handles x.st.svc.info r.id with
        | false => simp [present, handler_skip cfg hid hs hh] at hq
        | true =>
          have htable : handlerEnum cfg env r.id r.rc x.st.svc x.enumData =
              if r.id = .elementProcess ∧ r.rc.element.type = .enum then queueEnumCallback env.desc r.rc else .none := by
            simp only [handlerEnum, if_neg hid, hs]
            by_cases he : r.id = .elementProcess
            · rw [he] at hh
              simp [he, show haveHandler cfg x.st.svc.info = true from hh]
            · simp [he]
          have hup : cfg.handles (x.st.svc.info.takenUp r.rc) r.id = true := hh
          have hfor := queue_for x.st.svc.callback.clear hup htable
          simp only [present, handler_queue cfg hid hs hh, if_true]
          exact ⟨_, rfl, ⟨hfor.enumData, hfor.get, hfor.set, hfor.transform⟩⟩
  · have hworker := present_worker cfg r x.st
    simp only [hworker.1] at hp
    simpa only [hworker.2] using h.read hp

/-- a step of the worker that is not its read, or a stop -/
def Op.Plain : Op → Prop
  | .stop | .wake | .call | .ret _ | .store | .update => True
  | _ => False

variable (cfg) in
/-- such a step leaves what is queued alone, and takes the worker no further back than it is -/
theorem plain_step (s : St) {o : Op} (ho : o.Plain) :
    ((Rci.step cfg s o).svc.status = .cbQueued → s.svc.status = .cbQueued) ∧ (Rci.step cfg s o).owner = s.owner ∧
      (Rci.step cfg s o).serving = s.serving ∧ ((Rci.step cfg s o).pc.Held → s.pc.Held) ∧
      (Rci.step cfg s o).svc.callback.type = s.svc.callback.type ∧
      (Rci.step cfg s o).svc.callback.function = s.svc.callback.function ∧
      (Rci.step cfg s o).svc.callback.second = s.svc.callback.second ∧
      (Rci.step cfg s o).svc.info.action = s.svc.info.action := by
  cases o <;> simp only [Op.Plain] at ho
  case stop => simp only [Rci.step]; split <;> simp
  case wake => simp only [Rci.step]; split <;> [(cases s.stopping <;> simp [Pc.Held]); simp]
  case call =>
    simp only [Rci.step]
    split
    case h_1 c hpc => simp [Pc.Held, hpc]
    case h_2 => simp
  case ret u => simp only [Rci.step]; split <;> simp [Pc.Held, RciInfo.returned]
  case store => simp only [Rci.step]; split <;> simp [Pc.Held]
  case update =>
    simp only [Rci.step]
    split
    · cases s.stopping <;> cases s.svc.status <;> simp [Pc.Held]
    · simp

/-- a step that queues nothing and reads nothing -/
theorem EnumInv.same {x y : EnumSt} (h : EnumInv cfg env x)
    (hqueued : y.st.svc.status = .cbQueued → x.st.svc.status = .cbQueued) (howner : y.st.owner = x.st.owner)
    (hrecorded : y.recorded = x.recorded) (hread : y.st.pc.Held → x.st.pc.Held)
    (hserving : y.st.serving = x.st.serving) (hframe : y.frame = x.frame) : EnumInv cfg env y := by
  refine ⟨fun hq => ?_, fun hp => ?_⟩
  · rw [howner, hrecorded]
    exact h.queued (hqueued hq)
  · rw [hserving, hframe]
    exact h.read (hread hp)

theorem EnumInv.plain {x y : EnumSt} (h : EnumInv cfg env x) {o : Op} (ho : o.Plain) (hst : y.st = Rci.step cfg x.st o)
    (hdata : y.enumData = x.enumData) (hframe : y.frame = x.frame) : EnumInv cfg env y := by
  obtain ⟨hqueued, howner, hserving, hread, htype, hfunction, hsecond, haction⟩ := plain_step cfg x.st ho
  refine h.same ?_ ?_ ?_ ?_ ?_ hframe <;> simp only [EnumSt.recorded, hst, hdata]
  · exact hqueued
  · exact howner
  · rw [htype, hfunction, hsecond, haction]
  · exact hread
  · exact hserving

theorem runnable_asserted {x : EnumSt} (h : x.st.svc.callback.runnable = true) : x.recorded.Asserted := by
  intro ht
  simp only [EnumSt.recorded] at ht ⊢
  rcases ht with ht | ht <;> simpa [Callback.runnable, ht] using h

/-- **Step.** Whatever is cancelled, the table in the record and the one the worker has read are the request's own. -/
theorem step_enumInv {x : EnumSt} (h : EnumInv cfg env x) (a : EnumOp) : EnumInv cfg env (x.step cfg env a) := by
  obtain ⟨op, string⟩ := a
  cases op with
  | submit id rc =>
    by_cases hid : x.st.request.isSome ∨ id = .sessionCancel
    · simpa only [EnumSt.step, Rci.step, if_pos hid] using h
    · simp only [EnumSt.step, Rci.step, if_neg hid]
      exact present_enumInv (x := { x with st := { x.st with next := x.st.next + 1 } }) ⟨h.queued, h.read⟩
        ⟨x.st.next, id, rc, none, 0⟩
  | poll =>
    cases hr : x.st.request with
    | none => simpa only [EnumSt.step, Rci.step, hr] using h
    | some r => simpa only [EnumSt.step, Rci.step, hr] using present_enumInv h r
  | cancel rc => exact ⟨fun hq => by simp [EnumSt.step, Rci.step, handler, cancelSession] at hq, h.read⟩
  | read =>
    cases hpc : x.st.pc
    case woken =>
      by_cases hrun : x.st.svc.status = .cbQueued ∧ x.st.svc.callback.runnable
      · simp only [EnumSt.step, Rci.step, hpc, if_pos hrun]
        obtain ⟨r, howner, hfor⟩ := h.queued hrun.1
        exact ⟨h.queued, fun _ => ⟨r, howner, hfor, runnable_asserted hrun.2⟩⟩
      · simp only [EnumSt.step, Rci.step, hpc, if_neg hrun]
        exact ⟨h.queued, fun hp => by simp [Pc.Held] at hp⟩
    all_goals simpa only [EnumSt.step, Rci.step, hpc] using h
  | call =>
    simp only [EnumSt.step]
    split <;> exact h.plain (o := .call) trivial rfl rfl rfl
  | ret u =>
    simp only [EnumSt.step]
    split
    case h_1 names hpc hdec =>
      exact h.plain (o := .ret { u with error := (x.obtain env names u.error string).error }) trivial rfl rfl rfl
    case h_2 => exact h.plain (o := .ret u) trivial rfl rfl rfl
  | stop => exact h.plain (o := .stop) trivial rfl rfl rfl
  | wake => exact h.plain (o := .wake) trivial rfl rfl rfl
  | store => exact h.plain (o := .store) trivial rfl rfl rfl
  | update => exact h.plain (o := .update) trivial rfl rfl rfl

/-! ## Right translations -/

variable (env) in
/-- request r is for an element that is an enum with these names -/
structure Request.ForEnum (r : Request) (names : List Str) : Prop where
  element : r.id = .elementProcess ∧ r.rc.element.type = .enum
  path : enumElement env.desc r.rc.path = some names

variable (env) in
/-- a set callback is given the name of its request's value, from the table at the request's path -/
def Given.Right (g : Given) : Prop :=
  (g.function = some .setElement ∨ g.function = some .setAndTransformElement) ∧
    ∃ r names, g.request = some r ∧ r.ForEnum env names ∧ g.used = .of names ∧
      (∃ p, r.rc.element.value = some p ∧ g.value = (env.content p).toNat) ∧ g.string = names[g.value]?

variable (env) in
/-- a get callback's error is passed on; else its string is looked up in the table at the request's path, to the response's
value: a string that is not there is a bad value, the name of a value is that value -/
def Obtained.Right (o : Obtained) : Prop :=
  o.function = some .getElement ∧
    ∃ r names, o.request = some r ∧ r.ForEnum env names ∧ o.used = .of names ∧
      (∃ p, r.rc.response.elementValue = some p ∧ o.target = some p) ∧
      (o.userError ≠ 0 → o.error = o.userError ∧ o.value = none) ∧
      (o.userError = 0 → o.string ∉ names → o.error = env.badValue) ∧
      (o.userError = 0 → ∀ v < 2 ^ 32, names[v]? = some o.string → o.error = 0 ∧ o.value = some v)

/-- a name that a set callback was given comes back as its value from a get callback of the same element -/
def Back (g : Given) (o : Obtained) : Prop :=
  (g.request.map fun r => r.rc.path) = (o.request.map fun r => r.rc.path) → g.string = some o.string →
    o.userError = 0 → o.error = 0 ∧ o.value = some g.value

variable (env) in
structure Translated (x : EnumSt) : Prop where
  table : x.st.pc = .calling → ∃ r, x.st.serving = some r ∧ x.frame.enumData = r.enumData env.desc
  given : ∀ g ∈ x.given, g.Right env
  obtained : ∀ o ∈ x.obtained, o.Right env
  back : ∀ g ∈ x.given, ∀ o ∈ x.obtained, Back g o

/-- a get callback that succeeds does not return the name of a value that is not representable -/
def Fits (x : EnumSt) (a : EnumOp) : Prop :=
  match a.op, x.st.pc, x.frame.decodes with
  | .ret u, .calling, some names => u.error = 0 → ∀ v < 2 ^ 32, names[v]? = some a.string → Representable names v
  | _, _, _ => True

theorem enumData_some {desc : Descriptor} {r : Request} {names : List Str}
    (h : (r.enumData desc).array = some names) :
    (r.id = .elementProcess ∧ r.rc.element.type = .enum) ∧ enumElement desc r.rc.path = some names ∧
      r.enumData desc = .of names := by
  unfold Request.enumData at h ⊢
  split_ifs at h ⊢ with hr
  · unfold queueEnumCallback at h ⊢
    cases htable : enumElement desc r.rc.path with
    | none => simp [htable, EnumData.none] at h
    | some names' =>
      obtain rfl : names' = names := by simpa [htable, EnumData.of] using h
      exact ⟨hr, rfl, rfl⟩
  · simp [EnumData.none] at h

/-- names that are given and taken at one path are from one table -/
theorem back_of_right {g : Given} {o : Obtained} (hg : g.Right env) (ho : o.Right env) : Back g o := by
  intro hpath hstring herror
  obtain ⟨-, r, names, hr, hfor, -, ⟨p, -, hvalue⟩, hname⟩ := hg
  obtain ⟨-, r', names', hr', hfor', -, -, -, -, hback⟩ := ho
  have hsame : r.rc.path = r'.rc.path := by simpa [hr, hr'] using hpath
  obtain rfl : names = names' := Option.some.inj (hfor.path.symm.trans (hsame ▸ hfor'.path))
  refine hback herror g.value ?_ (hname.symm.trans hstring)
  rw [hvalue]
  exact (env.content p).toNat_lt

theorem function_of_isSome {n : CbName} (h : (cfg.function n).isSome) : cfg.function n = some n := by
  unfold Config.function at h ⊢
  split_ifs at h ⊢ with hreg
  · rfl
  · simp at h

/-- **Given.** -/
theorem give_right {x : EnumSt} (h : EnumInv cfg env x) (hpc : x.st.pc.Held) {names : List Str}
    (hnames : x.frame.encodes = some names) : (x.give env names).Right env := by
  obtain ⟨r, hr, hfor, hok⟩ := h.read hpc
  unfold Frame.encodes at hnames
  split_ifs at hnames with htype
  obtain ⟨helement, hpath, hof⟩ := enumData_some (hfor.enumData ▸ hnames)
  obtain ⟨hfun, hval⟩ := hok (htype.elim .inr fun ht => .inl ht.1)
  have hset : (x.frame.function = some .setElement ∨ x.frame.function = some .setAndTransformElement) ∧
      x.frame.value = r.rc.element.value := by
    rcases htype with ht | ⟨ht, hq⟩
    · obtain ⟨hf, hv⟩ := hfor.transform ht
      exact ⟨.inr (hf.trans (function_of_isSome (hf ▸ hfun))), hv⟩
    · obtain ⟨hf, hv⟩ := hfor.set ht hq
      exact ⟨.inl (hf.trans (function_of_isSome (hf ▸ hfun))), hv⟩
  obtain ⟨p, hp⟩ := Option.isSome_iff_exists.1 hval
  refine ⟨hset.1, r, names, hr, ⟨helement, hpath⟩, hfor.enumData.trans hof, ⟨p, hset.2 ▸ hp, ?_⟩, rfl⟩
  simp only [EnumSt.give, hp, Option.map_some, Option.getD_some]

/-- **Obtained.** What is made of a get callback's result is right exactly when it is not the name of a value that is not
representable. -/
theorem obtain_right_iff {x : EnumSt} (h : EnumInv cfg env x) (hpc : x.st.pc.Held) (hdistinct : Distinct env.desc)
    (hbad : env.badValue ≠ 0) {names : List Str} (hnames : x.frame.decodes = some names) (userError : ℕ) (string : Str) :
    (x.obtain env names userError string).Right env ↔
      (userError = 0 → ∀ v < 2 ^ 32, names[v]? = some string → Representable names v) := by
  obtain ⟨r, hr, hfor, hok⟩ := h.read hpc
  unfold Frame.decodes at hnames
  split_ifs at hnames with htype
  obtain ⟨helement, hpath, hof⟩ := enumData_some (hfor.enumData ▸ hnames)
  have hused : x.frame.enumData = .of names := hfor.enumData.trans hof
  obtain ⟨hfun, hval⟩ := hok (.inl htype.1)
  obtain ⟨hf, hv⟩ := hfor.get htype.1 htype.2
  have hcount : x.frame.enumData.elementCount = u32 names.length := by rw [hused]; rfl
  have hname : ∀ v < 2 ^ 32, names[v]? = some string →
      (translate env.badValue names (u32 names.length) 0 string = (0, some v) ↔ Representable names v) :=
    fun v hlt hat => translate_name_iff hbad (hdistinct _ _ hpath) hlt hat
  constructor
  · rintro ⟨-, r', names', hr', hfor', -, -, -, -, hback⟩ rfl v hlt hat
    obtain rfl : r = r' := Option.some.inj (hr.symm.trans hr')
    obtain rfl : names = names' := Option.some.inj (hpath.symm.trans hfor'.path)
    obtain ⟨herror, hvalue⟩ := hback rfl v hlt hat
    refine (hname v hlt hat).1 ?_
    rw [← hcount]
    exact Prod.ext herror hvalue
  · intro hfits
    obtain ⟨p, hp⟩ := Option.isSome_iff_exists.1 hval
    refine ⟨hf.trans (function_of_isSome (hf ▸ hfun)), r, names, hr, ⟨helement, hpath⟩, hused, ⟨p, hv ▸ hp, hp⟩,
      fun hne => ?_, fun hzero hnot => ?_, fun hzero v hlt hat => ?_⟩
    · simp only [EnumSt.obtain] at hne ⊢
      simp only [translate, if_neg hne, and_self]
    · obtain rfl : userError = 0 := hzero
      exact translate_unknown hnot _
    · obtain rfl : userError = 0 := hzero
      have htranslate := (hname v hlt hat).2 (hfits rfl v hlt hat)
      rw [← hcount] at htranslate
      exact Prod.mk.inj htranslate

variable (cfg env) in
theorem step_given (x : EnumSt) (a : EnumOp) : (x.step cfg env a).given = x.given ∨
    ∃ names, x.st.pc.Held ∧ x.frame.encodes = some names ∧ (x.step cfg env a).given = x.given ++ [x.give env names] := by
  obtain ⟨op, string⟩ := a
  cases op <;> simp only [EnumSt.step]
  case call =>
    split
    case h_1 c names hpc hnames => exact .inr ⟨names, .inl ⟨c, hpc⟩, hnames, rfl⟩
    case h_2 => exact .inl rfl
  case read => split <;> exact .inl rfl
  case ret u => split <;> exact .inl rfl
  all_goals exact .inl trivial

variable (cfg env) in
theorem step_obtained (x : EnumSt) (a : EnumOp) : ((x.step cfg env a).obtained = x.obtained ∧ Fits x a) ∨
    ∃ u names, x.st.pc.Held ∧ x.frame.decodes = some names ∧
      (x.step cfg env a).obtained = x.obtained ++ [x.obtain env names u a.string] ∧
      (Fits x a ↔ (u = 0 → ∀ v < 2 ^ 32, names[v]? = some a.string → Representable names v)) := by
  obtain ⟨op, string⟩ := a
  cases op
  case ret u =>
    cases hpc : x.st.pc
    case calling =>
      cases hnames : x.frame.decodes with
      | none => exact .inl ⟨by simp only [EnumSt.step, hpc, hnames], by simp only [Fits, hpc, hnames]⟩
      | some names =>
        exact .inr ⟨u.error, names, .inr rfl, rfl, by simp only [EnumSt.step, hpc, hnames],
          by simp only [Fits, hpc, hnames]⟩
    all_goals exact .inl ⟨by simp only [EnumSt.step, hpc], by simp only [Fits, hpc]⟩
  case call => exact .inl ⟨by simp only [EnumSt.step]; split <;> rfl, trivial⟩
  case read => exact .inl ⟨by simp only [EnumSt.step]; split <;> rfl, trivial⟩
  all_goals exact .inl ⟨rfl, trivial⟩

/-- the state is `Translated` when its logs are right -/
theorem EnumInv.translated {x : EnumSt} (h : EnumInv cfg env x) (hgiven : ∀ g ∈ x.given, g.Right env)
    (hobtained : ∀ o ∈ x.obtained, o.Right env) : Translated env x := by
  refine ⟨fun hpc => ?_, hgiven, hobtained, fun g hg o ho => back_of_right (hgiven g hg) (hobtained o ho)⟩
  obtain ⟨r, hr, hfor, -⟩ := h.read (.inr hpc)
  exact ⟨r, hr, hfor.enumData⟩

/-- a step that fits keeps the logs right -/
theorem step_translated (hdistinct : Distinct env.desc) (hbad : env.badValue ≠ 0) {x : EnumSt} {a : EnumOp}
    (h : EnumInv cfg env x) (ht : Translated env x) (ha : Fits x a) : Translated env (x.step cfg env a) := by
  refine (step_enumInv h a).translated (fun g hg => ?_) fun o ho => ?_
  · rcases step_given cfg env x a with hsame | ⟨names, hpc, hnames, hnew⟩
    · exact ht.given g (hsame ▸ hg)
    · rw [hnew] at hg
      rcases List.mem_append.1 hg with hg | hg
      · exact ht.given g hg
      · rw [List.mem_singleton.1 hg]
        exact give_right h hpc hnames
  · rcases step_obtained cfg env x a with ⟨hsame, -⟩ | ⟨u, names, hpc, hnames, hnew, hfits⟩
    · exact ht.obtained o (hsame ▸ ho)
    · rw [hnew] at ho
      rcases List.mem_append.1 ho with ho | ho
      · exact ht.obtained o ho
      · rw [List.mem_singleton.1 ho]
        exact (obtain_right_iff h hpc hdistinct hbad hnames u a.string).2 (hfits.1 ha)

/-- a step that does not fit is seen in the log -/
theorem fits_of_translated (hdistinct : Distinct env.desc) (hbad : env.badValue ≠ 0) {x : EnumSt} {a : EnumOp}
    (h : EnumInv cfg env x) (ht : Translated env (x.step cfg env a)) : Fits x a := by
  rcases step_obtained cfg env x a with ⟨-, hfits⟩ | ⟨u, names, hpc, hnames, hnew, hfits⟩
  · exact hfits
  · refine hfits.2 ((obtain_right_iff h hpc hdistinct hbad hnames u a.string).1 (ht.obtained _ ?_))
    rw [hnew]
    exact List.mem_append_right _ List.mem_cons_self

/-! ## Answers -/

variable (env) in
/-- a step as it is to the service without tables: a get callback returns the translated error -/
def EnumSt.plainOp (x : EnumSt) (a : EnumOp) : Op :=
  match a.op, x.st.pc, x.frame.decodes with
  | .ret u, .calling, some names => .ret { u with error := (x.obtain env names u.error a.string).error }
  | op, _, _ => op

variable (cfg env) in
/-- **Refinement.** With its tables the service does what it does without them, but for the errors of get callbacks. -/
theorem step_st (x : EnumSt) (a : EnumOp) : (x.step cfg env a).st = Rci.step cfg x.st (x.plainOp env a) := by
  obtain ⟨op, string⟩ := a
  cases op
  case ret u =>
    cases hpc : x.st.pc
    case calling => cases hnames : x.frame.decodes <;> simp only [EnumSt.step, EnumSt.plainOp, hpc, hnames]
    all_goals simp only [EnumSt.step, EnumSt.plainOp, hpc]
  case call => simp only [EnumSt.step, EnumSt.plainOp]; split <;> rfl
  case read => simp only [EnumSt.step, EnumSt.plainOp]; split <;> rfl
  all_goals rfl

theorem attributable_plainOp {x : EnumSt} {a : EnumOp} (h : Attributable cfg x.st a.op) :
    Attributable cfg x.st (x.plainOp env a) := by
  unfold EnumSt.plainOp
  split
  · trivial
  · exact h

theorem present_results (r : Request) (s : St) : (present cfg r s).results = s.results := by
  unfold present
  split
  · split <;> rfl
  · rfl

/-- results stay -/
theorem mem_results {s : St} {r : ℕ × UserResult} (hr : r ∈ s.results) (o : Op) : r ∈ (Rci.step cfg s o).results := by
  cases o <;> simp only [Rci.step]
  case submit id rc => split <;> simpa only [present_results] using hr
  case poll => split <;> simpa only [present_results] using hr
  case ret u => split <;> [exact List.mem_append_left _ hr; exact hr]
  case cancel rc => exact hr
  case read => split <;> [(split <;> exact hr); exact hr]
  all_goals split <;> exact hr

/-- the translated errors are the service's results -/
def Reported (x : EnumSt) : Prop := ∀ o ∈ x.obtained, ∃ u, (serialOf o.request, u) ∈ x.st.results ∧ u.error = o.error

theorem step_reported {x : EnumSt} (h : Reported x) (a : EnumOp) : Reported (x.step cfg env a) := by
  have hold : ∀ o ∈ x.obtained, ∃ u, (serialOf o.request, u) ∈ (x.step cfg env a).st.results ∧ u.error = o.error := by
    intro o ho
    obtain ⟨u, hu, herror⟩ := h o ho
    exact ⟨u, step_st cfg env x a ▸ mem_results hu _, herror⟩
  obtain ⟨op, string⟩ := a
  cases op
  case ret u =>
    cases hpc : x.st.pc
    case calling =>
      cases hnames : x.frame.decodes with
      | none => simpa only [Reported, EnumSt.step, hpc, hnames] using hold
      | some names =>
        intro o ho
        simp only [EnumSt.step, hpc, hnames] at ho hold ⊢
        rcases List.mem_append.1 ho with ho | ho
        · exact hold o ho
        · rw [List.mem_singleton.1 ho]
          refine ⟨{ u with error := (x.obtain env names u.error string).error }, ?_, rfl⟩
          simp only [Rci.step, hpc]
          exact List.mem_append_right _ List.mem_cons_self
    all_goals simpa only [Reported, EnumSt.step, hpc] using hold
  case call =>
    intro o ho
    refine hold o ?_
    simp only [EnumSt.step] at ho
    split at ho <;> exact ho
  case read =>
    intro o ho
    refine hold o ?_
    simp only [EnumSt.step] at ho
    split at ho <;> exact ho
  all_goals exact hold

/-- a get request's answer carries the error that its callback's result was translated to -/
theorem answered_translated {x : EnumSt} (h : Inv x.st) (hreported : Reported x) {y : Answer} (hy : y ∈ x.st.answers)
    {o : Obtained} (ho : o ∈ x.obtained) (hserial : serialOf o.request = y.request.serial) :
    y.record.errorId = o.error := by
  obtain ⟨u, hu, herror⟩ := hreported o ho
  have hmem : u ∈ resultsOf x.st y.request.serial :=
    List.mem_map.2 ⟨_, List.mem_filter.2 ⟨hu, by simpa using hserial⟩, rfl⟩
  have hanswered := h.answered hy
  unfold Answered at hanswered
  cases hq : y.request.queued with
  | some q =>
    simp only [hq] at hanswered
    obtain ⟨-, u', hl, herr, -⟩ := hanswered
    rw [hl, List.mem_singleton] at hmem
    rw [herr, ← herror, hmem]
  | none =>
    -- nothing has been run for it
    have hright := h.handshake.answered y.view (List.mem_map_of_mem hy)
    simp only [Handshake.Right, Answer.view, Request.job, hq, Option.isSome_none, Bool.false_eq_true, if_false] at hright
    have hnone := List.filter_eq_nil_iff.1 hright.1.2 _ (List.mem_map_of_mem hu)
    simp [hserial] at hnone

/-! ## Runs -/

variable (cfg) in
/-- **Translation.** Through every run, whatever is cancelled: the table at work is the one at the request's path; a set
callback is given the name of its request's value; a get callback's error is passed on, a string that is not in the table is
a bad value, and a name is translated back to its value; exactly when no get callback that succeeds returns the name of a
value that is not representable. And in a run that is `Attributable` a request is answered with the translated error. -/
theorem translated_iff (hdistinct : Distinct env.desc) (hbad : env.badValue ≠ 0) {x : EnumSt} (h : EnumInit x)
    (ops : List EnumOp) :
    ((∀ k, Translated env (run (EnumSt.step cfg env) x (ops.take k))) ↔ Along (EnumSt.step cfg env) Fits x ops) ∧
      (Along (EnumSt.step cfg env) (fun x a => Attributable cfg x.st a.op) x ops →
        ∀ y ∈ (run (EnumSt.step cfg env) x ops).st.answers, ∀ o ∈ (run (EnumSt.step cfg env) x ops).obtained,
          serialOf o.request = y.request.serial → y.record.errorId = o.error) := by
  have hinv : EnumInv cfg env x := enumInv_init h
  have hstart : Translated env x :=
    hinv.translated (by simp [h.history.1]) (by simp [h.history.2])
  constructor
  · exact along_iff (I := fun x => EnumInv cfg env x ∧ Translated env x) (fun _ hx => hx.2)
      (fun _ a hx ha => ⟨step_enumInv hx.1 a, step_translated hdistinct hbad hx.1 hx.2 ha⟩)
      (fun _ _ hx ht => fits_of_translated hdistinct hbad hx.1 ht) ⟨hinv, hstart⟩ ops
  · intro hops y hy o ho hserial
    have hend : Inv (run (EnumSt.step cfg env) x ops).st ∧ Reported (run (EnumSt.step cfg env) x ops) :=
      Runs.run_inv (I := fun x => Inv x.st ∧ Reported x)
        (fun x a hx ha => ⟨step_st cfg env x a ▸ Rci.step_inv cfg hx.1 (attributable_plainOp ha), step_reported hx.2 a⟩)
        ⟨inv_init h.st, by simp [Reported, h.history.2]⟩ hops
    exact answered_translated hend.1 hend.2 hy ho hserial

/-- a run on a descriptor whose enums have no more than 2^31 names fits -/
theorem fits_of_small (hsmall : ∀ p names, enumElement env.desc p = some names → names.length ≤ 2 ^ 31) {x : EnumSt}
    (h : EnumInv cfg env x) (ops : List EnumOp) : Along (EnumSt.step cfg env) Fits x ops := by
  induction ops generalizing x with
  | nil => trivial
  | cons a ops ih =>
    refine ⟨?_, ih (step_enumInv h a)⟩
    unfold Fits
    split
    case h_1 u names _ hpc hnames =>
      obtain ⟨r, -, hfor, -⟩ := h.read (.inr hpc)
      unfold Frame.decodes at hnames
      split_ifs at hnames
      obtain ⟨-, hpath, -⟩ := enumData_some (hfor.enumData ▸ hnames)
      intro _ v _ hat
      obtain ⟨hlt, -⟩ := List.getElem?_eq_some_iff.1 hat
      have hlength := hsmall _ _ hpath
      refine ⟨hlt.trans_le hlength, ?_⟩
      unfold u32
      omega
    case h_2 => trivial

/-- a descriptor with one element, an enum in a list of the first group -/
def Descriptor.nested (names : List Str) : Descriptor
  | .setting => [[.collection [.element names]]]
  | .state => []

theorem enumElement_nested {names names' : List Str} {p : Path} (hat : enumElement (.nested names) p = some names') :
    names' = names := by
  obtain ⟨groupType, groupId, listIds, elementId⟩ := p
  -- the only path to an element goes through the list
  cases groupType with
  | state => simp [enumElement, Descriptor.nested] at hat
  | setting =>
    rcases groupId with - | groupId
    · rcases listIds with - | ⟨- | id, - | ⟨id', ids⟩⟩
      · rcases elementId with - | elementId <;> simp [enumElement, Descriptor.nested, walk] at hat
      · rcases elementId with - | elementId
        · simpa [enumElement, Descriptor.nested, walk] using hat.symm
        · simp [enumElement, Descriptor.nested, walk] at hat
      · rcases id' with - | id' <;> simp [enumElement, Descriptor.nested, walk] at hat
      · simp [enumElement, Descriptor.nested, walk] at hat
      · simp [enumElement, Descriptor.nested, walk] at hat
    · simp [enumElement, Descriptor.nested] at hat

theorem distinct_nested {names : List Str} (h : names.Nodup) : Distinct (.nested names) :=
  fun _ _ hat => enumElement_nested hat ▸ h

/-- a record for that element -/
def RemoteConfig.nested : RemoteConfig :=
  { RemoteConfig.plain with listDepth := 1, element := ⟨0, none, .enum, some 1, none⟩ }

/-- the service as it is started, with this action in the instance record -/
def EnumSt.fresh (action : Action) : EnumSt :=
  ⟨.fresh { RciInfo.zero with action := some action }, .none, ⟨.none, none, none, .none, false⟩, [], []⟩

theorem enumInit_fresh (action : Action) : EnumInit (.fresh action) := ⟨init_fresh _, rfl, rfl⟩

/-- the element is set, an action starts that queries, and the element is queried with this string -/
def setAndQuery (string : Str) : List EnumOp :=
  List.map (fun o : Op => ⟨o, string⟩) ([Op.submit .elementProcess .nested] ++ serves 0 ++ [Op.poll] ++
    [Op.submit .actionStart .plain] ++ serves 0 ++ [Op.poll] ++ [Op.submit .elementProcess .nested] ++ serves 0 ++ [Op.poll])

def onOff : List Str := [[111, 110], [111, 102, 102]]

/-- "off" is given for 1, and comes back as 1 -/
theorem translated_on_off :
    let env : EnumEnv := ⟨.nested onOff, 1, fun _ => 1⟩
    let ops := setAndQuery [111, 102, 102]
    let x := run (EnumSt.step .all env) (.fresh .set) ops
    (∀ k, Translated env (run (EnumSt.step .all env) (.fresh .set) (ops.take k))) ∧
      (∀ y ∈ x.st.answers, ∀ o ∈ x.obtained, serialOf o.request = y.request.serial → y.record.errorId = o.error) ∧
      x.given.map (fun g => (g.value, g.string)) = [(1, some [111, 102, 102])] ∧
      x.obtained.map (fun o => (o.error, o.value)) = [(0, some 1)] ∧
      x.st.answers.map (fun y => y.record.errorId) = [0, 0, 0] := by
  intro env ops x
  have hdistinct : Distinct env.desc := distinct_nested (by decide)
  have hsmall : ∀ p names, enumElement env.desc p = some names → names.length ≤ 2 ^ 31 := by
    intro p names hat
    rw [enumElement_nested hat]
    decide
  have hiff := translated_iff .all hdistinct (by decide) (enumInit_fresh .set) ops
  refine ⟨hiff.1.2 (fits_of_small hsmall (enumInv_init (enumInit_fresh .set)) ops), hiff.2 ?_, ?_⟩
  · decide +kernel
  · decide +kernel

/-- the element is processed, up to the user callback's return with this string -/
def processNested (string : Str) : List EnumOp :=
  List.map (fun o : Op => ⟨o, string⟩) [.submit .elementProcess .nested, .wake, .read, .call, fails 0]

theorem set_nested (names : List Str) (badValue : ℕ) (content : ℕ → UInt32) (string : Str) :
    (run (EnumSt.step .all ⟨.nested names, badValue, content⟩) (.fresh .set) (processNested string)).given.map
      (fun g => (g.value, g.string)) = [((content 1).toNat, names[(content 1).toNat]?)] := by
  rfl

theorem query_nested (names : List Str) (badValue : ℕ) (content : ℕ → UInt32) (string : Str) :
    (run (EnumSt.step .all ⟨.nested names, badValue, content⟩) (.fresh .query) (processNested string)).obtained.map
      (fun o => (o.userError, o.string, o.error, o.value)) =
        [(0, string, translate badValue names (u32 names.length) 0 string)] := by
  rfl

/-- the digits of i, none of them the string's end -/
def digitName (i : ℕ) : Str := (Nat.digits 128 i).map fun d => UInt8.ofNat (d + 1)

theorem digitName_injective : Function.Injective digitName := by
  have hinv : Function.LeftInverse (fun s : Str => Nat.ofDigits 128 (s.map fun c => c.toNat - 1)) digitName := by
    intro i
    have hdigits : (digitName i).map (fun c => c.toNat - 1) = Nat.digits 128 i := by
      rw [digitName, List.map_map]
      conv_rhs => rw [← List.map_id (Nat.digits 128 i)]
      refine List.map_congr_left fun d hd => ?_
      have hlt : d < 128 := Nat.digits_lt_base (by omega) hd
      simp only [Function.comp, UInt8.toNat_ofNat', id]
      omega
    simp only [hdigits, Nat.ofDigits_digits]
  exact hinv.injective

/-- an enum of 2^31 + 1 values -/
def largeNames : List Str := (List.range (2 ^ 31 + 1)).map digitName

theorem largeNames_nodup : largeNames.Nodup := List.nodup_range.map digitName_injective

theorem largeNames_last : largeNames[2 ^ 31]? = some (digitName (2 ^ 31)) := by
  rw [largeNames, List.getElem?_map, List.getElem?_range (by norm_num), Option.map_some]

/-- the name of the last value of a large enum is given to a set callback, and refused from a get callback -/
theorem large_table :
    let env : EnumEnv := ⟨.nested largeNames, 1, fun _ => UInt32.ofNat (2 ^ 31)⟩
    let set := run (EnumSt.step .all env) (.fresh .set) (processNested (digitName (2 ^ 31)))
    let get := run (EnumSt.step .all env) (.fresh .query) (processNested (digitName (2 ^ 31)))
    Distinct env.desc ∧ set.given.map (fun g => (g.value, g.string)) = [(2 ^ 31, some (digitName (2 ^ 31)))] ∧
      get.obtained.map (fun o => (o.userError, o.string, o.error)) = [(0, digitName (2 ^ 31), 1)] ∧
      ¬ Translated env get := by
  intro env set get
  have hcontent : (env.content 1).toNat = 2 ^ 31 := by
    simp only [env, UInt32.toNat_ofNat']
    norm_num
  have hset := set_nested largeNames 1 env.content (digitName (2 ^ 31))
  have hget := query_nested largeNames 1 env.content (digitName (2 ^ 31))
  have hrefused : (translate 1 largeNames (u32 largeNames.length) 0 (digitName (2 ^ 31))).1 = 1 :=
    translate_unrepresentable 1 largeNames_nodup (by norm_num) largeNames_last fun h => lt_irrefl _ h.1
  have hlog : get.obtained.map (fun o => (o.userError, o.string, o.error)) = [(0, digitName (2 ^ 31), 1)] := by
    have herrors := congrArg (List.map fun l : ℕ × Str × ℕ × Option ℕ => (l.1, l.2.1, l.2.2.1)) hget
    simpa only [List.map_map, Function.comp_def, List.map_cons, List.map_nil, hrefused] using herrors
  refine ⟨distinct_nested largeNames_nodup, hset.trans ?_, hlog, fun ht => ?_⟩
  · rw [hcontent, largeNames_last]
  · obtain ⟨o, ho, hlast⟩ : ∃ o ∈ get.obtained, (o.userError, o.string, o.error) = (0, digitName (2 ^ 31), 1) := by
      rw [← List.mem_map, hlog]
      exact List.mem_cons_self
    obtain ⟨huser, hstring, herror⟩ := Prod.mk.inj hlast |>.imp_right Prod.mk.inj
    obtain ⟨-, r, names, -, hfor, -, -, -, -, hback⟩ := ht.obtained o ho
    have hnames : names = largeNames := enumElement_nested hfor.path
    have hat : names[2 ^ 31]? = some o.string := by rw [hnames, hstring, largeNames_last]
    have hzero := (hback huser (2 ^ 31) (by norm_num) hat).1
    omega

end CcApi.Rci
