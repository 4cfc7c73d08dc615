/-
The SMS transport's configuration, from the caller's record to the connector (`ccapi_transport_sms.c`, and of `ccapi.c` the
requests of `ccapi_config_handler` that are about it and `ccapi_network_sms_handler`).

A start copies the caller's record and its two strings into memory of the library's own, the connector asks for them one by
one, and the cloud replaces the telephone number by one that it chooses. The strings live in one memory with the caller's,
who may write over its own at any time. A start frees the record that is there before it fills a new one, and the connector is
not kept from asking in between.

- `Spec`: what the component is for, with the strings as values and no memory.
- `step_view`: a step of the code is a step of the specification.
- `configured`: in every run, up to a request that finds no record, the connector is told what the specification says, and the
  calls return what it says; of what the library has allocated it holds what its record points to, and has freed the rest, each
  block once.

Premises: one call at a time, in a library that runs; the events of the connector come at any time. The caller's strings are
no memory of the library's, and stay as they are while a start copies them. The connector is asked until it is no longer busy,
and sets proper strings. A build without CCIMP_DEBUG_ENABLED.

The frees of a record are one step: what comes in between finds what it needs as before, or freed. So are the allocation and the
filling of a new one: a request that falls into it counts as one that finds no record.
-/
import CcApi.Lib.Runs
import CcApi.Transport.Ownership

namespace CcApi.Transport.Sms

open Lib Lib.Runs

/-! ## Data -/

/-- `ccapi_sms_info_t`; σ is what stands for a string -/
structure Record (σ : Type) where
  startTimeout : ℕ
  phone : Option σ
  serviceId : Option σ
  maxSessions : ℕ
  rxTimeout : ℕ
  /-- `callback.close` is not NULL -/
  closeCb : Bool
deriving DecidableEq, Repr

namespace Record

def map {σ τ : Type} (f : σ → τ) (r : Record σ) : Record τ :=
  { startTimeout := r.startTimeout, phone := r.phone.map f, serviceId := r.serviceId.map f, maxSessions := r.maxSessions
    rxTimeout := r.rxTimeout, closeCb := r.closeCb }

/-- what the checks of a start look at -/
def info (r : Record Str) : SmsInfo :=
  { maxSessions := r.maxSessions, phone := r.phone, serviceId := r.serviceId, startTimeout := r.startTimeout }

/-- the checks of `ccxapi_start_transport_sms` -/
def check (r : Record Str) : StartError := (StartArg.sms (some r.info)).early

/-- CCAPI_SM_SMS_MAX_SESSIONS_DEFAULT -/
def withDefault {σ : Type} (r : Record σ) : Record σ :=
  { r with maxSessions := if r.maxSessions = 0 then 20 else r.maxSessions }

/-- the strings that `free_transport_sms_info` frees -/
def strings (r : Record ℕ) : List ℕ := r.phone.toList ++ r.serviceId.toList

end Record

/-- what memory answers a start -/
structure Env where
  recordOk : Bool
  phoneOk : Bool
  serviceIdOk : Bool
deriving DecidableEq, Repr

/-- what the connector asks; ok says whether there is memory for the new telephone number -/
inductive Request where
  | maxSessions
  | rxTimeout
  | getDeviceCloudPhone
  | setDeviceCloudPhone (phone : Str) (ok : Bool)
  | serviceId
deriving DecidableEq, Repr

inductive Reply where
  | number (n : ℕ)
  | string (s : Str)
  | done
  | error
  /-- `reconnect` as a network close leaves it -/
  | reconnect (b : Bool)
deriving DecidableEq, Repr

/-- where the call stands -/
inductive Stage (σ : Type) where
  | idle
  /-- a start has freed the record that was there -/
  | replacing (source : Record σ)
  /-- the new one is filled, and the flag is cleared -/
  | filled (forever : Bool)
  /-- the connector has accepted -/
  | starting (forever : Bool)
  | stopping
deriving DecidableEq, Repr

namespace Stage

def map {σ τ : Type} (f : σ → τ) : Stage σ → Stage τ
  | .idle => .idle
  | .replacing source => .replacing (source.map f)
  | .filled forever => .filled forever
  | .starting forever => .starting forever
  | .stopping => .stopping

/-- the caller's strings that are going to be copied -/
def strings : Stage ℕ → List ℕ
  | .replacing source => source.strings
  | _ => []

end Stage

inductive Op (σ : Type) where
  /-- the checks of a start, and the frees -/
  | start (arg : Option (Record σ))
  /-- the copy -/
  | fill (env : Env)
  /-- the connector's first answer to a start that is not busy -/
  | connect (answer : ConnectorStatus)
  | stop (accepted : Bool)
  /-- the call that waits looks again -/
  | wait (timedOut : Bool)
  /-- the platform has opened the network -/
  | opened
  /-- the platform has closed the network -/
  | closed (c : CloseStatus)
  /-- the second half of a network close, with what the caller's callback answers and what `reconnect` was before -/
  | reconnect (answer before : Bool)
  | stopCompleted
  | config (q : Request)
  /-- the caller writes over a string -/
  | write (p : σ) (text : Str)
deriving DecidableEq, Repr

/-- what is the same with the strings in memory and as values; κ is what is kept of the configuration -/
structure Desk (σ κ : Type) where
  started : Bool
  stage : Stage σ
  /-- the network close whose handler has cleared the flag -/
  closing : Option CloseStatus
  /-- a request has found no record or no string: NULL, or a record that a start has freed and not yet filled -/
  crashed : Bool
  /-- what the connector has been told -/
  replies : List Reply
  /-- what the calls have returned -/
  results : List Result
  kept : κ
deriving DecidableEq, Repr

namespace Desk

variable {σ κ : Type}

def reply (x : Reply) (s : Desk σ κ) : Desk σ κ := { s with replies := s.replies ++ [x] }

def ret (x : Result) (s : Desk σ κ) : Desk σ κ := { s with stage := .idle, results := s.results ++ [x] }

def crash (s : Desk σ κ) : Desk σ κ := { s with crashed := true }

/-- a request for a string; NULL is given to `strlen` -/
def tell (x : Option Str) (s : Desk σ κ) : Desk σ κ :=
  match x with
  | some t => s.reply (.string t)
  | none => s.crash

/-- the second half of a network close; closeCb says whether the record, if there is one, has a callback -/
def reconnect (closeCb : Option Bool) (answer before : Bool) (s : Desk σ κ) : Desk σ κ :=
  match s.closing with
  | none => s
  | some c =>
    let s := { s with closing := none }
    if c.asks .sms then
      match closeCb with
      | some cb => s.reply (.reconnect (c.reconnect .sms (cb && answer) before))
      | none => s.crash
    else s.reply (.reconnect (c.reconnect .sms false before))

@[simp] theorem reply_kept (x : Reply) (s : Desk σ κ) : (s.reply x).kept = s.kept := rfl

@[simp] theorem tell_kept (x : Option Str) (s : Desk σ κ) : (s.tell x).kept = s.kept := by
  cases x <;> rfl

@[simp] theorem reconnect_kept (closeCb : Option Bool) (answer before : Bool) (s : Desk σ κ) :
    (s.reconnect closeCb answer before).kept = s.kept := by
  unfold reconnect
  cases s.closing with
  | none => rfl
  | some c =>
    dsimp only
    split_ifs
    · cases closeCb <;> rfl
    · rfl

@[simp] theorem reply_stage (x : Reply) (s : Desk σ κ) : (s.reply x).stage = s.stage := rfl

@[simp] theorem tell_stage (x : Option Str) (s : Desk σ κ) : (s.tell x).stage = s.stage := by
  cases x <;> rfl

@[simp] theorem reconnect_stage (closeCb : Option Bool) (answer before : Bool) (s : Desk σ κ) :
    (s.reconnect closeCb answer before).stage = s.stage := by
  unfold reconnect
  cases s.closing with
  | none => rfl
  | some c =>
    dsimp only
    split_ifs
    · cases closeCb <;> rfl
    · rfl

def fresh (k : κ) : Desk σ κ :=
  { started := false, stage := .idle, closing := none, crashed := false, replies := [], results := [], kept := k }

end Desk

/-! ## The code -/

/-- `transport_sms.info` and the memory it points into; info is none when it is NULL, and while it points to a record that a
start has freed or is filling -/
structure Store where
  info : Option (ℕ × Record ℕ)
  memory : Memory

abbrev St := Desk ℕ Store

/-- what the library has of the memory: the record and its strings -/
def Store.blocks (k : Store) : List ℕ :=
  match k.info with
  | some (b, r) => r.strings ++ [b]
  | none => []

/-- `free_transport_sms_info` and info = NULL -/
def Store.freeInfo (k : Store) : Store := { info := none, memory := k.memory.freeAll k.blocks }

/-- a string is written over -/
def Store.overwrite (p : ℕ) (text : Str) (k : Store) : Store :=
  { k with memory := { k.memory with text := Function.update k.memory.text p text } }

/-- `ccapi_strdup` of a string of the connector's -/
def newString (ok : Bool) (text : Str) (m : Memory) : Option ℕ × Memory :=
  match m.ledger.acquire ok with
  | (none, ledger) => (none, { m with ledger := ledger })
  | (some b, ledger) => (some b, { ledger := ledger, text := Function.update m.text b text })

/-- `ccapi_strdup` of a string that may be NULL, and `valid_malloc` -/
def copyField (ok : Bool) (src : Option ℕ) (m : Memory) : Option ℕ × Bool × Memory :=
  match src with
  | none => (none, true, m)
  | some p =>
    let (copy, m) := m.copyString ok p
    (copy, copy.isSome, m)

/-- `copy_ccapi_sms_info_t_structure` -/
def copySmsInfo (env : Env) (source : Record ℕ) (m : Memory) : Record ℕ × Bool × Memory :=
  let dest := { source.withDefault with phone := none, serviceId := none }
  match copyField env.phoneOk source.phone m with
  | (phone, false, m) => ({ dest with phone := phone }, false, m)
  | (phone, true, m) =>
    let (serviceId, ok, m) := copyField env.serviceIdOk source.serviceId m
    ({ dest with phone := phone, serviceId := serviceId }, ok, m)

/-- the record is allocated and filled; whether there is memory for it -/
def Store.fill (env : Env) (source : Record ℕ) (k : Store) : Store × Bool :=
  match k.memory.ledger.acquire env.recordOk with
  | (none, _) => (k, false)
  | (some b, ledger) =>
    let (r, ok, m) := copySmsInfo env source { k.memory with ledger := ledger }
    (⟨some (b, r), m⟩, ok)

namespace St

/-- the label `done` of `ccxapi_start_transport_sms` -/
def leaveStart (e : StartError) (s : St) : St :=
  let s : St := if e.frees then { s with kept := s.kept.freeInfo } else s
  s.ret (.start e)

/-- `ccxapi_start_transport_sms` up to its `ccapi_malloc` -/
def start (arg : Option (Record ℕ)) (s : St) : St :=
  if s.started then leaveStart .alreadyStarted s
  else
    match arg with
    | none => leaveStart .nullPointer s
    | some source =>
      match (source.map s.kept.memory.text).check with
      | .none => { s with kept := s.kept.freeInfo, stage := .replacing source }
      | e => leaveStart e s

/-- from there up to its request to the connector -/
def fill (env : Env) (s : St) : St :=
  match s.stage with
  | .replacing source =>
    let (k, ok) := s.kept.fill env source
    if ok then { s with kept := k, started := false, stage := .filled (source.startTimeout = 0) }
    else leaveStart .insufficientMemory { s with kept := k }
  | _ => s

/-- the connector has answered -/
def connect (answer : ConnectorStatus) (s : St) : St :=
  match s.stage with
  | .filled forever => if answer = .success then { s with stage := .starting forever } else leaveStart .init s
  | _ => s

/-- the wait of a start or of a stop -/
def wait (timedOut : Bool) (s : St) : St :=
  match s.stage with
  | .starting forever =>
    if timedOut ∧ forever = false then leaveStart .timeout s else if s.started then leaveStart .none s else s
  | .stopping => if s.started then s else Desk.ret .stopped { s with kept := s.kept.freeInfo }
  | _ => s

/-- `ccapi_config_handler` -/
def config (q : Request) (s : St) : St :=
  match s.kept.info with
  | none => s.crash
  | some (b, r) =>
    match q with
    | .maxSessions => s.reply (.number r.maxSessions)
    | .rxTimeout => s.reply (.number r.rxTimeout)
    | .getDeviceCloudPhone => s.tell (r.phone.map s.kept.memory.text)
    | .serviceId => s.tell (r.serviceId.map s.kept.memory.text)
    | .setDeviceCloudPhone phone ok =>
      let (copy, m) := newString ok phone (s.kept.memory.freeAll r.phone.toList)
      Desk.reply (if copy.isSome then .done else .error) { s with kept := ⟨some (b, { r with phone := copy }), m⟩ }

def step (s : St) (o : Op ℕ) : St :=
  if s.crashed then s
  else
    match o with
    | .start arg => if s.stage = .idle then start arg s else s
    | .fill env => fill env s
    | .connect answer => connect answer s
    | .stop accepted =>
      if s.stage ≠ .idle then s
      else if s.started = false then s.ret .notStarted
      else if accepted then { s with stage := .stopping }
      else s.ret .ccfsm
    | .wait timedOut => wait timedOut s
    | .opened => if s.closing = none then { s with started := true } else s
    | .closed c => if s.closing = none then { s with started := false, closing := some c } else s
    | .reconnect answer before => s.reconnect (s.kept.info.map fun br => br.2.closeCb) answer before
    | .stopCompleted => if s.closing = none then { s with started := false } else s
    | .config q => if s.closing = none then config q s else s
    | .write p text => { s with kept := s.kept.overwrite p text }

/-- the caller's strings at addresses below first -/
def fresh (first : ℕ) (text : ℕ → Str) : St := Desk.fresh ⟨none, ⟨⟨first, []⟩, text⟩⟩

/-- the caller has its strings in memory of its own -/
def Legal (s : St) : Op ℕ → Prop
  | .start (some source) => ∀ p ∈ source.strings, p < s.kept.memory.ledger.next ∧ p ∉ s.kept.blocks
  | .write p _ => p ∉ s.kept.blocks ∧ p ∉ s.stage.strings
  | _ => True

instance (s : St) (o : Op ℕ) : Decidable (s.Legal o) :=
  match o with
  | .start (some _) => inferInstanceAs (Decidable (∀ _ ∈ _, _ ∧ _))
  | .start none | .fill _ | .connect _ | .stop _ | .wait _ | .opened | .closed _ | .reconnect _ _ | .stopCompleted
    | .config _ => inferInstanceAs (Decidable True)
  | .write _ _ => inferInstanceAs (Decidable (_ ∧ _))

end St

/-! ## The specification -/

/-- the configuration of the transport, if it has one -/
abbrev Spec := Desk Str (Option (Record Str))

namespace Spec

/-- a call that has failed, or has been refused -/
def leaveStart (e : StartError) (s : Spec) : Spec := Desk.ret (.start e) (if e.frees then { s with kept := none } else s)

/-- a start that passes its checks does away with the configuration that was there -/
def start (arg : Option (Record Str)) (s : Spec) : Spec :=
  if s.started then leaveStart .alreadyStarted s
  else
    match arg with
    | none => leaveStart .nullPointer s
    | some source =>
      match source.check with
      | .none => { s with kept := none, stage := .replacing source }
      | e => leaveStart e s

/-- it has its own once there is memory for it -/
def fill (env : Env) (s : Spec) : Spec :=
  match s.stage with
  | .replacing source =>
    if env.recordOk && env.phoneOk && env.serviceIdOk then
      { s with kept := some source.withDefault, started := false, stage := .filled (source.startTimeout = 0) }
    else leaveStart .insufficientMemory s
  | _ => s

def connect (answer : ConnectorStatus) (s : Spec) : Spec :=
  match s.stage with
  | .filled forever => if answer = .success then { s with stage := .starting forever } else leaveStart .init s
  | _ => s

def wait (timedOut : Bool) (s : Spec) : Spec :=
  match s.stage with
  | .starting forever =>
    if timedOut ∧ forever = false then leaveStart .timeout s else if s.started then leaveStart .none s else s
  | .stopping => if s.started then s else Desk.ret .stopped { s with kept := none }
  | _ => s

/-- the telephone number is the cloud's once it has set it; without memory there is none -/
def config (q : Request) (s : Spec) : Spec :=
  match s.kept with
  | none => s.crash
  | some r =>
    match q with
    | .maxSessions => s.reply (.number r.maxSessions)
    | .rxTimeout => s.reply (.number r.rxTimeout)
    | .getDeviceCloudPhone => s.tell r.phone
    | .serviceId => s.tell r.serviceId
    | .setDeviceCloudPhone phone ok =>
      Desk.reply (if ok then .done else .error) { s with kept := some { r with phone := if ok then some phone else none } }

/-- what the caller does with its strings behind the call does not matter -/
def step (s : Spec) (o : Op Str) : Spec :=
  if s.crashed then s
  else
    match o with
    | .start arg => if s.stage = .idle then start arg s else s
    | .fill env => fill env s
    | .connect answer => connect answer s
    | .stop accepted =>
      if s.stage ≠ .idle then s
      else if s.started = false then s.ret .notStarted
      else if accepted then { s with stage := .stopping }
      else s.ret .ccfsm
    | .wait timedOut => wait timedOut s
    | .opened => if s.closing = none then { s with started := true } else s
    | .closed c => if s.closing = none then { s with started := false, closing := some c } else s
    | .reconnect answer before => s.reconnect (s.kept.map Record.closeCb) answer before
    | .stopCompleted => if s.closing = none then { s with started := false } else s
    | .config q => if s.closing = none then config q s else s
    | .write _ _ => s

def fresh : Spec := Desk.fresh none

end Spec

/-! ## The library's memory -/

namespace Store

/-- the library holds what its record points to, and has given back the rest of what it has allocated, each block once -/
structure Inv (first : ℕ) (k : Store) : Prop where
  owns : k.memory.ledger.Owns k.blocks
  rest : ∀ b, first ≤ b → b < k.memory.ledger.next → b ∈ k.memory.ledger.releases ∨ b ∈ k.blocks

variable {first : ℕ} {k k' : Store}

theorem Inv.freeInfo (h : k.Inv first) : k.freeInfo.Inv first := by
  refine ⟨h.owns.give k.blocks [] (by simp), fun b hfirst hb => .inl ?_⟩
  exact List.mem_append.2 (h.rest b hfirst hb)

/-- n blocks are allocated for a library that has none -/
theorem Inv.allocate (h : k.Inv first) (hnone : k.blocks = []) (n : ℕ)
    (hledger : k'.memory.ledger = ⟨k.memory.ledger.next + n, k.memory.ledger.releases⟩)
    (hblocks : k'.blocks.Perm (List.range' k.memory.ledger.next n)) : k'.Inv first := by
  have hmem (b : ℕ) : b ∈ k'.blocks ↔ k.memory.ledger.next ≤ b ∧ b < k.memory.ledger.next + n := by
    rw [hblocks.mem_iff, List.mem_range'_1]
  constructor
  case owns =>
    rw [hledger]
    refine ⟨⟨fun b hb => (h.owns.sound.known b hb).trans_le (Nat.le_add_right _ _), h.owns.sound.once⟩,
      hblocks.nodup_iff.2 List.nodup_range', fun b hb => ?_⟩
    obtain ⟨hle, hlt⟩ := (hmem b).1 hb
    exact ⟨hlt, fun hr => absurd (h.owns.sound.known b hr) (not_lt.2 hle)⟩
  case rest =>
    intro b hfirst hb
    rw [hledger] at hb ⊢
    by_cases hlt : b < k.memory.ledger.next
    · rcases h.rest b hfirst hlt with hr | hr
      · exact .inl hr
      · rw [hnone] at hr
        cases hr
    · exact .inr ((hmem b).2 ⟨not_lt.1 hlt, hb⟩)

end Store

section Copy

variable {env : Env} {source : Record ℕ} {p q : ℕ}

/-- there is memory for both strings -/
theorem copySmsInfo_true (hphone : source.phone = some p) (hservice : source.serviceId = some q) (hp : env.phoneOk = true)
    (hq : env.serviceIdOk = true) (m : Memory) :
    copySmsInfo env source m =
      ({ source.withDefault with phone := some m.ledger.next, serviceId := some (m.ledger.next + 1) }, true,
        ⟨⟨m.ledger.next + 2, m.ledger.releases⟩,
          Function.update (Function.update m.text m.ledger.next (m.text p)) (m.ledger.next + 1)
            (Function.update m.text m.ledger.next (m.text p) q)⟩) := by
  simp [copySmsInfo, copyField, Memory.copyString, hphone, hservice, hp, hq]

/-- there is memory for the first one only, or for none -/
theorem copySmsInfo_false (hphone : source.phone = some p) (hservice : source.serviceId = some q)
    (hfail : (env.phoneOk && env.serviceIdOk) = false) (m : Memory) :
    ∃ n r text, copySmsInfo env source m = (r, false, ⟨⟨m.ledger.next + n, m.ledger.releases⟩, text⟩) ∧
      r.strings = List.range' m.ledger.next n := by
  cases hp : env.phoneOk with
  | false =>
    refine ⟨0, { source.withDefault with phone := none, serviceId := none }, m.text, ?_, rfl⟩
    simp [copySmsInfo, copyField, Memory.copyString, hphone, hp]
  | true =>
    have hq : env.serviceIdOk = false := by simpa [hp] using hfail
    refine ⟨1, { source.withDefault with phone := some m.ledger.next, serviceId := none },
      Function.update m.text m.ledger.next (m.text p), ?_, rfl⟩
    simp [copySmsInfo, copyField, Memory.copyString, hphone, hservice, hp, hq]

end Copy

/-! ## What the memory says -/

/-- the record with the strings it points to -/
def Store.reading (k : Store) : Option (Record Str) := k.info.map fun br => br.2.map k.memory.text

@[simp] theorem Store.reading_freeInfo (k : Store) : k.freeInfo.reading = none := rfl

/-- a string elsewhere in memory does not matter -/
theorem map_update {p : ℕ} (text : ℕ → Str) (t : Str) {x : Option ℕ} (hp : p ∉ x.toList) :
    x.map (Function.update text p t) = x.map text := by
  cases x with
  | none => rfl
  | some q =>
    have hne : q ≠ p := fun h => hp (by simp [h])
    rw [Option.map_some, Option.map_some, Function.update_of_ne hne]

theorem Record.map_update {p : ℕ} {r : Record ℕ} (text : ℕ → Str) (t : Str) (hp : p ∉ r.strings) :
    r.map (Function.update text p t) = r.map text := by
  simp only [Record.strings, List.mem_append, not_or] at hp
  simp only [Record.map, CcApi.Transport.Sms.map_update text t hp.1, CcApi.Transport.Sms.map_update text t hp.2]

theorem Stage.map_update {p : ℕ} {x : Stage ℕ} (text : ℕ → Str) (t : Str) (hp : p ∉ x.strings) :
    x.map (Function.update text p t) = x.map text := by
  cases x with
  | replacing source => exact congrArg Stage.replacing (Record.map_update text t hp)
  | _ => rfl

/-- outside the copy no string is to be copied -/
theorem Stage.map_congr {σ τ : Type} {x : Stage σ} (h : ∀ source, x ≠ .replacing source) (f g : σ → τ) :
    x.map f = x.map g := by
  cases x with
  | replacing source => exact absurd rfl (h source)
  | _ => rfl

theorem reading_overwrite {k : Store} {p : ℕ} (hp : p ∉ k.blocks) (t : Str) : (k.overwrite p t).reading = k.reading := by
  unfold Store.reading Store.overwrite
  cases hinfo : k.info with
  | none => rfl
  | some br =>
    simp only [Store.blocks, hinfo, List.mem_append, not_or] at hp
    simp only [Option.map_some, Record.map_update k.memory.text t hp.1]

theorem check_strings {r : Record Str} (h : r.check = .none) : (∃ p, r.phone = some p) ∧ ∃ q, r.serviceId = some q := by
  unfold Record.check StartArg.early Record.info at h
  dsimp only at h
  by_cases hsessions : 256 < r.maxSessions
  · rw [if_pos hsessions] at h
    cases h
  rw [if_neg hsessions] at h
  cases hphone : r.phone with
  | none =>
    rw [hphone, if_pos (by decide)] at h
    cases h
  | some p =>
    cases hservice : r.serviceId with
    | none =>
      rw [hservice] at h
      split_ifs at h with hvalid hnone
      exact absurd rfl hnone
    | some q => exact ⟨⟨p, rfl⟩, q, rfl⟩

/-- memory with the new record allocated -/
def Store.room (k : Store) : Memory :=
  { ledger := ⟨k.memory.ledger.next + 1, k.memory.ledger.releases⟩, text := k.memory.text }

section Fill

variable {first : ℕ} {k : Store} {source : Record ℕ} {env : Env}

theorem fill_true (h : env.recordOk = true) :
    k.fill env source =
      (⟨some (k.memory.ledger.next, (copySmsInfo env source k.room).1), (copySmsInfo env source k.room).2.2⟩,
        (copySmsInfo env source k.room).2.1) := by
  simp only [Store.fill, h]
  rfl

theorem fill_false (h : env.recordOk = false) : k.fill env source = (k, false) := by
  simp only [Store.fill, h]
  rfl

/-- what a start has to copy: the record that was there is gone, and the caller's has both strings, in memory that is there -/
structure Draft (k : Store) (source : Record ℕ) : Prop where
  none : k.info = none
  phone : ∃ p, source.phone = some p
  serviceId : ∃ q, source.serviceId = some q
  known : ∀ p ∈ source.strings, p < k.memory.ledger.next

/-- **The copy.** A configuration that has passed the checks is filled in where there is memory for all of it. -/
theorem fill_spec (h : k.Inv first) (hd : Draft k source) (env : Env) :
    (k.fill env source).1.Inv first ∧
      (k.fill env source).2 = (env.recordOk && env.phoneOk && env.serviceIdOk) ∧
      ((k.fill env source).2 = true → (k.fill env source).1.reading = some (source.map k.memory.text).withDefault) := by
  obtain ⟨hnone, ⟨p, hp⟩, ⟨q, hq⟩, hknown⟩ := hd
  have hqlt : q < k.memory.ledger.next := hknown q (by simp [Record.strings, hq])
  have hblocks : k.blocks = [] := by simp [Store.blocks, hnone]
  cases hrecord : env.recordOk with
  | false =>
    rw [fill_false hrecord]
    exact ⟨h, rfl, fun hok => absurd hok Bool.false_ne_true⟩
  | true =>
    rw [fill_true hrecord]
    cases hboth : env.phoneOk && env.serviceIdOk with
    | false =>
      obtain ⟨n, r, text, hcopy, hstrings⟩ := copySmsInfo_false hp hq hboth k.room
      rw [hcopy]
      have hrefused : (true && env.phoneOk && env.serviceIdOk) = false := by rw [Bool.true_and, hboth]
      refine ⟨h.allocate hblocks (n + 1) ?_ ?_, hrefused.symm, fun hok => absurd hok Bool.false_ne_true⟩
      · show Ledger.mk (k.memory.ledger.next + 1 + n) _ = _
        rw [Nat.add_assoc, Nat.add_comm 1 n]
        rfl
      · show (r.strings ++ [k.memory.ledger.next]).Perm (List.range' k.memory.ledger.next (n + 1))
        rw [hstrings, List.range'_succ]
        exact List.perm_append_comm
    | true =>
      obtain ⟨hpok, hqok⟩ := Bool.and_eq_true_iff.1 hboth
      rw [copySmsInfo_true hp hq hpok hqok]
      have hgranted : (true && env.phoneOk && env.serviceIdOk) = true := by rw [Bool.true_and, hboth]
      refine ⟨h.allocate hblocks 3 rfl ?_, hgranted.symm, fun _ => ?_⟩
      · exact List.perm_append_comm.trans (List.Perm.refl [_, _, _])
      · have hnew : q ≠ k.memory.ledger.next + 1 := by omega
        simp [Store.reading, Record.map, Record.withDefault, hp, hq, Store.room, hnew]

end Fill

/-! ## The invariant -/

namespace St

variable {first : ℕ} {s t : St}

structure Inv (first : ℕ) (s : St) : Prop where
  store : s.kept.Inv first
  draft : ∀ source, s.stage = .replacing source → Draft s.kept source

/-- outside the copy only the memory matters -/
theorem inv_outside (h : s.kept.Inv first) (hstage : ∀ source, s.stage ≠ .replacing source) : s.Inv first :=
  ⟨h, fun source hs => absurd hs (hstage source)⟩

/-- what touches neither the memory nor the stage -/
theorem Inv.frame (h : s.Inv first) (hkept : t.kept = s.kept) (hstage : t.stage = s.stage) : t.Inv first := by
  refine ⟨by rw [hkept]; exact h.store, fun source hs => ?_⟩
  rw [hkept]
  exact h.draft source (hstage.symm.trans hs)

theorem leaveStart_inv (e : StartError) (h : s.kept.Inv first) : (leaveStart e s).Inv first := by
  unfold leaveStart
  dsimp only
  split_ifs
  · exact inv_outside h.freeInfo fun source hs => by cases hs
  · exact inv_outside h fun source hs => by cases hs

theorem Legal.known {arg : Option (Record ℕ)} (h : s.Legal (.start arg)) :
    ∀ source ∈ arg, ∀ p ∈ source.strings, p < s.kept.memory.ledger.next := by
  intro source hs p hp
  cases hs
  exact (h p hp).1

/-- a record that passes the checks is one to be copied -/
theorem draft_of_check {k : Store} {source : Record ℕ} (hcheck : (source.map k.memory.text).check = .none)
    (hknown : ∀ p ∈ source.strings, p < k.memory.ledger.next) : Draft k.freeInfo source := by
  obtain ⟨⟨phone, hphone⟩, service, hservice⟩ := check_strings hcheck
  obtain ⟨p, hp, -⟩ := Option.map_eq_some_iff.1 hphone
  obtain ⟨q, hq, -⟩ := Option.map_eq_some_iff.1 hservice
  exact ⟨rfl, ⟨p, hp⟩, ⟨q, hq⟩, hknown⟩

theorem start_inv (h : s.kept.Inv first) {arg : Option (Record ℕ)}
    (hlegal : ∀ source ∈ arg, ∀ p ∈ source.strings, p < s.kept.memory.ledger.next) : (start arg s).Inv first := by
  unfold start
  split_ifs
  · exact leaveStart_inv .alreadyStarted h
  · cases arg with
    | none => exact leaveStart_inv .nullPointer h
    | some source =>
      cases hcheck : (source.map s.kept.memory.text).check with
      | none =>
        simp only [hcheck]
        refine ⟨h.freeInfo, fun source' hs => ?_⟩
        obtain rfl : source = source' := Stage.replacing.inj hs
        exact draft_of_check hcheck (hlegal source rfl)
      | _ =>
        simp only [hcheck]
        exact leaveStart_inv _ h

theorem fill_inv (h : s.Inv first) (env : Env) : (fill env s).Inv first := by
  unfold fill
  split
  · rename_i source hstage
    have hfill := (fill_spec h.store (h.draft source hstage) env).1
    dsimp only
    split_ifs
    · exact inv_outside hfill fun source hs => by cases hs
    · exact leaveStart_inv (s := { s with kept := _ }) .insufficientMemory hfill
  · exact h

theorem connect_inv (h : s.Inv first) (answer : ConnectorStatus) : (connect answer s).Inv first := by
  unfold connect
  split
  · split_ifs
    · exact inv_outside h.store fun source hs => by cases hs
    · exact leaveStart_inv .init h.store
  · exact h

theorem wait_inv (h : s.Inv first) (timedOut : Bool) : (wait timedOut s).Inv first := by
  unfold wait
  split
  · split_ifs
    · exact leaveStart_inv .timeout h.store
    · exact leaveStart_inv .none h.store
    · exact h
  · split_ifs
    · exact h
    · exact inv_outside h.store.freeInfo fun source hs => by cases hs
  · exact h

/-- a new telephone number takes the place of the old one -/
theorem set_inv (h : s.Inv first) {b : ℕ} {r : Record ℕ} (hinfo : s.kept.info = some (b, r)) (phone : Str) (ok : Bool) :
    (config (.setDeviceCloudPhone phone ok) s).Inv first := by
  have hstage (source : Record ℕ) : s.stage ≠ .replacing source := fun hs => by
    rw [(h.draft source hs).none] at hinfo
    cases hinfo
  have hblocks : s.kept.blocks = r.phone.toList ++ (r.serviceId.toList ++ [b]) := by
    simp [Store.blocks, hinfo, Record.strings]
  have howns := h.store.owns
  rw [hblocks] at howns
  have hfreed := howns.give r.phone.toList (r.serviceId.toList ++ [b]) fun x => (List.count_append).ge
  have hrest (c : ℕ) (hfirst : first ≤ c) (hc : c < s.kept.memory.ledger.next) :
      c ∈ s.kept.memory.ledger.releases ++ r.phone.toList ∨ c ∈ r.serviceId.toList ++ [b] := by
    have hc := h.store.rest c hfirst hc
    rw [hblocks] at hc
    simp only [List.mem_append] at hc ⊢
    tauto
  cases ok with
  | false =>
    have hstep : config (.setDeviceCloudPhone phone false) s = Desk.reply .error { s with kept :=
        ⟨some (b, { r with phone := none }), s.kept.memory.freeAll r.phone.toList⟩ } := by
      simp only [config, hinfo]
      rfl
    rw [hstep]
    exact inv_outside ⟨hfreed, hrest⟩ hstage
  | true =>
    have hstep : config (.setDeviceCloudPhone phone true) s = Desk.reply .done { s with kept :=
        ⟨some (b, { r with phone := some s.kept.memory.ledger.next }),
          ⟨⟨s.kept.memory.ledger.next + 1, s.kept.memory.ledger.releases ++ r.phone.toList⟩,
            Function.update s.kept.memory.text s.kept.memory.ledger.next phone⟩⟩ } := by
      simp only [config, hinfo]
      rfl
    rw [hstep]
    refine inv_outside ⟨hfreed.acquire, fun c hfirst hc => ?_⟩ hstage
    rcases (Nat.lt_succ_iff_lt_or_eq.1 hc) with hc | rfl
    · exact (hrest c hfirst hc).imp id fun hc => List.mem_cons_of_mem _ hc
    · exact .inr List.mem_cons_self

theorem config_inv (h : s.Inv first) (q : Request) : (config q s).Inv first := by
  cases hinfo : s.kept.info with
  | none =>
    have hstep : config q s = s.crash := by simp only [config, hinfo]
    rw [hstep]
    exact h.frame rfl rfl
  | some br =>
    cases q with
    | setDeviceCloudPhone phone ok => exact set_inv h hinfo phone ok
    | maxSessions | rxTimeout | getDeviceCloudPhone | serviceId =>
      refine h.frame ?_ ?_ <;> simp only [config, hinfo, Desk.tell_kept, Desk.reply_kept, Desk.tell_stage, Desk.reply_stage]

/-- **The library's memory.** What a step keeps. -/
theorem step_inv (h : s.Inv first) (o : Op ℕ) (hlegal : s.Legal o) : (step s o).Inv first := by
  unfold step
  split
  · exact h
  · cases o with
    | start arg =>
      dsimp only
      split_ifs
      · exact start_inv h.store hlegal.known
      · exact h
    | fill env => exact fill_inv h env
    | connect answer => exact connect_inv h answer
    | stop accepted =>
      dsimp only
      split_ifs
      · exact h
      · exact inv_outside h.store fun source hs => by cases hs
      · exact inv_outside h.store fun source hs => by cases hs
      · exact inv_outside h.store fun source hs => by cases hs
    | wait timedOut => exact wait_inv h timedOut
    | opened | closed _ | stopCompleted =>
      dsimp only
      split_ifs
      · exact h.frame rfl rfl
      · exact h
    | reconnect answer before => exact h.frame (Desk.reconnect_kept _ _ _ _) (Desk.reconnect_stage _ _ _ _)
    | config q =>
      dsimp only
      split_ifs
      · exact config_inv h q
      · exact h
    | write p text =>
      refine ⟨⟨h.store.owns, h.store.rest⟩, fun source hs => ?_⟩
      obtain ⟨hnone, hphone, hservice, hknown⟩ := h.draft source hs
      exact ⟨hnone, hphone, hservice, hknown⟩

end St

/-! ## The simulation -/

namespace Desk

variable {σ τ κ μ : Type} (g : σ → τ) (f : κ → μ)

def map (s : Desk σ κ) : Desk τ μ :=
  { started := s.started, stage := s.stage.map g, closing := s.closing, crashed := s.crashed, replies := s.replies
    results := s.results, kept := f s.kept }

@[simp] theorem map_reply (x : Reply) (s : Desk σ κ) : (s.reply x).map g f = (s.map g f).reply x := rfl

@[simp] theorem map_ret (x : Result) (s : Desk σ κ) : (s.ret x).map g f = (s.map g f).ret x := rfl

@[simp] theorem map_crash (s : Desk σ κ) : s.crash.map g f = (s.map g f).crash := rfl

@[simp] theorem map_tell (x : Option Str) (s : Desk σ κ) : (s.tell x).map g f = (s.map g f).tell x := by
  cases x <;> rfl

@[simp] theorem map_reconnect (closeCb : Option Bool) (answer before : Bool) (s : Desk σ κ) :
    (s.reconnect closeCb answer before).map g f = (s.map g f).reconnect closeCb answer before := by
  have hclosing : (s.map g f).closing = s.closing := rfl
  unfold reconnect
  rw [hclosing]
  cases s.closing with
  | none => rfl
  | some c =>
    dsimp only
    split_ifs
    · cases closeCb <;> rfl
    · rfl

end Desk

/-- an operation with the strings that the caller has in memory -/
def Op.map {σ τ : Type} (f : σ → τ) : Op σ → Op τ
  | .start arg => .start (arg.map (Record.map f))
  | .fill env => .fill env
  | .connect answer => .connect answer
  | .stop accepted => .stop accepted
  | .wait timedOut => .wait timedOut
  | .opened => .opened
  | .closed c => .closed c
  | .reconnect answer before => .reconnect answer before
  | .stopCompleted => .stopCompleted
  | .config q => .config q
  | .write p text => .write (f p) text

namespace St

variable {first : ℕ} {s : St}

/-- the strings in memory as values -/
def view (s : St) : Spec := s.map s.kept.memory.text Store.reading

theorem leaveStart_view (e : StartError) (s : St) : (leaveStart e s).view = Spec.leaveStart e s.view := by
  unfold leaveStart Spec.leaveStart
  dsimp only
  split_ifs <;> rfl

theorem wait_view (timedOut : Bool) (s : St) : (wait timedOut s).view = Spec.wait timedOut s.view := by
  unfold wait Spec.wait
  have hstage : s.view.stage = s.stage.map s.kept.memory.text := rfl
  have hstarted : s.view.started = s.started := rfl
  rw [hstage, hstarted]
  cases s.stage with
  | starting forever =>
    dsimp only [Stage.map]
    split_ifs
    · exact leaveStart_view .timeout s
    · exact leaveStart_view .none s
    · rfl
  | stopping =>
    dsimp only [Stage.map]
    split_ifs <;> rfl
  | idle | replacing _ | filled _ => rfl

theorem start_view (arg : Option (Record ℕ)) (s : St) :
    (start arg s).view = Spec.start (arg.map (Record.map s.kept.memory.text)) s.view := by
  have hstarted : s.view.started = s.started := rfl
  unfold start Spec.start
  rw [hstarted]
  by_cases hup : s.started = true
  · rw [if_pos hup, if_pos hup]
    exact leaveStart_view .alreadyStarted s
  rw [if_neg hup, if_neg hup]
  cases arg with
  | none => exact leaveStart_view .nullPointer s
  | some source =>
    dsimp only [Option.map_some]
    cases hcheck : (source.map s.kept.memory.text).check with
    | none => rfl
    | _ => exact leaveStart_view _ s

theorem fill_view (h : s.Inv first) (env : Env) : (fill env s).view = Spec.fill env s.view := by
  have hview : s.view.stage = s.stage.map s.kept.memory.text := rfl
  unfold fill Spec.fill
  rw [hview]
  cases hstage : s.stage with
  | replacing source =>
    obtain ⟨-, hok, hread⟩ := fill_spec h.store (h.draft source hstage) env
    dsimp only [Stage.map]
    rw [← hok]
    cases hfilled : (s.kept.fill env source).2 with
    | false =>
      -- what there was of the new record is freed, whatever its strings say
      rw [if_neg Bool.false_ne_true, if_neg Bool.false_ne_true, leaveStart_view]
      simp only [Spec.leaveStart, StartError.frees, view, Desk.map, Desk.ret, if_true]
    | true =>
      rw [if_pos rfl, if_pos rfl, ← hread hfilled]
      rfl
  | idle | filled _ | starting _ | stopping => rfl

theorem connect_view (answer : ConnectorStatus) (s : St) : (connect answer s).view = Spec.connect answer s.view := by
  have hview : s.view.stage = s.stage.map s.kept.memory.text := rfl
  unfold connect Spec.connect
  rw [hview]
  cases s.stage with
  | filled forever =>
    dsimp only [Stage.map]
    split_ifs
    · rfl
    · exact leaveStart_view .init s
  | idle | replacing _ | starting _ | stopping => rfl

theorem config_view (h : s.Inv first) (q : Request) : (config q s).view = Spec.config q s.view := by
  cases hinfo : s.kept.info with
  | none =>
    have hread : s.view.kept = none := by simp [view, Desk.map, Store.reading, hinfo]
    simp only [config, Spec.config, hinfo, hread]
    rfl
  | some br =>
    obtain ⟨b, r⟩ := br
    have hread : s.view.kept = some (r.map s.kept.memory.text) := by simp [view, Desk.map, Store.reading, hinfo]
    cases q with
    | maxSessions | rxTimeout =>
      simp only [config, Spec.config, hinfo, hread]
      rfl
    | getDeviceCloudPhone | serviceId =>
      simp only [config, Spec.config, hinfo, hread]
      rw [view, Desk.tell_kept]
      exact Desk.map_tell _ _ _ _
    | setDeviceCloudPhone phone ok =>
      simp only [config, Spec.config, hinfo, hread]
      have hstage (text : ℕ → Str) : s.stage.map text = s.stage.map s.kept.memory.text := by
        refine Stage.map_congr (fun source hs => ?_) _ _
        rw [(h.draft source hs).none] at hinfo
        cases hinfo
      cases ok with
      | false => rfl
      | true =>
        have hnew : s.kept.memory.ledger.next ∉ r.serviceId.toList := fun hmem => by
          refine lt_irrefl _ (h.store.owns.live _ ?_).1
          rw [Store.blocks, hinfo]
          exact List.mem_append_left _ (List.mem_append_right _ hmem)
        have hservice := map_update s.kept.memory.text phone hnew
        simp [view, Desk.map, Desk.reply, newString, Store.reading, Record.map, Memory.freeAll, hservice, hstage]

/-- **One step.** -/
theorem step_view (h : s.Inv first) (o : Op ℕ) (hlegal : s.Legal o) :
    (step s o).view = Spec.step s.view (o.map s.kept.memory.text) := by
  have hcrash : s.view.crashed = s.crashed := rfl
  have hidle : s.view.stage = .idle ↔ s.stage = .idle := by
    change s.stage.map s.kept.memory.text = .idle ↔ _
    cases s.stage <;> simp [Stage.map]
  have hstarted : s.view.started = s.started := rfl
  have hclosing : s.view.closing = s.closing := rfl
  unfold step Spec.step
  rw [hcrash]
  by_cases hcrashed : s.crashed = true
  · rw [if_pos hcrashed, if_pos hcrashed]
  rw [if_neg hcrashed, if_neg hcrashed]
  cases o with
  | start arg =>
    dsimp only [Op.map]
    simp only [hidle]
    split_ifs
    · exact start_view arg s
    · rfl
  | fill env => exact fill_view h env
  | connect answer => exact connect_view answer s
  | stop accepted =>
    dsimp only [Op.map]
    simp only [ne_eq, hidle, hstarted]
    split_ifs <;> rfl
  | wait timedOut => exact wait_view timedOut s
  | opened | closed _ | stopCompleted =>
    dsimp only [Op.map]
    rw [hclosing]
    split_ifs <;> rfl
  | reconnect answer before =>
    have hcb : s.view.kept.map Record.closeCb = s.kept.info.map fun br => br.2.closeCb := by
      simp only [view, Desk.map, Store.reading, Option.map_map]
      rfl
    have hkept := Desk.reconnect_kept (s.kept.info.map fun br => br.2.closeCb) answer before s
    dsimp only [Op.map]
    rw [hcb, view, hkept]
    exact Desk.map_reconnect _ _ _ _ _ _
  | config q =>
    dsimp only [Op.map]
    rw [hclosing]
    split_ifs
    · exact config_view h q
    · rfl
  | write p text =>
    obtain ⟨hblocks, hstrings⟩ := hlegal
    have hread := reading_overwrite hblocks text
    have hstage : s.stage.map (s.kept.overwrite p text).memory.text = s.stage.map s.kept.memory.text :=
      Stage.map_update s.kept.memory.text text hstrings
    simp only [view, Desk.map, Op.map, hread, hstage]

/-- what the specification is told of a run -/
def told : St → List (Op ℕ) → List (Op Str)
  | _, [] => []
  | s, o :: ops => o.map s.kept.memory.text :: told (step s o) ops

theorem run_view (h : s.Inv first) {ops : List (Op ℕ)} (hlegal : Along step Legal s ops) :
    (run step s ops).Inv first ∧ (run step s ops).view = run Spec.step s.view (told s ops) := by
  induction ops generalizing s with
  | nil => exact ⟨h, rfl⟩
  | cons o ops ih =>
    obtain ⟨ho, hops⟩ := hlegal
    rw [run_cons, told, run_cons, ← step_view h o ho]
    exact ih (step_inv h o ho) hops

theorem fresh_inv (first : ℕ) (text : ℕ → Str) : (fresh first text).Inv first := by
  refine inv_outside ⟨⟨⟨?_, List.nodup_nil⟩, List.nodup_nil, ?_⟩, fun b hfirst hb => absurd hb (not_lt.2 hfirst)⟩ ?_
  · intro b hb
    cases hb
  · intro b hb
    cases hb
  · intro source hs
    cases hs

end St

/-! ## Main result -/

/-- **The configuration of the SMS transport.** For every run of calls, of the connector's requests and of what the caller does
with its own strings: what the connector has been told, what the calls have returned and whether NULL has been looked into is
as the specification has it, which knows of no memory; and of what the library has allocated it holds the blocks that its
record points to, and has freed all others, each once. -/
theorem configured (first : ℕ) (text : ℕ → Str) (ops : List (Op ℕ))
    (hlegal : Along St.step St.Legal (St.fresh first text) ops) :
    let s := run St.step (St.fresh first text) ops
    let a := run Spec.step Spec.fresh (St.told (St.fresh first text) ops)
    s.replies = a.replies ∧ s.results = a.results ∧ s.crashed = a.crashed ∧ s.kept.reading = a.kept ∧
      s.kept.memory.ledger.releases.Nodup ∧ s.kept.blocks.Nodup ∧
      ∀ b, first ≤ b → (b < s.kept.memory.ledger.next ∧ b ∉ s.kept.memory.ledger.releases ↔ b ∈ s.kept.blocks) := by
  obtain ⟨hinv, hview⟩ := St.run_view (St.fresh_inv first text) hlegal
  have hfresh : (St.fresh first text).view = Spec.fresh := rfl
  rw [hfresh] at hview
  dsimp only
  rw [← hview]
  refine ⟨rfl, rfl, rfl, rfl, hinv.store.owns.sound.once, hinv.store.owns.nodup, fun b hfirst => ⟨fun hb => ?_, fun hb => ?_⟩⟩
  · exact (hinv.store.rest b hfirst hb.1).resolve_left hb.2
  · exact hinv.store.owns.live b hb

/-- the caller's strings -/
def callers (p : ℕ) : Str := if p = 0 then ascii "+1555" else ascii "svc"

/-- the caller writes over its strings as soon as they are copied, and the cloud sets another telephone number -/
def provisioned : List (Op ℕ) :=
  [.start (some { startTimeout := 0, phone := some 0, serviceId := some 1, maxSessions := 0, rxTimeout := 60, closeCb := true }),
    .fill { recordOk := true, phoneOk := true, serviceIdOk := true }, .write 0 (ascii "x"), .write 1 (ascii "y"),
    .connect .success, .config .maxSessions, .config .getDeviceCloudPhone, .config .serviceId,
    .opened, .wait false, .config (.setDeviceCloudPhone (ascii "+1777") true), .config .getDeviceCloudPhone,
    .closed .deviceError, .reconnect true false, .opened, .stop true, .stopCompleted, .wait false]

theorem configured_provisioned :
    (run St.step (St.fresh 2 callers) provisioned).replies =
        (run Spec.step Spec.fresh (St.told (St.fresh 2 callers) provisioned)).replies ∧
      (run St.step (St.fresh 2 callers) provisioned).replies =
        [.number 20, .string (ascii "+1555"), .string (ascii "svc"), .done, .string (ascii "+1777"), .reconnect true] ∧
      (run St.step (St.fresh 2 callers) provisioned).kept.memory.ledger.releases = [3, 5, 4, 2] :=
  ⟨(configured 2 callers provisioned (by decide)).1, by decide, by decide⟩

end CcApi.Transport.Sms
