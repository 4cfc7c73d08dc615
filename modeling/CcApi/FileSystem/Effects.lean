/-
What a file-system request does to the service, effect by effect (`ccapi_filesystem_handler.c`).

Each primitive of the model is a function on the service (`alloc`, `freed`, `called`, …), and its rule says exactly which
state it leaves. `Effects env r s t` says that t comes from s by effects that a request r may have, each with what is known
when it happens: which block is freed and what it holds, which question a call of the platform was asked under, whose handle
a file operation is on.

- `serve_effects`: every request, whatever its surroundings answer and whether it returns or faults, is such a sequence.
-/
import CcApi.FileSystem.Handler

namespace CcApi.FileSystem

open Lib Lib.Prog

/-! ## Effects -/

namespace Service

def emitted (e : Event) (s : Service) : Service := { s with events := s.events ++ [e] }

/-- a block is allocated; it gets the number `next` -/
def alloc (b : Block) (s : Service) : Service :=
  { s.emitted (.malloc true) with heap := Function.update s.heap s.next (some b), next := s.next + 1 }

def freed (p : ℕ) (s : Service) : Service := { s.emitted (.free p) with heap := Function.update s.heap p none }

def stored (p : ℕ) (b : Block) (s : Service) : Service := { s with heap := Function.update s.heap p (some b) }

/-- a call of the platform that leaves the context to the next one -/
def called (env : Env) (c : Call) (s : Service) : Service :=
  { s.emitted (.call c s.impContext (env.answer s.events.length)) with
    impContext := (env.answer s.events.length).impContext }

/-- a call of the platform whose context is dropped -/
def peeked (env : Env) (c : Call) (s : Service) : Service :=
  s.emitted (.call c s.impContext (env.answer s.events.length))

@[simp] theorem emitted_heap (e : Event) (s : Service) : (s.emitted e).heap = s.heap := rfl
@[simp] theorem emitted_next (e : Event) (s : Service) : (s.emitted e).next = s.next := rfl
@[simp] theorem emitted_dirs (e : Event) (s : Service) : (s.emitted e).virtualDirList = s.virtualDirList := rfl
@[simp] theorem emitted_events (e : Event) (s : Service) : (s.emitted e).events = s.events ++ [e] := rfl
@[simp] theorem emitted_context (e : Event) (s : Service) : (s.emitted e).impContext = s.impContext := rfl

@[simp] theorem alloc_heap (b : Block) (s : Service) :
    (s.alloc b).heap = Function.update s.heap s.next (some b) := rfl
@[simp] theorem alloc_next (b : Block) (s : Service) : (s.alloc b).next = s.next + 1 := rfl
@[simp] theorem alloc_dirs (b : Block) (s : Service) : (s.alloc b).virtualDirList = s.virtualDirList := rfl
@[simp] theorem alloc_events (b : Block) (s : Service) : (s.alloc b).events = s.events ++ [.malloc true] := rfl
@[simp] theorem alloc_context (b : Block) (s : Service) : (s.alloc b).impContext = s.impContext := rfl

@[simp] theorem freed_heap (p : ℕ) (s : Service) : (s.freed p).heap = Function.update s.heap p none := rfl
@[simp] theorem freed_next (p : ℕ) (s : Service) : (s.freed p).next = s.next := rfl
@[simp] theorem freed_dirs (p : ℕ) (s : Service) : (s.freed p).virtualDirList = s.virtualDirList := rfl
@[simp] theorem freed_events (p : ℕ) (s : Service) : (s.freed p).events = s.events ++ [.free p] := rfl
@[simp] theorem freed_context (p : ℕ) (s : Service) : (s.freed p).impContext = s.impContext := rfl

@[simp] theorem stored_heap (p : ℕ) (b : Block) (s : Service) :
    (s.stored p b).heap = Function.update s.heap p (some b) := rfl
@[simp] theorem stored_next (p : ℕ) (b : Block) (s : Service) : (s.stored p b).next = s.next := rfl
@[simp] theorem stored_dirs (p : ℕ) (b : Block) (s : Service) : (s.stored p b).virtualDirList = s.virtualDirList := rfl
@[simp] theorem stored_events (p : ℕ) (b : Block) (s : Service) : (s.stored p b).events = s.events := rfl
@[simp] theorem stored_context (p : ℕ) (b : Block) (s : Service) : (s.stored p b).impContext = s.impContext := rfl

@[simp] theorem called_heap (env : Env) (c : Call) (s : Service) : (s.called env c).heap = s.heap := rfl
@[simp] theorem called_next (env : Env) (c : Call) (s : Service) : (s.called env c).next = s.next := rfl
@[simp] theorem called_dirs (env : Env) (c : Call) (s : Service) :
    (s.called env c).virtualDirList = s.virtualDirList := rfl
@[simp] theorem called_events (env : Env) (c : Call) (s : Service) :
    (s.called env c).events = s.events ++ [.call c s.impContext (env.answer s.events.length)] := rfl
@[simp] theorem called_context (env : Env) (c : Call) (s : Service) :
    (s.called env c).impContext = (env.answer s.events.length).impContext := rfl

end Service

/-! ## The primitives' rules -/

section
variable {env : Env} {s : Service} {E : Fault → Service → Prop}

theorem run_emit {Q : Unit → Service → Prop} (e : Event) : wp (emit e) Q E s ↔ Q () (s.emitted e) := Iff.rfl

theorem run_malloc {Q : Option ℕ → Service → Prop} (b : Block) :
    wp (malloc env b) Q E s ↔
      if env.malloc s.events.length then Q (some s.next) (s.alloc b) else Q none (s.emitted (.malloc false)) := by
  simp only [malloc, wp_bind, wp_get, run_emit, wp_ite, wp_modify, wp_pure]
  cases env.malloc s.events.length <;> exact Iff.rfl

theorem run_free {Q : CcimpStatus → Service → Prop} (p : ℕ) :
    wp (free env p) Q E s ↔
      match s.heap p with
      | some _ => Q (env.free s.events.length) (s.freed p)
      | none => E .fault s := by
  simp only [free, wp_bind, wp_get]
  cases s.heap p <;> exact Iff.rfl

theorem run_load {Q : Block → Service → Prop} (p : ℕ) :
    wp (load p) Q E s ↔
      match s.heap p with
      | some b => Q b s
      | none => E .fault s := by
  simp only [load, wp_bind, wp_get]
  cases s.heap p <;> exact Iff.rfl

theorem run_store {Q : Unit → Service → Prop} (p : ℕ) (b : Block) : wp (store p b) Q E s ↔ Q () (s.stored p b) := Iff.rfl

theorem run_call {Q : Answer → Service → Prop} (c : Call) :
    wp (ccimpCallKeeping env c) Q E s ↔ Q (env.answer s.events.length) (s.called env c) := Iff.rfl

theorem run_peek {Q : Answer → Service → Prop} (c : Call) :
    wp (ccimpCall env c s.impContext) Q E s ↔ Q (env.answer s.events.length) (s.peeked env c) := Iff.rfl

theorem run_setError {Q : Option ℕ → Service → Prop} (e : ErrorHandle) (errnum : Option ℕ) :
    wp (setError env e errnum) Q E s ↔
      if env.malloc s.events.length then Q (some s.next) (s.alloc (.error e))
      else Q errnum (s.emitted (.malloc false)) := by
  simp only [setError, wp_bind, run_malloc]
  cases env.malloc s.events.length <;> exact Iff.rfl

theorem run_freeLocalPath {Q : Unit → Service → Prop} (block : Option ℕ) :
    wp (freeLocalPath env block) Q E s ↔
      match block with
      | none => Q () s
      | some p => match s.heap p with
        | some _ => Q () (s.freed p)
        | none => E .fault s := by
  cases block with
  | none => exact Iff.rfl
  | some p =>
    simp only [freeLocalPath, wp_bind, run_free]
    cases s.heap p <;> exact Iff.rfl

theorem run_loadFile {Q : FileHandle → Service → Prop} (p : ℕ) :
    wp (loadFile p) Q E s ↔
      match s.heap p with
      | some (.file f) => Q f s
      | _ => E .fault s := by
  simp only [loadFile, wp_bind, run_load]
  cases s.heap p with
  | none => exact Iff.rfl
  | some b => cases b <;> exact Iff.rfl

theorem run_closeChanged {Q : Unit → Service → Prop} (f : FileHandle) :
    wp (closeChanged env f) Q E s ↔
      if env.hasChanged && (f.request = .write || f.request = .readWrite) then
        match s.heap f.filePath with
        | some (.path path) => Q () (s.emitted (.changed path .modified))
        | _ => E .fault s
      else Q () s := by
  simp only [closeChanged, wp_ite, wp_bind, run_load, wp_pure]
  split_ifs
  · cases s.heap f.filePath with
    | none => exact Iff.rfl
    | some b => cases b <;> exact Iff.rfl
  · exact Iff.rfl

/-- the service behind a question to the access callback -/
def Service.asked (env : Env) (path : Str) (request : FsRequest) (allow : Bool) (s : Service) : Service :=
  if env.access.isSome then s.emitted (.access path request allow) else s

/-- the access callback's answer to the next question -/
def Env.allows (env : Env) (s : Service) (path : Str) (request : FsRequest) : Bool :=
  match env.access with
  | none => true
  | some access => access s.events.length path request

theorem run_askAccess {Q : Bool → Service → Prop} (path : Str) (request : FsRequest) :
    wp (askAccess env path request) Q E s ↔
      Q (env.allows s path request) (s.asked env path request (env.allows s path request)) := by
  unfold askAccess Service.asked Env.allows
  cases env.access <;> exact Iff.rfl

end

/-! ## What a request may do -/

/-- what the access callback has to allow before the call -/
def Call.asks : Call → Option (Str × FsRequest)
  | .fileOpen path flags => some (path, openRequest flags)
  | .fileRemove path => some (path, .remove)
  | .dirOpen path => some (path, .list)
  | _ => none

/-- the platform's file a call is on -/
def Call.onFile : Call → Option ℤ
  | .fileRead h _ | .fileWrite h _ | .fileClose h | .fileSeek h _ _ | .fileTruncate h _ => some h
  | _ => none

def Request.cloudPath : Request → Option Str
  | .open d => some d.path
  | .remove d => some d.path
  | .opendir d => some d.path
  | .statDirEntry d => some d.path
  | .stat d => some d.path
  | .hash d => some d.path
  | _ => none

/-- what a cloud path is translated to -/
def localPath (dirs : List VirtualDir) (fullPath : Str) : Option Str :=
  if dirs = [] then some fullPath
  else
    (findDir (fullPath.drop 1) (fullPath.length - (getPathWithoutVirtualDir fullPath).length - 1) dirs).map
      fun d => d.localDir ++ getPathWithoutVirtualDir fullPath

/-- the number of the first question behind the translation of a cloud path, if it has a local path -/
def pathQuestion (env : Env) (s : Service) (cloud : Str) : Option ℕ :=
  if localPath s.virtualDirList cloud = none then none
  else if s.virtualDirList = [] then some s.events.length
  else if env.malloc s.events.length then some (s.events.length + 1)
  else none

/-- the number of the question at which a stat asks the platform for an entry's status, if it comes to that -/
def statusQuestion (env : Env) (s : Service) (d : StatData) : Option ℕ :=
  if s.virtualDirList ≠ [] && d.path = [separator] then none else pathQuestion env s d.path

/-- a file was opened with this handle, and the callback had just allowed it -/
def Opened (env : Env) (events : List Event) (handle : ℤ) : Prop :=
  ∃ pre post path flags ctx a, events = pre ++ .call (.fileOpen path flags) ctx a :: post ∧ a.status = .ok ∧
    a.fileHandle = handle ∧ (env.access.isSome → pre.getLast? = some (.access path (openRequest flags) true))

/-- a block that a request allocates, file handles apart -/
def Block.plain : Block → Bool
  | .path _ | .error _ | .listing _ => true
  | _ => false

/-- the events since a state -/
def since (s t : Service) : List Event := t.events.drop s.events.length

/-- t comes from s by what request r may do -/
inductive Effects (env : Env) (r : Request) (s : Service) : Service → Prop where
  | refl : Effects env r s s
  | alloc {t : Service} (h : Effects env r s t) {b : Block} (hb : b.plain = true) : Effects env r s (t.alloc b)
  | refused {t : Service} (h : Effects env r s t) : Effects env r s (t.emitted (.malloc false))
  /-- a call that needs no question; one on a file is on the file of a live handle -/
  | call {t : Service} (h : Effects env r s t) {c : Call} (hc : c.asks = none)
      (hf : ∀ x, c.onFile = some x → ∃ p f, t.heap p = some (.file f) ∧ f.ccimpHandle = x) :
      Effects env r s (t.called env c)
  /-- a stat asks for the entry's status -/
  | peek {t : Service} (h : Effects env r s t) {d : StatData} (hr : r = .stat d) (path : Str)
      (hq : statusQuestion env s d = some t.events.length) (hctx : t.impContext = s.impContext) :
      Effects env r s (t.peeked env (.dirEntryStatus path))
  | deny {t : Service} (h : Effects env r s t) (path : Str) (request : FsRequest) :
      Effects env r s (t.asked env path request false)
  /-- the request's own path is allowed, and the call made -/
  | allow {t : Service} (h : Effects env r s t) {c : Call} {cloud path : Str} {request : FsRequest}
      (hr : r.cloudPath = some cloud) (hp : localPath t.virtualDirList cloud = some path)
      (hc : c.asks = some (path, request)) : Effects env r s ((t.asked env path request true).called env c)
  | changed {t : Service} (h : Effects env r s t) (path : Str) (c : Changed) :
      Effects env r s (t.emitted (.changed path c))
  /-- a handle for a file that was opened, its path still to come -/
  | file {t : Service} (h : Effects env r s t) {handle : ℤ} (ho : Opened env (since s t) handle) (request : FsRequest) :
      Effects env r s (t.alloc (.file ⟨handle, 0, request⟩))
  | named {t : Service} (h : Effects env r s t) {p q : ℕ} {f : FileHandle} {path : Str}
      (hp : t.heap p = some (.file f)) (hq : t.heap q = some (.path path)) :
      Effects env r s (t.stored p (.file { f with filePath := q }))
  | moved {t : Service} (h : Effects env r s t) {p : ℕ} {n : Option ℕ} (hp : t.heap p = some (.listing n))
      (n' : Option ℕ) : Effects env r s (t.stored p (.listing n'))
  | freePath {t : Service} (h : Effects env r s t) {p : ℕ} {path : Str} (hp : t.heap p = some (.path path)) :
      Effects env r s (t.freed p)
  /-- a file handle is given up: first its path -/
  | freeName {t : Service} (h : Effects env r s t) {p : ℕ} {f : FileHandle} (hp : t.heap p = some (.file f))
      (hl : t.heap f.filePath ≠ none) : Effects env r s (t.freed f.filePath)
  | freeFile {t : Service} (h : Effects env r s t) {p : ℕ} {f : FileHandle} (hp : t.heap p = some (.file f)) :
      Effects env r s (t.freed p)
  /-- the end of a listing: what the connector gives as its context -/
  | freeContext {t : Service} (h : Effects env r s t) {d : ClosedirData} {p : ℕ} (hr : r = .closedir d)
      (hp : d.userContext = some p) (hl : t.heap p ≠ none) : Effects env r s (t.freed p)
  | freeError {t : Service} (h : Effects env r s t) {d : GetErrorData} (hr : r = .getError d)
      (hl : t.heap d.errnum ≠ none) : Effects env r s (t.freed d.errnum)

/-- numbers from `next` on are unused, and the path of a file handle has a smaller one -/
structure Tidy (s : Service) : Prop where
  pos : 0 < s.next
  unused : ∀ p, s.next ≤ p → s.heap p = none
  named : ∀ p f, s.heap p = some (.file f) → f.filePath < s.next

theorem Tidy.lt {s : Service} (h : Tidy s) {p : ℕ} {b : Block} (hp : s.heap p = some b) : p < s.next := by
  by_contra hlt
  rw [h.unused p (not_lt.1 hlt)] at hp
  cases hp

theorem Tidy.congr {s t : Service} (h : Tidy s) (hheap : t.heap = s.heap) (hnext : t.next = s.next) : Tidy t := by
  refine ⟨by rw [hnext]; exact h.pos, ?_, ?_⟩
  · rw [hheap, hnext]
    exact h.unused
  · rw [hheap, hnext]
    exact h.named

theorem Tidy.emitted {s : Service} (h : Tidy s) (e : Event) : Tidy (s.emitted e) := h.congr rfl rfl

theorem Tidy.asked {env : Env} {s : Service} (h : Tidy s) (path : Str) (request : FsRequest) (allow : Bool) :
    Tidy (s.asked env path request allow) := by
  unfold Service.asked
  split_ifs
  · exact h.emitted _
  · exact h

theorem Tidy.alloc {s : Service} (h : Tidy s) {b : Block} (hb : ∀ f, b = .file f → f.filePath ≤ s.next) :
    Tidy (s.alloc b) := by
  refine ⟨Nat.succ_pos _, fun p hp => ?_, fun p f hp => ?_⟩
  · simp only [Service.alloc_next, Service.alloc_heap] at hp ⊢
    rw [Function.update_of_ne (by omega)]
    exact h.unused p (by omega)
  · simp only [Service.alloc_next, Service.alloc_heap] at hp ⊢
    by_cases hps : p = s.next
    · subst hps
      rw [Function.update_self, Option.some.injEq] at hp
      exact Nat.lt_succ_of_le (hb f hp)
    · rw [Function.update_of_ne hps] at hp
      exact Nat.lt_succ_of_lt (h.named p f hp)

theorem Tidy.freed {s : Service} (h : Tidy s) (p : ℕ) : Tidy (s.freed p) := by
  refine ⟨h.pos, fun q hq => ?_, fun q f hq => ?_⟩
  · simp only [Service.freed_heap]
    by_cases hqp : q = p
    · rw [hqp, Function.update_self]
    · rw [Function.update_of_ne hqp]
      exact h.unused q hq
  · simp only [Service.freed_heap] at hq
    by_cases hqp : q = p
    · rw [hqp, Function.update_self] at hq
      cases hq
    · rw [Function.update_of_ne hqp] at hq
      exact h.named q f hq

theorem Tidy.stored {s : Service} (h : Tidy s) {p : ℕ} {b b' : Block} (hp : s.heap p = some b)
    (hb : ∀ f, b' = .file f → f.filePath < s.next) : Tidy (s.stored p b') := by
  refine ⟨h.pos, fun q hq => ?_, fun q f hq => ?_⟩
  · simp only [Service.stored_heap]
    have := h.lt hp
    rw [Function.update_of_ne (by rintro rfl; exact absurd hq (not_le.2 this))]
    exact h.unused q hq
  · simp only [Service.stored_heap] at hq
    by_cases hqp : q = p
    · rw [hqp, Function.update_self, Option.some.injEq] at hq
      exact hb f hq
    · rw [Function.update_of_ne hqp] at hq
      exact h.named q f hq

theorem Effects.tidy {env : Env} {r : Request} {s t : Service} (h : Effects env r s t) (hs : Tidy s) : Tidy t := by
  induction h with
  | refl => exact hs
  | alloc _ hb ih =>
    refine ih.alloc fun f hf => ?_
    subst hf
    cases hb
  | refused _ ih | peek _ _ _ _ _ ih | changed _ _ _ ih => exact ih.emitted _
  | call _ _ _ ih => exact ih.congr rfl rfl
  | deny _ _ _ ih => exact ih.asked _ _ _
  | allow _ _ _ _ ih => exact (ih.asked _ _ _).congr rfl rfl
  | file _ _ _ ih =>
    refine ih.alloc fun f hf => ?_
    cases hf
    exact Nat.zero_le _
  | named _ hp hq ih =>
    refine ih.stored hp fun f hf => ?_
    cases hf
    exact ih.lt hq
  | moved _ hp _ ih => exact ih.stored hp fun f hf => by cases hf
  | freePath _ _ ih | freeName _ _ _ ih | freeFile _ _ ih | freeContext _ _ _ _ ih | freeError _ _ _ ih =>
    exact ih.freed _

/-- the blocks and the virtual directories' list only change as the effects say -/
theorem Effects.dirs {env : Env} {r : Request} {s t : Service} (h : Effects env r s t) :
    t.virtualDirList = s.virtualDirList := by
  induction h with
  | refl => rfl
  | deny _ _ _ ih =>
    unfold Service.asked
    split_ifs <;> exact ih
  | allow _ _ _ _ ih =>
    unfold Service.asked
    split_ifs <;> exact ih
  | _ => assumption

theorem Effects.events {env : Env} {r : Request} {s t : Service} (h : Effects env r s t) :
    s.events <+: t.events := by
  induction h with
  | refl => exact List.prefix_rfl
  | named _ _ _ ih | moved _ _ _ ih => exact ih
  | deny _ _ _ ih =>
    unfold Service.asked
    split_ifs
    · exact ih.trans (List.prefix_append _ _)
    · exact ih
  | allow _ _ _ _ ih =>
    unfold Service.asked
    split_ifs
    · exact ih.trans ((List.prefix_append _ _).trans (List.prefix_append _ _))
    · exact ih.trans (List.prefix_append _ _)
  | _ => exact List.IsPrefix.trans (by assumption) (List.prefix_append _ _)

/-! ## What a request answers -/

theorem since_eq {s t : Service} {l : List Event} (h : t.events = s.events ++ l) : since s t = l := by
  simp [since, h]

theorem since_emitted {s t : Service} (h : s.events <+: t.events) (e : Event) :
    since s (t.emitted e) = since s t ++ [e] := by
  obtain ⟨es, hes⟩ := h
  rw [since_eq hes.symm, since_eq (l := es ++ [e])]
  simp [← hes]

theorem since_behind {s t : Service} {e : Event} (h : (s.emitted e).events <+: t.events) :
    since s t = e :: since (s.emitted e) t := by
  obtain ⟨es, hes⟩ := h
  rw [since_eq hes.symm]
  refine since_eq ?_
  rw [← hes, Service.emitted_events, List.append_assoc, List.singleton_append]

theorem call_mem_since {env : Env} {s t : Service} (h : s.events <+: t.events) (c : Call) :
    .call c t.impContext (env.answer t.events.length) ∈ since s (t.called env c) := by
  have hsince : since s (t.called env c) = since s t ++ [.call c t.impContext (env.answer t.events.length)] :=
    since_emitted h _
  rw [hsince]
  exact List.mem_append_right _ (List.mem_singleton_self _)

/-- the last allocation was not refused -/
def lastMalloc (es : List Event) : Bool :=
  es.foldl (fun ok e => match e with | .malloc b => b | _ => ok) true

/-- the platform's file system or the access callback is asked -/
def Event.isQuestion : Event → Bool
  | .call _ _ _ | .access _ _ _ => true
  | _ => false

/-- the error is about what happened: the platform's answer, the callback's, or a path that was not translated -/
def Describes (es : List Event) : ErrorHandle → Prop
  | .ccimp errnum => ∃ c ctx a, .call c ctx a ∈ es ∧ a.status = .error ∧ a.errnum = errnum
  | .internal .accessDenied => ∃ path request, .access path request false ∈ es
  | .internal .invalidPath => ∀ e ∈ es, e.isQuestion = false

/-- the errnum behind a failure: a live handle that was allocated since s and describes it, or what it was when the
handle's allocation was refused -/
def Reported (s : Service) (was errnum : Option ℕ) (t : Service) : Prop :=
  (∃ p e, errnum = some p ∧ s.next ≤ p ∧ t.heap p = some (.error e) ∧ Describes (since s t) e) ∨
    (errnum = was ∧ lastMalloc (since s t) = false)

/-- the errnum behind a status -/
structure Outcome (s : Service) (was : Option ℕ) (status : CcimpStatus) (errnum : Option ℕ) (t : Service) : Prop where
  error : status = .error → Reported s was errnum t
  other : status ≠ .error → errnum = was

theorem Reported.outcome {s t : Service} {was errnum : Option ℕ} (h : Reported s was errnum t) :
    Outcome s was .error errnum t := ⟨fun _ => h, fun hne => absurd rfl hne⟩

theorem outcome_untouched {s t : Service} {status : CcimpStatus} (h : status ≠ .error) (errnum : Option ℕ) :
    Outcome s errnum status errnum t := ⟨fun he => absurd he h, fun _ => rfl⟩

/-- errnum is untouched, or a live handle that was allocated since s -/
def Handed (s : Service) (was errnum : Option ℕ) (t : Service) : Prop :=
  errnum = was ∨ ∃ p e, errnum = some p ∧ s.next ≤ p ∧ t.heap p = some (.error e)

theorem Outcome.handed {s t : Service} {was errnum : Option ℕ} {status : CcimpStatus}
    (h : Outcome s was status errnum t) : Handed s was errnum t := by
  by_cases herr : status = .error
  · rcases h.error herr with ⟨p, e, hp, hle, hheap, -⟩ | ⟨hwas, -⟩
    · exact Or.inr ⟨p, e, hp, hle, hheap⟩
    · exact Or.inl hwas
  · exact Or.inl (h.other herr)

theorem describes_append {es es' : List Event} {e : ErrorHandle} (h : Describes es e)
    (h' : ∀ x ∈ es', x.isQuestion = false) : Describes (es ++ es') e := by
  cases e with
  | ccimp n =>
    obtain ⟨c, ctx, a, hmem, ha⟩ := h
    exact ⟨c, ctx, a, List.mem_append_left _ hmem, ha⟩
  | internal e =>
    cases e with
    | accessDenied =>
      obtain ⟨path, request, hmem⟩ := h
      exact ⟨path, request, List.mem_append_left _ hmem⟩
    | invalidPath =>
      intro x hx
      rcases List.mem_append.1 hx with hx | hx
      · exact h x hx
      · exact h' x hx

theorem Effects.next_le {env : Env} {r : Request} {s t : Service} (h : Effects env r s t) : s.next ≤ t.next := by
  induction h with
  | refl => exact le_rfl
  | alloc _ _ ih | file _ _ _ ih => exact Nat.le_succ_of_le ih
  | deny _ _ _ ih | allow _ _ _ _ ih =>
    unfold Service.asked
    split_ifs <;> exact ih
  | _ => assumption

/-- freeing an older block, or one of another kind, leaves the report -/
theorem Outcome.freed {env : Env} {r : Request} {s t : Service} {was errnum : Option ℕ} {status : CcimpStatus}
    (h : Outcome s was status errnum t) (ht : Effects env r s t) {q : ℕ}
    (hq : s.next ≤ q → ∀ e, t.heap q ≠ some (.error e)) : Outcome s was status errnum (t.freed q) := by
  have hsince : since s (t.freed q) = since s t ++ [.free q] := since_emitted ht.events (.free q)
  refine ⟨fun herr => ?_, h.other⟩
  rcases h.error herr with ⟨p, e, hp, hle, hheap, hdesc⟩ | ⟨hwas, hlast⟩
  · rw [Reported, hsince]
    refine Or.inl ⟨p, e, hp, hle, ?_, describes_append hdesc (by simp [Event.isQuestion])⟩
    rw [Service.freed_heap, Function.update_of_ne]
    · exact hheap
    · rintro rfl
      exact hq hle e hheap
  · rw [Reported, hsince]
    exact Or.inr ⟨hwas, by simpa [lastMalloc] using hlast⟩

section
variable {env : Env} {r : Request} {s t : Service} {E : Fault → Service → Prop}

/-- an error handle is allocated or not; older blocks stay as they were -/
theorem wp_setError {Q : Option ℕ → Service → Prop} (h : Effects env r s t) {e : ErrorHandle}
    (he : Describes (since s t) e) (errnum : Option ℕ)
    (hQ : ∀ n u, Effects env r s u → Reported s errnum n u → (∀ q < t.next, u.heap q = t.heap q) → Q n u) :
    wp (setError env e errnum) Q E t := by
  rw [run_setError]
  split_ifs
  · have hsince : since s (t.alloc (.error e)) = since s t ++ [.malloc true] := since_emitted h.events (.malloc true)
    refine hQ _ _ (h.alloc rfl) (Or.inl ⟨t.next, e, rfl, h.next_le, Function.update_self _ _ _, ?_⟩) fun q hq => ?_
    · rw [hsince]
      exact describes_append he (by simp [Event.isQuestion])
    · exact Function.update_of_ne hq.ne _ _
  · refine hQ _ _ h.refused (Or.inr ⟨rfl, ?_⟩) fun q _ => rfl
    rw [since_emitted h.events]
    simp [lastMalloc]

/-- the same after a call of the platform -/
theorem wp_setCcimpError {Q : Option ℕ → Service → Prop} (h : Effects env r s t) {c : Call} {ctx : ℕ} {a : Answer}
    (ha : .call c ctx a ∈ since s t) (errnum : Option ℕ)
    (hQ : ∀ n u, Effects env r s u → Outcome s errnum a.status n u → (∀ q < t.next, u.heap q = t.heap q) → Q n u) :
    wp (setCcimpError env a errnum) Q E t := by
  unfold setCcimpError
  rw [wp_ite]
  split_ifs with herr
  · have hdesc : Describes (since s t) (.ccimp a.errnum) := ⟨c, ctx, a, ha, herr, rfl⟩
    refine wp_setError h hdesc errnum fun n u hu hn hheap => hQ n u hu ?_ hheap
    rw [herr]
    exact hn.outcome
  · exact hQ _ _ h (outcome_untouched herr _) fun _ _ => rfl

theorem run_getLocalPath {Q : Option LocalPath → Service → Prop} (cloud : Str) :
    wp (getLocalPathFromCloudPath env cloud) Q E s ↔
      match localPath s.virtualDirList cloud with
      | none => Q none s
      | some path =>
        if s.virtualDirList = [] then Q (some ⟨path, none⟩) s
        else if env.malloc s.events.length then Q (some ⟨path, some s.next⟩) (s.alloc (.path path))
        else Q none (s.emitted (.malloc false)) := by
  simp only [getLocalPathFromCloudPath, wp_bind, wp_get, wp_ite, wp_pure]
  by_cases hdirs : s.virtualDirList = []
  · simp [localPath, hdirs]
  · rw [if_neg hdirs, localPath, if_neg hdirs]
    cases findDir (cloud.drop 1) (cloud.length - (getPathWithoutVirtualDir cloud).length - 1) s.virtualDirList with
    | none => exact Iff.rfl
    | some d =>
      simp only [wp_bind, run_malloc, Option.map_some, if_neg hdirs]
      cases env.malloc s.events.length <;> exact Iff.rfl

theorem run_setCcimpError {Q : Option ℕ → Service → Prop} (a : Answer) (errnum : Option ℕ) :
    wp (setCcimpError env a errnum) Q E s ↔
      if a.status = .error then
        if env.malloc s.events.length then Q (some s.next) (s.alloc (.error (.ccimp a.errnum)))
        else Q errnum (s.emitted (.malloc false))
      else Q errnum s := by
  rw [setCcimpError, wp_ite]
  split_ifs with herr hmalloc
  · rw [run_setError, if_pos hmalloc]
  · rw [run_setError, if_neg hmalloc]
  · exact Iff.rfl

/-- a path is translated: no local path, the cloud path itself, or a block of its own -/
theorem wp_getLocalPath {Q : Option LocalPath → Service → Prop} {cloud : Str}
    (hnone : ∀ u, Effects env r s u → (∀ e ∈ since s u, e.isQuestion = false) → pathQuestion env s cloud = none →
      Q none u)
    (hsome : ∀ l u, Effects env r s u → localPath u.virtualDirList cloud = some l.path →
      (∀ q, l.block = some q → u.heap q = some (.path l.path)) →
      pathQuestion env s cloud = some u.events.length ∧ u.impContext = s.impContext → Q (some l) u) :
    wp (getLocalPathFromCloudPath env cloud) Q E s := by
  have hnil : since s s = [] := since_eq (by simp)
  unfold getLocalPathFromCloudPath
  simp only [wp_bind, wp_get, wp_ite, wp_pure]
  split_ifs with hdirs
  · exact hsome _ _ .refl (by simp [localPath, hdirs]) (by simp) ⟨by simp [pathQuestion, localPath, hdirs], rfl⟩
  · cases hfind : findDir (cloud.drop 1) (cloud.length - (getPathWithoutVirtualDir cloud).length - 1) s.virtualDirList with
    | none => exact hnone _ .refl (by simp [hnil]) (by simp [pathQuestion, localPath, hdirs, -List.drop_one, hfind])
    | some d =>
      simp only [wp_bind, run_malloc]
      have hpath : localPath s.virtualDirList cloud = some (d.localDir ++ getPathWithoutVirtualDir cloud) := by
        simp only [localPath, if_neg hdirs, hfind, Option.map_some]
      split_ifs with hmalloc
      · refine hsome _ _ (Effects.refl.alloc rfl) hpath (fun q hq => ?_) ⟨?_, rfl⟩
        · cases hq
          exact Function.update_self _ _ _
        · simp [pathQuestion, hpath, hdirs, hmalloc]
      · refine hnone _ Effects.refl.refused ?_ (by simp [pathQuestion, hpath, hdirs, hmalloc])
        rw [since_emitted List.prefix_rfl, hnil]
        simp [Event.isQuestion]

/-- the local path's block is freed -/
theorem wp_freeLocalPath {Q : Unit → Service → Prop} (h : Effects env r s t) {block : Option ℕ} {path : Str}
    (hb : ∀ q, block = some q → t.heap q = some (.path path))
    (hQ : ∀ u, Effects env r s u → (∀ was st n, Outcome s was st n t → Outcome s was st n u) → Q () u) :
    wp (freeLocalPath env block) Q E t := by
  rw [run_freeLocalPath]
  cases block with
  | none => exact hQ t h fun _ _ _ hn => hn
  | some q =>
    have hq := hb q rfl
    simp only [hq]
    refine hQ _ (h.freePath hq) fun _ _ n hn => hn.freed h fun _ e he => ?_
    rw [hq] at he
    cases he

end

/-! ## The requests -/

/-- the errnum a record has -/
def Request.errnum : Request → Option ℕ
  | .open d => d.errnum
  | .read d => d.errnum
  | .write d => d.errnum
  | .lseek d => d.errnum
  | .close d => d.errnum
  | .ftruncate d => d.errnum
  | .remove d => d.errnum
  | .opendir d => d.errnum
  | .readdir d => d.errnum
  | .statDirEntry d => d.errnum
  | .closedir d => d.errnum
  | .stat d => d.errnum
  | .hash d => d.errnum
  | .getError _ | .sessionError _ => none

/-- m is a sequence of effects of r, and its errnum is as its status says -/
def Meets (env : Env) (r : Request) (s : Service) {δ : Type} (errnum : δ → Option ℕ) (m : Fs (CcimpStatus × δ)) : Prop :=
  wp m (fun x t => Effects env r s t ∧ Outcome s r.errnum x.1 (errnum x.2) t) (fun _ t => Effects env r s t) s

section
variable {env : Env} {s : Service}

/-- a request on a file: its handle's record is read, the platform called and the answer kept -/
theorem meets_onFile {r : Request} {δ : Type} {errnum : δ → Option ℕ} (p : ℕ) {c : FileHandle → Call}
    (hasks : ∀ f, (c f).asks = none) (hfile : ∀ f, (c f).onFile = some f.ccimpHandle) {n : Option ℕ} (hr : r.errnum = n)
    (k : Answer → Option ℕ → δ) (hk : ∀ a n, errnum (k a n) = n) :
    Meets env r s errnum (do
      let f ← loadFile p
      let a ← ccimpCallKeeping env (c f)
      let n ← setCcimpError env a n
      return (a.status, k a n)) := by
  simp only [Meets, wp_bind, run_loadFile]
  split
  · next f hf =>
    rw [run_call]
    have hcall : Effects env r s (s.called env (c f)) := by
      refine Effects.refl.call (hasks f) fun x hx => ⟨p, f, hf, ?_⟩
      rw [hfile f, Option.some.injEq] at hx
      exact hx
    refine wp_setCcimpError hcall (call_mem_since List.prefix_rfl _) n fun n u hu hn _ => ⟨hu, ?_⟩
    rw [hk, hr]
    exact hn
  · exact .refl

theorem meets_fileRead (d : ReadData) : Meets env (.read d) s ReadData.errnum (fileRead env d) :=
  meets_onFile d.handle (fun _ => rfl) (fun _ => rfl) rfl
    (fun a n => { d with buffer := a.bytes, bytesUsed := a.bytesUsed, errnum := n }) fun _ _ => rfl

theorem meets_fileWrite (d : WriteData) : Meets env (.write d) s WriteData.errnum (fileWrite env d) :=
  meets_onFile d.handle (fun _ => rfl) (fun _ => rfl) rfl
    (fun a n => { d with bytesUsed := a.bytesUsed, errnum := n }) fun _ _ => rfl

theorem meets_fileSeek (d : LseekData) : Meets env (.lseek d) s LseekData.errnum (fileSeek env d) :=
  meets_onFile d.handle (fun _ => rfl) (fun _ => rfl) rfl
    (fun a n => { d with resultingOffset := a.offset, errnum := n }) fun _ _ => rfl

theorem meets_fileTruncate (d : TruncateData) : Meets env (.ftruncate d) s TruncateData.errnum (fileTruncate env d) :=
  meets_onFile d.handle (fun _ => rfl) (fun _ => rfl) rfl (fun _ n => { d with errnum := n }) fun _ _ => rfl

theorem wp_closeChanged {r : Request} {t : Service} (h : Effects env r s t) {f : FileHandle} {Q : Unit → Service → Prop}
    {E : Fault → Service → Prop}
    (hQ : ∀ u, Effects env r s u → u.heap = t.heap → (∀ e ∈ since s t, e ∈ since s u) → Q () u) (hE : E .fault t) :
    wp (closeChanged env f) Q E t := by
  simp only [closeChanged, wp_ite, wp_bind, run_load, wp_pure]
  split_ifs
  · split
    · next b _ =>
      cases b with
      | path path =>
        refine hQ (t.emitted (.changed path .modified)) (h.changed path .modified) rfl fun e he => ?_
        rw [since_emitted h.events]
        exact List.mem_append_left _ he
      | _ => exact hE
    · exact hE
  · exact hQ t h rfl fun _ he => he

/-- a close gives the handle up unless the platform is busy -/
theorem meets_fileClose (hs : Tidy s) (d : CloseData) : Meets env (.close d) s CloseData.errnum (fileClose env d) := by
  simp only [Meets, fileClose, wp_bind, run_loadFile]
  split
  · next f hf =>
    rw [run_call]
    have hcall : Effects env (.close d) s (s.called env (.fileClose f.ccimpHandle)) :=
      Effects.refl.call rfl fun x hx => ⟨d.handle, f, hf, Option.some.inj hx⟩
    refine wp_closeChanged hcall (fun t ht hheap hsince => ?_) hcall
    refine wp_setCcimpError ht (hsince _ (call_mem_since List.prefix_rfl _)) d.errnum fun n u hu hn hold => ?_
    have hlt := hs.lt hf
    have htnext := ht.next_le
    have hfile : u.heap d.handle = some (.file f) := by
      rw [hold _ (hlt.trans_le htnext), hheap]
      exact hf
    have hname := hs.named _ _ hf
    rw [wp_ite]
    split_ifs with hbusy
    · exact ⟨hu, hn⟩
    · simp only [wp_bind, run_free, wp_pure]
      split
      · next b hb =>
        have hpath := hu.freeName hfile (by simp [hb])
        split
        · next b hb =>
          have hstill : (u.freed f.filePath).heap d.handle = some (.file f) := by
            rw [Service.freed_heap] at hb ⊢
            rw [Function.update_of_ne]
            · exact hfile
            · intro e
              rw [e, Function.update_self] at hb
              cases hb
          -- what is freed is older than the error's handle
          have hrep := hn.freed hu fun hle => absurd hname (not_lt.2 hle)
          exact ⟨hpath.freeFile hstill, hrep.freed hpath fun hle => absurd hlt (not_lt.2 hle)⟩
        · exact hpath
      · exact hu
  · exact .refl

/-! ### Requests on a path -/

@[simp] theorem asked_heap (path : Str) (request : FsRequest) (allow : Bool) :
    (s.asked env path request allow).heap = s.heap := by
  unfold Service.asked
  split_ifs <;> rfl

@[simp] theorem asked_next (path : Str) (request : FsRequest) (allow : Bool) :
    (s.asked env path request allow).next = s.next := by
  unfold Service.asked
  split_ifs <;> rfl

theorem asked_events {t : Service} (h : s.events <+: t.events) (path : Str) (request : FsRequest) (allow : Bool) :
    s.events <+: (t.asked env path request allow).events := by
  unfold Service.asked
  split_ifs
  · exact h.trans (List.prefix_append _ _)
  · exact h

/-- the local path's block outlives an allocation -/
theorem block_kept {t u : Service} (ht : Tidy t) {block : Option ℕ} {path : Str}
    (hb : ∀ q, block = some q → t.heap q = some (.path path)) (hold : ∀ q < t.next, u.heap q = t.heap q) :
    ∀ q, block = some q → u.heap q = some (.path path) := by
  intro q hq
  rw [hold q (ht.lt (hb q hq))]
  exact hb q hq

/-- a denied request is answered with an error about the access -/
theorem wp_denied {r : Request} {t : Service} (ht : Effects env r s t) (htidy : Tidy t) {path : Str} {request : FsRequest}
    (hdeny : env.allows t path request = false) {l : LocalPath} (hb : ∀ q, l.block = some q → t.heap q = some (.path l.path))
    (errnum : Option ℕ) {δ : Type} (errnumOf : δ → Option ℕ) (k : Option ℕ → δ) (hk : ∀ n, errnumOf (k n) = n) :
    wp (do
      let n ← setError env (.internal .accessDenied) errnum
      freeLocalPath env l.block
      return ((CcimpStatus.error, k n) : CcimpStatus × δ))
      (fun x u => Effects env r s u ∧ Outcome s errnum x.1 (errnumOf x.2) u) (fun _ u => Effects env r s u)
      (t.asked env path request false) := by
  have hsome : env.access.isSome = true := by
    by_contra hnone
    rw [Option.not_isSome_iff_eq_none] at hnone
    rw [Env.allows, hnone] at hdeny
    cases hdeny
  have hmem : Event.access path request false ∈ since s (t.asked env path request false) := by
    rw [Service.asked, if_pos hsome, since_emitted ht.events]
    exact List.mem_append_right _ (List.mem_singleton_self _)
  rw [wp_bind]
  refine wp_setError (ht.deny path request) (e := .internal .accessDenied) ⟨path, request, hmem⟩ errnum ?_
  intro n u hu hn hold
  rw [wp_bind]
  refine wp_freeLocalPath hu (block_kept (htidy.asked _ _ _) (by simpa using hb) hold) fun v hv hrep => ⟨hv, ?_⟩
  rw [hk]
  exact hrep _ _ n hn.outcome

/-- an allowed request is the platform's to answer -/
theorem wp_allowed {r : Request} {t : Service} (ht : Effects env r s t) (htidy : Tidy t) {c : Call} {cloud : Str}
    {request : FsRequest} {l : LocalPath} (hr : r.cloudPath = some cloud)
    (hl : localPath t.virtualDirList cloud = some l.path) (hc : c.asks = some (l.path, request))
    (hb : ∀ q, l.block = some q → t.heap q = some (.path l.path)) {Q : Answer → Service → Prop}
    {E : Fault → Service → Prop}
    (hQ : ∀ a u, Effects env r s u → Tidy u → (∀ q, l.block = some q → u.heap q = some (.path l.path)) →
      (∃ pre ctx, since s u = pre ++ [.call c ctx a] ∧ (env.access.isSome → pre.getLast? = some (.access l.path request true))) →
      (∃ ctx, .call c ctx a ∈ since s u) → Q a u) :
    wp (ccimpCallKeeping env c) Q E (t.asked env l.path request true) := by
  rw [run_call]
  have hcall := ht.allow hr hl hc
  refine hQ _ _ hcall ((htidy.asked _ _ _).congr rfl rfl) (by simpa using hb) ?_ ?_
  · refine ⟨since s (t.asked env l.path request true), _, since_emitted (asked_events ht.events _ _ _) _, fun hsome => ?_⟩
    rw [Service.asked, if_pos hsome, since_emitted ht.events]
    simp
  · exact ⟨_, call_mem_since (asked_events ht.events l.path request true) c⟩

/-- an answer's report and the freeing of the local path, at the end of a request -/
theorem wp_answered {r : Request} {t : Service} (ht : Effects env r s t) (htidy : Tidy t) {c : Call} {a : Answer}
    (ha : ∃ ctx, .call c ctx a ∈ since s t) {l : LocalPath} (hb : ∀ q, l.block = some q → t.heap q = some (.path l.path))
    (errnum : Option ℕ) {δ : Type} (errnumOf : δ → Option ℕ) (k : Option ℕ → δ) (hk : ∀ n, errnumOf (k n) = n) :
    wp (do
      let n ← setCcimpError env a errnum
      freeLocalPath env l.block
      return ((a.status, k n) : CcimpStatus × δ))
      (fun x u => Effects env r s u ∧ Outcome s errnum x.1 (errnumOf x.2) u) (fun _ u => Effects env r s u) t := by
  obtain ⟨ctx, ha⟩ := ha
  rw [wp_bind]
  refine wp_setCcimpError ht ha errnum fun n u hu hn hold => ?_
  rw [wp_bind]
  refine wp_freeLocalPath hu (block_kept htidy hb hold) fun v hv hrep => ⟨hv, ?_⟩
  rw [hk]
  exact hrep _ _ n hn

/-- no local path: the answer is an error about the path -/
theorem wp_invalidPath {r : Request} {t : Service} (ht : Effects env r s t)
    (hdesc : ∀ e ∈ since s t, e.isQuestion = false) (errnum : Option ℕ) {δ : Type}
    (errnumOf : δ → Option ℕ) (k : Option ℕ → δ) (hk : ∀ n, errnumOf (k n) = n) :
    wp (do
      let n ← setError env (.internal .invalidPath) errnum
      return ((CcimpStatus.error, k n) : CcimpStatus × δ))
      (fun x u => Effects env r s u ∧ Outcome s errnum x.1 (errnumOf x.2) u) (fun _ u => Effects env r s u) t := by
  rw [wp_bind]
  refine wp_setError ht (e := .internal .invalidPath) hdesc errnum fun n u hu hn _ => ⟨hu, ?_⟩
  rw [hk]
  exact hn.outcome

theorem wp_notifyChanged {r : Request} {t : Service} (h : Effects env r s t) (htidy : Tidy t) (path : Str) (c : Changed)
    {Q : Unit → Service → Prop} {E : Fault → Service → Prop}
    (hQ : ∀ u, Effects env r s u → Tidy u → u.heap = t.heap → (∀ e ∈ since s t, e ∈ since s u) → Q () u) :
    wp (notifyChanged env path c) Q E t := by
  rw [notifyChanged, wp_ite]
  split_ifs
  · rw [run_emit]
    refine hQ _ (h.changed path c) (htidy.emitted _) rfl fun e he => ?_
    rw [since_emitted h.events]
    exact List.mem_append_left _ he
  · exact hQ t h htidy rfl fun _ he => he

theorem meets_fileRemove (hs : Tidy s) (d : RemoveData) :
    Meets env (.remove d) s RemoveData.errnum (fileRemove env d) := by
  unfold Meets fileRemove
  rw [wp_bind]
  refine wp_getLocalPath (r := .remove d) (fun t ht hdesc _ => ?_) fun l t ht hl hb _ => ?_
  · exact wp_invalidPath ht hdesc d.errnum RemoveData.errnum (fun n => { d with errnum := n }) fun _ => rfl
  · have htidy := ht.tidy hs
    dsimp only
    rw [wp_bind, run_askAccess, wp_ite]
    cases hallow : env.allows t l.path .remove with
    | false => exact wp_denied ht htidy hallow hb d.errnum RemoveData.errnum (fun n => { d with errnum := n }) fun _ => rfl
    | true =>
      rw [if_pos rfl, wp_bind]
      refine wp_allowed ht htidy rfl hl rfl hb fun a u hu hutidy hub _ ha => ?_
      rw [wp_ite, wp_bind]
      split_ifs
      · refine wp_notifyChanged hu hutidy _ _ fun v hv hvtidy hheap hmem => ?_
        obtain ⟨ctx, ha⟩ := ha
        refine wp_answered hv hvtidy ⟨ctx, hmem _ ha⟩ ?_ d.errnum RemoveData.errnum (fun n => { d with errnum := n }) fun _ => rfl
        rw [hheap]
        exact hub
      · exact wp_answered hu hutidy ha hub d.errnum RemoveData.errnum (fun n => { d with errnum := n }) fun _ => rfl

/-- the tail of an open: a handle, its path, and the handle given to the connector -/
theorem wp_newFileHandle {r : Request} {t : Service} (h : Effects env r s t) {handle : ℤ}
    (ho : Opened env (since s t) handle) (path : Str) (request : FsRequest) (d : OpenData) {Q : OpenData → Service → Prop}
    {E : Fault → Service → Prop}
    (hQ : ∀ d' u, Effects env r s u → d'.errnum = d.errnum → (∀ q < t.next, u.heap q = t.heap q) → Q d' u) :
    wp (newFileHandle env path handle request d) Q E t := by
  unfold newFileHandle
  rw [wp_bind, run_malloc]
  split_ifs
  · have hfile := h.file ho request
    have hold : ∀ q < t.next, (t.alloc (.file ⟨handle, 0, request⟩)).heap q = t.heap q := fun q hq =>
      Function.update_of_ne hq.ne _ _
    dsimp only
    rw [wp_bind, run_malloc]
    split_ifs
    · have hpath := hfile.alloc (b := .path path) rfl
      have hp : ((t.alloc (.file ⟨handle, 0, request⟩)).alloc (.path path)).heap t.next =
          some (.file ⟨handle, 0, request⟩) := by
        simp only [Service.alloc_heap, Service.alloc_next]
        rw [Function.update_of_ne (by omega), Function.update_self]
      refine hQ _ _ (hpath.named hp (Function.update_self _ _ _)) rfl fun q hq => ?_
      simp only [Service.alloc_heap, Service.alloc_next]
      rw [Function.update_of_ne hq.ne, Function.update_of_ne (by omega), Function.update_of_ne hq.ne]
    · exact hQ d _ hfile.refused rfl hold
  · exact hQ d _ h.refused rfl fun _ _ => rfl

theorem meets_fileOpen (hs : Tidy s) (d : OpenData) : Meets env (.open d) s OpenData.errnum (fileOpen env d) := by
  unfold Meets fileOpen
  rw [wp_bind]
  refine wp_getLocalPath (r := .open d) (fun t ht hdesc _ => ?_) fun l t ht hl hb _ => ?_
  · exact wp_invalidPath ht hdesc d.errnum OpenData.errnum (fun n => { d with errnum := n }) fun _ => rfl
  · have htidy := ht.tidy hs
    dsimp only
    rw [wp_bind, run_askAccess, wp_ite]
    cases hallow : env.allows t l.path (openRequest d.oflag) with
    | false =>
      exact wp_denied ht htidy hallow hb d.errnum OpenData.errnum (fun n => { d with errnum := n, handle := none })
        fun _ => rfl
    | true =>
      rw [if_pos rfl, wp_bind]
      refine wp_allowed ht htidy rfl hl rfl hb fun a u hu hutidy hub hopen ha => ?_
      by_cases hok : a.status = .ok
      · have herr : ¬ a.status = .error := by simp [hok]
        obtain ⟨pre, ctx, hevents, hguard⟩ := hopen
        have ho : Opened env (since s u) a.fileHandle :=
          ⟨pre, [], l.path, d.oflag, ctx, a, hevents, hok, rfl, hguard⟩
        simp only [setCcimpError, if_neg herr, if_pos hok, wp_bind, wp_pure]
        refine wp_newFileHandle hu ho _ _ _ fun d' v hv herrnum hold => ?_
        refine wp_freeLocalPath hv (block_kept hutidy hub hold) fun w hw _ => ⟨hw, fun he => ?_, fun _ => herrnum⟩
        cases he
      · obtain ⟨ctx, ha⟩ := ha
        rw [wp_bind]
        refine wp_setCcimpError hu ha d.errnum fun n v hv hn hold => ?_
        simp only [if_neg hok, wp_bind, wp_pure]
        exact wp_freeLocalPath hv (block_kept hutidy hub hold) fun w hw hrep => ⟨hw, hrep _ _ n hn⟩

theorem meets_dirOpen (hs : Tidy s) (d : OpendirData) :
    Meets env (.opendir d) s OpendirData.errnum (dirOpen env d) := by
  unfold Meets dirOpen
  cases d.userContext with
  | some p => exact ⟨.refl, outcome_untouched (by simp) _⟩
  | none =>
    dsimp only
    rw [wp_bind]
    refine wp_getLocalPath (r := .opendir d) (fun t ht hdesc _ => ?_) fun l t ht hl hb _ => ?_
    · exact wp_invalidPath ht hdesc d.errnum OpendirData.errnum (fun n => ⟨none, d.path, d.handle, n⟩) fun _ => rfl
    · have htidy := ht.tidy hs
      dsimp only
      rw [wp_bind, run_askAccess, wp_ite]
      cases hallow : env.allows t l.path .list with
      | false =>
        exact wp_denied ht htidy hallow hb d.errnum OpendirData.errnum (fun n => ⟨none, d.path, d.handle, n⟩) fun _ => rfl
      | true =>
        rw [if_pos rfl, wp_bind]
        refine wp_allowed ht htidy rfl hl rfl hb fun a u hu hutidy hub _ ha => ?_
        exact wp_answered hu hutidy ha hub d.errnum OpendirData.errnum
          (fun n => ⟨none, d.path, .platform a.dirHandle, n⟩) fun _ => rfl

/-- a call of the platform that needs no question -/
theorem wp_unasked {r : Request} {t : Service} (ht : Effects env r s t) (htidy : Tidy t) {c : Call}
    (hc : c.asks = none) (hf : c.onFile = none) {Q : Answer → Service → Prop} {E : Fault → Service → Prop}
    (hQ : ∀ a u, Effects env r s u → Tidy u → u.heap = t.heap → (∃ ctx, .call c ctx a ∈ since s u) → Q a u) :
    wp (ccimpCallKeeping env c) Q E t := by
  rw [run_call]
  have hcall := ht.call hc fun x hx => by rw [hf] at hx; cases hx
  exact hQ _ _ hcall (htidy.congr rfl rfl) rfl ⟨_, call_mem_since ht.events c⟩

/-- an answer's report, with no local path -/
theorem wp_reported {r : Request} {t : Service} (ht : Effects env r s t) {c : Call} {a : Answer}
    (ha : ∃ ctx, .call c ctx a ∈ since s t) (errnum : Option ℕ) {δ : Type} (errnumOf : δ → Option ℕ) (k : Option ℕ → δ)
    (hk : ∀ n, errnumOf (k n) = n) :
    wp (do
      let n ← setCcimpError env a errnum
      return ((a.status, k n) : CcimpStatus × δ))
      (fun x u => Effects env r s u ∧ Outcome s errnum x.1 (errnumOf x.2) u) (fun _ u => Effects env r s u) t := by
  obtain ⟨ctx, ha⟩ := ha
  rw [wp_bind]
  refine wp_setCcimpError ht ha errnum fun n u hu hn _ => ⟨hu, ?_⟩
  rw [hk]
  exact hn

/-- the root listing's entry: the handle moves on, and nothing else happens -/
theorem wp_readRootEntry {r : Request} (p n : ℕ) {Q : Str → Service → Prop} (hQ : ∀ x u, Effects env r s u → Q x u) :
    wp (readRootEntry p n) Q (fun _ u => Effects env r s u) s := by
  simp only [readRootEntry, wp_bind, run_load]
  split
  · next b hb =>
    split
    · exact hQ _ _ .refl
    · rw [wp_bind, wp_get]
      split
      · exact .refl
      · exact hQ _ _ (Effects.refl.moved hb _)
    · exact .refl
  · exact .refl

theorem meets_dirReadEntry (hs : Tidy s) (d : ReaddirData) :
    Meets env (.readdir d) s ReaddirData.errnum (dirReadEntry env d) := by
  unfold Meets dirReadEntry
  cases d.userContext with
  | some p =>
    dsimp only
    rw [wp_bind]
    exact wp_readRootEntry p d.bytesAvailable fun x u hu => ⟨hu, outcome_untouched (by simp) _⟩
  | none =>
    dsimp only
    rw [wp_bind]
    refine wp_unasked (r := .readdir d) .refl hs rfl rfl fun a u hu _ _ ha => ?_
    exact wp_reported hu ha d.errnum ReaddirData.errnum (fun n => ⟨none, d.handle, d.bytesAvailable, a.bytes, n⟩) fun _ => rfl

theorem meets_dirEntryStatus (hs : Tidy s) (d : StatDirEntryData) :
    Meets env (.statDirEntry d) s StatDirEntryData.errnum (dirEntryStatus env d) := by
  unfold Meets dirEntryStatus
  cases d.userContext with
  | some p => exact ⟨.refl, outcome_untouched (by simp) _⟩
  | none =>
    dsimp only
    rw [wp_bind]
    refine wp_getLocalPath (r := .statDirEntry d) (fun t ht hdesc _ => ?_) fun l t ht hl hb _ => ?_
    · exact wp_invalidPath ht hdesc d.errnum StatDirEntryData.errnum (fun n => ⟨none, d.path, d.statbuf, n⟩) fun _ => rfl
    · dsimp only
      rw [wp_bind]
      refine wp_unasked ht (ht.tidy hs) rfl rfl fun a u hu hutidy hheap ha => ?_
      exact wp_answered hu hutidy ha (by rwa [hheap]) d.errnum StatDirEntryData.errnum (fun n => ⟨none, d.path, a.stat, n⟩)
        fun _ => rfl

/-- closing a root directory's listing frees what the connector gives as its context; memory's answer is the request's -/
theorem meets_dirClose (hs : Tidy s) (d : ClosedirData) (hd : d.userContext = none) :
    Meets env (.closedir d) s ClosedirData.errnum (dirClose env d) := by
  unfold Meets dirClose
  rw [hd]
  dsimp only
  rw [wp_bind]
  refine wp_unasked (r := .closedir d) .refl hs rfl rfl fun a u hu _ _ ha => ?_
  exact wp_reported hu ha d.errnum ClosedirData.errnum (fun n => ⟨none, d.handle, n⟩) fun _ => rfl

theorem meets_hashFile (hs : Tidy s) (d : HashData) : Meets env (.hash d) s HashData.errnum (hashFile env d) := by
  unfold Meets hashFile
  rw [wp_bind]
  refine wp_getLocalPath (r := .hash d) (fun t ht hdesc _ => ?_) fun l t ht hl hb _ => ?_
  · exact wp_invalidPath ht hdesc d.errnum HashData.errnum (fun n => { d with errnum := n }) fun _ => rfl
  · dsimp only
    rw [wp_bind]
    refine wp_unasked ht (ht.tidy hs) rfl rfl fun a u hu hutidy hheap ha => ?_
    exact wp_answered hu hutidy ha (by rwa [hheap]) d.errnum HashData.errnum
      (fun n => { d with hashValue := a.bytes, errnum := n }) fun _ => rfl

/-- a stat of the root path starts a listing; any other asks the platform twice, and drops the context of the first answer -/
theorem meets_hashStatus (hs : Tidy s) (d : StatData) : Meets env (.stat d) s StatData.errnum (hashStatus env d) := by
  simp only [Meets, hashStatus, wp_bind, wp_get, wp_ite]
  split_ifs with hroot
  · rw [run_malloc]
    split_ifs
    · exact ⟨Effects.refl.alloc rfl, outcome_untouched (by simp) _⟩
    · refine ⟨Effects.refl.refused, Reported.outcome (Or.inr ⟨rfl, ?_⟩)⟩
      rw [since_emitted List.prefix_rfl]
      simp [lastMalloc]
  · refine wp_getLocalPath (r := .stat d) (fun t ht hdesc _ => ?_) fun l t ht hl hb hq => ?_
    · exact wp_invalidPath ht hdesc d.errnum StatData.errnum (fun n => { d with errnum := n }) fun _ => rfl
    · have hquestion : statusQuestion env s d = some t.events.length := by
        rw [statusQuestion, if_neg hroot]
        exact hq.1
      have hpeek := ht.peek rfl l.path hquestion hq.2
      have htidy : Tidy (t.peeked env (.dirEntryStatus l.path)) := hpeek.tidy hs
      simp only [wp_bind, wp_get, run_peek, wp_ite]
      split_ifs with herr
      · have hmem : .call (.dirEntryStatus l.path) t.impContext (env.answer t.events.length) ∈
            since s (t.peeked env (.dirEntryStatus l.path)) := call_mem_since ht.events (.dirEntryStatus l.path)
        refine wp_setCcimpError hpeek hmem d.errnum fun n u hu hn hold => ?_
        refine wp_freeLocalPath hu (block_kept htidy hb hold) fun v hv hrep => ⟨hv, ?_⟩
        exact hrep _ .error n (herr ▸ hn)
      · refine wp_unasked hpeek htidy rfl rfl fun a u hu hutidy hheap ha => ?_
        have hanswered := wp_answered hu hutidy ha (by rw [hheap]; exact hb) d.errnum StatData.errnum
          (fun n => { d with statbuf := (env.answer t.events.length).stat, actual := a.hashAlg, errnum := n }) fun _ => rfl
        simpa only [wp_bind, Request.errnum] using hanswered

/-! ### Every request -/

/-- a request that reports what fails: not a question about an error, and not the end of a root directory's listing -/
def Request.reports : Request → Bool
  | .getError _ | .sessionError _ => false
  | .closedir d => d.userContext = none
  | _ => true

/-- the record of a request, put back into it -/
theorem meets_wrap {r : Request} {δ : Type} {errnum : δ → Option ℕ} {m : Fs (CcimpStatus × δ)}
    (h : Meets env r s errnum m) (hr : r.reports = true) {k : δ → Request} (hk : ∀ d, (k d).errnum = errnum d) :
    wp (do let (st, d) ← m; return (st, k d))
      (fun (x : CcimpStatus × Request) t => Effects env r s t ∧ (r.reports = true → Outcome s r.errnum x.1 x.2.errnum t) ∧
        (r.reports = false → x.2.errnum = r.errnum))
      (fun _ t => Effects env r s t) s := by
  rw [wp_bind]
  refine wp_mono h ?_ fun _ _ ht => ht
  rintro ⟨st, d⟩ t ⟨ht, hrep⟩
  refine ⟨ht, fun _ => ?_, fun hnot => ?_⟩
  · rw [hk]
    exact hrep
  · rw [hr] at hnot
    cases hnot

theorem wp_errorDesc (hs : Tidy s) (d : GetErrorData) :
    wp (errorDesc env d) (fun _ t => Effects env (.getError d) s t) (fun _ t => Effects env (.getError d) s t) s := by
  simp only [errorDesc, wp_bind, run_load]
  split
  · next b hb =>
    split
    · rw [wp_bind, run_free, hb]
      exact Effects.refl.freeError rfl (by simp [hb])
    · rw [wp_bind]
      refine wp_unasked (r := .getError d) .refl hs rfl rfl fun a u hu _ hheap _ => ?_
      rw [wp_bind, run_free, hheap, hb]
      exact hu.freeError rfl (by simp [hheap, hb])
    · exact .refl
  · exact .refl

theorem wp_dirClose_listing (d : ClosedirData) {p : ℕ} (hd : d.userContext = some p) :
    wp (dirClose env d) (fun x t => Effects env (.closedir d) s t ∧ x.2.errnum = d.errnum)
      (fun _ t => Effects env (.closedir d) s t) s := by
  unfold dirClose
  rw [hd]
  dsimp only
  rw [wp_bind, run_free]
  split
  · next b hb => exact ⟨Effects.refl.freeContext rfl hd (by simp [hb]), rfl⟩
  · exact .refl

/-- **What a request does.** Whatever its surroundings answer, it is a sequence of its effects, and the errnum of one that
reports what fails is as its status says. -/
theorem serve_effects (hs : Tidy s) (r : Request) :
    wp (serve env r)
      (fun x t => Effects env r s t ∧ (r.reports = true → Outcome s r.errnum x.1 x.2.errnum t) ∧
        (r.reports = false → x.2.errnum = r.errnum))
      (fun _ t => Effects env r s t) s := by
  cases r with
  | «open» d => exact meets_wrap (meets_fileOpen hs d) rfl fun _ => rfl
  | read d => exact meets_wrap (meets_fileRead d) rfl fun _ => rfl
  | write d => exact meets_wrap (meets_fileWrite d) rfl fun _ => rfl
  | lseek d => exact meets_wrap (meets_fileSeek d) rfl fun _ => rfl
  | close d => exact meets_wrap (meets_fileClose hs d) rfl fun _ => rfl
  | ftruncate d => exact meets_wrap (meets_fileTruncate d) rfl fun _ => rfl
  | remove d => exact meets_wrap (meets_fileRemove hs d) rfl fun _ => rfl
  | opendir d => exact meets_wrap (meets_dirOpen hs d) rfl fun _ => rfl
  | readdir d => exact meets_wrap (meets_dirReadEntry hs d) rfl fun _ => rfl
  | statDirEntry d => exact meets_wrap (meets_dirEntryStatus hs d) rfl fun _ => rfl
  | closedir d =>
    cases hd : d.userContext with
    | none => exact meets_wrap (meets_dirClose hs d hd) (by simp [Request.reports, hd]) fun _ => rfl
    | some p =>
      simp only [serve, wp_bind]
      refine wp_mono (wp_dirClose_listing d hd) (fun x t ht => ⟨ht.1, fun hr => ?_, fun _ => ht.2⟩) fun _ _ ht => ht
      simp [Request.reports, hd] at hr
  | stat d => exact meets_wrap (meets_hashStatus hs d) rfl fun _ => rfl
  | hash d => exact meets_wrap (meets_hashFile hs d) rfl fun _ => rfl
  | getError d =>
    simp only [serve, wp_bind]
    refine wp_mono (wp_errorDesc hs d) (fun x t ht => ⟨ht, fun hr => ?_, fun _ => rfl⟩) fun _ _ ht => ht
    cases hr
  | sessionError e =>
    simp only [serve, sessionError, wp_bind, run_call]
    refine ⟨Effects.refl.call rfl fun x hx => ?_, fun hr => ?_, fun _ => rfl⟩
    · cases hx
    · cases hr

end

end CcApi.FileSystem
