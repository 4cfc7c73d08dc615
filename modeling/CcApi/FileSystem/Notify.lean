/-
The changed callback over runs of operations (`ccapi_filesystem_handler.c`).

A close notifies the user of a file that was opened for writing, and it does so before it looks at the platform's answer: a
close that is answered busy notifies, keeps the handle, and notifies again when it is repeated. A remove notifies behind the
platform's OK only.

- `Onward`: how one operation may change the blocks that it finds.
- `live_run`: what the closes of one handle notify, over any continuation of a run.
- `notified_iff`: every written file that is closed is notified once, and every removal, exactly when no close of a written
  file is answered busy on the way.
-/
import CcApi.FileSystem.Opening

namespace CcApi.FileSystem

open Lib Lib.Prog Lib.Runs

/-! ## Notifications -/

/-- a call of the changed callback -/
def Event.change : Event → Option (Str × Changed)
  | .changed path c => some (path, c)
  | _ => none

/-- a file that the platform removes, and what the user is to be told of it -/
def Event.removes : Event → Option (Str × Changed)
  | .call (.fileRemove path) _ a => if a.status = .ok then some (path, .removed) else none
  | _ => none

/-- a file that was opened to be written -/
def FsRequest.writes (r : FsRequest) : Bool := r = .write || r = .readWrite

/-! ## Old blocks -/

/-- blocks of s stay as they are in t or are freed, listings apart; whether the platform may have been called on the way, and
the changed callback -/
structure Onward (calls notes : Prop) (s t : Service) : Prop where
  next : s.next ≤ t.next
  heap : ∀ p < s.next, t.heap p = s.heap p ∨ t.heap p = none ∨
    ∃ n n', s.heap p = some (.listing n) ∧ t.heap p = some (.listing n')
  events : ∃ es, t.events = s.events ++ es ∧ ∀ e ∈ es, (e.isCall = true → calls) ∧ (e.change ≠ none → notes)

section
variable {calls notes : Prop}

theorem onward_refl (s : Service) : Onward calls notes s s := ⟨le_rfl, fun _ _ => Or.inl rfl, [], by simp⟩

theorem onward_trans (s t u : Service) (h : Onward calls notes s t) (h' : Onward calls notes t u) : Onward calls notes s u := by
  obtain ⟨es, hes, hq⟩ := h.events
  obtain ⟨es', hes', hq'⟩ := h'.events
  refine ⟨h.next.trans h'.next, fun p hp => ?_, es ++ es', by rw [hes', hes, List.append_assoc], fun e he => ?_⟩
  · rcases h'.heap p (hp.trans_le h.next) with hu | hu | ⟨n, n', ht, hu⟩
    · rw [hu]
      exact h.heap p hp
    · exact Or.inr (Or.inl hu)
    · rcases h.heap p hp with hs | hs | ⟨m, m', hs, hs'⟩
      · exact Or.inr (Or.inr ⟨n, n', hs ▸ ht, hu⟩)
      · rw [ht] at hs
        cases hs
      · exact Or.inr (Or.inr ⟨m, n', hs, hu⟩)
  · rcases List.mem_append.1 he with he | he
    · exact hq e he
    · exact hq' e he

theorem onward_emitted (s : Service) {e : Event} (hcall : e.isCall = true → calls) (hnote : e.change ≠ none → notes) :
    Onward calls notes s (s.emitted e) :=
  ⟨le_rfl, fun _ _ => Or.inl rfl, [e], rfl, fun x hx => by rw [List.mem_singleton.1 hx]; exact ⟨hcall, hnote⟩⟩

/-- an event that is neither -/
theorem onward_silent (s : Service) {e : Event} (hcall : e.isCall = false) (hnote : e.change = none) :
    Onward calls notes s (s.emitted e) :=
  onward_emitted s (fun h => by rw [hcall] at h; cases h) fun h => absurd hnote h

theorem onward_congr {s t u : Service} (h : Onward calls notes s t) (hheap : u.heap = t.heap) (hnext : u.next = t.next)
    (hevents : u.events = t.events) : Onward calls notes s u := by
  obtain ⟨h1, h2, h3⟩ := h
  refine ⟨by rw [hnext]; exact h1, ?_, ?_⟩
  · rw [hheap]
    exact h2
  · rw [hevents]
    exact h3

theorem onward_alloc (s : Service) (b : Block) : Onward calls notes s (s.alloc b) :=
  ⟨Nat.le_succ _, fun p hp => Or.inl (Function.update_of_ne hp.ne _ _), [.malloc true], rfl,
    fun x hx => by rw [List.mem_singleton.1 hx]; simp [Event.isCall, Event.change]⟩

theorem onward_freed (s : Service) (q : ℕ) : Onward calls notes s (s.freed q) := by
  refine ⟨le_rfl, fun p _ => ?_, [.free q], rfl,
    fun x hx => by rw [List.mem_singleton.1 hx]; simp [Event.isCall, Event.change]⟩
  rw [Service.freed_heap, Function.update_apply]
  split_ifs
  · exact Or.inr (Or.inl rfl)
  · exact Or.inl rfl

variable {env : Env}

/-- m is onward, whatever its outcome -/
abbrev Moves (calls notes : Prop) {α : Type} (m : Fs α) : Prop := Relates (Onward calls notes) m

theorem moves_pure {α : Type} (a : α) : Moves calls notes (pure a : Fs α) := relates_pure onward_refl a

theorem moves_bind {α β : Type} {m : Fs α} {g : α → Fs β} (hm : Moves calls notes m) (hg : ∀ a, Moves calls notes (g a)) :
    Moves calls notes (m >>= g) := relates_bind onward_trans hm hg

theorem moves_malloc (b : Block) : Moves calls notes (malloc env b) := by
  intro s
  rw [run_malloc]
  split_ifs
  · exact onward_alloc s b
  · exact onward_silent s rfl rfl

theorem moves_free (p : ℕ) : Moves calls notes (free env p) := by
  intro s
  rw [run_free]
  split
  · exact onward_freed s p
  · exact onward_refl s

theorem moves_load (p : ℕ) : Moves calls notes (load p) := by
  intro s
  rw [run_load]
  split <;> exact onward_refl s

theorem moves_loadFile (p : ℕ) : Moves calls notes (loadFile p) := by
  intro s
  rw [run_loadFile]
  split <;> exact onward_refl s

theorem onward_call (s : Service) (c : Call) (ctx : ℕ) (x : Answer) : Onward True notes s (s.emitted (.call c ctx x)) :=
  onward_emitted s (fun _ => trivial) fun h => absurd rfl h

theorem moves_call (c : Call) : Moves True notes (ccimpCallKeeping env c) := by
  intro s
  rw [run_call]
  exact onward_congr (onward_call s c s.impContext (env.answer s.events.length)) rfl rfl rfl

theorem moves_setCcimpError (a : Answer) (errnum : Option ℕ) : Moves calls notes (setCcimpError env a errnum) := by
  intro s
  rw [run_setCcimpError]
  split_ifs
  · exact onward_alloc s _
  · exact onward_silent s rfl rfl
  · exact onward_refl s

theorem moves_setError (e : ErrorHandle) (errnum : Option ℕ) : Moves calls notes (setError env e errnum) := by
  intro s
  rw [run_setError]
  split_ifs
  · exact onward_alloc s _
  · exact onward_silent s rfl rfl

theorem moves_freeLocalPath (block : Option ℕ) : Moves calls notes (freeLocalPath env block) := by
  intro s
  rw [run_freeLocalPath]
  split
  · exact onward_refl s
  · split
    · exact onward_freed s _
    · exact onward_refl s

theorem moves_getLocalPath (cloud : Str) : Moves calls notes (getLocalPathFromCloudPath env cloud) := by
  intro s
  rw [run_getLocalPath]
  split
  · exact onward_refl s
  · split_ifs
    · exact onward_refl s
    · exact onward_alloc s _
    · exact onward_silent s rfl rfl

theorem moves_askAccess (path : Str) (request : FsRequest) : Moves calls notes (askAccess env path request) := by
  intro s
  rw [run_askAccess, Service.asked]
  split_ifs
  · exact onward_silent s rfl rfl
  · exact onward_refl s

/-! ## The requests -/

theorem moves_onFile {δ : Type} (p : ℕ) (c : FileHandle → Call) (errnum : Option ℕ) (f : Answer → Option ℕ → δ) :
    Moves True notes (do
      let h ← loadFile p
      let a ← ccimpCallKeeping env (c h)
      let n ← setCcimpError env a errnum
      return (a.status, f a n)) :=
  moves_bind (moves_loadFile p) fun h => moves_bind (moves_call (c h)) fun a =>
    moves_bind (moves_setCcimpError a errnum) fun _ => moves_pure _

/-- what comes behind a call on a path -/
theorem moves_tail {δ : Type} (a : Answer) (block : Option ℕ) (errnum : Option ℕ) (f : Option ℕ → CcimpStatus × δ) :
    Moves calls notes (do
      let n ← setCcimpError env a errnum
      freeLocalPath env block
      return f n) :=
  moves_bind (moves_setCcimpError a errnum) fun _ => moves_bind (moves_freeLocalPath block) fun _ => moves_pure _

theorem moves_refused {δ : Type} (e : ErrorHandle) (block : Option ℕ) (errnum : Option ℕ)
    (f : Option ℕ → CcimpStatus × δ) :
    Moves calls notes (do
      let n ← setError env e errnum
      freeLocalPath env block
      return f n) :=
  moves_bind (moves_setError e errnum) fun _ => moves_bind (moves_freeLocalPath block) fun _ => moves_pure _

theorem moves_invalidPath {δ : Type} (e : ErrorHandle) (errnum : Option ℕ) (f : Option ℕ → CcimpStatus × δ) :
    Moves calls notes (do
      let n ← setError env e errnum
      return f n) :=
  moves_bind (moves_setError e errnum) fun _ => moves_pure _

/-- the new record is the only block that is written over -/
theorem moves_newFileHandle (path : Str) (handle : ℤ) (request : FsRequest) (d : OpenData) :
    Moves calls notes (newFileHandle env path handle request d) := by
  intro s
  rw [run_newFileHandle]
  split_ifs
  · refine ⟨by simp; omega, fun p hp => Or.inl ?_, [.malloc true, .malloc true], by simp,
      by simp [Event.isCall, Event.change]⟩
    rw [Service.stored_heap, Function.update_of_ne hp.ne, Service.alloc_heap, Service.alloc_next,
      Function.update_of_ne (by omega), Service.alloc_heap, Function.update_of_ne hp.ne]
  · exact onward_trans _ _ _ (onward_alloc s _) (onward_silent _ rfl rfl)
  · exact onward_silent s rfl rfl

theorem moves_fileOpen (d : OpenData) : Moves True notes (fileOpen env d) := by
  refine moves_bind (moves_getLocalPath d.path) fun l => ?_
  cases l with
  | none => exact moves_invalidPath _ _ _
  | some l =>
    refine moves_bind (moves_askAccess _ _) fun allow => relates_ite ?_ (moves_refused _ _ _ _)
    refine moves_bind (moves_call _) fun a => moves_bind (moves_setCcimpError a _) fun n => relates_ite ?_ ?_
    · exact moves_bind (moves_newFileHandle _ _ _ _) fun _ => moves_bind (moves_freeLocalPath _) fun _ => moves_pure _
    · exact moves_bind (moves_freeLocalPath _) fun _ => moves_pure _

/-- a remove notifies if the platform removes the file -/
theorem moves_fileRemove (d : RemoveData) : Moves True True (fileRemove env d) := by
  refine moves_bind (moves_getLocalPath d.path) fun l => ?_
  cases l with
  | none => exact moves_invalidPath _ _ _
  | some l =>
    refine moves_bind (moves_askAccess _ _) fun allow => relates_ite ?_ (moves_refused _ _ _ _)
    refine moves_bind (moves_call _) fun a => relates_ite ?_ (moves_tail _ _ _ _)
    refine moves_bind ?_ fun _ => moves_tail _ _ _ _
    refine relates_ite (fun s => ?_) (moves_pure _)
    exact onward_emitted s (fun _ => trivial) fun _ => trivial

theorem moves_closeChanged (f : FileHandle) : Moves True True (closeChanged env f) := by
  intro s
  rw [run_closeChanged]
  split_ifs
  · split
    · exact onward_emitted s (fun _ => trivial) fun _ => trivial
    · exact onward_refl s
  · exact onward_refl s

theorem moves_fileClose (d : CloseData) : Moves True True (fileClose env d) := by
  refine moves_bind (moves_loadFile _) fun h => moves_bind (moves_call _) fun a => ?_
  refine moves_bind (moves_closeChanged h) fun _ => moves_bind (moves_setCcimpError a _) fun _ => relates_ite (moves_pure _) ?_
  exact moves_bind (moves_free _) fun _ => moves_bind (moves_free _) fun _ => moves_pure _

theorem moves_dirOpen (d : OpendirData) : Moves True notes (dirOpen env d) := by
  unfold dirOpen
  cases d.userContext with
  | some p => exact moves_pure _
  | none =>
    refine moves_bind (moves_getLocalPath d.path) fun l => ?_
    cases l with
    | none => exact moves_invalidPath _ _ _
    | some l =>
      refine moves_bind (moves_askAccess _ _) fun allow => relates_ite ?_ (moves_refused _ _ _ _)
      exact moves_bind (moves_call _) fun a => moves_tail _ _ _ _

/-- a listing moves on -/
theorem moves_readRootEntry (p bytesAvailable : ℕ) : Moves calls notes (readRootEntry p bytesAvailable) := by
  intro s
  simp only [readRootEntry, wp_bind, run_load]
  split
  · next b hb =>
    split
    · exact onward_refl s
    · next node =>
      rw [wp_bind, wp_get]
      split
      · exact onward_refl s
      · next d next _ =>
        have hstored : Onward calls notes s (s.stored p (.listing next)) := by
          refine ⟨le_rfl, fun q _ => ?_, [], by simp, by simp⟩
          rw [Service.stored_heap, Function.update_apply]
          split_ifs with hqp
          · exact Or.inr (Or.inr ⟨some node, next, hqp ▸ hb, rfl⟩)
          · exact Or.inl rfl
        exact hstored
    · exact onward_refl s
  · exact onward_refl s

theorem moves_dirReadEntry (d : ReaddirData) : Moves True notes (dirReadEntry env d) := by
  unfold dirReadEntry
  cases d.userContext with
  | some p => exact moves_bind (moves_readRootEntry _ _) fun _ => moves_pure _
  | none => exact moves_bind (moves_call _) fun a => moves_bind (moves_setCcimpError a _) fun _ => moves_pure _

theorem moves_dirEntryStatus (d : StatDirEntryData) : Moves True notes (dirEntryStatus env d) := by
  unfold dirEntryStatus
  cases d.userContext with
  | some p => exact moves_pure _
  | none =>
    refine moves_bind (moves_getLocalPath d.path) fun l => ?_
    cases l with
    | none => exact moves_invalidPath _ _ _
    | some l => exact moves_bind (moves_call _) fun a => moves_tail _ _ _ _

theorem moves_dirClose (d : ClosedirData) : Moves True notes (dirClose env d) := by
  unfold dirClose
  cases d.userContext with
  | some p => exact moves_bind (moves_free p) fun _ => moves_pure _
  | none => exact moves_bind (moves_call _) fun a => moves_bind (moves_setCcimpError a _) fun _ => moves_pure _

theorem moves_hashStatus (d : StatData) : Moves True notes (hashStatus env d) := by
  refine moves_bind (relates_get onward_refl) fun s => relates_ite ?_ ?_
  · refine moves_bind (moves_malloc _) fun p => ?_
    cases p <;> exact moves_pure _
  · refine moves_bind (moves_getLocalPath d.path) fun l => ?_
    cases l with
    | none => exact moves_invalidPath _ _ _
    | some l =>
      refine moves_bind (relates_get onward_refl) fun s => ?_
      have hpeek : Moves True notes (ccimpCall env (.dirEntryStatus l.path) s.impContext) := fun t =>
        onward_call t _ _ _
      refine moves_bind hpeek fun a => relates_ite (moves_tail _ _ _ _) ?_
      exact moves_bind (moves_call _) fun b => moves_tail _ _ _ _

theorem moves_hashFile (d : HashData) : Moves True notes (hashFile env d) := by
  refine moves_bind (moves_getLocalPath d.path) fun l => ?_
  cases l with
  | none => exact moves_invalidPath _ _ _
  | some l => exact moves_bind (moves_call _) fun a => moves_tail _ _ _ _

theorem moves_errorDesc (d : GetErrorData) : Moves True notes (errorDesc env d) := by
  refine moves_bind (moves_load _) fun b => ?_
  cases b with
  | error e =>
    cases e with
    | internal e => exact moves_bind (moves_free _) fun _ => moves_pure _
    | ccimp errnum => exact moves_bind (moves_call _) fun a => moves_bind (moves_free _) fun _ => moves_pure _
  | _ => exact relates_throw onward_refl _

/-- a close or a remove may call the callback -/
def Request.notifies : Request → Bool
  | .close _ | .remove _ => true
  | _ => false

theorem moves_serve (r : Request) : Moves True (r.notifies = true) (serve env r) := by
  cases r with
  | «open» d => exact moves_bind (moves_fileOpen d) fun _ => moves_pure _
  | read d => exact moves_bind (moves_onFile d.handle _ _ _) fun _ => moves_pure _
  | write d => exact moves_bind (moves_onFile d.handle _ _ _) fun _ => moves_pure _
  | lseek d => exact moves_bind (moves_onFile d.handle _ _ _) fun _ => moves_pure _
  | ftruncate d => exact moves_bind (moves_onFile d.handle _ _ _) fun _ => moves_pure _
  | opendir d => exact moves_bind (moves_dirOpen d) fun _ => moves_pure _
  | readdir d => exact moves_bind (moves_dirReadEntry d) fun _ => moves_pure _
  | statDirEntry d => exact moves_bind (moves_dirEntryStatus d) fun _ => moves_pure _
  | closedir d => exact moves_bind (moves_dirClose d) fun _ => moves_pure _
  | stat d => exact moves_bind (moves_hashStatus d) fun _ => moves_pure _
  | hash d => exact moves_bind (moves_hashFile d) fun _ => moves_pure _
  | getError d => exact moves_bind (moves_errorDesc d) fun _ => moves_pure _
  | sessionError e => exact moves_bind (moves_bind (moves_call _) fun a => moves_pure _) fun _ => moves_pure _
  | close d =>
    have hloud : ((Request.close d).notifies = true) = True := by simp [Request.notifies]
    rw [hloud]
    exact moves_bind (moves_fileClose d) fun _ => moves_pure _
  | remove d =>
    have hloud : ((Request.remove d).notifies = true) = True := by simp [Request.notifies]
    rw [hloud]
    exact moves_bind (moves_fileRemove d) fun _ => moves_pure _

/-! ## Every operation -/

/-- the same of an operation -/
abbrev Steps (notes : Prop) {α : Type} (m : Locked α) : Prop := Relates (fun s t : St => Onward True notes s.svc t.svc) m

theorem steps_pure {α : Type} (a : α) : Steps notes (pure a : Locked α) := relates_pure (fun s => onward_refl s.svc) a

theorem steps_get : Steps notes (get : Locked St) := relates_get fun s => onward_refl s.svc

theorem steps_bind {α β : Type} {m : Locked α} {g : α → Locked β} (hm : Steps notes m) (hg : ∀ a, Steps notes (g a)) :
    Steps notes (m >>= g) := relates_bind (fun s t u => onward_trans s.svc t.svc u.svc) hm hg

theorem steps_onService {α : Type} {m : Fs α} (hm : Moves True notes m) : Steps notes (onService m) := by
  intro s
  rw [wp_onService]
  exact wp_mono (hm s.svc) (fun _ _ ht => ht) fun _ _ ht => ht

theorem steps_lockAcquire : Steps notes (lockAcquire env) := by
  intro s
  refine wp_lockAcquire_cases (onward_refl _) (fun t ht => ?_) fun st _ t ht => ?_
  · change Onward True notes s.svc t.svc
    rw [ht]
    exact onward_silent _ rfl rfl
  · change Onward True notes s.svc t.svc
    rw [ht]
    exact onward_silent _ rfl rfl

theorem steps_lockRelease : Steps notes (lockRelease env) := by
  intro s
  rw [run_lockRelease]
  exact onward_silent _ rfl rfl

theorem moves_callUntilDone (c : Call) (fuel ctx : ℕ) : Moves True notes (callUntilDone env c fuel ctx) := by
  induction fuel generalizing ctx with
  | zero => exact relates_throw onward_refl _
  | succ fuel ih =>
    have hcall : Moves True notes (ccimpCall env c ctx) := fun t => onward_call t _ _ _
    refine moves_bind hcall fun a => relates_ite (ih _) ?_
    refine moves_bind (relates_modify fun s => ?_) fun _ => moves_pure a
    exact onward_congr (onward_refl s) rfl rfl rfl

theorem steps_lockedCall (c : Call) : Steps notes (lockedCall env c) := by
  refine steps_bind steps_lockAcquire fun acquired => relates_ite ?_ (steps_pure _)
  refine steps_bind (steps_onService (moves_bind (relates_get onward_refl) fun s => moves_callUntilDone c _ _)) fun a => ?_
  refine steps_bind (relates_ite ?_ (steps_pure _)) fun _ => steps_pure _
  exact steps_bind steps_lockRelease fun _ => steps_pure _

theorem moves_createVirtualDirEntry (v l : Str) : Moves True notes (createVirtualDirEntry env v l) := by
  refine moves_bind (moves_malloc _) fun node => ?_
  cases node with
  | none => exact moves_pure _
  | some node =>
    refine moves_bind (moves_malloc _) fun p => ?_
    cases p with
    | none => exact moves_bind (moves_free _) fun _ => moves_pure _
    | some p =>
      refine moves_bind (moves_malloc _) fun q => ?_
      cases q with
      | none => exact moves_bind (moves_free _) fun _ => moves_bind (moves_free _) fun _ => moves_pure _
      | some q => exact moves_pure _

theorem moves_dirs (f : List VirtualDir → List VirtualDir) :
    Moves True notes (modify fun s : Service => { s with virtualDirList := f s.virtualDirList }) :=
  relates_modify fun s => onward_congr (onward_refl s) rfl rfl rfl

theorem steps_addVirtualDir (stopped : Bool) (v l : Option Str) : Steps notes (addVirtualDir env stopped v l) := by
  refine steps_bind steps_get fun s => ?_
  refine relates_ite (steps_pure _) (relates_ite (steps_pure _) (relates_ite (steps_pure _) (relates_ite (steps_pure _) ?_)))
  refine steps_bind (steps_bind (steps_bind (steps_lockedCall _) fun _ => steps_pure _) fun _ => steps_pure _) fun isADir => ?_
  refine relates_ite (steps_bind (steps_onService (moves_createVirtualDirEntry _ _)) fun d => ?_) (steps_pure _)
  cases d with
  | none => exact steps_pure _
  | some d =>
    refine steps_bind steps_lockAcquire fun acquired => relates_ite ?_ (steps_pure _)
    exact steps_bind (steps_onService (moves_dirs fun l => d :: l)) fun _ => steps_bind steps_lockRelease fun _ => steps_pure _

theorem steps_removeVirtualDir (stopped : Bool) (v : Option Str) : Steps notes (removeVirtualDir env stopped v) := by
  refine relates_ite (steps_pure _) (relates_ite (steps_pure _) ?_)
  cases v with
  | none => exact steps_pure _
  | some v =>
    refine relates_ite (steps_pure _) (steps_bind steps_lockAcquire fun acquired => relates_ite ?_ (steps_pure _))
    have hunlink : Moves True notes (unlinkDir v) := moves_bind (relates_get onward_refl) fun s =>
      moves_bind (moves_dirs fun l => l.eraseP (·.isNamed v v.length)) fun _ => moves_pure _
    refine steps_bind (steps_onService hunlink) fun d => steps_bind steps_lockRelease fun released => ?_
    cases d with
    | none => exact steps_pure _
    | some d =>
      refine steps_bind (steps_onService ?_) fun _ => steps_pure _
      exact moves_bind (moves_free _) fun _ => moves_bind (moves_free _) fun _ => moves_bind (moves_free _) fun _ => moves_pure _

theorem steps_filesystemHandler (r : Request) : Steps (r.notifies = true) (filesystemHandler env r) := by
  refine steps_bind steps_lockAcquire fun acquired => relates_ite ?_ (steps_pure _)
  exact steps_bind (steps_onService (moves_serve r)) fun x => steps_bind steps_lockRelease fun _ => steps_pure _

/-- the operations that may call the callback -/
def Op.notifies : Op → Bool
  | .handler r => r.notifies
  | _ => false

theorem steps_exec (o : Op) : Steps (o.notifies = true) (o.exec env) := by
  cases o with
  | openFile p f => exact steps_bind (steps_bind (steps_lockedCall _) fun _ => steps_pure _) fun _ => steps_pure _
  | readFile h n => exact steps_bind (steps_bind (steps_lockedCall _) fun _ => steps_pure _) fun _ => steps_pure _
  | closeFile h => exact steps_bind (steps_bind (steps_lockedCall _) fun _ => steps_pure _) fun _ => steps_pure _
  | getDirEntryStatus p => exact steps_bind (steps_bind (steps_lockedCall _) fun _ => steps_pure _) fun _ => steps_pure _
  | addVirtualDir stopped v l => exact steps_bind (steps_addVirtualDir _ _ _) fun _ => steps_pure _
  | removeVirtualDir stopped v => exact steps_bind (steps_removeVirtualDir _ _) fun _ => steps_pure _
  | handler r => exact steps_bind (steps_filesystemHandler r) fun _ => steps_pure _

/-- **What a step does to old blocks.** -/
theorem step_onward (x : Run) (o : Op) : Onward True (o.notifies = true) x.st.svc (x.step env o).st.svc := by
  cases hx : x.stuck with
  | some e =>
    have hstep : x.step env o = x := by simp [Run.step, hx]
    rw [hstep]
    exact onward_refl _
  | none => exact Run.step_of_wp (P := fun y => Onward True (o.notifies = true) x.st.svc y.st.svc) hx (steps_exec o x.st)

end

/-! ## A close -/

/-- what the closing of a file is to notify -/
def expected (f : FileHandle) (path : Str) : List (Str × Changed) := if f.request.writes then [(path, .modified)] else []

/-- a record of an opened file, and the copy of its path, unless that was freed -/
structure Live (s : Service) (p : ℕ) (f : FileHandle) (path : Str) : Prop where
  tidy : Tidy s
  file : s.heap p = some (.file f)
  path : s.heap f.filePath = some (.path path) ∨ s.heap f.filePath = none

/-- a close that returns has notified, and freed the record unless it was answered busy -/
structure Closing (env : Env) (s : Service) (p : ℕ) (f : FileHandle) (path : Str) (t : Service) : Prop where
  onward : Onward True True s t
  notes : (since s t).filterMap (·.change) = expected f path
  calls : (since s t).filter (·.isCall) = [.call (.fileClose f.ccimpHandle) s.impContext (env.answer s.events.length)]
  busy : (env.answer s.events.length).status = .busy → t.heap = s.heap
  done : (env.answer s.events.length).status ≠ .busy → t.heap p = none

section
variable {env : Env}

/-- nothing is asked or notified -/
theorem silent_of_onward {s t : Service} (h : Onward False False s t) :
    ∃ es, t.events = s.events ++ es ∧ es.filterMap (·.change) = [] ∧ es.filter (·.isCall) = [] := by
  obtain ⟨es, hes, hsilent⟩ := h.events
  refine ⟨es, hes, List.filterMap_eq_nil_iff.2 fun e he => ?_, List.filter_eq_nil_iff.2 fun e he => (hsilent e he).1⟩
  by_contra hnot
  exact (hsilent e he).2 hnot

/-- what stands behind the call of a close and its notification -/
theorem wp_closing {s t : Service} {d : CloseData} {f : FileHandle} {path : Str} (note : List Event)
    (hevents : t.events = (s.called env (.fileClose f.ccimpHandle)).events ++ note) (hst : Onward True True s t)
    (hheap : t.heap = s.heap) (hnote : note.filterMap (·.change) = expected f path) (hcalls : note.filter (·.isCall) = []) :
    wp (do
      let errnum ← setCcimpError env (env.answer s.events.length) d.errnum
      if (env.answer s.events.length).status = .busy then
        return ((env.answer s.events.length).status, { d with errnum := errnum })
      else
        let _ ← free env f.filePath
        let _ ← free env d.handle
        return ((env.answer s.events.length).status, { d with errnum := errnum }))
      (fun _ u => Closing env s d.handle f path u) (fun _ u => (since s u).filterMap (·.change) = expected f path) t := by
  -- whatever comes now is silent
  have hend {u : Service} (hu : Onward False False t u) :
      (since s u).filterMap (·.change) = expected f path ∧
        (since s u).filter (·.isCall) = [.call (.fileClose f.ccimpHandle) s.impContext (env.answer s.events.length)] := by
    obtain ⟨es, hes, hchange, hcall⟩ := silent_of_onward hu
    have hsince : since s u = [.call (.fileClose f.ccimpHandle) s.impContext (env.answer s.events.length)] ++ (note ++ es) := by
      refine since_eq ?_
      rw [hes, hevents, Service.called_events]
      simp
    rw [hsince]
    refine ⟨?_, ?_⟩
    · rw [List.filterMap_append, List.filterMap_append, hnote, hchange, List.append_nil]
      rfl
    · rw [List.filter_append, List.filter_append, hcalls, hcall]
      rfl
  have honward {u : Service} (hu : Onward False False t u) : Onward True True s u :=
    onward_trans _ _ _ hst ⟨hu.next, hu.heap, hu.events.imp fun es hes => ⟨hes.1, fun e he => ⟨fun _ => trivial, fun _ => trivial⟩⟩⟩
  by_cases hbusy : (env.answer s.events.length).status = .busy
  · have herr : ¬ (env.answer s.events.length).status = .error := by simp [hbusy]
    rw [setCcimpError, if_neg herr, wp_bind, wp_pure, if_pos hbusy, wp_pure]
    obtain ⟨hchange, hcall⟩ := hend (onward_refl t)
    exact ⟨hst, hchange, hcall, fun _ => hheap, fun hnot => absurd hbusy hnot⟩
  · rw [wp_bind]
    refine wp_mono (moves_setCcimpError _ _ t) (fun n u hu => ?_) fun _ u hu => (hend hu).1
    rw [if_neg hbusy, wp_bind, run_free]
    split
    · have hfreed := onward_trans _ _ _ hu (onward_freed u f.filePath)
      rw [wp_bind, run_free]
      split
      · have hdone := onward_trans _ _ _ hfreed (onward_freed (u.freed f.filePath) d.handle)
        obtain ⟨hchange, hcall⟩ := hend hdone
        exact ⟨honward hdone, hchange, hcall, fun h => absurd h hbusy, fun _ => by simp⟩
      · exact (hend hfreed).1
    · exact (hend hu).1

/-- a close of a live handle -/
theorem wp_fileClose_notes (henv : env.hasChanged = true) {s : Service} {d : CloseData} {f : FileHandle} {path : Str}
    (h : Live s d.handle f path) :
    wp (fileClose env d) (fun _ t => Closing env s d.handle f path t)
      (fun _ t => f.request.writes = false → (since s t).filterMap (·.change) = []) s := by
  have hguard : (env.hasChanged && (f.request = .write || f.request = .readWrite)) = f.request.writes := by
    rw [henv]
    rfl
  have hcalled : Onward True True s (s.called env (.fileClose f.ccimpHandle)) :=
    onward_congr (onward_call s _ s.impContext (env.answer s.events.length)) rfl rfl rfl
  rw [fileClose, wp_bind, run_loadFile, h.file]
  dsimp only
  rw [wp_bind, run_call, wp_bind, run_closeChanged, hguard]
  cases hw : f.request.writes with
  | false =>
    have hnone : expected f path = [] := by simp [expected, hw]
    refine wp_mono (wp_closing [] (by simp) hcalled rfl hnone.symm rfl) (fun _ _ hu => hu) fun _ u hu _ => ?_
    rw [hu, hnone]
  | true =>
    rw [if_pos rfl, Service.called_heap]
    rcases h.path with hpath | hpath
    · rw [hpath]
      have hnotified := onward_trans _ _ _ hcalled (onward_emitted (e := .changed path .modified)
        (s.called env (.fileClose f.ccimpHandle)) (fun _ => trivial) fun _ => trivial)
      refine wp_mono (wp_closing [.changed path .modified] rfl hnotified rfl ?_ rfl) (fun _ _ hu => hu)
        fun _ _ _ hnot => ?_
      · simp [expected, hw, Event.change]
      · cases hnot
    · rw [hpath]
      intro hnot
      cases hnot

/-- a step of a request: the lock is refused or not to be had, or the request is served -/
theorem step_handler_cases {x : Run} {r : Request} {P : Run → Prop} (hx : x.stuck = none)
    (hrefused : env.acquire x.st.svc.events.length ≠ .ok → ∀ y : Run, y.stuck = none →
      y.st.svc = x.st.svc.emitted (.acquire (env.acquire x.st.svc.events.length)) →
      y.results = x.results ++ [.handler (callbackStatus (env.acquire x.st.svc.events.length), r)] → P y)
    (hblocked : x.st.lock = 0 → ∀ y : Run, y.stuck ≠ none → y.st.svc = x.st.svc → y.results = x.results → P y)
    (hserved : env.acquire x.st.svc.events.length = .ok → x.st.lock ≠ 0 →
      wp (serve env r)
        (fun z u => ∀ y : Run, y.stuck = none → y.st.svc = u.emitted (.release (env.release u.events.length)) →
          y.results = x.results ++ [.handler (callbackStatus
            (if env.release u.events.length = .ok then z.1 else env.release u.events.length), z.2)] → P y)
        (fun _ u => ∀ y : Run, y.stuck ≠ none → y.st.svc = u → y.results = x.results → P y)
        (x.st.svc.emitted (.acquire .ok))) : P (x.step env (.handler r)) := by
  refine Run.step_of_wp hx ?_
  simp only [Op.exec, filesystemHandler, lockAcquire, wp_bind, wp_get, wp_ite, wp_pure]
  by_cases hok : env.acquire x.st.svc.events.length = .ok
  · rw [if_pos hok]
    by_cases hlock : x.st.lock = 0
    · rw [if_pos hlock]
      exact hblocked hlock _ (by simp) rfl rfl
    · simp only [if_neg hlock, hok, if_true, wp_onService, run_emit, wp_modify]
      refine wp_mono (hserved hok hlock) (fun z u hz => ?_) fun _ u hu => hu _ (by simp) rfl rfl
      rw [run_lockRelease]
      exact hz _ hx rfl rfl
  · simp only [if_neg hok, wp_onService, run_emit]
    exact hrefused hok _ hx rfl rfl

end

/-! ## The closing of a handle -/

/-- what a step notified -/
def notified (env : Env) (y : Run × Op) : List (Str × Changed) :=
  (since y.1.st.svc (y.1.step env y.2).st.svc).filterMap (·.change)

/-- the operation is a close of handle p -/
def Op.closes (p : ℕ) : Op → Bool
  | .handler (.close d) => d.handle = p
  | _ => false

/-- a served close of handle p whose call, the second question of the request, is answered busy -/
def BusyClose (env : Env) (p : ℕ) (y : Run × Op) : Prop :=
  y.2.closes p = true ∧ y.1.stuck = none ∧ env.acquire y.1.st.svc.events.length = .ok ∧ y.1.st.lock ≠ 0 ∧
    (∃ f, y.1.st.svc.heap p = some (.file f)) ∧ (env.answer (y.1.st.svc.events.length + 1)).status = .busy

/-- a close of handle p that the platform answers OK or with an error -/
def EndsClose (env : Env) (p : ℕ) (y : Run × Op) : Prop :=
  y.2.closes p = true ∧ (y.1.step env y.2).stuck = none ∧
    ∃ h ctx a, .call (.fileClose h) ctx a ∈ since y.1.st.svc (y.1.step env y.2).st.svc ∧ a.status ≠ .busy

/-- what the closes of handle p notified -/
def closeNotes (env : Env) (p : ℕ) (tr : List (Run × Op)) : List (Str × Changed) :=
  (tr.filter (·.2.closes p)).flatMap (notified env)

/-- the closing of handle p comes to its end -/
def Finished (env : Env) (p : ℕ) (tr : List (Run × Op)) : Prop := ∃ y ∈ tr, EndsClose env p y

/-- what the closing of a file notifies: nothing, or once if no close is answered busy -/
structure CloseNotes (env : Env) (p : ℕ) (f : FileHandle) (path : Str) (tr : List (Run × Op)) : Prop where
  reads : f.request.writes = false → closeNotes env p tr = []
  told : f.request.writes = true → Finished env p tr → closeNotes env p tr ≠ []
  once : f.request.writes = true → Finished env p tr →
    (closeNotes env p tr = [(path, .modified)] ↔ ∀ y ∈ tr, ¬ BusyClose env p y)

/-- nothing more comes of handle p: its record is freed, or the run is stuck -/
def Over (p : ℕ) (x : Run) : Prop := x.stuck ≠ none ∨ (p < x.st.svc.next ∧ x.st.svc.heap p = none)

/-- what a close of a live handle comes to -/
inductive CloseStep (env : Env) (p : ℕ) (f : FileHandle) (path : Str) (y : Run × Op) : Prop where
  | kept (notes : notified env y = []) (ends : ¬ EndsClose env p y) (busy : ¬ BusyClose env p y)
      (live : Live (y.1.step env y.2).st.svc p f path)
  | again (notes : notified env y = expected f path) (ends : ¬ EndsClose env p y) (busy : BusyClose env p y)
      (live : Live (y.1.step env y.2).st.svc p f path)
  | ended (notes : notified env y = expected f path) (ends : EndsClose env p y) (busy : ¬ BusyClose env p y)
      (gone : Over p (y.1.step env y.2))
  | stuck (stuck : (y.1.step env y.2).stuck ≠ none) (notes : f.request.writes = false → notified env y = [])

section
variable {env : Env} {p : ℕ} {f : FileHandle} {path : Str}

theorem notified_of_onward {y : Run × Op} (h : Onward True False y.1.st.svc (y.1.step env y.2).st.svc) :
    notified env y = [] := by
  obtain ⟨es, hes, hquiet⟩ := h.events
  rw [notified, since_eq hes, List.filterMap_eq_nil_iff]
  intro e he
  by_contra hnot
  exact (hquiet e he).2 hnot

/-- an old record stays a live one or is freed -/
theorem Live.onward {s t : Service} {calls notes : Prop} (h : Live s p f path) (ht : Tidy t) (hst : Onward calls notes s t) :
    Live t p f path ∨ (p < t.next ∧ t.heap p = none) := by
  have hp := h.tidy.lt h.file
  rcases hst.heap p hp with heq | hnone | ⟨n, n', hlist, -⟩
  · refine Or.inl ⟨ht, heq.trans h.file, ?_⟩
    rcases hst.heap f.filePath (h.tidy.named p f h.file) with heq' | hnone' | ⟨n, n', hlist, -⟩
    · rw [heq']
      exact h.path
    · exact Or.inr hnone'
    · rcases h.path with hpath | hpath
      · rw [hlist] at hpath
        cases hpath
      · exact Or.inr (by rw [hlist] at hpath; cases hpath)
  · exact Or.inr ⟨hp.trans_le hst.next, hnone⟩
  · rw [h.file] at hlist
    cases hlist

theorem Live.congr {s t : Service} (h : Live s p f path) (ht : Tidy t) (hheap : t.heap = s.heap) : Live t p f path :=
  ⟨ht, by rw [hheap]; exact h.file, by rw [hheap]; exact h.path⟩

theorem Op.of_closes {o : Op} (ho : o.closes p = true) : ∃ d : CloseData, o = .handler (.close d) ∧ d.handle = p := by
  unfold Op.closes at ho
  split at ho
  · next d => exact ⟨d, rfl, of_decide_eq_true ho⟩
  · cases ho

/-- a close that does not get the lock -/
theorem close_refused {x : Run} {o : Op} {st : CcimpStatus} (h : (x.step env o).st.svc = x.st.svc.emitted (.acquire st)) :
    notified env (x, o) = [] ∧ ¬ EndsClose env p (x, o) := by
  have hsince : since x.st.svc (x.step env o).st.svc = [.acquire st] := by
    rw [h]
    exact since_eq rfl
  refine ⟨by simp [notified, hsince, Event.change], ?_⟩
  rintro ⟨-, -, c, ctx, a, hmem, -⟩
  simp [hsince] at hmem

/-- **A close of a live handle.** -/
theorem step_close (henv : env.hasChanged = true) {x : Run} {o : Op} (hx : x.stuck = none) (ho : o.closes p = true)
    (h : Live x.st.svc p f path) : CloseStep env p f path (x, o) := by
  have htidy : Tidy (x.step env o).st.svc := tidy_step x o h.tidy
  obtain ⟨d, rfl, rfl⟩ := Op.of_closes ho
  refine step_handler_cases (P := fun y => y = x.step env (.handler (.close d)) →
    CloseStep env d.handle f path (x, .handler (.close d))) hx ?_ ?_ ?_ rfl
  · intro hrefused y hstuck hsvc hresults hy
    rw [← hy, hsvc] at htidy
    obtain ⟨hnotes, hends⟩ := close_refused (p := d.handle) (hy ▸ hsvc)
    refine .kept hnotes hends (fun hbusy => hrefused hbusy.2.2.1) ?_
    rw [← hy, hsvc]
    exact h.congr htidy rfl
  · intro hlock y hstuck hsvc hresults hy
    refine .stuck (hy ▸ hstuck) fun _ => ?_
    rw [notified, ← hy, hsvc, since_eq (l := []) (by simp)]
    rfl
  · intro hok hlock
    have hacquired : Live (x.st.svc.emitted (.acquire .ok)) d.handle f path := h.congr (h.tidy.emitted _) rfl
    have hlen : (x.st.svc.emitted (.acquire .ok)).events.length = x.st.svc.events.length + 1 := by simp
    rw [serve, wp_bind]
    refine wp_mono (wp_and (wp_fileClose_notes henv hacquired) (moves_fileClose d _)) (fun z u hu => ?_)
      fun _ u hu y hstuck hsvc hresults hy => ?_
    · replace hu := hu.1
      intro y hstuck hsvc hresults hy
      rw [← hy, hsvc] at htidy
      have hprefix : (x.st.svc.emitted (.acquire .ok)).events <+: u.events := hu.onward.events.imp fun es hes => hes.1.symm
      have hsince : since x.st.svc (x.step env (.handler (.close d))).st.svc =
          .acquire .ok :: since (x.st.svc.emitted (.acquire .ok)) u ++ [.release (env.release u.events.length)] := by
        rw [← hy, hsvc]
        exact since_locked hprefix
      have hnotes : notified env (x, .handler (.close d)) = expected f path := by
        rw [notified, hsince, List.filterMap_append, List.filterMap_cons_none rfl, hu.notes]
        simp [Event.change]
      have hcalls {c : ℤ} {ctx : ℕ} {a : Answer} :
          .call (.fileClose c) ctx a ∈ since x.st.svc (x.step env (.handler (.close d))).st.svc ↔
            c = f.ccimpHandle ∧ ctx = x.st.svc.impContext ∧ a = env.answer (x.st.svc.events.length + 1) := by
        have hmem : .call (.fileClose c) ctx a ∈ (since (x.st.svc.emitted (.acquire .ok)) u).filter (·.isCall) ↔
            .call (.fileClose c) ctx a ∈ since x.st.svc (x.step env (.handler (.close d))).st.svc := by
          simp [hsince, Event.isCall]
        rw [← hmem, hu.calls, hlen]
        simp
      by_cases hbusy : (env.answer (x.st.svc.events.length + 1)).status = .busy
      · refine .again hnotes ?_ ⟨by simp [Op.closes], hx, hok, hlock, ⟨f, h.file⟩, hbusy⟩ ?_
        · rintro ⟨-, -, c, ctx, a, hmem, hnot⟩
          rw [(hcalls.1 hmem).2.2] at hnot
          exact hnot hbusy
        · rw [← hy, hsvc]
          exact hacquired.congr htidy (hu.busy (by rw [hlen]; exact hbusy))
      · refine .ended hnotes ⟨by simp [Op.closes], hy ▸ hstuck, f.ccimpHandle, x.st.svc.impContext, _, hcalls.2 ⟨rfl, rfl, rfl⟩,
          hbusy⟩ (fun h => hbusy h.2.2.2.2.2) (Or.inr ?_)
        rw [← hy, hsvc]
        exact ⟨(hacquired.tidy.lt hacquired.file).trans_le hu.onward.next, hu.done (by rw [hlen]; exact hbusy)⟩
    · obtain ⟨es, hes, -⟩ := hu.2.events
      refine .stuck (hy ▸ hstuck) fun hreads => ?_
      have hsince : since x.st.svc u = .acquire .ok :: es := since_eq (by rw [hes]; simp)
      have hnotes := hu.1 hreads
      rw [since_eq hes] at hnotes
      rw [notified, ← hy, hsvc, hsince, List.filterMap_cons_none rfl, hnotes]

/-- nothing more comes of handle p -/
theorem over_step {x : Run} {o : Op} (h : Over p x) :
    Over p (x.step env o) ∧ ¬ EndsClose env p (x, o) ∧ ¬ BusyClose env p (x, o) ∧
      (o.closes p = true → notified env (x, o) = []) := by
  cases hx : x.stuck with
  | some e =>
    have hstep : x.step env o = x := by simp [Run.step, hx]
    refine ⟨by rw [hstep]; exact h, fun hends => ?_, fun hbusy => ?_, fun _ => ?_⟩
    · have hnone := hends.2.1
      rw [hstep, hx] at hnone
      cases hnone
    · have hnone := hbusy.2.1
      rw [hx] at hnone
      cases hnone
    · rw [notified, hstep, since_eq (l := []) (by simp)]
      rfl
  | none =>
    obtain ⟨hlt, hnone⟩ := h.resolve_left (by simp [hx])
    have hover : Over p (x.step env o) := by
      have honward : Onward True _ x.st.svc (x.step env o).st.svc := step_onward x o
      refine Or.inr ⟨hlt.trans_le honward.next, ?_⟩
      rcases honward.heap p hlt with heq | hgone | ⟨n, n', hlist, -⟩
      · rw [heq, hnone]
      · exact hgone
      · rw [hnone] at hlist
        cases hlist
    have hclose : o.closes p = true → notified env (x, o) = [] ∧ ¬ EndsClose env p (x, o) := by
      intro ho
      obtain ⟨d, rfl, rfl⟩ := Op.of_closes ho
      -- a step that does not return and leaves the service as it was, or behind the lock
      have hstuck {y : Run} (hy : y = x.step env (.handler (.close d))) (hfault : y.stuck ≠ none)
          (hsince : (since x.st.svc y.st.svc).filterMap (·.change) = []) :
          notified env (x, .handler (.close d)) = [] ∧ ¬ EndsClose env d.handle (x, .handler (.close d)) :=
        ⟨by rw [notified, ← hy]; exact hsince, fun hends => hfault (by rw [hy]; exact hends.2.1)⟩
      refine step_handler_cases (P := fun y => y = x.step env (.handler (.close d)) →
        notified env (x, .handler (.close d)) = [] ∧ ¬ EndsClose env d.handle (x, .handler (.close d))) hx ?_ ?_ ?_ rfl
      · exact fun _ y _ hsvc _ hy => close_refused (hy ▸ hsvc)
      · refine fun _ y hfault hsvc _ hy => hstuck hy hfault ?_
        rw [hsvc, since_eq (l := []) (by simp)]
        rfl
      · intro _ _
        rw [serve, wp_bind, fileClose, wp_bind, run_loadFile]
        simp only [Service.emitted_heap, hnone]
        refine fun y hfault hsvc _ hy => hstuck hy hfault ?_
        rw [hsvc, since_eq (l := [.acquire .ok]) rfl]
        rfl
    refine ⟨hover, fun hends => (hclose hends.1).2 hends, ?_, fun ho => (hclose ho).1⟩
    rintro ⟨-, -, -, -, ⟨f, hf⟩, -⟩
    rw [hnone] at hf
    cases hf

theorem closeNotes_cons (y : Run × Op) (tr : List (Run × Op)) :
    closeNotes env p (y :: tr) = (if y.2.closes p then notified env y else []) ++ closeNotes env p tr := by
  unfold closeNotes
  cases hy : y.2.closes p <;> simp [hy]

/-- a run behind the end of a handle -/
theorem over_run {x : Run} (h : Over p x) (ops : List Op) :
    closeNotes env p (steps (Run.step env) x ops) = [] ∧
      ∀ y ∈ steps (Run.step env) x ops, ¬ EndsClose env p y ∧ ¬ BusyClose env p y := by
  induction ops generalizing x with
  | nil => exact ⟨rfl, by simp⟩
  | cons o ops ih =>
    obtain ⟨hover, hends, hbusy, hnotes⟩ := @over_step env p x o h
    obtain ⟨hrest, hall⟩ := ih hover
    rw [steps_cons, closeNotes_cons, hrest, List.append_nil]
    refine ⟨?_, fun y hy => ?_⟩
    · split_ifs with ho
      · exact hnotes ho
      · rfl
    · rcases List.mem_cons.1 hy with rfl | hy
      · exact ⟨hends, hbusy⟩
      · exact hall y hy

theorem closeNotes_over {x : Run} (h : Over p x) (ops : List Op) :
    CloseNotes env p f path (steps (Run.step env) x ops) := by
  obtain ⟨hnil, hall⟩ := @over_run env p x h ops
  have hunfinished : ¬ Finished env p (steps (Run.step env) x ops) := fun ⟨y, hy, hends⟩ => (hall y hy).1 hends
  exact ⟨fun _ => hnil, fun _ hends => absurd hends hunfinished, fun _ hends => absurd hends hunfinished⟩

/-- a step before that neither notifies nor ends the closing -/
theorem CloseNotes.cons {y : Run × Op} {tr : List (Run × Op)} (h : CloseNotes env p f path tr)
    (hnotes : (if y.2.closes p then notified env y else []) = []) (hends : ¬ EndsClose env p y)
    (hbusy : ¬ BusyClose env p y) : CloseNotes env p f path (y :: tr) := by
  have hfinished : Finished env p (y :: tr) ↔ Finished env p tr := by simp [Finished, hends]
  have hcons : closeNotes env p (y :: tr) = closeNotes env p tr := by rw [closeNotes_cons, hnotes, List.nil_append]
  refine ⟨?_, ?_, ?_⟩
  · rw [hcons]
    exact h.reads
  · rw [hcons, hfinished]
    exact h.told
  · rw [hcons, hfinished, List.forall_mem_cons, and_iff_right hbusy]
    exact h.once

/-- the steps that do not close a handle leave it open, or end it -/
theorem live_step {x : Run} {o : Op} (h : Live x.st.svc p f path) :
    Over p (x.step env o) ∨ ((x.step env o).stuck = none ∧ Live (x.step env o).st.svc p f path) := by
  by_cases hstuck : (x.step env o).stuck = none
  · rcases h.onward (tidy_step x o h.tidy) (@step_onward env x o) with hlive | hgone
    · exact Or.inr ⟨hstuck, hlive⟩
    · exact Or.inl (Or.inr hgone)
  · exact Or.inl (Or.inl hstuck)

/-- **The closing of a handle.** A file that was opened to be read notifies nothing; one that was opened to be written does,
once if no close is answered busy, as soon as its closing ends. -/
theorem live_run (henv : env.hasChanged = true) {x : Run} (hx : x.stuck = none) (h : Live x.st.svc p f path) (ops : List Op) :
    CloseNotes env p f path (steps (Run.step env) x ops) := by
  induction ops generalizing x with
  | nil =>
    have hunfinished : ¬ Finished env p (steps (Run.step env) x []) := by simp [Finished]
    exact ⟨fun _ => rfl, fun _ hends => absurd hends hunfinished, fun _ hends => absurd hends hunfinished⟩
  | cons o ops ih =>
    have hrest : CloseNotes env p f path (steps (Run.step env) (x.step env o) ops) := by
      rcases live_step h with hover | ⟨hstuck, hlive⟩
      · exact closeNotes_over hover ops
      · exact ih hstuck hlive
    rw [steps_cons]
    cases ho : o.closes p with
    | false =>
      exact hrest.cons (by simp [ho]) (fun hends => by simp [EndsClose, ho] at hends) fun hbusy => by
        simp [BusyClose, ho] at hbusy
    | true =>
      have hcons : closeNotes env p ((x, o) :: steps (Run.step env) (x.step env o) ops) =
          notified env (x, o) ++ closeNotes env p (steps (Run.step env) (x.step env o) ops) := by
        rw [closeNotes_cons, if_pos ho]
      rcases step_close henv hx ho h with ⟨hnotes, hends, hbusy, hlive⟩ | ⟨hnotes, hends, hbusy, hlive⟩ |
        ⟨hnotes, hends, hbusy, hgone⟩ | ⟨hstuck, hnotes⟩
      · exact hrest.cons (by rw [hnotes, ite_self]) hends hbusy
      · -- a busy close is repeated, and its closing ends behind it
        have hfinished (hend : Finished env p ((x, o) :: steps (Run.step env) (x.step env o) ops)) :
            Finished env p (steps (Run.step env) (x.step env o) ops) := by
          simpa [Finished, hends] using hend
        refine ⟨fun hw => ?_, fun hw _ => ?_, fun hw hend => iff_of_false (fun hone => ?_) fun hall => ?_⟩
        · rw [hcons, hnotes, hrest.reads hw]
          simp [expected, hw]
        · simp [hcons, hnotes, expected, hw]
        · rw [hcons, hnotes, expected, if_pos hw] at hone
          exact hrest.told hw (hfinished hend) (by simpa using hone)
        · exact hall _ List.mem_cons_self hbusy
      · obtain ⟨hnil, hall⟩ := @over_run env p _ hgone ops
        rw [hnil, List.append_nil] at hcons
        refine ⟨fun hw => ?_, fun hw _ => ?_, fun hw _ => iff_of_true ?_ ?_⟩
        · simp [hcons, hnotes, expected, hw]
        · simp [hcons, hnotes, expected, hw]
        · simp [hcons, hnotes, expected, hw]
        · exact List.forall_mem_cons.2 ⟨hbusy, fun y hy => (hall y hy).2⟩
      · obtain ⟨hnil, hall⟩ := @over_run env p _ (Or.inl hstuck) ops
        have hunfinished : ¬ Finished env p ((x, o) :: steps (Run.step env) (x.step env o) ops) := by
          rintro ⟨y, hy, hends⟩
          rcases List.mem_cons.1 hy with rfl | hy
          · exact hstuck hends.2.1
          · exact (hall y hy).1 hends
        refine ⟨fun hw => ?_, fun _ hend => absurd hend hunfinished, fun _ hend => absurd hend hunfinished⟩
        rw [hcons, hnil, hnotes hw, List.append_nil]

end

/-! ## A remove -/

/-- from s to t the platform removed the files of l, and the user was told of them -/
def Tells (s t : Service) (l : List (Str × Changed)) : Prop :=
  ∃ es, t.events = s.events ++ es ∧ es.filterMap (·.change) = l ∧ es.filterMap (·.removes) = l

/-- what a served remove tells: of the one file, when the platform's answer is OK -/
structure Removed (s : Service) (d : RemoveData) (st : CcimpStatus) (t : Service) (l : List (Str × Changed)) : Prop where
  told : Tells s t l
  once : l.length ≤ 1
  ok : st = .ok → ∃ path, localPath s.virtualDirList d.path = some path ∧ l = [(path, .removed)]

/-- what one remove request tells -/
structure RemoveTold (env : Env) (x : Run) (d : RemoveData) : Prop where
  notes : notified env (x, .handler (.remove d)) =
    (since x.st.svc (x.step env (.handler (.remove d))).st.svc).filterMap (·.removes)
  once : (notified env (x, .handler (.remove d))).length ≤ 1
  ok : ∀ r, (x.step env (.handler (.remove d))).results = x.results ++ [.handler (.cont, r)] →
    ∃ path, localPath x.st.svc.virtualDirList d.path = some path ∧
      notified env (x, .handler (.remove d)) = [(path, .removed)]

section
variable {env : Env} {s t u : Service} {l : List (Str × Changed)}

theorem Event.removes_of_not_call {e : Event} (h : e.isCall = false) : e.removes = none := by
  cases e with
  | call c ctx a => cases h
  | _ => rfl

theorem told_refl (s : Service) : Tells s s [] := ⟨[], by simp⟩

theorem Tells.silent (h : Tells s t l) (hu : Onward False False t u) : Tells s u l := by
  obtain ⟨es, hes, hchange, hremoves⟩ := h
  obtain ⟨es', hes', hsilent⟩ := hu.events
  obtain ⟨es'', hes'', hchange', -⟩ := silent_of_onward hu
  obtain rfl := List.append_cancel_left (hes'.symm.trans hes'')
  refine ⟨es ++ es', by rw [hes', hes, List.append_assoc], ?_, ?_⟩
  · rw [List.filterMap_append, hchange, hchange', List.append_nil]
  · have hnone : es'.filterMap (·.removes) = [] :=
      List.filterMap_eq_nil_iff.2 fun e he => Event.removes_of_not_call (by simpa using (hsilent e he).1)
    rw [List.filterMap_append, hremoves, hnone, List.append_nil]

theorem Tells.acquired {st : CcimpStatus} (h : Tells (s.emitted (.acquire st)) t l) : Tells s t l := by
  obtain ⟨es, hes, hchange, hremoves⟩ := h
  exact ⟨.acquire st :: es, by simp [hes], hchange, hremoves⟩

/-- what comes behind the question of a remove is silent -/
theorem wp_silent {α : Type} {m : Fs α} (hm : Moves False False m) {Q : α → Service → Prop} {E : Fault → Service → Prop}
    (h : Tells s t l) (hQ : ∀ a u, Tells s u l → Q a u) (hE : ∀ e u, Tells s u l → E e u) : wp m Q E t :=
  wp_mono (hm t) (fun a u hu => hQ a u (h.silent hu)) fun e u hu => hE e u (h.silent hu)

theorem wp_fileRemove_told (henv : env.hasChanged = true) (d : RemoveData) :
    wp (fileRemove env d) (fun x t => ∃ l, Removed s d x.1 t l) (fun _ t => ∃ l, Tells s t l ∧ l.length ≤ 1) s := by
  have hfault {t : Service} (h : Tells s t []) : ∃ l, Tells s t l ∧ l.length ≤ 1 := ⟨[], h, Nat.zero_le _⟩
  have hnone {st : CcimpStatus} {t : Service} (hst : st ≠ .ok) (h : Tells s t []) : ∃ l, Removed s d st t l :=
    ⟨[], h, Nat.zero_le _, fun hok => absurd hok hst⟩
  have hpath : wp (getLocalPathFromCloudPath env d.path) (fun l _ => ∀ x ∈ l, localPath s.virtualDirList d.path = some x.path)
      (fun _ _ => True) s := by
    rw [run_getLocalPath]
    split
    · simp
    · next path hlocal => split_ifs <;> simp [hlocal]
  rw [fileRemove, wp_bind]
  refine wp_mono (wp_and (@moves_getLocalPath False False env d.path s) hpath) (fun l t ht => ?_)
    fun _ t ht => hfault ((told_refl s).silent ht.1)
  have htold := (told_refl s).silent ht.1
  cases l with
  | none =>
    dsimp only
    rw [wp_bind]
    exact wp_silent (moves_setError _ _) htold (fun n u hu => hnone (by simp) hu) fun _ u hu => hfault hu
  | some l =>
    have hlocal := ht.2 l rfl
    dsimp only
    rw [wp_bind]
    refine wp_silent (moves_askAccess _ _) htold (fun allow u hu => ?_) fun _ u hu => hfault hu
    cases allow with
    | false =>
      rw [if_neg (by simp), wp_bind]
      refine wp_silent (moves_setError _ _) hu (fun n v hv => ?_) fun _ v hv => hfault hv
      rw [wp_bind]
      exact wp_silent (moves_freeLocalPath _) hv (fun _ w hw => hnone (by simp) hw) fun _ w hw => hfault hw
    | true =>
      rw [if_pos rfl, wp_bind, run_call, wp_ite]
      -- what stands behind the call and its notification
      have hrest {v : Service} {l' : List (Str × Changed)} (hv : Tells s v l')
          (hl : Removed s d (env.answer u.events.length).status v l') :
          wp (do
            let errnum ← setCcimpError env (env.answer u.events.length) d.errnum
            freeLocalPath env l.block
            return ((env.answer u.events.length).status, { d with errnum := errnum }))
            (fun x t => ∃ l, Removed s d x.1 t l) (fun _ t => ∃ l, Tells s t l ∧ l.length ≤ 1) v := by
        rw [wp_bind]
        refine wp_silent (moves_setCcimpError _ _) hv (fun n w hw => ?_) fun _ w hw => ⟨l', hw, hl.once⟩
        rw [wp_bind]
        exact wp_silent (moves_freeLocalPath _) hw (fun _ y hy => ⟨l', hy, hl.once, hl.ok⟩) fun _ y hy => ⟨l', hy, hl.once⟩
      obtain ⟨es, hes, hchange, hremoves⟩ := hu
      by_cases hok : (env.answer u.events.length).status = .ok
      · rw [if_pos hok]
        simp only [notifyChanged, henv, if_true]
        rw [wp_bind, run_emit]
        have htells : Tells s ((u.called env (.fileRemove l.path)).emitted (.changed l.path .removed)) [(l.path, .removed)] := by
          refine ⟨es ++ [.call (.fileRemove l.path) u.impContext (env.answer u.events.length), .changed l.path .removed],
            by simp [hes], ?_, ?_⟩
          · rw [List.filterMap_append, hchange]
            rfl
          · rw [List.filterMap_append, hremoves]
            simp [Event.removes, hok]
        exact hrest htells ⟨htells, le_rfl, fun _ => ⟨l.path, hlocal, rfl⟩⟩
      · rw [if_neg hok]
        have htells : Tells s (u.called env (.fileRemove l.path)) [] := by
          refine ⟨es ++ [.call (.fileRemove l.path) u.impContext (env.answer u.events.length)], by simp [hes], ?_, ?_⟩
          · rw [List.filterMap_append, hchange]
            rfl
          · rw [List.filterMap_append, hremoves]
            simp [Event.removes, hok]
        exact hrest htells ⟨htells, Nat.zero_le _, fun h => absurd h hok⟩

/-- **A remove.** -/
theorem step_remove (henv : env.hasChanged = true) (x : Run) (d : RemoveData) : RemoveTold env x d := by
  -- the request as a whole, with the events around it
  have hstep : ∃ l, Tells x.st.svc (x.step env (.handler (.remove d))).st.svc l ∧ l.length ≤ 1 ∧
      ∀ r, (x.step env (.handler (.remove d))).results = x.results ++ [.handler (.cont, r)] →
        ∃ path, localPath x.st.svc.virtualDirList d.path = some path ∧ l = [(path, .removed)] := by
    cases hx : x.stuck with
    | some e =>
      have hstep : x.step env (.handler (.remove d)) = x := by simp [Run.step, hx]
      rw [hstep]
      exact ⟨[], told_refl _, Nat.zero_le _, fun r hr => by simp at hr⟩
    | none =>
      refine step_handler_cases (P := fun y => ∃ l, Tells x.st.svc y.st.svc l ∧ l.length ≤ 1 ∧
        ∀ r, y.results = x.results ++ [.handler (.cont, r)] →
          ∃ path, localPath x.st.svc.virtualDirList d.path = some path ∧ l = [(path, .removed)]) hx ?_ ?_ ?_
      · intro hrefused y _ hsvc hresults
        refine ⟨[], hsvc ▸ (told_refl _).silent (onward_silent _ rfl rfl), Nat.zero_le _, fun r hr => ?_⟩
        rw [hresults, List.append_cancel_left_eq] at hr
        simp only [List.cons.injEq, Result.handler.injEq, Prod.mk.injEq] at hr
        exact absurd (callbackStatus_cont.1 hr.1.1) hrefused
      · intro _ y _ hsvc hresults
        exact ⟨[], hsvc ▸ told_refl _, Nat.zero_le _, fun r hr => by simp [hresults] at hr⟩
      · intro hok hlock
        rw [serve, wp_bind]
        refine wp_mono (wp_fileRemove_told henv d) (fun z u hu y _ hsvc hresults => ?_) fun _ u hu y _ hsvc hresults => ?_
        · obtain ⟨l, hl⟩ := hu
          refine ⟨l, hsvc ▸ hl.told.acquired.silent (onward_silent _ rfl rfl), hl.once, fun r hr => hl.ok ?_⟩
          rw [hresults, List.append_cancel_left_eq] at hr
          simp only [List.cons.injEq, Result.handler.injEq, Prod.mk.injEq] at hr
          have hst := callbackStatus_cont.1 hr.1.1
          split_ifs at hst with hrel
          · exact hst
          · exact absurd hst hrel
        · obtain ⟨l, hl, hlen⟩ := hu
          exact ⟨l, hsvc ▸ hl.acquired, hlen, fun r hr => by simp [hresults] at hr⟩
  obtain ⟨l, ⟨es, hes, hchange, hremoves⟩, hlen, hcont⟩ := hstep
  have hl : notified env (x, .handler (.remove d)) = l := by rw [notified, since_eq hes, hchange]
  refine ⟨?_, ?_, ?_⟩
  · rw [hl, since_eq hes, hremoves]
  · rw [hl]
    exact hlen
  · rw [hl]
    exact hcont

end

/-! ## Main results -/

/-- the state behind some operations -/
def reached (env : Env) (ops : List Op) : Run := run (Run.step env) (Run.start St.fresh) ops

/-- the operation opens a file: handle p is a live record of its local path and what it was opened for -/
def OpensFile (env : Env) (x : Run) (o : Op) (p : ℕ) (path : Str) (request : FsRequest) : Prop :=
  ∃ d, o = .handler (.open d) ∧ Recorded x.st.svc (x.step env o).st.svc d p path ∧ request = openRequest d.oflag

/-- the changed callback over a run: a file that is opened to be written and closed in the end is told of once by the closes
of its handle, one that is opened to be read never, a removed file once by its remove, and no other operation tells anything -/
structure NotifiedOnce (env : Env) (ops : List Op) : Prop where
  written : ∀ pre o post, ops = pre ++ o :: post → ∀ p path request, OpensFile env (reached env pre) o p path request →
    request.writes = true → Finished env p (steps (Run.step env) ((reached env pre).step env o) post) →
      closeNotes env p (steps (Run.step env) ((reached env pre).step env o) post) = [(path, .modified)]
  read : ∀ pre o post, ops = pre ++ o :: post → ∀ p path request, OpensFile env (reached env pre) o p path request →
    request.writes = false → closeNotes env p (steps (Run.step env) ((reached env pre).step env o) post) = []
  removed : ∀ pre d post, ops = pre ++ .handler (.remove d) :: post → RemoveTold env (reached env pre) d
  others : ∀ pre o post, ops = pre ++ o :: post → o.notifies = false → notified env (reached env pre, o) = []

/-- no close of a file that was opened to be written, and is closed in the end, is answered busy -/
def ClosedAtOnce (env : Env) (ops : List Op) : Prop :=
  ∀ pre o post, ops = pre ++ o :: post → ∀ p path request, OpensFile env (reached env pre) o p path request →
    request.writes = true → Finished env p (steps (Run.step env) ((reached env pre).step env o) post) →
      ∀ y ∈ steps (Run.step env) ((reached env pre).step env o) post, ¬ BusyClose env p y

theorem opened_run {env : Env} (henv : env.hasChanged = true) {pre : List Op} {o : Op} {p : ℕ} {path : Str}
    {request : FsRequest} (h : OpensFile env (reached env pre) o p path request) (post : List Op) :
    ∃ f : FileHandle, f.request = request ∧
      CloseNotes env p f path (steps (Run.step env) ((reached env pre).step env o) post) := by
  obtain ⟨d, ho, ⟨q, ctx, a, -, -, -, -, -, hfile, hpath⟩, rfl⟩ := h
  refine ⟨⟨a.fileHandle, q, openRequest d.oflag⟩, rfl, ?_⟩
  by_cases hstuck : ((reached env pre).step env o).stuck = none
  · have htidy : Tidy (reached env pre).st.svc := run_inv_all (I := fun x : Run => Tidy x.st.svc) tidy_step tidy_fresh pre
    exact live_run henv hstuck ⟨tidy_step _ o htidy, hfile, Or.inl hpath⟩ post
  · exact closeNotes_over (Or.inl hstuck) post

/-- **The changed callback.** In every run of operations, whatever the platform, memory, the lock and the access callback
answer: each file that was opened to be written notifies once over the whole closing of its handle, none that was opened to be
read does, each removed file is told of once and nothing else is told, exactly when no close of a written file is answered
busy before its closing ends. -/
theorem notified_iff (env : Env) (henv : env.hasChanged = true) (ops : List Op) :
    NotifiedOnce env ops ↔ ClosedAtOnce env ops := by
  constructor
  · intro h pre o post hops p path request hopened hw hend
    obtain ⟨f, hf, hnotes⟩ := opened_run henv hopened post
    rw [← hf] at hw
    exact (hnotes.once hw hend).1 (h.written pre o post hops p path request hopened (hf ▸ hw) hend)
  · refine fun h => ⟨?_, ?_, fun pre d post _ => step_remove henv _ d, fun pre o post _ ho => ?_⟩
    · intro pre o post hops p path request hopened hw hend
      obtain ⟨f, hf, hnotes⟩ := opened_run henv hopened post
      exact (hnotes.once (hf ▸ hw) hend).2 (h pre o post hops p path request hopened hw hend)
    · intro pre o post hops p path request hopened hr
      obtain ⟨f, hf, hnotes⟩ := opened_run henv hopened post
      exact hnotes.reads (hf ▸ hr)
    · have honward := @step_onward env (reached env pre) o
      simp only [ho, Bool.false_eq_true] at honward
      exact notified_of_onward honward

/-- nothing is answered busy -/
def prompt : Env := { calm true with hasChanged := true }

/-- a file is opened to be written and closed, and another is removed -/
theorem notified_prompt : NotifiedOnce prompt
    [.handler (.open ⟨ascii "/a", 1, none, none⟩), .handler (.close ⟨1, none⟩), .handler (.remove ⟨ascii "/b", none⟩)] := by
  refine (notified_iff prompt rfl _).2 fun _ _ _ _ _ _ _ _ _ _ y _ hbusy => ?_
  have hanswer := hbusy.2.2.2.2.2
  simp [prompt, calm] at hanswer

/-- a platform that answers the first close busy -/
def postponing : Env :=
  { calm true with
    answer := fun n => ⟨if n = 6 then .busy else .ok, 0, 0, 3, 4, [], 0, 0, ⟨.file, 0, 0⟩, .none, .unspec⟩
    settles := fun n => ⟨7, by simp [show n + 7 ≠ 6 by omega]⟩
    hasChanged := true }

/-- a file is opened to be written, and its close is repeated -/
def closedTwice : List Op :=
  [.handler (.open ⟨ascii "/a", 1, none, none⟩), .handler (.close ⟨1, none⟩), .handler (.close ⟨1, none⟩)]

/-- **A busy close notifies**, and the one that follows notifies again. -/
theorem busy_close_notifies : ¬ NotifiedOnce postponing closedTwice := by
  intro h
  have hopened : OpensFile postponing (reached postponing []) (.handler (.open ⟨ascii "/a", 1, none, none⟩)) 1 (ascii "/a") .write :=
    ⟨_, rfl, ⟨2, 0, ⟨.ok, 0, 0, 3, 4, [], 0, 0, ⟨.file, 0, 0⟩, .none, .unspec⟩, by decide, by decide, by decide, by decide, rfl,
      by decide, by decide⟩, by decide⟩
  have hend : Finished postponing 1 (steps (Run.step postponing)
      ((reached postponing []).step postponing (.handler (.open ⟨ascii "/a", 1, none, none⟩)))
      [.handler (.close ⟨1, none⟩), .handler (.close ⟨1, none⟩)]) := by
    refine ⟨_, List.mem_cons_of_mem _ List.mem_cons_self, by decide, by decide, 3, 0, ⟨.ok, 0, 0, 3, 4, [], 0, 0, ⟨.file, 0, 0⟩,
      .none, .unspec⟩, by decide, by decide⟩
  have honce := h.written [] _ _ rfl 1 (ascii "/a") .write hopened (by decide) hend
  revert honce
  decide

end CcApi.FileSystem
