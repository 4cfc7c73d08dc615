/-
The file-system lock over runs of operations (`ccapi.c`, `ccapi_filesystem.c`, `ccapi_filesystem_handler.c`).

Every operation that takes the lock should give it back. Four of them give it back inside `ASSERT_MSG`, whose argument is
not evaluated without CCIMP_DEBUG_ENABLED: `ccapi_open_file`, `ccapi_read_file`, `ccapi_close_file` and
`ccapi_get_dir_entry_status`, and with the last one the adding of a virtual directory.

- `Op.balanced`, `Op.unbalanced`: one operation, with the lock free before it.
- `balanced_iff`: no operation of a run leaves the lock taken or waits for it for ever exactly when the build has the
  assertions or no operation comes to ask the platform under one of the four.
-/
import CcApi.FileSystem.Handler

namespace CcApi.FileSystem

open Lib Lib.Prog Lib.Runs

/-! ## Taking and giving back -/

/-- the lock operations themselves succeed -/
def LockWorks (env : Env) : Prop := ∀ i, env.acquire i = .ok ∧ env.release i = .ok

variable {env : Env} {s : St}

theorem wp_onService {α : Type} {Q : α → St → Prop} {E : Stuck → St → Prop} (m : Fs α) :
    wp (onService m) Q E s ↔
      wp m (fun a t => Q a { s with svc := t }) (fun e t => E (.inService e) { s with svc := t }) s.svc :=
  wp_zoom m

/-- a lock that is free is taken -/
theorem wp_lockAcquire (h : LockWorks env) (hs : s.lock = 1) {Q : CcimpStatus → St → Prop} {E : Stuck → St → Prop}
    (hQ : ∀ t, t.lock = 0 → Q .ok t) : wp (lockAcquire env) Q E s := by
  have hok := (h s.svc.events.length).1
  simp only [lockAcquire, wp_bind, wp_get, hok, if_true, hs, one_ne_zero, if_false, wp_modify, wp_pure, wp_onService, emit]
  exact hQ _ (by simp)

/-- a lock that is taken blocks -/
theorem wp_lockAcquire_taken (h : LockWorks env) (hs : s.lock = 0) {Q : CcimpStatus → St → Prop}
    {E : Stuck → St → Prop} (hE : E .blocked s) : wp (lockAcquire env) Q E s := by
  have hok := (h s.svc.events.length).1
  simp only [lockAcquire, wp_bind, wp_get, hok, if_true, hs, wp_throw]
  exact hE

theorem wp_lockRelease (h : LockWorks env) {Q : CcimpStatus → St → Prop} {E : Stuck → St → Prop}
    (hQ : ∀ t, t.lock = s.lock + 1 → Q .ok t) : wp (lockRelease env) Q E s := by
  have hok := (h s.svc.events.length).2
  simp only [lockRelease, wp_bind, wp_get, hok, if_true, wp_modify, wp_pure, wp_onService, emit]
  exact hQ _ rfl

/-- **The assertion gives the lock back in one build only.** -/
theorem wp_assertMsgRelease (h : LockWorks env) {Q : Unit → St → Prop} {E : Stuck → St → Prop}
    (hQ : ∀ t, t.lock = s.lock + (if env.debug then 1 else 0) → Q () t) : wp (assertMsgRelease env) Q E s := by
  unfold assertMsgRelease
  cases hd : env.debug with
  | true =>
    rw [if_pos rfl, wp_bind]
    refine wp_lockRelease h fun t ht => ?_
    exact hQ t (by simp [ht, hd])
  | false =>
    rw [if_neg (by simp)]
    exact hQ s (by simp [hd])

/-! ## The four operations -/

/-- the loop ends with the platform's first answer that is not busy; the induction is on the rounds -/
theorem wp_callUntilDone (c : Call) {fuel : ℕ} {ctx : ℕ} {s : Service}
    (h : ∃ k < fuel, (env.answer (s.events.length + k)).status ≠ .busy) :
    wp (callUntilDone env c fuel ctx) (fun a _ => a.status ≠ .busy) (fun _ _ => False) s := by
  induction fuel generalizing ctx s with
  | zero =>
    obtain ⟨k, hk, -⟩ := h
    exact absurd hk (Nat.not_lt_zero k)
  | succ fuel ih =>
    simp only [callUntilDone, ccimpCall, now, emit, wp_bind, wp_get, wp_pure, wp_modify, wp_ite]
    split_ifs with hbusy
    · apply ih
      obtain ⟨k, hk, hne⟩ := h
      cases k with
      | zero => exact absurd hbusy hne
      | succ k =>
        refine ⟨k, by omega, ?_⟩
        rw [List.length_append, List.length_singleton, Nat.add_assoc, Nat.add_comm 1 k]
        exact hne
    · exact hbusy

/-- with the lock free the four return, and the lock is free again in one build only -/
theorem wp_lockedCall (h : LockWorks env) (hs : s.lock = 1) (c : Call) :
    wp (lockedCall env c) (fun _ t => t.lock = if env.debug then 1 else 0) (fun _ _ => False) s := by
  unfold lockedCall
  rw [wp_bind]
  refine wp_lockAcquire h hs fun t ht => ?_
  simp only [if_true, wp_bind, wp_onService, wp_get]
  refine wp_mono (wp_callUntilDone c ⟨env.busyFrom t.svc.events.length, Nat.lt_succ_self _, ?_⟩) ?_ fun _ _ hf => hf
  · exact Nat.find_spec (env.settles t.svc.events.length)
  · intro a u _
    refine wp_assertMsgRelease h fun v hv => ?_
    simpa [ht] using hv

/-! ## Virtual directories -/

theorem wp_malloc {b : Block} {s : Service} {Q : Option ℕ → Service → Prop} {E : Fault → Service → Prop}
    (hsome : ∀ es, Q (some s.next)
      { s with heap := Function.update s.heap s.next (some b), next := s.next + 1, events := es })
    (hnone : ∀ es, Q none { s with events := es }) : wp (malloc env b) Q E s := by
  simp only [malloc, emit, wp_bind, wp_get, wp_modify, wp_ite, wp_pure]
  split_ifs
  · exact hsome _
  · exact hnone _

theorem wp_free {p : ℕ} {s : Service} (hp : s.heap p ≠ none) {Q : CcimpStatus → Service → Prop}
    {E : Fault → Service → Prop}
    (hQ : ∀ r es, Q r { s with heap := Function.update s.heap p none, events := es }) : wp (free env p) Q E s := by
  obtain ⟨b, hb⟩ := Option.ne_none_iff_exists'.1 hp
  simp only [free, emit, wp_bind, wp_get, hb, wp_modify, wp_pure]
  exact hQ _ _

/-- building an entry returns: what it frees it has just allocated -/
theorem wp_createVirtualDirEntry (v l : Str) {s : Service} :
    wp (createVirtualDirEntry env v l) (fun _ _ => True) (fun _ _ => False) s := by
  unfold createVirtualDirEntry
  rw [wp_bind]
  refine wp_malloc (fun es => ?_) fun es => trivial
  rw [wp_bind]
  refine wp_malloc (fun es => ?_) fun es => ?_
  · rw [wp_bind]
    refine wp_malloc (fun es => trivial) fun es => ?_
    rw [wp_bind]
    refine wp_free (by simp) fun r es => ?_
    rw [wp_bind]
    refine wp_free (by simp) fun r es => ?_
    trivial
  · rw [wp_bind]
    refine wp_free (by simp) fun r es => ?_
    trivial

theorem wp_addVirtualDirEntry (h : LockWorks env) (hs : s.lock = 1) (d : VirtualDir) :
    wp (addVirtualDirEntry env d) (fun _ t => t.lock = 1) (fun _ _ => False) s := by
  unfold addVirtualDirEntry
  rw [wp_bind]
  refine wp_lockAcquire h hs fun t ht => ?_
  simp only [if_true, wp_bind, wp_onService, wp_modify]
  refine wp_lockRelease h fun u hu => ?_
  simpa [ht] using hu

theorem wp_addVirtualDirEntry_taken (h : LockWorks env) (hs : s.lock = 0) (d : VirtualDir) :
    wp (addVirtualDirEntry env d) (fun _ _ => False) (fun e _ => e = .blocked) s := by
  unfold addVirtualDirEntry
  rw [wp_bind]
  exact wp_lockAcquire_taken h hs rfl

/-- the checks that come before the directory's status is asked for -/
def passesChecks (env : Env) (stopped : Bool) (virtualDir localDir : Option Str) (s : Service) : Bool :=
  !invalidDirs env virtualDir localDir && !stopped && env.filesystemSupported &&
    (findDir (virtualDir.getD []) (virtualDir.getD []).length s.virtualDirList).isNone

theorem wp_addVirtualDir {stopped : Bool} {v l : Option Str} {Q : FsError → St → Prop} {E : Stuck → St → Prop}
    (hpass : passesChecks env stopped v l s.svc = true → wp (mapVirtualDir env (v.getD []) (l.getD [])) Q E s)
    (hnot : passesChecks env stopped v l s.svc = false → ∀ e, Q e s) : wp (addVirtualDir env stopped v l) Q E s := by
  simp only [addVirtualDir, wp_bind, wp_get, wp_ite, wp_pure]
  simp only [passesChecks] at hpass hnot
  split_ifs with h1 h2 h3 h4
  · exact hnot (by simp [h1]) _
  · exact hnot (by simp [h2]) _
  · rw [Bool.not_eq_true'] at h3
    exact hnot (by simp [h3]) _
  · exact hnot (by simp [Option.isNone_eq_false_iff.2 h4]) _
  · refine hpass ?_
    simp only [Bool.not_eq_true, Bool.not_eq_false', Option.isSome_eq_false_iff] at h1 h2 h3 h4
    simp only [h1, h2, h3, h4, Bool.not_false, Bool.and_true]

/-- the rest of an adding, with the assertions: the lock is free again -/
theorem wp_mapVirtualDir_debug (h : LockWorks env) (hd : env.debug = true) (hs : s.lock = 1) (v l : Str) :
    wp (mapVirtualDir env v l) (fun _ t => t.lock = 1) (fun _ _ => False) s := by
  simp only [mapVirtualDir, pathIsADir, getDirEntryStatus, wp_bind, wp_pure]
  refine wp_mono (wp_lockedCall h hs _) ?_ fun _ _ hf => hf
  intro a t ht
  simp only [hd, if_true] at ht
  rw [wp_ite]
  split_ifs
  · rw [wp_bind, wp_onService]
    refine wp_mono (wp_createVirtualDirEntry v l) ?_ fun _ _ hf => hf
    intro d u _
    cases d with
    | none => exact ht
    | some d =>
      have hu : ({ t with svc := u } : St).lock = 1 := ht
      exact wp_addVirtualDirEntry h hu d
  · exact ht

/-- without them it returns with the lock taken, or blocks where it takes it a second time -/
theorem wp_mapVirtualDir_release (h : LockWorks env) (hd : env.debug = false) (hs : s.lock = 1) (v l : Str) :
    wp (mapVirtualDir env v l) (fun _ t => t.lock = 0) (fun e _ => e = .blocked) s := by
  simp only [mapVirtualDir, pathIsADir, getDirEntryStatus, wp_bind, wp_pure]
  refine wp_mono (wp_lockedCall h hs _) ?_ fun _ _ hf => hf.elim
  intro a t ht
  simp only [hd, Bool.false_eq_true, if_false] at ht
  rw [wp_ite]
  split_ifs
  · rw [wp_bind, wp_onService]
    refine wp_mono (wp_createVirtualDirEntry v l) ?_ fun _ _ hf => hf.elim
    intro d u _
    cases d with
    | none => exact ht
    | some d =>
      have hu : ({ t with svc := u } : St).lock = 0 := ht
      exact wp_mono (wp_addVirtualDirEntry_taken h hu d) (fun _ _ hf => hf.elim) fun _ _ he => he
  · exact ht

theorem wp_removeVirtualDir (h : LockWorks env) (hs : s.lock = 1) (stopped : Bool) (v : Option Str) :
    wp (removeVirtualDir env stopped v) (fun _ t => t.lock = 1) (fun e _ => e ≠ .blocked) s := by
  unfold removeVirtualDir
  rw [wp_ite, wp_ite]
  split_ifs
  · exact hs
  · exact hs
  · cases v with
    | none => exact hs
    | some v =>
      dsimp only
      rw [wp_ite]
      split_ifs
      · exact hs
      · rw [wp_bind]
        refine wp_lockAcquire h hs fun t ht => ?_
        simp only [if_true, wp_bind, wp_onService, unlinkDir, wp_get, wp_modify, wp_pure]
        refine wp_lockRelease h fun u hu => ?_
        have hu : u.lock = 1 := by simpa [ht] using hu
        cases findDir v v.length t.svc.virtualDirList with
        | none => exact hu
        | some d =>
          rw [wp_bind, wp_onService]
          exact wp_of_forall (fun _ _ => hu) fun e _ => by simp

/-! ## The connector's requests -/

/-- **Whatever a request does**, the handler gives the lock back. -/
theorem wp_filesystemHandler (h : LockWorks env) (hs : s.lock = 1) (r : Request) :
    wp (filesystemHandler env r) (fun _ t => t.lock = 1) (fun e _ => e ≠ .blocked) s := by
  unfold filesystemHandler
  rw [wp_bind]
  refine wp_lockAcquire h hs fun t ht => ?_
  rw [if_pos rfl, wp_bind, wp_onService]
  refine wp_of_forall ?_ fun e _ => by simp
  rintro ⟨status, r'⟩ u
  rw [wp_bind]
  refine wp_lockRelease h fun w hw => ?_
  simpa [ht] using hw

/-! ## One operation -/

/-- the operation comes to ask the platform under one of the four -/
def asksUnderAssert (env : Env) (s : Service) : Op → Bool
  | .openFile .. | .readFile .. | .closeFile .. | .getDirEntryStatus .. => true
  | .addVirtualDir stopped v l => passesChecks env stopped v l s
  | .removeVirtualDir .. | .handler .. => false

theorem Op.balanced (h : LockWorks env) (hs : s.lock = 1) (o : Op)
    (ho : env.debug = true ∨ asksUnderAssert env s.svc o = false) :
    wp (o.exec env) (fun _ t => t.lock = 1) (fun e _ => e ≠ .blocked) s := by
  have hdebug {α : Type} {m : Locked α} (hd : env.debug = true)
      (hm : wp m (fun _ t => t.lock = if env.debug then 1 else 0) (fun _ _ => False) s) :
      wp m (fun _ t => t.lock = 1) (fun e _ => e ≠ .blocked) s :=
    wp_mono hm (fun _ t ht => by simpa [hd] using ht) fun _ _ hf => hf.elim
  cases o with
  | openFile p f =>
    simp only [Op.exec, FileSystem.openFile, wp_bind, wp_pure]
    exact hdebug (by simpa [asksUnderAssert] using ho) (wp_lockedCall h hs _)
  | readFile f k =>
    simp only [Op.exec, FileSystem.readFile, wp_bind, wp_pure]
    exact hdebug (by simpa [asksUnderAssert] using ho) (wp_lockedCall h hs _)
  | closeFile f =>
    simp only [Op.exec, FileSystem.closeFile, wp_bind, wp_pure]
    exact hdebug (by simpa [asksUnderAssert] using ho) (wp_lockedCall h hs _)
  | getDirEntryStatus p =>
    simp only [Op.exec, FileSystem.getDirEntryStatus, wp_bind, wp_pure]
    exact hdebug (by simpa [asksUnderAssert] using ho) (wp_lockedCall h hs _)
  | addVirtualDir stopped v l =>
    simp only [Op.exec, wp_bind, wp_pure]
    refine wp_addVirtualDir (fun hpass => ?_) fun _ _ => hs
    have hd : env.debug = true := by simpa [asksUnderAssert, hpass] using ho
    exact wp_mono (wp_mapVirtualDir_debug h hd hs _ _) (fun _ _ ht => ht) fun _ _ hf => hf.elim
  | removeVirtualDir stopped v =>
    simp only [Op.exec, wp_bind, wp_pure]
    exact wp_removeVirtualDir h hs stopped v
  | handler r =>
    simp only [Op.exec, wp_bind, wp_pure]
    exact wp_filesystemHandler h hs r

theorem Op.unbalanced (h : LockWorks env) (hs : s.lock = 1) (o : Op) (hd : env.debug = false)
    (ho : asksUnderAssert env s.svc o = true) :
    wp (o.exec env) (fun _ t => t.lock = 0) (fun e _ => e = .blocked) s := by
  have htaken {α : Type} {m : Locked α}
      (hm : wp m (fun _ t => t.lock = if env.debug then 1 else 0) (fun _ _ => False) s) :
      wp m (fun _ t => t.lock = 0) (fun e _ => e = .blocked) s :=
    wp_mono hm (fun _ t ht => by simpa [hd] using ht) fun _ _ hf => hf.elim
  cases o with
  | openFile p f =>
    simp only [Op.exec, FileSystem.openFile, wp_bind, wp_pure]
    exact htaken (wp_lockedCall h hs _)
  | readFile f k =>
    simp only [Op.exec, FileSystem.readFile, wp_bind, wp_pure]
    exact htaken (wp_lockedCall h hs _)
  | closeFile f =>
    simp only [Op.exec, FileSystem.closeFile, wp_bind, wp_pure]
    exact htaken (wp_lockedCall h hs _)
  | getDirEntryStatus p =>
    simp only [Op.exec, FileSystem.getDirEntryStatus, wp_bind, wp_pure]
    exact htaken (wp_lockedCall h hs _)
  | addVirtualDir stopped v l =>
    simp only [Op.exec, wp_bind, wp_pure]
    refine wp_addVirtualDir (fun _ => wp_mapVirtualDir_release h hd hs _ _) fun hnot _ => ?_
    simp only [asksUnderAssert] at ho
    rw [hnot] at ho
    cases ho
  | removeVirtualDir stopped v => cases ho
  | handler r => cases ho

/-! ## Main results -/

/-- the last operation has not been kept waiting for the lock, and the lock is as it was found: free -/
def Balanced (x : Run) : Prop := x.stuck ≠ some .blocked ∧ (x.stuck = none → x.st.lock = 1)

instance (x : Run) : Decidable (Balanced x) := inferInstanceAs (Decidable (_ ∧ _))

/-- an operation that leaves the lock taken -/
def LeavesLocked (env : Env) (x : Run) (o : Op) : Prop :=
  x.stuck = none ∧ env.debug = false ∧ asksUnderAssert env x.st.svc o = true

instance (env : Env) (x : Run) (o : Op) : Decidable (LeavesLocked env x o) := inferInstanceAs (Decidable (_ ∧ _))

/-- what an operation's outcomes have in common holds of the run it ends -/
theorem Run.step_of_wp {x : Run} (hx : x.stuck = none) {o : Op} {P : Run → Prop}
    (h : wp (o.exec env) (fun r t => P { x with st := t, results := x.results ++ [r] })
      (fun e t => P { x with st := t, stuck := some e }) x.st) : P (x.step env o) := by
  unfold wp at h
  simp only [Run.step, hx]
  split at h <;> simp_all

theorem step_balanced (h : LockWorks env) (x : Run) (o : Op) (hx : Balanced x) (ho : ¬ LeavesLocked env x o) :
    Balanced (x.step env o) := by
  cases hstuck : x.stuck with
  | some e =>
    have hstep : x.step env o = x := by simp [Run.step, hstuck]
    rwa [hstep]
  | none =>
    refine Run.step_of_wp hstuck ?_
    refine wp_mono (o.balanced h (hx.2 hstuck) ?_) ?_ ?_
    · simp only [LeavesLocked, hstuck, true_and, not_and, Bool.not_eq_true] at ho
      cases hd : env.debug with
      | true => exact .inl rfl
      | false => exact .inr (ho hd)
    · intro r t ht
      exact ⟨by simp [hstuck], fun _ => ht⟩
    · intro e t he
      exact ⟨by simpa using he, by simp⟩

theorem leavesLocked_unbalanced (h : LockWorks env) (x : Run) (o : Op) (hx : Balanced x) (ho : LeavesLocked env x o) :
    ¬ Balanced (x.step env o) := by
  obtain ⟨hstuck, hd, ha⟩ := ho
  refine Run.step_of_wp (P := fun y => ¬ Balanced y) hstuck ?_
  refine wp_mono (o.unbalanced h (hx.2 hstuck) hd ha) ?_ ?_
  · intro r t ht hb
    have := hb.2 hstuck
    rw [ht] at this
    cases this
  · intro e t he hb
    exact hb.1 (by rw [he])

/-- **The lock's balance.** In every run of operations, whatever the platform, memory and the callbacks answer and with
the lock operations themselves succeeding: no operation waits for the lock for ever and each that returns leaves it free,
exactly when the build has CCIMP_DEBUG_ENABLED or no operation comes to ask the platform under one of the four. -/
theorem balanced_iff (h : LockWorks env) (hs : s.lock = 1) (ops : List Op) :
    (∀ k, Balanced (run (Run.step env) (Run.start s) (ops.take k))) ↔
      Along (Run.step env) (fun x o => ¬ LeavesLocked env x o) (Run.start s) ops := by
  refine along_iff (I := Balanced) (fun _ hx => hx) (step_balanced h) ?_ ?_ ops
  · intro x o hx hb ho
    exact leavesLocked_unbalanced h x o hx ho hb
  · exact ⟨by simp [Run.start], fun _ => hs⟩

/-- a platform that serves every call at once, and takes every path for a directory -/
def calm (debug : Bool) : Env :=
  { debug := debug, filesystemSupported := true, maxPathLength := 256, malloc := fun _ => true, free := fun _ => .ok,
    acquire := fun _ => .ok, release := fun _ => .ok,
    answer := fun _ => ⟨.ok, 0, 0, 3, 4, [], 0, 0, ⟨.dir, 0, 0⟩, .none, .unspec⟩, access := none, hasChanged := false,
    settles := fun _ => ⟨0, by simp⟩ }

theorem calm_works (debug : Bool) : LockWorks (calm debug) := fun _ => ⟨rfl, rfl⟩

/-- a file is opened and closed, and the connector opens another -/
def opened : List Op :=
  [.openFile (ascii "/a") 0, .closeFile 3, .handler (.open ⟨ascii "/b", 0, none, none⟩)]

theorem opened_balanced : (∀ k, Balanced (run (Run.step (calm true)) (Run.start St.fresh) (opened.take k))) ↔
    Along (Run.step (calm true)) (fun x o => ¬ LeavesLocked (calm true) x o) (Run.start St.fresh) opened :=
  balanced_iff (calm_works true) rfl opened

/-- **A build without the assertions** never releases the lock after a file was opened. -/
theorem open_leaves_locked : ¬ ∀ (env : Env) (s : St) (ops : List Op), LockWorks env → s.lock = 1 →
    Balanced (run (Run.step env) (Run.start s) ops) := by
  intro h
  have hb := h (calm false) St.fresh [.openFile (ascii "/a") 0] (calm_works false) rfl
  rw [run_cons, run_nil] at hb
  refine leavesLocked_unbalanced (calm_works false) (Run.start St.fresh) (.openFile (ascii "/a") 0) ?_ ⟨rfl, rfl, rfl⟩ hb
  exact ⟨by simp [Run.start], fun _ => rfl⟩

end CcApi.FileSystem
