/-
Instances from their start to their end (`ccxapi_start`, `ccxapi_stop`, `ccxapi_asynchronous_stop`,
`free_ccapi_data_internal_resources` and `free_logging_resources` of `ccapi_init.c`).

A process starts any number of instances. A running instance's lists of virtual directories and receive targets grow and
shrink, and it ends in a stop, or when its connector aborts. A stop whose terminate action is not answered connector_success
gives no memory back: it stops the threads if the connector ends all the same, and polls for ever if it does not. The calls
are made one after the other. The instances share the logging lock, which the first one creates and the last one destroys.

`Balanced` compares, thing by thing, what was acquired with what was given back and what the stops of the running instances are
going to give back.

- `abort_unbalanced`: an asynchronous stop leaves the lock of the connector's thread.
- `lost_unbalanced`: a stop whose terminate action was taken up and not answered success leaves the record.
- `books_balance_iff`: they balance throughout a run exactly when no instance aborts, no stop loses its terminate action, and
  no start fails at one of the failures that lose something.
- `all_given_back`: so when no instance is left, everything has been given back, as often as it was acquired.
-/
import CcApi.Instance.Pointer
import CcApi.Instance.Success
import CcApi.Lib.Runs

namespace CcApi.Instance

open Lib Lib.Prog Lib.Runs

/-! ## An instance -/

/-- what belongs to an instance: an item of its start, or a block of an entry of one of its lists -/
inductive Thing where
  | item (x : Item)
  | localDir (k : ℕ)
  | virtualDir (k : ℕ)
  | dirEntry (k : ℕ)
  | target (k : ℕ)
  | targetEntry (k : ℕ)
deriving DecidableEq, Repr

/-- a running instance: its record, and its entries by their numbers -/
structure Running where
  data : Record
  /-- `config.filesystem_supported` -/
  fileSystem : Bool
  dirs : List ℕ
  targets : List ℕ

/-- an entry's blocks, as `free_filesystem_dir_entry_list` and `ccxapi_fs_remove_virtual_dir` free them -/
def dirBlocks (k : ℕ) : List Thing := [.localDir k, .virtualDir k, .dirEntry k]

/-- the same for `free_receive_target_list` and `ccxapi_receive_remove_target` -/
def targetBlocks (k : ℕ) : List Thing := [.target k, .targetEntry k]

/-- `free_ccapi_data_internal_resources` with its two lists, and the record; the order is left out -/
def Running.resources (i : Running) : List Thing :=
  (if i.fileSystem then i.dirs.flatMap dirBlocks else []) ++
  (if i.data.receiveSupported then i.targets.flatMap targetBlocks else []) ++
  (internalResources i.data ++ [Item.record]).map .item

/-- what `ccxapi_stop` gives back in front of `done`, once the connector has ended -/
def Running.threads (i : Running) : List Thing := (stopThread i.data .connectorRun ++ stopServices i.data).map .item

/-- what `ccxapi_stop` gives back once the connector has ended whose terminate action was answered success -/
def Running.stopped (i : Running) : List Thing := i.threads ++ i.resources

/-- what `ccxapi_asynchronous_stop` gives back, in the connector's own thread -/
def Running.aborted (i : Running) : List Thing := (stopServices i.data).map .item ++ i.resources

/-! ## The process -/

structure Process where
  /-- a start ran into a NULL pointer of its configuration: the process is gone, and the books stay as they were -/
  ended : Bool
  /-- `logging_lock_users` -/
  users : ℕ
  /-- `logging_lock` is not NULL -/
  logging : Bool
  /-- the running instances by the number of their start -/
  running : ℕ → Option Running
  /-- the number of the next start or entry -/
  next : ℕ
  /-- things of instances; `none` for the logging lock -/
  acquired : List (Option (ℕ × Thing))
  released : List (Option (ℕ × Thing))
  /-- workers of starts that have failed -/
  orphans : List Worker
  /-- a stop whose terminate action was refused polls a connector that goes on running -/
  polls : Bool

inductive ProcessOp where
  /-- `ccxapi_start`; fileSystem says whether the configuration has a file-system service -/
  | start (plat : Plat) (noHandle : Bool) (handle : Handle) (start : Option StartConfig) (fileSystem : Bool)
  /-- an entry comes into a list or leaves it, by the calls that add and remove them -/
  | addDir (i : ℕ)
  | removeDir (i k : ℕ)
  | addTarget (i : ℕ)
  | removeTarget (i k : ℕ)
  /-- `ccxapi_stop` -/
  | stop (i : ℕ) (terminate : Terminate)
  /-- `connector_run` answers abort -/
  | abort (i : ℕ)

/-- an item of start number n -/
def label (n : ℕ) : Item → Option (ℕ × Thing)
  | .loggingLock => none
  | x => some (n, .item x)

namespace Process

-- CCIMP_DEBUG_ENABLED
variable (debug : Bool)

/-- `free_logging_resources` for an instance that ends -/
def leaveLogging (p : Process) : Process :=
  let last := debug && p.users = 1 && p.logging
  { p with
    users := p.users - 1
    logging := p.logging && !last
    released := p.released ++ if last then [none] else [] }

/-- an instance ends and gives something back -/
def finish (i : ℕ) (given : List Thing) (p : Process) : Process :=
  leaveLogging debug { p with
    running := Function.update p.running i none
    released := p.released ++ given.map fun x => some (i, x) }

/-- an instance ends in a stop whose terminate action was not answered success: its threads are stopped, and that is all -/
def abandon (i : ℕ) (r : Running) (p : Process) : Process :=
  { p with
    running := Function.update p.running i none
    released := p.released ++ r.threads.map fun x => some (i, x) }

/-- `ccxapi_stop` of a running instance -/
def stop (i : ℕ) (r : Running) (p : Process) : Terminate → Process
  | .success => p.finish debug i r.stopped
  | .lost => p.abandon i r
  | .refused => { p with polls := true }
  | .aborted => p.finish debug i r.aborted

/-- an entry with its blocks comes into a list of instance i -/
def enter (i : ℕ) (r : Running) (blocks : List Thing) (p : Process) : Process :=
  { p with
    running := Function.update p.running i (some r)
    next := p.next + 1
    acquired := p.acquired ++ blocks.map fun x => some (i, x) }

/-- an entry leaves a list of instance i -/
def leave (i : ℕ) (r : Running) (blocks : List Thing) (p : Process) : Process :=
  { p with
    running := Function.update p.running i (some r)
    released := p.released ++ blocks.map fun x => some (i, x) }

/-- `ccxapi_start`; what a failed start makes of the logging lock is undone by its end -/
def start (plat : Plat) (noHandle : Bool) (handle : Handle) (start : Option StartConfig) (fileSystem : Bool)
    (p : Process) : Process :=
  match ccxapiStart plat noHandle handle start p.users with
  | (.started, t) =>
    { p with
      users := p.users + 1
      logging := p.logging || (plat.debug && p.users = 0)
      running := Function.update p.running p.next (some ⟨recordOf plat start p.users, fileSystem, [], []⟩)
      next := p.next + 1
      acquired := p.acquired ++ t.acquired.map (label p.next) }
  | (.failed _, t) =>
    { p with
      next := p.next + 1
      acquired := p.acquired ++ t.acquired.map (label p.next)
      released := p.released ++ t.released.map (label p.next)
      orphans := p.orphans ++ t.running }
  | (.crashed, _) => { p with ended := true }

/-- a call of the application -/
def call (p : Process) (o : ProcessOp) : Process :=
  match o with
  | .start plat noHandle handle start fileSystem =>
    p.start { plat with debug := debug } noHandle handle start fileSystem
  | .addDir i =>
    match p.running i with
    | some r => if r.fileSystem then p.enter i { r with dirs := p.next :: r.dirs } (dirBlocks p.next) else p
    | none => p
  | .removeDir i k =>
    match p.running i with
    | some r => if r.fileSystem ∧ k ∈ r.dirs then p.leave i { r with dirs := r.dirs.erase k } (dirBlocks k) else p
    | none => p
  | .addTarget i =>
    match p.running i with
    | some r =>
      if r.data.receiveSupported then p.enter i { r with targets := p.next :: r.targets } (targetBlocks p.next) else p
    | none => p
  | .removeTarget i k =>
    match p.running i with
    | some r =>
      if r.data.receiveSupported ∧ k ∈ r.targets then
        p.leave i { r with targets := r.targets.erase k } (targetBlocks k)
      else p
    | none => p
  | .stop i terminate =>
    match p.running i with
    | some r => p.stop debug i r terminate
    | none => p
  | .abort _ => p

/-- the connector of an instance aborts: `ccxapi_asynchronous_stop` -/
def abort (i : ℕ) (p : Process) : Process :=
  match p.running i with
  | some r => p.finish debug i r.aborted
  | none => p

def step (p : Process) (o : ProcessOp) : Process :=
  if p.ended then p
  else
    match o with
    | .abort i => p.abort debug i
    -- the application is still in its `ccxapi_stop`
    | _ => if p.polls then p else p.call debug o

/-- before the first start -/
def fresh : Process :=
  { ended := false, users := 0, logging := false, running := fun _ => none, next := 0, acquired := [], released := [],
    orphans := [], polls := false }

/-- what the stops of the running instances are going to give back -/
def held (p : Process) : Option (ℕ × Thing) → ℕ
  | none => if p.logging then 1 else 0
  | some (i, x) =>
    match p.running i with
    | some r => r.stopped.count x
    | none => 0

/-- what was acquired has been given back, or is held for a stop to give back; no worker is left of a failed start -/
structure Balanced (p : Process) : Prop where
  count : ∀ x, p.acquired.count x = p.released.count x + p.held x
  orphans : p.orphans = []

/-- a step at which something is lost: an abort, a stop whose terminate action was taken up and not answered success, and a
failed start that gives back too little or too much -/
def Loses (p : Process) : ProcessOp → Prop
  | .start plat noHandle handle start _ =>
    let plat := { plat with debug := debug }
    p.ended = false ∧ p.polls = false ∧ ∃ s, (ccxapiStart plat noHandle handle start p.users).1 = .failed s ∧
      (LosesLoggingLock plat p.users ∨ TakesRecord plat noHandle handle p.users ∧ s.givesBack plat.stale = false)
  | .stop i terminate =>
    p.ended = false ∧ p.polls = false ∧ p.running i ≠ none ∧ (terminate = .lost ∨ terminate = .aborted)
  | .abort i => p.ended = false ∧ p.running i ≠ none
  | _ => False

end Process

/-! ## One start -/

theorem label_injective (n : ℕ) : Function.Injective (label n) := by
  intro x y h
  cases x <;> cases y <;> simp_all [label]

/-- the labels keep the counts -/
theorem count_label (n : ℕ) (l : List Item) (x : Item) : (l.map (label n)).count (label n x) = l.count x :=
  List.count_map_of_injective l (label n) (label_injective n) x

theorem count_label_of_not_mem (n : ℕ) (l : List Item) {y : Option (ℕ × Thing)} (hy : ∀ x, label n x ≠ y) :
    (l.map (label n)).count y = 0 := by
  rw [List.count_eq_zero]
  intro hm
  obtain ⟨x, -, hx⟩ := List.mem_map.1 hm
  exact hy x hx

theorem count_label_congr {n : ℕ} {l l' : List Item} :
    (∀ y, (l.map (label n)).count y = (l'.map (label n)).count y) ↔ ∀ x, l.count x = l'.count x := by
  constructor
  · intro h x
    rw [← count_label n, ← count_label n]
    exact h (label n x)
  · intro h y
    by_cases hy : ∃ x, label n x = y
    · obtain ⟨x, rfl⟩ := hy
      rw [count_label, count_label]
      exact h x
    · push Not at hy
      rw [count_label_of_not_mem n l hy, count_label_of_not_mem n l' hy]

/-- things of instance i among things of instance j -/
theorem count_tagged (i j : ℕ) (l : List Thing) (x : Thing) :
    (l.map fun x => (some (i, x) : Option (ℕ × Thing))).count (some (j, x)) = if j = i then l.count x else 0 := by
  split_ifs with h
  · subst h
    exact List.count_map_of_injective l (fun x => (some (j, x) : Option (ℕ × Thing))) (fun a b hab => by simpa using hab) x
  · rw [List.count_eq_zero]
    intro hm
    obtain ⟨y, -, hy⟩ := List.mem_map.1 hm
    simp only [Option.some.injEq, Prod.mk.injEq] at hy
    exact h hy.1.symm

theorem count_tagged_none (i : ℕ) (l : List Thing) :
    (l.map fun x => (some (i, x) : Option (ℕ × Thing))).count none = 0 := by
  rw [List.count_eq_zero]
  intro hm
  obtain ⟨y, -, hy⟩ := List.mem_map.1 hm
  cases hy

/-- a start that fails gives back what it has acquired, and leaves no worker, exactly where it loses nothing -/
theorem ccxapiStart_failed_iff {plat : Plat} {noHandle : Bool} {handle : Handle} {start : Option StartConfig} {users : ℕ}
    {s : Site} {t : After} (h : ccxapiStart plat noHandle handle start users = (.failed s, t)) :
    ((∀ x, t.released.count x = t.acquired.count x) ∧ t.running = []) ↔
      ¬ (LosesLoggingLock plat users ∨ TakesRecord plat noHandle handle users ∧ s.givesBack plat.stale = false) := by
  unfold ccxapiStart at h
  dsimp only at h
  split at h
  · rename_i s' hs'
    cases h
    have hrecord : ¬ TakesRecord plat noHandle handle users := by
      rw [← entry_none_iff, hs']
      simp
    simp only [hrecord, false_and, or_false, ← logging_given_back_iff, and_true]
  · rename_i hs'
    have hrecord := (entry_none_iff plat noHandle handle users).1 hs'
    have hloses : ¬ LosesLoggingLock plat users := by
      rintro ⟨hd, hu, -, hr⟩
      have := (hrecord.1 hd hu).2
      rw [hr] at this
      cases this
    split at h
    · cases h
    · rename_i s' t' ht
      cases h
      have hlog : freeLoggingResources plat users = (loggingLockUp plat users).2 := by
        have hup := (Option.or_eq_none_iff.1 hs').1
        unfold freeLoggingResources
        rw [hup]
        unfold loggingLockUp at hup ⊢
        split_ifs at hup ⊢ <;> simp_all
      have hearly : ∀ x ∈ (loggingLockUp plat users).2, x.early = true := by
        intro x hx
        unfold loggingLockUp at hx
        split_ifs at hx <;> simp_all [Item.early]
      have hgiven := fillRecord_given_back plat start hearly ht
      rw [hlog]
      simp only [hloses, hrecord, false_or, true_and, Bool.not_eq_false]
      exact hgiven
    · cases h

/-! ## The books -/

namespace Process

variable {debug : Bool}

/-- the books balance; what else is known of the process and its instances -/
structure Inv (debug : Bool) (p : Process) : Prop where
  balanced : Balanced p
  logging : p.logging = (debug && p.users ≠ 0)
  unused : ∀ i, p.next ≤ i → p.running i = none
  users : ∃ alive : List ℕ, alive.Nodup ∧ (∀ i, i ∈ alive ↔ p.running i ≠ none) ∧ p.users = alive.length
  connector : ∀ i r, p.running i = some r → (r.data.thread .connectorRun).isSome = true

theorem inv_fresh : Inv debug fresh where
  balanced := ⟨fun x => by cases x <;> rfl, rfl⟩
  logging := by simp [fresh]
  unused _ _ := rfl
  users := ⟨[], by simp [fresh]⟩
  connector := by simp [fresh]

@[simp] theorem held_none (p : Process) : p.held none = if p.logging then 1 else 0 := rfl

theorem held_some {p : Process} {i : ℕ} {r : Running} (h : p.running i = some r) (x : Thing) :
    p.held (some (i, x)) = r.stopped.count x := by simp [held, h]

theorem held_gone {p : Process} {i : ℕ} (h : p.running i = none) (x : Thing) : p.held (some (i, x)) = 0 := by
  simp [held, h]

/-- instances that a step does not touch are held as before -/
theorem held_congr {p q : Process} {i : ℕ} (h : q.running i = p.running i) (x : Thing) :
    q.held (some (i, x)) = p.held (some (i, x)) := by simp [held, h]

/-- a step that changes nothing of this -/
theorem Inv.frame {p q : Process} (h : Inv debug p) (hacquired : q.acquired = p.acquired) (hreleased : q.released = p.released)
    (hrunning : q.running = p.running) (husers : q.users = p.users) (hlogging : q.logging = p.logging)
    (hnext : q.next = p.next) (horphans : q.orphans = p.orphans) : Inv debug q := by
  obtain ⟨ended, users, logging, running, next, acquired, released, orphans, polls⟩ := q
  subst hacquired hreleased hrunning husers hlogging hnext horphans
  refine ⟨⟨fun x => ?_, h.balanced.orphans⟩, h.logging, h.unused, h.users, h.connector⟩
  refine (h.balanced.count x).trans ?_
  cases x <;> rfl

/-- an edit of a running instance keeps who is running -/
theorem Inv.edited {p q : Process} {i : ℕ} {r r' : Running} (h : Inv debug p) (hi : p.running i = some r)
    (hdata : r'.data = r.data) (hrunning : q.running = Function.update p.running i (some r')) (husers : q.users = p.users)
    (hlogging : q.logging = p.logging) (hnext : p.next ≤ q.next) (hbalanced : Balanced q) : Inv debug q := by
  obtain ⟨alive, hnodup, hmem, hlength⟩ := h.users
  have hlt : i < p.next := by
    by_contra hge
    rw [h.unused i (by omega)] at hi
    cases hi
  refine ⟨hbalanced, by rw [hlogging, husers, h.logging], fun j hj => ?_, ⟨alive, hnodup, fun j => ?_, husers.trans hlength⟩,
    fun j s hs => ?_⟩
  · rw [hrunning, Function.update_of_ne (by omega)]
    exact h.unused j (by omega)
  · rw [hmem, hrunning]
    by_cases hj : j = i
    · subst hj
      simp [hi]
    · rw [Function.update_of_ne hj]
  · rw [hrunning] at hs
    by_cases hj : j = i
    · subst hj
      rw [Function.update_self] at hs
      obtain rfl := Option.some.inj hs
      rw [hdata]
      exact h.connector j r hi
    · rw [Function.update_of_ne hj] at hs
      exact h.connector j s hs

/-- an entry comes into a list -/
theorem Inv.enter {p : Process} {i : ℕ} {r r' : Running} {blocks : List Thing} (h : Inv debug p)
    (hi : p.running i = some r) (hdata : r'.data = r.data)
    (hcount : ∀ x, r'.stopped.count x = r.stopped.count x + blocks.count x) : Inv debug (p.enter i r' blocks) := by
  apply h.edited (q := p.enter i r' blocks) hi hdata rfl rfl rfl (Nat.le_succ _)
  refine ⟨fun x => ?_, h.balanced.orphans⟩
  have hx := h.balanced.count x
  simp only [Process.enter, List.count_append]
  rcases x with _ | ⟨j, x⟩
  · rw [count_tagged_none]
    simpa using hx
  · rw [count_tagged]
    by_cases hj : j = i
    · subst hj
      rw [held_some hi] at hx
      rw [held_some (Function.update_self _ _ _), hcount x, if_pos rfl]
      omega
    · rw [held_congr (Function.update_of_ne hj _ _), if_neg hj]
      exact hx

/-- an entry leaves a list -/
theorem Inv.leave {p : Process} {i : ℕ} {r r' : Running} {blocks : List Thing} (h : Inv debug p)
    (hi : p.running i = some r) (hdata : r'.data = r.data)
    (hcount : ∀ x, r'.stopped.count x + blocks.count x = r.stopped.count x) : Inv debug (p.leave i r' blocks) := by
  apply h.edited (q := p.leave i r' blocks) hi hdata rfl rfl rfl le_rfl
  refine ⟨fun x => ?_, h.balanced.orphans⟩
  have hx := h.balanced.count x
  simp only [Process.leave, List.count_append]
  rcases x with _ | ⟨j, x⟩
  · rw [count_tagged_none]
    simpa using hx
  · rw [count_tagged]
    by_cases hj : j = i
    · subst hj
      have := hcount x
      rw [held_some hi] at hx
      rw [held_some (Function.update_self _ _ _), if_pos rfl]
      omega
    · rw [held_congr (Function.update_of_ne hj _ _), if_neg hj]
      exact hx

theorem finish_running (p : Process) (i : ℕ) (given : List Thing) :
    (p.finish debug i given).running = Function.update p.running i none := rfl

/-- what an instance gives back at its end is missing or left over where it differs from what was held -/
theorem count_finish {p : Process} {i : ℕ} {r : Running} (hi : p.running i = some r) (given : List Thing) (j : ℕ)
    (x : Thing) : (p.finish debug i given).released.count (some (j, x)) + (p.finish debug i given).held (some (j, x)) +
        (if j = i then r.stopped.count x else 0) =
      p.released.count (some (j, x)) + p.held (some (j, x)) + if j = i then given.count x else 0 := by
  have hlog (b : Bool) : (if b then [none] else [] : List (Option (ℕ × Thing))).count (some (j, x)) = 0 := by
    cases b <;> simp
  simp only [Process.finish, leaveLogging, List.count_append, hlog, count_tagged]
  by_cases hj : j = i
  · subst hj
    rw [held_gone (Function.update_self _ _ _), held_some hi, if_pos rfl, if_pos rfl]
    omega
  · rw [held_congr (Function.update_of_ne hj _ _), if_neg hj, if_neg hj]
    omega

/-- the last one destroys the logging lock -/
theorem count_finish_none (p : Process) (i : ℕ) (given : List Thing) :
    (p.finish debug i given).released.count none + (p.finish debug i given).held none =
      p.released.count none + p.held none := by
  simp only [Process.finish, leaveLogging, List.count_append, count_tagged_none, held_none]
  cases p.logging <;> by_cases hl : (debug && p.users = 1) = true <;> simp [hl]

/-- an instance ends, and gives back what its stop gives back -/
theorem Inv.finish {p : Process} {i : ℕ} {r : Running} (h : Inv debug p) (hi : p.running i = some r) :
    Inv debug (p.finish debug i r.stopped) := by
  obtain ⟨alive, hnodup, hmem, hlength⟩ := h.users
  have halive : i ∈ alive := (hmem i).2 (by simp [hi])
  refine { balanced := ⟨fun x => ?_, h.balanced.orphans⟩, logging := ?_, unused := fun j hj => ?_,
           users := ⟨alive.erase i, hnodup.erase i, fun j => ?_, ?_⟩, connector := fun j s hs => ?_ }
  · have hx := h.balanced.count x
    rcases x with _ | ⟨j, x⟩
    · have := @count_finish_none debug p i r.stopped
      change p.acquired.count none = _
      omega
    · have := @count_finish debug _ _ _ hi r.stopped j x
      change p.acquired.count (some (j, x)) = _
      omega
  · have hpos := List.length_pos_of_mem halive
    simp only [Process.finish, leaveLogging, h.logging]
    cases debug
    · simp
    · by_cases hu : p.users = 1
      · simp [hu]
      · simp [hu]
        omega
  · by_cases hij : j = i
    · subst hij
      exact Function.update_self _ _ _
    · exact (Function.update_of_ne hij _ _).trans (h.unused j hj)
  · rw [hnodup.mem_erase_iff, hmem]
    by_cases hij : j = i
    · subst hij
      simp [finish_running]
    · simp [finish_running, hij]
  · rw [List.length_erase_of_mem halive, ← hlength]
    rfl
  · by_cases hij : j = i
    · subst hij
      simp [finish_running] at hs
    · rw [finish_running, Function.update_of_ne hij] at hs
      exact h.connector j s hs

/-- an abort does not destroy the lock of the connector's own thread -/
theorem Inv.abort_unbalanced {p : Process} {i : ℕ} {r : Running} (h : Inv debug p) (hi : p.running i = some r) :
    ¬ Balanced (p.finish debug i r.aborted) := by
  intro hb
  have hx := h.balanced.count (some (i, .item (.threadLock .connectorRun)))
  have hx' := hb.count (some (i, .item (.threadLock .connectorRun)))
  have hfinish := @count_finish debug _ _ _ hi r.aborted i (.item (.threadLock .connectorRun))
  have hone : r.stopped.count (.item (.threadLock .connectorRun)) =
      1 + r.aborted.count (.item (.threadLock .connectorRun)) := by
    simp only [Running.stopped, Running.threads, Running.aborted, stopThread, h.connector i r hi, if_true, List.map_append, List.map_cons,
      List.map_nil, List.count_append, List.count_singleton_self]
    omega
  rw [if_pos rfl, if_pos rfl] at hfinish
  change p.acquired.count _ = _ at hx'
  omega

/-- a stop that loses its terminate action does not free the record -/
theorem Inv.lost_unbalanced {p : Process} {i : ℕ} {r : Running} (h : Inv debug p) (hi : p.running i = some r) :
    ¬ Balanced (p.abandon i r) := by
  intro hb
  have hx := h.balanced.count (some (i, .item .record))
  have hx' := hb.count (some (i, .item .record))
  have hrecord : 0 < r.resources.count (.item .record) := by
    refine List.count_pos_iff.2 (List.mem_append_right _ (List.mem_map_of_mem ?_))
    exact List.mem_append_right _ (List.mem_singleton_self _)
  rw [held_some hi, Running.stopped, List.count_append] at hx
  rw [held_gone (Function.update_self _ _ _)] at hx'
  simp only [abandon, List.count_append, count_tagged, if_true] at hx'
  omega

/-! ## Starts -/

/-- a start that fails changes the books by what it has acquired and given back -/
theorem Inv.failed {p : Process} {t : After} (h : Inv debug p) :
    let q : Process := { p with
      next := p.next + 1
      acquired := p.acquired ++ t.acquired.map (label p.next)
      released := p.released ++ t.released.map (label p.next)
      orphans := p.orphans ++ t.running }
    (Balanced q ↔ (∀ x, t.released.count x = t.acquired.count x) ∧ t.running = []) ∧ (Balanced q → Inv debug q) := by
  intro q
  have hheld (x) : q.held x = p.held x := by cases x <;> rfl
  refine ⟨⟨fun hb => ⟨?_, ?_⟩, ?_⟩, fun hb => ?_⟩
  · apply (count_label_congr (n := p.next)).1
    intro y
    have hx := h.balanced.count y
    have hx' := hb.count y
    simp only [q, List.count_append, hheld] at hx'
    change _ = _ + p.held y at hx'
    omega
  · have := hb.orphans
    simp only [q, List.append_eq_nil_iff] at this
    exact this.2
  · rintro ⟨hc, hr⟩
    refine ⟨fun y => ?_, by simp [q, h.balanced.orphans, hr]⟩
    have hx := h.balanced.count y
    have hy := count_label_congr (n := p.next) |>.2 hc y
    rw [hheld]
    simp only [q, List.count_append]
    omega
  · exact { balanced := hb, logging := h.logging, users := h.users, connector := h.connector,
            unused := fun i hi => h.unused i (Nat.le_of_succ_le hi) }

theorem loggingLock_not_mem (c : StartConfig) : Item.loggingLock ∉ Item.record :: filledItems c := by
  simp only [filledItems, firmwareItems, threadItems, List.mem_cons, List.mem_append]
  split_ifs <;> simp

/-- the labels of what a start has acquired that succeeds -/
theorem map_label_filled (c : StartConfig) (n : ℕ) : (Item.record :: filledItems c).map (label n) =
    ((Item.record :: filledItems c).map Thing.item).map fun x => some (n, x) := by
  rw [List.map_map]
  apply List.map_congr_left
  intro x hx
  cases x <;> first | rfl | exact absurd hx (loggingLock_not_mem c)

/-- an instance that has just started is going to give back what its start has acquired -/
theorem count_stopped_filled (c : StartConfig) (hc : c.firmware.isSome = true → c.targetCount ≠ 0) (fileSystem : Bool)
    (x : Thing) : (Running.stopped ⟨filled c, fileSystem, [], []⟩).count x =
      ((Item.record :: filledItems c).map Thing.item).count x := by
  have hperm : (stopThread (filled c) .connectorRun ++ stopServices (filled c) ++
      (internalResources (filled c) ++ [Item.record])).Perm (.record :: filledItems c) := by
    rw [List.perm_iff_count]
    intro y
    have hy := count_filled c hc y
    rw [← List.append_assoc, List.count_append, hy, ← List.count_append]
    exact (List.perm_append_singleton _ _).count_eq y
  have hstopped : Running.stopped ⟨filled c, fileSystem, [], []⟩ =
      (stopThread (filled c) .connectorRun ++ stopServices (filled c) ++
        (internalResources (filled c) ++ [Item.record])).map .item := by
    simp [Running.stopped, Running.threads, Running.resources]
  rw [hstopped]
  exact (hperm.map Thing.item).count_eq x

/-- a start that succeeds holds what it has acquired -/
theorem Inv.started {p : Process} {plat : Plat} {noHandle : Bool} {handle : Handle} {start : Option StartConfig}
    {t : After} (h : Inv debug p) (hdebug : plat.debug = debug)
    (ht : ccxapiStart plat noHandle handle start p.users = (.started, t)) (fileSystem : Bool) :
    Inv debug (p.start plat noHandle handle start fileSystem) := by
  obtain ⟨c, hrecord, htargets, hacquired⟩ := ccxapiStart_started ht
  obtain ⟨alive, hnodup, hmem, hlength⟩ := h.users
  have hnone := h.unused p.next le_rfl
  have hstart : p.start plat noHandle handle start fileSystem = { p with
      users := p.users + 1
      logging := p.logging || (plat.debug && p.users = 0)
      running := Function.update p.running p.next (some ⟨filled c, fileSystem, [], []⟩)
      next := p.next + 1
      acquired := p.acquired ++ t.acquired.map (label p.next) } := by
    unfold Process.start
    rw [ht, ← hrecord]
  have hlabel : t.acquired.map (label p.next) = (if debug ∧ p.users = 0 then [none] else []) ++
      ((Item.record :: filledItems c).map Thing.item).map fun x => some (p.next, x) := by
    rw [hacquired, List.map_append, map_label_filled, hdebug]
    split_ifs <;> rfl
  have hlogging : (p.logging || (plat.debug && p.users = 0)) = debug := by
    rw [h.logging, hdebug]
    cases debug
    · rfl
    · by_cases hu : p.users = 0 <;> simp [hu]
  rw [hstart, hlabel, hlogging]
  refine { balanced := ⟨fun x => ?_, h.balanced.orphans⟩, logging := ?_, unused := fun j hj => ?_,
           users := ⟨p.next :: alive, ?_, fun j => ?_, ?_⟩, connector := fun j s hs => ?_ }
  · have hx := h.balanced.count x
    dsimp only
    simp only [List.count_append]
    rcases x with _ | ⟨j, x⟩
    · rw [count_tagged_none]
      rw [held_none, h.logging] at hx
      rw [held_none]
      cases debug
      · simpa using hx
      · by_cases hu : p.users = 0 <;> simp [hu] at hx ⊢ <;> omega
    · have hlog : (if debug ∧ p.users = 0 then [none] else [] : List (Option (ℕ × Thing))).count (some (j, x)) = 0 := by
        split_ifs <;> simp
      rw [count_tagged, hlog]
      by_cases hj : j = p.next
      · subst hj
        rw [held_gone hnone] at hx
        rw [held_some (Function.update_self _ _ _), if_pos rfl, count_stopped_filled c htargets]
        omega
      · rw [held_congr (Function.update_of_ne hj _ _), if_neg hj]
        omega
  · simp
  · have hj' : p.next + 1 ≤ j := hj
    exact (Function.update_of_ne (by omega) _ _).trans (h.unused j (by omega))
  · exact List.nodup_cons.2 ⟨fun hm => (hmem p.next).1 hm hnone, hnodup⟩
  · rw [List.mem_cons, hmem]
    by_cases hj : j = p.next
    · subst hj
      simp
    · simp [hj]
  · simp [hlength]
  · dsimp only at hs
    by_cases hj : j = p.next
    · subst hj
      rw [Function.update_self] at hs
      obtain rfl := Option.some.inj hs
      rfl
    · rw [Function.update_of_ne hj] at hs
      exact h.connector j s hs

/-! ## Entries -/

/-- the blocks of an entry at the head of a list of virtual directories -/
theorem count_stopped_dirs (r : Running) (hr : r.fileSystem = true) {k : ℕ} {l l' : List ℕ} (hl : l.Perm (k :: l'))
    (x : Thing) : (Running.stopped { r with dirs := l }).count x =
      (Running.stopped { r with dirs := l' }).count x + (dirBlocks k).count x := by
  have hperm := (hl.flatMap_right dirBlocks).count_eq x
  rw [List.flatMap_cons, List.count_append] at hperm
  simp only [Running.stopped, Running.threads, Running.resources, hr, if_true, List.count_append, hperm]
  omega

/-- the same for receive targets -/
theorem count_stopped_targets (r : Running) (hr : r.data.receiveSupported = true) {k : ℕ} {l l' : List ℕ}
    (hl : l.Perm (k :: l')) (x : Thing) : (Running.stopped { r with targets := l }).count x =
      (Running.stopped { r with targets := l' }).count x + (targetBlocks k).count x := by
  have hperm := (hl.flatMap_right targetBlocks).count_eq x
  rw [List.flatMap_cons, List.count_append] at hperm
  simp only [Running.stopped, Running.threads, Running.resources, hr, if_true, List.count_append, hperm]
  omega

/-! ## Runs -/

/-- a call that loses nothing keeps the books -/
theorem inv_call {p : Process} {o : ProcessOp} (h : Inv debug p) (he : p.ended = false) (hpolls : p.polls = false)
    (ho : ¬ Loses debug p o) : Inv debug (call debug p o) := by
  cases o with
  | start plat noHandle handle start fileSystem =>
    dsimp only [call]
    rcases ht : ccxapiStart { plat with debug := debug } noHandle handle start p.users with ⟨outcome, t⟩
    cases outcome with
    | started => exact h.started rfl ht fileSystem
    | failed s =>
      have hs : ¬ (LosesLoggingLock { plat with debug := debug } p.users ∨
          TakesRecord { plat with debug := debug } noHandle handle p.users ∧ s.givesBack plat.stale = false) := by
        intro hl
        refine ho ⟨he, hpolls, s, ?_, hl⟩
        rw [ht]
      have hfailed := h.failed (t := t)
      unfold Process.start
      rw [ht]
      exact hfailed.2 (hfailed.1.2 ((ccxapiStart_failed_iff ht).2 hs))
    | crashed =>
      unfold Process.start
      rw [ht]
      exact h.frame rfl rfl rfl rfl rfl rfl rfl
  | addDir i =>
    dsimp only [call]
    cases hi : p.running i with
    | none => exact h
    | some r =>
      simp only
      split_ifs with hr
      · exact h.enter hi rfl fun x => count_stopped_dirs r hr (List.Perm.refl _) x
      · exact h
  | removeDir i k =>
    dsimp only [call]
    cases hi : p.running i with
    | none => exact h
    | some r =>
      simp only
      split_ifs with hr
      · exact h.leave hi rfl fun x => (count_stopped_dirs r hr.1 (List.perm_cons_erase hr.2) x).symm
      · exact h
  | addTarget i =>
    dsimp only [call]
    cases hi : p.running i with
    | none => exact h
    | some r =>
      simp only
      split_ifs with hr
      · exact h.enter hi rfl fun x => count_stopped_targets r hr (List.Perm.refl _) x
      · exact h
  | removeTarget i k =>
    dsimp only [call]
    cases hi : p.running i with
    | none => exact h
    | some r =>
      simp only
      split_ifs with hr
      · exact h.leave hi rfl fun x => (count_stopped_targets r hr.1 (List.perm_cons_erase hr.2) x).symm
      · exact h
  | stop i terminate =>
    dsimp only [call]
    cases hi : p.running i with
    | none => exact h
    | some r =>
      cases terminate with
      | success => exact h.finish hi
      | refused => exact h.frame rfl rfl rfl rfl rfl rfl rfl
      | lost => exact absurd ⟨he, hpolls, by simp [hi], .inl rfl⟩ ho
      | aborted => exact absurd ⟨he, hpolls, by simp [hi], .inr rfl⟩ ho
  | abort i => exact h

/-- **Step.** What loses nothing keeps the books. -/
theorem inv_step {p : Process} {o : ProcessOp} (h : Inv debug p) (ho : ¬ Loses debug p o) : Inv debug (step debug p o) := by
  unfold step
  by_cases he : p.ended = true
  · rwa [if_pos he]
  rw [if_neg he]
  rw [Bool.not_eq_true] at he
  cases o with
  | abort i =>
    cases hi : p.running i with
    | none => simpa only [abort, hi] using h
    | some r => exact absurd ⟨he, by simp [hi]⟩ ho
  | _ =>
    dsimp only
    by_cases hpolls : p.polls = true
    · rwa [if_pos hpolls]
    · rw [if_neg hpolls]
      exact inv_call h he (Bool.eq_false_iff.2 hpolls) ho

/-- what loses something is seen in the books -/
theorem loses_unbalanced {p : Process} {o : ProcessOp} (h : Inv debug p) (ho : Loses debug p o) :
    ¬ Balanced (step debug p o) := by
  cases o with
  | start plat noHandle handle start fileSystem =>
    obtain ⟨he, hpolls, s, hs, hloses⟩ := ho
    rcases ht : ccxapiStart { plat with debug := debug } noHandle handle start p.users with ⟨outcome, t⟩
    obtain rfl : outcome = .failed s := by rw [← hs, ht]
    have hstep : step debug p (.start plat noHandle handle start fileSystem) = { p with
        next := p.next + 1
        acquired := p.acquired ++ t.acquired.map (label p.next)
        released := p.released ++ t.released.map (label p.next)
        orphans := p.orphans ++ t.running } := by
      simp only [step, he, hpolls, call, Bool.false_eq_true, if_false, Process.start, ht]
    rw [hstep]
    intro hb
    exact (ccxapiStart_failed_iff ht).1 (h.failed.1.1 hb) hloses
  | stop i terminate =>
    obtain ⟨he, hpolls, hi, hterminate⟩ := ho
    obtain ⟨r, hr⟩ := Option.ne_none_iff_exists'.1 hi
    have hstep : step debug p (.stop i terminate) = p.stop debug i r terminate := by
      simp only [step, he, hpolls, call, Bool.false_eq_true, if_false, hr]
    rw [hstep]
    rcases hterminate with rfl | rfl
    · exact h.lost_unbalanced hr
    · exact h.abort_unbalanced hr
  | abort i =>
    obtain ⟨he, hi⟩ := ho
    obtain ⟨r, hr⟩ := Option.ne_none_iff_exists'.1 hi
    have hstep : step debug p (.abort i) = p.finish debug i r.aborted := by
      simp only [step, he, Bool.false_eq_true, if_false, abort, hr]
    rw [hstep]
    exact h.abort_unbalanced hr
  | addDir i => exact ho.elim
  | removeDir i k => exact ho.elim
  | addTarget i => exact ho.elim
  | removeTarget i k => exact ho.elim

/-- **The books of a process.** Throughout a run of starts, edits, stops and aborts everything acquired has been given back
once or is held for a stop exactly when no instance aborts, no stop loses its terminate action, and no start fails in a way
that loses something. -/
theorem books_balance_iff (debug : Bool) (ops : List ProcessOp) :
    (∀ k, Balanced (run (step debug) fresh (ops.take k))) ↔ Along (step debug) (fun p o => ¬ Loses debug p o) fresh ops :=
  along_iff (fun _ h => h.balanced) (fun _ _ h ho => inv_step h ho)
    (fun _ _ h hb ho => loses_unbalanced h ho hb) inv_fresh ops

/-- **Nothing is left.** When no instance is left at the end of such a run, everything acquired has been given back, as often
as it was acquired and no more, the logging lock among them. -/
theorem all_given_back (debug : Bool) (ops : List ProcessOp)
    (hops : Along (step debug) (fun p o => ¬ Loses debug p o) fresh ops)
    (hgone : ∀ i, (run (step debug) fresh ops).running i = none) :
    (run (step debug) fresh ops).acquired.Perm (run (step debug) fresh ops).released ∧
      (run (step debug) fresh ops).users = 0 ∧ (run (step debug) fresh ops).logging = false := by
  have h : Inv debug (run (step debug) fresh ops) := run_inv (fun _ _ => inv_step) inv_fresh hops
  obtain ⟨alive, -, hmem, hlength⟩ := h.users
  have husers : (run (step debug) fresh ops).users = 0 := by
    rw [hlength, List.length_eq_zero_iff, List.eq_nil_iff_forall_not_mem]
    intro i hi
    exact (hmem i).1 hi (hgone i)
  have hlogging : (run (step debug) fresh ops).logging = false := by simp [h.logging, husers]
  refine ⟨?_, husers, hlogging⟩
  rw [List.perm_iff_count]
  intro x
  rw [h.balanced.count x]
  rcases x with _ | ⟨i, x⟩
  · simp [hlogging]
  · rw [held_gone (hgone i)]
    omega

/-- an instance with two firmware targets and a receive service, which maps two directories and adds a target -/
def wholeRun : List ProcessOp :=
  [.start (refusing .unknown) false .null (some { twoTargets with receive := true }) true, .addDir 0, .addTarget 0,
    .addDir 0, .removeDir 0 1, .stop 0 .success]

theorem wholeRun_given_back :
    (run (step true) fresh wholeRun).acquired.Perm (run (step true) fresh wholeRun).released ∧
      (run (step true) fresh wholeRun).users = 0 ∧ (run (step true) fresh wholeRun).logging = false := by
  apply all_given_back true wholeRun
  · refine ⟨?_, id, id, id, id, ?_, trivial⟩
    · rintro ⟨-, -, s, hs, -⟩
      cases hs
    · rintro ⟨-, -, -, hterminate | hterminate⟩ <;> cases hterminate
  · intro i
    cases i with
    | zero => rfl
    | succ i => rfl

end Process

end CcApi.Instance
