/-
What a failed start leaves behind (`ccxapi_start` and `free_ccapi_data_internal_resources` of `ccapi_init.c`).

`GivenBack` compares, item by item, what the call acquired with what it gave back: nothing is left, nothing is given back
twice, and nothing that was not acquired.

- `fillRecord_given_back`: at which failures of a start that has its record that comparison comes out even
  (`Site.givesBack`): up to the condition of the TCP transport when the record's memory happened to have NULL in its place,
  except where the copying of the firmware targets' strings breaks off or a lock is lost; and in two cases behind it.
- `leaves_nothing_iff`: with the handle counted in, a failed start leaves nothing behind exactly when it fails before it
  has its record. Behind that point the caller's handle keeps the address of the released record.
-/
import CcApi.Instance.Start

namespace CcApi.Instance

open Lib Lib.Prog

/-! ## What is given back -/

/-- what was acquired has been given back once each, and nothing else; no worker runs -/
def GivenBack (log : List Item) (t : Work) : Prop :=
  (∀ x, (giveBack log t.data).count x = t.acquired.count x) ∧ t.running = []

/-- the failures at which the release comes out even -/
def Site.givesBack (stale : Bool) : Site → Bool
  | .description _ | .filespec _ | .receiveRelease | .condInit => false
  | .condAlloc | .threadInfo .connectorRun => true
  | .threadInfo _ | .threadLock _ | .createThread _ => false
  | .initiateActionCreate | .initiateActionRelease | .fileSystemCreate | .fileSystemRelease => false
  | _ => !stale

/-- the failure postcondition of every step -/
def Fails (stale : Bool) (log : List Item) (h : Halt) (t : Work) : Prop :=
  ∀ s, h = .fails s → (GivenBack log t ↔ s.givesBack stale = true)

/-- what the release makes of an unwritten `transport_tcp.cond` -/
def junk (stale : Bool) : List Item := if stale then [.unknown, .unknown] else []

/-- acquired before the condition: not a part of a thread, not the condition, nothing of the caller's -/
def Item.early : Item → Bool
  | .condition | .conditionState | .threadInfo _ | .threadLock _ => false
  | .callerDescription _ | .callerFilespec _ | .unknown => false
  | _ => true

/-- the record before the condition is allocated: the release gives back what was acquired, and the junk -/
structure Held (stale : Bool) (log : List Item) (t : Work) : Prop where
  cond : t.data.cond = if stale then some .unknown else none
  thread : t.data.thread = fun _ => none
  initiate : t.data.initiateActionLock = none
  fileSystem : t.data.fileSystemLock = none
  running : t.running = []
  early : ∀ x ∈ t.acquired, x.early = true
  count : ∀ x, (giveBack log t.data).count x = t.acquired.count x + (junk stale).count x

theorem junk_eq_zero {stale : Bool} : (∀ x, (junk stale).count x = 0) ↔ stale = false := by
  cases stale with
  | false => simp [junk]
  | true =>
    simp only [junk, if_true, Bool.true_eq_false, iff_false, not_forall]
    exact ⟨.unknown, by decide⟩

/-- a failure in front of the condition gives back what was acquired exactly if there is no junk -/
theorem Held.givenBack_iff {stale : Bool} {log : List Item} {t : Work} (h : Held stale log t) :
    GivenBack log t ↔ stale = false := by
  rw [← junk_eq_zero]
  constructor
  · intro hg x
    have := h.count x
    rw [hg.1 x] at this
    omega
  · intro hj
    refine ⟨fun x => ?_, h.running⟩
    rw [h.count x, hj x, Nat.add_zero]

theorem Held.fails {stale : Bool} {log : List Item} {t : Work} (h : Held stale log t) {s : Site}
    (hs : s.givesBack stale = !stale) : Fails stale log (.fails s) t := by
  rintro s' heq
  cases heq
  rw [h.givenBack_iff, hs, Bool.not_eq_true']

/-- a request granted or refused -/
theorem wp_request {granted : Bool} {x : Item} {s : Site} {t : Work} {Q : Unit → Work → Prop}
    {E : Halt → Work → Prop} (hQ : granted = true → Q () { t with acquired := t.acquired ++ [x] })
    (hE : granted = false → E (.fails s) t) : wp (request granted x s) Q E t := by
  unfold request
  rw [wp_ite]
  split_ifs with hg
  · exact hQ hg
  · exact hE (by simpa using hg)

/-! ## In front of the condition -/

section Early

variable {stale : Bool} {log : List Item} {t : Work} {plat : Plat}

/-- what the release counts -/
theorem count_giveBack (x : Item) (r : Record) : (giveBack log r).count x =
    (internalResources r).count x + ([.record] : List Item).count x + log.count x := by
  simp only [giveBack, List.count_append]

/-- the services' part of the record is still empty -/
structure Bare (t : Work) : Prop where
  targetItem : t.data.targetItem = none
  targets : t.data.targets = []
  receiveLock : t.data.receiveLock = none
  receive : t.data.receiveSupported = false

theorem fresh_held (hlog : ∀ x ∈ log, x.early = true) (plat : Plat) :
    Held plat.stale log ⟨Record.fresh plat.stale, log ++ [.record], []⟩ := by
  refine { cond := rfl, thread := rfl, initiate := rfl, fileSystem := rfl, running := rfl, early := ?_, count := ?_ }
  · intro x hx
    rcases List.mem_append.1 hx with hx | hx
    · exact hlog x hx
    · rw [List.mem_singleton.1 hx]
      rfl
  · intro x
    rw [count_giveBack]
    cases hs : plat.stale with
    | false => simp [internalResources, Record.fresh, given, givenCond, junk, Nat.add_comm]
    | true =>
      simp [internalResources, Record.fresh, given, givenCond, junk]
      omega

/-- an item is acquired, and a change of the record lets the release find it -/
theorem Held.store (h : Held stale log t) {x : Item} {f : Record → Record} (hx : x.early = true)
    (hcond : (f t.data).cond = t.data.cond) (hthread : (f t.data).thread = t.data.thread)
    (hinit : (f t.data).initiateActionLock = t.data.initiateActionLock)
    (hfs : (f t.data).fileSystemLock = t.data.fileSystemLock)
    (hcount : ∀ y, (internalResources (f t.data)).count y =
      (internalResources t.data).count y + ([x] : List Item).count y) :
    Held stale log { t with data := f t.data, acquired := t.acquired ++ [x] } := by
  refine { cond := hcond.trans h.cond, thread := hthread.trans h.thread, initiate := hinit.trans h.initiate,
           fileSystem := hfs.trans h.fileSystem, running := h.running, early := ?_, count := ?_ }
  · intro y hy
    rcases List.mem_append.1 hy with hy | hy
    · exact h.early y hy
    · rw [List.mem_singleton.1 hy]
      exact hx
  · intro y
    have := h.count y
    rw [count_giveBack] at this ⊢
    rw [hcount y, List.count_append]
    omega

/-- a change of the record that the release does not notice -/
theorem Held.same (h : Held stale log t) {f : Record → Record} (hcond : (f t.data).cond = t.data.cond)
    (hthread : (f t.data).thread = t.data.thread)
    (hinit : (f t.data).initiateActionLock = t.data.initiateActionLock)
    (hfs : (f t.data).fileSystemLock = t.data.fileSystemLock)
    (hcount : internalResources (f t.data) = internalResources t.data) :
    Held stale log { t with data := f t.data } := by
  refine { cond := hcond.trans h.cond, thread := hthread.trans h.thread, initiate := hinit.trans h.initiate,
           fileSystem := hfs.trans h.fileSystem, running := h.running, early := h.early, count := ?_ }
  intro y
  rw [count_giveBack, hcount, ← count_giveBack]
  exact h.count y

theorem wp_checkParams (h : Held stale log t) {Q : Unit → Work → Prop} (hQ : Q () t) (c : StartConfig) :
    wp (checkParams c) Q (Fails stale log) t := by
  unfold checkParams fail
  rw [wp_ite, wp_ite, wp_ite, wp_ite]
  split_ifs
  · exact h.fails rfl
  · exact h.fails rfl
  · exact h.fails rfl
  · exact h.fails rfl
  · exact hQ

theorem wp_copyStrings (h : Held stale log t) (hb : Bare t) (hd : t.data.deviceType = none)
    (hu : t.data.deviceCloudUrl = none) :
    wp (copyStrings plat) (fun _ u => Held stale log u ∧ Bare u) (Fails stale log) t := by
  unfold copyStrings setData
  rw [wp_bind]
  refine wp_request (fun _ => ?_) fun _ => h.fails rfl
  have h1 := h.store (x := .deviceType) (f := fun r => { r with deviceType := some .deviceType }) rfl rfl rfl rfl rfl
    fun y => by
      simp only [internalResources, List.count_append, given, hd, Option.toList_some, Option.toList_none, List.count_nil]
      omega
  rw [wp_bind, wp_modify, wp_bind]
  refine wp_request (fun _ => ?_) fun _ => h1.fails rfl
  rw [wp_modify]
  refine ⟨h1.store (x := .deviceCloudUrl) (f := fun r => { r with deviceCloudUrl := some .deviceCloudUrl }) rfl rfl rfl
    rfl rfl fun y => ?_, ?_⟩
  · simp only [internalResources, List.count_append, given, hu, Option.toList_some, Option.toList_none, List.count_nil]
    omega
  · exact ⟨hb.targetItem, hb.targets, hb.receiveLock, hb.receive⟩

/-! ## The firmware targets -/

/-- the targets when the strings of the first k of n have been copied -/
def targetsAt (n k : ℕ) : List (Option Item × Option Item) := (List.range n).map fun i =>
  if i < k then (some (.description i), some (.filespec i)) else (some (.callerDescription i), some (.callerFilespec i))

theorem targetsAt_length (n k : ℕ) : (targetsAt n k).length = n := by simp [targetsAt]

theorem targetsAt_set (n k : ℕ) :
    (targetsAt n k).set k (some (.description k), some (.filespec k)) = targetsAt n (k + 1) := by
  refine List.ext_getElem (by simp [targetsAt]) fun i hi _ => ?_
  have hin : i < n := by simpa [targetsAt] using hi
  rw [List.getElem_set]
  by_cases h : k = i
  · subst h
    simp [targetsAt]
  · simp only [h, if_false, targetsAt, List.getElem_map, List.getElem_range]
    by_cases hik : i < k
    · rw [if_pos hik, if_pos (by omega)]
    · rw [if_neg hik, if_neg (by omega)]

/-- a target that still has one of the caller's strings makes the release free it -/
theorem not_givenBack_of_caller {c : Item} (hmem : c ∈ givenTargets t.data.targets)
    (hitem : t.data.targetItem = some .targetItem) (hnot : c ∉ t.acquired) : ¬ GivenBack log t := by
  rintro ⟨hc, -⟩
  have hne : t.data.targets ≠ [] := by
    rintro h
    rw [h] at hmem
    cases hmem
  have hzero := hc c
  rw [List.count_eq_zero.2 hnot, List.count_eq_zero] at hzero
  apply hzero
  simp [giveBack, internalResources, hitem, hne, hmem]

/-- k of n targets have been copied since u -/
structure Copied (n k : ℕ) (u t : Work) : Prop where
  data : t.data = { u.data with targetItem := some .targetItem, targets := targetsAt n k }
  acquired : t.acquired = u.acquired ++ .targetItem :: (List.range k).flatMap fun i => [.description i, .filespec i]
  running : t.running = u.running

theorem Copied.early {n k : ℕ} {u : Work} (h : Copied n k u t) (hu : Held stale log u) :
    ∀ x ∈ t.acquired, x.early = true := by
  intro x hx
  rw [h.acquired] at hx
  rcases List.mem_append.1 hx with hx | hx
  · exact hu.early x hx
  · rcases List.mem_cons.1 hx with rfl | hx
    · rfl
    · obtain ⟨i, -, hi⟩ := List.mem_flatMap.1 hx
      simp only [List.mem_cons, List.not_mem_nil, or_false] at hi
      rcases hi with rfl | rfl <;> rfl

/-- one target's strings; a failure leaves one of the caller's in the record -/
theorem wp_copyTarget {n k : ℕ} {u : Work} (hk : k < n) (hu : Held stale log u) (h : Copied n k u t) :
    wp (copyTarget plat k) (fun _ v => Copied n (k + 1) u v) (Fails stale log) t := by
  have hearly := h.early hu
  have hget : (targetsAt n k).get ⟨k, by rw [targetsAt_length]; exact hk⟩ =
      (some (.callerDescription k), some (.callerFilespec k)) := by simp [targetsAt]
  unfold copyTarget setData
  rw [wp_bind]
  refine wp_request (fun _ => ?_) fun _ => ?_
  · rw [wp_bind, wp_modify, wp_bind]
    refine wp_request (fun _ => ?_) fun _ => ?_
    · rw [wp_modify]
      refine ⟨?_, ?_, h.running⟩
      · simp only [h.data, List.set_set, targetsAt_set n k]
      · simp only [h.acquired, List.range_succ, List.flatMap_append, List.flatMap_cons, List.flatMap_nil,
          List.append_assoc, List.cons_append, List.nil_append]
    · rintro s heq
      cases heq
      refine iff_of_false (not_givenBack_of_caller (c := .callerFilespec k) ?_ ?_ ?_) (by simp [Site.givesBack])
      · refine List.mem_flatMap.2 ⟨(some (.description k), some (.callerFilespec k)), ?_, by simp [given]⟩
        simp only [h.data]
        exact List.mem_set (by rw [targetsAt_length]; exact hk) _
      · simp only [h.data]
      · intro hmem
        rcases List.mem_append.1 hmem with hmem | hmem
        · have := hearly _ hmem
          cases this
        · simp at hmem
  · rintro s heq
    cases heq
    refine iff_of_false (not_givenBack_of_caller (c := .callerDescription k) ?_ ?_ ?_) (by simp [Site.givesBack])
    · refine List.mem_flatMap.2 ⟨(some (.callerDescription k), some (.callerFilespec k)), ?_, by simp [given]⟩
      rw [h.data, ← hget]
      exact List.getElem_mem _
    · rw [h.data]
    · intro hmem
      have := hearly _ hmem
      cases this

/-- the loop over the targets; the induction is on how many are left -/
theorem wp_copyTargets {n : ℕ} {u : Work} (hu : Held stale log u) (m k : ℕ) (hm : k + m = n) (h : Copied n k u t) :
    wp (copyTargets plat (List.range' k m)) (fun _ v => Copied n n u v) (Fails stale log) t := by
  induction m generalizing k t with
  | zero =>
    obtain rfl : k = n := by omega
    exact h
  | succ m ih =>
    rw [List.range'_succ]
    unfold copyTargets
    rw [wp_bind]
    refine wp_mono (wp_copyTarget (by omega) hu h) (fun _ v hv => ?_) fun _ _ hE => hE
    exact ih (k + 1) (by omega) hv

theorem givenTargets_copied (n : ℕ) :
    givenTargets (targetsAt n n) = (List.range n).flatMap fun i => [.description i, .filespec i] := by
  unfold givenTargets targetsAt
  rw [List.flatMap_map]
  refine List.flatMap_congr fun i hi => ?_
  rw [if_pos (List.mem_range.1 hi)]
  rfl

theorem Copied.held {n : ℕ} {u : Work} (h : Copied n n u t) (hn : n ≠ 0) (hu : Held stale log u) (hb : Bare u) :
    Held stale log t := by
  refine { cond := ?_, thread := ?_, initiate := ?_, fileSystem := ?_, running := h.running.trans hu.running,
           early := h.early hu, count := fun x => ?_ }
  · rw [h.data]; exact hu.cond
  · rw [h.data]; exact hu.thread
  · rw [h.data]; exact hu.initiate
  · rw [h.data]; exact hu.fileSystem
  · have hx := hu.count x
    rw [count_giveBack] at hx ⊢
    rw [h.acquired, h.data]
    have hne : targetsAt n n ≠ [] := by
      intro he
      have := targetsAt_length n n
      rw [he] at this
      exact hn this.symm
    simp only [internalResources, hb.targets, hb.targetItem, hu.thread, List.count_append, given, Option.toList_some,
      Option.toList_none, List.count_nil, List.length_nil, targetsAt_length, ne_eq, hn, not_true, not_false_eq_true,
      decide_true, decide_false, Option.isSome_some, Option.isSome_none, Bool.and_self, if_true,
      Bool.false_eq_true, if_false, givenTargets_copied, List.count_cons] at hx ⊢
    omega

/-! ## The other services -/

/-- the receive service's part of the record is still empty -/
structure NoReceive (t : Work) : Prop where
  lock : t.data.receiveLock = none
  supported : t.data.receiveSupported = false

theorem wp_firmwareService (h : Held stale log t) (hb : Bare t) (f : FirmwareService) :
    wp (firmwareService plat f) (fun _ u => Held stale log u ∧ NoReceive u) (Fails stale log) t := by
  unfold firmwareService
  rw [wp_ite]
  split_ifs
  · exact h.fails rfl
  · rcases f.targets with _ | _ | n
    · exact h.fails rfl
    · exact h.fails rfl
    · change wp (request (plat.malloc .targetItem) .targetItem .targetItem >>= fun _ => _) _ _ _
      rw [wp_bind]
      refine wp_request (fun _ => ?_) fun _ => h.fails rfl
      unfold setData
      rw [wp_bind, wp_modify, wp_bind]
      have hstart : Copied (n + 1) 0 t
          { t with
            data := { t.data with
              targetItem := some .targetItem
              targets := (List.range (n + 1)).map fun i => (some (.callerDescription i), some (.callerFilespec i)) }
            acquired := t.acquired ++ [.targetItem] } := by
        refine ⟨?_, by simp, rfl⟩
        simp [targetsAt]
      rw [List.range_eq_range']
      refine wp_mono (wp_copyTargets h (n + 1) 0 (Nat.zero_add _) ?_) (fun _ u hu => ?_) fun _ _ hE => hE
      · rwa [← List.range_eq_range']
      · rw [wp_modify]
        refine ⟨(hu.held n.succ_ne_zero h hb).same (f := fun r => { r with firmwareSupported := true }) rfl rfl rfl rfl
          rfl, ?_⟩
        constructor
        · simp only [hu.data]
          exact hb.receiveLock
        · simp only [hu.data]
          exact hb.receive

theorem wp_stubFirmwareService (h : Held stale log t) (hb : Bare t) (hasRciData : Bool) :
    wp (stubFirmwareService plat hasRciData) (fun _ u => Held stale log u ∧ NoReceive u) (Fails stale log) t := by
  unfold stubFirmwareService
  rw [wp_ite]
  split_ifs
  · rintro s heq
    cases heq
  · rw [wp_bind]
    refine wp_request (fun _ => ?_) fun _ => h.fails rfl
    unfold setData
    rw [wp_modify]
    refine ⟨h.store (x := .targetItem) (f := fun r => { r with
        targetItem := some .targetItem, targets := [(none, none)], firmwareSupported := true }) rfl rfl rfl rfl rfl
        fun y => ?_, hb.receiveLock, hb.receive⟩
    simp only [internalResources, hb.targets, hb.targetItem, h.thread, givenTargets, List.flatMap_cons,
      List.flatMap_nil, List.count_append, given, Option.toList_some, Option.toList_none, List.count_nil,
      List.length_cons, List.length_nil, ne_eq, not_true, decide_false, Option.isSome_some, Bool.false_and, Nat.zero_add,
      one_ne_zero, not_false_eq_true, decide_true, Bool.and_self, if_true, Bool.false_eq_true, if_false]
    omega

theorem wp_firmwareStep (h : Held stale log t) (hb : Bare t) (c : StartConfig) :
    wp (firmwareStep plat c) (fun _ u => Held stale log u ∧ NoReceive u) (Fails stale log) t := by
  unfold firmwareStep
  split
  · exact wp_firmwareService h hb _
  · exact wp_stubFirmwareService h hb _
  · exact ⟨h, hb.receiveLock, hb.receive⟩

/-- a lock whose release fails is acquired and found nowhere -/
theorem Held.lost (h : Held stale log t) {x : Item} (hx : x.early = true) :
    ¬ GivenBack log { t with acquired := t.acquired ++ [x] } := by
  rintro ⟨hc, -⟩
  have hcount := hc x
  have hheld := h.count x
  have hjunk : (junk stale).count x = 0 := by
    rw [List.count_eq_zero]
    intro hm
    cases stale with
    | false => cases hm
    | true =>
      simp only [junk, if_true, List.mem_cons, List.not_mem_nil, or_false, or_self] at hm
      rw [hm] at hx
      cases hx
  simp only [List.count_append, List.count_singleton_self] at hcount
  omega

theorem wp_receiveStep (h : Held stale log t) (hn : NoReceive t) (c : StartConfig) :
    wp (receiveStep plat c) (fun _ u => Held stale log u) (Fails stale log) t := by
  unfold receiveStep
  rw [wp_ite]
  split_ifs
  · unfold lockCreateAndRelease
    rw [wp_bind, wp_bind]
    refine wp_request (fun _ => ?_) fun _ => h.fails rfl
    rw [wp_ite]
    split_ifs
    · refine h.store (x := .receiveLock)
        (f := fun r => { r with receiveLock := some .receiveLock, receiveSupported := true }) rfl rfl rfl rfl rfl
        fun y => ?_
      simp only [internalResources, hn.supported, h.thread, List.count_append, given, Option.toList_some,
        Option.toList_none, List.count_nil, if_true, Bool.false_eq_true, if_false]
      omega
    · rintro s heq
      cases heq
      exact iff_of_false (h.lost rfl) (by simp [Site.givesBack])
  · exact h

theorem wp_cliStep (h : Held stale log t) (c : StartConfig) :
    wp (cliStep c) (fun _ u => Held stale log u) (Fails stale log) t := by
  unfold cliStep
  split
  · exact h
  · exact h.fails rfl
  · refine h.same (f := fun r => { r with cliSupported := true }) rfl rfl rfl rfl ?_
    simp [internalResources, h.thread, given]

theorem wp_smStep (h : Held stale log t) (c : StartConfig) :
    wp (smStep c) (fun _ u => Held stale log u) (Fails stale log) t := by
  unfold smStep
  split
  · exact h
  · exact h.fails rfl
  · rw [wp_ite]
    split_ifs
    · exact h
    · exact h.fails rfl

theorem wp_rciStep (h : Held stale log t) (c : StartConfig) :
    wp (rciStep c) (fun _ u => Held stale log u) (Fails stale log) t := by
  unfold rciStep
  split
  · exact h
  · exact h.fails rfl
  · refine h.same (f := fun r => { r with rciSupported := true }) rfl rfl rfl rfl ?_
    simp [internalResources, h.thread, given]

/-! ## The condition and behind it -/

/-- the condition is there: the release gives back what was acquired -/
structure Ready (log : List Item) (t : Work) : Prop where
  thread : t.data.thread = fun _ => none
  givenBack : GivenBack log t
  noThread : ∀ w, .threadInfo w ∉ t.acquired ∧ .threadLock w ∉ t.acquired

theorem Held.count_rest (h : Held stale log t) (x : Item) :
    (giveBack log { t.data with cond := none }).count x = t.acquired.count x := by
  have hx := h.count x
  rw [count_giveBack] at hx ⊢
  have hcond := h.cond
  cases stale with
  | false =>
    simp only [internalResources, hcond, Bool.false_eq_true, if_false, junk, List.count_nil] at hx ⊢
    omega
  | true =>
    simp only [internalResources, hcond, if_true, junk, givenCond, List.count_append, List.count_nil] at hx ⊢
    omega

theorem wp_connectorStep (h : Held stale log t) :
    wp (connectorStep plat) (fun _ u => Ready log u) (Fails stale log) t := by
  unfold connectorStep setData acquire
  have hrest := h.count_rest
  rw [wp_ite, wp_ite]
  split_ifs
  · exact h.fails rfl
  · rw [wp_bind, wp_modify, wp_bind, wp_modify]
    refine wp_request (fun _ => ?_) fun _ => ?_
    · refine ⟨h.thread, ⟨fun x => ?_, h.running⟩, fun w => ⟨fun hm => ?_, fun hm => ?_⟩⟩
      · have hx := hrest x
        rw [count_giveBack] at hx ⊢
        simp only [internalResources, givenCond, List.count_append, List.count_nil, List.count_cons] at hx ⊢
        omega
      · simp only [List.mem_append, List.mem_singleton, reduceCtorEq, or_false] at hm
        have := h.early _ hm
        cases this
      · simp only [List.mem_append, List.mem_singleton, reduceCtorEq, or_false] at hm
        have := h.early _ hm
        cases this
    · rintro s heq
      cases heq
      refine iff_of_false ?_ (by simp [Site.givesBack])
      rintro ⟨hc, -⟩
      have hx := hc .conditionState
      have hnone : (t.acquired ++ [Item.condition]).count .conditionState = 0 := by
        rw [List.count_eq_zero]
        intro hm
        simp only [List.mem_append, List.mem_singleton, reduceCtorEq, or_false] at hm
        have := h.early _ hm
        cases this
      rw [hnone, List.count_eq_zero] at hx
      exact hx (by simp [giveBack, internalResources, givenCond])
  · rw [wp_bind, wp_modify]
    rintro s heq
    cases heq
    exact iff_of_true ⟨hrest, h.running⟩ rfl

/-- once a worker runs, no failure gives everything back -/
theorem fails_of_running (hr : t.running ≠ []) {s : Site} (hs : s.givesBack stale = false) :
    Fails stale log (.fails s) t := by
  rintro s' heq
  cases heq
  exact iff_of_false (fun hg => hr hg.2) (by simp [hs])

/-- the first worker -/
theorem wp_connectorRun (h : Ready log t) :
    wp (createAndStartThread plat .connectorRun) (fun _ u => u.running ≠ []) (Fails stale log) t := by
  obtain ⟨hc, hr⟩ := h.givenBack
  obtain ⟨hinfo, hlock⟩ := h.noThread .connectorRun
  unfold createAndStartThread setData
  rw [wp_bind]
  refine wp_request (fun _ => ?_) fun _ => ?_
  · rw [wp_bind]
    refine wp_request (fun _ => ?_) fun _ => ?_
    · rw [wp_bind, wp_modify, wp_ite]
      split_ifs
      · rw [wp_modify]
        simp
      · rintro s heq
        cases heq
        refine iff_of_false ?_ (by simp [Site.givesBack])
        -- the thread's lock is not destroyed
        rintro ⟨hc', -⟩
        have hx := hc (.threadLock .connectorRun)
        have hx' := hc' (.threadLock .connectorRun)
        rw [count_giveBack, List.count_eq_zero.2 hlock] at hx
        rw [count_giveBack] at hx'
        simp only [internalResources, h.thread, given, List.count_append, List.count_singleton_self,
          List.count_eq_zero.2 hlock, Function.update_self] at hx hx'
        simp at hx hx'
        omega
    · rintro s heq
      cases heq
      refine iff_of_false ?_ (by simp [Site.givesBack])
      -- the thread's record is not in the instance's yet
      rintro ⟨hc', -⟩
      have hx := hc (.threadInfo .connectorRun)
      have hx' := hc' (.threadInfo .connectorRun)
      simp only [List.count_append, List.count_singleton_self] at hx'
      omega
  · rintro s heq
    cases heq
    exact iff_of_true ⟨hc, hr⟩ rfl

theorem wp_laterThread (hr : t.running ≠ []) {w : Worker} (hw : w ≠ .connectorRun) :
    wp (createAndStartThread plat w) (fun _ u => u.running ≠ []) (Fails stale log) t := by
  unfold createAndStartThread setData
  rw [wp_bind]
  refine wp_request (fun _ => ?_) fun _ => ?_
  · rw [wp_bind]
    refine wp_request (fun _ => ?_) fun _ => ?_
    · rw [wp_bind, wp_modify, wp_ite]
      split_ifs
      · rw [wp_modify]
        simp
      · refine fails_of_running ?_ rfl
        exact hr
    · refine fails_of_running ?_ rfl
      exact hr
  · refine fails_of_running hr ?_
    cases w
    · exact absurd rfl hw
    all_goals rfl

theorem wp_threadIf (hr : t.running ≠ []) {w : Worker} (hw : w ≠ .connectorRun) (c : Bool) :
    wp (threadIf plat c w) (fun _ u => u.running ≠ []) (Fails stale log) t := by
  unfold threadIf
  rw [wp_ite]
  split_ifs
  · exact wp_laterThread hr hw
  · exact hr

theorem wp_threadsStep (h : Ready log t) (c : StartConfig) :
    wp (threadsStep plat c) (fun _ u => u.running ≠ []) (Fails stale log) t := by
  unfold threadsStep
  rw [wp_bind]
  refine wp_mono (wp_connectorRun h) (fun _ u hu => ?_) fun _ _ hE => hE
  rw [wp_bind]
  refine wp_mono (wp_threadIf hu (by simp) _) (fun _ v hv => ?_) fun _ _ hE => hE
  rw [wp_bind]
  refine wp_mono (wp_threadIf hv (by simp) _) (fun _ w hw => ?_) fun _ _ hE => hE
  rw [wp_bind]
  refine wp_mono (wp_threadIf hw (by simp) _) (fun _ x hx => ?_) fun _ _ hE => hE
  exact wp_threadIf hx (by simp) _

theorem wp_lateLock (hr : t.running ≠ []) {x : Item} {create release : Site}
    (hc : create.givesBack stale = false) (hrel : release.givesBack stale = false) :
    wp (lockCreateAndRelease plat x create release) (fun _ u => u.running ≠ []) (Fails stale log) t := by
  unfold lockCreateAndRelease
  rw [wp_bind]
  refine wp_request (fun _ => ?_) fun _ => fails_of_running hr hc
  rw [wp_ite]
  split_ifs
  · exact hr
  · refine fails_of_running ?_ hrel
    exact hr

theorem wp_locksStep (hr : t.running ≠ []) :
    wp (locksStep plat) (fun _ _ => True) (Fails stale log) t := by
  unfold locksStep setData
  rw [wp_bind]
  refine wp_mono (wp_lateLock hr rfl rfl) (fun _ u hu => ?_) fun _ _ hE => hE
  rw [wp_bind, wp_modify, wp_bind]
  refine wp_mono (wp_lateLock (by exact hu) rfl rfl) (fun _ v _ => ?_) fun _ _ hE => hE
  trivial

end Early

/-! ## Main results -/

/-- **A start that has its record and fails** gives back what it acquired, and nothing else, and has no worker running,
exactly at the failures of `givesBack`. -/
theorem fillRecord_given_back (plat : Plat) (start : Option StartConfig) {log : List Item}
    (hlog : ∀ x ∈ log, x.early = true) {s : Site} {t : Work}
    (h : fillRecord plat start ⟨Record.fresh plat.stale, log ++ [.record], []⟩ = (.error (.fails s), t)) :
    GivenBack log t ↔ s.givesBack plat.stale = true := by
  have hwp : wp (fillRecord plat start) (fun _ _ => True) (Fails plat.stale log)
      ⟨Record.fresh plat.stale, log ++ [.record], []⟩ := by
    have hheld := fresh_held hlog plat
    cases start with
    | none => exact hheld.fails rfl
    | some c =>
      unfold fillRecord
      simp only [wp_bind]
      refine wp_checkParams hheld ?_ c
      refine wp_mono (wp_copyStrings hheld ⟨rfl, rfl, rfl, rfl⟩ rfl rfl) (fun _ u hu => ?_) fun _ _ hE => hE
      refine wp_mono (wp_firmwareStep hu.1 hu.2 c) (fun _ u hu => ?_) fun _ _ hE => hE
      refine wp_mono (wp_receiveStep hu.1 hu.2 c) (fun _ u hu => ?_) fun _ _ hE => hE
      refine wp_mono (wp_cliStep hu c) (fun _ u hu => ?_) fun _ _ hE => hE
      refine wp_mono (wp_smStep hu c) (fun _ u hu => ?_) fun _ _ hE => hE
      refine wp_mono (wp_rciStep hu c) (fun _ u hu => ?_) fun _ _ hE => hE
      refine wp_mono (wp_connectorStep hu) (fun _ u hu => ?_) fun _ _ hE => hE
      refine wp_mono (wp_threadsStep hu c) (fun _ u hu => ?_) fun _ _ hE => hE
      exact wp_locksStep hu
  unfold wp at hwp
  rw [h] at hwp
  exact hwp s rfl

/-- a failed call leaves nothing behind: what it acquired it has given back, once each, and nothing else; no worker runs;
the caller's handle does not designate the record -/
structure LeavesNothing (t : After) : Prop where
  givenBack : ∀ x, t.released.count x = t.acquired.count x
  stopped : t.running = []
  handle : t.handle ≠ .record

/-- the call comes to have its record -/
def TakesRecord (plat : Plat) (noHandle : Bool) (handle : Handle) (users : ℕ) : Prop :=
  (plat.debug = true → users = 0 → plat.lockCreate .loggingLock = true ∧ plat.lockRelease .loggingLock = true) ∧
    noHandle = false ∧ handle = .null ∧ plat.malloc .record = true

/-- the call creates the logging lock and fails to release it -/
def LosesLoggingLock (plat : Plat) (users : ℕ) : Prop :=
  plat.debug = true ∧ users = 0 ∧ plat.lockCreate .loggingLock = true ∧ plat.lockRelease .loggingLock = false

theorem entry_none_iff (plat : Plat) (noHandle : Bool) (handle : Handle) (users : ℕ) :
    (loggingLockUp plat users).1.or (takeRecord plat noHandle handle) = none ↔
      TakesRecord plat noHandle handle users := by
  rw [Option.or_eq_none_iff]
  unfold loggingLockUp takeRecord TakesRecord
  refine and_congr ?_ ?_
  · split_ifs with h1 h2 h3 <;> simp_all
  · split_ifs with h1 h2 h3 <;> simp_all

/-- what becomes of the logging lock when the call fails -/
theorem logging_given_back_iff (plat : Plat) (users : ℕ) :
    (∀ x, (freeLoggingResources plat users).count x = (loggingLockUp plat users).2.count x) ↔
      ¬ LosesLoggingLock plat users := by
  unfold freeLoggingResources loggingLockUp LosesLoggingLock
  by_cases hd : plat.debug = true ∧ users = 0
  · cases hc : plat.lockCreate .loggingLock with
    | false => simp [hd]
    | true =>
      cases hr : plat.lockRelease .loggingLock with
      | true => simp [hd]
      | false =>
        simp only [hd, and_self, if_true, Bool.false_eq_true, if_false, reduceCtorEq, and_false, not_true, iff_false,
          not_forall]
        exact ⟨.loggingLock, by simp⟩
  · have hnot : ¬ (plat.debug = true ∧ users = 0 ∧ plat.lockCreate .loggingLock = true ∧
        plat.lockRelease .loggingLock = false) := fun h => hd ⟨h.1, h.2.1⟩
    simp only [hd, hnot, if_false, not_false_eq_true, iff_true]
    intro x
    rw [if_neg fun h => hd ⟨h.1, h.2.1⟩]

/-- **What a failed start leaves behind.** For every configuration, every answer of the platform and every previous
contents of the record's memory: a start that fails has given everything back, and nothing else, with no worker running and
no handle on its record, exactly when it fails before it has a record and did not lose the logging lock. -/
theorem leaves_nothing_iff (plat : Plat) (noHandle : Bool) (handle : Handle) (start : Option StartConfig) (users : ℕ)
    (hh : handle ≠ .record) {s : Site} {t : After}
    (h : ccxapiStart plat noHandle handle start users = (.failed s, t)) :
    LeavesNothing t ↔ ¬ TakesRecord plat noHandle handle users ∧ ¬ LosesLoggingLock plat users := by
  rw [← entry_none_iff]
  unfold ccxapiStart at h
  dsimp only at h
  split at h
  · -- it fails before it has a record
    rename_i s' hs'
    cases h
    rw [hs', ← logging_given_back_iff]
    constructor
    · intro hl
      exact ⟨by simp, hl.givenBack⟩
    · rintro ⟨-, hl⟩
      exact ⟨hl, rfl, hh⟩
  · rename_i hs'
    rw [hs']
    refine iff_of_false (fun hl => hl.handle ?_) (by simp)
    split at h
    · cases h
    · cases h
      rfl
    · cases h

/-- a configuration with two firmware targets -/
def twoTargets : StartConfig :=
  { vendorId := 1, deviceId := List.replicate 16 1, deviceCloudUrl := some (ascii "cloud"),
    deviceType := some (ascii "device"), firmware := some ⟨true, some 2⟩, receive := false, cli := none, sm := none,
    rci := none }

/-- a release build on a platform that refuses the memory of one item -/
def refusing (x : Item) : Plat :=
  { debug := false, malloc := fun y => y ≠ x, lockCreate := fun _ => true, lockRelease := fun _ => true,
    connectorInit := true, condAlloc := true, condInit := true, createThread := fun _ => true, stale := false }

theorem no_record_clean :
    LeavesNothing (ccxapiStart (refusing .record) false .null (some twoTargets) 0).2 ↔
      ¬ TakesRecord (refusing .record) false .null 0 ∧ ¬ LosesLoggingLock (refusing .record) 0 :=
  leaves_nothing_iff (refusing .record) false .null (some twoTargets) 0 (by decide) (s := .record) rfl

/-- **The copies of the firmware targets.** When the memory for the second target's filespec is refused, the release frees
the caller's own string. -/
theorem frees_callers_string : ¬ ∀ (plat : Plat) (noHandle : Bool) (handle : Handle) (start : Option StartConfig)
    (users : ℕ) (s : Site) (t : After), handle ≠ .record →
    ccxapiStart plat noHandle handle start users = (.failed s, t) → LeavesNothing t := by
  intro h
  have hl := h (refusing (.filespec 1)) false .null (some twoTargets) 0 (.filespec 1) _ (by decide) rfl
  exact absurd (hl.givenBack (.callerFilespec 1)) (by decide)

end CcApi.Instance
