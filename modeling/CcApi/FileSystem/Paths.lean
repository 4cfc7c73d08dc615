/-
Cloud paths and the virtual directories they name (`ccapi_filesystem.c`, `ccapi_filesystem_handler.c`).

With virtual directories in the list, the first segment of a cloud path is the name of one, and the rest of the path is taken
behind its local directory. The segment is not terminated in the path, so the names are compared up to the longer of the two
lengths; what keeps a longer name from matching is that no name of the list has a '/'.

- `Mapped`: what the adding of virtual directories makes of the list, over any run of operations.
- `isNamed_iff`: the comparison finds exactly the segment's own name.
- `translates`: the translation of every path, and the buffer it is built in.
-/
import CcApi.FileSystem.Operations

namespace CcApi.FileSystem

open Lib Lib.Prog Lib.Runs

/-! ## Names -/

/-- the first segment of a path, behind its leading '/' -/
def segment (p : Str) : Str := p.takeWhile (· ≠ separator)

/-- what follows it: nothing, or a '/' and the rest -/
def behind (p : Str) : Str := p.dropWhile (· ≠ separator)

/-- a list of virtual directories that was built by adding them -/
structure Mapped (env : Env) (dirs : List VirtualDir) : Prop where
  valid : ∀ d ∈ dirs, invalidDirs env (some d.virtualDir) (some d.localDir) = false
  distinct : (dirs.map (·.virtualDir)).Nodup

theorem segment_append (p : Str) : segment p ++ behind p = p := List.takeWhile_append_dropWhile

theorem getPathWithoutVirtualDir_cons (p : Str) : getPathWithoutVirtualDir (separator :: p) = behind p := rfl

theorem head_behind (p : Str) : ∀ c ∈ (behind p).head?, c = separator := by
  intro c hc
  have hnot := List.head?_dropWhile_not (fun c => decide (c ≠ separator)) p
  rw [behind, Option.mem_def] at hc
  rw [hc] at hnot
  simpa using hnot

/-- **The comparison.** The name is compared with what follows the leading '/', up to the longer of the name and the segment. -/
theorem isNamed_iff {d : VirtualDir} {seg rest : Str} (hname : separator ∉ d.virtualDir)
    (hd : d.virtualDir.length < 2 ^ 32) (hseg : seg.length < 2 ^ 32) (hrest : ∀ c ∈ rest.head?, c = separator) :
    d.isNamed (seg ++ rest) seg.length = true ↔ d.virtualDir = seg := by
  have hmax : u32 (max d.virtualDir.length (u32 seg.length)) = max d.virtualDir.length seg.length := by
    rw [u32_eq hseg, u32_eq (max_lt hd hseg)]
  rw [VirtualDir.isNamed, strncmpEq, hmax, decide_eq_true_iff, List.take_of_length_le (le_max_left _ _)]
  constructor
  · intro heq
    rcases le_or_gt d.virtualDir.length seg.length with hle | hlt
    · rw [max_eq_right hle, List.take_left] at heq
      exact heq
    · -- a longer name would have the '/' or the end of the path in the place of one of its characters
      rw [max_eq_left hlt.le, List.take_append] at heq
      cases rest with
      | nil =>
        have hlen := congrArg List.length heq
        simp at hlen
        omega
      | cons c rest =>
        have hc : c = separator := hrest c rfl
        obtain ⟨k, hk⟩ := Nat.exists_eq_add_of_lt hlt
        refine absurd ?_ hname
        rw [heq, hc, hk]
        simp [Nat.add_assoc]
  · rintro rfl
    rw [max_self, List.take_left]

/-! ## The list over runs -/

theorem mapped_nil (env : Env) : Mapped env [] := ⟨by simp, by simp⟩

theorem Mapped.eraseP {env : Env} {dirs : List VirtualDir} (h : Mapped env dirs) (f : VirtualDir → Bool) :
    Mapped env (dirs.eraseP f) :=
  ⟨fun d hd => h.valid d (List.mem_of_mem_eraseP hd), (List.eraseP_sublist.map _).nodup h.distinct⟩

/-- a name that is not found is new -/
theorem findDir_none {v : Str} {dirs : List VirtualDir} (h : findDir v v.length dirs = none) :
    ∀ d ∈ dirs, d.virtualDir ≠ v := by
  rintro d hd rfl
  have hnot := List.find?_eq_none.1 h d hd
  simp [VirtualDir.isNamed, strncmpEq] at hnot

theorem Mapped.cons {env : Env} {dirs : List VirtualDir} (h : Mapped env dirs) {d : VirtualDir}
    (hvalid : invalidDirs env (some d.virtualDir) (some d.localDir) = false)
    (hnew : findDir d.virtualDir d.virtualDir.length dirs = none) : Mapped env (d :: dirs) := by
  refine ⟨fun x hx => ?_, List.nodup_cons.2 ⟨fun hx => ?_, h.distinct⟩⟩
  · rcases List.mem_cons.1 hx with rfl | hx
    · exact hvalid
    · exact h.valid x hx
  · obtain ⟨x, hx, hname⟩ := List.mem_map.1 hx
    exact findDir_none hnew x hx hname

section
variable {env : Env} {s : St} {dirs : List VirtualDir}

theorem wp_callUntilDone_dirs {c : Call} {fuel ctx : ℕ} {t : Service} (h : t.virtualDirList = dirs) :
    wp (callUntilDone env c fuel ctx) (fun _ u => u.virtualDirList = dirs) (fun _ u => u.virtualDirList = dirs) t := by
  induction fuel generalizing ctx t with
  | zero => exact h
  | succ fuel ih =>
    simp only [callUntilDone, ccimpCall, now, run_emit, wp_bind, wp_get, wp_pure, wp_modify, wp_ite]
    split_ifs
    · exact ih h
    · exact h

theorem wp_lockedCall_dirs (c : Call) (h : s.svc.virtualDirList = dirs) :
    wp (lockedCall env c) (fun _ t => t.svc.virtualDirList = dirs) (fun _ t => t.svc.virtualDirList = dirs) s := by
  unfold lockedCall
  rw [wp_bind]
  refine wp_lockAcquire_cases h (fun t ht => ?_) fun st hst t ht => ?_
  · have hdirs : t.svc.virtualDirList = dirs := by rw [ht, Service.emitted_dirs, h]
    rw [if_pos rfl, wp_bind, wp_onService, wp_bind, wp_get]
    refine wp_mono (wp_callUntilDone_dirs hdirs) (fun a u hu => ?_) fun _ _ hu => hu
    rw [wp_bind, assertMsgRelease]
    cases env.debug with
    | true =>
      rw [if_pos rfl, wp_bind, run_lockRelease]
      exact hu
    | false => exact hu
  · rw [if_neg hst, wp_pure, ht, Service.emitted_dirs, h]

/-- a new entry has the names it was asked with -/
theorem wp_createVirtualDirEntry_dirs (v l : Str) {t : Service} (h : t.virtualDirList = dirs) :
    wp (createVirtualDirEntry env v l)
      (fun d u => u.virtualDirList = dirs ∧ ∀ x ∈ d, x.virtualDir = v ∧ x.localDir = l)
      (fun _ u => u.virtualDirList = dirs) t := by
  unfold createVirtualDirEntry
  rw [wp_bind, run_malloc]
  split_ifs
  · dsimp only
    rw [wp_bind, run_malloc]
    split_ifs
    · dsimp only
      rw [wp_bind, run_malloc]
      split_ifs
      · refine ⟨h, fun x hx => ?_⟩
        cases hx
        exact ⟨rfl, rfl⟩
      · dsimp only
        rw [wp_bind, run_free]
        split
        · rw [wp_bind, run_free]
          split
          · exact ⟨h, by simp⟩
          · exact h
        · exact h
    · dsimp only
      rw [wp_bind, run_free]
      split
      · exact ⟨h, by simp⟩
      · exact h
  · exact ⟨h, by simp⟩

/-- an adding keeps the list, or puts a name in front that was not in it -/
theorem wp_addVirtualDir_mapped (stopped : Bool) (v l : Option Str) (h : Mapped env s.svc.virtualDirList) :
    wp (addVirtualDir env stopped v l) (fun _ t => Mapped env t.svc.virtualDirList)
      (fun _ t => Mapped env t.svc.virtualDirList) s := by
  refine wp_addVirtualDir (fun hpass => ?_) fun _ _ => h
  simp only [passesChecks, Bool.and_eq_true, Bool.not_eq_true'] at hpass
  obtain ⟨⟨⟨hvalid, -⟩, -⟩, hnew⟩ := hpass
  have hv : ∃ v' l', v = some v' ∧ l = some l' := by
    cases v <;> cases l <;> simp [invalidDirs] at hvalid ⊢
  obtain ⟨v, l, rfl, rfl⟩ := hv
  simp only [Option.getD_some, Option.isNone_iff_eq_none] at hnew
  simp only [mapVirtualDir, pathIsADir, getDirEntryStatus, wp_bind, wp_pure, Option.getD_some]
  refine wp_mono (wp_lockedCall_dirs _ rfl) (fun a t ht => ?_) fun _ t ht => by rwa [ht]
  rw [wp_ite]
  split_ifs
  · rw [wp_bind, wp_onService]
    refine wp_mono (wp_createVirtualDirEntry_dirs v l ht) ?_ fun _ u hu => by rwa [hu]
    rintro (_ | d) u ⟨hu, hd⟩
    · rw [wp_pure]
      simpa [hu] using h
    · obtain ⟨hdv, hdl⟩ := hd d rfl
      have hcons : Mapped env (d :: s.svc.virtualDirList) := h.cons (by rwa [hdv, hdl]) (by rwa [hdv])
      dsimp only
      rw [addVirtualDirEntry, wp_bind]
      refine wp_lockAcquire_cases (by simpa [hu] using h) (fun w hw => ?_) fun st hst w hw => ?_
      · rw [if_pos rfl, wp_bind, wp_onService, wp_modify, wp_bind, run_lockRelease, wp_pure]
        simpa [hw, hu] using hcons
      · rw [if_neg hst, wp_pure, hw]
        simpa [hu] using h
  · rw [wp_pure, ht]
    exact h

theorem wp_freeDir_dirs (d : VirtualDir) {t : Service} (h : t.virtualDirList = dirs) :
    wp (freeDir env d) (fun _ u => u.virtualDirList = dirs) (fun _ u => u.virtualDirList = dirs) t := by
  simp only [freeDir, wp_bind, run_free]
  split
  · split
    · split <;> exact h
    · exact h
  · exact h

theorem wp_removeVirtualDir_mapped (stopped : Bool) (v : Option Str) (h : Mapped env s.svc.virtualDirList) :
    wp (removeVirtualDir env stopped v) (fun _ t => Mapped env t.svc.virtualDirList)
      (fun _ t => Mapped env t.svc.virtualDirList) s := by
  unfold removeVirtualDir
  rw [wp_ite, wp_ite]
  split_ifs
  · exact h
  · exact h
  · cases v with
    | none => exact h
    | some v =>
      dsimp only
      rw [wp_ite]
      split_ifs
      · exact h
      · rw [wp_bind]
        refine wp_lockAcquire_cases h (fun t ht => ?_) fun st hst t ht => ?_
        · simp only [if_true, wp_bind, wp_onService, unlinkDir, wp_get, wp_modify, wp_pure, run_lockRelease, ht]
          have herased := h.eraseP (·.isNamed v v.length)
          cases findDir v v.length (s.svc.emitted (.acquire .ok)).virtualDirList with
          | none => exact herased
          | some d =>
            dsimp only
            rw [wp_bind, wp_onService]
            refine wp_mono (wp_freeDir_dirs d rfl) (fun _ u hu => ?_) fun _ u hu => ?_
            · rw [wp_pure, hu]
              exact herased
            · rw [hu]
              exact herased
        · rw [if_neg hst, wp_pure, ht]
          exact h

theorem wp_filesystemHandler_dirs (hs : Tidy s.svc) (r : Request) :
    wp (filesystemHandler env r) (fun _ t => t.svc.virtualDirList = s.svc.virtualDirList)
      (fun _ t => t.svc.virtualDirList = s.svc.virtualDirList) s := by
  unfold filesystemHandler
  rw [wp_bind]
  refine wp_lockAcquire_cases rfl (fun t ht => ?_) fun st hst t ht => ?_
  · rw [if_pos rfl, wp_bind, wp_onService, ht]
    refine wp_mono (serve_effects (hs.emitted _) r) (fun x u hu => ?_) fun _ u hu => hu.dirs
    rw [wp_bind, run_lockRelease, wp_pure]
    exact hu.1.dirs
  · rw [if_neg hst, wp_pure, ht, Service.emitted_dirs]

theorem exec_mapped (hs : Tidy s.svc) (h : Mapped env s.svc.virtualDirList) (o : Op) :
    wp (o.exec env) (fun _ t => Mapped env t.svc.virtualDirList) (fun _ t => Mapped env t.svc.virtualDirList) s := by
  have hlocked (c : Call) : wp (lockedCall env c) (fun _ t => Mapped env t.svc.virtualDirList)
      (fun _ t => Mapped env t.svc.virtualDirList) s :=
    wp_mono (wp_lockedCall_dirs c rfl) (fun _ t ht => by rwa [ht]) fun _ t ht => by rwa [ht]
  cases o with
  | openFile p f =>
    simp only [Op.exec, FileSystem.openFile, wp_bind, wp_pure]
    exact hlocked (.fileOpen p f)
  | readFile p n =>
    simp only [Op.exec, FileSystem.readFile, wp_bind, wp_pure]
    exact hlocked (.fileRead p n)
  | closeFile p =>
    simp only [Op.exec, FileSystem.closeFile, wp_bind, wp_pure]
    exact hlocked (.fileClose p)
  | getDirEntryStatus p =>
    simp only [Op.exec, FileSystem.getDirEntryStatus, wp_bind, wp_pure]
    exact hlocked (.dirEntryStatus p)
  | addVirtualDir stopped v l =>
    simp only [Op.exec, wp_bind, wp_pure]
    exact wp_addVirtualDir_mapped stopped v l h
  | removeVirtualDir stopped v =>
    simp only [Op.exec, wp_bind, wp_pure]
    exact wp_removeVirtualDir_mapped stopped v h
  | handler r =>
    simp only [Op.exec, wp_bind, wp_pure]
    exact wp_mono (wp_filesystemHandler_dirs hs r) (fun _ t ht => by rwa [ht]) fun _ t ht => by rwa [ht]

end

/-- **Step lemma.** -/
theorem mapped_step {env : Env} (x : Run) (o : Op) (h : Tidy x.st.svc ∧ Mapped env x.st.svc.virtualDirList) :
    Tidy (x.step env o).st.svc ∧ Mapped env (x.step env o).st.svc.virtualDirList := by
  refine ⟨tidy_step x o h.1, ?_⟩
  cases hx : x.stuck with
  | some e =>
    have hstep : x.step env o = x := by simp [Run.step, hx]
    rw [hstep]
    exact h.2
  | none =>
    refine Run.step_of_wp (P := fun y => Mapped env y.st.svc.virtualDirList) hx ?_
    exact exec_mapped h.1 h.2 o

/-- every list of virtual directories that a run makes -/
theorem mapped_run (env : Env) (ops : List Op) :
    Mapped env (run (Run.step env) (Run.start St.fresh) ops).st.svc.virtualDirList :=
  (run_inv_all (I := fun x : Run => Tidy x.st.svc ∧ Mapped env x.st.svc.virtualDirList) mapped_step
    ⟨tidy_fresh, mapped_nil env⟩ ops).2

/-! ## The buffer -/

/-- what is asked for, from the length that `create_virtual_dir_entry` stored: the lengths of two strings in memory and one
more fit into a `size_t` -/
def translatedSize (d : VirtualDir) (rest : Str) : ℕ := d.localDir.length + rest.length + 1

/-- the two `memcpy` into the new block and its terminator -/
def copyTranslated (b : ℕ) (d : VirtualDir) (rest : Str) (h : Heap) : Heap :=
  let h := h.write b 0 d.localDir.length fun i => d.localDir.getD i 0
  let h := h.write b d.localDir.length rest.length fun i => rest.getD i 0
  h.write b (d.localDir.length + rest.length) 1 fun _ => 0

/-- a block holds a string, and what it was asked with is exactly enough: every byte of it is written, and none behind it -/
structure Exact (b size : ℕ) (path : Str) (h h' : Heap) : Prop where
  bytes : h'.read b size = path ++ [0]
  behind : ∀ i, size ≤ i → h'.mem b i = h.mem b i
  others : ∀ b', b' ≠ b → h'.mem b' = h.mem b'

theorem copyTranslated_exact (b : ℕ) (d : VirtualDir) (rest : Str) (h : Heap) :
    Exact b (translatedSize d rest) (d.localDir ++ rest) h (copyTranslated b d rest h) := by
  refine ⟨?_, fun i hi => ?_, fun b' hb => ?_⟩
  · have hnul := Heap.read_append b (d.localDir.length + rest.length) [0]
      ((h.write b 0 d.localDir.length fun i => d.localDir.getD i 0).write b d.localDir.length rest.length
        fun i => rest.getD i 0)
    rw [Heap.read_append b d.localDir.length rest] at hnul
    have hlocal := Heap.read_append b 0 d.localDir h
    rw [Nat.zero_add] at hlocal
    have hzero : (fun i => ([0] : Str).getD i 0) = fun _ => 0 := by
      funext i
      cases i <;> rfl
    rw [hlocal, hzero] at hnul
    exact hnul
  · simp only [translatedSize] at hi
    simp only [copyTranslated, Heap.write, Function.update_self]
    rw [if_neg (by omega), if_neg (by omega), if_neg (by omega)]
  · simp [copyTranslated, Heap.write, Function.update_of_ne hb]

/-! ## Main results -/

/-- the translation of the path '/' ++ p; the entry of the segment's name is the only one that is used -/
structure Translates (env : Env) (s : Service) (p : Str) : Prop where
  unmapped : s.virtualDirList = [] →
    getLocalPathFromCloudPath env (separator :: p) s = (.ok (some ⟨separator :: p, none⟩), s)
  mapped : env.malloc s.events.length = true → ∀ d ∈ s.virtualDirList, d.virtualDir = segment p →
    getLocalPathFromCloudPath env (separator :: p) s =
      (.ok (some ⟨d.localDir ++ behind p, some s.next⟩), s.alloc (.path (d.localDir ++ behind p)))
  missing : s.virtualDirList ≠ [] → (∀ d ∈ s.virtualDirList, d.virtualDir ≠ segment p) →
    getLocalPathFromCloudPath env (separator :: p) s = (.ok none, s)
  buffer : ∀ d ∈ s.virtualDirList, d.virtualDir = segment p → ∀ b h,
    Exact b (translatedSize d (behind p)) (d.localDir ++ behind p) h (copyTranslated b d (behind p) h)

/-- names within the build's limits -/
theorem Mapped.names {env : Env} {dirs : List VirtualDir} (h : Mapped env dirs) (hroom : 5 ≤ env.maxPathLength)
    (hsmall : env.maxPathLength < 2 ^ 32) {d : VirtualDir} (hd : d ∈ dirs) :
    separator ∉ d.virtualDir ∧ d.virtualDir.length < 2 ^ 32 := by
  have hvalid := h.valid d hd
  simp only [invalidDirs, Bool.or_eq_false_iff, decide_eq_false_iff_not, sizeSub_eq hroom (by omega), not_lt] at hvalid
  obtain ⟨⟨⟨⟨-, -⟩, hsep⟩, -⟩, hlen⟩ := hvalid
  exact ⟨hsep, by omega⟩

/-- the search compares for equality, and finds the only entry of a name -/
theorem Mapped.findDir {env : Env} {dirs : List VirtualDir} (h : Mapped env dirs) (hroom : 5 ≤ env.maxPathLength)
    (hsmall : env.maxPathLength < 2 ^ 32) {p : Str} (hp : (segment p).length < 2 ^ 32) (d : VirtualDir) :
    findDir p (segment p).length dirs = some d ↔ d ∈ dirs ∧ d.virtualDir = segment p := by
  have hnamed : ∀ x ∈ dirs, x.isNamed p (segment p).length = true ↔ x.virtualDir = segment p := by
    intro x hx
    obtain ⟨hsep, hlen⟩ := h.names hroom hsmall hx
    have hiff := @isNamed_iff x _ (behind p) hsep hlen hp (head_behind p)
    rwa [segment_append] at hiff
  constructor
  · intro hfind
    have hmem := List.mem_of_find?_eq_some hfind
    exact ⟨hmem, (hnamed d hmem).1 (List.find?_some hfind)⟩
  · rintro ⟨hmem, hname⟩
    cases hfind : FileSystem.findDir p (segment p).length dirs with
    | none => exact absurd ((hnamed d hmem).2 hname) (List.find?_eq_none.1 hfind d hmem)
    | some x =>
      have hx := List.mem_of_find?_eq_some hfind
      have hxname := (hnamed x hx).1 (List.find?_some hfind)
      rw [List.inj_on_of_nodup_map h.distinct hx hmem (hxname.trans hname.symm)]

/-- **Cloud paths.** Over every run of operations, for every path that starts with a '/': without virtual directories the
local path is the cloud path; with them it is the local directory of the one whose name is the first segment, with the rest
of the path, in a buffer that is just large enough; and there is none when no virtual directory has that name. -/
theorem translates (env : Env) (hroom : 5 ≤ env.maxPathLength) (hsmall : env.maxPathLength < 2 ^ 32) (ops : List Op) (p : Str)
    (hp : (segment p).length < 2 ^ 32) : Translates env (run (Run.step env) (Run.start St.fresh) ops).st.svc p := by
  have hmapped := mapped_run env ops
  generalize (run (Run.step env) (Run.start St.fresh) ops).st.svc = s at hmapped ⊢
  have hfind := hmapped.findDir hroom hsmall hp
  have hlen : (separator :: p).length - (getPathWithoutVirtualDir (separator :: p)).length - 1 = (segment p).length := by
    have hsum := congrArg List.length (segment_append p)
    rw [List.length_append] at hsum
    rw [getPathWithoutVirtualDir_cons, List.length_cons]
    omega
  have hlocal (hdirs : s.virtualDirList ≠ []) : localPath s.virtualDirList (separator :: p) =
      (FileSystem.findDir p (segment p).length s.virtualDirList).map fun d => d.localDir ++ behind p := by
    rw [localPath, if_neg hdirs, hlen]
    rfl
  refine ⟨fun hdirs => ?_, fun hmalloc d hd hname => ?_, fun hdirs hnone => ?_, fun d _ _ b h => copyTranslated_exact b d _ h⟩
  · refine eq_of_wp ?_
    rw [run_getLocalPath, localPath, if_pos hdirs]
    exact (if_pos hdirs).mpr ⟨rfl, rfl⟩
  · have hdirs : s.virtualDirList ≠ [] := List.ne_nil_of_mem hd
    refine eq_of_wp ?_
    rw [run_getLocalPath, hlocal hdirs, (hfind d).2 ⟨hd, hname⟩, Option.map_some]
    simp only [if_neg hdirs, if_pos hmalloc, and_self]
  · have hnot : FileSystem.findDir p (segment p).length s.virtualDirList = none := by
      cases hsome : FileSystem.findDir p (segment p).length s.virtualDirList with
      | none => rfl
      | some d =>
        obtain ⟨hd, hname⟩ := (hfind d).1 hsome
        exact absurd hname (hnone d hd)
    refine eq_of_wp ?_
    rw [run_getLocalPath, hlocal hdirs, hnot]
    exact ⟨rfl, rfl⟩

/-- a directory is added, and a path below it translated -/
theorem translates_below : Translates (calm true)
    (run (Run.step (calm true)) (Run.start St.fresh) [.addVirtualDir false (some (ascii "d")) (some (ascii "/x"))]).st.svc
    (ascii "d/f") :=
  translates (calm true) (by decide) (by decide) _ _ (by decide)

end CcApi.FileSystem
