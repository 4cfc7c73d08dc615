/-
The opening of a file (`ccapi_fs_file_open`).

Behind the platform's open come two allocations, of the record that the connector takes for its handle and of the record's
copy of the path. Their failures leave by `goto done` with the status the platform's OK has set: the request is answered
continue without a handle, the platform's file stays open, and a record without a path is never freed.

- `OpenResult`: a request that is answered continue has handed out a live record, and any other one leaves nothing behind.
- `open_result_iff`: so it is, in every state a run reaches, exactly when the allocations behind a successful open and the
  release of the lock do not fail.
-/
import CcApi.FileSystem.Busy

namespace CcApi.FileSystem

open Lib Lib.Prog Lib.Runs

/-! ## What an open leaves -/

/-- a file that the platform opens -/
def Event.opens : Event → Option ℤ
  | .call (.fileOpen _ _) _ a => if a.status = .ok then some a.fileHandle else none
  | _ => none

/-- a file that the platform closes -/
def Event.closes : Event → Option ℤ
  | .call (.fileClose h) _ a => if a.status = .ok then some h else none
  | _ => none

/-- the files that were opened and not closed again -/
def leftOpen (es : List Event) : List ℤ := (es.filterMap (·.opens)).diff (es.filterMap (·.closes))

/-- the live blocks with a number from `s.next` on are error handles, or listed in K -/
def Leftover (s t : Service) (K : List ℕ) : Prop :=
  ∀ p b, s.next ≤ p → t.heap p = some b → (∃ e, b = .error e) ∨ p ∈ K

/-- block p is a live record of this open request, with the platform's handle, what the file was opened for, and a copy of the
local path that was opened -/
def Recorded (s t : Service) (d : OpenData) (p : ℕ) (path : Str) : Prop :=
  ∃ q ctx a, s.next ≤ p ∧ s.next ≤ q ∧ localPath s.virtualDirList d.path = some path ∧
    .call (.fileOpen path d.oflag) ctx a ∈ since s t ∧ a.status = .ok ∧
    t.heap p = some (.file ⟨a.fileHandle, q, openRequest d.oflag⟩) ∧ t.heap q = some (.path path)

/-- the handle in the request is such a record -/
def Delivered (s t : Service) (d d' : OpenData) : Prop := ∃ p path, d'.handle = some p ∧ Recorded s t d p path

/-- the end of an open request -/
structure OpenResult (s t : Service) (d : OpenData) (x : CallbackStatus × OpenData) : Prop where
  delivered : x.1 = .cont → Delivered s t d x.2
  undone : ¬ (x.1 = .cont ∧ Delivered s t d x.2) → leftOpen (since s t) = [] ∧ Leftover s t []

/-- the number of the platform's open, if it comes to that and the file is opened -/
def openQuestion (env : Env) (s : Service) (d : OpenData) : Option ℕ :=
  (allowedQuestion env s d.path (openRequest d.oflag)).filter fun q => (env.answer q).status = .ok

/-- a file is opened, and an allocation behind it or the lock's release fails -/
def LosesFile (env : Env) (s : St) (d : OpenData) : Prop :=
  env.acquire s.svc.events.length = .ok ∧ s.lock ≠ 0 ∧
    ∃ q ∈ openQuestion env (s.svc.emitted (.acquire .ok)) d,
      ¬ (env.malloc (q + 1) = true ∧ env.malloc (q + 2) = true ∧
        env.release (q + 3 + if s.svc.virtualDirList = [] then 0 else 1) = .ok)

/-! ## Blocks -/

section
variable {s t : Service} {K : List ℕ}

theorem Tidy.leftover (h : Tidy s) : Leftover s s [] := by
  intro p b hp hb
  rw [h.unused p hp] at hb
  cases hb

theorem Leftover.congr {u : Service} (h : Leftover s t K) (hu : u.heap = t.heap) : Leftover s u K := by
  intro p b hp hb
  rw [hu] at hb
  exact h p b hp hb

theorem Leftover.alloc (h : Leftover s t K) (b : Block) : Leftover s (t.alloc b) (t.next :: K) := by
  intro p b' hp hb
  rw [Service.alloc_heap, Function.update_apply] at hb
  split_ifs at hb with heq
  · exact Or.inr (heq ▸ List.mem_cons_self)
  · exact (h p b' hp hb).imp_right (List.mem_cons_of_mem _)

theorem Leftover.error (h : Leftover s t K) (e : ErrorHandle) : Leftover s (t.alloc (.error e)) K := by
  intro p b' hp hb
  rw [Service.alloc_heap, Function.update_apply] at hb
  split_ifs at hb
  · exact Or.inl ⟨e, (Option.some.inj hb).symm⟩
  · exact h p b' hp hb

theorem Leftover.mono {K' : List ℕ} (h : Leftover s t K) (hK : K ⊆ K') : Leftover s t K' :=
  fun p b hp hb => (h p b hp hb).imp_right fun hmem => hK hmem

/-- the local path's block is no longer left over once it is freed -/
theorem Leftover.unblocked {u : Service} {block : Option ℕ} (h : Leftover s t (K ++ block.toList))
    (hu : ∀ p, u.heap p = if block = some p then none else t.heap p) : Leftover s u K := by
  intro p b hp hb
  rw [hu] at hb
  split_ifs at hb with hblock
  refine (h p b hp hb).imp_right fun hmem => ?_
  rcases List.mem_append.1 hmem with hmem | hmem
  · exact hmem
  · exact absurd (Option.mem_toList.1 hmem) hblock

end

/-! ## Calls among the events -/

theorem leftOpen_calls (es : List Event) : leftOpen (es.filter (·.isCall)) = leftOpen es := by
  have hopens (f : Event → Option ℤ) (hf : ∀ e, e.isCall = false → f e = none) :
      (es.filter (·.isCall)).filterMap f = es.filterMap f := by
    rw [List.filterMap_filter]
    refine List.filterMap_congr fun e _ => ?_
    cases hcall : e.isCall with
    | true => rfl
    | false => simp [hf e hcall]
  have hnone : ∀ e : Event, e.isCall = false → e.opens = none ∧ e.closes = none := by
    intro e he
    cases e with
    | call c ctx a => cases he
    | _ => exact ⟨rfl, rfl⟩
  rw [leftOpen, leftOpen, hopens _ fun e he => (hnone e he).1, hopens _ fun e he => (hnone e he).2]

/-- an open is the only call of its request -/
theorem leftOpen_open {es : List Event} {path : Str} {flags ctx : ℕ} {a : Answer}
    (h : es.filter (·.isCall) = [.call (.fileOpen path flags) ctx a]) :
    leftOpen es = if a.status = .ok then [a.fileHandle] else [] := by
  rw [← leftOpen_calls, h]
  by_cases hok : a.status = .ok <;> simp [leftOpen, Event.opens, Event.closes, hok]

theorem leftOpen_quiet {k : ℕ} {s t : Service} (h : Behind k s t) : leftOpen (since s t) = [] := by
  obtain ⟨es, hes, -, hquiet⟩ := h
  rw [since_eq hes, ← leftOpen_calls, filter_isCall_of_quiet hquiet]
  rfl

/-- the calls of a request that asks once -/
theorem calls_once {env : Env} {s t u : Service} {c : Call} {k j : ℕ} (h : Behind k s t) (hu : Behind j (t.called env c) u) :
    (since s u).filter (·.isCall) = [.call c t.impContext (env.answer t.events.length)] := by
  obtain ⟨pre, hpre, -, hquiet⟩ := h
  obtain ⟨post, hpost, -, hquiet'⟩ := hu
  have hevents : u.events = s.events ++ (pre ++ [.call c t.impContext (env.answer t.events.length)] ++ post) := by
    rw [hpost, Service.called_events, hpre]
    simp
  rw [since_eq hevents, List.filter_append, List.filter_append, filter_isCall_of_quiet hquiet,
    filter_isCall_of_quiet hquiet']
  rfl

/-! ## The request -/

section
variable {env : Env} {s : Service} {E : Fault → Service → Prop}

theorem run_newFileHandle {Q : OpenData → Service → Prop} (path : Str) (handle : ℤ) (request : FsRequest) (d : OpenData) :
    wp (newFileHandle env path handle request d) Q E s ↔
      if env.malloc s.events.length then
        if env.malloc (s.events.length + 1) then
          Q { d with handle := some s.next }
            (((s.alloc (.file ⟨handle, 0, request⟩)).alloc (.path path)).stored s.next (.file ⟨handle, s.next + 1, request⟩))
        else Q d ((s.alloc (.file ⟨handle, 0, request⟩)).emitted (.malloc false))
      else Q d (s.emitted (.malloc false)) := by
  rw [newFileHandle, wp_bind, run_malloc]
  cases env.malloc s.events.length with
  | false => exact Iff.rfl
  | true =>
    simp only [if_true]
    rw [wp_bind, run_malloc]
    have hlen : (s.alloc (.file ⟨handle, 0, request⟩)).events.length = s.events.length + 1 := by simp
    rw [hlen]
    cases env.malloc (s.events.length + 1) <;> exact Iff.rfl

/-- what an open leaves when the platform does not open the file -/
structure Unopened (s t : Service) (st : CcimpStatus) : Prop where
  status : st ≠ .ok
  events : leftOpen (since s t) = []
  blocks : Leftover s t []

/-- an error's handle is left behind, or nothing -/
theorem wp_setError_left {Q : Option ℕ → Service → Prop} {c t : Service} {K : List ℕ} {k : ℕ} (h : Behind k c t)
    (hl : Leftover s t K) (e : ErrorHandle) (errnum : Option ℕ)
    (hQ : ∀ n u, Behind (k + 1) c u → Leftover s u K → (∀ q, t.heap q ≠ none → u.heap q ≠ none) → Q n u) :
    wp (setError env e errnum) Q E t := by
  rw [run_setError]
  split_ifs
  · refine hQ _ _ ((h.emitted (e := .malloc true) rfl).congr rfl) (hl.error e) fun q hq => ?_
    rw [Service.alloc_heap, Function.update_apply]
    split_ifs
    · simp
    · exact hq
  · exact hQ _ _ (h.emitted rfl) (hl.congr rfl) fun _ hq => hq

theorem wp_freeLocalPath_left {Q : Unit → Service → Prop} {c t : Service} {k : ℕ} (h : Behind k c t) {block : Option ℕ}
    (hb : ∀ q, block = some q → t.heap q ≠ none)
    (hQ : ∀ u, Behind (k + if block = none then 0 else 1) c u →
      (∀ p, u.heap p = if block = some p then none else t.heap p) → Q () u) : wp (freeLocalPath env block) Q E t := by
  rw [run_freeLocalPath]
  cases block with
  | none => exact hQ t h fun _ => rfl
  | some q =>
    obtain ⟨b, hq⟩ := Option.ne_none_iff_exists'.1 (hb q rfl)
    simp only [hq]
    refine hQ _ ((h.emitted (e := .free q) rfl).congr rfl) fun p => ?_
    rw [Service.freed_heap, Function.update_apply]
    simp only [Option.some.injEq, eq_comm]

/-- a request that ends behind an error handle and the freeing of the local path -/
theorem wp_unopened {t : Service} {block : Option ℕ} {k : ℕ} (h : Behind k s t) (hl : Leftover s t block.toList)
    (hb : ∀ q, block = some q → t.heap q ≠ none) (e : ErrorHandle) (errnum : Option ℕ) (f : Option ℕ → OpenData) :
    wp (do
      let n ← setError env e errnum
      freeLocalPath env block
      return ((CcimpStatus.error, f n) : CcimpStatus × OpenData)) (fun x u => Unopened s u x.1) E t := by
  rw [wp_bind]
  refine wp_setError_left h hl e errnum fun n u hu hlu hlive => ?_
  rw [wp_bind]
  refine wp_freeLocalPath_left hu (fun q hq => hlive q (hb q hq)) fun v hv hheap => ?_
  exact ⟨by simp, leftOpen_quiet hv, Leftover.unblocked hlu hheap⟩

/-- the end of a served open: it did not come to an open file, or the allocations behind it decide -/
def Opens (env : Env) (s : Service) (d : OpenData) (x : CcimpStatus × OpenData) (t : Service) : Prop :=
  match openQuestion env s d with
  | none => Unopened s t x.1
  | some q => x.1 = .ok ∧ leftOpen (since s t) ≠ [] ∧
      if env.malloc (q + 1) = true ∧ env.malloc (q + 2) = true then
        Delivered s t d x.2 ∧ t.events.length = q + 3 + if s.virtualDirList = [] then 0 else 1
      else ¬ Delivered s t d x.2

theorem opens_of_none {d : OpenData} {x : CcimpStatus × OpenData} {t : Service} (hq : openQuestion env s d = none)
    (h : Unopened s t x.1) : Opens env s d x t := by
  rw [Opens, hq]
  exact h

/-- a path is translated: what its block holds, and that it is this request's -/
theorem wp_getLocalPath_left {Q : Option LocalPath → Service → Prop} (hs : Tidy s) (cloud : Str)
    (hnone : ∀ k t, Behind k s t → Leftover s t [] → pathQuestion env s cloud = none → Q none t)
    (hsome : ∀ l k t, Behind k s t → Leftover s t l.block.toList → localPath s.virtualDirList cloud = some l.path →
      pathQuestion env s cloud = some t.events.length → (∀ q, l.block = some q → t.heap q ≠ none ∧ q < t.next) →
      ((if l.block = none then 0 else 1) = if s.virtualDirList = [] then 0 else 1) → s.next ≤ t.next → Q (some l) t) :
    wp (getLocalPathFromCloudPath env cloud) Q E s := by
  rw [run_getLocalPath]
  cases hpath : localPath s.virtualDirList cloud with
  | none => exact hnone 0 s (Behind.refl s) hs.leftover (by simp [pathQuestion, hpath])
  | some path =>
    dsimp only
    split_ifs with hdirs hmalloc
    · refine hsome _ 0 s (Behind.refl s) hs.leftover hpath ?_ (by simp) (by simp [hdirs]) le_rfl
      rw [pathQuestion, if_neg (by simp [hpath]), if_pos hdirs]
    · refine hsome _ 1 _ (((Behind.refl s).emitted (e := .malloc true) rfl).congr rfl) (hs.leftover.alloc _) hpath ?_ ?_
        (by simp [hdirs]) (Nat.le_succ _)
      · simp [pathQuestion, hpath, hdirs, hmalloc]
      · rintro q ⟨⟩
        simp
    · exact hnone 1 _ ((Behind.refl s).emitted rfl) (hs.leftover.congr rfl) (by simp [pathQuestion, hpath, hdirs, hmalloc])

/-- what stands behind the platform's OK: the record and its path, or not both -/
theorem wp_opened {d : OpenData} {t : Service} {l : LocalPath} {k q : ℕ} (hs : Tidy s) (h : Behind k s t)
    (hl : Leftover s t l.block.toList) (hpath : localPath s.virtualDirList d.path = some l.path)
    (hb : ∀ q, l.block = some q → t.heap q ≠ none ∧ q < t.next)
    (hn : (if l.block = none then 0 else 1) = if s.virtualDirList = [] then 0 else 1) (hnext : s.next ≤ t.next)
    (hq : openQuestion env s d = some q) (hqt : q = t.events.length) (hok : (env.answer q).status = .ok) :
    wp (do
      let d' ← newFileHandle env l.path (env.answer q).fileHandle (openRequest d.oflag) d
      freeLocalPath env l.block
      return ((CcimpStatus.ok, d') : CcimpStatus × OpenData)) (fun x u => Opens env s d x u) E
      (t.called env (.fileOpen l.path d.oflag)) := by
  subst hqt
  have hlen : (t.called env (.fileOpen l.path d.oflag)).events.length = t.events.length + 1 := by simp
  have hcalls {j : ℕ} {u : Service} (hu : Behind j (t.called env (.fileOpen l.path d.oflag)) u) := calls_once h hu
  have hleft {j : ℕ} {u : Service} (hu : Behind j (t.called env (.fileOpen l.path d.oflag)) u) :
      leftOpen (since s u) ≠ [] := by
    rw [leftOpen_open (hcalls hu), if_pos hok]
    simp
  have hne : ∀ q, l.block = some q → q ≠ t.next ∧ q ≠ t.next + 1 := fun q hq => by
    have := (hb q hq).2
    omega
  have hlost {x : CcimpStatus × OpenData} {j : ℕ} {u : Service} (hx : x.1 = .ok)
      (hu : Behind j (t.called env (.fileOpen l.path d.oflag)) u)
      (hm : ¬ (env.malloc (t.events.length + 1) = true ∧ env.malloc (t.events.length + 2) = true))
      (hnot : ¬ Delivered s u d x.2) : Opens env s d x u := by
    rw [Opens, hq]
    exact ⟨hx, hleft hu, by rwa [if_neg hm]⟩
  rw [wp_bind, run_newFileHandle, hlen]
  split_ifs with h1 h2
  · rw [wp_bind]
    refine wp_freeLocalPath_left (c := t.called env (.fileOpen l.path d.oflag)) (k := 2)
      ⟨[.malloc true, .malloc true], by simp, rfl, by simp [Event.answered]⟩ (fun q hq => ?_) fun v hv hheap => ?_
    · have := hne q hq
      simpa [Function.update_of_ne this.1, Function.update_of_ne this.2] using (hb q hq).1
    · rw [wp_pure, Opens, hq]
      refine ⟨rfl, hleft hv, ?_⟩
      rw [if_pos ⟨h1, h2⟩]
      refine ⟨⟨t.next, l.path, rfl, t.next + 1, t.impContext, env.answer t.events.length, hnext, Nat.le_succ_of_le hnext,
        hpath, ?_, hok, ?_, ?_⟩, ?_⟩
      · have hmem := List.mem_singleton_self (Event.call (.fileOpen l.path d.oflag) t.impContext (env.answer t.events.length))
        rw [← hcalls hv] at hmem
        exact (List.mem_filter.1 hmem).1
      · rw [hheap, if_neg fun hblock => (hne _ hblock).1 rfl]
        simp
      · rw [hheap, if_neg fun hblock => (hne _ hblock).2 rfl]
        simp
      · rw [hv.length, hlen, hn, ← Nat.add_assoc]
  · rw [wp_bind]
    refine wp_freeLocalPath_left (c := t.called env (.fileOpen l.path d.oflag)) (k := 2)
      ⟨[.malloc true, .malloc false], by simp, rfl, by simp [Event.answered]⟩ (fun q hq => ?_) fun v hv hheap => ?_
    · simpa [Function.update_of_ne (hne q hq).1] using (hb q hq).1
    · -- the record stays, without a path
      refine hlost rfl hv (fun hm => h2 hm.2) ?_
      rintro ⟨p, path, -, q, ctx, a, hp, hq, -, -, -, hfile, -⟩
      have hleft : Leftover s v [t.next] := by
        refine Leftover.unblocked (t := (t.called env (.fileOpen l.path d.oflag)).alloc _) ?_ hheap
        exact (hl.congr (u := t.called env (.fileOpen l.path d.oflag)) rfl).alloc _
      rcases hleft p _ hp hfile with ⟨e, he⟩ | hmem
      · cases he
      · rw [List.mem_singleton.1 hmem, hheap, if_neg fun hblock => (hne _ hblock).1 rfl] at hfile
        simp only [Service.emitted_heap, Service.alloc_heap, Service.called_next, Function.update_self, Option.some.injEq,
          Block.file.injEq, FileHandle.mk.injEq] at hfile
        have := hs.pos
        omega
  · rw [wp_bind]
    refine wp_freeLocalPath_left (c := t.called env (.fileOpen l.path d.oflag)) (k := 1)
      ⟨[.malloc false], by simp, rfl, by simp [Event.answered]⟩ (fun q hq => by simpa using (hb q hq).1) fun v hv hheap => ?_
    refine hlost rfl hv (fun hm => h1 hm.1) ?_
    rintro ⟨p, path, -, q, ctx, a, hp, -, -, -, -, hfile, -⟩
    have hleft : Leftover s v [] := Leftover.unblocked (hl.congr (u := t.called env (.fileOpen l.path d.oflag)) rfl) hheap
    rcases hleft p _ hp hfile with ⟨e, he⟩ | hmem
    · cases he
    · cases hmem

/-- **An open.** -/
theorem wp_fileOpen_opens (hs : Tidy s) (d : OpenData) : wp (fileOpen env d) (fun x t => Opens env s d x t) (fun _ _ => False) s := by
  rw [fileOpen, wp_bind]
  refine wp_getLocalPath_left hs d.path (fun k t ht hl hq => ?_) fun l k t ht hl hpath hq hb hn hnext => ?_
  · have hnone : openQuestion env s d = none := by rw [openQuestion, allowedQuestion_none hq, Option.filter_none]
    rw [wp_bind]
    refine wp_setError_left ht hl _ _ fun n u hu hlu _ => opens_of_none hnone ?_
    exact ⟨by simp, leftOpen_quiet hu, hlu⟩
  · have hquestion := allowedQuestion_eq hpath hq (openRequest d.oflag)
    dsimp only
    rw [wp_bind, run_askAccess, wp_ite]
    have hasked := @behind_asked env s _ _ ht l.path (openRequest d.oflag)
    cases hallow : env.allows t l.path (openRequest d.oflag) with
    | false =>
      have hnone : openQuestion env s d = none := by rw [openQuestion, hquestion, hallow]; rfl
      refine wp_mono (wp_unopened (hasked false) (hl.congr (by simp)) (fun q hq => ?_) (.internal .accessDenied) d.errnum
        fun n => { d with errnum := n, handle := none }) (fun x u hu => opens_of_none hnone hu) fun _ _ hf => hf
      simpa using (hb q hq).1
    | true =>
      rw [if_pos rfl, wp_bind, run_call]
      rw [hallow, if_pos rfl] at hquestion
      have hlive : ∀ q, l.block = some q → ((t.asked env l.path (openRequest d.oflag) true).called env
          (.fileOpen l.path d.oflag)).heap q ≠ none := fun q hq => by simpa using (hb q hq).1
      by_cases hok : (env.answer (t.asked env l.path (openRequest d.oflag) true).events.length).status = .ok
      · have herr : ¬ (env.answer (t.asked env l.path (openRequest d.oflag) true).events.length).status = .error := by
          simp [hok]
        simp only [setCcimpError, if_neg herr, if_pos hok]
        have hopen : openQuestion env s d = some (t.asked env l.path (openRequest d.oflag) true).events.length := by
          rw [openQuestion, hquestion]
          simp [Option.filter, hok]
        have hpost := wp_opened (E := fun _ _ => False) hs (hasked true) (hl.congr (by simp)) hpath
          (by simpa using hb) hn (by simpa using hnext) hopen rfl hok
        simpa only [wp_bind, wp_pure] using hpost
      · have hnone : openQuestion env s d = none := by
          rw [openQuestion, hquestion]
          simp [Option.filter, hok]
        have hleft {j : ℕ} {u : Service} (hu : Behind j ((t.asked env l.path (openRequest d.oflag) true).called env
            (.fileOpen l.path d.oflag)) u) : leftOpen (since s u) = [] := by
          rw [leftOpen_open (calls_once (hasked true) hu), if_neg hok]
        have hend (n : Option ℕ) {j : ℕ} {u : Service} (hu : Behind j ((t.asked env l.path (openRequest d.oflag) true).called env
            (.fileOpen l.path d.oflag)) u) (hlu : Leftover s u l.block.toList)
            (hlive : ∀ q, l.block = some q → u.heap q ≠ none) :
            wp (do
              freeLocalPath env l.block
              return ((env.answer (t.asked env l.path (openRequest d.oflag) true).events.length).status,
                { d with errnum := n, handle := none })) (fun x v => Opens env s d x v) (fun _ _ => False) u := by
          rw [wp_bind]
          refine wp_freeLocalPath_left hu hlive fun v hv hheap => opens_of_none hnone ?_
          exact ⟨hok, hleft hv, Leftover.unblocked hlu hheap⟩
        rw [wp_bind, setCcimpError, wp_ite]
        simp only [if_neg hok]
        split_ifs
        · refine wp_setError_left (Behind.refl _) (hl.congr (by simp)) _ _ fun n u hu hlu hold => ?_
          exact hend n hu hlu fun q hq => hold q (hlive q hq)
        · exact hend d.errnum (Behind.refl _) (hl.congr (by simp)) hlive

end

/-! ## The lock around it -/

theorem since_locked {s u : Service} {st st' : CcimpStatus} (h : (s.emitted (.acquire st)).events <+: u.events) :
    since s (u.emitted (.release st')) = .acquire st :: since (s.emitted (.acquire st)) u ++ [.release st'] := by
  obtain ⟨es, hes⟩ := h
  rw [since_eq hes.symm]
  refine since_eq ?_
  rw [Service.emitted_events, ← hes, Service.emitted_events]
  simp

theorem leftOpen_locked {s u : Service} {st st' : CcimpStatus} (h : (s.emitted (.acquire st)).events <+: u.events) :
    leftOpen (since s (u.emitted (.release st'))) = leftOpen (since (s.emitted (.acquire st)) u) := by
  rw [since_locked h, ← leftOpen_calls, ← leftOpen_calls (since (s.emitted (.acquire st)) u)]
  simp [Event.isCall]

theorem delivered_locked {s u : Service} {st st' : CcimpStatus} {d d' : OpenData}
    (h : (s.emitted (.acquire st)).events <+: u.events) :
    Delivered s (u.emitted (.release st')) d d' ↔ Delivered (s.emitted (.acquire st)) u d d' := by
  have hmem (c : Call) (ctx : ℕ) (a : Answer) : .call c ctx a ∈ since s (u.emitted (.release st')) ↔
      .call c ctx a ∈ since (s.emitted (.acquire st)) u := by
    rw [since_locked h]
    simp
  simp only [Delivered, Recorded, hmem]
  exact Iff.rfl

/-- a served open, with the release of the lock behind it -/
theorem openResult_iff {env : Env} {s : St} {d d' : OpenData} {st : CcimpStatus} {u : Service}
    (hok : env.acquire s.svc.events.length = .ok) (hlock : s.lock ≠ 0)
    (hu : (s.svc.emitted (.acquire .ok)).events <+: u.events) (h : Opens env (s.svc.emitted (.acquire .ok)) d (st, d') u) :
    OpenResult s.svc (u.emitted (.release (env.release u.events.length))) d
        (callbackStatus (if env.release u.events.length = .ok then st else env.release u.events.length), d') ↔
      ¬ LosesFile env s d := by
  unfold Opens at h
  cases hq : openQuestion env (s.svc.emitted (.acquire .ok)) d with
  | none =>
    rw [hq] at h
    refine iff_of_true ⟨fun hc => ?_, fun _ => ⟨?_, h.blocks⟩⟩ fun hloses => ?_
    · have hst := callbackStatus_cont.1 hc
      split_ifs at hst with hrel
      · exact absurd hst h.status
      · exact absurd hst hrel
    · rw [leftOpen_locked hu]
      exact h.events
    · obtain ⟨-, -, q, hmem, -⟩ := hloses
      rw [hq] at hmem
      cases hmem
  | some q =>
    rw [hq] at h
    obtain ⟨rfl, hopen, hmallocs⟩ := h
    -- with the file open, only a continue with a record will do
    have hresult : ∀ x : CallbackStatus × OpenData,
        OpenResult s.svc (u.emitted (.release (env.release u.events.length))) d x ↔
          x.1 = .cont ∧ Delivered (s.svc.emitted (.acquire .ok)) u d x.2 := by
      intro x
      rw [← delivered_locked hu]
      constructor
      · intro hx
        by_contra hnot
        have hnil := (hx.undone hnot).1
        rw [leftOpen_locked hu] at hnil
        exact hopen hnil
      · exact fun hx => ⟨fun _ => hx.2, fun hnot => absurd hx hnot⟩
    have hloses : ¬ LosesFile env s d ↔ env.malloc (q + 1) = true ∧ env.malloc (q + 2) = true ∧
        env.release (q + 3 + if s.svc.virtualDirList = [] then 0 else 1) = .ok := by
      constructor
      · intro hnot
        by_contra hcon
        exact hnot ⟨hok, hlock, q, hq, hcon⟩
      · rintro hall ⟨-, -, q', hq', hcon⟩
        rw [hq] at hq'
        cases hq'
        exact hcon hall
    rw [hresult, hloses, callbackStatus_cont]
    by_cases hm : env.malloc (q + 1) = true ∧ env.malloc (q + 2) = true
    · rw [if_pos hm] at hmallocs
      obtain ⟨hdelivered, hlen⟩ := hmallocs
      rw [hlen, Service.emitted_dirs]
      by_cases hrel : env.release (q + 3 + if s.svc.virtualDirList = [] then 0 else 1) = .ok
      · exact iff_of_true ⟨by rw [if_pos hrel], hdelivered⟩ ⟨hm.1, hm.2, hrel⟩
      · rw [if_neg hrel]
        exact iff_of_false (fun hx => hrel hx.1) fun hx => hrel hx.2.2
    · rw [if_neg hm] at hmallocs
      exact iff_of_false (fun hx => hmallocs hx.2) fun hx => hm ⟨hx.1, hx.2.1⟩

theorem wp_filesystemHandler_open {env : Env} {s : St} (hs : Tidy s.svc) (d : OpenData) :
    wp (filesystemHandler env (.open d))
      (fun x t => ∃ d', x.2 = .open d' ∧ (OpenResult s.svc t.svc d (x.1, d') ↔ ¬ LosesFile env s d))
      (fun _ _ => ¬ LosesFile env s d) s := by
  simp only [filesystemHandler, lockAcquire, wp_bind, wp_get, wp_ite]
  by_cases hok : env.acquire s.svc.events.length = .ok
  · rw [if_pos hok]
    by_cases hlock : s.lock = 0
    · rw [if_pos hlock]
      exact fun hloses => hloses.2.1 hlock
    · simp only [if_neg hlock, hok, if_true, wp_onService, run_emit, wp_modify, wp_pure, serve, wp_bind]
      have hacquired := hs.emitted (.acquire .ok)
      refine wp_mono (wp_and (wp_fileOpen_opens hacquired d) (meets_fileOpen hacquired d)) (fun x u hx => ?_)
        fun _ _ hf => hf.1.elim
      rw [run_lockRelease]
      exact ⟨x.2, rfl, openResult_iff hok hlock hx.2.1.events hx.1⟩
  · simp only [if_neg hok, wp_onService, run_emit, wp_pure]
    refine ⟨d, rfl, iff_of_true ⟨fun hc => absurd (callbackStatus_cont.1 hc) hok, fun _ => ⟨?_, hs.leftover⟩⟩
      fun hloses => hok hloses.1⟩
    rw [since_eq (l := [.acquire (env.acquire s.svc.events.length)]) rfl]
    rfl

/-! ## Main results -/

/-- **The result of an open.** In every state that a run reaches, whatever the platform, memory, the lock and the access
callback answer: a request that is answered continue hands out a live record of this request, with the platform's handle, the
opened local path and the request kind, and one that ends otherwise leaves no file open and no record or path copy behind,
exactly when behind a file that the platform opened neither an allocation nor the lock's release fails. -/
theorem open_result_iff (env : Env) (ops : List Op) (d : OpenData) :
    (∀ st r' t, filesystemHandler env (.open d) (run (Run.step env) (Run.start St.fresh) ops).st = (.ok (st, r'), t) →
        ∃ d', r' = .open d' ∧ OpenResult (run (Run.step env) (Run.start St.fresh) ops).st.svc t.svc d (st, d')) ↔
      ¬ LosesFile env (run (Run.step env) (Run.start St.fresh) ops).st d := by
  have hs : Tidy (run (Run.step env) (Run.start St.fresh) ops).st.svc :=
    run_inv_all (I := fun x : Run => Tidy x.st.svc) tidy_step tidy_fresh ops
  generalize (run (Run.step env) (Run.start St.fresh) ops).st = s at hs ⊢
  have h := @wp_filesystemHandler_open env s hs d
  unfold wp at h
  rcases hrun : filesystemHandler env (.open d) s with ⟨_ | ⟨st, r'⟩, t⟩
  · rw [hrun] at h
    exact iff_of_true (fun st r' t hx => by cases hx) h
  · rw [hrun] at h
    obtain ⟨d', hr', hiff⟩ := h
    rw [← hiff]
    constructor
    · intro hall
      obtain ⟨d'', hd'', hresult⟩ := hall st r' t rfl
      have heq := hr'.symm.trans hd''
      cases heq
      exact hresult
    · intro hresult st' r'' t' hx
      cases hx
      exact ⟨d', hr', hresult⟩

/-- memory refuses the allocation behind the platform's open -/
def refusing : Env := { calm false with malloc := fun n => n ≠ 2 }

/-- **A file is lost**: it is opened, the record is not allocated, and the request is answered continue without a handle. -/
theorem open_loses : ¬ ∀ st r' t, filesystemHandler refusing (.open ⟨ascii "/a", 0, none, none⟩) St.fresh = (.ok (st, r'), t) →
    ∃ d', r' = .open d' ∧ OpenResult St.fresh.svc t.svc ⟨ascii "/a", 0, none, none⟩ (st, d') := by
  intro h
  obtain ⟨d', hd', hresult⟩ := h _ _ _ rfl
  cases hd'
  obtain ⟨p, -, hp, -⟩ := hresult.delivered rfl
  cases hp

end CcApi.FileSystem
