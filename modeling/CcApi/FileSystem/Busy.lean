/-
What a file-system request tells the connector about the platform's answers (`ccapi_filesystem_handler.c`).

The platform answers a call OK, busy or with an error, and the connector repeats a request that is answered busy. Every
request makes at most one call, but `ccapi_fs_hash_status` makes two: it goes on to the second when the first is answered
busy, and reports the second one's answer with whatever the first has left in the entry's status.

- `Told`: a busy answer is passed on, and a request is answered continue only behind OK answers and with what they gave.
- `told_iff`: so it is exactly when no busy answer is followed by an answer that hides it.
-/
import CcApi.FileSystem.Operations

namespace CcApi.FileSystem

open Lib Lib.Prog

/-! ## What the connector is told -/

/-- what the platform answered -/
def Event.answered : Event → Option CcimpStatus
  | .call _ _ a => some a.status
  | .acquire st => some st
  | .release st => some st
  | _ => none

def Event.isCall : Event → Bool
  | .call _ _ _ => true
  | _ => false

/-- the entry's status and the hash algorithm in a record are those of the calls, or the root directory's -/
def Reports (es : List Event) : Request → Request → Prop
  | .stat d, .stat d' => (es.filter (·.isCall) = [] ∧ d'.statbuf = rootStat ∧ d'.actual = .none) ∨
      ∃ path ctx a ctx' b, es.filter (·.isCall) =
        [.call (.dirEntryStatus path) ctx a, .call (.hashAlg path d.requested) ctx' b] ∧
        d'.statbuf = a.stat ∧ d'.actual = b.hashAlg
  | .statDirEntry _, .statDirEntry d' => (es.filter (·.isCall) = [] ∧ d'.statbuf = rootStat) ∨
      ∃ path ctx a, es.filter (·.isCall) = [.call (.dirEntryStatus path) ctx a] ∧ d'.statbuf = a.stat
  | .stat _, _ | .statDirEntry _, _ => False
  | _, _ => True

/-- a request's answer agrees with what the platform answered in the meantime -/
structure Told (s t : Service) (r : Request) (x : CallbackStatus × Request) : Prop where
  busy : ∀ e ∈ since s t, e.answered = some .busy → x.1 = .busy
  cont : x.1 = .cont → ∀ e ∈ since s t, ∀ st ∈ e.answered, st = .ok
  reports : x.1 = .cont → Reports (since s t) r x.2

/-! ## The questions of a request -/

/-- the number of the platform's call for a path that the access callback is asked about -/
def allowedQuestion (env : Env) (s : Service) (cloud : Str) (request : FsRequest) : Option ℕ := do
  let path ← localPath s.virtualDirList cloud
  let q ← pathQuestion env s cloud
  match env.access with
  | none => some q
  | some access => if access q path request then some (q + 1) else none

/-- the number of the platform's call for a file handle -/
def fileQuestion (s : Service) (p : ℕ) : Option ℕ :=
  match s.heap p with
  | some (.file _) => some s.events.length
  | _ => none

/-- the numbers of the calls a request makes -/
def questions (env : Env) (s : Service) : Request → List ℕ
  | .open d => (allowedQuestion env s d.path (openRequest d.oflag)).toList
  | .read d => (fileQuestion s d.handle).toList
  | .write d => (fileQuestion s d.handle).toList
  | .lseek d => (fileQuestion s d.handle).toList
  | .close d => (fileQuestion s d.handle).toList
  | .ftruncate d => (fileQuestion s d.handle).toList
  | .remove d => (allowedQuestion env s d.path .remove).toList
  | .opendir d => if d.userContext.isSome then [] else (allowedQuestion env s d.path .list).toList
  | .readdir d => if d.userContext.isSome then [] else [s.events.length]
  | .statDirEntry d => if d.userContext.isSome then [] else (pathQuestion env s d.path).toList
  | .closedir d => if d.userContext.isSome then [] else [s.events.length]
  | .stat d =>
    match statusQuestion env s d with
    | none => []
    | some q => if (env.answer q).status = .error then [q] else [q, q + 1]
  | .hash d => (pathQuestion env s d.path).toList
  | .getError d =>
    match s.heap d.errnum with
    | some (.error (.ccimp _)) => [s.events.length]
    | _ => []
  | .sessionError _ => [s.events.length]

/-- the platform's answers to them -/
def answers (env : Env) (s : Service) (r : Request) : List CcimpStatus :=
  (questions env s r).map fun q => (env.answer q).status

/-- the number of events between a request's last call and the release of the lock, when the call is answered busy;
`none` when the request does not come to the release -/
def busyTail (env : Env) (s : Service) : Request → Option ℕ
  | .open _ | .remove _ | .opendir _ | .statDirEntry _ | .stat _ | .hash _ =>
    some (if s.virtualDirList = [] then 0 else 1)
  | .close d =>
    match s.heap d.handle with
    | some (.file f) =>
      if env.hasChanged && (f.request = .write || f.request = .readWrite) then
        match s.heap f.filePath with
        | some (.path _) => some 1
        | _ => none
      else some 0
    | _ => none
  | .getError _ => some 1
  | _ => some 0

/-- the number of the lock's release behind a busy call: an error of the last call has its handle allocated before -/
def lockQuestion (env : Env) (s : Service) (r : Request) : Option ℕ := do
  let q ← (questions env s r).getLast?
  let k ← busyTail env s r
  return q + 1 + (if (env.answer q).status = .error then 1 else 0) + k

/-- a busy answer is followed by one that takes its place: the second call's, or an error of the lock's release -/
def Hides (env : Env) (s : St) (r : Request) : Prop :=
  env.acquire s.svc.events.length = .ok ∧ s.lock ≠ 0 ∧
    let t := s.svc.emitted (.acquire .ok)
    .busy ∈ answers env t r ∧ ∃ q ∈ lockQuestion env t r,
      ¬ (env.release q = .busy ∨ (env.release q = .ok ∧ (answers env t r).getLast? = some .busy))

/-! ## Serving a request -/

/-- k events happened from s to t, and none of them is an answer of the platform -/
def Behind (k : ℕ) (s t : Service) : Prop :=
  ∃ es, t.events = s.events ++ es ∧ es.length = k ∧ ∀ e ∈ es, e.answered = none

theorem Behind.refl (s : Service) : Behind 0 s s := ⟨[], by simp⟩

theorem Behind.emitted {k : ℕ} {s t : Service} (h : Behind k s t) {e : Event} (he : e.answered = none) :
    Behind (k + 1) s (t.emitted e) := by
  obtain ⟨es, hes, hlen, hquiet⟩ := h
  refine ⟨es ++ [e], by simp [hes], by simp [hlen], fun x hx => ?_⟩
  rcases List.mem_append.1 hx with hx | hx
  · exact hquiet x hx
  · rw [List.mem_singleton.1 hx]
    exact he

theorem Behind.congr {k : ℕ} {s t u : Service} (h : Behind k s t) (hu : u.events = t.events) : Behind k s u := by
  unfold Behind
  rw [hu]
  exact h

theorem Behind.length {k : ℕ} {s t : Service} (h : Behind k s t) : t.events.length = s.events.length + k := by
  obtain ⟨es, hes, rfl, -⟩ := h
  rw [hes, List.length_append]

theorem filter_isCall_of_quiet {es : List Event} (h : ∀ e ∈ es, e.answered = none) : es.filter (·.isCall) = [] := by
  rw [List.filter_eq_nil_iff]
  intro e he
  cases e with
  | call c ctx a => cases h _ he
  | _ => simp [Event.isCall]

theorem answered_of_quiet {es : List Event} (h : ∀ e ∈ es, e.answered = none) : es.filterMap (·.answered) = [] :=
  List.filterMap_eq_nil_iff.2 h

/-- what a request has asked when it is served with a status and a record -/
structure Asked (env : Env) (s : Service) (r : Request) (st : CcimpStatus) (r' : Request) (t : Service) : Prop where
  events : s.events <+: t.events
  answers : (since s t).filterMap (·.answered) = answers env s r
  last : ∀ x ∈ (FileSystem.answers env s r).getLast?, st = x
  lock : .busy ∈ FileSystem.answers env s r → lockQuestion env s r = some t.events.length
  reports : st = .ok → Reports (since s t) r r'

/-- a request that asks nothing -/
theorem asked_none {env : Env} {s t : Service} {r r' : Request} {st : CcimpStatus} {k : ℕ} (h : Behind k s t)
    (hq : questions env s r = []) (hrep : st = .ok → Reports (since s t) r r') : Asked env s r st r' t := by
  obtain ⟨es, hes, -, hquiet⟩ := h
  have hnil : answers env s r = [] := by rw [answers, hq, List.map_nil]
  refine ⟨⟨es, hes.symm⟩, ?_, by simp [hnil], by simp [hnil], hrep⟩
  rw [since_eq hes, hnil]
  exact answered_of_quiet hquiet

/-- a request that asks once: the call, and the events before and behind it -/
theorem asked_once {env : Env} {s t u : Service} {r r' : Request} {c : Call} {k j n : ℕ} (h : Behind k s t)
    (hu : Behind j (t.called env c) u) (hq : questions env s r = [t.events.length])
    (htail : (env.answer t.events.length).status = .busy → busyTail env s r = some n ∧ j = n)
    (hrep : (env.answer t.events.length).status = .ok →
      (since s u).filter (·.isCall) = [.call c t.impContext (env.answer t.events.length)] → Reports (since s u) r r') :
    Asked env s r (env.answer t.events.length).status r' u := by
  obtain ⟨pre, hpre, -, hquiet⟩ := h
  obtain ⟨post, hpost, hj, hquiet'⟩ := hu
  have hone : answers env s r = [(env.answer t.events.length).status] := by rw [answers, hq, List.map_singleton]
  have hevents : u.events = s.events ++ (pre ++ [.call c t.impContext (env.answer t.events.length)] ++ post) := by
    rw [hpost, Service.called_events, hpre]
    simp
  have hsince := since_eq hevents
  refine ⟨⟨_, hevents.symm⟩, ?_, by simp [hone], fun hbusy => ?_, fun hok => hrep hok ?_⟩
  · rw [hsince, hone]
    rw [List.filterMap_append, List.filterMap_append, answered_of_quiet hquiet, answered_of_quiet hquiet']
    rfl
  · have hst : (env.answer t.events.length).status = .busy := by
      rw [hone, List.mem_singleton] at hbusy
      exact hbusy.symm
    obtain ⟨hn, rfl⟩ := htail hst
    have hlen : u.events.length = t.events.length + 1 + j := by
      rw [hpost, List.length_append, Service.called_events, List.length_append, List.length_singleton, hj]
    simp [lockQuestion, hq, hn, hst, hlen]
  · rw [hsince]
    rw [List.filter_append, List.filter_append, filter_isCall_of_quiet hquiet, filter_isCall_of_quiet hquiet']
    rfl

section
variable {env : Env} {s : Service} {E : Fault → Service → Prop} {δ : Type}

/-- an error handle is asked for or not; the platform is not asked -/
theorem wp_setError_behind {Q : Option ℕ → Service → Prop} {k : ℕ} {t : Service} (h : Behind k s t) (e : ErrorHandle)
    (errnum : Option ℕ)
    (hQ : ∀ n u, Behind (k + 1) s u → (∀ q, t.heap q ≠ none → u.heap q ≠ none) → Q n u) :
    wp (setError env e errnum) Q E t := by
  rw [run_setError]
  split_ifs
  · refine hQ _ _ ((h.emitted (e := .malloc true) rfl).congr rfl) fun q hq => ?_
    rw [Service.alloc_heap, Function.update_apply]
    split_ifs
    · simp
    · exact hq
  · exact hQ _ _ (h.emitted rfl) fun _ hq => hq

theorem wp_freeLocalPath_behind {Q : Unit → Service → Prop} {k : ℕ} {t : Service} (h : Behind k s t) {block : Option ℕ}
    (hb : ∀ q, block = some q → t.heap q ≠ none)
    (hQ : ∀ u, Behind (k + if block = none then 0 else 1) s u → Q () u) : wp (freeLocalPath env block) Q E t := by
  rw [run_freeLocalPath]
  cases block with
  | none => exact hQ t h
  | some q =>
    obtain ⟨b, hq⟩ := Option.ne_none_iff_exists'.1 (hb q rfl)
    simp only [hq]
    exact hQ _ ((h.emitted (e := .free q) rfl).congr rfl)

/-- what comes behind a call: the error's handle and the freeing of the local path -/
theorem wp_tail_behind {Q : CcimpStatus × δ → Service → Prop} {t : Service} (a : Answer) {block : Option ℕ}
    (hb : ∀ q, block = some q → t.heap q ≠ none) (errnum : Option ℕ) (k : Option ℕ → δ)
    (hQ : ∀ n u, Behind ((if a.status = .error then 1 else 0) + if block = none then 0 else 1) t u →
      Q (a.status, k n) u) :
    wp (do
      let n ← setCcimpError env a errnum
      freeLocalPath env block
      return ((a.status, k n) : CcimpStatus × δ)) Q E t := by
  rw [wp_bind, setCcimpError, wp_ite]
  split_ifs with herr
  · refine wp_setError_behind (Behind.refl t) _ _ fun n u hu hlive => ?_
    rw [wp_bind]
    refine wp_freeLocalPath_behind hu (fun q hq => hlive q (hb q hq)) fun v hv => hQ n v ?_
    rw [if_pos herr]
    exact hv
  · rw [wp_pure, wp_bind]
    refine wp_freeLocalPath_behind (Behind.refl t) hb fun v hv => hQ errnum v ?_
    rw [if_neg herr]
    exact hv

/-- the answer to a request whose call is made; only reports about entries are left to show -/
theorem asks_tail {r : Request} {t : Service} {c : Call} {k n : ℕ} (h : Behind k s t) {block : Option ℕ}
    (hb : ∀ q, block = some q → t.heap q ≠ none) (hq : questions env s r = [t.events.length])
    (htail : busyTail env s r = some n) (hn : (if block = none then 0 else 1) = n) (errnum : Option ℕ)
    (f : Option ℕ → δ) (wrap : δ → Request)
    (hrep : ∀ n u, (since s u).filter (·.isCall) = [.call c t.impContext (env.answer t.events.length)] →
      Reports (since s u) r (wrap (f n))) :
    wp (do
      let n ← setCcimpError env (env.answer t.events.length) errnum
      freeLocalPath env block
      return (((env.answer t.events.length).status, f n) : CcimpStatus × δ))
      (fun x u => Asked env s r x.1 (wrap x.2) u) E (t.called env c) := by
  refine wp_tail_behind (env.answer t.events.length) (by simpa using hb) errnum f fun m u hu => ?_
  exact asked_once h hu hq (fun hbusy => ⟨htail, by simp [hbusy, hn]⟩) fun _ => hrep m u

/-- a request that ends before it asks -/
theorem asks_refused {r : Request} {t : Service} {k : ℕ} (h : Behind k s t) {block : Option ℕ}
    (hb : ∀ q, block = some q → t.heap q ≠ none) (hq : questions env s r = []) (e : ErrorHandle) (errnum : Option ℕ)
    (f : Option ℕ → δ) (wrap : δ → Request) :
    wp (do
      let n ← setError env e errnum
      freeLocalPath env block
      return ((CcimpStatus.error, f n) : CcimpStatus × δ)) (fun x u => Asked env s r x.1 (wrap x.2) u) E t := by
  rw [wp_bind]
  refine wp_setError_behind h _ _ fun n u hu hlive => ?_
  rw [wp_bind]
  refine wp_freeLocalPath_behind hu (fun q hq => hlive q (hb q hq)) fun v hv => ?_
  exact asked_none hv hq fun hst => by cases hst

/-- a path that is not translated -/
theorem asks_invalidPath {r : Request} {t : Service} {k : ℕ} (h : Behind k s t) (hq : questions env s r = [])
    (errnum : Option ℕ) (f : Option ℕ → δ) (wrap : δ → Request) :
    wp (do
      let n ← setError env (.internal .invalidPath) errnum
      return ((CcimpStatus.error, f n) : CcimpStatus × δ)) (fun x u => Asked env s r x.1 (wrap x.2) u) E t := by
  rw [wp_bind]
  refine wp_setError_behind h _ _ fun n u hu _ => ?_
  exact asked_none hu hq fun hst => by cases hst

/-- a path is translated before the platform is asked -/
theorem wp_getLocalPath_behind {Q : Option LocalPath → Service → Prop} (cloud : Str)
    (hnone : ∀ k t, Behind k s t → pathQuestion env s cloud = none → Q none t)
    (hsome : ∀ l k t, Behind k s t → localPath s.virtualDirList cloud = some l.path →
      pathQuestion env s cloud = some t.events.length → (∀ q, l.block = some q → t.heap q ≠ none) →
      ((if l.block = none then 0 else 1) = if s.virtualDirList = [] then 0 else 1) → Q (some l) t) :
    wp (getLocalPathFromCloudPath env cloud) Q E s := by
  rw [run_getLocalPath]
  cases hpath : localPath s.virtualDirList cloud with
  | none => exact hnone 0 s (Behind.refl s) (by simp [pathQuestion, hpath])
  | some path =>
    dsimp only
    split_ifs with hdirs hmalloc
    · refine hsome _ 0 s (Behind.refl s) hpath ?_ (by simp) (by simp [hdirs])
      rw [pathQuestion, if_neg (by simp [hpath]), if_pos hdirs]
    · refine hsome _ 1 _ (((Behind.refl s).emitted (e := .malloc true) rfl).congr rfl) hpath ?_ ?_ (by simp [hdirs])
      · simp [pathQuestion, hpath, hdirs, hmalloc]
      · rintro q ⟨⟩
        simp
    · exact hnone 1 _ ((Behind.refl s).emitted rfl) (by simp [pathQuestion, hpath, hdirs, hmalloc])

theorem behind_asked {k : ℕ} {t : Service} (h : Behind k s t) (path : Str) (request : FsRequest) (allow : Bool) :
    Behind (if env.access.isSome then k + 1 else k) s (t.asked env path request allow) := by
  unfold Service.asked
  split_ifs
  · exact h.emitted rfl
  · exact h

/-! ## The requests -/

/-- m serves r as the questions say; when it does not return, it was not for a busy answer -/
def Asks (env : Env) (r : Request) (s : Service) (wrap : δ → Request) (m : Fs (CcimpStatus × δ)) : Prop :=
  wp m (fun x t => Asked env s r x.1 (wrap x.2) t)
    (fun _ _ => .busy ∈ answers env s r → lockQuestion env s r = none) s

theorem not_busy_of_nil {r : Request} (h : questions env s r = []) :
    .busy ∈ answers env s r → lockQuestion env s r = none := by
  intro hbusy
  rw [answers, h] at hbusy
  cases hbusy

/-- a request on a file: the platform is asked at once -/
theorem asks_onFile {r : Request} {p : ℕ} (hq : questions env s r = (fileQuestion s p).toList)
    (htail : busyTail env s r = some 0) (hrep : ∀ es r', Reports es r r') (c : FileHandle → Call) (errnum : Option ℕ)
    (f : Answer → Option ℕ → δ) (wrap : δ → Request) :
    Asks env r s wrap (do
      let h ← loadFile p
      let a ← ccimpCallKeeping env (c h)
      let n ← setCcimpError env a errnum
      return (a.status, f a n)) := by
  simp only [Asks, wp_bind, run_loadFile]
  split
  · next h hh =>
    rw [run_call]
    have hq' : questions env s r = [s.events.length] := by rw [hq, fileQuestion, hh]; rfl
    have htail' := asks_tail (E := fun _ _ => .busy ∈ answers env s r → lockQuestion env s r = none) (c := c h)
      (Behind.refl s) (fun _ h => absurd h.symm (Option.some_ne_none _)) hq' htail rfl errnum (f (env.answer s.events.length)) wrap
      fun _ _ _ => hrep _ _
    simpa only [freeLocalPath, wp_bind, wp_pure] using htail'
  · next hnot =>
    refine not_busy_of_nil ?_
    rw [hq, fileQuestion]
    split
    · next h hh => exact absurd hh (hnot h)
    · rfl

/-- a close notifies before it looks at the answer; when that is busy, nothing is freed -/
theorem asks_fileClose (d : CloseData) : Asks env (.close d) s .close (fileClose env d) := by
  rw [Asks, fileClose, wp_bind, run_loadFile]
  split
  · next f hf =>
    have hq : questions env s (.close d) = [s.events.length] := by
      rw [questions, fileQuestion, hf]
      rfl
    have hanswers : answers env s (.close d) = [(env.answer s.events.length).status] := by
      rw [answers, hq, List.map_singleton]
    rw [wp_bind, run_call, wp_bind, run_closeChanged]
    -- the rest, behind the notification
    have hrest : ∀ j t, Behind j (s.called env (.fileClose f.ccimpHandle)) t →
        ((env.answer s.events.length).status = .busy → busyTail env s (.close d) = some j) →
        wp (do
          let errnum ← setCcimpError env (env.answer s.events.length) d.errnum
          if (env.answer s.events.length).status = .busy then
            return ((env.answer s.events.length).status, { d with errnum := errnum })
          else
            let _ ← free env f.filePath
            let _ ← free env d.handle
            return ((env.answer s.events.length).status, { d with errnum := errnum }))
          (fun x u => Asked env s (.close d) x.1 (.close x.2) u)
          (fun _ _ => .busy ∈ answers env s (.close d) → lockQuestion env s (.close d) = none) t := by
      intro j t ht htail
      have hasked {k : ℕ} {r' : Request} {u : Service} (hu : Behind k (s.called env (.fileClose f.ccimpHandle)) u)
          (hk : (env.answer s.events.length).status = .busy → k = j) :
          Asked env s (.close d) (env.answer s.events.length).status r' u :=
        asked_once (Behind.refl s) hu hq (fun hbusy => ⟨htail hbusy, hk hbusy⟩) fun _ _ => trivial
      by_cases hbusy : (env.answer s.events.length).status = .busy
      · have herr : ¬ (env.answer s.events.length).status = .error := by simp [hbusy]
        rw [wp_bind, run_setCcimpError, if_neg herr, if_pos hbusy]
        exact hasked ht fun _ => rfl
      · have hfree : ∀ k n u, Behind k (s.called env (.fileClose f.ccimpHandle)) u →
            wp (do
              let _ ← free env f.filePath
              let _ ← free env d.handle
              return ((env.answer s.events.length).status, { d with errnum := n }))
              (fun x v => Asked env s (.close d) x.1 (.close x.2) v)
              (fun _ _ => .busy ∈ answers env s (.close d) → lockQuestion env s (.close d) = none) u := by
          intro k n u hu
          have hnot : .busy ∈ answers env s (.close d) → lockQuestion env s (.close d) = none := fun hmem => by
            rw [hanswers, List.mem_singleton] at hmem
            exact absurd hmem.symm hbusy
          rw [wp_bind, run_free]
          split
          · rw [wp_bind, run_free]
            split
            · exact hasked (((hu.emitted (e := .free f.filePath) rfl).emitted (e := .free d.handle) rfl).congr rfl)
                fun hb => absurd hb hbusy
            · exact hnot
          · exact hnot
        simp only [if_neg hbusy, wp_bind, setCcimpError, wp_ite]
        split_ifs
        · refine wp_setError_behind ht _ _ fun n u hu _ => ?_
          simpa only [wp_bind] using hfree _ n u hu
        · simpa only [wp_bind, wp_pure] using hfree _ d.errnum t ht
    by_cases hnotify : (env.hasChanged && (f.request = .write || f.request = .readWrite)) = true
    · rw [if_pos hnotify]
      split
      · next b path hpath =>
        refine hrest 1 _ ((Behind.refl _).emitted (e := .changed path .modified) rfl) fun _ => ?_
        simp only [Service.called_heap] at hpath
        simp only [busyTail, hf, if_pos hnotify, hpath]
      · next hnot =>
        intro _
        have hnone : busyTail env s (.close d) = none := by
          simp only [busyTail, hf, if_pos hnotify]
          split
          · next path hpath => exact absurd hpath (hnot path)
          · rfl
        simp [lockQuestion, hnone]
    · rw [if_neg hnotify]
      refine hrest 0 _ (Behind.refl _) fun _ => ?_
      simp only [busyTail, hf, if_neg hnotify]
  · next hnot =>
    refine not_busy_of_nil ?_
    rw [questions, fileQuestion]
    split
    · next h hh => exact absurd hh (hnot h)
    · rfl

theorem allowedQuestion_none {cloud : Str} (h : pathQuestion env s cloud = none) (request : FsRequest) :
    allowedQuestion env s cloud request = none := by
  rw [allowedQuestion, h]
  cases localPath s.virtualDirList cloud <;> rfl

/-- the callback is asked under the number behind the translation, and the platform under the next -/
theorem allowedQuestion_eq {cloud path : Str} {t : Service} (hpath : localPath s.virtualDirList cloud = some path)
    (hq : pathQuestion env s cloud = some t.events.length) (request : FsRequest) :
    allowedQuestion env s cloud request =
      if env.allows t path request then some (t.asked env path request true).events.length else none := by
  cases haccess : env.access with
  | none => simp [allowedQuestion, hpath, hq, Env.allows, Service.asked, haccess]
  | some access => simp [allowedQuestion, hpath, hq, Env.allows, Service.asked, haccess]

/-- a call on a path that the callback allows -/
theorem asks_allowed {r : Request} {t : Service} {l : LocalPath} {k : ℕ} {request : FsRequest} (h : Behind k s t)
    (hb : ∀ q, l.block = some q → t.heap q ≠ none)
    (hq : questions env s r = [(t.asked env l.path request true).events.length])
    (htail : busyTail env s r = some (if s.virtualDirList = [] then 0 else 1))
    (hn : (if l.block = none then 0 else 1) = if s.virtualDirList = [] then 0 else 1)
    (hrep : ∀ es r', Reports es r r') (c : Call) (errnum : Option ℕ) (f : Answer → Option ℕ → δ) (wrap : δ → Request) :
    wp (do
      let a ← ccimpCallKeeping env c
      let n ← setCcimpError env a errnum
      freeLocalPath env l.block
      return ((a.status, f a n) : CcimpStatus × δ))
      (fun x u => Asked env s r x.1 (wrap x.2) u) E (t.asked env l.path request true) := by
  rw [wp_bind, run_call]
  exact asks_tail (behind_asked h _ _ _) (by simpa using hb) hq htail hn errnum _ wrap fun _ _ _ => hrep _ _

theorem asks_fileRemove (d : RemoveData) : Asks env (.remove d) s .remove (fileRemove env d) := by
  unfold Asks fileRemove
  rw [wp_bind]
  refine wp_getLocalPath_behind d.path (fun k t ht hq => ?_) fun l k t ht hpath hq hb hn => ?_
  · have hnone : questions env s (.remove d) = [] := by rw [questions, allowedQuestion_none hq, Option.toList]
    exact asks_invalidPath ht hnone d.errnum (fun n => { d with errnum := n }) .remove
  · have hquestion := allowedQuestion_eq hpath hq .remove
    dsimp only
    rw [wp_bind, run_askAccess, wp_ite]
    cases hallow : env.allows t l.path .remove with
    | false =>
      have hnone : questions env s (.remove d) = [] := by
        rw [questions, hquestion, hallow]
        rfl
      exact asks_refused (behind_asked ht _ _ _) (by simpa using hb) hnone (.internal .accessDenied) d.errnum
        (fun n => { d with errnum := n }) .remove
    | true =>
      have hone : questions env s (.remove d) = [(t.asked env l.path .remove true).events.length] := by
        rw [questions, hquestion, hallow]
        rfl
      rw [if_pos rfl, wp_bind, run_call, wp_ite]
      have hlive : ∀ q, l.block = some q → ((t.asked env l.path .remove true).called env (.fileRemove l.path)).heap q ≠ none :=
        by simpa using hb
      split_ifs with hok
      · have herr : ¬ (env.answer (t.asked env l.path .remove true).events.length).status = .error := by simp [hok]
        have hrest : ∀ j u, Behind j ((t.asked env l.path .remove true).called env (.fileRemove l.path)) u →
            (∀ q, l.block = some q → u.heap q ≠ none) →
            wp (do
              let n ← setCcimpError env (env.answer (t.asked env l.path .remove true).events.length) d.errnum
              freeLocalPath env l.block
              return ((env.answer (t.asked env l.path .remove true).events.length).status, { d with errnum := n }))
              (fun x v => Asked env s (.remove d) x.1 (.remove x.2) v)
              (fun _ _ => .busy ∈ answers env s (.remove d) → lockQuestion env s (.remove d) = none) u := by
          intro j u hu hlive
          rw [setCcimpError, if_neg herr, wp_bind, wp_pure, wp_bind]
          refine wp_freeLocalPath_behind hu hlive fun v hv => ?_
          exact asked_once (n := 0) (behind_asked ht _ _ _) hv hone (fun hbusy => by rw [hok] at hbusy; cases hbusy)
            fun _ _ => trivial
        rw [wp_bind, notifyChanged, wp_ite]
        split_ifs
        · exact hrest 1 _ ((Behind.refl _).emitted (e := .changed l.path .removed) rfl) hlive
        · exact hrest 0 _ (Behind.refl _) hlive
      · exact asks_tail (behind_asked ht _ _ _) (by simpa using hb) hone rfl hn d.errnum
          (fun n => { d with errnum := n }) .remove fun _ _ _ => trivial

/-- the tail of an open answers OK; no call comes behind the platform's -/
theorem wp_newFileHandle_behind {k : ℕ} {t : Service} (h : Behind k s t) (path : Str) (handle : ℤ) (request : FsRequest)
    (d : OpenData) {Q : OpenData → Service → Prop}
    (hQ : ∀ d' j u, Behind j s u → (∀ q, t.heap q ≠ none → u.heap q ≠ none) → Q d' u) :
    wp (newFileHandle env path handle request d) Q E t := by
  have hlive {u v : Service} {q p : ℕ} {b : Block} (hu : t.heap q ≠ none → u.heap q ≠ none)
      (hv : v.heap = Function.update u.heap p (some b)) (hq : t.heap q ≠ none) : v.heap q ≠ none := by
    rw [hv, Function.update_apply]
    split_ifs
    · simp
    · exact hu hq
  have hfile := (h.emitted (e := .malloc true) rfl).congr (u := t.alloc (.file ⟨handle, 0, request⟩)) rfl
  unfold newFileHandle
  rw [wp_bind, run_malloc]
  split_ifs
  · dsimp only
    rw [wp_bind, run_malloc]
    split_ifs
    · dsimp only
      rw [wp_bind, run_store, wp_pure]
      refine hQ _ (k + 2) _ (((hfile.emitted (e := .malloc true) rfl)).congr rfl) fun q hq => ?_
      exact hlive (hlive (hlive id rfl) rfl) rfl hq
    · exact hQ _ _ _ (hfile.emitted rfl) fun q hq => hlive id rfl hq
  · exact hQ _ _ _ (h.emitted rfl) fun _ hq => hq

theorem asks_fileOpen (d : OpenData) : Asks env (.open d) s .open (fileOpen env d) := by
  unfold Asks fileOpen
  rw [wp_bind]
  refine wp_getLocalPath_behind d.path (fun k t ht hq => ?_) fun l k t ht hpath hq hb hn => ?_
  · have hnone : questions env s (.open d) = [] := by rw [questions, allowedQuestion_none hq, Option.toList]
    exact asks_invalidPath ht hnone d.errnum (fun n => { d with errnum := n }) .open
  · have hquestion := allowedQuestion_eq hpath hq (openRequest d.oflag)
    dsimp only
    rw [wp_bind, run_askAccess, wp_ite]
    cases hallow : env.allows t l.path (openRequest d.oflag) with
    | false =>
      have hnone : questions env s (.open d) = [] := by
        rw [questions, hquestion, hallow]
        rfl
      exact asks_refused (behind_asked ht _ _ _) (by simpa using hb) hnone (.internal .accessDenied) d.errnum
        (fun n => { d with errnum := n, handle := none }) .open
    | true =>
      have hone : questions env s (.open d) = [(t.asked env l.path (openRequest d.oflag) true).events.length] := by
        rw [questions, hquestion, hallow]
        rfl
      rw [if_pos rfl, wp_bind, run_call]
      by_cases hok : (env.answer (t.asked env l.path (openRequest d.oflag) true).events.length).status = .ok
      · have herr : ¬ (env.answer (t.asked env l.path (openRequest d.oflag) true).events.length).status = .error := by
          simp [hok]
        simp only [setCcimpError, if_neg herr, if_pos hok, wp_bind, wp_pure]
        refine wp_newFileHandle_behind (Behind.refl _) _ _ _ _ fun d' j u hu hlive => ?_
        refine wp_freeLocalPath_behind hu (fun q hq => hlive q (by simpa using hb q hq)) fun v hv => ?_
        have hasked : Asked env s (.open d) _ (.open d') v := asked_once (n := 0) (behind_asked ht _ _ _) hv hone
          (fun hbusy => by rw [hok] at hbusy; cases hbusy) fun _ _ => trivial
        rwa [hok] at hasked
      · have htail := asks_tail (E := fun _ _ => .busy ∈ answers env s (.open d) → lockQuestion env s (.open d) = none)
          (c := .fileOpen l.path d.oflag) (behind_asked ht _ _ _) (by simpa using hb) hone rfl hn d.errnum
          (fun n => { d with errnum := n, handle := none }) .open fun _ _ _ => trivial
        simpa only [if_neg hok] using htail

theorem asks_dirOpen (d : OpendirData) : Asks env (.opendir d) s .opendir (dirOpen env d) := by
  unfold Asks dirOpen
  cases huser : d.userContext with
  | some p => exact asked_none (Behind.refl s) (by simp [questions, huser]) fun _ => trivial
  | none =>
    have hask : questions env s (.opendir d) = (allowedQuestion env s d.path .list).toList := by simp [questions, huser]
    dsimp only
    rw [wp_bind]
    refine wp_getLocalPath_behind d.path (fun k t ht hq => ?_) fun l k t ht hpath hq hb hn => ?_
    · have hnone : questions env s (.opendir d) = [] := by rw [hask, allowedQuestion_none hq, Option.toList]
      exact asks_invalidPath ht hnone d.errnum (fun n => ⟨none, d.path, d.handle, n⟩) .opendir
    · have hquestion := allowedQuestion_eq hpath hq .list
      dsimp only
      rw [wp_bind, run_askAccess, wp_ite]
      cases hallow : env.allows t l.path .list with
      | false =>
        have hnone : questions env s (.opendir d) = [] := by
          rw [hask, hquestion, hallow]
          rfl
        exact asks_refused (behind_asked ht _ _ _) (by simpa using hb) hnone (.internal .accessDenied) d.errnum
          (fun n => ⟨none, d.path, d.handle, n⟩) .opendir
      | true =>
        have hone : questions env s (.opendir d) = [(t.asked env l.path .list true).events.length] := by
          rw [hask, hquestion, hallow]
          rfl
        rw [if_pos rfl]
        exact asks_allowed ht hb hone rfl hn (fun _ _ => trivial) (.dirOpen l.path) d.errnum
          (fun a n => ⟨none, d.path, .platform a.dirHandle, n⟩) .opendir

/-- a call that needs no path and no file -/
theorem asks_plain {r : Request} (hq : questions env s r = [s.events.length]) (htail : busyTail env s r = some 0)
    (hrep : ∀ es r', Reports es r r') (c : Call) (errnum : Option ℕ) (f : Answer → Option ℕ → δ) (wrap : δ → Request) :
    Asks env r s wrap (do
      let a ← ccimpCallKeeping env c
      let n ← setCcimpError env a errnum
      return (a.status, f a n)) := by
  rw [Asks, wp_bind, run_call]
  have hasks := asks_tail (E := fun _ _ => .busy ∈ answers env s r → lockQuestion env s r = none) (c := c)
    (Behind.refl s) (fun _ (h : none = some _) => nomatch h) hq htail rfl errnum (f (env.answer s.events.length)) wrap
    fun _ _ _ => hrep _ _
  simpa only [freeLocalPath, wp_bind, wp_pure] using hasks

theorem asks_dirReadEntry (d : ReaddirData) : Asks env (.readdir d) s .readdir (dirReadEntry env d) := by
  unfold dirReadEntry
  cases huser : d.userContext with
  | some p =>
    have hnone : questions env s (.readdir d) = [] := by simp [questions, huser]
    simp only [Asks, readRootEntry, wp_bind, run_load]
    split
    · split
      · exact asked_none (Behind.refl s) hnone fun _ => trivial
      · rw [wp_bind, wp_get]
        split
        · exact not_busy_of_nil hnone
        · exact asked_none ((Behind.refl s).congr rfl) hnone fun _ => trivial
      · exact not_busy_of_nil hnone
    · exact not_busy_of_nil hnone
  | none =>
    exact asks_plain (r := .readdir d) (by simp [questions, huser]) rfl (fun _ _ => trivial) (.dirReadEntry d.handle d.bytesAvailable) d.errnum
      (fun a n => ⟨none, d.handle, d.bytesAvailable, a.bytes, n⟩) .readdir

theorem asks_dirClose (d : ClosedirData) : Asks env (.closedir d) s .closedir (dirClose env d) := by
  unfold dirClose
  cases huser : d.userContext with
  | some p =>
    have hnone : questions env s (.closedir d) = [] := by simp [questions, huser]
    rw [Asks, wp_bind, run_free]
    split
    · exact asked_none (((Behind.refl s).emitted (e := .free p) rfl).congr rfl) hnone fun _ => trivial
    · exact not_busy_of_nil hnone
  | none =>
    exact asks_plain (r := .closedir d) (by simp [questions, huser]) rfl (fun _ _ => trivial) (.dirClose d.handle) d.errnum
      (fun _ n => ⟨none, d.handle, n⟩) .closedir

theorem asks_dirEntryStatus (d : StatDirEntryData) :
    Asks env (.statDirEntry d) s .statDirEntry (dirEntryStatus env d) := by
  unfold dirEntryStatus
  cases huser : d.userContext with
  | some p =>
    refine asked_none (Behind.refl s) (by simp [questions, huser]) fun _ => Or.inl ⟨?_, rfl⟩
    rw [since_eq (l := []) (by simp)]
    rfl
  | none =>
    have hask : questions env s (.statDirEntry d) = (pathQuestion env s d.path).toList := by simp [questions, huser]
    dsimp only
    rw [Asks, wp_bind]
    refine wp_getLocalPath_behind d.path (fun k t ht hq => ?_) fun l k t ht hpath hq hb hn => ?_
    · have hnone : questions env s (.statDirEntry d) = [] := by rw [hask, hq, Option.toList]
      exact asks_invalidPath ht hnone d.errnum (fun n => ⟨none, d.path, d.statbuf, n⟩) .statDirEntry
    · have hone : questions env s (.statDirEntry d) = [t.events.length] := by rw [hask, hq, Option.toList]
      dsimp only
      rw [wp_bind, run_call]
      exact asks_tail ht hb hone rfl hn d.errnum (fun n => ⟨none, d.path, (env.answer t.events.length).stat, n⟩)
        .statDirEntry fun _ _ hcall => Or.inr ⟨_, _, _, hcall, rfl⟩

theorem asks_hashFile (d : HashData) : Asks env (.hash d) s .hash (hashFile env d) := by
  rw [Asks, hashFile, wp_bind]
  refine wp_getLocalPath_behind d.path (fun k t ht hq => ?_) fun l k t ht hpath hq hb hn => ?_
  · have hnone : questions env s (.hash d) = [] := by rw [questions, hq, Option.toList]
    exact asks_invalidPath ht hnone d.errnum (fun n => { d with errnum := n }) .hash
  · have hone : questions env s (.hash d) = [t.events.length] := by rw [questions, hq, Option.toList]
    dsimp only
    rw [wp_bind, run_call]
    exact asks_tail ht hb hone rfl hn d.errnum (fun n => { d with hashValue := (env.answer t.events.length).bytes, errnum := n })
      .hash fun _ _ _ => trivial

theorem asks_errorDesc (d : GetErrorData) : Asks env (.getError d) s .getError (errorDesc env d) := by
  rw [Asks, errorDesc, wp_bind, run_load]
  cases hb : s.heap d.errnum with
  | none => exact not_busy_of_nil (by simp [questions, hb])
  | some b =>
    cases b with
    | error e =>
      cases e with
      | internal e =>
        have hnone : questions env s (.getError d) = [] := by simp [questions, hb]
        dsimp only
        rw [wp_bind, run_free, hb]
        exact asked_none (((Behind.refl s).emitted (e := .free d.errnum) rfl).congr rfl) hnone fun _ => trivial
      | ccimp errnum =>
        have hone : questions env s (.getError d) = [s.events.length] := by simp [questions, hb]
        dsimp only
        rw [wp_bind, run_call, wp_bind, run_free, Service.called_heap, hb]
        exact asked_once (Behind.refl s) (((Behind.refl _).emitted (e := .free d.errnum) rfl).congr rfl) hone
          (fun _ => ⟨rfl, rfl⟩) fun _ _ => trivial
    | _ => exact not_busy_of_nil (by simp [questions, hb])

theorem asks_sessionError (e : Option SessionError) :
    wp (sessionError env e) (fun st t => Asked env s (.sessionError e) st (.sessionError e) t)
      (fun _ _ => .busy ∈ answers env s (.sessionError e) → lockQuestion env s (.sessionError e) = none) s := by
  rw [sessionError, wp_bind, run_call]
  exact asked_once (Behind.refl s) (Behind.refl _) rfl (fun _ => ⟨rfl, rfl⟩) fun _ _ => trivial

/-- a request that asks twice -/
theorem asked_twice {t u : Service} {r r' : Request} {c c' : Call} {k j n : ℕ} (h : Behind k s t)
    (hu : Behind j ((t.peeked env c).called env c') u) (hq : questions env s r = [t.events.length, t.events.length + 1])
    (htail : busyTail env s r = some n)
    (hj : j = (if (env.answer (t.events.length + 1)).status = .error then 1 else 0) + n)
    (hrep : (since s u).filter (·.isCall) = [.call c t.impContext (env.answer t.events.length),
      .call c' t.impContext (env.answer (t.events.length + 1))] → Reports (since s u) r r') :
    Asked env s r (env.answer (t.events.length + 1)).status r' u := by
  obtain ⟨pre, hpre, -, hquiet⟩ := h
  obtain ⟨post, hpost, hlen, hquiet'⟩ := hu
  have htwo : answers env s r = [(env.answer t.events.length).status, (env.answer (t.events.length + 1)).status] := by
    rw [answers, hq, List.map_cons, List.map_singleton]
  have hbehind : ((t.peeked env c).called env c').events = t.events ++
      [.call c t.impContext (env.answer t.events.length), .call c' t.impContext (env.answer (t.events.length + 1))] := by
    simp [Service.peeked]
  have hevents : u.events = s.events ++ (pre ++ [.call c t.impContext (env.answer t.events.length),
      .call c' t.impContext (env.answer (t.events.length + 1))] ++ post) := by
    rw [hpost, hbehind, hpre]
    simp
  have hsince := since_eq hevents
  refine ⟨⟨_, hevents.symm⟩, ?_, by simp [htwo], fun _ => ?_, fun _ => hrep ?_⟩
  · rw [hsince, htwo, List.filterMap_append, List.filterMap_append, answered_of_quiet hquiet, answered_of_quiet hquiet']
    rfl
  · have hcount : u.events.length = t.events.length + 2 + j := by
      rw [hpost, List.length_append, hbehind, List.length_append, hlen]
      rfl
    simp [lockQuestion, hq, htail, hcount, hj]
    omega
  · rw [hsince, List.filter_append, List.filter_append, filter_isCall_of_quiet hquiet, filter_isCall_of_quiet hquiet']
    rfl

/-- a stat of the root path starts a listing; any other asks for the entry's status, and unless that is an error for the
hash algorithm -/
theorem asks_hashStatus (d : StatData) : Asks env (.stat d) s .stat (hashStatus env d) := by
  simp only [Asks, hashStatus, wp_bind, wp_get]
  rw [wp_ite]
  split_ifs with hroot
  · have hnone : questions env s (.stat d) = [] := by rw [questions, statusQuestion, if_pos hroot]
    rw [wp_bind, run_malloc]
    split_ifs
    · refine asked_none (((Behind.refl s).emitted (e := .malloc true) rfl).congr rfl) hnone fun _ => Or.inl ⟨?_, rfl, rfl⟩
      rw [since_eq (l := [.malloc true]) rfl]
      rfl
    · exact asked_none ((Behind.refl s).emitted rfl) hnone fun hst => by cases hst
  · have hask : statusQuestion env s d = pathQuestion env s d.path := by rw [statusQuestion, if_neg hroot]
    rw [wp_bind]
    refine wp_getLocalPath_behind d.path (fun k t ht hq => ?_) fun l k t ht hpath hq hb hn => ?_
    · have hnone : questions env s (.stat d) = [] := by simp [questions, hask, hq]
      exact asks_invalidPath ht hnone d.errnum (fun n => { d with errnum := n }) .stat
    · dsimp only
      rw [wp_bind, wp_get, wp_bind, run_peek, wp_ite]
      have hlive : ∀ q, l.block = some q → (t.peeked env (.dirEntryStatus l.path)).heap q ≠ none := hb
      split_ifs with herr
      · have hone : questions env s (.stat d) = [t.events.length] := by simp [questions, hask, hq, herr]
        have htail := @wp_tail_behind env (fun _ _ => .busy ∈ answers env s (.stat d) → lockQuestion env s (.stat d) = none)
          StatData (fun x u => Asked env s (.stat d) x.1 (.stat x.2) u) _ (env.answer t.events.length) _ hlive d.errnum (fun n => { d with errnum := n }) fun n u hu =>
            asked_once (n := 0) (c := .dirEntryStatus l.path) ht hu hone (fun hbusy => by rw [herr] at hbusy; cases hbusy)
              fun hok _ => by rw [herr] at hok; cases hok
        rwa [herr] at htail
      · have htwo : questions env s (.stat d) = [t.events.length, t.events.length + 1] := by
          simp [questions, hask, hq, herr]
        have hsecond : (t.peeked env (.dirEntryStatus l.path)).events.length = t.events.length + 1 := by
          simp [Service.peeked]
        rw [wp_bind, run_call, hsecond]
        refine wp_tail_behind (t := (t.peeked env (.dirEntryStatus l.path)).called env (.hashAlg l.path d.requested))
          (env.answer (t.events.length + 1)) hlive d.errnum
          (fun n => { d with statbuf := (env.answer t.events.length).stat
                             actual := (env.answer (t.events.length + 1)).hashAlg
                             errnum := n }) fun n u hu => ?_
        refine asked_twice ht hu htwo rfl (by rw [hn]) fun hcalls => Or.inr ⟨_, _, _, _, _, hcalls, rfl, rfl⟩

/-- the record of a request, put back into it -/
theorem asks_wrap {r : Request} {wrap : δ → Request} {m : Fs (CcimpStatus × δ)} (h : Asks env r s wrap m) :
    wp (do let (st, d) ← m; return (st, wrap d)) (fun (x : CcimpStatus × Request) t => Asked env s r x.1 x.2 t)
      (fun _ _ => .busy ∈ answers env s r → lockQuestion env s r = none) s := by
  rw [wp_bind]
  exact wp_mono h (fun _ _ ht => ht) fun _ _ ht => ht

/-- **Every request** asks what its questions say. -/
theorem serve_asks (r : Request) :
    wp (serve env r) (fun x t => Asked env s r x.1 x.2 t)
      (fun _ _ => .busy ∈ answers env s r → lockQuestion env s r = none) s := by
  cases r with
  | «open» d => exact asks_wrap (asks_fileOpen d)
  | read d =>
    exact asks_wrap (asks_onFile (r := .read d) rfl rfl (fun _ _ => trivial) (fun h => .fileRead h.ccimpHandle d.bytesAvailable) d.errnum
      (fun a n => { d with buffer := a.bytes, bytesUsed := a.bytesUsed, errnum := n }) .read)
  | write d =>
    exact asks_wrap (asks_onFile (r := .write d) rfl rfl (fun _ _ => trivial) (fun h => .fileWrite h.ccimpHandle d.data) d.errnum
      (fun a n => { d with bytesUsed := a.bytesUsed, errnum := n }) .write)
  | lseek d =>
    exact asks_wrap (asks_onFile (r := .lseek d) rfl rfl (fun _ _ => trivial)
      (fun h => .fileSeek h.ccimpHandle d.requestedOffset d.origin) d.errnum
      (fun a n => { d with resultingOffset := a.offset, errnum := n }) .lseek)
  | close d => exact asks_wrap (asks_fileClose d)
  | ftruncate d =>
    exact asks_wrap (asks_onFile (r := .ftruncate d) rfl rfl (fun _ _ => trivial) (fun h => .fileTruncate h.ccimpHandle d.lengthInBytes) d.errnum
      (fun _ n => { d with errnum := n }) .ftruncate)
  | remove d => exact asks_wrap (asks_fileRemove d)
  | opendir d => exact asks_wrap (asks_dirOpen d)
  | readdir d => exact asks_wrap (asks_dirReadEntry d)
  | statDirEntry d => exact asks_wrap (asks_dirEntryStatus d)
  | closedir d => exact asks_wrap (asks_dirClose d)
  | stat d => exact asks_wrap (asks_hashStatus d)
  | hash d => exact asks_wrap (asks_hashFile d)
  | getError d => exact asks_wrap (asks_errorDesc d)
  | sessionError e =>
    simp only [serve, wp_bind]
    exact wp_mono (asks_sessionError e) (fun _ _ ht => ht) fun _ _ ht => ht

end

/-! ## The answer -/

/-- a request that asks twice does so behind an answer that is no error -/
theorem answers_dropLast (env : Env) (s : Service) (r : Request) : ∀ x ∈ (answers env s r).dropLast, x ≠ .error := by
  have hone (o : Option ℕ) : ∀ x ∈ (o.toList.map fun q => (env.answer q).status).dropLast, x ≠ .error := by
    cases o <;> simp
  cases r with
  | stat d =>
    rw [answers, questions]
    cases statusQuestion env s d with
    | none => simp
    | some q =>
      dsimp only
      split_ifs with herr <;> simp [herr]
  | readdir d | closedir d =>
    rw [answers, questions]
    split_ifs <;> simp
  | opendir d | statDirEntry d =>
    rw [answers, questions]
    split_ifs
    · simp
    · exact hone _
  | getError d =>
    rw [answers, questions]
    split <;> simp
  | sessionError e => simp [answers, questions]
  | _ => exact hone _

theorem reports_congr {es es' : List Event} (h : es.filter (·.isCall) = es'.filter (·.isCall)) {r r' : Request}
    (hr : Reports es r r') : Reports es' r r' := by
  cases r <;> cases r' <;> simp only [Reports] at hr ⊢ <;> (rw [← h]; exact hr)

/-- a list of answers: its last one, and the ones before -/
theorem ok_of_last {l : List CcimpStatus} (hlast : ∀ x ∈ l.getLast?, x = .ok) (hbusy : .busy ∉ l)
    (hgo : ∀ x ∈ l.dropLast, x ≠ .error) : ∀ x ∈ l, x = .ok := by
  intro x hx
  have hne : l ≠ [] := List.ne_nil_of_mem hx
  rw [← List.dropLast_append_getLast hne, List.mem_append, List.mem_singleton] at hx
  rcases hx with hx | rfl
  · cases x with
    | ok => rfl
    | busy => exact absurd (List.dropLast_subset l hx) hbusy
    | error => exact absurd rfl (hgo _ hx)
  · exact hlast _ (List.getLast?_eq_some_getLast hne)

theorem callbackStatus_busy {st : CcimpStatus} : callbackStatus st = .busy ↔ st = .busy := by
  cases st <;> simp [callbackStatus]

theorem callbackStatus_cont {st : CcimpStatus} : callbackStatus st = .cont ↔ st = .ok := by
  cases st <;> simp [callbackStatus]

/-- a served request, with the lock's release behind it -/
theorem told_iff_of_asked {env : Env} {s : St} {r r' : Request} {st : CcimpStatus} {u : Service}
    (hok : env.acquire s.svc.events.length = .ok) (hlock : s.lock ≠ 0)
    (h : Asked env (s.svc.emitted (.acquire .ok)) r st r' u) :
    Told s.svc (u.emitted (.release (env.release u.events.length))) r
        (callbackStatus (if env.release u.events.length = .ok then st else env.release u.events.length), r') ↔
      ¬ Hides env s r := by
  obtain ⟨es, hes⟩ := h.events
  have hserved : since (s.svc.emitted (.acquire .ok)) u = es := since_eq hes.symm
  have hsince : since s.svc (u.emitted (.release (env.release u.events.length))) =
      .acquire .ok :: es ++ [.release (env.release u.events.length)] := by
    refine since_eq ?_
    rw [Service.emitted_events, ← hes, Service.emitted_events]
    simp
  have hkept : ¬ Hides env s r ↔ (.busy ∈ answers env (s.svc.emitted (.acquire .ok)) r →
      env.release u.events.length = .busy ∨ (env.release u.events.length = .ok ∧
        (answers env (s.svc.emitted (.acquire .ok)) r).getLast? = some .busy)) := by
    constructor
    · intro hnot hbusy
      by_contra hcon
      exact hnot ⟨hok, hlock, hbusy, _, h.lock hbusy, hcon⟩
    · rintro hkept ⟨-, -, hbusy, q, hq, hcon⟩
      rw [h.lock hbusy, Option.mem_def, Option.some.injEq] at hq
      subst hq
      exact hcon (hkept hbusy)
  have hmem : ∀ x, (∃ e ∈ since s.svc (u.emitted (.release (env.release u.events.length))), e.answered = some x) ↔
      x = .ok ∨ x ∈ answers env (s.svc.emitted (.acquire .ok)) r ∨ x = env.release u.events.length := by
    intro x
    rw [← List.mem_filterMap, hsince, ← h.answers, hserved, List.filterMap_append]
    simp [Event.answered, eq_comm, List.mem_filterMap]
  have hlast := h.last
  rw [hkept]
  generalize env.release u.events.length = rel at *
  constructor
  · rintro ⟨hbusy, -, -⟩ hmembusy
    obtain ⟨e, he, hans⟩ := (hmem .busy).2 (Or.inr (Or.inl hmembusy))
    have hfinal := hbusy e he hans
    by_cases hrel : rel = .ok
    · rw [if_pos hrel, callbackStatus_busy] at hfinal
      obtain ⟨x, hx⟩ := Option.ne_none_iff_exists'.1
        (mt List.getLast?_eq_none_iff.1 (List.ne_nil_of_mem hmembusy))
      rw [hx]
      exact Or.inr ⟨hrel, by rw [← hlast x hx, hfinal]⟩
    · rw [if_neg hrel, callbackStatus_busy] at hfinal
      exact Or.inl hfinal
  · intro hkeep
    have hfinal : rel = .busy ∨ .busy ∈ answers env (s.svc.emitted (.acquire .ok)) r →
        callbackStatus (if rel = .ok then st else rel) = .busy := by
      rintro (rfl | hbusy)
      · rfl
      · rcases hkeep hbusy with rfl | ⟨rfl, hx⟩
        · rfl
        · rw [if_pos rfl, hlast _ hx]
          rfl
    have hcont : callbackStatus (if rel = .ok then st else rel) = .cont → rel = .ok ∧ st = .ok := by
      intro hc
      cases rel with
      | ok => exact ⟨rfl, callbackStatus_cont.1 hc⟩
      | busy | error => cases hc
    refine ⟨fun e he hans => ?_, fun hc e he x hx => ?_, fun hc => ?_⟩
    · rcases (hmem .busy).1 ⟨e, he, hans⟩ with hx | hx | hx
      · cases hx
      · exact hfinal (Or.inr hx)
      · exact hfinal (Or.inl hx.symm)
    · obtain ⟨hrel, hst⟩ := hcont hc
      rcases (hmem x).1 ⟨e, he, hx⟩ with rfl | hx | rfl
      · rfl
      · refine ok_of_last (fun y hy => ?_) (fun hbusy => ?_) (answers_dropLast env _ r) x hx
        · rw [← hlast y hy, hst]
        · rw [hfinal (Or.inr hbusy)] at hc
          cases hc
      · exact hrel
    · have hreports := h.reports (hcont hc).2
      rw [hserved] at hreports
      refine reports_congr ?_ hreports
      rw [hsince]
      simp [Event.isCall]

/-! ## Main results -/

/-- a served request, and one that does not get the lock -/
theorem wp_filesystemHandler_told (env : Env) (s : St) (r : Request) :
    wp (filesystemHandler env r) (fun x t => Told s.svc t.svc r x ↔ ¬ Hides env s r) (fun _ _ => ¬ Hides env s r) s := by
  simp only [filesystemHandler, lockAcquire, wp_bind, wp_get, wp_ite]
  by_cases hok : env.acquire s.svc.events.length = .ok
  · rw [if_pos hok]
    by_cases hlock : s.lock = 0
    · rw [if_pos hlock]
      exact fun hhides => hhides.2.1 hlock
    · simp only [if_neg hlock, hok, if_true, wp_onService, run_emit, wp_modify, wp_pure]
      refine wp_mono (serve_asks r) (fun x u hx => ?_) fun _ _ hnone hhides => ?_
      · rw [run_lockRelease]
        exact told_iff_of_asked hok hlock hx
      · obtain ⟨-, -, hbusy, q, hq, -⟩ := hhides
        rw [hnone hbusy] at hq
        cases hq
  · simp only [if_neg hok, wp_onService, run_emit, wp_pure]
    refine iff_of_true ?_ fun hhides => hok hhides.1
    have hsince : since s.svc (s.svc.emitted (.acquire (env.acquire s.svc.events.length))) =
        [.acquire (env.acquire s.svc.events.length)] := since_eq rfl
    have hcont : callbackStatus (env.acquire s.svc.events.length) ≠ .cont := fun hc => hok (callbackStatus_cont.1 hc)
    refine ⟨fun e he hans => ?_, fun hc => absurd hc hcont, fun hc => absurd hc hcont⟩
    rw [hsince, List.mem_singleton] at he
    subst he
    rw [Event.answered, Option.some.injEq] at hans
    rw [hans]
    rfl

/-- **Busy is never reported as a result**, exactly when no busy answer is hidden. From any state, whatever the platform,
memory, the lock and the callbacks answer: a request that returns is answered busy if the platform answered busy, and
continue only behind OK answers, with the status and the hash algorithm they gave. -/
theorem told_iff (env : Env) (s : St) (r : Request) :
    (∀ x t, filesystemHandler env r s = (.ok x, t) → Told s.svc t.svc r x) ↔ ¬ Hides env s r := by
  have h := wp_filesystemHandler_told env s r
  unfold wp at h
  rcases hrun : filesystemHandler env r s with ⟨_ | x, t⟩
  · rw [hrun] at h
    exact iff_of_true (fun x t hx => by cases hx) h
  · rw [hrun] at h
    refine ⟨fun hall => h.1 (hall x t rfl), fun hnot y u hy => ?_⟩
    cases hy
    exact h.2 hnot

/-- the platform is busy at its first call -/
def slow : Env :=
  { calm true with
    answer := fun n => ⟨if n = 1 then .busy else .ok, 0, 0, 3, 4, [], 0, 0, ⟨.unknown, 0, 0⟩, .md5, .unspec⟩
    settles := fun n => ⟨2, by simp [show n + 2 ≠ 1 by omega]⟩ }

/-- **A stat hides a busy answer**: the status of the entry is not there yet, and is reported. -/
theorem stat_hides : ¬ ∀ x t, filesystemHandler slow (.stat ⟨none, ascii "/a", .none, .none, ⟨.file, 7, 7⟩, none⟩) St.fresh =
    (.ok x, t) → Told St.fresh.svc t.svc (.stat ⟨none, ascii "/a", .none, .none, ⟨.file, 7, 7⟩, none⟩) x := by
  intro h
  have htold := h _ _ rfl
  have hbusy := htold.busy (.call (.dirEntryStatus (ascii "/a")) 0 (slow.answer 1)) (by decide) rfl
  cases hbusy

end CcApi.FileSystem
