/-
The access policy over runs of file-system requests (`ccapi_filesystem_handler.c`).

The user's access callback is asked about the local path a cloud path is translated to, before the platform opens or removes
a file or opens a directory. Everything else the connector does to a file goes through a handle, which a file handle's record
keeps.

- `Permitted`: what the calls of one request need: the callback's answer just before, or a handle from an allowed open.
- `permitted_run`: every request of every run is `Permitted`.
-/
import CcApi.FileSystem.Operations

namespace CcApi.FileSystem

open Lib Lib.Prog Lib.Runs

/-- what a call of request r needs, made behind the events before of earlier requests and, in the request itself, pre -/
structure Allowed (env : Env) (dirs : List VirtualDir) (r : Request) (before pre : List Event) (c : Call) : Prop where
  /-- the callback has just allowed the call, for the path that the request's cloud path is translated to -/
  asked : ∀ path request, c.asks = some (path, request) →
    (∃ cloud, r.cloudPath = some cloud ∧ localPath dirs cloud = some path) ∧
      (env.access.isSome → pre.getLast? = some (.access path request true))
  /-- the file was opened by a request, and allowed -/
  opened : ∀ x, c.onFile = some x → Opened env (before ++ pre) x

/-- every call among the events es of request r, behind the events before of earlier requests, is allowed -/
def Permitted (env : Env) (dirs : List VirtualDir) (r : Request) (before es : List Event) : Prop :=
  ∀ pre c ctx a post, es = pre ++ .call c ctx a :: post → Allowed env dirs r before pre c

section
variable {env : Env} {dirs : List VirtualDir} {r : Request} {before es : List Event}

theorem permitted_nil : Permitted env dirs r before [] := by
  intro pre c ctx a post h
  simp at h

theorem permitted_concat {e : Event} (h : Permitted env dirs r before es)
    (he : ∀ c ctx a, e = .call c ctx a → Allowed env dirs r before es c) : Permitted env dirs r before (es ++ [e]) := by
  intro pre c ctx a post heq
  rcases List.eq_nil_or_concat post with rfl | ⟨post', y, rfl⟩
  · obtain ⟨rfl, hlast⟩ := List.append_inj' heq rfl
    exact he c ctx a (List.singleton_inj.1 hlast)
  · have hcat : es ++ [e] = (pre ++ .call c ctx a :: post') ++ [y] := by simpa using heq
    exact h pre c ctx a post' (List.append_inj' hcat rfl).1

/-- the request's own events begin with one that is no call -/
theorem permitted_cons {e : Event} (he : ∀ c ctx a, e ≠ .call c ctx a) (h : Permitted env dirs r (before ++ [e]) es) :
    Permitted env dirs r before (e :: es) := by
  intro pre c ctx a post heq
  cases pre with
  | nil =>
    rw [List.nil_append, List.cons.injEq] at heq
    exact absurd heq.1 (he c ctx a)
  | cons x pre =>
    rw [List.cons_append, List.cons.injEq] at heq
    obtain ⟨rfl, heq⟩ := heq
    obtain ⟨hasked, hopened⟩ := h pre c ctx a post heq
    refine ⟨fun path request hc => ⟨(hasked path request hc).1, fun hsome => ?_⟩, fun y hy => ?_⟩
    · have hlast := (hasked path request hc).2 hsome
      cases pre with
      | nil => cases hlast
      | cons z pre => exact hlast
    · simpa using hopened y hy

theorem Opened.append {x : ℤ} (h : Opened env es x) (es' : List Event) : Opened env (es ++ es') x := by
  obtain ⟨pre, post, path, flags, ctx, a, rfl, hok, hx, hguard⟩ := h
  exact ⟨pre, post ++ es', path, flags, ctx, a, by simp, hok, hx, hguard⟩

theorem Opened.behind {x : ℤ} (own : List Event) (h : Opened env es x) : Opened env (own ++ es) x := by
  obtain ⟨pre, post, path, flags, ctx, a, rfl, hok, hx, hguard⟩ := h
  refine ⟨own ++ pre, post, path, flags, ctx, a, by simp, hok, hx, fun hsome => ?_⟩
  rw [List.getLast?_append, hguard hsome]
  rfl

end

/-- every file handle's record is about a file that was opened by a request, and allowed; own are the requests' events -/
def FilesOpened (env : Env) (own : List Event) (s : Service) : Prop :=
  ∀ p f, s.heap p = some (.file f) → Opened env own f.ccimpHandle

/-! ## A request -/

section
variable {env : Env} {own : List Event} {s : Service}

theorem FilesOpened.append (h : FilesOpened env own s) (es : List Event) : FilesOpened env (own ++ es) s :=
  fun p f hp => (h p f hp).append es

theorem FilesOpened.alloc (h : FilesOpened env own s) {b : Block} (hb : ∀ f, b = .file f → Opened env own f.ccimpHandle) :
    FilesOpened env own (s.alloc b) := by
  intro p f hp
  rw [Service.alloc_heap] at hp
  by_cases hps : p = s.next
  · subst hps
    rw [Function.update_self, Option.some.injEq] at hp
    exact hb f hp
  · rw [Function.update_of_ne hps] at hp
    exact h p f hp

theorem FilesOpened.freed (h : FilesOpened env own s) (q : ℕ) : FilesOpened env own (s.freed q) := by
  intro p f hp
  rw [Service.freed_heap] at hp
  by_cases hpq : p = q
  · subst hpq
    rw [Function.update_self] at hp
    cases hp
  · rw [Function.update_of_ne hpq] at hp
    exact h p f hp

theorem FilesOpened.stored (h : FilesOpened env own s) {q : ℕ} {b : Block}
    (hb : ∀ f, b = .file f → Opened env own f.ccimpHandle) : FilesOpened env own (s.stored q b) := by
  intro p f hp
  rw [Service.stored_heap] at hp
  by_cases hpq : p = q
  · subst hpq
    rw [Function.update_self, Option.some.injEq] at hp
    exact hb f hp
  · rw [Function.update_of_ne hpq] at hp
    exact h p f hp

theorem FilesOpened.asked (h : FilesOpened env own s) (path : Str) (request : FsRequest) (allow : Bool) :
    FilesOpened env own (s.asked env path request allow) := by
  unfold Service.asked
  split_ifs <;> exact h

/-- what was opened stays so while the request's events grow -/
theorem FilesOpened.grow {t u v : Service} (h : FilesOpened env (own ++ since s t) v) (ht : s.events <+: t.events)
    (hu : t.events <+: u.events) : FilesOpened env (own ++ since s u) v := by
  obtain ⟨es, hes⟩ := ht
  obtain ⟨es', hes'⟩ := hu
  rw [since_eq hes.symm] at h
  rw [since_eq (l := es ++ es') (by rw [← hes', ← hes, List.append_assoc]), ← List.append_assoc]
  exact h.append es'

/-- **What is opened is allowed**: no effect of a request makes a file handle for another file. -/
theorem Effects.filesOpened {r : Request} {t : Service} (h : Effects env r s t) (hs : FilesOpened env own s) :
    FilesOpened env (own ++ since s t) t := by
  induction h with
  | refl => exact hs.append _
  | alloc h hb ih =>
    refine (ih.grow h.events (List.prefix_append _ _)).alloc fun f hf => ?_
    subst hf
    cases hb
  | refused h ih | peek h _ _ _ _ ih | changed h _ _ ih => exact ih.grow h.events (List.prefix_append _ _)
  | call h _ _ ih => exact ih.grow h.events (List.prefix_append _ _)
  | deny h _ _ ih => exact (ih.grow h.events (asked_events List.prefix_rfl _ _ _)).asked _ _ _
  | @allow t h c cloud path request _ _ _ ih =>
    have hprefix : t.events <+: (t.asked env path request true).events := asked_events List.prefix_rfl path request true
    have hasked := (ih.grow h.events hprefix).asked path request true
    exact hasked.grow (asked_events h.events _ _ _) (List.prefix_append _ _)
  | file h ho request ih =>
    refine (ih.grow h.events (List.prefix_append _ _)).alloc fun f hf => ?_
    cases hf
    refine Opened.behind own ?_
    have hsince := since_emitted h.events (.malloc true)
    exact hsince ▸ ho.append [.malloc true]
  | named _ hp _ ih =>
    have hopened := ih _ _ hp
    refine ih.stored fun f hf => ?_
    cases hf
    exact hopened
  | moved _ _ _ ih => exact ih.stored fun f hf => by cases hf
  | freePath h _ ih | freeName h _ _ ih | freeFile h _ ih | freeContext h _ _ _ ih
  | freeError h _ _ ih =>
    exact (ih.grow h.events (List.prefix_append _ _)).freed _

/-- one event more -/
theorem permitted_grow {dirs : List VirtualDir} {r : Request} {t u : Service} {e : Event} (ht : s.events <+: t.events)
    (hu : u.events = t.events ++ [e]) (h : Permitted env dirs r own (since s t))
    (he : ∀ c ctx a, e = .call c ctx a → Allowed env dirs r own (since s t) c) :
    Permitted env dirs r own (since s u) := by
  have hsince : since s u = since s t ++ [e] := by
    rw [← since_emitted ht e, since, since, hu, Service.emitted_events]
  rw [hsince]
  exact permitted_concat h he

theorem permitted_quiet {dirs : List VirtualDir} {r : Request} {t u : Service} {e : Event} (ht : s.events <+: t.events)
    (hu : u.events = t.events ++ [e]) (h : Permitted env dirs r own (since s t)) (he : ∀ c ctx a, e ≠ .call c ctx a) :
    Permitted env dirs r own (since s u) :=
  permitted_grow ht hu h fun c ctx a hc => absurd hc (he c ctx a)

theorem permitted_asked {dirs : List VirtualDir} {r : Request} {t : Service} (ht : s.events <+: t.events)
    (h : Permitted env dirs r own (since s t)) (path : Str) (request : FsRequest) (allow : Bool) :
    Permitted env dirs r own (since s (t.asked env path request allow)) := by
  unfold Service.asked
  split_ifs
  · exact permitted_quiet ht rfl h (by simp)
  · exact h

theorem onFile_of_asks {c : Call} {x : Str × FsRequest} (h : c.asks = some x) : c.onFile = none := by
  cases c <;> first | rfl | cases h

/-- **Every call of a request is allowed.** -/
theorem Effects.permitted {r : Request} {t : Service} (h : Effects env r s t) (hs : FilesOpened env own s) :
    Permitted env s.virtualDirList r own (since s t) := by
  induction h with
  | refl =>
    rw [since_eq (l := []) (by simp)]
    exact permitted_nil
  | alloc h _ ih | refused h ih | changed h _ _ ih | file h _ _ ih | freePath h _ ih | freeName h _ _ ih
  | freeFile h _ ih | freeContext h _ _ _ ih | freeError h _ _ ih => exact permitted_quiet h.events rfl ih (by simp)
  | named _ _ _ ih | moved _ _ _ ih => exact ih
  | deny h path request ih => exact permitted_asked h.events ih path request false
  | call h hasks hf ih =>
    refine permitted_grow h.events rfl ih fun c ctx a hc => ?_
    cases hc
    refine ⟨fun path request hc => ?_, fun x hx => ?_⟩
    · rw [hasks] at hc
      cases hc
    · -- the handle is in a live record
      obtain ⟨p, f, hp, hfx⟩ := hf x hx
      rw [← hfx]
      exact h.filesOpened hs p f hp
  | peek h _ path _ _ ih =>
    refine permitted_grow h.events rfl ih fun c ctx a hc => ?_
    cases hc
    refine ⟨fun path request hc => ?_, fun x hx => ?_⟩
    · cases hc
    · cases hx
  | allow h hr hp hask ih =>
    refine permitted_grow (asked_events h.events _ _ _) rfl (permitted_asked h.events ih _ _ true) fun c ctx a hc => ?_
    cases hc
    refine ⟨fun path request hc => ?_, fun x hx => ?_⟩
    · rw [hask, Option.some.injEq, Prod.mk.injEq] at hc
      obtain ⟨rfl, rfl⟩ := hc
      refine ⟨⟨_, hr, ?_⟩, fun hsome => ?_⟩
      · rw [← h.dirs]
        exact hp
      · rw [Service.asked, if_pos hsome, since_emitted h.events]
        simp
    · rw [onFile_of_asks hask] at hx
      cases hx

/-! ## An operation -/

theorem Rounds.heap {c : Call} {t u : Service} {ctx : ℕ} (h : Rounds env c t ctx u) (ht : FilesOpened env own t) :
    FilesOpened env own u := by
  rw [FilesOpened, h.heap_eq]
  exact ht

/-- an operation of the library makes no file handle -/
theorem Does.filesOpened {o : Op} {t : Service} (h : Does env o s t) (ho : ∀ r, o ≠ .handler r)
    (hs : FilesOpened env own s) : FilesOpened env own t := by
  induction h with
  | refl => exact hs
  | acquired _ _ ih | released _ _ ih | refused _ ih => exact ih
  | served hr _ => exact absurd hr (ho _)
  | looped _ _ hr ih => exact hr.heap ih
  | entry _ hb ih =>
    refine ih.alloc fun f hf => ?_
    rcases hb with rfl | ⟨p, rfl⟩ <;> cases hf
  | drop _ _ _ ih | freeEntry _ _ _ _ ih => exact ih.freed _
  | listed _ _ ih | unlisted _ _ ih => exact ih

/-- **Every call of the connector's requests is allowed**, with the lock around them. -/
theorem Does.permitted {r : Request} {t : Service} (h : Does env (.handler r) s t) (hs : FilesOpened env own s) :
    Permitted env s.virtualDirList r own (since s t) ∧ FilesOpened env (own ++ since s t) t := by
  induction h with
  | refl =>
    rw [since_eq (l := []) (by simp)]
    exact ⟨permitted_nil, hs.append _⟩
  | acquired h _ ih | released h _ ih | refused h ih =>
    exact ⟨permitted_quiet h.events rfl ih.1 (by simp), ih.2.grow h.events (List.prefix_append _ _)⟩
  | entry h hb ih =>
    refine ⟨permitted_quiet h.events rfl ih.1 (by simp), ?_⟩
    refine (ih.2.grow h.events (List.prefix_append _ _)).alloc fun f hf => ?_
    rcases hb with rfl | ⟨p, rfl⟩ <;> cases hf
  | drop h _ _ ih | freeEntry h _ _ _ ih =>
    exact ⟨permitted_quiet h.events rfl ih.1 (by simp), (ih.2.grow h.events (List.prefix_append _ _)).freed _⟩
  | @served t r' hr h =>
    cases hr
    rw [since_behind h.events]
    have hs' : FilesOpened env (own ++ [.acquire .ok]) (s.emitted (.acquire .ok)) := hs.append _
    refine ⟨permitted_cons (by simp) (h.permitted hs'), ?_⟩
    simpa using h.filesOpened hs'
  | looped _ ho => exact absurd rfl (ho r)
  | listed _ _ ih | unlisted _ _ ih => exact ih

/-! ## Runs -/

/-- the events of a run's requests -/
def requestEvents (env : Env) : Run → List Op → List Event
  | _, [] => []
  | x, .handler r :: ops =>
    since x.st.svc (x.step env (.handler r)).st.svc ++ requestEvents env (x.step env (.handler r)) ops
  | x, o :: ops => requestEvents env (x.step env o) ops

theorem requestEvents_cons {x : Run} {o : Op} (ho : ∀ r, o ≠ .handler r) (ops : List Op) :
    requestEvents env x (o :: ops) = requestEvents env (x.step env o) ops := by
  cases o with
  | handler r => exact absurd rfl (ho r)
  | _ => rfl

theorem run_filesOpened {x : Run} (hx : Tidy x.st.svc) (h : FilesOpened env own x.st.svc) (ops : List Op) :
    FilesOpened env (own ++ requestEvents env x ops) (run (Run.step env) x ops).st.svc := by
  induction ops generalizing x own with
  | nil => exact h.append _
  | cons o ops ih =>
    have hstep : Does env o x.st.svc (x.step env o).st.svc := Run.step_does hx o
    by_cases ho : ∃ r, o = .handler r
    · obtain ⟨r, rfl⟩ := ho
      have hopened := (hstep.permitted h).2
      have hrest := ih (tidy_step x _ hx) hopened
      rwa [List.append_assoc] at hrest
    · have ho : ∀ r, o ≠ .handler r := fun r hr => ho ⟨r, hr⟩
      rw [requestEvents_cons ho]
      exact ih (tidy_step x o hx) (hstep.filesOpened ho h)

/-- the service with some virtual directories mapped and nothing asked yet -/
def St.mapped (dirs : List VirtualDir) : St := { St.fresh with svc := { St.fresh.svc with virtualDirList := dirs } }

theorem tidy_mapped (dirs : List VirtualDir) : Tidy (St.mapped dirs).svc := tidy_fresh.congr rfl rfl

/-- a run from there -/
def Run.of (env : Env) (dirs : List VirtualDir) (ops : List Op) : Run :=
  run (Run.step env) (Run.start (St.mapped dirs)) ops

/-- **The access policy.** Whatever the callback, the virtual directories, the platform, memory and the lock, behind every run
of requests, of the library's own operations and of changes of the virtual directories: a request's call that opens or
removes a file or opens a directory comes just behind the callback's consent, asked for the local path of the request's own
cloud path and for what the call does; and its calls on a file are on handles from such opens of this request or an earlier
one. -/
theorem permitted_run (env : Env) (dirs : List VirtualDir) (ops : List Op) (r : Request) :
    Permitted env (Run.of env dirs ops).st.svc.virtualDirList r (requestEvents env (Run.start (St.mapped dirs)) ops)
      (since (Run.of env dirs ops).st.svc ((Run.of env dirs ops).step env (.handler r)).st.svc) := by
  have htidy : Tidy (Run.of env dirs ops).st.svc :=
    run_inv_all (I := fun x : Run => Tidy x.st.svc) tidy_step (tidy_mapped dirs) ops
  have hopened := @run_filesOpened env [] (Run.start (St.mapped dirs)) (tidy_mapped dirs) (fun p f hp => by cases hp) ops
  exact ((Run.step_does htidy (.handler r)).permitted hopened).1

end

end CcApi.FileSystem
