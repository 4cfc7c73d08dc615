/-
What every operation of the file-system service does to it: the connector's requests, the library's own file operations
(`ccapi.c`) and the changes of the virtual directories (`ccapi_filesystem.c`).

- `exec_does`: an operation is a sequence of what `Does` lists, and a request's answer is as `Answers` says.
- `Run.step_does`: the same for a step of a run.
-/
import CcApi.FileSystem.Effects
import CcApi.FileSystem.Lock

namespace CcApi.FileSystem

open Lib Lib.Prog Lib.Runs

/-- the blocks of a list entry -/
def VirtualDir.blocks (d : VirtualDir) : List ℕ := [d.node, d.virtualBlock, d.localBlock]

/-- number p holds no error handle, now or later -/
def Service.NoError (s : Service) (p : ℕ) : Prop := p < s.next ∧ ∀ e, s.heap p ≠ some (.error e)

theorem noError_next (s : Service) {b : Block} (hb : ∀ e, b ≠ .error e) : (s.alloc b).NoError s.next := by
  refine ⟨Nat.lt_succ_self _, fun e he => hb e ?_⟩
  rw [Service.alloc_heap, Function.update_self] at he
  exact Option.some.inj he

theorem Service.NoError.alloc {s : Service} {p : ℕ} (h : s.NoError p) (b : Block) : (s.alloc b).NoError p := by
  refine ⟨Nat.lt_succ_of_lt h.1, fun e => ?_⟩
  rw [Service.alloc_heap, Function.update_of_ne h.1.ne]
  exact h.2 e

theorem Service.NoError.freed {s : Service} {p : ℕ} (h : s.NoError p) (q : ℕ) : (s.freed q).NoError p := by
  refine ⟨h.1, fun e => ?_⟩
  rw [Service.freed_heap]
  by_cases hpq : p = q
  · simp [hpq]
  · rw [Function.update_of_ne hpq]
    exact h.2 e

theorem Service.NoError.stored {s : Service} {p : ℕ} (h : s.NoError p) (q : ℕ) {b : Block} (hb : ∀ e, b ≠ .error e) :
    (s.stored q b).NoError p := by
  refine ⟨h.1, fun e => ?_⟩
  rw [Service.stored_heap]
  by_cases hpq : p = q
  · rw [hpq, Function.update_self]
    exact fun he => hb e (Option.some.inj he)
  · rw [Function.update_of_ne hpq]
    exact h.2 e

/-- the rounds of a `do … while` on the platform's busy answers: the context so far, and the service -/
inductive Rounds (env : Env) (c : Call) (s : Service) : ℕ → Service → Prop where
  | start : Rounds env c s s.impContext s
  | again {ctx : ℕ} {t : Service} (h : Rounds env c s ctx t) :
      Rounds env c s (env.answer t.events.length).impContext (t.emitted (.call c ctx (env.answer t.events.length)))

/-- t comes from s by what operation o may do -/
inductive Does (env : Env) (o : Op) (s : Service) : Service → Prop where
  | refl : Does env o s s
  | acquired {t : Service} (h : Does env o s t) (st : CcimpStatus) : Does env o s (t.emitted (.acquire st))
  | released {t : Service} (h : Does env o s t) (st : CcimpStatus) : Does env o s (t.emitted (.release st))
  | served {t : Service} {r : Request} (ho : o = .handler r) (h : Effects env r (s.emitted (.acquire .ok)) t) :
      Does env o s t
  | looped {t u : Service} {c : Call} {ctx : ℕ} (h : Does env o s t) (ho : ∀ r, o ≠ .handler r)
      (hr : Rounds env c t ctx u) : Does env o s { u with impContext := ctx }
  | entry {t : Service} (h : Does env o s t) {b : Block} (hb : b = .node ∨ ∃ p, b = .path p) :
      Does env o s (t.alloc b)
  | refused {t : Service} (h : Does env o s t) : Does env o s (t.emitted (.malloc false))
  /-- what was just allocated is given up again -/
  | drop {t : Service} (h : Does env o s t) {p : ℕ} (hp : s.next ≤ p) (hl : t.heap p ≠ none) : Does env o s (t.freed p)
  | listed {t : Service} (h : Does env o s t) {d : VirtualDir} (hd : ∀ p ∈ d.blocks, t.NoError p) :
      Does env o s { t with virtualDirList := d :: t.virtualDirList }
  | unlisted {t : Service} (h : Does env o s t) (f : VirtualDir → Bool) :
      Does env o s { t with virtualDirList := t.virtualDirList.eraseP f }
  | freeEntry {t : Service} (h : Does env o s t) {d : VirtualDir} (hd : d ∈ s.virtualDirList) {p : ℕ}
      (hp : p ∈ d.blocks) (hl : t.heap p ≠ none) : Does env o s (t.freed p)

/-- a request's answer: the errnum, and what an error means when no lock operation of the request failed -/
structure Answered (s t : Service) (r : Request) (x : CallbackStatus × Request) : Prop where
  errnum : Handed s r.errnum x.2.errnum t
  report : r.reports = true → x.1 = .error → (∀ st, .acquire st ∈ since s t ∨ .release st ∈ since s t → st = .ok) →
    Reported s r.errnum x.2.errnum t

def Answers (s t : Service) : Op → Result → Prop
  | .handler r, .handler x => Answered s t r x
  | _, _ => True

/-! ## The lock -/

section
variable {env : Env} {s : St}

theorem wp_lockAcquire_cases {Q : CcimpStatus → St → Prop} {E : Stuck → St → Prop} (hblocked : E .blocked s)
    (hok : ∀ t : St, t.svc = s.svc.emitted (.acquire .ok) → Q .ok t)
    (hfail : ∀ st, st ≠ .ok → ∀ t : St, t.svc = s.svc.emitted (.acquire st) → Q st t) : wp (lockAcquire env) Q E s := by
  simp only [lockAcquire, wp_bind, wp_get, wp_ite, wp_throw, wp_onService, run_emit, wp_modify, wp_pure]
  split_ifs with h hlock
  · exact hblocked
  · rw [h]
    exact hok _ rfl
  · exact hfail _ h _ rfl

theorem run_lockRelease {Q : CcimpStatus → St → Prop} {E : Stuck → St → Prop} :
    wp (lockRelease env) Q E s ↔
      Q (env.release s.svc.events.length)
        { lock := if env.release s.svc.events.length = .ok then s.lock + 1 else s.lock
          svc := s.svc.emitted (.release (env.release s.svc.events.length)) } := by
  simp only [lockRelease, wp_bind, wp_get, wp_ite, wp_onService, run_emit, wp_modify, wp_pure]
  split_ifs <;> rfl

theorem wp_assertMsgRelease_does {o : Op} {s₀ : Service} (h : Does env o s₀ s.svc) {Q : Unit → St → Prop}
    {E : Stuck → St → Prop} (hQ : ∀ t : St, Does env o s₀ t.svc → Q () t) : wp (assertMsgRelease env) Q E s := by
  unfold assertMsgRelease
  split_ifs
  · rw [wp_bind, run_lockRelease]
    exact hQ _ (h.released _)
  · exact hQ s h

/-! ## The library's own operations -/

/-- the loop ends, whatever the number of busy answers, and keeps the last answer's context -/
theorem wp_callUntilDone_does {c : Call} {o : Op} {s₀ t : Service} (ht : Does env o s₀ t) (ho : ∀ r, o ≠ .handler r)
    {fuel ctx : ℕ} {u : Service} (hr : Rounds env c t ctx u)
    (h : ∃ k < fuel, (env.answer (u.events.length + k)).status ≠ .busy) :
    wp (callUntilDone env c fuel ctx) (fun _ v => Does env o s₀ v) (fun _ _ => False) u := by
  induction fuel generalizing ctx u with
  | zero =>
    obtain ⟨k, hk, -⟩ := h
    exact absurd hk (Nat.not_lt_zero k)
  | succ fuel ih =>
    simp only [callUntilDone, ccimpCall, now, run_emit, wp_bind, wp_get, wp_pure, wp_modify, wp_ite]
    split_ifs with hbusy
    · refine ih hr.again ?_
      obtain ⟨k, hk, hne⟩ := h
      cases k with
      | zero => exact absurd hbusy hne
      | succ k =>
        refine ⟨k, by omega, ?_⟩
        rw [Service.emitted_events, List.length_append, List.length_singleton, Nat.add_assoc, Nat.add_comm 1 k]
        exact hne
    · exact ht.looped ho hr.again

theorem wp_lockedCall_does {o : Op} (ho : ∀ r, o ≠ .handler r) (c : Call) {s₀ : Service} (h : Does env o s₀ s.svc) :
    wp (lockedCall env c) (fun _ t => Does env o s₀ t.svc) (fun _ t => Does env o s₀ t.svc) s := by
  unfold lockedCall
  rw [wp_bind]
  refine wp_lockAcquire_cases h (fun t ht => ?_) fun st hst t ht => ?_
  · rw [if_pos rfl, wp_bind, wp_onService, wp_bind, wp_get]
    have hacquired : Does env o s₀ t.svc := by
      rw [ht]
      exact h.acquired .ok
    refine wp_mono (wp_callUntilDone_does hacquired ho .start ⟨env.busyFrom _, Nat.lt_succ_self _, ?_⟩) ?_
      fun _ _ hf => hf.elim
    · exact Nat.find_spec (env.settles _)
    · intro a u hu
      rw [wp_bind]
      exact wp_assertMsgRelease_does hu fun v hv => hv
  · rw [if_neg hst, wp_pure, ht]
    exact h.acquired st

/-! ## The virtual directories -/

/-- the three blocks of a new entry, or none -/
theorem wp_createVirtualDirEntry_does {o : Op} {s₀ t : Service} (h : Does env o s₀ t) (hle : s₀.next ≤ t.next)
    (v l : Str) :
    wp (createVirtualDirEntry env v l)
      (fun d u => Does env o s₀ u ∧ ∀ x, d = some x → ∀ p ∈ x.blocks, u.NoError p)
      (fun _ u => Does env o s₀ u) t := by
  unfold createVirtualDirEntry
  rw [wp_bind, run_malloc]
  split_ifs
  · have h1 := h.entry (b := .node) (Or.inl rfl)
    dsimp only
    rw [wp_bind, run_malloc]
    split_ifs
    · have h2 := h1.entry (b := .path l) (Or.inr ⟨l, rfl⟩)
      dsimp only
      rw [wp_bind, run_malloc]
      split_ifs
      · have h3 := h2.entry (b := .path v) (Or.inr ⟨v, rfl⟩)
        refine ⟨h3, fun x hx p hp => ?_⟩
        cases hx
        simp only [VirtualDir.blocks, List.mem_cons, List.not_mem_nil, or_false] at hp
        rcases hp with rfl | rfl | rfl
        · exact ((noError_next t (by simp)).alloc _).alloc _
        · exact noError_next _ (by simp)
        · exact (noError_next _ (by simp)).alloc _
      · dsimp only
        rw [wp_bind, run_free]
        split
        · have h3 := h2.refused.drop (p := (t.alloc .node).next) (by simp only [Service.alloc_next]; omega) (by simp)
          rw [wp_bind, run_free]
          split
          · next b hb => exact ⟨h3.drop hle (Option.ne_none_iff_exists'.2 ⟨b, hb⟩), fun x hx => by cases hx⟩
          · exact h3
        · exact h2.refused
    · dsimp only
      rw [wp_bind, run_free]
      split
      · exact ⟨h1.refused.drop hle (by simp), fun x hx => by cases hx⟩
      · exact h1.refused
  · exact ⟨h.refused, fun x hx => by cases hx⟩

theorem wp_addVirtualDirEntry_does {o : Op} {s₀ : Service} (h : Does env o s₀ s.svc) {d : VirtualDir}
    (hd : ∀ p ∈ d.blocks, s.svc.NoError p) :
    wp (addVirtualDirEntry env d) (fun _ t => Does env o s₀ t.svc) (fun _ t => Does env o s₀ t.svc) s := by
  unfold addVirtualDirEntry
  rw [wp_bind]
  refine wp_lockAcquire_cases h (fun t ht => ?_) fun st hst t ht => ?_
  · rw [if_pos rfl, wp_bind, wp_onService, wp_modify, wp_bind, run_lockRelease, wp_pure, ht]
    exact ((h.acquired .ok).listed hd).released _
  · rw [if_neg hst, wp_pure, ht]
    exact h.acquired st

theorem Rounds.next_eq {c : Call} {t u : Service} {ctx : ℕ} (h : Rounds env c t ctx u) : u.next = t.next := by
  induction h with
  | start => rfl
  | again _ ih => exact ih

theorem Does.next_le {o : Op} {s t : Service} (h : Does env o s t) : s.next ≤ t.next := by
  induction h with
  | refl => exact le_rfl
  | served _ h => exact h.next_le
  | looped _ _ hr ih =>
    rw [hr.next_eq]
    exact ih
  | entry _ _ ih => exact Nat.le_succ_of_le ih
  | _ => assumption

theorem Rounds.events {c : Call} {t u : Service} {ctx : ℕ} (h : Rounds env c t ctx u) : t.events <+: u.events := by
  induction h with
  | start => exact List.prefix_rfl
  | again _ ih => exact ih.trans (List.prefix_append _ _)

theorem Does.events {o : Op} {s t : Service} (h : Does env o s t) : s.events <+: t.events := by
  induction h with
  | refl => exact List.prefix_rfl
  | served _ h => exact (List.prefix_append _ _).trans h.events
  | looped _ _ hr ih => exact ih.trans hr.events
  | listed _ _ ih | unlisted _ _ ih => exact ih
  | _ => exact List.IsPrefix.trans (by assumption) (List.prefix_append _ _)

theorem wp_mapVirtualDir_does {o : Op} (ho : ∀ r, o ≠ .handler r) {s₀ : Service} (h : Does env o s₀ s.svc) (v l : Str) :
    wp (mapVirtualDir env v l) (fun _ t => Does env o s₀ t.svc) (fun _ t => Does env o s₀ t.svc) s := by
  simp only [mapVirtualDir, pathIsADir, getDirEntryStatus, wp_bind, wp_pure]
  refine wp_mono (wp_lockedCall_does ho _ h) (fun a t ht => ?_) fun _ _ he => he
  rw [wp_ite]
  split_ifs
  · rw [wp_bind, wp_onService]
    refine wp_mono (wp_createVirtualDirEntry_does ht ht.next_le v l) ?_ fun _ _ he => he
    rintro d u ⟨hu, hd⟩
    cases d with
    | none => exact hu
    | some d => exact wp_addVirtualDirEntry_does (s := { t with svc := u }) hu (hd d rfl)
  · exact ht

theorem wp_freeDir_does {o : Op} {s₀ t : Service} {d : VirtualDir} (hd : d ∈ s₀.virtualDirList) (h : Does env o s₀ t) :
    wp (freeDir env d) (fun _ u => Does env o s₀ u) (fun _ u => Does env o s₀ u) t := by
  simp only [freeDir, wp_bind, run_free]
  split
  · next b hb =>
    have h1 := h.freeEntry hd (p := d.localBlock) (by simp [VirtualDir.blocks]) (by simp [hb])
    split
    · next b hb =>
      have h2 := h1.freeEntry hd (p := d.virtualBlock) (by simp [VirtualDir.blocks]) (by simp [hb])
      split
      · next b hb => exact h2.freeEntry hd (by simp [VirtualDir.blocks]) (by simp [hb])
      · exact h2
    · exact h1
  · exact h

theorem wp_removeVirtualDir_does {o : Op} (stopped : Bool) (v : Option Str) :
    wp (removeVirtualDir env stopped v) (fun _ t => Does env o s.svc t.svc) (fun _ t => Does env o s.svc t.svc) s := by
  unfold removeVirtualDir
  rw [wp_ite, wp_ite]
  split_ifs
  · exact .refl
  · exact .refl
  · cases v with
    | none => exact .refl
    | some v =>
      dsimp only
      rw [wp_ite]
      split_ifs
      · exact .refl
      · rw [wp_bind]
        refine wp_lockAcquire_cases .refl (fun t ht => ?_) fun st hst t ht => ?_
        · simp only [if_true, wp_bind, wp_onService, unlinkDir, wp_get, wp_modify, wp_pure, run_lockRelease, ht]
          have hreleased := ((Does.refl : Does env o s.svc s.svc).acquired .ok).unlisted (·.isNamed v v.length)
          have hlist : (s.svc.emitted (.acquire .ok)).virtualDirList = s.svc.virtualDirList := rfl
          cases hfind : findDir v v.length (s.svc.emitted (.acquire .ok)).virtualDirList with
          | none => exact hreleased.released _
          | some d =>
            have hd : d ∈ s.svc.virtualDirList := by
              rw [hlist] at hfind
              exact List.mem_of_find?_eq_some hfind
            dsimp only
            rw [wp_bind, wp_onService]
            exact wp_freeDir_does hd (hreleased.released _)
        · rw [if_neg hst, wp_pure, ht]
          exact Does.refl.acquired st

/-! ## The connector's requests -/

/-- a report outlives what the handler does with the lock around the request -/
theorem Reported.locked {was n : Option ℕ} {s u : Service} {st : CcimpStatus}
    (hu : (s.emitted (.acquire .ok)).events <+: u.events) (h : Reported (s.emitted (.acquire .ok)) was n u) :
    Reported s was n (u.emitted (.release st)) := by
  obtain ⟨es, hes⟩ := hu
  have hinner : since (s.emitted (.acquire .ok)) u = es := since_eq hes.symm
  have houter : since s (u.emitted (.release st)) = .acquire .ok :: es ++ [.release st] := by
    refine since_eq ?_
    rw [Service.emitted_events, ← hes]
    simp
  rw [Reported, hinner] at h
  rw [Reported, houter]
  rcases h with ⟨p, e, hp, hle, hheap, hdesc⟩ | ⟨hwas, hlast⟩
  · refine Or.inl ⟨p, e, hp, hle, hheap, ?_⟩
    cases e with
    | ccimp m =>
      obtain ⟨c, ctx, a, hmem, ha⟩ := hdesc
      exact ⟨c, ctx, a, by simp [hmem], ha⟩
    | internal e =>
      cases e with
      | accessDenied =>
        obtain ⟨path, request, hmem⟩ := hdesc
        exact ⟨path, request, by simp [hmem]⟩
      | invalidPath =>
        intro x hx
        simp only [List.cons_append, List.mem_cons, List.mem_append, List.not_mem_nil, or_false] at hx
        rcases hx with rfl | hx | rfl
        · rfl
        · exact hdesc x hx
        · rfl
  · exact Or.inr ⟨hwas, by simpa [lastMalloc] using hlast⟩

theorem callbackStatus_error {st : CcimpStatus} : callbackStatus st = .error ↔ st = .error := by
  cases st <;> simp [callbackStatus]

theorem wp_filesystemHandler_does (hs : Tidy s.svc) (r : Request) :
    wp (filesystemHandler env r)
      (fun x t => Does env (.handler r) s.svc t.svc ∧ Answers s.svc t.svc (.handler r) (.handler x))
      (fun _ t => Does env (.handler r) s.svc t.svc) s := by
  unfold filesystemHandler
  rw [wp_bind]
  refine wp_lockAcquire_cases .refl (fun t ht => ?_) fun st hst t ht => ?_
  · rw [if_pos rfl, wp_bind, wp_onService, ht]
    refine wp_mono (serve_effects (hs.emitted _) r) ?_ fun _ u hu => .served rfl hu
    rintro ⟨st, r'⟩ u ⟨hu, hrep, hsame⟩
    rw [wp_bind, run_lockRelease, wp_pure]
    refine ⟨(Does.served rfl hu).released _, ?_, fun hr herr hlock => ?_⟩
    · cases hr : r.reports with
      | true => exact (hrep hr).handed
      | false => exact Or.inl (hsame hr)
    have hok : env.release u.events.length = .ok := by
      refine hlock _ (Or.inr ?_)
      obtain ⟨es, hes⟩ := hu.events
      rw [since_eq (l := .acquire .ok :: es ++ [.release (env.release u.events.length)])]
      · simp
      · rw [Service.emitted_events] at hes
        simp [← hes]
    simp only [hok, if_true, callbackStatus_error] at herr
    exact ((hrep hr).error herr).locked hu.events
  · rw [if_neg hst, wp_pure, ht]
    refine ⟨Does.refl.acquired st, Or.inl rfl, fun _ _ hlock => absurd (hlock st (Or.inl ?_)) hst⟩
    rw [since_emitted List.prefix_rfl]
    simp

/-! ## Every operation -/

/-- **What an operation does.** -/
theorem exec_does (hs : Tidy s.svc) (o : Op) :
    wp (o.exec env) (fun x t => Does env o s.svc t.svc ∧ Answers s.svc t.svc o x) (fun _ t => Does env o s.svc t.svc) s := by
  cases o with
  | openFile p f =>
    simp only [Op.exec, FileSystem.openFile, wp_bind, wp_pure]
    exact wp_mono (wp_lockedCall_does (by simp) _ .refl) (fun x t ht => ⟨ht, trivial⟩) fun _ _ ht => ht
  | readFile h n =>
    simp only [Op.exec, FileSystem.readFile, wp_bind, wp_pure]
    exact wp_mono (wp_lockedCall_does (by simp) _ .refl) (fun x t ht => ⟨ht, trivial⟩) fun _ _ ht => ht
  | closeFile h =>
    simp only [Op.exec, FileSystem.closeFile, wp_bind, wp_pure]
    exact wp_mono (wp_lockedCall_does (by simp) _ .refl) (fun x t ht => ⟨ht, trivial⟩) fun _ _ ht => ht
  | getDirEntryStatus p =>
    simp only [Op.exec, FileSystem.getDirEntryStatus, wp_bind, wp_pure]
    exact wp_mono (wp_lockedCall_does (by simp) _ .refl) (fun x t ht => ⟨ht, trivial⟩) fun _ _ ht => ht
  | addVirtualDir stopped v l =>
    simp only [Op.exec, wp_bind, wp_pure]
    refine wp_addVirtualDir (fun _ => ?_) fun _ _ => ⟨.refl, trivial⟩
    exact wp_mono (wp_mapVirtualDir_does (by simp) .refl _ _) (fun x t ht => ⟨ht, trivial⟩) fun _ _ ht => ht
  | removeVirtualDir stopped v =>
    simp only [Op.exec, wp_bind, wp_pure]
    exact wp_mono (wp_removeVirtualDir_does stopped v) (fun x t ht => ⟨ht, trivial⟩) fun _ _ ht => ht
  | handler r =>
    simp only [Op.exec, wp_bind, wp_pure]
    exact wp_filesystemHandler_does hs r

end

/-! ## Steps of a run -/

theorem Rounds.heap_eq {env : Env} {c : Call} {t u : Service} {ctx : ℕ} (h : Rounds env c t ctx u) :
    u.heap = t.heap := by
  induction h with
  | start => rfl
  | again _ ih => exact ih

theorem Does.tidy {env : Env} {o : Op} {s t : Service} (h : Does env o s t) (hs : Tidy s) : Tidy t := by
  induction h with
  | refl => exact hs
  | acquired _ _ ih | released _ _ ih | refused _ ih => exact ih.emitted _
  | served _ h => exact h.tidy (hs.emitted _)
  | looped _ _ hr ih => exact ih.congr hr.heap_eq hr.next_eq
  | entry _ hb ih =>
    refine ih.alloc fun f hf => ?_
    rcases hb with rfl | ⟨p, rfl⟩ <;> cases hf
  | drop _ _ _ ih | freeEntry _ _ _ _ ih => exact ih.freed _
  | listed _ _ ih | unlisted _ _ ih => exact ih.congr rfl rfl

theorem Run.step_does {env : Env} {x : Run} (hs : Tidy x.st.svc) (o : Op) :
    Does env o x.st.svc (x.step env o).st.svc := by
  cases hx : x.stuck with
  | some e =>
    have hstep : x.step env o = x := by simp [Run.step, hx]
    rw [hstep]
    exact .refl
  | none =>
    refine Run.step_of_wp (P := fun y => Does env o x.st.svc y.st.svc) hx ?_
    exact wp_mono (exec_does hs o) (fun _ _ h => h.1) fun _ _ h => h

theorem tidy_step {env : Env} (x : Run) (o : Op) (h : Tidy x.st.svc) : Tidy (x.step env o).st.svc :=
  (Run.step_does h o).tidy h

theorem tidy_fresh : Tidy St.fresh.svc := ⟨Nat.one_pos, fun _ _ => rfl, fun p f hp => by cases hp⟩

end CcApi.FileSystem
