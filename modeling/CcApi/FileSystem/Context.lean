/-
The platform's context over runs of operations (`imp_context` of `ccapi_filesystem_handler.c` and `ccapi.c`).

Every call of the platform's file system is given a context and may leave another one, which the next call is to be given.
Each function copies it into the call's record and back, but `ccapi_fs_hash_status`: it makes two calls, gives both the
context it found, and keeps what the second one leaves; if the first one fails, what that left is dropped.

- `Threaded`: every call was given what the call before it left.
- `carried_iff`: so it was, and the next call will be given what the last one left, exactly when no stat comes to ask for an
  entry's status whose answer changes the context.
-/
import CcApi.FileSystem.Operations

namespace CcApi.FileSystem

open Lib Lib.Prog Lib.Runs

/-- every call is given what the call before it left; the first one c -/
def Threaded (c : ℕ) : List Event → Prop
  | [] => True
  | .call _ ctx a :: es => ctx = c ∧ Threaded a.impContext es
  | _ :: es => Threaded c es

instance decidableThreaded : ∀ c es, Decidable (Threaded c es)
  | _, [] => inferInstanceAs (Decidable True)
  | c, .call _ ctx a :: es =>
    have := decidableThreaded a.impContext es
    inferInstanceAs (Decidable (ctx = c ∧ Threaded a.impContext es))
  | c, .access _ _ _ :: es | c, .changed _ _ :: es | c, .malloc _ :: es | c, .free _ :: es | c, .acquire _ :: es
  | c, .release _ :: es => decidableThreaded c es

/-- what the last call left; c if there was none -/
def leftBy (c : ℕ) (es : List Event) : ℕ :=
  es.foldl (fun c e => match e with | .call _ _ a => a.impContext | _ => c) c

/-- every call was given what the call before it left, and so will be the next -/
def Carried (s : Service) : Prop := Threaded 0 s.events ∧ s.impContext = leftBy 0 s.events

theorem threaded_append {c : ℕ} {es es' : List Event} :
    Threaded c (es ++ es') ↔ Threaded c es ∧ Threaded (leftBy c es) es' := by
  induction es generalizing c with
  | nil => simp [Threaded, leftBy]
  | cons e es ih =>
    cases e with
    | call k ctx a =>
      simp only [List.cons_append, Threaded, ih, and_assoc]
      exact Iff.rfl
    | _ =>
      simp only [List.cons_append, Threaded, ih]
      exact Iff.rfl

theorem leftBy_concat (c : ℕ) (es : List Event) (e : Event) :
    leftBy c (es ++ [e]) = match e with | .call _ _ a => a.impContext | _ => leftBy c es := by
  simp [leftBy]

theorem carried_congr {s t : Service} (he : t.events = s.events) (hc : t.impContext = s.impContext) :
    Carried t ↔ Carried s := by
  unfold Carried
  rw [he, hc]

/-- what is no call changes nothing -/
theorem carried_emitted {s : Service} {e : Event} (he : ∀ c ctx a, e ≠ .call c ctx a) :
    Carried (s.emitted e) ↔ Carried s := by
  unfold Carried
  rw [Service.emitted_events, threaded_append, leftBy_concat]
  cases e with
  | call c ctx a => exact absurd rfl (he c ctx a)
  | _ => simp [Threaded]

/-- a call that is given the context, and whose own is kept -/
theorem carried_given (s : Service) (c : Call) (a : Answer) :
    Carried { s.emitted (.call c s.impContext a) with impContext := a.impContext } ↔ Carried s := by
  unfold Carried
  change Threaded 0 (s.events ++ [.call c s.impContext a]) ∧ a.impContext = leftBy 0 (s.events ++ [.call c s.impContext a]) ↔ _
  rw [threaded_append, leftBy_concat]
  simp [Threaded]

/-- a call whose context is dropped -/
theorem carried_peeked (env : Env) (s : Service) (c : Call) :
    Carried (s.peeked env c) ↔ Carried s ∧ (env.answer s.events.length).impContext = s.impContext := by
  unfold Carried
  change Threaded 0 (s.events ++ [.call c s.impContext (env.answer s.events.length)]) ∧
    s.impContext = leftBy 0 (s.events ++ [.call c s.impContext (env.answer s.events.length)]) ↔ _
  rw [threaded_append, leftBy_concat]
  simp [Threaded, eq_comm]

theorem carried_asked (env : Env) (s : Service) (path : Str) (request : FsRequest) (allow : Bool) :
    Carried (s.asked env path request allow) ↔ Carried s := by
  unfold Service.asked
  split_ifs
  · exact carried_emitted (by simp)
  · rfl

theorem carried_alloc (s : Service) (b : Block) : Carried (s.alloc b) ↔ Carried s :=
  (carried_congr rfl rfl).trans (carried_emitted (e := .malloc true) (by simp))

theorem carried_freed (s : Service) (p : ℕ) : Carried (s.freed p) ↔ Carried s :=
  (carried_congr rfl rfl).trans (carried_emitted (e := .free p) (by simp))

/-! ## A request -/

/-- **Every effect of a request carries the context**, a stat's first call apart. -/
theorem Effects.carried {env : Env} {r : Request} {s t : Service} (h : Effects env r s t) (hr : ∀ d, r ≠ .stat d) :
    Carried t ↔ Carried s := by
  induction h with
  | refl => rfl
  | alloc _ _ ih | file _ _ _ ih => exact (carried_alloc _ _).trans ih
  | refused _ ih | changed _ _ _ ih => exact (carried_emitted (by simp)).trans ih
  | call _ _ _ ih => exact (carried_given _ _ _).trans ih
  | peek _ hd => exact absurd hd (hr _)
  | deny _ _ _ ih => exact (carried_asked _ _ _ _ _).trans ih
  | allow _ _ _ _ ih => exact (carried_given _ _ _).trans ((carried_asked _ _ _ _ _).trans ih)
  | named _ _ _ ih | moved _ _ _ ih => exact (carried_congr rfl rfl).trans ih
  | freePath _ _ ih | freeName _ _ _ ih | freeFile _ _ ih | freeContext _ _ _ _ ih | freeError _ _ _ ih =>
    exact (carried_freed _ _).trans ih

/-- a program that carries the context -/
def Neutral {α : Type} (m : Fs α) : Prop :=
  ∀ s, wp m (fun _ t => Carried t ↔ Carried s) (fun _ t => Carried t ↔ Carried s) s

theorem neutral_pure {α : Type} (a : α) : Neutral (pure a : Fs α) := fun _ => Iff.rfl

theorem neutral_bind {α β : Type} {m : Fs α} {f : α → Fs β} (hm : Neutral m) (hf : ∀ a, Neutral (f a)) :
    Neutral (m >>= f) := by
  intro s
  rw [wp_bind]
  refine wp_mono (hm s) (fun a t ht => ?_) fun _ _ ht => ht
  exact wp_mono (hf a t) (fun _ _ hu => hu.trans ht) fun _ _ hu => hu.trans ht

theorem neutral_call (env : Env) (c : Call) : Neutral (ccimpCallKeeping env c) := by
  intro s
  rw [run_call]
  exact carried_given s c _

theorem neutral_setCcimpError (env : Env) (a : Answer) (errnum : Option ℕ) : Neutral (setCcimpError env a errnum) := by
  intro s
  rw [setCcimpError, wp_ite]
  split_ifs
  · rw [run_setError]
    split_ifs
    · exact carried_alloc _ _
    · exact carried_emitted (by simp)
  · exact Iff.rfl

theorem neutral_freeLocalPath (env : Env) (block : Option ℕ) : Neutral (freeLocalPath env block) := by
  intro s
  rw [run_freeLocalPath]
  split
  · exact Iff.rfl
  · split
    · exact carried_freed _ _
    · exact Iff.rfl

/-- the status a stat asks for, if it asks, is answered with the context it was given -/
def KeepsStatus (env : Env) (s : Service) (d : StatData) : Prop :=
  ∀ q ∈ statusQuestion env s d, (env.answer q).impContext = s.impContext

instance (env : Env) (s : Service) (d : StatData) : Decidable (KeepsStatus env s d) :=
  inferInstanceAs (Decidable (∀ q ∈ statusQuestion env s d, _))

/-- **A stat** carries the context exactly when the status it asks for leaves the context alone. -/
theorem wp_hashStatus_carried {env : Env} {s : Service} (d : StatData) :
    wp (hashStatus env d) (fun _ t => Carried t ↔ Carried s ∧ KeepsStatus env s d)
      (fun _ t => Carried t ↔ Carried s ∧ KeepsStatus env s d) s := by
  have hnot : statusQuestion env s d = none → (Carried s ↔ Carried s ∧ KeepsStatus env s d) := fun hq => by
    simp [KeepsStatus, hq]
  simp only [hashStatus, wp_bind, wp_get, wp_ite]
  split_ifs with hroot
  · have hnone : statusQuestion env s d = none := by rw [statusQuestion, if_pos hroot]
    rw [run_malloc]
    split_ifs
    · exact (carried_alloc _ _).trans (hnot hnone)
    · exact (carried_emitted (by simp)).trans (hnot hnone)
  · refine wp_getLocalPath (r := .sessionError none) (fun t ht _ hnone => ?_) fun l t ht _ _ hq => ?_
    · have hcarried : Carried t ↔ Carried s ∧ KeepsStatus env s d := by
        rw [ht.carried (by simp)]
        exact hnot (by rw [statusQuestion, if_neg hroot, hnone])
      rw [wp_bind, run_setError]
      split_ifs
      · exact (carried_alloc _ _).trans hcarried
      · exact (carried_emitted (by simp)).trans hcarried
    · have hpeek (c : Call) : Carried (t.peeked env c) ↔ Carried s ∧ KeepsStatus env s d := by
        have hstatus : statusQuestion env s d = some t.events.length := by
          rw [statusQuestion, if_neg hroot]
          exact hq.1
        rw [carried_peeked, ht.carried (by simp), hq.2]
        simp [KeepsStatus, hstatus]
      -- what comes behind the first call keeps what that has made of it
      have hrest {α : Type} {m : Fs α} (hm : Neutral m) {c : Call} :
          wp m (fun _ u => Carried u ↔ Carried s ∧ KeepsStatus env s d)
            (fun _ u => Carried u ↔ Carried s ∧ KeepsStatus env s d) (t.peeked env c) :=
        wp_mono (hm _) (fun _ _ hu => hu.trans (hpeek c)) fun _ _ hu => hu.trans (hpeek c)
      rw [wp_bind, wp_get, wp_bind, run_peek, wp_ite]
      split_ifs
      · refine hrest (neutral_bind (neutral_setCcimpError _ _ _) fun _ => ?_)
        exact neutral_bind (neutral_freeLocalPath _ _) fun _ => neutral_pure _
      · refine hrest (neutral_bind (neutral_call _ _) fun _ => ?_)
        refine neutral_bind (neutral_setCcimpError _ _ _) fun _ => ?_
        exact neutral_bind (neutral_freeLocalPath _ _) fun _ => neutral_pure _

/-! ## An operation -/

theorem Rounds.carried {env : Env} {c : Call} {t u : Service} {ctx : ℕ} (h : Rounds env c t ctx u) :
    Carried { u with impContext := ctx } ↔ Carried t := by
  induction h with
  | start => exact Iff.rfl
  | @again ctx u _ ih => exact (carried_given { u with impContext := ctx } c _).trans ih

theorem Does.carried {env : Env} {o : Op} {s t : Service} (h : Does env o s t) (ho : ∀ d, o ≠ .handler (.stat d)) :
    Carried t ↔ Carried s := by
  induction h with
  | refl => rfl
  | acquired _ _ ih | released _ _ ih | refused _ ih => exact (carried_emitted (by simp)).trans ih
  | served hr h =>
    refine (h.carried ?_).trans (carried_emitted (by simp))
    rintro d rfl
    exact ho d hr
  | looped _ _ hr ih => exact hr.carried.trans ih
  | entry _ _ ih => exact (carried_alloc _ _).trans ih
  | drop _ _ _ ih | freeEntry _ _ _ _ ih => exact (carried_freed _ _).trans ih
  | listed _ _ ih | unlisted _ _ ih => exact (carried_congr rfl rfl).trans ih

/-- the operation is a stat that comes to ask for a status whose answer changes the context -/
def DropsContext (env : Env) (x : Run) : Op → Prop
  | .handler (.stat d) => x.stuck = none ∧ env.acquire x.st.svc.events.length = .ok ∧ x.st.lock ≠ 0 ∧
      ¬ KeepsStatus env (x.st.svc.emitted (.acquire .ok)) d
  | _ => False

instance (env : Env) (x : Run) (o : Op) : Decidable (DropsContext env x o) := by
  unfold DropsContext
  split <;> infer_instance

/-- a stat, with the lock around it -/
theorem wp_stat_carried {env : Env} {s : St} (d : StatData) (hok : env.acquire s.svc.events.length = .ok)
    (hlock : s.lock ≠ 0) :
    wp (filesystemHandler env (.stat d))
      (fun _ t => Carried t.svc ↔ Carried s.svc ∧ KeepsStatus env (s.svc.emitted (.acquire .ok)) d)
      (fun _ t => Carried t.svc ↔ Carried s.svc ∧ KeepsStatus env (s.svc.emitted (.acquire .ok)) d) s := by
  have hacquired : Carried (s.svc.emitted (.acquire .ok)) ↔ Carried s.svc := carried_emitted (by simp)
  simp only [filesystemHandler, lockAcquire, wp_bind, wp_get, hok, if_true, if_neg hlock, wp_onService, run_emit, wp_modify,
    wp_pure, serve]
  refine wp_mono (wp_hashStatus_carried d) (fun x t ht => ?_) fun _ t ht => ht.trans (and_congr_left' hacquired)
  rw [run_lockRelease]
  exact (carried_emitted (by simp)).trans (ht.trans (and_congr_left' hacquired))

/-- a request that does not get the lock is not served -/
theorem wp_unserved {env : Env} {s : St} (r : Request)
    (h : ¬ (env.acquire s.svc.events.length = .ok ∧ s.lock ≠ 0)) :
    wp (filesystemHandler env r) (fun _ t => Carried t.svc ↔ Carried s.svc) (fun _ t => Carried t.svc ↔ Carried s.svc) s := by
  simp only [filesystemHandler, lockAcquire, wp_bind, wp_get]
  by_cases hok : env.acquire s.svc.events.length = .ok
  · have hlock : s.lock = 0 := by
      by_contra hlock
      exact h ⟨hok, hlock⟩
    rw [if_pos hok, if_pos hlock]
    exact Iff.rfl
  · simp only [if_neg hok, wp_bind, wp_onService, run_emit, wp_pure]
    exact carried_emitted (by simp)

/-- **Step lemma.** An operation carries the context exactly when it is not a stat that drops one. -/
theorem step_carried {env : Env} (x : Run) (o : Op) (hs : Tidy x.st.svc) :
    Carried (x.step env o).st.svc ↔ Carried x.st.svc ∧ ¬ DropsContext env x o := by
  by_cases ho : ∃ d, o = .handler (.stat d)
  · obtain ⟨d, rfl⟩ := ho
    cases hx : x.stuck with
    | some e =>
      have hstep : x.step env (.handler (.stat d)) = x := by simp [Run.step, hx]
      rw [hstep]
      simp [DropsContext, hx]
    | none =>
      by_cases hserved : env.acquire x.st.svc.events.length = .ok ∧ x.st.lock ≠ 0
      · refine Run.step_of_wp (P := fun y => Carried y.st.svc ↔ _) hx ?_
        have hdrops : ¬ DropsContext env x (.handler (.stat d)) ↔
            KeepsStatus env (x.st.svc.emitted (.acquire .ok)) d := by
          simp [DropsContext, hx, hserved.1, hserved.2]
        rw [hdrops]
        simp only [Op.exec, wp_bind, wp_pure]
        exact wp_stat_carried d hserved.1 hserved.2
      · refine Run.step_of_wp (P := fun y => Carried y.st.svc ↔ _) hx ?_
        have hdrops : ¬ DropsContext env x (.handler (.stat d)) := fun h => hserved ⟨h.2.1, h.2.2.1⟩
        rw [and_iff_left hdrops]
        simp only [Op.exec, wp_bind, wp_pure]
        exact wp_unserved (.stat d) hserved
  · have hdrops : ¬ DropsContext env x o := by
      intro h
      unfold DropsContext at h
      split at h
      · exact ho ⟨_, rfl⟩
      · exact h
    rw [and_iff_left hdrops]
    exact (Run.step_does hs o).carried fun d hd => ho ⟨d, hd⟩

/-! ## Main results -/

/-- **The platform's context.** In every run of requests, of the library's own file operations and of changes of the virtual
directories, whatever the platform, memory, the lock and the callbacks answer: every call of the platform is given the
context that the call before it left, and the next one will be, exactly when no stat comes to ask for a status whose answer
changes the context. -/
theorem carried_iff (env : Env) (ops : List Op) :
    (∀ k, Carried (run (Run.step env) (Run.start St.fresh) (ops.take k)).st.svc) ↔
      Along (Run.step env) (fun x o => ¬ DropsContext env x o) (Run.start St.fresh) ops := by
  refine along_iff (I := fun x : Run => Tidy x.st.svc ∧ Carried x.st.svc) (P := fun x : Run => Carried x.st.svc)
    (fun _ hx => hx.2) ?_ ?_ ?_ ops
  · exact fun x o hx ho => ⟨tidy_step x o hx.1, (step_carried x o hx.1).2 ⟨hx.2, ho⟩⟩
  · exact fun x o hx hP => ((step_carried x o hx.1).1 hP).2
  · exact ⟨tidy_fresh, trivial, rfl⟩

/-- a platform that counts its calls in the context -/
def counting : Env :=
  { calm true with answer := fun n => ⟨.ok, n + 1, 0, 3, 4, [], 0, 0, ⟨.file, 0, 0⟩, .none, .unspec⟩ }

/-- **A stat drops the context** its first call left: the second is given the one the first was given. -/
theorem stat_drops : ¬ Threaded 0
    (run (Run.step counting) (Run.start St.fresh) [.handler (.stat ⟨none, ascii "/a", .none, .none, ⟨.file, 0, 0⟩, none⟩)]).st.svc.events := by
  decide

end CcApi.FileSystem
