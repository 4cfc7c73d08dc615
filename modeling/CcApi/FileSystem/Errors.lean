/-
The error handles of the file-system service (`ccapi_fs_set_internal_error`, `ccapi_fs_set_ccimp_error`,
`ccapi_fs_error_desc`).

A request that fails leaves an error handle in its record, and the connector gives it back in a get_error, which frees it.
`Desk` is the service with what the connector knows: the handles it was given, and those it has had described.

- `errors_accounted`: while no get_error that gets the lock is answered busy, every handle that was given is live until it
  is described, and is freed once, then; and a failed request gives a new one, unless memory or the lock failed it.
-/
import CcApi.FileSystem.Operations

namespace CcApi.FileSystem

open Lib Lib.Prog Lib.Runs

/-! ## What stays true of the heap -/

def Event.isFree : Event → Bool
  | .free _ => true
  | _ => false

/-- a block that something other than a failure holds on to is no error handle, and a block is freed once -/
structure Sound (s : Service) : Prop where
  tidy : Tidy s
  zero : s.heap 0 = none
  files : ∀ p f, s.heap p = some (.file f) → s.NoError f.filePath
  dirs : ∀ d ∈ s.virtualDirList, ∀ p ∈ d.blocks, s.NoError p
  once : ∀ p, s.events.count (.free p) = if 0 < p ∧ p < s.next ∧ s.heap p = none then 1 else 0

theorem count_free_concat {es : List Event} {e : Event} (he : e.isFree = false) (p : ℕ) :
    (es ++ [e]).count (.free p) = es.count (.free p) := by
  rw [List.count_append, List.count_singleton, if_neg, Nat.add_zero]
  intro h
  rw [beq_iff_eq] at h
  rw [h] at he
  cases he

theorem Sound.congr {s t : Service} (h : Sound s) (hheap : t.heap = s.heap) (hnext : t.next = s.next)
    (hdirs : t.virtualDirList = s.virtualDirList) (hevents : ∀ p, t.events.count (.free p) = s.events.count (.free p)) :
    Sound t := by
  have hno (p : ℕ) (hp : s.NoError p) : t.NoError p := by
    rw [Service.NoError, hheap, hnext]
    exact hp
  refine ⟨h.tidy.congr hheap hnext, by rw [hheap]; exact h.zero, fun p f hp => ?_, fun d hd p hp => ?_, fun p => ?_⟩
  · rw [hheap] at hp
    exact hno _ (h.files p f hp)
  · rw [hdirs] at hd
    exact hno _ (h.dirs d hd p hp)
  · rw [hevents, hheap, hnext]
    exact h.once p

theorem Sound.emitted {s : Service} (h : Sound s) {e : Event} (he : e.isFree = false) : Sound (s.emitted e) :=
  h.congr rfl rfl rfl fun p => count_free_concat he p

theorem Sound.asked {env : Env} {s : Service} (h : Sound s) (path : Str) (request : FsRequest) (allow : Bool) :
    Sound (s.asked env path request allow) := by
  unfold Service.asked
  split_ifs
  · exact h.emitted rfl
  · exact h

theorem Sound.called {env : Env} {s : Service} (h : Sound s) (c : Call) : Sound (s.called env c) :=
  (h.emitted (e := .call c s.impContext (env.answer s.events.length)) rfl).congr rfl rfl rfl fun _ => rfl

theorem Sound.alloc {s : Service} (h : Sound s) {b : Block} (hb : ∀ f, b = .file f → f.filePath = 0) :
    Sound (s.alloc b) := by
  have hzero : (0 : ℕ) ≠ s.next := h.tidy.pos.ne
  refine ⟨h.tidy.alloc fun f hf => by rw [hb f hf]; exact Nat.zero_le _, ?_, fun p f hp => ?_, fun d hd p hp => ?_, fun p => ?_⟩
  · rw [Service.alloc_heap, Function.update_of_ne hzero]
    exact h.zero
  · rw [Service.alloc_heap] at hp
    by_cases hps : p = s.next
    · subst hps
      rw [Function.update_self, Option.some.injEq] at hp
      rw [hb f hp]
      refine ⟨Nat.succ_pos _, fun e => ?_⟩
      rw [Service.alloc_heap, Function.update_of_ne hzero, h.zero]
      simp
    · rw [Function.update_of_ne hps] at hp
      exact (h.files p f hp).alloc b
  · exact (h.dirs d hd p hp).alloc b
  · rw [Service.alloc_events, count_free_concat rfl, h.once, Service.alloc_next, Service.alloc_heap]
    by_cases hps : p = s.next
    · simp [hps]
    · rw [Function.update_of_ne hps]
      have hlt : p < s.next + 1 ↔ p < s.next := by omega
      simp only [hlt]

theorem Sound.freed {s : Service} (h : Sound s) {p : ℕ} (hp : s.heap p ≠ none) : Sound (s.freed p) := by
  obtain ⟨b, hb⟩ := Option.ne_none_iff_exists'.1 hp
  have hlt := h.tidy.lt hb
  have hpos : 0 < p := by
    refine Nat.pos_of_ne_zero ?_
    rintro rfl
    exact hp h.zero
  refine ⟨h.tidy.freed p, ?_, fun q f hq => ?_, fun d hd q hq => (h.dirs d hd q hq).freed p, fun q => ?_⟩
  · rw [Service.freed_heap, Function.update_of_ne hpos.ne]
    exact h.zero
  · rw [Service.freed_heap] at hq
    by_cases hqp : q = p
    · rw [hqp, Function.update_self] at hq
      cases hq
    · rw [Function.update_of_ne hqp] at hq
      exact (h.files q f hq).freed p
  · rw [Service.freed_events, List.count_append, List.count_singleton, h.once, Service.freed_heap, Service.freed_next]
    by_cases hqp : q = p
    · subst hqp
      simp [hp, hpos, hlt]
    · have hother : (Event.free p == Event.free q) = false := by simpa using Ne.symm hqp
      rw [Function.update_of_ne hqp, hother]
      simp

theorem Sound.stored {s : Service} (h : Sound s) {p : ℕ} {b b' : Block} (hp : s.heap p = some b)
    (hb : ∀ e, b' ≠ .error e) (hf : ∀ f, b' = .file f → s.NoError f.filePath) : Sound (s.stored p b') := by
  have hpos : p ≠ 0 := by
    rintro rfl
    rw [h.zero] at hp
    cases hp
  refine ⟨h.tidy.stored hp fun f hf' => (hf f hf').1, ?_, fun q f hq => ?_, fun d hd q hq => (h.dirs d hd q hq).stored p hb,
    fun q => ?_⟩
  · rw [Service.stored_heap, Function.update_of_ne hpos.symm]
    exact h.zero
  · rw [Service.stored_heap] at hq
    by_cases hqp : q = p
    · rw [hqp, Function.update_self, Option.some.injEq] at hq
      exact (hf f hq).stored p hb
    · rw [Function.update_of_ne hqp] at hq
      exact (h.files q f hq).stored p hb
  · rw [Service.stored_events, h.once, Service.stored_heap, Service.stored_next]
    by_cases hqp : q = p
    · simp [hqp, hp]
    · rw [Function.update_of_ne hqp]

theorem Sound.count_live {s : Service} (h : Sound s) {p : ℕ} {b : Block} (hp : s.heap p = some b) :
    s.events.count (.free p) = 0 := by
  rw [h.once, if_neg]
  rintro ⟨-, -, hnone⟩
  rw [hnone] at hp
  cases hp

/-- a block that was freed is not used again -/
theorem Sound.count_grows {s t : Service} (h : Sound t) (hst : s.events <+: t.events) {p : ℕ}
    (hp : s.events.count (.free p) = 1) : t.heap p = none ∧ t.events.count (.free p) = 1 := by
  have hle : 1 ≤ t.events.count (.free p) := by
    rw [← hp]
    exact hst.sublist.count_le _
  rw [h.once] at hle ⊢
  split_ifs at hle ⊢ with hnone
  · exact ⟨hnone.2.2, rfl⟩
  · omega

/-! ## What a request does to the handles -/

section
variable {env : Env} {s t : Service}

theorem Effects.sound {r : Request} (h : Effects env r s t) (hs : Sound s) : Sound t := by
  induction h with
  | refl => exact hs
  | alloc _ hb ih =>
    refine ih.alloc fun f hf => ?_
    subst hf
    cases hb
  | refused _ ih | peek _ _ _ _ _ ih | changed _ _ _ ih => exact ih.emitted rfl
  | call _ _ _ ih => exact ih.called _
  | deny _ _ _ ih => exact ih.asked _ _ _
  | allow _ _ _ _ ih => exact (ih.asked _ _ _).called _
  | file _ _ _ ih =>
    refine ih.alloc fun f hf => ?_
    cases hf
    rfl
  | named _ hp hq ih =>
    refine ih.stored hp (by simp) fun f hf => ?_
    cases hf
    exact ⟨ih.tidy.lt hq, fun e he => by rw [hq] at he; cases he⟩
  | moved _ hp _ ih => exact ih.stored hp (by simp) (by simp)
  | freePath _ hp ih | freeFile _ hp ih => exact ih.freed (by simp [hp])
  | freeName _ _ hl ih | freeContext _ _ _ hl ih | freeError _ _ hl ih => exact ih.freed hl

/-- what a request may free of what the connector gives it -/
def Request.frees : Request → Option ℕ
  | .getError d => some d.errnum
  | .closedir d => d.userContext
  | _ => none

theorem freed_kept {p q : ℕ} {b : Block} (h : t.heap p = some b) (hne : p ≠ q) : (t.freed q).heap p = some b := by
  rw [Service.freed_heap, Function.update_of_ne hne]
  exact h

/-- an error handle that the request is not about stays -/
theorem Effects.kept {r : Request} (h : Effects env r s t) (hs : Sound s) {p : ℕ} {e : ErrorHandle}
    (hp : s.heap p = some (.error e)) (hr : r.frees ≠ some p) : t.heap p = some (.error e) := by
  induction h with
  | refl => exact hp
  | alloc h _ ih | file h _ _ ih =>
    rw [Service.alloc_heap, Function.update_of_ne ((h.tidy hs.tidy).lt ih).ne]
    exact ih
  | refused _ ih | peek _ _ _ _ _ ih | changed _ _ _ ih | call _ _ _ ih => exact ih
  | deny _ _ _ ih => simpa using ih
  | allow _ _ _ _ ih => simpa using ih
  | named _ hq _ ih | moved _ hq _ ih =>
    rw [Service.stored_heap, Function.update_of_ne]
    · exact ih
    · rintro rfl
      rw [ih] at hq
      cases hq
  | freePath _ hq ih | freeFile _ hq ih =>
    refine freed_kept ih ?_
    rintro rfl
    rw [ih] at hq
    cases hq
  | freeName h hq _ ih =>
    refine freed_kept ih ?_
    rintro rfl
    exact ((h.sound hs).files _ _ hq).2 _ ih
  | freeContext _ hr' hc _ ih | freeError _ hr' _ ih =>
    refine freed_kept ih ?_
    rintro rfl
    subst hr'
    simp_all [Request.frees]

/-- **A description.** A get_error for a live handle returns, and frees the handle. -/
theorem wp_errorDesc_frees {d : GetErrorData} {e : ErrorHandle} (h : s.heap d.errnum = some (.error e)) :
    wp (errorDesc env d) (fun _ t => t.heap d.errnum = none) (fun _ _ => False) s := by
  simp only [errorDesc, wp_bind, run_load, h]
  cases e with
  | internal e =>
    rw [wp_bind, run_free, h]
    exact Function.update_self _ _ _
  | ccimp n =>
    rw [wp_bind, run_call, wp_bind, run_free, Service.called_heap, h]
    exact Function.update_self _ _ _

/-! ## What an operation does to them -/

theorem Rounds.sound {c : Call} {ctx : ℕ} (h : Rounds env c s ctx t) (hs : Sound s) : Sound t := by
  induction h with
  | start => exact hs
  | again _ ih => exact ih.emitted rfl

theorem Does.sound {o : Op} (h : Does env o s t) (hs : Sound s) : Sound t := by
  induction h with
  | refl => exact hs
  | acquired _ _ ih | released _ _ ih | refused _ ih => exact ih.emitted rfl
  | served _ h => exact h.sound (hs.emitted rfl)
  | looped _ _ hr ih => exact (hr.sound ih).congr rfl rfl rfl fun _ => rfl
  | entry _ hb ih =>
    refine ih.alloc fun f hf => ?_
    rcases hb with rfl | ⟨p, rfl⟩ <;> cases hf
  | drop _ _ hl ih | freeEntry _ _ _ hl ih => exact ih.freed hl
  | listed _ hd ih =>
    refine ⟨ih.tidy.congr rfl rfl, ih.zero, ih.files, fun d hd' p hp => ?_, ih.once⟩
    rcases List.mem_cons.1 hd' with rfl | hd'
    · exact hd p hp
    · exact ih.dirs d hd' p hp
  | unlisted _ f ih =>
    exact ⟨ih.tidy.congr rfl rfl, ih.zero, ih.files, fun d hd p hp => ih.dirs d (List.mem_of_mem_eraseP hd) p hp, ih.once⟩

/-- what an operation may free of what its caller gives it -/
def Op.frees : Op → Option ℕ
  | .handler r => r.frees
  | _ => none

theorem Does.kept {o : Op} (h : Does env o s t) (hs : Sound s) {p : ℕ} {e : ErrorHandle}
    (hp : s.heap p = some (.error e)) (ho : o.frees ≠ some p) : t.heap p = some (.error e) := by
  induction h with
  | refl => exact hp
  | acquired _ _ ih | released _ _ ih | refused _ ih | listed _ _ ih | unlisted _ _ ih => exact ih
  | served hr h =>
    subst hr
    exact h.kept (hs.emitted rfl) hp ho
  | looped _ _ hr ih =>
    rw [← hr.heap_eq] at ih
    exact ih
  | entry h _ ih =>
    rw [Service.alloc_heap, Function.update_of_ne ((h.tidy hs.tidy).lt ih).ne]
    exact ih
  | drop _ hq _ ih => exact freed_kept ih ((hs.tidy.lt hp).trans_le hq).ne
  | freeEntry _ hd hq _ ih =>
    refine freed_kept ih ?_
    rintro rfl
    exact (hs.dirs _ hd _ hq).2 _ hp

end

/-! ## The connector's desk -/

/-- the run, the handles the connector was given and may still ask about, and those it was given the description of -/
structure Desk where
  run : Run
  errors : Finset ℕ
  described : Finset ℕ

def Desk.start : Desk := ⟨Run.start St.fresh, ∅, ∅⟩

/-- what an operation returns, if it returns -/
def Run.answer (env : Env) (x : Run) (o : Op) : Option Result :=
  match x.stuck with
  | some _ => none
  | none =>
    match o.exec env x.st with
    | (.ok r, _) => some r
    | (.error _, _) => none

/-- the handle that an answer gives the connector: an errnum that the request set -/
def given (r r' : Request) : Option ℕ := if r'.errnum = r.errnum then none else r'.errnum

def Event.isRefusal : Event → Bool
  | .acquire st | .release st => st ≠ .ok
  | _ => false

/-- no lock operation failed, and the last allocation was not refused -/
def unrefused (es : List Event) : Bool := es.all (!·.isRefusal) && lastMalloc es

/-- what happens in an operation -/
def Run.during (env : Env) (x : Run) (o : Op) : List Event := since x.st.svc (x.step env o).st.svc

/-- an operation on the service, and what the connector then knows; it asks again when the answer is busy -/
def Desk.step (env : Env) (d : Desk) (o : Op) : Desk :=
  match o, d.run.answer env o with
  | .handler (.getError g), some (.handler (st, _)) =>
    if env.acquire d.run.st.svc.events.length = .ok ∧ st ≠ .busy then
      ⟨d.run.step env o, d.errors.erase g.errnum, insert g.errnum d.described⟩
    else ⟨d.run.step env o, d.errors, d.described⟩
  | .handler r, some (.handler x) =>
    match given r x.2 with
    | some p => ⟨d.run.step env o, insert p d.errors, d.described⟩
    | none => ⟨d.run.step env o, d.errors, d.described⟩
  | _, _ => ⟨d.run.step env o, d.errors, d.described⟩

/-- what the connector asks about, and what it may end a listing with -/
def Desk.Allows (d : Desk) : Request → Prop
  | .getError g => g.errnum ∈ d.errors
  | .closedir c => ∀ p ∈ c.userContext, p ∉ d.errors
  | _ => True

/-- the connector's part: besides, the errnum of a record it gives is unset or a handle it was given -/
def Desk.Follows (d : Desk) : Op → Prop
  | .handler r => d.Allows r ∧ ∀ p ∈ r.errnum, p ∈ d.errors ∪ d.described
  | _ => True

/-- a get_error that gets the lock is answered busy -/
def Desk.putOff (env : Env) (d : Desk) (o : Op) : Bool :=
  match o, d.run.answer env o with
  | .handler (.getError _), some (.handler (.busy, _)) => env.acquire d.run.st.svc.events.length = .ok
  | _, _ => false

def Fits (env : Env) (d : Desk) (o : Op) : Prop := d.Follows o ∧ d.putOff env o = false

instance (d : Desk) (r : Request) : Decidable (d.Allows r) := by
  unfold Desk.Allows
  split <;> infer_instance

instance (d : Desk) (o : Op) : Decidable (d.Follows o) := by
  unfold Desk.Follows
  split <;> infer_instance

instance (env : Env) (d : Desk) (o : Op) : Decidable (Fits env d o) := inferInstanceAs (Decidable (_ ∧ _))

/-- a handle the connector may ask about is live; one it has the description of was freed once -/
structure Accounts (d : Desk) : Prop where
  live : ∀ p ∈ d.errors, ∃ e, d.run.st.svc.heap p = some (.error e)
  kept : ∀ p ∈ d.errors, d.run.st.svc.events.count (.free p) = 0
  gone : ∀ p ∈ d.described, d.run.st.svc.heap p = none
  once : ∀ p ∈ d.described, d.run.st.svc.events.count (.free p) = 1

/-- a request that fails, and is failed by neither the lock nor memory, gives a new handle that describes the failure -/
def GivesHandle (env : Env) (x : Run) (r : Request) : Prop :=
  ∀ r', r.reports = true → x.answer env (.handler r) = some (.handler (.error, r')) →
    unrefused (x.during env (.handler r)) = true →
    ∃ p e, r'.errnum = some p ∧ x.st.svc.next ≤ p ∧ (x.step env (.handler r)).st.svc.heap p = some (.error e) ∧
      Describes (x.during env (.handler r)) e

/-- what becomes of the handles in an operation -/
structure Serves (env : Env) (d : Desk) (o : Op) : Prop where
  /-- the connector may ask about a new handle -/
  given : ∀ r st r' p, o = .handler r → r.reports = true → d.run.answer env o = some (.handler (st, r')) →
    r'.errnum = some p → d.run.st.svc.next ≤ p → p ∈ (d.step env o).errors
  /-- a get_error that gets the lock reads a live handle, and describes it -/
  read : ∀ g, o = .handler (.getError g) → d.run.stuck = none → env.acquire d.run.st.svc.events.length = .ok →
    d.run.st.lock ≠ 0 → (∃ e, d.run.st.svc.heap g.errnum = some (.error e)) ∧ (d.run.step env o).stuck = none ∧
      g.errnum ∈ (d.step env o).described

section
variable {env : Env} {d : Desk} {o : Op}

@[simp] theorem desk_step_run : (d.step env o).run = d.run.step env o := by
  unfold Desk.step
  split
  · split_ifs <;> rfl
  · split <;> rfl
  · rfl

/-- what an operation's outcomes have in common holds of its answer and the run behind it -/
theorem Run.answer_of_wp {x : Run} (hx : x.stuck = none) {P : Option Result → Run → Prop}
    (h : wp (o.exec env) (fun r t => P (some r) { x with st := t, results := x.results ++ [r] })
      (fun e t => P none { x with st := t, stuck := some e }) x.st) : P (x.answer env o) (x.step env o) := by
  unfold wp at h
  simp only [Run.answer, Run.step, hx]
  split at h <;> simp_all

theorem lock_ok_of_unrefused {es : List Event} (h : unrefused es = true) (st : CcimpStatus)
    (hst : .acquire st ∈ es ∨ .release st ∈ es) : st = .ok := by
  rw [unrefused, Bool.and_eq_true, List.all_eq_true] at h
  rcases hst with hst | hst
  · simpa [Event.isRefusal] using h.1 _ hst
  · simpa [Event.isRefusal] using h.1 _ hst

theorem answer_answered {x : Run} (hx : Tidy x.st.svc) {r : Request} {y : CallbackStatus × Request}
    (ha : x.answer env (.handler r) = some (.handler y)) :
    Answered x.st.svc (x.step env (.handler r)).st.svc r y := by
  cases hstuck : x.stuck with
  | some e => simp [Run.answer, hstuck] at ha
  | none =>
    have hanswers : ∀ z, x.answer env (.handler r) = some z →
        Answers x.st.svc (x.step env (.handler r)).st.svc (.handler r) z := by
      refine Run.answer_of_wp (P := fun a w => ∀ z, a = some z → Answers x.st.svc w.st.svc (.handler r) z) hstuck ?_
      refine wp_mono (exec_does hx (.handler r)) ?_ ?_
      · rintro z t ⟨-, hz⟩ w hw
        cases hw
        exact hz
      · rintro e t - z hz
        cases hz
    exact hanswers _ ha

/-- a get_error for a live handle, with the lock around it -/
theorem wp_getError {s : St} {g : GetErrorData} {e : ErrorHandle} (h : s.svc.heap g.errnum = some (.error e)) :
    wp (filesystemHandler env (.getError g))
      (fun _ t => t.svc.heap g.errnum = if env.acquire s.svc.events.length = .ok then none else some (.error e))
      (fun _ t => t.svc.heap g.errnum = some (.error e) ∧ ¬ (env.acquire s.svc.events.length = .ok ∧ s.lock ≠ 0)) s := by
  simp only [filesystemHandler, lockAcquire, wp_bind, wp_get, wp_ite]
  split_ifs with hok hlock
  · exact ⟨h, fun hn => hn.2 hlock⟩
  · simp only [wp_bind, wp_onService, run_emit, wp_modify, wp_pure, hok, if_true, serve, run_lockRelease]
    exact wp_mono (wp_errorDesc_frees h) (fun _ t ht => ht) fun _ _ hf => hf.elim
  · simp only [wp_onService, run_emit, wp_pure, if_neg hok]
    exact h

/-- a get_error that fits: the handle is described and freed, or everything is as it was -/
theorem getError_cases {g : GetErrorData} {e : ErrorHandle} (h : d.run.st.svc.heap g.errnum = some (.error e))
    (hput : d.putOff env (.handler (.getError g)) = false) :
    (d.step env (.handler (.getError g)) =
        ⟨d.run.step env (.handler (.getError g)), d.errors.erase g.errnum, insert g.errnum d.described⟩ ∧
      (d.run.step env (.handler (.getError g))).st.svc.heap g.errnum = none ∧
      (d.run.step env (.handler (.getError g))).stuck = none) ∨
    (d.step env (.handler (.getError g)) = ⟨d.run.step env (.handler (.getError g)), d.errors, d.described⟩ ∧
      (d.run.step env (.handler (.getError g))).st.svc.heap g.errnum = some (.error e) ∧
      ¬ (d.run.stuck = none ∧ env.acquire d.run.st.svc.events.length = .ok ∧ d.run.st.lock ≠ 0)) := by
  cases hstuck : d.run.stuck with
  | some x =>
    have hstep : d.run.step env (.handler (.getError g)) = d.run := by simp [Run.step, hstuck]
    refine Or.inr ⟨?_, by rw [hstep]; exact h, by simp⟩
    simp [Desk.step, Run.answer, hstuck]
  | none =>
    have hout := @Run.answer_of_wp env (.handler (.getError g)) d.run hstuck (fun a y =>
      (∃ st x, a = some (.handler (st, x)) ∧ y.stuck = none ∧
        y.st.svc.heap g.errnum = if env.acquire d.run.st.svc.events.length = .ok then none else some (.error e)) ∨
      (a = none ∧ y.st.svc.heap g.errnum = some (.error e) ∧
        ¬ (env.acquire d.run.st.svc.events.length = .ok ∧ d.run.st.lock ≠ 0))) (by
      simp only [Op.exec, wp_bind, wp_pure]
      refine wp_mono (wp_getError h) ?_ ?_
      · rintro ⟨st, x⟩ t ht
        exact Or.inl ⟨st, x, rfl, hstuck, ht⟩
      · intro _ t ht
        exact Or.inr ⟨trivial, ht.1, ht.2⟩)
    rcases hout with ⟨st, x, ha, hrun, hheap⟩ | ⟨ha, hheap, hlock⟩
    · by_cases hok : env.acquire d.run.st.svc.events.length = .ok
      · have hst : st ≠ .busy := by
          rintro rfl
          simp [Desk.putOff, ha, hok] at hput
        refine Or.inl ⟨?_, by rw [hheap, if_pos hok], hrun⟩
        simp [Desk.step, ha, hok, hst]
      · refine Or.inr ⟨?_, by rw [hheap, if_neg hok], fun hn => hok hn.2.1⟩
        simp [Desk.step, ha, hok]
    · refine Or.inr ⟨?_, hheap, fun hn => hlock hn.2⟩
      simp [Desk.step, ha]

/-- any other operation only gives handles: a new one with each failure -/
theorem other_cases (hx : Tidy d.run.st.svc) (ho : ∀ g, o ≠ .handler (.getError g)) :
    d.step env o = ⟨d.run.step env o, d.errors, d.described⟩ ∨
    ∃ p e, d.step env o = ⟨d.run.step env o, insert p d.errors, d.described⟩ ∧ d.run.st.svc.next ≤ p ∧
      (d.run.step env o).st.svc.heap p = some (.error e) := by
  unfold Desk.step
  split
  · exact absurd rfl (ho _)
  · next r x _ ha =>
    split
    · next p hp =>
      simp only [given] at hp
      split_ifs at hp with hne
      rcases (answer_answered hx ha).errnum with hsame | ⟨q, e, hq, hle, hheap⟩
      · exact absurd hsame hne
      · rw [hq, Option.some.injEq] at hp
        subst hp
        exact Or.inr ⟨q, e, rfl, hle, hheap⟩
    · exact Or.inl rfl
  · exact Or.inl rfl

/-! ## Runs -/

structure Kept (d : Desk) : Prop where
  sound : Sound d.run.st.svc
  live : ∀ p ∈ d.errors, ∃ e, d.run.st.svc.heap p = some (.error e)
  once : ∀ p ∈ d.described, d.run.st.svc.events.count (.free p) = 1

theorem Kept.accounts (h : Kept d) : Accounts d := by
  refine ⟨h.live, fun p hp => ?_, fun p hp => ?_, h.once⟩
  · obtain ⟨e, he⟩ := h.live p hp
    exact h.sound.count_live he
  · exact (h.sound.count_grows List.prefix_rfl (h.once p hp)).1

/-- **Step lemma.** -/
theorem kept_step (h : Kept d) (ho : Fits env d o) : Kept (d.step env o) := by
  have hdoes : Does env o d.run.st.svc (d.run.step env o).st.svc := Run.step_does h.sound.tidy o
  have hsound := hdoes.sound h.sound
  have honce : ∀ p ∈ d.described, (d.run.step env o).st.svc.events.count (.free p) = 1 := fun p hp =>
    (hsound.count_grows hdoes.events (h.once p hp)).2
  by_cases hg : ∃ g, o = .handler (.getError g)
  · obtain ⟨g, rfl⟩ := hg
    obtain ⟨e, he⟩ := h.live g.errnum ho.1.1
    have hlive : ∀ p ∈ d.errors, p ≠ g.errnum →
        ∃ e, (d.run.step env (.handler (.getError g))).st.svc.heap p = some (.error e) := by
      intro p hp hne
      obtain ⟨e, he⟩ := h.live p hp
      exact ⟨e, hdoes.kept h.sound he (by simpa [Op.frees, Request.frees] using Ne.symm hne)⟩
    rcases getError_cases he ho.2 with ⟨hstep, hnone, -⟩ | ⟨hstep, hheap, -⟩
    · rw [hstep]
      refine ⟨hsound, fun p hp => ?_, fun p hp => ?_⟩
      · exact hlive p (Finset.mem_of_mem_erase hp) (Finset.ne_of_mem_erase hp)
      · rcases Finset.mem_insert.1 hp with rfl | hp
        · have hpos : 0 < g.errnum := by
            refine Nat.pos_of_ne_zero fun hzero => ?_
            rw [hzero, h.sound.zero] at he
            cases he
          rw [hsound.once, if_pos ⟨hpos, (h.sound.tidy.lt he).trans_le hdoes.next_le, hnone⟩]
        · exact honce p hp
    · rw [hstep]
      refine ⟨hsound, fun p hp => ?_, honce⟩
      by_cases hne : p = g.errnum
      · exact ⟨e, hne ▸ hheap⟩
      · exact hlive p hp hne
  · have ho' : ∀ g, o ≠ .handler (.getError g) := fun g hog => hg ⟨g, hog⟩
    have hfrees : ∀ p ∈ d.errors, o.frees ≠ some p := by
      intro p hp hfree
      unfold Op.frees Request.frees at hfree
      split at hfree
      · split at hfree
        · exact ho' _ rfl
        · exact ho.1.1 p hfree hp
        · cases hfree
      · cases hfree
    have hlive : ∀ p ∈ d.errors, ∃ e, (d.run.step env o).st.svc.heap p = some (.error e) := by
      intro p hp
      obtain ⟨e, he⟩ := h.live p hp
      exact ⟨e, hdoes.kept h.sound he (hfrees p hp)⟩
    rcases other_cases h.sound.tidy ho' with hstep | ⟨p, e, hstep, -, hheap⟩
    · rw [hstep]
      exact ⟨hsound, hlive, honce⟩
    · rw [hstep]
      refine ⟨hsound, fun q hq => ?_, honce⟩
      rcases Finset.mem_insert.1 hq with rfl | hq
      · exact ⟨e, hheap⟩
      · exact hlive q hq

/-- the connector's handles are old -/
theorem Kept.lt (h : Kept d) {p : ℕ} (hp : p ∈ d.errors ∪ d.described) : p < d.run.st.svc.next := by
  rcases Finset.mem_union.1 hp with hp | hp
  · obtain ⟨e, he⟩ := h.live p hp
    exact h.sound.tidy.lt he
  · have honce := h.once p hp
    rw [h.sound.once] at honce
    split_ifs at honce with hlt
    exact hlt.2.1

theorem kept_start : Kept Desk.start := by
  refine ⟨⟨tidy_fresh, rfl, fun p f hp => ?_, fun d hd => ?_, fun p => ?_⟩, fun p hp => ?_, fun p hp => ?_⟩
  · cases hp
  · cases hd
  · have hnot : ¬ (0 < p ∧ p < 1) := by omega
    simp [Desk.start, Run.start, St.fresh]
    omega
  · simp [Desk.start] at hp
  · simp [Desk.start] at hp

/-- what a kept desk's next operation does to the handles -/
theorem Kept.serves (h : Kept d) (ho : Fits env d o) : Serves env d o := by
  refine ⟨fun r st r' p hor hr ha hp hle => ?_, fun g hog hstuck hok hlock => ?_⟩
  · subst hor
    have hgiven : given r r' = some p := by
      rw [given, if_neg, hp]
      intro hsame
      have hlt := h.lt (ho.1.2 p (by rw [← hsame, hp]; rfl))
      omega
    cases r with
    | getError g => cases hr
    | _ => simp [Desk.step, ha, hgiven]
  · subst hog
    obtain ⟨e, he⟩ := h.live g.errnum ho.1.1
    rcases getError_cases he ho.2 with ⟨hstep, -, hrun⟩ | ⟨-, -, hnot⟩
    · refine ⟨⟨e, he⟩, hrun, ?_⟩
      rw [hstep]
      exact Finset.mem_insert_self _ _
    · exact absurd ⟨hstuck, hok, hlock⟩ hnot

theorem tidy_run (env : Env) (ops : List Op) : Tidy (run (Desk.step env) Desk.start ops).run.st.svc := by
  refine run_inv_all (I := fun d : Desk => Tidy d.run.st.svc) (fun d o hd => ?_) tidy_fresh ops
  rw [desk_step_run]
  exact tidy_step d.run o hd

theorem gives_handle {x : Run} (hx : Tidy x.st.svc) (r : Request) : GivesHandle env x r := by
  intro r' hr ha hes
  have hlast : lastMalloc (x.during env (.handler r)) = true := (Bool.and_eq_true _ _ ▸ hes).2
  rcases (answer_answered hx ha).report hr rfl (lock_ok_of_unrefused hes) with hgiven | ⟨-, hrefused⟩
  · exact hgiven
  · rw [Run.during, hrefused] at hlast
    cases hlast

/-- **Error handles.** In every run of requests, of the library's own operations and of changes of the virtual directories,
whatever the platform, memory, the locks and the callbacks answer, a failed request gives its own handle as `GivesHandle`
says. While no get_error that gets the lock is answered busy, every handle the connector was given is live and not freed
until it is described, in a get_error that reads it live, and is freed once from then on. -/
theorem errors_accounted (env : Env) (ops : List Op) :
    (∀ r, GivesHandle env (run (Desk.step env) Desk.start ops).run r) ∧
      (Along (Desk.step env) (Fits env) Desk.start ops → Accounts (run (Desk.step env) Desk.start ops) ∧
        ∀ o, Fits env (run (Desk.step env) Desk.start ops) o → Serves env (run (Desk.step env) Desk.start ops) o) := by
  refine ⟨gives_handle (tidy_run env ops), fun h => ?_⟩
  have hkept := run_inv (fun d o => kept_step) kept_start h
  exact ⟨hkept.accounts, fun o ho => hkept.serves ho⟩

end

/-- a user who allows nothing -/
def denying : Env := { calm true with access := some fun _ _ _ => false }

/-- an open is denied, and the connector asks why -/
def denied : List Op :=
  [.handler (.open ⟨ascii "/a", 0, none, none⟩), .handler (.getError ⟨1, 10, [], 0, .unspec⟩)]

theorem denied_accounted : Accounts (run (Desk.step denying) Desk.start denied) ∧
    ∀ o, Fits denying (run (Desk.step denying) Desk.start denied) o →
      Serves denying (run (Desk.step denying) Desk.start denied) o :=
  (errors_accounted denying denied).2 (by decide)

/-- **No memory for the handle**: the open is answered with an error, and its errnum is not set. -/
theorem handle_refused : ¬ ∀ (env : Env) (ops : List Op) (r r' : Request), (∀ g, r ≠ .getError g) →
    (∀ e, r ≠ .sessionError e) →
    (run (Run.step env) (Run.start St.fresh) ops).answer env (.handler r) = some (.handler (.error, r')) →
    ∃ p e, r'.errnum = some p ∧
      ((run (Run.step env) (Run.start St.fresh) ops).step env (.handler r)).st.svc.heap p = some (.error e) := by
  intro h
  obtain ⟨p, e, hp, -⟩ := h { denying with debug := false, malloc := fun _ => false } [] (.open ⟨ascii "/a", 0, none, none⟩)
    (.open ⟨ascii "/a", 0, none, none⟩) (by simp) (by simp) rfl
  cases hp

end CcApi.FileSystem
