/-
Whose error a remote-config request is answered with, cancellations included (`ccapi_rci_handler.c`).

A cancellation clears the callback record, but neither takes back the semaphore nor stops the worker. It is harmless once
the worker has read the record and if the next request waits for the worker to be through with the cancelled one.

- `run_inv`: the handshake's invariant holds along every run that is `Attributable`.
- `continues_attributed`: in such a run every request is answered with its own error, and the worker stays in its loop.
- `cancelled_too_early`: a request cancelled before the worker has read it, and one that comes too early after a
  cancellation.
-/
import CcApi.Rci.Thread

namespace CcApi.Rci

open Lib Lib.Runs

/-- the worker is at work on a callback it has read -/
def Pc.Working : Pc → Prop
  | .ready _ | .calling | .returned _ | .stored => True
  | _ => False

/-- all it has left to do is to update the status -/
def Pc.Stored : Pc → Prop
  | .stored => True
  | _ => False

instance (pc : Pc) : Decidable pc.Working := by cases pc <;> simp only [Pc.Working] <;> infer_instance

instance (pc : Pc) : Decidable pc.Stored := by cases pc <;> simp only [Pc.Stored] <;> infer_instance

variable (cfg : Config)

instance (info : RciInfo) (second : Option ℕ) (id : RequestId) (rc : RemoteConfig) :
    Decidable (PointersGiven cfg info second id rc) := by
  have hlock : Decidable (∀ place, id.locks rc = some place → place.Variable ∨ second ≠ none) :=
    decidable_of_iff (∀ place ∈ id.locks rc, place.Variable ∨ second ≠ none) (by simp)
  cases id <;> first | exact hlock | exact inferInstanceAs (Decidable (_ ∧ _))

/-- until there is a stop: a request is cancelled only before its callback is queued, once the worker has read it, or when
it has been processed; a request comes when the worker is through with a cancelled one; and a callback that is queued has
the pointers the worker asserts -/
def Attributable (s : St) : Op → Prop
  | .submit id rc => s.request = none ∧ id ≠ .sessionCancel →
    (¬s.pc.Working ∨ (cfg.handles s.svc.info id = false ∧ s.pc.Stored)) ∧
    (cfg.handles s.svc.info id = true → s.stopping = true ∨
      PointersGiven cfg s.svc.info s.svc.callback.second id rc)
  | .cancel _ => s.svc.status = .cbQueued → s.stopping = true ∨ s.pc.Working
  | _ => True

structure Inv (s : St) : Prop where
  handshake : Handshake.Inv 0 (abs s)
  good : s.svc.status = .cbQueued → s.stopping = true ∨ s.svc.callback.runnable = true
  request : ∀ r, s.request = some r → r.id ≠ .sessionCancel

theorem inv_init {s : St} (h : Init s) : Inv s := by
  obtain ⟨hs, ht, hl, hrun, hpc, hreq, hhist⟩ := h
  refine ⟨Handshake.inv_init ⟨?_, ?_, ?_, ?_, ?_, ?_, ?_, ?_⟩, fun hq => by simp [hs] at hq, fun r hr => by simp [hreq] at hr⟩
  · simp [abs, hs, RciThreadStatus.phase]
  · simp [abs, hreq]
  · simp [abs, hreq]
  · simp [abs, hl]
  · simp [abs, hpc, Pc.view]
  all_goals simp [abs, hhist]

/-! ## Steps -/

theorem working_view (n : ℕ) (pc : Pc) : (pc.view n).Working ↔ pc.Working := by cases pc <;> rfl

theorem stored_view (n : ℕ) (pc : Pc) : (pc.view n).Stored ↔ pc.Stored := by cases pc <;> rfl

/-- what an attributable step is to the handshake -/
theorem Inv.keeps {s : St} (h : Inv s) {o : Op} (ho : Attributable cfg s o) :
    Along (Handshake.step 0) Handshake.Keeps (abs s) (absOps cfg s o) := by
  cases o
  case submit id rc =>
    simp only [absOps]
    split_ifs with hid
    · exact along_nil _ _
    · have hnew : s.request = none ∧ id ≠ .sessionCancel := by simpa using hid
      refine ⟨fun _ => ?_, trivial⟩
      rcases (ho hnew).1 with hw | ⟨hh, hst⟩
      · exact Or.inl (mt (working_view _ _).1 hw)
      · exact Or.inr ⟨hh, (stored_view _ _).2 hst⟩
  case cancel rc =>
    refine ⟨fun hp => ?_, trivial⟩
    have hs : s.svc.status = .cbQueued := by
      cases hst : s.svc.status <;> simp [abs, hst, RciThreadStatus.phase] at hp
      rfl
    exact (ho hs).imp_right (working_view _ _).2
  case read =>
    refine ⟨fun hp => ?_, trivial⟩
    have hs : s.svc.status = .cbQueued := by
      cases hst : s.svc.status <;> simp [abs, hst, RciThreadStatus.phase] at hp
      rfl
    exact (h.good hs).symm
  all_goals exact ⟨trivial, trivial⟩

/-- what a request queues passes the worker's asserts -/
theorem submit_good {s : St} (h : Inv s) {id : RequestId} {rc : RemoteConfig} (ho : Attributable cfg s (.submit id rc))
    (hid : s.request = none ∧ id ≠ .sessionCancel) :
    (step cfg s (.submit id rc)).svc.status = .cbQueued → (step cfg s (.submit id rc)).stopping = true ∨
      (step cfg s (.submit id rc)).svc.callback.runnable = true := by
  obtain ⟨hs, -⟩ := idle_of_rest h.handshake hid.1
  have hnot : ¬(s.request.isSome ∨ id = .sessionCancel) := by simp [hid]
  simp only [step, if_neg hnot, present]
  cases hh : cfg.handles s.svc.info id with
  | false => simp [handler_skip cfg hid.2 hs hh]
  | true =>
    rw [handler_queue cfg hid.2 hs hh]
    intro
    refine ((ho hid).2 hh).imp_right fun hgiven => (queue_runnable cfg hh).2 ?_
    cases id <;> exact hgiven

theorem present_request {r : Request} {s : St} (hr : r.id ≠ .sessionCancel) :
    ∀ i, (present cfg r s).request = some i → i.id ≠ .sessionCancel := by
  intro i hi
  unfold present at hi
  split at hi
  · split at hi
    all_goals
      obtain rfl := Option.some.inj hi
      exact hr
  · simp at hi

/-- **Step.** -/
theorem step_inv {s : St} {o : Op} (h : Inv s) (ho : Attributable cfg s o) : Inv (step cfg s o) := by
  refine ⟨?_, ?_, ?_⟩
  · exact step_abs Handshake.step_inv ⟨absOps cfg s o, step_sim cfg h.handshake h.request o, h.keeps cfg ho⟩ h.handshake
  · have hgood := h.good
    cases o
    case submit id rc =>
      by_cases hid : s.request = none ∧ id ≠ .sessionCancel
      · exact submit_good cfg h ho hid
      · have hold : s.request.isSome ∨ id = .sessionCancel := by
          by_contra hn
          exact hid (by simpa using hn)
        simpa only [step, if_pos hold] using hgood
    case poll =>
      simp only [step]
      cases hr : s.request with
      | none => exact hgood
      | some r =>
        have hc := h.request r hr
        cases hs : s.svc.status with
        | idle =>
          have hn := h.handshake.now
          simp [Handshake.Now, abs, hs, RciThreadStatus.phase, hr] at hn
        | cbQueued => simpa [present, handler_queued cfg hc hs] using hgood
        | cbProcessed => simp [present, handler_processed cfg hc hs]
    case cancel rc => simp [step, handler, cancelSession]
    case stop =>
      simp only [step]
      split_ifs with hs
      · exact hgood
      · exact fun _ => Or.inl rfl
    case wake => simp only [step]; split <;> exact hgood
    case read => simp only [step]; split <;> [(split <;> exact hgood); exact hgood]
    case call => simp only [step]; split <;> exact hgood
    case ret u => simp only [step]; split <;> exact hgood
    case store => simp only [step]; split <;> exact hgood
    case update =>
      simp only [step]
      split
      · cases s.svc.status <;> simp
      · exact hgood
  · have hreq := h.request
    cases o
    case submit id rc =>
      simp only [step]
      split_ifs with hid
      · exact hreq
      · exact present_request cfg (by simpa using fun hc => hid (Or.inr hc))
    case poll =>
      simp only [step]
      cases hr : s.request with
      | none => simp [hr]
      | some r => exact present_request cfg (hreq r hr)
    case cancel rc => simp [step]
    case stop => simp only [step]; split <;> exact hreq
    case wake => simp only [step]; split <;> exact hreq
    case read => simp only [step]; split <;> [(split <;> exact hreq); exact hreq]
    case call => simp only [step]; split <;> exact hreq
    case ret u => simp only [step]; split <;> exact hreq
    case store => simp only [step]; split <;> exact hreq
    case update => simp only [step]; split <;> exact hreq

/-- **Run.** -/
theorem run_inv {s : St} (h : Init s) {ops : List Op} (hops : Along (step cfg) (Attributable cfg) s ops) :
    Inv (run (step cfg) s ops) :=
  Runs.run_inv (fun _ _ hi ho => step_inv cfg hi ho) (inv_init h) hops

/-! ## Answers -/

/-- the results of the user callbacks run for request n -/
def resultsOf (s : St) (n : ℕ) : List UserResult := (s.results.filter fun r => r.1 = n).map Prod.snd

/-- how often a user callback has been called for request n -/
def callsOf (s : St) (n : ℕ) : ℕ := (s.calls.filter fun k => serialOf k.request = n).length

/-- what a request is answered with: the results of the one run of what was queued for it, or, when nothing was queued,
no error and what it brought -/
def Answered (s : St) (x : Answer) : Prop :=
  match x.request.queued with
  | some _ => callsOf s x.request.serial = 1 ∧
      ∃ u, resultsOf s x.request.serial = [u] ∧
        x.record.errorId = u.error ∧ x.record.userContext = u.userContext ∧ x.record.response.errorHint = u.errorHint
  | none => callsOf s x.request.serial = 0 ∧
      x.record.errorId = 0 ∧ x.record.userContext = x.request.rc.userContext ∧
        x.record.response.errorHint = x.request.rc.response.errorHint

theorem Inv.answered {s : St} (h : Inv s) {x : Answer} (hx : x ∈ s.answers) : Answered s x := by
  have hright := h.handshake.answered x.view (List.mem_map_of_mem hx)
  have hcalls : ∀ n, (abs s).runs.count n = callsOf s n := by
    intro n
    simp only [abs, callsOf, List.count_eq_length_filter, List.filter_map, List.length_map]
    rfl
  unfold Answered
  cases hq : x.request.queued with
  | none =>
    simp only [Handshake.Right, Answer.view, Request.job, hq, Option.isSome_none, Bool.false_eq_true, if_false] at hright
    obtain ⟨⟨hrun, -⟩, herr, hside⟩ := hright
    simp only [RemoteConfig.side, Prod.mk.injEq] at hside
    exact ⟨(hcalls _).symm.trans hrun, herr, hside⟩
  | some q =>
    simp only [Handshake.Right, Answer.view, Request.job, hq, Option.isSome_some, if_true] at hright
    obtain ⟨hrun, hres⟩ := hright
    refine ⟨(hcalls _).symm.trans hrun, ?_⟩
    simp only [abs, List.filter_map] at hres
    obtain ⟨⟨n, u⟩, hl, hn⟩ := List.map_eq_singleton_iff.1 hres
    simp only [RemoteConfig.side, Prod.mk.injEq] at hn
    obtain ⟨rfl, herr, hctx, hhint⟩ := hn
    refine ⟨u, ?_, herr.symm, hctx.symm, hhint.symm⟩
    exact congrArg (List.map Prod.snd) hl

/-- the error id of every answer is its own request's, and the worker leaves its loop only after a stop -/
def Attributed (s : St) : Prop :=
  (∀ x ∈ s.answers, if x.request.queued.isSome then
    (resultsOf s x.request.serial).map UserResult.error = [x.record.errorId] else x.record.errorId = 0) ∧
  (s.pc = .exited → s.stopping = true)

instance (s : St) : Decidable (Attributed s) := inferInstanceAs (Decidable (_ ∧ _))

/-- **Attribution.** For any sequence of requests and cancellations and any interleaving with the worker: if every
operation is attributable, every request that is answered continue carries the error of the one run of its own callback,
or none if nothing was queued for it, and the worker does not leave its loop unless it is asked to stop. -/
theorem continues_attributed {s : St} (h : Init s) {ops : List Op}
    (hops : Along (step cfg) (Attributable cfg) s ops) : Attributed (run (step cfg) s ops) := by
  have hinv := run_inv cfg h hops
  refine ⟨fun x hx => ?_, fun he => ?_⟩
  · have hans := hinv.answered hx
    unfold Answered at hans
    cases hq : x.request.queued with
    | none =>
      simp only [hq] at hans
      simpa using hans.2.1
    | some q =>
      simp only [hq] at hans
      obtain ⟨-, u, hl, herr, -⟩ := hans
      simp [hl, herr]
  · exact hinv.handshake.exited (by simp [abs, he, Pc.view])

/-! ## Runs -/

/-- every callback is there, and lists are at most two levels deep -/
def Config.all : Config := ⟨fun _ => true, 2⟩

/-- a user callback that returns error e -/
def fails (e : ℕ) : Op := .ret ⟨e, false, false, none, some 1⟩

/-- one turn of the worker -/
def serves (e : ℕ) : List Op := [.wake, .read, .call, fails e, .store, .update]

instance (s : St) (o : Op) : Decidable (Attributable Config.all s o) := by
  cases o <;> simp only [Attributable] <;> infer_instance

/-- a session starts, is cancelled while the user callback runs, and is started again once the worker is through -/
theorem attributed_cancelled_session :
    let s := run (step Config.all) (.fresh .zero) ([.submit .sessionStart .plain, .wake, .read, .call, .poll,
      .cancel .plain, fails 7, .store, .update, .submit .sessionStart .plain] ++ serves 5 ++ [.poll])
    Attributed s ∧ s.answers.map (fun x => x.record.errorId) = [5] := by
  refine ⟨continues_attributed Config.all (init_fresh _) ?_, ?_⟩ <;> decide +kernel

/-- a session cancelled before the worker has read its callback makes it leave its loop; one that starts while the worker
is still with the cancelled one is answered with its error -/
theorem cancelled_too_early :
    ¬Attributed (run (step Config.all) (.fresh .zero) [.submit .sessionStart .plain, .cancel .plain, .wake, .read]) ∧
    ¬Attributed (run (step Config.all) (.fresh .zero) [.submit .sessionStart .plain, .wake, .read, .call,
      .cancel .plain, .submit .sessionStart .plain, fails 7, .store, .update, .poll]) := by
  constructor <;> decide +kernel

end CcApi.Rci
