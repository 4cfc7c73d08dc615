/-
What is freed in a teardown, and that it is freed once (`ccxapi_stop`, `ccxapi_asynchronous_stop`, `ccapi_stop_thread` and
`free_ccapi_data_internal_resources` of `ccapi_init.c`).

- `step_inv`: a step that breaks nothing keeps `Inv`: each transport's slot is in order, the tasks that a teardown has done
  are the first of its list, the threads it has awaited have ended, and nobody is in a call once the library is gone.
- `torn_down_once`: such runs look into nothing that has been freed, free nothing twice, and end with everything freed.
- `aborted_while_stopping`: an abort while ccxapi_stop waits.
-/
import CcApi.Send.Lifetime
import CcApi.Teardown.Calls
import CcApi.Teardown.Tasks

namespace CcApi.Teardown

open Lib Lib.Runs
open Transport (System Kind Stage Link Event StartArg Build Action)

variable (has : Worker → Bool)

/-! ## The invariant -/

namespace State

/-- a transport as a slot: the start makes its records, the running connector borrows them, ccxapi_stop keeps them -/
def slot (x : State) (k : Kind) : Slot.State :=
  view (x.sys.link k) x.async.isNone (x.claim k) (x.clearing k) (x.dealt k)

/-- each thread is in its call -/
structure Calls (x : State) : Prop where
  stop : (x.sys.thread 0).call = .libraryStop
  ofStop : OfStop x.stopStage
  start : x.send = none → ∃ arg, (x.sys.thread 1).call = .start arg ∧ OfStart arg.kind x.startStage
  send : x.send ≠ none → x.startStage = .begin

/-- what holds whichever teardown is at work -/
structure Base (x : State) : Prop where
  fsm : x.sys.Fsm
  calls : x.Calls
  slots : ∀ k, Slot.Inv (x.slot k)
  behind : ∀ k ∈ behind x.stopStage, x.dealt k = true
  ended : ∀ accepted, x.stopStage = .teardown accepted → accepted = true ∧ x.sys.status = .notStarted
  workers : ∀ w, has w = false → x.worker w = .notStarted
  sound : x.faulted = false

/-- how far the teardowns are; the connector aborts only while ccxapi_stop has done no task -/
def Progress (x : State) : Prop :=
  match x.async with
  | none => ∃ done, done ++ x.tail = stopTasks has true ∧ x.Done done ∧ (done ≠ [] → x.stopStage = .teardown true)
  | some l => ∃ done, done ++ l = asyncTasks has ∧ x.Done done ∧ x.tail = stopTasks has true ∧ x.sys.status = .running

/-- once the library is gone nobody is in a call -/
def Alone (x : State) : Prop := x.gone = true → x.callerBusy = false ∧ (x.async.isSome = true → x.stopperBusy = false)

structure Inv (x : State) : Prop where
  base : x.Base has
  progress : x.Progress has
  alone : x.Alone

section Facts

variable {has} {x : State}

/-- ccxapi_stop is behind its wait only when its terminate action was answered success -/
theorem Base.tearing (h : x.Base has) : tearing x.stopStage = true ↔ x.stopStage = .teardown true := by
  refine ⟨fun htear => ?_, fun hstage => by rw [hstage]; rfl⟩
  cases hstage : x.stopStage with
  | teardown accepted => rw [(h.ended accepted hstage).1]
  | _ => simp [hstage, Teardown.tearing] at htear

theorem Progress.of_none (h : x.Progress has) (ha : x.async = none) :
    ∃ done, done ++ x.tail = stopTasks has true ∧ x.Done done ∧ (done ≠ [] → x.stopStage = .teardown true) := by
  simpa only [Progress, ha] using h

theorem Progress.of_some {l : List Task} (h : x.Progress has) (ha : x.async = some l) :
    ∃ done, done ++ l = asyncTasks has ∧ x.Done done ∧ x.tail = stopTasks has true ∧ x.sys.status = .running := by
  simpa only [Progress, ha] using h

/-- whichever teardown is at work -/
theorem Progress.program (h : x.Progress has) : ∃ waits done rest, Program has waits (done ++ rest) ∧ x.Done done := by
  cases ha : x.async with
  | none =>
    obtain ⟨done, hl, hdone, -⟩ := h.of_none ha
    exact ⟨stopWaits has, done, x.tail, hl ▸ stop_program has, hdone⟩
  | some l =>
    obtain ⟨done, hl, hdone, -⟩ := h.of_some ha
    exact ⟨asyncWaits has, done, l, hl ▸ async_program has, hdone⟩

theorem Progress.nodup (h : x.Progress has) : x.freed.Nodup := by
  obtain ⟨waits, done, rest, hprogram, hdone⟩ := h.program
  rw [hdone.freed]
  exact hprogram.nodup rfl

/-- when a record has been freed the workers have ended -/
theorem Inv.worker_ended (h : x.Inv has) (hfreed : x.freed ≠ []) (w : Worker) : x.worker w = .notStarted := by
  obtain ⟨waits, done, rest, hprogram, hdone⟩ := h.progress.program
  cases hw : has w with
  | false => exact h.base.workers w hw
  | true => exact hdone.ended (.worker w) (hprogram.waited rfl (hdone.freed ▸ hfreed) _ (hprogram.awaits w hw))

theorem Inv.stage_of_async (h : x.Inv has) (ha : x.async ≠ none) : x.stopStage ≠ .teardown true := by
  obtain ⟨l, ha⟩ := Option.ne_none_iff_exists'.1 ha
  obtain ⟨-, -, -, -, hrunning⟩ := h.progress.of_some ha
  intro hstage
  rw [(h.base.ended true hstage).2] at hrunning
  cases hrunning

/-- nothing is freed but by a teardown -/
theorem Inv.freed_nil (h : x.Inv has) (ha : x.async = none) (hstage : x.stopStage ≠ .teardown true) :
    x.tail = stopTasks has true ∧ x.freed = [] := by
  obtain ⟨done, hl, hdone, hend⟩ := h.progress.of_none ha
  obtain rfl : done = [] := by
    by_contra hne
    exact hstage (hend hne)
  exact ⟨hl, hdone.freed⟩

theorem Inv.tail_eq (h : x.Inv has) (hstage : x.stopStage ≠ .teardown true) : x.tail = stopTasks has true := by
  cases ha : x.async with
  | none => exact (h.freed_nil ha hstage).1
  | some l =>
    obtain ⟨-, -, -, htail, -⟩ := h.progress.of_some ha
    exact htail

theorem not_gone (hg : x.gone = false) : .ccapiData ∉ x.freed ∧ .thread .connectorRun ∉ x.freed := by
  simpa [gone] using hg

theorem not_gone_of_nil (hf : x.freed = []) : x.gone = false := by
  simp [gone, hf]

end Facts

/-! ## Nothing that has been freed is looked into -/

theorem looks_subset (st : Stage) : ∀ r ∈ looks st, r = .ccapiData ∨ r = .thread .connectorRun := by
  cases st <;> simp [looks]

theorem sendLooks_subset (t : Send.Transaction) : ∀ r ∈ sendLooks t, r = .ccapiData ∨ r = .thread .connectorRun := by
  unfold sendLooks
  repeat' split
  all_goals simp

/-- a send that is through with the library -/
theorem sendLooks_nil {t : Send.Transaction} (hbusy : sendBusy t = false) (hstage : t.stage ≠ .checkargs) :
    sendLooks t = [] := by
  unfold sendBusy at hbusy
  unfold sendLooks
  cases hs : t.stage <;> simp_all

section Touched

variable {has} {x : State}

theorem not_mem_freed (hg : x.gone = false) {l : List Record} (hl : ∀ r ∈ l, r = .ccapiData ∨ r = .thread .connectorRun) :
    ∀ r ∈ l, r ∉ x.freed := by
  intro r hr
  rcases hl r hr with rfl | rfl
  · exact (not_gone hg).1
  · exact (not_gone hg).2

/-- the next task of a teardown -/
theorem firstLooks_freed {waits done rest : List Task} (hprogram : Program has waits (done ++ rest)) (hdone : x.Done done) :
    ∀ r ∈ firstLooks rest, r ∉ x.freed := by
  cases rest with
  | nil => simp [firstLooks]
  | cons t rest =>
    rw [hdone.freed]
    exact hprogram.looks rfl

/-- once the library is gone ccxapi_stop has returned, or its task list is what frees -/
theorem Inv.stopper_gone (h : x.Inv has) (hg : x.gone = true) (hbegin : x.stopStage ≠ .begin)
    (hstage : x.stopStage ≠ .teardown true) : x.stopStage = .returned := by
  cases ha : x.async with
  | none =>
    rw [not_gone_of_nil (h.freed_nil ha hstage).2] at hg
    cases hg
  | some l =>
    obtain ⟨-, -, -, htail, -⟩ := h.progress.of_some ha
    have hbusy := (h.alone hg).2 (by simp [ha])
    have hne : stopTasks has true ≠ [] := List.cons_ne_nil _ _
    simpa [stopperBusy, hbegin, htail, hne] using hbusy

theorem Inv.start_gone (h : x.Inv has) (hg : x.gone = true) (hsend : x.send = none) (hbegin : x.startStage ≠ .begin) :
    x.startStage = .returned := by
  have hbusy := (h.alone hg).1
  simpa [callerBusy, hsend, hbegin] using hbusy

/-- **What a step looks into** has not been freed. -/
theorem Inv.touched (h : x.Inv has) {o : Op} (ho : ¬ x.breaks o = true) : ∀ r ∈ x.touched o, r ∉ x.freed := by
  -- while the connector-run thread is in its loop no teardown has freed anything
  have hloop : ∀ r ∈ (if x.looping then [Record.ccapiData, .thread .connectorRun] else []), r ∉ x.freed := by
    intro r hr
    split_ifs at hr with hl
    · simp only [looping, Bool.and_eq_true, Option.isNone_iff_eq_none, decide_eq_true_eq] at hl
      rw [(h.freed_nil hl.1 fun hstage => hl.2 (h.base.ended true hstage).2).2]
      simp
    · simp at hr
  cases o with
  | stopper a =>
    rw [State.touched]
    simp only [h.base.tearing]
    split_ifs with hstage
    · have ha : x.async = none := by
        by_contra ha
        exact h.stage_of_async ha hstage
      obtain ⟨done, hl, hdone, -⟩ := h.progress.of_none ha
      exact firstLooks_freed (hl ▸ stop_program has) hdone
    · cases hg : x.gone with
      | false => exact not_mem_freed hg (looks_subset _)
      | true =>
        have hbegin : x.stopStage ≠ .begin := by
          intro hbegin
          simp [breaks, hbegin, hg] at ho
        rw [h.stopper_gone hg hbegin hstage]
        simp [looks]
  | caller a c =>
    rw [State.touched]
    cases hsend : x.send with
    | some t =>
      cases hg : x.gone with
      | false => exact not_mem_freed hg (sendLooks_subset t)
      | true =>
        have hbusy : sendBusy t = false := by simpa [callerBusy, hsend] using (h.alone hg).1
        have hstage : t.stage ≠ .checkargs := by
          intro hstage
          simp [breaks, hsend, hstage, hg] at ho
        simp [sendLooks_nil hbusy hstage]
    | none =>
      cases hg : x.gone with
      | false => exact not_mem_freed hg (looks_subset _)
      | true =>
        have hbegin : x.startStage ≠ .begin := by
          intro hbegin
          simp [breaks, hsend, hbegin, hg] at ho
        simp [h.start_gone hg hsend hbegin, looks]
  | event e => exact hloop
  | callback c => exact hloop
  | statusRelease r => exact hloop
  | abort => exact hloop
  | async =>
    rw [State.touched]
    cases ha : x.async with
    | none => simp [firstLooks]
    | some l =>
      obtain ⟨done, hl, hdone, -⟩ := h.progress.of_some ha
      exact firstLooks_freed (hl ▸ async_program has) hdone
  | work w ends =>
    rw [State.touched]
    split_ifs with hw
    · simp
    · -- a worker that runs has not been awaited, and the records are freed behind the waits
      have hnil : x.freed = [] := by
        by_contra hne
        exact hw (h.worker_ended hne w)
      simp [hnil]

end Touched

/-! ## What a task keeps -/

section Tasks

variable {has} {x y : State}

/-- a step that leaves the threads where they are -/
theorem slot_view (x y : State) (k : Kind) (hasync : y.async = x.async) (hthread : y.sys.thread = x.sys.thread) :
    y.slot k = view (y.sys.link k) x.async.isNone (x.claim k) (x.clearing k) (y.dealt k) := by
  simp only [slot, claim, clearing, startStage, stopStage, hasync, hthread]
  rfl

/-- where a record may be freed the slot is free -/
theorem slot_free {k : Kind} (h : x.mayFree k = true) : (x.slot k).Free := by
  simp only [mayFree, Bool.and_eq_true, Bool.not_eq_true'] at h
  exact ⟨h.1.1, h.1.2, h.2⟩

/-- the free of a transport's record by a teardown -/
theorem slot_retire {k : Kind} (hm : x.claim k = .away) (hfree : x.mayFree k = true)
    (hlink : y.sys.link k = (x.sys.link k).freeInfo) (hdealt : y.dealt k = true) (hasync : y.async = x.async)
    (hthread : y.sys.thread = x.sys.thread) (h : Slot.Inv (x.slot k)) : Slot.Inv (y.slot k) := by
  have hstep : y.slot k = Slot.step (x.slot k) .retire := by
    rw [slot_view x y k hasync hthread, hlink, hdealt, Slot.step, slot, ← view_freed]
    rfl
  rw [hstep]
  exact Slot.step_inv _ _ h ⟨hm, slot_free hfree⟩

/-- a step of the teardowns' lists, or of the workers -/
theorem Base.of_eq (h : x.Base has) (hsys : y.sys = x.sys) (hsend : y.send = x.send)
    (hasync : y.async.isNone = x.async.isNone) (hdealt : y.dealt = x.dealt) (hfaulted : y.faulted = x.faulted)
    (hworkers : ∀ w, has w = false → y.worker w = .notStarted) : y.Base has := by
  obtain ⟨sys, send, fileLockFree, worker, tail, async, dealt, freed, faulted⟩ := y
  subst hsys hsend hdealt hfaulted
  refine ⟨h.fsm, ⟨h.calls.stop, h.calls.ofStop, h.calls.start, h.calls.send⟩, fun k => ?_, h.behind, h.ended, hworkers,
    h.sound⟩
  have hslot := h.slots k
  rw [slot, ← hasync] at hslot
  exact hslot

/-- a task keeps what holds if it asks no running connector to stop, and frees no transport's record that somebody has -/
theorem Base.perform (h : x.Base has) (t : Task) (hsignal : t = .signal .connectorRun → x.sys.status ≠ .running)
    (hfree : ∀ k, t = .freeInfo k → x.claim k = .away ∧ x.mayFree k = true) : (x.perform t).1.Base has := by
  cases t with
  | freeInfo k =>
    obtain ⟨hm, hmay⟩ := hfree k rfl
    refine ⟨h.fsm.onLink (Link.freeInfo_engaged _), ⟨h.calls.stop, h.calls.ofStop, h.calls.start, h.calls.send⟩,
      fun k' => ?_, fun k' hk' => perform_dealt (.freeInfo k) x (h.behind k' hk'), h.ended, h.workers, h.sound⟩
    by_cases hk : k' = k
    · subst hk
      exact slot_retire hm hmay (by simp [State.perform, System.onLink]) (by simp [State.perform]) rfl rfl (h.slots k')
    · rw [slot_view x (x.perform (.freeInfo k)).1 k' rfl rfl]
      simpa [slot, State.perform, System.onLink, Function.update_of_ne hk] using h.slots k'
  | signal t =>
    simp only [State.perform, signal]
    split_ifs with hrun
    · cases t with
      | connectorRun => exact absurd hrun (hsignal rfl)
      | worker w =>
        refine h.of_eq rfl rfl rfl rfl rfl fun w' hw' => ?_
        by_cases hw : w' = w
        · subst hw
          rw [status, h.workers w' hw'] at hrun
          cases hrun
        · simpa [Function.update_of_ne hw] using h.workers w' hw'
    · exact h
  | await t => exact h
  | freeThread t => exact h.of_eq rfl rfl rfl rfl rfl h.workers
  | freeData => exact h.of_eq rfl rfl rfl rfl rfl h.workers

end Tasks

/-! ## The steps of the calls -/

section Steps

variable {has} {x y : State}

/-- a step that frees nothing and leaves the teardowns where they are -/
theorem Progress.mono (h : x.Progress has) (hasync : y.async = x.async) (htail : y.tail = x.tail)
    (hfreed : y.freed = x.freed) (hstatus : ∀ t, x.status t = .notStarted → y.status t = .notStarted)
    (hrun : x.async ≠ none → y.sys.status = x.sys.status) (hdealt : ∀ k, x.dealt k = true → y.dealt k = true)
    (hstage : x.stopStage = .teardown true → y.stopStage = .teardown true) : y.Progress has := by
  cases ha : x.async with
  | none =>
    obtain ⟨done, hl, hdone, hend⟩ := h.of_none ha
    rw [Progress, hasync, ha]
    exact ⟨done, htail ▸ hl, hdone.mono hfreed hstatus hdealt, fun hne => hstage (hend hne)⟩
  | some l =>
    obtain ⟨done, hl, hdone, htail', hrunning⟩ := h.of_some ha
    rw [Progress, hasync, ha]
    exact ⟨done, hl, hdone.mono hfreed hstatus hdealt, htail.trans htail', (hrun (by simp [ha])).trans hrunning⟩

theorem Inv.halt (h : x.Inv has) : x.halt.Inv has where
  base := ⟨⟨h.base.fsm.running, h.base.fsm.closing⟩,
    ⟨h.base.calls.stop, h.base.calls.ofStop, h.base.calls.start, h.base.calls.send⟩, h.base.slots, h.base.behind,
    h.base.ended, h.base.workers, h.base.sound⟩
  progress := h.progress.mono rfl rfl rfl (status_mono id fun _ => id) (fun _ => rfl) (fun _ hk => hk) id
  alone := h.alone

theorem api_status (aggressive : Bool) (i : ℕ) (a : Transport.Answer) (s : System) :
    (s.api aggressive i a).status = s.status := congrArg Prod.fst (System.api_fsm aggressive i a s)

theorem api_returned {aggressive : Bool} {i : ℕ} {a : Transport.Answer} {s : System}
    (h : (s.thread i).stage = .returned) : s.api aggressive i a = s := by
  simp [System.api, h]

/-- a step of a call, unless an assertion halts the program -/
theorem api_or_halt (b : Build) {s : System} (hhalt : s.halted = false) (i : ℕ) (a : Transport.Answer) :
    s.step b (.api i a) = s.api b.aggressive i a ∨
      s.asserts i a = true ∧ s.step b (.api i a) = { s with halted := true } := by
  simp only [System.step, hhalt, Bool.false_eq_true, if_false]
  split_ifs with hassert
  · exact .inr ⟨hassert.2, rfl⟩
  · exact .inl rfl

/-- ccxapi_stop up to its wait -/
theorem Inv.stopper_eq (h : x.Inv has) (b : Build) (a : Transport.Answer) (hstage : x.stopStage ≠ .teardown true)
    (ho : ¬ x.breaks (.stopper a) = true) : x.stopper has b a = { x with
      sys := x.sys.step b (.api 0 a)
      dealt := fun k => x.dealt k || x.stopStage = .libraryFree k } := by
  unfold State.stopper
  split
  · rename_i accepted hteardown
    rw [(h.base.ended accepted hteardown).1] at hteardown
    exact absurd hteardown hstage
  · rename_i accepted hwait
    have htail : (if x.sys.status = .notStarted then stopTasks has accepted else x.tail) = x.tail := by
      split_ifs with hstatus
      · obtain rfl : accepted = true := by simpa [breaks, hwait, hstatus] using ho
        exact (h.tail_eq hstage).symm
      · rfl
    simp [hwait, htail]
  · rename_i k hk
    simp only [State.mk.injEq, true_and, and_true]
    funext k'
    by_cases hkk : k' = k
    · subst hkk
      simp [hk]
    · simp [Function.update_of_ne hkk, hk, Ne.symm hkk]
  · rename_i hfree
    simp [show ∀ k, x.stopStage ≠ .libraryFree k from hfree]

theorem callerBusy_congr (x y : State) (hsend : y.send = x.send) (hthread : y.sys.thread 1 = x.sys.thread 1) :
    y.callerBusy = x.callerBusy := by
  simp only [callerBusy, startStage, hsend, hthread]
  rfl

/-- ccxapi_stop moves up to its wait -/
theorem Inv.stopApi (h : x.Inv has) {s : System} {dealt : Kind → Bool}
    (hmove : StopMove x.sys x.stopStage s.link (s.thread 0).stage) (hof : OfStop (s.thread 0).stage)
    (hcall : (s.thread 0).call = (x.sys.thread 0).call) (hother : s.thread 1 = x.sys.thread 1) (hfsm : s.Fsm)
    (hstatus : s.status = x.sys.status) (hdealt : dealt = fun k => x.dealt k || x.stopStage = .libraryFree k)
    (hstage : x.stopStage ≠ .teardown true)
    (haccepted : ∀ accepted, x.stopStage = .libraryWait accepted → x.sys.status = .notStarted → accepted = true)
    (hreturned : x.stopStage = .returned → (s.thread 0).stage = .returned)
    (hfree : ∀ k, x.stopStage = .stopFree k ∨ x.stopStage = .libraryFree k → x.claim k = .away ∧ x.mayFree k = true)
    (hbegin : x.stopStage = .begin → x.gone = false) : Inv has { x with sys := s, dealt := dealt } := by
  have hmono : ∀ k, x.dealt k = true → dealt k = true := fun k hk => by simp [hdealt, hk]
  have hclaim (k : Kind) : State.claim { x with sys := s, dealt := dealt } k = x.claim k := by
    simp only [claim, startStage, hother]
  refine
    { base :=
        { fsm := hfsm, calls := { stop := hcall.trans h.base.calls.stop, ofStop := hof, start := ?start, send := ?send }
          slots := ?slots, behind := ?behind, ended := ?ended, workers := h.base.workers, sound := h.base.sound }
      progress := ?progress
      alone := ?alone }
  case start =>
    intro hsend
    simpa only [startStage, hother] using h.base.calls.start hsend
  case send =>
    intro hsend
    simpa only [startStage, hother] using h.base.calls.send hsend
  case slots =>
    intro k
    -- the other thread's start, if it has the record, is the slot's maker; ccxapi_stop is its keeper
    have hslot := hmove.slot k x.async.isNone (x.claim k) (x.dealt k) fun hst => by
      obtain ⟨haway, hmay⟩ := hfree k hst
      exact ⟨haway, (slot_free hmay).1, rfl, (slot_free hmay).2.2⟩
    obtain ⟨ops, hops, halong⟩ := hslot
    have hrun := run_inv (I := Slot.Inv) Slot.step_inv (h.base.slots k) halong
    have heq : State.slot { x with sys := s, dealt := dealt } k =
        view (s.link k) x.async.isNone (x.claim k) ((s.thread 0).stage = .stopNull k)
          (x.dealt k || x.stopStage = .libraryFree k) := by
      rw [slot, hclaim, hdealt]
      rfl
    rw [heq, hops]
    exact hrun
  case behind =>
    intro k hk
    rcases hmove.behind k hk with hk | hk
    · exact hmono k (h.base.behind k hk)
    · simp [hdealt, hk]
  case ended =>
    intro accepted hend
    obtain ⟨hended, hwait⟩ := hmove.ended hend
    exact ⟨haccepted accepted hwait hended, hstatus.trans hended⟩
  case progress =>
    have hended := status_mono (x := x) (y := { x with sys := s, dealt := dealt }) (fun ht => hstatus.trans ht) fun _ => id
    exact h.progress.mono rfl rfl rfl hended (fun _ => hstatus) hmono fun hend => absurd hend hstage
  case alone =>
    intro (hg : x.gone = true)
    -- the library is gone, and ccxapi_stop can only have returned
    have hreturn := h.stopper_gone hg (fun hb => by simp [hbegin hb] at hg) hstage
    refine ⟨?_, fun _ => ?_⟩
    · exact (callerBusy_congr x { x with sys := s, dealt := dealt } rfl hother).trans (h.alone hg).1
    · simp [stopperBusy, stopStage, hreturned hreturn]

theorem Base.performFirst (h : x.Base has) {l : List Task}
    (hsignal : ∀ t ∈ l.head?, t = .signal .connectorRun → x.sys.status ≠ .running)
    (hfree : ∀ t ∈ l.head?, ∀ k, t = .freeInfo k → x.claim k = .away ∧ x.mayFree k = true) :
    (x.performFirst l).1.Base has := by
  cases l with
  | nil => exact h
  | cons t rest => exact h.perform t (hsignal t rfl) (hfree t rfl)

/-- the tasks of ccxapi_stop -/
theorem Inv.stopTask (h : x.Inv has) (b : Build) {a : Transport.Answer} (hstage : x.stopStage = .teardown true)
    (ho : ¬ x.breaks (.stopper a) = true) : (x.stopper has b a).Inv has := by
  -- behind its wait the connector-run thread has ended, and can no longer abort
  have ha : x.async = none := by
    by_contra ha
    exact h.stage_of_async ha hstage
  obtain ⟨done, hl, hdone, -⟩ := h.progress.of_none ha
  obtain ⟨done', hl', hdone', -⟩ := hdone.performFirst (l := x.tail)
  obtain ⟨hsend, hasync, htail, hthread⟩ := performFirst_frame x.tail x
  have hstopper : x.stopper has b a = { (x.performFirst x.tail).1 with tail := (x.performFirst x.tail).2 } := by
    simp only [State.stopper, hstage]
  have hbase : (x.performFirst x.tail).1.Base has := by
    refine h.base.performFirst (fun t ht hsig => ?_) fun t ht k hk => ?_
    · rw [(h.base.ended true hstage).2]
      simp
    · subst hk
      have hmem : .freeInfo k ∈ stopTasks has true := hl ▸ List.mem_append_right _ (List.mem_of_mem_head? ht)
      exact absurd hmem (freeInfo_notMem has k)
  have hnone : (x.stopper has b a).async = none := by
    rw [hstopper]
    exact hasync.trans ha
  rw [hstopper] at hnone ⊢
  refine ⟨hbase.of_eq rfl rfl rfl rfl rfl hbase.workers, ?_, fun hg => ⟨?_, ?_⟩⟩
  · rw [Progress, hnone]
    refine ⟨done', hl'.trans hl, hdone'.mono rfl (status_mono id fun _ => id) fun _ hk => hk, fun _ => ?_⟩
    simpa only [stopStage, hthread] using hstage
  · have hbusy : x.callerBusy = false := by
      rcases performFirst_gone hg with hg | hrecord
      · exact (h.alone hg).1
      · simpa [breaks, hstage, hrecord] using ho
    exact (callerBusy_congr x _ hsend (congrFun hthread 1)).trans hbusy
  · intro hsome
    rw [hnone] at hsome
    cases hsome

/-- **ccxapi_stop** keeps the invariant. -/
theorem Inv.stopper (h : x.Inv has) (b : Build) (hhalt : x.sys.halted = false) {a : Transport.Answer}
    (ho : ¬ x.breaks (.stopper a) = true) : (x.stopper has b a).Inv has := by
  by_cases hstage : x.stopStage = .teardown true
  · exact h.stopTask b hstage ho
  rw [h.stopper_eq b a hstage ho]
  rcases api_or_halt b hhalt 0 a with hstep | ⟨hassert, hstep⟩ <;> rw [hstep]
  · have htear : tearing x.stopStage = false := Bool.eq_false_iff.2 fun htear => hstage (h.base.tearing.1 htear)
    obtain ⟨hmove, hof⟩ := stop_move h.base.calls.stop h.base.calls.ofStop htear b.aggressive a
    refine h.stopApi hmove hof (api_call _ a _) (api_other one_ne_zero _ a _) (System.api_keeps_fsm _ h.base.fsm 0 a)
      (api_status _ 0 a _) rfl hstage (fun accepted hwait hended => ?_) (fun hr => ?_) (fun k hk => ?_) fun hb => ?_
    · simpa [breaks, hwait, hended] using ho
    · rw [api_returned hr]
      exact hr
    · rcases hk with hk | hk <;> simpa [breaks, hk] using ho
    · simpa [breaks, hb] using ho
  · -- no assertion stands where ccxapi_stop is done with a transport
    have hfree (k : Kind) : x.stopStage ≠ .libraryFree k := by
      intro hk
      rw [stopStage] at hk
      simp [System.asserts, hk] at hassert
    have hdealt : (fun k => x.dealt k || decide (x.stopStage = .libraryFree k)) = x.dealt := by
      funext k
      simp [hfree k]
    rw [hdealt]
    exact h.halt

theorem stopperBusy_congr (x y : State) (hthread : y.sys.thread 0 = x.sys.thread 0) (htail : y.tail = x.tail) :
    y.stopperBusy = x.stopperBusy := by
  simp only [stopperBusy, stopStage, hthread, htail]
  rfl

theorem breaks_async {l : List Task} (ha : x.async = some l) (hrecord : (l.head?.bind Task.record).isSome = true)
    (ho : ¬ x.breaks .async = true) : x.stopperBusy = false ∧ x.callerBusy = false := by
  cases l with
  | nil => simp at hrecord
  | cons t rest =>
    have hrecord : t.record.isSome = true := hrecord
    cases t with
    | freeInfo k => simp [Task.record] at hrecord
    | _ => simpa [breaks, ha, hrecord] using ho

/-- **ccxapi_asynchronous_stop** keeps the invariant. -/
theorem Inv.asyncStep (h : x.Inv has) (ho : ¬ x.breaks .async = true) : x.asyncStep.Inv has := by
  cases ha : x.async with
  | none => simpa only [State.asyncStep, ha] using h
  | some l =>
    obtain ⟨done, hl, hdone, htail, hrunning⟩ := h.progress.of_some ha
    obtain ⟨done', hl', hdone', -⟩ := hdone.performFirst (l := l)
    obtain ⟨hsend, hasync, htail', hthread⟩ := performFirst_frame l x
    have hmem : ∀ t ∈ l.head?, t ∈ asyncTasks has := fun t ht =>
      hl ▸ List.mem_append_right _ (List.mem_of_mem_head? ht)
    have hbase : (x.performFirst l).1.Base has := by
      refine h.base.performFirst (fun t ht hsig => ?_) fun t ht k hk => ?_
      · exact absurd (hsig ▸ hmem t ht) (signal_notMem has)
      · subst hk
        simpa [breaks, ha, Option.mem_def.1 ht] using ho
    have hstep : x.asyncStep = { (x.performFirst l).1 with async := some (x.performFirst l).2 } := by
      simp only [State.asyncStep, ha]
    rw [hstep]
    refine ⟨hbase.of_eq rfl rfl ?_ rfl rfl hbase.workers, ?_, fun hg => ?_⟩
    · rw [hasync, ha]
      rfl
    · refine ⟨done', hl'.trans hl, hdone'.mono rfl (status_mono id fun _ => id) fun _ hk => hk, htail'.trans htail, ?_⟩
      exact (performFirst_status fun t ht hsig => signal_notMem has (hsig ▸ hmem t ht)).trans hrunning
    · have hbusy : x.callerBusy = false ∧ x.stopperBusy = false := by
        rcases performFirst_gone hg with hg | hrecord
        · exact ⟨(h.alone hg).1, (h.alone hg).2 (by simp [ha])⟩
        · have hquiet := breaks_async ha hrecord ho
          exact ⟨hquiet.2, hquiet.1⟩
      exact ⟨(callerBusy_congr x _ hsend (congrFun hthread 1)).trans hbusy.1,
        fun _ => (stopperBusy_congr x _ (congrFun hthread 0) htail').trans hbusy.2⟩

theorem claim_start {arg : StartArg} (hcall : (x.sys.thread 1).call = .start arg) (k : Kind) :
    x.claim k = if arg.kind = k then maker x.startStage else .away := by
  simp only [claim, hcall]

/-- a start makes the records of its transport, and leaves the others' alone -/
theorem start_slots (h : ∀ k, Slot.Inv (x.slot k)) {s : System} {arg : StartArg}
    (hmove : StartMove x.sys arg.kind x.startStage s.link (s.thread 1).stage) (hcall : (x.sys.thread 1).call = .start arg)
    (hcall' : (s.thread 1).call = .start arg) (hstop : s.thread 0 = x.sys.thread 0)
    (hfree : x.startStage = .startFreeOld ∨ (∃ e, x.startStage = .startFree e) → x.mayFree arg.kind = true) (k : Kind) :
    Slot.Inv (State.slot { x with sys := s } k) := by
  have hclaim : State.claim { x with sys := s } k = if arg.kind = k then maker (s.thread 1).stage else .away :=
    claim_start (x := { x with sys := s }) hcall' k
  have hclearing : State.clearing { x with sys := s } k = x.clearing k := by
    simp only [clearing, stopStage, hstop]
    rfl
  have hslot := h k
  rw [slot, claim_start hcall] at hslot
  rw [slot, hclaim, hclearing]
  by_cases hk : arg.kind = k
  · subst hk
    rw [if_pos rfl] at hslot ⊢
    obtain ⟨ops, hops, halong⟩ := hmove.slot x.async.isNone (x.clearing arg.kind) (x.dealt arg.kind)
      fun hst => slot_free (hfree hst)
    rw [hops]
    exact run_inv (I := Slot.Inv) Slot.step_inv hslot halong
  · rw [if_neg hk] at hslot ⊢
    rw [show s.link k = x.sys.link k from hmove.other (Ne.symm hk)]
    exact hslot

/-- **The start** keeps the invariant. -/
theorem Inv.startApi (h : x.Inv has) (b : Build) (hhalt : x.sys.halted = false) (hsend : x.send = none)
    {a : Transport.Answer} {c : Send.Answer} (ho : ¬ x.breaks (.caller a c) = true) :
    Inv has { x with sys := x.sys.step b (.api 1 a) } := by
  rcases api_or_halt b hhalt 1 a with hstep | ⟨-, hstep⟩ <;> rw [hstep]
  swap
  · exact h.halt
  obtain ⟨arg, hcall, hof⟩ := h.base.calls.start hsend
  obtain ⟨hmove, hof'⟩ := start_move hcall hof b.aggressive a
  have hcall' := (api_call (i := 1) b.aggressive a x.sys).trans hcall
  have hstop : (x.sys.api b.aggressive 1 a).thread 0 = x.sys.thread 0 := api_other zero_ne_one b.aggressive a x.sys
  have hstatus := api_status b.aggressive 1 a x.sys
  have hstage : State.stopStage { x with sys := x.sys.api b.aggressive 1 a } = x.stopStage := by
    simp only [stopStage, hstop]
  refine
    { base :=
        { fsm := System.api_keeps_fsm _ h.base.fsm 1 a
          calls := { stop := ?stop, ofStop := ?ofStop, start := fun _ => ⟨arg, hcall', hof'⟩, send := fun hne => absurd hsend hne }
          slots := ?slots, behind := ?behind, ended := ?ended, workers := h.base.workers, sound := h.base.sound }
      progress := ?progress
      alone := fun hg => ⟨?callerDone, fun hasync => ?stopperDone⟩ }
  case stop => simpa only [hstop] using h.base.calls.stop
  case ofStop => simpa only [hstage] using h.base.calls.ofStop
  case slots =>
    intro k
    refine start_slots h.base.slots hmove hcall hcall' hstop (fun hst => ?_) k
    rcases hst with hst | ⟨e, hst⟩ <;> simpa [breaks, hsend, hcall, hst] using ho
  case behind => simpa only [hstage] using h.base.behind
  case ended =>
    intro accepted hend
    obtain ⟨haccepted, hended⟩ := h.base.ended accepted (hstage ▸ hend)
    exact ⟨haccepted, hstatus.trans hended⟩
  case progress =>
    exact h.progress.mono rfl rfl rfl (status_mono (fun ht => hstatus.trans ht) fun _ => id) (fun _ => hstatus)
      (fun _ hk => hk) fun hend => hstage.trans hend
  case callerDone =>
    have hg : x.gone = true := hg
    have hbegin : x.startStage ≠ .begin := by
      intro hb
      simp [breaks, hsend, hb, hg] at ho
    have hreturned := h.start_gone hg hsend hbegin
    have hsame : x.sys.api b.aggressive 1 a = x.sys := api_returned hreturned
    rw [hsame]
    exact (h.alone hg).1
  case stopperDone =>
    exact (stopperBusy_congr x { x with sys := x.sys.api b.aggressive 1 a } hstop rfl).trans ((h.alone hg).2 hasync)

/-- a send that sends no file is through with the library when it waits -/
theorem sendBusy_wake {t : Send.Transaction} (c : Send.Answer) (hstage : t.stage = .wait) (hfile : t.call.service ≠ .file) :
    sendBusy (t.wake c) = false := by
  unfold Send.Transaction.wake Send.Transaction.fail
  repeat' split
  all_goals simp [sendBusy, hstage, hfile]

/-- a send's own step, once it is through with the library -/
theorem sendBusy_api {t : Send.Transaction} (c : Send.Answer) (hbusy : sendBusy t = false) (hstage : t.stage ≠ .checkargs) :
    sendBusy (t.api c) = false := by
  unfold sendBusy at hbusy
  cases hs : t.stage <;> simp only [hs, decide_eq_false_iff_not, reduceCtorEq] at hbusy
  case checkargs => exact absurd hs hstage
  case wait =>
    rw [Send.Transaction.api, hs]
    exact sendBusy_wake c hs hbusy
  all_goals simp [sendBusy, Send.Transaction.api, hs, hbusy]

/-- the connector's callbacks leave the calling thread where it is -/
theorem sendBusy_callback {t : Send.Transaction} (c : Send.Callback) : sendBusy (t.callback c) = sendBusy t := by
  unfold Send.Transaction.callback
  split_ifs <;> rfl

theorem sendBusy_statusRelease {t : Send.Transaction} (r : CcimpStatus) : sendBusy (t.statusRelease r) = sendBusy t := by
  unfold Send.Transaction.statusRelease
  split_ifs <;> rfl

/-- a step of the send, or of a callback for it -/
theorem Inv.sendStep (h : x.Inv has) (b : Build) {t : Send.Transaction} {o : Send.Op} (hsend : x.send = some t)
    (hbusy : x.gone = true → sendBusy (t.step o) = false) : (x.sendStep b o).Inv has := by
  simp only [State.sendStep, hsend]
  split_ifs with hwaits hassert
  · exact h
  · exact h.halt
  · refine ⟨?_, h.progress.mono rfl rfl rfl (status_mono id fun _ => id) (fun _ => rfl) (fun _ hk => hk) id,
      fun hg => ⟨hbusy hg, (h.alone hg).2⟩⟩
    exact ⟨h.base.fsm, ⟨h.base.calls.stop, h.base.calls.ofStop, nofun, fun _ => h.base.calls.send (by simp [hsend])⟩,
      h.base.slots, h.base.behind, h.base.ended, h.base.workers, h.base.sound⟩

/-- the connector's events -/
theorem Inv.event (h : x.Inv has) (ha : x.async = none) (e : Event) : Inv has { x with sys := x.sys.event e } := by
  have hthread := event_thread x.sys e
  have hstage : State.stopStage { x with sys := x.sys.event e } = x.stopStage := by
    simp only [stopStage, hthread]
  have hbusy : State.callerBusy { x with sys := x.sys.event e } = x.callerBusy :=
    callerBusy_congr x _ rfl (congrFun hthread 1)
  refine
    { base :=
        { fsm := System.event_fsm h.base.fsm e
          calls := { stop := ?stop, ofStop := ?ofStop, start := fun hsend => ?start, send := fun hsend => ?send }
          slots := ?slots, behind := ?behind, ended := ?ended, workers := h.base.workers, sound := h.base.sound }
      progress := ?progress
      alone := fun hg => ⟨hbusy.trans (h.alone hg).1, fun hasync => ?stopperDone⟩ }
  case stop => simpa only [hthread] using h.base.calls.stop
  case ofStop => simpa only [hstage] using h.base.calls.ofStop
  case start => simpa only [startStage, hthread] using h.base.calls.start hsend
  case send => simpa only [startStage, hthread] using h.base.calls.send hsend
  case slots =>
    intro k
    have hnone : x.async.isNone = true := by simp [ha]
    obtain ⟨ops, hops, halong⟩ := event_slots h.base.fsm e k (x.claim k) (x.clearing k) (x.dealt k)
    have hslot := h.base.slots k
    rw [slot, hnone] at hslot
    rw [slot_view x { x with sys := x.sys.event e } k rfl hthread, hnone, hops]
    exact run_inv (I := Slot.Inv) Slot.step_inv hslot halong
  case behind => simpa only [hstage] using h.base.behind
  case ended =>
    intro accepted hend
    obtain ⟨haccepted, hended⟩ := h.base.ended accepted (hstage ▸ hend)
    exact ⟨haccepted, event_ended e hended⟩
  case progress =>
    exact h.progress.mono rfl rfl rfl (status_mono (event_ended e) fun _ => id) (fun hne => absurd ha hne)
      (fun _ hk => hk) fun hend => hstage.trans hend
  case stopperDone =>
    rw [show State.async { x with sys := x.sys.event e } = none from ha] at hasync
    cases hasync

/-- the connector aborts: its thread no longer runs it -/
theorem Inv.abort (h : x.Inv has) (ha : x.async = none) (hidle : x.sys.idle = true) :
    Inv has { x with async := some (asyncTasks has) } := by
  have hrunning := ((System.idle_iff x.sys).1 hidle).1
  have hstage : x.stopStage ≠ .teardown true := by
    intro hstage
    rw [(h.base.ended true hstage).2] at hrunning
    cases hrunning
  obtain ⟨htail, hnil⟩ := h.freed_nil ha hstage
  have hnot : x.gone = false := not_gone_of_nil hnil
  refine ⟨⟨h.base.fsm, ⟨h.base.calls.stop, h.base.calls.ofStop, h.base.calls.start, h.base.calls.send⟩, fun k => ?_,
    h.base.behind, h.base.ended, h.base.workers, h.base.sound⟩, ?_, fun hg => ?_⟩
  · have hback : State.slot { x with async := some (asyncTasks has) } k = Slot.step (x.slot k) .giveBack := by
      simp [slot, view, Slot.step]
      exact ⟨rfl, rfl⟩
    rw [hback]
    exact Slot.step_inv _ _ (h.base.slots k) trivial
  · exact ⟨[], rfl, ⟨hnil, by simp, by simp⟩, htail, hrunning⟩
  · rw [show State.gone { x with async := some (asyncTasks has) } = false from hnot] at hg
    cases hg

/-- a worker ends -/
theorem Inv.work (h : x.Inv has) (w : Worker) : Inv has { x with worker := Function.update x.worker w .notStarted } := by
  have hended (w' : Worker) (hw' : x.worker w' = .notStarted) :
      Function.update x.worker w .notStarted w' = .notStarted := by
    by_cases hw : w' = w
    · subst hw
      simp
    · simpa [Function.update_of_ne hw] using hw'
  refine ⟨h.base.of_eq rfl rfl rfl rfl rfl fun w' hw' => hended w' (h.base.workers w' hw'), ?_, h.alone⟩
  exact h.progress.mono rfl rfl rfl (status_mono id hended) (fun _ => rfl) (fun _ hk => hk) id

theorem move_inv (b : Build) (h : x.Inv has) (hhalt : x.sys.halted = false) {o : Op} (ho : ¬ x.breaks o = true) :
    (x.move has b o).Inv has := by
  cases o with
  | stopper a => exact h.stopper b hhalt ho
  | caller a c =>
    cases hsend : x.send with
    | none =>
      have hstep : x.move has b (.caller a c) = { x with sys := x.sys.step b (.api 1 a) } := by
        simp only [move, State.caller, hsend]
      rw [hstep]
      exact h.startApi b hhalt hsend ho
    | some t =>
      have hstep : x.move has b (.caller a c) = x.sendStep b (.api c) := by
        simp only [move, State.caller, hsend]
      rw [hstep]
      refine h.sendStep b hsend fun hg => sendBusy_api c ?_ fun hstage => ?_
      · simpa [callerBusy, hsend] using (h.alone hg).1
      · simp [breaks, hsend, hstage, hg] at ho
  | event e =>
    simp only [move]
    split_ifs with ha
    · have hstep : x.sys.step b (.event e) = x.sys.event e := by simp [System.step, hhalt]
      rw [hstep]
      exact h.event (Option.isNone_iff_eq_none.1 ha) e
    · exact h
  | callback c =>
    simp only [move]
    split_ifs
    · cases hsend : x.send with
      | none => simpa only [State.sendStep, hsend] using h
      | some t =>
        refine h.sendStep b hsend fun hg => (sendBusy_callback c).trans ?_
        simpa [callerBusy, hsend] using (h.alone hg).1
    · exact h
  | statusRelease r =>
    simp only [move]
    split_ifs
    · cases hsend : x.send with
      | none => simpa only [State.sendStep, hsend] using h
      | some t =>
        refine h.sendStep b hsend fun hg => (sendBusy_statusRelease r).trans ?_
        simpa [callerBusy, hsend] using (h.alone hg).1
    · exact h
  | abort =>
    simp only [move]
    split_ifs with ha
    · exact h.abort (Option.isNone_iff_eq_none.1 ha.1) ha.2
    · exact h
  | async => exact h.asyncStep ho
  | work w ends =>
    simp only [move]
    split_ifs
    · exact h.work w
    · exact h

/-- **Step.** -/
theorem step_inv (b : Build) (x : State) (o : Op) (h : x.Inv has) (ho : ¬ x.breaks o = true) : (x.step has b o).Inv has := by
  cases hhalt : x.sys.halted with
  | true => simpa only [step, hhalt, if_true] using h
  | false =>
    have hmove := move_inv b h hhalt ho
    have hclean : (x.touched o).any (· ∈ x.freed) = false := by
      simpa using h.touched ho
    have hstep : x.step has b o = x.move has b o := by
      simp only [step, hhalt, Bool.false_eq_true, if_false, hclean, h.base.sound, Bool.or_false]
      exact congrArg (fun f => { x.move has b o with faulted := f }) hmove.base.sound.symm
    rwa [hstep]

end Steps

theorem fresh_inv (other : Other) : (fresh has other).Inv has where
  base := by
    refine ⟨System.Fsm.of_open rfl nofun, ⟨rfl, trivial, fun hsend => ?_, fun _ => rfl⟩, fun k => ?_, nofun, nofun,
      fun w hw => ?_, rfl⟩
    · cases other with
      | start arg => exact ⟨arg, rfl, trivial⟩
      | send call => cases hsend
    · have haway : (fresh has other).claim k = .away := by
        cases other with
        | start arg =>
          have hcall : ((fresh has (.start arg)).sys.thread 1).call = .start arg := rfl
          exact (claim_start hcall k).trans (by split_ifs <;> rfl)
        | send call => rfl
      exact Slot.inv_empty rfl rfl rfl rfl haway
    · simp [fresh, hw]
  progress := ⟨[], rfl, ⟨rfl, by simp, by simp⟩, by simp⟩
  alone := nofun

/-! ## Main results -/

/-- nothing that has been freed has been looked into or freed again, and a teardown that is through has freed everything -/
structure TornDown (x : State) : Prop where
  nodup : x.freed.Nodup
  sound : x.faulted = false
  infos : ∀ k, (x.sys.link k).records.Sound ∧ (x.sys.link k).callFault = false ∧ (x.sys.link k).eventFault = false
  all : x.tail = [] ∨ x.async = some [] → .ccapiData ∈ x.freed ∧ .thread .connectorRun ∈ x.freed ∧
    (∀ w, has w = true → .thread (.worker w) ∈ x.freed) ∧
      ∀ k, ∀ r < (x.sys.link k).records.next, r ∈ (x.sys.link k).records.releases

variable {has} {x : State}

/-- a teardown that has done all its tasks -/
theorem Done.all {waits done : List Task} (h : x.Done done) (hprogram : Program has waits done) :
    .ccapiData ∈ x.freed ∧ .thread .connectorRun ∈ x.freed ∧ ∀ w, has w = true → .thread (.worker w) ∈ x.freed := by
  rw [h.freed, hprogram.records, freeResources_records]
  refine ⟨by simp, by simp, fun w hw => List.mem_append_left _ (List.mem_map_of_mem ?_)⟩
  exact (mem_started has (fun w => (mem_workers w).2) w).2 hw

/-- a teardown that is through has freed the library's records, and has dealt with every transport -/
theorem Inv.through (h : x.Inv has) (hend : x.tail = [] ∨ x.async = some []) :
    (.ccapiData ∈ x.freed ∧ .thread .connectorRun ∈ x.freed ∧ ∀ w, has w = true → .thread (.worker w) ∈ x.freed) ∧
      ∀ k, x.dealt k = true := by
  have hne : stopTasks has true ≠ [] := List.cons_ne_nil _ _
  cases ha : x.async with
  | none =>
    have htail : x.tail = [] := hend.resolve_right (by simp [ha])
    obtain ⟨done, hl, hdone, hstage⟩ := h.progress.of_none ha
    rw [htail, List.append_nil] at hl
    have hteardown := hstage (hl ▸ hne)
    have hprogram : Program has (stopWaits has) done := hl ▸ stop_program has
    refine ⟨hdone.all hprogram, fun k => h.base.behind k ?_⟩
    rw [hteardown]
    cases k <;> simp [behind]
  | some l =>
    obtain ⟨done, hl, hdone, htail, -⟩ := h.progress.of_some ha
    have hnil : l = [] := by
      rcases hend with hend | hend
      · exact absurd (htail.symm.trans hend) hne
      · simpa [ha] using hend
    rw [hnil, List.append_nil] at hl
    have hprogram : Program has (asyncWaits has) done := hl ▸ async_program has
    refine ⟨hdone.all hprogram, fun k => hdone.dealt k (hl ▸ ?_)⟩
    cases k <;> simp [asyncTasks]

theorem Inv.tornDown (h : x.Inv has) : x.TornDown has where
  nodup := h.progress.nodup
  sound := h.base.sound
  infos k := by
    have hslot := h.base.slots k
    have hfault : ((x.sys.link k).callFault || (x.sys.link k).eventFault) = false := hslot.sound
    exact ⟨hslot.records, Bool.or_eq_false_iff.1 hfault⟩
  all hend := by
    obtain ⟨⟨hdata, hrun, hworkers⟩, hdealt⟩ := h.through hend
    exact ⟨hdata, hrun, hworkers, fun k => (h.base.slots k).retired (hdealt k)⟩

end State

/-- **Teardown exactly once.** In a run in which no step breaks the discipline nothing that has been freed is looked into, by
whatever thread, or freed again, and a teardown that is through has freed everything. -/
theorem torn_down_once (b : Build) (other : Other) (ops : List Op)
    (h : Along (State.step has b) (fun x o => ¬ x.breaks o = true) (fresh has other) ops) :
    (run (State.step has b) (fresh has other) ops).TornDown has :=
  (run_inv (State.step_inv b) (State.fresh_inv has other) h).tornDown

/-- one worker after the other is asked to stop, and ends -/
def workersEnd (o : Op) : List Op :=
  [Worker.rci, .receive, .cli, .firmware].flatMap fun w => [o, .work w true, o]

/-- a start over UDP, all the way to an opened network, and then ccxapi_stop, which stops the transport, terminates the
connector and waits for its thread and for the workers -/
def started : List Op :=
  List.flatten [
    List.replicate 10 (.caller Transport.granted Send.granted),
    [.event (.opened .udp .ok), .caller Transport.granted Send.granted],
    List.replicate 8 (.stopper Transport.granted),
    [.event (.stopCompleted .udp)],
    List.replicate 9 (.stopper Transport.granted),
    [.event .terminated, .event .ended],
    List.replicate 3 (.stopper Transport.granted),
    workersEnd (.stopper Transport.granted),
    List.replicate 6 (.stopper Transport.granted)]

/-- a start over UDP that waits for a second -/
def udpStart : Other := .start (.udp (some { maxSessions := 0, startTimeout := 1 }))

theorem torn_down_started :
    (run (State.step (fun _ => true) ⟨false, false⟩) (fresh (fun _ => true) udpStart) started).tail = [] ∧
      (run (State.step (fun _ => true) ⟨false, false⟩) (fresh (fun _ => true) udpStart) started).TornDown fun _ => true :=
  ⟨by decide +kernel, torn_down_once (fun _ => true) ⟨false, false⟩ udpStart started (by decide +kernel)⟩

/-- a send of one byte -/
def oneByte : Other :=
  .send { service := .data, running := true, transportStarted := some true, cloudPath := some [1], contentType := none,
          data := some [0], localPath := none, hint := none, collection := false, withReply := false }

/-- a send up to its wait, ccxapi_stop up to its wait, and the whole of ccxapi_asynchronous_stop -/
def aborted : List Op :=
  List.flatten [
    List.replicate 6 (.caller Transport.granted Send.granted),
    List.replicate 10 (.stopper Transport.granted),
    [.abort],
    List.replicate 3 .async,
    workersEnd .async,
    List.replicate 6 .async]

/-- **An abort while ccxapi_stop waits** frees the thread record whose status ccxapi_stop reads until it has ended. -/
theorem aborted_while_stopping : ¬ ∀ (b : Build) (has : Worker → Bool) (other : Other) (ops : List Op),
    (run (State.step has b) (fresh has other) ops).TornDown has := by
  intro h
  have hdown := h ⟨false, false⟩ (fun _ => true) oneByte (aborted ++ [.stopper Transport.granted])
  exact absurd hdown.sound (by decide +kernel)

end CcApi.Teardown
