/-
The tasks of a teardown, and what they leave (`ccxapi_stop`, `ccxapi_asynchronous_stop`, `ccapi_stop_thread` and
`free_ccapi_data_internal_resources` of `ccapi_init.c`).

- `Program`: both teardowns wait for all the workers first and free the records last, the library's at the very end.
- `Program.nodup`, `Program.waited`, `Program.looks`: on the way nothing is freed twice, nothing before the waits are done, and
  no task looks into what has been freed before it.
- `refused_records`: a `ccxapi_stop` whose terminate action was not answered success frees none of them.
- `State.Done.performFirst`: the tasks done are a prefix of the list, and what has been freed is what they free.
-/
import CcApi.Teardown.Model

namespace CcApi.Teardown

open Lib Lib.Runs
open Transport (System Kind Stage Link Event StartArg Build Action)

variable (has : Worker → Bool)

/-! ## The lists -/

/-- the tasks of a teardown in front of those that free -/
def stopWaits : List Task := stopThread .connectorRun ++ stopWorkers has

def asyncWaits : List Task := [.freeInfo .tcp, .freeInfo .udp, .freeInfo .sms] ++ stopWorkers has

/-- of a list of all the workers, those that have been started -/
theorem mem_started {l : List Worker} (hl : ∀ w, w ∈ l) (w : Worker) : w ∈ l.filter has ↔ has w = true := by
  simp only [List.mem_filter, hl w, true_and]

/-- both lists of workers are of all of them -/
theorem mem_workers (w : Worker) :
    w ∈ [Worker.rci, .receive, .cli, .firmware] ∧ w ∈ [Worker.cli, .receive, .rci, .firmware] := by
  cases w <;> simp

theorem mem_stopWorkers {t : Task} :
    t ∈ stopWorkers has ↔ ∃ w, has w = true ∧ (t = .signal (.worker w) ∨ t = .await (.worker w)) := by
  simp only [stopWorkers, List.mem_flatMap, mem_started has fun w => (mem_workers w).1, stopThread, List.mem_cons,
    List.not_mem_nil, or_false]

theorem mem_freeResources {t : Task} : t ∈ freeResources has ↔
    (∃ w, has w = true ∧ t = .freeThread (.worker w)) ∨ t = .freeThread .connectorRun ∨ t = .freeData := by
  simp only [freeResources, List.mem_append, List.mem_map, mem_started has fun w => (mem_workers w).2, List.mem_cons,
    List.not_mem_nil, or_false]
  exact or_congr_left (exists_congr fun w => and_congr_right fun _ => eq_comm)

theorem freeInfo_notMem (k : Kind) : .freeInfo k ∉ stopTasks has true := by
  simp [stopTasks, stopThread, mem_stopWorkers, mem_freeResources]

theorem signal_notMem : .signal .connectorRun ∉ asyncTasks has := by
  simp [asyncTasks, mem_stopWorkers, mem_freeResources]

/-- a teardown: first come tasks that free no record but those of transports, then those that do -/
structure Program (waits l : List Task) : Prop where
  split : l = waits ++ freeResources has
  silent : ∀ t ∈ waits, t.record = none
  awaits : ∀ w, has w = true → Task.await (.worker w) ∈ waits

theorem stop_program : Program has (stopWaits has) (stopTasks has true) := by
  refine ⟨rfl, fun t ht => ?_, fun w hw => ?_⟩
  · rcases List.mem_append.1 ht with ht | ht
    · simp only [stopThread, List.mem_cons, List.not_mem_nil, or_false] at ht
      rcases ht with rfl | rfl <;> rfl
    · obtain ⟨w, -, rfl | rfl⟩ := (mem_stopWorkers has).1 ht <;> rfl
  · exact List.mem_append_right _ ((mem_stopWorkers has).2 ⟨w, hw, .inr rfl⟩)

/-- a ccxapi_stop whose terminate action was not answered success frees no record -/
theorem refused_records : (stopTasks has false).filterMap Task.record = [] := by
  refine List.filterMap_eq_nil_iff.2 fun t ht => (stop_program has).silent t ?_
  simpa [stopTasks, stopWaits] using ht

theorem async_program : Program has (asyncWaits has) (asyncTasks has) := by
  refine ⟨rfl, fun t ht => ?_, fun w hw => ?_⟩
  · rcases List.mem_append.1 ht with ht | ht
    · simp only [List.mem_cons, List.not_mem_nil, or_false] at ht
      rcases ht with rfl | rfl | rfl <;> rfl
    · obtain ⟨w, -, rfl | rfl⟩ := (mem_stopWorkers has).1 ht <;> rfl
  · exact List.mem_append_right _ ((mem_stopWorkers has).2 ⟨w, hw, .inr rfl⟩)

/-- the records that a teardown frees, in order -/
theorem freeResources_records : (freeResources has).filterMap Task.record =
    (([.cli, .receive, .rci, .firmware].filter has).map fun w => Record.thread (.worker w)) ++
      [.thread .connectorRun, .ccapiData] := by
  simp [freeResources, List.filterMap_append, List.filterMap_map, Function.comp_def, Task.record]

theorem freeResources_nodup : ((freeResources has).filterMap Task.record).Nodup := by
  have hworkers : ([Worker.cli, .receive, .rci, .firmware].filter has).Nodup := List.Nodup.filter _ (by decide)
  rw [freeResources_records, List.nodup_append]
  refine ⟨hworkers.map fun w w' h => ?_, by decide, fun r hr r' hr' => ?_⟩
  · simpa using h
  · obtain ⟨w, -, rfl⟩ := List.mem_map.1 hr
    rintro rfl
    simp at hr'

section Program

variable {has} {waits l done rest : List Task}

theorem Program.records (h : Program has waits l) :
    l.filterMap Task.record = (freeResources has).filterMap Task.record := by
  rw [h.split, List.filterMap_append, List.filterMap_eq_nil_iff.2 h.silent, List.nil_append]

/-- what has been freed on the way has been freed once -/
theorem Program.nodup (h : Program has waits l) (hl : done ++ rest = l) : (done.filterMap Task.record).Nodup := by
  have hall := freeResources_nodup has
  rw [← h.records, ← hl, List.filterMap_append] at hall
  exact hall.of_append_left

/-- a teardown that has freed a record has all its waits behind it -/
theorem Program.waited (h : Program has waits l) (hl : done ++ rest = l) (hfreed : done.filterMap Task.record ≠ []) :
    ∀ t ∈ waits, t ∈ done := by
  rw [h.split] at hl
  rcases List.append_eq_append_iff.1 hl with ⟨mid, rfl, -⟩ | ⟨mid, rfl, -⟩
  · exact absurd (List.filterMap_eq_nil_iff.2 fun t ht => h.silent t (List.mem_append_left _ ht)) hfreed
  · exact fun t ht => List.mem_append_left _ ht

/-- no task looks into what has been freed before it -/
theorem Program.looks (h : Program has waits l) {t : Task} (hl : done ++ t :: rest = l) :
    ∀ r ∈ t.looks, r ∉ done.filterMap Task.record := by
  intro r hr hmem
  cases hrecord : t.record with
  | none =>
    -- a task that frees nothing has only such tasks before it
    have hl' := hl
    rw [h.split] at hl'
    rcases List.append_eq_append_iff.1 hl' with ⟨mid, rfl, -⟩ | ⟨mid, -, hmid⟩
    · rw [List.filterMap_eq_nil_iff.2 fun t ht => h.silent t (List.mem_append_left _ ht)] at hmem
      simp at hmem
    · have ht : t ∈ freeResources has := hmid ▸ List.mem_append_right _ List.mem_cons_self
      rcases (mem_freeResources has).1 ht with ⟨w, -, rfl⟩ | rfl | rfl <;> simp [Task.record] at hrecord
  | some freed =>
    have hall := h.records
    rw [← hl, List.filterMap_append, List.filterMap_cons_some hrecord, freeResources_records] at hall
    cases t with
    | freeThread w =>
      obtain rfl : r = .ccapiData := by simpa [Task.looks] using hr
      obtain rfl : Record.thread w = freed := by simpa [Task.record] using hrecord
      have hlast : Record.ccapiData ∈ Record.thread w :: rest.filterMap Task.record := by
        have hend := congrArg List.getLast? hall
        rw [List.getLast?_append_of_ne_nil _ (List.cons_ne_nil _ _),
          List.getLast?_append_of_ne_nil _ (List.cons_ne_nil _ _)] at hend
        exact List.mem_of_getLast? hend
      have hnodup := freeResources_nodup has
      rw [freeResources_records, ← hall, List.nodup_append] at hnodup
      exact hnodup.2.2 _ hmem _ hlast rfl
    | freeData => simp [Task.looks] at hr
    | freeInfo k => simp [Task.record] at hrecord
    | signal w => simp [Task.record] at hrecord
    | await w => simp [Task.record] at hrecord

end Program

/-! ## What they leave -/

namespace State

/-- what the tasks done have left -/
structure Done (x : State) (done : List Task) : Prop where
  freed : x.freed = done.filterMap Task.record
  ended : ∀ t, .await t ∈ done → x.status t = .notStarted
  dealt : ∀ k, .freeInfo k ∈ done → x.dealt k = true

section Tasks

variable {x y : State}

/-- ccapi_stop_thread asks a thread that runs, and changes no thread that has ended -/
theorem signal_status {t t' : ThreadName} (h : x.status t' = .notStarted) : (x.signal t).status t' = .notStarted := by
  unfold signal
  split_ifs with hrun
  · cases t with
    | connectorRun =>
      cases t' with
      | connectorRun =>
        rw [h] at hrun
        cases hrun
      | worker w => exact h
    | worker w =>
      cases t' with
      | connectorRun => exact h
      | worker w' =>
        by_cases hw : w' = w
        · subst hw
          rw [h] at hrun
          cases hrun
        · simpa [status, Function.update_of_ne hw] using h
  · exact h

/-- what the connector-run thread and the workers keep -/
theorem status_mono (hrun : x.sys.status = .notStarted → y.sys.status = .notStarted)
    (hwork : ∀ w, x.worker w = .notStarted → y.worker w = .notStarted) :
    ∀ t, x.status t = .notStarted → y.status t = .notStarted
  | .connectorRun => hrun
  | .worker w => hwork w

/-- what has been done stays done -/
theorem Done.mono {done : List Task} (h : x.Done done) (hfreed : y.freed = x.freed)
    (hstatus : ∀ t, x.status t = .notStarted → y.status t = .notStarted)
    (hdealt : ∀ k, x.dealt k = true → y.dealt k = true) : y.Done done where
  freed := hfreed.trans h.freed
  ended t ht := hstatus t (h.ended t ht)
  dealt k hk := hdealt k (h.dealt k hk)

theorem perform_status (t : Task) {t' : ThreadName} (h : x.status t' = .notStarted) :
    (x.perform t).1.status t' = .notStarted := by
  cases t with
  | signal t => exact signal_status h
  | freeInfo k => cases t' <;> exact h
  | await t => exact h
  | freeThread t => cases t' <;> exact h
  | freeData => cases t' <;> exact h

theorem signal_frame (t : ThreadName) (x : State) : (x.signal t).freed = x.freed ∧ (x.signal t).dealt = x.dealt ∧
    (x.signal t).send = x.send ∧ (x.signal t).async = x.async ∧ (x.signal t).tail = x.tail ∧
    (x.signal t).faulted = x.faulted ∧ (x.signal t).sys.thread = x.sys.thread ∧ (x.signal t).sys.link = x.sys.link := by
  unfold signal
  split_ifs <;> cases t <;> simp

/-- what a task leaves alone -/
theorem perform_frame (t : Task) (x : State) : (x.perform t).1.send = x.send ∧ (x.perform t).1.async = x.async ∧
    (x.perform t).1.tail = x.tail ∧ (x.perform t).1.faulted = x.faulted ∧ (x.perform t).1.sys.thread = x.sys.thread := by
  cases t with
  | signal t =>
    obtain ⟨-, -, hsend, hasync, htail, hfaulted, hthread, -⟩ := signal_frame t x
    exact ⟨hsend, hasync, htail, hfaulted, hthread⟩
  | _ => exact ⟨rfl, rfl, rfl, rfl, rfl⟩

theorem perform_dealt (t : Task) (x : State) {k : Kind} (h : x.dealt k = true) : (x.perform t).1.dealt k = true := by
  cases t with
  | freeInfo k' =>
    by_cases hk : k = k'
    · subst hk
      simp [perform]
    · simpa [perform, Function.update_of_ne hk] using h
  | signal t => exact (congrFun (signal_frame t x).2.1 k).trans h
  | _ => exact h

theorem perform_freed (t : Task) (x : State) : (x.perform t).1.freed = x.freed ++ t.record.toList := by
  cases t with
  | signal t => simpa [Task.record, perform] using (signal_frame t x).1
  | _ => simp [perform, Task.record]

/-- a task that is done is one of those done -/
theorem Done.perform {done : List Task} (h : x.Done done) {t : Task} (hok : (x.perform t).2 = true) :
    (x.perform t).1.Done (done ++ [t]) where
  freed := by
    rw [perform_freed, h.freed, List.filterMap_append]
    cases ht : t.record <;> simp [ht]
  ended t' ht' := by
    rcases List.mem_append.1 ht' with ht' | ht'
    · exact perform_status t (h.ended t' ht')
    · obtain rfl : Task.await t' = t := by simpa using ht'
      simpa [State.perform] using hok
  dealt k hk := by
    rcases List.mem_append.1 hk with hk | hk
    · exact perform_dealt t x (h.dealt k hk)
    · obtain rfl : Task.freeInfo k = t := by simpa using hk
      simp [State.perform]

/-- a task that is not done has changed nothing -/
theorem perform_waits {t : Task} (hok : (x.perform t).2 = false) : (x.perform t).1 = x := by
  cases t <;> first | rfl | simp [perform] at hok

/-- the first of the tasks -/
theorem Done.performFirst {done l : List Task} (h : x.Done done) : ∃ done', done' ++ (x.performFirst l).2 = done ++ l ∧
    (x.performFirst l).1.Done done' ∧ (done ≠ [] → done' ≠ []) := by
  cases l with
  | nil => exact ⟨done, rfl, h, id⟩
  | cons t rest =>
    simp only [State.performFirst]
    cases hok : (x.perform t).2 with
    | true => exact ⟨done ++ [t], by simp, h.perform hok, by simp⟩
    | false =>
      rw [perform_waits hok]
      exact ⟨done, by simp, h, id⟩

/-- the first of the tasks frees a record, or leaves what has been freed -/
theorem performFirst_gone {l : List Task} (hg : (x.performFirst l).1.gone = true) :
    x.gone = true ∨ (l.head?.bind Task.record).isSome = true := by
  cases l with
  | nil => exact .inl hg
  | cons t rest =>
    cases ht : t.record with
    | some r => exact .inr (by simp [ht])
    | none =>
      have hfreed : (x.perform t).1.freed = x.freed := by rw [perform_freed, ht, Option.toList_none, List.append_nil]
      refine .inl ?_
      simpa only [performFirst, gone, hfreed] using hg

theorem performFirst_frame (l : List Task) (x : State) : (x.performFirst l).1.send = x.send ∧
    (x.performFirst l).1.async = x.async ∧ (x.performFirst l).1.tail = x.tail ∧
    (x.performFirst l).1.sys.thread = x.sys.thread := by
  cases l with
  | nil => exact ⟨rfl, rfl, rfl, rfl⟩
  | cons t rest =>
    obtain ⟨hsend, hasync, htail, -, hthread⟩ := perform_frame t x
    exact ⟨hsend, hasync, htail, hthread⟩

/-- the task asks no connector to stop -/
theorem performFirst_status {l : List Task} (h : ∀ t ∈ l.head?, t ≠ .signal .connectorRun) :
    (x.performFirst l).1.sys.status = x.sys.status := by
  cases l with
  | nil => rfl
  | cons t rest =>
    cases t with
    | signal t =>
      cases t with
      | connectorRun => exact absurd rfl (h _ rfl)
      | worker w =>
        simp only [performFirst, State.perform, signal]
        split_ifs <;> rfl
    | _ => rfl

end Tasks

end State

end CcApi.Teardown
