/-
Which buffers the chunks in use own (`ccapi_firmware_update_handler.c`).

A slot of the pool is in use from the moment the data callback queues it until the firmware thread clears `in_use`. All
that time its `data` has to be a buffer that is still allocated.

- `step_bufInv`: every step except a start over an update that has a slot in use keeps `BufInv`.
- `live_iff`: the chunks in use have live buffers throughout a run exactly when no in_use flag is set in the memory the
  service starts with and no start for a configured target arrives while an update is in progress and a slot is in use.
- `freed_in_use`: such a start, while the user's data callback runs, leaves the slot in use without a buffer:
  `free_and_stop_service` does not look at `in_use`, and the start callback, unlike complete and abort, calls it
  without having looked.
-/
import CcApi.Firmware.Pool

namespace CcApi.Firmware

open Lib Lib.Runs

variable {n : ℕ}

/-- every chunk in use has a buffer that has not been freed; a block is allocated once, so a buffer that is not freed is
not freed since it was filled -/
def BufLive (s : St n) : Prop :=
  ∀ i, (s.svc.chunkPool i).inUse = true → ∃ b, (s.svc.chunkPool i).data = some b ∧ b ∉ s.svc.heap.frees

/-- a start for a configured target comes only while no update is in progress, or while none of its chunks is in use -/
def StartRespectsPool (s : St n) : Op n → Prop
  | .start r _ _ => s.crashed = false → r.targetNumber < s.svc.targetCount → s.svc.updateStarted = true →
      ∀ i, (s.svc.chunkPool i).inUse = false
  | _ => True

instance (s : St n) (o : Op n) : Decidable (StartRespectsPool s o) := by
  cases o <;> unfold StartRespectsPool <;> infer_instance

/-! ## The invariant -/

/-- the pool owns live buffers while an update is in progress, and no slot is in use while none is -/
structure BufInv (s : Svc n) : Prop where
  live : s.updateStarted = true → ∀ i, ∃ b, (s.chunkPool i).data = some b ∧ b < s.heap.next ∧ b ∉ s.heap.frees
  unused : s.updateStarted = false → ∀ i, (s.chunkPool i).inUse = false
  ledger : ∀ b ∈ s.heap.frees, b < s.heap.next

theorem bufInv_live {s : St n} (h : BufInv s.svc) : BufLive s := by
  intro i hi
  cases hst : s.svc.updateStarted with
  | false => rw [h.unused hst i] at hi; contradiction
  | true =>
    obtain ⟨b, hb, -, hf⟩ := h.live hst i
    exact ⟨b, hb, hf⟩

/-- the invariant looks at the pool's flags and pointers, the ledger and `update_started` only -/
theorem BufInv.congr {s t : Svc n} (h : BufInv s) (hst : t.updateStarted = s.updateStarted)
    (hdata : ∀ i, (t.chunkPool i).data = (s.chunkPool i).data)
    (huse : t.updateStarted = false → ∀ i, (t.chunkPool i).inUse = true → (s.chunkPool i).inUse = true)
    (hnext : t.heap.next = s.heap.next) (hfrees : t.heap.frees = s.heap.frees) : BufInv t := by
  refine ⟨fun ht i => ?_, fun ht i => ?_, fun b hb => ?_⟩
  · rw [hdata, hnext, hfrees]; exact h.live (hst ▸ ht) i
  · by_contra hi
    have := huse ht i (by simpa using hi)
    rw [h.unused (hst ▸ ht) i] at this; contradiction
  · rw [hnext]; exact h.ledger b (hfrees ▸ hb)

theorem freeAndStopService_bufInv {s : Svc n} (h : BufInv s) (hst : s.updateStarted = true)
    (huse : ∀ i, (s.chunkPool i).inUse = false) : BufInv (freeAndStopService s) := by
  refine ⟨fun ht => ?_, fun _ i => ?_, fun b hb => ?_⟩
  · simp at ht
  · rw [freeAndStopService_inUse]; exact huse i
  · have hnext : (freeAndStopService s).heap.next = s.heap.next := freePool_next _ _ _
    rw [hnext]
    rcases freePool_frees hb with hb | ⟨i, hi⟩
    · exact h.ledger b hb
    · obtain ⟨b', hb', hlt, -⟩ := h.live hst i
      rw [hi, Option.some.injEq] at hb'
      rw [hb']; exact hlt

theorem SetUp.bufInv {r : StartReq} {ok : Fin (n + 1) → Bool} {s t : Svc n} (h : SetUp r ok s t) (hs : BufInv s) :
    BufInv t := by
  refine ⟨fun _ i => ?_, fun ht => ?_, fun b hb => ?_⟩
  · obtain ⟨b, hb, hge, hlt⟩ := h.slots i
    refine ⟨b, by rw [hb], hlt, fun hf => ?_⟩
    rw [h.frees] at hf
    exact absurd (hs.ledger b hf) (by omega)
  · rw [h.started] at ht; contradiction
  · obtain ⟨b', -, hge, hlt⟩ := h.slots 0
    have := hs.ledger b (h.frees ▸ hb)
    omega

theorem SetUpFailed.bufInv {s t : Svc n} (h : SetUpFailed s t) (hs : BufInv s) (hst : s.updateStarted = false) :
    BufInv t := by
  refine ⟨fun ht => ?_, fun _ i => ?_, fun b hb => ?_⟩
  · rw [h.idle] at ht; contradiction
  · by_contra hi
    have := h.inUse i (by simpa using hi)
    rw [hs.unused hst i] at this; contradiction
  · exact lt_of_lt_of_le (hs.ledger b (h.frees ▸ hb)) h.next

theorem queueHead_data (nh : ℕ) (last : Bool) (s : Svc n) (i : Fin (n + 1)) :
    ((queueHead nh last s).chunkPool i).data = (s.chunkPool i).data := by
  unfold queueHead
  by_cases h : i = s.chunkPoolHead
  · subst h; simp
  · simp [Function.update_of_ne h]

theorem Consumed.bufInv {s t : Svc n} {q : Bool} (h : Consumed s t q) (hs : BufInv s) : BufInv t := by
  obtain ⟨m, nh, last, p, -, rfl⟩ := h.result
  have hst := h.started
  cases q with
  | false =>
    refine hs.congr rfl (fun _ => rfl) (fun ht => ?_) rfl rfl
    exact absurd (hst.symm.trans ht) (by simp)
  | true =>
    refine hs.congr rfl (fun i => ?_) (fun ht => ?_) rfl rfl
    · simp only [if_true, queueHead_data]
    · exact absurd (hst.symm.trans ht) (by simp)

theorem stepThread_bufInv {s : St n} (h : BufInv s.svc) (o : Op n) : BufInv (stepThread s o).svc := by
  cases o with
  | wake => simp only [stepThread]; split <;> exact h
  | call => simp only [stepThread]; split <;> exact h
  | ret e =>
    simp only [stepThread]
    split
    · exact h.congr rfl (fun _ => rfl) (fun _ _ hi => hi) rfl rfl
    · exact h
  | clearInUse =>
    simp only [stepThread]
    split
    · rename_i i _
      refine h.congr rfl (fun j => ?_) (fun _ j hj => ?_) rfl rfl
      · by_cases hij : j = i
        · subst hij; simp
        · simp [Function.update_of_ne hij]
      · by_cases hij : j = i
        · subst hij; simp at hj
        · simpa [Function.update_of_ne hij] using hj
    · exact h
  | advanceTail =>
    simp only [stepThread]
    split
    · exact h.congr rfl (fun _ => rfl) (fun _ _ hi => hi) rfl rfl
    · exact h
  | _ => exact h

theorem step_bufInv (s : St n) (o : Op n) (h : BufInv s.svc) (hC : StartRespectsPool s o) :
    BufInv (step s o).svc := by
  unfold step
  by_cases hcr : s.crashed = true
  · rw [if_pos hcr]; exact h
  · rw [if_neg hcr]
    have hcr' : s.crashed = false := by simpa using hcr
    cases o with
    | start r request ok =>
      rcases start_cases r request ok s.svc with ht | ⟨hr, hst, ht⟩ | ⟨hst, ht⟩ | ⟨-, -, -, ht⟩
      · simp only [stepStart, ht]; exact h
      · simp only [stepStart, ht]
        exact freeAndStopService_bufInv h hst (hC hcr' hr hst)
      · exact ht.bufInv h hst
      · exact ht.bufInv h
    | data d =>
      simp only [stepData]
      rcases data_cases d s.svc with hd | ⟨a, hd⟩ | ⟨t, a, q, hd, hc⟩
      · rw [hd]; exact h
      · rw [hd]; exact h
      · rw [hd]
        cases q <;> exact hc.bufInv h
    | complete target =>
      rcases complete_cases target s.svc with ht | ⟨hst, hu, ht⟩
      · simp only [ht]; exact h
      · simp only [ht]; exact freeAndStopService_bufInv h hst hu
    | abort target status =>
      rcases abort_cases target status s.svc with ht | ⟨hst, hu, ht⟩
      · simp only [ht]; exact h
      · simp only [ht]; exact freeAndStopService_bufInv h hst hu
    | wake => exact stepThread_bufInv h _
    | call => exact stepThread_bufInv h _
    | ret e => exact stepThread_bufInv h _
    | clearInUse => exact stepThread_bufInv h _
    | advanceTail => exact stepThread_bufInv h _

/-- the start that does not look at the pool takes the buffers of the slots in use -/
theorem live_respects (s : St n) (o : Op n) (h : BufLive (step s o)) : StartRespectsPool s o := by
  cases o with
  | start r request ok =>
    intro hcr hr hst i
    by_contra hi
    have hstep : (step s (.start r request ok)).svc = freeAndStopService s.svc := by
      simp [step, stepStart, processFirmwareUpdateRequest, hcr, hr, hst]
    obtain ⟨b, hb, -⟩ := h i (by rw [hstep, freeAndStopService_inUse]; simpa using hi)
    rw [hstep, freeAndStopService_data] at hb
    contradiction
  | _ => trivial

/-! ## Main results -/

theorem init_bufInv {s : St n} (h : Init s) (hu : ∀ i, (s.svc.chunkPool i).inUse = false) : BufInv s.svc :=
  ⟨fun hst => by rw [h.idle] at hst; contradiction, fun _ => hu, h.ledger⟩

/-- **The chunks in use keep their buffers** throughout a run exactly when the pool starts without a stray flag and every
start respects the pool. -/
theorem live_iff {s : St n} (h : Init s) (ops : List (Op n)) :
    (∀ k, BufLive (run step s (ops.take k))) ↔
      (∀ i, (s.svc.chunkPool i).inUse = false) ∧ Along step StartRespectsPool s ops := by
  have hrun (hu : ∀ i, (s.svc.chunkPool i).inUse = false) :=
    along_iff (I := fun s => BufInv s.svc) (P := BufLive) (C := StartRespectsPool) (fun _ => bufInv_live) step_bufInv
      (fun s o _ => live_respects s o) (init_bufInv h hu) ops
  constructor
  · intro hl
    have hu : ∀ i, (s.svc.chunkPool i).inUse = false := by
      intro i
      by_contra hi
      obtain ⟨b, hb, -⟩ := hl 0 i (by simpa using hi)
      rw [List.take_zero, run_nil, h.noData] at hb
      contradiction
    exact ⟨hu, (hrun hu).1 hl⟩
  · rintro ⟨hu, hC⟩
    exact (hrun hu).2 hC

/-- a download of 4 bytes is accepted -/
def startFour : Op 1 := .start ⟨0, 4⟩ .none fun _ => true

/-- a download of one chunk of 4 bytes that the user's data callback is working on -/
def slowUser : List (Op 1) :=
  [startFour, .data ⟨0, 0, fun i => UInt8.ofNat i, 4⟩, .wake, .call]

/-- the user and the connector are done with it -/
def finished : List (Op 1) := slowUser ++ [.ret .none, .clearInUse, .advanceTail, .complete 0]

/-- one download after the other respects the pool -/
theorem live_two_downloads :
    Along step StartRespectsPool (St.fresh 1 1 fun _ => ⟨0, 4⟩) (finished ++ slowUser) ∧
    ∀ k, BufLive (run step (St.fresh 1 1 fun _ => ⟨0, 4⟩) ((finished ++ slowUser).take k)) :=
  ⟨by decide, (live_iff (init_fresh 1 1 fun _ => ⟨0, 4⟩) (finished ++ slowUser)).2 ⟨by decide, by decide⟩⟩

/-- **A start that lands while the user has a chunk** frees the chunk's buffer: the slot stays in use with `data` NULL. -/
theorem freed_in_use : ¬ ∀ (n : ℕ) (s : St n) (ops : List (Op n)), Init s →
    (∀ i, (s.svc.chunkPool i).inUse = false) → BufLive (run step s ops) := by
  intro h
  obtain ⟨b, hb, -⟩ := h 1 (St.fresh 1 1 fun _ => ⟨0, 4⟩) (slowUser ++ [startFour])
    (init_fresh 1 1 _) (fun _ => rfl) 0 (by decide)
  have hnull : ((run step (St.fresh 1 1 fun _ => ⟨0, 4⟩)
    (slowUser ++ [startFour])).svc.chunkPool 0).data = none := by decide
  rw [hnull] at hb
  contradiction

end CcApi.Firmware
