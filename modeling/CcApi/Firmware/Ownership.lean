/-
Who owns the chunk buffers (`ccapi_firmware_update_handler.c`).

The start callback fills the pool in a loop, and sets `update_started` behind it. complete, abort and a start over an update
in progress give the buffers back and put NULL in their place.

- `Owned`: no update in progress and every slot's `data` is NULL, or one is and every slot has a buffer of its own; and every
  buffer ever allocated is with a slot or has been released once.
- `owned_iff`: this holds throughout a run exactly when no set-up is granted its first buffer and refused a later one.
- `half_filled`: such a set-up leaves the buffers it got in the slots, though no update is in progress. The next start
  overwrites the pointers.
-/
import CcApi.Firmware.Streaming

namespace CcApi.Firmware

open Lib Lib.Runs

variable {n : ℕ}

/-- every slot has its own buffer or none does, as `update_started` says, and the buffers from block first on are with a slot
or have been released once -/
structure Owned (first : ℕ) (s : Svc n) : Prop where
  first_le : first ≤ s.heap.next
  known : ∀ b ∈ s.heap.frees, b < s.heap.next
  idle : s.updateStarted = false → ∀ i, (s.chunkPool i).data = none
  buffers : s.updateStarted = true → ∀ i, ∃ b, (s.chunkPool i).data = some b ∧
    s.heap.size b = (s.target s.current).chunkSize
  own : s.updateStarted = true → ∀ i j, (s.chunkPool i).data = (s.chunkPool j).data → i = j
  slots : ∀ i b, (s.chunkPool i).data = some b → first ≤ b ∧ b < s.heap.next ∧ s.heap.frees.count b = 0
  released : ∀ b, first ≤ b → b < s.heap.next →
    s.heap.frees.count b = 1 ∨ s.heap.frees.count b = 0 ∧ ∃ i, (s.chunkPool i).data = some b

/-- a start that comes to set the pool up is refused its first buffer or granted all of them -/
def AllOrNone (s : St n) : Op n → Prop
  | .start r request ok => s.crashed = false → r.targetNumber < s.svc.targetCount → s.svc.updateStarted = false →
      refusal r request s.svc = none → ok 0 = false ∨ ∀ i, ok i = true
  | _ => True

instance (s : St n) : ∀ o, Decidable (AllOrNone s o)
  | .start .. => inferInstanceAs (Decidable (_ → _ → _ → _ → _ ∨ _))
  | .data _ | .complete _ | .abort .. | .wake | .call | .ret _ | .clearInUse | .advanceTail => inferInstanceAs (Decidable True)

/-! ## The loops -/

/-- what the release loop releases: the buffers of the slots, in order -/
theorem freePool_releases {l : List (Fin (n + 1))} (hl : l.Nodup) (pool : Fin (n + 1) → ChunkInfo) (heap : Heap) :
    (freePool l pool heap).2.frees = heap.frees ++ l.filterMap fun i => (pool i).data := by
  induction l generalizing pool heap with
  | nil => simp [freePool]
  | cons j l ih =>
    obtain ⟨hj, hl⟩ := List.nodup_cons.1 hl
    simp only [freePool]
    split
    · rename_i b hb
      have hrest : (l.filterMap fun i => (Function.update pool j { pool j with data := none } i).data) =
          l.filterMap fun i => (pool i).data := by
        refine List.filterMap_congr fun i hi => ?_
        have hne : i ≠ j := by
          rintro rfl
          exact hj hi
        rw [Function.update_of_ne hne]
      rw [ih hl, hrest]
      simp [Heap.free, hb]
    · rename_i hb
      rw [ih hl]
      simp [hb]

/-- a complete set-up gives slot k of the list block k behind the heap's next, and touches no other block -/
theorem allocPool_blocks {size : ℕ} {ok : Fin (n + 1) → Bool} {l : List (Fin (n + 1))} {pool : Fin (n + 1) → ChunkInfo}
    {heap : Heap} (hl : l.Nodup) (h : (allocPool size ok l pool heap).2.2 = true) :
    (allocPool size ok l pool heap).2.1.next = heap.next + l.length ∧
    (∀ k (hk : k < l.length), ((allocPool size ok l pool heap).1 l[k]).data = some (heap.next + k)) ∧
    (∀ k < l.length, (allocPool size ok l pool heap).2.1.size (heap.next + k) = size) ∧
    ∀ b < heap.next, (allocPool size ok l pool heap).2.1.size b = heap.size b := by
  induction l generalizing pool heap with
  | nil => simp [allocPool]
  | cons j l ih =>
    obtain ⟨hj, hl⟩ := List.nodup_cons.1 hl
    simp only [allocPool, Heap.malloc] at h ⊢
    cases hok : ok j with
    | false => simp [hok] at h
    | true =>
      simp only [hok, if_true] at h ⊢
      set heap' : Heap := { heap with next := heap.next + 1, size := Function.update heap.size heap.next size }
      set pool' := Function.update pool j
        { inUse := false, offset := 0, data := some heap.next, size := 0, last := false : ChunkInfo }
      obtain ⟨hnext, hdata, hsize, hold⟩ := @ih pool' heap' hl h
      have hstep : heap'.next = heap.next + 1 := rfl
      refine ⟨?_, fun k hk => ?_, fun k hk => ?_, fun b hb => ?_⟩
      · rw [hnext, hstep, List.length_cons]
        omega
      · cases k with
        | zero =>
          rw [List.getElem_cons_zero, allocPool_of_not_mem hj]
          simp [pool']
        | succ k =>
          have := hdata k (by simpa using hk)
          rw [List.getElem_cons_succ, this, hstep]
          exact congrArg some (by omega)
      · cases k with
        | zero =>
          have := hold heap.next (Nat.lt_succ_self _)
          simpa [heap'] using this
        | succ k =>
          have := hsize k (by simpa using hk)
          rwa [hstep, Nat.add_right_comm] at this
      · rw [hold b (by omega)]
        exact Function.update_of_ne (by omega) _ _

theorem allocPool_all {size : ℕ} {ok : Fin (n + 1) → Bool} (l : List (Fin (n + 1))) (h : ∀ i, ok i = true)
    (pool : Fin (n + 1) → ChunkInfo) (heap : Heap) : (allocPool size ok l pool heap).2.2 = true := by
  induction l generalizing pool heap with
  | nil => rfl
  | cons j l ih =>
    simp only [allocPool, Heap.malloc, h, if_true]
    exact ih _ _

/-- a set-up refused its first buffer changes that slot's flags only -/
theorem allocPool_refused {size : ℕ} {ok : Fin (n + 1) → Bool} (h : ok 0 = false) (pool : Fin (n + 1) → ChunkInfo)
    (heap : Heap) : allocPool size ok (List.finRange (n + 1)) pool heap =
      (Function.update pool 0 { pool 0 with inUse := false, offset := 0, data := none }, heap, false) := by
  simp [List.finRange_succ, allocPool, Heap.malloc, h]

/-- a set-up that is granted its first buffer leaves it in the first slot -/
theorem allocPool_kept {size : ℕ} {ok : Fin (n + 1) → Bool} (h : ok 0 = true) (pool : Fin (n + 1) → ChunkInfo)
    (heap : Heap) : ((allocPool size ok (List.finRange (n + 1)) pool heap).1 0).data = some heap.next := by
  have hnot : (0 : Fin (n + 1)) ∉ (List.finRange n).map Fin.succ := by
    rw [List.mem_map]
    rintro ⟨i, -, hi⟩
    exact Fin.succ_ne_zero i hi
  simp only [List.finRange_succ, allocPool, Heap.malloc, h, if_true]
  rw [allocPool_of_not_mem hnot]
  simp

/-! ## The callbacks -/

/-- `Owned` looks at the pool's pointers, the heap's ledger and sizes, `update_started` and the current target -/
theorem Owned.congr {first : ℕ} {s t : Svc n} (h : Owned first s) (hst : t.updateStarted = s.updateStarted)
    (hdata : ∀ i, (t.chunkPool i).data = (s.chunkPool i).data) (hnext : t.heap.next = s.heap.next)
    (hfrees : t.heap.frees = s.heap.frees) (hsize : t.heap.size = s.heap.size)
    (htarget : t.updateStarted = true → (t.target t.current).chunkSize = (s.target s.current).chunkSize) :
    Owned first t := by
  constructor
  case first_le =>
    rw [hnext]
    exact h.first_le
  case known =>
    intro b hb
    rw [hnext]
    exact h.known b (hfrees ▸ hb)
  case idle =>
    intro ht i
    rw [hdata]
    exact h.idle (hst ▸ ht) i
  case buffers =>
    intro ht i
    rw [hdata, hsize, htarget ht]
    exact h.buffers (hst ▸ ht) i
  case own =>
    intro ht i j
    rw [hdata, hdata]
    exact h.own (hst ▸ ht) i j
  case slots =>
    intro i b hb
    rw [hnext, hfrees]
    exact h.slots i b (hdata i ▸ hb)
  case released =>
    intro b hb hlt
    simp only [hfrees, hdata]
    exact h.released b hb (hnext ▸ hlt)

/-- each buffer of a pool in progress stands in it once -/
theorem Owned.count_buffers {first : ℕ} {s : Svc n} (h : Owned first s) (hst : s.updateStarted = true) {i : Fin (n + 1)}
    {b : ℕ} (hb : (s.chunkPool i).data = some b) :
    ((List.finRange (n + 1)).filterMap fun i => (s.chunkPool i).data).count b = 1 := by
  refine List.count_eq_one_of_mem ?_ (List.mem_filterMap.2 ⟨i, List.mem_finRange i, hb⟩)
  refine (List.nodup_finRange (n + 1)).filterMap fun j k c hj hk => ?_
  exact h.own hst j k (Eq.trans hj hk.symm)

/-- **The release.** Every buffer is given back once, and the slots are NULL. -/
theorem Owned.release {first : ℕ} {s : Svc n} (h : Owned first s) (hst : s.updateStarted = true) :
    Owned first (freeAndStopService s) := by
  have hfrees : (freeAndStopService s).heap.frees = s.heap.frees ++
      (List.finRange (n + 1)).filterMap fun i => (s.chunkPool i).data :=
    freePool_releases (List.nodup_finRange (n + 1)) _ _
  have hnext : (freeAndStopService s).heap.next = s.heap.next := freePool_next _ _ _
  constructor
  case first_le =>
    rw [hnext]
    exact h.first_le
  case known =>
    intro b hb
    rw [hnext]
    rw [hfrees, List.mem_append, List.mem_filterMap] at hb
    rcases hb with hb | ⟨i, -, hi⟩
    · exact h.known b hb
    · exact (h.slots i b hi).2.1
  case idle => exact fun _ => freeAndStopService_data s
  case buffers =>
    intro ht
    simp at ht
  case own =>
    intro ht
    simp at ht
  case slots =>
    intro i b hb
    rw [freeAndStopService_data] at hb
    cases hb
  case released =>
    intro b hb hlt
    rw [hnext] at hlt
    rw [hfrees, List.count_append]
    by_cases hslot : ∃ i, (s.chunkPool i).data = some b
    · obtain ⟨i, hi⟩ := hslot
      rw [h.count_buffers hst hi, (h.slots i b hi).2.2]
      exact Or.inl rfl
    · have hnone : ((List.finRange (n + 1)).filterMap fun i => (s.chunkPool i).data).count b = 0 := by
        rw [List.count_eq_zero, List.mem_filterMap]
        rintro ⟨i, -, hi⟩
        exact hslot ⟨i, hi⟩
      rcases h.released b hb hlt with hone | ⟨-, hi⟩
      · rw [hnone, hone]
        exact Or.inl rfl
      · exact absurd hi hslot

/-- **The set-up**: the slots get the next blocks of the heap, one each. -/
theorem Owned.setUp {first : ℕ} {s : Svc n} (h : Owned first s) (hst : s.updateStarted = false) (r : StartReq)
    {ok : Fin (n + 1) → Bool} (hok : ∀ i, ok i = true) : Owned first (setUpDownload r ok s).1 := by
  unfold setUpDownload
  simp only
  set size := ((s.target r.targetNumber).withChunkSize).chunkSize with hsz
  have hd := @allocPool_all n size ok (List.finRange (n + 1)) hok s.chunkPool s.heap
  obtain ⟨hnext, hdata, hsize, -⟩ := allocPool_blocks (List.nodup_finRange (n + 1)) hd
  have hfrees := allocPool_frees size ok (List.finRange (n + 1)) s.chunkPool s.heap
  rw [List.length_finRange] at hnext
  simp only [List.length_finRange, List.getElem_finRange] at hdata hsize
  rw [if_pos hd]
  have hslot : ∀ i : Fin (n + 1), ((allocPool size ok (List.finRange (n + 1)) s.chunkPool s.heap).1 i).data =
      some (s.heap.next + i) := fun i => hdata i i.isLt
  have hold : ∀ b ∈ s.heap.frees, b < s.heap.next := h.known
  constructor
  case first_le => exact h.first_le.trans (by simp [hnext])
  case known =>
    intro b hb
    simp only [hfrees] at hb
    simp only [hnext]
    exact (hold b hb).trans_le (Nat.le_add_right _ _)
  case idle =>
    intro ht
    simp at ht
  case buffers =>
    intro _ i
    refine ⟨s.heap.next + i, hslot i, ?_⟩
    simp only [Function.update_self]
    exact hsize i i.isLt
  case own =>
    intro _ i j hij
    simp only [hslot, Option.some.injEq, Nat.add_left_cancel_iff] at hij
    exact Fin.ext hij
  case slots =>
    intro i b hb
    simp only [hslot, Option.some.injEq] at hb
    subst hb
    have := i.isLt
    refine ⟨h.first_le.trans (Nat.le_add_right _ _), by simp only [hnext]; omega, ?_⟩
    rw [hfrees, List.count_eq_zero]
    intro hm
    have := hold _ hm
    omega
  case released =>
    intro b hb hlt
    simp only [hnext] at hlt
    simp only [hfrees]
    rcases Nat.lt_or_ge b s.heap.next with hlo | hhi
    · rcases h.released b hb hlo with hone | ⟨-, i, hi⟩
      · exact Or.inl hone
      · rw [h.idle hst i] at hi
        cases hi
    · refine Or.inr ⟨?_, ⟨b - s.heap.next, by omega⟩, ?_⟩
      · rw [List.count_eq_zero]
        intro hm
        have := hold _ hm
        omega
      · simp only [hslot, Option.some.injEq]
        omega

/-- a set-up refused its first buffer leaves the pool empty -/
theorem Owned.refused {first : ℕ} {s : Svc n} (h : Owned first s) (hst : s.updateStarted = false) (r : StartReq)
    {ok : Fin (n + 1) → Bool} (hok : ok 0 = false) : Owned first (setUpDownload r ok s).1 := by
  unfold setUpDownload
  simp only [allocPool_refused hok, Bool.false_eq_true, if_false]
  refine h.congr rfl (fun i => ?_) rfl rfl rfl fun ht => ?_
  · by_cases hi : i = 0
    · subst hi
      simpa using (h.idle hst 0).symm
    · simp [Function.update_of_ne hi]
  · exact absurd (hst.symm.trans ht) (by simp)

/-- a start that meets the condition -/
theorem Owned.start {first : ℕ} {s : Svc n} (h : Owned first s) {r : StartReq} {request : RequestError}
    {ok : Fin (n + 1) → Bool} (hC : r.targetNumber < s.targetCount → s.updateStarted = false →
      refusal r request s = none → ok 0 = false ∨ ∀ i, ok i = true) :
    Owned first (processFirmwareUpdateRequest r request ok s).1 := by
  unfold processFirmwareUpdateRequest
  by_cases hr : r.targetNumber < s.targetCount
  · rw [if_pos hr]
    cases hst : s.updateStarted with
    | true => exact h.release hst
    | false =>
      simp only [Bool.false_eq_true, if_false]
      cases href : refusal r request s with
      | some status => exact h
      | none =>
        rcases hC hr hst href with hok | hok
        · exact h.refused hst r hok
        · exact h.setUp hst r hok
  · rw [if_neg hr]
    exact h

theorem Owned.consumed {first : ℕ} {s t : Svc n} {q : Bool} (h : Owned first s) (hc : Consumed s t q) :
    Owned first t := by
  obtain ⟨m, nh, last, p, -, rfl⟩ := hc.result
  cases q with
  | false => exact h.congr rfl (fun _ => rfl) rfl rfl rfl fun _ => rfl
  | true => exact h.congr rfl (fun i => by simp only [if_true, queueHead_data]) rfl rfl rfl fun _ => rfl

/-- **One step.** -/
theorem step_owned {first : ℕ} (s : St n) (o : Op n) (h : Owned first s.svc) (hC : AllOrNone s o) :
    Owned first (step s o).svc := by
  unfold step
  by_cases hcr : s.crashed = true
  · rw [if_pos hcr]
    exact h
  · rw [if_neg hcr]
    have hthread : ∀ o, Owned first (stepThread s o).svc := fun o => by
      obtain ⟨pool, tail, e, l, pc, calls, ht, hdata, -⟩ := stepThread_frame s o
      rw [ht]
      exact h.congr rfl hdata rfl rfl rfl fun _ => rfl
    cases o with
    | start r request ok => exact h.start (hC (by simpa using hcr))
    | data d =>
      simp only [stepData]
      rcases data_cases d s.svc with hd | ⟨a, hd⟩ | ⟨t, a, q, hd, hc⟩
      · rw [hd]
        exact h
      · rw [hd]
        exact h
      · rw [hd]
        cases q <;> exact h.consumed hc
    | complete target =>
      rcases complete_cases target s.svc with ht | ⟨hst, -, ht⟩
      · simp only [ht]
        exact h
      · simp only [ht]
        exact h.release hst
    | abort target status =>
      rcases abort_cases target status s.svc with ht | ⟨hst, -, ht⟩
      · simp only [ht]
        exact h
      · simp only [ht]
        exact h.release hst
    | wake => exact hthread _
    | call => exact hthread _
    | ret e => exact hthread _
    | clearInUse => exact hthread _
    | advanceTail => exact hthread _

/-- a set-up that stops half-way leaves a buffer in the first slot -/
theorem owned_allOrNone {first : ℕ} (s : St n) (o : Op n) (h : Owned first (step s o).svc) : AllOrNone s o := by
  cases o with
  | start r request ok =>
    intro hcr hr hst href
    by_contra hsplit
    push Not at hsplit
    obtain ⟨hfirst, i, hi⟩ := hsplit
    have hstep : (step s (.start r request ok)).svc = (setUpDownload r ok s.svc).1 := by
      simp [step, stepStart, processFirmwareUpdateRequest, hcr, hr, hst, href]
    have hfailed : (allocPool ((s.svc.target r.targetNumber).withChunkSize).chunkSize ok (List.finRange (n + 1))
        s.svc.chunkPool s.svc.heap).2.2 = false := by
      by_contra hd
      exact hi (allocPool_granted (by simpa using hd) i (List.mem_finRange i))
    have hidle : (step s (.start r request ok)).svc.updateStarted = false := by
      rw [hstep]
      simp [setUpDownload, hfailed, hst]
    have hnone := h.idle hidle 0
    rw [hstep] at hnone
    simp only [setUpDownload, hfailed, Bool.false_eq_true, if_false, allocPool_kept (by simpa using hfirst)] at hnone
    cases hnone
  | _ => trivial

/-! ## Main results -/

theorem init_owned {s : St n} (h : Init s) : Owned s.svc.heap.next s.svc := by
  constructor
  case first_le => exact le_rfl
  case known => exact h.ledger
  case idle => exact fun _ => h.noData
  case buffers =>
    intro hst
    rw [h.idle] at hst
    cases hst
  case own =>
    intro hst
    rw [h.idle] at hst
    cases hst
  case slots =>
    intro i b hb
    rw [h.noData] at hb
    cases hb
  case released =>
    intro b hb hlt
    omega

/-- **The pool owns its buffers throughout a run** exactly when every start that comes to set the pool up is refused its
first buffer or granted all of them. -/
theorem owned_iff {s : St n} (h : Init s) (ops : List (Op n)) :
    (∀ k, Owned s.svc.heap.next (run step s (ops.take k)).svc) ↔ Along step AllOrNone s ops :=
  along_iff (I := fun t => Owned s.svc.heap.next t.svc) (P := fun t => Owned s.svc.heap.next t.svc) (fun _ ht => ht)
    step_owned (fun s o _ => owned_allOrNone s o) (init_owned h) ops

/-- two downloads, the first of them broken off by the second start, the third set up -/
theorem owned_restarted :
    Along step AllOrNone (St.fresh 1 1 fun _ => ⟨0, 4⟩) [startFour, startFour, startFour] ∧
    ∀ k, Owned 0 (run step (St.fresh 1 1 fun _ => ⟨0, 4⟩) ([startFour, startFour, startFour].take k)).svc :=
  ⟨by decide, (owned_iff (init_fresh 1 1 fun _ => ⟨0, 4⟩) [startFour, startFour, startFour]).2 (by decide)⟩

/-- **A set-up that gets its first buffer and not its second**: no update is in progress and a slot has a buffer, which the
next start drops without releasing it. -/
theorem half_filled : ¬ ∀ (n : ℕ) (s : St n) (ops : List (Op n)), Init s →
    Owned s.svc.heap.next (run step s ops).svc := by
  intro h
  have hidle := (h 1 (St.fresh 1 1 fun _ => ⟨0, 4⟩) [.start ⟨0, 4⟩ .none fun i => i = 0] (init_fresh 1 1 _)).idle
    (by decide) 0
  exact absurd hidle (by decide)

end CcApi.Firmware
