/-
What the firmware callbacks can do to the chunk pool, said once.

- `freePool_*`, `allocPool_*`: the two loops over the pool.
- `start_cases`: a start changes nothing, releases the pool, fails half-way through the allocations, or sets the pool up.
- `complete_cases`, `abort_cases`: nothing, or the pool is released while no slot is in use.
- `data_cases`: a data callback changes nothing, divides by zero, or (with the head slot free) copies and possibly queues.
-/
import CcApi.Firmware.Model

namespace CcApi.Firmware

open Lib

variable {n : ℕ}

/-! ## The pool loops -/

@[simp] theorem update_data_none (pool : Fin (n + 1) → ChunkInfo) (i j : Fin (n + 1)) :
    (Function.update pool i { pool i with data := none } j).inUse = (pool j).inUse := by
  by_cases h : j = i
  · subst h; simp
  · simp [Function.update_of_ne h]

theorem freePool_inUse (l : List (Fin (n + 1))) (pool : Fin (n + 1) → ChunkInfo) (heap : Heap) (i : Fin (n + 1)) :
    ((freePool l pool heap).1 i).inUse = (pool i).inUse := by
  induction l generalizing pool heap with
  | nil => rfl
  | cons j l ih =>
    simp only [freePool]
    split
    · rw [ih, update_data_none]
    · exact ih pool heap

theorem freePool_data_none {l : List (Fin (n + 1))} {pool : Fin (n + 1) → ChunkInfo} {heap : Heap} {i : Fin (n + 1)}
    (h : (pool i).data = none) : ((freePool l pool heap).1 i).data = none := by
  induction l generalizing pool heap with
  | nil => exact h
  | cons j l ih =>
    simp only [freePool]
    split
    · apply ih
      by_cases hj : i = j
      · subst hj; simp
      · rw [Function.update_of_ne hj]; exact h
    · exact ih h

/-- the loop leaves no buffer in the slots it visits -/
theorem freePool_data {l : List (Fin (n + 1))} {pool : Fin (n + 1) → ChunkInfo} {heap : Heap} {i : Fin (n + 1)}
    (hi : i ∈ l) : ((freePool l pool heap).1 i).data = none := by
  induction l generalizing pool heap with
  | nil => simp at hi
  | cons j l ih =>
    simp only [freePool]
    rcases List.mem_cons.1 hi with rfl | hi
    · split
      · exact freePool_data_none (by simp)
      · rename_i hd; exact freePool_data_none hd
    · split <;> exact ih hi

theorem freePool_next (l : List (Fin (n + 1))) (pool : Fin (n + 1) → ChunkInfo) (heap : Heap) :
    (freePool l pool heap).2.next = heap.next := by
  induction l generalizing pool heap with
  | nil => rfl
  | cons j l ih =>
    simp only [freePool]
    split
    · rw [ih]; rfl
    · exact ih pool heap

/-- what the loop releases was in some slot -/
theorem freePool_frees {l : List (Fin (n + 1))} {pool : Fin (n + 1) → ChunkInfo} {heap : Heap} {b : ℕ}
    (hb : b ∈ (freePool l pool heap).2.frees) : b ∈ heap.frees ∨ ∃ i, (pool i).data = some b := by
  induction l generalizing pool heap with
  | nil => exact Or.inl hb
  | cons j l ih =>
    simp only [freePool] at hb
    split at hb
    · rename_i c hc
      rcases ih hb with h | ⟨i, h⟩
      · rcases List.mem_append.1 h with h | h
        · exact Or.inl h
        · rw [List.mem_singleton.1 h]; exact Or.inr ⟨j, hc⟩
      · by_cases hij : i = j
        · subst hij; simp at h
        · rw [Function.update_of_ne hij] at h; exact Or.inr ⟨i, h⟩
    · exact ih hb

@[simp] theorem freeAndStopService_started (s : Svc n) : (freeAndStopService s).updateStarted = false := rfl

theorem freeAndStopService_inUse (s : Svc n) (i : Fin (n + 1)) :
    ((freeAndStopService s).chunkPool i).inUse = (s.chunkPool i).inUse := freePool_inUse _ _ _ i

theorem freeAndStopService_data (s : Svc n) (i : Fin (n + 1)) : ((freeAndStopService s).chunkPool i).data = none :=
  freePool_data (List.mem_finRange i)

/-! ## Allocation -/

theorem allocPool_frees (size : ℕ) (ok : Fin (n + 1) → Bool) (l : List (Fin (n + 1))) (pool : Fin (n + 1) → ChunkInfo)
    (heap : Heap) : (allocPool size ok l pool heap).2.1.frees = heap.frees := by
  induction l generalizing pool heap with
  | nil => rfl
  | cons j l ih =>
    simp only [allocPool, Heap.malloc]
    by_cases hok : ok j
    · simp only [hok, if_true]; rw [ih]
    · simp [hok]

theorem allocPool_next (size : ℕ) (ok : Fin (n + 1) → Bool) (l : List (Fin (n + 1))) (pool : Fin (n + 1) → ChunkInfo)
    (heap : Heap) : heap.next ≤ (allocPool size ok l pool heap).2.1.next := by
  induction l generalizing pool heap with
  | nil => exact le_rfl
  | cons j l ih =>
    simp only [allocPool, Heap.malloc]
    by_cases hok : ok j
    · simp only [hok, if_true]
      refine le_trans (Nat.le_succ heap.next) ?_
      exact ih _ { heap with next := heap.next + 1, size := Function.update heap.size heap.next size }
    · simp [hok]

/-- the set-up loop only clears flags -/
theorem allocPool_inUse {size : ℕ} {ok : Fin (n + 1) → Bool} {l : List (Fin (n + 1))}
    {pool : Fin (n + 1) → ChunkInfo} {heap : Heap} {i : Fin (n + 1)}
    (h : ((allocPool size ok l pool heap).1 i).inUse = true) : (pool i).inUse = true := by
  induction l generalizing pool heap with
  | nil => exact h
  | cons j l ih =>
    simp only [allocPool, Heap.malloc] at h
    by_cases hij : i = j
    · subst hij
      by_cases hok : ok i
      · simp only [hok, if_true] at h; simpa using ih h
      · simp [hok] at h
    · by_cases hok : ok j
      · simp only [hok, if_true] at h; simpa [Function.update_of_ne hij] using ih h
      · simpa [hok, Function.update_of_ne hij] using h

/-- slots the loop does not visit are untouched -/
theorem allocPool_of_not_mem {size : ℕ} {ok : Fin (n + 1) → Bool} {l : List (Fin (n + 1))}
    {pool : Fin (n + 1) → ChunkInfo} {heap : Heap} {i : Fin (n + 1)} (hi : i ∉ l) :
    (allocPool size ok l pool heap).1 i = pool i := by
  induction l generalizing pool heap with
  | nil => rfl
  | cons j l ih =>
    simp only [List.mem_cons, not_or] at hi
    simp only [allocPool, Heap.malloc]
    by_cases hok : ok j
    · simp only [hok, if_true]; rw [ih hi.2, Function.update_of_ne hi.1]
    · simp [hok, Function.update_of_ne hi.1]

/-- after a complete set-up every visited slot is empty and owns a block of its own allocated by the loop -/
theorem allocPool_ok {size : ℕ} {ok : Fin (n + 1) → Bool} {l : List (Fin (n + 1))} {pool : Fin (n + 1) → ChunkInfo}
    {heap : Heap} (hl : l.Nodup) (h : (allocPool size ok l pool heap).2.2 = true) :
    (∀ i ∈ l, ∃ b, (allocPool size ok l pool heap).1 i = ⟨false, 0, some b, 0, false⟩ ∧ heap.next ≤ b ∧
      b < (allocPool size ok l pool heap).2.1.next) ∧
    ∀ i ∈ l, ∀ j ∈ l, ((allocPool size ok l pool heap).1 i).data = ((allocPool size ok l pool heap).1 j).data →
      i = j := by
  induction l generalizing pool heap with
  | nil => simp
  | cons j l ih =>
    obtain ⟨hj, hl⟩ := List.nodup_cons.1 hl
    simp only [allocPool, Heap.malloc] at h ⊢
    by_cases hok : ok j
    · simp only [hok, if_true] at h ⊢
      set heap' : Heap := { heap with next := heap.next + 1, size := Function.update heap.size heap.next size }
      set pool' := Function.update pool j
        { inUse := false, offset := 0, data := some heap.next, size := 0, last := false : ChunkInfo }
      obtain ⟨hslot, hinj⟩ := @ih pool' heap' hl h
      have hjs : (allocPool size ok l pool' heap').1 j = ⟨false, 0, some heap.next, 0, false⟩ := by
        rw [allocPool_of_not_mem hj]; simp [pool']
      have hnext : heap.next < (allocPool size ok l pool' heap').2.1.next :=
        lt_of_lt_of_le (Nat.lt_succ_self _) (allocPool_next size ok l pool' heap')
      have hne : ∀ i ∈ l, ((allocPool size ok l pool' heap').1 i).data ≠ some heap.next := by
        intro i hi e
        obtain ⟨b, hb, hlb, -⟩ := hslot i hi
        rw [hb, Option.some.injEq] at e
        have : heap.next + 1 ≤ b := hlb
        omega
      refine ⟨fun i hi => ?_, fun i hi k hk e => ?_⟩
      · rcases List.mem_cons.1 hi with rfl | hi
        · exact ⟨heap.next, hjs, le_rfl, hnext⟩
        · obtain ⟨b, hb, h1, h2⟩ := hslot i hi
          exact ⟨b, hb, le_trans (Nat.le_succ _) h1, h2⟩
      · rcases List.mem_cons.1 hi with hij | hi <;> rcases List.mem_cons.1 hk with hkj | hk
        · rw [hij, hkj]
        · rw [hij, hjs] at e; exact absurd e.symm (hne k hk)
        · rw [hkj, hjs] at e; exact absurd e (hne i hi)
        · exact hinj i hi k hk e
    · simp [hok] at h

theorem allocPool_granted {size : ℕ} {ok : Fin (n + 1) → Bool} {l : List (Fin (n + 1))}
    {pool : Fin (n + 1) → ChunkInfo} {heap : Heap} (h : (allocPool size ok l pool heap).2.2 = true) :
    ∀ i ∈ l, ok i = true := by
  induction l generalizing pool heap with
  | nil => simp
  | cons j l ih =>
    simp only [allocPool, Heap.malloc] at h
    by_cases hok : ok j
    · simp only [hok, if_true] at h
      exact List.forall_mem_cons.2 ⟨hok, ih h⟩
    · simp [hok] at h

/-! ## What a callback can do -/

/-- the record of a download that was set up over s -/
structure SetUp (r : StartReq) (ok : Fin (n + 1) → Bool) (s t : Svc n) : Prop where
  started : t.updateStarted = true
  target : t.target = Function.update s.target r.targetNumber (s.target r.targetNumber).withChunkSize
  current : t.current = r.targetNumber
  totalSize : t.totalSize = u32 r.codeSize
  offsets : t.headOffset = 0 ∧ t.tailOffset = 0 ∧ t.ccfsmBytesProcessed = 0
  indices : t.chunkPoolHead = 0 ∧ t.chunkPoolTail = 0
  dataError : t.dataError = .none
  slots : ∀ i, ∃ b, t.chunkPool i = ⟨false, 0, some b, 0, false⟩ ∧ s.heap.next ≤ b ∧ b < t.heap.next
  inj : ∀ i j, (t.chunkPool i).data = (t.chunkPool j).data → i = j
  frees : t.heap.frees = s.heap.frees
  granted : ∀ i, ok i = true

/-- the record after a set-up that ran out of memory -/
structure SetUpFailed (s t : Svc n) : Prop where
  idle : t.updateStarted = false
  inUse : ∀ i, (t.chunkPool i).inUse = true → (s.chunkPool i).inUse = true
  frees : t.heap.frees = s.heap.frees
  next : s.heap.next ≤ t.heap.next

theorem setUpDownload_ok {r : StartReq} {ok : Fin (n + 1) → Bool} {s : Svc n}
    (h : (setUpDownload r ok s).2 = ⟨.cont, some .success⟩) : SetUp r ok s (setUpDownload r ok s).1 := by
  unfold setUpDownload at h ⊢
  simp only at h ⊢
  set size := ((s.target r.targetNumber).withChunkSize).chunkSize
  cases hd : (allocPool size ok (List.finRange (n + 1)) s.chunkPool s.heap).2.2 with
  | false => simp [hd] at h
  | true =>
    obtain ⟨hslots, hinj⟩ := allocPool_ok (List.nodup_finRange (n + 1)) hd
    simp only [if_true]
    exact ⟨rfl, rfl, rfl, rfl, ⟨rfl, rfl, rfl⟩, ⟨rfl, rfl⟩, rfl, fun i => hslots i (List.mem_finRange i),
      fun i j e => hinj i (List.mem_finRange i) j (List.mem_finRange j) e, allocPool_frees _ _ _ _ _,
      fun i => allocPool_granted hd i (List.mem_finRange i)⟩

theorem setUpDownload_failed {r : StartReq} {ok : Fin (n + 1) → Bool} {s : Svc n} (hs : s.updateStarted = false)
    (h : (setUpDownload r ok s).2 ≠ ⟨.cont, some .success⟩) : SetUpFailed s (setUpDownload r ok s).1 := by
  unfold setUpDownload at h ⊢
  simp only at h ⊢
  set size := ((s.target r.targetNumber).withChunkSize).chunkSize
  cases hd : (allocPool size ok (List.finRange (n + 1)) s.chunkPool s.heap).2.2 with
  | true => simp [hd] at h
  | false =>
    simp only [Bool.false_eq_true, if_false]
    exact ⟨hs, fun i hi => allocPool_inUse hi, allocPool_frees _ _ _ _ _, allocPool_next _ _ _ _ _⟩

/-- **What a start can do.** -/
theorem start_cases (r : StartReq) (request : RequestError) (ok : Fin (n + 1) → Bool) (s : Svc n) :
    let t := (processFirmwareUpdateRequest r request ok s).1
    t = s ∨
    (r.targetNumber < s.targetCount ∧ s.updateStarted = true ∧ t = freeAndStopService s) ∨
    (s.updateStarted = false ∧ SetUpFailed s t) ∨
    (s.updateStarted = false ∧ r.targetNumber < s.targetCount ∧ refusal r request s = none ∧ SetUp r ok s t) := by
  intro t
  simp only [t, processFirmwareUpdateRequest]
  by_cases hr : r.targetNumber < s.targetCount
  · simp only [hr, if_true]
    cases hst : s.updateStarted with
    | true => exact Or.inr (Or.inl ⟨trivial, rfl, rfl⟩)
    | false =>
      simp only [Bool.false_eq_true, if_false]
      cases href : refusal r request s with
      | some status => exact Or.inl rfl
      | none =>
        by_cases hok : (setUpDownload r ok s).2 = ⟨.cont, some .success⟩
        · exact Or.inr (Or.inr (Or.inr ⟨trivial, trivial, rfl, setUpDownload_ok hok⟩))
        · exact Or.inr (Or.inr (Or.inl ⟨trivial, setUpDownload_failed hst hok⟩))
  · simp [hr]

theorem poolInUse_false {s : Svc n} (h : ¬ poolInUse s = true) (i : Fin (n + 1)) : (s.chunkPool i).inUse = false := by
  simp only [poolInUse, List.any_eq_true, List.mem_finRange, true_and, not_exists, Bool.not_eq_true] at h
  exact h i

/-- **What a complete can do**: nothing, or release a pool with no slot in use -/
theorem complete_cases (target : ℕ) (s : Svc n) :
    (processFirmwareUpdateComplete target s).1 = s ∨
    (s.updateStarted = true ∧ (∀ i, (s.chunkPool i).inUse = false) ∧
      (processFirmwareUpdateComplete target s).1 = freeAndStopService s) := by
  unfold processFirmwareUpdateComplete
  by_cases ht : target ≠ s.current
  · simp [ht]
  · rw [if_neg ht]
    by_cases hst : s.updateStarted = true
    · rw [if_neg (not_not.2 hst)]
      by_cases hp : poolInUse s = true
      · simp [hp]
      · rw [if_neg hp]
        exact Or.inr ⟨hst, poolInUse_false hp, rfl⟩
    · simp [hst]

/-- **What an abort can do**: the same -/
theorem abort_cases (target : ℕ) (status : FirmwareStatus) (s : Svc n) :
    (processFirmwareUpdateAbort target status s).1 = s ∨
    (s.updateStarted = true ∧ (∀ i, (s.chunkPool i).inUse = false) ∧
      (processFirmwareUpdateAbort target status s).1 = freeAndStopService s) := by
  unfold processFirmwareUpdateAbort
  by_cases ht : target ≠ s.current
  · simp [ht]
  · rw [if_neg ht]
    by_cases hst : s.updateStarted = true
    · rw [if_neg (not_not.2 hst)]
      by_cases hp : poolInUse s = true
      · simp [hp]
      · rw [if_neg hp]
        by_cases hc : s.hasCancelCb = true ∧ ¬ status.hasCancelReason = true
        · rw [if_pos hc]; exact Or.inl rfl
        · rw [if_neg hc]; exact Or.inr ⟨hst, poolInUse_false hp, rfl⟩
    · simp [hst]

/-- a copy into the head slot changes the contents of its buffer and nothing else -/
theorem copyToHead_eq (d : DataReq) (off len : ℕ) (s : Svc n) :
    ∃ m, copyToHead d off len s = { s with heap := { s.heap with mem := m } } ∧
      ∀ b, (s.chunkPool s.chunkPoolHead).data ≠ some b → m b = s.heap.mem b := by
  unfold copyToHead
  split
  · rename_i b hb
    refine ⟨_, rfl, fun b' hb' => Function.update_of_ne ?_ _ _⟩
    rintro rfl
    exact hb' hb
  · exact ⟨s.heap.mem, rfl, fun _ _ => rfl⟩

/-- what an accepted data callback leaves: m is the memory with bytes copied into the head slot's buffer; q says whether
the head slot is then queued -/
structure Consumed (s t : Svc n) (q : Bool) : Prop where
  started : s.updateStarted = true
  free : (s.chunkPool s.chunkPoolHead).inUse = false
  result : ∃ m nh last p, (∀ b, (s.chunkPool s.chunkPoolHead).data ≠ some b → m b = s.heap.mem b) ∧
    t = { (if q then queueHead nh last { s with heap := { s.heap with mem := m } }
        else { s with heap := { s.heap with mem := m } }) with ccfsmBytesProcessed := p, tailOffset := nh }

theorem consumeData_consumed (c : ℕ) (d : DataReq) {s : Svc n} (hst : s.updateStarted = true)
    (hfree : (s.chunkPool s.chunkPoolHead).inUse = false) :
    Consumed s (consumeData c d s).1 (consumeData c d s).2.2 := by
  refine ⟨hst, hfree, ?_⟩
  unfold consumeData
  simp only
  by_cases ht : s.tailOffset ≥ s.headOffset
  · rw [if_pos ht]
    obtain ⟨m, hm, hother⟩ := copyToHead_eq d (s.tailOffset % c)
      (if sizeSub d.bytesUsed s.ccfsmBytesProcessed > c - s.tailOffset % c then c - s.tailOffset % c
        else sizeSub d.bytesUsed s.ccfsmBytesProcessed) s
    rw [hm]
    -- the slot's last flag is only stored when the slot is queued
    split_ifs <;> first
      | exact ⟨m, _, _, _, hother, rfl⟩
      | exact ⟨m, _, false, _, hother, rfl⟩
  · rw [if_neg ht]
    exact ⟨s.heap.mem, _, false, s.ccfsmBytesProcessed, fun _ _ => rfl, rfl⟩

/-- **What a data callback can do.** -/
theorem data_cases (d : DataReq) (s : Svc n) :
    processFirmwareUpdateData d s = none ∨ (∃ a, processFirmwareUpdateData d s = some (s, a, false)) ∨
    ∃ t a q, processFirmwareUpdateData d s = some (t, a, q) ∧ Consumed s t q := by
  unfold processFirmwareUpdateData
  by_cases hst : s.updateStarted = true
  · by_cases hfree : (s.chunkPool s.chunkPoolHead).inUse = true
    · right; left
      simp only [hfree, if_true]
      split_ifs <;> exact ⟨_, rfl⟩
    · simp only [hst, hfree, not_true, if_false, Bool.false_eq_true]
      split_ifs
      · exact Or.inr (Or.inl ⟨_, rfl⟩)
      · exact Or.inr (Or.inl ⟨_, rfl⟩)
      · exact Or.inr (Or.inl ⟨_, rfl⟩)
      · exact Or.inl rfl
      · exact Or.inr (Or.inr ⟨_, _, _, rfl, consumeData_consumed _ d hst (by simpa using hfree)⟩)
  · right; left
    simp only [hst, Bool.false_eq_true, not_false_eq_true, if_true]
    split_ifs <;> exact ⟨_, rfl⟩

end CcApi.Firmware
