/-
How many bytes of a download reach the user (`ccapi_firmware_update_handler.c`).

The data callback knows the end of the image by one test: the piece it takes over ends exactly at `total_size`. A piece that
ends behind it, on a chunk boundary, completes a chunk that is queued like any other, and a piece that ends at
`total_size` again completes a second last chunk. `Overruns` are the calls that do one of the two; `size_bound_iff`: what
the user is given stays within `code_size`, with nothing behind the chunk flagged last, exactly in the runs without such a
call. Blocks that end before the first chunk boundary above `code_size` never overrun (`fits_not_overruns`).

The blocks need not be presented again after a busy, nor stay within the image: any sequence of calls that pass the offset
check is a run.
-/
import CcApi.Firmware.Streaming

namespace CcApi.Firmware

open Lib Lib.Runs

variable {n : ℕ}

/-! ## What the user may be given -/

/-- the chunks hold no more than T bytes, and the chunk flagged last has none behind it -/
structure Bounded (T : ℕ) (l : List Chunk) : Prop where
  total : (l.map Chunk.size).sum ≤ T
  last : ∀ c ∈ l.dropLast, c.last = false

theorem Bounded.of_prefix {T : ℕ} {l l' : List Chunk} (h : Bounded T l) (hp : l' <+: l) : Bounded T l' := by
  obtain ⟨r, rfl⟩ := hp
  constructor
  · have := h.total
    simp only [List.map_append, List.sum_append] at this
    omega
  · intro c hc
    refine h.last c ?_
    cases r with
    | nil => simpa using hc
    | cons x r =>
      rw [List.dropLast_append_of_ne_nil (by simp)]
      exact List.mem_append_left _ (List.mem_of_mem_dropLast hc)

theorem bounded_concat {T : ℕ} {l : List Chunk} {c : Chunk} :
    Bounded T (l ++ [c]) ↔ (l.map Chunk.size).sum + c.size ≤ T ∧ ∀ x ∈ l, x.last = false := by
  constructor
  · intro h
    refine ⟨by simpa using h.total, fun x hx => h.last x ?_⟩
    rwa [List.dropLast_concat]
  · rintro ⟨ht, hl⟩
    refine ⟨by simpa using ht, ?_⟩
    rwa [List.dropLast_concat]

/-! ## The calls that overrun -/

/-- `chunk_size` as the data callback reads it -/
def dataChunkSize (s : Svc n) : ℕ := u32 (s.target s.current).chunkSize

/-- the call passes the callback's checks and finds the head slot free -/
def accepts (d : DataReq) (s : Svc n) : Bool :=
  d.targetNumber = s.current && s.updateStarted && s.dataError ≠ .invalidData &&
    d.offset = u32Sub s.tailOffset s.ccfsmBytesProcessed && !(s.chunkPool s.chunkPoolHead).inUse &&
    dataChunkSize s ≠ 0

/-- where the next piece of the block ends: the rest of the block, or as much as the chunk has room for -/
def pieceEnd (d : DataReq) (s : Svc n) : ℕ :=
  u32 (s.tailOffset +
    min (sizeSub d.bytesUsed s.ccfsmBytesProcessed) (dataChunkSize s - s.tailOffset % dataChunkSize s))

/-- the piece completes a chunk -/
def completes (d : DataReq) (s : Svc n) : Bool :=
  s.headOffset ≤ s.tailOffset && (pieceEnd d s = s.totalSize || pieceEnd d s % dataChunkSize s = 0)

/-- a chunk flagged last is among those queued behind the first k -/
def lastQueued (k : ℕ) (s : St n) : Bool := (s.queued.drop k).any (·.last)

/-- the bytes of the chunks queued behind the first k -/
def bytesQueued (k : ℕ) (s : St n) : ℕ := ((s.queued.drop k).map Chunk.size).sum

/-- an accepted piece completes a chunk that ends more than T bytes behind the download's first, or completes one when the
last chunk has been queued -/
def Overruns (T k : ℕ) (s : St n) : Op n → Prop
  | .data d => s.crashed = false ∧ accepts d s.svc ∧ completes d s.svc ∧
      (T < bytesQueued k s + u32Sub (pieceEnd d s.svc) s.svc.headOffset ∨ lastQueued k s)
  | _ => False

instance (T k : ℕ) (s : St n) : ∀ o, Decidable (Overruns T k s o)
  | .data _ => inferInstanceAs (Decidable (_ ∧ _ ∧ _ ∧ (_ ∨ _)))
  | .start .. | .complete _ | .abort .. | .wake | .call | .ret _ | .clearInUse | .advanceTail =>
    inferInstanceAs (Decidable False)

/-! ## One data callback -/

theorem piece_eq (d : DataReq) (s : Svc n) (c : ℕ) :
    (if sizeSub d.bytesUsed s.ccfsmBytesProcessed > c - s.tailOffset % c then c - s.tailOffset % c
      else sizeSub d.bytesUsed s.ccfsmBytesProcessed) =
      min (sizeSub d.bytesUsed s.ccfsmBytesProcessed) (c - s.tailOffset % c) := by
  split_ifs <;> omega

/-- what an accepted call leaves of the counters, and the chunk it queues -/
structure Taken (d : DataReq) (s t : Svc n) (queued : Bool) : Prop where
  queued : queued = completes d s
  started : t.updateStarted = s.updateStarted
  totalSize : t.totalSize = s.totalSize
  head : t.headOffset = if completes d s then pieceEnd d s else s.headOffset
  size : completes d s → (t.chunkPool s.chunkPoolHead).size = u32Sub (pieceEnd d s) s.headOffset
  last : completes d s → (t.chunkPool s.chunkPoolHead).last = decide (pieceEnd d s = s.totalSize)

theorem copyToHead_frame (d : DataReq) (off len : ℕ) (s : Svc n) :
    ∃ m, copyToHead d off len s = { s with heap := { s.heap with mem := m } } :=
  (copyToHead_eq d off len s).imp fun _ h => h.1

theorem consumeData_taken (d : DataReq) {s : Svc n} :
    Taken d s (consumeData (dataChunkSize s) d s).1 (consumeData (dataChunkSize s) d s).2.2 := by
  unfold consumeData
  dsimp only
  rw [piece_eq]
  by_cases ht : s.headOffset ≤ s.tailOffset
  · obtain ⟨m, hm⟩ := copyToHead_frame d (s.tailOffset % dataChunkSize s)
      (min (sizeSub d.bytesUsed s.ccfsmBytesProcessed) (dataChunkSize s - s.tailOffset % dataChunkSize s)) s
    rw [if_pos ht, hm]
    generalize hend : u32 (s.tailOffset +
      min (sizeSub d.bytesUsed s.ccfsmBytesProcessed) (dataChunkSize s - s.tailOffset % dataChunkSize s)) = e
    have he : pieceEnd d s = e := hend
    have hc : completes d s = (decide (e = s.totalSize) || decide (e % dataChunkSize s = 0)) := by
      simp [completes, ht, he]
    cases hfull : (decide (e = s.totalSize) || decide (e % dataChunkSize s = 0)) with
    | true =>
      rw [hfull] at hc
      simp only [if_true]
      split_ifs
      all_goals exact ⟨hc.symm, rfl, rfl, by simp [hc, he, queueHead], fun _ => by simp [he, queueHead],
        fun _ => by simp [he, queueHead]⟩
    | false =>
      rw [hfull] at hc
      simp only [Bool.false_eq_true, if_false]
      split_ifs
      all_goals exact ⟨hc.symm, rfl, rfl, by simp [hc], fun h => by simp [hc] at h, fun h => by simp [hc] at h⟩
  · have hc : completes d s = false := by simp [completes, ht]
    rw [if_neg ht]
    exact ⟨hc.symm, rfl, rfl, by simp [hc], fun h => by simp [hc] at h, fun h => by simp [hc] at h⟩

/-- a call that is not accepted changes nothing -/
theorem data_accepts (d : DataReq) (s : Svc n) :
    (accepts d s = true ∧ ∃ t a q, processFirmwareUpdateData d s = some (t, a, q) ∧ Taken d s t q) ∨
      (accepts d s = false ∧ (processFirmwareUpdateData d s = none ∨
        ∃ a, processFirmwareUpdateData d s = some (s, a, false))) := by
  by_cases ht : d.targetNumber = s.current
  · unfold processFirmwareUpdateData
    simp only [ht, ne_eq, not_true, if_false]
    by_cases hst : s.updateStarted = true
    · by_cases he : s.dataError = .invalidData
      · exact .inr ⟨by simp [accepts, he], .inr (by simp [hst, he])⟩
      by_cases ho : d.offset = u32Sub s.tailOffset s.ccfsmBytesProcessed
      · by_cases hu : (s.chunkPool s.chunkPoolHead).inUse = true
        · exact .inr ⟨by simp [accepts, hu], .inr (by simp [hst, he, ho, hu])⟩
        · by_cases hc : dataChunkSize s = 0
          · refine .inr ⟨by simp [accepts, hc], .inl ?_⟩
            simp only [dataChunkSize] at hc
            simp [hst, he, ho, hu, hc]
          · refine .inl ⟨by simp [accepts, ht, hst, he, ho, hu, hc], _, (consumeData (dataChunkSize s) d s).2.1, _, ?_,
              consumeData_taken d⟩
            have hc' : u32 (s.target s.current).chunkSize ≠ 0 := hc
            simp [hst, he, ho, hu, hc', dataChunkSize]
      · exact .inr ⟨by simp [accepts, ho], .inr (by simp [hst, he, ho])⟩
    · exact .inr ⟨by simp [accepts, hst], .inr (by simp [hst])⟩
  · exact .inr ⟨by simp [accepts, ht], .inr (by simp [processFirmwareUpdateData, ht])⟩

/-! ## The tally -/

def Op.isStart : Op n → Bool
  | .start .. => true
  | _ => false

/-- the chunks queued behind the first k are bounded -/
structure Tallied (T k : ℕ) (s : St n) : Prop where
  queue : QueueInv s
  len : k ≤ s.queued.length
  bounded : Bounded T (s.queued.drop k)

/-- whatever the thread does next, the user is given no more than T bytes since the first k calls, and nothing behind the
chunk flagged last -/
def GivesBounded (T k : ℕ) (s : St n) : Prop :=
  ∀ w : List (Op n), (∀ o ∈ w, o.isThread = true) → Bounded T ((run step s w).calls.drop k)

theorem stepThread_queued (s : St n) (o : Op n) : (stepThread s o).queued = s.queued := by
  obtain ⟨pool, tail, e, l, pc, calls, ht, -⟩ := stepThread_frame s o
  rw [ht]

theorem run_thread_queued {s : St n} {w : List (Op n)} (hw : ∀ o ∈ w, o.isThread = true) :
    (run step s w).queued = s.queued := by
  induction w generalizing s with
  | nil => rfl
  | cons o w ih =>
    obtain ⟨ho, hw⟩ := List.forall_mem_cons.1 hw
    rw [run_cons, ih hw]
    cases hcr : s.crashed with
    | true => simp [step, hcr]
    | false => rw [step_eq_stepThread hcr ho, stepThread_queued]

theorem Tallied.gives {T k : ℕ} {s : St n} (h : Tallied T k s) : GivesBounded T k s := by
  intro w hw
  have hpre := (h.queue.run_thread hw).calls_initial
  rw [run_thread_queued hw] at hpre
  exact h.bounded.of_prefix (hpre.drop k)

/-- the thread can always give all of it -/
theorem GivesBounded.queued {T k : ℕ} {s : St n} (h : GivesBounded T k s) (hq : QueueInv s) (hcr : s.crashed = false) :
    Bounded T (s.queued.drop k) := by
  obtain ⟨w, hw, hcalls⟩ := hq.drain hcr
  rw [← hcalls]
  exact h w hw

theorem step_queueInv_of_not_start {s : St n} (h : QueueInv s) {o : Op n} (ho : o.isStart = false) :
    QueueInv (step s o) := by
  refine step_queueInv s o h ⟨?_, ?_⟩
  · cases o <;> trivial
  · cases o <;> trivial

theorem Tallied.same {T k : ℕ} {s t : St n} (h : Tallied T k s) (hinv : QueueInv t) (hq : t.queued = s.queued) :
    Tallied T k t :=
  ⟨hinv, by rw [hq]; exact h.len, by rw [hq]; exact h.bounded⟩

/-- the chunk an accepted call queues, and the counters behind it -/
theorem step_data_queues {s : St n} {d : DataReq} (hcr : s.crashed = false) (ha : accepts d s.svc = true)
    (hc : completes d s.svc = true) : ∃ c : Chunk, (step s (.data d)).queued = s.queued ++ [c] ∧
      c.size = u32Sub (pieceEnd d s.svc) s.svc.headOffset ∧ c.last = decide (pieceEnd d s.svc = s.svc.totalSize) ∧
      (step s (.data d)).svc.headOffset = pieceEnd d s.svc ∧ (step s (.data d)).svc.totalSize = s.svc.totalSize ∧
      (step s (.data d)).svc.updateStarted = s.svc.updateStarted ∧ (step s (.data d)).crashed = false := by
  rcases data_accepts d s.svc with ⟨-, t, a, q, hd, ht⟩ | ⟨hn, -⟩
  · have hq : q = true := ht.queued.trans hc
    subst hq
    refine ⟨slotChunk { s with svc := t } s.svc.chunkPoolHead, ?_, ?_, ?_, ?_, ?_, ?_, ?_⟩
    · simp [step, hcr, stepData, hd]
    · exact ht.size hc
    · exact ht.last hc
    · simp [step, hcr, stepData, hd, ht.head, hc]
    · simp [step, hcr, stepData, hd, ht.totalSize]
    · simp [step, hcr, stepData, hd, ht.started]
    · simp [step, hcr, stepData, hd]
  · rw [hn] at ha
    cases ha

/-- any other data call leaves the queue and the counters alone -/
theorem step_data_keeps {s : St n} {d : DataReq}
    (h : s.crashed = true ∨ accepts d s.svc = false ∨ completes d s.svc = false) :
    (step s (.data d)).queued = s.queued ∧ (step s (.data d)).svc.headOffset = s.svc.headOffset ∧
      (step s (.data d)).svc.totalSize = s.svc.totalSize ∧
      (step s (.data d)).svc.updateStarted = s.svc.updateStarted := by
  cases hcr : s.crashed with
  | true => simp [step, hcr]
  | false =>
    rcases data_accepts d s.svc with ⟨ha, t, a, q, hd, ht⟩ | ⟨-, hd | ⟨a, hd⟩⟩
    · have hc : completes d s.svc = false := by
        rcases h with h | h | h
        · rw [hcr] at h; cases h
        · rw [ha] at h; cases h
        · exact h
      have hq : q = false := ht.queued.trans hc
      subst hq
      have hhead := ht.head
      rw [hc] at hhead
      refine ⟨by simp [step, hcr, stepData, hd], ?_, ?_, ?_⟩
      · simp [step, hcr, stepData, hd, hhead]
      · simp [step, hcr, stepData, hd, ht.totalSize]
      · simp [step, hcr, stepData, hd, ht.started]
    · simp [step, hcr, stepData, hd]
    · simp [step, hcr, stepData, hd]

/-- a data call that queues a chunk passes the checks and completes it -/
theorem queues_or_not (d : DataReq) (s : St n) :
    (s.crashed = false ∧ accepts d s.svc = true ∧ completes d s.svc = true) ∨
      (s.crashed = true ∨ accepts d s.svc = false ∨ completes d s.svc = false) := by
  cases s.crashed <;> cases accepts d s.svc <;> cases completes d s.svc <;> simp

/-- the steps other than data calls and starts queue nothing; they keep the counters or end the download -/
theorem step_other {s : St n} {o : Op n} (ho : o.isStart = false) (hd : ∀ d, o ≠ .data d) :
    (step s o).queued = s.queued ∧ ((step s o).svc.updateStarted = true → s.svc.updateStarted = true ∧
      (step s o).svc.headOffset = s.svc.headOffset ∧ (step s o).svc.totalSize = s.svc.totalSize) := by
  cases hcr : s.crashed with
  | true => simp [step, hcr]
  | false =>
    cases o with
    | start r request ok => cases ho
    | data d => exact absurd rfl (hd d)
    | complete target =>
      simp only [step, hcr, Bool.false_eq_true, if_false]
      rcases complete_cases target s.svc with ht | ⟨-, -, ht⟩
      · rw [ht]; exact ⟨trivial, fun hst => ⟨hst, rfl, rfl⟩⟩
      · rw [ht]; exact ⟨trivial, fun hst => by simp at hst⟩
    | abort target status =>
      simp only [step, hcr, Bool.false_eq_true, if_false]
      rcases abort_cases target status s.svc with ht | ⟨-, -, ht⟩
      · rw [ht]; exact ⟨trivial, fun hst => ⟨hst, rfl, rfl⟩⟩
      · rw [ht]; exact ⟨trivial, fun hst => by simp at hst⟩
    | _ =>
      rw [step_eq_stepThread hcr rfl]
      obtain ⟨pool, tail, e, l, pc, calls, ht, -⟩ := stepThread_frame s _
      rw [ht]
      exact ⟨rfl, fun hst => ⟨hst, rfl, rfl⟩⟩

/-- **One step.** A step that does not overrun keeps the tally. -/
theorem step_tallied {T k : ℕ} {s : St n} {o : Op n} (h : Tallied T k s) (ho : o.isStart = false)
    (hover : ¬ Overruns T k s o) : Tallied T k (step s o) := by
  have hinv := step_queueInv_of_not_start h.queue ho
  by_cases hd : ∃ d, o = .data d
  · obtain ⟨d, rfl⟩ := hd
    rcases queues_or_not d s with ⟨hcr, ha, hc⟩ | hnot
    · obtain ⟨c, hqueued, hsize, -⟩ := step_data_queues hcr ha hc
      simp only [Overruns, hcr, ha, hc, true_and, not_or, not_lt, Bool.not_eq_true] at hover
      obtain ⟨hle, hnone⟩ := hover
      refine ⟨hinv, ?_, ?_⟩
      · rw [hqueued, List.length_append]
        exact Nat.le_add_right_of_le h.len
      · rw [hqueued, List.drop_append_of_le_length h.len, bounded_concat, hsize]
        refine ⟨hle, fun x hx => ?_⟩
        simp only [lastQueued, List.any_eq_false, Bool.not_eq_true] at hnone
        exact hnone x hx
    · exact h.same hinv (step_data_keeps hnot).1
  · exact h.same hinv (step_other ho fun d hd' => hd ⟨d, hd'⟩).1

/-- a call that overruns queues a chunk too many -/
theorem overrun_unbounded {T k : ℕ} {s : St n} {o : Op n} (h : Tallied T k s) (ho : o.isStart = false)
    (hover : Overruns T k s o) : ¬ GivesBounded T k (step s o) := by
  cases o with
  | data d =>
    obtain ⟨hcr, ha, hc, hwhy⟩ := hover
    obtain ⟨c, hqueued, hsize, -, -, -, -, hcr'⟩ := step_data_queues hcr ha hc
    intro hgives
    have hb := hgives.queued (step_queueInv_of_not_start h.queue ho) hcr'
    rw [hqueued, List.drop_append_of_le_length h.len, bounded_concat, hsize] at hb
    obtain ⟨hle, hnone⟩ := hb
    rcases hwhy with hw | hw
    · exact absurd hle (by simpa [bytesQueued] using hw)
    · simp only [lastQueued, List.any_eq_true] at hw
      obtain ⟨x, hx, hlast⟩ := hw
      rw [hnone x hx] at hlast
      cases hlast
  | _ => exact hover.elim

/-! ## The start of a download -/

/-- the download of an accepted start, behind the chunks of the earlier ones -/
structure Begun (s : St n) (r : StartReq) (t : St n) : Prop where
  queued : t.queued = s.queued
  head : t.svc.headOffset = 0
  totalSize : t.svc.totalSize = u32 r.codeSize

theorem begun {s : St n} {r : StartReq} {request : RequestError} {ok : Fin (n + 1) → Bool} (hcr : s.crashed = false)
    (h : (processFirmwareUpdateRequest r request ok s.svc).2 = ⟨.cont, some .success⟩) :
    Begun s r (step s (.start r request ok)) := by
  obtain ⟨hst, hset⟩ := setUp_of_success h
  have hstep : step s (.start r request ok) = stepStart r request ok s := by
    unfold step
    rw [if_neg (by simp [hcr])]
  rw [hstep]
  exact ⟨rfl, hset.offsets.1, hset.totalSize⟩

theorem tallied_begin {s : St n} {r : StartReq} {request : RequestError} {ok : Fin (n + 1) → Bool}
    (h : QueueInv s) (hC : StartAfterEnd s (.start r request ok) ∧ ResetAfterAdvance s (.start r request ok))
    (hb : Begun s r (step s (.start r request ok))) (T : ℕ) :
    Tallied T s.queued.length (step s (.start r request ok)) := by
  refine ⟨step_queueInv s _ h hC, by rw [hb.queued], ?_⟩
  rw [hb.queued, List.drop_length]
  exact ⟨by simp, by simp⟩

/-! ## Blocks that fit -/

/-- while the download is in progress the counters know what has been queued -/
structure Placed (T k : ℕ) (s : St n) : Prop where
  sum : s.svc.updateStarted = true → bytesQueued k s = s.svc.headOffset
  last : s.svc.updateStarted = true → lastQueued k s = true → s.svc.headOffset = T
  total : s.svc.updateStarted = true → s.svc.totalSize = T

theorem accepts_started {d : DataReq} {s : Svc n} (h : accepts d s = true) : s.updateStarted = true := by
  simp only [accepts, Bool.and_eq_true] at h
  exact h.1.1.1.1.2

theorem Placed.same {T k : ℕ} {s t : St n} (h : Placed T k s) (hq : t.queued = s.queued)
    (hs : t.svc.updateStarted = true → s.svc.updateStarted = true ∧ t.svc.headOffset = s.svc.headOffset ∧
      t.svc.totalSize = s.svc.totalSize) : Placed T k t := by
  refine ⟨fun hst => ?_, fun hst hl => ?_, fun hst => ?_⟩
  · obtain ⟨h1, h2, -⟩ := hs hst
    rw [h2, ← h.sum h1, bytesQueued, bytesQueued, hq]
  · obtain ⟨h1, h2, -⟩ := hs hst
    rw [h2]
    exact h.last h1 (by simpa only [lastQueued, hq] using hl)
  · obtain ⟨h1, -, h3⟩ := hs hst
    rw [h3, h.total h1]

/-- **The calls that overrun, by the offsets**, for a size that `total_size` can hold: the piece completes a chunk and ends
above `total_size`, or in front of the chunk's start, or the last chunk has been queued. -/
theorem overruns_iff {T k : ℕ} {s : St n} {d : DataReq} (hT : T < 2 ^ 32) (h : Tallied T k s) (hp : Placed T k s) :
    Overruns T k s (.data d) ↔ s.crashed = false ∧ accepts d s.svc ∧ completes d s.svc ∧
      (s.svc.totalSize < pieceEnd d s.svc ∨ pieceEnd d s.svc < s.svc.headOffset ∨ lastQueued k s) := by
  unfold Overruns
  refine and_congr_right fun _ => and_congr_right fun ha => and_congr_right fun _ => ?_
  have hst := accepts_started ha
  have hlt : pieceEnd d s.svc < 2 ^ 32 := u32_lt _
  have hhead : s.svc.headOffset ≤ T := by
    rw [← hp.sum hst]
    exact h.bounded.total
  have hlen : T < s.svc.headOffset + u32Sub (pieceEnd d s.svc) s.svc.headOffset ↔
      T < pieceEnd d s.svc ∨ pieceEnd d s.svc < s.svc.headOffset := by
    rcases Nat.lt_or_ge (pieceEnd d s.svc) s.svc.headOffset with hwrap | hge
    · simp only [u32Sub]
      omega
    · rw [u32Sub_eq hge hlt]
      omega
  rw [hp.sum hst, hp.total hst, hlen, or_assoc]

theorem step_placed {T k : ℕ} {s : St n} {o : Op n} (hT : T < 2 ^ 32) (h : Tallied T k s) (hp : Placed T k s)
    (ho : o.isStart = false) (hover : ¬ Overruns T k s o) : Placed T k (step s o) := by
  by_cases hd : ∃ d, o = .data d
  · obtain ⟨d, rfl⟩ := hd
    rcases queues_or_not d s with ⟨hcr, ha, hc⟩ | hnot
    · obtain ⟨c, hqueued, hsize, hlast, hhead, htotal, -⟩ := step_data_queues hcr ha hc
      rw [overruns_iff hT h hp] at hover
      simp only [hcr, ha, hc, true_and, not_or, not_lt, Bool.not_eq_true] at hover
      obtain ⟨-, hge, hnone⟩ := hover
      have hst := accepts_started ha
      have hdrop : (step s (.data d)).queued.drop k = s.queued.drop k ++ [c] := by
        rw [hqueued, List.drop_append_of_le_length h.len]
      refine ⟨fun _ => ?_, fun _ hl => ?_, fun _ => ?_⟩
      · have hsum := hp.sum hst
        rw [u32Sub_eq hge (u32_lt _)] at hsize
        simp only [bytesQueued] at hsum
        simp only [bytesQueued, hdrop, hhead, List.map_append, List.sum_append, List.map_cons, List.map_nil,
          List.sum_cons, List.sum_nil]
        omega
      · simp only [lastQueued] at hnone
        simp only [lastQueued, hdrop, List.any_append, hnone, List.any_cons, List.any_nil, Bool.or_false,
          Bool.false_or, hlast, decide_eq_true_eq] at hl
        rw [hhead, hl, hp.total hst]
      · rw [htotal, hp.total hst]
    · obtain ⟨h1, h2, h3, h4⟩ := step_data_keeps hnot
      exact hp.same h1 fun hst => ⟨by rw [← h4]; exact hst, h2, h3⟩
  · obtain ⟨hq, hs⟩ := step_other ho fun d hd' => hd ⟨d, hd'⟩
    exact hp.same hq hs

/-- **A block that ends before the first chunk boundary above the image's end** does not overrun, as long as it has bytes
left. -/
theorem fits_not_overruns {T k : ℕ} {s : St n} {d : DataReq} (hT : T < 2 ^ 32) (h : Tallied T k s) (hp : Placed T k s)
    (hleft : s.svc.ccfsmBytesProcessed < d.bytesUsed) (hpos : s.svc.ccfsmBytesProcessed ≤ s.svc.tailOffset)
    (htail : s.svc.tailOffset < 2 ^ 32) (hend : d.offset + d.bytesUsed < 2 ^ 32)
    (hfits : d.offset + d.bytesUsed < (T / dataChunkSize s.svc + 1) * dataChunkSize s.svc) :
    ¬ Overruns T k s (.data d) := by
  rw [overruns_iff hT h hp]
  rintro ⟨-, ha, hc, hwhy⟩
  have hst := accepts_started ha
  simp only [accepts, Bool.and_eq_true, decide_eq_true_eq] at ha
  obtain ⟨⟨⟨-, hoff⟩, -⟩, hne⟩ := ha
  simp only [completes, Bool.and_eq_true, Bool.or_eq_true, decide_eq_true_eq] at hc
  obtain ⟨hle, hc⟩ := hc
  rw [u32Sub_eq hpos htail] at hoff
  have hmod := Nat.mod_lt s.svc.tailOffset (Nat.pos_of_ne_zero hne)
  have hpiece : s.svc.tailOffset < pieceEnd d s.svc ∧ pieceEnd d s.svc ≤ d.offset + d.bytesUsed := by
    have hrest : sizeSub d.bytesUsed s.svc.ccfsmBytesProcessed = d.bytesUsed - s.svc.ccfsmBytesProcessed :=
      sizeSub_eq hleft.le (by omega)
    unfold pieceEnd
    rw [hrest, u32_eq (by omega)]
    omega
  have hupto : pieceEnd d s.svc ≤ T := by
    rcases hc with hc | hc
    · rw [hc, hp.total hst]
    · obtain ⟨m, hm⟩ := Nat.dvd_of_mod_eq_zero hc
      rw [hm, Nat.mul_comm] at hpiece
      have hmT : m < T / dataChunkSize s.svc + 1 := lt_of_mul_lt_mul_right (hpiece.2.trans_lt hfits) (Nat.zero_le _)
      rw [hm]
      exact (Nat.mul_le_mul_left _ (Nat.le_of_lt_succ hmT)).trans (Nat.mul_div_le T _)
  rcases hwhy with hw | hw | hw
  · rw [hp.total hst] at hw
    omega
  · omega
  · have := hp.last hst hw
    omega

/-- the next block has bytes left and ends before the first chunk boundary above the image's end, where the callback comes
to take it over -/
def Fits (T : ℕ) (s : St n) : Op n → Prop
  | .data d => accepts d s.svc → s.svc.ccfsmBytesProcessed < d.bytesUsed ∧
      s.svc.ccfsmBytesProcessed ≤ s.svc.tailOffset ∧ s.svc.tailOffset < 2 ^ 32 ∧ d.offset + d.bytesUsed < 2 ^ 32 ∧
      d.offset + d.bytesUsed < (T / dataChunkSize s.svc + 1) * dataChunkSize s.svc
  | .start .. => False
  | _ => True

theorem step_fits {T k : ℕ} (hT : T < 2 ^ 32) (s : St n) (o : Op n) (h : Tallied T k s ∧ Placed T k s)
    (hf : Fits T s o) : Tallied T k (step s o) ∧ Placed T k (step s o) := by
  obtain ⟨ht, hp⟩ := h
  have ho : o.isStart = false := by
    cases o with
    | start r request ok => exact hf.elim
    | _ => rfl
  have hover : ¬ Overruns T k s o := by
    cases o with
    | data d =>
      intro hover
      obtain ⟨hleft, hpos, htail, hend, hfits⟩ := hf hover.2.1
      exact fits_not_overruns hT ht hp hleft hpos htail hend hfits hover
    | _ => exact fun hover => hover.elim
  exact ⟨step_tallied ht ho hover, step_placed hT ht hp ho hover⟩

/-- **A download of blocks that fit is bounded.** -/
theorem bounded_of_fits {s : St n} {r : StartReq} {request : RequestError} {ok : Fin (n + 1) → Bool} (h : QueueInv s)
    (hcr : s.crashed = false)
    (hC : StartAfterEnd s (.start r request ok) ∧ ResetAfterAdvance s (.start r request ok))
    (hok : (processFirmwareUpdateRequest r request ok s.svc).2 = ⟨.cont, some .success⟩) (h32 : r.codeSize < 2 ^ 32)
    {ops : List (Op n)} (hops : Along step (Fits r.codeSize) (step s (.start r request ok)) ops) :
    GivesBounded r.codeSize s.queued.length (run step (step s (.start r request ok)) ops) := by
  have hb := begun hcr hok
  refine (run_inv (step_fits h32) ⟨tallied_begin h hC hb r.codeSize, ?_⟩ hops).1.gives
  refine ⟨fun _ => ?_, fun _ hl => ?_, fun _ => ?_⟩
  · simp [bytesQueued, hb.queued, hb.head]
  · simp [lastQueued, hb.queued] at hl
  · rw [hb.totalSize, u32_eq h32]

/-! ## Main results -/

/-- **The size bound.** Take any run from the service's initial state whose starts come between downloads and not between
the thread's last two writes, and that ends with an accepted start. Whatever the connector, the thread and the user do
then, short of another start, the user is given no more than `code_size` bytes and nothing behind a chunk flagged last,
now and however the thread goes on, exactly when no data call overruns. -/
theorem size_bound_iff {s₀ : St n} (h₀ : Init s₀) (before : List (Op n)) (r : StartReq) (request : RequestError)
    (ok : Fin (n + 1) → Bool) {s : St n} (hs : run step s₀ before = s) (hcr : s.crashed = false)
    (hC : Along step (fun s o => StartAfterEnd s o ∧ ResetAfterAdvance s o) s₀ (before ++ [.start r request ok]))
    (hok : (processFirmwareUpdateRequest r request ok s.svc).2 = ⟨.cont, some .success⟩) (ops : List (Op n))
    (hops : ∀ o ∈ ops, o.isStart = false) :
    (∀ j, GivesBounded r.codeSize s.calls.length (run step (step s (.start r request ok)) (ops.take j))) ↔
      Along step (fun s' o => ¬ Overruns r.codeSize s.calls.length s' o) (step s (.start r request ok)) ops := by
  rw [along_append] at hC
  obtain ⟨hbefore, hstart, -⟩ := hC
  have hinv : QueueInv s := hs ▸ run_inv step_queueInv (init_queueInv h₀) hbefore
  rw [hs] at hstart
  have hcalls : s.calls.length = s.queued.length := by
    obtain ⟨-, hidle⟩ | ⟨hst, -⟩ := hinv
    · rw [hidle.history]
    · rw [(setUp_of_success hok).1] at hst
      cases hst
  rw [hcalls]
  exact along_iff_under (I := Tallied r.codeSize s.queued.length) (D := fun _ o => o.isStart = false)
    (fun t => Tallied.gives) (fun t o ht ho hnot => step_tallied ht ho hnot)
    (fun t o ht ho hgives hover => overrun_unbounded ht ho hover hgives)
    (tallied_begin hinv hstart (begun hcr hok) r.codeSize) (along_of_forall hops _)

/-- 6 bytes in two blocks, cut into chunks of 4 -/
def sixBytes : List (Op 1) :=
  [.data ⟨0, 0, fun _ => 7, 4⟩, .wake, .call, .ret .none, .data ⟨0, 4, fun _ => 7, 2⟩, .clearInUse, .advanceTail, .wake,
    .call]

theorem six_bounded : (∀ j, GivesBounded 6 0
      (run step (step (St.fresh 1 1 fun _ => ⟨0, 4⟩) (.start ⟨0, 6⟩ .none fun _ => true)) (sixBytes.take j))) ↔
    Along step (fun s' o => ¬ Overruns 6 0 s' o)
      (step (St.fresh 1 1 fun _ => ⟨0, 4⟩) (.start ⟨0, 6⟩ .none fun _ => true)) sixBytes :=
  size_bound_iff (init_fresh 1 1 fun _ => ⟨0, 4⟩) [] ⟨0, 6⟩ .none (fun _ => true) rfl rfl (by decide) rfl sixBytes
    (by decide)

/-- 6 bytes are announced, and one block of 8 is sent: it is answered busy after 4 and presented again -/
def eightBytes : List (Op 1) :=
  [.data ⟨0, 0, fun _ => 7, 8⟩, .data ⟨0, 0, fun _ => 7, 8⟩]

/-- **A block that reaches the chunk boundary above the image's end** is given to the user in full. -/
theorem past_the_end : ¬ ∀ (n : ℕ) (s : St n) (r : StartReq) (request : RequestError) (ok : Fin (n + 1) → Bool)
    (ops : List (Op n)), Init s → (processFirmwareUpdateRequest r request ok s.svc).2 = ⟨.cont, some .success⟩ →
    (∀ o ∈ ops, o.isStart = false) →
    Bounded r.codeSize ((run step (step s (.start r request ok)) ops).calls.drop s.calls.length) := by
  intro h
  have hb := h 1 (St.fresh 1 1 fun _ => ⟨0, 4⟩) ⟨0, 6⟩ .none (fun _ => true)
    (eightBytes ++ [.wake, .call, .ret .none, .clearInUse, .advanceTail, .wake, .call]) (init_fresh 1 1 _) rfl (by decide)
  exact absurd hb.total (by decide)

end CcApi.Firmware
