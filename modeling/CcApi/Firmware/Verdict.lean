/-
What a download_complete callback answers (`ccapi_firmware_update_handler.c`).

The callback looks at three things: the `in_use` flags of the slots, `head_offset` against `total_size`, and `data_error`. The
flags say whether the thread still has work, the offset how much has been queued, the error what the user has answered.

- `Verdict`: the answer, said about the chunks given to the user and the user's answers.
- `step_downloading`: what every step of a download keeps of the counters.
- `verdict_iff`: the verdict is right in every run of a download exactly when `total_size` can hold `code_size` (or no data
  callback can get through, and `code_size` is not a multiple of 2^32).
- `wrapped_size`: a `code_size` of 2^32 is stored as 0, and a complete is answered with success before any byte has arrived.

As in `SizeBound` the blocks need not be presented again after a busy: any sequence of calls is a run.
-/
import CcApi.Firmware.Ownership
import CcApi.Firmware.SizeBound

namespace CcApi.Firmware

open Lib Lib.Runs

variable {n : ℕ}

/-! ## What the verdict is about -/

/-- a chunk is with the user's data callback, or has not been given to it yet -/
def Outstanding (s : St n) : Prop := s.calls.length < s.queued.length ∨ s.pc.given = 1

instance (s : St n) : Decidable (Outstanding s) := inferInstanceAs (Decidable (_ ∨ _))

/-- the bytes given to the user behind the first k calls -/
def bytesGiven (k : ℕ) (s : St n) : ℕ := ((s.calls.drop k).map Chunk.size).sum

/-- what the user's data callback answers along a run -/
def answers : St n → List (Op n) → List DataError
  | _, [] => []
  | s, o :: ops =>
    (match s.pc, o with
      | .calling _, .ret e => [e]
      | _, _ => []) ++ answers (step s o) ops

/-- what a complete callback for target number g does at s, in a download of T bytes that began behind k calls and in which
the user has answered as -/
structure Verdict (g T k : ℕ) (as : List DataError) (s : St n) : Prop where
  busy : (processFirmwareUpdateComplete g s.svc).2.callback = .busy ↔ Outstanding s
  success : (processFirmwareUpdateComplete g s.svc).2 = ⟨.cont, some .downloadSuccess⟩ ↔
    ¬ Outstanding s ∧ bytesGiven k s = T ∧ .invalidData ∉ as
  error : (processFirmwareUpdateComplete g s.svc).2.callback = .error ↔ ¬ Outstanding s ∧ .invalidData ∈ as
  notComplete : (processFirmwareUpdateComplete g s.svc).2 = ⟨.cont, some .downloadNotComplete⟩ ↔
    ¬ Outstanding s ∧ bytesGiven k s ≠ T ∧ .invalidData ∉ as
  /-- a busy answer leaves the download as it is -/
  keeps : Outstanding s → (processFirmwareUpdateComplete g s.svc).1 = s.svc
  /-- any other ends it and releases every buffer of the pool -/
  ends : ¬ Outstanding s → (processFirmwareUpdateComplete g s.svc).1.updateStarted = false ∧
    ∀ i, ((processFirmwareUpdateComplete g s.svc).1.chunkPool i).data = none ∧
      ∀ b, (s.svc.chunkPool i).data = some b → b ∈ (processFirmwareUpdateComplete g s.svc).1.heap.frees

/-! ## The bytes taken over -/

/-- the next piece of the block: its rest, or as much as the chunk has room for -/
def pieceLength (d : DataReq) (s : Svc n) : ℕ :=
  min (sizeSub d.bytesUsed s.ccfsmBytesProcessed) (dataChunkSize s - s.tailOffset % dataChunkSize s)

/-- the blocks hold fewer than 2^32 bytes in all: so many have been taken over with the next piece; and no other download
starts -/
def Below32 (s : St n) : Op n → Prop
  | .data d => accepts d s.svc → s.svc.tailOffset + pieceLength d s.svc < 2 ^ 32
  | .start .. => False
  | _ => True

instance (s : St n) : ∀ o, Decidable (Below32 s o)
  | .data _ => inferInstanceAs (Decidable (_ → _ < _))
  | .start .. => inferInstanceAs (Decidable False)
  | .complete _ | .abort .. | .wake | .call | .ret _ | .clearInUse | .advanceTail => inferInstanceAs (Decidable True)

theorem Below32.isStart {s : St n} {o : Op n} (h : Below32 s o) : o.isStart = false := by
  cases o with
  | start r request ok => exact h.elim
  | _ => rfl

theorem pieceEnd_eq {d : DataReq} {s : Svc n} (h : s.tailOffset + pieceLength d s < 2 ^ 32) :
    pieceEnd d s = s.tailOffset + pieceLength d s := u32_eq h

theorem data_of_accepts {d : DataReq} {s : Svc n} (h : accepts d s = true) :
    processFirmwareUpdateData d s = some (consumeData (dataChunkSize s) d s) := by
  simp only [accepts, Bool.and_eq_true, decide_eq_true_eq, Bool.not_eq_true'] at h
  obtain ⟨⟨⟨⟨⟨ht, hst⟩, he⟩, ho⟩, hu⟩, hc⟩ := h
  have hc' : u32 (s.target s.current).chunkSize ≠ 0 := hc
  simp [processFirmwareUpdateData, ht, hst, he, ho, hu, hc', dataChunkSize]

/-- the tail moves behind the piece; the target, and what the user has answered, stay -/
theorem consumeData_frame (d : DataReq) (s : Svc n) :
    (consumeData (dataChunkSize s) d s).1.tailOffset = pieceEnd d s ∧
    (consumeData (dataChunkSize s) d s).1.target = s.target ∧
    (consumeData (dataChunkSize s) d s).1.current = s.current ∧
    (consumeData (dataChunkSize s) d s).1.dataError = s.dataError ∧
    (s.headOffset ≤ s.tailOffset → (consumeData (dataChunkSize s) d s).1.ccfsmBytesProcessed =
      if u32 (s.ccfsmBytesProcessed + pieceLength d s) = d.bytesUsed then 0
      else u32 (s.ccfsmBytesProcessed + pieceLength d s)) := by
  unfold consumeData
  dsimp only
  rw [piece_eq]
  by_cases ht : s.headOffset ≤ s.tailOffset
  · obtain ⟨m, hm⟩ := copyToHead_frame d (s.tailOffset % dataChunkSize s)
      (min (sizeSub d.bytesUsed s.ccfsmBytesProcessed) (dataChunkSize s - s.tailOffset % dataChunkSize s)) s
    rw [if_pos ht, hm]
    change _ ∧ _ ∧ _ ∧ _ ∧ (_ → _ = if u32 (s.ccfsmBytesProcessed +
      min (sizeSub d.bytesUsed s.ccfsmBytesProcessed) (dataChunkSize s - s.tailOffset % dataChunkSize s)) = d.bytesUsed
        then 0 else _)
    split_ifs <;> exact ⟨rfl, rfl, rfl, rfl, fun _ => rfl⟩
  · rw [if_neg ht]
    exact ⟨rfl, rfl, rfl, rfl, fun h => absurd h ht⟩

theorem step_data_accepted {s : St n} {d : DataReq} (hcr : s.crashed = false) (ha : accepts d s.svc = true) :
    (step s (.data d)).svc = (consumeData (dataChunkSize s.svc) d s.svc).1 := by
  simp only [step, hcr, Bool.false_eq_true, if_false, stepData, data_of_accepts ha]
  split <;> rfl

theorem step_data_refused {s : St n} {d : DataReq} (ha : ¬ accepts d s.svc = true) :
    (step s (.data d)).svc = s.svc ∧ (step s (.data d)).queued = s.queued := by
  cases hcr : s.crashed with
  | true => simp [step, hcr]
  | false =>
    rcases data_accepts d s.svc with ⟨h, -⟩ | ⟨-, hd | ⟨a, hd⟩⟩
    · exact absurd h ha
    · simp [step, hcr, stepData, hd]
    · simp [step, hcr, stepData, hd]

/-! ## The counters -/

/-- a download of T bytes for target g in chunks of c: what its counters know of the chunks queued behind the first k -/
structure Counters (g T c k : ℕ) (s : St n) : Prop where
  len : k ≤ s.queued.length
  current : s.svc.current = g
  total : s.svc.totalSize = u32 T
  chunk : dataChunkSize s.svc = c
  sum : bytesQueued k s = s.svc.headOffset
  head_le : s.svc.headOffset ≤ s.svc.tailOffset
  tail_lt : s.svc.tailOffset < 2 ^ 32
  /-- with a chunk size of 0 nothing is taken over -/
  zero : c = 0 → s.svc.headOffset = 0

/-- the invariant: the queue is in order, and the counters are while the download is in progress -/
structure Downloading (g T c k : ℕ) (s : St n) : Prop where
  queue : QueueInv s
  counters : s.svc.updateStarted = true → Counters g T c k s

theorem Counters.congr {g T c k : ℕ} {s t : St n} (h : Counters g T c k s) (hq : t.queued = s.queued)
    (hc : t.svc.current = s.svc.current) (htarget : t.svc.target = s.svc.target)
    (htotal : t.svc.totalSize = s.svc.totalSize) (hhead : t.svc.headOffset = s.svc.headOffset)
    (htail : t.svc.tailOffset = s.svc.tailOffset) : Counters g T c k t := by
  constructor
  case len => exact hq ▸ h.len
  case current => exact hc.trans h.current
  case total => exact htotal.trans h.total
  case chunk => rw [← h.chunk, dataChunkSize, dataChunkSize, hc, htarget]
  case sum => rw [hhead, ← h.sum, bytesQueued, bytesQueued, hq]
  case head_le => exact hhead ▸ htail ▸ h.head_le
  case tail_lt => exact htail ▸ h.tail_lt
  case zero => exact fun h0 => hhead.trans (h.zero h0)

/-- an accepted piece: what it completes is queued, and the head follows the tail -/
theorem Counters.data {g T c k : ℕ} {s : St n} (h : Counters g T c k s) (hcr : s.crashed = false) {d : DataReq}
    (ha : accepts d s.svc = true) (hlt : s.svc.tailOffset + pieceLength d s.svc < 2 ^ 32) :
    Counters g T c k (step s (.data d)) := by
  have hsvc := step_data_accepted hcr ha
  obtain ⟨htail, htarget, hcurrent, -, -⟩ := consumeData_frame d s.svc
  rw [← hsvc] at htail htarget hcurrent
  have hend := pieceEnd_eq hlt
  have hne : dataChunkSize s.svc ≠ 0 := by
    simp only [accepts, Bool.and_eq_true, decide_eq_true_eq] at ha
    exact ha.2
  have hchunk : dataChunkSize (step s (.data d)).svc = c := by
    rw [← h.chunk, dataChunkSize, dataChunkSize, hcurrent, htarget]
  have hhead := h.head_le
  cases hc : completes d s.svc with
  | true =>
    obtain ⟨x, hqueued, hsize, -, hhead', htotal, -, -⟩ := step_data_queues hcr ha hc
    have hdrop : (step s (.data d)).queued.drop k = s.queued.drop k ++ [x] := by
      rw [hqueued, List.drop_append_of_le_length h.len]
    rw [u32Sub_eq (by omega) (by omega)] at hsize
    constructor
    case len => rw [hqueued, List.length_append]; exact Nat.le_add_right_of_le h.len
    case current => exact hcurrent.trans h.current
    case total => exact htotal.trans h.total
    case chunk => exact hchunk
    case sum =>
      have hsum := h.sum
      simp only [bytesQueued] at hsum
      simp only [bytesQueued, hdrop, List.map_append, List.sum_append, List.map_cons, List.map_nil, List.sum_cons,
        List.sum_nil, hhead', hsize]
      omega
    case head_le => rw [hhead', htail]
    case tail_lt => rw [htail, hend]; exact hlt
    case zero => exact fun h0 => absurd (h.chunk.trans h0) hne
  | false =>
    obtain ⟨hqueued, hhead', htotal, -⟩ := step_data_keeps (d := d) (Or.inr (Or.inr hc))
    constructor
    case len => rw [hqueued]; exact h.len
    case current => exact hcurrent.trans h.current
    case total => exact htotal.trans h.total
    case chunk => exact hchunk
    case sum => rw [hhead', ← h.sum, bytesQueued, bytesQueued, hqueued]
    case head_le => rw [hhead', htail, hend]; omega
    case tail_lt => rw [htail, hend]; exact hlt
    case zero => exact fun h0 => absurd (h.chunk.trans h0) hne

/-- **One step.** -/
theorem step_downloading {g T c k : ℕ} (s : St n) (o : Op n) (h : Downloading g T c k s) (hC : Below32 s o) :
    Downloading g T c k (step s o) := by
  refine ⟨step_queueInv_of_not_start h.queue hC.isStart, fun hst => ?_⟩
  cases hcr : s.crashed with
  | true =>
    have hstep : step s o = s := by simp [step, hcr]
    rw [hstep] at hst ⊢
    exact h.counters hst
  | false =>
    cases o with
    | start r request ok => exact hC.elim
    | data d =>
      by_cases ha : accepts d s.svc = true
      · exact (h.counters (accepts_started ha)).data hcr ha (hC ha)
      · obtain ⟨hsvc, hqueued⟩ := step_data_refused ha
        rw [hsvc] at hst
        exact (h.counters hst).congr hqueued (by rw [hsvc]) (by rw [hsvc]) (by rw [hsvc]) (by rw [hsvc]) (by rw [hsvc])
    | complete target =>
      simp only [step, hcr, Bool.false_eq_true, if_false] at hst ⊢
      rcases complete_cases target s.svc with ht | ⟨-, -, ht⟩
      · rw [ht] at hst ⊢
        exact (h.counters hst).congr rfl rfl rfl rfl rfl rfl
      · rw [ht] at hst
        simp at hst
    | abort target status =>
      simp only [step, hcr, Bool.false_eq_true, if_false] at hst ⊢
      rcases abort_cases target status s.svc with ht | ⟨-, -, ht⟩
      · rw [ht] at hst ⊢
        exact (h.counters hst).congr rfl rfl rfl rfl rfl rfl
      · rw [ht] at hst
        simp at hst
    | _ =>
      rw [step_eq_stepThread hcr rfl] at hst ⊢
      obtain ⟨pool, tail, e, l, pc, calls, ht, -⟩ := stepThread_frame s _
      rw [ht] at hst ⊢
      exact (h.counters hst).congr rfl rfl rfl rfl rfl rfl

/-! ## The latch -/

/-- `data_error` is set exactly when the user has answered CCAPI_FW_DATA_ERROR_INVALID_DATA -/
theorem step_dataError {s : St n} {o : Op n} (hcr : s.crashed = false) (ho : o.isStart = false) :
    (step s o).svc.dataError = .invalidData ↔ s.svc.dataError = .invalidData ∨ .invalidData ∈ answers s [o] := by
  cases o with
  | start r request ok => cases ho
  | data d =>
    have hkeep : (step s (.data d)).svc.dataError = s.svc.dataError := by
      by_cases ha : accepts d s.svc = true
      · rw [step_data_accepted hcr ha]
        exact (consumeData_frame d s.svc).2.2.2.1
      · rw [(step_data_refused ha).1]
    rw [hkeep]
    cases hpc : s.pc <;> simp [answers, hpc]
  | complete target =>
    have hkeep : (step s (.complete target)).svc.dataError = s.svc.dataError := by
      simp only [step, hcr, Bool.false_eq_true, if_false]
      rcases complete_cases target s.svc with ht | ⟨-, -, ht⟩ <;> rw [ht]
      rfl
    rw [hkeep]
    cases hpc : s.pc <;> simp [answers, hpc]
  | abort target status =>
    have hkeep : (step s (.abort target status)).svc.dataError = s.svc.dataError := by
      simp only [step, hcr, Bool.false_eq_true, if_false]
      rcases abort_cases target status s.svc with ht | ⟨-, -, ht⟩ <;> rw [ht]
      rfl
    rw [hkeep]
    cases hpc : s.pc <;> simp [answers, hpc]
  | ret e =>
    rw [step_eq_stepThread hcr rfl]
    cases hpc : s.pc <;> cases e <;> simp [answers, stepThread, hpc]
  | wake =>
    rw [step_eq_stepThread hcr rfl]
    cases hpc : s.pc <;> cases hl : s.lock <;> simp [answers, stepThread, hpc, hl]
  | call | clearInUse | advanceTail =>
    rw [step_eq_stepThread hcr rfl]
    cases hpc : s.pc <;> simp [answers, stepThread, hpc]

theorem run_dataError {s : St n} {ops : List (Op n)} (hops : ∀ o ∈ ops, o.isStart = false)
    (hcr : (run step s ops).crashed = false) : (run step s ops).svc.dataError = .invalidData ↔
      s.svc.dataError = .invalidData ∨ .invalidData ∈ answers s ops := by
  induction ops generalizing s with
  | nil => simp [answers]
  | cons o ops ih =>
    obtain ⟨ho, hops⟩ := List.forall_mem_cons.1 hops
    have hcr' : s.crashed = false := by
      by_contra hc
      have hstay : ∀ l : List (Op n), (run step s l).crashed = true := fun l =>
        run_inv_all (I := fun t : St n => t.crashed = true) (fun t o ht => by simp [step, ht]) (by simpa using hc) l
      rw [hstay] at hcr
      cases hcr
    rw [run_cons] at hcr ⊢
    rw [ih hops hcr, step_dataError hcr' ho, or_assoc]
    simp [answers]

/-! ## The verdict at a state -/

theorem Serving.outstanding {s : St n} {q : List Chunk} (h : Serving s q) : Outstanding s ↔ q ≠ [] := by
  have hlock := h.lock
  have hlen := congrArg List.length h.history
  rw [List.length_append, List.length_drop] at hlen
  have hpos : q ≠ [] ↔ 0 < q.length := List.length_pos_iff.symm
  rw [hpos, Outstanding]
  cases hpc : s.pc <;> simp only [hpc, Pc.inHand, Pc.given, or_true, true_iff] at hlock hlen ⊢ <;> omega

/-- some slot is in use exactly when a chunk is outstanding -/
theorem poolInUse_iff {s : St n} (h : QueueInv s) (hst : s.svc.updateStarted = true) :
    poolInUse s.svc = true ↔ Outstanding s := by
  obtain ⟨hst', -⟩ | ⟨-, q, hq⟩ := h
  · rw [hst] at hst'
    cases hst'
  · have hnil := Ring.holds_nil_iff hq.holds
    simp only [occ_none] at hnil
    rw [hq.outstanding, Ne, hnil, poolInUse, List.any_eq_true]
    simp

theorem bytesGiven_eq {k : ℕ} {s : St n} (h : QueueInv s) (ho : ¬ Outstanding s) : bytesGiven k s = bytesQueued k s := by
  have hle : s.queued.length ≤ s.calls.length := by
    by_contra hlt
    exact ho (Or.inl (by omega))
  rw [bytesGiven, bytesQueued, h.calls_initial.eq_of_length_le hle]

theorem complete_eq {g : ℕ} {s : Svc n} (hg : s.current = g) (hst : s.updateStarted = true) :
    processFirmwareUpdateComplete g s =
      if poolInUse s then (s, ⟨.busy, some .downloadSuccess⟩)
      else (freeAndStopService s, ⟨if s.dataError = .invalidData then .error else .cont,
        some (if s.headOffset ≠ s.totalSize then .downloadNotComplete else .downloadSuccess)⟩) := by
  simp [processFirmwareUpdateComplete, hg, hst]

/-- `total_size` stands for `code_size`: it can hold it, or nothing is ever taken over and it is not 0 -/
def SizeKept (T c : ℕ) : Prop := T < 2 ^ 32 ∨ c = 0 ∧ u32 T ≠ 0

instance (T c : ℕ) : Decidable (SizeKept T c) := inferInstanceAs (Decidable (_ ∨ _))

theorem Counters.head_iff {g T c k : ℕ} {s : St n} (h : Counters g T c k s) (hT : SizeKept T c) :
    s.svc.headOffset = s.svc.totalSize ↔ bytesQueued k s = T := by
  rw [h.sum, h.total]
  rcases hT with hT | ⟨hc, hT⟩
  · rw [u32_eq hT]
  · have hT0 : T ≠ 0 := by
      rintro rfl
      exact hT rfl
    rw [h.zero hc]
    exact iff_of_false (fun e => hT e.symm) fun e => hT0 e.symm

theorem freeAndStopService_releases {s : Svc n} {i : Fin (n + 1)} {b : ℕ}
    (hb : (s.chunkPool i).data = some b) : b ∈ (freeAndStopService s).heap.frees := by
  have hfrees : (freeAndStopService s).heap.frees = s.heap.frees ++
      (List.finRange (n + 1)).filterMap fun i => (s.chunkPool i).data :=
    freePool_releases (List.nodup_finRange (n + 1)) _ _
  rw [hfrees, List.mem_append, List.mem_filterMap]
  exact Or.inr ⟨i, List.mem_finRange i, hb⟩

theorem Downloading.verdict {g T c k : ℕ} {s : St n} (h : Downloading g T c k s) (hT : SizeKept T c)
    (hst : s.svc.updateStarted = true) {as : List DataError}
    (he : s.svc.dataError = .invalidData ↔ .invalidData ∈ as) : Verdict g T k as s := by
  have hc := h.counters hst
  have hpool := poolInUse_iff h.queue hst
  have hhead := hc.head_iff hT
  have hcomplete := complete_eq hc.current hst
  by_cases ho : Outstanding s
  · rw [if_pos (hpool.2 ho)] at hcomplete
    constructor <;> simp [hcomplete, ho]
  · rw [if_neg fun hp => ho (hpool.1 hp)] at hcomplete
    rw [← bytesGiven_eq h.queue ho] at hhead
    by_cases hinv : s.svc.dataError = .invalidData
    · have hmem := he.1 hinv
      constructor
      case ends => exact fun _ => ⟨by simp [hcomplete], fun i => ⟨by simp [hcomplete, freeAndStopService_data],
        fun b hb => by rw [hcomplete]; exact freeAndStopService_releases hb⟩⟩
      all_goals simp [hcomplete, ho, hinv, hmem]
    · have hmem : .invalidData ∉ as := fun hm => hinv (he.2 hm)
      constructor
      case ends => exact fun _ => ⟨by simp [hcomplete], fun i => ⟨by simp [hcomplete, freeAndStopService_data],
        fun b hb => by rw [hcomplete]; exact freeAndStopService_releases hb⟩⟩
      all_goals simp [hcomplete, ho, hinv, hmem, ← hhead]

/-! ## A run that takes over any number of bytes -/

theorem answers_append (s : St n) (a b : List (Op n)) :
    answers s (a ++ b) = answers s a ++ answers (run step s a) b := by
  induction a generalizing s with
  | nil => rfl
  | cons o a ih => simp [answers, ih]

/-- one iteration of the thread, the user being content -/
def serve : List (Op n) := [.wake, .call, .ret .none, .clearInUse, .advanceTail]

theorem run_serve {s : St n} (hcr : s.crashed = false) (hpc : s.pc = .waiting) (hl : s.lock = 1) :
    ∃ pool tail calls, run step s serve =
      { s with lock := 0, svc := { s.svc with chunkPool := pool, chunkPoolTail := tail }, calls := calls } := by
  obtain ⟨svc, lock, pc, crashed, download, queued, calls⟩ := s
  simp only at hcr hpc hl
  subst hcr hpc hl
  exact ⟨_, _, _, rfl⟩

theorem answers_serve {s : St n} (hcr : s.crashed = false) (hpc : s.pc = .waiting) (hl : s.lock = 1) :
    answers s serve = [.none] := by
  obtain ⟨svc, lock, pc, crashed, download, queued, calls⟩ := s
  simp only at hcr hpc hl
  subst hcr hpc hl
  rfl

/-- the download has K bytes by `total_size`, what has been taken over is queued, and the thread has nothing to do -/
structure Ready (K c : ℕ) (s : St n) : Prop where
  queue : QueueInv s
  running : s.crashed = false
  started : s.svc.updateStarted = true
  pc : s.pc = .waiting
  lock : s.lock = 0
  noError : s.svc.dataError ≠ .invalidData
  processed : s.svc.ccfsmBytesProcessed = 0
  tail : s.svc.tailOffset = s.svc.headOffset
  total : s.svc.totalSize = K
  chunk : dataChunkSize s.svc = c

/-- a block of the next m bytes -/
def nextBlock (m : ℕ) (s : Svc n) : DataReq := ⟨s.current, s.headOffset, fun _ => 0, m⟩

theorem Ready.not_outstanding {K c : ℕ} {s : St n} (h : Ready K c s) : ¬ Outstanding s := by
  have hcalls := h.queue.all_given h.pc h.lock
  simp [Outstanding, hcalls, h.pc, Pc.given]

/-- a block that ends where the chunk or the image ends is accepted, and completes a chunk -/
theorem Ready.next {K c m : ℕ} {s : St n} (h : Ready K c s) (hc : c ≠ 0) (hK : K < 2 ^ 32) (hlt : s.svc.headOffset < K)
    (hm : m = min (c - s.svc.headOffset % c) (K - s.svc.headOffset)) :
    0 < m ∧ accepts (nextBlock m s.svc) s.svc = true ∧ pieceLength (nextBlock m s.svc) s.svc = m ∧
      completes (nextBlock m s.svc) s.svc = true ∧ s.svc.headOffset + m ≤ K := by
  have hmod := Nat.mod_lt s.svc.headOffset (Nat.pos_of_ne_zero hc)
  have hfree : (s.svc.chunkPool s.svc.chunkPoolHead).inUse = false :=
    poolInUse_false (fun hp => h.not_outstanding ((poolInUse_iff h.queue h.started).1 hp)) _
  have hlen : pieceLength (nextBlock m s.svc) s.svc = m := by
    rw [pieceLength, nextBlock, h.processed, h.tail, h.chunk, sizeSub_eq (Nat.zero_le _) (by simp only; omega)]
    simp only
    omega
  have hend : pieceEnd (nextBlock m s.svc) s.svc = s.svc.headOffset + m := by
    rw [pieceEnd_eq (by rw [hlen, h.tail]; omega), hlen, h.tail]
  refine ⟨by omega, ?_, hlen, ?_, by omega⟩
  · have hoff : s.svc.headOffset = u32Sub s.svc.tailOffset s.svc.ccfsmBytesProcessed := by
      rw [h.processed, h.tail, u32Sub_eq (Nat.zero_le _) (by omega), Nat.sub_zero]
    simp only [accepts, nextBlock, h.started, ← hoff, hfree, h.chunk]
    simp [h.noError, hc]
  · have hfull : s.svc.headOffset + m = K ∨ (s.svc.headOffset + m) % c = 0 := by
      rcases Nat.le_total (c - s.svc.headOffset % c) (K - s.svc.headOffset) with hle | hle
      · have hsum : s.svc.headOffset + m = c * (s.svc.headOffset / c + 1) := by
          have := Nat.div_add_mod s.svc.headOffset c
          rw [Nat.mul_add, Nat.mul_one]
          omega
        exact Or.inr (hsum ▸ Nat.mul_mod_right _ _)
      · exact Or.inl (by omega)
    simp [completes, h.tail, hend, h.total, h.chunk, hfull]

/-- one chunk is taken over, given to the user and done with -/
theorem Ready.round {K c : ℕ} {s : St n} (h : Ready K c s) (hc : c ≠ 0) (hK : K < 2 ^ 32) (hlt : s.svc.headOffset < K) :
    ∃ ops, Along step Below32 s ops ∧ .invalidData ∉ answers s ops ∧ Ready K c (run step s ops) ∧
      s.svc.headOffset < (run step s ops).svc.headOffset ∧ (run step s ops).svc.headOffset ≤ K := by
  obtain ⟨hpos, ha, hlen, hcomplete, hle⟩ := h.next hc hK hlt rfl
  set m := min (c - s.svc.headOffset % c) (K - s.svc.headOffset)
  set d := nextBlock m s.svc
  have hbelow : Below32 s (.data d) := fun _ => by rw [hlen, h.tail]; omega
  have hend : pieceEnd d s.svc = s.svc.headOffset + m := by rw [pieceEnd_eq (hbelow ha), hlen, h.tail]
  obtain ⟨htail, htarget, hcurrent, herr, hprocessed⟩ := consumeData_frame d s.svc
  have htaken := @consumeData_taken n d s.svc
  have hq : (consumeData (dataChunkSize s.svc) d s.svc).2.2 = true := htaken.queued.trans hcomplete
  set t := (consumeData (dataChunkSize s.svc) d s.svc).1
  have hstep : step s (.data d) = { s with
      svc := t, lock := 1, queued := s.queued ++ [slotChunk { s with svc := t } s.svc.chunkPoolHead] } := by
    unfold step
    rw [if_neg (by simp [h.running])]
    simp only [stepData, data_of_accepts ha, hq, if_true, h.lock]
    rfl
  have hcr1 : (step s (.data d)).crashed = false := by rw [hstep]; exact h.running
  have hpc1 : (step s (.data d)).pc = .waiting := by rw [hstep]; exact h.pc
  have hl1 : (step s (.data d)).lock = 1 := by rw [hstep]
  have hq1 : QueueInv (step s (.data d)) := step_queueInv_of_not_start h.queue rfl
  obtain ⟨pool, tail, calls, hrun⟩ := run_serve hcr1 hpc1 hl1
  have hend' : (run step s (.data d :: serve)) = run step (step s (.data d)) serve := rfl
  refine ⟨.data d :: serve, ⟨hbelow, trivial, trivial, trivial, trivial, trivial, trivial⟩, ?_, ?_, ?_, ?_⟩
  · have hans : answers s (.data d :: serve) = answers (step s (.data d)) serve := by
      cases hp : s.pc <;> simp [answers, hp]
    rw [hans, answers_serve hcr1 hpc1 hl1]
    simp
  · have hqueue : QueueInv (run step (step s (.data d)) serve) :=
      hq1.run_thread (by simp [serve, Op.isThread])
    rw [hend']
    rw [hrun, hstep] at hqueue ⊢
    constructor
    case queue => exact hqueue
    case running => exact h.running
    case started => exact htaken.started.trans h.started
    case pc => exact h.pc
    case lock => rfl
    case noError => exact fun he => h.noError (herr.symm.trans he)
    case processed =>
      have := hprocessed (by rw [h.tail])
      rw [hlen, h.processed, Nat.zero_add, u32_eq (by omega)] at this
      simpa [d, nextBlock] using this
    case tail =>
      have := htaken.head
      rw [if_pos hcomplete] at this
      exact htail.trans this.symm
    case total => exact htaken.totalSize.trans h.total
    case chunk =>
      rw [← h.chunk, dataChunkSize, dataChunkSize]
      simp only [htarget, hcurrent]
  all_goals
    have hhead := htaken.head
    rw [if_pos hcomplete, hend] at hhead
    rw [hend', hrun, hstep]
    simp only [hhead]
    omega

/-- the connector can bring the download to the end of the image as `total_size` has it -/
theorem Ready.reach {K c : ℕ} {s : St n} (h : Ready K c s) (hc : c ≠ 0) (hK : K < 2 ^ 32) (hle : s.svc.headOffset ≤ K) :
    ∃ ops, Along step Below32 s ops ∧ .invalidData ∉ answers s ops ∧ Ready K c (run step s ops) ∧
      (run step s ops).svc.headOffset = K := by
  induction hj : K - s.svc.headOffset using Nat.strong_induction_on generalizing s with
  | _ j ih =>
    rcases hle.lt_or_eq with hlt | heq
    · obtain ⟨ops, hops, hans, hready, hmore, hle'⟩ := h.round hc hK hlt
      obtain ⟨ops', hops', hans', hready', hhead⟩ := ih _ (by omega) hready hle' rfl
      refine ⟨ops ++ ops', (along_append _ _ _ _).2 ⟨hops, hops'⟩, ?_, by rwa [run_append], by rwa [run_append]⟩
      rw [answers_append, List.mem_append]
      exact not_or.2 ⟨hans, hans'⟩
    · exact ⟨[], trivial, by simp [answers], h, heq⟩

/-! ## Main results -/

theorem begin_downloading {s : St n} {r : StartReq} {request : RequestError} {ok : Fin (n + 1) → Bool}
    (h : Accepted s r request ok) :
    Downloading r.targetNumber r.codeSize (u32 (chunkSizeOf s r)) s.calls.length (step s (.start r request ok)) := by
  obtain ⟨-, hset⟩ := setUp_of_success h.success
  have hserving := hset.serving ⟨Or.inl h.pc, h.lock, h.history⟩ (fun hp => by rw [h.pc] at hp; cases hp) (s.download + 1)
  have hbegin := begin_svc h.running h.success
  simp only [Drive.begin] at hbegin
  have hcalls : s.queued.length = s.calls.length := congrArg List.length h.history
  rw [hbegin]
  obtain ⟨hhead, htail, -⟩ := hset.offsets
  refine ⟨Or.inr ⟨hset.started, [], hserving⟩, fun _ => ?_⟩
  constructor
  case len => exact hcalls.ge
  case current => exact hset.current
  case total => exact hset.totalSize
  case chunk =>
    simp only [dataChunkSize, hset.target, hset.current, Function.update_self]
    rfl
  case sum => simp [bytesQueued, hhead, ← hcalls]
  case head_le => simp [hhead, htail]
  case tail_lt => simp [htail]
  case zero => exact fun _ => hhead

theorem begin_ready {s : St n} {r : StartReq} {request : RequestError} {ok : Fin (n + 1) → Bool}
    (h : Accepted s r request ok) :
    Ready (u32 r.codeSize) (u32 (chunkSizeOf s r)) (step s (.start r request ok)) := by
  have hdown := begin_downloading h
  obtain ⟨-, hset⟩ := setUp_of_success h.success
  have hbegin := begin_svc h.running h.success
  simp only [Drive.begin] at hbegin
  obtain ⟨hhead, htail, hprocessed⟩ := hset.offsets
  have hstarted : (step s (.start r request ok)).svc.updateStarted = true := by
    rw [hbegin]
    exact hset.started
  have hc := hdown.counters hstarted
  constructor
  case queue => exact hdown.queue
  case running => rw [hbegin]; exact h.running
  case started => exact hstarted
  case pc => rw [hbegin]; exact h.pc
  case lock => rw [hbegin]; exact h.lock
  case noError => rw [hbegin]; simp [hset.dataError]
  case processed => rw [hbegin]; exact hprocessed
  case tail => rw [hbegin]; simp [hhead, htail]
  case total => exact hc.total
  case chunk => exact hc.chunk

/-- **The verdict on a download.** Take an accepted start with the thread waiting. Whatever the connector, the thread and the
user do then, short of another start and with fewer than 2^32 bytes taken over in all, a complete callback for the target
answers as it should for as long as the download is in progress, in every run, exactly when `total_size` stands for
`code_size`. -/
theorem verdict_iff {s : St n} {r : StartReq} {request : RequestError} {ok : Fin (n + 1) → Bool}
    (h : Accepted s r request ok) :
    (∀ ops, Along step Below32 (step s (.start r request ok)) ops →
      (run step (step s (.start r request ok)) ops).crashed = false →
      (run step (step s (.start r request ok)) ops).svc.updateStarted = true →
      Verdict r.targetNumber r.codeSize s.calls.length (answers (step s (.start r request ok)) ops)
        (run step (step s (.start r request ok)) ops)) ↔
      SizeKept r.codeSize (u32 (chunkSizeOf s r)) := by
  have hdown := begin_downloading h
  have hready := begin_ready h
  set s₀ := step s (.start r request ok)
  have hnoStart : ∀ {ops : List (Op n)} {t : St n}, Along step Below32 t ops → ∀ o ∈ ops, o.isStart = false := by
    intro ops
    induction ops with
    | nil => simp
    | cons o ops ih =>
      intro t hops
      exact List.forall_mem_cons.2 ⟨hops.1.isStart, ih hops.2⟩
  constructor
  · intro hall
    by_contra hT
    simp only [SizeKept, not_or, not_lt, not_and, not_not] at hT
    obtain ⟨hT, hzero⟩ := hT
    have hK := u32_lt r.codeSize
    have hhead : s₀.svc.headOffset = 0 ∧ s₀.svc.headOffset ≤ u32 r.codeSize := by
      have hsum := (hdown.counters hready.started).sum
      obtain ⟨-, hset⟩ := setUp_of_success h.success
      have : s₀.svc.headOffset = 0 := by
        have hbegin := begin_svc h.running h.success
        simp only [Drive.begin] at hbegin
        simp only [s₀, hbegin]
        exact hset.offsets.1
      exact ⟨this, by omega⟩
    have hreach : ∃ ops, Along step Below32 s₀ ops ∧ .invalidData ∉ answers s₀ ops ∧
        Ready (u32 r.codeSize) (u32 (chunkSizeOf s r)) (run step s₀ ops) ∧
        (run step s₀ ops).svc.headOffset = u32 r.codeSize := by
      by_cases hc : u32 (chunkSizeOf s r) = 0
      · exact ⟨[], trivial, by simp [answers], hready, hhead.1.trans (hzero hc).symm⟩
      · exact hready.reach hc hK hhead.2
    obtain ⟨ops, hops, hans, hend, hfull⟩ := hreach
    have hd := run_inv step_downloading hdown hops
    have hcount := hd.counters hend.started
    have hv := hall ops hops hend.running hend.started
    have hpool : ¬ poolInUse (run step s₀ ops).svc = true := fun hp =>
      hend.not_outstanding ((poolInUse_iff hd.queue hend.started).1 hp)
    have hsuccess := complete_eq hcount.current hend.started
    rw [if_neg hpool, if_neg hend.noError, if_neg (by rw [hfull, hcount.total]; simp)] at hsuccess
    have hgiven := (hv.success.1 (by rw [hsuccess])).2.1
    rw [bytesGiven_eq hd.queue hend.not_outstanding, hcount.sum, hfull] at hgiven
    omega
  · intro hT ops hops hcr hst
    refine (run_inv step_downloading hdown hops).verdict hT hst ?_
    rw [run_dataError (hnoStart hops) hcr]
    exact or_iff_right hready.noError

/-- 6 bytes announced for a target with chunks of 4 -/
theorem verdict_six :
    (∀ ops, Along step Below32 (step (St.fresh 1 1 fun _ => ⟨0, 4⟩) (.start ⟨0, 6⟩ .none fun _ => true)) ops →
      (run step (step (St.fresh 1 1 fun _ => ⟨0, 4⟩) (.start ⟨0, 6⟩ .none fun _ => true)) ops).crashed = false →
      (run step (step (St.fresh 1 1 fun _ => ⟨0, 4⟩) (.start ⟨0, 6⟩ .none fun _ => true)) ops).svc.updateStarted = true →
      Verdict 0 6 0 (answers (step (St.fresh 1 1 fun _ => ⟨0, 4⟩) (.start ⟨0, 6⟩ .none fun _ => true)) ops)
        (run step (step (St.fresh 1 1 fun _ => ⟨0, 4⟩) (.start ⟨0, 6⟩ .none fun _ => true)) ops)) ↔
      SizeKept 6 4 :=
  verdict_iff (accepted_six 4)

/-- **A code size of 2^32** is 0 in `total_size`: a complete is answered with success when nothing has been given to the
user. -/
theorem wrapped_size : ¬ ∀ (n : ℕ) (s : St n) (r : StartReq) (request : RequestError) (ok : Fin (n + 1) → Bool),
    Accepted s r request ok → ∀ ops, Along step Below32 (step s (.start r request ok)) ops →
      (run step (step s (.start r request ok)) ops).crashed = false →
      (run step (step s (.start r request ok)) ops).svc.updateStarted = true →
      Verdict r.targetNumber r.codeSize s.calls.length (answers (step s (.start r request ok)) ops)
        (run step (step s (.start r request ok)) ops) := by
  intro h
  have hv := h 1 (St.fresh 1 1 fun _ => ⟨0, 4⟩) ⟨0, 2 ^ 32⟩ .none (fun _ => true) ⟨rfl, rfl, rfl, rfl, rfl⟩ [] trivial
    rfl rfl
  exact absurd (hv.success.1 (by decide)).2.1 (by decide)

end CcApi.Firmware
