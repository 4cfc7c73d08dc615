/-
The offsets of a download (`ccapi_firmware_update_handler.c`).

The data callback keeps three offsets, all `uint32_t`: where the chunk at hand begins (`head_offset`), how far the image has
been taken over (`tail_offset`), and how far the block at hand has been (`ccfsm_bytes_processed`). It moves them at three
places, a block is cut off where its chunk is full, and it is presented again any number of times.

- `Aligned`: the offsets, the block that waits for its answer and the bytes presented so far, tied together.
- `step_aligned`: every step of the connector, the thread and the user keeps it, wherever the thread stood when the download
  began.
- `offsets_iff`: the offsets are `Sound` throughout every run exactly when `chunk_size` fits into a `uint32_t` or the image
  fits into one chunk as the callback cuts it.
- `misaligned`: a `chunk_size` above 2^32 is narrowed, and `head_offset` is no multiple of it.
-/
import CcApi.Firmware.Ownership
import CcApi.Firmware.SizeBound

namespace CcApi.Firmware

open Lib Lib.Runs

variable {n : ℕ}

/-! ## What is sound -/

/-- `bytes_to_copy` -/
def bytesToCopy (d : DataReq) (s : Svc n) : ℕ :=
  let roomInChunk := dataChunkSize s - s.tailOffset % dataChunkSize s
  let sourceBytesRemaining := sizeSub d.bytesUsed s.ccfsmBytesProcessed
  if sourceBytesRemaining > roomInChunk then roomInChunk else sourceBytesRemaining

/-- the copy stays within the block and within the head slot's buffer, and no sum or difference of the callback wraps -/
structure Copies (chunkSize : ℕ) (d : DataReq) (s : Svc n) : Prop where
  some_left : 0 < bytesToCopy d s
  source : s.ccfsmBytesProcessed + bytesToCopy d s ≤ d.bytesUsed
  buffer : ∃ b, (s.chunkPool s.chunkPoolHead).data = some b ∧ s.heap.size b = chunkSize
  slot : s.tailOffset % dataChunkSize s + bytesToCopy d s ≤ chunkSize
  remaining : sizeSub d.bytesUsed s.ccfsmBytesProcessed + s.ccfsmBytesProcessed = d.bytesUsed
  next : u32 (s.tailOffset + bytesToCopy d s) = s.tailOffset + bytesToCopy d s
  size : u32Sub (s.tailOffset + bytesToCopy d s) s.headOffset + s.headOffset = s.tailOffset + bytesToCopy d s
  processed : u32 (s.ccfsmBytesProcessed + bytesToCopy d s) = s.ccfsmBytesProcessed + bytesToCopy d s

structure Sound (chunkSize codeSize : ℕ) (x : Drive n) : Prop where
  running : x.st.crashed = false
  head_le : x.st.svc.headOffset ≤ x.st.svc.tailOffset
  room : x.st.svc.tailOffset - x.st.svc.headOffset < chunkSize
  aligned : chunkSize ∣ x.st.svc.headOffset ∨ x.st.svc.headOffset = x.st.svc.totalSize
  within : ∀ d, x.pending = some d → x.st.svc.ccfsmBytesProcessed < d.bytesUsed
  /-- the difference of the offset check does not wrap -/
  check : u32Sub x.st.svc.tailOffset x.st.svc.ccfsmBytesProcessed + x.st.svc.ccfsmBytesProcessed = x.st.svc.tailOffset
  copies : ∀ d, Legal codeSize x (.data d) → accepts d x.st.svc = true → Copies chunkSize d x.st.svc

/-! ## The download -/

/-- a step of the service, with the connector in front of it -/
def Drive.act (x : Drive n) : Op n → Drive n
  | .data d => x.step (.data d)
  | o => { x with st := Firmware.step x.st o }

/-- the blocks are legal, and no other download is started -/
def Allowed (codeSize : ℕ) (x : Drive n) : Op n → Prop
  | .data d => Legal codeSize x (.data d)
  | .start .. => False
  | _ => True

/-- the callback comes to the offset check -/
def Checking (s : Svc n) : Prop := s.updateStarted = true ∧ s.dataError ≠ .invalidData

/-- the offsets of a download of the image; c is the size of the pool's buffers -/
structure Aligned (im : Image) (c : ℕ) (x : Drive n) : Prop where
  running : x.st.crashed = false
  totalSize : x.st.svc.totalSize = im.total
  chunk : dataChunkSize x.st.svc = im.chunk
  len : x.stream.length ≤ im.total
  head : ∃ K, x.st.svc.headOffset = min (K * im.chunk) im.total
  head_le : x.st.svc.headOffset ≤ x.st.svc.tailOffset
  tail_le : x.st.svc.tailOffset ≤ x.stream.length
  room : x.st.svc.tailOffset < im.total → x.st.svc.tailOffset < x.st.svc.headOffset + im.chunk
  done : x.st.svc.tailOffset = im.total → x.st.svc.headOffset = im.total
  begins : x.st.svc.ccfsmBytesProcessed ≤ x.st.svc.tailOffset
  within : ∀ d, x.pending = some d → x.st.svc.ccfsmBytesProcessed < d.bytesUsed
  position : Checking x.st.svc → Position x
  buffers : x.st.svc.updateStarted = true →
    ∀ i, ∃ b, (x.st.svc.chunkPool i).data = some b ∧ x.st.svc.heap.size b = c

/-! ## Steps other than blocks -/

/-- what the steps of the thread, complete and abort leave alone -/
structure Undisturbed (s t : Svc n) : Prop where
  offsets : t.headOffset = s.headOffset ∧ t.tailOffset = s.tailOffset ∧ t.ccfsmBytesProcessed = s.ccfsmBytesProcessed
  total : t.totalSize = s.totalSize
  chunk : dataChunkSize t = dataChunkSize s
  checking : Checking t → Checking s
  buffers : t.updateStarted = true → s.updateStarted = true ∧ t.heap.size = s.heap.size ∧
    ∀ i, (t.chunkPool i).data = (s.chunkPool i).data

theorem Undisturbed.refl (s : Svc n) : Undisturbed s s :=
  ⟨⟨rfl, rfl, rfl⟩, rfl, rfl, id, fun hst => ⟨hst, rfl, fun _ => rfl⟩⟩

theorem undisturbed_stop (s : Svc n) : Undisturbed s (freeAndStopService s) :=
  ⟨⟨rfl, rfl, rfl⟩, rfl, rfl, fun ht => absurd ht.1 (by simp), fun ht => by simp at ht⟩

theorem undisturbed_thread (s : St n) (o : Op n) : Undisturbed s.svc (stepThread s o).svc := by
  obtain ⟨pool, tail, e, l, pc, calls, ht, hdata, -, he⟩ := stepThread_frame s o
  rw [ht]
  exact ⟨⟨rfl, rfl, rfl⟩, rfl, rfl, fun hc => ⟨hc.1, he hc.2⟩, fun hst => ⟨hst, rfl, hdata⟩⟩

theorem Aligned.undisturbed {im : Image} {c : ℕ} {x : Drive n} (h : Aligned im c x) {st : St n}
    (hcr : st.crashed = false) (hu : Undisturbed x.st.svc st.svc) : Aligned im c { x with st := st } := by
  obtain ⟨⟨hhead, htail, hprocessed⟩, htotal, hchunk, hchecking, hbuffers⟩ := hu
  refine
    { running := hcr
      totalSize := htotal.trans h.totalSize
      chunk := hchunk.trans h.chunk
      len := h.len
      head := hhead ▸ h.head
      head_le := by rw [hhead, htail]; exact h.head_le
      tail_le := by rw [htail]; exact h.tail_le
      room := by rw [hhead, htail]; exact h.room
      done := by rw [hhead, htail]; exact h.done
      begins := by rw [hprocessed, htail]; exact h.begins
      within := by rw [hprocessed]; exact h.within
      position := fun hc => ?_
      buffers := fun hst i => ?_ }
  · have hpos := h.position (hchecking hc)
    unfold Position at hpos ⊢
    simpa only [hprocessed, htail] using hpos
  · obtain ⟨hst', hsize, hdata⟩ := hbuffers hst
    rw [hdata, hsize]
    exact h.buffers hst' i

/-! ## A block -/

theorem bytesToCopy_eq {d : DataReq} {s : Svc n} (hb : s.ccfsmBytesProcessed ≤ d.bytesUsed) (hlt : d.bytesUsed < 2 ^ 32) :
    bytesToCopy d s =
      min (d.bytesUsed - s.ccfsmBytesProcessed) (dataChunkSize s - s.tailOffset % dataChunkSize s) := by
  rw [← sizeSub_eq hb (by omega)]
  exact piece_eq d s (dataChunkSize s)

theorem accepts_checking {d : DataReq} {s : Svc n} (h : accepts d s = true) : Checking s := by
  simp only [accepts, Bool.and_eq_true, decide_eq_true_eq] at h
  obtain ⟨⟨⟨⟨⟨-, hst⟩, herr⟩, -⟩, -⟩, -⟩ := h
  exact ⟨hst, herr⟩

/-- the piece that an accepted call takes over -/
theorem Aligned.takes {im : Image} {c : ℕ} {x : Drive n} (h : Aligned im c x) (hT : im.total < 2 ^ 32) {d : DataReq}
    (hp : x.pending = some d) (ha : accepts d x.st.svc = true) :
    ∃ K full w, w.size = x.st.svc.heap.size ∧
      Within im.chunk im.total K x.st.svc.tailOffset (bytesToCopy d x.st.svc) ∧ x.st.svc.headOffset = K * im.chunk ∧
      x.st.svc.tailOffset + bytesToCopy d x.st.svc ≤ x.stream.length ∧
      x.st.svc.ccfsmBytesProcessed + bytesToCopy d x.st.svc ≤ d.bytesUsed ∧
      (full = true ↔ x.st.svc.tailOffset + bytesToCopy d x.st.svc = K * im.chunk + Pieces.size im.chunk im.total K) ∧
      processFirmwareUpdateData d x.st.svc = some (taken d (bytesToCopy d x.st.svc) w full x.st.svc,
        ⟨if x.st.svc.ccfsmBytesProcessed + bytesToCopy d x.st.svc = d.bytesUsed then .cont else .busy, some .success⟩,
        full) := by
  have hacc := ha
  simp only [accepts, Bool.and_eq_true, decide_eq_true_eq, Bool.not_eq_true'] at hacc
  obtain ⟨⟨⟨⟨⟨htarget, hst⟩, herr⟩, hoff⟩, hfree⟩, -⟩ := hacc
  have hpos := h.position ⟨hst, herr⟩
  unfold Position at hpos
  rw [hp] at hpos
  obtain ⟨hlt, hpos, hsuf⟩ := hpos
  have hblock := hsuf.length_le
  rw [d.bytes_length] at hblock
  obtain ⟨K, hhead⟩ := h.head
  have hlen := h.len
  obtain ⟨m, full, hm, hw, hstart, hend, hbu, hfull, heq⟩ := data_takes hT h.totalSize h.chunk htarget hst herr hoff hfree
    hhead h.head_le h.room hlt hpos h.len hblock
  have hcopy : m = bytesToCopy d x.st.svc := by rw [bytesToCopy_eq hlt.le (by omega), h.chunk, hm]
  obtain ⟨mem, hmem⟩ := copyToHead_frame d (x.st.svc.tailOffset - x.st.svc.headOffset) m x.st.svc
  rw [← hcopy]
  exact ⟨K, full, { x.st.svc.heap with mem := mem }, rfl, hw, hstart, hend, hbu, hfull, (heq _ hmem).2⟩

/-- what a piece of m bytes leaves of the record -/
structure Advanced (d : DataReq) (m : ℕ) (full : Bool) (s t : Svc n) : Prop where
  tail : t.tailOffset = s.tailOffset + m
  head : t.headOffset = if full then s.tailOffset + m else s.headOffset
  processed : t.ccfsmBytesProcessed = if s.ccfsmBytesProcessed + m = d.bytesUsed then 0 else s.ccfsmBytesProcessed + m
  total : t.totalSize = s.totalSize
  chunk : dataChunkSize t = dataChunkSize s
  checking : t.updateStarted = s.updateStarted ∧ t.dataError = s.dataError
  data : ∀ i, (t.chunkPool i).data = (s.chunkPool i).data

theorem taken_advanced (d : DataReq) (m : ℕ) (w : Heap) (full : Bool) (s : Svc n) :
    Advanced d m full s (taken d m w full s) ∧ (taken d m w full s).heap = w := by
  cases full with
  | false => exact ⟨⟨rfl, rfl, rfl, rfl, rfl, ⟨rfl, rfl⟩, fun _ => rfl⟩, rfl⟩
  | true => exact ⟨⟨rfl, rfl, rfl, rfl, rfl, ⟨rfl, rfl⟩, queueHead_data _ _ _⟩, rfl⟩

theorem Aligned.consume {im : Image} {c : ℕ} {x : Drive n} (h : Aligned im c x) (hT : im.total < 2 ^ 32) {d : DataReq}
    (hp : x.pending = some d) (ha : accepts d x.st.svc = true) :
    Aligned im c { x with st := stepData d x.st, pending := if answersBusy d x.st.svc then some d else none } := by
  obtain ⟨K, full, w, hsize, hw, hstart, hend, hbu, hfull, hdata⟩ := h.takes hT hp ha
  set m := bytesToCopy d x.st.svc
  obtain ⟨hadv, hheap⟩ := taken_advanced d m w full x.st.svc
  obtain ⟨hst, hcr⟩ : (stepData d x.st).svc = taken d m w full x.st.svc ∧ (stepData d x.st).crashed = x.st.crashed := by
    simp only [stepData, hdata]
    cases full <;> exact ⟨rfl, rfl⟩
  have hbusy : answersBusy d x.st.svc = decide (x.st.svc.ccfsmBytesProcessed + m ≠ d.bytesUsed) := by
    simp only [answersBusy, hdata]
    split_ifs with he <;> simp [he]
  rw [← hst] at hadv hheap
  have hle := h.head_le
  have hwle := hw.le_total
  have hwend := hw.end_le
  have hsizeK : Pieces.size im.chunk im.total K = min im.chunk (im.total - K * im.chunk) := rfl
  have hold := h.position (accepts_checking ha)
  unfold Position at hold
  rw [hp] at hold
  obtain ⟨-, hold, hsuf⟩ := hold
  have hpos : Position { x with st := stepData d x.st, pending := if answersBusy d x.st.svc then some d else none } := by
    unfold Position
    simp only [hbusy, hadv.processed, hadv.tail, decide_eq_true_eq, ne_eq, ite_not]
    split_ifs with he
    · exact ⟨rfl, by omega⟩
    · exact ⟨by omega, by omega, hsuf⟩
  refine
    { running := hcr.trans h.running
      totalSize := hadv.total.trans h.totalSize
      chunk := hadv.chunk.trans h.chunk
      len := h.len
      head := ?_
      head_le := ?_
      tail_le := by rw [hadv.tail]; exact hend
      room := fun hlt => ?_
      done := fun he => ?_
      begins := ?_
      within := fun d' hd' => ?_
      position := fun _ => hpos
      buffers := fun hst' i => ?_ }
  · rw [hadv.head]
    cases full with
    | false => exact h.head
    | true =>
      have hfill := hfull.1 rfl
      exact ⟨K + 1, by rw [if_pos rfl, Nat.add_mul, Nat.one_mul]; omega⟩
  · rw [hadv.head, hadv.tail]
    split_ifs <;> omega
  · rw [hadv.tail] at hlt ⊢
    rw [hadv.head]
    split_ifs with hf
    · have := h.room (by omega)
      omega
    · have hne := mt hfull.2 hf
      omega
  · rw [hadv.tail] at he
    rw [hadv.head]
    split_ifs with hf
    · exact he
    · have hne := mt hfull.2 hf
      have := hw.start_lt
      omega
  · rw [hadv.processed, hadv.tail]
    have := h.begins
    split_ifs <;> omega
  · unfold Position at hpos
    simp only at hd'
    simp only [hd'] at hpos
    exact hpos.1
  · rw [hadv.data, hheap, hsize]
    exact h.buffers (hadv.checking.1.symm.trans hst') i

theorem Aligned.feed {im : Image} {c : ℕ} {x : Drive n} (h : Aligned im c x) {l : List UInt8} {p : Option DataReq}
    (hmore : x.stream.length ≤ l.length) (hl : l.length ≤ im.total)
    (hwithin : ∀ d, p = some d → x.st.svc.ccfsmBytesProcessed < d.bytesUsed)
    (hpos : Checking x.st.svc → Position { x with stream := l, pending := p }) :
    Aligned im c { x with stream := l, pending := p } :=
  { h with len := hl, tail_le := h.tail_le.trans hmore, within := hwithin, position := hpos }

/-- the bytes presented so far once block d is presented -/
def Drive.presented (x : Drive n) (d : DataReq) : List UInt8 := if x.pending.isSome then x.stream else x.stream ++ d.bytes

theorem presented_length {T : ℕ} {x : Drive n} {d : DataReq} (hlen : x.stream.length ≤ T) (hL : Legal T x (.data d)) :
    x.stream.length ≤ (x.presented d).length ∧ (x.presented d).length ≤ T := by
  obtain ⟨-, -, -, hroom, -⟩ := hL
  unfold Drive.presented
  cases hp : x.pending with
  | some d' => exact ⟨le_rfl, hlen⟩
  | none =>
    have := hroom hp
    simp only [Option.isSome_none, Bool.false_eq_true, if_false, List.length_append, d.bytes_length]
    omega

/-- a block is presented to a callback that comes to check it -/
theorem Aligned.present {im : Image} {c : ℕ} {x : Drive n} (h : Aligned im c x) {d : DataReq}
    (hL : Legal im.total x (.data d)) (hc : Checking x.st.svc) :
    Aligned im c { x with stream := x.presented d, pending := some d } := by
  obtain ⟨hmore, hl⟩ := presented_length h.len hL
  obtain ⟨hne, -, hsame, -, -⟩ := hL
  have hpos := h.position hc
  have hnew : Position { x with stream := x.presented d, pending := some d } := by
    unfold Position at hpos ⊢
    cases hp : x.pending with
    | some d' =>
      obtain rfl := hsame d' hp
      rw [hp] at hpos
      simpa only [Drive.presented, hp, Option.isSome_some, if_true] using hpos
    | none =>
      rw [hp] at hpos
      simp only [Drive.presented, hp, Option.isSome_none, Bool.false_eq_true, if_false, List.length_append, d.bytes_length]
      exact ⟨by omega, by omega, List.suffix_append _ _⟩
  refine h.feed hmore hl (fun d' hd' => ?_) fun _ => hnew
  obtain rfl := Option.some.inj hd'
  unfold Position at hnew
  exact hnew.1

/-- a callback that does not come to the check refuses the block -/
theorem data_refused {d : DataReq} {s : Svc n} (hc : ¬ Checking s) : ∃ status,
    processFirmwareUpdateData d s = some (s, ⟨.error, status⟩, false) ∨
      processFirmwareUpdateData d s = some (s, ⟨.cont, status⟩, false) := by
  unfold processFirmwareUpdateData
  by_cases ht : d.targetNumber ≠ s.current
  · exact ⟨_, .inl (if_pos ht)⟩
  · rw [if_neg ht]
    by_cases hst : s.updateStarted = true
    · have herr : s.dataError = .invalidData := by
        by_contra herr
        exact hc ⟨hst, herr⟩
      rw [if_neg (not_not.2 hst), if_pos herr]
      exact ⟨_, .inr rfl⟩
    · rw [if_pos hst]
      exact ⟨_, .inl rfl⟩

/-- **A block.** -/
theorem Aligned.data {im : Image} {c : ℕ} {x : Drive n} (h : Aligned im c x) (hT : im.total < 2 ^ 32) {d : DataReq}
    (hL : Legal im.total x (.data d)) : Aligned im c (x.act (.data d)) := by
  have hact : x.act (.data d) = { st := stepData d x.st, stream := x.presented d,
                                  pending := if answersBusy d x.st.svc then some d else none } := by
    simp [Drive.act, Drive.step, Firmware.step, h.running, Drive.presented]
  rw [hact]
  by_cases hc : Checking x.st.svc
  · have hy := h.present hL hc
    by_cases ha : accepts d x.st.svc = true
    · exact hy.consume hT rfl ha
    · -- all that is left is a head slot that is still in use
      have hpos := hy.position hc
      unfold Position at hpos
      have hlen := hy.len
      simp only at hpos hlen
      have hchunk : dataChunkSize x.st.svc ≠ 0 := by
        have := h.room (by omega)
        have := h.head_le
        have := h.chunk
        omega
      have hoff := hL.2.2.2.2 hc.1 hc.2
      have huse : (x.st.svc.chunkPool x.st.svc.chunkPoolHead).inUse = true := by
        by_contra hfree
        exact ha (by simp [accepts, hL.2.1, hc.1, hc.2, hoff, hfree, hchunk])
      have hdata : processFirmwareUpdateData d x.st.svc = some (x.st.svc, ⟨.busy, some .success⟩, false) := by
        simp [processFirmwareUpdateData, hL.2.1, hc.1, hc.2, hoff, huse]
      have hst : stepData d x.st = x.st := by simp [stepData, hdata]
      have hbusy : answersBusy d x.st.svc = true := by simp [answersBusy, hdata]
      rw [hst, hbusy, if_pos rfl]
      exact hy
  · obtain ⟨status, hdata⟩ := data_refused (d := d) hc
    have hst : stepData d x.st = x.st := by rcases hdata with hdata | hdata <;> simp [stepData, hdata]
    have hbusy : answersBusy d x.st.svc = false := by rcases hdata with hdata | hdata <;> simp [answersBusy, hdata]
    obtain ⟨hmore, hl⟩ := presented_length h.len hL
    rw [hst, hbusy]
    exact h.feed hmore hl (fun d' hd' => by cases hd') fun hc' => absurd hc' hc

/-- **Step.** -/
theorem step_aligned {im : Image} (hT : im.total < 2 ^ 32) {c : ℕ} (x : Drive n) (o : Op n) (h : Aligned im c x)
    (ho : Allowed im.total x o) : Aligned im c (x.act o) := by
  cases o with
  | data d => exact h.data hT ho
  | start r request ok => exact ho.elim
  | complete target =>
    have hst : Firmware.step x.st (.complete target) =
        { x.st with svc := (processFirmwareUpdateComplete target x.st.svc).1 } := by simp [Firmware.step, h.running]
    simp only [Drive.act, hst]
    refine h.undisturbed h.running ?_
    rcases complete_cases target x.st.svc with ht | ⟨-, -, ht⟩ <;> simp only [ht]
    · exact Undisturbed.refl _
    · exact undisturbed_stop _
  | abort target status =>
    have hst : Firmware.step x.st (.abort target status) =
        { x.st with svc := (processFirmwareUpdateAbort target status x.st.svc).1 } := by simp [Firmware.step, h.running]
    simp only [Drive.act, hst]
    refine h.undisturbed h.running ?_
    rcases abort_cases target status x.st.svc with ht | ⟨-, -, ht⟩ <;> simp only [ht]
    · exact Undisturbed.refl _
    · exact undisturbed_stop _
  | _ =>
    simp only [Drive.act]
    rw [step_eq_stepThread h.running rfl]
    refine h.undisturbed ?_ (undisturbed_thread _ _)
    obtain ⟨pool, tail, e, l, pc, calls, ht, -⟩ := stepThread_frame x.st _
    rw [ht]
    exact h.running

/-! ## The start -/

/-- every slot of the pool has a buffer of `chunk_size` bytes -/
theorem setUp_buffers {r : StartReq} {request : RequestError} {ok : Fin (n + 1) → Bool} {s : Svc n}
    (h : (processFirmwareUpdateRequest r request ok s).2 = ⟨.cont, some .success⟩) (i : Fin (n + 1)) : ∃ b,
    ((processFirmwareUpdateRequest r request ok s).1.chunkPool i).data = some b ∧
      (processFirmwareUpdateRequest r request ok s).1.heap.size b = (s.target r.targetNumber).withChunkSize.chunkSize := by
  have hd := @allocPool_all n (s.target r.targetNumber).withChunkSize.chunkSize ok (List.finRange (n + 1))
    (setUp_of_success h).2.granted s.chunkPool s.heap
  obtain ⟨-, hdata, hsize, -⟩ := allocPool_blocks (List.nodup_finRange (n + 1)) hd
  simp only [List.length_finRange, List.getElem_finRange] at hdata hsize
  rw [(request_of_success h).2]
  simp only [setUpDownload, hd, if_true]
  exact ⟨_, hdata i i.isLt, hsize i i.isLt⟩

theorem begin_aligned {s : St n} {r : StartReq} {request : RequestError} {ok : Fin (n + 1) → Bool}
    (hcr : s.crashed = false) (h : (processFirmwareUpdateRequest r request ok s.svc).2 = ⟨.cont, some .success⟩)
    (h32 : r.codeSize < 2 ^ 32) (hc : u32 (chunkSizeOf s r) ≠ 0 ∨ r.codeSize = 0) :
    Aligned (imageOf s r) (chunkSizeOf s r) (Drive.begin s r request ok) := by
  obtain ⟨-, hset⟩ := setUp_of_success h
  have hbegin := begin_svc hcr h
  obtain ⟨hhead, htail, hprocessed⟩ := hset.offsets
  have hchunk : dataChunkSize (processFirmwareUpdateRequest r request ok s.svc).1 = u32 (chunkSizeOf s r) := by
    rw [dataChunkSize, hset.current, hset.target, Function.update_self]
    rfl
  constructor
  case len => exact Nat.zero_le _
  all_goals rw [hbegin]
  case running => exact hcr
  case totalSize => exact hset.totalSize.trans (u32_eq h32)
  case chunk => exact hchunk
  case head => exact ⟨0, by simpa using hhead⟩
  case head_le => simp [hhead]
  case tail_le => simp [htail]
  case room =>
    intro hlt
    simp only [imageOf, hhead, htail] at hlt ⊢
    omega
  case done =>
    intro he
    simp only [imageOf, hhead, htail] at he ⊢
    exact he
  case begins => simp [hprocessed]
  case within => exact fun d hd => by simp [Drive.begin] at hd
  case position =>
    intro _
    unfold Position
    rw [hbegin]
    exact ⟨hprocessed, htail⟩
  case buffers => exact fun _ i => setUp_buffers h i

/-! ## Main results -/

theorem Aligned.sound {im : Image} {c : ℕ} {x : Drive n} (h : Aligned im c x) (hT : im.total < 2 ^ 32) (hc0 : 0 < c)
    (hc : im.chunk = c ∨ im.chunk ≤ c ∧ im.total ≤ im.chunk) : Sound c im.total x := by
  have htail := h.tail_le.trans h.len
  have hle := h.head_le
  have hchunk : im.chunk ≤ c := hc.elim (fun hc => hc.le) fun hc => hc.1
  constructor
  case running => exact h.running
  case head_le => exact hle
  case room =>
    rcases Nat.lt_or_ge x.st.svc.tailOffset im.total with hlt | hge
    · have := h.room hlt
      omega
    · have := h.done (by omega)
      omega
  case aligned =>
    obtain ⟨K, hK⟩ := h.head
    rw [h.totalSize]
    rcases Nat.le_total im.total (K * im.chunk) with hfull | hpart
    · exact .inr (hK.trans (min_eq_right hfull))
    · rw [min_eq_left hpart] at hK
      rcases hc with hc | ⟨-, hfits⟩
      · exact .inl ⟨K, by rw [hK, hc, Nat.mul_comm]⟩
      · cases K with
        | zero => exact .inl (by simp [hK])
        | succ K =>
          right
          have : im.chunk ≤ (K + 1) * im.chunk := Nat.le_mul_of_pos_left _ (Nat.succ_pos K)
          omega
  case within => exact h.within
  case check =>
    rw [u32Sub_eq h.begins (by omega)]
    exact Nat.sub_add_cancel h.begins
  case copies =>
    intro d hL ha
    have hy := h.present hL (accepts_checking ha)
    obtain ⟨K, full, w, -, hw, hstart, hend, hbu, -, -⟩ := hy.takes hT rfl ha
    simp only at hw hstart hend hbu
    have hend' := hend.trans hy.len
    have hblock : d.bytesUsed < 2 ^ 32 := by
      have hposition := hy.position (accepts_checking ha)
      unfold Position at hposition
      have hsuf := hposition.2.2.length_le
      rw [d.bytes_length] at hsuf
      exact (hsuf.trans hy.len).trans_lt hT
    have hpos := hw.pos
    have hoff := hw.offset
    have hwend := hw.end_le
    have hwstart := hw.start_le
    constructor
    case some_left => exact hpos
    case source => exact hbu
    case buffer => exact h.buffers (accepts_checking ha).1 _
    case slot =>
      rw [h.chunk, hoff]
      omega
    case remaining => rw [sizeSub_eq (by omega) (by omega)]; omega
    case next => exact u32_eq (by omega)
    case size => rw [u32Sub_eq (by omega) (by omega)]; omega
    case processed => exact u32_eq (by omega)

/-- a first block as long as a chunk is legal, and moves `head_offset` to its end -/
theorem first_head {s : St n} {r : StartReq} {request : RequestError} {ok : Fin (n + 1) → Bool} (hcr : s.crashed = false)
    (h : (processFirmwareUpdateRequest r request ok s.svc).2 = ⟨.cont, some .success⟩) {c : ℕ}
    (hc : u32 (chunkSizeOf s r) = c) (hc0 : c ≠ 0) :
    ((Drive.begin s r request ok).act (.data (firstBlock r c))).st.svc.headOffset = c ∧
      ((Drive.begin s r request ok).act (.data (firstBlock r c))).st.svc.totalSize = u32 r.codeSize := by
  obtain ⟨-, hset⟩ := setUp_of_success h
  obtain ⟨u, a, hdata, hhead, htotal⟩ := hset.first_full hc hc0
  rw [hset.totalSize] at htotal
  simp [Drive.act, Drive.step, begin_svc hcr h, Firmware.step, hcr, stepData, hdata, hhead, htotal]

/-- **The offsets are sound**, for a size that `total_size` can hold, in every run of a download exactly when `chunk_size`
fits into the callback's `uint32_t`, or the image fits into one chunk as the callback cuts it. -/
theorem offsets_iff {s : St n} {r : StartReq} {request : RequestError} {ok : Fin (n + 1) → Bool} (hcr : s.crashed = false)
    (h : (processFirmwareUpdateRequest r request ok s.svc).2 = ⟨.cont, some .success⟩) (h32 : r.codeSize < 2 ^ 32) :
    (∀ ops, Along Drive.act (Allowed r.codeSize) (Drive.begin s r request ok) ops →
        Sound (chunkSizeOf s r) r.codeSize (run Drive.act (Drive.begin s r request ok) ops)) ↔
      chunkSizeOf s r < 2 ^ 32 ∨ r.codeSize ≤ u32 (chunkSizeOf s r) := by
  have hpos : 0 < chunkSizeOf s r := Nat.pos_of_ne_zero (withChunkSize_ne _)
  have hle : u32 (chunkSizeOf s r) ≤ chunkSizeOf s r := Nat.mod_le _ _
  constructor
  · intro hall
    by_contra hlarge
    push Not at hlarge
    obtain ⟨hlarge, hlt⟩ := hlarge
    by_cases hzero : u32 (chunkSizeOf s r) = 0
    · -- the first block divides by zero
      have hsound := hall [.data (firstBlock r 1)] ⟨firstBlock_legal hcr h one_pos (by omega), trivial⟩
      have hrun := hsound.running
      rw [run_cons, run_nil, Drive.act, crash_on_zero hcr h hzero] at hrun
      cases hrun
    · -- the first chunk ends at a multiple of the narrowed size
      have hsound := hall [.data (firstBlock r (u32 (chunkSizeOf s r)))]
        ⟨firstBlock_legal hcr h (Nat.pos_of_ne_zero hzero) hlt.le, trivial⟩
      obtain ⟨hhead, htotal⟩ := first_head hcr h rfl hzero
      have haligned := hsound.aligned
      rw [run_cons, run_nil, hhead, htotal, u32_eq h32] at haligned
      have hsmall := u32_lt (chunkSizeOf s r)
      rcases haligned with hdvd | heq
      · have := Nat.le_of_dvd (Nat.pos_of_ne_zero hzero) hdvd
        omega
      · omega
  · intro hc ops hops
    have hchunk : u32 (chunkSizeOf s r) ≠ 0 ∨ r.codeSize = 0 := by
      rcases hc with hc | hc
      · left
        rw [u32_eq hc]
        exact hpos.ne'
      · omega
    refine (run_inv (step_aligned h32) (begin_aligned hcr h h32 hchunk) hops).sound h32 hpos ?_
    exact hc.imp (fun hc => u32_eq hc) fun hc => ⟨hle, hc⟩

/-- an image of 6 bytes in chunks of 4 -/
theorem offsets_six : chunkSizeOf (St.fresh 1 1 fun _ => ⟨0, 4⟩) ⟨0, 6⟩ = 4 ∧ ∀ ops, Along Drive.act (Allowed 6)
      (Drive.begin (St.fresh 1 1 fun _ => ⟨0, 4⟩) ⟨0, 6⟩ .none fun _ => true) ops →
    Sound 4 6 (run Drive.act (Drive.begin (St.fresh 1 1 fun _ => ⟨0, 4⟩) ⟨0, 6⟩ .none fun _ => true) ops) :=
  ⟨rfl, (offsets_iff (accepted_six 4).running (accepted_six 4).success (by decide)).2 (.inl (by decide))⟩

/-- **A chunk size of 2^32 + 4** is 4 in the callback's `uint32_t`: the second chunk of an image of 6 bytes begins at 4. -/
theorem misaligned : ¬ ∀ (n : ℕ) (s : St n) (r : StartReq) (request : RequestError) (ok : Fin (n + 1) → Bool),
    s.crashed = false → (processFirmwareUpdateRequest r request ok s.svc).2 = ⟨.cont, some .success⟩ →
    r.codeSize < 2 ^ 32 → 0 < (s.svc.target r.targetNumber).chunkSize →
    ∀ ops, Along Drive.act (Allowed r.codeSize) (Drive.begin s r request ok) ops →
      Sound (chunkSizeOf s r) r.codeSize (run Drive.act (Drive.begin s r request ok) ops) := by
  intro h
  have hacc := accepted_six (2 ^ 32 + 4)
  have hsound := h 1 _ _ _ _ hacc.running hacc.success (by decide) (by simp [St.fresh, Svc.fresh])
    [.data (firstBlock ⟨0, 6⟩ 4)] ⟨firstBlock_legal hacc.running hacc.success (by decide) (by decide), trivial⟩
  obtain ⟨hhead, htotal⟩ := first_head hacc.running hacc.success (c := 4) (by decide) (by decide)
  have haligned := hsound.aligned
  rw [run_cons, run_nil, hhead, htotal] at haligned
  revert haligned
  decide

end CcApi.Firmware
