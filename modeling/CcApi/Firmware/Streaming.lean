/-
One firmware download from its accepted start to its last chunk (`ccapi_firmware_update_handler.c`).

The connector sends the image in blocks and presents a block again as long as the data callback answers busy. The
callback cuts the blocks into chunks of the target's `chunk_size`, whatever the block boundaries are, and the firmware
thread gives the chunks to the user.

`Drive` is the service with the connector in front of it: the byte string of the blocks presented so far and the block
that still waits for its answer. `Streaming` ties the counters, the pool, the semaphore and the byte string together.

- `step_streaming`: every legal step keeps the invariant.
- `Exact`: the chunks given to the user are consecutive pieces of the byte string, from offset 0 on. `Full`: of
  `chunk_size` bytes each, except the last.
- `streamed_iff`: `Exact` holds throughout every run exactly when the `uint32_t` the callback keeps `chunk_size` in is not
  0 or the image is empty, and `Full` too exactly when `chunk_size` fits or the image fits into one chunk.
- `narrowed_to_zero`: with a `chunk_size` of 2^32 the callback divides by zero on the first block.
-/
import CcApi.Firmware.Queue
import CcApi.Lib.Pieces

namespace CcApi.Firmware

open Lib Lib.Runs

variable {n : ℕ}

/-! ## The connector's side -/

/-- the bytes of a block -/
def DataReq.bytes (d : DataReq) : List UInt8 := (List.range d.bytesUsed).map d.data

/-- the service, the byte string formed by the blocks presented so far, and the block answered busy -/
structure Drive (n : ℕ) where
  st : St n
  stream : List UInt8
  pending : Option DataReq

inductive DriveOp (n : ℕ) where
  | data (d : DataReq)
  | complete (target : ℕ)
  | thread (o : Op n)

/-- the data callback answers busy -/
def answersBusy (d : DataReq) (s : Svc n) : Bool :=
  match processFirmwareUpdateData d s with
  | some (_, a, _) => a.callback = .busy
  | none => false

def Drive.step (x : Drive n) : DriveOp n → Drive n
  | .data d =>
    { st := Firmware.step x.st (.data d)
      stream := if x.pending.isSome then x.stream else x.stream ++ d.bytes
      pending := if answersBusy d x.st.svc then some d else none }
  | .complete target => { x with st := Firmware.step x.st (.complete target) }
  | .thread o => if o.isThread then { x with st := Firmware.step x.st o } else x

/-- the next block is not empty, is the block answered busy if there is one, does not exceed the image, and passes the
callback's check of its offset where the callback comes to check it -/
def Legal (codeSize : ℕ) (x : Drive n) : DriveOp n → Prop
  | .data d => 0 < d.bytesUsed ∧ d.targetNumber = x.st.svc.current ∧ (∀ d', x.pending = some d' → d = d') ∧
      (x.pending = none → x.stream.length + d.bytesUsed ≤ codeSize) ∧
      (x.st.svc.updateStarted = true → x.st.svc.dataError ≠ .invalidData →
        d.offset = u32Sub x.st.svc.tailOffset x.st.svc.ccfsmBytesProcessed)
  | _ => True

/-- a start that the callback answers with success, with the thread waiting on its empty lock -/
structure Accepted (s : St n) (r : StartReq) (request : RequestError) (ok : Fin (n + 1) → Bool) : Prop where
  pc : s.pc = .waiting
  lock : s.lock = 0
  running : s.crashed = false
  history : s.queued = s.calls
  success : (processFirmwareUpdateRequest r request ok s.svc).2 = ⟨.cont, some .success⟩

/-- the download at its start -/
def Drive.begin (s : St n) (r : StartReq) (request : RequestError) (ok : Fin (n + 1) → Bool) : Drive n :=
  { st := Firmware.step s (.start r request ok), stream := [], pending := none }

/-- `chunk_size` of the download's target once the start has filled in a default -/
def chunkSizeOf (s : St n) (r : StartReq) : ℕ := (s.svc.target r.targetNumber).withChunkSize.chunkSize

/-! ## What exactness is -/

/-- the chunks l given to the user since the download began are consecutive pieces of the byte string, from offset 0 on -/
structure Exact (codeSize : ℕ) (old l : List Chunk) (x : Drive n) : Prop where
  running : x.st.crashed = false
  calls : x.st.calls = old ++ l
  /-- every offset is the sum of the previous sizes -/
  offset : ∀ k c, l[k]? = some c → c.offset = ((l.take k).map Chunk.size).sum
  /-- the data are the bytes of the blocks, none left out, none twice -/
  bytes : (l.map Chunk.data).flatten <+: x.stream
  size : ∀ c ∈ l, c.data.length = c.size ∧ 0 < c.size
  last : ∀ c ∈ l, c.last = true ↔ c.offset + c.size = codeSize
  /-- nothing touches a chunk while the user has it -/
  held : ∀ i, x.st.pc = .calling i → l.getLast? = some (slotChunk x.st i)
  /-- once the image is complete and the thread has nothing to do, the user has all of it -/
  complete : x.st.svc.updateStarted = true → x.st.svc.dataError ≠ .invalidData → x.pending = none →
    x.st.pc = .waiting → x.st.lock = 0 → x.stream.length = codeSize → (l.map Chunk.data).flatten = x.stream

/-- only the chunk flagged last may be shorter than `chunk_size` -/
def Full (chunkSize : ℕ) (l : List Chunk) : Prop := ∀ c ∈ l, c.last = false → c.size = chunkSize

/-! ## The invariant -/

/-- a download: its number, its target, the chunk size the data callback computes with and the image's size -/
structure Image where
  download : ℕ
  target : ℕ
  chunk : ℕ
  total : ℕ

/-- chunk k of the image, cut from the byte string -/
def Image.chunkAt (im : Image) (l : List UInt8) (k : ℕ) : Chunk :=
  { download := im.download, target := im.target, offset := k * im.chunk, data := Pieces.piece im.chunk im.total l k,
    size := Pieces.size im.chunk im.total k,
    last := decide (k * im.chunk + Pieces.size im.chunk im.total k = im.total) }

/-- K chunks have been queued, the chunks of the image -/
structure Queued (im : Image) (old : List Chunk) (K : ℕ) (x : Drive n) : Prop where
  running : x.st.crashed = false
  queued : x.st.queued = old ++ (List.range K).map (im.chunkAt x.stream)
  old_le : old <+: x.st.calls
  /-- a chunk the user has is one of these -/
  given : old.length + x.st.pc.given ≤ x.st.calls.length
  within : ∀ k < K, k * im.chunk < im.total ∧ k * im.chunk + Pieces.size im.chunk im.total k ≤ x.stream.length

/-- the block that waits for its answer, and how far the callback is through it -/
def Position (x : Drive n) : Prop :=
  match x.pending with
  | none => x.st.svc.ccfsmBytesProcessed = 0 ∧ x.st.svc.tailOffset = x.stream.length
  | some d => x.st.svc.ccfsmBytesProcessed < d.bytesUsed ∧
      x.st.svc.tailOffset + d.bytesUsed = x.stream.length + x.st.svc.ccfsmBytesProcessed ∧ d.bytes <:+ x.stream

/-- the download is in progress; its first `tailOffset` bytes have been taken over, and the head slot's buffer has those
that no queued chunk has -/
structure Streaming (im : Image) (old : List Chunk) (K : ℕ) (x : Drive n) : Prop extends Queued im old K x where
  started : x.st.svc.updateStarted = true
  download : x.st.download = im.download
  current : x.st.svc.current = im.target
  totalSize : x.st.svc.totalSize = im.total
  chunk : u32 (x.st.svc.target im.target).chunkSize = im.chunk
  len : x.stream.length ≤ im.total
  head : x.st.svc.headOffset = min (K * im.chunk) im.total
  head_le : x.st.svc.headOffset ≤ x.st.svc.tailOffset
  tail_le : x.st.svc.tailOffset ≤ x.stream.length
  room : x.st.svc.tailOffset < im.total → x.st.svc.tailOffset < x.st.svc.headOffset + im.chunk
  done : x.st.svc.tailOffset = im.total → x.st.svc.headOffset = im.total
  headFree : x.st.svc.headOffset < x.st.svc.tailOffset → (x.st.svc.chunkPool x.st.svc.chunkPoolHead).inUse = false
  partial_bytes : ∀ b, (x.st.svc.chunkPool x.st.svc.chunkPoolHead).data = some b →
    ∀ i < x.st.svc.tailOffset - x.st.svc.headOffset, some (x.st.svc.heap.mem b i) = x.stream[x.st.svc.headOffset + i]?
  serving : ∃ q, Serving x.st q
  position : x.st.svc.dataError ≠ .invalidData → Position x

/-- the download was completed; what has been queued has been given to the user -/
structure Completed (im : Image) (old : List Chunk) (K : ℕ) (x : Drive n) : Prop extends Queued im old K x where
  stopped : x.st.svc.updateStarted = false
  idle : Idle x.st

def StreamInv (im : Image) (old : List Chunk) (x : Drive n) : Prop :=
  ∃ K, Streaming im old K x ∨ Completed im old K x

/-! ## Blocks and pieces -/

theorem DataReq.bytes_length (d : DataReq) : d.bytes.length = d.bytesUsed := by simp [DataReq.bytes]

theorem bytes_getElem? {d : DataReq} {l : List UInt8} (h : d.bytes <:+ l) {j i : ℕ} (hj : j < d.bytesUsed)
    (hi : i + d.bytesUsed = l.length + j) : l[i]? = some (d.data j) := by
  obtain ⟨pre, rfl⟩ := h
  rw [List.length_append, d.bytes_length] at hi
  rw [List.getElem?_append_right (by omega), show i - pre.length = j by omega]
  simp [DataReq.bytes, List.getElem?_range hj]

theorem Image.chunkAt_append (im : Image) {l : List UInt8} {k : ℕ}
    (h : k * im.chunk + Pieces.size im.chunk im.total k ≤ l.length) (l' : List UInt8) :
    im.chunkAt (l ++ l') k = im.chunkAt l k := by
  simp [Image.chunkAt, Pieces.piece_append h]

/-- the chunks queued do not depend on the blocks to come -/
theorem Queued.append {im : Image} {old : List Chunk} {K : ℕ} {x : Drive n} (h : Queued im old K x)
    (l : List UInt8) (p : Option DataReq) :
    Queued im old K { x with stream := x.stream ++ l, pending := p } := by
  refine ⟨h.running, ?_, h.old_le, h.given, fun k hk => ⟨(h.within k hk).1, ?_⟩⟩
  · rw [h.queued]
    congr 1
    refine List.map_congr_left fun k hk => (im.chunkAt_append (h.within k (List.mem_range.1 hk)).2 l).symm
  · exact le_trans (h.within k hk).2 (by simp)

theorem Queued.congr {im : Image} {old : List Chunk} {K : ℕ} {x y : Drive n} (h : Queued im old K x)
    (hcr : y.st.crashed = x.st.crashed) (hq : y.st.queued = x.st.queued) (hc : x.st.calls <+: y.st.calls)
    (hg : old.length + y.st.pc.given ≤ y.st.calls.length) (hs : y.stream = x.stream) : Queued im old K y :=
  ⟨hcr.trans h.running, by rw [hq, hs]; exact h.queued, h.old_le.trans hc, hg, by rw [hs]; exact h.within⟩

/-! ## The thread -/

/-- what a step of the thread can change: flags are only cleared, calls only added -/
theorem stepThread_frame (s : St n) (o : Op n) : ∃ pool tail e l pc calls,
    stepThread s o = { s with svc := { s.svc with chunkPool := pool, chunkPoolTail := tail, dataError := e },
                              lock := l, pc := pc, calls := s.calls ++ calls } ∧
    (∀ i, (pool i).data = (s.svc.chunkPool i).data) ∧
    (∀ i, (s.svc.chunkPool i).inUse = false → (pool i).inUse = false) ∧
    (e ≠ .invalidData → s.svc.dataError ≠ .invalidData) := by
  have hself : ∃ pool tail e l pc calls,
      s = { s with svc := { s.svc with chunkPool := pool, chunkPoolTail := tail, dataError := e },
                   lock := l, pc := pc, calls := s.calls ++ calls } ∧
      (∀ i, (pool i).data = (s.svc.chunkPool i).data) ∧
      (∀ i, (s.svc.chunkPool i).inUse = false → (pool i).inUse = false) ∧
      (e ≠ .invalidData → s.svc.dataError ≠ .invalidData) :=
    ⟨_, _, _, _, _, [], by rw [List.append_nil], fun _ => rfl, fun _ hi => hi, fun he => he⟩
  cases o with
  | wake =>
    simp only [stepThread]
    split
    · exact ⟨_, _, _, _, _, [], by rw [List.append_nil], fun _ => rfl, fun _ hi => hi, fun he => he⟩
    · exact hself
  | call =>
    simp only [stepThread]
    split
    · exact ⟨_, _, _, _, _, _, rfl, fun _ => rfl, fun _ hi => hi, fun he => he⟩
    · exact hself
  | ret e =>
    simp only [stepThread]
    split
    · refine ⟨_, _, _, _, _, [], by rw [List.append_nil], fun _ => rfl, fun _ hi => hi, fun he hs => he ?_⟩
      split_ifs with h
      · exact h
      · exact hs
    · exact hself
  | clearInUse =>
    simp only [stepThread]
    split
    · rename_i i _
      refine ⟨_, _, _, _, _, [], by rw [List.append_nil], fun j => ?_, fun j hj => ?_, fun he => he⟩
      · by_cases hij : j = i
        · subst hij; simp
        · rw [Function.update_of_ne hij]
      · by_cases hij : j = i
        · subst hij; simp
        · rw [Function.update_of_ne hij]; exact hj
    · exact hself
  | advanceTail =>
    simp only [stepThread]
    split
    · exact ⟨_, _, _, _, _, [], by rw [List.append_nil], fun _ => rfl, fun _ hi => hi, fun he => he⟩
    · exact hself
  | _ => exact hself

theorem stepThread_given {s : St n} {l : ℕ} (h : l + s.pc.given ≤ s.calls.length) (o : Op n) :
    l + (stepThread s o).pc.given ≤ (stepThread s o).calls.length := by
  cases o with
  | call =>
    simp only [stepThread]
    split
    · rename_i i hpc
      simp only [hpc, Pc.given] at h
      simp only [Pc.given, List.length_append, List.length_singleton]
      omega
    · exact h
  | ret e =>
    simp only [stepThread]
    split
    · rename_i i hpc
      simp only [hpc, Pc.given] at h
      exact h
    · exact h
  | wake | clearInUse | advanceTail =>
    simp only [stepThread]
    split
    · exact le_trans (Nat.add_le_add_left (Nat.zero_le _) l) h
    · exact h
  | _ => exact h

theorem Streaming.thread {im : Image} {old : List Chunk} {K : ℕ} {x : Drive n} (h : Streaming im old K x) (o : Op n) :
    Streaming im old K { x with st := stepThread x.st o } := by
  obtain ⟨q, hq⟩ := h.serving
  obtain ⟨q', hq'⟩ := stepThread_serving hq o
  have hgiven := stepThread_given h.given o
  obtain ⟨pool, tail, e, l, pc, calls, ht, hdata, hu, he⟩ := stepThread_frame x.st o
  rw [ht] at hq' hgiven ⊢
  refine { h with toQueued := ?_, headFree := fun hlt => hu _ (h.headFree hlt), partial_bytes := fun b hb => ?_,
                  serving := ⟨q', hq'⟩, position := fun hne => ?_ }
  · exact h.toQueued.congr rfl rfl (List.prefix_append _ _) hgiven rfl
  · exact h.partial_bytes b (by rw [← hdata]; exact hb)
  · have := h.position (he hne)
    unfold Position at this ⊢
    exact this

theorem Completed.thread {im : Image} {old : List Chunk} {K : ℕ} {x : Drive n} (h : Completed im old K x) (o : Op n) :
    Completed im old K { x with st := stepThread x.st o } := by
  have hidle := stepThread_idle h.idle o
  have hgiven := stepThread_given h.given o
  obtain ⟨pool, tail, e, l, pc, calls, ht, -⟩ := stepThread_frame x.st o
  rw [ht] at hidle hgiven ⊢
  exact ⟨h.toQueued.congr rfl rfl (List.prefix_append _ _) hgiven rfl, h.stopped, hidle⟩

/-! ## The data callback -/

/-- what the callback takes over, where no counter wraps -/
theorem consumeData_eq {c : ℕ} {d : DataReq} {s : Svc n} {m next : ℕ}
    (hm : m = min (d.bytesUsed - s.ccfsmBytesProcessed) (c - s.tailOffset % c)) (hnext : next = s.tailOffset + m)
    (hb : s.ccfsmBytesProcessed ≤ d.bytesUsed) (hlt : d.bytesUsed < 2 ^ 32) (ht : next < 2 ^ 32)
    (hge : s.headOffset ≤ s.tailOffset) :
    consumeData c d s =
      let full := decide (next = s.totalSize) || decide (next % c = 0)
      let s1 := copyToHead d (s.tailOffset % c) m s
      let s2 := if full then queueHead next (decide (next = s.totalSize)) s1 else s1
      if s.ccfsmBytesProcessed + m = d.bytesUsed then
        ({ s2 with ccfsmBytesProcessed := 0, tailOffset := next }, ⟨.cont, some .success⟩, full)
      else ({ s2 with ccfsmBytesProcessed := s.ccfsmBytesProcessed + m, tailOffset := next },
        ⟨.busy, some .success⟩, full) := by
  have hrem : sizeSub d.bytesUsed s.ccfsmBytesProcessed = d.bytesUsed - s.ccfsmBytesProcessed :=
    sizeSub_eq hb (by omega)
  have hmin : (if d.bytesUsed - s.ccfsmBytesProcessed > c - s.tailOffset % c then c - s.tailOffset % c
      else d.bytesUsed - s.ccfsmBytesProcessed) = m := by
    rw [hm]; split_ifs <;> omega
  have hp : s.ccfsmBytesProcessed + m < 2 ^ 32 := by omega
  simp only [consumeData, hrem, hmin, ← hnext, u32_eq ht, u32_eq hp, ge_iff_le, hge, if_true]

theorem data_accepted {d : DataReq} {s : Svc n} (htarget : d.targetNumber = s.current) (hst : s.updateStarted = true)
    (herr : s.dataError ≠ .invalidData) (hoff : d.offset = u32Sub s.tailOffset s.ccfsmBytesProcessed)
    (hfree : (s.chunkPool s.chunkPoolHead).inUse = false) (hc : u32 (s.target s.current).chunkSize ≠ 0) :
    processFirmwareUpdateData d s = some (consumeData (u32 (s.target s.current).chunkSize) d s) := by
  simp [processFirmwareUpdateData, htarget, hst, herr, hoff, hfree, hc]

/-- where the callback is within chunk K: p bytes of T have been taken over, m more follow -/
structure Within (c T K p m : ℕ) : Prop where
  start_le : K * c ≤ p
  start_lt : K * c < T
  offset : p % c = p - K * c
  pos : 0 < m
  end_le : p + m ≤ K * c + c
  le_total : p + m ≤ T

theorem within_chunk {c T K h p S bu f m : ℕ} (hhead : h = min (K * c) T) (hle : h ≤ p)
    (hroom : p < T → p < h + c) (hpos : p + bu = S + f) (hf : f < bu) (hS : S ≤ T)
    (hm : m = min (bu - f) (c - p % c)) : Within c T K p m ∧ h = K * c ∧ p + m ≤ S ∧ f + m ≤ bu := by
  have hpT : p < T := by omega
  have hhc : h = K * c := by omega
  have hmod : p % c = p - K * c := by
    have : p = c * K + (p - K * c) := by rw [Nat.mul_comm]; omega
    rw [this, Nat.mul_add_mod, Nat.mod_eq_of_lt (by have := hroom hpT; omega)]
    omega
  have := hroom hpT
  exact ⟨⟨by omega, by omega, hmod, by omega, by omega, by omega⟩, hhc, by omega, by omega⟩

/-- the chunk is full or the image complete exactly at the chunk's end -/
theorem Within.full_iff {c T K p m : ℕ} (h : Within c T K p m) :
    (p + m = T ∨ (p + m) % c = 0) ↔ p + m = K * c + Pieces.size c T K := by
  have h1 := h.start_le
  have h2 := h.start_lt
  have h3 := h.pos
  have h4 := h.end_le
  have h5 := h.le_total
  have hmod : (p + m) % c = 0 ↔ p + m = K * c + c := by
    obtain ⟨r, hr⟩ : ∃ r, p + m = K * c + r := ⟨p + m - K * c, by omega⟩
    rw [hr, Nat.mul_comm, Nat.mul_add_mod]
    rcases Nat.lt_or_ge r c with hlt | hge
    · rw [Nat.mod_eq_of_lt hlt]; omega
    · have : r = c := by omega
      simp [this]
  rw [hmod]
  unfold Pieces.size
  omega

/-- the head slot's buffer after the copy -/
theorem copied_bytes {im : Image} {old : List Chunk} {K : ℕ} {x : Drive n} (h : Streaming im old K x) {d : DataReq}
    (hsuf : d.bytes <:+ x.stream) (hpos : x.st.svc.tailOffset + d.bytesUsed = x.stream.length + x.st.svc.ccfsmBytesProcessed)
    {b m : ℕ} (hb : (x.st.svc.chunkPool x.st.svc.chunkPoolHead).data = some b)
    (hm : x.st.svc.ccfsmBytesProcessed + m ≤ d.bytesUsed) {i : ℕ}
    (hi : i < x.st.svc.tailOffset + m - x.st.svc.headOffset) :
    some ((x.st.svc.heap.write b (x.st.svc.tailOffset - x.st.svc.headOffset) m
      fun j => d.data (x.st.svc.ccfsmBytesProcessed + j)).mem b i) = x.stream[x.st.svc.headOffset + i]? := by
  have hle := h.head_le
  simp only [Heap.write, Function.update_self]
  split_ifs with hin
  · exact (bytes_getElem? hsuf (by omega) (by omega)).symm
  · exact h.partial_bytes b hb i (by omega)

theorem copyToHead_write {d : DataReq} {off len : ℕ} {s : Svc n} {b : ℕ}
    (hb : (s.chunkPool s.chunkPoolHead).data = some b) :
    copyToHead d off len s = { s with heap := s.heap.write b off len fun i => d.data (s.ccfsmBytesProcessed + i) } := by
  simp [copyToHead, hb]

/-- the record after the callback has taken over m bytes of block d, with its chunk full or not -/
def taken (d : DataReq) (m : ℕ) (w : Heap) (full : Bool) (s : Svc n) : Svc n :=
  { (if full then queueHead (s.tailOffset + m) (decide (s.tailOffset + m = s.totalSize)) { s with heap := w }
      else { s with heap := w }) with
    ccfsmBytesProcessed := if s.ccfsmBytesProcessed + m = d.bytesUsed then 0 else s.ccfsmBytesProcessed + m
    tailOffset := s.tailOffset + m }

/-- the piece of block d that the callback takes over, within chunk K, where S bytes have been presented; w is the heap with
the piece in the head slot's buffer -/
theorem data_takes {c T K S : ℕ} {d : DataReq} {s : Svc n} (hT : T < 2 ^ 32) (htotal : s.totalSize = T)
    (hchunk : u32 (s.target s.current).chunkSize = c) (htarget : d.targetNumber = s.current) (hst : s.updateStarted = true)
    (herr : s.dataError ≠ .invalidData) (hoff : d.offset = u32Sub s.tailOffset s.ccfsmBytesProcessed)
    (hfree : (s.chunkPool s.chunkPoolHead).inUse = false) (hhead : s.headOffset = min (K * c) T)
    (hle : s.headOffset ≤ s.tailOffset) (hroom : s.tailOffset < T → s.tailOffset < s.headOffset + c)
    (hlt : s.ccfsmBytesProcessed < d.bytesUsed) (hpos : s.tailOffset + d.bytesUsed = S + s.ccfsmBytesProcessed)
    (hS : S ≤ T) (hblock : d.bytesUsed ≤ S) :
    ∃ m full, m = min (d.bytesUsed - s.ccfsmBytesProcessed) (c - s.tailOffset % c) ∧ Within c T K s.tailOffset m ∧
      s.headOffset = K * c ∧ s.tailOffset + m ≤ S ∧ s.ccfsmBytesProcessed + m ≤ d.bytesUsed ∧
      (full = true ↔ s.tailOffset + m = K * c + Pieces.size c T K) ∧
      ∀ w, copyToHead d (s.tailOffset - s.headOffset) m s = { s with heap := w } →
        consumeData c d s = (taken d m w full s,
          ⟨if s.ccfsmBytesProcessed + m = d.bytesUsed then .cont else .busy, some .success⟩, full) ∧
        processFirmwareUpdateData d s = some (taken d m w full s,
          ⟨if s.ccfsmBytesProcessed + m = d.bytesUsed then .cont else .busy, some .success⟩, full) := by
  obtain ⟨m, hm⟩ : ∃ m, m = min (d.bytesUsed - s.ccfsmBytesProcessed) (c - s.tailOffset % c) := ⟨_, rfl⟩
  obtain ⟨hw, hstart, hend, hbu⟩ := within_chunk hhead hle hroom hpos hlt hS hm
  have hc0 : c ≠ 0 := by
    have := hroom (by have := hw.pos; omega)
    omega
  obtain ⟨full, hfull⟩ : ∃ full, full = (decide (s.tailOffset + m = s.totalSize) ||
    decide ((s.tailOffset + m) % c = 0)) := ⟨_, rfl⟩
  refine ⟨m, full, hm, hw, hstart, hend, hbu, ?_, fun w hcopy => ?_⟩
  · rw [hfull, htotal, ← hw.full_iff, Bool.or_eq_true, decide_eq_true_iff, decide_eq_true_iff]
  · have heq : consumeData c d s = (taken d m w full s,
        ⟨if s.ccfsmBytesProcessed + m = d.bytesUsed then .cont else .busy, some .success⟩, full) := by
      rw [consumeData_eq hm rfl hlt.le (by omega) (by have := hw.le_total; omega) hle, hw.offset, ← hstart, hcopy]
      simp only [taken, ← hfull]
      split_ifs <;> rfl
    refine ⟨heq, ?_⟩
    rw [data_accepted htarget hst herr hoff hfree (by rw [hchunk]; exact hc0), hchunk, heq]

/-- **The data callback on a block it takes over**, within chunk K -/
theorem Streaming.data_eq {im : Image} {old : List Chunk} {K : ℕ} {x : Drive n} (h : Streaming im old K x)
    (hT : im.total < 2 ^ 32) {d : DataReq} (hp : x.pending = some d) (htarget : d.targetNumber = x.st.svc.current)
    (herr : x.st.svc.dataError ≠ .invalidData)
    (hoff : d.offset = u32Sub x.st.svc.tailOffset x.st.svc.ccfsmBytesProcessed)
    (hfree : (x.st.svc.chunkPool x.st.svc.chunkPoolHead).inUse = false) {b : ℕ}
    (hb : (x.st.svc.chunkPool x.st.svc.chunkPoolHead).data = some b) :
    ∃ m full w, Within im.chunk im.total K x.st.svc.tailOffset m ∧
      x.st.svc.headOffset = K * im.chunk ∧ x.st.svc.tailOffset + m ≤ x.stream.length ∧
      x.st.svc.ccfsmBytesProcessed + m ≤ d.bytesUsed ∧
      (full = true ↔ x.st.svc.tailOffset + m = K * im.chunk + Pieces.size im.chunk im.total K) ∧
      (∀ i < x.st.svc.tailOffset + m - x.st.svc.headOffset,
        some (w.mem b i) = x.stream[x.st.svc.headOffset + i]?) ∧
      Consumed x.st.svc (taken d m w full x.st.svc) full ∧
      processFirmwareUpdateData d x.st.svc = some (taken d m w full x.st.svc,
        ⟨if x.st.svc.ccfsmBytesProcessed + m = d.bytesUsed then .cont else .busy, some .success⟩, full) := by
  have hpos := h.position herr
  unfold Position at hpos
  rw [hp] at hpos
  obtain ⟨hlt, hpos, hsuf⟩ := hpos
  have hblock := hsuf.length_le
  rw [d.bytes_length] at hblock
  have hchunk := h.chunk
  rw [← h.current] at hchunk
  obtain ⟨m, full, -, hw, hhead, hS, hbu, hfull, heq⟩ := data_takes hT h.totalSize hchunk htarget h.started herr hoff hfree
    h.head h.head_le h.room hlt hpos h.len hblock
  obtain ⟨hconsume, hdata⟩ := heq _ (copyToHead_write hb)
  have hcons := consumeData_consumed im.chunk d h.started hfree
  rw [hconsume] at hcons
  exact ⟨m, full, _, hw, hhead, hS, hbu, hfull, fun i hi => copied_bytes h hsuf hpos hb hbu hi, hcons, hdata⟩

/-- a full head slot holds chunk K of the image -/
theorem Streaming.taken_chunk {im : Image} {old : List Chunk} {K : ℕ} {x : Drive n} (h : Streaming im old K x)
    (hT : im.total < 2 ^ 32) {d : DataReq} {m : ℕ} {w : Heap} {b : ℕ}
    (hb : (x.st.svc.chunkPool x.st.svc.chunkPoolHead).data = some b)
    (hw : Within im.chunk im.total K x.st.svc.tailOffset m) (hhead : x.st.svc.headOffset = K * im.chunk)
    (hend : x.st.svc.tailOffset + m = K * im.chunk + Pieces.size im.chunk im.total K)
    (hmem : ∀ i < x.st.svc.tailOffset + m - x.st.svc.headOffset,
      some (w.mem b i) = x.stream[x.st.svc.headOffset + i]?) :
    slotChunk { x.st with svc := taken d m w true x.st.svc } x.st.svc.chunkPoolHead = im.chunkAt x.stream K := by
  have hle := hw.le_total
  have hsize : u32Sub (K * im.chunk + Pieces.size im.chunk im.total K) (K * im.chunk) =
      Pieces.size im.chunk im.total K := by
    rw [u32Sub_eq (by omega) (by omega)]; omega
  have hread : w.read b (Pieces.size im.chunk im.total K) = Pieces.piece im.chunk im.total x.stream K := by
    refine Pieces.map_range_eq_piece fun i hi => ?_
    rw [hmem i (by omega), hhead]
  simp only [slotChunk, taken, queueHead, if_true, Function.update_self, hb, hsize, Image.chunkAt, h.download,
    h.current, hread, hhead, h.totalSize, hend]

theorem Streaming.consume {im : Image} {old : List Chunk} {K : ℕ} {x : Drive n} (h : Streaming im old K x)
    (hT : im.total < 2 ^ 32) {d : DataReq} (hp : x.pending = some d) (htarget : d.targetNumber = x.st.svc.current)
    (herr : x.st.svc.dataError ≠ .invalidData)
    (hoff : d.offset = u32Sub x.st.svc.tailOffset x.st.svc.ccfsmBytesProcessed)
    (hfree : (x.st.svc.chunkPool x.st.svc.chunkPoolHead).inUse = false) :
    ∃ K', Streaming im old K' { x with st := stepData d x.st,
                                       pending := if answersBusy d x.st.svc then some d else none } := by
  obtain ⟨q, hq⟩ := h.serving
  obtain ⟨b, hb⟩ := hq.buffers x.st.svc.chunkPoolHead
  obtain ⟨m, full, w, hw, hhead, hS, hbu, hfull, hmem, hcons, hdata⟩ := h.data_eq hT hp htarget herr hoff hfree hb
  have hpos := h.position herr
  unfold Position at hpos
  rw [hp] at hpos
  have hle := h.head_le
  have hwle := hw.le_total
  have hwend := hw.end_le
  have hsize : Pieces.size im.chunk im.total K = min im.chunk (im.total - K * im.chunk) := rfl
  have hbusy : answersBusy d x.st.svc = decide (x.st.svc.ccfsmBytesProcessed + m ≠ d.bytesUsed) := by
    simp only [answersBusy, hdata]
    split_ifs with he <;> simp [he]
  have hposition : ∀ y : Drive n, y.stream = x.stream →
      y.st.svc.ccfsmBytesProcessed = (taken d m w full x.st.svc).ccfsmBytesProcessed →
      y.st.svc.tailOffset = x.st.svc.tailOffset + m →
      y.pending = (if answersBusy d x.st.svc then some d else none) → Position y := by
    intro y hs hf ht hpend
    unfold Position
    rw [hpend, hbusy, hf, ht, hs]
    simp only [taken, decide_eq_true_eq, ne_eq, ite_not]
    split_ifs with he
    · exact ⟨rfl, by omega⟩
    · exact ⟨by omega, by omega, hpos.2.2⟩
  cases full with
  | false =>
    have hne : ¬ x.st.svc.tailOffset + m = K * im.chunk + Pieces.size im.chunk im.total K := fun e => by
      have := hfull.2 e; contradiction
    have hst : stepData d x.st = { x.st with svc := taken d m w false x.st.svc } := by simp [stepData, hdata]
    refine ⟨K, ?_⟩
    rw [hst]
    exact
      { toQueued := h.toQueued.congr rfl rfl (List.prefix_refl _) h.given rfl
        started := h.started, download := h.download, current := h.current, totalSize := h.totalSize
        chunk := h.chunk, len := h.len, head := h.head
        head_le := le_trans hle (Nat.le_add_right _ _)
        tail_le := hS
        room := fun hlt => by
          change x.st.svc.tailOffset + m < im.total at hlt
          change x.st.svc.tailOffset + m < x.st.svc.headOffset + im.chunk
          omega
        done := fun he => by
          change x.st.svc.tailOffset + m = im.total at he
          omega
        headFree := fun _ => hfree
        partial_bytes := fun b' hb' i hi => by
          obtain rfl : b = b' := Option.some.inj (hb.symm.trans hb')
          exact hmem i hi
        serving := ⟨q, hq.copy hcons⟩
        position := fun _ => hposition _ rfl rfl rfl rfl }
  | true =>
    have hend := hfull.1 rfl
    have hchunk := h.taken_chunk hT (d := d) hb hw hhead hend hmem
    have hst : stepData d x.st = { x.st with
        svc := taken d m w true x.st.svc, lock := x.st.lock + 1,
        queued := x.st.queued ++ [slotChunk { x.st with svc := taken d m w true x.st.svc } x.st.svc.chunkPoolHead] } := by
      simp [stepData, hdata]
    have hnext : x.st.svc.tailOffset + m = min ((K + 1) * im.chunk) im.total := by
      rw [Nat.add_mul, Nat.one_mul]; omega
    refine ⟨K + 1, ?_⟩
    rw [hst]
    exact
      { running := h.running
        queued := by
          change x.st.queued ++ [slotChunk { x.st with svc := taken d m w true x.st.svc } x.st.svc.chunkPoolHead] = _
          rw [h.queued, hchunk, List.range_succ, List.map_append, List.map_singleton, List.append_assoc]
        old_le := h.old_le
        given := h.given
        within := fun k hk => by
          rcases Nat.lt_succ_iff_lt_or_eq.1 hk with hk | rfl
          · exact h.within k hk
          · exact ⟨hw.start_lt, by rw [← hend]; exact hS⟩
        started := h.started, download := h.download, current := h.current, totalSize := h.totalSize
        chunk := h.chunk, len := h.len
        head := hnext
        head_le := le_rfl
        tail_le := hS
        room := fun hlt => by
          change x.st.svc.tailOffset + m < im.total at hlt
          change x.st.svc.tailOffset + m < x.st.svc.tailOffset + m + im.chunk
          have := h.room (by omega)
          omega
        done := fun he => he
        headFree := fun hlt => absurd hlt (lt_irrefl _)
        partial_bytes := fun b' hb' i hi => by
          change i < x.st.svc.tailOffset + m - (x.st.svc.tailOffset + m) at hi
          omega
        serving := ⟨_, hq.queue hcons⟩
        position := fun _ => hposition _ rfl rfl rfl rfl }

/-- a block is presented: one that was answered busy, or the next one -/
theorem Streaming.present {im : Image} {old : List Chunk} {K : ℕ} {x : Drive n} (h : Streaming im old K x)
    {d : DataReq} (hL : Legal im.total x (.data d)) :
    Streaming im old K { x with stream := if x.pending.isSome then x.stream else x.stream ++ d.bytes,
                                pending := some d } := by
  obtain ⟨hne, -, hsame, hlen, -⟩ := hL
  cases hp : x.pending with
  | some d' =>
    obtain rfl := hsame d' hp
    have hx : { x with stream := x.stream, pending := some d } = x := by rw [← hp]
    simp only [Option.isSome_some, if_true, hx]
    exact h
  | none =>
    have hle := h.tail_le
    simp only [Option.isSome_none, Bool.false_eq_true, if_false]
    refine { h with toQueued := h.toQueued.append _ _, len := ?_, tail_le := ?_, partial_bytes := ?_, position := ?_ }
    · rw [List.length_append, d.bytes_length]; exact hlen hp
    · exact le_trans hle (by simp)
    · intro b hb i hi
      change i < x.st.svc.tailOffset - x.st.svc.headOffset at hi
      have hlt : x.st.svc.headOffset + i < x.stream.length := by omega
      rw [h.partial_bytes b hb i hi]
      exact (List.getElem?_append_left hlt).symm
    · intro herr
      have hpos := h.position herr
      unfold Position at hpos ⊢
      rw [hp] at hpos
      simp only [List.length_append, d.bytes_length]
      exact ⟨by omega, by omega, List.suffix_append _ _⟩

/-- the callback's answer to the block presented -/
theorem Streaming.answer {im : Image} {old : List Chunk} {K : ℕ} {x : Drive n} (h : Streaming im old K x)
    (hT : im.total < 2 ^ 32) {d : DataReq} (hp : x.pending = some d) (htarget : d.targetNumber = x.st.svc.current)
    (hoff : x.st.svc.dataError ≠ .invalidData →
      d.offset = u32Sub x.st.svc.tailOffset x.st.svc.ccfsmBytesProcessed) :
    ∃ K', Streaming im old K' { x with st := stepData d x.st,
                                       pending := if answersBusy d x.st.svc then some d else none } := by
  by_cases herr : x.st.svc.dataError = .invalidData
  · have hdata : processFirmwareUpdateData d x.st.svc = some (x.st.svc, ⟨.cont, some .invalidData⟩, false) := by
      simp [processFirmwareUpdateData, htarget, h.started, herr]
    have hst : stepData d x.st = x.st := by simp [stepData, hdata]
    rw [hst]
    exact ⟨K, { h with toQueued := h.toQueued.congr rfl rfl (List.prefix_refl _) h.given rfl
                       position := fun hne => absurd herr hne }⟩
  · by_cases hfree : (x.st.svc.chunkPool x.st.svc.chunkPoolHead).inUse = false
    · exact h.consume hT hp htarget herr (hoff herr) hfree
    · have hdata : processFirmwareUpdateData d x.st.svc = some (x.st.svc, ⟨.busy, some .success⟩, false) := by
        simp [processFirmwareUpdateData, htarget, h.started, herr, hoff herr, hfree]
      have hst : stepData d x.st = x.st := by simp [stepData, hdata]
      have hbusy : answersBusy d x.st.svc = true := by simp [answersBusy, hdata]
      rw [hst, hbusy, if_pos rfl, ← hp]
      exact ⟨K, h⟩

/-- once the download is over the callback answers with an error -/
theorem Completed.data {im : Image} {old : List Chunk} {K : ℕ} {x : Drive n} (h : Completed im old K x) (d : DataReq) :
    Completed im old K (x.step (.data d)) := by
  have hdata : processFirmwareUpdateData d x.st.svc = some (x.st.svc, ⟨.error, none⟩, false) := by
    unfold processFirmwareUpdateData
    simp only [h.stopped]
    split_ifs <;> first | rfl | contradiction
  have hst : Firmware.step x.st (.data d) = x.st := by
    unfold Firmware.step
    rw [if_neg (by simp [h.running])]
    simp [stepData, hdata]
  have hbusy : answersBusy d x.st.svc = false := by simp [answersBusy, hdata]
  simp only [Drive.step, hst, hbusy]
  cases x.pending with
  | some d' => exact ⟨h.toQueued.congr rfl rfl (List.prefix_refl _) h.given rfl, h.stopped, h.idle⟩
  | none => exact ⟨h.toQueued.append _ _, h.stopped, h.idle⟩

/-- **Every legal step keeps the invariant.** -/
theorem step_streaming {im : Image} (hT : im.total < 2 ^ 32) {old : List Chunk} (x : Drive n) (o : DriveOp n)
    (h : StreamInv im old x) (hL : Legal im.total x o) : StreamInv im old (x.step o) := by
  obtain ⟨K, h | h⟩ := h
  · cases o with
    | data d =>
      obtain ⟨K', h'⟩ := (h.present hL).answer hT rfl hL.2.1 (hL.2.2.2.2 h.started)
      refine ⟨K', Or.inl ?_⟩
      simp only [Drive.step, Firmware.step, h.running]
      exact h'
    | complete target =>
      have hst : Firmware.step x.st (.complete target) =
          { x.st with svc := (processFirmwareUpdateComplete target x.st.svc).1 } := by
        simp [Firmware.step, h.running]
      simp only [Drive.step, hst]
      rcases complete_cases target x.st.svc with ht | ⟨-, hu, ht⟩ <;> rw [ht]
      · exact ⟨K, Or.inl h⟩
      · obtain ⟨q, hq⟩ := h.serving
        exact ⟨K, Or.inr ⟨h.toQueued.congr rfl rfl (List.prefix_refl _) h.given rfl, rfl,
          (hq.idle hu).congr rfl rfl rfl rfl⟩⟩
    | thread o =>
      simp only [Drive.step]
      split_ifs with ho
      · refine ⟨K, Or.inl ?_⟩
        rw [step_eq_stepThread h.running ho]
        exact h.thread o
      · exact ⟨K, Or.inl h⟩
  · cases o with
    | data d => exact ⟨K, Or.inr (h.data d)⟩
    | complete target =>
      have hst : Firmware.step x.st (.complete target) =
          { x.st with svc := (processFirmwareUpdateComplete target x.st.svc).1 } := by
        simp [Firmware.step, h.running]
      simp only [Drive.step, hst]
      rcases complete_cases target x.st.svc with ht | ⟨hstarted, -⟩
      · rw [ht]; exact ⟨K, Or.inr h⟩
      · rw [h.stopped] at hstarted; contradiction
    | thread o =>
      simp only [Drive.step]
      split_ifs with ho
      · refine ⟨K, Or.inr ?_⟩
        rw [step_eq_stepThread h.running ho]
        exact h.thread o
      · exact ⟨K, Or.inr h⟩

/-! ## The start -/

/-- a start answered with success has come to the set-up -/
theorem request_of_success {r : StartReq} {request : RequestError} {ok : Fin (n + 1) → Bool} {s : Svc n}
    (h : (processFirmwareUpdateRequest r request ok s).2 = ⟨.cont, some .success⟩) :
    s.updateStarted = false ∧ processFirmwareUpdateRequest r request ok s = setUpDownload r ok s := by
  have hrefusal : ∀ status, refusal r request s = some status → status ≠ .success := by
    intro status hs
    simp only [refusal] at hs
    split_ifs at hs with hmax hreq
    · cases hs; simp
    · cases hs
      cases request <;> simp [RequestError.status] at hreq ⊢
  unfold processFirmwareUpdateRequest at h ⊢
  split_ifs at h ⊢ with hr hst
  · simp at h
  · refine ⟨by simpa using hst, ?_⟩
    cases href : refusal r request s with
    | some status =>
      rw [href] at h
      simp only [Answer.mk.injEq, Option.some.injEq, true_and] at h
      exact absurd h (hrefusal status href)
    | none => rfl
  · simp at h

/-- and has set the pool up -/
theorem setUp_of_success {r : StartReq} {request : RequestError} {ok : Fin (n + 1) → Bool} {s : Svc n}
    (h : (processFirmwareUpdateRequest r request ok s).2 = ⟨.cont, some .success⟩) :
    s.updateStarted = false ∧ SetUp r ok s (processFirmwareUpdateRequest r request ok s).1 := by
  obtain ⟨hst, heq⟩ := request_of_success h
  rw [heq] at h ⊢
  exact ⟨hst, setUpDownload_ok h⟩

/-- the image of an accepted download -/
def imageOf (s : St n) (r : StartReq) : Image :=
  { download := s.download + 1, target := r.targetNumber, chunk := u32 (chunkSizeOf s r), total := r.codeSize }

theorem begin_svc {s : St n} {r : StartReq} {request : RequestError} {ok : Fin (n + 1) → Bool}
    (hcr : s.crashed = false)
    (h : (processFirmwareUpdateRequest r request ok s.svc).2 = ⟨.cont, some .success⟩) : (Drive.begin s r request ok).st =
      { s with svc := (processFirmwareUpdateRequest r request ok s.svc).1, download := s.download + 1 } := by
  obtain ⟨hst, hset⟩ := setUp_of_success h
  have hstep : Firmware.step s (.start r request ok) = stepStart r request ok s := by
    unfold Firmware.step
    rw [if_neg (by simp [hcr])]
  simp [Drive.begin, hstep, stepStart, hset.started, hst]

theorem begin_streaming {s : St n} {r : StartReq} {request : RequestError} {ok : Fin (n + 1) → Bool}
    (h : Accepted s r request ok) (h32 : r.codeSize < 2 ^ 32) (hc : u32 (chunkSizeOf s r) ≠ 0 ∨ r.codeSize = 0) :
    Streaming (imageOf s r) s.calls 0 (Drive.begin s r request ok) := by
  obtain ⟨hst, hset⟩ := setUp_of_success h.success
  have hserving := hset.serving ⟨Or.inl h.pc, h.lock, h.history⟩ (fun hp => by rw [h.pc] at hp; contradiction)
    (s.download + 1)
  have hbegin := begin_svc h.running h.success
  obtain ⟨hhead, htail, hbytes⟩ := hset.offsets
  have htotal : (processFirmwareUpdateRequest r request ok s.svc).1.totalSize = r.codeSize := by
    rw [hset.totalSize, u32_eq h32]
  have hchunk : u32 ((processFirmwareUpdateRequest r request ok s.svc).1.target r.targetNumber).chunkSize =
      u32 (chunkSizeOf s r) := by
    rw [hset.target, Function.update_self]; rfl
  exact
    { running := by rw [hbegin]; exact h.running
      queued := by rw [hbegin]; simpa using h.history
      old_le := by rw [hbegin]
      given := by rw [hbegin]; simp [h.pc, Pc.given]
      within := by simp
      started := by rw [hbegin]; exact hset.started
      download := by rw [hbegin]; rfl
      current := by rw [hbegin]; exact hset.current
      totalSize := by rw [hbegin]; exact htotal
      chunk := by rw [hbegin]; exact hchunk
      len := Nat.zero_le _
      head := by rw [hbegin]; simpa using hhead
      head_le := by rw [hbegin]; simp [hhead]
      tail_le := by rw [hbegin]; simp [htail]
      room := fun hlt => by
        rw [hbegin] at hlt ⊢
        simp only [imageOf, hhead, htail] at hlt ⊢
        omega
      done := fun he => by
        rw [hbegin] at he ⊢
        simp only [imageOf, hhead, htail] at he ⊢
        exact he
      headFree := fun hlt => by
        rw [hbegin] at hlt
        simp [hhead, htail] at hlt
      partial_bytes := fun b _ i hi => by
        rw [hbegin] at hi
        simp [hhead, htail] at hi
      serving := by rw [hbegin]; exact ⟨[], hserving⟩
      position := fun _ => by
        unfold Position
        rw [hbegin]
        exact ⟨hbytes, htail⟩ }

/-! ## Main results -/

/-- the chunks given are the first chunks of the image -/
theorem Queued.calls_eq {im : Image} {old : List Chunk} {K : ℕ} {x : Drive n} (h : Queued im old K x)
    (hpre : x.st.calls <+: x.st.queued) :
    ∃ j ≤ K, x.st.calls = old ++ (List.range j).map (im.chunkAt x.stream) := by
  obtain ⟨l, hl⟩ := h.old_le
  rw [h.queued, ← hl, List.prefix_append_right_inj, List.prefix_iff_eq_take] at hpre
  refine ⟨min l.length K, Nat.min_le_right _ _, ?_⟩
  rw [← hl, List.append_cancel_left_eq, hpre, ← List.map_take, List.take_range]
  simp

/-- the first chunks of the image are consecutive pieces of the byte string -/
theorem chunks_exact {im : Image} (hc : im.chunk ≠ 0 ∨ im.total = 0) {l : List UInt8} {j : ℕ}
    (hw : ∀ k < j, k * im.chunk < im.total ∧ k * im.chunk + Pieces.size im.chunk im.total k ≤ l.length) :
    (∀ k c, ((List.range j).map (im.chunkAt l))[k]? = some c →
      c.offset = ((((List.range j).map (im.chunkAt l)).take k).map Chunk.size).sum) ∧
    (((List.range j).map (im.chunkAt l)).map Chunk.data).flatten = l.take (min (j * im.chunk) im.total) ∧
    ∀ c ∈ (List.range j).map (im.chunkAt l), (c.data.length = c.size ∧ 0 < c.size) ∧
      (c.last = true ↔ c.offset + c.size = im.total) := by
  refine ⟨fun k c hk => ?_, ?_, fun c hcm => ?_⟩
  · rw [List.getElem?_map, Option.map_eq_some_iff] at hk
    obtain ⟨k', hk', rfl⟩ := hk
    obtain ⟨hkj, rfl⟩ := List.getElem?_eq_some_iff.1 hk'
    rw [List.length_range] at hkj
    rw [List.getElem_range, ← List.map_take, List.take_range, Nat.min_eq_left hkj.le, List.map_map]
    have hsum : ((List.range k).map (Pieces.size im.chunk im.total)).sum = min (k * im.chunk) im.total :=
      Pieces.sum_size k
    rw [Nat.min_eq_left (hw k hkj).1.le] at hsum
    exact hsum.symm
  · rw [List.map_map]; exact Pieces.flatten_pieces l j
  · obtain ⟨k, hk, rfl⟩ := List.mem_map.1 hcm
    obtain ⟨h1, h2⟩ := hw k (List.mem_range.1 hk)
    refine ⟨⟨Pieces.length_piece h2, Pieces.size_pos (by omega) h1⟩, ?_⟩
    simp [Image.chunkAt]

theorem StreamInv.exact {im : Image} (hc : im.chunk ≠ 0 ∨ im.total = 0) {old : List Chunk} {x : Drive n}
    (h : StreamInv im old x) : ∃ j, (∀ k < j, k * im.chunk < im.total) ∧
      Exact im.total old ((List.range j).map (im.chunkAt x.stream)) x := by
  obtain ⟨K, h⟩ := h
  have hq : Queued im old K x := h.elim Streaming.toQueued Completed.toQueued
  have hinv : QueueInv x.st := h.elim (fun h => Or.inr ⟨h.started, h.serving⟩) fun h => Or.inl ⟨h.stopped, h.idle⟩
  obtain ⟨j, hj, hcalls⟩ := hq.calls_eq hinv.calls_initial
  have hw : ∀ k < j, k * im.chunk < im.total ∧ k * im.chunk + Pieces.size im.chunk im.total k ≤ x.stream.length :=
    fun k hk => hq.within k (by omega)
  obtain ⟨hoff, hbytes, hchunks⟩ := chunks_exact hc hw
  refine ⟨j, fun k hk => (hw k hk).1, ⟨hq.running, hcalls, hoff, ?_, fun c hm => (hchunks c hm).1,
    fun c hm => (hchunks c hm).2, fun i hpc => ?_, fun hst herr hp hpc hl hlen => ?_⟩⟩
  · rw [hbytes]; exact List.take_prefix _ _
  · have hg := hq.given
    have hlast := hinv.held hpc
    rw [hcalls] at hg hlast
    rw [hpc] at hg
    have hne : (List.range j).map (im.chunkAt x.stream) ≠ [] := by
      intro he
      rw [he] at hg
      simp [Pc.given] at hg
    rwa [List.getLast?_append_of_ne_nil _ hne] at hlast
  · rcases h with h | h
    · have hpos := h.position herr
      unfold Position at hpos
      rw [hp] at hpos
      have hhead := h.head
      rw [h.done (hpos.2.trans hlen)] at hhead
      have hall := hinv.all_given hpc hl
      rw [hcalls, hq.queued, List.append_cancel_left_eq] at hall
      have hjK : j = K := by simpa using congrArg List.length hall
      rw [hbytes, hjK, ← hhead, ← hlen, List.take_length]
    · rw [h.stopped] at hst; contradiction

theorem Image.full {im : Image} {chunkSize : ℕ} (hc : im.chunk = chunkSize ∨ im.total ≤ im.chunk) {l : List UInt8}
    {j : ℕ} (hw : ∀ k < j, k * im.chunk < im.total) : Full chunkSize ((List.range j).map (im.chunkAt l)) := by
  intro c hm hlast
  obtain ⟨k, hk, rfl⟩ := List.mem_map.1 hm
  have hlt := hw k (List.mem_range.1 hk)
  simp only [Image.chunkAt, decide_eq_false_iff_not] at hlast
  have hsize := Pieces.size_eq hlt.le hlast
  rcases hc with hc | hc
  · rw [← hc]; exact hsize
  · -- the image fits into one chunk, which is then the last
    have hend := Pieces.end_le_total (c := im.chunk) hlt.le
    omega

theorem withChunkSize_ne (t : Target) : t.withChunkSize.chunkSize ≠ 0 := by
  unfold Target.withChunkSize
  split_ifs with h
  · simp [msgMaxRecvPacketSize]
  · exact h

/-- a block of m zeros for a download at its start -/
def firstBlock (r : StartReq) (m : ℕ) : DataReq := ⟨r.targetNumber, 0, fun _ => 0, m⟩

theorem firstBlock_legal {s : St n} {r : StartReq} {request : RequestError} {ok : Fin (n + 1) → Bool}
    (hcr : s.crashed = false)
    (h : (processFirmwareUpdateRequest r request ok s.svc).2 = ⟨.cont, some .success⟩) {m : ℕ} (hm : 0 < m) (hle : m ≤ r.codeSize) :
    Legal r.codeSize (Drive.begin s r request ok) (.data (firstBlock r m)) := by
  obtain ⟨-, hset⟩ := setUp_of_success h
  have hbegin := begin_svc hcr h
  refine ⟨hm, ?_, fun d' hd => ?_, fun _ => ?_, fun _ _ => ?_⟩
  · rw [hbegin]; exact hset.current.symm
  · simp [Drive.begin] at hd
  · simpa [Drive.begin, firstBlock] using hle
  · rw [hbegin]
    simp [firstBlock, hset.offsets, u32Sub]

/-- what the data callback does with the first block -/
theorem SetUp.firstBlock {r : StartReq} {ok : Fin (n + 1) → Bool} {s t : Svc n} (h : SetUp r ok s t) (m : ℕ) :
    processFirmwareUpdateData (firstBlock r m) t =
      if u32 (s.target r.targetNumber).withChunkSize.chunkSize = 0 then none
      else some (consumeData (u32 (s.target r.targetNumber).withChunkSize.chunkSize) (Firmware.firstBlock r m) t) := by
  have hfree : (t.chunkPool t.chunkPoolHead).inUse = false := by
    obtain ⟨b, hb, -⟩ := h.slots t.chunkPoolHead
    rw [hb]
  simp [processFirmwareUpdateData, Firmware.firstBlock, h.current, h.started, h.dataError, h.offsets, hfree, h.target,
    u32Sub]

/-- with a chunk size of 0 the first block crashes the callback -/
theorem crash_on_zero {s : St n} {r : StartReq} {request : RequestError} {ok : Fin (n + 1) → Bool}
    (hcr : s.crashed = false)
    (h : (processFirmwareUpdateRequest r request ok s.svc).2 = ⟨.cont, some .success⟩) (hc : u32 (chunkSizeOf s r) = 0) (m : ℕ) :
    ((Drive.begin s r request ok).step (.data (firstBlock r m))).st.crashed = true := by
  obtain ⟨-, hset⟩ := setUp_of_success h
  have hdata := (hset.firstBlock m).trans (if_pos hc)
  simp [Drive.step, begin_svc hcr h, Firmware.step, hcr, stepData, hdata]

/-- a first block as long as a chunk fills it -/
theorem SetUp.first_full {r : StartReq} {ok : Fin (n + 1) → Bool} {s t : Svc n} (h : SetUp r ok s t) {c : ℕ}
    (hc : u32 (s.target r.targetNumber).withChunkSize.chunkSize = c) (hc0 : c ≠ 0) :
    ∃ u a, processFirmwareUpdateData (Firmware.firstBlock r c) t = some (u, a, true) ∧ u.headOffset = c ∧
      u.totalSize = t.totalSize := by
  obtain ⟨hhead, htail, hbytes⟩ := h.offsets
  have hlt : c < 2 ^ 32 := hc ▸ u32_lt _
  rw [h.firstBlock, hc, if_neg hc0, @consumeData_eq _ _ _ _ c c (by simp [hbytes, htail, Firmware.firstBlock])
    (by simp [htail]) (by simp [hbytes]) hlt hlt (by simp [hhead])]
  obtain ⟨w, hw⟩ : ∃ w, copyToHead (Firmware.firstBlock r c) (t.tailOffset % c) c t = { t with heap := w } :=
    (copyToHead_eq _ _ _ _).imp' _ fun _ hm => hm.1
  simp only [Nat.mod_self, decide_true, Bool.or_true, if_true, hw]
  split_ifs <;> exact ⟨_, _, rfl, rfl, rfl⟩

/-- a first block that fills a chunk is given to the user as it is -/
theorem first_chunk {s : St n} {r : StartReq} {request : RequestError} {ok : Fin (n + 1) → Bool}
    (h : Accepted s r request ok) (hc : u32 (chunkSizeOf s r) ≠ 0) :
    (run Drive.step (Drive.begin s r request ok)
      [.data (firstBlock r (u32 (chunkSizeOf s r))), .thread .wake, .thread .call]).st.calls.length =
        s.calls.length + 1 := by
  obtain ⟨-, hset⟩ := setUp_of_success h.success
  obtain ⟨t, a, hdata, -⟩ := hset.first_full rfl hc
  set svc := (processFirmwareUpdateRequest r request ok s.svc).1
  simp [Drive.step, begin_svc h.running h.success, Firmware.step, h.running, stepData, hdata, svc, Op.isThread, stepThread,
    h.pc, h.lock, chunkSizeOf]

/-- **A download is streamed exactly**, for a size that `total_size` can hold, in every run exactly when the `uint32_t` of
the data callback that holds `chunk_size` is not 0 or the image is empty; and then in chunks of `chunk_size` bytes, the
last one apart, exactly when `chunk_size` fits into it or the image fits into one chunk. -/
theorem streamed_iff {s : St n} {r : StartReq} {request : RequestError} {ok : Fin (n + 1) → Bool}
    (h : Accepted s r request ok) (h32 : r.codeSize < 2 ^ 32) :
    ((∀ ops, Along Drive.step (Legal r.codeSize) (Drive.begin s r request ok) ops →
        ∃ l, Exact r.codeSize s.calls l (run Drive.step (Drive.begin s r request ok) ops)) ↔
      u32 (chunkSizeOf s r) ≠ 0 ∨ r.codeSize = 0) ∧
    ((∀ ops, Along Drive.step (Legal r.codeSize) (Drive.begin s r request ok) ops →
        ∃ l, Exact r.codeSize s.calls l (run Drive.step (Drive.begin s r request ok) ops) ∧
          Full (chunkSizeOf s r) l) ↔
      chunkSizeOf s r < 2 ^ 32 ∨ r.codeSize ≤ u32 (chunkSizeOf s r)) := by
  have hexact (hc : u32 (chunkSizeOf s r) ≠ 0 ∨ r.codeSize = 0) (ops)
      (hL : Along Drive.step (Legal r.codeSize) (Drive.begin s r request ok) ops) :=
    (show StreamInv (imageOf s r) s.calls _ from
      run_inv (step_streaming h32) ⟨0, Or.inl (begin_streaming h h32 hc)⟩ hL).exact hc
  have hcrash (hc : u32 (chunkSizeOf s r) = 0) (h0 : r.codeSize ≠ 0) :
      ¬ ∀ ops, Along Drive.step (Legal r.codeSize) (Drive.begin s r request ok) ops →
        ∃ l, Exact r.codeSize s.calls l (run Drive.step (Drive.begin s r request ok) ops) := by
    intro hall
    obtain ⟨l, hl⟩ := hall [.data (firstBlock r 1)] ⟨firstBlock_legal h.running h.success one_pos (by omega), trivial⟩
    have := hl.running
    rw [run_cons, run_nil, crash_on_zero h.running h.success hc] at this
    contradiction
  constructor
  · constructor
    · intro hall
      by_contra hc
      push Not at hc
      exact hcrash hc.1 hc.2 hall
    · intro hc ops hL
      obtain ⟨j, -, hl⟩ := hexact hc ops hL
      exact ⟨_, hl⟩
  · constructor
    · intro hall
      by_contra hlarge
      push Not at hlarge
      obtain ⟨hlarge, hlt⟩ := hlarge
      have hc : u32 (chunkSizeOf s r) ≠ 0 := fun hc =>
        hcrash hc (by omega) fun ops hL => (hall ops hL).imp fun _ hl => hl.1
      have hL : Along Drive.step (Legal r.codeSize) (Drive.begin s r request ok)
          [.data (firstBlock r (u32 (chunkSizeOf s r))), .thread .wake, .thread .call] :=
        ⟨firstBlock_legal h.running h.success (by omega) hlt.le, trivial, trivial, trivial⟩
      obtain ⟨j, hw, hj⟩ := hexact (Or.inl hc) _ hL
      obtain ⟨l, hl, hfull⟩ := hall _ hL
      have hlen := first_chunk h hc
      -- the one chunk given is chunk 0 of the image, which is shorter than chunk_size and not the last
      have heq := hl.calls.symm.trans hj.calls
      rw [List.append_cancel_left_eq] at heq
      rw [hl.calls, List.length_append, heq, List.length_map, List.length_range] at hlen
      have hsize : Pieces.size (imageOf s r).chunk (imageOf s r).total 0 = u32 (chunkSizeOf s r) := by
        simp only [Pieces.size, imageOf]; omega
      have hmem : (imageOf s r).chunkAt (run Drive.step (Drive.begin s r request ok)
          [.data (firstBlock r (u32 (chunkSizeOf s r))), .thread .wake, .thread .call]).stream 0 ∈ l := by
        rw [heq]
        exact List.mem_map_of_mem (List.mem_range.2 (by omega))
      have hshort := hfull _ hmem (by
        simp only [Image.chunkAt, hsize, Nat.zero_mul, Nat.zero_add, decide_eq_false_iff_not]
        exact fun he => absurd he (by simp only [imageOf]; omega))
      simp only [Image.chunkAt, hsize] at hshort
      have := u32_lt (chunkSizeOf s r)
      omega
    · intro hc ops hL
      have hne := withChunkSize_ne (s.svc.target r.targetNumber)
      have hc' : u32 (chunkSizeOf s r) ≠ 0 ∨ r.codeSize = 0 := by
        rcases hc with hc | hc
        · left; rw [u32_eq hc]; exact hne
        · omega
      obtain ⟨j, hw, hl⟩ := hexact hc' ops hL
      exact ⟨_, hl, Image.full (hc.imp (fun hc => u32_eq hc) id) hw⟩

/-- an image of 6 bytes for a target with a given chunk size -/
theorem accepted_six (chunkSize : ℕ) : Accepted (St.fresh 1 1 fun _ => ⟨0, chunkSize⟩) ⟨0, 6⟩ .none
    fun _ => true :=
  ⟨rfl, rfl, rfl, rfl, rfl⟩

theorem streamed_six :
    Accepted (St.fresh 1 1 fun _ => ⟨0, 4⟩) ⟨0, 6⟩ .none (fun _ => true) ∧
    ∀ ops, Along Drive.step (Legal 6)
      (Drive.begin (St.fresh 1 1 fun _ => ⟨0, 4⟩) ⟨0, 6⟩ .none fun _ => true) ops →
        ∃ l, Exact 6 [] l (run Drive.step
          (Drive.begin (St.fresh 1 1 fun _ => ⟨0, 4⟩) ⟨0, 6⟩ .none fun _ => true) ops) ∧ Full 4 l :=
  ⟨accepted_six 4, (streamed_iff (accepted_six 4) (by decide)).2.2 (by decide)⟩

/-- **A chunk size of 2^32** is positive and 0 in the callback's `uint32_t`: the first block divides by zero. -/
theorem narrowed_to_zero : ¬ ∀ (n : ℕ) (s : St n) (r : StartReq) (request : RequestError) (ok : Fin (n + 1) → Bool),
    Accepted s r request ok → 0 < (s.svc.target r.targetNumber).chunkSize →
    ∀ ops, Along Drive.step (Legal r.codeSize) (Drive.begin s r request ok) ops →
      ∃ l, Exact r.codeSize s.calls l (run Drive.step (Drive.begin s r request ok) ops) := by
  intro h
  have hacc := accepted_six (2 ^ 32)
  obtain ⟨l, hl⟩ := h 1 _ _ _ _ hacc (by simp [St.fresh, Svc.fresh])
    [.data (firstBlock ⟨0, 6⟩ 1)] ⟨firstBlock_legal hacc.running hacc.success one_pos (by decide), trivial⟩
  have hcrash := crash_on_zero hacc.running hacc.success (by decide) 1
  have := hl.running
  rw [run_cons, run_nil, hcrash] at this
  contradiction

end CcApi.Firmware
