/-
Firmware downloads one after the other (`ccapi_firmware_update_handler.c`).

`Streaming` is about one download. Here the connector makes any number of them, each ended by complete or abort: `Life` is the
service with what the connector has presented for every download, by the download's number, and the completes it was answered.

- `Tiles`: chunks are consecutive pieces of a byte string, from offset 0 on.
- `step_inv`: every step keeps the books of the past downloads, and ties the present one to the service.
- `images_delivered`: the chunks given to the user for each download tile the bytes presented for it; a complete answered with
  success means that the user has all of them; the chunks of a download come before those of the next; and once a download has
  been ended the user is in no data callback.

A chunk size the callback narrows to 0 is left to `streamed_iff`, a start that lands between the thread's last two writes to
`tail_ahead`: no start here is one of these.
-/
import CcApi.Firmware.Verdict

namespace CcApi.Firmware

open Lib Lib.Runs

variable {n : ℕ}

/-! ## The books -/

/-- the chunks are consecutive pieces of the byte string, of an image of this size, from offset 0 on -/
structure Tiles (total : ℕ) (stream : List UInt8) (l : List Chunk) : Prop where
  offset : ∀ k c, l[k]? = some c → c.offset = ((l.take k).map Chunk.size).sum
  bytes : (l.map Chunk.data).flatten <+: stream
  size : ∀ c ∈ l, c.data.length = c.size ∧ 0 < c.size
  last : ∀ c ∈ l, c.last = true ↔ c.offset + c.size = total

/-- the service, and for each download by its number what the connector has to do with it -/
structure Life (n : ℕ) where
  st : St n
  /-- the bytes of the blocks presented -/
  presented : ℕ → List UInt8
  codeSize : ℕ → ℕ
  /-- its complete was answered with success -/
  succeeded : ℕ → Bool
  /-- the block answered busy -/
  pending : Option DataReq

namespace Life

/-- the present download -/
def drive (x : Life n) : Drive n := ⟨x.st, x.presented x.st.download, x.pending⟩

/-- the user's data callbacks for a download -/
def chunks (x : Life n) (k : ℕ) : List Chunk := x.st.calls.filter (·.download = k)

/-- a complete is answered with success -/
def completes (target : ℕ) (s : Svc n) : Bool := (processFirmwareUpdateComplete target s).2 = ⟨.cont, some .downloadSuccess⟩

def step (x : Life n) : Op n → Life n
  | .start r request ok =>
    let st := Firmware.step x.st (.start r request ok)
    if st.download = x.st.download then { x with st := st }
    else
      { st := st
        presented := Function.update x.presented st.download []
        codeSize := Function.update x.codeSize st.download r.codeSize
        succeeded := Function.update x.succeeded st.download false
        pending := none }
  | .data d =>
    if x.st.svc.updateStarted then
      let y := x.drive.step (.data d)
      { x with st := y.st, presented := Function.update x.presented x.st.download y.stream, pending := y.pending }
    else { x with st := Firmware.step x.st (.data d) }
  | .complete target =>
    { x with
      st := Firmware.step x.st (.complete target)
      succeeded :=
        if completes target x.st.svc then Function.update x.succeeded x.st.download true else x.succeeded }
  | o => { x with st := Firmware.step x.st o }

/-- starts come between downloads and not between the thread's last two writes, with sizes that fit; blocks are as `Streaming`
has them -/
def Legal (x : Life n) : Op n → Prop
  | .start r _ _ => x.st.svc.updateStarted = false ∧ x.st.pc ≠ .cleared ∧ r.codeSize < 2 ^ 32 ∧
      (u32 (chunkSizeOf x.st r) ≠ 0 ∨ r.codeSize = 0)
  | .data d => x.st.svc.updateStarted = true → Firmware.Legal (x.codeSize x.st.download) x.drive (.data d)
  | _ => True

def begin (s : St n) : Life n := ⟨s, fun _ => [], fun _ => 0, fun _ => false, none⟩

/-- what becomes of the downloads -/
structure Delivered (x : Life n) : Prop where
  running : x.st.crashed = false
  tiles : ∀ k, Tiles (x.codeSize k) (x.presented k) (x.chunks k)
  whole : ∀ k, x.succeeded k = true →
    ((x.chunks k).map Chunk.data).flatten = x.presented k ∧ (x.presented k).length = x.codeSize k
  order : x.st.calls.Pairwise fun c c' => c.download ≤ c'.download
  quiet : x.st.svc.updateStarted = false → x.st.pc.given = 0

/-! ## The present download -/

/-- the chunks of the present download stand behind those of the earlier ones -/
structure Present (im : Image) (old : List Chunk) (x : Life n) : Prop where
  number : im.download = x.st.download
  total : im.total = x.codeSize x.st.download
  small : im.total < 2 ^ 32
  chunk : im.chunk ≠ 0 ∨ im.total = 0
  earlier : ∀ c ∈ old, c.download < x.st.download
  sorted : old.Pairwise fun c c' => c.download ≤ c'.download
  open_ : x.succeeded x.st.download = false
  streaming : ∃ K, Streaming im old K x.drive

structure Inv (x : Life n) : Prop where
  running : x.st.crashed = false
  tiles : ∀ k, Tiles (x.codeSize k) (x.presented k) (x.chunks k)
  whole : ∀ k, x.succeeded k = true →
    ((x.chunks k).map Chunk.data).flatten = x.presented k ∧ (x.presented k).length = x.codeSize k
  order : x.st.calls.Pairwise fun c c' => c.download ≤ c'.download
  known : ∀ c ∈ x.st.calls, c.download ≤ x.st.download
  now : (x.st.svc.updateStarted = false ∧ Idle x.st) ∨ ∃ im old, Present im old x

theorem tiles_nil (total : ℕ) : Tiles total [] [] :=
  ⟨fun k c hk => by simp at hk, List.prefix_refl _, fun c hc => absurd hc List.not_mem_nil,
    fun c hc => absurd hc List.not_mem_nil⟩

theorem drive_eq (x : Life n) : x.drive = ⟨x.st, x.presented x.st.download, x.pending⟩ := rfl

/-- the chunks given in the present download, and of each other one -/
theorem Present.chunks {im : Image} {old : List Chunk} {x : Life n} (h : Present im old x) :
    ∃ j, (∀ k < j, k * im.chunk < im.total) ∧ x.st.calls = old ++ (List.range j).map (im.chunkAt (x.presented x.st.download)) ∧
      Tiles (x.codeSize x.st.download) (x.presented x.st.download)
        ((List.range j).map (im.chunkAt (x.presented x.st.download))) := by
  obtain ⟨K, hs⟩ := h.streaming
  obtain ⟨j, hj, hexact⟩ := StreamInv.exact h.chunk ⟨K, Or.inl hs⟩
  refine ⟨j, hj, hexact.calls, hexact.offset, hexact.bytes, hexact.size, ?_⟩
  rw [← h.total]
  exact hexact.last

theorem filter_range {im : Image} {l : List UInt8} {j k : ℕ} :
    ((List.range j).map (im.chunkAt l)).filter (·.download = k) =
      if im.download = k then (List.range j).map (im.chunkAt l) else [] := by
  split_ifs with hk
  · rw [List.filter_eq_self]
    intro c hc
    obtain ⟨i, -, rfl⟩ := List.mem_map.1 hc
    exact decide_eq_true hk
  · rw [List.filter_eq_nil_iff]
    intro c hc
    obtain ⟨i, -, rfl⟩ := List.mem_map.1 hc
    exact fun h => hk (of_decide_eq_true h)

theorem filter_old {old : List Chunk} {k : ℕ} (h : ∀ c ∈ old, c.download < k) : old.filter (·.download = k) = [] := by
  rw [List.filter_eq_nil_iff]
  intro c hc he
  exact absurd (of_decide_eq_true he) (h c hc).ne

/-- what the present download says about the books -/
theorem Present.books {im : Image} {old : List Chunk} {x : Life n} (h : Present im old x) :
    Tiles (x.codeSize x.st.download) (x.presented x.st.download) (x.chunks x.st.download) ∧
      (∀ k ≠ x.st.download, x.chunks k = old.filter (·.download = k)) ∧
      x.st.calls.Pairwise (fun c c' => c.download ≤ c'.download) ∧ ∀ c ∈ x.st.calls, c.download ≤ x.st.download := by
  obtain ⟨j, -, hcalls, htiles⟩ := h.chunks
  have hnew : ∀ c ∈ (List.range j).map (im.chunkAt (x.presented x.st.download)), c.download = x.st.download := by
    intro c hc
    obtain ⟨i, -, rfl⟩ := List.mem_map.1 hc
    exact h.number
  refine ⟨?_, fun k hk => ?_, ?_, fun c hc => ?_⟩
  · rw [Life.chunks, hcalls, List.filter_append, filter_old h.earlier, filter_range, if_pos h.number, List.nil_append]
    exact htiles
  · rw [Life.chunks, hcalls, List.filter_append, filter_range, if_neg (fun he => hk (he.symm.trans h.number)), List.append_nil]
  · rw [hcalls, List.pairwise_append]
    refine ⟨h.sorted, ?_, fun c hc c' hc' => ?_⟩
    · rw [List.pairwise_iff_forall_sublist]
      intro c c' hsub
      rw [hnew c (hsub.subset (by simp)), hnew c' (hsub.subset (by simp))]
    · rw [hnew c' hc']
      exact (h.earlier c hc).le
  · rw [hcalls, List.mem_append] at hc
    rcases hc with hc | hc
    · exact (h.earlier c hc).le
    · exact (hnew c hc).le

/-- a step within the present download leaves the books of the others alone -/
theorem Inv.within {x y : Life n} (h : Inv x) {im : Image} {old : List Chunk} (hx : Present im old x) (hy : Present im old y)
    (hdownload : y.st.download = x.st.download) (hsize : y.codeSize = x.codeSize) (hsucceeded : y.succeeded = x.succeeded)
    (hpresented : ∀ k ≠ x.st.download, y.presented k = x.presented k) : Inv y := by
  obtain ⟨-, hothers, -, -⟩ := hx.books
  obtain ⟨htiles, hothers', horder, hknown⟩ := hy.books
  have hrunning : y.st.crashed = false := by
    obtain ⟨K, hs⟩ := hy.streaming
    exact hs.running
  refine ⟨hrunning, fun k => ?_, fun k hk => ?_, horder, hknown, Or.inr ⟨im, old, hy⟩⟩
  · by_cases hcur : k = y.st.download
    · rw [hcur]
      exact htiles
    · rw [hothers' k hcur, ← hothers k (hdownload ▸ hcur), hsize, hpresented k (hdownload ▸ hcur)]
      exact h.tiles k
  · have hne : k ≠ x.st.download := by
      rintro rfl
      rw [hsucceeded, hx.open_] at hk
      contradiction
    rw [hothers' k (hdownload ▸ hne), ← hothers k hne, hsize, hpresented k hne]
    exact h.whole k (hsucceeded ▸ hk)

/-- a download whose last chunk has been given is whole -/
theorem Present.whole {im : Image} {old : List Chunk} {x : Life n} (h : Present im old x) (hidle : Idle x.st)
    (hhead : x.st.svc.headOffset = x.st.svc.totalSize) :
    ((x.chunks x.st.download).map Chunk.data).flatten = x.presented x.st.download ∧
      (x.presented x.st.download).length = x.codeSize x.st.download := by
  obtain ⟨K, hs⟩ := h.streaming
  have hfull : x.st.svc.headOffset = im.total := hhead.trans hs.totalSize
  have hlength : (x.presented x.st.download).length = im.total := by
    have h₁ : x.st.svc.headOffset ≤ x.st.svc.tailOffset := hs.head_le
    have h₂ : x.st.svc.tailOffset ≤ (x.presented x.st.download).length := hs.tail_le
    have h₃ : (x.presented x.st.download).length ≤ im.total := hs.len
    omega
  have hcalls : x.st.calls = old ++ (List.range K).map (im.chunkAt (x.presented x.st.download)) :=
    hidle.history.symm.trans hs.queued
  have hmin : min (K * im.chunk) im.total = im.total := hs.head.symm.trans hfull
  have hbytes : (((List.range K).map (im.chunkAt (x.presented x.st.download))).map Chunk.data).flatten =
      (x.presented x.st.download).take (min (K * im.chunk) im.total) := (chunks_exact h.chunk hs.within).2.1
  refine ⟨?_, hlength.trans h.total⟩
  rw [Life.chunks, hcalls, List.filter_append, filter_old h.earlier, filter_range, if_pos h.number, List.nil_append, hbytes,
    hmin, ← hlength, List.take_length]

/-! ## Steps -/

/-- the books of a service that has no download, and makes no call -/
theorem Inv.still {x y : Life n} (h : Inv x) (hrunning : y.st.crashed = false) (hcalls : y.st.calls = x.st.calls)
    (hdownload : y.st.download = x.st.download) (hsize : y.codeSize = x.codeSize) (hsucceeded : y.succeeded = x.succeeded)
    (hpresented : y.presented = x.presented) (hstopped : y.st.svc.updateStarted = false) (hidle : Idle y.st) : Inv y := by
  have hchunks (k : ℕ) : y.chunks k = x.chunks k := by rw [Life.chunks, hcalls, Life.chunks]
  refine ⟨hrunning, fun k => ?_, fun k hk => ?_, ?_, ?_, Or.inl ⟨hstopped, hidle⟩⟩
  · rw [hchunks, hsize, hpresented]
    exact h.tiles k
  · rw [hchunks, hsize, hpresented]
    exact h.whole k (hsucceeded ▸ hk)
  · rw [hcalls]
    exact h.order
  · rw [hcalls, hdownload]
    exact h.known

/-- a request that starts the download is answered with success -/
theorem success_of_started {r : StartReq} {request : RequestError} {ok : Fin (n + 1) → Bool} {s : Svc n}
    (hst : s.updateStarted = false) (ht : (processFirmwareUpdateRequest r request ok s).1.updateStarted = true) :
    (processFirmwareUpdateRequest r request ok s).2 = ⟨.cont, some .success⟩ := by
  unfold processFirmwareUpdateRequest at ht ⊢
  split_ifs at ht ⊢ with hr hup
  · rw [hst] at hup
    contradiction
  · cases href : refusal r request s with
    | some status =>
      rw [href, hst] at ht
      contradiction
    | none =>
      rw [href] at ht
      simp only [setUpDownload] at ht ⊢
      split_ifs at ht ⊢
      · rfl
      · rw [hst] at ht
        contradiction
  · rw [hst] at ht
    contradiction

/-- what a complete comes to -/
theorem complete_outcome (target : ℕ) (s : Svc n) :
    ((processFirmwareUpdateComplete target s).1 = s ∧ completes target s = false) ∨
    (s.updateStarted = true ∧ (∀ i, (s.chunkPool i).inUse = false) ∧
      (processFirmwareUpdateComplete target s).1 = freeAndStopService s ∧
      (completes target s = true → s.headOffset = s.totalSize)) := by
  by_cases hcur : s.current = target
  · cases hst : s.updateStarted with
    | false =>
      have heq : processFirmwareUpdateComplete target s = (s, ⟨.error, none⟩) := by
        simp [processFirmwareUpdateComplete, hst]
      exact Or.inl ⟨by rw [heq], by simp [completes, heq]⟩
    | true =>
      have heq := complete_eq hcur hst
      by_cases hpool : poolInUse s = true
      · rw [if_pos hpool] at heq
        exact Or.inl ⟨by rw [heq], by simp [completes, heq]⟩
      · rw [if_neg hpool] at heq
        refine Or.inr ⟨rfl, poolInUse_false hpool, by rw [heq], fun hdone => ?_⟩
        by_contra hhead
        simp [completes, heq, hhead] at hdone
  · have heq : processFirmwareUpdateComplete target s = (s, ⟨.error, none⟩) := by
      simp [processFirmwareUpdateComplete, Ne.symm hcur]
    exact Or.inl ⟨by rw [heq], by simp [completes, heq]⟩

theorem data_stopped {s : St n} (hst : s.svc.updateStarted = false) (d : DataReq) : Firmware.step s (.data d) = s := by
  have hdata : processFirmwareUpdateData d s.svc = some (s.svc, ⟨.error, none⟩, false) := by
    unfold processFirmwareUpdateData
    simp only [hst]
    split_ifs <;> first | rfl | contradiction
  unfold Firmware.step
  split_ifs
  · rfl
  · simp [stepData, hdata]

/-- **A start.** The present download begins behind all calls so far. -/
theorem Inv.start {x : Life n} (h : Inv x) {r : StartReq} {request : RequestError} {ok : Fin (n + 1) → Bool}
    (hL : Legal x (.start r request ok)) : Inv (x.step (.start r request ok)) := by
  obtain ⟨hst, hpc, h32, hchunk⟩ := hL
  have hidle : Idle x.st := by
    rcases h.now with ⟨-, hidle⟩ | ⟨im, old, hp⟩
    · exact hidle
    · obtain ⟨K, hs⟩ := hp.streaming
      have := hs.started
      rw [drive_eq, hst] at this
      contradiction
  have hstep : Firmware.step x.st (.start r request ok) = stepStart r request ok x.st := by
    unfold Firmware.step
    rw [if_neg (by simp [h.running])]
  cases hup : (processFirmwareUpdateRequest r request ok x.st.svc).1.updateStarted with
  | false =>
    have heq : x.step (.start r request ok) =
        { x with st := { x.st with svc := (processFirmwareUpdateRequest r request ok x.st.svc).1 } } := by
      simp [Life.step, hstep, stepStart, hup]
    rw [heq]
    exact h.still h.running rfl rfl rfl rfl rfl hup (hidle.congr rfl rfl rfl rfl)
  | true =>
    have hsuccess := success_of_started hst hup
    have hacc : Accepted x.st r request ok :=
      ⟨hidle.pc.resolve_right hpc, hidle.lock, h.running, hidle.history, hsuccess⟩
    have hbegin := begin_svc h.running hsuccess
    have hstreaming := begin_streaming hacc h32 hchunk
    have hst' : Firmware.step x.st (.start r request ok) =
        { x.st with
          svc := (processFirmwareUpdateRequest r request ok x.st.svc).1
          download := x.st.download + 1 } := hbegin
    have heq : x.step (.start r request ok) =
        { st := Firmware.step x.st (.start r request ok)
          presented := Function.update x.presented (x.st.download + 1) []
          codeSize := Function.update x.codeSize (x.st.download + 1) r.codeSize
          succeeded := Function.update x.succeeded (x.st.download + 1) false
          pending := none } := by
      simp only [Life.step]
      rw [if_neg (by rw [hst']; simp)]
      simp only [hst']
    have hnumber : (x.step (.start r request ok)).st.download = x.st.download + 1 := by rw [heq, hst']
    have hcalls : (x.step (.start r request ok)).st.calls = x.st.calls := by rw [heq, hst']
    have hdrive : (x.step (.start r request ok)).drive = Drive.begin x.st r request ok := by
      rw [drive_eq, hnumber, heq]
      simp [Drive.begin]
    have hp : Present (imageOf x.st r) x.st.calls (x.step (.start r request ok)) := by
      refine ⟨?_, ?_, h32, hchunk, fun c hc => ?_, h.order, ?_, ⟨0, ?_⟩⟩
      · rw [hnumber]
        rfl
      · rw [hnumber, heq]
        simp [imageOf]
      · rw [hnumber]
        exact Nat.lt_succ_of_le (h.known c hc)
      · rw [hnumber, heq]
        simp
      · rw [hdrive]
        exact hstreaming
    obtain ⟨htiles, hothers, horder, hknown⟩ := hp.books
    have hchunks {k : ℕ} (hk : k ≠ x.st.download + 1) : (x.step (.start r request ok)).chunks k = x.chunks k :=
      hothers k (by rw [hnumber]; exact hk)
    refine ⟨by rw [heq, hst']; exact h.running, fun k => ?_, fun k hk => ?_, horder, hknown, Or.inr ⟨_, _, hp⟩⟩
    · by_cases hcur : k = x.st.download + 1
      · rw [hcur, ← hnumber]
        exact htiles
      · rw [hchunks hcur, heq]
        simp only [Function.update_of_ne hcur]
        exact h.tiles k
    · have hcur : k ≠ x.st.download + 1 := by
        rintro rfl
        rw [heq] at hk
        simp at hk
      rw [hchunks hcur, heq]
      rw [heq] at hk
      simp only [Function.update_of_ne hcur] at hk ⊢
      exact h.whole k hk

/-- the end of the present download, by complete or abort -/
theorem Inv.stop {x : Life n} (h : Inv x) {im : Image} {old : List Chunk} (hp : Present im old x)
    (hfree : ∀ i, (x.st.svc.chunkPool i).inUse = false) (succeeded : Bool)
    (hhead : succeeded = true → x.st.svc.headOffset = x.st.svc.totalSize) :
    Inv { x with
      st := { x.st with svc := freeAndStopService x.st.svc }
      succeeded := if succeeded then Function.update x.succeeded x.st.download true else x.succeeded } := by
  obtain ⟨K, hs⟩ := hp.streaming
  obtain ⟨q, hq⟩ := hs.serving
  have hidle : Idle x.st := hq.idle hfree
  refine ⟨h.running, h.tiles, fun k hk => ?_, h.order, h.known, Or.inl ⟨rfl, hidle.congr rfl rfl rfl rfl⟩⟩
  cases succeeded with
  | false => exact h.whole k hk
  | true =>
    by_cases hcur : k = x.st.download
    · subst hcur
      exact hp.whole hidle (hhead rfl)
    · simp only [if_true, Function.update_of_ne hcur] at hk
      exact h.whole k hk

theorem Inv.complete {x : Life n} (h : Inv x) (target : ℕ) : Inv (x.step (.complete target)) := by
  have hst : Firmware.step x.st (.complete target) =
      { x.st with svc := (processFirmwareUpdateComplete target x.st.svc).1 } := by
    simp [Firmware.step, h.running]
  obtain ⟨hsame, hdone⟩ | ⟨hstarted, hfree, hstop, hhead⟩ := complete_outcome target x.st.svc
  · have heq : x.step (.complete target) = x := by
      simp only [Life.step, hst, hsame, hdone]
      rfl
    rw [heq]
    exact h
  · rcases h.now with ⟨hstopped, -⟩ | ⟨im, old, hp⟩
    · rw [hstarted] at hstopped
      contradiction
    · have heq : x.step (.complete target) = { x with
          st := { x.st with svc := freeAndStopService x.st.svc }
          succeeded := if completes target x.st.svc then Function.update x.succeeded x.st.download true
            else x.succeeded } := by
        simp only [Life.step, hst, hstop]
      rw [heq]
      exact h.stop hp hfree _ hhead

theorem Inv.abort {x : Life n} (h : Inv x) (target : ℕ) (status : FirmwareStatus) : Inv (x.step (.abort target status)) := by
  have hst : Firmware.step x.st (.abort target status) =
      { x.st with svc := (processFirmwareUpdateAbort target status x.st.svc).1 } := by
    simp [Firmware.step, h.running]
  obtain hsame | ⟨hstarted, hfree, hstop⟩ := abort_cases target status x.st.svc
  · have heq : x.step (.abort target status) = x := by
      simp only [Life.step, hst, hsame]
    rw [heq]
    exact h
  · rcases h.now with ⟨hstopped, -⟩ | ⟨im, old, hp⟩
    · rw [hstarted] at hstopped
      contradiction
    · have heq : x.step (.abort target status) =
          { x with st := { x.st with svc := freeAndStopService x.st.svc } } := by
        simp only [Life.step, hst, hstop]
      have hend := h.stop hp hfree false Bool.noConfusion
      rw [heq]
      exact hend

theorem Inv.thread {x : Life n} (h : Inv x) (o : Op n) :
    Inv { x with st := stepThread x.st o } := by
  obtain ⟨pool, tail, e, l, pc, calls, ht, -⟩ := stepThread_frame x.st o
  rcases h.now with ⟨hstopped, hidle⟩ | ⟨im, old, hp⟩
  · have hidle' := stepThread_idle hidle o
    have hcalls : (stepThread x.st o).calls = x.st.calls := by
      calc (stepThread x.st o).calls = (stepThread x.st o).queued := hidle'.history.symm
        _ = x.st.queued := by rw [ht]
        _ = x.st.calls := hidle.history
    refine h.still ?_ hcalls ?_ rfl rfl rfl ?_ hidle'
    · rw [ht]
      exact h.running
    · rw [ht]
    · rw [stepThread_started]
      exact hstopped
  · have hdownload : (stepThread x.st o).download = x.st.download := by rw [ht]
    obtain ⟨K, hs⟩ := hp.streaming
    have hdrive : drive { x with st := stepThread x.st o } = { x.drive with st := stepThread x.st o } := by
      rw [drive_eq, drive_eq]
      simp only [hdownload]
    refine h.within hp ⟨?_, ?_, hp.small, hp.chunk, ?_, hp.sorted, ?_, ⟨K, ?_⟩⟩ hdownload rfl rfl fun _ _ => rfl
    · rw [hp.number, hdownload]
    · rw [hp.total, hdownload]
    · rw [hdownload]
      exact hp.earlier
    · rw [hdownload]
      exact hp.open_
    · rw [hdrive]
      exact hs.thread o

theorem Inv.data {x : Life n} (h : Inv x) {d : DataReq} (hL : Legal x (.data d)) : Inv (x.step (.data d)) := by
  rcases h.now with ⟨hstopped, -⟩ | ⟨im, old, hp⟩
  · have heq : x.step (.data d) = x := by
      simp only [Life.step, hstopped, data_stopped hstopped]
      rfl
    rw [heq]
    exact h
  · obtain ⟨K, hs⟩ := hp.streaming
    have hstarted : x.st.svc.updateStarted = true := hs.started
    have hlegal : Firmware.Legal im.total x.drive (.data d) := by
      rw [hp.total]
      exact hL hstarted
    obtain ⟨K', hs'⟩ := (hs.present hlegal).answer hp.small rfl hlegal.2.1 (hlegal.2.2.2.2 hs.started)
    have hdrive : Streaming im old K' (x.drive.step (.data d)) := by
      simp only [Drive.step, Firmware.step, hs.running]
      exact hs'
    have hdownload : (x.drive.step (.data d)).st.download = x.st.download := by
      have := hdrive.download
      exact this.trans hp.number
    have heq : x.step (.data d) = { x with
        st := (x.drive.step (.data d)).st
        presented := Function.update x.presented x.st.download (x.drive.step (.data d)).stream
        pending := (x.drive.step (.data d)).pending } := by
      simp only [Life.step, hstarted, if_true]
    have hsame : (x.step (.data d)).drive = x.drive.step (.data d) := by
      rw [heq, drive_eq]
      simp only [hdownload, Function.update_self]
    have hnumber : (x.step (.data d)).st.download = x.st.download := by
      rw [heq]
      exact hdownload
    refine h.within hp ⟨?_, ?_, hp.small, hp.chunk, ?_, hp.sorted, ?_, ⟨K', ?_⟩⟩ hnumber ?_ ?_ fun k hk => ?_
    · rw [hp.number, hnumber]
    · rw [hp.total, hnumber, heq]
    · rw [hnumber]
      exact hp.earlier
    · rw [hnumber, heq]
      exact hp.open_
    · rw [hsame]
      exact hdrive
    · rw [heq]
    · rw [heq]
    · rw [heq]
      exact Function.update_of_ne hk _ _

/-- **Every legal step keeps the books.** -/
theorem step_inv (x : Life n) (o : Op n) (h : Inv x) (hL : Legal x o) : Inv (x.step o) := by
  have hthread {o : Op n} (ho : o.isThread = true) : Inv { x with st := Firmware.step x.st o } := by
    rw [step_eq_stepThread h.running ho]
    exact h.thread o
  cases o with
  | start r request ok => exact h.start hL
  | data d => exact h.data hL
  | complete target => exact h.complete target
  | abort target status => exact h.abort target status
  | wake | call | ret e | clearInUse | advanceTail => exact hthread rfl

/-! ## Runs -/

theorem inv_begin {s : St n} (h : Init s) : Inv (begin s) := by
  obtain ⟨hqueued, hcalls⟩ := h.history
  have hidle : Idle s := ⟨Or.inl h.pc, h.lock, hqueued.trans hcalls.symm⟩
  refine ⟨h.running, fun k => ?_, fun k hk => absurd hk Bool.noConfusion, ?_, fun c hc => ?_, Or.inl ⟨h.idle, hidle⟩⟩
  · simp only [Life.chunks, begin, hcalls, List.filter_nil]
    exact tiles_nil 0
  · simp [begin, hcalls]
  · simp [begin, hcalls] at hc

theorem Inv.delivered {x : Life n} (h : Inv x) : Delivered x := by
  refine ⟨h.running, h.tiles, h.whole, h.order, fun hstopped => ?_⟩
  rcases h.now with ⟨-, hidle⟩ | ⟨im, old, hp⟩
  · rcases hidle.pc with hpc | hpc <;> rw [hpc] <;> rfl
  · obtain ⟨K, hs⟩ := hp.streaming
    have hstarted : x.st.svc.updateStarted = true := hs.started
    rw [hstopped] at hstarted
    contradiction

/-- **Downloads one after the other**, in any number, with blocks of any sizes answered busy any number of times, refused starts
and starts that run out of memory, aborts, and any interleaving with the firmware thread. -/
theorem images_delivered {s : St n} (h : Init s) (ops : List (Op n)) (hL : Along Life.step Legal (begin s) ops) :
    Delivered (run Life.step (begin s) ops) := (run_inv step_inv (inv_begin h) hL).delivered

/-- a block behind one that was not answered busy -/
theorem legal_block {x : Life n} {d : DataReq} (hpending : x.pending = none) (hpos : 0 < d.bytesUsed)
    (htarget : d.targetNumber = x.st.svc.current)
    (hlength : (x.presented x.st.download).length + d.bytesUsed ≤ x.codeSize x.st.download)
    (hoffset : d.offset = u32Sub x.st.svc.tailOffset x.st.svc.ccfsmBytesProcessed) : Legal x (.data d) := by
  intro _
  refine ⟨hpos, htarget, fun d' hd => ?_, fun _ => hlength, fun _ _ => hoffset⟩
  rw [drive_eq, hpending] at hd
  contradiction

/-- an image of 3 bytes that is completed, and one of 6 bytes that is aborted behind its first chunk -/
def twoImages : List (Op 1) :=
  [Op.start ⟨0, 3⟩ .none fun _ => true, Op.data ⟨0, 0, fun i => UInt8.ofNat i, 3⟩] ++ serve ++
    [Op.complete 0, Op.start ⟨0, 6⟩ .none fun _ => true, Op.data ⟨0, 0, fun i => UInt8.ofNat (10 + i), 4⟩] ++ serve ++
    [Op.abort 0 .userAbort]

theorem images_delivered_two :
    let x := run Life.step (begin (St.fresh 1 1 fun _ => ⟨0, 4⟩)) twoImages
    Delivered x ∧ x.succeeded 1 = true ∧ (x.chunks 1).map Chunk.data = [[0, 1, 2]] ∧ x.succeeded 2 = false ∧
      (x.chunks 2).map Chunk.data = [[10, 11, 12, 13]] := by
  have hfirst : Legal (begin (St.fresh 1 1 fun _ => ⟨0, 4⟩)) (.start ⟨0, 3⟩ .none fun _ => true) := by
    refine ⟨rfl, ?_, ?_, ?_⟩ <;> decide
  have hlegal : Along Life.step Legal (begin (St.fresh 1 1 fun _ => ⟨0, 4⟩)) twoImages := by
    refine ⟨hfirst, legal_block rfl (by decide) rfl (by decide) rfl, trivial, trivial, trivial, trivial, trivial, trivial, ?_,
      legal_block rfl (by decide) rfl (by decide) rfl, trivial, trivial, trivial, trivial, trivial, trivial, trivial⟩
    refine ⟨rfl, ?_, ?_, ?_⟩ <;> decide
  refine ⟨images_delivered (init_fresh 1 1 fun _ => ⟨0, 4⟩) twoImages hlegal, ?_, ?_, ?_, ?_⟩ <;> decide

end Life

end CcApi.Firmware
