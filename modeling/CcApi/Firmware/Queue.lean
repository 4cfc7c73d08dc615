/-
The chunk pool as a queue between the data callback and the firmware thread (`ccapi_firmware_update_handler.c`).

The data callback fills slots at `chunk_pool_head`, the thread empties them at `chunk_pool_tail`, and the thread's
semaphore counts the slots filled but not yet taken. While an update is in progress the pool is a ring that holds, from
its oldest chunk on, exactly the chunks queued but not yet finished (`Serving`); while none is, the thread has nothing to
do (`Idle`).

The thread clears `in_use` before it moves the tail, and complete, abort and start look at `in_use` only. A start that
resets both indices between the two leaves the tail one slot ahead of the head (`tail_ahead`).

- `step_queueInv`: every step keeps the invariant if starts come only between downloads and do not reset the indices
  between the thread's two writes.
- `served_in_order`: in every such run the thread is always about to give the user the oldest queued chunk, which is in
  use; the chunks given are a prefix of the chunks queued; the thread's own steps can always deliver the rest.
-/
import CcApi.Firmware.Buffers

namespace CcApi.Firmware

open Lib Lib.Runs

variable {n : ℕ}

/-! ## Conditions on starts -/

/-- each start comes after the previous download was ended by complete or abort -/
def StartAfterEnd (s : St n) : Op n → Prop
  | .start _ _ _ => s.svc.updateStarted = false
  | _ => True

/-- a start that comes between the thread's `in_use = CCAPI_FALSE` and its tail increment is refused or runs out of
memory, unless the pool has one slot only -/
def ResetAfterAdvance (s : St n) : Op n → Prop
  | .start r request ok => s.pc = .cleared → n = 0 ∨ s.svc.targetCount ≤ r.targetNumber ∨
      refusal r request s.svc ≠ none ∨ ∃ i, ok i = false
  | _ => True

instance (s : St n) : ∀ o, Decidable (StartAfterEnd s o)
  | .start .. => inferInstanceAs (Decidable (_ = _))
  | .data _ | .complete _ | .abort .. | .wake | .call | .ret _ | .clearInUse | .advanceTail => inferInstanceAs (Decidable True)

instance (s : St n) : ∀ o, Decidable (ResetAfterAdvance s o)
  | .start .. => inferInstanceAs (Decidable (_ → _ ∨ _ ∨ _ ∨ _))
  | .data _ | .complete _ | .abort .. | .wake | .call | .ret _ | .clearInUse | .advanceTail => inferInstanceAs (Decidable True)

/-! ## The queue -/

/-- the chunk of a slot in use -/
def occ (s : St n) (i : Fin (n + 1)) : Option Chunk :=
  if (s.svc.chunkPool i).inUse then some (slotChunk s i) else none

/-- the slot of the oldest chunk: once the thread has cleared `in_use` it is the one after the tail -/
def oldest (s : St n) : Fin (n + 1) :=
  if s.pc = .cleared then Ring.next s.svc.chunkPoolTail else s.svc.chunkPoolTail

/-- the chunks the thread has taken and not yet cleared -/
def Pc.inHand : Pc n → ℕ
  | .woken _ | .calling _ | .returned _ => 1
  | _ => 0

/-- the chunks in the thread's hand that it has given to the user -/
def Pc.given : Pc n → ℕ
  | .calling _ | .returned _ => 1
  | _ => 0

/-- an update is in progress and q are its queued and unfinished chunks, oldest first -/
structure Serving (s : St n) (q : List Chunk) : Prop where
  holds : Ring.Holds (occ s) (oldest s) q
  head : s.svc.chunkPoolHead = Ring.slot (oldest s) q.length
  hand : ∀ i, s.pc = .woken i ∨ s.pc = .calling i ∨ s.pc = .returned i → i = s.svc.chunkPoolTail
  lock : s.lock + s.pc.inHand = q.length
  history : s.queued = s.calls ++ q.drop s.pc.given
  given : s.pc.given = 1 → s.calls.getLast? = q.head?
  buffers : ∀ i, ∃ b, (s.svc.chunkPool i).data = some b
  inj : ∀ i j, (s.svc.chunkPool i).data = (s.svc.chunkPool j).data → i = j

/-- no update is in progress: the thread waits, or has only its tail to move -/
structure Idle (s : St n) : Prop where
  pc : s.pc = .waiting ∨ s.pc = .cleared
  lock : s.lock = 0
  history : s.queued = s.calls

def QueueInv (s : St n) : Prop :=
  (s.svc.updateStarted = false ∧ Idle s) ∨ (s.svc.updateStarted = true ∧ ∃ q, Serving s q)

theorem occ_some {s : St n} {i : Fin (n + 1)} {x : Chunk} (h : occ s i = some x) :
    (s.svc.chunkPool i).inUse = true ∧ slotChunk s i = x := by
  unfold occ at h
  split_ifs at h with hi
  exact ⟨hi, Option.some.inj h⟩

theorem occ_none {s : St n} {i : Fin (n + 1)} : occ s i = none ↔ (s.svc.chunkPool i).inUse = false := by
  unfold occ
  split_ifs with hi <;> simp [hi]

/-- the thread has something in its hand only if the queue is not empty -/
theorem Serving.cons_of_inHand {s : St n} {q : List Chunk} (h : Serving s q) (hh : s.pc.inHand = 1) :
    ∃ x r, q = x :: r := by
  have := h.lock
  cases q with
  | nil => simp only [List.length_nil] at this; omega
  | cons x r => exact ⟨x, r, rfl⟩

/-! ## The thread's steps -/

theorem Serving.wake {s : St n} {q : List Chunk} (h : Serving s q) {l : ℕ} (hpc : s.pc = .waiting)
    (hl : s.lock = l + 1) : Serving { s with lock := l, pc := .woken s.svc.chunkPoolTail } q := by
  have hlock := h.lock
  have hold : oldest { s with lock := l, pc := .woken s.svc.chunkPoolTail } = oldest s := by simp [oldest, hpc]
  rw [hpc, hl] at hlock
  refine ⟨?_, ?_, ?_, ?_, ?_, ?_, h.buffers, h.inj⟩
  · rw [hold]; exact h.holds
  · rw [hold]; exact h.head
  · rintro i (hi | hi | hi) <;> simp at hi
    exact hi.symm
  · simpa [Pc.inHand] using hlock
  · simpa [hpc, Pc.given] using h.history
  · intro hg; simp [Pc.given] at hg

theorem Serving.call {s : St n} {q : List Chunk} (h : Serving s q) {i : Fin (n + 1)} (hpc : s.pc = .woken i) :
    Serving { s with pc := .calling i, calls := s.calls ++ [slotChunk s i] } q := by
  obtain ⟨x, r, rfl⟩ := h.cons_of_inHand (by rw [hpc]; rfl)
  have hi : i = s.svc.chunkPoolTail := h.hand i (Or.inl hpc)
  have hold : oldest s = s.svc.chunkPoolTail := by simp [oldest, hpc]
  have hx : slotChunk s i = x := (occ_some (hi ▸ hold ▸ Ring.holds_tail h.holds)).2
  have hold' : oldest { s with pc := .calling i, calls := s.calls ++ [slotChunk s i] } = oldest s := by
    simp [oldest, hpc]
  refine ⟨?_, ?_, ?_, ?_, ?_, ?_, h.buffers, h.inj⟩
  · rw [hold']; exact h.holds
  · rw [hold']; exact h.head
  · rintro j (hj | hj | hj) <;> simp at hj
    rw [← hj]; exact hi
  · simpa [hpc, Pc.inHand] using h.lock
  · have := h.history
    simp only [hpc, Pc.given, List.drop_zero] at this
    simp [this, hx, Pc.given]
  · intro _; simp [hx]

theorem Serving.ret {s : St n} {q : List Chunk} (h : Serving s q) {i : Fin (n + 1)} (hpc : s.pc = .calling i)
    (e : DataError) : Serving { s with pc := .returned i, svc := { s.svc with dataError := e } } q := by
  have hold : oldest { s with pc := .returned i, svc := { s.svc with dataError := e } } = oldest s := by
    simp [oldest, hpc]
  refine ⟨?_, ?_, ?_, ?_, ?_, ?_, h.buffers, h.inj⟩
  · rw [hold]; exact Ring.holds_congr h.holds fun _ => rfl
  · rw [hold]; exact h.head
  · rintro j (hj | hj | hj) <;> simp at hj
    rw [← hj]; exact h.hand i (Or.inr (Or.inl hpc))
  · simpa [hpc, Pc.inHand] using h.lock
  · simpa [hpc, Pc.given] using h.history
  · intro _; exact h.given (by simp [hpc, Pc.given])

theorem Serving.clearInUse {s : St n} {q : List Chunk} (h : Serving s q) {i : Fin (n + 1)} (hpc : s.pc = .returned i) :
    Serving { s with pc := .cleared, svc := { s.svc with
      chunkPool := Function.update s.svc.chunkPool i { s.svc.chunkPool i with inUse := false } } } q.tail := by
  obtain ⟨x, r, rfl⟩ := h.cons_of_inHand (by rw [hpc]; rfl)
  have hi : i = s.svc.chunkPoolTail := h.hand i (Or.inr (Or.inr hpc))
  have hold : oldest s = i := by simp [oldest, hpc, hi]
  set t : St n := { s with pc := .cleared, svc := { s.svc with
    chunkPool := Function.update s.svc.chunkPool i { s.svc.chunkPool i with inUse := false } } }
  have hdata : ∀ j, (t.svc.chunkPool j).data = (s.svc.chunkPool j).data := by
    intro j
    by_cases hj : j = i
    · subst hj; simp [t]
    · simp [t, Function.update_of_ne hj]
  have hocc : occ t = Function.update (occ s) i none := by
    funext j
    by_cases hj : j = i
    · subst hj; simp [t, occ]
    · simp [t, occ, slotChunk, Function.update_of_ne hj]
  have hold' : oldest t = Ring.next i := by simp [t, oldest, hi]
  have hholds := h.holds
  rw [hold] at hholds
  refine ⟨?_, ?_, ?_, ?_, ?_, ?_, fun j => ?_, fun j k => ?_⟩
  · rw [hocc, hold']; exact Ring.holds_pop hholds
  · have := h.head
    rw [hold, List.length_cons] at this
    rw [hold', List.tail_cons, Ring.slot_next]
    exact this
  · rintro j (hj | hj | hj) <;> simp [t] at hj
  · have := h.lock
    simp only [hpc, Pc.inHand, List.length_cons, Nat.add_right_cancel_iff] at this
    simpa [t, Pc.inHand] using this
  · simpa [t, hpc, Pc.given] using h.history
  · intro hg; simp [t, Pc.given] at hg
  · rw [hdata]; exact h.buffers j
  · rw [hdata, hdata]; exact h.inj j k

theorem Serving.advanceTail {s : St n} {q : List Chunk} (h : Serving s q) (hpc : s.pc = .cleared) :
    Serving { s with pc := .waiting, svc := { s.svc with chunkPoolTail := Ring.next s.svc.chunkPoolTail } } q := by
  have hold : oldest { s with pc := .waiting, svc := { s.svc with chunkPoolTail := Ring.next s.svc.chunkPoolTail } } =
      oldest s := by simp [oldest, hpc]
  refine ⟨?_, ?_, ?_, ?_, ?_, ?_, h.buffers, h.inj⟩
  · rw [hold]; exact Ring.holds_congr h.holds fun _ => rfl
  · rw [hold]; exact h.head
  · rintro i (hi | hi | hi) <;> simp at hi
  · simpa [hpc, Pc.inHand] using h.lock
  · simpa [hpc, Pc.given] using h.history
  · intro hg; simp [Pc.given] at hg

/-- the thread's operations -/
def Op.isThread : Op n → Bool
  | .wake | .call | .ret _ | .clearInUse | .advanceTail => true
  | _ => false

theorem step_eq_stepThread {s : St n} (hcr : s.crashed = false) {o : Op n} (ho : o.isThread = true) :
    step s o = stepThread s o := by
  cases o <;> simp [Op.isThread] at ho <;> simp [step, hcr]

theorem stepThread_serving {s : St n} {q : List Chunk} (h : Serving s q) (o : Op n) :
    ∃ q', Serving (stepThread s o) q' := by
  cases o with
  | wake =>
    simp only [stepThread]
    split
    · rename_i l hpc hl; exact ⟨q, h.wake hpc hl⟩
    · exact ⟨q, h⟩
  | call =>
    simp only [stepThread]
    split
    · rename_i i hpc; exact ⟨q, h.call hpc⟩
    · exact ⟨q, h⟩
  | ret e =>
    simp only [stepThread]
    split
    · rename_i i hpc; exact ⟨q, h.ret hpc _⟩
    · exact ⟨q, h⟩
  | clearInUse =>
    simp only [stepThread]
    split
    · rename_i i hpc; exact ⟨q.tail, h.clearInUse hpc⟩
    · exact ⟨q, h⟩
  | advanceTail =>
    simp only [stepThread]
    split
    · rename_i hpc; exact ⟨q, h.advanceTail hpc⟩
    · exact ⟨q, h⟩
  | _ => exact ⟨q, h⟩

theorem stepThread_idle {s : St n} (h : Idle s) (o : Op n) : Idle (stepThread s o) := by
  obtain ⟨hpc, hl, hh⟩ := h
  cases o with
  | advanceTail =>
    simp only [stepThread]
    split
    · exact ⟨Or.inl rfl, hl, hh⟩
    · exact ⟨hpc, hl, hh⟩
  | _ => rcases hpc with hpc | hpc <;> simp only [stepThread, hpc, hl] <;> exact ⟨by simp [hpc], hl, hh⟩

theorem stepThread_started (s : St n) (o : Op n) : (stepThread s o).svc.updateStarted = s.svc.updateStarted := by
  cases o <;> simp only [stepThread] <;> split <;> rfl

theorem QueueInv.thread {s : St n} (h : QueueInv s) (o : Op n) : QueueInv (stepThread s o) := by
  obtain ⟨hst, hidle⟩ | ⟨hst, q, hq⟩ := h
  · exact Or.inl ⟨(stepThread_started s o).trans hst, stepThread_idle hidle o⟩
  · exact Or.inr ⟨(stepThread_started s o).trans hst, stepThread_serving hq o⟩

/-! ## The data callback -/

/-- a copy into the head slot's buffer leaves every other chunk as it is: the slots' buffers are distinct -/
theorem Serving.slotChunk_copy {s : St n} {q : List Chunk} (h : Serving s q) {m : ℕ → ℕ → UInt8}
    (hm : ∀ b, (s.svc.chunkPool s.svc.chunkPoolHead).data ≠ some b → m b = s.svc.heap.mem b) {i : Fin (n + 1)}
    (hi : i ≠ s.svc.chunkPoolHead) :
    slotChunk { s with svc := { s.svc with heap := { s.svc.heap with mem := m } } } i = slotChunk s i := by
  obtain ⟨b, hb⟩ := h.buffers i
  have hne : (s.svc.chunkPool s.svc.chunkPoolHead).data ≠ some b := fun e => hi (h.inj i _ (by rw [hb, e]))
  simp [slotChunk, hb, Heap.read, hm b hne]

theorem Serving.copy {s : St n} {q : List Chunk} (h : Serving s q) {t : Svc n} (hc : Consumed s.svc t false) :
    Serving { s with svc := t } q := by
  obtain ⟨m, nh, last, p, hm, rfl⟩ := hc.result
  refine ⟨Ring.holds_congr h.holds fun i => ?_, h.head, h.hand, h.lock, h.history, h.given, h.buffers, h.inj⟩
  by_cases hi : i = s.svc.chunkPoolHead
  · subst hi
    rw [occ_none.2 hc.free]
    exact occ_none.2 hc.free
  · have := h.slotChunk_copy hm hi
    simp only [slotChunk] at this
    simp [occ, slotChunk, this]

theorem Serving.queue {s : St n} {q : List Chunk} (h : Serving s q) {t : Svc n} (hc : Consumed s.svc t true) :
    Serving { s with svc := t, lock := s.lock + 1,
                     queued := s.queued ++ [slotChunk { s with svc := t } s.svc.chunkPoolHead] }
      (q ++ [slotChunk { s with svc := t } s.svc.chunkPoolHead]) := by
  have hfree := hc.free
  obtain ⟨m, nh, last, p, hm, ht⟩ := hc.result
  simp only [if_true] at ht
  set x := slotChunk { s with svc := t } s.svc.chunkPoolHead with hx
  have hroom : q.length < n + 1 := (Ring.holds_head h.holds).1 (h.head ▸ occ_none.2 hfree)
  have hocc : occ { s with svc := t, lock := s.lock + 1, queued := s.queued ++ [x] } =
      Function.update (occ s) s.svc.chunkPoolHead (some x) := by
    funext i
    by_cases hi : i = s.svc.chunkPoolHead
    · subst hi
      rw [Function.update_self]
      simp only [occ, ht, queueHead, Function.update_self, if_true]
      rw [hx, ht]
      rfl
    · have := h.slotChunk_copy hm hi
      simp only [slotChunk] at this
      simp [occ, slotChunk, ht, queueHead, Function.update_of_ne hi, this]
  have hdata : ∀ i, (t.chunkPool i).data = (s.svc.chunkPool i).data := fun i => by rw [ht]; exact queueHead_data _ _ _ i
  have hold : oldest { s with svc := t, lock := s.lock + 1, queued := s.queued ++ [x] } = oldest s := by rw [ht]; rfl
  refine ⟨?_, ?_, ?_, ?_, ?_, ?_, fun i => ?_, fun i j => ?_⟩
  · rw [hocc, hold, h.head]; exact Ring.holds_push h.holds hroom x
  · rw [hold, List.length_append, List.length_singleton, ← Ring.next_slot, ← h.head, ht]; rfl
  · intro i hi
    have := h.hand i hi
    rw [ht]; exact this
  · have := h.lock
    simp only [List.length_append, List.length_singleton]
    omega
  · have := h.history
    have hgiven : s.pc.given ≤ q.length := by
      have := h.lock
      cases hp : s.pc <;> simp only [hp, Pc.given, Pc.inHand] at this ⊢ <;> omega
    simp only [this, List.append_assoc, List.drop_append_of_le_length hgiven]
  · intro hg
    have := h.given hg
    have hne : q ≠ [] := by
      rintro rfl
      have hl := h.lock
      cases hp : s.pc <;> simp [hp, Pc.given, Pc.inHand] at hl hg
    rw [List.head?_append_of_ne_nil _ hne]; exact this
  · simp only [hdata]; exact h.buffers i
  · simp only [hdata]; exact h.inj i j

theorem Consumed.started_after {s t : Svc n} {b : Bool} (h : Consumed s t b) : t.updateStarted = true := by
  obtain ⟨m, nh, last, p, -, rfl⟩ := h.result
  cases b <;> exact h.started

/-! ## Starting and ending a download -/

theorem SetUp.serving {r : StartReq} {ok : Fin (n + 1) → Bool} {s : St n} {t : Svc n} (h : SetUp r ok s.svc t)
    (hs : Idle s) (hpc : s.pc = .cleared → n = 0) (dl : ℕ) : Serving { s with svc := t, download := dl } [] := by
  have hinUse : ∀ i, (t.chunkPool i).inUse = false := fun i => by obtain ⟨b, hb, -⟩ := h.slots i; rw [hb]
  refine ⟨Ring.holds_empty _ _ fun i => occ_none.2 (hinUse i), ?_, ?_, ?_, ?_, ?_, fun i => ?_, h.inj⟩
  · rcases hs.pc with hp | hp
    · simp [oldest, hp, h.indices]
    · -- with one slot there is one index
      have := hpc hp
      subst this
      exact Fin.ext (by omega)
  · intro i hi
    rcases hs.pc with hp | hp <;> simp [hp] at hi
  · rcases hs.pc with hp | hp <;> simp [hp, Pc.inHand, hs.lock]
  · simp [hs.history]
  · intro hg
    rcases hs.pc with hp | hp <;> simp [hp, Pc.given] at hg
  · obtain ⟨b, hb, -⟩ := h.slots i
    exact ⟨b, by simp [hb]⟩

/-- complete and abort stop a download only when its queue is empty -/
theorem Serving.idle {s : St n} {q : List Chunk} (h : Serving s q) (hu : ∀ i, (s.svc.chunkPool i).inUse = false) :
    Idle s := by
  have hq : q = [] := (Ring.holds_nil_iff h.holds).2 fun i => occ_none.2 (hu i)
  subst hq
  have hl := h.lock
  have hh := h.history
  simp only [List.length_nil, Nat.add_eq_zero_iff] at hl
  refine ⟨?_, hl.1, by simpa using hh⟩
  cases hp : s.pc <;> simp [hp, Pc.inHand] at hl ⊢

theorem Idle.congr {s t : St n} (h : Idle s) (hpc : t.pc = s.pc) (hl : t.lock = s.lock) (hq : t.queued = s.queued)
    (hc : t.calls = s.calls) : Idle t :=
  ⟨by rw [hpc]; exact h.pc, by rw [hl]; exact h.lock, by rw [hq, hc]; exact h.history⟩

/-- complete and abort keep the invariant: they do nothing, or stop a download whose queue is empty -/
theorem QueueInv.stop {s : St n} (h : QueueInv s) {t : Svc n} (ht : t = s.svc ∨
    (s.svc.updateStarted = true ∧ (∀ i, (s.svc.chunkPool i).inUse = false) ∧ t = freeAndStopService s.svc)) :
    QueueInv { s with svc := t } := by
  rcases ht with rfl | ⟨hst, hu, rfl⟩
  · exact h
  · rcases h with ⟨hst', -⟩ | ⟨-, q, hq⟩
    · rw [hst] at hst'; contradiction
    · exact Or.inl ⟨rfl, (hq.idle hu).congr rfl rfl rfl rfl⟩

/-- a division by zero leaves the queue alone -/
theorem QueueInv.crash {s : St n} (h : QueueInv s) : QueueInv { s with crashed := true } := by
  obtain ⟨hst, hidle⟩ | ⟨hst, q, hq⟩ := h
  · exact Or.inl ⟨hst, hidle.congr rfl rfl rfl rfl⟩
  · exact Or.inr ⟨hst, q, hq.holds, hq.head, hq.hand, hq.lock, hq.history, hq.given, hq.buffers, hq.inj⟩

/-- **Every step keeps the invariant** if it is no start over a download or between the thread's last two writes. -/
theorem step_queueInv (s : St n) (o : Op n) (h : QueueInv s) (hC : StartAfterEnd s o ∧ ResetAfterAdvance s o) :
    QueueInv (step s o) := by
  unfold step
  split_ifs with hcr
  · exact h
  · cases o with
    | start r request ok =>
      obtain ⟨hend, hreset⟩ := hC
      simp only [StartAfterEnd] at hend
      obtain ⟨-, hidle⟩ | ⟨hst, -⟩ := h
      · rcases start_cases r request ok s.svc with ht | ⟨-, hst, -⟩ | ⟨-, ht⟩ | ⟨-, hr, href, ht⟩
        · refine Or.inl ⟨?_, hidle.congr rfl rfl rfl rfl⟩
          simp only [stepStart, ht]; exact hend
        · rw [hend] at hst; contradiction
        · exact Or.inl ⟨ht.idle, hidle.congr rfl rfl rfl rfl⟩
        · refine Or.inr ⟨ht.started, [], ht.serving hidle (fun hpc => ?_) _⟩
          rcases hreset hpc with hn | hn | hn | ⟨i, hi⟩
          · exact hn
          · omega
          · exact absurd href hn
          · rw [ht.granted i] at hi; contradiction
      · rw [hend] at hst; contradiction
    | data d =>
      simp only [stepData]
      rcases data_cases d s.svc with hd | ⟨a, hd⟩ | ⟨t, a, q, hd, hc⟩
      · rw [hd]; exact h.crash
      · rw [hd]; exact h
      · rw [hd]
        obtain ⟨hst, -⟩ | ⟨-, l, hl⟩ := h
        · rw [hc.started] at hst; contradiction
        · cases q with
          | false => exact Or.inr ⟨hc.started_after, l, hl.copy hc⟩
          | true => exact Or.inr ⟨hc.started_after, _, hl.queue hc⟩
    | complete target => exact h.stop (complete_cases target s.svc)
    | abort target status => exact h.stop (abort_cases target status s.svc)
    | wake => exact h.thread _
    | call => exact h.thread _
    | ret e => exact h.thread _
    | clearInUse => exact h.thread _
    | advanceTail => exact h.thread _

/-! ## Main results -/

theorem init_queueInv {s : St n} (h : Init s) : QueueInv s :=
  Or.inl ⟨h.idle, Or.inl h.pc, h.lock, h.history.1.trans h.history.2.symm⟩

/-- the slot the thread is about to give to the user is in use and holds the oldest chunk not yet given -/
def AboutToCall (s : St n) : Prop :=
  ∀ i, s.pc = .woken i → i = s.svc.chunkPoolTail ∧ (s.svc.chunkPool i).inUse = true ∧
    s.queued[s.calls.length]? = some (slotChunk s i)

theorem QueueInv.aboutToCall {s : St n} (h : QueueInv s) : AboutToCall s := by
  intro i hpc
  obtain ⟨-, hidle⟩ | ⟨-, q, hq⟩ := h
  · rcases hidle.pc with hp | hp <;> simp [hpc] at hp
  · obtain ⟨x, r, rfl⟩ := hq.cons_of_inHand (by rw [hpc]; rfl)
    have hi := hq.hand i (Or.inl hpc)
    have hold : oldest s = i := by simp [oldest, hpc, hi]
    obtain ⟨hu, hx⟩ := occ_some (hold ▸ Ring.holds_tail hq.holds)
    have hh := hq.history
    simp only [hpc, Pc.given, List.drop_zero] at hh
    exact ⟨hi, hu, by simp [hh, hx]⟩

/-- what the user was given last is what the slot in the thread's hand still holds -/
theorem QueueInv.held {s : St n} (h : QueueInv s) {i : Fin (n + 1)} (hpc : s.pc = .calling i) :
    s.calls.getLast? = some (slotChunk s i) := by
  obtain ⟨-, hidle⟩ | ⟨-, q, hq⟩ := h
  · rcases hidle.pc with hp | hp <;> simp [hpc] at hp
  · obtain ⟨x, r, rfl⟩ := hq.cons_of_inHand (by rw [hpc]; rfl)
    have hi := hq.hand i (Or.inr (Or.inl hpc))
    have hold : oldest s = i := by simp [oldest, hpc, hi]
    rw [hq.given (by rw [hpc]; rfl), (occ_some (hold ▸ Ring.holds_tail hq.holds)).2, List.head?_cons]

theorem QueueInv.calls_initial {s : St n} (h : QueueInv s) : s.calls <+: s.queued := by
  obtain ⟨-, hidle⟩ | ⟨-, q, hq⟩ := h
  · rw [hidle.history]
  · exact ⟨_, hq.history.symm⟩

/-- a thread that waits with nothing to take has given every chunk -/
theorem QueueInv.all_given {s : St n} (h : QueueInv s) (hpc : s.pc = .waiting) (hl : s.lock = 0) :
    s.calls = s.queued := by
  obtain ⟨-, hidle⟩ | ⟨-, q, hq⟩ := h
  · exact hidle.history.symm
  · have hlock := hq.lock
    have hh := hq.history
    rw [hpc, hl] at hlock
    have hq0 : q = [] := List.eq_nil_of_length_eq_zero (by simpa [Pc.inHand] using hlock.symm)
    simpa [hq0] using hh.symm

/-- what is left of the iteration the thread is in -/
def Pc.rest : Pc n → List (Op n)
  | .waiting => []
  | .woken _ => [.call, .ret .none, .clearInUse, .advanceTail]
  | .calling _ => [.ret .none, .clearInUse, .advanceTail]
  | .returned _ => [.clearInUse, .advanceTail]
  | .cleared => [.advanceTail]

theorem Pc.rest_isThread (pc : Pc n) : ∀ o ∈ pc.rest, o.isThread = true := by
  cases pc <;> simp [Pc.rest, Op.isThread]

theorem run_rest {s : St n} (hcr : s.crashed = false) :
    (run step s s.pc.rest).pc = .waiting ∧ (run step s s.pc.rest).lock = s.lock ∧
      (run step s s.pc.rest).queued = s.queued ∧ (run step s s.pc.rest).crashed = false := by
  cases hpc : s.pc <;> simp [Pc.rest, step, stepThread, hpc, hcr]

theorem QueueInv.run_thread {s : St n} (h : QueueInv s) {l : List (Op n)} (hl : ∀ o ∈ l, o.isThread = true) :
    QueueInv (run step s l) := by
  induction l generalizing s with
  | nil => exact h
  | cons o l ih =>
    obtain ⟨ho, hl⟩ := List.forall_mem_cons.1 hl
    refine ih ?_ hl
    cases hcr : s.crashed with
    | true => simpa [step, hcr] using h
    | false => rw [step_eq_stepThread hcr ho]; exact h.thread o

/-- the thread's own steps give every queued chunk to the user; the induction is on the semaphore's count -/
theorem QueueInv.drain {s : St n} (h : QueueInv s) (hcr : s.crashed = false) :
    ∃ l, (∀ o ∈ l, o.isThread = true) ∧ (run step s l).calls = s.queued := by
  induction hk : s.lock generalizing s with
  | zero =>
    obtain ⟨hpc, hlock, hqueued, -⟩ := run_rest hcr
    refine ⟨s.pc.rest, s.pc.rest_isThread, ?_⟩
    rw [← hqueued]
    exact (h.run_thread s.pc.rest_isThread).all_given hpc (hlock.trans hk)
  | succ k ih =>
    obtain ⟨hpc, hlock, hqueued, hcr'⟩ := run_rest hcr
    have hinv := h.run_thread s.pc.rest_isThread
    set t := run step s s.pc.rest
    have hwake : step t .wake = { t with lock := k, pc := .woken t.svc.chunkPoolTail } := by
      simp [step, stepThread, hpc, hlock.trans hk, hcr']
    obtain ⟨l, hl, hcalls⟩ := ih (s := step t .wake) (hinv.run_thread (l := [.wake]) (by simp [Op.isThread]))
      (by rw [hwake]; exact hcr') (by rw [hwake])
    refine ⟨s.pc.rest ++ .wake :: l, ?_, ?_⟩
    · simp only [List.forall_mem_append, List.forall_mem_cons]
      exact ⟨s.pc.rest_isThread, rfl, hl⟩
    · rw [run_append, run_cons, hcalls, hwake]
      exact hqueued

/-- **Every queued chunk is delivered once and in order.** In a run whose starts come between downloads and not between
the thread's last two writes: the thread is always about to give the oldest chunk not yet given, from a slot in use; the
chunks given are the first of the chunks queued, all of them when the thread has nothing to take; and the thread's own
steps can always give the rest. -/
theorem served_in_order {s : St n} (h : Init s) (ops : List (Op n))
    (hC : Along step (fun s o => StartAfterEnd s o ∧ ResetAfterAdvance s o) s ops) :
    let t := run step s ops
    AboutToCall t ∧ t.calls <+: t.queued ∧ (t.pc = .waiting → t.lock = 0 → t.calls = t.queued) ∧
      (t.crashed = false → ∃ l, (∀ o ∈ l, o.isThread = true) ∧ (run step t l).calls = t.queued) := by
  intro t
  have hinv : QueueInv t := run_inv step_queueInv (init_queueInv h) hC
  exact ⟨hinv.aboutToCall, hinv.calls_initial, hinv.all_given, hinv.drain⟩

/-- two downloads, one after the other -/
theorem served_two_downloads :
    let t := run step (St.fresh 1 1 fun _ => ⟨0, 4⟩) (finished ++ slowUser)
    AboutToCall t ∧ t.calls <+: t.queued ∧ (t.pc = .waiting → t.lock = 0 → t.calls = t.queued) ∧
      (t.crashed = false → ∃ l, (∀ o ∈ l, o.isThread = true) ∧ (run step t l).calls = t.queued) :=
  served_in_order (init_fresh 1 1 fun _ => ⟨0, 4⟩) (finished ++ slowUser) (by decide)

/-- the connector completes the first download and starts the second while the thread has its tail still to move -/
def restarted : List (Op 1) :=
  slowUser ++ [.ret .none, .clearInUse, .complete 0, startFour, .advanceTail,
    .data ⟨0, 0, fun i => UInt8.ofNat i, 4⟩, .wake]

/-- **A start that lands between the thread's last two writes** leaves the tail one slot ahead of the head: the thread is
about to give the user a slot that is not in use. -/
theorem tail_ahead : ¬ ∀ (n : ℕ) (s : St n) (ops : List (Op n)), Init s → Along step StartAfterEnd s ops →
    AboutToCall (run step s ops) := by
  intro h
  have hcall := h 1 (St.fresh 1 1 fun _ => ⟨0, 4⟩) restarted (init_fresh 1 1 _) (by decide) 1 (by decide)
  exact absurd hcall.2.1 (by decide)

end CcApi.Firmware
