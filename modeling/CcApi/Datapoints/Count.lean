/-
The ids and the point count of a collection.

`Counted`: the stream ids are pairwise distinct and `dp_count` is the number of the points in all streams, modulo 2^32.
Adding streams and points, removing older points and sending keep it, whichever allocation or lock call fails
(`counted_run`): an operation that fails leaves list and count as they were, or has done its work before the lock that
fails is released.
-/
import CcApi.Datapoints.Changes

namespace CcApi.Datapoints

open Lib

def streamIds (l : List DataStream) : List Str := l.map (·.ccfsm.streamId)

/-- the points in all streams -/
def totalPoints (l : List DataStream) : ℕ := (l.map fun s => s.ccfsm.point.length).sum

/-- the ids are distinct and the count is right -/
structure Counted (c : Collection) : Prop where
  ids : (streamIds c.list).Nodup
  count : c.dpCount = u32 (totalPoints c.list)

/-- adding a stream, adding a point, removing older points, sending (and asking for the count) -/
def Op.updates : Op → Bool
  | .removeStream .. | .clear .. | .destroy .. => false
  | _ => true

/-! ## The list functions -/

theorem find_none {id : Str} {l : List DataStream} (h : findStreamIdInCollection id l = .ok none) :
    id ∉ streamIds l := by
  induction l with
  | nil => simp [streamIds]
  | cons s l ih =>
    simp only [findStreamIdInCollection] at h
    split_ifs at h with hr hid
    · simp at h
    have hl := ih h
    simp only [streamIds, List.map_cons, List.mem_cons, not_or] at hl ⊢
    exact ⟨hid, hl⟩

theorem find_some {id : Str} {l : List DataStream} {s : DataStream}
    (h : findStreamIdInCollection id l = .ok (some s)) : id ∈ streamIds l := by
  induction l with
  | nil => simp [findStreamIdInCollection] at h
  | cons t l ih =>
    simp only [findStreamIdInCollection] at h
    simp only [streamIds, List.map_cons, List.mem_cons]
    split_ifs at h with hr hid
    · exact .inl hid
    · exact .inr (ih h)

@[simp] theorem streamIds_setPoint (f : DataStream → List Point) (l : List DataStream) :
    streamIds (l.map fun s => s.setPoint (f s)) = streamIds l := by
  simp [streamIds, DataStream.setPoint, Function.comp_def]

@[simp] theorem streamIds_modifyStream (id : Str) (f : DataStream → List Point) (l : List DataStream) :
    streamIds (modifyStream id (fun s => s.setPoint (f s)) l) = streamIds l := by
  induction l with
  | nil => rfl
  | cons s l ih =>
    simp only [modifyStream]
    split_ifs
    · rfl
    · simp only [streamIds, List.map_cons, List.cons.injEq, true_and] at ih ⊢
      exact ih

/-- a stream that is found gets one point more -/
theorem totalPoints_modifyStream {id : Str} (p : Point) {l : List DataStream} (h : id ∈ streamIds l) :
    totalPoints (modifyStream id (fun s => s.setPoint (p :: s.ccfsm.point)) l) = totalPoints l + 1 := by
  induction l with
  | nil => simp [streamIds] at h
  | cons s l ih =>
    simp only [modifyStream]
    split_ifs with hid
    · simp only [totalPoints, DataStream.setPoint, List.map_cons, List.sum_cons, List.length_cons]
      omega
    · simp only [streamIds, List.map_cons, List.mem_cons, hid, false_or] at h
      have := ih h
      simp only [totalPoints, List.map_cons, List.sum_cons] at this ⊢
      omega

@[simp] theorem totalPoints_sent (l : List DataStream) : totalPoints (l.map fun s => s.setPoint []) = 0 := by
  induction l with
  | nil => rfl
  | cons s l ih => simpa [totalPoints, DataStream.setPoint] using ih

/-- the count goes down by one for each stream that loses a point -/
theorem count_older (l : List DataStream) (k : ℕ) :
    l.foldl (fun n s => if s.ccfsm.point = [] then n else u32Sub n 1) (u32 (k + totalPoints l)) =
      u32 (k + totalPoints (l.map fun s => s.setPoint s.ccfsm.point.tail)) := by
  induction l generalizing k with
  | nil => rfl
  | cons s l ih =>
    have hk := ih (k + s.ccfsm.point.tail.length)
    cases hp : s.ccfsm.point with
    | nil =>
      simp only [hp, List.tail_nil, List.length_nil, Nat.add_zero] at hk
      simpa [totalPoints, DataStream.setPoint, hp] using hk
    | cons p ps =>
      simp only [hp, List.tail_cons] at hk
      have hstep : u32Sub (u32 (k + totalPoints (s :: l))) 1 = u32 (k + ps.length + totalPoints l) := by
        simp only [totalPoints, List.map_cons, List.sum_cons, hp, List.length_cons, u32, u32Sub]
        omega
      simp only [List.foldl_cons, hp, reduceCtorEq, if_false, hstep, hk]
      simp only [totalPoints, DataStream.setPoint, List.map_cons, List.sum_cons, hp, List.tail_cons, Nat.add_assoc]

/-! ## The invariant -/

/-- one operation keeps ids and count, whatever fails in it -/
theorem counted_step (c : Collection) (o : Op) (h : Counted c) (ho : o.updates) : Counted (step c o) := by
  cases step_change c o with
  | kept hl hn hd hx => exact ⟨by rw [hl]; exact h.ids, by rw [hl, hd]; exact h.count⟩
  | stream s hid hp hr hl hn hd hx =>
    constructor
    · rw [hl]
      exact List.nodup_cons.2 ⟨find_none hid, h.ids⟩
    · rw [hl, hd, h.count]
      simp [totalPoints, hp]
  | removed hv hf hl hn hd hx => cases ho
  | point s p hs hl hn hd hx =>
    constructor
    · rw [hl, streamIds_modifyStream]
      exact h.ids
    · rw [hl, hd, totalPoints_modifyStream p (find_some hs), h.count, u32, u32]
      exact Nat.mod_add_mod _ _ _
  | older hl hn hd hx =>
    constructor
    · rw [hl, streamIds_setPoint]
      exact h.ids
    · have := count_older c.list 0
      rw [Nat.zero_add, Nat.zero_add] at this
      rw [hl, hd, h.count]
      exact this
  | chained hl hn hd hx => exact ⟨by rw [hl]; exact h.ids, by rw [hl, hd]; exact h.count⟩
  | sent hl hn hd hx =>
    constructor
    · rw [hl, streamIds_setPoint]
      exact h.ids
    · rw [hl, hd, totalPoints_sent]
      rfl
  | cleared hc hl hn hd => rcases hc with ⟨q, r, rfl⟩ | ⟨q, r, k, rfl⟩ <;> cases ho

theorem counted_new (next : ℕ → Option ℕ) : Counted (newCollection next) := ⟨List.nodup_nil, rfl⟩

/-- **Ids and count.** From a new collection, any operations of these kinds in any order, with any arguments and any of
their allocations and lock calls failing: the ids are distinct, and the count that is reported is the number of points in
all streams, modulo 2^32. -/
theorem counted_run (next : ℕ → Option ℕ) (ops : List Op) (hops : ∀ o ∈ ops, o.updates) :
    let c := Runs.run step (newCollection next) ops
    (streamIds c.list).Nodup ∧
      getCollectionPointsCount true c = .ok ({ error := .none, count := some (totalPoints c.list % 2 ^ 32) }, c) := by
  have h := Runs.run_inv_mem counted_step (counted_new next) hops
  refine ⟨h.ids, ?_⟩
  simp only [getCollectionPointsCount, if_true, h.count]
  rfl

/-- two streams and three points, one stream refused for its id, one point lost to memory, one lock call that fails -/
def countedOps : List Op :=
  [.plainStream (ascii "t") (ascii "int32"), .plainStream (ascii "h") (ascii "int32"),
    .plainStream (ascii "t") (ascii "double"), .plainPoint (ascii "t") 20, .plainPoint (ascii "t") 21,
    .addPoint (some (ascii "h")) ⟨5, 0, 0, 0, [], 0, 0, 0, [], ⟨0, 0, 0⟩, 0⟩ ⟨false, true, true⟩ true true,
    .addPoint (some (ascii "h")) ⟨6, 0, 0, 0, [], 0, 0, 0, [], ⟨0, 0, 0⟩, 0⟩ .full true false, .removeOlder]

theorem counted_one :
    totalPoints (Runs.run step (newCollection fun _ => none) countedOps).list = 1 ∧
      let c := Runs.run step (newCollection fun _ => none) countedOps
      (streamIds c.list).Nodup ∧
        getCollectionPointsCount true c = .ok ({ error := .none, count := some (totalPoints c.list % 2 ^ 32) }, c) :=
  ⟨by decide +kernel, counted_run _ _ (by decide)⟩

end CcApi.Datapoints
