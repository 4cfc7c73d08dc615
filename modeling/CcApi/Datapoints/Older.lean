/-
Removing the older points (`ccapi_dp_remove_older_data_point_from_streams`).

`ccapi_dp_add` puts a new point in front of the stream's points, and the removal takes the point in front. What it should
take is said by `Arrivals`: for every stream the points in the order they were added, a new one behind the others, and the
first one out. `track` runs a collection and its arrivals side by side.

- `older_iff`: along any operations that build a collection, the collection holds what the arrivals say throughout, if and
  only if no call finds a stream with more than one point.
- `arrivals_older`: k calls in a row should leave of each stream what was added behind its first k points.
-/
import CcApi.Datapoints.Removal

namespace CcApi.Datapoints

open Lib

/-- adding streams and points, removing older points (and asking for the count) -/
def Op.builds : Op → Bool
  | .removeStream .. | .clear .. | .destroy .. | .send .. => false
  | _ => true

/-! ## The order of arrival -/

/-- the point that an operation adds, and the id of the stream it adds it to -/
def added (c : Collection) : Op → Option (Str × Point)
  | .addPoint (some id) v m true _ =>
    if validStreamId (some id) then
      match findStreamIdInCollection id c.list with
      | .ok (some s) =>
        match (createDataPoint s.arguments v m c.ledger).1 with
        | .ok p => some (id, p)
        | .error _ => none
      | _ => none
    else none
  | _ => none

/-- the points of each stream, the one added first in front -/
abbrev Arrivals := Str → List Point

/-- what an operation should make of them -/
def Arrivals.step (c : Collection) (a : Arrivals) (o : Op) : Arrivals :=
  match added c o with
  | some (id, p) => Function.update a id (a id ++ [p])
  | none => if o = .removeOlder then fun id => (a id).tail else a

/-- the collection and what it should hold -/
abbrev Tracked := Collection × Arrivals

def track (s : Tracked) (o : Op) : Tracked := (step s.1 o, s.2.step s.1 o)

def tracked (next : ℕ → Option ℕ) : Tracked := (newCollection next, fun _ => [])

/-- every stream holds the points it should, the newest in front, and they are counted -/
structure InOrder (s : Tracked) : Prop where
  points : ∀ t ∈ s.1.list, t.ccfsm.point.reverse = s.2 t.ccfsm.streamId
  /-- nothing has arrived for an id without a stream -/
  streams : ∀ id, id ∉ streamIds s.1.list → s.2 id = []
  count : s.1.dpCount = u32 ((s.1.list.map fun t => (s.2 t.ccfsm.streamId).length).sum)

/-- a call for the older points finds no stream with more than one -/
def FindsOne (s : Tracked) (o : Op) : Prop := o = .removeOlder → ∀ t ∈ s.1.list, t.ccfsm.point.length ≤ 1

instance (s : Tracked) (o : Op) : Decidable (FindsOne s o) := inferInstanceAs (Decidable (_ → _))

/-- k calls in a row should leave what was added behind the first k points -/
theorem arrivals_older (s : Tracked) (k : ℕ) (id : Str) :
    (Runs.run track s (List.replicate k .removeOlder)).2 id = (s.2 id).drop k := by
  induction k generalizing s with
  | zero => rfl
  | succ k ih =>
    rw [List.replicate_succ, Runs.run_cons, ih]
    show ((s.2 id).tail).drop k = (s.2 id).drop (k + 1)
    rw [List.drop_tail]

/-! ## What the operations do -/

/-- a stream that a call for a point finds gets the point in front; without a point list and count stay -/
theorem addPoint_step {c : Collection} (hd : c.destroyed = false) (id : Option Str) (v : VaArgs) (m : PointMemory)
    (acquire release : Bool) :
    let o := Op.addPoint id v m acquire release
    match added c o with
    | some (i, p) => i ∈ streamIds c.list ∧
        (step c o).list = modifyStream i (fun s => s.setPoint (p :: s.ccfsm.point)) c.list ∧
        (step c o).dpCount = u32 (c.dpCount + 1)
    | none => (step c o).list = c.list ∧ (step c o).dpCount = c.dpCount := by
  have hstep : ∀ o, step c o = ((perform c o).toOption.map Prod.snd).getD c := by
    intro o
    cases h : perform c o <;> simp [step, operate, hd, h, Except.toOption]
  dsimp only
  rw [hstep]
  simp only [Except.toOption]
  cases acquire with
  | false => simp [added, perform, dpAdd, answer]
  | true =>
    cases id with
    | none => simp [added, perform, dpAdd, answer, validStreamId]
    | some id =>
      by_cases hv : validStreamId (some id)
      · simp only [added, perform, dpAdd, hv, Bool.not_true, Bool.false_eq_true, if_false, if_true, Option.getD_some]
        cases hf : findStreamIdInCollection id c.list with
        | error b => simp
        | ok r =>
          cases r with
          | none => simp [answer]
          | some s =>
            rcases hp : createDataPoint s.arguments v m c.ledger with ⟨_ | p, l⟩
            · simp [hp]
            · simp [hp, answer, find_some hf]
      · simp [added, perform, dpAdd, answer, hv]

theorem removeOlder_step {c : Collection} (h : WellFormed c) (hd : c.destroyed = false) :
    (step c .removeOlder).list = c.list.map (fun s => s.setPoint s.ccfsm.point.tail) ∧
      (step c .removeOlder).dpCount =
        c.list.foldl (fun n s => if s.ccfsm.point = [] then n else u32Sub n 1) c.dpCount := by
  simp [step, operate, hd, perform, removeOlderDataPointFromStreams, overList, h.firstReleased, answer]

/-! ## The invariant -/

/-- what holds of a collection and its arrivals while no call for the older points has found two points in a stream -/
structure Tracking (s : Tracked) : Prop where
  wellFormed : WellFormed s.1
  counted : Counted s.1
  destroyed : s.1.destroyed = false
  points : ∀ t ∈ s.1.list, t.ccfsm.point.reverse = s.2 t.ccfsm.streamId
  absent : ∀ id, id ∉ streamIds s.1.list → s.2 id = []

theorem Tracking.inOrder {s : Tracked} (h : Tracking s) : InOrder s where
  points := h.points
  streams := h.absent
  count := by
    have hlength : s.1.list.map (fun t => (s.2 t.ccfsm.streamId).length) =
        s.1.list.map fun t => t.ccfsm.point.length :=
      List.map_congr_left fun t ht => by rw [← h.points t ht, List.length_reverse]
    rw [hlength]
    exact h.counted.count

theorem updates_of_builds {o : Op} (h : o.builds) : o.updates := by
  cases o <;> first | rfl | cases h

theorem clears_of_builds {o : Op} (h : o.builds) : o.clears = false := by
  cases o <;> first | rfl | cases h

/-- the points of a stream are pairwise distinct -/
theorem WellFormed.points_nodup {c : Collection} (h : WellFormed c) {s : DataStream} (hs : s ∈ c.list) :
    s.ccfsm.point.Nodup := by
  have hblocks : (s.ccfsm.point.flatMap Point.blocks).Nodup := (h.owns hs).nodup.sublist (List.sublist_append_left _ _)
  generalize s.ccfsm.point = l at hblocks
  induction l with
  | nil => exact List.nodup_nil
  | cons p l ih =>
    rw [List.flatMap_cons, List.nodup_append] at hblocks
    refine List.nodup_cons.2 ⟨fun hp => ?_, ih hblocks.2.1⟩
    have hblock : p.block ∈ p.blocks := by simp [Point.blocks]
    exact hblocks.2.2 _ hblock _ (List.mem_flatMap.2 ⟨p, hp, hblock⟩) rfl

/-- one end of a list of distinct points is the other only if there is no second point -/
theorem length_le_one_of_tail {l : List Point} (hl : l.Nodup) (h : l.tail.reverse = l.reverse.tail) :
    l.length ≤ 1 := by
  match l with
  | [] => simp
  | [p] => simp
  | p :: q :: l =>
    rw [List.tail_reverse, List.reverse_inj, List.tail_cons, List.dropLast_cons_cons, List.cons.injEq] at h
    exact absurd h.1 fun he => (List.nodup_cons.1 hl).1 (by simp [he])

theorem tail_reverse_of_length {l : List Point} (h : l.length ≤ 1) : l.tail.reverse = l.reverse.tail := by
  match l with
  | [] => rfl
  | [p] => rfl
  | p :: q :: l => simp at h

/-- a point that is added comes in front of its stream and last in its arrivals -/
theorem modifyStream_inOrder {l : List DataStream} {a : Arrivals} {id : Str} (p : Point) (hn : (streamIds l).Nodup)
    (h : ∀ t ∈ l, t.ccfsm.point.reverse = a t.ccfsm.streamId) :
    ∀ t ∈ modifyStream id (fun s => s.setPoint (p :: s.ccfsm.point)) l,
      t.ccfsm.point.reverse = Function.update a id (a id ++ [p]) t.ccfsm.streamId := by
  induction l with
  | nil => simp [modifyStream]
  | cons s l ih =>
    obtain ⟨hother, hn⟩ := ids_cons hn
    intro t ht
    simp only [modifyStream] at ht
    split_ifs at ht with hid
    · rcases List.mem_cons.1 ht with rfl | ht
      · have hs := h s List.mem_cons_self
        simp [DataStream.setPoint, hs, hid]
      · have hne : t.ccfsm.streamId ≠ id := by
          rw [hid]
          exact hother t ht
        rw [Function.update_of_ne hne]
        exact h t (List.mem_cons_of_mem s ht)
    · rcases List.mem_cons.1 ht with rfl | ht
      · rw [Function.update_of_ne (Ne.symm hid)]
        exact h t List.mem_cons_self
      · exact ih hn (fun u hu => h u (List.mem_cons_of_mem s hu)) t ht

/-- an operation that adds no point and is no call for the older points leaves what is there in its place -/
theorem quiet_points {s : Tracked} (h : Tracking s) {o : Op} (ho : o.builds) (hnone : added s.1 o = none)
    (hnot : o ≠ .removeOlder) (hpoint : ∀ id v m q r, o ≠ .addPoint id v m q r) :
    (∀ t ∈ (track s o).1.list, t.ccfsm.point.reverse = (track s o).2 t.ccfsm.streamId) ∧
      ∀ id, id ∉ streamIds (track s o).1.list → (track s o).2 id = [] := by
  have hsame : s.2.step s.1 o = s.2 := by simp [Arrivals.step, hnone, hnot]
  simp only [track, hsame]
  cases step_change s.1 o with
  | kept hl hn hd hx =>
    rw [hl]
    exact ⟨h.points, h.absent⟩
  | stream t hid hp hr hl hn hd hx =>
    rw [hl]
    refine ⟨fun u hu => ?_, fun id hid' => h.absent id fun hm => hid' (List.mem_cons_of_mem _ hm)⟩
    rcases List.mem_cons.1 hu with rfl | hu
    · rw [hp, h.absent _ (find_none hid), List.reverse_nil]
    · exact h.points u hu
  | point => exact absurd rfl (hpoint _ _ _ _ _)
  | older => exact absurd rfl hnot
  | removed | chained | sent => cases ho
  | cleared hc => rcases hc with ⟨q, r, rfl⟩ | ⟨q, r, k, rfl⟩ <;> cases ho

/-- **One step.** An operation that builds a collection keeps the arrivals and the collection together, unless it is a
call for the older points that finds two in a stream. -/
theorem tracking_step (s : Tracked) (o : Op) (h : Tracking s) (ho : o.builds) (hone : FindsOne s o) :
    Tracking (track s o) := by
  have hkeep : (∀ t ∈ (track s o).1.list, t.ccfsm.point.reverse = (track s o).2 t.ccfsm.streamId) ∧
      ∀ id, id ∉ streamIds (track s o).1.list → (track s o).2 id = [] := by
    cases o with
    | addPoint id v m acquire release =>
      have hstep := addPoint_step h.destroyed id v m acquire release
      dsimp only at hstep
      cases ha : added s.1 (.addPoint id v m acquire release) with
      | none =>
        rw [ha] at hstep
        simp only [track, Arrivals.step, ha, reduceCtorEq, if_false, hstep.1]
        exact ⟨h.points, h.absent⟩
      | some r =>
        obtain ⟨i, p⟩ := r
        rw [ha] at hstep
        obtain ⟨hi, hl, -⟩ := hstep
        simp only [track, Arrivals.step, ha, hl, streamIds_modifyStream]
        refine ⟨modifyStream_inOrder p h.wellFormed.ids h.points, fun id hid => ?_⟩
        have hne : id ≠ i := fun he => hid (by rwa [he])
        rw [Function.update_of_ne hne]
        exact h.absent id hid
    | removeOlder =>
      have hl := (removeOlder_step h.wellFormed h.destroyed).1
      simp only [track, Arrivals.step, added, if_true, hl, streamIds_setPoint]
      refine ⟨fun t ht => ?_, fun id hid => by rw [h.absent id hid, List.tail_nil]⟩
      obtain ⟨u, hu, rfl⟩ := List.mem_map.1 ht
      show u.ccfsm.point.tail.reverse = (s.2 u.ccfsm.streamId).tail
      rw [← h.points u hu]
      exact tail_reverse_of_length (hone rfl u hu)
    | null | addStream | count => exact quiet_points h ho rfl (by simp) (by simp)
    | removeStream | send | clear | destroy => cases ho
  refine ⟨wellFormed_step s.1 o h.wellFormed (clears_of_builds ho),
    counted_step s.1 o h.counted (updates_of_builds ho), ?_, hkeep.1, hkeep.2⟩
  cases step_change s.1 o with
  | cleared hc => rcases hc with ⟨q, r, rfl⟩ | ⟨q, r, k, rfl⟩ <;> cases ho
  | _ => rename_i hx; exact hx.trans h.destroyed

/-- a call that finds two points in a stream takes the wrong one -/
theorem findsOne_of_inOrder {s : Tracked} {o : Op} (h : Tracking s) (hnext : InOrder (track s o)) : FindsOne s o := by
  rintro rfl t ht
  have hl := (removeOlder_step h.wellFormed h.destroyed).1
  have hmem : t.setPoint t.ccfsm.point.tail ∈ (track s .removeOlder).1.list := by
    simp only [track, hl]
    exact List.mem_map_of_mem ht
  have hpoints : t.ccfsm.point.tail.reverse = (s.2 t.ccfsm.streamId).tail := hnext.points _ hmem
  rw [← h.points t ht] at hpoints
  exact length_le_one_of_tail (h.wellFormed.points_nodup ht) hpoints

theorem tracking_new (next : ℕ → Option ℕ) : Tracking (tracked next) :=
  ⟨wellFormed_new next, counted_new next, rfl, by simp [tracked, newCollection], fun _ _ => rfl⟩

/-- **The older points.** Along any operations that build a collection: every stream holds, in order, the points that
should be left of those added to it, and the count is theirs, throughout, if and only if every call for the older points
finds at most one point in each stream. -/
theorem older_iff (next : ℕ → Option ℕ) (ops : List Op) (hops : ∀ o ∈ ops, o.builds) :
    (∀ k, InOrder (Runs.run track (tracked next) (ops.take k))) ↔ Runs.Along track FindsOne (tracked next) ops :=
  Runs.along_iff_under (I := Tracking) (D := fun _ (o : Op) => o.builds) (fun _ h => h.inOrder) tracking_step
    (fun _ _ h _ hP => findsOne_of_inOrder h hP) (tracking_new next) (Runs.along_of_forall hops (tracked next))

/-- a stream whose points are taken as they come -/
def singleOps : List Op :=
  [.plainStream (ascii "t") (ascii "int32"), .plainPoint (ascii "t") 20, .removeOlder, .removeOlder,
    .plainPoint (ascii "t") 21, .removeOlder]

theorem single_inOrder : Runs.Along track FindsOne (tracked fun _ => none) singleOps ∧
    ∀ k, InOrder (Runs.run track (tracked fun _ => none) (singleOps.take k)) :=
  ⟨by decide +kernel, (older_iff _ _ (by decide)).2 (by decide +kernel)⟩

/-- one stream, 20 and then 21 -/
def pairOps : List Op :=
  [.plainStream (ascii "t") (ascii "int32"), .plainPoint (ascii "t") 20, .plainPoint (ascii "t") 21, .removeOlder]

/-- the call takes 21 and leaves 20 -/
theorem newer_removed :
    (∀ o ∈ pairOps, o.builds) ∧
      (Runs.run track (tracked fun _ => none) pairOps).1.list.map (fun s => s.ccfsm.point.map (·.value.native)) =
        [[.int 20]] ∧
      ((Runs.run track (tracked fun _ => none) pairOps).2 (ascii "t")).map (·.value.native) = [.int 21] ∧
      ¬ ∀ k, InOrder (Runs.run track (tracked fun _ => none) (pairOps.take k)) := by
  refine ⟨by decide, by decide +kernel, by decide +kernel, fun h => ?_⟩
  have hlast := h pairOps.length
  rw [List.take_length] at hlast
  have hpoints : ∀ t ∈ (Runs.run track (tracked fun _ => none) pairOps).1.list,
      t.ccfsm.point.reverse = (Runs.run track (tracked fun _ => none) pairOps).2 t.ccfsm.streamId := hlast.points
  revert hpoints
  decide +kernel

end CcApi.Datapoints
