/-
The points of a collection from the application to the connector (`ccapi_datapoints.c`).

`ccapi_dp_add` puts a point into a stream, and a send hands all streams to the connector and empties them when the connector has
answered that the cloud has taken them. A collection is an outbox: a queue of points for each stream id, sent as a whole. What the
connector is handed is read along the links of its own records; the outbox knows nothing of them.

The calls that take points out lose others: with the first stream all streams go, and from a stream with several points the
newest one goes for the oldest, which stays.

- `track`: a collection and its books, which say what the calls have added, what the connector was handed in the sends that went
  through, what was taken out as asked for, and what was lost.
- `step_outbox`: each operation is a step of the outbox, as long as none takes the last stream out while the stream before it has a
  link.
- `delivered_once`: so what was added is delivered once and in order, still in the collection, taken out, or lost in one of these
  two ways; and where no removal finds more than it takes out nothing is lost.

Premises: those of `Datapoints.Model`. Clear and destroy end the life of a collection.
-/
import CcApi.Datapoints.Older
import CcApi.Lib.Outbox

namespace CcApi.Datapoints

open Lib

namespace Delivery

/-! ## The books -/

/-- the points of an id among streams as the connector reads them, the one added first in front -/
def pointsIn (id : Str) (views : List (Option StreamView)) : List PointValue :=
  views.flatMap fun
    | some v => if v.streamId = id then v.point.reverse else []
    | none => []

/-- the points in the collection -/
def held (c : Collection) (id : Str) : List PointValue := pointsIn id (c.list.map fun s => some s.ccfsm.view)

/-- what the connector is handed in a send that goes through: it has told that the cloud has taken the points -/
def taken (c : Collection) : Op → List (Option StreamView)
  | .send e =>
    match operate c (.send e) with
    | .ok (a, _) => if e.verdict = .none then a.handed.getD [] else []
    | .error _ => []
  | _ => []

/-- what an operation is asked to take out, and takes out: the points of a stream, when its id is valid and the lock is granted,
and the oldest point of each stream, where it is the only one -/
def takenOut (c : Collection) (o : Op) (id : Str) : List PointValue :=
  match o with
  | .removeStream (some i) acquire _ =>
    if validStreamId (some i) = true ∧ acquire = true ∧ id = i then held c id else []
  | .removeOlder => if (held c id).length ≤ 1 then held c id else []
  | _ => []

/-- what goes without having been asked for: with the first stream the points of all others, and the newest point of a stream
that has several -/
def lost (c : Collection) (o : Op) (id : Str) : List PointValue :=
  match o with
  | .removeStream (some i) acquire _ =>
    if validStreamId (some i) = true ∧ acquire = true ∧ id ≠ i ∧ c.list.head?.map (·.ccfsm.streamId) = some i then held c id
    else []
  | .removeOlder => if (held c id).length ≤ 1 then [] else (held c id).getLast?.toList
  | _ => []

structure Books where
  added : Str → List PointValue
  delivered : Str → List PointValue
  takenOut : Str → List PointValue
  lost : Str → List PointValue

def Books.empty : Books := ⟨fun _ => [], fun _ => [], fun _ => [], fun _ => []⟩

def Books.step (c : Collection) (b : Books) (o : Op) : Books where
  added :=
    match Datapoints.added c o with
    | some (id, p) => Function.update b.added id (b.added id ++ [p.value])
    | none => b.added
  delivered id := b.delivered id ++ pointsIn id (taken c o)
  takenOut id := b.takenOut id ++ Delivery.takenOut c o id
  lost id := b.lost id ++ Delivery.lost c o id

abbrev Kept := Collection × Books

def track (s : Kept) (o : Op) : Kept := (step s.1 o, s.2.step s.1 o)

/-- the collection as an outbox -/
def outbox (s : Kept) : Outbox Str PointValue :=
  ⟨s.2.added, s.2.delivered, held s.1, fun id => s.2.takenOut id ++ s.2.lost id⟩

/-- neither a clear nor a destroy, and the chain stays the list -/
def Whole (s : Kept) (o : Op) : Prop := o.clears = false ∧ cutsChain s.1 o = false

instance (s : Kept) (o : Op) : Decidable (Whole s o) := inferInstanceAs (Decidable (_ ∧ _))

/-- a removal finds no more than it takes out: the first stream is the only one, and no stream has several points -/
def Sparing (s : Kept) : Op → Prop
  | .removeStream (some i) .. => s.1.list.head?.map (·.ccfsm.streamId) = some i → s.1.list.length = 1
  | .removeOlder => ∀ t ∈ s.1.list, t.ccfsm.point.length ≤ 1
  | _ => True

instance (s : Kept) (o : Op) : Decidable (Sparing s o) := by
  unfold Sparing
  split <;> infer_instance

/-! ## The points of a stream -/

@[simp] theorem pointsIn_nil (id : Str) : pointsIn id [] = [] := rfl

/-- the points of a list's streams -/
def listed (id : Str) (l : List DataStream) : List PointValue := pointsIn id (l.map fun s => some s.ccfsm.view)

theorem held_eq (c : Collection) (id : Str) : held c id = listed id c.list := rfl

@[simp] theorem listed_nil (id : Str) : listed id [] = [] := rfl

theorem listed_cons (id : Str) (s : DataStream) (l : List DataStream) :
    listed id (s :: l) = (if s.ccfsm.streamId = id then (s.ccfsm.point.map (·.value)).reverse else []) ++ listed id l := rfl

theorem listed_absent {id : Str} {l : List DataStream} (h : id ∉ streamIds l) : listed id l = [] := by
  induction l with
  | nil => rfl
  | cons s l ih =>
    simp only [streamIds, List.map_cons, List.mem_cons, not_or] at h
    rw [listed_cons, if_neg (Ne.symm h.1), ih h.2, List.nil_append]

theorem listed_filter (i id : Str) (l : List DataStream) :
    listed id (l.filter fun s => s.ccfsm.streamId ≠ i) = if id = i then [] else listed id l := by
  induction l with
  | nil => simp
  | cons s l ih =>
    rw [List.filter_cons]
    by_cases hs : s.ccfsm.streamId = i
    · rw [if_neg (by simpa using hs), ih, listed_cons]
      by_cases hid : id = i
      · rw [if_pos hid, if_pos hid]
      · rw [if_neg hid, if_neg hid, if_neg fun he => hid (he.symm.trans hs), List.nil_append]
    · rw [if_pos (by simpa using hs), listed_cons, listed_cons, ih]
      by_cases hid : id = i
      · rw [if_pos hid, if_pos hid, if_neg fun he => hs (he.trans hid), List.nil_append]
      · rw [if_neg hid, if_neg hid]

/-- the points of an id are those of the one stream that has it -/
theorem listed_of_mem {l : List DataStream} (hn : (streamIds l).Nodup) {t : DataStream} (ht : t ∈ l) :
    listed t.ccfsm.streamId l = (t.ccfsm.point.map (·.value)).reverse := by
  induction l with
  | nil => cases ht
  | cons s l ih =>
    obtain ⟨hs, hnodup⟩ := List.nodup_cons.1 hn
    rw [listed_cons]
    rcases List.mem_cons.1 ht with rfl | ht
    · have hrest : listed t.ccfsm.streamId l = [] := listed_absent hs
      rw [if_pos rfl, hrest, List.append_nil]
    · have hne : s.ccfsm.streamId ≠ t.ccfsm.streamId := fun he => hs (List.mem_map.2 ⟨t, ht, he.symm⟩)
      rw [if_neg hne, List.nil_append, ih hnodup ht]

/-- the oldest points stay -/
theorem listed_tail {l : List DataStream} (hn : (streamIds l).Nodup) (id : Str) :
    listed id (l.map fun s => s.setPoint s.ccfsm.point.tail) = (listed id l).dropLast := by
  by_cases hid : id ∈ streamIds l
  · obtain ⟨t, ht, rfl⟩ := List.mem_map.1 hid
    have hn' : (streamIds (l.map fun s => s.setPoint s.ccfsm.point.tail)).Nodup := by rwa [streamIds_setPoint]
    rw [listed_of_mem hn ht]
    have hmem : t.setPoint t.ccfsm.point.tail ∈ l.map fun s => s.setPoint s.ccfsm.point.tail := List.mem_map_of_mem ht
    have hpoints := listed_of_mem hn' hmem
    simpa [DataStream.setPoint, List.dropLast_reverse] using hpoints
  · rw [listed_absent hid, listed_absent (by rwa [streamIds_setPoint])]
    rfl

theorem listed_emptied (id : Str) (l : List DataStream) : listed id (l.map fun s => s.setPoint []) = [] := by
  induction l with
  | nil => rfl
  | cons s l ih =>
    rw [List.map_cons, listed_cons, ih]
    simp [DataStream.setPoint]

/-- a new point stands behind those of its stream -/
theorem listed_modifyStream {i : Str} (p : Point) {l : List DataStream} (hn : (streamIds l).Nodup) (hi : i ∈ streamIds l)
    (id : Str) : listed id (modifyStream i (fun s => s.setPoint (p :: s.ccfsm.point)) l) =
      if id = i then listed i l ++ [p.value] else listed id l := by
  induction l with
  | nil => simp [streamIds] at hi
  | cons s l ih =>
    obtain ⟨hnot, hnodup⟩ := List.nodup_cons.1 hn
    by_cases hs : i = s.ccfsm.streamId
    · subst hs
      have hrest : listed s.ccfsm.streamId l = [] := listed_absent hnot
      rw [modifyStream, if_pos rfl, listed_cons, listed_cons, listed_cons]
      by_cases hid : id = s.ccfsm.streamId
      · subst hid
        simp [DataStream.setPoint, hrest]
      · simp [DataStream.setPoint, hid, Ne.symm hid]
    · have hmem : i ∈ streamIds l := by
        simp only [streamIds, List.map_cons, List.mem_cons] at hi
        exact hi.resolve_left hs
      rw [modifyStream, if_neg hs, listed_cons, listed_cons, listed_cons, ih hnodup hmem]
      by_cases hid : id = i
      · subst hid
        simp [Ne.symm hs]
      · simp [hid]

/-! ## One step -/

/-- a removal of the head leaves no stream, and so no link -/
theorem chained_step {c : Collection} {o : Op} (h : Chained c) (ho : o.clears = false) (hcut : cutsChain c o = false) :
    Chained (step c o) := by
  by_cases hscope : Op.inScope c o = true
  · obtain ⟨hholds, hids, hunreleased, hdestroyed, hlast⟩ := step_chained h hscope
    exact ⟨hholds, hids, hunreleased, hdestroyed, hlast hcut⟩
  · have hholds := step_holds c o h.holds ho
    cases step_change c o with
    | kept hl hn hd hx =>
      refine ⟨hholds, ?_, ?_, ?_, ?_⟩
      · rw [hl]
        exact h.ids
      · rw [hl]
        exact h.unreleased
      · rw [hx]
        exact h.destroyed
      · rw [hl, hn]
        exact h.last
    | @removed id release _ hv hf hl hn hd hx =>
      have hnil : (step c (.removeStream (some id) true release)).list = [] := by
        rw [hl]
        cases hlist : c.list with
        | nil => rfl
        | cons s l =>
          have hid : s.ccfsm.streamId = id := by simpa [Op.inScope, hlist] using hscope
          simp [removeLoop, hid]
      refine ⟨hholds, ?_, ?_, ?_, ?_⟩
      · simp [hnil, streamIds]
      · simp [hnil]
      · rw [hx]
        exact h.destroyed
      · simp [hnil, ccfsmBlocks]
    | cleared hc hl hn hd => rcases hc with ⟨q, r, rfl⟩ | ⟨q, r, k, rfl⟩ <;> cases ho
    | _ => exact absurd rfl hscope

/-- the books of an operation that only looks, or fails -/
theorem outbox_quiet {s : Kept} {o : Op} (hadded : added s.1 o = none) (htaken : taken s.1 o = [])
    (hout : ∀ id, takenOut s.1 o id = [] ∧ lost s.1 o id = []) (hheld : ∀ id, held (step s.1 o) id = held s.1 id) :
    outbox (track s o) = outbox s := by
  have hnone (id : Str) : takenOut s.1 o id = [] := (hout id).1
  have hnot (id : Str) : lost s.1 o id = [] := (hout id).2
  simp only [outbox, track, Books.step, hadded, htaken, hnone, hnot, pointsIn_nil, List.append_nil, Outbox.mk.injEq, true_and,
    and_true]
  exact funext hheld

/-- what a removal leaves is a part of what was there, and the rest was taken out or is lost -/
theorem outbox_drop {s : Kept} {o : Op} (hadded : added s.1 o = none) (htaken : taken s.1 o = [])
    (hheld : ∀ id, (held (step s.1 o) id).Sublist (held s.1 id))
    (hgone : ∀ id, (held s.1 id).Perm (held (step s.1 o) id ++ (takenOut s.1 o id ++ lost s.1 o id))) :
    Outbox.Step (outbox s) (outbox (track s o)) := by
  have heq : outbox (track s o) = { outbox s with
      held := held (step s.1 o)
      dropped := fun id => s.2.takenOut id ++ takenOut s.1 o id ++ (s.2.lost id ++ lost s.1 o id) } := by
    simp only [outbox, track, Books.step, hadded, htaken, pointsIn_nil, List.append_nil]
  rw [heq]
  refine .drop (outbox s) (held (step s.1 o)) _ hheld fun id => ?_
  calc (held s.1 id ++ (s.2.takenOut id ++ s.2.lost id)).Perm
        (held (step s.1 o) id ++ (takenOut s.1 o id ++ lost s.1 o id) ++ (s.2.takenOut id ++ s.2.lost id)) :=
      (hgone id).append_right _
    List.Perm _ (held (step s.1 o) id ++ (s.2.takenOut id ++ takenOut s.1 o id ++ (s.2.lost id ++ lost s.1 o id))) := by
      simp only [List.append_assoc]
      refine List.Perm.append_left _ ?_
      rw [← List.append_assoc, ← List.append_assoc (s.2.takenOut id)]
      refine List.perm_append_comm.trans ?_
      simp only [List.append_assoc]
      exact List.Perm.append_left _ (List.perm_append_comm_assoc _ _ _)

theorem taken_of_quiet {c : Collection} {e : SendEnv} {a : Answer} {c' : Collection} (h : sendCollection e c = .ok (a, c'))
    (hd : c.destroyed = false) (hnone : a.handed = none) : taken c (.send e) = [] := by
  simp [taken, operate, hd, perform, h, hnone]

/-- **A send.** The connector reads the list, whatever becomes of the send; when it goes through, the queues are empty. -/
theorem send_outbox {s : Kept} (h : Chained s.1) (e : SendEnv) :
    Outbox.Step (outbox s) (outbox (track s (.send e))) := by
  have hadded : added s.1 (.send e) = none := rfl
  cases hsend : sendCollection e s.1 with
  | error b =>
    have hstep : step s.1 (.send e) = s.1 := by simp [step, operate, h.destroyed, perform, hsend]
    rw [outbox_quiet hadded (by simp [taken, operate, h.destroyed, perform, hsend]) (fun _ => ⟨rfl, rfl⟩) fun id => by rw [hstep]]
    exact .rest _
  | ok r =>
    obtain ⟨a, c'⟩ := r
    have hstep : step s.1 (.send e) = c' := by simp [step, operate, h.destroyed, perform, hsend]
    obtain ⟨hnone, hc⟩ | ⟨-, hhanded, hc⟩ := sendCollection_cases hsend
    · have hlist : c'.list = s.1.list := by rcases hc with rfl | rfl <;> rfl
      rw [outbox_quiet hadded (taken_of_quiet hsend h.destroyed hnone) (fun _ => ⟨rfl, rfl⟩) fun id => by
        rw [held_eq, held_eq, hstep, hlist]]
      exact .rest _
    · by_cases hv : e.verdict = .none
      · have hexact : handed (chainCollectionCcfsmDataStreams s.1) = s.1.list.map fun t => some t.ccfsm.view :=
          handed_exact ((exactChain_iff h.holds h.unreleased).2 h.last)
        have htaken : taken s.1 (.send e) = s.1.list.map fun t => some t.ccfsm.view := by
          simp [taken, operate, h.destroyed, perform, hsend, hv, hhanded, hexact]
        have hlist : c'.list = s.1.list.map fun t => t.setPoint [] := by
          rw [hc, if_pos hv]
          rfl
        have heq : outbox (track s (.send e)) = { outbox s with
            sent := fun id => (outbox s).sent id ++ (outbox s).held id
            held := fun _ => [] } := by
          simp only [outbox, track, Books.step, hadded, htaken, takenOut, lost, List.append_nil, Outbox.mk.injEq, true_and,
            and_true]
          refine ⟨rfl, funext fun id => ?_⟩
          rw [held_eq, hstep, hlist, listed_emptied]
        rw [heq]
        exact .flush _
      · have hlist : c'.list = s.1.list := by
          rw [hc, if_neg hv]
          rfl
        rw [outbox_quiet hadded (by simp [taken, operate, h.destroyed, perform, hsend, hv]) (fun _ => ⟨rfl, rfl⟩) fun id => by
          rw [held_eq, held_eq, hstep, hlist]]
        exact .rest _

theorem addPoint_outbox {s : Kept} (h : Chained s.1) (id : Option Str) (v : VaArgs) (m : PointMemory) (acquire release : Bool) :
    Outbox.Step (outbox s) (outbox (track s (.addPoint id v m acquire release))) := by
  have hpoint := addPoint_step h.destroyed id v m acquire release
  dsimp only at hpoint
  cases hadded : added s.1 (.addPoint id v m acquire release) with
  | none =>
    rw [hadded] at hpoint
    rw [outbox_quiet hadded rfl (fun _ => ⟨rfl, rfl⟩) fun id => by rw [held_eq, held_eq, hpoint.1]]
    exact .rest _
  | some q =>
    obtain ⟨i, p⟩ := q
    rw [hadded] at hpoint
    obtain ⟨hi, hlist, -⟩ := hpoint
    have heq : outbox (track s (.addPoint id v m acquire release)) = { outbox s with
        added := Function.update (outbox s).added i ((outbox s).added i ++ [p.value])
        held := Function.update (outbox s).held i ((outbox s).held i ++ [p.value]) } := by
      simp only [outbox, track, Books.step, hadded, taken, takenOut, lost, pointsIn_nil, List.append_nil, Outbox.mk.injEq,
        true_and, and_true]
      refine funext fun j => ?_
      rw [held_eq, hlist, listed_modifyStream p h.ids hi, Function.update_apply]
      rfl
    rw [heq]
    exact .add _ _ _

theorem addStream_outbox {s : Kept} (a : StreamArgs) (m : StreamMemory) (acquire release : Bool) :
    Outbox.Step (outbox s) (outbox (track s (.addStream a m acquire release))) := by
  have hheld (id : Str) : held (step s.1 (.addStream a m acquire release)) id = held s.1 id := by
    rw [held_eq, held_eq]
    cases step_change s.1 (.addStream a m acquire release) with
    | kept hl hn hd hx => rw [hl]
    | stream t hid hp hr hl hn hd hx =>
      rw [hl, listed_cons, hp]
      simp
    | cleared hc hl hn hd => rcases hc with ⟨q, r, hc⟩ | ⟨q, r, k, hc⟩ <;> cases hc
  rw [outbox_quiet rfl rfl (fun _ => ⟨rfl, rfl⟩) hheld]
  exact .rest _

theorem chained_firstReleased {c : Collection} (h : Chained c) : firstReleased c.list = none := by
  simp only [firstReleased, Option.map_eq_none_iff, List.find?_eq_none]
  intro s hs
  simp [h.unreleased s hs]

/-- the list behind a removal of a stream -/
theorem removeStream_list {c : Collection} (h : Chained c) (i : Str) (acquire release : Bool) :
    (step c (.removeStream (some i) acquire release)).list =
      if validStreamId (some i) = true ∧ acquire = true then
        if c.list.head?.map (·.ccfsm.streamId) = some i then [] else c.list.filter fun s => s.ccfsm.streamId ≠ i
      else c.list := by
  have hfirst := chained_firstReleased h
  have hoperate : operate c (.removeStream (some i) acquire release) =
      removeDataStreamFromCollection (some i) acquire release c := by simp [operate, h.destroyed, perform]
  rw [step, hoperate]
  by_cases hv : validStreamId (some i) = true
  · cases acquire with
    | false => by_cases hl : c.list = [] <;> simp [removeDataStreamFromCollection, hv, hl, answer]
    | true =>
      rw [if_pos ⟨hv, rfl⟩]
      cases hl : c.list with
      | nil => simp [removeDataStreamFromCollection, hv, hl, answer]
      | cons s l =>
        rw [hl] at hfirst
        by_cases hs : s.ccfsm.streamId = i
        · simp [removeDataStreamFromCollection, hv, hl, overList, hfirst, answer, removeLoop, hs]
        · simp [removeDataStreamFromCollection, hv, hl, overList, hfirst, answer, removeLoop, hs, removeLoop_true]
  · simp [removeDataStreamFromCollection, hv, answer]

theorem removeStream_outbox {s : Kept} (h : Chained s.1) (id : Option Str) (acquire release : Bool) :
    Outbox.Step (outbox s) (outbox (track s (.removeStream id acquire release))) := by
  cases id with
  | none =>
    have hlist : (step s.1 (.removeStream none acquire release)).list = s.1.list := by
      simp [step, operate, h.destroyed, perform, removeDataStreamFromCollection, validStreamId, answer]
    rw [outbox_quiet rfl rfl (fun _ => ⟨rfl, rfl⟩) fun id => by rw [held_eq, held_eq, hlist]]
    exact .rest _
  | some i =>
    have hlist := removeStream_list h i acquire release
    by_cases ho : validStreamId (some i) = true ∧ acquire = true
    · rw [if_pos ho] at hlist
      by_cases hhead : s.1.list.head?.map (·.ccfsm.streamId) = some i
      · rw [if_pos hhead] at hlist
        refine outbox_drop rfl rfl (fun id => ?_) fun id => ?_
        · rw [held_eq, held_eq, hlist]
          exact List.nil_sublist _
        · rw [held_eq (step _ _), hlist, listed_nil, List.nil_append]
          by_cases hid : id = i
          · simp [takenOut, lost, ho, hid]
          · simp [takenOut, lost, ho, hid, hhead]
      · rw [if_neg hhead] at hlist
        refine outbox_drop rfl rfl (fun id => ?_) fun id => ?_
        · rw [held_eq, held_eq, hlist, listed_filter]
          split_ifs
          · exact List.nil_sublist _
          · exact List.Sublist.refl _
        · rw [held_eq (step _ _), hlist, listed_filter]
          by_cases hid : id = i
          · simp [takenOut, lost, ho, hid]
          · simp [takenOut, lost, hid, hhead, held_eq]
    · rw [if_neg ho] at hlist
      have hnone (id : Str) : takenOut s.1 (.removeStream (some i) acquire release) id = [] :=
        if_neg fun hc => ho ⟨hc.1, hc.2.1⟩
      have hnot (id : Str) : lost s.1 (.removeStream (some i) acquire release) id = [] :=
        if_neg fun hc => ho ⟨hc.1, hc.2.1⟩
      rw [outbox_quiet rfl rfl (fun id => ⟨hnone id, hnot id⟩) fun id => by rw [held_eq, held_eq, hlist]]
      exact .rest _

theorem removeOlder_outbox {s : Kept} (h : Chained s.1) : Outbox.Step (outbox s) (outbox (track s .removeOlder)) := by
  have hheld (id : Str) : held (step s.1 .removeOlder) id = (held s.1 id).dropLast := by
    have hlist : (step s.1 .removeOlder).list = s.1.list.map fun t => t.setPoint t.ccfsm.point.tail := by
      simp [step, operate, h.destroyed, perform, removeOlderDataPointFromStreams, overList, chained_firstReleased h, answer]
    rw [held_eq, held_eq, hlist, listed_tail h.ids]
  refine outbox_drop rfl rfl (fun id => ?_) fun id => ?_
  · rw [hheld]
    exact List.dropLast_sublist _
  · rw [hheld]
    by_cases hone : (held s.1 id).length ≤ 1
    · have hnil : (held s.1 id).dropLast = [] := by
        rw [← List.length_eq_zero_iff, List.length_dropLast]
        omega
      simp [takenOut, lost, hone, hnil]
    · have hne : held s.1 id ≠ [] := by
        intro hnil
        simp [hnil] at hone
      rw [takenOut, lost, if_neg hone, if_neg hone, List.getLast?_eq_some_getLast hne, Option.toList_some, List.nil_append,
        List.dropLast_append_getLast]

theorem look_outbox {s : Kept} {o : Op} (ho : o = .null ∨ ∃ withCount, o = .count withCount) :
    Outbox.Step (outbox s) (outbox (track s o)) := by
  have hlist : (step s.1 o).list = s.1.list := by
    rcases ho with rfl | ⟨withCount, rfl⟩
    · simp only [step, operate]
      split_ifs <;> rfl
    · cases withCount <;> simp only [step, operate, perform, getCollectionPointsCount] <;> split_ifs <;> rfl
  have hquiet : outbox (track s o) = outbox s := by
    rcases ho with rfl | ⟨withCount, rfl⟩ <;>
      exact outbox_quiet rfl rfl (fun _ => ⟨rfl, rfl⟩) fun id => by rw [held_eq, held_eq, hlist]
  rw [hquiet]
  exact .rest _

/-- **Each operation is a step of the outbox.** -/
theorem step_outbox {s : Kept} (h : Chained s.1) {o : Op} (ho : Whole s o) : Outbox.Step (outbox s) (outbox (track s o)) := by
  cases o with
  | null => exact look_outbox (.inl rfl)
  | addStream a m acquire release => exact addStream_outbox a m acquire release
  | removeStream id acquire release => exact removeStream_outbox h id acquire release
  | addPoint id v m acquire release => exact addPoint_outbox h id v m acquire release
  | removeOlder => exact removeOlder_outbox h
  | count withCount => exact look_outbox (.inr ⟨withCount, rfl⟩)
  | send e => exact send_outbox h e
  | clear acquire release => exact absurd ho.1 Bool.noConfusion
  | destroy acquire release lock => exact absurd ho.1 Bool.noConfusion

/-! ## Runs -/

structure Inv (s : Kept) : Prop where
  chained : Chained s.1
  exact : (outbox s).Exact

theorem step_inv {s : Kept} {o : Op} (h : Inv s) (ho : Whole s o) : Inv (track s o) :=
  ⟨chained_step h.chained ho.1 ho.2, (step_outbox h.chained ho).exact h.exact⟩

def fresh (next : ℕ → Option ℕ) : Kept := (newCollection next, Books.empty)

theorem inv_fresh (next : ℕ → Option ℕ) : Inv (fresh next) := ⟨chained_new next, Outbox.exact_empty⟩

/-- what has become of the points of every stream id, whichever streams have had it -/
structure Accounted (s : Kept) : Prop where
  /-- what the connector has been handed for good and what is still in the collection, in the order of the calls, once each -/
  order : ∀ id, (s.2.delivered id ++ held s.1 id).Sublist (s.2.added id)
  /-- what is missing there was taken out or is lost -/
  complete : ∀ id, (s.2.added id).Perm (s.2.delivered id ++ held s.1 id ++ (s.2.takenOut id ++ s.2.lost id))
  /-- so where nothing was taken out and nothing is lost nothing is missing -/
  all : ∀ id, s.2.takenOut id = [] → s.2.lost id = [] → s.2.delivered id ++ held s.1 id = s.2.added id

/-- a removal that finds no more than it takes out loses nothing -/
theorem Sparing.lost_nil {s : Kept} (h : Chained s.1) {o : Op} (ho : Sparing s o) (id : Str) : lost s.1 o id = [] := by
  cases o with
  | removeStream id' acquire release =>
    cases id' with
    | none => rfl
    | some i =>
      by_cases hlost : validStreamId (some i) = true ∧ acquire = true ∧ id ≠ i ∧
          s.1.list.head?.map (·.ccfsm.streamId) = some i
      · obtain ⟨-, -, hne, hhead⟩ := hlost
        obtain ⟨t, ht⟩ := List.length_eq_one_iff.1 (ho hhead)
        have hid : t.ccfsm.streamId = i := by simpa [ht] using hhead
        have hnil : held s.1 id = [] := by
          rw [held_eq, ht, listed_cons, if_neg fun he => hne (he.symm.trans hid)]
          rfl
        simp [lost, hnil]
      · exact if_neg hlost
  | removeOlder =>
    refine if_pos (show (held s.1 id).length ≤ 1 from ?_)
    rw [held_eq]
    by_cases hid : id ∈ streamIds s.1.list
    · obtain ⟨t, ht, rfl⟩ := List.mem_map.1 hid
      rw [listed_of_mem h.ids ht, List.length_reverse, List.length_map]
      exact ho t ht
    · rw [listed_absent hid]
      exact Nat.zero_le _
  | _ => rfl

theorem nothing_lost (next : ℕ → Option ℕ) {ops : List Op} (h : Runs.Along track Whole (fresh next) ops)
    (hs : Runs.Along track Sparing (fresh next) ops) (id : Str) : (Runs.run track (fresh next) ops).2.lost id = [] := by
  have hstep : ∀ s o, Inv s ∧ s.2.lost id = [] → Whole s o ∧ Sparing s o → Inv (track s o) ∧ (track s o).2.lost id = [] := by
    rintro s o ⟨hi, hnone⟩ ⟨hw, hsparing⟩
    refine ⟨step_inv hi hw, ?_⟩
    change s.2.lost id ++ lost s.1 o id = []
    rw [hnone, hsparing.lost_nil hi.chained, List.append_nil]
  exact (Runs.run_inv hstep ⟨inv_fresh next, rfl⟩ (Runs.along_and.2 ⟨h, hs⟩)).2

/-- **Delivery.** Streams and points added and removed in any order, sends that fail at any step and sends that go through, any
call refused its memory or its lock: the connector is handed each point once, in the order of the calls, and where the removals
are sparing none is lost. -/
theorem delivered_once (next : ℕ → Option ℕ) (ops : List Op) (h : Runs.Along track Whole (fresh next) ops) :
    Accounted (Runs.run track (fresh next) ops) ∧
      (Runs.Along track Sparing (fresh next) ops → ∀ id, (Runs.run track (fresh next) ops).2.lost id = []) := by
  have hinv : Inv (Runs.run track (fresh next) ops) := Runs.run_inv (fun _ _ => step_inv) (inv_fresh next) h
  refine ⟨⟨hinv.exact.order, hinv.exact.complete, fun id hout hlost => hinv.exact.all ?_⟩, nothing_lost next h⟩
  exact List.append_eq_nil_iff.2 ⟨hout, hlost⟩

/-- a send that times out between two points, a send that goes through, an older point taken out, and a third point -/
def retriedOps : List Op :=
  [.plainStream (ascii "t") (ascii "int32"), .plainPoint (ascii "t") 7, .send { SendEnv.good with status := .timeout },
    .plainPoint (ascii "t") 8, .send .good, .plainPoint (ascii "t") 9, .removeOlder, .plainPoint (ascii "t") 10]

theorem retried_once : Accounted (Runs.run track (fresh fun _ => none) retriedOps) ∧
    ∀ id, (Runs.run track (fresh fun _ => none) retriedOps).2.lost id = [] := by
  obtain ⟨haccounted, hspared⟩ := delivered_once (fun _ => none) retriedOps (by decide +kernel)
  exact ⟨haccounted, hspared (by decide +kernel)⟩

end Delivery

end CcApi.Datapoints
