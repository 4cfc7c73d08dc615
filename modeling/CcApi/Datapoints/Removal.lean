/-
Taking a stream out of a collection (`ccapi_dp_remove_data_stream_from_collection`).

The list pointer is set to NULL when the stream is the first one, the string of a point is released for streams of type
string only, and the loop goes on from the node it has just released: the link to the next stream is read behind
`free_ccapi_data_stream`, in every removal. `removeAccesses` writes the loop's accesses out in the order of the source.

- `others_stay_iff`: the other streams stay exactly when the stream was not the head, or the only one.
- `count_drops`: the count always drops by the stream's points.
- `given_back_iff`: every block of the stream is given back, once, exactly when none of its points has a string behind
  another type than string.
- `taken_out_unclean`: no removal is free of an access to a released node.
- `removes_iff`: the call does all it should exactly when no stream has the id.
-/
import CcApi.Datapoints.Sent

namespace CcApi.Datapoints

open Lib Ledger

/-! ## The accesses of the loop -/

/-- one turn of `free_data_points_in_data_stream`: the link is read, then `free_data_point` -/
def freeDataPointAccesses (s : CcfsmStream) (p : Point) : List Access :=
  [Access.touch p.block, .touch s.block] ++
    (if s.type = some .string then Access.touch p.block :: p.stringBlock.toList.map Access.release else []) ++
    [Access.touch p.block] ++
    (match p.value.time with
      | .iso8601 _ => Access.touch p.block :: p.iso8601Block.toList.map Access.release
      | _ => []) ++ [Access.release p.block]

/-- `free_data_points_in_data_stream` -/
def freeDataPointsAccesses (s : CcfsmStream) : List Access :=
  .touch s.block :: s.point.flatMap (freeDataPointAccesses s)

/-- `free_ccapi_data_stream`: each pointer is read from its record right before its release -/
def freeCcapiDataStreamAccesses (s : DataStream) : List Access :=
  [Access.touch s.block, .touch s.block, .release s.argumentsBlock] ++
    [Access.touch s.block, .touch s.ccfsm.block, .release s.ccfsm.streamIdBlock] ++
    Access.touch s.block :: Access.touch s.ccfsm.block :: s.ccfsm.unitBlock.toList.map Access.release ++
    Access.touch s.block :: Access.touch s.ccfsm.block :: s.ccfsm.forwardToBlock.toList.map Access.release ++
    [Access.touch s.block, .release s.ccfsm.block, .release s.block]

/-- the body of the `if` of the loop; previous is the node before, if there is one -/
def takeOutAccesses (previous : Option ℕ) (s : DataStream) : List Access :=
  (match previous with
    | none => []
    | some q => [.touch s.block, .touch q]) ++
    .touch s.block :: freeDataPointsAccesses s.ccfsm ++ freeCcapiDataStreamAccesses s

/-- the loop of `ccapi_dp_remove_data_stream_from_collection`: the id is compared, the stream is taken out if it is the
one, and the link of the current node is read -/
def removeAccesses (id : Str) (previous : Option ℕ) : List DataStream → List Access
  | [] => []
  | s :: l =>
    [.touch s.block, .touch s.ccfsm.block, .touch s.ccfsm.streamIdBlock] ++
      (if s.ccfsm.streamId = id then takeOutAccesses previous s else []) ++
      .touch s.block :: removeAccesses id (some s.block) l

/-- the accesses of `ccapi_dp_remove_data_stream_from_collection` to the streams and what hangs on them -/
def removalAccesses (id : Option Str) (acquire : Bool) (c : Collection) : List Access :=
  if !validStreamId id then []
  else if c.list = [] then []
  else if !acquire then []
  else removeAccesses (id.getD []) none c.list

theorem given_freeDataPoint (s : CcfsmStream) (p : Point) :
    given (freeDataPointAccesses s p) = freeDataPoint p s.type := by
  unfold freeDataPointAccesses freeDataPoint
  split_ifs <;> cases p.value.time <;> simp

theorem given_freeDataPoints (s : CcfsmStream) : given (freeDataPointsAccesses s) = freeDataPointsInDataStream s := by
  have hpoints : ∀ l : List Point,
      given (l.flatMap (freeDataPointAccesses s)) = l.flatMap fun p => freeDataPoint p s.type := by
    intro l
    induction l with
    | nil => rfl
    | cons p l ih => simp [given_freeDataPoint, ih]
  exact hpoints s.point

theorem given_takeOut (previous : Option ℕ) (s : DataStream) :
    given (takeOutAccesses previous s) = freeCcapiDataStream s := by
  have hprevious : given (match previous with
      | none => []
      | some q => [.touch s.block, .touch q]) = [] := by cases previous <;> rfl
  simp [takeOutAccesses, hprevious, given_freeDataPoints, freeCcapiDataStreamAccesses, freeCcapiDataStream,
    freeCcfsmStream]

theorem removeLoop_gone (id : Str) (previous : Bool) (l : List DataStream) :
    (removeLoop id previous l).2 = l.filter fun s => s.ccfsm.streamId = id := by
  induction l generalizing previous with
  | nil => rfl
  | cons s l ih =>
    by_cases h : s.ccfsm.streamId = id
    · simp [removeLoop, h, ih]
    · simp [removeLoop, h, ih]

/-! ## What the call should do -/

/-- the collection c' is c without the stream s, and every block of s has been given back once -/
structure TakenOut (s : DataStream) (c c' : Collection) : Prop where
  others : c'.list = c.list.filter fun t => t.ccfsm.streamId ≠ s.ccfsm.streamId
  count : c'.dpCount = u32Sub c.dpCount s.ccfsm.point.length
  given : ∀ b ∈ s.blocks, c'.ledger.releases.count b = 1

/-- the call with this id on c: a stream with the id is taken out and nothing else, without an access to what was
released; without one nothing changes, and the error says so -/
structure Removes (id : Str) (c : Collection) : Prop where
  present : ∀ s ∈ c.list, s.ccfsm.streamId = id → ∀ release, ∃ c',
    removeDataStreamFromCollection (some id) true release c = answer (finish release .none) c' ∧ TakenOut s c c' ∧
      Clean c.ledger.releases (removalAccesses (some id) true c)
  absent : id ∉ streamIds c.list → ∀ acquire release, ∃ e,
    removeDataStreamFromCollection (some id) acquire release c = answer e c ∧
      (acquire → release → e = .invalidStreamId) ∧
      Clean c.ledger.releases (removalAccesses (some id) acquire c)

/-! ## Collections that were not cleared -/

/-- what a collection is while nothing has been cleared -/
structure WellFormed (c : Collection) : Prop where
  holds : Holds c
  ids : (streamIds c.list).Nodup
  unreleased : ∀ s ∈ c.list, s.released = false
  small : c.dpCount < 2 ^ 32

theorem WellFormed.firstReleased {c : Collection} (h : WellFormed c) : firstReleased c.list = none := by
  simp only [Datapoints.firstReleased, Option.map_eq_none_iff, List.find?_eq_none]
  intro s hs
  simp [h.unreleased s hs]

/-- the blocks of a stream are live, each held once -/
theorem WellFormed.owns {c : Collection} (h : WellFormed c) {s : DataStream} (hs : s ∈ c.list) :
    c.ledger.Owns s.blocks := h.holds.keep _ fun x => by
  have := (List.sublist_flatten_of_mem (List.mem_map_of_mem (f := DataStream.blocks) hs)).count_le x
  simp only [Collection.blocks, List.count_cons, ← List.flatMap_def] at this ⊢
  omega

theorem u32Sub_lt (a b : ℕ) : u32Sub a b < 2 ^ 32 := Nat.mod_lt _ (by norm_num)

/-- what the loop leaves in the list is a part of it, in order -/
theorem removeLoop_sublist (id : Str) (previous : Bool) (l : List DataStream) :
    (removeLoop id previous l).1.Sublist l := by
  induction l generalizing previous with
  | nil => simp [removeLoop]
  | cons s l ih =>
    simp only [removeLoop]
    split_ifs
    · exact (ih true).cons s
    · exact List.nil_sublist _
    · exact (ih true).cons_cons s

theorem older_small (l : List DataStream) {n : ℕ} (hn : n < 2 ^ 32) :
    l.foldl (fun n s => if s.ccfsm.point = [] then n else u32Sub n 1) n < 2 ^ 32 := by
  induction l generalizing n with
  | nil => exact hn
  | cons s l ih =>
    simp only [List.foldl_cons]
    split_ifs
    · exact ih hn
    · exact ih (u32Sub_lt n 1)

/-- every operation but a clear keeps a collection well formed -/
theorem wellFormed_step (c : Collection) (o : Op) (h : WellFormed c) (ho : o.clears = false) :
    WellFormed (step c o) := by
  have hholds := step_holds c o h.holds ho
  cases step_change c o with
  | kept hl hn hd hx =>
    exact ⟨hholds, by rw [hl]; exact h.ids, by rw [hl]; exact h.unreleased, by rw [hd]; exact h.small⟩
  | stream s hid hp hr hl hn hd hx =>
    refine ⟨hholds, ?_, ?_, by rw [hd]; exact h.small⟩
    · rw [hl]
      exact List.nodup_cons.2 ⟨find_none hid, h.ids⟩
    · intro t ht
      rw [hl, List.mem_cons] at ht
      rcases ht with rfl | ht
      · exact hr
      · exact h.unreleased t ht
  | @removed id release _ hv hf hl hn hd hx =>
    have hsub := removeLoop_sublist id false c.list
    rw [← hl] at hsub
    refine ⟨hholds, h.ids.sublist (hsub.map _), fun s hs => h.unreleased s (hsub.mem hs), ?_⟩
    rw [hd]
    exact u32Sub_lt _ _
  | point s p hs hl hn hd hx =>
    refine ⟨hholds, ?_, ?_, by rw [hd]; exact u32_lt _⟩
    · rw [hl, streamIds_modifyStream]
      exact h.ids
    · rw [hl]
      exact unreleased_modifyStream h.unreleased
  | older hl hn hd hx =>
    refine ⟨hholds, ?_, ?_, by rw [hd]; exact older_small c.list h.small⟩
    · rw [hl, streamIds_setPoint]
      exact h.ids
    · rw [hl]
      exact unreleased_setPoint h.unreleased
  | chained hl hn hd hx =>
    exact ⟨hholds, by rw [hl]; exact h.ids, by rw [hl]; exact h.unreleased, by rw [hd]; exact h.small⟩
  | sent hl hn hd hx =>
    refine ⟨hholds, ?_, ?_, by rw [hd]; norm_num⟩
    · rw [hl, streamIds_setPoint]
      exact h.ids
    · rw [hl]
      exact unreleased_setPoint h.unreleased
  | cleared hc hl hn hd => rcases hc with ⟨q, r, rfl⟩ | ⟨q, r, k, rfl⟩ <;> cases ho

theorem wellFormed_new (next : ℕ → Option ℕ) : WellFormed (newCollection next) :=
  ⟨holds_new next, List.nodup_nil, by simp [newCollection], by simp [newCollection]⟩

/-- **Well-formedness.** A collection is well formed behind any operations but clears and destroys, whatever fails in
them. -/
theorem wellFormed_run (next : ℕ → Option ℕ) (ops : List Op) (hops : ∀ o ∈ ops, o.clears = false) :
    WellFormed (Runs.run step (newCollection next) ops) :=
  Runs.run_inv_mem wellFormed_step (wellFormed_new next) hops

/-! ## What a removal does -/

theorem ids_cons {t : DataStream} {l : List DataStream} (hn : (streamIds (t :: l)).Nodup) :
    (∀ u ∈ l, u.ccfsm.streamId ≠ t.ccfsm.streamId) ∧ (streamIds l).Nodup := by
  simp only [streamIds, List.map_cons, List.nodup_cons, List.mem_map, not_exists, not_and] at hn
  exact hn

/-- the loop releases the one stream of an id -/
theorem filter_id {l : List DataStream} {s : DataStream} (hn : (streamIds l).Nodup) (hs : s ∈ l) :
    (l.filter fun t => t.ccfsm.streamId = s.ccfsm.streamId) = [s] := by
  induction l with
  | nil => cases hs
  | cons t l ih =>
    obtain ⟨ht, hn⟩ := ids_cons hn
    rcases List.mem_cons.1 hs with rfl | hs
    · have hl : (l.filter fun u => u.ccfsm.streamId = s.ccfsm.streamId) = [] := by
        rw [List.filter_eq_nil_iff]
        intro u hu hid
        exact ht u hu (of_decide_eq_true hid)
      simp [hl]
    · have hts : t.ccfsm.streamId ≠ s.ccfsm.streamId := (ht s hs).symm
      simp [hts, ih hn hs]

theorem eq_of_id {l : List DataStream} {s t : DataStream} (hn : (streamIds l).Nodup) (hs : s ∈ l) (ht : t ∈ l)
    (hid : t.ccfsm.streamId = s.ccfsm.streamId) : t = s := by
  have hmem : t ∈ l.filter fun u => u.ccfsm.streamId = s.ccfsm.streamId := List.mem_filter.2 ⟨ht, by simpa using hid⟩
  rw [filter_id hn hs] at hmem
  exact List.mem_singleton.1 hmem

/-- with another head the loop keeps and releases what it would behind a stream that stays -/
theorem removeLoop_other_head {id : Str} {l : List DataStream} (h : l.head?.map (·.ccfsm.streamId) ≠ some id) :
    removeLoop id false l = removeLoop id true l := by
  cases l with
  | nil => rfl
  | cons s l =>
    have hs : s.ccfsm.streamId ≠ id := by simpa using h
    simp [removeLoop, hs]

/-- the collection the call leaves behind when s is in it -/
def behindRemoval (s : DataStream) (c : Collection) : Collection :=
  { c with
    list := (removeLoop s.ccfsm.streamId false c.list).1
    dpCount := u32Sub c.dpCount s.ccfsm.point.length
    ledger := c.ledger.releaseAll (freeCcapiDataStream s) }

theorem removeStream_of_mem {c : Collection} {s : DataStream} (h : WellFormed c) (hs : s ∈ c.list)
    (hv : validStreamId (some s.ccfsm.streamId)) (release : Bool) :
    removeDataStreamFromCollection (some s.ccfsm.streamId) true release c =
      answer (finish release .none) (behindRemoval s c) := by
  have hne : c.list ≠ [] := List.ne_nil_of_mem hs
  have hgone : (removeLoop s.ccfsm.streamId false c.list).2 = [s] := by
    rw [removeLoop_gone, filter_id h.ids hs]
  simp [removeDataStreamFromCollection, hv, hne, overList, h.firstReleased, hgone, behindRemoval]

theorem removeLoop_absent {id : Str} {l : List DataStream} (previous : Bool) (h : id ∉ streamIds l) :
    removeLoop id previous l = (l, []) := by
  induction l generalizing previous with
  | nil => rfl
  | cons s l ih =>
    simp only [streamIds, List.map_cons, List.mem_cons, not_or] at h
    have hid : s.ccfsm.streamId ≠ id := fun he => h.1 he.symm
    simp [removeLoop, hid, ih true h.2]

/-- without a stream of the id nothing changes -/
theorem removeStream_of_not_mem {c : Collection} {id : Str} (h : WellFormed c) (hid : id ∉ streamIds c.list)
    (hv : validStreamId (some id)) (acquire release : Bool) : ∃ e,
      removeDataStreamFromCollection (some id) acquire release c = answer e c ∧
        (acquire → release → e = .invalidStreamId) := by
  by_cases hne : c.list = []
  · exact ⟨.invalidStreamId, by simp [removeDataStreamFromCollection, hv, hne], fun _ _ => rfl⟩
  cases acquire with
  | false => exact ⟨.lockFailed, by simp [removeDataStreamFromCollection, hv, hne], fun h => by cases h⟩
  | true =>
    refine ⟨finish release .invalidStreamId, ?_, fun _ hr => by simp [finish, hr]⟩
    have hcount : u32Sub c.dpCount 0 = c.dpCount := by
      have := h.small
      simp only [u32Sub]
      omega
    simp [removeDataStreamFromCollection, hv, hne, overList, h.firstReleased, removeLoop_absent false hid, hcount]

/-! ## Each part of the removal by itself -/

/-- **The other streams.** They stay, in order and with their points, exactly when the stream was not the first one, or
the only one. -/
theorem others_stay_iff {c : Collection} {s : DataStream} (h : WellFormed c) (hs : s ∈ c.list) :
    (behindRemoval s c).list = c.list.filter (fun t => t.ccfsm.streamId ≠ s.ccfsm.streamId) ↔
      c.list.head? ≠ some s ∨ c.list = [s] := by
  rcases hl : c.list with _ | ⟨t, l⟩
  · simp [hl] at hs
  by_cases hid : t.ccfsm.streamId = s.ccfsm.streamId
  · have hts : t = s := eq_of_id h.ids hs (by simp [hl]) hid
    subst hts
    have hn := h.ids
    rw [hl] at hn
    have hrest : (l.filter fun u => u.ccfsm.streamId ≠ t.ccfsm.streamId) = l := by
      rw [List.filter_eq_self]
      intro u hu
      simpa using (ids_cons hn).1 u hu
    simp only [behindRemoval, hl, removeLoop]
    simp only [if_true, Bool.false_eq_true, if_false, List.filter_cons, ne_eq, not_true_eq_false, decide_false, hrest]
    simp [eq_comm]
  · have hne : t ≠ s := fun he => hid (by rw [he])
    have hhead : (t :: l).head?.map (·.ccfsm.streamId) ≠ some s.ccfsm.streamId := by simpa using hid
    simp only [behindRemoval, hl, removeLoop_other_head hhead, removeLoop_true, List.head?_cons, ne_eq,
      Option.some.injEq, hne, not_false_eq_true, true_or]

/-- what stays and what goes make up the list -/
theorem totalPoints_removeLoop (id : Str) (l : List DataStream) :
    totalPoints (removeLoop id true l).1 + ((removeLoop id true l).2.map fun s => s.ccfsm.point.length).sum =
      totalPoints l := by
  induction l with
  | nil => rfl
  | cons s l ih =>
    by_cases h : s.ccfsm.streamId = id
    · simp only [removeLoop, h, if_true, totalPoints, List.map_cons, List.sum_cons] at ih ⊢
      omega
    · simp only [removeLoop, h, if_false, totalPoints, List.map_cons, List.sum_cons] at ih ⊢
      omega

/-- **The count.** It drops by the points of the stream, and where the stream was not the first one it is still the
number of the points in all streams. -/
theorem count_drops {c : Collection} {s : DataStream} (h : Counted c) (hs : s ∈ c.list)
    (hsmall : totalPoints c.list < 2 ^ 32) :
    (behindRemoval s c).dpCount + s.ccfsm.point.length = c.dpCount ∧
      (c.list.head?.map (·.ccfsm.streamId) ≠ some s.ccfsm.streamId →
        (behindRemoval s c).dpCount = totalPoints (behindRemoval s c).list) := by
  have hle : s.ccfsm.point.length ≤ totalPoints c.list :=
    List.single_le_sum (by simp) _ (List.mem_map_of_mem hs)
  have hcount : c.dpCount = totalPoints c.list := by rw [h.count, u32_eq hsmall]
  have hdrop : (behindRemoval s c).dpCount + s.ccfsm.point.length = c.dpCount := by
    simp only [behindRemoval, u32Sub, hcount]
    omega
  refine ⟨hdrop, fun hhead => ?_⟩
  have htotal := totalPoints_removeLoop s.ccfsm.streamId c.list
  rw [removeLoop_gone, filter_id h.ids hs] at htotal
  simp only [behindRemoval, removeLoop_other_head hhead, List.map_cons, List.map_nil, List.sum_cons, List.sum_nil] at *
  omega

/-- the head of several streams takes the others with it -/
theorem head_not_removed {c : Collection} {s t : DataStream} {l : List DataStream} (h : WellFormed c)
    (hl : c.list = s :: t :: l) (hv : validStreamId (some s.ccfsm.streamId)) : ¬ Removes s.ccfsm.streamId c := by
  intro hr
  have hs : s ∈ c.list := by simp [hl]
  obtain ⟨c', hcall, htaken, -⟩ := hr.present s hs rfl true
  rw [removeStream_of_mem h hs hv] at hcall
  obtain ⟨rfl, -⟩ := answer_ok hcall.symm
  rcases (others_stay_iff h hs).1 htaken.others with hhead | honly
  · simp [hl] at hhead
  · simp [hl] at honly

/-- a point whose strings `free_data_point` both releases -/
def Reclaimed (type : Option PointType) (p : Point) : Prop :=
  (p.stringBlock ≠ none → type = some .string) ∧ (p.iso8601Block ≠ none → ∃ t, p.value.time = .iso8601 t)

theorem length_freeDataPoint_le (p : Point) (type : Option PointType) :
    (freeDataPoint p type).length ≤ p.blocks.length := by
  unfold freeDataPoint Point.blocks
  split_ifs <;> cases p.value.time <;> simp only [List.length_append, List.length_nil] <;> omega

/-- a point is given back whole exactly when both its strings are -/
theorem length_freeDataPoint_iff (p : Point) (type : Option PointType) :
    (freeDataPoint p type).length = p.blocks.length ↔ Reclaimed type p := by
  unfold freeDataPoint Point.blocks Reclaimed
  split_ifs with ht <;> cases p.value.time <;> cases p.stringBlock <;> cases p.iso8601Block <;> simp [ht]

theorem length_freeDataPoints_iff (s : CcfsmStream) :
    (freeDataPointsInDataStream s).length = (s.point.flatMap Point.blocks).length ↔
      ∀ p ∈ s.point, Reclaimed s.type p := by
  unfold freeDataPointsInDataStream
  induction s.point with
  | nil => simp
  | cons p l ih =>
    have hp := length_freeDataPoint_le p s.type
    have hl : (l.flatMap fun p => freeDataPoint p s.type).length ≤ (l.flatMap Point.blocks).length := by
      simp only [List.length_flatMap]
      exact List.sum_le_sum fun q _ => length_freeDataPoint_le q s.type
    rw [List.forall_mem_cons, ← ih, ← length_freeDataPoint_iff]
    simp only [List.flatMap_cons, List.length_append]
    omega

/-- **The blocks.** Every block of the stream has been given back, once, exactly when no point has a string that
`free_data_point` passes over. -/
theorem given_back_iff {c : Collection} {s : DataStream} (h : WellFormed c) (hs : s ∈ c.list) :
    (∀ b ∈ s.blocks, (behindRemoval s c).ledger.releases.count b = 1) ↔
      ∀ p ∈ s.ccfsm.point, Reclaimed s.ccfsm.type p := by
  have hown := h.owns hs
  have hle := count_freeCcapiDataStream_le s
  have hone := List.nodup_iff_count_le_one.1 hown.nodup
  -- a live block has not been given back before, and the call gives it back at most once
  have hcount : ∀ b ∈ s.blocks, (behindRemoval s c).ledger.releases.count b = 1 ↔ b ∈ freeCcapiDataStream s := by
    intro b hb
    have hold : c.ledger.releases.count b = 0 := List.count_eq_zero.2 (hown.live b hb).2
    have := hle b
    have := hone b
    rw [← List.count_pos_iff]
    simp only [behindRemoval, releaseAll_releases, List.count_append, hold]
    omega
  have hlength : (freeCcapiDataStream s).length = s.blocks.length ↔
      (freeDataPointsInDataStream s.ccfsm).length = (s.ccfsm.point.flatMap Point.blocks).length := by
    simp only [freeCcapiDataStream, DataStream.blocks, DataStream.ownBlocks, List.length_append]
    omega
  rw [← length_freeDataPoints_iff, ← hlength]
  constructor
  · intro hall
    have hsub : s.blocks ⊆ freeCcapiDataStream s := fun b hb => (hcount b hb).1 (hall b hb)
    have hback := (List.subperm_ext_iff.2 fun b _ => hle b).length_le
    exact le_antisymm hback (List.subperm_of_subset hown.nodup hsub).length_le
  · intro hlen b hb
    have hperm := (List.subperm_ext_iff.2 fun b _ => hle b).perm_of_length_le hlen.ge
    exact (hcount b hb).2 (hperm.mem_iff.2 hb)

/-- **The released node.** The accesses of a removal are never clean: the link to the next stream is read from the record
that has just been released. -/
theorem taken_out_unclean {id : Str} {l : List DataStream} (gone : List ℕ) (previous : Option ℕ)
    (hid : id ∈ streamIds l) : ¬ Clean gone (removeAccesses id previous l) := by
  induction l generalizing gone previous with
  | nil => simp [streamIds] at hid
  | cons s l ih =>
    by_cases hs : s.ccfsm.streamId = id
    · simp only [removeAccesses, hs, if_true]
      refine not_clean_of_given ?_
      simp [given_takeOut, freeCcapiDataStream]
    · have hl : id ∈ streamIds l := by
        simpa [streamIds, Ne.symm hs] using hid
      intro h
      simp only [removeAccesses, hs, if_false] at h
      rw [clean_append] at h
      exact ih _ _ hl h.2.2

/-- a search that finds nothing touches what the list holds and releases nothing -/
theorem absent_clean {id : Str} {l : List DataStream} {gone : List ℕ} (previous : Option ℕ)
    (hid : id ∉ streamIds l) (hlive : ∀ b ∈ l.flatMap DataStream.blocks, b ∉ gone) :
    Clean gone (removeAccesses id previous l) := by
  induction l generalizing previous with
  | nil => trivial
  | cons s l ih =>
    simp only [streamIds, List.map_cons, List.mem_cons, not_or] at hid
    rw [List.flatMap_cons, List.forall_mem_append] at hlive
    have hs : s.ccfsm.streamId ≠ id := fun he => hid.1 he.symm
    have hblock : s.block ∉ gone := hlive.1 _ (by simp [DataStream.blocks, DataStream.ownBlocks])
    have hccfsm : s.ccfsm.block ∉ gone :=
      hlive.1 _ (by simp [DataStream.blocks, DataStream.ownBlocks, freeCcfsmStream])
    have hstring : s.ccfsm.streamIdBlock ∉ gone :=
      hlive.1 _ (by simp [DataStream.blocks, DataStream.ownBlocks, freeCcfsmStream])
    simp only [removeAccesses, hs, if_false]
    exact ⟨hblock, hccfsm, hstring, hblock, ih _ hid.2 hlive.2⟩

/-! ## When the call does what it should -/

/-- **Taking a stream out.** On a well-formed collection and for a valid id the call does all it should exactly when no
stream has the id. -/
theorem removes_iff {c : Collection} {id : Str} (h : WellFormed c) (hv : validStreamId (some id)) :
    Removes id c ↔ id ∉ streamIds c.list := by
  constructor
  · intro hr hid
    obtain ⟨s, hs, hsid⟩ := List.mem_map.1 hid
    obtain ⟨-, -, -, hclean⟩ := hr.present s hs hsid true
    have hne : c.list ≠ [] := List.ne_nil_of_mem hs
    simp only [removalAccesses, hv, hne, Bool.not_true, Bool.false_eq_true, if_false] at hclean
    exact taken_out_unclean _ _ hid hclean
  · intro hid
    constructor
    case present =>
      intro s hs hsid
      exact absurd (by rw [← hsid]; exact List.mem_map_of_mem hs) hid
    case absent =>
      intro _ acquire release
      obtain ⟨e, he, hcode⟩ := removeStream_of_not_mem h hid hv acquire release
      refine ⟨e, he, hcode, ?_⟩
      unfold removalAccesses
      split_ifs
      · trivial
      · trivial
      · trivial
      · refine absent_clean none hid fun b hb => (h.holds.live b ?_).2
        exact List.mem_cons_of_mem _ hb

/-- two streams, the second one at the head -/
def twoOps : List Op := [.plainStream (ascii "t") (ascii "int32"), .plainStream (ascii "h") (ascii "int32")]

def twoStreams : Collection := Runs.run step (newCollection fun _ => none) twoOps

theorem twoStreams_wellFormed : WellFormed twoStreams := wellFormed_run _ _ (by decide +kernel)

theorem removes_unknown : ascii "x" ∉ streamIds twoStreams.list ∧ Removes (ascii "x") twoStreams :=
  ⟨by decide +kernel, (removes_iff twoStreams_wellFormed (by decide +kernel)).2 (by decide +kernel)⟩

/-- the head goes, and the other stream with it -/
theorem head_empties :
    streamIds twoStreams.list = [ascii "h", ascii "t"] ∧
      streamIds (step twoStreams (.removeStream (some (ascii "h")) true true)).list = [] ∧
      ¬ Removes (ascii "h") twoStreams := by
  refine ⟨by decide +kernel, by decide +kernel, ?_⟩
  obtain ⟨s, t, hl⟩ : ∃ s t, twoStreams.list = [s, t] := List.length_eq_two.1 (by decide +kernel)
  have hids : streamIds twoStreams.list = [ascii "h", ascii "t"] := by decide +kernel
  have hs : s.ccfsm.streamId = ascii "h" := by
    rw [hl] at hids
    exact (List.cons.inj hids).1
  rw [← hs]
  refine head_not_removed twoStreams_wellFormed hl ?_
  rw [hs]
  decide +kernel

end CcApi.Datapoints
