/-
The chain of connector records a send hands over.

`chain_collection_ccfsm_data_streams` writes the link of every stream but the last; the last one's link is what an earlier
operation left there. `ExactChain` says that the chain a send would hand over is the list; it does exactly when the last
link is null (`exactChain_iff`). Taking the last stream out while the stream before it has a link, to this stream or to one an
earlier send knew, leaves that link at the end of the list (`cutsChain`), and nothing else spoils the chain: in every run the
chain is exact throughout if and only if no step cuts it (`chain_exact_iff`).
-/
import CcApi.Datapoints.Count

namespace CcApi.Datapoints

open Lib

/-- a send now would hand over exactly the streams of the list, each once, in order, none of them released -/
structure ExactChain (c : Collection) : Prop where
  chain : Chain.Segment (chainCollectionCcfsmDataStreams c).next (ccfsmBlocks c.list).head? (ccfsmBlocks c.list)
  once : (ccfsmBlocks c.list).Nodup
  live : ∀ b ∈ ccfsmBlocks c.list, c.ledger.Live b
  unreleased : ∀ s ∈ c.list, s.released = false

/-- a stream other than the head is taken out, or no stream -/
def Op.inScope (c : Collection) : Op → Bool
  | .removeStream id _ _ => c.list.isEmpty || c.list.head?.map (·.ccfsm.streamId) ≠ id
  | .clear .. | .destroy .. => false
  | _ => true

/-- the last stream is taken out while the one before it has a link, to it or to one that an earlier removal has taken out -/
def cutsChain (c : Collection) : Op → Bool
  | .removeStream (some id) true _ =>
    match c.list.reverse with
    | s :: p :: _ => validStreamId (some id) && s.ccfsm.streamId = id && (c.next p.ccfsm.block).isSome
    | _ => false
  | _ => false

/-! ## The last link decides -/

/-- what is kept between the operations of a run -/
structure Chained (c : Collection) : Prop where
  holds : Holds c
  ids : (streamIds c.list).Nodup
  unreleased : ∀ s ∈ c.list, s.released = false
  destroyed : c.destroyed = false
  last : ∀ b ∈ (ccfsmBlocks c.list).getLast?, c.next b = none

theorem count_ccfsmBlocks_le (l : List DataStream) (x : ℕ) :
    (ccfsmBlocks l).count x ≤ (l.flatMap DataStream.blocks).count x := by
  induction l with
  | nil => simp [ccfsmBlocks]
  | cons s l ih =>
    simp only [ccfsmBlocks, List.map_cons, List.flatMap_cons, DataStream.blocks, DataStream.ownBlocks, freeCcfsmStream,
      List.count_append, List.count_cons, List.count_nil] at ih ⊢
    omega

theorem Holds.ccfsmBlocks {c : Collection} (h : Holds c) : c.ledger.Owns (ccfsmBlocks c.list) :=
  h.keep _ fun x => by
    have := count_ccfsmBlocks_le c.list x
    simp only [Collection.blocks, List.count_cons]
    omega

/-- the chain is exact if and only if the last link is null -/
theorem exactChain_iff {c : Collection} (h : Holds c) (hr : ∀ s ∈ c.list, s.released = false) :
    ExactChain c ↔ ∀ b ∈ (ccfsmBlocks c.list).getLast?, c.next b = none := by
  have hb := h.ccfsmBlocks
  constructor
  · intro hc
    exact (Chain.segment_relink_iff hb.nodup c.next).1 hc.chain
  · intro hl
    exact ⟨(Chain.segment_relink_iff hb.nodup c.next).2 hl, hb.nodup, hb.live, hr⟩

/-- what the connector then reads: every stream once, in order, and nothing else -/
theorem handed_exact {c : Collection} (h : ExactChain c) :
    handed (chainCollectionCcfsmDataStreams c) = c.list.map fun s => some s.ccfsm.view := by
  have hwalk : Chain.walk (chainCollectionCcfsmDataStreams c).next (c.list.length + 1) (ccfsmBlocks c.list).head? =
      ccfsmBlocks c.list := Chain.walk_segment h.chain (by simp [ccfsmBlocks])
  have hat : ∀ (l : List DataStream), (ccfsmBlocks l).Nodup →
      (ccfsmBlocks l).map (streamAt l) = l.map fun s => some s.ccfsm.view := by
    intro l hl
    simp only [ccfsmBlocks, List.map_map]
    refine List.map_congr_left fun s hs => ?_
    have hfind : l.find? (fun t => t.ccfsm.block = s.ccfsm.block) = some s := by
      rw [List.find?_eq_some_iff_append]
      obtain ⟨a, b, rfl⟩ := List.append_of_mem hs
      refine ⟨by simp, a, b, rfl, fun t ht => ?_⟩
      simp only [ccfsmBlocks, List.map_append, List.map_cons, List.nodup_append] at hl
      simpa using hl.2.2 _ (List.mem_map_of_mem ht) _ List.mem_cons_self
    simp [streamAt, hfind]
  have := hat c.list h.once
  simp only [handed, chainCollectionCcfsmDataStreams] at hwalk ⊢
  rw [hwalk, this]

/-- what a send that reaches the connector hands over is read from the chained collection -/
theorem sendCollection_hands {e : SendEnv} {c c' : Collection} {ans : Answer} {view : List (Option StreamView)}
    (h : sendCollection e c = .ok (ans, c')) (hv : ans.handed = some view) :
    view = handed (chainCollectionCcfsmDataStreams c) := by
  obtain ⟨hnone, -⟩ | ⟨-, hsome, -⟩ := sendCollection_cases h
  · rw [hnone] at hv
    cases hv
  · exact Option.some.inj (hv.symm.trans hsome)

/-! ## Taking a stream out -/

theorem removeLoop_true (id : Str) (l : List DataStream) :
    (removeLoop id true l).1 = l.filter fun s => s.ccfsm.streamId ≠ id := by
  induction l with
  | nil => rfl
  | cons s l ih =>
    simp only [removeLoop]
    split_ifs with h
    · simp [h, ih]
    · simp [h, ih]

/-- behind a head that stays, the streams of the id are filtered out -/
theorem removeLoop_false {id : Str} {s : DataStream} (hs : s.ccfsm.streamId ≠ id) (l : List DataStream) :
    (removeLoop id false (s :: l)).1 = (s :: l).filter fun t => t.ccfsm.streamId ≠ id := by
  simp [removeLoop, hs, removeLoop_true]

/-- what is last behind a removal: the last stream, or the one before it when the last is taken out -/
theorem filter_last {id : Str} {l : List DataStream} {s : DataStream} (hn : (streamIds (l ++ [s])).Nodup) :
    ((l ++ [s]).filter fun t => t.ccfsm.streamId ≠ id).getLast? =
      if s.ccfsm.streamId = id then l.getLast? else some s := by
  split_ifs with h
  · have hl : l.filter (fun t => t.ccfsm.streamId ≠ id) = l := by
      rw [List.filter_eq_self]
      intro t ht
      simp only [streamIds, List.map_append, List.map_cons, List.map_nil, List.nodup_append] at hn
      have := hn.2.2 _ (List.mem_map_of_mem ht) _ (List.mem_singleton_self _)
      simpa [h] using this
    rw [List.filter_append, hl]
    simp [h]
  · simp [List.filter_append, h]

/-- the stream before the last, when the last has this id -/
theorem cutsChain_iff {c : Collection} {id : Str} {release : Bool} (l : List DataStream) (p s : DataStream)
    (hc : c.list = l ++ [p, s]) :
    cutsChain c (.removeStream (some id) true release) =
      (validStreamId (some id) && s.ccfsm.streamId = id && (c.next p.ccfsm.block).isSome) := by
  simp [cutsChain, hc]

/-- the list behind a removal that is in scope, and its last link -/
theorem removed_last {c c' : Collection} {id : Str} {release : Bool} (h : Chained c)
    (hs : Op.inScope c (.removeStream (some id) true release)) (hv : validStreamId (some id))
    (hl : c'.list = (removeLoop id false c.list).1) (hn : c'.next = c.next) :
    (∀ s ∈ c'.list, s ∈ c.list) ∧ (streamIds c'.list).Nodup ∧
      ((∀ b ∈ (ccfsmBlocks c'.list).getLast?, c'.next b = none) ↔
        cutsChain c (.removeStream (some id) true release) = false) := by
  rcases List.eq_nil_or_concat c.list with hnil | ⟨l, s, hls⟩
  · rw [hnil] at hl
    simp only [removeLoop] at hl
    simp [hl, streamIds, ccfsmBlocks, cutsChain, hnil]
  · rw [List.concat_eq_append] at hls
    have hkept : c'.list = c.list.filter fun t => t.ccfsm.streamId ≠ id := by
      rw [hl]
      cases hc : c.list with
      | nil => simp [hc] at hls
      | cons a l' =>
        refine removeLoop_false (fun ha => ?_) l'
        simp [Op.inScope, hc, ha] at hs
    have hids := h.ids
    rw [hls] at hids
    have hlast := @filter_last id _ _ hids
    rw [← hls, ← hkept] at hlast
    refine ⟨fun t ht => ?_, ?_, ?_⟩
    · rw [hkept] at ht
      exact List.mem_of_mem_filter ht
    · rw [hkept]
      exact h.ids.sublist (List.filter_sublist.map _)
    · rw [ccfsmBlocks, List.getLast?_map, hlast, hn]
      have hnull : c.next s.ccfsm.block = none := h.last _ (by simp [ccfsmBlocks, hls])
      rcases List.eq_nil_or_concat l with rfl | ⟨l, p, rfl⟩
      · have hne : s.ccfsm.streamId ≠ id := by
          intro he
          simp [Op.inScope, hls, he] at hs
        simp [hne, hnull, cutsChain, hls]
      · rw [List.concat_eq_append] at hls ⊢
        rw [cutsChain_iff l p s (by simp [hls])]
        by_cases he : s.ccfsm.streamId = id
        · simp [he, hv]
        · simp [he, hnull]

/-! ## One step -/

theorem ccfsmBlocks_setPoint (f : DataStream → List Point) (l : List DataStream) :
    ccfsmBlocks (l.map fun s => s.setPoint (f s)) = ccfsmBlocks l := by
  simp [ccfsmBlocks, DataStream.setPoint, Function.comp_def]

theorem ccfsmBlocks_modifyStream (id : Str) (f : DataStream → List Point) (l : List DataStream) :
    ccfsmBlocks (modifyStream id (fun s => s.setPoint (f s)) l) = ccfsmBlocks l := by
  induction l with
  | nil => rfl
  | cons s l ih =>
    simp only [modifyStream]
    split_ifs
    · rfl
    · simp only [ccfsmBlocks, List.map_cons, List.cons.injEq, true_and] at ih ⊢
      exact ih

theorem unreleased_setPoint {f : DataStream → List Point} {l : List DataStream} (h : ∀ s ∈ l, s.released = false) :
    ∀ s ∈ l.map fun s => s.setPoint (f s), s.released = false := by
  intro s hs
  obtain ⟨t, ht, rfl⟩ := List.mem_map.1 hs
  exact h t ht

theorem unreleased_modifyStream {id : Str} {f : DataStream → List Point} {l : List DataStream}
    (h : ∀ s ∈ l, s.released = false) : ∀ s ∈ modifyStream id (fun s => s.setPoint (f s)) l, s.released = false := by
  induction l with
  | nil => simp [modifyStream]
  | cons s l ih =>
    have hl := ih fun t ht => h t (List.mem_cons_of_mem s ht)
    have hs := h s List.mem_cons_self
    simp only [modifyStream]
    split_ifs
    · intro t ht
      rcases List.mem_cons.1 ht with rfl | ht
      · exact hs
      · exact h t (List.mem_cons_of_mem s ht)
    · intro t ht
      rcases List.mem_cons.1 ht with rfl | ht
      · exact hs
      · exact hl t ht

theorem clears_of_inScope {c : Collection} {o : Op} (h : Op.inScope c o) : o.clears = false := by
  cases o <;> first | rfl | cases h

/-- what an operation in scope keeps, and when the last link stays null -/
theorem step_chained {c : Collection} {o : Op} (h : Chained c) (ho : Op.inScope c o) :
    Holds (step c o) ∧ (streamIds (step c o).list).Nodup ∧ (∀ s ∈ (step c o).list, s.released = false) ∧
      (step c o).destroyed = false ∧
      (cutsChain c o = false → ∀ b ∈ (ccfsmBlocks (step c o).list).getLast?, (step c o).next b = none) := by
  have hholds := step_holds c o h.holds (clears_of_inScope ho)
  refine ⟨hholds, ?_⟩
  have hblocks := hholds.ccfsmBlocks.nodup
  cases step_change c o with
  | kept hl hn hd hx =>
    rw [hl, hn, hx]
    exact ⟨h.ids, h.unreleased, h.destroyed, fun _ => h.last⟩
  | stream s hid hp hr hl hn hd hx =>
    rw [hl] at hblocks
    rw [hl, hn, hx]
    refine ⟨List.nodup_cons.2 ⟨find_none hid, h.ids⟩, ?_, h.destroyed, fun _ b hb => ?_⟩
    · intro t ht
      rcases List.mem_cons.1 ht with rfl | ht
      · exact hr
      · exact h.unreleased t ht
    · by_cases hbs : b = s.ccfsm.block
      · rw [hbs, Function.update_self]
      · rw [Function.update_of_ne hbs]
        refine h.last b ?_
        cases hc : c.list with
        | nil =>
          rw [hc] at hb
          exact absurd (by simpa [ccfsmBlocks] using hb.symm) hbs
        | cons t l =>
          rw [hc] at hb
          simpa [ccfsmBlocks, List.getLast?_cons_cons] using hb
  | @removed id release _ hv hf hl hn hd hx =>
    obtain ⟨hmem, hids, hcut⟩ := removed_last h ho hv hl hn
    rw [hx]
    exact ⟨hids, fun s hs => h.unreleased s (hmem s hs), h.destroyed, hcut.2⟩
  | point s p hs hl hn hd hx =>
    rw [hl, hn, hx, streamIds_modifyStream, ccfsmBlocks_modifyStream]
    exact ⟨h.ids, unreleased_modifyStream h.unreleased, h.destroyed, fun _ => h.last⟩
  | older hl hn hd hx =>
    rw [hl, hn, hx, streamIds_setPoint, ccfsmBlocks_setPoint]
    exact ⟨h.ids, unreleased_setPoint h.unreleased, h.destroyed, fun _ => h.last⟩
  | chained hl hn hd hx =>
    rw [hl] at hblocks
    rw [hl, hn, hx]
    refine ⟨h.ids, h.unreleased, h.destroyed, fun _ b hb => ?_⟩
    rw [Chain.relink_getLast hblocks hb]
    exact h.last b hb
  | sent hl hn hd hx =>
    rw [hl, ccfsmBlocks_setPoint] at hblocks
    rw [hl, hn, hx, streamIds_setPoint, ccfsmBlocks_setPoint]
    refine ⟨h.ids, unreleased_setPoint h.unreleased, h.destroyed, fun _ b hb => ?_⟩
    rw [Chain.relink_getLast hblocks hb, Chain.relink_getLast hblocks hb]
    exact h.last b hb
  | cleared hc hl hn hd => rcases hc with ⟨q, r, rfl⟩ | ⟨q, r, k, rfl⟩ <;> cases ho

/-- a removal that cuts the chain takes effect: the last link is not null behind it -/
theorem cut_last {c : Collection} {o : Op} (h : Chained c) (ho : Op.inScope c o) (hcut : cutsChain c o = true) :
    ¬ ∀ b ∈ (ccfsmBlocks (step c o).list).getLast?, (step c o).next b = none := by
  cases o with
  | removeStream id acquire release =>
    cases id with
    | none => simp [cutsChain] at hcut
    | some id =>
      cases acquire with
      | false => simp [cutsChain] at hcut
      | true =>
        have hv : validStreamId (some id) = true := by
          simp only [cutsChain] at hcut
          split at hcut
          · simp only [Bool.and_eq_true] at hcut
            exact hcut.1.1
          · cases hcut
        have hne : c.list ≠ [] := by
          intro he
          simp [cutsChain, he] at hcut
        have hf : firstReleased c.list = none := by
          simp only [firstReleased, Option.map_eq_none_iff, List.find?_eq_none]
          intro s hs
          simp [h.unreleased s hs]
        have hstep : (step c (.removeStream (some id) true release)).list = (removeLoop id false c.list).1 ∧
            (step c (.removeStream (some id) true release)).next = c.next := by
          simp [step, operate, perform, h.destroyed, removeDataStreamFromCollection, hv, hne, overList, hf, answer]
        rw [(removed_last h ho hv hstep.1 hstep.2).2.2, hcut]
        exact Bool.noConfusion
  | _ => simp [cutsChain] at hcut

/-! ## Runs -/

theorem chained_new (next : ℕ → Option ℕ) : Chained (newCollection next) :=
  ⟨holds_new next, List.nodup_nil, by simp [newCollection], rfl, by simp [newCollection, ccfsmBlocks]⟩

/-- **When the chain is the list.** Along any operations from a new collection that never remove the head: a send would
hand over exactly the streams of the list after each of them, if and only if none of them takes the last stream out while
the stream before it has a link, whatever to. -/
theorem chain_exact_iff (next : ℕ → Option ℕ) (ops : List Op)
    (hscope : Runs.Along step (fun c o => Op.inScope c o) (newCollection next) ops) :
    (∀ k, ExactChain (Runs.run step (newCollection next) (ops.take k))) ↔
      Runs.Along step (fun c o => cutsChain c o = false) (newCollection next) ops := by
  refine Runs.along_iff_under (I := Chained) ?_ ?_ ?_ (chained_new next) hscope
  · exact fun c h => (exactChain_iff h.holds h.unreleased).2 h.last
  · intro c o h ho hcut
    obtain ⟨hholds, hids, hr, hx, hl⟩ := step_chained h ho
    exact ⟨hholds, hids, hr, hx, hl hcut⟩
  · intro c o h ho hP
    obtain ⟨hholds, -, hr, -, -⟩ := step_chained h ho
    by_contra hcut
    rw [Bool.not_eq_false] at hcut
    exact cut_last h ho hcut ((exactChain_iff hholds hr).1 hP)

/-- three streams, a send, and the middle one is taken out -/
def middleOps : List Op :=
  [.plainStream (ascii "t") (ascii "int32"), .plainStream (ascii "m") (ascii "int32"),
    .plainStream (ascii "h") (ascii "int32"), .plainPoint (ascii "m") 7, .send .good,
    .removeStream (some (ascii "m")) true true, .send .good]

theorem middle_exact :
    Runs.Along step (fun c o => Op.inScope c o) (newCollection fun _ => none) middleOps ∧
      ∀ k, ExactChain (Runs.run step (newCollection fun _ => none) (middleOps.take k)) :=
  ⟨by decide +kernel, (chain_exact_iff _ _ (by decide +kernel)).2 (by decide +kernel)⟩

/-- two streams, a send, and the last one is taken out -/
def cutOps : List Op :=
  [.plainStream (ascii "t") (ascii "int32"), .plainStream (ascii "h") (ascii "int32"), .send .good,
    .removeStream (some (ascii "t")) true true]

/-- the next send hands over the one stream left and, behind it, the record that was released -/
theorem released_in_chain :
    Runs.Along step (fun c o => Op.inScope c o) (newCollection fun _ => none) cutOps ∧
      handed (chainCollectionCcfsmDataStreams (Runs.run step (newCollection fun _ => none) cutOps)) =
        [some ⟨ascii "h", none, none, some .integer, []⟩, none] ∧
      ¬ ExactChain (Runs.run step (newCollection fun _ => none) cutOps) := by
  refine ⟨by decide +kernel, by decide +kernel, fun h => ?_⟩
  have := handed_exact h
  revert this
  decide +kernel

end CcApi.Datapoints
