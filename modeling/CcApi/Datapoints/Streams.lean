/-
The streams of a collection over its runs, and the type a stream gets with its format.

An operation brings in a new stream, gives a stream one new point, or takes streams and points out (`step_streams`). The
block, the keywords, the id and the type of a stream stay while it is in the list, so that what holds of a stream when it is
created and of a point when it is built holds in every collection that can be reached.

- `kept_run`: every stream has a valid id, a valid format with its type, and points that were built from its keywords.
- `type_sound_iff`: a stream goes by the type of its one data keyword exactly when its format has a data keyword.
-/
import CcApi.Datapoints.Points
import CcApi.Datapoints.Removal

namespace CcApi.Datapoints

open Lib

/-! ## Where a stream comes from -/

/-- the point was built from these keywords -/
def Built (args : List DpArgument) (p : Point) : Prop := ∃ v m l l', createDataPoint args v m l = (.ok p, l')

/-- the stream t is s with points taken out or one built from its keywords put in -/
structure Grown (s t : DataStream) : Prop where
  block : t.block = s.block
  arguments : t.arguments = s.arguments
  streamId : t.ccfsm.streamId = s.ccfsm.streamId
  type : t.ccfsm.type = s.ccfsm.type
  points : ∀ p ∈ t.ccfsm.point, p ∈ s.ccfsm.point ∨ Built s.arguments p

/-- a stream that an operation from c to c' has created -/
structure Born (c c' : Collection) (t : DataStream) : Prop where
  fresh : c.ledger.next ≤ t.block
  known : t.block < c'.ledger.next
  args : ValidArgs t.arguments
  streamId : validStreamId (some t.ccfsm.streamId) = true
  type : t.ccfsm.type = getDataStreamTypeFromArgList t.arguments
  points : t.ccfsm.point = []

theorem Grown.refl (s : DataStream) : Grown s s := ⟨rfl, rfl, rfl, rfl, fun _ hp => .inl hp⟩

theorem grown_setPoint {s : DataStream} {point : List Point} (h : point ⊆ s.ccfsm.point) : Grown s (s.setPoint point) :=
  ⟨rfl, rfl, rfl, rfl, fun _ hp => .inl (h hp)⟩

/-! ## What is allocated -/

theorem strdupIf_next_le {s : Option Str} {ok : Bool} {l l' : Ledger} {r : Option (Option ℕ)}
    (h : strdupIf s ok l = (r, l')) : l.next ≤ l'.next := by
  cases s with
  | none =>
    simp only [strdupIf, Prod.mk.injEq] at h
    rw [← h.2]
  | some t =>
    cases ok
    all_goals
      simp only [strdupIf, Ledger.acquire_false, Ledger.acquire_true, Prod.mk.injEq] at h
      simp [← h.2]

theorem createStream_next_le {id : Str} {units forwardTo : Option Str} {args : ℕ × List DpArgument} {m : StreamMemory}
    {l l' : Ledger} {r : Option DataStream} (h : createStream id units forwardTo args m l = (r, l')) :
    l.next ≤ l'.next ∧ ∀ s, r = some s → l.next ≤ s.block ∧ s.block < l'.next := by
  unfold createStream at h
  cases h1 : m.stream
  · simp only [h1, Ledger.acquire_false, Prod.mk.injEq] at h
    obtain ⟨rfl, rfl⟩ := h
    simp
  simp only [h1, Ledger.acquire_true] at h
  cases h2 : m.ccfsm
  · simp only [h2, Ledger.acquire_false, Prod.mk.injEq] at h
    obtain ⟨rfl, rfl⟩ := h
    simp
  simp only [h2, Ledger.acquire_true] at h
  cases h3 : m.streamId
  · simp only [h3, Ledger.acquire_false, Prod.mk.injEq] at h
    obtain ⟨rfl, rfl⟩ := h
    simp only [Ledger.releaseAll_next, reduceCtorEq, false_implies, implies_true, and_true]
    omega
  simp only [h3, Ledger.acquire_true] at h
  split at h
  · rename_i hu
    have := strdupIf_next_le hu
    simp only [Prod.mk.injEq] at h
    obtain ⟨rfl, rfl⟩ := h
    simp only [Ledger.releaseAll_next, reduceCtorEq, false_implies, implies_true, and_true] at this ⊢
    omega
  rename_i hu
  have hunit := strdupIf_next_le hu
  split at h
  · rename_i hf
    have := strdupIf_next_le hf
    simp only [Prod.mk.injEq] at h
    obtain ⟨rfl, rfl⟩ := h
    simp only [Ledger.releaseAll_next, reduceCtorEq, false_implies, implies_true, and_true] at hunit ⊢
    omega
  · rename_i hf
    have := strdupIf_next_le hf
    simp only [Prod.mk.injEq] at h
    obtain ⟨rfl, rfl⟩ := h
    simp only [Option.some.injEq, forall_eq'] at hunit ⊢
    omega

theorem createStream_takes {id : Str} {units forwardTo : Option Str} {args : ℕ × List DpArgument} {m : StreamMemory}
    {l l' : Ledger} {s : DataStream} (h : createStream id units forwardTo args m l = (some s, l')) :
    s.arguments = args.2 ∧ s.ccfsm.type = getDataStreamTypeFromArgList args.2 := by
  unfold createStream at h
  repeat' split at h
  all_goals simp only [Prod.mk.injEq, Option.some.injEq, reduceCtorEq, false_and] at h
  obtain ⟨rfl, -⟩ := h
  exact ⟨rfl, rfl⟩

theorem argList_error {format : Str} {e : DpError} (h : argList format = .error e) : e ≠ .none := by
  unfold argList at h
  split at h
  · cases h
    simp
  · split_ifs at h
    cases h
    simp

theorem getArgList_takes {format : Str} {copyOk listOk : Bool} {l l' : Ledger}
    {r : Except DpError (ℕ × List DpArgument)} (h : getArgListFromFormatString format copyOk listOk l = (r, l')) :
    l.next ≤ l'.next ∧
      match r with
      | .ok args => argList format = .ok args.2
      | .error e => e ≠ .none := by
  unfold getArgListFromFormatString at h
  cases copyOk
  · simp only [Ledger.acquire_false, Prod.mk.injEq] at h
    obtain ⟨rfl, rfl⟩ := h
    simp
  simp only [Ledger.acquire_true] at h
  split at h
  · rename_i hargs
    simp only [Prod.mk.injEq] at h
    obtain ⟨rfl, rfl⟩ := h
    exact ⟨Nat.le_succ _, argList_error hargs⟩
  rename_i hargs
  cases listOk
  all_goals
    simp only [Ledger.acquire_false, Ledger.acquire_true, Prod.mk.injEq] at h
    obtain ⟨rfl, rfl⟩ := h
  · simp
  · simp only [Ledger.release_next]
    exact ⟨by omega, hargs⟩

theorem parseArguments_next_le {v : VaArgs} {m : PointMemory} {args : List DpArgument} {p p' : Point} {l l' : Ledger}
    {ok : Bool} (h : parseArguments v m p l args = (ok, p', l')) : l.next ≤ l'.next := by
  induction args generalizing p l with
  | nil =>
    simp only [parseArguments, Prod.mk.injEq] at h
    rw [h.2.2]
  | cons a args ih =>
    have hturn : l.next ≤ (parseArgument v m p l a).2.2.next := by
      cases a <;> simp only [parseArgument, le_refl]
      case dataString | dataJson | dataGeojson => cases m.string <;> simp
      case tsIso8601 => cases m.iso8601 <;> simp
    rcases ha : parseArgument v m p l a with ⟨_ | _, q, k⟩
    · simp only [parseArguments, ha, Prod.mk.injEq] at h hturn
      rwa [← h.2.2]
    · simp only [parseArguments, ha] at h hturn
      exact hturn.trans (ih h)

theorem createDataPoint_next_le {args : List DpArgument} {v : VaArgs} {m : PointMemory} {l l' : Ledger}
    {r : Except (List ℕ) Point} (h : createDataPoint args v m l = (r, l')) : l.next ≤ l'.next := by
  unfold createDataPoint at h
  cases hm : m.point
  · simp only [hm, Ledger.acquire_false, Prod.mk.injEq] at h
    rw [h.2]
  simp only [hm, Ledger.acquire_true] at h
  split at h
  all_goals
    rename_i hp
    have := parseArguments_next_le hp
    simp only [Prod.mk.injEq] at h
    obtain ⟨-, rfl⟩ := h
    simp only [Ledger.releaseAll_next] at this ⊢
    omega

/-! ## One operation -/

theorem finish_ne (release : Bool) {e : DpError} (he : e ≠ .none) : finish release e ≠ .none := by
  cases release with
  | true => exact he
  | false => exact fun h => by cases h

theorem validStreamId_of_check {a : StreamArgs} (h : checkStreamArgs a = .none) :
    validStreamId (some (a.streamId.getD [])) = true := by
  unfold checkStreamArgs at h
  split_ifs at h with hid
  cases ha : a.streamId with
  | none => simp [ha, validStreamId] at hid
  | some id => simpa [ha] using hid

/-- a call for a new stream brings it in, or answers an error and leaves the list -/
theorem addStream_born {a : StreamArgs} {m : StreamMemory} {acquire release : Bool} {c c' : Collection} {ans : Answer}
    (h : addDataStreamToCollectionExtra a m acquire release c = .ok (ans, c')) :
    c.ledger.next ≤ c'.ledger.next ∧
      ((c'.list = c.list ∧ ans.error ≠ .none) ∨
        ∃ s, c'.list = s :: c.list ∧ Born c c' s ∧ argList (a.format.getD []) = .ok s.arguments) := by
  obtain ⟨hcheck, rfl, rfl⟩ | ⟨hcheck, r, l, hg, hrest⟩ := addStream_cases h
  · exact ⟨le_rfl, .inl ⟨rfl, hcheck⟩⟩
  obtain ⟨hnext, hargs⟩ := getArgList_takes hg
  obtain ⟨e, rfl, rfl, rfl⟩ | ⟨args, rfl, ⟨e, he, rfl, rfl⟩ | ⟨-, t, l', hs, hend⟩⟩ := hrest
  · exact ⟨hnext, .inl ⟨rfl, hargs⟩⟩
  · exact ⟨hnext, .inl ⟨rfl, he⟩⟩
  obtain ⟨hle, hblock⟩ := createStream_next_le hs
  obtain ⟨rfl, rfl, rfl⟩ | ⟨s, rfl, rfl, rfl⟩ := hend
  · exact ⟨hnext.trans hle, .inl ⟨rfl, finish_ne release (by simp)⟩⟩
  · obtain ⟨hfresh, hlt⟩ := hblock s rfl
    obtain ⟨hsargs, htype⟩ := createStream_takes hs
    obtain ⟨hid, hpoint, -⟩ := createStream_some hs
    refine ⟨hnext.trans hle, .inr ⟨s, rfl, ⟨hnext.trans hfresh, hlt, ?_, ?_, ?_, hpoint⟩, ?_⟩⟩
    · rw [hsargs]
      exact (argList_ok.1 hargs).2
    · rw [hid]
      exact validStreamId_of_check hcheck
    · rw [hsargs]
      exact htype
    · rw [hsargs]
      exact hargs

/-- a call for a point puts one that was built from the keywords of the stream into it, or leaves the list -/
theorem dpAdd_built {id : Option Str} {v : VaArgs} {m : PointMemory} {acquire release : Bool} {c c' : Collection}
    {ans : Answer} (h : dpAdd id v m acquire release c = .ok (ans, c')) :
    c.ledger.next ≤ c'.ledger.next ∧
      (c'.list = c.list ∨
        ∃ i s p, findStreamIdInCollection i c.list = .ok (some s) ∧ Built s.arguments p ∧
          c'.list = modifyStream i (fun s => s.setPoint (p :: s.ccfsm.point)) c.list) := by
  obtain rfl | ⟨i, s, r, l, -, hs, hp, hend⟩ := dpAdd_cases h
  · exact ⟨le_rfl, .inl rfl⟩
  have hnext := createDataPoint_next_le hp
  obtain ⟨wild, rfl, rfl⟩ | ⟨p, rfl, rfl⟩ := hend
  · exact ⟨hnext, .inl rfl⟩
  · exact ⟨hnext, .inr ⟨i, s, p, hs, ⟨v, m, _, l, hp⟩, rfl⟩⟩

theorem mem_modifyStream {id : Str} {f : DataStream → DataStream} {l : List DataStream} {s t : DataStream}
    (hs : findStreamIdInCollection id l = .ok (some s)) (ht : t ∈ modifyStream id f l) : t ∈ l ∨ s ∈ l ∧ t = f s := by
  induction l with
  | nil => cases ht
  | cons u l ih =>
    simp only [findStreamIdInCollection] at hs
    simp only [modifyStream] at ht
    split_ifs at hs with hr hid
    · simp only [Except.ok.injEq, Option.some.injEq] at hs
      subst hs
      rw [if_pos hid, List.mem_cons] at ht
      rcases ht with rfl | ht
      · exact .inr ⟨List.mem_cons_self, rfl⟩
      · exact .inl (List.mem_cons_of_mem u ht)
    · rw [if_neg hid, List.mem_cons] at ht
      rcases ht with rfl | ht
      · exact .inl List.mem_cons_self
      · rcases ih hs ht with ht | ⟨hs, rfl⟩
        · exact .inl (List.mem_cons_of_mem u ht)
        · exact .inr ⟨List.mem_cons_of_mem u hs, rfl⟩

/-- **Where a stream comes from.** A stream behind an operation was in the collection before it, or the operation has
created it. -/
theorem step_streams (c : Collection) (o : Op) :
    ∀ t ∈ (step c o).list, (∃ s ∈ c.list, Grown s t) ∨ Born c (step c o) t := by
  intro t ht
  cases h : operate c o with
  | error b =>
    simp only [step, h] at ht
    exact .inl ⟨t, ht, .refl t⟩
  | ok r =>
    obtain ⟨ans, c'⟩ := r
    have hstep : step c o = c' := by simp only [step, h]
    rw [hstep] at ht ⊢
    cases operate_change h with
    | kept hl => exact .inl ⟨t, hl ▸ ht, .refl t⟩
    | stream _ _ _ _ _ =>
      simp only [operate, perform] at h
      split_ifs at h
      obtain ⟨-, ⟨hl, -⟩ | ⟨s, hl, hborn, -⟩⟩ := addStream_born h
      · exact .inl ⟨t, hl ▸ ht, .refl t⟩
      · rw [hl, List.mem_cons] at ht
        rcases ht with rfl | ht
        · exact .inr hborn
        · exact .inl ⟨t, ht, .refl t⟩
    | removed _ _ hl => exact .inl ⟨t, (removeLoop_sublist _ _ _).mem (hl ▸ ht), .refl t⟩
    | point _ _ _ _ =>
      simp only [operate, perform] at h
      split_ifs at h
      obtain ⟨-, hl | ⟨i, s, p, hs, hp, hl⟩⟩ := dpAdd_built h
      · exact .inl ⟨t, hl ▸ ht, .refl t⟩
      · rcases mem_modifyStream hs (hl ▸ ht) with ht | ⟨hs, rfl⟩
        · exact .inl ⟨t, ht, .refl t⟩
        · refine .inl ⟨s, hs, rfl, rfl, rfl, rfl, fun q hq => ?_⟩
          rcases List.mem_cons.1 hq with rfl | hq
          · exact .inr hp
          · exact .inl hq
    | older hl =>
      obtain ⟨s, hs, rfl⟩ := List.mem_map.1 (hl ▸ ht)
      exact .inl ⟨s, hs, grown_setPoint (List.tail_subset _)⟩
    | chained hl => exact .inl ⟨t, hl ▸ ht, .refl t⟩
    | sent hl =>
      obtain ⟨s, hs, rfl⟩ := List.mem_map.1 (hl ▸ ht)
      exact .inl ⟨s, hs, grown_setPoint (List.nil_subset _)⟩
    | cleared _ hl =>
      obtain ⟨s, hs, rfl⟩ := List.mem_map.1 (hl ▸ ht)
      exact .inl ⟨s, hs, rfl, rfl, rfl, rfl, fun _ hp => .inl hp⟩

theorem removeStream_next {id : Option Str} {acquire release : Bool} {c c' : Collection} {ans : Answer}
    (h : removeDataStreamFromCollection id acquire release c = .ok (ans, c')) : c'.ledger.next = c.ledger.next := by
  obtain rfl | ⟨i, -, -, -, -, rfl⟩ := removeStream_cases h <;> rfl

theorem sendCollection_next_le {e : SendEnv} {c c' : Collection} {ans : Answer}
    (h : sendCollection e c = .ok (ans, c')) : c.ledger.next ≤ c'.ledger.next := by
  obtain ⟨-, rfl | rfl⟩ | ⟨-, -, rfl⟩ := sendCollection_cases h
  · exact le_rfl
  · exact Nat.le_succ _
  · by_cases hv : e.verdict = .none <;> simp [hv]

/-- names are never given out again -/
theorem step_next (c : Collection) (o : Op) : c.ledger.next ≤ (step c o).ledger.next := by
  cases h : operate c o with
  | error b => simp only [step, h, le_refl]
  | ok r =>
    obtain ⟨ans, c'⟩ := r
    simp only [step, h]
    unfold operate at h
    split_ifs at h
    cases o with
    | null =>
      obtain ⟨rfl, -⟩ := answer_ok h
      exact le_rfl
    | addStream a m acquire release => exact (addStream_born h).1
    | removeStream id acquire release => exact (removeStream_next h).ge
    | addPoint id v m acquire release => exact (dpAdd_built h).1
    | removeOlder =>
      obtain ⟨-, h⟩ := overList_ok h
      obtain ⟨rfl, -⟩ := answer_ok h
      exact le_rfl
    | count withCount =>
      simp only [perform, getCollectionPointsCount] at h
      split_ifs at h
      · simp only [Except.ok.injEq, Prod.mk.injEq] at h
        rw [← h.2]
      · obtain ⟨rfl, -⟩ := answer_ok h
        exact le_rfl
    | send e => exact sendCollection_next_le h
    | clear acquire release =>
      rcases clearCollection_cases h with ⟨rfl, -⟩ | ⟨-, rfl, -⟩ <;> exact le_rfl
    | destroy acquire release lock =>
      rcases destroyCollection_cases h with ⟨-, rfl⟩ | ⟨-, rfl | rfl⟩ <;> exact le_rfl

/-! ## What a stream keeps -/

/-- a stream with a valid id, a valid list of keywords and its type, and points that were built from the keywords -/
structure Kept (t : DataStream) : Prop where
  args : ValidArgs t.arguments
  streamId : validStreamId (some t.ccfsm.streamId) = true
  type : t.ccfsm.type = getDataStreamTypeFromArgList t.arguments
  points : ∀ p ∈ t.ccfsm.point, Built t.arguments p

theorem Born.kept {c c' : Collection} {t : DataStream} (h : Born c c' t) : Kept t :=
  ⟨h.args, h.streamId, h.type, by simp [h.points]⟩

theorem Kept.grown {s t : DataStream} (hs : Kept s) (h : Grown s t) : Kept t where
  args := by rw [h.arguments]; exact hs.args
  streamId := by rw [h.streamId]; exact hs.streamId
  type := by rw [h.type, h.arguments]; exact hs.type
  points p hp := by
    rw [h.arguments]
    rcases h.points p hp with hp | hp
    · exact hs.points p hp
    · exact hp

theorem kept_step (c : Collection) (o : Op) (h : ∀ t ∈ c.list, Kept t) : ∀ t ∈ (step c o).list, Kept t := by
  intro t ht
  rcases step_streams c o t ht with ⟨s, hs, hgrown⟩ | hborn
  · exact (h s hs).grown hgrown
  · exact hborn.kept

/-- **Streams keep what they are created with.** In every collection that can be reached, whatever fails. -/
theorem kept_run (next : ℕ → Option ℕ) (ops : List Op) :
    ∀ t ∈ (Runs.run step (newCollection next) ops).list, Kept t := by
  have hnew : ∀ t ∈ (newCollection next).list, Kept t := by simp [newCollection]
  exact Runs.run_inv_all kept_step hnew ops

/-! ## The type of a stream -/

/-- the type a data keyword denotes -/
def DpArgument.pointType : DpArgument → Option PointType
  | .dataInt32 => some .integer
  | .dataInt64 => some .long
  | .dataFloat => some .float
  | .dataDouble => some .double
  | .dataString => some .string
  | .dataJson => some .json
  | .dataGeojson => some .geojson
  | _ => none

/-- the member of the union that goes with a type is the one stored last, and is not NULL -/
def Native.isOf : PointType → Native → Bool
  | .integer, .int _ | .long, .long _ | .float, .float _ | .double, .double _ => true
  | .string, .string (some _) | .json, .string (some _) | .geojson, .string (some _) => true
  | _, _ => false

/-- the stream goes by the type ty of its one data keyword a -/
structure Typed (a : DpArgument) (ty : PointType) (t : DataStream) : Prop where
  keyword : t.arguments.filter (·.kind = some .type) = [a]
  denoted : a.pointType = some ty
  type : t.ccfsm.type = some ty
  stored : ∀ p ∈ t.ccfsm.point, p.value.native.isOf ty = true
  /-- what the connector is handed -/
  sent : t.ccfsm.view.type = some ty ∧ ∀ x ∈ t.ccfsm.view.point, x.native.isOf ty = true
  /-- where `free_data_point` reads the union as a pointer to free, it is one -/
  released : ty = .string → ∀ p ∈ t.ccfsm.point, p.stringBlock ≠ none

/-- the stream at the head goes by the type of its data keyword as long as it is in the collection -/
def TypeSound (c : Collection) : Prop :=
  ∃ s, c.list.head? = some s ∧
    ∀ more, ∀ t ∈ (Runs.run step c more).list, t.block = s.block → ∃ a ty, Typed a ty t

theorem pointType_of_kind {a : DpArgument} (h : a.kind = some .type) : ∃ ty, a.pointType = some ty := by
  cases a <;> first | exact ⟨_, rfl⟩ | cases h

theorem building_of_create {args : List DpArgument} {v : VaArgs} {m : PointMemory} {p : Point} {l l' : Ledger}
    (hargs : ValidArgs args) (h : createDataPoint args v m l = (.ok p, l')) : Building v l args p l' := by
  by_cases hm : Enough args m
  · obtain ⟨q, k, hok, hq⟩ := createDataPoint_ok hargs v hm l
    rw [h] at hok
    simp only [Prod.mk.injEq, Except.ok.injEq] at hok
    obtain ⟨rfl, rfl⟩ := hok
    exact hq
  · obtain ⟨wild, gone, k, herror, -⟩ := createDataPoint_error hargs v hm l
    rw [h] at herror
    cases herror

/-- a point of a data keyword holds the keyword's member of the union -/
theorem Building.native_of_mem {v : VaArgs} {l l' : Ledger} {args : List DpArgument} {p : Point} {a : DpArgument}
    (h : Building v l args p l') (hargs : ValidArgs args) (ha : a ∈ args) (hk : a.kind = some .type) :
    a.native v = some p.value.native := by
  have hsome : ∃ n, a.native v = some n := by cases a <;> first | exact ⟨_, rfl⟩ | cases hk
  obtain ⟨n, hn⟩ := hsome
  have hfind := findSome_of_countP (hargs.kinds .type) ha (by simp [hk]) hn
    fun z hz => decide_eq_true (by_contra fun hz' => hz (native_none hz'))
  rw [hn, h.native, hfind]
  rfl

theorem isOf_native {v : VaArgs} {a : DpArgument} {n : Native} {ty : PointType} (hn : a.native v = some n)
    (hty : a.pointType = some ty) : n.isOf ty = true := by
  cases a <;> cases hn <;> cases hty <;> rfl

/-- with a data keyword a stream goes by its type -/
theorem Kept.typed {t : DataStream} (h : Kept t) {a : DpArgument} (ha : a ∈ t.arguments) (hk : a.kind = some .type) :
    ∃ ty, Typed a ty t := by
  obtain ⟨ty, hty⟩ := pointType_of_kind hk
  have htype : t.ccfsm.type = some ty := by
    rw [h.type]
    refine findSome_of_countP (h.args.kinds .type) ha (by simp [hk]) ?_ fun z hz => ?_
    · cases a <;> exact hty
    · cases z <;> first | rfl | exact absurd rfl hz
  have hstored : ∀ p ∈ t.ccfsm.point, p.value.native.isOf ty = true := fun p hp => by
    obtain ⟨v, m, l, l', hcreate⟩ := h.points p hp
    exact isOf_native ((building_of_create h.args hcreate).native_of_mem h.args ha hk) hty
  have hfilter : t.arguments.filter (·.kind = some .type) = [a] := by
    have hmem : a ∈ t.arguments.filter (·.kind = some .type) := List.mem_filter.2 ⟨ha, by simp [hk]⟩
    have hlen : (t.arguments.filter (·.kind = some .type)).length ≤ 1 := by
      rw [← List.countP_eq_length_filter]
      exact h.args.kinds .type
    obtain ⟨x, hx⟩ := List.length_eq_one_iff.1 (le_antisymm hlen (List.length_pos_of_mem hmem))
    rw [hx] at hmem ⊢
    rw [List.mem_singleton.1 hmem]
  refine ⟨ty, hfilter, hty, htype, hstored, ⟨htype, fun x hx => ?_⟩, fun hstring p hp => ?_⟩
  · obtain ⟨p, hp, rfl⟩ := List.mem_map.1 hx
    exact hstored p hp
  · obtain ⟨v, m, l, l', hcreate⟩ := h.points p hp
    have hnative := hstored p hp
    rw [hstring] at hnative
    rw [Ne, (building_of_create h.args hcreate).text]
    intro hno
    cases hn : p.value.native with
    | string text =>
      rw [hn] at hnative
      cases text with
      | none => cases hnative
      | some text => exact hno text hn
    | _ => simp [hn, Native.isOf] at hnative

/-! ## The format decides -/

/-- the keywords of an accepted format -/
theorem argList_keywords {f : Str} {args : List DpArgument} (h : argList f = .ok args) :
    (keywords f).map lookupKeyword = args :=
  (argList_ok.1 h).1.keywords (List.length_pos_iff.1 (argList_ok.1 h).2.least)

theorem block_lt_run (next : ℕ → Option ℕ) (ops : List Op) :
    ∀ t ∈ (Runs.run step (newCollection next) ops).list,
      t.block < (Runs.run step (newCollection next) ops).ledger.next := by
  let I : Collection → Prop := fun c => ∀ t ∈ c.list, t.block < c.ledger.next
  have hstep : ∀ c o, I c → I (step c o) := by
    intro c o hc t ht
    rcases step_streams c o t ht with ⟨s, hs, hgrown⟩ | hborn
    · rw [hgrown.block]
      exact (hc s hs).trans_le (step_next c o)
    · exact hborn.known
  have hnew : I (newCollection next) := by simp [I, newCollection]
  exact Runs.run_inv_all hstep hnew ops

/-- a stream keeps its keywords as long as it is in a list, and no other gets its block -/
theorem arguments_run {c : Collection} {s : DataStream} (hs : ∀ t ∈ c.list, t.block = s.block → t.arguments = s.arguments)
    (hlt : s.block < c.ledger.next) (more : List Op) :
    ∀ t ∈ (Runs.run step c more).list, t.block = s.block → t.arguments = s.arguments := by
  let I : Collection → Prop := fun c =>
    (∀ t ∈ c.list, t.block = s.block → t.arguments = s.arguments) ∧ s.block < c.ledger.next
  have hstep : ∀ c o, I c → I (step c o) := by
    rintro c o ⟨hlist, hnext⟩
    refine ⟨fun t ht hblock => ?_, hnext.trans_le (step_next c o)⟩
    rcases step_streams c o t ht with ⟨u, hu, hgrown⟩ | hborn
    · rw [hgrown.arguments]
      exact hlist u hu (hgrown.block.symm.trans hblock)
    · exact absurd hborn.fresh (by omega)
  exact (Runs.run_inv_all hstep ⟨hs, hlt⟩ more).1

/-- **Type soundness.** A format that is accepted gives a stream that goes by the type of its one data keyword, whatever is
done and fails behind the call, exactly when one of its keywords is a data keyword. -/
theorem type_sound_iff (next : ℕ → Option ℕ) (ops : List Op) {a : StreamArgs} {m : StreamMemory} {acquire release : Bool}
    {f : Str} {c' : Collection} (hf : a.format = some f)
    (hadd : operate (Runs.run step (newCollection next) ops) (.addStream a m acquire release) =
      .ok ({ error := .none }, c')) :
    TypeSound c' ↔ ∃ w ∈ keywords f, (lookupKeyword w).kind = some .type := by
  set c := Runs.run step (newCollection next) ops with hc
  have hrun : ∀ more, Runs.run step c' more =
      Runs.run step (newCollection next) (ops ++ .addStream a m acquire release :: more) := by
    intro more
    rw [Runs.run_append, Runs.run_cons, ← hc]
    simp only [step, hadd]
  have hcall := hadd
  simp only [operate, perform] at hcall
  split_ifs at hcall
  obtain ⟨-, ⟨-, herror⟩ | ⟨s, hl, hborn, hargs⟩⟩ := addStream_born hcall
  · exact absurd rfl herror
  rw [hf, Option.getD_some] at hargs
  have hdata : (∃ w ∈ keywords f, (lookupKeyword w).kind = some .type) ↔ ∃ x ∈ s.arguments, x.kind = some .type := by
    rw [← argList_keywords hargs]
    simp
  rw [hdata]
  constructor
  · rintro ⟨s', hhead, htyped⟩
    rw [hl, List.head?_cons, Option.some.injEq] at hhead
    subst hhead
    obtain ⟨x, ty, ht⟩ := htyped [] s (by simp [hl]) rfl
    have hx : x ∈ s.arguments.filter (·.kind = some .type) := by simp [ht.keyword]
    exact ⟨x, (List.mem_filter.1 hx).1, by simpa using (List.mem_filter.1 hx).2⟩
  · rintro ⟨x, hx, hk⟩
    refine ⟨s, by rw [hl, List.head?_cons], fun more t ht hblock => ⟨x, ?_⟩⟩
    have hsame : ∀ u ∈ c'.list, u.block = s.block → u.arguments = s.arguments := by
      intro u hu hub
      rw [hl, List.mem_cons] at hu
      rcases hu with rfl | hu
      · rfl
      · have hlt : u.block < c.ledger.next := block_lt_run next ops u hu
        have := hborn.fresh
        omega
    have harguments := arguments_run hsame hborn.known more t ht hblock
    rw [hrun] at ht
    exact (kept_run next _ t ht).typed (harguments ▸ hx) hk

theorem operate_of_replies {c : Collection} {o : Op} {a : Answer} (h : replies c [o] = [some a]) :
    operate c o = .ok (a, step c o) := by
  unfold replies at h
  unfold step
  split at h
  · rename_i b c' hop
    rw [hop]
    simp only [replies, List.cons.injEq, Option.some.injEq, and_true] at h
    rw [h]
  · simp at h

theorem number_sound : TypeSound (oneStream (ascii "int32 ts_iso")) := by
  have hadd : operate (Runs.run step (newCollection fun _ => none) []) (.plainStream (ascii "a") (ascii "int32 ts_iso")) =
      .ok ({ error := .none }, oneStream (ascii "int32 ts_iso")) := operate_of_replies (by decide +kernel)
  exact (type_sound_iff _ _ rfl hadd).2 ⟨ascii "int32", by decide +kernel, by decide +kernel⟩

/-- **No type.** A format of a timestamp alone is accepted, and the stream has no type. -/
theorem timestamp_untyped :
    replies (newCollection fun _ => none) [.plainStream (ascii "a") (ascii "ts_epoch")] = [some { error := .none }] ∧
      (oneStream (ascii "ts_epoch")).list.map (·.ccfsm.type) = [none] ∧ ¬ TypeSound (oneStream (ascii "ts_epoch")) := by
  refine ⟨by decide +kernel, by decide +kernel, ?_⟩
  rintro ⟨s, hhead, htyped⟩
  have hargs : (oneStream (ascii "ts_epoch")).list.head?.map (·.arguments) = some [.tsEpoch] := by decide +kernel
  rw [hhead, Option.map_some, Option.some.injEq] at hargs
  obtain ⟨a, ty, ht⟩ := htyped [] s (List.mem_of_mem_head? hhead) rfl
  have hkeyword := ht.keyword
  rw [hargs] at hkeyword
  cases hkeyword

end CcApi.Datapoints
