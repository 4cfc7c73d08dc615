/-
What the release of a point gives back (`free_data_point`), against what its creation has allocated.

Creation goes by the keywords of the stream, release by the stream's type and the source of the time: the copy of a string
is given back for type string only, though it is made for json and geojson too. Whichever way a point is released, the call
gives back of its blocks what `free_data_point` does, and nothing of them otherwise (`GivesUp.within`), because no block is
held twice in a collection that is still in use (`steady_run`).

- `point_released_iff`: a point of a data keyword is given back whole, each block once and nothing else, exactly when the
  keyword is neither json nor geojson.
-/
import CcApi.Datapoints.Streams

namespace CcApi.Datapoints

open Lib Ledger

/-! ## Collections in use -/

/-- neither destroyed nor cleared, a collection is well formed -/
def Steady (c : Collection) : Prop := c.destroyed = false → firstReleased c.list = none → WellFormed c

theorem firstReleased_none {l : List DataStream} : firstReleased l = none ↔ ∀ s ∈ l, s.released = false := by
  simp [firstReleased]

theorem mem_modifyStream_of_mem {id : Str} {f : DataStream → DataStream} {l : List DataStream} {t : DataStream}
    (ht : t ∈ l) : t ∈ modifyStream id f l ∨ f t ∈ modifyStream id f l := by
  induction l with
  | nil => cases ht
  | cons s l ih =>
    rw [modifyStream]
    split_ifs
    · rcases List.mem_cons.1 ht with rfl | ht
      · exact .inr List.mem_cons_self
      · exact .inl (List.mem_cons_of_mem _ ht)
    · rcases List.mem_cons.1 ht with rfl | ht
      · exact .inl List.mem_cons_self
      · exact (ih ht).imp (List.mem_cons_of_mem s) (List.mem_cons_of_mem s)

/-- a stream that was released stays so -/
theorem firstReleased_back {c : Collection} {o : Op} (ho : o.clears = false)
    (h : firstReleased (step c o).list = none) : firstReleased c.list = none := by
  rw [firstReleased_none] at h ⊢
  intro s hs
  cases step_change c o with
  | kept hl => exact h s (hl ▸ hs)
  | stream t _ _ _ hl => exact h s (hl ▸ List.mem_cons_of_mem t hs)
  | removed _ hf => exact firstReleased_none.1 hf s hs
  | point t p _ hl =>
    rw [hl] at h
    rcases mem_modifyStream_of_mem hs with hs | hs
    · exact h s hs
    · exact h (s.setPoint (p :: s.ccfsm.point)) hs
  | older hl => exact h (s.setPoint s.ccfsm.point.tail) (hl ▸ List.mem_map.2 ⟨s, hs, rfl⟩)
  | chained hl => exact h s (hl ▸ hs)
  | sent hl => exact h (s.setPoint []) (hl ▸ List.mem_map.2 ⟨s, hs, rfl⟩)
  | cleared hc => rcases hc with ⟨q, r, rfl⟩ | ⟨q, r, k, rfl⟩ <;> cases ho

/-- nothing is released where there is nothing -/
theorem freeCollection_unreleased {c : Collection} (h : firstReleased (freeCollection c).list = none) :
    freeCollection c = c := by
  have hl : c.list = [] := by
    rw [firstReleased_none] at h
    refine List.eq_nil_iff_forall_not_mem.2 fun s hs => ?_
    have := h { s with released := true } (List.mem_map_of_mem hs)
    cases this
  obtain ⟨block, list, count, destroyed, next, ledger⟩ := c
  cases hl
  simp [freeCollection]

theorem steady_step (c : Collection) (o : Op) (h : Steady c) : Steady (step c o) := by
  intro hd hf
  cases hop : operate c o with
  | error b =>
    simp only [step, hop] at hd hf ⊢
    exact h hd hf
  | ok r =>
    obtain ⟨ans, c'⟩ := r
    have hstep : step c o = c' := by simp only [step, hop]
    by_cases hnull : o = .null
    · subst hnull
      simp only [operate, ne_eq, not_true_eq_false, and_false, if_false] at hop
      obtain ⟨rfl, -⟩ := answer_ok hop
      rw [hstep] at hd hf ⊢
      exact h hd hf
    unfold operate at hop
    split_ifs at hop with hgone
    have hlive : c.destroyed = false := by simpa [hnull] using hgone
    cases o with
    | clear acquire release =>
      rw [hstep] at hd hf ⊢
      rcases clearCollection_cases hop with ⟨rfl, -⟩ | ⟨hfirst, rfl, -⟩
      · exact h hd hf
      · rw [freeCollection_unreleased hf]
        exact h hlive hfirst
    | destroy acquire release lock =>
      rw [hstep] at hd hf ⊢
      rcases destroyCollection_cases hop with ⟨-, rfl⟩ | ⟨hfirst, rfl | rfl⟩
      · exact h hd hf
      · rw [freeCollection_unreleased hf]
        exact h hlive hfirst
      · cases hd
    | _ => exact wellFormed_step c _ (h hlive (firstReleased_back rfl hf)) rfl

/-- **Collections in use.** Behind any operations, whatever fails, a collection is well formed as long as it is not cleared
or destroyed. -/
theorem steady_run (next : ℕ → Option ℕ) (ops : List Op) : Steady (Runs.run step (newCollection next) ops) :=
  Runs.run_inv_all steady_step (fun _ _ => wellFormed_new next) ops

/-! ## What is given back of a point -/

section
variable {c c' : Collection} {s : DataStream} {p : Point} {ans : Answer}

theorem within_points (hp : p ∈ s.ccfsm.point) :
    Within (freeDataPointsInDataStream s.ccfsm) (s.ccfsm.point.flatMap Point.blocks) (freeDataPoint p s.ccfsm.type) p.blocks :=
  Within.flatMap hp (.refl _ _) fun q _ => count_freeDataPoint_le q s.ccfsm.type

theorem count_sent_stream_le (t : DataStream) (b : ℕ) :
    (freeDataPointsInDataStream t.ccfsm).count b ≤ t.blocks.count b := by
  have := count_freeDataPoints_le t.ccfsm b
  simp only [DataStream.blocks, List.count_append]
  omega

theorem within_sent (hp : p ∈ s.ccfsm.point) :
    Within (freeDataPointsInDataStream s.ccfsm) s.blocks (freeDataPoint p s.ccfsm.type) p.blocks := by
  refine (within_points hp).mono (fun b => le_rfl) fun b => ?_
  simp only [DataStream.blocks, List.count_append]
  omega

theorem within_older (hp : s.ccfsm.point.head? = some p) :
    Within (olderPoint s) s.blocks (freeDataPoint p s.ccfsm.type) p.blocks := by
  obtain ⟨ps, hps⟩ := List.head?_eq_some_iff.1 hp
  refine (Within.refl (freeDataPoint p s.ccfsm.type) p.blocks).mono (fun b => ?_) fun b => ?_
  · simp [olderPoint, hps]
  · simp only [olderPoint, hps, DataStream.blocks, List.flatMap_cons, List.count_append]
    omega

theorem count_olderPoint_le (t : DataStream) (b : ℕ) : (olderPoint t).count b ≤ t.blocks.count b := by
  unfold olderPoint DataStream.blocks
  split
  · simp
  · rename_i q ps hq
    have := count_freeDataPoint_le q t.ccfsm.type b
    simp only [hq, List.flatMap_cons, List.count_append]
    omega

theorem count_freeStream_le (t : DataStream) (b : ℕ) : (freeStream t).count b ≤ t.blocks.count b := by
  have := count_freeDataPoints_le t.ccfsm b
  simp only [freeStream, DataStream.blocks, DataStream.ownBlocks, List.count_append, List.count_cons, List.count_nil]
  omega

theorem within_freeStream (hp : p ∈ s.ccfsm.point) :
    Within (freeStream s) s.blocks (freeDataPoint p s.ccfsm.type) p.blocks := by
  refine (within_points hp).mono (fun b => ?_) fun b => ?_
  all_goals
    simp only [freeStream, DataStream.blocks, DataStream.ownBlocks, List.count_append, List.count_cons, List.count_nil]
    omega

theorem within_freeCcapiDataStream (hp : p ∈ s.ccfsm.point) :
    Within (freeCcapiDataStream s) s.blocks (freeDataPoint p s.ccfsm.type) p.blocks := by
  refine (within_points hp).mono (fun b => ?_) fun b => ?_
  all_goals
    simp only [freeCcapiDataStream, DataStream.blocks, DataStream.ownBlocks, List.count_append]
    omega

/-- the operation gives the point p of the stream s up: a send that reaches the connector and goes well, the point at the
head for the older ones, the removal of the stream, a clear or a destroy with the lock -/
def GivesUp (s : DataStream) (p : Point) (ans : Answer) : Op → Prop
  | .send e => ans.handed ≠ none ∧ e.verdict = .none
  | .removeOlder => s.ccfsm.point.head? = some p
  | .removeStream id acquire _ => id = some s.ccfsm.streamId ∧ acquire = true
  | .clear acquire _ | .destroy acquire _ _ => acquire = true
  | _ => False

theorem sendCollection_gives {e : SendEnv} (h : sendCollection e c = .ok (ans, c')) (hhanded : ans.handed ≠ none)
    (hverdict : e.verdict = .none) : firstReleased c.list = none ∧ c'.ledger.releases = c.ledger.releases ++
      ((c.list.flatMap fun s => freeDataPointsInDataStream s.ccfsm) ++ [c.ledger.next]) := by
  obtain ⟨hnone, -⟩ | ⟨hf, -, rfl⟩ := sendCollection_cases h
  · exact absurd hnone hhanded
  · exact ⟨hf, by simp [hverdict]⟩

theorem within_collection {f : DataStream → List ℕ} (hs : s ∈ c.list)
    (h : Within (f s) s.blocks (freeDataPoint p s.ccfsm.type) p.blocks)
    (hle : ∀ t b, (f t).count b ≤ t.blocks.count b) :
    Within (c.list.flatMap f) c.blocks (freeDataPoint p s.ccfsm.type) p.blocks := by
  refine (Within.flatMap hs h fun t _ => hle t).mono (fun b => le_rfl) fun b => ?_
  simp only [Collection.blocks, List.count_cons]
  omega

/-- **What an operation gives back of a point.** Of the blocks of a point that is given up the operation gives back what
`free_data_point` does. -/
theorem GivesUp.within {o : Op} (hsteady : Steady c) (hkept : ∀ t ∈ c.list, Kept t) (hs : s ∈ c.list)
    (hp : p ∈ s.ccfsm.point) (hop : operate c o = .ok (ans, c')) (hway : GivesUp s p ans o) :
    ∃ gone held, c'.ledger.releases = c.ledger.releases ++ gone ∧ held.Nodup ∧
      Within gone held (freeDataPoint p s.ccfsm.type) p.blocks := by
  have hnull : o ≠ .null := by
    rintro rfl
    cases hway
  unfold operate at hop
  split_ifs at hop with hgone
  have hlive : c.destroyed = false := by simpa [hnull] using hgone
  cases o with
  | send e =>
    obtain ⟨hf, hreleases⟩ := sendCollection_gives hop hway.1 hway.2
    refine ⟨_, c.ledger.next :: c.blocks, hreleases, (hsteady hlive hf).holds.acquire.nodup, ?_⟩
    refine (within_collection hs (within_sent hp) count_sent_stream_le).mono (fun b => ?_) fun b => ?_
    all_goals simp only [List.count_append, List.count_cons, List.count_nil]
    all_goals omega
  | removeOlder =>
    obtain ⟨hf, hop⟩ := overList_ok hop
    obtain ⟨rfl, -⟩ := answer_ok hop
    exact ⟨_, c.blocks, rfl, (hsteady hlive hf).holds.nodup,
      within_collection hs (within_older hway) count_olderPoint_le⟩
  | removeStream id acquire release =>
    obtain ⟨rfl, rfl⟩ := hway
    have hvalid := (hkept s hs).streamId
    have hf : firstReleased c.list = none := by
      simp only [perform, removeDataStreamFromCollection, hvalid, List.ne_nil_of_mem hs, Bool.not_true, Bool.false_eq_true,
        if_false] at hop
      exact (overList_ok hop).1
    have hwell := hsteady hlive hf
    simp only [perform, removeStream_of_mem hwell hs hvalid] at hop
    obtain ⟨rfl, -⟩ := answer_ok hop
    exact ⟨_, s.blocks, rfl, (hwell.owns hs).nodup, within_freeCcapiDataStream hp⟩
  | clear acquire release =>
    obtain rfl : acquire = true := hway
    obtain ⟨hf, hop⟩ := overList_ok hop
    obtain ⟨rfl, -⟩ := answer_ok hop
    exact ⟨_, c.blocks, rfl, (hsteady hlive hf).holds.nodup,
      within_collection hs (within_freeStream hp) count_freeStream_le⟩
  | destroy acquire release lock =>
    obtain rfl : acquire = true := hway
    rcases destroyCollection_cases hop with ⟨hfalse, -⟩ | ⟨hf, rfl | rfl⟩
    · cases hfalse
    · exact ⟨_, c.blocks, rfl, (hsteady hlive hf).holds.nodup,
        within_collection hs (within_freeStream hp) count_freeStream_le⟩
    · refine ⟨c.list.flatMap freeStream ++ [c.block], c.blocks, by simp [freeCollection],
        (hsteady hlive hf).holds.nodup, ?_⟩
      refine (Within.flatMap hs (within_freeStream hp) fun t _ => count_freeStream_le t).mono (fun b => ?_) fun b => ?_
      all_goals simp only [Collection.blocks, List.count_append, List.count_cons, List.count_nil]
      all_goals omega
  | _ => cases hway

/-! ## Creation and release -/

/-- the blocks that the creation of the point has allocated -/
def Allocated (args : List DpArgument) (p : Point) (bs : List ℕ) : Prop :=
  ∃ v m l l', createDataPoint args v m l = (.ok p, l') ∧ l'.releases = l.releases ∧
    bs = List.range' l.next (l'.next - l.next)

/-- `free_data_point` gives back the blocks bs and nothing else, and from c to c' each of them is given back once -/
def GivesBack (p : Point) (type : Option PointType) (bs : List ℕ) (c c' : Collection) : Prop :=
  (freeDataPoint p type).Perm bs ∧
    ∃ gone, c'.ledger.releases = c.ledger.releases ++ gone ∧ ∀ b ∈ bs, gone.count b = 1

theorem allocated_perm {args : List DpArgument} {bs : List ℕ} (hargs : ValidArgs args) (h : Allocated args p bs) :
    p.blocks.Perm bs := by
  obtain ⟨v, m, l, l', hcreate, -, rfl⟩ := h
  exact (building_of_create hargs hcreate).blocks

/-- both strings of a point are released exactly when it has no string behind another type -/
theorem Kept.reclaimed_iff (h : Kept s) (hp : p ∈ s.ccfsm.point) (hdata : ∃ x ∈ s.arguments, x.kind = some .type) :
    Reclaimed s.ccfsm.type p ↔ .dataJson ∉ s.arguments ∧ .dataGeojson ∉ s.arguments := by
  obtain ⟨v, m, l, l', hcreate⟩ := h.points p hp
  have hbuilding := building_of_create h.args hcreate
  obtain ⟨a, ha, hk⟩ := hdata
  obtain ⟨ty, htyped⟩ := h.typed ha hk
  have hnative := hbuilding.native_of_mem h.args ha hk
  -- the keyword is the only one of its kind
  have honly : ∀ x ∈ s.arguments, x.kind = some .type → x = a := fun x hx hxk =>
    eq_of_kind (h.args.kinds .type) hx ha hxk hk
  have hmem : ∀ x : DpArgument, x.kind = some .type → (x ∉ s.arguments ↔ a ≠ x) := fun x hxk =>
    ⟨fun hx he => hx (he ▸ ha), fun hne hx => hne (honly x hx hxk).symm⟩
  have htime : p.iso8601Block ≠ none → ∃ t, p.value.time = .iso8601 t := by
    intro hblock
    rw [Ne, hbuilding.iso8601, not_forall] at hblock
    obtain ⟨t, ht⟩ := hblock
    exact ⟨some t, not_not.1 ht⟩
  have htext : p.stringBlock ≠ none ↔ a = .dataString ∨ a = .dataJson ∨ a = .dataGeojson := by
    rw [Ne, hbuilding.text]
    generalize p.value.native = n at hnative ⊢
    cases a <;> cases hnative <;> simp
  have hstring : s.ccfsm.type = some .string ↔ a = .dataString := by
    rw [htyped.type, ← htyped.denoted]
    cases a <;> simp [DpArgument.pointType]
  rw [Reclaimed, and_iff_left htime, htext, hstring, hmem _ rfl, hmem _ rfl]
  cases a <;> simp

theorem freeDataPoint_perm (p : Point) (type : Option PointType) :
    (freeDataPoint p type).Perm p.blocks ↔ Reclaimed type p := by
  rw [← length_freeDataPoint_iff]
  constructor
  · exact List.Perm.length_eq
  · intro hlength
    exact (List.subperm_ext_iff.2 fun b _ => count_freeDataPoint_le p type b).perm_of_length_le hlength.ge

end

/-- **Points are released as they were created.** In every collection that can be reached, for every point of a stream with a
data keyword and every way it is given up: what is given back of it is what its creation has allocated, each block once and
nothing else, exactly when the data keyword is neither json nor geojson. -/
theorem point_released_iff (next : ℕ → Option ℕ) (ops : List Op) {s : DataStream} {p : Point} {o : Op} {ans : Answer}
    {c' : Collection} (hs : s ∈ (Runs.run step (newCollection next) ops).list) (hp : p ∈ s.ccfsm.point)
    (hdata : ∃ x ∈ s.arguments, x.kind = some .type)
    (hop : operate (Runs.run step (newCollection next) ops) o = .ok (ans, c')) (hway : GivesUp s p ans o) :
    (∃ bs, Allocated s.arguments p bs) ∧ ∀ bs, Allocated s.arguments p bs →
      (GivesBack p s.ccfsm.type bs (Runs.run step (newCollection next) ops) c' ↔
        .dataJson ∉ s.arguments ∧ .dataGeojson ∉ s.arguments) := by
  have hkept := kept_run next ops s hs
  obtain ⟨gone, held, hreleases, hnodup, hwithin⟩ := hway.within (steady_run next ops) (kept_run next ops) hs hp hop
  constructor
  · obtain ⟨v, m, l, l', hcreate⟩ := hkept.points p hp
    exact ⟨_, v, m, l, l', hcreate, (building_of_create hkept.args hcreate).releases, rfl⟩
  intro bs hbs
  have hperm := allocated_perm hkept.args hbs
  rw [← hkept.reclaimed_iff hp hdata, ← freeDataPoint_perm]
  constructor
  · intro h
    exact h.1.trans hperm.symm
  · intro h
    refine ⟨h.trans hperm, gone, hreleases, fun b hb => ?_⟩
    have hblock := hperm.mem_iff.2 hb
    have hdistinct : p.blocks.Nodup := by
      obtain ⟨v, m, l, l', -, -, rfl⟩ := hbs
      exact hperm.nodup_iff.2 List.nodup_range'
    rw [hwithin.count_eq hnodup hblock, h.count_eq]
    exact List.count_eq_one_of_mem hdistinct hblock

/-- a stream "a" of this format with a point, 0 for the numbers and empty texts -/
def onePoint (format : Str) : List Op :=
  [.plainStream (ascii "a") format, .addPoint (some (ascii "a")) (numbers 0) .full true true]

/-- the point of the stream "a" of a format for strings -/
def textPoint : Point := ⟨6, some 7, none, ⟨.string (some []), .cloud, none, none⟩⟩

/-- the stream of the point -/
def textStream (a : DpArgument) (type : PointType) : DataStream :=
  ⟨3, 2, [a], ⟨4, 5, none, none, ascii "a", none, none, some type, [textPoint]⟩, false⟩

theorem textPoint_allocated (a : DpArgument) (h : a = .dataString ∨ a = .dataJson ∨ a = .dataGeojson) :
    Allocated [a] textPoint [6, 7] := by
  refine ⟨numbers 0, .full, ⟨6, []⟩, ⟨8, []⟩, ?_, rfl, rfl⟩
  rcases h with rfl | rfl | rfl <;> rfl

theorem string_released :
    GivesBack textPoint (some .string) [6, 7] (Runs.run step (newCollection fun _ => none) (onePoint (ascii "string")))
      (step (Runs.run step (newCollection fun _ => none) (onePoint (ascii "string"))) (.clear true true)) := by
  have hs : textStream .dataString .string ∈
      (Runs.run step (newCollection fun _ => none) (onePoint (ascii "string"))).list := by decide +kernel
  have hp : textPoint ∈ (textStream .dataString .string).ccfsm.point := by decide +kernel
  have hop : operate (Runs.run step (newCollection fun _ => none) (onePoint (ascii "string"))) (.clear true true) =
      .ok ({ error := .none },
        step (Runs.run step (newCollection fun _ => none) (onePoint (ascii "string"))) (.clear true true)) :=
    operate_of_replies (by decide +kernel)
  have hiff := (point_released_iff _ _ hs hp ⟨.dataString, by decide, rfl⟩ hop rfl).2 [6, 7]
    (textPoint_allocated _ (.inl rfl))
  exact hiff.2 (by decide)

/-- **A string is kept.** The copy of a json text is not given back, whatever is released. -/
theorem json_kept :
    textStream .dataJson .json ∈ (Runs.run step (newCollection fun _ => none) (onePoint (ascii "json"))).list ∧
      Allocated [.dataJson] textPoint [6, 7] ∧
      replies (Runs.run step (newCollection fun _ => none) (onePoint (ascii "json"))) [.clear true true] =
        [some { error := .none }] ∧
      7 ∉ (step (Runs.run step (newCollection fun _ => none) (onePoint (ascii "json"))) (.clear true true)).ledger.releases ∧
      ¬ GivesBack textPoint (some .json) [6, 7] (Runs.run step (newCollection fun _ => none) (onePoint (ascii "json")))
        (step (Runs.run step (newCollection fun _ => none) (onePoint (ascii "json"))) (.clear true true)) := by
  refine ⟨by decide +kernel, textPoint_allocated _ (.inr (.inl rfl)), by decide +kernel, by decide +kernel, ?_⟩
  rintro ⟨hperm, -⟩
  exact absurd hperm.length_eq (by decide)

end CcApi.Datapoints
