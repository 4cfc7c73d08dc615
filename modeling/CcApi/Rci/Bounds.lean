/-
Accesses to the list levels of the instance record (`rci_info->list.data`, `ccapi_rci_handler.c`).

The stored depth is written by some requests when their callback is there, and list_end takes the level it clears from it
whether or not its own callback is there. When neither end_list nor start_list is registered, nothing need have written it.

- `in_bounds_iff`: which registrations keep every access of every run inside the array.
-/
import CcApi.Rci.Nesting

namespace CcApi.Rci

open Lib Lib.Runs

variable (cfg : Config)

/-- every access so far has been to a level of the array -/
def InBounds (s : St) : Prop := ∀ i ∈ s.svc.info.list.touched, i < cfg.listMaxDepth

instance (s : St) : Decidable (InBounds cfg s) := inferInstanceAs (Decidable (∀ i ∈ _, _))

/-- the depth is there for the end of a list -/
def DepthOk (info : RciInfo) : Prop := 1 ≤ info.list.depth ∧ info.list.depth ≤ cfg.listMaxDepth

/-- between requests: the accesses are in bounds, and unless list_end writes the depth itself it is there in a list -/
structure Within (p : Pos) (info : RciInfo) : Prop where
  nested : p.Nested
  lists : p.lists.length ≤ cfg.listMaxDepth
  touched : ∀ i ∈ info.list.touched, i < cfg.listMaxDepth
  depth : cfg.registered .endList = true ∨ (p.lists ≠ [] → DepthOk cfg info)

/-- the same while a request is worked on -/
structure WithinRequest (p : Pos) (id : RequestId) (rc : RemoteConfig) (info : RciInfo) : Prop where
  nested : p.Nested
  lists : p.lists.length ≤ cfg.listMaxDepth
  allowed : p.Allows cfg.listMaxDepth id rc
  touched : ∀ i ∈ info.list.touched, i < cfg.listMaxDepth
  depth : cfg.registered .endList = true ∨ ((p.next id rc).lists ≠ [] → DepthOk cfg info)
  ending : id = .listEnd → DepthOk cfg info

/-! ## What a request does to the levels -/

/-- the level of a list request on the path -/
theorem listIndex_eq {p : Pos} {rc : RemoteConfig} (hmax : cfg.listMaxDepth < 2 ^ 32)
    (h : p.OnPath rc (p.lists.length + 1) ∧ p.lists.length + 1 ≤ cfg.listMaxDepth) :
    RciInfo.listIndex rc = p.lists.length := by
  rw [RciInfo.listIndex, h.1.2.1, u32Sub_eq (by omega) (by omega), Nat.add_sub_cancel]

theorem edit_touched {p : Pos} {id : RequestId} {rc : RemoteConfig} (hmax : cfg.listMaxDepth < 2 ^ 32)
    (ha : p.Allows cfg.listMaxDepth id rc) {info : RciInfo} (h : ∀ i ∈ info.list.touched, i < cfg.listMaxDepth) :
    ∀ i ∈ (edit cfg rc id info).list.touched, i < cfg.listMaxDepth := by
  -- all levels are cleared, or the request's own level is accessed
  have hall : ∀ i ∈ info.list.touched ++ List.range cfg.listMaxDepth, i < cfg.listMaxDepth := by
    intro i hi
    rcases List.mem_append.1 hi with hi | hi
    · exact h i hi
    · exact List.mem_range.1 hi
  have hown : p.OnPath rc (p.lists.length + 1) ∧ p.lists.length + 1 ≤ cfg.listMaxDepth →
      ∀ i ∈ info.list.touched ++ [RciInfo.listIndex rc], i < cfg.listMaxDepth := by
    intro ho i hi
    rcases List.mem_append.1 hi with hi | hi
    · exact h i hi
    · rw [List.mem_singleton.1 hi, listIndex_eq cfg hmax ho]
      exact ho.2
  cases id <;> simp only [edit, startSession, startAction, RciInfo.clearTree, RciInfo.enterGroup, RciInfo.enterList,
    RciInfo.clearElement, RciInfo.clearGroup, RciInfo.clearAllLists_eq, RciInfo.atLevel, enterElement]
  case actionStart => split_ifs <;> exact hall
  case listInstancesLock => exact hown ha.1
  case listInstancesSet => exact hown ha.1
  case listInstanceRemove => exact hown ha.1
  case listInstancesUnlock => exact hown ha.1
  case listStart => exact hown ha
  all_goals first | exact h | exact hall

/-- with nothing open there are no lists -/
theorem Pos.Nested.lists_nil {p : Pos} (h : p.Nested) (hn : p.session = false ∨ p.action = none ∨ p.group = none) :
    p.lists = [] := by
  rcases hn with hn | hn | hn
  · exact h.lists (h.group (h.action hn))
  · exact h.lists (h.group hn)
  · exact h.lists hn

/-- a request with a callback leaves the depth there for the end of the innermost list -/
theorem edit_depth {p : Pos} {id : RequestId} {rc : RemoteConfig} (hn : p.Nested)
    (hlen : p.lists.length ≤ cfg.listMaxDepth) (ha : p.Allows cfg.listMaxDepth id rc) {info : RciInfo}
    (h : p.lists ≠ [] → DepthOk cfg info) : (p.next id rc).lists ≠ [] → DepthOk cfg (edit cfg rc id info) := by
  intro hne
  have hpos : p.lists ≠ [] → 1 ≤ p.lists.length := List.length_pos_iff.2
  have hlist : p.OnPath rc (p.lists.length + 1) ∧ p.lists.length + 1 ≤ cfg.listMaxDepth →
      1 ≤ rc.listDepth ∧ rc.listDepth ≤ cfg.listMaxDepth := by
    rintro ⟨⟨-, hd, -⟩, hle⟩
    omega
  cases id <;> simp only [Pos.next] at hne <;> simp only [Pos.Allows] at ha
  case sessionStart => exact absurd (hn.lists_nil (Or.inl ha)) hne
  case actionStart => exact absurd (hn.lists_nil (Or.inr (Or.inl ha.2))) hne
  case groupInstancesLock => exact absurd (hn.lists_nil (Or.inr (Or.inr ha.1.2.1))) hne
  case groupInstancesSet => exact absurd (hn.lists_nil (Or.inr (Or.inr ha.1.2.1))) hne
  case groupInstanceRemove => exact absurd (hn.lists_nil (Or.inr (Or.inr ha.1.2.1))) hne
  case groupInstancesUnlock => exact absurd (hn.lists_nil (Or.inr (Or.inr ha.1.2.1))) hne
  case groupStart => exact absurd (hn.lists_nil (Or.inr (Or.inr ha.2.1))) hne
  case actionEnd => exact absurd (hn.lists_nil (Or.inr (Or.inr ha.2))) hne
  case sessionEnd => exact absurd (hn.lists_nil (Or.inr (Or.inl ha.2))) hne
  case groupEnd => exact absurd rfl hne
  case listInstancesLock => exact hlist ha.1
  case listInstanceRemove => exact hlist ha.1
  case listInstancesUnlock => exact hlist ha.1
  case listStart => exact hlist ha
  case elementProcess =>
    have hd : (edit cfg rc .elementProcess info).list.depth = p.lists.length := ha.2.1
    exact ⟨hd.symm ▸ hpos hne, hd.symm ▸ hlen⟩
  case listEnd =>
    have hd : (edit cfg rc .listEnd info).list.depth = p.lists.length := ha.1.2.1
    exact ⟨hd.symm ▸ hpos ha.2, hd.symm ▸ hlen⟩
  all_goals exact h hne

/-- **Request.** When end_list or start_list is registered every request stays within the array. -/
theorem carries_within (hmax : cfg.listMaxDepth < 2 ^ 32)
    (hreg : cfg.registered .endList = true ∨ cfg.registered .startList = true ∨ cfg.listMaxDepth = 0) :
    Carries cfg (fun _ _ _ _ => True) (Within cfg) (WithinRequest cfg) where
  present := by
    intro p info id rc h ha _ cb
    obtain ⟨hn, hlen, htouch, hdepth⟩ := h
    rw [queue_info]
    cases hh : cfg.handles (info.takenUp rc) id with
    | true =>
      simp only [if_true]
      refine ⟨hn, hlen, ha, edit_touched cfg hmax ha htouch, hdepth.imp_right fun hd => ?_, fun hid => ?_⟩
      · exact edit_depth cfg hn hlen ha hd
      · subst hid
        have hpos : 1 ≤ p.lists.length := List.length_pos_iff.2 ha.2
        have hd : (edit cfg rc .listEnd (info.takenUp rc)).list.depth = p.lists.length := ha.1.2.1
        exact ⟨hd.symm ▸ hpos, hd.symm ▸ hlen⟩
    | false =>
      simp only [Bool.false_eq_true, if_false]
      refine ⟨hn, hlen, ha, htouch, ?_, fun hid => ?_⟩
      · -- a list starts with no callback only if end_list has one
        by_cases hstart : id = .listStart
        · subst hstart
          rcases hreg with hreg | hreg | hreg
          · exact Or.inl hreg
          · simp [Config.handles, RequestId.callback, hreg] at hh
          · exact absurd ha.2 (by omega)
        · refine hdepth.imp_right fun hd hne => hd ?_
          intro hnil
          apply hne
          cases id <;> simp [Pos.next, hnil] at hstart ⊢
      · subst hid
        rcases hdepth with hend | hd
        · simp [Config.handles, RequestId.callback, hend] at hh
        · exact hd ha.2
  returned := by
    intro p id rc info h u
    exact ⟨h.nested, h.lists, h.allowed, h.touched, h.depth, h.ending⟩
  finish := by
    intro p id rc info h
    have hnested := h.nested.next h.allowed
    have hlen : (p.next id rc).lists.length ≤ cfg.listMaxDepth := by
      have hlists := h.lists
      have hallowed := h.allowed
      cases id <;> simp only [Pos.next, List.length_append, List.length_dropLast, List.length_singleton]
      case listStart => exact hallowed.2
      case listEnd => omega
      case groupEnd => exact Nat.zero_le _
      all_goals exact hlists
    cases id
    case listEnd =>
      have hok := h.ending rfl
      refine ⟨hnested, hlen, fun i hi => ?_, h.depth⟩
      have hidx : u32Sub info.list.depth 1 < cfg.listMaxDepth := by
        rw [u32Sub_eq hok.1 (by have := hok.2; omega)]
        have := hok.1
        have := hok.2
        omega
      rcases List.mem_append.1 hi with hi | hi
      · exact h.touched i hi
      · rw [List.mem_singleton.1 hi]
        exact hidx
    case groupEnd =>
      refine ⟨hnested, hlen, fun i hi => ?_, Or.inr fun hne => absurd rfl hne⟩
      simp only [finish, RciInfo.clearTree, RciInfo.clearGroup, RciInfo.clearAllLists_eq, RciInfo.clearElement] at hi
      rcases List.mem_append.1 hi with hi | hi
      · exact h.touched i hi
      · exact List.mem_range.1 hi
    case elementProcess =>
      simp only [finish]
      split <;> exact ⟨hnested, hlen, h.touched, h.depth⟩
    case actionEnd =>
      simp only [finish]
      split <;> exact ⟨hnested, hlen, h.touched, h.depth⟩
    all_goals exact ⟨hnested, hlen, h.touched, h.depth⟩

/-- what every prefix of a run keeps -/
theorem within_bounds (hmax : cfg.listMaxDepth < 2 ^ 32)
    (hreg : cfg.registered .endList = true ∨ cfg.registered .startList = true ∨ cfg.listMaxDepth = 0) {s : St} (hi : Init s)
    (htouched : s.svc.info.list.touched = []) {ops : List Op} (hl : Along (step cfg) (Legal cfg) s ops) :
    InBounds cfg (run (step cfg) s ops) := by
  have hidle : Within cfg .start s.svc.info :=
    ⟨Pos.nested_start, Nat.zero_le _, by simp [htouched], Or.inr fun hne => absurd rfl hne⟩
  have hmeets : Along (step cfg) (Meets fun _ _ _ _ => True) s ops := by
    refine along_mono (fun t o _ => ?_) hl
    cases o <;> simp [Meets]
  obtain ⟨-, hholds⟩ := (carries_within cfg hmax hreg).run hi hidle hl hmeets
  unfold Holds at hholds
  cases hr : (run (step cfg) s ops).request with
  | none =>
    simp only [hr] at hholds
    exact hholds.touched
  | some r =>
    simp only [hr] at hholds
    exact hholds.touched

/-! ## A run that leaves the array -/

/-- a record on the path of one list -/
def RemoteConfig.inList : RemoteConfig := { RemoteConfig.plain with listDepth := 1 }

def UserResult.ok : UserResult := ⟨0, false, false, none, none⟩

/-- a list in a group, opened and closed -/
def oneList : List (RequestId × RemoteConfig) :=
  [(.sessionStart, .plain), (.actionStart, .plain), (.groupStart, .plain), (.listStart, .inList), (.listEnd, .inList)]

/-- requests one after the other -/
def exchanges (l : List (RequestId × RemoteConfig)) : List Op := l.flatMap fun x => exchange x.1 x.2 .ok

/-- a request that is no list's leaves a depth of 0 alone -/
theorem exchanged_depth {id : RequestId} (rc : RemoteConfig) (u : UserResult) {info : RciInfo}
    (hid : id = .sessionStart ∨ id = .actionStart ∨ id = .groupStart) (h : info.list.depth = 0) :
    (exchanged cfg id rc u info).list.depth = 0 := by
  have hedit : (edit cfg rc id (info.takenUp rc)).list.depth = 0 := by
    rcases hid with rfl | rfl | rfl <;>
      simp [edit, startSession, startAction, RciInfo.clearTree, RciInfo.enterGroup, RciInfo.clearElement,
        RciInfo.clearGroup, RciInfo.clearAllLists_eq]
  unfold exchanged
  split
  · rcases hid with rfl | rfl | rfl <;> exact hedit
  · rcases hid with rfl | rfl | rfl <;> exact h

/-- with neither callback, the first list that ends is cleared at level 2^32 - 1 -/
theorem oneList_leaves (hend : cfg.registered .endList = false) (hstart : cfg.registered .startList = false)
    (hmax : cfg.listMaxDepth < 2 ^ 32) (hpos : 1 ≤ cfg.listMaxDepth) :
    Along (step cfg) (Legal cfg) (.fresh .zero) (exchanges oneList) ∧
      ¬InBounds cfg (run (step cfg) (.fresh .zero) (exchanges oneList)) := by
  have hgiven : ∀ {id : RequestId} {rc : RemoteConfig} {s : St}, id.locks rc = none → id ≠ .elementProcess →
      cfg.handles s.svc.info id = true → PointersGiven cfg s.svc.info s.svc.callback.second id rc := by
    intro id rc s hl he _
    cases id <;> simp_all [PointersGiven]
  have h0 : Rest (.fresh .zero) := ⟨rfl, rfl, rfl, rfl, rfl⟩
  obtain ⟨h1, hi1, hp1⟩ := exchange_run cfg h0 .sessionStart .plain (by simp) (hgiven rfl (by simp)) .ok
  obtain ⟨h2, hi2, hp2⟩ := exchange_run cfg h1 .actionStart .plain (by simp) (hgiven rfl (by simp)) .ok
  obtain ⟨h3, hi3, hp3⟩ := exchange_run cfg h2 .groupStart .plain (by simp) (hgiven rfl (by simp)) .ok
  obtain ⟨h4, hi4, hp4⟩ := exchange_run cfg h3 .listStart .inList (by simp) (hgiven rfl (by simp)) .ok
  obtain ⟨-, hi5, -⟩ := exchange_run cfg h4 .listEnd .inList (by simp) (hgiven rfl (by simp)) .ok
  have hops : exchanges oneList = exchange .sessionStart .plain .ok ++ (exchange .actionStart .plain .ok ++
      (exchange .groupStart .plain .ok ++ (exchange .listStart .inList .ok ++ exchange .listEnd .inList .ok))) := by
    simp [exchanges, oneList]
  have hstart0 : (St.fresh .zero).pos = .start := rfl
  rw [hstart0] at hp1
  rw [hp1] at hp2
  rw [hp2] at hp3
  rw [hp3] at hp4
  rw [hops]
  constructor
  · simp only [along_append]
    refine ⟨legal_exchange cfg ?_, legal_exchange cfg ?_, legal_exchange cfg ?_, legal_exchange cfg ?_,
      legal_exchange cfg ?_⟩
    · rw [hstart0]; rfl
    · rw [hp1]; exact ⟨rfl, rfl⟩
    · rw [hp2]; exact ⟨Or.inl rfl, rfl, rfl⟩
    · rw [hp3]; exact ⟨⟨rfl, rfl, rfl⟩, hpos⟩
    · rw [hp4]; exact ⟨⟨rfl, rfl, rfl⟩, by simp [Pos.next]⟩
  · -- the depth is 0 up to the end of the list, which takes 1 from it
    have hd1 := exchanged_depth cfg .plain .ok (Or.inl rfl) (rfl : (St.fresh .zero).svc.info.list.depth = 0)
    rw [← hi1] at hd1
    have hd2 := exchanged_depth cfg .plain .ok (Or.inr (Or.inl rfl)) hd1
    rw [← hi2] at hd2
    have hd3 := exchanged_depth cfg .plain .ok (Or.inr (Or.inr rfl)) hd2
    rw [← hi3] at hd3
    intro hb
    simp only [run_append] at hb
    have hmem : 2 ^ 32 - 1 < cfg.listMaxDepth := by
      apply hb
      rw [hi5, exchanged, hi4, exchanged]
      simp [Config.handles, RequestId.callback, hend, hstart, finish, RciInfo.clearList, RciInfo.atLevel,
        RciInfo.clearElement, RciInfo.takenUp, tellMatches, hd3, u32Sub]
    omega

/-- **Bounds.** For every set of callbacks: all accesses of all well-nested runs from any memory are inside the array
exactly when end_list or start_list is registered (or there are no lists at all). -/
theorem in_bounds_iff (hmax : cfg.listMaxDepth < 2 ^ 32) :
    (∀ s, Init s → s.svc.info.list.touched = [] → ∀ ops, Along (step cfg) (Legal cfg) s ops →
      InBounds cfg (run (step cfg) s ops)) ↔
    (cfg.registered .endList = true ∨ cfg.registered .startList = true ∨ cfg.listMaxDepth = 0) := by
  constructor
  · intro h
    by_contra hn
    simp only [not_or, Bool.not_eq_true] at hn
    obtain ⟨hend, hstart, hzero⟩ := hn
    obtain ⟨hl, hleaves⟩ := oneList_leaves cfg hend hstart hmax (Nat.pos_of_ne_zero hzero)
    exact hleaves (h _ (init_fresh _) rfl _ hl)
  · intro hreg s hi htouched ops hl
    exact within_bounds cfg hmax hreg hi htouched hl

/-- only elements are there: no callback at all for groups and lists -/
def Config.elementsOnly : Config := ⟨fun n => n = .getElement, 1⟩

/-- both directions, for every callback registered and for the two element callbacks alone -/
theorem in_bounds_all :
    InBounds Config.all (run (step Config.all) (.fresh .zero) (exchanges oneList)) ∧
      ¬∀ s, Init s → s.svc.info.list.touched = [] → ∀ ops, Along (step Config.elementsOnly) (Legal Config.elementsOnly) s ops →
        InBounds Config.elementsOnly (run (step Config.elementsOnly) s ops) := by
  constructor
  · exact (in_bounds_iff Config.all (by decide)).2 (Or.inl rfl) _ (init_fresh _) rfl _ (by decide +kernel)
  · rw [in_bounds_iff Config.elementsOnly (by decide)]
    decide

/-- the list's end is an access at level 2^32 - 1 of an array of one level -/
theorem out_of_bounds :
    Along (step Config.elementsOnly) (Legal Config.elementsOnly) (.fresh .zero) (exchanges oneList) ∧
      ¬InBounds Config.elementsOnly (run (step Config.elementsOnly) (.fresh .zero) (exchanges oneList)) := by
  constructor <;> decide +kernel

end CcApi.Rci
