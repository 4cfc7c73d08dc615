/-
Clearing a collection.

`free_collection` releases the streams and their points and leaves the head pointer and the count as they are. A cleared
collection is compared with one that `ccapi_dp_create_collection` makes next to it, in the same memory: `LikeNew` says that
every sequence of operations has the same replies on both, and reads nothing the clear released.

- `alike_replies`: two collections with equal contents have equal replies, wherever they live.
- `clear_like_new_iff`: a clear leaves the collection like new exactly when it held no stream and its count was zero.
-/
import CcApi.Datapoints.Changes

namespace CcApi.Datapoints

open Lib

/-- the memory in which a new collection has been made next to c -/
def besideLedger (c : Collection) : Ledger := (createCollection true true c.ledger c.next).2.2

/-- the new collection -/
def newBeside (c : Collection) : Collection :=
  { block := c.ledger.next, list := [], dpCount := 0, destroyed := false, next := c.next, ledger := besideLedger c }

example (c : Collection) :
    createCollection true true c.ledger c.next = (.none, some (newBeside c), besideLedger c) := rfl

/-- every further sequence of operations has the replies of a new collection, and reads no block of gone -/
def LikeNew (c : Collection) (gone : List ℕ) : Prop :=
  ∀ ops, replies { c with ledger := besideLedger c } ops = replies (newBeside c) ops ∧
    ∀ b ∈ touches { c with ledger := besideLedger c } ops, b ∉ gone

/-! ## Equal contents -/

/-- equal but for the own block and for what was given back -/
structure Alike (c d : Collection) : Prop where
  list : c.list = d.list
  dpCount : c.dpCount = d.dpCount
  destroyed : c.destroyed = d.destroyed
  next : c.next = d.next
  fresh : c.ledger.next = d.ledger.next

def AlikeOutcome : Outcome → Outcome → Prop
  | .ok (a, c), .ok (b, d) => a = b ∧ Alike c d
  | .error _, .error _ => True
  | _, _ => False

theorem alike_answer {c d : Collection} (e : DpError) (h : Alike c d) : AlikeOutcome (answer e c) (answer e d) :=
  ⟨rfl, h⟩

theorem alike_overList {l : List DataStream} {f g : Outcome} (h : AlikeOutcome f g) :
    AlikeOutcome (overList l f) (overList l g) := by
  unfold overList
  cases firstReleased l with
  | none => exact h
  | some b => exact trivial

theorem getArgList_alike (format : Str) (copyOk listOk : Bool) {l k : Ledger} (h : l.next = k.next) :
    (getArgListFromFormatString format copyOk listOk l).1 = (getArgListFromFormatString format copyOk listOk k).1 ∧
      (getArgListFromFormatString format copyOk listOk l).2.next =
        (getArgListFromFormatString format copyOk listOk k).2.next := by
  unfold getArgListFromFormatString
  cases copyOk
  · exact ⟨rfl, h⟩
  · cases argList format with
    | error e => exact ⟨rfl, by simp [h]⟩
    | ok args =>
      cases listOk
      · exact ⟨rfl, by simp [h]⟩
      · simp [h]

theorem createStream_alike (id : Str) (units forwardTo : Option Str) (args : ℕ × List DpArgument) (m : StreamMemory)
    {l k : Ledger} (h : l.next = k.next) :
    (createStream id units forwardTo args m l).1 = (createStream id units forwardTo args m k).1 ∧
      (createStream id units forwardTo args m l).2.next = (createStream id units forwardTo args m k).2.next := by
  unfold createStream
  cases m.stream
  · exact ⟨rfl, h⟩
  cases m.ccfsm
  · exact ⟨rfl, by simp [h]⟩
  cases m.streamId
  · exact ⟨rfl, by simp [h]⟩
  cases units <;> cases m.unit <;> cases forwardTo <;> cases m.forwardTo <;> simp [strdupIf, h]

theorem parseArguments_alike (v : VaArgs) (m : PointMemory) (args : List DpArgument) (p : Point) {l k : Ledger}
    (h : l.next = k.next) :
    (parseArguments v m p l args).1 = (parseArguments v m p k args).1 ∧
      (parseArguments v m p l args).2.1 = (parseArguments v m p k args).2.1 ∧
      (parseArguments v m p l args).2.2.next = (parseArguments v m p k args).2.2.next := by
  induction args generalizing p l k with
  | nil => exact ⟨rfl, rfl, h⟩
  | cons a args ih =>
    have ha : (parseArgument v m p l a).1 = (parseArgument v m p k a).1 ∧
        (parseArgument v m p l a).2.1 = (parseArgument v m p k a).2.1 ∧
        (parseArgument v m p l a).2.2.next = (parseArgument v m p k a).2.2.next := by
      cases a
      case dataString | dataJson | dataGeojson => cases hm : m.string <;> simp [parseArgument, hm, h]
      case tsIso8601 => cases hm : m.iso8601 <;> simp [parseArgument, hm, h]
      all_goals exact ⟨rfl, rfl, h⟩
    rcases h1 : parseArgument v m p l a with ⟨b1, p1, l1⟩
    rcases h2 : parseArgument v m p k a with ⟨b2, p2, l2⟩
    rw [h1, h2] at ha
    obtain ⟨hb, hp, hl⟩ := ha
    dsimp only at hb hp hl
    subst hb hp
    cases b1
    · simp [parseArguments, h1, h2, hl]
    · simp only [parseArguments, h1, h2]
      exact ih p1 hl

theorem createDataPoint_alike (args : List DpArgument) (v : VaArgs) (m : PointMemory) {l k : Ledger}
    (h : l.next = k.next) :
    (createDataPoint args v m l).1 = (createDataPoint args v m k).1 ∧
      (createDataPoint args v m l).2.next = (createDataPoint args v m k).2.next := by
  unfold createDataPoint
  cases m.point
  · exact ⟨rfl, h⟩
  · simp only [Ledger.acquire_true, h]
    have hp := parseArguments_alike v m args (newPoint k.next)
      (l := { l with next := k.next + 1 }) (k := { k with next := k.next + 1 }) rfl
    rw [show ({ next := k.next + 1, releases := l.releases } : Ledger) = { l with next := k.next + 1 } from rfl]
    rcases h1 : parseArguments v m (newPoint k.next) { l with next := k.next + 1 } args with ⟨b1, p1, l1⟩
    rcases h2 : parseArguments v m (newPoint k.next) { k with next := k.next + 1 } args with ⟨b2, p2, l2⟩
    rw [h1, h2] at hp
    obtain ⟨hb, hp, hl⟩ := hp
    dsimp only at hb hp hl
    subst hb hp
    cases b1
    · exact ⟨rfl, hl⟩
    · exact ⟨rfl, hl⟩

/-! ## Operations on collections with equal contents -/

theorem alike_addStream (a : StreamArgs) (m : StreamMemory) (acquire release : Bool) {c d : Collection}
    (h : Alike c d) :
    AlikeOutcome (addDataStreamToCollectionExtra a m acquire release c)
      (addDataStreamToCollectionExtra a m acquire release d) := by
  have hledger : ∀ {l k : Ledger}, l.next = k.next → Alike { c with ledger := l } { d with ledger := k } :=
    fun hl => ⟨h.list, h.dpCount, h.destroyed, h.next, hl⟩
  have hrelease : ∀ {l k : Ledger} (b : ℕ), l.next = k.next →
      Alike { c with ledger := l.release b } { d with ledger := k.release b } := fun b hl => hledger hl
  unfold addDataStreamToCollectionExtra
  split
  case h_2 => exact alike_answer _ h
  have hg := getArgList_alike (a.format.getD []) m.formatCopy m.argList h.fresh
  dsimp only
  rcases h1 : getArgListFromFormatString (a.format.getD []) m.formatCopy m.argList c.ledger with ⟨r, l⟩
  rcases h2 : getArgListFromFormatString (a.format.getD []) m.formatCopy m.argList d.ledger with ⟨r', k⟩
  rw [h1, h2] at hg
  obtain ⟨hr, hl⟩ := hg
  dsimp only at hr hl
  subst hr
  cases r with
  | error e => exact alike_answer _ (hledger hl)
  | ok args =>
    dsimp only
    split
    · exact alike_answer _ (hrelease args.1 hl)
    rw [h.list] at hledger hrelease ⊢
    split
    · exact trivial
    · exact alike_answer _ (hrelease args.1 hl)
    · have hs := createStream_alike (a.streamId.getD []) a.units a.forwardTo args m hl
      rcases h3 : createStream (a.streamId.getD []) a.units a.forwardTo args m l with ⟨s, l1⟩
      rcases h4 : createStream (a.streamId.getD []) a.units a.forwardTo args m k with ⟨s', k1⟩
      rw [h3, h4] at hs
      obtain ⟨hs, hl1⟩ := hs
      dsimp only at hs hl1
      subst hs
      cases s with
      | none => exact alike_answer _ (hledger hl1)
      | some s =>
        refine alike_answer _ ⟨?_, h.dpCount, h.destroyed, ?_, hl1⟩
        · rfl
        · rw [h.next]

theorem alike_removeStream (id : Option Str) (acquire release : Bool) {c d : Collection} (h : Alike c d) :
    AlikeOutcome (removeDataStreamFromCollection id acquire release c)
      (removeDataStreamFromCollection id acquire release d) := by
  unfold removeDataStreamFromCollection
  rw [← h.list, ← h.dpCount]
  split
  · exact alike_answer _ h
  split
  · exact alike_answer _ h
  split
  · exact alike_answer _ h
  refine alike_overList (alike_answer _ ⟨rfl, rfl, h.destroyed, h.next, h.fresh⟩)

theorem alike_dpAdd (id : Option Str) (v : VaArgs) (m : PointMemory) (acquire release : Bool) {c d : Collection}
    (h : Alike c d) : AlikeOutcome (dpAdd id v m acquire release c) (dpAdd id v m acquire release d) := by
  unfold dpAdd
  rw [h.list, h.dpCount]
  split
  · exact alike_answer _ h
  split
  · exact alike_answer _ h
  split
  · exact trivial
  · exact alike_answer _ h
  · rename_i s hs
    have hp := createDataPoint_alike s.arguments v m h.fresh
    rcases h1 : createDataPoint s.arguments v m c.ledger with ⟨r, l⟩
    rcases h2 : createDataPoint s.arguments v m d.ledger with ⟨r', k⟩
    rw [h1, h2] at hp
    obtain ⟨hr, hl⟩ := hp
    dsimp only at hr hl
    subst hr
    cases r with
    | error wild => exact ⟨rfl, rfl, rfl, h.destroyed, h.next, hl⟩
    | ok p => exact alike_answer _ ⟨rfl, rfl, h.destroyed, h.next, hl⟩

theorem alike_sendCollection (e : SendEnv) {c d : Collection} (h : Alike c d) :
    AlikeOutcome (sendCollection e c) (sendCollection e d) := by
  unfold sendCollection
  rw [h.list]
  split
  · exact alike_answer _ h
  split
  · exact alike_answer _ h
  split
  · exact alike_answer _ h
  cases e.transactionInfo
  · exact alike_answer _ ⟨rfl, h.dpCount, h.destroyed, h.next, h.fresh⟩
  · have hl : (c.ledger.next + 1) = d.ledger.next + 1 := by rw [h.fresh]
    simp only [Ledger.acquire_true]
    split
    · exact alike_answer _ ⟨rfl, h.dpCount, h.destroyed, h.next, hl⟩
    split
    · exact alike_answer _ ⟨rfl, h.dpCount, h.destroyed, h.next, hl⟩
    simp only [sendLocked]
    refine alike_overList ⟨?_, ?_⟩
    · simp only [handed, chainCollectionCcfsmDataStreams, h.next]
    · by_cases hv : e.verdict = .none
      · simp only [hv, if_true, freeDataPointsFromCollection, chainCollectionCcfsmDataStreams, h.next]
        exact ⟨rfl, rfl, h.destroyed, rfl, hl⟩
      · simp only [hv, if_false, chainCollectionCcfsmDataStreams, h.next]
        exact ⟨rfl, h.dpCount, h.destroyed, rfl, hl⟩

theorem alike_clearCollection (acquire release : Bool) {c d : Collection} (h : Alike c d) :
    AlikeOutcome (clearCollection acquire release c) (clearCollection acquire release d) := by
  unfold clearCollection
  rw [← h.list]
  split
  · refine alike_overList (alike_answer _ ⟨?_, h.dpCount, h.destroyed, h.next, h.fresh⟩)
    simp only [freeCollection, h.list]
  · exact alike_answer _ h

theorem alike_destroyCollection (acquire release : Bool) (lock : LockDestroy) {c d : Collection} (h : Alike c d) :
    AlikeOutcome (destroyCollection acquire release lock c) (destroyCollection acquire release lock d) := by
  have hc := alike_clearCollection acquire release h
  unfold destroyCollection
  rcases h1 : clearCollection acquire release c with b | ⟨a, c'⟩
  all_goals
    rcases h2 : clearCollection acquire release d with b' | ⟨a', d'⟩
    all_goals rw [h1, h2] at hc
  · exact trivial
  · exact hc.elim
  · exact hc.elim
  · obtain ⟨rfl, hcd⟩ := hc
    dsimp only
    split
    · exact ⟨rfl, hcd⟩
    · cases lock with
      | ok => exact alike_answer _ ⟨hcd.list, hcd.dpCount, rfl, hcd.next, hcd.fresh⟩
      | error => exact alike_answer _ hcd
      | busy => exact alike_answer _ hcd

theorem alike_operate (o : Op) {c d : Collection} (h : Alike c d) : AlikeOutcome (operate c o) (operate d o) := by
  unfold operate
  rw [← h.destroyed]
  split
  · exact trivial
  cases o with
  | null => exact alike_answer _ h
  | addStream a m acquire release => exact alike_addStream a m acquire release h
  | removeStream id acquire release => exact alike_removeStream id acquire release h
  | addPoint id v m acquire release => exact alike_dpAdd id v m acquire release h
  | removeOlder =>
    simp only [perform, removeOlderDataPointFromStreams, h.list, h.dpCount]
    exact alike_overList (alike_answer _ ⟨rfl, rfl, h.destroyed, h.next, h.fresh⟩)
  | count withCount =>
    simp only [perform, getCollectionPointsCount, h.dpCount]
    split
    · exact ⟨rfl, h⟩
    · exact alike_answer _ h
  | send e => exact alike_sendCollection e h
  | clear acquire release => exact alike_clearCollection acquire release h
  | destroy acquire release lock => exact alike_destroyCollection acquire release lock h

/-- collections with equal contents have equal replies -/
theorem alike_replies (ops : List Op) {c d : Collection} (h : Alike c d) : replies c ops = replies d ops := by
  induction ops generalizing c d with
  | nil => rfl
  | cons o ops ih =>
    have ho := alike_operate o h
    simp only [replies]
    cases h1 : operate c o with
    | error b =>
      cases h2 : operate d o with
      | error b' => rfl
      | ok r => simp [h1, h2, AlikeOutcome] at ho
    | ok r =>
      cases h2 : operate d o with
      | error b' => simp [h1, h2, AlikeOutcome] at ho
      | ok r' =>
        rw [h1, h2] at ho
        obtain ⟨hans, hcd⟩ := ho
        dsimp only
        rw [hans, ih hcd]

/-! ## After a clear -/

/-- a clear that succeeds has released every stream of the list, once, and left the rest -/
theorem clear_succeeds {acquire release : Bool} {c c' : Collection} {ans : Answer}
    (h : operate c (.clear acquire release) = .ok (ans, c')) (he : ans.error = .none) :
    c.destroyed = false ∧ c' = freeCollection c := by
  unfold operate at h
  split at h
  · cases h
  rename_i hx
  rcases clearCollection_cases h with ⟨-, rfl⟩ | ⟨-, rfl, -⟩
  · cases he
  · exact ⟨by simpa using hx, rfl⟩

/-- **A cleared collection and a new one.** Behind a clear that succeeds, every further sequence of operations has the
replies of a new collection and reads nothing that was released, if and only if the collection had no stream and counted no
point to begin with. -/
theorem clear_like_new_iff {acquire release : Bool} {c c' : Collection} {ans : Answer}
    (h : operate c (.clear acquire release) = .ok (ans, c')) (he : ans.error = .none) :
    LikeNew c' (c.list.flatMap freeStream) ↔ c.list = [] ∧ c.dpCount = 0 := by
  obtain ⟨hx, rfl⟩ := clear_succeeds h he
  constructor
  · intro hnew
    have hlist : c.list = [] := by
      cases hl : c.list with
      | nil => rfl
      | cons s l =>
        -- a second clear walks into the released head
        have ht := (hnew [.clear true true]).2 s.block
        simp only [touches, operate, perform, clearCollection, overList, firstReleased, freeCollection, hl, hx,
          List.map_cons, List.find?_cons, Option.map_some, Bool.false_eq_true, false_and, if_false, if_true] at ht
        exact absurd (List.mem_append_left _ (by simp [freeStream])) (ht rfl)
    refine ⟨hlist, ?_⟩
    have hcount := (hnew [.count true]).1
    simpa [replies, operate, perform, getCollectionPointsCount, freeCollection, hx, newBeside] using hcount
  · rintro ⟨hl, hd⟩ ops
    refine ⟨alike_replies ops ⟨?_, ?_, ?_, rfl, rfl⟩, ?_⟩
    · simp [freeCollection, hl, newBeside]
    · exact hd
    · exact hx
    · simp [hl]

/-- a stream that came and went again: what is cleared is empty -/
def emptiedOps : List Op := [.plainStream (ascii "t") (ascii "int32"), .removeStream (some (ascii "t")) true true]

theorem emptied_like_new :
    LikeNew (freeCollection (emptiedOps.foldl step (newCollection fun _ => none)))
      ((emptiedOps.foldl step (newCollection fun _ => none)).list.flatMap freeStream) :=
  have h : operate (emptiedOps.foldl step (newCollection fun _ => none)) (.clear true true) =
      .ok ({ error := .none }, freeCollection (emptiedOps.foldl step (newCollection fun _ => none))) := rfl
  (clear_like_new_iff h rfl).2 (by decide +kernel)

/-- a stream with a point -/
def heldOps : List Op := [.plainStream (ascii "t") (ascii "int32"), .plainPoint (ascii "t") 5]

/-- behind the clear the count is still one, and a second clear walks into the released stream -/
theorem cleared_not_new :
    let c := heldOps.foldl step (newCollection fun _ => none)
    operate c (.clear true true) = .ok ({ error := .none }, freeCollection c) ∧
      replies { freeCollection c with ledger := besideLedger (freeCollection c) } [.count true, .clear true true] =
        [some { error := .none, count := some 1 }, none] ∧
      replies (newBeside (freeCollection c)) [.count true, .clear true true] =
        [some { error := .none, count := some 0 }, some { error := .none }] ∧
      ¬ LikeNew (freeCollection c) (c.list.flatMap freeStream) := by
  refine ⟨rfl, by decide +kernel, by decide +kernel, fun h => ?_⟩
  have := (h [.count true]).1
  revert this
  decide +kernel

end CcApi.Datapoints
