/-
What one operation can do to a collection, said once (`operate_change`), and who owns which block.

- `Change`: the nine ways an operation changes the list, the links and the count.
- `Holds`: every block a collection refers to is live and referred to once; `step_holds`: every operation but a clear
  keeps it, whatever fails.
-/
import CcApi.Datapoints.Collection
import CcApi.Lib.Runs

namespace CcApi.Datapoints

open Lib

/-! ## The changes -/

/-- what the operation o makes of the collection c -/
inductive Change (c : Collection) : Op → Collection → Prop where
  /-- list, links and count stay -/
  | kept {o c'} (hl : c'.list = c.list) (hn : c'.next = c.next) (hd : c'.dpCount = c.dpCount)
      (hx : c'.destroyed = c.destroyed) : Change c o c'
  /-- a stream whose id no other has comes to the head -/
  | stream {a m acquire release c'} (s : DataStream)
      (hid : findStreamIdInCollection s.ccfsm.streamId c.list = .ok none) (hp : s.ccfsm.point = [])
      (hr : s.released = false) (hl : c'.list = s :: c.list)
      (hn : c'.next = Function.update c.next s.ccfsm.block none) (hd : c'.dpCount = c.dpCount)
      (hx : c'.destroyed = c.destroyed) : Change c (.addStream a m acquire release) c'
  /-- the streams of an id are taken out -/
  | removed {id release c'} (hv : validStreamId (some id)) (hf : firstReleased c.list = none)
      (hl : c'.list = (removeLoop id false c.list).1) (hn : c'.next = c.next)
      (hd : c'.dpCount = u32Sub c.dpCount ((removeLoop id false c.list).2.map fun s => s.ccfsm.point.length).sum)
      (hx : c'.destroyed = c.destroyed) : Change c (.removeStream (some id) true release) c'
  /-- a stream gets a new first point -/
  | point {id v m acquire release c'} (s : DataStream) (p : Point)
      (hs : findStreamIdInCollection id c.list = .ok (some s))
      (hl : c'.list = modifyStream id (fun s => s.setPoint (p :: s.ccfsm.point)) c.list) (hn : c'.next = c.next)
      (hd : c'.dpCount = u32 (c.dpCount + 1))
      (hx : c'.destroyed = c.destroyed) : Change c (.addPoint (some id) v m acquire release) c'
  /-- every stream loses its first point -/
  | older {c'} (hl : c'.list = c.list.map fun s => s.setPoint s.ccfsm.point.tail) (hn : c'.next = c.next)
      (hd : c'.dpCount = c.list.foldl (fun n s => if s.ccfsm.point = [] then n else u32Sub n 1) c.dpCount)
      (hx : c'.destroyed = c.destroyed) : Change c .removeOlder c'
  /-- a send that fails behind the chaining -/
  | chained {e c'} (hl : c'.list = c.list) (hn : c'.next = Chain.relink (ccfsmBlocks c.list) c.next)
      (hd : c'.dpCount = c.dpCount)
      (hx : c'.destroyed = c.destroyed) : Change c (.send e) c'
  /-- a send that succeeds -/
  | sent {e c'} (hl : c'.list = c.list.map fun s => s.setPoint [])
      (hn : c'.next = Chain.relink (ccfsmBlocks c.list) (Chain.relink (ccfsmBlocks c.list) c.next))
      (hd : c'.dpCount = 0)
      (hx : c'.destroyed = c.destroyed) : Change c (.send e) c'
  /-- a clear, or a destroy that came as far as its clear -/
  | cleared {o c'} (ho : (∃ q r, o = .clear q r) ∨ ∃ q r l, o = .destroy q r l)
      (hl : c'.list = c.list.map fun s => { s with released := true }) (hn : c'.next = c.next)
      (hd : c'.dpCount = c.dpCount) : Change c o c'

theorem overList_ok {l : List DataStream} {f : Outcome} {r : Answer × Collection} (h : overList l f = .ok r) :
    firstReleased l = none ∧ f = .ok r := by
  unfold overList at h
  split at h
  · cases h
  · exact ⟨by assumption, h⟩

theorem answer_ok {e : DpError} {c c' : Collection} {a : Answer} (h : answer e c = .ok (a, c')) :
    c' = c ∧ a = { error := e } := by
  simp only [answer, Except.ok.injEq, Prod.mk.injEq] at h
  exact ⟨h.2.symm, h.1.symm⟩

/-- what a stream that is created looks like -/
theorem createStream_some {id : Str} {units forwardTo : Option Str} {args : ℕ × List DpArgument} {m : StreamMemory}
    {l l' : Ledger} {s : DataStream} (h : createStream id units forwardTo args m l = (some s, l')) :
    s.ccfsm.streamId = id ∧ s.ccfsm.point = [] ∧ s.released = false := by
  unfold createStream at h
  repeat' split at h
  all_goals simp only [Prod.mk.injEq, Option.some.injEq, reduceCtorEq, false_and] at h
  obtain ⟨rfl, -⟩ := h
  exact ⟨rfl, rfl, rfl⟩

/-- what a call for a new stream does: it leaves the list, and gives back what it has allocated, or it brings the stream in -/
theorem addStream_cases {a : StreamArgs} {m : StreamMemory} {acquire release : Bool} {c c' : Collection} {ans : Answer}
    (h : addDataStreamToCollectionExtra a m acquire release c = .ok (ans, c')) :
    (checkStreamArgs a ≠ .none ∧ ans = { error := checkStreamArgs a } ∧ c' = c) ∨
    (checkStreamArgs a = .none ∧ ∃ r l,
      getArgListFromFormatString (a.format.getD []) m.formatCopy m.argList c.ledger = (r, l) ∧
        ((∃ e, r = .error e ∧ ans = { error := e } ∧ c' = { c with ledger := l }) ∨
          ∃ args, r = .ok args ∧
            ((∃ e, e ≠ .none ∧ ans = { error := e } ∧ c' = { c with ledger := l.release args.1 }) ∨
              findStreamIdInCollection (a.streamId.getD []) c.list = .ok none ∧
                ∃ t l', createStream (a.streamId.getD []) a.units a.forwardTo args m l = (t, l') ∧
                  ((t = none ∧ ans = { error := finish release .insufficientMemory } ∧ c' = { c with ledger := l' }) ∨
                    ∃ s, t = some s ∧ ans = { error := finish release .none } ∧
                      c' = { c with
                        list := s :: c.list, next := Function.update c.next s.ccfsm.block none, ledger := l' })))) := by
  unfold addDataStreamToCollectionExtra at h
  split at h
  case h_2 e hcheck =>
    obtain ⟨rfl, rfl⟩ := answer_ok h
    exact .inl ⟨hcheck, rfl, rfl⟩
  case h_1 hcheck =>
    refine .inr ⟨hcheck, ?_⟩
    dsimp only at h
    split at h
    case h_1 e l hg =>
      obtain ⟨rfl, rfl⟩ := answer_ok h
      exact ⟨_, l, hg, .inl ⟨e, rfl, rfl, rfl⟩⟩
    case h_2 args l hg =>
      refine ⟨_, l, hg, .inr ⟨args, rfl, ?_⟩⟩
      split at h
      · obtain ⟨rfl, rfl⟩ := answer_ok h
        exact .inl ⟨_, by simp, rfl, rfl⟩
      split at h
      · cases h
      · obtain ⟨rfl, rfl⟩ := answer_ok h
        exact .inl ⟨_, by cases release <;> simp [finish], rfl, rfl⟩
      rename_i hfind
      refine .inr ⟨hfind, ?_⟩
      split at h
      · rename_i l' hs
        obtain ⟨rfl, rfl⟩ := answer_ok h
        exact ⟨none, l', hs, .inl ⟨rfl, rfl, rfl⟩⟩
      · rename_i s l' hs
        obtain ⟨rfl, rfl⟩ := answer_ok h
        exact ⟨some s, l', hs, .inr ⟨s, rfl, rfl, rfl⟩⟩

theorem addStream_change {a : StreamArgs} {m : StreamMemory} {acquire release : Bool} {c c' : Collection} {ans : Answer}
    (h : addDataStreamToCollectionExtra a m acquire release c = .ok (ans, c')) :
    Change c (.addStream a m acquire release) c' := by
  obtain ⟨-, -, rfl⟩ | ⟨-, r, l, -, ⟨e, -, -, rfl⟩ | ⟨args, -, ⟨e, -, -, rfl⟩ | ⟨hfind, t, l', hs, hend⟩⟩⟩ :=
    addStream_cases h
  · exact .kept rfl rfl rfl rfl
  · exact .kept rfl rfl rfl rfl
  · exact .kept rfl rfl rfl rfl
  · obtain ⟨-, -, rfl⟩ | ⟨s, rfl, -, rfl⟩ := hend
    · exact .kept rfl rfl rfl rfl
    · obtain ⟨hid, hp, hr⟩ := createStream_some hs
      exact .stream s (by rw [hid]; exact hfind) hp hr rfl rfl rfl rfl

/-- what the removal of a stream does: nothing, or the loop -/
theorem removeStream_cases {id : Option Str} {acquire release : Bool} {c c' : Collection} {ans : Answer}
    (h : removeDataStreamFromCollection id acquire release c = .ok (ans, c')) :
    c' = c ∨ ∃ i, id = some i ∧ validStreamId (some i) = true ∧ acquire = true ∧ firstReleased c.list = none ∧
      c' = { c with
        list := (removeLoop i false c.list).1
        dpCount := u32Sub c.dpCount ((removeLoop i false c.list).2.map fun s => s.ccfsm.point.length).sum
        ledger := c.ledger.releaseAll ((removeLoop i false c.list).2.flatMap freeCcapiDataStream) } := by
  unfold removeDataStreamFromCollection at h
  split at h
  · exact .inl (answer_ok h).1
  rename_i hv
  split at h
  · exact .inl (answer_ok h).1
  split at h
  · exact .inl (answer_ok h).1
  rename_i hq
  obtain ⟨hf, h⟩ := overList_ok h
  cases id with
  | none => simp [validStreamId] at hv
  | some i => exact .inr ⟨i, rfl, by simpa using hv, by simpa using hq, hf, (answer_ok h).1⟩

theorem removeStream_change {id : Option Str} {acquire release : Bool} {c c' : Collection} {ans : Answer}
    (h : removeDataStreamFromCollection id acquire release c = .ok (ans, c')) :
    Change c (.removeStream id acquire release) c' := by
  obtain rfl | ⟨i, rfl, hv, rfl, hf, rfl⟩ := removeStream_cases h
  · exact .kept rfl rfl rfl rfl
  · exact .removed hv hf rfl rfl rfl rfl

/-- what a call for a point does: nothing, or it comes as far as the creation of the point -/
theorem dpAdd_cases {id : Option Str} {v : VaArgs} {m : PointMemory} {acquire release : Bool} {c c' : Collection}
    {ans : Answer} (h : dpAdd id v m acquire release c = .ok (ans, c')) :
    c' = c ∨ ∃ i s r l, id = some i ∧ findStreamIdInCollection i c.list = .ok (some s) ∧
      createDataPoint s.arguments v m c.ledger = (r, l) ∧
        ((∃ wild, r = .error wild ∧ c' = { c with ledger := l }) ∨
          ∃ p, r = .ok p ∧ c' = { c with
            list := modifyStream i (fun s => s.setPoint (p :: s.ccfsm.point)) c.list
            dpCount := u32 (c.dpCount + 1)
            ledger := l }) := by
  unfold dpAdd at h
  split_ifs at h with hq hv
  · exact .inl (answer_ok h).1
  · exact .inl (answer_ok h).1
  cases id with
  | none => simp [validStreamId] at hv
  | some i =>
    split at h
    · cases h
    · exact .inl (answer_ok h).1
    rename_i s hs
    split at h
    · rename_i wild l hp
      simp only [Except.ok.injEq, Prod.mk.injEq] at h
      exact .inr ⟨i, s, _, l, rfl, hs, hp, .inl ⟨wild, rfl, h.2.symm⟩⟩
    · rename_i p l hp
      exact .inr ⟨i, s, _, l, rfl, hs, hp, .inr ⟨p, rfl, (answer_ok h).1⟩⟩

theorem dpAdd_change {id : Option Str} {v : VaArgs} {m : PointMemory} {acquire release : Bool} {c c' : Collection}
    {ans : Answer} (h : dpAdd id v m acquire release c = .ok (ans, c')) :
    Change c (.addPoint id v m acquire release) c' := by
  obtain rfl | ⟨i, s, r, l, rfl, hs, -, ⟨wild, -, rfl⟩ | ⟨p, -, rfl⟩⟩ := dpAdd_cases h
  · exact .kept rfl rfl rfl rfl
  · exact .kept rfl rfl rfl rfl
  · exact .point s p hs rfl rfl rfl rfl

/-- what a send does: it ends before the list is read, with its record given back, or it hands the list over -/
theorem sendCollection_cases {e : SendEnv} {c c' : Collection} {ans : Answer}
    (h : sendCollection e c = .ok (ans, c')) :
    (ans.handed = none ∧
      (c' = c ∨ c' = { c with ledger := (c.ledger.acquire true).2.release c.ledger.next })) ∨
    (firstReleased c.list = none ∧ ans.handed = some (handed (chainCollectionCcfsmDataStreams c)) ∧
      c' = { (if e.verdict = .none then freeDataPointsFromCollection (chainCollectionCcfsmDataStreams c)
          else chainCollectionCcfsmDataStreams c) with
        ledger := (if e.verdict = .none then
            (c.ledger.acquire true).2.releaseAll (c.list.flatMap fun s => freeDataPointsInDataStream s.ccfsm)
          else (c.ledger.acquire true).2).release c.ledger.next }) := by
  have hquiet : ∀ {x : DpError} {d : Collection}, answer x d = .ok (ans, c') → ans.handed = none ∧ c' = d := by
    intro x d hd
    obtain ⟨rfl, rfl⟩ := answer_ok hd
    exact ⟨rfl, rfl⟩
  unfold sendCollection at h
  split at h
  · exact .inl ⟨(hquiet h).1, .inl (hquiet h).2⟩
  split at h
  · exact .inl ⟨(hquiet h).1, .inl (hquiet h).2⟩
  split at h
  · exact .inl ⟨(hquiet h).1, .inl (hquiet h).2⟩
  cases hm : e.transactionInfo
  · simp only [hm, Ledger.acquire_false] at h
    exact .inl ⟨(hquiet h).1, .inl (hquiet h).2⟩
  simp only [hm, Ledger.acquire_true] at h
  split at h
  · exact .inl ⟨(hquiet h).1, .inr (hquiet h).2⟩
  split at h
  · exact .inl ⟨(hquiet h).1, .inr (hquiet h).2⟩
  obtain ⟨hf, h⟩ := overList_ok h
  simp only [Except.ok.injEq, Prod.mk.injEq] at h
  obtain ⟨rfl, rfl⟩ := h
  refine .inr ⟨hf, rfl, ?_⟩
  split_ifs <;> rfl

theorem sendCollection_change {e : SendEnv} {c c' : Collection} {ans : Answer}
    (h : sendCollection e c = .ok (ans, c')) : Change c (.send e) c' := by
  obtain ⟨-, rfl | rfl⟩ | ⟨-, -, rfl⟩ := sendCollection_cases h
  · exact .kept rfl rfl rfl rfl
  · exact .kept rfl rfl rfl rfl
  · by_cases hv : e.verdict = .none
    · simp only [hv, if_true]
      exact .sent rfl rfl rfl rfl
    · simp only [hv, if_false]
      exact .chained rfl rfl rfl rfl

theorem clearCollection_cases {acquire release : Bool} {c c' : Collection} {ans : Answer}
    (h : clearCollection acquire release c = .ok (ans, c')) :
    (c' = c ∧ ans = { error := .lockFailed }) ∨
      (firstReleased c.list = none ∧ c' = freeCollection c ∧ ans = { error := finish release .none }) := by
  unfold clearCollection at h
  split_ifs at h
  · obtain ⟨hf, h⟩ := overList_ok h
    exact .inr ⟨hf, answer_ok h⟩
  · exact .inl (answer_ok h)

/-- with the lock the list is released, and the record if its lock can be destroyed; without it nothing is -/
theorem destroyCollection_cases {acquire release : Bool} {lock : LockDestroy} {c c' : Collection} {ans : Answer}
    (h : destroyCollection acquire release lock c = .ok (ans, c')) :
    acquire = false ∧ c' = c ∨ firstReleased c.list = none ∧ (c' = freeCollection c ∨
      c' = { freeCollection c with destroyed := true, ledger := (freeCollection c).ledger.release c.block }) := by
  unfold destroyCollection at h
  split at h
  · cases h
  rename_i a d hc
  cases acquire with
  | false =>
    obtain ⟨rfl, rfl⟩ := answer_ok hc
    simp only [ne_eq, reduceCtorEq, not_false_eq_true, if_true, Except.ok.injEq, Prod.mk.injEq] at h
    exact .inl ⟨rfl, h.2.symm⟩
  | true =>
    obtain ⟨hf, hc⟩ := overList_ok hc
    obtain ⟨rfl, rfl⟩ := answer_ok hc
    refine .inr ⟨hf, ?_⟩
    split_ifs at h
    · simp only [Except.ok.injEq, Prod.mk.injEq] at h
      exact .inl h.2.symm
    · split at h
      · exact .inr (answer_ok h).1
      · exact .inl (answer_ok h).1
      · exact .inl (answer_ok h).1

theorem destroyCollection_change {acquire release : Bool} {lock : LockDestroy} {c c' : Collection} {ans : Answer}
    (h : destroyCollection acquire release lock c = .ok (ans, c')) :
    Change c (.destroy acquire release lock) c' := by
  obtain ⟨-, rfl⟩ | ⟨-, rfl | rfl⟩ := destroyCollection_cases h
  · exact .kept rfl rfl rfl rfl
  · exact .cleared (.inr ⟨_, _, _, rfl⟩) rfl rfl rfl
  · exact .cleared (.inr ⟨_, _, _, rfl⟩) rfl rfl rfl

/-- **What an operation can do.** -/
theorem operate_change {c c' : Collection} {o : Op} {ans : Answer} (h : operate c o = .ok (ans, c')) :
    Change c o c' := by
  unfold operate at h
  split_ifs at h
  cases o with
  | null => obtain ⟨rfl, -⟩ := answer_ok h; exact .kept rfl rfl rfl rfl
  | addStream a m acquire release => exact addStream_change h
  | removeStream id acquire release => exact removeStream_change h
  | addPoint id v m acquire release => exact dpAdd_change h
  | removeOlder =>
    obtain ⟨-, h⟩ := overList_ok h
    obtain ⟨rfl, -⟩ := answer_ok h
    exact .older rfl rfl rfl rfl
  | count withCount =>
    simp only [perform, getCollectionPointsCount] at h
    split_ifs at h
    · simp only [Except.ok.injEq, Prod.mk.injEq] at h
      obtain ⟨-, rfl⟩ := h
      exact .kept rfl rfl rfl rfl
    · obtain ⟨rfl, -⟩ := answer_ok h; exact .kept rfl rfl rfl rfl
  | send e => exact sendCollection_change h
  | clear acquire release =>
    rcases clearCollection_cases h with ⟨rfl, -⟩ | ⟨-, rfl, -⟩
    · exact .kept rfl rfl rfl rfl
    · exact .cleared (.inl ⟨_, _, rfl⟩) rfl rfl rfl
  | destroy acquire release lock => exact destroyCollection_change h

theorem step_change (c : Collection) (o : Op) : Change c o (step c o) := by
  unfold step
  split
  · rename_i h
    exact operate_change h
  · exact .kept rfl rfl rfl rfl

/-! ## Who owns which block -/

/-- the blocks of a point -/
def Point.blocks (p : Point) : List ℕ := p.stringBlock.toList ++ p.iso8601Block.toList ++ [p.block]

/-- the blocks of a stream without its points -/
def DataStream.ownBlocks (s : DataStream) : List ℕ := [s.argumentsBlock] ++ freeCcfsmStream s.ccfsm ++ [s.block]

/-- the blocks of a stream and of its points -/
def DataStream.blocks (s : DataStream) : List ℕ := s.ccfsm.point.flatMap Point.blocks ++ s.ownBlocks

theorem setPoint_blocks (s : DataStream) (point : List Point) :
    (s.setPoint point).blocks = point.flatMap Point.blocks ++ s.ownBlocks := rfl

/-- the blocks a collection refers to -/
def Collection.blocks (c : Collection) : List ℕ := c.block :: c.list.flatMap DataStream.blocks

/-- every block the collection refers to is live and referred to once -/
def Holds (c : Collection) : Prop := c.ledger.Owns c.blocks

/-- releasing a point gives back blocks of the point -/
theorem count_freeDataPoint_le (p : Point) (type : Option PointType) (x : ℕ) :
    (freeDataPoint p type).count x ≤ p.blocks.count x := by
  unfold freeDataPoint Point.blocks
  split_ifs <;> cases p.value.time <;> simp only [List.count_append, List.count_nil] <;> omega

theorem count_freeDataPoints_le (s : CcfsmStream) (x : ℕ) :
    (freeDataPointsInDataStream s).count x ≤ (s.point.flatMap Point.blocks).count x :=
  Ledger.count_flatMap_le x fun p _ => count_freeDataPoint_le p s.type x

theorem count_freeCcapiDataStream_le (s : DataStream) (x : ℕ) :
    (freeCcapiDataStream s).count x ≤ s.blocks.count x := by
  have := count_freeDataPoints_le s.ccfsm x
  simp only [freeCcapiDataStream, DataStream.blocks, DataStream.ownBlocks, List.count_append]
  omega

/-- what the failing exit of a point's creation gives back are blocks of the point -/
theorem count_freeCcfsmDataPoint_le (p : Point) (x : ℕ) :
    (p.stringValue.1 ++ p.iso8601String.1 ++ [p.block]).count x ≤ p.blocks.count x := by
  have h1 : p.stringValue.1.count x ≤ p.stringBlock.toList.count x := by
    unfold Point.stringValue
    cases p.value.native <;> simp [asPointer]
  have h2 : p.iso8601String.1.count x ≤ p.iso8601Block.toList.count x := by
    unfold Point.iso8601String
    cases p.value.time <;> simp [asPointer]
  simp only [Point.blocks, List.count_append]
  omega

theorem owns_point {l : Ledger} {p q : Point} {os : List ℕ} (h : l.Owns (p.blocks ++ os))
    (hq : ∀ x, q.blocks.count x ≤ p.blocks.count x) : l.Owns (q.blocks ++ os) := by
  refine h.keep _ fun x => ?_
  have := hq x
  simp only [List.count_append]
  omega

theorem owns_point_acquire {l : Ledger} {p q : Point} {os : List ℕ} (h : l.Owns (p.blocks ++ os))
    (hq : ∀ x, q.blocks.count x ≤ (l.next :: p.blocks).count x) : (l.acquire true).2.Owns (q.blocks ++ os) := by
  refine h.acquire.keep _ fun x => ?_
  have := hq x
  simp only [List.count_append, List.count_cons] at this ⊢
  omega

/-- one turn of the argument loop: what the point refers to is owned before and after -/
theorem parseArgument_owns {v : VaArgs} {m : PointMemory} {p p' : Point} {l l' : Ledger} {a : DpArgument} {ok : Bool}
    {os : List ℕ} (h : l.Owns (p.blocks ++ os)) (hp : parseArgument v m p l a = (ok, p', l')) :
    l'.Owns (p'.blocks ++ os) := by
  cases a
  case dataString | dataJson | dataGeojson =>
    cases hm : m.string
    all_goals
      simp only [parseArgument, hm, Ledger.acquire_true, Ledger.acquire_false, Prod.mk.injEq] at hp
      obtain ⟨-, rfl, rfl⟩ := hp
    · refine owns_point h fun x => ?_
      simp [Point.blocks]
    · refine owns_point_acquire h fun x => ?_
      simp only [Point.blocks, Option.toList_some, List.count_append, List.count_cons, List.count_nil]
      omega
  case tsIso8601 =>
    cases hm : m.iso8601
    all_goals
      simp only [parseArgument, hm, Ledger.acquire_true, Ledger.acquire_false, Prod.mk.injEq] at hp
      obtain ⟨-, rfl, rfl⟩ := hp
    · refine owns_point h fun x => ?_
      simp [Point.blocks]
    · refine owns_point_acquire h fun x => ?_
      simp only [Point.blocks, Option.toList_some, List.count_append, List.count_cons, List.count_nil]
      omega
  all_goals
    simp only [parseArgument, Prod.mk.injEq] at hp
    obtain ⟨-, rfl, rfl⟩ := hp
    exact h

theorem parseArguments_owns {v : VaArgs} {m : PointMemory} {args : List DpArgument} {p p' : Point} {l l' : Ledger}
    {ok : Bool} {os : List ℕ} (h : l.Owns (p.blocks ++ os)) (hp : parseArguments v m p l args = (ok, p', l')) :
    l'.Owns (p'.blocks ++ os) := by
  induction args generalizing p l with
  | nil =>
    simp only [parseArguments, Prod.mk.injEq] at hp
    obtain ⟨-, rfl, rfl⟩ := hp
    exact h
  | cons a args ih =>
    rcases ha : parseArgument v m p l a with ⟨_ | _, q, l1⟩
    · simp only [parseArguments, ha, Prod.mk.injEq] at hp
      obtain ⟨-, rfl, rfl⟩ := hp
      exact parseArgument_owns h ha
    · simp only [parseArguments, ha] at hp
      exact ih (parseArgument_owns h ha) hp

/-- a point that is created owns its blocks; one that is not has given them back -/
theorem createDataPoint_owns {args : List DpArgument} {v : VaArgs} {m : PointMemory} {l l' : Ledger} {os : List ℕ}
    {r : Except (List ℕ) Point} (h : l.Owns os) (hc : createDataPoint args v m l = (r, l')) :
    match r with
    | .ok p => l'.Owns (p.blocks ++ os)
    | .error _ => l'.Owns os := by
  unfold createDataPoint at hc
  cases hm : m.point
  · simp only [hm, Ledger.acquire_false, Prod.mk.injEq] at hc
    obtain ⟨rfl, rfl⟩ := hc
    exact h
  · simp only [hm, Ledger.acquire_true] at hc
    have hnew : (l.acquire true).2.Owns ((newPoint l.next).blocks ++ os) := h.acquire
    rcases hp : parseArguments v m (newPoint l.next) { l with next := l.next + 1 } args with ⟨_ | _, p, l1⟩
    · simp only [hp, Prod.mk.injEq] at hc
      obtain ⟨rfl, rfl⟩ := hc
      refine (parseArguments_owns hnew hp).give _ _ fun x => ?_
      have := count_freeCcfsmDataPoint_le p x
      simp only [List.count_append] at this ⊢
      omega
    · simp only [hp, Prod.mk.injEq] at hc
      obtain ⟨rfl, rfl⟩ := hc
      exact parseArguments_owns hnew hp

/-- the argument list is owned on top of what was owned; without one, what was owned still is -/
theorem getArgList_owns {format : Str} {copyOk listOk : Bool} {l l' : Ledger} {os : List ℕ}
    {r : Except DpError (ℕ × List DpArgument)} (h : l.Owns os)
    (hg : getArgListFromFormatString format copyOk listOk l = (r, l')) :
    match r with
    | .ok args => l'.Owns (args.1 :: os)
    | .error _ => l'.Owns os := by
  have hback : ((l.acquire true).2.release l.next).Owns os := h.acquire.give [l.next] os fun x => by
    simp only [List.count_cons, List.count_nil]
    omega
  unfold getArgListFromFormatString at hg
  cases copyOk
  · simp only [Ledger.acquire_false, Prod.mk.injEq] at hg
    obtain ⟨rfl, rfl⟩ := hg
    exact h
  · simp only [Ledger.acquire_true] at hg
    split at hg
    · simp only [Prod.mk.injEq] at hg
      obtain ⟨rfl, rfl⟩ := hg
      exact hback
    · cases listOk
      · simp only [Ledger.acquire_false, Prod.mk.injEq] at hg
        obtain ⟨rfl, rfl⟩ := hg
        exact hback
      · simp only [Ledger.acquire_true, Prod.mk.injEq] at hg
        obtain ⟨rfl, rfl⟩ := hg
        refine h.acquire.acquire.give [l.next] _ fun x => ?_
        simp only [Ledger.acquire_true, List.count_cons, List.count_nil]
        omega

theorem strdupIf_owns {s : Option Str} {ok : Bool} {l l' : Ledger} {os : List ℕ} {r : Option (Option ℕ)}
    (h : l.Owns os) (hs : strdupIf s ok l = (r, l')) : l'.Owns ((r.getD none).toList ++ os) := by
  cases s with
  | none =>
    simp only [strdupIf, Prod.mk.injEq] at hs
    obtain ⟨rfl, rfl⟩ := hs
    exact h
  | some t =>
    cases ok
    · simp only [strdupIf, Ledger.acquire_false, Prod.mk.injEq] at hs
      obtain ⟨rfl, rfl⟩ := hs
      exact h
    · simp only [strdupIf, Ledger.acquire_true, Prod.mk.injEq] at hs
      obtain ⟨rfl, rfl⟩ := hs
      exact h.acquire

/-- a stream that is created owns its blocks; every failing exit gives back what the call had acquired -/
theorem createStream_owns {id : Str} {units forwardTo : Option Str} {args : ℕ × List DpArgument} {m : StreamMemory}
    {l l' : Ledger} {os : List ℕ} {r : Option DataStream} (h : l.Owns (args.1 :: os))
    (hc : createStream id units forwardTo args m l = (r, l')) :
    match r with
    | some s => l'.Owns (s.blocks ++ os)
    | none => l'.Owns os := by
  unfold createStream at hc
  cases h1 : m.stream
  · simp only [h1, Ledger.acquire_false, Prod.mk.injEq] at hc
    obtain ⟨rfl, rfl⟩ := hc
    refine h.give _ _ fun x => ?_
    simp only [List.count_cons, List.count_nil]
    omega
  simp only [h1, Ledger.acquire_true] at hc
  cases h2 : m.ccfsm
  · simp only [h2, Ledger.acquire_false, Prod.mk.injEq] at hc
    obtain ⟨rfl, rfl⟩ := hc
    refine h.acquire.give _ _ fun x => ?_
    simp only [List.count_cons, List.count_nil]
    omega
  simp only [h2, Ledger.acquire_true] at hc
  cases h3 : m.streamId
  · simp only [h3, Ledger.acquire_false, Prod.mk.injEq] at hc
    obtain ⟨rfl, rfl⟩ := hc
    refine h.acquire.acquire.give _ _ fun x => ?_
    simp only [Ledger.acquire_true, List.count_cons, List.count_nil]
    omega
  simp only [h3, Ledger.acquire_true] at hc
  have hid := h.acquire.acquire.acquire
  simp only [Ledger.acquire_true] at hid
  split at hc
  · rename_i hu
    have := strdupIf_owns hid hu
    simp only [Prod.mk.injEq] at hc
    obtain ⟨rfl, rfl⟩ := hc
    refine this.give _ _ fun x => ?_
    simp only [List.count_append, List.count_cons, List.count_nil]
    omega
  rename_i unit l1 hu
  have hunit := strdupIf_owns hid hu
  split at hc
  · rename_i hf
    have := strdupIf_owns hunit hf
    simp only [Prod.mk.injEq] at hc
    obtain ⟨rfl, rfl⟩ := hc
    refine this.give _ _ fun x => ?_
    simp only [Option.getD_some, List.count_append, List.count_cons, List.count_nil]
    omega
  · rename_i forward l2 hf
    have := strdupIf_owns hunit hf
    simp only [Prod.mk.injEq] at hc
    obtain ⟨rfl, rfl⟩ := hc
    refine this.keep _ fun x => ?_
    simp only [DataStream.blocks, DataStream.ownBlocks, freeCcfsmStream, List.flatMap_nil, Option.getD_some, List.count_append, List.count_cons,
      List.count_nil]
    omega

/-! ## The lists -/

theorem count_removeLoop_le (id : Str) (previous : Bool) (l : List DataStream) (x : ℕ) :
    ((removeLoop id previous l).2.flatMap freeCcapiDataStream).count x +
      ((removeLoop id previous l).1.flatMap DataStream.blocks).count x ≤ (l.flatMap DataStream.blocks).count x := by
  induction l generalizing previous with
  | nil => simp [removeLoop]
  | cons s l ih =>
    have hl := ih true
    have hs := count_freeCcapiDataStream_le s x
    simp only [removeLoop]
    split_ifs <;> simp only [List.flatMap_cons, List.flatMap_nil, List.count_append, List.count_nil] <;> omega

theorem count_modifyStream (id : Str) (p : Point) (l : List DataStream) (x : ℕ) :
    ((modifyStream id (fun s => s.setPoint (p :: s.ccfsm.point)) l).flatMap DataStream.blocks).count x ≤
      p.blocks.count x + (l.flatMap DataStream.blocks).count x := by
  induction l with
  | nil => simp [modifyStream]
  | cons s l ih =>
    have hs : (s.setPoint (p :: s.ccfsm.point)).blocks.count x = p.blocks.count x + s.blocks.count x := by
      rw [setPoint_blocks, DataStream.blocks]
      simp only [List.flatMap_cons, List.count_append]
      omega
    simp only [modifyStream]
    split_ifs
    · simp only [List.flatMap_cons, List.count_append]
      omega
    · simp only [List.flatMap_cons, List.count_append]
      omega

theorem count_older_le (l : List DataStream) (x : ℕ) :
    (l.flatMap olderPoint).count x + ((l.map fun s => s.setPoint s.ccfsm.point.tail).flatMap DataStream.blocks).count x ≤
      (l.flatMap DataStream.blocks).count x := by
  induction l with
  | nil => simp
  | cons s l ih =>
    have hs : (olderPoint s).count x + (s.setPoint s.ccfsm.point.tail).blocks.count x ≤ s.blocks.count x := by
      rw [setPoint_blocks, DataStream.blocks, olderPoint]
      cases s.ccfsm.point with
      | nil => simp
      | cons p ps =>
        have := count_freeDataPoint_le p s.ccfsm.type x
        simp only [List.tail_cons, List.flatMap_cons, List.count_append]
        omega
    simp only [List.map_cons, List.flatMap_cons, List.count_append]
    omega

theorem count_sent_le (l : List DataStream) (x : ℕ) :
    (l.flatMap fun s => freeDataPointsInDataStream s.ccfsm).count x +
      ((l.map fun s => s.setPoint []).flatMap DataStream.blocks).count x ≤ (l.flatMap DataStream.blocks).count x := by
  induction l with
  | nil => simp
  | cons s l ih =>
    have := count_freeDataPoints_le s.ccfsm x
    have hs : (s.setPoint []).blocks.count x + (freeDataPointsInDataStream s.ccfsm).count x ≤ s.blocks.count x := by
      rw [setPoint_blocks, DataStream.blocks]
      simp only [List.flatMap_nil, List.count_append, List.count_nil]
      omega
    simp only [List.map_cons, List.flatMap_cons, List.count_append]
    omega

/-! ## Every operation but a clear keeps the blocks -/

theorem addStream_holds {a : StreamArgs} {m : StreamMemory} {acquire release : Bool} {c c' : Collection} {ans : Answer}
    (hc : Holds c) (h : addDataStreamToCollectionExtra a m acquire release c = .ok (ans, c')) : Holds c' := by
  obtain ⟨-, -, rfl⟩ | ⟨-, r, l, hg, hrest⟩ := addStream_cases h
  · exact hc
  have hargs := getArgList_owns hc hg
  obtain ⟨e, rfl, -, rfl⟩ | ⟨args, rfl, ⟨e, -, -, rfl⟩ | ⟨-, t, l', hs, hend⟩⟩ := hrest
  · exact hargs
  · refine hargs.give [args.1] c.blocks fun x => ?_
    simp only [List.count_cons, List.count_nil]
    omega
  have hstream := createStream_owns hargs hs
  obtain ⟨rfl, -, rfl⟩ | ⟨s, rfl, -, rfl⟩ := hend
  · exact hstream
  · refine hstream.keep _ fun x => ?_
    simp only [Collection.blocks, List.flatMap_cons, List.count_append, List.count_cons]
    omega

theorem removeStream_holds {id : Option Str} {acquire release : Bool} {c c' : Collection} {ans : Answer}
    (hc : Holds c) (h : removeDataStreamFromCollection id acquire release c = .ok (ans, c')) : Holds c' := by
  obtain rfl | ⟨i, -, -, -, -, rfl⟩ := removeStream_cases h
  · exact hc
  refine hc.give _ _ fun x => ?_
  have := count_removeLoop_le i false c.list x
  simp only [Collection.blocks, List.count_cons]
  omega

theorem dpAdd_holds {id : Option Str} {v : VaArgs} {m : PointMemory} {acquire release : Bool} {c c' : Collection}
    {ans : Answer} (hc : Holds c) (h : dpAdd id v m acquire release c = .ok (ans, c')) : Holds c' := by
  obtain rfl | ⟨i, s, r, l, -, -, hp, hend⟩ := dpAdd_cases h
  · exact hc
  have hpoint := createDataPoint_owns hc hp
  obtain ⟨wild, rfl, rfl⟩ | ⟨p, rfl, rfl⟩ := hend
  · exact hpoint
  · refine hpoint.keep _ fun x => ?_
    have := count_modifyStream i p c.list x
    simp only [Collection.blocks, List.count_append, List.count_cons]
    omega

theorem sendCollection_holds {e : SendEnv} {c c' : Collection} {ans : Answer} (hc : Holds c)
    (h : sendCollection e c = .ok (ans, c')) : Holds c' := by
  have hback : ((c.ledger.acquire true).2.release c.ledger.next).Owns c.blocks :=
    hc.acquire.give [c.ledger.next] _ fun x => by
      simp only [List.count_cons, List.count_nil]
      omega
  obtain ⟨-, rfl | rfl⟩ | ⟨-, -, rfl⟩ := sendCollection_cases h
  · exact hc
  · exact hback
  by_cases hv : e.verdict = .none
  · simp only [hv, if_true, freeDataPointsFromCollection, chainCollectionCcfsmDataStreams, Holds, Collection.blocks]
    set sent := c.block :: (c.list.map fun s => s.setPoint []).flatMap DataStream.blocks
    suffices hheld : Ledger.Owns _ (c.ledger.next :: sent) from
      hheld.give [c.ledger.next] sent fun x => by
        simp only [List.count_cons, List.count_nil]
        omega
    refine hc.acquire.give _ _ fun x => ?_
    have := count_sent_le c.list x
    simp only [sent, Collection.blocks, List.count_cons]
    omega
  · simp only [hv, if_false]
    exact hback

/-- an operation that releases the list: a clear, or a destroy that does one -/
def Op.clears : Op → Bool
  | .clear .. | .destroy .. => true
  | _ => false

/-- **Ownership.** Whatever fails, an operation other than a clear leaves every block the collection refers to live and
referred to once, and gives nothing back twice. -/
theorem step_holds (c : Collection) (o : Op) (hc : Holds c) (ho : o.clears = false) : Holds (step c o) := by
  unfold step
  split
  case h_2 => exact hc
  case h_1 ans c' h =>
    unfold operate at h
    split at h
    · cases h
    cases o with
    | null => obtain ⟨rfl, -⟩ := answer_ok h; exact hc
    | addStream a m acquire release => exact addStream_holds hc h
    | removeStream id acquire release => exact removeStream_holds hc h
    | addPoint id v m acquire release => exact dpAdd_holds hc h
    | removeOlder =>
      obtain ⟨-, h⟩ := overList_ok h
      obtain ⟨rfl, -⟩ := answer_ok h
      refine hc.give _ _ fun x => ?_
      have := count_older_le c.list x
      simp only [Collection.blocks, List.count_cons]
      omega
    | count withCount =>
      simp only [perform, getCollectionPointsCount] at h
      split at h
      · simp only [Except.ok.injEq, Prod.mk.injEq] at h
        obtain ⟨-, rfl⟩ := h
        exact hc
      · obtain ⟨rfl, -⟩ := answer_ok h; exact hc
    | send e => exact sendCollection_holds hc h
    | clear acquire release => cases ho
    | destroy acquire release lock => cases ho

theorem holds_new (next : ℕ → Option ℕ) : Holds (newCollection next) := Ledger.owns_empty.acquire

end CcApi.Datapoints
