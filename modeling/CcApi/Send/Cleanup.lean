/-
The end of a send (`finish_send`, `finish_send_ping`, the ends of `ccxapi_send_data_common`, `ccxapi_send_file_common` and
`send_collection`).

A send may end at any of its steps. The end looks into the record to see what there is to clean up: a lock that is not NULL is
destroyed, a file that is marked as sent is closed. Up to the creation of the lock, and for the mark up to the opening of the
file, the record holds what malloc's memory happened to hold. When the record has been freed, the cloud's code is copied out
of it to the caller.

- `Part`: what a send may acquire and its end looks for: its lock, its file, the record itself.
- `Part.Lawful.right_or_wrong`: what the end leaves of a part is decided by the step that acquires it or fails to.
- `code_right_or_wrong`: what the caller gets of the cloud's code is decided by the allocation.
- `clean_iff`: the whole end is clean exactly when the run meets `Careful`.

The build has a file system. An assertion that halts the program, or a wait for the file-system lock, only cuts a run short.
-/
import CcApi.Send.Streaming

namespace CcApi.Send

open Lib Lib.Runs

/-! ## The send and its resources -/

/-- how many records satisfy p, none or one -/
def Block.count (p : Context → Bool) : Block → ℕ
  | .live c => (p c).toNat
  | _ => 0

/-- a send, what it has acquired and released, and what the caller gets of the cloud's code -/
structure Finishing where
  txn : Transaction
  /-- the record is allocated -/
  allocated : Bool
  /-- this call has created its lock -/
  created : Bool
  /-- this call has opened its file -/
  opened : Bool
  destroyed : ℕ
  /-- the calls of `ccapi_close_file` -/
  closed : ℕ
  frees : ℕ
  /-- the freed record has been read -/
  readFreed : Bool
  /-- the response the connector has delivered -/
  response : Option Response
  /-- `error_code_from_server`: `none` for NULL; the record it points to is known or not -/
  errorCode : Option (Option Response)

/-- the calling thread copies the cloud's code out of the record -/
def Finishing.copies (s : Finishing) : Prop :=
  s.txn.stage = .collectionRelease ∧ s.errorCode.isSome = true ∧ s.allocated = true

instance (s : Finishing) : Decidable s.copies := inferInstanceAs (Decidable (_ ∧ _))

/-- the calling thread's next step -/
def Finishing.api (a : Answer) (s : Finishing) : Finishing :=
  let t := s.txn
  { s with
    txn := t.api a
    allocated := if t.stage = .malloc then a.granted else s.allocated
    created := if t.stage = .lockCreate then decide (a.status = .ok) else s.created
    opened := if t.stage = .fileOpen then decide (a.fileResult = .ok) else s.opened
    destroyed := s.destroyed + if t.stage = .lockDestroy then t.context.count Context.hasLock else 0
    closed := s.closed + if t.stage = .fileClose then t.context.count Context.hasFile else 0
    frees := s.frees + if t.stage = .free then t.context.count fun _ => true else 0
    readFreed := s.readFreed || decide s.copies
    -- the record is freed, its memory may hold anything
    errorCode := if s.copies then some a.memory.send.rawResponseError else s.errorCode }

/-- the response that a callback delivers -/
def Transaction.delivers (t : Transaction) (call : Callback) : Option Response :=
  match call with
  | .sendDataResponse r _ => if t.action = .accepted ∧ call.concerns t.call.service then some r else none
  | _ => none

def Finishing.step (s : Finishing) : Op → Finishing
  | .api a => s.api a
  | .callback call => { s with txn := s.txn.callback call, response := (s.txn.delivers call).or s.response }
  | .statusRelease r => { s with txn := s.txn.statusRelease r }

/-- only the sends of data and of files have an `error_code_from_server` -/
def Finishing.begin (call : Call) (errorCode : Option (Option Response)) : Finishing :=
  { txn := Transaction.begin call, allocated := false, created := false, opened := false, destroyed := 0, closed := 0, frees := 0,
    readFreed := false, response := none,
    errorCode := if call.service = .data ∨ call.service = .file then errorCode else none }

/-! ## What a clean end is -/

structure Clean (s : Finishing) : Prop where
  /-- the lock is destroyed exactly when this call has created it -/
  lock : s.destroyed = s.created.toNat
  /-- the file is closed exactly when this call has opened it -/
  file : s.closed = s.opened.toNat
  /-- the record is freed once, if there is one -/
  record : s.frees = s.allocated.toNat
  unread : s.readFreed = false
  /-- the caller gets the code that the connector has delivered, and no other -/
  code : ∀ x, s.errorCode = some x → x = s.response

/-- where the lock is not created, malloc's memory holds NULL for it -/
def LockCareful (s : Finishing) : Op → Prop
  | .api a => s.txn.stage = .lockCreate → a.status ≠ .ok → (s.txn.context.update Context.unlocked).count Context.hasLock = 0
  | _ => True

/-- the step ends the send in front of its file being open -/
def Transaction.failsUnopened (t : Transaction) (a : Answer) : Bool :=
  match t.stage with
  | .lockCreate => a.status ≠ .ok
  | .fileOpen => a.fileResult ≠ .ok
  | .fileStatus => a.fileResult ≠ .ok || a.fileSize = none
  | _ => false

/-- where the file is not open, malloc's memory does not hold the mark of one -/
def FileCareful (s : Finishing) : Op → Prop
  | .api a => s.txn.failsUnopened a → s.txn.context.count Context.hasFile = 0
  | _ => True

/-- no code is asked for by a call that gets its record; where one is asked for, what the caller's own record holds is not
known -/
def CodeCareful (s : Finishing) : Op → Prop
  | .api a =>
    (s.txn.stage = .checkargs → s.txn.call.checkargs ≠ .none → s.errorCode.getD none = none) ∧
      (s.txn.stage = .malloc → if a.granted then s.errorCode = none else s.errorCode.getD none = none)
  | _ => True

instance (s : Finishing) : ∀ o, Decidable (LockCareful s o)
  | .api _ => inferInstanceAs (Decidable (_ → _ → _))
  | .callback _ | .statusRelease _ => inferInstanceAs (Decidable True)

instance (s : Finishing) : ∀ o, Decidable (FileCareful s o)
  | .api _ => inferInstanceAs (Decidable (_ → _))
  | .callback _ | .statusRelease _ => inferInstanceAs (Decidable True)

instance (s : Finishing) : ∀ o, Decidable (CodeCareful s o)
  | .api _ => inferInstanceAs (Decidable (_ ∧ _))
  | .callback _ | .statusRelease _ => inferInstanceAs (Decidable True)

/-! ## How far the end has got -/

/-- 0 in front of the end, then one more for each of its steps -/
def Stage.past : Stage → ℕ
  | .lockDestroy => 1
  | .fileClose => 2
  | .free => 3
  | .collectionRelease => 4
  | .returned => 5
  | _ => 0

/-- how far the record is set up -/
def Stage.rank : Stage → ℕ
  | .checkargs => 0
  | .malloc => 1
  | .lockCreate => 2
  | .fileStatus => 3
  | .fileOpen => 4
  | _ => 5

/-- in front of the allocation -/
def Stage.bare (s : Stage) : Bool := decide (s.rank ≤ 1)

/-- in front of the creation of the lock -/
def Stage.unlocked (s : Stage) : Bool := decide (s.rank ≤ 2)

/-- in front of the opening of the file; a send without one is past it with its lock -/
def Stage.unopened (s : Stage) : Bool := decide (s.rank ≤ 4)

/-- what the end has still to clean up, by what the record holds: its step n does -/
def Transaction.left (n : ℕ) (p : Context → Bool) (t : Transaction) : ℕ := if t.stage.past ≤ n then t.context.count p else 0

/-- the record is what the service has -/
def Context.fits (s : Service) : Context → Prop
  | .send _ => s = .data ∨ s = .file
  | .ping _ => s = .ping
  | .dataPoints _ => s = .dataPoints

/-- what holds of the record whatever the run -/
structure Held (s : Finishing) : Prop where
  bare : s.txn.stage.bare = true → s.allocated = false
  held : s.txn.stage.bare = false → s.txn.stage.past = 0 → s.allocated = true
  nothing : s.allocated = false → s.txn.context = .unallocated ∧ s.txn.action = .none ∧ s.response = none
  live : s.allocated = true → s.txn.stage.past ≤ 3 → s.txn.context.isLive = true
  fits : ∀ c, s.txn.context = .live c → c.fits s.txn.call.service
  file : s.txn.stage = .fileStatus ∨ s.txn.stage = .fileOpen → s.txn.call.service = .file

theorem begin_held (call : Call) (errorCode : Option (Option Response)) : Held (Finishing.begin call errorCode) where
  bare _ := rfl
  held h := by cases h
  nothing _ := ⟨rfl, rfl, rfl⟩
  live h := by cases h
  fits c h := by cases h
  file h := by rcases h with h | h <;> cases h

theorem fits_fresh (m : Memory) (s : Service) : (Context.fresh m s).fits s := by
  cases s <;> simp [Context.fresh, Context.fits]

/-- an operation on the record leaves it what kind of record it is -/
def Keeps (f : Context → Context) : Prop := ∀ s c, Context.fits s c → (f c).fits s

theorem keeps_id : Keeps id := fun _ _ h => h

theorem keeps_locked (call : Call) : Keeps (Context.locked call) := by
  intro s c h
  cases c with
  | send b =>
    simp only [Context.locked]
    split_ifs <;> exact h
  | ping b | dataPoints b => exact h

theorem keeps_unlocked : Keeps Context.unlocked := fun _ c h => by cases c <;> exact h

theorem keeps_sized (n : ℕ) : Keeps (Context.sized n) := fun _ c h => by cases c <;> exact h

theorem keeps_opened (n : ℕ) : Keeps (Context.opened n) := fun _ c h => by cases c <;> exact h

theorem keeps_apply (call : Callback) : Keeps call.apply := fun _ c h => by cases call <;> cases c <;> exact h

@[simp] theorem update_id (b : Block) : b.update id = b := by cases b <;> rfl

/-- a step on, with the record there or not -/
structure Onward (s s' : Finishing) : Prop where
  call : s'.txn.call = s.txn.call
  allocated : s'.allocated = s.allocated
  response : s.allocated = false → s'.response = s.response
  action : s.allocated = false → s'.txn.action = s.txn.action
  context : ∃ f, Keeps f ∧ s'.txn.context = s.txn.context.update f

theorem Held.onward {s s' : Finishing} (h : Held s) (ho : Onward s s')
    (hbare : s'.txn.stage.bare = true → s.txn.stage.bare = true)
    (hheld : s'.txn.stage.bare = false → s'.txn.stage.past = 0 → s.txn.stage.bare = false ∧ s.txn.stage.past = 0)
    (hpast : s'.txn.stage.past ≤ 3 → s.txn.stage.past ≤ 3)
    (hfile : s'.txn.stage = .fileStatus ∨ s'.txn.stage = .fileOpen → s.txn.call.service = .file) : Held s' := by
  obtain ⟨f, hf, hctx⟩ := ho.context
  refine ⟨fun hb => ?_, fun hb hp => ?_, fun hn => ?_, fun ha hp => ?_, fun c hc => ?_, fun hs => ?_⟩
  · rw [ho.allocated]
    exact h.bare (hbare hb)
  · rw [ho.allocated]
    exact h.held (hheld hb hp).1 (hheld hb hp).2
  · rw [ho.allocated] at hn
    obtain ⟨hnone, haction, hresponse⟩ := h.nothing hn
    exact ⟨by rw [hctx, hnone]; rfl, (ho.action hn).trans haction, (ho.response hn).trans hresponse⟩
  · rw [ho.allocated] at ha
    rw [hctx, isLive_update]
    exact h.live ha (hpast hp)
  · rw [hctx] at hc
    cases hb : s.txn.context with
    | live b =>
      rw [hb] at hc
      obtain rfl := Block.live.inj hc
      rw [ho.call]
      exact hf _ b (h.fits b hb)
    | unallocated | freed => rw [hb] at hc; cases hc
  · rw [ho.call]
    exact hfile hs

/-! ### The calling thread -/

/-- what the calling thread's step does to the record, other than to allocate and to free it -/
def Transaction.touch (t : Transaction) (a : Answer) : Context → Context :=
  match t.stage with
  | .lockCreate => if a.status = .ok then Context.locked t.call else Context.unlocked
  | .fileStatus =>
    match a.fileResult, a.fileSize with
    | .ok, some size => Context.sized size
    | _, _ => id
  | .fileOpen => if a.fileResult = .ok then Context.opened a.handler else id
  | _ => id

theorem keeps_touch (t : Transaction) (a : Answer) : Keeps (t.touch a) := by
  unfold Transaction.touch
  split
  · split_ifs
    · exact keeps_locked t.call
    · exact keeps_unlocked
  · split
    · exact keeps_sized _
    · exact keeps_id
  · split_ifs
    · exact keeps_opened _
    · exact keeps_id
  · exact keeps_id

@[simp] theorem initiated_context (c : ConnectorStatus) (t : Transaction) : (t.initiated c).context = t.context := by
  cases c <;> rfl

@[simp] theorem wake_context (a : Answer) (t : Transaction) : (t.wake a).context = t.context := by
  unfold Transaction.wake
  repeat' split
  all_goals rfl

theorem api_context (a : Answer) {t : Transaction} (hm : t.stage ≠ .malloc) (hf : t.stage ≠ .free) :
    (t.api a).context = t.context.update (t.touch a) := by
  unfold Transaction.api Transaction.touch
  cases hs : t.stage with
  | malloc => exact absurd hs hm
  | free => exact absurd hs hf
  | lockCreate =>
    dsimp only
    split_ifs <;> rfl
  | fileOpen =>
    dsimp only
    split_ifs
    · rfl
    · exact (update_id _).symm
  | fileStatus =>
    dsimp only
    cases a.fileResult <;> cases a.fileSize <;> first | rfl | exact (update_id _).symm
  | _ =>
    dsimp only
    repeat' split
    all_goals simp [Transaction.fail]

/-- **The order of the end.** In front of it a step at most begins it; from there on each step is the next one of the end. -/
theorem api_past (a : Answer) (t : Transaction) :
    (t.stage.past = 0 → (t.api a).stage.past ≤ 1) ∧ (0 < t.stage.past → (t.api a).stage.past = min (t.stage.past + 1) 5) := by
  have hinitiated (c : ConnectorStatus) : (t.initiated c).stage.past ≤ 1 := by cases c <;> simp [Transaction.initiated, Transaction.fail, Stage.past]
  unfold Transaction.api
  cases hs : t.stage with
  | lockDestroy | fileClose | free | collectionRelease | returned => simp [Stage.past, hs]
  | lockCreate =>
    refine ⟨fun _ => ?_, fun hpos => absurd hpos (lt_irrefl 0)⟩
    dsimp only
    split_ifs
    · cases h : t.call.service <;> simp [Transaction.setupStage, Stage.past]
    · simp [Transaction.fail, Stage.past]
  | initiateAcquire | initiateRelease =>
    refine ⟨fun _ => ?_, fun hpos => absurd hpos (lt_irrefl 0)⟩
    dsimp only
    split_ifs <;> first | exact hinitiated _ | exact Nat.zero_le _
  | wait =>
    refine ⟨fun _ => ?_, fun hpos => absurd hpos (lt_irrefl 0)⟩
    dsimp only
    unfold Transaction.wake
    split_ifs
    · exact le_refl 1
    · split <;> exact le_refl 1
    · rw [hs]
      exact Nat.zero_le _
  | _ =>
    refine ⟨fun _ => ?_, fun hpos => absurd hpos (lt_irrefl 0)⟩
    dsimp only
    repeat' split
    all_goals simp [Transaction.fail, Stage.past]

/-- what the end has still to clean up: a step that leaves the record in this respect alone keeps it, but for the step of the
end that does it -/
theorem left_api (a : Answer) {t : Transaction} {n : ℕ} {p : Context → Bool} (hn : 1 ≤ n ∧ n ≤ 3) (hm : t.stage ≠ .malloc)
    (hp : (t.context.update (t.touch a)).count p = t.context.count p) :
    (t.api a).left n p + (if t.stage.past = n then t.context.count p else 0) = t.left n p := by
  obtain ⟨hzero, hpos⟩ := api_past a t
  have hsame (hf : t.stage ≠ .free) : (t.api a).context.count p = t.context.count p := by rw [api_context a hm hf, hp]
  have hearlier (hlt : t.stage.past < 3) : t.stage ≠ .free := fun hf => by
    rw [hf] at hlt
    exact absurd hlt (by decide)
  unfold Transaction.left
  rcases Nat.eq_zero_or_pos t.stage.past with hpast | hpast
  · -- in front of the end
    have hle := hzero hpast
    rw [if_pos (by omega), if_neg (by omega), if_pos (by omega), hsame (hearlier (by omega))]
    rfl
  · have hnext := hpos hpast
    rcases lt_trichotomy t.stage.past n with hlt | heq | hgt
    · rw [if_pos (by omega), if_neg (by omega), if_pos (by omega), hsame (hearlier (by omega))]
      rfl
    · rw [if_neg (by omega), if_pos heq, if_pos (by omega), Nat.zero_add]
    · rw [if_neg (by omega), if_neg (by omega), if_neg (by omega)]

theorem rank_setupStage (s : Service) : 3 ≤ (Transaction.setupStage s).rank := by cases s <;> decide

/-- the set-up goes one way -/
theorem api_rank (a : Answer) (t : Transaction) : t.stage.rank ≤ (t.api a).stage.rank := by
  have hinitiated (c : ConnectorStatus) : (t.initiated c).stage.rank = 5 := by cases c <;> rfl
  unfold Transaction.api
  cases hs : t.stage with
  | lockCreate =>
    dsimp only
    split_ifs
    · exact (by decide : 2 ≤ 3).trans (rank_setupStage _)
    · simp [Transaction.fail, Stage.rank]
  | wait =>
    dsimp only
    unfold Transaction.wake
    split_ifs
    · exact le_refl 5
    · split <;> exact le_refl 5
    · rw [hs]
  | initiateAcquire | initiateRelease =>
    dsimp only
    split_ifs <;> first | exact (hinitiated _).ge | exact le_refl 5
  | _ =>
    dsimp only
    repeat' split
    all_goals simp [Transaction.fail, Stage.rank, hs]

theorem api_checkargs (a : Answer) {t : Transaction} (h : t.stage = .checkargs) :
    (t.api a).stage = .malloc ∨ (t.api a).stage = .lockDestroy := by
  simp only [Transaction.api, h]
  split
  · exact .inl rfl
  · exact .inr rfl

/-- only a send of a file gets to its file -/
theorem api_file {a : Answer} {t : Transaction} (h : (t.api a).stage = .fileStatus ∨ (t.api a).stage = .fileOpen) :
    (t.stage = .lockCreate ∧ t.call.service = .file) ∨ t.stage = .fileStatus := by
  have hinitiated (c : ConnectorStatus) : (t.initiated c).stage ≠ .fileStatus ∧ (t.initiated c).stage ≠ .fileOpen := by
    cases c <;> exact ⟨nofun, nofun⟩
  have hwake (hs : t.stage = .wait) : (t.wake a).stage ≠ .fileStatus ∧ (t.wake a).stage ≠ .fileOpen := by
    unfold Transaction.wake
    split_ifs
    · exact ⟨nofun, nofun⟩
    · split <;> exact ⟨nofun, nofun⟩
    · rw [hs]
      exact ⟨nofun, nofun⟩
  unfold Transaction.api at h
  cases hs : t.stage with
  | fileStatus => exact .inr rfl
  | lockCreate =>
    refine .inl ⟨rfl, ?_⟩
    simp only [hs] at h
    cases hservice : t.call.service <;> split_ifs at h <;> simp_all [Transaction.setupStage, Transaction.fail]
  | wait => simp [hs, hwake hs] at h
  | _ =>
    simp only [hs] at h
    repeat' split at h
    all_goals simp_all [Transaction.fail]

/-! ## One step and the record -/

theorem api_held {s : Finishing} (h : Held s) (a : Answer) : Held (s.api a) := by
  by_cases hm : s.txn.stage = .malloc
  · have hnothing := h.nothing (h.bare (by rw [hm]; rfl))
    have hallocated : (s.api a).allocated = a.granted := if_pos hm
    have htxn : (s.api a).txn = if a.granted then
        { s.txn with context := .live (Context.fresh a.memory s.txn.call.service), stage := .lockCreate }
        else s.txn.fail .insufficientMemory := by
      simp only [Finishing.api, Transaction.api, hm]
    cases hg : a.granted with
    | true =>
      rw [hg, if_pos rfl] at htxn
      refine ⟨fun hb => ?_, fun _ _ => by rw [hallocated, hg], fun hn => ?_, fun _ _ => ?_, fun c hc => ?_, fun hs => ?_⟩
      · rw [htxn] at hb
        cases hb
      · rw [hallocated, hg] at hn
        cases hn
      · rw [htxn]
        rfl
      · rw [htxn] at hc ⊢
        obtain rfl := Block.live.inj hc
        exact fits_fresh _ _
      · rw [htxn] at hs
        rcases hs with hs | hs <;> cases hs
    | false =>
      rw [hg, if_neg (by decide)] at htxn
      refine ⟨fun _ => by rw [hallocated, hg], fun _ hp => ?_, fun _ => ?_, fun ha => ?_, fun c hc => ?_, fun hs => ?_⟩
      · rw [htxn] at hp
        cases hp
      · rw [htxn]
        exact hnothing
      · rw [hallocated, hg] at ha
        cases ha
      · rw [htxn, Transaction.fail, hnothing.1] at hc
        cases hc
      · rw [htxn] at hs
        rcases hs with hs | hs <;> cases hs
  · have hallocated : (s.api a).allocated = s.allocated := if_neg hm
    obtain ⟨hzero, hpos⟩ := api_past a s.txn
    by_cases hf : s.txn.stage = .free
    · have htxn : (s.api a).txn =
          { s.txn with context := if s.txn.context.isLive then .freed else s.txn.context, stage := .collectionRelease } := by
        simp only [Finishing.api, Transaction.api, hf]
      refine ⟨fun hb => ?_, fun _ hp => ?_, fun hn => ?_, fun _ hp => ?_, fun c hc => ?_, fun hs => ?_⟩
      · rw [htxn] at hb
        cases hb
      · rw [htxn] at hp
        cases hp
      · rw [hallocated] at hn
        obtain ⟨hnone, haction, hresponse⟩ := h.nothing hn
        rw [htxn]
        exact ⟨by simp [hnone, Block.isLive], haction, hresponse⟩
      · rw [htxn] at hp
        exact absurd hp (by simp [Stage.past])
      · rw [htxn] at hc
        dsimp only at hc
        split_ifs at hc with hlive
        simp [hc, Block.isLive] at hlive
      · rw [htxn] at hs
        rcases hs with hs | hs <;> cases hs
    · refine h.onward ⟨api_call a s.txn, hallocated, fun _ => rfl, fun hn => api_action a fun hi => ?_,
        s.txn.touch a, keeps_touch s.txn a, api_context a hm hf⟩ (fun hb => ?_) (fun hb hp => ?_) (fun hp => ?_) fun hs => ?_
      · rw [h.held (by rw [hi]; rfl) (by rw [hi]; rfl)] at hn
        cases hn
      · exact decide_eq_true ((api_rank a s.txn).trans (of_decide_eq_true hb))
      · have hpast : s.txn.stage.past = 0 := by
          by_contra hne
          have hnext := hpos (by omega)
          change (s.txn.api a).stage.past = 0 at hp
          omega
        refine ⟨?_, hpast⟩
        by_contra hbare
        have hcheck : s.txn.stage = .checkargs := by
          cases hs : s.txn.stage <;> simp_all [Stage.bare, Stage.rank]
        change (s.txn.api a).stage.bare = false at hb
        change (s.txn.api a).stage.past = 0 at hp
        rcases api_checkargs a hcheck with hs | hs
        · rw [hs] at hb
          cases hb
        · rw [hs] at hp
          cases hp
      · change (s.txn.api a).stage.past ≤ 3 at hp
        by_contra hgt
        have hnext := hpos (by omega)
        omega
      · rcases api_file hs with ⟨-, hservice⟩ | hstatus
        · exact hservice
        · exact h.file (.inl hstatus)

/-- a callback and the end of the status handler leave the calling thread where it is -/
theorem callback_onward (s : Finishing) (h : Held s) (call : Callback) :
    Onward s (s.step (.callback call)) ∧ (s.step (.callback call)).txn.stage = s.txn.stage := by
  by_cases hc : s.txn.action = .accepted ∧ call.concerns s.txn.call.service
  · have htxn : (s.step (.callback call)).txn = s.txn.callback call := rfl
    have hallocated : s.allocated ≠ false := fun hn => absurd (hc.1.symm.trans (h.nothing hn).2.1) (by decide)
    rw [callback_eq hc] at htxn
    exact ⟨⟨by rw [htxn], rfl, fun hn => absurd hn hallocated, fun hn => absurd hn hallocated, call.apply, keeps_apply call,
      by rw [htxn]⟩, by rw [htxn]⟩
  · have htxn : (s.step (.callback call)).txn = s.txn := if_neg hc
    have hresponse : (s.step (.callback call)).response = s.response := by
      have hnone : s.txn.delivers call = none := by
        cases call with
        | sendDataResponse r hint => exact if_neg hc
        | _ => rfl
      simp [Finishing.step, hnone]
    exact ⟨⟨by rw [htxn], rfl, fun _ => hresponse, fun _ => by rw [htxn], id, keeps_id, by rw [htxn, update_id]⟩, by rw [htxn]⟩

theorem statusRelease_onward (s : Finishing) (h : Held s) (r : CcimpStatus) :
    Onward s (s.step (.statusRelease r)) ∧ (s.step (.statusRelease r)).txn.stage = s.txn.stage := by
  by_cases hc : s.txn.action = .finishing
  · have htxn : (s.step (.statusRelease r)).txn = s.txn.statusRelease r := rfl
    have hallocated : s.allocated ≠ false := fun hn => absurd (hc.symm.trans (h.nothing hn).2.1) (by decide)
    simp only [Transaction.statusRelease, if_pos hc] at htxn
    exact ⟨⟨by rw [htxn], rfl, fun _ => rfl, fun hn => absurd hn hallocated, id, keeps_id, by rw [htxn, update_id]⟩,
      by rw [htxn]⟩
  · have htxn : (s.step (.statusRelease r)).txn = s.txn := if_neg hc
    exact ⟨⟨by rw [htxn], rfl, fun _ => rfl, fun _ => by rw [htxn], id, keeps_id, by rw [htxn, update_id]⟩, by rw [htxn]⟩

theorem Held.still {s s' : Finishing} (h : Held s) (ho : Onward s s') (hs : s'.txn.stage = s.txn.stage) : Held s' :=
  h.onward ho (by rw [hs]; exact id) (fun hb hp => by rw [hs] at hb hp; exact ⟨hb, hp⟩) (by rw [hs]; exact id)
    (by rw [hs]; exact h.file)

/-- **One step.** -/
theorem step_held {s : Finishing} (h : Held s) (o : Op) : Held (s.step o) := by
  cases o with
  | api a => exact api_held h a
  | callback call => exact h.still (callback_onward s h call).1 (callback_onward s h call).2
  | statusRelease r => exact h.still (statusRelease_onward s h r).1 (statusRelease_onward s h r).2

/-! ## The lock, the file and the record -/

/-- something that a send may acquire, and that its end looks for -/
structure Part where
  /-- in front of its acquisition -/
  before : Stage → Bool
  /-- the record says that it is there -/
  holds : Context → Bool
  /-- the step of the end that cleans it up -/
  cleans : Stage
  acquired : Finishing → Bool
  released : Finishing → ℕ

namespace Part

def lock : Part := ⟨Stage.unlocked, Context.hasLock, .lockDestroy, Finishing.created, Finishing.destroyed⟩

def file : Part := ⟨Stage.unopened, Context.hasFile, .fileClose, Finishing.opened, Finishing.closed⟩

/-- the record itself -/
def record : Part := ⟨Stage.bare, fun _ => true, .free, Finishing.allocated, Finishing.frees⟩

/-- what has been cleaned up and what the record still asks for -/
def due (p : Part) (s : Finishing) : ℕ := p.released s + s.txn.left p.cleans.past p.holds

/-- nothing is acquired yet, or what is acquired is what is due -/
def Right (p : Part) (s : Finishing) : Prop :=
  if p.before s.txn.stage then p.acquired s = false ∧ p.released s = 0 else p.due s = (p.acquired s).toNat

def Wrong (p : Part) (s : Finishing) : Prop := p.before s.txn.stage = false ∧ p.due s ≠ (p.acquired s).toNat

/-- what the parts' set-up and end have in common -/
structure Lawful (p : Part) : Prop where
  cleans : 1 ≤ p.cleans.past ∧ p.cleans.past ≤ 3
  step : ∀ st : Stage, st.past = p.cleans.past ↔ st = p.cleans
  malloc : p.before .malloc = true
  onward : ∀ (t : Transaction) (a : Answer), p.before t.stage = false → p.before (t.api a).stage = false
  /-- behind its acquisition nothing but the end changes anything -/
  touch : ∀ (t : Transaction) (a : Answer) (c : Context), p.before t.stage = false → p.holds (t.touch a c) = p.holds c
  acquired : ∀ (s : Finishing) (a : Answer), p.before s.txn.stage = false → p.acquired (s.api a) = p.acquired s
  released : ∀ (s : Finishing) (a : Answer), p.released (s.api a) =
    p.released s + if s.txn.stage = p.cleans then s.txn.context.count p.holds else 0
  /-- the connector acquires and releases nothing -/
  apply : ∀ (call : Callback) (c : Context), p.holds (call.apply c) = p.holds c
  callback : ∀ (s : Finishing) (call : Callback),
    p.acquired (s.step (.callback call)) = p.acquired s ∧ p.released (s.step (.callback call)) = p.released s
  statusRelease : ∀ (s : Finishing) (r : CcimpStatus),
    p.acquired (s.step (.statusRelease r)) = p.acquired s ∧ p.released (s.step (.statusRelease r)) = p.released s

end Part

theorem request_keeps (avail : ℕ) (read : Read) (c : SvcSend) :
    (processSendDataRequest avail read c).2.2.sendLock = c.sendLock ∧
      (processSendDataRequest avail read c).2.2.sendingFile = c.sendingFile := by
  rw [processSendDataRequest_eq]
  split_ifs <;> exact ⟨rfl, rfl⟩

@[simp] theorem hasLock_apply (call : Callback) (c : Context) : (call.apply c).hasLock = c.hasLock := by
  cases call <;> cases c <;> first | rfl | exact (request_keeps _ _ _).1

@[simp] theorem hasFile_apply (call : Callback) (c : Context) : (call.apply c).hasFile = c.hasFile := by
  cases call <;> cases c <;> first | rfl | exact (request_keeps _ _ _).2

theorem touch_hasLock {t : Transaction} {a : Answer} {c : Context} (h : t.stage ≠ .lockCreate) :
    (t.touch a c).hasLock = c.hasLock := by
  unfold Transaction.touch
  cases hs : t.stage with
  | lockCreate => exact absurd hs h
  | fileStatus =>
    dsimp only
    cases a.fileResult <;> cases a.fileSize <;> cases c <;> rfl
  | fileOpen =>
    dsimp only
    split_ifs
    · cases c <;> rfl
    · rfl
  | _ => rfl

theorem touch_opened {t : Transaction} {a : Answer} (h : t.stage.unopened = false) : t.touch a = id := by
  unfold Transaction.touch
  cases hs : t.stage with
  | lockCreate | fileStatus | fileOpen =>
    rw [hs] at h
    cases h
  | _ => rfl

theorem lawful_lock : Part.lock.Lawful where
  cleans := by decide
  step st := by cases st <;> simp [Part.lock, Stage.past]
  malloc := rfl
  onward t a h := decide_eq_false fun hle => of_decide_eq_false h ((api_rank a t).trans hle)
  touch t a c h := touch_hasLock fun hs => by
    rw [hs] at h
    cases h
  acquired s a h := if_neg fun hs => by
    rw [hs] at h
    cases h
  released _ _ := rfl
  apply := hasLock_apply
  callback _ _ := ⟨rfl, rfl⟩
  statusRelease _ _ := ⟨rfl, rfl⟩

theorem lawful_file : Part.file.Lawful where
  cleans := by decide
  step st := by cases st <;> simp [Part.file, Stage.past]
  malloc := rfl
  onward t a h := decide_eq_false fun hle => of_decide_eq_false h ((api_rank a t).trans hle)
  touch t a c h := by
    rw [touch_opened h]
    rfl
  acquired s a h := if_neg fun hs => by
    rw [hs] at h
    cases h
  released _ _ := rfl
  apply := hasFile_apply
  callback _ _ := ⟨rfl, rfl⟩
  statusRelease _ _ := ⟨rfl, rfl⟩

theorem lawful_record : Part.record.Lawful where
  cleans := by decide
  step st := by cases st <;> simp [Part.record, Stage.past]
  malloc := rfl
  onward t a h := decide_eq_false fun hle => of_decide_eq_false h ((api_rank a t).trans hle)
  touch _ _ _ _ := rfl
  acquired s a h := if_neg fun hs => by
    rw [hs] at h
    cases h
  released _ _ := rfl
  apply _ _ := rfl
  callback _ _ := ⟨rfl, rfl⟩
  statusRelease _ _ := ⟨rfl, rfl⟩

theorem count_update {p : Context → Bool} {f : Context → Context} (h : ∀ c, p (f c) = p c) (b : Block) :
    (b.update f).count p = b.count p := by
  cases b with
  | live c => simp [Block.update, Block.count, h]
  | unallocated | freed => rfl

/-! ### From the acquisition to the end -/

@[simp] theorem step_api (s : Finishing) (a : Answer) : s.step (.api a) = s.api a := rfl

/-- a step of the connector -/
def Op.quiet : Op → Bool
  | .api _ => false
  | _ => true

namespace Part.Lawful

variable {p : Part} (hp : p.Lawful) {s : Finishing}
include hp

theorem quiet {o : Op} (ho : o.quiet = true) :
    (s.step o).txn.stage = s.txn.stage ∧ p.acquired (s.step o) = p.acquired s ∧ p.released (s.step o) = p.released s ∧
      p.due (s.step o) = p.due s := by
  have htxn : (s.step o).txn.stage = s.txn.stage ∧ (s.step o).txn.context.count p.holds = s.txn.context.count p.holds := by
    cases o with
    | api a => cases ho
    | callback call =>
      simp only [Finishing.step, Transaction.callback]
      by_cases hc : s.txn.action = .accepted ∧ call.concerns s.txn.call.service
      · rw [if_pos hc]
        exact ⟨rfl, count_update (hp.apply call) _⟩
      · rw [if_neg hc]
        exact ⟨rfl, rfl⟩
    | statusRelease r =>
      simp only [Finishing.step, Transaction.statusRelease]
      split_ifs <;> exact ⟨rfl, rfl⟩
  have hsame : p.acquired (s.step o) = p.acquired s ∧ p.released (s.step o) = p.released s := by
    cases o with
    | api a => cases ho
    | callback call => exact hp.callback s call
    | statusRelease r => exact hp.statusRelease s r
  exact ⟨htxn.1, hsame.1, hsame.2, by simp only [Part.due, Transaction.left, hsame.2, htxn.1, htxn.2]⟩

theorem after (h : p.before s.txn.stage = false) (a : Answer) :
    p.before (s.api a).txn.stage = false ∧ p.acquired (s.api a) = p.acquired s ∧ p.due (s.api a) = p.due s := by
  refine ⟨hp.onward s.txn a h, hp.acquired s a h, ?_⟩
  have hm : s.txn.stage ≠ .malloc := fun hm => by
    rw [hm, hp.malloc] at h
    cases h
  have hleft := left_api a hp.cleans hm (count_update (fun c => hp.touch s.txn a c h) s.txn.context)
  unfold Part.due
  rw [hp.released s a]
  simp only [hp.step] at hleft
  change _ + (s.txn.api a).left _ _ = _
  omega

/-- what is right about a part stays so behind its acquisition -/
theorem right_after (hb : p.before s.txn.stage = false) (h : p.Right s) (a : Answer) : p.Right (s.api a) := by
  obtain ⟨hbefore, hacquired, hdue⟩ := hp.after hb a
  unfold Part.Right at h ⊢
  rw [hb, if_neg (by decide)] at h
  rwa [hbefore, if_neg (by decide), hacquired, hdue]

theorem right_quiet (h : p.Right s) {o : Op} (ho : o.quiet = true) : p.Right (s.step o) := by
  obtain ⟨hstage, hacquired, hreleased, hdue⟩ := hp.quiet (s := s) ho
  unfold Part.Right at h ⊢
  rwa [hstage, hacquired, hreleased, hdue]

/-- what is wrong stays wrong -/
theorem wrong_step (h : p.Wrong s) (o : Op) : p.Wrong (s.step o) := by
  obtain ⟨hb, hdue⟩ := h
  have hquiet (ho : o.quiet = true) : p.Wrong (s.step o) := by
    obtain ⟨hstage, hacquired, -, hsame⟩ := hp.quiet (s := s) ho
    exact ⟨by rw [hstage, hb], by rwa [hsame, hacquired]⟩
  cases o with
  | api a =>
    obtain ⟨hbefore, hacquired, hsame⟩ := hp.after hb a
    rw [step_api]
    exact ⟨hbefore, by rwa [hsame, hacquired]⟩
  | callback call => exact hquiet rfl
  | statusRelease r => exact hquiet rfl

end Part.Lawful

/-- the step that acquires the part, or ends the send in front of that: C says when it leaves the record right -/
def Part.Decides (p : Part) (C : Finishing → Op → Prop) : Prop :=
  ∀ (s : Finishing) (a : Answer), Held s → p.before s.txn.stage = true → p.acquired s = false → p.released s = 0 →
    (p.before (s.api a).txn.stage = true ∧ p.acquired (s.api a) = false ∧ p.released (s.api a) = 0 ∧ C s (.api a)) ∨
      (p.before (s.api a).txn.stage = false ∧ (p.due (s.api a) = (p.acquired (s.api a)).toNat ↔ C s (.api a)))

theorem Part.Decides.step {p : Part} {C : Finishing → Op → Prop} (hC : p.Decides C) {s : Finishing} (hs : Held s)
    (hb : p.before s.txn.stage = true) (h : p.Right s) (a : Answer) :
    (C s (.api a) → p.Right (s.api a)) ∧ (¬ C s (.api a) → p.Wrong (s.api a)) := by
  unfold Part.Right at h ⊢
  rw [hb, if_pos rfl] at h
  rcases hC s a hs hb h.1 h.2 with ⟨hbefore, hacquired, hreleased, hmeets⟩ | ⟨hbefore, hiff⟩
  · rw [hbefore, if_pos rfl]
    exact ⟨fun _ => ⟨hacquired, hreleased⟩, fun hnot => absurd hmeets hnot⟩
  · rw [hbefore, if_neg (by decide)]
    exact ⟨hiff.2, fun hnot => ⟨hbefore, fun hdue => hnot (hiff.1 hdue)⟩⟩

/-- **A part at the end.** A run that meets C ends with the part right, any other with the part wrong. -/
theorem Part.Lawful.right_or_wrong {p : Part} (hp : p.Lawful) {C : Finishing → Op → Prop} (hC : p.Decides C)
    (hfree : ∀ s o, p.before s.txn.stage = false ∨ o.quiet = true → C s o) {s : Finishing} (hs : Held s) (h : p.Right s)
    (ops : List Op) :
    (Along Finishing.step C s ops ∧ p.Right (run Finishing.step s ops)) ∨
      (¬ Along Finishing.step C s ops ∧ p.Wrong (run Finishing.step s ops)) := by
  have hgood (s : Finishing) (o : Op) (h : Held s ∧ p.Right s) (hc : C s o) : Held (s.step o) ∧ p.Right (s.step o) := by
    refine ⟨step_held h.1 o, ?_⟩
    cases o with
    | api a =>
      rw [step_api]
      cases hb : p.before s.txn.stage with
      | true => exact (hC.step h.1 hb h.2 a).1 hc
      | false => exact hp.right_after hb h.2 a
    | callback call => exact hp.right_quiet h.2 rfl
    | statusRelease r => exact hp.right_quiet h.2 rfl
  have hbad (s : Finishing) (o : Op) (h : Held s ∧ p.Right s) (hc : ¬ C s o) : p.Wrong (s.step o) := by
    cases o with
    | api a =>
      rw [step_api]
      cases hb : p.before s.txn.stage with
      | true => exact (hC.step h.1 hb h.2 a).2 hc
      | false => exact absurd (hfree s _ (.inl hb)) hc
    | callback call => exact absurd (hfree s _ (.inr rfl)) hc
    | statusRelease r => exact absurd (hfree s _ (.inr rfl)) hc
  rcases along_or_harmed hgood hbad (fun _ o h => hp.wrong_step h o) ⟨hs, h⟩ ops with h | h
  · exact .inl ⟨h.1, h.2.2⟩
  · exact .inr h

/-- at the end of the send nothing is left to clean up -/
theorem Part.Lawful.returned {p : Part} (hp : p.Lawful) {s : Finishing} (h : s.txn.stage = .returned) :
    p.due s = p.released s := by
  have hpast : s.txn.stage.past = 5 := by rw [h]; rfl
  have hle := hp.cleans.2
  unfold Part.due Transaction.left
  rw [if_neg (by omega), Nat.add_zero]

/-! ### The acquisitions -/

theorem bare_cases {st : Stage} (h : st.bare = true) : st = .checkargs ∨ st = .malloc := by
  cases st <;> simp_all [Stage.bare, Stage.rank]

/-- the argument check and the allocation -/
theorem api_bare {s : Finishing} (hs : Held s) (hb : s.txn.stage.bare = true) (a : Answer) :
    ((s.api a).txn.stage = .malloc ∧ (s.api a).allocated = false) ∨
      ((s.api a).txn.stage = .lockCreate ∧ (s.api a).allocated = true ∧ (s.api a).txn.context.isLive = true) ∨
      ((s.api a).txn.stage = .lockDestroy ∧ (s.api a).allocated = false ∧ (s.api a).txn.context = .unallocated) := by
  have hallocated := hs.bare hb
  have hnone := (hs.nothing hallocated).1
  rcases bare_cases hb with hst | hst
  · have hsame : (s.api a).allocated = false := (if_neg (by rw [hst]; decide)).trans hallocated
    cases hc : s.txn.call.checkargs with
    | none => exact .inl ⟨by simp [Finishing.api, Transaction.api, hst, hc], hsame⟩
    | _ =>
      refine .inr (.inr ⟨?_, hsame, ?_⟩)
      · simp [Finishing.api, Transaction.api, hst, hc, Transaction.fail]
      · simp [Finishing.api, Transaction.api, hst, hc, Transaction.fail, hnone]
  · have hgranted : (s.api a).allocated = a.granted := if_pos hst
    cases hg : a.granted with
    | true =>
      refine .inr (.inl ⟨?_, hgranted.trans hg, ?_⟩)
      · simp [Finishing.api, Transaction.api, hst, hg]
      · simp [Finishing.api, Transaction.api, hst, hg, Block.isLive]
    | false =>
      refine .inr (.inr ⟨?_, hgranted.trans hg, ?_⟩)
      · simp [Finishing.api, Transaction.api, hst, hg, Transaction.fail]
      · simp [Finishing.api, Transaction.api, hst, hg, Transaction.fail, hnone]

/-- what is due where the end has just begun, or is not reached yet -/
theorem Part.Lawful.due_early {p : Part} (hp : p.Lawful) {s : Finishing} {a : Answer} (h : (s.api a).txn.stage.past ≤ 1)
    (hr : p.released (s.api a) = 0) : p.due (s.api a) = (s.api a).txn.context.count p.holds := by
  have hle := hp.cleans.1
  unfold Part.due Transaction.left
  rw [hr, if_pos (h.trans hle), Nat.zero_add]

/-- nothing is released in front of the end -/
theorem Part.Lawful.released_zero {p : Part} (hp : p.Lawful) {s : Finishing} (h : s.txn.stage.past = 0)
    (hr : p.released s = 0) (a : Answer) : p.released (s.api a) = 0 := by
  have hle := hp.cleans.1
  have hne : s.txn.stage ≠ p.cleans := fun heq => by
    rw [heq] at h
    omega
  rw [hp.released s a, if_neg hne, hr]

theorem count_of_isLive {b : Block} (h : b.isLive = true) {p : Context → Bool} (hp : ∀ c, b = .live c → p c = true) :
    b.count p = 1 := by
  cases b with
  | live c => simp [Block.count, hp c rfl]
  | unallocated | freed => cases h

theorem update_eq_live {f : Context → Context} {b : Block} {c : Context} (h : b.update f = .live c) :
    ∃ x, b = .live x ∧ f x = c := by
  cases b with
  | live x => exact ⟨x, rfl, Block.live.inj h⟩
  | unallocated | freed => cases h

theorem past_of_bare {st : Stage} (h : st.bare = true) : st.past = 0 := by
  rcases bare_cases h with rfl | rfl <;> rfl

theorem decides_record : Part.record.Decides fun _ _ => True := by
  intro s a hs hb _ hr
  have hzero := lawful_record.released_zero (past_of_bare hb) hr a
  rcases api_bare hs hb a with ⟨hst, hallocated⟩ | ⟨hst, hallocated, hlive⟩ | ⟨hst, hallocated, hnone⟩
  · refine .inl ⟨?_, hallocated, hzero, trivial⟩
    rw [hst]
    rfl
  · refine .inr ⟨?_, ?_⟩
    · rw [hst]
      rfl
    · rw [lawful_record.due_early (by rw [hst]; decide) hzero, count_of_isLive hlive (p := Part.record.holds) fun _ _ => rfl]
      simp [Part.record, hallocated]
  · refine .inr ⟨?_, ?_⟩
    · rw [hst]
      rfl
    · rw [lawful_record.due_early (by rw [hst]; decide) hzero, hnone]
      simp [Part.record, hallocated, Block.count]

/-- in front of the allocation neither the lock nor the file is acquired or asked for -/
theorem decides_bare {p : Part} (hp : p.Lawful) {s : Finishing} (hs : Held s) (hb : s.txn.stage.bare = true) (a : Answer)
    (hcreate : p.before .lockCreate = true) (hdestroy : p.before .lockDestroy = false)
    (hacquired : p.acquired (s.api a) = false) (hr : p.released s = 0) :
    (p.before (s.api a).txn.stage = true ∧ p.acquired (s.api a) = false ∧ p.released (s.api a) = 0) ∨
      (p.before (s.api a).txn.stage = false ∧ p.due (s.api a) = (p.acquired (s.api a)).toNat) := by
  have hzero := hp.released_zero (past_of_bare hb) hr a
  rcases api_bare hs hb a with ⟨hst, -⟩ | ⟨hst, -⟩ | ⟨hst, -, hnone⟩
  · exact .inl ⟨by rw [hst, hp.malloc], hacquired, hzero⟩
  · exact .inl ⟨by rw [hst, hcreate], hacquired, hzero⟩
  · refine .inr ⟨by rw [hst, hdestroy], ?_⟩
    rw [hp.due_early (by rw [hst]; decide) hzero, hnone, hacquired]
    rfl

theorem past_setupStage (s : Service) : (Transaction.setupStage s).past = 0 := by cases s <;> rfl

theorem hasLock_locked (call : Call) (c : Context) : (Context.locked call c).hasLock = true := by
  cases c with
  | send c =>
    simp only [Context.locked]
    split_ifs <;> rfl
  | ping c | dataPoints c => rfl

theorem decides_lock : Part.lock.Decides LockCareful := by
  intro s a hs hb hacquired hr
  by_cases hbare : s.txn.stage.bare = true
  · have hne : s.txn.stage ≠ .lockCreate := fun h => by
      rw [h] at hbare
      cases hbare
    have hcareful : LockCareful s (.api a) := fun h => absurd h hne
    have hsame : (s.api a).created = false := (if_neg hne).trans hacquired
    rcases decides_bare lawful_lock hs hbare a rfl rfl hsame hr with ⟨hbefore, h⟩ | ⟨hbefore, h⟩
    · exact .inl ⟨hbefore, h.1, h.2, hcareful⟩
    · exact .inr ⟨hbefore, iff_of_true h hcareful⟩
  · have hst : s.txn.stage = .lockCreate := by
      cases hst : s.txn.stage <;> simp_all [Part.lock, Stage.unlocked, Stage.bare, Stage.rank]
    have hzero := lawful_lock.released_zero (by rw [hst]; rfl) hr a
    have hlive : s.txn.context.isLive = true :=
      hs.live (hs.held (by simpa using hbare) (by rw [hst]; rfl)) (by rw [hst]; decide)
    have hcreated : (s.api a).created = decide (a.status = .ok) := if_pos hst
    by_cases hok : a.status = .ok
    · have htxn : (s.api a).txn =
          { s.txn with
            context := s.txn.context.update (Context.locked s.txn.call), stage := Transaction.setupStage s.txn.call.service } := by
        simp [Finishing.api, Transaction.api, hst, hok]
      refine .inr ⟨?_, iff_of_true ?_ fun _ hne => absurd hok hne⟩
      · rw [htxn]
        exact decide_eq_false fun hle => absurd ((rank_setupStage _).trans hle) (by decide)
      · rw [lawful_lock.due_early (by rw [htxn]; exact (past_setupStage _).le.trans zero_le_one) hzero, htxn,
          count_of_isLive (by simpa using hlive) fun c hc => ?_]
        · simp [Part.lock, hcreated, hok]
        · obtain ⟨b, -, rfl⟩ := update_eq_live hc
          exact hasLock_locked _ _
    · have htxn : (s.api a).txn = ({ s.txn with context := s.txn.context.update Context.unlocked }).fail .lockFailed := by
        simp [Finishing.api, Transaction.api, hst, hok]
      refine .inr ⟨by rw [htxn]; rfl, ?_⟩
      rw [lawful_lock.due_early (by rw [htxn]; exact le_refl 1) hzero, htxn]
      simp [Part.lock, hcreated, hok, LockCareful, hst, Transaction.fail]

theorem hasFile_unlocked (c : Context) : (Context.unlocked c).hasFile = c.hasFile := by cases c <;> rfl

/-- with its lock a send of data has the mark of no file, and a ping and a collection have no mark -/
theorem hasFile_locked {call : Call} {c : Context} (hfits : c.fits call.service) (hne : call.service ≠ .file) :
    (Context.locked call c).hasFile = false := by
  cases c with
  | send c =>
    rw [Context.locked, if_pos (hfits.resolve_right hne)]
    rfl
  | ping c | dataPoints c => rfl

theorem count_eq_zero {b : Block} {p : Context → Bool} (h : ∀ c, b = .live c → p c = false) : b.count p = 0 := by
  cases b with
  | live c => simp [Block.count, h c rfl]
  | unallocated | freed => rfl

/-- the send ends in front of its file being open -/
theorem file_failed {s : Finishing} {a : Answer} (hzero : (s.api a).closed = 0) (hopened : (s.api a).opened = false)
    (hst : (s.api a).txn.stage = .lockDestroy)
    (hcount : (s.api a).txn.context.count Context.hasFile = s.txn.context.count Context.hasFile)
    (hfails : s.txn.failsUnopened a = true) :
    Part.file.before (s.api a).txn.stage = false ∧
      (Part.file.due (s.api a) = (Part.file.acquired (s.api a)).toNat ↔ FileCareful s (.api a)) := by
  refine ⟨by rw [hst]; rfl, ?_⟩
  rw [lawful_file.due_early (by rw [hst]; exact le_refl 1) hzero]
  change (s.api a).txn.context.count Context.hasFile = (s.api a).opened.toNat ↔ _
  rw [hcount, hopened]
  exact ⟨fun h _ => h, fun h => h hfails⟩

theorem decides_file_lockCreate {s : Finishing} (a : Answer) (hs : Held s) (hst : s.txn.stage = .lockCreate)
    (hacquired : s.opened = false) (hzero : (s.api a).closed = 0) :
    (Part.file.before (s.api a).txn.stage = true ∧ (s.api a).opened = false ∧ (s.api a).closed = 0 ∧ FileCareful s (.api a)) ∨
      (Part.file.before (s.api a).txn.stage = false ∧
        (Part.file.due (s.api a) = (Part.file.acquired (s.api a)).toNat ↔ FileCareful s (.api a))) := by
  have hopened : (s.api a).opened = false := (if_neg (by rw [hst]; decide)).trans hacquired
  by_cases hok : a.status = .ok
  · have hcareful : FileCareful s (.api a) := fun h => by simp [Transaction.failsUnopened, hst, hok] at h
    have htxn : (s.api a).txn =
        { s.txn with
          context := s.txn.context.update (Context.locked s.txn.call), stage := Transaction.setupStage s.txn.call.service } := by
      simp [Finishing.api, Transaction.api, hst, hok]
    by_cases hfile : s.txn.call.service = .file
    · refine .inl ⟨?_, hopened, hzero, hcareful⟩
      rw [htxn, hfile]
      rfl
    · refine .inr ⟨?_, iff_of_true ?_ hcareful⟩
      · rw [htxn]
        cases hservice : s.txn.call.service <;> first | rfl | exact absurd hservice hfile
      · rw [lawful_file.due_early (by rw [htxn]; exact (past_setupStage _).le.trans zero_le_one) hzero, htxn]
        change Block.count Context.hasFile _ = (s.api a).opened.toNat
        rw [hopened]
        refine count_eq_zero fun c hc => ?_
        obtain ⟨b, hb, rfl⟩ := update_eq_live hc
        exact hasFile_locked (hs.fits b hb) hfile
  · have htxn : (s.api a).txn = ({ s.txn with context := s.txn.context.update Context.unlocked }).fail .lockFailed := by
      simp [Finishing.api, Transaction.api, hst, hok]
    refine .inr (file_failed hzero hopened (by rw [htxn]; rfl) ?_ (by simp [Transaction.failsUnopened, hst, hok]))
    rw [htxn]
    exact count_update hasFile_unlocked s.txn.context

theorem decides_file_fileStatus {s : Finishing} (a : Answer) (hst : s.txn.stage = .fileStatus) (hacquired : s.opened = false)
    (hzero : (s.api a).closed = 0) :
    (Part.file.before (s.api a).txn.stage = true ∧ (s.api a).opened = false ∧ (s.api a).closed = 0 ∧ FileCareful s (.api a)) ∨
      (Part.file.before (s.api a).txn.stage = false ∧
        (Part.file.due (s.api a) = (Part.file.acquired (s.api a)).toNat ↔ FileCareful s (.api a))) := by
  have hopened : (s.api a).opened = false := (if_neg (by rw [hst]; decide)).trans hacquired
  by_cases hfails : s.txn.failsUnopened a = true
  · have htxn : (s.api a).txn = s.txn.fail .notAFile := by
      cases ha : a.fileResult <;> cases hsize : a.fileSize <;>
        simp_all [Finishing.api, Transaction.api, Transaction.failsUnopened]
    exact .inr (file_failed hzero hopened (by rw [htxn]; rfl) (by rw [htxn]; rfl) hfails)
  · have hnext : (s.api a).txn.stage = .fileOpen := by
      cases ha : a.fileResult <;> cases hsize : a.fileSize <;>
        simp_all [Finishing.api, Transaction.api, Transaction.failsUnopened]
    exact .inl ⟨by rw [hnext]; rfl, hopened, hzero, fun h => absurd h hfails⟩

theorem decides_file_fileOpen {s : Finishing} (a : Answer) (hs : Held s) (hst : s.txn.stage = .fileOpen)
    (hzero : (s.api a).closed = 0) :
    Part.file.before (s.api a).txn.stage = false ∧
      (Part.file.due (s.api a) = (Part.file.acquired (s.api a)).toNat ↔ FileCareful s (.api a)) := by
  have hopened : (s.api a).opened = decide (a.fileResult = .ok) := if_pos hst
  by_cases hok : a.fileResult = .ok
  · have htxn : (s.api a).txn =
        { s.txn with context := s.txn.context.update (Context.opened a.handler), stage := .initiateAcquire } := by
      simp [Finishing.api, Transaction.api, hst, hok]
    have hlive : s.txn.context.isLive = true :=
      hs.live (hs.held (by rw [hst]; rfl) (by rw [hst]; rfl)) (by rw [hst]; decide)
    refine ⟨by rw [htxn]; rfl, iff_of_true ?_ fun h => by simp [Transaction.failsUnopened, hst, hok] at h⟩
    rw [lawful_file.due_early (by rw [htxn]; exact zero_le_one) hzero, htxn,
      count_of_isLive (p := Part.file.holds) (by simpa using hlive) fun c hc => ?_]
    · simp [Part.file, hopened, hok]
    · obtain ⟨b, hb, rfl⟩ := update_eq_live hc
      have hfits := hs.fits b hb
      rw [hs.file (.inr hst)] at hfits
      cases b with
      | send b => rfl
      | ping b | dataPoints b => cases hfits
  · have htxn : (s.api a).txn = s.txn.fail .accessingFile := by simp [Finishing.api, Transaction.api, hst, hok]
    exact file_failed hzero (by rw [hopened]; simpa using hok) (by rw [htxn]; rfl) (by rw [htxn]; rfl)
      (by simp [Transaction.failsUnopened, hst, hok])

theorem decides_file : Part.file.Decides FileCareful := by
  intro s a hs hb hacquired hr
  have hunopened : s.txn.stage.bare = true ∨ s.txn.stage = .lockCreate ∨ s.txn.stage = .fileStatus ∨ s.txn.stage = .fileOpen := by
    cases hst : s.txn.stage <;> simp_all [Part.file, Stage.unopened, Stage.bare, Stage.rank]
  have hpast : s.txn.stage.past = 0 := by
    rcases hunopened with h | h | h | h
    · exact past_of_bare h
    all_goals rw [h]; rfl
  have hzero : (s.api a).closed = 0 := lawful_file.released_zero hpast hr a
  rcases hunopened with hbare | hst | hst | hst
  · have hcareful : FileCareful s (.api a) := fun h => by
      rcases bare_cases hbare with hst | hst <;> simp [Transaction.failsUnopened, hst] at h
    have hsame : (s.api a).opened = false := by
      refine (if_neg fun hst => ?_).trans hacquired
      rw [hst] at hbare
      cases hbare
    rcases decides_bare lawful_file hs hbare a rfl rfl hsame hr with ⟨hbefore, h⟩ | ⟨hbefore, h⟩
    · exact .inl ⟨hbefore, h.1, h.2, hcareful⟩
    · exact .inr ⟨hbefore, iff_of_true h hcareful⟩
  · exact decides_file_lockCreate a hs hst hacquired hzero
  · exact decides_file_fileStatus a hst hacquired hzero
  · exact .inr (decides_file_fileOpen a hs hst hzero)

/-! ## The cloud's code -/

/-- nothing has been read out of a freed record, and what the caller's record says of the cloud's code will not be wrong -/
structure CodeRight (s : Finishing) : Prop where
  unread : s.readFreed = false
  allocated : s.txn.stage.bare = false → s.allocated = true → s.errorCode = none
  unallocated : s.txn.stage.bare = false → s.allocated = false → s.errorCode.getD none = none

def CodeWrong (s : Finishing) : Prop :=
  s.txn.stage.bare = false ∧
    if s.allocated then s.errorCode.isSome = true ∧ (s.txn.stage = .returned → s.readFreed = true)
    else s.errorCode.getD none ≠ none

theorem not_copies {s : Finishing} (h : s.txn.stage ≠ .collectionRelease) : ¬ s.copies := fun hc => h hc.1

theorem ne_collectionRelease {st : Stage} (h : st.bare = true) : st ≠ .collectionRelease := by
  rcases bare_cases h with rfl | rfl <;> decide

/-- in front of the allocation -/
theorem api_bare_code {s : Finishing} (hs : Held s) (hb : s.txn.stage.bare = true) (h : CodeRight s) (a : Answer) :
    (CodeCareful s (.api a) → CodeRight (s.api a)) ∧ (¬ CodeCareful s (.api a) → CodeWrong (s.api a)) := by
  have hcopies : ¬ s.copies := not_copies (ne_collectionRelease hb)
  have hcode : (s.api a).errorCode = s.errorCode := if_neg hcopies
  have hread : (s.api a).readFreed = false := by simp [Finishing.api, h.unread, hcopies]
  rcases bare_cases hb with hst | hst
  · have hallocated : (s.api a).allocated = false := (if_neg (by rw [hst]; decide)).trans (hs.bare hb)
    cases hc : s.txn.call.checkargs with
    | none =>
      have hnext : (s.api a).txn.stage = .malloc := by simp [Finishing.api, Transaction.api, hst, hc]
      have hcareful : CodeCareful s (.api a) := by simp [CodeCareful, hst, hc]
      refine ⟨fun _ => ⟨hread, fun hb' => ?_, fun hb' => ?_⟩, fun hnot => absurd hcareful hnot⟩ <;>
        · rw [hnext] at hb'
          cases hb'
    | _ =>
      have hnext : (s.api a).txn.stage = .lockDestroy := by
        simp [Finishing.api, Transaction.api, hst, hc, Transaction.fail]
      have hcareful : CodeCareful s (.api a) ↔ s.errorCode.getD none = none := by simp [CodeCareful, hst, hc]
      rw [hcareful]
      refine ⟨fun hnone => ⟨hread, fun _ ha => ?_, fun _ _ => hcode ▸ hnone⟩, fun hne => ⟨by rw [hnext]; rfl, ?_⟩⟩
      · rw [hallocated] at ha
        cases ha
      · rw [hallocated, if_neg (by decide), hcode]
        exact hne
  · have hallocated : (s.api a).allocated = a.granted := if_pos hst
    have hnext : (s.api a).txn.stage.bare = false := by
      cases hg : a.granted <;> simp [Finishing.api, Transaction.api, hst, hg, Transaction.fail, Stage.bare, Stage.rank]
    have hrunning : (s.api a).txn.stage ≠ .returned := by
      cases hg : a.granted <;> simp [Finishing.api, Transaction.api, hst, hg, Transaction.fail]
    cases hg : a.granted with
    | true =>
      have hcareful : CodeCareful s (.api a) ↔ s.errorCode = none := by simp [CodeCareful, hst, hg]
      rw [hcareful]
      refine ⟨fun hnone => ⟨hread, fun _ _ => hcode.trans hnone, fun _ ha => ?_⟩, fun hne => ⟨hnext, ?_⟩⟩
      · rw [hallocated, hg] at ha
        cases ha
      · rw [hallocated, hg, if_pos rfl, hcode]
        exact ⟨Option.isSome_iff_ne_none.2 hne, fun hret => absurd hret hrunning⟩
    | false =>
      have hcareful : CodeCareful s (.api a) ↔ s.errorCode.getD none = none := by simp [CodeCareful, hst, hg]
      rw [hcareful]
      refine ⟨fun hnone => ⟨hread, fun _ ha => ?_, fun _ _ => hcode ▸ hnone⟩, fun hne => ⟨hnext, ?_⟩⟩
      · rw [hallocated, hg] at ha
        cases ha
      · rw [hallocated, hg, if_neg (by decide), hcode]
        exact hne

theorem code_careful {s : Finishing} (hb : s.txn.stage.bare = false) (a : Answer) : CodeCareful s (.api a) := by
  cases hst : s.txn.stage <;> simp_all [CodeCareful, Stage.bare, Stage.rank]

/-- the allocation is behind, and stays there -/
theorem api_allocated {s : Finishing} (hb : s.txn.stage.bare = false) (a : Answer) :
    (s.api a).txn.stage.bare = false ∧ (s.api a).allocated = s.allocated :=
  ⟨lawful_record.onward s.txn a hb, lawful_record.acquired s a hb⟩

theorem api_code_right {s : Finishing} (hb : s.txn.stage.bare = false) (h : CodeRight s) (a : Answer) : CodeRight (s.api a) := by
  have hcopies : ¬ s.copies := fun ⟨_, hsome, ha⟩ => by simp [h.allocated hb ha] at hsome
  have hcode : (s.api a).errorCode = s.errorCode := if_neg hcopies
  obtain ⟨-, hallocated⟩ := api_allocated hb a
  refine ⟨by simp [Finishing.api, h.unread, hcopies], fun _ ha => ?_, fun _ ha => ?_⟩
  · rw [hcode]
    exact h.allocated hb (hallocated ▸ ha)
  · rw [hcode]
    exact h.unallocated hb (hallocated ▸ ha)

theorem late_of_past {st : Stage} (h : 4 ≤ st.past) : st = .collectionRelease ∨ st = .returned := by
  cases st <;> simp_all [Stage.past]

theorem api_code_wrong {s : Finishing} (h : CodeWrong s) (a : Answer) : CodeWrong (s.api a) := by
  obtain ⟨hb, h⟩ := h
  obtain ⟨hbare, hallocated⟩ := api_allocated hb a
  refine ⟨hbare, ?_⟩
  rw [hallocated]
  cases ha : s.allocated with
  | true =>
    rw [ha, if_pos rfl] at h
    rw [if_pos rfl]
    refine ⟨?_, fun hret => ?_⟩
    · by_cases hc : s.copies
      · simp [Finishing.api, hc]
      · simpa [Finishing.api, hc] using h.1
    · obtain ⟨hzero, hpos⟩ := api_past a s.txn
      have hpast : (s.txn.api a).stage.past = 5 := by
        change (s.txn.api a).stage = .returned at hret
        rw [hret]
        rfl
      rcases late_of_past (by omega : 4 ≤ s.txn.stage.past) with hst | hst
      · simp [Finishing.api, Finishing.copies, hst, h.1, ha]
      · simp [Finishing.api, h.2 hst]
  | false =>
    rw [ha, if_neg (by decide)] at h
    rw [if_neg (by decide)]
    have hcopies : ¬ s.copies := fun hc => by simp [hc.2.2] at ha
    rwa [show (s.api a).errorCode = s.errorCode from if_neg hcopies]

/-- the connector's steps leave all of that alone -/
theorem quiet_code (s : Finishing) {o : Op} (ho : o.quiet = true) :
    (s.step o).txn.stage = s.txn.stage ∧ (s.step o).allocated = s.allocated ∧ (s.step o).readFreed = s.readFreed ∧
      (s.step o).errorCode = s.errorCode := by
  have hstage := (lawful_record.quiet (s := s) ho).1
  cases o with
  | api a => cases ho
  | callback call => exact ⟨hstage, rfl, rfl, rfl⟩
  | statusRelease r => exact ⟨hstage, rfl, rfl, rfl⟩

theorem code_right_quiet {s : Finishing} (h : CodeRight s) {o : Op} (ho : o.quiet = true) : CodeRight (s.step o) := by
  obtain ⟨hstage, hallocated, hread, hcode⟩ := quiet_code s ho
  exact ⟨by rw [hread, h.unread], by rw [hstage, hallocated, hcode]; exact h.allocated,
    by rw [hstage, hallocated, hcode]; exact h.unallocated⟩

theorem code_wrong_quiet {s : Finishing} (h : CodeWrong s) {o : Op} (ho : o.quiet = true) : CodeWrong (s.step o) := by
  obtain ⟨hstage, hallocated, hread, hcode⟩ := quiet_code s ho
  unfold CodeWrong at h ⊢
  rwa [hstage, hallocated, hread, hcode]

/-- **The code at the end.** -/
theorem code_right_or_wrong {s : Finishing} (hs : Held s) (h : CodeRight s) (ops : List Op) :
    (Along Finishing.step CodeCareful s ops ∧ CodeRight (run Finishing.step s ops)) ∨
      (¬ Along Finishing.step CodeCareful s ops ∧ CodeWrong (run Finishing.step s ops)) := by
  have hgood (s : Finishing) (o : Op) (h : Held s ∧ CodeRight s) (hc : CodeCareful s o) :
      Held (s.step o) ∧ CodeRight (s.step o) := by
    refine ⟨step_held h.1 o, ?_⟩
    cases o with
    | api a =>
      rw [step_api]
      cases hb : s.txn.stage.bare with
      | true => exact (api_bare_code h.1 hb h.2 a).1 hc
      | false => exact api_code_right hb h.2 a
    | callback call => exact code_right_quiet h.2 rfl
    | statusRelease r => exact code_right_quiet h.2 rfl
  have hbad (s : Finishing) (o : Op) (h : Held s ∧ CodeRight s) (hc : ¬ CodeCareful s o) : CodeWrong (s.step o) := by
    cases o with
    | api a =>
      rw [step_api]
      cases hb : s.txn.stage.bare with
      | true => exact (api_bare_code h.1 hb h.2 a).2 hc
      | false => exact absurd (code_careful hb a) hc
    | callback call => exact absurd trivial hc
    | statusRelease r => exact absurd trivial hc
  have hstay (s : Finishing) (o : Op) (h : CodeWrong s) : CodeWrong (s.step o) := by
    cases o with
    | api a => exact api_code_wrong h a
    | callback call => exact code_wrong_quiet h rfl
    | statusRelease r => exact code_wrong_quiet h rfl
  rcases along_or_harmed hgood hbad hstay ⟨hs, h⟩ ops with h | h
  · exact .inl ⟨h.1, h.2.2⟩
  · exact .inr h

/-! ## The whole end -/

/-- what a run has to meet for its send to end cleanly -/
def Careful (s : Finishing) (o : Op) : Prop := LockCareful s o ∧ FileCareful s o ∧ CodeCareful s o

instance (s : Finishing) (o : Op) : Decidable (Careful s o) := inferInstanceAs (Decidable (_ ∧ _))

/-- a part of a send that has returned -/
theorem Part.Lawful.end_iff {p : Part} (hp : p.Lawful) {C : Finishing → Op → Prop} (hC : p.Decides C)
    (hfree : ∀ s o, p.before s.txn.stage = false ∨ o.quiet = true → C s o) {s : Finishing} (hs : Held s)
    (hb : p.before s.txn.stage = true ∧ p.before .returned = false) (ha : p.acquired s = false ∧ p.released s = 0)
    {ops : List Op} (hend : (run Finishing.step s ops).txn.stage = .returned) :
    p.released (run Finishing.step s ops) = (p.acquired (run Finishing.step s ops)).toNat ↔ Along Finishing.step C s ops := by
  have hright : p.Right s := by
    rw [Part.Right, if_pos hb.1]
    exact ha
  rcases hp.right_or_wrong hC hfree hs hright ops with ⟨halong, h⟩ | ⟨hnot, -, h⟩
  · rw [Part.Right, hend, hb.2, if_neg (by decide), hp.returned hend] at h
    exact iff_of_true h halong
  · rw [hp.returned hend] at h
    exact iff_of_false h hnot

theorem lock_free (s : Finishing) (o : Op) (h : s.txn.stage.unlocked = false ∨ o.quiet = true) : LockCareful s o := by
  cases o with
  | api a =>
    intro hst
    rcases h with h | h
    · rw [hst] at h
      cases h
    · cases h
  | callback call => trivial
  | statusRelease r => trivial

theorem file_free (s : Finishing) (o : Op) (h : s.txn.stage.unopened = false ∨ o.quiet = true) : FileCareful s o := by
  cases o with
  | api a =>
    intro hfails
    rcases h with h | h
    · cases hst : s.txn.stage <;> simp_all [Transaction.failsUnopened, Stage.unopened, Stage.rank]
    · cases h
  | callback call => trivial
  | statusRelease r => trivial

/-- the code of a send that has returned -/
theorem code_iff (call : Call) (errorCode : Option (Option Response)) {ops : List Op}
    (hend : (run Finishing.step (Finishing.begin call errorCode) ops).txn.stage = .returned) :
    ((run Finishing.step (Finishing.begin call errorCode) ops).readFreed = false ∧
        ∀ x, (run Finishing.step (Finishing.begin call errorCode) ops).errorCode = some x →
          x = (run Finishing.step (Finishing.begin call errorCode) ops).response) ↔
      Along Finishing.step CodeCareful (Finishing.begin call errorCode) ops := by
  have hs := begin_held call errorCode
  have hheld : Held (run Finishing.step (Finishing.begin call errorCode) ops) := run_inv_all (I := Held) (fun _ o h => step_held h o) hs ops
  have hbegin : CodeRight (Finishing.begin call errorCode) := ⟨rfl, fun h => (by cases h), fun h => (by cases h)⟩
  set s := run Finishing.step (Finishing.begin call errorCode) ops
  have hbare : s.txn.stage.bare = false := by
    rw [hend]
    rfl
  rcases code_right_or_wrong hs hbegin ops with ⟨halong, h⟩ | ⟨hnot, -, h⟩
  · refine iff_of_true ⟨h.unread, fun x hx => ?_⟩ halong
    cases ha : s.allocated with
    | true =>
      rw [h.allocated hbare ha] at hx
      cases hx
    | false =>
      have hnone := h.unallocated hbare ha
      rw [hx] at hnone
      rw [(hheld.nothing ha).2.2]
      exact hnone
  · refine iff_of_false (fun hright => ?_) hnot
    cases ha : s.allocated with
    | true =>
      rw [ha, if_pos rfl] at h
      exact absurd (hright.1.symm.trans (h.2 hend)) (by decide)
    | false =>
      rw [ha, if_neg (by decide)] at h
      cases hx : s.errorCode with
      | none => exact h (by rw [hx]; rfl)
      | some x =>
        refine h ?_
        rw [hx, Option.getD_some, hright.2 x hx, (hheld.nothing ha).2.2]

/-- **A send's end.** For every send of data or of a file, every ping and every sending of a collection, whatever the platform
and the connector answer, whatever malloc's memory held and wherever the send fails: what it leaves behind is clean exactly
when, where its lock could not be created, malloc's memory held NULL for it, where its file was not opened, malloc's memory
did not hold the mark of one, and no call that got its record was asked for the cloud's code. -/
theorem clean_iff (call : Call) (errorCode : Option (Option Response)) (ops : List Op)
    (hend : (run Finishing.step (Finishing.begin call errorCode) ops).txn.stage = .returned) :
    Clean (run Finishing.step (Finishing.begin call errorCode) ops) ↔
      Along Finishing.step Careful (Finishing.begin call errorCode) ops := by
  have hs := begin_held call errorCode
  have hlock := lawful_lock.end_iff decides_lock lock_free hs ⟨rfl, rfl⟩ ⟨rfl, rfl⟩ hend
  have hfile := lawful_file.end_iff decides_file file_free hs ⟨rfl, rfl⟩ ⟨rfl, rfl⟩ hend
  have hrecord := (lawful_record.end_iff decides_record (fun _ _ _ => trivial) hs ⟨rfl, rfl⟩ ⟨rfl, rfl⟩ hend).2
    (along_of_forall (fun _ _ => trivial) _)
  have hcode := code_iff call errorCode hend
  unfold Careful
  rw [along_and, along_and, ← hlock, ← hfile, ← hcode]
  exact ⟨fun h => ⟨h.lock, h.file, h.unread, h.code⟩, fun ⟨h₁, h₂, h₃, h₄⟩ => ⟨h₁, h₂, hrecord, h₃, h₄⟩⟩

/-- a send of data that the cloud acknowledges, all the way to its end -/
def acknowledged : List Op :=
  List.replicate 6 (Op.api granted) ++
    [Op.callback (.sendDataRequest 9 (readOf 0)), Op.callback (.sendDataResponse .success none),
      Op.callback (.sendDataStatus .complete), Op.statusRelease .ok] ++
    List.replicate 5 (Op.api granted)

theorem clean_acknowledged : Clean (run Finishing.step (Finishing.begin oneByte none) acknowledged) :=
  (clean_iff oneByte none acknowledged (by decide)).2 (by decide)

/-- what malloc's memory holds where a send has used it before -/
def used : Answer :=
  { granted with
    memory := { granted.memory with
      send := { granted.memory.send with sendingFile := true, sendLock := true }, ping := ⟨true, .none⟩ } }

/-- a send whose lock cannot be created, all the way to its end -/
def lockless : List Op :=
  [.api granted, .api used, .api { granted with status := .error }] ++ List.replicate 4 (.api granted)

/-- **Unclean ends.** An acknowledged send with the cloud's code asked for: the code is read out of the freed record. A ping
and a send of a file whose locks cannot be created: a lock is destroyed, and a file closed, that the memory still spoke of. -/
theorem unclean :
    let acknowledgedSend := run Finishing.step (Finishing.begin oneByte (some none)) acknowledged
    let ping := run Finishing.step (Finishing.begin { oneByte with service := .ping } none) lockless
    let file := run Finishing.step (Finishing.begin { oneByte with service := .file, localPath := some [97] } none) lockless
    (acknowledgedSend.txn.stage = .returned ∧ acknowledgedSend.readFreed = true ∧ ¬ Clean acknowledgedSend) ∧
      (ping.txn.stage = .returned ∧ ping.created = false ∧ ping.destroyed = 1 ∧ ¬ Clean ping) ∧
      (file.txn.stage = .returned ∧ file.opened = false ∧ file.closed = 1 ∧ ¬ Clean file) := by
  refine ⟨⟨by decide, by decide, fun h => absurd h.unread (by decide)⟩, ⟨by decide, by decide, by decide, fun h => ?_⟩,
    ⟨by decide, by decide, by decide, fun h => ?_⟩⟩
  · exact absurd h.lock (by decide)
  · exact absurd h.file (by decide)

end CcApi.Send
