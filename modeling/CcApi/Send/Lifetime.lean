/-
How long the record of a send lives (`perform_send`, `perform_send_ping`, `send_collection`, `finish_send`,
`finish_send_ping`, `connector_initiate_action_secure`).

The record is lent to the connector from the moment it accepts the action to the end of its final callback. The calling
thread frees it when it was woken, and also when an operation on a lock fails: the release of the initiate-action lock
after the connector has accepted, or the wait itself.

- `step_lent`: a step that does not abandon the action keeps to the discipline of `Lib.Loan`.
- `lifetime_iff`: the record outlives the action, however a run goes on, exactly when no step of the run abandons an action.
-/
import CcApi.Lib.Loan
import CcApi.Send.Model

namespace CcApi.Send

open Lib Lib.Runs

/-! ## The record as a loan -/

/-- the connector has accepted the action and not finished its final callback -/
def Action.owed : Action → Bool
  | .accepted | .finishing => true
  | _ => false

/-- the record as a loan to the connector -/
def Transaction.loan (t : Transaction) : Loan.State Unit :=
  { live := t.context.isLive, holders := if t.action.owed then {()} else ∅, faulted := t.faulted }

theorem loan_of_owed {t : Transaction} (h : t.action.owed = true) : t.loan = ⟨t.context.isLive, {()}, t.faulted⟩ := by
  simp [Transaction.loan, h]

theorem loan_of_not_owed {t : Transaction} (h : t.action.owed = false) : t.loan = ⟨t.context.isLive, ∅, t.faulted⟩ := by
  simp [Transaction.loan, h]

/-- the record is not freed while the connector has the action, and no callback has touched a freed record -/
def Transaction.Safe (t : Transaction) : Prop := (t.action.owed = true → t.context.isLive = true) ∧ t.faulted = false

theorem safe_iff_sound (t : Transaction) : t.Safe ↔ Loan.Sound t.loan := by
  constructor
  · rintro ⟨hlive, hfault⟩
    refine ⟨fun u hu => hlive ?_, hfault⟩
    by_contra howed
    simp [Transaction.loan, howed] at hu
  · intro h
    exact ⟨fun howed => h.live () (by simp [Transaction.loan, howed]), h.sound⟩

/-- the calling thread gives an accepted action up: the release of the initiate-action lock fails, or the wait -/
def Transaction.abandons (t : Transaction) : Op → Bool
  | .api a =>
    t.action.owed &&
      match t.stage with
      | .initiateRelease _ => a.status ≠ .ok
      | .wait => a.lockAcquire ≠ .ok
      | _ => false
  | _ => false

/-! ## The order of the stages -/

/-- the connector has not accepted yet -/
def Stage.early : Stage → Bool
  | .checkargs | .malloc | .lockCreate | .fileStatus | .fileOpen | .collectionAcquire | .initiateAcquire | .initiate => true
  | .initiateRelease s => s ≠ .success
  | _ => false

/-- the record is there -/
def Stage.recorded : Stage → Bool
  | .lockCreate | .fileStatus | .fileOpen | .collectionAcquire | .initiateAcquire | .initiate => true
  | .initiateRelease _ | .wait => true
  | _ => false

/-- the calling thread waits for the connector, or is about to -/
def Stage.waiting : Stage → Bool
  | .initiateRelease s => s = .success
  | .wait => true
  | _ => false

structure Order (t : Transaction) : Prop where
  early : t.stage.early = true → t.action = .none
  record : t.stage.recorded = true → t.context.isLive = true
  owed : t.action.owed = true → t.stage.waiting = true
  posted : t.posted = true → t.action = .finished

theorem begin_order (call : Call) : Order (Transaction.begin call) := by
  constructor <;> simp [Transaction.begin, Stage.recorded, Action.owed]

/-- a step seen as steps of the loan -/
def Lent (t t' : Transaction) : Prop :=
  ∃ l, t'.loan = run Loan.step t.loan l ∧ Along Loan.step Loan.Respects t.loan l

theorem Lent.refl {t t' : Transaction} (h : t'.loan = t.loan) : Lent t t' := ⟨[], h, trivial⟩

@[simp] theorem isLive_freed : Block.freed.isLive = false := rfl

@[simp] theorem isLive_update (f : Context → Context) (b : Block) : (b.update f).isLive = b.isLive := by
  cases b <;> rfl

/-- nothing is owed while the calling thread does not wait -/
theorem Order.none_owed {t : Transaction} (h : Order t) (hs : t.stage.waiting = false) : t.action.owed = false := by
  by_contra howed
  have := h.owed (by simpa using howed)
  rw [hs] at this
  cases this

/-- what the record's order and its loan depend on, besides the stage -/
structure Same (t t' : Transaction) : Prop where
  action : t'.action = t.action
  posted : t'.posted = true → t.posted = true
  live : t'.context.isLive = t.context.isLive
  faulted : t'.faulted = t.faulted

theorem Same.lent {t t' : Transaction} (h : Same t t') : Lent t t' :=
  ⟨[], by simp [Transaction.loan, h.action, h.live, h.faulted], trivial⟩

/-- a step in front of the connector's acceptance -/
theorem Order.advance {t t' : Transaction} (h : Order t) (he : t.stage.early = true) (hsame : Same t t')
    (hrecord : t'.stage.recorded = true → t.stage.recorded = true) : Order t' ∧ Lent t t' := by
  have hnone : t'.action = .none := hsame.action.trans (h.early he)
  refine ⟨⟨fun _ => hnone, fun hr => hsame.live.trans (h.record (hrecord hr)), fun ho => ?_, fun hp => ?_⟩, hsame.lent⟩
  · rw [hnone] at ho
    cases ho
  · exact hsame.action.trans (h.posted (hsame.posted hp))

/-- a step on to the end of the send, with nothing owed -/
theorem Order.finish {t t' : Transaction} (h : Order t) (howed : t.action.owed = false) (hsame : Same t t')
    (he : t'.stage.early = false) (hr : t'.stage.recorded = false) : Order t' ∧ Lent t t' := by
  refine ⟨⟨fun he' => ?_, fun hr' => ?_, fun ho => ?_, fun hp => ?_⟩, hsame.lent⟩
  · rw [he] at he'
    cases he'
  · rw [hr] at hr'
    cases hr'
  · rw [hsame.action, howed] at ho
    cases ho
  · exact hsame.action.trans (h.posted (hsame.posted hp))

theorem same_fail (e : TxError) (t : Transaction) : Same t (t.fail e) := ⟨rfl, id, rfl, rfl⟩

theorem Order.fail {t : Transaction} (h : Order t) (howed : t.action.owed = false) (e : TxError) :
    Order (t.fail e) ∧ Lent t (t.fail e) :=
  h.finish howed (same_fail e t) rfl rfl

/-- what the calling thread does when `connector_initiate_action_secure` returns and nothing was accepted -/
theorem Order.initiated {t : Transaction} (h : Order t) (he : t.stage.early = true) (hrecord : t.stage.recorded = true)
    {s : ConnectorStatus} (hne : s ≠ .success) : Order (t.initiated s) ∧ Lent t (t.initiated s) := by
  cases s with
  | success => exact absurd rfl hne
  | serviceBusy => exact h.advance he ⟨rfl, id, rfl, rfl⟩ fun _ => hrecord
  | abort => exact h.advance he (same_fail _ t) fun hr => by cases hr
  | failed => exact h.advance he (same_fail _ t) fun hr => by cases hr

/-- the wait is over, and the action was not abandoned -/
theorem wake_lent {t : Transaction} (h : Order t) (a : Answer)
    (ho : t.action.owed = true → a.lockAcquire = .ok) : Order (t.wake a) ∧ Lent t (t.wake a) := by
  unfold Transaction.wake
  split_ifs with hok hposted
  · have howed : t.action.owed = false := by
      by_contra howed
      exact hok (ho (by simpa using howed))
    exact h.fail howed _
  · have hdone := h.posted hposted
    have howed : t.action.owed = false := by rw [hdone]; rfl
    split
    · exact h.finish howed ⟨rfl, fun hp => (by cases hp), rfl, rfl⟩ rfl rfl
    · exact h.finish howed ⟨rfl, fun hp => (by cases hp), rfl, rfl⟩ rfl rfl
  · exact ⟨h, [], rfl, trivial⟩

/-- **The calling thread.** A step that does not abandon the action keeps the order and the discipline. -/
theorem api_lent {t : Transaction} (h : Order t) (a : Answer) (ho : t.abandons (.api a) = false) :
    Order (t.api a) ∧ Lent t (t.api a) := by
  unfold Transaction.api
  cases hs : t.stage with
  | checkargs =>
    dsimp only
    split
    · exact h.advance (by rw [hs]; rfl) ⟨rfl, id, rfl, rfl⟩ fun hr => by cases hr
    · exact h.advance (by rw [hs]; rfl) (same_fail _ t) fun hr => by cases hr
  | malloc =>
    have hnone : t.action = .none := h.early (by rw [hs]; rfl)
    dsimp only
    split_ifs
    · refine ⟨⟨fun _ => hnone, fun _ => rfl, fun ho => ?_, h.posted⟩, [.make], rfl, trivial, trivial⟩
      rw [hnone] at ho
      cases ho
    · exact h.advance (by rw [hs]; rfl) (same_fail _ t) fun hr => by cases hr
  | lockCreate =>
    dsimp only
    split_ifs
    · exact h.advance (by rw [hs]; rfl) ⟨rfl, id, isLive_update _ _, rfl⟩ fun _ => by rw [hs]; rfl
    · exact h.advance (by rw [hs]; rfl) ⟨rfl, id, isLive_update _ _, rfl⟩ fun hr => by cases hr
  | fileStatus =>
    dsimp only
    split
    · exact h.advance (by rw [hs]; rfl) ⟨rfl, id, isLive_update _ _, rfl⟩ fun _ => by rw [hs]; rfl
    · exact h.advance (by rw [hs]; rfl) (same_fail _ t) fun hr => by cases hr
  | fileOpen =>
    dsimp only
    split_ifs
    · exact h.advance (by rw [hs]; rfl) ⟨rfl, id, isLive_update _ _, rfl⟩ fun _ => by rw [hs]; rfl
    · exact h.advance (by rw [hs]; rfl) (same_fail _ t) fun hr => by cases hr
  | collectionAcquire =>
    dsimp only
    split_ifs
    · exact h.advance (by rw [hs]; rfl) ⟨rfl, id, rfl, rfl⟩ fun _ => by rw [hs]; rfl
    · exact h.advance (by rw [hs]; rfl) (same_fail _ t) fun hr => by cases hr
  | initiateAcquire =>
    dsimp only
    split_ifs
    · exact h.advance (by rw [hs]; rfl) ⟨rfl, id, rfl, rfl⟩ fun _ => by rw [hs]; rfl
    · exact h.initiated (by rw [hs]; rfl) (by rw [hs]; rfl) (by decide)
  | initiate =>
    have hnone : t.action = .none := h.early (by rw [hs]; rfl)
    have hlive : t.context.isLive = true := h.record (by rw [hs]; rfl)
    dsimp only
    split_ifs with hok
    · -- the record is lent here
      refine ⟨⟨fun he => ?_, fun _ => hlive, fun _ => ?_, fun hp => ?_⟩, [.lend ()], ?_, hlive, trivial⟩
      · simp [Stage.early, hok] at he
      · simp [Stage.waiting, hok]
      · rw [h.posted hp] at hnone
        cases hnone
      · simp [Transaction.loan, hnone, Action.owed, Loan.step]
    · exact h.advance (by rw [hs]; rfl) ⟨rfl, id, rfl, rfl⟩ fun _ => by rw [hs]; rfl
  | initiateRelease s =>
    dsimp only
    by_cases hsucc : s = .success
    · have hlive : t.context.isLive = true := h.record (by rw [hs]; rfl)
      subst hsucc
      split_ifs with hok
      · exact ⟨⟨fun he => (by cases he), fun _ => hlive, fun _ => rfl, h.posted⟩, [], rfl, trivial⟩
      · -- the release fails: nothing is owed only when the connector has finished already
        have howed : t.action.owed = false := by
          by_contra howed
          simp [Transaction.abandons, hs, howed, hok] at ho
        exact h.fail howed _
    · split_ifs
      · exact h.initiated (by simp [hs, Stage.early, hsucc]) (by rw [hs]; rfl) hsucc
      · exact h.initiated (by simp [hs, Stage.early, hsucc]) (by rw [hs]; rfl) (by decide)
  | wait =>
    refine wake_lent h a fun howed => ?_
    simpa [Transaction.abandons, howed, hs] using ho
  | lockDestroy => exact h.finish (h.none_owed (by rw [hs]; rfl)) ⟨rfl, id, rfl, rfl⟩ rfl rfl
  | fileClose => exact h.finish (h.none_owed (by rw [hs]; rfl)) ⟨rfl, id, rfl, rfl⟩ rfl rfl
  | free =>
    dsimp only
    have howed : t.action.owed = false := h.none_owed (by rw [hs]; rfl)
    refine ⟨⟨fun he => (by cases he), fun hr => (by cases hr), fun ho => ?_, h.posted⟩, ?_⟩
    · rw [howed] at ho
      cases ho
    · cases hlive : t.context.isLive with
      | true =>
        refine ⟨[.free], ?_, ⟨hlive, by rw [loan_of_not_owed howed]⟩, trivial⟩
        rw [loan_of_not_owed howed]
        simp [Transaction.loan, howed, Loan.step, hlive]
      | false => exact ⟨[], by simp [Transaction.loan, hlive], trivial⟩
  | collectionRelease => exact h.finish (h.none_owed (by rw [hs]; rfl)) ⟨rfl, id, rfl, rfl⟩ rfl rfl
  | returned => exact ⟨h, [], rfl, trivial⟩

/-- **The connector.** A callback touches what the connector holds; the final one gives it back. -/
theorem callback_lent {t : Transaction} (h : Order t) (c : Callback) :
    Order (t.callback c) ∧ Lent t (t.callback c) := by
  unfold Transaction.callback
  by_cases hc : t.action = .accepted ∧ c.concerns t.call.service
  · rw [if_pos hc]
    have howed : t.action.owed = true := by rw [hc.1]; rfl
    have hlater : (if c.final then Action.finishing else Action.accepted).owed = true := by split_ifs <;> rfl
    refine ⟨⟨fun he => ?_, fun hr => ?_, fun _ => h.owed howed, fun hp => ?_⟩, [.touch ()], ?_, ?_, trivial⟩
    · exact absurd (hc.1.symm.trans (h.early he)) (by decide)
    · exact (isLive_update _ _).trans (h.record hr)
    · exact absurd (hc.1.symm.trans (h.posted hp)) (by decide)
    · rw [loan_of_owed howed, loan_of_owed hlater]
      simp [Loan.step]
    · simp [Loan.Respects, loan_of_owed howed]
  · rw [if_neg hc]
    exact ⟨h, [], rfl, trivial⟩

theorem statusRelease_lent {t : Transaction} (h : Order t) (r : CcimpStatus) :
    Order (t.statusRelease r) ∧ Lent t (t.statusRelease r) := by
  unfold Transaction.statusRelease
  by_cases hc : t.action = .finishing
  · rw [if_pos hc]
    have howed : t.action.owed = true := by rw [hc]; rfl
    have hposted : t.posted = false := by
      by_contra hp
      exact absurd (hc.symm.trans (h.posted (by simpa using hp))) (by decide)
    have hearly : t.stage.early ≠ true := fun he => absurd (hc.symm.trans (h.early he)) (by decide)
    have htouch : Loan.Respects t.loan (.touch ()) := by simp [Loan.Respects, loan_of_owed howed]
    by_cases hagain : r = .busy ∧ t.call.service = .dataPoints
    · -- the connector will call the handler again
      rw [if_pos hagain]
      refine ⟨⟨fun he => absurd he hearly, h.record, fun _ => h.owed howed, fun hp => ?_⟩, [.touch ()], ?_, htouch, trivial⟩
      · simp [hposted, hagain.1] at hp
      · rw [loan_of_owed howed]
        rfl
    · rw [if_neg hagain]
      refine ⟨⟨fun he => absurd he hearly, h.record, fun ho => ?_, fun _ => rfl⟩, [.touch (), .giveBack ()], ?_, htouch,
        trivial, trivial⟩
      · cases ho
      · rw [loan_of_owed howed]
        rfl
  · rw [if_neg hc]
    exact ⟨h, [], rfl, trivial⟩

/-- **One step.** A step that does not abandon the action keeps the order and the discipline. -/
theorem step_lent {t : Transaction} (h : Order t) (o : Op) (ho : t.abandons o = false) :
    Order (t.step o) ∧ Lent t (t.step o) := by
  cases o with
  | api a => exact api_lent h a ho
  | callback c => exact callback_lent h c
  | statusRelease r => exact statusRelease_lent h r

/-! ## Runs -/

/-- the invariant of one send -/
structure Transaction.Inv (t : Transaction) : Prop where
  order : Order t
  safe : t.Safe

theorem step_inv {t : Transaction} (h : t.Inv) (o : Op) (ho : t.abandons o = false) : (t.step o).Inv := by
  obtain ⟨horder, hlent⟩ := step_lent h.order o ho
  refine ⟨horder, (safe_iff_sound _).2 ?_⟩
  exact @step_abs _ _ _ _ Transaction.step _ Transaction.loan _ _ Loan.step_sound _ _ hlent ((safe_iff_sound t).1 h.safe)

namespace System

/-- no record is freed while the connector has its action, and no callback has touched a freed record -/
def Safe (s : System) : Prop := ∀ i, (s.txn i).Safe

/-- the step makes its thread abandon an action, and no assertion halts the build there -/
def abandons (debug : Bool) (s : System) (o : ℕ × Op) : Bool :=
  !s.halted && !decide (debug ∧ (s.txn o.1).asserts o.2) && (s.txn o.1).abandons o.2

/-- the invariant of all of them; a build with assertions releases the file-system lock -/
structure Inv (debug : Bool) (s : System) : Prop where
  txn : ∀ i, (s.txn i).Inv
  fileLock : debug = true → s.fileLockFree = true

theorem begin_inv (debug : Bool) (calls : ℕ → Call) : (System.begin calls).Inv debug :=
  ⟨fun i => ⟨begin_order (calls i), nofun, rfl⟩, fun _ => rfl⟩

theorem fileLockAfter_debug (t : Transaction) (o : Op) (free : Bool) : t.fileLockAfter true o free = free := by
  simp [Transaction.fileLockAfter]

theorem step_inv (debug : Bool) (s : System) (o : ℕ × Op) (h : s.Inv debug) (ho : ¬ s.abandons debug o = true) :
    (s.step debug o).Inv debug := by
  unfold System.step
  split_ifs with hstays hassert
  · exact h
  · exact ⟨h.txn, h.fileLock⟩
  · refine ⟨fun i => ?_, fun hdebug => ?_⟩
    · by_cases hi : i = o.1
      · subst hi
        have hkeep : (s.txn o.1).abandons o.2 = false := by
          simpa [abandons, (not_or.1 hstays).1, hassert] using ho
        simpa using Send.step_inv (h.txn o.1) o.2 hkeep
      · simpa [Function.update_of_ne hi] using h.txn i
    · subst hdebug
      exact (fileLockAfter_debug _ _ _).trans (h.fileLock rfl)

end System

/-! ## An abandoned action -/

/-- an abandoned action leaves the calling thread at the end of the send, and the action with the connector -/
theorem step_abandons {t : Transaction} {o : Op} (h : t.abandons o = true) :
    t.action.owed = true ∧ ∃ e, t.step o = t.fail e := by
  cases o with
  | api a =>
    simp only [Transaction.abandons, Bool.and_eq_true] at h
    obtain ⟨howed, hstage⟩ := h
    refine ⟨howed, ?_⟩
    simp only [Transaction.step, Transaction.api]
    cases hs : t.stage with
    | initiateRelease s =>
      have hne : a.status ≠ .ok := by simpa [hs] using hstage
      exact ⟨.initiateActionFailed, by simp [hne, Transaction.initiated]⟩
    | wait =>
      have hne : a.lockAcquire ≠ .ok := by simpa [hs] using hstage
      exact ⟨.lockFailed, by simp [hne, Transaction.wake]⟩
    | _ => simp [hs] at hstage
  | callback c => cases h
  | statusRelease r => cases h

/-- a file operation of the library gets the lock and gives it back -/
def lockGranted : FileLock := ⟨.ok, .ok⟩

/-- a read that gives n bytes -/
def readOf (n : ℕ) : Read := { lock := lockGranted, status := .ok, bytes := n }

/-- every request is granted -/
def granted : Answer :=
  let send : SvcSend :=
    { sendingFile := false, nextData := 0, fileHandler := 0, bytesRemaining := 0, sendLock := false, requestError := .none,
      responseError := .none, statusError := .none, rawResponseError := none }
  let memory : Memory := ⟨send, ⟨false, .none⟩, ⟨false, .none, .none⟩⟩
  { granted := true, memory := memory, status := .ok, acquired := true, fileLock := lockGranted, fileSize := some 0,
    handler := 0, connector := .success }

/-- the calling thread's way from there to the release of the record; without the assertions the file-system lock may have
been left taken, and its acquire fails -/
def homeward (debug : Bool) : List Op :=
  List.replicate 3 (.api { granted with fileLock := if debug then lockGranted else ⟨.error, .ok⟩ })

theorem homeward_unsafe (debug : Bool) {t : Transaction} (howed : t.action.owed = true) (e : TxError) :
    ¬ (run Transaction.step (t.fail e) (homeward debug)).Safe := by
  rintro ⟨hlive, -⟩
  have hfreed := hlive howed
  simp only [homeward, List.replicate, run_cons, run_nil, Transaction.step, Transaction.api, Transaction.fail] at hfreed
  split_ifs at hfreed with h
  · cases hfreed
  · exact h hfreed

/-- a step that halts no build, waits for no lock and abandons no action -/
def Quiet (debug : Bool) (t : Transaction) (o : Op) : Prop :=
  ¬ (debug = true ∧ t.asserts o = true) ∧ (t.locksFiles o = true → debug = true) ∧ t.abandons o = false

theorem homeward_quiet (debug : Bool) (t : Transaction) (e : TxError) :
    Along Transaction.step (Quiet debug) (t.fail e) (homeward debug) := by
  simp only [homeward, List.replicate, along_cons, Quiet, Transaction.step, Transaction.api, Transaction.fail,
    Transaction.asserts, Transaction.locksFiles, Transaction.abandons, Bool.and_false, granted]
  cases debug <;> cases t.context <;> simp [Answer.fileResult, FileLock.status, FileLock.asserts, lockGranted]

/-- where an action is abandoned the file-system lock is not asked for -/
theorem locksFiles_of_abandons {t : Transaction} {o : Op} (h : t.abandons o = true) : t.locksFiles o = false := by
  cases o with
  | api a =>
    simp only [Transaction.abandons, Bool.and_eq_true] at h
    unfold Transaction.locksFiles
    cases hs : t.stage <;> simp_all
  | callback c => cases h
  | statusRelease r => cases h

namespace System

/-- a step that halts no build and waits for no lock is made -/
theorem step_eq {debug : Bool} {s : System} {o : ℕ × Op} (hhalt : s.halted = false) (hwaits : s.waits o = false)
    (hassert : ¬ (debug = true ∧ (s.txn o.1).asserts o.2 = true)) : s.step debug o = { s with
      fileLockFree := (s.txn o.1).fileLockAfter debug o.2 s.fileLockFree
      txn := Function.update s.txn o.1 ((s.txn o.1).step o.2) } := by
  simp [step, hhalt, hwaits, hassert]

/-- the steps of one thread alone -/
theorem run_alone (debug : Bool) (i : ℕ) {ops : List Op} {s : System} (hhalt : s.halted = false)
    (hfree : debug = true → s.fileLockFree = true) (hops : Along Transaction.step (Quiet debug) (s.txn i) ops) :
    (run (step debug) s (ops.map (i, ·))).txn i = run Transaction.step (s.txn i) ops ∧
      Along (step debug) (fun s o => ¬ s.abandons debug o = true) s (ops.map (i, ·)) := by
  induction ops generalizing s with
  | nil => exact ⟨rfl, trivial⟩
  | cons o ops ih =>
    obtain ⟨⟨hassert, hlocks, habandon⟩, hops⟩ := hops
    have hwaits : s.waits (i, o) = false := by
      by_contra hwaits
      simp only [waits, Bool.not_eq_false, Bool.and_eq_true, Bool.not_eq_true'] at hwaits
      exact absurd ((hfree (hlocks hwaits.1)).symm.trans hwaits.2) (by decide)
    have hstep := step_eq hhalt hwaits hassert
    have htxn : (s.step debug (i, o)).txn i = (s.txn i).step o := by simp [hstep]
    have hfree' : debug = true → (s.step debug (i, o)).fileLockFree = true := by
      rintro rfl
      rw [hstep]
      exact (fileLockAfter_debug _ _ _).trans (hfree rfl)
    obtain ⟨hrun, halong⟩ := ih (s := s.step debug (i, o)) (by rw [hstep, hhalt]) hfree' (by rw [htxn]; exact hops)
    refine ⟨by simpa [htxn] using hrun, ?_, halong⟩
    simp [abandons, habandon]

/-- **Delayed damage.** Behind an abandoned action the record is freed under the connector. -/
theorem doomed (debug : Bool) (s : System) (o : ℕ × Op) (hs : s.Inv debug) (ho : s.abandons debug o = true) :
    ∃ more, Along (step debug) (fun s o => ¬ s.abandons debug o = true) (s.step debug o) more ∧
      ¬ (run (step debug) (s.step debug o) more).Safe := by
  obtain ⟨i, o⟩ := o
  simp only [abandons, Bool.and_eq_true, Bool.not_eq_true', decide_eq_false_iff_not] at ho
  obtain ⟨⟨hhalt, hassert⟩, habandon⟩ := ho
  obtain ⟨howed, e, he⟩ := step_abandons habandon
  have hlocks := locksFiles_of_abandons habandon
  have hstep : s.step debug (i, o) = { s with txn := Function.update s.txn i ((s.txn i).fail e) } := by
    rw [step_eq hhalt (by simp [waits, hlocks]) hassert]
    simp only [he, Transaction.fileLockAfter, hlocks, Bool.not_false, Bool.or_true, Bool.and_true]
  have htxn : (s.step debug (i, o)).txn i = (s.txn i).fail e := by simp [hstep]
  obtain ⟨hrun, halong⟩ := run_alone debug i (s := s.step debug (i, o)) (by rw [hstep]; exact hhalt)
    (by rw [hstep]; exact hs.fileLock) (by rw [htxn]; exact homeward_quiet debug (s.txn i) e)
  refine ⟨_, halong, fun hsafe => ?_⟩
  have := hsafe i
  rw [hrun, htxn] at this
  exact homeward_unsafe debug howed e this

end System

/-! ## Main results -/

/-- **The record's lifetime.** For every build, any number of sends of the four services and any interleaving of their
threads with the connector's callbacks, with every answer of every operation: however a prefix of the run is continued
without abandoning an action, no record is freed while the connector has its action and no callback has touched a freed
record, exactly when no step of the run abandons an action. -/
theorem lifetime_iff (debug : Bool) (calls : ℕ → Call) (ops : List (ℕ × Op)) :
    (∀ k more,
      Along (System.step debug) (fun s o => ¬ s.abandons debug o = true)
        (run (System.step debug) (System.begin calls) (ops.take k)) more →
      (run (System.step debug) (run (System.step debug) (System.begin calls) (ops.take k)) more).Safe) ↔
    Along (System.step debug) (fun s o => ¬ s.abandons debug o = true) (System.begin calls) ops :=
  along_iff_doomed (I := System.Inv debug) (fun _ h i => (h.txn i).safe) (System.step_inv debug)
    (fun s o hs ho => System.doomed debug s o hs (not_not.1 ho)) (System.begin_inv debug calls) ops

/-- a send of one byte over a started transport -/
def oneByte : Call :=
  { service := .data, running := true, transportStarted := some true, cloudPath := some [97], contentType := none,
    data := some [1], localPath := none, hint := none, collection := false, withReply := false }

/-- **An interrupted wait**: the connector has accepted the action, the wait is interrupted, the record is freed, and the
connector asks for the data. -/
theorem interrupted_wait : ¬ ∀ (debug : Bool) (calls : ℕ → Call) (ops : List (ℕ × Op)),
    (run (System.step debug) (System.begin calls) ops).Safe := by
  intro h
  have hsafe := h false (fun _ => oneByte)
    (List.replicate 6 (0, .api granted) ++ [(0, .api { granted with status := .error })] ++
      List.replicate 3 (0, .api granted) ++ [(0, .callback (.sendDataRequest 1 (readOf 1)))]) 0
  exact absurd hsafe.2 (by decide)

end CcApi.Send
