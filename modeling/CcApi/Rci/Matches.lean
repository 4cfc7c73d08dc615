/-
What a query on settings is answered as its comparison's result (`compare_matches`, `ccapi_rci_handler.c`).

The result is one field of the instance record: the user callbacks write it, the answer of a group, a list or an element
reads it, and only the start of an action and the answer of an element reset it. So what the callback of a group, or of
anything else, leaves in it is found by the next one.

- `compared_run`: in a run in which nothing is left in it when a group, a list or an element is asked for, each of their
  callbacks finds it unset, and each is answered what its own callback has left.
- `group_inherited`: an element that is answered what the callback of its group has left.
-/
import CcApi.Rci.Nesting

namespace CcApi.Rci

open Lib Lib.Runs

/-! ## What is compared -/

/-- a query on settings is open -/
def Pos.comparing (p : Pos) : Bool :=
  match p.action with
  | some (.query, .setting, _) => true
  | _ => false

/-- the requests that are answered a comparison's result -/
def RequestId.compared : RequestId → Bool
  | .groupStart | .listStart | .elementProcess => true
  | _ => false

/-- where the connector was when it asked request number n -/
def posAt (s : St) (n : ℕ) : Pos := (s.answers.take n).foldl (fun p x => p.next x.request.id x.request.rc) .start

/-- r is one of a query on settings that is answered a result -/
def Compares (s : St) (r : Request) : Prop := r.id.compared = true ∧ (posAt s r.serial).comparing = true

instance (s : St) (r : Request) : Decidable (Compares s r) := inferInstanceAs (Decidable (_ ∧ _))

/-- every callback of a group, a list or an element finds no result, and the request is answered the one it leaves -/
structure Compared (s : St) : Prop where
  entered : ∀ k ∈ s.calls, ∀ r, k.request = some r → Compares s r → k.info.querySetting.matches_ = false
  answered : ∀ x ∈ s.answers, Compares s x.request →
    ∃ u, resultsOf s x.request.serial = [u] ∧ x.record.response.compareMatches = u.matches_

/-- the number of the first request since the start of the last action, and since the last element -/
def lastReset (answers : List Answer) : ℕ :=
  answers.foldl (fun m x => match x.request.id with
    | .actionStart => x.request.serial
    | .elementProcess => x.request.serial + 1
    | _ => m) 0

/-- what the last callback since request number m has left -/
def leftSince (s : St) (m : ℕ) : Bool :=
  ((s.results.filter fun p => m ≤ p.1).getLast?.map fun p => p.2.matches_).getD false

/-- a group, a list or an element of a query on settings is asked for when the callbacks since the action's start and since
the last element have left no result -/
def Unset (s : St) : Op → Prop
  | .submit id _ => s.request = none → id.compared = true → s.pos.comparing = true →
    leftSince s (lastReset s.answers) = false
  | _ => True

instance (s : St) : ∀ o, Decidable (Unset s o)
  | .submit _ _ => inferInstanceAs (Decidable (_ → _ → _ → _ = _))
  | .poll | .cancel _ | .stop | .wake | .read | .call | .ret _ | .store | .update => inferInstanceAs (Decidable True)

theorem lastReset_concat (l : List Answer) (x : Answer) : lastReset (l ++ [x]) =
    match x.request.id with
    | .actionStart => x.request.serial
    | .elementProcess => x.request.serial + 1
    | _ => lastReset l := by
  rw [lastReset, List.foldl_append]
  rfl

/-- the last callback is the last since any request before it -/
theorem leftSince_concat {s t : St} {n : ℕ} {u : UserResult} (h : t.results = s.results ++ [(n, u)]) {m : ℕ} (hm : m ≤ n) :
    leftSince t m = u.matches_ := by
  simp [leftSince, h, List.filter_append, hm]

theorem leftSince_new {s : St} {m : ℕ} (h : ∀ p ∈ s.results, p.1 < m) : leftSince s m = false := by
  have hnone : (s.results.filter fun p => m ≤ p.1) = [] := by
    rw [List.filter_eq_nil_iff]
    intro p hp
    simpa using h p hp
  rw [leftSince, hnone]
  rfl

/-! ## The record -/

variable (cfg : Config)

theorem finish_matches {id : RequestId} (h : id ≠ .elementProcess) (rc : RemoteConfig) (info : RciInfo) :
    (finish cfg id info rc).1.querySetting = info.querySetting := by
  cases id
  case elementProcess => exact absurd rfl h
  all_goals
    simp only [finish, RciInfo.clearTree, RciInfo.clearGroup, RciInfo.clearElement, RciInfo.clearAllLists_eq,
      RciInfo.clearList, RciInfo.atLevel]
  case actionEnd => split <;> rfl

/-! ## Invariant -/

/-- the user callback has returned -/
def Pc.Returned : Pc → Prop
  | .returned _ | .stored => True
  | _ => False

/-- the request's callback has returned, or there is none -/
def Returned (s : St) : Prop := s.svc.status = .cbProcessed ∨ s.pc.Returned

/-- a query on settings is open or being opened -/
def InQuery (s : St) : Prop :=
  s.pos.comparing = true ∨
    ∃ r, s.request = some r ∧ r.id = .actionStart ∧ r.rc.action = .query ∧ r.rc.groupType = .setting

/-- the first request whose callback can have left what the record holds -/
def window (s : St) : ℕ :=
  match s.request with
  | some r => if r.id = .actionStart then r.serial else lastReset s.answers
  | none => lastReset s.answers

/-- the callbacks a query on settings needs for its results -/
structure Queries : Prop where
  startAction : cfg.registered .startAction = true
  startGroup : cfg.registered .startGroup = true
  startList : cfg.registered .startList = true
  getElement : cfg.registered .getElement = true

structure Watched (s : St) : Prop where
  tidy : Tidy s
  nested : s.pos.Nested
  allowed : ∀ r, s.request = some r → s.pos.Allows cfg.listMaxDepth r.id r.rc
  owner : ∀ o, s.svc.status = .cbQueued → s.owner = some o → o.serial = s.answers.length
  reset : lastReset s.answers ≤ s.answers.length
  results : ∀ p ∈ s.results, p.1 < s.next
  calls : ∀ k ∈ s.calls, ∀ r, k.request = some r → r.serial ≤ s.answers.length
  before : ∀ r, s.request = some r → ¬ Returned s → resultsOf s r.serial = [] ∧
    (r.id.compared = true → s.pos.comparing = true → leftSince s (lastReset s.answers) = false)
  after : ∀ r, s.request = some r → Returned s → r.queued.isSome = true →
    ∃ u, resultsOf s r.serial = [u] ∧ s.svc.info.querySetting.matches_ = u.matches_
  queued : ∀ r, s.request = some r → r.id.compared = true → s.pos.comparing = true → r.queued.isSome = true
  info : InQuery s → s.svc.info.action = some .query ∧ s.svc.info.groupType = some .setting ∧
    s.svc.info.querySetting.matches_ = leftSince s (window s)
  compared : Compared s

/-- requests are numbered in the order they are answered -/
theorem Tidy.length {s : St} (h : Tidy s) : s.next = s.answers.length + s.request.toList.length := by
  have := congrArg List.length h.serials
  simpa [Option.toList_map] using this.symm

theorem Tidy.serial_now {s : St} (h : Tidy s) {r : Request} (hr : s.request = some r) : r.serial = s.answers.length := by
  have hser := h.serials
  have hlen := h.length
  rw [hr] at hser hlen
  have hget := congrArg (fun l => l[s.answers.length]?) hser
  simpa [hlen] using hget

theorem Tidy.serial_lt {s : St} (h : Tidy s) {x : Answer} (hx : x ∈ s.answers) : x.request.serial < s.answers.length := by
  obtain ⟨i, hi, rfl⟩ := List.getElem_of_mem hx
  have hget := congrArg (fun l => l[i]?) h.serials
  have hlen := h.length
  have hserial : (s.answers[i]).request.serial = i := by
    have hlt : i < s.next := by omega
    simpa [List.getElem?_append_left, hi, hlt] using hget
  omega

theorem posAt_now (s : St) : posAt s s.answers.length = s.pos := by
  simp [posAt, St.pos]

theorem posAt_concat {s t : St} {x : Answer} (h : t.answers = s.answers ++ [x]) {n : ℕ} (hn : n ≤ s.answers.length) :
    posAt t n = posAt s n := by
  rw [posAt, h, List.take_append_of_le_length hn]
  rfl

theorem pos_concat {s t : St} {x : Answer} (h : t.answers = s.answers ++ [x]) :
    t.pos = s.pos.next x.request.id x.request.rc := by
  simp [St.pos, h]

theorem comparing_iff {p : Pos} : p.comparing = true ↔ ∃ b, p.action = some (.query, .setting, b) := by
  unfold Pos.comparing
  split
  · next b h => simp [h]
  · next h =>
    simp only [Bool.false_eq_true, false_iff]
    rintro ⟨b, hb⟩
    exact h b hb

section
variable {cfg} {s : St}

theorem Watched.frame {t : St} (h : Watched cfg s) (ht : Tidy t) (hreq : t.request = s.request)
    (hans : t.answers = s.answers) (hcalls : t.calls = s.calls) (hres : t.results = s.results)
    (hinfo : t.svc.info = s.svc.info) (hnext : t.next = s.next) (hret : Returned t ↔ Returned s)
    (howner : t.svc.status = .cbQueued → s.svc.status = .cbQueued ∧ t.owner = s.owner) : Watched cfg t := by
  obtain ⟨⟨info, callback, status⟩, lock, stopping, pc, request, next, owner, serving, cancelled, calls, results, answers⟩ := s
  obtain ⟨⟨info', callback', status'⟩, lock', stopping', pc', request', next', owner', serving', cancelled', calls',
    results', answers'⟩ := t
  dsimp only at hreq hans hcalls hres hinfo hnext howner
  subst hreq hans hcalls hres hinfo hnext
  refine ⟨ht, h.nested, h.allowed, fun o hs ho => ?_, h.reset, h.results, h.calls, fun r hr hn => ?_, fun r hr hy => ?_,
    h.queued, h.info, ⟨h.compared.entered, h.compared.answered⟩⟩
  · obtain ⟨hs', hsame⟩ := howner hs
    exact h.owner o hs' (hsame ▸ ho)
  · exact h.before r hr fun hy => hn (hret.2 hy)
  · exact h.after r hr (hret.1 hy)

/-- a request whose result is compared has a callback -/
theorem handles_of_compared (hcfg : Queries cfg) {id : RequestId} {info : RciInfo} (hid : id.compared = true)
    (hact : info.action = some .query) : cfg.handles info id = true := by
  cases id
  case groupStart => simpa [Config.handles, RequestId.callback] using hcfg.startGroup
  case listStart => simpa [Config.handles, RequestId.callback] using hcfg.startList
  case elementProcess => simp [Config.handles, haveHandler, hact, hcfg.getElement]
  all_goals cases hid

/-- what the instance record is when a request has been presented -/
theorem presented_info (hcfg : Queries cfg) (h : Watched cfg s) {id : RequestId} {rc : RemoteConfig}
    (hr : s.request = none) (ha : s.pos.Allows cfg.listMaxDepth id rc) (cb : Callback) {t : St}
    (hreq : ∃ r, t.request = some r ∧ r.id = id ∧ r.rc = rc ∧ r.serial = s.next) (hans : t.answers = s.answers)
    (hres : t.results = s.results) (hinfo : t.svc.info = (queue cfg id rc (s.svc.info.takenUp rc, cb)).1)
    (hq : InQuery t) :
    t.svc.info.action = some .query ∧ t.svc.info.groupType = some .setting ∧
      t.svc.info.querySetting.matches_ = leftSince t (window t) := by
  obtain ⟨r, hr', hid, hrc, hserial⟩ := hreq
  have hpos : t.pos = s.pos := by simp [St.pos, hans]
  have hleft : ∀ m, leftSince t m = leftSince s m := fun m => by simp [leftSince, hres]
  rcases hq with hq | ⟨r', hr'', hid', hact, htype⟩
  · rw [hpos] at hq
    obtain ⟨b, hb⟩ := comparing_iff.1 hq
    have hid : id ≠ .sessionStart ∧ id ≠ .actionStart := by
      constructor
      · rintro rfl
        have hnone := h.nested.action ha
        rw [hb] at hnone
        cases hnone
      · rintro rfl
        have hnone := ha.2
        rw [hb] at hnone
        cases hnone
    obtain ⟨h1, h2, h3, -⟩ := queue_comparison cfg hid rc (s.svc.info.takenUp rc, cb)
    obtain ⟨hact, htype, hmatches⟩ := h.info (Or.inl hq)
    have hwindow : window t = window s := by
      simp only [window, hr, hr', hans]
      rw [if_neg (by rw [‹r.id = _›]; exact hid.2)]
    rw [hinfo, h1, h2, h3, hleft, hwindow]
    exact ⟨hact, htype, hmatches⟩
  · obtain rfl : r = r' := Option.some.inj (hr'.symm.trans hr'')
    have hstart : id = .actionStart := hid.symm.trans hid'
    subst hstart
    rw [hrc] at hact htype
    have hnew : leftSince t (window t) = false := by
      have hwindow : window t = s.next := by simp [window, hr', hid, hserial]
      rw [hwindow, hleft]
      exact leftSince_new h.results
    have hqueue : (queue cfg .actionStart rc (s.svc.info.takenUp rc, cb)).1 = startAction cfg rc (s.svc.info.takenUp rc) := by
      simp only [queue, queueBase_eq cfg hcfg.startAction]
    rw [hinfo, hqueue, hnew]
    simp [startAction, hact, htype, RciInfo.clearTree, RciInfo.clearGroup, RciInfo.clearElement, RciInfo.clearAllLists_eq]

theorem submit_watched (hcfg : Queries cfg) (h : Watched cfg s) {id : RequestId} {rc : RemoteConfig}
    (hl : Legal cfg s (.submit id rc)) (ho : Unset s (.submit id rc)) : Watched cfg (step cfg s (.submit id rc)) := by
  have htidy := tidy_step cfg h.tidy hl.noCancel
  rcases submit_cases cfg h.tidy id rc with hsame | ⟨hr, hid, hst⟩
  · rw [hsame]
    exact h
  · have ha := hl ⟨hr, hid⟩
    have hnext : s.next = s.answers.length := by simpa [hr] using h.tidy.length
    have hidle : ¬ s.pc.Returned := by
      intro hpc
      have hw : s.pc.Working := by
        revert hpc
        cases s.pc <;> simp [Pc.Returned, Pc.Working]
      rw [(h.tidy.working hw).1] at hst
      cases hst
    have hfresh : resultsOf s s.next = [] := by
      rw [resultsOf, List.map_eq_nil_iff, List.filter_eq_nil_iff]
      intro p hp
      have := h.results p hp
      simp only [decide_eq_true_eq]
      omega
    have hpresented := @presented_info cfg s hcfg h id rc hr ha s.svc.callback.clear
    have hold : ∀ p ∈ s.results, p.1 < s.next + 1 := fun p hp => Nat.lt_succ_of_lt (h.results p hp)
    cases hh : cfg.handles s.svc.info id with
    | false =>
      have hnot : id.compared = true → s.pos.comparing = true → False := by
        intro hcomp hq
        rw [handles_of_compared hcfg hcomp (h.info (Or.inl hq)).1] at hh
        cases hh
      rw [submit_skip cfg hr hid hst hh] at htidy ⊢
      have hinfo : s.svc.info.takenUp rc = (queue cfg id rc (s.svc.info.takenUp rc, s.svc.callback.clear)).1 := by
        rw [queue_skip cfg hh]
      refine ⟨htidy, h.nested, ?_, ?_, h.reset, hold, h.calls, ?_, ?_, ?_, ?_, ⟨h.compared.entered, h.compared.answered⟩⟩
      · intro r hr'
        obtain rfl := Option.some.inj hr'
        exact ha
      · intro o hs
        cases hs
      · intro r _ hn
        exact absurd (Or.inl rfl) hn
      · intro r hr' _ hsome
        obtain rfl := Option.some.inj hr'
        cases hsome
      · intro r hr' hcomp hq
        obtain rfl := Option.some.inj hr'
        exact absurd hq (hnot hcomp)
      · exact hpresented ⟨_, rfl, rfl, rfl, rfl⟩ rfl rfl hinfo
    | true =>
      rw [submit_queue cfg hr hid hst hh] at htidy ⊢
      refine ⟨htidy, h.nested, ?_, ?_, h.reset, hold, h.calls, ?_, ?_, ?_, ?_, ⟨h.compared.entered, h.compared.answered⟩⟩
      · intro r hr'
        obtain rfl := Option.some.inj hr'
        exact ha
      · intro o _ hown
        obtain rfl := Option.some.inj hown
        exact hnext
      · intro r hr' _
        obtain rfl := Option.some.inj hr'
        exact ⟨hfresh, fun hcomp hq => ho hr hcomp hq⟩
      · intro r _ hret
        rcases hret with hs | hpc
        · cases hs
        · exact absurd hpc hidle
      · intro r hr' _ _
        obtain rfl := Option.some.inj hr'
        rfl
      · exact hpresented ⟨_, rfl, rfl, rfl, rfl⟩ rfl rfl rfl

/-- what is answered and how the record is left, when the worker is through -/
theorem answer_info (h : Watched cfg s) {r : Request} (hr : s.request = some r) {t : St} {x : Answer}
    (hreq : t.request = none) (hans : t.answers = s.answers ++ [x]) (hx : x.request = r) (hres : t.results = s.results)
    (hinfo : t.svc.info = (finish cfg r.id s.svc.info r.rc).1) (hq : InQuery t) :
    t.svc.info.action = some .query ∧ t.svc.info.groupType = some .setting ∧
      t.svc.info.querySetting.matches_ = leftSince t (window t) := by
  have hleft : ∀ m, leftSince t m = leftSince s m := fun m => by simp [leftSince, hres]
  have hwindow : window t = lastReset (s.answers ++ [x]) := by simp [window, hreq, hans]
  have hcomparing : (s.pos.next r.id r.rc).comparing = true := by
    rcases hq with hq | ⟨r', hr', -⟩
    · rw [pos_concat hans, hx] at hq
      exact hq
    · rw [hreq] at hr'
      cases hr'
  have hinq : InQuery s := by
    obtain ⟨b, hb⟩ := comparing_iff.1 hcomparing
    by_cases hid : r.id = .actionStart
    · rw [hid] at hb
      simp only [Pos.next, Option.some.injEq, Prod.mk.injEq] at hb
      exact Or.inr ⟨r, hr, hid, hb.1, hb.2.1⟩
    · refine Or.inl (comparing_iff.2 ⟨b, ?_⟩)
      cases hid' : r.id <;> simp_all [Pos.next]
  obtain ⟨hact, htype, hmatches⟩ := h.info hinq
  obtain ⟨h1, h2, -⟩ := finish_action cfg r.id r.rc s.svc.info
  rw [hinfo, h1, h2]
  refine ⟨hact, htype, ?_⟩
  have hserial := h.tidy.serial_now hr
  rw [hleft, hwindow, lastReset_concat, hx]
  by_cases hid : r.id = .elementProcess
  · rw [hid]
    have hnew : ∀ p ∈ s.results, p.1 < r.serial + 1 := by
      intro p hp
      have := h.results p hp
      have := h.tidy.length
      rw [hr] at this
      simp only [Option.toList_some, List.length_singleton] at this
      omega
    rw [leftSince_new hnew]
    simp [finish, hact, htype]
  · rw [finish_matches cfg hid, hmatches]
    simp only [window, hr]
    cases hid' : r.id <;> simp_all

theorem reset_concat_le {l : List Answer} (h : lastReset l ≤ l.length) {x : Answer} (hx : x.request.serial = l.length) :
    lastReset (l ++ [x]) ≤ (l ++ [x]).length := by
  rw [lastReset_concat, List.length_append, List.length_singleton]
  split <;> omega

/-- a request in progress is compared where the connector is now -/
theorem compares_now (h : Tidy s) {r : Request} (hr : s.request = some r) :
    Compares s r ↔ r.id.compared = true ∧ s.pos.comparing = true := by
  rw [Compares, h.serial_now hr, posAt_now]

theorem poll_watched (h : Watched cfg s) : Watched cfg (step cfg s .poll) := by
  have htidy : Tidy (step cfg s .poll) := tidy_step cfg h.tidy (o := .poll) trivial
  cases hr : s.request with
  | none => simpa only [step, hr] using h
  | some r =>
    obtain ⟨hne, hid⟩ := h.tidy.asked r hr
    cases hs : s.svc.status with
    | idle => exact absurd hs hne
    | cbQueued =>
      rw [poll_busy cfg hr hid hs] at htidy ⊢
      have hwindow : window { s with request := some { r with busy := r.busy + 1 } } = window s := by simp [window, hr]
      refine ⟨htidy, h.nested, ?_, h.owner, h.reset, h.results, h.calls, ?_, ?_, ?_, fun hq => ?_,
        ⟨h.compared.entered, h.compared.answered⟩⟩
      · intro i hi
        obtain rfl := Option.some.inj hi
        exact h.allowed r hr
      · intro i hi hn
        obtain rfl := Option.some.inj hi
        exact h.before r hr hn
      · intro i hi hy hsome
        obtain rfl := Option.some.inj hi
        exact h.after r hr hy hsome
      · intro i hi hcomp hq
        obtain rfl := Option.some.inj hi
        exact h.queued r hr hcomp hq
      · have hq' : InQuery s := by
          rcases hq with hq | ⟨i, hi, hiq⟩
          · exact Or.inl hq
          · obtain rfl := Option.some.inj hi
            exact Or.inr ⟨r, hr, hiq⟩
        rw [hwindow]
        exact h.info hq'
    | cbProcessed =>
      rw [poll_answer cfg hr hid hs] at htidy ⊢
      have hserial := h.tidy.serial_now hr
      have hlength : ∀ x : Answer, s.answers.length ≤ (s.answers ++ [x]).length := by simp
      refine ⟨htidy, ?_, ?_, ?_, reset_concat_le h.reset hserial, h.results, ?_, ?_, ?_, ?_, ?_, ?_, ?_⟩
      · rw [pos_concat rfl]
        exact h.nested.next (h.allowed r hr)
      · intro i hi
        cases hi
      · intro o hq
        cases hq
      · intro k hk i hi
        exact (h.calls k hk i hi).trans (hlength _)
      · intro i hi
        cases hi
      · intro i hi
        cases hi
      · intro i hi
        cases hi
      · exact answer_info h hr rfl rfl rfl rfl rfl
      · intro k hk i hi hcomp
        refine h.compared.entered k hk i hi ?_
        rwa [Compares, posAt_concat rfl (h.calls k hk i hi)] at hcomp
      · intro x hx hcomp
        rcases List.mem_append.1 hx with hx | hx
        · refine h.compared.answered x hx ?_
          rwa [Compares, posAt_concat rfl (h.tidy.serial_lt hx).le] at hcomp
        · rw [List.mem_singleton.1 hx] at hcomp ⊢
          rw [Compares, posAt_concat rfl hserial.le] at hcomp
          obtain ⟨hcompared, hq⟩ := (compares_now h.tidy hr).1 hcomp
          obtain ⟨u, hu, hmatches⟩ := h.after r hr (Or.inl hs) (h.queued r hr hcompared hq)
          obtain ⟨hact, htype, -⟩ := h.info (Or.inl hq)
          refine ⟨u, hu, ?_⟩
          rw [← hmatches, handler_processed cfg hid hs]
          cases hid' : r.id <;> simp_all [RequestId.compared, finish, tellMatches]

/-- the worker's callback is the one of the request in progress -/
theorem Watched.serving (h : Watched cfg s) (hpc : s.pc.Working) :
    ∃ o r, s.serving = some o ∧ s.request = some r ∧ o.id = r.id ∧ o.serial = s.answers.length := by
  obtain ⟨hst, hserving⟩ := h.tidy.working hpc
  obtain ⟨o, r, hown, hr, hid, -⟩ := h.tidy.owner hst
  exact ⟨o, r, hserving.trans hown, hr, hid, h.owner o hst hown⟩

theorem call_watched (h : Watched cfg s) : Watched cfg (step cfg s .call) := by
  have htidy : Tidy (step cfg s .call) := tidy_step cfg h.tidy (o := .call) trivial
  simp only [step] at htidy ⊢
  split at htidy
  · next c hpc =>
    obtain ⟨o, r, hserving, hr, hid, hserial⟩ := h.serving (by simp [hpc, Pc.Working])
    have hst := (h.tidy.working (by simp [hpc, Pc.Working])).1
    have hnot : ¬ Returned s := by simp [Returned, hst, hpc, Pc.Returned]
    have hcall : ∀ t : St, Returned t ↔ t.svc.status = .cbProcessed ∨ t.pc.Returned := fun _ => Iff.rfl
    refine ⟨htidy, h.nested, h.allowed, h.owner, h.reset, h.results, ?_, ?_, ?_, h.queued, h.info, ?_, h.compared.answered⟩
    · intro k hk i hi
      rcases List.mem_append.1 hk with hk | hk
      · exact h.calls k hk i hi
      · rw [List.mem_singleton.1 hk, hserving] at hi
        obtain rfl := Option.some.inj hi
        exact hserial.le
    · intro i hi _
      exact h.before i hi hnot
    · intro i _ hret
      simp [hcall, hst, Pc.Returned] at hret
    · intro k hk i hi hcomp
      rcases List.mem_append.1 hk with hk | hk
      · exact h.compared.entered k hk i hi hcomp
      · rw [List.mem_singleton.1 hk] at hi ⊢
        rw [hserving] at hi
        obtain rfl := Option.some.inj hi
        -- the call is the current request's, whose callback finds nothing left
        have hpos : posAt s o.serial = s.pos := by rw [hserial, posAt_now]
        have hq : s.pos.comparing = true := hpos ▸ hcomp.2
        have hcompared : r.id.compared = true := hid ▸ hcomp.1
        have hwindow : window s = lastReset s.answers := by
          simp only [window, hr]
          rw [if_neg]
          intro hstart
          rw [hstart] at hcompared
          cases hcompared
        have hmatches := (h.info (Or.inl hq)).2.2
        rw [hwindow, (h.before r hr hnot).2 hcompared hq] at hmatches
        exact hmatches
  · exact h

theorem ret_watched (h : Watched cfg s) (u : UserResult) : Watched cfg (step cfg s (.ret u)) := by
  have htidy : Tidy (step cfg s (.ret u)) := tidy_step cfg h.tidy (o := .ret u) trivial
  simp only [step] at htidy ⊢
  split at htidy
  · next hpc =>
    obtain ⟨o, r, hserving, hr, hid, hserial⟩ := h.serving (by simp [hpc, Pc.Working])
    have hst := (h.tidy.working (by simp [hpc, Pc.Working])).1
    have hnot : ¬ Returned s := by simp [Returned, hst, hpc, Pc.Returned]
    have hown : (s.serving.map Request.serial).getD 0 = s.answers.length := by simp [hserving, hserial]
    have hnow := h.tidy.serial_now hr
    have hnext : s.next = s.answers.length + 1 := by simpa [hr] using h.tidy.length
    rw [hown] at htidy ⊢
    have hwindow : window s ≤ s.answers.length := by
      simp only [window, hr]
      split
      · exact hnow.le
      · exact h.reset
    refine ⟨htidy, h.nested, h.allowed, h.owner, h.reset, ?_, h.calls, ?_, ?_, h.queued, ?_, h.compared.entered, ?_⟩
    · intro p hp
      rcases List.mem_append.1 hp with hp | hp
      · exact h.results p hp
      · rw [List.mem_singleton.1 hp]
        show s.answers.length < s.next
        omega
    · intro i _ hn
      exact absurd (Or.inr trivial) hn
    · intro i hi _ _
      obtain rfl := Option.some.inj (hr.symm.trans hi)
      refine ⟨u, ?_, rfl⟩
      have hbefore := (h.before r hr hnot).1
      rw [resultsOf] at hbefore ⊢
      rw [List.filter_append, List.map_append, hbefore, hnow]
      simp
    · intro hq
      obtain ⟨hact, htype, -⟩ := h.info hq
      exact ⟨hact, htype, (leftSince_concat rfl hwindow).symm⟩
    · intro x hx hcomp
      obtain ⟨v, hv, hmatches⟩ := h.compared.answered x hx hcomp
      refine ⟨v, ?_, hmatches⟩
      have hlt := h.tidy.serial_lt hx
      rw [resultsOf] at hv ⊢
      rw [List.filter_append, List.map_append, hv]
      simp [hlt.ne']
  · exact h

/-- **Step.** -/
theorem step_watched (hcfg : Queries cfg) (h : Watched cfg s) {o : Op} (hl : Legal cfg s o) (ho : Unset s o) :
    Watched cfg (step cfg s o) := by
  have htidy := tidy_step cfg h.tidy hl.noCancel
  cases o
  case submit id rc => exact submit_watched hcfg h hl ho
  case poll => exact poll_watched h
  case cancel rc => exact absurd hl id
  case call => exact call_watched h
  case ret u => exact ret_watched h u
  case stop =>
    simp only [step] at htidy ⊢
    split_ifs at htidy ⊢
    · exact h
    · exact h.frame htidy rfl rfl rfl rfl rfl rfl Iff.rfl fun hs => ⟨hs, rfl⟩
  case wake =>
    simp only [step] at htidy ⊢
    split at htidy
    · next hpc hl =>
      refine h.frame htidy rfl rfl rfl rfl rfl rfl ?_ fun hs => ⟨hs, rfl⟩
      cases s.stopping <;> simp [Returned, hpc, Pc.Returned]
    · exact h
  case read =>
    simp only [step] at htidy ⊢
    split at htidy
    · next hpc =>
      split_ifs at htidy ⊢
      · refine h.frame htidy rfl rfl rfl rfl rfl rfl ?_ fun hs => ⟨hs, rfl⟩
        simp [Returned, hpc, Pc.Returned]
      · refine h.frame htidy rfl rfl rfl rfl rfl rfl ?_ fun hs => ⟨hs, rfl⟩
        simp [Returned, hpc, Pc.Returned]
    · exact h
  case store =>
    simp only [step] at htidy ⊢
    split at htidy
    · next e hpc =>
      refine h.frame htidy rfl rfl rfl rfl rfl rfl ?_ fun hs => ⟨hs, rfl⟩
      simp [Returned, hpc, Pc.Returned]
    · exact h
  case update =>
    simp only [step] at htidy ⊢
    split at htidy
    · next hpc =>
      have hst := (h.tidy.working (by simp [hpc, Pc.Working])).1
      refine h.frame htidy rfl rfl rfl rfl rfl rfl ?_ fun hs => ?_
      · simp [Returned, hpc, hst, Pc.Returned]
      · simp [hst] at hs
    · exact h

theorem watched_init (h : Init s) : Watched cfg s := by
  have htidy := tidy_init h
  obtain ⟨hs, -, -, -, hpc, ⟨hr, -, -⟩, hn, hcalls, hresults, hanswers⟩ := h
  have hnot : ∀ r, s.request = some r → False := fun r hr' => by simp [hr] at hr'
  have hpos : s.pos = .start := by simp [St.pos, hanswers]
  refine ⟨htidy, by rw [hpos]; exact Pos.nested_start, fun r hr' => (hnot r hr').elim, fun o hq => by simp [hs] at hq,
    by simp [hanswers, lastReset], by simp [hresults], by simp [hcalls], fun r hr' => (hnot r hr').elim,
    fun r hr' => (hnot r hr').elim, fun r hr' => (hnot r hr').elim, fun hq => ?_, by simp [hcalls], by simp [hanswers]⟩
  rcases hq with hq | ⟨r, hr', -⟩
  · rw [hpos] at hq
    cases hq
  · exact (hnot r hr').elim

variable (cfg) in
/-- **Comparisons.** With start_action, start_group, start_list and get_element registered, in every well-nested run without
cancellations, whatever the callbacks leave and the interleaving with the worker: if no group, list or element of a query on
settings is asked for while the callbacks since the action's start and since the last element have left a result, each of
their callbacks finds no result, and each is answered the result its own callback leaves. -/
theorem compared_run (hcfg : Queries cfg) (h : Init s) {ops : List Op} (hl : Along (step cfg) (Legal cfg) s ops)
    (ho : Along (step cfg) Unset s ops) : Compared (run (step cfg) s ops) := by
  have hstep : ∀ s o, Watched cfg s → Legal cfg s o ∧ Unset s o → Watched cfg (step cfg s o) :=
    fun _ _ hw hlo => step_watched hcfg hw hlo.1 hlo.2
  exact (Runs.run_inv hstep (watched_init h) (along_and.2 ⟨hl, ho⟩)).compared

end

/-! ## Runs -/

/-- a query on settings: its group's callback leaves m, an element's leaves m' -/
def comparesElement (m m' : Bool) : List Op :=
  exchange .sessionStart .plain ⟨0, false, false, none, none⟩ ++ exchange .actionStart .plain ⟨0, false, false, none, none⟩ ++
    exchange .groupStart .plain ⟨0, m, false, none, none⟩ ++ exchange .elementProcess .plain ⟨0, m', false, none, none⟩

theorem queries_all : Queries Config.all := ⟨rfl, rfl, rfl, rfl⟩

theorem compared_element : Compared (run (step Config.all) (.fresh .zero) (comparesElement false true)) :=
  compared_run Config.all queries_all (init_fresh _) (by decide +kernel) (by decide +kernel)

/-- **An inherited result.** The callback of a group leaves a match; the one of its element finds it, leaves it alone, and
the element is answered a match. -/
theorem group_inherited : ¬ ∀ (cfg : Config) (s : St) (ops : List Op), Queries cfg → Init s →
    Along (step cfg) (Legal cfg) s ops → Compared (run (step cfg) s ops) := by
  intro h
  have hcompared := h Config.all (.fresh .zero) (comparesElement true true) queries_all (init_fresh _) (by decide +kernel)
  have hfound : ∃ k ∈ (run (step Config.all) (.fresh .zero) (comparesElement true true)).calls, ∃ r ∈ k.request,
      Compares (run (step Config.all) (.fresh .zero) (comparesElement true true)) r ∧ k.info.querySetting.matches_ = true := by
    decide +kernel
  obtain ⟨k, hk, r, hr, hcomp, hmatches⟩ := hfound
  rw [hcompared.entered k hk r hr hcomp] at hmatches
  cases hmatches

end CcApi.Rci
