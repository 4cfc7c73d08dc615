/-
How long a transport's record lives (`ccapi_transport_tcp.c`, `ccapi_transport_udp.c`, `ccapi_transport_sms.c`, `ccapi.c`,
`ccxapi_stop`).

The record is lent to two borrowers: the flag, which promises a record to whoever sees it, and the connector, which reads the
record in its events as long as it is engaged. Calls free the record, and clear the pointer, without asking whether anyone
still has it.

- `api_link`: everything that a step of a call may do to a transport.
- `api_sound`, `event_sound`: a step that takes no record from a borrower keeps the discipline of `Lib.Loan`.
- `transport_iff`: the flag and the events find a record, however a run goes on, exactly when no step of the run takes the
  record from a borrower.
-/
import CcApi.Lib.Loan
import CcApi.Transport.Model

namespace CcApi.Transport

open Lib Lib.Runs

/-! ## The record as a loan -/

inductive Borrower where
  | flag
  | connector
deriving DecidableEq, Repr

namespace Link

def holders (l : Link) : Finset Borrower :=
  (if l.started then {.flag} else ∅) ∪ (if l.engaged then {.connector} else ∅)

/-- the record as a loan to the flag and to the connector -/
def loan (l : Link) : Loan.State Borrower := { live := l.usable, holders := l.holders, faulted := l.eventFault }

/-- somebody has the record -/
def held (l : Link) : Bool := l.started || l.engaged

@[simp] theorem flag_mem (l : Link) : .flag ∈ l.holders ↔ l.started = true := by
  cases h1 : l.started <;> cases h2 : l.engaged <;> simp [holders, h1, h2]

@[simp] theorem connector_mem (l : Link) : .connector ∈ l.holders ↔ l.engaged = true := by
  cases h1 : l.started <;> cases h2 : l.engaged <;> simp [holders, h1, h2]

theorem holders_eq_empty {l : Link} (h : l.held = false) : l.holders = ∅ := by
  simp only [held, Bool.or_eq_false_iff] at h
  simp [holders, h]

/-- the flag finds a record, and so did every event -/
def Safe (l : Link) : Prop := (l.started = true → l.usable = true) ∧ l.eventFault = false

/-- the invariant of a transport -/
structure Inv (l : Link) : Prop where
  loan : Loan.Sound l.loan
  /-- what was freed was allocated -/
  known : ∀ r ∈ l.records.releases, r < l.records.next
  pointed : ∀ r, l.info = some r → r < l.records.next

theorem Inv.safe {l : Link} (h : l.Inv) : l.Safe := ⟨fun hs => h.loan.live .flag ((flag_mem l).2 hs), h.loan.sound⟩

theorem Inv.usable {l : Link} (h : l.Inv) (hheld : l.held = true) : l.usable = true := by
  rcases Bool.or_eq_true_iff.1 hheld with hs | he
  · exact h.loan.live .flag ((flag_mem l).2 hs)
  · exact h.loan.live .connector ((connector_mem l).2 he)

/-! ### What is done to a transport -/

theorem Inv.callUse {l : Link} (h : l.Inv) : l.callUse.Inv := ⟨h.loan, h.known, h.pointed⟩

/-- an event of an engaged connector touches what it holds -/
theorem Inv.eventUse {l : Link} (h : l.Inv) (he : l.engaged = true) : l.eventUse.Inv :=
  ⟨Loan.step_sound l.loan (.touch .connector) h.loan ((connector_mem l).2 he), h.known, h.pointed⟩

/-- nobody has a record that is none, or has been freed -/
theorem Inv.unheld {l : Link} (h : l.Inv) (hfree : l.usable = true → l.held = false) : l.held = false := by
  by_contra hheld
  have hheld : l.held = true := by simpa using hheld
  exact absurd hheld (by simp [hfree (h.usable hheld)])

theorem Inv.freeInfo {l : Link} (h : l.Inv) (hfree : l.usable = true → l.held = false) : l.freeInfo.Inv := by
  unfold Link.freeInfo
  cases hi : l.info with
  | none => exact h
  | some r =>
    refine ⟨Loan.sound_of_unheld (holders_eq_empty (h.unheld hfree)) h.loan.sound, fun b hb => ?_, h.pointed⟩
    rcases List.mem_append.1 hb with hb | hb
    · exact h.known b hb
    · rw [List.mem_singleton.1 hb]
      exact h.pointed r hi

@[simp] theorem freeInfo_engaged (l : Link) : l.freeInfo.engaged = l.engaged := by
  unfold Link.freeInfo
  split <;> rfl

theorem Inv.nullInfo {l : Link} (h : l.Inv) (hfree : l.usable = true → l.held = false) : l.nullInfo.Inv :=
  ⟨Loan.sound_of_unheld (holders_eq_empty (h.unheld hfree)) h.loan.sound, h.known, nofun⟩

/-- a new record is there to be lent -/
theorem Inv.mallocInfo {l : Link} (h : l.Inv) : (l.mallocInfo true).Inv := by
  have hnew : l.records.next ∉ l.records.releases := fun hr => lt_irrefl _ (h.known _ hr)
  have husable : (l.mallocInfo true).usable = true := by simp [Link.mallocInfo, Link.usable, hnew]
  have hloan : (l.mallocInfo true).loan = Loan.step l.loan .make := by
    simp only [Link.loan, husable]
    rfl
  refine ⟨?_, fun r hr => (h.known r hr).trans (Nat.lt_succ_self _), fun r hr => ?_⟩
  · rw [hloan]
    exact Loan.step_sound l.loan .make h.loan trivial
  · obtain rfl : l.records.next = r := by simpa [Link.mallocInfo] using hr
    exact Nat.lt_succ_self _

theorem Inv.mallocInfo_none {l : Link} (h : l.Inv) (hfree : l.usable = true → l.held = false) :
    (l.mallocInfo false).Inv :=
  ⟨Loan.sound_of_unheld (holders_eq_empty (h.unheld hfree)) h.loan.sound, h.known, nofun⟩

/-- what the flag and the connector have may change hands while there is a record -/
theorem Inv.lend {l : Link} (h : l.Inv) {s e : Bool} (hlend : s = true ∨ e = true → l.usable = true) :
    ({ l with started := s, engaged := e } : Link).Inv := by
  refine ⟨⟨fun u hu => hlend ?_, h.loan.sound⟩, h.known, h.pointed⟩
  cases u with
  | flag => exact .inl ((flag_mem _).1 hu)
  | connector => exact .inr ((connector_mem _).1 hu)

/-- the flag and the connector may give the record back -/
theorem Inv.giveBack {l : Link} (h : l.Inv) {s e : Bool} (hs : s = true → l.started = true)
    (he : e = true → l.engaged = true) : ({ l with started := s, engaged := e } : Link).Inv := by
  refine h.lend ?_
  rintro (h1 | h1)
  · exact h.usable (by simp [Link.held, hs h1])
  · exact h.usable (by simp [Link.held, he h1])

end Link

/-! ## The steps of a call -/

namespace System

@[simp] theorem goto_link (i : ℕ) (st : Stage) (s : System) : (s.goto i st).link = s.link := rfl
@[simp] theorem ret_link (i : ℕ) (r : Result) (s : System) : (s.ret i r).link = s.link := rfl

@[simp] theorem startFail_link (i : ℕ) (e : StartError) (s : System) : (s.startFail i e).link = s.link := by
  unfold startFail
  split <;> rfl

@[simp] theorem stopReturn_link (i : ℕ) (k : Kind) (r : Result) (s : System) : (s.stopReturn i k r).link = s.link := by
  unfold stopReturn
  split <;> rfl

@[simp] theorem initiated_link (i : ℕ) (act : Action) (st : ConnectorStatus) (s : System) :
    (s.initiated i act st).link = s.link := by
  cases st <;> cases act <;> simp [initiated]

@[simp] theorem startWait_link (i : ℕ) (arg : StartArg) (a : Answer) (s : System) :
    (s.startWait i arg a).link = s.link := by
  unfold startWait
  dsimp only
  repeat' split
  all_goals simp

/-- the transport whose record the step frees, or whose pointer it clears -/
def releases (s : System) (i : ℕ) (a : Answer) : Option Kind :=
  match (s.thread i).stage, (s.thread i).call with
  | .startFreeOld, .start arg | .startFree _, .start arg | .startNull _, .start arg => some arg.kind
  | .startMalloc, .start arg => if a.granted then none else some arg.kind
  | .stopFree k, _ | .stopNull k, _ | .libraryFree k, _ => some k
  | _, _ => none

/-- the transport that the step makes the connector accept a start of -/
def engages (s : System) (i : ℕ) (a : Answer) : Option Kind :=
  match (s.thread i).stage with
  | .initiate (.start k) => if s.answer a = .success then some k else none
  | _ => none

/-- what a step may do to a transport without taking its record from anybody -/
def Mild (f : Link → Link) : Prop :=
  f = Link.callUse ∨ f = Link.mallocInfo true ∨ f = fun l => { l with started := false }

/-- what a step may do to a transport that it takes the record from -/
def Takes (f : Link → Link) : Prop := f = Link.freeInfo ∨ f = Link.nullInfo ∨ f = Link.mallocInfo false

/-- everything that a step of a call may do to the transports -/
inductive LinkStep (s : System) (i : ℕ) (a : Answer) : (Kind → Link) → Prop
  | none : LinkStep s i a s.link
  | mild (k : Kind) (f : Link → Link) (hf : Mild f) : LinkStep s i a (Function.update s.link k (f (s.link k)))
  | takes (k : Kind) (f : Link → Link) (hf : Takes f) (hk : s.releases i a = some k) :
    LinkStep s i a (Function.update s.link k (f (s.link k)))
  | engages (k : Kind) (hk : s.engages i a = some k) :
    LinkStep s i a (Function.update s.link k { s.link k with engaged := true })

theorem LinkStep.of_eq {s : System} {i : ℕ} {a : Answer} {m m' : Kind → Link} (h : LinkStep s i a m) (hm : m' = m) :
    LinkStep s i a m' := hm ▸ h

theorem start_link (aggressive : Bool) (i : ℕ) (arg : StartArg) (a : Answer) (s : System)
    (hcall : (s.thread i).call = .start arg) : LinkStep s i a (s.start aggressive i arg a).link := by
  unfold start
  dsimp only
  split
  · split <;> exact .none
  · split
    · exact .none
    · exact LinkStep.none.of_eq (by simp)
  · rename_i hs
    exact .takes arg.kind Link.freeInfo (.inl rfl) (by simp [releases, hs, hcall])
  · rename_i hs
    cases hg : a.granted with
    | true => exact .mild arg.kind (Link.mallocInfo true) (.inr (.inl rfl))
    | false =>
      exact (LinkStep.takes arg.kind (Link.mallocInfo false) (.inr (.inr rfl)) (by simp [releases, hs, hcall, hg])).of_eq
        (by simp [onLink])
  · refine LinkStep.of_eq (.mild arg.kind Link.callUse (.inl rfl)) ?_
    repeat' split
    all_goals simp [onLink]
  · exact .mild arg.kind _ (.inr (.inr rfl))
  · exact LinkStep.none.of_eq (by simp)
  · rename_i e hs
    split
    · exact .none
    · exact .takes arg.kind Link.freeInfo (.inl rfl) (by simp [releases, hs, hcall])
  · rename_i e hs
    exact .takes arg.kind Link.nullInfo (.inr (.inl rfl)) (by simp [releases, hs, hcall])
  · exact .none

/-- **The steps of a call.** -/
theorem api_link (aggressive : Bool) (i : ℕ) (a : Answer) (s : System) :
    LinkStep s i a (s.api aggressive i a).link := by
  unfold api
  split
  case h_1 => split <;> exact .none
  case h_2 => exact .none
  case h_3 => split <;> exact .none
  case h_4 act hs =>
    split
    · exact .none
    · exact LinkStep.none.of_eq (by simp)
  case h_5 act hs =>
    by_cases hc : s.answer a = .success
    · cases act with
      | start k =>
        exact (LinkStep.engages k (by simp [engages, hs, hc])).of_eq (by simp [hc, accept, onLink])
      | stop k => exact LinkStep.none.of_eq (by simp [hc, accept])
      | terminate => exact LinkStep.none.of_eq (by simp [hc, accept])
    · exact LinkStep.none.of_eq (by simp [hc])
  case h_6 act st hs => exact LinkStep.none.of_eq (by split <;> simp)
  case h_7 k hs => exact LinkStep.none.of_eq (by split <;> simp)
  case h_8 k hs => exact LinkStep.none.of_eq (by split <;> simp)
  case h_9 k hs =>
    split
    · exact LinkStep.none.of_eq (by simp)
    · exact .takes k Link.freeInfo (.inl rfl) (by simp [releases, hs])
  case h_10 k hs =>
    exact (LinkStep.takes k Link.nullInfo (.inr (.inl rfl)) (by simp [releases, hs])).of_eq (by simp [onLink])
  case h_11 k hs => exact LinkStep.none.of_eq (by split <;> simp)
  case h_12 k hs => exact .takes k Link.freeInfo (.inl rfl) (by simp [releases, hs])
  case h_13 => exact LinkStep.none.of_eq (by split <;> simp)
  case h_14 => exact .none
  case h_15 => exact .none
  case h_16 arg hcall _ _ _ _ _ _ _ _ _ _ _ _ _ => exact start_link aggressive i arg a s hcall
  case h_17 => exact .none

/-- the step takes the record from the flag or the connector, or lends one that is not there -/
def takesRecord (s : System) : Op → Bool
  | .api i a =>
    (match s.releases i a with
      | some k => (s.link k).usable && (s.link k).held
      | none => false) ||
    match s.engages i a with
      | some k => !(s.link k).usable
      | none => false
  | .event _ => false

/-- the invariant -/
def Inv (s : System) : Prop := ∀ k, (s.link k).Inv

theorem inv_update {s : System} (h : s.Inv) {k : Kind} {l : Link} (hl : l.Inv) (k' : Kind) :
    (Function.update s.link k l k').Inv := by
  by_cases hk : k' = k
  · subst hk
    rwa [Function.update_self]
  · rw [Function.update_of_ne hk]
    exact h k'

/-- a step that takes no record from anybody keeps the invariant -/
theorem LinkStep.inv {s : System} {i : ℕ} {a : Answer} {m : Kind → Link} (hm : LinkStep s i a m) (h : s.Inv)
    (ho : s.takesRecord (.api i a) = false) (k' : Kind) : (m k').Inv := by
  simp only [takesRecord, Bool.or_eq_false_iff] at ho
  obtain ⟨hreleases, hengages⟩ := ho
  cases hm with
  | none => exact h k'
  | mild k f hf =>
    refine inv_update h ?_ k'
    rcases hf with rfl | rfl | rfl
    · exact (h k).callUse
    · exact (h k).mallocInfo
    · exact (h k).giveBack (s := false) nofun id
  | takes k f hf hk =>
    have hfree : (s.link k).usable = true → (s.link k).held = false := by simpa [hk] using hreleases
    refine inv_update h ?_ k'
    rcases hf with rfl | rfl | rfl
    · exact (h k).freeInfo hfree
    · exact (h k).nullInfo hfree
    · exact (h k).mallocInfo_none hfree
  | engages k hk =>
    have husable : (s.link k).usable = true := by simpa [hk] using hengages
    exact inv_update h ((h k).lend fun _ => husable) k'

/-! ## The connector's events -/

/-- an engaged connector runs, and the close whose handler is at work is of a transport that it has -/
structure Fsm (s : System) : Prop where
  running : ∀ k, (s.link k).engaged = true → s.status = .running
  closing : ∀ k c, s.closing = some (k, c) → (s.link k).engaged = true

theorem event_inv {s : System} (h : s.Inv) (hc : s.Fsm) (e : Event) : (s.event e).Inv := by
  intro k'
  cases e with
  | opened k status =>
    simp only [event]
    split_ifs with hk
    · exact inv_update h ((h k).lend fun _ => (h k).usable (by simp [Link.held, hk.2.1])) k'
    · exact h k'
  | keepalive =>
    simp only [event]
    split_ifs with hk
    · exact inv_update h ((h .tcp).eventUse hk.2) k'
    · exact h k'
  | config r =>
    simp only [event]
    split_ifs with hk
    · exact inv_update h ((h r.kind).eventUse hk.2) k'
    · exact h k'
  | close k c status =>
    simp only [event]
    split_ifs with hk
    · exact inv_update h ((h k).giveBack (s := false) nofun id) k'
    · exact h k'
  | closed answer before finished =>
    simp only [event]
    cases hcl : s.closing with
    | none => exact h k'
    | some kc =>
      obtain ⟨k, c⟩ := kc
      have hengaged := hc.closing k c hcl
      dsimp only
      split_ifs with hasks
      · have huse : (s.onLink k Link.eventUse).Inv := inv_update h ((h k).eventUse hengaged)
        exact inv_update huse ((huse k).giveBack id fun hb => (Bool.and_eq_true_iff.1 hb).1) k'
      · exact inv_update h ((h k).giveBack id fun hb => (Bool.and_eq_true_iff.1 hb).1) k'
  | stopCompleted k =>
    simp only [event]
    split_ifs with hk
    · exact inv_update h ((h k).giveBack (s := false) (e := false) nofun nofun) k'
    · exact h k'
  | terminated =>
    simp only [event]
    split_ifs with hk
    · exact (h k').giveBack (e := false) id nofun
    · exact h k'
  | ended =>
    simp only [event]
    split_ifs <;> exact h k'

/-- only an event ends the connector's engagement, and none comes while a handler is at work -/
theorem api_engaged (aggressive : Bool) (i : ℕ) (a : Answer) (s : System) (k : Kind)
    (he : (s.link k).engaged = true) : ((s.api aggressive i a).link k).engaged = true := by
  have hstep := api_link aggressive i a s
  generalize (s.api aggressive i a).link = m at hstep
  have hupdate {k' : Kind} {l : Link} (hl : k' = k → l.engaged = true) :
      (Function.update s.link k' l k).engaged = true := by
    by_cases hk : k = k'
    · subst hk
      rw [Function.update_self]
      exact hl rfl
    · rwa [Function.update_of_ne hk]
  cases hstep with
  | none => exact he
  | mild k' f hf =>
    refine hupdate ?_
    rintro rfl
    rcases hf with rfl | rfl | rfl <;> exact he
  | takes k' f hf hk =>
    refine hupdate ?_
    rintro rfl
    rcases hf with rfl | rfl | rfl
    · rwa [Link.freeInfo_engaged]
    · exact he
    · exact he
  | engages k' hk => exact hupdate fun _ => rfl

/-- what the connector's thread is at, and whether the program is halted -/
def fsm (s : System) : ThreadStatus × Option (Kind × CloseStatus) × Bool := (s.status, s.closing, s.halted)

@[simp] theorem goto_fsm (i : ℕ) (st : Stage) (s : System) : (s.goto i st).fsm = s.fsm := rfl
@[simp] theorem ret_fsm (i : ℕ) (r : Result) (s : System) : (s.ret i r).fsm = s.fsm := rfl
@[simp] theorem onLink_fsm (k : Kind) (f : Link → Link) (s : System) : (s.onLink k f).fsm = s.fsm := rfl

@[simp] theorem startFail_fsm (i : ℕ) (e : StartError) (s : System) : (s.startFail i e).fsm = s.fsm := by
  unfold startFail
  split <;> rfl

@[simp] theorem stopReturn_fsm (i : ℕ) (k : Kind) (r : Result) (s : System) : (s.stopReturn i k r).fsm = s.fsm := by
  unfold stopReturn
  split <;> rfl

@[simp] theorem initiated_fsm (i : ℕ) (act : Action) (st : ConnectorStatus) (s : System) :
    (s.initiated i act st).fsm = s.fsm := by
  cases st <;> cases act <;> simp [initiated]

@[simp] theorem accept_fsm (act : Action) (s : System) : (s.accept act).fsm = s.fsm := by
  cases act <;> rfl

@[simp] theorem start_fsm (aggressive : Bool) (i : ℕ) (arg : StartArg) (a : Answer) (s : System) :
    (s.start aggressive i arg a).fsm = s.fsm := by
  unfold start startWait
  dsimp only
  repeat' split
  all_goals simp

/-- a call leaves the connector's thread where it is -/
theorem api_fsm (aggressive : Bool) (i : ℕ) (a : Answer) (s : System) : (s.api aggressive i a).fsm = s.fsm := by
  unfold api
  repeat' split
  all_goals simp

/-- a step of a call engages the connector only while it runs -/
theorem api_engages {aggressive : Bool} {i : ℕ} {a : Answer} {s : System} {k : Kind}
    (he : ((s.api aggressive i a).link k).engaged = true) : (s.link k).engaged = true ∨ s.status = .running := by
  have hstep := api_link aggressive i a s
  generalize (s.api aggressive i a).link = m at hstep he
  cases hstep with
  | none => exact .inl he
  | mild k' f hf =>
    refine .inl ?_
    by_cases hk : k = k'
    · subst hk
      rw [Function.update_self] at he
      rcases hf with rfl | rfl | rfl <;> exact he
    · rwa [Function.update_of_ne hk] at he
  | takes k' f hf hk' =>
    refine .inl ?_
    by_cases hk : k = k'
    · subst hk
      rw [Function.update_self] at he
      rcases hf with rfl | rfl | rfl
      · rwa [Link.freeInfo_engaged] at he
      · exact he
      · exact he
    · rwa [Function.update_of_ne hk] at he
  | engages k' hk' =>
    right
    unfold engages at hk'
    split at hk'
    · split_ifs at hk' with hans
      by_contra hrun
      unfold answer at hans
      split_ifs at hans with h
      exact h ⟨hans, by simpa [running] using hrun⟩
    · cases hk'

theorem api_keeps_fsm (aggressive : Bool) {s : System} (h : s.Fsm) (i : ℕ) (a : Answer) :
    (s.api aggressive i a).Fsm := by
  have hfsm := api_fsm aggressive i a s
  simp only [fsm, Prod.mk.injEq] at hfsm
  refine ⟨fun k he => ?_, fun k c hc => ?_⟩
  · rw [hfsm.1]
    rcases api_engages he with he | hrun
    · exact h.running k he
    · exact hrun
  · rw [hfsm.2.1] at hc
    exact api_engaged aggressive i a s k (h.closing k c hc)

theorem idle_iff (s : System) : s.idle = true ↔ s.status = .running ∧ s.closing = none := by
  simp [idle]

/-- engaged behind a step, engaged in front of it -/
theorem engaged_of_update {s : System} {k k' : Kind} {l : Link} (hl : l.engaged = true → (s.link k).engaged = true)
    (he : (Function.update s.link k l k').engaged = true) : (s.link k').engaged = true := by
  by_cases hk : k' = k
  · subst hk
    rw [Function.update_self] at he
    exact hl he
  · rwa [Function.update_of_ne hk] at he

theorem Fsm.onLink {s : System} (h : s.Fsm) {k : Kind} {f : Link → Link}
    (hf : (f (s.link k)).engaged = (s.link k).engaged) : (s.onLink k f).Fsm := by
  refine ⟨fun k' he => h.running k' (engaged_of_update (fun hl => hf ▸ hl) he), fun k' c hc => ?_⟩
  have he := h.closing k' c hc
  by_cases hk : k' = k
  · subst hk
    simpa [System.onLink, hf] using he
  · simpa [System.onLink, Function.update_of_ne hk] using he

/-- with no handler at work the second half of the invariant asks nothing -/
theorem Fsm.of_open {s : System} (hc : s.closing = none) (h : ∀ k, (s.link k).engaged = true → s.status = .running) :
    s.Fsm := by
  refine ⟨h, fun k c hk => ?_⟩
  rw [hc] at hk
  cases hk

theorem event_fsm {s : System} (h : s.Fsm) (e : Event) : (s.event e).Fsm := by
  cases e with
  | opened k status =>
    simp only [event]
    split_ifs
    · exact h.onLink rfl
    · exact h
  | keepalive =>
    simp only [event]
    split_ifs
    · exact h.onLink rfl
    · exact h
  | config r =>
    simp only [event]
    split_ifs
    · exact h.onLink rfl
    · exact h
  | close k c status =>
    simp only [event]
    split_ifs with hk
    · have hlink := h.onLink (k := k) (f := fun l => { l with started := false }) rfl
      refine ⟨hlink.running, fun k' c' hc => ?_⟩
      cases hc
      simpa [onLink] using hk.2.1
    · exact h
  | closed answer before finished =>
    simp only [event]
    cases hcl : s.closing with
    | none => exact h
    | some kc =>
      obtain ⟨k, c⟩ := kc
      dsimp only
      have huse : (if c.asks k then s.onLink k Link.eventUse else s).Fsm := by
        split_ifs
        · exact h.onLink rfl
        · exact h
      refine Fsm.of_open rfl fun k' he => huse.running k' (engaged_of_update (fun hb => (Bool.and_eq_true_iff.1 hb).1) he)
  | stopCompleted k =>
    simp only [event]
    split_ifs with hk
    · refine Fsm.of_open ((idle_iff s).1 hk.1).2 fun k' he => h.running k' (engaged_of_update ?_ he)
      exact fun hl => absurd hl Bool.false_ne_true
    · exact h
  | terminated =>
    simp only [event]
    split_ifs with hk
    · exact Fsm.of_open ((idle_iff s).1 hk.1).2 fun k he => absurd he Bool.false_ne_true
    · exact h
  | ended =>
    simp only [event]
    split_ifs with hs
    · have hnot (k : Kind) : (s.link k).engaged ≠ true := fun he => by
        have := h.running k he
        rw [hs] at this
        cases this
      exact ⟨fun k he => absurd he (hnot k), h.closing⟩
    · exact h

/-! ## One step -/

/-- the step takes a record from the flag or the connector, and no assertion halts the build there -/
def breaks (b : Build) (s : System) : Op → Bool
  | .api i a => !s.halted && !(b.debug && s.asserts i a) && s.takesRecord (.api i a)
  | .event _ => false

/-- the flag finds a record, and so did every event -/
def Safe (s : System) : Prop := ∀ k, (s.link k).Safe

structure Good (s : System) : Prop where
  inv : s.Inv
  fsm : s.Fsm

theorem fresh_good (calls : ℕ → Call) : (fresh calls).Good := by
  refine ⟨fun k => ⟨Loan.sound_of_unheld rfl rfl, ?_, fun r hr => absurd hr.symm (Option.some_ne_none r)⟩, ?_⟩
  · simp [fresh, Ledger.empty]
  · exact Fsm.of_open rfl fun _ he => absurd he Bool.false_ne_true

/-- **One step.** A step that takes no record from anybody keeps the invariants. -/
theorem step_good (b : Build) (s : System) (o : Op) (h : s.Good) (ho : ¬ s.breaks b o = true) : (s.step b o).Good := by
  unfold step
  split_ifs with hhalt
  · exact h
  · cases o with
    | api i a =>
      dsimp only
      split_ifs with hassert
      · exact ⟨h.inv, h.fsm.running, h.fsm.closing⟩
      · have hkeep : s.takesRecord (.api i a) = false := by
          by_contra htakes
          refine ho ?_
          have htakes : s.takesRecord (.api i a) = true := by simpa using htakes
          simp only [breaks, hhalt, htakes]
          simpa [imp_iff_not_or] using hassert
        exact ⟨fun k => (api_link b.aggressive i a s).inv h.inv hkeep k, api_keeps_fsm b.aggressive h.fsm i a⟩
    | event e => exact ⟨event_inv h.inv h.fsm e, event_fsm h.fsm e⟩

/-! ## A record taken away -/

/-- a configuration request for each transport -/
def request : Kind → ConfigRequest
  | .tcp => .connectionType
  | .udp => .udpMaxSessions
  | .sms => .smsMaxSessions

@[simp] theorem request_kind (k : Kind) : (request k).kind = k := by cases k <;> rfl

/-- the connector ends the handler it is in, with the transport still its own, and asks for a transport's configuration -/
def asking (k : Kind) : List Op := [.event (.closed true true false), .event (.config (request k))]

/-- what a step to one transport leaves alone everywhere -/
theorem onLink_keeps {α : Type} (p : Link → α) {k k' : Kind} {f : Link → Link} (s : System) (hf : ∀ l, p (f l) = p l) :
    p ((s.onLink k' f).link k) = p (s.link k) := by
  by_cases hk : k = k'
  · subst hk
    simpa [onLink] using hf (s.link k)
  · simp [onLink, Function.update_of_ne hk]

/-- the end of a handler leaves every transport to the connector, and its record as it is -/
theorem closed_keeps (s : System) (k : Kind) :
    ((s.event (.closed true true false)).link k).engaged = (s.link k).engaged ∧
      ((s.event (.closed true true false)).link k).usable = (s.link k).usable := by
  simp only [event]
  cases hcl : s.closing with
  | none => exact ⟨rfl, rfl⟩
  | some kc =>
    obtain ⟨k', c⟩ := kc
    dsimp only
    constructor
    · refine (onLink_keeps Link.engaged _ ?_).trans ?_
      · simp
      split_ifs
      · exact onLink_keeps Link.engaged s fun l => rfl
      · rfl
    · refine (onLink_keeps Link.usable _ ?_).trans ?_
      · exact fun l => rfl
      split_ifs
      · exact onLink_keeps Link.usable s fun l => rfl
      · rfl

theorem closed_idle {s : System} (hrun : s.status = .running) : (s.event (.closed true true false)).idle = true := by
  simp only [event]
  cases hcl : s.closing with
  | none => simp [idle, hrun, hcl]
  | some kc =>
    dsimp only
    split_ifs <;> simp [idle, onLink, hrun]

@[simp] theorem event_halted (s : System) (e : Event) : (s.event e).halted = s.halted := by
  cases e <;> simp only [event]
  all_goals repeat' split
  all_goals rfl

/-- **Delayed damage.** A connector without a record runs into it. -/
theorem asking_unsafe (b : Build) {s : System} (hhalt : s.halted = false) (hfsm : s.Fsm) {k : Kind}
    (he : (s.link k).engaged = true) (hu : (s.link k).usable = false) : ¬ (run (step b) s (asking k)).Safe := by
  obtain ⟨hengaged, husable⟩ := closed_keeps s k
  have hidle := closed_idle (hfsm.running k he)
  intro hsafe
  have hfault := (hsafe k).2
  simp only [asking, run_cons, run_nil, step, hhalt, event_halted, Bool.false_eq_true, if_false] at hfault
  generalize s.event (.closed true true false) = t at *
  simp [event, hidle, hengaged, he, onLink, Link.eventUse, husable, hu] at hfault

theorem asking_quiet (b : Build) (s : System) (k : Kind) :
    Along (step b) (fun s o => ¬ s.breaks b o = true) s (asking k) :=
  ⟨by simp [breaks], by simp [breaks], trivial⟩

theorem Takes.result {f : Link → Link} (hf : Takes f) {l : Link} (hu : l.usable = true) :
    (f l).usable = false ∧ (f l).held = l.held := by
  obtain ⟨r, hi⟩ : ∃ r, l.info = some r := by
    unfold Link.usable at hu
    split at hu
    · exact ⟨_, ‹_›⟩
    · cases hu
  rcases hf with rfl | rfl | rfl
  · simp [Link.freeInfo, hi, Link.callUse, Link.usable, Link.held]
  · exact ⟨rfl, rfl⟩
  · exact ⟨rfl, rfl⟩

/-- a step at a stage that frees the record or clears the pointer does so -/
theorem releases_link (aggressive : Bool) {i : ℕ} {a : Answer} {s : System} {k : Kind} (hk : s.releases i a = some k)
    (hu : (s.link k).usable = true) :
    ∃ f, Takes f ∧ (s.api aggressive i a).link = Function.update s.link k (f (s.link k)) := by
  have hinfo : (s.link k).info ≠ none := fun hn => by simp [Link.usable, hn] at hu
  unfold releases at hk
  split at hk
  case h_1 arg hs hcall =>
    obtain rfl : arg.kind = k := by simpa using hk
    exact ⟨Link.freeInfo, .inl rfl, by simp [api, start, hs, hcall, onLink]⟩
  case h_2 e arg hs hcall =>
    obtain rfl : arg.kind = k := by simpa using hk
    exact ⟨Link.freeInfo, .inl rfl, by simp [api, start, hs, hcall, onLink, hinfo]⟩
  case h_3 e arg hs hcall =>
    obtain rfl : arg.kind = k := by simpa using hk
    exact ⟨Link.nullInfo, .inr (.inl rfl), by simp [api, start, hs, hcall, onLink]⟩
  case h_4 arg hs hcall =>
    split_ifs at hk with hg
    obtain rfl : arg.kind = k := by simpa using hk
    exact ⟨Link.mallocInfo false, .inr (.inr rfl), by simp [api, start, hs, hcall, onLink, hg]⟩
  case h_5 k' hs =>
    obtain rfl : k' = k := by simpa using hk
    exact ⟨Link.freeInfo, .inl rfl, by simp [api, hs, onLink, hinfo]⟩
  case h_6 k' hs =>
    obtain rfl : k' = k := by simpa using hk
    exact ⟨Link.nullInfo, .inr (.inl rfl), by simp [api, hs, onLink]⟩
  case h_7 k' hs =>
    obtain rfl : k' = k := by simpa using hk
    exact ⟨Link.freeInfo, .inl rfl, by simp [api, hs, onLink]⟩
  case h_8 => cases hk

theorem engages_link (aggressive : Bool) {i : ℕ} {a : Answer} {s : System} {k : Kind} (hk : s.engages i a = some k) :
    (s.api aggressive i a).link = Function.update s.link k { s.link k with engaged := true } := by
  unfold engages at hk
  split at hk
  case h_1 k' hs =>
    split_ifs at hk with hans
    obtain rfl : k' = k := by simpa using hk
    simp [api, hs, hans, accept, onLink]
  case h_2 => cases hk

/-- a step that takes a record leaves a flag or an engaged connector without one -/
theorem taken {b : Build} {s : System} (h : s.Good) {o : Op} (ho : s.breaks b o = true) :
    ∃ k, ((s.step b o).link k).usable = false ∧ ((s.step b o).link k).held = true ∧ (s.step b o).halted = false ∧
      (s.step b o).Fsm := by
  cases o with
  | event e => cases ho
  | api i a =>
    simp only [breaks, Bool.and_eq_true, Bool.not_eq_true'] at ho
    obtain ⟨⟨hhalt, hassert⟩, htakes⟩ := ho
    have hnot : ¬ (b.debug = true ∧ s.asserts i a = true) := by simpa using hassert
    have hstep : s.step b (.api i a) = s.api b.aggressive i a := by simp [step, hhalt, hnot]
    have hfsm := api_fsm b.aggressive i a s
    simp only [fsm, Prod.mk.injEq, hhalt] at hfsm
    rw [hstep]
    suffices hlost : ∃ k, ((s.api b.aggressive i a).link k).usable = false ∧
        ((s.api b.aggressive i a).link k).held = true by
      obtain ⟨k, hu, hheld⟩ := hlost
      exact ⟨k, hu, hheld, hfsm.2.2, api_keeps_fsm b.aggressive h.fsm i a⟩
    simp only [takesRecord, Bool.or_eq_true] at htakes
    rcases htakes with hrel | heng
    · cases hk : s.releases i a with
      | none => simp [hk] at hrel
      | some k =>
        obtain ⟨hu, hheld⟩ : (s.link k).usable = true ∧ (s.link k).held = true := by simpa [hk] using hrel
        obtain ⟨f, hf, hlink⟩ := releases_link b.aggressive hk hu
        obtain ⟨hu', hheld'⟩ := hf.result hu
        exact ⟨k, by simp [hlink, hu'], by simp [hlink, hheld', hheld]⟩
    · cases hk : s.engages i a with
      | none => simp [hk] at heng
      | some k =>
        have hu : (s.link k).usable = false := by simpa [hk] using heng
        have hlink := engages_link b.aggressive hk
        refine ⟨k, ?_, by simp [hlink, Link.held]⟩
        rw [hlink, Function.update_self]
        exact hu

/-- **Delayed damage.** Behind a step that takes a record an event or the flag finds none. -/
theorem doomed {b : Build} {s : System} (h : s.Good) {o : Op} (ho : s.breaks b o = true) :
    ∃ more, Along (step b) (fun s o => ¬ s.breaks b o = true) (s.step b o) more ∧
      ¬ (run (step b) (s.step b o) more).Safe := by
  obtain ⟨k, husable, hheld, hhalt, hfsm⟩ := taken h ho
  rcases Bool.or_eq_true_iff.1 hheld with hstarted | hengaged
  · refine ⟨[], trivial, fun hsafe => ?_⟩
    have := (hsafe k).1 hstarted
    rw [run_nil, husable] at this
    cases this
  · exact ⟨asking k, asking_quiet b _ k, asking_unsafe b hhalt hfsm hengaged husable⟩

end System

/-! ## Main results -/

/-- **Transport records.** For every build, any number of starts, stops and stops of the library and any interleaving of
them with the connector's events, for the three transports: however a prefix of the run is continued without taking a record
from the flag or the connector, the flag finds a record that has not been freed and so does every event, exactly when no
step of the run takes a record. -/
theorem transport_iff (b : Build) (calls : ℕ → Call) (ops : List Op) :
    (∀ k more,
      Along (System.step b) (fun s o => ¬ s.breaks b o = true) (run (System.step b) (System.fresh calls) (ops.take k))
        more →
      (run (System.step b) (run (System.step b) (System.fresh calls) (ops.take k)) more).Safe) ↔
    Along (System.step b) (fun s o => ¬ s.breaks b o = true) (System.fresh calls) ops :=
  along_iff_doomed (I := System.Good) (fun _ h k => (h.inv k).safe) (System.step_good b)
    (fun _ _ h ho => System.doomed h (not_not.1 ho)) (System.fresh_good calls) ops

/-- every request is granted, and no time is up -/
def granted : Answer := { granted := true, status := .ok, acquired := true, connector := .success, timedOut := false }

/-- a start over UDP that waits for a second -/
def udpStart : Call := .start (.udp (some { maxSessions := 0, startTimeout := 1 }))

/-- a start, a network open, a stop and its completion: nothing is taken from anybody -/
example : Along (System.step ⟨false, false⟩) (fun s o => ¬ s.breaks ⟨false, false⟩ o = true)
    (System.fresh fun i => if i = 0 then udpStart else .stop .udp)
    (List.replicate 10 (Op.api 0 granted) ++ [Op.event (.opened .udp .ok), .api 0 granted] ++
      List.replicate 5 (Op.api 1 granted) ++ [Op.event (.close .udp .deviceStopped .ok), .event (.closed false false false),
      .event (.stopCompleted .udp)] ++ List.replicate 3 (Op.api 1 granted)) := by decide

/-- **A start that times out** frees the record that the connector has just been given, and the connector asks for it. -/
theorem timed_out_start : ¬ ∀ (b : Build) (calls : ℕ → Call) (ops : List Op),
    (run (System.step b) (System.fresh calls) ops).Safe := by
  intro h
  have hsafe := h ⟨false, false⟩ (fun _ => udpStart)
    (List.replicate 10 (.api 0 granted) ++ [.api 0 { granted with timedOut := true }, .api 0 granted,
      .event (.config .udpMaxSessions)]) .udp
  exact absurd hsafe.2 (by decide)

end CcApi.Transport
