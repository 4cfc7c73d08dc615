/-
What a start and a stop of a transport return (`ccxapi_start_transport_tcp`, `ccxapi_stop_transport_tcp` and their siblings
over UDP and SMS, against the network, status and configuration handlers of `ccapi.c`).

A start looks at a flag that it has cleared itself, a stop at one that it has seen set; in between the connector's events and
the other calls set and clear it. The marks of a call say what has happened since then.

- `flag_rises`: only the connector's opening sets a flag.
- `StartVerdict`, `StopVerdict`: what a call's return value says about its marks.
- `step_start`, `step_stop`: what one step keeps, of the call itself or of anyone else.
- `transport_returned`: the return value of every start and of every stop.

A start over TCP without a timeout does not look at the answer of its wait, so a wait that fails counts as a connection.
-/
import CcApi.Transport.Lifetime

namespace CcApi.Transport

open Lib Lib.Runs

/-! ## Marks -/

/-- what has happened to a call and to its transport -/
structure Marks where
  /-- the connector has accepted the call's action -/
  accepted : Bool
  /-- the connector has opened the transport, since the start cleared the flag -/
  opened : Bool
  /-- the flag has gone down, since the stop looked at it -/
  fell : Bool
  /-- the wait on the condition of the TCP transport has failed, without a timeout -/
  gaveUp : Bool
deriving DecidableEq, Repr

namespace System

/-- the event opens the transport -/
def opens (s : System) (k : Kind) : Op → Bool
  | .event (.opened k' status) =>
    k' = k && !s.halted && s.idle && (s.link k).engaged && (k = .tcp || status = .ok)
  | _ => false

/-- the wait of call i fails, and it has no timeout -/
def givesUp (s : System) (i : ℕ) : Op → Bool
  | .api j a =>
    j = i && !s.halted && (s.thread i).stage = .startWait && a.status ≠ .ok &&
      match (s.thread i).call with
      | .start arg => arg.kind = .tcp && arg.forever
      | _ => false
  | _ => false

end System

/-- the connector has just accepted -/
def Stage.accepts : Stage → Bool
  | .initiateRelease _ .success => true
  | _ => false

/-- the marks of call i behind a step from s to s' -/
def Marks.next (k : Kind) (i : ℕ) (s s' : System) (o : Op) (m : Marks) : Marks :=
  { accepted := m.accepted || (s'.thread i).stage.accepts
    opened := (m.opened && (s.thread i).stage ≠ .startClear) || s.opens k o
    fell := (m.fell && (s.thread i).stage ≠ .stopCheck k) || ((s.link k).started && !(s'.link k).started)
    gaveUp := m.gaveUp || s.givesUp i o }

/-- a run together with the marks of call i, on transport k -/
def watch (b : Build) (k : Kind) (i : ℕ) (w : System × Marks) (o : Op) : System × Marks :=
  (w.1.step b o, w.2.next k i w.1 (w.1.step b o) o)

/-- the marks of call i behind a run -/
def marks (b : Build) (k : Kind) (i : ℕ) (calls : ℕ → Call) (ops : List Op) : Marks :=
  (run (watch b k i) (System.fresh calls, ⟨false, false, false, false⟩) ops).2

theorem watch_fst (b : Build) (k : Kind) (i : ℕ) (w : System × Marks) (ops : List Op) :
    (run (watch b k i) w ops).1 = run (System.step b) w.1 ops := by
  induction ops generalizing w with
  | nil => rfl
  | cons o ops ih => exact ih (watch b k i w o)

/-! ## The flag -/

namespace System

/-- the calls only clear a flag -/
theorem started_api (aggressive : Bool) (i : ℕ) (a : Answer) (s : System) (k : Kind)
    (h : ((s.api aggressive i a).link k).started = true) : (s.link k).started = true := by
  have hstep := api_link aggressive i a s
  generalize (s.api aggressive i a).link = m at hstep h
  have hupdate {k' : Kind} {l : Link} (hm : (Function.update s.link k' l k).started = true)
      (hl : k = k' → l.started = true → (s.link k').started = true) : (s.link k).started = true := by
    by_cases hk : k = k'
    · subst hk
      rw [Function.update_self] at hm
      exact hl rfl hm
    · rwa [Function.update_of_ne hk] at hm
  cases hstep with
  | none => exact h
  | mild k' f hf =>
    refine hupdate h ?_
    rintro rfl hl
    rcases hf with rfl | rfl | rfl
    · exact hl
    · exact hl
    · cases hl
  | takes k' f hf hk =>
    refine hupdate h ?_
    rintro rfl hl
    rcases hf with rfl | rfl | rfl
    · unfold Link.freeInfo at hl
      split at hl <;> exact hl
    · exact hl
    · exact hl
  | engages k' hk => exact hupdate h fun _ hl => hl

/-- among the events only the opening of the transport sets its flag -/
theorem started_event (s : System) (hhalt : s.halted = false) (e : Event) (k : Kind)
    (h : ((s.event e).link k).started = true) : (s.link k).started = true ∨ s.opens k (.event e) = true := by
  have hupdate {k' : Kind} {f : Link → Link} (hm : ((s.onLink k' f).link k).started = true)
      (hl : (f (s.link k')).started = true → (s.link k').started = true) : (s.link k).started = true := by
    by_cases hk : k = k'
    · subst hk
      exact hl (by simpa [onLink] using hm)
    · simpa [onLink, Function.update_of_ne hk] using hm
  cases e with
  | opened k' status =>
    simp only [event] at h
    split_ifs at h with hopen
    · by_cases hk : k' = k
      · subst hk
        right
        simp only [opens, hhalt, hopen.1, hopen.2.1]
        simpa using hopen.2.2
      · left
        simpa [onLink, Function.update_of_ne (Ne.symm hk)] using h
    · exact .inl h
  | keepalive =>
    simp only [event] at h
    split_ifs at h
    · exact .inl (hupdate h id)
    · exact .inl h
  | config r =>
    simp only [event] at h
    split_ifs at h
    · exact .inl (hupdate h id)
    · exact .inl h
  | close k' c status =>
    simp only [event] at h
    split_ifs at h
    · exact .inl (hupdate (f := fun l => { l with started := false }) h fun hl => by cases hl)
    · exact .inl h
  | closed answer before finished =>
    simp only [event] at h
    cases hcl : s.closing with
    | none =>
      rw [hcl] at h
      exact .inl h
    | some kc =>
      obtain ⟨k', c⟩ := kc
      rw [hcl] at h
      left
      dsimp only at h
      -- the handler's end touches the record and the connector's engagement only
      rw [onLink_keeps Link.started _ (by intro l; rfl)] at h
      split_ifs at h
      · rwa [onLink_keeps Link.started s (by intro l; rfl)] at h
      · exact h
  | stopCompleted k' =>
    simp only [event] at h
    split_ifs at h
    · exact .inl (hupdate (f := fun l => { l with started := false, engaged := false }) h fun hl => by cases hl)
    · exact .inl h
  | terminated =>
    simp only [event] at h
    split_ifs at h <;> exact .inl h
  | ended =>
    simp only [event] at h
    split_ifs at h <;> exact .inl h

/-- **The flag.** -/
theorem flag_rises (b : Build) (s : System) (o : Op) (k : Kind) (h : ((s.step b o).link k).started = true) :
    (s.link k).started = true ∨ s.opens k o = true := by
  unfold step at h
  split_ifs at h with hhalt
  · exact .inl h
  · cases o with
    | api i a =>
      dsimp only at h
      split_ifs at h
      · exact .inl h
      · exact .inl (started_api b.aggressive i a s k h)
    | event e => exact started_event s (by simpa using hhalt) e k h

end System

/-! ## What the return values say -/

/-- the arguments pass the checks of a start -/
def StartArg.Valid (aggressive : Bool) (arg : StartArg) : Prop := arg.early = .none ∧ arg.late aggressive = .none

/-- the error of a start against its marks -/
inductive StartVerdict (aggressive : Bool) (arg : StartArg) (m : Marks) : StartError → Prop
  /-- the library is stopped, or the transport is started -/
  | unready {e : StartError} (he : e = .ccapiStopped ∨ e = .alreadyStarted) (hm : m.accepted = false) :
    StartVerdict aggressive arg m e
  /-- an argument is wrong -/
  | invalid {e : StartError} (he : e ≠ .none) (harg : arg.early = e ∨ (arg.early = .none ∧ arg.late aggressive = e))
    (hm : m.accepted = false) : StartVerdict aggressive arg m e
  | noMemory (harg : arg.early = .none) (hm : m.accepted = false) : StartVerdict aggressive arg m .insufficientMemory
  /-- the connector has not accepted, or it has not opened the transport in time -/
  | failed {e : StartError} (he : e = .init ∨ (e = .timeout ∧ m.accepted = true)) (harg : arg.Valid aggressive) :
    StartVerdict aggressive arg m e
  /-- success -/
  | connected (harg : arg.Valid aggressive) (hm : m.accepted = true) (hopened : m.opened = true ∨ m.gaveUp = true) :
    StartVerdict aggressive arg m .none

/-- the result of a stop against its marks -/
inductive StopVerdict (m : Marks) : Result → Prop
  | notStarted (hm : m.accepted = false) : StopVerdict m .notStarted
  /-- the connector has not accepted, or the lock of the action could not be released -/
  | ccfsm : StopVerdict m .ccfsm
  | stopped (hm : m.accepted = true) (hfell : m.fell = true) : StopVerdict m .stopped

/-- a start at each of its stages; flag is that of its transport -/
def StartAt (aggressive : Bool) (arg : StartArg) (m : Marks) (flag : Bool) (t : Thread) : Prop :=
  match t.stage with
  | .begin | .startStarted | .startArgs => m.accepted = false
  | .startFreeOld | .startMalloc | .startCopy => m.accepted = false ∧ arg.early = .none
  | .startClear => m.accepted = false ∧ arg.Valid aggressive
  | .initiateAcquire act | .initiate act =>
    act = .start arg.kind ∧ m.accepted = false ∧ arg.Valid aggressive ∧ (flag = true → m.opened = true)
  | .initiateRelease act st =>
    act = .start arg.kind ∧ m.accepted = decide (st = .success) ∧ arg.Valid aggressive ∧ (flag = true → m.opened = true)
  | .startWait => m.accepted = true ∧ arg.Valid aggressive ∧ (flag = true → m.opened = true)
  | .startFree e | .startNull e => StartVerdict aggressive arg m e
  | .returned => ∃ e, t.result = .start e ∧ StartVerdict aggressive arg m e
  | _ => False

/-- a stop of transport k at each of its stages -/
def StopAt (k : Kind) (m : Marks) (flag : Bool) (t : Thread) : Prop :=
  match t.stage with
  | .begin => m.accepted = false
  | .stopCheck k' => k' = k ∧ m.accepted = false
  | .initiateAcquire act | .initiate act => act = .stop k ∧ m.accepted = false ∧ (flag = false → m.fell = true)
  | .initiateRelease act st => act = .stop k ∧ m.accepted = decide (st = .success) ∧ (flag = false → m.fell = true)
  | .stopWait k' => k' = k ∧ m.accepted = true ∧ (flag = false → m.fell = true)
  | .stopFree k' | .stopNull k' => k' = k ∧ m.accepted = true ∧ m.fell = true
  | .returned => StopVerdict m t.result
  | _ => False

/-! ## Steps of the others -/

/-- marks that only grow, for an action that has been accepted or not -/
structure Marks.Grows (m m' : Marks) : Prop where
  accepted : m'.accepted = m.accepted
  opened : m.opened = true → m'.opened = true
  fell : m.fell = true → m'.fell = true
  gaveUp : m.gaveUp = true → m'.gaveUp = true

theorem StartVerdict.grow {aggressive : Bool} {arg : StartArg} {m m' : Marks} {e : StartError}
    (h : StartVerdict aggressive arg m e) (hm : m.Grows m') : StartVerdict aggressive arg m' e := by
  cases h with
  | unready he hacc => exact .unready he (hm.accepted.trans hacc)
  | invalid he harg hacc => exact .invalid he harg (hm.accepted.trans hacc)
  | noMemory harg hacc => exact .noMemory harg (hm.accepted.trans hacc)
  | failed he harg => exact .failed (he.imp_right fun h => ⟨h.1, hm.accepted.trans h.2⟩) harg
  | connected harg hacc hopened => exact .connected harg (hm.accepted.trans hacc) (hopened.imp hm.opened hm.gaveUp)

theorem StopVerdict.grow {m m' : Marks} {r : Result} (h : StopVerdict m r) (hacc : m'.accepted = m.accepted)
    (hfell : m.fell = true → m'.fell = true) : StopVerdict m' r := by
  cases h with
  | notStarted hm => exact .notStarted (hacc.trans hm)
  | ccfsm => exact .ccfsm
  | stopped hm hf => exact .stopped (hacc.trans hm) (hfell hf)

/-- marks behind a step that leaves the call's thread where it is -/
structure Marks.Waits (t : Thread) (k : Kind) (flag flag' : Bool) (m m' : Marks) : Prop where
  accepted : m'.accepted = (m.accepted || t.stage.accepts)
  opened : t.stage ≠ .startClear → m.opened = true → m'.opened = true
  fell : t.stage ≠ .stopCheck k → m.fell = true → m'.fell = true
  gaveUp : m.gaveUp = true → m'.gaveUp = true
  up : flag' = true → flag = true ∨ m'.opened = true
  down : flag' = false → flag = false ∨ m'.fell = true

theorem Marks.Waits.grows {t : Thread} {k : Kind} {flag flag' : Bool} {m m' : Marks} (h : m.Waits t k flag flag' m')
    (haccepts : t.stage.accepts = true → m.accepted = true) (hclear : t.stage ≠ .startClear)
    (hcheck : t.stage ≠ .stopCheck k) : m.Grows m' := by
  refine ⟨?_, h.opened hclear, h.fell hcheck, h.gaveUp⟩
  rw [h.accepted]
  cases hs : t.stage.accepts with
  | false => rw [Bool.or_false]
  | true => rw [haccepts hs, Bool.true_or]

theorem StartAt.wait {aggressive : Bool} {arg : StartArg} {m m' : Marks} {flag flag' : Bool} {t : Thread}
    (h : StartAt aggressive arg m flag t) (hm : m.Waits t arg.kind flag flag' m') : StartAt aggressive arg m' flag' t := by
  have hrise (hclear : t.stage ≠ .startClear) (hflag : flag = true → m.opened = true) (hup : flag' = true) :
      m'.opened = true := (hm.up hup).elim (fun hf => hm.opened hclear (hflag hf)) id
  have hacc (haccepts : t.stage.accepts = false) : m'.accepted = m.accepted := by rw [hm.accepted, haccepts, Bool.or_false]
  unfold StartAt at h ⊢
  cases hs : t.stage with
  | begin | startStarted | startArgs =>
    rw [hs] at h
    exact (hacc (by rw [hs]; rfl)).trans h
  | startFreeOld | startMalloc | startCopy | startClear =>
    rw [hs] at h
    exact ⟨(hacc (by rw [hs]; rfl)).trans h.1, h.2⟩
  | initiateAcquire act | initiate act =>
    rw [hs] at h
    obtain ⟨hact, haccepted, harg, hflag⟩ := h
    exact ⟨hact, (hacc (by rw [hs]; rfl)).trans haccepted, harg, hrise (by simp [hs]) hflag⟩
  | initiateRelease act st =>
    rw [hs] at h
    obtain ⟨hact, haccepted, harg, hflag⟩ := h
    refine ⟨hact, ?_, harg, hrise (by simp [hs]) hflag⟩
    rw [hm.accepted, haccepted, hs]
    cases st <;> rfl
  | startWait =>
    rw [hs] at h
    obtain ⟨haccepted, harg, hflag⟩ := h
    exact ⟨(hacc (by rw [hs]; rfl)).trans haccepted, harg, hrise (by simp [hs]) hflag⟩
  | startFree e | startNull e =>
    rw [hs] at h
    exact StartVerdict.grow h (hm.grows (by simp [hs, Stage.accepts]) (by simp [hs]) (by simp [hs]))
  | returned =>
    rw [hs] at h
    obtain ⟨e, he, hverdict⟩ := h
    exact ⟨e, he, hverdict.grow (hm.grows (by simp [hs, Stage.accepts]) (by simp [hs]) (by simp [hs]))⟩
  | _ => rw [hs] at h; exact h

theorem StopAt.wait {k : Kind} {m m' : Marks} {flag flag' : Bool} {t : Thread} (h : StopAt k m flag t)
    (hm : m.Waits t k flag flag' m') : StopAt k m' flag' t := by
  have hfall (hcheck : t.stage ≠ .stopCheck k) (hflag : flag = false → m.fell = true) (hdown : flag' = false) :
      m'.fell = true := (hm.down hdown).elim (fun hf => hm.fell hcheck (hflag hf)) id
  have hacc (haccepts : t.stage.accepts = false) : m'.accepted = m.accepted := by rw [hm.accepted, haccepts, Bool.or_false]
  unfold StopAt at h ⊢
  cases hs : t.stage with
  | begin =>
    rw [hs] at h
    exact (hacc (by rw [hs]; rfl)).trans h
  | stopCheck k' =>
    rw [hs] at h
    exact ⟨h.1, (hacc (by rw [hs]; rfl)).trans h.2⟩
  | initiateAcquire act | initiate act =>
    rw [hs] at h
    obtain ⟨hact, haccepted, hflag⟩ := h
    exact ⟨hact, (hacc (by rw [hs]; rfl)).trans haccepted, hfall (by simp [hs]) hflag⟩
  | initiateRelease act st =>
    rw [hs] at h
    obtain ⟨hact, haccepted, hflag⟩ := h
    refine ⟨hact, ?_, hfall (by simp [hs]) hflag⟩
    rw [hm.accepted, haccepted, hs]
    cases st <;> rfl
  | stopWait k' =>
    rw [hs] at h
    obtain ⟨hk, haccepted, hflag⟩ := h
    exact ⟨hk, (hacc (by rw [hs]; rfl)).trans haccepted, hfall (by simp [hs]) hflag⟩
  | stopFree k' | stopNull k' =>
    rw [hs] at h
    obtain ⟨hk, haccepted, hfell⟩ := h
    exact ⟨hk, (hacc (by rw [hs]; rfl)).trans haccepted, hm.fell (by simp [hs]) hfell⟩
  | returned =>
    rw [hs] at h
    exact StopVerdict.grow h (hacc (by rw [hs]; rfl)) (hm.fell (by simp [hs]))
  | _ => rw [hs] at h; exact h

/-! ## Steps of the call -/

namespace System

@[simp] theorem goto_self (i : ℕ) (st : Stage) (s : System) : (s.goto i st).thread i = { s.thread i with stage := st } := by
  simp [goto, setThread]

@[simp] theorem ret_self (i : ℕ) (r : Result) (s : System) :
    (s.ret i r).thread i = { s.thread i with stage := .returned, result := r } := by
  simp [ret, setThread]

@[simp] theorem onLink_thread (k : Kind) (f : Link → Link) (s : System) : (s.onLink k f).thread = s.thread := rfl

end System

/-- marks behind a step of a start itself -/
structure Marks.Moves (arg : StartArg) (t t' : Thread) (a : Answer) (flag flag' : Bool) (m m' : Marks) : Prop where
  accepted : m'.accepted = (m.accepted || t'.stage.accepts)
  opened : t.stage ≠ .startClear → m'.opened = m.opened
  fell : t.stage ≠ .stopCheck arg.kind → m.fell = true → m'.fell = true
  gave : m.gaveUp = true → m'.gaveUp = true
  gaveUp : t.stage = .startWait → a.status ≠ .ok → arg.kind = .tcp → arg.forever = true → m'.gaveUp = true
  up : flag' = true → flag = true
  cleared : t.stage = .startClear → flag' = false

section Start

variable {aggressive : Bool} {arg : StartArg} {m m' : Marks} {flag' : Bool} {i : ℕ} {a : Answer} {s : System}

/-- the exit of a start with an error -/
theorem startFail_at {e : StartError} (h : StartVerdict aggressive arg m e) :
    StartAt aggressive arg m flag' ((s.startFail i e).thread i) := by
  unfold System.startFail
  split_ifs
  · rw [System.goto_self]
    exact h
  · rw [System.ret_self]
    exact ⟨e, rfl, h⟩

theorem startFail_accepts (e : StartError) (s : System) : ((s.startFail i e).thread i).stage.accepts = false := by
  unfold System.startFail
  split_ifs
  · rw [System.goto_self]
    rfl
  · rw [System.ret_self]
    rfl

/-- the checks in front of the record -/
theorem check_at (hcall : (s.thread i).call = .start arg)
    (hs : (s.thread i).stage = .begin ∨ (s.thread i).stage = .startStarted ∨ (s.thread i).stage = .startArgs)
    (hm : m.accepted = false)
    (hacc : m'.accepted = (m.accepted || ((s.api aggressive i a).thread i).stage.accepts)) :
    StartAt aggressive arg m' flag' ((s.api aggressive i a).thread i) := by
  rcases hs with hs | hs | hs
  · simp only [System.api, hs, hcall] at hacc ⊢
    split_ifs at hacc ⊢
    · rw [System.goto_self] at hacc ⊢
      exact (hacc.trans (Bool.or_false _)).trans hm
    · rw [System.ret_self] at hacc ⊢
      exact ⟨_, rfl, .unready (.inl rfl) ((hacc.trans (Bool.or_false _)).trans hm)⟩
  · simp only [System.api, hs, hcall, System.start] at hacc ⊢
    split_ifs at hacc ⊢
    · rw [System.ret_self] at hacc ⊢
      exact ⟨_, rfl, .unready (.inr rfl) ((hacc.trans (Bool.or_false _)).trans hm)⟩
    · rw [System.goto_self] at hacc ⊢
      exact (hacc.trans (Bool.or_false _)).trans hm
  · simp only [System.api, hs, hcall, System.start] at hacc ⊢
    cases hearly : arg.early with
    | none =>
      rw [hearly] at hacc
      rw [System.goto_self] at hacc ⊢
      exact ⟨(hacc.trans (Bool.or_false _)).trans hm, hearly⟩
    | _ =>
      rw [hearly] at hacc
      dsimp only at hacc ⊢
      rw [startFail_accepts, Bool.or_false] at hacc
      exact startFail_at (.invalid (by simp) (.inl hearly) (hacc.trans hm))

/-- the record and its copy -/
theorem copy_at (hcall : (s.thread i).call = .start arg)
    (hs : (s.thread i).stage = .startFreeOld ∨ (s.thread i).stage = .startMalloc ∨ (s.thread i).stage = .startCopy)
    (hm : m.accepted = false) (hearly : arg.early = .none)
    (hacc : m'.accepted = (m.accepted || ((s.api aggressive i a).thread i).stage.accepts)) :
    StartAt aggressive arg m' flag' ((s.api aggressive i a).thread i) := by
  rcases hs with hs | hs | hs
  · simp only [System.api, hs, hcall, System.start] at hacc ⊢
    rw [System.goto_self] at hacc ⊢
    exact ⟨(hacc.trans (Bool.or_false _)).trans hm, hearly⟩
  · simp only [System.api, hs, hcall, System.start] at hacc ⊢
    split_ifs at hacc ⊢
    · rw [System.goto_self] at hacc ⊢
      exact ⟨(hacc.trans (Bool.or_false _)).trans hm, hearly⟩
    · rw [startFail_accepts, Bool.or_false] at hacc
      exact startFail_at (.noMemory hearly (hacc.trans hm))
  · simp only [System.api, hs, hcall, System.start] at hacc ⊢
    cases hlate : arg.late aggressive with
    | none =>
      rw [hlate] at hacc
      dsimp only at hacc ⊢
      split_ifs at hacc ⊢
      · rw [startFail_accepts, Bool.or_false] at hacc
        exact startFail_at (.noMemory hearly (hacc.trans hm))
      · rw [System.goto_self] at hacc ⊢
        exact ⟨(hacc.trans (Bool.or_false _)).trans hm, hearly, hlate⟩
    | _ =>
      rw [hlate] at hacc
      dsimp only at hacc ⊢
      rw [startFail_accepts, Bool.or_false] at hacc
      exact startFail_at (.invalid (by simp) (.inr ⟨hearly, hlate⟩) (hacc.trans hm))

/-- what `connector_initiate_action_secure` returns to a start -/
theorem initiated_at {st : ConnectorStatus} (harg : arg.Valid aggressive) (hm : m.accepted = decide (st = .success))
    (hflag : flag' = true → m'.opened = true)
    (hacc : m'.accepted = (m.accepted || ((s.initiated i (.start arg.kind) st).thread i).stage.accepts)) :
    StartAt aggressive arg m' flag' ((s.initiated i (.start arg.kind) st).thread i) := by
  cases st with
  | success =>
    simp only [System.initiated] at hacc ⊢
    rw [System.goto_self] at hacc ⊢
    exact ⟨(hacc.trans (Bool.or_false _)).trans hm, harg, hflag⟩
  | serviceBusy =>
    simp only [System.initiated] at hacc ⊢
    rw [System.goto_self] at hacc ⊢
    exact ⟨rfl, (hacc.trans (Bool.or_false _)).trans hm, harg, hflag⟩
  | abort | failed => exact startFail_at (.failed (.inl rfl) harg)

/-- the call of the connector -/
theorem initiate_at (h : StartAt aggressive arg m (s.link arg.kind).started (s.thread i))
    (hs : ∃ act, (s.thread i).stage = .initiateAcquire act ∨ (s.thread i).stage = .initiate act ∨
      ∃ st, (s.thread i).stage = .initiateRelease act st)
    (hm : m.Moves arg (s.thread i) ((s.api aggressive i a).thread i) a (s.link arg.kind).started flag' m') :
    StartAt aggressive arg m' flag' ((s.api aggressive i a).thread i) := by
  have hacc := hm.accepted
  obtain ⟨act, hs | hs | ⟨st, hs⟩⟩ := hs
  · obtain ⟨rfl, haccepted, harg, hflag⟩ : act = .start arg.kind ∧ m.accepted = false ∧ arg.Valid aggressive ∧
      ((s.link arg.kind).started = true → m.opened = true) := by simpa only [StartAt, hs] using h
    have hopened : m'.opened = m.opened := hm.opened (by simp [hs])
    have hrise (hup : flag' = true) : m'.opened = true := hopened.trans (hflag (hm.up hup))
    simp only [System.api, hs] at hacc ⊢
    split_ifs at hacc ⊢
    · rw [System.goto_self] at hacc ⊢
      exact ⟨rfl, (hacc.trans (Bool.or_false _)).trans haccepted, harg, hrise⟩
    · exact initiated_at harg haccepted hrise hacc
  · obtain ⟨rfl, haccepted, harg, hflag⟩ : act = .start arg.kind ∧ m.accepted = false ∧ arg.Valid aggressive ∧
      ((s.link arg.kind).started = true → m.opened = true) := by simpa only [StartAt, hs] using h
    have hopened : m'.opened = m.opened := hm.opened (by simp [hs])
    have hrise (hup : flag' = true) : m'.opened = true := hopened.trans (hflag (hm.up hup))
    simp only [System.api, hs] at hacc ⊢
    rw [System.goto_self] at hacc ⊢
    refine ⟨rfl, ?_, harg, hrise⟩
    rw [hacc, haccepted]
    cases s.answer a <;> rfl
  · obtain ⟨rfl, haccepted, harg, hflag⟩ : act = .start arg.kind ∧ m.accepted = decide (st = .success) ∧
      arg.Valid aggressive ∧ ((s.link arg.kind).started = true → m.opened = true) := by simpa only [StartAt, hs] using h
    have hopened : m'.opened = m.opened := hm.opened (by simp [hs])
    have hrise (hup : flag' = true) : m'.opened = true := hopened.trans (hflag (hm.up hup))
    simp only [System.api, hs] at hacc ⊢
    split_ifs at hacc ⊢
    · exact initiated_at harg haccepted hrise hacc
    · -- the lock could not be released, whatever the connector has answered
      exact startFail_at (.failed (.inl rfl) harg)

/-- the wait -/
theorem wait_at (hcall : (s.thread i).call = .start arg)
    (h : StartAt aggressive arg m (s.link arg.kind).started (s.thread i)) (hs : (s.thread i).stage = .startWait)
    (hm : m.Moves arg (s.thread i) ((s.api aggressive i a).thread i) a (s.link arg.kind).started flag' m') :
    StartAt aggressive arg m' flag' ((s.api aggressive i a).thread i) := by
  obtain ⟨haccepted, harg, hflag⟩ : m.accepted = true ∧ arg.Valid aggressive ∧
    ((s.link arg.kind).started = true → m.opened = true) := by simpa only [StartAt, hs] using h
  have hacc : m'.accepted = true := by rw [hm.accepted, haccepted, Bool.true_or]
  have hopened : m'.opened = m.opened := hm.opened (by simp [hs])
  have hstarted (hst : (s.link arg.kind).started = true) :
      StartAt aggressive arg m' flag' ((s.ret i (.start .none)).thread i) := by
    rw [System.ret_self]
    exact ⟨_, rfl, .connected harg hacc (.inl (hopened.trans (hflag hst)))⟩
  have hgave (hbad : a.status ≠ .ok) (hk : arg.kind = .tcp) (hf : arg.forever = true) :
      StartAt aggressive arg m' flag' ((s.ret i (.start .none)).thread i) := by
    rw [System.ret_self]
    exact ⟨_, rfl, .connected harg hacc (.inr (hm.gaveUp hs hbad hk hf))⟩
  have hinit : StartAt aggressive arg m' flag' ((s.startFail i .init).thread i) :=
    startFail_at (.failed (.inl rfl) harg)
  have htimeout : StartAt aggressive arg m' flag' ((s.startFail i .timeout).thread i) :=
    startFail_at (.failed (.inr ⟨rfl, hacc⟩) harg)
  have hstill : StartAt aggressive arg m' flag' (s.thread i) := by
    unfold StartAt
    rw [hs]
    exact ⟨hacc, harg, fun hup => hopened.trans (hflag (hm.up hup))⟩
  simp only [System.api, hs, hcall, System.start, System.startWait]
  cases hk : arg.kind <;> cases hf : arg.forever <;> rw [hk] at hstarted
  case tcp.true =>
    dsimp only
    split_ifs with hend
    · rcases hend with hst | hbad
      · exact hstarted hst
      · exact hgave hbad hk hf
    · exact hstill
  case tcp.false =>
    cases hst : a.status with
    | busy => exact htimeout
    | error => exact hinit
    | ok =>
      dsimp only
      split_ifs with hst'
      · exact hstarted hst'
      · exact hstill
  all_goals
    dsimp only
    split_ifs
    all_goals first | exact htimeout | exact hstill | exact hstarted ‹_›

/-- **A step of a start.** -/
theorem api_start (hcall : (s.thread i).call = .start arg)
    (h : StartAt aggressive arg m (s.link arg.kind).started (s.thread i))
    (hm : m.Moves arg (s.thread i) ((s.api aggressive i a).thread i) a (s.link arg.kind).started flag' m') :
    StartAt aggressive arg m' flag' ((s.api aggressive i a).thread i) := by
  have hmarks := hm.accepted
  have hgrows (hacc : m'.accepted = m.accepted) (hclear : (s.thread i).stage ≠ .startClear)
      (hcheck : (s.thread i).stage ≠ .stopCheck arg.kind) : m.Grows m' :=
    ⟨hacc, fun h => (hm.opened hclear).trans h, hm.fell hcheck, hm.gave⟩
  have hat := h
  unfold StartAt at hat
  cases hs : (s.thread i).stage with
  | begin => exact check_at hcall (.inl hs) (by simpa only [hs] using hat) hmarks
  | startStarted => exact check_at hcall (.inr (.inl hs)) (by simpa only [hs] using hat) hmarks
  | startArgs => exact check_at hcall (.inr (.inr hs)) (by simpa only [hs] using hat) hmarks
  | startFreeOld =>
    rw [hs] at hat
    exact copy_at hcall (.inl hs) hat.1 hat.2 hmarks
  | startMalloc =>
    rw [hs] at hat
    exact copy_at hcall (.inr (.inl hs)) hat.1 hat.2 hmarks
  | startCopy =>
    rw [hs] at hat
    exact copy_at hcall (.inr (.inr hs)) hat.1 hat.2 hmarks
  | startClear =>
    rw [hs] at hat
    have hdown := hm.cleared hs
    simp only [System.api, hs, hcall, System.start] at hmarks ⊢
    rw [System.goto_self] at hmarks ⊢
    exact ⟨rfl, (hmarks.trans (Bool.or_false _)).trans hat.1, hat.2, fun hup => by rw [hdown] at hup; cases hup⟩
  | initiateAcquire act => exact initiate_at h ⟨act, .inl hs⟩ hm
  | initiate act => exact initiate_at h ⟨act, .inr (.inl hs)⟩ hm
  | initiateRelease act st => exact initiate_at h ⟨act, .inr (.inr ⟨st, hs⟩)⟩ hm
  | startWait => exact wait_at hcall h hs hm
  | startFree e =>
    rw [hs] at hat hgrows
    simp only [System.api, hs, hcall, System.start] at hmarks ⊢
    split_ifs at hmarks ⊢
    · rw [System.ret_self] at hmarks ⊢
      exact ⟨e, rfl, StartVerdict.grow hat (hgrows (hmarks.trans (Bool.or_false _)) (by simp) (by simp))⟩
    · rw [System.goto_self] at hmarks ⊢
      exact StartVerdict.grow hat (hgrows (hmarks.trans (Bool.or_false _)) (by simp) (by simp))
  | startNull e =>
    rw [hs] at hat hgrows
    simp only [System.api, hs, hcall, System.start] at hmarks ⊢
    rw [System.ret_self] at hmarks ⊢
    exact ⟨e, rfl, StartVerdict.grow hat (hgrows (hmarks.trans (Bool.or_false _)) (by simp) (by simp))⟩
  | returned =>
    rw [hs] at hat hgrows
    obtain ⟨e, he, hverdict⟩ := hat
    simp only [System.api, hs] at hmarks ⊢
    unfold StartAt
    rw [hs]
    exact ⟨e, he, hverdict.grow (hgrows (hmarks.trans (Bool.or_false _)) (by simp) (by simp))⟩
  | _ => rw [hs] at hat; exact hat.elim

end Start

/-- marks behind a step of a stop itself -/
structure Marks.Descends (k : Kind) (t t' : Thread) (flag flag' : Bool) (m m' : Marks) : Prop where
  accepted : m'.accepted = (m.accepted || t'.stage.accepts)
  fell : t.stage ≠ .stopCheck k → m.fell = true → m'.fell = true
  down : flag' = false → flag = false ∨ m'.fell = true

section Stop

variable {aggressive : Bool} {k : Kind} {m m' : Marks} {flag' : Bool} {i : ℕ} {a : Answer} {s : System}

theorem stopReturn_ret (hcall : (s.thread i).call = .stop k) (k' : Kind) (r : Result) : s.stopReturn i k' r = s.ret i r := by
  rw [System.stopReturn, if_neg (by simp [hcall])]

/-- what `connector_initiate_action_secure` returns to a stop -/
theorem initiated_stop (hcall : (s.thread i).call = .stop k) {st : ConnectorStatus}
    (hm : m.accepted = decide (st = .success)) (hflag : flag' = false → m'.fell = true)
    (hacc : m'.accepted = (m.accepted || ((s.initiated i (.stop k) st).thread i).stage.accepts)) :
    StopAt k m' flag' ((s.initiated i (.stop k) st).thread i) := by
  cases st with
  | success =>
    simp only [System.initiated] at hacc ⊢
    rw [System.goto_self] at hacc ⊢
    exact ⟨rfl, (hacc.trans (Bool.or_false _)).trans hm, hflag⟩
  | serviceBusy =>
    simp only [System.initiated] at hacc ⊢
    rw [System.goto_self] at hacc ⊢
    exact ⟨rfl, (hacc.trans (Bool.or_false _)).trans hm, hflag⟩
  | abort | failed =>
    simp only [System.initiated]
    rw [stopReturn_ret hcall, System.ret_self]
    exact .ccfsm

/-- **A step of a stop.** -/
theorem api_stop (hcall : (s.thread i).call = .stop k) (h : StopAt k m (s.link k).started (s.thread i))
    (hm : m.Descends k (s.thread i) ((s.api aggressive i a).thread i) (s.link k).started flag' m') :
    StopAt k m' flag' ((s.api aggressive i a).thread i) := by
  have hacc := hm.accepted
  have hat := h
  have hfall (hcheck : (s.thread i).stage ≠ .stopCheck k) (hflag : (s.link k).started = false → m.fell = true)
      (hdown : flag' = false) : m'.fell = true := (hm.down hdown).elim (fun hf => hm.fell hcheck (hflag hf)) id
  unfold StopAt at hat
  cases hs : (s.thread i).stage with
  | begin =>
    rw [hs] at hat
    simp only [System.api, hs, hcall] at hacc ⊢
    rw [System.goto_self] at hacc ⊢
    exact ⟨rfl, (hacc.trans (Bool.or_false _)).trans hat⟩
  | stopCheck k' =>
    rw [hs] at hat
    obtain ⟨rfl, haccepted⟩ := hat
    simp only [System.api, hs] at hacc ⊢
    split_ifs at hacc ⊢ with hstarted
    · rw [System.goto_self] at hacc ⊢
      refine ⟨rfl, (hacc.trans (Bool.or_false _)).trans haccepted, fun hdown => ?_⟩
      exact (hm.down hdown).resolve_left (by simp [hstarted.2])
    · rw [stopReturn_ret hcall, System.ret_self] at hacc ⊢
      exact .notStarted ((hacc.trans (Bool.or_false _)).trans haccepted)
  | initiateAcquire act =>
    rw [hs] at hat
    obtain ⟨rfl, haccepted, hflag⟩ := hat
    simp only [System.api, hs] at hacc ⊢
    split_ifs at hacc ⊢
    · rw [System.goto_self] at hacc ⊢
      exact ⟨rfl, (hacc.trans (Bool.or_false _)).trans haccepted, hfall (by simp [hs]) hflag⟩
    · exact initiated_stop hcall haccepted (hfall (by simp [hs]) hflag) hacc
  | initiate act =>
    rw [hs] at hat
    obtain ⟨rfl, haccepted, hflag⟩ := hat
    simp only [System.api, hs] at hacc ⊢
    rw [System.goto_self] at hacc ⊢
    refine ⟨rfl, ?_, hfall (by simp [hs]) hflag⟩
    rw [hacc, haccepted]
    cases s.answer a <;> rfl
  | initiateRelease act st =>
    rw [hs] at hat
    obtain ⟨rfl, haccepted, hflag⟩ := hat
    simp only [System.api, hs] at hacc ⊢
    split_ifs at hacc ⊢
    · exact initiated_stop hcall haccepted (hfall (by simp [hs]) hflag) hacc
    · simp only [System.initiated]
      rw [stopReturn_ret hcall, System.ret_self]
      exact .ccfsm
  | stopWait k' =>
    rw [hs] at hat
    obtain ⟨rfl, haccepted, hflag⟩ := hat
    simp only [System.api, hs] at hacc ⊢
    split_ifs at hacc ⊢ with hstarted
    · unfold StopAt
      rw [hs] at hacc ⊢
      exact ⟨rfl, (hacc.trans (Bool.or_false _)).trans haccepted, hfall (by simp [hs]) hflag⟩
    · rw [System.goto_self] at hacc ⊢
      have hfell : m.fell = true := hflag (by simpa using hstarted)
      exact ⟨rfl, (hacc.trans (Bool.or_false _)).trans haccepted, hm.fell (by simp [hs]) hfell⟩
  | stopFree k' =>
    rw [hs] at hat
    obtain ⟨rfl, haccepted, hfell⟩ := hat
    have hfell' : m'.fell = true := hm.fell (by simp [hs]) hfell
    simp only [System.api, hs] at hacc ⊢
    split_ifs at hacc ⊢
    · rw [stopReturn_ret hcall, System.ret_self] at hacc ⊢
      exact .stopped ((hacc.trans (Bool.or_false _)).trans haccepted) hfell'
    · rw [System.goto_self] at hacc ⊢
      exact ⟨rfl, (hacc.trans (Bool.or_false _)).trans haccepted, hfell'⟩
  | stopNull k' =>
    rw [hs] at hat
    obtain ⟨rfl, haccepted, hfell⟩ := hat
    simp only [System.api, hs] at hacc ⊢
    rw [stopReturn_ret (by exact hcall), System.ret_self] at hacc ⊢
    exact .stopped ((hacc.trans (Bool.or_false _)).trans haccepted) (hm.fell (by simp [hs]) hfell)
  | returned =>
    rw [hs] at hat
    simp only [System.api, hs] at hacc ⊢
    unfold StopAt
    rw [hs]
    exact StopVerdict.grow hat (hacc.trans (Bool.or_false _)) (hm.fell (by simp [hs]))
  | _ => rw [hs] at hat; exact hat.elim

end Stop

/-! ## Runs -/

namespace System

section Others

variable {i j : ℕ} (hij : i ≠ j)

include hij

theorem goto_other (st : Stage) (s : System) : (s.goto j st).thread i = s.thread i := by
  simp [goto, setThread, Function.update_of_ne hij]

theorem ret_other (r : Result) (s : System) : (s.ret j r).thread i = s.thread i := by
  simp [ret, setThread, Function.update_of_ne hij]

theorem startFail_other (e : StartError) (s : System) : (s.startFail j e).thread i = s.thread i := by
  unfold startFail
  split_ifs
  · exact goto_other hij _ s
  · exact ret_other hij _ s

theorem stopReturn_other (k : Kind) (r : Result) (s : System) : (s.stopReturn j k r).thread i = s.thread i := by
  unfold stopReturn
  split_ifs
  · exact goto_other hij _ s
  · exact ret_other hij _ s

theorem initiated_other (act : Action) (st : ConnectorStatus) (s : System) :
    (s.initiated j act st).thread i = s.thread i := by
  unfold initiated
  split
  all_goals
    first
      | exact goto_other hij _ s
      | exact startFail_other hij _ s
      | exact stopReturn_other hij _ _ s

theorem startWait_other (arg : StartArg) (a : Answer) (s : System) : (s.startWait j arg a).thread i = s.thread i := by
  unfold startWait
  dsimp only
  repeat' split
  all_goals first | rfl | exact ret_other hij _ s | exact startFail_other hij _ s

theorem start_other (aggressive : Bool) (arg : StartArg) (a : Answer) (s : System) :
    (s.start aggressive j arg a).thread i = s.thread i := by
  unfold start
  dsimp only
  repeat' split
  all_goals
    first
      | rfl
      | exact ret_other hij _ _
      | exact goto_other hij _ _
      | exact startFail_other hij _ _
      | exact startWait_other hij arg a s

/-- a step of one call leaves the threads of the others alone -/
theorem api_other (aggressive : Bool) (a : Answer) (s : System) : (s.api aggressive j a).thread i = s.thread i := by
  unfold api
  split
  case h_5 act hs =>
    rw [goto_other hij]
    cases act <;> split_ifs <;> rfl
  all_goals (repeat' split)
  all_goals
    first
      | rfl
      | exact ret_other hij _ _
      | exact goto_other hij _ _
      | exact stopReturn_other hij _ _ _
      | exact initiated_other hij _ _ s
      | exact start_other hij aggressive _ a s

end Others

theorem event_thread (e : Event) (s : System) : (s.event e).thread = s.thread := by
  cases e <;> simp only [event] <;> (repeat' split) <;> rfl

/-- the calls of a run -/
def calls (s : System) : ℕ → Call := fun i => (s.thread i).call

@[simp] theorem goto_calls (i : ℕ) (st : Stage) (s : System) : (s.goto i st).calls = s.calls := by
  funext j
  by_cases hj : j = i
  · subst hj
    simp [calls]
  · simp [calls, goto_other hj]

@[simp] theorem ret_calls (i : ℕ) (r : Result) (s : System) : (s.ret i r).calls = s.calls := by
  funext j
  by_cases hj : j = i
  · subst hj
    simp [calls]
  · simp [calls, ret_other hj]

@[simp] theorem onLink_calls (k : Kind) (f : Link → Link) (s : System) : (s.onLink k f).calls = s.calls := rfl

@[simp] theorem startFail_calls (i : ℕ) (e : StartError) (s : System) : (s.startFail i e).calls = s.calls := by
  unfold startFail
  split <;> simp

@[simp] theorem stopReturn_calls (i : ℕ) (k : Kind) (r : Result) (s : System) : (s.stopReturn i k r).calls = s.calls := by
  unfold stopReturn
  split <;> simp

@[simp] theorem initiated_calls (i : ℕ) (act : Action) (st : ConnectorStatus) (s : System) :
    (s.initiated i act st).calls = s.calls := by
  cases st <;> cases act <;> simp [initiated]

@[simp] theorem accept_calls (act : Action) (s : System) : (s.accept act).calls = s.calls := by
  cases act <;> rfl

@[simp] theorem startWait_calls (i : ℕ) (arg : StartArg) (a : Answer) (s : System) :
    (s.startWait i arg a).calls = s.calls := by
  unfold startWait
  dsimp only
  repeat' split
  all_goals simp

@[simp] theorem start_calls (aggressive : Bool) (i : ℕ) (arg : StartArg) (a : Answer) (s : System) :
    (s.start aggressive i arg a).calls = s.calls := by
  unfold start
  dsimp only
  repeat' split
  all_goals simp

theorem api_calls (aggressive : Bool) (i : ℕ) (a : Answer) (s : System) : (s.api aggressive i a).calls = s.calls := by
  unfold api
  repeat' split
  all_goals simp

/-- nobody changes a call -/
theorem step_calls (b : Build) (s : System) (o : Op) : (s.step b o).calls = s.calls := by
  unfold step
  split_ifs
  · rfl
  · cases o with
    | api i a =>
      dsimp only
      split_ifs
      · rfl
      · exact api_calls b.aggressive i a s
    | event e => exact funext fun i => congrArg Thread.call (congrFun (event_thread e s) i)

end System

/-! ### The marks of a run -/

/-- the call of interest stands still in a step of anyone else -/
theorem waits_of_thread {b : Build} {k : Kind} {i : ℕ} {s : System} {o : Op} (m : Marks)
    (ht : (s.step b o).thread i = s.thread i) :
    m.Waits (s.thread i) k (s.link k).started ((s.step b o).link k).started (m.next k i s (s.step b o) o) where
  accepted := by simp only [Marks.next, ht]
  opened hclear ho := by simp [Marks.next, ho, hclear]
  fell hcheck hf := by simp [Marks.next, hf, hcheck]
  gaveUp hg := by simp [Marks.next, hg]
  up hup := (System.flag_rises b s o k hup).imp_right fun ho => by simp [Marks.next, ho]
  down hdown := by
    cases hst : (s.link k).started with
    | false => exact .inl rfl
    | true => exact .inr (by simp [Marks.next, hst, hdown])

/-- the marks of a start of transport k in a step of its own -/
theorem moves_of_api {b : Build} {arg : StartArg} {i : ℕ} {s : System} {a : Answer} (m : Marks)
    (hcall : (s.thread i).call = .start arg) (hhalt : s.halted = false) :
    m.Moves arg (s.thread i) ((s.api b.aggressive i a).thread i) a (s.link arg.kind).started
      ((s.api b.aggressive i a).link arg.kind).started (m.next arg.kind i s (s.api b.aggressive i a) (.api i a)) where
  accepted := rfl
  opened hclear := by simp [Marks.next, hclear, System.opens]
  fell hcheck hf := by simp [Marks.next, hf, hcheck]
  gave hg := by simp [Marks.next, hg]
  gaveUp hs hbad hk hf := by simp [Marks.next, System.givesUp, hs, hbad, hk, hf, hhalt, hcall]
  up hup := System.started_api b.aggressive i a s arg.kind hup
  cleared hs := by
    simp [System.api, hs, hcall, System.start, System.onLink]

theorem descends_of_api {b : Build} {k : Kind} {i : ℕ} {s : System} {a : Answer} (m : Marks) :
    m.Descends k (s.thread i) ((s.api b.aggressive i a).thread i) (s.link k).started
      ((s.api b.aggressive i a).link k).started (m.next k i s (s.api b.aggressive i a) (.api i a)) where
  accepted := rfl
  fell hcheck hf := by simp [Marks.next, hf, hcheck]
  down hdown := by
    cases hst : (s.link k).started with
    | false => exact .inl rfl
    | true => exact .inr (by simp [Marks.next, hst, hdown])

/-- a step is one of the call itself, or leaves its thread where it is -/
theorem step_own_or_other (b : Build) (s : System) (o : Op) (i : ℕ) :
    (∃ a, o = .api i a ∧ s.halted = false ∧ s.step b o = s.api b.aggressive i a) ∨
      (s.step b o).thread i = s.thread i := by
  unfold System.step
  split_ifs with hhalt
  · exact .inr rfl
  · cases o with
    | api j a =>
      dsimp only
      split_ifs
      · exact .inr rfl
      · by_cases hij : i = j
        · subst hij
          exact .inl ⟨a, rfl, by simpa using hhalt, rfl⟩
        · exact .inr (System.api_other hij b.aggressive a s)
    | event e => exact .inr (congrFun (System.event_thread e s) i)

/-- a start with its marks -/
def StartInv (b : Build) (arg : StartArg) (i : ℕ) (w : System × Marks) : Prop :=
  (w.1.thread i).call = .start arg ∧ StartAt b.aggressive arg w.2 (w.1.link arg.kind).started (w.1.thread i)

/-- **One step, around a start.** -/
theorem step_start (b : Build) (arg : StartArg) (i : ℕ) (w : System × Marks) (o : Op) (h : StartInv b arg i w) :
    StartInv b arg i (watch b arg.kind i w o) := by
  obtain ⟨hcall, hat⟩ := h
  refine ⟨(congrFun (System.step_calls b w.1 o) i).trans hcall, ?_⟩
  rcases step_own_or_other b w.1 o i with ⟨a, rfl, hhalt, hstep⟩ | ht
  · simp only [watch, hstep]
    exact api_start hcall hat (moves_of_api w.2 hcall hhalt)
  · have hwait := hat.wait (waits_of_thread w.2 ht)
    simp only [watch]
    rwa [ht]

/-- a stop with its marks -/
def StopInv (k : Kind) (i : ℕ) (w : System × Marks) : Prop :=
  (w.1.thread i).call = .stop k ∧ StopAt k w.2 (w.1.link k).started (w.1.thread i)

/-- **One step, around a stop.** -/
theorem step_stop (b : Build) (k : Kind) (i : ℕ) (w : System × Marks) (o : Op) (h : StopInv k i w) :
    StopInv k i (watch b k i w o) := by
  obtain ⟨hcall, hat⟩ := h
  refine ⟨(congrFun (System.step_calls b w.1 o) i).trans hcall, ?_⟩
  rcases step_own_or_other b w.1 o i with ⟨a, rfl, -, hstep⟩ | ht
  · simp only [watch, hstep]
    exact api_stop hcall hat (descends_of_api w.2)
  · have hwait := hat.wait (waits_of_thread w.2 ht)
    simp only [watch]
    rwa [ht]

/-! ## Main results -/

/-- **Starts and stops.** For every build, any number of starts, stops and stops of the library over the three transports, and
any interleaving of them with the connector's events: a start that has returned success had valid arguments, the connector
has accepted it, and since it cleared the flag the connector has opened its transport, unless an infinite wait over TCP has
failed; any other error of a start names what the connector has not heard of, or an initiation or a wait that has failed. A
stop that has returned success was accepted, and since it looked at the flag the flag has gone down. -/
theorem transport_returned (b : Build) (calls : ℕ → Call) (ops : List Op) (i : ℕ)
    (h : ((run (System.step b) (System.fresh calls) ops).thread i).stage = .returned) :
    (∀ arg, calls i = .start arg →
      ∃ e, ((run (System.step b) (System.fresh calls) ops).thread i).result = .start e ∧
        StartVerdict b.aggressive arg (marks b arg.kind i calls ops) e) ∧
    (∀ k, calls i = .stop k →
      StopVerdict (marks b k i calls ops) ((run (System.step b) (System.fresh calls) ops).thread i).result) := by
  constructor
  · intro arg harg
    have hrun := run_inv_all (step_start b arg i) (s := (System.fresh calls, ⟨false, false, false, false⟩))
      ⟨harg, rfl⟩ ops
    obtain ⟨-, hat⟩ := hrun
    rw [watch_fst] at hat
    unfold StartAt at hat
    rw [h] at hat
    exact hat
  · intro k hk
    have hrun := run_inv_all (step_stop b k i) (s := (System.fresh calls, ⟨false, false, false, false⟩)) ⟨hk, rfl⟩ ops
    obtain ⟨-, hat⟩ := hrun
    rw [watch_fst] at hat
    unfold StopAt at hat
    rw [h] at hat
    exact hat

def udpArg : StartArg := .udp (some { maxSessions := 0, startTimeout := 1 })

def udpCalls (i : ℕ) : Call := if i = 0 then .start udpArg else .stop .udp

/-- a start, the opening of the network, a stop and the close -/
def udpOps : List Op :=
  List.replicate 10 (Op.api 0 granted) ++ [Op.event (.opened .udp .ok), Op.api 0 granted] ++ List.replicate 5 (Op.api 1 granted) ++
    [Op.event (.close .udp .deviceStopped .ok), Op.event (.closed false false false), Op.event (.stopCompleted .udp)] ++
    List.replicate 3 (Op.api 1 granted)

def upAndDown : System := run (System.step ⟨false, false⟩) (System.fresh udpCalls) udpOps

example : (upAndDown.thread 0).result = .start .none ∧ (upAndDown.thread 1).result = .stopped := by decide

theorem transport_returned_udp :
    (∃ e, (upAndDown.thread 0).result = .start e ∧
      StartVerdict false udpArg (marks ⟨false, false⟩ .udp 0 udpCalls udpOps) e) ∧
    StopVerdict (marks ⟨false, false⟩ .udp 1 udpCalls udpOps) (upAndDown.thread 1).result :=
  ⟨(transport_returned ⟨false, false⟩ udpCalls udpOps 0 (by decide)).1 udpArg rfl,
    (transport_returned ⟨false, false⟩ udpCalls udpOps 1 (by decide)).2 .udp rfl⟩

end CcApi.Transport
