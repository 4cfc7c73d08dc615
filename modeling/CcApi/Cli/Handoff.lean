/-
The SM CLI service as a one-slot hand-off (`ccapi_sm_handler.c`), the way the receive service is one.

- `step_sim`: every step is a few hand-off steps, or none, and releases no queued session if it spares those.
- `step_grip`: so every step keeps what the thread has in its hand queued, or released.
- `run_inv`: the invariant of the hand-off holds along every run whose status callbacks spare queued sessions.
-/
import CcApi.Cli.Model

namespace CcApi.Cli

open Lib Lib.Runs

/-- the stage a thread status stands for -/
def CliThreadStatus.stage : CliThreadStatus → Handoff.Stage
  | .idle => .idle
  | .requestCbReady => .ready
  | .requestCbQueued => .queued
  | .requestCbProcessed => .processed
  | .free => .free

def SvcCli.stage (a : SvcCli) : Handoff.Stage := a.cliThreadStatus.stage

theorem stage_queued {a : SvcCli} : a.stage = .queued ↔ a.cliThreadStatus = .requestCbQueued := by
  unfold SvcCli.stage
  cases a.cliThreadStatus <;> simp [CliThreadStatus.stage]

def Pc.abs : Pc → Handoff.Pc ℕ
  | .waiting => .waiting
  | .picked c => .picked c
  | .checked c => .checked c
  | .calling c => .calling c
  | .returned c => .returned c
  | .settled => .settled
  | .exited => .exited

def St.abs (s : St) : Handoff.St ℕ :=
  Handoff.view SvcCli.stage s.svc.ctx s.svc.svcCli s.lock s.pc.abs s.touches (s.calls.map fun c => (c.ctx, c.live))

/-- contexts are in blocks that have been allocated -/
def Fresh (s : Svc) : Prop := Cell.Fresh s.ctx s.heap.next

/-- the status callback does not end a session that is queued for the thread -/
def SparesQueued (s : St) : Op → Prop
  | .status r => ∀ c a, s.svc.session r.userContext = some (c, a) → a.cliThreadStatus ≠ .requestCbQueued
  | _ => True

instance (s : St) (o : Op) : Decidable (SparesQueued s o) := by
  cases o with
  | status r =>
    exact decidable_of_iff (∀ p ∈ s.svc.session r.userContext, p.2.cliThreadStatus ≠ .requestCbQueued)
      ⟨fun h c a he => h (c, a) (by simp [he]), fun h p hp => h p.1 p.2 (by simpa using hp)⟩
  | _ => exact isTrue trivial

/-! ## Contexts -/

theorem session_some {s : Svc} {u : Option ℕ} {c : ℕ} {a : SvcCli} (h : s.session u = some (c, a)) :
    u = some c ∧ s.ctx c = .live a := by
  unfold Svc.session at h
  split at h
  · contradiction
  · split at h
    · rename_i hc
      cases h
      exact ⟨rfl, hc⟩
    · contradiction

/-- seen as a hand-off, t is reached from s, and if spares holds, with no queued session released -/
def Sim (spares : Prop) (s t : St) : Prop := Handoff.Reaches spares s.abs t.abs

section Sim

variable {spares : Prop} {s t : St} {c : ℕ} {a a' : SvcCli} {heap : Heap}

theorem sim_none (h : t.abs = s.abs) : Sim spares s t := by
  unfold Sim
  rw [h]
  exact Handoff.Reaches.refl _

theorem put_sim (hc : s.svc.ctx c = .live a) (hst : a'.cliThreadStatus = a.cliThreadStatus) :
    Sim spares s { s with svc := ({ s.svc with heap := heap } : Svc).put c a' } :=
  sim_none (Handoff.view_same hc (by simp [SvcCli.stage, hst]))

/-- a callback that moves a session from one stage to another -/
theorem put_move_sim {p q : CliThreadStatus} (o : Handoff.Op ℕ) (ho : Handoff.step s.abs o = s.abs.move c p.stage q.stage)
    (hc : s.svc.ctx c = .live a) (hp : a.cliThreadStatus = p) (hq : a'.cliThreadStatus = q)
    (hk : Handoff.KeepsQueued s.abs o := by trivial) :
    Sim spares s { s with svc := ({ s.svc with heap := heap } : Svc).put c a' } := by
  refine Handoff.Reaches.one o ?_ fun _ => hk
  rw [ho]
  exact Handoff.view_move hc (by simp [SvcCli.stage, hp]) (by simp [SvcCli.stage, hq])

end Sim

theorem put_put (s : Svc) (heap : Heap) (slot : Option ℕ) (c : ℕ) (a b : SvcCli) :
    ({ s.put c a with heap := heap, svcCli := slot } : Svc).put c b =
      ({ s with heap := heap, svcCli := slot } : Svc).put c b := by
  simp [Svc.put]

/-! ## The callbacks -/

/-- an idle session's request callback refuses the segment or appends it -/
theorem appendSegment_cases (c : ℕ) (a : SvcCli) (bytes : List UInt8) (moreData ok : Bool) (s : Svc) :
    ∃ heap a' status, s.heap.Keeps heap ∧
      appendSegment c a bytes moreData ok s = (({ s with heap := heap } : Svc).put c a', status) ∧
      (a'.cliThreadStatus = a.cliThreadStatus ∨ a'.cliThreadStatus = .requestCbReady ∨ a'.cliThreadStatus = .free) := by
  cases ok with
  | false => exact ⟨s.heap, _, _, Heap.Keeps.refl _, rfl, by simp⟩
  | true =>
    obtain ⟨heap, he, hm⟩ := Heap.realloc_moved a.requestString a.requestLength (a.requestLength + bytes.length) s.heap
    have hw := hm.keeps.write le_rfl a.requestLength bytes.length fun i => bytes.getD i 0
    cases moreData
    · exact ⟨_, _, _, hw, by simp only [appendSegment, he]; rfl, by simp⟩
    · exact ⟨_, _, _, hw, by simp only [appendSegment, he]; rfl, by simp⟩

/-- what a request callback does to the stage of its session c, the slot and the lock -/
inductive Moves (c : ℕ) (slot : Option ℕ) : CliThreadStatus → CliThreadStatus → Option ℕ → Bool → Prop where
  | stays (p : CliThreadStatus) : Moves c slot p p slot false
  | fills : Moves c slot .idle .requestCbReady slot false
  | drops : Moves c slot .idle .free slot false
  | offers : slot = none → Moves c slot .requestCbReady .requestCbQueued (some c) true
  | finishes : Moves c slot .requestCbProcessed .free slot false

/-- a request callback rewrites the session it is for: it leaves it at its stage, moves it on, or offers it -/
theorem requestInContext_cases (c : ℕ) (a : SvcCli) (bytes : List UInt8) (moreData ok : Bool) (s : Svc) :
    ∃ heap slot a' status released, s.heap.Keeps heap ∧
      requestInContext c a bytes moreData ok s =
        (({ s with heap := heap, svcCli := slot } : Svc).put c a', status, released) ∧
      Moves c s.svcCli a.cliThreadStatus a'.cliThreadStatus slot released := by
  by_cases hs : s.cliSupported = true
  case neg =>
    exact ⟨s.heap, s.svcCli, { a with cliError := .noCliSupport }, .error, false, Heap.Keeps.refl _,
      by rw [requestInContext, if_pos hs], .stays _⟩
  cases hst : a.cliThreadStatus with
  | idle =>
    obtain ⟨heap, a', status, hk, he, ha'⟩ := appendSegment_cases c a bytes moreData ok s
    refine ⟨heap, s.svcCli, a', status, false, hk, by simp [requestInContext, hs, hst, he], ?_⟩
    obtain ha' | ha' | ha' := ha' <;> rw [ha']
    · rw [hst]; exact .stays _
    · exact .fills
    · exact .drops
  | requestCbReady =>
    cases hslot : s.svcCli with
    | none =>
      exact ⟨s.heap, some c, { a with cliThreadStatus := .requestCbQueued }, .busy, true, Heap.Keeps.refl _,
        by simp [requestInContext, hs, hst, hslot], .offers rfl⟩
    | some c' =>
      exact ⟨s.heap, some c', a, .busy, false, Heap.Keeps.refl _,
        by simp [requestInContext, hs, hst, hslot, Svc.put], hst ▸ .stays _⟩
  | requestCbQueued =>
    exact ⟨s.heap, s.svcCli, a, .busy, false, Heap.Keeps.refl _, by simp [requestInContext, hs, hst, Svc.put],
      hst ▸ .stays _⟩
  | requestCbProcessed =>
    cases hb : a.requestString with
    | none =>
      exact ⟨s.heap, s.svcCli, { takeResponse a s.heap with cliThreadStatus := .free }, .cont, false,
        Heap.Keeps.refl _, by simp [requestInContext, hs, hst, hb], .finishes⟩
    | some b =>
      exact ⟨s.heap.free b, s.svcCli, { takeResponse a s.heap with cliThreadStatus := .free }, .cont, false,
        Heap.keeps_free _ _, by simp [requestInContext, hs, hst, hb], .finishes⟩
  | free =>
    exact ⟨s.heap, s.svcCli, a, .error, false, Heap.Keeps.refl _, by simp [requestInContext, hs, hst, Svc.put],
      hst ▸ .stays _⟩

theorem moves_sim {spares : Prop} {s : St} {c : ℕ} {a a' : SvcCli} {heap : Heap} {slot : Option ℕ} {released : Bool}
    (hc : s.svc.ctx c = .live a)
    (h : Moves c s.svc.svcCli a.cliThreadStatus a'.cliThreadStatus slot released) :
    Sim spares s { s with svc := ({ s.svc with heap := heap, svcCli := slot } : Svc).put c a',
                          lock := if released then s.lock + 1 else s.lock } := by
  generalize hp : a.cliThreadStatus = p, hq : a'.cliThreadStatus = q at h
  cases h with
  | stays => exact put_sim hc (hq.trans hp.symm)
  | fills => exact put_move_sim (.ready c) rfl hc hp hq
  | drops => exact put_move_sim (.drop c) rfl hc hp hq
  | offers hslot =>
    refine Handoff.Reaches.one (.offer c) ?_
    simp only [if_true, St.abs, Svc.put, hslot]
    exact Handoff.view_offer hc (by simp [SvcCli.stage, hp, CliThreadStatus.stage])
      (by simp [SvcCli.stage, hq, CliThreadStatus.stage])
  | finishes => exact put_move_sim (.finish c) rfl hc hp hq

/-- the record of a session as the request callback works on it is that of the session, with the request's `more_data`,
or that of a new one in the next block -/
theorem requestContext_cases {r : RequestReq} {contextOk : Bool} {s t : Svc} {c : ℕ} {a : SvcCli}
    (h : requestContext r contextOk s = (t, some (c, a))) :
    (t = s ∧ ∃ a₀, s.ctx c = .live a₀ ∧ a₀.cliThreadStatus = a.cliThreadStatus) ∨
    (c = s.heap.next ∧ a.cliThreadStatus = .idle ∧ ∃ heap, s.heap.Keeps heap ∧ s.heap.next < heap.next ∧
      t = { s with heap := heap }) := by
  unfold requestContext at h
  cases hr : r.userContext with
  | some u =>
    simp only [hr, Prod.mk.injEq, Option.map_eq_some_iff] at h
    obtain ⟨rfl, p, hp, he⟩ := h
    obtain ⟨hu, hc⟩ := session_some hp
    obtain ⟨rfl, rfl⟩ := he
    exact Or.inl ⟨rfl, p.2, hc, rfl⟩
  | none =>
    cases contextOk with
    | false => simp [hr, Heap.malloc] at h
    | true =>
      simp only [hr, Heap.malloc, if_true, Prod.mk.injEq, Option.some.injEq] at h
      obtain ⟨rfl, rfl, rfl⟩ := h
      exact Or.inr ⟨rfl, rfl, _, Heap.keeps_malloc sizeofSvcCli true s.heap, Nat.lt_succ_self _, rfl⟩

theorem requestContext_none {r : RequestReq} {contextOk : Bool} {s t : Svc}
    (h : requestContext r contextOk s = (t, none)) : t = s := by
  unfold requestContext at h
  split at h
  · cases contextOk with
    | false => exact (congrArg Prod.fst h).symm
    | true => simp [Heap.malloc] at h
  · exact (congrArg Prod.fst h).symm

/-- a request callback is one for a session that is there, or opens one and is then one for it -/
theorem request_sim {spares : Prop} (r : RequestReq) (contextOk ok : Bool) {s : St} (hf : Fresh s.svc) :
    Sim spares s (stepRequest r contextOk ok s) := by
  rcases hbuf : r.buffer with _ | (_ | ⟨b, bytes⟩)
  · simp only [stepRequest, processCliRequest, hbuf]
    exact sim_none rfl
  · simp only [stepRequest, processCliRequest, hbuf]
    exact sim_none rfl
  rcases hctx : requestContext r contextOk s.svc with ⟨t, _ | ⟨c, a⟩⟩
  · simp only [stepRequest, processCliRequest, hbuf, hctx]
    rw [requestContext_none hctx]
    exact sim_none rfl
  obtain ⟨heap, slot, a', status, released, -, he, hm⟩ := requestInContext_cases c a (b :: bytes) r.moreData ok t
  simp only [stepRequest, processCliRequest, hbuf, hctx, he]
  obtain ⟨rfl, a₀, hc, ha⟩ | ⟨rfl, ha, heap₀, -, -, rfl⟩ := requestContext_cases hctx
  · exact moves_sim hc (ha ▸ hm)
  · let s₁ : St := { s with svc := ({ s.svc with heap := heap₀ } : Svc).put s.svc.heap.next a }
    have hcreate : Sim spares s s₁ := by
      refine Handoff.Reaches.one (.create s.svc.heap.next) ?_
      exact Handoff.view_create (hf _ le_rfl) (by simp [SvcCli.stage, ha, CliThreadStatus.stage])
    have hmoves := @moves_sim spares s₁ s.svc.heap.next a a' heap slot released (by simp [s₁, Svc.put]) hm
    rw [put_put] at hmoves
    exact hcreate.trans hmoves

theorem fillInternalError_cases (ok : Bool) (a : SvcCli) (heap : Heap) :
    heap.Keeps (fillInternalError ok a heap).2 ∧
      (fillInternalError ok a heap).1.cliThreadStatus = a.cliThreadStatus := by
  cases ok with
  | false => exact ⟨Heap.Keeps.refl _, rfl⟩
  | true => exact ⟨(Heap.keeps_malloc _ true heap).write le_rfl _ _ _, rfl⟩

/-- a reply rewrites the session's error and response -/
theorem reply_cases (r : ReplyReq) (ok : Bool) (s : Svc) :
    (processCliResponse r ok s).1 = s ∨ ∃ c a a' heap, s.ctx c = .live a ∧ s.heap.Keeps heap ∧
      a'.cliThreadStatus = a.cliThreadStatus ∧
      (processCliResponse r ok s).1 = ({ s with heap := heap } : Svc).put c a' := by
  unfold processCliResponse
  split
  · exact Or.inl rfl
  · rename_i c a hu
    obtain ⟨-, hc⟩ := session_some hu
    split_ifs with hreq herr
    · obtain ⟨hk, hst⟩ := fillInternalError_cases ok { a with responseHandledInternally := true } s.heap
      exact Or.inr ⟨c, a, _, _, hc, hk, by simpa [sendReply] using hst, rfl⟩
    · exact Or.inr ⟨c, a, (sendReply r a s.heap).1, s.heap, hc, Heap.Keeps.refl _, rfl, rfl⟩
    · exact Or.inl rfl

theorem reply_sim {spares : Prop} (r : ReplyReq) (ok : Bool) (s : St) :
    Sim spares s { s with svc := (processCliResponse r ok s.svc).1 } := by
  obtain he | ⟨c, a, a', heap, hc, -, hst, he⟩ := reply_cases r ok s.svc
  · rw [he]; exact sim_none rfl
  · rw [he]; exact put_sim hc hst

/-- a status callback ends the session it is for, or leaves everything alone -/
theorem status_cases (r : StatusReq) (s : Svc) :
    (processCliStatus r s).1 = s ∨ ∃ c a a' heap, s.session r.userContext = some (c, a) ∧
      a'.cliThreadStatus = a.cliThreadStatus ∧ s.heap.Keeps heap ∧
      (processCliStatus r s).1 = { s with ctx := Function.update s.ctx c (.freed a'), heap := heap } := by
  unfold processCliStatus
  split
  · exact Or.inl rfl
  · rename_i c a hu
    let a' : SvcCli := { a with cliError := if a.cliError = .none then r.status.toError else a.cliError }
    refine Or.inr ⟨c, a, a', freeSession c a' s.heap, hu, rfl, ?_, rfl⟩
    unfold freeSession
    -- a release leaves the contents of every block in place
    split <;> exact Heap.Keeps.refl _

theorem status_sim (r : StatusReq) (s : St) :
    Sim (SparesQueued s (.status r)) s { s with svc := (processCliStatus r s.svc).1 } := by
  obtain he | ⟨c, a, a', heap, hu, ha', -, he⟩ := status_cases r s.svc
  · rw [he]
    exact sim_none rfl
  · have hc := (session_some hu).2
    refine Handoff.Reaches.one (.release c) ?_ fun h => ?_
    · rw [he]
      exact Handoff.view_release hc (by simp [SvcCli.stage, ha'])
    · exact Handoff.view_spares hc fun hst => h c a hu (stage_queued.1 hst)

/-! ## The thread -/

theorem settled_stage (c : Cell SvcCli) :
    c.map (SvcCli.stage ∘ SvcCli.settle) = Handoff.settled (c.map SvcCli.stage) := by
  refine Handoff.settled_map (fun a => ?_) c
  unfold SvcCli.settle SvcCli.stage
  cases hst : a.cliThreadStatus <;> simp [CliThreadStatus.stage, hst]

/-- storing the user's output moves no stage -/
theorem storeOutput_stage (c : ℕ) (output : Option Str) (s : Svc) :
    (fun i => ((storeOutput c output s).ctx i).map SvcCli.stage) = fun i => (s.ctx i).map SvcCli.stage := by
  cases output with
  | none => rfl
  | some text =>
    simp only [storeOutput, Cell.map_update, Cell.map_map]
    refine Function.update_eq_self_iff.2 ?_
    rfl

theorem storeOutput_slot (c : ℕ) (output : Option Str) (s : Svc) : (storeOutput c output s).svcCli = s.svcCli := by
  cases output <;> rfl

theorem keeps_storeOutput (c : ℕ) (output : Option Str) (s : Svc) : s.heap.Keeps (storeOutput c output s).heap := by
  cases output with
  | none => exact Heap.Keeps.refl _
  | some text => exact (Heap.keeps_malloc (text.length + 1) true s.heap).write le_rfl 0 (text.length + 1) _

/-- what the thread has in its hand is a queued session, or one that has been released -/
theorem in_grip {s : St} (h : Handoff.Grip s.abs) {c : ℕ}
    (hpc : s.pc = .picked c ∨ s.pc = .checked c ∨ s.pc = .calling c ∨ s.pc = .returned c) :
    ∃ a, s.svc.ctx c = .freed a ∨ (s.svc.ctx c = .live a ∧ a.stage = .queued) :=
  h.view_in_hand (i := c) (by rcases hpc with h | h | h | h <;> simp [h, Pc.abs])

theorem thread_sim {spares : Prop} {s : St} (h : Handoff.Grip s.abs) (o : Op) : Sim spares s (stepThread s o) := by
  cases o with
  | request | reply | status => exact sim_none rfl
  | wake =>
    refine Handoff.Reaches.one .wake ?_
    cases hpc : s.pc <;> cases hl : s.lock <;> cases hslot : s.svc.svcCli <;>
      simp [stepThread, Handoff.step, St.abs, Handoff.view, Pc.abs, hpc, hl, hslot]
  | check =>
    cases hpc : s.pc
    case picked c =>
      -- the asserts read the context whether it is still live or not
      refine Handoff.Reaches.one (.check s.svc.hasRequestCb) ?_
      obtain ⟨a, hc | ⟨hc, -⟩⟩ := in_grip h (.inl hpc) <;> cases hst : a.cliThreadStatus <;> cases hcb : s.svc.hasRequestCb <;>
        simp [stepThread, Handoff.step, St.abs, Handoff.view, Pc.abs, hpc, hc, readyForUser, hst, hcb, St.touch, Cell.map,
          Cell.isLive, Cell.val?, SvcCli.stage, CliThreadStatus.stage]
    all_goals exact sim_none (by simp [stepThread, hpc])
  | call =>
    cases hpc : s.pc
    case checked c =>
      refine Handoff.Reaches.one .call ?_
      obtain ⟨a, hc | ⟨hc, -⟩⟩ := in_grip h (.inr (.inl hpc)) <;>
        simp [stepThread, Handoff.step, St.abs, Handoff.view, Pc.abs, hpc, userCall, hc, St.touch, Cell.val?]
    all_goals exact sim_none (by simp [stepThread, hpc])
  | ret output =>
    cases hpc : s.pc
    case calling c =>
      -- the context is touched when the user sets its response string
      refine Handoff.Reaches.one (.ret output.isSome) ?_
      have hstage := storeOutput_stage c output s.svc
      cases output <;>
        simpa [stepThread, Handoff.step, St.abs, Handoff.view, Pc.abs, hpc, St.touch, storeOutput_slot] using hstage
    all_goals exact sim_none (by simp [stepThread, hpc])
  | settle =>
    cases hpc : s.pc
    case returned c =>
      refine Handoff.Reaches.one .settle ?_
      simp [stepThread, Handoff.step, St.abs, Handoff.view, Pc.abs, hpc, St.touch, Cell.map_update, settled_stage]
    all_goals exact sim_none (by simp [stepThread, hpc])
  | clear =>
    cases hpc : s.pc
    case settled =>
      refine Handoff.Reaches.one .clear ?_
      simp [stepThread, Handoff.step, St.abs, Handoff.view, Pc.abs, hpc]
    all_goals exact sim_none (by simp [stepThread, hpc])

/-- **Simulation.** Every step is a few hand-off steps, or none. -/
theorem step_sim {s : St} (hf : Fresh s.svc) (h : Handoff.Grip s.abs) (o : Op) : Sim (SparesQueued s o) s (step s o) := by
  cases o with
  | request r contextOk ok => exact request_sim r contextOk ok hf
  | reply r ok => exact reply_sim r ok s
  | status r => exact status_sim r s
  | wake | check | call | ret | settle | clear => exact thread_sim h _

/-! ## Blocks -/

theorem request_fresh (r : RequestReq) (contextOk ok : Bool) {s : St} (hf : Fresh s.svc) :
    Fresh (stepRequest r contextOk ok s).svc := by
  rcases hbuf : r.buffer with _ | (_ | ⟨b, bytes⟩)
  · simpa only [stepRequest, processCliRequest, hbuf] using hf
  · simpa only [stepRequest, processCliRequest, hbuf] using hf
  rcases hctx : requestContext r contextOk s.svc with ⟨t, _ | ⟨c, a⟩⟩
  · simp only [stepRequest, processCliRequest, hbuf, hctx]
    rwa [requestContext_none hctx]
  obtain ⟨heap, slot, a', status, released, hk, he, -⟩ := requestInContext_cases c a (b :: bytes) r.moreData ok t
  simp only [stepRequest, processCliRequest, hbuf, hctx, he]
  obtain ⟨rfl, a₀, hc, -⟩ | ⟨rfl, -, heap₀, hk₀, hlt, rfl⟩ := requestContext_cases hctx
  · exact hf.put hc hk.1 rfl
  · exact hf.update (hk₀.trans hk).1 rfl fun h => absurd (hlt.trans_le hk.1) (not_lt.2 h)

theorem thread_fresh {s : St} (hf : Fresh s.svc) (o : Op) : Fresh (stepThread s o).svc := by
  cases o with
  | request | reply | status => exact hf
  | wake | check | call | clear =>
    unfold stepThread
    dsimp only
    split
    all_goals first | exact hf | (split <;> exact hf)
  | ret output =>
    unfold stepThread
    dsimp only
    split
    · rename_i c _
      have hk := (keeps_storeOutput c output s.svc).1
      cases output with
      | none => exact hf
      | some text => exact hf.map hk rfl
    · exact hf
  | settle =>
    unfold stepThread
    dsimp only
    split
    · exact hf.map le_rfl rfl
    · exact hf

theorem step_fresh {s : St} (hf : Fresh s.svc) (o : Op) : Fresh (step s o).svc := by
  cases o with
  | request r contextOk ok => exact request_fresh r contextOk ok hf
  | reply r ok =>
    obtain he | ⟨c, a, a', heap, hc, hk, -, he⟩ := reply_cases r ok s.svc
    · simpa only [step, he] using hf
    · simp only [step, he]
      exact hf.put hc hk.1 rfl
  | status r =>
    obtain he | ⟨c, a, a', heap, hu, -, hk, he⟩ := status_cases r s.svc
    · simpa only [step, he] using hf
    · simp only [step, he]
      exact hf.put (session_some hu).2 hk.1 rfl
  | wake | check | call | ret | settle | clear => exact thread_fresh hf _

/-! ## Whatever is cancelled -/

/-- what the thread has in its hand is queued or released, whatever is cancelled -/
theorem step_grip {s : St} (hf : Fresh s.svc) (h : Handoff.Grip s.abs) (o : Op) : Handoff.Grip (step s o).abs :=
  (step_sim hf h o).grip h

theorem abs_init {s : St} (h : Init s) : Handoff.Init s.abs :=
  Handoff.init_view h.ctx h.slot h.lock (by simp [h.pc, Pc.abs]) h.history.2 (by simp [h.history.1])

/-- a session that the user is called for is queued -/
theorem queued_of_grip {s : St} (h : Handoff.Grip s.abs) {c : ℕ} (hpc : s.pc = .calling c) {a : SvcCli}
    (hc : s.svc.ctx c = .live a) : a.cliThreadStatus = .requestCbQueued := by
  obtain ⟨b, hb | ⟨hb, hst⟩⟩ := in_grip h (.inr (.inr (.inl hpc)))
  · cases hb.symm.trans hc
  · cases hb.symm.trans hc
    exact stage_queued.1 hst

/-! ## The invariant -/

structure Inv (s : St) : Prop where
  fresh : Fresh s.svc
  handoff : Handoff.Inv s.abs

/-- **Step.** -/
theorem step_inv (s : St) (o : Op) (h : Inv s) (hC : SparesQueued s o) : Inv (step s o) :=
  ⟨step_fresh h.fresh o, (step_sim h.fresh h.handoff.grip o).inv hC h.handoff⟩

theorem inv_init {s : St} (h : Init s) : Inv s := ⟨fun c _ => h.ctx c, Handoff.inv_init (abs_init h)⟩

/-- **Runs.** Whatever the interleaving, if status callbacks spare queued sessions the hand-off is sound. -/
theorem run_inv {s : St} (h : Init s) {ops : List Op} (hC : Along step SparesQueued s ops) : Inv (run step s ops) :=
  Runs.run_inv step_inv (inv_init h) hC

end CcApi.Cli
