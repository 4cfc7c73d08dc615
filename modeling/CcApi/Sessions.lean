/-
Cancellation of receive and CLI sessions (`ccapi_data_handler.c`, `ccapi_sm_handler.c`).

The status callbacks free a session's context whatever the worker is doing with it. Both workers are safe as long as no
status callback is for a session that is queued for them; `queued` lasts until the worker has stored the status
processed.

- `Sessions.workers_safe`: in every run whose status callbacks spare queued sessions, for both services.
- `Sessions.cancelled_while_queued`: a cancellation between the hand-over and the user call breaks it, for both.
-/
import CcApi.Receive.Handoff
import CcApi.Cli.Handoff

namespace CcApi

open Lib Lib.Runs

/-- the thread has touched live contexts only, and called the user for live contexts only -/
def Receive.Safe (s : Receive.St) : Prop := (∀ t ∈ s.touches, t.2 = true) ∧ ∀ k ∈ s.calls, k.live = true

/-- the same of the CLI thread -/
def Cli.Safe (s : Cli.St) : Prop := (∀ t ∈ s.touches, t.2 = true) ∧ ∀ k ∈ s.calls, k.live = true

instance (s : Receive.St) : Decidable (Receive.Safe s) := inferInstanceAs (Decidable (_ ∧ _))

instance (s : Cli.St) : Decidable (Cli.Safe s) := inferInstanceAs (Decidable (_ ∧ _))

theorem Receive.Inv.safe {s : Receive.St} (h : Receive.Inv s) : Receive.Safe s := by
  refine ⟨h.handoff.touched, fun k hk => ?_⟩
  exact h.handoff.called (k.ctx, k.live) (List.mem_map_of_mem hk)

theorem Cli.Inv.safe {s : Cli.St} (h : Cli.Inv s) : Cli.Safe s := by
  refine ⟨h.handoff.touched, fun k hk => ?_⟩
  exact h.handoff.called (k.ctx, k.live) (List.mem_map_of_mem hk)

namespace Sessions

/-- **Memory safety.** For any number of sessions and any interleaving of the callbacks with the worker threads: if no
status callback is for a session that is queued, the workers touch no freed context and call the user for none. -/
theorem workers_safe {r : Receive.St} {c : Cli.St} (hr : Receive.Init r) (hc : Cli.Init c) {rs : List Receive.Op}
    {cs : List Cli.Op} (hrs : Along Receive.step Receive.SparesQueued r rs)
    (hcs : Along Cli.step Cli.SparesQueued c cs) :
    Receive.Safe (run Receive.step r rs) ∧ Cli.Safe (run Cli.step c cs) :=
  ⟨(Receive.run_inv hr hrs).safe, (Cli.run_inv hc hcs).safe⟩

/-! ## Runs -/

/-- the target callback of a new session -/
def opens : Receive.Op := .target ⟨some [97], .tcp, true, none⟩ ⟨true, true, true⟩

/-- a data callback for session c with the one segment there is -/
def feeds (c : ℕ) : Receive.Op := .data ⟨some c, [1, 2], false⟩ true

/-- the request callback of a CLI session with its one segment, first with no context -/
def asks (c : Option ℕ) : Cli.Op := .request ⟨.udp, c, some [104, 0], true, false⟩ true true

/-- two sessions of each service; the second one is cancelled while it is ready and the first one after it is answered -/
theorem safe_two_sessions :
    let r : List Receive.Op := [opens, opens, feeds 0, feeds 2, feeds 0, feeds 2, .status ⟨some 2, .cancel⟩, .wake, .check,
      .call, .ret .none (some [7]), .settle, feeds 0, .status ⟨some 0, .complete⟩, .clear]
    let c : List Cli.Op := [asks none, asks none, asks (some 0), .wake, .status ⟨some 2, .cancel⟩, .check, .call,
      .ret (some [111]), .settle, asks (some 0), .status ⟨some 0, .success⟩, .clear]
    (Receive.Safe (run Receive.step (.fresh false (some 0) none []) r) ∧ Cli.Safe (run Cli.step (.fresh true) c)) ∧
      (run Receive.step (.fresh false (some 0) none []) r).calls.length = 1 ∧
      (run Cli.step (.fresh true) c).calls.length = 1 := by
  refine ⟨workers_safe (Receive.init_fresh _ _ _ _) (Cli.init_fresh _) ?_ ?_, ?_, ?_⟩ <;> decide

/-- the session is cancelled after the worker has taken it and before the user is called -/
theorem cancelled_while_queued :
    ¬Receive.Safe (run Receive.step (.fresh false (some 0) none [])
      [opens, feeds 0, feeds 0, .wake, .check, .status ⟨some 0, .cancel⟩, .call]) ∧
    ¬Cli.Safe (run Cli.step (.fresh true)
      [asks none, asks (some 0), .wake, .check, .status ⟨some 0, .cancel⟩, .call]) := by
  constructor <;> decide

end Sessions

end CcApi
