/-
The blocks of the receive sessions and of the SM CLI sessions, from their first callback to the end of the status callback.

- `Ownership.blocks_released_iff`: for both services, in any order of steps, the status callback leaves everything of the
  library's released once, and the user's response offered once and kept, exactly where the session has ended in order.
- `Ownership.request_leaks`: a session that is cancelled between two segments keeps its request for ever.
- `Ownership.response_lost`: a response of no bytes is replaced by a message, and the user does not get it back.
-/
import CcApi.Receive.Ownership
import CcApi.Cli.Ownership

namespace CcApi

open Lib Lib.Runs

namespace Receive.Books

/-- after `ccxapi_start`, the accept and the status callback registered -/
def fresh : Books := { talk := ⟨.fresh true (some 0) (some 0) [], fun _ => Said.nothing⟩, collected := fun _ => false }

theorem init_fresh : fresh.Init :=
  ⟨⟨Receive.init_fresh _ _ _ _, fun _ => rfl⟩, fun _ => rfl, nofun, List.nodup_nil⟩

/-- what the status callback r leaves of session c, in the state b of the run of ops from b₀ -/
def ReleasedBy (b₀ : Books) (ops : List Op) (r : StatusReq) (c : ℕ) (a : SvcReceive) : Prop :=
  let b := run step b₀ ops
  let (svc, _, call) := processDeviceRequestStatus r b.talk.st.svc
  b.Released c a svc.heap.frees (offered c b₀ ops ++ call.toList)

end Receive.Books

namespace Cli.Books

def fresh : Books := { talk := ⟨.fresh true, fun _ => Said.nothing⟩, collected := fun _ => false }

theorem init_fresh : fresh.Init :=
  ⟨⟨Cli.init_fresh _, fun _ => rfl⟩, fun _ => rfl, nofun, List.nodup_nil⟩

/-- what the status callback r leaves of session c, after the run of ops from b₀ -/
def ReleasedBy (b₀ : Books) (ops : List Op) (r : StatusReq) (c : ℕ) (a : SvcCli) : Prop :=
  let b := run step b₀ ops
  let (svc, _, call) := processCliStatus r b.talk.st.svc
  b.Released c a svc.heap.frees (offered c b₀ ops ++ call.toList)

end Cli.Books

namespace Ownership

/-- **Ownership.** Whatever is cancelled and whatever fails, for any number of sessions of both services. -/
theorem blocks_released_iff {r : Receive.Books} {k : Cli.Books} (hr : r.Init) (hk : k.Init) {rs : List Receive.Op}
    {ks : List Cli.Op} (hrs : Along Receive.Books.step Receive.Books.Legal r rs) (hks : Along Cli.Books.step Cli.Books.Legal k ks) :
    (∀ q c a, (run Receive.Books.step r rs).talk.st.svc.session q.userContext = some (c, a) →
      (Receive.processDeviceRequestStatus q (run Receive.Books.step r rs).talk.st.svc).2.1 = .cont →
      (r.ReleasedBy rs q c a ↔ (run Receive.Books.step r rs).Orderly c a)) ∧
    ∀ q c a, (run Cli.Books.step k ks).talk.st.svc.session q.userContext = some (c, a) →
      (k.ReleasedBy ks q c a ↔ (run Cli.Books.step k ks).Orderly c a) := by
  have hir := Receive.Books.inv_init hr
  have hik := Cli.Books.inv_init hk
  refine ⟨fun q c a hs hends => ?_, fun q c a hs => ?_⟩
  · have hnone := Receive.Books.offered_live hir hrs (Receive.session_some hs).2
    simp only [Receive.Books.ReleasedBy, hnone, List.nil_append]
    exact (Receive.Books.run_inv hir hrs).released_iff hs hends
  · have hnone := Cli.Books.offered_live hik hks (Cli.session_some hs).2
    simp only [Cli.Books.ReleasedBy, hnone, List.nil_append]
    exact (Cli.Books.run_inv hik hks).released_iff hs

/-- a request of two segments of each service, up to the last reply; the user answers with three bytes, and with two -/
def served : List Receive.Op × List Cli.Op :=
  ([.target ⟨some [97], .tcp, true, none⟩ ⟨true, true, true⟩, .data ⟨some 0, [1, 2], true⟩ true, .data ⟨some 0, [3], false⟩ true,
      .data ⟨some 0, [3], false⟩ true, .wake, .check, .call, .ret .none (some [7, 8, 9]), .settle, .clear,
      .data ⟨some 0, [3], false⟩ true, .reply ⟨some 0, 2⟩ true, .reply ⟨some 0, 2⟩ true],
    [.request ⟨.udp, none, some [104, 105], true, true⟩ true true, .request ⟨.udp, some 0, some [0], true, false⟩ true true,
      .request ⟨.udp, some 0, some [0], true, false⟩ true true, .wake, .check, .call, .ret (some [111, 107]), .settle, .clear,
      .request ⟨.udp, some 0, some [0], true, false⟩ true true, .reply ⟨some 0, 100⟩ true])

theorem blocks_released_served :
    (∃ a, (run Receive.Books.step .fresh served.1).talk.st.svc.session (some 0) = some (0, a) ∧
      Receive.Books.fresh.ReleasedBy served.1 ⟨some 0, .complete⟩ 0 a) ∧
    ∃ a, (run Cli.Books.step .fresh served.2).talk.st.svc.session (some 0) = some (0, a) ∧
      Cli.Books.fresh.ReleasedBy served.2 ⟨some 0, .success⟩ 0 a := by
  obtain ⟨hreceive, hcli⟩ := blocks_released_iff Receive.Books.init_fresh Cli.Books.init_fresh
    (show Along Receive.Books.step Receive.Books.Legal .fresh served.1 by decide)
    (show Along Cli.Books.step Cli.Books.Legal .fresh served.2 by decide)
  refine ⟨⟨_, rfl, (hreceive ⟨some 0, .complete⟩ 0 _ rfl (by decide)).2 ⟨.inr ?_, fun _ => ?_⟩⟩,
    _, rfl, (hcli ⟨some 0, .success⟩ 0 _ rfl).2 ⟨.inr ?_, fun _ => ?_⟩⟩ <;> decide

/-- a session of each service is cancelled when its first segment has been stored -/
theorem request_leaks :
    let rs := [Receive.Op.target ⟨some [97], .tcp, true, none⟩ ⟨true, true, true⟩, .data ⟨some 0, [1, 2], true⟩ true]
    let ks := [Cli.Op.request ⟨.udp, none, some [104, 105], true, true⟩ true true]
    (Along Receive.Books.step Receive.Books.Legal .fresh rs ∧
      ∃ a, (run Receive.Books.step .fresh rs).talk.st.svc.session (some 0) = some (0, a) ∧ a.requestBuffer = some 2 ∧
        ¬ Receive.Books.fresh.ReleasedBy rs ⟨some 0, .cancel⟩ 0 a) ∧
    Along Cli.Books.step Cli.Books.Legal .fresh ks ∧
      ∃ a, (run Cli.Books.step .fresh ks).talk.st.svc.session (some 0) = some (0, a) ∧ a.requestString = some 1 ∧
        ¬ Cli.Books.fresh.ReleasedBy ks ⟨some 0, .cancel⟩ 0 a := by
  intro rs ks
  refine ⟨⟨by decide, _, rfl, rfl, fun h => ?_⟩, by decide, _, rfl, rfl, fun h => ?_⟩
  · exact absurd (h.request 2 rfl) (by decide)
  · exact absurd (h.request 1 rfl) (by decide)

/-- a response of no bytes to a session that the user has given an error: the reply replaces it -/
theorem response_lost :
    let rs := served.1.take 7 ++ [.ret .custom (some []), .settle, .clear, .data ⟨some 0, [3], false⟩ true, .reply ⟨some 0, 100⟩ true]
    Along Receive.Books.step Receive.Books.Legal .fresh rs ∧
      ∃ a, (run Receive.Books.step .fresh rs).talk.st.svc.session (some 0) = some (0, a) ∧
        ((run Receive.Books.step .fresh rs).talk.said 0).left ≠ none ∧
        ¬ Receive.Books.fresh.ReleasedBy rs ⟨some 0, .complete⟩ 0 a := by
  intro rs
  refine ⟨by decide, _, rfl, by decide, fun h => ?_⟩
  exact absurd (h.users _ rfl).1 (by decide)

end Ownership

end CcApi
