/-
The data of a send, piece by piece (`ccapi_process_send_data_request`, `ccapi_process_send_data_length`, `setup_send_data`).

The connector asks for up to so many bytes at a time. The handler copies them from `next_data`, which moves along the caller's
buffer, and counts `bytes_remaining` down; `more_data` says whether bytes remain. The connector may ask for the length of what
remains at any point.

- `Cursor`: `next_data` and `bytes_remaining` agree with what has been handed out.
- `step_aligned`: a step of the calling thread or a callback keeps them in agreement.
- `streamed`: what is handed out is a beginning of the buffer, the whole of it where no more data is announced, and every
  length is that of the rest.

A callback that finds its record freed copies nothing here; when that happens is in `Send.Lifetime`.
-/
import CcApi.Lib.Drain
import CcApi.Send.Lifetime

namespace CcApi.Send

open Lib Lib.Runs Lib.Drain

/-! ## The callbacks' results -/

/-- `svc_send`, the `user_context` of the callbacks -/
def Transaction.svcSend (t : Transaction) : Option SvcSend :=
  match t.context with
  | .live (.send c) => some c
  | _ => none

/-- the connector has the action -/
def Transaction.serves (t : Transaction) (s : Service) : Prop := t.action = .accepted ∧ t.call.service = s

instance (t : Transaction) (s : Service) : Decidable (t.serves s) := inferInstanceAs (Decidable (_ ∧ _))

/-- `bytes_expected_to_read` -/
def SvcSend.bytesExpected (avail : ℕ) (c : SvcSend) : ℕ := if c.bytesRemaining < avail then c.bytesRemaining else avail

/-- what `ccapi_process_send_data_request` copies of the caller's data, and `more_data` -/
def SvcSend.piece (data : Str) (avail : ℕ) (read : Read) (c : SvcSend) : Option (Piece UInt8) :=
  match processSendDataRequest avail read c with
  | (.cont, some (used, more), _) => some ⟨(data.drop c.nextData).take used, more⟩
  | _ => none

/-- what a callback for a send of data hands out -/
def Transaction.piece (t : Transaction) : Op → Option (Piece UInt8)
  | .callback (.sendDataRequest avail read) =>
    if t.serves .data then t.svcSend.bind fun c => c.piece (t.call.data.getD []) avail read else none
  | _ => none

/-- `total_bytes` of a length callback -/
def Transaction.totalBytes (t : Transaction) : Option ℕ :=
  if t.serves .data then t.svcSend.map SvcSend.bytesRemaining else none

/-- a send and the pieces its callbacks have handed out -/
structure Sending where
  txn : Transaction
  given : List (Piece UInt8)

def Sending.step (s : Sending) (o : Op) : Sending := ⟨s.txn.step o, s.given ++ (s.txn.piece o).toList⟩

def Sending.begin (call : Call) : Sending := ⟨Transaction.begin call, []⟩

/-- a buffer on its way to the connector -/
structure Exact (data : Str) (s : Sending) : Prop where
  streams : Streams data s.given
  /-- where no more data is announced, all of it has been handed out -/
  complete : ∀ before p behind, s.given = before ++ p :: behind → p.more = false → handed (before ++ [p]) = data
  /-- a length callback reports what has not been handed out -/
  length : ∀ n, s.txn.totalBytes = some n → n = data.length - (handed s.given).length
  /-- the next copy stays inside the buffer, and the count does not fall below zero -/
  inside : ∀ c, s.txn.serves .data → s.txn.svcSend = some c → ∀ avail,
    c.nextData + c.bytesExpected avail ≤ data.length ∧ c.bytesExpected avail ≤ c.bytesRemaining

/-! ## The cursor -/

/-- the record in agreement with what has been handed out of the buffer -/
structure Cursor (data : Str) (out : ℕ) (c : SvcSend) : Prop where
  memory : c.sendingFile = false
  next : c.nextData = out
  remaining : c.nextData + c.bytesRemaining = data.length

/-- the calling thread has set the record of a send of data up, or gone past that -/
def Stage.ready : Stage → Bool
  | .checkargs | .malloc | .lockCreate | .fileStatus | .fileOpen => false
  | _ => true

/-- the calling thread has not set the record up, and will not if it is past that -/
def Stage.unset : Stage → Bool
  | .checkargs | .malloc | .lockCreate | .lockDestroy | .fileClose | .free | .collectionRelease | .returned => true
  | _ => false

/-- the record is set up, or the connector never gets it -/
structure Aligned (data : Str) (s : Sending) : Prop where
  call : s.txn.call.service = .data ∧ s.txn.call.data = some data
  streams : Streams data s.given
  cursor : (s.txn.stage.ready = true ∧ ∀ c, s.txn.svcSend = some c → Cursor data (handed s.given).length c) ∨
    (s.txn.stage.unset = true ∧ s.txn.action = .none ∧ s.given = [])

theorem begin_aligned {call : Call} {data : Str} (h : call.service = .data ∧ call.data = some data) :
    Aligned data (Sending.begin call) :=
  ⟨h, streams_nil data, .inr ⟨rfl, rfl, rfl⟩⟩

/-! ### The calling thread -/

@[simp] theorem fail_call (e : TxError) (t : Transaction) : (t.fail e).call = t.call := rfl

@[simp] theorem initiated_call (s : ConnectorStatus) (t : Transaction) : (t.initiated s).call = t.call := by
  cases s <;> rfl

@[simp] theorem wake_call (a : Answer) (t : Transaction) : (t.wake a).call = t.call := by
  unfold Transaction.wake
  repeat' split
  all_goals rfl

@[simp] theorem api_call (a : Answer) (t : Transaction) : (t.api a).call = t.call := by
  unfold Transaction.api
  repeat' split
  all_goals first | rfl | simp

/-- the call is the caller's to the end -/
theorem step_call (t : Transaction) (o : Op) : (t.step o).call = t.call := by
  cases o with
  | api a => exact api_call a t
  | callback c =>
    simp only [Transaction.step, Transaction.callback]
    split <;> rfl
  | statusRelease r =>
    simp only [Transaction.step, Transaction.statusRelease]
    split <;> rfl

@[simp] theorem initiated_action (c : ConnectorStatus) (t : Transaction) : (t.initiated c).action = t.action := by
  cases c <;> rfl

@[simp] theorem wake_action (a : Answer) (t : Transaction) : (t.wake a).action = t.action := by
  unfold Transaction.wake
  repeat' split
  all_goals rfl

/-- only its initiation gives the action to the connector -/
theorem api_action (a : Answer) {t : Transaction} (hi : t.stage ≠ .initiate) : (t.api a).action = t.action := by
  unfold Transaction.api
  cases hs : t.stage with
  | initiate => exact absurd hs hi
  | _ =>
    dsimp only
    repeat' split
    all_goals simp [Transaction.fail]

theorem initiated_ready (s : ConnectorStatus) (t : Transaction) :
    (t.initiated s).stage.ready = true ∧ (t.initiated s).context = t.context := by
  cases s <;> exact ⟨rfl, rfl⟩

theorem wake_ready (a : Answer) {t : Transaction} (h : t.stage.ready = true) :
    (t.wake a).stage.ready = true ∧ (t.wake a).context = t.context := by
  unfold Transaction.wake
  repeat' split
  all_goals first | exact ⟨rfl, rfl⟩ | exact ⟨h, rfl⟩

/-- behind the set-up the calling thread leaves the record alone until it frees it -/
theorem api_ready (a : Answer) {t : Transaction} (h : t.stage.ready = true) :
    (t.api a).stage.ready = true ∧ ∀ c, (t.api a).svcSend = some c → t.svcSend = some c := by
  have hsame {t' : Transaction} (hs : t'.stage.ready = true ∧ t'.context = t.context) :
      t'.stage.ready = true ∧ ∀ c, t'.svcSend = some c → t.svcSend = some c :=
    ⟨hs.1, fun c hc => by rwa [Transaction.svcSend, hs.2] at hc⟩
  unfold Transaction.api
  cases hs : t.stage with
  | checkargs | malloc | lockCreate | fileStatus | fileOpen => simp [hs, Stage.ready] at h
  | collectionAcquire =>
    dsimp only
    split <;> exact hsame ⟨rfl, rfl⟩
  | initiateAcquire =>
    dsimp only
    split
    · exact hsame ⟨rfl, rfl⟩
    · exact hsame (initiated_ready _ t)
  | initiate => exact hsame ⟨rfl, rfl⟩
  | initiateRelease st =>
    dsimp only
    split <;> exact hsame (initiated_ready _ t)
  | wait => exact hsame (wake_ready a h)
  | lockDestroy | fileClose | collectionRelease => exact hsame ⟨rfl, rfl⟩
  | returned => exact hsame ⟨h, rfl⟩
  | free =>
    refine ⟨rfl, fun c hc => ?_⟩
    dsimp only [Transaction.svcSend] at hc ⊢
    split_ifs at hc with hlive
    exact hc

/-- in front of the set-up the connector has nothing, and the set-up aligns the record -/
theorem api_unset (a : Answer) {t : Transaction} {data : Str} (hcall : t.call.service = .data ∧ t.call.data = some data)
    (h : t.stage.unset = true) (hnone : t.action = .none) :
    ((t.api a).stage.ready = true ∧ ∀ c, (t.api a).svcSend = some c → Cursor data 0 c) ∨
      ((t.api a).stage.unset = true ∧ (t.api a).action = .none) := by
  unfold Transaction.api
  cases hs : t.stage with
  | fileStatus | fileOpen | collectionAcquire | initiateAcquire | initiate | initiateRelease | wait => simp [hs, Stage.unset] at h
  | checkargs =>
    dsimp only
    split <;> exact .inr ⟨rfl, hnone⟩
  | malloc =>
    dsimp only
    split <;> exact .inr ⟨rfl, hnone⟩
  | lockCreate =>
    dsimp only
    split
    · refine .inl ⟨by simp [hcall.1, Transaction.setupStage, Stage.ready], fun c hc => ?_⟩
      simp only [Transaction.svcSend] at hc
      split at hc
      · rename_i c' heq
        obtain rfl : c' = c := by simpa using hc
        cases hctx : t.context with
        | live b =>
          rw [hctx] at heq
          cases b with
          | send b =>
            simp only [Block.update, Context.locked, hcall.1, hcall.2, if_true, Option.getD_some, Block.live.injEq,
              Context.send.injEq] at heq
            subst heq
            exact ⟨rfl, rfl, by simp⟩
          | ping b => cases heq
          | dataPoints b => cases heq
        | unallocated => rw [hctx] at heq; cases heq
        | freed => rw [hctx] at heq; cases heq
      · cases hc
    · exact .inr ⟨rfl, hnone⟩
  | lockDestroy | fileClose | free | collectionRelease => exact .inr ⟨rfl, hnone⟩
  | returned => exact .inr ⟨by rw [hs]; rfl, hnone⟩

theorem api_aligned {data : Str} {s : Sending} (h : Aligned data s) (a : Answer) : Aligned data (s.step (.api a)) := by
  have hgiven : (s.step (.api a)).given = s.given := by simp [Sending.step, Transaction.piece]
  have hcall : (s.txn.api a).call.service = .data ∧ (s.txn.api a).call.data = some data := by
    rw [api_call]
    exact h.call
  refine ⟨hcall, hgiven ▸ h.streams, ?_⟩
  rw [hgiven]
  rcases h.cursor with ⟨hready, hcursor⟩ | ⟨hunset, hnone, hempty⟩
  · obtain ⟨hready', hsame⟩ := api_ready a hready
    exact .inl ⟨hready', fun c hc => hcursor c (hsame c hc)⟩
  · rcases api_unset a h.call hunset hnone with ⟨hready, hcursor⟩ | ⟨hunset', hnone'⟩
    · exact .inl ⟨hready, fun c hc => by simpa [hempty] using hcursor c hc⟩
    · exact .inr ⟨hunset', hnone', hempty⟩

/-! ### The callbacks -/

theorem processSendDataRequest_eq (avail : ℕ) (read : Read) (c : SvcSend) :
    processSendDataRequest avail read c =
      if c.sendingFile ∧ read.result ≠ .ok then (.error, none, { c with requestError := .accessingFile })
      else
        (.cont, some (c.bytesExpected avail, decide (0 < sizeSub c.bytesRemaining (c.bytesExpected avail))),
          { c with nextData := if c.sendingFile then c.nextData else c.nextData + c.bytesExpected avail
                   bytesRemaining := sizeSub c.bytesRemaining (c.bytesExpected avail) }) := rfl

theorem bytesExpected_le (avail : ℕ) (c : SvcSend) : c.bytesExpected avail ≤ c.bytesRemaining := by
  unfold SvcSend.bytesExpected
  split <;> omega

/-- one data callback, the record in agreement with what has been handed out -/
theorem Cursor.request {data : Str} {out : ℕ} {c : SvcSend} (h : Cursor data out c) (hlen : data.length < 2 ^ 64)
    (avail : ℕ) (read : Read) :
    processSendDataRequest avail read c =
      (.cont, some (c.bytesExpected avail, decide (out + c.bytesExpected avail < data.length)),
        { c with nextData := out + c.bytesExpected avail, bytesRemaining := c.bytesRemaining - c.bytesExpected avail }) := by
  have hle := bytesExpected_le avail c
  have hremaining := h.remaining
  have hnext := h.next
  have hsub : sizeSub c.bytesRemaining (c.bytesExpected avail) = c.bytesRemaining - c.bytesExpected avail :=
    sizeSub_eq hle (by omega)
  have hmore : decide (0 < c.bytesRemaining - c.bytesExpected avail) = decide (out + c.bytesExpected avail < data.length) :=
    decide_eq_decide.2 (by omega)
  rw [processSendDataRequest_eq, if_neg (by simp [h.memory]), hsub, hmore]
  simp [h.memory, hnext]

theorem Cursor.advance {data : Str} {out : ℕ} {c : SvcSend} (h : Cursor data out c) (avail : ℕ) :
    Cursor data (out + c.bytesExpected avail)
      { c with nextData := out + c.bytesExpected avail, bytesRemaining := c.bytesRemaining - c.bytesExpected avail } := by
  have hle := bytesExpected_le avail c
  have hremaining := h.remaining
  have hnext := h.next
  exact ⟨h.memory, rfl, by dsimp only; omega⟩

/-- the callbacks but the data callback leave the cursor alone -/
theorem Cursor.other {data : Str} {out : ℕ} {c c' : SvcSend} (h : Cursor data out c) {call : Callback}
    (hne : ∀ avail read, call ≠ .sendDataRequest avail read) (hc : call.apply (.send c) = .send c') : Cursor data out c' := by
  cases call with
  | sendDataRequest avail read => exact absurd rfl (hne avail read)
  | sendDataResponse r hint | sendDataStatus s =>
    obtain rfl := Context.send.inj hc
    exact ⟨h.memory, h.next, h.remaining⟩
  | sendDataLength | pingResponse | dataPointResponse | dataPointStatus =>
    obtain rfl := Context.send.inj hc
    exact h

theorem svcSend_eq_some {t : Transaction} {c : SvcSend} : t.svcSend = some c ↔ t.context = .live (.send c) := by
  unfold Transaction.svcSend
  split
  · rename_i c' hctx
    simp [hctx]
  · rename_i hne
    exact ⟨nofun, fun h => (hne c h).elim⟩

/-- a callback leaves a record what kind of record it is -/
theorem apply_send {call : Callback} {b : Context} {c' : SvcSend} (h : call.apply b = .send c') : ∃ c, b = .send c := by
  cases b with
  | send c => exact ⟨c, rfl⟩
  | ping c => cases call <;> cases h
  | dataPoints c => cases call <;> cases h

theorem update_send {f : Context → Context} {b : Block} {c' : SvcSend} (h : b.update f = .live (.send c')) :
    ∃ x, b = .live x ∧ f x = .send c' := by
  cases b with
  | live x => exact ⟨x, rfl, Block.live.inj h⟩
  | unallocated | freed => cases h

theorem callback_eq {t : Transaction} {call : Callback} (h : t.action = .accepted ∧ call.concerns t.call.service) :
    t.callback call =
      { t with
        context := t.context.update call.apply
        action := if call.final then .finishing else .accepted
        hint := call.hint t.hint
        faulted := t.faulted || !t.context.isLive } := if_pos h

theorem callback_svcSend {t : Transaction} {call : Callback} (h : t.action = .accepted ∧ call.concerns t.call.service)
    {c' : SvcSend} (hc' : (t.callback call).svcSend = some c') :
    ∃ c, t.svcSend = some c ∧ call.apply (.send c) = .send c' := by
  rw [callback_eq h, svcSend_eq_some] at hc'
  obtain ⟨x, hx, happly⟩ := update_send hc'
  obtain ⟨c, rfl⟩ := apply_send happly
  exact ⟨c, svcSend_eq_some.2 hx, happly⟩

theorem Sending.step_quiet {s : Sending} {o : Op} (h : s.txn.piece o = none) : s.step o = ⟨s.txn.step o, s.given⟩ := by
  simp [Sending.step, h]

/-- the piece of a data callback -/
theorem Cursor.piece {data : Str} {s : Sending} {c : SvcSend} (h : Cursor data (handed s.given).length c)
    (hlen : data.length < 2 ^ 64) (hcall : s.txn.call.data = some data) (hserves : s.txn.serves .data)
    (hc : s.txn.svcSend = some c) (avail : ℕ) (read : Read) :
    s.txn.piece (.callback (.sendDataRequest avail read)) =
      some ⟨(data.drop (handed s.given).length).take (c.bytesExpected avail),
        decide ((handed s.given).length + c.bytesExpected avail < data.length)⟩ := by
  simp [Transaction.piece, hserves, hc, hcall, SvcSend.piece, h.request hlen, h.next]

/-- a data callback while the record is there: the next piece of the buffer, and the cursor behind it -/
theorem request_aligned {data : Str} {s : Sending} (h : Aligned data s) (hlen : data.length < 2 ^ 64)
    (hserves : s.txn.serves .data) (hready : s.txn.stage.ready = true) {c : SvcSend} (hsend : s.txn.svcSend = some c)
    (hcur : Cursor data (handed s.given).length c) (avail : ℕ) (read : Read) :
    Aligned data (s.step (.callback (.sendDataRequest avail read))) := by
  have hc : s.txn.action = .accepted ∧ (Callback.sendDataRequest avail read).concerns s.txn.call.service = true :=
    ⟨hserves.1, by simp [Callback.concerns, hserves.2]⟩
  have hle := bytesExpected_le avail c
  have hremaining := hcur.remaining
  have hnext := hcur.next
  have hfits : (handed s.given).length + c.bytesExpected avail ≤ data.length := by omega
  have hpiece := hcur.piece hlen h.call.2 hserves hsend avail read
  set p : Piece UInt8 := ⟨(data.drop (handed s.given).length).take (c.bytesExpected avail),
    decide ((handed s.given).length + c.bytesExpected avail < data.length)⟩ with hp
  have hout : (handed (s.given ++ [p])).length = (handed s.given).length + c.bytesExpected avail := by
    rw [handed_append, handed_singleton, List.length_append, hp, List.length_take, List.length_drop]
    omega
  have hstep : s.step (.callback (.sendDataRequest avail read)) =
      ⟨s.txn.callback (.sendDataRequest avail read), s.given ++ [p]⟩ := by
    simp [Sending.step, hpiece, Transaction.step]
  rw [hstep]
  refine ⟨?_, h.streams.give hfits (by simp), .inl ⟨?_, fun c' hc' => ?_⟩⟩
  · dsimp only
    rw [callback_eq hc]
    exact h.call
  · dsimp only
    rw [callback_eq hc]
    exact hready
  · obtain ⟨c₀, hc₀, happly⟩ := callback_svcSend hc hc'
    obtain rfl : c = c₀ := Option.some.inj (hsend.symm.trans hc₀)
    obtain rfl := Context.send.inj happly
    dsimp only
    rw [hout, hcur.request hlen]
    exact hcur.advance avail

/-- any other callback, or one that finds the record freed, hands nothing out -/
theorem quiet_aligned {data : Str} {s : Sending} (h : Aligned data s) {call : Callback}
    (hc : s.txn.action = .accepted ∧ call.concerns s.txn.call.service = true)
    (hquiet : s.txn.piece (.callback call) = none)
    (hother : s.txn.svcSend = none ∨ ∀ avail read, call ≠ .sendDataRequest avail read) :
    Aligned data (s.step (.callback call)) := by
  obtain ⟨hready, hcursor⟩ := h.cursor.resolve_right fun hnone => absurd (hnone.2.1.symm.trans hc.1) (by decide)
  rw [Sending.step_quiet hquiet]
  refine ⟨?_, h.streams, .inl ⟨?_, fun c' hc' => ?_⟩⟩
  · dsimp only [Transaction.step]
    rw [callback_eq hc]
    exact h.call
  · dsimp only [Transaction.step]
    rw [callback_eq hc]
    exact hready
  · obtain ⟨c, hsend, happly⟩ := callback_svcSend hc hc'
    rcases hother with hnone | hne
    · rw [hnone] at hsend
      cases hsend
    · exact (hcursor c hsend).other hne happly

theorem callback_aligned {data : Str} {s : Sending} (h : Aligned data s) (hlen : data.length < 2 ^ 64) (call : Callback) :
    Aligned data (s.step (.callback call)) := by
  by_cases hc : s.txn.action = .accepted ∧ call.concerns s.txn.call.service = true
  · by_cases hrequest : ∃ avail read, call = .sendDataRequest avail read
    · obtain ⟨avail, read, rfl⟩ := hrequest
      have hserves : s.txn.serves .data := ⟨hc.1, h.call.1⟩
      obtain ⟨hready, hcursor⟩ := h.cursor.resolve_right fun hnone => absurd (hnone.2.1.symm.trans hc.1) (by decide)
      cases hsend : s.txn.svcSend with
      | none => exact quiet_aligned h hc (by simp [Transaction.piece, hsend]) (.inl hsend)
      | some c => exact request_aligned h hlen hserves hready hsend (hcursor c hsend) avail read
    · have hne : ∀ avail read, call ≠ .sendDataRequest avail read := fun avail read heq => hrequest ⟨avail, read, heq⟩
      refine quiet_aligned h hc ?_ (.inr hne)
      cases call with
      | sendDataRequest avail read => exact absurd rfl (hne avail read)
      | _ => rfl
  · have hquiet : s.txn.piece (.callback call) = none := by
      cases call with
      | sendDataRequest avail read =>
        have hnot : ¬ s.txn.serves .data := fun hs => hc ⟨hs.1, by simp [Callback.concerns, hs.2]⟩
        simp [Transaction.piece, hnot]
      | _ => rfl
    rw [Sending.step_quiet hquiet, show s.txn.step (.callback call) = s.txn from if_neg hc]
    exact h

theorem statusRelease_aligned {data : Str} {s : Sending} (h : Aligned data s) (r : CcimpStatus) :
    Aligned data (s.step (.statusRelease r)) := by
  rw [Sending.step_quiet rfl]
  simp only [Transaction.step, Transaction.statusRelease]
  split_ifs with hfinishing hagain
  · exact ⟨h.call, h.streams, .inl (h.cursor.resolve_right fun hnone => by simp [hnone.2.1] at hfinishing)⟩
  · exact ⟨h.call, h.streams, .inl (h.cursor.resolve_right fun hnone => by simp [hnone.2.1] at hfinishing)⟩
  · exact h

/-- **One step.** -/
theorem step_aligned {data : Str} (hlen : data.length < 2 ^ 64) (s : Sending) (o : Op) (h : Aligned data s) :
    Aligned data (s.step o) := by
  cases o with
  | api a => exact api_aligned h a
  | callback call => exact callback_aligned h hlen call
  | statusRelease r => exact statusRelease_aligned h r

theorem Aligned.exact {data : Str} {s : Sending} (h : Aligned data s) : Exact data s := by
  have hcur {c : SvcSend} (hserves : s.txn.serves .data) (hc : s.txn.svcSend = some c) :
      Cursor data (handed s.given).length c := by
    obtain ⟨-, hcursor⟩ := h.cursor.resolve_right fun hnone => absurd (hnone.2.1.symm.trans hserves.1) (by decide)
    exact hcursor c hc
  refine ⟨h.streams, fun before p behind heq hp => ?_, fun n hn => ?_, fun c hserves hc avail => ?_⟩
  · exact (heq ▸ h.streams).complete hp
  · unfold Transaction.totalBytes at hn
    split_ifs at hn with hserves
    obtain ⟨c, hc, rfl⟩ := Option.map_eq_some_iff.1 hn
    have hremaining := (hcur hserves hc).remaining
    have hnext := (hcur hserves hc).next
    omega
  · have hremaining := (hcur hserves hc).remaining
    have hle := bytesExpected_le avail c
    exact ⟨by omega, hle⟩

/-! ## Main results -/

/-- **A buffer's way to the connector.** For every buffer given to a send of data, whatever the platform and the connector
answer and in whatever order the calling thread's steps and the callbacks come: the pieces handed out are the beginning of
the buffer, each with the news whether something is left; every length callback reports how much is left; and the next copy
stays inside the buffer. -/
theorem streamed (call : Call) (data : Str) (hcall : call.service = .data ∧ call.data = some data)
    (hlen : data.length < 2 ^ 64) (ops : List Op) : Exact data (run Sending.step (Sending.begin call) ops) :=
  (run_inv_all (step_aligned hlen) (begin_aligned hcall) ops).exact

/-- a buffer of three bytes that the connector takes in two callbacks, with a length callback between them -/
def threeBytes : List Op :=
  List.replicate 6 (.api granted) ++
    [.callback (.sendDataRequest 2 (readOf 0)), .callback .sendDataLength, .callback (.sendDataRequest 9 (readOf 0))]

example : (run Sending.step (Sending.begin { oneByte with data := some [1, 2, 3] }) threeBytes).given =
    [⟨[1, 2], true⟩, ⟨[3], false⟩] := by decide

theorem streamed_threeBytes : Exact [1, 2, 3] (run Sending.step (Sending.begin { oneByte with data := some [1, 2, 3] })
    threeBytes) :=
  streamed { oneByte with data := some [1, 2, 3] } [1, 2, 3] ⟨rfl, rfl⟩ (by decide) threeBytes

end CcApi.Send
