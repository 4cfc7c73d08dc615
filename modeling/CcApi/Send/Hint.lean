/-
The cloud's hint to a collection (`send_collection`, the response of `ccapi_data_points_handler`).

An application sends collections one after another and passes the same `ccapi_string_info_t` to each. The handler takes the
record's length for the capacity of its string, copies the hint with `strncpy` and puts a NUL behind it, and leaves in the
length how long the cloud's hint was. The next send finds that number for the capacity.

- `hintWrites`: the bytes that the handler writes; `copyHint_get`: what they make of the string.
- `Recorded.shorter`: a hint that is shorter than the record says leaves a record of the same string.
- `hint_iff`: every reply is written inside the string, ends with a NUL and reports what it has stored, exactly when the
  cloud's hints get shorter and shorter, the first one shorter than the string.

Premise: the application makes its next send when the connector is done with the last one.
-/
import CcApi.Send.Lifetime

namespace CcApi.Send

open Lib Lib.Runs

/-! ## What the handler writes -/

/-- `strncpy` of n bytes of src and the NUL behind them: the byte written to place i, if any -/
def hintWrites (src : Str) (n i : ℕ) : Option UInt8 := if i < n then some (src.getD i 0) else if i = n then some 0 else none

/-- `strlen` of what a buffer holds -/
def strlen (buf : Str) : ℕ := (buf.takeWhile (· ≠ 0)).length

theorem copyHint_get (buf src : Str) (n i : ℕ) : (copyHint buf src n)[i]? = (hintWrites src n i).or buf[i]? := by
  have hlen : ((src ++ List.replicate (n - src.length) 0).take n).length = n := by simp; omega
  unfold copyHint hintWrites
  rw [List.append_assoc]
  by_cases hlt : i < n
  · rw [List.getElem?_append_left (by omega), if_pos hlt, List.getElem?_take_of_lt hlt]
    by_cases hsrc : i < src.length
    · simp [List.getElem?_append_left hsrc, hsrc]
    · have hpad : i - src.length < n - src.length := by omega
      rw [List.getElem?_append_right (by omega), List.getElem?_replicate, if_pos hpad]
      simp [List.getD_eq_getElem?_getD, List.getElem?_eq_none (by omega : src.length ≤ i)]
  · rw [List.getElem?_append_right (by omega), hlen, if_neg hlt]
    by_cases heq : i = n
    · simp [heq]
    · have hpos : 1 ≤ i - n := by omega
      rw [if_neg heq, List.getElem?_append_right (by simpa using hpos), List.getElem?_drop]
      simp only [List.length_singleton, Option.none_or]
      congr 1
      omega

/-- a copy inside the buffer leaves its size -/
theorem copyHint_length {buf src : Str} {n : ℕ} (h : n < buf.length) : (copyHint buf src n).length = buf.length := by
  simp only [copyHint, List.length_append, List.length_take, List.length_replicate, List.length_drop, List.length_singleton]
  omega

theorem strlen_append {s : Str} (h : 0 ∉ s) (rest : Str) : strlen (s ++ 0 :: rest) = s.length := by
  have hne : ∀ x ∈ s, decide (x ≠ 0) = true := fun x hx => by
    have : x ≠ 0 := fun h0 => h (h0 ▸ hx)
    simpa using this
  rw [strlen, List.takeWhile_append_of_pos hne]
  simp

/-- the copy is cut off behind n bytes, or ends where the hint does -/
theorem copyHint_cut (buf src : Str) (n : ℕ) : ∃ rest, copyHint buf src n = src.take n ++ 0 :: rest := by
  by_cases hle : src.length < n
  · obtain ⟨k, hk⟩ : ∃ k, n - src.length = k + 1 := ⟨n - src.length - 1, by omega⟩
    refine ⟨List.replicate k 0 ++ [0] ++ buf.drop (n + 1), ?_⟩
    have htake : (src ++ List.replicate (n - src.length) 0).take n = src ++ List.replicate (n - src.length) 0 :=
      List.take_of_length_le (by simp; omega)
    rw [copyHint, htake, hk, List.take_of_length_le hle.le]
    simp [List.replicate_succ]
  · refine ⟨buf.drop (n + 1), ?_⟩
    have hnone : n - src.length = 0 := by omega
    simp [copyHint, hnone]

theorem strlen_copyHint {buf src : Str} {n : ℕ} (hsrc : 0 ∉ src) : strlen (copyHint buf src n) = min n src.length := by
  obtain ⟨rest, hcut⟩ := copyHint_cut buf src n
  rw [hcut, strlen_append fun h => hsrc (List.mem_of_mem_take h), List.length_take]

/-! ## Sends with one record -/

inductive HintOp where
  /-- the next send -/
  | send (c : Call)
  /-- a step of the send under way, or a callback for it -/
  | op (o : Op)
deriving DecidableEq, Repr

def hintStep (t : Transaction) : HintOp → Transaction
  | .send c =>
    if t.stage = .returned ∧ t.action.owed = false then
      Transaction.begin { c with service := .dataPoints, hint := t.hint }
    else t
  | .op o => t.step o

/-- the first send, with a string of as many bytes as the record says -/
def firstSend (c : Call) (buf : Str) : Transaction :=
  Transaction.begin { c with service := .dataPoints, hint := some ⟨some buf, buf.length⟩ }

/-- the hint that the cloud's response brings -/
def Transaction.answered (t : Transaction) : HintOp → Option Str
  | .op (.callback (.dataPointResponse _ src)) => if t.action = .accepted ∧ t.call.service = .dataPoints then src else none
  | _ => none

/-- a reply is written inside a string of L bytes, which then holds a NUL, and the length is that of what is stored -/
structure Faithful (L : ℕ) (t t' : Transaction) (src : Str) : Prop where
  inside : ∀ h, t.hint = some h → ∀ i, hintWrites src (sizeSub h.length 1) i ≠ none → i < L
  stored : ∃ buf, t'.hint = some ⟨some buf, strlen buf⟩ ∧ 0 ∈ buf.take L

/-- the hints of a run, in order -/
def answers (t : Transaction) (ops : List HintOp) : List Str := (steps hintStep t ops).filterMap fun p => p.1.answered p.2

/-! ### One step -/

/-- what one send is to the record: its service, and the record itself -/
def Transaction.carries (t : Transaction) : Service × Option StringInfo := (t.call.service, t.hint)

@[simp] theorem fail_carries (e : TxError) (t : Transaction) : (t.fail e).carries = t.carries := rfl

@[simp] theorem initiated_carries (s : ConnectorStatus) (t : Transaction) : (t.initiated s).carries = t.carries := by
  cases s <;> rfl

@[simp] theorem wake_carries (a : Answer) (t : Transaction) : (t.wake a).carries = t.carries := by
  unfold Transaction.wake
  repeat' split
  all_goals rfl

theorem api_carries (a : Answer) (t : Transaction) : (t.api a).carries = t.carries := by
  unfold Transaction.api
  repeat' split
  all_goals first | rfl | simp

theorem statusRelease_carries (r : CcimpStatus) (t : Transaction) : (t.statusRelease r).carries = t.carries := by
  unfold Transaction.statusRelease
  split <;> rfl

/-- a send of a collection with a record for a string of L bytes that says it has room for c -/
structure Recorded (L c : ℕ) (t : Transaction) : Prop where
  record : ∃ buf, t.carries = (.dataPoints, some ⟨some buf, c⟩) ∧ buf.length = L
  room : c ≤ L

theorem firstSend_recorded (c : Call) (buf : Str) : Recorded buf.length buf.length (firstSend c buf) :=
  ⟨⟨buf, rfl, rfl⟩, le_rfl⟩

theorem Recorded.same {L c : ℕ} {t t' : Transaction} (h : Recorded L c t) (hsame : t'.carries = t.carries) :
    Recorded L c t' := by
  obtain ⟨buf, hbuf, hlen⟩ := h.record
  exact ⟨⟨buf, hsame.trans hbuf, hlen⟩, h.room⟩

/-- a step that brings no hint leaves the record alone -/
theorem Recorded.quiet {L c : ℕ} {t : Transaction} (h : Recorded L c t) {o : HintOp} (ho : t.answered o = none) :
    Recorded L c (hintStep t o) := by
  obtain ⟨buf, hbuf, hlen⟩ := h.record
  obtain ⟨hservice, hhint⟩ := Prod.mk.inj hbuf
  cases o with
  | send call =>
    simp only [hintStep]
    split_ifs
    · exact ⟨⟨buf, by simp [Transaction.begin, Transaction.carries, hhint], hlen⟩, h.room⟩
    · exact h
  | op o =>
    cases o with
    | api a => exact h.same (api_carries a t)
    | statusRelease r => exact h.same (statusRelease_carries r t)
    | callback call =>
      simp only [hintStep, Transaction.step, Transaction.callback]
      by_cases hc : t.action = .accepted ∧ call.concerns t.call.service = true
      · rw [if_pos hc]
        refine h.same ?_
        cases call with
        | dataPointResponse r src =>
          have hsrc : src = none := by simpa [Transaction.answered, hc.1, hservice] using ho
          subst hsrc
          rfl
        | _ => simp_all [Transaction.carries, Callback.concerns, Callback.hint]
      · rw [if_neg hc]
        exact h

/-- what a step that brings a hint leaves in the record -/
theorem answered_hint {L c : ℕ} {t : Transaction} (h : Recorded L c t) {o : HintOp} {src : Str}
    (ho : t.answered o = some src) :
    ∃ buf, buf.length = L ∧ t.hint = some ⟨some buf, c⟩ ∧ (hintStep t o).call.service = .dataPoints ∧
      (hintStep t o).hint = some ⟨some (copyHint buf src (sizeSub c 1)), src.length⟩ := by
  obtain ⟨buf, hbuf, hlen⟩ := h.record
  obtain ⟨hservice, hhint⟩ := Prod.mk.inj hbuf
  unfold Transaction.answered at ho
  split at ho
  · split_ifs at ho with hc
    subst ho
    refine ⟨buf, hlen, hhint, ?_⟩
    simp [hintStep, Transaction.step, Transaction.callback, hc, Callback.concerns, Callback.hint, hhint, StringInfo.store]
  · cases ho

/-- a hint that is shorter than the record says leaves it a record of the string -/
theorem Recorded.shorter {L c : ℕ} {t : Transaction} (h : Recorded L c t) (hL : L < 2 ^ 64) {o : HintOp} {src : Str}
    (ho : t.answered o = some src) (hlt : src.length < c) : Recorded L src.length (hintStep t o) := by
  obtain ⟨buf, hlen, -, hservice, hhint⟩ := answered_hint h ho
  have hroom := h.room
  have hn : sizeSub c 1 = c - 1 := sizeSub_eq (by omega) (by omega)
  refine ⟨⟨copyHint buf src (c - 1), by rw [Transaction.carries, hservice, hhint, hn], ?_⟩, by omega⟩
  rw [copyHint_length (by omega), hlen]

/-- a reply is faithful exactly when its hint is shorter than the record says -/
theorem faithful_iff {L c : ℕ} {t : Transaction} (h : Recorded L c t) (hL : L < 2 ^ 64) {o : HintOp} {src : Str}
    (ho : t.answered o = some src) (hsrc : 0 ∉ src) : Faithful L t (hintStep t o) src ↔ src.length < c := by
  obtain ⟨buf, hlen, hbefore, -, hhint⟩ := answered_hint h ho
  have hroom := h.room
  have hwritten : strlen (copyHint buf src (sizeSub c 1)) = min (sizeSub c 1) src.length := strlen_copyHint hsrc
  constructor
  · intro hf
    obtain ⟨buf', hbuf', -⟩ := hf.stored
    obtain ⟨rfl, hreport⟩ : copyHint buf src (sizeSub c 1) = buf' ∧ src.length = strlen buf' := by simpa [hhint] using hbuf'
    rw [hwritten] at hreport
    by_cases hzero : c = 0
    · -- an empty string: the length minus one is the greatest of all sizes
      subst hzero
      have hwrites : hintWrites src (sizeSub 0 1) L ≠ none := by
        have hle : L ≤ sizeSub 0 1 := by simp only [sizeSub]; omega
        unfold hintWrites
        split_ifs <;> simp; omega
      exact absurd (hf.inside _ hbefore L hwrites) (lt_irrefl L)
    · have hn : sizeSub c 1 = c - 1 := sizeSub_eq (by omega) (by omega)
      rw [hn] at hreport
      omega
  · intro hlt
    have hn : sizeSub c 1 = c - 1 := sizeSub_eq (by omega) (by omega)
    rw [hn] at hwritten hhint
    refine ⟨fun h' hh' i hi => ?_, _, by rw [hhint, hwritten, Nat.min_eq_right (by omega)], ?_⟩
    · obtain rfl : _ = h' := Option.some.inj (hbefore.symm.trans hh')
      simp only [hn, hintWrites] at hi
      split_ifs at hi <;> first | omega | exact absurd rfl hi
    · have hget := copyHint_get buf src (c - 1) (c - 1)
      have hmem : (copyHint buf src (c - 1))[c - 1]? = some 0 := by simpa [hintWrites] using hget
      refine List.mem_of_getElem? (i := c - 1) ?_
      rw [List.getElem?_take_of_lt (by omega), hmem]

theorem answers_quiet {t : Transaction} {o : HintOp} (ho : t.answered o = none) (ops : List HintOp) :
    answers t (o :: ops) = answers (hintStep t o) ops := by
  simp [answers, ho]

theorem answers_cons {t : Transaction} {o : HintOp} {src : Str} (ho : t.answered o = some src) (ops : List HintOp) :
    answers t (o :: ops) = src :: answers (hintStep t o) ops := by
  simp [answers, ho]

/-- every reply of a run is faithful -/
def AllFaithful (L : ℕ) (t : Transaction) (ops : List HintOp) : Prop :=
  ∀ p ∈ steps hintStep t ops, ∀ src, p.1.answered p.2 = some src → Faithful L p.1 (hintStep p.1 p.2) src

theorem allFaithful_cons (L : ℕ) (t : Transaction) (o : HintOp) (ops : List HintOp) :
    AllFaithful L t (o :: ops) ↔
      (∀ src, t.answered o = some src → Faithful L t (hintStep t o) src) ∧ AllFaithful L (hintStep t o) ops := by
  simp [AllFaithful]

/-- the same from any state of the record on, by induction on the run -/
theorem allFaithful_iff {L : ℕ} (hL : L < 2 ^ 64) (ops : List HintOp) {c : ℕ} {t : Transaction} (h : Recorded L c t)
    (hops : ∀ src ∈ answers t ops, 0 ∉ src) :
    AllFaithful L t ops ↔ (c :: (answers t ops).map List.length).IsChain (· > ·) := by
  induction ops generalizing t c with
  | nil => simp [AllFaithful, answers]
  | cons o ops ih =>
    rw [allFaithful_cons]
    cases ho : t.answered o with
    | none =>
      rw [answers_quiet ho] at hops ⊢
      rw [ih (h.quiet ho) hops]
      simp
    | some src =>
      rw [answers_cons ho] at hops ⊢
      have hfirst : (∀ src', some src = some src' → Faithful L t (hintStep t o) src') ↔ src.length < c := by
        rw [← faithful_iff h hL ho (hops src List.mem_cons_self)]
        exact ⟨fun hf => hf src rfl, fun hf src' heq => Option.some.inj heq ▸ hf⟩
      rw [hfirst, List.map_cons, List.isChain_cons_cons]
      refine and_congr_right fun hlt => ih (h.shorter hL ho hlt) fun src' hmem => hops src' (List.mem_cons_of_mem src hmem)

/-! ## Main results -/

/-- **The hint's record.** For every string of any size, any sequence of sends of collections that pass the same record, with
every answer of the platform and the connector and every hint of the cloud: every reply is written inside the string, leaves
a NUL in it and reports the length of what it has stored, exactly when each of the cloud's hints is shorter than the one
before it, and the first is shorter than the string. -/
theorem hint_iff (c : Call) (buf : Str) (hbuf : buf.length < 2 ^ 64) (ops : List HintOp)
    (hops : ∀ src ∈ answers (firstSend c buf) ops, 0 ∉ src) :
    AllFaithful buf.length (firstSend c buf) ops ↔
      (buf.length :: (answers (firstSend c buf) ops).map List.length).IsChain (· > ·) :=
  allFaithful_iff hbuf ops (firstSend_recorded c buf) hops

/-- a send over a started transport -/
def collectionCall : Call :=
  { service := .dataPoints, running := true, transportStarted := some true, cloudPath := none, contentType := none,
    data := none, localPath := none, hint := none, collection := true, withReply := true }

/-- a whole send that is answered with a hint -/
def hinted (src : Str) : List HintOp :=
  List.replicate 7 (.op (.api granted)) ++
    [.op (.callback (.dataPointResponse .success (some src))), .op (.callback (.dataPointStatus .complete)),
      .op (.statusRelease .ok)] ++ List.replicate 5 (.op (.api granted))

example : answers (firstSend collectionCall [9, 9, 9, 9])
    (hinted (ascii "ab") ++ [.send collectionCall] ++ hinted (ascii "c")) = [ascii "ab", ascii "c"] := by decide

/-- two replies, of two bytes and of one, into a string of four bytes -/
theorem hint_twice : AllFaithful 4 (firstSend collectionCall [9, 9, 9, 9])
    (hinted (ascii "ab") ++ [.send collectionCall] ++ hinted (ascii "c")) :=
  (hint_iff collectionCall [9, 9, 9, 9] (by decide) _ (by decide)).2 (by decide)

/-- **A hint longer than the string** is cut off, and the length is that of the cloud's hint. -/
theorem hint_cut_off : ¬ ∀ (c : Call) (buf : Str) (ops : List HintOp), buf.length < 2 ^ 64 → 1 ≤ buf.length →
    (∀ src ∈ answers (firstSend c buf) ops, 0 ∉ src) → AllFaithful buf.length (firstSend c buf) ops := by
  intro h
  have hall := h collectionCall [9, 9] (hinted (ascii "abc")) (by decide) (by decide) (by decide)
  exact absurd ((allFaithful_iff (by decide) _ (firstSend_recorded collectionCall [9, 9]) (by decide)).1 hall) (by decide)

end CcApi.Send
