/-
A request handshake between a client that polls and one worker.

The client presents a request; when there is something to run for it the request is queued, its record is filled and the
worker's semaphore is raised, otherwise it is processed at once. The client presents the same request again, answered
busy, until it is processed; then the request is answered with what is in the shared `error` and `side`. The worker wakes,
reads the record, runs it, and when the run returns the side results are there at once; the worker stores the error and
then sets processed what it finds queued. A cancellation clears the record whatever the worker is doing; a stop makes the
worker leave its loop.

A cancellation is safe once the worker has read the record, and if it then is at work on nothing else when the next
request comes; before that the worker wakes for a request that is gone.

- `step_inv`: such cancellations, reads of good records, and everything else, keep `Inv`.
- `Inv.answered`: every answer carries the results of the one run of its own request, or, when nothing was queued, no
  error and the request's own side values; `Inv.asked`: a busy answer has come before it.
- `Inv.exited`: the worker leaves its loop only after a stop.
-/
import CcApi.Lib.Runs

namespace Lib

namespace Handshake

open Runs

inductive Phase where
  | idle
  | queued
  | processed
deriving DecidableEq, Repr

inductive Pc (ε : Type*) where
  | waiting
  | woken
  | taken (n : ℕ)
  | calling (n : ℕ)
  | returned (n : ℕ) (e : ε)
  | stored (n : ℕ)
  | exited

/-- a request; `own` are the side values it brings, `busy` counts its busy answers -/
structure Job (α : Type*) where
  serial : ℕ
  queued : Bool
  own : α
  busy : ℕ

structure Answer (ε α : Type*) where
  job : Job α
  error : ε
  side : α

structure St (ε α : Type*) where
  phase : Phase
  job : Option (Job α)
  /-- the serial number of the next request -/
  next : ℕ
  /-- the request whose run the record holds -/
  record : Option ℕ
  error : ε
  side : α
  sem : ℕ
  stopping : Bool
  pc : Pc ε
  /-- there has been a cancellation -/
  cancelled : Bool
  runs : List ℕ
  results : List (ℕ × ε × α)
  answers : List (Answer ε α)

inductive Op (ε α : Type*) where
  /-- own is what the request brings, side what is there after it has been queued -/
  | submit (queued : Bool) (own side : α)
  | poll
  | cancel
  | stop
  | wake
  | read (ok : Bool)
  | call
  | ret (e : ε) (a : α)
  | store
  | update

variable {ε α : Type*} (noError : ε)

def step (s : St ε α) : Op ε α → St ε α
  | .submit queued own side =>
    match s.job, s.phase with
    | none, .idle =>
      { s with phase := if queued then .queued else .processed, job := some ⟨s.next, queued, own, 1⟩, next := s.next + 1,
               record := if queued then some s.next else none, error := noError, side := if queued then side else own,
               sem := if queued then s.sem + 1 else s.sem }
    | _, _ => s
  | .poll =>
    match s.job, s.phase with
    | some j, .queued => { s with job := some { j with busy := j.busy + 1 } }
    | some j, .processed =>
      { s with phase := .idle, job := none, record := none, error := noError,
               answers := s.answers ++ [⟨j, s.error, s.side⟩] }
    | _, _ => s
  | .cancel => { s with phase := .idle, job := none, record := none, error := noError, cancelled := true }
  | .stop => if s.stopping then s else { s with stopping := true, sem := s.sem + 1 }
  | .wake =>
    match s.pc, s.sem with
    | .waiting, k + 1 => { s with sem := k, pc := if s.stopping then .exited else .woken }
    | _, _ => s
  | .read ok =>
    match s.pc with
    | .woken =>
      match s.phase, s.record with
      | .queued, some n => { s with pc := if ok then .taken n else .exited }
      | _, _ => { s with pc := .exited }
    | _ => s
  | .call =>
    match s.pc with
    | .taken n => { s with pc := .calling n, runs := s.runs ++ [n] }
    | _ => s
  | .ret e a =>
    match s.pc with
    | .calling n => { s with pc := .returned n e, side := a, results := s.results ++ [(n, e, a)] }
    | _ => s
  | .store =>
    match s.pc with
    | .returned n e => { s with pc := .stored n, error := e }
    | _ => s
  | .update =>
    match s.pc with
    | .stored _ =>
      { s with phase := if s.phase = .queued then .processed else s.phase,
               pc := if s.stopping then .exited else .waiting }
    | _ => s

/-- what the worker has read is still being worked on -/
def Pc.Working : Pc ε → Prop
  | .taken _ | .calling _ | .returned _ _ | .stored _ => True
  | _ => False

/-- all it has left to do is to update the status -/
def Pc.Stored : Pc ε → Prop
  | .stored _ => True
  | _ => False

/-- until there is a stop: a queued request is cancelled only once the worker has read it, a request comes only when the
worker is not at work on a cancelled one, and what the worker reads is good -/
def Keeps (s : St ε α) : Op ε α → Prop
  | .submit queued _ _ => s.job = none → ¬s.pc.Working ∨ (queued = false ∧ s.pc.Stored)
  | .cancel => s.phase = .queued → s.stopping = true ∨ s.pc.Working
  | .read ok => s.phase = .queued → ok = true ∨ s.stopping = true
  | _ => True

/-! ## The invariant -/

/-- request n has been run once, with these results -/
def Served (s : St ε α) (n : ℕ) (e : ε) (a : α) : Prop :=
  s.runs.count n = 1 ∧ s.results.filter (fun r => r.1 = n) = [(n, e, a)]

def Running (s : St ε α) (n : ℕ) : Prop := s.runs.count n = 1 ∧ s.results.filter (fun r => r.1 = n) = []

def Unserved (s : St ε α) (n : ℕ) : Prop := s.runs.count n = 0 ∧ s.results.filter (fun r => r.1 = n) = []

/-- the requests that are asked or answered; a cancelled one is not -/
def Known (s : St ε α) (j : Job α) : Prop := s.job = some j ∨ ∃ x ∈ s.answers, x.job = j

/-- the worker is at work on a request that has been cancelled -/
structure Abandoned (s : St ε α) (n : ℕ) : Prop where
  cancelled : s.cancelled = true
  sem : s.stopping = false → s.sem = 0
  old : n < s.next
  unknown : ∀ j, Known s j → j.serial ≠ n

/-- nothing is queued for the worker -/
def Resting (s : St ε α) : Prop :=
  match s.pc with
  | .waiting => s.stopping = false → s.sem = 0
  | .woken => s.stopping = true
  | .taken n | .calling n | .returned n _ => s.phase ≠ .processed ∧ Abandoned s n
  | .stored n => Abandoned s n
  | .exited => s.stopping = true

/-- how far the worker is with the queued request n -/
def Hand (s : St ε α) (n : ℕ) : Prop :=
  match s.pc with
  | .waiting => Unserved s n ∧ (s.stopping = false → s.sem = 1)
  | .woken => Unserved s n ∧ (s.stopping = false → s.sem = 0)
  | .taken m => m = n ∧ Unserved s n ∧ (s.stopping = false → s.sem = 0)
  | .calling m => m = n ∧ Running s n ∧ (s.stopping = false → s.sem = 0)
  | .returned m e => m = n ∧ Served s n e s.side ∧ (s.stopping = false → s.sem = 0)
  | .stored m => m = n ∧ Served s n s.error s.side ∧ (s.stopping = false → s.sem = 0)
  | .exited => s.stopping = true

/-- what a processed request is answered with -/
def Right (s : St ε α) (j : Job α) (e : ε) (a : α) : Prop :=
  if j.queued then Served s j.serial e a else Unserved s j.serial ∧ e = noError ∧ a = j.own

def Now (s : St ε α) : Prop :=
  match s.phase with
  | .idle => s.job = none ∧ s.record = none ∧ Resting s ∧
      (s.cancelled = false → s.answers ≠ [] → s.error = noError)
  | .queued => ∃ j, s.job = some j ∧ j.queued = true ∧ s.record = some j.serial ∧ Hand s j.serial
  | .processed => ∃ j, s.job = some j ∧ Resting s ∧ Right noError s j s.error s.side

structure Inv (s : St ε α) : Prop where
  now : Now noError s
  asked : ∀ j, Known s j → 1 ≤ j.busy ∧ j.serial < s.next
  ran : (∀ n ∈ s.runs, n < s.next) ∧ ∀ r ∈ s.results, r.1 < s.next
  answered : ∀ x ∈ s.answers, Right noError s x.job x.error x.side
  apart : ∀ j, s.job = some j → ∀ x ∈ s.answers, x.job.serial ≠ j.serial
  once : (s.answers.map fun x => x.job.serial).Nodup

variable {noError}

/-- an abandoned request stays so when no more requests are known -/
theorem Abandoned.mono {s t : St ε α} {n : ℕ} (h : Abandoned s n) (hc : t.cancelled = true)
    (hsem : t.stopping = false → s.stopping = false ∧ t.sem = s.sem) (hnext : s.next ≤ t.next)
    (hknown : ∀ j, Known t j → Known s j) : Abandoned t n :=
  ⟨hc, fun hs => (hsem hs).2.trans (h.sem (hsem hs).1), h.old.trans_le hnext, fun j hj => h.unknown j (hknown j hj)⟩

/-- a run for request n is none for another -/
theorem right_call {s t : St ε α} {n : ℕ} (hr : t.runs = s.runs ++ [n]) (hs : t.results = s.results) {j : Job α}
    (hj : j.serial ≠ n) (e : ε) (a : α) : Right noError t j e a ↔ Right noError s j e a := by
  have hc : t.runs.count j.serial = s.runs.count j.serial := by
    rw [hr, List.count_append, List.count_singleton, if_neg (by simpa using fun h => hj h.symm), Nat.add_zero]
  simp only [Right, Served, Unserved, hc, hs]

theorem right_ret {s t : St ε α} {n : ℕ} {r : ε × α} (hr : t.runs = s.runs) (hs : t.results = s.results ++ [(n, r)])
    {j : Job α} (hj : j.serial ≠ n) (e : ε) (a : α) : Right noError t j e a ↔ Right noError s j e a := by
  have hf : t.results.filter (fun x => x.1 = j.serial) = s.results.filter (fun x => x.1 = j.serial) := by
    have hne : ¬n = j.serial := fun h => hj h.symm
    simp [hs, hne]
  simp only [Right, Served, Unserved, hr, hf]

/-- a request that has not been numbered has not been run -/
theorem Inv.unserved {s : St ε α} (h : Inv noError s) : Unserved s s.next := by
  constructor
  · apply List.count_eq_zero_of_not_mem
    intro hn
    exact absurd (h.ran.1 _ hn) (lt_irrefl _)
  · rw [List.filter_eq_nil_iff]
    intro r hr hn
    have := h.ran.2 r hr
    simp only [decide_eq_true_eq] at hn
    omega

/-- with nothing queued the worker rests -/
theorem Inv.resting {s : St ε α} (h : Inv noError s) (hp : s.phase ≠ .queued) : Resting s := by
  have hn := h.now
  unfold Now at hn
  cases hph : s.phase with
  | queued => exact absurd hph hp
  | idle => simp only [hph] at hn; exact hn.2.2.1
  | processed =>
    simp only [hph] at hn
    obtain ⟨-, -, hrest, -⟩ := hn
    exact hrest

theorem Inv.hand {s : St ε α} (h : Inv noError s) (hp : s.phase = .queued) :
    ∃ j, s.job = some j ∧ j.queued = true ∧ s.record = some j.serial ∧ Hand s j.serial := by
  have hn := h.now
  simp only [Now, hp] at hn
  exact hn

/-- the worker on its own on the queued request j: the client's side is as it was, j's run may go on -/
theorem Inv.work {s t : St ε α} (h : Inv noError s) {j : Job α} (hj : s.job = some j) (hq : j.queued = true)
    (hphase : t.phase = .queued) (hjob : t.job = some j) (hrec : t.record = some j.serial) (hnext : t.next = s.next)
    (hans : t.answers = s.answers) (hhand : Hand t j.serial)
    (hruns : ∀ n ∈ t.runs, n ∈ s.runs ∨ n = j.serial) (hres : ∀ r ∈ t.results, r ∈ s.results ∨ r.1 = j.serial)
    (hright : ∀ i e a, i.serial ≠ j.serial → Right noError s i e a → Right noError t i e a) : Inv noError t := by
  have hlt := (h.asked j (Or.inl hj)).2
  have hknown : ∀ i, Known t i → Known s i := by
    intro i hi
    simp only [Known, hans, hjob, hj] at hi ⊢
    exact hi
  refine ⟨?_, fun i hi => hnext ▸ h.asked i (hknown i hi), ⟨fun n hn => ?_, fun r hr => ?_⟩, fun x hx => ?_,
    fun i hi x hx => ?_, hans ▸ h.once⟩
  · unfold Now
    rw [hphase]
    exact ⟨j, hjob, hq, hrec, hhand⟩
  · rw [hnext]
    rcases hruns n hn with hn | rfl
    · exact h.ran.1 n hn
    · exact hlt
  · rw [hnext]
    rcases hres r hr with hr | hr
    · exact h.ran.2 r hr
    · rw [hr]; exact hlt
  · rw [hans] at hx
    exact hright _ _ _ (h.apart j hj x hx) (h.answered x hx)
  · rw [hans] at hx
    exact h.apart i (hj.trans (hjob.symm.trans hi)) x hx

/-- the worker on its own with nothing queued: it may go on with request m, which nobody asks for -/
theorem Inv.leave {s t : St ε α} (h : Inv noError s) (hp : s.phase ≠ .queued) (hphase : t.phase = s.phase)
    (hjob : t.job = s.job) (hrec : t.record = s.record) (hnext : t.next = s.next) (hans : t.answers = s.answers)
    (hrest : Resting t) (hidle : s.phase = .idle → t.cancelled = false → t.error = s.error ∧ s.cancelled = false)
    (hproc : s.phase = .processed → t.error = s.error ∧ t.side = s.side)
    (hruns : ∀ n ∈ t.runs, n < s.next) (hres : ∀ r ∈ t.results, r.1 < s.next)
    (hright : ∀ j e a, Known s j → Right noError s j e a → Right noError t j e a) : Inv noError t := by
  have hknown : ∀ i, Known t i → Known s i := by
    intro i hi
    simp only [Known, hans, hjob] at hi ⊢
    exact hi
  refine ⟨?_, fun i hi => hnext ▸ h.asked i (hknown i hi), ⟨hnext ▸ hruns, hnext ▸ hres⟩, fun x hx => ?_,
    fun i hi x hx => ?_, hans ▸ h.once⟩
  · have hn := h.now
    unfold Now at hn ⊢
    rw [hphase]
    cases hph : s.phase with
    | queued => exact absurd hph hp
    | idle =>
      simp only [hph] at hn ⊢
      refine ⟨hjob ▸ hn.1, hrec ▸ hn.2.1, hrest, fun hc ha => ?_⟩
      obtain ⟨he, hc'⟩ := hidle hph hc
      exact he.trans (hn.2.2.2 hc' (hans ▸ ha))
    | processed =>
      simp only [hph] at hn ⊢
      obtain ⟨j, hj, -, hr⟩ := hn
      obtain ⟨he, hs⟩ := hproc hph
      exact ⟨j, hjob.trans hj, hrest, by rw [he, hs]; exact hright _ _ _ (Or.inl hj) hr⟩
  · rw [hans] at hx
    exact hright _ _ _ (Or.inr ⟨x, hx, rfl⟩) (h.answered x hx)
  · rw [hans] at hx
    exact h.apart i (hjob.symm.trans hi) x hx

theorem submit_inv {s : St ε α} (h : Inv noError s) {queued : Bool} {own side : α}
    (hk : Keeps s (.submit queued own side)) : Inv noError (step noError s (.submit queued own side)) := by
  have hfresh := h.unserved
  cases hj : s.job with
  | some j => simpa only [step, hj] using h
  | none =>
    cases hp : s.phase with
    | queued => simpa only [step, hj, hp] using h
    | processed => simpa only [step, hj, hp] using h
    | idle =>
      have hrest := h.resting (by simp [hp])
      have hfree := hk hj
      have hserial : ∀ x ∈ s.answers, x.job.serial ≠ s.next :=
        fun x hx => (h.asked _ (Or.inr ⟨x, hx, rfl⟩)).2.ne
      simp only [step, hj, hp]
      refine ⟨?_, fun i hi => ?_, ⟨fun n hn => (h.ran.1 n hn).trans (Nat.lt_succ_self _),
        fun r hr => (h.ran.2 r hr).trans (Nat.lt_succ_self _)⟩, h.answered, fun i hi x hx => ?_, h.once⟩
      · cases queued with
        | false =>
          refine ⟨_, rfl, ?_, hfresh, rfl, rfl⟩
          unfold Resting at hrest ⊢
          cases hpc : s.pc <;> simp only [hpc] at hrest ⊢
          case stored n =>
            refine ⟨hrest.cancelled, hrest.sem, hrest.old.trans (Nat.lt_succ_self _), fun i hi => ?_⟩
            rcases hi with hi | hi
            · obtain rfl := Option.some.inj hi
              exact hrest.old.ne'
            · exact hrest.unknown i (Or.inr hi)
          case waiting => simpa using hrest
          case woken => exact hrest
          case exited => exact hrest
          all_goals simp [hpc, Pc.Working, Pc.Stored] at hfree
        | true =>
          refine ⟨_, rfl, rfl, rfl, ?_⟩
          unfold Resting at hrest
          unfold Hand
          cases hpc : s.pc <;> simp only [hpc] at hrest ⊢
          case waiting => exact ⟨hfresh, fun hs => by simp [hrest hs]⟩
          case woken => exact ⟨hfresh, fun hs => by simp [hrest] at hs⟩
          case exited => exact hrest
          all_goals simp [hpc, Pc.Working] at hfree
      · rcases hi with hi | hi
        · obtain rfl := Option.some.inj hi
          exact ⟨le_rfl, Nat.lt_succ_self _⟩
        · obtain ⟨h1, h2⟩ := h.asked i (Or.inr hi)
          exact ⟨h1, h2.trans (Nat.lt_succ_self _)⟩
      · obtain rfl := Option.some.inj hi
        exact hserial x hx

theorem poll_inv {s : St ε α} (h : Inv noError s) : Inv noError (step noError s .poll) := by
  cases hj : s.job with
  | none => simpa only [step, hj] using h
  | some j =>
    have hn := h.now
    cases hp : s.phase with
    | idle => simpa only [step, hj, hp] using h
    | queued =>
      simp only [Now, hp] at hn
      obtain ⟨i, hi, hq, hrec, hhand⟩ := hn
      obtain rfl := Option.some.inj (hj.symm.trans hi)
      simp only [step, hj, hp]
      refine ⟨?_, fun i hi => ?_, h.ran, h.answered, fun i hi x hx => ?_, h.once⟩
      · exact ⟨_, rfl, hq, hrec, hhand⟩
      · rcases hi with hi | hi
        · obtain rfl := Option.some.inj hi
          exact ⟨Nat.le_add_left 1 _, (h.asked j (Or.inl hj)).2⟩
        · exact h.asked i (Or.inr hi)
      · obtain rfl := Option.some.inj hi
        exact h.apart j hj x hx
    | processed =>
      simp only [Now, hp] at hn
      obtain ⟨i, hi, hrest, hright⟩ := hn
      obtain rfl := Option.some.inj (hj.symm.trans hi)
      simp only [step, hj, hp]
      -- the answered request was known before
      have hknown : ∀ i, (∃ x ∈ s.answers ++ [⟨j, s.error, s.side⟩], Answer.job x = i) → Known s i := by
        rintro i ⟨x, hx, rfl⟩
        rcases List.mem_append.1 hx with hx | hx
        · exact Or.inr ⟨x, hx, rfl⟩
        · rw [List.mem_singleton.1 hx]
          exact Or.inl hj
      refine ⟨⟨rfl, rfl, ?_, fun _ _ => rfl⟩, fun i hi => ?_, h.ran, fun x hx => ?_, fun i hi => by simp at hi, ?_⟩
      · unfold Resting at hrest ⊢
        cases hpc : s.pc <;> simp only [hpc, hp] at hrest ⊢
        case waiting => exact hrest
        case woken => exact hrest
        case exited => exact hrest
        case stored n =>
          refine ⟨hrest.cancelled, hrest.sem, hrest.old, fun i hi => hrest.unknown i ?_⟩
          rcases hi with hi | hi
          · simp at hi
          · exact hknown i hi
        all_goals simp at hrest
      · rcases hi with hi | hi
        · simp at hi
        · exact h.asked i (hknown i hi)
      · rcases List.mem_append.1 hx with hx | hx
        · exact h.answered x hx
        · rw [List.mem_singleton.1 hx]
          exact hright
      · rw [List.map_append, List.nodup_append]
        refine ⟨h.once, by simp, fun a ha b hb => ?_⟩
        obtain ⟨x, hx, rfl⟩ := List.mem_map.1 ha
        obtain rfl : b = j.serial := by simpa using hb
        exact h.apart j hj x hx

theorem cancel_inv {s : St ε α} (h : Inv noError s) (hk : Keeps s .cancel) : Inv noError (step noError s .cancel) := by
  have hknown : ∀ i, Known (step noError s .cancel) i → Known s i := by
    rintro i (hi | hi)
    · simp [step] at hi
    · exact Or.inr hi
  refine ⟨⟨rfl, rfl, ?_, fun hc => by simp [step] at hc⟩, fun i hi => h.asked i (hknown i hi), h.ran, h.answered,
    fun i hi => by simp [step] at hi, h.once⟩
  by_cases hp : s.phase = .queued
  · -- what the worker has read is abandoned
    obtain ⟨j, hj, -, -, hhand⟩ := h.hand hp
    have hold := (h.asked j (Or.inl hj)).2
    have hunknown : ∀ i, (∃ x ∈ s.answers, x.job = i) → i.serial ≠ j.serial := by
      rintro i ⟨x, hx, rfl⟩
      exact h.apart j hj x hx
    have hread := hk hp
    unfold Hand at hhand
    unfold Resting
    cases hpc : s.pc <;> simp only [step, hpc, Pc.Working, or_false] at hhand hread ⊢
    case waiting => exact fun hs => by simp [hread] at hs
    case woken => exact hread
    case exited => exact hhand
    case taken n =>
      obtain ⟨rfl, -, hsem⟩ := hhand
      exact ⟨by simp, rfl, hsem, hold, fun i hi => hunknown i (by simpa [Known] using hi)⟩
    case calling n =>
      obtain ⟨rfl, -, hsem⟩ := hhand
      exact ⟨by simp, rfl, hsem, hold, fun i hi => hunknown i (by simpa [Known] using hi)⟩
    case returned n e =>
      obtain ⟨rfl, -, hsem⟩ := hhand
      exact ⟨by simp, rfl, hsem, hold, fun i hi => hunknown i (by simpa [Known] using hi)⟩
    case stored n =>
      obtain ⟨rfl, -, hsem⟩ := hhand
      exact ⟨rfl, hsem, hold, fun i hi => hunknown i (by simpa [Known] using hi)⟩
  · have hrest := h.resting hp
    unfold Resting at hrest ⊢
    cases hpc : s.pc <;> simp only [step, hpc] at hrest ⊢
    case waiting => exact hrest
    case woken => exact hrest
    case exited => exact hrest
    case stored n => exact hrest.mono rfl (fun hs => ⟨hs, rfl⟩) le_rfl hknown
    all_goals exact ⟨by simp, hrest.2.mono rfl (fun hs => ⟨hs, rfl⟩) le_rfl hknown⟩

theorem stop_inv {s : St ε α} (h : Inv noError s) : Inv noError (step noError s .stop) := by
  simp only [step]
  split_ifs with hs
  · exact h
  · have hrest : Resting s → Resting { s with stopping := true, sem := s.sem + 1 } := by
      intro hr
      unfold Resting at hr ⊢
      cases hpc : s.pc <;> simp only [hpc] at hr ⊢
      case waiting => exact fun hf => by simp at hf
      case stored n => exact hr.mono hr.cancelled (fun hf => by simp at hf) le_rfl fun _ hj => hj
      all_goals exact ⟨hr.1, hr.2.mono hr.2.cancelled (fun hf => by simp at hf) le_rfl fun _ hj => hj⟩
    have hhand : ∀ {n}, Hand s n → Hand { s with stopping := true, sem := s.sem + 1 } n := by
      intro n hr
      unfold Hand at hr ⊢
      cases hpc : s.pc <;> simp only [hpc] at hr ⊢
      case waiting => exact ⟨hr.1, fun hf => by simp at hf⟩
      case woken => exact ⟨hr.1, fun hf => by simp at hf⟩
      all_goals exact ⟨hr.1, hr.2.1, fun hf => by simp at hf⟩
    refine ⟨?_, h.asked, h.ran, h.answered, h.apart, h.once⟩
    have hn := h.now
    unfold Now at hn ⊢
    cases hp : s.phase <;> simp only [hp] at hn ⊢
    case idle => exact ⟨hn.1, hn.2.1, by simpa only [hp] using hrest hn.2.2.1, hn.2.2.2⟩
    case queued =>
      obtain ⟨j, h1, h2, h3, h4⟩ := hn
      exact ⟨j, h1, h2, h3, hhand h4⟩
    case processed =>
      obtain ⟨j, h1, h2, h3⟩ := hn
      exact ⟨j, h1, by simpa only [hp] using hrest h2, h3⟩

theorem wake_inv {s : St ε α} (h : Inv noError s) : Inv noError (step noError s .wake) := by
  cases hpc : s.pc
  case waiting =>
    cases hsem : s.sem with
    | zero => simpa only [step, hpc, hsem] using h
    | succ k =>
      simp only [step, hpc, hsem]
      by_cases hp : s.phase = .queued
      · obtain ⟨j, hj, hq, hrec, hhand⟩ := h.hand hp
        simp only [Hand, hpc, hsem] at hhand
        refine h.work hj hq hp hj hrec rfl rfl ?_ (fun _ hn => Or.inl hn) (fun _ hr => Or.inl hr) fun _ _ _ _ hi => hi
        unfold Hand
        cases hs : s.stopping with
        | true => simp only [if_true]
        | false =>
          have hk : k = 0 := by simpa using hhand.2 hs
          simp only [Bool.false_eq_true, if_false]
          exact ⟨hhand.1, fun _ => hk⟩
      · -- a semaphore raised with nothing queued is the stop's
        have hrest := h.resting hp
        simp only [Resting, hpc, hsem] at hrest
        have hstop : s.stopping = true := by simpa using hrest
        refine h.leave hp rfl rfl rfl rfl rfl ?_ (fun _ hc => ⟨rfl, hc⟩) (fun _ => ⟨rfl, rfl⟩) h.ran.1 h.ran.2
          fun _ _ _ _ hi => hi
        simp only [Resting, hstop, if_true]
  all_goals simpa only [step, hpc] using h

theorem read_inv {s : St ε α} (h : Inv noError s) {ok : Bool} (hk : Keeps s (.read ok)) :
    Inv noError (step noError s (.read ok)) := by
  cases hpc : s.pc
  case woken =>
    by_cases hp : s.phase = .queued
    · obtain ⟨j, hj, hq, hrec, hhand⟩ := h.hand hp
      simp only [Hand, hpc] at hhand
      simp only [step, hpc, hp, hrec]
      refine h.work hj hq rfl hj rfl rfl rfl ?_ (fun _ hn => Or.inl hn) (fun _ hr => Or.inl hr) fun _ _ _ _ hi => hi
      cases ok with
      | true => exact ⟨rfl, hhand⟩
      | false => simpa [Hand] using hk hp
    · have hrest := h.resting hp
      simp only [Resting, hpc] at hrest
      have hstep : step noError s (.read ok) = { s with pc := .exited } := by
        cases hph : s.phase with
        | queued => exact absurd hph hp
        | idle => simp only [step, hpc, hph]
        | processed => simp only [step, hpc, hph]
      rw [hstep]
      exact h.leave hp rfl rfl rfl rfl rfl hrest (fun _ hc => ⟨rfl, hc⟩) (fun _ => ⟨rfl, rfl⟩) h.ran.1 h.ran.2
        fun _ _ _ _ hi => hi
  all_goals simpa only [step, hpc] using h

theorem call_inv {s : St ε α} (h : Inv noError s) : Inv noError (step noError s .call) := by
  cases hpc : s.pc
  case taken n =>
    simp only [step, hpc]
    by_cases hp : s.phase = .queued
    · obtain ⟨j, hj, hq, hrec, hhand⟩ := h.hand hp
      simp only [Hand, hpc] at hhand
      obtain ⟨rfl, ⟨hcount, hres⟩, hsem⟩ := hhand
      refine h.work hj hq hp hj hrec rfl rfl ⟨rfl, ⟨?_, hres⟩, hsem⟩ (fun n hn => ?_) (fun _ hr => Or.inl hr)
        fun i e a hi => (right_call (s := s)
          (t := { s with pc := .calling j.serial, runs := s.runs ++ [j.serial] }) rfl rfl hi e a).2
      · simp [hcount]
      · rcases List.mem_append.1 hn with hn | hn
        · exact Or.inl hn
        · exact Or.inr (List.mem_singleton.1 hn)
    · have hrest := h.resting hp
      simp only [Resting, hpc] at hrest
      obtain ⟨hproc, hleft⟩ := hrest
      refine h.leave hp rfl rfl rfl rfl rfl ⟨hproc, ⟨hleft.cancelled, hleft.sem, hleft.old, hleft.unknown⟩⟩
        (fun _ hc => by simp [hleft.cancelled] at hc) (fun hph => absurd hph hproc) (fun m hm => ?_) h.ran.2
        fun i e a hi => (right_call (s := s) (t := { s with pc := .calling n, runs := s.runs ++ [n] }) rfl rfl
          (hleft.unknown i hi) e a).2
      rcases List.mem_append.1 hm with hm | hm
      · exact h.ran.1 m hm
      · rw [List.mem_singleton.1 hm]
        exact hleft.old
  all_goals simpa only [step, hpc] using h

theorem ret_inv {s : St ε α} (h : Inv noError s) (e : ε) (a : α) : Inv noError (step noError s (.ret e a)) := by
  cases hpc : s.pc
  case calling n =>
    simp only [step, hpc]
    by_cases hp : s.phase = .queued
    · obtain ⟨j, hj, hq, hrec, hhand⟩ := h.hand hp
      simp only [Hand, hpc] at hhand
      obtain ⟨rfl, ⟨hcount, hres⟩, hsem⟩ := hhand
      refine h.work hj hq hp hj hrec rfl rfl ⟨rfl, ⟨hcount, ?_⟩, hsem⟩ (fun _ hn => Or.inl hn) (fun r hr => ?_)
        fun i e' a' hi => (right_ret (s := s)
          (t := { s with pc := .returned j.serial e, side := a, results := s.results ++ [(j.serial, e, a)] })
          rfl rfl hi e' a').2
      · simp [hres]
      · rcases List.mem_append.1 hr with hr | hr
        · exact Or.inl hr
        · rw [List.mem_singleton.1 hr]
          exact Or.inr rfl
    · have hrest := h.resting hp
      simp only [Resting, hpc] at hrest
      obtain ⟨hproc, hleft⟩ := hrest
      refine h.leave hp rfl rfl rfl rfl rfl ⟨hproc, ⟨hleft.cancelled, hleft.sem, hleft.old, hleft.unknown⟩⟩
        (fun _ hc => by simp [hleft.cancelled] at hc) (fun hph => absurd hph hproc) h.ran.1 (fun r hr => ?_)
        fun i e' a' hi => (right_ret (s := s)
          (t := { s with pc := .returned n e, side := a, results := s.results ++ [(n, e, a)] }) rfl rfl
          (hleft.unknown i hi) e' a').2
      rcases List.mem_append.1 hr with hr | hr
      · exact h.ran.2 r hr
      · rw [List.mem_singleton.1 hr]
        exact hleft.old
  all_goals simpa only [step, hpc] using h

theorem store_inv {s : St ε α} (h : Inv noError s) : Inv noError (step noError s .store) := by
  cases hpc : s.pc
  case returned n e =>
    simp only [step, hpc]
    by_cases hp : s.phase = .queued
    · obtain ⟨j, hj, hq, hrec, hhand⟩ := h.hand hp
      simp only [Hand, hpc] at hhand
      exact h.work hj hq hp hj hrec rfl rfl hhand (fun _ hn => Or.inl hn) (fun _ hr => Or.inl hr) fun _ _ _ _ hi => hi
    · have hrest := h.resting hp
      simp only [Resting, hpc] at hrest
      obtain ⟨hproc, hleft⟩ := hrest
      exact h.leave hp rfl rfl rfl rfl rfl ⟨hleft.cancelled, hleft.sem, hleft.old, hleft.unknown⟩
        (fun _ hc => by simp [hleft.cancelled] at hc) (fun hph => absurd hph hproc) h.ran.1 h.ran.2
        fun _ _ _ _ hi => hi
  all_goals simpa only [step, hpc] using h

theorem update_inv {s : St ε α} (h : Inv noError s) : Inv noError (step noError s .update) := by
  cases hpc : s.pc
  case stored n =>
    by_cases hp : s.phase = .queued
    · obtain ⟨j, hj, hq, hrec, hhand⟩ := h.hand hp
      simp only [Hand, hpc] at hhand
      obtain ⟨rfl, hserved, hsem⟩ := hhand
      simp only [step, hpc, hp, if_true]
      refine ⟨⟨j, hj, ?_, ?_⟩, h.asked, h.ran, h.answered, h.apart, h.once⟩
      · unfold Resting
        cases hs : s.stopping with
        | true => simp only [if_true]
        | false => simpa using hsem hs
      · unfold Right
        rw [if_pos hq]
        exact hserved
    · have hrest := h.resting hp
      simp only [Resting, hpc] at hrest
      simp only [step, hpc, if_neg hp]
      refine h.leave hp rfl rfl rfl rfl rfl ?_ (fun _ hc => ⟨rfl, hc⟩) (fun _ => ⟨rfl, rfl⟩) h.ran.1 h.ran.2
        fun _ _ _ _ hi => hi
      unfold Resting
      cases hs : s.stopping with
      | true => simp only [if_true]
      | false => simpa using hrest.sem hs
  all_goals simpa only [step, hpc] using h

/-- **Step.** -/
theorem step_inv (s : St ε α) (o : Op ε α) (h : Inv noError s) (hk : Keeps s o) : Inv noError (step noError s o) := by
  cases o with
  | submit queued own side => exact submit_inv h hk
  | poll => exact poll_inv h
  | cancel => exact cancel_inv h hk
  | stop => exact stop_inv h
  | wake => exact wake_inv h
  | read ok => exact read_inv h hk
  | call => exact call_inv h
  | ret e a => exact ret_inv h e a
  | store => exact store_inv h
  | update => exact update_inv h

/-! ## What it gives -/

/-- at rest: nothing asked, nothing run, the worker waiting -/
structure Init (s : St ε α) : Prop where
  phase : s.phase = .idle
  job : s.job = none
  record : s.record = none
  sem : s.sem = 0
  pc : s.pc = .waiting
  history : s.runs = [] ∧ s.results = [] ∧ s.answers = []

theorem inv_init {s : St ε α} (h : Init s) : Inv noError s := by
  obtain ⟨hp, hj, hrec, hsem, hpc, hruns, hres, hans⟩ := h
  have hknown : ∀ j, ¬Known s j := by
    rintro j (hj' | ⟨x, hx, -⟩)
    · simp [hj] at hj'
    · simp [hans] at hx
  refine ⟨?_, fun j hj' => absurd hj' (hknown j), by simp [hruns, hres], by simp [hans], by simp [hans], by simp [hans]⟩
  unfold Now
  rw [hp]
  exact ⟨hj, hrec, by simp [Resting, hpc, hsem], fun _ ha => absurd hans ha⟩

/-- the worker leaves its loop only after a stop -/
theorem Inv.exited {s : St ε α} (h : Inv noError s) (he : s.pc = .exited) : s.stopping = true := by
  by_cases hp : s.phase = .queued
  · obtain ⟨j, -, -, -, hhand⟩ := h.hand hp
    simpa only [Hand, he] using hhand
  · have hrest := h.resting hp
    simpa only [Resting, he] using hrest

/-- with no request asked nothing is queued or processed -/
theorem Inv.at_rest {s : St ε α} (h : Inv noError s) (hj : s.job = none) : s.phase = .idle ∧ s.record = none := by
  have hn := h.now
  unfold Now at hn
  cases hp : s.phase with
  | idle =>
    simp only [hp] at hn
    exact ⟨rfl, hn.2.1⟩
  | queued =>
    simp only [hp] at hn
    obtain ⟨j, hj', -⟩ := hn
    rw [hj] at hj'
    contradiction
  | processed =>
    simp only [hp] at hn
    obtain ⟨j, hj', -⟩ := hn
    rw [hj] at hj'
    contradiction

/-- without a cancellation the worker has nothing left to do when nothing is queued -/
theorem Inv.waiting {s : St ε α} (h : Inv noError s) (hc : s.cancelled = false) (hs : s.stopping = false)
    (hp : s.phase ≠ .queued) : s.pc = .waiting ∧ s.sem = 0 := by
  have hrest := h.resting hp
  unfold Resting at hrest
  cases hpc : s.pc <;> simp only [hpc] at hrest
  case waiting => exact ⟨rfl, hrest hs⟩
  case woken => simp [hrest] at hs
  case exited => simp [hrest] at hs
  case stored n => simp [hrest.cancelled] at hc
  all_goals simp [hrest.2.cancelled] at hc

end Handshake

end Lib
