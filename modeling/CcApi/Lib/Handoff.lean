/-
A one-slot hand-off from many sessions to one worker.

Each session has a context on the heap and a stage in it. A client thread fills the context (`idle`), declares it complete
(`ready`), and offers it to the worker when the slot is empty (`queued`): the slot then points to the context and the
worker's semaphore is raised. The worker takes the pointer, checks the context, calls the user with it, stores the
result, moves the stage to `processed`, and empties the slot. A context can be released at any time; what it held stays
readable, and the worker's accesses are recorded with whether the context was live.

- `step_inv`: releases of contexts that are not queued, and everything else, keep `Inv`.
- `Inv.safe`: the worker touches live contexts only and calls the user for live contexts only.
- `Inv.once`: no context is given to the user twice.
- `Inv.only`: a queued context is the one the slot points to, so none is displaced.
- `Grip.in_hand`: even where queued contexts are released, a live context in the worker's hand is queued.
- `view`: a service whose records carry the stage, seen as a hand-off.
- `Reaches`: the steps of the hand-off that a step of such a service is; they keep `Grip`, and `Inv` if they release no queued
  context.
- `Cell.Fresh`: the records are in blocks that have been allocated.
-/
import CcApi.Lib.Runs

namespace Lib

/-- the storage of a heap record; a release leaves its contents in place -/
inductive Cell (α : Type*) where
  | unallocated
  | live (a : α)
  | freed (a : α)
deriving DecidableEq, Repr

namespace Cell

variable {α β : Type*}

def isLive : Cell α → Bool
  | .live _ => true
  | _ => false

/-- what is read there -/
def val? : Cell α → Option α
  | .unallocated => none
  | .live a | .freed a => some a

def map (f : α → β) : Cell α → Cell β
  | .unallocated => .unallocated
  | .live a => .live (f a)
  | .freed a => .freed (f a)

def release : Cell α → Cell α
  | .live a => .freed a
  | c => c

@[simp] theorem isLive_map (f : α → β) (c : Cell α) : (c.map f).isLive = c.isLive := by cases c <;> rfl

@[simp] theorem val?_map (f : α → β) (c : Cell α) : (c.map f).val? = c.val?.map f := by cases c <;> rfl

@[simp] theorem map_release (f : α → β) (c : Cell α) : (c.release).map f = (c.map f).release := by cases c <;> rfl

theorem map_eq_live {f : α → β} {c : Cell α} {b : β} : c.map f = .live b ↔ ∃ a, c = .live a ∧ f a = b := by
  cases c <;> simp [map]

@[simp] theorem map_map {γ : Type*} (f : α → β) (g : β → γ) (c : Cell α) : (c.map f).map g = c.map (g ∘ f) := by
  cases c <;> rfl

theorem map_update {ι : Type*} [DecidableEq ι] (ctx : ι → Cell α) (i : ι) (c : Cell α) (f : α → β) :
    (fun j => (Function.update ctx i c j).map f) = Function.update (fun j => (ctx j).map f) i (c.map f) := by
  funext j
  by_cases h : j = i
  · subst h; simp
  · simp [Function.update_of_ne h]

/-- what holds of every cell and what is known with it, when a step touches cell c alone -/
theorem touch {ι : Type*} {ctx ctx' : ι → Cell α} {P P' : ι → Cell α → Prop} (c : ι) (hctx : ∀ i, i ≠ c → ctx' i = ctx i)
    (h : ∀ i, P i (ctx i)) (hothers : ∀ i, i ≠ c → P i (ctx i) → P' i (ctx i)) (hself : P' c (ctx' c)) (i : ι) :
    P' i (ctx' i) := by
  by_cases hic : i = c
  · rw [hic]
    exact hself
  · rw [hctx i hic]
    exact hothers i hic (h i)

/-- there is no record in a block that has not been allocated -/
def Fresh (ctx : ℕ → Cell α) (next : ℕ) : Prop := ∀ c, next ≤ c → ctx c = .unallocated

namespace Fresh

variable {ctx ctx' : ℕ → Cell α} {next next' c : ℕ} {x : Cell α} {a : α}

theorem lt (hf : Fresh ctx next) (hc : ctx c ≠ .unallocated) : c < next := by
  by_contra h
  exact hc (hf c (Nat.le_of_not_lt h))

theorem update (hf : Fresh ctx next) (hnext : next ≤ next') (hctx : ctx' = Function.update ctx c x)
    (hx : next' ≤ c → x = .unallocated) : Fresh ctx' next' := by
  intro i hi
  rw [hctx]
  by_cases hic : i = c
  · subst hic
    rw [Function.update_self]
    exact hx hi
  · rw [Function.update_of_ne hic]
    exact hf i (hnext.trans hi)

/-- a record that is there is rewritten, or released -/
theorem put (hf : Fresh ctx next) (hc : ctx c = .live a) (hnext : next ≤ next') (hctx : ctx' = Function.update ctx c x) :
    Fresh ctx' next' :=
  hf.update hnext hctx fun h => absurd (hf.lt (by simp [hc])) (not_lt.2 (hnext.trans h))

/-- a record is rewritten, whether it is there or not -/
theorem map (hf : Fresh ctx next) (hnext : next ≤ next') {f : α → α} (hctx : ctx' = Function.update ctx c ((ctx c).map f)) :
    Fresh ctx' next' :=
  hf.update hnext hctx fun h => by rw [hf c (hnext.trans h)]; rfl

end Fresh

end Cell

namespace Handoff

open Runs

variable {ι : Type*}

inductive Stage where
  | idle
  | ready
  | queued
  | processed
  | free
deriving DecidableEq, Repr

inductive Pc (ι : Type*) where
  | waiting
  | picked (i : ι)
  | checked (i : ι)
  | calling (i : ι)
  | returned (i : ι)
  | settled
  | exited
deriving DecidableEq, Repr

structure St (ι : Type*) where
  ctx : ι → Cell Stage
  slot : Option ι
  sem : ℕ
  pc : Pc ι
  /-- the worker's accesses to contexts, each with whether the context was live -/
  touches : List (ι × Bool)
  /-- the calls of the user, the same way -/
  calls : List (ι × Bool)

inductive Op (ι : Type*) where
  | create (i : ι)
  | ready (i : ι)
  | offer (i : ι)
  | finish (i : ι)
  | drop (i : ι)
  | release (i : ι)
  | wake
  | check (ok : Bool)
  | call
  | ret (touch : Bool)
  | settle
  | clear

variable [DecidableEq ι]

/-- the stage of a live context is moved from p to q -/
def St.move (s : St ι) (i : ι) (p q : Stage) : St ι :=
  if s.ctx i = .live p then { s with ctx := Function.update s.ctx i (.live q) } else s

/-- what the worker leaves behind when it is done with context i: it moves the stage it finds queued -/
def settled (c : Cell Stage) : Cell Stage := c.map fun p => if p = .queued then .processed else p

def step (s : St ι) : Op ι → St ι
  | .create i => if s.ctx i = .unallocated then { s with ctx := Function.update s.ctx i (.live .idle) } else s
  | .ready i => s.move i .idle .ready
  | .drop i => s.move i .idle .free
  | .finish i => s.move i .processed .free
  | .offer i =>
    if s.ctx i = .live .ready ∧ s.slot = none then
      { s with ctx := Function.update s.ctx i (.live .queued), slot := some i, sem := s.sem + 1 }
    else s
  | .release i => { s with ctx := Function.update s.ctx i (s.ctx i).release }
  | .wake =>
    match s.pc, s.sem with
    | .waiting, k + 1 =>
      match s.slot with
      | some i => { s with sem := k, pc := .picked i }
      | none => { s with sem := k, pc := .exited }
    | _, _ => s
  | .check ok =>
    match s.pc with
    | .picked i =>
      { s with touches := s.touches ++ [(i, (s.ctx i).isLive)],
               pc := if (s.ctx i).val? = some .queued ∧ ok = true then .checked i else .exited }
    | _ => s
  | .call =>
    match s.pc with
    | .checked i =>
      { s with touches := s.touches ++ [(i, (s.ctx i).isLive)], calls := s.calls ++ [(i, (s.ctx i).isLive)],
               pc := .calling i }
    | _ => s
  | .ret touch =>
    match s.pc with
    | .calling i =>
      { s with touches := s.touches ++ if touch then [(i, (s.ctx i).isLive)] else [], pc := .returned i }
    | _ => s
  | .settle =>
    match s.pc with
    | .returned i =>
      { s with touches := s.touches ++ [(i, (s.ctx i).isLive)], pc := .settled,
               ctx := Function.update s.ctx i (settled (s.ctx i)) }
    | _ => s
  | .clear =>
    match s.pc with
    | .settled => { s with slot := none, pc := .waiting }
    | _ => s

/-- a queued context is not released -/
def KeepsQueued (s : St ι) : Op ι → Prop
  | .release i => s.ctx i ≠ .live .queued
  | _ => True

/-! ## The invariant -/

/-- what the worker has in its hand -/
def Hand (s : St ι) : Prop :=
  match s.pc with
  | .waiting => (s.slot = none ∧ s.sem = 0) ∨ (∃ i, s.slot = some i ∧ s.sem = 1 ∧ s.ctx i = .live .queued)
  | .picked i | .checked i | .calling i | .returned i => s.slot = some i ∧ s.sem = 0 ∧ s.ctx i = .live .queued
  | .settled => s.slot ≠ none ∧ s.sem = 0 ∧ ∀ i, s.ctx i ≠ .live .queued
  | .exited => s.slot ≠ none

/-- how often the user may have been given a context, by its stage -/
def Given (s : St ι) (i : ι) (k : ℕ) : Prop :=
  match s.ctx i with
  | .unallocated | .live .idle | .live .ready => k = 0
  | .live .queued => k = if s.pc = .calling i ∨ s.pc = .returned i then 1 else 0
  | .live .processed => k = 1
  | .live .free | .freed _ => k ≤ 1

structure Inv (s : St ι) : Prop where
  hand : Hand s
  only : ∀ i, s.ctx i = .live .queued → s.slot = some i
  touched : ∀ t ∈ s.touches, t.2 = true
  called : ∀ t ∈ s.calls, t.2 = true
  given : ∀ i, Given s i ((s.calls.map Prod.fst).count i)

theorem Given.congr {s t : St ι} {i : ι} {k : ℕ} (h : Given s i k) (hctx : t.ctx i = s.ctx i)
    (hpc : (t.pc = .calling i ∨ t.pc = .returned i) ↔ (s.pc = .calling i ∨ s.pc = .returned i)) : Given t i k := by
  unfold Given at h ⊢
  rw [hctx]
  simpa only [hpc] using h

/-- the cell of a context that is not queued can be changed to one that is not queued -/
theorem Inv.update {s : St ι} (h : Inv s) {i : ι} {c : Cell Stage} (hi : s.ctx i ≠ .live .queued)
    (hc : c ≠ .live .queued)
    (hg : ∀ k, Given s i k → Given { s with ctx := Function.update s.ctx i c } i k) :
    Inv { s with ctx := Function.update s.ctx i c } := by
  have hne : ∀ j, s.ctx j = .live .queued → Function.update s.ctx i c j = .live .queued := by
    intro j hj
    have : j ≠ i := fun e => hi (e ▸ hj)
    rw [Function.update_of_ne this, hj]
  have hback : ∀ j, Function.update s.ctx i c j = .live .queued → s.ctx j = .live .queued := by
    intro j hj
    by_cases hij : j = i
    · subst hij
      rw [Function.update_self] at hj
      exact absurd hj hc
    · rwa [Function.update_of_ne hij] at hj
  refine ⟨?_, fun j hj => h.only j (hback j hj), h.touched, h.called, fun j => ?_⟩
  · have hh := h.hand
    unfold Hand at hh ⊢
    cases hpc : s.pc with
    | waiting =>
      simp only [hpc] at hh ⊢
      exact hh.imp id fun ⟨j, h1, h2, h3⟩ => ⟨j, h1, h2, hne j h3⟩
    | settled =>
      simp only [hpc] at hh ⊢
      exact ⟨hh.1, hh.2.1, fun j hj => hh.2.2 j (hback j hj)⟩
    | exited =>
      simp only [hpc] at hh ⊢
      exact hh
    | picked j | checked j | calling j | returned j =>
      simp only [hpc] at hh ⊢
      exact ⟨hh.1, hh.2.1, hne j hh.2.2⟩
  · by_cases hij : j = i
    · subst hij; exact hg _ (h.given j)
    · have := h.given j
      unfold Given at this ⊢
      simp only [Function.update_of_ne hij]
      exact this

theorem Inv.move {s : St ι} (h : Inv s) (i : ι) {p q : Stage} (hp : p ≠ .queued) (hq : q ≠ .queued)
    (hg : ∀ k, s.ctx i = .live p → Given s i k → Given { s with ctx := Function.update s.ctx i (.live q) } i k) :
    Inv (s.move i p q) := by
  unfold St.move
  split_ifs with hi
  · refine h.update (by simp [hi, hp]) (by simp [hq]) fun k hk => hg k hi hk
  · exact h

/-- a step of the worker that leaves contexts and slot alone -/
theorem Inv.advance {s t : St ι} (h : Inv s) (hctx : t.ctx = s.ctx) (hslot : t.slot = s.slot) (hhand : Hand t)
    (htouch : ∀ x ∈ t.touches, x ∈ s.touches ∨ x.2 = true) (hcall : ∀ x ∈ t.calls, x ∈ s.calls ∨ x.2 = true)
    (hgiven : ∀ i, Given t i ((t.calls.map Prod.fst).count i)) : Inv t :=
  ⟨hhand, fun i hi => by rw [hslot]; exact h.only i (hctx ▸ hi), fun x hx => (htouch x hx).elim (h.touched x) id,
    fun x hx => (hcall x hx).elim (h.called x) id, hgiven⟩

/-- what the worker has in its hand is queued -/
theorem Inv.in_hand {s : St ι} (h : Inv s) {i : ι}
    (hpc : s.pc = .picked i ∨ s.pc = .checked i ∨ s.pc = .calling i ∨ s.pc = .returned i) :
    s.slot = some i ∧ s.sem = 0 ∧ s.ctx i = .live .queued := by
  have hh := h.hand
  unfold Hand at hh
  rcases hpc with hpc | hpc | hpc | hpc <;> simpa only [hpc] using hh

theorem step_inv (s : St ι) (o : Op ι) (h : Inv s) (hC : KeepsQueued s o) : Inv (step s o) := by
  cases o with
  | create i =>
    simp only [step]
    split_ifs with hi
    · refine h.update (by simp [hi]) (by simp) fun k hk => ?_
      simpa [Given, hi] using hk
    · exact h
  | ready i => exact h.move i (by simp) (by simp) fun k hi hk => by simpa [Given, hi] using hk
  | drop i =>
    refine h.move i (by simp) (by simp) fun k hi hk => ?_
    simp only [Given, hi] at hk
    simp [Given, hk]
  | finish i =>
    refine h.move i (by simp) (by simp) fun k hi hk => ?_
    simp only [Given, hi] at hk
    simp [Given, hk]
  | offer i =>
    simp only [step]
    split_ifs with hi
    · obtain ⟨hi, hslot⟩ := hi
      have hh := h.hand
      unfold Hand at hh
      -- only a waiting worker leaves the slot empty
      cases hpc : s.pc <;> simp only [hpc, hslot] at hh
      case waiting =>
        have hsem : s.sem = 0 := by simpa using hh
        refine ⟨?_, fun j hj => ?_, h.touched, h.called, fun j => ?_⟩
        · exact Or.inr ⟨i, rfl, by rw [hsem], by simp⟩
        · by_cases hij : j = i
          · rw [hij]
          · simp only [Function.update_of_ne hij] at hj
            have := h.only j hj
            rw [hslot] at this
            contradiction
        · have hg := h.given j
          unfold Given at hg ⊢
          by_cases hij : j = i
          · subst hij
            simp only [hi] at hg
            simp [hg]
          · simp only [Function.update_of_ne hij]
            rwa [hpc] at hg
      all_goals simp at hh
    · exact h
  | release i =>
    have hi : s.ctx i ≠ .live .queued := hC
    refine h.update hi ?_ fun k hk => ?_
    · cases hc : s.ctx i <;> simp [Cell.release]
    · unfold Given at hk ⊢
      simp only [Function.update_self]
      cases hc : s.ctx i with
      | unallocated => simpa [Cell.release, hc] using hk
      | freed p => simpa [Cell.release, hc] using hk
      | live p =>
        simp only [hc] at hk
        cases p <;> simp [Cell.release] at hi hk ⊢ <;> first | omega | contradiction
  | wake =>
    simp only [step]
    split
    · rename_i k hpc hsem
      have hh := h.hand
      unfold Hand at hh
      simp only [hpc, hsem] at hh
      obtain ⟨-, h0⟩ | ⟨i, hslot, hk, hi⟩ := hh
      · omega
      · rw [hslot]
        dsimp only
        exact h.advance rfl hslot.symm ⟨rfl, by simpa using hk, hi⟩ (fun t ht => Or.inl ht) (fun t ht => Or.inl ht)
          fun j => (h.given j).congr rfl (by simp [hpc])
    · exact h
  | check ok =>
    simp only [step]
    split
    · rename_i i hpc
      obtain ⟨hslot, hsem, hi⟩ := h.in_hand (Or.inl hpc)
      refine h.advance rfl rfl ?_ (fun t ht => ?_) (fun t ht => Or.inl ht) fun j => ?_
      · split_ifs
        · exact ⟨hslot, hsem, hi⟩
        · exact fun e => by rw [e] at hslot; contradiction
      · exact (List.mem_append.1 ht).imp id fun ht => by rw [List.mem_singleton.1 ht, hi]; rfl
      · refine (h.given j).congr rfl ?_
        by_cases hok : (s.ctx i).val? = some .queued ∧ ok = true <;> simp [hok, hpc]
    · exact h
  | call =>
    simp only [step]
    split
    · rename_i i hpc
      obtain ⟨hslot, hsem, hi⟩ := h.in_hand (Or.inr (Or.inl hpc))
      refine h.advance rfl rfl ⟨hslot, hsem, hi⟩ (fun t ht => ?_) (fun t ht => ?_) fun j => ?_
      · exact (List.mem_append.1 ht).imp id fun ht => by rw [List.mem_singleton.1 ht, hi]; rfl
      · exact (List.mem_append.1 ht).imp id fun ht => by rw [List.mem_singleton.1 ht, hi]; rfl
      · have hg := h.given j
        unfold Given at hg ⊢
        by_cases hij : j = i
        · subst hij
          simp only [hi, hpc] at hg ⊢
          simp at hg
          simp [hg]
        · have hji : i ≠ j := fun e => hij e.symm
          simpa [hpc, hij, hji] using hg
    · exact h
  | ret touch =>
    simp only [step]
    split
    · rename_i i hpc
      obtain ⟨hslot, hsem, hi⟩ := h.in_hand (Or.inr (Or.inr (Or.inl hpc)))
      refine h.advance rfl rfl ⟨hslot, hsem, hi⟩ (fun t ht => ?_) (fun t ht => Or.inl ht) fun j => ?_
      · refine (List.mem_append.1 ht).imp id fun ht => ?_
        split_ifs at ht
        · rw [List.mem_singleton.1 ht, hi]; rfl
        · simp at ht
      · exact (h.given j).congr rfl (by simp [hpc])
    · exact h
  | settle =>
    simp only [step]
    split
    · rename_i i hpc
      obtain ⟨hslot, hsem, hi⟩ := h.in_hand (Or.inr (Or.inr (Or.inr hpc)))
      have hc : settled (s.ctx i) = .live .processed := by rw [hi]; rfl
      have hq : ∀ j, Function.update s.ctx i (.live .processed) j ≠ .live .queued := by
        intro j hj
        by_cases hij : j = i
        · subst hij; simp at hj
        · rw [Function.update_of_ne hij] at hj
          have := h.only j hj
          rw [hslot, Option.some.injEq] at this
          exact hij this.symm
      rw [hc]
      refine ⟨⟨by simp [hslot], hsem, hq⟩, fun j hj => absurd hj (hq j), fun t ht => ?_, h.called, fun j => ?_⟩
      · rcases List.mem_append.1 ht with ht | ht
        · exact h.touched t ht
        · rw [List.mem_singleton.1 ht, hi]; rfl
      · have hg := h.given j
        unfold Given at hg ⊢
        by_cases hij : j = i
        · subst hij
          simp only [hi, hpc] at hg
          simpa using hg
        · have hji : i ≠ j := fun e => hij e.symm
          simp only [Function.update_of_ne hij]
          simpa [hpc, hji] using hg
    · exact h
  | clear =>
    simp only [step]
    split
    · rename_i hpc
      have hh := h.hand
      unfold Hand at hh
      simp only [hpc] at hh
      exact ⟨Or.inl ⟨rfl, hh.2.1⟩, fun j hj => absurd hj (hh.2.2 j), h.touched, h.called,
        fun j => (h.given j).congr rfl (by simp [hpc])⟩
    · exact h

/-! ## What it gives -/

structure Init (s : St ι) : Prop where
  ctx : ∀ i, s.ctx i = .unallocated
  slot : s.slot = none
  sem : s.sem = 0
  pc : s.pc = .waiting
  touches : s.touches = []
  calls : s.calls = []

theorem inv_init {s : St ι} (h : Init s) : Inv s := by
  refine ⟨?_, fun i hi => ?_, ?_, ?_, fun i => ?_⟩
  · unfold Hand
    simp only [h.pc]
    exact Or.inl ⟨h.slot, h.sem⟩
  · rw [h.ctx] at hi; contradiction
  · simp [h.touches]
  · simp [h.calls]
  · simp [Given, h.ctx, h.calls]

/-- no context is given to the user twice -/
theorem Inv.once {s : St ι} (h : Inv s) (i : ι) : (s.calls.map Prod.fst).count i ≤ 1 := by
  have hg := h.given i
  unfold Given at hg
  split at hg <;> first | omega | (split_ifs at hg <;> omega)

/-! ## Whatever is released

A queued context may be released under the worker's hands. What the worker has is then that context, queued or gone. -/

/-- the context is queued, or released -/
def Caught (c : Cell Stage) : Prop := c = .live .queued ∨ ∃ p, c = .freed p

theorem Caught.live {p : Stage} (h : Caught (.live p)) : p = .queued := by
  rcases h with h | ⟨q, h⟩
  · exact Cell.live.inj h
  · cases h

def Grip (s : St ι) : Prop :=
  match s.pc with
  | .waiting => (s.slot = none ∧ s.sem = 0) ∨ ∃ i, s.slot = some i ∧ s.sem = 1 ∧ Caught (s.ctx i)
  | .picked i | .checked i | .calling i | .returned i => s.slot = some i ∧ s.sem = 0 ∧ Caught (s.ctx i)
  | .settled => s.slot ≠ none ∧ s.sem = 0
  | .exited => s.slot ≠ none

omit [DecidableEq ι] in
theorem grip_init {s : St ι} (h : Init s) : Grip s := by
  unfold Grip
  rw [h.pc]
  exact .inl ⟨h.slot, h.sem⟩

theorem Inv.grip {s : St ι} (h : Inv s) : Grip s := by
  have hh := h.hand
  unfold Hand at hh
  unfold Grip
  cases hpc : s.pc with
  | waiting =>
    simp only [hpc] at hh ⊢
    exact hh.imp id fun ⟨i, hslot, hsem, hi⟩ => ⟨i, hslot, hsem, .inl hi⟩
  | picked i | checked i | calling i | returned i =>
    simp only [hpc] at hh ⊢
    exact ⟨hh.1, hh.2.1, .inl hh.2.2⟩
  | settled =>
    simp only [hpc] at hh ⊢
    exact ⟨hh.1, hh.2.1⟩
  | exited =>
    simp only [hpc] at hh ⊢
    exact hh

omit [DecidableEq ι] in
/-- a change of contexts that leaves what is caught caught -/
theorem Grip.congr {s t : St ι} (h : Grip s) (hslot : t.slot = s.slot) (hsem : t.sem = s.sem) (hpc : t.pc = s.pc)
    (hctx : ∀ i, Caught (s.ctx i) → Caught (t.ctx i)) : Grip t := by
  unfold Grip at h ⊢
  rw [hpc, hslot, hsem]
  cases hs : s.pc with
  | waiting =>
    simp only [hs] at h ⊢
    exact h.imp id fun ⟨i, h₁, h₂, h₃⟩ => ⟨i, h₁, h₂, hctx i h₃⟩
  | picked i | checked i | calling i | returned i =>
    simp only [hs] at h ⊢
    exact ⟨h.1, h.2.1, hctx i h.2.2⟩
  | settled | exited =>
    simp only [hs] at h ⊢
    exact h

theorem Caught.update {ctx : ι → Cell Stage} {i j : ι} {c : Cell Stage} (h : Caught (ctx j)) (hi : ¬ Caught (ctx i)) :
    Caught (Function.update ctx i c j) := by
  have hne : j ≠ i := fun hji => hi (hji ▸ h)
  rwa [Function.update_of_ne hne]

theorem Grip.move {s : St ι} (h : Grip s) (i : ι) {p q : Stage} (hp : p ≠ .queued) : Grip (s.move i p q) := by
  unfold St.move
  split_ifs with hi
  · exact h.congr rfl rfl rfl fun j hj => hj.update fun hc => hp (hi ▸ hc).live
  · exact h

theorem Caught.release {ctx : ι → Cell Stage} {i j : ι} (h : Caught (ctx j)) :
    Caught (Function.update ctx i (ctx i).release j) := by
  by_cases hij : j = i
  · subst hij
    rw [Function.update_self]
    rcases h with h | ⟨p, h⟩
    · exact .inr ⟨.queued, by rw [h]; rfl⟩
    · exact .inr ⟨p, by rw [h]; rfl⟩
  · rwa [Function.update_of_ne hij]

omit [DecidableEq ι] in
/-- what the worker has in its hand, as far as it is still live, is queued -/
theorem Grip.in_hand {s : St ι} (h : Grip s) {i : ι}
    (hpc : s.pc = .picked i ∨ s.pc = .checked i ∨ s.pc = .calling i ∨ s.pc = .returned i) :
    s.slot = some i ∧ s.sem = 0 ∧ Caught (s.ctx i) := by
  unfold Grip at h
  rcases hpc with hpc | hpc | hpc | hpc <;> simpa only [hpc] using h

theorem step_grip (s : St ι) (o : Op ι) (h : Grip s) : Grip (step s o) := by
  cases o with
  | create i =>
    simp only [step]
    split_ifs with hi
    · refine h.congr rfl rfl rfl fun j hj => hj.update ?_
      rw [hi]
      rintro (hq | ⟨p, hf⟩)
      · cases hq
      · cases hf
    · exact h
  | ready i | drop i | finish i => exact h.move i (by simp)
  | offer i =>
    simp only [step]
    split_ifs with hi
    · -- only a waiting worker leaves the slot empty
      unfold Grip at h ⊢
      cases hpc : s.pc <;> simp only [hpc, hi.2] at h
      case waiting =>
        have hsem : s.sem = 0 := by simpa using h
        exact .inr ⟨i, rfl, by rw [hsem], .inl (Function.update_self _ _ _)⟩
      all_goals simp at h
    · exact h
  | release i => exact h.congr rfl rfl rfl fun j hj => hj.release
  | wake =>
    simp only [step]
    split
    · rename_i k hpc hsem
      unfold Grip at h
      simp only [hpc, hsem] at h
      obtain ⟨-, h0⟩ | ⟨i, hslot, hk, hi⟩ := h
      · omega
      · rw [hslot]
        exact ⟨rfl, by simpa using hk, hi⟩
    · exact h
  | check ok =>
    simp only [step]
    split
    · rename_i i hpc
      obtain ⟨hslot, hsem, hi⟩ := h.in_hand (.inl hpc)
      unfold Grip
      by_cases hok : (s.ctx i).val? = some .queued ∧ ok = true
      · simp only [hok, and_self, if_true]
        exact ⟨hslot, hsem, hi⟩
      · simp only [hok, if_false]
        rw [hslot]
        exact Option.some_ne_none i
    · exact h
  | call =>
    simp only [step]
    split
    · rename_i i hpc
      exact h.in_hand (.inr (.inl hpc))
    · exact h
  | ret touch =>
    simp only [step]
    split
    · rename_i i hpc
      exact h.in_hand (.inr (.inr (.inl hpc)))
    · exact h
  | settle =>
    simp only [step]
    split
    · rename_i i hpc
      obtain ⟨hslot, hsem, -⟩ := h.in_hand (.inr (.inr (.inr hpc)))
      exact ⟨by rw [hslot]; exact Option.some_ne_none i, hsem⟩
    · exact h
  | clear =>
    simp only [step]
    split
    · rename_i hpc
      unfold Grip at h
      simp only [hpc] at h
      exact .inl ⟨rfl, h.2⟩
    · exact h

/-! ## Services

A service keeps records in its contexts, and the stage is read off the record. `view` is the hand-off such a service is;
the lemmas say which hand-off step a change of one record is. -/

section View

variable {α : Type*} (stage : α → Stage)

def view (ctx : ι → Cell α) (slot : Option ι) (sem : ℕ) (pc : Pc ι) (touches calls : List (ι × Bool)) : St ι :=
  { ctx := fun i => (ctx i).map stage, slot := slot, sem := sem, pc := pc, touches := touches, calls := calls }

/-- t is reached from s, and if spares holds, by steps that release no queued context -/
def Reaches (spares : Prop) (s t : St ι) : Prop := ∃ l, t = run step s l ∧ (spares → Along step KeepsQueued s l)

section Reaches

variable {spares : Prop} {s t u : St ι}

theorem Reaches.refl (s : St ι) : Reaches spares s s := ⟨[], rfl, fun _ => trivial⟩

theorem Reaches.one (o : Op ι) (h : t = step s o) (hk : spares → KeepsQueued s o := by exact fun _ => trivial) :
    Reaches spares s t :=
  ⟨[o], h, fun hs => ⟨hk hs, trivial⟩⟩

theorem Reaches.trans (h : Reaches spares s t) (h' : Reaches spares t u) : Reaches spares s u := by
  obtain ⟨l, rfl, hl⟩ := h
  obtain ⟨l', rfl, hl'⟩ := h'
  exact ⟨l ++ l', (run_append s l l').symm, fun hs => (along_append KeepsQueued s l l').2 ⟨hl hs, hl' hs⟩⟩

theorem Reaches.inv (hr : Reaches spares s t) (hs : spares) (h : Inv s) : Inv t := by
  obtain ⟨l, rfl, hl⟩ := hr
  exact run_inv step_inv h (hl hs)

theorem Reaches.grip (hr : Reaches spares s t) (h : Grip s) : Grip t := by
  obtain ⟨l, rfl, -⟩ := hr
  exact run_inv_all step_grip h l

end Reaches

variable {stage} {ctx : ι → Cell α} {slot : Option ι} {sem : ℕ} {pc : Pc ι} {touches calls : List (ι × Bool)} {i : ι}
  {a a' : α}

/-- a record rewritten within its stage is no step -/
theorem view_same (hc : ctx i = .live a) (h : stage a' = stage a) :
    view stage (Function.update ctx i (.live a')) slot sem pc touches calls = view stage ctx slot sem pc touches calls := by
  simp only [view, Cell.map_update]
  congr 1
  refine Function.update_eq_self_iff.2 ?_
  simp [hc, Cell.map, h]

theorem view_move {p q : Stage} (hc : ctx i = .live a) (hp : stage a = p) (hq : stage a' = q) :
    view stage (Function.update ctx i (.live a')) slot sem pc touches calls =
      (view stage ctx slot sem pc touches calls).move i p q := by
  have hlive : (view stage ctx slot sem pc touches calls).ctx i = .live p := by simp [view, hc, Cell.map, hp]
  have hval : (Cell.live a').map stage = .live q := by simp [Cell.map, hq]
  rw [St.move, if_pos hlive]
  simp only [view, Cell.map_update, hval]

theorem view_create (hc : ctx i = .unallocated) (h : stage a = .idle) :
    view stage (Function.update ctx i (.live a)) slot sem pc touches calls =
      step (view stage ctx slot sem pc touches calls) (.create i) := by
  have hnew : (view stage ctx slot sem pc touches calls).ctx i = .unallocated := by simp [view, hc, Cell.map]
  have hval : (Cell.live a).map stage = .live .idle := by simp [Cell.map, h]
  rw [step, if_pos hnew]
  simp only [view, Cell.map_update, hval]

theorem view_offer (hc : ctx i = .live a) (h : stage a = .ready) (h' : stage a' = .queued) :
    view stage (Function.update ctx i (.live a')) (some i) (sem + 1) pc touches calls =
      step (view stage ctx none sem pc touches calls) (.offer i) := by
  have hready : (view stage ctx none sem pc touches calls).ctx i = .live .ready ∧
      (view stage ctx none sem pc touches calls).slot = none := by simp [view, hc, Cell.map, h]
  have hval : (Cell.live a').map stage = .live .queued := by simp [Cell.map, h']
  rw [step, if_pos hready]
  simp only [view, Cell.map_update, hval]

theorem view_release (hc : ctx i = .live a) (h : stage a' = stage a) :
    view stage (Function.update ctx i (.freed a')) slot sem pc touches calls =
      step (view stage ctx slot sem pc touches calls) (.release i) := by
  have hval : (Cell.freed a').map stage = ((ctx i).map stage).release := by simp [hc, Cell.map, Cell.release, h]
  simp only [step, view, Cell.map_update, hval]

/-- what the worker has in its hand is a live record of a queued context -/
theorem Inv.view_in_hand (h : Inv (view stage ctx slot sem pc touches calls))
    (hpc : pc = .picked i ∨ pc = .checked i ∨ pc = .calling i ∨ pc = .returned i) :
    slot = some i ∧ ∃ a, ctx i = .live a ∧ stage a = .queued := by
  obtain ⟨hslot, -, hc⟩ := h.in_hand hpc
  exact ⟨hslot, Cell.map_eq_live.1 hc⟩

omit [DecidableEq ι] in
/-- what the worker has in its hand is a record of a queued context, or one that has been released -/
theorem Grip.view_in_hand (h : Grip (view stage ctx slot sem pc touches calls))
    (hpc : pc = .picked i ∨ pc = .checked i ∨ pc = .calling i ∨ pc = .returned i) :
    ∃ a, ctx i = .freed a ∨ (ctx i = .live a ∧ stage a = .queued) := by
  obtain ⟨-, -, hc⟩ := h.in_hand hpc
  simp only [view] at hc
  cases ha : ctx i with
  | unallocated => simp [ha, Cell.map, Caught] at hc
  | freed a => exact ⟨a, .inl rfl⟩
  | live a =>
    rw [ha] at hc
    exact ⟨a, .inr ⟨rfl, hc.live⟩⟩

omit [DecidableEq ι] in
/-- the release of a record whose context is not queued -/
theorem view_spares (hc : ctx i = .live a) (h : stage a ≠ .queued) :
    KeepsQueued (view stage ctx slot sem pc touches calls) (.release i) := by
  simpa [KeepsQueued, view, hc, Cell.map] using h

/-- what the worker does to the record of a queued context when it is done with it -/
theorem settled_map {f : α → α} (h : ∀ a, stage (f a) = if stage a = .queued then .processed else stage a) (c : Cell α) :
    c.map (stage ∘ f) = settled (c.map stage) := by
  cases c <;> simp [Cell.map, settled, h]

omit [DecidableEq ι] in
theorem init_view (hctx : ∀ i, ctx i = .unallocated) (hslot : slot = none) (hsem : sem = 0) (hpc : pc = .waiting)
    (htouches : touches = []) (hcalls : calls = []) : Init (view stage ctx slot sem pc touches calls) := by
  refine ⟨fun i => ?_, hslot, hsem, hpc, htouches, hcalls⟩
  simp [view, hctx, Cell.map]

end View

end Handoff

end Lib
