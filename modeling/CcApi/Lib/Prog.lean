/-
Programs over a state that may stop with an error, and rules for what they do to the state.

A program takes a state and gives back a state, also when it stops: what was done before the error stays done.

- `wp`: every outcome of a program from a state meets its postcondition; `wp_bind` is the sequence rule.
- `Relates`: a relation between the states before and after a program, whatever its outcome; `relates_bind` is its sequence
  rule.
-/
import Mathlib.Tactic

namespace Lib

/-- a program with states σ, errors ε and results α -/
def Prog (σ ε α : Type) : Type := σ → Except ε α × σ

namespace Prog

variable {σ ε α β τ : Type}

instance : Monad (Prog σ ε) where
  pure a s := (.ok a, s)
  bind m f s :=
    match m s with
    | (.ok a, t) => f a t
    | (.error e, t) => (.error e, t)

def get : Prog σ ε σ := fun s => (.ok s, s)

def modify (f : σ → σ) : Prog σ ε Unit := fun s => (.ok (), f s)

def throw (e : ε) : Prog σ ε α := fun s => (.error e, s)

/-- run a program over a part of the state, given how to put the part back and what its errors are called -/
def zoom {σ' ε' : Type} (part : σ → σ') (put : σ' → σ → σ) (err : ε' → ε) (m : Prog σ' ε' α) : Prog σ ε α := fun s =>
  match m (part s) with
  | (.ok a, t) => (.ok a, put t s)
  | (.error e, t) => (.error (err e), put t s)

/-! ## Postconditions -/

/-- whatever m does from s: a result and its state meet Q, an error and its state meet E -/
def wp (m : Prog σ ε α) (Q : α → σ → Prop) (E : ε → σ → Prop) (s : σ) : Prop :=
  match m s with
  | (.ok a, t) => Q a t
  | (.error e, t) => E e t

variable {Q : α → σ → Prop} {E : ε → σ → Prop} {s : σ}

@[simp] theorem wp_pure (a : α) : wp (pure a) Q E s ↔ Q a s := Iff.rfl

@[simp] theorem wp_get {Q : σ → σ → Prop} : wp get Q E s ↔ Q s s := Iff.rfl

@[simp] theorem wp_modify {Q : Unit → σ → Prop} (f : σ → σ) : wp (modify f) Q E s ↔ Q () (f s) := Iff.rfl

@[simp] theorem wp_throw (e : ε) : wp (throw e : Prog σ ε α) Q E s ↔ E e s := Iff.rfl

/-- **Sequence rule.** -/
@[simp] theorem wp_bind (m : Prog σ ε α) (f : α → Prog σ ε β) {Q : β → σ → Prop} :
    wp (m >>= f) Q E s ↔ wp m (fun a t => wp (f a) Q E t) E s := by
  unfold wp
  change (match (match m s with
    | (.ok a, t) => f a t
    | (.error e, t) => (.error e, t)) with
    | (.ok b, t) => Q b t
    | (.error e, t) => E e t) ↔ _
  rcases m s with ⟨_ | a, t⟩ <;> rfl

@[simp] theorem wp_ite {c : Prop} [Decidable c] (m m' : Prog σ ε α) :
    wp (if c then m else m') Q E s ↔ if c then wp m Q E s else wp m' Q E s := by
  split_ifs <;> rfl

theorem wp_zoom {σ' ε' : Type} {part : σ → σ'} {put : σ' → σ → σ} {err : ε' → ε} (m : Prog σ' ε' α) :
    wp (zoom part put err m) Q E s ↔ wp m (fun a t => Q a (put t s)) (fun e t => E (err e) (put t s)) (part s) := by
  unfold wp zoom
  rcases m (part s) with ⟨_ | a, t⟩ <;> rfl

theorem wp_mono {m : Prog σ ε α} {Q' : α → σ → Prop} {E' : ε → σ → Prop} (h : wp m Q E s)
    (hQ : ∀ a t, Q a t → Q' a t) (hE : ∀ e t, E e t → E' e t) : wp m Q' E' s := by
  unfold wp at h ⊢
  rcases hm : m s with ⟨_ | a, t⟩
  · rw [hm] at h
    exact hE _ t h
  · rw [hm] at h
    exact hQ a t h

theorem wp_and {m : Prog σ ε α} {Q' : α → σ → Prop} {E' : ε → σ → Prop} (h : wp m Q E s) (h' : wp m Q' E' s) :
    wp m (fun a t => Q a t ∧ Q' a t) (fun e t => E e t ∧ E' e t) s := by
  unfold wp at h h' ⊢
  rcases hm : m s with ⟨_ | a, t⟩
  · rw [hm] at h h'
    exact ⟨h, h'⟩
  · rw [hm] at h h'
    exact ⟨h, h'⟩

/-- a postcondition that names the outcome -/
theorem eq_of_wp {m : Prog σ ε α} {r : α} {t : σ} (h : wp m (fun a u => a = r ∧ u = t) (fun _ _ => False) s) :
    m s = (.ok r, t) := by
  unfold wp at h
  rcases hm : m s with ⟨_ | a, u⟩
  · rw [hm] at h
    exact h.elim
  · rw [hm] at h
    rw [h.1, h.2]

/-- every program meets what is true of everything -/
theorem wp_of_forall {m : Prog σ ε α} (hQ : ∀ a t, Q a t) (hE : ∀ e t, E e t) : wp m Q E s := by
  unfold wp
  split
  · exact hQ _ _
  · exact hE _ _

/-! ## Relations -/

/-- whatever m does, R holds between the state it begins in and the state it leaves -/
def Relates (R : σ → σ → Prop) (m : Prog σ ε α) : Prop := ∀ s, wp m (fun _ t => R s t) (fun _ t => R s t) s

section
variable {R : σ → σ → Prop}

theorem relates_pure (hrefl : ∀ s, R s s) (a : α) : Relates R (pure a : Prog σ ε α) := fun s => hrefl s

theorem relates_get (hrefl : ∀ s, R s s) : Relates R (get : Prog σ ε σ) := fun s => hrefl s

theorem relates_throw (hrefl : ∀ s, R s s) (e : ε) : Relates R (throw e : Prog σ ε α) := fun s => hrefl s

theorem relates_modify {f : σ → σ} (h : ∀ s, R s (f s)) : Relates R (modify f : Prog σ ε Unit) := fun s => h s

/-- **Sequence rule for relations.** -/
theorem relates_bind (htrans : ∀ s t u, R s t → R t u → R s u) {m : Prog σ ε α} {g : α → Prog σ ε β} (hm : Relates R m)
    (hg : ∀ a, Relates R (g a)) : Relates R (m >>= g) := by
  intro s
  rw [wp_bind]
  refine wp_mono (hm s) (fun a t ht => ?_) fun _ _ ht => ht
  exact wp_mono (hg a t) (fun _ u hu => htrans s t u ht hu) fun _ u hu => htrans s t u ht hu

theorem relates_ite {c : Prop} [Decidable c] {m m' : Prog σ ε α} (h : Relates R m) (h' : Relates R m') :
    Relates R (if c then m else m') := by
  split_ifs
  · exact h
  · exact h'

end

end Prog

end Lib
