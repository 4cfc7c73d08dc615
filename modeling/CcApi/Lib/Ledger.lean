/-
A ledger of what was acquired and released.

Objects (blocks, locks, handles) are named by the number of their acquisition, so a name is never given out twice.
`releases` lists the names given back, in order; a name may stand in it twice, or without having been acquired.

- `Live`: acquired and not given back.
- `Sound`: only what was acquired was given back, and nothing twice.
- `Owns`: the ledger is sound, and the names of a list are live, each held once.
- `Owns.acquire`, `Owns.give`: what a holder of names may do and still hold the rest.
- `Within`: what is given back of one holder's names, among all that is given back.
- `Clean`: of the accesses of a piece of code, none names what was given back before it.
-/
import Mathlib.Tactic

namespace Lib

structure Ledger where
  /-- the name of the next object -/
  next : ℕ
  /-- what was given back, in order -/
  releases : List ℕ
deriving DecidableEq, Repr

namespace Ledger

def empty : Ledger := ⟨0, []⟩

/-- ask for an object; ok says whether there is one -/
def acquire (ok : Bool) (l : Ledger) : Option ℕ × Ledger :=
  if ok then (some l.next, { l with next := l.next + 1 }) else (none, l)

def release (b : ℕ) (l : Ledger) : Ledger := { l with releases := l.releases ++ [b] }

/-- give several objects back, in order -/
def releaseAll (bs : List ℕ) (l : Ledger) : Ledger := { l with releases := l.releases ++ bs }

/-- acquired and not given back -/
def Live (l : Ledger) (b : ℕ) : Prop := b < l.next ∧ b ∉ l.releases

instance (l : Ledger) (b : ℕ) : Decidable (l.Live b) := inferInstanceAs (Decidable (_ ∧ _))

@[simp] theorem acquire_true (l : Ledger) : l.acquire true = (some l.next, { l with next := l.next + 1 }) := rfl
@[simp] theorem acquire_false (l : Ledger) : l.acquire false = (none, l) := rfl
@[simp] theorem release_next (b : ℕ) (l : Ledger) : (l.release b).next = l.next := rfl
@[simp] theorem release_releases (b : ℕ) (l : Ledger) : (l.release b).releases = l.releases ++ [b] := rfl
@[simp] theorem releaseAll_next (bs : List ℕ) (l : Ledger) : (l.releaseAll bs).next = l.next := rfl
@[simp] theorem releaseAll_releases (bs : List ℕ) (l : Ledger) : (l.releaseAll bs).releases = l.releases ++ bs := rfl
@[simp] theorem releaseAll_nil (l : Ledger) : l.releaseAll [] = l := by simp [releaseAll]

theorem acquire_next_le (ok : Bool) (l : Ledger) : l.next ≤ (l.acquire ok).2.next := by
  cases ok
  · exact le_rfl
  · exact Nat.le_succ _

@[simp] theorem acquire_releases (ok : Bool) (l : Ledger) : (l.acquire ok).2.releases = l.releases := by
  cases ok <;> rfl

/-! ## Sound ledgers -/

/-- only what was acquired was given back, and nothing twice -/
structure Sound (l : Ledger) : Prop where
  known : ∀ b ∈ l.releases, b < l.next
  once : l.releases.Nodup

theorem sound_empty : empty.Sound := ⟨by simp [empty], by simp [empty]⟩

theorem Sound.acquire {l : Ledger} (h : l.Sound) (ok : Bool) : (l.acquire ok).2.Sound := by
  constructor
  · intro b hb
    rw [acquire_releases] at hb
    exact (h.known b hb).trans_le (acquire_next_le ok l)
  · rw [acquire_releases]
    exact h.once

theorem Sound.release {l : Ledger} (h : l.Sound) {b : ℕ} (hb : l.Live b) : (l.release b).Sound := by
  constructor
  · intro c hc
    rcases List.mem_append.1 hc with hc | hc
    · exact h.known c hc
    · rw [List.mem_singleton.1 hc]
      exact hb.1
  · rw [release_releases, List.nodup_append]
    refine ⟨h.once, List.nodup_singleton b, ?_⟩
    intro c hc d hd
    rw [List.mem_singleton.1 hd]
    rintro rfl
    exact hb.2 hc

theorem Sound.releaseAll {l : Ledger} (h : l.Sound) {bs : List ℕ} (hb : ∀ b ∈ bs, l.Live b) (hn : bs.Nodup) :
    (l.releaseAll bs).Sound := by
  constructor
  · intro c hc
    rcases List.mem_append.1 hc with hc | hc
    · exact h.known c hc
    · exact (hb c hc).1
  · rw [releaseAll_releases, List.nodup_append]
    refine ⟨h.once, hn, ?_⟩
    intro c hc d hd
    rintro rfl
    exact (hb c hd).2 hc

/-! ## Holding names -/

/-- the names of os are live and held once each -/
structure Owns (l : Ledger) (os : List ℕ) : Prop where
  sound : l.Sound
  nodup : os.Nodup
  live : ∀ b ∈ os, l.Live b

theorem owns_empty : empty.Owns [] := ⟨sound_empty, List.nodup_nil, by simp⟩

theorem live_acquire {l : Ledger} {b : ℕ} (hb : l.Live b) (ok : Bool) : (l.acquire ok).2.Live b := by
  refine ⟨hb.1.trans_le (acquire_next_le ok l), ?_⟩
  rw [acquire_releases]
  exact hb.2

/-- a new name is held beside the others -/
theorem Owns.acquire {l : Ledger} {os : List ℕ} (h : l.Owns os) : (l.acquire true).2.Owns (l.next :: os) := by
  constructor
  case sound => exact h.sound.acquire true
  case nodup => exact List.nodup_cons.2 ⟨fun hm => lt_irrefl _ (h.live _ hm).1, h.nodup⟩
  case live =>
    intro b hb
    rcases List.mem_cons.1 hb with rfl | hb
    · exact ⟨Nat.lt_succ_self _, fun hm => lt_irrefl _ (h.sound.known _ hm)⟩
    · exact live_acquire (h.live b hb) true

/-- of what is held, bs is given back and os' kept; the rest is forgotten -/
theorem Owns.give {l : Ledger} {os : List ℕ} (h : l.Owns os) (bs os' : List ℕ)
    (hc : ∀ x, bs.count x + os'.count x ≤ os.count x) : (l.releaseAll bs).Owns os' := by
  have hone : ∀ x, os.count x ≤ 1 := List.nodup_iff_count_le_one.1 h.nodup
  have hbs : ∀ b ∈ bs, b ∈ os := by
    intro b hb
    have := List.count_pos_iff.2 hb
    exact List.count_pos_iff.1 (by have := hc b; omega)
  constructor
  case sound =>
    refine h.sound.releaseAll (fun b hb => h.live b (hbs b hb)) ?_
    rw [List.nodup_iff_count_le_one]
    intro x
    have := hc x
    have := hone x
    omega
  case nodup =>
    rw [List.nodup_iff_count_le_one]
    intro x
    have := hc x
    have := hone x
    omega
  case live =>
    intro b hb
    have hpos := List.count_pos_iff.2 hb
    have hle := hc b
    have h1 := hone b
    have hos : b ∈ os := List.count_pos_iff.1 (by omega)
    refine ⟨(h.live b hos).1, ?_⟩
    rw [releaseAll_releases, List.mem_append]
    rintro (hr | hr)
    · exact (h.live b hos).2 hr
    · have := List.count_pos_iff.2 hr
      omega

/-- what is held may be held in another order, or partly forgotten -/
theorem Owns.keep {l : Ledger} {os : List ℕ} (h : l.Owns os) (os' : List ℕ) (hc : ∀ x, os'.count x ≤ os.count x) :
    l.Owns os' := by
  have := h.give [] os' (by simpa using hc)
  rwa [releaseAll_nil] at this

/-! ## A part of what is given back -/

/-- of the names held, those of whole are in gone as often as they are in part -/
structure Within (gone held part whole : List ℕ) : Prop where
  least : ∀ b, part.count b ≤ gone.count b
  most : ∀ b, gone.count b + whole.count b ≤ held.count b + part.count b

theorem Within.refl (part whole : List ℕ) : Within part whole part whole :=
  ⟨fun _ => le_rfl, fun _ => (Nat.add_comm _ _).le⟩

/-- what else is given back is held beside it -/
theorem Within.mono {gone held part whole gone' held' : List ℕ} (h : Within gone held part whole)
    (hgone : ∀ b, gone.count b ≤ gone'.count b)
    (hheld : ∀ b, gone'.count b + held.count b ≤ gone.count b + held'.count b) : Within gone' held' part whole where
  least b := (h.least b).trans (hgone b)
  most b := by
    have := h.most b
    have := hheld b
    omega

theorem count_flatMap_le {α : Type*} {l : List α} {f g : α → List ℕ} (x : ℕ)
    (h : ∀ a ∈ l, (f a).count x ≤ (g a).count x) : (l.flatMap f).count x ≤ (l.flatMap g).count x := by
  induction l with
  | nil => simp
  | cons a l ih =>
    have h1 := h a List.mem_cons_self
    have h2 := ih fun b hb => h b (List.mem_cons_of_mem a hb)
    simp only [List.flatMap_cons, List.count_append]
    omega

/-- one of several holders, each of whom gives back what it holds at most -/
theorem Within.flatMap {α : Type*} {l : List α} {f g : α → List ℕ} {a : α} {part whole : List ℕ} (ha : a ∈ l)
    (h : Within (f a) (g a) part whole) (hle : ∀ c ∈ l, ∀ b, (f c).count b ≤ (g c).count b) :
    Within (l.flatMap f) (l.flatMap g) part whole := by
  obtain ⟨before, behind, rfl⟩ := List.append_of_mem ha
  refine h.mono (fun b => ?_) fun b => ?_
  all_goals simp only [List.flatMap_append, List.flatMap_cons, List.count_append]
  · omega
  · have h1 := count_flatMap_le (l := before) b fun c hc => hle c (List.mem_append_left _ hc) b
    have h2 := count_flatMap_le (l := behind) b fun c hc => hle c (List.mem_append_right _ (List.mem_cons_of_mem a hc)) b
    omega

/-- where nothing is held twice, a name of whole is given back as often as part says -/
theorem Within.count_eq {gone held part whole : List ℕ} (h : Within gone held part whole) (hnodup : held.Nodup) {b : ℕ}
    (hb : b ∈ whole) : gone.count b = part.count b := by
  have hone := List.nodup_iff_count_le_one.1 hnodup b
  have hpos := List.count_pos_iff.2 hb
  have hleast := h.least b
  have hmost := h.most b
  omega

/-! ## Accesses -/

/-- what a piece of code does to an object: it reads or writes it, or gives it back -/
inductive Access where
  | touch (b : ℕ)
  | release (b : ℕ)
deriving DecidableEq, Repr

/-- what a trace gives back, in order -/
def given : List Access → List ℕ
  | [] => []
  | .touch _ :: t => given t
  | .release b :: t => b :: given t

/-- no access names one of gone, or what the trace has given back before it -/
def Clean (gone : List ℕ) : List Access → Prop
  | [] => True
  | .touch b :: t => b ∉ gone ∧ Clean gone t
  | .release b :: t => b ∉ gone ∧ Clean (gone ++ [b]) t

@[simp] theorem given_nil : given [] = [] := rfl
@[simp] theorem given_touch (b : ℕ) (t : List Access) : given (.touch b :: t) = given t := rfl
@[simp] theorem given_release (b : ℕ) (t : List Access) : given (.release b :: t) = b :: given t := rfl

@[simp] theorem given_append (t u : List Access) : given (t ++ u) = given t ++ given u := by
  induction t with
  | nil => rfl
  | cons a t ih => cases a <;> simp [ih]

@[simp] theorem given_map_release (bs : List ℕ) : given (bs.map .release) = bs := by
  induction bs with
  | nil => rfl
  | cons b bs ih => simp [ih]

theorem clean_append {gone : List ℕ} {t u : List Access} :
    Clean gone (t ++ u) ↔ Clean gone t ∧ Clean (gone ++ given t) u := by
  induction t generalizing gone with
  | nil => simp [Clean]
  | cons a t ih => cases a <;> simp [Clean, ih, and_assoc]

/-- what is given back and named again is not clean -/
theorem not_clean_of_given {gone : List ℕ} {t u : List Access} {b : ℕ} (hb : b ∈ given t) :
    ¬ Clean gone (t ++ .touch b :: u) := fun h => by
  rw [clean_append] at h
  exact h.2.1 (List.mem_append_right _ hb)

end Ledger

end Lib
