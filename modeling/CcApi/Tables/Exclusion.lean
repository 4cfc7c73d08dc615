/-
What the two lists keep when their calls run side by side (`ccapi_receive.c`, `ccapi_filesystem.c`).

The lock covers the splice, and for the virtual directories the searches of remove and of the connector. It does not cover the
searches of add, nor any search of the receive targets. So a call can act on a search that has become stale.

- `Right`: no two entries have one name, nothing freed has been touched, and what was added and not removed is in the list.
- `Exclusive`: the steps after which a stale search does no harm. No entry is taken out while another call stands at it; no
  link is read while the entry behind it has been freed and is still linked; no link is changed at which another remove has
  found its entry, unless it then finds an entry of the same name; and no entry is put in front while another add of its name
  has its search past the head.
- `right_of_exclusive`: every run of such steps is right in every state.
- `added_twice`: two adds of one name that search side by side both insert it.
-/
import CcApi.Tables.Model

namespace CcApi.Tables

open Lib.Splice Lib.Runs

variable {ι α : Type}

structure Right (s : St ι α) : Prop where
  distinct : (s.table.entries.map s.table.name).Nodup
  sound : s.faulted = false
  kept : ∀ n ∈ s.kept, n ∈ s.table.entries

/-! ## The condition -/

/-- the thread's next steps read or write entry n, whatever the others do -/
def StandsAt (t : Table α) : Pc α → ℕ → Prop
  | .compare c p m, n => m = n ∨ t.name m = c.name ∧ p = .next n
  | .seek _ p, n | .found _ p, n | .await _ p, n | .take _ p, n => p = .next n
  | .read _ p m, n | .free _ p m _, n | .unlink _ p m _, n => m = n ∨ p = .next n
  | .use m, n => m = n
  | _, _ => False

/-- v may stand at p as far as this thread is concerned: a remove that has found its entry at p still finds one of its name
there, or nothing in front of its test for NULL -/
def Admits (t : Table α) : Pc α → Place ℕ → Option ℕ → Prop
  | .compare (.remove b) q m, p, v => q = p → t.name m = b → ∀ n ∈ v, t.name n = b
  | .found (.remove b) q, p, v => q = p → ∀ n ∈ v, t.name n = b
  | .await b q, p, v | .take b q, p, v => q = p → ∃ n ∈ v, t.name n = b
  | _, _, _ => True

/-- the thread is adding a, and its search has left the list's head behind -/
def Commits (t : Table α) : Pc α → α → Prop
  | .seek (.add b) (.next _), a | .found (.add b) (.next _), a => b = a
  | .compare (.add b) _ m, a => b = a ∧ t.name m ≠ b
  | .checkDir b, a | .statted b, a | .create b, a => b = a
  | .insert n, a | .link n, a | .publish n, a => t.name n = a
  | _, _ => False

/-- the thread has freed the entry at p and not yet written the link -/
def Dangles : Pc α → Place ℕ → Prop
  | .unlink _ q _ _, p => q = p
  | _, _ => False

/-- the step does no harm to another call's search -/
def Exclusive (k : Kind) (s : St ι α) : Op ι α → Prop
  | .call _ _ => True
  | .step t _ =>
    match s.pc t with
    | .seek _ p | .found (.lookup _) p => k = .receive → ∀ u, u ≠ t → ¬ Dangles (s.pc u) p
    | .free _ _ n _ => ∀ u, u ≠ t → ¬ StandsAt s.table (s.pc u) n
    | .unlink _ p n v => ∀ u, u ≠ t →
        (k = .virtualDir → ¬ StandsAt s.table (s.pc u) n) ∧ Admits s.table (s.pc u) p v
    | .publish n => ∀ u, u ≠ t →
        ¬ Commits s.table (s.pc u) (s.table.name n) ∧ Admits s.table (s.pc u) .head (some n)
    | _ => True

section
variable [DecidableEq ι] [DecidableEq α]

instance (t : Table α) (pc : Pc α) (n : ℕ) : Decidable (StandsAt t pc n) := by
  unfold StandsAt; split <;> infer_instance

instance (t : Table α) (pc : Pc α) (p : Place ℕ) (v : Option ℕ) : Decidable (Admits t pc p v) := by
  unfold Admits; split <;> infer_instance

instance (t : Table α) (pc : Pc α) (a : α) : Decidable (Commits t pc a) := by
  unfold Commits; split <;> infer_instance

instance (pc : Pc α) (p : Place ℕ) : Decidable (Dangles pc p) := by
  unfold Dangles; split <;> infer_instance

instance [Fintype ι] (k : Kind) (s : St ι α) (o : Op ι α) : Decidable (Exclusive k s o) := by
  cases o with
  | call t c => unfold Exclusive; infer_instance
  | step t ok => unfold Exclusive; dsimp only; split <;> infer_instance

end

/-! ## The invariant -/

/-- the thread has the lock -/
def Pc.locks (k : Kind) : Pc α → Bool
  | .seek c _ | .compare c _ _ | .found c _ => c.searchLocked k
  | .use _ => k = .virtualDir
  | .statted _ | .link _ | .publish _ | .take _ _ | .read _ _ _ | .free _ _ _ _ | .unlink _ _ _ _ | .leave
  | .leaveWith _ => true
  | _ => false

/-- the entry that is the thread's alone -/
def Pc.owns : Pc α → Option ℕ
  | .insert n | .link n | .publish n | .leaveWith n | .dispose n => some n
  | _ => none

/-- nothing in the list has this name -/
def Absent (t : Table α) (l : List ℕ) (a : α) : Prop := ∀ n ∈ l, t.name n ≠ a

/-- the place is in the list, in a live entry -/
structure Spot (t : Table α) (l : List ℕ) (p : Place ℕ) : Prop where
  within : Within l p
  live : ∀ n, p = .next n → n ∉ t.freed

/-- a search for c has come to p: an add has found nothing of its name on the way -/
structure Reached (t : Table α) (l : List ℕ) (c : Task α) (p : Place ℕ) : Prop extends Spot t l p where
  clear : ∀ a, c = .add a → ∃ pre, Behind l p pre ∧ Absent t pre a

/-- what a remove has found at p has its name -/
def Seen (t : Table α) (c : Task α) (p : Place ℕ) : Prop := ∀ b, c = .remove b → ∀ n ∈ t.links.load p, t.name n = b

/-- entry n is at p, has name b and is live -/
structure Caught (t : Table α) (l : List ℕ) (b : α) (p : Place ℕ) (n : ℕ) : Prop extends Spot t l p where
  load : t.links.load p = some n
  name : t.name n = b

/-- entry n is live and in no list -/
structure Apart (t : Table α) (l : List ℕ) (n : ℕ) : Prop where
  notMem : n ∉ l
  live : n ∉ t.freed
  lt : n < t.fresh

/-- what a thread knows where it stands -/
def Knows (k : Kind) (t : Table α) (l : List ℕ) : Pc α → Prop
  | .seek c p => Reached t l c p
  | .compare c p n => n ∈ l ∧ n ∉ t.freed ∧ (∀ a, c = .add a → ∃ pre, UpTo l n pre ∧ Absent t pre a) ∧
      (t.name n = c.name → Reached t l c p ∧ Seen t c p)
  | .found c p => Reached t l c p ∧ Seen t c p
  | .checkDir a | .statted a | .create a => Absent t l a
  | .insert n | .link n => Apart t l n ∧ Absent t l (t.name n)
  | .publish n => Apart t l n ∧ Absent t l (t.name n) ∧ t.links.next n = t.links.head
  | .await b p | .take b p => Spot t l p ∧ ∃ n ∈ t.links.load p, t.name n = b
  | .read b p n => Caught t l b p n ∧ n ∉ t.freed
  | .free b p n v => Caught t l b p n ∧ n ∉ t.freed ∧ v = t.links.next n ∧ k = .receive
  | .unlink b p n v => Caught t l b p n ∧ v = t.links.next n ∧ (n ∈ t.freed ↔ k = .receive)
  | .use n => n ∈ l ∧ n ∉ t.freed
  | .leaveWith n | .dispose n => Apart t l n
  | .idle | .enter _ | .leave => True

/-- the lock's holder is known, and there is one at most -/
structure Locking (k : Kind) (held : Bool) (pc : ι → Pc α) : Prop where
  held : ∀ u, (pc u).locks k = true → held = true
  alone : ∀ u v, (pc u).locks k = true → (pc v).locks k = true → u = v

/-- no entry is private to two threads -/
def Owning (pc : ι → Pc α) : Prop := ∀ u v n, (pc u).owns = some n → (pc v).owns = some n → u = v

/-- the table's part of the invariant; l are the entries of the list -/
structure Table.Sound (t : Table α) (l : List ℕ) : Prop where
  lists : t.links.Lists l
  distinct : (l.map t.name).Nodup
  known : ∀ n ∈ l, n < t.fresh
  freed : ∀ n ∈ t.freed, n < t.fresh

structure Inv (k : Kind) (s : St ι α) (l : List ℕ) : Prop where
  table : s.table.Sound l
  /-- a freed entry is in the list only until its remove has written the link -/
  live : ∀ n ∈ l, n ∈ s.table.freed → ∃ u b p v, s.pc u = .unlink b p n v
  kept : ∀ n ∈ s.kept, n ∈ l
  sound : s.faulted = false
  locking : Locking k s.held s.pc
  owning : Owning s.pc
  knows : ∀ u, Knows k s.table l (s.pc u)

/-- the list's entries after an operation -/
def St.after (s : St ι α) (o : Op ι α) (l : List ℕ) : List ℕ :=
  match o with
  | .call _ _ => l
  | .step t _ =>
    match s.pc t with
    | .publish n => n :: l
    | .unlink _ _ n _ => l.erase n
    | _ => l

/-! ## The lock, and what is private -/

section
variable [DecidableEq ι]

theorem Locking.keep {k : Kind} {held : Bool} {pc : ι → Pc α} (h : Locking k held pc) {t : ι} {pc' : Pc α}
    (hl : pc'.locks k = true → (pc t).locks k = true) : Locking k held (Function.update pc t pc') := by
  have hold : ∀ u, (Function.update pc t pc' u).locks k = true → (pc u).locks k = true := by
    intro u hu
    by_cases hut : u = t
    · subst hut
      rw [Function.update_self] at hu
      exact hl hu
    · rwa [Function.update_of_ne hut] at hu
  exact ⟨fun u hu => h.held u (hold u hu), fun u v hu hv => h.alone u v (hold u hu) (hold v hv)⟩

theorem Locking.acquire {k : Kind} {pc : ι → Pc α} (h : Locking k false pc) (t : ι) (pc' : Pc α) :
    Locking k true (Function.update pc t pc') := by
  have honly : ∀ u, (Function.update pc t pc' u).locks k = true → u = t := by
    intro u hu
    by_contra hut
    rw [Function.update_of_ne hut] at hu
    cases h.held u hu
  exact ⟨fun _ _ => rfl, fun u v hu hv => (honly u hu).trans (honly v hv).symm⟩

theorem Locking.release {k : Kind} {held : Bool} {pc : ι → Pc α} (h : Locking k held pc) {t : ι} {pc' : Pc α}
    (ht : (pc t).locks k = true) (hp : pc'.locks k = false) (held' : Bool) :
    Locking k held' (Function.update pc t pc') := by
  have hnone : ∀ u, (Function.update pc t pc' u).locks k ≠ true := by
    intro u hu
    by_cases hut : u = t
    · subst hut
      rw [Function.update_self, hp] at hu
      cases hu
    · rw [Function.update_of_ne hut] at hu
      exact hut (h.alone u t hu ht)
  exact ⟨fun u hu => absurd hu (hnone u), fun u _ hu => absurd hu (hnone u)⟩

theorem Owning.keep {pc : ι → Pc α} (h : Owning pc) {t : ι} {pc' : Pc α}
    (ho : ∀ n, pc'.owns = some n → (pc t).owns = some n) : Owning (Function.update pc t pc') := by
  have hold : ∀ u n, (Function.update pc t pc' u).owns = some n → (pc u).owns = some n := by
    intro u n hu
    by_cases hut : u = t
    · subst hut
      rw [Function.update_self] at hu
      exact ho n hu
    · rwa [Function.update_of_ne hut] at hu
  exact fun u v n hu hv => h u v n (hold u n hu) (hold v n hv)

/-- an entry that was nobody's becomes the thread's -/
theorem Owning.gain {pc : ι → Pc α} (h : Owning pc) {t : ι} {pc' : Pc α} {n : ℕ} (ho : pc'.owns = some n)
    (hnew : ∀ u, (pc u).owns ≠ some n) : Owning (Function.update pc t pc') := by
  intro u v m hu hv
  by_cases hut : u = t <;> by_cases hvt : v = t
  · rw [hut, hvt]
  · rw [hut, Function.update_self, ho] at hu
    rw [Function.update_of_ne hvt, ← hu] at hv
    exact absurd hv (hnew v)
  · rw [hvt, Function.update_self, ho] at hv
    rw [Function.update_of_ne hut, ← hv] at hu
    exact absurd hu (hnew u)
  · rw [Function.update_of_ne hut] at hu
    rw [Function.update_of_ne hvt] at hv
    exact h u v m hu hv

end

/-! ## What the other threads know after a step -/

theorem load_within {t t' : Table α} {l : List ℕ} {p : Place ℕ} (hp : Within l p)
    (hhead : t'.links.head = t.links.head) (hnext : ∀ m ∈ l, t'.links.next m = t.links.next m) :
    t'.links.load p = t.links.load p := by
  cases p with
  | head => exact hhead
  | next m => exact hnext m hp

/-- a step that leaves the list alone -/
structure Leaves (t t' : Table α) (l : List ℕ) (pc : Pc α) : Prop where
  head : t'.links.head = t.links.head
  next : ∀ m ∈ l, t'.links.next m = t.links.next m
  name : ∀ m ∈ l, t'.name m = t.name m
  freed : ∀ m ∈ l, m ∈ t'.freed ↔ m ∈ t.freed
  fresh : t.fresh ≤ t'.fresh
  own : ∀ n, pc.owns = some n → t'.links.next n = t.links.next n ∧ t'.name n = t.name n ∧ n ∉ t'.freed

section
variable {k : Kind} {t t' : Table α} {l : List ℕ} {pc : Pc α}

theorem Absent.leaves {pre : List ℕ} {a : α} (h : Absent t pre a) (hl : Leaves t t' l pc) (hpre : ∀ n ∈ pre, n ∈ l) :
    Absent t' pre a := fun n hn => by
  rw [hl.name n (hpre n hn)]
  exact h n hn

theorem Spot.leaves {p : Place ℕ} (h : Spot t l p) (hl : Leaves t t' l pc) : Spot t' l p := by
  refine ⟨h.within, fun n hp => ?_⟩
  have hn : n ∈ l := by
    have := h.within
    rwa [hp] at this
  exact mt (hl.freed n hn).1 (h.live n hp)

theorem behind_mem {pre : List ℕ} {p : Place ℕ} (h : Behind l p pre) : ∀ n ∈ pre, n ∈ l := by
  cases p with
  | head =>
    obtain rfl := h
    simp
  | next a =>
    obtain ⟨pre', post, rfl, rfl⟩ := h
    intro n hn
    simp only [List.mem_append, List.mem_cons] at hn ⊢
    tauto

theorem upTo_mem {pre : List ℕ} {n : ℕ} (h : UpTo l n pre) : ∀ m ∈ pre, m ∈ l := by
  obtain ⟨post, rfl⟩ := h
  exact fun m hm => List.mem_append_left _ hm

theorem Reached.leaves {c : Task α} {p : Place ℕ} (h : Reached t l c p) (hl : Leaves t t' l pc) :
    Reached t' l c p := by
  refine ⟨h.toSpot.leaves hl, fun a ha => ?_⟩
  obtain ⟨pre, hpre, habs⟩ := h.clear a ha
  exact ⟨pre, hpre, habs.leaves hl (behind_mem hpre)⟩

theorem Spot.load_mem {p : Place ℕ} {n : ℕ} (h : Spot t l p) (ht : t.Sound l) (hn : n ∈ t.links.load p) : n ∈ l :=
  mem_of_load ht.lists h.within hn

theorem Seen.leaves {c : Task α} {p : Place ℕ} (h : Seen t c p) (hs : Spot t l p) (ht : t.Sound l)
    (hl : Leaves t t' l pc) : Seen t' c p := by
  intro b hb n hn
  rw [load_within hs.within hl.head hl.next] at hn
  rw [hl.name n (hs.load_mem ht hn)]
  exact h b hb n hn

theorem Caught.leaves {b : α} {p : Place ℕ} {n : ℕ} (h : Caught t l b p n) (ht : t.Sound l) (hl : Leaves t t' l pc) :
    Caught t' l b p n := by
  refine ⟨h.toSpot.leaves hl, ?_, ?_⟩
  · rw [load_within h.within hl.head hl.next]
    exact h.load
  · rw [hl.name n (h.toSpot.load_mem ht h.load)]
    exact h.name

theorem Apart.leaves {n : ℕ} (h : Apart t l n) (hl : Leaves t t' l pc) (ho : pc.owns = some n) : Apart t' l n :=
  ⟨h.notMem, (hl.own n ho).2.2, h.lt.trans_le hl.fresh⟩

/-- **What is known outlives a step that leaves the list alone.** -/
theorem Knows.leaves (h : Knows k t l pc) (ht : t.Sound l) (hl : Leaves t t' l pc) : Knows k t' l pc := by
  cases pc with
  | idle | enter | leave => trivial
  | seek c p => exact Reached.leaves h hl
  | compare c p n =>
    obtain ⟨hn, hlive, hclear, heq⟩ := h
    refine ⟨hn, mt (hl.freed n hn).1 hlive, fun a ha => ?_, fun hname => ?_⟩
    · obtain ⟨pre, hpre, habs⟩ := hclear a ha
      exact ⟨pre, hpre, habs.leaves hl (upTo_mem hpre)⟩
    · rw [hl.name n hn] at hname
      obtain ⟨hr, hseen⟩ := heq hname
      exact ⟨hr.leaves hl, hseen.leaves hr.toSpot ht hl⟩
  | found c p => exact ⟨h.1.leaves hl, h.2.leaves h.1.toSpot ht hl⟩
  | checkDir a | statted a | create a => exact Absent.leaves h hl fun _ hn => hn
  | insert n | link n =>
    refine ⟨h.1.leaves hl rfl, ?_⟩
    rw [(hl.own n rfl).2.1]
    exact h.2.leaves hl fun _ hn => hn
  | publish n =>
    refine ⟨h.1.leaves hl rfl, ?_, ?_⟩
    · rw [(hl.own n rfl).2.1]
      exact h.2.1.leaves hl fun _ hn => hn
    · rw [(hl.own n rfl).1, hl.head]
      exact h.2.2
  | await b p | take b p =>
    obtain ⟨hs, n, hn, hname⟩ := h
    refine ⟨hs.leaves hl, n, ?_, ?_⟩
    · rw [load_within hs.within hl.head hl.next]
      exact hn
    · rw [hl.name n (hs.load_mem ht hn)]
      exact hname
  | read b p n => exact ⟨h.1.leaves ht hl, mt (hl.freed n (h.1.toSpot.load_mem ht h.1.load)).1 h.2⟩
  | free b p n v =>
    have hn := h.1.toSpot.load_mem ht h.1.load
    exact ⟨h.1.leaves ht hl, mt (hl.freed n hn).1 h.2.1, h.2.2.1.trans (hl.next n hn).symm, h.2.2.2⟩
  | unlink b p n v =>
    have hn := h.1.toSpot.load_mem ht h.1.load
    exact ⟨h.1.leaves ht hl, h.2.1.trans (hl.next n hn).symm, (hl.freed n hn).trans h.2.2⟩
  | use n => exact ⟨h.1, mt (hl.freed n h.1).1 h.2⟩
  | leaveWith n | dispose n => exact Apart.leaves h hl rfl

end

/-! ### An entry is freed -/

section
variable {k : Kind} {t : Table α} {l : List ℕ} {pc : Pc α} {n : ℕ}

theorem Spot.freed {p : Place ℕ} (h : Spot t l p) (hne : p ≠ .next n) :
    Spot { t with freed := n :: t.freed } l p := by
  refine ⟨h.within, fun m hp hm => ?_⟩
  rcases List.mem_cons.1 hm with rfl | hm
  · exact hne hp
  · exact h.live m hp hm

theorem Reached.freed {c : Task α} {p : Place ℕ} (h : Reached t l c p) (hne : p ≠ .next n) :
    Reached { t with freed := n :: t.freed } l c p := ⟨h.toSpot.freed hne, h.clear⟩

theorem Apart.freed {m : ℕ} (h : Apart t l m) (hn : n ∈ l) : Apart { t with freed := n :: t.freed } l m := by
  refine ⟨h.notMem, fun hm => ?_, h.lt⟩
  rcases List.mem_cons.1 hm with rfl | hm
  · exact h.notMem hn
  · exact h.live hm

theorem live_freed {m : ℕ} (h : m ∉ t.freed) (hne : m ≠ n) : m ∉ n :: t.freed := by
  rw [List.mem_cons, not_or]
  exact ⟨hne, h⟩

/-- **What is known outlives the freeing of an entry** nobody stands at. -/
theorem Knows.freed (h : Knows k t l pc) (hn : n ∈ l) (hs : ¬ StandsAt t pc n) (hl : pc.locks k ≠ true) :
    Knows k { t with freed := n :: t.freed } l pc := by
  cases pc with
  | idle | enter | leave => trivial
  | seek c p => exact Reached.freed h hs
  | compare c p m =>
    obtain ⟨hm, hlive, hclear, heq⟩ := h
    simp only [StandsAt, not_or, not_and] at hs
    exact ⟨hm, live_freed hlive hs.1, hclear, fun hname => ⟨(heq hname).1.freed (hs.2 hname), (heq hname).2⟩⟩
  | found c p => exact ⟨h.1.freed hs, h.2⟩
  | checkDir a | create a => exact h
  | insert m => exact ⟨h.1.freed hn, h.2⟩
  | await b p => exact ⟨h.1.freed hs, h.2⟩
  | use m => exact ⟨h.1, live_freed h.2 hs⟩
  | dispose m => exact Apart.freed h hn
  | statted | link | publish | take | read | free | unlink | leaveWith => exact absurd rfl hl

/-! ### An entry is put in front -/

theorem Spot.pushed {p : Place ℕ} (h : Spot t l p) : Spot { t with links := t.links.store .head (some n) } (n :: l) p := by
  refine ⟨?_, h.live⟩
  cases p with
  | head => trivial
  | next m => exact List.mem_cons_of_mem n h.within

theorem Absent.cons {a : α} {pre : List ℕ} (h : Absent t pre a) (hn : t.name n ≠ a) : Absent t (n :: pre) a := by
  intro m hm
  rcases List.mem_cons.1 hm with rfl | hm
  · exact hn
  · exact h m hm

/-- a search past the head has one entry more behind it -/
theorem Reached.pushed {c : Task α} {p : Place ℕ} (h : Reached t l c p)
    (hn : ∀ a m, c = .add a → p = .next m → t.name n ≠ a) :
    Reached { t with links := t.links.store .head (some n) } (n :: l) c p := by
  refine ⟨h.toSpot.pushed, fun a ha => ?_⟩
  obtain ⟨pre, hpre, habs⟩ := h.clear a ha
  cases p with
  | head =>
    obtain rfl := hpre
    exact ⟨[], rfl, by simp [Absent]⟩
  | next m => exact ⟨n :: pre, hpre.cons n, habs.cons (hn a m ha rfl)⟩

/-- what a remove has found is still there, or what it finds is admitted -/
theorem Seen.store {c : Task α} {p q : Place ℕ} {v : Option ℕ} (h : Seen t c q)
    (hadm : ∀ b, c = .remove b → q = p → ∀ m ∈ v, t.name m = b) : Seen { t with links := t.links.store p v } c q := by
  intro b hb m hm
  by_cases hqp : q = p
  · subst hqp
    rw [load_store] at hm
    exact hadm b hb rfl m hm
  · rw [load_store_ne hqp] at hm
    exact h b hb m hm

theorem Apart.pushed {m : ℕ} (h : Apart t l m) (hne : m ≠ n) :
    Apart { t with links := t.links.store .head (some n) } (n :: l) m := by
  refine ⟨fun hm => ?_, h.live, h.lt⟩
  rcases List.mem_cons.1 hm with rfl | hm
  · exact hne rfl
  · exact h.notMem hm

/-- **What is known outlives an insertion** that no add of the name and no remove at the head is in the way of. -/
theorem Knows.pushed (h : Knows k t l pc) (habs : Absent t l (t.name n)) (hc : ¬ Commits t pc (t.name n))
    (hadm : Admits t pc .head (some n)) (hl : pc.locks k ≠ true) (hown : pc.owns ≠ some n) :
    Knows k { t with links := t.links.store .head (some n) } (n :: l) pc := by
  cases pc with
  | idle | enter | leave => trivial
  | seek c p =>
    refine Reached.pushed h fun a m ha hp hna => ?_
    subst ha hp
    exact hc hna.symm
  | compare c p m =>
    obtain ⟨hm, hlive, hclear, heq⟩ := h
    refine ⟨List.mem_cons_of_mem n hm, hlive, fun a ha => ?_, fun hname => ?_⟩
    · obtain ⟨pre, hpre, hpabs⟩ := hclear a ha
      refine ⟨n :: pre, hpre.cons n, hpabs.cons fun hna => ?_⟩
      subst ha
      by_cases hma : t.name m = a
      · exact habs m hm (hma.trans hna.symm)
      · exact hc ⟨hna.symm, hma⟩
    · obtain ⟨hr, hseen⟩ := heq hname
      refine ⟨hr.pushed fun a q ha _ hna => ?_, hseen.store fun b hb hp x hx => ?_⟩
      · subst ha
        exact habs m hm (hname.trans hna.symm)
      · subst hb hp
        exact hadm rfl hname x hx
  | found c p =>
    refine ⟨h.1.pushed fun a m ha hp hna => ?_, h.2.store fun b hb hp x hx => ?_⟩
    · subst ha hp
      exact hc hna.symm
    · subst hb hp
      exact hadm rfl x hx
  | checkDir a | create a => exact Absent.cons h fun hna => hc hna.symm
  | insert m =>
    refine ⟨h.1.pushed ?_, h.2.cons fun hna => hc hna.symm⟩
    rintro rfl
    exact hown rfl
  | await b p =>
    obtain ⟨hs, m, hm, hname⟩ := h
    refine ⟨hs.pushed, ?_⟩
    by_cases hp : p = .head
    · subst hp
      obtain ⟨x, hx, hxn⟩ := hadm rfl
      exact ⟨x, by rw [load_store]; exact hx, hxn⟩
    · exact ⟨m, by rw [load_store_ne hp]; exact hm, hname⟩
  | use m => exact ⟨List.mem_cons_of_mem n h.1, h.2⟩
  | dispose m =>
    refine Apart.pushed h ?_
    rintro rfl
    exact hown rfl
  | statted | link | publish | take | read | free | unlink | leaveWith => exact absurd rfl hl

/-! ### An entry is taken out -/

theorem Spot.unlinked {p q : Place ℕ} {v : Option ℕ} (h : Spot t l q) (hne : q ≠ .next n) :
    Spot { t with links := t.links.store p v } (l.erase n) q := by
  refine ⟨?_, h.live⟩
  cases q with
  | head => trivial
  | next m => exact (List.mem_erase_of_ne fun e => hne (by rw [e])).2 h.within

theorem Absent.erase {a : α} {pre : List ℕ} (h : Absent t pre a) : Absent t (pre.erase n) a :=
  fun m hm => h m (List.mem_of_mem_erase hm)

theorem Reached.unlinked {c : Task α} {p q : Place ℕ} {v : Option ℕ} (h : Reached t l c q) (hne : q ≠ .next n) :
    Reached { t with links := t.links.store p v } (l.erase n) c q := by
  refine ⟨h.toSpot.unlinked hne, fun a ha => ?_⟩
  obtain ⟨pre, hpre, habs⟩ := h.clear a ha
  exact ⟨pre.erase n, hpre.erase hne, habs.erase⟩

theorem Apart.unlinked {m : ℕ} {p : Place ℕ} {v : Option ℕ} (h : Apart t l m) :
    Apart { t with links := t.links.store p v } (l.erase n) m :=
  ⟨fun hm => h.notMem (List.mem_of_mem_erase hm), h.live, h.lt⟩

/-- **What is known outlives a removal** of an entry nobody stands at, through a link nobody relies on. -/
theorem Knows.unlinked {p : Place ℕ} {v : Option ℕ} (h : Knows k t l pc) (hs : ¬ StandsAt t pc n)
    (hadm : Admits t pc p v) (hl : pc.locks k ≠ true) :
    Knows k { t with links := t.links.store p v } (l.erase n) pc := by
  cases pc with
  | idle | enter | leave => trivial
  | seek c q => exact Reached.unlinked h hs
  | compare c q m =>
    obtain ⟨hm, hlive, hclear, heq⟩ := h
    simp only [StandsAt, not_or, not_and] at hs
    refine ⟨(List.mem_erase_of_ne hs.1).2 hm, hlive, fun a ha => ?_, fun hname => ?_⟩
    · obtain ⟨pre, hpre, hpabs⟩ := hclear a ha
      exact ⟨pre.erase n, hpre.erase hs.1, hpabs.erase⟩
    · obtain ⟨hr, hseen⟩ := heq hname
      refine ⟨hr.unlinked (hs.2 hname), hseen.store fun b hb hp x hx => ?_⟩
      subst hb hp
      exact hadm rfl hname x hx
  | found c q =>
    refine ⟨h.1.unlinked hs, h.2.store fun b hb hp x hx => ?_⟩
    subst hb hp
    exact hadm rfl x hx
  | checkDir a | create a => exact Absent.erase h
  | insert m => exact ⟨h.1.unlinked, h.2.erase⟩
  | await b q =>
    obtain ⟨hspot, m, hm, hname⟩ := h
    refine ⟨hspot.unlinked hs, ?_⟩
    by_cases hp : q = p
    · subst hp
      obtain ⟨x, hx, hxn⟩ := hadm rfl
      exact ⟨x, by rw [load_store]; exact hx, hxn⟩
    · exact ⟨m, by rw [load_store_ne hp]; exact hm, hname⟩
  | use m => exact ⟨(List.mem_erase_of_ne hs).2 h.1, h.2⟩
  | dispose m => exact Apart.unlinked h
  | statted | link | publish | take | read | free | unlink | leaveWith => exact absurd rfl hl

/-- an entry that is the thread's alone is in no list -/
theorem Knows.owns_apart (h : Knows k t l pc) (ho : pc.owns = some n) : Apart t l n := by
  cases pc with
  | insert | link | publish =>
    cases ho
    exact h.1
  | leaveWith | dispose =>
    cases ho
    exact h
  | _ => cases ho

/-- a call stands at live entries only -/
theorem Knows.stands_live (h : Knows k t l pc) (hl : pc.locks k ≠ true) (hs : StandsAt t pc n) : n ∉ t.freed := by
  cases pc with
  | seek c p => exact (Reached.toSpot h).live n hs
  | compare c p m =>
    obtain ⟨-, hlive, -, heq⟩ := h
    rcases hs with rfl | ⟨hname, hp⟩
    · exact hlive
    · exact (heq hname).1.live n hp
  | found c p => exact h.1.live n hs
  | await b p => exact h.1.live n hs
  | use m =>
    cases hs
    exact h.2
  | take | read | free | unlink => exact absurd rfl hl
  | _ => exact hs.elim

end

/-! ## One step -/

section
variable {k : Kind} {s : St ι α} {l : List ℕ} {t : ι}

theorem touch_live {n : ℕ} (h : n ∉ s.table.freed) : s.touch n = s := by
  simp [St.touch, h]

theorem touchPlace_spot {p : Place ℕ} (h : Spot s.table l p) : s.touchPlace p = s := by
  cases p with
  | head => rfl
  | next n => exact touch_live (h.live n rfl)

/-- the threads without the lock, while t has it -/
theorem Inv.others (h : Inv k s l) (ht : (s.pc t).locks k = true) {u : ι} (hu : u ≠ t) : (s.pc u).locks k ≠ true :=
  fun hl => hu (h.locking.alone u t hl ht)

/-- nothing freed is in the list while the lock's holder is not about to write a link -/
theorem Inv.live_of_locks (h : Inv k s l) (ht : (s.pc t).locks k = true) (hpc : ∀ b p n v, s.pc t ≠ .unlink b p n v)
    {n : ℕ} (hn : n ∈ l) : n ∉ s.table.freed := by
  intro hf
  obtain ⟨u, b, p, v, hu⟩ := h.live n hn hf
  have hut : u = t := h.locking.alone u t (by rw [hu]; rfl) ht
  subst hut
  exact hpc b p n v hu

/-- a search reads a link: what is behind it is live -/
theorem Inv.load_live (h : Inv k s l) {p : Place ℕ} (hp : Spot s.table l p)
    (hC : k = .receive → ∀ u, u ≠ t → ¬ Dangles (s.pc u) p) (hpc : ∀ b p n v, s.pc t ≠ .unlink b p n v) {n : ℕ}
    (hn : s.table.links.load p = some n) : n ∉ s.table.freed := by
  intro hf
  obtain ⟨u, b, q, v, hu⟩ := h.live n (hp.load_mem h.table hn) hf
  have hut : u ≠ t := by
    rintro rfl
    exact hpc b q n v hu
  have hknown := h.knows u
  rw [hu] at hknown
  obtain ⟨hcaught, -, hfreed⟩ := hknown
  refine hC (hfreed.1 hf) u hut ?_
  rw [hu]
  exact place_unique h.table.lists hcaught.within hp.within hcaught.load hn

section
variable [DecidableEq ι]

theorem update_knows {pc' : Pc α} {tb : Table α} {l' : List ℕ} (ht : Knows k tb l' pc')
    (hu : ∀ u, u ≠ t → Knows k tb l' (s.pc u)) (u : ι) : Knows k tb l' (Function.update s.pc t pc' u) := by
  by_cases hut : u = t
  · subst hut
    rwa [Function.update_self]
  · rw [Function.update_of_ne hut]
    exact hu u hut

theorem Inv.unlinks (h : Inv k s l) {pc' : Pc α} (hpc : ∀ b p n v, s.pc t ≠ .unlink b p n v) {n : ℕ} (hn : n ∈ l)
    (hf : n ∈ s.table.freed) : ∃ u b p v, Function.update s.pc t pc' u = .unlink b p n v := by
  obtain ⟨u, b, p, v, hu⟩ := h.live n hn hf
  refine ⟨u, b, p, v, ?_⟩
  rw [Function.update_of_ne]
  · exact hu
  · rintro rfl
    exact hpc b p n v hu

/-- a thread goes on; the table stays -/
theorem Inv.move (h : Inv k s l) {pc' : Pc α} {held' : Bool} (hpc : ∀ b p n v, s.pc t ≠ .unlink b p n v)
    (hlock : Locking k held' (Function.update s.pc t pc')) (hown : ∀ n, pc'.owns = some n → (s.pc t).owns = some n)
    (hk : Knows k s.table l pc') : Inv k { s.goto t pc' with held := held' } l where
  table := h.table
  live := fun _ hn hf => h.unlinks hpc hn hf
  kept := h.kept
  sound := h.sound
  locking := hlock
  owning := h.owning.keep hown
  knows := update_knows hk fun u _ => h.knows u

/-- the same without the lock -/
theorem Inv.goto (h : Inv k s l) {pc' : Pc α} (hpc : ∀ b p n v, s.pc t ≠ .unlink b p n v)
    (hl : pc'.locks k = true → (s.pc t).locks k = true) (hown : ∀ n, pc'.owns = some n → (s.pc t).owns = some n)
    (hk : Knows k s.table l pc') : Inv k (s.goto t pc') l :=
  h.move hpc (h.locking.keep hl) hown hk

theorem Inv.acquire (h : Inv k s l) {ok : Bool} {pc' : Pc α} (hpc : ∀ b p n v, s.pc t ≠ .unlink b p n v)
    (hown : ∀ n, pc'.owns = some n → (s.pc t).owns = some n) (hk : Knows k s.table l pc') :
    Inv k (s.acquire t ok pc') l := by
  unfold St.acquire
  cases ok with
  | false => exact h.goto hpc (fun hl => by cases hl) (fun n hn => by cases hn) trivial
  | true =>
    simp only [if_true]
    cases hheld : s.held with
    | true => exact h
    | false => exact h.move hpc ((hheld ▸ h.locking).acquire t pc') hown hk

theorem Inv.release (h : Inv k s l) {ok : Bool} {pc' : Pc α} (ht : (s.pc t).locks k = true)
    (hpc : ∀ b p n v, s.pc t ≠ .unlink b p n v) (hp : pc'.locks k = false)
    (hown : ∀ n, pc'.owns = some n → (s.pc t).owns = some n) (hk : Knows k s.table l pc') :
    Inv k (s.release t ok pc') l :=
  h.move hpc (h.locking.release ht hp _) hown hk

variable [DecidableEq α]

theorem Inv.seek (h : Inv k s l) {c : Task α} {p : Place ℕ} (ht : s.pc t = .seek c p)
    (hC : k = .receive → ∀ u, u ≠ t → ¬ Dangles (s.pc u) p) (debug ok : Bool) :
    Inv k (stepThread k debug t ok s) l := by
  have hr : Reached s.table l c p := by
    have := h.knows t
    rwa [ht] at this
  simp only [stepThread, ht]
  have hpc : ∀ b p n v, s.pc t ≠ .unlink b p n v := by simp [ht]
  cases hload : s.table.links.load p with
  | none =>
    simp only [touchPlace_spot hr.toSpot]
    refine h.goto hpc (by simp [ht, Pc.locks]) (by simp [Pc.owns]) ⟨hr, fun b _ n hn => ?_⟩
    rw [hload] at hn
    cases hn
  | some n =>
    simp only [touchPlace_spot hr.toSpot]
    refine h.goto hpc (by simp [ht, Pc.locks]) (by simp [Pc.owns]) ?_
    refine ⟨hr.toSpot.load_mem h.table hload, h.load_live hr.toSpot hC hpc hload, fun a ha => ?_, fun hname => ?_⟩
    · obtain ⟨pre, hpre, habs⟩ := hr.clear a ha
      exact ⟨pre, hpre.upTo h.table.lists hload, habs⟩
    · refine ⟨hr, fun b hb m hm => ?_⟩
      rw [hload, Option.mem_some_iff] at hm
      subst hm hb
      exact hname

theorem Inv.compare (h : Inv k s l) {c : Task α} {p : Place ℕ} {n : ℕ} (ht : s.pc t = .compare c p n)
    (debug ok : Bool) : Inv k (stepThread k debug t ok s) l := by
  have hk : Knows k s.table l (.compare c p n) := by
    have := h.knows t
    rwa [ht] at this
  obtain ⟨hn, hlive, hclear, heq⟩ := hk
  simp only [stepThread, ht, touch_live hlive]
  have hpc : ∀ b p n v, s.pc t ≠ .unlink b p n v := by simp [ht]
  split_ifs with hname
  · exact h.goto hpc (by simp [ht, Pc.locks]) (by simp [Pc.owns]) (heq hname)
  · refine h.goto hpc (by simp [ht, Pc.locks]) (by simp [Pc.owns]) ⟨⟨hn, fun m hm => ?_⟩, fun a ha => ?_⟩
    · cases hm
      exact hlive
    · obtain ⟨pre, hpre, habs⟩ := hclear a ha
      refine ⟨pre ++ [n], hpre.behind, fun m hm => ?_⟩
      rcases List.mem_append.1 hm with hm | hm
      · exact habs m hm
      · rw [List.mem_singleton.1 hm]
        subst ha
        exact hname

theorem Inv.found (h : Inv k s l) {c : Task α} {p : Place ℕ} (ht : s.pc t = .found c p)
    (hC : ∀ a, c = .lookup a → k = .receive → ∀ u, u ≠ t → ¬ Dangles (s.pc u) p) (debug ok : Bool) :
    Inv k (stepThread k debug t ok s) l := by
  have hk : Knows k s.table l (.found c p) := by
    have := h.knows t
    rwa [ht] at this
  obtain ⟨hr, hseen⟩ := hk
  simp only [stepThread, ht, touchPlace_spot hr.toSpot]
  have hpc : ∀ b p n v, s.pc t ≠ .unlink b p n v := by simp [ht]
  have hlocks : (s.pc t).locks k = c.searchLocked k := by rw [ht]; rfl
  refine h.goto hpc ?_ ?_ ?_
  · rw [hlocks]
    cases c <;> cases s.table.links.load p <;> cases k <;> simp [Pc.locks, Task.searchLocked]
  · cases c <;> cases s.table.links.load p <;> cases k <;> simp [Pc.owns]
  · cases c with
    | add a =>
      cases hload : s.table.links.load p with
      | some n => trivial
      | none =>
        obtain ⟨pre, hpre, habs⟩ := hr.clear a rfl
        have hall := hpre.all h.table.lists hload
        subst hall
        cases k <;> exact habs
    | remove a =>
      cases hload : s.table.links.load p with
      | none => cases k <;> trivial
      | some n =>
        have hname := hseen a rfl n hload
        cases k with
        | receive => exact ⟨hr.toSpot, n, hload, hname⟩
        | virtualDir =>
          exact ⟨⟨hr.toSpot, hload, hname⟩, h.live_of_locks (by rw [hlocks]; rfl) hpc (hr.toSpot.load_mem h.table hload)⟩
    | lookup a =>
      cases hload : s.table.links.load p with
      | none => cases k <;> trivial
      | some n => exact ⟨hr.toSpot.load_mem h.table hload, h.load_live hr.toSpot (hC a rfl) hpc hload⟩

theorem Inv.create (h : Inv k s l) {a : α} (ht : s.pc t = .create a) (debug ok : Bool) :
    Inv k (stepThread k debug t ok s) l := by
  have habs : Absent s.table l a := by
    have := h.knows t
    rwa [ht] at this
  simp only [stepThread, ht]
  have hpc : ∀ b p n v, s.pc t ≠ .unlink b p n v := by simp [ht]
  cases ok with
  | false => exact h.goto hpc (fun hl => by cases hl) (fun n hn => by cases hn) trivial
  | true =>
    have hnew : s.table.fresh ∉ l := fun hm => lt_irrefl _ (h.table.known _ hm)
    have hlive : s.table.fresh ∉ s.table.freed := fun hm => lt_irrefl _ (h.table.freed _ hm)
    have hne : ∀ m ∈ l, m ≠ s.table.fresh := by
      rintro m hm rfl
      exact hnew hm
    have hname : ∀ m ∈ l, (s.new a).table.name m = s.table.name m := fun m hm =>
      Function.update_of_ne (hne m hm) _ _
    have hnext : ∀ m, m ≠ s.table.fresh → (s.new a).table.links.next m = s.table.links.next m := fun m hm =>
      Function.update_of_ne hm _ _
    have hleaves : ∀ u, Leaves s.table (s.new a).table l (s.pc u) := by
      intro u
      constructor
      case head => rfl
      case next => exact fun m hm => hnext m (hne m hm)
      case name => exact hname
      case freed => exact fun m _ => Iff.rfl
      case fresh => exact Nat.le_succ _
      case own =>
        intro n hn
        have hown := (h.knows u).owns_apart hn
        exact ⟨hnext n hown.lt.ne, Function.update_of_ne hown.lt.ne _ _, hown.live⟩
    simp only [if_true]
    constructor
    case table =>
      constructor
      case lists => exact lists_store_of_not_mem h.table.lists hnew none
      case distinct =>
        rw [show l.map ((s.new a).goto t (.insert s.table.fresh)).table.name = l.map s.table.name from
          List.map_congr_left hname]
        exact h.table.distinct
      case known => exact fun n hn => Nat.lt_succ_of_lt (h.table.known n hn)
      case freed => exact fun n hn => Nat.lt_succ_of_lt (h.table.freed n hn)
    case live => exact fun n hn hf => h.unlinks hpc hn hf
    case kept => exact h.kept
    case sound => exact h.sound
    case locking => exact h.locking.keep fun hl => by cases hl
    case owning => exact h.owning.gain rfl fun u hu => lt_irrefl _ ((h.knows u).owns_apart hu).lt
    case knows =>
      refine update_knows ⟨⟨hnew, hlive, Nat.lt_succ_self _⟩, fun m hm => ?_⟩ fun u _ =>
        (h.knows u).leaves h.table (hleaves u)
      have hself : (s.new a).table.name s.table.fresh = a := Function.update_self _ _ _
      change (s.new a).table.name m ≠ (s.new a).table.name s.table.fresh
      rw [hname m hm, hself]
      exact habs m hm

theorem Inv.link (h : Inv k s l) {n : ℕ} (ht : s.pc t = .link n) (debug ok : Bool) :
    Inv k (stepThread k debug t ok s) l := by
  have hk : Knows k s.table l (.link n) := by
    have := h.knows t
    rwa [ht] at this
  obtain ⟨hapart, habs⟩ := hk
  simp only [stepThread, ht, touch_live hapart.live]
  have hpc : ∀ b p n v, s.pc t ≠ .unlink b p n v := by simp [ht]
  have hnext : ∀ m, m ≠ n → (s.table.links.store (.next n) s.table.links.head).next m = s.table.links.next m :=
    fun m hm => Function.update_of_ne hm _ _
  have hleaves : ∀ u, u ≠ t → Leaves s.table
      { s.table with links := s.table.links.store (.next n) s.table.links.head } l (s.pc u) := by
    intro u hu
    constructor
    case head => rfl
    case next =>
      intro m hm
      refine hnext m ?_
      rintro rfl
      exact hapart.notMem hm
    case name => exact fun m _ => rfl
    case freed => exact fun m _ => Iff.rfl
    case fresh => exact le_rfl
    case own =>
      intro m hm
      have hne : m ≠ n := by
        rintro rfl
        exact hu (h.owning u t m hm (by rw [ht]; rfl))
      exact ⟨hnext m hne, rfl, ((h.knows u).owns_apart hm).live⟩
  constructor
  case table => exact ⟨lists_store_of_not_mem h.table.lists hapart.notMem _, h.table.distinct, h.table.known, h.table.freed⟩
  case live => exact fun m hm hf => h.unlinks hpc hm hf
  case kept => exact h.kept
  case sound => exact h.sound
  case locking => exact h.locking.keep fun _ => by rw [ht]; rfl
  case owning => exact h.owning.keep fun m hm => by rw [ht]; exact hm
  case knows =>
    refine update_knows ⟨⟨hapart.notMem, hapart.live, hapart.lt⟩, habs, ?_⟩ fun u hu =>
      (h.knows u).leaves h.table (hleaves u hu)
    exact Function.update_self _ _ _

theorem Inv.publish (h : Inv k s l) {n : ℕ} (ht : s.pc t = .publish n)
    (hC : ∀ u, u ≠ t → ¬ Commits s.table (s.pc u) (s.table.name n) ∧ Admits s.table (s.pc u) .head (some n))
    (debug ok : Bool) : Inv k (stepThread k debug t ok s) (n :: l) := by
  have hk : Knows k s.table l (.publish n) := by
    have := h.knows t
    rwa [ht] at this
  obtain ⟨hapart, habs, hnext⟩ := hk
  simp only [stepThread, ht]
  have hpc : ∀ b p n v, s.pc t ≠ .unlink b p n v := by simp [ht]
  have hlocks : (s.pc t).locks k = true := by rw [ht]; rfl
  constructor
  case table =>
    constructor
    case lists => exact lists_cons h.table.lists hnext
    case distinct =>
      refine List.nodup_cons.2 ⟨fun hm => ?_, h.table.distinct⟩
      obtain ⟨m, hm, hname⟩ := List.mem_map.1 hm
      exact habs m hm hname
    case known => exact List.forall_mem_cons.2 ⟨hapart.lt, h.table.known⟩
    case freed => exact h.table.freed
  case live =>
    intro m hm hf
    rcases List.mem_cons.1 hm with rfl | hm
    · exact absurd hf hapart.live
    · exact h.unlinks hpc hm hf
  case kept =>
    intro m hm
    rcases List.mem_cons.1 hm with rfl | hm
    · exact List.mem_cons_self
    · exact List.mem_cons_of_mem n (h.kept m hm)
  case sound => exact h.sound
  case locking => exact h.locking.keep fun _ => hlocks
  case owning => exact h.owning.keep fun m hm => by cases hm
  case knows =>
    refine update_knows trivial fun u hu => (h.knows u).pushed habs (hC u hu).1 (hC u hu).2 (h.others hlocks hu) ?_
    intro hown
    exact hu (h.owning u t n hown (by rw [ht]; rfl))

theorem Inv.free (h : Inv k s l) {b : α} {p : Place ℕ} {n : ℕ} {v : Option ℕ} (ht : s.pc t = .free b p n v)
    (hC : ∀ u, u ≠ t → ¬ StandsAt s.table (s.pc u) n) (debug ok : Bool) :
    Inv k (stepThread k debug t ok s) l := by
  have hknown : Knows k s.table l (.free b p n v) := by
    have := h.knows t
    rwa [ht] at this
  obtain ⟨hcaught, hlive, hv, hk⟩ := hknown
  have hn := hcaught.toSpot.load_mem h.table hcaught.load
  simp only [stepThread, ht, St.drop, touch_live hlive]
  have hlocks : (s.pc t).locks k = true := by rw [ht]; rfl
  have hnext : p ≠ .next n := by
    rintro rfl
    obtain ⟨pre, hpre⟩ := within_behind hcaught.within
    have hup := hpre.upTo h.table.lists hcaught.load
    have hnodup := segment_nodup h.table.lists
    obtain ⟨pre', post, rfl, -⟩ := hpre
    obtain ⟨post', rfl⟩ := hup
    exact (List.nodup_append.1 hnodup).2.2 n (by simp) n List.mem_cons_self rfl
  constructor
  case table => exact ⟨h.table.lists, h.table.distinct, h.table.known, List.forall_mem_cons.2 ⟨h.table.known n hn, h.table.freed⟩⟩
  case live =>
    intro m hm hf
    rcases List.mem_cons.1 hf with rfl | hf
    · exact ⟨t, b, p, v, Function.update_self _ _ _⟩
    · exact absurd hf (h.live_of_locks hlocks (by simp [ht]) hm)
  case kept => exact h.kept
  case sound => exact h.sound
  case locking => exact h.locking.keep fun _ => hlocks
  case owning => exact h.owning.keep fun m hm => by cases hm
  case knows =>
    have hmem : n ∈ n :: s.table.freed ↔ k = .receive := ⟨fun _ => hk, fun _ => List.mem_cons_self⟩
    exact update_knows ⟨⟨hcaught.toSpot.freed hnext, hcaught.load, hcaught.name⟩, hv, hmem⟩ fun u hu =>
      (h.knows u).freed hn (hC u hu) (h.others hlocks hu)

theorem Inv.unlink (h : Inv k s l) {b : α} {p : Place ℕ} {n : ℕ} {v : Option ℕ} (ht : s.pc t = .unlink b p n v)
    (hC : ∀ u, u ≠ t → (k = .virtualDir → ¬ StandsAt s.table (s.pc u) n) ∧ Admits s.table (s.pc u) p v)
    (debug ok : Bool) : Inv k (stepThread k debug t ok s) (l.erase n) := by
  have hknown : Knows k s.table l (.unlink b p n v) := by
    have := h.knows t
    rwa [ht] at this
  obtain ⟨hcaught, rfl, hfreed⟩ := hknown
  have hn := hcaught.toSpot.load_mem h.table hcaught.load
  have hnodup : l.Nodup := segment_nodup h.table.lists
  have hlocks : (s.pc t).locks k = true := by rw [ht]; rfl
  have hstands : ∀ u, u ≠ t → ¬ StandsAt s.table (s.pc u) n := by
    intro u hu
    cases k with
    | virtualDir => exact (hC u hu).1 rfl
    | receive => exact fun hs => (h.knows u).stands_live (h.others hlocks hu) hs (hfreed.2 rfl)
  have hgone : n ∉ l.erase n := fun hm => (hnodup.mem_erase_iff.1 hm).1 rfl
  simp only [stepThread, ht, touchPlace_spot hcaught.toSpot]
  constructor
  case table =>
    constructor
    case lists => exact lists_unlink h.table.lists hcaught.within hcaught.load
    case distinct => exact h.table.distinct.sublist (List.erase_sublist.map _)
    case known => exact fun m hm => h.table.known m (List.mem_of_mem_erase hm)
    case freed => exact h.table.freed
  case live =>
    intro m hm hf
    obtain ⟨u, b', p', v', hu⟩ := h.live m (List.mem_of_mem_erase hm) hf
    have hut : u = t := h.locking.alone u t (by rw [hu]; rfl) hlocks
    subst hut
    rw [ht, Pc.unlink.injEq] at hu
    rw [← hu.2.2.1] at hm
    exact absurd hm hgone
  case kept =>
    intro m hm
    rw [List.mem_filter] at hm
    refine hnodup.mem_erase_iff.2 ⟨?_, h.kept m hm.1⟩
    rintro rfl
    simp [hcaught.name] at hm
  case sound => exact h.sound
  case locking =>
    cases k with
    | receive => exact h.locking.keep fun _ => hlocks
    | virtualDir => exact h.locking.keep fun _ => hlocks
  case owning =>
    cases k with
    | receive => exact h.owning.keep fun m hm => by cases hm
    | virtualDir => exact h.owning.gain rfl fun u hu => ((h.knows u).owns_apart hu).notMem hn
  case knows =>
    refine update_knows ?_ fun u hu => (h.knows u).unlinked (hstands u hu) (hC u hu).2 (h.others hlocks hu)
    cases k with
    | receive => trivial
    | virtualDir =>
      have hlive : n ∉ s.table.freed := by
        intro hf
        cases hfreed.1 hf
      exact ⟨hgone, hlive, h.table.known n hn⟩

theorem Inv.dispose (h : Inv k s l) {n : ℕ} (ht : s.pc t = .dispose n) (debug ok : Bool) :
    Inv k (stepThread k debug t ok s) l := by
  have hapart : Apart s.table l n := by
    have := h.knows t
    rwa [ht] at this
  simp only [stepThread, ht, St.drop, touch_live hapart.live]
  have hpc : ∀ b p n v, s.pc t ≠ .unlink b p n v := by simp [ht]
  have hleaves : ∀ u, u ≠ t → Leaves s.table { s.table with freed := n :: s.table.freed } l (s.pc u) := by
    intro u hu
    constructor
    case head => rfl
    case next => exact fun m _ => rfl
    case name => exact fun m _ => rfl
    case freed =>
      intro m hm
      refine ⟨fun hf => ?_, List.mem_cons_of_mem n⟩
      rcases List.mem_cons.1 hf with rfl | hf
      · exact absurd hm hapart.notMem
      · exact hf
    case fresh => exact le_rfl
    case own =>
      intro m hm
      have hne : m ≠ n := by
        rintro rfl
        exact hu (h.owning u t m hm (by rw [ht]; rfl))
      exact ⟨rfl, rfl, live_freed ((h.knows u).owns_apart hm).live hne⟩
  constructor
  case table => exact ⟨h.table.lists, h.table.distinct, h.table.known, List.forall_mem_cons.2 ⟨hapart.lt, h.table.freed⟩⟩
  case live =>
    intro m hm hf
    rcases List.mem_cons.1 hf with rfl | hf
    · exact absurd hm hapart.notMem
    · exact h.unlinks hpc hm hf
  case kept => exact h.kept
  case sound => exact h.sound
  case locking => exact h.locking.keep fun hl => by cases hl
  case owning => exact h.owning.keep fun m hm => by cases hm
  case knows => exact update_knows trivial fun u hu => (h.knows u).leaves h.table (hleaves u hu)

/-- a remove reads the entry it has found; nothing else can have freed it -/
theorem Inv.read (h : Inv k s l) {b : α} {p : Place ℕ} {n : ℕ} (ht : s.pc t = .read b p n) (debug ok : Bool) :
    Inv k (stepThread k debug t ok s) l := by
  have hk : Knows k s.table l (.read b p n) := by
    have := h.knows t
    rwa [ht] at this
  obtain ⟨hcaught, hlive⟩ := hk
  simp only [stepThread, ht, touch_live hlive]
  have hpc : ∀ b p n v, s.pc t ≠ .unlink b p n v := by simp [ht]
  have hlocks : (s.pc t).locks k = true := by rw [ht]; rfl
  cases k with
  | receive => exact h.goto hpc (fun _ => hlocks) (fun m hm => by cases hm) ⟨hcaught, hlive, rfl, rfl⟩
  | virtualDir =>
    have hfreed : n ∈ s.table.freed ↔ Kind.virtualDir = .receive := ⟨fun hf => absurd hf hlive, fun hk => by cases hk⟩
    exact h.goto hpc (fun _ => hlocks) (fun m hm => by cases hm) ⟨hcaught, rfl, hfreed⟩

/-- a remove of a receive target looks again at what it has found, now with the lock -/
theorem Inv.take (h : Inv k s l) {b : α} {p : Place ℕ} (ht : s.pc t = .take b p) (debug ok : Bool) :
    Inv k (stepThread k debug t ok s) l := by
  have hk : Knows k s.table l (.take b p) := by
    have := h.knows t
    rwa [ht] at this
  obtain ⟨hspot, n, hn, hname⟩ := hk
  have hload : s.table.links.load p = some n := hn
  have hpc : ∀ b p n v, s.pc t ≠ .unlink b p n v := by simp [ht]
  have hlocks : (s.pc t).locks k = true := by rw [ht]; rfl
  have hlive := h.live_of_locks hlocks hpc (hspot.load_mem h.table hn)
  simp only [stepThread, ht, hload, touchPlace_spot hspot]
  exact h.goto hpc (fun _ => hlocks) (fun m hm => by cases hm) ⟨⟨hspot, hload, hname⟩, hlive⟩

/-- **Step lemma.** A step that does no harm to another call's search keeps the invariant. -/
theorem inv_step (h : Inv k s l) (debug : Bool) {o : Op ι α} (hC : Exclusive k s o) :
    Inv k (step k debug s o) (s.after o l) := by
  cases o with
  | call u c =>
    simp only [step, St.after]
    split_ifs with hidle hsearch
    · exact h.goto (by simp [hidle]) (fun hl => by cases hl) (fun n hn => by cases hn) trivial
    · refine h.goto (by simp [hidle]) (fun hl => absurd hl hsearch) (fun n hn => by cases hn) ⟨⟨trivial, ?_⟩, ?_⟩
      · exact fun n hn => by cases hn
      · exact fun a _ => ⟨[], rfl, fun n hn => by cases hn⟩
    · exact h
  | step u ok =>
    have hk := h.knows u
    simp only [Exclusive] at hC
    simp only [step, St.after]
    cases ht : s.pc u with
    | idle =>
      rw [stepThread, ht]
      exact h
    | enter c =>
      rw [stepThread, ht]
      refine h.acquire (by simp [ht]) (fun n hn => by cases hn) ⟨⟨trivial, ?_⟩, ?_⟩
      · exact fun n hn => by cases hn
      · exact fun a _ => ⟨[], rfl, fun n hn => by cases hn⟩
    | seek c p =>
      rw [ht] at hC
      exact h.seek ht hC debug ok
    | compare c p n => exact h.compare ht debug ok
    | found c p =>
      rw [ht] at hC
      refine h.found ht (fun a hc => ?_) debug ok
      subst hc
      exact hC
    | checkDir a =>
      rw [ht] at hk
      rw [stepThread, ht]
      exact h.acquire (by simp [ht]) (fun n hn => by cases hn) hk
    | statted a =>
      rw [ht] at hk
      rw [stepThread, ht]
      refine h.release (by rw [ht]; rfl) (by simp [ht]) ?_ ?_ ?_
      · cases ok <;> rfl
      · cases ok <;> exact fun n hn => by cases hn
      · cases ok with
        | true => exact hk
        | false => trivial
    | create a => exact h.create ht debug ok
    | insert n =>
      rw [ht] at hk
      rw [stepThread, ht]
      exact h.acquire (by simp [ht]) (fun m hm => by rw [ht]; exact hm) hk
    | link n => exact h.link ht debug ok
    | publish n =>
      rw [ht] at hC
      exact h.publish ht hC debug ok
    | await a p =>
      rw [ht] at hk
      rw [stepThread, ht]
      exact h.acquire (by simp [ht]) (fun n hn => by cases hn) hk
    | take a p => exact h.take ht debug ok
    | read a p n => exact h.read ht debug ok
    | free a p n v =>
      rw [ht] at hC
      exact h.free ht hC debug ok
    | unlink a p n v =>
      rw [ht] at hC
      exact h.unlink ht hC debug ok
    | use n =>
      rw [ht] at hk
      rw [stepThread, ht]
      simp only [touch_live hk.2]
      refine h.goto (by simp [ht]) ?_ ?_ ?_
      · rw [ht]
        cases k <;> exact fun hl => hl
      · cases k <;> exact fun m hm => by cases hm
      · cases k <;> trivial
    | leave =>
      rw [stepThread, ht]
      exact h.release (by rw [ht]; rfl) (by simp [ht]) rfl (fun n hn => by cases hn) trivial
    | leaveWith n =>
      rw [ht] at hk
      rw [stepThread, ht]
      exact h.release (by rw [ht]; rfl) (by simp [ht]) rfl (fun m hm => by rw [ht]; exact hm) hk
    | dispose n => exact h.dispose ht debug ok

end

/-! ## Runs -/

theorem inv_empty (k : Kind) (name : ℕ → α) : Inv k (St.empty name : St ι α) [] where
  table := ⟨rfl, List.nodup_nil, by simp, by simp [St.empty]⟩
  live := by simp
  kept := by simp [St.empty]
  sound := rfl
  locking := ⟨by simp [St.empty, Pc.locks], by simp [St.empty, Pc.locks]⟩
  owning := by simp [Owning, St.empty, Pc.owns]
  knows := fun _ => trivial

/-- the entries the list is followed to are those the invariant is about -/
theorem Inv.entries (h : Inv k s l) : s.table.entries = l := by
  refine Lib.Chain.walk_segment h.table.lists ?_
  have hnodup := segment_nodup h.table.lists
  have hsub : l.toFinset ⊆ Finset.range s.table.fresh := by
    intro n hn
    exact Finset.mem_range.2 (h.table.known n (List.mem_toFinset.1 hn))
  have := Finset.card_le_card hsub
  rwa [List.toFinset_card_of_nodup hnodup, Finset.card_range] at this

theorem Inv.right (h : Inv k s l) : Right s where
  distinct := by
    rw [h.entries]
    exact h.table.distinct
  sound := h.sound
  kept := by
    rw [h.entries]
    exact h.kept

end

/-- **Tables.** Every state of a run whose steps do no harm to another call's search is right. -/
theorem right_of_exclusive [DecidableEq ι] [DecidableEq α] (k : Kind) (debug : Bool) (name : ℕ → α) (ops : List (Op ι α))
    (hC : Along (step k debug) (Exclusive k) (St.empty name) ops) (j : ℕ) :
    Right (run (step k debug) (St.empty name) (ops.take j)) := by
  have hstep : ∀ (s : St ι α) o, (∃ l, Inv k s l) → Exclusive k s o → ∃ l, Inv k (step k debug s o) l :=
    fun s o ⟨l, h⟩ ho => ⟨s.after o l, inv_step h debug ho⟩
  obtain ⟨l, h⟩ := run_inv_take hstep ⟨[], inv_empty k name⟩ hC j
  exact h.right

/-- thread t does its next n steps -/
def steps (t : Fin 2) (n : ℕ) : List (Op (Fin 2) Bool) := List.replicate n (.step t true)

/-- one thread adds two entries and removes the one behind, the other looks both up -/
def apartRun : List (Op (Fin 2) Bool) :=
  .call 0 (.add true) :: steps 0 7 ++ .call 0 (.add false) :: steps 0 9 ++ .call 1 (.lookup true) :: steps 1 6 ++
    .call 0 (.remove true) :: steps 0 11 ++ .call 1 (.lookup false) :: steps 1 4

theorem right_of_exclusive_apart : Right (run (step .receive true) (St.empty fun _ => false) apartRun) := by
  simpa only [List.take_length] using right_of_exclusive .receive true (fun _ => false) apartRun (by decide) apartRun.length

/-- two threads add the same name; both searches end before either insertion -/
def twiceRun (n : ℕ) : List (Op (Fin 2) Bool) :=
  .call 0 (.add true) :: .call 1 (.add true) :: steps 0 2 ++ steps 1 2 ++ steps 0 n ++ steps 1 n

/-- a lookup has come to an entry that a remove then frees -/
def staleRun : List (Op (Fin 2) Bool) :=
  .call 0 (.add true) :: steps 0 7 ++ .call 1 (.lookup true) :: steps 1 1 ++ .call 0 (.remove true) :: steps 0 9 ++ steps 1 1

/-- **Two adds of one name that search side by side both insert it**, into either list; and a search of the receive targets
reads an entry that a remove has freed. -/
theorem added_twice :
    ¬ Right (run (step .receive true) (St.empty fun _ => false) (twiceRun 5)) ∧
      ¬ Right (run (step .virtualDir true) (St.empty fun _ => false) (twiceRun 7)) ∧
      ¬ Right (run (step .receive true) (St.empty fun _ => false) staleRun) :=
  ⟨fun h => absurd h.distinct (by decide), fun h => absurd h.distinct (by decide), fun h => absurd h.sound (by decide)⟩

end CcApi.Tables
