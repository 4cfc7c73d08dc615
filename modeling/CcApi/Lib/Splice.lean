/-
Singly linked lists changed through pointers to links.

A pointer to a link points at the list's head or at the next field of a node (`Place`). Code that searches such a list moves a
place along it; code that adds or removes a node stores into a place.

- `Lists`: the links list exactly the nodes of l.
- `Behind`: a place lies behind the nodes of a part of the list.
- `Lists.store_of_not_mem`, `Lists.cons`, `Lists.unlink`: the three stores of adding at the head and of removing.
- `Behind.cons`, `Behind.erase`, `UpTo.erase`: where a place or a node stands after such a store.
-/
import CcApi.Lib.Chain

namespace Lib.Splice

open Lib.Chain

variable {α : Type*}

/-- where a link is kept -/
inductive Place (α : Type*) where
  | head
  | next (a : α)
deriving DecidableEq, Repr

structure Links (α : Type*) where
  head : Option α
  next : α → Option α

namespace Links

def load (k : Links α) : Place α → Option α
  | .head => k.head
  | .next a => k.next a

def store [DecidableEq α] (k : Links α) (p : Place α) (v : Option α) : Links α :=
  match p with
  | .head => { k with head := v }
  | .next a => { k with next := Function.update k.next a v }

/-- the links list exactly the nodes of l, in order -/
def Lists (k : Links α) (l : List α) : Prop := Segment k.next k.head l

end Links

/-- l, cut at place p: the nodes in front of the place are pre, its own node the last of them -/
def Behind (l : List α) : Place α → List α → Prop
  | .head, pre => pre = []
  | .next a, pre => ∃ pre' post, pre = pre' ++ [a] ∧ l = pre' ++ a :: post

/-- the nodes of l in front of node a are pre -/
def UpTo (l : List α) (a : α) (pre : List α) : Prop := ∃ post, l = pre ++ a :: post

/-- the place is in the list -/
def Within (l : List α) : Place α → Prop
  | .head => True
  | .next a => a ∈ l

/-! ## Reading -/

theorem segment_split {next : α → Option α} {p : Option α} {pre post : List α} {a : α}
    (h : Segment next p (pre ++ a :: post)) : Segment next (next a) post := by
  induction pre generalizing p with
  | nil => exact h.2
  | cons b pre ih => exact ih h.2

/-- a list that ends visits no node twice -/
theorem segment_nodup {next : α → Option α} {p : Option α} {l : List α} (h : Segment next p l) : l.Nodup := by
  induction l generalizing p with
  | nil => exact List.nodup_nil
  | cons a l ih =>
    refine List.nodup_cons.2 ⟨fun ha => ?_, ih h.2⟩
    obtain ⟨pre, post, rfl⟩ := List.append_of_mem ha
    have := congrArg List.length (h.2.unique (segment_split h.2))
    simp only [List.length_append, List.length_cons] at this
    omega

theorem Behind.load {k : Links α} {l pre : List α} {p : Place α} (h : k.Lists l) (hp : Behind l p pre) :
    ∃ post, l = pre ++ post ∧ k.load p = post.head? := by
  cases p with
  | head =>
    obtain rfl := hp
    exact ⟨l, rfl, (segment_iff.1 h).1⟩
  | next a =>
    obtain ⟨pre', post, rfl, rfl⟩ := hp
    exact ⟨post, by simp, (segment_iff.1 (segment_split h)).1⟩

theorem within_behind {l : List α} {p : Place α} (hp : Within l p) : ∃ pre, Behind l p pre := by
  cases p with
  | head => exact ⟨[], rfl⟩
  | next a =>
    obtain ⟨pre, post, h⟩ := List.append_of_mem hp
    exact ⟨pre ++ [a], pre, post, rfl, h⟩

theorem mem_of_load {k : Links α} {l : List α} {p : Place α} {a : α} (h : k.Lists l) (hp : Within l p)
    (hload : k.load p = some a) : a ∈ l := by
  obtain ⟨pre, hpre⟩ := within_behind hp
  obtain ⟨post, rfl, hpost⟩ := hpre.load h
  rw [hload] at hpost
  exact List.mem_append_right _ (List.mem_of_mem_head? hpost.symm)

/-- the node a place leads to comes next behind it -/
theorem Behind.upTo {k : Links α} {l pre : List α} {p : Place α} {a : α} (h : k.Lists l) (hp : Behind l p pre)
    (hload : k.load p = some a) : UpTo l a pre := by
  obtain ⟨post, rfl, hpost⟩ := hp.load h
  rw [hload] at hpost
  cases post with
  | nil => cases hpost
  | cons b post =>
    simp only [List.head?_cons, Option.some.injEq] at hpost
    exact ⟨post, by rw [hpost]⟩

/-- a place that leads nowhere is behind the whole list -/
theorem Behind.all {k : Links α} {l pre : List α} {p : Place α} (h : k.Lists l) (hp : Behind l p pre)
    (hload : k.load p = none) : pre = l := by
  obtain ⟨post, rfl, hpost⟩ := hp.load h
  rw [hload] at hpost
  cases post with
  | nil => rw [List.append_nil]
  | cons b post => cases hpost

theorem UpTo.behind {l pre : List α} {a : α} (h : UpTo l a pre) : Behind l (.next a) (pre ++ [a]) := by
  obtain ⟨post, h⟩ := h
  exact ⟨pre, post, rfl, h⟩

theorem upTo_unique {l pre pre' : List α} {a : α} (hl : l.Nodup) (h : UpTo l a pre) (h' : UpTo l a pre') :
    pre = pre' := by
  obtain ⟨post, rfl⟩ := h
  obtain ⟨post', h'⟩ := h'
  rw [List.nodup_append, List.nodup_cons] at hl
  have hpre : a ∉ pre := fun ha => hl.2.2 a ha a List.mem_cons_self rfl
  exact ((List.append_cons_inj_of_notMem hpre hl.2.1.1).1 h').1

theorem behind_unique {l pre : List α} {p q : Place α} (hp : Behind l p pre) (hq : Behind l q pre) : p = q := by
  cases p with
  | head =>
    obtain rfl := hp
    cases q with
    | head => rfl
    | next b =>
      obtain ⟨pre', post, hnil, -⟩ := hq
      simp at hnil
  | next a =>
    obtain ⟨pre', post, rfl, -⟩ := hp
    cases q with
    | head => simp [Behind] at hq
    | next b =>
      obtain ⟨pre'', post', heq, -⟩ := hq
      have hlast := congrArg List.getLast? heq
      simp only [List.getLast?_concat, Option.some.injEq] at hlast
      rw [hlast]

/-- two places of one list that lead to the same node are the same -/
theorem place_unique {k : Links α} {l : List α} {p q : Place α} {a : α} (h : k.Lists l) (hp : Within l p)
    (hq : Within l q) (hpa : k.load p = some a) (hqa : k.load q = some a) : p = q := by
  obtain ⟨pre, hpre⟩ := within_behind hp
  obtain ⟨pre', hpre'⟩ := within_behind hq
  obtain rfl := upTo_unique (segment_nodup h) (hpre.upTo h hpa) (hpre'.upTo h hqa)
  exact behind_unique hpre hpre'

theorem segment_congr {next next' : α → Option α} {p : Option α} {l : List α} (h : Segment next p l)
    (he : ∀ a ∈ l, next' a = next a) : Segment next' p l := by
  induction l generalizing p with
  | nil => exact h
  | cons a l ih =>
    refine ⟨h.1, ?_⟩
    rw [he a List.mem_cons_self]
    exact ih h.2 fun b hb => he b (List.mem_cons_of_mem a hb)

/-! ## Storing -/

section
variable [DecidableEq α]

@[simp] theorem load_store (k : Links α) (p : Place α) (v : Option α) : (k.store p v).load p = v := by
  cases p <;> simp [Links.store, Links.load]

theorem load_store_ne {p q : Place α} (h : q ≠ p) (k : Links α) (v : Option α) : (k.store p v).load q = k.load q := by
  cases p <;> cases q <;> simp [Links.store, Links.load] at h ⊢
  exact Function.update_of_ne h _ _

/-- the node behind b is taken out -/
theorem segment_unlink {next : α → Option α} {p : Option α} {pre post : List α} {a b : α}
    (h : Segment next p (pre ++ b :: a :: post)) :
    Segment (Function.update next b (next a)) p (pre ++ b :: post) := by
  have hnodup := segment_nodup h
  induction pre generalizing p with
  | nil =>
    refine ⟨h.1, ?_⟩
    rw [Function.update_self]
    refine segment_congr h.2.2 fun c hc => Function.update_of_ne ?_ _ _
    rintro rfl
    exact (List.nodup_cons.1 hnodup).1 (List.mem_cons_of_mem a hc)
  | cons c pre ih =>
    obtain ⟨hc, hnodup⟩ := List.nodup_cons.1 hnodup
    refine ⟨h.1, ?_⟩
    rw [Function.update_of_ne fun e => hc (by rw [e]; simp)]
    exact ih h.2 hnodup

/-- a node that is not in the list may be prepared -/
theorem lists_store_of_not_mem {k : Links α} {l : List α} {a : α} (h : k.Lists l) (ha : a ∉ l) (v : Option α) :
    (k.store (.next a) v).Lists l := by
  refine segment_congr h fun b hb => Function.update_of_ne ?_ _ _
  rintro rfl
  exact ha hb

/-- a prepared node is put in front -/
theorem lists_cons {k : Links α} {l : List α} {a : α} (h : k.Lists l) (ha : k.next a = k.head) :
    (k.store .head (some a)).Lists (a :: l) := by
  refine ⟨rfl, ?_⟩
  change Segment k.next (k.next a) l
  rw [ha]
  exact h

/-- the node a place leads to is taken out -/
theorem lists_unlink {k : Links α} {l : List α} {p : Place α} {a : α} (h : k.Lists l) (hp : Within l p)
    (hload : k.load p = some a) : (k.store p (k.next a)).Lists (l.erase a) := by
  obtain ⟨pre, hpre⟩ := within_behind hp
  obtain ⟨post, hl⟩ := hpre.upTo h hload
  have hnodup := segment_nodup h
  cases p with
  | head =>
    obtain rfl := hpre
    rw [List.nil_append] at hl
    subst hl
    rw [List.erase_cons_head]
    exact h.2
  | next b =>
    obtain ⟨pre', post', rfl, -⟩ := hpre
    rw [List.append_assoc, List.singleton_append] at hl
    subst hl
    have hnot : a ∉ pre' ++ [b] := by
      intro ha
      have hl : pre' ++ b :: a :: post = (pre' ++ [b]) ++ a :: post := by simp
      rw [hl] at hnodup
      exact (List.nodup_append.1 hnodup).2.2 a ha a List.mem_cons_self rfl
    have herase : (pre' ++ b :: a :: post).erase a = pre' ++ b :: post := by
      have hl : pre' ++ b :: a :: post = (pre' ++ [b]) ++ a :: post := by simp
      rw [hl, List.erase_append_right _ hnot, List.erase_cons_head]
      simp
    rw [herase]
    exact segment_unlink h

/-- a node that stays in the list keeps what is in front of it, the removed node apart -/
theorem UpTo.erase {l pre : List α} {a b : α} (h : UpTo l b pre) (hne : b ≠ a) : UpTo (l.erase a) b (pre.erase a) := by
  obtain ⟨post, rfl⟩ := h
  by_cases ha : a ∈ pre
  · exact ⟨post, List.erase_append_left _ ha⟩
  · refine ⟨post.erase a, ?_⟩
    rw [List.erase_append_right _ ha, List.erase_of_not_mem ha, List.erase_cons_tail]
    simpa using hne

theorem Behind.erase {l pre : List α} {a : α} {p : Place α} (h : Behind l p pre) (hne : p ≠ .next a) :
    Behind (l.erase a) p (pre.erase a) := by
  cases p with
  | head =>
    obtain rfl := h
    rfl
  | next b =>
    obtain ⟨pre', post, rfl, hl⟩ := h
    have hba : b ≠ a := fun e => hne (by rw [e])
    obtain ⟨post', herase⟩ := UpTo.erase ⟨post, hl⟩ hba
    refine ⟨pre'.erase a, post', ?_, herase⟩
    by_cases ha : a ∈ pre'
    · exact List.erase_append_left _ ha
    · rw [List.erase_append_right _ ha, List.erase_of_not_mem ha, List.erase_of_not_mem (by simpa using hba.symm)]

end

theorem UpTo.cons {l pre : List α} {b : α} (h : UpTo l b pre) (a : α) : UpTo (a :: l) b (a :: pre) := by
  obtain ⟨post, rfl⟩ := h
  exact ⟨post, rfl⟩

/-- a place inside the list has one node more in front of it -/
theorem Behind.cons {l pre : List α} {b : α} (h : Behind l (.next b) pre) (a : α) :
    Behind (a :: l) (.next b) (a :: pre) := by
  obtain ⟨pre', post, rfl, rfl⟩ := h
  exact ⟨a :: pre', post, rfl, rfl⟩

end Lib.Splice
