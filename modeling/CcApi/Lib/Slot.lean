/-
The pointer to the one record of its kind, which threads replace, clear and lend with no lock between them.

A maker frees the record that is pointed to and makes a new one; it uses it, lends it to a reader, and leaves it to the pointer,
or frees it and clears the pointer. A keeper frees the record and clears the pointer behind it. A retirement frees the record
and leaves the pointer as it is, for good. Between a free and the next write the pointer dangles: whoever follows it uses, or
frees again, what has been freed.

- `step_inv`: under the discipline `Respects`, which keeps everybody from a pointer that dangles and from a record that somebody
  has, nothing freed is used, nothing is freed twice, and no record is lost.
- `Inv.retired`: once the pointer has been retired every record has been freed.
-/
import CcApi.Lib.Ledger
import CcApi.Lib.Runs

namespace Lib.Slot

inductive Maker where
  | away
  /-- it has freed the old record -/
  | emptied
  /-- it has a new record -/
  | holding
  /-- it is about to free what is pointed to -/
  | failing
  /-- it has freed that -/
  | failed
deriving DecidableEq, Repr

structure State where
  pointer : Option ℕ
  records : Ledger
  /-- a freed record has been used or freed, or a NULL pointer followed -/
  faulted : Bool
  /-- the reader has the record -/
  lent : Bool
  maker : Maker
  /-- the keeper has freed the record -/
  clearing : Bool
  retired : Bool

inductive Op where
  | empty
  | make (ok : Bool)
  | use
  | fail
  | leave
  | lend
  | touch
  | giveBack
  | discard
  | clear
  | free
  | wipe
  | retire

/-- the pointer points to a record that has not been freed -/
def State.usable (s : State) : Bool :=
  match s.pointer with
  | some r => r ∉ s.records.releases
  | none => false

/-- a use of the record -/
def State.used (s : State) : State := { s with faulted := s.faulted || !s.usable }

/-- free what is pointed to, if anything is -/
def State.freed (s : State) : State :=
  match s.pointer with
  | some r => { s.used with records := s.records.release r }
  | none => s

def step (s : State) : Op → State
  | .empty => { s.freed with maker := .emptied }
  | .make ok =>
    { s with pointer := (s.records.acquire ok).1, records := (s.records.acquire ok).2
             maker := if ok then .holding else .failing }
  | .use => s.used
  | .fail => { s with maker := .failing }
  | .leave => { s with maker := .away }
  | .lend => { s with lent := true }
  | .touch => s.used
  | .giveBack => { s with lent := false }
  | .discard => { s.freed with maker := if s.pointer = none then .away else .failed }
  | .clear => { s with pointer := none, maker := .away }
  | .free => { s.freed with clearing := true }
  | .wipe => { s with pointer := none, clearing := false }
  | .retire => { s.freed with retired := true }

/-- what is pointed to may be freed: nobody else has it, and it has not been -/
def State.Free (s : State) : Prop := s.lent = false ∧ s.clearing = false ∧ s.retired = false

/-- the discipline -/
def Respects (s : State) : Op → Prop
  | .empty => s.maker = .away ∧ s.Free
  | .make _ => s.maker = .emptied
  | .use | .leave | .lend => s.maker = .holding
  | .fail => s.maker = .away ∨ s.maker = .holding
  | .touch => s.lent = true
  | .giveBack => True
  | .discard => s.maker = .failing ∧ s.Free
  | .clear => s.maker = .failed
  | .free | .retire => s.maker = .away ∧ s.Free
  | .wipe => s.clearing = true

/-! ## The invariant -/

/-- the pointer may point to what has been freed -/
def State.Dangling (s : State) : Prop :=
  s.maker = .emptied ∨ s.maker = .failed ∨ s.clearing = true ∨ s.retired = true

structure Inv (s : State) : Prop where
  records : s.records.Sound
  pointed : ∀ r, s.pointer = some r → r < s.records.next
  kept : ∀ r < s.records.next, r ∈ s.records.releases ∨ s.pointer = some r
  sound : s.faulted = false
  usable : ¬ s.Dangling → ∀ r, s.pointer = some r → r ∉ s.records.releases
  gone : s.Dangling → ∀ r, s.pointer = some r → r ∈ s.records.releases
  holding : s.maker = .holding → s.usable = true
  lent : s.lent = true → s.usable = true ∧ ¬ s.Dangling
  apart : s.clearing = true ∨ s.retired = true → s.maker = .away ∨ s.maker = .failing

theorem usable_iff {s : State} : s.usable = true ↔ ∃ r, s.pointer = some r ∧ r ∉ s.records.releases := by
  unfold State.usable
  cases s.pointer <;> simp

theorem used_eq {s : State} (h : s.usable = true) : s.used = s := by
  obtain ⟨pointer, records, faulted, lent, maker, clearing, retired⟩ := s
  simp [State.used, h]

/-- no record has been made -/
theorem inv_empty {s : State} (hpointer : s.pointer = none) (hrecords : s.records = Ledger.empty)
    (hfaulted : s.faulted = false) (hlent : s.lent = false) (hmaker : s.maker = .away) : Inv s := by
  obtain ⟨pointer, records, faulted, lent, maker, clearing, retired⟩ := s
  subst hpointer hrecords hfaulted hlent hmaker
  exact ⟨Ledger.sound_empty, nofun, nofun, rfl, nofun, nofun, nofun, nofun, fun _ => .inl rfl⟩

/-- what a free leaves alone -/
theorem freed_frame (s : State) : s.freed.pointer = s.pointer ∧ s.freed.records.next = s.records.next ∧
    s.freed.lent = s.lent ∧ s.freed.maker = s.maker ∧ s.freed.clearing = s.clearing ∧ s.freed.retired = s.retired := by
  unfold State.freed
  split <;> exact ⟨rfl, rfl, rfl, rfl, rfl, rfl⟩

/-- a free of what does not dangle -/
theorem Inv.freed {s : State} (h : Inv s) (hd : ¬ s.Dangling) : s.freed.records.Sound ∧ s.freed.faulted = false ∧
    ∀ r < s.records.next, r ∈ s.freed.records.releases := by
  unfold State.freed
  cases hp : s.pointer with
  | none =>
    refine ⟨h.records, h.sound, fun r hr => (h.kept r hr).resolve_right ?_⟩
    simp [hp]
  | some r =>
    have hnot : r ∉ s.records.releases := h.usable hd r hp
    have husable : s.usable = true := usable_iff.2 ⟨r, hp, hnot⟩
    refine ⟨h.records.release ⟨h.pointed r hp, hnot⟩, by simp [used_eq husable, h.sound], fun r' hr' => ?_⟩
    rcases h.kept r' hr' with hr' | hr'
    · exact List.mem_append_left _ hr'
    · obtain rfl : r = r' := by simpa [hp] using hr'
      exact List.mem_append_right _ List.mem_cons_self

/-- behind a free the pointer dangles -/
theorem Inv.dangle {s t : State} (h : Inv s) (hd : ¬ s.Dangling) (hpointer : t.pointer = s.pointer)
    (hrecords : t.records = s.freed.records) (hfaulted : t.faulted = s.freed.faulted) (hlent : t.lent = false)
    (hmaker : t.maker ≠ .holding) (ht : t.Dangling)
    (hapart : t.clearing = true ∨ t.retired = true → t.maker = .away ∨ t.maker = .failing) : Inv t := by
  obtain ⟨hsound, hfault, hall⟩ := h.freed hd
  have hnext : t.records.next = s.records.next := by rw [hrecords, (freed_frame s).2.1]
  refine ⟨hrecords ▸ hsound, fun r hr => ?_, fun r hr => ?_, hfaulted.trans hfault, fun hnot => absurd ht hnot,
    fun _ r hr => ?_, fun hm => absurd hm hmaker, fun hl => ?_, hapart⟩
  · rw [hnext]
    exact h.pointed r (hpointer ▸ hr)
  · rw [hrecords]
    exact .inl (hall r (hnext ▸ hr))
  · rw [hrecords]
    exact hall r (h.pointed r (hpointer ▸ hr))
  · rw [hlent] at hl
    cases hl

/-- a pointer that dangles may be cleared -/
theorem Inv.cleared {s t : State} (h : Inv s) (hd : s.Dangling) (hpointer : t.pointer = none)
    (hrecords : t.records = s.records) (hfaulted : t.faulted = s.faulted) (hlent : t.lent = s.lent)
    (hmaker : t.maker ≠ .holding)
    (hapart : t.clearing = true ∨ t.retired = true → t.maker = .away ∨ t.maker = .failing) : Inv t := by
  refine ⟨hrecords ▸ h.records, fun r hr => ?_, fun r hr => ?_, hfaulted.trans h.sound, fun _ r hr => ?_,
    fun _ r hr => ?_, fun hm => absurd hm hmaker, fun hl => absurd hd (h.lent (hlent ▸ hl)).2, hapart⟩
  · rw [hpointer] at hr
    cases hr
  · rw [hrecords] at hr ⊢
    rcases h.kept r hr with hr | hr
    · exact .inl hr
    · exact .inl (h.gone hd r hr)
  · rw [hpointer] at hr
    cases hr
  · rw [hpointer] at hr
    cases hr

/-- a step that moves neither the pointer nor a record -/
theorem Inv.same {s t : State} (h : Inv s) (hpointer : t.pointer = s.pointer) (hrecords : t.records = s.records)
    (hfaulted : t.faulted = s.faulted) (hdangling : t.Dangling ↔ s.Dangling)
    (hholding : t.maker = .holding → s.maker = .holding)
    (hlent : t.lent = true → s.lent = true ∨ s.maker = .holding ∧ ¬ s.Dangling)
    (hapart : t.clearing = true ∨ t.retired = true → t.maker = .away ∨ t.maker = .failing) : Inv t := by
  have husable : t.usable = s.usable := by simp only [State.usable, hpointer, hrecords]
  refine ⟨hrecords ▸ h.records, ?_, ?_, hfaulted.trans h.sound, ?_, ?_, ?_, ?_, hapart⟩
  · rw [hpointer, hrecords]
    exact h.pointed
  · rw [hpointer, hrecords]
    exact h.kept
  · rw [hpointer, hrecords, hdangling]
    exact h.usable
  · rw [hpointer, hrecords, hdangling]
    exact h.gone
  · rw [husable]
    exact fun hm => h.holding (hholding hm)
  · rw [husable, hdangling]
    intro hl
    rcases hlent hl with hl | ⟨hm, hd⟩
    · exact h.lent hl
    · exact ⟨h.holding hm, hd⟩

theorem not_dangling_of_free {s : State} (hfree : s.Free) (hempty : s.maker ≠ .emptied) (hfailed : s.maker ≠ .failed) :
    ¬ s.Dangling := by
  obtain ⟨-, hclearing, hretired⟩ := hfree
  simp [State.Dangling, hempty, hfailed, hclearing, hretired]

/-- who holds a record is alone with the pointer -/
theorem Inv.not_dangling {s : State} (h : Inv s) (hm : s.maker = .holding) : ¬ s.Dangling := by
  rintro (hd | hd | hd | hd)
  · simp [hm] at hd
  · simp [hm] at hd
  · simpa [hm] using h.apart (.inl hd)
  · simpa [hm] using h.apart (.inr hd)

theorem Inv.make {s : State} (h : Inv s) (hm : s.maker = .emptied) (ok : Bool) : Inv (step s (.make ok)) := by
  have hd : s.Dangling := .inl hm
  have hnot : ¬ (s.clearing = true ∨ s.retired = true) := fun hc => by simpa [hm] using h.apart hc
  have hlent : s.lent = false := by
    by_contra hl
    exact (h.lent (by simpa using hl)).2 hd
  cases ok with
  | false => exact h.cleared hd rfl rfl rfl rfl (by simp [step]) fun hc => absurd hc hnot
  | true =>
    have hnew : s.records.next ∉ s.records.releases := fun hr => lt_irrefl _ (h.records.known _ hr)
    refine ⟨h.records.acquire true, fun r hr => ?_, fun r hr => ?_, h.sound, fun _ r hr => ?_, fun hd' => ?_, fun _ => ?_,
      fun hl => ?_, fun hc => absurd hc hnot⟩
    · obtain rfl : s.records.next = r := by simpa [step] using hr
      exact Nat.lt_succ_self _
    · rcases Nat.lt_succ_iff_lt_or_eq.1 hr with hr | rfl
      · rcases h.kept r hr with hr | hr
        · exact .inl hr
        · exact .inl (h.gone hd r hr)
      · exact .inr rfl
    · obtain rfl : s.records.next = r := by simpa [step] using hr
      exact hnew
    · exfalso
      simp only [step, State.Dangling] at hd'
      simp at hd'
      exact hnot hd'
    · exact usable_iff.2 ⟨s.records.next, rfl, hnew⟩
    · simp [step, hlent] at hl

/-- **Step.** -/
theorem step_inv (s : State) (o : Op) (h : Inv s) (ho : Respects s o) : Inv (step s o) := by
  cases o with
  | empty =>
    obtain ⟨hm, hfree⟩ := ho
    obtain ⟨hp, -, hl, -, hc, hr⟩ := freed_frame s
    have hd := not_dangling_of_free hfree (by simp [hm]) (by simp [hm])
    refine h.dangle hd hp rfl rfl (hl.trans hfree.1) (by simp [step]) (.inl rfl) fun hcr => ?_
    simp [step, hc, hr, hfree.2.1, hfree.2.2] at hcr
  | make ok => exact h.make ho ok
  | use =>
    have hs : step s .use = s := used_eq (h.holding ho)
    rwa [hs]
  | fail =>
    refine h.same rfl rfl rfl ?_ (by simp [step]) (fun hl => .inl hl) fun _ => .inr rfl
    rcases ho with hm | hm <;> simp [State.Dangling, step, hm]
  | leave =>
    have hm : s.maker = .holding := ho
    exact h.same rfl rfl rfl (by simp [State.Dangling, step, hm]) (by simp [step]) (fun hl => .inl hl) fun _ => .inl rfl
  | lend => exact h.same rfl rfl rfl Iff.rfl id (fun _ => .inr ⟨ho, h.not_dangling ho⟩) h.apart
  | touch =>
    have hs : step s .touch = s := used_eq (h.lent ho).1
    rwa [hs]
  | giveBack => exact h.same rfl rfl rfl Iff.rfl id (fun hl => by simp [step] at hl) h.apart
  | discard =>
    obtain ⟨hm, hfree⟩ := ho
    obtain ⟨hp, -, hl, -, hc, hr⟩ := freed_frame s
    have hd := not_dangling_of_free hfree (by simp [hm]) (by simp [hm])
    cases hpointer : s.pointer with
    | none =>
      have hs : s.freed = s := by simp [State.freed, hpointer]
      simp only [step, hpointer, if_true, hs]
      exact h.same hpointer.symm rfl rfl (by simp [State.Dangling, hm]) (by simp) (fun hl => .inl hl) fun _ => .inl rfl
    | some r =>
      refine h.dangle hd hp rfl rfl (hl.trans hfree.1) (by simp [step, hpointer]) (.inr (.inl (by simp [step, hpointer])))
        fun hcr => ?_
      simp [step, hc, hr, hfree.2.1, hfree.2.2] at hcr
  | clear =>
    have hm : s.maker = .failed := ho
    exact h.cleared (.inr (.inl hm)) rfl rfl rfl rfl (by simp [step]) fun _ => .inl rfl
  | free =>
    obtain ⟨hm, hfree⟩ := ho
    obtain ⟨hp, -, hl, hmaker, -, -⟩ := freed_frame s
    have hd := not_dangling_of_free hfree (by simp [hm]) (by simp [hm])
    exact h.dangle hd hp rfl rfl (hl.trans hfree.1) (by simp [step, hmaker, hm]) (.inr (.inr (.inl rfl)))
      fun _ => .inl (hmaker.trans hm)
  | wipe =>
    have hc : s.clearing = true := ho
    refine h.cleared (.inr (.inr (.inl hc))) rfl rfl rfl rfl ?_ fun _ => h.apart (.inl hc)
    intro hm
    simpa [show s.maker = .holding from hm] using h.apart (.inl hc)
  | retire =>
    obtain ⟨hm, hfree⟩ := ho
    obtain ⟨hp, -, hl, hmaker, -, -⟩ := freed_frame s
    have hd := not_dangling_of_free hfree (by simp [hm]) (by simp [hm])
    exact h.dangle hd hp rfl rfl (hl.trans hfree.1) (by simp [step, hmaker, hm]) (.inr (.inr (.inr rfl)))
      fun _ => .inl (hmaker.trans hm)

/-- once the pointer has been retired every record has been freed -/
theorem Inv.retired {s : State} (h : Inv s) (hr : s.retired = true) : ∀ r < s.records.next, r ∈ s.records.releases := by
  intro r hlt
  rcases h.kept r hlt with hmem | hp
  · exact hmem
  · exact h.gone (.inr (.inr (.inr hr))) r hp

end Lib.Slot
