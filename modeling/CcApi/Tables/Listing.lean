/-
Listing the root directory while virtual directories come and go (`ccapi_filesystem_handler.c`).

The stat of the root path leaves the connector a handle that points at the first entry of the list. Each readdir reports the
entry the handle points at and moves the handle to the entry's successor; when it is NULL the empty name is reported. closedir
frees the handle. Every request runs under the list's lock, but the handle lives on between them, and remove does not know
of it.

- `Listed`: nothing freed has been touched, no name is reported twice, and the empty name comes only when every directory that
  has been mapped since the stat is reported.
- `Unhurried`: no remove takes out the entry the listing is to report next, and the calls keep to `Exclusive`.
- `listed_of_unhurried`: every run of such steps is `Listed` in every state.
- `next_removed`: a remove frees the entry the handle points at, and readdir reads it.

Premises: the connector makes one request at a time and begins a listing when it has closed the last one; its buffer holds
every name (add refuses names longer than a path may be).
-/
import CcApi.Tables.Exclusion

namespace CcApi.Tables

open Lib.Splice Lib.Runs

inductive Request where
  | stat
  | opendir
  | readdir
  | closedir
deriving DecidableEq, Repr

/-- where the connector's thread stands in `ccapi_filesystem_handler` -/
inductive HandlerPc where
  | idle
  /-- take the lock -/
  | enter (r : Request)
  | serve (r : Request)
  /-- readdir: read the entry's `next` -/
  | advance (n : ℕ)
  /-- release the lock -/
  | leave
deriving DecidableEq, Repr

structure Listing where
  /-- `root_dir_listing_handle`, which the connector has as `user_context`: its `dir_entry` -/
  handle : Option (Option ℕ)
  /-- the entries whose names were reported -/
  reported : List ℕ
  /-- the empty name was reported -/
  ended : Bool
  /-- the entries that have been in the list ever since the stat -/
  whole : List ℕ
deriving DecidableEq, Repr

structure World (ι α : Type) where
  tables : St ι α
  handler : HandlerPc
  listing : Listing

inductive WorldOp (ι α : Type) where
  /-- a call of the application's threads, or a step of one -/
  | table (o : Op ι α)
  /-- the connector makes a request -/
  | request (r : Request)
  /-- the handler's next step; ok says whether what may fail succeeds -/
  | handler (ok : Bool)
deriving DecidableEq, Repr

variable {ι α : Type}

/-- the entry a remove takes out with its next step -/
def Pc.removes : Pc α → Option ℕ
  | .unlink _ _ n _ => some n
  | _ => none

structure Listed (w : World ι α) : Prop where
  sound : w.tables.faulted = false
  once : (w.listing.reported.map w.tables.table.name).Nodup
  complete : w.listing.ended = true → ∀ n ∈ w.listing.whole, n ∈ w.listing.reported

/-- no remove takes out the entry the listing is to report next -/
def Unhurried (w : World ι α) : WorldOp ι α → Prop
  | .table (.step t ok) =>
    Exclusive .virtualDir w.tables (.step t ok) ∧ ∀ n ∈ (w.tables.pc t).removes, w.listing.handle ≠ some (some n)
  | _ => True

def World.empty (name : ℕ → α) : World ι α :=
  { tables := St.empty name, handler := .idle, listing := ⟨none, [], false, []⟩ }

section
variable [DecidableEq ι] [DecidableEq α]

instance [Fintype ι] (w : World ι α) (o : WorldOp ι α) : Decidable (Unhurried w o) := by
  unfold Unhurried; split <;> infer_instance

/-- `ccapi_fs_hash_status`, `ccapi_fs_dir_open`, `ccapi_fs_dir_read_entry` and `ccapi_fs_dir_close`, as far as the root
directory's listing goes; without a handle the platform is asked -/
def serve (r : Request) (ok : Bool) (w : World ι α) : World ι α :=
  match r, w.listing.handle with
  | .stat, none =>
    if w.tables.table.links.head ≠ none ∧ ok then
      { w with
        listing := ⟨some w.tables.table.links.head, [], false, w.tables.table.entries⟩
        handler := .leave }
    else { w with handler := .leave }
  | .readdir, some none => { w with listing := { w.listing with ended := true }, handler := .leave }
  | .readdir, some (some n) => { w with tables := w.tables.touch n, handler := .advance n }
  | .closedir, some _ => { w with listing := { w.listing with handle := none }, handler := .leave }
  | _, _ => { w with handler := .leave }

def stepHandler (ok : Bool) (w : World ι α) : World ι α :=
  match w.handler with
  | .idle => w
  | .enter r =>
    if ok then
      if w.tables.held then w else { w with tables := { w.tables with held := true }, handler := .serve r }
    else { w with handler := .idle }
  | .serve r => serve r ok w
  | .advance n =>
    { w with
      tables := w.tables.touch n
      listing := { w.listing with handle := some (w.tables.table.links.next n), reported := n :: w.listing.reported }
      handler := .leave }
  | .leave => { w with tables := { w.tables with held := w.tables.held && !ok }, handler := .idle }

def worldStep (debug : Bool) (w : World ι α) : WorldOp ι α → World ι α
  | .table o =>
    let s := step .virtualDir debug w.tables o
    { w with tables := s, listing := { w.listing with whole := w.listing.whole.filter (· ∈ s.table.entries) } }
  | .request r =>
    if w.handler = .idle ∧ (r = .stat → w.listing.handle = none) then { w with handler := .enter r } else w
  | .handler ok => stepHandler ok w

end

/-! ## The invariant -/

def HandlerPc.locks : HandlerPc → Bool
  | .serve _ | .advance _ | .leave => true
  | _ => false

/-- where the listing stands in the list: what is in front of the handle's entry has been reported if it was there from the
beginning, and what is behind it has names not reported yet -/
structure Cursor (t : Table α) (g : Listing) (pre rest : List ℕ) : Prop where
  handle : ∀ d, g.handle = some d → d = rest.head?
  passed : ∀ n ∈ pre, n ∈ g.whole → n ∈ g.reported
  once : ((g.reported ++ rest).map t.name).Nodup

structure WorldInv (w : World ι α) (pre rest : List ℕ) : Prop where
  inv : Inv .virtualDir w.tables (pre ++ rest)
  /-- while the handler has the lock no other thread has it -/
  locked : w.handler.locks = true → w.tables.held = true ∧ ∀ u, (w.tables.pc u).locks .virtualDir ≠ true
  advancing : ∀ n, w.handler = .advance n → w.listing.handle = some (some n)
  cursor : Cursor w.tables.table w.listing pre rest
  whole : ∀ n ∈ w.listing.whole, n ∈ pre ++ rest
  known : ∀ n ∈ w.listing.reported, n < w.tables.table.fresh
  ended : w.listing.ended = true → ∀ n ∈ w.listing.whole, n ∈ w.listing.reported

theorem WorldInv.listed {w : World ι α} {pre rest : List ℕ} (h : WorldInv w pre rest) : Listed w where
  sound := h.inv.sound
  once := by
    have := h.cursor.once
    rw [List.map_append] at this
    exact (List.nodup_append.1 this).1
  complete := h.ended

/-! ## Steps of the handler -/

theorem WorldInv.goto {w : World ι α} {pre rest : List ℕ} (h : WorldInv w pre rest) {pc : HandlerPc}
    (hl : pc.locks = true → w.handler.locks = true) (ha : ∀ n, pc = .advance n → w.listing.handle = some (some n)) :
    WorldInv { w with handler := pc } pre rest :=
  { h with locked := fun hp => h.locked (hl hp), advancing := ha }

/-- a request has changed the listing and is to release the lock -/
theorem WorldInv.relist {w : World ι α} {pre rest pre' rest' : List ℕ} (h : WorldInv w pre rest) {g : Listing}
    (hl : w.handler.locks = true) (hsplit : pre ++ rest = pre' ++ rest') (hcursor : Cursor w.tables.table g pre' rest')
    (hwhole : ∀ n ∈ g.whole, n ∈ pre ++ rest) (hknown : ∀ n ∈ g.reported, n < w.tables.table.fresh)
    (hended : g.ended = true → ∀ n ∈ g.whole, n ∈ g.reported) :
    WorldInv { w with listing := g, handler := .leave } pre' rest' where
  inv := by
    rw [← hsplit]
    exact h.inv
  locked := fun _ => h.locked hl
  advancing := fun n hn => by cases hn
  cursor := hcursor
  whole := by
    rw [← hsplit]
    exact hwhole
  known := hknown
  ended := hended

/-- the handler takes or gives back the lock -/
theorem WorldInv.hold {w : World ι α} {pre rest : List ℕ} (h : WorldInv w pre rest) {held : Bool} {pc : HandlerPc}
    (hq : ∀ u, (w.tables.pc u).locks .virtualDir ≠ true) (hheld : pc.locks = true → held = true)
    (ha : ∀ n, pc ≠ .advance n) : WorldInv { w with tables := { w.tables with held := held }, handler := pc } pre rest where
  inv := { h.inv with locking := ⟨fun u hu => absurd hu (hq u), fun u _ hu => absurd hu (hq u)⟩ }
  locked := fun hp => ⟨hheld hp, hq⟩
  advancing := fun n hn => absurd hn (ha n)
  cursor := h.cursor
  whole := h.whole
  known := h.known
  ended := h.ended

/-- the entry the handle points at is live -/
theorem WorldInv.touch {w : World ι α} {pre rest : List ℕ} (h : WorldInv w pre rest) {n : ℕ}
    (hn : w.listing.handle = some (some n)) : ∃ r, rest = n :: r ∧ w.tables.touch n = w.tables := by
  have hhead := h.cursor.handle _ hn
  cases rest with
  | nil => cases hhead
  | cons a r =>
    cases hhead
    refine ⟨r, rfl, touch_live fun hf => ?_⟩
    obtain ⟨u, b, p, v, hu⟩ := h.inv.live n (by simp) hf
    have hk := h.inv.knows u
    rw [hu] at hk
    cases hk.2.2.1 hf

theorem WorldInv.serve {w : World ι α} {pre rest : List ℕ} (h : WorldInv w pre rest) (r : Request) (ok : Bool)
    (hl : w.handler.locks = true) : ∃ pre' rest', WorldInv (serve r ok w) pre' rest' := by
  have hleave : WorldInv { w with handler := .leave } pre rest := h.goto (fun _ => hl) (fun n hn => by cases hn)
  unfold Tables.serve
  split
  · split_ifs
    · refine ⟨[], pre ++ rest, h.relist hl rfl ⟨?_, by simp, ?_⟩ ?_ (by simp) (by simp)⟩
      · intro d hd
        cases hd
        exact (Lib.Chain.segment_iff.1 h.inv.table.lists).1
      · simpa using h.inv.table.distinct
      · rw [h.inv.entries]
        exact fun n hn => hn
    · exact ⟨pre, rest, hleave⟩
  · next hnone =>
    have hrest : rest = [] := by simpa using (h.cursor.handle _ hnone).symm
    refine ⟨pre, rest, h.relist hl rfl ⟨h.cursor.handle, h.cursor.passed, h.cursor.once⟩ h.whole h.known fun _ n hn => ?_⟩
    refine h.cursor.passed n ?_ hn
    simpa [hrest] using h.whole n hn
  · next n hn =>
    obtain ⟨r, -, htouch⟩ := h.touch hn
    rw [htouch]
    exact ⟨pre, rest, h.goto (fun _ => hl) fun m hm => by cases hm; exact hn⟩
  · exact ⟨pre, rest, h.relist hl rfl ⟨by simp, h.cursor.passed, h.cursor.once⟩ h.whole h.known h.ended⟩
  · exact ⟨pre, rest, hleave⟩

/-- readdir has reported an entry and moves on -/
theorem WorldInv.advance {w : World ι α} {pre rest : List ℕ} (h : WorldInv w pre rest) {n : ℕ}
    (hpc : w.handler = .advance n) (ok : Bool) : ∃ pre' rest', WorldInv (stepHandler ok w) pre' rest' := by
  have hn := h.advancing n hpc
  obtain ⟨r, rfl, htouch⟩ := h.touch hn
  have hl : w.handler.locks = true := by
    rw [hpc]
    rfl
  simp only [stepHandler, hpc, htouch]
  refine ⟨pre ++ [n], r, h.relist hl (by simp) ⟨?_, ?_, ?_⟩ h.whole ?_ ?_⟩
  · intro d hd
    cases hd
    exact (Lib.Chain.segment_iff.1 (segment_split h.inv.table.lists)).1
  · intro m hm hw
    rcases List.mem_append.1 hm with hm | hm
    · exact List.mem_cons_of_mem n (h.cursor.passed m hm hw)
    · rw [List.mem_singleton.1 hm]
      exact List.mem_cons_self
  · have hperm : (w.listing.reported ++ n :: r).Perm (n :: w.listing.reported ++ r) := List.perm_middle
    exact (hperm.map _).nodup_iff.1 h.cursor.once
  · refine List.forall_mem_cons.2 ⟨h.inv.table.known n (by simp), h.known⟩
  · exact fun he m hm => List.mem_cons_of_mem n (h.ended he m hm)

theorem WorldInv.handler {w : World ι α} {pre rest : List ℕ} (h : WorldInv w pre rest) (ok : Bool) :
    ∃ pre' rest', WorldInv (stepHandler ok w) pre' rest' := by
  cases hpc : w.handler with
  | idle =>
    rw [stepHandler, hpc]
    exact ⟨pre, rest, h⟩
  | enter r =>
    rw [stepHandler, hpc]
    refine ⟨pre, rest, ?_⟩
    dsimp only
    split_ifs with hok hheld
    · exact h
    · exact h.hold (fun u hu => hheld (h.inv.locking.held u hu)) (fun _ => rfl) (fun n hn => by cases hn)
    · exact h.goto (fun hl => by cases hl) (fun n hn => by cases hn)
  | serve r =>
    rw [stepHandler, hpc]
    exact h.serve r ok (by rw [hpc]; rfl)
  | advance n => exact h.advance hpc ok
  | leave =>
    rw [stepHandler, hpc]
    exact ⟨pre, rest, h.hold (h.locked (by rw [hpc]; rfl)).2 (fun hl => by cases hl) (fun n hn => by cases hn)⟩

/-! ## Steps of the application's threads -/

@[simp] theorem touch_pc (n : ℕ) (s : St ι α) : (s.touch n).pc = s.pc := rfl
@[simp] theorem touch_table (n : ℕ) (s : St ι α) : (s.touch n).table = s.table := rfl
@[simp] theorem touch_held (n : ℕ) (s : St ι α) : (s.touch n).held = s.held := rfl

@[simp] theorem touchPlace_pc (p : Place ℕ) (s : St ι α) : (s.touchPlace p).pc = s.pc := by
  cases p <;> rfl

@[simp] theorem touchPlace_table (p : Place ℕ) (s : St ι α) : (s.touchPlace p).table = s.table := by
  cases p <;> rfl

@[simp] theorem touchPlace_held (p : Place ℕ) (s : St ι α) : (s.touchPlace p).held = s.held := by
  cases p <;> rfl

/-- the list's entries stay split at the handle's -/
theorem WorldInv.split {w : World ι α} {pre rest : List ℕ} (h : WorldInv w pre rest) {o : Op ι α}
    (hC : Unhurried w (.table o)) :
    ∃ pre' rest', w.tables.after o (pre ++ rest) = pre' ++ rest' ∧
      (∀ d, w.listing.handle = some d → d = rest'.head?) ∧ rest'.Sublist rest ∧ ∀ n ∈ pre', n ∈ pre ∨ n ∉ pre ++ rest := by
  have hsame : ∃ pre' rest', pre ++ rest = pre' ++ rest' ∧ (∀ d, w.listing.handle = some d → d = rest'.head?) ∧
      rest'.Sublist rest ∧ ∀ n ∈ pre', n ∈ pre ∨ n ∉ pre ++ rest :=
    ⟨pre, rest, rfl, h.cursor.handle, List.Sublist.refl _, fun n hn => Or.inl hn⟩
  cases o with
  | call => exact hsame
  | step t ok =>
    have hk := h.inv.knows t
    have hnext := hC.2
    simp only [St.after]
    cases hpc : w.tables.pc t with
    | publish n =>
      rw [hpc] at hk
      refine ⟨n :: pre, rest, rfl, h.cursor.handle, List.Sublist.refl _, fun m hm => ?_⟩
      rcases List.mem_cons.1 hm with rfl | hm
      · exact Or.inr hk.1.notMem
      · exact Or.inl hm
    | unlink b p n v =>
      rw [hpc] at hnext
      have hnext := hnext n rfl
      by_cases hn : n ∈ pre
      · refine ⟨pre.erase n, rest, List.erase_append_left _ hn, h.cursor.handle, List.Sublist.refl _, fun m hm => ?_⟩
        exact Or.inl (List.mem_of_mem_erase hm)
      · refine ⟨pre, rest.erase n, List.erase_append_right _ hn, fun d hd => ?_, List.erase_sublist, fun m hm => Or.inl hm⟩
        obtain rfl := h.cursor.handle d hd
        cases rest with
        | nil => rfl
        | cons a r =>
          have hne : a ≠ n := by
            rintro rfl
            exact hnext hd
          rw [List.erase_cons_tail (by simpa using hne)]
          rfl
    | _ => exact hsame

section
variable [DecidableEq ι] [DecidableEq α]

/-- entries keep their names -/
theorem step_name (k : Kind) (debug : Bool) (s : St ι α) (o : Op ι α) {n : ℕ} (hn : n < s.table.fresh) :
    n < (step k debug s o).table.fresh ∧ (step k debug s o).table.name n = s.table.name n := by
  cases o with
  | call t c =>
    simp only [step]
    split_ifs <;> exact ⟨hn, rfl⟩
  | step t ok =>
    simp only [step, stepThread]
    cases s.pc t with
    | create a =>
      cases ok with
      | false => exact ⟨hn, rfl⟩
      | true => exact ⟨Nat.lt_succ_of_lt hn, Function.update_of_ne hn.ne _ _⟩
    | enter | checkDir | insert | await =>
      simp only [St.acquire]
      split_ifs <;> exact ⟨hn, rfl⟩
    | seek c p | take a p =>
      dsimp only
      split <;> simp [St.goto, hn]
    | found c p => simp [St.goto, hn]
    | unlink => simp [St.goto, St.setLinks, hn]
    | _ => exact ⟨hn, rfl⟩

omit [DecidableEq α] in
theorem goto_locks {k : Kind} {s : St ι α} (hq : ∀ u, (s.pc u).locks k ≠ true) {t : ι} {pc : Pc α}
    (hpc : pc.locks k ≠ true) (u : ι) : (Function.update s.pc t pc u).locks k ≠ true := by
  by_cases hut : u = t
  · subst hut
    rwa [Function.update_self]
  · rw [Function.update_of_ne hut]
    exact hq u

/-- while somebody else has the lock no thread comes to have it -/
theorem step_locks (k : Kind) (debug : Bool) (s : St ι α) (o : Op ι α) (hheld : s.held = true)
    (hq : ∀ u, (s.pc u).locks k ≠ true) :
    (step k debug s o).held = true ∧ ∀ u, ((step k debug s o).pc u).locks k ≠ true := by
  have hacquire : ∀ t ok pc, (s.acquire t ok pc).held = true ∧ ∀ u, ((s.acquire t ok pc).pc u).locks k ≠ true := by
    intro t ok pc
    unfold St.acquire
    rw [if_pos hheld]
    split_ifs
    · exact ⟨hheld, hq⟩
    · exact ⟨hheld, goto_locks hq (by simp [Pc.locks])⟩
  cases o with
  | call t c =>
    simp only [step]
    split_ifs with _ hsearch
    · exact ⟨hheld, goto_locks hq (by simp [Pc.locks])⟩
    · exact ⟨hheld, goto_locks hq hsearch⟩
    · exact ⟨hheld, hq⟩
  | step t ok =>
    have ht := hq t
    simp only [step, stepThread]
    cases hpc : s.pc t with
    | idle => exact ⟨hheld, hq⟩
    | enter | checkDir | insert | await => exact hacquire _ _ _
    | seek c p =>
      rw [hpc] at ht
      dsimp only
      split <;> simp only [St.goto, touchPlace_pc, touchPlace_held] <;> exact ⟨hheld, goto_locks hq ht⟩
    | compare c p n =>
      rw [hpc] at ht
      refine ⟨hheld, goto_locks hq ?_⟩
      split_ifs <;> exact ht
    | found c p =>
      rw [hpc] at ht
      refine ⟨by simpa [St.goto] using hheld, ?_⟩
      simp only [St.goto, touchPlace_pc]
      refine goto_locks hq ?_
      cases c with
      | add => cases s.table.links.load p <;> cases k <;> simp [Pc.locks]
      | remove | lookup => cases s.table.links.load p <;> cases k <;> simp_all [Pc.locks, Task.searchLocked]
    | create a =>
      cases ok
      · exact ⟨hheld, goto_locks hq (by simp [Pc.locks])⟩
      · exact ⟨hheld, goto_locks (s := s) hq (by simp [Pc.locks])⟩
    | use n =>
      rw [hpc] at ht
      refine ⟨hheld, goto_locks hq ?_⟩
      cases k <;> simp_all [Pc.locks]
    | dispose n => exact ⟨hheld, goto_locks hq (by simp [Pc.locks])⟩
    | _ =>
      rw [hpc] at ht
      exact absurd rfl ht

/-- **What the application's threads do to a listing**, when none takes out the entry it is to report next. -/
theorem WorldInv.table {w : World ι α} {pre rest : List ℕ} (h : WorldInv w pre rest) (debug : Bool) {o : Op ι α}
    (hC : Unhurried w (.table o)) : ∃ pre' rest', WorldInv (worldStep debug w (.table o)) pre' rest' := by
  have hE : Exclusive .virtualDir w.tables o := by
    cases o with
    | call => trivial
    | step => exact hC.1
  have hinv := inv_step h.inv debug hE
  have hentries := hinv.entries
  have hname : ∀ n, n < w.tables.table.fresh → _ := fun n hn => step_name .virtualDir debug w.tables o hn
  have hlist : ∀ n ∈ pre ++ rest, n < w.tables.table.fresh := h.inv.table.known
  have hlocked : w.handler.locks = true → _ := fun hl =>
    step_locks .virtualDir debug w.tables o (h.locked hl).1 (h.locked hl).2
  obtain ⟨pre', rest', hafter, hhead, hsub, hpre⟩ := h.split hC
  rw [hafter] at hinv hentries
  have hwhole : ∀ n, n ∈ (worldStep debug w (.table o)).listing.whole → n ∈ w.listing.whole ∧ n ∈ pre' ++ rest' := by
    intro n hn
    simp only [worldStep, List.mem_filter, decide_eq_true_eq, hentries] at hn
    exact hn
  refine ⟨pre', rest', hinv, hlocked, h.advancing, ⟨hhead, ?_, ?_⟩, ?_, ?_, ?_⟩
  · intro n hn hw
    have hw := (hwhole n hw).1
    rcases hpre n hn with hn | hn
    · exact h.cursor.passed n hn hw
    · exact absurd (h.whole n hw) hn
  · have hmap : (w.listing.reported ++ rest').map (step .virtualDir debug w.tables o).table.name =
        (w.listing.reported ++ rest').map w.tables.table.name := by
      refine List.map_congr_left fun n hn => (hname n ?_).2
      rcases List.mem_append.1 hn with hn | hn
      · exact h.known n hn
      · exact hlist n (List.mem_append_right pre (hsub.subset hn))
    change ((w.listing.reported ++ rest').map (step .virtualDir debug w.tables o).table.name).Nodup
    rw [hmap]
    exact h.cursor.once.sublist (((List.Sublist.refl _).append hsub).map _)
  · exact fun n hn => (hwhole n hn).2
  · exact fun n hn => (hname n (h.known n hn)).1
  · exact fun he n hn => h.ended he n (hwhole n hn).1

/-- **Step lemma.** -/
theorem worldInv_step {w : World ι α} {pre rest : List ℕ} (h : WorldInv w pre rest) (debug : Bool) {o : WorldOp ι α}
    (hC : Unhurried w o) : ∃ pre' rest', WorldInv (worldStep debug w o) pre' rest' := by
  cases o with
  | table o => exact h.table debug hC
  | request r =>
    refine ⟨pre, rest, ?_⟩
    simp only [worldStep]
    split_ifs
    · exact h.goto (fun hl => by cases hl) (fun n hn => by cases hn)
    · exact h
  | handler ok => exact h.handler ok

/-! ## Runs -/

omit [DecidableEq ι] [DecidableEq α] in
theorem worldInv_empty (name : ℕ → α) : WorldInv (World.empty name : World ι α) [] [] where
  inv := inv_empty .virtualDir name
  locked := fun hl => by cases hl
  advancing := fun n hn => by cases hn
  cursor := ⟨by simp [World.empty], by simp, List.nodup_nil⟩
  whole := by simp [World.empty]
  known := by simp [World.empty]
  ended := by simp [World.empty]

/-- **Listing.** In every run in which no remove takes out the entry the listing is to report next, and no call's search is
harmed, the listing is right in every state. -/
theorem listed_of_unhurried (debug : Bool) (name : ℕ → α) (ops : List (WorldOp ι α))
    (hC : Along (worldStep debug) Unhurried (World.empty name) ops) (j : ℕ) :
    Listed (run (worldStep debug) (World.empty name) (ops.take j)) := by
  have hstep : ∀ (w : World ι α) o, (∃ pre rest, WorldInv w pre rest) → Unhurried w o →
      ∃ pre rest, WorldInv (worldStep debug w o) pre rest :=
    fun w o ⟨_, _, h⟩ ho => worldInv_step h debug ho
  obtain ⟨pre, rest, h⟩ := run_inv_take hstep ⟨[], [], worldInv_empty name⟩ hC j
  exact h.listed

end

/-- the connector makes a request and it is served -/
def asked (r : Request) : List (WorldOp (Fin 1) Bool) := .request r :: List.replicate 4 (.handler true)

/-- the thread makes a call and does its next n steps -/
def called (c : Task Bool) (n : ℕ) : List (WorldOp (Fin 1) Bool) :=
  .table (.call 0 c) :: List.replicate n (.table (.step 0 true))

/-- of two directories the first is removed when it has been reported, and added again -/
def remappedRun : List (WorldOp (Fin 1) Bool) :=
  called (.add true) 9 ++ called (.add false) 11 ++ asked .stat ++ asked .opendir ++ asked .readdir ++
    called (.remove false) 8 ++ called (.add false) 11 ++ asked .readdir ++ asked .readdir ++ asked .closedir

theorem listed_of_unhurried_remapped : Listed (run (worldStep true) (World.empty fun _ => false) remappedRun) := by
  simpa only [List.take_length] using
    listed_of_unhurried true (fun _ => false) remappedRun (by decide) remappedRun.length

/-- the entry the listing is to report next is removed -/
def removedRun : List (WorldOp (Fin 1) Bool) :=
  called (.add true) 9 ++ asked .stat ++ asked .opendir ++ called (.remove true) 8 ++ asked .readdir

/-- **readdir reads an entry that remove has freed.** -/
theorem next_removed : ¬ Listed (run (worldStep true) (World.empty fun _ => false) removedRun) :=
  fun h => absurd h.sound (by decide)

end CcApi.Tables
