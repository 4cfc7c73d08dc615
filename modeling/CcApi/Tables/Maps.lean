/-
The two lists of names as maps (`ccapi_receive.c`, `ccapi_filesystem.c`), their calls made one at a time.

Both lists are records linked by pointers. A call searches for the pointer to the record of a name, which is the list's head
or some record's `next`; add puts a new record in front, remove stores the record's `next` at the place that was found. Names
are compared by `strncmp` over the longer of two lengths, kept in an `unsigned int`.

- `strncmpEq_longest`: that comparison is equality for names shorter than 2^32.
- `Agrees`: the list is what the history of the successful calls leaves.
- `Agrees.pushed`, `Agrees.taken`: what add and remove do to it.
- `Targets.Map`, `Directories.Map`: a lookup finds the entry last added and not removed since; what add and remove answer, and what
  they do to the others.
- `names_are_maps`: both lists are maps after every run of calls.

Premises: no other thread uses the lists; the checks of a local directory are a parameter, and the lock acquire behind them in
`ccxapi_fs_add_virtual_dir` is taken to return (a build without CCIMP_DEBUG_ENABLED still holds the lock there, from
`path_is_a_dir`, and waits for ever).
-/
import CcApi.FileSystem.Lock
import CcApi.Lib.Catalog
import CcApi.Lib.Runs
import CcApi.Receive.Model

namespace CcApi.Tables

open Lib.Splice Lib.Catalog FileSystem

/-! ## Records -/

/-- a linked list of records of type ε; a record is named by the number of its allocation -/
structure Records (ε : Type) where
  links : Links ℕ
  entry : ℕ → ε
  /-- the number of the next record -/
  fresh : ℕ
  freed : List ℕ

namespace Records

variable {ε : Type}

def empty (entry : ℕ → ε) : Records ε := ⟨⟨none, fun _ => none⟩, entry, 0, []⟩

/-- the loop of `get_pointer_to_target_entry` and of `get_pointer_to_dir_entry_from_virtual_dir_name` -/
def find (found : ε → Bool) (r : Records ε) : Option (Place ℕ) :=
  seek r.links (fun n => found (r.entry n)) (r.fresh + 1) .head

/-- the record behind the pointer that is found -/
def lookup (found : ε → Bool) (r : Records ε) : Option ε := (r.find found).bind fun p => (r.links.load p).map r.entry

/-- a new record, not in the list -/
def create (e : ε) (r : Records ε) : Records ε :=
  { r with entry := Function.update r.entry r.fresh e, links := r.links.store (.next r.fresh) none, fresh := r.fresh + 1 }

/-- a record is allocated and freed again -/
def discard (r : Records ε) : Records ε := { r with fresh := r.fresh + 1, freed := r.fresh :: r.freed }

/-- a record is put in front -/
def push (n : ℕ) (r : Records ε) : Records ε :=
  { r with links := (r.links.store (.next n) r.links.head).store .head (some n) }

/-- the record that p leads to is taken out and freed -/
def take (p : Place ℕ) (n : ℕ) (r : Records ε) : Records ε :=
  { r with links := r.links.store p (r.links.next n), freed := n :: r.freed }

/-- the entries of the list, followed from its head for as many steps as there are records -/
def contents (r : Records ε) : List ε := (Lib.Chain.walk r.links.next r.fresh r.links.head).map r.entry

/-- the records of the list are l, and none of them has been freed -/
structure Holds (r : Records ε) (l : List ℕ) : Prop where
  lists : r.links.Lists l
  known : ∀ n ∈ l, n < r.fresh
  live : ∀ n ∈ l, n ∉ r.freed
  freed : ∀ n ∈ r.freed, n < r.fresh

theorem holds_empty (entry : ℕ → ε) : (empty entry).Holds [] := ⟨rfl, by simp, by simp, by simp [empty]⟩

variable {r : Records ε} {l : List ℕ}

theorem Holds.length (h : r.Holds l) : l.length ≤ r.fresh := by
  have hsub : l.toFinset ⊆ Finset.range r.fresh := fun n hn => Finset.mem_range.2 (h.known n (List.mem_toFinset.1 hn))
  have hcard := Finset.card_le_card hsub
  rwa [List.toFinset_card_of_nodup (segment_nodup h.lists), Finset.card_range] at hcard

theorem Holds.contents (h : r.Holds l) : r.contents = l.map r.entry := by
  rw [Records.contents, Lib.Chain.walk_segment h.lists h.length]

/-- the search ends at a link to the first record that is found, or at the last link -/
theorem Holds.find (h : r.Holds l) (found : ε → Bool) :
    ∃ p, r.find found = some p ∧ Within l p ∧ r.links.load p = l.find? fun n => found (r.entry n) :=
  seek_found h.lists _ (Nat.lt_succ_of_le h.length)

theorem Holds.lookup (h : r.Holds l) (found : ε → Bool) : r.lookup found = r.contents.find? found := by
  obtain ⟨p, hp, -, hload⟩ := h.find found
  rw [Records.lookup, hp, h.contents, List.find?_map, Option.bind_some, hload]
  rfl

theorem Holds.create (h : r.Holds l) (e : ε) :
    (r.create e).Holds l ∧ (r.create e).contents = r.contents ∧ r.fresh ∉ l ∧ (r.create e).entry r.fresh = e := by
  have hnot : r.fresh ∉ l := fun hmem => lt_irrefl _ (h.known _ hmem)
  have hholds : (r.create e).Holds l :=
    ⟨lists_store_of_not_mem h.lists hnot none, fun n hn => Nat.lt_succ_of_lt (h.known n hn), h.live,
      fun n hn => Nat.lt_succ_of_lt (h.freed n hn)⟩
  refine ⟨hholds, ?_, hnot, Function.update_self _ _ _⟩
  rw [hholds.contents, h.contents]
  refine List.map_congr_left fun n hn => Function.update_of_ne ?_ _ _
  rintro rfl
  exact hnot hn

theorem Holds.discard (h : r.Holds l) : r.discard.Holds l ∧ r.discard.contents = r.contents := by
  have hholds : r.discard.Holds l := by
    refine ⟨h.lists, fun n hn => Nat.lt_succ_of_lt (h.known n hn), fun n hn hfreed => ?_, fun n hn => ?_⟩
    · rcases List.mem_cons.1 hfreed with rfl | hfreed
      · exact lt_irrefl _ (h.known _ hn)
      · exact h.live n hn hfreed
    · rcases List.mem_cons.1 hn with rfl | hn
      · exact Nat.lt_succ_self _
      · exact Nat.lt_succ_of_lt (h.freed n hn)
  refine ⟨hholds, ?_⟩
  rw [hholds.contents, h.contents]
  rfl

theorem Holds.push (h : r.Holds l) {n : ℕ} (hnot : n ∉ l) (hknown : n < r.fresh) (hlive : n ∉ r.freed) :
    (r.push n).Holds (n :: l) ∧ (r.push n).contents = r.entry n :: r.contents := by
  have hlists : (r.push n).links.Lists (n :: l) :=
    lists_cons (lists_store_of_not_mem h.lists hnot _) (by simp [Links.store])
  have hholds : (r.push n).Holds (n :: l) := by
    refine ⟨hlists, fun m hm => ?_, fun m hm => ?_, h.freed⟩
    · rcases List.mem_cons.1 hm with rfl | hm
      · exact hknown
      · exact h.known m hm
    · rcases List.mem_cons.1 hm with rfl | hm
      · exact hlive
      · exact h.live m hm
  refine ⟨hholds, ?_⟩
  rw [hholds.contents, h.contents]
  rfl

theorem Holds.take (h : r.Holds l) {p : Place ℕ} {n : ℕ} (hp : Within l p) (hload : r.links.load p = some n) :
    (r.take p n).Holds (l.erase n) ∧ (r.take p n).contents = (l.erase n).map r.entry := by
  have hn := mem_of_load h.lists hp hload
  have hholds : (r.take p n).Holds (l.erase n) := by
    refine ⟨lists_unlink h.lists hp hload, fun m hm => h.known m (List.mem_of_mem_erase hm), fun m hm hfreed => ?_,
      fun m hm => ?_⟩
    · rcases List.mem_cons.1 hfreed with rfl | hfreed
      · exact (segment_nodup h.lists).not_mem_erase hm
      · exact h.live m (List.mem_of_mem_erase hm) hfreed
    · rcases List.mem_cons.1 hm with rfl | hm
      · exact h.known _ hn
      · exact h.freed m hm
  exact ⟨hholds, hholds.contents⟩

end Records

/-! ## Names -/

/-- **The comparison.** -/
theorem strncmpEq_longest {a b : Str} (ha : a.length < 2 ^ 32) (hb : b.length < 2 ^ 32) :
    strncmpEq a b (u32 (max a.length b.length)) = true ↔ a = b := by
  rw [strncmpEq, u32_eq (max_lt ha hb), List.take_of_length_le (le_max_left _ _), List.take_of_length_le (le_max_right _ _),
    decide_eq_true_iff]

section
variable {ε : Type} (key : ε → Str) (good : ε → Prop)

/-- the list is what the history leaves: its entries are good, and no two have one name -/
structure Agrees (r : Records ε) (history : List (Event Str ε)) : Prop where
  holds : ∃ l, r.Holds l
  contents : r.contents = Lib.Catalog.contents key history
  distinct : (r.contents.map key).Nodup
  good : ∀ e ∈ r.contents, good e

/-- found picks out the good entries of a name -/
def Picks (found : ε → Bool) (name : Str) : Prop := ∀ e, good e → (found e = true ↔ key e = name)

theorem agrees_empty (entry : ℕ → ε) : Agrees key good (.empty entry) [] :=
  ⟨⟨[], Records.holds_empty entry⟩, rfl, List.nodup_nil, fun _ he => by cases he⟩

variable {key good}

/-- one of the entries with distinct names is taken out -/
theorem map_erase {l : List ℕ} {f : ℕ → ε} {n : ℕ} (hn : n ∈ l) (hl : ((l.map f).map key).Nodup) :
    (l.erase n).map f = (l.map f).filter fun e => key e ≠ key (f n) := by
  induction l with
  | nil => cases hn
  | cons a l ih =>
    obtain ⟨ha, hl⟩ := List.nodup_cons.1 hl
    have hne (m : ℕ) (hm : m ∈ l) : key (f m) ≠ key (f a) := fun he =>
      ha (he ▸ List.mem_map_of_mem (List.mem_map_of_mem hm))
    by_cases han : a = n
    · subst han
      rw [List.erase_cons_head, List.map_cons, List.filter_cons_of_neg (by simp), eq_comm, List.filter_eq_self]
      intro e he
      obtain ⟨m, hm, rfl⟩ := List.mem_map.1 he
      exact decide_eq_true (hne m hm)
    · have hmem : n ∈ l := (List.mem_cons.1 hn).resolve_left fun h => han h.symm
      rw [List.erase_cons_tail (by simpa using han), List.map_cons, List.map_cons, List.filter_cons,
        if_pos (decide_eq_true (hne n hmem).symm), ih hmem hl]

variable {r : Records ε} {history : List (Event Str ε)} {found : ε → Bool} {name : Str}

theorem Agrees.find (h : Agrees key good r history) (hpicks : Picks key good found name) :
    r.contents.find? found = latest key history name := by
  rw [← find_contents, ← h.contents]
  refine List.find?_congr fun e he => ?_
  rw [Bool.eq_iff_iff, hpicks e (h.good e he), decide_eq_true_iff]

/-- **Lookup.** -/
theorem Agrees.lookup (h : Agrees key good r history) (hpicks : Picks key good found name) :
    r.lookup found = latest key history name := by
  obtain ⟨l, hl⟩ := h.holds
  rw [hl.lookup, h.find hpicks]

/-- what the search for a name finds: the last link, or a link to the record of the name, which may be taken out -/
theorem Agrees.search (h : Agrees key good r history) (hpicks : Picks key good found name) : ∃ p, r.find found = some p ∧
    (r.links.load p = none ∧ latest key history name = none ∨ ∃ n, r.links.load p = some n ∧
      latest key history name = some (r.entry n) ∧ Agrees key good (r.take p n) (.removed name :: history) ∧
      (r.take p n).contents = r.contents.filter fun e => key e ≠ name) := by
  obtain ⟨l, hl⟩ := h.holds
  obtain ⟨p, hp, hwithin, hload⟩ := hl.find found
  have hlatest : latest key history name = (r.links.load p).map r.entry := by
    rw [← h.find hpicks, hl.contents, List.find?_map, hload]
    rfl
  refine ⟨p, hp, ?_⟩
  cases hn : r.links.load p with
  | none => exact .inl ⟨rfl, by rw [hlatest, hn]; rfl⟩
  | some n =>
    have hmem := mem_of_load hl.lists hwithin hn
    have hname : key (r.entry n) = name := by
      have hfound : found (r.entry n) = true := by simpa using List.find?_some (hload.symm.trans hn)
      exact (hpicks _ (h.good _ (hl.contents ▸ List.mem_map_of_mem hmem))).1 hfound
    obtain ⟨hholds, htaken⟩ := hl.take hwithin hn
    have hfilter : (r.take p n).contents = r.contents.filter fun e => key e ≠ name := by
      rw [htaken, hl.contents, ← hname]
      exact map_erase hmem (hl.contents ▸ h.distinct)
    refine .inr ⟨n, rfl, by rw [hlatest, hn]; rfl, ⟨⟨_, hholds⟩, ?_, ?_, fun e he => ?_⟩, hfilter⟩
    · rw [hfilter, h.contents, Lib.Catalog.contents]
    · rw [hfilter]
      exact (List.filter_sublist.map key).nodup h.distinct
    · rw [hfilter] at he
      exact h.good e (List.mem_of_mem_filter he)

/-- a new record of a name that has none is put in front -/
theorem Agrees.pushed (h : Agrees key good r history) {e : ε} (he : good e) (hnew : latest key history (key e) = none) :
    Agrees key good ((r.create e).push r.fresh) (.added e :: history) ∧
      ((r.create e).push r.fresh).contents = e :: r.contents := by
  obtain ⟨l, hl⟩ := h.holds
  obtain ⟨hcreated, hcontents, hnot, hentry⟩ := hl.create e
  have hlive : r.fresh ∉ (r.create e).freed := fun hmem => lt_irrefl _ (hl.freed _ hmem)
  obtain ⟨hholds, hpush⟩ := hcreated.push hnot (Nat.lt_succ_self _) hlive
  rw [hentry, hcontents] at hpush
  refine ⟨⟨⟨_, hholds⟩, ?_, ?_, fun x hx => ?_⟩, hpush⟩
  · rw [hpush, h.contents, Lib.Catalog.contents]
  · rw [hpush, List.map_cons, List.nodup_cons]
    refine ⟨fun hmem => ?_, h.distinct⟩
    obtain ⟨x, hx, hkey⟩ := List.mem_map.1 hmem
    exact latest_eq_none.1 hnew x (h.contents ▸ hx) hkey
  · rw [hpush] at hx
    rcases List.mem_cons.1 hx with rfl | hx
    · exact he
    · exact h.good x hx

/-- a record that is not put into the list -/
theorem Agrees.discard (h : Agrees key good r history) : Agrees key good r.discard history ∧ r.discard.contents = r.contents := by
  obtain ⟨l, hl⟩ := h.holds
  obtain ⟨hholds, hcontents⟩ := hl.discard
  exact ⟨⟨⟨l, hholds⟩, hcontents ▸ h.contents, hcontents ▸ h.distinct, hcontents ▸ h.good⟩, hcontents⟩

end

/-! ## What a map's calls do -/

section
variable {ε Err : Type} (key : ε → Str)

/-- a call that adds e answers present where the name has an entry; it changes nothing, or puts e in front -/
structure Adds (history : List (Event Str ε)) (e : ε) (present ok error : Err) (before after : List ε) : Prop where
  present : error = present ↔ latest key history (key e) ≠ none
  failed : error ≠ ok → after = before
  done : error = ok → after = e :: before

/-- a call that removes a name answers absent where it has no entry; it changes nothing, or takes the entry of the name out -/
structure Removes (history : List (Event Str ε)) (name : Str) (absent ok error : Err) (before after : List ε) : Prop where
  absent : error = absent ↔ latest key history name = none
  failed : error ≠ ok → after = before
  done : error = ok → after = before.filter fun e => key e ≠ name

end

/-! ## Receive targets -/

/-- what the lock's operations answer -/
structure LockAnswers where
  acquire : CcimpStatus
  release : CcimpStatus
deriving DecidableEq, Repr

/-- `service.receive.target_list` and what its calls check -/
structure Targets where
  running : Bool
  supported : Bool
  list : Records Receive.ReceiveTarget

namespace Targets

open Receive

/-- `get_pointer_to_target_entry`'s comparison -/
def named (target : Str) (e : ReceiveTarget) : Bool := strncmpEq e.target target (u32 (max e.target.length target.length))

/-- `*get_pointer_to_target_entry` -/
def lookup (target : Str) (t : Targets) : Option ReceiveTarget := t.list.lookup (named target)

/-- an argument list of `ccxapi_receive_add_target`, with whether there is memory for the record and for its string -/
structure AddArgs where
  target : Option Str
  dataCb : Option ℕ
  statusCb : Option ℕ
  maxRequestSize : ℕ
  entryOk : Bool
  stringOk : Bool
deriving DecidableEq, Repr

/-- `create_target_entry`; the record's number, where there is memory for it -/
def createTargetEntry (entryOk stringOk : Bool) (e : ReceiveTarget) (r : Records ReceiveTarget) :
    Option ℕ × Records ReceiveTarget :=
  if entryOk then
    if stringOk then (some r.fresh, r.create e) else (none, r.discard)
  else (none, r)

/-- `add_target_entry` -/
def addTargetEntry (locks : LockAnswers) (n : ℕ) (r : Records ReceiveTarget) : ReceiveError × Records ReceiveTarget :=
  if locks.acquire = .ok then (if locks.release = .ok then .none else .lockFailed, r.push n) else (.lockFailed, r)

/-- `ccxapi_receive_add_target` -/
def add (a : AddArgs) (locks : LockAnswers) (t : Targets) : ReceiveError × Targets :=
  match a.target, a.dataCb with
  | none, _ => (.invalidTarget, t)
  | _, none => (.invalidDataCb, t)
  | some target, some dataCb =>
    if t.running = false then (.ccapiNotRunning, t)
    else if t.supported = false then (.noReceiveSupport, t)
    else if t.lookup target ≠ none then (.targetAlreadyAdded, t)
    else
      match createTargetEntry a.entryOk a.stringOk ⟨target, dataCb, a.statusCb, a.maxRequestSize⟩ t.list with
      | (none, r) => (.insufficientMemory, { t with list := r })
      | (some n, r) =>
        let (error, r) := addTargetEntry locks n r
        (error, { t with list := r })

/-- `ccxapi_receive_remove_target` -/
def remove (target : Option Str) (locks : LockAnswers) (t : Targets) : ReceiveError × Targets :=
  if t.running = false then (.ccapiNotRunning, t)
  else if t.supported = false then (.noReceiveSupport, t)
  else
    match target with
    | none => (.invalidTarget, t)
    | some target =>
      match (t.list.find (named target)).bind fun p => (t.list.links.load p).map fun n => (p, n) with
      | none => (.targetNotAdded, t)
      | some (p, n) =>
        if locks.acquire = .ok then
          (if locks.release = .ok then .none else .lockFailed, { t with list := t.list.take p n })
        else (.lockFailed, t)

/-! ### Runs -/

inductive Op where
  | add (a : AddArgs) (locks : LockAnswers)
  | remove (target : Option Str) (locks : LockAnswers)
deriving DecidableEq, Repr

def call (t : Targets) : Op → ReceiveError × Targets
  | .add a locks => t.add a locks
  | .remove target locks => t.remove target locks

/-- what a call does to the map when it succeeds -/
def Op.event : Op → Option (Event Str ReceiveTarget)
  | .add a _ =>
    match a.target, a.dataCb with
    | some target, some dataCb => some (.added ⟨target, dataCb, a.statusCb, a.maxRequestSize⟩)
    | _, _ => none
  | .remove target _ => target.map .removed

/-- valid arguments, names shorter than 2^32, and lock operations that succeed -/
def Op.valid : Op → Prop
  | .add a locks => locks = ⟨.ok, .ok⟩ ∧ a.dataCb ≠ none ∧ ∃ target ∈ a.target, target.length < 2 ^ 32
  | .remove target locks => locks = ⟨.ok, .ok⟩ ∧ ∃ name ∈ target, name.length < 2 ^ 32

instance (o : Op) : Decidable o.valid := by
  unfold Op.valid
  cases o <;> infer_instance

/-- the list, and the calls that have succeeded, the last one first -/
structure Log where
  table : Targets
  history : List (Event Str ReceiveTarget)

def Log.step (s : Log) (o : Op) : Log :=
  let (error, t) := s.table.call o
  { table := t, history := if error = .none then o.event.toList ++ s.history else s.history }

/-- a running library that supports the service, and has no targets -/
def Log.fresh (entry : ℕ → ReceiveTarget) : Log := { table := { running := true, supported := true, list := .empty entry }, history := [] }

/-- the list is a map from names to entries -/
structure Map (s : Log) : Prop where
  lookup : ∀ name, name.length < 2 ^ 32 → s.table.lookup name = latest ReceiveTarget.target s.history name
  add : ∀ name dataCb statusCb maxRequestSize entryOk stringOk, name.length < 2 ^ 32 →
    let p := s.table.add ⟨some name, some dataCb, statusCb, maxRequestSize, entryOk, stringOk⟩ ⟨.ok, .ok⟩
    Adds ReceiveTarget.target s.history ⟨name, dataCb, statusCb, maxRequestSize⟩ .targetAlreadyAdded .none p.1
      s.table.list.contents p.2.list.contents
  remove : ∀ name, name.length < 2 ^ 32 →
    let p := s.table.remove (some name) ⟨.ok, .ok⟩
    Removes ReceiveTarget.target s.history name .targetNotAdded .none p.1 s.table.list.contents p.2.list.contents

/-! ### The invariant -/

structure Inv (s : Log) : Prop where
  running : s.table.running = true
  supported : s.table.supported = true
  agrees : Agrees ReceiveTarget.target (fun e => e.target.length < 2 ^ 32) s.table.list s.history

theorem picks_named {name : Str} (h : name.length < 2 ^ 32) :
    Picks ReceiveTarget.target (fun e => e.target.length < 2 ^ 32) (named name) name := fun _ he => strncmpEq_longest he h

/-- a call that has left the list l to the log s -/
def After (s : Log) (t : Targets) (history : List (Event Str ReceiveTarget)) : Prop :=
  t.running = s.table.running ∧ t.supported = s.table.supported ∧
    Agrees ReceiveTarget.target (fun e => e.target.length < 2 ^ 32) t.list history

theorem Inv.add {s : Log} (h : Inv s) {name : Str} (hname : name.length < 2 ^ 32) (dataCb : ℕ) (statusCb : Option ℕ)
    (maxRequestSize : ℕ) (entryOk stringOk : Bool) :
    let e : ReceiveTarget := ⟨name, dataCb, statusCb, maxRequestSize⟩
    let p := s.table.add ⟨some name, some dataCb, statusCb, maxRequestSize, entryOk, stringOk⟩ ⟨.ok, .ok⟩
    Adds ReceiveTarget.target s.history e .targetAlreadyAdded .none p.1 s.table.list.contents p.2.list.contents ∧
      After s p.2 (if p.1 = .none then .added e :: s.history else s.history) := by
  intro e p
  have hlookup : s.table.lookup name = latest ReceiveTarget.target s.history name := h.agrees.lookup (picks_named hname)
  have hsame : After s s.table s.history := ⟨rfl, rfl, h.agrees⟩
  by_cases hmapped : s.table.lookup name ≠ none
  · have hp : p = (.targetAlreadyAdded, s.table) := by simp [p, Targets.add, h.running, h.supported, hmapped]
    rw [hp]
    exact ⟨⟨iff_of_true rfl (hlookup ▸ hmapped), fun _ => rfl, fun hno => by cases hno⟩, hsame⟩
  · have hnew : latest ReceiveTarget.target s.history name = none := hlookup ▸ not_not.1 hmapped
    cases entryOk with
    | false =>
      have hp : p = (.insufficientMemory, s.table) := by
        have hlist : ⟨true, true, s.table.list⟩ = s.table :=
          congrArg₂ (fun running supported => Targets.mk running supported s.table.list) h.running.symm h.supported.symm
        simp [p, Targets.add, h.running, h.supported, not_not.1 hmapped, createTargetEntry, hlist]
      rw [hp]
      exact ⟨⟨iff_of_false ReceiveError.noConfusion (not_not.2 hnew), fun _ => rfl, fun hno => by cases hno⟩, hsame⟩
    | true =>
      cases stringOk with
      | false =>
        have hp : p = (.insufficientMemory, { s.table with list := s.table.list.discard }) := by
          simp [p, Targets.add, h.running, h.supported, not_not.1 hmapped, createTargetEntry]
        obtain ⟨hagrees, hcontents⟩ := h.agrees.discard
        rw [hp]
        exact ⟨⟨iff_of_false ReceiveError.noConfusion (not_not.2 hnew), fun _ => hcontents, fun hno => by cases hno⟩, rfl, rfl, hagrees⟩
      | true =>
        have hp : p = (.none, { s.table with list := (s.table.list.create e).push s.table.list.fresh }) := by
          simp [p, e, Targets.add, h.running, h.supported, not_not.1 hmapped, createTargetEntry, addTargetEntry]
        obtain ⟨hagrees, hcontents⟩ := h.agrees.pushed (e := e) hname hnew
        rw [hp]
        exact ⟨⟨iff_of_false ReceiveError.noConfusion (not_not.2 hnew), fun hno => absurd rfl hno, fun _ => hcontents⟩, rfl, rfl, hagrees⟩

theorem Inv.remove {s : Log} (h : Inv s) {name : Str} (hname : name.length < 2 ^ 32) :
    let p := s.table.remove (some name) ⟨.ok, .ok⟩
    Removes ReceiveTarget.target s.history name .targetNotAdded .none p.1 s.table.list.contents p.2.list.contents ∧
      After s p.2 (if p.1 = .none then .removed name :: s.history else s.history) := by
  intro p
  obtain ⟨q, hq, ⟨hnone, hlatest⟩ | ⟨n, hn, hlatest, hagrees, hcontents⟩⟩ := h.agrees.search (picks_named hname)
  · have hp : p = (.targetNotAdded, s.table) := by simp [p, Targets.remove, h.running, h.supported, hq, hnone]
    rw [hp]
    exact ⟨⟨iff_of_true rfl hlatest, fun _ => rfl, fun hno => by cases hno⟩, rfl, rfl, h.agrees⟩
  · have hp : p = (.none, { s.table with list := s.table.list.take q n }) := by
      simp [p, Targets.remove, h.running, h.supported, hq, hn]
    rw [hp]
    exact ⟨⟨iff_of_false ReceiveError.noConfusion (by simp [hlatest]), fun hno => absurd rfl hno, fun _ => hcontents⟩, rfl, rfl, hagrees⟩

theorem Inv.after {s : Log} (h : Inv s) {t : Targets} {history : List (Event Str ReceiveTarget)} (ha : After s t history) :
    Inv ⟨t, history⟩ := ⟨ha.1.trans h.running, ha.2.1.trans h.supported, ha.2.2⟩

theorem step_inv (s : Log) (o : Op) (h : Inv s) (ho : o.valid) : Inv (s.step o) := by
  cases o with
  | add a locks =>
    obtain ⟨target, dataCb, statusCb, maxRequestSize, entryOk, stringOk⟩ := a
    obtain ⟨rfl, hdata, name, hname, hshort⟩ := ho
    obtain ⟨cb, rfl⟩ := Option.ne_none_iff_exists'.1 hdata
    obtain rfl := Option.mem_def.1 hname
    exact h.after (h.add hshort cb statusCb maxRequestSize entryOk stringOk).2
  | remove target locks =>
    obtain ⟨rfl, name, hname, hshort⟩ := ho
    obtain rfl := Option.mem_def.1 hname
    exact h.after (h.remove hshort).2

theorem Inv.map {s : Log} (h : Inv s) : Map s where
  lookup _ hname := h.agrees.lookup (picks_named hname)
  add _ dataCb statusCb maxRequestSize entryOk stringOk hname :=
    (h.add hname dataCb statusCb maxRequestSize entryOk stringOk).1
  remove _ hname := (h.remove hname).1

theorem inv_fresh (entry : ℕ → ReceiveTarget) : Inv (.fresh entry) := ⟨rfl, rfl, agrees_empty _ _ entry⟩

/-- the model of the handler finds the same target in a list of the same entries -/
theorem Inv.getTargetEntry {s : Log} (h : Inv s) {svc : Svc} (hlist : svc.targetList = s.table.list.contents) {name : Str}
    (hname : name.length < 2 ^ 32) : getTargetEntry svc name = s.table.lookup name := by
  rw [Targets.lookup, h.agrees.lookup (picks_named hname), ← h.agrees.find (picks_named hname), Receive.getTargetEntry, hlist]
  exact List.find?_congr fun e he => by rw [Bool.eq_iff_iff, picks_named hname e (h.agrees.good e he), decide_eq_true_iff]

end Targets

/-! ## Virtual directories -/

/-- `ccapi_fs_virtual_dir_t` -/
structure Directory where
  virtualDir : Str
  localDir : Str
  virtualDirLength : ℕ
  localDirLength : ℕ
deriving DecidableEq, Repr

/-- `service.file_system.virtual_dir_list` and what its calls check -/
structure Directories where
  env : FileSystem.Env
  stopped : Bool
  list : Records Directory

namespace Directories

/-- `get_pointer_to_dir_entry_from_virtual_dir_name`'s comparison; the length is an `unsigned int` -/
def named (virtualDir : Str) (virtualDirLength : ℕ) (e : Directory) : Bool :=
  strncmpEq e.virtualDir virtualDir (u32 (max e.virtualDirLength (u32 virtualDirLength)))

/-- `*get_pointer_to_dir_entry_from_virtual_dir_name` -/
def lookup (virtualDir : Str) (t : Directories) : Option Directory := t.list.lookup (named virtualDir virtualDir.length)

/-- an argument list of `ccxapi_fs_add_virtual_dir`, with what `path_is_a_dir` answers and whether there is memory for the
record and its strings -/
structure AddArgs where
  virtualDir : Option Str
  localDir : Option Str
  isADir : Bool
  entryOk : Bool
  localOk : Bool
  virtualOk : Bool
deriving DecidableEq, Repr

/-- `create_virtual_dir_entry` -/
def createVirtualDirEntry (a : AddArgs) (virtualDir localDir : Str) (r : Records Directory) : Option ℕ × Records Directory :=
  if a.entryOk then
    if a.localOk then
      if a.virtualOk then (some r.fresh, r.create ⟨virtualDir, localDir, virtualDir.length, localDir.length⟩)
      else (none, r.discard)
    else (none, r.discard)
  else (none, r)

/-- `add_virtual_dir_entry` -/
def addVirtualDirEntry (locks : LockAnswers) (n : ℕ) (r : Records Directory) : FsError × Records Directory :=
  if locks.acquire = .ok then (if locks.release = .ok then .none else .lockFailed, r.push n) else (.lockFailed, r)

/-- `ccxapi_fs_add_virtual_dir` -/
def add (a : AddArgs) (locks : LockAnswers) (t : Directories) : FsError × Directories :=
  if invalidDirs t.env a.virtualDir a.localDir then (.invalidPath, t)
  else if t.stopped then (.ccapiStopped, t)
  else if t.env.filesystemSupported = false then (.noFsSupport, t)
  else if t.lookup (a.virtualDir.getD []) ≠ none then (.alreadyMapped, t)
  else if a.isADir = false then (.notADir, t)
  else
    match createVirtualDirEntry a (a.virtualDir.getD []) (a.localDir.getD []) t.list with
    | (none, r) => (.insufficientMemory, { t with list := r })
    | (some n, r) =>
      let (error, r) := addVirtualDirEntry locks n r
      (error, { t with list := r })

/-- the arguments `ccxapi_fs_remove_virtual_dir` refuses -/
def refused : Option Str → Bool
  | none | some [] => true
  | some (c :: _) => c = separator

/-- `ccxapi_fs_remove_virtual_dir`; where a record has been taken out, the answer of the release does not matter -/
def remove (virtualDir : Option Str) (locks : LockAnswers) (t : Directories) : FsError × Directories :=
  if t.stopped then (.ccapiStopped, t)
  else if t.env.filesystemSupported = false then (.noFsSupport, t)
  else if refused virtualDir then (.invalidPath, t)
  else if locks.acquire ≠ .ok then (.lockFailed, t)
  else
    let v := virtualDir.getD []
    match (t.list.find (named v v.length)).bind fun p => (t.list.links.load p).map fun n => (p, n) with
    | none => (if locks.release = .ok then .notMapped else .lockFailed, t)
    | some (p, n) => (.none, { t with list := t.list.take p n })

/-! ### Runs -/

inductive Op where
  | add (a : AddArgs) (locks : LockAnswers)
  | remove (virtualDir : Option Str) (locks : LockAnswers)
deriving DecidableEq, Repr

def call (t : Directories) : Op → FsError × Directories
  | .add a locks => t.add a locks
  | .remove virtualDir locks => t.remove virtualDir locks

/-- the entry of a virtual directory and its local one -/
def entryOf (virtualDir localDir : Str) : Directory := ⟨virtualDir, localDir, virtualDir.length, localDir.length⟩

/-- what a call does to the map when it succeeds -/
def Op.event : Op → Option (Event Str Directory)
  | .add a _ =>
    match a.virtualDir, a.localDir with
    | some v, some l => some (.added (entryOf v l))
    | _, _ => none
  | .remove virtualDir _ => virtualDir.map .removed

/-- names that the call accepts, shorter than 2^32, and lock operations that succeed -/
def Op.valid (env : FileSystem.Env) : Op → Prop
  | .add a locks => locks = ⟨.ok, .ok⟩ ∧ invalidDirs env a.virtualDir a.localDir = false ∧ (a.virtualDir.getD []).length < 2 ^ 32
  | .remove virtualDir locks =>
    locks = ⟨.ok, .ok⟩ ∧ refused virtualDir = false ∧ (virtualDir.getD []).length < 2 ^ 32

instance (env : FileSystem.Env) (o : Op) : Decidable (o.valid env) := by
  unfold Op.valid
  cases o <;> infer_instance

/-- the list, and the calls that have succeeded, the last one first -/
structure Log where
  table : Directories
  history : List (Event Str Directory)

def Log.step (s : Log) (o : Op) : Log :=
  let (error, t) := s.table.call o
  { table := t, history := if error = .none then o.event.toList ++ s.history else s.history }

/-- a running library that has no virtual directories -/
def Log.fresh (env : FileSystem.Env) (entry : ℕ → Directory) : Log :=
  { table := { env := env, stopped := false, list := .empty entry }, history := [] }

/-- the list is a map from names to entries -/
structure Map (s : Log) : Prop where
  lookup : ∀ name, name.length < 2 ^ 32 → s.table.lookup name = latest Directory.virtualDir s.history name
  add : ∀ name localDir isADir entryOk localOk virtualOk, invalidDirs s.table.env (some name) (some localDir) = false →
    name.length < 2 ^ 32 →
    let p := s.table.add ⟨some name, some localDir, isADir, entryOk, localOk, virtualOk⟩ ⟨.ok, .ok⟩
    Adds Directory.virtualDir s.history (entryOf name localDir) .alreadyMapped .none p.1
      s.table.list.contents p.2.list.contents
  remove : ∀ name, refused (some name) = false → name.length < 2 ^ 32 →
    let p := s.table.remove (some name) ⟨.ok, .ok⟩
    Removes Directory.virtualDir s.history name .notMapped .none p.1 s.table.list.contents p.2.list.contents

/-! ### The invariant -/

/-- the length that is kept with a name is its length, and an `unsigned int` holds it -/
def Sized (e : Directory) : Prop := e.virtualDir.length < 2 ^ 32 ∧ e.virtualDirLength = e.virtualDir.length

structure Inv (env : FileSystem.Env) (s : Log) : Prop where
  supported : s.table.env.filesystemSupported = true
  env : s.table.env = env
  running : s.table.stopped = false
  agrees : Agrees Directory.virtualDir Sized s.table.list s.history

theorem picks_named {name : Str} (h : name.length < 2 ^ 32) : Picks Directory.virtualDir Sized (named name name.length) name := by
  rintro e ⟨hsmall, hlength⟩
  rw [named, hlength, u32_eq h]
  exact strncmpEq_longest hsmall h

variable {env : FileSystem.Env} {s : Log}

/-- a call that has left the list of t to the log s -/
def After (s : Log) (t : Directories) (history : List (Event Str Directory)) : Prop :=
  t.env = s.table.env ∧ t.stopped = s.table.stopped ∧ Agrees Directory.virtualDir Sized t.list history

/-- a record that is not made has left no trace in the list -/
theorem create_cases (a : AddArgs) (v l : Str) (r : Records Directory) :
    createVirtualDirEntry a v l r = (none, r) ∨ createVirtualDirEntry a v l r = (none, r.discard) ∨
      createVirtualDirEntry a v l r = (some r.fresh, r.create (entryOf v l)) := by
  unfold createVirtualDirEntry
  split_ifs
  · exact .inr (.inr rfl)
  · exact .inr (.inl rfl)
  · exact .inr (.inl rfl)
  · exact .inl rfl

theorem Inv.add (h : Inv env s) {name localDir : Str} (hvalid : invalidDirs s.table.env (some name) (some localDir) = false)
    (hname : name.length < 2 ^ 32) (isADir entryOk localOk virtualOk : Bool) :
    let p := s.table.add ⟨some name, some localDir, isADir, entryOk, localOk, virtualOk⟩ ⟨.ok, .ok⟩
    Adds Directory.virtualDir s.history (entryOf name localDir) .alreadyMapped .none p.1 s.table.list.contents
        p.2.list.contents ∧
      After s p.2 (if p.1 = .none then .added (entryOf name localDir) :: s.history else s.history) := by
  intro p
  have hlookup : s.table.lookup name = latest Directory.virtualDir s.history name := h.agrees.lookup (picks_named hname)
  have hsame : After s s.table s.history := ⟨rfl, rfl, h.agrees⟩
  have hp : p = Directories.add _ _ s.table := rfl
  simp only [Directories.add, hvalid, h.running, h.supported, Bool.false_eq_true, Bool.true_eq_false, if_false,
    Option.getD_some] at hp
  by_cases hmapped : s.table.lookup name ≠ none
  · rw [if_pos hmapped] at hp
    rw [hp]
    exact ⟨⟨iff_of_true rfl (hlookup ▸ hmapped), fun _ => rfl, fun hno => by cases hno⟩, hsame⟩
  · have hnew : latest Directory.virtualDir s.history name = none := hlookup ▸ not_not.1 hmapped
    rw [if_neg hmapped] at hp
    cases isADir with
    | false =>
      rw [if_pos rfl] at hp
      rw [hp]
      exact ⟨⟨iff_of_false FsError.noConfusion (not_not.2 hnew), fun _ => rfl, fun hno => by cases hno⟩, hsame⟩
    | true =>
      rw [if_neg (by decide)] at hp
      rcases create_cases ⟨some name, some localDir, true, entryOk, localOk, virtualOk⟩ name localDir s.table.list with
        hc | hc | hc
      · rw [hc] at hp
        rw [hp]
        exact ⟨⟨iff_of_false FsError.noConfusion (not_not.2 hnew), fun _ => rfl, fun hno => by cases hno⟩, rfl,
          h.running.symm, h.agrees⟩
      · obtain ⟨hagrees, hcontents⟩ := h.agrees.discard
        rw [hc] at hp
        rw [hp]
        exact ⟨⟨iff_of_false FsError.noConfusion (not_not.2 hnew), fun _ => hcontents, fun hno => by cases hno⟩, rfl,
          h.running.symm, hagrees⟩
      · obtain ⟨hagrees, hcontents⟩ := h.agrees.pushed (e := entryOf name localDir) ⟨hname, rfl⟩ hnew
        rw [hc] at hp
        simp only [addVirtualDirEntry, if_true] at hp
        rw [hp]
        exact ⟨⟨iff_of_false FsError.noConfusion (not_not.2 hnew), fun hno => absurd rfl hno, fun _ => hcontents⟩, rfl,
          h.running.symm, hagrees⟩

theorem Inv.remove (h : Inv env s) {name : Str} (hvalid : refused (some name) = false) (hname : name.length < 2 ^ 32) :
    let p := s.table.remove (some name) ⟨.ok, .ok⟩
    Removes Directory.virtualDir s.history name .notMapped .none p.1 s.table.list.contents p.2.list.contents ∧
      After s p.2 (if p.1 = .none then .removed name :: s.history else s.history) := by
  intro p
  obtain ⟨q, hq, ⟨hnone, hlatest⟩ | ⟨n, hn, hlatest, hagrees, hcontents⟩⟩ := h.agrees.search (picks_named hname)
  · have hp : p = (.notMapped, s.table) := by simp [p, Directories.remove, h.running, h.supported, hvalid, hq, hnone]
    rw [hp]
    exact ⟨⟨iff_of_true rfl hlatest, fun _ => rfl, fun hno => by cases hno⟩, rfl, rfl, h.agrees⟩
  · have hp : p = (.none, { s.table with list := s.table.list.take q n }) := by
      simp [p, Directories.remove, h.running, h.supported, hvalid, hq, hn]
    rw [hp]
    exact ⟨⟨iff_of_false FsError.noConfusion (by simp [hlatest]), fun hno => absurd rfl hno, fun _ => hcontents⟩, rfl, rfl,
      hagrees⟩

theorem Inv.after (h : Inv env s) {t : Directories} {history : List (Event Str Directory)} (ha : After s t history) :
    Inv env ⟨t, history⟩ :=
  ⟨(congrArg FileSystem.Env.filesystemSupported ha.1).trans h.supported, ha.1.trans h.env, ha.2.1.trans h.running, ha.2.2⟩

theorem step_inv (env : FileSystem.Env) (s : Log) (o : Op) (h : Inv env s) (ho : o.valid env) : Inv env (s.step o) := by
  rw [← h.env] at ho
  cases o with
  | add a locks =>
    obtain ⟨virtualDir, localDir, isADir, entryOk, localOk, virtualOk⟩ := a
    obtain ⟨rfl, haccepted, hshort⟩ := ho
    cases virtualDir with
    | none => cases haccepted
    | some v =>
      cases localDir with
      | none => cases haccepted
      | some l => exact h.after (h.add haccepted hshort isADir entryOk localOk virtualOk).2
  | remove virtualDir locks =>
    obtain ⟨rfl, haccepted, hshort⟩ := ho
    cases virtualDir with
    | none => cases haccepted
    | some v => exact h.after (h.remove haccepted hshort).2

theorem Inv.map (h : Inv env s) : Map s where
  lookup _ hname := h.agrees.lookup (picks_named hname)
  add _ _ isADir entryOk localOk virtualOk hvalid hname := (h.add hvalid hname isADir entryOk localOk virtualOk).1
  remove _ hvalid hname := (h.remove hvalid hname).1

theorem inv_fresh (henv : env.filesystemSupported = true) (entry : ℕ → Directory) : Inv env (.fresh env entry) :=
  ⟨henv, rfl, rfl, agrees_empty _ _ entry⟩

/-! ### The list of the handler's model -/

/-- the entry of a node -/
def ofNode (d : VirtualDir) : Directory := entryOf d.virtualDir d.localDir

/-- the two models find one directory -/
theorem Inv.findDir (h : Inv env s) {dirs : List VirtualDir} (hdirs : s.table.list.contents = dirs.map ofNode) (name : Str) :
    (findDir name name.length dirs).map ofNode = s.table.lookup name := by
  obtain ⟨l, hl⟩ := h.agrees.holds
  rw [Directories.lookup, hl.lookup, hdirs, List.find?_map]
  rfl

/-- and take one directory out -/
theorem Inv.unlinkDir (h : Inv env s) {dirs : List VirtualDir} (hdirs : s.table.list.contents = dirs.map ofNode) {name : Str}
    (hname : name.length < 2 ^ 32) :
    (dirs.eraseP (·.isNamed name name.length)).map ofNode =
      s.table.list.contents.filter fun e => Directory.virtualDir e ≠ name := by
  have hdistinct := h.agrees.distinct
  have hgood := h.agrees.good
  rw [hdirs] at hdistinct hgood ⊢
  clear hdirs
  induction dirs with
  | nil => rfl
  | cons d dirs ih =>
    obtain ⟨hd, hdirs⟩ := List.nodup_cons.1 hdistinct
    have hnamed : d.isNamed name name.length = true ↔ d.virtualDir = name := picks_named hname (ofNode d) (hgood _ List.mem_cons_self)
    by_cases hn : d.virtualDir = name
    · subst hn
      rw [List.eraseP_cons_of_pos (hnamed.2 rfl), List.map_cons, List.filter_cons_of_neg (by simp [ofNode, entryOf]), eq_comm,
        List.filter_eq_self]
      intro e he
      exact decide_eq_true fun heq => hd (List.mem_map.2 ⟨e, he, heq⟩)
    · rw [List.eraseP_cons_of_neg (mt hnamed.1 hn), List.map_cons, List.map_cons, List.filter_cons_of_pos (by simp [ofNode, entryOf, hn]),
        ih hdirs fun e he => hgood e (List.mem_cons_of_mem _ he)]

end Directories

/-! ## Runs -/

open Lib.Runs

/-- **Names are maps.** On a running library both lists are maps after every run of calls; entry is what the memory of a record
holds before it is used. -/
theorem names_are_maps {targets : List Targets.Op} (htargets : ∀ o ∈ targets, o.valid) {env : FileSystem.Env}
    (henv : env.filesystemSupported = true) {directories : List Directories.Op} (hdirectories : ∀ o ∈ directories, o.valid env)
    (target : ℕ → Receive.ReceiveTarget) (directory : ℕ → Directory) :
    Targets.Map (run Targets.Log.step (.fresh target) targets) ∧
      Directories.Map (run Directories.Log.step (.fresh env directory) directories) :=
  ⟨(run_inv_mem Targets.step_inv (Targets.inv_fresh target) htargets).map,
    (run_inv_mem (Directories.step_inv env) (Directories.inv_fresh henv directory) hdirectories).map⟩

namespace Witness

/-- a name is added, then one that extends it, then the first is removed and added again without memory -/
def targets : List Targets.Op :=
  [.add ⟨some [97], some 0, none, 0, true, true⟩ ⟨.ok, .ok⟩, .add ⟨some [97, 98], some 1, none, 0, true, true⟩ ⟨.ok, .ok⟩,
    .remove (some [97]) ⟨.ok, .ok⟩, .add ⟨some [97], some 2, none, 0, true, false⟩ ⟨.ok, .ok⟩]

def directories : List Directories.Op :=
  [.add ⟨some [97], some [47], true, true, true, true⟩ ⟨.ok, .ok⟩,
    .add ⟨some [97, 98], some [47], true, true, true, true⟩ ⟨.ok, .ok⟩, .remove (some [97]) ⟨.ok, .ok⟩,
    .add ⟨some [97], some [47], true, true, true, false⟩ ⟨.ok, .ok⟩]

def entry : Receive.ReceiveTarget := ⟨[], 0, none, 0⟩

end Witness

open Witness in
theorem prefixed_names_are_maps :
    Targets.Map (run Targets.Log.step (.fresh fun _ => entry) targets) ∧
      Directories.Map (run Directories.Log.step (.fresh (calm true) fun _ => ⟨[], [], 0, 0⟩) directories) :=
  names_are_maps (by decide) rfl (by decide) _ _

open Witness in
/-- what is left of the first run -/
example : ((run Targets.Log.step (.fresh fun _ => entry) targets).table.list.contents.map (·.target)) = [[97, 98]] := by decide

end CcApi.Tables
