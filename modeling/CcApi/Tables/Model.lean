/-
The two lists that the application changes while the connector's thread looks names up in them: the receive targets
(`ccapi_receive.c`, looked up in `ccapi_data_handler.c`) and the virtual directories (`ccapi_filesystem.c`, looked up in
`ccapi_filesystem_handler.c`).

add searches the list for its name and puts a new entry in front, remove searches and takes the entry out, a lookup searches
and reads the entry. All search with the same loop, which moves a pointer to a link (`get_pointer_to_target_entry`,
`get_pointer_to_dir_entry_from_virtual_dir_name`). What differs between the two is what runs under the list's lock:

- receive targets: the insertion, and in remove what follows the search; remove frees the entry before it writes the link.
- virtual directories: the insertion, all of remove but the freeing, and the lookup (the handler takes `file_system_lock`
  around every request). add asks the platform for the local directory's status between its search and its insertion, and
  takes the lock for it.

A step of a thread reads or writes one link, reads one entry, or acquires or releases the lock; so the interleavings are the
lists of operations.

Premises:
- an acquire waits while the lock is taken, or fails; a release gives the lock back, or fails and leaves it taken;
- names are compared as whole strings (`strncmp` over the longer of the two), so any type with equality stands for them;
- the checks in front of a call's search (arguments, library running, service supported) have passed.

`faulted` records that a freed entry, or NULL, was read or written through. Reading `*p_dir_entry` twice in a row under the
lock (for the entry, and for the NULL test) is one step.
-/
import CcApi.Platform
import CcApi.Lib.Splice
import CcApi.Lib.Runs

namespace CcApi.Tables

open Lib.Splice

/-- which of the two lists -/
inductive Kind where
  | receive
  | virtualDir
deriving DecidableEq, Repr

variable {ι α : Type} [DecidableEq ι] [DecidableEq α]

/-- the list and the entries created so far; an entry is named by the number of its creation -/
structure Table (α : Type) where
  /-- `target_list`, `virtual_dir_list`, and the entries' `next` -/
  links : Links ℕ
  /-- `target`, `virtual_dir` -/
  name : ℕ → α
  /-- the number of the next entry -/
  fresh : ℕ
  freed : List ℕ

/-- what a call searches for -/
inductive Task (α : Type) where
  | add (a : α)
  | remove (a : α)
  | lookup (a : α)
deriving DecidableEq, Repr

def Task.name : Task α → α
  | .add a | .remove a | .lookup a => a

/-- the search runs under the list's lock -/
def Task.searchLocked (k : Kind) : Task α → Bool
  | .add _ => false
  | .remove _ | .lookup _ => k = .virtualDir

/-- where a thread stands: what it does next -/
inductive Pc (α : Type) where
  | idle
  /-- take the lock and search -/
  | enter (c : Task α)
  /-- the search: read `*p` -/
  | seek (c : Task α) (p : Place ℕ)
  /-- the search: read the name of the entry that was at p -/
  | compare (c : Task α) (p : Place ℕ) (n : ℕ)
  /-- the search is over: read `*p` again -/
  | found (c : Task α) (p : Place ℕ)
  /-- `path_is_a_dir`: take the lock -/
  | checkDir (a : α)
  /-- `path_is_a_dir`: release it; the answer is in -/
  | statted (a : α)
  /-- `create_target_entry`, `create_virtual_dir_entry` -/
  | create (a : α)
  /-- `add_target_entry`, `add_virtual_dir_entry`: take the lock -/
  | insert (n : ℕ)
  /-- store the head into the entry's `next` -/
  | link (n : ℕ)
  /-- store the entry into the head -/
  | publish (n : ℕ)
  /-- remove, receive: take the lock -/
  | await (a : α) (p : Place ℕ)
  /-- remove, receive: read `*p_target` -/
  | take (a : α) (p : Place ℕ)
  /-- remove: read the entry's `next` -/
  | read (a : α) (p : Place ℕ) (n : ℕ)
  /-- remove, receive: free the entry -/
  | free (a : α) (p : Place ℕ) (n : ℕ) (v : Option ℕ)
  /-- remove: store v into `*p` -/
  | unlink (a : α) (p : Place ℕ) (n : ℕ) (v : Option ℕ)
  /-- lookup: read the entry's fields -/
  | use (n : ℕ)
  /-- release the lock -/
  | leave
  /-- remove, virtual directories: release the lock, an entry in hand -/
  | leaveWith (n : ℕ)
  /-- remove, virtual directories: free the entry -/
  | dispose (n : ℕ)
deriving DecidableEq, Repr

structure St (ι α : Type) where
  table : Table α
  /-- the lock is taken -/
  held : Bool
  pc : ι → Pc α
  faulted : Bool
  /-- the entries that were added and that no remove of their name has taken out -/
  kept : List ℕ

inductive Op (ι α : Type) where
  /-- thread t makes a call -/
  | call (t : ι) (c : Task α)
  /-- thread t does its next step; ok says whether what may fail succeeds -/
  | step (t : ι) (ok : Bool)
deriving DecidableEq, Repr

namespace St

def goto (t : ι) (pc : Pc α) (s : St ι α) : St ι α := { s with pc := Function.update s.pc t pc }

/-- entry n is read or written -/
def touch (n : ℕ) (s : St ι α) : St ι α := { s with faulted := s.faulted || decide (n ∈ s.table.freed) }

/-- the link at p is read or written -/
def touchPlace (p : Place ℕ) (s : St ι α) : St ι α :=
  match p with
  | .head => s
  | .next n => s.touch n

def setLinks (k : Links ℕ) (s : St ι α) : St ι α := { s with table := { s.table with links := k } }

/-- `ccapi_lock_acquire`; a failure ends the call -/
def acquire (t : ι) (ok : Bool) (pc : Pc α) (s : St ι α) : St ι α :=
  if ok then
    if s.held then s else { s.goto t pc with held := true }
  else s.goto t .idle

/-- `ccapi_lock_release` -/
def release (t : ι) (ok : Bool) (pc : Pc α) (s : St ι α) : St ι α :=
  { s.goto t pc with held := s.held && !ok }

/-- the entry is freed -/
def drop (n : ℕ) (s : St ι α) : St ι α :=
  { s.touch n with table := { s.table with freed := n :: s.table.freed } }

/-- a new entry -/
def new (a : α) (s : St ι α) : St ι α :=
  { s with table := { s.table with
      name := Function.update s.table.name s.table.fresh a
      links := s.table.links.store (.next s.table.fresh) none
      fresh := s.table.fresh + 1 } }

end St

/-- the next step of thread t; debug says whether CCIMP_DEBUG_ENABLED is defined: without it `ccapi_get_dir_entry_status` does
not release the lock -/
def stepThread (k : Kind) (debug : Bool) (t : ι) (ok : Bool) (s : St ι α) : St ι α :=
  match s.pc t with
  | .idle => s
  | .enter c => s.acquire t ok (.seek c .head)
  | .seek c p =>
    match s.table.links.load p with
    | none => (s.touchPlace p).goto t (.found c p)
    | some n => (s.touchPlace p).goto t (.compare c p n)
  | .compare c p n => (s.touch n).goto t (if s.table.name n = c.name then .found c p else .seek c (.next n))
  | .found c p =>
    (s.touchPlace p).goto t <|
      match c, s.table.links.load p with
      | .add a, none => if k = .virtualDir then .checkDir a else .create a
      | .add _, some _ => .idle
      | .remove _, none => if k = .virtualDir then .leave else .idle
      | .remove a, some n => if k = .virtualDir then .read a p n else .await a p
      | .lookup _, none => if k = .virtualDir then .leave else .idle
      | .lookup _, some n => .use n
  | .checkDir a => s.acquire t ok (.statted a)
  | .statted a => s.release t debug (if ok then .create a else .idle)
  | .create a => if ok then (s.new a).goto t (.insert s.table.fresh) else s.goto t .idle
  | .insert n => s.acquire t ok (.link n)
  | .link n => ((s.touch n).setLinks (s.table.links.store (.next n) s.table.links.head)).goto t (.publish n)
  | .publish n =>
    { (s.setLinks (s.table.links.store .head (some n))).goto t .leave with kept := n :: s.kept }
  | .await a p => s.acquire t ok (.take a p)
  | .take a p =>
    match s.table.links.load p with
    | none => { s.goto t .leave with faulted := true }
    | some n => (s.touchPlace p).goto t (.read a p n)
  | .read a p n =>
    (s.touch n).goto t (if k = .virtualDir then .unlink a p n (s.table.links.next n) else .free a p n (s.table.links.next n))
  | .free a p n v => (s.drop n).goto t (.unlink a p n v)
  | .unlink a p n v =>
    { ((s.touchPlace p).setLinks (s.table.links.store p v)).goto t (if k = .virtualDir then .leaveWith n else .leave) with
      kept := s.kept.filter fun m => s.table.name m ≠ a }
  | .use n => (s.touch n).goto t (if k = .virtualDir then .leave else .idle)
  | .leave => s.release t ok .idle
  | .leaveWith n => s.release t ok (.dispose n)
  | .dispose n => (s.drop n).goto t .idle

def step (k : Kind) (debug : Bool) (s : St ι α) : Op ι α → St ι α
  | .call t c =>
    if s.pc t = .idle then s.goto t (if c.searchLocked k then .enter c else .seek c .head) else s
  | .step t ok => stepThread k debug t ok s

/-- an empty list and threads that do nothing -/
def St.empty (name : ℕ → α) : St ι α :=
  { table := { links := ⟨none, fun _ => none⟩, name := name, fresh := 0, freed := [] }
    held := false, pc := fun _ => .idle, faulted := false, kept := [] }

/-- the entries of the list, followed from its head for as many steps as there are entries -/
def Table.entries (t : Table α) : List ℕ := Lib.Chain.walk t.links.next t.fresh t.links.head

end CcApi.Tables
