/-
What the services of the library share: the connector's callback answers, the worker threads' status, fixed-width
arithmetic, and the heap.

Sizes are those of an LP64 build (`size_t` is 64 bits wide), which is how the repository's Makefile compiles. The heap is
a ledger of blocks: a block is named by the number of its allocation, so a block is never handed out twice, and `frees`
lists the releases in order.
-/
import Mathlib.Tactic

namespace CcApi

/-- `connector_callback_status_t` -/
inductive CallbackStatus where
  | cont
  | busy
  | error
  | unrecognized
deriving DecidableEq, Repr

/-- `ccimp_status_t` -/
inductive CcimpStatus where
  | ok
  | busy
  | error
deriving DecidableEq, Repr

/-- `connector_status_t`; `failed` stands for the values that the library's calls treat alike -/
inductive ConnectorStatus where
  | success
  | serviceBusy
  | abort
  | failed
deriving DecidableEq, Repr

/-- what `ccapi_lock_acquire` makes of the platform's answer and of whether the lock was acquired -/
def lockAcquire (status : CcimpStatus) (acquired : Bool) : CcimpStatus :=
  if status = .ok ∧ ¬ acquired then .error else status

/-- `ccapi_thread_status_t`, as far as a running worker sees it -/
inductive ThreadStatus where
  | notStarted
  | running
  | requestStop
deriving DecidableEq, Repr

/-! ## Fixed-width arithmetic -/

/-- a value stored into a `uint32_t` -/
def u32 (x : ℕ) : ℕ := x % 2 ^ 32

/-- `a - b` on `uint32_t` (and on `unsigned int`) -/
def u32Sub (a b : ℕ) : ℕ := (a + (2 ^ 32 - b % 2 ^ 32)) % 2 ^ 32

/-- `a - b` on `size_t` -/
def sizeSub (a b : ℕ) : ℕ := (a + (2 ^ 64 - b % 2 ^ 64)) % 2 ^ 64

theorem u32_eq {x : ℕ} (h : x < 2 ^ 32) : u32 x = x := Nat.mod_eq_of_lt h

theorem u32_lt (x : ℕ) : u32 x < 2 ^ 32 := Nat.mod_lt _ (by norm_num)

theorem u32Sub_eq {a b : ℕ} (hab : b ≤ a) (ha : a < 2 ^ 32) : u32Sub a b = a - b := by
  unfold u32Sub; omega

theorem sizeSub_eq {a b : ℕ} (hab : b ≤ a) (ha : a < 2 ^ 64) : sizeSub a b = a - b := by
  unfold sizeSub; omega

/-! ## Strings -/

/-- a C string, without the terminating NUL -/
abbrev Str := List UInt8

def ascii (s : String) : Str := s.toList.map fun c => UInt8.ofNat c.toNat

/-- `%d` of a number that is not negative -/
def decimal (k : ℕ) : Str := (Nat.toDigits 10 k).map fun c => UInt8.ofNat c.toNat

/-! ## The heap -/

/-- a pointer into a block -/
structure Ptr where
  block : ℕ
  off : ℕ
deriving DecidableEq, Repr

structure Heap where
  /-- the number of the next block -/
  next : ℕ
  /-- the size each block was asked with -/
  size : ℕ → ℕ
  /-- the released blocks, in order of release -/
  frees : List ℕ
  /-- contents: block, offset -/
  mem : ℕ → ℕ → UInt8

namespace Heap

def empty : Heap := ⟨0, fun _ => 0, [], fun _ _ => 0⟩

/-- `ccapi_malloc`; ok says whether the platform has the memory -/
def malloc (size : ℕ) (ok : Bool) (h : Heap) : Option ℕ × Heap :=
  if ok then (some h.next, { h with next := h.next + 1, size := Function.update h.size h.next size }) else (none, h)

/-- `ccapi_free` -/
def free (b : ℕ) (h : Heap) : Heap := { h with frees := h.frees ++ [b] }

/-- `memcpy` of len bytes to offset off of block b -/
def write (b off len : ℕ) (src : ℕ → UInt8) (h : Heap) : Heap :=
  { h with mem := Function.update h.mem b fun i => if off ≤ i ∧ i < off + len then src (i - off) else h.mem b i }

/-- len bytes of block b from its start -/
def read (b len : ℕ) (h : Heap) : List UInt8 := (List.range len).map (h.mem b)

/-- `ccimp_os_realloc` from oldSize to newSize bytes; on success the block moves -/
def realloc (p : Option ℕ) (oldSize newSize : ℕ) (ok : Bool) (h : Heap) : Option ℕ × Heap :=
  match h.malloc newSize ok with
  | (none, h) => (none, h)
  | (some b, h) =>
    match p with
    | some a => (some b, (h.write b 0 oldSize (h.mem a)).free a)
    | none => (some b, h)

/-- len bytes from a pointer on -/
def load (p : Ptr) (len : ℕ) (h : Heap) : List UInt8 := (List.range len).map fun i => h.mem p.block (p.off + i)

@[simp] theorem free_next (b : ℕ) (h : Heap) : (h.free b).next = h.next := rfl
@[simp] theorem free_mem (b : ℕ) (h : Heap) : (h.free b).mem = h.mem := rfl
@[simp] theorem write_next (b off len : ℕ) (src : ℕ → UInt8) (h : Heap) : (h.write b off len src).next = h.next := rfl
@[simp] theorem write_frees (b off len : ℕ) (src : ℕ → UInt8) (h : Heap) : (h.write b off len src).frees = h.frees := rfl

/-- the blocks of h keep their contents in h' -/
def Keeps (h h' : Heap) : Prop := h.next ≤ h'.next ∧ ∀ b < h.next, h'.mem b = h.mem b

theorem Keeps.refl (h : Heap) : h.Keeps h := ⟨le_rfl, fun _ _ => rfl⟩

theorem Keeps.trans {h h' h'' : Heap} (h1 : h.Keeps h') (h2 : h'.Keeps h'') : h.Keeps h'' :=
  ⟨h1.1.trans h2.1, fun b hb => (h2.2 b (hb.trans_le h1.1)).trans (h1.2 b hb)⟩

theorem Keeps.read {h h' : Heap} (hk : h.Keeps h') {b : ℕ} (hb : b < h.next) (m : ℕ) : h'.read b m = h.read b m := by
  simp only [Heap.read, hk.2 b hb]

theorem keeps_malloc (size : ℕ) (ok : Bool) (h : Heap) : h.Keeps (h.malloc size ok).2 := by
  cases ok
  · exact Keeps.refl h
  · exact ⟨Nat.le_succ _, fun _ _ => rfl⟩

theorem keeps_free (b : ℕ) (h : Heap) : h.Keeps (h.free b) := ⟨le_rfl, fun _ _ => rfl⟩

/-- what is written to a block that is not h's leaves h's blocks alone -/
theorem Keeps.write {h h' : Heap} (hk : h.Keeps h') {b : ℕ} (hb : h.next ≤ b) (off len : ℕ) (src : ℕ → UInt8) :
    h.Keeps (h'.write b off len src) := by
  refine ⟨hk.1, fun b' hb' => ?_⟩
  have hne : b' ≠ b := (hb'.trans_le hb).ne
  simp only [Heap.write, Function.update_of_ne hne]
  exact hk.2 b' hb'

/-- heap is h behind a `ccimp_os_realloc` of p that was granted: what p held is in a new block -/
structure Moved (p : Option ℕ) (oldSize : ℕ) (h heap : Heap) : Prop where
  keeps : h.Keeps heap
  sizes : ∀ b < h.next, heap.size b = h.size b
  next : heap.next = h.next + 1
  frees : heap.frees = h.frees ++ p.toList
  read : ∀ b ∈ p, heap.read h.next oldSize = h.read b oldSize

theorem realloc_moved (p : Option ℕ) (oldSize newSize : ℕ) (h : Heap) :
    ∃ heap, h.realloc p oldSize newSize true = (some h.next, heap) ∧ Moved p oldSize h heap := by
  have hsizes (b : ℕ) (hb : b < h.next) : Function.update h.size h.next newSize b = h.size b := Function.update_of_ne hb.ne _ _
  cases p with
  | none => exact ⟨_, rfl, keeps_malloc newSize true h, hsizes, rfl, by simp, by simp⟩
  | some a =>
    refine ⟨_, rfl, ((keeps_malloc newSize true h).write le_rfl 0 oldSize (h.mem a)).trans (keeps_free a _), hsizes, rfl, rfl,
      fun b hb => ?_⟩
    obtain rfl := Option.some.inj hb
    apply List.map_congr_left
    intro i hi
    simp [write, free, List.mem_range.1 hi]

/-- a list written behind what a block holds is appended to it -/
theorem read_append (b len : ℕ) (bytes : List UInt8) (h : Heap) :
    (h.write b len bytes.length fun i => bytes.getD i 0).read b (len + bytes.length) = h.read b len ++ bytes := by
  simp only [Heap.read, Heap.write, Function.update_self]
  apply List.ext_getElem
  · simp
  · intro i h1 h2
    simp only [List.length_map, List.length_range] at h1
    by_cases hi : i < len
    · simp [hi]
    · have hlen : len ≤ i := Nat.le_of_not_lt hi
      have hlt : i - len < bytes.length := by omega
      rw [List.getElem_append_right (by simpa using hlen)]
      simp [hlen, h1, hlt]

end Heap

end CcApi
