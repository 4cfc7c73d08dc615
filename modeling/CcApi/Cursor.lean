/-
The cursor of a reply (`response_processing` of `ccapi_svc_receive_t` and of `ccapi_svc_cli_t`).

Both services hand a response out the same way: a pointer and a count, of which each reply takes as much as the connector has
room for.

- `Heap.Holds`: a pointer and a count stand for bytes in the heap.
- `Heap.Holds.advance`: the cursor behind the bytes that are taken.
- `streams_reply`: one reply, the cursor in agreement with what has been handed out.
- `Replying`: what both services keep of a session in agreement with what its replies have been; `Replying.reply` and
  `Replying.message` are a reply of what the cursor stands for and one that builds a message first.
-/
import CcApi.Lib.Drain
import CcApi.Platform

namespace CcApi

open Lib.Drain

/-- the n bytes behind p, none behind NULL -/
def Heap.bytes (h : Heap) (p : Option Ptr) (n : ℕ) : List UInt8 :=
  match p with
  | some p => h.load p n
  | none => []

/-- the bytes are n, and they are in the heap behind p -/
structure Heap.Holds (h : Heap) (p : Option Ptr) (n : ℕ) (bytes : List UInt8) : Prop where
  length : bytes.length = n
  block : ∀ q, p = some q → q.block < h.next
  bytes : h.bytes p n = bytes

namespace Heap

@[simp] theorem length_load (h : Heap) (p : Ptr) (n : ℕ) : (h.load p n).length = n := by simp [Heap.load]

theorem take_load (h : Heap) (p : Ptr) {m n : ℕ} (hm : m ≤ n) : (h.load p n).take m = h.load p m := by
  simp only [Heap.load, ← List.map_take, List.take_range, min_eq_left hm]

theorem drop_load (h : Heap) (p : Ptr) (m n : ℕ) :
    (h.load p n).drop m = h.load ⟨p.block, p.off + m⟩ (n - m) := by
  apply List.ext_getElem
  · simp
  · intro i h₁ h₂
    simp [Heap.load, Nat.add_assoc]

/-- a list written from a block's start on is read from there -/
theorem load_write (h : Heap) (b : ℕ) {len n : ℕ} (hn : n ≤ len) (src : ℕ → UInt8) :
    (h.write b 0 len src).load ⟨b, 0⟩ n = (List.range n).map src := by
  simp only [Heap.load, Heap.write, Function.update_self]
  apply List.map_congr_left
  intro i hi
  have hlt : i < len := (List.mem_range.1 hi).trans_le hn
  simp [hlt]

theorem map_getD_range (bytes : List UInt8) : (List.range bytes.length).map (fun i => bytes.getD i 0) = bytes := by
  apply List.ext_getElem
  · simp
  · intro i h₁ h₂
    simp [h₂]

theorem Holds.keeps {h h' : Heap} {p : Option Ptr} {n : ℕ} {bytes : List UInt8} (hh : h.Holds p n bytes) (hk : h.Keeps h') :
    h'.Holds p n bytes := by
  refine ⟨hh.length, fun q hq => (hh.block q hq).trans_le hk.1, ?_⟩
  rw [← hh.bytes]
  cases p with
  | none => rfl
  | some q => simp only [Heap.bytes, Heap.load, hk.2 q.block (hh.block q rfl)]

theorem holds_nil (h : Heap) : h.Holds none 0 [] := ⟨rfl, fun q hq => (by cases hq), rfl⟩

/-- a list in a block of its own -/
theorem holds_write {h : Heap} {b len : ℕ} (hb : b < h.next) {bytes : List UInt8} (hlen : bytes.length ≤ len) :
    (h.write b 0 len fun i => bytes.getD i 0).Holds (some ⟨b, 0⟩) bytes.length bytes := by
  refine ⟨rfl, fun q hq => ?_, ?_⟩
  · cases hq
    exact hb
  · simp only [Heap.bytes]
    rw [load_write h b hlen, map_getD_range]

theorem Holds.take {h : Heap} {p : Option Ptr} {n : ℕ} {bytes : List UInt8} (hh : h.Holds p n bytes) {m : ℕ} (hm : m ≤ n) :
    h.bytes p m = bytes.take m := by
  rw [← hh.bytes]
  cases p with
  | none => simp [Heap.bytes]
  | some q => exact (take_load h q hm).symm

/-- the cursor behind the bytes that are taken -/
theorem Holds.advance {h : Heap} {p : Option Ptr} {n : ℕ} {bytes : List UInt8} (hh : h.Holds p n bytes) (m : ℕ) :
    h.Holds (p.map fun q => { q with off := q.off + m }) (n - m) (bytes.drop m) := by
  refine ⟨by rw [List.length_drop, hh.length], fun q hq => ?_, ?_⟩
  · obtain ⟨q', hq', rfl⟩ := Option.map_eq_some_iff.1 hq
    exact hh.block q' hq'
  · rw [← hh.bytes]
    cases p with
    | none => simp [Heap.bytes]
    | some q => exact (drop_load h q m n).symm

end Heap

/-- **One reply.** The cursor holds what of the response has not been handed out: the reply hands out the next of it, says
whether that was all, and the cursor is behind it. -/
theorem streams_reply {whole : List UInt8} {given : List (Piece UInt8)} {heap : Heap} {p : Option Ptr} {n : ℕ}
    (h : Streams whole given) (hh : heap.Holds p n (whole.drop (handed given).length)) (avail : ℕ) :
    let piece : Piece UInt8 := ⟨heap.bytes p (min n avail), decide (n - min n avail > 0)⟩
    Streams whole (given ++ [piece]) ∧
      heap.Holds (p.map fun q => { q with off := q.off + min n avail }) (n - min n avail)
        (whole.drop (handed (given ++ [piece])).length) := by
  have hm : min n avail ≤ n := min_le_left _ _
  have hpart := h.part.length_le
  have hlen := hh.length
  rw [List.length_drop] at hlen
  have hpiece := hh.take hm
  have hgiven : (handed (given ++ [⟨heap.bytes p (min n avail), decide (n - min n avail > 0)⟩])).length =
      (handed given).length + min n avail := by
    rw [handed_append, handed_singleton, List.length_append, hpiece, List.length_take, List.length_drop]
    omega
  refine ⟨?_, ?_⟩
  · rw [hpiece]
    exact h.give (by omega) (by rw [decide_eq_true_iff]; omega)
  · rw [hgiven, ← List.drop_drop]
    exact hh.advance _

/-! ## Sessions -/

/-- the status of a session's context, whether its response is a message of the library's, and its cursor (p, n), in agreement
with whether the request has ended, with the messages that were tried, and with what has been handed out -/
structure Replying {τ : Type*} (idle free : τ) (h : Heap) (response : List UInt8) (ended : Bool) (tried : List (Option Str))
    (given : List (Piece UInt8)) (status : τ) (internal : Bool) (p : Option Ptr) (n : ℕ) : Prop where
  streams : Streams response given
  once : tried.length ≤ 1
  unasked : ended = false → given = [] ∧ tried = []
  settled : ended = true → status = idle ∨ status = free
  handled : tried ≠ [] → internal = true
  cursor : status = free ∨ ended = true → h.Holds p n (response.drop (handed given).length)

namespace Replying

variable {τ : Type*} {idle free status : τ} {h h' : Heap} {response response' : List UInt8} {ended internal : Bool}
  {tried : List (Option Str)} {given : List (Piece UInt8)} {p p' : Option Ptr} {n n' : ℕ}

/-- a session that no reply has been given to -/
theorem of_unasked (hd : given = [] ∧ tried = []) (hsettled : ended = true → status = idle ∨ status = free)
    (hcursor : status = free ∨ ended = true → h.Holds p n response) :
    Replying idle free h response ended tried given status internal p n where
  streams := hd.1 ▸ streams_nil _
  once := by
    rw [hd.2]
    exact Nat.zero_le _
  unasked _ := hd
  settled := hsettled
  handled hne := absurd hd.2 hne
  cursor hs := by
    rw [hd.1]
    exact hcursor hs

theorem keeps (hr : Replying idle free h response ended tried given status internal p n) (hk : h.Keeps h') :
    Replying idle free h' response ended tried given status internal p n :=
  { hr with cursor := fun hs => (hr.cursor hs).keeps hk }

/-- nothing is asked while the status is another one -/
theorem unended (hr : Replying idle free h response ended tried given status internal p n) (hidle : status ≠ idle)
    (hfree : status ≠ free) : ended = false := by
  by_contra hne
  rcases hr.settled (by simpa using hne) with hs | hs
  · exact hidle hs
  · exact hfree hs

/-- a reply that hands out what the cursor stands for -/
theorem reply (hr : Replying idle free h response ended tried given status internal p n) (hended : ended = true) (avail : ℕ) :
    Replying idle free h response ended tried
      (given ++ [⟨h.bytes p (min n avail), decide (n - min n avail > 0)⟩]) status internal
      (p.map fun q => { q with off := q.off + min n avail }) (n - min n avail) := by
  obtain ⟨hstreams, hcursor⟩ := streams_reply hr.streams (hr.cursor (.inr hended)) avail
  exact ⟨hstreams, hr.once, fun he => absurd (he.symm.trans hended) (by decide), hr.settled, hr.handled, fun _ => hcursor⟩

/-- the first reply, when the cursor is first set to a message; where there was no memory for one, to none -/
theorem message (hr : Replying idle free h response ended tried given status internal p n) (hended : ended = true)
    (text : Option Str) (hholds : h'.Holds p' n' response') (avail : ℕ) :
    Replying idle free h' response' ended [text] [⟨h'.bytes p' (min n' avail), decide (n' - min n' avail > 0)⟩] status true
      (p'.map fun q => { q with off := q.off + min n' avail }) (n' - min n' avail) := by
  obtain ⟨hstreams, hcursor⟩ := streams_reply (streams_nil response') hholds avail
  exact ⟨hstreams, Nat.le_refl _, fun he => absurd (he.symm.trans hended) (by decide), hr.settled, fun _ => rfl, fun _ => hcursor⟩

end Replying

end CcApi
