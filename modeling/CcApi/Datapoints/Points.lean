/-
The construction of a data point (`parse_argument_list_and_create_data_point` and `ccapi_dp_add` of `ccapi_datapoints.c`).

The loop takes the stream's keywords in their order and stores one argument for each, into the unions for the value and the
time as well; a text is copied, and a copy that fails ends the loop through `free_ccfsm_data_point`, which reads both unions as
pointers. `Building` is what holds of the point behind each turn of the loop, whatever the order.

- `point_built`: the point holds the converted arguments of its keywords, and so does any permutation of them.
- `failed_point_iff`: a call that fails for memory is undone exactly when no number was stored before the copy that fails.
-/
import CcApi.Datapoints.Format

namespace CcApi.Datapoints

open Lib

/-! ## What a keyword stores -/

/-- the native value of a data keyword -/
def DpArgument.native (v : VaArgs) : DpArgument → Option Native
  | .dataInt32 => some (.int v.int32)
  | .dataInt64 => some (.long v.int64)
  | .dataFloat => some (.float v.float)
  | .dataDouble => some (.double v.double)
  | .dataString | .dataJson | .dataGeojson => some (.string (some v.string))
  | _ => none

/-- the time of a timestamp keyword -/
def DpArgument.time (v : VaArgs) : DpArgument → Option Time
  | .tsEpoch => some (.epochFractional v.epochSeconds v.epochMilliseconds)
  | .tsEpochMs => some (.epochWhole v.epochMsec)
  | .tsIso8601 => some (.iso8601 (some v.iso8601))
  | _ => none

/-- there is memory for the copy that a keyword needs, if it needs one -/
def DpArgument.copied (m : PointMemory) : DpArgument → Bool
  | .dataString | .dataJson | .dataGeojson => m.string
  | .tsIso8601 => m.iso8601
  | _ => true

/-- the number that a keyword stores in a union, as the pointer that is read from it -/
def DpArgument.number (v : VaArgs) : DpArgument → ℕ
  | .dataInt32 => v.int32.toNat
  | .dataInt64 => v.int64.toNat
  | .dataFloat => v.float.toNat
  | .dataDouble => v.double.toNat
  | .tsEpoch => v.epochSeconds.toNat + 2 ^ 32 * v.epochMilliseconds.toNat
  | .tsEpochMs => v.epochMsec.toNat
  | _ => 0

/-- the point behind a copy that failed -/
def Point.lost (p : Point) : DpArgument → Point
  | .dataString | .dataJson | .dataGeojson => { p with stringBlock := none, value := { p.value with native := .string none } }
  | .tsIso8601 => { p with iso8601Block := none, value := { p.value with time := .iso8601 none } }
  | _ => p

/-! ## The loop -/

/-- the point behind the keywords of done, with everything allocated since l₀ -/
structure Building (v : VaArgs) (l₀ : Ledger) (done : List DpArgument) (p : Point) (l : Ledger) : Prop where
  native : p.value.native = (done.findSome? (·.native v)).getD (.string none)
  time : p.value.time = (done.findSome? (·.time v)).getD .cloud
  location : p.value.location = if .location ∈ done then some v.location else none
  quality : p.value.quality = if .quality ∈ done then some v.quality else none
  text : p.stringBlock = none ↔ ∀ t, p.value.native ≠ .string (some t)
  iso8601 : p.iso8601Block = none ↔ ∀ t, p.value.time ≠ .iso8601 (some t)
  releases : l.releases = l₀.releases
  next : l₀.next ≤ l.next
  blocks : (p.stringBlock.toList ++ p.iso8601Block.toList ++ [p.block]).Perm (List.range' l₀.next (l.next - l₀.next))

section
variable {v : VaArgs} {m : PointMemory} {l₀ l : Ledger} {done args : List DpArgument} {p : Point} {a : DpArgument}

theorem native_none {x : DpArgument} (h : x.kind ≠ some .type) : x.native v = none := by
  cases x <;> first | rfl | exact absurd rfl h

theorem time_none {x : DpArgument} (h : x.kind ≠ some .timestamp) : x.time v = none := by
  cases x <;> first | rfl | exact absurd rfl h

theorem kind_of_native {x : DpArgument} {n : Native} (h : x.native v = some n) : x.kind = some .type := by
  by_contra hk
  rw [native_none hk] at h
  cases h

theorem kind_of_time {x : DpArgument} {t : Time} (h : x.time v = some t) : x.kind = some .timestamp := by
  by_contra hk
  rw [time_none hk] at h
  cases h

theorem findSome_native (ha : a.kind = some .type) (hfresh : ∀ x ∈ done, x.kind ≠ a.kind) :
    done.findSome? (·.native v) = none :=
  List.findSome?_eq_none_iff.2 fun x hx => native_none (ha ▸ hfresh x hx)

theorem findSome_time (ha : a.kind = some .timestamp) (hfresh : ∀ x ∈ done, x.kind ≠ a.kind) :
    done.findSome? (·.time v) = none :=
  List.findSome?_eq_none_iff.2 fun x hx => time_none (ha ▸ hfresh x hx)

theorem building_new (v : VaArgs) (l : Ledger) : Building v l [] (newPoint l.next) (l.acquire true).2 := by
  constructor <;> simp [newPoint]

/-- a turn of the loop, by what it does to each part of the point -/
theorem Building.turn (h : Building v l₀ done p l) (hfresh : ∀ x ∈ done, x.kind ≠ a.kind) {q : Point} {l' : Ledger}
    (hnative : q.value.native = (a.native v).getD p.value.native) (htime : q.value.time = (a.time v).getD p.value.time)
    (hlocation : q.value.location = if a = .location then some v.location else p.value.location)
    (hquality : q.value.quality = if a = .quality then some v.quality else p.value.quality)
    (htext : q.stringBlock = none ↔ ∀ t, q.value.native ≠ .string (some t))
    (hiso : q.iso8601Block = none ↔ ∀ t, q.value.time ≠ .iso8601 (some t))
    (hreleases : l'.releases = l.releases) (hnext : l.next ≤ l'.next)
    (hblocks : (q.stringBlock.toList ++ q.iso8601Block.toList ++ [q.block]).Perm
      (List.range' l₀.next (l'.next - l₀.next))) : Building v l₀ (done ++ [a]) q l' := by
  refine ⟨?_, ?_, ?_, ?_, htext, hiso, hreleases.trans h.releases, h.next.trans hnext, hblocks⟩
  · rw [hnative, List.findSome?_append, h.native]
    cases hn : a.native v with
    | none => simp [hn]
    | some n => simp [findSome_native (kind_of_native hn) hfresh, hn]
  · rw [htime, List.findSome?_append, h.time]
    cases ht : a.time v with
    | none => simp [ht]
    | some t => simp [findSome_time (kind_of_time ht) hfresh, ht]
  · rw [hlocation, h.location]
    by_cases ha : a = .location <;> simp [ha, eq_comm]
  · rw [hquality, h.quality]
    by_cases ha : a = .quality <;> simp [ha, eq_comm]

theorem Building.no_text (h : Building v l₀ done p l) (ha : a.kind = some .type) (hfresh : ∀ x ∈ done, x.kind ≠ a.kind) :
    p.value.native = .string none ∧ p.stringBlock = none := by
  have hnative : p.value.native = .string none := by rw [h.native, findSome_native ha hfresh]; rfl
  exact ⟨hnative, h.text.2 (by simp [hnative])⟩

theorem Building.no_time (h : Building v l₀ done p l) (ha : a.kind = some .timestamp)
    (hfresh : ∀ x ∈ done, x.kind ≠ a.kind) : p.value.time = .cloud ∧ p.iso8601Block = none := by
  have htime : p.value.time = .cloud := by rw [h.time, findSome_time ha hfresh]; rfl
  exact ⟨htime, h.iso8601.2 (by simp [htime])⟩

/-- a new block stands beside the others -/
theorem perm_range_succ {bs : List ℕ} {n k : ℕ} (hk : n ≤ k) (h : bs.Perm (List.range' n (k - n))) :
    (k :: bs).Perm (List.range' n (k + 1 - n)) := by
  have hlen : k + 1 - n = (k - n) + 1 := by omega
  have hlast : n + (k - n) = k := by omega
  rw [hlen, List.range'_concat, Nat.one_mul, hlast]
  exact ((h.cons k).trans (List.perm_append_singleton k _).symm)

theorem Building.number (h : Building v l₀ done p l) (hfresh : ∀ x ∈ done, x.kind ≠ a.kind) (ha : a.kind = some .type)
    {n : Native} (hn : a.native v = some n) (hnot : ∀ t, n ≠ .string (some t)) :
    Building v l₀ (done ++ [a]) { p with value := { p.value with native := n } } l := by
  have htime : a.time v = none := time_none (by simp [ha])
  refine h.turn hfresh ?_ ?_ ?_ ?_ ?_ h.iso8601 rfl le_rfl h.blocks
  · simp [hn]
  · simp [htime]
  · rw [if_neg (by rintro rfl; cases ha)]
  · rw [if_neg (by rintro rfl; cases ha)]
  · exact iff_of_true (h.no_text ha hfresh).2 hnot

theorem Building.instant (h : Building v l₀ done p l) (hfresh : ∀ x ∈ done, x.kind ≠ a.kind)
    (ha : a.kind = some .timestamp) {t : Time} (ht : a.time v = some t) (hnot : ∀ s, t ≠ .iso8601 (some s)) :
    Building v l₀ (done ++ [a]) { p with value := { p.value with time := t } } l := by
  have hnative : a.native v = none := native_none (by simp [ha])
  refine h.turn hfresh ?_ ?_ ?_ ?_ h.text ?_ rfl le_rfl h.blocks
  · simp [hnative]
  · simp [ht]
  · rw [if_neg (by rintro rfl; cases ha)]
  · rw [if_neg (by rintro rfl; cases ha)]
  · exact iff_of_true (h.no_time ha hfresh).2 hnot

theorem Building.copy (h : Building v l₀ done p l) (hfresh : ∀ x ∈ done, x.kind ≠ a.kind) (ha : a.kind = some .type)
    {t : Str} (hn : a.native v = some (.string (some t))) :
    Building v l₀ (done ++ [a])
      { p with stringBlock := some l.next, value := { p.value with native := .string (some t) } } (l.acquire true).2 := by
  have htime : a.time v = none := time_none (by simp [ha])
  refine h.turn hfresh ?_ ?_ ?_ ?_ (by simp) h.iso8601 rfl (Nat.le_succ _) ?_
  · simp [hn]
  · simp [htime]
  · rw [if_neg (by rintro rfl; cases ha)]
  · rw [if_neg (by rintro rfl; cases ha)]
  · have hblocks := h.blocks
    rw [(h.no_text ha hfresh).2] at hblocks
    exact perm_range_succ h.next hblocks

theorem Building.iso (h : Building v l₀ done p l) (hfresh : ∀ x ∈ done, x.kind ≠ a.kind) (ha : a.kind = some .timestamp)
    {t : Str} (ht : a.time v = some (.iso8601 (some t))) :
    Building v l₀ (done ++ [a])
      { p with iso8601Block := some l.next, value := { p.value with time := .iso8601 (some t) } } (l.acquire true).2 := by
  have hnative : a.native v = none := native_none (by simp [ha])
  refine h.turn hfresh ?_ ?_ ?_ ?_ h.text (by simp) rfl (Nat.le_succ _) ?_
  · simp [hnative]
  · simp [ht]
  · rw [if_neg (by rintro rfl; cases ha)]
  · rw [if_neg (by rintro rfl; cases ha)]
  · have hblocks := h.blocks
    rw [(h.no_time ha hfresh).2] at hblocks
    refine List.Perm.trans ?_ (perm_range_succ h.next hblocks)
    simp only [Option.toList_some, Option.toList_none, List.append_nil, List.append_assoc, List.singleton_append]
    exact List.perm_middle

/-- **One turn of the loop.** -/
theorem parseArgument_builds (h : Building v l₀ done p l) (hvalid : a ≠ .invalid) (hfresh : ∀ x ∈ done, x.kind ≠ a.kind) :
    if a.copied m then ∃ q l', parseArgument v m p l a = (true, q, l') ∧ Building v l₀ (done ++ [a]) q l'
    else parseArgument v m p l a = (false, p.lost a, l) := by
  cases a with
  | invalid => exact absurd rfl hvalid
  | dataInt32 => exact ⟨_, _, rfl, h.number hfresh rfl rfl (by simp)⟩
  | dataInt64 => exact ⟨_, _, rfl, h.number hfresh rfl rfl (by simp)⟩
  | dataFloat => exact ⟨_, _, rfl, h.number hfresh rfl rfl (by simp)⟩
  | dataDouble => exact ⟨_, _, rfl, h.number hfresh rfl rfl (by simp)⟩
  | tsEpoch => exact ⟨_, _, rfl, h.instant hfresh rfl rfl (by simp)⟩
  | tsEpochMs => exact ⟨_, _, rfl, h.instant hfresh rfl rfl (by simp)⟩
  | dataString | dataJson | dataGeojson =>
    obtain ⟨-, string, -⟩ := m
    cases string with
    | false => rfl
    | true => exact ⟨_, _, rfl, h.copy hfresh rfl rfl⟩
  | tsIso8601 =>
    obtain ⟨-, -, iso8601⟩ := m
    cases iso8601 with
    | false => rfl
    | true => exact ⟨_, _, rfl, h.iso hfresh rfl rfl⟩
  | location =>
    exact ⟨_, _, rfl, h.turn hfresh rfl rfl rfl rfl h.text h.iso8601 rfl le_rfl h.blocks⟩
  | quality =>
    exact ⟨_, _, rfl, h.turn hfresh rfl rfl rfl rfl h.text h.iso8601 rfl le_rfl h.blocks⟩

/-- a keyword's kind has not come before -/
theorem fresh_of_kinds (ha : a ≠ .invalid) (h : ∀ k : ArgKind, (done ++ a :: args).countP (·.kind = some k) ≤ 1) :
    ∀ x ∈ done, x.kind ≠ a.kind := by
  intro x hx heq
  obtain ⟨k, hk⟩ := Option.ne_none_iff_exists'.1 fun hnone => ha (kind_none.1 hnone)
  have hdone : 0 < done.countP (·.kind = some k) := List.countP_pos_iff.2 ⟨x, hx, by simp [heq, hk]⟩
  have hcount := h k
  rw [List.countP_append, List.countP_cons_of_pos (by simp [hk])] at hcount
  omega

/-- **The loop.** It goes through, or ends at the first keyword whose copy fails. -/
theorem parseArguments_builds (h : Building v l₀ done p l) (hvalid : ∀ x ∈ args, x ≠ .invalid)
    (hkinds : ∀ k : ArgKind, (done ++ args).countP (·.kind = some k) ≤ 1) :
    if args.all (·.copied m) then
      ∃ q l', parseArguments v m p l args = (true, q, l') ∧ Building v l₀ (done ++ args) q l'
    else
      ∃ x q l', parseArguments v m p l args = (false, q.lost x, l') ∧
        Building v l₀ (done ++ args.takeWhile (·.copied m)) q l' ∧
        ∀ y ∈ done ++ args.takeWhile (·.copied m), y.kind ≠ x.kind := by
  induction args generalizing done p l with
  | nil => exact ⟨p, l, rfl, by rwa [List.append_nil]⟩
  | cons a args ih =>
    obtain ⟨ha, hvalid⟩ := List.forall_mem_cons.1 hvalid
    have hfresh := fresh_of_kinds ha hkinds
    have hturn := parseArgument_builds (m := m) h ha hfresh
    rw [List.all_cons]
    cases hcopied : a.copied m with
    | false =>
      rw [hcopied, if_neg (by simp)] at hturn
      rw [Bool.false_and, if_neg (by simp), List.takeWhile_cons_of_neg (by simp [hcopied]), List.append_nil]
      exact ⟨a, p, l, by rw [parseArguments, hturn], h, hfresh⟩
    | true =>
      rw [hcopied, if_pos rfl] at hturn
      obtain ⟨q, l', heq, hq⟩ := hturn
      have hrest := ih hq hvalid (by simpa using hkinds)
      rw [Bool.true_and, List.takeWhile_cons_of_pos (by simp [hcopied])]
      simpa only [parseArguments, heq, List.append_assoc, List.singleton_append] using hrest

/-! ## Reading the unions as pointers -/

theorem Building.lost_pointers (h : Building v l₀ done p l) (hfresh : ∀ x ∈ done, x.kind ≠ a.kind) :
    (p.lost a).stringValue = p.stringValue ∧ (p.lost a).iso8601String = p.iso8601String ∧ (p.lost a).block = p.block := by
  cases a with
  | dataString | dataJson | dataGeojson =>
    obtain ⟨hnative, htext⟩ := h.no_text rfl hfresh
    exact ⟨by simp [Point.lost, Point.stringValue, hnative, htext], rfl, rfl⟩
  | tsIso8601 =>
    obtain ⟨htime, hiso⟩ := h.no_time rfl hfresh
    exact ⟨rfl, by simp [Point.lost, Point.iso8601String, htime], rfl⟩
  | _ => exact ⟨rfl, rfl, rfl⟩

/-- the blocks that are reached through the unions are those of the point -/
theorem Building.pointers (h : Building v l₀ done p l) :
    (p.stringValue.1 ++ p.iso8601String.1 ++ [p.block]).Perm (List.range' l₀.next (l.next - l₀.next)) := by
  have htext : p.stringValue.1 = p.stringBlock.toList := by
    have := h.text
    unfold Point.stringValue
    cases hn : p.value.native with
    | string t => rfl
    | _ => simp [asPointer, this.2 (by simp [hn])]
  have hiso : p.iso8601String.1 = p.iso8601Block.toList := by
    have := h.iso8601
    unfold Point.iso8601String
    cases ht : p.value.time with
    | iso8601 t => rfl
    | _ => simp [asPointer, this.2 (by simp [ht])]
  rw [htext, hiso]
  exact h.blocks

theorem eq_of_countP {α : Type} {q : α → Bool} {xs : List α} {x y : α} (h : xs.countP q ≤ 1) (hx : x ∈ xs) (hy : y ∈ xs)
    (hqx : q x = true) (hqy : q y = true) : x = y := by
  rw [List.countP_eq_length_filter] at h
  have hx' : x ∈ xs.filter q := List.mem_filter.2 ⟨hx, hqx⟩
  have hy' : y ∈ xs.filter q := List.mem_filter.2 ⟨hy, hqy⟩
  obtain ⟨z, hz⟩ := List.length_eq_one_iff.1 (le_antisymm h (List.length_pos_of_mem hx'))
  rw [hz, List.mem_singleton] at hx' hy'
  rw [hx', hy']

/-- the one element of a kind is what a search for the kind finds -/
theorem findSome_of_countP {α β : Type} {q : α → Bool} {g : α → Option β} {xs : List α} {y : α} {b : β}
    (h : xs.countP q ≤ 1) (hy : y ∈ xs) (hqy : q y = true) (hg : g y = some b) (hother : ∀ z, g z ≠ none → q z = true) :
    xs.findSome? g = some b := by
  cases hfind : xs.findSome? g with
  | none =>
    rw [List.findSome?_eq_none_iff.1 hfind y hy] at hg
    cases hg
  | some b' =>
    obtain ⟨z, hz, hgz⟩ := List.exists_of_findSome?_eq_some hfind
    rw [eq_of_countP h hz hy (hother z (by simp [hgz])) hqy, hg] at hgz
    exact hgz.symm

/-- at most one keyword of a kind -/
theorem eq_of_kind {x y : DpArgument} {k : ArgKind} (h : args.countP (·.kind = some k) ≤ 1) (hx : x ∈ args) (hy : y ∈ args)
    (hxk : x.kind = some k) (hyk : y.kind = some k) : x = y :=
  eq_of_countP h hx hy (by simp [hxk]) (by simp [hyk])

theorem asPointer_nil (n : ℕ) : (asPointer n).2 = [] ↔ n = 0 := by
  unfold asPointer
  split_ifs with h <;> simp [h]

theorem native_wild {x : DpArgument} {n : Native} (hn : x.native v = some n) (hp : p.value.native = n) :
    p.stringValue.2 = [] ↔ x.number v = 0 := by
  cases x <;> cases hn <;> simp [Point.stringValue, hp, DpArgument.number, asPointer_nil]

theorem time_wild {x : DpArgument} {t : Time} (ht : x.time v = some t) (hp : p.value.time = t) :
    p.iso8601String.2 = [] ↔ x.number v = 0 := by
  cases x <;> cases ht <;> simp [Point.iso8601String, hp, DpArgument.number, asPointer_nil]

theorem number_of_kind {x : DpArgument} (h : x.native v = none) (h' : x.time v = none) : x.number v = 0 := by
  cases x with
  | dataInt32 | dataInt64 | dataFloat | dataDouble => cases h
  | tsEpoch | tsEpochMs => cases h'
  | _ => rfl

/-- a union that holds a number other than 0 is read as a pointer to no block -/
theorem Building.wild (h : Building v l₀ done p l) (hkinds : ∀ k : ArgKind, done.countP (·.kind = some k) ≤ 1) :
    p.stringValue.2 ++ p.iso8601String.2 = [] ↔ ∀ x ∈ done, x.number v = 0 := by
  have hnative : p.stringValue.2 = [] ↔ ∀ x ∈ done, x.kind = some .type → x.number v = 0 := by
    have hn := h.native
    cases hfind : done.findSome? (·.native v) with
    | none =>
      rw [hfind] at hn
      refine iff_of_true (by simp [Point.stringValue, show p.value.native = .string none from hn]) fun x hx hk => ?_
      refine number_of_kind (List.findSome?_eq_none_iff.1 hfind x hx) (time_none (by simp [hk]))
    | some n =>
      rw [hfind] at hn
      obtain ⟨x, hx, hxn⟩ := List.exists_of_findSome?_eq_some hfind
      have hxk := kind_of_native hxn
      rw [native_wild hxn hn]
      exact ⟨fun h0 y hy hyk => by rw [eq_of_kind (hkinds _) hy hx hyk hxk]; exact h0, fun hall => hall x hx hxk⟩
  have htime : p.iso8601String.2 = [] ↔ ∀ x ∈ done, x.kind = some .timestamp → x.number v = 0 := by
    have ht := h.time
    cases hfind : done.findSome? (·.time v) with
    | none =>
      rw [hfind] at ht
      refine iff_of_true (by simp [Point.iso8601String, show p.value.time = .cloud from ht]) fun x hx hk => ?_
      refine number_of_kind (native_none (by simp [hk])) (List.findSome?_eq_none_iff.1 hfind x hx)
    | some t =>
      rw [hfind] at ht
      obtain ⟨x, hx, hxt⟩ := List.exists_of_findSome?_eq_some hfind
      have hxk := kind_of_time hxt
      rw [time_wild hxt ht]
      exact ⟨fun h0 y hy hyk => by rw [eq_of_kind (hkinds _) hy hx hyk hxk]; exact h0, fun hall => hall x hx hxk⟩
  rw [List.append_eq_nil_iff, hnative, htime]
  refine ⟨fun hall x hx => ?_, fun hall => ⟨fun x hx _ => hall x hx, fun x hx _ => hall x hx⟩⟩
  by_cases hk : x.kind = some .type
  · exact hall.1 x hx hk
  · by_cases hk' : x.kind = some .timestamp
    · exact hall.2 x hx hk'
    · exact number_of_kind (native_none hk) (time_none hk')

end

/-! ## The whole point -/

/-- the keywords that are stored before the call fails -/
def stored (args : List DpArgument) (m : PointMemory) : List DpArgument :=
  if m.point then args.takeWhile (·.copied m) else []

/-- there is memory for the record and all copies -/
def Enough (args : List DpArgument) (m : PointMemory) : Prop := m.point = true ∧ args.all (·.copied m) = true

instance (args : List DpArgument) (m : PointMemory) : Decidable (Enough args m) := inferInstanceAs (Decidable (_ ∧ _))

section
variable {args : List DpArgument} {m : PointMemory} {l : Ledger}

theorem createDataPoint_ok (hargs : ValidArgs args) (v : VaArgs) (hm : Enough args m) (l : Ledger) :
    ∃ p l', createDataPoint args v m l = (.ok p, l') ∧ Building v l args p l' := by
  have hloop := parseArguments_builds (m := m) (building_new v l) hargs.known hargs.kinds
  rw [if_pos hm.2] at hloop
  obtain ⟨q, l', heq, hq⟩ := hloop
  refine ⟨q, l', ?_, hq⟩
  rw [createDataPoint, hm.1, Ledger.acquire_true]
  rw [Ledger.acquire_true] at heq
  dsimp only at heq ⊢
  rw [heq]

/-- what the failing exit gives back is what the call has allocated, once; and what else it passes to `ccapi_free` -/
theorem createDataPoint_error (hargs : ValidArgs args) (v : VaArgs) (hm : ¬ Enough args m) (l : Ledger) :
    ∃ wild gone l', createDataPoint args v m l = (.error wild, l') ∧ l'.releases = l.releases ++ gone ∧
      gone.Perm (List.range' l.next (l'.next - l.next)) ∧ (wild = [] ↔ ∀ x ∈ stored args m, x.number v = 0) := by
  cases hpoint : m.point with
  | false => exact ⟨[], [], l, by simp [createDataPoint, hpoint], by simp, by simp, by simp [stored, hpoint]⟩
  | true =>
    have hloop := parseArguments_builds (m := m) (building_new v l) hargs.known hargs.kinds
    rw [if_neg fun hall => hm ⟨hpoint, hall⟩] at hloop
    obtain ⟨x, q, l', heq, hq, hfresh⟩ := hloop
    obtain ⟨hstring, hiso, hblock⟩ := hq.lost_pointers hfresh
    refine ⟨(q.lost x).stringValue.2 ++ (q.lost x).iso8601String.2,
      (q.lost x).stringValue.1 ++ (q.lost x).iso8601String.1 ++ [(q.lost x).block],
      l'.releaseAll ((q.lost x).stringValue.1 ++ (q.lost x).iso8601String.1 ++ [(q.lost x).block]), ?_, ?_, ?_, ?_⟩
    · rw [createDataPoint, hpoint, Ledger.acquire_true]
      rw [Ledger.acquire_true] at heq
      dsimp only at heq ⊢
      rw [heq]
    · rw [Ledger.releaseAll_releases, hq.releases]
    · rw [hstring, hiso, hblock]
      exact hq.pointers
    · rw [hstring, hiso, stored, if_pos hpoint]
      refine hq.wild fun k => ?_
      exact ((List.takeWhile_sublist _).countP_le).trans (hargs.kinds k)

end

/-! ## A call that fails for memory -/

/-- the call answers INSUFFICIENT_MEMORY and leaves the collection alone; what it has allocated is given back, once, and
nothing else is passed to `ccapi_free` -/
def Undone (c : Collection) (r : Outcome) : Prop :=
  ∃ c' gone, r = .ok ({ error := .insufficientMemory }, c') ∧ c' = { c with ledger := c'.ledger } ∧
    c'.ledger.releases = c.ledger.releases ++ gone ∧
    gone.Perm (List.range' c.ledger.next (c'.ledger.next - c.ledger.next))

/-- **A failed point.** For every collection, every stream of it with an accepted format, every arguments, and whichever of the
allocations fails: the call is undone exactly when the lock is released and no keyword before the failing copy has stored a
number other than 0 in a union. -/
theorem failed_point_iff {c : Collection} {id f : Str} {s : DataStream} (hid : validStreamId (some id) = true)
    (hs : findStreamIdInCollection id c.list = .ok (some s)) (hf : argList f = .ok s.arguments) (v : VaArgs)
    {m : PointMemory} (hm : ¬ Enough s.arguments m) (release : Bool) :
    Undone c (dpAdd (some id) v m true release c) ↔ release = true ∧ ∀ x ∈ stored s.arguments m, x.number v = 0 := by
  obtain ⟨wild, gone, l', heq, hgone, hperm, hwild⟩ := createDataPoint_error (argList_ok.1 hf).2 v hm c.ledger
  have hcall : dpAdd (some id) v m true release c =
      .ok ({ error := finish release .insufficientMemory, wild := wild }, { c with ledger := l' }) := by
    simp [dpAdd, hid, hs, heq]
  rw [hcall, ← hwild]
  constructor
  · rintro ⟨c', gone', hr, -⟩
    simp only [Except.ok.injEq, Prod.mk.injEq, Answer.mk.injEq] at hr
    refine ⟨?_, hr.1.2.2.2⟩
    have herror := hr.1.1
    cases release with
    | true => rfl
    | false => cases herror
  · rintro ⟨rfl, rfl⟩
    exact ⟨_, gone, rfl, rfl, hgone, hperm⟩

/-- a stream "a" of this format -/
def oneStream (format : Str) : Collection := step (newCollection fun _ => none) (.plainStream (ascii "a") format)

/-- an argument for each keyword, n for the numbers -/
def numbers (n : BitVec 32) : VaArgs := ⟨n, 0, 0, 0, [], 0, 0, 0, [], ⟨0, 0, 0⟩, 0⟩

/-- there is no memory for a timestamp -/
def noTimestamp : PointMemory := ⟨true, true, false⟩

/-- that stream, for a number and a timestamp -/
def stamped : DataStream :=
  ⟨3, 2, [.dataInt32, .tsIso8601], ⟨4, 5, none, none, ascii "a", none, none, some .integer, []⟩, false⟩

theorem failed_zero : Undone (oneStream (ascii "int32 ts_iso"))
    (dpAdd (some (ascii "a")) (numbers 0) noTimestamp true true (oneStream (ascii "int32 ts_iso"))) := by
  have hs : findStreamIdInCollection (ascii "a") (oneStream (ascii "int32 ts_iso")).list = .ok (some stamped) := by
    decide +kernel
  have hf : argList (ascii "int32 ts_iso") = .ok stamped.arguments := by decide +kernel
  exact (failed_point_iff (by decide +kernel) hs hf (numbers 0) (by decide) true).2 ⟨rfl, by decide⟩

/-- **A number is freed.** The value 1 is stored, the copy of the timestamp fails, and the cleanup passes 1 to `ccapi_free`. -/
theorem failed_one : ¬ Undone (oneStream (ascii "int32 ts_iso"))
    (dpAdd (some (ascii "a")) (numbers 1) noTimestamp true true (oneStream (ascii "int32 ts_iso"))) := by
  rintro ⟨c', gone, hr, -⟩
  have hwild : (dpAdd (some (ascii "a")) (numbers 1) noTimestamp true true
      (oneStream (ascii "int32 ts_iso"))).toOption.map (fun r => r.1.wild) = some [1] := by decide +kernel
  rw [hr] at hwild
  cases hwild

/-! ## Arguments by position -/

/-- `ccapi_timestamp_t`, a union, by the member stored last -/
inductive Timestamp where
  | epoch (seconds milliseconds : BitVec 32)
  | epochMsec (v : BitVec 64)
  | iso8601 (text : Str)
deriving DecidableEq, Repr

/-- one of the variable arguments, promoted as C does -/
inductive VaArg where
  | int32 (v : BitVec 32)
  | int64 (v : BitVec 64)
  | double (bits : BitVec 64)
  | text (s : Str)
  | timestamp (t : Timestamp)
  | location (l : Location)
deriving DecidableEq, Repr

/-- what `va_arg` reads for a keyword has the type of the argument that was passed, and a timestamp the member -/
def fits : DpArgument → VaArg → Bool
  | .dataInt32, .int32 _ | .dataInt64, .int64 _ | .dataFloat, .double _ | .dataDouble, .double _ | .dataString, .text _
  | .dataJson, .text _ | .dataGeojson, .text _ | .tsEpoch, .timestamp (.epoch _ _) | .tsEpochMs, .timestamp (.epochMsec _)
  | .tsIso8601, .timestamp (.iso8601 _) | .location, .location _ | .quality, .int32 _ => true
  | _, _ => false

/-- a keyword and its argument -/
abbrev KeyArg := DpArgument × VaArg

/-- the value of a data keyword; narrow is the conversion of a double to a float -/
def convertNative (narrow : BitVec 64 → BitVec 32) : KeyArg → Option Native
  | (.dataInt32, .int32 v) => some (.int v)
  | (.dataInt64, .int64 v) => some (.long v)
  | (.dataFloat, .double v) => some (.float (narrow v))
  | (.dataDouble, .double v) => some (.double v)
  | (.dataString, .text s) | (.dataJson, .text s) | (.dataGeojson, .text s) => some (.string (some s))
  | _ => none

/-- the time of a timestamp keyword -/
def convertTime : KeyArg → Option Time
  | (.tsEpoch, .timestamp (.epoch s ms)) => some (.epochFractional s ms)
  | (.tsEpochMs, .timestamp (.epochMsec v)) => some (.epochWhole v)
  | (.tsIso8601, .timestamp (.iso8601 s)) => some (.iso8601 (some s))
  | _ => none

def convertLocation : KeyArg → Option Location
  | (.location, .location x) => some x
  | _ => none

def convertQuality : KeyArg → Option (BitVec 32)
  | (.quality, .int32 v) => some v
  | _ => none

/-- the arguments of some keywords, each by its keyword -/
def VaArgs.ofPairs (narrow : BitVec 64 → BitVec 32) (l : List KeyArg) : VaArgs where
  int32 := (l.findSome? fun | (.dataInt32, .int32 v) => some v | _ => none).getD 0
  int64 := (l.findSome? fun | (.dataInt64, .int64 v) => some v | _ => none).getD 0
  float := (l.findSome? fun | (.dataFloat, .double v) => some (narrow v) | _ => none).getD 0
  double := (l.findSome? fun | (.dataDouble, .double v) => some v | _ => none).getD 0
  string := (l.findSome? fun
    | (.dataString, .text s) | (.dataJson, .text s) | (.dataGeojson, .text s) => some s
    | _ => none).getD []
  epochSeconds := (l.findSome? fun | (.tsEpoch, .timestamp (.epoch s _)) => some s | _ => none).getD 0
  epochMilliseconds := (l.findSome? fun | (.tsEpoch, .timestamp (.epoch _ ms)) => some ms | _ => none).getD 0
  epochMsec := (l.findSome? fun | (.tsEpochMs, .timestamp (.epochMsec v)) => some v | _ => none).getD 0
  iso8601 := (l.findSome? fun | (.tsIso8601, .timestamp (.iso8601 s)) => some s | _ => none).getD []
  location := (l.findSome? convertLocation).getD ⟨0, 0, 0⟩
  quality := (l.findSome? convertQuality).getD 0

/-- the loop, with the arguments by position: each turn reads the next one. Without a value where one is missing, or is read
as something that was not passed. -/
def parseVaList (narrow : BitVec 64 → BitVec 32) (m : PointMemory) :
    List DpArgument → List VaArg → Point → Ledger → Option (Bool × Point × Ledger)
  | [], _, p, l => some (true, p, l)
  | _ :: _, [], _, _ => none
  | a :: args, x :: xs, p, l =>
    if fits a x then
      match parseArgument (.ofPairs narrow [(a, x)]) m p l a with
      | (false, p, l) => some (false, p, l)
      | (true, p, l) => parseVaList narrow m args xs p l
    else none

/-- `parse_argument_list_and_create_data_point`, with the arguments by position -/
def createFromVaList (narrow : BitVec 64 → BitVec 32) (args : List DpArgument) (xs : List VaArg) (m : PointMemory)
    (l : Ledger) : Option (Except (List ℕ) Point × Ledger) :=
  match l.acquire m.point with
  | (none, l) => some (.error [], l)
  | (some b, l) =>
    (parseVaList narrow m args xs (newPoint b) l).map fun
      | (true, p, l) => (.ok p, l)
      | (false, p, l) =>
        (.error (p.stringValue.2 ++ p.iso8601String.2),
          l.releaseAll (p.stringValue.1 ++ p.iso8601String.1 ++ [p.block]))

/-- `ccapi_dp_add`, with the arguments by position -/
def dpAddVaList (narrow : BitVec 64 → BitVec 32) (id : Option Str) (xs : List VaArg) (m : PointMemory)
    (acquire release : Bool) (c : Collection) : Option Outcome :=
  if !acquire then some (answer .lockFailed c)
  else if !validStreamId id then some (answer (finish release .invalidStreamId) c)
  else
    match findStreamIdInCollection (id.getD []) c.list with
    | .error b => some (.error b)
    | .ok none => some (answer (finish release .invalidStreamId) c)
    | .ok (some s) =>
      (createFromVaList narrow s.arguments xs m c.ledger).map fun
        | (.error wild, l) =>
          .ok ({ error := finish release .insufficientMemory, wild := wild }, { c with ledger := l })
        | (.ok p, l) =>
          answer (finish release .none)
            { c with
              list := modifyStream (id.getD []) (fun s => s.setPoint (p :: s.ccfsm.point)) c.list
              dpCount := u32 (c.dpCount + 1)
              ledger := l }

/-! ## Arguments by keyword -/

section
variable {narrow : BitVec 64 → BitVec 32} {pairs : List KeyArg} {y : KeyArg}

/-- v holds for each keyword of the pairs what its argument converts to -/
structure Reads (narrow : BitVec 64 → BitVec 32) (v : VaArgs) (y : KeyArg) : Prop where
  native : y.1.native v = convertNative narrow y
  time : y.1.time v = convertTime y
  location : y.1 = .location → convertLocation y = some v.location
  quality : y.1 = .quality → convertQuality y = some v.quality

/-- the record of the pairs holds each of them, when no kind comes twice -/
theorem reads_ofPairs (hkinds : ∀ k : ArgKind, pairs.countP (·.1.kind = some k) ≤ 1) (hy : y ∈ pairs)
    (hfits : fits y.1 y.2 = true) : Reads narrow (.ofPairs narrow pairs) y := by
  obtain ⟨a, x⟩ := y
  have hget : ∀ {β : Type} {g : KeyArg → Option β} {b d : β} {k : ArgKind}, a.kind = some k → g (a, x) = some b →
      (∀ z, g z ≠ none → z.1.kind = some k) → (pairs.findSome? g).getD d = b := fun hk hg hother => by
    rw [findSome_of_countP (hkinds _) hy (decide_eq_true hk) hg fun z hz => decide_eq_true (hother z hz), Option.getD_some]
  constructor
  · cases a <;> cases x <;> first | rfl | cases hfits
    all_goals
      simp only [DpArgument.native, convertNative, VaArgs.ofPairs, Option.some.injEq, Native.int.injEq, Native.long.injEq,
        Native.float.injEq, Native.double.injEq, Native.string.injEq]
      exact hget rfl rfl fun z hz => by split at hz <;> first | rfl | exact absurd rfl hz
  · cases a <;> cases x <;> first | rfl | cases hfits | rename_i t; cases t <;> cases hfits
    all_goals
      simp only [DpArgument.time, convertTime, VaArgs.ofPairs, Option.some.injEq, Time.epochFractional.injEq,
        Time.epochWhole.injEq, Time.iso8601.injEq]
      repeat' apply And.intro
      all_goals exact hget rfl rfl fun z hz => by split at hz <;> first | rfl | exact absurd rfl hz
  · rintro rfl
    cases x with
    | location x =>
      have hlocation : (pairs.findSome? convertLocation).getD ⟨0, 0, 0⟩ = x :=
        hget rfl rfl fun z hz => by unfold convertLocation at hz; split at hz <;> first | rfl | exact absurd rfl hz
      exact congrArg some hlocation.symm
    | _ => cases hfits
  · rintro rfl
    cases x with
    | int32 n =>
      have hquality : (pairs.findSome? convertQuality).getD 0 = n :=
        hget rfl rfl fun z hz => by unfold convertQuality at hz; split at hz <;> first | rfl | exact absurd rfl hz
      exact congrArg some hquality.symm
    | _ => cases hfits

/-- what a turn does is settled by the argument of its keyword -/
theorem parseArgument_congr {v w : VaArgs} (hv : Reads narrow v y) (hw : Reads narrow w y) (m : PointMemory) (p : Point)
    (l : Ledger) : parseArgument v m p l y.1 = parseArgument w m p l y.1 := by
  have hnative := hv.native.trans hw.native.symm
  have htime := hv.time.trans hw.time.symm
  obtain ⟨a, x⟩ := y
  cases a with
  | location =>
    have hlocation := (hv.location rfl).symm.trans (hw.location rfl)
    simp only [Option.some.injEq] at hlocation
    simp only [parseArgument, hlocation]
  | quality =>
    have hquality := (hv.quality rfl).symm.trans (hw.quality rfl)
    simp only [Option.some.injEq] at hquality
    simp only [parseArgument, hquality]
  | _ => simp_all [DpArgument.native, DpArgument.time, parseArgument]

/-- the loop reads the arguments one after the other as it reads each by its keyword -/
theorem parseVaList_eq {v : VaArgs} {m : PointMemory} {args : List DpArgument} {xs : List VaArg}
    (hfits : List.Forall₂ (fun a x => fits a x = true) args xs) (hv : ∀ y ∈ args.zip xs, Reads narrow v y) (p : Point)
    (l : Ledger) : parseVaList narrow m args xs p l = some (parseArguments v m p l args) := by
  induction hfits generalizing p l with
  | nil => rfl
  | @cons a x args xs hax _ ih =>
    rw [List.zip_cons_cons, List.forall_mem_cons] at hv
    have hone : Reads narrow (.ofPairs narrow [(a, x)]) (a, x) :=
      reads_ofPairs (fun _ => List.countP_le_length) (List.mem_singleton_self _) hax
    rw [parseVaList, if_pos hax, parseArguments, parseArgument_congr hone hv.1]
    split
    · rename_i heq
      rw [heq]
    · rename_i heq
      rw [heq]
      exact ih hv.2 _ _

/-- and so does the whole function -/
theorem createFromVaList_eq {v : VaArgs} {args : List DpArgument} {xs : List VaArg}
    (hfits : List.Forall₂ (fun a x => fits a x = true) args xs) (hv : ∀ y ∈ args.zip xs, Reads narrow v y)
    (m : PointMemory) (l : Ledger) : createFromVaList narrow args xs m l = some (createDataPoint args v m l) := by
  unfold createFromVaList createDataPoint
  cases l.acquire m.point with
  | mk b l =>
    cases b with
    | none => rfl
    | some b =>
      have hloop := parseVaList_eq (m := m) hfits hv (newPoint b) l
      rcases hp : parseArguments v m (newPoint b) l args with ⟨_ | _, p, l'⟩ <;> simp [hloop, hp]

end

/-! ## The point that is built -/

/-- a stream of the collection and arguments that match its format -/
structure Matching (c : Collection) (id f : Str) (s : DataStream) (xs : List VaArg) : Prop where
  valid : validStreamId (some id) = true
  found : findStreamIdInCollection id c.list = .ok (some s)
  format : argList f = .ok s.arguments
  fits : List.Forall₂ (fun a x => fits a x = true) s.arguments xs

/-- each argument is read by its keyword -/
theorem Matching.reads {c : Collection} {id f : Str} {s : DataStream} {xs : List VaArg} (h : Matching c id f s xs)
    (narrow : BitVec 64 → BitVec 32) :
    ∀ y ∈ s.arguments.zip xs, Reads narrow (.ofPairs narrow (s.arguments.zip xs)) y := by
  have hkinds : ∀ k : ArgKind, (s.arguments.zip xs).countP (·.1.kind = some k) ≤ 1 := fun k => by
    have hmap := (argList_ok.1 h.format).2.kinds k
    rw [← List.map_fst_zip h.fits.length_eq.le, List.countP_map] at hmap
    exact hmap
  exact fun y hy => reads_ofPairs hkinds hy ((List.forall₂_iff_zip.1 h.fits).2 hy)

/-- the call puts p in front of the points of the stream -/
def Adds (narrow : BitVec 64 → BitVec 32) (c : Collection) (id : Str) (xs : List VaArg) (p : Point) : Prop :=
  ∃ l, ∀ release, dpAddVaList narrow (some id) xs .full true release c =
    some (answer (finish release .none)
      { c with
        list := modifyStream id (fun s => s.setPoint (p :: s.ccfsm.point)) c.list
        dpCount := u32 (c.dpCount + 1)
        ledger := l })

/-- the value holds the converted argument of each keyword, and what an absent one leaves -/
structure Converted (narrow : BitVec 64 → BitVec 32) (pairs : List KeyArg) (x : PointValue) : Prop where
  native : ∀ y ∈ pairs, y.1.kind = some .type → convertNative narrow y = some x.native
  time : ∀ y ∈ pairs, y.1.kind = some .timestamp → convertTime y = some x.time
  location : ∀ y ∈ pairs, y.1.kind = some .location → convertLocation y = x.location ∧ x.location ≠ none
  quality : ∀ y ∈ pairs, y.1.kind = some .quality → convertQuality y = x.quality ∧ x.quality ≠ none
  nothing : (∀ y ∈ pairs, y.1.kind ≠ some .type) → x.native = .string none
  cloud : (∀ y ∈ pairs, y.1.kind ≠ some .timestamp) → x.time = .cloud
  nowhere : (∀ y ∈ pairs, y.1.kind ≠ some .location) → x.location = none
  unknown : (∀ y ∈ pairs, y.1.kind ≠ some .quality) → x.quality = none

section
variable {narrow : BitVec 64 → BitVec 32} {pairs pairs' : List KeyArg} {y : KeyArg} {x x' : PointValue}

theorem convertNative_of_kind (hfits : fits y.1 y.2 = true) (hk : y.1.kind = some .type) :
    ∃ n, convertNative narrow y = some n := by
  obtain ⟨a, v⟩ := y
  cases a <;> cases hk <;> cases v <;> cases hfits <;> exact ⟨_, rfl⟩

theorem convertTime_of_kind (hfits : fits y.1 y.2 = true) (hk : y.1.kind = some .timestamp) :
    ∃ t, convertTime y = some t := by
  obtain ⟨a, v⟩ := y
  cases a <;> cases hk <;> cases v <;> (try cases hfits) <;> rename_i t <;> cases t <;> cases hfits <;> exact ⟨_, rfl⟩

/-- the order of the pairs does not show -/
theorem Converted.unique (h : Converted narrow pairs x) (h' : Converted narrow pairs' x') (hperm : pairs.Perm pairs') :
    x' = x := by
  have hor : ∀ k : ArgKind, (∃ y ∈ pairs, y.1.kind = some k) ∨ ∀ y ∈ pairs, y.1.kind ≠ some k := fun k => by
    by_cases hk : ∃ y ∈ pairs, y.1.kind = some k
    · exact .inl hk
    · exact .inr fun y hy hyk => hk ⟨y, hy, hyk⟩
  have hmem : ∀ y, y ∈ pairs' ↔ y ∈ pairs := fun y => hperm.mem_iff.symm
  have hnative : x'.native = x.native := by
    rcases hor .type with ⟨y, hy, hk⟩ | hno
    · exact Option.some.inj ((h'.native y ((hmem y).2 hy) hk).symm.trans (h.native y hy hk))
    · exact (h'.nothing fun y hy => hno y ((hmem y).1 hy)).trans (h.nothing hno).symm
  have htime : x'.time = x.time := by
    rcases hor .timestamp with ⟨y, hy, hk⟩ | hno
    · exact Option.some.inj ((h'.time y ((hmem y).2 hy) hk).symm.trans (h.time y hy hk))
    · exact (h'.cloud fun y hy => hno y ((hmem y).1 hy)).trans (h.cloud hno).symm
  have hlocation : x'.location = x.location := by
    rcases hor .location with ⟨y, hy, hk⟩ | hno
    · exact (h'.location y ((hmem y).2 hy) hk).1.symm.trans (h.location y hy hk).1
    · exact (h'.nowhere fun y hy => hno y ((hmem y).1 hy)).trans (h.nowhere hno).symm
  have hquality : x'.quality = x.quality := by
    rcases hor .quality with ⟨y, hy, hk⟩ | hno
    · exact (h'.quality y ((hmem y).2 hy) hk).1.symm.trans (h.quality y hy hk).1
    · exact (h'.unknown fun y hy => hno y ((hmem y).1 hy)).trans (h.unknown hno).symm
  cases x
  cases x'
  simp_all

/-- the loop stores the converted arguments -/
theorem Building.converted {v : VaArgs} {l₀ l : Ledger} {args : List DpArgument} {xs : List VaArg} {p : Point}
    (h : Building v l₀ args p l) (hargs : ValidArgs args) (hfits : List.Forall₂ (fun a x => fits a x = true) args xs)
    (hv : ∀ y ∈ args.zip xs, Reads narrow v y) : Converted narrow (args.zip xs) p.value := by
  have hmem : ∀ y ∈ args.zip xs, y.1 ∈ args := fun y hy => (List.of_mem_zip hy).1
  have hfit : ∀ y ∈ args.zip xs, fits y.1 y.2 = true := fun y hy => (List.forall₂_iff_zip.1 hfits).2 hy
  have hback : ∀ a ∈ args, ∃ y ∈ args.zip xs, y.1 = a := fun a ha => by
    rw [← List.map_fst_zip hfits.length_eq.le] at ha
    simpa using ha
  have hnone : ∀ k : ArgKind, (∀ y ∈ args.zip xs, y.1.kind ≠ some k) → ∀ a ∈ args, a.kind ≠ some k := by
    rintro k hno a ha
    obtain ⟨y, hy, rfl⟩ := hback a ha
    exact hno y hy
  refine ⟨fun y hy hk => ?_, fun y hy hk => ?_, fun y hy hk => ?_, fun y hy hk => ?_, fun hno => ?_, fun hno => ?_,
    fun hno => ?_, fun hno => ?_⟩
  · obtain ⟨n, hn⟩ := convertNative_of_kind (hfit y hy) hk
    have hfind := findSome_of_countP (hargs.kinds .type) (hmem y hy) (by simp [hk]) ((hv y hy).native.trans hn)
      fun z hz => decide_eq_true (by_contra fun hk => hz (native_none hk))
    rw [hn, h.native, hfind]
    rfl
  · obtain ⟨t, ht⟩ := convertTime_of_kind (hfit y hy) hk
    have hfind := findSome_of_countP (hargs.kinds .timestamp) (hmem y hy) (by simp [hk]) ((hv y hy).time.trans ht)
      fun z hz => decide_eq_true (by_contra fun hk => hz (time_none hk))
    rw [ht, h.time, hfind]
    rfl
  · have hy1 : y.1 = .location := by cases hy' : y.1 <;> rw [hy'] at hk <;> cases hk
    have hin : .location ∈ args := hy1 ▸ hmem y hy
    rw [(hv y hy).location hy1, h.location, if_pos hin]
    exact ⟨rfl, by simp⟩
  · have hy1 : y.1 = .quality := by cases hy' : y.1 <;> rw [hy'] at hk <;> cases hk
    have hin : .quality ∈ args := hy1 ▸ hmem y hy
    rw [(hv y hy).quality hy1, h.quality, if_pos hin]
    exact ⟨rfl, by simp⟩
  · rw [h.native, List.findSome?_eq_none_iff.2 fun a ha => native_none (hnone _ hno a ha)]
    rfl
  · rw [h.time, List.findSome?_eq_none_iff.2 fun a ha => time_none (hnone _ hno a ha)]
    rfl
  · rw [h.location, if_neg fun hin => hnone _ hno _ hin rfl]
  · rw [h.quality, if_neg fun hin => hnone _ hno _ hin rfl]

/-- a call whose arguments match is the call with each argument by its keyword -/
theorem Matching.dpAddVaList_eq {c : Collection} {id f : Str} {s : DataStream} {xs : List VaArg} (h : Matching c id f s xs)
    (narrow : BitVec 64 → BitVec 32) (m : PointMemory) (acquire release : Bool) :
    dpAddVaList narrow (some id) xs m acquire release c =
      some (dpAdd (some id) (.ofPairs narrow (s.arguments.zip xs)) m acquire release c) := by
  have hcreate := createFromVaList_eq h.fits (h.reads narrow) m c.ledger
  cases acquire with
  | false => rfl
  | true =>
    rcases hp : createDataPoint s.arguments (.ofPairs narrow (s.arguments.zip xs)) m c.ledger with ⟨_ | p, l⟩ <;>
      simp [dpAddVaList, dpAdd, h.valid, h.found, hcreate, hp]

theorem Matching.adds {c : Collection} {id f : Str} {s : DataStream} {xs : List VaArg} (h : Matching c id f s xs)
    (narrow : BitVec 64 → BitVec 32) :
    ∃ p, Adds narrow c id xs p ∧ Converted narrow (s.arguments.zip xs) p.value := by
  have hargs := (argList_ok.1 h.format).2
  have henough : Enough s.arguments .full := ⟨rfl, List.all_eq_true.2 fun a _ => by cases a <;> rfl⟩
  obtain ⟨p, l, heq, hp⟩ :=
    createDataPoint_ok hargs (.ofPairs narrow (s.arguments.zip xs)) henough c.ledger
  refine ⟨p, ⟨l, fun release => ?_⟩, hp.converted hargs h.fits (h.reads narrow)⟩
  rw [h.dpAddVaList_eq]
  simp [dpAdd, h.valid, h.found, heq]

/-- **Points do not depend on the order.** For every stream of an accepted format and every matching arguments, with memory for
all of it: the call adds a point that holds the converted argument of each keyword and what an absent keyword leaves; and where
the keywords and arguments of another stream's call are these in another order, it adds a point of the same value. -/
theorem point_built {c : Collection} {id f : Str} {s : DataStream} {xs : List VaArg} (h : Matching c id f s xs)
    (narrow : BitVec 64 → BitVec 32) :
    ∃ p, Adds narrow c id xs p ∧ Converted narrow (s.arguments.zip xs) p.value ∧
      ∀ c' id' f' s' xs', Matching c' id' f' s' xs' → (s.arguments.zip xs).Perm (s'.arguments.zip xs') →
        ∃ p', Adds narrow c' id' xs' p' ∧ p'.value = p.value := by
  obtain ⟨p, hadds, hp⟩ := h.adds narrow
  refine ⟨p, hadds, hp, fun c' id' f' s' xs' h' hperm => ?_⟩
  obtain ⟨p', hadds', hp'⟩ := h'.adds narrow
  exact ⟨p', hadds', hp.unique hp' hperm⟩

end

/-- the number 7, now -/
def sevenNow : List VaArg := [.int32 7, .timestamp (.iso8601 (ascii "now"))]

theorem matching_sevenNow : Matching (oneStream (ascii "int32 ts_iso")) (ascii "a") (ascii "int32 ts_iso") stamped sevenNow where
  valid := by decide +kernel
  found := by decide +kernel
  format := by decide +kernel
  fits := by decide +kernel

theorem matching_nowSeven : Matching (oneStream (ascii "ts_iso int32")) (ascii "a") (ascii "ts_iso int32")
    { stamped with arguments := stamped.arguments.reverse } sevenNow.reverse where
  valid := by decide +kernel
  found := by decide +kernel
  format := by decide +kernel
  fits := by decide +kernel

theorem point_sevenNow : ∃ p, Adds (fun _ => 0) (oneStream (ascii "int32 ts_iso")) (ascii "a") sevenNow p ∧
    ∃ p', Adds (fun _ => 0) (oneStream (ascii "ts_iso int32")) (ascii "a") sevenNow.reverse p' ∧ p'.value = p.value := by
  obtain ⟨p, hp, -, hother⟩ := point_built matching_sevenNow fun _ => 0
  exact ⟨p, hp, hother _ _ _ _ _ matching_nowSeven (by decide +kernel)⟩

end CcApi.Datapoints
