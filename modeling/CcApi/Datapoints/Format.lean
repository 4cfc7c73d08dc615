/-
Format strings (`get_next_keyword`, `get_arg_list_from_format_string` and `valid_arg_list` of `ccapi_datapoints.c`).

The tokenizer cuts the string at each space; what stands behind the last space is a keyword of its own unless it is empty, so
one trailing space is passed over and two spaces in a row are not. Each keyword is looked up in the table, up to four of them,
and the arguments are checked in a loop of their own.

- `keywords_iff`: the tokenizer returns words without spaces exactly when the string is these words joined, or joined with a
  space behind them.
- `validArgList_iff`: what the validator accepts.
- `format_grammar`: which strings are accepted, with which arguments, and that the joined keywords of any such arguments are.
-/
import CcApi.Datapoints.Collection

namespace CcApi.Datapoints

open Lib

/-! ## The tokenizer -/

theorem keywords_ne_nil {s : Str} (h : s ≠ []) : keywords s ≠ [] := by
  rw [keywords_eq]
  cases s with
  | nil => exact absurd rfl h
  | cons c s => simp [getNextKeyword]

/-- the tokenizer splits at spaces and passes over an empty word at the end -/
theorem splitOn_space (s : Str) :
    s.splitOn space = keywords s ++ if s.getLast?.getD space = space then [[]] else [] := by
  induction s with
  | nil => rfl
  | cons c s ih =>
    rw [List.splitOn_cons_eq_if_modifyHead, ih, keywords]
    cases s with
    | nil => by_cases hc : c = space <;> simp [hc, keywords]
    | cons d s =>
      have hne := keywords_ne_nil (List.cons_ne_nil d s)
      have hlast : (c :: d :: s).getLast? = (d :: s).getLast? := by simp
      rw [hlast]
      by_cases hc : c = space
      · simp [hc]
      · cases hw : keywords (d :: s) with
        | nil => exact absurd hw hne
        | cons w ws => simp [hc]

/-- words, joined by single spaces -/
abbrev joined (ws : List Str) : Str := [space].intercalate ws

theorem joined_trailing {ws : List Str} (h : ws ≠ []) : joined (ws ++ [[]]) = joined ws ++ [space] := by
  induction ws with
  | nil => exact absurd rfl h
  | cons w ws ih =>
    cases ws with
    | nil => simp [joined]
    | cons v ws =>
      have := ih (by simp)
      simp only [joined, List.cons_append, List.intercalate_cons_cons] at this ⊢
      rw [this]
      simp

theorem joined_getLast {ws : List Str} (hne : ws ≠ []) (hws : ∀ w ∈ ws, w ≠ [] ∧ space ∉ w) :
    (joined ws).getLast?.getD space ≠ space := by
  induction ws with
  | nil => exact absurd rfl hne
  | cons w ws ih =>
    obtain ⟨hw, hall⟩ := List.forall_mem_cons.1 hws
    cases ws with
    | nil =>
      obtain ⟨c, hc⟩ := Option.ne_none_iff_exists'.1 (List.getLast?_eq_none_iff.not.2 hw.1)
      have hmem : c ∈ w := List.mem_of_getLast? hc
      simp only [joined, List.intercalate_singleton, hc, Option.getD_some]
      exact fun h => hw.2 (h ▸ hmem)
    | cons v ws =>
      have hrest := ih (by simp) hall
      have hne' : joined (v :: ws) ≠ [] := by
        intro h
        simp [h] at hrest
      simp only [joined, List.intercalate_cons_cons] at hrest hne' ⊢
      rwa [List.getLast?_append_of_ne_nil _ hne']

/-- **The tokenizer.** -/
theorem keywords_iff {ws : List Str} (hne : ws ≠ []) (hws : ∀ w ∈ ws, w ≠ [] ∧ space ∉ w) (s : Str) :
    keywords s = ws ↔ s = joined ws ∨ s = joined ws ++ [space] := by
  constructor
  · rintro rfl
    have hjoin : joined (s.splitOn space) = s := List.intercalate_splitOn space
    rw [splitOn_space] at hjoin
    split_ifs at hjoin
    · exact Or.inr (hjoin.symm.trans (joined_trailing hne))
    · rw [List.append_nil] at hjoin
      exact Or.inl hjoin.symm
  · rintro (rfl | rfl)
    · have hsplit := List.splitOn_intercalate space (fun w hw => (hws w hw).2) hne
      rwa [splitOn_space, if_neg (joined_getLast hne hws), List.append_nil] at hsplit
    · have hno : ∀ w ∈ ws ++ [[]], space ∉ w := by
        intro w hw
        rcases List.mem_append.1 hw with hw | hw
        · exact (hws w hw).2
        · simp [List.mem_singleton.1 hw]
      have hsplit : (joined (ws ++ [[]])).splitOn space = ws ++ [[]] := List.splitOn_intercalate space hno (by simp)
      rw [joined_trailing hne, splitOn_space, if_pos (by simp)] at hsplit
      exact List.append_cancel_right hsplit

/-! ## The table -/

/-- the keyword of an argument -/
def DpArgument.keyword (a : DpArgument) : Str := ((keyArgMap.find? fun e => e.2 = a).map (·.1)).getD []

theorem keyword_mem {a : DpArgument} (h : a ≠ .invalid) : (a.keyword, a) ∈ keyArgMap := by
  cases a with
  | invalid => exact absurd rfl h
  | _ => decide

theorem of_mem_keyArgMap : ∀ e ∈ keyArgMap,
    e.2 ≠ .invalid ∧ lookupKeyword e.1 = e.2 ∧ e.1 ≠ [] ∧ e.1.all fun c => isalnum c || c = underscore := by
  decide +kernel

theorem lookupKeyword_mem {w : Str} (h : lookupKeyword w ≠ .invalid) : (w, lookupKeyword w) ∈ keyArgMap := by
  unfold lookupKeyword at h ⊢
  cases hfind : keyArgMap.find? fun e => e.1 = w with
  | none => simp [hfind] at h
  | some e =>
    have hw : e.1 = w := by simpa using List.find?_some hfind
    simpa [← hw] using List.mem_of_find?_eq_some hfind

theorem space_notMem {w : Str} (h : w.all fun c => isalnum c || c = underscore) : space ∉ w := by
  intro hs
  have := List.all_eq_true.1 h space hs
  revert this
  decide

/-! ## The loops -/

/-- four keywords at most; nothing is refused before the fifth -/
theorem collectArgs_eq (ws : List Str) (args : List DpArgument) (h : args.length ≤ 4) :
    collectArgs ws args = if args.length + ws.length ≤ 4 then some (args ++ ws.map lookupKeyword) else none := by
  induction ws generalizing args with
  | nil => simp [collectArgs, h]
  | cons w ws ih =>
    rw [collectArgs]
    by_cases hfull : args.length > 3
    · rw [if_pos hfull, if_neg (by simp only [List.length_cons]; omega)]
    · rw [if_neg hfull, ih _ (by simp only [List.length_append, List.length_singleton]; omega)]
      have hlen : (args ++ [lookupKeyword w]).length + ws.length = args.length + (w :: ws).length := by
        simp only [List.length_append, List.length_cons, List.length_nil]
        omega
      rw [hlen, List.append_assoc]
      rfl

theorem kind_none {a : DpArgument} : a.kind = none ↔ a = .invalid := by
  cases a <;> simp [DpArgument.kind]

/-- an argument's flag must not be set yet -/
theorem validArgLoop_iff (args : List DpArgument) (found : List ArgKind) :
    validArgLoop args found = true ↔
      (∀ a ∈ args, a ≠ .invalid) ∧ ∀ k, args.countP (·.kind = some k) ≤ if k ∈ found then 0 else 1 := by
  induction args generalizing found with
  | nil => simp [validArgLoop]
  | cons a args ih =>
    cases hk : a.kind with
    | none =>
      obtain rfl := kind_none.1 hk
      simp [validArgLoop, DpArgument.kind]
    | some k =>
      have hvalid : a ≠ .invalid := by
        rintro rfl
        cases hk
      by_cases hfound : k ∈ found
      · simp only [validArgLoop, hk, if_pos hfound, Bool.false_eq_true, false_iff]
        rintro ⟨-, hcount⟩
        have := hcount k
        simp [hk, hfound] at this
      · simp only [validArgLoop, hk, if_neg hfound, ih, List.countP_cons, Option.some.injEq, decide_eq_true_eq,
          List.forall_mem_cons, and_iff_right hvalid]
        refine and_congr_right fun _ => forall_congr' fun j => ?_
        by_cases hj : j = k
        · subst hj
          simp [hfound]
        · have hj' : ¬ k = j := fun h => hj h.symm
          simp [hj, hj']

/-- arguments with at most one of each kind -/
structure ValidArgs (args : List DpArgument) : Prop where
  least : 1 ≤ args.length
  most : args.length ≤ 4
  known : ∀ a ∈ args, a ≠ .invalid
  kinds : ∀ k : ArgKind, args.countP (·.kind = some k) ≤ 1

/-- **The validator.** -/
theorem validArgList_iff (args : List DpArgument) : validArgList args = true ↔ ValidArgs args := by
  have hloop := validArgLoop_iff args []
  simp only [List.not_mem_nil, if_false] at hloop
  unfold validArgList
  split_ifs with hlen
  · refine iff_of_false (by simp) fun h => ?_
    have := h.least
    have := h.most
    omega
  · rw [hloop]
    exact ⟨fun h => ⟨by omega, by omega, h.1, h.2⟩, fun h => ⟨h.known, h.kinds⟩⟩

/-! ## Main results -/

/-- s is keywords of the table, one for each argument, joined by single spaces, and at most one space behind them -/
def Spells (args : List DpArgument) (s : Str) : Prop :=
  ∃ ws, List.Forall₂ (fun w a => (w, a) ∈ keyArgMap) ws args ∧ (s = joined ws ∨ s = joined ws ++ [space])

theorem words_of_table {ws : List Str} {args : List DpArgument}
    (h : List.Forall₂ (fun w a => (w, a) ∈ keyArgMap) ws args) :
    ws.map lookupKeyword = args ∧ ∀ w ∈ ws, w ≠ [] ∧ space ∉ w := by
  induction h with
  | nil => simp
  | cons hmem _ ih =>
    obtain ⟨-, hlookup, hne, hchars⟩ := of_mem_keyArgMap _ hmem
    exact ⟨by rw [List.map_cons, hlookup, ih.1], List.forall_mem_cons.2 ⟨⟨hne, space_notMem hchars⟩, ih.2⟩⟩

theorem Spells.keywords {s : Str} {args : List DpArgument} (h : Spells args s) (hne : args ≠ []) :
    (keywords s).map lookupKeyword = args := by
  obtain ⟨ws, hws, hs⟩ := h
  obtain ⟨hargs, hwords⟩ := words_of_table hws
  have hne' : ws ≠ [] := by
    rintro rfl
    exact hne hargs.symm
  rw [(keywords_iff hne' hwords s).2 hs, hargs]

theorem argList_ok {s : Str} {args : List DpArgument} : argList s = .ok args ↔ Spells args s ∧ ValidArgs args := by
  have hcollect := collectArgs_eq (keywords s) [] (Nat.zero_le 4)
  simp only [List.length_nil, Nat.zero_add, List.nil_append] at hcollect
  rw [argList, hcollect]
  constructor
  · intro h
    split_ifs at h with hlen
    · dsimp only at h
      split_ifs at h with hvalid
      obtain rfl := Except.ok.inj h
      have hargs := (validArgList_iff _).1 hvalid
      have hmem : ∀ w ∈ keywords s, (w, lookupKeyword w) ∈ keyArgMap := fun w hw =>
        lookupKeyword_mem (hargs.known _ (List.mem_map_of_mem hw))
      refine ⟨⟨keywords s, ?_, ?_⟩, hargs⟩
      · rw [List.forall₂_map_right_iff]
        exact List.forall₂_same.2 hmem
      · refine (keywords_iff ?_ (fun w hw => ?_) s).1 rfl
        · intro hnil
          have := hargs.least
          simp [hnil] at this
        · obtain ⟨-, -, hne, hchars⟩ := of_mem_keyArgMap _ (hmem w hw)
          exact ⟨hne, space_notMem hchars⟩
  · rintro ⟨hs, hargs⟩
    have hkeys := hs.keywords (List.length_pos_iff.1 hargs.least)
    have hlen : (keywords s).length ≤ 4 := by
      rw [← List.length_map (f := lookupKeyword), hkeys]
      exact hargs.most
    rw [if_pos hlen, hkeys]
    dsimp only
    rw [if_pos ((validArgList_iff args).2 hargs)]

/-- with memory for the copy and the list, the call answers what the string spells -/
theorem getArgList_ok (s : Str) (l : Ledger) (args : List DpArgument) :
    (∃ b l', getArgListFromFormatString s true true l = (.ok (b, args), l')) ↔ argList s = .ok args := by
  cases h : argList s with
  | error e => simp [getArgListFromFormatString, h]
  | ok args' => simp [getArgListFromFormatString, h]

theorem spells_joined {args : List DpArgument} (h : ∀ a ∈ args, a ≠ .invalid) :
    Spells args (joined (args.map (·.keyword))) := by
  refine ⟨args.map (·.keyword), ?_, Or.inl rfl⟩
  rw [List.forall₂_map_left_iff, List.forall₂_same]
  exact fun a ha => keyword_mem (h a ha)

theorem mem_joined {ws : List Str} {c : UInt8} (h : c ∈ joined ws) : c = space ∨ ∃ w ∈ ws, c ∈ w := by
  induction ws with
  | nil => simp [joined] at h
  | cons w ws ih =>
    cases ws with
    | nil => exact Or.inr ⟨w, List.mem_cons_self, by simpa [joined] using h⟩
    | cons v ws =>
      simp only [joined, List.intercalate_cons_cons, List.mem_append, List.mem_singleton] at h ih
      rcases h with (h | h) | h
      · exact Or.inr ⟨w, List.mem_cons_self, h⟩
      · exact Or.inl h
      · exact (ih h).imp_right fun ⟨u, hu, hc⟩ => ⟨u, List.mem_cons_of_mem _ hu, hc⟩

theorem head_joined {w : Str} (ws : List Str) (hw : w ≠ []) : (joined (w :: ws)).head? = w.head? := by
  cases ws with
  | nil => simp [joined]
  | cons v ws =>
    simp only [joined, List.intercalate_cons_cons, List.append_assoc]
    exact List.head?_append_of_ne_nil _ hw

/-- joined keywords pass the first check -/
theorem validFormatString_joined {args : List DpArgument} (hne : args ≠ []) (h : ∀ a ∈ args, a ≠ .invalid) :
    validFormatString (some (joined (args.map (·.keyword)))) = true := by
  have hchars : ∀ c ∈ joined (args.map (·.keyword)), (isalnum c || c = space || c = underscore) = true := by
    intro c hc
    rcases mem_joined hc with rfl | ⟨w, hw, hcw⟩
    · decide
    · obtain ⟨a, ha, rfl⟩ := List.mem_map.1 hw
      obtain ⟨-, -, -, hall⟩ := of_mem_keyArgMap _ (keyword_mem (h a ha))
      rcases Bool.or_eq_true_iff.1 (List.all_eq_true.1 hall c hcw) with hc | hc <;> simp [hc]
  obtain ⟨a, args, rfl⟩ := List.exists_cons_of_ne_nil hne
  obtain ⟨-, -, hword, hall⟩ := of_mem_keyArgMap _ (keyword_mem (h a List.mem_cons_self))
  have hhead := head_joined (args.map (·.keyword)) hword
  rw [List.map_cons] at hchars ⊢
  cases hj : joined (a.keyword :: args.map (·.keyword)) with
  | nil =>
    rw [hj, List.head?_nil, eq_comm, List.head?_eq_none_iff] at hhead
    exact absurd hhead hword
  | cons c s =>
    rw [hj, List.head?_cons] at hhead
    have hc : c ≠ space := by
      rintro rfl
      exact space_notMem hall (List.mem_of_head? hhead.symm)
    rw [hj] at hchars
    simp only [validFormatString, ne_eq, hc, not_false_eq_true, decide_true, Bool.true_and]
    exact List.all_eq_true.2 hchars

/-- **Format strings.** With memory for the copy and the list, a string is accepted exactly when it is one to four keywords of
the table, joined by single spaces and with at most one space behind them, at most one of each kind; the arguments are those
of the keywords, in order. So the joined keywords of any such arguments are a format string that gives the arguments back. -/
theorem format_grammar :
    (∀ (s : Str) (l : Ledger) (args : List DpArgument),
      (∃ b l', getArgListFromFormatString s true true l = (.ok (b, args), l')) ↔ Spells args s ∧ ValidArgs args) ∧
    ∀ args, ValidArgs args → validFormatString (some (joined (args.map (·.keyword)))) = true ∧
      ∀ l, ∃ b l', getArgListFromFormatString (joined (args.map (·.keyword))) true true l = (.ok (b, args), l') := by
  refine ⟨fun s l args => (getArgList_ok s l args).trans argList_ok, fun args hargs => ⟨?_, fun l => ?_⟩⟩
  · exact validFormatString_joined (List.length_pos_iff.1 hargs.least) hargs.known
  · exact (getArgList_ok _ l args).2 (argList_ok.2 ⟨spells_joined hargs.known, hargs⟩)

end CcApi.Datapoints
