/-
The replies of the SM CLI service (`ccapi_process_cli_response`, `fill_internal_error`), the way those of the receive service
are.

The user's request callback leaves a string. When it is collected its length is taken, and unless it is empty its NUL is sent
along. The user gets the string back by its pointer.

- `Phase`: what the context of a session agrees with.
- `step_inv`: every step keeps that, whatever is cancelled.
- `Inv.answered`: what is handed out is the response, in order and whole, and the user gets its string back.
-/
import CcApi.Cursor
import CcApi.Cli.Handoff

namespace CcApi.Cli

open Lib Lib.Runs Lib.Drain

/-! ## What has been said -/

/-- the string that the user has set, and its block's contents in front of the last NUL -/
structure Left where
  string : Ptr
  text : Str
deriving DecidableEq

/-- what is sent of a string -/
def wire (text : Str) : Str :=
  let s := text.takeWhile (· ≠ 0)
  if s = [] then [] else s ++ [0]

structure Said where
  /-- the request has had its last answer -/
  ended : Bool
  left : Option Left
  /-- the messages that replies were about to build; `none` where there was no memory for one -/
  tried : List (Option Str)
  given : List (Piece UInt8)
deriving DecidableEq

def Said.nothing : Said := ⟨false, none, [], []⟩

/-- what the session's response is -/
def Said.response (d : Said) : List UInt8 :=
  match d.tried with
  | some message :: _ => message
  | _ => (d.left.map fun l => wire l.text).getD []

/-- an answer to a request callback; the request ends with an error, and with the last segment's answer unless that is busy -/
def Said.heard (d : Said) (answer : CallbackStatus) (moreData : Bool) : Said :=
  { d with ended := d.ended || decide (answer = .error) || (decide (answer = .cont) && !moreData) }

/-- a reply; the message it was about to build, and what it handed out -/
def Said.replied (d : Said) (message : Option (Option Str)) (reply : Option Reply) : Said :=
  { d with
    tried := d.tried ++ message.toList
    given := d.given ++ (reply.map fun r => ⟨r.buffer, r.moreData⟩).toList }

/-- the next reply builds a message -/
def SvcCli.builds (a : SvcCli) : Prop :=
  a.responseRequired = true ∧ a.cliError ≠ .none ∧ a.responseHandledInternally = false

instance (a : SvcCli) : Decidable a.builds := inferInstanceAs (Decidable (_ ∧ _))

/-- the message that a reply is about to build -/
def Svc.message (r : ReplyReq) (ok : Bool) (s : Svc) : Option (Option Str) :=
  match s.session r.userContext with
  | some (_, a) => if a.builds then some (if ok then some (internalErrorText a.cliError) else none) else none
  | none => none

/-- the string that the user's request callback sets with context c -/
def Svc.leaves (c : ℕ) (output : Option Str) (s : Svc) : Option Left :=
  match output, s.ctx c with
  | some text, .live a => if a.responseRequired then some ⟨⟨s.heap.next, 0⟩, text⟩ else none
  | _, _ => none

/-- the machine, and what has been said about each session -/
structure Talk where
  st : St
  said : ℕ → Said

namespace Talk

def learn (t : Talk) : Op → ℕ → Said
  | .request r contextOk ok =>
    match r.userContext, (processCliRequest r contextOk ok t.st.svc).2 with
    | none, (status, some c, _) => Function.update t.said c (Said.nothing.heard status r.moreData)
    | some c, (status, _, _) => Function.update t.said c ((t.said c).heard status r.moreData)
    | _, _ => t.said
  | .reply r ok =>
    match r.userContext with
    | some c =>
      Function.update t.said c ((t.said c).replied (t.st.svc.message r ok) (processCliResponse r ok t.st.svc).2.2)
    | none => t.said
  | .ret output =>
    match t.st.pc with
    | .calling c =>
      Function.update t.said c { t.said c with left := (t.st.svc.leaves c output).or (t.said c).left }
    | _ => t.said
  | _ => t.said

def step (t : Talk) (o : Op) : Talk := { st := Cli.step t.st o, said := t.learn o }

/-- the connector presents a request, some bytes at a time, until that has ended, and asks for the response then -/
def Legal (t : Talk) : Op → Prop
  | .request r _ _ => r.buffer.getD [] ≠ [] ∧ ∀ c ∈ r.userContext, (t.said c).ended = false
  | .reply r _ => ∀ c ∈ r.userContext, (t.said c).ended = true
  | _ => True

instance (t : Talk) : ∀ o, Decidable (t.Legal o)
  | .request r _ _ => inferInstanceAs (Decidable (_ ∧ ∀ c ∈ r.userContext, (t.said c).ended = false))
  | .reply r _ => inferInstanceAs (Decidable (∀ c ∈ r.userContext, (t.said c).ended = true))
  | .status _ | .wake | .check | .call | .ret _ | .settle | .clear => inferInstanceAs (Decidable True)

structure Init (t : Talk) : Prop where
  st : Cli.Init t.st
  said : ∀ c, t.said c = Said.nothing

/-- what the replies to session c are worth -/
structure Answered (t : Talk) (c : ℕ) : Prop where
  /-- in order, nothing twice, and each tells whether something is left -/
  streams : Streams (t.said c).response (t.said c).given
  whole : ∀ before p behind, (t.said c).given = before ++ p :: behind → p.more = false →
    handed (before ++ [p]) = (t.said c).response
  once : (t.said c).tried.length ≤ 1
  /-- the status callback gives the user the string it has set, unless a message was to take its place -/
  record : ∀ r k, r.userContext = some c → (processCliStatus r t.st.svc).2.2 = some k → (t.said c).tried = [] →
    k.output = (t.said c).left.map Left.string

end Talk

/-! ## Strings in the heap -/

/-- a text in a block of its own, the NUL behind it -/
structure Text (h : Heap) (p : Ptr) (text : Str) : Prop where
  holds : h.Holds (some p) (text.length + 1) (text ++ [0])
  start : p.off = 0
  size : h.size p.block = text.length + 1

/-- the blocks of h keep their sizes too -/
def Stays (h h' : Heap) : Prop := h.Keeps h' ∧ ∀ b < h.next, h'.size b = h.size b

theorem Stays.refl (h : Heap) : Stays h h := ⟨Heap.Keeps.refl h, fun _ _ => rfl⟩

theorem Stays.trans {h h' h'' : Heap} (h₁ : Stays h h') (h₂ : Stays h' h'') : Stays h h'' :=
  ⟨h₁.1.trans h₂.1, fun b hb => (h₂.2 b (hb.trans_le h₁.1.1)).trans (h₁.2 b hb)⟩

theorem Text.stays {h h' : Heap} {p : Ptr} {text : Str} (ht : Text h p text) (hs : Stays h h') : Text h' p text :=
  ⟨ht.holds.keeps hs.1, ht.start, (hs.2 _ (ht.holds.block p rfl)).trans ht.size⟩

theorem mem_of_text {h : Heap} {p : Ptr} {text : Str} (ht : Text h p text) {i : ℕ} (hi : i < text.length + 1) :
    h.mem p.block (p.off + i) = (text ++ [0]).getD i 0 := by
  have hbytes : h.load p (text.length + 1) = text ++ [0] := ht.holds.bytes
  have hlt : i < (h.load p (text.length + 1)).length := by simpa using hi
  have hget : (h.load p (text.length + 1))[i] = h.mem p.block (p.off + i) := by simp [Heap.load]
  rw [← hget, ← hbytes, List.getD_eq_getElem?_getD, List.getElem?_eq_getElem hlt, Option.getD_some]

theorem take_wire (text : Str) :
    (text ++ [0]).take ((text.takeWhile (· ≠ 0)).length + 1) = text.takeWhile (· ≠ 0) ++ [0] := by
  induction text with
  | nil => rfl
  | cons b text ih =>
    by_cases hb : b = 0
    · subst hb
      simp
    · simpa [hb] using ih

theorem getD_takeWhile (text : Str) :
    (text ++ [0]).getD (text.takeWhile (· ≠ 0)).length 0 = 0 ∧
      ∀ i < (text.takeWhile (· ≠ 0)).length, (text ++ [0]).getD i 0 ≠ 0 := by
  induction text with
  | nil => simp
  | cons b text ih =>
    by_cases hb : b = 0
    · subst hb
      simp
    · refine ⟨by simpa [hb] using ih.1, fun i hi => ?_⟩
      cases i with
      | zero => simpa using hb
      | succ i => simpa using ih.2 i (by simpa [hb] using hi)

theorem strlen_text {h : Heap} {p : Ptr} {text : Str} (ht : Text h p text) :
    strlen p h = (text.takeWhile (· ≠ 0)).length := by
  have hle : (text.takeWhile (· ≠ 0)).length < text.length + 1 :=
    Nat.lt_succ_of_le (List.takeWhile_prefix _).length_le
  obtain ⟨hzero, hne⟩ := getD_takeWhile text
  have hfind : (List.range (text.length + 1)).find? (fun i => decide (h.mem p.block (p.off + i) = 0)) =
      some (text.takeWhile (· ≠ 0)).length := by
    rw [List.find?_range_eq_some]
    refine ⟨decide_eq_true ((mem_of_text ht hle).trans hzero), List.mem_range.2 hle, fun j hj => ?_⟩
    have hj' := hne j hj
    rw [← mem_of_text ht (hj.trans hle)] at hj'
    rw [decide_eq_false hj', Bool.not_false]
  unfold strlen
  rw [ht.size, ht.start, Nat.sub_zero]
  rw [ht.start] at hfind
  rw [hfind]
  rfl

/-- what is sent of a string, behind its pointer -/
theorem holds_wire {h : Heap} {p : Ptr} {text : Str} (ht : Text h p text) :
    h.Holds (some p) ((text.takeWhile (· ≠ 0)).length + 1) (text.takeWhile (· ≠ 0) ++ [0]) := by
  have hle : (text.takeWhile (· ≠ 0)).length + 1 ≤ text.length + 1 :=
    Nat.succ_le_succ (List.takeWhile_prefix _).length_le
  refine ⟨by simp, ht.holds.block, ?_⟩
  rw [ht.holds.take hle, take_wire]

/-! ### The heap of the service -/

theorem stays_malloc (size : ℕ) (ok : Bool) (h : Heap) : Stays h (h.malloc size ok).2 := by
  refine ⟨Heap.keeps_malloc size ok h, fun b hb => ?_⟩
  cases ok with
  | false => rfl
  | true => exact Function.update_of_ne (Nat.ne_of_lt hb) _ _

theorem stays_free (b : ℕ) (h : Heap) : Stays h (h.free b) := ⟨Heap.keeps_free b h, fun _ _ => rfl⟩

theorem Stays.write {h h' : Heap} (hs : Stays h h') {b : ℕ} (hb : h.next ≤ b) (off len : ℕ) (src : ℕ → UInt8) :
    Stays h (h'.write b off len src) := ⟨hs.1.write hb off len src, hs.2⟩

/-! ## A session's context -/

/-- the context agrees with what has been said -/
structure Phase (h : Heap) (supported : Bool) (d : Said) (a : SvcCli) : Prop extends
    Replying CliThreadStatus.idle .free h d.response d.ended d.tried d.given a.cliThreadStatus a.responseHandledInternally
      a.responseProcessing.string a.responseProcessing.length where
  supported : d.ended = false → supported = true
  uncalled : a.cliThreadStatus = .idle ∨ a.cliThreadStatus = .requestCbReady → d.left = none
  optional : a.responseRequired = false → d.left = none
  /-- the user is not called where there is an error -/
  clean : a.cliError ≠ .none → d.ended = true ∧ d.left = none
  left : ∀ l, d.left = some l → Text h l.string l.text
  record : d.tried = [] → a.responseHandledInternally = false ∧ a.responseStringInfo.string = d.left.map Left.string
  empty : d.tried = [] → d.left = none → a.responseStringInfo.length = 0
  unloaded : a.cliThreadStatus ≠ .free → d.tried = [] → a.responseProcessing = ⟨none, 0⟩
  /-- once a reply has been given no message takes the response's place -/
  kept : d.given ≠ [] → ¬ a.builds

/-- a session that has no context yet has not been talked about; one whose context is freed is over -/
def Tracked (h : Heap) (supported : Bool) (d : Said) : Cell SvcCli → Prop
  | .unallocated => d.left = none ∧ d.tried = [] ∧ d.given = []
  | .live a => Phase h supported d a
  | .freed _ => Streams d.response d.given ∧ d.tried.length ≤ 1

theorem Phase.stays {h h' : Heap} {supported : Bool} {d : Said} {a : SvcCli} (hp : Phase h supported d a)
    (hs : Stays h h') : Phase h' supported d a :=
  { hp with
    toReplying := hp.toReplying.keeps hs.1
    left := fun l hl => (hp.left l hl).stays hs }

theorem Tracked.stays {h h' : Heap} {supported : Bool} {d : Said} {x : Cell SvcCli} (hx : Tracked h supported d x)
    (hs : Stays h h') : Tracked h' supported d x := by
  cases x with
  | unallocated => exact hx
  | live a => exact Phase.stays hx hs
  | freed a => exact hx

theorem response_of_untried {d : Said} (h : d.tried = []) : d.response = (d.left.map fun l => wire l.text).getD [] := by
  simp [Said.response, h]

/-- a session that no reply has been given to -/
theorem phase_of_unasked {h : Heap} {supported : Bool} {d : Said} {a : SvcCli} (hd : d.given = [] ∧ d.tried = [])
    (settled : d.ended = true → a.cliThreadStatus = .idle ∨ a.cliThreadStatus = .free)
    (hsupported : d.ended = false → supported = true)
    (uncalled : a.cliThreadStatus = .idle ∨ a.cliThreadStatus = .requestCbReady → d.left = none)
    (optional : a.responseRequired = false → d.left = none) (clean : a.cliError ≠ .none → d.ended = true ∧ d.left = none)
    (left : ∀ l, d.left = some l → Text h l.string l.text)
    (record : a.responseHandledInternally = false ∧ a.responseStringInfo.string = d.left.map Left.string)
    (empty : d.left = none → a.responseStringInfo.length = 0)
    (unloaded : a.cliThreadStatus ≠ .free → a.responseProcessing = ⟨none, 0⟩)
    (cursor : a.cliThreadStatus = .free ∨ d.ended = true → h.Holds a.responseProcessing.string a.responseProcessing.length
      ((d.left.map fun l => wire l.text).getD [])) :
    Phase h supported d a where
  toReplying := .of_unasked hd settled (by rwa [response_of_untried hd.2])
  supported := hsupported
  uncalled := uncalled
  optional := optional
  clean := clean
  left := left
  record _ := record
  empty _ := empty
  unloaded hs _ := unloaded hs
  kept hne := absurd hd.1 hne

theorem phase_new {h : Heap} (r : RequestReq) : Phase h true Said.nothing (newContext r) :=
  phase_of_unasked ⟨rfl, rfl⟩ (fun he => by cases he) (fun _ => rfl) (fun _ => rfl) (fun _ => rfl) (fun h => absurd rfl h)
    (fun l hl => by cases hl) ⟨rfl, rfl⟩ (fun _ => rfl) (fun _ => rfl) fun _ => Heap.holds_nil h

/-- `more_data` is no matter of the response -/
theorem Phase.moreData {h : Heap} {supported : Bool} {d : Said} {a : SvcCli} (hp : Phase h supported d a) (more : Bool) :
    Phase h supported d { a with moreData := more } :=
  ⟨hp.toReplying, hp.supported, hp.uncalled, hp.optional, hp.clean, hp.left, hp.record, hp.empty, hp.unloaded, hp.kept⟩

/-! ## The callbacks -/

/-- what a callback leaves of its session: the context rewritten, in agreement with what has then been said -/
def Follows (s t : Svc) (c : ℕ) (d : Said) : Prop :=
  ∃ a' heap slot, t = ({ s with heap := heap, svcCli := slot } : Svc).put c a' ∧ Stays s.heap heap ∧
    Phase heap s.cliSupported d a'

theorem Said.heard_busy {d : Said} (h : d.ended = false) (more : Bool) : d.heard .busy more = d := by
  cases d
  simp_all [Said.heard]

theorem Said.heard_error (d : Said) (more : Bool) : d.heard .error more = { d with ended := true } := by simp [Said.heard]

/-- what collecting a string does to its session -/
theorem takeResponse_spec {h : Heap} {left : Option Left} {a : SvcCli} (hoptional : a.responseRequired = false → left = none)
    (hleft : ∀ l, left = some l → Text h l.string l.text) (hstring : a.responseStringInfo.string = left.map Left.string)
    (hempty : left = none → a.responseStringInfo.length = 0) (hunloaded : a.responseProcessing = ⟨none, 0⟩) :
    let b := takeResponse a h
    (b.responseRequired = a.responseRequired ∧ b.cliError = a.cliError ∧
        b.responseHandledInternally = a.responseHandledInternally) ∧
      (b.responseStringInfo.string = left.map Left.string ∧ (left = none → b.responseStringInfo.length = 0)) ∧
      h.Holds b.responseProcessing.string b.responseProcessing.length ((left.map fun l => wire l.text).getD []) := by
  cases hl : left with
  | none =>
    have hsame : takeResponse a h = a := by
      rw [hl] at hstring
      unfold takeResponse
      rw [hstring]
      cases a.responseRequired <;> rfl
    subst hl
    rw [hsame]
    refine ⟨⟨rfl, rfl, rfl⟩, ⟨hstring, hempty⟩, ?_⟩
    rw [hunloaded]
    exact Heap.holds_nil h
  | some l =>
    have ht := hleft l hl
    have hreq : a.responseRequired = true := by
      by_contra hno
      rw [hoptional (by simpa using hno)] at hl
      cases hl
    have hstring' : a.responseStringInfo.string = some l.string := by rw [hstring, hl]; rfl
    have hlen := strlen_text ht
    by_cases hnil : l.text.takeWhile (· ≠ 0) = []
    · have hzero : strlen l.string h = 0 := by rw [hlen, hnil]; rfl
      have hwire : wire l.text = [] := if_pos hnil
      simp only [takeResponse, hreq, hstring', hzero, ne_eq, not_true_eq_false, if_false, hunloaded, Option.map_some, hwire,
        Option.getD_some]
      exact ⟨⟨trivial, trivial, trivial⟩, ⟨trivial, nofun⟩, Heap.holds_nil h⟩
    · have hne : strlen l.string h ≠ 0 := by
        rw [hlen]
        exact fun h0 => hnil (List.eq_nil_of_length_eq_zero h0)
      have hwire : wire l.text = l.text.takeWhile (· ≠ 0) ++ [0] := if_neg hnil
      simp only [takeResponse, hreq, hstring', if_pos hne, Option.map_some, hwire, Option.getD_some]
      rw [hlen]
      exact ⟨⟨trivial, trivial, trivial⟩, ⟨trivial, nofun⟩, holds_wire ht⟩

section Unasked

variable {h : Heap} {supported : Bool} {d : Said} {a : SvcCli} (hp : Phase h supported d a) (hended : d.ended = false)
include hp hended

/-- a session whose request is over without the user having been called -/
theorem Phase.dropped (hst : a.cliThreadStatus = .idle) (e : CliError) :
    Phase h supported { d with ended := true } { a with cliError := e, cliThreadStatus := .free } := by
  obtain ⟨hgiven, htried⟩ := hp.unasked hended
  have hleft := hp.uncalled (.inl hst)
  refine phase_of_unasked ⟨hgiven, htried⟩ (fun _ => .inr rfl) (fun he => by cases he) (fun _ => hleft) (fun _ => hleft)
    (fun _ => ⟨rfl, hleft⟩) hp.left (hp.record htried) (hp.empty htried) (fun hne => absurd rfl hne) fun _ => ?_
  dsimp only
  rw [hp.unloaded (by rw [hst]; decide) htried, hleft]
  exact Heap.holds_nil h

/-- a session whose request goes on -/
theorem Phase.onward {h' : Heap} (hs : Stays h h') {a' : SvcCli} (hnext : a'.cliThreadStatus ≠ .free)
    (hcalled : a'.cliThreadStatus = .idle ∨ a'.cliThreadStatus = .requestCbReady → d.left = none)
    (hsame : a'.responseRequired = a.responseRequired ∧ a'.cliError = a.cliError ∧
      a'.responseHandledInternally = a.responseHandledInternally ∧ a'.responseStringInfo = a.responseStringInfo ∧
      a'.responseProcessing = a.responseProcessing) (hst : a.cliThreadStatus ≠ .free) : Phase h' supported d a' := by
  obtain ⟨hgiven, htried⟩ := hp.unasked hended
  obtain ⟨hreq, herror, hhandled, hinfo, hprocessing⟩ := hsame
  refine phase_of_unasked ⟨hgiven, htried⟩ (fun he => ?_) hp.supported hcalled (hreq ▸ hp.optional) (herror ▸ hp.clean)
    (fun l hl => (hp.left l hl).stays hs) ?_ (hinfo ▸ hp.empty htried) (fun _ => ?_) fun he => ?_
  · exact absurd (hended.symm.trans he) (by decide)
  · rw [hhandled, hinfo]
    exact hp.record htried
  · rw [hprocessing]
    exact hp.unloaded hst htried
  · rcases he with he | he
    · exact absurd he hnext
    · exact absurd (hended.symm.trans he) (by decide)

/-- the user's string is collected: its length is taken, and unless it is empty the cursor is set to it -/
theorem Phase.collected {h' : Heap} (hs : Stays h h') (hst : a.cliThreadStatus = .requestCbProcessed) (ended : Bool) :
    Phase h' supported { d with ended := ended } { takeResponse a h with cliThreadStatus := .free } := by
  obtain ⟨hgiven, htried⟩ := hp.unasked hended
  have hunloaded := hp.unloaded (by rw [hst]; decide) htried
  obtain ⟨hhandled, hstring⟩ := hp.record htried
  obtain ⟨hsame, hinfo, hcursor⟩ := takeResponse_spec hp.optional hp.left hstring (hp.empty htried) hunloaded
  refine phase_of_unasked ⟨hgiven, htried⟩ (fun _ => .inr rfl) (fun _ => hp.supported hended) (fun he => ?_) ?_ ?_
    (fun l hl => (hp.left l hl).stays hs) ?_ hinfo.2 (fun hne => absurd rfl hne) fun _ => hcursor.keeps hs.1
  · rcases he with he | he <;> cases he
  · dsimp only
    rw [hsame.1]
    exact hp.optional
  · dsimp only
    rw [hsame.2.1]
    exact fun herror => absurd (hended.symm.trans (hp.clean herror).1) (by decide)
  · dsimp only
    rw [hsame.2.2]
    exact ⟨hhandled, hinfo.1⟩

end Unasked

/-! ### Requests -/

section Request

variable {c : ℕ} {a : SvcCli} {bytes : List UInt8} {more ok : Bool} {s : Svc} {d : Said}

theorem append_follows (hp : Phase s.heap s.cliSupported d a) (hended : d.ended = false) (hst : a.cliThreadStatus = .idle) :
    Follows s (appendSegment c a bytes more ok s).1 c (d.heard (appendSegment c a bytes more ok s).2 more) := by
  have hleft := hp.uncalled (.inl hst)
  cases ok with
  | false =>
    rw [appendSegment]
    simp only [Heap.realloc, Heap.malloc, Bool.false_eq_true, if_false, Said.heard_error]
    exact ⟨_, s.heap, s.svcCli, rfl, Stays.refl _, hp.dropped hended hst _⟩
  | true =>
    obtain ⟨heap, he, hm⟩ := Heap.realloc_moved a.requestString a.requestLength (a.requestLength + bytes.length) s.heap
    have hw := Stays.write ⟨hm.keeps, hm.sizes⟩ le_rfl a.requestLength bytes.length fun i => bytes.getD i 0
    cases more with
    | true =>
      have hsame : d.heard .cont true = d := by simp [Said.heard]
      simp only [appendSegment, he, if_true, hsame]
      exact ⟨_, _, s.svcCli, rfl, hw,
        hp.onward hended hw (by simp [hst]) (fun _ => hleft) ⟨rfl, rfl, rfl, rfl, rfl⟩ (by simp [hst])⟩
    | false =>
      simp only [appendSegment, he, Bool.false_eq_true, if_false, Said.heard_busy hended]
      exact ⟨_, _, s.svcCli, rfl, hw,
        hp.onward hended hw (by simp) (fun _ => hleft) ⟨rfl, rfl, rfl, rfl, rfl⟩ (by simp [hst])⟩

/-- **One request callback.** -/
theorem request_follows (hp : Phase s.heap s.cliSupported d a) (hended : d.ended = false) :
    Follows s (requestInContext c a bytes more ok s).1 c (d.heard (requestInContext c a bytes more ok s).2.1 more) := by
  have hs : s.cliSupported = true := hp.supported hended
  have hrefl := Stays.refl s.heap
  unfold requestInContext
  rw [if_neg (not_not.2 hs)]
  cases hst : a.cliThreadStatus with
  | idle => exact append_follows hp hended hst
  | requestCbReady =>
    by_cases hslot : s.svcCli = none
    · simp only [hslot, if_true, Said.heard_busy hended]
      exact ⟨_, s.heap, some c, rfl, hrefl, hp.onward hended hrefl (by simp) (by simp) ⟨rfl, rfl, rfl, rfl, rfl⟩ (by simp [hst])⟩
    · simp only [hslot, if_false, Said.heard_busy hended]
      exact ⟨a, s.heap, s.svcCli, rfl, hrefl, hp⟩
  | requestCbQueued =>
    simp only [Said.heard_busy hended]
    exact ⟨a, s.heap, s.svcCli, rfl, hrefl, hp⟩
  | requestCbProcessed =>
    have hfree : Stays s.heap (match a.requestString with | some b => s.heap.free b | none => s.heap) := by
      cases a.requestString
      · exact hrefl
      · exact stays_free _ _
    exact ⟨_, _, s.svcCli, rfl, hfree, hp.collected hended hfree hst _⟩
  | free =>
    obtain ⟨hgiven, htried⟩ := hp.unasked hended
    have hcursor := hp.cursor (.inl hst)
    rw [response_of_untried htried, hgiven] at hcursor
    dsimp only
    rw [Said.heard_error]
    exact ⟨a, s.heap, s.svcCli, rfl, hrefl, phase_of_unasked ⟨hgiven, htried⟩ (fun _ => .inr hst) (fun he => by cases he)
      hp.uncalled hp.optional (fun herror => ⟨rfl, (hp.clean herror).2⟩) hp.left (hp.record htried) (hp.empty htried) (fun hne => absurd hst hne) fun _ => hcursor⟩

end Request

/-! ## The replies -/

/-- the cursor behind m bytes -/
def StringInfo.skip (m : ℕ) (b : StringInfo) : StringInfo :=
  ⟨b.string.map fun p => { p with off := p.off + m }, b.length - m⟩

theorem sendReply_eq (r : ReplyReq) (a : SvcCli) (heap : Heap) :
    sendReply r a heap =
      ({ a with responseProcessing := a.responseProcessing.skip (min a.responseProcessing.length r.bytesAvailable) },
        ⟨heap.bytes a.responseProcessing.string (min a.responseProcessing.length r.bytesAvailable),
          decide (a.responseProcessing.length - min a.responseProcessing.length r.bytesAvailable > 0)⟩) := rfl

/-- what the first reply makes of a session it builds a message for -/
def SvcCli.withMessage (message : Option StringInfo) (a : SvcCli) : SvcCli :=
  match message with
  | some b => { a with responseHandledInternally := true, responseStringInfo := b, responseProcessing := b }
  | none =>
    { a with
      responseHandledInternally := true, cliError := .insufficientMemory
      responseStringInfo := { a.responseStringInfo with string := none }
      responseProcessing := { a.responseStringInfo with string := none } }

section Reply

variable (ok : Bool) {r : ReplyReq} {s : Svc} {c : ℕ} {a : SvcCli} (hu : s.session r.userContext = some (c, a))
include hu

theorem reply_optional (hreq : a.responseRequired = false) : processCliResponse r ok s = (s, .error, none) := by
  simp [processCliResponse, hu, hreq]

theorem reply_streams (hreq : a.responseRequired = true) (hb : ¬ a.builds) :
    processCliResponse r ok s = (s.put c (sendReply r a s.heap).1, .cont, some (sendReply r a s.heap).2) := by
  have hnot : ¬ (a.cliError ≠ .none ∧ a.responseHandledInternally = false) := fun h => hb ⟨hreq, h⟩
  rw [processCliResponse, hu]
  dsimp only
  rw [if_neg (not_not.2 hreq), if_neg hnot]

theorem reply_builds (hb : a.builds) :
    ∃ heap message, Stays s.heap heap ∧
      (if ok then message = some ⟨some ⟨s.heap.next, 0⟩, (internalErrorText a.cliError).length⟩ ∧
          heap.Holds (some ⟨s.heap.next, 0⟩) (internalErrorText a.cliError).length (internalErrorText a.cliError)
        else message = none) ∧
      processCliResponse r ok s =
        (({ s with heap := heap } : Svc).put c (sendReply r (a.withMessage message) heap).1, .cont,
          some (sendReply r (a.withMessage message) heap).2) := by
  rw [processCliResponse, hu]
  dsimp only
  rw [if_neg (not_not.2 hb.1), if_pos hb.2]
  cases ok with
  | false => exact ⟨s.heap, none, Stays.refl _, by simp, by simp [fillInternalError, Heap.malloc, SvcCli.withMessage]⟩
  | true =>
    refine ⟨_, some ⟨some ⟨s.heap.next, 0⟩, (internalErrorText a.cliError).length⟩,
      (stays_malloc (internalErrorSize a.cliError) true s.heap).write le_rfl 0 ((internalErrorText a.cliError).length + 1)
        fun i => (internalErrorText a.cliError).getD i 0, ?_, ?_⟩
    · rw [if_pos rfl]
      exact ⟨rfl, Heap.holds_write (Nat.lt_succ_self _) (Nat.le_succ _)⟩
    · simp [fillInternalError, Heap.malloc, SvcCli.withMessage]

end Reply

theorem message_eq {r : ReplyReq} {ok : Bool} {s : Svc} {c : ℕ} {a : SvcCli} (hu : s.session r.userContext = some (c, a)) :
    s.message r ok = if a.builds then some (if ok then some (internalErrorText a.cliError) else none) else none := by
  rw [Svc.message, hu]

/-- a reply that hands out what the cursor points to -/
theorem Phase.replied {h : Heap} {supported : Bool} {d : Said} {a : SvcCli} (hp : Phase h supported d a)
    (hended : d.ended = true) (hb : ¬ a.builds) (r : ReplyReq) :
    Phase h supported (d.replied none (some (sendReply r a h).2)) (sendReply r a h).1 := by
  have hr := hp.toReplying.reply hended r.bytesAvailable
  have htried : (d.replied none (some (sendReply r a h).2)).tried = d.tried := List.append_nil _
  have hresponse : (d.replied none (some (sendReply r a h).2)).response = d.response := by rw [Said.response, htried]; rfl
  rw [sendReply_eq] at *
  exact
    { toReplying := by
        rw [hresponse, htried]
        exact hr
      supported := hp.supported
      uncalled := hp.uncalled
      optional := hp.optional
      clean := hp.clean
      left := hp.left
      record := fun ht => hp.record (htried ▸ ht)
      empty := fun ht => hp.empty (htried ▸ ht)
      unloaded := fun hs ht => by
        dsimp only
        rw [hp.unloaded hs (htried ▸ ht)]
        rfl
      kept := fun _ => hb }

/-- a reply that first builds its message, or finds no memory for it -/
theorem Phase.replied_message {h h' : Heap} {supported : Bool} {d : Said} {a : SvcCli} (hp : Phase h supported d a)
    (hended : d.ended = true) (hb : a.builds) {message : Option StringInfo} {text : Option Str}
    (hm : (∃ m b, message = some b ∧ text = some m ∧ h'.Holds b.string b.length m) ∨ (message = none ∧ text = none))
    (r : ReplyReq) :
    Phase h' supported (d.replied (some text) (some (sendReply r (a.withMessage message) h').2))
      (sendReply r (a.withMessage message) h').1 := by
  have hgiven : d.given = [] := by
    by_contra hne
    exact hp.kept hne hb
  have htried : d.tried = [] := by
    by_contra hne
    exact absurd (hb.2.2.symm.trans (hp.handled hne)) (by decide)
  have hleft := (hp.clean hb.2.1).2
  have hempty := hp.empty htried hleft
  set d' := d.replied (some text) (some (sendReply r (a.withMessage message) h').2) with hd'
  have hresponse : d'.response = text.getD [] := by
    rcases hm with ⟨m, b, -, rfl, -⟩ | ⟨-, rfl⟩
    · simp [hd', Said.response, Said.replied, htried]
    · simp [hd', Said.response, Said.replied, htried, hleft]
  have hhandled : (a.withMessage message).responseHandledInternally = true := by cases message <;> rfl
  have hstatus : (a.withMessage message).cliThreadStatus = a.cliThreadStatus := by cases message <;> rfl
  have hcursor : h'.Holds (a.withMessage message).responseProcessing.string
      (a.withMessage message).responseProcessing.length d'.response := by
    rw [hresponse]
    rcases hm with ⟨m, b, rfl, rfl, hholds⟩ | ⟨rfl, rfl⟩
    · exact hholds
    · dsimp only [SvcCli.withMessage]
      rw [hempty]
      exact Heap.holds_nil h'
  have hr := hp.toReplying.message hended text hcursor r.bytesAvailable
  have htried' : d'.tried = [text] := by simp [hd', Said.replied, htried]
  have hgiven' : d'.given = [⟨(sendReply r (a.withMessage message) h').2.buffer,
      (sendReply r (a.withMessage message) h').2.moreData⟩] := by simp [hd', Said.replied, hgiven]
  have hleft' : d'.left = none := hleft
  exact
    { toReplying := by
        rw [htried', hgiven', sendReply_eq]
        dsimp only
        rw [hhandled, hstatus]
        exact hr
      supported := fun he => absurd (he.symm.trans hended) (by decide)
      uncalled := fun _ => hleft'
      optional := fun _ => hleft'
      clean := fun _ => ⟨hended, hleft'⟩
      left := fun l hl => by
        rw [hleft'] at hl
        cases hl
      record := fun ht => by simp [htried'] at ht
      empty := fun ht => by simp [htried'] at ht
      unloaded := fun _ ht => by simp [htried'] at ht
      kept := fun _ hb' => by
        rw [sendReply_eq] at hb'
        exact absurd (hhandled.symm.trans hb'.2.2) (by decide) }

/-- **One reply.** -/
theorem reply_follows (ok : Bool) {r : ReplyReq} {s : Svc} {c : ℕ} {a : SvcCli} {d : Said}
    (hu : s.session r.userContext = some (c, a)) (hp : Phase s.heap s.cliSupported d a) (hended : d.ended = true) :
    Follows s (processCliResponse r ok s).1 c (d.replied (s.message r ok) (processCliResponse r ok s).2.2) := by
  have hc := (session_some hu).2
  rw [message_eq hu]
  cases hreq : a.responseRequired with
  | false =>
    have hb : ¬ a.builds := fun hb => absurd (hreq.symm.trans hb.1) (by decide)
    have hsame : d.replied none none = d := by simp [Said.replied]
    rw [reply_optional _ hu hreq, if_neg hb, hsame]
    exact ⟨a, s.heap, s.svcCli, by simp [Svc.put, ← hc], Stays.refl _, hp⟩
  | true =>
    by_cases hb : a.builds
    · obtain ⟨heap, message, hs, hmessage, he⟩ := reply_builds ok hu hb
      rw [he, if_pos hb]
      refine ⟨_, heap, s.svcCli, rfl, hs, hp.replied_message hended hb ?_ r⟩
      cases ok with
      | true =>
        rw [if_pos rfl] at hmessage
        exact .inl ⟨_, _, hmessage.1, rfl, hmessage.2⟩
      | false => exact .inr ⟨hmessage, rfl⟩
    · rw [reply_streams _ hu hreq hb, if_neg hb]
      exact ⟨_, s.heap, s.svcCli, rfl, Stays.refl _, hp.replied hended hb r⟩

/-! ## The user -/

/-- nothing is asked while the user is called -/
theorem Phase.queued {h : Heap} {supported : Bool} {d : Said} {a : SvcCli} (hp : Phase h supported d a)
    (hst : a.cliThreadStatus = .requestCbQueued) : d.ended = false :=
  hp.unended (by rw [hst]; decide) (by rw [hst]; decide)

/-- the user's request callback returns -/
theorem Phase.answered {h h' : Heap} {supported : Bool} {d : Said} {a a' : SvcCli} (hp : Phase h supported d a)
    (hst : a.cliThreadStatus = .requestCbQueued) {left : Option Left}
    (hsame : a'.cliThreadStatus = a.cliThreadStatus ∧ a'.responseRequired = a.responseRequired ∧ a'.cliError = a.cliError ∧
      a'.responseHandledInternally = a.responseHandledInternally ∧ a'.responseProcessing = a.responseProcessing)
    (hoptional : a.responseRequired = false → left = none) (hleft : ∀ l, left = some l → Text h' l.string l.text)
    (hstring : a'.responseStringInfo.string = left.map Left.string)
    (hempty : left = none → a'.responseStringInfo.length = 0) : Phase h' supported { d with left := left } a' := by
  obtain ⟨hst', hreq, herror, hhandled, hprocessing⟩ := hsame
  have hended := hp.queued hst
  obtain ⟨hgiven, htried⟩ := hp.unasked hended
  refine phase_of_unasked ⟨hgiven, htried⟩ (fun he => ?_) hp.supported (fun hs => ?_) (hreq ▸ hoptional) (fun hne => ?_)
    hleft ⟨hhandled.trans (hp.record htried).1, hstring⟩ hempty (fun _ => ?_) fun hs => ?_
  · exact absurd (hended.symm.trans he) (by decide)
  · rw [hst', hst] at hs
    rcases hs with hs | hs <;> cases hs
  · exact absurd (hended.symm.trans (hp.clean (herror ▸ hne)).1) (by decide)
  · rw [hprocessing]
    exact hp.unloaded (by rw [hst]; decide) htried
  · rw [hst', hst] at hs
    rcases hs with hs | hs
    · cases hs
    · exact absurd (hended.symm.trans hs) (by decide)

theorem Phase.settle {h : Heap} {supported : Bool} {d : Said} {a : SvcCli} (hp : Phase h supported d a) :
    Phase h supported d a.settle := by
  unfold SvcCli.settle
  split_ifs with hst
  · exact hp.onward (hp.queued hst) (Stays.refl h) (by simp) (by simp) ⟨rfl, rfl, rfl, rfl, rfl⟩ (by rw [hst]; decide)
  · exact hp

/-- the string that the finished callback gives back -/
theorem Phase.given_back {h : Heap} {supported : Bool} {d : Said} {a : SvcCli} (hp : Phase h supported d a)
    (ht : d.tried = []) {s : Svc} {e : CliError} {k : FinishedCall}
    (hk : finishedCall s { a with cliError := e } = some k) : k.output = d.left.map Left.string := by
  obtain ⟨hhandled, hstring⟩ := hp.record ht
  unfold finishedCall at hk
  split at hk
  · obtain rfl := Option.some.inj hk
    dsimp only
    cases hreq : a.responseRequired with
    | true => rw [if_pos ⟨hhandled, rfl⟩, hstring]
    | false => simp [hp.optional hreq]
  · cases hk

/-- the user's string is in a block of its own -/
theorem stays_storeOutput (c : ℕ) (output : Option Str) (s : Svc) : Stays s.heap (storeOutput c output s).heap := by
  cases output with
  | none => exact Stays.refl _
  | some text => exact (stays_malloc (text.length + 1) true s.heap).write le_rfl 0 (text.length + 1) _

theorem text_storeOutput (c : ℕ) (text : Str) (s : Svc) :
    Text (storeOutput c (some text) s).heap ⟨s.heap.next, 0⟩ text where
  holds := by
    have hsrc : (fun i => text.getD i 0) = fun i => (text ++ [0]).getD i 0 := by
      funext i
      grind
    have hlen : (text ++ [0]).length = text.length + 1 := by simp
    dsimp only [storeOutput]
    rw [hsrc, ← hlen]
    exact Heap.holds_write (Nat.lt_succ_self _) le_rfl
  start := rfl
  size := by simp [storeOutput, Heap.malloc, Heap.write]

/-! ## The invariant -/

theorem Follows.of_heap {s t : Svc} {c : ℕ} {d : Said} {heap : Heap} (hs : Stays s.heap heap)
    (h : Follows { s with heap := heap } t c d) : Follows s t c d := by
  obtain ⟨a', heap', slot, rfl, hs', hp⟩ := h
  exact ⟨a', heap', slot, rfl, hs.trans hs', hp⟩

section Request

variable {r : RequestReq} (contextOk ok : Bool) {s : Svc} {bytes : List UInt8} (hbytes : r.buffer = some bytes)
  (hne : bytes ≠ [])
include hbytes hne

/-- a request for a session that is there -/
theorem request_known {c : ℕ} {a : SvcCli} (hu : s.session r.userContext = some (c, a)) :
    processCliRequest r contextOk ok s =
      let p := requestInContext c { a with moreData := r.moreData } bytes r.moreData ok s
      (p.1, p.2.1, some c, p.2.2) := by
  obtain ⟨hc, -⟩ := session_some hu
  obtain ⟨b, bytes, rfl⟩ := List.exists_cons_of_ne_nil hne
  rw [hc] at hu
  simp only [processCliRequest, hbytes, requestContext, hc, hu, Option.map_some]

/-- a request for one that is not -/
theorem request_unknown {c : ℕ} (hc : r.userContext = some c) (hu : s.session (some c) = none) :
    processCliRequest r contextOk ok s = (s, .error, some c, false) := by
  obtain ⟨b, bytes, rfl⟩ := List.exists_cons_of_ne_nil hne
  simp only [processCliRequest, hbytes, requestContext, hc, hu, Option.map_none]

/-- the first request of a session -/
theorem request_new (hc : r.userContext = none) :
    processCliRequest r contextOk ok s =
      if contextOk then
        let p := requestInContext s.heap.next (newContext r) bytes r.moreData ok
          { s with heap := (s.heap.malloc sizeofSvcCli true).2 }
        (p.1, p.2.1, some s.heap.next, p.2.2)
      else (s, .error, none, false) := by
  obtain ⟨b, bytes, rfl⟩ := List.exists_cons_of_ne_nil hne
  cases contextOk <;> simp [processCliRequest, hbytes, requestContext, hc, Heap.malloc]

end Request

/-- a session that the service does not support gets no further -/
theorem refused_follows (c : ℕ) (r : RequestReq) (bytes : List UInt8) (more ok : Bool) {s : Svc}
    (hs : s.cliSupported = false) :
    Follows s (requestInContext c (newContext r) bytes more ok s).1 c
      (Said.nothing.heard (requestInContext c (newContext r) bytes more ok s).2.1 more) := by
  have hne : ¬ s.cliSupported = true := by simp [hs]
  rw [requestInContext, if_pos hne]
  refine ⟨_, s.heap, s.svcCli, rfl, Stays.refl _, ?_⟩
  dsimp only
  rw [Said.heard_error]
  exact phase_of_unasked ⟨rfl, rfl⟩ (fun _ => .inl rfl) (fun he => by cases he) (fun _ => rfl) (fun _ => rfl)
    (fun _ => ⟨rfl, rfl⟩) (fun l hl => by cases hl) ⟨rfl, rfl⟩ (fun _ => rfl) (fun _ => rfl) fun _ => Heap.holds_nil _

theorem stays_status (r : StatusReq) (s : Svc) : Stays s.heap (processCliStatus r s).1.heap := by
  unfold processCliStatus
  split
  · exact Stays.refl _
  · dsimp only [freeSession]
    split
    · exact (stays_free _ _).trans (stays_free _ _)
    · exact stays_free _ _

namespace Talk

structure Inv (t : Talk) : Prop where
  fresh : Fresh t.st.svc
  grip : Handoff.Grip t.st.abs
  tracked : ∀ c, Tracked t.st.svc.heap t.st.svc.cliSupported (t.said c) (t.st.svc.ctx c)

theorem inv_init {t : Talk} (h : t.Init) : t.Inv := by
  refine ⟨fun c _ => h.st.ctx c, Handoff.grip_init (abs_init h.st), fun c => ?_⟩
  rw [h.st.ctx, h.said]
  exact ⟨rfl, rfl, rfl⟩

/-- a step that touches one session -/
theorem Inv.touch {t : Talk} (h : t.Inv) {o : Op} (c : ℕ) (hs : Stays t.st.svc.heap (Cli.step t.st o).svc.heap)
    (hsup : (Cli.step t.st o).svc.cliSupported = t.st.svc.cliSupported)
    (hctx : ∀ c', c' ≠ c → (Cli.step t.st o).svc.ctx c' = t.st.svc.ctx c')
    (hsaid : ∀ c', c' ≠ c → t.learn o c' = t.said c')
    (hself : Tracked (Cli.step t.st o).svc.heap (Cli.step t.st o).svc.cliSupported (t.learn o c)
      ((Cli.step t.st o).svc.ctx c)) : (t.step o).Inv := by
  refine ⟨step_fresh h.fresh o, step_grip h.fresh h.grip o, Cell.touch c hctx h.tracked (fun c' hne hx => ?_) hself⟩
  dsimp only [step]
  rw [hsaid c' hne, hsup]
  exact hx.stays hs

/-- a step that touches none -/
theorem Inv.same {t : Talk} (h : t.Inv) {o : Op} (hsvc : (Cli.step t.st o).svc.heap = t.st.svc.heap ∧
    (Cli.step t.st o).svc.cliSupported = t.st.svc.cliSupported ∧ (Cli.step t.st o).svc.ctx = t.st.svc.ctx)
    (hsaid : t.learn o = t.said) : (t.step o).Inv := by
  obtain ⟨hheap, hsup, hctx⟩ := hsvc
  refine h.touch 0 (hheap ▸ Stays.refl _) hsup (fun _ _ => by rw [hctx]) (fun _ _ => by rw [hsaid]) ?_
  rw [hheap, hsup, hctx, hsaid]
  exact h.tracked 0

theorem session_none_or (s : Svc) (c : ℕ) : s.session (some c) = none ∨ ∃ a, s.session (some c) = some (c, a) := by
  cases hc : s.ctx c <;> simp [Svc.session, hc]

/-- what is said of a session that has no live context is not about its response -/
theorem tracked_heard {h : Heap} {supported : Bool} {d : Said} {x : Cell SvcCli} (hx : Tracked h supported d x)
    (hlive : x.isLive = false) (answer : CallbackStatus) (more : Bool) : Tracked h supported (d.heard answer more) x := by
  cases x with
  | unallocated => exact hx
  | live a => cases hlive
  | freed a => exact hx

theorem isLive_of_session {s : Svc} {c : ℕ} (h : s.session (some c) = none) : (s.ctx c).isLive = false := by
  unfold Svc.session at h
  cases hc : s.ctx c with
  | live a => simp [hc] at h
  | unallocated | freed => rfl

/-- a callback that rewrites the context of its session -/
theorem Inv.follows {t : Talk} (h : t.Inv) {o : Op} {c : ℕ} {d : Said} (hf : Follows t.st.svc (Cli.step t.st o).svc c d)
    (hsaid : t.learn o = Function.update t.said c d) : (t.step o).Inv := by
  obtain ⟨a', heap, slot, hsvc, hs, hp⟩ := hf
  refine h.touch c (by rw [hsvc]; exact hs) (by rw [hsvc]; rfl) (fun c' hne => ?_) (fun c' hne => ?_) ?_
  · rw [hsvc]
    exact Function.update_of_ne hne _ _
  · rw [hsaid, Function.update_of_ne hne]
  · rw [hsvc, hsaid, Function.update_self]
    simp only [Svc.put, Function.update_self]
    exact hp

theorem Inv.request {t : Talk} (h : t.Inv) (r : RequestReq) (contextOk ok : Bool) (hl : t.Legal (.request r contextOk ok)) :
    (t.step (.request r contextOk ok)).Inv := by
  obtain ⟨hbuffer, hended⟩ := hl
  obtain ⟨bytes, hbytes, hne⟩ : ∃ bytes, r.buffer = some bytes ∧ bytes ≠ [] := by
    cases hb : r.buffer with
    | none => simp [hb] at hbuffer
    | some bytes => exact ⟨bytes, rfl, by simpa [hb] using hbuffer⟩
  have hst : (Cli.step t.st (.request r contextOk ok)).svc = (processCliRequest r contextOk ok t.st.svc).1 := rfl
  cases hu : r.userContext with
  | none =>
    have hnew := request_new contextOk ok (s := t.st.svc) hbytes hne hu
    cases contextOk with
    | false =>
      rw [if_neg (by decide)] at hnew
      exact h.same (by rw [hst, hnew]; exact ⟨rfl, rfl, rfl⟩) (by simp [learn, hu, hnew])
    | true =>
      rw [if_pos rfl] at hnew
      have hstays := stays_malloc sizeofSvcCli true t.st.svc.heap
      refine h.follows (c := t.st.svc.heap.next) (d := Said.nothing.heard (processCliRequest r true ok t.st.svc).2.1 r.moreData)
        (Follows.of_heap hstays ?_) (by simp only [learn, hu, hnew])
      rw [hst, hnew]
      cases t.st.svc.cliSupported with
      | false => exact refused_follows _ r bytes _ ok rfl
      | true => exact request_follows (d := Said.nothing) (phase_new r) rfl
  | some c =>
    have hended' := hended c hu
    rcases session_none_or t.st.svc c with hnone | ⟨a, ha⟩
    · have hsame := request_unknown contextOk ok (s := t.st.svc) hbytes hne hu hnone
      have hsaid : t.learn (.request r contextOk ok) = Function.update t.said c ((t.said c).heard .error r.moreData) := by
        simp only [learn, hu, hsame]
      refine h.touch c (by rw [hst, hsame]; exact Stays.refl _) (by rw [hst, hsame]) (fun c' _ => by rw [hst, hsame])
        (fun c' hne => by rw [hsaid, Function.update_of_ne hne]) ?_
      rw [hst, hsame, hsaid, Function.update_self]
      exact tracked_heard (h.tracked c) (isLive_of_session hnone) _ _
    · have hp := h.tracked c
      rw [(session_some ha).2] at hp
      rw [← hu] at ha
      have hknown := request_known contextOk ok hbytes hne ha
      refine h.follows (c := c) (d := (t.said c).heard (processCliRequest r contextOk ok t.st.svc).2.1 r.moreData) ?_ ?_
      · rw [hst, hknown]
        exact request_follows (hp.moreData r.moreData) hended'
      · simp only [learn, hu, hknown]

theorem Inv.reply {t : Talk} (h : t.Inv) (r : ReplyReq) (ok : Bool) (hl : t.Legal (.reply r ok)) :
    (t.step (.reply r ok)).Inv := by
  have hst : (Cli.step t.st (.reply r ok)).svc = (processCliResponse r ok t.st.svc).1 := rfl
  have hunasked (hu : t.st.svc.session r.userContext = none) : (t.step (.reply r ok)).Inv := by
    have he : processCliResponse r ok t.st.svc = (t.st.svc, .error, none) := by simp [processCliResponse, hu]
    refine h.same (by rw [hst, he]; exact ⟨rfl, rfl, rfl⟩) ?_
    simp only [learn]
    split
    · have hm : t.st.svc.message r ok = none := by simp [Svc.message, hu]
      simp [hm, he, Said.replied]
    · rfl
  cases hu : r.userContext with
  | none => exact hunasked (by rw [hu]; rfl)
  | some c =>
    rcases session_none_or t.st.svc c with hnone | ⟨a, ha⟩
    · exact hunasked (hu ▸ hnone)
    · have hp := h.tracked c
      rw [(session_some ha).2] at hp
      rw [← hu] at ha
      exact h.follows (hst ▸ reply_follows ok ha hp (hl c hu)) (by simp only [learn, hu])

theorem Inv.status {t : Talk} (h : t.Inv) (r : StatusReq) : (t.step (.status r)).Inv := by
  have hst : (Cli.step t.st (.status r)).svc = (processCliStatus r t.st.svc).1 := rfl
  obtain he | ⟨c, a, a', heap, hu, -, -, he⟩ := status_cases r t.st.svc
  · exact h.same (by rw [hst, he]; exact ⟨rfl, rfl, rfl⟩) rfl
  · have hstays := stays_status r t.st.svc
    refine h.touch c (hst ▸ hstays) (by rw [hst, he]) (fun c' hne => ?_) (fun _ _ => rfl) ?_
    · rw [hst, he]
      exact Function.update_of_ne hne _ _
    · have hp := h.tracked c
      rw [(session_some hu).2] at hp
      rw [hst, he]
      simp only [Function.update_self]
      exact ⟨hp.streams, hp.once⟩

theorem Inv.ret {t : Talk} (h : t.Inv) (output : Option Str) : (t.step (.ret output)).Inv := by
  cases hpc : t.st.pc with
  | calling c =>
    have hst : (Cli.step t.st (.ret output)).svc = storeOutput c output t.st.svc := by simp [Cli.step, stepThread, hpc]
    have hs := stays_storeOutput c output t.st.svc
    have hsup : (storeOutput c output t.st.svc).cliSupported = t.st.svc.cliSupported := by cases output <;> rfl
    have hctx (c' : ℕ) (hne : c' ≠ c) : (storeOutput c output t.st.svc).ctx c' = t.st.svc.ctx c' := by
      cases output with
      | none => rfl
      | some text => exact Function.update_of_ne hne _ _
    have hsaid : t.learn (.ret output) =
        Function.update t.said c { t.said c with left := (t.st.svc.leaves c output).or (t.said c).left } := by
      simp [learn, hpc]
    refine h.touch c (hst ▸ hs) (hst ▸ hsup) (fun c' hne => hst ▸ hctx c' hne)
      (fun c' hne => by rw [hsaid, Function.update_of_ne hne]) ?_
    rw [hst, hsup, hsaid, Function.update_self]
    have htracked := h.tracked c
    cases hc : t.st.svc.ctx c with
    | unallocated | freed a =>
      -- a context that is gone is nobody's record any more
      have hleaves : t.st.svc.leaves c output = none := by cases output <;> simp [Svc.leaves, hc]
      have hcell : Tracked t.st.svc.heap t.st.svc.cliSupported (t.said c) ((storeOutput c output t.st.svc).ctx c) := by
        rw [hc] at htracked
        cases output <;> simpa [storeOutput, hc, Cell.map, Tracked] using htracked
      rw [hleaves]
      exact hcell.stays hs
    | live a =>
      rw [hc] at htracked
      have hqueued := queued_of_grip h.grip hpc hc
      have htried := (htracked.unasked (htracked.queued hqueued)).2
      have hstring := (htracked.record htried).2
      have hleft (l : Left) (hl : (t.said c).left = some l) :
          Text (storeOutput c output t.st.svc).heap l.string l.text := (htracked.left l hl).stays hs
      cases output with
      | none => exact hc ▸ htracked
      | some text =>
        have hcell : (storeOutput c (some text) t.st.svc).ctx c = .live
            { a with responseStringInfo := if a.responseRequired then
                       { a.responseStringInfo with string := some ⟨t.st.svc.heap.next, 0⟩ } else a.responseStringInfo } := by
          simp [storeOutput, hc, Cell.map]
        rw [hcell]
        cases hreq : a.responseRequired with
        | true =>
          have hleaves : t.st.svc.leaves c (some text) = some ⟨⟨t.st.svc.heap.next, 0⟩, text⟩ := by
            simp [Svc.leaves, hc, hreq]
          rw [hleaves]
          refine htracked.answered hqueued ⟨rfl, hreq.symm, rfl, rfl, rfl⟩ (fun hno => ?_) (fun l hl => ?_) rfl
            fun hnone => absurd hnone (Option.some_ne_none _)
          · exact absurd (hreq.symm.trans hno) (by decide)
          · obtain rfl := Option.some.inj hl
            exact text_storeOutput c text t.st.svc
        | false =>
          have hleaves : t.st.svc.leaves c (some text) = none := by simp [Svc.leaves, hc, hreq]
          rw [hleaves]
          exact htracked.answered hqueued ⟨rfl, hreq.symm, rfl, rfl, rfl⟩ htracked.optional hleft hstring
            (htracked.empty htried)
  | _ => exact h.same (by simp [Cli.step, stepThread, hpc]) (by cases output <;> simp [learn, hpc])

theorem Inv.settle {t : Talk} (h : t.Inv) : (t.step .settle).Inv := by
  cases hpc : t.st.pc with
  | returned c =>
    have hst : (Cli.step t.st .settle).svc =
        { t.st.svc with ctx := Function.update t.st.svc.ctx c ((t.st.svc.ctx c).map SvcCli.settle) } := by
      simp [Cli.step, stepThread, hpc]
    refine h.touch c (by rw [hst]; exact Stays.refl _) (by rw [hst])
      (fun c' hne => by rw [hst]; exact Function.update_of_ne hne _ _) (fun _ _ => rfl) ?_
    rw [hst]
    simp only [Function.update_self]
    have htracked := h.tracked c
    cases hc : t.st.svc.ctx c with
    | unallocated | freed a =>
      rw [hc] at htracked
      exact htracked
    | live a =>
      rw [hc] at htracked
      exact htracked.settle
  | _ => exact h.same (by simp [Cli.step, stepThread, hpc]) rfl

/-- **One step.** -/
theorem step_inv (t : Talk) (o : Op) (h : t.Inv) (hl : t.Legal o) : (t.step o).Inv := by
  cases o with
  | request r contextOk ok => exact h.request r contextOk ok hl
  | reply r ok => exact h.reply r ok hl
  | status r => exact h.status r
  | ret output => exact h.ret output
  | settle => exact h.settle
  | wake | check | call | clear =>
    refine h.same ?_ rfl
    simp only [Cli.step, stepThread]
    repeat' split
    all_goals exact ⟨rfl, rfl, rfl⟩

theorem run_inv {t : Talk} (h : t.Init) {ops : List Op} (hl : Along step Legal t ops) : (run step t ops).Inv :=
  Runs.run_inv step_inv (inv_init h) hl

/-! ## What it gives -/

theorem Inv.streams {t : Talk} (h : t.Inv) (c : ℕ) :
    Streams (t.said c).response (t.said c).given ∧ (t.said c).tried.length ≤ 1 := by
  have htracked := h.tracked c
  cases hc : t.st.svc.ctx c with
  | unallocated =>
    rw [hc] at htracked
    obtain ⟨-, htried, hgiven⟩ := htracked
    rw [hgiven, htried]
    exact ⟨streams_nil _, Nat.zero_le _⟩
  | live a =>
    rw [hc] at htracked
    exact ⟨htracked.streams, htracked.once⟩
  | freed a =>
    rw [hc] at htracked
    exact htracked

theorem Inv.answered {t : Talk} (h : t.Inv) (c : ℕ) : t.Answered c := by
  obtain ⟨hstreams, honce⟩ := h.streams c
  refine ⟨hstreams, fun before p behind heq hp => (heq ▸ hstreams).complete hp, honce, fun r k hu hk ht => ?_⟩
  unfold processCliStatus at hk
  split at hk
  · cases hk
  · rename_i c' a ha
    obtain ⟨hu', hc⟩ := session_some ha
    obtain rfl := Option.some.inj (hu.symm.trans hu')
    have hp := h.tracked c
    rw [hc] at hp
    exact hp.given_back ht hk

end Talk

end CcApi.Cli
