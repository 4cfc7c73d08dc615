/-
Who releases the blocks of a CLI session (`ccapi_sm_handler.c`), the way a receive session's are.

There is no target. The request callback opens the session and grows its command in one.

- `held`: what each session holds, by the place that points to it.
- `step_inv`: every step keeps what is held live and in one place.
- `Inv.released_iff`: at the end of the status callback everything of the library's has been released once and the user has got
  its string back, exactly where the command was never begun or was collected, and there is a callback to give the string to.
-/
import CcApi.Lib.Custody
import CcApi.Cli.Replies

namespace CcApi.Cli

open Lib Lib.Runs

/-! ## The callbacks and the heap -/

def StringInfo.block (b : StringInfo) : Option ℕ := b.string.map Ptr.block

theorem takeResponse_books (a : SvcCli) (heap : Heap) :
    (takeResponse a heap).requestString = a.requestString ∧
      (takeResponse a heap).responseHandledInternally = a.responseHandledInternally ∧
      (takeResponse a heap).responseStringInfo.block = a.responseStringInfo.block := by
  unfold takeResponse
  split
  · rename_i p _ hp
    dsimp only
    split_ifs <;> simp [StringInfo.block, hp]
  · exact ⟨rfl, rfl, rfl⟩

/-- a request callback keeps the blocks of its session, moves its command to a new one, or releases it -/
inductive RequestBooks (s t : Svc) (c : ℕ) (a : SvcCli) : Prop where
  | keeps (a' : SvcCli) : ¬ (s.cliSupported = true ∧ a.cliThreadStatus = .requestCbProcessed) →
      t.ctx = Function.update s.ctx c (.live a') → t.heap = s.heap → (a.cliThreadStatus = .free → a'.cliThreadStatus = .free) →
      a' = { a with cliError := a'.cliError, cliThreadStatus := a'.cliThreadStatus } → RequestBooks s t c a
  | moves (a' : SvcCli) : a.cliThreadStatus = .idle → t.ctx = Function.update s.ctx c (.live a') →
      t.heap.next = s.heap.next + 1 → t.heap.frees = s.heap.frees ++ a.requestString.toList →
      a' = { a with requestString := some s.heap.next, requestLength := a'.requestLength
                    cliThreadStatus := a'.cliThreadStatus } → RequestBooks s t c a
  | releases (a' : SvcCli) : (s.cliSupported = true ∧ a.cliThreadStatus = .requestCbProcessed) →
      t.ctx = Function.update s.ctx c (.live a') → t.heap.next = s.heap.next →
      t.heap.frees = s.heap.frees ++ a.requestString.toList → a'.cliThreadStatus = .free → a'.requestString = a.requestString →
      a'.responseHandledInternally = a.responseHandledInternally →
      a'.responseStringInfo.block = a.responseStringInfo.block → RequestBooks s t c a

theorem request_books (c : ℕ) (a : SvcCli) (bytes : List UInt8) (more ok : Bool) (s : Svc) :
    RequestBooks s (requestInContext c a bytes more ok s).1 c a := by
  by_cases hs : s.cliSupported = true
  case neg =>
    rw [requestInContext, if_pos hs]
    exact .keeps _ (fun h => hs h.1) rfl rfl id rfl
  unfold requestInContext
  rw [if_neg (not_not.2 hs)]
  cases hst : a.cliThreadStatus with
  | idle =>
    dsimp only
    cases ok with
    | false => exact .keeps _ (by simp [hst]) rfl rfl (by simp [hst]) rfl
    | true =>
      obtain ⟨heap, he, hm⟩ := Heap.realloc_moved a.requestString a.requestLength (a.requestLength + bytes.length) s.heap
      simp only [appendSegment, he]
      cases more
      · exact .moves _ hst rfl hm.next hm.frees rfl
      · exact .moves _ hst rfl hm.next hm.frees rfl
  | requestCbReady =>
    by_cases hslot : s.svcCli = none
    · simp only [hslot, if_true]
      exact .keeps _ (by simp [hst]) rfl rfl (by simp [hst]) rfl
    · simp only [hslot, if_false]
      exact .keeps a (by simp [hst]) rfl rfl id rfl
  | requestCbQueued => exact .keeps a (by simp [hst]) rfl rfl id rfl
  | requestCbProcessed =>
    obtain ⟨hrequest, hhandled, hstring⟩ := takeResponse_books a s.heap
    refine .releases _ ⟨hs, hst⟩ rfl ?_ ?_ rfl hrequest hhandled hstring
    · cases a.requestString <;> rfl
    · cases a.requestString <;> simp [Heap.free, Svc.put]
  | free => exact .keeps a (by simp [hst]) rfl rfl id rfl

/-- a reply keeps the blocks of its session, or puts a new one, or none, in the response's place -/
inductive ReplyBooks (s t : Svc) (c : ℕ) (a : SvcCli) : Prop where
  | keeps (a' : SvcCli) : t.ctx = Function.update s.ctx c (.live a') → t.heap = s.heap →
      a' = { a with responseProcessing := a'.responseProcessing } → ReplyBooks s t c a
  | message (a' : SvcCli) : a.responseHandledInternally = false → t.ctx = Function.update s.ctx c (.live a') →
      s.heap.next ≤ t.heap.next → t.heap.frees = s.heap.frees → a'.requestString = a.requestString →
      a'.cliThreadStatus = a.cliThreadStatus → a'.responseHandledInternally = true →
      (∀ blk, a'.responseStringInfo.block = some blk → s.heap.next ≤ blk ∧ blk < t.heap.next) → ReplyBooks s t c a

theorem reply_books (ok : Bool) {r : ReplyReq} {s : Svc} {c : ℕ} {a : SvcCli} (hu : s.session r.userContext = some (c, a)) :
    ReplyBooks s (processCliResponse r ok s).1 c a := by
  have hc := (session_some hu).2
  cases hreq : a.responseRequired with
  | false =>
    rw [reply_optional _ hu hreq]
    exact .keeps a (by rw [← hc, Function.update_eq_self]) rfl rfl
  | true =>
    by_cases hb : a.builds
    · rw [processCliResponse, hu]
      dsimp only
      rw [if_neg (not_not.2 hreq), if_pos hb.2]
      cases ok with
      | false => exact .message _ hb.2.2 rfl le_rfl rfl rfl rfl rfl (fun blk hblk => by cases hblk)
      | true =>
        refine .message _ hb.2.2 rfl (Nat.le_succ _) rfl rfl rfl rfl fun blk hblk => ?_
        obtain rfl := Option.some.inj hblk
        exact ⟨le_rfl, Nat.lt_succ_self _⟩
    · rw [reply_streams _ hu hreq hb]
      exact .keeps _ rfl rfl rfl

/-! ## Places -/

/-- what of a session points to a block -/
inductive Place where
  | context
  | request
  | message
  | users
deriving DecidableEq

/-- the blocks that are a session's to release or to give back; the command's is not once that has been collected -/
def SvcCli.held (c : ℕ) (d : Said) (collected : Bool) (a : SvcCli) : Place → Option ℕ
  | .context => some c
  | .request => if collected then none else a.requestString
  | .message => if a.responseHandledInternally then a.responseStringInfo.block else none
  | .users => d.left.map fun l => l.string.block

/-- the machine, and of which sessions the request callback has found the command processed -/
structure Books where
  talk : Talk
  collected : ℕ → Bool

namespace Books

def learn (b : Books) : Op → ℕ → Bool
  | .request r _ _ =>
    match b.talk.st.svc.session r.userContext with
    | some (c, a) =>
      if b.talk.st.svc.cliSupported = true ∧ a.cliThreadStatus = .requestCbProcessed then Function.update b.collected c true
      else b.collected
    | none => b.collected
  | _ => b.collected

def step (b : Books) (o : Op) : Books := { talk := b.talk.step o, collected := b.learn o }

def Legal (b : Books) (o : Op) : Prop := b.talk.Legal o

instance (b : Books) (o : Op) : Decidable (b.Legal o) := inferInstanceAs (Decidable (b.talk.Legal o))

/-- what a session that is there holds -/
def held (b : Books) (k : ℕ × Place) : Option ℕ :=
  match b.talk.st.svc.ctx k.1 with
  | .live a => a.held k.1 (b.talk.said k.1) (b.collected k.1) k.2
  | _ => none

/-- no session yet; what has been released before was allocated, and none of it twice -/
structure Init (b : Books) : Prop where
  talk : b.talk.Init
  collected : ∀ c, b.collected c = false
  known : ∀ blk ∈ b.talk.st.svc.heap.frees, blk < b.talk.st.svc.heap.next
  once : b.talk.st.svc.heap.frees.Nodup

structure Inv (b : Books) : Prop where
  talk : b.talk.Inv
  custody : Custody b.talk.st.svc.heap.next b.talk.st.svc.heap.frees b.held
  /-- the command of a session that has been collected has been released -/
  settled : ∀ c a, b.talk.st.svc.ctx c = .live a → b.collected c = true →
    a.cliThreadStatus = .free ∧ ∀ blk ∈ a.requestString, blk ∈ b.talk.st.svc.heap.frees
  fresh : ∀ c, b.talk.st.svc.ctx c = .unallocated → b.collected c = false

theorem inv_init {b : Books} (h : b.Init) : b.Inv := by
  have hnone (k : ℕ × Place) : b.held k = none := by simp [held, h.talk.st.ctx]
  refine ⟨Talk.inv_init h.talk, ⟨h.known, h.once, fun k blk hk => ?_, fun k k' blk hk => ?_⟩, fun c a hc => ?_,
    fun c _ => h.collected c⟩
  · rw [hnone] at hk
    cases hk
  · rw [hnone] at hk
    cases hk
  · rw [h.talk.st.ctx] at hc
    cases hc

/-- a step that touches one session -/
theorem Inv.touch {b : Books} (h : b.Inv) {o : Op} (c : ℕ) (hl : b.Legal o) (places : List Place) (hplaces : places.Nodup)
    (hnext : b.talk.st.svc.heap.next ≤ (Cli.step b.talk.st o).svc.heap.next)
    (hfrees : (Cli.step b.talk.st o).svc.heap.frees = b.talk.st.svc.heap.frees ++ places.filterMap fun p => b.held (c, p))
    (hctx : ∀ c', c' ≠ c → (Cli.step b.talk.st o).svc.ctx c' = b.talk.st.svc.ctx c')
    (hsaid : ∀ c', c' ≠ c → b.talk.learn o c' = b.talk.said c') (hcollected : ∀ c', c' ≠ c → b.learn o c' = b.collected c')
    (hout : ∀ p ∈ places, ∀ blk, b.held (c, p) = some blk → (b.step o).held (c, p) ≠ some blk)
    (hold : ∀ p blk, (b.step o).held (c, p) = some blk → b.held (c, p) = some blk ∨
      b.talk.st.svc.heap.next ≤ blk ∧ blk < (Cli.step b.talk.st o).svc.heap.next)
    (hnew : ∀ p p' blk, b.talk.st.svc.heap.next ≤ blk → (b.step o).held (c, p) = some blk → (b.step o).held (c, p') = some blk →
      p = p')
    (hsettled : ∀ a, (Cli.step b.talk.st o).svc.ctx c = .live a → b.learn o c = true →
      a.cliThreadStatus = .free ∧ ∀ blk ∈ a.requestString, blk ∈ (Cli.step b.talk.st o).svc.heap.frees)
    (hfresh : (Cli.step b.talk.st o).svc.ctx c = .unallocated → b.learn o c = false) : (b.step o).Inv := by
  have hsame (k : ℕ × Place) (hk : k.1 ≠ c) : (b.step o).held k = b.held k := by
    simp only [held, step, Talk.step, hctx k.1 hk, hsaid k.1 hk, hcollected k.1 hk]
  have hcustody := h.custody.step_at c hnext hplaces hsame hout hold hnew
  rw [← hfrees] at hcustody
  refine ⟨Talk.step_inv b.talk o h.talk hl, hcustody, fun c' a hc' hcol => ?_, fun c' hc' => ?_⟩
  · by_cases hne : c' = c
    · subst hne
      exact hsettled a hc' hcol
    · obtain ⟨hst, hmem⟩ := h.settled c' a (hctx c' hne ▸ hc') (hcollected c' hne ▸ hcol)
      refine ⟨hst, fun blk hblk => ?_⟩
      show blk ∈ (Cli.step b.talk.st o).svc.heap.frees
      rw [hfrees]
      exact List.mem_append_left _ (hmem blk hblk)
  · by_cases hne : c' = c
    · subst hne
      exact hfresh hc'
    · exact (hcollected c' hne).trans (h.fresh c' (hctx c' hne ▸ hc'))

theorem held_live {b : Books} {c : ℕ} {a : SvcCli} (hc : b.talk.st.svc.ctx c = .live a) (p : Place) :
    b.held (c, p) = a.held c (b.talk.said c) (b.collected c) p := by simp [held, hc]

theorem held_gone {b : Books} {c : ℕ} (hc : (b.talk.st.svc.ctx c).isLive = false) (p : Place) : b.held (c, p) = none := by
  unfold held
  cases h : b.talk.st.svc.ctx c with
  | live a =>
    rw [h] at hc
    cases hc
  | unallocated | freed => simp

/-- what a session that a step leaves there holds -/
theorem held_after {b : Books} {o : Op} {c : ℕ} {a : SvcCli} (hc : (Cli.step b.talk.st o).svc.ctx c = .live a) (p : Place) :
    (b.step o).held (c, p) = a.held c (b.talk.learn o c) (b.learn o c) p := held_live (b := b.step o) hc p

/-- a step that releases nothing and takes nothing -/
theorem Inv.keep {b : Books} (h : b.Inv) {o : Op} (c : ℕ) (hl : b.Legal o)
    (hnext : b.talk.st.svc.heap.next ≤ (Cli.step b.talk.st o).svc.heap.next)
    (hfrees : (Cli.step b.talk.st o).svc.heap.frees = b.talk.st.svc.heap.frees)
    (hctx : ∀ c', c' ≠ c → (Cli.step b.talk.st o).svc.ctx c' = b.talk.st.svc.ctx c')
    (hsaid : ∀ c', c' ≠ c → b.talk.learn o c' = b.talk.said c') (hcollected : b.learn o = b.collected)
    (hold : ∀ p blk, (b.step o).held (c, p) = some blk → b.held (c, p) = some blk)
    (hsettled : ∀ a', (Cli.step b.talk.st o).svc.ctx c = .live a' → ∃ a, b.talk.st.svc.ctx c = .live a ∧
      (a.cliThreadStatus = .free → a'.cliThreadStatus = .free) ∧ a'.requestString = a.requestString)
    (hfresh : (Cli.step b.talk.st o).svc.ctx c = .unallocated → b.talk.st.svc.ctx c = .unallocated) : (b.step o).Inv := by
  refine h.touch c hl [] List.nodup_nil hnext (by simpa using hfrees) hctx hsaid (fun _ _ => by rw [hcollected])
    (fun p hp => by cases hp) (fun p blk hp => .inl (hold p blk hp)) (fun p p' blk hle hp _ => ?_) (fun a' hc' hcol => ?_)
    fun hc' => ?_
  · exact absurd (h.custody.live _ _ (hold p blk hp)).1 (not_lt.2 hle)
  · obtain ⟨a, hc, hst, hrequest⟩ := hsettled a' hc'
    rw [hcollected] at hcol
    obtain ⟨hfree, hmem⟩ := h.settled c a hc hcol
    exact ⟨hst hfree, fun blk hblk => hfrees ▸ hmem blk (hrequest ▸ hblk)⟩
  · rw [hcollected]
    exact h.fresh c (hfresh hc')

/-- a step that leaves the service alone, and what the users have left -/
theorem Inv.idle {b : Books} (h : b.Inv) {o : Op} (c : ℕ) (hl : b.Legal o)
    (hheap : (Cli.step b.talk.st o).svc.heap = b.talk.st.svc.heap) (hctx : (Cli.step b.talk.st o).svc.ctx = b.talk.st.svc.ctx)
    (hothers : ∀ c', c' ≠ c → b.talk.learn o c' = b.talk.said c')
    (hleft : (b.talk.learn o c).left = (b.talk.said c).left) (hcollected : b.learn o = b.collected) : (b.step o).Inv := by
  refine h.keep c hl (by rw [hheap]) (by rw [hheap]) (fun _ _ => by rw [hctx]) hothers hcollected
    (fun p blk hp => ?_) (fun a hc => ⟨a, hctx ▸ hc, id, rfl⟩) fun hc => hctx ▸ hc
  cases hc : b.talk.st.svc.ctx c with
  | live a =>
    rw [held_after (hctx ▸ hc), hcollected] at hp
    rw [held_live hc]
    cases p <;> simpa only [SvcCli.held, hleft] using hp
  | unallocated | freed =>
    rw [held_gone (b := b.step o) (by show ((Cli.step b.talk.st o).svc.ctx c).isLive = false; rw [hctx, hc]; rfl)] at hp
    cases hp

/-- a step that touches no session -/
theorem Inv.same {b : Books} (h : b.Inv) {o : Op} (hl : b.Legal o)
    (hheap : (Cli.step b.talk.st o).svc.heap = b.talk.st.svc.heap) (hctx : (Cli.step b.talk.st o).svc.ctx = b.talk.st.svc.ctx)
    (hsaid : b.talk.learn o = b.talk.said) (hcollected : b.learn o = b.collected) : (b.step o).Inv :=
  h.idle 0 hl hheap hctx (fun _ _ => by rw [hsaid]) (by rw [hsaid]) hcollected

/-- the first request of a session -/
theorem Inv.open {b : Books} (h : b.Inv) {r : RequestReq} {bytes : List UInt8} (hbytes : r.buffer = some bytes) (hne : bytes ≠ [])
    (hu : r.userContext = none) (contextOk ok : Bool) (hl : b.Legal (.request r contextOk ok)) :
    (b.step (.request r contextOk ok)).Inv := by
  have hst : (Cli.step b.talk.st (.request r contextOk ok)).svc = (processCliRequest r contextOk ok b.talk.st.svc).1 := rfl
  have hcollected : b.learn (.request r contextOk ok) = b.collected := by simp [learn, hu, Svc.session]
  have hnew := request_new contextOk ok (s := b.talk.st.svc) hbytes hne hu
  cases contextOk with
  | false =>
    rw [if_neg (by decide)] at hnew
    exact h.same hl (by rw [hst, hnew]) (by rw [hst, hnew]) (by simp [Talk.learn, hu, hnew]) hcollected
  | true =>
    rw [if_pos rfl] at hnew
    have hunallocated := h.talk.fresh _ (le_refl b.talk.st.svc.heap.next)
    have hfresh := h.fresh _ hunallocated
    have hsaid : b.talk.learn (.request r true ok) = Function.update b.talk.said b.talk.st.svc.heap.next
        (Said.nothing.heard (processCliRequest r true ok b.talk.st.svc).2.1 r.moreData) := by
      simp only [Talk.learn, hu, hnew]
    -- the context, and where the first segment is stored its block, are new
    obtain ⟨a', hctx, hnext, hfrees, hhandled, hrequest⟩ : ∃ a',
        (Cli.step b.talk.st (.request r true ok)).svc.ctx =
          Function.update b.talk.st.svc.ctx b.talk.st.svc.heap.next (.live a') ∧
        b.talk.st.svc.heap.next < (Cli.step b.talk.st (.request r true ok)).svc.heap.next ∧
        (Cli.step b.talk.st (.request r true ok)).svc.heap.frees = b.talk.st.svc.heap.frees ∧
        a'.responseHandledInternally = false ∧ ∀ blk, a'.requestString = some blk → blk = b.talk.st.svc.heap.next + 1 ∧
          blk < (Cli.step b.talk.st (.request r true ok)).svc.heap.next := by
      rw [hst, hnew]
      dsimp only
      cases request_books b.talk.st.svc.heap.next (newContext r) bytes r.moreData ok
          { b.talk.st.svc with heap := (b.talk.st.svc.heap.malloc sizeofSvcCli true).2 } with
      | keeps a' _ hctx hheap _ ha' =>
        refine ⟨a', hctx, by rw [hheap]; exact Nat.lt_succ_self _, by rw [hheap]; rfl, by rw [ha']; rfl, fun blk hblk => ?_⟩
        rw [ha'] at hblk
        cases hblk
      | moves a' _ hctx hnext hfrees ha' =>
        refine ⟨a', hctx, by rw [hnext]; exact Nat.lt_succ_of_lt (Nat.lt_succ_self _),
          by rw [hfrees]; exact List.append_nil _, by rw [ha']; rfl, fun blk hblk => ?_⟩
        rw [ha'] at hblk
        obtain rfl := Option.some.inj hblk
        exact ⟨rfl, by rw [hnext]; exact Nat.lt_succ_self _⟩
      | releases a' hprocessed => cases hprocessed.2
    have hlive : (Cli.step b.talk.st (.request r true ok)).svc.ctx b.talk.st.svc.heap.next = .live a' := by
      rw [hctx, Function.update_self]
    have hplaces (p : Place) (blk : ℕ) (hp : (b.step (.request r true ok)).held (b.talk.st.svc.heap.next, p) = some blk) :
        (p = .context ∧ blk = b.talk.st.svc.heap.next) ∨ (p = .request ∧ blk = b.talk.st.svc.heap.next + 1 ∧
          blk < (Cli.step b.talk.st (.request r true ok)).svc.heap.next) := by
      rw [held_after hlive, hcollected, hfresh, hsaid, Function.update_self] at hp
      cases p with
      | context => exact .inl ⟨rfl, (Option.some.inj hp).symm⟩
      | request => exact .inr ⟨rfl, hrequest blk (by simpa [SvcCli.held] using hp)⟩
      | message => simp [SvcCli.held, hhandled] at hp
      | users => simp [SvcCli.held, Said.heard, Said.nothing] at hp
    refine h.touch b.talk.st.svc.heap.next hl [] List.nodup_nil hnext.le (by simpa using hfrees)
      (fun c hc => by rw [hctx, Function.update_of_ne hc]) (fun c hc => by rw [hsaid, Function.update_of_ne hc])
      (fun _ _ => by rw [hcollected]) (fun p hp => by cases hp) (fun p blk hp => .inr ?_) (fun p p' blk _ hp hp' => ?_)
      (fun _ _ hcol => ?_) fun hc => ?_
    · rcases hplaces p blk hp with ⟨-, rfl⟩ | ⟨-, rfl, hlt⟩
      · exact ⟨le_rfl, hnext⟩
      · exact ⟨Nat.le_succ _, hlt⟩
    · rcases hplaces p blk hp with ⟨rfl, hblk⟩ | ⟨rfl, hblk, -⟩ <;>
        rcases hplaces p' blk hp' with ⟨rfl, hblk'⟩ | ⟨rfl, hblk', -⟩
      · rfl
      · omega
      · omega
      · rfl
    · rw [hcollected] at hcol
      exact absurd (hfresh.symm.trans hcol) (by decide)
    · rw [hlive] at hc
      cases hc

/-- a further request of a session that is there -/
theorem Inv.further {b : Books} (h : b.Inv) {r : RequestReq} {bytes : List UInt8} (hbytes : r.buffer = some bytes)
    (hne : bytes ≠ []) {c : ℕ} {a : SvcCli} (hu : b.talk.st.svc.session r.userContext = some (c, a)) (contextOk ok : Bool)
    (hl : b.Legal (.request r contextOk ok)) : (b.step (.request r contextOk ok)).Inv := by
  obtain ⟨huc, hc⟩ := session_some hu
  have hknown := request_known contextOk ok hbytes hne hu
  have hst : (Cli.step b.talk.st (.request r contextOk ok)).svc =
      (requestInContext c { a with moreData := r.moreData } bytes r.moreData ok b.talk.st.svc).1 := by
    rw [show (Cli.step b.talk.st (.request r contextOk ok)).svc = (processCliRequest r contextOk ok b.talk.st.svc).1 from rfl, hknown]
  have hsaid : b.talk.learn (.request r contextOk ok) = Function.update b.talk.said c
      ((b.talk.said c).heard (processCliRequest r contextOk ok b.talk.st.svc).2.1 r.moreData) := by
    simp only [Talk.learn, huc, hknown]
  have hothers (c' : ℕ) (hne : c' ≠ c) : b.talk.learn (.request r contextOk ok) c' = b.talk.said c' := by
    rw [hsaid, Function.update_of_ne hne]
  have hleft : (b.talk.learn (.request r contextOk ok) c).left = (b.talk.said c).left := by
    rw [hsaid, Function.update_self]
    rfl
  have hbefore := held_live hc
  have hbooks := request_books c { a with moreData := r.moreData } bytes r.moreData ok b.talk.st.svc
  rw [← hst] at hbooks
  cases hbooks with
  | keeps a' hnot hctx hheap hfree ha' =>
    have hcollected : b.learn (.request r contextOk ok) = b.collected := by
      simp only [learn, hu]
      rw [if_neg hnot]
    have hlive : (Cli.step b.talk.st (.request r contextOk ok)).svc.ctx c = .live a' := by rw [hctx, Function.update_self]
    refine h.keep c hl (by rw [hheap]) (by rw [hheap]) (fun c' hne => by rw [hctx, Function.update_of_ne hne])
      hothers hcollected (fun p blk hp => ?_) (fun a₂ ha₂ => ⟨a, hc, ?_, ?_⟩) fun hc' => ?_
    · rw [held_after hlive, hcollected, ha'] at hp
      rw [hbefore]
      cases p <;> simpa only [SvcCli.held, hleft] using hp
    · obtain rfl := Cell.live.inj (hlive.symm.trans ha₂)
      exact hfree
    · obtain rfl := Cell.live.inj (hlive.symm.trans ha₂)
      rw [ha']
    · rw [hlive] at hc'
      cases hc'
  | moves a' hidle hctx hnext hfrees ha' =>
    have hcollected : b.learn (.request r contextOk ok) = b.collected := by
      simp only [learn, hu]
      rw [if_neg (by simp [show a.cliThreadStatus = .idle from hidle])]
    have huncollected : b.collected c = false := by
      by_contra hne
      have := (h.settled c a hc (by simpa using hne)).1
      rw [show a.cliThreadStatus = .idle from hidle] at this
      cases this
    have hlive : (Cli.step b.talk.st (.request r contextOk ok)).svc.ctx c = .live a' := by rw [hctx, Function.update_self]
    have hheld (p : Place) : (b.step (.request r contextOk ok)).held (c, p) =
        if p = .request then some b.talk.st.svc.heap.next else b.held (c, p) := by
      rw [held_after hlive, hbefore, ha', hcollected, huncollected]
      cases p <;> simp [SvcCli.held, hleft]
    have hrequest : b.held (c, .request) = a.requestString := by simp [hbefore, SvcCli.held, huncollected]
    refine h.touch c hl [.request] (List.nodup_singleton _) (by rw [hnext]; exact Nat.le_succ _)
      (by rw [hfrees]; dsimp only; rw [← hrequest]; cases hr : b.held (c, .request) <;> simp [hr])
      (fun c' hne => by rw [hctx, Function.update_of_ne hne]) hothers (fun _ _ => by rw [hcollected])
      (fun p hp blk hblk => ?_) (fun p blk hp => ?_) (fun p p' blk hle hp hp' => ?_) (fun a₂ _ hcol => ?_) fun hc' => ?_
    · obtain rfl := List.mem_singleton.1 hp
      rw [hheld, if_pos rfl]
      intro he
      obtain rfl := Option.some.inj he
      exact absurd (h.custody.live _ _ hblk).1 (lt_irrefl _)
    · rw [hheld] at hp
      split_ifs at hp
      · obtain rfl := Option.some.inj hp
        exact .inr ⟨le_rfl, by rw [hnext]; exact Nat.lt_succ_self _⟩
      · exact .inl hp
    · rw [hheld] at hp hp'
      split_ifs at hp hp' with h₁ h₂ h₂
      · exact h₁.trans h₂.symm
      · exact absurd (h.custody.live _ _ hp').1 (not_lt.2 hle)
      · exact absurd (h.custody.live _ _ hp).1 (not_lt.2 hle)
      · exact absurd (h.custody.live _ _ hp).1 (not_lt.2 hle)
    · rw [hcollected, huncollected] at hcol
      cases hcol
    · rw [hlive] at hc'
      cases hc'
  | releases a' hprocessed hctx hnext hfrees hfree hrequest' hhandled hstring =>
    have hcollected : b.learn (.request r contextOk ok) = Function.update b.collected c true := by
      simp only [learn, hu]
      rw [if_pos hprocessed]
    have huncollected : b.collected c = false := by
      by_contra hne
      have := (h.settled c a hc (by simpa using hne)).1
      rw [show a.cliThreadStatus = .requestCbProcessed from hprocessed.2] at this
      cases this
    have hlive : (Cli.step b.talk.st (.request r contextOk ok)).svc.ctx c = .live a' := by rw [hctx, Function.update_self]
    have hheld (p : Place) :
        (b.step (.request r contextOk ok)).held (c, p) = if p = .request then none else b.held (c, p) := by
      rw [held_after hlive, hbefore, hcollected, Function.update_self]
      cases p <;> simp [SvcCli.held, hleft, hhandled, hstring]
    have hrequest : b.held (c, .request) = a.requestString := by simp [hbefore, SvcCli.held, huncollected]
    refine h.touch c hl [.request] (List.nodup_singleton _) (by rw [hnext])
      (by rw [hfrees]; dsimp only; rw [← hrequest]; cases hr : b.held (c, .request) <;> simp [hr])
      (fun c' hne => by rw [hctx, Function.update_of_ne hne]) hothers
      (fun c' hne => by rw [hcollected, Function.update_of_ne hne])
      (fun p hp blk _ => ?_) (fun p blk hp => .inl ?_) (fun p p' blk hle hp _ => ?_) (fun a₂ ha₂ _ => ?_) fun hc' => ?_
    · obtain rfl := List.mem_singleton.1 hp
      rw [hheld, if_pos rfl]
      simp
    · rw [hheld] at hp
      split_ifs at hp
      exact hp
    · rw [hheld] at hp
      split_ifs at hp
      exact absurd (h.custody.live _ _ hp).1 (not_lt.2 hle)
    · obtain rfl := Cell.live.inj (hlive.symm.trans ha₂)
      rw [hfrees, hrequest']
      exact ⟨hfree, fun blk hblk => List.mem_append_right _ (Option.mem_toList.2 hblk)⟩
    · rw [hlive] at hc'
      cases hc'

theorem Inv.request {b : Books} (h : b.Inv) (r : RequestReq) (contextOk ok : Bool) (hl : b.Legal (.request r contextOk ok)) :
    (b.step (.request r contextOk ok)).Inv := by
  obtain ⟨bytes, hbytes, hne⟩ : ∃ bytes, r.buffer = some bytes ∧ bytes ≠ [] := by
    cases hb : r.buffer with
    | none => exact absurd hl.1 (by simp [hb])
    | some bytes => exact ⟨bytes, rfl, by simpa [hb] using hl.1⟩
  cases hu : r.userContext with
  | none => exact h.open hbytes hne hu contextOk ok hl
  | some c =>
    rcases Talk.session_none_or b.talk.st.svc c with hnone | ⟨a, ha⟩
    · have hst : (Cli.step b.talk.st (.request r contextOk ok)).svc = b.talk.st.svc := by
        rw [show (Cli.step b.talk.st (.request r contextOk ok)).svc = (processCliRequest r contextOk ok b.talk.st.svc).1 from rfl,
          request_unknown contextOk ok (s := b.talk.st.svc) hbytes hne hu hnone]
      have hsaid : b.talk.learn (.request r contextOk ok) =
          Function.update b.talk.said c ((b.talk.said c).heard .error r.moreData) := by
        simp only [Talk.learn, hu, request_unknown contextOk ok (s := b.talk.st.svc) hbytes hne hu hnone]
      refine h.idle c hl (by rw [hst]) (by rw [hst]) (fun c' hne => by rw [hsaid, Function.update_of_ne hne]) ?_ ?_
      · rw [hsaid, Function.update_self]
        rfl
      · simp only [learn, hu, hnone]
    · exact h.further hbytes hne (hu ▸ ha) contextOk ok hl

theorem learn_reply_others {b : Books} {r : ReplyReq} {ok : Bool} {c : ℕ} (hu : r.userContext = some c) {c' : ℕ} (hne : c' ≠ c) :
    b.talk.learn (.reply r ok) c' = b.talk.said c' := by
  simp only [Talk.learn, hu]
  exact Function.update_of_ne hne _ _

theorem learn_reply_left (b : Books) (r : ReplyReq) (ok : Bool) (c : ℕ) :
    (b.talk.learn (.reply r ok) c).left = (b.talk.said c).left := by
  simp only [Talk.learn]
  cases r.userContext with
  | none => rfl
  | some c' =>
    by_cases hne : c = c'
    · subst hne
      simp [Said.replied]
    · simp [hne]

theorem Inv.reply {b : Books} (h : b.Inv) (r : ReplyReq) (ok : Bool) (hl : b.Legal (.reply r ok)) :
    (b.step (.reply r ok)).Inv := by
  have hst : (Cli.step b.talk.st (.reply r ok)).svc = (processCliResponse r ok b.talk.st.svc).1 := rfl
  have hleft := learn_reply_left b r ok
  cases hu : b.talk.st.svc.session r.userContext with
  | none =>
    have hsame : (Cli.step b.talk.st (.reply r ok)).svc = b.talk.st.svc := by rw [hst, processCliResponse, hu]
    cases hc : r.userContext with
    | none => exact h.same hl (by rw [hsame]) (by rw [hsame]) (by simp only [Talk.learn, hc]) rfl
    | some c => exact h.idle c hl (by rw [hsame]) (by rw [hsame]) (fun _ => learn_reply_others hc) (hleft c) rfl
  | some q =>
    obtain ⟨c, a⟩ := q
    obtain ⟨huc, hc⟩ := session_some hu
    have hbefore := held_live hc
    have hbooks := reply_books ok hu
    rw [← hst] at hbooks
    cases hbooks with
    | keeps a' hctx hheap ha' =>
      have hlive : (Cli.step b.talk.st (.reply r ok)).svc.ctx c = .live a' := by rw [hctx, Function.update_self]
      refine h.keep c hl (by rw [hheap]) (by rw [hheap]) (fun c' hne => by rw [hctx, Function.update_of_ne hne])
        (fun _ => learn_reply_others huc) rfl (fun p blk hp => ?_) (fun a₂ ha₂ => ⟨a, hc, ?_, ?_⟩) fun hc' => ?_
      · rw [held_after hlive, ha'] at hp
        rw [hbefore]
        dsimp only [learn] at hp
        cases p <;> simpa only [SvcCli.held, hleft] using hp
      · obtain rfl := Cell.live.inj (hlive.symm.trans ha₂)
        rw [ha']
        exact id
      · obtain rfl := Cell.live.inj (hlive.symm.trans ha₂)
        rw [ha']
      · rw [hlive] at hc'
        cases hc'
    | message a' hhandled hctx hnext hfrees hrequest hstatus hhandled' hblock =>
      have hlive : (Cli.step b.talk.st (.reply r ok)).svc.ctx c = .live a' := by rw [hctx, Function.update_self]
      have hheld (p : Place) : (b.step (.reply r ok)).held (c, p) =
          if p = .message then a'.responseStringInfo.block else b.held (c, p) := by
        rw [held_after hlive, hbefore]
        dsimp only [learn]
        cases p <;> simp [SvcCli.held, hleft, hrequest, hhandled']
      refine h.touch c hl [] List.nodup_nil hnext (by simpa using hfrees)
        (fun c' hne => by rw [hctx, Function.update_of_ne hne]) (fun _ => learn_reply_others huc) (fun _ _ => rfl)
        (fun p hp => by cases hp) (fun p blk hp => ?_) (fun p p' blk hle hp hp' => ?_) (fun a₂ ha₂ hcol => ?_) fun hc' => ?_
      · rw [hheld] at hp
        split_ifs at hp
        · exact .inr (hblock blk hp)
        · exact .inl hp
      · rw [hheld] at hp hp'
        split_ifs at hp hp' with h₁ h₂ h₂
        · exact h₁.trans h₂.symm
        · exact absurd (h.custody.live _ _ hp').1 (not_lt.2 hle)
        · exact absurd (h.custody.live _ _ hp).1 (not_lt.2 hle)
        · exact absurd (h.custody.live _ _ hp).1 (not_lt.2 hle)
      · obtain rfl := Cell.live.inj (hlive.symm.trans ha₂)
        obtain ⟨hfree, hmem⟩ := h.settled c a hc hcol
        exact ⟨hstatus.trans hfree, fun blk hblk => by rw [hfrees]; exact hmem blk (hrequest ▸ hblk)⟩
      · rw [hlive] at hc'
        cases hc'

theorem freeSession_books (c : ℕ) (a : SvcCli) (heap : Heap) :
    (freeSession c a heap).next = heap.next ∧ (freeSession c a heap).frees = heap.frees ++
      (if a.responseHandledInternally then a.responseStringInfo.block else none).toList ++ [c] := by
  unfold freeSession
  cases a.responseHandledInternally <;> cases hb : a.responseStringInfo.string <;> simp [Heap.free, StringInfo.block, hb]

/-- the status callback releases a message and the record -/
theorem status_frees {b : Books} {c : ℕ} {a : SvcCli} (hc : b.talk.st.svc.ctx c = .live a) (e : CliError) :
    (freeSession c { a with cliError := e } b.talk.st.svc.heap).frees = b.talk.st.svc.heap.frees ++
      [Place.message, .context].filterMap fun p => b.held (c, p) := by
  rw [(freeSession_books _ _ _).2]
  simp only [held_live hc, SvcCli.held, List.filterMap_cons, List.filterMap_nil]
  cases a.responseHandledInternally <;> cases a.responseStringInfo.block <;> simp

theorem Inv.status {b : Books} (h : b.Inv) (r : StatusReq) : (b.step (.status r)).Inv := by
  have hst : (Cli.step b.talk.st (.status r)).svc = (processCliStatus r b.talk.st.svc).1 := rfl
  cases hu : b.talk.st.svc.session r.userContext with
  | none =>
    have hsame : (Cli.step b.talk.st (.status r)).svc = b.talk.st.svc := by rw [hst, processCliStatus, hu]
    exact h.same trivial (by rw [hsame]) (by rw [hsame]) rfl rfl
  | some q =>
    obtain ⟨c, a⟩ := q
    have hc := (session_some hu).2
    obtain ⟨e, he⟩ : ∃ e, (Cli.step b.talk.st (.status r)).svc = { b.talk.st.svc with
        ctx := Function.update b.talk.st.svc.ctx c (.freed { a with cliError := e })
        heap := freeSession c { a with cliError := e } b.talk.st.svc.heap } :=
      ⟨if a.cliError = .none then r.status.toError else a.cliError, by rw [hst, processCliStatus, hu]⟩
    have hfreed : (Cli.step b.talk.st (.status r)).svc.ctx c = .freed { a with cliError := e } := by
      rw [he]
      exact Function.update_self _ _ _
    have hnone (p : Place) : (b.step (.status r)).held (c, p) = none :=
      held_gone (b := b.step (.status r))
        (by show ((Cli.step b.talk.st (.status r)).svc.ctx c).isLive = false; rw [hfreed]; rfl) p
    refine h.touch c trivial [.message, .context] (by decide) (by rw [he, (freeSession_books _ _ _).1])
      (by rw [he]; exact status_frees hc e) (fun c' hne => by rw [he]; exact Function.update_of_ne hne _ _)
      (fun _ _ => rfl) (fun _ _ => rfl) (fun p _ blk _ => by rw [hnone]; simp) (fun p blk hp => ?_) (fun p p' blk _ hp _ => ?_)
      (fun a₂ ha₂ _ => ?_) fun hc' => ?_
    · rw [hnone] at hp
      cases hp
    · rw [hnone] at hp
      cases hp
    · rw [hfreed] at ha₂
      cases ha₂
    · rw [hfreed] at hc'
      cases hc'

theorem storeOutput_books (c : ℕ) (output : Option Str) (s : Svc) :
    s.heap.next ≤ (storeOutput c output s).heap.next ∧ (storeOutput c output s).heap.frees = s.heap.frees ∧
      (∀ c', c' ≠ c → (storeOutput c output s).ctx c' = s.ctx c') := by
  cases output with
  | none => exact ⟨le_rfl, rfl, fun _ _ => rfl⟩
  | some text => exact ⟨Nat.le_succ _, rfl, fun c' hne => Function.update_of_ne hne _ _⟩

theorem storeOutput_places {s : Svc} {c : ℕ} {a : SvcCli} (output : Option Str) (hc : s.ctx c = .live a) :
    ∃ a', (storeOutput c output s).ctx c = .live a' ∧ a'.cliThreadStatus = a.cliThreadStatus ∧
      a'.requestString = a.requestString ∧ a'.responseHandledInternally = a.responseHandledInternally := by
  cases output with
  | none => exact ⟨a, hc, rfl, rfl, rfl⟩
  | some text =>
    exact ⟨{ a with responseStringInfo := if a.responseRequired then { a.responseStringInfo with string := some ⟨s.heap.next, 0⟩ }
                      else a.responseStringInfo }, by simp [storeOutput, hc, Cell.map], rfl, rfl, rfl⟩

theorem Inv.ret {b : Books} (h : b.Inv) (output : Option Str) : (b.step (.ret output)).Inv := by
  cases hpc : b.talk.st.pc with
  | calling c =>
    have hst : (Cli.step b.talk.st (.ret output)).svc = storeOutput c output b.talk.st.svc := by
      simp [Cli.step, stepThread, hpc]
    obtain ⟨hnext, hfrees, hctx⟩ := storeOutput_books c output b.talk.st.svc
    rw [← hst] at hnext hfrees hctx
    have hsaid : b.talk.learn (.ret output) = Function.update b.talk.said c
        { b.talk.said c with left := (b.talk.st.svc.leaves c output).or (b.talk.said c).left } := by
      simp [Talk.learn, hpc]
    have hothers (c' : ℕ) (hne : c' ≠ c) : b.talk.learn (.ret output) c' = b.talk.said c' := by
      rw [hsaid, Function.update_of_ne hne]
    cases hc : b.talk.st.svc.ctx c with
    | unallocated | freed a =>
      have hdead : ((Cli.step b.talk.st (.ret output)).svc.ctx c).isLive = false := by
        rw [hst]
        cases output <;> simp [storeOutput, hc, Cell.map, Cell.isLive]
      refine h.keep c trivial hnext hfrees hctx hothers rfl (fun p blk hp => ?_) (fun a' ha' => ?_) fun hc' => ?_
      · rw [held_gone (b := b.step (.ret output)) hdead] at hp
        cases hp
      · rw [ha'] at hdead
        cases hdead
      · first
          | exact hc
          | rw [hst] at hc'
            cases output <;> simp [storeOutput, hc, Cell.map] at hc'
    | live a =>
      have hbefore := held_live hc
      have hp := h.talk.tracked c
      rw [hc] at hp
      have hhandled := (hp.record (hp.unasked (hp.queued (queued_of_grip h.talk.grip hpc hc))).2).1
      obtain ⟨a', hlive, hstatus, hrequest, hhandled'⟩ := storeOutput_places output hc
      rw [← hst] at hlive
      have hheld (p : Place) (hne : p ≠ .users) : (b.step (.ret output)).held (c, p) = b.held (c, p) := by
        rw [held_after hlive, hbefore]
        cases p <;> simp [SvcCli.held, learn, hrequest, hhandled', hhandled] at hne ⊢
      have husers : (b.step (.ret output)).held (c, .users) =
          ((b.talk.st.svc.leaves c output).or (b.talk.said c).left).map fun l => l.string.block := by
        rw [held_after hlive]
        simp only [SvcCli.held, hsaid, Function.update_self]
      have hblock (blk : ℕ) (hblk : (b.step (.ret output)).held (c, .users) = some blk) : b.held (c, .users) = some blk ∨
          b.talk.st.svc.heap.next ≤ blk ∧ blk < (storeOutput c output b.talk.st.svc).heap.next := by
        rw [husers] at hblk
        rw [hbefore]
        cases output with
        | none =>
          simp only [Svc.leaves, Option.none_or] at hblk
          exact .inl hblk
        | some text =>
          cases hreq : a.responseRequired with
          | false =>
            simp only [Svc.leaves, hc, hreq, Bool.false_eq_true, if_false, Option.none_or] at hblk
            exact .inl hblk
          | true =>
            simp only [Svc.leaves, hc, hreq, if_true, Option.some_or, Option.map_some] at hblk
            obtain rfl := Option.some.inj hblk
            exact .inr ⟨le_rfl, Nat.lt_succ_self _⟩
      refine h.touch c trivial [] List.nodup_nil hnext (by simpa using hfrees) hctx hothers (fun _ _ => rfl)
        (fun p hp => by cases hp) (fun p blk hblk => ?_) (fun p p' blk hle hblk hblk' => ?_) (fun a₂ ha₂ hcol => ?_) fun hc' => ?_
      · by_cases hne : p = .users
        · subst hne
          exact hst ▸ hblock blk hblk
        · exact .inl (hheld p hne ▸ hblk)
      · have hself (p : Place) (hblk : (b.step (.ret output)).held (c, p) = some blk) : p = .users := by
          by_contra hne
          exact absurd (h.custody.live _ _ (hheld p hne ▸ hblk)).1 (not_lt.2 hle)
        exact (hself p hblk).trans (hself p' hblk').symm
      · obtain rfl := Cell.live.inj (hlive.symm.trans ha₂)
        obtain ⟨hfree, hmem⟩ := h.settled c a hc hcol
        exact ⟨hstatus.trans hfree, fun blk hblk => hfrees ▸ hmem blk (hrequest ▸ hblk)⟩
      · rw [hlive] at hc'
        cases hc'
  | _ =>
    exact h.same trivial (by simp [Cli.step, stepThread, hpc]) (by simp [Cli.step, stepThread, hpc])
      (by simp [Talk.learn, hpc]) rfl

theorem Inv.settle {b : Books} (h : b.Inv) : (b.step .settle).Inv := by
  cases hpc : b.talk.st.pc with
  | returned c =>
    have hst : (Cli.step b.talk.st .settle).svc = { b.talk.st.svc with
        ctx := Function.update b.talk.st.svc.ctx c ((b.talk.st.svc.ctx c).map SvcCli.settle) } := by
      simp [Cli.step, stepThread, hpc]
    have hself : (Cli.step b.talk.st .settle).svc.ctx c = (b.talk.st.svc.ctx c).map SvcCli.settle := by
      rw [hst]
      exact Function.update_self _ _ _
    have hsame (a : SvcCli) : a.settle = { a with cliThreadStatus := a.settle.cliThreadStatus } := by
      unfold SvcCli.settle
      split_ifs <;> rfl
    refine h.keep c trivial (by rw [hst]) (by rw [hst]) (fun c' hne => by rw [hst]; exact Function.update_of_ne hne _ _)
      (fun _ _ => rfl) rfl (fun p blk hp => ?_) (fun a' ha' => ?_) fun hc' => ?_
    · cases hc : b.talk.st.svc.ctx c with
      | live a =>
        rw [hc] at hself
        rw [held_after hself, hsame a] at hp
        rw [held_live hc]
        cases p <;> exact hp
      | unallocated | freed =>
        rw [held_gone (b := b.step .settle)
          (by show ((Cli.step b.talk.st .settle).svc.ctx c).isLive = false; rw [hself, hc]; rfl)] at hp
        cases hp
    · rw [hself] at ha'
      cases hc : b.talk.st.svc.ctx c with
      | live a =>
        rw [hc] at ha'
        obtain rfl := Cell.live.inj ha'
        refine ⟨a, rfl, fun hfree => ?_, by rw [hsame a]⟩
        rw [SvcCli.settle, if_neg (by rw [hfree]; decide), hfree]
      | unallocated | freed =>
        rw [hc] at ha'
        cases ha'
    · rw [hself] at hc'
      cases hc : b.talk.st.svc.ctx c with
      | unallocated => rfl
      | live a | freed a =>
        rw [hc] at hc'
        cases hc'
  | _ => exact h.same trivial (by simp [Cli.step, stepThread, hpc]) (by simp [Cli.step, stepThread, hpc]) rfl rfl

/-- **One step.** -/
theorem step_inv (b : Books) (o : Op) (h : b.Inv) (hl : b.Legal o) : (b.step o).Inv := by
  cases o with
  | request r contextOk ok => exact h.request r contextOk ok hl
  | reply r ok => exact h.reply r ok hl
  | status r => exact h.status r
  | ret output => exact h.ret output
  | settle => exact h.settle
  | wake | check | call | clear =>
    refine h.same hl ?_ ?_ rfl rfl <;>
    · simp only [Cli.step, stepThread]
      repeat' split
      all_goals rfl

theorem run_inv {b : Books} (h : b.Inv) {ops : List Op} (hl : Along step Legal b ops) : (run step b ops).Inv :=
  Runs.run_inv step_inv h hl

/-! ## What the users have been offered -/

/-- what has been released stays so -/
theorem step_frees (b : Books) (o : Op) : b.talk.st.svc.heap.frees <+: (b.step o).talk.st.svc.heap.frees := by
  show b.talk.st.svc.heap.frees <+: (Cli.step b.talk.st o).svc.heap.frees
  cases o with
  | request r contextOk ok =>
    have hst : (Cli.step b.talk.st (.request r contextOk ok)).svc = (processCliRequest r contextOk ok b.talk.st.svc).1 := rfl
    have hin (s : Svc) (c : ℕ) (a : SvcCli) (bytes : List UInt8) :
        s.heap.frees <+: (requestInContext c a bytes r.moreData ok s).1.heap.frees := by
      cases request_books c a bytes r.moreData ok s with
      | keeps _ _ _ hheap => rw [hheap]
      | moves _ _ _ _ hfrees => exact hfrees ▸ List.prefix_append _ _
      | releases _ _ _ _ hfrees => exact hfrees ▸ List.prefix_append _ _
    rw [hst]
    cases hbytes : r.buffer.getD [] with
    | nil => cases hb : r.buffer <;> simp_all [processCliRequest]
    | cons byte bytes =>
      have hbuffer : r.buffer = some (byte :: bytes) := by
        cases hb : r.buffer with
        | none => simp [hb] at hbytes
        | some l => simpa [hb] using hbytes
      cases hu : r.userContext with
      | none =>
        rw [request_new contextOk ok hbuffer (by simp) hu]
        split_ifs
        · exact hin { b.talk.st.svc with heap := (b.talk.st.svc.heap.malloc sizeofSvcCli true).2 } _ _ _
        · exact List.prefix_refl _
      | some c =>
        rcases Talk.session_none_or b.talk.st.svc c with hnone | ⟨a, ha⟩
        · rw [request_unknown contextOk ok hbuffer (by simp) hu hnone]
        · rw [request_known contextOk ok hbuffer (by simp) (hu ▸ ha)]
          exact hin _ _ _ _
  | reply r ok =>
    simp only [Cli.step]
    cases hu : b.talk.st.svc.session r.userContext with
    | none => simp [processCliResponse, hu]
    | some q =>
      cases reply_books ok hu with
      | keeps _ _ hheap => rw [hheap]
      | message _ _ _ _ hfrees => rw [hfrees]
  | status r =>
    simp only [Cli.step, processCliStatus]
    split
    · exact List.prefix_refl _
    · rw [(freeSession_books _ _ _).2, List.append_assoc]
      exact List.prefix_append _ _
  | ret output =>
    cases hpc : b.talk.st.pc with
    | calling c => simp [Cli.step, stepThread, hpc, (storeOutput_books c output _).2.1]
    | _ => simp [Cli.step, stepThread, hpc]
  | settle | wake | check | call | clear =>
    simp only [Cli.step, stepThread]
    repeat' split
    all_goals exact List.prefix_refl _

theorem run_frees (b : Books) (ops : List Op) : b.talk.st.svc.heap.frees <+: (run step b ops).talk.st.svc.heap.frees :=
  run_inv_all (I := fun b' => b.talk.st.svc.heap.frees <+: b'.talk.st.svc.heap.frees) (fun b' o h => h.trans (step_frees b' o))
    (List.prefix_refl _) ops

/-- the call of the user's finished callback for session c that a step makes -/
def offers (c : ℕ) (b : Books) : Op → Option FinishedCall
  | .status r => if r.userContext = some c then (processCliStatus r b.talk.st.svc).2.2 else none
  | _ => none

/-- the calls of the user's finished callback for session c in a run -/
def offered (c : ℕ) (b : Books) (ops : List Op) : List FinishedCall := (steps step b ops).filterMap fun p => p.1.offers c p.2

/-- where the user's finished callback has been called, the record is released -/
theorem offers_frees {b : Books} {c : ℕ} {o : Op} {k : FinishedCall} (hk : b.offers c o = some k) :
    c ∈ (b.step o).talk.st.svc.heap.frees := by
  cases o with
  | status r =>
    simp only [offers] at hk
    split_ifs at hk with hu
    show c ∈ (processCliStatus r b.talk.st.svc).1.heap.frees
    unfold processCliStatus at hk ⊢
    split at hk
    · cases hk
    · rename_i c' a hs
      obtain rfl := Option.some.inj (hu.symm.trans (session_some hs).1)
      simp [(freeSession_books _ _ _).2]
  | _ => cases hk

/-- the user has not been offered anything of a session that is there -/
theorem offered_live {b : Books} (h : b.Inv) {ops : List Op} (hl : Along step Legal b ops) {c : ℕ} {a : SvcCli}
    (hc : (run step b ops).talk.st.svc.ctx c = .live a) : offered c b ops = [] := by
  induction ops generalizing b with
  | nil => rfl
  | cons o ops ih =>
    have hrest : offered c (b.step o) ops = [] := ih (step_inv b o h hl.1) hl.2 hc
    cases hk : b.offers c o with
    | none => simpa [offered, hk] using hrest
    | some k =>
      have hfreed := (run_frees (b.step o) ops).subset (offers_frees hk)
      have hheld : (run step b (o :: ops)).held (c, .context) = some c := held_live hc _
      exact absurd hfreed ((run_inv h hl).custody.live _ _ hheld).2

/-! ## The end of a session -/

/-- what is to have become of a session's blocks when its status callback has returned; frees is what has been released then,
calls the calls of the user's finished callback for the session -/
structure Released (b : Books) (c : ℕ) (a : SvcCli) (frees : List ℕ) (calls : List FinishedCall) : Prop where
  request : ∀ blk ∈ a.requestString, frees.count blk = 1
  message : a.responseHandledInternally = true → ∀ blk ∈ a.responseStringInfo.block, frees.count blk = 1
  context : frees.count c = 1
  users : ∀ l ∈ (b.talk.said c).left, calls.map FinishedCall.output = [some l.string] ∧ l.string.block ∉ frees

/-- the command was never begun or has been collected; where the user has left a string, that has not been replaced by a
message, and there is a finished callback -/
structure Orderly (b : Books) (c : ℕ) (a : SvcCli) : Prop where
  request : a.requestString = none ∨ b.collected c = true
  users : (b.talk.said c).left ≠ none →
    b.talk.st.svc.cliSupported = true ∧ b.talk.st.svc.hasFinishedCb = true ∧ a.responseHandledInternally = false

/-- **The status callback.** -/
theorem Inv.released_iff {b : Books} (h : b.Inv) {r : StatusReq} {c : ℕ} {a : SvcCli}
    (hu : b.talk.st.svc.session r.userContext = some (c, a)) :
    b.Released c a (processCliStatus r b.talk.st.svc).1.heap.frees (processCliStatus r b.talk.st.svc).2.2.toList ↔
      b.Orderly c a := by
  obtain ⟨huc, hc⟩ := session_some hu
  have hheld := held_live hc
  have hp := h.talk.tracked c
  rw [hc] at hp
  obtain ⟨e, he⟩ : ∃ e, processCliStatus r b.talk.st.svc = ({ b.talk.st.svc with
      ctx := Function.update b.talk.st.svc.ctx c (.freed { a with cliError := e })
      heap := freeSession c { a with cliError := e } b.talk.st.svc.heap }, .cont,
      finishedCall b.talk.st.svc { a with cliError := e }) :=
    ⟨if a.cliError = .none then r.status.toError else a.cliError, by rw [processCliStatus, hu]⟩
  rw [he]
  dsimp only
  have hmap : ([Place.message, .context].map fun p => (c, p)).filterMap b.held =
      [Place.message, .context].filterMap fun p => b.held (c, p) := by
    rw [List.filterMap_map]
    rfl
  have hplaces : ([Place.message, .context].map fun p => (c, p)).Nodup := by simp
  rw [status_frees hc e, ← hmap]
  have hreleased {p : Place} {blk : ℕ} (hin : p = .message ∨ p = .context) (hblk : b.held (c, p) = some blk) :
      (b.talk.st.svc.heap.frees ++ ([Place.message, .context].map fun p => (c, p)).filterMap b.held).count blk = 1 :=
    h.custody.count_released hplaces (by rcases hin with rfl | rfl <;> simp) hblk
  have hkept {p : Place} {blk : ℕ} (hin : p = .request ∨ p = .users) (hblk : b.held (c, p) = some blk) :
      blk ∉ b.talk.st.svc.heap.frees ++ ([Place.message, .context].map fun p => (c, p)).filterMap b.held :=
    h.custody.not_released (by rcases hin with rfl | rfl <;> simp) hblk
  constructor
  · intro hr
    refine ⟨?_, fun hleft => ?_⟩
    · by_contra hnot
      push Not at hnot
      obtain ⟨blk, hblk⟩ := Option.ne_none_iff_exists'.1 hnot.1
      have hcol : b.collected c = false := by simpa using hnot.2
      have hone := hr.request blk hblk
      rw [List.count_eq_zero_of_not_mem (hkept (.inl rfl) (by simp [hheld, SvcCli.held, hcol, hblk]))] at hone
      cases hone
    · obtain ⟨l, hl⟩ := Option.ne_none_iff_exists'.1 hleft
      have hstring := (hr.users l hl).1
      unfold finishedCall at hstring
      split at hstring
      · rename_i hcb
        refine ⟨hcb.1, hcb.2, ?_⟩
        by_contra hno
        simp [hno] at hstring
      · cases hstring
  · intro ho
    constructor
    case request =>
      intro blk hblk
      rcases ho.request with hnone | hcol
      · rw [hnone] at hblk
        cases hblk
      · exact List.count_eq_one_of_mem (h.custody.nodup_released hplaces)
          (List.mem_append_left _ ((h.settled c a hc hcol).2 blk hblk))
    case message =>
      exact fun hhandled blk hblk => hreleased (.inl rfl) (by rw [hheld, SvcCli.held, if_pos hhandled]; exact hblk)
    case context => exact hreleased (.inr rfl) (hheld _)
    case users =>
      intro l hl
      obtain ⟨hsup, hcb, hhandled⟩ := ho.users (by rw [Option.mem_def.1 hl]; simp)
      have htried : (b.talk.said c).tried = [] := by
        by_contra hne
        exact absurd (hhandled.symm.trans (hp.handled hne)) (by decide)
      refine ⟨?_, hkept (.inr rfl) ?_⟩
      · obtain ⟨k, hk⟩ : ∃ k, finishedCall b.talk.st.svc { a with cliError := e } = some k := by
          simp [finishedCall, hsup, hcb]
        rw [hk, Option.toList_some, List.map_singleton, hp.given_back htried hk, Option.mem_def.1 hl]
        rfl
      · rw [hheld, SvcCli.held, Option.mem_def.1 hl]
        rfl

end Books

end CcApi.Cli
