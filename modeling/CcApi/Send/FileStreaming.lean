/-
The data of a send of a file (`ccapi_process_send_data_request`, `ccapi_read_file`, ASSERT_MSG of `ccapi_definitions.h`).

The handler asks the platform for as many bytes as the connector has room for, or as are left of the size that the file had
at the start. The platform may deliver fewer. The handler reports the number it asked for; that the platform delivered as
many is an assertion, which a build without CCIMP_DEBUG_ENABLED leaves out. But such a build also leaves out the release of
the file-system lock: the question for the file's size keeps it, and the opening of the file waits for it.

- `readFile`: the read with its loop, over a list of the platform's answers.
- `read_callback`: to the send's record this is the data callback of `Send.Model`.
- `release_unopened`: without the assertions no file is opened, and the connector gets none to read.
- `honest_replies`: so every callback that answers continue reports what the platform delivered, in every build.

A read to which the platform never answers but busy does not return. Other users of the lock that keep it only cut a run
short.
-/
import CcApi.Send.Streaming

namespace CcApi.Send

open Lib Lib.Runs

/-! ## The read -/

/-- what the platform does in a read of the file -/
structure FileRead where
  lock : FileLock
  /-- the answers of `ccimp_fs_file_read`, in order, with the bytes it has put into the buffer -/
  answers : List (CcimpStatus × Str)
deriving DecidableEq, Repr

/-- the loop of `ccapi_read_file`; `none` when it has not ended with the answers -/
def readLoop : List (CcimpStatus × Str) → Option (CcimpStatus × Str)
  | [] => none
  | (.busy, _) :: answers => readLoop answers
  | answer :: _ => some answer

/-- `ccapi_read_file`, with the lock free or not: its status, and the bytes read; `none` when it does not return -/
def readFile (debug free : Bool) (env : FileRead) : Option (CcimpStatus × Str) :=
  if env.lock.acquire ≠ .ok then some (env.lock.acquire, [])
  else if ¬ free then none
  else
    match readLoop env.answers with
    | none => none
    -- the release stands in an assertion
    | some (status, bytes) => if debug ∧ env.lock.release ≠ .ok then none else some (status, bytes)

/-- a data callback that answers continue -/
structure FileReply where
  bytesUsed : ℕ
  moreData : Bool
  /-- the connector's buffer -/
  buffer : Str
  /-- what the platform has put into it -/
  read : Str
deriving DecidableEq, Repr

/-- `ccapi_process_send_data_request` for a file: the reply if it answers continue, and the record; `none` when it does not
return -/
def sendFileData (debug free : Bool) (avail : ℕ) (buffer : Str) (env : FileRead) (c : SvcSend) :
    Option (Option FileReply × SvcSend) :=
  match readFile debug free env with
  | none => none
  | some (status, bytes) =>
    if status ≠ .ok then some (none, { c with requestError := .accessingFile })
    else if debug ∧ c.bytesExpected avail ≠ bytes.length then none
    else
      let remaining := sizeSub c.bytesRemaining (c.bytesExpected avail)
      some (some { bytesUsed := c.bytesExpected avail, moreData := decide (0 < remaining),
                   buffer := bytes ++ buffer.drop bytes.length, read := bytes },
        { c with bytesRemaining := remaining })

/-- the number reported is that of the bytes read, and the connector gets these bytes -/
def FileReply.Honest (r : FileReply) : Prop := r.bytesUsed = r.read.length ∧ r.buffer.take r.bytesUsed = r.read

/-! ## The send -/

/-- a send, the file-system lock, and whether the program has stopped in an assertion or a read -/
structure Filing where
  stuck : Bool
  fileLockFree : Bool
  txn : Transaction

inductive FileOp where
  /-- a data callback with a buffer of avail bytes -/
  | read (avail : ℕ) (buffer : Str) (env : FileRead)
  /-- a step of the calling thread, or another callback -/
  | other (o : Op)

/-- the record, when a data callback finds a file to read -/
def Filing.served (s : Filing) : Option SvcSend :=
  if s.stuck = false ∧ s.txn.serves .file then s.txn.svcSend.filter SvcSend.sendingFile else none

/-- the reply of a data callback, if there is one -/
def Filing.reply (debug : Bool) (s : Filing) : FileOp → Option FileReply
  | .read avail buffer env =>
    match s.served with
    | some c => (sendFileData debug s.fileLockFree avail buffer env c).bind Prod.fst
    | none => none
  | .other _ => none

def Filing.step (debug : Bool) (s : Filing) : FileOp → Filing
  | .read avail buffer env =>
    match s.served with
    | some c =>
      match sendFileData debug s.fileLockFree avail buffer env c with
      | some (_, c') =>
        { s with
          fileLockFree := s.fileLockFree && (debug || env.lock.acquire ≠ .ok)
          txn := { s.txn with context := .live (.send c') } }
      | none => { s with stuck := true }
    | none => s
  | .other (.callback (.sendDataRequest _ _)) => s
  | .other o =>
    if s.stuck ∨ s.txn.locksFiles o ∧ ¬ s.fileLockFree then s
    else if debug ∧ s.txn.asserts o then { s with stuck := true }
    else { s with fileLockFree := s.txn.fileLockAfter debug o s.fileLockFree, txn := s.txn.step o }

def Filing.begin (call : Call) : Filing := ⟨false, true, Transaction.begin call⟩

/-! ## What a callback does -/

theorem served_some {s : Filing} {c : SvcSend} (h : s.served = some c) :
    s.stuck = false ∧ s.txn.serves .file ∧ s.txn.context = .live (.send c) ∧ c.sendingFile = true := by
  unfold Filing.served at h
  split_ifs at h with hs
  obtain ⟨hsend, hfile⟩ := Option.filter_eq_some_iff.1 h
  exact ⟨hs.1, hs.2, svcSend_eq_some.1 hsend, hfile⟩

/-- a callback that answers continue has read the file, and has passed the assertion if there is one -/
theorem sendFileData_reply {debug free : Bool} {avail : ℕ} {buffer : Str} {env : FileRead} {c c' : SvcSend} {r : FileReply}
    (h : sendFileData debug free avail buffer env c = some (some r, c')) : r.bytesUsed = c.bytesExpected avail ∧
      r.buffer = r.read ++ buffer.drop r.read.length ∧ (debug = true → c.bytesExpected avail = r.read.length) := by
  unfold sendFileData at h
  split at h
  · cases h
  · split_ifs at h with hstatus hassert
    · cases h
    obtain rfl := Option.some.inj (Prod.mk.inj (Option.some.inj h)).1
    refine ⟨rfl, rfl, fun hdebug => ?_⟩
    by_contra hne
    exact hassert ⟨hdebug, hne⟩

/-- a reply is honest when as many bytes are read as are expected -/
theorem honest_of_reply {debug free : Bool} {avail : ℕ} {buffer : Str} {env : FileRead} {c c' : SvcSend} {r : FileReply}
    (h : sendFileData debug free avail buffer env c = some (some r, c')) :
    r.Honest ↔ r.read.length = c.bytesExpected avail := by
  obtain ⟨hused, hbuffer, -⟩ := sendFileData_reply h
  constructor
  · rintro ⟨hlength, -⟩
    rw [← hlength, hused]
  · intro hlength
    refine ⟨by rw [hused, hlength], ?_⟩
    rw [hused, ← hlength, hbuffer, List.take_left]

/-- **With the assertions** a callback reports what was read, or halts the program. -/
theorem honest_debug (s : Filing) (o : FileOp) (r : FileReply) (h : s.reply true o = some r) : r.Honest := by
  cases o with
  | other o => cases h
  | read avail buffer env =>
    cases hserved : s.served with
    | none => simp [Filing.reply, hserved] at h
    | some c =>
      obtain ⟨c', hreply⟩ : ∃ c', sendFileData true s.fileLockFree avail buffer env c = some (some r, c') := by
        simpa [Filing.reply, hserved, Option.bind_eq_some_iff] using h
      obtain ⟨-, -, hassert⟩ := sendFileData_reply hreply
      exact (honest_of_reply hreply).2 (hassert rfl).symm

/-- to the send's record, and to the lock, this is the data callback of the send's machine -/
theorem read_callback {debug : Bool} {s : Filing} {avail : ℕ} {buffer : Str} {env : FileRead} {c : SvcSend}
    (hserved : s.served = some c) {status : CcimpStatus} {bytes : Str}
    (hread : readFile debug s.fileLockFree env = some (env.lock.status status, bytes))
    (hassert : debug = true → env.lock.status status = .ok → c.bytesExpected avail = bytes.length) :
    s.step debug (.read avail buffer env) =
      let o := Callback.sendDataRequest avail ⟨env.lock, status, bytes.length⟩
      { s with
        fileLockFree := s.txn.fileLockAfter debug (.callback o) s.fileLockFree
        txn := s.txn.callback o } := by
  obtain ⟨-, hserves, hcontext, hfile⟩ := served_some hserved
  have hconcerns : s.txn.action = .accepted ∧
      (Callback.sendDataRequest avail ⟨env.lock, status, bytes.length⟩).concerns s.txn.call.service = true :=
    ⟨hserves.1, by simp [Callback.concerns, hserves.2]⟩
  have hlock : s.txn.fileLockAfter debug (.callback (.sendDataRequest avail ⟨env.lock, status, bytes.length⟩))
      s.fileLockFree = (s.fileLockFree && (debug || env.lock.acquire ≠ .ok)) := by
    simp [Transaction.fileLockAfter, Transaction.locksFiles, hserves.1, hcontext, hfile]
  dsimp only
  rw [callback_eq hconcerns, hlock]
  by_cases hok : env.lock.status status = .ok
  · have hpass : ¬ (debug = true ∧ c.bytesExpected avail ≠ bytes.length) := fun h => h.2 (hassert h.1 hok)
    simp [Filing.step, hserved, sendFileData, hread, hok, hpass, hcontext, Block.update, Callback.apply,
      processSendDataRequest_eq, hfile, Callback.final, Callback.hint, Block.isLive, hserves.1, Read.result]
  · simp [Filing.step, hserved, sendFileData, hread, hok, hcontext, Block.update, Callback.apply,
      processSendDataRequest_eq, hfile, Callback.final, Callback.hint, Block.isLive, hserves.1, Read.result]

/-- a step of the calling thread, or a callback other than for data -/
theorem Filing.step_other (debug : Bool) (s : Filing) (o : Op) : s.step debug (.other o) = s ∨
    (debug = true ∧ s.step debug (.other o) = { s with stuck := true }) ∨
    (¬ (s.txn.locksFiles o = true ∧ ¬ s.fileLockFree = true) ∧ s.step debug (.other o) =
      { s with fileLockFree := s.txn.fileLockAfter debug o s.fileLockFree, txn := s.txn.step o }) := by
  by_cases hrequest : ∃ n read, o = .callback (.sendDataRequest n read)
  · obtain ⟨n, read, rfl⟩ := hrequest
    exact .inl rfl
  · have hstep : s.step debug (.other o) =
        if s.stuck ∨ s.txn.locksFiles o ∧ ¬ s.fileLockFree then s
        else if debug ∧ s.txn.asserts o then { s with stuck := true }
        else { s with fileLockFree := s.txn.fileLockAfter debug o s.fileLockFree, txn := s.txn.step o } := by
      cases o with
      | callback c => cases c <;> first | rfl | exact absurd ⟨_, _, rfl⟩ hrequest
      | _ => rfl
    rw [hstep]
    split_ifs with hstays hassert
    · exact .inl rfl
    · exact .inr (.inl ⟨hassert.1, rfl⟩)
    · exact .inr (.inr ⟨(not_or.1 hstays).2, rfl⟩)

/-! ## A build without the assertions -/

/-- the connector has not been told of the file: it is not open, or the send has failed -/
structure Unopened (s : Filing) : Prop where
  service : s.txn.call.service = .file
  action : s.txn.action = .none
  stage : s.txn.stage.unset = true ∨ s.txn.stage = .fileStatus ∨ s.txn.stage = .fileOpen ∧ s.fileLockFree = false

theorem begin_unopened {call : Call} (h : call.service = .file) : Unopened (Filing.begin call) := ⟨h, rfl, .inl rfl⟩

theorem Unopened.served {s : Filing} (h : Unopened s) : s.served = none := by
  have hnot : ¬ s.txn.serves .file := by simp [Transaction.serves, h.action]
  simp [Filing.served, hnot]

/-- the connector's callbacks come only when it has the action -/
theorem Unopened.callback {s : Filing} (h : Unopened s) (c : Callback) : s.txn.callback c = s.txn := by
  simp [Transaction.callback, h.action]

theorem Unopened.statusRelease {s : Filing} (h : Unopened s) (r : CcimpStatus) : s.txn.statusRelease r = s.txn := by
  simp [Transaction.statusRelease, h.action]

/-- in front of the file's status, or on the way out -/
theorem api_fileStatus (a : Answer) {t : Transaction} (hfile : t.call.service = .file) (h : t.stage.unset = true) :
    (t.api a).stage.unset = true ∨ (t.api a).stage = .fileStatus := by
  unfold Transaction.api
  cases hs : t.stage with
  | checkargs =>
    dsimp only
    split <;> exact .inl rfl
  | malloc =>
    dsimp only
    split <;> exact .inl rfl
  | lockCreate =>
    dsimp only
    split
    · exact .inr (by rw [hfile]; rfl)
    · exact .inl rfl
  | lockDestroy | fileClose | free | collectionRelease => exact .inl rfl
  | returned => exact .inl (by rw [hs]; rfl)
  | _ => simp [hs, Stage.unset] at h

/-- the calling thread, where it does not wait for the lock -/
theorem Unopened.api {s : Filing} (h : Unopened s) {a : Answer}
    (hwaits : ¬ (s.txn.locksFiles (.api a) = true ∧ ¬ s.fileLockFree = true)) :
    Unopened { s with fileLockFree := s.txn.fileLockAfter false (.api a) s.fileLockFree, txn := s.txn.api a } := by
  have hinitiate : s.txn.stage ≠ .initiate := by
    intro hi
    rcases h.stage with hs | hs | ⟨hs, -⟩ <;> simp [hi, Stage.unset] at hs
  refine ⟨(congrArg Call.service (api_call a s.txn)).trans h.service, (api_action a hinitiate).trans h.action, ?_⟩
  dsimp only
  rcases h.stage with hs | hs | ⟨hs, hfree⟩
  · exact (api_fileStatus a h.service hs).imp_right .inl
  · -- the status keeps the lock
    by_cases hok : a.fileResult = .ok ∧ a.fileSize.isSome = true
    · have hacquire : a.fileLock.acquire = .ok := by
        by_contra hne
        have hfail := hok.1
        rw [Answer.fileResult, FileLock.status, if_neg hne] at hfail
        exact hne hfail
      obtain ⟨size, hsize⟩ := Option.isSome_iff_exists.1 hok.2
      refine .inr (.inr ⟨by simp [Transaction.api, hs, hok.1, hsize], ?_⟩)
      simp [Transaction.fileLockAfter, Transaction.locksFiles, hs, hacquire]
    · have hfail : s.txn.api a = s.txn.fail .notAFile := by
        simp only [Transaction.api, hs]
        split
        · exact absurd ⟨‹_›, by simp [*]⟩ hok
        · rfl
      rw [hfail]
      exact .inl rfl
  · -- the opening waits for the lock, unless its acquire fails
    have hacquire : a.fileLock.acquire ≠ .ok := by
      intro hacquire
      exact hwaits ⟨by simp [Transaction.locksFiles, hs, hacquire], by simp [hfree]⟩
    have hfail : s.txn.api a = s.txn.fail .accessingFile := by
      have hne : a.fileResult ≠ .ok := by
        rw [Answer.fileResult, FileLock.status, if_neg hacquire]
        exact hacquire
      simp [Transaction.api, hs, hne]
    rw [hfail]
    exact .inl rfl

/-- the lock may be taken in between -/
theorem Unopened.stay {s : Filing} (h : Unopened s) (o : Op) :
    Unopened { s with fileLockFree := s.txn.fileLockAfter false o s.fileLockFree } := by
  refine ⟨h.service, h.action, h.stage.imp_right (Or.imp_right fun hopen => ⟨hopen.1, ?_⟩)⟩
  simp [Transaction.fileLockAfter, hopen.2]

theorem unopened_step (s : Filing) (o : FileOp) (h : Unopened s) : Unopened (s.step false o) := by
  cases o with
  | read avail buffer env =>
    simp only [Filing.step, h.served]
    exact h
  | other o =>
    rcases s.step_other false o with hstep | ⟨hdebug, -⟩ | ⟨hwaits, hstep⟩
    · rwa [hstep]
    · cases hdebug
    · rw [hstep]
      cases o with
      | api a => exact h.api hwaits
      | callback c =>
        rw [show s.txn.step (.callback c) = s.txn from h.callback c]
        exact h.stay _
      | statusRelease r =>
        rw [show s.txn.step (.statusRelease r) = s.txn from h.statusRelease r]
        exact h.stay _

/-- **No file is opened** without the assertions: the connector never gets one to read. -/
theorem release_unopened {call : Call} (hfile : call.service = .file) (ops : List FileOp) :
    Unopened (run (Filing.step false) (Filing.begin call) ops) :=
  run_inv_all unopened_step (begin_unopened hfile) ops

/-! ## Main results -/

/-- what a send keeps: without the assertions it sends no file, or has none open -/
def Sealed (debug : Bool) (s : Filing) : Prop := debug = true ∨ s.txn.call.service ≠ .file ∨ Unopened s

theorem Filing.step_call (debug : Bool) (s : Filing) (o : FileOp) : (s.step debug o).txn.call = s.txn.call := by
  cases o with
  | read avail buffer env =>
    simp only [Filing.step]
    cases s.served with
    | none => rfl
    | some c =>
      dsimp only
      cases sendFileData debug s.fileLockFree avail buffer env c <;> rfl
  | other o =>
    rcases s.step_other debug o with hstep | ⟨-, hstep⟩ | ⟨-, hstep⟩ <;> rw [hstep]
    exact Send.step_call s.txn o

theorem sealed_step {debug : Bool} (s : Filing) (o : FileOp) (h : Sealed debug s) : Sealed debug (s.step debug o) := by
  rcases h with hdebug | hservice | hunopened
  · exact .inl hdebug
  · exact .inr (.inl (by rwa [Filing.step_call]))
  · cases debug with
    | true => exact .inl rfl
    | false => exact .inr (.inr (unopened_step s o hunopened))

theorem Sealed.honest {debug : Bool} {s : Filing} (h : Sealed debug s) (o : FileOp) (r : FileReply)
    (hr : s.reply debug o = some r) : r.Honest := by
  have hserved (hnone : s.served = none) : r.Honest := by
    cases o <;> simp [Filing.reply, hnone] at hr
  rcases h with rfl | hservice | hunopened
  · exact honest_debug s o r hr
  · exact hserved (by simp [Filing.served, Transaction.serves, hservice])
  · exact hserved hunopened.served

/-- **Bytes read, bytes reported.** For every build, every send, whatever size the platform gives its file and whatever its
reads deliver, and any interleaving of the calling thread with the callbacks: every data callback that answers continue reports
as many bytes as the platform has put into the connector's buffer, and these. -/
theorem honest_replies (debug : Bool) (call : Call) (ops : List FileOp) :
    Along (Filing.step debug) (fun s o => ∀ r, s.reply debug o = some r → r.Honest) (Filing.begin call) ops := by
  have hbegin : Sealed debug (Filing.begin call) := by
    by_cases hfile : call.service = .file
    · exact .inr (.inr (begin_unopened hfile))
    · exact .inr (.inl hfile)
  exact along_of_inv sealed_step (fun s o h => h.honest o) hbegin ops

/-- a send of a file of two bytes, up to the connector's first question -/
def fileCall : Call := { oneByte with service := .file, localPath := some [97] }

def opened : List FileOp := List.replicate 8 (.other (.api { granted with fileSize := some 2 }))

example : (run (Filing.step true) (Filing.begin fileCall) opened).reply true
    (.read 9 [] ⟨lockGranted, [(.busy, []), (.ok, [7, 8])]⟩) = some ⟨2, false, [7, 8], [7, 8]⟩ := by decide

example : (run (Filing.step false) (Filing.begin fileCall) opened).txn.stage = .fileOpen := by decide

end CcApi.Send
