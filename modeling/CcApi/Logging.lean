/-
The log of a debug build (`ccapi_logging.c`).

Any thread can log a line, or the bytes of a buffer; the connector logs parts of lines. Each call takes the logging lock, gives
the platform its pieces one at a time, and releases the lock. What the acquire answers is not looked at: without the lock (before
the first instance has made it, or when the platform refuses it) the call prints all the same.

- `readDump_printBuffer`: the print of a buffer can be read back.
- `logged`: while every call gets the lock, the log is whole records in the order of their calls, and the beginning of the next.
- `dump_in_log`: so the print of a buffer stands in one piece in the log, and gives the buffer back.

Premises: a format and its arguments make one text; nobody destroys the lock while threads log.
-/
import CcApi.Lib.Critical
import CcApi.Platform

namespace CcApi.Logging

open Lib Lib.Runs

/-- `debug_t` -/
inductive Debug where
  | debugAll
  | debugBeg
  | debugMid
  | debugEnd
deriving DecidableEq, Repr

/-- a call of `ccimp_hal_logging_vprintf` -/
structure Print where
  debug : Debug
  text : Str
deriving DecidableEq, Repr

def newline : UInt8 := 10

def space : UInt8 := 32

def colon : UInt8 := 58

/-- a digit of `%X` -/
def hexDigit (n : ℕ) : UInt8 := UInt8.ofNat (if n < 10 then 48 + n else 55 + n)

/-- `%02X` of a byte -/
def hexByte (b : UInt8) : Str := [hexDigit (b.toNat / 16), hexDigit (b.toNat % 16)]

/-! ## The calls -/

/-- `ccapi_logging_line` with its text printed -/
def loggingLine (text : Str) : List Print := [⟨.debugAll, text⟩]

/-- `connector_debug_vprintf`: the connector marks the parts of its lines itself -/
def debugVprintf (debug : Debug) (text : Str) : List Print := [⟨debug, text⟩]

/-- the loop of `ccapi_logging_print_buffer` from byte i on -/
def printBytes (i : ℕ) : List UInt8 → List Print
  | [] => []
  | b :: content =>
    (if i % 16 = 0 then [⟨.debugMid, [newline]⟩] else []) ++ ⟨.debugMid, space :: hexByte b⟩ :: printBytes (i + 1) content

/-- `ccapi_logging_print_buffer` -/
def printBuffer (label : Str) (content : List UInt8) : List Print :=
  ⟨.debugBeg, label ++ [colon]⟩ :: printBytes 0 content ++ [⟨.debugEnd, []⟩]

inductive Call where
  | line (text : Str)
  | vprintf (debug : Debug) (text : Str)
  | buffer (label : Str) (content : List UInt8)
deriving DecidableEq, Repr

def Call.prints : Call → List Print
  | .line text => loggingLine text
  | .vprintf debug text => debugVprintf debug text
  | .buffer label content => printBuffer label content

/-- what the platform has been given -/
def textOf (l : List Print) : Str := l.flatMap Print.text

@[simp] theorem textOf_nil : textOf [] = [] := rfl

@[simp] theorem textOf_cons (p : Print) (l : List Print) : textOf (p :: l) = p.text ++ textOf l := rfl

@[simp] theorem textOf_append (l m : List Print) : textOf (l ++ m) = textOf l ++ textOf m := by simp [textOf]

/-! ## Reading a buffer back -/

def hexValue (d : UInt8) : Option ℕ :=
  if 48 ≤ d.toNat ∧ d.toNat < 58 then some (d.toNat - 48)
  else if 65 ≤ d.toNat ∧ d.toNat < 71 then some (d.toNat - 55)
  else none

/-- a reader of the bytes: it skips newlines -/
def readBytes : Str → Option (List UInt8)
  | [] => some []
  | c :: s =>
    if c = newline then readBytes s
    else
      match s with
      | h :: l :: s =>
        if c = space then
          (hexValue h).bind fun a => (hexValue l).bind fun b => (readBytes s).map fun rest => UInt8.ofNat (16 * a + b) :: rest
        else none
      | _ => none

/-- the label up to the first colon, and the bytes -/
def readDump (s : Str) : Option (Str × List UInt8) :=
  match s.dropWhile (· ≠ colon) with
  | [] => none
  | _ :: rest => (readBytes rest).map fun content => (s.takeWhile (· ≠ colon), content)

theorem hexValue_hexDigit {n : ℕ} (h : n < 16) : hexValue (hexDigit n) = some n := by
  revert n
  decide

theorem readBytes_newline (s : Str) : readBytes (newline :: s) = readBytes s := by
  rcases s with _ | ⟨h, _ | ⟨l, s⟩⟩
  · rfl
  · rfl
  · rw [readBytes, if_pos rfl]

theorem readBytes_hexByte (b : UInt8) (s : Str) :
    readBytes (space :: hexByte b ++ s) = (readBytes s).map fun rest => b :: rest := by
  have hb : b.toNat < 256 := UInt8.toNat_lt_size b
  have hhigh : hexValue (hexDigit (b.toNat / 16)) = some (b.toNat / 16) := hexValue_hexDigit (by omega)
  have hlow : hexValue (hexDigit (b.toNat % 16)) = some (b.toNat % 16) := hexValue_hexDigit (by omega)
  have hback : UInt8.ofNat (16 * (b.toNat / 16) + b.toNat % 16) = b := by
    rw [Nat.div_add_mod]
    exact UInt8.ofNat_toNat
  have hspace : space ≠ newline := by decide
  calc readBytes (space :: hexByte b ++ s)
      = (hexValue (hexDigit (b.toNat / 16))).bind fun h => (hexValue (hexDigit (b.toNat % 16))).bind fun l =>
          (readBytes s).map fun rest => UInt8.ofNat (16 * h + l) :: rest := by
        rw [hexByte, List.cons_append, List.cons_append, List.cons_append, List.nil_append, readBytes, if_neg hspace, if_pos rfl]
    _ = (readBytes s).map fun rest => b :: rest := by
        rw [hhigh, hlow]
        simp only [Option.bind_some, hback]

/-- the loop's print gives the bytes back; the induction is on the bytes that are left -/
theorem readBytes_printBytes (content : List UInt8) (i : ℕ) : readBytes (textOf (printBytes i content)) = some content := by
  induction content generalizing i with
  | nil => rfl
  | cons b content ih =>
    have hbyte : readBytes (space :: hexByte b ++ textOf (printBytes (i + 1) content)) = some (b :: content) := by
      rw [readBytes_hexByte, ih]
      rfl
    unfold printBytes
    split_ifs with hrow
    · rw [textOf_append, textOf_cons, textOf_nil, textOf_cons, List.append_nil, List.singleton_append, readBytes_newline]
      exact hbyte
    · rw [List.nil_append, textOf_cons]
      exact hbyte

theorem textOf_printBuffer (label : Str) (content : List UInt8) :
    textOf (printBuffer label content) = label ++ colon :: textOf (printBytes 0 content) := by
  simp [printBuffer]

/-- **Round trip.** The print of a buffer gives its label and its bytes back. -/
theorem readDump_printBuffer (label : Str) (content : List UInt8) (h : colon ∉ label) :
    readDump (textOf (printBuffer label content)) = some (label, content) := by
  have hall : ∀ c ∈ label, decide (c ≠ colon) = true := by
    intro c hc
    simp only [decide_eq_true_eq]
    intro he
    exact h (he ▸ hc)
  have hdrop : (label ++ colon :: textOf (printBytes 0 content)).dropWhile (· ≠ colon) =
      colon :: textOf (printBytes 0 content) := by
    rw [List.dropWhile_append_of_pos hall]
    exact List.dropWhile_cons_of_neg (by simp)
  have htake : (label ++ colon :: textOf (printBytes 0 content)).takeWhile (· ≠ colon) = label := by
    rw [List.takeWhile_append_of_pos hall]
    simp
  rw [textOf_printBuffer, readDump, hdrop]
  dsimp only
  rw [readBytes_printBytes, htake]
  rfl

/-! ## The log -/

/-- `ccapi_logging_lock_acquire`; lock says whether `logging_lock` is not NULL -/
def loggingLockAcquire (lock : Bool) (status : CcimpStatus) (acquired : Bool) : CcimpStatus :=
  if lock then lockAcquire status acquired else .error

/-- `ccapi_logging_lock_release` -/
def loggingLockRelease (lock : Bool) (status : CcimpStatus) : CcimpStatus := if lock then status else .error

inductive Op where
  /-- thread i calls; the platform answers the acquire -/
  | call (i : ℕ) (c : Call) (lock : Bool) (status : CcimpStatus) (acquired : Bool)
  | print (i : ℕ)
  | ret (i : ℕ) (lock : Bool) (status : CcimpStatus)

/-- the call goes on whatever the acquire has answered -/
def Op.critical : Op → Critical.Op ℕ Call
  | .call i c lock status acquired => .enter i c (loggingLockAcquire lock status acquired = .ok)
  | .print i => .write i
  | .ret i lock status => .leave i (loggingLockRelease lock status = .ok)

abbrev Log := Critical.State ℕ Call Print

def step (s : Log) (o : Op) : Log := Critical.step Call.prints s o.critical

/-- the call gets the lock -/
def Locked : Op → Prop
  | .call _ _ lock status acquired => loggingLockAcquire lock status acquired = .ok
  | _ => True

instance : ∀ o, Decidable (Locked o)
  | .call _ _ lock status acquired => inferInstanceAs (Decidable (loggingLockAcquire lock status acquired = .ok))
  | .print _ | .ret .. => inferInstanceAs (Decidable True)

theorem step_serial (s : Log) (o : Op) (h : Critical.Serial Call.prints s) (ho : Locked o) :
    Critical.Serial Call.prints (step s o) := by
  apply Critical.step_serial s o.critical h
  cases o with
  | call i c lock status acquired => exact decide_eq_true ho
  | print i => trivial
  | ret i lock status => trivial

/-- what the platform has been given by all threads -/
def output (s : Log) : List Print := s.written.map Prod.snd

theorem map_whole (l : List (ℕ × Call)) :
    (Critical.whole Call.prints l).map Prod.snd = l.flatMap fun p => p.2.prints := by
  simp [Critical.whole, List.map_flatMap, Function.comp_def]

/-- **The log.** Whole records in the order of their calls, and the beginning of the next. -/
theorem logged (ops : List Op) (h : ∀ o ∈ ops, Locked o) :
    let s := run step Critical.State.fresh ops
    ∃ part, output s = (s.ended.flatMap fun p => p.2.prints) ++ part ∧
      ((part = [] ∧ s.entered = s.ended) ∨ ∃ i c, s.entered = s.ended ++ [(i, c)] ∧ part <+: c.prints) := by
  intro s
  have hserial : Critical.Serial Call.prints s :=
    run_inv_mem step_serial (.inl (Critical.quiet_fresh Call.prints)) h
  obtain ⟨part, hwritten, hnext⟩ := hserial.output
  refine ⟨part.map Prod.snd, ?_, ?_⟩
  · rw [output, hwritten, List.map_append, map_whole]
  · rcases hnext with ⟨rfl, hentered⟩ | ⟨i, c, hentered, hpart⟩
    · exact .inl ⟨rfl, hentered⟩
    · refine .inr ⟨i, c, hentered, ?_⟩
      have := hpart.map Prod.snd
      rwa [map_whole, List.flatMap_singleton] at this

/-- **A buffer in the log.** A print that has been made stands in the log in one piece, and gives the buffer back. -/
theorem dump_in_log (ops : List Op) (h : ∀ o ∈ ops, Locked o) {before behind : List (ℕ × Call)} {i : ℕ} {label : Str}
    {content : List UInt8} (hended : (run step Critical.State.fresh ops).ended = before ++ (i, .buffer label content) :: behind)
    (hlabel : colon ∉ label) :
    ∃ dump rest, textOf (output (run step Critical.State.fresh ops)) =
        textOf (before.flatMap fun p => p.2.prints) ++ dump ++ rest ∧
      readDump dump = some (label, content) := by
  obtain ⟨part, hout, -⟩ := logged ops h
  refine ⟨_, textOf (behind.flatMap fun p => p.2.prints) ++ textOf part, ?_, readDump_printBuffer label content hlabel⟩
  rw [hout, hended]
  simp [Call.prints]

/-- a thread prints a buffer, while another one waits for the lock to log a line -/
def twoThreads : List Op :=
  [.call 1 (.buffer (ascii "sent") [0, 255]) true .ok true, .print 1, .call 2 (.line (ascii "line")) true .ok true, .print 2,
    .print 1, .print 1, .print 1, .print 1, .ret 1 true .ok, .call 2 (.line (ascii "line")) true .ok true, .print 2]

theorem dump_in_two_threads :
    ∃ dump rest, textOf (output (run step Critical.State.fresh twoThreads)) = [] ++ dump ++ rest ∧
      readDump dump = some (ascii "sent", [0, 255]) := by
  have hended : (run step Critical.State.fresh twoThreads).ended = [] ++ (1, .buffer (ascii "sent") [0, 255]) :: [] := rfl
  exact dump_in_log twoThreads (by decide) hended (by decide)

end CcApi.Logging
