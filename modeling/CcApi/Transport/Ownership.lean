/-
The strings of a TCP start (`copy_wan_info`, `copy_ccapi_tcp_info_t_structure`, `free_transport_tcp_info` and
`ccxapi_start_transport_tcp` of `ccapi_transport_tcp.c`).

The library's record is a block of its own. It is allocated with whatever the memory held before, copied wholesale from the
caller's configuration, and its string pointers are then replaced one by one. Any failure behind the allocation hands the
record, as it stands, to the one function that frees it.

Premises: one call at a time. A string has an address of its own; the caller's are below every address that a later malloc
gives. The connector is asked until it is no longer busy.

- `prepare_strings`: what the exit finds in the record is this call's where `Careful` holds, and else not.
- `start_failure_iff`: a failed start has freed what it has allocated, each once, and nothing else exactly there.
- `start_failure_frees`: it has freed what the memory held before, or a string of the caller's.
- `started_owns`: what a start that succeeds leaves behind.
-/
import CcApi.Transport.Model

namespace CcApi.Transport

open Lib

/-! ## Memory -/

structure Memory where
  ledger : Ledger
  /-- the string at an address -/
  text : ℕ → Str

namespace Memory

/-- `ccapi_malloc` of `strlen (src) + 1` bytes and, where there are any, `strcpy` -/
def copyString (ok : Bool) (src : ℕ) (m : Memory) : Option ℕ × Memory :=
  match m.ledger.acquire ok with
  | (none, ledger) => (none, { m with ledger := ledger })
  | (some b, ledger) => (some b, { ledger := ledger, text := Function.update m.text b (m.text src) })

def freeAll (blocks : List ℕ) (m : Memory) : Memory := { m with ledger := m.ledger.releaseAll blocks }

end Memory

/-- `ccapi_connection_type_t` -/
inductive ConnectionType where
  | lan
  | wan
  | wifi
  | wimax
deriving DecidableEq, Repr

/-- `ccapi_tcp_info_t`; τ is what its type may be -/
structure TcpRecord (τ : Type) where
  rx : ℕ
  tx : ℕ
  waitCount : ℕ
  ip : List UInt8
  password : Option ℕ
  startTimeout : ℕ
  type : τ
  /-- `connection.info` is a union: its bytes as a MAC address -/
  macAddress : List UInt8
  /-- and as a pointer -/
  phoneNumber : Option ℕ
deriving DecidableEq, Repr

/-- a caller's configuration -/
abbrev TcpStart := TcpRecord ConnectionType

/-- a record in memory; its type may be no enumerator -/
abbrev TcpRaw := TcpRecord (Option ConnectionType)

namespace TcpRecord

/-- `*dest = *source` -/
def raw (source : TcpStart) : TcpRaw := { source with type := some source.type }

/-- the strings that a record points to, for the one that frees it -/
def strings (r : TcpRaw) : List ℕ := r.password.toList ++ if r.type = some .wan then r.phoneNumber.toList else []

/-- what a configuration says -/
def info (m : Memory) (s : TcpStart) : TcpInfo :=
  { rx := s.rx, tx := s.tx, waitCount := s.waitCount, ip := s.ip, password := s.password.map m.text, startTimeout := s.startTimeout
    connection := match s.type with
      | .lan => .lan s.macAddress
      | .wifi => .wifi s.macAddress
      | .wimax => .wimax s.macAddress
      | .wan => .wan (s.phoneNumber.map m.text) }

end TcpRecord

/-! ## The start -/

/-- what memory, the platform and the connector answer a start -/
structure TcpEnv where
  recordOk : Bool
  /-- what the memory of the record held before -/
  garbage : TcpRaw
  passwordOk : Bool
  phoneOk : Bool
  /-- the first answer of the connector that is not busy -/
  initiate : ConnectorStatus
  wait : CcimpStatus

/-- `copy_wan_info` -/
def copyWanInfo (env : TcpEnv) (dest : TcpRaw) (source : TcpStart) (m : Memory) : TcpRaw × Bool × Memory :=
  match source.phoneNumber with
  | none => (dest, true, m)
  | some p =>
    let (copy, m) := m.copyString env.phoneOk p
    ({ dest with phoneNumber := copy }, copy.isSome, m)

/-- the record with its defaults, its strings still the caller's -/
def withDefaults (aggressive : Bool) (source : TcpStart) : TcpRaw :=
  { source.raw with
    rx := if source.rx = 0 then 75 else source.rx
    tx := if source.tx = 0 then 75 else source.tx
    waitCount := if source.waitCount = 0 ∧ aggressive = false then 5 else source.waitCount }

/-- `copy_ccapi_tcp_info_t_structure` behind the password -/
def copyConnection (env : TcpEnv) (dest : TcpRaw) (source : TcpStart) (m : Memory) : TcpRaw × Bool × Memory :=
  if source.type = .wan then copyWanInfo env dest source m else (dest, true, m)

/-- `copy_ccapi_tcp_info_t_structure` -/
def copyTcpInfo (aggressive : Bool) (env : TcpEnv) (source : TcpStart) (m : Memory) : TcpRaw × Bool × Memory :=
  let dest := withDefaults aggressive source
  match source.password with
  | none => copyConnection env dest source m
  | some p =>
    match m.copyString env.passwordOk p with
    | (none, m) => ({ dest with password := none }, false, m)
    | (some copy, m) => copyConnection env { dest with password := some copy } source m

/-- `free_transport_tcp_info` -/
def freeTcpInfo (b : ℕ) (r : TcpRaw) (m : Memory) : Memory := m.freeAll (r.strings ++ [b])

/-- `transport_tcp`, with the library's record behind its pointer -/
structure Tcp where
  running : Bool
  connected : Bool
  info : Option (ℕ × TcpRaw)
  memory : Memory

/-- the record as the allocation leaves it -/
def allocated (env : TcpEnv) (start : TcpStart) : TcpRaw :=
  { env.garbage with
    password := none
    phoneNumber := if start.type = .wan then none else env.garbage.phoneNumber }

/-- the checks and the copy, for a new record -/
def prepare (aggressive : Bool) (env : TcpEnv) (start : TcpStart) (m : Memory) : StartError × TcpRaw × Memory :=
  match (StartArg.tcp (some (start.info m))).late aggressive with
  | .none =>
    let (r, ok, m) := copyTcpInfo aggressive env start m
    (if ok then .none else .insufficientMemory, r, m)
  | e => (e, allocated env start, m)

/-- the request to the connector and the wait -/
def connect (env : TcpEnv) (start : TcpStart) : StartError :=
  match env.initiate with
  | .success =>
    if start.startTimeout = 0 then .none
    else
      match env.wait with
      | .ok => .none
      | .busy => .timeout
      | .error => .init
  | _ => .init

/-- the label `done` of `ccxapi_start_transport_tcp`, the library's pointer being to record r of block b -/
def leaveStart (t : Tcp) (b : ℕ) (r : TcpRaw) (m : Memory) (e : StartError) : StartError × Tcp :=
  if e.frees then (e, { t with info := none, memory := freeTcpInfo b r m })
  else (e, { t with info := some (b, r), memory := m })

/-- `ccxapi_start_transport_tcp` -/
def startTcp (aggressive : Bool) (env : TcpEnv) (arg : Option TcpStart) (t : Tcp) : StartError × Tcp :=
  if t.running = false then (.ccapiStopped, t)
  else if t.connected = true then (.alreadyStarted, t)
  else
    match arg with
    | none => (.nullPointer, t)
    | some start =>
      let m := match t.info with
        | some (b, r) => freeTcpInfo b r t.memory
        | none => t.memory
      match m.ledger.acquire env.recordOk with
      | (none, ledger) => (.insufficientMemory, { t with info := none, memory := { m with ledger := ledger } })
      | (some b, ledger) =>
        let (e, r, m) := prepare aggressive env start { m with ledger := ledger }
        leaveStart t b r m (if e = .none then connect env start else e)

/-! ## The copy -/

/-- what a copy of strings leaves alone -/
structure Memory.Keeps (m m' : Memory) : Prop where
  next : m.ledger.next ≤ m'.ledger.next
  releases : m'.ledger.releases = m.ledger.releases
  text : ∀ p < m.ledger.next, m'.text p = m.text p

theorem Memory.Keeps.refl (m : Memory) : m.Keeps m := ⟨le_rfl, rfl, fun _ _ => rfl⟩

theorem Memory.Keeps.trans {m m' m'' : Memory} (h : m.Keeps m') (h' : m'.Keeps m'') : m.Keeps m'' :=
  ⟨h.next.trans h'.next, h'.releases.trans h.releases, fun p hp => (h'.text p (hp.trans_le h.next)).trans (h.text p hp)⟩

/-- the addresses that have been given between two memories -/
def Memory.given (m m' : Memory) : List ℕ := List.range' m.ledger.next (m'.ledger.next - m.ledger.next)

theorem Memory.given_self (m : Memory) : m.given m = [] := by simp [Memory.given]

theorem copyString_true (src : ℕ) (m : Memory) : ∃ m', m.copyString true src = (some m.ledger.next, m') ∧ m.Keeps m' ∧
    m'.ledger.next = m.ledger.next + 1 := by
  refine ⟨_, rfl, ⟨Nat.le_succ _, rfl, fun p hp => ?_⟩, rfl⟩
  exact Function.update_of_ne hp.ne _ _

theorem copyString_false (src : ℕ) (m : Memory) : m.copyString false src = (none, m) := rfl

theorem withDefaults_type (aggressive : Bool) (source : TcpStart) : (withDefaults aggressive source).type = some source.type := rfl

theorem withDefaults_phone (aggressive : Bool) (source : TcpStart) :
    (withDefaults aggressive source).phoneNumber = source.phoneNumber := rfl

/-- the connection's string, in a record that still points to the caller's -/
theorem copyConnection_owns (env : TcpEnv) {d : TcpRaw} {source : TcpStart} (htype : d.type = some source.type)
    (hphone : d.phoneNumber = source.phoneNumber) (m : Memory) :
    (copyConnection env d source m).1.strings = d.password.toList ++ m.given (copyConnection env d source m).2.2 ∧
      m.Keeps (copyConnection env d source m).2.2 := by
  unfold copyConnection
  split_ifs with hwan
  case neg => simp [TcpRecord.strings, htype, hwan, Memory.given_self, Memory.Keeps.refl]
  case pos =>
    unfold copyWanInfo
    cases hp : source.phoneNumber with
    | none => simp [TcpRecord.strings, htype, hwan, hphone, hp, Memory.given_self, Memory.Keeps.refl]
    | some p =>
      cases hok : env.phoneOk with
      | false => simp [copyString_false, TcpRecord.strings, htype, hwan, Memory.given_self, Memory.Keeps.refl]
      | true =>
        obtain ⟨m', he, hkeeps, hnext⟩ := copyString_true p m
        simp [he, TcpRecord.strings, htype, hwan, hkeeps, Memory.given, hnext]

theorem copyTcpInfo_owns (aggressive : Bool) {env : TcpEnv} {source : TcpStart}
    (hpassword : source.type = .wan → source.password ≠ none → env.passwordOk = true) (m : Memory) :
    (copyTcpInfo aggressive env source m).1.strings = m.given (copyTcpInfo aggressive env source m).2.2 ∧
      m.Keeps (copyTcpInfo aggressive env source m).2.2 := by
  unfold copyTcpInfo
  cases hp : source.password with
  | none =>
    obtain ⟨hstrings, hkeeps⟩ := copyConnection_owns env (withDefaults_type aggressive source) (withDefaults_phone aggressive source) m
    rw [show (withDefaults aggressive source).password = none from hp] at hstrings
    exact ⟨hstrings, hkeeps⟩
  | some p =>
    cases hok : env.passwordOk with
    | false =>
      have hwan : source.type ≠ .wan := fun hw => absurd (hok.symm.trans (hpassword hw (by simp [hp]))) (by decide)
      simp [copyString_false, TcpRecord.strings, withDefaults, TcpRecord.raw, hwan, Memory.given_self, Memory.Keeps.refl]
    | true =>
      obtain ⟨m', he, hkeeps, hnext⟩ := copyString_true p m
      simp only [he]
      obtain ⟨hstrings, hkeeps'⟩ := copyConnection_owns env (d := { withDefaults aggressive source with password := some m.ledger.next })
        (withDefaults_type aggressive source) (withDefaults_phone aggressive source) m'
      dsimp only at hstrings hkeeps' ⊢
      refine ⟨?_, hkeeps.trans hkeeps'⟩
      rw [hstrings]
      have hle := hkeeps'.next
      rw [hnext] at hle
      simp only [Memory.given, hnext, Option.toList_some, List.singleton_append]
      rw [← List.range'_succ]
      congr 1
      omega

/-- the password of a WAN configuration cannot be copied: the record's telephone number is the caller's -/
theorem copyTcpInfo_aliases (aggressive : Bool) {env : TcpEnv} {source : TcpStart} (hwan : source.type = .wan)
    (hpassword : source.password ≠ none) (hok : env.passwordOk = false) (m : Memory) :
    (copyTcpInfo aggressive env source m).1.strings = source.phoneNumber.toList ∧
      (copyTcpInfo aggressive env source m).2.1 = false ∧ (copyTcpInfo aggressive env source m).2.2 = m := by
  obtain ⟨p, hp⟩ := Option.ne_none_iff_exists'.1 hpassword
  simp [copyTcpInfo, hp, hok, copyString_false, TcpRecord.strings, withDefaults, TcpRecord.raw, hwan]

/-! ## The exit of a failed start -/

/-- the library's blocks before a start: the previous record and its strings -/
def Tcp.blocks (t : Tcp) : List ℕ :=
  match t.info with
  | some (b, r) => r.strings ++ [b]
  | none => []

/-- the start gets to replace the previous record -/
def Tcp.replaces (t : Tcp) (arg : Option TcpStart) : Bool := t.running && !t.connected && arg.isSome

/-- the strings of the configuration that are the caller's own -/
def Tcp.callers (t : Tcp) (arg : Option TcpStart) : List ℕ :=
  (arg.elim [] fun start => start.raw.strings).filter fun p => p < t.memory.ledger.next ∧ p ∉ t.blocks

/-- a start from t to t' has freed what it has allocated and replaced, each once, and nothing else; what the caller has given
it is as it was -/
structure Clean (t t' : Tcp) (arg : Option TcpStart) : Prop where
  freed : ∃ freed, t'.memory.ledger.releases = t.memory.ledger.releases ++ freed ∧
    freed.Perm ((if t.replaces arg then t.blocks else []) ++ t.memory.given t'.memory) ∧ ∀ p ∈ t.callers arg, p ∉ freed
  kept : ∀ p ∈ t.callers arg, t'.memory.text p = t.memory.text p

/-- where a check fails, the memory of the record does not look like a WAN record with a telephone number, unless that of the
configuration's is cleared first; where the checks pass, there is memory for a WAN configuration's password -/
structure Careful (aggressive : Bool) (env : TcpEnv) (m : Memory) (start : TcpStart) : Prop where
  checks : (StartArg.tcp (some (start.info m))).late aggressive ≠ .none → start.type ≠ .wan →
    env.garbage.type = some .wan → env.garbage.phoneNumber = none
  password : (StartArg.tcp (some (start.info m))).late aggressive = .none → start.type = .wan → start.password ≠ none →
    env.passwordOk = true

/-- the exit finds no other error than those it frees the record at -/
theorem prepare_frees (aggressive : Bool) (env : TcpEnv) (start : TcpStart) (m : Memory) :
    (prepare aggressive env start m).1.frees = true ∨ (prepare aggressive env start m).1 = .none := by
  unfold prepare StartArg.late validConnection TcpRecord.info
  cases start.type <;> dsimp only <;> split_ifs <;> simp [StartError.frees]

theorem connect_frees (env : TcpEnv) (start : TcpStart) : (connect env start).frees = true ∨ connect env start = .none := by
  unfold connect
  cases env.initiate <;> cases env.wait <;> dsimp only <;> try split_ifs
  all_goals simp [StartError.frees]

theorem mem_callers {t : Tcp} {arg : Option TcpStart} {p : ℕ} (hp : p ∈ t.callers arg) :
    p < t.memory.ledger.next ∧ p ∉ t.blocks := of_decide_eq_true (List.mem_filter.1 hp).2

/-- the checks look at no text -/
theorem late_info (aggressive : Bool) (start : TcpStart) (m m' : Memory) :
    (StartArg.tcp (some (start.info m))).late aggressive = (StartArg.tcp (some (start.info m'))).late aggressive := by
  have hconnection : validConnection (start.info m) = validConnection (start.info m') := by
    unfold validConnection TcpRecord.info
    cases start.type <;> cases start.phoneNumber <;> rfl
  simp only [StartArg.late, hconnection]
  rfl

/-- the strings do not matter -/
theorem Careful.info {aggressive : Bool} {env : TcpEnv} {m : Memory} {start : TcpStart} (h : Careful aggressive env m start)
    (m' : Memory) : Careful aggressive env m' start :=
  ⟨late_info aggressive start m m' ▸ h.checks, late_info aggressive start m m' ▸ h.password⟩

/-- memory with the previous record gone and the new one allocated -/
def Tcp.opened (t : Tcp) : Memory :=
  { t.memory with ledger := ⟨t.memory.ledger.next + 1, t.memory.ledger.releases ++ t.blocks⟩ }

theorem given_opened {t : Tcp} {m : Memory} (h : t.opened.Keeps m) :
    t.memory.given m = t.memory.ledger.next :: t.opened.given m := by
  have hnext : t.memory.ledger.next + 1 ≤ m.ledger.next := h.next
  show List.range' t.memory.ledger.next (m.ledger.next - t.memory.ledger.next) =
    t.memory.ledger.next :: List.range' (t.memory.ledger.next + 1) (m.ledger.next - (t.memory.ledger.next + 1))
  rw [← List.range'_succ]
  congr 1
  omega

/-- the exit of a start with record r -/
theorem memory_clean_iff {t t' : Tcp} {start : TcpStart} {m : Memory} {r : TcpRaw}
    (hreplaces : t.replaces (some start) = true)
    (hkeeps : t.opened.Keeps m) (ht' : t'.memory = freeTcpInfo t.memory.ledger.next r m) :
    Clean t t' (some start) ↔ r.strings.Perm (t.opened.given m) := by
  have hall : t'.memory.ledger.releases = t.memory.ledger.releases ++ (t.blocks ++ (r.strings ++ [t.memory.ledger.next])) := by
    rw [ht', freeTcpInfo, Memory.freeAll, Ledger.releaseAll_releases, hkeeps.releases]
    exact List.append_assoc _ _ _
  have hgiven : t.memory.given t'.memory = t.memory.ledger.next :: t.opened.given m := by
    rw [ht', ← given_opened hkeeps]
    rfl
  have hperm : (t.blocks ++ (r.strings ++ [t.memory.ledger.next])).Perm (t.blocks ++ t.memory.given t'.memory) ↔
      r.strings.Perm (t.opened.given m) := by
    rw [List.perm_append_left_iff, hgiven]
    exact ⟨fun h => List.Perm.cons_inv (List.perm_append_comm.trans h), fun h => List.perm_append_comm.trans (h.cons _)⟩
  constructor
  · rintro ⟨⟨freed, hfreed, hp, -⟩, -⟩
    rw [if_pos hreplaces] at hp
    rw [hall] at hfreed
    obtain rfl := List.append_cancel_left hfreed
    exact hperm.1 hp
  · intro h
    refine ⟨⟨_, hall, by rw [if_pos hreplaces]; exact hperm.2 h, fun p hp hmem => ?_⟩, fun p hp => ?_⟩
    · obtain ⟨hlt, hblocks⟩ := mem_callers hp
      rcases List.mem_append.1 ((hperm.2 h).subset hmem) with hmem | hmem
      · exact hblocks hmem
      · have hle := (List.mem_range'_1.1 hmem).1
        exact absurd hlt (not_lt.2 hle)
    · rw [ht']
      exact hkeeps.text p (Nat.lt_succ_of_lt (mem_callers hp).1)

/-- a start that gets as far as the allocation -/
theorem startTcp_some (aggressive : Bool) (env : TcpEnv) {t : Tcp} (hrun : t.running = true) (hconn : t.connected = false)
    (start : TcpStart) :
    startTcp aggressive env (some start) t =
      if env.recordOk then
        let (e, r, m) := prepare aggressive env start t.opened
        leaveStart t t.memory.ledger.next r m (if e = .none then connect env start else e)
      else (.insufficientMemory, { t with info := none, memory := t.memory.freeAll t.blocks }) := by
  have hfreed : (match t.info with
      | some (b, r) => freeTcpInfo b r t.memory
      | none => t.memory) = t.memory.freeAll t.blocks := by
    unfold Tcp.blocks
    cases t.info with
    | none => simp [Memory.freeAll]
    | some q => rfl
  unfold startTcp
  rw [if_neg (by simp [hrun]), if_neg (by simp [hconn])]
  dsimp only
  rw [hfreed]
  cases env.recordOk with
  | false => rfl
  | true => rfl

/-- a start that fails before it allocates anything -/
theorem clean_early {t t' : Tcp} {arg : Option TcpStart} (hnext : t'.memory.ledger.next = t.memory.ledger.next)
    (hreleases : t'.memory.ledger.releases = t.memory.ledger.releases ++ if t.replaces arg then t.blocks else [])
    (htext : t'.memory.text = t.memory.text) : Clean t t' arg := by
  refine ⟨⟨_, hreleases, by simp [Memory.given, hnext], fun p hp hmem => ?_⟩, fun p _ => by rw [htext]⟩
  split_ifs at hmem
  · exact (mem_callers hp).2 hmem
  · cases hmem

/-- what a record that has not been copied to points to -/
theorem allocated_strings (env : TcpEnv) (start : TcpStart) :
    (allocated env start).strings =
      if start.type ≠ .wan ∧ env.garbage.type = some .wan then env.garbage.phoneNumber.toList else [] := by
  by_cases hwan : start.type = .wan
  · simp [allocated, TcpRecord.strings, hwan]
  · by_cases htype : env.garbage.type = some .wan
    · simp [allocated, TcpRecord.strings, hwan, htype]
    · simp [allocated, TcpRecord.strings, htype]

/-- what the exit finds in the record is this call's, or not -/
theorem prepare_strings (aggressive : Bool) (env : TcpEnv) (start : TcpStart) (m : Memory) :
    let p := prepare aggressive env start m
    m.Keeps p.2.2 ∧ (p.2.1.strings.Perm (m.given p.2.2) ↔ Careful aggressive env m start) := by
  unfold prepare
  cases hlate : (StartArg.tcp (some (start.info m))).late aggressive with
  | none =>
    by_cases hpassword : start.type = .wan → start.password ≠ none → env.passwordOk = true
    · obtain ⟨hstrings, hkeeps⟩ := copyTcpInfo_owns aggressive hpassword m
      refine ⟨hkeeps, fun _ => ⟨fun hne => absurd hlate hne, fun _ => hpassword⟩, fun _ => ?_⟩
      rw [hstrings]
    · push Not at hpassword
      obtain ⟨hwan, hne, hok⟩ := hpassword
      obtain ⟨hstrings, -, hsame⟩ := copyTcpInfo_aliases aggressive hwan hne (by simpa using hok) m
      have hphone : start.phoneNumber ≠ none := by
        rintro hnone
        simp only [StartArg.late, validConnection, TcpRecord.info, hwan, hnone, Option.map_none, if_true] at hlate
        split_ifs at hlate
      obtain ⟨q, hq⟩ := Option.ne_none_iff_exists'.1 hphone
      dsimp only
      rw [hstrings, hsame, hq]
      refine ⟨Memory.Keeps.refl m, fun hperm => ?_, fun hc => absurd (hc.password hlate hwan hne) hok⟩
      simp [Memory.given_self] at hperm
  | _ =>
    refine ⟨Memory.Keeps.refl m, ?_⟩
    dsimp only
    rw [Memory.given_self, List.perm_nil]
    constructor
    · intro hnil
      refine ⟨fun _ hwan htype => ?_, fun hnone => absurd (hlate.symm.trans hnone) (by decide)⟩
      rw [allocated_strings, if_pos ⟨hwan, htype⟩] at hnil
      simpa using hnil
    · intro hc
      rw [allocated_strings]
      split_ifs with h
      · rw [hc.checks (by rw [hlate]; decide) h.1 h.2]
        rfl
      · rfl

/-- **A failed start.** Whatever the memory held before and whatever fails. -/
theorem start_failure_iff (aggressive : Bool) (env : TcpEnv) (arg : Option TcpStart) (t : Tcp)
    (hfail : (startTcp aggressive env arg t).1 ≠ .none) :
    Clean t (startTcp aggressive env arg t).2 arg ↔
      (t.running = true → t.connected = false → env.recordOk = true → ∀ start ∈ arg, Careful aggressive env t.memory start) := by
  cases hrun : t.running with
  | false =>
    have hsame : startTcp aggressive env arg t = (.ccapiStopped, t) := by simp [startTcp, hrun]
    rw [hsame]
    exact iff_of_true (clean_early rfl (by simp [Tcp.replaces, hrun]) rfl) (fun h => by cases h)
  | true =>
    cases hconn : t.connected with
    | true =>
      have hsame : startTcp aggressive env arg t = (.alreadyStarted, t) := by simp [startTcp, hrun, hconn]
      rw [hsame]
      exact iff_of_true (clean_early rfl (by simp [Tcp.replaces, hconn]) rfl) (fun _ h => by cases h)
    | false =>
      cases arg with
      | none =>
        have hsame : startTcp aggressive env none t = (.nullPointer, t) := by simp [startTcp, hrun, hconn]
        rw [hsame]
        exact iff_of_true (clean_early rfl (by simp [Tcp.replaces]) rfl) (fun _ _ _ start h => by cases h)
      | some start =>
        have hreplaces : t.replaces (some start) = true := by simp [Tcp.replaces, hrun, hconn]
        rw [startTcp_some aggressive env hrun hconn] at hfail ⊢
        cases hok : env.recordOk with
        | false =>
          rw [if_neg (by decide)]
          exact iff_of_true (clean_early rfl (by rw [if_pos hreplaces]; rfl) rfl) (fun _ _ h => by cases h)
        | true =>
          rw [hok, if_pos rfl] at hfail
          rw [if_pos rfl]
          obtain ⟨hkeeps, hcareful⟩ := prepare_strings aggressive env start t.opened
          have hprepare := prepare_frees aggressive env start t.opened
          rcases hp : prepare aggressive env start t.opened with ⟨e, r, m⟩
          simp only [hp] at hfail hkeeps hcareful hprepare ⊢
          have hfrees : (if e = .none then connect env start else e).frees = true := by
            split_ifs at hfail ⊢ with he
            · exact (connect_frees env start).resolve_right fun hnone => hfail (by rw [hnone]; rfl)
            · exact hprepare.resolve_right he
          rw [leaveStart, if_pos hfrees, memory_clean_iff hreplaces hkeeps rfl]
          exact hcareful.trans ⟨fun h _ _ _ s hs => Option.mem_some.1 hs ▸ h.info _,
            fun h => (h trivial trivial trivial start rfl).info _⟩

/-- the library as it runs, the caller's two strings at 0 and 1 -/
def Tcp.idle : Tcp :=
  { running := true, connected := false, info := none
    memory := ⟨⟨2, []⟩, fun p => if p = 0 then ascii "5551234" else ascii "secret"⟩ }

/-- a configuration of type τ, with what its union holds and its password -/
def configuration (rx : ℕ) (τ : ConnectionType) (mac : List UInt8) (phone password : Option ℕ) : TcpStart :=
  { rx := rx, tx := 0, waitCount := 0, ip := [10, 0, 0, 1], password := password, startTimeout := 0, type := τ,
    macAddress := mac, phoneNumber := phone }

/-- memory that held τ and phone, and enough of it for all but a password -/
def noPassword (τ : ConnectionType) (phone : Option ℕ) : TcpEnv :=
  { recordOk := true, garbage := (configuration 0 τ [0, 0, 0, 0, 0, 0] phone none).raw, passwordOk := false, phoneOk := true,
    initiate := .success, wait := .ok }

/-- a LAN configuration whose MAC address is refused, in memory that was clear -/
theorem start_failure_clean :
    Clean .idle (startTcp false (noPassword .lan none) (some (configuration 0 .lan [0, 0, 0, 0, 0, 0] none (some 1))) .idle).2
      (some (configuration 0 .lan [0, 0, 0, 0, 0, 0] none (some 1))) :=
  (start_failure_iff false _ _ .idle (by decide)).2 fun _ _ _ start hs =>
    Option.mem_some.1 hs ▸ ⟨fun _ _ h => absurd h (by decide), fun h => absurd h (by decide)⟩

/-- a keepalive of one second is refused, in memory that held a WAN record; and a WAN configuration's password cannot be copied -/
theorem start_failure_frees :
    ¬ Clean .idle (startTcp false (noPassword .wan (some 7)) (some (configuration 1 .lan [1, 2, 3, 4, 5, 6] none none)) .idle).2
        (some (configuration 1 .lan [1, 2, 3, 4, 5, 6] none none)) ∧
      ¬ Clean .idle (startTcp false (noPassword .lan none) (some (configuration 0 .wan [] (some 0) (some 1))) .idle).2
        (some (configuration 0 .wan [] (some 0) (some 1))) ∧
      (startTcp false (noPassword .wan (some 7)) (some (configuration 1 .lan [1, 2, 3, 4, 5, 6] none none)) .idle).2.memory.ledger.releases =
        [7, 2] ∧
      (startTcp false (noPassword .lan none) (some (configuration 0 .wan [] (some 0) (some 1))) .idle).2.memory.ledger.releases =
        [0, 2] := by
  refine ⟨fun h => ?_, fun h => ?_, rfl, rfl⟩
  · obtain ⟨freed, hfreed, hperm, -⟩ := h.freed
    obtain rfl : [7, 2] = freed := hfreed
    exact absurd hperm.length_eq (by decide)
  · obtain ⟨freed, hfreed, -, hcallers⟩ := h.freed
    obtain rfl : [0, 2] = freed := hfreed
    exact hcallers 0 (by decide) (by decide)

/-! ## A start that succeeds -/

theorem leaveStart_fst (t : Tcp) (b : ℕ) (r : TcpRaw) (m : Memory) (e : StartError) : (leaveStart t b r m e).1 = e := by
  unfold leaveStart
  split_ifs <;> rfl

/-- the checks have passed and the copy is complete -/
theorem prepare_none {aggressive : Bool} {env : TcpEnv} {start : TcpStart} {m : Memory}
    (h : (prepare aggressive env start m).1 = .none) : Careful aggressive env m start := by
  have hlate : (StartArg.tcp (some (start.info m))).late aggressive = .none := by
    unfold prepare at h
    split at h
    · assumption
    · exact h
  refine ⟨fun hne => absurd hlate hne, fun _ hwan hne => ?_⟩
  by_contra hok
  obtain ⟨-, hfails, -⟩ := copyTcpInfo_aliases aggressive hwan hne (by simpa using hok) m
  simp only [prepare, hlate] at h
  rw [hfails] at h
  cases h

/-- **A start that succeeds** leaves in the library's record what it has allocated, and has freed the previous one. -/
theorem started_owns {aggressive : Bool} {env : TcpEnv} {arg : Option TcpStart} {t : Tcp}
    (h : (startTcp aggressive env arg t).1 = .none) :
    (startTcp aggressive env arg t).2.blocks.Perm (t.memory.given (startTcp aggressive env arg t).2.memory) ∧
      (startTcp aggressive env arg t).2.memory.ledger.releases = t.memory.ledger.releases ++ t.blocks := by
  cases hrun : t.running with
  | false => simp [startTcp, hrun] at h
  | true =>
    cases hconn : t.connected with
    | true => simp [startTcp, hrun, hconn] at h
    | false =>
      cases arg with
      | none => simp [startTcp, hrun, hconn] at h
      | some start =>
        rw [startTcp_some aggressive env hrun hconn] at h ⊢
        cases hok : env.recordOk with
        | false => simp [hok] at h
        | true =>
          rw [hok, if_pos rfl] at h
          rw [if_pos rfl]
          obtain ⟨hkeeps, hcareful⟩ := prepare_strings aggressive env start t.opened
          have hprepare := @prepare_none aggressive env start t.opened
          rcases hp : prepare aggressive env start t.opened with ⟨e, r, m⟩
          simp only [hp, leaveStart_fst] at h hkeeps hcareful hprepare ⊢
          split_ifs at h with he
          case neg => exact absurd h he
          rw [if_pos he, h, leaveStart, if_neg (by decide)]
          refine ⟨?_, hkeeps.releases⟩
          rw [given_opened hkeeps]
          exact List.perm_append_comm.trans ((hcareful.2 (hprepare he)).cons _)

end CcApi.Transport
