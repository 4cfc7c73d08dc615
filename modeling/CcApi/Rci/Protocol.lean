/-
The request protocol of the RCI service without cancellations (`ccapi_rci_handler.c`).

Each request is answered busy until its callback, if it has one, has run, and then continue, once. It goes wrong when the
stored action is not the enclosing one: the element's value is then taken from the other direction's pointer, which the
connector need not have set, and the worker leaves its loop.

- `requests_answered`: in every well-nested run whose elements have the value that is used.
- `element_unanswered`: without start_action, a set whose element is taken for a query's is never answered.
-/
import CcApi.Rci.Dispatch

namespace CcApi.Rci

open Lib Lib.Runs

variable (cfg : Config)

/-- end_list is there, and set_and_transform_element where set_element is -/
structure Complete : Prop where
  endList : cfg.registered .endList = true
  transform : cfg.registered .setElement = true → cfg.registered .setAndTransformElement = true

/-- an element that is asked for brings the value its user callback, by the stored action, is given -/
def ValueGiven (s : St) : Op → Prop
  | .submit id rc => s.request = none ∧ id = .elementProcess →
    (s.svc.info.action = some .query ∧ cfg.registered .getElement = true → rc.response.elementValue ≠ none) ∧
    (s.svc.info.action = some .set ∧ cfg.registered .setElement = true → rc.element.value ≠ none)
  | _ => True

instance (s : St) : ∀ o, Decidable (ValueGiven cfg s o)
  | .submit _ _ => inferInstanceAs (Decidable (_ ∧ _ → (_ → _) ∧ (_ → _)))
  | .poll | .cancel _ | .stop | .wake | .read | .call | .ret _ | .store | .update => inferInstanceAs (Decidable True)

/-- what the protocol promises: every answer came after a busy one and with the results of its own request; requests are
answered once each and in order; between requests the handler and the worker are at rest; and a request that is asked is
answered when the worker has had its turn -/
structure Protocol (s : St) : Prop where
  answered : ∀ x ∈ s.answers, 1 ≤ x.request.busy ∧ Answered s x
  once : s.answers.map (fun x => x.request.serial) ++ (s.request.map Request.serial).toList = List.range s.next
  rest : s.request = none → s.svc.status = .idle ∧ s.svc.callback.type = .none ∧
    (s.answers ≠ [] → s.svc.callback.error = 0) ∧ (s.stopping = false → s.pc = .waiting ∧ s.lock = 0)
  progress : ∀ r, s.request = some r → s.stopping = false → ∀ u,
    (run (step cfg) s (turn u ++ [.poll])).request = none ∧
      (run (step cfg) s (turn u ++ [.poll])).answers.map (fun x => x.request.serial) =
        s.answers.map (fun x => x.request.serial) ++ [r.serial]

/-! ## Steps -/

variable {cfg}

theorem attributable_of (hcfg : Complete cfg) {s : St} (ht : Tidy s) {o : Op} (hl : Legal cfg s o)
    (hv : ValueGiven cfg s o) : Attributable cfg s o := by
  cases o
  case cancel rc => exact absurd hl id
  case submit id rc =>
    rintro ⟨hr, hid⟩
    refine ⟨Or.inl fun hw => ?_, fun hh => Or.inr ?_⟩
    · have := (ht.working hw).1
      simp [(ht.rest hr).1] at this
    · have hallowed := hl ⟨hr, hid⟩
      cases id
      case elementProcess =>
        have hgiven := hv ⟨hr, rfl⟩
        rcases haveHandler_cases cfg hh with ⟨hact, hreg⟩ | ⟨hact, hreg⟩
        · exact ⟨fun _ => hgiven.1 ⟨hact, hreg⟩, fun hset => by simp [hact] at hset⟩
        · exact ⟨fun hq => by simp [hact] at hq, fun _ => ⟨hgiven.2 ⟨hact, hreg⟩, fun _ => hcfg.transform hreg⟩⟩
      case groupInstancesLock =>
        intro place hp
        obtain rfl := Option.some.inj hp
        exact Or.inl hallowed.2
      case listInstancesLock =>
        intro place hp
        obtain rfl := Option.some.inj hp
        exact Or.inl hallowed.2
      all_goals
        intro place hp
        simp [RequestId.locks] at hp
  all_goals trivial

theorem step_cancelled {s : St} {o : Op} (ho : o.NoCancel) (h : s.cancelled = false) :
    (step cfg s o).cancelled = false := by
  have hpresent : ∀ (r : Request) (t : St), t.cancelled = false → (present cfg r t).cancelled = false := by
    intro r t ht
    unfold present
    split
    · split <;> exact ht
    · exact ht
  cases o
  case cancel rc => exact absurd ho id
  case submit id rc =>
    simp only [step]
    split
    · exact h
    · exact hpresent _ _ h
  case poll =>
    simp only [step]
    split
    · exact hpresent _ _ h
    · exact h
  all_goals
    simp only [step]
    repeat' split
    all_goals exact h

/-- everything the protocol rests on -/
structure Sound (s : St) : Prop where
  inv : Inv s
  tidy : Tidy s
  cancelled : s.cancelled = false

theorem sound_run (hcfg : Complete cfg) {s : St} (h : Init s) {ops : List Op} (hl : Along (step cfg) (Legal cfg) s ops)
    (hv : Along (step cfg) (ValueGiven cfg) s ops) : Sound (run (step cfg) s ops) := by
  have hstep : ∀ s o, Sound s → Legal cfg s o ∧ ValueGiven cfg s o → Sound (step cfg s o) := by
    rintro s o ⟨hi, ht, hc⟩ ⟨hlegal, hvalue⟩
    exact ⟨step_inv cfg hi (attributable_of hcfg ht hlegal hvalue), tidy_step cfg ht hlegal.noCancel,
      step_cancelled hlegal.noCancel hc⟩
  exact Runs.run_inv hstep ⟨inv_init h, tidy_init h, h.running.2⟩ (along_and.2 ⟨hl, hv⟩)

/-! ## What a sound state promises -/

variable (cfg) in
/-- one turn of the worker processes what is queued -/
theorem Sound.turn {s : St} (h : Sound s) {r : Request} (hr : s.request = some r) (hstop : s.stopping = false)
    (u : UserResult) : let t := run (step cfg) s (turn u)
      t.svc.status = .cbProcessed ∧ t.request = some r ∧ t.answers = s.answers := by
  obtain ⟨hne, -⟩ := h.tidy.asked r hr
  cases hs : s.svc.status with
  | idle => exact absurd hs hne
  | cbProcessed =>
    obtain ⟨hpc, hl⟩ := h.inv.handshake.waiting h.cancelled hstop (by simp [abs, hs, RciThreadStatus.phase])
    have hwait : s.pc = .waiting := by
      cases hpc' : s.pc <;> simp [abs, hpc', Pc.view] at hpc
      rfl
    have hlock : s.lock = 0 := hl
    simp [CcApi.Rci.turn, step, hwait, hlock, hs, hr]
  | cbQueued =>
    obtain ⟨j, -, -, -, hhand⟩ := h.inv.handshake.hand (by simp [abs, hs, RciThreadStatus.phase])
    have hrun : s.svc.callback.runnable = true := (h.inv.good hs).resolve_left (by simp [hstop])
    unfold Handshake.Hand at hhand
    cases hpc : s.pc <;> simp only [abs, hpc, Pc.view] at hhand
    case waiting =>
      have hlock : s.lock = 1 := hhand.2 hstop
      simp [CcApi.Rci.turn, step, hpc, hlock, hs, hr, hrun, hstop]
    case exited => simp [hstop] at hhand
    all_goals simp [CcApi.Rci.turn, step, hpc, hs, hr, hrun, hstop]

theorem Sound.protocol {s : St} (h : Sound s) : Protocol cfg s where
  answered := by
    intro x hx
    have hbusy := (h.inv.handshake.asked x.view.job (Or.inr ⟨x.view, List.mem_map_of_mem hx, rfl⟩)).1
    exact ⟨hbusy, h.inv.answered hx⟩
  once := h.tidy.serials
  rest := by
    intro hr
    obtain ⟨hs, ht⟩ := h.tidy.rest hr
    have hphase : (abs s).phase = .idle := by simp [abs, hs, RciThreadStatus.phase]
    refine ⟨hs, ht, fun ha => ?_, fun hstop => ?_⟩
    · have hn := h.inv.handshake.now
      simp only [Handshake.Now, hphase] at hn
      exact hn.2.2.2 h.cancelled (by simpa [abs] using ha)
    · obtain ⟨hpc, hl⟩ := h.inv.handshake.waiting h.cancelled hstop (by simp [hphase])
      refine ⟨?_, hl⟩
      cases hpc' : s.pc <;> simp [abs, hpc', Pc.view] at hpc
      rfl
  progress := by
    intro r hr hstop u
    obtain ⟨-, hid⟩ := h.tidy.asked r hr
    obtain ⟨hs, hr', ha⟩ := h.turn cfg hr hstop u
    rw [run_append, run_cons, run_nil, poll_answer cfg hr' hid hs]
    exact ⟨rfl, by simp [ha]⟩

variable (cfg) in
/-- **Protocol.** For every complete set of callbacks and every well-nested run without cancellations, whatever the
interleaving with the worker: if every element brings the value its callback is given, every request is answered the way
the protocol promises. -/
theorem requests_answered (hcfg : Complete cfg) {s : St} (h : Init s) {ops : List Op}
    (hl : Along (step cfg) (Legal cfg) s ops) (hv : Along (step cfg) (ValueGiven cfg) s ops) :
    Protocol cfg (run (step cfg) s ops) :=
  (sound_run hcfg h hl hv).protocol

/-! ## Runs -/

/-- an element in a query -/
def queriesElement : List Op :=
  exchange .sessionStart .plain .ok ++ exchange .actionStart .plain .ok ++ exchange .groupStart .plain .ok ++
    exchange .elementProcess .plain ⟨3, true, false, some 8, some 9⟩

theorem answered_query : Protocol Config.all (run (step Config.all) (.fresh .zero) queriesElement) ∧
    (run (step Config.all) (.fresh .zero) queriesElement).answers.map
      (fun x => (x.record.errorId, x.record.response.compareMatches, x.record.response.errorHint)) =
        [(0, false, none), (0, false, none), (0, false, none), (3, true, some 8)] :=
  ⟨requests_answered Config.all ⟨rfl, fun _ => rfl⟩ (init_fresh _) (by decide +kernel) (by decide +kernel),
    by decide +kernel⟩

/-- the record of an element in a set: there is no value to be given back -/
def RemoteConfig.setting : RemoteConfig :=
  { RemoteConfig.plain with action := .set, response := ⟨none, false, none, 3⟩ }

/-- an element in a set, up to its first busy answer -/
def setsPlainElement : List Op :=
  exchange .sessionStart .plain .ok ++ exchange .actionStart .setting .ok ++ exchange .groupStart .setting .ok ++
    [.submit .elementProcess .setting]

/-- without start_action the element of a set is queued for get_element with no value, and the worker leaves its loop -/
theorem element_unanswered :
    Complete Config.noStartAction ∧
    Along (step Config.noStartAction) (Legal Config.noStartAction) (.fresh .zero) setsPlainElement ∧
    ¬Protocol Config.noStartAction (run (step Config.noStartAction) (.fresh .zero) setsPlainElement) := by
  refine ⟨⟨by decide, by decide⟩, by decide +kernel, fun h => ?_⟩
  have hasked : (run (step Config.noStartAction) (.fresh .zero) setsPlainElement).request.isSome = true := by decide +kernel
  obtain ⟨r, hr⟩ := Option.isSome_iff_exists.1 hasked
  have hanswered := (h.progress r hr (by decide +kernel) .ok).1
  revert hanswered
  decide +kernel

end CcApi.Rci
